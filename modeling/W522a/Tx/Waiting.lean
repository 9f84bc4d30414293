import W522a.Lib.RunQueue
import W522a.Tx.Counted

/-!
Who waits on the lists. The flags and the lists are two copies of one fact after every step; that
what may send waits as well is kept where the steps are careful.
-/

namespace W522a.Tx.Lists

open Function (update)

variable {Sta : Type} [DecidableEq Sta]

/-- What may send waits on its list. -/
def Awake (tid : TxTid) : Prop := tid.paused = 0 → tid.txdsQueue ≠ [] → tid.bWork = true

/-- Paused with frames, and off its list. -/
def Asleep (tid : TxTid) : Prop := tid.paused ≠ 0 ∧ tid.txdsQueue ≠ [] ∧ tid.bWork = false

/-- The lists between two steps of a function: `ac` and `key` are what it has in hand. Where the
steps are careful, what is not in hand is awake. -/
structure Sound (careful : Prop) (ac : Option (AcKey Sta)) (key : Option (TidKey Sta))
    (lists : TxLists Sta) : Prop where
  tids : RunQueue.Consistent TidKey.ac (fun key => (lists.tid key).bWork) lists.tidQueue
  acs : RunQueue.Consistent AcKey.queueId lists.acWork lists.acq
  waiting : ∀ other, some other ≠ ac → lists.tidQueue other ≠ [] → lists.acWork other = true
  awake : careful → ∀ other, some other ≠ key → Awake (lists.tid other)

section Fields

variable (work : TxTid → TxTid) (key other : TidKey Sta) (ac : AcKey Sta) (lists : TxLists Sta)

theorem focus_self : (focus work key lists).tid key = work (load key lists) :=
  Function.update_self ..

theorem focus_other (different : other ≠ key) :
    (focus work key lists).tid other = lists.tid other :=
  Function.update_of_ne different ..

theorem unlinkTid_self :
    (unlinkTid key lists).tid key = { lists.tid key with bWork := false } :=
  Function.update_self ..

theorem unlinkTid_other (different : other ≠ key) :
    (unlinkTid key lists).tid other = lists.tid other :=
  Function.update_of_ne different ..

theorem unlinkTid_tidQueue {rest : List (TidKey Sta)} (first : lists.tidQueue key.ac = key :: rest) :
    (unlinkTid key lists).tidQueue key.ac = rest := by
  show update lists.tidQueue key.ac ((lists.tidQueue key.ac).erase key) key.ac = rest
  rw [Function.update_self, first, List.erase_cons_head]

theorem linkAc_tid : (linkAc ac lists).tid = lists.tid := by
  unfold linkAc
  split <;> rfl

theorem linkAc_tidQueue : (linkAc ac lists).tidQueue = lists.tidQueue := by
  unfold linkAc
  split <;> rfl

theorem linkAc_txdsPendingCnt : (linkAc ac lists).txdsPendingCnt = lists.txdsPendingCnt := by
  unfold linkAc
  split <;> rfl

theorem linkAc_acWork (other : AcKey Sta) :
    (linkAc ac lists).acWork other = (lists.acWork other || decide (other = ac)) := by
  unfold linkAc
  split
  · rename_i linked
    by_cases same : other = ac
    · rw [same, linked, Bool.true_or]
    · rw [decide_eq_false same, Bool.or_false]
  · by_cases same : other = ac
    · rw [same]
      show update lists.acWork ac true ac = _
      rw [Function.update_self, decide_eq_true rfl, Bool.or_true]
    · show update lists.acWork ac true other = _
      rw [Function.update_of_ne same, decide_eq_false same, Bool.or_false]

theorem unlinkTid_queue :
    ((unlinkTid key lists).tid other).txdsQueue = (lists.tid other).txdsQueue := by
  by_cases same : other = key
  · rw [same, unlinkTid_self]
  · rw [unlinkTid_other _ _ _ same]

theorem queueTid_queue :
    ((drvTxQueueTid key lists).tid other).txdsQueue = (lists.tid other).txdsQueue := by
  unfold drvTxQueueTid
  split
  · rfl
  · split
    · rfl
    · rw [linkAc_tid]
      show (update lists.tid key { lists.tid key with bWork := true } other).txdsQueue = _
      by_cases same : other = key
      · rw [same, Function.update_self]
      · rw [Function.update_of_ne same]

theorem queueTid_count :
    (drvTxQueueTid key lists).txdsPendingCnt = lists.txdsPendingCnt := by
  unfold drvTxQueueTid
  split
  · rfl
  · split
    · rfl
    · exact linkAc_txdsPendingCnt ..

end Fields

section Moves

variable {ac : AcKey Sta} {hand : Option (AcKey Sta)} {key : TidKey Sta}
  {held : Option (TidKey Sta)} {lists : TxLists Sta} {careful : Prop}

theorem Sound.unlinkAc (sound : Sound careful none held lists) (ac : AcKey Sta) :
    Sound careful (some ac) held (unlinkAc ac lists) where
  tids := sound.tids
  acs := sound.acs.unlink (Function.update_self ..) fun other different =>
    Function.update_of_ne different ..
  waiting := by
    intro other different queued
    show update lists.acWork ac false other = true
    rw [Function.update_of_ne fun same => different (congrArg some same)]
    exact sound.waiting other (Option.some_ne_none other) queued
  awake := sound.awake

theorem consistent_linkAc (acs : RunQueue.Consistent AcKey.queueId lists.acWork lists.acq) :
    RunQueue.Consistent AcKey.queueId (linkAc ac lists).acWork (linkAc ac lists).acq := by
  unfold linkAc
  split
  · exact acs
  · rename_i off
    exact acs.link (Bool.eq_false_iff.mpr off) (Function.update_self ..)
      fun other different => Function.update_of_ne different ..

theorem Sound.linkAc (sound : Sound careful (some ac) held lists) :
    Sound careful none held (linkAc ac lists) where
  tids := by
    rw [linkAc_tid, linkAc_tidQueue]
    exact sound.tids
  acs := consistent_linkAc sound.acs
  waiting := by
    intro other _ queued
    rw [linkAc_tidQueue] at queued
    rw [linkAc_acWork]
    by_cases same : other = ac
    · rw [decide_eq_true same, Bool.or_true]
    · rw [sound.waiting other (fun both => same (Option.some.inj both)) queued, Bool.true_or]
  awake := by
    rw [linkAc_tid]
    exact sound.awake

theorem Sound.settleAc (sound : Sound careful (some ac) held lists) (empty : lists.tidQueue ac = []) :
    Sound careful none held lists where
  tids := sound.tids
  acs := sound.acs
  waiting := by
    intro other _ queued
    by_cases same : other = ac
    · rw [same] at queued
      exact absurd empty queued
    · exact sound.waiting other (fun both => same (Option.some.inj both)) queued
  awake := sound.awake

theorem Sound.unlinkTid (sound : Sound careful hand none lists) (key : TidKey Sta) :
    Sound careful hand (some key) (unlinkTid key lists) where
  tids := by
    refine sound.tids.unlink ?_ ?_
    · rw [unlinkTid_self]
    · intro other different
      rw [unlinkTid_other _ _ _ different]
  acs := sound.acs
  waiting := by
    intro other different queued
    refine sound.waiting other different fun empty => queued ?_
    show update lists.tidQueue key.ac ((lists.tidQueue key.ac).erase key) other = []
    by_cases same : other = key.ac
    · rw [same] at empty ⊢
      rw [Function.update_self, empty, List.erase_nil]
    · rw [Function.update_of_ne same, empty]
  awake := by
    intro care other different
    rw [unlinkTid_other _ _ _ fun same => different (congrArg some same)]
    exact sound.awake care other (Option.some_ne_none other)

theorem Sound.settleTid (sound : Sound careful hand (some key) lists)
    (awake : Awake (lists.tid key)) : Sound careful hand none lists where
  tids := sound.tids
  acs := sound.acs
  waiting := sound.waiting
  awake := by
    intro care other _
    by_cases same : other = key
    · rw [same]
      exact awake
    · exact sound.awake care other fun both => same (Option.some.inj both)

omit [DecidableEq Sta] in
theorem Sound.takeTid (sound : Sound careful hand none lists) (key : TidKey Sta) :
    Sound careful hand (some key) lists where
  tids := sound.tids
  acs := sound.acs
  waiting := sound.waiting
  awake := fun care other _ => sound.awake care other (Option.some_ne_none other)

/-- The lists after an identifier has been written back with its flag unchanged. -/
theorem Sound.write {later : TxLists Sta} (sound : Sound careful hand held lists)
    (work : (later.tid key).bWork = (lists.tid key).bWork)
    (awake : careful → some key ≠ held → Awake (later.tid key))
    (others : ∀ other, other ≠ key → later.tid other = lists.tid other)
    (tidQueue : later.tidQueue = lists.tidQueue) (acWork : later.acWork = lists.acWork)
    (acq : later.acq = lists.acq) : Sound careful hand held later where
  tids := by
    rw [tidQueue]
    refine sound.tids.congr fun other => ?_
    by_cases same : other = key
    · rw [same, work]
    · rw [others other same]
  acs := by
    rw [acWork, acq]
    exact sound.acs
  waiting := by
    rw [tidQueue, acWork]
    exact sound.waiting
  awake := by
    intro care other free
    by_cases same : other = key
    · subst same
      exact awake care free
    · rw [others other same]
      exact sound.awake care other free

theorem Sound.focus {work : TxTid → TxTid} (sound : Sound careful hand held lists)
    (patient : ∀ tid, Patient tid (work tid)) (key : TidKey Sta) :
    Sound careful hand held (focus work key lists) := by
  have done := patient (load key lists)
  refine sound.write ?_ ?_ (focus_other work key · lists) rfl rfl rfl
  · rw [focus_self, done.work]
    rfl
  · intro care free
    rw [focus_self]
    intro running queued
    rw [done.work]
    refine sound.awake care key free ?_ (done.fewer queued)
    exact (done.patient running).resolve_right queued

theorem Sound.focusHeld {work : TxTid → TxTid} (sound : Sound careful hand (some key) lists)
    (kept : ∀ tid, (work tid).bWork = tid.bWork) :
    Sound careful hand (some key) (Lists.focus work key lists) := by
  refine sound.write ?_ (fun _ free => absurd rfl free) (focus_other work key · lists) rfl rfl rfl
  rw [focus_self, kept]
  rfl

/-- A function of one identifier that may end its pause, when the identifier is not asleep. -/
theorem Sound.wake {work : TxTid → TxTid} (sound : Sound careful hand none lists)
    (fixed : ∀ tid, Fixed tid (work tid)) (key : TidKey Sta)
    (ends : careful → (work (load key lists)).paused ≠ (load key lists).paused →
      ¬ Asleep (lists.tid key)) :
    Sound careful hand none (Lists.focus work key lists) := by
  have done := fixed (load key lists)
  refine sound.write ?_ ?_ (focus_other work key · lists) rfl rfl rfl
  · rw [focus_self, done.work]
    rfl
  · intro care free
    rw [focus_self]
    intro running queued
    rw [done.queue] at queued
    rw [done.work]
    show (lists.tid key).bWork = true
    by_cases paused : (lists.tid key).paused = 0
    · exact sound.awake care key free paused queued
    · refine Bool.ne_false_iff.mp fun off => ends care ?_ ⟨paused, queued, off⟩
      rw [running]
      exact Ne.symm paused

theorem Sound.queueTid (sound : Sound careful hand (some key) lists) :
    Sound careful hand none (drvTxQueueTid key lists) := by
  unfold drvTxQueueTid
  split
  · rename_i paused
    exact sound.settleTid fun running => absurd running paused
  · split
    · rename_i working
      exact sound.settleTid fun _ _ => working
    · rename_i off
      have self : (linkTid key lists).tid key = { lists.tid key with bWork := true } :=
        Function.update_self ..
      have others : ∀ other, other ≠ key → (linkTid key lists).tid other = lists.tid other :=
        fun other different => Function.update_of_ne different ..
      constructor
      · rw [linkAc_tid, linkAc_tidQueue]
        refine sound.tids.link (Bool.eq_false_iff.mpr off) ?_ ?_
        · rw [self]
        · intro other different
          rw [others other different]
      · exact consistent_linkAc sound.acs
      · intro other different queued
        rw [linkAc_tidQueue] at queued
        rw [linkAc_acWork]
        by_cases same : other = key.ac
        · rw [decide_eq_true same, Bool.or_true]
        · have before : lists.tidQueue other ≠ [] := by
            intro empty
            refine queued ?_
            show update lists.tidQueue key.ac _ other = []
            rw [Function.update_of_ne same, empty]
          show (lists.acWork other || _) = true
          rw [sound.waiting other different before, Bool.true_or]
      · intro care other _
        rw [linkAc_tid]
        by_cases same : other = key
        · rw [same, self]
          exact fun _ _ => rfl
        · rw [others other same]
          exact sound.awake care other fun both => same (Option.some.inj both)

end Moves

section Functions

variable {env : ListEnv Sta} {ac : AcKey Sta} {key : TidKey Sta} {lists : TxLists Sta}
  {careful : Prop}

omit [DecidableEq Sta] in
/-- The identifiers on an access category belong to it. -/
theorem Sound.ac_eq {hand : Option (AcKey Sta)} {held : Option (TidKey Sta)}
    {rest : List (TidKey Sta)} (sound : Sound careful hand held lists)
    (queued : lists.tidQueue ac = key :: rest) : key.ac = ac := by
  refine sound.tids.home_eq ?_
  rw [queued]
  exact List.mem_cons_self

private theorem Sound.serveTids (sound : Sound careful (some ac) none lists) (env : ListEnv Sta)
    (hal : Nat → HalTurn) {keys : List (TidKey Sta)} (queued : lists.tidQueue ac = keys) :
    Sound careful (some ac) none (serveTids env hal keys lists) := by
  induction keys generalizing lists with
  | nil => exact sound
  | cons key rest induction =>
    have own := sound.ac_eq queued
    have unlinked := sound.unlinkTid key
    have left : (Lists.unlinkTid key lists).tidQueue ac = rest := by
      rw [← own] at queued ⊢
      exact unlinkTid_tidQueue key lists queued
    rw [Lists.serveTids]
    dsimp only
    split
    · rename_i paused
      exact induction (unlinked.settleTid fun running => absurd running paused) left
    · rename_i running
      have served := unlinked.focusHeld fun tid =>
        (drvTxSchedAggr_local (env.sta key.sta) hal tid).1.work
      split
      · exact served.queueTid
      · rename_i empty
        exact served.settleTid fun _ nonempty => absurd nonempty empty

theorem Sound.task (hal : Nat → HalTurn) (queueId : Nat) (sound : Sound careful none none lists) :
    Sound careful none none (drvTxlistTask env hal queueId lists) := by
  unfold drvTxlistTask
  split
  · exact sound
  · rename_i ac rest found
    have served := (sound.unlinkAc ac).serveTids env hal rfl
    dsimp only
    split
    · exact served.linkAc
    · rename_i empty
      exact served.settleAc (of_not_not empty)

theorem Sound.rewrite (sound : Sound careful none none lists) (key : TidKey Sta) (tid : TxTid)
    (work : tid.bWork = (lists.tid key).bWork) :
    Sound careful none (some key) { lists with tid := update lists.tid key tid } := by
  refine (sound.takeTid key).write ?_ (fun _ free => absurd rfl free)
    (fun other different => Function.update_of_ne different ..) rfl rfl rfl
  show (update lists.tid key tid key).bWork = _
  rw [Function.update_self, work]

theorem Sound.resume (hal : Nat → HalTurn) (key : TidKey Sta) (sound : Sound careful none none lists) :
    Sound careful none none (drvTxlistResumeForStaTid env hal key lists) := by
  unfold drvTxlistResumeForStaTid
  dsimp only
  split
  · exact sound
  · have written := sound.rewrite key
      { lists.tid key with paused := (lists.tid key).paused - 1 } rfl
    split
    · rename_i idle
      refine written.settleTid fun running queued => ?_
      rcases idle with paused | empty
      · exact absurd running paused
      · exact absurd empty queued
    · exact written.queueTid.task hal key.queueId

omit [DecidableEq Sta] in
theorem Sound.recount {count : Nat → Nat} (sound : Sound careful none none lists) :
    Sound careful none none { lists with txdsPendingCnt := count } :=
  ⟨sound.tids, sound.acs, sound.waiting, sound.awake⟩

private theorem Sound.sendAmpdu (hal : Nat → HalTurn) (key : TidKey Sta) (ptxdesc : TxDesc)
    (sound : Sound careful none none lists)
    (rested : careful → drvTidIsHostap (env.sta key.sta) = true →
      apAmpduPendingLimit ≤ lists.txdsPendingCnt key.queueId → ¬ Asleep (lists.tid key)) :
    Sound careful none none (drvTxSendAmpdu env hal key ptxdesc lists) := by
  unfold drvTxSendAmpdu
  dsimp only
  split
  · rename_i full
    refine sound.wake (fun tid => ?_) key fun care _ => rested care full.1 full.2
    exact ⟨rfl, rfl, rfl, Or.inr rfl⟩
  · have written := sound.rewrite key
      { lists.tid key with txdsQueue := (lists.tid key).txdsQueue ++ [ptxdesc] } rfl
    split
    · exact written.queueTid.recount
    · exact written.queueTid.recount.task hal key.queueId

theorem Sound.send (hal : Nat → HalTurn) (key : TidKey Sta) (request : TxRequest)
    (sound : Sound careful none none lists)
    (rested : careful → (drvTxPrepare request (load key lists)).1.bAmpdu = true →
      drvTidIsHostap (env.sta key.sta) = true →
      apAmpduPendingLimit ≤ lists.txdsPendingCnt key.queueId → ¬ Asleep (lists.tid key)) :
    Sound careful none none (drvSend env hal key request lists) := by
  obtain ⟨prepared, pause⟩ := drvTxPrepare_fixed request (load key lists)
  have numbered : Sound careful none none
      (Lists.focus (fun tid => (drvTxPrepare request tid).2) key lists) :=
    sound.focus (fun tid =>
      (drvTxPrepare_fixed request tid).1.patient (drvTxPrepare_fixed request tid).2) key
  unfold drvSend
  dsimp only
  split
  · rename_i member
    refine numbered.sendAmpdu hal key _ fun care hostap full asleep => ?_
    have count : (Lists.focus (fun tid => (drvTxPrepare request tid).2) key
        lists).txdsPendingCnt key.queueId = lists.txdsPendingCnt key.queueId :=
      (Function.update_self ..).trans prepared.count
    rw [count] at full
    refine rested care member hostap full ?_
    obtain ⟨paused, queued, off⟩ := asleep
    rw [focus_self] at paused queued off
    rw [pause] at paused
    rw [prepared.queue] at queued
    rw [prepared.work] at off
    exact ⟨paused, queued, off⟩
  · exact numbered.focus (drvTxNormal_patient _) key

theorem Sound.rspProcess (hal : Nat → HalTurn) (key : TidKey Sta) (rsp : AddbaRsp)
    (sound : Sound careful none none lists)
    (rested : careful → rsp.statuscode ≠ wifinetStatusSuccess →
      (lists.tid key).addbaExchangeinprogress = false → ¬ Asleep (lists.tid key)) :
    Sound careful none none (drvAddbaRspProcess env hal key rsp lists) := by
  unfold drvAddbaRspProcess
  dsimp only
  split
  · have agreed := sound.focus (agreed_patient (env.sta key.sta) rsp) key
    split
    · exact agreed
    · split
      · exact agreed.resume hal key
      · exact agreed.focus (drvTxlistFlushForStaTid_patient _) key
  · rename_i refused
    split
    · -- The flush that follows empties the queue, asleep or not.
      have given := (sound.takeTid key).focusHeld fun tid =>
        show (drvTxbaQuarantine (env.sta key.sta) .addbaRefused (answerRequest rsp tid)).bWork =
          tid.bWork from (answerRequest_fixed rsp tid).1.work
      have flushed := given.focusHeld fun tid =>
        (drvTxlistFlushForStaTid_patient (env.sta key.sta) tid).work
      refine flushed.settleTid fun _ queued => absurd ?_ queued
      rw [focus_self]
      refine drvTxlistFlushForStaTid_empty _ ?_
      rw [load, focus_self]
      rfl
    · rename_i idle
      refine sound.wake (fun tid => ?_) key fun care _ =>
        rested care refused (Bool.eq_false_iff.mpr idle)
      exact (answerRequest_fixed rsp tid).1.trans (drvTxbaQuarantine_fixed _ _ _)

omit [DecidableEq Sta] in
/-- The fields of every identifier that its lists do not see. -/
theorem Sound.rewriteAll (sound : Sound careful none none lists) (tid : TidKey Sta → TxTid)
    (work : ∀ key, (tid key).bWork = (lists.tid key).bWork)
    (awake : careful → ∀ key, Awake (lists.tid key) → Awake (tid key)) :
    Sound careful none none { lists with tid := tid } where
  tids := sound.tids.congr work
  acs := sound.acs
  waiting := sound.waiting
  awake := fun care key free => awake care key (sound.awake care key free)

theorem Sound.addbaClear (sta : Sta) (sound : Sound careful none none lists)
    (rested : careful → ∀ key, key.sta = sta → (lists.tid key).addbaExchangecomplete = true →
      ¬ Asleep (lists.tid key)) : Sound careful none none (drvAddbaClear sta lists) := by
  refine sound.rewriteAll _ (fun key => ?_) fun care key before => ?_
  · split
    · exact (drvAddbaClear_fixed (lists.tid key)).work
    · rfl
  · split
    · rename_i own
      by_cases complete : (lists.tid key).addbaExchangecomplete = true
      · have cleared := drvAddbaClear_fixed (lists.tid key)
        intro _ queued
        rw [cleared.queue] at queued
        rw [cleared.work]
        by_cases paused : (lists.tid key).paused = 0
        · exact before paused queued
        · exact Bool.ne_false_iff.mp fun off => rested care key own complete ⟨paused, queued, off⟩
      · unfold Tx.drvAddbaClear
        dsimp only
        rw [if_neg complete]
        exact before
    · exact before

/-- None of the identifiers that wait on a category belongs to the interface. -/
def Foreign (vid : Nat) (lists : TxLists Sta) (ac : AcKey Sta) : Prop :=
  ∀ key ∈ lists.tidQueue ac, ¬ (lists.vid key.sta = vid ∨ vid = 3)

/-- Emptying an access category if it belongs to the interface: all its identifiers are of one
station. -/
theorem Sound.pushTids (sound : Sound careful (some ac) none lists) (env : ListEnv Sta) (vid : Nat)
    {keys : List (TidKey Sta)} (acNeedFlush : Bool) (queued : lists.tidQueue ac = keys) :
    Sound careful (some ac) none (pushTids env vid keys acNeedFlush lists).2 ∧
      ((pushTids env vid keys acNeedFlush lists).1 = true →
        (pushTids env vid keys acNeedFlush lists).2.tidQueue ac = []) ∧
      Foreign vid (pushTids env vid keys acNeedFlush lists).2 ac := by
  induction keys generalizing lists acNeedFlush with
  | nil =>
    refine ⟨sound, fun _ => queued, fun key found => ?_⟩
    rw [show (Lists.pushTids env vid [] acNeedFlush lists).2 = lists from rfl, queued] at found
    cases found
  | cons key rest induction =>
    have own := sound.ac_eq queued
    rw [Lists.pushTids]
    split
    · have drained := (sound.unlinkTid key).focusHeld fun tid =>
        (drvTidDrain_patient (env.sta key.sta) tid).work
      have settled := drained.settleTid fun _ nonempty => by
        rw [focus_self] at nonempty
        exact absurd (drvTidDrain_empty _ _) nonempty
      refine induction settled true ?_
      show (Lists.unlinkTid key lists).tidQueue ac = rest
      rw [← own] at queued ⊢
      exact unlinkTid_tidQueue key lists queued
    · rename_i foreign
      refine ⟨sound, fun flushed => Bool.noConfusion flushed, fun other found => ?_⟩
      have both : other.ac = key.ac := (sound.tids.home_eq found).trans own.symm
      have same : other.sta = key.sta := congrArg AcKey.sta both
      rw [same]
      exact foreign

/-- What the inner loop leaves as it is. -/
structure PushFrame (before after : TxLists Sta) : Prop where
  acq : after.acq = before.acq
  acWork : after.acWork = before.acWork
  vid : after.vid = before.vid
  fewer : ∀ ac, after.tidQueue ac ⊆ before.tidQueue ac

private theorem pushTids_frame (env : ListEnv Sta) (vid : Nat) (keys : List (TidKey Sta))
    (acNeedFlush : Bool) (lists : TxLists Sta) :
    PushFrame lists (pushTids env vid keys acNeedFlush lists).2 := by
  induction keys generalizing lists acNeedFlush with
  | nil => exact ⟨rfl, rfl, rfl, fun _ => List.Subset.refl _⟩
  | cons key rest induction =>
    rw [pushTids]
    split
    · obtain ⟨acq, acWork, vid, fewer⟩ :=
        induction true (focus (drvTidDrain (env.sta key.sta)) key (unlinkTid key lists))
      refine ⟨acq, acWork, vid, fun ac => List.Subset.trans (fewer ac) ?_⟩
      show update lists.tidQueue key.ac ((lists.tidQueue key.ac).erase key) ac ⊆ lists.tidQueue ac
      by_cases same : ac = key.ac
      · rw [same, Function.update_self]
        exact List.erase_subset
      · rw [Function.update_of_ne same]
        exact List.Subset.refl _
    · exact ⟨rfl, rfl, rfl, fun _ => List.Subset.refl _⟩

/-- The lists with the categories kept aside back at the end of theirs. -/
def spliced (queueId : Nat) (acNotRelease : List (AcKey Sta)) (lists : TxLists Sta) :
    TxLists Sta :=
  { lists with acq := update lists.acq queueId (lists.acq queueId ++ acNotRelease) }

omit [DecidableEq Sta] in
theorem spliced_acq (queueId : Nat) (acNotRelease : List (AcKey Sta)) (lists : TxLists Sta) :
    (spliced queueId acNotRelease lists).acq queueId = lists.acq queueId ++ acNotRelease :=
  Function.update_self ..

/-- The identifiers are pushed out whatever waits on the lists above them. -/
theorem pushTids_spliced (env : ListEnv Sta) (vid queueId : Nat) (keys : List (TidKey Sta))
    (acNeedFlush : Bool) (acNotRelease : List (AcKey Sta)) (lists : TxLists Sta) :
    pushTids env vid keys acNeedFlush (spliced queueId acNotRelease lists) =
      ((pushTids env vid keys acNeedFlush lists).1,
        spliced queueId acNotRelease (pushTids env vid keys acNeedFlush lists).2) := by
  induction keys generalizing lists acNeedFlush with
  | nil => rfl
  | cons key rest induction =>
    rw [pushTids, pushTids]
    by_cases own : lists.vid key.sta = vid ∨ vid = 3
    · rw [if_pos own]
      refine (if_pos own).trans ?_
      exact induction true (focus (drvTidDrain (env.sta key.sta)) key (unlinkTid key lists))
    · rw [if_neg own]
      exact if_neg own

/-- Unlinking the first category and putting back those kept aside do not disturb each other. -/
theorem unlinkAc_spliced {queueId : Nat} {rest acNotRelease : List (AcKey Sta)}
    (own : ac.queueId = queueId) (waiting : lists.acq queueId = ac :: rest) :
    unlinkAc ac (spliced queueId acNotRelease lists) =
      spliced queueId acNotRelease (unlinkAc ac lists) := by
  subst own
  have one : (unlinkAc ac (spliced ac.queueId acNotRelease lists)).acq =
      update lists.acq ac.queueId (rest ++ acNotRelease) := by
    simp only [unlinkAc, spliced, Function.update_self, Function.update_idem, waiting,
      List.cons_append, List.erase_cons_head]
  have other : (spliced ac.queueId acNotRelease (unlinkAc ac lists)).acq =
      update lists.acq ac.queueId (rest ++ acNotRelease) := by
    simp only [unlinkAc, spliced, Function.update_self, Function.update_idem, waiting,
      List.erase_cons_head]
  exact congrArg (fun acq => { unlinkAc ac lists with acq := acq }) (one.trans other.symm)

private theorem spliced_concat {queueId : Nat} {acNotRelease : List (AcKey Sta)}
    (own : ac.queueId = queueId) (off : lists.acWork ac = false) :
    spliced queueId (acNotRelease ++ [ac]) { lists with acWork := update lists.acWork ac true } =
      linkAc ac (spliced queueId acNotRelease lists) := by
  subst own
  have free : ¬ (spliced ac.queueId acNotRelease lists).acWork ac = true := by
    show ¬ lists.acWork ac = true
    rw [off]
    exact Bool.false_ne_true
  rw [linkAc, if_neg free]
  simp only [spliced, Function.update_self, Function.update_idem, List.append_assoc]

private theorem Sound.pushAcs (env : ListEnv Sta) (vid : Nat) {queueId : Nat}
    {acs acNotRelease : List (AcKey Sta)} (acNeedFlush : Bool)
    (sound : Sound careful none none (spliced queueId acNotRelease lists))
    (waiting : lists.acq queueId = acs) (aside : ∀ ac ∈ acNotRelease, Foreign vid lists ac) :
    let pushed := pushAcs env vid acs acNeedFlush acNotRelease lists
    Sound careful none none (spliced queueId pushed.2 pushed.1) ∧ pushed.1.acq queueId = [] ∧
      ∀ ac ∈ pushed.2, Foreign vid pushed.1 ac := by
  induction acs generalizing lists acNeedFlush acNotRelease with
  | nil => exact ⟨sound, waiting, aside⟩
  | cons ac rest induction =>
    have own : ac.queueId = queueId := by
      refine sound.acs.home_eq ?_
      rw [spliced_acq, waiting]
      exact List.mem_cons_self
    obtain ⟨unlinked, unlinked_eq⟩ : ∃ unlinked, unlinked = Lists.unlinkAc ac lists := ⟨_, rfl⟩
    obtain ⟨pushed, pushed_eq⟩ : ∃ pushed,
        pushed = Lists.pushTids env vid (unlinked.tidQueue ac) acNeedFlush unlinked := ⟨_, rfl⟩
    obtain ⟨soundPushed, emptied, foreign⟩ :
        Sound careful (some ac) none (spliced queueId acNotRelease pushed.2) ∧
          (pushed.1 = true → pushed.2.tidQueue ac = []) ∧ Foreign vid pushed.2 ac := by
      have soundUnlinked := sound.unlinkAc ac
      rw [unlinkAc_spliced own waiting, ← unlinked_eq] at soundUnlinked
      have result := soundUnlinked.pushTids env vid acNeedFlush rfl
      rw [pushTids_spliced] at result
      rw [pushed_eq]
      exact result
    obtain ⟨acq, acWork, vidSame, fewer⟩ :=
      pushTids_frame env vid (unlinked.tidQueue ac) acNeedFlush unlinked
    rw [← pushed_eq] at acq acWork vidSame fewer
    have left : pushed.2.acq queueId = rest := by
      rw [acq, unlinked_eq, ← own]
      show update lists.acq ac.queueId ((lists.acq ac.queueId).erase ac) ac.queueId = rest
      rw [Function.update_self, own, waiting, List.erase_cons_head]
    have off : pushed.2.acWork ac = false := by
      rw [acWork, unlinked_eq]
      exact Function.update_self ..
    have kept : ∀ other ∈ acNotRelease, Foreign vid pushed.2 other := by
      intro other found key queued
      rw [vidSame, unlinked_eq]
      have before := fewer other queued
      rw [unlinked_eq] at before
      exact aside other found key before
    rw [Lists.pushAcs]
    dsimp only
    rw [← unlinked_eq, ← pushed_eq]
    split
    · rename_i flushed
      exact induction pushed.1 (soundPushed.settleAc (emptied flushed)) left kept
    · refine induction pushed.1 ?_ left ?_
      · rw [spliced_concat own off]
        exact soundPushed.linkAc
      · intro other found
        rcases List.mem_append.mp found with old | new
        · exact kept other old
        · rw [List.mem_singleton.mp new]
          exact foreign

/-- The push keeps the lists, and what still waits on the list belongs to other interfaces. -/
theorem Sound.pushPending {vid queueId : Nat} (sound : Sound careful none none lists) :
    Sound careful none none (drvTxlistPushPending env vid queueId lists) ∧
      ∀ ac ∈ (drvTxlistPushPending env vid queueId lists).acq queueId,
        Foreign vid (drvTxlistPushPending env vid queueId lists) ac := by
  have nothing : spliced queueId [] lists = lists := by
    unfold spliced
    rw [List.append_nil, Function.update_eq_self]
  obtain ⟨kept, emptied, foreign⟩ := Sound.pushAcs env vid false
    (by rw [nothing]; exact sound) rfl (fun _ found => absurd found List.not_mem_nil)
  refine ⟨kept, fun ac found => ?_⟩
  have listed : ac ∈ (spliced queueId (Lists.pushAcs env vid (lists.acq queueId) false [] lists).2
      (Lists.pushAcs env vid (lists.acq queueId) false [] lists).1).acq queueId := found
  rw [spliced_acq, emptied, List.nil_append] at listed
  exact foreign ac listed

theorem Sound.freeAllByVid (sound : Sound careful none none lists) (env : ListEnv Sta)
    (vid queueId : Nat) :
    Sound careful none none (drvTxlistFreeAllByVid env vid queueId lists) ∧
      (env.cfgTxaggr = true → ∀ ac ∈ (drvTxlistFreeAllByVid env vid queueId lists).acq queueId,
        Foreign vid (drvTxlistFreeAllByVid env vid queueId lists) ac) := by
  have orphaned := sound.rewriteAll
    (fun key =>
      if key.queueId = queueId ∧ (lists.vid key.sta = vid ∨ vid = 3) then
        { lists.tid key with
          inHal := (lists.tid key).inHal.map TxDesc.orphan
          normal := (lists.tid key).normal.map NormalDesc.orphan }
      else lists.tid key)
    (fun key => by split <;> rfl) (fun _ key before => by split <;> exact before)
  unfold drvTxlistFreeAllByVid
  dsimp only
  split
  · exact ⟨orphaned.pushPending.1, fun _ => orphaned.pushPending.2⟩
  · rename_i plain
    exact ⟨orphaned, fun configured => absurd configured plain⟩

omit [DecidableEq Sta] in
/-- What every turn of a loop over the lists keeps. -/
theorem Sound.foldl {work : TxLists Sta → Nat → TxLists Sta}
    (kept : ∀ lists queueId, Sound careful none none lists →
      Sound careful none none (work lists queueId))
    (queues : List Nat) (sound : Sound careful none none lists) :
    Sound careful none none (queues.foldl work lists) := by
  induction queues generalizing lists with
  | nil => exact sound
  | cons queueId rest induction => exact induction (kept lists queueId sound)

theorem Sound.flushfree {vid : Nat} (sound : Sound careful none none lists) :
    Sound careful none none (drvTxlistFlushfree env vid lists) :=
  sound.foldl (fun _ _ before => (before.freeAllByVid env vid _).1.recount) _

private theorem Sound.cleanupTids {keys : List (TidKey Sta)}
    (sound : Sound careful (some ac) none lists)
    (queued : lists.tidQueue ac = keys) :
    Sound careful none none (cleanupTids env keys lists) := by
  induction keys generalizing lists with
  | nil => exact sound.settleAc queued
  | cons key rest induction =>
    have own := sound.ac_eq queued
    have cleaned := (sound.unlinkTid key).focusHeld fun tid =>
      (cleanupTid_patient (env.sta key.sta) tid).work
    have settled := cleaned.settleTid fun _ nonempty => by
      rw [focus_self] at nonempty
      exact absurd (cleanupTid_shape _ _).2.1 nonempty
    refine induction settled ?_
    show (Lists.unlinkTid key lists).tidQueue ac = rest
    rw [← own] at queued ⊢
    exact unlinkTid_tidQueue key lists queued

private theorem Sound.cleanupAcs {sta : Sta} {acs : List (AcKey Sta)}
    (sound : Sound careful none none lists) :
    Sound careful none none (cleanupAcs env sta acs lists) := by
  induction acs generalizing lists with
  | nil => exact sound
  | cons ac rest induction =>
    rw [Lists.cleanupAcs]
    split
    · exact induction sound
    · rename_i key others queued
      split
      · exact induction sound
      · exact induction ((sound.unlinkAc ac).cleanupTids queued)

theorem Sound.cleanup {sta : Sta} (sound : Sound careful none none lists) :
    Sound careful none none (drvTxlistCleanupForSta env sta lists) :=
  sound.foldl (fun _ _ before => before.cleanupAcs) _

end Functions

end W522a.Tx.Lists
