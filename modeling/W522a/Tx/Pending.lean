import Mathlib.Algebra.BigOperators.Group.Finset.Basic
import Mathlib.Algebra.Order.BigOperators.Group.Finset
import Mathlib.Data.Fintype.Prod
import W522a.Tx.Wakeup

/-!
The count of the frames pending on a list. It is exact in every run in which a flush leaves no
frame behind on any list.
-/

namespace W522a.Tx.Lists

open Function (update)

variable {Sta : Type}

instance [Fintype Sta] : Fintype (TidKey Sta) :=
  Fintype.ofEquiv (Sta × Fin wmeNumTid)
    ⟨fun pair => ⟨pair.1, pair.2⟩, fun key => (key.sta, key.index), fun _ => rfl, fun _ => rfl⟩

variable [Fintype Sta]

/-- The frames in the queue of an identifier, as far as it is mapped to the list. -/
def share (lists : TxLists Sta) (queueId : Nat) (key : TidKey Sta) : Nat :=
  if key.queueId = queueId then (lists.tid key).txdsQueue.length else 0

def frames (lists : TxLists Sta) (queueId : Nat) : Nat := ∑ key, share lists queueId key

/-- Every count is the number of frames on its list. -/
def Counted (lists : TxLists Sta) : Prop :=
  ∀ queueId, lists.txdsPendingCnt queueId = frames lists queueId

section Frames

variable {lists later : TxLists Sta} {key : TidKey Sta}

omit [Fintype Sta] in
theorem share_self (lists : TxLists Sta) (key : TidKey Sta) :
    share lists key.queueId key = (lists.tid key).txdsQueue.length := if_pos rfl

omit [Fintype Sta] in
theorem share_congr {queueId : Nat}
    (same : (later.tid key).txdsQueue = (lists.tid key).txdsQueue) :
    share later queueId key = share lists queueId key := by
  unfold share
  rw [same]

private theorem frames_congr (same : ∀ key, (later.tid key).txdsQueue = (lists.tid key).txdsQueue)
    (queueId : Nat) : frames later queueId = frames lists queueId :=
  Finset.sum_congr rfl fun key _ => share_congr (same key)

theorem queue_le_frames (lists : TxLists Sta) (key : TidKey Sta) :
    (lists.tid key).txdsQueue.length ≤ frames lists key.queueId := by
  rw [← share_self lists key]
  exact Finset.single_le_sum (fun _ _ => Nat.zero_le _) (Finset.mem_univ key)

theorem frames_eq_zero {queueId : Nat}
    (empty : ∀ key, key.queueId = queueId → (lists.tid key).txdsQueue = []) :
    frames lists queueId = 0 := by
  refine Finset.sum_eq_zero fun key _ => ?_
  unfold share
  split
  · rename_i own
    rw [empty key own, List.length_nil]
  · rfl

variable [DecidableEq Sta]

/-- What one queue loses or gains, its list loses or gains. -/
theorem frames_exchange
    (others : ∀ other, other ≠ key → (later.tid other).txdsQueue = (lists.tid other).txdsQueue) :
    frames later key.queueId + (lists.tid key).txdsQueue.length =
      frames lists key.queueId + (later.tid key).txdsQueue.length := by
  have rest : ∑ other ∈ Finset.univ.erase key, share later key.queueId other =
      ∑ other ∈ Finset.univ.erase key, share lists key.queueId other :=
    Finset.sum_congr rfl fun other found => share_congr (others other (Finset.ne_of_mem_erase found))
  have after := Finset.add_sum_erase Finset.univ (share later key.queueId) (Finset.mem_univ key)
  have before := Finset.add_sum_erase Finset.univ (share lists key.queueId) (Finset.mem_univ key)
  rw [share_self] at after before
  unfold frames
  omega

private theorem frames_elsewhere {queueId : Nat}
    (others : ∀ other, other ≠ key → (later.tid other).txdsQueue = (lists.tid other).txdsQueue)
    (elsewhere : queueId ≠ key.queueId) : frames later queueId = frames lists queueId := by
  refine Finset.sum_congr rfl fun other _ => ?_
  by_cases same : other = key
  · unfold share
    rw [same, if_neg (Ne.symm elsewhere), if_neg (Ne.symm elsewhere)]
  · exact share_congr (others other same)

end Frames

section Steps

variable [DecidableEq Sta] {lists later : TxLists Sta} {key : TidKey Sta} {env : ListEnv Sta}

omit [DecidableEq Sta] in
theorem Counted.same (counted : Counted lists)
    (queues : ∀ key, (later.tid key).txdsQueue = (lists.tid key).txdsQueue)
    (counts : later.txdsPendingCnt = lists.txdsPendingCnt) : Counted later := by
  intro queueId
  rw [counts, frames_congr queues]
  exact counted queueId

/-- A step on one queue whose list is counted with it. -/
theorem Counted.write (counted : Counted lists) (key : TidKey Sta)
    (others : ∀ other, other ≠ key → (later.tid other).txdsQueue = (lists.tid other).txdsQueue)
    (elsewhere : ∀ queueId, queueId ≠ key.queueId →
      later.txdsPendingCnt queueId = lists.txdsPendingCnt queueId)
    (balanced : later.txdsPendingCnt key.queueId + (lists.tid key).txdsQueue.length =
      lists.txdsPendingCnt key.queueId + (later.tid key).txdsQueue.length) : Counted later := by
  intro queueId
  by_cases own : queueId = key.queueId
  · subst own
    have exchanged := frames_exchange others
    rw [counted] at balanced
    omega
  · rw [elsewhere queueId own, frames_elsewhere others own]
    exact counted queueId

theorem Counted.focus {work : TxTid → TxTid} (counted : Counted lists)
    (balanced : ∀ tid, Local tid (work tid)) (key : TidKey Sta) :
    Counted (focus work key lists) := by
  refine counted.write key (fun other different => ?_) (fun queueId away => ?_) ?_
  · rw [focus_other _ _ _ _ different]
  · exact Function.update_of_ne away ..
  · have enough := queue_le_frames lists key
    rw [← counted] at enough
    rw [focus_self]
    refine Eq.trans ?_ ((balanced (load key lists)).balanced enough)
    exact congrArg (· + (lists.tid key).txdsQueue.length) (Function.update_self ..)

theorem Counted.unlinkTid (counted : Counted lists) (key : TidKey Sta) :
    Counted (unlinkTid key lists) :=
  counted.same (fun other => unlinkTid_queue key other lists) rfl

private theorem Counted.linkAc (counted : Counted lists) (ac : AcKey Sta) :
    Counted (linkAc ac lists) := by
  refine counted.same (fun key => ?_) (linkAc_txdsPendingCnt ac lists)
  rw [linkAc_tid]

theorem Counted.queueTid (counted : Counted lists) (key : TidKey Sta) :
    Counted (drvTxQueueTid key lists) :=
  counted.same (fun other => queueTid_queue key other lists) (queueTid_count key lists)

private theorem Counted.serveTids (hal : Nat → HalTurn) (keys : List (TidKey Sta))
    (counted : Counted lists) : Counted (serveTids env hal keys lists) := by
  induction keys generalizing lists with
  | nil => exact counted
  | cons key rest induction =>
    have unlinked := counted.unlinkTid key
    rw [Lists.serveTids]
    dsimp only
    split
    · exact induction unlinked
    · have served := unlinked.focus
        (fun tid => (drvTxSchedAggr_local (env.sta key.sta) hal tid).1) key
      split
      · exact served.queueTid key
      · exact served

theorem Counted.task (hal : Nat → HalTurn) (queueId : Nat) (counted : Counted lists) :
    Counted (drvTxlistTask env hal queueId lists) := by
  unfold drvTxlistTask
  split
  · exact counted
  · rename_i ac rest found
    have unlinked : Counted (unlinkAc ac lists) := counted.same (fun _ => rfl) rfl
    have served : Counted (Lists.serveTids env hal ((unlinkAc ac lists).tidQueue ac)
        (unlinkAc ac lists)) := unlinked.serveTids hal _
    dsimp only
    split
    · exact served.linkAc ac
    · exact served

private theorem Counted.sendAmpdu (hal : Nat → HalTurn) (key : TidKey Sta) (ptxdesc : TxDesc)
    (counted : Counted lists) : Counted (drvTxSendAmpdu env hal key ptxdesc lists) := by
  unfold drvTxSendAmpdu
  dsimp only
  split
  · refine counted.focus (fun tid => ?_) key
    exact Fixed.toLocal ⟨rfl, rfl, rfl, Or.inr rfl⟩
  · obtain ⟨longer, longer_eq⟩ : ∃ longer : TxLists Sta, longer =
        { lists with
          tid := update lists.tid key
            { lists.tid key with txdsQueue := (lists.tid key).txdsQueue ++ [ptxdesc] } } :=
      ⟨_, rfl⟩
    rw [← longer_eq]
    have added : Counted
        { drvTxQueueTid key longer with
          txdsPendingCnt := update (drvTxQueueTid key longer).txdsPendingCnt key.queueId
            ((drvTxQueueTid key longer).txdsPendingCnt key.queueId + 1) } := by
      refine counted.write key (fun other different => ?_) (fun queueId away => ?_) ?_
      · show ((drvTxQueueTid key longer).tid other).txdsQueue = _
        rw [queueTid_queue, longer_eq]
        exact congrArg TxTid.txdsQueue (Function.update_of_ne different ..)
      · show update (drvTxQueueTid key longer).txdsPendingCnt key.queueId _ queueId = _
        rw [Function.update_of_ne away, queueTid_count, longer_eq]
      · show update (drvTxQueueTid key longer).txdsPendingCnt key.queueId _ key.queueId + _ =
          _ + ((drvTxQueueTid key longer).tid key).txdsQueue.length
        rw [Function.update_self, queueTid_queue, queueTid_count, longer_eq]
        show lists.txdsPendingCnt key.queueId + 1 + _ =
          _ + (update lists.tid key _ key).txdsQueue.length
        rw [Function.update_self, List.length_append, List.length_singleton]
        omega
    split
    · exact added
    · exact added.task hal key.queueId

theorem Counted.send (hal : Nat → HalTurn) (key : TidKey Sta) (request : TxRequest)
    (counted : Counted lists) : Counted (drvSend env hal key request lists) := by
  have numbered := counted.focus (fun tid => (drvTxPrepare_fixed request tid).1.toLocal) key
  unfold drvSend
  dsimp only
  split
  · exact numbered.sendAmpdu hal key _
  · exact numbered.focus (fun tid => (drvTxNormal_patient _ tid).toLocal) key

theorem Counted.resume (hal : Nat → HalTurn) (key : TidKey Sta) (counted : Counted lists) :
    Counted (drvTxlistResumeForStaTid env hal key lists) := by
  have written : Counted
      { lists with
        tid := update lists.tid key
          { lists.tid key with paused := (lists.tid key).paused - 1 } } := by
    refine counted.same (fun other => ?_) rfl
    show (update lists.tid key _ other).txdsQueue = _
    by_cases same : other = key
    · rw [same, Function.update_self]
    · rw [Function.update_of_ne same]
  unfold drvTxlistResumeForStaTid
  dsimp only
  split
  · exact counted
  · split
    · exact written
    · exact (written.queueTid key).task hal key.queueId

theorem Counted.rspProcess (hal : Nat → HalTurn) (key : TidKey Sta) (rsp : AddbaRsp)
    (counted : Counted lists) : Counted (drvAddbaRspProcess env hal key rsp lists) := by
  have agreed := counted.focus (fun tid => (agreed_patient (env.sta key.sta) rsp tid).toLocal) key
  have given := counted.focus (fun tid => Fixed.toLocal ((answerRequest_fixed rsp tid).1.trans
    (drvTxbaQuarantine_fixed (env.sta key.sta) .addbaRefused _))) key
  unfold drvAddbaRspProcess
  dsimp only
  split
  · split
    · exact agreed
    · split
      · exact agreed.resume hal key
      · exact agreed.focus (fun tid => (drvTxlistFlushForStaTid_patient _ tid).toLocal) key
  · split
    · exact given.focus (fun tid => (drvTxlistFlushForStaTid_patient _ tid).toLocal) key
    · exact given

private theorem Counted.pushTids (vid : Nat) (keys : List (TidKey Sta)) (acNeedFlush : Bool)
    (counted : Counted lists) : Counted (pushTids env vid keys acNeedFlush lists).2 := by
  induction keys generalizing lists acNeedFlush with
  | nil => exact counted
  | cons key rest induction =>
    rw [Lists.pushTids]
    split
    · refine induction true ((counted.unlinkTid key).focus (fun tid => ?_) key)
      exact (drvTidDrain_patient (env.sta key.sta) tid).toLocal
    · exact counted

private theorem Counted.pushAcs (vid : Nat) (acs acNotRelease : List (AcKey Sta))
    (acNeedFlush : Bool)
    (counted : Counted lists) : Counted (pushAcs env vid acs acNeedFlush acNotRelease lists).1 := by
  induction acs generalizing lists acNeedFlush acNotRelease with
  | nil => exact counted
  | cons ac rest induction =>
    have unlinked : Counted (unlinkAc ac lists) := counted.same (fun _ => rfl) rfl
    have pushed : Counted (Lists.pushTids env vid ((unlinkAc ac lists).tidQueue ac) acNeedFlush
        (unlinkAc ac lists)).2 := unlinked.pushTids vid _ _
    rw [Lists.pushAcs]
    dsimp only
    split
    · exact induction _ _ pushed
    · exact induction _ _ (pushed.same (fun _ => rfl) rfl)

theorem Counted.pushPending (vid queueId : Nat) (counted : Counted lists) :
    Counted (drvTxlistPushPending env vid queueId lists) :=
  (counted.pushAcs vid _ [] false).same (fun _ => rfl) rfl

theorem Counted.freeAllByVid (vid queueId : Nat) (counted : Counted lists) :
    Counted (drvTxlistFreeAllByVid env vid queueId lists) := by
  unfold drvTxlistFreeAllByVid
  dsimp only
  split
  · refine Counted.pushPending vid queueId (counted.same (fun key => ?_) rfl)
    dsimp only
    split <;> rfl
  · refine counted.same (fun key => ?_) rfl
    dsimp only
    split <;> rfl

private theorem Counted.cleanupTids (keys : List (TidKey Sta)) (counted : Counted lists) :
    Counted (cleanupTids env keys lists) := by
  induction keys generalizing lists with
  | nil => exact counted
  | cons key rest induction =>
    refine induction ((counted.unlinkTid key).focus (fun tid => ?_) key)
    exact (cleanupTid_patient (env.sta key.sta) tid).toLocal

private theorem Counted.cleanupAcs (sta : Sta) (acs : List (AcKey Sta)) (counted : Counted lists) :
    Counted (cleanupAcs env sta acs lists) := by
  induction acs generalizing lists with
  | nil => exact counted
  | cons ac rest induction =>
    rw [Lists.cleanupAcs]
    split
    · exact induction counted
    · split
      · exact induction counted
      · have unlinked : Counted (unlinkAc ac lists) := counted.same (fun _ => rfl) rfl
        exact induction (unlinked.cleanupTids _)

theorem Counted.cleanup (sta : Sta) (queues : List Nat) (counted : Counted lists) :
    Counted (queues.foldl (fun lists queueId =>
      Lists.cleanupAcs env sta (lists.acq queueId) lists) lists) := by
  induction queues generalizing lists with
  | nil => exact counted
  | cons queueId rest induction => exact induction (counted.cleanupAcs sta _)

theorem Counted.addbaClear (sta : Sta) (counted : Counted lists) :
    Counted (drvAddbaClear sta lists) := by
  refine counted.same (fun key => ?_) rfl
  unfold drvAddbaClear
  dsimp only
  split
  · exact (drvAddbaClear_fixed (lists.tid key)).queue
  · rfl

end Steps

section Flush

variable [DecidableEq Sta] {lists : TxLists Sta} {env : ListEnv Sta} {vid : Nat}

/-- A flush of the interface reaches every frame: aggregation is configured, and every identifier
with frames waits on its list and belongs to the interface. -/
def Flushable (env : ListEnv Sta) (vid : Nat) (lists : TxLists Sta) : Prop :=
  ∀ key, (lists.tid key).txdsQueue ≠ [] →
    env.cfgTxaggr = true ∧ (lists.tid key).bWork = true ∧ (lists.vid key.sta = vid ∨ vid = 3)

omit [Fintype Sta] in
private theorem Flushable.pushTids (keys : List (TidKey Sta)) (acNeedFlush : Bool)
    (flushable : Flushable env vid lists) :
    Flushable env vid (pushTids env vid keys acNeedFlush lists).2 := by
  induction keys generalizing lists acNeedFlush with
  | nil => exact flushable
  | cons key rest induction =>
    rw [Lists.pushTids]
    split
    · refine induction true fun other queued => ?_
      by_cases same : other = key
      · rw [same, focus_self, drvTidDrain_empty] at queued
        exact absurd rfl queued
      · rw [focus_other _ _ _ _ same, unlinkTid_other _ _ _ same] at queued ⊢
        exact flushable other queued
    · exact flushable

omit [Fintype Sta] in
private theorem Flushable.pushAcs (acs acNotRelease : List (AcKey Sta)) (acNeedFlush : Bool)
    (flushable : Flushable env vid lists) :
    Flushable env vid (pushAcs env vid acs acNeedFlush acNotRelease lists).1 := by
  induction acs generalizing lists acNeedFlush acNotRelease with
  | nil => exact flushable
  | cons ac rest induction =>
    have unlinked : Flushable env vid (unlinkAc ac lists) := flushable
    rw [Lists.pushAcs]
    dsimp only
    split
    · exact induction _ _ (unlinked.pushTids _ _)
    · exact induction _ _ (unlinked.pushTids _ _)

omit [Fintype Sta] in
theorem Flushable.freeAllByVid (queueId : Nat) (flushable : Flushable env vid lists) :
    Flushable env vid (drvTxlistFreeAllByVid env vid queueId lists) := by
  have orphaned : Flushable env vid
      { lists with
        tid := fun key =>
          if key.queueId = queueId ∧ (lists.vid key.sta = vid ∨ vid = 3) then
            { lists.tid key with
              inHal := (lists.tid key).inHal.map TxDesc.orphan
              normal := (lists.tid key).normal.map NormalDesc.orphan }
          else lists.tid key } := by
    intro key queued
    dsimp only at queued ⊢
    split at queued
    · rename_i own
      rw [if_pos own]
      exact flushable key queued
    · rename_i other
      rw [if_neg other]
      exact flushable key queued
  unfold drvTxlistFreeAllByVid
  dsimp only
  split
  · exact orphaned.pushAcs _ [] false
  · exact orphaned

omit [Fintype Sta] in
/-- Nothing is left on a list that such a flush has pushed out. -/
theorem Flushable.emptied {careful : Prop} {queueId : Nat} (flushable : Flushable env vid lists)
    (sound : Sound careful none none lists) {key : TidKey Sta} (own : key.queueId = queueId) :
    ((drvTxlistFreeAllByVid env vid queueId lists).tid key).txdsQueue = [] := by
  refine of_not_not fun queued => ?_
  obtain ⟨configured, working, belongs⟩ := flushable.freeAllByVid queueId key queued
  obtain ⟨freed, foreign⟩ := sound.freeAllByVid env vid queueId
  have listed := (freed.tids.flag_iff key).mp working
  have linked := freed.waiting key.ac (Option.some_ne_none key.ac) (List.ne_nil_of_mem listed)
  have waiting := (freed.acs.flag_iff key.ac).mp linked
  rw [show key.ac.queueId = queueId from own] at waiting
  exact foreign configured key.ac waiting key listed belongs

/-- The lists between two turns of the loop of such a flush. -/
structure Flushing (env : ListEnv Sta) (vid : Nat) (lists : TxLists Sta) : Prop where
  sound : Sound False none none lists
  counted : Counted lists
  flushable : Flushable env vid lists

private theorem Flushing.turn (flushing : Flushing env vid lists) (queueId : Nat) :
    Flushing env vid
      { drvTxlistFreeAllByVid env vid queueId lists with
        txdsPendingCnt :=
          update (drvTxlistFreeAllByVid env vid queueId lists).txdsPendingCnt queueId 0 } where
  sound := (flushing.sound.freeAllByVid env vid queueId).1.recount
  counted := by
    intro other
    by_cases own : other = queueId
    · subst own
      refine (Function.update_self ..).trans (frames_eq_zero fun key mapped => ?_).symm
      exact flushing.flushable.emptied flushing.sound mapped
    · refine (Function.update_of_ne own ..).trans ?_
      exact flushing.counted.freeAllByVid vid queueId other
  flushable := flushing.flushable.freeAllByVid queueId

private theorem Flushing.flushfree (flushing : Flushing env vid lists) (queues : List Nat) :
    Flushing env vid (queues.foldl (fun lists queueId =>
      { drvTxlistFreeAllByVid env vid queueId lists with
        txdsPendingCnt :=
          update (drvTxlistFreeAllByVid env vid queueId lists).txdsPendingCnt queueId 0 })
      lists) := by
  induction queues generalizing lists with
  | nil => exact flushing
  | cons queueId rest induction => exact induction (flushing.turn queueId)

end Flush

section Runs

variable [DecidableEq Sta]

/-- A flush, which clears the count of every list, leaves no frame behind on any of them. -/
def PendingOk (lists : TxLists Sta) (moment : ListEnv Sta × ListEvent Sta) : Prop :=
  match moment.2 with
  | .flushfree vid => Flushable moment.1 vid lists
  | _ => True

omit [DecidableEq Sta] in
private theorem drvTxlistSetup_counted (vid : Sta → Nat) : Counted (drvTxlistSetup vid) :=
  fun _ => (frames_eq_zero fun _ _ => rfl).symm

/-- The lists with their flags, and their counts. -/
structure Tallied (lists : TxLists Sta) : Prop where
  sound : Sound False none none lists
  counted : Counted lists

private theorem listStep_counted (lists : TxLists Sta) (moment : ListEnv Sta × ListEvent Sta)
    (tallied : Tallied lists) (ok : PendingOk lists moment) :
    Counted (listStep lists moment) := by
  obtain ⟨sound, counted⟩ := tallied
  obtain ⟨env, event⟩ := moment
  cases event with
  | send hal key request => exact counted.send hal key request
  | task hal queueId => exact counted.task hal queueId
  | timeout waitMpduTimeout => exact counted.same (fun _ => rfl) rfl
  | complete key index txok =>
    exact counted.focus (fun tid => (completeAt_fixed _ index txok tid).toLocal) key
  | completeNormal key index txok =>
    exact counted.focus (fun tid => (completeNormalAt_fixed _ index txok tid).toLocal) key
  | reqSetup key => exact counted.focus (fun tid => (drvAddbaReqSetup_patient _ tid).toLocal) key
  | rspProcess hal key rsp => exact counted.rspProcess hal key rsp
  | requestTimer key => exact counted.focus (fun tid => (drvAddbaTimer_fixed _ tid).toLocal) key
  | pause key => exact counted.focus (fun tid => (drvTxlistPauseForStaTid_patient tid).toLocal) key
  | resume hal key => exact counted.resume hal key
  | flush key =>
    exact counted.focus (fun tid => (drvTxlistFlushForStaTid_patient _ tid).toLocal) key
  | ampduDel key => exact counted.focus (fun tid => (drvTxampduDel_patient _ tid).toLocal) key
  | addbaClear sta => exact counted.addbaClear sta
  | pushPending vid queueId => exact counted.pushPending vid queueId
  | flushfree vid =>
    have flushing : Flushing env vid lists := ⟨sound, counted, ok⟩
    exact (flushing.flushfree _).counted
  | cleanup sta => exact counted.cleanup sta _

private theorem listStep_tallied (lists : TxLists Sta) (moment : ListEnv Sta × ListEvent Sta)
    (tallied : Tallied lists) (ok : PendingOk lists moment) : Tallied (listStep lists moment) where
  sound := listStep_sound lists moment tallied.sound fun care => care.elim
  counted := listStep_counted lists moment tallied ok

/-- In every run whose flushes leave no frame behind, the count of every list is the number of
frames in the queues of the identifiers mapped to it. -/
theorem pendingCnt_run (vid : Sta → Nat) (moments : List (ListEnv Sta × ListEvent Sta))
    (ok : Machine.Along listStep PendingOk (drvTxlistSetup vid) moments) (queueId : Nat) :
    (Machine.run listStep (drvTxlistSetup vid) moments).txdsPendingCnt queueId =
      frames (Machine.run listStep (drvTxlistSetup vid) moments) queueId :=
  (ok.invariant listStep_tallied
    ⟨drvTxlistSetup_sound False vid, drvTxlistSetup_counted vid⟩).counted queueId

/-- A frame waits for room in the HAL as an interface is flushed. -/
def waitingFlushed (vid : Nat) : List (ListEnv Unit × ListEvent Unit) :=
  [(hostapEnv 1, .reqSetup bestEffort),
    (hostapEnv 1, .rspProcess (roomyHal true) bestEffort ⟨0, 64, false⟩),
    (hostapEnv 1, .send (fun _ => ⟨0, true, true⟩) bestEffort (dataRequest 1 true)),
    (hostapEnv 1, .flushfree vid)]

/-- The flush of the interface it waits for. -/
theorem pendingCnt_flushed :
    (Machine.run listStep (drvTxlistSetup fun _ => 0) (waitingFlushed 0)).txdsPendingCnt 0 =
      frames (Machine.run listStep (drvTxlistSetup fun _ => 0) (waitingFlushed 0)) 0 := by
  refine pendingCnt_run (fun _ => 0) (waitingFlushed 0) ⟨trivial, trivial, trivial, ?_, trivial⟩ 0
  intro key
  revert key
  decide +kernel

/-- The flush of another interface clears the count, and the frame stays. -/
theorem pendingCnt_cleared :
    ¬ ∀ (moments : List (ListEnv Unit × ListEvent Unit)) (queueId : Nat),
      (Machine.run listStep (drvTxlistSetup fun _ => 0) moments).txdsPendingCnt queueId =
        frames (Machine.run listStep (drvTxlistSetup fun _ => 0) moments) queueId := by
  intro always
  have cleared : (Machine.run listStep (drvTxlistSetup fun _ => 0)
      (waitingFlushed 1)).txdsPendingCnt 0 = 0 := by decide +kernel
  have left : ((Machine.run listStep (drvTxlistSetup fun _ => 0) (waitingFlushed 1)).tid
      bestEffort).txdsQueue.length = 1 := by decide +kernel
  have held := queue_le_frames
    (Machine.run listStep (drvTxlistSetup fun _ => 0) (waitingFlushed 1)) bestEffort
  rw [left, show bestEffort.queueId = 0 from rfl, ← always, cleared] at held
  cases held

end Runs

end W522a.Tx.Lists
