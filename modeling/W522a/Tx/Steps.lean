import W522a.Tx.Reachable

/-!
Every operation of an identifier keeps its invariant where the step is safe, and the scoreboard's
law follows for every run of safe steps.
-/

namespace W522a.Tx

/-- What the invariant depends on. -/
def TxTid.core (tid : TxTid) : BaWindow × List TxDesc × List TxDesc :=
  (tid.win, tid.inHal, tid.txdsQueue)

theorem TxInv.of_core {first second : TxTid} (inv : TxInv first)
    (same : second.core = first.core) : TxInv second := by
  obtain ⟨win, others⟩ := Prod.mk.inj same
  obtain ⟨inHal, queue⟩ := Prod.mk.inj others
  rw [TxInv, queued, win, inHal, queue]
  exact inv

section Frames

variable (env : TxEnv) (code : TxbaFault) (ptxdesc : TxDesc) (txok : Bool) (tid : TxTid)

@[simp] theorem noteFwResult_core : (noteFwResult env ptxdesc txok tid).core = tid.core := by
  unfold noteFwResult
  split
  · rfl
  · split
    · split <;> rfl
    · dsimp only
      split <;> rfl

@[simp] theorem drvTxComplete_core : (drvTxComplete env ptxdesc txok tid).core = tid.core :=
  noteFwResult_core env ptxdesc txok tid

@[simp] theorem drvTxCompleteList_core (queue : List TxDesc) :
    (drvTxCompleteList env queue txok tid).core = tid.core := by
  induction queue generalizing tid with
  | nil => rfl
  | cons first rest induction =>
    have next := induction (drvTxComplete env first txok tid)
    rw [drvTxComplete_core] at next
    exact next

@[simp] theorem drvTxNormal_core : (drvTxNormal ptxdesc tid).core = tid.core := rfl

@[simp] theorem drvTxQueueTid_core : (drvTxQueueTid tid).core = tid.core := by
  unfold drvTxQueueTid
  split <;> rfl

@[simp] theorem flushFrame_core : (flushFrame env ptxdesc tid).core = tid.core := by
  unfold flushFrame
  dsimp only
  split
  · rfl
  · exact drvTxComplete_core env ptxdesc false _

@[simp] theorem drvTxlistPauseForStaTid_core : (drvTxlistPauseForStaTid tid).core = tid.core := by
  unfold drvTxlistPauseForStaTid
  split <;> rfl

@[simp] theorem answerRequest_core (rsp : AddbaRsp) :
    (answerRequest rsp tid).core = tid.core := by
  unfold answerRequest
  dsimp only
  split <;> rfl

@[simp] theorem unpause_core : (unpause tid).1.core = tid.core := by
  unfold unpause
  split
  · rfl
  · dsimp only
    split
    · rfl
    · exact drvTxQueueTid_core _

end Frames

section Flushes

/-- The window and the frames in flight are as before, and so is the queue or it is given up. -/
def Kept (first second : TxTid) : Prop :=
  second.core = first.core ∨ second.core = (first.win, first.inHal, [])

variable {env : TxEnv} {tid first second third : TxTid}

theorem Kept.win (kept : Kept first second) : second.win = first.win := by
  rcases kept with same | emptied
  · exact (Prod.mk.inj same).1
  · exact (Prod.mk.inj emptied).1

theorem Kept.trans_core (kept : Kept second third) (same : second.core = first.core) :
    Kept first third := by
  obtain ⟨win, others⟩ := Prod.mk.inj same
  obtain ⟨inHal, -⟩ := Prod.mk.inj others
  rcases kept with unchanged | emptied
  · exact Or.inl (unchanged.trans same)
  · right
    rw [emptied, win, inHal]

private theorem Kept.core_trans (kept : Kept first second) (same : third.core = second.core) :
    Kept first third := by
  rcases kept with unchanged | emptied
  · exact Or.inl (same.trans unchanged)
  · exact Or.inr (same.trans emptied)

theorem TxInv.of_kept (inv : TxInv first) (kept : Kept first second) : TxInv second := by
  rcases kept with same | emptied
  · exact inv.of_core same
  · have without : TxInv { first with txdsQueue := [] } := Consistent.emptied inv
    exact without.of_core emptied

theorem drvTidSwqCleanup_kept (env : TxEnv) (tid : TxTid) :
    Kept tid (drvTidSwqCleanup env tid) :=
  Or.inr (drvTxCompleteList_core _ _ _ _)

private theorem flushFrames_core (queue : List TxDesc) (tid : TxTid) :
    (queue.foldl (fun tid ptxdesc => flushFrame env ptxdesc tid) tid).core = tid.core := by
  induction queue generalizing tid with
  | nil => rfl
  | cons first rest induction =>
    have next := induction (flushFrame env first tid)
    rw [flushFrame_core] at next
    exact next

theorem drvTxlistFlushForStaTid_kept (env : TxEnv) (tid : TxTid) :
    Kept tid (drvTxlistFlushForStaTid env tid) := by
  unfold drvTxlistFlushForStaTid
  dsimp only
  split
  · exact Or.inl rfl
  · exact Or.inr (flushFrames_core _ _)

private theorem drvTidCleanup_kept (env : TxEnv) (tid : TxTid) :
    Kept tid (drvTidCleanup env tid) := by
  have cleaned := drvTidSwqCleanup_kept env tid
  unfold drvTidCleanup
  dsimp only
  split
  · exact cleaned
  · split
    · split
      · exact cleaned.core_trans rfl
      · exact cleaned.core_trans rfl
    · exact cleaned.core_trans rfl

theorem drvTxlistCleanupForSta_kept (env : TxEnv) (tid : TxTid) :
    Kept tid (drvTxlistCleanupForSta env tid) := by
  unfold drvTxlistCleanupForSta
  split
  · exact Or.inl rfl
  · dsimp only
    split
    · exact (drvTidCleanup_kept env _).trans_core rfl
    · exact (drvTidCleanup_kept env _).trans_core rfl

theorem drvTxampduDel_kept (env : TxEnv) (tid : TxTid) : Kept tid (drvTxampduDel env tid) := by
  unfold drvTxampduDel
  split
  · exact Or.inl rfl
  · split
    · exact Or.inl rfl
    · dsimp only
      have flushed : ∀ other : TxTid, other.core = tid.core →
          Kept tid (drvTxlistFlushForStaTid env other) := fun other same =>
        (drvTxlistFlushForStaTid_kept env other).trans_core same
      split
      · split
        · exact flushed _ (drvTxlistPauseForStaTid_core _)
        · exact flushed _ (drvTxlistPauseForStaTid_core _)
      · split
        · exact flushed _ (drvTxlistPauseForStaTid_core _)
        · exact flushed _ (drvTxlistPauseForStaTid_core _)

end Flushes

section Scheduler

variable {env : TxEnv} {tid : TxTid}

theorem aggregated_append (first second : List TxDesc) :
    aggregated (first ++ second) = aggregated first ++ aggregated second := by
  simp [aggregated]

theorem aggregated_of_ready {frames : List TxDesc} {taken : List TxDesc}
    (same : frames.map TxDesc.member = taken.map TxDesc.member)
    (ready : ∀ member ∈ taken.map TxDesc.member, member.bAmpdu = true) :
    aggregated frames = taken.map TxDesc.member := by
  rw [aggregated, same]
  exact List.filter_eq_self.mpr ready

/-- A turn that has sent the frames it took: the window records them, and they fly as they were
queued. -/
structure SentTurn (tid later : TxTid) (taken rest : List TxDesc) : Prop where
  win : later.win = recordAll taken tid.win
  inHal : ∃ flying, later.inHal = tid.inHal ++ flying ∧
    flying.map TxDesc.member = taken.map TxDesc.member
  queue : later.txdsQueue = rest

/-- A turn that builds an aggregate sends it. -/
theorem TurnOk.dispatch {hal : HalTurn} {taken rest : List TxDesc} (safe : TurnOk env hal tid)
    (result : BuildResult env tid taken rest (drvTxampduBuild env tid))
    {first : TxDesc} {others : List TxDesc}
    (frames : (drvTxampduBuild env tid).frames = first :: others) :
    taken ≠ [] ∧ SentTurn tid
      (dispatchAmpdu env hal.accepts first others (drvTxampduBuild env tid).tid).1 taken rest := by
  obtain ⟨sampleRate, scoreboard⟩ := result.scoreboard
  have members : first.member :: others.map TxDesc.member = taken.map TxDesc.member := by
    rw [← result.frames, frames, List.map_cons]
  have count : others.length + 1 = taken.length := by
    have lengths := congrArg List.length members
    simpa using lengths
  have pktnum := result.pktnum first others frames
  have nonempty : taken ≠ [] := by
    intro nothing
    rw [nothing] at count
    cases count
  obtain ⟨front, last, shape⟩ := (List.eq_nil_or_concat taken).resolve_left nonempty
  have reachedLast : Reached env tid front last :=
    result.reached front last [] (by simpa using shape)
  have short : front.length < 16 := safe.short front last reachedLast
  have accepts : hal.accepts = true := safe.accepted front last reachedLast
  have length : taken.length = front.length + 1 := by simp [shape]
  refine ⟨nonempty, ?_⟩
  unfold dispatchAmpdu
  have counted : ¬ (first.pktnum = 0 ∨ txAggrStatusLen < first.pktnum) := by
    simp only [txAggrStatusLen]
    omega
  rw [if_neg counted]
  simp only [scoreboard, accepts, sendToHal, if_true]
  split
  · rename_i single
    have alone : others = [] := List.eq_nil_of_length_eq_zero (by omega)
    subst alone
    have oneframe : env.cfgAmpduOneframe = true := by
      rcases safe.paired with kept | paired
      · exact kept
      · have front_nil : front = [] := List.eq_nil_of_length_eq_zero (by omega)
        subst front_nil
        obtain ⟨second, reachedSecond⟩ := paired last reachedLast
        have longer := (result.complete [last] second reachedSecond).length_le
        simp [shape] at longer
    rw [if_neg (by simp)]
    refine ⟨rfl, ⟨[soleFrame env first], rfl, ?_⟩, rfl⟩
    rw [← members]
    simp [soleFrame, oneframe, TxDesc.member]
  · refine ⟨rfl, ⟨{ first with b11n := true, bAggr := true } :: others, rfl, ?_⟩, rfl⟩
    rw [← members]
    rfl

/-- An invariant that depends on the window, the frames in flight and the members that are queued,
that the queue may be given up under, and that a turn keeps which sends its aggregate. -/
structure Scheduled (env : TxEnv) (inv : TxTid → Prop) : Prop where
  same : ∀ {first second : TxTid}, inv first → second.win = first.win →
    second.inHal = first.inHal → queued second = queued first → inv second
  emptied : ∀ {tid : TxTid}, inv tid → inv { tid with txdsQueue := [] }
  sent : ∀ {hal : HalTurn} {tid later : TxTid} {taken rest : List TxDesc}, inv tid →
    TurnOk env hal tid → BuildResult env tid taken rest (drvTxampduBuild env tid) → taken ≠ [] →
    SentTurn tid later taken rest → inv later

namespace Scheduled

variable {inv : TxTid → Prop}

theorem of_core (kept : Scheduled env inv) {first second : TxTid} (holds : inv first)
    (same : second.core = first.core) : inv second := by
  obtain ⟨win, others⟩ := Prod.mk.inj same
  obtain ⟨inHal, queue⟩ := Prod.mk.inj others
  exact kept.same holds win inHal (congrArg (List.map TxDesc.member) queue)

private theorem of_kept (kept : Scheduled env inv) {first second : TxTid} (holds : inv first)
    (same : Kept first second) : inv second := by
  rcases same with same | emptied
  · exact kept.of_core holds same
  · exact kept.of_core (kept.emptied holds) emptied

private theorem schedTurn (kept : Scheduled env inv) {hal : HalTurn} (holds : inv tid)
    (safe : schedDue env hal tid = true → tid.txdsQueue ≠ [] → hal.bufferFull = false →
      TurnOk env hal tid) : inv (schedTurn env hal tid).1 := by
  unfold Tx.schedTurn
  split
  · exact kept.of_core holds rfl
  · rename_i due
    split
    · exact holds
    · rename_i room
      obtain ⟨nonempty, notFull⟩ := not_or.mp room
      have turnOk := safe (by simpa using due) nonempty (by simpa using notFull)
      obtain ⟨taken, rest, result⟩ := drvTxampduBuild_result env tid
      dsimp only
      split
      · rename_i nothing
        obtain ⟨sampleRate, scoreboard⟩ := result.scoreboard
        have none_taken : taken = [] := by
          have members := result.frames
          rw [nothing] at members
          exact List.map_eq_nil_iff.mp members.symm
        subst none_taken
        rw [scoreboard]
        exact kept.same holds rfl rfl result.queue
      · rename_i frames
        obtain ⟨some_, sent⟩ := turnOk.dispatch result frames
        exact kept.sent holds turnOk result some_ sent

private theorem schedLoop (kept : Scheduled env inv) {hal : Nat → HalTurn} {fuel turn : Nat}
    (holds : inv tid) (safe : LoopOk env hal fuel turn tid) :
    inv (schedLoop env hal fuel turn tid) := by
  induction fuel generalizing turn tid with
  | zero => exact holds
  | succ fuel induction =>
    obtain ⟨first, others⟩ := safe
    have next : inv (Tx.schedTurn env (hal turn) tid).1 := kept.schedTurn holds first
    rw [Tx.schedLoop]
    dsimp only
    split
    · rename_i more
      exact induction next (others more)
    · exact next

theorem task (kept : Scheduled env inv) {hal : Nat → HalTurn} (holds : inv tid)
    (safe : TaskOk env hal tid) : inv (drvTxlistTask env hal tid) := by
  unfold drvTxlistTask
  split
  · exact holds
  · rename_i work
    dsimp only
    split
    · exact kept.of_core holds rfl
    · rename_i unpaused
      have scheduled : inv (drvTxSchedAggr env hal { tid with bWork := false }) := by
        unfold drvTxSchedAggr
        split
        · exact kept.of_core holds rfl
        · rename_i mother
          exact kept.schedLoop (kept.of_core holds rfl) (safe (by simpa using work)
            (by simpa using unpaused) (by simpa using mother))
      split
      · exact kept.of_core scheduled (drvTxQueueTid_core _)
      · exact scheduled

theorem runTask (kept : Scheduled env inv) {hal : Nat → HalTurn} {entry : TxTid × Bool}
    (holds : inv entry.1) (safe : RunOk env hal entry) : inv (runTask env hal entry) := by
  unfold Tx.runTask
  split
  · rename_i runs
    exact kept.task holds (safe runs)
  · exact holds

/-- The answer of the peer lets the task run again, or the queue is given up. -/
theorem rspProcess (kept : Scheduled env inv) {hal : Nat → HalTurn} {rsp : AddbaRsp}
    (holds : inv tid)
    (safe : rsp.statuscode = wifinetStatusSuccess →
      inv (acceptRsp env rsp (answerRequest rsp tid)) ∧
        (tid.addbaExchangeinprogress = true → env.sta.isSome = true →
          RunOk env hal (unpause (acceptRsp env rsp (answerRequest rsp tid))))) :
    inv (drvAddbaRspProcess env hal rsp tid) := by
  have answered : inv (answerRequest rsp tid) := kept.of_core holds (answerRequest_core tid rsp)
  unfold drvAddbaRspProcess
  dsimp only
  split
  · rename_i success
    obtain ⟨accepted, runs⟩ := safe success
    split
    · exact accepted
    · rename_i resumes
      split
      · rename_i present
        refine kept.runTask ?_ (runs (by simpa using resumes) present)
        exact kept.of_core accepted (unpause_core _)
      · exact kept.of_kept accepted (drvTxlistFlushForStaTid_kept _ _)
  · split
    · exact kept.of_kept answered ((drvTxlistFlushForStaTid_kept _ _).trans_core rfl)
    · exact kept.of_core answered rfl

end Scheduled

theorem TxInv.scheduled : Scheduled env TxInv where
  same := by
    intro first second inv win inHal queue
    rw [TxInv, win, inHal, queue]
    exact inv
  emptied := Consistent.emptied
  sent := by
    intro hal tid later taken rest inv safe result _ turn
    obtain ⟨flying, inHal, same⟩ := turn.inHal
    have consistent : Consistent tid.win (aggregated tid.inHal)
        (taken.map TxDesc.member ++ rest.map TxDesc.member) := by
      rw [← List.map_append, result.queue]
      exact inv
    have within : ∀ ptxdesc ∈ taken, tid.win.index ptxdesc.seqnum < tid.win.bawSize := by
      intro ptxdesc found
      obtain ⟨before, after, split_eq⟩ := List.append_of_mem found
      have reached := result.reached before ptxdesc after split_eq
      have edge := safe.within before ptxdesc reached
      have inside : bawWithin tid.win.seqStart tid.win.bawSize ptxdesc.seqnum :=
        (reached.2.2 before ptxdesc [] rfl).1
      rw [bawWithin] at inside
      rw [BaWindow.index] at edge ⊢
      omega
    have ready : ∀ member ∈ taken.map TxDesc.member, member.bAmpdu = true := fun member found =>
      (consistent.ready member (List.mem_append_left _ found)).1
    rw [TxInv, queued, turn.win, inHal, turn.queue, aggregated_append,
      aggregated_of_ready same ready]
    exact consistent.send within

end Scheduler

section Events

variable {env : TxEnv} {tid : TxTid}

theorem drvTxPrepare_cases (request : TxRequest) (tid : TxTid) :
    UsesSeqNext request tid ∧
        (drvTxPrepare request tid).2.core =
          ({ tid.win with seqNext := circleAddOne tid.win.seqNext wifinetSeqMax },
            tid.inHal, tid.txdsQueue) ∧
        (drvTxPrepare request tid).1.seqnum = tid.win.seqNext ∧
        (drvTxPrepare request tid).1.bNulldata = false ∧
        (drvTxPrepare request tid).1.attached = true ∨
      ¬ UsesSeqNext request tid ∧ (drvTxPrepare request tid).2 = tid ∧
        (drvTxPrepare request tid).1.bAmpdu = request.desc.bAmpdu := by
  unfold drvTxPrepare UsesSeqNext
  dsimp only
  by_cases special : request.special ∨ request.desc.bNulldata
  · right
    simp only [if_pos special]
    refine ⟨fun uses => uses.1 special, trivial, ?_⟩
    split <;> rfl
  · have nulldata : request.desc.bNulldata = false := by
      simpa using fun null => special (Or.inr null)
    simp only [if_neg special]
    by_cases aggregates : request.aggregable ∧ !tid.cleanupInprogress ∧ tid.addbaExchangecomplete
    · simp only [if_pos aggregates]
      cases fragment : request.txfrag with
      | true => exact Or.inr ⟨by simp, rfl, rfl⟩
      | false => exact Or.inl ⟨⟨special, by simp⟩, rfl, rfl, nulldata, rfl⟩
    · simp only [if_neg aggregates]
      cases vht : request.vhtRate with
      | true => exact Or.inl ⟨⟨special, by simp⟩, rfl, rfl, nulldata, rfl⟩
      | false =>
        refine Or.inr ⟨by simp, rfl, ?_⟩
        simp only [Bool.false_eq_true, if_false]
        split <;> rfl

private theorem enqueueAmpdu_core (env : TxEnv) (ptxdesc : TxDesc) (tid : TxTid) :
    (enqueueAmpdu env ptxdesc tid).1.core = tid.core ∨
      (enqueueAmpdu env ptxdesc tid).1.core = (tid.win, tid.inHal, tid.txdsQueue ++ [ptxdesc]) := by
  unfold enqueueAmpdu
  split
  · exact Or.inl rfl
  · right
    exact drvTxQueueTid_core { tid with txdsQueue := tid.txdsQueue ++ [ptxdesc] }

theorem TxInv.send {hal : Nat → HalTurn} {request : TxRequest} (inv : TxInv tid)
    (safe : TxOk tid (env, .send hal request)) : TxInv (drvSend env hal request tid) := by
  obtain ⟨recent, stale, runs⟩ := safe
  unfold drvSend
  dsimp only
  rcases drvTxPrepare_cases request tid with
    ⟨uses, core, seqnum, nulldata, attached⟩ | ⟨other, same, bAmpdu⟩
  · have young := recent uses
    obtain ⟨win, others⟩ := Prod.mk.inj core
    obtain ⟨inHal, queue⟩ := Prod.mk.inj others
    have advanced : TxInv (drvTxPrepare request tid).2 := by
      rw [TxInv, queued, win, inHal, queue]
      exact Consistent.advance inv young
    split
    · rename_i ampdu
      refine TxInv.scheduled.runTask ?_ (runs ampdu)
      rcases enqueueAmpdu_core env (drvTxPrepare request tid).1 (drvTxPrepare request tid).2 with
        kept | joined
      · exact advanced.of_core kept
      · obtain ⟨win', others'⟩ := Prod.mk.inj joined
        obtain ⟨inHal', queue'⟩ := Prod.mk.inj others'
        rw [TxInv, queued, win', inHal', queue', win, inHal, queue, List.map_append]
        exact Consistent.enqueue inv young seqnum ⟨ampdu, nulldata, attached⟩
    · exact advanced.of_core (drvTxNormal_core _ _)
  · have plain : (drvTxPrepare request tid).1.bAmpdu = false := bAmpdu.trans (stale other)
    rw [if_neg (by simp [plain]), same]
    exact inv

theorem drvTxCompleteTask_core (env : TxEnv) {ptxdesc : TxDesc} (txok : Bool) (tid : TxTid)
    (plain : ptxdesc.bAmpdu = false) :
    (drvTxCompleteTask env ptxdesc txok tid).core = tid.core := by
  unfold drvTxCompleteTask
  split
  · exact drvTxComplete_core _ _ _ _
  · have unnoted : noteCompletion ptxdesc tid = tid := by
      unfold noteCompletion
      simp [plain]
    rw [unnoted]
    dsimp only
    split
    · rfl
    · exact drvTxComplete_core _ _ _ _

/-- A completion of an attached aggregate member slides the window. -/
theorem drvTxCompleteTask_member (env : TxEnv) {ptxdesc : TxDesc} (txok : Bool) (tid : TxTid)
    (ampdu : ptxdesc.bAmpdu = true) (nulldata : ptxdesc.bNulldata = false)
    (attached : ptxdesc.attached = true) (sta : env.sta.isSome = true) :
    (drvTxCompleteTask env ptxdesc txok tid).core =
      (drvTxUpdateBaWin ptxdesc.seqnum tid.win, tid.inHal, tid.txdsQueue) := by
  have noted : (noteCompletion ptxdesc tid).core =
      (drvTxUpdateBaWin ptxdesc.seqnum tid.win, tid.inHal, tid.txdsQueue) := by
    unfold noteCompletion
    simp only [ampdu, nulldata, Bool.not_false, and_self, if_true]
    split <;> rfl
  have present : env.sta.isNone = false := by
    simpa [Option.isSome_iff_ne_none] using sta
  unfold drvTxCompleteTask
  rw [if_neg (by simp [attached, present])]
  dsimp only
  split
  · exact noted
  · exact (drvTxComplete_core _ _ _ _).trans noted

theorem TxInv.completeAt {index : Nat} {txok : Bool} (inv : TxInv tid)
    (safe : TxOk tid (env, .complete index txok)) : TxInv (completeAt env index txok tid) := by
  unfold Tx.completeAt
  split
  · exact inv
  · rename_i ptxdesc found
    obtain ⟨inside, own⟩ := List.getElem?_eq_some_iff.mp found
    have split_eq : tid.inHal = tid.inHal.take index ++ ptxdesc :: tid.inHal.drop (index + 1) := by
      rw [← own, List.getElem_cons_drop, List.take_append_drop]
    have erased : tid.inHal.eraseIdx index =
        tid.inHal.take index ++ tid.inHal.drop (index + 1) :=
      List.eraseIdx_eq_take_drop_succ _ _
    have before_eq : aggregated tid.inHal = aggregated (tid.inHal.take index) ++
        aggregated (ptxdesc :: tid.inHal.drop (index + 1)) := by
      rw [← aggregated_append, ← split_eq]
    cases ampdu : ptxdesc.bAmpdu with
    | false =>
      have same : aggregated (tid.inHal.eraseIdx index) = aggregated tid.inHal := by
        rw [erased, before_eq, aggregated_append]
        simp [aggregated, TxDesc.member, ampdu]
      have remaining : TxInv { tid with inHal := tid.inHal.eraseIdx index } := by
        rw [TxInv, same]
        exact inv
      exact remaining.of_core (drvTxCompleteTask_core env txok _ ampdu)
    | true =>
      have members : aggregated tid.inHal = aggregated (tid.inHal.take index) ++
          ptxdesc.member :: aggregated (tid.inHal.drop (index + 1)) := by
        rw [before_eq]
        simp [aggregated, TxDesc.member, ampdu]
      have consistent : Consistent tid.win (aggregated (tid.inHal.take index) ++
          ptxdesc.member :: aggregated (tid.inHal.drop (index + 1))) (queued tid) := by
        rw [← members]
        exact inv
      obtain ⟨nulldata, attached⟩ := consistent.sound ptxdesc.member (by simp)
      have core := drvTxCompleteTask_member env txok
        { tid with inHal := tid.inHal.eraseIdx index } ampdu nulldata attached
        (safe ptxdesc found ampdu)
      obtain ⟨win, others⟩ := Prod.mk.inj core
      obtain ⟨inHal, queue⟩ := Prod.mk.inj others
      rw [TxInv, queued, win, inHal, queue]
      show Consistent (drvTxUpdateBaWin ptxdesc.seqnum tid.win)
        (aggregated (tid.inHal.eraseIdx index)) (queued tid)
      rw [erased, aggregated_append]
      exact consistent.complete

theorem completeNormalAt_core (index : Nat) (txok : Bool) :
    (completeNormalAt env index txok tid).core = tid.core := by
  unfold Tx.completeNormalAt
  split
  · rfl
  · rename_i ptxdesc found
    exact drvTxCompleteTask_core env txok { tid with normal := tid.normal.eraseIdx index } ptxdesc.2

theorem drvTxbaQuarantined_core (env : TxEnv) (tid : TxTid) :
    (drvTxbaQuarantined env tid).2.core = tid.core := by
  unfold drvTxbaQuarantined
  split
  · rfl
  · split <;> rfl

private theorem TxInv.reqSetup (inv : TxInv tid) (safe : TxOk tid (env, .reqSetup)) :
    TxInv (drvAddbaReqSetup env tid) := by
  have core := drvTxbaQuarantined_core env tid
  unfold drvAddbaReqSetup
  split
  · rename_i kept quarantined
    rw [quarantined] at core
    exact inv.of_core core
  · rename_i kept quarantined
    rw [quarantined] at core
    have together : tid.win.bawHead = tid.win.bawTail := by
      rcases safe with refused | together
      · rw [quarantined] at refused
        cases refused
      · exact together
    have restarted : TxInv { tid with win := { tid.win with seqStart := tid.win.seqNext } } :=
      Consistent.restart inv together inv.tracks.nextInside
    have same : ({ kept with win := { kept.win with seqStart := kept.win.seqNext } } : TxTid).core =
        ({ tid with win := { tid.win with seqStart := tid.win.seqNext } } : TxTid).core := by
      have same : kept.core = tid.core := core
      obtain ⟨win, others⟩ := Prod.mk.inj same
      obtain ⟨inHal, queue⟩ := Prod.mk.inj others
      simp only [TxTid.core, win, inHal, queue]
    dsimp only
    split
    · exact restarted.of_core same
    · exact restarted.of_core same

private theorem TxInv.rspProcess {hal : Nat → HalTurn} {rsp : AddbaRsp} (inv : TxInv tid)
    (safe : TxOk tid (env, .rspProcess hal rsp)) :
    TxInv (drvAddbaRspProcess env hal rsp tid) := by
  refine TxInv.scheduled.rspProcess inv fun success => ?_
  obtain ⟨fits, runs⟩ := safe success
  refine ⟨?_, runs⟩
  have ordered : 1 ≤ wmeBaBmpSize := by decide
  obtain ⟨low, high⟩ : 1 ≤ clampT rsp.buffersize 1 wmeBaBmpSize ∧
      clampT rsp.buffersize 1 wmeBaBmpSize ≤ wmeBaBmpSize := clampT_bounds ordered
  obtain ⟨win, others⟩ := Prod.mk.inj (answerRequest_core tid rsp)
  obtain ⟨inHal, queue⟩ := Prod.mk.inj others
  rw [TxInv, queued]
  simp only [acceptRsp, win, inHal, queue]
  exact { inv with
    tracks := { inv.tracks with sizeLow := low, sizeHigh := high, bounded := fits } }

theorem drvAddbaTimer_core : (drvAddbaTimer env tid).core = tid.core := by
  unfold drvAddbaTimer
  dsimp only
  split
  · rfl
  · rfl

theorem drvAddbaClear_core : (drvAddbaClear tid).core = tid.core := by
  unfold drvAddbaClear
  dsimp only
  split
  · rfl
  · rfl

theorem aggregated_of_plain {inHal : List TxDesc}
    (plain : ∀ ptxdesc ∈ inHal, ptxdesc.bAmpdu = false) : aggregated inHal = [] := by
  refine List.filter_eq_nil_iff.mpr ?_
  intro member found
  obtain ⟨ptxdesc, flying, rfl⟩ := List.mem_map.mp found
  simpa [TxDesc.member] using plain ptxdesc flying

private theorem TxInv.flushfree (inv : TxInv tid) (safe : TxOk tid (env, .flushfree)) :
    TxInv (drvTxlistFreeAllByVid env tid) := by
  have nobody : aggregated tid.inHal = [] := aggregated_of_plain safe
  have orphaned : aggregated (tid.inHal.map TxDesc.orphan) = [] := by
    refine aggregated_of_plain ?_
    intro ptxdesc found
    obtain ⟨other, flying, rfl⟩ := List.mem_map.mp found
    exact safe other flying
  have remaining : TxInv { tid with
      inHal := tid.inHal.map TxDesc.orphan, normal := tid.normal.map NormalDesc.orphan } := by
    rw [TxInv, orphaned, ← nobody]
    exact inv
  unfold drvTxlistFreeAllByVid
  dsimp only
  split
  · have core : (drvTidSwqCleanup env { tid with
        inHal := tid.inHal.map TxDesc.orphan
        normal := tid.normal.map NormalDesc.orphan
        bWork := false }).core = (tid.win, tid.inHal.map TxDesc.orphan, []) :=
      drvTxCompleteList_core _ _ _ _
    obtain ⟨win, others⟩ := Prod.mk.inj core
    obtain ⟨inHal, queue⟩ := Prod.mk.inj others
    unfold drvTidDrain
    rw [TxInv, queued]
    simp only [win, inHal, queue, orphaned]
    have emptied : Consistent tid.win (aggregated tid.inHal) [] := Consistent.emptied inv
    rw [nobody] at emptied
    exact emptied.drain
  · exact remaining

end Events

section Runs

variable {tid : TxTid}

private theorem txStep_inv (tid : TxTid) (moment : TxEnv × TxEvent) (inv : TxInv tid)
    (safe : TxOk tid moment) : TxInv (txStep tid moment) := by
  obtain ⟨env, event⟩ := moment
  cases event with
  | send hal request => exact inv.send safe
  | task hal => exact TxInv.scheduled.task inv safe
  | complete index txok => exact inv.completeAt safe
  | completeNormal index txok => exact inv.of_core (completeNormalAt_core index txok)
  | reqSetup => exact inv.reqSetup safe
  | rspProcess hal rsp => exact inv.rspProcess safe
  | requestTimer => exact inv.of_core drvAddbaTimer_core
  | pause => exact inv.of_core (drvTxlistPauseForStaTid_core tid)
  | resume hal => exact TxInv.scheduled.runTask (inv.of_core (unpause_core tid)) safe
  | flush => exact inv.of_kept (drvTxlistFlushForStaTid_kept env tid)
  | flushfree => exact inv.flushfree safe
  | cleanup => exact inv.of_kept (drvTxlistCleanupForSta_kept env tid)
  | ampduDel => exact inv.of_kept (drvTxampduDel_kept env tid)
  | addbaClear => exact inv.of_core drvAddbaClear_core
  | shared txdsPendingCnt waitMpduTimeout sampleRate => exact inv

private theorem emptyWindow_tracks :
    Tracks ⟨wmeMaxBa, 0, 0, 0, 0, 0, fun _ => none⟩ [] where
  headInside := by decide
  tailInside := by decide
  sizeLow := by decide
  sizeHigh := by decide
  startInside := by decide
  nextInside := by decide
  bounded := by decide
  ordered := by decide
  numbered := by simp
  held := by simp
  owned := by
    intro offset bound id occupied
    cases occupied
  distinct := List.Pairwise.nil

private theorem drvTxlistInitForSta_inv (tidIndex : Nat) :
    TxInv (drvTxlistInitForSta tidIndex) where
  tracks := emptyWindow_tracks
  opens := fun spans => absurd rfl spans
  sound := by simp [aggregated, drvTxlistInitForSta]
  numbered := by simp [queued, drvTxlistInitForSta]
  ready := by simp [queued, drvTxlistInitForSta]
  recent := by simp [queued, drvTxlistInitForSta]
  distinct := List.Pairwise.nil

private theorem mem_aggregated {inHal : List TxDesc} {ptxdesc : TxDesc} (found : ptxdesc ∈ inHal)
    (ampdu : ptxdesc.bAmpdu = true) : ptxdesc.member ∈ aggregated inHal :=
  List.mem_filter.mpr ⟨List.mem_map_of_mem found, ampdu⟩

private theorem aggregated_source {inHal : List TxDesc} {member : Member}
    (found : member ∈ aggregated inHal) :
    ∃ ptxdesc ∈ inHal, ptxdesc.bAmpdu = true ∧ ptxdesc.member = member := by
  obtain ⟨flying, ampdu⟩ := List.mem_filter.mp found
  obtain ⟨ptxdesc, inside, rfl⟩ := List.mem_map.mp flying
  exact ⟨ptxdesc, inside, ampdu, rfl⟩

private theorem TxInv.law (inv : TxInv tid) : ScoreboardLaw tid := by
  have tracks := inv.tracks
  have startInside := tracks.startInside
  have place : ∀ seqnum, seqnum < 4096 →
      seqnum = (tid.win.seqStart + tid.win.index seqnum) % wifinetSeqMax := by
    intro seqnum inside
    simp only [BaWindow.index, drvBaIndex, wifinetSeqMax]
    omega
  constructor
  case occupied =>
    intro offset bound id occupied
    obtain ⟨member, found, own, index⟩ := tracks.owned offset bound id occupied
    obtain ⟨ptxdesc, flying, ampdu, rfl⟩ := aggregated_source found
    refine ⟨ptxdesc, flying, ampdu, own, ?_⟩
    rw [← index]
    exact place _ (tracks.numbered _ found)
  case tracked =>
    intro ptxdesc flying ampdu
    have found := mem_aggregated flying ampdu
    obtain ⟨below, slot⟩ := tracks.held _ found
    exact ⟨tid.win.index ptxdesc.seqnum, below, place _ (tracks.numbered _ found), slot⟩
  case bounded => exact tracks.bounded
  case ordered => exact tracks.ordered
  case reopened =>
    intro plain
    refine tracks.inside.span_eq_zero_iff.mp ?_
    by_contra spans
    exact inv.opens spans (aggregated_of_plain plain)

end Runs

/-- In every run whose steps are all safe, the scoreboard keeps its law. -/
theorem txScoreboard_law (tidIndex : Nat) (moments : List (TxEnv × TxEvent))
    (safe : Machine.Along txStep TxOk (drvTxlistInitForSta tidIndex) moments) :
    ScoreboardLaw (Machine.run txStep (drvTxlistInitForSta tidIndex) moments) :=
  (safe.invariant txStep_inv (drvTxlistInitForSta_inv tidIndex)).law

/-- A connected station in station mode, with aggregates of up to `subframes` frames. -/
def plainTxEnv (subframes : Nat) : TxEnv where
  sta := some ⟨.other, true, true, false, -40, false⟩
  mpdudensity := 0
  now := 0
  cfgAmpduSubframes := subframes
  cfgAmpduOneframe := true
  cfgAmpduackpolicy := 255
  cfgApAmpduWaitTarget := 1
  cfgApAmpduHt20Limit := 8
  cfgApAmpduWideLimit := 8
  cfgTxamsdu := false
  motherChannel := true
  stats := ⟨0, 0, 0, 0⟩
  lookupRate := fun rateinfo => (rateinfo, 65535)

/-- A data frame of 1000 bytes; one that is not aggregated takes its number at a VHT rate. -/
def dataRequest (id : Nat) (aggregable : Bool) : TxRequest where
  desc :=
    { id := id
      seqnum := 0
      packetlen := 1004
      mpdulen := 1000
      rateinfo := ⟨1, 135, false, false, false, 65535, 65535, 65535⟩
      rateValid := true
      bAmpdu := false
      bAggr := false
      b11n := false
      bNoack := false
      bNulldata := false
      bTcp := false
      attached := false
      pktnum := 0
      agglen := 0
      delimit := 0
      aggrPageNum := 0 }
  special := false
  aggregable := aggregable
  txfrag := false
  vhtRate := true
  txSeq := 0

/-- A HAL with room that takes or refuses every aggregate. -/
def roomyHal (accepts : Bool) : Nat → HalTurn := fun _ => ⟨0, false, accepts⟩

/-- A window of eight frames is agreed on. -/
def agreement : List (TxEnv × TxEvent) :=
  [(plainTxEnv 1, .reqSetup), (plainTxEnv 1, .rspProcess (roomyHal true) ⟨0, 8, false⟩)]

/-- Of a queue of one frame the builder reaches nothing else. -/
theorem reached_single {env : TxEnv} {tid : TxTid} {first ptxdesc : TxDesc} {before : List TxDesc}
    (single : tid.txdsQueue = [first]) (reached : Reached env tid before ptxdesc) :
    before = [] ∧ ptxdesc.seqnum = first.seqnum := by
  obtain ⟨-, ⟨after, split_eq⟩, -⟩ := reached
  have members := congrArg (List.map TxDesc.member) split_eq
  rw [ratedQueue_members, single] at members
  cases before with
  | nil =>
    obtain ⟨same, -⟩ := List.cons.inj members
    exact ⟨rfl, (congrArg Member.seqnum same).symm⟩
  | cons head rest => simp at members

/-- A turn that finds a single frame inside the window is safe. -/
theorem turnOk_of_single {env : TxEnv} {hal : HalTurn} {tid : TxTid} {first : TxDesc}
    (single : tid.txdsQueue = [first]) (edge : tid.win.index first.seqnum ≠ tid.win.bawSize)
    (oneframe : env.cfgAmpduOneframe = true) (accepts : hal.accepts = true) :
    TurnOk env hal tid := by
  constructor
  case within =>
    intro before ptxdesc reached
    rw [(reached_single single reached).2]
    exact edge
  case short =>
    intro before ptxdesc reached
    rw [(reached_single single reached).1]
    decide
  case paired => exact Or.inl oneframe
  case accepted => exact fun _ _ _ => accepts

/-- A frame that the HAL takes and that completes keeps the law. -/
theorem txScoreboard_law_single :
    ScoreboardLaw (Machine.run txStep (drvTxlistInitForSta 0) (agreement ++
      [(plainTxEnv 1, .send (roomyHal true) (dataRequest 1 true)),
        (plainTxEnv 1, .complete 0 true)])) := by
  refine txScoreboard_law 0 _ ⟨Or.inr rfl, ?_, ⟨?_, ?_, ?_⟩, fun _ _ _ => rfl, trivial⟩
  · exact fun _ => ⟨by decide, fun _ _ runs => absurd runs (by decide)⟩
  · intro uses member found
    cases found
  · exact fun other => absurd ⟨by decide, rfl⟩ other
  · intro ampdu runs work unpaused mother
    refine ⟨fun due nonempty room => ?_, fun more => absurd more (by decide)⟩
    exact turnOk_of_single rfl (by decide) rfl rfl

/-- A frame that the HAL refuses is completed, and its slot stays occupied: the window never opens
again. -/
theorem txScoreboard_stuck :
    ¬ ∀ (tidIndex : Nat) (moments : List (TxEnv × TxEvent)),
      ScoreboardLaw (Machine.run txStep (drvTxlistInitForSta tidIndex) moments) := by
  intro law
  have reopened := (law 0 (agreement ++
    [(plainTxEnv 1, .send (roomyHal false) (dataRequest 1 true))])).reopened
  have nothing : (Machine.run txStep (drvTxlistInitForSta 0) (agreement ++
      [(plainTxEnv 1, .send (roomyHal false) (dataRequest 1 true))])).inHal = [] := rfl
  rw [nothing] at reopened
  exact absurd (reopened (by simp)) (by decide +kernel)

end W522a.Tx
