import W522a.Tx.Aggregate
import W522a.Tx.Lists

/-!
What the lists see of the functions of one identifier: whether it waits on its list, whether it is
paused, and that the count of the frames pending moves with its queue.
-/

namespace W522a.Tx.Lists

/-- Nothing of an identifier that its lists see has changed, but that its pause may be over. -/
structure Fixed (before after : TxTid) : Prop where
  work : after.bWork = before.bWork
  queue : after.txdsQueue = before.txdsQueue
  count : after.txdsPendingCnt = before.txdsPendingCnt
  pause : after.paused = before.paused ∨ after.paused = 0

/-- Frames have left the queue, and the count has followed. -/
structure Local (before after : TxTid) : Prop where
  work : after.bWork = before.bWork
  fewer : after.txdsQueue ≠ [] → before.txdsQueue ≠ []
  balanced : before.txdsQueue.length ≤ before.txdsPendingCnt →
    after.txdsPendingCnt + before.txdsQueue.length =
      before.txdsPendingCnt + after.txdsQueue.length

/-- No pause ends while frames wait. -/
structure Patient (before after : TxTid) : Prop extends Local before after where
  patient : after.paused = 0 → before.paused = 0 ∨ after.txdsQueue = []

variable {before between after : TxTid}

theorem Fixed.refl (tid : TxTid) : Fixed tid tid := ⟨rfl, rfl, rfl, Or.inl rfl⟩

theorem Fixed.trans (first : Fixed before between) (second : Fixed between after) :
    Fixed before after where
  work := second.work.trans first.work
  queue := second.queue.trans first.queue
  count := second.count.trans first.count
  pause := by
    rcases second.pause with same | ended
    · rcases first.pause with still | gone
      · exact Or.inl (same.trans still)
      · exact Or.inr (same.trans gone)
    · exact Or.inr ended

theorem Fixed.toLocal (fixed : Fixed before after) : Local before after where
  work := fixed.work
  fewer := by
    rw [fixed.queue]
    exact id
  balanced := by
    rw [fixed.queue, fixed.count]
    exact fun _ => rfl

theorem Fixed.patient (fixed : Fixed before after) (same : after.paused = before.paused) :
    Patient before after where
  toLocal := fixed.toLocal
  patient := by
    rw [same]
    exact Or.inl

theorem Local.trans (first : Local before between) (second : Local between after) :
    Local before after where
  work := second.work.trans first.work
  fewer := fun waiting => first.fewer (second.fewer waiting)
  balanced := by
    intro enough
    have one := first.balanced enough
    have two := second.balanced (by omega)
    omega

theorem Patient.trans (first : Patient before between) (second : Patient between after) :
    Patient before after where
  toLocal := first.toLocal.trans second.toLocal
  patient := by
    intro ended
    rcases second.patient ended with running | empty
    · rcases first.patient running with start | nothing
      · exact Or.inl start
      · exact Or.inr (of_not_not fun waiting => second.fewer waiting nothing)
    · exact Or.inr empty

/-- A queue that is emptied, with its frames counted off. -/
theorem Patient.emptied (work : after.bWork = before.bWork) (empty : after.txdsQueue = [])
    (count : after.txdsPendingCnt = before.txdsPendingCnt - before.txdsQueue.length) :
    Patient before after where
  work := work
  fewer := fun waiting => absurd empty waiting
  balanced := by
    intro enough
    rw [count, empty, List.length_nil]
    omega
  patient := fun _ => Or.inr empty

section Completion

variable {env : TxEnv} {ptxdesc : TxDesc} {txok : Bool}

theorem drvTxbaQuarantine_fixed (env : TxEnv) (code : TxbaFault) (tid : TxTid) :
    Fixed tid (drvTxbaQuarantine env code tid) := ⟨rfl, rfl, rfl, Or.inr rfl⟩

private theorem noteFwResult_fixed (env : TxEnv) (ptxdesc : TxDesc) (txok : Bool) (tid : TxTid) :
    Fixed tid (noteFwResult env ptxdesc txok tid) := by
  unfold noteFwResult
  split
  · exact Fixed.refl tid
  · split
    · split
      · exact ⟨rfl, rfl, rfl, Or.inl rfl⟩
      · exact Fixed.refl tid
    · dsimp only
      split
      · exact drvTxbaQuarantine_fixed env _ tid
      · exact ⟨rfl, rfl, rfl, Or.inl rfl⟩

theorem drvTxComplete_fixed (env : TxEnv) (ptxdesc : TxDesc) (txok : Bool) (tid : TxTid) :
    Fixed tid (drvTxComplete env ptxdesc txok tid) :=
  (noteFwResult_fixed env ptxdesc txok tid).trans ⟨rfl, rfl, rfl, Or.inl rfl⟩

theorem drvTxCompleteList_fixed (env : TxEnv) (queue : List TxDesc) (txok : Bool) (tid : TxTid) :
    Fixed tid (drvTxCompleteList env queue txok tid) := by
  unfold drvTxCompleteList
  induction queue generalizing tid with
  | nil => exact Fixed.refl tid
  | cons ptxdesc rest induction =>
    exact (drvTxComplete_fixed env ptxdesc txok tid).trans (induction _)

theorem noteCompletion_fixed (ptxdesc : TxDesc) (tid : TxTid) :
    Fixed tid (noteCompletion ptxdesc tid) ∧ (noteCompletion ptxdesc tid).paused = tid.paused := by
  unfold noteCompletion
  split
  · dsimp only
    split
    · exact ⟨⟨rfl, rfl, rfl, Or.inl rfl⟩, rfl⟩
    · exact ⟨⟨rfl, rfl, rfl, Or.inl rfl⟩, rfl⟩
  · exact ⟨Fixed.refl tid, rfl⟩

theorem noteCompletion_failCnt (ptxdesc : TxDesc) (tid : TxTid) :
    (noteCompletion ptxdesc tid).txbaFwFailCnt = tid.txbaFwFailCnt := by
  unfold noteCompletion
  split
  · dsimp only
    split <;> rfl
  · rfl

theorem drvTxCompleteTask_fixed (env : TxEnv) (ptxdesc : TxDesc) (txok : Bool) (tid : TxTid) :
    Fixed tid (drvTxCompleteTask env ptxdesc txok tid) := by
  unfold drvTxCompleteTask
  split
  · exact drvTxComplete_fixed env ptxdesc false tid
  · have noted := (noteCompletion_fixed ptxdesc tid).1
    dsimp only
    split
    · exact noted.trans ⟨rfl, rfl, rfl, Or.inl rfl⟩
    · exact noted.trans (drvTxComplete_fixed env ptxdesc txok _)

theorem completeAt_fixed (env : TxEnv) (index : Nat) (txok : Bool) (tid : TxTid) :
    Fixed tid (completeAt env index txok tid) := by
  unfold completeAt
  split
  · exact Fixed.refl tid
  · rename_i ptxdesc found
    have taken : Fixed tid { tid with inHal := tid.inHal.eraseIdx index } :=
      ⟨rfl, rfl, rfl, Or.inl rfl⟩
    exact taken.trans (drvTxCompleteTask_fixed env ptxdesc txok _)

theorem completeNormalAt_fixed (env : TxEnv) (index : Nat) (txok : Bool) (tid : TxTid) :
    Fixed tid (completeNormalAt env index txok tid) := by
  unfold completeNormalAt
  split
  · exact Fixed.refl tid
  · rename_i ptxdesc found
    have taken : Fixed tid { tid with normal := tid.normal.eraseIdx index } :=
      ⟨rfl, rfl, rfl, Or.inl rfl⟩
    exact taken.trans (drvTxCompleteTask_fixed env ptxdesc.1 txok _)

end Completion

section Scheduler

variable {env : TxEnv} {tid : TxTid}

private theorem sendToHal_fixed (env : TxEnv) (accepts : Bool) (txQueue : List TxDesc)
    (tid : TxTid) :
    Fixed tid (sendToHal env accepts txQueue tid) := by
  unfold sendToHal
  split
  · exact ⟨rfl, rfl, rfl, Or.inl rfl⟩
  · exact (drvTxbaQuarantine_fixed env _ tid).trans (drvTxCompleteList_fixed env txQueue false _)

private theorem dispatchAmpdu_fixed (env : TxEnv) (accepts : Bool) (ptxdesc : TxDesc)
    (rest : List TxDesc) (tid : TxTid) :
    Fixed tid (dispatchAmpdu env accepts ptxdesc rest tid).1 := by
  have served : Fixed tid { tid with waitMpduTimeout := false } := ⟨rfl, rfl, rfl, Or.inl rfl⟩
  unfold dispatchAmpdu
  split
  · exact drvTxCompleteList_fixed env _ false tid
  · dsimp only
    split
    · split
      · exact served.trans (drvTxCompleteList_fixed env _ false _)
      · exact served.trans (sendToHal_fixed env accepts _ _)
    · exact served.trans (sendToHal_fixed env accepts _ _)

private theorem drvTxampduBuild_local (env : TxEnv) (tid : TxTid) :
    Local tid (drvTxampduBuild env tid).tid ∧
      (drvTxampduBuild env tid).tid.paused = tid.paused := by
  obtain ⟨taken, rest, result⟩ := drvTxampduBuild_result env tid
  obtain ⟨sampleRate, scoreboard⟩ := result.scoreboard
  have whole : taken.length + rest.length = tid.txdsQueue.length := by
    have lengths := congrArg List.length result.queue
    rw [List.length_map, List.length_append, List.length_map] at lengths
    exact lengths
  rw [scoreboard]
  refine ⟨⟨rfl, ?_, ?_⟩, rfl⟩
  · intro waiting empty
    rw [empty, List.length_nil] at whole
    exact waiting (List.length_eq_zero_iff.mp (Nat.eq_zero_of_add_eq_zero_left whole))
  · intro enough
    show tid.txdsPendingCnt - taken.length + tid.txdsQueue.length =
      tid.txdsPendingCnt + rest.length
    omega

private theorem schedTurn_local (env : TxEnv) (hal : HalTurn) (tid : TxTid) :
    Local tid (schedTurn env hal tid).1 ∧
      (tid.paused = 0 → (schedTurn env hal tid).1.paused = 0) := by
  obtain ⟨built, pause⟩ := drvTxampduBuild_local env tid
  unfold schedTurn
  split
  · exact ⟨Fixed.toLocal ⟨rfl, rfl, rfl, Or.inl rfl⟩, id⟩
  · split
    · exact ⟨(Fixed.refl tid).toLocal, id⟩
    · dsimp only
      split
      · refine ⟨built, fun running => ?_⟩
        rw [pause]
        exact running
      · rename_i ptxdesc rest frames
        have sent := dispatchAmpdu_fixed env hal.accepts ptxdesc rest (drvTxampduBuild env tid).tid
        refine ⟨built.trans sent.toLocal, fun running => ?_⟩
        rcases sent.pause with same | ended
        · rw [same, pause]
          exact running
        · exact ended

private theorem schedLoop_local (env : TxEnv) (hal : Nat → HalTurn) (fuel turn : Nat)
    (tid : TxTid) :
    Local tid (schedLoop env hal fuel turn tid) ∧
      (tid.paused = 0 → (schedLoop env hal fuel turn tid).paused = 0) := by
  induction fuel generalizing turn tid with
  | zero => exact ⟨(Fixed.refl tid).toLocal, id⟩
  | succ fuel induction =>
    obtain ⟨first, running⟩ := schedTurn_local env (hal turn) tid
    rw [schedLoop]
    dsimp only
    split
    · obtain ⟨later, still⟩ := induction (turn + 1) (schedTurn env (hal turn) tid).1
      exact ⟨first.trans later, fun start => still (running start)⟩
    · exact ⟨first, running⟩

theorem drvTxSchedAggr_local (env : TxEnv) (hal : Nat → HalTurn) (tid : TxTid) :
    Local tid (drvTxSchedAggr env hal tid) ∧
      (tid.paused = 0 → (drvTxSchedAggr env hal tid).paused = 0) := by
  unfold drvTxSchedAggr
  split
  · exact ⟨(Fixed.refl tid).toLocal, id⟩
  · exact schedLoop_local env hal _ 0 tid

end Scheduler

section Exchange

variable {env : TxEnv} {tid : TxTid}

theorem drvTxNormal_patient (ptxdesc : TxDesc) (tid : TxTid) :
    Patient tid (drvTxNormal ptxdesc tid) :=
  Fixed.patient ⟨rfl, rfl, rfl, Or.inl rfl⟩ rfl

theorem drvTxPrepare_fixed (request : TxRequest) (tid : TxTid) :
    Fixed tid (drvTxPrepare request tid).2 ∧ (drvTxPrepare request tid).2.paused = tid.paused := by
  have unchanged : Fixed tid tid ∧ tid.paused = tid.paused := ⟨Fixed.refl tid, rfl⟩
  unfold drvTxPrepare
  dsimp only
  split
  · exact unchanged
  · split
    · split
      · exact unchanged
      · exact ⟨⟨rfl, rfl, rfl, Or.inl rfl⟩, rfl⟩
    · split
      · exact ⟨⟨rfl, rfl, rfl, Or.inl rfl⟩, rfl⟩
      · exact unchanged

theorem drvTxlistPauseForStaTid_patient (tid : TxTid) :
    Patient tid (drvTxlistPauseForStaTid tid) := by
  unfold drvTxlistPauseForStaTid
  split
  · refine ⟨⟨rfl, id, fun _ => rfl⟩, fun ended => ?_⟩
    exact absurd ended (Nat.succ_ne_zero _)
  · exact (Fixed.refl tid).patient rfl

private theorem flushFrame_shape (env : TxEnv) (ptxdesc : TxDesc) (tid : TxTid) :
    (flushFrame env ptxdesc tid).bWork = tid.bWork ∧
      (flushFrame env ptxdesc tid).txdsQueue = tid.txdsQueue ∧
      (flushFrame env ptxdesc tid).txdsPendingCnt = tid.txdsPendingCnt - 1 := by
  unfold flushFrame
  dsimp only
  split
  · exact ⟨rfl, rfl, rfl⟩
  · have completed := drvTxComplete_fixed env ptxdesc false
      { tid with txdsPendingCnt := tid.txdsPendingCnt - 1 }
    exact ⟨completed.work, completed.queue, completed.count⟩

theorem flushFrames_shape (env : TxEnv) (queue : List TxDesc) (tid : TxTid) :
    let flushed := queue.foldl (fun tid ptxdesc => flushFrame env ptxdesc tid) tid
    flushed.bWork = tid.bWork ∧ flushed.txdsQueue = tid.txdsQueue ∧
      flushed.txdsPendingCnt = tid.txdsPendingCnt - queue.length := by
  induction queue generalizing tid with
  | nil => exact ⟨rfl, rfl, rfl⟩
  | cons ptxdesc rest induction =>
    obtain ⟨work, queue, count⟩ := flushFrame_shape env ptxdesc tid
    obtain ⟨laterWork, laterQueue, laterCount⟩ := induction (flushFrame env ptxdesc tid)
    refine ⟨laterWork.trans work, laterQueue.trans queue, laterCount.trans ?_⟩
    rw [count, List.length_cons, Nat.sub_sub, Nat.add_comm 1]

theorem drvTxlistFlushForStaTid_patient (env : TxEnv) (tid : TxTid) :
    Patient tid (drvTxlistFlushForStaTid env tid) := by
  unfold drvTxlistFlushForStaTid
  dsimp only
  split
  · rename_i still
    exact ⟨⟨rfl, id, fun _ => rfl⟩, fun ended => absurd ended still⟩
  · obtain ⟨work, queue, count⟩ := flushFrames_shape env tid.txdsQueue
      { tid with paused := tid.paused - 1, txdsQueue := [] }
    exact Patient.emptied work queue count

theorem drvTxlistFlushForStaTid_empty (env : TxEnv) {tid : TxTid} (running : tid.paused = 0) :
    (drvTxlistFlushForStaTid env tid).txdsQueue = [] := by
  unfold drvTxlistFlushForStaTid
  rw [running]
  exact (flushFrames_shape env tid.txdsQueue
    { tid with paused := 0 - 1, txdsQueue := [] }).2.1

private theorem drvTidSwqCleanup_patient (env : TxEnv) (tid : TxTid) :
    Patient tid (drvTidSwqCleanup env tid) := by
  have completed := drvTxCompleteList_fixed env tid.txdsQueue false
    { tid with
      txdsQueue := []
      txdsPendingCnt := tid.txdsPendingCnt - tid.txdsQueue.length }
  exact Patient.emptied completed.work completed.queue completed.count

theorem drvTidSwqCleanup_empty (env : TxEnv) (tid : TxTid) :
    (drvTidSwqCleanup env tid).txdsQueue = [] :=
  (drvTxCompleteList_fixed env tid.txdsQueue false
    { tid with
      txdsQueue := []
      txdsPendingCnt := tid.txdsPendingCnt - tid.txdsQueue.length }).queue

private theorem Fixed.after_cleanup (fixed : Fixed (drvTidSwqCleanup env tid) after) :
    Patient tid after where
  toLocal := (drvTidSwqCleanup_patient env tid).toLocal.trans fixed.toLocal
  patient := fun _ => Or.inr (fixed.queue.trans (drvTidSwqCleanup_empty env tid))

theorem drvTidDrain_patient (env : TxEnv) (tid : TxTid) : Patient tid (drvTidDrain env tid) := by
  have cleaned : Fixed (drvTidSwqCleanup env tid) (drvTidDrain env tid) :=
    ⟨rfl, rfl, rfl, Or.inl rfl⟩
  exact cleaned.after_cleanup

theorem drvTidDrain_empty (env : TxEnv) (tid : TxTid) : (drvTidDrain env tid).txdsQueue = [] :=
  drvTidSwqCleanup_empty env tid

/-- The three fields of a cleanup that the count depends on. -/
theorem drvTidCleanup_shape (env : TxEnv) (tid : TxTid) :
    (drvTidCleanup env tid).bWork = tid.bWork ∧ (drvTidCleanup env tid).txdsQueue = [] ∧
      (drvTidCleanup env tid).txdsPendingCnt = tid.txdsPendingCnt - tid.txdsQueue.length := by
  have completed := drvTxCompleteList_fixed env tid.txdsQueue false
    { tid with
      txdsQueue := []
      txdsPendingCnt := tid.txdsPendingCnt - tid.txdsQueue.length }
  unfold drvTidCleanup
  dsimp only
  split
  · exact ⟨completed.work, completed.queue, completed.count⟩
  · split
    · split
      · exact ⟨completed.work, completed.queue, completed.count⟩
      · exact ⟨completed.work, completed.queue, completed.count⟩
    · exact ⟨completed.work, completed.queue, completed.count⟩

theorem cleanupTid_shape (env : TxEnv) (tid : TxTid) :
    (cleanupTid env tid).bWork = tid.bWork ∧ (cleanupTid env tid).txdsQueue = [] ∧
      (cleanupTid env tid).txdsPendingCnt = tid.txdsPendingCnt - tid.txdsQueue.length := by
  unfold cleanupTid
  split
  · exact drvTidCleanup_shape env
      { tid with
        addbaExchangeinprogress := false
        addbaTimerActive := false
        paused := (tid.paused + 255) % 256 }
  · exact drvTidCleanup_shape env tid

theorem cleanupTid_patient (env : TxEnv) (tid : TxTid) : Patient tid (cleanupTid env tid) := by
  obtain ⟨work, empty, count⟩ := cleanupTid_shape env tid
  exact Patient.emptied work empty count

theorem drvTxampduDel_patient (env : TxEnv) (tid : TxTid) :
    Patient tid (drvTxampduDel env tid) := by
  unfold drvTxampduDel
  split
  · exact (Fixed.refl tid).patient rfl
  · split
    · exact Fixed.patient ⟨rfl, rfl, rfl, Or.inl rfl⟩ rfl
    · obtain ⟨ended, ended_eq⟩ : ∃ ended, ended =
          if tid.addbaExchangeinprogress then
            { tid with addbaExchangeinprogress := false, addbaTimerActive := false }
          else tid := ⟨_, rfl⟩
      have first : Patient tid ended := by
        rw [ended_eq]
        split
        · exact Fixed.patient ⟨rfl, rfl, rfl, Or.inl rfl⟩ rfl
        · exact (Fixed.refl tid).patient rfl
      have paused := first.trans (drvTxlistPauseForStaTid_patient ended)
      dsimp only
      rw [← ended_eq]
      refine Patient.trans ?_ (drvTxlistFlushForStaTid_patient env _)
      split
      · exact paused.trans (Fixed.patient ⟨rfl, rfl, rfl, Or.inl rfl⟩ rfl)
      · exact paused.trans (Fixed.patient ⟨rfl, rfl, rfl, Or.inl rfl⟩ rfl)

private theorem drvTxbaQuarantined_patient (env : TxEnv) (tid : TxTid) :
    Patient tid (drvTxbaQuarantined env tid).2 := by
  unfold drvTxbaQuarantined
  split
  · exact (Fixed.refl tid).patient rfl
  · split
    · exact (Fixed.refl tid).patient rfl
    · exact Fixed.patient ⟨rfl, rfl, rfl, Or.inl rfl⟩ rfl

theorem drvAddbaReqSetup_patient (env : TxEnv) (tid : TxTid) :
    Patient tid (drvAddbaReqSetup env tid) := by
  have checked := drvTxbaQuarantined_patient env tid
  unfold drvAddbaReqSetup
  split
  · rename_i later refused
    rw [refused] at checked
    exact checked.trans (Fixed.patient ⟨rfl, rfl, rfl, Or.inl rfl⟩ rfl)
  · rename_i later allowed
    rw [allowed] at checked
    dsimp only
    split
    · exact checked.trans (Fixed.patient ⟨rfl, rfl, rfl, Or.inl rfl⟩ rfl)
    · exact checked.trans (Fixed.patient ⟨rfl, rfl, rfl, Or.inl rfl⟩ rfl)

theorem answerRequest_fixed (rsp : AddbaRsp) (tid : TxTid) :
    Fixed tid (answerRequest rsp tid) ∧ (answerRequest rsp tid).paused = tid.paused := by
  unfold answerRequest
  dsimp only
  split
  · exact ⟨⟨rfl, rfl, rfl, Or.inl rfl⟩, rfl⟩
  · exact ⟨⟨rfl, rfl, rfl, Or.inl rfl⟩, rfl⟩

theorem agreed_patient (env : TxEnv) (rsp : AddbaRsp) (tid : TxTid) :
    Patient tid (acceptRsp env rsp (answerRequest rsp tid)) :=
  Fixed.patient ((answerRequest_fixed rsp tid).1.trans ⟨rfl, rfl, rfl, Or.inl rfl⟩)
    (answerRequest_fixed rsp tid).2

theorem drvAddbaTimer_fixed (env : TxEnv) (tid : TxTid) :
    Fixed tid (drvAddbaTimer env tid) := by
  unfold drvAddbaTimer
  dsimp only
  split
  · exact ⟨rfl, rfl, rfl, Or.inr rfl⟩
  · exact ⟨rfl, rfl, rfl, Or.inl rfl⟩

theorem drvAddbaClear_fixed (tid : TxTid) : Fixed tid (Tx.drvAddbaClear tid) := by
  unfold Tx.drvAddbaClear
  dsimp only
  split
  · exact ⟨rfl, rfl, rfl, Or.inr rfl⟩
  · exact ⟨rfl, rfl, rfl, Or.inl rfl⟩

end Exchange

end W522a.Tx.Lists
