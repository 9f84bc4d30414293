import Mathlib.Order.Nat
import W522a.Tx.Counted
import W522a.Tx.Pause
import W522a.Tx.Steps

/-!
What every function does to the counter of pauses, and from it the runs in which the counter is
the number of pauses outstanding.
-/

namespace W522a.Tx

open Tx.Lists (drvTxSchedAggr_local noteCompletion_fixed noteCompletion_failCnt drvTxPrepare_fixed
  answerRequest_fixed)

section Completion

variable {env : TxEnv} {ptxdesc : TxDesc} {txok : Bool} {tid : TxTid}

theorem fwGivesUp_false (env : TxEnv) (tid : TxTid)
    (foreign : ptxdesc.attached = false ∨ drvTidIsHostap env = false ∨ ptxdesc.bAmpdu = false) :
    fwGivesUp env ptxdesc txok tid = false := by
  unfold fwGivesUp
  rcases foreign with orphan | client | single
  · simp [orphan]
  · simp [client]
  · simp [single]

theorem drvTxComplete_paused (env : TxEnv) (ptxdesc : TxDesc) (txok : Bool) (tid : TxTid) :
    (drvTxComplete env ptxdesc txok tid).paused =
      if fwGivesUp env ptxdesc txok tid then 0 else tid.paused := by
  unfold drvTxComplete noteFwResult
  split
  · rename_i foreign
    have never : fwGivesUp env ptxdesc txok tid = false := by
      refine fwGivesUp_false env tid ?_
      simp only [Bool.not_eq_true'] at foreign
      rcases foreign with client | single | orphan
      · exact Or.inr (Or.inl client)
      · exact Or.inr (Or.inr single)
      · exact Or.inl orphan
    rw [never]
    rfl
  · rename_i member
    simp only [Bool.not_eq_true', not_or, Bool.not_eq_false] at member
    obtain ⟨hostap, ampdu, attached⟩ := member
    cases txok with
    | true =>
      have never : fwGivesUp env ptxdesc true tid = false := by simp [fwGivesUp]
      rw [never, if_pos rfl]
      dsimp only
      split
      · rfl
      · rfl
    | false =>
      have many : fwGivesUp env ptxdesc false tid =
          decide (apTxbaFwFailThreshold ≤ min (tid.txbaFwFailCnt + 1) 255) := by
        simp [fwGivesUp, hostap, ampdu, attached]
      rw [many]
      dsimp only
      by_cases past : apTxbaFwFailThreshold ≤ min (tid.txbaFwFailCnt + 1) 255
      · rw [if_neg Bool.false_ne_true, if_pos past, decide_eq_true past]
        rfl
      · rw [if_neg Bool.false_ne_true, if_neg past, decide_eq_false past]
        rfl

private theorem drvTxComplete_cleanup (env : TxEnv) (ptxdesc : TxDesc) (txok : Bool) (tid : TxTid) :
    (drvTxComplete env ptxdesc txok tid).cleanupInprogress = tid.cleanupInprogress := by
  unfold drvTxComplete noteFwResult
  split
  · rfl
  · dsimp only
    split
    · split
      · rfl
      · rfl
    · split
      · rfl
      · rfl

theorem drvTxCompleteList_paused (env : TxEnv) (queue : List TxDesc) (tid : TxTid) :
    (drvTxCompleteList env queue false tid).paused =
        (if listGivesUp env queue tid then 0 else tid.paused) ∧
      (drvTxCompleteList env queue false tid).cleanupInprogress = tid.cleanupInprogress := by
  induction queue generalizing tid with
  | nil => exact ⟨rfl, rfl⟩
  | cons ptxdesc rest induction =>
    obtain ⟨paused, cleanup⟩ := induction (drvTxComplete env ptxdesc false tid)
    refine ⟨paused.trans ?_, cleanup.trans (drvTxComplete_cleanup env ptxdesc false tid)⟩
    rw [drvTxComplete_paused, listGivesUp]
    cases fwGivesUp env ptxdesc false tid with
    | true => simp
    | false => simp

theorem drvTxCompleteTask_paused (env : TxEnv) (ptxdesc : TxDesc) (txok : Bool) (tid : TxTid) :
    (drvTxCompleteTask env ptxdesc txok tid).paused =
      if !(ptxdesc.bTcp && !txok) && fwGivesUp env ptxdesc txok tid then 0 else tid.paused := by
  unfold drvTxCompleteTask
  split
  · rename_i nobody
    have foreign : ptxdesc.attached = false ∨ drvTidIsHostap env = false ∨
        ptxdesc.bAmpdu = false := by
      rcases nobody with orphan | detached
      · exact Or.inl (by simpa using orphan)
      · refine Or.inr (Or.inl ?_)
        unfold drvTidIsHostap
        rw [Option.isNone_iff_eq_none.mp detached]
    rw [drvTxComplete_paused, fwGivesUp_false env tid foreign, fwGivesUp_false env tid foreign,
      Bool.and_false]
  · obtain ⟨-, same⟩ := noteCompletion_fixed ptxdesc tid
    dsimp only
    by_cases again : (ptxdesc.bTcp && !txok) = true
    · have kept : ptxdesc.bTcp = true ∧ (!txok) = true := by simpa using again
      rw [if_pos kept, again]
      exact same
    · have final : ¬ (ptxdesc.bTcp = true ∧ (!txok) = true) := by simpa using again
      rw [if_neg final, drvTxComplete_paused, same, Bool.eq_false_iff.mpr again]
      unfold fwGivesUp
      rw [noteCompletion_failCnt]
      rfl

theorem completeAt_paused (env : TxEnv) (index : Nat) (txok : Bool) (tid : TxTid) :
    (completeAt env index txok tid).paused =
      if completionGivesUp env index txok tid then 0 else tid.paused := by
  unfold completeAt completionGivesUp
  cases tid.inHal[index]? with
  | none => rfl
  | some ptxdesc => exact drvTxCompleteTask_paused env ptxdesc txok _

theorem completeNormalAt_paused (env : TxEnv) (index : Nat) (txok : Bool) (tid : TxTid) :
    (completeNormalAt env index txok tid).paused = tid.paused := by
  unfold completeNormalAt
  cases tid.normal[index]? with
  | none => rfl
  | some ptxdesc =>
    refine (drvTxCompleteTask_paused env ptxdesc.1 txok _).trans ?_
    rw [fwGivesUp_false env _ (Or.inr (Or.inr ptxdesc.2)), Bool.and_false]
    rfl

end Completion

section Scheduler

variable (env : TxEnv) (hal : Nat → HalTurn) (tid : TxTid)

theorem drvTxQueueTid_paused : (drvTxQueueTid tid).paused = tid.paused := by
  unfold drvTxQueueTid
  split
  · rfl
  · rfl

theorem drvTxlistTask_paused : (drvTxlistTask env hal tid).paused = tid.paused := by
  unfold drvTxlistTask
  split
  · rfl
  · dsimp only
    split
    · rfl
    · rename_i running
      have unpaused : tid.paused = 0 := by simpa using running
      have still := (drvTxSchedAggr_local env hal { tid with bWork := false }).2 unpaused
      refine Eq.trans ?_ unpaused.symm
      split
      · exact (drvTxQueueTid_paused _).trans still
      · exact still

theorem runTask_paused (entry : TxTid × Bool) :
    (runTask env hal entry).paused = entry.1.paused := by
  unfold runTask
  split
  · exact drvTxlistTask_paused env hal entry.1
  · rfl

private theorem enqueueAmpdu_paused (ptxdesc : TxDesc) :
    (enqueueAmpdu env ptxdesc tid).1.paused =
      if drvTidIsHostap env && decide (apAmpduPendingLimit ≤ tid.txdsPendingCnt) then 0
      else tid.paused := by
  unfold enqueueAmpdu
  by_cases full : drvTidIsHostap env = true ∧ apAmpduPendingLimit ≤ tid.txdsPendingCnt
  · rw [if_pos full, full.1, decide_eq_true full.2]
    rfl
  · have room : (drvTidIsHostap env && decide (apAmpduPendingLimit ≤ tid.txdsPendingCnt)) =
        false := by
      rw [Bool.and_eq_false_iff, decide_eq_false_iff_not, ← Bool.not_eq_true]
      exact not_and_or.mp full
    rw [if_neg full, room]
    exact drvTxQueueTid_paused _

theorem drvSend_paused (request : TxRequest) :
    (drvSend env hal request tid).paused =
      if sendGivesUp env request tid then 0 else tid.paused := by
  obtain ⟨fixed, same⟩ := drvTxPrepare_fixed request tid
  unfold drvSend sendGivesUp
  dsimp only
  cases (drvTxPrepare request tid).1.bAmpdu with
  | true =>
    rw [if_pos rfl, Bool.true_and]
    unfold drvTxSendAmpdu
    rw [runTask_paused, enqueueAmpdu_paused, fixed.count, same]
  | false => exact same

private theorem unpause_paused : (unpause tid).1.paused = tid.paused - 1 := by
  unfold unpause
  split
  · rename_i running
    rw [running]
  · dsimp only
    split
    · rfl
    · exact drvTxQueueTid_paused _

theorem drvTxlistResumeForStaTid_paused :
    (drvTxlistResumeForStaTid env hal tid).paused = tid.paused - 1 :=
  (runTask_paused env hal (unpause tid)).trans (unpause_paused tid)

end Scheduler

section Exchange

variable (env : TxEnv) (hal : Nat → HalTurn) (tid : TxTid)

private theorem flushFrame_paused (ptxdesc : TxDesc) (running : tid.paused = 0) :
    (flushFrame env ptxdesc tid).paused = 0 := by
  unfold flushFrame
  dsimp only
  split
  · exact running
  · rw [drvTxComplete_paused, running]
    exact ite_self 0

private theorem flushFrames_paused (queue : List TxDesc) (running : tid.paused = 0) :
    (queue.foldl (fun tid ptxdesc => flushFrame env ptxdesc tid) tid).paused = 0 := by
  induction queue generalizing tid with
  | nil => exact running
  | cons ptxdesc rest induction => exact induction _ (flushFrame_paused env tid ptxdesc running)

theorem drvTxlistFlushForStaTid_paused :
    (drvTxlistFlushForStaTid env tid).paused = tid.paused - 1 := by
  unfold drvTxlistFlushForStaTid
  dsimp only
  split
  · rfl
  · rename_i ended
    have unpaused : tid.paused - 1 = 0 := by simpa using ended
    rw [unpaused]
    exact flushFrames_paused env _ _ rfl

theorem drvTxlistResumeForSta_paused :
    (drvTxlistResumeForSta env hal tid).paused = tid.paused - 1 := by
  unfold drvTxlistResumeForSta
  split
  · exact drvTxlistResumeForStaTid_paused env hal tid
  · exact drvTxlistFlushForStaTid_paused env tid

theorem drvTxlistPauseForStaTid_paused :
    (drvTxlistPauseForStaTid tid).paused = if tid.paused < 255 then tid.paused + 1 else tid.paused
    := by
  unfold drvTxlistPauseForStaTid
  split
  · rfl
  · rfl

theorem drvTidSwqCleanup_paused :
    (drvTidSwqCleanup env tid).paused = if swqGivesUp env tid then 0 else tid.paused :=
  (drvTxCompleteList_paused env tid.txdsQueue _).1

private theorem drvTidSwqCleanup_pauses :
    cleanupPauses (drvTidSwqCleanup env tid) = cleanupPauses tid := by
  have cleanup : (drvTidSwqCleanup env tid).cleanupInprogress = tid.cleanupInprogress :=
    (drvTxCompleteList_paused env tid.txdsQueue _).2
  have win : (drvTidSwqCleanup env tid).win = tid.win :=
    congrArg Prod.fst (drvTxCompleteList_core env false _ tid.txdsQueue)
  unfold cleanupPauses
  rw [cleanup, win]

/-- `drv_tid_cleanup` counts the pause it adds, from zero where it gives the agreement up. -/
theorem drvTidCleanup_paused :
    (drvTidCleanup env tid).paused =
      if cleanupPauses tid then
        if drvTidIsHostap env then 1 else min ((drvTidSwqCleanup env tid).paused + 1) 255
      else (drvTidSwqCleanup env tid).paused := by
  rw [← drvTidSwqCleanup_pauses env tid]
  unfold drvTidCleanup cleanupPauses
  dsimp only
  by_cases running : (drvTidSwqCleanup env tid).cleanupInprogress = true
  · rw [if_pos running, running]
    rfl
  · rw [if_neg running, Bool.eq_false_iff.mpr running]
    by_cases open_ : (drvTidSwqCleanup env tid).win.bawHead ≠ (drvTidSwqCleanup env tid).win.bawTail
    · rw [if_pos open_, bne_iff_ne.mpr open_]
      cases drvTidIsHostap env with
      | true => rfl
      | false => rfl
    · have closed := not_not.mp open_
      rw [if_neg open_, closed, bne_self_eq_false]
      rfl

private theorem endRequest_pauses : cleanupPauses (endRequest tid) = cleanupPauses tid := by
  unfold endRequest
  dsimp only
  split
  · rfl
  · rfl

theorem endRequest_paused :
    (endRequest tid).paused =
      if tid.addbaExchangeinprogress then (tid.paused + 255) % 256 else tid.paused := by
  unfold endRequest
  dsimp only
  split
  · rfl
  · rfl

theorem drvTxlistCleanupForSta_paused (waiting : tid.bWork = true) :
    (drvTxlistCleanupForSta env tid).paused =
      if cleanupPauses tid then
        if drvTidIsHostap env then 1
        else min ((drvTidSwqCleanup env (endRequest tid)).paused + 1) 255
      else (drvTidSwqCleanup env (endRequest tid)).paused := by
  rw [drvTxlistCleanupForSta_eq, waiting, Bool.not_true, if_neg Bool.false_ne_true,
    drvTidCleanup_paused, endRequest_pauses]

theorem drvTxampduDel_paused :
    (drvTxampduDel env tid).paused =
      if tid.cleanupInprogress = false ∧ tid.addbaExchangecomplete = true ∧ 255 ≤ tid.paused
      then tid.paused - 1 else tid.paused := by
  unfold drvTxampduDel
  split
  · rename_i cleaning
    refine (if_neg fun full => ?_).symm
    rw [cleaning] at full
    cases full.1
  · rename_i idle
    split
    · rename_i incomplete
      refine (if_neg fun full => ?_).symm
      rw [full.2.1] at incomplete
      cases incomplete
    · rename_i complete
      rw [Bool.not_eq_true', Bool.not_eq_false] at complete
      dsimp only
      rw [drvTxlistFlushForStaTid_paused]
      obtain ⟨ended, ended_eq⟩ : ∃ ended, ended =
          if tid.addbaExchangeinprogress then
            { tid with addbaExchangeinprogress := false, addbaTimerActive := false }
          else tid := ⟨_, rfl⟩
      have same : ended.paused = tid.paused := by
        rw [ended_eq]
        split
        · rfl
        · rfl
      rw [← ended_eq]
      have added := drvTxlistPauseForStaTid_paused ended
      rw [same] at added
      have count : (drvTxlistPauseForStaTid ended).paused - 1 =
          if tid.cleanupInprogress = false ∧ tid.addbaExchangecomplete = true ∧ 255 ≤ tid.paused
          then tid.paused - 1 else tid.paused := by
        rw [added]
        by_cases room : tid.paused < 255
        · rw [if_pos room, if_neg fun full => Nat.not_lt.mpr full.2.2 room]
          exact Nat.add_sub_cancel _ _
        · rw [if_neg room,
            if_pos ⟨Bool.eq_false_iff.mpr idle, complete, Nat.not_lt.mp room⟩]
      split
      · exact count
      · exact count

theorem drvAddbaReqSetup_paused : (drvAddbaReqSetup env tid).paused = tid.paused := by
  have checked : (drvTxbaQuarantined env tid).2.paused = tid.paused := by
    unfold drvTxbaQuarantined
    split
    · rfl
    · split
      · rfl
      · rfl
  unfold drvAddbaReqSetup
  split
  · rename_i later refused
    rw [refused] at checked
    exact checked
  · rename_i later allowed
    rw [allowed] at checked
    dsimp only
    split
    · exact checked
    · exact checked

theorem drvAddbaRspProcess_paused (rsp : AddbaRsp) :
    (drvAddbaRspProcess env hal rsp tid).paused =
      if rsp.statuscode = wifinetStatusSuccess then
        if tid.addbaExchangeinprogress then tid.paused - 1 else tid.paused
      else 0 := by
  have same := (answerRequest_fixed rsp tid).2
  unfold drvAddbaRspProcess
  dsimp only
  split
  · cases tid.addbaExchangeinprogress with
    | false => exact same
    | true =>
      rw [if_neg (by decide), if_pos rfl, ← same]
      split
      · exact drvTxlistResumeForStaTid_paused env hal _
      · exact drvTxlistFlushForStaTid_paused env _
  · split
    · exact drvTxlistFlushForStaTid_paused env _
    · rfl

theorem drvAddbaTimer_paused :
    (drvAddbaTimer env tid).paused = if tid.addbaExchangeinprogress then 0 else tid.paused := by
  unfold drvAddbaTimer
  dsimp only
  split
  · rfl
  · rfl

theorem drvAddbaClear_paused :
    (drvAddbaClear tid).paused = if tid.addbaExchangecomplete then 0 else tid.paused := by
  unfold drvAddbaClear
  dsimp only
  split
  · rfl
  · rfl

end Exchange

section Runs

variable {state : PauseState} {env : TxEnv}

/-- The counter is the number of pauses outstanding, and has eight bits. -/
structure PauseInv (state : PauseState) : Prop where
  balanced : state.tid.paused = state.outstanding.length
  small : state.tid.paused ≤ 255

/-- An event that overwrites the counter where it overwrites the ledger, and else keeps both. -/
theorem PauseInv.overwritten {event : PauseEvent} (inv : PauseInv state)
    (ledger : pauseLedger env event state.tid state.outstanding =
      if cancels env event state.tid then [] else state.outstanding)
    (counter : (pauseTid env event state.tid).paused =
      if cancels env event state.tid then 0 else state.tid.paused)
    (other : event ≠ .cleanup) (keeps : ∀ call hal, event ≠ .resume call hal) :
    PauseBalance state (env, event) where
  balanced := by
    show (pauseTid env event state.tid).paused =
      (pauseLedger env event state.tid state.outstanding).length
    rw [counter, ledger]
    cases cancels env event state.tid with
    | true => rfl
    | false => exact inv.balanced
  unwrapped := fun wraps => other wraps.1
  own := fun call hal given => absurd given (keeps call hal)

theorem pause_balance (inv : PauseInv state) (call : Nat) :
    PauseBalance state (env, .pause call) ↔ state.tid.paused < 255 := by
  have counter := drvTxlistPauseForStaTid_paused state.tid
  constructor
  · intro balance
    have kept : (drvTxlistPauseForStaTid state.tid).paused = state.outstanding.length + 1 :=
      balance.balanced
    by_contra full
    rw [if_neg full, inv.balanced] at counter
    exact Nat.succ_ne_self _ (kept.symm.trans counter)
  · intro room
    rw [if_pos room, inv.balanced] at counter
    exact ⟨counter, fun wraps => PauseEvent.noConfusion wraps.1,
      fun _ _ given => PauseEvent.noConfusion given⟩

theorem resume_balance (inv : PauseInv state) (call : Nat) (hal : Nat → HalTurn) :
    PauseBalance state (env, .resume call hal) ↔
      .pwrsave call ∈ state.outstanding ∨ state.tid.paused = 0 := by
  have counter := drvTxlistResumeForSta_paused env hal state.tid
  constructor
  · intro balance
    by_cases mine : PauseOwner.pwrsave call ∈ state.outstanding
    · exact Or.inl mine
    · have same : (drvTxlistResumeForSta env hal state.tid).paused = state.tid.paused :=
        balance.own call hal rfl mine
      right
      omega
  · intro allowed
    refine ⟨?_, fun wraps => PauseEvent.noConfusion wraps.1, ?_⟩
    · show (drvTxlistResumeForSta env hal state.tid).paused =
        (state.outstanding.erase (.pwrsave call)).length
      rw [counter, inv.balanced]
      by_cases mine : PauseOwner.pwrsave call ∈ state.outstanding
      · exact (List.length_erase_of_mem mine).symm
      · rw [List.erase_of_not_mem mine]
        have running : state.outstanding.length = 0 :=
          inv.balanced.symm.trans (allowed.resolve_left mine)
        rw [running]
    · intro other otherHal given lost
      obtain ⟨rfl, rfl⟩ : call = other ∧ hal = otherHal := by
        cases given
        exact ⟨rfl, rfl⟩
      have running := allowed.resolve_left lost
      refine counter.trans ?_
      rw [running]

theorem rspProcess_balance (inv : PauseInv state) (hal : Nat → HalTurn) (rsp : AddbaRsp) :
    PauseBalance state (env, .rspProcess hal rsp) ↔
      (rsp.statuscode = wifinetStatusSuccess → state.tid.addbaExchangeinprogress = true →
        state.tid.paused = 0) := by
  have counter := drvAddbaRspProcess_paused env hal state.tid rsp
  have ledger : pauseLedger env (.rspProcess hal rsp) state.tid state.outstanding =
      if cancels env (.rspProcess hal rsp) state.tid then [] else state.outstanding := rfl
  by_cases agreed : rsp.statuscode = wifinetStatusSuccess
  · have kept : cancels env (.rspProcess hal rsp) state.tid = false := by
      show (rsp.statuscode != wifinetStatusSuccess) = false
      rw [agreed, bne_self_eq_false]
    rw [if_pos agreed] at counter
    constructor
    · intro balance _ pending
      have same : (drvAddbaRspProcess env hal rsp state.tid).paused =
          (pauseLedger env (.rspProcess hal rsp) state.tid state.outstanding).length :=
        balance.balanced
      rw [ledger, kept, counter, if_pos pending, if_neg Bool.false_ne_true,
        ← inv.balanced] at same
      omega
    · intro allowed
      refine inv.overwritten ledger (counter.trans ?_) PauseEvent.noConfusion
        (fun _ _ => PauseEvent.noConfusion)
      rw [kept, if_neg Bool.false_ne_true]
      split
      · rename_i pending
        rw [allowed agreed pending]
      · rfl
  · refine iff_of_true ?_ fun agrees => absurd agrees agreed
    have ends : cancels env (.rspProcess hal rsp) state.tid = true := bne_iff_ne.mpr agreed
    rw [if_neg agreed] at counter
    refine inv.overwritten ledger (counter.trans ?_) PauseEvent.noConfusion
      (fun _ _ => PauseEvent.noConfusion)
    rw [ends, if_pos rfl]

theorem ampduDel_balance (inv : PauseInv state) :
    PauseBalance state (env, .ampduDel) ↔
      (state.tid.cleanupInprogress = false → state.tid.addbaExchangecomplete = true →
        state.tid.paused < 255) := by
  have counter := drvTxampduDel_paused env state.tid
  constructor
  · intro balance idle complete
    by_contra full
    have same : (drvTxampduDel env state.tid).paused = state.outstanding.length :=
      balance.balanced
    rw [if_pos ⟨idle, complete, Nat.not_lt.mp full⟩] at counter
    rw [counter, ← inv.balanced] at same
    omega
  · intro room
    refine inv.overwritten rfl (counter.trans ?_) PauseEvent.noConfusion
      (fun _ _ => PauseEvent.noConfusion)
    rw [if_neg fun full => Nat.not_lt.mpr full.2.2 (room full.1 full.2.1)]
    rfl

private theorem decremented {paused : Nat} (small : paused ≤ 255) :
    (paused + 255) % 256 = if paused = 0 then 255 else paused - 1 := by
  split
  · rename_i zero
    rw [zero]
  · omega

private theorem swqGivesUp_client (tid : TxTid) (client : drvTidIsHostap env = false) :
    swqGivesUp env tid = false := by
  have never : ∀ (queue : List TxDesc) (tid : TxTid), listGivesUp env queue tid = false := by
    intro queue
    induction queue with
    | nil => exact fun _ => rfl
    | cons ptxdesc rest induction =>
      intro tid
      rw [listGivesUp, fwGivesUp_false env tid (Or.inr (Or.inl client)), induction]
      rfl
  exact never _ _

/-- The counter and the ledger behind a cleanup of a waiting identifier. -/
theorem cleanup_counts (inv : PauseInv state) (waiting : state.tid.bWork = true)
    (unwrapped : ¬ PauseWraps state .cleanup) :
    (drvTxlistCleanupForSta env state.tid).paused =
        (cleanupLedger env state.tid state.outstanding).length ↔
      CleanupOk env state.tid := by
  have counter := drvTxlistCleanupForSta_paused env state.tid waiting
  have left : (drvTidSwqCleanup env (endRequest state.tid)).paused =
      if swqGivesUp env (endRequest state.tid) then 0
      else if state.tid.addbaExchangeinprogress then state.tid.paused - 1
      else state.tid.paused := by
    rw [drvTidSwqCleanup_paused, endRequest_paused]
    by_cases pending : state.tid.addbaExchangeinprogress = true
    · have held : state.tid.paused ≠ 0 := fun zero => unwrapped ⟨rfl, waiting, pending, zero⟩
      rw [if_pos pending, if_pos pending, decremented inv.small, if_neg held]
    · rw [if_neg pending, if_neg pending]
  have held : state.tid.addbaExchangeinprogress = true → state.tid.paused ≠ 0 :=
    fun pending zero => unwrapped ⟨rfl, waiting, pending, zero⟩
  have small := inv.small
  have balanced := inv.balanced
  rw [counter, left]
  unfold cleanupLedger CleanupOk
  dsimp only
  cases cleanupPauses state.tid with
  | true =>
    cases client : drvTidIsHostap env with
    | true =>
      exact iff_of_true rfl
        ⟨fun pending => ⟨held pending, Or.inr ⟨rfl, rfl⟩⟩, fun _ => Bool.noConfusion⟩
    | false =>
      rw [swqGivesUp_client _ client]
      cases pending : state.tid.addbaExchangeinprogress with
      | true =>
        have positive := held pending
        refine iff_of_false ?_ fun ok => ?_
        · simp
          omega
        · rcases (ok.1 rfl).2 with never | other
          · cases never
          · cases other.2
      | false =>
        simp
        omega
  | false =>
    cases swqGivesUp env (endRequest state.tid) with
    | true =>
      exact iff_of_true rfl ⟨fun pending => ⟨held pending, Or.inl rfl⟩, Bool.noConfusion⟩
    | false =>
      cases pending : state.tid.addbaExchangeinprogress with
      | true =>
        have positive := held pending
        refine iff_of_false ?_ fun ok => ?_
        · simp
          omega
        · rcases (ok.1 rfl).2 with never | other
          · cases never
          · cases other.1
      | false => exact iff_of_true balanced ⟨Bool.noConfusion, Bool.noConfusion⟩

private theorem cleanup_balance (inv : PauseInv state) :
    PauseBalance state (env, .cleanup) ↔
      (state.tid.bWork = true → CleanupOk env state.tid) := by
  by_cases waiting : state.tid.bWork = true
  · constructor
    · intro balance _
      have same : (drvTxlistCleanupForSta env state.tid).paused =
          (pauseLedger env .cleanup state.tid state.outstanding).length := balance.balanced
      rw [pauseLedger, if_pos waiting] at same
      exact (cleanup_counts inv waiting balance.unwrapped).mp same
    · intro allowed
      have ok := allowed waiting
      have unwrapped : ¬ PauseWraps state .cleanup :=
        fun wraps => (ok.1 wraps.2.2.1).1 wraps.2.2.2
      refine ⟨?_, unwrapped, fun _ _ given => PauseEvent.noConfusion given⟩
      show (drvTxlistCleanupForSta env state.tid).paused =
        (pauseLedger env .cleanup state.tid state.outstanding).length
      rw [pauseLedger, if_pos waiting]
      exact (cleanup_counts inv waiting unwrapped).mpr ok
  · refine iff_of_true ⟨?_, fun wraps => waiting wraps.2.1, ?_⟩ fun works => absurd works waiting
    · show (drvTxlistCleanupForSta env state.tid).paused =
        (pauseLedger env .cleanup state.tid state.outstanding).length
      rw [drvTxlistCleanupForSta_eq, pauseLedger, Bool.eq_false_iff.mpr waiting]
      exact inv.balanced
    · exact fun _ _ given => PauseEvent.noConfusion given

private theorem pauseBalance_iff (inv : PauseInv state) (moment : TxEnv × PauseEvent) :
    PauseBalance state moment ↔ PauseOk state moment := by
  obtain ⟨env, event⟩ := moment
  cases event with
  | pause call => exact pause_balance inv call
  | resume call hal => exact resume_balance inv call hal
  | rspProcess hal rsp => exact rspProcess_balance inv hal rsp
  | ampduDel => exact ampduDel_balance inv
  | cleanup => exact cleanup_balance inv
  | requestTimer =>
    refine iff_of_true ?_ trivial
    exact inv.overwritten rfl (drvAddbaTimer_paused env state.tid) PauseEvent.noConfusion
      (fun _ _ => PauseEvent.noConfusion)
  | quarantine code =>
    refine iff_of_true ?_ trivial
    exact inv.overwritten rfl rfl PauseEvent.noConfusion (fun _ _ => PauseEvent.noConfusion)
  | addbaClear =>
    refine iff_of_true ?_ trivial
    exact inv.overwritten rfl (drvAddbaClear_paused state.tid) PauseEvent.noConfusion
      (fun _ _ => PauseEvent.noConfusion)
  | drain =>
    refine iff_of_true ?_ trivial
    exact inv.overwritten rfl (drvTidSwqCleanup_paused env state.tid) PauseEvent.noConfusion
      (fun _ _ => PauseEvent.noConfusion)
  | reqSetup =>
    refine iff_of_true ?_ trivial
    exact inv.overwritten rfl (drvAddbaReqSetup_paused env state.tid) PauseEvent.noConfusion
      (fun _ _ => PauseEvent.noConfusion)
  | send hal request =>
    refine iff_of_true ?_ trivial
    exact inv.overwritten rfl (drvSend_paused env hal state.tid request) PauseEvent.noConfusion
      (fun _ _ => PauseEvent.noConfusion)
  | task hal =>
    refine iff_of_true ?_ trivial
    exact inv.overwritten rfl (drvTxlistTask_paused env hal state.tid) PauseEvent.noConfusion
      (fun _ _ => PauseEvent.noConfusion)
  | complete index txok =>
    refine iff_of_true ?_ trivial
    exact inv.overwritten rfl (completeAt_paused env index txok state.tid) PauseEvent.noConfusion
      (fun _ _ => PauseEvent.noConfusion)
  | completeNormal index txok =>
    refine iff_of_true ?_ trivial
    exact inv.overwritten rfl (completeNormalAt_paused env index txok state.tid)
      PauseEvent.noConfusion (fun _ _ => PauseEvent.noConfusion)

private theorem pauseTid_small (env : TxEnv) (event : PauseEvent) {tid : TxTid}
    (small : tid.paused ≤ 255) :
    (pauseTid env event tid).paused ≤ 255 := by
  have overwritten : ∀ (ends : Bool), (if ends then 0 else tid.paused) ≤ 255 := by
    intro ends
    cases ends with
    | true => exact Nat.zero_le 255
    | false => exact small
  have lowered : tid.paused - 1 ≤ 255 := (Nat.sub_le _ _).trans small
  cases event with
  | pause call =>
    refine (drvTxlistPauseForStaTid_paused tid).trans_le ?_
    split
    · assumption
    · exact small
  | resume call hal => exact (drvTxlistResumeForSta_paused env hal tid).trans_le lowered
  | requestTimer => exact (drvAddbaTimer_paused env tid).trans_le (overwritten _)
  | quarantine code => exact Nat.zero_le 255
  | addbaClear => exact (drvAddbaClear_paused tid).trans_le (overwritten _)
  | drain => exact (drvTidSwqCleanup_paused env tid).trans_le (overwritten _)
  | cleanup =>
    by_cases waiting : tid.bWork = true
    · have ended : (endRequest tid).paused ≤ 255 := by
        rw [endRequest_paused]
        split
        · exact Nat.le_of_lt_succ (Nat.mod_lt _ (by decide))
        · exact small
      refine (drvTxlistCleanupForSta_paused env tid waiting).trans_le ?_
      split
      · split
        · decide
        · exact Nat.min_le_right _ _
      · rw [drvTidSwqCleanup_paused]
        split
        · exact Nat.zero_le 255
        · exact ended
    · show (drvTxlistCleanupForSta env tid).paused ≤ 255
      rw [drvTxlistCleanupForSta_eq, Bool.eq_false_iff.mpr waiting]
      exact small
  | ampduDel =>
    refine (drvTxampduDel_paused env tid).trans_le ?_
    split
    · exact lowered
    · exact small
  | reqSetup => exact (drvAddbaReqSetup_paused env tid).trans_le small
  | rspProcess hal rsp =>
    refine (drvAddbaRspProcess_paused env hal tid rsp).trans_le ?_
    split
    · split
      · exact lowered
      · exact small
    · exact Nat.zero_le 255
  | send hal request => exact (drvSend_paused env hal tid request).trans_le (overwritten _)
  | task hal => exact (drvTxlistTask_paused env hal tid).trans_le small
  | complete index txok => exact (completeAt_paused env index txok tid).trans_le (overwritten _)
  | completeNormal index txok => exact (completeNormalAt_paused env index txok tid).trans_le small

private theorem pauseStart_inv (tidIndex : Nat) : PauseInv (pauseStart tidIndex) :=
  ⟨rfl, Nat.zero_le 255⟩

private theorem PauseInv.step (inv : PauseInv state) (moment : TxEnv × PauseEvent)
    (balance : PauseBalance state moment) : PauseInv (pauseStep state moment) :=
  ⟨balance.balanced, pauseTid_small moment.1 moment.2 inv.small⟩

/-- The pauses are in order in every state of a run exactly when none of its steps is one of these:
a 256th pause; a resume of a pause that is not outstanding, of an identifier that is paused; the
response to a request while the identifier is paused; a cleanup that ends a request. -/
theorem pause_balance_iff (tidIndex : Nat) (moments : List (TxEnv × PauseEvent)) :
    Machine.Along pauseStep PauseBalance (pauseStart tidIndex) moments ↔
      Machine.Along pauseStep PauseOk (pauseStart tidIndex) moments :=
  Machine.along_congr (fun _ moment inv => pauseBalance_iff inv moment)
    (fun _ moment inv balance => inv.step moment balance) (pauseStart_inv tidIndex)

/-- The response to a request arrives while the station sleeps. -/
def answeredAsleep : List (TxEnv × PauseEvent) :=
  [(plainTxEnv 1, .reqSetup), (plainTxEnv 1, .pause 1),
    (plainTxEnv 1, .rspProcess (roomyHal true) ⟨0, 8, false⟩)]

/-- A timeout takes the first pause away, and the resume that belonged to it takes the second. -/
def lateResume : List (TxEnv × PauseEvent) :=
  [(plainTxEnv 1, .reqSetup), (plainTxEnv 1, .pause 1), (plainTxEnv 1, .requestTimer),
    (plainTxEnv 1, .pause 2), (plainTxEnv 1, .resume 1 (roomyHal true))]

/-- A waiting identifier is cleaned up while its second request is in progress. -/
def cleanedUp : List (TxEnv × PauseEvent) :=
  [(plainTxEnv 1, .reqSetup), (plainTxEnv 1, .rspProcess (roomyHal true) ⟨0, 8, false⟩),
    (plainTxEnv 1, .send (fun _ => ⟨0, true, true⟩) (dataRequest 1 true)),
    (plainTxEnv 1, .quarantine .halTxFail), ({ plainTxEnv 1 with now := 11 }, .reqSetup),
    ({ plainTxEnv 1 with now := 11 }, .cleanup)]

/-- The first two runs wake an identifier that somebody has paused, the third wraps. -/
theorem pauses_lost :
    ¬ Machine.Along pauseStep PauseBalance (pauseStart 0) answeredAsleep ∧
      ¬ Machine.Along pauseStep PauseBalance (pauseStart 0) lateResume ∧
      ¬ Machine.Along pauseStep PauseBalance (pauseStart 0) cleanedUp := by
  refine ⟨?_, ?_, ?_⟩
  · intro ⟨_, _, answered, _⟩
    exact absurd answered.balanced (by decide)
  · intro ⟨_, _, _, _, late, _⟩
    exact absurd (late.own 1 (roomyHal true) rfl (by decide)) (by decide)
  · intro ⟨_, _, _, _, _, cleaned, _⟩
    exact cleaned.unwrapped ⟨rfl, by decide, by decide, by decide⟩

end Runs

end W522a.Tx
