import W522a.Tx.InWindow
import Mathlib.Algebra.Order.Group.Multiset

/-!
The sequence numbers of the frames that are outstanding: queued, in the hardware, or given to
`drv_tx_normal`. Every step but a new number and a drain only passes them on or takes them away.
-/

namespace W522a.Tx

/-- The frames of an identifier that are queued or in flight. -/
def outstanding (tid : TxTid) : List TxDesc :=
  tid.txdsQueue ++ tid.inHal ++ tid.normal.map Subtype.val

/-- No two outstanding frames carry the same number. -/
def NoReuse (tid : TxTid) : Prop :=
  (outstanding tid).Pairwise fun first second =>
    first.seqnum % wifinetSeqMax ≠ second.seqnum % wifinetSeqMax

def numbersOf (frames : List TxDesc) : Multiset Nat :=
  ↑(frames.map fun ptxdesc => ptxdesc.seqnum % wifinetSeqMax)

/-- The numbers that the outstanding frames carry. -/
def numbers (tid : TxTid) : Multiset Nat :=
  numbersOf tid.txdsQueue + numbersOf tid.inHal + numbersOf (tid.normal.map Subtype.val)

section Numbers

variable {first second third tid : TxTid} {frames others : List TxDesc}

@[simp] theorem numbersOf_nil : numbersOf [] = 0 := rfl

@[simp] theorem numbersOf_append :
    numbersOf (frames ++ others) = numbersOf frames + numbersOf others := by
  rw [numbersOf, List.map_append, ← Multiset.coe_add]
  rfl

theorem numbersOf_cons (ptxdesc : TxDesc) :
    numbersOf (ptxdesc :: frames) = {ptxdesc.seqnum % wifinetSeqMax} + numbersOf frames := rfl

theorem numbersOf_congr (same : frames.map TxDesc.member = others.map TxDesc.member) :
    numbersOf frames = numbersOf others := by
  have equal := congrArg (List.map fun member : Member => member.seqnum % wifinetSeqMax) same
  rw [List.map_map, List.map_map] at equal
  exact congrArg (fun list : List Nat => (list : Multiset Nat)) equal

theorem numbersOf_orphan (frames : List TxDesc) :
    numbersOf (frames.map TxDesc.orphan) = numbersOf frames := by
  rw [numbersOf, List.map_map]
  rfl

theorem numbersOf_sublist (fewer : List.Sublist frames others) :
    numbersOf frames ≤ numbersOf others :=
  Multiset.coe_le.mpr (fewer.map _).subperm

theorem noReuse_iff : NoReuse tid ↔ (numbers tid).Nodup := by
  have whole : numbers tid = numbersOf (outstanding tid) := by
    rw [outstanding, numbersOf_append, numbersOf_append]
    rfl
  rw [whole, numbersOf, Multiset.coe_nodup, NoReuse, List.Nodup, List.pairwise_map]

/-- A step that gives out no number and takes none back: the outstanding frames become fewer, if
anything. -/
structure Settles (first second : TxTid) : Prop where
  next : second.win.seqNext = first.win.seqNext
  start : first.win.seqStart < 4096 → first.win.seqNext < 4096 → second.win.seqStart < 4096
  fewer : numbers second ≤ numbers first

theorem Settles.refl (tid : TxTid) : Settles tid tid where
  next := rfl
  start := fun inside _ => inside
  fewer := le_refl _

theorem Settles.trans (earlier : Settles first second) (later : Settles second third) :
    Settles first third where
  next := later.next.trans earlier.next
  start := fun inside below =>
    later.start (earlier.start inside below) (earlier.next.symm ▸ below)
  fewer := le_trans later.fewer earlier.fewer

theorem Settles.of_core (same : second.core = first.core) (normal : second.normal = first.normal) :
    Settles first second := by
  obtain ⟨win, others⟩ := Prod.mk.inj same
  obtain ⟨inHal, queue⟩ := Prod.mk.inj others
  refine ⟨by rw [win], fun inside _ => by rw [win]; exact inside, ?_⟩
  rw [numbers, numbers, queue, inHal, normal]

end Numbers

section Completion

variable (env : TxEnv) (code : TxbaFault) (ptxdesc : TxDesc) (txok : Bool) (tid : TxTid)

@[simp] theorem noteFwResult_normal : (noteFwResult env ptxdesc txok tid).normal = tid.normal := by
  unfold noteFwResult
  split
  · rfl
  · split
    · split <;> rfl
    · dsimp only
      split <;> rfl

@[simp] theorem drvTxComplete_normal :
    (drvTxComplete env ptxdesc txok tid).normal = tid.normal :=
  noteFwResult_normal env ptxdesc txok tid

@[simp] theorem drvTxCompleteList_normal (queue : List TxDesc) :
    (drvTxCompleteList env queue txok tid).normal = tid.normal := by
  induction queue generalizing tid with
  | nil => rfl
  | cons first rest induction =>
    have next := induction (drvTxComplete env first txok tid)
    rw [drvTxComplete_normal] at next
    exact next

theorem drvTxComplete_settles : Settles tid (drvTxComplete env ptxdesc txok tid) :=
  .of_core (drvTxComplete_core ..) (drvTxComplete_normal ..)

theorem drvTxCompleteList_settles (queue : List TxDesc) :
    Settles tid (drvTxCompleteList env queue txok tid) :=
  .of_core (drvTxCompleteList_core ..) (drvTxCompleteList_normal ..)

theorem drvTxQueueTid_settles : Settles tid (drvTxQueueTid tid) := by
  refine .of_core (drvTxQueueTid_core tid) ?_
  unfold drvTxQueueTid
  split <;> rfl

private theorem slideWindow_seqStart (turns : Nat) (win : BaWindow) (inside : win.seqStart < 4096) :
    (slideWindow turns win).seqStart < 4096 := by
  have next : ∀ start, start < 4096 → circleAddOne start 4096 < 4096 := by
    intro start below
    unfold circleAddOne
    split <;> omega
  induction turns generalizing win with
  | zero =>
    rw [slideWindow]
    split <;> exact inside
  | succ turns induction =>
    rw [slideWindow]
    split
    · exact induction (slideHead win) (next win.seqStart inside)
    · exact inside

private theorem drvTxUpdateBaWin_seqStart (seqnum : Nat) (win : BaWindow)
    (inside : win.seqStart < 4096) :
    (drvTxUpdateBaWin seqnum win).seqStart < 4096 := by
  unfold drvTxUpdateBaWin
  split
  · exact inside
  · dsimp only
    split
    · exact inside
    · exact slideWindow_seqStart _ _ inside

private theorem noteCompletion_settles : Settles tid (noteCompletion ptxdesc tid) := by
  have updated : Settles tid { tid with win := drvTxUpdateBaWin ptxdesc.seqnum tid.win } :=
    ⟨drvTxUpdateBaWin_seqNext _ _, fun inside _ => drvTxUpdateBaWin_seqStart _ _ inside, le_refl _⟩
  unfold noteCompletion
  split
  · dsimp only
    split
    · exact updated.trans (.of_core rfl rfl)
    · exact updated
  · exact .refl tid

theorem drvTxCompleteTask_settles : Settles tid (drvTxCompleteTask env ptxdesc txok tid) := by
  have noted := noteCompletion_settles ptxdesc tid
  unfold drvTxCompleteTask
  split
  · exact drvTxComplete_settles env ptxdesc false tid
  · dsimp only
    split
    · exact noted.trans (.of_core rfl rfl)
    · exact noted.trans (drvTxComplete_settles ..)

theorem completeAt_settles (index : Nat) : Settles tid (completeAt env index txok tid) := by
  unfold completeAt
  split
  · exact .refl tid
  · have taken : Settles tid { tid with inHal := tid.inHal.eraseIdx index } := by
      refine ⟨rfl, fun inside _ => inside, ?_⟩
      have fewer := numbersOf_sublist (List.eraseIdx_sublist tid.inHal index)
      exact add_le_add (add_le_add (le_refl _) fewer) (le_refl _)
    exact taken.trans (drvTxCompleteTask_settles ..)

theorem completeNormalAt_settles (index : Nat) :
    Settles tid (completeNormalAt env index txok tid) := by
  unfold completeNormalAt
  split
  · exact .refl tid
  · have taken : Settles tid { tid with normal := tid.normal.eraseIdx index } := by
      refine ⟨rfl, fun inside _ => inside, ?_⟩
      have fewer := numbersOf_sublist
        ((List.eraseIdx_sublist tid.normal index).map Subtype.val)
      exact add_le_add (le_refl _) fewer
    exact taken.trans (drvTxCompleteTask_settles ..)

end Completion

section Scheduler

variable {env : TxEnv} {tid : TxTid}

/-- The frames that an aggregate takes leave the queue for the hardware, or are completed. -/
theorem dispatchAmpdu_settles (env : TxEnv) (accepts : Bool) (ptxdesc : TxDesc) (rest : List TxDesc)
    (tid : TxTid) :
    (dispatchAmpdu env accepts ptxdesc rest tid).1.win.seqNext = tid.win.seqNext ∧
      (tid.win.seqStart < 4096 →
        (dispatchAmpdu env accepts ptxdesc rest tid).1.win.seqStart < 4096) ∧
      numbers (dispatchAmpdu env accepts ptxdesc rest tid).1 ≤
        numbers tid + numbersOf (ptxdesc :: rest) := by
  have win : (dispatchAmpdu env accepts ptxdesc rest tid).1.win = tid.win :=
    dispatchAmpdu_win accepts ptxdesc rest
  refine ⟨by rw [win], fun inside => by rw [win]; exact inside, ?_⟩
  have completed : ∀ (other : TxTid) (queue : List TxDesc), Settles tid other →
      numbers (drvTxCompleteList env queue false other) ≤
        numbers tid + numbersOf (ptxdesc :: rest) := by
    intro other queue settles
    have fewer := (settles.trans (drvTxCompleteList_settles env false other queue)).fewer
    exact le_trans fewer (Multiset.le_add_right _ _)
  have sent : ∀ queue : List TxDesc, numbersOf queue = numbersOf (ptxdesc :: rest) →
      numbers (sendToHal env accepts queue { tid with waitMpduTimeout := false }) ≤
        numbers tid + numbersOf (ptxdesc :: rest) := by
    intro queue same
    unfold sendToHal
    split
    · rw [numbers, numbersOf_append, same, numbers]
      refine le_of_eq ?_
      simp only [add_assoc, add_comm, add_left_comm]
    · exact completed _ queue (.of_core rfl rfl)
  unfold dispatchAmpdu
  split
  · exact completed tid _ (.refl tid)
  · dsimp only
    split
    · split
      · exact completed _ _ (.of_core rfl rfl)
      · rename_i alone
        have single : rest = [] := not_not.mp alone
        subst single
        refine sent _ ?_
        unfold soleFrame
        dsimp only
        split <;> rfl
    · exact sent _ rfl

private theorem schedTurn_settles (env : TxEnv) (hal : HalTurn) (tid : TxTid) :
    Settles tid (schedTurn env hal tid).1 := by
  unfold schedTurn
  split
  · exact .of_core rfl rfl
  · split
    · exact .refl tid
    · obtain ⟨taken, rest, result⟩ := drvTxampduBuild_result env tid
      obtain ⟨sampleRate, scoreboard⟩ := result.scoreboard
      obtain ⟨start, next, -, -⟩ := recordAll_fixed taken tid.win
      have frames := numbersOf_congr result.frames
      have queue := numbersOf_congr result.queue
      rw [numbersOf_append] at queue
      have left : numbers (drvTxampduBuild env tid).tid =
          numbersOf rest + numbersOf tid.inHal + numbersOf (tid.normal.map Subtype.val) := by
        rw [scoreboard]
        rfl
      have whole : numbers (drvTxampduBuild env tid).tid +
          numbersOf (drvTxampduBuild env tid).frames = numbers tid := by
        rw [left, frames, numbers, ← queue]
        simp only [add_assoc, add_comm]
      have nextSame : (drvTxampduBuild env tid).tid.win.seqNext = tid.win.seqNext := by
        rw [scoreboard]
        exact next
      have startSame : (drvTxampduBuild env tid).tid.win.seqStart = tid.win.seqStart := by
        rw [scoreboard]
        exact start
      dsimp only
      split
      · refine ⟨nextSame, fun inside _ => startSame ▸ inside, ?_⟩
        rw [← whole]
        exact Multiset.le_add_right _ _
      · rename_i first others built
        rw [built] at whole
        obtain ⟨dispatchedNext, dispatchedStart, fewer⟩ :=
          dispatchAmpdu_settles env hal.accepts first others (drvTxampduBuild env tid).tid
        refine ⟨dispatchedNext.trans nextSame, fun inside _ => ?_, ?_⟩
        · exact dispatchedStart (startSame.symm ▸ inside)
        · rw [← whole]
          exact fewer

private theorem schedLoop_settles (hal : Nat → HalTurn) (fuel turn : Nat) (tid : TxTid) :
    Settles tid (schedLoop env hal fuel turn tid) := by
  induction fuel generalizing turn tid with
  | zero => exact .refl tid
  | succ fuel induction =>
    have first := schedTurn_settles env (hal turn) tid
    rw [schedLoop]
    dsimp only
    split
    · exact first.trans (induction (turn + 1) _)
    · exact first

theorem drvTxlistTask_settles (hal : Nat → HalTurn) : Settles tid (drvTxlistTask env hal tid) := by
  unfold drvTxlistTask
  split
  · exact .refl tid
  · dsimp only
    split
    · exact .of_core rfl rfl
    · have scheduled : Settles tid (drvTxSchedAggr env hal { tid with bWork := false }) := by
        unfold drvTxSchedAggr
        split
        · exact .of_core rfl rfl
        · exact (Settles.of_core rfl rfl : Settles tid { tid with bWork := false }).trans
            (schedLoop_settles hal _ 0 _)
      split
      · exact scheduled.trans (drvTxQueueTid_settles _)
      · exact scheduled

theorem Settles.runTask {hal : Nat → HalTurn} {entry : TxTid × Bool}
    (settles : Settles tid entry.1) : Settles tid (runTask env hal entry) := by
  unfold Tx.runTask
  split
  · exact settles.trans (drvTxlistTask_settles hal)
  · exact settles

end Scheduler

section Flushes

variable {env : TxEnv} {tid : TxTid}

theorem unpause_settles : Settles tid (unpause tid).1 := by
  refine .of_core (unpause_core tid) ?_
  unfold unpause
  split
  · rfl
  · dsimp only
    split
    · rfl
    · unfold drvTxQueueTid
      split <;> rfl

private theorem flushFrames_numbers (queue : List TxDesc) (tid : TxTid) :
    numbers (queue.foldl (fun tid ptxdesc => flushFrame env ptxdesc tid) tid) ≤
      numbers tid + numbersOf queue := by
  induction queue generalizing tid with
  | nil => exact Multiset.le_add_right _ _
  | cons first rest induction =>
    have flushed : numbers (flushFrame env first tid) ≤
        numbers tid + {first.seqnum % wifinetSeqMax} := by
      unfold flushFrame
      dsimp only
      split
      · refine le_of_eq ?_
        simp only [drvTxNormal, numbers, List.map_append, numbersOf_append]
        rw [add_assoc _ (numbersOf (tid.normal.map Subtype.val))]
        rfl
      · exact le_trans (drvTxComplete_settles ..).fewer (Multiset.le_add_right _ _)
    rw [List.foldl_cons, numbersOf_cons, ← add_assoc]
    exact le_trans (induction _) (add_le_add flushed (le_refl _))

theorem drvTxlistFlushForStaTid_settles : Settles tid (drvTxlistFlushForStaTid env tid) := by
  have win := (drvTxlistFlushForStaTid_kept env tid).win
  refine ⟨by rw [win], fun inside _ => by rw [win]; exact inside, ?_⟩
  unfold drvTxlistFlushForStaTid
  dsimp only
  split
  · exact le_refl _
  · refine le_trans (flushFrames_numbers tid.txdsQueue _) (le_of_eq ?_)
    simp only [numbers, numbersOf_nil, zero_add, add_assoc, add_comm]

private theorem drvTidSwqCleanup_settles : Settles tid (drvTidSwqCleanup env tid) := by
  have emptied : Settles tid { tid with
      txdsQueue := []
      txdsPendingCnt := tid.txdsPendingCnt - tid.txdsQueue.length } := by
    refine ⟨rfl, fun inside _ => inside, ?_⟩
    exact add_le_add (add_le_add (Multiset.zero_le _) (le_refl _)) (le_refl _)
  exact emptied.trans (drvTxCompleteList_settles ..)

private theorem drvTidCleanup_settles : Settles tid (drvTidCleanup env tid) := by
  have cleaned : Settles tid (drvTidSwqCleanup env tid) := drvTidSwqCleanup_settles
  unfold drvTidCleanup
  dsimp only
  split
  · exact cleaned
  · split
    · split
      · exact cleaned.trans (.of_core rfl rfl)
      · exact cleaned.trans (.of_core rfl rfl)
    · exact cleaned.trans (.of_core rfl rfl)

theorem drvTxlistCleanupForSta_settles : Settles tid (drvTxlistCleanupForSta env tid) := by
  have beside : ∀ other : TxTid, other.core = tid.core → other.normal = tid.normal →
      Settles tid (drvTidCleanup env other) := fun other core normal =>
    (Settles.of_core core normal).trans drvTidCleanup_settles
  unfold drvTxlistCleanupForSta
  split
  · exact .refl tid
  · dsimp only
    split
    · exact beside _ rfl rfl
    · exact beside _ rfl rfl

@[simp] theorem drvTxlistPauseForStaTid_normal :
    (drvTxlistPauseForStaTid tid).normal = tid.normal := by
  unfold drvTxlistPauseForStaTid
  split <;> rfl

theorem drvTxlistPauseForStaTid_settles : Settles tid (drvTxlistPauseForStaTid tid) :=
  .of_core (drvTxlistPauseForStaTid_core tid) drvTxlistPauseForStaTid_normal

theorem drvTxampduDel_settles : Settles tid (drvTxampduDel env tid) := by
  have flushed : ∀ other : TxTid, other.core = tid.core → other.normal = tid.normal →
      Settles tid (drvTxlistFlushForStaTid env other) := fun other core normal =>
    (Settles.of_core core normal).trans drvTxlistFlushForStaTid_settles
  unfold drvTxampduDel
  split
  · exact .refl tid
  · split
    · exact .of_core rfl rfl
    · dsimp only
      split
      · split
        · exact flushed _ (drvTxlistPauseForStaTid_core _) drvTxlistPauseForStaTid_normal
        · exact flushed _ (drvTxlistPauseForStaTid_core _) drvTxlistPauseForStaTid_normal
      · split
        · exact flushed _ (drvTxlistPauseForStaTid_core _) drvTxlistPauseForStaTid_normal
        · exact flushed _ (drvTxlistPauseForStaTid_core _) drvTxlistPauseForStaTid_normal

private theorem answerRequest_settles (rsp : AddbaRsp) (tid : TxTid) :
    Settles tid (answerRequest rsp tid) := by
  refine .of_core (answerRequest_core tid rsp) ?_
  unfold answerRequest
  dsimp only
  split <;> rfl

theorem drvAddbaRspProcess_settles (hal : Nat → HalTurn) (rsp : AddbaRsp) :
    Settles tid (drvAddbaRspProcess env hal rsp tid) := by
  have answered := answerRequest_settles rsp tid
  have accepted : Settles tid (acceptRsp env rsp (answerRequest rsp tid)) :=
    answered.trans ⟨rfl, fun inside _ => inside, le_refl _⟩
  have refused : Settles tid (drvTxbaQuarantine env .addbaRefused (answerRequest rsp tid)) :=
    answered.trans (.of_core rfl rfl)
  unfold drvAddbaRspProcess
  dsimp only
  split
  · split
    · exact accepted
    · split
      · exact Settles.runTask (accepted.trans unpause_settles)
      · exact accepted.trans drvTxlistFlushForStaTid_settles
  · split
    · exact refused.trans drvTxlistFlushForStaTid_settles
    · exact refused

theorem drvAddbaReqSetup_settles : Settles tid (drvAddbaReqSetup env tid) := by
  have kept : Settles tid (drvTxbaQuarantined env tid).2 := by
    unfold drvTxbaQuarantined
    split
    · exact .refl tid
    · split
      · exact .refl tid
      · exact .of_core rfl rfl
  unfold drvAddbaReqSetup
  split
  · rename_i quarantined
    rw [quarantined] at kept
    exact kept.trans (.of_core rfl rfl)
  · rename_i quarantined
    rw [quarantined] at kept
    dsimp only
    split
    · exact kept.trans ⟨rfl, fun _ below => below, le_refl _⟩
    · exact kept.trans ⟨rfl, fun _ below => below, le_refl _⟩

theorem drvAddbaTimer_settles : Settles tid (drvAddbaTimer env tid) := by
  unfold drvAddbaTimer
  dsimp only
  split
  · exact .of_core rfl rfl
  · exact .of_core rfl rfl

theorem drvAddbaClear_settles : Settles tid (drvAddbaClear tid) := by
  unfold drvAddbaClear
  dsimp only
  split
  · exact .of_core rfl rfl
  · exact .of_core rfl rfl

end Flushes

end W522a.Tx
