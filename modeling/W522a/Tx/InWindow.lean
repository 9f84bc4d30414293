import W522a.Tx.Steps
import Mathlib.Data.List.Induction

/-!
The frames of an aggregate against the window: which of them lie inside it and are recorded, for
any queue of a reachable identifier.
-/

namespace W522a.Tx

/-- The window size that every reachable identifier has. -/
def Sized (tid : TxTid) : Prop := 1 ≤ tid.win.bawSize ∧ tid.win.bawSize ≤ wmeBaBmpSize

theorem Sized.of_bawSize {first second : TxTid} (sized : Sized first)
    (same : second.win.bawSize = first.win.bawSize) : Sized second := by
  rw [Sized, same]
  exact sized

theorem Sized.of_core {first second : TxTid} (sized : Sized first)
    (same : second.core = first.core) : Sized second :=
  sized.of_bawSize
    (congrArg (fun core : BaWindow × List TxDesc × List TxDesc => core.1.bawSize) same)

section Size

variable {env : TxEnv} {tid : TxTid}

private theorem sendToHal_win (accepts : Bool) (txQueue : List TxDesc) :
    (sendToHal env accepts txQueue tid).win = tid.win := by
  unfold sendToHal
  split
  · rfl
  · have core := drvTxCompleteList_core env false (drvTxbaQuarantine env .halTxFail tid) txQueue
    exact (Prod.mk.inj core).1

theorem dispatchAmpdu_win (accepts : Bool) (ptxdesc : TxDesc) (rest : List TxDesc) :
    (dispatchAmpdu env accepts ptxdesc rest tid).1.win = tid.win := by
  have dropped : ∀ other : TxTid, (drvTxCompleteList env (ptxdesc :: rest) false other).win =
      other.win := fun other =>
    (Prod.mk.inj (drvTxCompleteList_core env false other (ptxdesc :: rest))).1
  unfold dispatchAmpdu
  split
  · exact dropped tid
  · dsimp only
    split
    · split
      · exact dropped _
      · exact sendToHal_win _ _
    · exact sendToHal_win _ _

private theorem drvTxampduBuild_bawSize :
    (drvTxampduBuild env tid).tid.win.bawSize = tid.win.bawSize := by
  obtain ⟨taken, rest, result⟩ := drvTxampduBuild_result env tid
  obtain ⟨sampleRate, scoreboard⟩ := result.scoreboard
  rw [scoreboard]
  exact (recordAll_fixed taken tid.win).2.2.1

private theorem schedTurn_bawSize (hal : HalTurn) :
    (schedTurn env hal tid).1.win.bawSize = tid.win.bawSize := by
  unfold schedTurn
  split
  · rfl
  · split
    · rfl
    · dsimp only
      split
      · exact drvTxampduBuild_bawSize
      · rw [dispatchAmpdu_win]
        exact drvTxampduBuild_bawSize

private theorem schedLoop_bawSize (hal : Nat → HalTurn) (fuel turn : Nat) (tid : TxTid) :
    (schedLoop env hal fuel turn tid).win.bawSize = tid.win.bawSize := by
  induction fuel generalizing turn tid with
  | zero => rfl
  | succ fuel induction =>
    rw [schedLoop]
    dsimp only
    split
    · rw [induction]
      exact schedTurn_bawSize (hal turn)
    · exact schedTurn_bawSize (hal turn)

theorem drvTxlistTask_bawSize (hal : Nat → HalTurn) :
    (drvTxlistTask env hal tid).win.bawSize = tid.win.bawSize := by
  unfold drvTxlistTask
  split
  · rfl
  · dsimp only
    split
    · rfl
    · have scheduled : (drvTxSchedAggr env hal { tid with bWork := false }).win.bawSize =
          tid.win.bawSize := by
        unfold drvTxSchedAggr
        split
        · rfl
        · exact schedLoop_bawSize hal _ 0 _
      split
      · have core := drvTxQueueTid_core (drvTxSchedAggr env hal { tid with bWork := false })
        rw [(Prod.mk.inj core).1]
        exact scheduled
      · exact scheduled

theorem Sized.runTask {hal : Nat → HalTurn} {entry : TxTid × Bool} (sized : Sized entry.1) :
    Sized (runTask env hal entry) := by
  unfold Tx.runTask
  split
  · exact sized.of_bawSize (drvTxlistTask_bawSize hal)
  · exact sized

theorem Sized.of_kept {first second : TxTid} (sized : Sized first) (kept : Kept first second) :
    Sized second :=
  sized.of_bawSize (congrArg BaWindow.bawSize kept.win)

private theorem Sized.send {hal : Nat → HalTurn} {request : TxRequest} (sized : Sized tid) :
    Sized (drvSend env hal request tid) := by
  have prepared : Sized (drvTxPrepare request tid).2 := by
    rcases drvTxPrepare_cases request tid with ⟨-, core, -⟩ | ⟨-, same, -⟩
    · obtain ⟨win, -⟩ := Prod.mk.inj core
      exact sized.of_bawSize (by rw [win])
    · rw [same]
      exact sized
  unfold drvSend
  dsimp only
  split
  · refine Sized.runTask ?_
    unfold enqueueAmpdu
    split
    · exact prepared
    · exact prepared.of_bawSize
        (congrArg BaWindow.bawSize (Prod.mk.inj (drvTxQueueTid_core _)).1)
  · exact prepared

@[simp] theorem drvTxUpdateBaWin_bawSize (seqnum : Nat) (win : BaWindow) :
    (drvTxUpdateBaWin seqnum win).bawSize = win.bawSize := by
  unfold drvTxUpdateBaWin
  split
  · rfl
  · dsimp only
    split
    · rfl
    · exact (slideWindow_fixed _ _).2

private theorem Sized.completeTask {ptxdesc : TxDesc} {txok : Bool} (sized : Sized tid) :
    Sized (drvTxCompleteTask env ptxdesc txok tid) := by
  have noted : Sized (noteCompletion ptxdesc tid) := by
    unfold noteCompletion
    split
    · have updated : Sized { tid with win := drvTxUpdateBaWin ptxdesc.seqnum tid.win } :=
        sized.of_bawSize (drvTxUpdateBaWin_bawSize _ _)
      dsimp only
      split
      · exact updated
      · exact updated
    · exact sized
  unfold drvTxCompleteTask
  split
  · exact sized.of_core (drvTxComplete_core _ _ _ _)
  · dsimp only
    split
    · exact noted
    · exact noted.of_core (drvTxComplete_core _ _ _ _)

private theorem Sized.reqSetup (sized : Sized tid) : Sized (drvAddbaReqSetup env tid) := by
  have kept : Sized (drvTxbaQuarantined env tid).2 := by
    unfold drvTxbaQuarantined
    split
    · exact sized
    · split <;> exact sized
  unfold drvAddbaReqSetup
  split
  · rename_i quarantined
    rw [quarantined] at kept
    exact kept
  · rename_i quarantined
    rw [quarantined] at kept
    dsimp only
    split <;> exact kept

private theorem Sized.rspProcess {hal : Nat → HalTurn} {rsp : AddbaRsp} (sized : Sized tid) :
    Sized (drvAddbaRspProcess env hal rsp tid) := by
  have answered : Sized (answerRequest rsp tid) := sized.of_core (answerRequest_core tid rsp)
  have ordered : 1 ≤ wmeBaBmpSize := by decide
  have accepted : Sized (acceptRsp env rsp (answerRequest rsp tid)) := clampT_bounds ordered
  unfold drvAddbaRspProcess
  dsimp only
  split
  · split
    · exact accepted
    · split
      · exact Sized.runTask (accepted.of_core (unpause_core _))
      · exact accepted.of_kept (drvTxlistFlushForStaTid_kept _ _)
  · split
    · exact answered.of_kept ((drvTxlistFlushForStaTid_kept _ _).trans_core rfl)
    · exact answered

private theorem Sized.freeAllByVid (sized : Sized tid) : Sized (drvTxlistFreeAllByVid env tid) := by
  unfold drvTxlistFreeAllByVid
  dsimp only
  split
  · unfold drvTidDrain
    have kept := drvTidSwqCleanup_kept env { tid with
      inHal := tid.inHal.map TxDesc.orphan
      normal := tid.normal.map NormalDesc.orphan
      bWork := false }
    exact sized.of_bawSize (by simp only [kept.win])
  · exact sized

theorem txStep_sized (tid : TxTid) (moment : TxEnv × TxEvent) (sized : Sized tid) :
    Sized (txStep tid moment) := by
  obtain ⟨env, event⟩ := moment
  cases event with
  | send hal request => exact sized.send
  | task hal => exact sized.of_bawSize (drvTxlistTask_bawSize hal)
  | complete index txok =>
    show Sized (completeAt env index txok tid)
    unfold completeAt
    split
    · exact sized
    · exact Sized.completeTask sized
  | completeNormal index txok =>
    show Sized (completeNormalAt env index txok tid)
    unfold completeNormalAt
    split
    · exact sized
    · exact Sized.completeTask sized
  | reqSetup => exact sized.reqSetup
  | rspProcess hal rsp => exact sized.rspProcess
  | requestTimer =>
    show Sized (drvAddbaTimer env tid)
    unfold drvAddbaTimer
    dsimp only
    split <;> exact sized
  | pause => exact sized.of_core (drvTxlistPauseForStaTid_core tid)
  | resume hal => exact Sized.runTask (sized.of_core (unpause_core tid))
  | flush => exact sized.of_kept (drvTxlistFlushForStaTid_kept env tid)
  | flushfree => exact sized.freeAllByVid
  | cleanup => exact sized.of_kept (drvTxlistCleanupForSta_kept env tid)
  | ampduDel => exact sized.of_kept (drvTxampduDel_kept env tid)
  | addbaClear =>
    show Sized (drvAddbaClear tid)
    unfold drvAddbaClear
    dsimp only
    split <;> exact sized
  | shared txdsPendingCnt waitMpduTimeout sampleRate => exact sized

theorem drvTxlistInitForSta_sized (tidIndex : Nat) : Sized (drvTxlistInitForSta tidIndex) :=
  ⟨(by decide : 1 ≤ wmeMaxBa), (by decide : wmeMaxBa ≤ wmeBaBmpSize)⟩

end Size

/-- A frame lies inside the window of the receiver. -/
def InWindow (win : BaWindow) (seqnum : Nat) : Prop := win.index seqnum < win.bawSize

instance (win : BaWindow) (seqnum : Nat) : Decidable (InWindow win seqnum) :=
  inferInstanceAs (Decidable (_ < _))

def RecordedIn (frames : List TxDesc) (win : BaWindow) (ptxdesc : TxDesc) : Prop :=
  ∃ other ∈ frames, win.index other.seqnum = win.index ptxdesc.seqnum ∧
    win.txDesc (win.descId (win.index ptxdesc.seqnum)) = some other.id

section Record

variable {win : BaWindow}

private theorem add2baw_slot {ptxdesc : TxDesc} (small : win.bawSize ≤ 64) {index : Nat}
    (within : win.index ptxdesc.seqnum < win.bawSize) (bound : index < 128) :
    (drvTxAdd2baw ptxdesc win).txDesc (win.descId index) =
      if index = win.index ptxdesc.seqnum then some ptxdesc.id
      else win.txDesc (win.descId index) := by
  have taken : ¬ (drvTidMaxBufs ≤ win.index ptxdesc.seqnum ∨
      win.bawSize ≠ 0 ∧ win.bawSize ≤ win.index ptxdesc.seqnum) := by
    simp only [drvTidMaxBufs]
    omega
  have written : (drvTxAdd2baw ptxdesc win).txDesc =
      Function.update win.txDesc (win.descId (win.index ptxdesc.seqnum)) (some ptxdesc.id) := by
    unfold drvTxAdd2baw
    rw [BaWindow.index] at taken
    simp only [if_neg taken]
    rfl
  rw [written, Function.update_apply]
  by_cases same : index = win.index ptxdesc.seqnum
  · rw [if_pos same, if_pos (by rw [same])]
  · have apart : win.descId index ≠ win.descId (win.index ptxdesc.seqnum) := by
      simp only [BaWindow.descId, drvTidMaxBufs]
      omega
    rw [if_neg same, if_neg apart]

/-- Recorded frames stay recorded: the slot of each holds the last frame with its number. -/
theorem recordAll_recorded {taken : List TxDesc} (small : win.bawSize ≤ 64)
    (within : ∀ ptxdesc ∈ taken, win.index ptxdesc.seqnum < win.bawSize) :
    ∀ ptxdesc ∈ taken, RecordedIn taken (recordAll taken win) ptxdesc := by
  induction taken using List.reverseRecOn with
  | nil => simp
  | append_singleton front last induction =>
    obtain ⟨seqStart, -, bawSize, bawHead⟩ := recordAll_fixed front win
    have index_eq : ∀ seqnum, (recordAll front win).index seqnum = win.index seqnum := by
      intro seqnum
      rw [BaWindow.index, seqStart, BaWindow.index]
    have lastIn : (recordAll front win).index last.seqnum < (recordAll front win).bawSize := by
      rw [index_eq, bawSize]
      exact within last (by simp)
    have slot : ∀ index, index < 128 →
        (drvTxAdd2baw last (recordAll front win)).txDesc ((recordAll front win).descId index) =
          if index = win.index last.seqnum then some last.id
          else (recordAll front win).txDesc ((recordAll front win).descId index) := by
      intro index bound
      rw [add2baw_slot (by omega) lastIn bound, index_eq]
    have final : recordAll (front ++ [last]) win = drvTxAdd2baw last (recordAll front win) := by
      rw [recordAll_append]
      rfl
    have final_index : ∀ seqnum, (recordAll (front ++ [last]) win).index seqnum =
        win.index seqnum := by
      intro seqnum
      rw [BaWindow.index, (recordAll_fixed (front ++ [last]) win).1, BaWindow.index]
    have final_descId : ∀ index, (recordAll (front ++ [last]) win).descId index =
        (recordAll front win).descId index := by
      intro index
      simp only [BaWindow.descId, bawHead, (recordAll_fixed (front ++ [last]) win).2.2.2]
    intro ptxdesc found
    have place := within ptxdesc found
    rw [RecordedIn]
    simp only [final_index, final_descId]
    rw [final, slot _ (by omega)]
    by_cases same : win.index ptxdesc.seqnum = win.index last.seqnum
    · exact ⟨last, by simp, same.symm, by rw [if_pos same]⟩
    · have earlier : ptxdesc ∈ front := by
        rcases List.mem_append.mp found with old | new
        · exact old
        · exact absurd (congrArg (fun other : TxDesc => win.index other.seqnum)
            (List.mem_singleton.mp new)) same
      obtain ⟨other, inside, number, recorded⟩ :=
        induction (fun other inside => within other (List.mem_append_left _ inside))
          ptxdesc earlier
      rw [index_eq, index_eq] at number
      rw [index_eq] at recorded
      exact ⟨other, List.mem_append_left _ inside, number, by rw [if_neg same]; exact recorded⟩

end Record

private theorem recordedIn_congr {frames others : List TxDesc} {win : BaWindow}
    {first second : TxDesc}
    (same : frames.map TxDesc.member = others.map TxDesc.member)
    (number : first.seqnum = second.seqnum) (recorded : RecordedIn frames win first) :
    RecordedIn others win second := by
  obtain ⟨other, found, index, slot⟩ := recorded
  have member : other.member ∈ others.map TxDesc.member := by
    rw [← same]
    exact List.mem_map_of_mem found
  obtain ⟨twin, inside, equal⟩ := List.mem_map.mp member
  have seqnum : twin.seqnum = other.seqnum := congrArg Member.seqnum equal
  have id : twin.id = other.id := congrArg Member.id equal
  exact ⟨twin, inside, by rw [seqnum, index, number], by rw [id, ← number, slot]⟩

/-- Of an identifier that any run has reached, with any queue: every frame of the aggregate lies
inside the window and is recorded exactly when the builder reaches no frame that lies `baw_size`
ahead of `seq_start`. -/
theorem ampdu_inWindow_iff (env : TxEnv) (tidIndex : Nat) (tid : TxTid) (queue : List TxDesc)
    (reachable : Machine.Reaches txStep (drvTxlistInitForSta tidIndex) tid) :
    (∀ ptxdesc ∈ (drvTxampduBuild env { tid with txdsQueue := queue }).frames,
        InWindow tid.win ptxdesc.seqnum ∧
          RecordedIn (drvTxampduBuild env { tid with txdsQueue := queue }).frames
            (drvTxampduBuild env { tid with txdsQueue := queue }).tid.win ptxdesc) ↔
      ∀ before ptxdesc, Reached env { tid with txdsQueue := queue } before ptxdesc →
        tid.win.index ptxdesc.seqnum ≠ tid.win.bawSize := by
  obtain ⟨-, small⟩ := reachable.invariant txStep_sized (drvTxlistInitForSta_sized tidIndex)
  obtain ⟨taken, rest, result⟩ := drvTxampduBuild_result env { tid with txdsQueue := queue }
  obtain ⟨sampleRate, scoreboard⟩ := result.scoreboard
  have frame_of : ∀ ptxdesc ∈ taken,
      ∃ sent ∈ (drvTxampduBuild env { tid with txdsQueue := queue }).frames,
        sent.seqnum = ptxdesc.seqnum := by
    intro ptxdesc found
    have member : ptxdesc.member ∈
        (drvTxampduBuild env { tid with txdsQueue := queue }).frames.map TxDesc.member := by
      rw [result.frames]
      exact List.mem_map_of_mem found
    obtain ⟨sent, inside, equal⟩ := List.mem_map.mp member
    exact ⟨sent, inside, congrArg Member.seqnum equal⟩
  constructor
  · intro tracked before ptxdesc reached edge
    have inside := (result.complete before ptxdesc reached).subset
      (List.mem_append_right before (List.mem_singleton_self ptxdesc))
    obtain ⟨sent, found, seqnum⟩ := frame_of ptxdesc inside
    have below : tid.win.index sent.seqnum < tid.win.bawSize := (tracked sent found).1
    rw [seqnum] at below
    omega
  · intro clear
    have within : ∀ ptxdesc ∈ taken, tid.win.index ptxdesc.seqnum < tid.win.bawSize := by
      intro ptxdesc found
      obtain ⟨before, after, split_eq⟩ := List.append_of_mem found
      have reached := result.reached before ptxdesc after split_eq
      have edge := clear before ptxdesc reached
      have inside : tid.win.index ptxdesc.seqnum ≤ tid.win.bawSize :=
        (reached.2.2 before ptxdesc [] rfl).1
      omega
    intro sent found
    have member : sent.member ∈ taken.map TxDesc.member := by
      rw [← result.frames]
      exact List.mem_map_of_mem found
    obtain ⟨ptxdesc, inside, equal⟩ := List.mem_map.mp member
    have seqnum : ptxdesc.seqnum = sent.seqnum := congrArg Member.seqnum equal
    refine ⟨?_, ?_⟩
    · rw [InWindow, ← seqnum]
      exact within ptxdesc inside
    · rw [scoreboard]
      exact recordedIn_congr result.frames.symm seqnum
        (recordAll_recorded small within ptxdesc inside)

/-- A frame at the start of the window is sent inside it and recorded. -/
theorem ampdu_inWindow_iff_single :
    (drvTxampduBuild (plainTxEnv 1)
        { Machine.run txStep (drvTxlistInitForSta 0) agreement with
          txdsQueue := [(dataRequest 1 true).desc] }).frames.map TxDesc.seqnum = [0] ∧
    ∀ ptxdesc ∈ (drvTxampduBuild (plainTxEnv 1)
        { Machine.run txStep (drvTxlistInitForSta 0) agreement with
          txdsQueue := [(dataRequest 1 true).desc] }).frames,
      InWindow (Machine.run txStep (drvTxlistInitForSta 0) agreement).win ptxdesc.seqnum ∧
        RecordedIn (drvTxampduBuild (plainTxEnv 1)
            { Machine.run txStep (drvTxlistInitForSta 0) agreement with
              txdsQueue := [(dataRequest 1 true).desc] }).frames
          (drvTxampduBuild (plainTxEnv 1)
            { Machine.run txStep (drvTxlistInitForSta 0) agreement with
              txdsQueue := [(dataRequest 1 true).desc] }).tid.win ptxdesc := by
  refine ⟨by decide +kernel,
    (ampdu_inWindow_iff (plainTxEnv 1) 0 _ _ ⟨agreement, rfl⟩).mpr ?_⟩
  intro before ptxdesc reached
  rw [(reached_single rfl reached).2]
  decide

/-- Number 0 waits in the queue, seven frames outside the aggregates take the numbers up to 7, and
number 8 joins the queue while the identifier is paused. -/
def gapEvents : List (TxEnv × TxEvent) :=
  agreement ++ [(plainTxEnv 2, .send (roomyHal true) (dataRequest 1 true))] ++
    (List.range 7).map
      (fun count => (plainTxEnv 2, .send (roomyHal true) (dataRequest (count + 2) false))) ++
    [(plainTxEnv 2, .pause), (plainTxEnv 2, .send (roomyHal true) (dataRequest 9 true))]

/-- Number 8 is sent in a window of eight numbers from 0 on. -/
theorem ampdu_leavesWindow :
    ¬ ∀ (env : TxEnv) (tidIndex : Nat) (tid : TxTid) (queue : List TxDesc),
      Machine.Reaches txStep (drvTxlistInitForSta tidIndex) tid →
      ∀ ptxdesc ∈ (drvTxampduBuild env { tid with txdsQueue := queue }).frames,
        InWindow tid.win ptxdesc.seqnum ∧
          RecordedIn (drvTxampduBuild env { tid with txdsQueue := queue }).frames
            (drvTxampduBuild env { tid with txdsQueue := queue }).tid.win ptxdesc := by
  intro inWindow
  obtain ⟨tid, reached⟩ : ∃ tid, Machine.run txStep (drvTxlistInitForSta 0) gapEvents = tid :=
    ⟨_, rfl⟩
  have numbers : (drvTxampduBuild (plainTxEnv 2)
      { tid with txdsQueue := tid.txdsQueue }).frames.map TxDesc.seqnum = [0, 8] := by
    rw [← reached]
    decide +kernel
  have outside : ¬ InWindow tid.win 8 := by
    rw [← reached]
    decide +kernel
  have sent : 8 ∈ (drvTxampduBuild (plainTxEnv 2)
      { tid with txdsQueue := tid.txdsQueue }).frames.map TxDesc.seqnum := by
    rw [numbers]
    decide
  obtain ⟨ptxdesc, found, seqnum⟩ := List.mem_map.mp sent
  have inside := (inWindow (plainTxEnv 2) 0 tid tid.txdsQueue ⟨gapEvents, reached⟩ ptxdesc found).1
  rw [seqnum] at inside
  exact outside inside

end W522a.Tx
