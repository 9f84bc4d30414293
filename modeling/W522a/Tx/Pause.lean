import W522a.Tx.Session

/-!
The pauses of one identifier, as those who ask for them see them. A ledger is kept beside the
identifier: who has a pause that was neither given back nor overwritten by a teardown.
-/

namespace W522a.Tx

/-- Who paused the identifier: a call of `drv_nsta_update_pwrsave`, which gives its pause back with
a later call, or `drv_tid_cleanup`. -/
inductive PauseOwner where
  | pwrsave (call : Nat)
  | cleanup
  deriving DecidableEq, Repr

/-- What happens to an identifier. `resume call` gives back the pause of that call; `quarantine` is
`drv_txba_quarantine` for a failure seen elsewhere. -/
inductive PauseEvent where
  | pause (call : Nat)
  | resume (call : Nat) (hal : Nat → HalTurn)
  | requestTimer
  | quarantine (code : TxbaFault)
  | addbaClear
  | drain
  | cleanup
  | ampduDel
  | reqSetup
  | rspProcess (hal : Nat → HalTurn) (rsp : AddbaRsp)
  | send (hal : Nat → HalTurn) (request : TxRequest)
  | task (hal : Nat → HalTurn)
  | complete (index : Nat) (txok : Bool)
  | completeNormal (index : Nat) (txok : Bool)

/-- `drv_txlist_resume_for_sta` of one identifier. -/
def drvTxlistResumeForSta (env : TxEnv) (hal : Nat → HalTurn) (tid : TxTid) : TxTid :=
  if tid.addbaExchangecomplete then drvTxlistResumeForStaTid env hal tid
  else drvTxlistFlushForStaTid env tid

def pauseTid (env : TxEnv) (event : PauseEvent) (tid : TxTid) : TxTid :=
  match event with
  | .pause _ => drvTxlistPauseForStaTid tid
  | .resume _ hal => drvTxlistResumeForSta env hal tid
  | .requestTimer => drvAddbaTimer env tid
  | .quarantine code => drvTxbaQuarantine env code tid
  | .addbaClear => drvAddbaClear tid
  | .drain => drvTidDrain env tid
  | .cleanup => drvTxlistCleanupForSta env tid
  | .ampduDel => drvTxampduDel env tid
  | .reqSetup => drvAddbaReqSetup env tid
  | .rspProcess hal rsp => drvAddbaRspProcess env hal rsp tid
  | .send hal request => drvSend env hal request tid
  | .task hal => drvTxlistTask env hal tid
  | .complete index txok => completeAt env index txok tid
  | .completeNormal index txok => completeNormalAt env index txok tid

/-- A completion is one failure of the firmware too many: `drv_tx_complete` calls for quarantine. -/
def fwGivesUp (env : TxEnv) (ptxdesc : TxDesc) (txok : Bool) (tid : TxTid) : Bool :=
  drvTidIsHostap env && ptxdesc.bAmpdu && ptxdesc.attached && !txok &&
    decide (apTxbaFwFailThreshold ≤ min (tid.txbaFwFailCnt + 1) 255)

/-- One of the frames of a list, completed without success, is a failure too many. -/
def listGivesUp (env : TxEnv) : List TxDesc → TxTid → Bool
  | [], _ => false
  | ptxdesc :: rest, tid =>
    fwGivesUp env ptxdesc false tid || listGivesUp env rest (drvTxComplete env ptxdesc false tid)

/-- The same of the frames that `drv_tid_swq_cleanup` completes. -/
def swqGivesUp (env : TxEnv) (tid : TxTid) : Bool :=
  listGivesUp env tid.txdsQueue
    { tid with
      txdsQueue := []
      txdsPendingCnt := tid.txdsPendingCnt - tid.txdsQueue.length }

/-- The same of the completion of a frame that the hardware has. -/
def completionGivesUp (env : TxEnv) (index : Nat) (txok : Bool) (tid : TxTid) : Bool :=
  match tid.inHal[index]? with
  | none => false
  | some ptxdesc => !(ptxdesc.bTcp && !txok) && fwGivesUp env ptxdesc txok tid

/-- The frame goes to the queue of an access point that holds too many: `drv_tx_send_ampdu` calls
for quarantine. -/
def sendGivesUp (env : TxEnv) (request : TxRequest) (tid : TxTid) : Bool :=
  (drvTxPrepare request tid).1.bAmpdu && drvTidIsHostap env &&
    decide (apAmpduPendingLimit ≤ tid.txdsPendingCnt)

/-- The event overwrites the counter of a paused identifier with zero. The scheduler may do so as
well, but it only runs for one that is not paused. -/
def cancels (env : TxEnv) (event : PauseEvent) (tid : TxTid) : Bool :=
  match event with
  | .requestTimer => tid.addbaExchangeinprogress
  | .quarantine _ => true
  | .addbaClear => tid.addbaExchangecomplete
  | .drain => swqGivesUp env tid
  | .rspProcess _ rsp => rsp.statuscode != wifinetStatusSuccess
  | .send _ request => sendGivesUp env request tid
  | .complete index txok => completionGivesUp env index txok tid
  | _ => false

/-- The end that `drv_txlist_cleanup_for_sta` puts to the waiting and to the request of an
identifier; `paused` has eight bits. -/
def endRequest (tid : TxTid) : TxTid :=
  let tid := { tid with bWork := false }
  if tid.addbaExchangeinprogress then
    { tid with
      addbaExchangeinprogress := false
      addbaTimerActive := false
      paused := (tid.paused + 255) % 256 }
  else tid

theorem drvTxlistCleanupForSta_eq (env : TxEnv) (tid : TxTid) :
    drvTxlistCleanupForSta env tid =
      if !tid.bWork then tid else drvTidCleanup env (endRequest tid) := rfl

/-- The cleanup pauses the identifier until its window is empty. -/
def cleanupPauses (tid : TxTid) : Bool :=
  !tid.cleanupInprogress && tid.win.bawHead != tid.win.bawTail

def cleanupLedger (env : TxEnv) (tid : TxTid) (outstanding : List PauseOwner) :
    List PauseOwner :=
  let outstanding := if swqGivesUp env (endRequest tid) then [] else outstanding
  if cleanupPauses tid then
    .cleanup :: if drvTidIsHostap env then [] else outstanding
  else outstanding

def pauseLedger (env : TxEnv) (event : PauseEvent) (tid : TxTid) (outstanding : List PauseOwner) :
    List PauseOwner :=
  match event with
  | .pause call => .pwrsave call :: outstanding
  | .resume call _ => outstanding.erase (.pwrsave call)
  | .cleanup => if tid.bWork then cleanupLedger env tid outstanding else outstanding
  | event => if cancels env event tid then [] else outstanding

/-- An identifier with its ledger. -/
structure PauseState where
  tid : TxTid
  outstanding : List PauseOwner

def pauseStep (state : PauseState) (moment : TxEnv × PauseEvent) : PauseState where
  tid := pauseTid moment.1 moment.2 state.tid
  outstanding := pauseLedger moment.1 moment.2 state.tid state.outstanding

def pauseStart (tidIndex : Nat) : PauseState := ⟨drvTxlistInitForSta tidIndex, []⟩

/-- `drv_txlist_cleanup_for_sta` decrements a counter that is zero. -/
def PauseWraps (state : PauseState) (event : PauseEvent) : Prop :=
  event = .cleanup ∧ state.tid.bWork = true ∧ state.tid.addbaExchangeinprogress = true ∧
    state.tid.paused = 0

/-- What a step is meant to do to the pauses: the counter is the number of those outstanding, it
does not wrap, and who gives back a pause that is not outstanding takes no other away. -/
structure PauseBalance (state : PauseState) (moment : TxEnv × PauseEvent) : Prop where
  balanced : (pauseStep state moment).tid.paused = (pauseStep state moment).outstanding.length
  unwrapped : ¬ PauseWraps state moment.2
  own : ∀ call hal, moment.2 = .resume call hal → .pwrsave call ∉ state.outstanding →
    (pauseStep state moment).tid.paused = state.tid.paused

/-- A cleanup ends no request, unless it overwrites the counter afterwards, and finds room for the
pause it adds. -/
def CleanupOk (env : TxEnv) (tid : TxTid) : Prop :=
  (tid.addbaExchangeinprogress = true → tid.paused ≠ 0 ∧
    (swqGivesUp env (endRequest tid) = true ∨
      cleanupPauses tid = true ∧ drvTidIsHostap env = true)) ∧
  (cleanupPauses tid = true → drvTidIsHostap env = false → tid.paused < 255)

/-- The steps that keep the pauses in order. -/
def PauseOk (state : PauseState) (moment : TxEnv × PauseEvent) : Prop :=
  let tid := state.tid
  match moment.2 with
  | .pause _ => tid.paused < 255
  | .resume call _ => .pwrsave call ∈ state.outstanding ∨ tid.paused = 0
  | .rspProcess _ rsp =>
    rsp.statuscode = wifinetStatusSuccess → tid.addbaExchangeinprogress = true → tid.paused = 0
  | .cleanup => tid.bWork = true → CleanupOk moment.1 tid
  | .ampduDel =>
    tid.cleanupInprogress = false → tid.addbaExchangecomplete = true → tid.paused < 255
  | _ => True

end W522a.Tx
