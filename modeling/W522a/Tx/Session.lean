import W522a.Tx.Exchange
import W522a.Tx.Track
import W522a.Lib.Run

/-!
One identifier over whole runs: what may happen to it, the law its scoreboard is meant to keep,
and the steps that are safe for it.
-/

namespace W522a.Tx

/-- What happens to an identifier. `shared` is what other identifiers leave in the fields that all
of a list share. -/
inductive TxEvent where
  | send (hal : Nat → HalTurn) (request : TxRequest)
  | task (hal : Nat → HalTurn)
  | complete (index : Nat) (txok : Bool)
  | completeNormal (index : Nat) (txok : Bool)
  | reqSetup
  | rspProcess (hal : Nat → HalTurn) (rsp : AddbaRsp)
  | requestTimer
  | pause
  | resume (hal : Nat → HalTurn)
  | flush
  | flushfree
  | cleanup
  | ampduDel
  | addbaClear
  | shared (txdsPendingCnt : Nat) (waitMpduTimeout : Bool) (sampleRate : RateInfo)

/-- A completion of the frame at a place of `inHal`. -/
def completeAt (env : TxEnv) (index : Nat) (txok : Bool) (tid : TxTid) : TxTid :=
  match tid.inHal[index]? with
  | none => tid
  | some ptxdesc =>
    drvTxCompleteTask env ptxdesc txok { tid with inHal := tid.inHal.eraseIdx index }

/-- A completion of the frame at a place of `normal`. -/
def completeNormalAt (env : TxEnv) (index : Nat) (txok : Bool) (tid : TxTid) : TxTid :=
  match tid.normal[index]? with
  | none => tid
  | some ptxdesc =>
    drvTxCompleteTask env ptxdesc.1 txok { tid with normal := tid.normal.eraseIdx index }

/-- One event, under the configuration, the station and the time of its moment. -/
def txStep (tid : TxTid) (moment : TxEnv × TxEvent) : TxTid :=
  let env := moment.1
  match moment.2 with
  | .send hal request => drvSend env hal request tid
  | .task hal => drvTxlistTask env hal tid
  | .complete index txok => completeAt env index txok tid
  | .completeNormal index txok => completeNormalAt env index txok tid
  | .reqSetup => drvAddbaReqSetup env tid
  | .rspProcess hal rsp => drvAddbaRspProcess env hal rsp tid
  | .requestTimer => drvAddbaTimer env tid
  | .pause => drvTxlistPauseForStaTid tid
  | .resume hal => drvTxlistResumeForStaTid env hal tid
  | .flush => drvTxlistFlushForStaTid env tid
  | .flushfree => { drvTxlistFreeAllByVid env tid with txdsPendingCnt := 0 }
  | .cleanup => drvTxlistCleanupForSta env tid
  | .ampduDel => drvTxampduDel env tid
  | .addbaClear => drvAddbaClear tid
  | .shared txdsPendingCnt waitMpduTimeout sampleRate =>
    { tid with
      txdsPendingCnt := txdsPendingCnt
      waitMpduTimeout := waitMpduTimeout
      sampleRate := sampleRate }

/-- `drv_txlist_init_for_sta`, on a zeroed station. -/
def drvTxlistInitForSta (tidIndex : Nat) : TxTid where
  tidIndex := tidIndex
  win := ⟨wmeMaxBa, 0, 0, 0, 0, 0, fun _ => none⟩
  txdsQueue := []
  bWork := false
  paused := 0
  cleanupInprogress := false
  addbaExchangeinprogress := false
  addbaExchangeattempts := 0
  addbaExchangecomplete := false
  addbaAmsdusupported := false
  addbaExchangestatuscode := wifinetStatusUnspecified
  addbaFailures := 0
  addbaTimerActive := false
  txbaFaultCode := .none
  txbaFwFailCnt := 0
  txbaDisabledUntil := 0
  txdsPendingCnt := 0
  waitMpduTimeout := false
  sampleRate := noRate
  inHal := []
  normal := []
  retransmitQueue := []
  completed := []

def aggregated (inHal : List TxDesc) : List Member :=
  (inHal.map TxDesc.member).filter (·.bAmpdu)

def queued (tid : TxTid) : List Member := tid.txdsQueue.map TxDesc.member

/-- The law of the scoreboard. A slot is occupied exactly when an aggregate member with its number
is in flight, the slots stand for the numbers from `seq_start` on, the window never spans more than
`baw_size`, lies within the numbers given out, and is empty once no member is in flight. -/
structure ScoreboardLaw (tid : TxTid) : Prop where
  occupied : ∀ offset, offset < drvTidMaxBufs → ∀ id, tid.win.slotAt offset = some id →
    ∃ ptxdesc ∈ tid.inHal, ptxdesc.bAmpdu = true ∧ ptxdesc.id = id ∧
      ptxdesc.seqnum = (tid.win.seqStart + offset) % wifinetSeqMax
  tracked : ∀ ptxdesc ∈ tid.inHal, ptxdesc.bAmpdu = true → ∃ offset, offset < tid.win.span ∧
    ptxdesc.seqnum = (tid.win.seqStart + offset) % wifinetSeqMax ∧
    tid.win.slotAt offset = some ptxdesc.id
  bounded : tid.win.span ≤ tid.win.bawSize
  ordered : tid.win.span ≤ drvBaIndex tid.win.seqStart tid.win.seqNext
  reopened : (∀ ptxdesc ∈ tid.inHal, ptxdesc.bAmpdu = false) → tid.win.bawHead = tid.win.bawTail

/-- How many numbers were given out since that of a frame. -/
def BaWindow.age (win : BaWindow) (member : Member) : Nat := drvBaIndex member.seqnum win.seqNext

/-- The numbers of the frames queued and in flight are all recent enough to give out another. -/
def Recent (tid : TxTid) : Prop :=
  ∀ member ∈ aggregated tid.inHal ++ queued tid, tid.win.age member < 4096 - wmeBaBmpSize

/-- The frame of a request takes its number from `seq_next`. -/
def UsesSeqNext (request : TxRequest) (tid : TxTid) : Prop :=
  ¬ (request.special ∨ request.desc.bNulldata) ∧
    if request.aggregable ∧ !tid.cleanupInprogress ∧ tid.addbaExchangecomplete then
      request.txfrag = false
    else request.vhtRate = true

/-- The aggregate that a turn of the scheduler builds keeps to what the scoreboard records: no
frame it reaches lies exactly `baw_size` ahead, it has no more frames than `tx_aggr_status`, a
single frame stays an aggregate member, and the HAL takes it. -/
structure TurnOk (env : TxEnv) (hal : HalTurn) (tid : TxTid) : Prop where
  within : ∀ before ptxdesc, Reached env tid before ptxdesc →
    tid.win.index ptxdesc.seqnum ≠ tid.win.bawSize
  short : ∀ before ptxdesc, Reached env tid before ptxdesc → before.length < txAggrStatusLen
  paired : env.cfgAmpduOneframe = true ∨
    ∀ first, Reached env tid [] first → ∃ second, Reached env tid [first] second
  accepted : ∀ before ptxdesc, Reached env tid before ptxdesc → hal.accepts = true

/-- Every turn of the scheduler's loop that builds an aggregate is safe. -/
def LoopOk (env : TxEnv) (hal : Nat → HalTurn) : Nat → Nat → TxTid → Prop
  | 0, _, _ => True
  | fuel + 1, turn, tid =>
    (schedDue env (hal turn) tid = true → tid.txdsQueue ≠ [] → (hal turn).bufferFull = false →
      TurnOk env (hal turn) tid) ∧
    ((schedTurn env (hal turn) tid).2 = true →
      LoopOk env hal fuel (turn + 1) (schedTurn env (hal turn) tid).1)

/-- The scheduler's turns are safe, if it gets to run. -/
def TaskOk (env : TxEnv) (hal : Nat → HalTurn) (tid : TxTid) : Prop :=
  tid.bWork = true → tid.paused = 0 → env.motherChannel = true →
    LoopOk env hal (tid.txdsQueue.length + 1) 0 { tid with bWork := false }

/-- The same for a call of `drv_txlist_task` that may not be made. -/
def RunOk (env : TxEnv) (hal : Nat → HalTurn) (entry : TxTid × Bool) : Prop :=
  entry.2 = true → TaskOk env hal entry.1

/-- The steps that are safe for the scoreboard. -/
def TxOk (tid : TxTid) (moment : TxEnv × TxEvent) : Prop :=
  let env := moment.1
  match moment.2 with
  | .send hal request =>
    (UsesSeqNext request tid → Recent tid) ∧
      (¬ UsesSeqNext request tid → request.desc.bAmpdu = false) ∧
      ((drvTxPrepare request tid).1.bAmpdu = true →
        RunOk env hal
          (enqueueAmpdu env (drvTxPrepare request tid).1 (drvTxPrepare request tid).2))
  | .task hal => TaskOk env hal tid
  | .complete index _ =>
    ∀ ptxdesc, tid.inHal[index]? = some ptxdesc → ptxdesc.bAmpdu = true → env.sta.isSome = true
  | .reqSetup => (drvTxbaQuarantined env tid).1 = true ∨ tid.win.bawHead = tid.win.bawTail
  | .rspProcess hal rsp =>
    rsp.statuscode = wifinetStatusSuccess →
      tid.win.span ≤ clampT rsp.buffersize 1 wmeBaBmpSize ∧
        (tid.addbaExchangeinprogress = true → env.sta.isSome = true →
          RunOk env hal (unpause (acceptRsp env rsp (answerRequest rsp tid))))
  | .resume hal => RunOk env hal (unpause tid)
  | .flushfree => ∀ ptxdesc ∈ tid.inHal, ptxdesc.bAmpdu = false
  | _ => True

end W522a.Tx
