import W522a.Tx.Build

/-!
The functions that move the frames of one identifier: the number a frame is given, the way into
the queue, the scheduler, the completion, and the block-ack exchange with its pauses, flushes and
cleanups.
-/

namespace W522a.Tx

/-- What `drv_tx_prepare` is given: the descriptor, which may carry the flags of an earlier
transmission, and what is known of its packet. `special` are multicast frames, EAP, DHCP and ARP;
`aggregable` is the test of the rate, of the configuration and of the packet flags; `txSeq` is
the number of `sta_txseqs`. -/
structure TxRequest where
  desc : TxDesc
  special : Bool
  aggregable : Bool
  txfrag : Bool
  vhtRate : Bool
  txSeq : Nat

/-- Give a frame the next number of its identifier. -/
def takeSeqNext (ptxdesc : TxDesc) (tid : TxTid) : TxDesc × TxTid :=
  ({ ptxdesc with seqnum := tid.win.seqNext },
    { tid with win := { tid.win with seqNext := circleAddOne tid.win.seqNext wifinetSeqMax } })

/-- `drv_tx_prepare` of a data frame, with what `drv_send` writes to the descriptor. -/
def drvTxPrepare (request : TxRequest) (tid : TxTid) : TxDesc × TxTid :=
  let ptxdesc := { request.desc with
    rateValid := true
    attached := true
    agglen := request.desc.packetlen
    aggrPageNum := halCalcMpduPage request.desc.mpdulen
    pktnum := 1 }
  let other := if request.txfrag then ptxdesc else { ptxdesc with seqnum := request.txSeq }
  if request.special ∨ ptxdesc.bNulldata then (other, tid)
  else if request.aggregable ∧ !tid.cleanupInprogress ∧ tid.addbaExchangecomplete then
    if request.txfrag then (ptxdesc, tid) else takeSeqNext { ptxdesc with bAmpdu := true } tid
  else if request.vhtRate then takeSeqNext ptxdesc tid
  else (other, tid)

def drvTxNormal (ptxdesc : TxDesc) (tid : TxTid) : TxTid :=
  { tid with normal := tid.normal ++ [⟨{ ptxdesc with bAmpdu := false, pktnum := 1 }, rfl⟩] }

def drvTxQueueTid (tid : TxTid) : TxTid :=
  if tid.paused ≠ 0 then tid else { tid with bWork := true }

@[simp] abbrev hiAggTxdNumPerQueue : Nat := 80

/-- The length of `tx_aggr_status`. -/
@[simp] abbrev txAggrStatusLen : Nat := 16

/-- What one turn of the scheduler sees of the HAL: the count of private descriptors, whether the
buffer is full, and whether `drv_to_hal` takes the aggregate. -/
structure HalTurn where
  privCnt : Nat
  bufferFull : Bool
  accepts : Bool

/-- `drv_to_hal` in the scheduler, which gives up the agreement when it is refused. -/
def sendToHal (env : TxEnv) (accepts : Bool) (txQueue : List TxDesc) (tid : TxTid) : TxTid :=
  if accepts then { tid with inHal := tid.inHal ++ txQueue }
  else drvTxCompleteList env txQueue false (drvTxbaQuarantine env .halTxFail tid)

/-- The single frame of an aggregate of one. -/
def soleFrame (env : TxEnv) (ptxdesc : TxDesc) : TxDesc :=
  let ptxdesc := { ptxdesc with b11n := true, bAggr := false }
  if env.cfgAmpduOneframe then ptxdesc
  else
    { ptxdesc with
      agglen := ptxdesc.packetlen
      aggrPageNum := halCalcMpduPage ptxdesc.mpdulen
      bAmpdu := false }

/-- A turn of the scheduler once `drv_txampdu_build` has filled `tx_queue`, and whether the loop
goes on. -/
def dispatchAmpdu (env : TxEnv) (accepts : Bool) (ptxdesc : TxDesc) (rest : List TxDesc)
    (tid : TxTid) : TxTid × Bool :=
  if ptxdesc.pktnum = 0 ∨ txAggrStatusLen < ptxdesc.pktnum then
    (drvTxCompleteList env (ptxdesc :: rest) false tid, false)
  else
    let tid := { tid with waitMpduTimeout := false }
    if ptxdesc.pktnum = 1 then
      if rest ≠ [] then (drvTxCompleteList env (ptxdesc :: rest) false tid, false)
      else (sendToHal env accepts [soleFrame env ptxdesc] tid, false)
    else
      (sendToHal env accepts ({ ptxdesc with b11n := true, bAggr := true } :: rest) tid, accepts)

/-- Whether the scheduler has waited long enough for the next aggregate. -/
def schedDue (env : TxEnv) (hal : HalTurn) (tid : TxTid) : Bool :=
  let target := drvTxAmpduWaitTarget env (ampduSubframes env tid.win.bawSize)
  target ≤ tid.txdsPendingCnt ||
    (tid.waitMpduTimeout && decide ((hiAggTxdNumPerQueue : Int) - hal.privCnt < target))

/-- One turn of the loop of `drv_tx_sched_aggr`, and whether the loop goes on. -/
def schedTurn (env : TxEnv) (hal : HalTurn) (tid : TxTid) : TxTid × Bool :=
  if !schedDue env hal tid then ({ tid with waitMpduTimeout := false }, false)
  else if tid.txdsQueue = [] ∨ hal.bufferFull then (tid, false)
  else
    let ampdu := drvTxampduBuild env tid
    match ampdu.frames with
    | [] => (ampdu.tid, false)
    | ptxdesc :: rest => dispatchAmpdu env hal.accepts ptxdesc rest ampdu.tid

/-- The loop of `drv_tx_sched_aggr`, for at most `fuel` turns; the queue bounds them. -/
def schedLoop (env : TxEnv) (hal : Nat → HalTurn) : Nat → Nat → TxTid → TxTid
  | 0, _, tid => tid
  | fuel + 1, turn, tid =>
    let (tid, more) := schedTurn env (hal turn) tid
    if more then schedLoop env hal fuel (turn + 1) tid else tid

def drvTxSchedAggr (env : TxEnv) (hal : Nat → HalTurn) (tid : TxTid) : TxTid :=
  if !env.motherChannel then tid else schedLoop env hal (tid.txdsQueue.length + 1) 0 tid

/-- `drv_txlist_task`, when the identifier is the first of its access category. -/
def drvTxlistTask (env : TxEnv) (hal : Nat → HalTurn) (tid : TxTid) : TxTid :=
  if !tid.bWork then tid
  else
    let tid := { tid with bWork := false }
    if tid.paused ≠ 0 then tid
    else
      let tid := drvTxSchedAggr env hal tid
      if tid.txdsQueue ≠ [] then drvTxQueueTid tid else tid

/-- A state, handed to `drv_txlist_task` when the flag says so. -/
def runTask (env : TxEnv) (hal : Nat → HalTurn) (entry : TxTid × Bool) : TxTid :=
  if entry.2 then drvTxlistTask env hal entry.1 else entry.1

/-- `drv_tx_send_ampdu` up to its call of `drv_txlist_task`, and whether it makes the call. -/
def enqueueAmpdu (env : TxEnv) (ptxdesc : TxDesc) (tid : TxTid) : TxTid × Bool :=
  if drvTidIsHostap env ∧ apAmpduPendingLimit ≤ tid.txdsPendingCnt then
    (drvTxNormal ptxdesc (drvTxbaQuarantine env .pendingFuse tid), false)
  else
    let tid := drvTxQueueTid { tid with txdsQueue := tid.txdsQueue ++ [ptxdesc] }
    let target := drvTxAmpduWaitTarget env (ampduSubframes env tid.win.bawSize)
    let tid := { tid with txdsPendingCnt := tid.txdsPendingCnt + 1 }
    (tid, target ≤ tid.txdsPendingCnt || tid.waitMpduTimeout)

def drvTxSendAmpdu (env : TxEnv) (hal : Nat → HalTurn) (ptxdesc : TxDesc) (tid : TxTid) : TxTid :=
  runTask env hal (enqueueAmpdu env ptxdesc tid)

/-- `drv_send` of a unicast data frame. -/
def drvSend (env : TxEnv) (hal : Nat → HalTurn) (request : TxRequest) (tid : TxTid) : TxTid :=
  let (ptxdesc, tid) := drvTxPrepare request tid
  if ptxdesc.bAmpdu then drvTxSendAmpdu env hal ptxdesc tid else drvTxNormal ptxdesc tid

/-- The fields that end an exchange once nothing of it is in flight. -/
def clearExchange (tid : TxTid) : TxTid :=
  { tid with
    addbaExchangecomplete := false
    addbaExchangeattempts := 0
    addbaExchangestatuscode := wifinetStatusUnspecified }

/-- The scoreboard part of `drv_tx_complete_task`. -/
def noteCompletion (ptxdesc : TxDesc) (tid : TxTid) : TxTid :=
  if !ptxdesc.bNulldata ∧ ptxdesc.bAmpdu then
    let tid := { tid with win := drvTxUpdateBaWin ptxdesc.seqnum tid.win }
    if tid.cleanupInprogress ∧ tid.win.bawHead = tid.win.bawTail then
      { clearExchange tid with cleanupInprogress := false }
    else tid
  else tid

/-- `drv_tx_irq_tasklet` with `drv_tx_complete_task`, for a frame taken off its list. -/
def drvTxCompleteTask (env : TxEnv) (ptxdesc : TxDesc) (txok : Bool) (tid : TxTid) : TxTid :=
  if !ptxdesc.attached ∨ env.sta.isNone then drvTxComplete env ptxdesc false tid
  else
    let tid := noteCompletion ptxdesc tid
    if ptxdesc.bTcp ∧ !txok then
      { tid with retransmitQueue := tid.retransmitQueue ++ [{ ptxdesc with rateValid := false }] }
    else drvTxComplete env ptxdesc txok tid

def drvTxlistPauseForStaTid (tid : TxTid) : TxTid :=
  if tid.paused < 255 then { tid with paused := tid.paused + 1 } else tid

/-- `drv_txlist_resume_for_sta_tid` up to its call of `drv_txlist_task`, and whether it makes the
call. -/
def unpause (tid : TxTid) : TxTid × Bool :=
  if tid.paused = 0 then (tid, false)
  else
    let tid := { tid with paused := tid.paused - 1 }
    if tid.paused ≠ 0 ∨ tid.txdsQueue = [] then (tid, false) else (drvTxQueueTid tid, true)

def drvTxlistResumeForStaTid (env : TxEnv) (hal : Nat → HalTurn) (tid : TxTid) : TxTid :=
  runTask env hal (unpause tid)

/-- Whether the station's interface is connected. -/
def staConnected (env : TxEnv) : Bool :=
  match env.sta with
  | some sta => sta.connected
  | none => false

/-- One frame of `drv_txlist_flush_for_sta_tid`. -/
def flushFrame (env : TxEnv) (ptxdesc : TxDesc) (tid : TxTid) : TxTid :=
  let tid := { tid with txdsPendingCnt := tid.txdsPendingCnt - 1 }
  if staConnected env then drvTxNormal ptxdesc tid else drvTxComplete env ptxdesc false tid

def drvTxlistFlushForStaTid (env : TxEnv) (tid : TxTid) : TxTid :=
  let tid := { tid with paused := tid.paused - 1 }
  if tid.paused ≠ 0 then tid
  else
    tid.txdsQueue.foldl (fun tid ptxdesc => flushFrame env ptxdesc tid) { tid with txdsQueue := [] }

def drvTidSwqCleanup (env : TxEnv) (tid : TxTid) : TxTid :=
  drvTxCompleteList env tid.txdsQueue false
    { tid with
      txdsQueue := []
      txdsPendingCnt := tid.txdsPendingCnt - tid.txdsQueue.length }

def drvTidDrain (env : TxEnv) (tid : TxTid) : TxTid :=
  let tid := drvTidSwqCleanup env tid
  { tid with win := { tid.win with seqNext := tid.win.seqStart, bawTail := tid.win.bawHead } }

def drvTidCleanup (env : TxEnv) (tid : TxTid) : TxTid :=
  let tid := drvTidSwqCleanup env tid
  if tid.cleanupInprogress then tid
  else if tid.win.bawHead ≠ tid.win.bawTail then
    let tid := if drvTidIsHostap env then drvTxbaQuarantine env .cleanup tid else tid
    { tid with paused := min (tid.paused + 1) 255, cleanupInprogress := true }
  else clearExchange tid

/-- `drv_txlist_free_all_by_vid` with `drv_txlist_push_pending`: the frames of the hardware lose
their station, and a waiting identifier is drained. -/
def drvTxlistFreeAllByVid (env : TxEnv) (tid : TxTid) : TxTid :=
  let tid := { tid with
    inHal := tid.inHal.map TxDesc.orphan
    normal := tid.normal.map NormalDesc.orphan }
  if tid.bWork then drvTidDrain env { tid with bWork := false } else tid

/-- The part of `drv_txlist_cleanup_for_sta` for a waiting identifier; `paused` has eight bits. -/
def drvTxlistCleanupForSta (env : TxEnv) (tid : TxTid) : TxTid :=
  if !tid.bWork then tid
  else
    let tid := { tid with bWork := false }
    let tid :=
      if tid.addbaExchangeinprogress then
        { tid with
          addbaExchangeinprogress := false
          addbaTimerActive := false
          paused := (tid.paused + 255) % 256 }
      else tid
    drvTidCleanup env tid

def drvTxampduDel (env : TxEnv) (tid : TxTid) : TxTid :=
  if tid.cleanupInprogress then tid
  else if !tid.addbaExchangecomplete then
    { tid with
      addbaExchangeattempts := 0, addbaExchangestatuscode := wifinetStatusUnspecified }
  else
    let tid :=
      if tid.addbaExchangeinprogress then
        { tid with addbaExchangeinprogress := false, addbaTimerActive := false }
      else tid
    let tid := drvTxlistPauseForStaTid tid
    let tid :=
      if tid.win.bawHead ≠ tid.win.bawTail then { tid with cleanupInprogress := true }
      else clearExchange tid
    drvTxlistFlushForStaTid env tid

def drvAddbaClear (tid : TxTid) : TxTid :=
  let tid := { tid with
    addbaExchangeinprogress := false
    addbaFailures := 0
    txbaFaultCode := .none
    txbaDisabledUntil := 0 }
  if tid.addbaExchangecomplete then { clearExchange tid with paused := 0 } else tid

def drvAddbaReqSetup (env : TxEnv) (tid : TxTid) : TxTid :=
  match drvTxbaQuarantined env tid with
  | (true, tid) => { tid with addbaExchangestatuscode := wifinetStatusRefused }
  | (false, tid) =>
    let tid := { tid with win := { tid.win with seqStart := tid.win.seqNext } }
    if tid.addbaExchangeinprogress then tid
    else { tid with addbaExchangeinprogress := true, addbaTimerActive := true }

/-- What `drv_addba_rsp_process` reads of the response. -/
structure AddbaRsp where
  statuscode : Nat
  buffersize : Nat
  amsdusupported : Bool

def answerRequest (rsp : AddbaRsp) (tid : TxTid) : TxTid :=
  let tid :=
    if tid.addbaExchangeinprogress then
      { tid with addbaExchangeinprogress := false, addbaTimerActive := false }
    else tid
  { tid with addbaExchangestatuscode := rsp.statuscode % 256 }

/-- The agreement of a successful response. -/
def acceptRsp (env : TxEnv) (rsp : AddbaRsp) (tid : TxTid) : TxTid :=
  { tid with
    addbaExchangecomplete := true
    addbaFailures := 0
    txbaFaultCode := .none
    txbaDisabledUntil := 0
    win := { tid.win with bawSize := clampT rsp.buffersize 1 wmeBaBmpSize }
    addbaAmsdusupported := env.cfgTxamsdu && rsp.amsdusupported }

def drvAddbaRspProcess (env : TxEnv) (hal : Nat → HalTurn) (rsp : AddbaRsp) (tid : TxTid) :
    TxTid :=
  let resume := tid.addbaExchangeinprogress
  let tid := answerRequest rsp tid
  if rsp.statuscode = wifinetStatusSuccess then
    let tid := acceptRsp env rsp tid
    if !resume then tid
    else if env.sta.isSome then drvTxlistResumeForStaTid env hal tid
    else drvTxlistFlushForStaTid env tid
  else
    let tid := drvTxbaQuarantine env .addbaRefused tid
    if resume then drvTxlistFlushForStaTid env tid else tid

def drvAddbaTimer (env : TxEnv) (tid : TxTid) : TxTid :=
  let tid :=
    if tid.addbaExchangeinprogress then
      drvTxbaQuarantine env .addbaTimeout { tid with addbaExchangeinprogress := false }
    else tid
  { tid with addbaTimerActive := false }

end W522a.Tx
