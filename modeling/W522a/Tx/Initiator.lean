import W522a.Tx.Session

/-!
The initiator of block-ack agreements as the threads of the driver share it. A response is handled
in the receive thread and the request timer in the work thread; each looks at
`addba_exchangeinprogress` more than once, and the other threads may run in between.
-/

namespace W522a.Tx

/-- The part of `drv_addba_rsp_process` behind its compare-exchange. -/
def concludeRsp (env : TxEnv) (hal : Nat → HalTurn) (rsp : AddbaRsp) (resume : Bool)
    (tid : TxTid) : TxTid :=
  if rsp.statuscode = wifinetStatusSuccess then
    let tid := acceptRsp env rsp tid
    if !resume then tid
    else if env.sta.isSome then drvTxlistResumeForStaTid env hal tid
    else drvTxlistFlushForStaTid env tid
  else
    let tid := drvTxbaQuarantine env .addbaRefused tid
    if resume then drvTxlistFlushForStaTid env tid else tid

/-- The compare-exchange of `drv_addba_timer_ex`. -/
def expireRequest (tid : TxTid) : TxTid := { tid with addbaExchangeinprogress := false }

/-- The part of `drv_addba_timer_ex` behind its compare-exchange. -/
def concludeTimer (env : TxEnv) (expired : Bool) (tid : TxTid) : TxTid :=
  let tid := if expired then drvTxbaQuarantine env .addbaTimeout tid else tid
  { tid with addbaTimerActive := false }

/-- The length of a management header with `struct wifi_mac_action_ba_addbaresponse` behind it. -/
@[simp] abbrev addbaResponseLen : Nat := 24 + 9

/-- What the receive path reads of an ADDBA response; it does not look at the dialog token. -/
def readAddbaResponse (skb : SkBuff) : Option (Nat × AddbaRsp) :=
  if skb.data.length < addbaResponseLen then none
  else
    let baparamset := skb.le16 29
    some (baparamset / 4 % 16,
      { statuscode := skb.le16 27
        buffersize := baparamset / 64
        amsdusupported := baparamset % 2 = 1 })

/-- By what a request is ended. -/
inductive Ender where
  | response
  | timer
  | quarantine
  | clear
  deriving DecidableEq, Repr

/-- Where the receive thread stands in a response. `request` is the request that was in progress at
the check of the receive path, and `won` the one that the compare-exchange ended, if any. -/
inductive RxAt where
  | idle
  | admitted (index : Nat) (rsp : AddbaRsp) (request : Nat)
  | answered (index : Nat) (rsp : AddbaRsp) (request : Nat) (won : Option Nat)

/-- Where the work thread stands in `drv_addba_timer_ex`. -/
inductive WorkAt where
  | idle
  | exchanged (index : Nat) (expired : Bool)

/-- The identifiers of a station with the two threads. `items` are the timer's work items. The last
fields number the requests of an identifier and record how each of them was ended. -/
structure Initiator where
  tid : Nat → TxTid
  rx : RxAt
  work : WorkAt
  items : List Nat
  requests : Nat → Nat
  ended : Nat → List (Nat × Ender)

/-- Write an identifier back, and record what happened to its request. -/
def Initiator.put (ender : Ender) (index : Nat) (tid : TxTid) (side : Initiator) : Initiator :=
  let before := (side.tid index).addbaExchangeinprogress
  { side with
    tid := Function.update side.tid index tid
    requests :=
      if !before && tid.addbaExchangeinprogress then
        Function.update side.requests index (side.requests index + 1)
      else side.requests
    ended :=
      if before && !tid.addbaExchangeinprogress then
        Function.update side.ended index
          (side.ended index ++ [(side.requests index - 1, ender)])
      else side.ended }

/-- The ADDBA response branch of `wifi_mac_recv_action`, up to its call of
`drv_addba_rsp_process`. -/
def recvAddbaResponse (skb : SkBuff) (side : Initiator) : Initiator :=
  match side.rx, readAddbaResponse skb with
  | .idle, some (index, rsp) =>
    if wmeNumTid ≤ index then side
    else if !(side.tid index).addbaExchangeinprogress then side
    else { side with rx := .admitted index rsp (side.requests index - 1) }
  | _, _ => side

/-- The compare-exchange of `drv_addba_rsp_process`. -/
def exchangeRsp (side : Initiator) : Initiator :=
  match side.rx with
  | .admitted index rsp request =>
    let tid := side.tid index
    let won := if tid.addbaExchangeinprogress then some (side.requests index - 1) else none
    { side.put .response index (answerRequest rsp tid) with
      rx := .answered index rsp request won }
  | _ => side

/-- The rest of `drv_addba_rsp_process`. -/
def finishRsp (env : TxEnv) (hal : Nat → HalTurn) (side : Initiator) : Initiator :=
  match side.rx with
  | .answered index rsp _ won =>
    { side.put .quarantine index (concludeRsp env hal rsp won.isSome (side.tid index)) with
      rx := .idle }
  | _ => side

/-- `drv_addba_timer`: the timer fires and leaves a work item. -/
def fireTimer (index : Nat) (side : Initiator) : Initiator :=
  let tid := side.tid index
  if tid.addbaTimerActive then
    { side.put .timer index { tid with addbaTimerActive := false } with
      items := side.items ++ [index] }
  else side

/-- The work thread takes the next item up to its compare-exchange. -/
def exchangeTimer (side : Initiator) : Initiator :=
  match side.work, side.items with
  | .idle, index :: items =>
    let tid := side.tid index
    let expired := tid.addbaExchangeinprogress
    { side.put .timer index (if expired then expireRequest tid else tid) with
      work := .exchanged index expired
      items := items }
  | _, _ => side

/-- The rest of `drv_addba_timer_ex`. -/
def finishTimer (env : TxEnv) (side : Initiator) : Initiator :=
  match side.work with
  | .exchanged index expired =>
    { side.put .quarantine index (concludeTimer env expired (side.tid index)) with
      work := .idle }
  | _ => side

/-- `drv_addba_clear` over the identifiers of the station. -/
def clearAll (side : Initiator) : Initiator :=
  (List.range wmeNumTid).foldl
    (fun side index => side.put .clear index (drvAddbaClear (side.tid index))) side

inductive InitiatorEvent where
  | reqSetup (index : Nat)
  | receive (skb : SkBuff)
  | rspExchange
  | rspFinish (hal : Nat → HalTurn)
  | timerFires (index : Nat)
  | timerExchange
  | timerFinish
  | quarantine (index : Nat) (code : TxbaFault)
  | clear

/-- One event, under the configuration, the station and the time of its moment. -/
def initiatorStep (side : Initiator) (moment : TxEnv × InitiatorEvent) : Initiator :=
  let env := moment.1
  match moment.2 with
  | .reqSetup index =>
    if wmeNumTid ≤ index then side
    else side.put .quarantine index (drvAddbaReqSetup env (side.tid index))
  | .receive skb => recvAddbaResponse skb side
  | .rspExchange => exchangeRsp side
  | .rspFinish hal => finishRsp env hal side
  | .timerFires index => fireTimer index side
  | .timerExchange => exchangeTimer side
  | .timerFinish => finishTimer env side
  | .quarantine index code =>
    side.put .quarantine index (drvTxbaQuarantine env code (side.tid index))
  | .clear => clearAll side

/-- The initiator of a station that has just been set up. -/
def initiatorInit : Initiator where
  tid := drvTxlistInitForSta
  rx := .idle
  work := .idle
  items := []
  requests := fun _ => 0
  ended := fun _ => []

def initiatorRun (moments : List (TxEnv × InitiatorEvent)) : Initiator :=
  Machine.run initiatorStep initiatorInit moments

end W522a.Tx
