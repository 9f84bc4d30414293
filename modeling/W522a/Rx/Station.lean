import W522a.Rx.Scoreboard
import W522a.Lib.Run

/-!
The receive side of a station: the functions other parts of the driver call, which pick the
scoreboard of a traffic identifier, and the machine whose events are those calls.
-/

namespace W522a.Rx

open RxScoreboard

/-- `rx_scb` of `struct aml_driver_nsta`, with the frames handed up or freed before any
scoreboard is chosen. -/
structure RxNsta where
  rxScb : Nat → RxScoreboard
  passed : List SkBuff
  dropped : List SkBuff

def wifinetIsBar (skb : SkBuff) : Bool :=
  skb.byte 0 &&& 0x0c == 0x04 && skb.byte 0 &&& 0xf0 == 0x80

/-- A unicast data frame of the subtype `WIFINET_FC0_SUBTYPE_QOS`. -/
def isUnicastQos (skb : SkBuff) : Bool :=
  skb.byte 0 &&& 0x0c == 0x08 && skb.byte 0 &&& 0xf0 == 0x80 && skb.byte 4 &&& 0x01 == 0

/-- `i_qos[0] & WIFINET_QOS_TID`, behind a fourth address when there is one. -/
def qosTid (skb : SkBuff) : Nat :=
  if skb.byte 1 &&& 0x03 = 0x03 then skb.byte 30 &&& 0x0f else skb.byte 24 &&& 0x0f

/-- `(i_ctl & WIFINET_BAR_CTL_TID_M) >> WIFINET_BAR_CTL_TID_S` -/
def barTid (skb : SkBuff) : Nat := (skb.le16 16 &&& 0xf000) >>> 12

namespace RxNsta

def update (tid : Nat) (change : RxScoreboard → RxScoreboard) (sta : RxNsta) : RxNsta :=
  { sta with rxScb := Function.update sta.rxScb tid (change (sta.rxScb tid)) }

def updateAll (change : RxScoreboard → RxScoreboard) (sta : RxNsta) : RxNsta :=
  { sta with
    rxScb := fun tid => if tid < wmeNumTid then change (sta.rxScb tid) else sta.rxScb tid }

def pass (skb : SkBuff) (sta : RxNsta) : RxNsta := { sta with passed := sta.passed ++ [skb] }

def drop (skb : SkBuff) (sta : RxNsta) : RxNsta := { sta with dropped := sta.dropped ++ [skb] }

end RxNsta

def drvRxBar (env : RxEnv) (skb : SkBuff) (sta : RxNsta) : RxNsta :=
  if env.netNsta.isNone then sta.drop skb
  else if wmeNumTid ≤ barTid skb then sta.drop skb
  else sta.update (barTid skb) (drvRxBarTid skb)

def drvRxInput (env : RxEnv) (now : Nat) (skb : SkBuff) (sta : RxNsta) : RxNsta :=
  if env.netNsta.isNone then sta.drop skb
  else if skb.byte 0 &&& 0x03 ≠ 0 then sta.drop skb
  else if wifinetIsBar skb then drvRxBar env skb sta
  else if !isUnicastQos skb then sta.pass skb
  else if wmeNumTid ≤ qosTid skb then sta.pass skb
  else if !(sta.rxScb (qosTid skb)).rxAddbaExchangecomplete then sta.pass skb
  else sta.update (qosTid skb) (drvRxInputTid env now skb)

def drvRxAddbareq (env : RxEnv) (req : AddbaReq) (allocated : Bool) (sta : RxNsta) : RxNsta :=
  if wmeNumTid ≤ req.tid then sta
  else sta.update req.tid (drvRxAddbareqTid env req allocated)

def drvRxNstaInitTid (env : RxEnv) (scb : RxScoreboard) : RxScoreboard :=
  { scb with
    seqReset := true
    seqNext := 0
    bawSize := wmeMaxBa
    bawHead := 0
    bawTail := 0
    rxOldRun := 0
    pRxDesc := none
    timerActive := false
    timerPeriod := drvRxReorderTimeout env
    rxAddbaExchangecomplete := false
    userstatuscode := wifinetStatusSuccess }

def drvRxNstaCleanTid (env : RxEnv) (scb : RxScoreboard) : RxScoreboard :=
  if !scb.rxAddbaExchangecomplete then scb
  else
    { drvRxFlushTid env true { scb with timerActive := false } with
      pRxDesc := none, rxAddbaExchangecomplete := false }

/-- The receive part of `drv_addba_clear` on one scoreboard. -/
def drvAddbaClearTid (scb : RxScoreboard) : RxScoreboard :=
  { scb with rxAddbaExchangecomplete := false }

/-- What the driver, the peer and the timers call on the receive side of a station. -/
inductive RxEvent where
  | nstaInit (env : RxEnv)
  | addbareq (env : RxEnv) (req : AddbaReq) (allocated : Bool)
  | input (env : RxEnv) (now : Nat) (skb : SkBuff)
  | sortTimer (env : RxEnv) (tid now : Nat)
  | timerHandler (tid : Nat)
  | flushTid (env : RxEnv) (tid : Nat) (drop : Bool)
  | ampduDel (env : RxEnv) (tid : Nat)
  | setAddbaRsp (tid statuscode : Nat)
  | clrAddbaRspStatus
  | addbaClear
  | nstaClean (env : RxEnv)

/-- The same calls as one scoreboard sees them. -/
inductive TidEvent where
  | nstaInit (env : RxEnv)
  | addbareq (env : RxEnv) (req : AddbaReq) (allocated : Bool)
  | input (env : RxEnv) (now : Nat) (skb : SkBuff)
  | bar (skb : SkBuff)
  | sortTimer (env : RxEnv) (now : Nat)
  | timerHandler
  | flushTid (env : RxEnv) (drop : Bool)
  | ampduDel (env : RxEnv)
  | setAddbaRsp (statuscode : Nat)
  | addbaClear
  | nstaClean (env : RxEnv)

/-- One call on one scoreboard. A frame outside a session passes it by. -/
def tidStep (scb : RxScoreboard) : TidEvent → RxScoreboard
  | .nstaInit env => drvRxNstaInitTid env scb
  | .addbareq env req allocated => drvRxAddbareqTid env req allocated scb
  | .input env now skb =>
    if scb.rxAddbaExchangecomplete then drvRxInputTid env now skb scb else scb
  | .bar skb => drvRxBarTid skb scb
  | .sortTimer env now => drvRxSortTimerEx env now scb
  | .timerHandler => { scb with timerActive := false }
  | .flushTid env drop => drvRxFlushTid env drop scb
  | .ampduDel env => drvRxampduDel env scb
  | .setAddbaRsp statuscode => { scb with userstatuscode := statuscode }
  | .addbaClear => drvAddbaClearTid scb
  | .nstaClean env => drvRxNstaCleanTid env scb

def step (sta : RxNsta) : RxEvent → RxNsta
  | .nstaInit env =>
    if env.cfgRxaggr || env.cfgApRxaggr then sta.updateAll (drvRxNstaInitTid env) else sta
  | .addbareq env req allocated => drvRxAddbareq env req allocated sta
  | .input env now skb => drvRxInput env now skb sta
  | .sortTimer env tid now => sta.update tid (drvRxSortTimerEx env now)
  | .timerHandler tid => sta.update tid fun scb => { scb with timerActive := false }
  | .flushTid env tid drop => sta.update tid (drvRxFlushTid env drop)
  | .ampduDel env tid => sta.update tid (drvRxampduDel env)
  | .setAddbaRsp tid statuscode =>
    if wmeNumTid ≤ tid then sta
    else sta.update tid fun scb => { scb with userstatuscode := statuscode }
  | .clrAddbaRspStatus =>
    sta.updateAll fun scb => { scb with userstatuscode := wifinetStatusSuccess }
  | .addbaClear => sta.updateAll drvAddbaClearTid
  | .nstaClean env =>
    if env.cfgRxaggr || env.cfgApRxaggr then sta.updateAll (drvRxNstaCleanTid env) else sta

/-- The frame reaches the reorder buffer of a traffic identifier. -/
def reaches (env : RxEnv) (skb : SkBuff) : Bool :=
  env.netNsta.isSome && skb.byte 0 &&& 0x03 == 0

/-- What a call means to the scoreboard of a traffic identifier. -/
def onTid (tid : Nat) : RxEvent → Option TidEvent
  | .nstaInit env =>
    if (env.cfgRxaggr || env.cfgApRxaggr) ∧ tid < wmeNumTid then some (.nstaInit env) else none
  | .addbareq env req allocated =>
    if req.tid = tid ∧ tid < wmeNumTid then some (.addbareq env req allocated) else none
  | .input env now skb =>
    if !reaches env skb then none
    else if wifinetIsBar skb then
      if barTid skb = tid ∧ tid < wmeNumTid then some (.bar skb) else none
    else if isUnicastQos skb ∧ qosTid skb = tid ∧ tid < wmeNumTid then some (.input env now skb)
    else none
  | .sortTimer env other now => if other = tid then some (.sortTimer env now) else none
  | .timerHandler other => if other = tid then some .timerHandler else none
  | .flushTid env other drop => if other = tid then some (.flushTid env drop) else none
  | .ampduDel env other => if other = tid then some (.ampduDel env) else none
  | .setAddbaRsp other statuscode =>
    if other = tid ∧ tid < wmeNumTid then some (.setAddbaRsp statuscode) else none
  | .clrAddbaRspStatus =>
    if tid < wmeNumTid then some (.setAddbaRsp wifinetStatusSuccess) else none
  | .addbaClear => if tid < wmeNumTid then some .addbaClear else none
  | .nstaClean env =>
    if (env.cfgRxaggr || env.cfgApRxaggr) ∧ tid < wmeNumTid then some (.nstaClean env) else none

/-- The memory of a station before `drv_rx_nsta_init`. -/
def zeroScoreboard : RxScoreboard where
  seqNext := 0
  bawSize := 0
  bawHead := 0
  bawTail := 0
  seqReset := false
  timerActive := false
  timerPeriod := 0
  pRxDesc := none
  dialogtoken := 0
  statuscode := 0
  baparamset := ⟨false, 0, 0, 0⟩
  batimeout := 0
  userstatuscode := 0
  rxAddbaExchangecomplete := false
  rxOldRun := 0
  handedUp := []
  freed := []
  fault := false

def zeroNsta : RxNsta := ⟨fun _ => zeroScoreboard, [], []⟩

section Projection

variable (sta : RxNsta) (tid other : Nat) (change : RxScoreboard → RxScoreboard)

@[simp] theorem RxNsta.pass_rxScb (skb : SkBuff) : (sta.pass skb).rxScb = sta.rxScb := rfl

@[simp] theorem RxNsta.drop_rxScb (skb : SkBuff) : (sta.drop skb).rxScb = sta.rxScb := rfl

theorem RxNsta.update_rxScb : (sta.update other change).rxScb tid =
    if other = tid then change (sta.rxScb tid) else sta.rxScb tid := by
  by_cases same : other = tid
  · subst same; simp [RxNsta.update]
  · simp [RxNsta.update, same, Function.update_of_ne (Ne.symm same)]

private theorem RxNsta.updateAll_rxScb : (sta.updateAll change).rxScb tid =
    if tid < wmeNumTid then change (sta.rxScb tid) else sta.rxScb tid := rfl

private theorem drvRxInput_rxScb (env : RxEnv) (now : Nat) (skb : SkBuff) :
    (drvRxInput env now skb sta).rxScb tid =
      ((onTid tid (.input env now skb)).elim (sta.rxScb tid) (tidStep (sta.rxScb tid))) := by
  simp only [drvRxInput, drvRxBar, onTid, reaches]
  grind [tidStep, RxNsta.update_rxScb, RxNsta.pass_rxScb, RxNsta.drop_rxScb]

theorem step_rxScb (event : RxEvent) :
    (step sta event).rxScb tid =
      ((onTid tid event).elim (sta.rxScb tid) (tidStep (sta.rxScb tid))) := by
  cases event with
  | input env now skb => exact drvRxInput_rxScb sta tid env now skb
  | _ =>
    simp only [step, onTid, drvRxAddbareq]
    grind [tidStep, RxNsta.update_rxScb, RxNsta.updateAll_rxScb]

end Projection

end W522a.Rx
