import W522a.Tx.Buffered

/-!
The service periods of a U-APSD station, at the access point: a trigger frame sets the flag of the
period and sends from the queue, and the completion of the frame with EOSP clears the flag.
-/

namespace W522a.Tx.Uapsd

open Buffered

abbrev wifinetFc1Retry : UInt8 := 0x08

abbrev wifinetFc1PwrMgt : UInt8 := 0x10

/-- `WIFINET_FC0_TYPE_DATA | WIFINET_FC0_SUBTYPE_QOS` -/
abbrev qosData : UInt8 := 0x88

/-- `WIFINET_FC0_TYPE_DATA | WIFINET_FC0_SUBTYPE_QOS_NULL` -/
abbrev qosNull : UInt8 := 0xc8

abbrev wmeCapinfoUapsdAcflagsMask : UInt8 := 0x0f

/-- `TID_TO_WME_AC`, with the categories in the order `WME_AC_BE`, `BK`, `VI`, `VO`. -/
def tidToWmeAc (tid : Nat) : Nat :=
  if tid = 0 ∨ tid = 3 then 0
  else if tid = 1 ∨ tid = 2 then 1
  else if tid = 4 ∨ tid = 5 then 2
  else 3

def wmeAcToTid (ac : Nat) : Nat :=
  if ac = 3 then 6 else if ac = 2 then 5 else if ac = 1 then 1 else 0

/-- `struct NullDataCmd`, what a QoS null frame differs in. -/
structure NullDataCmd where
  tid : Nat
  eosp : Bool
  deriving DecidableEq, Repr

/-- A received frame: `struct wifi_qos_frame`. -/
structure RxFrame extends WifiQosFrame where
  iSeq : Nat
  deriving DecidableEq, Repr

/-- `struct wifi_station` with its `struct aml_driver_nsta`. `uapsd`, `uapsdTrig` and `uapsdSp` are
flags of `sta_flags`, `waitNoaEnd` is one of `sta_flags_ext`. `inHal` are the frames of its queue
that the HAL has, `nulls` the null frames that were sent, and `tim` is its bit in the beacon. -/
structure UapsdSta (Sta : Type) where
  queue : BufferQueue Sta
  nextAddress : Nat
  inHal : List (BufDesc Sta)
  staIsuapsd : Bool
  uapsd : Bool
  uapsdTrig : Bool
  uapsdSp : Bool
  waitNoaEnd : Bool
  staUapsd : UInt8
  staUapsdMaxsp : UInt8
  staUapsdAcDelivena : Nat → Bool
  staUapsdTrigseq : Nat → Nat
  nulls : List NullDataCmd
  tim : Bool

/-- What a received frame meets: the interface (`WIFINET_VMAC_UAPSD_ENABLED`, an access point or an
IBSS, `vm_set_tim`), and the HAL before the loop and at each turn of it. -/
structure RxEnv where
  uapsdEnabled : Bool
  apOrIbss : Bool
  vmSetTim : Bool
  bufferFull : Bool
  answers : Nat → TurnAnswer

variable {Sta : Type}

def acCanTrigger (sta : UapsdSta Sta) (ac : Nat) : Bool :=
  sta.uapsdTrig && sta.staUapsdAcDelivena ac

/-- `WME_UAPSD_NODE_ALL_AC_CAN_TRIGGER` -/
def allAcCanTrigger (sta : UapsdSta Sta) : Bool :=
  sta.staUapsd &&& wmeCapinfoUapsdAcflagsMask == wmeCapinfoUapsdAcflagsMask

/-- The turns of a function that is not disturbed, up to its end. -/
def runWalk (answers : Nat → TurnAnswer) :
    Nat → Nat → Walk Sta → BufferQueue Sta → Option (BufferQueue Sta)
  | 0, _, _, queue => some queue
  | fuel + 1, turn, walk, queue =>
    match walkTurn (answers turn) walk queue with
    | none => none
    | some (none, later) => some later
    | some (some next, later) => runWalk answers fuel (turn + 1) next later

/-- `wifi_mac_send_qosnulldata`, through `wifi_mac_send_nulldata`. -/
def wifiMacSendQosnulldata (ac : Nat) (sta : UapsdSta Sta) : UapsdSta Sta :=
  { sta with nulls := sta.nulls ++ [⟨wmeAcToTid ac, acCanTrigger sta ac⟩] }

def drvUapsdSendQosNull (ac : Nat) (sta : UapsdSta Sta) : UapsdSta Sta :=
  wifiMacSendQosnulldata ac { sta with uapsdSp := false }

/-- What the loop has handed over goes to the HAL. -/
def UapsdSta.handedOver (sta : UapsdSta Sta) (queue : BufferQueue Sta) : UapsdSta Sta :=
  { sta with
    queue := queue
    inHal := sta.inHal ++ (queue.toHal.drop sta.queue.toHal.length).flatten }

/-- `drv_process_uapsd_nsta_trigger`: what it returns, and the station. -/
def drvProcessUapsdNstaTrigger (env : RxEnv) (maxsp : UInt8) (ac : Nat) (flush : Bool)
    (sta : UapsdSta Sta) : Option (Int × UapsdSta Sta) :=
  if !sta.staIsuapsd then some (0, sta)
  else
    match triggerStart env.bufferFull maxsp sta.queue with
    | none => some (0, if flush then sta else drvUapsdSendQosNull ac sta)
    | some txnReal =>
      match runWalk env.answers (txnReal + 1) 0 (.trigger flush txnReal false []) sta.queue with
      | none => none
      | some queue => some (queue.qcnt, sta.handedOver queue)

/-- Whether a frame is QoS data or a QoS null. -/
def isQosData (qwh : RxFrame) : Bool :=
  qwh.iFc0 &&& 0x0c == 0x08 && (qwh.iFc0 &&& 0xf0 == 0x80 || qwh.iFc0 &&& 0xf0 == 0xc0)

/-- `WIFINET_FC1_PWR_MGT` of a frame. -/
def pwrMgt (qwh : RxFrame) : Bool := qwh.iFc1 &&& wifinetFc1PwrMgt == wifinetFc1PwrMgt

/-- Whether `wifi_mac_pwrsave_chk_uapsd_trig` looks at a frame. -/
def concerns (env : RxEnv) (sta : UapsdSta Sta) : Bool :=
  env.uapsdEnabled && env.apOrIbss && sta.uapsd

def rxAc (qwh : RxFrame) : Nat := tidToWmeAc (qwh.iQos0 &&& 0x0f).toNat

/-- Whether a frame is a trigger of a station whose power save mode stays, and no repetition. -/
def isTrigger (qwh : RxFrame) (sta : UapsdSta Sta) : Bool :=
  isQosData qwh && acCanTrigger sta (rxAc qwh) &&
    !(qwh.iFc1 &&& wifinetFc1Retry != 0 && qwh.iSeq == sta.staUapsdTrigseq (rxAc qwh))

def pwrsaveChange (env : RxEnv) (qwh : RxFrame) (sta : UapsdSta Sta) : Option (UapsdSta Sta) :=
  if pwrMgt qwh then
    some { sta with uapsdSp := false, uapsdTrig := true, staUapsdTrigseq := fun _ => 0xffff }
  else
    match drvProcessUapsdNstaTrigger env wmeUapsdNodeMaxqdepth 0 true
      { sta with uapsdSp := false, uapsdTrig := false } with
    | none => none
    | some (_, later) => some later

def servicePeriod (env : RxEnv) (qwh : RxFrame) (sta : UapsdSta Sta) : Option (UapsdSta Sta) :=
  match drvProcessUapsdNstaTrigger env sta.staUapsdMaxsp (rxAc qwh) false
    { sta with
      uapsdSp := true
      staUapsdTrigseq := Function.update sta.staUapsdTrigseq (rxAc qwh) qwh.iSeq } with
  | none => none
  | some (queueQcnt, later) =>
    if queueQcnt = 0 ∧ env.vmSetTim ∧ allAcCanTrigger later then some { later with tim := false }
    else some later

def wifiMacPwrsaveChkUapsdTrig (env : RxEnv) (qwh : RxFrame) (sta : UapsdSta Sta) :
    Option (UapsdSta Sta) :=
  if !concerns env sta then some sta
  else if pwrMgt qwh != sta.uapsdTrig then pwrsaveChange env qwh sta
  else if !isTrigger qwh sta then some sta
  else if sta.uapsdSp then some sta
  else servicePeriod env qwh sta

/-- Whether a frame ends a service period when it is completed. -/
def endsPeriod (ptxdesc : BufDesc Sta) : Bool :=
  match ptxdesc.txdescMpdu with
  | none => false
  | some skbbuf =>
    (skbbuf.frame.iFc0 == qosData || skbbuf.frame.iFc0 == qosNull) &&
      skbbuf.frame.iQos0 &&& wifinetQosEosp != 0

def wifiMacPwrsaveEospIndicate (ptxdesc : BufDesc Sta) (sta : UapsdSta Sta) : UapsdSta Sta :=
  match ptxdesc.txdescMpdu with
  | none => sta
  | some skbbuf =>
    if skbbuf.frame.iFc0 = qosData ∨ skbbuf.frame.iFc0 = qosNull then
      if skbbuf.frame.iQos0 &&& wifinetQosEosp ≠ 0 ∨ sta.waitNoaEnd then
        { sta with uapsdSp := false, waitNoaEnd := false }
      else sta
    else sta

/-- The HAL completes one of the frames: the part of `drv_tx_irq_tasklet` that the period needs. -/
def completeFrame (index : Nat) (sta : UapsdSta Sta) : UapsdSta Sta :=
  match sta.inHal[index]? with
  | none => sta
  | some ptxdesc =>
    { wifiMacPwrsaveEospIndicate ptxdesc sta with inHal := sta.inHal.eraseIdx index }

/-- A QoS data frame for the station, as `wifi_mac_encap` leaves it. -/
structure DataFrame (Sta : Type) where
  wnetVifId : Nat
  drvSta : Sta
  iFc1 : UInt8
  iQos0 : UInt8

/-- A frame on its way to the queue. -/
def DataFrame.toBuf (frame : DataFrame Sta) : BufFrame Sta :=
  ⟨frame.wnetVifId, frame.drvSta,
    ⟨some frame.wnetVifId, ⟨qosData, frame.iFc1, frame.iQos0⟩⟩⟩

def drvTxQueueUapsdNsta (frames : List (DataFrame Sta)) (sta : UapsdSta Sta) : UapsdSta Sta :=
  { sta with
    queue := drvTxdescListQueue (chain sta.nextAddress (frames.map (·.toBuf))) sta.queue
    nextAddress := sta.nextAddress + frames.length }

/-- What happens to a station. -/
inductive UapsdEvent (Sta : Type) where
  | queue (frames : List (DataFrame Sta))
  | rx (env : RxEnv) (qwh : RxFrame)
  | complete (index : Nat)

/-- The station after an event, where no pointer leads outside the queue. -/
def uapsdStep (sta : UapsdSta Sta) : UapsdEvent Sta → Option (UapsdSta Sta)
  | .queue frames => some (drvTxQueueUapsdNsta frames sta)
  | .rx env qwh => wifiMacPwrsaveChkUapsdTrig env qwh sta
  | .complete index => some (completeFrame index sta)

end W522a.Tx.Uapsd
