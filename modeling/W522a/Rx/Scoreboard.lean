import W522a.Common
import W522a.Lib.Loop

/-!
The receive scoreboard of one traffic identifier: the fields of `struct drv_rx_scoreboard`, the
loops over its ring, and the locked part of every function that moves it.
-/

namespace W522a.Rx

/-- One slot of the ring, `struct drv_rxdesc`. -/
structure RxDesc where
  rxWbuf : Option SkBuff
  rxTime : Nat

/-- `struct wifi_mac_ba_parameterset` -/
structure BaParameterset where
  amsdusupported : Bool
  bapolicy : Nat
  tid : Nat
  buffersize : Nat
  deriving DecidableEq, Repr

/-- `struct drv_rx_scoreboard`, with the calls it has made to `wifi_mac_input` and `os_skb_free`
and whether a missing ring was read. -/
structure RxScoreboard where
  seqNext : Nat
  bawSize : Nat
  bawHead : Nat
  bawTail : Nat
  seqReset : Bool
  timerActive : Bool
  timerPeriod : Nat
  pRxDesc : Option (Nat → RxDesc)
  dialogtoken : Nat
  statuscode : Nat
  baparamset : BaParameterset
  batimeout : Nat
  userstatuscode : Nat
  rxAddbaExchangecomplete : Bool
  rxOldRun : Nat
  handedUp : List SkBuff
  freed : List SkBuff
  fault : Bool

/-- What the functions read of `drv_priv`, of the station and of its interface. The station is
absent once `net_nsta` is cleared, and may have no interface. -/
structure RxEnv where
  netNsta : Option (Option VmOpmode)
  cfgRxBaWindow : Nat
  cfgApRxBaWindow : Nat
  cfgRxaggr : Bool
  cfgApRxaggr : Bool
  cfgMonitorRxaggr : Bool
  cfgRxReorderTimeout : Nat
  cfgApRxReorderTimeout : Nat

abbrev w522aRxDesyncRun : Nat := 1

abbrev drvRxTimeout : Nat := 1

abbrev wifinetBaPolicyImmediate : Nat := 1

/-- The station acts as an access point's client entry. -/
def RxEnv.isHostap (env : RxEnv) : Bool := env.netNsta == some (some VmOpmode.hostap)

def drvRxReorderTimeout (env : RxEnv) : Nat :=
  let timeout := if env.isHostap then env.cfgApRxReorderTimeout else env.cfgRxReorderTimeout
  clampT (if timeout = 0 then drvRxTimeout else timeout) 1 200

def drvRxaggrEnabledForSta (env : RxEnv) : Bool :=
  match env.netNsta with
  | some (some .hostap) => env.cfgApRxaggr
  | some (some .monitor) => env.cfgMonitorRxaggr
  | _ => env.cfgRxaggr

/-- The window bound that `drv_rx_addbareq` reads from the configuration. -/
def rxBaWindow (env : RxEnv) : Nat :=
  clampT (if env.isHostap then env.cfgApRxBaWindow else env.cfgRxBaWindow) 1 wmeMaxBa

namespace RxScoreboard

def ringPending (scb : RxScoreboard) : Nat :=
  (((scb.bawTail : Int) - scb.bawHead) % drvTidMaxBufs).toNat

/-- The buffer that a slot of the ring points to. -/
def wbuf (scb : RxScoreboard) (index : Nat) : Option SkBuff :=
  scb.pRxDesc.bind fun ring => (ring index).rxWbuf

/-- Record a read of the ring: it faults when the ring is missing. -/
def touch (scb : RxScoreboard) : RxScoreboard :=
  { scb with fault := scb.fault || scb.pRxDesc.isNone }

def store (scb : RxScoreboard) (index : Nat) (desc : RxDesc) : RxScoreboard :=
  { scb.touch with pRxDesc := scb.pRxDesc.map fun ring => Function.update ring index desc }

/-- `CIRCLE_Add_One` of the head and of `seq_next`. -/
def advance (scb : RxScoreboard) : RxScoreboard :=
  { scb with
    bawHead := circleAddOne scb.bawHead drvTidMaxBufs
    seqNext := circleAddOne scb.seqNext wifinetSeqMax }

def clearOldRun (scb : RxScoreboard) : RxScoreboard := { scb with rxOldRun := 0 }

/-- Take the head frame out of its slot. -/
def clearHead (scb : RxScoreboard) : RxScoreboard :=
  { scb with pRxDesc := scb.pRxDesc.map fun ring =>
      Function.update ring scb.bawHead { ring scb.bawHead with rxWbuf := none } }

/-- Call `wifi_mac_input`. -/
def handUp (skb : SkBuff) (scb : RxScoreboard) : RxScoreboard :=
  { scb with handedUp := scb.handedUp ++ [skb] }

def skbFree (skb : SkBuff) (scb : RxScoreboard) : RxScoreboard :=
  { scb with freed := scb.freed ++ [skb] }

/-- Hand up the head frame, if there is one, and move past its slot. -/
def releaseHead (scb : RxScoreboard) : RxScoreboard :=
  match scb.wbuf scb.bawHead with
  | some skb => (scb.clearHead.handUp skb).advance
  | none => scb.touch.advance

/-- Free the head frame, if there is one, and move past its slot. -/
def discardHead (scb : RxScoreboard) : RxScoreboard :=
  match scb.wbuf scb.bawHead with
  | some skb => (scb.clearHead.skbFree skb).advance
  | none => scb.touch.advance

/-- The window jump of `drv_rx_input`: the head moves until the frame fits into the window.
A negotiated window holds at least one frame, so `index` turns are enough. -/
def windowJump (index : Nat) (scb : RxScoreboard) : Nat × RxScoreboard :=
  Machine.whileDo (fun jump => jump.2.bawSize ≤ jump.1)
    (fun jump => (jump.1 - 1, jump.2.releaseHead)) index (index, scb)

/-- A loop that has not come to the tail has read the slot it stopped at. -/
def touchStop (scb : RxScoreboard) : RxScoreboard :=
  if scb.bawHead ≠ scb.bawTail then scb.touch else scb

/-- The release of the frames at the head that are there, by `drv_rx_input` and `drv_rx_bar`. -/
def releaseInOrder (scb : RxScoreboard) : RxScoreboard :=
  (Machine.whileDo
    (fun scb => scb.bawHead ≠ scb.bawTail ∧ (scb.wbuf scb.bawHead).isSome)
    releaseHead drvTidMaxBufs scb).touchStop

/-- The loop of `drv_rx_bar` up to the slot of the starting sequence number. -/
def releaseUpTo (descId : Nat) (scb : RxScoreboard) : RxScoreboard :=
  Machine.whileDo (fun scb => scb.bawHead ≠ scb.bawTail ∧ scb.bawHead ≠ descId)
    releaseHead drvTidMaxBufs scb

def flushLoop (discard : Bool) (scb : RxScoreboard) : RxScoreboard :=
  Machine.whileDo (fun scb => scb.bawHead ≠ scb.bawTail)
    (if discard then discardHead else releaseHead) drvTidMaxBufs scb

/-- How long a slot's frame has waited, as `unsigned long`. -/
def waited (scb : RxScoreboard) (now index : Nat) : Nat :=
  match scb.pRxDesc with
  | some ring => (((now : Int) - (ring index).rxTime) % 2 ^ 64).toNat
  | none => 0

/-- The frame of a slot is there and has not waited long enough. -/
def stillWaits (timeout now : Nat) (scb : RxScoreboard) : Bool :=
  (scb.wbuf scb.bawHead).isSome && scb.waited now scb.bawHead < timeout

/-- The loop of `drv_rx_sort_timer_ex`: holes and frames that waited long enough go. -/
def sortTimerLoop (timeout now : Nat) (scb : RxScoreboard) : RxScoreboard :=
  (Machine.whileDo
    (fun scb => scb.bawHead ≠ scb.bawTail ∧ !scb.stillWaits timeout now)
    releaseHead drvTidMaxBufs scb).touchStop

end RxScoreboard

open RxScoreboard

def drvRxFlushTid (env : RxEnv) (drop : Bool) (scb : RxScoreboard) : RxScoreboard :=
  flushLoop (drop || env.netNsta.isNone) scb

/-- What `drv_rx_addbareq` reads of a request. The starting number is a field of twelve bits. -/
structure AddbaReq where
  dialogtoken : Nat
  tid : Nat
  buffersize : Nat
  startseqnum : Fin wifinetSeqMax

def emptyRing : Nat → RxDesc := fun _ => ⟨none, 0⟩

/-- The branch of `drv_rx_addbareq` that accepts, up to the allocation. -/
def acceptAddba (env : RxEnv) (req : AddbaReq) (scb : RxScoreboard) : RxScoreboard :=
  let scb :=
    if scb.rxAddbaExchangecomplete ∧ scb.pRxDesc.isSome then
      { drvRxFlushTid env false { scb with timerActive := false } with
        rxAddbaExchangecomplete := false }
    else scb
  let bawSize :=
    if req.buffersize ≠ 0 then clampT req.buffersize 1 (rxBaWindow env) else rxBaWindow env
  { scb with
    bawSize := bawSize
    seqNext := req.startseqnum
    bawHead := 0
    bawTail := 0
    statuscode := wifinetStatusSuccess
    baparamset := { scb.baparamset with
      bapolicy := wifinetBaPolicyImmediate, buffersize := bawSize }
    batimeout := 0 }

/-- `drv_rx_addbareq` on the scoreboard of the request's traffic identifier. The allocation of a
missing ring may fail. -/
def drvRxAddbareqTid (env : RxEnv) (req : AddbaReq) (allocated : Bool) (scb : RxScoreboard) :
    RxScoreboard :=
  let scb :=
    if !drvRxaggrEnabledForSta env then { scb with statuscode := wifinetStatusRefused }
    else if scb.userstatuscode ≠ wifinetStatusSuccess then
      { scb with statuscode := scb.userstatuscode }
    else
      let scb := acceptAddba env req scb
      if scb.pRxDesc.isSome ∨ allocated then
        { scb with pRxDesc := some emptyRing, rxAddbaExchangecomplete := true, rxOldRun := 0 }
      else { scb with statuscode := wifinetStatusRefused }
  { scb with
    dialogtoken := req.dialogtoken
    baparamset := { scb.baparamset with amsdusupported := false, tid := req.tid } }

/-- The timer at the end of `drv_rx_input`. -/
def armReorderTimer (env : RxEnv) (scb : RxScoreboard) : RxScoreboard :=
  if scb.bawHead ≠ scb.bawTail then
    if !scb.timerActive then
      { scb with timerPeriod := clampT (drvRxReorderTimeout env) 1 200, timerActive := true }
    else scb
  else { scb with timerActive := false }

/-- The writes of `drv_rx_input` to the slot of the frame and to the tail. -/
def placeFrame (now : Nat) (skb : SkBuff) (index : Nat) (scb : RxScoreboard) : RxScoreboard :=
  let descId := (scb.bawHead + index) % drvTidMaxBufs
  let rxdiff := scb.ringPending
  let scb := scb.store descId ⟨some skb, now⟩
  if rxdiff ≤ index then { scb with bawTail := circleAddOne descId drvTidMaxBufs } else scb

/-- `drv_rx_input` from the slot of the frame on: a slot in use marks a duplicate. -/
def insertFrame (env : RxEnv) (now : Nat) (skb : SkBuff) (index : Nat) (scb : RxScoreboard) :
    RxScoreboard :=
  if (scb.wbuf ((scb.bawHead + index) % drvTidMaxBufs)).isSome then scb.skbFree skb
  else armReorderTimer env (releaseInOrder (placeFrame now skb index scb))

/-- `drv_rx_input` from the clearing of `rx_old_run` on. -/
def queueFrame (env : RxEnv) (now : Nat) (skb : SkBuff) (index : Nat) (scb : RxScoreboard) :
    RxScoreboard :=
  let jumped := windowJump index scb.clearOldRun
  insertFrame env now skb jumped.1 jumped.2

/-- The number a first frame brings after `drv_rx_nsta_init`. -/
def resetSeq (rxseq : Nat) (scb : RxScoreboard) : RxScoreboard :=
  if scb.seqReset then { scb with seqReset := false, seqNext := rxseq } else scb

def isOld (rxseq : Nat) (scb : RxScoreboard) : Prop :=
  wifinetSeqMax < drvBaIndex scb.seqNext rxseq + scb.bawSize * 4

instance (rxseq : Nat) (scb : RxScoreboard) : Decidable (isOld rxseq scb) :=
  inferInstanceAs (Decidable (_ < _))

/-- `rx_old_run` after a frame behind the window: only an empty span counts it. -/
def oldRun (scb : RxScoreboard) : Nat :=
  if scb.bawHead = scb.bawTail then scb.rxOldRun + 1 else scb.rxOldRun

/-- The frames behind an empty span are enough to take the next one for the peer's new number. -/
def desynced (scb : RxScoreboard) : Prop :=
  scb.bawHead = scb.bawTail ∧ w522aRxDesyncRun ≤ oldRun scb

instance (scb : RxScoreboard) : Decidable (desynced scb) :=
  inferInstanceAs (Decidable (_ ∧ _))

def resyncTo (rxseq : Nat) (scb : RxScoreboard) : RxScoreboard :=
  { scb with rxOldRun := 0, seqNext := rxseq }

def dropOld (skb : SkBuff) (scb : RxScoreboard) : RxScoreboard :=
  { scb with rxOldRun := oldRun scb }.skbFree skb

/-- The locked part of `drv_rx_input`. -/
def drvRxInputTid (env : RxEnv) (now : Nat) (skb : SkBuff) (scb : RxScoreboard) :
    RxScoreboard :=
  let scb := resetSeq skb.rxSeq scb
  if isOld skb.rxSeq scb then
    if desynced scb then queueFrame env now skb 0 (resyncTo skb.rxSeq scb)
    else dropOld skb scb
  else queueFrame env now skb (drvBaIndex scb.seqNext skb.rxSeq) scb

/-- The locked part of `drv_rx_bar`. Every path frees the request itself. -/
def drvRxBarTid (skb : SkBuff) (scb : RxScoreboard) : RxScoreboard :=
  if !scb.rxAddbaExchangecomplete ∨ scb.pRxDesc.isNone ∨ scb.bawSize = 0 then scb.skbFree skb
  else
    let index := drvBaIndex scb.seqNext skb.barSeq
    if scb.bawSize < index ∧ wifinetSeqMax < index + scb.bawSize * 4 then scb.skbFree skb
    else
      let descId := (scb.bawHead + index) % drvTidMaxBufs
      (releaseInOrder (releaseUpTo descId scb)).skbFree skb

def drvRxSortTimerEx (env : RxEnv) (now : Nat) (scb : RxScoreboard) : RxScoreboard :=
  if env.netNsta.isNone then drvRxFlushTid env true scb
  else
    let timeout := drvRxReorderTimeout env
    let scb := sortTimerLoop timeout now scb
    -- the loop stops before the tail only at a frame that waits, with its own period
    if scb.bawHead ≠ scb.bawTail then
      { scb with timerPeriod := timeout - scb.waited now scb.bawHead, timerActive := true }
    else scb

def drvRxampduDel (env : RxEnv) (scb : RxScoreboard) : RxScoreboard :=
  if !scb.rxAddbaExchangecomplete then scb
  else
    { drvRxFlushTid env false { scb with timerActive := false } with
      rxAddbaExchangecomplete := false, pRxDesc := none }

end W522a.Rx
