import W522a.Tx.Desc

/-!
The transmit scoreboard of one traffic identifier, with the parts of its queue and of `drv_priv`
that move with it, and the functions that touch the scoreboard alone.
-/

namespace W522a.Tx

/-- `enum drv_txba_fault_code` -/
inductive TxbaFault where
  | none
  | addbaTimeout
  | addbaRefused
  | pendingFuse
  | fwEndFail
  | halTxFail
  | cleanup
  deriving DecidableEq, Repr

@[simp] abbrev wifinetStatusUnspecified : Nat := 1

/-- The window of `struct drv_tx_scoreboard`: its sequence numbers and the ring of descriptors. -/
structure BaWindow where
  bawSize : Nat
  seqStart : Nat
  seqNext : Nat
  bawSnLast : Nat
  bawHead : Nat
  bawTail : Nat
  txDesc : Nat → Option Nat

/-- `struct drv_tx_scoreboard` of one identifier. `txdsPendingCnt` belongs to its `drv_txlist`,
`waitMpduTimeout` and `sampleRate` to `drv_priv`. The last fields are the frames the hardware has,
those given to `drv_tx_normal`, those kept to be sent again, and those completed with their
result. -/
structure TxTid where
  tidIndex : Nat
  win : BaWindow
  txdsQueue : List TxDesc
  bWork : Bool
  paused : Nat
  cleanupInprogress : Bool
  addbaExchangeinprogress : Bool
  addbaExchangeattempts : Nat
  addbaExchangecomplete : Bool
  addbaAmsdusupported : Bool
  addbaExchangestatuscode : Nat
  addbaFailures : Nat
  addbaTimerActive : Bool
  txbaFaultCode : TxbaFault
  txbaFwFailCnt : Nat
  txbaDisabledUntil : Nat
  txdsPendingCnt : Nat
  waitMpduTimeout : Bool
  sampleRate : RateInfo
  inHal : List TxDesc
  normal : List NormalDesc
  retransmitQueue : List TxDesc
  completed : List (TxDesc × Bool)

/-- `AP_TXBA_COOLDOWN`, in seconds. -/
@[simp] abbrev apTxbaCooldown : Nat := 3

/-- `STA_TXBA_COOLDOWN`, in seconds. -/
@[simp] abbrev staTxbaCooldown : Nat := 10

@[simp] abbrev apTxbaFwFailThreshold : Nat := 4

@[simp] abbrev apAmpduPendingLimit : Nat := 64

def bawWithin (start bawsz seqno : Nat) : Prop := drvBaIndex start seqno ≤ bawsz

instance (start bawsz seqno : Nat) : Decidable (bawWithin start bawsz seqno) :=
  inferInstanceAs (Decidable (_ ≤ _))

namespace BaWindow

/-- `(baw_tail - baw_head) & (DRV_TID_MAX_BUFS - 1)` -/
def span (win : BaWindow) : Nat :=
  (((win.bawTail : Int) - win.bawHead) % drvTidMaxBufs).toNat

/-- The slot of an offset from the head. -/
def descId (win : BaWindow) (index : Nat) : Nat := (win.bawHead + index) % drvTidMaxBufs

end BaWindow

def drvTxAdd2baw (ptxdesc : TxDesc) (win : BaWindow) : BaWindow :=
  let index := drvBaIndex win.seqStart ptxdesc.seqnum
  if drvTidMaxBufs ≤ index ∨ win.bawSize ≠ 0 ∧ win.bawSize ≤ index then win
  else
    let descId := win.descId index
    { win with
      txDesc := Function.update win.txDesc descId (some ptxdesc.id)
      bawSnLast := ptxdesc.seqnum
      bawTail :=
        if win.span ≤ index then circleAddOne descId drvTidMaxBufs else win.bawTail }

/-- One turn of the slide in `drv_tx_update_ba_win`. -/
def slideHead (win : BaWindow) : BaWindow :=
  { win with
    seqStart := circleAddOne win.seqStart wifinetSeqMax
    bawHead := circleAddOne win.bawHead drvTidMaxBufs }

/-- The slide of `drv_tx_update_ba_win`, which snaps the head to the tail after its limit. -/
def slideWindow (turns : Nat) (win : BaWindow) : BaWindow :=
  if win.bawHead ≠ win.bawTail ∧ win.txDesc win.bawHead = none then
    match turns with
    | 0 => { win with bawHead := win.bawTail }
    | turns + 1 => slideWindow turns (slideHead win)
  else win

def drvTxUpdateBaWin (seqnum : Nat) (win : BaWindow) : BaWindow :=
  if win.bawSize = 0 then win
  else
    let index := drvBaIndex win.seqStart seqnum
    if drvTidMaxBufs ≤ index ∨ win.bawSize ≤ index then win
    else
      slideWindow (win.bawSize + 1)
        { win with txDesc := Function.update win.txDesc (win.descId index) none }

def drvTxbaQuarantine (env : TxEnv) (code : TxbaFault) (tid : TxTid) : TxTid :=
  let cooldown := if drvTidIsHostap env then apTxbaCooldown else staTxbaCooldown
  { tid with
    txbaFaultCode := code
    txbaFwFailCnt := 0
    addbaFailures := min (tid.addbaFailures + 1) 255
    txbaDisabledUntil := env.now + cooldown
    addbaExchangecomplete := false
    addbaExchangeattempts := 0
    addbaExchangestatuscode := wifinetStatusUnspecified
    addbaExchangeinprogress := false
    paused := 0 }

/-- `drv_txba_quarantined`: whether the cooldown still runs, and the fields it clears when not. -/
def drvTxbaQuarantined (env : TxEnv) (tid : TxTid) : Bool × TxTid :=
  if tid.txbaDisabledUntil = 0 then (false, tid)
  else if env.now < tid.txbaDisabledUntil then (true, tid)
  else
    (false, { tid with txbaDisabledUntil := 0, txbaFaultCode := .none, addbaFailures := 0 })

/-- The count of firmware failures in `drv_tx_complete` of an access point's A-MPDU frame. -/
def noteFwResult (env : TxEnv) (ptxdesc : TxDesc) (txok : Bool) (tid : TxTid) : TxTid :=
  if !drvTidIsHostap env ∨ !ptxdesc.bAmpdu ∨ !ptxdesc.attached then tid
  else if txok then
    if ptxdesc.bAggr then { tid with txbaFwFailCnt := 0 } else tid
  else
    let count := min (tid.txbaFwFailCnt + 1) 255
    if apTxbaFwFailThreshold ≤ count then drvTxbaQuarantine env .fwEndFail tid
    else { tid with txbaFwFailCnt := count }

def drvTxComplete (env : TxEnv) (ptxdesc : TxDesc) (txok : Bool) (tid : TxTid) : TxTid :=
  let tid := noteFwResult env ptxdesc txok tid
  { tid with completed := tid.completed ++ [(ptxdesc, txok)] }

def drvTxCompleteList (env : TxEnv) (queue : List TxDesc) (txok : Bool) (tid : TxTid) : TxTid :=
  queue.foldl (fun tid ptxdesc => drvTxComplete env ptxdesc txok tid) tid

end W522a.Tx
