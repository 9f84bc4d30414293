import W522a.Lib.Cells
import W522a.Lib.Run
import W522a.Hal.IrqTask

/-!
The RX FIFO of the host. `hi_soft_rx_irq` copies to it what the card shows, one read at a time, and
`hal_rx_thread` takes the frames from it. Between two steps of one of them the other may go on, and
so may the card.
-/

namespace W522a.Hal

open Flat (fill load)

@[simp] abbrev rxPrivHdrLen : Nat := 32

def rxLength (desc : List UInt8) : Nat :=
  ((desc.getD 22 0).toNat + 2 ^ 8 * (desc.getD 23 0).toNat) % 2 ^ 14

def upload2hostFlag (desc : List UInt8) : Bool := (desc.getD 30 0).toNat.testBit 4

/-- `mpdu_len`, which is aligned to words -/
def rxMpduLen (desc : List UInt8) : Nat := (rxPrivHdrLen + rxLength desc + 3) / 4 * 4

/-- The variables that the rounds of `hi_soft_rx_irq` share. -/
structure RxLocals where
  hostWrapperLen : Int
  drainIter : Nat
  drainIterMax : Nat
  deriving DecidableEq

/-- Where `hi_soft_rx_irq` stands: outside, at `rx_drain_again`, before a read, or behind the reads
of a round. -/
inductive RxCopy where
  | out
  | drain (rxFifoFw : Nat) (locals : RxLocals)
  | read (rxFifoFdt remainLen rxTotalLen : Nat) (locals : RxLocals)
  | copied (rxTotalLen : Nat) (locals : RxLocals)
  deriving DecidableEq

/-- The FIFO, both threads, the frames that were passed to `hal_soft_rx_cs`, and the card: its ring,
where it writes next, and all that it has written. `thread` has the `rx_fifo_fdh` and the
`rx_fifo_fdt` of `hal_rx_thread` when it does not wait. -/
structure RxRing where
  fdb : Int → UInt8
  fdh : Nat
  fdt : Nat
  rxHostOffset : Nat
  copy : RxCopy
  thread : Option (Nat × Nat)
  passed : List (List UInt8)
  card : Nat → UInt8
  cardOffset : Nat
  written : List (List UInt8)

/-- What becomes of a read: it brings the bytes of the card or others, or it is not made. -/
inductive CardRead where
  | done
  | failed (bounce : Nat → UInt8)
  | refused

/-- `hi_rcv_frame`. The card goes on at the start of its ring. -/
def hiRcvFrame (card : Nat → UInt8) (outcome : CardRead) (fdb : Int → UInt8) (buf addr len : Nat) :
    Int → UInt8 :=
  match outcome with
  | .done => fill fdb buf len fun index => card ((addr + index) % rxmaxOffset)
  | .failed bounce => fill fdb buf len bounce
  | .refused => fdb

namespace RxRing

variable (ring : RxRing)

/-- The card writes behind what it has written. -/
def write (record : List UInt8) : RxRing :=
  { ring with
    card := Ring.put rxmaxOffset ring.card ring.cardOffset record
    cardOffset := (ring.cardOffset + record.length) % rxmaxOffset
    written := ring.written ++ [record] }

/-- `hi_soft_rx_irq` up to `rx_drain_again`; `host_wrapper_len` is not set. -/
def irq (rxFwPtr : Nat) (bhalOpen : Bool) (hostWrapperLen rxDrainIterMax : Int) : RxRing :=
  if ring.rxHostOffset = rxFwPtr * 4 ∨ !bhalOpen then ring
  else
    { ring with
      copy := .drain (rxFwPtr * 4) ⟨hostWrapperLen, 0, clampUnsigned rxDrainIterMax 1 64⟩ }

/-- `hi_soft_rx_irq` from `rx_drain_again` to its reads. -/
def drain (rxFifoFw : Nat) (locals : RxLocals) : RxRing :=
  let rxTotalLen := circleSubtract2 rxFifoFw ring.rxHostOffset rxmaxOffset
  if circleSubtract2 ring.fdh ring.fdt rxFifoSize ≤ rxTotalLen + func6Blksize then
    { ring with copy := .out }
  else { ring with copy := .read ring.fdt rxTotalLen rxTotalLen locals }

/-- A read of `hi_soft_rx_irq`. What it counts too is taken from behind the end of the ring. -/
def readOnce (conf : IrqConf) (outcome : CardRead) (rxFifoFdt remainLen rxTotalLen : Nat)
    (locals : RxLocals) : RxRing :=
  let (readLen, hostWrapperLen, extra) :=
    rxReadLens conf locals.hostWrapperLen rxFifoFdt remainLen
  let fdb := hiRcvFrame ring.card outcome ring.fdb rxFifoFdt ring.rxHostOffset readLen
  let left := remainLen - (readLen + extra)
  let locals := { locals with hostWrapperLen := min hostWrapperLen 0 }
  { ring with
    fdb := fill fdb 0 extra fun index => fdb (rxFifoSize + index : Nat)
    rxHostOffset := circleAddition2 ring.rxHostOffset (readLen + extra) rxmaxOffset
    copy :=
      if left = 0 then .copied rxTotalLen locals
      else
        .read (circleAddition2 rxFifoFdt (readLen + extra) rxFifoSize) left rxTotalLen locals }

/-- `hi_soft_rx_irq` behind the reads of a round. -/
def publish (suspended : Bool) (rxFwPtr rxTotalLen : Nat) (locals : RxLocals) : RxRing :=
  { ring with
    fdt := if suspended then ring.fdt else circleAddition2 ring.fdt rxTotalLen rxFifoSize
    copy :=
      if locals.drainIter < locals.drainIterMax ∧ rxFwPtr * 4 ≠ ring.rxHostOffset then
        .drain (rxFwPtr * 4) { locals with drainIter := locals.drainIter + 1 }
      else .out }

/-- The bytes from a place of the FIFO on, in one piece or in two. -/
def bytes (place count : Nat) : List UInt8 :=
  let remainNum := rxFifoSize - place
  if count ≤ remainNum then load ring.fdb place count
  else load ring.fdb place remainNum ++ load ring.fdb 0 (count - remainNum)

/-- A turn of the inner loop of `hal_rx_thread`, or its end. -/
def parse (allocated : Bool) (rxFifoFdh rxFifoFdt : Nat) : RxRing :=
  if rxFifoFdh = rxFifoFdt then { ring with fdh := rxFifoFdh, thread := none }
  else
    let desc := ring.bytes rxFifoFdh rxPrivHdrLen
    let len := rxLength desc + rxPrivHdrLen
    let next := circleAddition2 rxFifoFdh (rxMpduLen desc) rxFifoSize
    if rxLength desc = 0 ∨ circleSubtract2 rxFifoFdt rxFifoFdh rxFifoSize < len ∨
        rxFifoSize < len then
      { ring with thread := some (rxFifoFdt, rxFifoFdt) }
    else if !upload2hostFlag desc then { ring with thread := some (next, rxFifoFdt) }
    else if !allocated then { ring with fdh := rxFifoFdh, thread := none }
    else
      { ring with
        thread := some (next, rxFifoFdt)
        passed := ring.passed ++ [ring.bytes rxFifoFdh len] }

end RxRing

/-- The steps of the card, of `hi_soft_rx_irq` and of `hal_rx_thread`. -/
inductive RingEvent where
  | write (record : List UInt8)
  | irq (rxFwPtr : Nat) (bhalOpen : Bool) (hostWrapperLen rxDrainIterMax : Int)
  | drain
  | read (outcome : CardRead)
  | publish (suspended : Bool) (rxFwPtr : Nat)
  | wake
  | parse (allocated : Bool)

/-- A step, where its thread stands before it. -/
def ringStep (conf : IrqConf) (ring : RxRing) : RingEvent → RxRing
  | .write record => ring.write record
  | .irq rxFwPtr bhalOpen hostWrapperLen rxDrainIterMax =>
    match ring.copy with
    | .out => ring.irq rxFwPtr bhalOpen hostWrapperLen rxDrainIterMax
    | _ => ring
  | .drain =>
    match ring.copy with
    | .drain rxFifoFw locals => ring.drain rxFifoFw locals
    | _ => ring
  | .read outcome =>
    match ring.copy with
    | .read rxFifoFdt remainLen rxTotalLen locals =>
      ring.readOnce conf outcome rxFifoFdt remainLen rxTotalLen locals
    | _ => ring
  | .publish suspended rxFwPtr =>
    match ring.copy with
    | .copied rxTotalLen locals => ring.publish suspended rxFwPtr rxTotalLen locals
    | _ => ring
  | .wake =>
    match ring.thread with
    | none => { ring with thread := some (ring.fdh, ring.fdt) }
    | some _ => ring
  | .parse allocated =>
    match ring.thread with
    | some (rxFifoFdh, rxFifoFdt) => ring.parse allocated rxFifoFdh rxFifoFdt
    | none => ring

def freshRing : RxRing where
  fdb := fun _ => 0
  fdh := 0
  fdt := 0
  rxHostOffset := 0
  copy := .out
  thread := none
  passed := []
  card := fun _ => 0
  cardOffset := 0
  written := []

end W522a.Hal
