import Mathlib.Data.Nat.ModEq
import W522a.Hal.IrqTaskLaw
import W522a.Hal.RxRing

/-!
The FIFO passes the frames of the card on, each whole and in order, as long as no read takes bytes
from behind the end of the ring.
-/

namespace W522a.Hal

open Flat (fill)
open Ring (cells)

/-- A record of the card: a frame for the host, filled up to whole words. -/
structure RxRecord (record : List UInt8) : Prop where
  some : rxLength record ≠ 0
  upload : upload2hostFlag record = true
  whole : record.length = rxMpduLen record

def rxFrame (record : List UInt8) : List UInt8 := record.take (rxLength record + rxPrivHdrLen)

namespace RxRing

variable (ring : RxRing)

def backlog : Nat := Ring.span rxmaxOffset ring.rxHostOffset ring.cardOffset

/-- An offset of the card is the end of a record, behind what the host has read. -/
def Shows (offset : Nat) : Prop :=
  offset < rxmaxOffset ∧ ∃ count ≤ ring.written.length,
    (ring.written.drop count).flatten.length ≤ ring.backlog ∧
      (offset + (ring.written.drop count).flatten.length) % rxmaxOffset = ring.cardOffset

/-- Where the copy writes next. -/
def tail : Nat :=
  match ring.copy with
  | .read rxFifoFdt _ _ _ => rxFifoFdt
  | .copied rxTotalLen _ => circleAddition2 ring.fdt rxTotalLen rxFifoSize
  | _ => ring.fdt

/-- The bytes of the FIFO that `hal_rx_thread` has not given up. -/
def held : List UInt8 :=
  cells rxFifoSize (fun place => ring.fdb place) ring.fdh (Ring.span rxFifoSize ring.fdh ring.tail)

/-- The frames that were passed on are the first ones that were written, and all of them when
nothing is on the way. -/
structure Fifo : Prop where
  order : ring.passed <+: ring.written.map rxFrame
  all : ring.copy = .out → ring.thread = none → ring.fdh = ring.fdt →
    ring.rxHostOffset = ring.cardOffset → ring.passed = ring.written.map rxFrame

end RxRing

/-- What is asked of the card and of the bus: whole records that fit the ring of the card, pointers
to the ends of records, and reads that bring its bytes and are not made while the driver is
suspended. -/
def CardRight (ring : RxRing) : RingEvent → Prop
  | .write record => RxRecord record ∧ ring.backlog + record.length < rxmaxOffset
  | .irq rxFwPtr bhalOpen _ _ =>
    match ring.copy with
    | .out => bhalOpen = true → ring.Shows (rxFwPtr * 4)
    | _ => True
  | .read outcome =>
    match ring.copy with
    | .read _ _ _ _ => outcome = .done
    | _ => True
  | .publish suspended rxFwPtr =>
    match ring.copy with
    | .copied _ locals =>
      suspended = false ∧ (locals.drainIter < locals.drainIterMax → ring.Shows (rxFwPtr * 4))
    | _ => True
  | .drain | .wake | .parse _ => True

/-- A read of the copy is aligned. -/
def ReadAligned (conf : IrqConf) (ring : RxRing) : RingEvent → Prop
  | .read _ =>
    match ring.copy with
    | .read rxFifoFdt remainLen _ locals =>
      LensAligned conf locals.hostWrapperLen rxFifoFdt remainLen
    | _ => True
  | _ => True

/-- A step of the copy leaves the bytes alone that `hal_rx_thread` has not given up. -/
def KeepsHeld (conf : IrqConf) (ring : RxRing) (event : RingEvent) : Prop :=
  cells rxFifoSize (fun place => (ringStep conf ring event).fdb place) ring.fdh
    (Ring.span rxFifoSize ring.fdh ring.tail) = ring.held

section Passes

variable {ring : RxRing}

theorem fifoAfter_append (chip : Nat → UInt8) (fdb : Int → UInt8) (first second : List IrqEvent) :
    fifoAfter chip fdb (first ++ second) = fifoAfter chip (fifoAfter chip fdb first) second :=
  List.foldl_append

private theorem fifoAfter_copyWrapped (chip : Nat → UInt8) (fdb : Int → UInt8) (extra : Nat) :
    fifoAfter chip fdb (copyWrapped extra).log =
      fill fdb 0 extra fun index => fdb (rxFifoSize + index : Nat) := by
  rw [copyWrapped]
  split
  · rename_i none
    rw [none, Flat.fill_none]
    rfl
  · rfl

/-- The reads of a pass of the interrupt task are reads of the copy, with the same bytes. -/
theorem rxReads_ring (conf : IrqConf) (fuel : Nat) (ring : RxRing) (fifo remain total : Nat)
    (locals : RxLocals) (inside : fifo < rxFifoSize) (some : 0 < remain)
    (short : remain ≤ rxmaxOffset) (enough : remain ≤ fuel)
    (copy : ring.copy = .read fifo remain total locals) :
    let reads := rxReads conf fuel locals.hostWrapperLen fifo ring.rxHostOffset remain
    ∃ count hostWrapperLen,
      Machine.run (ringStep conf) ring (List.replicate count (.read .done)) =
        { ring with
          fdb := fifoAfter ring.card ring.fdb reads.log
          rxHostOffset := reads.value.1
          copy := .copied total { locals with hostWrapperLen } } := by
  induction fuel generalizing ring fifo remain locals with
  | zero => omega
  | succ fuel ih =>
    obtain ⟨positive, most⟩ := rxReadLens_spec conf locals.hostWrapperLen inside some
    have step : ringStep conf ring (.read .done) =
        ring.readOnce conf .done fifo remain total locals := by
      rw [ringStep, copy]
    rw [RxRing.readOnce] at step
    rw [rxReads]
    generalize rxReadLens conf locals.hostWrapperLen fifo remain = lens at positive most step
    obtain ⟨readLen, wrapper, extra⟩ := lens
    dsimp only at positive most step ⊢
    by_cases last : remain - (readLen + extra) = 0
    · refine ⟨1, min wrapper 0, ?_⟩
      rw [List.replicate_one, Machine.run_cons, Machine.run_nil, step]
      simp only [if_pos last, Memory.log_bind, Memory.log_emit, Memory.log_pure, Memory.value_bind,
        Memory.value_pure, List.append_nil, fifoAfter_append, fifoAfter_copyWrapped]
      rfl
    · have filled : circleAddition2 fifo (readLen + extra) rxFifoSize < rxFifoSize :=
        circleAddition2_lt inside (Nat.le_trans (Nat.le_trans most short) (by decide)) (by decide)
      rw [if_neg last] at step
      obtain ⟨count, hostWrapperLen, run⟩ := ih (ringStep conf ring (.read .done))
        (circleAddition2 fifo (readLen + extra) rxFifoSize) (remain - (readLen + extra))
        { locals with hostWrapperLen := min wrapper 0 } filled (Nat.pos_of_ne_zero last)
        (by omega) (by omega) (by rw [step])
      refine ⟨count + 1, hostWrapperLen, ?_⟩
      rw [List.replicate_succ, Machine.run_cons, run, step]
      simp only [if_neg last, Memory.log_bind, Memory.log_emit, Memory.value_bind,
        fifoAfter_append, fifoAfter_copyWrapped]
      rfl

/-- A pass of the interrupt task is a run of the copy alone, into which the other threads and the
card may step. -/
theorem rxPass_ring (conf : IrqConf) (obs : IrqObs) (ring : RxRing) {hal : IrqHal}
    {locals : RxLocals} (placed : hal.Placed)
    (room : ¬ fifoEmptySize obs hal ≤ rxTotalLen obs hal + func6Blksize)
    (copy : ring.copy = .drain (fwRxPtr obs.status * 4) locals) (fdh : ring.fdh = obs.fdh)
    (fdt : ring.fdt = hal.fdt) (offset : ring.rxHostOffset = hal.rxHostOffset)
    (wrapper : locals.hostWrapperLen = obs.hostWrapperLen) (rxFwPtr : Nat) :
    let pass := rxPass conf obs hal
    ∃ count, let next := Machine.run (ringStep conf) ring (.drain ::
        List.replicate count (.read .done) ++ [.publish (decide (obs.drvSuspendCnt ≠ 0)) rxFwPtr])
      next.fdb = fifoAfter ring.card ring.fdb pass.log ∧
        next.rxHostOffset = pass.value.rxHostOffset ∧ next.fdt = pass.value.fdt := by
  obtain ⟨positive, most, round⟩ := rxTotalLen_spec obs placed
  obtain ⟨value, -⟩ := rxReads_all conf (rxTotalLen obs hal) obs.hostWrapperLen hal.fdt
    hal.rxHostOffset (rxTotalLen obs hal) placed.fifo placed.chip positive most (Nat.le_refl _)
  have advanced : circleAddition2 ring.fdt (rxTotalLen obs hal) rxFifoSize =
      (hal.fdt + rxTotalLen obs hal) % rxFifoSize := by
    rw [fdt]
    exact circleAddition2_eq placed.fifo (Nat.le_trans most (by decide)) (by decide)
  have step : ringStep conf ring .drain =
      { ring with copy := .read hal.fdt (rxTotalLen obs hal) (rxTotalLen obs hal) locals } := by
    rw [fifoEmptySize, ← fdh, ← fdt] at room
    rw [rxTotalLen, ← offset] at room ⊢
    rw [ringStep, copy, ← fdt]
    exact if_neg room
  obtain ⟨count, hostWrapperLen, run⟩ := rxReads_ring conf (rxTotalLen obs hal)
    (ringStep conf ring .drain) hal.fdt (rxTotalLen obs hal) (rxTotalLen obs hal) locals placed.fifo
    positive most (Nat.le_refl _) (by rw [step])
  refine ⟨count, ?_⟩
  rw [List.cons_append, Machine.run_cons, Machine.run_append, run, step]
  rw [rxPass_eq conf obs placed]
  dsimp only
  rw [wrapper, offset, fifoAfter_append]
  refine ⟨?_, ?_, ?_⟩
  · split
    · rfl
    · rfl
  · rw [value, round]
    rfl
  · show (if decide (obs.drvSuspendCnt ≠ 0) then ring.fdt
      else circleAddition2 ring.fdt (rxTotalLen obs hal) rxFifoSize) =
        if obs.drvSuspendCnt = 0 then (hal.fdt + rxTotalLen obs hal) % rxFifoSize else hal.fdt
    rw [advanced, fdt]
    by_cases running : obs.drvSuspendCnt = 0
    · rw [if_pos running, if_neg (by simpa using running)]
    · rw [if_neg running, if_pos (by simpa using running)]

end Passes

section Records

variable {written : List (List UInt8)} {record : List UInt8} {count other : Nat}

def startOf (written : List (List UInt8)) (count : Nat) : Nat := (written.take count).flatten.length

theorem startOf_add_drop (written : List (List UInt8)) (count : Nat) :
    startOf written count + (written.drop count).flatten.length = written.flatten.length := by
  rw [startOf, ← List.length_append, ← List.flatten_append, List.take_append_drop]

theorem startOf_le (written : List (List UInt8)) (count : Nat) :
    startOf written count ≤ written.flatten.length :=
  Nat.le.intro (startOf_add_drop written count)

theorem startOf_length : startOf written written.length = written.flatten.length := by
  rw [startOf, List.take_length]

theorem startOf_append (inside : count ≤ written.length) (more : List (List UInt8)) :
    startOf (written ++ more) count = startOf written count := by
  rw [startOf, List.take_append_of_le_length inside, startOf]

theorem startOf_succ (inside : count < written.length) :
    startOf written (count + 1) = startOf written count + written[count].length := by
  rw [startOf, List.take_succ_eq_append_getElem inside, List.flatten_append, List.length_append]
  simp [startOf]

theorem startOf_mono (written : List (List UInt8)) (before : count ≤ other) :
    startOf written count ≤ startOf written other := by
  have part : written.take count = (written.take other).take count := by
    rw [List.take_take, Nat.min_eq_left before]
  rw [startOf, part]
  exact startOf_le (written.take other) count

theorem drop_startOf (inside : count < written.length) :
    (written.flatten.drop (startOf written count)).take written[count].length =
      written[count] := by
  have parts : written.flatten = (written.take count).flatten ++
      (written[count] ++ (written.drop (count + 1)).flatten) := by
    rw [← List.flatten_cons, ← List.drop_eq_getElem_cons inside, ← List.flatten_append,
      List.take_append_drop]
  rw [parts, startOf, List.drop_left, List.take_left]

theorem rxLength_take (whole : rxPrivHdrLen ≤ count) :
    rxLength (record.take count) = rxLength record := by
  have low : 22 < count := Nat.lt_of_lt_of_le (by decide) whole
  have high : 23 < count := Nat.lt_of_lt_of_le (by decide) whole
  rw [rxLength, rxLength, List.getD_eq_getElem?_getD, List.getD_eq_getElem?_getD,
    List.getElem?_take_of_lt low, List.getElem?_take_of_lt high, List.getD_eq_getElem?_getD,
    List.getD_eq_getElem?_getD]

theorem upload2hostFlag_take (whole : rxPrivHdrLen ≤ count) :
    upload2hostFlag (record.take count) = upload2hostFlag record := by
  have place : 30 < count := Nat.lt_of_lt_of_le (by decide) whole
  rw [upload2hostFlag, upload2hostFlag, List.getD_eq_getElem?_getD,
    List.getElem?_take_of_lt place, List.getD_eq_getElem?_getD]

theorem rxMpduLen_take (whole : rxPrivHdrLen ≤ count) :
    rxMpduLen (record.take count) = rxMpduLen record := by
  rw [rxMpduLen, rxMpduLen, rxLength_take whole]

private theorem rxLength_lt (desc : List UInt8) : rxLength desc < 2 ^ 14 := Nat.mod_lt _ (by decide)

theorem RxRecord.length (right : RxRecord record) :
    rxLength record + rxPrivHdrLen ≤ record.length ∧ record.length < 2 ^ 15 := by
  have short := rxLength_lt record
  rw [right.whole, rxMpduLen]
  constructor
  · show rxLength record + 32 ≤ (32 + rxLength record + 3) / 4 * 4
    omega
  · show (32 + rxLength record + 3) / 4 * 4 < 2 ^ 15
    omega

/-- Records that start at the same place are the same. -/
theorem startOf_inj (records : ∀ record ∈ written, RxRecord record) (before : count ≤ other)
    (inside : other ≤ written.length) (same : startOf written other ≤ startOf written count) :
    count = other := by
  rcases Nat.lt_or_eq_of_le before with less | equal
  · have next := startOf_succ (Nat.lt_of_lt_of_le less inside)
    have right := records _ (List.getElem_mem (Nat.lt_of_lt_of_le less inside))
    have positive : 0 < written[count].length := by
      have room := right.length.1
      have some : 0 < rxPrivHdrLen := by decide
      omega
    have reached := startOf_mono written less
    rw [Nat.succ_eq_add_one, next] at reached
    omega
  · exact equal

end Records

/-- The byte positions of what the card has written: the host has given it up to the start of the
record `first`, from there `kept` bytes are in the FIFO, and `unread` bytes are on the card. The
FIFO shows the records up to `ready`. -/
structure Flow (ring : RxRing) (first ready kept unread : Nat) : Prop where
  records : ∀ record ∈ ring.written, RxRecord record
  order : first ≤ ready
  inside : ready ≤ ring.written.length
  length : ring.written.flatten.length = startOf ring.written first + kept + unread
  short : kept < rxFifoSize
  near : unread < rxmaxOffset
  fdh : ring.fdh = startOf ring.written first % rxFifoSize
  fdt : ring.fdt = startOf ring.written ready % rxFifoSize
  offset : ring.rxHostOffset = (startOf ring.written first + kept) % rxmaxOffset
  cardOffset : ring.cardOffset = (startOf ring.written first + kept + unread) % rxmaxOffset
  fifo : cells rxFifoSize (fun place => ring.fdb place) (startOf ring.written first) kept =
    (ring.written.flatten.drop (startOf ring.written first)).take kept
  card : cells rxmaxOffset ring.card (startOf ring.written first + kept) unread =
    ring.written.flatten.drop (startOf ring.written first + kept)

/-- Where the copy stands between the positions. -/
def CopyAt (written : List (List UInt8)) (first ready kept : Nat) : RxCopy → Prop
  | .out => startOf written ready = startOf written first + kept
  | .drain rxFifoFw _ =>
    startOf written ready = startOf written first + kept ∧
      ∃ last ≤ written.length, startOf written ready < startOf written last ∧
        rxFifoFw = startOf written last % rxmaxOffset
  | .read rxFifoFdt remainLen rxTotalLen _ =>
    rxFifoFdt = (startOf written first + kept) % rxFifoSize ∧ 0 < remainLen ∧
      remainLen ≤ rxTotalLen ∧
      startOf written ready + rxTotalLen = startOf written first + kept + remainLen ∧
      kept + remainLen < rxFifoSize ∧ rxTotalLen ≤ rxmaxOffset ∧
      ∃ last ≤ written.length, startOf written last = startOf written first + kept + remainLen
  | .copied rxTotalLen _ =>
    startOf written ready + rxTotalLen = startOf written first + kept ∧ rxTotalLen ≤ rxmaxOffset ∧
      ∃ last ≤ written.length, startOf written last = startOf written first + kept

/-- Where `hal_rx_thread` stands. -/
def ThreadAt (written passed : List (List UInt8)) (first ready : Nat) : Option (Nat × Nat) → Prop
  | none => passed = (written.take first).map rxFrame
  | some (rxFifoFdh, rxFifoFdt) =>
    ∃ next last, first ≤ next ∧ next ≤ last ∧ last ≤ ready ∧
      rxFifoFdh = startOf written next % rxFifoSize ∧
      rxFifoFdt = startOf written last % rxFifoSize ∧ passed = (written.take next).map rxFrame

/-- The FIFO, the card and both threads agree on the positions. -/
structure RingInv (ring : RxRing) (first ready kept unread : Nat) : Prop where
  flow : Flow ring first ready kept unread
  copy : CopyAt ring.written first ready kept ring.copy
  thread : ThreadAt ring.written ring.passed first ready ring.thread

section Positions

variable {ring : RxRing} {first ready kept unread next last count a d l : Nat}

theorem circleSubtract2_mod (some : 0 < d) (short : d ≤ l) :
    circleSubtract2 ((a + d) % l) (a % l) l = d := by
  have below : a % l < l := Nat.mod_lt a (Nat.lt_of_lt_of_le some short)
  have reduced : (a + d) % l = if a % l + d < l then a % l + d else a % l + d - l := by
    rw [← Nat.mod_add_mod]
    split
    · exact Nat.mod_eq_of_lt (by assumption)
    · rw [Nat.mod_eq_sub_mod (by omega), Nat.mod_eq_of_lt (by omega)]
  rw [reduced, circleSubtract2]
  split <;> split <;> omega

theorem circleAddition2_mod (short : d ≤ l) (some : 0 < l) (small : 2 * l < 2 ^ 32) :
    circleAddition2 (a % l) d l = (a + d) % l := by
  rw [circleAddition2_eq (Nat.mod_lt a some) short small, Nat.mod_add_mod]

theorem Flow.upTo (copy : CopyAt ring.written first ready kept ring.copy) :
    startOf ring.written ready ≤ startOf ring.written first + kept := by
  cases place : ring.copy with
  | out =>
    rw [place] at copy
    exact Nat.le_of_eq copy
  | drain rxFifoFw locals =>
    rw [place] at copy
    exact Nat.le_of_eq copy.1
  | read rxFifoFdt remainLen rxTotalLen locals =>
    rw [place] at copy
    obtain ⟨-, -, part, sum, -⟩ := copy
    omega
  | copied rxTotalLen locals =>
    rw [place] at copy
    have sum := copy.1
    omega

theorem Flow.backlog (flow : Flow ring first ready kept unread) : ring.backlog = unread := by
  rw [RxRing.backlog, flow.offset, flow.cardOffset, Ring.span_mod flow.near]

/-- A pointer that the card shows is the end of a record. -/
theorem Flow.shown (flow : Flow ring first ready kept unread) {offset : Nat}
    (shows : ring.Shows offset) : ∃ last ≤ ring.written.length,
      startOf ring.written first + kept ≤ startOf ring.written last ∧
        offset = startOf ring.written last % rxmaxOffset := by
  obtain ⟨below, count, inside, few, same⟩ := shows
  have parts := startOf_add_drop ring.written count
  rw [flow.backlog] at few
  rw [flow.length] at parts
  refine ⟨count, inside, by omega, ?_⟩
  rw [flow.cardOffset, ← parts] at same
  rw [← Nat.mod_eq_of_lt below]
  exact Nat.ModEq.add_right_cancel' _ same

private theorem bytes_eq_cells (start : Nat) (short : count ≤ rxFifoSize) :
    ring.bytes (start % rxFifoSize) count =
      cells rxFifoSize (fun place => ring.fdb place) start count := by
  have below : start % rxFifoSize < rxFifoSize := Nat.mod_lt _ (by decide)
  rw [RxRing.bytes]
  split
  · exact Ring.load_eq_cells (by omega)
  · exact Ring.loads_eq_cells (by decide) (by omega) short

/-- What the FIFO has of a record that it shows. -/
theorem Flow.record (flow : Flow ring first ready kept unread)
    (copy : CopyAt ring.written first ready kept ring.copy) (after : first ≤ next)
    (before : next < ready) (inside : next < ring.written.length)
    (short : count ≤ ring.written[next].length) :
    ring.bytes (startOf ring.written next % rxFifoSize) count =
      ring.written[next].take count := by
  obtain ⟨ahead, start⟩ := Nat.exists_eq_add_of_le (startOf_mono ring.written after)
  have reached := Nat.le_trans (startOf_mono _ before) (Flow.upTo copy)
  rw [Nat.succ_eq_add_one, startOf_succ inside, start] at reached
  obtain ⟨rest, room⟩ := Nat.exists_eq_add_of_le (show ahead + count ≤ kept by omega)
  have fifo := flow.fifo
  have whole := flow.short
  rw [room, Nat.add_assoc] at fifo
  have held := congrArg (List.take count) (congrArg (List.drop ahead) fifo)
  rw [Ring.cells_drop, Ring.cells_take (Nat.le_add_right _ _), List.drop_take, List.drop_drop,
    Nat.add_sub_cancel_left, List.take_take, Nat.min_eq_left (Nat.le_add_right _ _)] at held
  rw [bytes_eq_cells _ (by omega), start, held, ← start]
  conv => rhs; rw [← drop_startOf inside]
  rw [List.take_take, Nat.min_eq_left short]

/-- The bytes up to a record that the FIFO shows are given up. -/
theorem Flow.giveUp (flow : Flow ring first ready kept unread)
    (copy : CopyAt ring.written first ready kept ring.copy) (after : first ≤ next)
    (before : next ≤ ready) : ∃ rest, startOf ring.written first + kept =
        startOf ring.written next + rest ∧
      ∀ thread, Flow { ring with fdh := startOf ring.written next % rxFifoSize, thread } next ready
        rest unread := by
  obtain ⟨ahead, start⟩ := Nat.exists_eq_add_of_le (startOf_mono ring.written after)
  have reached := Nat.le_trans (startOf_mono _ before) (Flow.upTo copy)
  obtain ⟨rest, room⟩ := Nat.exists_eq_add_of_le (show ahead ≤ kept by omega)
  have same : startOf ring.written first + kept = startOf ring.written next + rest := by omega
  refine ⟨rest, same, fun thread => ?_⟩
  have fifo := congrArg (List.drop ahead) flow.fifo
  rw [room, Ring.cells_drop, List.drop_take, List.drop_drop, Nat.add_sub_cancel_left, ← start]
    at fifo
  have whole := flow.short
  exact { flow with
    order := before
    length := same ▸ flow.length
    short := by omega
    fdh := rfl
    offset := same ▸ flow.offset
    cardOffset := same ▸ flow.cardOffset
    fifo
    card := same ▸ flow.card }

end Positions

section Steps

variable {conf : IrqConf} {ring : RxRing} {first ready kept unread : Nat} {record : List UInt8}

private theorem CopyAt.append {written : List (List UInt8)} {copy : RxCopy}
    (place : CopyAt written first ready kept copy) (order : first ≤ ready)
    (inside : ready ≤ written.length) (record : List UInt8) :
    CopyAt (written ++ [record]) first ready kept copy := by
  have longer : written.length ≤ (written ++ [record]).length := by
    rw [List.length_append]
    exact Nat.le_add_right _ _
  have firstStart := startOf_append (Nat.le_trans order inside) [record]
  have readyStart := startOf_append inside [record]
  have stop : ∀ (property : Nat → Prop),
      (∃ last ≤ written.length, property (startOf written last)) →
      ∃ last ≤ (written ++ [record]).length, property (startOf (written ++ [record]) last) := by
    rintro property ⟨last, within, holds⟩
    refine ⟨last, Nat.le_trans within longer, ?_⟩
    rwa [startOf_append within]
  cases copy with
  | out =>
    rw [CopyAt, firstStart, readyStart]
    exact place
  | drain rxFifoFw locals =>
    rw [CopyAt, firstStart, readyStart]
    exact place.imp_right fun ends => stop
      (fun place => startOf written ready < place ∧ rxFifoFw = place % rxmaxOffset) ends
  | read rxFifoFdt remainLen rxTotalLen locals =>
    rw [CopyAt, firstStart, readyStart]
    obtain ⟨fdt, some, part, sum, short, ring, ends⟩ := place
    exact ⟨fdt, some, part, sum, short, ring, stop
      (fun place => place = startOf written first + kept + remainLen) ends⟩
  | copied rxTotalLen locals =>
    rw [CopyAt, firstStart, readyStart]
    obtain ⟨sum, ring, ends⟩ := place
    exact ⟨sum, ring, stop (fun place => place = startOf written first + kept) ends⟩

theorem RingInv.write (inv : RingInv ring first ready kept unread) (right : RxRecord record)
    (room : ring.backlog + record.length < rxmaxOffset) :
    RingInv (ring.write record) first ready kept (unread + record.length) := by
  have flow := inv.flow
  have within := Nat.le_trans flow.order flow.inside
  have firstStart := startOf_append within [record]
  have readyStart := startOf_append flow.inside [record]
  have flat : (ring.written ++ [record]).flatten = ring.written.flatten ++ record := by simp
  have long := flow.length
  rw [flow.backlog] at room
  refine ⟨?_, inv.copy.append flow.order flow.inside record, ?_⟩
  · constructor
    case records =>
      intro other member
      rcases List.mem_append.mp member with before | last
      · exact flow.records other before
      · rwa [List.mem_singleton.mp last]
    case order => exact flow.order
    case inside =>
      rw [RxRing.write, List.length_append]
      exact Nat.le_trans flow.inside (Nat.le_add_right _ _)
    case length =>
      rw [RxRing.write, flat, firstStart, List.length_append, long, Nat.add_assoc]
    case short => exact flow.short
    case near => exact room
    case fdh => exact flow.fdh.trans (congrArg (· % rxFifoSize) firstStart.symm)
    case fdt => exact flow.fdt.trans (congrArg (· % rxFifoSize) readyStart.symm)
    case offset =>
      rw [RxRing.write, firstStart]
      exact flow.offset
    case cardOffset =>
      show (ring.cardOffset + record.length) % rxmaxOffset = _
      rw [RxRing.write, firstStart, flow.cardOffset, Nat.mod_add_mod,
        Nat.add_assoc (startOf ring.written first + kept)]
    case fifo =>
      rw [RxRing.write, firstStart, flat, List.drop_append_of_le_length (by omega),
        List.take_append_of_le_length (by rw [List.length_drop]; omega)]
      exact flow.fifo
    case card =>
      rw [RxRing.write, firstStart, flat, List.drop_append_of_le_length (by omega), ← flow.card,
        flow.cardOffset]
      exact Ring.cells_put_end (Nat.le_of_lt room)
  · have thread := inv.thread
    rw [RxRing.write]
    cases place : ring.thread with
    | none =>
      rw [place] at thread
      rw [ThreadAt, List.take_append_of_le_length within]
      exact thread
    | some pointers =>
      rw [place] at thread
      obtain ⟨next, last, after, between, before, fdh, fdt, passed⟩ := thread
      have lastInside := Nat.le_trans before flow.inside
      refine ⟨next, last, after, between, before, ?_, ?_, ?_⟩
      · rwa [startOf_append (Nat.le_trans between lastInside)]
      · rwa [startOf_append lastInside]
      · rwa [List.take_append_of_le_length (Nat.le_trans between lastInside)]

theorem RingInv.irq (inv : RingInv ring first ready kept unread) (out : ring.copy = .out)
    (rxFwPtr : Nat) (bhalOpen : Bool) (hostWrapperLen rxDrainIterMax : Int)
    (shows : bhalOpen = true → ring.Shows (rxFwPtr * 4)) :
    RingInv (ring.irq rxFwPtr bhalOpen hostWrapperLen rxDrainIterMax) first ready kept unread := by
  rw [RxRing.irq]
  split
  · exact inv
  · rename_i wanted
    rw [not_or, Bool.not_eq_true', Bool.not_eq_false] at wanted
    obtain ⟨ahead, opened⟩ := wanted
    obtain ⟨last, inside, after, same⟩ := inv.flow.shown (shows opened)
    have copy := inv.copy
    rw [out] at copy
    refine ⟨{ inv.flow with }, ⟨copy, last, inside, ?_, same⟩, inv.thread⟩
    rw [copy]
    refine Nat.lt_of_le_of_ne after fun equal => ahead ?_
    rw [inv.flow.offset, equal, same]

/-- The room of the FIFO, which is never full. -/
theorem Flow.room (flow : Flow ring first ready kept unread)
    (copied : startOf ring.written ready = startOf ring.written first + kept) :
    circleSubtract2 ring.fdh ring.fdt rxFifoSize = rxFifoSize - kept := by
  have short := flow.short
  have round : startOf ring.written first + kept + (rxFifoSize - kept) =
      startOf ring.written first + rxFifoSize := by omega
  have room := circleSubtract2_mod (a := startOf ring.written first + kept) (l := rxFifoSize)
    (Nat.sub_pos_of_lt short) (Nat.sub_le _ _)
  rwa [round, Nat.add_mod_right, ← flow.fdh, ← copied, ← flow.fdt] at room

theorem RingInv.drain (inv : RingInv ring first ready kept unread) {rxFifoFw : Nat}
    {locals : RxLocals} (place : ring.copy = .drain rxFifoFw locals) :
    RingInv (ring.drain rxFifoFw locals) first ready kept unread := by
  have flow := inv.flow
  have copy := inv.copy
  rw [place] at copy
  obtain ⟨copied, last, inside, after, same⟩ := copy
  obtain ⟨total, stop⟩ := Nat.exists_eq_add_of_lt after
  have most := startOf_le ring.written last
  have long := flow.length
  have near := flow.near
  rw [copied] at stop
  have shown : circleSubtract2 rxFifoFw ring.rxHostOffset rxmaxOffset = total + 1 := by
    rw [same, flow.offset, stop, Nat.add_assoc]
    exact circleSubtract2_mod (Nat.succ_pos total) (by omega)
  rw [RxRing.drain]
  simp only [shown, flow.room copied]
  split
  · exact ⟨{ flow with }, copied, inv.thread⟩
  · rename_i room
    refine ⟨{ flow with }, ⟨?_, Nat.succ_pos total, Nat.le_refl _, ?_, ?_, ?_, last, inside, stop⟩,
      inv.thread⟩
    · rw [flow.fdt, copied]
    · rw [copied]
    · omega
    · omega

/-- The cells that a read brings are the next bytes that the card has written. -/
theorem Flow.brought (flow : Flow ring first ready kept unread) {readLen : Nat}
    (short : readLen ≤ unread) :
    (List.range readLen).map (fun index => ring.card ((ring.rxHostOffset + index) % rxmaxOffset)) =
      (ring.written.flatten.drop (startOf ring.written first + kept)).take readLen := by
  rw [← flow.card, Ring.cells_take short, ← Ring.cells_mod, ← flow.offset]
  rfl

theorem RingInv.readOnce (inv : RingInv ring first ready kept unread)
    {rxFifoFdt remainLen rxTotalLen : Nat} {locals : RxLocals}
    (place : ring.copy = .read rxFifoFdt remainLen rxTotalLen locals)
    (aligned : ReadAligned conf ring (.read .done)) :
    (∃ more rest, RingInv (ring.readOnce conf .done rxFifoFdt remainLen rxTotalLen locals) first
        ready more rest) ∧
      cells rxFifoSize
          (fun index => (ring.readOnce conf .done rxFifoFdt remainLen rxTotalLen locals).fdb index)
          (startOf ring.written first) kept =
        cells rxFifoSize (fun index => ring.fdb index) (startOf ring.written first) kept := by
  have flow := inv.flow
  have copy := inv.copy
  rw [place] at copy
  obtain ⟨fdt, some, part, sum, short, ringFits, last, inside, stop⟩ := copy
  have below : rxFifoFdt < rxFifoSize := by
    rw [fdt]
    exact Nat.mod_lt _ (by decide)
  rw [ReadAligned, place] at aligned
  obtain ⟨readLen, wrapper, lens, positive, most, straight⟩ := LensAligned.lens aligned below some
  have written := startOf_le ring.written last
  have long := flow.length
  obtain ⟨rest, left⟩ := Nat.exists_eq_add_of_le (show readLen ≤ unread by omega)
  rw [fdt] at straight
  have filled := Ring.cells_fill_end ring.fdb
    (fun index => ring.card ((ring.rxHostOffset + index) % rxmaxOffset)) straight (by omega)
  rw [← fdt] at filled
  rw [RxRing.readOnce]
  simp only [lens, hiRcvFrame, Flat.fill_none, Nat.add_zero]
  constructor
  · refine ⟨kept + readLen, rest, ?_, ?_, inv.thread⟩
    · refine { flow with
        length := ?_, short := by omega, near := ?_, offset := ?_, cardOffset := ?_, fifo := ?_
        card := ?_ }
      · show ring.written.flatten.length = startOf ring.written first + (kept + readLen) + rest
        omega
      · have near := flow.near
        omega
      · rw [flow.offset, circleAddition2_mod (by omega) (by decide) (by decide), Nat.add_assoc]
      · show ring.cardOffset = (startOf ring.written first + (kept + readLen) + rest) % rxmaxOffset
        rw [flow.cardOffset, left]
        congr 1
        omega
      · rw [filled, flow.brought (by omega), flow.fifo, ← List.drop_drop, ← List.take_add]
      · have card := congrArg (List.drop readLen) flow.card
        rwa [left, Ring.cells_drop, List.drop_drop, Nat.add_assoc] at card
    · show CopyAt ring.written first ready (kept + readLen) (if _ then _ else _)
      split
      · rename_i all
        exact ⟨by omega, ringFits, last, inside, by omega⟩
      · refine ⟨?_, by omega, by omega, by omega, by omega, ringFits, last, inside, by omega⟩
        rw [fdt, circleAddition2_mod (by omega) (by decide) (by decide), Nat.add_assoc]
  · have before := congrArg (List.take kept) filled
    rwa [Ring.cells_take (Nat.le_add_right _ _), List.take_left' Ring.cells_length] at before

theorem RingInv.publish (inv : RingInv ring first ready kept unread) {rxTotalLen : Nat}
    {locals : RxLocals} (place : ring.copy = .copied rxTotalLen locals) (rxFwPtr : Nat)
    (shows : locals.drainIter < locals.drainIterMax → ring.Shows (rxFwPtr * 4)) :
    ∃ last, RingInv (ring.publish false rxFwPtr rxTotalLen locals) first last kept unread := by
  have flow := inv.flow
  have copy := inv.copy
  rw [place] at copy
  obtain ⟨sum, ringFits, last, inside, stop⟩ := copy
  have later : ready ≤ last := by
    by_contra before
    have same := startOf_inj flow.records (Nat.le_of_not_le before) flow.inside (by omega)
    exact before (Nat.le_of_eq same.symm)
  have shown : circleAddition2 ring.fdt rxTotalLen rxFifoSize =
      startOf ring.written last % rxFifoSize := by
    rw [flow.fdt, circleAddition2_mod (Nat.le_trans ringFits (by decide)) (by decide) (by decide),
      sum, stop]
  refine ⟨last, ?_, ?_, ?_⟩
  · refine { flow with order := Nat.le_trans flow.order later, inside, fdt := ?_ }
    rw [RxRing.publish]
    simp only [Bool.false_eq_true, if_false]
    exact shown
  · rw [RxRing.publish]
    dsimp only
    split
    · rename_i again
      obtain ⟨next, nextInside, after, same⟩ := flow.shown (shows again.1)
      refine ⟨stop, next, nextInside, ?_, same⟩
      rw [stop]
      refine Nat.lt_of_le_of_ne after fun equal => again.2 ?_
      rw [flow.offset, equal, same]
    · exact stop
  · have thread := inv.thread
    rw [RxRing.publish]
    dsimp only
    cases waits : ring.thread with
    | none =>
      rw [waits] at thread
      exact thread
    | some pointers =>
      rw [waits] at thread
      obtain ⟨next, stops, after, between, before, rest⟩ := thread
      exact ⟨next, stops, after, between, Nat.le_trans before later, rest⟩

private theorem CopyAt.giveUp {written : List (List UInt8)} {copy : RxCopy} {next rest : Nat}
    (place : CopyAt written first ready kept copy)
    (same : startOf written first + kept = startOf written next + rest) (less : rest ≤ kept) :
    CopyAt written next ready rest copy := by
  cases copy with
  | out =>
    rw [CopyAt, ← same]
    exact place
  | drain rxFifoFw locals =>
    rw [CopyAt, ← same]
    exact place
  | read rxFifoFdt remainLen rxTotalLen locals =>
    rw [CopyAt, ← same]
    obtain ⟨fdt, some, part, sum, short, ends⟩ := place
    exact ⟨fdt, some, part, sum, by omega, ends⟩
  | copied rxTotalLen locals =>
    rw [CopyAt, ← same]
    exact place

/-- When `hal_rx_thread` waits again, what it has passed on is given up. -/
theorem RingInv.wait (inv : RingInv ring first ready kept unread) {next : Nat}
    (after : first ≤ next) (before : next ≤ ready)
    (passed : ring.passed = (ring.written.take next).map rxFrame) :
    ∃ rest, RingInv { ring with fdh := startOf ring.written next % rxFifoSize, thread := none } next
      ready rest unread := by
  obtain ⟨rest, same, flow⟩ := inv.flow.giveUp inv.copy after before
  have ahead := startOf_mono ring.written after
  exact ⟨rest, flow none, inv.copy.giveUp same (by omega), passed⟩

theorem RingInv.wake (inv : RingInv ring first ready kept unread) (waits : ring.thread = none) :
    RingInv { ring with thread := some (ring.fdh, ring.fdt) } first ready kept unread := by
  have thread := inv.thread
  rw [waits] at thread
  exact ⟨{ inv.flow with }, inv.copy, first, ready, Nat.le_refl first, inv.flow.order,
    Nat.le_refl ready, inv.flow.fdh, inv.flow.fdt, thread⟩

/-- The two ends of what `hal_rx_thread` sees are the same only when it sees nothing. -/
theorem Flow.sees (flow : Flow ring first ready kept unread)
    (copy : CopyAt ring.written first ready kept ring.copy) {next last : Nat} (after : first ≤ next)
    (less : next < last) (before : last ≤ ready) :
    startOf ring.written next % rxFifoSize ≠ startOf ring.written last % rxFifoSize := by
  have reached := Nat.le_trans (startOf_mono _ before) (Flow.upTo copy)
  have begun := startOf_mono ring.written after
  have short := flow.short
  have apart : startOf ring.written next < startOf ring.written last := by
    refine Nat.lt_of_not_le fun same => ?_
    have equal := startOf_inj flow.records (Nat.le_of_lt less) (Nat.le_trans before flow.inside)
      same
    exact absurd equal (Nat.ne_of_lt less)
  exact (Ring.mod_ne apart (by omega)).symm

/-- A turn of `hal_rx_thread` on a record whose descriptor it reads. -/
theorem RxRing.parse_record (ring : RxRing) (right : RxRecord record) {rxFifoFdh rxFifoFdt : Nat}
    (desc : ring.bytes rxFifoFdh rxPrivHdrLen = record.take rxPrivHdrLen)
    (apart : rxFifoFdh ≠ rxFifoFdt)
    (seen : record.length ≤ circleSubtract2 rxFifoFdt rxFifoFdh rxFifoSize) (allocated : Bool) :
    ring.parse allocated rxFifoFdh rxFifoFdt =
      if allocated then
        { ring with
          thread := some (circleAddition2 rxFifoFdh record.length rxFifoSize, rxFifoFdt)
          passed := ring.passed ++ [ring.bytes rxFifoFdh (rxLength record + rxPrivHdrLen)] }
      else { ring with fdh := rxFifoFdh, thread := none } := by
  have some := right.some
  obtain ⟨whole, short⟩ := right.length
  have header : rxPrivHdrLen = 32 := rfl
  have size : rxFifoSize = 2 ^ 17 * 3 + 2 ^ 16 := rfl
  rw [RxRing.parse, if_neg apart]
  simp only [desc, rxLength_take (Nat.le_refl _), upload2hostFlag_take (Nat.le_refl _),
    rxMpduLen_take (Nat.le_refl _), ← right.whole]
  rw [if_neg (by omega), right.upload]
  cases allocated with
  | false => rfl
  | true => rfl

/-- A turn of `hal_rx_thread` passes on the next record that it sees, if there is memory for it. -/
theorem Flow.parse (flow : Flow ring first ready kept unread)
    (copy : CopyAt ring.written first ready kept ring.copy) {next last : Nat} (after : first ≤ next)
    (less : next < last) (before : last ≤ ready) (inside : next < ring.written.length)
    (allocated : Bool) :
    ring.parse allocated (startOf ring.written next % rxFifoSize)
        (startOf ring.written last % rxFifoSize) =
      if allocated then
        { ring with
          thread := some (startOf ring.written (next + 1) % rxFifoSize,
            startOf ring.written last % rxFifoSize)
          passed := ring.passed ++ [rxFrame ring.written[next]] }
      else { ring with fdh := startOf ring.written next % rxFifoSize, thread := none } := by
  have right := flow.records _ (List.getElem_mem inside)
  have whole := right.length.1
  have short := flow.short
  have reached := Nat.le_trans (startOf_mono _ before) (Flow.upTo copy)
  have begun := startOf_mono ring.written after
  have step := startOf_succ inside
  have past := startOf_mono ring.written less
  rw [Nat.succ_eq_add_one, step] at past
  obtain ⟨ahead, stop⟩ := Nat.exists_eq_add_of_le
    (startOf_mono ring.written (Nat.le_of_lt less))
  have header : 0 < rxPrivHdrLen := by decide
  have desc := flow.record copy after (Nat.lt_of_lt_of_le less before) inside
    (show rxPrivHdrLen ≤ ring.written[next].length by omega)
  have frame := flow.record copy after (Nat.lt_of_lt_of_le less before) inside whole
  have total : circleSubtract2 (startOf ring.written last % rxFifoSize)
      (startOf ring.written next % rxFifoSize) rxFifoSize = ahead := by
    rw [stop]
    exact circleSubtract2_mod (by omega) (by omega)
  have place : circleAddition2 (startOf ring.written next % rxFifoSize) ring.written[next].length
      rxFifoSize = startOf ring.written (next + 1) % rxFifoSize := by
    rw [step]
    exact circleAddition2_mod (by omega) (by decide) (by decide)
  rw [ring.parse_record right desc (flow.sees copy after less before) (by omega), frame, place,
    rxFrame]

private theorem RingInv.parse (inv : RingInv ring first ready kept unread)
    {rxFifoFdh rxFifoFdt : Nat}
    (runs : ring.thread = some (rxFifoFdh, rxFifoFdt)) (allocated : Bool) :
    ∃ start rest, RingInv (ring.parse allocated rxFifoFdh rxFifoFdt) start ready rest unread := by
  have flow := inv.flow
  have thread := inv.thread
  rw [runs] at thread
  obtain ⟨next, last, after, between, before, fdh, fdt, passed⟩ := thread
  obtain ⟨rest, waits⟩ := inv.wait after (Nat.le_trans between before) passed
  rw [fdh, fdt]
  rcases Nat.lt_or_eq_of_le between with less | equal
  · have inside := Nat.lt_of_lt_of_le less (Nat.le_trans before flow.inside)
    rw [flow.parse inv.copy after less before inside]
    cases allocated with
    | false => exact ⟨next, rest, waits⟩
    | true =>
      rw [if_pos rfl]
      refine ⟨first, kept, { flow with }, inv.copy, next + 1, last, Nat.le_succ_of_le after, less,
        before, rfl, rfl, ?_⟩
      rw [List.take_succ_eq_append_getElem inside, List.map_append]
      exact congrArg (· ++ [rxFrame ring.written[next]]) passed
  · rw [equal, RxRing.parse, if_pos rfl, ← equal]
    exact ⟨next, rest, waits⟩

private theorem RingInv.tail (inv : RingInv ring first ready kept unread) :
    ring.tail = (startOf ring.written first + kept) % rxFifoSize := by
  have fdt := inv.flow.fdt
  have copy := inv.copy
  rw [RxRing.tail]
  cases place : ring.copy with
  | out =>
    rw [place] at copy
    rw [← copy]
    exact fdt
  | drain rxFifoFw locals =>
    rw [place] at copy
    rw [← copy.1]
    exact fdt
  | read rxFifoFdt remainLen rxTotalLen locals =>
    rw [place] at copy
    exact copy.1
  | copied rxTotalLen locals =>
    rw [place] at copy
    obtain ⟨sum, short, -⟩ := copy
    rw [← sum]
    dsimp only
    rw [fdt]
    exact circleAddition2_mod (Nat.le_trans short (by decide)) (by decide) (by decide)

/-- The cells that are held are those of the bytes that are kept. -/
theorem RingInv.cells (inv : RingInv ring first ready kept unread) (fdb : Int → UInt8) :
    Ring.cells rxFifoSize (fun index => fdb index) ring.fdh
        (Ring.span rxFifoSize ring.fdh ring.tail) =
      Ring.cells rxFifoSize (fun index => fdb index) (startOf ring.written first) kept := by
  rw [inv.tail, inv.flow.fdh, Ring.span_mod inv.flow.short, Ring.cells_mod]

private theorem RxRing.parse_fdb {allocated : Bool} {rxFifoFdh rxFifoFdt : Nat} :
    (ring.parse allocated rxFifoFdh rxFifoFdt).fdb = ring.fdb := by
  dsimp only [RxRing.parse]
  repeat' split
  all_goals rfl

/-- A step of the card or of a thread keeps the positions, and what the FIFO holds. -/
theorem RingInv.step (inv : RingInv ring first ready kept unread) {event : RingEvent}
    (right : CardRight ring event) (aligned : ReadAligned conf ring event) :
    (∃ start last more rest, RingInv (ringStep conf ring event) start last more rest) ∧
      KeepsHeld conf ring event := by
  cases event with
  | write record => exact ⟨⟨_, _, _, _, inv.write right.1 right.2⟩, rfl⟩
  | irq rxFwPtr bhalOpen hostWrapperLen rxDrainIterMax =>
    rw [KeepsHeld, ringStep]
    cases place : ring.copy with
    | out =>
      rw [CardRight, place] at right
      refine ⟨⟨_, _, _, _, inv.irq place rxFwPtr bhalOpen hostWrapperLen rxDrainIterMax right⟩, ?_⟩
      dsimp only
      rw [RxRing.irq]
      split <;> rfl
    | _ => exact ⟨⟨_, _, _, _, inv⟩, rfl⟩
  | drain =>
    rw [KeepsHeld, ringStep]
    cases place : ring.copy with
    | drain rxFifoFw locals =>
      refine ⟨⟨_, _, _, _, inv.drain place⟩, ?_⟩
      dsimp only
      rw [RxRing.drain]
      split <;> rfl
    | _ => exact ⟨⟨_, _, _, _, inv⟩, rfl⟩
  | read outcome =>
    rw [KeepsHeld, ringStep]
    cases place : ring.copy with
    | read rxFifoFdt remainLen rxTotalLen locals =>
      rw [CardRight, place] at right
      obtain rfl := right
      obtain ⟨⟨more, rest, next⟩, kept⟩ := inv.readOnce place aligned
      refine ⟨⟨_, _, _, _, next⟩, ?_⟩
      rw [RxRing.held, inv.cells, inv.cells]
      exact kept
    | _ => exact ⟨⟨_, _, _, _, inv⟩, rfl⟩
  | publish suspended rxFwPtr =>
    rw [KeepsHeld, ringStep]
    cases place : ring.copy with
    | copied rxTotalLen locals =>
      rw [CardRight, place] at right
      obtain ⟨rfl, shows⟩ := right
      obtain ⟨last, next⟩ := inv.publish place rxFwPtr shows
      exact ⟨⟨_, _, _, _, next⟩, rfl⟩
    | _ => exact ⟨⟨_, _, _, _, inv⟩, rfl⟩
  | wake =>
    rw [KeepsHeld, ringStep]
    cases waits : ring.thread with
    | none => exact ⟨⟨_, _, _, _, inv.wake waits⟩, rfl⟩
    | some pointers => exact ⟨⟨_, _, _, _, inv⟩, rfl⟩
  | parse allocated =>
    rw [KeepsHeld, ringStep]
    cases runs : ring.thread with
    | none => exact ⟨⟨_, _, _, _, inv⟩, rfl⟩
    | some pointers =>
      obtain ⟨start, rest, next⟩ := inv.parse runs allocated
      refine ⟨⟨_, _, _, _, next⟩, ?_⟩
      rw [RxRing.held, RxRing.parse_fdb]

/-- When nothing is on the way, the positions are at the end of what was written. -/
theorem RingInv.atEnd (inv : RingInv ring first ready kept unread) (out : ring.copy = .out)
    (empty : ring.fdh = ring.fdt) (read : ring.rxHostOffset = ring.cardOffset) :
    first = ring.written.length ∧ kept = 0 ∧ unread = 0 := by
  have flow := inv.flow
  have copy := inv.copy
  rw [out] at copy
  have none : unread = 0 := by
    have inside : ring.cardOffset < rxmaxOffset := by
      rw [flow.cardOffset]
      exact Nat.mod_lt _ (by decide)
    rw [← flow.backlog, RxRing.backlog, read, Ring.span_self inside]
  have all : kept = 0 := by
    have inside : ring.fdt < rxFifoSize := by
      rw [flow.fdt]
      exact Nat.mod_lt _ (by decide)
    have span : Ring.span rxFifoSize (startOf ring.written first % rxFifoSize)
        ((startOf ring.written first + kept) % rxFifoSize) = kept := Ring.span_mod flow.short
    rw [← copy, ← flow.fdh, ← flow.fdt, empty, Ring.span_self inside] at span
    exact span.symm
  have long := flow.length
  rw [none, all, ← startOf_length] at long
  have within := Nat.le_trans flow.order flow.inside
  exact ⟨startOf_inj flow.records within (Nat.le_refl _) (Nat.le_of_eq long), all, none⟩

theorem RingInv.fifo (inv : RingInv ring first ready kept unread) : ring.Fifo := by
  constructor
  case order =>
    have thread := inv.thread
    cases waits : ring.thread with
    | none =>
      rw [waits] at thread
      rw [thread]
      exact (List.take_prefix first _).map rxFrame
    | some pointers =>
      rw [waits] at thread
      obtain ⟨next, -, -, -, -, -, -, passed⟩ := thread
      rw [passed]
      exact (List.take_prefix next _).map rxFrame
  case all =>
    intro out waits empty read
    have thread := inv.thread
    rw [waits, (inv.atEnd out empty read).1] at thread
    rw [thread, List.take_length]

/-- The positions are kept over a run, and what the FIFO holds in each of its steps. -/
theorem RingInv.run {events : List RingEvent} (inv : RingInv ring first ready kept unread)
    (right : Machine.Along (ringStep conf)
      (fun ring event => CardRight ring event ∧ ReadAligned conf ring event) ring events) :
    (∃ start last more rest,
        RingInv (Machine.run (ringStep conf) ring events) start last more rest) ∧
      Machine.Along (ringStep conf) (KeepsHeld conf) ring events := by
  induction events generalizing ring first ready kept unread with
  | nil => exact ⟨⟨_, _, _, _, inv⟩, trivial⟩
  | cons event rest induction =>
    obtain ⟨⟨card, aligned⟩, behind⟩ := right
    obtain ⟨⟨_, _, _, _, next⟩, keeps⟩ := inv.step card aligned
    obtain ⟨reached, along⟩ := induction next behind
    exact ⟨reached, keeps, along⟩

theorem freshRing_inv : RingInv freshRing 0 0 0 0 := by
  refine ⟨?_, rfl, rfl⟩
  constructor
  case records => exact fun _ member => absurd member List.not_mem_nil
  all_goals first | rfl | decide

end Steps

end W522a.Hal
