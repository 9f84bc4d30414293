import W522a.Hal.RxRingLaw

/-!
The FIFO passes on what the card writes, in its order. A read that `sdio_align_size` makes longer at
the end of the FIFO takes the rest of its bytes from behind the ring, where the bus has brought
nothing; with no such read nothing is lost.
-/

namespace W522a.Hal

/-- Whole frames that the card writes are passed on in order, none of them lost or doubled, and no
read overwrites a frame that is not passed on, as long as every read is aligned. -/
theorem rx_fifo_order (conf : IrqConf) (events : List RingEvent)
    (right : Machine.Along (ringStep conf)
      (fun ring event => CardRight ring event ∧ ReadAligned conf ring event) freshRing events) :
    (Machine.run (ringStep conf) freshRing events).Fifo ∧
      Machine.Along (ringStep conf) (KeepsHeld conf) freshRing events := by
  obtain ⟨⟨first, ready, kept, unread, inv⟩, keeps⟩ := freshRing_inv.run right
  exact ⟨inv.fifo, keeps⟩

/-- A record with a frame of equal bytes. -/
def rxFilled (length : Nat) : List UInt8 :=
  List.replicate 22 0 ++ [UInt8.ofNat length, UInt8.ofNat (length / 2 ^ 8)] ++
    List.replicate 6 0 ++ [16, 0] ++ List.replicate length 1

@[simp] theorem rxFilled_length (length : Nat) : (rxFilled length).length = 32 + length := by
  simp [rxFilled]
  omega

private theorem rxLength_rxFilled {length : Nat} (short : length < 2 ^ 14) :
    rxLength (rxFilled length) = length := by
  show ((UInt8.ofNat length).toNat + 2 ^ 8 * (UInt8.ofNat (length / 2 ^ 8)).toNat) % 2 ^ 14 = _
  rw [UInt8.toNat_ofNat', UInt8.toNat_ofNat']
  omega

private theorem rxFilled_right {length : Nat} (some : 0 < length) (short : length < 2 ^ 14)
    (words : length % 4 = 0) : RxRecord (rxFilled length) := by
  have same := rxLength_rxFilled short
  constructor
  · omega
  · show (16 : UInt8).toNat.testBit 4 = true
    decide
  · rw [rxFilled_length, rxMpduLen, same]
    show 32 + length = (32 + length + 3) / 4 * 4
    omega

/-- A record of one block of function 6. -/
def rxBlock : List UInt8 := rxFilled 480

theorem rxBlock_right : RxRecord rxBlock := rxFilled_right (by decide) (by decide) (by decide)

/-- The card writes two blocks behind `count` others and shows them, the host reads them, and
`hal_rx_thread` takes them. -/
def ringRound (count : Nat) : List RingEvent :=
  let rxFwPtr := (count + 2) * 512 % rxmaxOffset / 4
  [.write rxBlock, .write rxBlock, .irq rxFwPtr true 0 1, .drain, .read .done,
    .publish false rxFwPtr, .wake, .parse true, .parse true, .parse true]

private theorem RxRing.shows_cardOffset (ring : RxRing) (inside : ring.cardOffset < rxmaxOffset) :
    ring.Shows ring.cardOffset := by
  refine ⟨inside, ring.written.length, Nat.le_refl _, ?_, ?_⟩
  · rw [List.drop_length]
    exact Nat.zero_le _
  · rw [List.drop_length]
    exact Nat.mod_eq_of_lt inside

/-- A number of blocks was written and passed on. -/
structure Rests (ring : RxRing) (count : Nat) : Prop where
  inv : RingInv ring count count 0 0
  written : ring.written = List.replicate count rxBlock
  out : ring.copy = .out
  waits : ring.thread = none

theorem startOf_blocks {count total : Nat} (inside : count ≤ total) :
    startOf (List.replicate total rxBlock) count = count * 512 := by
  rw [startOf, List.take_replicate, Nat.min_eq_left inside]
  simp [rxBlock]

/-- A read of two blocks is one that `sdio_align_size` keeps. -/
theorem twoBlocks_lens {rxFifoFdt : Nat} (inside : rxFifoFdt < rxFifoSize)
    (blocks : rxFifoFdt % 1024 = 0) :
    LensAligned usualIrqConf 0 rxFifoFdt 1024 ∧
      rxReadLens usualIrqConf 0 rxFifoFdt 1024 = (1024, 0, 0) := by
  have asked : (if readLenPerOnce + readBufferableLen < 1024 then readLenPerOnce else 1024) =
      1024 := if_neg (by decide)
  have size : rxFifoSize = 448 * 1024 := rfl
  rw [LensAligned, rxReadLens]
  dsimp only
  rw [asked]
  by_cases last : rxFifoSize - rxFifoFdt ≤ 1024
  · have all : rxFifoSize - rxFifoFdt = 1024 := by omega
    rw [if_pos last, if_pos last, all]
    exact ⟨.inl rfl, rfl⟩
  · rw [if_neg last, if_neg last]
    exact ⟨.inr rfl, rfl⟩

/-- Two blocks wait in the card, and the FIFO is empty at a place that they fit behind. -/
structure TwoWait (ring : RxRing) : Prop where
  inside : ring.cardOffset < rxmaxOffset
  apart : ring.rxHostOffset ≠ ring.cardOffset
  total : circleSubtract2 ring.cardOffset ring.rxHostOffset rxmaxOffset = 1024
  moved : circleAddition2 ring.rxHostOffset 1024 rxmaxOffset = ring.cardOffset
  room : circleSubtract2 ring.fdh ring.fdt rxFifoSize = rxFifoSize - 0
  aligned : LensAligned usualIrqConf 0 ring.fdt 1024
  lens : rxReadLens usualIrqConf 0 ring.fdt 1024 = (1024, 0, 0)

section TwoBlocks

variable {ring : RxRing} {count rxFwPtr : Nat}

private theorem Flow.twoWait (flow : Flow ring count count 0 1024)
    (written : ring.written = List.replicate (count + 2) rxBlock) (even : count % 2 = 0) :
    TwoWait ring := by
  have begins : startOf ring.written count = count * 512 := by
    rw [written, startOf_blocks (Nat.le_add_right _ _)]
  have offset := flow.offset
  have cardOffset := flow.cardOffset
  have fdt := flow.fdt
  rw [begins, Nat.add_zero] at offset cardOffset
  rw [begins] at fdt
  have blocks : ring.fdt % 1024 = 0 := by
    rw [fdt]
    show _ % (448 * 1024) % 1024 = 0
    omega
  have below : ring.fdt < rxFifoSize := by
    rw [fdt]
    exact Nat.mod_lt _ (by decide)
  obtain ⟨aligned, lens⟩ := twoBlocks_lens below blocks
  refine ⟨?_, ?_, ?_, ?_, flow.room (Nat.add_zero _).symm, aligned, lens⟩
  · rw [cardOffset]
    exact Nat.mod_lt _ (by decide)
  · rw [offset, cardOffset]
    show _ % (112 * 1024) ≠ _ % (112 * 1024)
    omega
  · rw [offset, cardOffset]
    exact circleSubtract2_mod (by decide) (by decide)
  · rw [offset, cardOffset, circleAddition2_mod (by decide) (by decide) (by decide)]

private theorem TwoWait.irq (wait : TwoWait ring) (shown : ring.cardOffset = rxFwPtr * 4) :
    ring.irq rxFwPtr true 0 1 = { ring with copy := .drain (rxFwPtr * 4) ⟨0, 0, 1⟩ } := by
  rw [RxRing.irq]
  exact if_neg (not_or.mpr ⟨shown ▸ wait.apart, Bool.false_ne_true⟩)

private theorem TwoWait.drain (wait : TwoWait ring) (shown : ring.cardOffset = rxFwPtr * 4) :
    RxRing.drain { ring with copy := .drain (rxFwPtr * 4) ⟨0, 0, 1⟩ } (rxFwPtr * 4) ⟨0, 0, 1⟩ =
      { ring with copy := .read ring.fdt 1024 1024 ⟨0, 0, 1⟩ } := by
  rw [RxRing.drain]
  dsimp only
  rw [← shown, wait.total, wait.room]
  exact if_neg (by decide)

private theorem TwoWait.read (wait : TwoWait ring) : ∃ fdb, RxRing.readOnce
    { ring with copy := .read ring.fdt 1024 1024 ⟨0, 0, 1⟩ } usualIrqConf .done ring.fdt 1024 1024
      ⟨0, 0, 1⟩ =
    { ring with fdb, rxHostOffset := ring.cardOffset, copy := .copied 1024 ⟨0, 0, 1⟩ } := by
  refine ⟨hiRcvFrame ring.card .done ring.fdb ring.fdt ring.rxHostOffset 1024, ?_⟩
  rw [RxRing.readOnce]
  dsimp only
  rw [wait.lens]
  dsimp only
  rw [Flat.fill_none, Nat.add_zero, wait.moved]
  rfl

private theorem RxRing.publish_shown {fdb : Int → UInt8} (shown : ring.cardOffset = rxFwPtr * 4) :
    RxRing.publish
      { ring with fdb, rxHostOffset := ring.cardOffset, copy := .copied 1024 ⟨0, 0, 1⟩ } false
        rxFwPtr 1024 ⟨0, 0, 1⟩ =
      { ring with
        fdb, fdt := circleAddition2 ring.fdt 1024 rxFifoSize
        rxHostOffset := ring.cardOffset, copy := .out } := by
  have stop : ¬ (0 < 1 ∧ rxFwPtr * 4 ≠ rxFwPtr * 4) := fun given => given.2 rfl
  rw [RxRing.publish]
  dsimp only
  rw [shown, if_neg Bool.false_ne_true, if_neg stop]

end TwoBlocks

private theorem RingInv.filled {ring : RxRing} {count : Nat} (inv : RingInv ring count count 0 1024)
    (written : ring.written = List.replicate (count + 2) rxBlock) (out : ring.copy = .out)
    (even : count % 2 = 0) {rxFwPtr : Nat} (shown : ring.cardOffset = rxFwPtr * 4) :
    Machine.Along (ringStep usualIrqConf)
        (fun ring event => CardRight ring event ∧ ReadAligned usualIrqConf ring event) ring
        [.irq rxFwPtr true 0 1, .drain, .read .done, .publish false rxFwPtr] ∧
      ∃ fdb fdt kept unread, let next := { ring with
          fdb, fdt, rxHostOffset := ring.cardOffset, copy := .out }
        Machine.run (ringStep usualIrqConf) ring
            [.irq rxFwPtr true 0 1, .drain, .read .done, .publish false rxFwPtr] = next ∧
          RingInv next count (count + 2) kept unread := by
  have wait := inv.flow.twoWait written even
  have shows : ∀ next : RxRing, next.cardOffset = ring.cardOffset → next.Shows (rxFwPtr * 4) := by
    intro next same
    rw [← shown, ← same]
    exact next.shows_cardOffset (same ▸ wait.inside)
  have seen := inv.irq out rxFwPtr true 0 1 fun _ => shows ring rfl
  rw [wait.irq shown] at seen
  have asked := seen.drain rfl
  rw [wait.drain shown] at asked
  obtain ⟨⟨kept, unread, copied⟩, -⟩ := asked.readOnce rfl wait.aligned
  obtain ⟨fdb, read⟩ := wait.read
  rw [read] at copied
  obtain ⟨last, published⟩ := copied.publish rfl rxFwPtr fun _ => shows _ rfl
  rw [RxRing.publish_shown shown] at published
  have ends : last = count + 2 := by
    have upTo : startOf ring.written last = startOf ring.written count + kept := published.copy
    have bytes : startOf ring.written count + 1024 = startOf ring.written count + kept :=
      copied.copy.1
    have within : last ≤ count + 2 := by
      have most : last ≤ ring.written.length := published.flow.inside
      rwa [written, List.length_replicate] at most
    rw [written, startOf_blocks within, startOf_blocks (Nat.le_add_right _ _)] at upTo
    omega
  have first : ringStep usualIrqConf ring (.irq rxFwPtr true 0 1) =
      { ring with copy := .drain (rxFwPtr * 4) ⟨0, 0, 1⟩ } := by
    rw [ringStep, out]
    exact wait.irq shown
  constructor
  · refine ⟨⟨?_, trivial⟩, ?_⟩
    · rw [CardRight, out]
      exact fun _ => shows ring rfl
    rw [first]
    refine ⟨⟨trivial, trivial⟩, ?_⟩
    rw [ringStep]
    dsimp only
    rw [wait.drain shown]
    refine ⟨⟨rfl, wait.aligned⟩, ?_⟩
    rw [ringStep]
    dsimp only
    rw [read]
    exact ⟨⟨⟨rfl, fun _ => shows _ rfl⟩, trivial⟩, trivial⟩
  · refine ⟨fdb, _, kept, unread, ?_, ends ▸ published⟩
    rw [Machine.run_cons, first, Machine.run_cons, ringStep]
    dsimp only
    rw [wait.drain shown, Machine.run_cons, ringStep]
    dsimp only
    rw [read, Machine.run_cons, ringStep]
    dsimp only
    rw [RxRing.publish_shown shown, Machine.run_nil]

private theorem RingInv.taken {ring : RxRing} {count kept unread : Nat}
    (inv : RingInv ring count (count + 2) kept unread)
    (written : ring.written = List.replicate (count + 2) rxBlock) (waits : ring.thread = none) :
    Machine.run (ringStep usualIrqConf) ring [.wake, .parse true, .parse true, .parse true] =
      { ring with
        fdh := ring.fdt, passed := ring.passed ++ [rxFrame rxBlock] ++ [rxFrame rxBlock] } := by
  have flow := inv.flow
  have long : ring.written.length = count + 2 := by rw [written, List.length_replicate]
  have block : ∀ record ∈ ring.written, record = rxBlock := by
    intro record member
    rw [written] at member
    exact List.eq_of_mem_replicate member
  have wake : ringStep usualIrqConf ring .wake =
      { ring with thread := some (startOf ring.written count % rxFifoSize,
          startOf ring.written (count + 2) % rxFifoSize) } := by
    rw [ringStep, waits, flow.fdh, flow.fdt]
  have parse : ∀ next, count ≤ next → (inside : next < count + 2) → ∀ passed,
      ringStep usualIrqConf { ring with
          thread := some (startOf ring.written next % rxFifoSize,
            startOf ring.written (count + 2) % rxFifoSize), passed } (.parse true) =
        { ring with
          thread := some (startOf ring.written (next + 1) % rxFifoSize,
            startOf ring.written (count + 2) % rxFifoSize)
          passed := passed ++ [rxFrame rxBlock] } := by
    intro next after less passed
    have inside : next < ring.written.length := long ▸ less
    have flowing : Flow { ring with
        thread := some (startOf ring.written next % rxFifoSize,
          startOf ring.written (count + 2) % rxFifoSize), passed } _ _ _ _ := { flow with }
    have turn := flowing.parse inv.copy after less (Nat.le_refl _) inside true
    rw [if_pos rfl] at turn
    refine Eq.trans turn ?_
    show { ring with thread := _, passed := passed ++ [rxFrame ring.written[next]] } = _
    rw [block _ (List.getElem_mem inside)]
  have last : ringStep usualIrqConf { ring with
        thread := some (startOf ring.written (count + 2) % rxFifoSize,
          startOf ring.written (count + 2) % rxFifoSize)
        passed := ring.passed ++ [rxFrame rxBlock] ++ [rxFrame rxBlock] } (.parse true) =
      { ring with
        fdh := ring.fdt, passed := ring.passed ++ [rxFrame rxBlock] ++ [rxFrame rxBlock] } := by
    rw [flow.fdt]
    show RxRing.parse _ _ _ _ = _
    rw [RxRing.parse, if_pos rfl, waits]
  rw [Machine.run_cons, wake, Machine.run_cons, parse count (Nat.le_refl _) (by omega),
    Machine.run_cons, parse (count + 1) (by omega) (by omega), Machine.run_cons, last,
    Machine.run_nil]

@[simp] theorem RxRing.write_copy (ring : RxRing) (record : List UInt8) :
    (ring.write record).copy = ring.copy := rfl

@[simp] theorem RxRing.write_thread (ring : RxRing) (record : List UInt8) :
    (ring.write record).thread = ring.thread := rfl

/-- A ring at the end of what was written, with nothing on the way. -/
theorem RingInv.rests {ring : RxRing} {first ready kept unread count : Nat}
    (inv : RingInv ring first ready kept unread)
    (written : ring.written = List.replicate count rxBlock) (out : ring.copy = .out)
    (waits : ring.thread = none) (empty : ring.fdh = ring.fdt)
    (read : ring.rxHostOffset = ring.cardOffset) : Rests ring count := by
  obtain ⟨all, rfl, rfl⟩ := inv.atEnd out empty read
  have upTo : startOf ring.written ready = startOf ring.written first + 0 := by
    have copy := inv.copy
    rwa [out] at copy
  have same : ready = first := (startOf_inj inv.flow.records inv.flow.order inv.flow.inside
    (Nat.le_of_eq upTo)).symm
  rw [written, List.length_replicate] at all
  subst same all
  exact ⟨inv, written, out, waits⟩

private theorem Rests.round {ring : RxRing} {count : Nat} (rests : Rests ring count)
    (even : count % 2 = 0) :
    Machine.Along (ringStep usualIrqConf)
        (fun ring event => CardRight ring event ∧ ReadAligned usualIrqConf ring event) ring
        (ringRound count) ∧
      Rests (Machine.run (ringStep usualIrqConf) ring (ringRound count)) (count + 2) := by
  obtain ⟨rxFwPtr, pointer⟩ : ∃ rxFwPtr, rxFwPtr = (count + 2) * 512 % rxmaxOffset / 4 := ⟨_, rfl⟩
  have size : rxBlock.length = 512 := rxFilled_length 480
  have first : ring.backlog + rxBlock.length < rxmaxOffset := by
    rw [rests.inv.flow.backlog, size]
    decide
  have one := rests.inv.write rxBlock_right first
  have second : (ring.write rxBlock).backlog + rxBlock.length < rxmaxOffset := by
    rw [one.flow.backlog, size]
    decide
  have two := one.write rxBlock_right second
  rw [size] at two
  have written : ((ring.write rxBlock).write rxBlock).written =
      List.replicate (count + 2) rxBlock := by
    show ring.written ++ [rxBlock] ++ [rxBlock] = _
    rw [rests.written, List.append_assoc]
    show List.replicate count rxBlock ++ List.replicate 2 rxBlock = _
    exact List.replicate_append_replicate
  have stops : startOf ((ring.write rxBlock).write rxBlock).written count = count * 512 := by
    rw [written, startOf_blocks (Nat.le_add_right _ _)]
  have shown : ((ring.write rxBlock).write rxBlock).cardOffset = rxFwPtr * 4 := by
    rw [two.flow.cardOffset, stops, pointer]
    show (count * 512 + 0 + (0 + 512 + 512)) % (112 * 1024) =
      (count + 2) * 512 % (112 * 1024) / 4 * 4
    omega
  have out : ((ring.write rxBlock).write rxBlock).copy = .out := by
    rw [RxRing.write_copy, RxRing.write_copy, rests.out]
  have waits : ((ring.write rxBlock).write rxBlock).thread = none := by
    rw [RxRing.write_thread, RxRing.write_thread, rests.waits]
  obtain ⟨next, same⟩ : ∃ next, next = (ring.write rxBlock).write rxBlock := ⟨_, rfl⟩
  have writes : ringStep usualIrqConf (ringStep usualIrqConf ring (.write rxBlock))
      (.write rxBlock) = next := same.symm
  rw [← same] at two written shown out waits
  obtain ⟨filling, fdb, fdt, kept, unread, filled, full⟩ := two.filled written out even shown
  have quiet : ∀ ring, Machine.Along (ringStep usualIrqConf)
      (fun ring event => CardRight ring event ∧ ReadAligned usualIrqConf ring event) ring
      [.wake, .parse true, .parse true, .parse true] := fun _ =>
    ⟨⟨trivial, trivial⟩, ⟨trivial, trivial⟩, ⟨trivial, trivial⟩, ⟨trivial, trivial⟩, trivial⟩
  obtain ⟨⟨_, _, _, _, reached⟩, -⟩ := full.run (quiet _)
  rw [full.taken written waits] at reached
  have parts : ringRound count = [.write rxBlock, .write rxBlock] ++
      ([.irq rxFwPtr true 0 1, .drain, .read .done, .publish false rxFwPtr] ++
        [.wake, .parse true, .parse true, .parse true]) := by
    rw [pointer]
    rfl
  rw [parts, Machine.along_append, Machine.along_append, Machine.run_append, Machine.run_append,
    Machine.run_cons, Machine.run_cons, Machine.run_nil, writes, filled, full.taken written waits]
  refine ⟨⟨?_, filling, quiet _⟩, reached.rests written rfl waits rfl rfl⟩
  exact ⟨⟨⟨rxBlock_right, first⟩, trivial⟩, ⟨⟨rxBlock_right, second⟩, trivial⟩, trivial⟩

def ringRounds (count : Nat) : List RingEvent := (List.range count).flatMap fun round =>
  ringRound (2 * round)

theorem ringRounds_rest (count : Nat) :
    Machine.Along (ringStep usualIrqConf)
        (fun ring event => CardRight ring event ∧ ReadAligned usualIrqConf ring event) freshRing
        (ringRounds count) ∧
      Rests (Machine.run (ringStep usualIrqConf) freshRing (ringRounds count)) (2 * count) := by
  induction count with
  | zero => exact ⟨trivial, freshRing_inv, rfl, rfl, rfl⟩
  | succ count ih =>
    obtain ⟨along, rests⟩ := ih
    obtain ⟨more, next⟩ := rests.round (Nat.mul_mod_right 2 count)
    have parts : ringRounds (count + 1) = ringRounds count ++ ringRound (2 * count) := by
      rw [ringRounds, List.range_succ, List.flatMap_append, List.flatMap_singleton]
      rfl
    rw [parts, Machine.along_append, Machine.run_append]
    exact ⟨⟨along, more⟩, next⟩

/-- All blocks are passed on, and the FIFO goes on behind them. -/
theorem ringRounds_passed (count : Nat) :
    (Machine.run (ringStep usualIrqConf) freshRing (ringRounds count)).passed =
        List.replicate (2 * count) (rxFrame rxBlock) ∧
      (Machine.run (ringStep usualIrqConf) freshRing (ringRounds count)).fdt =
        2 * count * 512 % rxFifoSize := by
  have rests := (ringRounds_rest count).2
  have flow := rests.inv.flow
  have read : (Machine.run (ringStep usualIrqConf) freshRing (ringRounds count)).rxHostOffset =
      (Machine.run (ringStep usualIrqConf) freshRing (ringRounds count)).cardOffset := by
    rw [flow.offset, flow.cardOffset, Nat.add_zero]
  constructor
  · rw [rests.inv.fifo.all rests.out rests.waits (flow.fdh.trans flow.fdt.symm) read,
      rests.written, List.map_replicate]
  · rw [flow.fdt, rests.written, startOf_blocks (Nat.le_refl _)]

/-- 900 frames go round the FIFO once, and round the ring of the card four times. -/
theorem rx_fifo_order_round :
    ((Machine.run (ringStep usualIrqConf) freshRing (ringRounds 450)).Fifo ∧
      Machine.Along (ringStep usualIrqConf) (KeepsHeld usualIrqConf) freshRing (ringRounds 450)) ∧
      (Machine.run (ringStep usualIrqConf) freshRing (ringRounds 450)).passed =
        List.replicate 900 (rxFrame rxBlock) ∧
      (Machine.run (ringStep usualIrqConf) freshRing (ringRounds 450)).fdt = 4 * 512 :=
  ⟨rx_fifo_order usualIrqConf (ringRounds 450) (ringRounds_rest 450).1, ringRounds_passed 450⟩

end W522a.Hal
