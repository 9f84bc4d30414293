import W522a.Lib.Owing
import W522a.Hal.RxRing

/-!
What the interrupt task takes of the work that it sees, and that it never lets the interrupt in
again with a flush outstanding.
-/

namespace W522a.Hal

open Flat (fill)
open Ring (cells)
open Memory (Traced Safe emit)

def IrqEvent.work : IrqEvent → Bool
  | .received _ => true
  | .completion _ _ => true
  | _ => false

def IrqEvent.flush : IrqEvent → Bool
  | .txFrame => true
  | _ => false

def IrqEvent.reenable : IrqEvent → Bool
  | .unmask => true
  | .clear => true
  | _ => false

def RxPending (obs : IrqObs) (hal : IrqHal) : Prop :=
  hasBit obs.status .rxOk = true ∧ fwRxPtr obs.status * 4 ≠ hal.rxHostOffset

def TxPending (obs : IrqObs) (hal : IrqHal) : Prop :=
  hasBit obs.status .txOk = true ∧ obs.txdoneframecounter ≠ hal.halTxFrameDoneCounter

/-- The host takes RX: it is open, and its FIFO has room for all that the word shows. -/
def RxRoom (obs : IrqObs) (hal : IrqHal) : Prop :=
  obs.bhalOpen = true ∧
    ¬ fifoEmptySize obs hal ≤ rxTotalLen obs hal + func6Blksize

/-- The offsets lie within their rings. -/
structure IrqHal.Placed (hal : IrqHal) : Prop where
  chip : hal.rxHostOffset < rxmaxOffset
  fifo : hal.fdt < rxFifoSize

variable {conf : IrqConf} {env : Nat → IrqObs} {hal start : IrqHal} {fuel left index : Nat}

section Reads

theorem circleAddition2_eq {a b l : Nat} (inside : a < l) (short : b ≤ l)
    (small : 2 * l < 2 ^ 32) : circleAddition2 a b l = (a + b) % l := by
  have fits : a % 2 ^ 32 = a := Nat.mod_eq_of_lt (by omega)
  have once : circleAddition2 (a % 2 ^ 32) b l = (b + a) % l :=
    circleAddition2_once (by omega) small
  rwa [fits, Nat.add_comm b a] at once

theorem circleAddition2_lt {a b l : Nat} (inside : a < l) (short : b ≤ l)
    (small : 2 * l < 2 ^ 32) : circleAddition2 a b l < l := by
  rw [circleAddition2_eq inside short small]
  exact Nat.mod_lt _ (Nat.zero_lt_of_lt inside)

/-- What the reads of a pass do to the outside. -/
def IrqEvent.reads : IrqEvent → Prop
  | .rcvFrame _ _ _ => True
  | .wrapped _ => True
  | _ => False

/-- Every read takes something, and no more than is left. -/
theorem rxReadLens_spec (conf : IrqConf) (wrapper : Int) {fifo remain : Nat}
    (inside : fifo < rxFifoSize) (some : 0 < remain) :
    0 < (rxReadLens conf wrapper fifo remain).1 + (rxReadLens conf wrapper fifo remain).2.2 ∧
      (rxReadLens conf wrapper fifo remain).1 + (rxReadLens conf wrapper fifo remain).2.2 ≤
        remain := by
  have asked : ∃ readLen, 0 < readLen ∧ readLen ≤ remain ∧
      readLen = if readLenPerOnce + readBufferableLen < remain then readLenPerOnce else remain := by
    refine ⟨_, ?_, ?_, rfl⟩
    · split
      · decide
      · exact some
    · split
      · rename_i long
        exact Nat.le_of_lt (Nat.lt_of_le_of_lt (Nat.le_add_right _ _) long)
      · exact Nat.le_refl _
  obtain ⟨readLen, positive, most, same⟩ := asked
  have room : 0 < rxFifoSize - fifo := Nat.sub_pos_of_lt inside
  rw [rxReadLens, ← same]
  split
  · show 0 < rxFifoSize - fifo + min _ (remain - (rxFifoSize - fifo)) ∧
      rxFifoSize - fifo + min _ (remain - (rxFifoSize - fifo)) ≤ remain
    omega
  · show 0 < readLen + min _ (remain - readLen) ∧ readLen + min _ (remain - readLen) ≤ remain
    omega

/-- A read to the end of the FIFO is the last one, or has a length that `sdio_align_size` keeps. In
front of the end `host_wrapper_len` is not positive, or the read is the last one. -/
def LensAligned (conf : IrqConf) (hostWrapperLen : Int) (rxFifoFdt remainLen : Nat) : Prop :=
  let asked := if readLenPerOnce + readBufferableLen < remainLen then readLenPerOnce else remainLen
  let hostRemainLen := rxFifoSize - rxFifoFdt
  if hostRemainLen ≤ asked then
    remainLen = hostRemainLen ∨ conf.sdioAlignSize hostRemainLen ≤ hostRemainLen
  else hostWrapperLen ≤ 0 ∨ asked = remainLen

/-- A read that is aligned takes its bytes from the card alone and does not reach round the FIFO. -/
theorem LensAligned.lens {hostWrapperLen : Int} {rxFifoFdt remainLen : Nat}
    (aligned : LensAligned conf hostWrapperLen rxFifoFdt remainLen)
    (inside : rxFifoFdt < rxFifoSize) (some : 0 < remainLen) : ∃ readLen wrapper,
      rxReadLens conf hostWrapperLen rxFifoFdt remainLen = (readLen, wrapper, 0) ∧
        0 < readLen ∧ readLen ≤ remainLen ∧ rxFifoFdt + readLen ≤ rxFifoSize := by
  have spec := rxReadLens_spec conf hostWrapperLen inside some
  rw [LensAligned] at aligned
  rw [rxReadLens] at spec ⊢
  dsimp only at aligned spec ⊢
  generalize (if readLenPerOnce + readBufferableLen < remainLen then readLenPerOnce
    else remainLen) = asked at aligned spec ⊢
  split at aligned
  · rename_i reaches
    rw [if_pos reaches] at spec ⊢
    have none : min ((conf.sdioAlignSize (rxFifoSize - rxFifoFdt) : Int) -
        (rxFifoSize - rxFifoFdt : Nat)).toNat (remainLen - (rxFifoSize - rxFifoFdt)) = 0 := by
      omega
    rw [none] at spec ⊢
    exact ⟨_, _, rfl, spec.1, spec.2, by omega⟩
  · rename_i stays
    rw [if_neg stays] at spec ⊢
    have none : min hostWrapperLen.toNat (remainLen - asked) = 0 := by omega
    rw [none] at spec ⊢
    exact ⟨_, _, rfl, spec.1, spec.2, by omega⟩

/-- The reads of a pass are aligned, one after the other. -/
def ReadsAligned (conf : IrqConf) : Nat → Int → Nat → Nat → Prop
  | 0, _, _, _ => True
  | fuel + 1, hostWrapperLen, rxFifoFdt, remainLen =>
    LensAligned conf hostWrapperLen rxFifoFdt remainLen ∧
      let (readLen, hostWrapperLen, _) := rxReadLens conf hostWrapperLen rxFifoFdt remainLen
      remainLen - readLen ≠ 0 → ReadsAligned conf fuel (min hostWrapperLen 0)
        (circleAddition2 rxFifoFdt readLen rxFifoSize) (remainLen - readLen)

/-- What an event does to the bytes of the FIFO, if the bus brings what a read asks for. -/
def IrqEvent.fills (chip : Nat → UInt8) (fdb : Int → UInt8) : IrqEvent → Int → UInt8
  | .rcvFrame fifo offset len => hiRcvFrame chip .done fdb fifo offset len
  | .wrapped len => fill fdb 0 len fun index => fdb (rxFifoSize + index : Nat)
  | _ => fdb

def fifoAfter (chip : Nat → UInt8) (fdb : Int → UInt8) (log : List IrqEvent) : Int → UInt8 :=
  log.foldl (IrqEvent.fills chip) fdb

/-- Some events bring bytes of the chip to a place of the FIFO, behind those that are there. -/
def Brings (events : List IrqEvent) (fifo offset count : Nat) : Prop :=
  ∀ (chip : Nat → UInt8) (fdb : Int → UInt8) (start kept : Nat),
    (start + kept) % rxFifoSize = fifo → kept + count ≤ rxFifoSize →
    cells rxFifoSize (fun place => fifoAfter chip fdb events place) start (kept + count) =
      cells rxFifoSize (fun place => fdb place) start kept ++ cells rxmaxOffset chip offset count

private theorem Brings.read {fifo offset len count : Nat} {rest : List IrqEvent}
    (straight : fifo + len ≤ rxFifoSize)
    (later : Brings rest ((fifo + len) % rxFifoSize) ((offset + len) % rxmaxOffset) count) :
    Brings (.rcvFrame fifo offset len :: rest) fifo offset (len + count) := by
  intro chip fdb start kept here short
  have reached : (start + (kept + len)) % rxFifoSize = (fifo + len) % rxFifoSize := by
    rw [← here, Nat.mod_add_mod, Nat.add_assoc]
  have filled := Ring.cells_fill_end fdb (fun index => chip ((offset + index) % rxmaxOffset))
    (here ▸ straight) (show kept + len ≤ rxFifoSize by omega)
  rw [here] at filled
  have after := later chip (hiRcvFrame chip .done fdb fifo offset len) start (kept + len) reached
    (by omega)
  have parts : cells rxmaxOffset chip offset (len + count) =
      cells rxmaxOffset chip offset len ++ cells rxmaxOffset chip (offset + len) count :=
    Ring.cells_append
  rw [← Nat.add_assoc, parts, ← List.append_assoc]
  rw [Ring.cells_mod] at after
  exact after.trans (congrArg (· ++ cells rxmaxOffset chip (offset + len) count) filled)

/-- The reads take all bytes of a pass, round the ring. -/
theorem rxReads_all (conf : IrqConf) (fuel : Nat) (wrapper : Int) (fifo offset remain : Nat)
    (fifoInside : fifo < rxFifoSize) (inside : offset < rxmaxOffset) (some : 0 < remain)
    (short : remain ≤ rxmaxOffset) (enough : remain ≤ fuel) :
    (rxReads conf fuel wrapper fifo offset remain).value = ((offset + remain) % rxmaxOffset, 0) ∧
      Safe IrqEvent.reads (rxReads conf fuel wrapper fifo offset remain) := by
  induction fuel generalizing wrapper fifo offset remain with
  | zero => omega
  | succ fuel ih =>
    obtain ⟨positive, most⟩ := rxReadLens_spec conf wrapper fifoInside some
    rw [rxReads]
    generalize rxReadLens conf wrapper fifo remain = lens at positive most
    obtain ⟨readLen, wrapper, extra⟩ := lens
    dsimp only at positive most ⊢
    have moved : circleAddition2 offset (readLen + extra) rxmaxOffset =
        (offset + (readLen + extra)) % rxmaxOffset :=
      circleAddition2_eq inside (Nat.le_trans most short) (by decide)
    have filled : circleAddition2 fifo (readLen + extra) rxFifoSize < rxFifoSize :=
      circleAddition2_lt fifoInside (Nat.le_trans (Nat.le_trans most short) (by decide))
        (by decide)
    have first : Safe IrqEvent.reads (emit (.rcvFrame fifo offset readLen)) :=
      Memory.safe_emit.mpr trivial
    have copied : Safe IrqEvent.reads (copyWrapped extra) := by
      rw [copyWrapped]
      split
      · exact Memory.safe_pure _
      · exact Memory.safe_emit.mpr trivial
    rw [moved, Memory.value_bind, Memory.value_bind, Memory.safe_bind, Memory.safe_bind]
    by_cases last : remain - (readLen + extra) = 0
    · have all : readLen + extra = remain := Nat.le_antisymm most (Nat.sub_eq_zero_iff_le.mp last)
      rw [if_pos last, all]
      exact ⟨rfl, first, copied, Memory.safe_pure _⟩
    · have ring : (offset + (readLen + extra)) % rxmaxOffset < rxmaxOffset :=
        Nat.mod_lt _ (by decide)
      obtain ⟨value, later⟩ := ih (min wrapper 0) _ _ (remain - (readLen + extra)) filled ring
        (Nat.pos_of_ne_zero last) (by omega) (by omega)
      rw [if_neg last, value, Nat.mod_add_mod]
      have sum : offset + (readLen + extra) + (remain - (readLen + extra)) = offset + remain := by
        omega
      rw [sum]
      exact ⟨rfl, first, copied, later⟩

/-- Aligned reads bring all bytes of a pass, each to its place. -/
theorem rxReads_brings (conf : IrqConf) (fuel : Nat) (wrapper : Int) (fifo offset remain : Nat)
    (fifoInside : fifo < rxFifoSize) (inside : offset < rxmaxOffset) (some : 0 < remain)
    (short : remain ≤ rxmaxOffset) (enough : remain ≤ fuel)
    (aligned : ReadsAligned conf fuel wrapper fifo remain) :
    Brings (rxReads conf fuel wrapper fifo offset remain).log fifo offset remain := by
  induction fuel generalizing wrapper fifo offset remain with
  | zero => omega
  | succ fuel ih =>
    obtain ⟨first, more⟩ := aligned
    obtain ⟨readLen, next, lens, positive, most, straight⟩ := first.lens fifoInside some
    rw [lens] at more
    rw [rxReads, lens]
    dsimp only at more ⊢
    have whole : readLen ≤ rxFifoSize := Nat.le_trans (Nat.le_add_left _ _) straight
    rw [circleAddition2_eq fifoInside whole (by decide)] at more
    rw [Nat.add_zero, circleAddition2_eq fifoInside whole (by decide),
      circleAddition2_eq inside (Nat.le_trans most short) (by decide)]
    have log : ∀ rest : Traced IrqEvent (Nat × Nat), (do
        emit (IrqEvent.rcvFrame fifo offset readLen)
        copyWrapped 0
        rest).log = .rcvFrame fifo offset readLen :: rest.log := fun _ => rfl
    obtain ⟨left, parts⟩ := Nat.exists_eq_add_of_le most
    subst parts
    rw [Nat.add_sub_cancel_left] at more ⊢
    rw [log]
    by_cases last : left = 0
    · subst last
      exact .read straight fun chip fdb start kept _ _ => (List.append_nil _).symm
    · rw [if_neg last]
      exact .read straight (ih _ _ _ left (Nat.mod_lt _ (by decide)) (Nat.mod_lt _ (by decide))
        (Nat.pos_of_ne_zero last) (by omega) (by omega) (more last))

/-- What a word shows leads from the offset to the pointer. -/
theorem rxTotalLen_spec (obs : IrqObs) (placed : hal.Placed) :
    0 < rxTotalLen obs hal ∧ rxTotalLen obs hal ≤ rxmaxOffset ∧
      (hal.rxHostOffset + rxTotalLen obs hal) % rxmaxOffset = fwRxPtr obs.status * 4 := by
  have ring := obs.ring
  have inside := placed.chip
  rw [rxTotalLen, circleSubtract2]
  split
  · refine ⟨by omega, by omega, ?_⟩
    rw [Nat.add_sub_cancel' (by omega)]
    exact Nat.mod_eq_of_lt ring
  · have round : hal.rxHostOffset + (rxmaxOffset + fwRxPtr obs.status * 4 - hal.rxHostOffset) =
        rxmaxOffset + fwRxPtr obs.status * 4 := by omega
    refine ⟨by omega, by omega, ?_⟩
    rw [round, Nat.add_mod_left]
    exact Nat.mod_eq_of_lt ring

/-- A pass of `hi_soft_rx_irq` as it was taken. -/
structure RxRound where
  obs : IrqObs
  hal : IrqHal
  events : List IrqEvent

namespace RxRound

variable (round : RxRound)

def pointer : Nat := fwRxPtr round.obs.status * 4

def count : Nat := rxTotalLen round.obs round.hal

/-- The state behind a pass: while the driver is suspended the FIFO does not show its bytes. -/
def after : IrqHal :=
  { round.hal with
    rxHostOffset := round.pointer
    fdt :=
      if round.obs.drvSuspendCnt = 0 then (round.hal.fdt + round.count) % rxFifoSize
      else round.hal.fdt }

/-- The bytes that the word shows are read, and put behind those of the FIFO if the reads are
aligned; then the FIFO shows them. -/
structure Right (conf : IrqConf) : Prop where
  room : ¬ fifoEmptySize round.obs round.hal ≤ round.count + func6Blksize
  reads : ∃ reads, round.events = reads ++ .received round.pointer ::
      (if round.obs.drvSuspendCnt = 0 then [.published round.after.fdt] else []) ∧
    (∀ event ∈ reads, event.reads) ∧
    (ReadsAligned conf round.count round.obs.hostWrapperLen round.hal.fdt round.count →
      Brings reads round.hal.fdt round.hal.rxHostOffset round.count)

end RxRound

/-- Passes that follow each other. -/
inductive RxRounds (conf : IrqConf) : IrqHal → List RxRound → IrqHal → Prop where
  | nil {hal : IrqHal} : RxRounds conf hal [] hal
  | cons {round : RxRound} {rest : List RxRound} {last : IrqHal} :
    round.Right conf → RxRounds conf round.after rest last →
      RxRounds conf round.hal (round :: rest) last

/-- The TX side of the state is left alone, and the offsets stay in their rings. -/
structure RxOnly (hal next : IrqHal) : Prop where
  placed : next.Placed
  frames : next.halTxFrameDoneCounter = hal.halTxFrameDoneCounter
  wanted : next.needSchedulingTx = hal.needSchedulingTx

/-- What RX work does to the outside. -/
def IrqEvent.rx : IrqEvent → Prop
  | .rcvFrame _ _ _ => True
  | .wrapped _ => True
  | .received _ => True
  | .published _ => True
  | _ => False

variable {rounds : List RxRound} {next : IrqHal}

theorem RxRound.after_placed (round : RxRound) (placed : round.hal.Placed) :
    round.after.Placed := by
  refine ⟨round.obs.ring, ?_⟩
  rw [RxRound.after]
  dsimp only
  split
  · exact Nat.mod_lt _ (by decide)
  · exact placed.fifo

theorem RxRounds.only (taken : RxRounds conf hal rounds next) (placed : hal.Placed) :
    RxOnly hal next := by
  induction taken with
  | nil => exact ⟨placed, rfl, rfl⟩
  | @cons round rest last right more ih =>
    have later := ih (round.after_placed placed)
    exact ⟨later.placed, later.frames, later.wanted⟩

theorem RxRounds.safe (taken : RxRounds conf hal rounds next) :
    ∀ event ∈ rounds.flatMap RxRound.events, event.rx := by
  induction taken with
  | nil =>
    intro event found
    cases found
  | @cons round rest last right more ih =>
    intro event found
    obtain ⟨reads, events, only, -⟩ := right.reads
    rw [List.flatMap_cons, events] at found
    simp only [List.mem_append, List.mem_cons] at found
    rcases found with (read | rfl | shown) | later
    · have brought := only event read
      cases event <;> trivial
    · trivial
    · split at shown
      · rw [List.mem_singleton.mp shown]
        trivial
      · cases shown
    · exact ih event later

/-- A pass reads up to the pointer of its word, and then shows the bytes to `hal_rx_thread`. -/
theorem rxPass_eq (conf : IrqConf) (obs : IrqObs) (placed : hal.Placed) :
    rxPass conf obs hal =
      ⟨(rxReads conf (rxTotalLen obs hal) obs.hostWrapperLen hal.fdt hal.rxHostOffset
          (rxTotalLen obs hal)).log ++ .received (fwRxPtr obs.status * 4) ::
            (if obs.drvSuspendCnt = 0 then [.published (RxRound.mk obs hal []).after.fdt] else []),
        (RxRound.mk obs hal []).after⟩ := by
  obtain ⟨positive, most, round⟩ := rxTotalLen_spec obs placed
  obtain ⟨value, -⟩ := rxReads_all conf (rxTotalLen obs hal) obs.hostWrapperLen hal.fdt
    hal.rxHostOffset (rxTotalLen obs hal) placed.fifo placed.chip positive most (Nat.le_refl _)
  have advanced : circleAddition2 hal.fdt (rxTotalLen obs hal) rxFifoSize =
      (hal.fdt + rxTotalLen obs hal) % rxFifoSize :=
    circleAddition2_eq placed.fifo (Nat.le_trans most (by decide)) (by decide)
  rw [round] at value
  rw [rxPass, RxRound.after]
  dsimp only [bind]
  rw [value, advanced]
  by_cases running : obs.drvSuspendCnt = 0
  · simp only [if_pos running]
    rfl
  · simp only [if_neg running]
    rfl

private theorem rxPass_right (conf : IrqConf) (obs : IrqObs) (placed : hal.Placed)
    (room : ¬ fifoEmptySize obs hal ≤ rxTotalLen obs hal + func6Blksize) :
    (RxRound.mk obs hal (rxPass conf obs hal).log).Right conf ∧
      (rxPass conf obs hal).value = (RxRound.mk obs hal (rxPass conf obs hal).log).after := by
  obtain ⟨positive, most, -⟩ := rxTotalLen_spec obs placed
  obtain ⟨-, reads⟩ := rxReads_all conf (rxTotalLen obs hal) obs.hostWrapperLen hal.fdt
    hal.rxHostOffset (rxTotalLen obs hal) placed.fifo placed.chip positive most (Nat.le_refl _)
  have brings := rxReads_brings conf (rxTotalLen obs hal) obs.hostWrapperLen hal.fdt
    hal.rxHostOffset (rxTotalLen obs hal) placed.fifo placed.chip positive most (Nat.le_refl _)
  rw [rxPass_eq conf obs placed]
  exact ⟨⟨room, _, rfl, reads, brings⟩, rfl⟩

/-- RX takes all that a word shows and perhaps more, or nothing if that is not wanted. -/
def RxDone (conf : IrqConf) (obs : IrqObs) (hal : IrqHal) (wanted : Prop)
    (done : Traced IrqEvent (IrqHal × Nat)) : Prop :=
  ∃ rounds, done.log = rounds.flatMap RxRound.events ∧ RxRounds conf hal rounds done.value.1 ∧
    (wanted → (rounds.map RxRound.obs).head? = some obs) ∧ (¬ wanted → rounds = [])

variable {obs : IrqObs} {wanted : Prop}

theorem RxDone.idle (idle : ¬ wanted) (index : Nat) :
    RxDone conf obs hal wanted (pure (hal, index)) :=
  ⟨[], rfl, .nil, fun given => absurd given idle, fun _ => rfl⟩

theorem RxDone.congr {other : Prop} {done : Traced IrqEvent (IrqHal × Nat)}
    (taken : RxDone conf obs hal wanted done) (same : wanted ↔ other) :
    RxDone conf obs hal other done := by
  rwa [← propext same]

private theorem RxDone.taken (placed : hal.Placed)
    (room : ¬ fifoEmptySize obs hal ≤ rxTotalLen obs hal + func6Blksize)
    {rest : IrqHal → Traced IrqEvent (IrqHal × Nat)}
    (later : ∀ next : IrqHal, next.Placed → ∃ rounds,
      (rest next).log = rounds.flatMap RxRound.events ∧
        RxRounds conf next rounds (rest next).value.1) :
    RxDone conf obs hal (¬ fifoEmptySize obs hal ≤ rxTotalLen obs hal + func6Blksize)
      (rxPass conf obs hal >>= rest) := by
  obtain ⟨right, value⟩ := rxPass_right conf obs placed room
  have inside := RxRound.after_placed ⟨obs, hal, (rxPass conf obs hal).log⟩ placed
  obtain ⟨rounds, log, more⟩ := later _ inside
  rw [← value] at log more
  refine ⟨_ :: rounds, ?_, .cons right (value ▸ more), fun _ => rfl, fun full => absurd room full⟩
  rw [Memory.log_bind, log]
  rfl

private theorem rxDrain_done (conf : IrqConf) (env : Nat → IrqObs) (left index : Nat) (hal : IrqHal)
    (placed : hal.Placed) : RxDone conf (env index) hal
      (¬ fifoEmptySize (env index) hal ≤ rxTotalLen (env index) hal + func6Blksize)
      (rxDrain conf env left index hal) := by
  induction left generalizing index hal with
  | zero =>
    rw [rxDrain]
    split
    · rename_i full
      exact .idle (not_not.mpr full) _
    · rename_i room
      exact .taken placed room fun next inside => ⟨[], rfl, .nil⟩
  | succ left ih =>
    rw [rxDrain]
    split
    · rename_i full
      exact .idle (not_not.mpr full) _
    · rename_i room
      refine .taken placed room fun next inside => ?_
      split
      · obtain ⟨rounds, log, more, -⟩ := ih (index + 1) next inside
        exact ⟨rounds, log, more⟩
      · exact ⟨[], rfl, .nil⟩

theorem hiSoftRxIrq_done (conf : IrqConf) (env : Nat → IrqObs) (index : Nat)
    (placed : hal.Placed) : RxDone conf (env index) hal
      (fwRxPtr (env index).status * 4 ≠ hal.rxHostOffset ∧ RxRoom (env index) hal)
      (hiSoftRxIrq conf env index hal) := by
  rw [hiSoftRxIrq]
  by_cases skipped : hal.rxHostOffset = fwRxPtr (env index).status * 4 ∨ !(env index).bhalOpen
  · rw [if_pos skipped]
    refine .idle ?_ _
    rintro ⟨apart, opened, -⟩
    rcases skipped with same | closed
    · exact absurd same.symm apart
    · rw [opened] at closed
      cases closed
  · have opened : (env index).bhalOpen = true := by
      simpa using (not_or.mp skipped).2
    have apart := Ne.symm (not_or.mp skipped).1
    rw [if_neg skipped]
    exact (rxDrain_done conf env (clampUnsigned conf.rxDrainIterMax 1 64) index hal placed).congr
      ⟨fun room => ⟨apart, opened, room⟩, fun given => given.2.2⟩

end Reads

section Reaps

/-- What TX work does to the outside. -/
def IrqEvent.tx : IrqEvent → Prop
  | .completion _ _ => True
  | _ => False

/-- The slots of the TX statuses that some events take, and whether a node takes the status. -/
def reaps (log : List IrqEvent) : List (Nat × Bool) :=
  log.filterMap fun
    | .completion slot queued => some (slot, queued)
    | _ => none

/-- What is reaped up to the counter of the firmware: each takes a node as long as there is one,
and the status of one without is given up. -/
def reapsTo (done counter : UInt8) (freeNodes : Nat) : List (Nat × Bool) :=
  (List.range (done - counter).toNat).map fun index =>
    ((counter.toNat + index) % 128, decide (index < freeNodes))

private theorem reapsTo_succ {done counter : UInt8} (freeNodes : Nat) {count : Nat}
    (step : (done - counter).toNat = count + 1) (next : (done - (counter + 1)).toNat = count) :
    reapsTo done counter freeNodes =
      (counter.toNat % 128, decide (freeNodes ≠ 0)) ::
        reapsTo done (counter + 1) (freeNodes - 1) := by
  rw [reapsTo, reapsTo, step, next, List.range_succ_eq_map, List.map_cons,
    List.map_map]
  congr 1
  · rw [Nat.add_zero]
    simp only [Nat.pos_iff_ne_zero]
  · refine List.map_congr_left fun index _ => ?_
    rw [Function.comp_apply, UInt8.toNat_add, UInt8.toNat_one]
    congr 1
    · omega
    · exact decide_eq_decide.mpr (by omega)

/-- The reaping comes to the counter of the firmware, by all slots up to it. -/
theorem txReaps_all (done : UInt8) (fuel freeNodes : Nat) (counter : UInt8)
    (enough : (done - counter).toNat < fuel) :
    (txReaps done fuel freeNodes counter).value = (done, (done - counter).toNat) ∧
      Safe IrqEvent.tx (txReaps done fuel freeNodes counter) ∧
      reaps (txReaps done fuel freeNodes counter).log =
        reapsTo done counter freeNodes := by
  induction fuel generalizing freeNodes counter with
  | zero => omega
  | succ fuel ih =>
    rw [txReaps]
    by_cases same : done = counter
    · subst same
      rw [if_pos rfl]
      simp [reaps, reapsTo]
    · rw [if_neg same]
      have apart : done.toNat ≠ counter.toNat := fun equal => same (UInt8.toNat_inj.mp equal)
      have step : (done - counter).toNat = (done - (counter + 1)).toNat + 1 := by
        have high := done.toNat_lt
        have low := counter.toNat_lt
        rw [UInt8.toNat_sub, UInt8.toNat_sub, UInt8.toNat_add, UInt8.toNat_one]
        omega
      obtain ⟨value, safe, slots⟩ := ih (freeNodes - 1) (counter + 1) (by omega)
      rw [reapsTo_succ freeNodes step rfl, ← slots]
      rw [Memory.value_bind, Memory.value_bind, value, Memory.safe_bind, Memory.safe_bind, step]
      refine ⟨rfl, ⟨Memory.safe_emit.mpr trivial, safe, Memory.safe_pure _⟩, ?_⟩
      show reaps (.completion (counter.toNat % 128) (decide (freeNodes ≠ 0)) ::
        ((txReaps done fuel (freeNodes - 1) (counter + 1)).log ++ [])) = _
      rw [List.append_nil]
      rfl

/-- TX takes all frames up to the counter of the firmware, and leaves the RX side alone. -/
structure TxDone (obs : IrqObs) (hal : IrqHal) (done : Traced IrqEvent (IrqHal × Nat)) :
    Prop where
  frames : done.value.1.halTxFrameDoneCounter = obs.txdoneframecounter
  offset : done.value.1.rxHostOffset = hal.rxHostOffset
  fifo : done.value.1.fdt = hal.fdt
  wanted : done.value.1.needSchedulingTx = hal.needSchedulingTx
  reaped : done.value.2 = (obs.txdoneframecounter - hal.halTxFrameDoneCounter).toNat
  safe : Safe IrqEvent.tx done
  slots : reaps done.log =
    reapsTo obs.txdoneframecounter hal.halTxFrameDoneCounter obs.freeNodes

theorem hiSoftTxIrq_done (obs : IrqObs) (hal : IrqHal) : TxDone obs hal (hiSoftTxIrq obs hal) := by
  obtain ⟨value, safe, slots⟩ := txReaps_all obs.txdoneframecounter 256 obs.freeNodes
    hal.halTxFrameDoneCounter (UInt8.toNat_lt _)
  rw [hiSoftTxIrq]
  have log : (txReaps obs.txdoneframecounter 256 obs.freeNodes
      hal.halTxFrameDoneCounter).log ++ [] = _ := List.append_nil _
  refine ⟨?_, rfl, rfl, rfl, ?_, ?_, ?_⟩
  · exact congrArg Prod.fst value
  · exact congrArg Prod.snd value
  · rw [Memory.safe_bind]
    exact ⟨safe, Memory.safe_pure _⟩
  · exact (congrArg reaps log).trans slots

private theorem reaped_eq_zero {done counter : UInt8} :
    (done - counter).toNat = 0 ↔ done = counter := by
  have high := done.toNat_lt
  have low := counter.toNat_lt
  rw [UInt8.toNat_sub, ← UInt8.toNat_inj]
  omega

end Reaps

section Probes

/-- The RX work of a word: its bytes are taken if there are some and the host has room for them, and
then those of the words that `hi_soft_rx_irq` reads itself; without room nothing is taken. -/
structure RxTaken (conf : IrqConf) (obs : IrqObs) (hal : IrqHal) (log : List IrqEvent)
    (after : IrqHal) (rounds : List RxRound) : Prop where
  split : ∃ rest, log = rounds.flatMap RxRound.events ++ rest ∧ ∀ event ∈ rest, ¬ event.rx
  follow : ∃ last, RxRounds conf hal rounds last ∧ after.rxHostOffset = last.rxHostOffset ∧
    after.fdt = last.fdt
  takes : RxPending obs hal → RxRoom obs hal → (rounds.map RxRound.obs).head? = some obs
  waits : ¬ (RxPending obs hal ∧ RxRoom obs hal) → rounds = []

/-- What a probe of the loop does with the RX and TX work of its word. -/
structure Probed (conf : IrqConf) (obs : IrqObs) (hal : IrqHal)
    (done : Traced IrqEvent (IrqHal × Nat × Bool × Bool)) : Prop where
  placed : done.value.1.Placed
  worked : done.value.2.2.1 = true ↔ RxPending obs hal ∨ TxPending obs hal
  rx : ∃ rounds, RxTaken conf obs hal done.log done.value.1 rounds
  frames : done.value.1.halTxFrameDoneCounter =
    if hasBit obs.status .txOk then obs.txdoneframecounter else hal.halTxFrameDoneCounter
  slots : hasBit obs.status .txOk = true → reaps done.log =
    reapsTo obs.txdoneframecounter hal.halTxFrameDoneCounter obs.freeNodes
  masked : ∀ event ∈ done.log, event.reenable = false
  quiet : done.value.2.2.1 = false → ∀ event ∈ done.log, event.work = false

theorem rx_masked {event : IrqEvent} (rx : event.rx) : event.reenable = false := by
  cases event <;> trivial

theorem tx_masked {event : IrqEvent} (tx : event.tx) : event.reenable = false := by
  cases event <;> trivial

theorem reaps_append (first second : List IrqEvent) :
    reaps (first ++ second) = reaps first ++ reaps second :=
  List.filterMap_append

private theorem reaps_rx {log : List IrqEvent} (rx : ∀ event ∈ log, event.rx) :
    reaps log = [] := by
  apply List.filterMap_eq_nil_iff.mpr
  intro event found
  have only := rx event found
  cases event <;> trivial

private theorem probeRx_pending (pending : RxPending (env index) hal) :
    probeRx conf env index hal = hiSoftRxIrq conf env index hal := by
  rw [probeRx]
  exact if_pos pending

theorem probeRx_idle (idle : ¬ RxPending (env index) hal) :
    probeRx conf env index hal = pure (hal, index + 1) := by
  rw [probeRx]
  exact if_neg idle

private theorem probeRx_done (conf : IrqConf) (env : Nat → IrqObs) (index : Nat)
    (placed : hal.Placed) :
    RxDone conf (env index) hal (RxPending (env index) hal ∧ RxRoom (env index) hal)
      (probeRx conf env index hal) := by
  by_cases pending : RxPending (env index) hal
  · rw [probeRx_pending pending]
    exact (hiSoftRxIrq_done conf env index placed).congr
      (and_congr_left fun _ => ⟨fun _ => pending, fun given => given.2⟩)
  · rw [probeRx_idle pending]
    exact .idle (fun given => pending given.1) _

/-- The TX work of a word, whether there is some or not. -/
structure TxProbed (obs : IrqObs) (hal : IrqHal) (done : Traced IrqEvent (IrqHal × Nat)) :
    Prop where
  frames : done.value.1.halTxFrameDoneCounter =
    if hasBit obs.status .txOk then obs.txdoneframecounter else hal.halTxFrameDoneCounter
  offset : done.value.1.rxHostOffset = hal.rxHostOffset
  fifo : done.value.1.fdt = hal.fdt
  wanted : done.value.1.needSchedulingTx = hal.needSchedulingTx
  worked : done.value.2 ≠ 0 ↔ TxPending obs hal
  safe : Safe IrqEvent.tx done
  slots : hasBit obs.status .txOk = true → reaps done.log =
    reapsTo obs.txdoneframecounter hal.halTxFrameDoneCounter obs.freeNodes
  quiet : done.value.2 = 0 → done.log = []

theorem probeTx_done (obs : IrqObs) (hal : IrqHal) : TxProbed obs hal (probeTx obs hal) := by
  rw [probeTx]
  by_cases shown : hasBit obs.status .txOk = true
  · obtain ⟨frames, offset, fifo, wanted, reaped, safe, slots⟩ := hiSoftTxIrq_done obs hal
    rw [if_pos shown]
    refine ⟨?_, offset, fifo, wanted, ?_, safe, fun _ => slots, ?_⟩
    · rw [if_pos shown]
      exact frames
    · rw [reaped, Ne, reaped_eq_zero]
      exact ⟨fun apart => ⟨shown, apart⟩, fun pending => pending.2⟩
    · intro none
      rw [reaped] at none
      rw [reapsTo, none] at slots
      apply List.eq_nil_iff_forall_not_mem.mpr
      intro event found
      have only := safe event found
      cases event with
      | completion slot queued =>
        have listed : (slot, queued) ∈ reaps (hiSoftTxIrq obs hal).log :=
          List.mem_filterMap.mpr ⟨_, found, rfl⟩
        rw [slots] at listed
        cases listed
      | unmask => exact only
      | notice bit => exact only
      | rcvFrame fifo offset len => exact only
      | wrapped len => exact only
      | received offset => exact only
      | published fdt => exact only
      | txFrame => exact only
      | clear => exact only
  · rw [if_neg shown]
    refine ⟨?_, rfl, rfl, rfl, ?_, Memory.safe_pure _, fun given => absurd given shown,
      fun _ => rfl⟩
    · rw [if_neg shown]
      rfl
    · exact ⟨fun some => absurd rfl some, fun pending => absurd pending.1 shown⟩

private theorem tx_not_rx {event : IrqEvent} (tx : event.tx) : ¬ event.rx := by
  cases event <;> first | exact id | exact fun _ => tx

theorem drainProbe_probed (conf : IrqConf) (env : Nat → IrqObs) (index : Nat)
    (placed : hal.Placed) : Probed conf (env index) hal (drainProbe conf env index hal) := by
  obtain ⟨rounds, taken, follow, takes, waits⟩ := probeRx_done conf env index placed
  have only : RxOnly hal (probeRx conf env index hal).value.1 := follow.only placed
  have rx : Safe IrqEvent.rx (probeRx conf env index hal) := by
    intro event found
    rw [taken] at found
    exact follow.safe event found
  have tx : TxProbed (env index) (probeRx conf env index hal).value.1
      (probeTx (env index) (probeRx conf env index hal).value.1) := probeTx_done _ _
  have log : (drainProbe conf env index hal).log = (probeRx conf env index hal).log ++
      (probeTx (env index) (probeRx conf env index hal).value.1).log := by
    show _ ++ (_ ++ []) = _
    rw [List.append_nil]
  have worked : (drainProbe conf env index hal).value.2.2.1 = true ↔
      RxPending (env index) hal ∨ TxPending (env index) hal := by
    show (_ || decide (_ ≠ 0)) = true ↔ _
    rw [Bool.or_eq_true, decide_eq_true_iff, tx.worked, TxPending, only.frames, Bool.and_eq_true,
      decide_eq_true_iff]
    rfl
  refine ⟨?_, worked, ⟨rounds, ?_, ?_, ?_, waits⟩, ?_, ?_, ?_, ?_⟩
  · exact ⟨tx.offset ▸ only.placed.chip, tx.fifo ▸ only.placed.fifo⟩
  · exact ⟨_, log.trans (congrArg (· ++ _) taken),
      fun event found => tx_not_rx (tx.safe event found)⟩
  · exact ⟨_, follow, tx.offset, tx.fifo⟩
  · exact fun pending room => takes ⟨pending, room⟩
  · rw [← only.frames]
    exact tx.frames
  · intro shown
    rw [log, reaps_append, reaps_rx rx, List.nil_append, tx.slots shown, only.frames]
  · intro event found
    rw [log] at found
    rcases List.mem_append.mp found with first | second
    · exact rx_masked (rx event first)
    · exact tx_masked (tx.safe event second)
  · intro none event found
    have idle : ¬ (RxPending (env index) hal ∨ TxPending (env index) hal) := by
      rw [← worked, none]
      exact Bool.false_ne_true
    have settled : ¬ TxPending (env index) (probeRx conf env index hal).value.1 := by
      rw [TxPending, only.frames]
      exact (not_or.mp idle).2
    have nothing : (probeTx (env index) (probeRx conf env index hal).value.1).log = [] :=
      tx.quiet (not_not.mp fun some => settled (tx.worked.mp some))
    rw [log, nothing, probeRx_idle (not_or.mp idle).1] at found
    cases found

end Probes

section Turns

variable {drain : DrainState} {owed : Bool} {log : List IrqEvent}

/-- RX and TX work is outstanding that no flush follows. -/
def unflushed (owed : Bool) (log : List IrqEvent) : Bool :=
  Owing.owes IrqEvent.work IrqEvent.flush owed log

theorem unflushed_append (first second : List IrqEvent) : unflushed owed (first ++ second) =
    unflushed (unflushed owed first) second := Owing.owes_append

theorem unflushed_txFrame (log : List IrqEvent) : unflushed owed (log ++ [.txFrame]) = false := by
  rw [unflushed_append]
  rfl

theorem flushIf_log (due : Bool) (obs : IrqObs) (hal : IrqHal) :
    (flushIf due obs hal).log = if due then [.txFrame] else [] := by
  rw [flushIf]
  cases due with
  | true => rfl
  | false => rfl

/-- A flush leaves all but `need_scheduling_tx` alone. -/
theorem flushIf_same (due : Bool) (obs : IrqObs) (hal : IrqHal) :
    (flushIf due obs hal).value.rxHostOffset = hal.rxHostOffset ∧
      (flushIf due obs hal).value.fdt = hal.fdt ∧
      (flushIf due obs hal).value.halTxFrameDoneCounter = hal.halTxFrameDoneCounter := by
  rw [flushIf]
  cases due with
  | true => exact ⟨rfl, rfl, rfl⟩
  | false => exact ⟨rfl, rfl, rfl⟩

/-- What a pass ought to do: take the bytes of the RX work that there is room for and leave the rest
in the chip, and reap all TX frames. -/
structure PassRight (conf : IrqConf) (pass : DrainPass) : Prop where
  rx : ∃ rounds, RxTaken conf pass.obs pass.before pass.events pass.after rounds
  frames : hasBit pass.obs.status .txOk = true →
    pass.after.halTxFrameDoneCounter = pass.obs.txdoneframecounter
  slots : hasBit pass.obs.status .txOk = true → reaps pass.events =
    reapsTo pass.obs.txdoneframecounter pass.before.halTxFrameDoneCounter pass.obs.freeNodes

def WorkPending (obs : IrqObs) (hal : IrqHal) : Prop := RxPending obs hal ∨ TxPending obs hal

/-- What a turn of the loop does. -/
structure Turned (conf : IrqConf) (env : Nat → IrqObs) (drain : DrainState)
    (turn : Traced IrqEvent (DrainState × Bool)) : Prop where
  right : PassRight conf ⟨env drain.index, drain.hal, turn.log, turn.value.1.hal⟩
  placed : turn.value.1.hal.Placed
  worked : turn.value.2 = true ↔ WorkPending (env drain.index) drain.hal
  settled : turn.value.2 = false → ¬ WorkPending (env drain.index) turn.value.1.hal
  masked : ∀ event ∈ turn.log, event.reenable = false
  flushed : ∀ owed, (owed = true → drain.workSinceFlush ≠ 0) →
    unflushed owed turn.log = true → turn.value.1.workSinceFlush ≠ 0

theorem flushIf_masked (due : Bool) (obs : IrqObs) (hal : IrqHal) :
    ∀ event ∈ (flushIf due obs hal).log, event.reenable = false := by
  intro event found
  rw [flushIf_log] at found
  split at found
  · rw [List.mem_singleton.mp found]
    rfl
  · cases found

private theorem flushIf_not_rx (due : Bool) (obs : IrqObs) (hal : IrqHal) :
    ∀ event ∈ (flushIf due obs hal).log, ¬ event.rx := by
  intro event found
  rw [flushIf_log] at found
  split at found
  · rw [List.mem_singleton.mp found]
    exact id
  · cases found

/-- A probe with a flush behind it is a pass as it ought to be. -/
theorem Probed.right {obs : IrqObs} {probe : Traced IrqEvent (IrqHal × Nat × Bool × Bool)}
    (probed : Probed conf obs hal probe) (due : Bool) {flushing next : IrqHal}
    (offset : next.rxHostOffset = probe.value.1.rxHostOffset) (fifo : next.fdt = probe.value.1.fdt)
    (frames : next.halTxFrameDoneCounter = probe.value.1.halTxFrameDoneCounter) :
    PassRight conf ⟨obs, hal, probe.log ++ (flushIf due obs flushing).log, next⟩ := by
  have nothing : reaps (flushIf due obs flushing).log = [] := by
    rw [flushIf_log]
    cases due with
    | true => rfl
    | false => rfl
  obtain ⟨rounds, ⟨rest, split, others⟩, ⟨last, follow, sameOffset, sameFifo⟩, takes, waits⟩ :=
    probed.rx
  refine ⟨⟨rounds, ⟨rest ++ (flushIf due obs flushing).log, ?_, ?_⟩, ⟨last, follow, ?_, ?_⟩, takes,
    waits⟩, ?_, ?_⟩
  · show probe.log ++ _ = _
    rw [split, List.append_assoc]
  · intro event found
    rcases List.mem_append.mp found with before | flush
    · exact others event before
    · exact flushIf_not_rx _ _ _ event flush
  · exact offset.trans sameOffset
  · exact fifo.trans sameFifo
  · intro shown
    have taken := frames.trans probed.frames
    rwa [if_pos shown] at taken
  · intro shown
    show reaps (probe.log ++ _) = _
    rw [reaps_append, nothing, List.append_nil]
    exact probed.slots shown

/-- A probe without work leaves the offset where it is. -/
theorem Probed.waits {obs : IrqObs} {probe : Traced IrqEvent (IrqHal × Nat × Bool × Bool)}
    (probed : Probed conf obs hal probe) (idle : ¬ RxPending obs hal) :
    probe.value.1.rxHostOffset = hal.rxHostOffset := by
  obtain ⟨rounds, taken⟩ := probed.rx
  obtain ⟨last, follow, offset, -⟩ := taken.follow
  rw [taken.waits fun both => idle both.1] at follow
  cases follow
  exact offset

/-- A turn is a probe with a flush behind it, which settles all but the work it was for. -/
private theorem Probed.turned {env : Nat → IrqObs} {due : Bool} {flushing : IrqHal}
    {probe : Traced IrqEvent (IrqHal × Nat × Bool × Bool)}
    {turn : Traced IrqEvent (DrainState × Bool)}
    (probed : Probed conf (env drain.index) drain.hal probe)
    (hal : turn.value.1.hal = (flushIf due (env drain.index) flushing).value)
    (log : turn.log = probe.log ++ (flushIf due (env drain.index) flushing).log)
    (same : flushing.rxHostOffset = probe.value.1.rxHostOffset ∧
      flushing.fdt = probe.value.1.fdt ∧
      flushing.halTxFrameDoneCounter = probe.value.1.halTxFrameDoneCounter)
    (worked : turn.value.2 = true ↔ WorkPending (env drain.index) drain.hal)
    (flushed : ∀ owed, (owed = true → drain.workSinceFlush ≠ 0) →
      unflushed owed turn.log = true → turn.value.1.workSinceFlush ≠ 0) :
    Turned conf env drain turn := by
  have kept := flushIf_same due (env drain.index) flushing
  rw [← hal] at kept
  have offset := kept.1.trans same.1
  have fifo := kept.2.1.trans same.2.1
  have frames := kept.2.2.trans same.2.2
  refine ⟨?_, ⟨offset ▸ probed.placed.chip, fifo ▸ probed.placed.fifo⟩, worked, ?_, ?_, flushed⟩
  · rw [log]
    exact probed.right due offset fifo frames
  · intro done
    have idle : ¬ WorkPending (env drain.index) drain.hal :=
      fun pending => Bool.false_ne_true (done.symm.trans (worked.mpr pending))
    have waits := offset.trans (probed.waits fun pending => idle (.inl pending))
    rintro (⟨shown, apart⟩ | ⟨shown, apart⟩)
    · rw [waits] at apart
      exact idle (.inl ⟨shown, apart⟩)
    · have taken := frames.trans probed.frames
      rw [if_pos shown] at taken
      exact apart taken.symm
  · intro event found
    rw [log] at found
    rcases List.mem_append.mp found with first | second
    · exact probed.masked event first
    · exact flushIf_masked _ _ _ event second

theorem drainTurn_turned (conf : IrqConf) (env : Nat → IrqObs) (placed : drain.hal.Placed) :
    Turned conf env drain (drainTurn conf env drain) := by
  have probed := drainProbe_probed conf env drain.index placed
  generalize probe_eq : drainProbe conf env drain.index drain.hal = probe at probed
  have turn_eq : drainTurn conf env drain = probe >>= fun done =>
      if done.2.2.1 then
        flushIf (done.2.2.2 || decide (txFlushEvery ≤ drain.workSinceFlush + 1)) (env drain.index)
            { done.1 with needSchedulingTx := true } >>= fun hal =>
          pure ({ drain with
            hal
            index := done.2.1
            idlePolls := 0
            workSinceFlush :=
              if done.2.2.2 || decide (txFlushEvery ≤ drain.workSinceFlush + 1) then 0
              else drain.workSinceFlush + 1 }, true)
      else
        flushIf (decide (drain.workSinceFlush ≠ 0)) (env drain.index) done.1 >>= fun hal =>
          pure ({ drain with hal, index := done.2.1, workSinceFlush := 0 }, false) := by
    rw [← probe_eq]
    rfl
  by_cases worked : probe.value.2.2.1 = true
  · obtain ⟨due, due_eq⟩ : ∃ due, due =
        (probe.value.2.2.2 || decide (txFlushEvery ≤ drain.workSinceFlush + 1)) := ⟨_, rfl⟩
    have value : (drainTurn conf env drain).value = ({ drain with
        hal := (flushIf due (env drain.index)
          { probe.value.1 with needSchedulingTx := true }).value
        index := probe.value.2.1
        idlePolls := 0
        workSinceFlush := if due then 0 else drain.workSinceFlush + 1 }, true) := by
      rw [turn_eq, Memory.value_bind, if_pos worked, due_eq]
      rfl
    have log : (drainTurn conf env drain).log = probe.log ++ (flushIf due (env drain.index)
        { probe.value.1 with needSchedulingTx := true }).log := by
      rw [turn_eq, Memory.log_bind, if_pos worked, Memory.log_bind, Memory.log_pure,
        List.append_nil, due_eq]
    refine probed.turned (congrArg (·.1.hal) value) log ⟨rfl, rfl, rfl⟩ ?_ ?_
    · rw [value]
      exact iff_of_true rfl (probed.worked.mp worked)
    · intro owed _ opened
      rw [log, flushIf_log] at opened
      rw [value]
      cases due with
      | true =>
        rw [if_pos rfl, unflushed_txFrame] at opened
        cases opened
      | false => exact Nat.succ_ne_zero _
  · have value : (drainTurn conf env drain).value = ({ drain with
        hal := (flushIf (decide (drain.workSinceFlush ≠ 0)) (env drain.index) probe.value.1).value
        index := probe.value.2.1
        workSinceFlush := 0 }, false) := by
      rw [turn_eq, Memory.value_bind, if_neg worked]
      rfl
    have log : (drainTurn conf env drain).log = probe.log ++
        (flushIf (decide (drain.workSinceFlush ≠ 0)) (env drain.index) probe.value.1).log := by
      rw [turn_eq, Memory.log_bind, if_neg worked, Memory.log_bind, Memory.log_pure,
        List.append_nil]
    refine probed.turned (congrArg (·.1.hal) value) log ⟨rfl, rfl, rfl⟩ ?_ ?_
    · rw [value]
      exact iff_of_false Bool.false_ne_true fun pending => worked (probed.worked.mpr pending)
    · intro owed owing opened
      have quiet := probed.quiet (by simpa using worked)
      rw [log, flushIf_log] at opened
      by_cases batched : drain.workSinceFlush ≠ 0
      · rw [if_pos (decide_eq_true batched), unflushed_txFrame] at opened
        cases opened
      · rw [if_neg (by simpa using batched), List.append_nil] at opened
        exact absurd (owing (Owing.owes_of_quiet quiet opened)) batched

end Turns

section Loop

variable {drain : DrainState} {breakOnRepeat : Bool} {maxIdlePolls : Nat}

/-- What the loop does: every pass is as it ought to be, and one that leaves work is not the last
unless the bound is reached. -/
structure Looped (conf : IrqConf) (env : Nat → IrqObs) (left : Nat) (drain : DrainState)
    (loop : Traced DrainPass (DrainExit × DrainState)) : Prop where
  right : ∀ pass ∈ loop.log, PassRight conf pass
  short : loop.log.length ≤ left
  bound : loop.value.1 = .bound → loop.log.length = left
  settled : loop.value.1 ≠ .bound → ∃ front last, loop.log = front ++ [last] ∧
    ¬ WorkPending last.obs loop.value.2.hal
  masked : ∀ pass ∈ loop.log, ∀ event ∈ pass.events, event.reenable = false
  flushed : ∀ owed, (owed = true → drain.workSinceFlush ≠ 0) →
    unflushed owed (loop.log.flatMap DrainPass.events) = true →
    loop.value.2.workSinceFlush ≠ 0

def passOf (env : Nat → IrqObs) (drain : DrainState) (turn : Traced IrqEvent (DrainState × Bool)) :
    DrainPass :=
  ⟨env drain.index, drain.hal, turn.log, turn.value.1.hal⟩

variable {turn : Traced IrqEvent (DrainState × Bool)} {next : DrainState}
  {loop rest : Traced DrainPass (DrainExit × DrainState)}

private theorem Turned.more (turned : Turned conf env drain turn)
    (looped : Looped conf env left next rest)
    (batched : next.workSinceFlush = turn.value.1.workSinceFlush)
    (log : loop.log = passOf env drain turn :: rest.log) (value : loop.value = rest.value) :
    Looped conf env (left + 1) drain loop := by
  refine ⟨?_, ?_, ?_, ?_, ?_, ?_⟩
  · intro pass found
    rw [log] at found
    rcases List.mem_cons.mp found with rfl | later
    · exact turned.right
    · exact looped.right pass later
  · rw [log, List.length_cons]
    exact Nat.succ_le_succ looped.short
  · intro exit
    rw [value] at exit
    rw [log, List.length_cons, looped.bound exit]
  · intro exit
    rw [value] at exit ⊢
    obtain ⟨front, last, split, settled⟩ := looped.settled exit
    exact ⟨passOf env drain turn :: front, last, by rw [log, split]; rfl, settled⟩
  · intro pass found
    rw [log] at found
    rcases List.mem_cons.mp found with rfl | later
    · exact turned.masked
    · exact looped.masked pass later
  · intro owed owing opened
    rw [log, List.flatMap_cons, unflushed_append] at opened
    rw [value]
    refine looped.flushed _ ?_ opened
    intro still
    rw [batched]
    exact turned.flushed owed owing still

/-- A turn without work may be the last. -/
theorem Turned.last (turned : Turned conf env drain turn) (idle : turn.value.2 = false)
    (exit : loop.value.1 ≠ .bound) (same : loop.value.2.hal = turn.value.1.hal)
    (batched : loop.value.2.workSinceFlush = turn.value.1.workSinceFlush)
    (log : loop.log = [passOf env drain turn]) : Looped conf env (left + 1) drain loop := by
  refine ⟨?_, ?_, fun bound => absurd bound exit, ?_, ?_, ?_⟩
  · intro pass found
    rw [log] at found
    rw [List.mem_singleton.mp found]
    exact turned.right
  · rw [log]
    exact Nat.succ_le_succ (Nat.zero_le _)
  · intro _
    refine ⟨[], passOf env drain turn, log, ?_⟩
    rw [same]
    exact turned.settled idle
  · intro pass found
    rw [log] at found
    rw [List.mem_singleton.mp found]
    exact turned.masked
  · intro owed owing opened
    rw [log, List.flatMap_cons, List.flatMap_nil, List.append_nil] at opened
    rw [batched]
    exact turned.flushed owed owing opened

theorem drainLoop_looped (conf : IrqConf) (env : Nat → IrqObs) (breakOnRepeat : Bool)
    (maxIdlePolls left : Nat) (drain : DrainState) (placed : drain.hal.Placed) :
    Looped conf env left drain (drainLoop conf env breakOnRepeat maxIdlePolls left drain) := by
  induction left generalizing drain with
  | zero =>
    refine ⟨?_, Nat.le_refl _, fun _ => rfl, fun exit => absurd rfl exit, ?_, ?_⟩
    · intro pass found
      cases found
    · intro pass found
      cases found
    · intro owed owing opened
      exact owing opened
  | succ left ih =>
    have turned : Turned conf env drain (drainTurn conf env drain) :=
      drainTurn_turned conf env placed
    rw [drainLoop]
    dsimp only
    cases worked : (drainTurn conf env drain).value.2 with
    | true => exact turned.more (ih _ turned.placed) rfl rfl rfl
    | false =>
      rw [if_neg Bool.false_ne_true]
      split
      · refine turned.last worked ?_ rfl rfl rfl
        exact DrainExit.noConfusion
      · split
        · refine turned.last worked ?_ rfl rfl rfl
          exact DrainExit.noConfusion
        · exact turned.more (ih { (drainTurn conf env drain).value.1 with
            prevStatus := (env drain.index).status
            idlePolls := drain.idlePolls + 1 } turned.placed) rfl rfl rfl

end Loop

section Tasks

/-- What the entry of the task does before the loop. -/
structure Entered (entry : Traced IrqEvent (IrqHal × Nat)) : Prop where
  placed : entry.value.1.Placed
  masked : ∀ event ∈ entry.log, event.reenable = false
  flushed : unflushed false entry.log = false

private theorem notices_quiet (bits : List IrqBit) :
    ∀ event ∈ (bits.forM fun bit => (emit (.notice bit) : Traced IrqEvent Unit)).log,
      event.reenable = false ∧ event.work = false := by
  intro event found
  rw [Memory.log_forM_emit] at found
  obtain ⟨bit, -, rfl⟩ := List.mem_map.mp found
  exact ⟨rfl, rfl⟩

private theorem unflushed_quiet {log : List IrqEvent} (quiet : ∀ event ∈ log, event.work = false) :
    unflushed false log = false := by
  cases opened : unflushed false log with
  | true => exact absurd (Owing.owes_of_quiet quiet opened) Bool.false_ne_true
  | false => rfl

private theorem entryRx_done (conf : IrqConf) (env : Nat → IrqObs) (placed : start.Placed) :
    RxOnly start (entryRx conf env start).value.1 ∧ Safe IrqEvent.rx (entryRx conf env start) := by
  rw [entryRx]
  split
  · obtain ⟨rounds, log, follow, -⟩ := hiSoftRxIrq_done conf env 0 placed
    refine ⟨follow.only placed, ?_⟩
    intro event found
    rw [log] at found
    exact follow.safe event found
  · exact ⟨⟨placed, rfl, rfl⟩, Memory.safe_pure _⟩

theorem irqEntry_entered (conf : IrqConf) (env : Nat → IrqObs) (placed : start.Placed) :
    Entered (irqEntry conf env start) := by
  obtain ⟨only, rx⟩ := entryRx_done conf env placed
  have tx : TxProbed (env 0) (entryRx conf env start).value.1
      (probeTx (env 0) (entryRx conf env start).value.1) := probeTx_done _ _
  have value : (irqEntry conf env start).value.1 =
      (flushIf (entryWanted (env 0).status start) (env 0)
        { (probeTx (env 0) (entryRx conf env start).value.1).value.1 with
          needSchedulingTx := entryWanted (env 0).status start }).value := rfl
  have log : (irqEntry conf env start).log =
      ((wakeNotices (env 0).status).forM fun bit =>
          (emit (.notice bit) : Traced IrqEvent Unit)).log ++
        ((entryRx conf env start).log ++
          ((probeTx (env 0) (entryRx conf env start).value.1).log ++
            ((flushIf (entryWanted (env 0).status start) (env 0)
                { (probeTx (env 0) (entryRx conf env start).value.1).value.1 with
                  needSchedulingTx := entryWanted (env 0).status start }).log ++
              ((otherNotices (env 0).status).forM fun bit =>
                (emit (.notice bit) : Traced IrqEvent Unit)).log))) := by
    rw [← List.append_nil ((otherNotices (env 0).status).forM fun bit =>
      (emit (.notice bit) : Traced IrqEvent Unit)).log]
    rfl
  obtain ⟨offset, fifo, -⟩ := flushIf_same (entryWanted (env 0).status start) (env 0)
    { (probeTx (env 0) (entryRx conf env start).value.1).value.1 with
      needSchedulingTx := entryWanted (env 0).status start }
  refine ⟨?_, ?_, ?_⟩
  · rw [value]
    exact ⟨offset.trans tx.offset ▸ only.placed.chip, fifo.trans tx.fifo ▸ only.placed.fifo⟩
  · intro event found
    rw [log] at found
    simp only [List.mem_append] at found
    rcases found with wake | first | second | flush | other
    · exact (notices_quiet _ event wake).1
    · exact rx_masked (rx event first)
    · exact tx_masked (tx.safe event second)
    · exact flushIf_masked _ _ _ event flush
    · exact (notices_quiet _ event other).1
  · rw [log, unflushed_append, unflushed_append, unflushed_append, unflushed_append, flushIf_log]
    have others := unflushed_quiet fun event found =>
      (notices_quiet (otherNotices (env 0).status) event found).2
    have wakes := unflushed_quiet fun event found =>
      (notices_quiet (wakeNotices (env 0).status) event found).2
    cases wanted : entryWanted (env 0).status start with
    | true => exact others
    | false =>
      rw [entryWanted, Bool.or_eq_false_iff, Bool.or_eq_false_iff] at wanted
      have noRx : (entryRx conf env start).log = [] := by
        rw [entryRx, wanted.1.2]
        rfl
      have noTx : (probeTx (env 0) (entryRx conf env start).value.1).log = [] := by
        rw [probeTx, wanted.2]
        rfl
      rw [wakes, noRx, noTx]
      exact others

/-- What the task ought to do. Every event of RX and TX work is followed by a flush before the
interrupt is let in again; every pass of the loop takes the RX work that there is room for and reaps
all TX frames; and if the bound is not reached, the loop ends with a word that shows no work. -/
structure IrqTaskRight (conf : IrqConf) (env : Nat → IrqObs) (start : IrqHal) : Prop where
  flushed : ∀ front event back, (hiIrqTask conf env start).events = front ++ event :: back →
    event.work = true → ∃ mid rest, back = mid ++ .txFrame :: rest ∧
      ∀ other ∈ mid, other.reenable = false
  right : ∀ pass ∈ (hiIrqTask conf env start).passes, PassRight conf pass
  short : (hiIrqTask conf env start).passes.length ≤ conf.maxIters
  settled : ∀ exit drain, (hiIrqTask conf env start).ended = some (exit, drain) →
    (hiIrqTask conf env start).passes.length = conf.maxIters ∨
      ∃ front last, (hiIrqTask conf env start).passes = front ++ [last] ∧
        ¬ WorkPending last.obs drain.hal

private theorem flush_txFrame {event : IrqEvent} (flush : event.flush = true) :
    event = .txFrame := by
  cases event <;> first | rfl | cases flush

/-- With nothing outstanding the interrupt may be let in. -/
theorem flushed_before {log front back : List IrqEvent} {event last : IrqEvent}
    (masked : ∀ event ∈ log, event.reenable = false) (settled : unflushed false log = false)
    (quiet : last.work = false) (split : log ++ [last] = front ++ event :: back)
    (worked : event.work = true) : ∃ mid rest, back = mid ++ .txFrame :: rest ∧
      ∀ other ∈ mid, other.reenable = false := by
  have clean : Owing.Clean IrqEvent.work IrqEvent.flush IrqEvent.reenable false (log ++ [last]) :=
    Owing.clean_append.mpr ⟨Owing.clean_of_open masked, fun _ => settled, trivial⟩
  have done : unflushed false (log ++ [last]) = false := by
    rw [unflushed_append, settled]
    cases opened : unflushed false [last] with
    | true => exact absurd (Owing.owes_of_quiet (by simpa using quiet) opened) Bool.false_ne_true
    | false => rfl
  obtain ⟨mid, flush, rest, back_eq, flushing, masked⟩ := Owing.settled clean done split worked
  rw [flush_txFrame flushing] at back_eq
  exact ⟨mid, rest, back_eq, masked⟩

private theorem IrqTaskRight.of_entry {log : List IrqEvent} {last : IrqEvent}
    (run : hiIrqTask conf env start = ⟨log, [], none, [last]⟩)
    (masked : ∀ event ∈ log, event.reenable = false) (settled : unflushed false log = false)
    (quiet : last.work = false) : IrqTaskRight conf env start := by
  refine ⟨?_, ?_, ?_, ?_⟩
  · intro front event back split worked
    have events : (hiIrqTask conf env start).events = log ++ [last] := by
      rw [run, IrqRun.events, List.flatMap_nil, List.append_nil]
    rw [events] at split
    exact flushed_before masked settled quiet split worked
  · intro pass found
    rw [run] at found
    cases found
  · rw [run]
    exact Nat.zero_le _
  · intro exit drain ended
    rw [run] at ended
    cases ended

private theorem IrqTaskRight.of_loop {entry : Traced IrqEvent (IrqHal × Nat)} {first : DrainState}
    {loop : Traced DrainPass (DrainExit × DrainState)} (obs : IrqObs) (entered : Entered entry)
    (looped : Looped conf env conf.maxIters first loop)
    (run : hiIrqTask conf env start = ⟨entry.log, loop.log, some loop.value,
      (flushIf (decide (loop.value.2.workSinceFlush ≠ 0)) obs loop.value.2.hal).log ++ [.clear]⟩) :
    IrqTaskRight conf env start := by
  refine ⟨?_, ?_, ?_, ?_⟩
  · intro front event back split worked
    have events : (hiIrqTask conf env start).events =
        (entry.log ++ loop.log.flatMap DrainPass.events ++
          (flushIf (decide (loop.value.2.workSinceFlush ≠ 0)) obs loop.value.2.hal).log) ++
            [.clear] := by
      rw [run]
      exact (List.append_assoc _ _ _).symm
    rw [events] at split
    refine flushed_before ?_ ?_ rfl split worked
    · intro other found
      simp only [List.mem_append, List.mem_flatMap] at found
      rcases found with (before | ⟨pass, listed, inside⟩) | after
      · exact entered.masked other before
      · exact looped.masked pass listed other inside
      · exact flushIf_masked _ _ _ other after
    · rw [unflushed_append, unflushed_append, entered.flushed, flushIf_log]
      cases opened : unflushed false (loop.log.flatMap DrainPass.events) with
      | true =>
        have batched := looped.flushed false (fun none => nomatch none) opened
        rw [if_pos (decide_eq_true batched)]
        rfl
      | false =>
        split
        · rfl
        · rfl
  · intro pass found
    rw [run] at found
    exact looped.right pass found
  · rw [run]
    exact looped.short
  · intro exit drain ended
    rw [run] at ended ⊢
    have value : loop.value = (exit, drain) := Option.some.inj ended
    by_cases bound : exit = .bound
    · left
      exact looped.bound (value ▸ bound)
    · right
      obtain ⟨front, last, split, settled⟩ := looped.settled (value ▸ bound)
      rw [value] at settled
      exact ⟨front, last, split, settled⟩

/-- The parameters as the module has them, and whole blocks of function 6. -/
def usualIrqConf : IrqConf := ⟨512, 8, 8, 1, 1, fun len => (len + 511) / 512 * 512⟩

/-- An open host with an empty FIFO. -/
def freshIrqHal : IrqHal := ⟨0, 1, 0, 0, 0, false, 0, 0, 0⟩

/-- A word with bits of RX and TX and a pointer, which the host meets open and with room up to
`fdh`, with `frames` frames done and all nodes free. -/
def shown (bits pointer fdh : Nat) (frames : UInt8)
    (ring : fwRxPtr (pointer * 2 ^ 16 + bits) * 4 < rxmaxOffset) : IrqObs :=
  ⟨pointer * 2 ^ 16 + bits, true, 0, fdh, frames, 0, 256, 0, false, ring⟩

/-- RX and TX work comes in behind the first word. -/
def lateWork (index : Nat) : IrqObs :=
  [shown 0 0 0 0 (by decide), shown 12 4 0 3 (by decide), shown 4 8 0 3 (by decide)].getD index
    (shown 4 8 0 3 (by decide))

/-- The pointer moves without `RX_OK`. -/
def movedOnly (index : Nat) : IrqObs :=
  [shown 0 0 0 0 (by decide)].getD index (shown 0 4 0 0 (by decide))

/-- A word with `RX_OK` comes while the FIFO is full, and then words without. -/
def fullFifo (index : Nat) : IrqObs :=
  [shown 0 0 1 0 (by decide), shown 4 4 1 0 (by decide)].getD index (shown 0 4 0 0 (by decide))

end Tasks

end W522a.Hal
