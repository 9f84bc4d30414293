import W522a.Rx.Scoreboard
import Mathlib.Logic.Function.Iterate

/-!
The ring seen from its window: the frame at an offset from the head, and how the two operations
every loop is made of, releasing the head and storing a frame, move it.
-/

namespace W522a.Rx.RxScoreboard

def frameAt (scb : RxScoreboard) (offset : Nat) : Option SkBuff :=
  Ring.entry drvTidMaxBufs scb.wbuf scb.bawHead offset

section Fields

variable (scb : RxScoreboard) (skb : SkBuff)

@[simp] theorem releaseHead_bawSize : scb.releaseHead.bawSize = scb.bawSize := by
  unfold releaseHead; split <;> rfl

@[simp] theorem releaseHead_bawTail : scb.releaseHead.bawTail = scb.bawTail := by
  unfold releaseHead; split <;> rfl

@[simp] theorem releaseHead_bawHead :
    scb.releaseHead.bawHead = circleAddOne scb.bawHead drvTidMaxBufs := by
  unfold releaseHead; split <;> rfl

@[simp] theorem releaseHead_seqNext :
    scb.releaseHead.seqNext = circleAddOne scb.seqNext wifinetSeqMax := by
  unfold releaseHead; split <;> rfl

@[simp] theorem releaseHead_seqReset : scb.releaseHead.seqReset = scb.seqReset := by
  unfold releaseHead; split <;> rfl

@[simp] theorem releaseHead_complete :
    scb.releaseHead.rxAddbaExchangecomplete = scb.rxAddbaExchangecomplete := by
  unfold releaseHead; split <;> rfl

@[simp] theorem releaseHead_isSome : scb.releaseHead.pRxDesc.isSome = scb.pRxDesc.isSome := by
  unfold releaseHead; split <;> simp [advance, handUp, clearHead, touch]

theorem releaseHead_handedUp :
    scb.releaseHead.handedUp = scb.handedUp ++ (scb.wbuf scb.bawHead).toList := by
  unfold releaseHead; split
  · rename_i found; simp [found, advance, handUp, clearHead]
  · rename_i empty; simp [empty, advance, touch]

theorem discardHead_eq : scb.discardHead =
    { scb.releaseHead with
      handedUp := scb.handedUp
      freed := scb.freed ++ (scb.wbuf scb.bawHead).toList } := by
  unfold discardHead releaseHead; split
  · rename_i found; simp [found, advance, handUp, skbFree, clearHead]
  · rename_i empty; simp [empty, advance, touch]

end Fields

theorem frameAt_congr {first second : RxScoreboard} (ring : first.pRxDesc = second.pRxDesc)
    (head : first.bawHead = second.bawHead) : first.frameAt = second.frameAt := by
  funext offset
  simp [frameAt, Ring.entry, wbuf, ring, head]

theorem ringPending_congr {first second : RxScoreboard} (head : first.bawHead = second.bawHead)
    (tail : first.bawTail = second.bawTail) : first.ringPending = second.ringPending := by
  simp [ringPending, head, tail]

theorem frameAt_zero {scb : RxScoreboard} (inside : scb.bawHead < 128) :
    scb.frameAt 0 = scb.wbuf scb.bawHead := by
  simp [frameAt, Ring.entry, Ring.slot_zero inside]

theorem ringPending_lt (scb : RxScoreboard) : scb.ringPending < 128 := by
  simp only [ringPending, drvTidMaxBufs]; omega

theorem ringPending_eq_zero_iff {scb : RxScoreboard} (headInside : scb.bawHead < 128)
    (tailInside : scb.bawTail < 128) : scb.ringPending = 0 ↔ scb.bawHead = scb.bawTail := by
  simp only [ringPending, drvTidMaxBufs]; omega

theorem wbuf_releaseHead (scb : RxScoreboard) (index : Nat) :
    scb.releaseHead.wbuf index = if index = scb.bawHead then none else scb.wbuf index := by
  unfold releaseHead
  split
  · by_cases same : index = scb.bawHead
    · simp [wbuf, advance, handUp, clearHead, same]
    · simp only [wbuf, advance, handUp, clearHead, same, if_false]
      cases scb.pRxDesc <;> simp [same]
  · rename_i empty
    split
    · rename_i same
      rw [same]
      exact empty
    · rfl

/-- Releasing the head moves every frame one place forward and leaves the last place empty. -/
theorem frameAt_releaseHead {scb : RxScoreboard} (inside : scb.bawHead < 128) {offset : Nat}
    (bound : offset < 128) :
    scb.releaseHead.frameAt offset = if offset = 127 then none else scb.frameAt (offset + 1) := by
  have head_eq : scb.releaseHead.bawHead = Ring.next 128 scb.bawHead := by
    rw [releaseHead_bawHead, circleAddOne_eq_next _ (by decide)]
  by_cases last : offset = 127
  · have slot_eq : Ring.slot 128 (Ring.next 128 scb.bawHead) offset = scb.bawHead := by
      rw [last]; exact Ring.slot_next_last inside
    rw [frameAt, Ring.entry, drvTidMaxBufs, head_eq, slot_eq, wbuf_releaseHead]
    simp [last]
  · have shifted : Ring.slot 128 (Ring.next 128 scb.bawHead) offset =
        Ring.slot 128 scb.bawHead (offset + 1) := Ring.slot_next inside (by omega)
    have different : Ring.slot 128 scb.bawHead (offset + 1) ≠ scb.bawHead := by
      intro same
      have zero : offset + 1 = 0 := by
        apply Ring.slot_inj inside (by omega) (by decide)
        rw [same, Ring.slot_zero inside]
      omega
    simp only [frameAt, Ring.entry, drvTidMaxBufs, head_eq, shifted, wbuf_releaseHead, last,
      different, if_false]

theorem ringPending_releaseHead (scb : RxScoreboard) :
    (scb.releaseHead.ringPending : Int) = ((scb.ringPending : Int) - 1) % 128 := by
  simp only [ringPending, releaseHead_bawTail, releaseHead_bawHead, circleAddOne, drvTidMaxBufs]
  split <;> omega

/-- Storing a frame changes the place it is stored at and no other. -/
theorem frameAt_store {scb : RxScoreboard} {desc : RxDesc} {offset other : Nat}
    (inside : scb.bawHead < 128) (bound : offset < 128) (otherBound : other < 128)
    (ring : scb.pRxDesc.isSome) :
    (scb.store ((scb.bawHead + offset) % 128) desc).frameAt other =
      if other = offset then desc.rxWbuf else scb.frameAt other := by
  obtain ⟨slots, found⟩ := Option.isSome_iff_exists.mp ring
  by_cases same : other = offset
  · simp [frameAt, Ring.entry, Ring.slot, wbuf, store, touch, found, same]
  · have different : (scb.bawHead + other) % 128 ≠ (scb.bawHead + offset) % 128 := by
      intro equal
      exact same (Ring.slot_inj inside otherBound bound equal)
    simp [frameAt, Ring.entry, Ring.slot, wbuf, store, touch, found, same, different]

/-- The loops' guard and the number of turns left to the tail. -/
theorem ringPending_releaseHead_pos {scb : RxScoreboard} (headInside : scb.bawHead < 128)
    (tailInside : scb.bawTail < 128) (apart : scb.bawHead ≠ scb.bawTail) :
    scb.releaseHead.ringPending + 1 = scb.ringPending := by
  have positive := mt (ringPending_eq_zero_iff headInside tailInside).mp apart
  have step := ringPending_releaseHead scb
  have bound := ringPending_lt scb
  omega

theorem ringPending_iterate (count : Nat) (scb : RxScoreboard) :
    ((releaseHead^[count] scb).ringPending : Int) = ((scb.ringPending : Int) - count) % 128 := by
  induction count generalizing scb with
  | zero =>
    have bound := ringPending_lt scb
    simp only [Function.iterate_zero, id]
    omega
  | succ count induction =>
    rw [Function.iterate_succ_apply, induction, ringPending_releaseHead]
    omega

/-- Releasing heads brings the frames behind them to the front. -/
theorem frameAt_iterate {scb : RxScoreboard} (inside : scb.bawHead < 128) {count offset : Nat}
    (bound : offset + count < 128) :
    (releaseHead^[count] scb).frameAt offset = scb.frameAt (offset + count) := by
  induction count generalizing scb with
  | zero => rfl
  | succ count induction =>
    have next : scb.releaseHead.bawHead < 128 := by
      simp only [releaseHead_bawHead, circleAddOne, drvTidMaxBufs]
      split <;> omega
    rw [Function.iterate_succ_apply, induction next (by omega),
      frameAt_releaseHead inside (by omega), if_neg (by omega), Nat.add_assoc]

@[simp] theorem iterate_bawSize (count : Nat) (scb : RxScoreboard) :
    (releaseHead^[count] scb).bawSize = scb.bawSize := by
  induction count generalizing scb with
  | zero => rfl
  | succ count induction => rw [Function.iterate_succ_apply, induction, releaseHead_bawSize]

theorem iterate_seqNext {scb : RxScoreboard} (bound : scb.seqNext < 4096) (count : Nat) :
    (releaseHead^[count] scb).seqNext = (scb.seqNext + count) % 4096 := by
  induction count generalizing scb with
  | zero => simp only [Function.iterate_zero, id]; omega
  | succ count induction =>
    have next : scb.releaseHead.seqNext = (scb.seqNext + 1) % 4096 := by
      simp only [releaseHead_seqNext, circleAddOne, wifinetSeqMax]
      split <;> omega
    rw [Function.iterate_succ_apply, induction (by omega), next]
    omega

theorem windowJump_eq (index : Nat) (scb : RxScoreboard) (positive : 0 < scb.bawSize) :
    windowJump index scb =
      (min index (scb.bawSize - 1), releaseHead^[index + 1 - scb.bawSize] scb) := by
  have general : ∀ fuel current scb, 0 < scb.bawSize → current ≤ fuel →
      Machine.whileDo (fun jump : Nat × RxScoreboard => jump.2.bawSize ≤ jump.1)
        (fun jump => (jump.1 - 1, jump.2.releaseHead)) fuel (current, scb) =
      (min current (scb.bawSize - 1), releaseHead^[current + 1 - scb.bawSize] scb) := by
    intro fuel
    induction fuel with
    | zero =>
      intro current scb positive bound
      have none_left : current + 1 - scb.bawSize = 0 := by omega
      simp only [Machine.whileDo, none_left, Function.iterate_zero, id, Prod.mk.injEq, and_true]
      omega
    | succ fuel induction =>
      intro current scb positive bound
      rw [Machine.whileDo]
      split
      · rename_i outside
        have past : scb.bawSize ≤ current := by simpa using outside
        have count : current + 1 - scb.bawSize = (current - 1 + 1 - scb.bawSize) + 1 := by omega
        rw [induction (current - 1) scb.releaseHead (by simpa using positive) (by omega),
          releaseHead_bawSize, count, Function.iterate_succ_apply]
        simp only [Prod.mk.injEq, and_true]
        omega
      · rename_i within
        have inside : current < scb.bawSize := by simpa using within
        have none_left : current + 1 - scb.bawSize = 0 := by omega
        simp only [none_left, Function.iterate_zero, id, Prod.mk.injEq, and_true]
        omega
  exact general index index scb positive (Nat.le_refl _)

end W522a.Rx.RxScoreboard
