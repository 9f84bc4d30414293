import W522a.Rx.Reachable
import W522a.Lib.Ascending
import Mathlib.Algebra.Order.Ring.Int
import Mathlib.Data.Int.ConditionallyCompleteOrder
import Mathlib.Order.ConditionallyCompleteLattice.Basic

/-!
What the reorder buffer hands up. The frames of a run carry unwrapped numbers, given by the
buffers' identities; the window start has an unwrapped number too, and every operation moves it
on by handing up the frames it passes, in ascending order.
-/

namespace W522a.Rx

open RxScoreboard

/-- The frame at each offset has the number of its place, counted from the window start. -/
def Held (number : Nat → Int) (start : Int) (scb : RxScoreboard) : Prop :=
  ∀ offset, offset < 128 → ∀ skb, scb.frameAt offset = some skb →
    number skb.id = start + offset

/-- The window moves from `start` by `count` places, and the frames handed up on the way ascend. -/
structure Moves (number : Nat → Int) (start : Int) (count : Nat)
    (scb result : RxScoreboard) : Prop where
  emitted : ∃ frames, result.handedUp = scb.handedUp ++ frames ∧
    Machine.Ascending start (start + count) (frames.map fun skb => number skb.id)
  held : Held number (start + count) result
  seqNext : result.seqNext = (scb.seqNext + count) % 4096
  session : result.rxAddbaExchangecomplete = scb.rxAddbaExchangecomplete

section Moves

variable {number : Nat → Int} {start : Int} {scb middle result : RxScoreboard}

theorem Moves.refl (inv : RingInv scb) (held : Held number start scb) :
    Moves number start 0 scb scb where
  emitted := ⟨[], by simp, Machine.Ascending.nil⟩
  held := by simpa using held
  seqNext := by
    have bound := inv.seqInside
    omega
  session := rfl

theorem Moves.trans {first second : Nat} (moves : Moves number start first scb middle)
    (further : Moves number (start + first) second middle result) :
    Moves number start (first + second) scb result where
  emitted := by
    obtain ⟨frames, logged, ascending⟩ := moves.emitted
    obtain ⟨others, later, continued⟩ := further.emitted
    refine ⟨frames ++ others, by rw [later, logged, List.append_assoc], ?_⟩
    rw [List.map_append]
    have whole := ascending.append continued (by omega) (by omega)
    rwa [add_assoc, ← Nat.cast_add] at whole
  held := by
    have held := further.held
    rwa [add_assoc, ← Nat.cast_add] at held
  seqNext := by
    rw [further.seqNext, moves.seqNext]
    omega
  session := further.session.trans moves.session

theorem Moves.releaseHead (inv : RingInv scb) (held : Held number start scb) :
    Moves number start 1 scb scb.releaseHead where
  emitted := by
    refine ⟨_, releaseHead_handedUp scb, ?_⟩
    cases found : scb.wbuf scb.bawHead with
    | none => exact Machine.Ascending.nil
    | some skb =>
      have place : number skb.id = start + (0 : Nat) := by
        apply held 0 (by decide) skb
        rw [frameAt_zero inv.headInside, found]
      have above : start ≤ number skb.id := by omega
      have below : number skb.id < start + (1 : Nat) := by omega
      exact Machine.Ascending.singleton above below
  held := by
    intro offset bound skb found
    rw [frameAt_releaseHead inv.headInside bound] at found
    split at found
    · simp at found
    · have place := held (offset + 1) (by omega) skb found
      omega
  seqNext := by
    simp only [releaseHead_seqNext, circleAddOne, wifinetSeqMax]
    have bound := inv.seqInside
    split <;> omega
  session := releaseHead_complete scb

private theorem Moves.discardHead (inv : RingInv scb) (held : Held number start scb) :
    Moves number start 1 scb scb.discardHead := by
  have released := Moves.releaseHead inv held
  rw [discardHead_eq]
  refine ⟨⟨[], by simp, Machine.Ascending.nil⟩, ?_, released.seqNext, released.session⟩
  intro offset bound skb found
  exact released.held offset bound skb found

theorem Moves.iterate (inv : RingInv scb) (started : Started scb)
    (held : Held number start scb) (count : Nat) :
    Moves number start count scb (RxScoreboard.releaseHead^[count] scb) := by
  induction count with
  | zero => exact Moves.refl inv held
  | succ count induction =>
    rw [Function.iterate_succ_apply']
    exact induction.trans (Moves.releaseHead (inv.iterate started count).1 induction.held)

/-- A change of fields that are neither the ring, its window nor the log. -/
theorem Moves.congr {other : RxScoreboard} {count : Nat}
    (moves : Moves number start count scb result)
    (bawHead : other.bawHead = result.bawHead) (pRxDesc : other.pRxDesc = result.pRxDesc)
    (seqNext : other.seqNext = result.seqNext) (handedUp : other.handedUp = result.handedUp)
    (complete : other.rxAddbaExchangecomplete = result.rxAddbaExchangecomplete) :
    Moves number start count scb other where
  emitted := by rw [handedUp]; exact moves.emitted
  held := by
    unfold Held
    rw [frameAt_congr pRxDesc bawHead]
    exact moves.held
  seqNext := by rw [seqNext]; exact moves.seqNext
  session := complete.trans moves.session

theorem Releases.moves (releases : Releases scb result) (inv : RingInv scb)
    (held : Held number start scb) :
    ∃ count, count ≤ scb.ringPending ∧ Moves number start count scb result := by
  obtain ⟨⟨count, bound, rfl⟩, -⟩ := releases
  refine ⟨count, bound, ?_⟩
  cases count with
  | zero => exact Moves.refl inv held
  | succ count =>
    have apart : scb.bawHead ≠ scb.bawTail := by
      intro same
      have zero := (ringPending_eq_zero_iff inv.headInside inv.tailInside).mpr same
      omega
    exact Moves.iterate inv (inv.started apart) held (count + 1)

/-- The release at the head stops before the first empty place, so inside the window. -/
theorem releaseInOrder_moves (inv : RingInv scb) (started : Started scb)
    (size : scb.bawSize ≤ 64) (held : Held number start scb) :
    ∃ count, count ≤ scb.bawSize ∧ Moves number start count scb (releaseInOrder scb) := by
  obtain ⟨count, -, result, guarded, -⟩ := Machine.whileDo_eq_iterate
    (fun scb : RxScoreboard => scb.bawHead ≠ scb.bawTail ∧ (scb.wbuf scb.bawHead).isSome)
    RxScoreboard.releaseHead drvTidMaxBufs scb
  have kept := (inv.iterate started count).1
  refine ⟨count, ?_, ?_⟩
  · by_contra longer
    have turn := (of_decide_eq_true (guarded scb.bawSize (by omega))).2
    have inside := (inv.iterate started scb.bawSize).1.headInside
    rw [← frameAt_zero inside, frameAt_iterate inv.headInside (by omega),
      inv.within _ (by omega) (by omega)] at turn
    simp at turn
  · rw [releaseInOrder, result, kept.touchStop_eq]
    exact Moves.iterate inv started held count

theorem drvRxFlushTid_moves (inv : RingInv scb) (held : Held number start scb) (env : RxEnv)
    (drop : Bool) :
    ∃ count, count ≤ scb.ringPending ∧
      Moves number start count scb (drvRxFlushTid env drop scb) := by
  have kept : ∃ count, count + (drvRxFlushTid env drop scb).ringPending = scb.ringPending ∧
      RingInv (drvRxFlushTid env drop scb) ∧
      Moves number start count scb (drvRxFlushTid env drop scb) := by
    apply drvRxFlushTid_keeps fun result => ∃ count,
      count + result.ringPending = scb.ringPending ∧ RingInv result ∧
      Moves number start count scb result
    · rintro current ⟨count, counted, inv, moves⟩ apart
      have fewer := ringPending_releaseHead_pos inv.headInside inv.tailInside apart
      exact ⟨count + 1, by omega, inv.releaseHead (inv.started apart),
        moves.trans (Moves.releaseHead inv moves.held)⟩
    · rintro current ⟨count, counted, inv, moves⟩ apart
      have fewer := ringPending_releaseHead_pos inv.headInside inv.tailInside apart
      have same : current.discardHead.ringPending = current.releaseHead.ringPending := by
        rw [discardHead_eq]
        exact ringPending_congr rfl rfl
      exact ⟨count + 1, by omega, inv.discardHead (inv.started apart),
        moves.trans (Moves.discardHead inv moves.held)⟩
    · exact ⟨0, by omega, inv, Moves.refl inv held⟩
  obtain ⟨count, counted, -, moves⟩ := kept
  exact ⟨count, by omega, moves⟩

/-- Storing a frame at its place moves nothing. -/
theorem Moves.placeFrame {skb : SkBuff} {now index : Nat} (inv : RingInv scb)
    (started : Started scb) (bound : index < 128) (held : Held number start scb)
    (place : number skb.id = start + index) :
    Moves number start 0 scb (placeFrame now skb index scb) where
  emitted := ⟨[], by simp, Machine.Ascending.nil⟩
  held := by
    intro offset inside other found
    rw [frameAt_placeFrame inv.headInside bound started.ring inside] at found
    split at found
    · rename_i same
      cases found
      omega
    · have own := held offset inside other found
      omega
  seqNext := by
    have seqInside := inv.seqInside
    rw [placeFrame_seqNext]
    omega
  session := placeFrame_complete

private theorem insertFrame_moves {skb : SkBuff} {index : Nat} (inv : RingInv scb)
    (started : Started scb) (size : scb.bawSize ≤ 64) (fits : index < scb.bawSize)
    (seq : skb.rxSeq = (scb.seqNext + index) % 4096) (held : Held number start scb)
    (place : number skb.id = start + index) (env : RxEnv) (now : Nat) :
    ∃ count, count ≤ scb.bawSize ∧
      Moves number start count scb (insertFrame env now skb index scb) := by
  unfold insertFrame
  split
  · exact ⟨0, by omega, (Moves.refl inv held).congr rfl rfl rfl rfl rfl⟩
  · have placed : RingInv (Rx.placeFrame now skb index scb) :=
      inv.placeFrame started size fits seq
    have stored : Moves number start 0 scb (Rx.placeFrame now skb index scb) :=
      Moves.placeFrame inv started (by omega) held place
    have running : Started (Rx.placeFrame now skb index scb) :=
      ⟨by simpa using started.ring, by simpa using started.begun⟩
    obtain ⟨count, bound, moves⟩ :=
      releaseInOrder_moves placed running (by simpa using size) stored.held
    obtain ⟨active, period, armed⟩ :=
      armReorderTimer_eq env (releaseInOrder (Rx.placeFrame now skb index scb))
    have whole := stored.trans moves
    rw [armed]
    refine ⟨count, by simpa using bound, ?_⟩
    rw [Nat.zero_add] at whole
    exact whole.congr rfl rfl rfl rfl rfl

/-- A frame in reach of the window moves it by less than the whole sequence space. -/
theorem queueFrame_moves {skb : SkBuff} {index : Nat} (inv : RingInv scb)
    (started : Started scb) (positive : 1 ≤ scb.bawSize) (size : scb.bawSize ≤ 64)
    (seq : skb.rxSeq = (scb.seqNext + index) % 4096) (held : Held number start scb)
    (place : number skb.id = start + index) (reach : index + scb.bawSize * 4 ≤ 4096)
    (env : RxEnv) (now : Nat) :
    ∃ count, count < 4096 ∧ Moves number start count scb (queueFrame env now skb index scb) := by
  obtain ⟨kept, running, same, found⟩ := inv.jumped started positive seq rfl
  have quiet : Held number start scb.clearOldRun := held
  have jump := Moves.iterate inv.clearOldRun ⟨started.ring, started.begun⟩ quiet
    (index + 1 - scb.bawSize)
  have own : number skb.id = start + (index + 1 - scb.bawSize : Nat) +
      (min index (scb.bawSize - 1) : Nat) := by omega
  obtain ⟨count, bound, moves⟩ := insertFrame_moves kept running (by omega) (by omega) found
    jump.held own env now
  rw [queueFrame_eq positive]
  refine ⟨(index + 1 - scb.bawSize) + count, by omega, ?_⟩
  have whole := jump.trans moves
  exact ⟨whole.emitted, whole.held, whole.seqNext, whole.session⟩

end Moves

end W522a.Rx
