import W522a.Rx.Release
import W522a.Lib.Loop

/-!
What a number of releases passes: the frames a window holds by their distance from its start, what
of them is handed up, and where the others stay.
-/

namespace W522a.Rx

namespace RxScoreboard

/-- The frame buffered a distance ahead of the window start, at any distance. -/
def buffered (scb : RxScoreboard) (offset : Nat) : Option SkBuff :=
  if offset < drvTidMaxBufs then scb.frameAt offset else none

/-- The frames buffered at the next `count` places, in their order. -/
def passed (scb : RxScoreboard) (count : Nat) : List SkBuff :=
  (List.range count).filterMap scb.buffered

section Passing

variable {scb : RxScoreboard} {count offset : Nat}

theorem buffered_beyond (beyond : drvTidMaxBufs ≤ offset) : scb.buffered offset = none :=
  if_neg (Nat.not_lt.mpr beyond)

theorem buffered_within (bound : offset < drvTidMaxBufs) :
    scb.buffered offset = scb.frameAt offset :=
  if_pos bound

theorem buffered_congr {other : RxScoreboard} (ring : other.pRxDesc = scb.pRxDesc)
    (head : other.bawHead = scb.bawHead) : other.buffered = scb.buffered := by
  funext offset
  unfold buffered
  rw [frameAt_congr ring head]

theorem buffered_zero (inside : scb.bawHead < 128) : scb.buffered 0 = scb.wbuf scb.bawHead := by
  rw [buffered_within (by decide), frameAt_zero inside]

private theorem buffered_releaseHead (inside : scb.bawHead < 128) :
    scb.releaseHead.buffered offset = scb.buffered (offset + 1) := by
  by_cases bound : offset < drvTidMaxBufs
  · rw [buffered_within bound, frameAt_releaseHead inside bound]
    split
    next last => rw [last, buffered_beyond (by decide)]
    next short =>
      have next : offset + 1 < drvTidMaxBufs := by
        simp only [drvTidMaxBufs] at bound ⊢
        omega
      rw [buffered_within next]
  · have beyond : drvTidMaxBufs ≤ offset := Nat.not_lt.mp bound
    rw [buffered_beyond beyond, buffered_beyond (Nat.le_succ_of_le beyond)]

theorem iterate_bawHead (inside : scb.bawHead < 128) :
    (releaseHead^[count] scb).bawHead = (scb.bawHead + count) % 128 := by
  induction count with
  | zero => exact (Nat.mod_eq_of_lt inside).symm
  | succ count induction =>
    rw [Function.iterate_succ_apply', releaseHead_bawHead, induction]
    simp only [circleAddOne, drvTidMaxBufs]
    split <;> omega

@[simp] theorem iterate_bawTail : (releaseHead^[count] scb).bawTail = scb.bawTail := by
  induction count with
  | zero => rfl
  | succ count induction => rw [Function.iterate_succ_apply', releaseHead_bawTail, induction]

theorem iterate_bawHead_lt (inside : scb.bawHead < 128) :
    (releaseHead^[count] scb).bawHead < 128 := by
  rw [iterate_bawHead inside]
  omega

theorem buffered_iterate (inside : scb.bawHead < 128) :
    (releaseHead^[count] scb).buffered offset = scb.buffered (count + offset) := by
  induction count generalizing offset with
  | zero => rw [Nat.zero_add, Function.iterate_zero, id]
  | succ count induction =>
    rw [Function.iterate_succ_apply', buffered_releaseHead (iterate_bawHead_lt inside), induction,
      Nat.add_right_comm, Nat.add_assoc]

private theorem iterate_handedUp (inside : scb.bawHead < 128) :
    (releaseHead^[count] scb).handedUp = scb.handedUp ++ scb.passed count := by
  induction count with
  | zero => simp [passed]
  | succ count induction =>
    have front : (releaseHead^[count] scb).wbuf (releaseHead^[count] scb).bawHead =
        scb.buffered count := by
      rw [← buffered_zero (iterate_bawHead_lt inside), buffered_iterate inside, Nat.add_zero]
    rw [Function.iterate_succ_apply', releaseHead_handedUp, induction, front, passed, passed,
      List.range_succ, List.filterMap_append, List.append_assoc]
    cases found : scb.buffered count with
    | none => simp [found]
    | some skb => simp [found]

/-- A slot that no release passes keeps its frame. -/
theorem iterate_wbuf (inside : scb.bawHead < 128) (ahead : count ≤ offset)
    (bound : offset < 128) :
    (releaseHead^[count] scb).wbuf ((scb.bawHead + offset) % 128) =
      scb.wbuf ((scb.bawHead + offset) % 128) := by
  induction count with
  | zero => rfl
  | succ count induction =>
    have other : (scb.bawHead + offset) % 128 ≠ (releaseHead^[count] scb).bawHead := by
      rw [iterate_bawHead inside]
      omega
    rw [Function.iterate_succ_apply', wbuf_releaseHead, if_neg other, induction (by omega)]

private theorem releaseHead_waited (now index : Nat) :
    scb.releaseHead.waited now index = scb.waited now index := by
  unfold releaseHead
  split
  next skb found =>
    cases ring : scb.pRxDesc with
    | none => simp [waited, advance, handUp, clearHead, ring]
    | some slots =>
      by_cases same : index = scb.bawHead
      · simp [waited, advance, handUp, clearHead, ring, same]
      · simp [waited, advance, handUp, clearHead, ring, same]
  next missing => rfl

theorem iterate_waited (now index : Nat) :
    (releaseHead^[count] scb).waited now index = scb.waited now index := by
  induction count with
  | zero => rfl
  | succ count induction => rw [Function.iterate_succ_apply', releaseHead_waited, induction]

end Passing

end RxScoreboard

open RxScoreboard

/-- The window moves on by `count` places: the frames it passes are handed up in their order, and
every later frame stays at its own number and in its own slot. -/
structure Advances (count : Nat) (scb result : RxScoreboard) : Prop where
  handedUp : result.handedUp = scb.handedUp ++ scb.passed count
  seqNext : result.seqNext = (scb.seqNext + count) % wifinetSeqMax
  buffered : ∀ offset, result.buffered offset = scb.buffered (count + offset)
  slots : ∀ offset, count ≤ offset → offset < drvTidMaxBufs →
    result.wbuf ((scb.bawHead + offset) % drvTidMaxBufs) =
      scb.wbuf ((scb.bawHead + offset) % drvTidMaxBufs)

section Loops

variable {scb : RxScoreboard}

theorem RingInv.advances (inv : RingInv scb) (count : Nat) :
    Advances count scb (RxScoreboard.releaseHead^[count] scb) where
  handedUp := iterate_handedUp inv.headInside
  seqNext := iterate_seqNext inv.seqInside count
  buffered := fun _ => buffered_iterate inv.headInside
  slots := fun _ => iterate_wbuf inv.headInside

/-- A change of fields that are neither the ring, its window nor the log. -/
theorem Advances.congr {count : Nat} {result other : RxScoreboard}
    (advances : Advances count scb result) (handedUp : other.handedUp = result.handedUp)
    (seqNext : other.seqNext = result.seqNext) (pRxDesc : other.pRxDesc = result.pRxDesc)
    (bawHead : other.bawHead = result.bawHead) : Advances count scb other where
  handedUp := handedUp.trans advances.handedUp
  seqNext := seqNext.trans advances.seqNext
  buffered := by
    rw [buffered_congr pRxDesc bawHead]
    exact advances.buffered
  slots := by
    intro offset above below
    rw [← advances.slots offset above below]
    simp only [wbuf, pRxDesc]

/-- The window start tells how far the window has moved. -/
theorem Advances.count_eq {count other : Nat} {result : RxScoreboard}
    (advances : Advances count scb result)
    (seqNext : result.seqNext = (scb.seqNext + other) % wifinetSeqMax) (bound : count < 4096)
    (otherBound : other < 4096) : count = other := by
  have same := advances.seqNext.symm.trans seqNext
  simp only [wifinetSeqMax] at same
  omega

theorem RingInv.buffered_outside (inv : RingInv scb) {offset : Nat}
    (beyond : scb.ringPending ≤ offset) : scb.buffered offset = none := by
  by_cases bound : offset < drvTidMaxBufs
  · rw [buffered_within bound]
    exact inv.outside offset beyond bound
  · exact buffered_beyond (Nat.not_lt.mp bound)

theorem RingInv.lt_of_buffered (inv : RingInv scb) {offset : Nat}
    (found : (scb.buffered offset).isSome) : offset < scb.ringPending := by
  by_contra beyond
  rw [inv.buffered_outside (Nat.not_lt.mp beyond)] at found
  cases found

theorem RingInv.buffered_numbered (inv : RingInv scb) {offset : Nat} {skb : SkBuff}
    (found : scb.buffered offset = some skb) : skb.rxSeq = (scb.seqNext + offset) % 4096 := by
  have inside := inv.lt_of_buffered (Option.isSome_of_eq_some found)
  have bound : offset < drvTidMaxBufs := Nat.lt_trans inside (ringPending_lt scb)
  rw [buffered_within bound] at found
  exact inv.numbered offset skb bound found

theorem RingInv.iterate_tail_iff (inv : RingInv scb) {count : Nat}
    (bound : count ≤ scb.ringPending) :
    (RxScoreboard.releaseHead^[count] scb).bawHead = scb.bawTail ↔ count = scb.ringPending := by
  have left := ringPending_iterate count scb
  have short := ringPending_lt scb
  have head : (RxScoreboard.releaseHead^[count] scb).bawHead < 128 :=
    iterate_bawHead_lt inv.headInside
  have tail : (RxScoreboard.releaseHead^[count] scb).bawTail < 128 := by
    rw [iterate_bawTail]
    exact inv.tailInside
  have zero := ringPending_eq_zero_iff head tail
  rw [iterate_bawTail] at zero
  rw [← zero]
  omega

/-- What a loop over the head does that looks at the tail first: it makes as many releases as its
other test allows, and no more than the span is long. -/
theorem RingInv.loop_stops (inv : RingInv scb) (goesOn : RxScoreboard → Bool) :
    ∃ count, count ≤ scb.ringPending ∧
      Machine.whileDo (fun scb => scb.bawHead ≠ scb.bawTail ∧ goesOn scb)
        RxScoreboard.releaseHead drvTidMaxBufs scb = RxScoreboard.releaseHead^[count] scb ∧
      (∀ turn, turn < count → goesOn (RxScoreboard.releaseHead^[turn] scb) = true) ∧
      (count = scb.ringPending ∨ goesOn (RxScoreboard.releaseHead^[count] scb) = false) := by
  obtain ⟨count, -, result, guarded, stopped⟩ := Machine.whileDo_eq_iterate
    (fun scb : RxScoreboard => scb.bawHead ≠ scb.bawTail ∧ goesOn scb)
    RxScoreboard.releaseHead drvTidMaxBufs scb
  have short : count ≤ scb.ringPending := by
    by_contra longer
    have turn := (of_decide_eq_true (guarded scb.ringPending (Nat.not_le.mp longer))).1
    rw [iterate_bawTail] at turn
    exact turn ((inv.iterate_tail_iff (Nat.le_refl _)).mpr rfl)
  refine ⟨count, short, result, ?_, ?_⟩
  · intro turn before
    exact (of_decide_eq_true (guarded turn before)).2
  · have stop := of_decide_eq_false (stopped (Nat.lt_of_le_of_lt short (ringPending_lt scb)))
    rw [iterate_bawTail, ne_eq, inv.iterate_tail_iff short] at stop
    by_cases whole : count = scb.ringPending
    · exact Or.inl whole
    · right
      by_contra more
      exact stop ⟨whole, by simpa using more⟩

/-- The release at the head passes the frames that are there up to the first missing one. -/
theorem RingInv.releaseInOrder_eq (inv : RingInv scb) :
    ∃ run, releaseInOrder scb = RxScoreboard.releaseHead^[run] scb ∧
      (∀ offset, offset < run → (scb.buffered offset).isSome) ∧ scb.buffered run = none := by
  obtain ⟨run, short, result, guarded, stopped⟩ :=
    inv.loop_stops fun scb => (scb.wbuf scb.bawHead).isSome
  have front : ∀ turn, (RxScoreboard.releaseHead^[turn] scb).wbuf
      (RxScoreboard.releaseHead^[turn] scb).bawHead = scb.buffered turn := by
    intro turn
    rw [← buffered_zero (iterate_bawHead_lt inv.headInside), buffered_iterate inv.headInside,
      Nat.add_zero]
  have kept : RingInv (RxScoreboard.releaseHead^[run] scb) := by
    rw [← result]
    apply (release_loop inv _ drvTidMaxBufs).inv
    intro scb guarded
    exact (of_decide_eq_true guarded).1
  refine ⟨run, ?_, ?_, ?_⟩
  · rw [← kept.touchStop_eq, ← result]
    rfl
  · intro offset before
    rw [← front]
    exact guarded offset before
  · rcases stopped with whole | missing
    · exact inv.buffered_outside (Nat.le_of_eq whole.symm)
    · simpa [front] using missing

end Loops

end W522a.Rx
