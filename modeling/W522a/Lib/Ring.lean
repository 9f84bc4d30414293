import Mathlib.Data.Int.Init
import Mathlib.Logic.Function.Basic
import Mathlib.Tactic.Common

/-!
Circular buffers of `size` slots. The window starts at the slot `head`; the slot at offset `i`
is `(head + i) % size`, and `span` is the distance from `head` to `tail`.
-/

namespace Ring

def slot (size head offset : Nat) : Nat := (head + offset) % size

/-- The number of steps that lead from `head` to `tail`. -/
def span (size head tail : Nat) : Nat := (tail + size - head) % size

def next (size index : Nat) : Nat := if index + 1 = size then 0 else index + 1

section Arithmetic

variable {size head tail offset other : Nat}

private theorem mod_of_twice {value : Nat} (bound : value < 2 * size) :
    value % size = if value < size then value else value - size := by
  split
  · exact Nat.mod_eq_of_lt (by assumption)
  · rw [Nat.mod_eq_sub_mod (by omega), Nat.mod_eq_of_lt (by omega)]

theorem slot_eq (inside : head < size) (bound : offset < size) :
    slot size head offset =
      if head + offset < size then head + offset else head + offset - size :=
  mod_of_twice (by omega)

theorem span_eq (headInside : head < size) (tailInside : tail < size) :
    span size head tail = if head ≤ tail then tail - head else tail + size - head := by
  rw [span, mod_of_twice (by omega)]
  split <;> split <;> omega

theorem next_lt (inside : head < size) : next size head < size := by
  unfold next; split <;> omega

theorem slot_lt (positive : 0 < size) : slot size head offset < size :=
  Nat.mod_lt _ positive

@[simp] theorem slot_zero (inside : head < size) : slot size head 0 = head := by
  rw [slot_eq inside (by omega)]; simp [inside]

theorem span_self (inside : head < size) : span size head head = 0 := by
  rw [span_eq inside inside]; simp

theorem span_eq_zero_iff (headInside : head < size) (tailInside : tail < size) :
    span size head tail = 0 ↔ head = tail := by
  rw [span_eq headInside tailInside]; split <;> omega

theorem slot_inj (inside : head < size) (bound : offset < size) (otherBound : other < size)
    (same : slot size head offset = slot size head other) : offset = other := by
  rw [slot_eq inside bound, slot_eq inside otherBound] at same
  split at same <;> split at same <;> omega

private theorem span_slot (inside : head < size) (bound : offset < size) :
    span size head (slot size head offset) = offset := by
  rw [span_eq inside (slot_lt (by omega)), slot_eq inside bound]
  split <;> split <;> omega

theorem span_slot_slot (inside : head < size) (bound : offset < size) (otherBound : other < size) :
    span size (slot size head offset) (slot size head other) = span size offset other := by
  rw [span_eq (slot_lt (by omega)) (slot_lt (by omega)), slot_eq inside bound,
    slot_eq inside otherBound, span_eq bound otherBound]
  split <;> split <;> split <;> split <;> omega

theorem slot_next (inside : head < size) (bound : offset + 1 < size) :
    slot size (next size head) offset = slot size head (offset + 1) := by
  rw [slot_eq (next_lt inside) (by omega), slot_eq inside bound]
  unfold next
  split <;> split <;> split <;> omega

theorem slot_next_last (inside : head < size) :
    slot size (next size head) (size - 1) = head := by
  rw [slot_eq (next_lt inside) (by omega)]
  unfold next
  split <;> split <;> omega

theorem span_next (headInside : head < size) (tailInside : tail < size) (apart : head ≠ tail) :
    span size (next size head) tail + 1 = span size head tail := by
  rw [span_eq (next_lt headInside) tailInside, span_eq headInside tailInside]
  unfold next
  split <;> split <;> split <;> omega

theorem next_slot (inside : head < size) (bound : offset + 1 < size) :
    next size (slot size head offset) = slot size head (offset + 1) := by
  rw [slot_eq inside bound, slot_eq inside (by omega)]
  unfold next
  split <;> split <;> split <;> omega

theorem span_next_slot (inside : head < size) (bound : offset + 1 < size) :
    span size head (next size (slot size head offset)) = offset + 1 := by
  rw [next_slot inside bound, span_slot inside bound]

end Arithmetic

/-- What `slots` holds at an offset from the head. -/
def entry (size : Nat) (slots : Nat → Entry) (head offset : Nat) : Entry :=
  slots (slot size head offset)

section Entries

variable {Entry : Type} {size head offset other : Nat} {slots : Nat → Entry} {value : Entry}

theorem entry_next (inside : head < size) (bound : offset + 1 < size) :
    entry size slots (next size head) offset = entry size slots head (offset + 1) := by
  rw [entry, entry, slot_next inside bound]

theorem entry_update_same :
    entry size (Function.update slots (slot size head offset) value) head offset = value := by
  simp [entry]

theorem entry_update_other (inside : head < size) (bound : offset < size)
    (otherBound : other < size) (different : other ≠ offset) :
    entry size (Function.update slots (slot size head offset) value) head other =
      entry size slots head other := by
  rw [entry, entry, Function.update_of_ne]
  intro same
  exact different (slot_inj inside otherBound bound same)

end Entries

end Ring
