import Mathlib.Data.List.Basic

/-!
A flat memory with a value at every place, what is written to it and what is read back.
-/

namespace Flat

universe u

variable {Value : Type u}

/-- Write `size` values from a place on. -/
def fill (memory : Int → Value) (pos : Int) (size : Nat) (value : Nat → Value) : Int → Value :=
  fun place => if pos ≤ place ∧ place < pos + size then value (place - pos).toNat else memory place

/-- The `size` values from a place on. -/
def load (memory : Int → Value) (pos : Int) (size : Nat) : List Value :=
  (List.range size).map fun (index : Nat) => memory (pos + index)

variable {memory : Int → Value} {pos start : Int} {size count : Nat} {value : Nat → Value}

@[simp] theorem length_load : (load memory pos size).length = size := by
  rw [load, List.length_map, List.length_range]

@[simp] theorem load_zero : load memory pos 0 = [] := rfl

theorem load_add (memory : Int → Value) (pos : Int) (size count : Nat) :
    load memory pos (size + count) = load memory pos size ++ load memory (pos + size) count := by
  rw [load, List.range_add, List.map_append, List.map_map]
  congr 1
  apply List.map_congr_left
  intro index _
  show memory (pos + ((size + index : Nat) : Int)) = memory (pos + size + index)
  rw [Int.natCast_add, Int.add_assoc]

@[simp] theorem fill_none (memory : Int → Value) (pos : Int) (value : Nat → Value) :
    fill memory pos 0 value = memory := by
  funext place
  rw [fill, if_neg (by omega)]

theorem load_fill_part (memory : Int → Value) (pos : Int) (value : Nat → Value) {offset : Nat}
    (within : offset + count ≤ size) :
    load (fill memory pos size value) (pos + offset) count =
      (List.range count).map fun index => value (offset + index) := by
  apply List.map_congr_left
  intro index inside
  have close : index < count := List.mem_range.mp inside
  rw [fill, if_pos ⟨by omega, by omega⟩]
  congr 1
  omega

theorem load_fill : load (fill memory pos size value) pos size = (List.range size).map value := by
  have part := load_fill_part memory pos value (Nat.le_of_eq (Nat.zero_add size))
  simpa using part

theorem load_fill_before (before : pos + count ≤ start) :
    load (fill memory start size value) pos count = load memory pos count := by
  apply List.map_congr_left
  intro index inside
  have within : index < count := List.mem_range.mp inside
  rw [fill, if_neg (by omega)]

private theorem load_fill_after (behind : start + size ≤ pos) :
    load (fill memory start size value) pos count = load memory pos count := by
  apply List.map_congr_left
  intro index inside
  rw [fill, if_neg (by omega)]

/-- A write to one of a row of slots leaves the others alone, if it fits its slot. -/
theorem load_fill_slot {base width slot other : Nat} (apart : other ≠ slot) (within : count ≤ width)
    (short : size ≤ width) :
    load (fill memory (base + slot * width : Nat) size value) (base + other * width : Nat) count =
      load memory (base + other * width : Nat) count := by
  rcases Nat.lt_or_gt_of_ne apart with before | behind
  · have room : (other + 1) * width ≤ slot * width := Nat.mul_le_mul_right width before
    rw [Nat.succ_mul] at room
    exact load_fill_before (by omega)
  · have room : (slot + 1) * width ≤ other * width := Nat.mul_le_mul_right width behind
    rw [Nat.succ_mul] at room
    exact load_fill_after (by omega)

/-- A write of some values and one of the same value behind them are read back together. -/
theorem load_fill_padded (memory : Int → Value) (pos : Int) (size count : Nat)
    (value : Nat → Value) (padding : Value) :
    load (fill (fill memory pos size value) (pos + size) count fun _ => padding) pos
        (size + count) =
      (List.range size).map value ++ List.replicate count padding := by
  have constant : (List.range count).map (fun _ => padding) = List.replicate count padding := by
    rw [List.map_const', List.length_range]
  rw [load_add, load_fill_before (Int.le_refl _), load_fill, load_fill, constant]

end Flat
