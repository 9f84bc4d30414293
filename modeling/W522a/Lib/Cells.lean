import Mathlib.Logic.Function.Basic
import Mathlib.Data.List.Basic
import Mathlib.Data.List.Range
import W522a.Lib.Flat
import W522a.Lib.Ring

/-!
Cells of a ring, addressed by counters that run on: the counter `n` stands for the slot
`n % size`, and a list of cells starts at a counter and wraps as often as the counters do.
-/

namespace Ring

universe u

variable {Cell : Type u} {size start count other counter index : Nat} {slots : Nat → Cell}
  {value : Cell}

/-- The index that is a few slots ahead, wrapped by a comparison. -/
def advance (size index count : Nat) : Nat :=
  if size ≤ index + count then index + count - size else index + count

theorem advance_mod (short : count ≤ size) (positive : 0 < size) :
    advance size (counter % size) count = (counter + count) % size := by
  have below := Nat.mod_lt counter positive
  have reduced : (counter + count) % size = (counter % size + count) % size :=
    (Nat.mod_add_mod counter size count).symm
  rw [reduced, advance]
  generalize counter % size = residue at below ⊢
  split
  · rw [Nat.mod_eq_sub_mod (by omega), Nat.mod_eq_of_lt (by omega)]
  · rw [Nat.mod_eq_of_lt (by omega)]

theorem mod_ne (behind : start < counter) (near : counter < start + size) :
    counter % size ≠ start % size := by
  intro same
  obtain ⟨ahead, rfl⟩ := Nat.exists_eq_add_of_lt behind
  have zero : (ahead + 1) % size = 0 :=
    Nat.sub_mod_eq_zero_of_mod_eq (m := start + ahead + 1) (n := start) same |>.symm ▸ by
      rw [Nat.add_assoc, Nat.add_sub_cancel_left]
  rw [Nat.mod_eq_of_lt (by omega)] at zero
  omega

/-- The distance between two counters that are less than a ring apart. -/
theorem distance_mod (start : Nat) (short : count < size) :
    (if start % size ≤ (start + count) % size then (start + count) % size - start % size
      else size + (start + count) % size - start % size) = count := by
  have below := Nat.mod_lt start (show 0 < size by omega)
  rw [← advance_mod (Nat.le_of_lt short) (by omega), advance]
  split <;> split <;> omega

/-- `count` cells from the counter `start` on. -/
def cells (size : Nat) (slots : Nat → Cell) (start count : Nat) : List Cell :=
  (List.range count).map fun offset => slots ((start + offset) % size)

@[simp] theorem cells_length : (cells size slots start count).length = count := by
  simp [cells]

@[simp] theorem cells_zero : cells size slots start 0 = [] := rfl

theorem cells_mod : cells size slots (start % size) count = cells size slots start count := by
  refine List.map_congr_left fun offset _ => ?_
  rw [Nat.mod_add_mod]

theorem cells_append : cells size slots start (count + other) =
    cells size slots start count ++ cells size slots (start + count) other := by
  rw [cells, List.range_add, List.map_append, cells, cells, List.map_map]
  congr 1
  refine List.map_congr_left fun offset _ => ?_
  rw [Function.comp_apply, Nat.add_assoc]

theorem cells_succ : cells size slots start (count + 1) =
    slots (start % size) :: cells size slots (start + 1) count := by
  rw [Nat.add_comm, cells_append]
  rfl

/-- A write behind the cells, and less than a ring away, leaves them alone. -/
theorem cells_update_after (after : start + count ≤ counter) (near : counter < start + size) :
    cells size (Function.update slots (counter % size) value) start count =
      cells size slots start count := by
  refine List.map_congr_left fun offset inside => ?_
  have bound := List.mem_range.mp inside
  have apart : counter % size ≠ (start + offset) % size := mod_ne (by omega) (by omega)
  exact Function.update_of_ne apart.symm value slots

/-- A write before the cells, and less than a ring away, leaves them alone. -/
theorem cells_update_before (before : counter < start) (near : start + count ≤ counter + size) :
    cells size (Function.update slots (counter % size) value) start count =
      cells size slots start count := by
  refine List.map_congr_left fun offset inside => ?_
  have bound := List.mem_range.mp inside
  have apart : (start + offset) % size ≠ counter % size := mod_ne (by omega) (by omega)
  exact Function.update_of_ne apart value slots

theorem cells_update_end (short : count < size) :
    cells size (Function.update slots ((start + count) % size) value) start (count + 1) =
      cells size slots start count ++ [value] := by
  rw [cells_append, cells_update_after (Nat.le_refl _) (by omega)]
  simp [cells]

/-- The slots that `count` counters from `start` on stand for. -/
def indices (size start count : Nat) : List Nat := cells size (fun index => index) start count

@[simp] theorem length_indices : (indices size start count).length = count := cells_length

@[simp] theorem indices_zero : indices size start 0 = [] := rfl

theorem indices_succ : indices size start (count + 1) =
    start % size :: indices size (start + 1) count := cells_succ

theorem indices_lt (positive : 0 < size) : ∀ index ∈ indices size start count, index < size := by
  intro index member
  obtain ⟨offset, _, rfl⟩ := List.mem_map.mp member
  exact Nat.mod_lt _ positive

theorem indices_mod : indices size (start % size) count = indices size start count := cells_mod

theorem indices_add : indices size start (count + other) =
    indices size start count ++ indices size (start + count) other := cells_append

/-- Slots up to a counter, and those from there on. -/
theorem indices_join {middle last : Nat} (first : start ≤ middle) (second : middle ≤ last) :
    indices size start (middle - start) ++ indices size middle (last - middle) =
      indices size start (last - start) := by
  have parts : last - start = (middle - start) + (last - middle) := by omega
  have reached : start + (middle - start) = middle := by omega
  rw [parts, indices_add, reached]

theorem indices_plain (inside : start + count ≤ size) :
    indices size start count = List.range' start count := by
  rw [List.range'_eq_map_range]
  refine List.map_congr_left fun offset member => ?_
  have bound := List.mem_range.mp member
  exact Nat.mod_eq_of_lt (by omega)

theorem indices_wrapped (inside : start ≤ size) (past : size ≤ start + count)
    (short : count ≤ size) : indices size start count =
      List.range' start (size - start) ++ List.range (start + count - size) := by
  have parts : count = (size - start) + (start + count - size) := by omega
  have reached : start + (size - start) = size := by omega
  have again : indices size size (start + count - size) = List.range (start + count - size) := by
    rw [← indices_mod, Nat.mod_self, indices_plain (by omega), List.range_eq_range']
  conv => lhs; rw [parts]
  rw [indices_add, reached, again, indices_plain (by omega)]

theorem nodup_indices (short : count ≤ size) : (indices size start count).Nodup := by
  refine List.pairwise_map.mpr (List.pairwise_lt_range.imp_of_mem ?_)
  intro one two oneInside twoInside before
  have bound := List.mem_range.mp twoInside
  exact (mod_ne (by omega) (by omega)).symm

theorem span_mod (short : count < size) :
    span size (start % size) ((start + count) % size) = count := by
  have positive : 0 < size := Nat.zero_lt_of_lt short
  rw [span_eq (Nat.mod_lt _ positive) (Nat.mod_lt _ positive)]
  have distance := distance_mod start short
  split at distance
  · rename_i before
    rw [if_pos before, distance]
  · rename_i before
    rw [if_neg before, Nat.add_comm ((start + count) % size)]
    exact distance

def put (size : Nat) (slots : Nat → Cell) (slot : Nat) (values : List Cell) : Nat → Cell :=
  fun index => (values[span size slot index]?).getD (slots index)

/-- A write right behind the cells adds cells. -/
theorem cells_put_end {values : List Cell} (short : count + values.length ≤ size) :
    cells size (put size slots ((start + count) % size) values) start (count + values.length) =
      cells size slots start count ++ values := by
  rw [cells_append]
  congr 1
  · refine List.map_congr_left fun offset inside => ?_
    have bound := List.mem_range.mp inside
    -- seen from the write, the cells before it are at the end of the ring
    have place : (start + offset) % size =
        (start + count + (size - (count - offset))) % size := by
      rw [← Nat.add_mod_right (start + offset)]
      congr 1
      omega
    rw [put, place, span_mod (by omega), List.getElem?_eq_none (by omega), Option.getD_none]
  · refine List.ext_getElem (by simp) fun offset inside within => ?_
    simp only [cells, List.getElem_map, List.getElem_range, put]
    rw [span_mod (by omega), List.getElem?_eq_getElem within, Option.getD_some]

theorem cells_take (first : count ≤ other) :
    (cells size slots start other).take count = cells size slots start count := by
  obtain ⟨rest, rfl⟩ := Nat.exists_eq_add_of_le first
  rw [cells_append, List.take_left' cells_length]

theorem cells_drop : (cells size slots start (count + other)).drop count =
    cells size slots (start + count) other := by
  rw [cells_append, List.drop_left' cells_length]

section Memory

open Flat (fill load)

variable {memory : Int → Cell} {writes : Nat → Cell}

theorem load_eq_cells (inside : start % size + count ≤ size) :
    load memory (start % size : Nat) count =
      cells size (fun index => memory index) start count := by
  refine List.map_congr_left fun offset within => ?_
  have bound := List.mem_range.mp within
  have place : (start + offset) % size = start % size + offset := by
    rw [← Nat.mod_add_mod, Nat.mod_eq_of_lt (by omega)]
  show memory _ = memory ((start + offset) % size : Nat)
  rw [place, Int.natCast_add]

/-- Two pieces of memory that reach round the ring. -/
theorem loads_eq_cells (positive : 0 < size) (past : size ≤ start % size + count)
    (short : count ≤ size) :
    load memory (start % size : Nat) (size - start % size) ++
        load memory 0 (count - (size - start % size)) =
      cells size (fun index => memory index) start count := by
  have below := Nat.mod_lt start positive
  have parts : count = (size - start % size) + (count - (size - start % size)) := by omega
  have round : (start + (size - start % size)) % size = 0 := by
    rw [← Nat.mod_add_mod, Nat.add_sub_cancel' (Nat.le_of_lt below), Nat.mod_self]
  have rest : load memory ((start + (size - start % size)) % size : Nat)
        (count - (size - start % size)) =
      cells size (fun index => memory index) (start + (size - start % size))
        (count - (size - start % size)) := load_eq_cells (by omega)
  rw [round] at rest
  conv => rhs; rw [parts]
  rw [cells_append, load_eq_cells (by omega)]
  exact congrArg _ rest

/-- A write to memory right behind the cells adds cells, if it does not reach round the ring. -/
theorem cells_fill_end (memory : Int → Cell) (writes : Nat → Cell)
    (inside : (start + count) % size + other ≤ size) (short : count + other ≤ size) :
    cells size (fun index => fill memory ((start + count) % size : Nat) other writes index) start
        (count + other) =
      cells size (fun index => memory index) start count ++ (List.range other).map writes := by
  rw [cells_append]
  congr 1
  · refine List.map_congr_left fun offset within => ?_
    have bound := List.mem_range.mp within
    -- a cell before the write that were in its range would be less than a ring behind it
    have outside : ¬ ((start + count) % size ≤ (start + offset) % size ∧
        (start + offset) % size < (start + count) % size + other) := by
      rintro ⟨low, high⟩
      obtain ⟨ahead, place⟩ := Nat.exists_eq_add_of_le low
      have same : (start + offset) % size = (start + count + ahead) % size := by
        rw [← Nat.mod_add_mod (start + count), ← place, Nat.mod_mod]
      exact mod_ne (by omega) (by omega) same.symm
    show fill memory _ _ _ ((start + offset) % size : Nat) = memory _
    rw [fill, if_neg (by omega)]
  · refine List.map_congr_left fun offset within => ?_
    have bound := List.mem_range.mp within
    have place : (start + count + offset) % size = (start + count) % size + offset := by
      rw [← Nat.mod_add_mod, Nat.mod_eq_of_lt (by omega)]
    show fill memory _ _ _ ((start + count + offset) % size : Nat) = writes offset
    rw [fill, place, if_pos (by omega)]
    congr 1
    omega

end Memory

end Ring
