import Mathlib.Data.List.Basic
import Mathlib.Data.List.Pairwise
import Mathlib.Data.List.Range

/-!
Counters against replay: the values of a counter that wraps, and a gate that admits what is above
its mark and moves the mark there.
-/

namespace Replay

universe u

/-- The next `count` values of a counter that wraps at `size`, from `first` on. -/
def wrapping (size first count : Nat) : List Nat :=
  (List.range count).map fun offset => (first + offset) % size

@[simp] theorem wrapping_zero (size first : Nat) : wrapping size first 0 = [] := rfl

theorem wrapping_succ (size first count : Nat) :
    wrapping size first (count + 1) = first % size :: wrapping size (first + 1) count := by
  rw [wrapping, List.range_succ_eq_map, List.map_cons, List.map_map, Nat.add_zero, wrapping]
  congr 1
  refine List.map_congr_left fun offset _ => ?_
  rw [Function.comp_apply, Nat.succ_eq_add_one, Nat.add_assoc, Nat.add_comm offset]

theorem wrapping_mod (size first count : Nat) :
    wrapping size (first % size) count = wrapping size first count := by
  refine List.map_congr_left fun offset _ => ?_
  rw [Nat.mod_add_mod]

theorem wrapping_ascends {size first count : Nat} (positive : 0 < size) :
    (wrapping size first count).Pairwise (· < ·) ↔ first % size + count ≤ size := by
  have below := Nat.mod_lt first positive
  constructor
  · intro ascends
    by_contra long
    -- the value at which the counter wraps is 0, and no value is below it
    have turn : (first + (size - first % size)) % size = 0 := by
      rw [← Nat.mod_add_mod, Nat.add_sub_cancel' below.le, Nat.mod_self]
    have order := List.pairwise_iff_getElem.mp ascends 0 (size - first % size)
      (by simp only [wrapping, List.length_map, List.length_range]; omega)
      (by simp only [wrapping, List.length_map, List.length_range]; omega) (by omega)
    simp only [wrapping, List.getElem_map, List.getElem_range, turn] at order
    exact absurd order (Nat.not_lt_zero _)
  · intro short
    refine List.pairwise_map.mpr (List.pairwise_lt_range.imp_of_mem ?_)
    intro one two oneInside twoInside before
    have bound := List.mem_range.mp twoInside
    have plain : ∀ offset, offset ≤ two → (first + offset) % size = first % size + offset := by
      intro offset inside
      rw [← Nat.mod_add_mod, Nat.mod_eq_of_lt (by omega)]
    rw [plain one before.le, plain two le_rfl]
    omega

section Gate

variable {Item : Type u} (value : Item → Nat) (passes : Item → Prop) [DecidablePred passes]

/-- What a gate admits: the items that pass and whose values are above the mark. -/
def admitted : Nat → List Item → List Item
  | _, [] => []
  | mark, item :: rest =>
    if passes item ∧ mark < value item then item :: admitted (value item) rest
    else admitted mark rest

variable {value passes} {mark : Nat} {items : List Item}

theorem admitted_sublist : (admitted value passes mark items).Sublist items := by
  induction items generalizing mark with
  | nil => exact List.Sublist.refl _
  | cons item rest induction =>
    rw [admitted]
    split
    · exact induction.cons_cons item
    · exact induction.cons item

theorem admitted_passes {item : Item} (member : item ∈ admitted value passes mark items) :
    passes item ∧ mark < value item := by
  induction items generalizing mark with
  | nil => cases member
  | cons head rest induction =>
    rw [admitted] at member
    split at member
    · rename_i taken
      rcases List.mem_cons.mp member with same | later
      · exact same ▸ taken
      · exact ⟨(induction later).1, taken.2.trans (induction later).2⟩
    · exact induction member

theorem admitted_ascends :
    ((admitted value passes mark items).map value).Pairwise (· < ·) := by
  induction items generalizing mark with
  | nil => exact List.Pairwise.nil
  | cons item rest induction =>
    rw [admitted]
    split
    · refine List.pairwise_cons.mpr ⟨?_, induction⟩
      intro later member
      obtain ⟨found, inside, rfl⟩ := List.mem_map.mp member
      exact (admitted_passes inside).2
    · exact induction

theorem admitted_eq_self_iff : admitted value passes mark items = items ↔
    (∀ item ∈ items, passes item ∧ mark < value item) ∧
      (items.map value).Pairwise (· < ·) := by
  constructor
  · intro whole
    refine ⟨?_, ?_⟩
    · intro item member
      rw [← whole] at member
      exact admitted_passes member
    · have ascends : ((admitted value passes mark items).map value).Pairwise (· < ·) :=
        admitted_ascends
      rw [whole] at ascends
      exact ascends
  · rintro ⟨passing, ascends⟩
    induction items generalizing mark with
    | nil => rfl
    | cons item rest induction =>
      obtain ⟨above, later⟩ := List.pairwise_cons.mp ascends
      rw [admitted, if_pos (passing item List.mem_cons_self)]
      congr 1
      refine induction ?_ later
      intro other member
      exact ⟨(passing other (List.mem_cons_of_mem item member)).1,
        above (value other) (List.mem_map_of_mem member)⟩

end Gate

end Replay
