import Mathlib.Algebra.BigOperators.Group.Finset.Basic
import Mathlib.Algebra.Order.Group.Multiset
import Mathlib.Logic.Function.Basic

/-!
What an array holds, counted with multiplicity: every item that is put in or taken out shows in the
total, so that two equal totals leave no item lost and none held twice.
-/

namespace Slots

universe u v

variable {Item : Type u} {size index : Nat}

/-- The accounts of the first `size` places together. -/
def total (size : Nat) (account : Nat → Multiset Item) : Multiset Item :=
  ∑ index ∈ Finset.range size, account index

def single : Option Item → Multiset Item
  | none => 0
  | some item => {item}

def content (size : Nat) (slots : Nat → Option Item) : Multiset Item :=
  total size fun index => single (slots index)

@[simp] theorem single_none : single (none : Option Item) = 0 := rfl

@[simp] theorem single_some (item : Item) : single (some item) = {item} := rfl

theorem single_eq_zero {slot : Option Item} : single slot = 0 ↔ slot = none := by
  cases slot with
  | none => simp
  | some item => simp

theorem coe_toList (slot : Option Item) :
    ((slot.toList : List Item) : Multiset Item) = single slot := by
  cases slot with
  | none => rfl
  | some item => rfl

section Family

variable {Place : Type v} [DecidableEq Place] {places : Finset Place} {place : Place}

/-- One account that changes changes the sum by as much. -/
theorem sum_update (inside : place ∈ places) (account : Place → Multiset Item)
    (value : Multiset Item) :
    (∑ other ∈ places, Function.update account place value other) + account place =
      (∑ other ∈ places, account other) + value := by
  have others : ∑ other ∈ places.erase place, Function.update account place value other =
      ∑ other ∈ places.erase place, account other :=
    Finset.sum_congr rfl fun other found => Function.update_of_ne (Finset.ne_of_mem_erase found) _ _
  rw [← Finset.add_sum_erase places account inside,
    ← Finset.add_sum_erase places (Function.update account place value) inside, others,
    Function.update_self, add_right_comm, add_comm value, add_right_comm (account place)]

end Family

section Total

variable {account other : Nat → Multiset Item} {gained : Multiset Item}

theorem total_congr (same : ∀ index, index < size → account index = other index) :
    total size account = total size other :=
  Finset.sum_congr rfl fun index inside => same index (Finset.mem_range.mp inside)

private theorem total_eq_add (inside : index < size) (account : Nat → Multiset Item) :
    total size account =
      account index + ∑ place ∈ (Finset.range size).erase index, account place :=
  (Finset.add_sum_erase _ account (Finset.mem_range.mpr inside)).symm

/-- One account that changes changes the total by as much. -/
theorem total_update (account : Nat → Multiset Item) (inside : index < size)
    (value : Multiset Item) : total size (Function.update account index value) + account index =
      total size account + value :=
  sum_update (Finset.mem_range.mpr inside) account value

theorem total_gain (inside : index < size) (own : other index = account index + gained)
    (others : ∀ place, place ≠ index → other place = account place) :
    total size other = total size account + gained := by
  have updated : other = Function.update account index (account index + gained) := by
    funext place
    by_cases same : place = index
    · rw [same, Function.update_self, own]
    · rw [Function.update_of_ne same, others place same]
  have moved := total_update account inside (account index + gained)
  rw [← updated, ← add_assoc, add_right_comm] at moved
  exact add_right_cancel moved

theorem total_eq_zero : total size account = 0 ↔ ∀ index, index < size → account index = 0 := by
  constructor
  · intro nothing index inside
    have below : account index ≤ total size account := by
      rw [total_eq_add inside]
      exact Multiset.le_add_right _ _
    rw [nothing] at below
    exact Multiset.le_zero.mp below
  · intro nothing
    exact Finset.sum_eq_zero fun index inside => nothing index (Finset.mem_range.mp inside)

end Total

section Content

variable {slots : Nat → Option Item}

/-- A write exchanges what its slot held for what it writes. -/
theorem content_update (slots : Nat → Option Item) (inside : index < size)
    (value : Option Item) :
    content size (Function.update slots index value) + single (slots index) =
      content size slots + single value := by
  have same : (fun place => single (Function.update slots index value place)) =
      Function.update (fun place => single (slots place)) index (single value) := by
    funext place
    by_cases own : place = index
    · rw [own, Function.update_self, Function.update_self]
    · rw [Function.update_of_ne own, Function.update_of_ne own]
  rw [content, same]
  exact total_update _ inside (single value)

theorem content_eq_zero :
    content size slots = 0 ↔ ∀ index, index < size → slots index = none := by
  rw [content, total_eq_zero]
  exact forall_congr' fun index => forall_congr' fun _ => single_eq_zero

end Content

end Slots
