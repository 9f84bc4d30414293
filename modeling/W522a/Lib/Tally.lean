import Mathlib.Logic.Function.Basic
import Mathlib.Data.List.Basic
import Mathlib.Data.List.Range

/-!
Counters of items by the properties that the items have: when the number of items with one property
is the number of those with another one.
-/

namespace Tally

universe u

variable {Item : Type u} {items : List Item} {first second third : Item → Bool} {bound : Nat}

theorem countP_split (stronger : ∀ item ∈ items, first item = true → second item = true) :
    items.countP second =
      items.countP first + items.countP fun item => second item && !first item := by
  rw [List.countP_eq_countP_filter_add items second first, List.countP_filter, List.countP_filter]
  congr 1
  apply List.countP_congr
  intro item member
  rw [Bool.and_eq_true]
  exact ⟨fun both => both.2, fun holds => ⟨stronger item member holds, holds⟩⟩

theorem imp_of_no_other (none : (items.countP fun item => second item && !first item) = 0) :
    ∀ item ∈ items, second item = true → first item = true := by
  intro item member holds
  by_contra not
  have apart := List.countP_eq_zero.mp none item member
  rw [holds, Bool.not_eq_true _ |>.mp not] at apart
  exact apart rfl

/-- A property that is stronger than another one and holds as often is that property. -/
theorem imp_of_countP_eq (stronger : ∀ item ∈ items, first item = true → second item = true)
    (same : items.countP first = items.countP second) :
    ∀ item ∈ items, second item = true → first item = true := by
  have split := countP_split stronger
  exact imp_of_no_other (by omega)

/-- A counter that wraps around tells that a property holds as often as a stronger one, when the
items between the two are less than a turn. -/
theorem imp_of_countP_mod (stronger : ∀ item ∈ items, first item = true → second item = true)
    (between : ∀ item ∈ items, second item = true → first item = true ∨ third item = true)
    (small : items.countP third < bound)
    (same : items.countP second % bound = items.countP first) :
    ∀ item ∈ items, second item = true → first item = true := by
  have split := countP_split stronger
  have few : (items.countP fun item => second item && !first item) ≤ items.countP third := by
    apply List.countP_mono_left
    intro item member apart
    rw [Bool.and_eq_true, Bool.not_eq_true'] at apart
    cases between item member apart.1 with
    | inl holds => rw [holds] at apart; cases apart.2
    | inr holds => exact holds
  have below : items.countP first < bound := same ▸ Nat.mod_lt _ (by omega)
  have none : (items.countP fun item => second item && !first item) = 0 := by
    rw [split] at same
    generalize items.countP first = count at same below
    generalize (items.countP fun item => second item && !first item) = more at same few
    by_contra some
    by_cases wraps : count + more < bound
    · rw [Nat.mod_eq_of_lt wraps] at same
      omega
    · rw [Nat.mod_eq_sub_mod (by omega), Nat.mod_eq_of_lt (by omega)] at same
      omega
  exact imp_of_no_other none

end Tally
