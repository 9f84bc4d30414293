import Mathlib.Data.List.Nodup
import Mathlib.Data.List.Perm.Basic
import Mathlib.Data.List.Range
import Mathlib.Logic.Equiv.Basic
import Mathlib.Order.Basic

/-!
Sorting of a part of an array in place: what a part holds in another order, the pivot that is moved
out of the array and leaves a hole, and the two sides of the pivot.
-/

namespace Pivot

universe u v

variable {Value : Type u}

/-- The places from `low` on and below `high` hold what they held before, in some order, and the
others are as they were. -/
def Shuffled (low high : Nat) (before after : Nat → Value) : Prop :=
  ∃ order : Equiv.Perm Nat, (∀ place, place < low ∨ high ≤ place → order place = place) ∧
    ∀ place, after place = before (order place)

/-- The places from `low` on and below `high` meet a condition. -/
def Each (holds : Value → Prop) (low high : Nat) (array : Nat → Value) : Prop :=
  ∀ place, low ≤ place → place < high → holds (array place)

/-- The keys do not descend from `low` to `high`. -/
def Sorted {Key : Type v} [LE Key] (key : Value → Key) (low high : Nat) (array : Nat → Value) :
    Prop :=
  ∀ first second, low ≤ first → first ≤ second → second < high →
    key (array first) ≤ key (array second)

variable {low high pivot : Nat} {before middle after array : Nat → Value} {value : Value}
  {holds : Value → Prop}

namespace Shuffled

theorem refl (low high : Nat) (array : Nat → Value) : Shuffled low high array array :=
  ⟨Equiv.refl Nat, fun _ _ => rfl, fun _ => rfl⟩

theorem trans (first : Shuffled low high before middle) (second : Shuffled low high middle after) :
    Shuffled low high before after := by
  obtain ⟨left, leftFixed, leftSame⟩ := first
  obtain ⟨right, rightFixed, rightSame⟩ := second
  refine ⟨right.trans left, ?_, ?_⟩
  · intro place outside
    rw [Equiv.trans_apply, rightFixed place outside, leftFixed place outside]
  · intro place
    rw [rightSame, leftSame, Equiv.trans_apply]

theorem widen {wideLow wideHigh : Nat} (shuffled : Shuffled low high before after)
    (down : wideLow ≤ low) (up : high ≤ wideHigh) : Shuffled wideLow wideHigh before after := by
  obtain ⟨order, fixed, same⟩ := shuffled
  refine ⟨order, ?_, same⟩
  intro place outside
  exact fixed place (by omega)

/-- A place inside takes its value from a place inside. -/
theorem inside {order : Equiv.Perm Nat}
    (fixed : ∀ place, place < low ∨ high ≤ place → order place = place) {place : Nat}
    (lower : low ≤ place) (upper : place < high) : low ≤ order place ∧ order place < high := by
  by_contra outside
  have still := order.injective (fixed (order place) (by omega))
  omega

theorem outside (shuffled : Shuffled low high before after) {place : Nat}
    (outside : place < low ∨ high ≤ place) : after place = before place := by
  obtain ⟨order, fixed, same⟩ := shuffled
  rw [same, fixed place outside]

theorem each (shuffled : Shuffled low high before after) (all : Each holds low high before) :
    Each holds low high after := by
  obtain ⟨order, fixed, same⟩ := shuffled
  intro place lower upper
  rw [same]
  obtain ⟨lower, upper⟩ := inside fixed lower upper
  exact all _ lower upper

/-- Moving a value into the hole moves the hole to where the value was. -/
theorem move {hole source : Nat}
    (shuffled : Shuffled low high before (Function.update array hole value))
    (holeInside : low ≤ hole ∧ hole < high) (sourceInside : low ≤ source ∧ source < high) :
    Shuffled low high before
      (Function.update (Function.update array hole (array source)) source value) := by
  refine shuffled.trans ⟨Equiv.swap hole source, ?_, ?_⟩
  · intro place outside
    exact Equiv.swap_apply_of_ne_of_ne (by omega) (by omega)
  · intro place
    rcases eq_or_ne place source with rfl | other
    · rw [Equiv.swap_apply_right, Function.update_self, Function.update_self]
    · rw [Function.update_of_ne other]
      rcases eq_or_ne place hole with rfl | elsewhere
      · rw [Equiv.swap_apply_left, Function.update_self, Function.update_of_ne other.symm]
      · rw [Equiv.swap_apply_of_ne_of_ne elsewhere other, Function.update_of_ne elsewhere,
          Function.update_of_ne elsewhere]

theorem perm {size : Nat} (shuffled : Shuffled 0 size before after) :
    ((List.range size).map after).Perm ((List.range size).map before) := by
  obtain ⟨order, fixed, same⟩ := shuffled
  have places : ((List.range size).map order).Perm (List.range size) := by
    refine (List.perm_ext_iff_of_nodup ?_ List.nodup_range).mpr ?_
    · exact List.Nodup.map order.injective List.nodup_range
    · intro place
      rw [List.mem_map, List.mem_range]
      constructor
      · rintro ⟨source, listed, rfl⟩
        exact (inside fixed (Nat.zero_le _) (List.mem_range.mp listed)).2
      · intro bound
        refine ⟨order.symm place, ?_, order.apply_symm_apply place⟩
        by_contra listed
        have still := fixed (order.symm place) (.inr (by simpa using listed))
        rw [order.apply_symm_apply] at still
        exact listed (List.mem_range.mpr (still ▸ bound))
  have mapped : (List.range size).map after = ((List.range size).map order).map before := by
    rw [List.map_map]
    exact List.map_congr_left fun place _ => same place
  rw [mapped]
  exact places.map before

end Shuffled

section Order

variable {Key : Type v} [Preorder Key] {key : Value → Key}

theorem sorted_of_short (short : high ≤ low + 1) : Sorted key low high array := by
  intro first second lower ordered upper
  obtain rfl : first = second := by omega
  exact le_refl _

/-- Two sorted sides with the pivot between them are sorted. -/
theorem sorted_of_sides (left : Sorted key low pivot array)
    (right : Sorted key (pivot + 1) high array)
    (below : Each (fun value => key value ≤ key (array pivot)) low pivot array)
    (above : Each (fun value => key (array pivot) ≤ key value) (pivot + 1) high array) :
    Sorted key low high array := by
  intro first second lower ordered upper
  rcases Nat.lt_trichotomy second pivot with before | rfl | behind
  · exact left first second lower ordered before
  · rcases Nat.lt_or_eq_of_le ordered with less | rfl
    · exact below first lower less
    · exact le_refl _
  · have high_side := above second behind upper
    rcases Nat.lt_trichotomy first pivot with less | rfl | more
    · exact le_trans (below first lower less) high_side
    · exact high_side
    · exact right first second more ordered upper

/-- The rule of the quicksort: an array that its pivot parts is sorted when the two sides have been
put in order, one after the other. -/
theorem sorted_of_parted {start left right : Nat → Value}
    (below : Each (fun value => key value ≤ key (start pivot)) low pivot start)
    (above : Each (fun value => key (start pivot) ≤ key value) (pivot + 1) high start)
    (leftShuffled : Shuffled low pivot start left) (leftSorted : Sorted key low pivot left)
    (rightShuffled : Shuffled (pivot + 1) high left right)
    (rightSorted : Sorted key (pivot + 1) high right) : Sorted key low high right := by
  have leftKept : ∀ place, place < pivot + 1 → right place = left place :=
    fun place before => rightShuffled.outside (.inl before)
  have rightKept : ∀ place, pivot ≤ place → left place = start place :=
    fun place behind => leftShuffled.outside (.inr behind)
  have middle : right pivot = start pivot :=
    (leftKept pivot (Nat.lt_succ_self pivot)).trans (rightKept pivot (Nat.le_refl pivot))
  refine @sorted_of_sides _ low high pivot right _ _ key ?_ rightSorted ?_ ?_
  · intro first second from_low ordered before
    rw [leftKept first (by omega), leftKept second (by omega)]
    exact leftSorted first second from_low ordered before
  · intro place from_low before
    rw [middle, leftKept place (by omega)]
    exact leftShuffled.each below place from_low before
  · rw [middle]
    refine rightShuffled.each fun place behind inside => ?_
    rw [rightKept place (by omega)]
    exact above place behind inside

theorem Sorted.pairwise {size : Nat} (sorted : Sorted key 0 size array) :
    ((List.range size).map array).Pairwise fun first second => key first ≤ key second := by
  rw [List.pairwise_map]
  refine List.pairwise_lt_range.imp_of_mem ?_
  intro first second _ listed less
  exact sorted first second (Nat.zero_le _) (Nat.le_of_lt less) (List.mem_range.mp listed)

end Order

end Pivot
