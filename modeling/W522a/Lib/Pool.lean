import Mathlib.Data.List.Nodup
import Mathlib.Data.List.Perm.Basic
import Mathlib.Order.Interval.Finset.Nat
import W522a.Lib.Bitmap

/-!
Numbers handed out from a pool that a bitmap keeps: the pool is kept when the bitmap has the bits of
the numbers that are held, and no number is held twice.
-/

namespace Pool

/-- The first number from `first` on, of so many, whose bit is clear. -/
def firstFree (width : Nat) (bitmap : List Nat) (first : Nat) : Nat → Option Nat
  | 0 => none
  | count + 1 =>
    if Bitmap.isset width bitmap first then firstFree width bitmap (first + 1) count
    else some first

structure Kept (width low high : Nat) (bitmap held : List Nat) : Prop where
  distinct : held.Nodup
  range : ∀ number ∈ held, low ≤ number ∧ number < high
  bits : ∀ number, Bitmap.isset width bitmap number = true ↔ number ∈ held

variable {width low high number : Nat} {bitmap held : List Nat}

theorem firstFree_some {first count : Nat}
    (free : firstFree width bitmap first count = some number) :
    first ≤ number ∧ number < first + count ∧ Bitmap.isset width bitmap number = false := by
  induction count generalizing first with
  | zero => cases free
  | succ count induction =>
    rw [firstFree] at free
    by_cases busy : Bitmap.isset width bitmap first = true
    · rw [if_pos busy] at free
      obtain ⟨above, below, clear⟩ := induction free
      exact ⟨by omega, by omega, clear⟩
    · rw [if_neg busy] at free
      obtain rfl := Option.some.inj free
      exact ⟨le_refl _, by omega, by simpa using busy⟩

private theorem firstFree_none {first count : Nat}
    (full : firstFree width bitmap first count = none)
    (above : first ≤ number) (below : number < first + count) :
    Bitmap.isset width bitmap number = true := by
  induction count generalizing first with
  | zero => omega
  | succ count induction =>
    rw [firstFree] at full
    by_cases busy : Bitmap.isset width bitmap first = true
    · rw [if_pos busy] at full
      by_cases same : number = first
      · exact same ▸ busy
      · exact induction full (by omega) (by omega)
    · rw [if_neg busy] at full
      cases full

theorem Kept.perm {other : List Nat} (kept : Kept width low high bitmap held)
    (same : held.Perm other) : Kept width low high bitmap other where
  distinct := same.nodup_iff.mp kept.distinct
  range number member := kept.range number (same.mem_iff.mpr member)
  bits number := (kept.bits number).trans same.mem_iff

/-- A number in the range whose bit is clear is handed out. -/
theorem Kept.grant (kept : Kept width low high bitmap held) (above : low ≤ number)
    (below : number < high) (inside : number / width < bitmap.length)
    (clear : Bitmap.isset width bitmap number = false) :
    Kept width low high (Bitmap.setbit width bitmap number) (number :: held) := by
  have fresh : number ∉ held := by
    intro member
    rw [(kept.bits number).mpr member] at clear
    cases clear
  refine ⟨List.nodup_cons.mpr ⟨fresh, kept.distinct⟩, ?_, fun other => ?_⟩
  · intro other member
    rcases List.mem_cons.mp member with rfl | old
    · exact ⟨above, below⟩
    · exact kept.range other old
  · rw [Bitmap.isset_setbit inside, Bool.or_eq_true, decide_eq_true_eq, List.mem_cons,
      kept.bits other]

theorem Kept.release (kept : Kept width low high bitmap (number :: held))
    (positive : 0 < width) :
    Kept width low high (Bitmap.clrbit width bitmap number) held := by
  obtain ⟨fresh, distinct⟩ := List.nodup_cons.mp kept.distinct
  refine ⟨distinct, fun other member => kept.range other (List.mem_cons_of_mem _ member),
    fun other => ?_⟩
  rw [Bitmap.isset_clrbit positive, Bool.and_eq_true, decide_eq_true_eq, kept.bits other,
    List.mem_cons]
  constructor
  · rintro ⟨differ, same | old⟩
    · exact absurd same differ
    · exact old
  · intro old
    exact ⟨fun same => fresh (same ▸ old), Or.inr old⟩

theorem Kept.length_le (kept : Kept width low high bitmap held) : held.length ≤ high - low := by
  rw [← List.toFinset_card_of_nodup kept.distinct, ← Nat.card_Ico]
  refine Finset.card_le_card fun number member => ?_
  exact Finset.mem_Ico.mpr (kept.range number (List.mem_toFinset.mp member))

theorem Kept.none_held (length : Nat) : Kept width low high (List.replicate length 0) [] := by
  refine ⟨List.nodup_nil, fun number member => absurd member List.not_mem_nil, fun number => ?_⟩
  have zero : (List.replicate length 0).getD (number / width) 0 = 0 := by
    rw [List.getD_eq_getElem?_getD, List.getElem?_replicate]
    split <;> rfl
  rw [Bitmap.isset, zero, Nat.zero_testBit]
  constructor
  · intro absurdity
    cases absurdity
  · intro member
    exact absurd member List.not_mem_nil

/-- When no bit of the range is clear, every number of it is held. -/
theorem Kept.all_held {count : Nat} (kept : Kept width low (low + count) bitmap held)
    (full : firstFree width bitmap low count = none) (above : low ≤ number)
    (below : number < low + count) : number ∈ held :=
  (kept.bits number).mp (firstFree_none full above below)

theorem firstFree_full {first count : Nat}
    (full : ∀ number, first ≤ number → number < first + count →
      Bitmap.isset width bitmap number = true) :
    firstFree width bitmap first count = none := by
  by_contra some
  obtain ⟨number, free⟩ := Option.ne_none_iff_exists'.mp some
  obtain ⟨above, below, clear⟩ := firstFree_some free
  rw [full number above below] at clear
  cases clear

theorem Kept.full_iff (kept : Kept width low high bitmap held) :
    held.length = high - low ↔ ∀ number, low ≤ number → number < high → number ∈ held := by
  have inside : held.toFinset ⊆ Finset.Ico low high := fun number member =>
    Finset.mem_Ico.mpr (kept.range number (List.mem_toFinset.mp member))
  rw [← List.toFinset_card_of_nodup kept.distinct, ← Nat.card_Ico]
  constructor
  · intro full number above below
    have same := Finset.eq_of_subset_of_card_le inside (Nat.le_of_eq full.symm)
    exact List.mem_toFinset.mp (same ▸ Finset.mem_Ico.mpr ⟨above, below⟩)
  · intro all
    refine congrArg Finset.card (Finset.Subset.antisymm inside fun number member => ?_)
    obtain ⟨above, below⟩ := Finset.mem_Ico.mp member
    exact List.mem_toFinset.mpr (all number above below)

end Pool
