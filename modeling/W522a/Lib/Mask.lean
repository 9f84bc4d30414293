import Mathlib.Data.Nat.Bitwise

/-!
Sets of small numbers as the bits of one: a bit set after another, and whether two sets meet.
-/

namespace Mask

variable {word other bit : Nat}

theorem testBit_or_pow : (word ||| 2 ^ bit).testBit other = true ↔
    word.testBit other = true ∨ other = bit := by
  rw [Nat.testBit_or, Nat.testBit_two_pow, Bool.or_eq_true, decide_eq_true_iff]
  exact or_congr_right eq_comm

theorem and_ne_zero_iff : word &&& other ≠ 0 ↔
    ∃ bit, word.testBit bit = true ∧ other.testBit bit = true := by
  constructor
  · intro meets
    obtain ⟨bit, both⟩ := Nat.exists_testBit_of_ne_zero meets
    rw [Nat.testBit_and, Bool.and_eq_true] at both
    exact ⟨bit, both⟩
  · rintro ⟨bit, first, second⟩ apart
    have both : (word &&& other).testBit bit = true := by
      rw [Nat.testBit_and, first, second]
      rfl
    rw [apart, Nat.zero_testBit] at both
    cases both

theorem testBit_mod_pow {width : Nat} :
    (word % 2 ^ width).testBit bit = true ↔ bit < width ∧ word.testBit bit = true := by
  rw [Nat.testBit_mod_two_pow, Bool.and_eq_true, decide_eq_true_iff]

end Mask
