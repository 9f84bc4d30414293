import Mathlib.Algebra.Order.Floor.Div
import Mathlib.Algebra.Order.Group.Nat
import Mathlib.Tactic.Ring

/-!
Quotients rounded up, and a division that is carried out as a multiplication by a reciprocal in
fixed point.
-/

namespace Rounding

variable {amount more count den num recip scale loss unit bound : Nat}

theorem ceilDiv_ceilDiv (amount : Nat) (positive : 0 < den) (whole : 0 < unit) :
    amount ⌈/⌉ den ⌈/⌉ unit = amount ⌈/⌉ (den * unit) := by
  apply eq_of_forall_ge_iff
  intro quotient
  rw [ceilDiv_le_iff_le_mul whole, ceilDiv_le_iff_le_mul positive,
    ceilDiv_le_iff_le_mul (Nat.mul_pos positive whole), Nat.mul_assoc]

theorem ceilDiv_mono (grown : amount ≤ more) : amount ⌈/⌉ den ≤ more ⌈/⌉ den := by
  rw [Nat.ceilDiv_eq_add_pred_div, Nat.ceilDiv_eq_add_pred_div]
  apply Nat.div_le_div_right
  omega

theorem ceilDiv_scale (amount : Nat) (positive : 0 < den) (whole : 0 < unit) :
    (unit * amount) ⌈/⌉ (unit * den) = amount ⌈/⌉ den := by
  apply eq_of_forall_ge_iff
  intro quotient
  rw [ceilDiv_le_iff_le_mul (Nat.mul_pos whole positive), ceilDiv_le_iff_le_mul positive,
    Nat.mul_assoc]
  exact Nat.mul_le_mul_left_iff whole

theorem ceilDiv_le_of_le (positive : 0 < unit) (coarse : unit ≤ den)
    (fits : amount ≤ unit * bound) : amount ⌈/⌉ den ≤ bound := by
  apply (ceilDiv_le_iff_le_mul (Nat.lt_of_lt_of_le positive coarse)).mpr
  exact Nat.le_trans fits (Nat.mul_le_mul_right bound coarse)

/-- A reciprocal that is cut off to whole units of `1 / scale` gives the right quotient as long as
what is cut off does not add up to the least distance by which the dividend passes a multiple of
the divisor. -/
theorem ceilDiv_reciprocal (gap : Nat) (positive : 0 < den) (fine : 0 < scale)
    (cutOff : recip * den + loss = scale * num)
    (apart : ∀ quotient, den * quotient < num * count → den * quotient + gap ≤ num * count)
    (small : loss * count < scale * gap) :
    (recip * count) ⌈/⌉ scale = (num * count) ⌈/⌉ den := by
  have product : den * (recip * count) + loss * count = scale * (num * count) := by
    calc den * (recip * count) + loss * count = (recip * den + loss) * count := by ring
      _ = scale * (num * count) := by rw [cutOff, Nat.mul_assoc]
  apply Nat.le_antisymm
  · apply (ceilDiv_le_iff_le_mul fine).mpr
    have enough : num * count ≤ den * ((num * count) ⌈/⌉ den) :=
      (ceilDiv_le_iff_le_mul positive).mp (Nat.le_refl _)
    apply Nat.le_of_mul_le_mul_left _ positive
    calc den * (recip * count) ≤ scale * (num * count) := by omega
      _ ≤ scale * (den * ((num * count) ⌈/⌉ den)) := Nat.mul_le_mul_left scale enough
      _ = den * (scale * ((num * count) ⌈/⌉ den)) := by ring
  · apply (ceilDiv_le_iff_le_mul positive).mpr
    apply Nat.le_of_not_lt
    intro short
    have enough : recip * count ≤ scale * ((recip * count) ⌈/⌉ scale) :=
      (ceilDiv_le_iff_le_mul fine).mp (Nat.le_refl _)
    have passed := Nat.mul_le_mul_left scale (apart _ short)
    have covered := Nat.mul_le_mul_left den enough
    have swapped : den * (scale * ((recip * count) ⌈/⌉ scale)) =
        scale * (den * ((recip * count) ⌈/⌉ scale)) := by ring
    rw [Nat.mul_add] at passed
    omega

theorem and_complement {word width shift : Nat} (fits : word < 2 ^ width) (short : shift ≤ width) :
    word &&& (2 ^ width - 1 - (2 ^ shift - 1)) = word / 2 ^ shift * 2 ^ shift := by
  have room : 2 ^ shift ≤ 2 ^ width := Nat.pow_le_pow_right (by decide) short
  have some : 0 < 2 ^ shift := Nat.two_pow_pos shift
  have mask : 2 ^ width - 1 - (2 ^ shift - 1) = 2 ^ width - ((2 ^ shift - 1) + 1) := by omega
  apply Nat.eq_of_testBit_eq
  intro bit
  rw [mask, Nat.testBit_and, Nat.testBit_two_pow_sub_succ (by omega), Nat.testBit_two_pow_sub_one,
    Nat.testBit_mul_two_pow, Nat.testBit_div_two_pow]
  by_cases high : shift ≤ bit
  · have beyond : ¬ bit < shift := Nat.not_lt.mpr high
    simp only [high, beyond, Nat.sub_add_cancel, decide_true, decide_false, Bool.not_false,
      Bool.and_true, Bool.true_and]
    by_cases inside : bit < width
    · simp [inside]
    · have top : 2 ^ width ≤ 2 ^ bit := Nat.pow_le_pow_right (by decide) (Nat.not_lt.mp inside)
      have clear : word.testBit bit = false :=
        Nat.testBit_lt_two_pow (Nat.lt_of_lt_of_le fits top)
      simp [clear]
  · simp [high, Nat.lt_of_not_le high]

end Rounding
