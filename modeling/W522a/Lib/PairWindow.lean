import W522a.Lib.Mask

/-!
A window of `2 * half` places kept as the bits of two words, the lower places in the first word.
-/

namespace PairWindow

structure Words where
  low : Nat
  high : Nat
  deriving DecidableEq, Repr

def holds (half : Nat) (window : Words) (place : Nat) : Bool :=
  if place < half then window.low.testBit place else window.high.testBit (place - half)

structure Fits (half : Nat) (window : Words) : Prop where
  low : window.low < 2 ^ half
  high : window.high < 2 ^ half

def mark (half place : Nat) (window : Words) : Words :=
  if place < half then { window with low := window.low ||| 1 <<< place }
  else { window with high := window.high ||| 1 <<< (place - half) }

def shift (half offset : Nat) (window : Words) : Words :=
  if offset < half then
    { low := window.low >>> offset ||| (window.high &&& (1 <<< offset - 1)) <<< (half - offset)
      high := window.high >>> offset }
  else if offset < 2 * half then ⟨window.high >>> (offset - half), 0⟩
  else ⟨0, 0⟩

/-- How many of the lowest bits of a word are ones, in `fuel` bits at most. -/
def ones : Nat → Nat → Nat
  | 0, _ => 0
  | fuel + 1, word => if word % 2 = 1 then ones fuel (word / 2) + 1 else 0

variable {half place offset other word fuel : Nat} {window : Words}

theorem testBit_ones (below : place < ones fuel word) : word.testBit place = true := by
  induction fuel generalizing word place with
  | zero => exact absurd below (Nat.not_lt_zero place)
  | succ fuel induction =>
    rw [ones] at below
    split at below
    · rename_i odd
      cases place with
      | zero => exact Nat.testBit_zero word ▸ decide_eq_true odd
      | succ place =>
        rw [Nat.testBit_succ]
        exact induction (Nat.lt_of_succ_lt_succ below)
    · exact absurd below (Nat.not_lt_zero place)

variable (fuel) in
theorem ones_le (small : word < 2 ^ half) : ones fuel word ≤ half := by
  by_contra many
  have set := testBit_ones (Nat.lt_of_not_le many)
  rw [Nat.testBit_lt_two_pow small] at set
  cases set

theorem testBit_high (small : word < 2 ^ half) (past : half ≤ place) :
    word.testBit place = false :=
  Nat.testBit_lt_two_pow (Nat.lt_of_lt_of_le small (Nat.pow_le_pow_right (by decide) past))

theorem Fits.holds_past (fits : Fits half window) (past : 2 * half ≤ place) :
    holds half window place = false := by
  rw [holds, if_neg (by omega)]
  exact testBit_high fits.high (by omega)

theorem holds_empty : holds half ⟨0, 0⟩ place = false := by
  unfold holds
  split
  · exact Nat.zero_testBit place
  · exact Nat.zero_testBit _

theorem Fits.empty (fits : Fits half window) (nothing : ∀ place, holds half window place = false) :
    window = ⟨0, 0⟩ := by
  have low : window.low = 0 := by
    refine Nat.eq_of_testBit_eq fun bit => ?_
    rw [Nat.zero_testBit]
    by_cases inside : bit < half
    · have clear := nothing bit
      rwa [holds, if_pos inside] at clear
    · exact testBit_high fits.low (Nat.le_of_not_lt inside)
  have high : window.high = 0 := by
    refine Nat.eq_of_testBit_eq fun bit => ?_
    have clear := nothing (bit + half)
    rw [holds, if_neg (by omega), Nat.add_sub_cancel] at clear
    rw [Nat.zero_testBit, clear]
  cases window
  cases low
  cases high
  rfl

theorem holds_mark :
    holds half (mark half place window) other = true ↔
      holds half window other = true ∨ other = place := by
  unfold holds mark
  rw [Nat.one_shiftLeft, Nat.one_shiftLeft]
  by_cases low : place < half
  · rw [if_pos low]
    by_cases below : other < half
    · rw [if_pos below, if_pos below]
      exact Mask.testBit_or_pow
    · rw [if_neg below, if_neg below]
      exact ⟨Or.inl, fun either => either.resolve_right (by omega)⟩
  · rw [if_neg low]
    by_cases below : other < half
    · rw [if_pos below, if_pos below]
      exact ⟨Or.inl, fun either => either.resolve_right (by omega)⟩
    · rw [if_neg below, if_neg below]
      refine Mask.testBit_or_pow.trans (or_congr_right ?_)
      omega

theorem Fits.mark (fits : Fits half window) (inside : place < 2 * half) :
    Fits half (mark half place window) := by
  unfold PairWindow.mark
  rw [Nat.one_shiftLeft, Nat.one_shiftLeft]
  split
  · rename_i low
    exact ⟨Nat.or_lt_two_pow fits.low (Nat.pow_lt_pow_right (by decide) low), fits.high⟩
  · exact ⟨fits.low, Nat.or_lt_two_pow fits.high (Nat.pow_lt_pow_right (by decide) (by omega))⟩

theorem holds_shift (fits : Fits half window) :
    holds half (shift half offset window) place = holds half window (place + offset) := by
  unfold holds shift
  by_cases near : offset < half
  · rw [if_pos near, Nat.one_shiftLeft]
    by_cases low : place < half
    · rw [if_pos low, Nat.testBit_or, Nat.testBit_shiftRight, Nat.testBit_shiftLeft,
        Nat.testBit_and, Nat.testBit_two_pow_sub_one]
      by_cases stays : place + offset < half
      · rw [if_pos stays, decide_eq_false (by omega), Bool.false_and, Bool.or_false, Nat.add_comm]
      · rw [if_neg stays, testBit_high fits.low (by omega), Bool.false_or,
          decide_eq_true (show half - offset ≤ place by omega),
          decide_eq_true (show place - (half - offset) < offset by omega), Bool.true_and,
          Bool.and_true]
        congr 1
        omega
    · rw [if_neg low, if_neg (by omega), Nat.testBit_shiftRight]
      congr 1
      omega
  · rw [if_neg near]
    by_cases far : offset < 2 * half
    · rw [if_pos far, if_neg (show ¬ place + offset < half by omega)]
      by_cases low : place < half
      · rw [if_pos low, Nat.testBit_shiftRight]
        congr 1
        omega
      · rw [if_neg low, Nat.zero_testBit, testBit_high fits.high (by omega)]
    · rw [if_neg far, Nat.zero_testBit, Nat.zero_testBit, ite_self, if_neg (by omega),
        testBit_high fits.high (by omega)]

theorem Fits.shift (fits : Fits half window) : Fits half (shift half offset window) := by
  unfold PairWindow.shift
  split
  · rename_i near
    refine ⟨Nat.or_lt_two_pow ?_ ?_, ?_⟩
    · exact Nat.lt_of_le_of_lt (Nat.shiftRight_le _ _) fits.low
    · rw [Nat.one_shiftLeft, Nat.and_two_pow_sub_one_eq_mod, Nat.shiftLeft_eq]
      have small : window.high % 2 ^ offset < 2 ^ offset := Nat.mod_lt _ (Nat.two_pow_pos offset)
      calc window.high % 2 ^ offset * 2 ^ (half - offset)
          < 2 ^ offset * 2 ^ (half - offset) :=
            Nat.mul_lt_mul_of_pos_right small (Nat.two_pow_pos _)
        _ = 2 ^ half := by rw [← Nat.pow_add, Nat.add_sub_cancel' (Nat.le_of_lt near)]
    · exact Nat.lt_of_le_of_lt (Nat.shiftRight_le _ _) fits.high
  · split
    · exact ⟨Nat.lt_of_le_of_lt (Nat.shiftRight_le _ _) fits.high, Nat.two_pow_pos half⟩
    · exact ⟨Nat.two_pow_pos half, Nat.two_pow_pos half⟩

end PairWindow
