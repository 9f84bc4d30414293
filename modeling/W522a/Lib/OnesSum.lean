import Mathlib.Data.ZMod.Basic
import Mathlib.Tactic.Ring

/-!
Sums of sixteen-bit words in ones' complement. The words need not start at an even place or end
whole, and the two orders of their bytes are told apart by the weights of the bytes.
-/

namespace OnesSum

/-- The bytes of a range, with one weight for the first and every other byte behind it and one for
the rest. -/
def spread (memory : Nat → UInt8) : Nat → Nat → Nat → Nat → Nat
  | _, _, _, 0 => 0
  | first, second, place, count + 1 =>
    first * (memory place).toNat + spread memory second first (place + 1) count

/-- The sum of the words of a range as they go over the network. -/
def network (memory : Nat → UInt8) (place count : Nat) : Nat := spread memory 256 1 place count

/-- The sum of the words of a range as a processor with the other order of bytes reads them. -/
def host (memory : Nat → UInt8) (place count : Nat) : Nat := spread memory 1 256 place count

/-- A word as such a processor reads it. -/
def word (memory : Nat → UInt8) (place : Nat) : Nat :=
  (memory place).toNat + 256 * (memory (place + 1)).toNat

/-- A word is written by such a processor. -/
def put (memory : Nat → UInt8) (place value : Nat) : Nat → UInt8 :=
  Function.update (Function.update memory place (UInt8.ofNat value)) (place + 1)
    (UInt8.ofNat (value / 256))

/-- Two foldings of the carries of a sum below `2 ^ 32`, inverted. -/
def complement (sum : Nat) : Nat :=
  let folded := sum / 65536 + sum % 65536
  65535 - (folded + folded / 65536) % 65536

/-- A receiver that folds the carries of the sum has all bits set. -/
def Verifies (sum : Nat) : Prop := sum ≠ 0 ∧ sum % 65535 = 0

instance (sum : Nat) : Decidable (Verifies sum) := inferInstanceAs (Decidable (_ ∧ _))

variable {memory other : Nat → UInt8} {first second place count more sum value : Nat}

theorem complement_lt (sum : Nat) : complement sum < 65536 := by
  unfold complement
  dsimp only
  omega

theorem complement_cast (small : sum < 2 ^ 32) :
    (complement sum : ZMod 65535) = -(sum : ZMod 65535) := by
  have whole : 65535 ∣ complement sum + sum := by
    have carries : complement sum + sum = 65535 * (sum / 65536 + 1) ∨
        complement sum + sum = 65535 * (sum / 65536 + 2) := by
      unfold complement
      dsimp only
      by_cases none : sum / 65536 + sum % 65536 < 65536
      · rw [Nat.div_eq_of_lt none, Nat.add_zero, Nat.mod_eq_of_lt none]
        omega
      · rw [show (sum / 65536 + sum % 65536) / 65536 = 1 by omega]
        omega
    rcases carries with one | two
    · exact ⟨_, one⟩
    · exact ⟨_, two⟩
  rw [eq_neg_iff_add_eq_zero, ← Nat.cast_add]
  exact (ZMod.natCast_eq_zero_iff _ _).mpr whole

theorem verifies_iff (positive : sum ≠ 0) : Verifies sum ↔ (sum : ZMod 65535) = 0 := by
  rw [ZMod.natCast_eq_zero_iff, Verifies]
  exact ⟨fun both => Nat.dvd_of_mod_eq_zero both.2,
    fun whole => ⟨positive, Nat.mod_eq_zero_of_dvd whole⟩⟩

theorem spread_congr
    (same : ∀ offset < count, memory (place + offset) = other (place + offset)) :
    spread memory first second place count = spread other first second place count := by
  induction count generalizing place first second with
  | zero => rfl
  | succ count induction =>
    have here := same 0 (Nat.succ_pos count)
    rw [Nat.add_zero] at here
    rw [spread, spread, here, induction fun offset inside => ?_]
    rw [Nat.add_assoc, Nat.add_comm 1 offset]
    exact same (offset + 1) (Nat.succ_lt_succ inside)

/-- A range is two ranges, the first of whole words. -/
theorem spread_add (words : Nat) :
    spread memory first second place (2 * words + more) =
      spread memory first second place (2 * words) +
        spread memory first second (place + 2 * words) more := by
  induction words generalizing place with
  | zero => simp [spread]
  | succ words induction =>
    have shape : ∀ rest, 2 * (words + 1) + rest = 2 * words + rest + 1 + 1 := by
      intro rest
      omega
    rw [shape more, show 2 * (words + 1) = 2 * words + 1 + 1 from rfl, spread, spread, spread,
      spread, induction, show place + (2 * words + 1 + 1) = place + 1 + 1 + 2 * words by omega]
    omega

private theorem spread_scale (factor : Nat) :
    factor * spread memory first second place count =
      spread memory (factor * first) (factor * second) place count := by
  induction count generalizing place first second with
  | zero => rfl
  | succ count induction =>
    rw [spread, spread, ← induction, Nat.mul_add, Nat.mul_assoc]

/-- What a sum is up to its carries depends only on what the weights are. -/
theorem spread_cast {first' second' : Nat}
    (high : (first : ZMod 65535) = first') (low : (second : ZMod 65535) = second') :
    (spread memory first second place count : ZMod 65535) =
      spread memory first' second' place count := by
  induction count generalizing place first second first' second' with
  | zero => rfl
  | succ count induction =>
    rw [spread, spread, Nat.cast_add, Nat.cast_add, induction low high, Nat.cast_mul, Nat.cast_mul,
      high]

theorem network_cast : (network memory place count : ZMod 65535) =
    256 * (host memory place count : ZMod 65535) := by
  have scaled : 256 * host memory place count = spread memory 256 65536 place count :=
    spread_scale 256
  have carried : ((65536 : Nat) : ZMod 65535) = ((1 : Nat) : ZMod 65535) := by
    rw [ZMod.natCast_eq_natCast_iff]
    rfl
  have cast := congrArg (Nat.cast (R := ZMod 65535)) scaled
  rw [Nat.cast_mul, spread_cast rfl carried] at cast
  exact cast.symm

theorem host_le (memory : Nat → UInt8) (place words : Nat) :
    host memory place (2 * words) ≤ 65535 * words := by
  induction words generalizing place with
  | zero => simp [host, spread]
  | succ words induction =>
    have one := (memory place).toNat_lt
    have two := (memory (place + 1)).toNat_lt
    have rest := induction (place + 1 + 1)
    unfold host at rest ⊢
    rw [show 2 * (words + 1) = 2 * words + 1 + 1 from rfl, spread, spread]
    omega

section Put

theorem put_other {offset : Nat} (outside : offset ≠ place ∧ offset ≠ place + 1) :
    put memory place value offset = memory offset := by
  rw [put, Function.update_of_ne outside.2, Function.update_of_ne outside.1]

theorem put_put (memory : Nat → UInt8) (place value last : Nat) :
    put (put memory place value) place last = put memory place last := by
  funext offset
  by_cases outside : offset ≠ place ∧ offset ≠ place + 1
  · rw [put_other outside, put_other outside, put_other outside]
  · unfold put
    by_cases here : offset = place + 1
    · rw [here, Function.update_self, Function.update_self]
    · have there : offset = place := by
        by_contra away
        exact outside ⟨away, here⟩
      rw [Function.update_of_ne here, Function.update_of_ne here, there, Function.update_self,
        Function.update_self]

/-- A word that is written to a range counts in its sum, up to the carries, beside what the range
holds elsewhere. -/
theorem network_put (words : Nat) (small : value < 65536) :
    (network (put memory (place + 2 * words) value) place (2 * words + (2 + more)) :
        ZMod 65535) =
      network (put memory (place + 2 * words) 0) place (2 * words + (2 + more)) +
        256 * (value : ZMod 65535) := by
  have before : ∀ value, spread (put memory (place + 2 * words) value) 256 1 place (2 * words) =
      spread memory 256 1 place (2 * words) := by
    intro value
    refine spread_congr fun offset inside => put_other ⟨?_, ?_⟩
    · omega
    · omega
  have behind : ∀ value, spread (put memory (place + 2 * words) value) 256 1
      (place + 2 * words + 1 + 1) more = spread memory 256 1 (place + 2 * words + 1 + 1) more := by
    intro value
    refine spread_congr fun offset inside => put_other ⟨?_, ?_⟩
    · omega
    · omega
  have low : ∀ value, put memory (place + 2 * words) value (place + 2 * words) =
      UInt8.ofNat value := by
    intro value
    rw [put, Function.update_of_ne (by omega), Function.update_self]
  have high : ∀ value, put memory (place + 2 * words) value (place + 2 * words + 1) =
      UInt8.ofNat (value / 256) := by
    intro value
    rw [put, Function.update_self]
  unfold network
  rw [spread_add, spread_add, before, before, Nat.add_comm 2 more, spread, spread, spread, spread,
    behind, behind, low, low, high, high]
  have split : 256 * (UInt8.ofNat value).toNat + 1 * (UInt8.ofNat (value / 256)).toNat =
      256 * (value % 256) + value / 256 := by
    rw [UInt8.toNat_ofNat', UInt8.toNat_ofNat',
      Nat.mod_eq_of_lt (show value / 256 < 2 ^ 8 by omega)]
    omega
  have carried : ((256 * (value % 256) + value / 256 : Nat) : ZMod 65535) =
      256 * (value : ZMod 65535) := by
    rw [show (256 : ZMod 65535) = ((256 : Nat) : ZMod 65535) from rfl, ← Nat.cast_mul,
      ZMod.natCast_eq_natCast_iff']
    omega
  rw [← carried, ← split, show (UInt8.ofNat 0).toNat = 0 from rfl]
  push_cast
  ring

end Put

end OnesSum
