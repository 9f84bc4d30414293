import Mathlib.Data.Nat.Digits.Defs
import W522a.Common

/-!
The packet number counters of the HAL: their sixteen bytes, how they are compared and how they
count.
-/

namespace W522a.Crypto

/-- The sixteen bytes of a packet number, as the two words of 64 bits they are read as. -/
structure Pn where
  word0 : UInt64
  word1 : UInt64
  deriving DecidableEq, Repr

namespace Pn

def value (pn : Pn) : Nat := pn.word0.toNat + 2 ^ 64 * pn.word1.toNat

def byte (pn : Pn) (index : Nat) : Nat := pn.value / 256 ^ index % 256

private theorem value_lt (pn : Pn) : pn.value < 256 ^ 16 := by
  have low := pn.word0.toNat_lt
  have high := pn.word1.toNat_lt
  unfold value
  omega

end Pn

/-- The loop of `hal_wpi_chk_pn_increase` over the bytes below an index. -/
def wpiChkBytes (rcvPn savedPn : Pn) : Nat → Bool
  | 0 => false
  | index + 1 =>
    if savedPn.byte index < rcvPn.byte index then true
    else if rcvPn.byte index < savedPn.byte index then false
    else wpiChkBytes rcvPn savedPn index

/-- `hal_wpi_chk_pn_increase`, from the byte `MAX_PN_LEN - 1` down. -/
def halWpiChkPnIncrease (rcvPn savedPn : Pn) : Bool := wpiChkBytes rcvPn savedPn 16

private theorem wpiChkBytes_iff (rcvPn savedPn : Pn) (count : Nat) :
    wpiChkBytes rcvPn savedPn count = true ↔
      savedPn.value % 256 ^ count < rcvPn.value % 256 ^ count := by
  induction count with
  | zero => simp [wpiChkBytes, Nat.mod_one]
  | succ count induction =>
    have parts : ∀ value : Nat,
        value % 256 ^ (count + 1) = value % 256 ^ count + 256 ^ count * (value / 256 ^ count % 256) :=
      fun value => Nat.mod_pow_succ
    have small : ∀ value : Nat, value % 256 ^ count < 256 ^ count :=
      fun value => Nat.mod_lt value (Nat.pow_pos (by decide))
    have saved := small savedPn.value
    have received := small rcvPn.value
    have step : ∀ {lower higher : Nat}, lower < higher →
        256 ^ count * lower + 256 ^ count ≤ 256 ^ count * higher := by
      intro lower higher below
      calc 256 ^ count * lower + 256 ^ count = 256 ^ count * (lower + 1) := by ring
        _ ≤ 256 ^ count * higher := Nat.mul_le_mul_left _ below
    rw [wpiChkBytes, parts, parts]
    unfold Pn.byte
    split
    · rename_i above
      have apart := step above
      exact iff_of_true rfl (by omega)
    · rename_i notAbove
      split
      · rename_i below
        have apart := step below
        exact iff_of_false Bool.false_ne_true (by omega)
      · rename_i notBelow
        have same : savedPn.value / 256 ^ count % 256 = rcvPn.value / 256 ^ count % 256 := by omega
        rw [induction, same]
        omega

theorem halWpiChkPnIncrease_iff (rcvPn savedPn : Pn) :
    halWpiChkPnIncrease rcvPn savedPn = true ↔ savedPn.value < rcvPn.value := by
  rw [halWpiChkPnIncrease, wpiChkBytes_iff, Nat.mod_eq_of_lt savedPn.value_lt,
    Nat.mod_eq_of_lt rcvPn.value_lt]

end W522a.Crypto
