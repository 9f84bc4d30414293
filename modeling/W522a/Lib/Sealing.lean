import Mathlib.Data.UInt

/-!
Counter mode with a check value: a stream of key bytes is laid over the text, and a check of the
plain text goes along. Undoing it accepts what doing it makes, and nothing else.
-/

namespace Sealing

universe u

variable {stream : Nat → UInt8} {bytes first second plain crypt : List UInt8} {count : Nat}

def mask (stream : Nat → UInt8) (bytes : List UInt8) : List UInt8 :=
  bytes.mapIdx fun index byte => stream index ^^^ byte

def later (stream : Nat → UInt8) (count : Nat) : Nat → UInt8 := fun index => stream (count + index)

@[simp] theorem length_mask : (mask stream bytes).length = bytes.length := by simp [mask]

@[simp] theorem mask_nil : mask stream [] = [] := rfl

@[simp] theorem mask_mask : mask stream (mask stream bytes) = bytes := by
  apply List.ext_getElem?
  intro index
  simp only [mask, List.getElem?_mapIdx, Option.map_map]
  have undone : (fun byte => stream index ^^^ byte) ∘ (fun byte => stream index ^^^ byte) = id := by
    funext byte
    rw [Function.comp_apply, ← UInt8.xor_assoc, UInt8.xor_self, UInt8.zero_xor, id]
  rw [undone, Option.map_id_fun, id]

theorem mask_append : mask stream (first ++ second) =
    mask stream first ++ mask (later stream first.length) second := by
  simp only [mask, List.mapIdx_append, later, Nat.add_comm first.length]

/-- Lay one block of a stream over bytes that it covers. -/
theorem mask_block {block : List UInt8} (fits : bytes.length ≤ block.length)
    (agrees : ∀ index, index < block.length → block[index]? = some (stream index)) :
    List.zipWith (· ^^^ ·) block bytes = mask stream bytes := by
  apply List.ext_getElem?
  intro index
  simp only [mask, List.getElem?_mapIdx, List.getElem?_zipWith]
  cases found : bytes[index]? with
  | none => simp
  | some byte =>
    have inside : index < bytes.length := (List.getElem?_eq_some_iff.mp found).1
    rw [agrees index (Nat.lt_of_lt_of_le inside fits)]
    rfl

theorem pad_pad {pad : List UInt8} (covered : bytes.length ≤ pad.length) :
    List.zipWith (· ^^^ ·) (List.zipWith (· ^^^ ·) bytes pad) pad = bytes := by
  induction bytes generalizing pad with
  | nil => rfl
  | cons byte bytes induction =>
    cases pad with
    | nil => exact absurd covered (Nat.not_succ_le_zero _)
    | cons first pad =>
      rw [List.zipWith_cons_cons, List.zipWith_cons_cons,
        induction (Nat.le_of_succ_le_succ covered), UInt8.xor_assoc, UInt8.xor_self,
        UInt8.xor_zero]

/-- What a key, a nonce and the associated data give: a stream, and a check of plain text. -/
structure Suite where
  stream : Nat → UInt8
  check : List UInt8 → List UInt8

def Suite.encrypt (suite : Suite) (plain : List UInt8) : List UInt8 × List UInt8 :=
  (mask suite.stream plain, suite.check plain)

def Suite.decrypt (suite : Suite) (crypt check : List UInt8) : Option (List UInt8) :=
  if suite.check (mask suite.stream crypt) = check then some (mask suite.stream crypt) else none

variable {suite : Suite} {check : List UInt8}

theorem Suite.decrypt_eq_some : suite.decrypt crypt check = some plain ↔
    suite.encrypt plain = (crypt, check) := by
  rw [decrypt, encrypt, Prod.mk.injEq]
  constructor
  · intro accepted
    split at accepted
    · rename_i same
      cases accepted
      exact ⟨mask_mask, same⟩
    · cases accepted
  · rintro ⟨rfl, rfl⟩
    rw [mask_mask, if_pos rfl]

theorem Suite.length_encrypt : (suite.encrypt plain).1.length = plain.length := length_mask

end Sealing
