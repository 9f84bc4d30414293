import W522a.Lib.Bytes
import W522a.Lib.Sealing

/-!
Authenticated encryption with AES in CCM mode (`aes-ccm.c`), over any block function: counter mode,
and a check of the plain text that is encrypted with the counter at zero.
-/

namespace W522a.Crypto

open Bytes (slice)
open Sealing (Suite mask later)

@[simp] abbrev aesBlockSize : Nat := 16

abbrev AesBlock := Vector UInt8 aesBlockSize

/-- The length of the message length field, `L`. -/
@[simp] abbrev ccmL : Nat := 2

/-- The first bytes of a buffer as a block; a short buffer is filled up with zeros. -/
def toBlock (bytes : List UInt8) : AesBlock := Vector.ofFn fun index => bytes.getD index 0

def wpaPutBe16 (val : Nat) : List UInt8 := [UInt8.ofNat (val % 65536 / 256), UInt8.ofNat val]

def wpaPutLe16 (val : Nat) : List UInt8 := [UInt8.ofNat val, UInt8.ofNat (val % 65536 / 256)]

def xorAesBlock (dst src : AesBlock) : AesBlock := Vector.zipWith (· ^^^ ·) dst src

/-- `aes_ccm_auth_start`, which gives `x`. -/
def aesCcmAuthStart (aesEncrypt : AesBlock → AesBlock) (M : Nat) (nonce aad : List UInt8)
    (plainLen : Nat) : AesBlock :=
  -- `M` is a `size_t`: below 2 the difference wraps
  let flags := (if aad.length ≠ 0 then 0x40 else 0) |||
    ((M + 2 ^ 64 - 2) % 2 ^ 64 / 2) <<< 3 ||| (ccmL - 1)
  let b := UInt8.ofNat flags :: nonce.take (15 - ccmL) ++ wpaPutBe16 plainLen
  let x := aesEncrypt (toBlock b)
  if aad.length = 0 then x
  else
    let aadBuf := wpaPutBe16 aad.length ++ aad
    let x := aesEncrypt (xorAesBlock (toBlock aadBuf) x)
    if aesBlockSize - 2 < aad.length then
      aesEncrypt (xorAesBlock (toBlock (aadBuf.drop aesBlockSize)) x)
    else x

/-- `aes_ccm_auth` from a block on: the whole blocks that are left, and the bytes behind them. -/
def aesCcmAuthFrom (aesEncrypt : AesBlock → AesBlock) : Nat → List UInt8 → AesBlock → AesBlock
  | 0, data, x =>
    -- a byte that the data does not reach stays as it is
    if data.length ≠ 0 then aesEncrypt (xorAesBlock x (toBlock data)) else x
  | blocks + 1, data, x =>
    aesCcmAuthFrom aesEncrypt blocks (data.drop aesBlockSize)
      (aesEncrypt (xorAesBlock x (toBlock (data.take aesBlockSize))))

def aesCcmAuth (aesEncrypt : AesBlock → AesBlock) (data : List UInt8) (x : AesBlock) : AesBlock :=
  aesCcmAuthFrom aesEncrypt (data.length / aesBlockSize) data x

/-- `aes_ccm_encr_start`, which gives the counter block `a`. -/
def aesCcmEncrStart (nonce : List UInt8) : AesBlock :=
  toBlock (UInt8.ofNat (ccmL - 1) :: nonce.take (15 - ccmL))

def counted (a : AesBlock) (i : Nat) : AesBlock :=
  toBlock (a.toList.take (aesBlockSize - 2) ++ wpaPutBe16 i)

/-- `aes_ccm_encr` from a block on: the whole blocks that are left, and the bytes behind them. -/
def aesCcmEncrFrom (aesEncrypt : AesBlock → AesBlock) (a : AesBlock) :
    Nat → Nat → List UInt8 → List UInt8
  | 0, i, input =>
    if input.length ≠ 0 then
      List.zipWith (· ^^^ ·) (aesEncrypt (counted a i)).toList input
    else []
  | blocks + 1, i, input =>
    List.zipWith (· ^^^ ·) (aesEncrypt (counted a i)).toList (input.take aesBlockSize) ++
      aesCcmEncrFrom aesEncrypt a blocks (i + 1) (input.drop aesBlockSize)

def aesCcmEncr (aesEncrypt : AesBlock → AesBlock) (a : AesBlock) (input : List UInt8) :
    List UInt8 :=
  aesCcmEncrFrom aesEncrypt a (input.length / aesBlockSize) 1 input

/-- `aes_ccm_encr_auth`, and `aes_ccm_decr_auth`: the first bytes of the check, with the key bytes
of count zero over them. -/
def aesCcmEncrAuth (aesEncrypt : AesBlock → AesBlock) (M : Nat) (x : List UInt8) (a : AesBlock) :
    List UInt8 :=
  List.zipWith (· ^^^ ·) (x.take M) (aesEncrypt (counted a 0)).toList

/-- `aes_ccm_ae`; `initOk` tells whether `aes_encrypt_init` gives a context. -/
def aesCcmAe (aesEncrypt : AesBlock → AesBlock) (initOk : Bool) (nonce : List UInt8) (M : Nat)
    (plain aad : List UInt8) : Option (List UInt8 × List UInt8) :=
  if 30 < aad.length ∨ aesBlockSize < M then none
  else if !initOk then none
  else
    let x := aesCcmAuthStart aesEncrypt M nonce aad plain.length
    let x := aesCcmAuth aesEncrypt plain x
    let a := aesCcmEncrStart nonce
    some (aesCcmEncr aesEncrypt a plain, aesCcmEncrAuth aesEncrypt M x.toList a)

def aesCcmAd (aesEncrypt : AesBlock → AesBlock) (initOk : Bool) (nonce : List UInt8) (M : Nat)
    (crypt aad auth : List UInt8) : Option (List UInt8) :=
  if 30 < aad.length ∨ aesBlockSize < M then none
  else if !initOk then none
  else
    let a := aesCcmEncrStart nonce
    let t := aesCcmEncrAuth aesEncrypt M auth a
    let plain := aesCcmEncr aesEncrypt a crypt
    let x := aesCcmAuthStart aesEncrypt M nonce aad crypt.length
    let x := aesCcmAuth aesEncrypt plain x
    if x.toList.take M ≠ t then none else some plain

variable {aesEncrypt : AesBlock → AesBlock} {a : AesBlock} {nonce aad plain crypt auth : List UInt8}
  {M : Nat}

/-- The key bytes that go over the text, by their place. -/
def ccmStream (aesEncrypt : AesBlock → AesBlock) (a : AesBlock) (place : Nat) : UInt8 :=
  (aesEncrypt (counted a (1 + place / aesBlockSize))).get
    ⟨place % aesBlockSize, Nat.mod_lt place (by decide)⟩

private theorem aesCcmEncr_block (base : Nat) (input : List UInt8)
    (fits : input.length ≤ aesBlockSize) :
    List.zipWith (· ^^^ ·) (aesEncrypt (counted a (1 + base))).toList input =
      mask (later (ccmStream aesEncrypt a) (aesBlockSize * base)) input := by
  apply Sealing.mask_block
  · rw [Vector.length_toList]
    exact fits
  · intro index inside
    rw [Vector.length_toList] at inside
    have quotient : (aesBlockSize * base + index) / aesBlockSize = base := by
      rw [Nat.mul_add_div (by decide), Nat.div_eq_of_lt inside, Nat.add_zero]
    have remainder : (aesBlockSize * base + index) % aesBlockSize = index := by
      rw [Nat.mul_add_mod, Nat.mod_eq_of_lt inside]
    simp only [later, ccmStream, quotient, remainder]
    rw [Vector.getElem?_toList, Vector.getElem?_eq_getElem inside]
    rfl

private theorem aesCcmEncrFrom_eq (blocks base : Nat) (input : List UInt8)
    (whole : 16 * blocks ≤ input.length) (rest : input.length ≤ 16 * (blocks + 1)) :
    aesCcmEncrFrom aesEncrypt a blocks (1 + base) input =
      mask (later (ccmStream aesEncrypt a) (aesBlockSize * base)) input := by
  induction blocks generalizing base input with
  | zero =>
    rw [aesCcmEncrFrom]
    split
    · exact aesCcmEncr_block base input rest
    · rename_i empty
      rw [List.eq_nil_of_length_eq_zero (Decidable.of_not_not empty), Sealing.mask_nil]
  | succ blocks induction =>
    have front : (input.take aesBlockSize).length = aesBlockSize := by
      rw [List.length_take, aesBlockSize]
      omega
    have back : (input.drop aesBlockSize).length = input.length - 16 := List.length_drop
    have next : later (later (ccmStream aesEncrypt a) (aesBlockSize * base)) aesBlockSize =
        later (ccmStream aesEncrypt a) (aesBlockSize * (base + 1)) := by
      funext index
      simp only [later, Nat.mul_add, Nat.mul_one, Nat.add_assoc]
    rw [aesCcmEncrFrom, aesCcmEncr_block base _ front.le, Nat.add_assoc,
      induction (base + 1) _ (by omega) (by omega)]
    conv => rhs; rw [← List.take_append_drop aesBlockSize input, Sealing.mask_append, front, next]

theorem aesCcmEncr_eq (input : List UInt8) :
    aesCcmEncr aesEncrypt a input = mask (ccmStream aesEncrypt a) input := by
  have covered : 16 * (input.length / aesBlockSize) + input.length % 16 = input.length :=
    Nat.div_add_mod input.length 16
  have start : later (ccmStream aesEncrypt a) (aesBlockSize * 0) = ccmStream aesEncrypt a := by
    funext index
    simp only [later, Nat.mul_zero, Nat.zero_add]
  rw [← start]
  exact aesCcmEncrFrom_eq _ 0 input (by omega) (by omega)

/-- The stream and the check that a block function, a nonce and the associated data give. -/
def ccmSuite (aesEncrypt : AesBlock → AesBlock) (nonce : List UInt8) (M : Nat) (aad : List UInt8) :
    Suite where
  stream := ccmStream aesEncrypt (aesCcmEncrStart nonce)
  check plain :=
    let x := aesCcmAuth aesEncrypt plain (aesCcmAuthStart aesEncrypt M nonce aad plain.length)
    aesCcmEncrAuth aesEncrypt M x.toList (aesCcmEncrStart nonce)

theorem length_check (fits : M ≤ aesBlockSize) (plain : List UInt8) :
    ((ccmSuite aesEncrypt nonce M aad).check plain).length = M := by
  simp only [ccmSuite, aesCcmEncrAuth, List.length_zipWith, List.length_take, Vector.length_toList]
  omega

theorem aesCcmAe_eq (short : aad.length ≤ 30) (fits : M ≤ aesBlockSize) :
    aesCcmAe aesEncrypt true nonce M plain aad =
      some ((ccmSuite aesEncrypt nonce M aad).encrypt plain) := by
  rw [aesCcmAe, if_neg (by omega)]
  simp only [Bool.not_true, Bool.false_eq_true, if_false, aesCcmEncr_eq]
  rfl

@[simp] theorem aesCcmAe_false : aesCcmAe aesEncrypt false nonce M plain aad = none := by
  simp [aesCcmAe]

@[simp] theorem aesCcmAd_false : aesCcmAd aesEncrypt false nonce M crypt aad auth = none := by
  simp [aesCcmAd]

/-- The key bytes of count zero are taken off the check as they were laid over it. -/
theorem aesCcmEncrAuth_eq_iff {x : AesBlock} (fits : M ≤ aesBlockSize) (long : auth.length = M) :
    x.toList.take M = aesCcmEncrAuth aesEncrypt M auth a ↔
      aesCcmEncrAuth aesEncrypt M x.toList a = auth := by
  have whole : auth.take M = auth := List.take_of_length_le long.le
  have cut : (x.toList.take M).length ≤ (aesEncrypt (counted a 0)).toList.length := by
    rw [List.length_take, Vector.length_toList, Vector.length_toList]
    exact Nat.min_le_right M aesBlockSize
  have covered : auth.length ≤ (aesEncrypt (counted a 0)).toList.length := by
    rw [long, Vector.length_toList]
    exact fits
  simp only [aesCcmEncrAuth, whole]
  constructor
  · intro same
    rw [same]
    exact Sealing.pad_pad covered
  · rintro rfl
    exact (Sealing.pad_pad cut).symm

theorem aesCcmAd_eq (short : aad.length ≤ 30) (fits : M ≤ aesBlockSize) (long : auth.length = M) :
    aesCcmAd aesEncrypt true nonce M crypt aad auth =
      (ccmSuite aesEncrypt nonce M aad).decrypt crypt auth := by
  rw [aesCcmAd, if_neg (by omega)]
  simp only [Bool.not_true, Bool.false_eq_true, if_false, aesCcmEncr_eq, Suite.decrypt, ccmSuite,
    Sealing.length_mask]
  split
  · rename_i differ
    rw [if_neg]
    intro same
    exact differ ((aesCcmEncrAuth_eq_iff fits long).mpr same)
  · rename_i same
    rw [if_pos]
    exact (aesCcmEncrAuth_eq_iff fits long).mp (Decidable.of_not_not same)

/-- What `aes_ccm_ad` gives out is what `aes_ccm_ae` made the text and its check of, for every block
function. -/
theorem aes_ccm_exact (aesEncrypt : AesBlock → AesBlock) (initOk : Bool)
    (nonce : Vector UInt8 (15 - ccmL)) (M : Nat) (aad plain crypt auth : List UInt8)
    (long : auth.length = M) :
    aesCcmAd aesEncrypt initOk nonce.toList M crypt aad auth = some plain ↔
      aesCcmAe aesEncrypt initOk nonce.toList M plain aad = some (crypt, auth) := by
  by_cases refused : 30 < aad.length ∨ aesBlockSize < M
  · simp [aesCcmAd, aesCcmAe, if_pos refused]
  obtain ⟨short, fits⟩ := not_or.mp refused
  cases initOk with
  | false => simp
  | true =>
    rw [aesCcmAd_eq (Nat.le_of_not_lt short) (Nat.le_of_not_lt fits) long,
      aesCcmAe_eq (Nat.le_of_not_lt short) (Nat.le_of_not_lt fits), Suite.decrypt_eq_some,
      Option.some.injEq]

/-- A text of two blocks and a part of a third, with a check of eight bytes. -/
theorem aes_ccm_exact_blocks :
    aesCcmAd (Vector.map (· * 3 + 1)) true
        #v[0, 1, 2, 3, 4, 5, 6, 7, 8, 9, 10, 11, 12].toList 8
        [4, 0, 6, 4, 14, 8, 22, 20, 30, 16, 22, 20, 46, 40, 15, 11, 20, 16, 22, 20, 30, 24, 6, 4,
          14, 0, 6, 4, 62, 56, 31, 24, 36, 32, 38, 36]
        [9, 8] [0, 51, 59, 211, 112, 132, 36, 56] =
      some ((List.range 36).map UInt8.ofNat) :=
  (aes_ccm_exact _ true #v[0, 1, 2, 3, 4, 5, 6, 7, 8, 9, 10, 11, 12] 8 [9, 8] _ _ _ rfl).mpr
    (by decide +kernel)

end W522a.Crypto
