import W522a.Common
import W522a.Crypto.AesCcm
import Mathlib.Data.List.GetD

/-!
The software CCMP of a frame (`ccmp.c`): the header with the packet number, the associated data and
the nonce, and the encryption of the body in CCM mode.
-/

namespace W522a.Crypto

open Bytes (slice little)
open Sealing (Suite)

/-- `WIFINET_FC0_TYPE_MASK`, for the whole frame control field. -/
@[simp] abbrev wlanFcTypeMask : Nat := 0x0c

@[simp] abbrev wlanFcTypeData : Nat := 0x08

@[simp] abbrev wlanFcTypeMgmt : Nat := 0x00

@[simp] abbrev wlanFcStypeQosData : Nat := 0x80

/-- `WLAN_FC_TODS | WLAN_FC_FROMDS` -/
@[simp] abbrev wlanFcDs : Nat := 0x0300

/-- `WLAN_FC_RETRY | WLAN_FC_PWRMGT | WLAN_FC_MOREDATA` -/
@[simp] abbrev wlanFcMuted : Nat := 0x3800

@[simp] abbrev wlanFcIswep : Nat := 0x4000

@[simp] abbrev wlanFcOrder : Nat := 0x8000

@[simp] abbrev ethAlen : Nat := 6

/-- `fc &= ~bits` -/
def clearBits (bits fc : Nat) : Nat := fc &&& (65535 - bits)

/-- `ccmp_aad_nonce`, of the bytes from `hdr` and from `data` on: the associated data and the
nonce. -/
def ccmpAadNonce (hdr data : List UInt8) : List UInt8 × List UInt8 :=
  let fc := little (slice hdr 0 2)
  let addr4 := if fc &&& wlanFcDs = wlanFcDs then 1 else 0
  let isData := fc &&& wlanFcTypeMask = wlanFcTypeData
  let qos := if isData ∧ fc &&& wlanFcStypeQosData ≠ 0 then 1 else 0
  let qc := hdr.getD (wifiFrameLen + addr4 * ethAlen) 0
  let first : UInt8 :=
    if isData then (if qos = 1 then qc &&& 0x0f else 0)
    else if fc &&& wlanFcTypeMask = wlanFcTypeMgmt then 0x10 else 0
  let fc := if isData then clearBits 0x0070 fc else fc
  let fc := if qos = 1 then clearBits wlanFcOrder fc else fc
  let fc := clearBits wlanFcMuted fc ||| wlanFcIswep
  let seq := clearBits 0xfff0 (little (slice hdr 22 2))
  let tail := slice hdr wifiFrameLen (addr4 * ethAlen) ++
    if qos = 1 then [qc &&& 0x0f, 0] else []
  let aad := wpaPutLe16 fc ++ slice hdr 4 ethAlen ++ slice hdr 10 ethAlen ++ slice hdr 16 ethAlen ++
    wpaPutLe16 seq ++ tail
  let nonce := first :: slice hdr 10 ethAlen ++
    [data.getD 7 0, data.getD 6 0, data.getD 5 0, data.getD 4 0, data.getD 1 0, data.getD 0 0]
  (aad, nonce)

/-- What a run of the code finds of memory: whether `os_malloc` and `aes_encrypt_init` give some. -/
structure CcmpAlloc where
  mallocOk : Bool
  initOk : Bool
  deriving DecidableEq, Repr

/-- `hdr->frame_control |= WLAN_FC_ISWEP` -/
def setIswep (header : List UInt8) : List UInt8 := header.modify 1 (· ||| 0x40)

/-- The header that `ccmp_encrypt` puts before the body: the packet number and the key index. -/
def ccmpHeader (pn : List UInt8) (keyid : Nat) : List UInt8 :=
  [pn.getD 0 0, pn.getD 1 0, 0, UInt8.ofNat (0x20 ||| keyid <<< 6), pn.getD 2 0, pn.getD 3 0,
    pn.getD 4 0, pn.getD 5 0]

/-- `ccmp_encrypt` and `ccmp_256_encrypt`, which differ by the length of the key, which the block
function knows, and by that of the check. Without a packet number the frame has its header. -/
def ccmpEncryptWith (micLen : Nat) (aesEncrypt : AesBlock → AesBlock) (alloc : CcmpAlloc)
    (frame : List UInt8) (len hdrlen : Nat) (pn : Option (List UInt8)) (keyid : Nat) :
    Option (List UInt8) :=
  if len < hdrlen ∨ hdrlen < 24 then none
  else if !alloc.mallocOk then none
  else
    let plen := len - hdrlen
    let hdr := setIswep (frame.take hdrlen)
    let (header, pdata) := match pn with
      | none => (slice frame hdrlen 8, slice frame (hdrlen + 8) plen)
      | some pn => (ccmpHeader pn keyid, slice frame hdrlen plen)
    let (aad, nonce) := ccmpAadNonce (hdr ++ header) header
    match aesCcmAe aesEncrypt alloc.initOk nonce micLen pdata aad with
    | none => none
    | some (crypt, auth) => some (hdr ++ header ++ crypt ++ auth)

/-- `ccmp_decrypt` and `ccmp_256_decrypt`, of the bytes from `hdr` on and of the body. -/
def ccmpDecryptWith (micLen : Nat) (aesEncrypt : AesBlock → AesBlock) (alloc : CcmpAlloc)
    (hdr data : List UInt8) : Option (List UInt8) :=
  if data.length < 8 + micLen then none
  else if !alloc.mallocOk then none
  else
    let mlen := data.length - 8 - micLen
    let (aad, nonce) := ccmpAadNonce hdr data
    aesCcmAd aesEncrypt alloc.initOk nonce micLen (slice data 8 mlen) aad
      (slice data (8 + mlen) micLen)

/-- `aes_encrypt`, by the key of `aes_encrypt_init`. -/
abbrev Aes := List UInt8 → AesBlock → AesBlock

def ccmpEncrypt (aes : Aes) (alloc : CcmpAlloc) (tk frame : List UInt8) (len hdrlen : Nat)
    (pn : Option (List UInt8)) (keyid : Nat) : Option (List UInt8) :=
  ccmpEncryptWith 8 (aes (tk.take 16)) alloc frame len hdrlen pn keyid

def ccmp256Encrypt (aes : Aes) (alloc : CcmpAlloc) (tk frame : List UInt8) (len hdrlen : Nat)
    (pn : Option (List UInt8)) (keyid : Nat) : Option (List UInt8) :=
  ccmpEncryptWith 16 (aes (tk.take 32)) alloc frame len hdrlen pn keyid

def ccmpDecrypt (aes : Aes) (alloc : CcmpAlloc) (tk hdr data : List UInt8) : Option (List UInt8) :=
  ccmpDecryptWith 8 (aes (tk.take 16)) alloc hdr data

def ccmp256Decrypt (aes : Aes) (alloc : CcmpAlloc) (tk hdr data : List UInt8) :
    Option (List UInt8) :=
  ccmpDecryptWith 16 (aes (tk.take 32)) alloc hdr data

/-- The stream and the check that a block function gives for a frame and its body. -/
def ccmpSuite (micLen : Nat) (aesEncrypt : AesBlock → AesBlock) (hdr data : List UInt8) : Suite :=
  ccmSuite aesEncrypt (ccmpAadNonce hdr data).2 micLen (ccmpAadNonce hdr data).1

section Laws

variable {micLen : Nat} {aesEncrypt : AesBlock → AesBlock} {hdr data rest plain : List UInt8}

theorem length_aad (hdr data : List UInt8) : (ccmpAadNonce hdr data).1.length ≤ 30 := by
  have part : ∀ start count, (slice hdr start count).length ≤ count := by
    intro start count
    rw [slice, List.length_take]
    exact Nat.min_le_left _ _
  have first := part 4 ethAlen
  have second := part 10 ethAlen
  have third := part 16 ethAlen
  -- a fourth address and the control field of a data frame are not always there
  have copied : ∀ present : Prop, [Decidable present] →
      (slice hdr wifiFrameLen ((if present then 1 else 0) * ethAlen)).length ≤ 6 := by
    intro present decision
    refine (part _ _).trans ?_
    split <;> simp
  have edited : ∀ (present : Prop) (control : UInt8), [Decidable present] →
      (if present then [control, 0] else []).length ≤ 2 := by
    intro present control decision
    split <;> simp
  have fourth := copied (little (slice hdr 0 2) &&& wlanFcDs = wlanFcDs)
  simp only [ccmpAadNonce, List.length_append, wpaPutLe16, List.length_cons, List.length_nil]
  refine Nat.le_trans (Nat.add_le_add_left (Nat.add_le_add fourth (edited _ _)) _) ?_
  simp only [ethAlen] at first second third ⊢
  omega

/-- Associated data and nonce are of the header and of the first eight bytes behind it. -/
theorem ccmpAadNonce_append {header : List UInt8} (long : hdr.length = 24)
    (eight : header.length = 8) :
    ccmpAadNonce (hdr ++ header ++ rest) (header ++ rest) =
      ccmpAadNonce (hdr ++ header) header := by
  have whole : (hdr ++ header).length = 32 := by rw [List.length_append, long, eight]
  have byte : ∀ place < 8, (header ++ rest).getD place 0 = header.getD place 0 := by
    intro place inside
    rw [List.getD_append]
    omega
  have read : ∀ start count, start + count ≤ 32 →
      slice (hdr ++ header ++ rest) start count = slice (hdr ++ header) start count := by
    intro start count inside
    exact Bytes.slice_append_left (by omega)
  have control : ∀ addr4 ≤ 1, (hdr ++ header ++ rest).getD (wifiFrameLen + addr4 * ethAlen) 0 =
      (hdr ++ header).getD (wifiFrameLen + addr4 * ethAlen) 0 := by
    intro addr4 one
    rw [List.getD_append]
    simp only [wifiFrameLen, ethAlen]
    omega
  have addressed : ∀ fc : Nat, (if fc &&& wlanFcDs = wlanFcDs then 1 else 0) ≤ 1 := by
    intro fc
    split <;> simp
  have fc := read 0 2 (by decide)
  have copied := read wifiFrameLen
    ((if little (slice (hdr ++ header) 0 2) &&& wlanFcDs = wlanFcDs then 1 else 0) * ethAlen) (by
      have one := addressed (little (slice (hdr ++ header) 0 2))
      simp only [wifiFrameLen, ethAlen] at one ⊢
      omega)
  simp only [ccmpAadNonce, fc, read 4 ethAlen (by decide), read 10 ethAlen (by decide),
    read 16 ethAlen (by decide), read 22 2 (by decide), copied,
    control _ (addressed (little (slice (hdr ++ header) 0 2))), byte 0 (by decide),
    byte 1 (by decide), byte 4 (by decide), byte 5 (by decide), byte 6 (by decide),
    byte 7 (by decide)]

theorem length_ccmpCheck (fits : micLen ≤ 16) (plain : List UInt8) :
    ((ccmpSuite micLen aesEncrypt hdr data).encrypt plain).2.length = micLen :=
  length_check fits plain

/-- A body is accepted exactly when it is a header, the encryption of a text and its check. -/
theorem ccmpDecryptWith_eq_some (fits : micLen ≤ 16) :
    ccmpDecryptWith micLen aesEncrypt ⟨true, true⟩ hdr data = some plain ↔
      8 ≤ data.length ∧ data.drop 8 = ((ccmpSuite micLen aesEncrypt hdr data).encrypt plain).1 ++
        ((ccmpSuite micLen aesEncrypt hdr data).encrypt plain).2 := by
  rw [ccmpDecryptWith]
  split
  · rename_i short
    constructor
    · intro never
      cases never
    · rintro ⟨eight, parts⟩
      have sizes := congrArg List.length parts
      rw [List.length_drop, List.length_append, length_ccmpCheck fits] at sizes
      omega
  · rename_i enough
    have long : (slice data (8 + (data.length - 8 - micLen)) micLen).length = micLen :=
      Bytes.length_slice (by omega)
    have crypted : (slice data 8 (data.length - 8 - micLen)).length = data.length - 8 - micLen :=
      Bytes.length_slice (by omega)
    have parts : data.drop 8 = slice data 8 (data.length - 8 - micLen) ++
        slice data (8 + (data.length - 8 - micLen)) micLen := by
      rw [← Bytes.slice_add, slice, List.take_of_length_le]
      rw [List.length_drop]
      omega
    simp only [Bool.not_true, Bool.false_eq_true, if_false]
    rw [aesCcmAd_eq (length_aad hdr data) fits long]
    show (ccmpSuite micLen aesEncrypt hdr data).decrypt _ _ = some plain ↔ _
    rw [Suite.decrypt_eq_some, parts]
    constructor
    · intro same
      rw [same]
      exact ⟨by omega, rfl⟩
    · rintro ⟨-, same⟩
      obtain ⟨first, second⟩ :=
        List.append_inj' same (long.trans (length_ccmpCheck fits plain).symm)
      rw [first, second]

theorem ccmpDecryptWith_alloc {alloc : CcmpAlloc}
    (accepted : ccmpDecryptWith micLen aesEncrypt alloc hdr data = some plain) :
    alloc = ⟨true, true⟩ := by
  obtain ⟨mallocOk, initOk⟩ := alloc
  cases mallocOk <;> cases initOk <;> simp [ccmpDecryptWith] at accepted ⊢

theorem length_ccmpDecryptWith {alloc : CcmpAlloc} (fits : micLen ≤ 16)
    (accepted : ccmpDecryptWith micLen aesEncrypt alloc hdr data = some plain) :
    8 + plain.length + micLen = data.length := by
  cases ccmpDecryptWith_alloc accepted
  obtain ⟨eight, parts⟩ := (ccmpDecryptWith_eq_some fits).mp accepted
  have sizes := congrArg List.length parts
  rw [List.length_drop, List.length_append, length_ccmpCheck fits, Suite.length_encrypt] at sizes
  omega

theorem length_ccmpHeader (pn : List UInt8) (keyid : Nat) :
    (ccmpHeader pn keyid).length = 8 := rfl

theorem ccmpEncryptWith_alloc {alloc : CcmpAlloc} {frame sealed : List UInt8}
    {len hdrlen keyid : Nat} {pn : Option (List UInt8)}
    (made : ccmpEncryptWith micLen aesEncrypt alloc frame len hdrlen pn keyid = some sealed) :
    alloc = ⟨true, true⟩ := by
  obtain ⟨mallocOk, initOk⟩ := alloc
  cases mallocOk <;> cases initOk <;> simp [ccmpEncryptWith] at made ⊢

/-- The frame that is made of a header, a body and a packet number. -/
theorem ccmpEncryptWith_eq {pn header body : List UInt8} {keyid : Nat} (fits : micLen ≤ 16)
    (long : header.length = 24) :
    ccmpEncryptWith micLen aesEncrypt ⟨true, true⟩ (header ++ (body ++ rest)) (24 + body.length) 24
        (some pn) keyid =
      some (setIswep header ++ ccmpHeader pn keyid ++
        (((ccmpSuite micLen aesEncrypt (setIswep header ++ ccmpHeader pn keyid)
          (ccmpHeader pn keyid)).encrypt body).1 ++
        ((ccmpSuite micLen aesEncrypt (setIswep header ++ ccmpHeader pn keyid)
          (ccmpHeader pn keyid)).encrypt body).2)) := by
  have front : (header ++ (body ++ rest)).take 24 = header := by
    rw [← long, List.take_left]
  have back : slice (header ++ (body ++ rest)) 24 (24 + body.length - 24) = body := by
    rw [Bytes.slice_of_place long, Nat.add_sub_cancel_left, List.take_left]
  rw [ccmpEncryptWith, if_neg (by omega)]
  simp only [Bool.not_true, Bool.false_eq_true, if_false, front, back]
  rw [aesCcmAe_eq (length_aad _ _) fits]
  exact congrArg some (List.append_assoc _ _ _)

theorem ccmpDecryptWith_encrypt {pn header body : List UInt8} {keyid : Nat} (fits : micLen ≤ 16)
    (long : header.length = 24) :
    let sealed := ((ccmpSuite micLen aesEncrypt (header ++ ccmpHeader pn keyid)
      (ccmpHeader pn keyid)).encrypt body).1 ++ ((ccmpSuite micLen aesEncrypt
      (header ++ ccmpHeader pn keyid) (ccmpHeader pn keyid)).encrypt body).2
    ccmpDecryptWith micLen aesEncrypt ⟨true, true⟩ (header ++ ccmpHeader pn keyid ++ sealed)
      (ccmpHeader pn keyid ++ sealed) = some body := by
  intro sealed
  have same : ccmpSuite micLen aesEncrypt (header ++ ccmpHeader pn keyid ++ sealed)
      (ccmpHeader pn keyid ++ sealed) =
        ccmpSuite micLen aesEncrypt (header ++ ccmpHeader pn keyid) (ccmpHeader pn keyid) := by
    rw [ccmpSuite, ccmpSuite, ccmpAadNonce_append long (length_ccmpHeader pn keyid)]
  rw [ccmpDecryptWith_eq_some fits, same]
  constructor
  · rw [List.length_append, length_ccmpHeader]
    exact Nat.le_add_right 8 _
  · rw [List.drop_left' (length_ccmpHeader pn keyid)]

end Laws

end W522a.Crypto
