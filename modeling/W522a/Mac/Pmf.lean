import W522a.Ap.Rsn
import W522a.Crypto.Ccmp
import W522a.Lib.Traced
import W522a.Mac.Bip

/-!
Protected management frames: `wifi_mac_sw_encrypt` encrypts the body of a frame that is sent, and
`wifi_mac_mgmt_validate` checks and decrypts one that has arrived.
-/

namespace W522a.Mac

open Ap (wifinetCipherWep wifinetCipherTkip wifinetCipherAesOcb wifinetCipherAesCcm)
open Bytes (slice write)
open Crypto (Aes CcmpAlloc ccmpEncrypt ccmp256Encrypt ccmpDecrypt ccmp256Decrypt)
open Memory (Traced emit)

/-- `WIFINET_FC0_TYPE_MASK` -/
@[simp] abbrev mgmtTypeMask : UInt8 := 0x0c

@[simp] abbrev wifinetFc0TypeMgt : UInt8 := 0x00

@[simp] abbrev wifinetFc0SubtypeMask : UInt8 := 0xf0

@[simp] abbrev wifinetFc0SubtypeDisassoc : UInt8 := 0xa0

@[simp] abbrev wifinetFc0SubtypeDeauth : UInt8 := 0xc0

@[simp] abbrev wifinetFc0SubtypeAction : UInt8 := 0xd0

@[simp] abbrev wifinetFc1Wep : UInt8 := 0x40

/-- The ciphers whose cases the switches share: `WIFINET_CIPHER_AES_OCB`, `WIFINET_CIPHER_AES_CCM`
and `WIFINET_CIPHER_AES_CMAC`. -/
def aesCiphers : List Nat := [wifinetCipherAesOcb, wifinetCipherAesCcm, wifinetCipherAesCmac]

/-- `SET_ICE_IV_LEN`: the length before the body and that behind it. -/
def setIceIvLen (encrypt : Nat) : Nat × Nat :=
  if encrypt = wifinetCipherWep then (4, 4)
  else if encrypt = wifinetCipherTkip then (8, 4)
  else if encrypt ∈ aesCiphers then (8, 8)
  else (0, 0)

/-- `CATEGORY_IS_NON_ROBUST`: `AML_CATEGORY_PUBLIC`, `AML_CATEGORY_HT`,
`AML_CATEGORY_UNPROTECTED_WNM`, `AML_CATEGORY_SELF_PROTECTED`, `AML_CATEGORY_VHT` and
`AML_CATEGORY_P2P`. -/
def categoryIsNonRobust (cat : UInt8) : Prop := cat ∈ ([4, 7, 11, 15, 21, 127] : List UInt8)

instance (cat : UInt8) : Decidable (categoryIsNonRobust cat) :=
  inferInstanceAs (Decidable (cat ∈ ([4, 7, 11, 15, 21, 127] : List UInt8)))

/-- What the code uses of a `wifi_mac_key`. Whoever sets a key keeps its length to
`WIFINET_KEYBUF_SIZE`: `vm_cfg80211_add_key` cuts it and `vm_set_wep_key` refuses a longer one. -/
structure WifiMacKey where
  wkKeylen : Nat
  wkKeyType : Nat
  wkKeyix : Nat
  wkKey : List UInt8
  cut : wkKeylen ≤ 16

/-- What `wifi_mac_mgmt_validate` uses of a `wifi_station`. -/
structure PmfStation where
  staUcastkey : WifiMacKey
  rsnUcastcipher : Nat
  pmfKey : PmfKey

/-- What surrounds the two functions: what the check of a management MIC finds, the block function,
and whether the allocations of `mgmt_data` and of the cipher succeed. -/
structure PmfEnv extends BipEnv where
  aes : Aes
  mgmtAllocOk : Bool
  ccmpAlloc : CcmpAlloc

/-- What is watched: a length that is computed, and a range of the frame that is copied. -/
inductive PmfEvent where
  | length (value : Int)
  | copy (start count : Nat)
  deriving DecidableEq, Repr

/-- `WIFINET_IS_MULTICAST(wh->i_addr1)` -/
def isBmc (frm : List UInt8) : Bool := frm.getD 4 0 &&& 1 ≠ 0

/-- `is_robust_management_frame`; the category is read behind a frame without body as well. -/
def isRobustManagementFrame (env : BipEnv) (wh : List UInt8) : Bool :=
  let type := wh.getD 0 0 &&& mgmtTypeMask
  let subtype := wh.getD 0 0 &&& wifinetFc0SubtypeMask
  let category := wh.getD wifiFrameLen (env.memory wifiFrameLen)
  if type ≠ wifinetFc0TypeMgt then false
  else if subtype ≠ wifinetFc0SubtypeDisassoc ∧ subtype ≠ wifinetFc0SubtypeDeauth ∧
      subtype ≠ wifinetFc0SubtypeAction then false
  else if subtype = wifinetFc0SubtypeAction ∧ categoryIsNonRobust category then false
  else true

/-- The decryption that `aml_aes_decrypt` chooses by the length of the key. -/
def ccmpPlain (env : PmfEnv) (key : WifiMacKey) (frm : List UInt8) : Option (List UInt8) :=
  let body := frm.drop wifiFrameLen
  if key.wkKeylen = 16 then ccmpDecrypt env.aes env.ccmpAlloc key.wkKey frm body
  else if key.wkKeylen = 32 then ccmp256Decrypt env.aes env.ccmpAlloc key.wkKey frm body
  else none

/-- `aml_aes_decrypt`; `none` when it returns 1. -/
def amlAesDecrypt (env : PmfEnv) (sta : PmfStation) (frm : List UInt8) :
    Traced PmfEvent (Option (List UInt8)) := do
  emit (.length ((frm.length : Int) - wifiFrameLen))
  match ccmpPlain env sta.staUcastkey frm with
  | none => pure none
  | some plain =>
    emit (.copy (wifiFrameLen + 8) plain.length)
    pure (some (write frm (wifiFrameLen + 8) plain))

/-- `aml_pkt_decrypt`; `none` when it does not return 0. -/
def amlPktDecrypt (env : PmfEnv) (sta : PmfStation) (frm : List UInt8) :
    Traced PmfEvent (Option (List UInt8)) :=
  if sta.rsnUcastcipher ∈ aesCiphers then amlAesDecrypt env sta frm else pure (some frm)

/-- The lengths and the copies of `wifi_mac_parse_mmie` when it gets as far as the MIC. -/
def mmieAccesses (key : PmfKey) (frm : List UInt8) : Traced PmfEvent Unit :=
  let pktLen := frm.length % 65536
  let micLen := if key.wkKeyType = wifinetCipherAesCmac then 8 else 16
  if pktLen < wifiFrameLen ∨ pktLen - wifiFrameLen < micLen then pure ()
  else do
    let mme := pktLen - (if micLen = 8 then mmeIeLengthCmac else mmeIeLength)
    emit (.copy (mme + 2) 2)
    emit (.copy (mme + 4) 8)
    emit (.length ((pktLen : Int) - wifiFrameLen - micLen))
    emit (.copy wifiFrameLen (pktLen - wifiFrameLen - micLen))
    emit (.copy 0 2)
    emit (.copy 4 6)
    emit (.copy 10 6)
    emit (.copy 16 6)

/-- What `wifi_mac_mgmt_validate` leaves: the value it returns (`none` when it never does), the key
of the station and the frame. -/
structure Validated where
  res : Option Nat
  pmfKey : PmfKey
  frame : List UInt8

/-- What the two copies of `wifi_mac_mgmt_validate` make of the frame: its body moves over what
stands before it. The list is what the memory holds from the data pointer on. -/
def movedBody (env : BipEnv) (frm : List UInt8) (ivLen dataLen : Nat) : List UInt8 :=
  write frm wifiFrameLen (readMemory env frm (wifiFrameLen + ivLen) dataLen)

/-- The end of `wifi_mac_mgmt_validate`: a group addressed frame has its management MIC checked. The
memory behind the shortened frame is that of the frame before. -/
def checkMmie (env : BipEnv) (key : PmfKey) (isBmc : Bool) (moved : List UInt8) (len : Nat) :
    Traced PmfEvent Validated :=
  let frm := moved.take len
  if isBmc then do
    mmieAccesses key frm
    let env := { env with memory := fun place => moved.getD place (env.memory place) }
    match wifiMacParseMmie env key frm with
    | none => pure ⟨none, key, frm⟩
    | some (res, key) => pure ⟨if res ≠ 1 then some 1 else some 0, key, frm⟩
  else pure ⟨some 0, key, frm⟩

/-- `wifi_mac_mgmt_validate`; its caller has checked that the frame has its header. -/
def wifiMacMgmtValidate (env : PmfEnv) (sta : PmfStation) (frm : List UInt8) :
    Traced PmfEvent Validated :=
  if !isRobustManagementFrame env.toBipEnv frm then pure ⟨some 1, sta.pmfKey, frm⟩
  else do
    let (ivLen, icvLen) := setIceIvLen sta.rsnUcastcipher
    let left : Int := frm.length - wifiFrameLen - ivLen - icvLen
    emit (.length left)
    -- an `unsigned short`
    let dataLen := (left % 65536).toNat
    if !env.mgmtAllocOk then pure ⟨some 1, sta.pmfKey, frm⟩
    else
      match ← amlPktDecrypt env sta frm with
      | none => pure ⟨some 1, sta.pmfKey, frm⟩
      | some plain =>
        emit (.copy (wifiFrameLen + ivLen) dataLen)
        emit (.copy wifiFrameLen dataLen)
        checkMmie env.toBipEnv sta.pmfKey (isBmc frm) (movedBody env.toBipEnv plain ivLen dataLen)
          (frm.length - ivLen - icvLen)

/-- What `wifi_mac_sw_encrypt` uses: the key of the station and that of the group
(`vm_nw_keys[vm_def_txkey]`), and the packet numbers of `uRepCnt` and `mRepCnt`. -/
structure SwStation where
  staUcastkey : WifiMacKey
  groupKey : WifiMacKey
  uRepCnt : UInt64
  mRepCnt : UInt64

/-- The bytes of a packet number, as they lie in `txPN`. -/
def pnBytes (pn : UInt64) : List UInt8 :=
  [pn.toUInt8, (pn >>> 8).toUInt8, (pn >>> 16).toUInt8, (pn >>> 24).toUInt8, (pn >>> 32).toUInt8,
    (pn >>> 40).toUInt8]

/-- `_aml_ccmp_encrypt`; `none` when it returns 0. What it writes behind the end of the frame is not
part of the frame. -/
def amlCcmpEncrypt (env : PmfEnv) (key : WifiMacKey) (pn : List UInt8) (hdrlen : Nat)
    (frame : List UInt8) (plen : Nat) : Option (List UInt8) :=
  let enc :=
    if key.wkKeylen = 16 then
      ccmpEncrypt env.aes env.ccmpAlloc key.wkKey frame (hdrlen + plen) hdrlen (some pn) key.wkKeyix
    else if key.wkKeylen = 32 then
      ccmp256Encrypt env.aes env.ccmpAlloc key.wkKey frame (hdrlen + plen) hdrlen (some pn)
        key.wkKeyix
    else none
  enc.map fun enc => (write frame 0 enc).take frame.length

/-- `wifi_mac_sw_encrypt`: the value it returns, the packet numbers and the frame. -/
def wifiMacSwEncrypt (env : PmfEnv) (sta : SwStation) (frm : List UInt8) :
    Nat × SwStation × List UInt8 :=
  let key := if isBmc frm then sta.groupKey else sta.staUcastkey
  let pn := if isBmc frm then sta.mRepCnt else sta.uRepCnt
  let (ivLen, icvLen) := setIceIvLen key.wkKeyType
  let put := frm ++ (List.range (ivLen + icvLen)).map fun place => env.memory (frm.length + place)
  let next := if isBmc frm then { sta with mRepCnt := pn + 1 } else { sta with uRepCnt := pn + 1 }
  let enc :=
    if key.wkKeyType ∈ aesCiphers then
      amlCcmpEncrypt env key (pnBytes pn) wifiFrameLen put
        (put.length - wifiFrameLen - ivLen - icvLen)
    else none
  match enc with
  | some frame => (1, next, frame)
  | none => (0, next, put)

end W522a.Mac
