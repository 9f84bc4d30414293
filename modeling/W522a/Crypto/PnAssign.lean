import Mathlib.Logic.Function.Basic
import W522a.Crypto.Pn
import W522a.Lib.Run

/-!
Where the packet numbers of sent frames come from: the descriptor of a frame that the hardware
encrypts and the software encryption of robust management frames draw from the same counters.
-/

namespace W522a.Crypto

/-- The encryption types of a descriptor, `WIFI_NO_WEP` to `WIFI_WPI`. -/
inductive EncryptType where
  | noWep
  | wep64
  | tkip
  | aes
  | wep128
  | wep256
  | wpi
  deriving DecidableEq, Repr

/-- The ciphers of a key, `WIFINET_CIPHER_WEP` to `WIFINET_CIPHER_NONE`. -/
inductive Cipher where
  | wep
  | tkip
  | aesOcb
  | aesCcm
  | wpi
  | aesCmac
  | aesPsk256
  | aesSae
  | none
  deriving DecidableEq, Repr

/-- The key type that `wifi_mac_build_txinfo` gives a frame under a key of a cipher. -/
def txinfoKeyType : Cipher → EncryptType
  | .wep => .wep64
  | .tkip => .tkip
  | .aesOcb | .aesCcm => .aes
  | .wpi | .aesCmac | .aesPsk256 | .aesSae | .none => .noWep

/-- `EncryptType` of `aml_prepare_agg_tx_priv_param`, with the length of the station's key. -/
def aggEncryptType (keyType : EncryptType) (wkKeylen : Nat) : EncryptType :=
  if keyType = .wep64 ∧ (wkKeylen = 13 ∨ wkKeylen = 26) then .wep128 else keyType

structure MacKey where
  wkKeyType : Cipher
  wkKeylen : Nat
  deriving DecidableEq, Repr

/-- A station with the keys its frames are encrypted under in software, its own and
`vm_nw_keys[vm_def_txkey]` of its interface, and with the encryption types of the descriptors of
its protected frames: of those to the group, and of those to the station. -/
structure TxStation where
  wnetVifId : Nat
  /-- `vm_opmode == WIFINET_M_STA` -/
  modeSta : Bool
  staAssocid : UInt16
  staUcastkey : MacKey
  vmNwKey : MacKey
  encryptType : Bool → EncryptType
  /-- Association ids are given out below `vm_max_aid`. -/
  aid_lt : staAssocid &&& ~~~0xc000 < 17

/-- The counters of the HAL that packet numbers are drawn from. -/
inductive PnRef where
  | mRepCnt (vid : Nat)
  | uRepCnt (vid staId : Nat)
  deriving DecidableEq, Repr

abbrev RepCnt := PnRef → Pn

/-- `(*PN)++` on the first word. -/
def Pn.increment (pn : Pn) : Pn := { pn with word0 := pn.word0 + 1 }

def halWpiPnSelfPlus (pn : Pn) : Pn :=
  if pn.word0 = 0xFFFFFFFFFFFFFFFF then ⟨0, pn.word1 + 1⟩
  else { pn with word0 := pn.word0 + 1 }

def halWpiPnSelfPlusPlus (pn : Pn) : Pn :=
  if pn.word0 = 0xFFFFFFFFFFFFFFFF then ⟨1, pn.word1 + 1⟩
  else if pn.word0 = 0xFFFFFFFFFFFFFFFE then ⟨0, pn.word1 + 1⟩
  else { pn with word0 := pn.word0 + 2 }

/-- The transmit number that `hal_mrep_cnt_init` leaves. -/
def halMrepCntInit (encryType : EncryptType) : Pn :=
  if encryType = .wpi then ⟨0x5c365c365c365c36, 0x5c365c365c365c36⟩ else ⟨1, 0⟩

/-- `assign_tx_desc_pn`, with what it writes to the descriptor. -/
def assignTxDescPn (isBc : Bool) (vid : Nat) (staId : UInt8) (encryptType : EncryptType)
    (cnt : RepCnt) : Option Pn × RepCnt :=
  if encryptType = .noWep then (none, cnt)
  else
    let ref := if isBc then PnRef.mRepCnt vid else .uRepCnt vid staId.toNat
    match encryptType with
    | .tkip => (some ⟨(cnt ref).word0, 0⟩, Function.update cnt ref (cnt ref).increment)
    | .aes => (some ⟨(cnt ref).word0, 0⟩, Function.update cnt ref (cnt ref).increment)
    | .wpi =>
      if isBc then (some (cnt ref), Function.update cnt ref (halWpiPnSelfPlus (cnt ref)))
      else (some (cnt ref), Function.update cnt ref (halWpiPnSelfPlusPlus (cnt ref)))
    | _ => (none, cnt)

/-- The six bytes that the CCMP header of a frame has for its packet number. -/
def ccmpPn (pn : Pn) : Pn := ⟨pn.word0 &&& 0xFFFFFFFFFFFF, 0⟩

/-- `_aml_ccmp_encrypt`. It fails without memory for the encrypted frame. -/
def amlCcmpEncrypt (key : MacKey) (pn : Pn) (alloc : Bool) : Option Pn :=
  if (key.wkKeylen = 16 ∨ key.wkKeylen = 32) ∧ alloc then some (ccmpPn pn) else none

/-- `wifi_mac_sw_encrypt`, with the number in the encrypted frame. Without one the caller
completes the frame unsent. -/
def wifiMacSwEncrypt (sta : TxStation) (isBmc alloc : Bool) (cnt : RepCnt) :
    Option Pn × RepCnt :=
  let key := if isBmc then sta.vmNwKey else sta.staUcastkey
  let staid := if sta.modeSta then 1 else sta.staAssocid &&& ~~~0xc000
  let ref := if isBmc then PnRef.mRepCnt sta.wnetVifId else .uRepCnt sta.wnetVifId staid.toNat
  let res := match key.wkKeyType with
    | .aesOcb | .aesCcm | .aesCmac => amlCcmpEncrypt key (cnt ref) alloc
    | _ => none
  (res, Function.update cnt ref (cnt ref).increment)

/-- `StaId` of `aml_prepare_agg_tx_priv_param`. -/
def staId (sta : TxStation) : UInt8 :=
  if sta.modeSta then 1 else (sta.staAssocid &&& ~~~0xc000).toUInt8

/-- The counters, and the numbers of the frames sent from each, the latest first. -/
structure Air where
  cnt : RepCnt
  sent : PnRef → List Pn

/-- A frame to a station or to the group of its interface. -/
inductive PnEvent where
  /-- A descriptor is handed to the hardware. Frames without the protected bit and those that
  were encrypted in software have the type of no encryption. -/
  | hardware (isBc isProtected : Bool)
  /-- A robust management frame is encrypted under the lock of the numbers. -/
  | software (isBmc alloc : Bool)
  deriving DecidableEq, Repr

def PnEvent.group : PnEvent → Bool
  | .hardware isBc _ => isBc
  | .software isBmc _ => isBmc

/-- The counter of the station or of its group. -/
def PnEvent.ref (sta : TxStation) (event : PnEvent) : PnRef :=
  if event.group then .mRepCnt sta.wnetVifId
  else .uRepCnt sta.wnetVifId (if sta.modeSta then 1 else (sta.staAssocid &&& ~~~0xc000).toNat)

/-- The number that the frame carries if one is sent, and the counters after it. -/
def draw (sta : TxStation) (cnt : RepCnt) : PnEvent → Option Pn × RepCnt
  | .hardware isBc isProtected =>
    let encryptType := if isProtected then sta.encryptType isBc else .noWep
    assignTxDescPn isBc sta.wnetVifId (staId sta) encryptType cnt
  | .software isBmc alloc => wifiMacSwEncrypt sta isBmc alloc cnt

def Air.step (sta : TxStation) (air : Air) (event : PnEvent) : Air where
  cnt := (draw sta air.cnt event).2
  sent := Function.update air.sent (event.ref sta)
    ((draw sta air.cnt event).1.toList ++ air.sent (event.ref sta))

end W522a.Crypto
