import W522a.Common
import W522a.Lib.Bytes

/-!
The RSN element as an access point reads it twice: its own, which configures it, and that of a
station that asks to join.
-/

namespace W522a.Ap

@[simp] abbrev wifinetReasonIeInvalid : Nat := 13

@[simp] abbrev rsnVersion : Nat := 1

@[simp] abbrev ieHdrLen : Nat := 2

@[simp] abbrev ouiLen : Nat := 4

@[simp] abbrev wpaPmkidLen : Nat := 16

/-- `WIFINET_CIPHER_*`; `32` is what `rsn_cipher` answers for a suite it does not know. -/
@[simp] abbrev wifinetCipherWep : Nat := 0

@[simp] abbrev wifinetCipherTkip : Nat := 1

@[simp] abbrev wifinetCipherAesOcb : Nat := 2

@[simp] abbrev wifinetCipherAesCcm : Nat := 3

@[simp] abbrev wifinetCipherWpi : Nat := 4

@[simp] abbrev wifinetCipherAesPsk256 : Nat := 6

@[simp] abbrev wifinetCipherAesSae : Nat := 8

@[simp] abbrev wifinetCipherNone : Nat := 9

@[simp] abbrev unknownCipher : Nat := 32

def rsnSel (type : Nat) : Nat := type * 2 ^ 24 + 0xac0f00

def read16l (frm : Nat → UInt8) (offset : Nat) : Nat :=
  (frm offset).toNat + 256 * (frm (offset + 1)).toNat

def read32l (frm : Nat → UInt8) (offset : Nat) : Nat :=
  read16l frm offset + 65536 * read16l frm (offset + 2)

/-- `rsn_cipher`, with the key length that it may write. -/
def rsnCipher (frm : Nat → UInt8) (offset keylen : Nat) : Nat × Nat :=
  let w := read32l frm offset
  if w = rsnSel 0x00 then (wifinetCipherNone, keylen)
  else if w = rsnSel 0x01 then (wifinetCipherWep, 5)
  else if w = rsnSel 0x05 then (wifinetCipherWep, 13)
  else if w = rsnSel 0x02 then (wifinetCipherTkip, keylen)
  else if w = rsnSel 0x03 then (wifinetCipherAesOcb, keylen)
  else if w = rsnSel 0x04 then (wifinetCipherAesCcm, keylen)
  else if w = rsnSel 0x06 then (wifinetCipherAesPsk256, keylen)
  else if w = rsnSel 0x08 then (wifinetCipherAesSae, keylen)
  else (unknownCipher, keylen)

def rsnKeymgmt (frm : Nat → UInt8) (offset : Nat) : Nat :=
  let w := read32l frm offset
  if w = rsnSel 0x01 then 0x01
  else if w = rsnSel 0x02 then 0x02
  else if w = rsnSel 0x06 then 0x06
  else if w = rsnSel 0x08 then 0x08
  else if w = rsnSel 0x00 then 0x00
  else if w = rsnSel 0x05 then 0x05
  else 0

/-- `struct wifi_mac_Rsnparms`, what the parsers of the RSN element use of it. The set of the
pairwise ciphers has eight bits, that of the key managements sixteen. -/
structure Rsnparms where
  rsnMcastcipher : Nat
  rsnMcastkeylen : Nat
  rsnUcastcipherset : Nat
  rsnUcastcipher : Nat
  rsnUcastkeylen : Nat
  rsnKeymgmtset : Nat
  rsnCaps : Nat
  rsnCapsOffset : Nat
  rsnPmkidCount : Nat
  rsnPmkidOffset : Nat
  rsnPmkid : List UInt8
  rsnGmcipher : Nat
  deriving DecidableEq, Repr

/-- What the interface can do: its capabilities and the ciphers of `security_type`. -/
structure RsnVif where
  vmCaps : Nat
  securityType : Nat → Bool

def cipher2cap (cipher : Nat) : Nat :=
  if cipher = wifinetCipherWep then 0x00000001
  else if cipher = wifinetCipherAesOcb then 0x00000004
  else if cipher = wifinetCipherAesCcm then 0x00000008
  else if cipher = wifinetCipherWpi then 0x00000010
  else if cipher = wifinetCipherTkip then 0x00000002
  else 0

/-- `wifi_mac_security_available`; `WIFINET_CIPHER_MAX` is 10. -/
def wifiMacSecurityAvailable (vif : RsnVif) (cipher : Nat) : Bool :=
  cipher < wifinetCipherNone + 1 && vif.securityType cipher

/-- A cipher that the interface does not know or have. -/
def cipherRefused (vif : RsnVif) (w : Nat) : Bool :=
  w == unknownCipher ||
    (vif.vmCaps &&& cipher2cap w == 0 && !wifiMacSecurityAvailable vif w)

/-- The pairwise ciphers of `wifi_mac_parse_own_rsn`, and whether it got through. -/
def ownUcast (vif : RsnVif) (frm : Nat → UInt8) : Nat → Nat → Rsnparms → Bool × Rsnparms
  | 0, _, rsn => (true, rsn)
  | n + 1, index, rsn =>
    let cipher := rsnCipher frm index rsn.rsnUcastkeylen
    let rsn := { rsn with rsnUcastkeylen := cipher.2 }
    if cipherRefused vif cipher.1 then (false, rsn)
    else
      ownUcast vif frm n (index + ouiLen)
        { rsn with rsnUcastcipherset := (rsn.rsnUcastcipherset ||| 2 ^ cipher.1) % 2 ^ 8 }

/-- The key managements of `wifi_mac_parse_own_rsn`, and whether it got through. -/
def ownKeymgmt (frm : Nat → UInt8) : Nat → Nat → Rsnparms → Bool × Rsnparms
  | 0, _, rsn => (true, rsn)
  | n + 1, index, rsn =>
    let w := rsnKeymgmt frm index
    if w = 0 then (false, rsn)
    else
      ownKeymgmt frm n (index + ouiLen)
        { rsn with rsnKeymgmtset := (rsn.rsnKeymgmtset ||| 2 ^ w) % 2 ^ 16 }

/-- The rest of `wifi_mac_parse_own_rsn`, from the capabilities to the end of the element. -/
def ownRest (frm : Nat → UInt8) (stop index : Nat) (rsn : Rsnparms) : Nat × Rsnparms :=
  let (rsn, index) :=
    if 2 ≤ stop - index then
      ({ rsn with rsnCaps := read16l frm index, rsnCapsOffset := index % 256 }, index + 2)
    else (rsn, index)
  let (rsn, index) :=
    if 2 ≤ stop - index then
      ({ rsn with rsnPmkidCount := read16l frm index % 256 }, index + 2)
    else ({ rsn with rsnPmkidCount := 0 }, index)
  if stop - index < rsn.rsnPmkidCount * wpaPmkidLen then (wifinetReasonIeInvalid, rsn)
  else
    let rsn :=
      if rsn.rsnPmkidCount ≠ 0 then
        { rsn with
          rsnPmkidOffset := index % 256
          rsnPmkid := (List.range wpaPmkidLen).map fun place => frm (index + place) }
      else { rsn with rsnPmkidOffset := 0 }
    let index := index + rsn.rsnPmkidCount * wpaPmkidLen
    if ouiLen ≤ stop - index then (0, { rsn with rsnGmcipher := rsnKeymgmt frm index })
    else (0, rsn)

/-- The key managements of `wifi_mac_parse_own_rsn` and what follows them. -/
def ownSecond (frm : Nat → UInt8) (len index : Nat) (rsn : Rsnparms) : Nat × Rsnparms :=
  let n := read16l frm index % 256
  let index := index + 2
  if len + ieHdrLen - index < n * ouiLen then (wifinetReasonIeInvalid, rsn)
  else
    let (known, rsn) := ownKeymgmt frm n index rsn
    if !known then (wifinetReasonIeInvalid, rsn)
    else ownRest frm (len + ieHdrLen) (index + n * ouiLen) rsn

/-- The pairwise cipher that is chosen of a set. -/
def chosenUcast (rsnUcastcipherset : Nat) : Nat :=
  if rsnUcastcipherset.testBit wifinetCipherAesCcm then wifinetCipherAesCcm
  else wifinetCipherTkip

/-- `wifi_mac_parse_own_rsn`, and the reason it returns; its counts have eight bits. -/
def wifiMacParseOwnRsn (vif : RsnVif) (rsn : Rsnparms) (frm : Nat → UInt8) : Nat × Rsnparms :=
  let len := (frm 1).toNat
  if len < 10 then (wifinetReasonIeInvalid, rsn)
  else if read16l frm 2 ≠ rsnVersion then (wifinetReasonIeInvalid, rsn)
  else
    let cipher := rsnCipher frm 4 rsn.rsnMcastkeylen
    let rsn := { rsn with rsnMcastkeylen := cipher.2 }
    if cipherRefused vif cipher.1 then (wifinetReasonIeInvalid, rsn)
    else
      let rsn := { rsn with rsnMcastcipher := cipher.1 }
      let n := read16l frm 8 % 256
      if len + ieHdrLen - 10 < n * ouiLen + 2 then (wifinetReasonIeInvalid, rsn)
      else
        let (known, rsn) := ownUcast vif frm n 10 rsn
        if !known then (wifinetReasonIeInvalid, rsn)
        else
          ownSecond frm len (10 + n * ouiLen)
            { rsn with rsnUcastcipher := chosenUcast rsn.rsnUcastcipherset }

/-- `1 << w`. A shift of an `int` by 32 is undefined: processors take the distance modulo 32, or
shift everything out. -/
def shiftOne (wraps : Bool) (w : Nat) : Nat :=
  if w < 32 then 2 ^ w else if wraps then 1 else 0

/-- Where a loop over suites stands: in the element, with how many bytes left of it in eight bits,
the set so far and a key length. -/
structure SuiteLoop where
  frm : Nat
  len : Nat
  w : Nat
  keylen : Nat

/-- A loop of `wifi_mac_parse_counterpart_rsn` over `n` suites, which ends early on the set `bad`. -/
def suiteLoop (wraps : Bool) (suite : Nat → Nat → Nat × Nat) (bad : Nat) :
    Nat → SuiteLoop → Bool × SuiteLoop
  | 0, state => (true, state)
  | n + 1, state =>
    let found := suite state.frm state.keylen
    let state := { state with w := state.w ||| shiftOne wraps found.1, keylen := found.2 }
    if state.w = bad then (false, state)
    else
      suiteLoop wraps suite bad n
        { state with frm := state.frm + ouiLen, len := (state.len + 256 - ouiLen) % 256 }

/-- The rest of `wifi_mac_parse_counterpart_rsn`, from the capabilities on. -/
def counterpartRest (frm : Nat → UInt8) (isJudge : Bool) (total offset len : Nat)
    (rsn : Rsnparms) : Nat × Rsnparms :=
  if len < 2 ∧ isJudge = false then (wifinetReasonIeInvalid, rsn)
  else
    let (rsn, offset, len) :=
      if 2 ≤ len then
        ({ rsn with rsnCaps := read16l frm offset, rsnCapsOffset := (total + 256 - len + 2) % 256 },
          offset + 2, len - 2)
      else (rsn, offset, len)
    let (rsn, offset, len) :=
      if 2 ≤ len then
        ({ rsn with rsnPmkidCount := read16l frm offset % 256 }, offset + 2, len - 2)
      else ({ rsn with rsnPmkidCount := 0 }, offset, len)
    if len < rsn.rsnPmkidCount * wpaPmkidLen then (wifinetReasonIeInvalid, rsn)
    else
      let rsn :=
        if rsn.rsnPmkidCount ≠ 0 then
          { rsn with rsnPmkid := (List.range wpaPmkidLen).map fun place => frm (offset + place) }
        else { rsn with rsnPmkidOffset := 0 }
      let offset := offset + rsn.rsnPmkidCount * wpaPmkidLen
      let len := len - rsn.rsnPmkidCount * wpaPmkidLen
      (0, { rsn with rsnGmcipher := if ouiLen ≤ len then rsnKeymgmt frm offset else 0 })

/-- The key managements of `wifi_mac_parse_counterpart_rsn`, and what follows them. -/
def counterpartKeymgmt (wraps : Bool) (frm : Nat → UInt8) (isJudge : Bool)
    (total offset len : Nat) (rsn : Rsnparms) : Nat × Rsnparms :=
  let n := read16l frm offset
  let offset := offset + 2
  let len := (len + 256 - 2) % 256
  if (n = 0 ∨ len < n * ouiLen) ∧ isJudge then (wifinetReasonIeInvalid, rsn)
  else
    let (known, state) := suiteLoop wraps (fun offset keylen => (rsnKeymgmt frm offset, keylen))
      1 n ⟨offset, len, 0, 0⟩
    if !known then (wifinetReasonIeInvalid, rsn)
    else if isJudge ∧ state.w &&& rsn.rsnKeymgmtset = 0 then (wifinetReasonIeInvalid, rsn)
    else counterpartRest frm isJudge total state.frm state.len rsn

/-- `wifi_mac_parse_counterpart_rsn`, and the reason it returns. -/
def wifiMacParseCounterpartRsn (wraps : Bool) (rsn : Rsnparms) (frm : Nat → UInt8)
    (isJudge : Bool) : Nat × Rsnparms :=
  let total := (frm 1).toNat
  if total < 10 then (wifinetReasonIeInvalid, rsn)
  else if read16l frm 2 ≠ rsnVersion then (wifinetReasonIeInvalid, rsn)
  else
    let cipher := rsnCipher frm 4 rsn.rsnMcastkeylen
    let rsn := { rsn with rsnMcastkeylen := cipher.2 }
    if cipher.1 = unknownCipher then (wifinetReasonIeInvalid, rsn)
    else if isJudge ∧ cipher.1 ≠ rsn.rsnMcastcipher then (wifinetReasonIeInvalid, rsn)
    else
      let n := read16l frm 8
      let len := total - 8
      if (n = 0 ∨ len < n * ouiLen + 2) ∧ isJudge then (wifinetReasonIeInvalid, rsn)
      else
        let (known, state) := suiteLoop wraps (rsnCipher frm) 32 n
          ⟨10, len, 0, rsn.rsnUcastkeylen⟩
        let rsn := { rsn with rsnUcastkeylen := state.keylen }
        if !known then (wifinetReasonIeInvalid, rsn)
        else if isJudge ∧ state.w &&& rsn.rsnUcastcipherset = 0 then
          (wifinetReasonIeInvalid, rsn)
        else counterpartKeymgmt wraps frm isJudge total state.frm state.len rsn

end W522a.Ap
