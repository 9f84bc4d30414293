import W522a.Ap.AssocReq

/-!
The RSN and the WPA element of an access point: what a configuration leaves of those it is given,
and the elements that are built of it again.
-/

namespace W522a.Ap

@[simp] abbrev wpaVersion : Nat := 1

@[simp] abbrev wifinetElemidVendor : UInt8 := 221

@[simp] abbrev wifinetElemidRsn : UInt8 := 48

/-- The size of `struct wifi_mac_ie_wpa`. -/
@[simp] abbrev wifiMacIeWpaSize : Nat := 100

/-- `struct wifi_mac_Rsnparms` with what the WPA element alone carries. -/
structure OwnRsnparms extends Rsnparms where
  saValid : Bool
  gtksa : UInt8
  ptksa : UInt8
  deriving DecidableEq, Repr

def zeroRsnparms : OwnRsnparms :=
  { rsnMcastcipher := 0
    rsnMcastkeylen := 0
    rsnUcastcipherset := 0
    rsnUcastcipher := 0
    rsnUcastkeylen := 0
    rsnKeymgmtset := 0
    rsnCaps := 0
    rsnCapsOffset := 0
    rsnPmkidCount := 0
    rsnPmkidOffset := 0
    rsnPmkid := List.replicate wpaPmkidLen 0
    rsnGmcipher := 0
    saValid := false
    gtksa := 0
    ptksa := 0 }

/-- The key managements of `wifi_mac_parse_wpa` for the own element, and what follows them. -/
def ownWpaKeymgmts (wraps : Bool) (frm : Nat → UInt8) (offset len : Nat) (rsn : OwnRsnparms) :
    Nat × OwnRsnparms :=
  let n := read16l frm offset
  if len - 2 < n * 4 then (wifinetReasonIeInvalid, rsn)
  else
    let (w, _) :=
      wpaSuites wraps (fun place keylen => (wpaKeymgmt frm place, keylen)) n (offset + 2) (0, 0)
    let rsn := { rsn with rsnKeymgmtset := w % 2 ^ 16 }
    let offset := offset + 2 + n * 4
    if w = 0 then (wifinetReasonIeInvalid, rsn)
    else if 2 ≤ len - 2 - n * 4 then
      (0, { rsn with saValid := true, gtksa := frm offset, ptksa := frm (offset + 1) })
    else (0, rsn)

/-- `wifi_mac_parse_wpa` for the `own` element, which it records, and the reason it returns. -/
def wifiMacParseOwnWpa (wraps : Bool) (rsn : OwnRsnparms) (frm : Nat → UInt8) :
    Nat × OwnRsnparms :=
  let len := (frm 1).toNat
  if len < 14 then (wifinetReasonIeInvalid, rsn)
  else if read16l frm 6 ≠ wpaVersion then (wifinetReasonIeInvalid, rsn)
  else
    let (w, keylen) := wpaCipher frm 8 rsn.rsnMcastkeylen
    let rsn := { rsn with rsnMcastkeylen := keylen, rsnMcastcipher := w }
    if w ≠ rsn.rsnMcastcipher then (wifinetReasonIeInvalid, rsn)
    else
      let n := read16l frm 12
      if len - 12 < n * 4 + 2 then (wifinetReasonIeInvalid, rsn)
      else
        let (w, keylen) := wpaSuites wraps (wpaCipher frm) n 14 (0, rsn.rsnUcastkeylen)
        let rsn := { rsn with rsnUcastkeylen := keylen, rsnUcastcipherset := w % 2 ^ 8 }
        if w = 0 then (wifinetReasonIeInvalid, rsn)
        else ownWpaKeymgmts wraps frm (14 + n * 4) (len - 12 - n * 4) rsn

/-- What `_iv_cfg80211_add_set_beacon` leaves in `sta_rsn` for the elements that it finds, whether
it goes on with them or not: the RSN element is read in place, the WPA element counts where there
is no other. -/
def ivCfg80211SetRsn (wraps : Bool) (vif : RsnVif) (wpaie rsnie : Option (Nat → UInt8)) :
    OwnRsnparms :=
  let wparsn := match wpaie with
    | some frm => (wifiMacParseOwnWpa wraps zeroRsnparms frm).2
    | none => zeroRsnparms
  match rsnie with
  | some frm => { zeroRsnparms with
      toRsnparms := (wifiMacParseOwnRsn vif zeroRsnparms.toRsnparms frm).2 }
  | none => { zeroRsnparms with
      rsnMcastcipher := wparsn.rsnMcastcipher
      rsnMcastkeylen := wparsn.rsnMcastkeylen
      rsnUcastcipherset := wparsn.rsnUcastcipherset
      rsnUcastkeylen := wparsn.rsnUcastkeylen
      rsnKeymgmtset := wparsn.rsnKeymgmtset
      rsnCaps := wparsn.rsnCaps }

def addshort (frm : List UInt8) (v : Nat) : List UInt8 :=
  frm ++ [UInt8.ofNat v, UInt8.ofNat (v / 256)]

def addselector (frm sel : List UInt8) : List UInt8 := frm ++ sel

/-- `RSN_OUI_BYTES` and a type -/
def rsnSelector (type : UInt8) : List UInt8 := [0x00, 0x0f, 0xac, type]

/-- `WPA_OUI_BYTES` and a type -/
def wpaSelector (type : UInt8) : List UInt8 := [0x00, 0x50, 0xf2, type]

/-- The selectors behind `selcnt` for those bits of a set that an element can carry, in its order.
The count is the first of two bytes, and goes up with each. -/
def addSelectors (frm : List UInt8) (set : Nat) (suites : List (Nat × List UInt8)) : List UInt8 :=
  let selcnt := frm.length
  suites.foldl (fun frm suite =>
    if set.testBit suite.1 then addselector (frm.modify selcnt (· + 1)) suite.2 else frm)
    (addshort frm 0)

/-- The group cipher: a table has a place for each number, and WEP has a longer key beside it. A
number past the table is none. -/
def addGroup (frm : List UInt8) (rsn : OwnRsnparms) (cipherSuite : List (List UInt8))
    (wep104Suite : List UInt8) : Option (List UInt8) :=
  if rsn.rsnMcastcipher = wifinetCipherWep ∧ 13 ≤ rsn.rsnMcastkeylen then
    some (addselector frm wep104Suite)
  else cipherSuite[rsn.rsnMcastcipher]?.map (addselector frm)

/-- An element in memory, and how far the pointer behind it is from its start. -/
structure BuiltIe where
  bytes : List UInt8
  frm : Nat
  deriving DecidableEq, Repr

/-- The length byte, and the pointer that is returned. -/
def finishIe (frm : List UInt8) : BuiltIe :=
  let ie := frm.set 1 (UInt8.ofNat (frm.length - 2))
  { bytes := ie
    frm := if wifiMacIeWpaSize < (ie.getD 1 0).toNat + 2 then wifiMacIeWpaSize else frm.length }

def wpaCipherSuite : List (List UInt8) :=
  [wpaSelector 0x01, wpaSelector 0x02, [0, 0, 0, 0], wpaSelector 0x04, [0, 0, 0, 0],
    wpaSelector 0x00]

def wpaIeCiphers : List (Nat × List UInt8) :=
  [(wifinetCipherAesCcm, wpaSelector 0x04), (wifinetCipherTkip, wpaSelector 0x02)]

def wpaIeKeymgmts : List (Nat × List UInt8) := [(0x01, wpaSelector 0x01), (0x02, wpaSelector 0x02)]

/-- `wifi_mac_setup_wpa_ie`; there is none where the group cipher is past the table. -/
def wifiMacSetupWpaIe (rsn : OwnRsnparms) : Option BuiltIe :=
  (addGroup (addshort ([wifinetElemidVendor, 0] ++ wpaSelector 0x01) wpaVersion) rsn wpaCipherSuite
      (wpaSelector 0x05)).map fun frm =>
    let frm := addSelectors frm rsn.rsnUcastcipherset wpaIeCiphers
    let frm := addSelectors frm rsn.rsnKeymgmtset wpaIeKeymgmts
    finishIe (if rsn.saValid then frm ++ [rsn.gtksa, rsn.ptksa] else frm)

def rsnCipherSuite : List (List UInt8) :=
  [rsnSelector 0x01, rsnSelector 0x02, rsnSelector 0x03, rsnSelector 0x04, [0, 0, 0, 0],
    rsnSelector 0x00]

def rsnIeCiphers : List (Nat × List UInt8) :=
  [(wifinetCipherAesCcm, rsnSelector 0x04), (wifinetCipherTkip, rsnSelector 0x02)]

def rsnIeKeymgmts : List (Nat × List UInt8) :=
  [(0x01, rsnSelector 0x01), (0x02, rsnSelector 0x02), (0x06, rsnSelector 0x06),
    (0x08, rsnSelector 0x08)]

/-- `wifi_mac_setup_rsn_ie`; there is none where the group cipher is past the table. -/
def wifiMacSetupRsnIe (rsn : OwnRsnparms) : Option BuiltIe :=
  (addGroup (addshort [wifinetElemidRsn, 0] rsnVersion) rsn rsnCipherSuite
      (rsnSelector 0x05)).map fun frm =>
    let frm := addSelectors frm rsn.rsnUcastcipherset rsnIeCiphers
    let frm := addSelectors frm rsn.rsnKeymgmtset rsnIeKeymgmts
    finishIe (addshort frm rsn.rsnCaps)

end W522a.Ap
