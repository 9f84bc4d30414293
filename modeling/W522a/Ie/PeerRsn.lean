import W522a.Ap.OwnIe
import W522a.Ap.RsnLaw
import W522a.Lib.Traced

/-!
The two parsers of a peer's security element, RSN and WPA, with everything they do on the way: the
bytes they read, what they take off the remaining length, which has eight bits, and the counts of
suites they go by.
-/

namespace W522a.Ie

open Ap (OwnRsnparms Rsnparms SuiteLoop read16l rsnCipher rsnKeymgmt rsnVersion wpaCipher
  wpaKeymgmt wpaVersion shiftOne ouiLen wpaPmkidLen ieHdrLen unknownCipher wifinetReasonIeInvalid)
open Memory (Access Traced emit Safe)

inductive ParseEvent where
  | read (access : Access)
  /-- `len -= count`, with `left` in the counter. -/
  | spend (left count : Nat)
  /-- A loop over `count` suites starts where `present` of them are in the element. -/
  | apply (count present : Nat)
  deriving DecidableEq, Repr

/-- Inside an element that ends at `stop`, without a counter below zero or a count that is larger
than what is there. -/
def ParseEvent.Allowed (stop : Nat) : ParseEvent → Prop
  | read access => access.Inside 0 stop
  | spend left count => count ≤ left
  | apply count present => count ≤ present

abbrev Parse : Type → Type := Traced ParseEvent

def look (start count : Nat) : Parse Unit := emit (.read ⟨start, count⟩)

/-- `len -= count` -/
def spend (len count : Nat) : Parse Nat := do
  emit (.spend len count)
  pure ((len + 256 - count) % 256)

/-- A loop over suites, which may end early on a set. -/
def suiteTurns (wraps : Bool) (suite : Nat → Nat → Nat × Nat) (bad : Option Nat) :
    Nat → SuiteLoop → Parse (Bool × SuiteLoop)
  | 0, state => pure (true, state)
  | n + 1, state => do
    look state.frm ouiLen
    let found := suite state.frm state.keylen
    let state := { state with w := state.w ||| shiftOne wraps found.1, keylen := found.2 }
    if bad = some state.w then
      -- the message names the suite again
      look state.frm ouiLen
      pure (false, state)
    else
      let len ← spend state.len ouiLen
      suiteTurns wraps suite bad n { state with frm := state.frm + ouiLen, len := len }

/-- The loop with the count it goes by; `stop` is the end of the element. -/
def suites (wraps : Bool) (suite : Nat → Nat → Nat × Nat) (bad : Option Nat) (stop n : Nat)
    (state : SuiteLoop) : Parse (Bool × SuiteLoop) := do
  emit (.apply n ((stop - state.frm) / ouiLen))
  suiteTurns wraps suite bad n state

/-- Where a parser stands behind the suites, and what it has recorded. -/
structure Cursor where
  offset : Nat
  len : Nat
  rsn : Rsnparms

/-- The capabilities of `wifi_mac_parse_counterpart_rsn`, if there is room for them. -/
def parseCaps (frm : Nat → UInt8) (total : Nat) (state : Cursor) : Parse Cursor :=
  if 2 ≤ state.len then do
    look state.offset 2
    let rsn := { state.rsn with
      rsnCaps := read16l frm state.offset
      rsnCapsOffset := (total + 256 - state.len + 2) % 256 }
    let len ← spend state.len 2
    pure ⟨state.offset + 2, len, rsn⟩
  else pure state

def parsePmkidCount (frm : Nat → UInt8) (state : Cursor) : Parse Cursor :=
  if 2 ≤ state.len then do
    look state.offset 2
    let rsn := { state.rsn with rsnPmkidCount := read16l frm state.offset % 256 }
    let len ← spend state.len 2
    pure ⟨state.offset + 2, len, rsn⟩
  else pure { state with rsn := { state.rsn with rsnPmkidCount := 0 } }

/-- The loop over `left` more PMKIDs; the first one is copied. -/
def pmkidLoop (frm : Nat → UInt8) : Nat → Nat → Cursor → Parse Cursor
  | 0, _, state => pure state
  | left + 1, n, state => do
    let rsn ← if n = 0 then do
        look state.offset wpaPmkidLen
        pure { state.rsn with
          rsnPmkid := (List.range wpaPmkidLen).map fun place => frm (state.offset + place) }
      else pure state.rsn
    let len ← spend state.len wpaPmkidLen
    pmkidLoop frm left (n + 1) ⟨state.offset + wpaPmkidLen, len, rsn⟩

/-- The group management cipher, if there is room for it. -/
def parseGmcipher (frm : Nat → UInt8) (state : Cursor) : Parse Rsnparms :=
  if ouiLen ≤ state.len then do
    look state.offset ouiLen
    let _ ← spend state.len ouiLen
    pure { state.rsn with rsnGmcipher := rsnKeymgmt frm state.offset }
  else pure { state.rsn with rsnGmcipher := 0 }

def parsePmkids (frm : Nat → UInt8) (state : Cursor) : Parse (Nat × Rsnparms) :=
  if state.rsn.rsnPmkidCount ≠ 0 then
    if state.rsn.rsnPmkidCount * wpaPmkidLen ≤ state.len then do
      let state ← pmkidLoop frm state.rsn.rsnPmkidCount 0 state
      let rsn ← parseGmcipher frm state
      pure (0, rsn)
    else pure (wifinetReasonIeInvalid, state.rsn)
  else do
    let rsn ← parseGmcipher frm
      { state with rsn := { state.rsn with rsnPmkidCount := 0, rsnPmkidOffset := 0 } }
    pure (0, rsn)

/-- The rest of `wifi_mac_parse_counterpart_rsn`, from the capabilities on. -/
def parseRest (frm : Nat → UInt8) (isJudge : Bool) (total : Nat) (state : Cursor) :
    Parse (Nat × Rsnparms) :=
  if state.len < 2 ∧ isJudge = false then pure (wifinetReasonIeInvalid, state.rsn)
  else do
    let state ← parseCaps frm total state
    let state ← parsePmkidCount frm state
    parsePmkids frm state

/-- What `wifi_mac_parse_counterpart_rsn` makes of the set of key managements. -/
def keymgmtFound (frm : Nat → UInt8) (isJudge : Bool) (total : Nat) (rsn : Rsnparms)
    (found : Bool × SuiteLoop) : Parse (Nat × Rsnparms) :=
  if !found.1 then pure (wifinetReasonIeInvalid, rsn)
  else if isJudge ∧ found.2.w &&& rsn.rsnKeymgmtset = 0 then pure (wifinetReasonIeInvalid, rsn)
  else parseRest frm isJudge total ⟨found.2.frm, found.2.len, rsn⟩

/-- The key managements of `wifi_mac_parse_counterpart_rsn`, and what follows them. -/
def parseKeymgmt (wraps : Bool) (frm : Nat → UInt8) (isJudge : Bool) (total : Nat)
    (state : Cursor) : Parse (Nat × Rsnparms) := do
  look state.offset 2
  let n := read16l frm state.offset
  let offset := state.offset + 2
  let len ← spend state.len 2
  if (n = 0 ∨ len < n * ouiLen) ∧ isJudge then pure (wifinetReasonIeInvalid, state.rsn)
  else
    let found ← suites wraps (fun offset keylen => (rsnKeymgmt frm offset, keylen)) (some 1)
      (total + ieHdrLen) n ⟨offset, len, 0, 0⟩
    keymgmtFound frm isJudge total state.rsn found

/-- What `wifi_mac_parse_counterpart_rsn` makes of the set of pairwise ciphers. -/
def ucastFound (wraps : Bool) (frm : Nat → UInt8) (isJudge : Bool) (total : Nat)
    (rsn : Rsnparms) (found : Bool × SuiteLoop) : Parse (Nat × Rsnparms) :=
  let rsn := { rsn with rsnUcastkeylen := found.2.keylen }
  if !found.1 then pure (wifinetReasonIeInvalid, rsn)
  else if isJudge ∧ found.2.w &&& rsn.rsnUcastcipherset = 0 then
    pure (wifinetReasonIeInvalid, rsn)
  else parseKeymgmt wraps frm isJudge total ⟨found.2.frm, found.2.len, rsn⟩

/-- The pairwise ciphers of `wifi_mac_parse_counterpart_rsn`, and what follows them. -/
def parseUcast (wraps : Bool) (frm : Nat → UInt8) (isJudge : Bool) (total : Nat)
    (state : Cursor) : Parse (Nat × Rsnparms) := do
  look state.offset 2
  let n := read16l frm state.offset
  let offset := state.offset + 2
  let len ← spend state.len 2
  if (n = 0 ∨ len < n * ouiLen + 2) ∧ isJudge then pure (wifinetReasonIeInvalid, state.rsn)
  else
    let found ← suites wraps (rsnCipher frm) (some 32) (total + ieHdrLen) n
      ⟨offset, len, 0, state.rsn.rsnUcastkeylen⟩
    ucastFound wraps frm isJudge total state.rsn found

def wifiMacParseCounterpartRsn (wraps : Bool) (rsn : Rsnparms) (frm : Nat → UInt8)
    (isJudge : Bool) : Parse (Nat × Rsnparms) := do
  look 1 1
  let total := (frm 1).toNat
  if total < 10 then pure (wifinetReasonIeInvalid, rsn)
  else
    look 2 2
    if read16l frm 2 ≠ rsnVersion then pure (wifinetReasonIeInvalid, rsn)
    else
      let len ← spend total 2
      look 4 ouiLen
      let cipher := rsnCipher frm 4 rsn.rsnMcastkeylen
      let rsn := { rsn with rsnMcastkeylen := cipher.2 }
      if cipher.1 = unknownCipher then
        look 4 ouiLen
        pure (wifinetReasonIeInvalid, rsn)
      else
        let len ← spend len ouiLen
        if isJudge ∧ cipher.1 ≠ rsn.rsnMcastcipher then pure (wifinetReasonIeInvalid, rsn)
        else parseUcast wraps frm isJudge total ⟨8, len, rsn⟩

/-- The group cipher of `wifi_mac_parse_wpa` with the length of its key. -/
def recordMcast (own : Nat) (cipher : Nat × Nat) (rsn : OwnRsnparms) : OwnRsnparms :=
  { rsn with
    rsnMcastkeylen := cipher.2
    rsnMcastcipher := if own = 1 then cipher.1 else rsn.rsnMcastcipher }

/-- The set of key managements of `wifi_mac_parse_wpa`: what is common to both sides, and what the
interface's own element records. -/
def recordKeymgmt (own w : Nat) (rsn : OwnRsnparms) : Nat × OwnRsnparms :=
  if own = 1 then (w, { rsn with rsnKeymgmtset := w % 2 ^ 16 })
  else (w &&& rsn.rsnKeymgmtset, rsn)

/-- The set of pairwise ciphers, likewise. -/
def recordUcast (own w : Nat) (rsn : OwnRsnparms) : Nat × OwnRsnparms :=
  if own = 1 then (w, { rsn with rsnUcastcipherset := w % 2 ^ 8 })
  else (w &&& rsn.rsnUcastcipherset, rsn)

/-- The pairwise cipher that is used with a peer. -/
def chooseUcast (own w : Nat) (rsn : OwnRsnparms) : OwnRsnparms :=
  if own = 0 then { rsn with rsnUcastcipher := Ap.chosenUcast w } else rsn

/-- What `wifi_mac_parse_wpa` makes of the key managements, and the rest of it. -/
def wpaKeymgmtFound (frm : Nat → UInt8) (own : Nat) (rsn : OwnRsnparms) (state : SuiteLoop) :
    Parse (Nat × OwnRsnparms) :=
  let found := recordKeymgmt own state.w rsn
  if found.1 = 0 then pure (wifinetReasonIeInvalid, found.2)
  else if 2 ≤ state.len then do
    look state.frm 1
    look (state.frm + 1) 1
    pure (0, { found.2 with
      saValid := true
      gtksa := frm state.frm
      ptksa := frm (state.frm + 1) })
  else pure (0, found.2)

/-- The key managements of `wifi_mac_parse_wpa`. -/
def parseWpaKeymgmts (wraps : Bool) (frm : Nat → UInt8) (own total : Nat) (rsn : OwnRsnparms)
    (state : SuiteLoop) : Parse (Nat × OwnRsnparms) := do
  look state.frm 2
  let n := read16l frm state.frm
  let len ← spend state.len 2
  if len < n * ouiLen then pure (wifinetReasonIeInvalid, rsn)
  else
    let found ← suites wraps (fun offset keylen => (wpaKeymgmt frm offset, keylen)) none
      (total + ieHdrLen) n ⟨state.frm + 2, len, 0, 0⟩
    wpaKeymgmtFound frm own rsn found.2

/-- What `wifi_mac_parse_wpa` makes of the pairwise ciphers. -/
def wpaUcastFound (wraps : Bool) (frm : Nat → UInt8) (own total : Nat) (rsn : OwnRsnparms)
    (state : SuiteLoop) : Parse (Nat × OwnRsnparms) :=
  let found := recordUcast own state.w { rsn with rsnUcastkeylen := state.keylen }
  if found.1 = 0 then pure (wifinetReasonIeInvalid, found.2)
  else parseWpaKeymgmts wraps frm own total (chooseUcast own found.1 found.2) state

/-- The pairwise ciphers of `wifi_mac_parse_wpa`, and what follows them. -/
def parseWpaUcast (wraps : Bool) (frm : Nat → UInt8) (own total len : Nat) (rsn : OwnRsnparms) :
    Parse (Nat × OwnRsnparms) := do
  look 12 2
  let n := read16l frm 12
  let len ← spend len 2
  if len < n * ouiLen + 2 then pure (wifinetReasonIeInvalid, rsn)
  else
    let found ← suites wraps (wpaCipher frm) none (total + ieHdrLen) n
      ⟨14, len, 0, rsn.rsnUcastkeylen⟩
    wpaUcastFound wraps frm own total rsn found.2

def wifiMacParseWpa (wraps : Bool) (rsn : OwnRsnparms) (frm : Nat → UInt8) (own : Nat) :
    Parse (Nat × OwnRsnparms) := do
  look 1 1
  let total := (frm 1).toNat
  if total < 14 then pure (wifinetReasonIeInvalid, rsn)
  else
    let len ← spend total 4
    look 6 2
    if read16l frm 6 ≠ wpaVersion then pure (wifinetReasonIeInvalid, rsn)
    else
      let len ← spend len 2
      look 8 ouiLen
      let cipher := wpaCipher frm 8 rsn.rsnMcastkeylen
      let rsn := recordMcast own cipher rsn
      if cipher.1 ≠ rsn.rsnMcastcipher then pure (wifinetReasonIeInvalid, rsn)
      else
        let len ← spend len ouiLen
        parseWpaUcast wraps frm own total len rsn

end W522a.Ie
