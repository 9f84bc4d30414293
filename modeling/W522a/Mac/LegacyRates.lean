import W522a.Ap.AssocReq
import W522a.Lib.Traced

/-!
The negotiation of the legacy rates with a peer, and the basic rates that a station takes from a
scan entry each time it connects.
-/

namespace W522a.Mac

open Memory (Access InBounds Traced touch)
open W522a.Ap (wifinetGetRateVal wifinetRateMaxsize wifiMacSortRate wifiMacXsectRate
  wifiMacFixedRateCheck wifiMacBrsRateCheck)

/-- `WIFINET_HT_RATE_SIZE`, which is the size of every rate set -/
@[simp] abbrev wifinetHtRateSize : Nat := 77

def elementBytes (element : Nat → UInt8) : List Nat :=
  (List.range (element 1).toNat).map fun index => (element (index + 2)).toNat

def copyRates (set : Nat → Nat) (start : Nat) (element : Nat → UInt8) (count : Nat) :
    Traced Access (Nat → Nat) := do
  touch start count
  pure fun index =>
    if start ≤ index ∧ index < start + count then (element (index - start + 2)).toNat
    else set index

def firstRates : Option (Nat → UInt8) → Traced Access (Nat × (Nat → Nat))
  | none => pure (0, fun _ => 0)
  | some element => do
    let set ← copyRates (fun _ => 0) 0 element (element 1).toNat
    pure ((element 1).toNat, set)

/-- How many bytes of the second element are taken, in an `unsigned char`. -/
def roomFor (num nxrates : Nat) : Nat :=
  if wifinetRateMaxsize < num + nxrates then (wifinetRateMaxsize + 256 - num) % 256 else nxrates

/-- The rates of the two elements come into one set. -/
def gatherRates (rates xrates : Option (Nat → UInt8)) : Traced Access (List Nat) := do
  let (num, set) ← firstRates rates
  match xrates with
  | none => pure ((List.range num).map set)
  | some element => do
    let nxrates := roomFor num (element 1).toNat
    let set ← copyRates set num element nxrates
    pure ((List.range ((num + nxrates) % 256)).map set)

/-- What a negotiation starts from: the rates of the interface, which are not repeated, the rates of
the main station, whose basic ones are those of the BSS, a fixed rate, and the elements of the peer.
`frate` and `brs` are the flags of the checks. -/
structure RateRequest where
  vmLegacyRates : List Nat
  mainRates : List Nat
  fixedRate : Option Nat
  rates : Option (Nat → UInt8)
  xrates : Option (Nat → UInt8)
  frate : Bool
  brs : Bool
  ownFits : vmLegacyRates.length ≤ wifinetHtRateSize
  distinct : (vmLegacyRates.map wifinetGetRateVal).Nodup

/-- `wifi_mac_setup_rates` with its flags: the rate set of the station, and the result. -/
def wifiMacSetupRates (request : RateRequest) (sort xsect : Bool) :
    Traced Access (List Nat × Bool) := do
  let rrs ← gatherRates request.rates request.xrates
  touch 0 rrs.length
  let rrs := if sort then wifiMacSortRate rrs else rrs
  let rs := if xsect then wifiMacXsectRate request.vmLegacyRates rrs else rrs
  touch 0 rs.length
  if request.frate && !wifiMacFixedRateCheck request.fixedRate rs then pure (rs, false)
  else if request.brs && !wifiMacBrsRateCheck request.mainRates rs then pure (rs, false)
  else pure (if sort then wifiMacSortRate rs else rs, true)

/-- The rate arrays of a scan entry. -/
structure ScanRates where
  siRates : Nat → UInt8
  siExrates : Nat → UInt8

structure BasicRates where
  wm11bRates : List Nat
  wm11gRates : List Nat
  deriving DecidableEq

def plainRates : BasicRates where
  wm11bRates := [0x02, 0x04, 0x0b, 0x16]
  wm11gRates := [0x0c, 0x12, 0x18, 0x24, 0x30, 0x48, 0x60, 0x6c]

def defaultRates : BasicRates where
  wm11bRates := [0x82, 0x84, 0x0b, 0x16]
  wm11gRates := [0x8c, 0x12, 0x98, 0x24, 0xb0, 0x48, 0x60, 0x6c]

/-- The loops of `wifi_mac_check_ap_basic_rate`. -/
def checkBasic (rates basic apRates : List Nat) : List Nat :=
  List.zipWith (fun rate basic => if basic ∈ apRates then basic else rate) rates basic

/-- `wifi_mac_check_ap_basic_rate` for `WIFINET_MODE_11B` -/
def check11b (apRates : List Nat) : List Nat :=
  checkBasic plainRates.wm11bRates [0x82, 0x84, 0x8b, 0x96] apRates

/-- `wifi_mac_check_ap_basic_rate` for `WIFINET_MODE_11G` -/
def check11g (apRates : List Nat) : List Nat :=
  checkBasic plainRates.wm11gRates [0x8c, 0x92, 0x98, 0xa4, 0xb0, 0xc8, 0xe0, 0xec] apRates

/-- The modes `wifi_mac_sta_set_basic_rates` tells apart. -/
inductive RateMode where
  | b
  | g
  | bg
  | other
  deriving DecidableEq

def rateMode (vmMacMode : Nat) : RateMode :=
  if vmMacMode = 1 then .b
  else if vmMacMode = 2 ∨ vmMacMode = 6 ∨ vmMacMode = 14 then .g
  else if vmMacMode = 3 ∨ vmMacMode = 7 then .bg
  else .other

def appendRates (entry : ScanRates) : Traced Access ScanRates := do
  let length := (entry.siExrates 1).toNat
  let more := (entry.siRates 1).toNat
  touch (2 + length) more
  pure { entry with
    siExrates := fun index =>
      if index = 1 then UInt8.ofNat (length + more)
      else if 2 + length ≤ index ∧ index < 2 + length + more then
        entry.siRates (index - (2 + length) + 2)
      else entry.siExrates index }

/-- `wifi_mac_sta_set_basic_rates`; `sta` is `WIFINET_M_STA`. -/
def wifiMacStaSetBasicRates (sta : Bool) (vmMacMode : Nat) (entry : ScanRates) :
    Traced Access (ScanRates × BasicRates) := do
  if !sta then pure (entry, plainRates)
  else
    match rateMode vmMacMode with
    | .b =>
      if entry.siRates 1 ≠ 0 then do
        touch 2 (entry.siRates 1).toNat
        pure (entry, { plainRates with wm11bRates := check11b (elementBytes entry.siRates) })
      else pure (entry, { plainRates with wm11bRates := defaultRates.wm11bRates })
    | .g =>
      if entry.siExrates 1 = 0 then
        if entry.siRates 1 ≠ 0 then do
          touch 2 (entry.siRates 1).toNat
          pure (entry, { plainRates with wm11gRates := check11g (elementBytes entry.siRates) })
        else pure (entry, { plainRates with wm11gRates := defaultRates.wm11gRates })
      else do
        let entry ← if entry.siRates 1 ≠ 0 then appendRates entry else pure entry
        touch 2 (entry.siExrates 1).toNat
        pure (entry, { plainRates with wm11gRates := check11g (elementBytes entry.siExrates) })
    | .bg =>
      if entry.siRates 1 ≠ 0 ∨ entry.siExrates 1 ≠ 0 then do
        let entry ← if entry.siRates 1 ≠ 0 then appendRates entry else pure entry
        touch 2 (entry.siExrates 1).toNat
        pure (entry,
          { wm11bRates := check11b (elementBytes entry.siExrates)
            wm11gRates := check11g (elementBytes entry.siExrates) })
      else pure (entry, defaultRates)
    | .other => pure (entry, plainRates)

def attempts (sta : Bool) (vmMacMode : Nat) : Nat → ScanRates → Traced Access (List BasicRates)
  | 0, _ => pure []
  | count + 1, entry => do
    let (entry, basic) ← wifiMacStaSetBasicRates sta vmMacMode entry
    let rest ← attempts sta vmMacMode count entry
    pure (basic :: rest)

end W522a.Mac
