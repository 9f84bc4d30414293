import W522a.Ap.Table

/-!
The (re)association request as an access point handles it, from the elements of the frame to the
answer.
-/

namespace W522a.Ap

@[simp] abbrev wifinetRateMaxsize : Nat := 57

@[simp] abbrev wifinetNwidLen : Nat := 32

@[simp] abbrev defaultListenInterval : Nat := 10

@[simp] abbrev wifinetStatusCapinfo : Nat := 10

def wpaSel (type : Nat) : Nat := type * 2 ^ 24 + 0xf25000

/-- `wpa_cipher`, with the key length that it may write. -/
def wpaCipher (frm : Nat → UInt8) (offset keylen : Nat) : Nat × Nat :=
  let w := read32l frm offset
  if w = wpaSel 0x00 then (wifinetCipherNone, keylen)
  else if w = wpaSel 0x01 then (wifinetCipherWep, 5)
  else if w = wpaSel 0x05 then (wifinetCipherWep, 13)
  else if w = wpaSel 0x02 then (wifinetCipherTkip, keylen)
  else if w = wpaSel 0x04 then (wifinetCipherAesCcm, keylen)
  else (unknownCipher, keylen)

def wpaKeymgmt (frm : Nat → UInt8) (offset : Nat) : Nat :=
  let w := read32l frm offset
  if w = wpaSel 0x01 then 0x01 else if w = wpaSel 0x02 then 0x02 else 0

/-- A loop of `wifi_mac_parse_wpa` over `n` suites: the set of them and a key length. -/
def wpaSuites (wraps : Bool) (suite : Nat → Nat → Nat × Nat) : Nat → Nat → Nat × Nat → Nat × Nat
  | 0, _, found => found
  | n + 1, offset, (w, keylen) =>
    let (cipher, keylen) := suite offset keylen
    wpaSuites wraps suite n (offset + ouiLen) (w ||| shiftOne wraps cipher, keylen)

/-- The key managements of `wifi_mac_parse_wpa`, behind the pairwise ciphers. -/
def wpaKeymgmts (wraps : Bool) (frm : Nat → UInt8) (offset len : Nat) (rsn : Rsnparms) :
    Nat × Rsnparms :=
  let n := read16l frm offset
  if len - 2 < n * 4 then (wifinetReasonIeInvalid, rsn)
  else
    let (w, _) :=
      wpaSuites wraps (fun place keylen => (wpaKeymgmt frm place, keylen)) n (offset + 2) (0, 0)
    if w &&& rsn.rsnKeymgmtset = 0 then (wifinetReasonIeInvalid, rsn) else (0, rsn)

/-- `wifi_mac_parse_wpa` for the element of a station, and the reason it returns. -/
def wifiMacParseWpa (wraps : Bool) (rsn : Rsnparms) (frm : Nat → UInt8) : Nat × Rsnparms :=
  let len := (frm 1).toNat
  if len < 14 then (wifinetReasonIeInvalid, rsn)
  else if read16l frm 6 ≠ 1 then (wifinetReasonIeInvalid, rsn)
  else
    let (w, keylen) := wpaCipher frm 8 rsn.rsnMcastkeylen
    let rsn := { rsn with rsnMcastkeylen := keylen }
    if w ≠ rsn.rsnMcastcipher then (wifinetReasonIeInvalid, rsn)
    else
      let n := read16l frm 12
      if len - 12 < n * 4 + 2 then (wifinetReasonIeInvalid, rsn)
      else
        let (w, keylen) := wpaSuites wraps (wpaCipher frm) n 14 (0, rsn.rsnUcastkeylen)
        let w := w &&& rsn.rsnUcastcipherset
        let rsn := { rsn with rsnUcastkeylen := keylen }
        if w = 0 then (wifinetReasonIeInvalid, rsn)
        else
          wpaKeymgmts wraps frm (14 + n * 4) (len - 12 - n * 4)
            { rsn with rsnUcastcipher := chosenUcast w }

/-- The inner loop of `wifi_mac_sort_rate`: the smallest rate comes to the front. -/
def sortRatePass (first : Nat) : List Nat → Nat × List Nat
  | [] => (first, [])
  | rate :: rest =>
    if wifinetGetRateVal rate < wifinetGetRateVal first then
      let (least, rest) := sortRatePass rate rest
      (least, first :: rest)
    else
      let (least, rest) := sortRatePass first rest
      (least, rate :: rest)

def sortRates : Nat → List Nat → List Nat
  | 0, rates => rates
  | _ + 1, [] => []
  | fuel + 1, rate :: rest =>
    let (least, rest) := sortRatePass rate rest
    least :: sortRates fuel rest

def wifiMacSortRate (rates : List Nat) : List Nat := sortRates rates.length rates

def rateOf (rates : List Nat) (rate : Nat) : Bool :=
  rates.any fun other => wifinetGetRateVal rate == wifinetGetRateVal other

theorem rateOf_iff {rates : List Nat} {rate : Nat} : rateOf rates rate = true ↔
    ∃ other ∈ rates, wifinetGetRateVal rate = wifinetGetRateVal other := by
  simp only [rateOf, List.any_eq_true, beq_iff_eq]

def wifiMacXsectRate (first second : List Nat) : List Nat := first.filter (rateOf second)

def wifiMacBrsRateCheck (srs nrs : List Nat) : Bool :=
  srs.all fun rate => !rate.testBit 7 || rateOf nrs rate

def wifiMacFixedRateCheck (fixedRate : Option Nat) (nrs : List Nat) : Bool :=
  match fixedRate with
  | none => true
  | some rate => rateOf nrs rate

/-- What the interface has set when a request comes. `fixedRate` is a fixed legacy rate, `wraps` says
what a shift by 32 does, and `ht40Channel` is `WIFINET_IS_CHAN_11N_HT40`. -/
structure AssocConf where
  connected : Bool
  wpa1 : Bool
  wpa2 : Bool
  wraps : Bool
  mainBssid : Nat
  mainEssid : List UInt8
  vmLegacyRates : List Nat
  wmSupHtRates : List Nat
  fixedRate : Option Nat
  wepTxkey : Bool
  pureN : Bool
  cfg40Msupport : Bool
  ht40Channel : Bool
  jiffies : Nat

/-- The frame: its addresses, whose first byte is the lowest, and what follows the header. -/
structure AssocFrame where
  reassoc : Bool
  addr2 : Nat
  addr3 : Nat
  body : List UInt8

def AssocFrame.byte (frame : AssocFrame) (place offset : Nat) : UInt8 :=
  frame.body.getD (place + offset) 0

/-- The length byte of an element. -/
def AssocFrame.ieLen (frame : AssocFrame) (place : Nat) : Nat := (frame.byte place 1).toNat

def AssocFrame.ieBytes (frame : AssocFrame) (place : Nat) : List UInt8 :=
  (frame.body.drop (place + 2)).take (frame.ieLen place)

/-- Where the elements of the frame are. -/
structure AssocIes where
  ssid : Option Nat
  rates : Option Nat
  xrates : Option Nat
  wpa : Option Nat
  wme : Option Nat
  htcap : Option Nat
  vhtcap : Option Nat
  vhtOptMdNtf : Option Nat

/-- A vendor element, as `iswpaoui` and `iswmeinfo` recognize it. -/
def vendorIe (conf : AssocConf) (frame : AssocFrame) (place : Nat) (ies : AssocIes) : AssocIes :=
  let ie := frame.byte place
  if 3 < frame.ieLen place ∧ read32l ie 2 = wpaSel 0x01 then
    if conf.wpa1 then { ies with wpa := some place } else ies
  else if 5 < frame.ieLen place ∧ read32l ie 2 = wpaSel 0x02 ∧ ie 6 = 0 then
    { ies with wme := some place }
  else ies

/-- The switch over the kind of an element. -/
def noteIe (conf : AssocConf) (frame : AssocFrame) (place : Nat) (ies : AssocIes) : AssocIes :=
  match (frame.byte place 0).toNat with
  | 0 => { ies with ssid := some place }
  | 1 => { ies with rates := some place }
  | 50 => { ies with xrates := some place }
  | 48 => { ies with wpa := some place }
  | 45 => { ies with htcap := some place }
  | 191 => { ies with vhtcap := some place }
  | 199 => { ies with vhtOptMdNtf := some place }
  | 221 => vendorIe conf frame place ies
  | _ => ies

/-- The walk over the elements, and where it ends. -/
def walkIes (conf : AssocConf) (frame : AssocFrame) : Nat → Nat → AssocIes → Nat × AssocIes
  | 0, place, ies => (place, ies)
  | fuel + 1, place, ies =>
    if place + 1 < frame.body.length ∧ place + frame.ieLen place + 1 < frame.body.length then
      walkIes conf frame fuel (place + frame.ieLen place + 2) (noteIe conf frame place ies)
    else (place, ies)

/-- Where the elements start: behind the capabilities, the listen interval and, in a reassociation,
the address of the old access point. -/
def AssocFrame.fixedLen (frame : AssocFrame) : Nat := if frame.reassoc then 10 else 4

def AssocFrame.capinfo (frame : AssocFrame) : Nat := read16l (frame.byte 0) 0

def AssocFrame.listenIntval (frame : AssocFrame) : Nat := read16l (frame.byte 0) 2

/-- The elements of the frame and the end of the walk. -/
def assocIes (conf : AssocConf) (frame : AssocFrame) : Nat × AssocIes :=
  walkIes conf frame frame.body.length frame.fixedLen
    ⟨none, none, none, none, none, none, none, none⟩

/-- An element that is longer than it may be. -/
def tooLong (frame : AssocFrame) (ie : Option Nat) (most : Nat) : Bool :=
  ie.any fun place => decide (most < frame.ieLen place)

/-- The frame is dropped before the station is looked at. -/
def assocMalformed (conf : AssocConf) (frame : AssocFrame) : Bool :=
  let (stop, ies) := assocIes conf frame
  decide (frame.body.length < frame.fixedLen) || frame.addr3 != conf.mainBssid ||
    decide (frame.body.length < stop) || tooLong frame ies.rates wifinetRateMaxsize ||
    tooLong frame ies.xrates wifinetRateMaxsize || tooLong frame ies.ssid wifinetNwidLen ||
    ies.ssid.any fun place =>
      frame.ieLen place != 0 && frame.ieBytes place != conf.mainEssid

/-- The protection of management frames in the parameters: `MFP_MASK`. -/
def mfpCaps (rsn : Rsnparms) : Bool := rsn.rsnCaps &&& 0xc0 != 0

/-- The WPA or RSN element: the reason to refuse, or 0, and what it leaves in the station. -/
def assocSecurity (conf : AssocConf) (frame : AssocFrame) (mainMfp : Bool) (ie : Option Nat)
    (sta : ApSta) : Nat × ApSta :=
  match ie with
  | none => (0, sta)
  | some place =>
    if (frame.byte place 0).toNat ≠ 48 then
      let (reason, rsn) := wifiMacParseWpa conf.wraps sta.staRsn (frame.byte place)
      (reason, { sta with staRsn := rsn })
    else
      let (reason, rsn) :=
        wifiMacParseCounterpartRsn conf.wraps sta.staRsn (frame.byte place) true
      let sta := { sta with
        staRsn := rsn
        nodeMfp := sta.nodeMfp || mainMfp && mfpCaps rsn && rsn.rsnGmcipher != 0 }
      if sta.authSae ∧ mfpCaps rsn = false then (wifinetReasonIeInvalid, sta) else (reason, sta)

/-- The rates of the two elements, as many as a rate set holds. -/
def frameRates (frame : AssocFrame) (ies : AssocIes) : List Nat :=
  let bytes (ie : Option Nat) := (ie.elim [] frame.ieBytes).map UInt8.toNat
  (bytes ies.rates ++ bytes ies.xrates).take wifinetRateMaxsize

/-- `wifi_mac_setup_rates`; its result only makes a message. -/
def wifiMacSetupRates (conf : AssocConf) (mainRates rates : List Nat) : List Nat :=
  let rs := wifiMacXsectRate conf.vmLegacyRates (wifiMacSortRate rates)
  if !wifiMacFixedRateCheck conf.fixedRate rs || !wifiMacBrsRateCheck mainRates rs then rs
  else wifiMacSortRate rs

def assocWme (frame : AssocFrame) (ie : Option Nat) (sta : ApSta) : ApSta :=
  match ie with
  | some place =>
    let sta := { sta with staWmeIe := true }
    if frame.ieLen place ≠ 7 then sta
    else
      { sta with
        nodeUapsd := (frame.byte place 8).toNat &&& 0xf != 0
        nodeQos := true }
  | none => if sta.staWmeIe then { sta with staWmeIe := false, nodeQos := false } else sta

def wifiMacIsHtEnable (conf : AssocConf) (mode : Nat) (sta : ApSta) : Bool :=
  !(sta.staUcastkey.isNone && conf.wepTxkey) &&
    !((conf.wpa1 || conf.wpa2) && sta.staRsn.rsnUcastcipherset == 2 ^ wifinetCipherTkip) &&
    sta.staRsn.rsnUcastcipher != wifinetCipherTkip && wifinetInclude11n mode

/-- `wifi_mac_is_vht_enable`; the modes 8 to 14 are those from `WIFINET_MODE_11AC` to
`WIFINET_MODE_11GNAC`. -/
def wifiMacIsVhtEnable (conf : AssocConf) (mode : Nat) (mainsta : ApSta) : Bool :=
  wifiMacIsHtEnable conf mode mainsta && decide (8 ≤ mode) && decide (mode ≤ 14)

/-- `wifi_mac_parse_htcap`, for an access point. -/
def wifiMacParseHtcap (conf : AssocConf) (vmBandwidth : Nat) (ie : Nat → UInt8) (sta : ApSta) :
    ApSta :=
  let htcapval := read16l ie 2
  let cbw40 := htcapval.testBit 1
  { sta with
    htcapCbw40 := cbw40 && conf.cfg40Msupport
    staChbw :=
      if conf.cfg40Msupport then
        min (if cbw40 then wifinetBwcWidth40 else wifinetBwcWidth20) vmBandwidth
      else wifinetBwcWidth20
    node40Intolerant := sta.node40Intolerant || htcapval.testBit 14 && conf.ht40Channel
    nodeHt := true }

/-- `wifi_mac_setup_ht_rates`, which takes the first seven rates of an element. -/
def wifiMacSetupHtRates (conf : AssocConf) (ie : Option (Nat → UInt8)) : List Nat :=
  wifiMacXsectRate conf.wmSupHtRates <|
    match ie with
    | none => []
    | some ie => (List.range 7).filter fun mcs => (ie 5).toNat.testBit mcs

/-- `wifi_mac_parse_vht_cap`, for an access point. -/
def wifiMacParseVhtCap (vmBandwidth : Nat) (sta : ApSta) : ApSta :=
  { sta with
    staChbw :=
      if vmBandwidth = wifinetBwcWidth20 then wifinetBwcWidth20
      else if vmBandwidth = wifinetBwcWidth40 ∨ vmBandwidth = wifinetBwcWidth80 then
        if sta.htcapCbw40 then vmBandwidth else wifinetBwcWidth20
      else sta.staChbw
    nodeVht := true }

def wifiMacParseVhtOpMdNtf (optMode : UInt8) (sta : ApSta) : ApSta :=
  let bandwidth := optMode.toNat &&& 3
  if bandwidth < 3 then { sta with staChbw := bandwidth } else sta

/-- The HT section of `wifi_mac_recv_assoc_req`, or nothing when it refuses. -/
def assocHt (conf : AssocConf) (ap : ApVif) (frame : AssocFrame) (ies : AssocIes) (sta : ApSta) :
    Option ApSta :=
  if !wifiMacIsHtEnable conf ap.vmMacMode sta then some sta
  else
    match ies.htcap with
    | some place =>
      let sta := wifiMacParseHtcap conf ap.vmBandwidth (frame.byte place) sta
      some { sta with staHtrates := wifiMacSetupHtRates conf (some (frame.byte place)) }
    | none =>
      if conf.pureN then none
      else
        some { sta with
          nodeHt := false
          htcapCbw40 := false
          staHtrates := wifiMacSetupHtRates conf none }

def assocVht (conf : AssocConf) (ap : ApVif) (mainsta : ApSta) (frame : AssocFrame)
    (ies : AssocIes) (sta : ApSta) : ApSta :=
  if !wifiMacIsVhtEnable conf ap.vmMacMode mainsta then sta
  else
    let sta := if ies.vhtcap.isSome then wifiMacParseVhtCap ap.vmBandwidth sta else sta
    match ies.vhtOptMdNtf with
    | some place => wifiMacParseVhtOpMdNtf (frame.byte place 2) sta
    | none => sta

/-- What the handler decides on a station: it is refused with a reason or a status, or it has what the
frame says. -/
inductive AssocVerdict where
  | refused (status : Nat) (sta : ApSta)
  | accepted (sta : ApSta)
  deriving DecidableEq

/-- What the handler writes of the fixed fields and the WME element. -/
def assocFields (conf : AssocConf) (frame : AssocFrame) (ies : AssocIes) (sta : ApSta) : ApSta :=
  assocWme frame ies.wme { sta with
    staRstamp := conf.jiffies
    staListenIntval := min frame.listenIntval defaultListenInterval
    staCapinfo := frame.capinfo }

/-- The part of `wifi_mac_recv_assoc_req` from the rates on. -/
def assocCapabilities (conf : AssocConf) (ap : ApVif) (mainsta : ApSta) (frame : AssocFrame)
    (ies : AssocIes) (sta : ApSta) : AssocVerdict :=
  let sta := { sta with
    staRates := wifiMacSetupRates conf mainsta.staRates (frameRates frame ies) }
  if sta.staAssocid ≠ 0 ∧ wifinetInclude11g ap.vmMacMode = true ∧
      shortSlottime sta.staCapinfo ≠ shortSlottime frame.capinfo then
    .refused wifinetStatusCapinfo sta
  else
    match assocHt conf ap frame ies (assocFields conf frame ies sta) with
    | none => .refused wifinetStatusCapinfo (assocFields conf frame ies sta)
    | some sta => .accepted (assocVht conf ap mainsta frame ies sta)

/-- The part of `wifi_mac_recv_assoc_req` that reads and writes the station. -/
def assocStation (conf : AssocConf) (ap : ApVif) (mainsta : ApSta) (frame : AssocFrame)
    (sta : ApSta) : AssocVerdict :=
  let ies := (assocIes conf frame).2
  let (reason, sta) := assocSecurity conf frame mainsta.nodeMfp ies.wpa sta
  if reason ≠ 0 then .refused reason sta
  else if frame.capinfo.testBit 0 = false then .refused wifinetStatusCapinfo sta
  else assocCapabilities conf ap mainsta frame ies sta

def wifinetIsMulticast (macaddr : Nat) : Bool := macaddr.testBit 0

/-- `wifi_mac_find_tx_sta` of an access point. -/
def wifiMacFindTxSta (ap : ApVif) (macaddr : Nat) : Option ApSta :=
  if wifinetIsMulticast macaddr then
    if 0 < ap.vmStaAssoc then ap.vmMainsta.bind ap.getSta else none
  else ap.getSta macaddr

/-- The sender is marked as one that associates again. -/
def markReassoc (ap : ApVif) (macaddr : Nat) : ApVif :=
  match wifiMacFindTxSta ap macaddr with
  | none => ap
  | some sta => ap.put { sta with nodeReassoc := true }

/-- The station of the request: that of the sender, or a new one when none is known. The main station
itself is not authenticated. -/
def assocTarget (ap : ApVif) (macaddr : Nat) : ApVif × Option ApSta :=
  if ap.vmMainsta = some macaddr then (ap, none)
  else
    match ap.getSta macaddr with
    | some sta => (ap, some sta)
    | none =>
      match wifiMacBupBss ap macaddr with
      | (ap, none) => (ap, none)
      | (ap, some sta) =>
        let sta := { sta with staInactReload := wifinetInactRun }
        (ap.put sta, some sta)

/-- The station of a request that is not dropped, and what `wifi_mac_recv_assoc_req` decides on it. -/
def assocVerdict (conf : AssocConf) (ap : ApVif) (frame : AssocFrame) :
    Option (ApSta × AssocVerdict) :=
  if !conf.connected then none
  else
    let ap := markReassoc ap frame.addr2
    match ap.vmMainsta.bind ap.getSta with
    | none => none
    | some mainsta =>
      if assocMalformed conf frame then none
      else
        match assocTarget ap frame.addr2 with
        | (_, none) => none
        | (ap, some sta) => some (sta, assocStation conf ap mainsta frame sta)

def wifiMacRecvAssocReq (conf : AssocConf) (ap : ApVif) (frame : AssocFrame) (env : JoinEnv) :
    ApVif × AssocAnswer :=
  if !conf.connected then (ap, .dropped)
  else
    let ap := markReassoc ap frame.addr2
    match ap.vmMainsta.bind ap.getSta with
    | none => (ap, .dropped)
    | some mainsta =>
      if assocMalformed conf frame then (ap, .dropped)
      else
        match assocTarget ap frame.addr2 with
        | (ap, none) => (ap, .dropped)
        | (ap, some sta) =>
          match assocStation conf ap mainsta frame sta with
          | .refused status sta => (wifiMacStaDisconnectFromAp ap sta env.leave, .refused status)
          | .accepted sta =>
            let ap := ap.put sta
            if sta.staAssocid ≠ 0 then (ap, .accepted)
            else wifiMacStaConnect ap sta env

end W522a.Ap
