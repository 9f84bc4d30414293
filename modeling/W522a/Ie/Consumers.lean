import W522a.Ie.ChSwitch
import W522a.Ie.RsnReads
import W522a.Ie.Walk

/-!
The consumers of the pointers that the walk over a frame has stored, each with all that it reads of
the element. What the station or the scan table makes of the values is left out.
-/

namespace W522a.Ie

open Ap (clearedRsn)
open Memory (Traced Safe forSome onlyIf)

/-- The modes of an interface that the reception of a management frame tells apart. -/
inductive RecvOpmode where
  | ibss
  | sta
  | hostap
  | other
  deriving DecidableEq, Repr

/-- What the reception of a management frame depends on besides the frame. -/
structure RecvEnv where
  opmode : RecvOpmode
  /-- `WIFINET_F_SCAN` -/
  scanning : Bool
  /-- `wm_protmode` is `WIFINET_PROT_NONE`. -/
  protNone : Bool
  /-- `vm_state` is `WIFINET_S_CONNECTED`, or `WIFINET_S_ASSOC`. -/
  connected : Bool
  associating : Bool
  staAssocid : Nat
  /-- The sender is the station's own BSS, or the station itself. -/
  fromBss : Bool
  fromSta : Bool
  /-- `WIFINET_NODE_QOS`, `WIFINET_NODE_HT` and `WIFINET_NODE_VHT`. -/
  qosNode : Bool
  htNode : Bool
  vhtNode : Bool
  /-- `wifi_mac_is_ht_enable` -/
  htEnabled : Bool
  /-- The station is `vm_mainsta`. -/
  mainsta : Bool
  sleeping : Bool
  ps4quiet : Bool
  capInfoCount : Nat
  vmBcnIntval : Nat
  /-- The channel of the reception, if there is a `wm_curchan`. -/
  channel : Option Nat
  /-- Whether `wifi_mac_find_chan` finds a channel of this number, width and centre. -/
  findChan : Nat → Nat → Int → Bool
  /-- Whether the interface can be set to such a channel for another IBSS, with a new station. -/
  joinChan : Nat → Nat → Int → Bool
  /-- The rates of an association response suit the station. -/
  ratesMatch : Bool
  /-- `SCANSTATE_F_DISCARD` -/
  discard : Bool
  /-- The ssid elements of the scan entries with the sender's address. -/
  entries : List (List UInt8)
  /-- The allocation of a scan entry succeeds. -/
  allocated : Bool
  /-- What the scan entry holds behind a copy, and whether its ssid has no length. -/
  stale : Nat → UInt8
  ssidCleared : Bool
  /-- `ss_ssid` has a length, `roaming_ssid` and the ssids that are looked for. -/
  ssidGiven : Bool
  roamingSsid : List UInt8
  ssSsid : List (List UInt8)
  /-- What a shift by 32 makes of a one. -/
  wraps : Bool
  /-- The turns that the loop over the sub-elements of a wrapper is followed for. -/
  turns : Nat

/-- `WIFINET_BWC_WIDTH20` and the widths after it. -/
abbrev bwcWidth20 : Nat := 0
abbrev bwcWidth40 : Nat := 1
abbrev bwcWidth80 : Nat := 2
abbrev bwcWidth160 : Nat := 3
abbrev bwcWidth80P80 : Nat := 4

/-- The parameters of one access category. -/
structure WmeParams where
  wmepAcm : Nat
  wmepAifsn : Nat
  wmepLogcwmin : Nat
  wmepLogcwmax : Nat
  wmepTxopLimit : Nat
  deriving DecidableEq, Repr

section Consumers

variable (frame : MgmtFrame)

/-- The loop of `wifi_mac_parse_wmeparams` over the access categories that are left. -/
def acParams (frm : Nat) : Nat → Nat → Reader (List WmeParams)
  | 0, _ => pure []
  | left + 1, place => do
    let aci ← frame.look frm place
    let ecw ← frame.look frm (place + 1)
    let txop ← frame.look16 frm (place + 2)
    let rest ← acParams frm left (place + 4)
    pure (⟨aci.toNat / 16 % 2, aci.toNat % 16, ecw.toNat % 16, ecw.toNat / 16, txop⟩ :: rest)

/-- `wifi_mac_parse_wmeparams`: nothing of an element that is too short, and the parameters when
their count is another than before. -/
def wifiMacParseWmeparams (capInfoCount frm : Nat) : Reader (Option (UInt8 × List WmeParams)) := do
  let len ← frame.look frm 1
  if len.toNat < 24 then pure none
  else
    let qosinfo ← frame.look frm 8
    if qosinfo.toNat % 16 = capInfoCount then pure (some (qosinfo, []))
    else
      let params ← acParams frame frm 4 10
      pure (some (qosinfo, params))

/-- `wifi_mac_set_quiet`: the period, which is passed on as the duration too, and the offset. -/
def wifiMacSetQuiet (vmBcnIntval frm : Nat) : Reader (Nat × Nat) := do
  let period ← frame.look frm 3
  let offset ← frame.look frm 5
  let tbttcount ← frame.look frm 2
  pure (period.toNat, offset.toNat + tbttcount.toNat * vmBcnIntval)

/-- `wifi_mac_parse_htcap`: the capabilities, the two fields of the aggregates and the extended
capabilities. -/
def wifiMacParseHtcap (frm : Nat) : Reader (Nat × Nat × Nat × Nat) := do
  let cap ← frame.look16 frm 2
  let ampdu ← frame.look frm 4
  let extcap ← frame.look16 frm 21
  pure (cap, ampdu.toNat % 4, ampdu.toNat / 4 % 8, extcap)

/-- `wifi_mac_parse_htinfo`: the offset of the second channel, and the width. -/
def wifiMacParseHtinfo (frm : Nat) : Reader (Nat × Nat) := do
  let info ← frame.look frm 3
  pure (info.toNat % 4, info.toNat / 4 % 2)

/-- A parser of a VHT element, which looks at its kind first. -/
def ofKind {Value : Type} (elemId : UInt8) (frm : Nat) (program : Reader Value) :
    Reader (Option Value) := do
  let found ← frame.look frm 0
  onlyIf (found = elemId) program

/-- `wifi_mac_parse_vht_cap`: the capabilities, and the rates of both directions. -/
def wifiMacParseVhtCap (frm : Nat) : Reader (Option (Nat × Nat × Nat × Nat × Nat)) :=
  ofKind frame 191 frm do
    let info ← frame.look32 frm 2
    let txMcsMap ← frame.look16 frm 10
    let txHighDataRate ← frame.look16 frm 12
    let rxMcsMap ← frame.look16 frm 6
    let rxHighDataRate ← frame.look16 frm 8
    pure (info, txMcsMap, txHighDataRate, rxMcsMap, rxHighDataRate)

/-- `wifi_mac_parse_vht_opt`: the width, and the basic set. -/
def wifiMacParseVhtOpt (frm : Nat) : Reader (Option (UInt8 × Nat)) :=
  ofKind frame 192 frm do
    let chwidth ← frame.look frm 2
    let basic ← frame.look16 frm 5
    pure (chwidth, basic)

/-- `wifi_mac_parse_vht_txpw`: the count, the unit, and a power for each width. -/
def wifiMacParseVhtTxpw (frm : Nat) :
    Reader (Option (Nat × Nat × UInt8 × UInt8 × UInt8 × UInt8)) :=
  ofKind frame 195 frm do
    let info ← frame.look frm 2
    let power20 ← frame.look frm 3
    let power40 ← frame.look frm 4
    let power80 ← frame.look frm 5
    let power80P80 ← frame.look frm 6
    pure (info.toNat % 8, info.toNat / 8 % 8, power20, power40, power80, power80P80)

/-- `wifi_mac_parse_vht_ch_sw_wrp`, whose reads are reads of the element. -/
def parseVhtChSwWrp (turns frm : Nat) : Reader (Option ChSwSubIe) :=
  (wifiMacParseVhtChSwWrp (frame.view frm) turns clearedSubIe).relabel
    fun access => some (.ie frm access.start access.count)

def wifiMacParseVhtExtBssLd (frm : Nat) :
    Reader (Option (Nat × UInt8 × UInt8 × UInt8 × UInt8)) :=
  ofKind frame 193 frm do
    let muMimoStaCnt ← frame.look16 frm 2
    let ssUlt ← frame.look frm 4
    let obsScnd20mhz ← frame.look frm 5
    let obsScnd40mhz ← frame.look frm 6
    let obsScnd80mhz ← frame.look frm 7
    pure (muMimoStaCnt, ssUlt, obsScnd20mhz, obsScnd40mhz, obsScnd80mhz)

def wifiMacParseVhtQuietCh (frm : Nat) : Reader (Option (UInt8 × UInt8 × UInt8 × Nat × Nat)) :=
  ofKind frame 198 frm do
    let apQuietMd ← frame.look frm 2
    let quietCnt ← frame.look frm 3
    let quietPrd ← frame.look frm 4
    let quietDrt ← frame.look16 frm 5
    let quietOffset ← frame.look16 frm 7
    pure (apQuietMd, quietCnt, quietPrd, quietDrt, quietOffset)

/-- `wifi_mac_parse_vht_op_md_ntf`, with the byte that its caller reads: the mode, and the width
that it says. -/
def wifiMacParseVhtOpMdNtf (frm : Nat) : Reader (UInt8 × Nat) := do
  let optMode ← frame.look frm 2
  pure (optMode, optMode.toNat % 4)

/-- The calls of `wifi_mac_vht_ie_parse_all`. -/
def vhtIeParseAll (turns : Nat) (scan : ScanParam) : Reader Unit := do
  let _ ← forSome (scan.ie .vhtCap) (wifiMacParseVhtCap frame)
  let _ ← forSome (scan.ie .vhtOpt) (wifiMacParseVhtOpt frame)
  let _ ← forSome (scan.ie .vhtTxPwr) (wifiMacParseVhtTxpw frame)
  let _ ← forSome (scan.ie .vhtChSw) (parseVhtChSwWrp frame turns)
  let _ ← forSome (scan.ie .vhtExtBssLd) (wifiMacParseVhtExtBssLd frame)
  let _ ← forSome (scan.ie .vhtQuietCh) (wifiMacParseVhtQuietCh frame)
  let _ ← forSome (scan.ie .vhtOptMdNtf) (wifiMacParseVhtOpMdNtf frame)
  pure ()

/-- `wifi_mac_parse_dothparams`: the mode, the channel and the count of a channel switch. -/
def wifiMacParseDothparams (frm : Nat) : Reader (Option (UInt8 × UInt8 × UInt8)) := do
  let len ← frame.look frm 1
  if len.toNat < 4 - 2 then pure none
  else
    let mode ← frame.look frm 2
    let chan ← frame.look frm 3
    let csaCnt ← frame.look frm 4
    pure (some (mode, chan, csaCnt))

/-- The part of `wifi_mac_recv_beacon` that looks for the station in the map of the TIM: whether
there is group traffic, and whether the station's bit is set. -/
def timBits (staAssocid frm : Nat) : Reader (Bool × Bool) := do
  let bitctl ← frame.look frm 4
  let len ← frame.look frm 1
  let aid := staAssocid &&& (65535 - 0xc000)
  let ix := aid / 8
  let min := bitctl.toNat - bitctl.toNat % 2
  let dtim := bitctl.toNat % 2 = 1
  if min ≤ ix ∧ ix + 4 ≤ len.toNat + min then
    let byte ← frame.look frm (5 + ix - min)
    pure (dtim, byte.toNat.testBit (aid % 8))
  else pure (dtim, false)

def timPeriod (frm : Nat) : Reader UInt8 := frame.look frm 3

/-- `saveie`, with the copy. -/
def saveie (frm : Nat) : Reader (List UInt8) := do
  let len ← frame.look frm 1
  frame.lookBytes frm 0 (len.toNat + 2)

def copyRates (frm : Nat) : Reader (UInt8 × List UInt8) := do
  let len ← frame.look frm 1
  let id ← frame.look frm 0
  let rates ← frame.lookBytes frm 2 (min len.toNat 57)
  pure (id, rates)

end Consumers

section Rates

variable (frame : MgmtFrame)

/-- What `wifi_mac_setup_rates` copies of the two elements. -/
def wifiMacSetupRates (scan : ScanParam) : Reader (List UInt8) := do
  let rates ← forSome (scan.ie .rates) fun frm => do
    let len ← frame.look frm 1
    frame.lookBytes frm 2 len.toNat
  let count := (rates.getD []).length
  let xrates ← forSome (scan.ie .xrates) fun frm => do
    let len ← frame.look frm 1
    let nxrates := if 57 < count + len.toNat then 57 - count else len.toNat
    frame.lookBytes frm 2 nxrates
  pure (rates.getD [] ++ xrates.getD [])

/-- `wifi_mac_setup_ht_rates`: the rates of the first stream, of the bytes that the loop reads. -/
def wifiMacSetupHtRates (frm : Nat) : Reader (List Nat) := do
  let mcsset ← frame.lookBytes frm 5 10
  pure ((List.range 7).filter fun rate => (mcsset.headD 0).toNat.testBit rate)

/-- `wifi_mac_setup_basic_ht_rates`: the rates with whether they are basic. -/
def wifiMacSetupBasicHtRates (htrates : List Nat) (frm : Nat) : Reader (List (Nat × Bool)) :=
  if htrates = [] then pure []
  else do
    let basic ← frame.lookBytes frm 8 10
    pure (htrates.map fun rate => (rate, (basic.getD (rate / 8) 0).toNat.testBit (rate % 8)))

end Rates

section Scan

variable (env : RecvEnv) (frame : MgmtFrame)

/-- The width and the centre that the offset of an HT information element says. -/
def extWidth (info chan : Nat) : Nat × Int :=
  match info % 4 with
  | 1 => (bwcWidth40, chan + 2)
  | 3 => (bwcWidth40, chan - 2)
  | _ => (bwcWidth20, chan)

/-- The width and the centre that the HT elements say. -/
def htWidth (scan : ScanParam) : Reader (Nat × Int) := do
  let htcapval ← forSome (scan.ie .htcap) fun frm => frame.look16 frm 2
  match scan.ie .htinfo with
  | none => pure (bwcWidth20, scan.chan)
  | some frm =>
    let info ← frame.look frm 3
    if info.toNat / 4 % 2 = 1 then
      let ctrl ← frame.look frm 2
      let width := extWidth info.toNat ctrl.toNat
      if width.1 = bwcWidth40 ∧ htcapval.any fun cap => cap / 2 % 2 = 0 then
        pure (bwcWidth20, scan.chan)
      else pure width
    else pure (bwcWidth20, scan.chan)

/-- The width and the centre that a VHT operation element says. -/
def vhtWidth (frm : Nat) (ht : Nat × Int) : Reader (Nat × Int) := do
  let chwidth ← frame.look frm 2
  if 1 ≤ chwidth.toNat then
    let seg1 ← frame.look frm 3
    let bw :=
      match chwidth.toNat with
      | 2 => bwcWidth160
      | 3 => bwcWidth80P80
      | _ => bwcWidth80
    pure (bw, seg1.toNat)
  else pure ht

/-- `wifi_mac_scan_sta_get_ap_channel`, and whether it finds a channel. -/
def wifiMacScanStaGetApChannel (scan : ScanParam) : Reader Bool := do
  let ht ← htWidth frame scan
  let vht ← forSome (scan.ie .vhtOpt) fun frm => vhtWidth frame frm ht
  let (bw, center) := vht.getD ht
  if env.findChan scan.chan bw center then pure true
  else
    let width ← forSome (scan.ie .htinfo) fun frm => frame.look frm 3
    if width.any (fun info => info.toNat / 4 % 2 = 1) ∧ bw = bwcWidth40 then
      pure (env.findChan scan.chan bwcWidth20 scan.chan)
    else pure false

/-- `wifi_mac_update_roaming_candidate_chan`, and whether the channel becomes a candidate. -/
def wifiMacUpdateRoamingCandidateChan (scan : ScanParam) (ssid : Nat) : Reader Bool := do
  let nssid ← frame.look ssid 1
  if ← wifiMacScanStaGetApChannel env frame scan then
    let first ← frame.look ssid 2
    if first ≠ 0 ∧ env.ssidGiven ∧ nssid ≠ 0 then
      let name ← frame.lookBytes ssid 2 nssid.toNat
      pure (name == env.roamingSsid.take nssid.toNat)
    else pure false
  else pure false

/-- What `saveie` leaves in a buffer: the element, and what was there behind it. -/
def savedIe (stale : Nat → UInt8) (frm : Nat) : Nat → UInt8 :=
  fun offset => if offset < frame.ieLen frm + 2 then frame.byte (frm + offset) else stale offset

/-- The parse of a saved RSN element by `wifi_mac_scan_rx`, which does not judge it. -/
def savedRsn (wraps : Bool) (stale : Nat → UInt8) (frm : Nat) : Parse (Nat × Ap.Rsnparms) :=
  wifiMacParseCounterpartRsn wraps clearedRsn (savedIe frame stale frm) false

/-- The RSN element of a scan entry: the error of its parse, whose reads are of the element. -/
def scanRsn (frm : Nat) : Reader Nat := do
  let _ ← saveie frame frm
  let parsed ← (savedRsn frame env.wraps env.stale frm).relabel fun event =>
    match event with
    | .read access => some (.ie frm access.start access.count)
    | .spend _ _ => none
    | .apply _ _ => none
  pure parsed.1

/-- The copy of an ssid to a scan entry, which only a probe response writes over. -/
def saveSsid (ssid : Nat) : Reader (Option (List UInt8)) := do
  let len ← frame.look ssid 1
  onlyIf (len ≠ 0 ∧ ((frame.byte 0).toNat &&& 0xfc = 0x50 ∨ env.ssidCleared)) do
    frame.lookBytes ssid 0 (2 + len.toNat)

/-- Whether the ssid is one of those that are looked for. -/
def ssidWanted (ssid : Nat) : List (List UInt8) → Reader Bool
  | [] => pure false
  | wanted :: rest => do
    let len ← frame.look ssid 1
    if 0 < len.toNat ∧ len.toNat ≤ 32 ∧ wanted.length = len.toNat then
      let name ← frame.lookBytes ssid 2 len.toNat
      if name = wanted then pure true else ssidWanted ssid rest
    else ssidWanted ssid rest

/-- The pointers that `wifi_mac_scan_rx` saves whole elements of, behind the rates. -/
def savedFields : List IeField :=
  [.wme, .htcap, .htinfo, .country, .wpa, .wps, .extCap, .vhtCap, .vhtOpt, .vhtTxPwr, .vhtChSw,
    .vhtExtBssLd, .vhtQuietCh, .vhtOptMdNtf]

def saveAll (scan : ScanParam) : List IeField → Reader Unit
  | [] => pure ()
  | field :: rest => do
    let _ ← forSome (scan.ie field) (saveie frame)
    saveAll scan rest

/-- `wifi_mac_scan_rx` with an allocated entry, behind its RSN element. -/
def scanEntry (scan : ScanParam) : Reader Unit := do
  saveAll frame scan [.rsnxe, .country, .bssLoad]
  let _ ← forSome (scan.ie .ssid) (saveSsid env frame)
  let _ ← forSome (scan.ie .rates) (copyRates frame)
  let _ ← forSome (scan.ie .xrates) (copyRates frame)
  let _ ← forSome (scan.ie .tim) (timPeriod frame)
  saveAll frame scan savedFields
  let _ ← forSome (scan.ie .ssid) fun ssid => ssidWanted frame ssid env.ssSsid
  pure ()

/-- `wifi_mac_scan_rx`, with a scan entry that is there already or a new one. -/
def wifiMacScanRx (old : Bool) (scan : ScanParam) : Reader Unit := do
  if env.discard then pure ()
  else if ← wifiMacScanStaGetApChannel env frame scan then
    if old ∨ env.allocated then
      let err ← forSome (scan.ie .rsn) (scanRsn env frame)
      if err.any (· ≠ 0) then pure () else scanEntry env frame scan
    else pure ()
  else pure ()

end Scan

end W522a.Ie
