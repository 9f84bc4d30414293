import W522a.Ie.Consumers

/-!
The receivers of the frames whose elements are walked over: the beacon, the probe response and the
association response.
-/

namespace W522a.Ie

open Memory (Traced Safe forSome onlyIf)

section Receive

variable (env : RecvEnv) (frame : MgmtFrame)

/-- The part of `wifi_mac_recv_beacon` for the station's own BSS. -/
def stationBeacon (scan : ScanParam) : Reader Unit := do
  let _ ← onlyIf (env.qosNode ∧ env.connected) do
    forSome (scan.ie .wme) (wifiMacParseWmeparams frame env.capInfoCount)
  let _ ← forSome (scan.ie .quiet) (wifiMacSetQuiet frame env.vmBcnIntval)
  let _ ← onlyIf env.htNode do
    let _ ← forSome (scan.ie .htcap) (wifiMacParseHtcap frame)
    forSome (scan.ie .htinfo) (wifiMacParseHtinfo frame)
  let _ ← onlyIf env.vhtNode (vhtIeParseAll frame env.turns scan)
  let _ ← forSome (scan.ie .doth) (wifiMacParseDothparams frame)
  let _ ← onlyIf (env.sleeping = false ∧ env.ps4quiet = false) do
    forSome (scan.ie .tim) (timBits frame env.staAssocid)
  let _ ← onlyIf (env.connected ∧ env.mainsta) do
    forSome (scan.ie .tim) (timPeriod frame)
  pure ()

/-- The width and the centre that `wifi_mac_add_neighbor` takes. It does not check whether there is
an HT information element. -/
def neighborWidth (scan : ScanParam) : Reader (Nat × Int) := do
  let info ← frame.lookVia (scan.ie .htinfo) 3
  let vht ← forSome (scan.ie .vhtOpt) fun frm => do
    let chwidth ← frame.look frm 2
    onlyIf (chwidth.toNat = 1) (frame.look frm 3)
  match vht with
  | some (some seg1) => pure (bwcWidth80, seg1.toNat)
  | _ => pure (extWidth info.toNat scan.chan)

/-- What `wifi_mac_add_neighbor` records of a station. It does not check whether there is an ssid. -/
def recordNeighbor (scan : ScanParam) : Reader Unit := do
  let len ← frame.lookVia (scan.ie .ssid) 1
  let _ ← forSome (scan.ie .ssid) fun ssid => frame.lookBytes ssid 2 len.toNat
  saveAll frame scan [.wme, .wpa, .rsn, .wps]
  let _ ← wifiMacSetupRates frame scan
  pure ()

def wifiMacAddNeighbor (scan : ScanParam) : Reader Unit := do
  let width ← neighborWidth frame scan
  if env.joinChan scan.chan width.1 width.2 then recordNeighbor frame scan else pure ()

/-- What `wifi_mac_recv_beacon` does with the elements that it has accepted. -/
def useElements (scan : ScanParam) : Reader Unit := do
  let _ ← onlyIf env.scanning do
    let _ ← forSome (scan.ie .ssid) (wifiMacUpdateRoamingCandidateChan env frame scan)
    onlyIf (env.entries = []) (wifiMacScanRx env frame false scan)
  if env.scanning ∧ env.entries ≠ [] then pure ()
  else if env.opmode = .sta ∧ env.staAssocid ≠ 0 ∧ env.fromBss then stationBeacon env frame scan
  else
    let _ ← onlyIf (env.opmode = .ibss ∧ scan.capinfo / 2 % 2 = 1 ∧ env.fromSta = false) do
      wifiMacAddNeighbor env frame scan
    pure ()

/-- The loop of `wifi_mac_recv_probersp` over the scan entries of the sender: nothing when the
interface is connected to one with the ssid, else whether there is one. -/
def oldEntry (ssid : Nat) : List (List UInt8) → Bool → Reader (Option Bool)
  | [], old => pure (some old)
  | entry :: rest, old => do
    let len ← frame.look ssid 1
    if entry.getD 1 0 = len then
      let element ← frame.lookBytes ssid 0 (len.toNat + 2)
      if element = entry.take (len.toNat + 2) then
        if env.connected then pure none else oldEntry ssid rest true
      else oldEntry ssid rest old
    else oldEntry ssid rest old

/-- What `wifi_mac_recv_probersp` does with the elements that it has accepted. -/
def useResponse (scan : ScanParam) : Reader Unit := do
  let _ ← forSome (scan.ie .ssid) (wifiMacUpdateRoamingCandidateChan env frame scan)
  let found ← forSome (scan.ie .ssid) fun ssid => oldEntry env frame ssid env.entries false
  match found with
  | none => wifiMacScanRx env frame false scan
  | some none => pure ()
  | some (some old) => wifiMacScanRx env frame old scan

def verifyElement (pointer : Option Nat) (maxlen : Nat) : Reader Bool := do
  let len ← forSome pointer fun frm => frame.look frm 1
  pure (len.all fun len => len.toNat ≤ maxlen)

/-- The channel of a frame: the one that is named, or that of the VHT operation element, or that of
the reception. -/
def beaconChan (scan : ScanParam) : Reader Nat :=
  if scan.chan = 0 then
    match scan.ie .vhtOpt with
    | some frm => do
      let chan ← frame.look frm 3
      pure chan.toNat
    | none => pure (env.channel.getD 0 % 256)
  else pure scan.chan

/-- The elements of a complete beacon or probe response, if none of them is too long. -/
def acceptElements (use : ScanParam → Reader Unit) (scan : ScanParam) : Reader Unit := do
  let chan ← beaconChan env frame scan
  let scan := { scan with chan := chan }
  if 165 < chan then pure ()
  else if ← verifyElement frame (scan.ie .rates) 57 then
    if ← verifyElement frame (scan.ie .xrates) 57 then
      if ← verifyElement frame (scan.ie .ssid) 32 then use scan else pure ()
    else pure ()
  else pure ()

/-- A beacon that `wifi_mac_recv_beacon` looks at. -/
def RecvEnv.Heeds : Prop :=
  env.scanning = true ∨ (env.opmode = .hostap ∧ env.protNone = false) ∨
    (env.opmode = .sta ∧ env.staAssocid ≠ 0) ∨ env.opmode = .ibss

instance : Decidable env.Heeds := inferInstanceAs (Decidable (_ ∨ _))

/-- The walk over a beacon or a probe response, and what follows when the frame is complete. -/
def recvElements (cfgMacMode : Nat) (use : ScanParam → Reader Unit) : Reader Unit := do
  let (invalid, scan) ← wifiMacPktParseElement cfgMacMode frame
  if invalid then pure () else acceptElements env frame use scan

def wifiMacRecvBeacon (cfgMacMode : Nat) : Reader Unit := do
  let _ ← onlyIf env.Heeds (recvElements env frame cfgMacMode (useElements env frame))
  pure ()

def wifiMacRecvProbersp (cfgMacMode : Nat) : Reader Unit := do
  let _ ← onlyIf env.scanning (recvElements env frame cfgMacMode (useResponse env frame))
  pure ()

/-- What `wifi_mac_recv_assoc_rsp` does with the elements once the rates suit the station. -/
def assocElements (scan : ScanParam) : Reader Unit := do
  let _ ← forSome (scan.ie .wme) (wifiMacParseWmeparams frame env.capInfoCount)
  let _ ← onlyIf env.htEnabled do
    forSome (scan.ie .htcap) fun htcap => forSome (scan.ie .htinfo) fun htinfo => do
      let _ ← wifiMacParseHtcap frame htcap
      let _ ← wifiMacParseHtinfo frame htinfo
      let htrates ← wifiMacSetupHtRates frame htcap
      wifiMacSetupBasicHtRates frame htrates htinfo
  let _ ← forSome (scan.ie .vhtCap) fun vhtCap => do
    let _ ← wifiMacParseVhtCap frame vhtCap
    let _ ← forSome (scan.ie .vhtOpt) (wifiMacParseVhtOpt frame)
    forSome (scan.ie .vhtOptMdNtf) fun frm => do
      let len ← frame.look frm 1
      onlyIf (1 ≤ len.toNat) (wifiMacParseVhtOpMdNtf frame frm)
  pure ()

/-- The part of `wifi_mac_recv_assoc_rsp` behind the walk, which may have given up. -/
def acceptResponse (scan : ScanParam) : Reader Unit := do
  if scan.statusCode ≠ 0 then pure ()
  else if ← verifyElement frame (scan.ie .rates) 57 then
    if ← verifyElement frame (scan.ie .xrates) 57 then
      let _ ← wifiMacSetupRates frame scan
      if env.ratesMatch then assocElements env frame scan else pure ()
    else pure ()
  else pure ()

def wifiMacRecvAssocRsp (cfgMacMode : Nat) : Reader Unit := do
  let _ ← onlyIf (env.opmode = .sta ∧ env.associating) do
    let (_, scan) ← wifiMacPktParseElement cfgMacMode frame
    acceptResponse env frame scan
  pure ()

/-- `WIFINET_FC0_SUBTYPE_MASK` -/
def MgmtFrame.subtype : Nat := (frame.byte 0).toNat &&& 0xf0

/-- The frames that `wifi_mac_recv_mgmt` gives to a receiver that walks over the elements. -/
def wifiMacRecvMgmt (cfgMacMode : Nat) : Reader Unit :=
  match frame.subtype with
  | 0x80 => wifiMacRecvBeacon env frame cfgMacMode
  | 0x50 => wifiMacRecvProbersp env frame cfgMacMode
  | 0x10 => wifiMacRecvAssocRsp env frame cfgMacMode
  | 0x30 => wifiMacRecvAssocRsp env frame cfgMacMode
  | _ => pure ()

end Receive

end W522a.Ie
