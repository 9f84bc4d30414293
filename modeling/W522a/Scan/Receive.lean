import W522a.Ie.Consumers
import W522a.Lib.Chained
import W522a.Scan.Info

/-!
A beacon or a probe response on its way to the scan table: every byte that is written to the arrays
of its entry, and how the entry is linked. An array is written from its start by the length that an
element gives itself. What a write beyond the end of an array does to the fields behind it is left
out.
-/

namespace W522a.Scan

open Ap (clearedRsn wifiMacParseCounterpartRsn)
open Chained (Table)
open Ie (MgmtFrame ScanParam IeField)
open Memory (Traced emit)

/-- Bytes that are written to an array of the entry. -/
structure InfoWrite where
  field : InfoField
  start : Nat
  count : Nat
  deriving DecidableEq, Repr

def InfoWrite.Within (access : InfoWrite) : Prop := access.start + access.count ≤ access.field.size

instance : DecidablePred InfoWrite.Within := fun _ => inferInstanceAs (Decidable (_ ≤ _))

abbrev Writer : Type → Type := Traced InfoWrite

/-- What the reception depends on besides the frame and the table. -/
structure ScanRxEnv where
  /-- `SCANSTATE_F_DISCARD` -/
  discard : Bool
  /-- `WIFINET_SCANCFG_CONNECT` -/
  connect : Bool
  /-- `wifi_mac_find_chan`, of a number, a width and a centre. -/
  findChan : Nat → Nat → Int → Option WifiChannel
  /-- What `NET_MALLOC` returns. -/
  allocated : Option Nat
  rssi : Int
  jiffies : Nat
  hz : Nat
  ssSsid : List (List UInt8)
  /-- What a shift by 32 makes of a one. -/
  wraps : Bool

@[simp] abbrev wifinetConnectCntAge : Nat := 120

@[simp] abbrev staHashsize : Nat := 32

def staHash (addr : List UInt8) : Fin staHashsize :=
  ⟨(addr.getD 5 0).toNat % staHashsize, Nat.mod_lt _ (by decide)⟩

/-- The scan table and the entries in memory, which are known by the number under which they were
allocated. -/
structure ScaninfoTable where
  links : Table Nat (Fin staHashsize)
  entry : Nat → Option ScaninfoEntry
  /-- `SCANSTATE_F_GET_CONNECT_AP` -/
  getConnectAp : Bool

def clearedEntry (chan : WifiChannel) : ScaninfoEntry where
  scaninfo :=
    { siMacaddr := List.replicate 6 0, siBssid := List.replicate 6 0, array := fun _ _ => 0
      siTstamp := List.replicate 8 0, siIntval := 0, siCapinfo := 0, siChan := chan, siTimoff := 0
      siErp := 0, siRssi := 0, siDtimperiod := 0, siRsnCapa := 0, siFrameLen := 0 }
  connectcnt := 0
  seValid := false
  seAvgrssi := 0
  lastUpdateTime := 0
  connectTime := 0

def iAddr2 (frame : MgmtFrame) : List UInt8 :=
  (List.range 6).map fun place => frame.byte (10 + place)

def iAddr3 (frame : MgmtFrame) : List UInt8 :=
  (List.range 6).map fun place => frame.byte (16 + place)

def wifinetIsProbersp (frame : MgmtFrame) : Bool := (frame.byte 0).toNat &&& 0xfc == 0x50

/-- The entry with bytes of an array written. -/
def WifiScanInfo.put (info : WifiScanInfo) (access : InfoWrite) (bytes : Nat → UInt8) :
    WifiScanInfo :=
  { info with
    array := Function.update info.array access.field fun place =>
      if access.start ≤ place ∧ place < access.start + access.count then
        bytes (place - access.start)
      else info.array access.field place }

def write (access : InfoWrite) (bytes : Nat → UInt8) (info : WifiScanInfo) :
    Writer WifiScanInfo := do
  emit access
  pure (info.put access bytes)

section Save

variable (frame : MgmtFrame) (scan : ScanParam)

def saveie (field : InfoField) (ie : Option Nat) (info : WifiScanInfo) : Writer WifiScanInfo :=
  match ie with
  | none => write ⟨field, 1, 1⟩ (fun _ => 0) info
  | some frm => write ⟨field, 0, frame.ieLen frm + 2⟩ (frame.view frm) info

/-- `saveie` of an element that is there. -/
def saveieSome (field : InfoField) (ie : Option Nat) (info : WifiScanInfo) : Writer WifiScanInfo :=
  match ie with
  | none => pure info
  | some frm => saveie frame field (some frm) info

/-- Save elements one after another, each to its array. -/
def saveEach (save : InfoField → Option Nat → WifiScanInfo → Writer WifiScanInfo) :
    List (InfoField × IeField) → WifiScanInfo → Writer WifiScanInfo
  | [], info => pure info
  | (field, ie) :: rest, info => do
    let info ← save field (scan.ie ie) info
    saveEach save rest info

/-- The elements that are saved before the address, when they are there. -/
def earlyIes : List (InfoField × IeField) :=
  [(.siRsnxIe, .rsnxe), (.siCountryIe, .country), (.siBssLoadIe, .bssLoad)]

/-- The elements that are saved behind the fixed fields, or said to be absent. -/
def plainIes : List (InfoField × IeField) :=
  [(.siWmeIe, .wme), (.siHtcapIe, .htcap), (.siHtinfoIe, .htinfo), (.siCountryIe, .country),
    (.siWpaIe, .wpa)]

/-- The elements that are saved to arrays of the size of their structure. -/
def structIes : List (InfoField × IeField) :=
  [(.ieExtCap, .extCap), (.ieVhtCap, .vhtCap), (.ieVhtOpt, .vhtOpt), (.ieVhtTxPwr, .vhtTxPwr),
    (.ieVhtChSw, .vhtChSw), (.ieVhtExtBssLd, .vhtExtBssLd), (.ieVhtQuietCh, .vhtQuietCh),
    (.ieVhtOptMdNtf, .vhtOptMdNtf)]

def copiesSsid (frm : Nat) (info : WifiScanInfo) : Bool :=
  frame.ieLen frm != 0 && (wifinetIsProbersp frame || info.array .siSsid 1 == 0)

def saveSsid (ie : Option Nat) (info : WifiScanInfo) : Writer WifiScanInfo :=
  match ie with
  | none => pure info
  | some frm =>
    if copiesSsid frame frm info then
      write ⟨.siSsid, 0, 2 + frame.ieLen frm⟩ (frame.view frm) info
    else pure info

/-- The copy of rates, which is cut to the array. -/
def saveRates (field : InfoField) (frm : Nat) (info : WifiScanInfo) : Writer WifiScanInfo := do
  let ratesLen := min (frame.ieLen frm) wifinetRateMaxsize
  let info ← write ⟨field, 0, 1⟩ (fun _ => frame.byte frm) info
  let info ← write ⟨field, 1, 1⟩ (fun _ => UInt8.ofNat ratesLen) info
  write ⟨field, 2, ratesLen⟩ (frame.view (frm + 2)) info

def saveBothRates (info : WifiScanInfo) : Writer WifiScanInfo := do
  let info ←
    match scan.ie .rates with
    | some frm => saveRates frame .siRates frm info
    | none => pure info
  match scan.ie .xrates with
  | some frm => saveRates frame .siExrates frm info
  | none => write ⟨.siExrates, 1, 1⟩ (fun _ => 0) info

end Save

section Receive

variable (env : ScanRxEnv) (frame : MgmtFrame) (scan : ScanParam)

def apChannel : Option WifiChannel :=
  let ht := (Ie.htWidth frame scan).value
  let vht := (scan.ie .vhtOpt).map fun frm => (Ie.vhtWidth frame frm ht).value
  let (bw, center) := vht.getD ht
  match env.findChan scan.chan bw center with
  | some chan => some chan
  | none =>
    let wide := (scan.ie .htinfo).any fun frm => (frame.byte (frm + 3)).toNat / 4 % 2 == 1
    if wide && bw == Ie.bwcWidth40 then env.findChan scan.chan Ie.bwcWidth20 scan.chan else none

def signed32 (value : Nat) : Int := if value < 2 ^ 31 then value else (value : Int) - 2 ^ 32

/-- The average of the signal strength, in 32 bits without a sign. -/
def averageRssi (se : ScaninfoEntry) : Nat :=
  if se.lastUpdateTime = 0 then (env.rssi % 2 ^ 32).toNat
  else (((se.seAvgrssi : Int) + env.rssi * 3) % 2 ^ 32).toNat >>> 2

/-- The fields that are not elements. -/
def fixedInfo (chan : WifiChannel) (avgrssi : Nat) (info : WifiScanInfo) : WifiScanInfo :=
  { info with
    siBssid := iAddr3 frame
    siRssi := signed32 avgrssi
    siTstamp := scan.tstamp.elim info.siTstamp fun place =>
      (List.range 8).map fun offset => frame.byte (place + offset)
    siIntval := scan.bintval
    siCapinfo := scan.capinfo
    siChan := chan
    siErp := scan.erp
    siTimoff := scan.timoff
    siDtimperiod := (scan.ie .tim).elim info.siDtimperiod fun frm => frame.byte (frm + 3) }

/-- The failed connects are forgotten after a time. -/
def ageConnects (se : ScaninfoEntry) : ScaninfoEntry :=
  if se.connectcnt ≠ 0 ∧
      wifinetConnectCntAge * env.hz < (env.jiffies + 2 ^ 64 - se.connectTime) % 2 ^ 64 then
    { se with connectcnt := 0 }
  else se

/-- The entry of `wifi_mac_scan_rx` behind its RSN element. -/
def updateEntry (chan : WifiChannel) (se : ScaninfoEntry) : Writer ScaninfoEntry := do
  let info ← saveEach scan (saveieSome frame) earlyIes se.scaninfo
  let info ← saveSsid frame (scan.ie .ssid) { info with siMacaddr := iAddr2 frame }
  let info ← saveBothRates frame scan info
  let avgrssi := averageRssi env se
  let info ← saveEach scan (saveie frame) plainIes (fixedInfo frame scan chan avgrssi info)
  let info ← saveieSome frame .siWpsIe (scan.ie .wps) info
  let info ← saveEach scan (saveie frame) structIes info
  pure { ageConnects env se with
    scaninfo := info, seAvgrssi := avgrssi, lastUpdateTime := env.jiffies, seValid := true }

/-- The RSN element of the entry, and the reason why it is refused. -/
def saveRsn (info : WifiScanInfo) : Writer (Nat × WifiScanInfo) :=
  match scan.ie .rsn with
  | none => pure (0, info)
  | some frm => do
    let info ← saveie frame .siRsnIe (some frm) info
    let (err, rsn) := wifiMacParseCounterpartRsn env.wraps clearedRsn (info.array .siRsnIe) false
    pure (err, if err = 0 then { info with siRsnCapa := rsn.rsnCaps } else info)

def ScaninfoTable.set (table : ScaninfoTable) (id : Nat) (se : Option ScaninfoEntry) :
    ScaninfoTable :=
  { table with entry := Function.update table.entry id se }

/-- The exit of `wifi_mac_scan_rx` for an entry whose RSN element is refused. -/
def failEntry (old : Bool) (id : Nat) (table : ScaninfoTable) : ScaninfoTable :=
  { table.set id none with links := if old then Chained.unlink id table.links else table.links }

/-- The other exit, which links an entry that is new. -/
def keepEntry (old : Bool) (id : Nat) (se : ScaninfoEntry) (table : ScaninfoTable) :
    ScaninfoTable :=
  let found := (scan.ie .ssid).any fun frm => (Ie.ssidWanted frame frm env.ssSsid).value
  { table.set id (some se) with
    links := if old then table.links else Chained.link id (staHash (iAddr2 frame)) table.links
    getConnectAp := table.getConnectAp || env.connect && found }

/-- `wifi_mac_scan_rx` with an entry, which is an old one or has just been allocated. -/
def receiveEntry (chan : WifiChannel) (old : Bool) (id : Nat) (se : ScaninfoEntry)
    (table : ScaninfoTable) : Writer ScaninfoTable := do
  let (err, info) ← saveRsn env frame scan { se.scaninfo with siFrameLen := scan.frameLen }
  if err ≠ 0 then pure (failEntry old id table)
  else
    let se ← updateEntry env frame scan chan { se with scaninfo := info }
    pure (keepEntry env frame scan old id se table)

/-- The entry that `wifi_mac_scan_rx` writes to: whether it is an old one, and its number. -/
def chosenEntry (oldse : Option Nat) : Option (Bool × Nat) :=
  match oldse with
  | some id => some (true, id)
  | none => env.allocated.map fun id => (false, id)

/-- What the entry holds before it is written to. -/
def startEntry (chan : WifiChannel) (old : Bool) (id : Nat) (table : ScaninfoTable) :
    ScaninfoEntry :=
  if old then (table.entry id).getD (clearedEntry chan) else clearedEntry chan

def wifiMacScanRx (oldse : Option Nat) (table : ScaninfoTable) : Writer ScaninfoTable :=
  if env.discard then pure table
  else
    match apChannel env frame scan with
    | none => pure table
    | some chan =>
      match chosenEntry env oldse with
      | none => pure table
      | some (old, id) =>
        receiveEntry env frame scan chan old id (startEntry chan old id table) table

end Receive

section Callers

variable (frame : MgmtFrame) (scan : ScanParam) (table : ScaninfoTable)

def senderEntries : List (Nat × ScaninfoEntry) :=
  ((table.links.chain (staHash (iAddr2 frame))).filterMap fun id =>
    (table.entry id).map fun se => (id, se)).filter
    fun listed => listed.2.scaninfo.siMacaddr == iAddr2 frame

def sameSsid (frm : Nat) (se : ScaninfoEntry) : Bool :=
  (List.range ((se.scaninfo.array .siSsid 1).toNat + 2)).all fun place =>
    se.scaninfo.array .siSsid place == frame.byte (frm + place)

/-- What `wifi_mac_recv_beacon` does with the table while there is a scan. -/
def beaconToTable (env : ScanRxEnv) : Writer ScaninfoTable :=
  if (senderEntries frame table).isEmpty then wifiMacScanRx env frame scan none table
  else pure table

/-- What `wifi_mac_recv_probersp` does with the table: the last of the sender's entries with the
ssid is written to, unless the interface is connected. -/
def responseToTable (env : ScanRxEnv) (connected : Bool) : Writer ScaninfoTable :=
  let known := (scan.ie .ssid).elim [] fun frm =>
    (senderEntries frame table).filter fun listed => sameSsid frame frm listed.2
  if connected && !known.isEmpty then pure table
  else wifiMacScanRx env frame scan (known.getLast?.map Prod.fst) table

end Callers

/-- `wifi_mac_scan_flush` frees all, `wifi_mac_scan_set_match_node` and
`wifi_mac_scan_get_match_node` some. -/
def freeEntries (chosen : Nat → Bool) (table : ScaninfoTable) : ScaninfoTable :=
  (table.links.entries.filter chosen).foldl
    (fun table id => { table.set id none with links := Chained.unlink id table.links }) table

end W522a.Scan
