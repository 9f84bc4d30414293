import W522a.Lib.Traced
import W522a.Scan.BestNode

/-!
The lists of channels that a scan goes through: the channels of the matching entries, the lists that
the scan itself sets up, and those of a request of the user. Every write to an array is logged by its
index.
-/

namespace W522a.Scan

open Memory (Traced Safe emit)

/-- `WIFINET_CHAN_MAX`, the size of `conn_chan` and of `ss_chans`. -/
@[simp] abbrev wifinetChanMax : Nat := 256

@[simp] abbrev roamingCandidateChanMax : Nat := 6

/-- The bands that `aml_iwpriv_get_band` tells apart. -/
inductive CfgBand where
  | bandB
  | bandA
  | all
  deriving DecidableEq, Repr

/-- `chan_flags &= ~WIFINET_CHAN_AWARE` -/
def WifiChannel.clearAware (c : WifiChannel) : WifiChannel :=
  { c with chanFlags := c.chanFlags &&& (0xffff - 0x1000) }

def inCfgBand (band : CfgBand) (c : WifiChannel) : Bool :=
  !(band == .bandB && !c.is2ghz) && !(band == .bandA && !c.is5ghz)

/-- `ss_chans` and `scan_last_chan_index`, which has sixteen bits. -/
structure SsChans where
  cells : Nat → Option WifiChannel
  last : Nat

namespace SsChans

/-- `ss_chans[scan_last_chan_index++] = c` -/
def append (ss : SsChans) (c : WifiChannel) : Traced Nat SsChans := do
  emit ss.last
  pure { cells := Function.update ss.cells ss.last (some c), last := (ss.last + 1) % 65536 }

/-- `ss_chans[index] = c` -/
def put (ss : SsChans) (index : Nat) (c : Option WifiChannel) : Traced Nat SsChans := do
  emit index
  pure { ss with cells := Function.update ss.cells index c }

def list (ss : SsChans) : List (Option WifiChannel) := (List.range ss.last).map ss.cells

end SsChans

/-! ### The channels of the matching entries -/

/-- What `wifi_mac_scan_get_match_node` writes: `vm_connchan`, the entry to connect to, and the table
without the entries that it frees. -/
structure MatchNode where
  connChan : Nat → Option WifiChannel
  num : Nat
  da : List UInt8
  bssid : List UInt8
  vmScanchanRssi : Int
  vmConnectScanEntry : Option ScaninfoEntry
  table : List ScaninfoEntry
  ret : Nat

/-- The loop of `wifi_mac_scan_get_match_node`. -/
def matchNodeLoop (vif : ScanVif) : List ScaninfoEntry → MatchNode → Traced Nat MatchNode
  | [], node => pure node
  | se :: rest, node =>
    if matchBss vif se = 0 then do
      emit node.num
      let node :=
        { node with
          vmScanchanRssi := (se.seAvgrssi : Int) - 255
          connChan := Function.update node.connChan node.num (some se.scaninfo.siChan)
          num := node.num + 1
          da := se.scaninfo.siMacaddr
          bssid := se.scaninfo.siBssid
          ret := 1 }
      if vif.vmFlags &&& wifinetFDesbssid ≠ 0 then
        pure
          { node with
            vmConnectScanEntry := some { se with seValid := true }
            table := node.table ++ se :: rest }
      else matchNodeLoop vif rest node
    else matchNodeLoop vif rest { node with table := node.table ++ [se] }

def wifiMacScanGetMatchNode (vif : ScanVif) (node : MatchNode) (table : List ScaninfoEntry) :
    Traced Nat MatchNode :=
  matchNodeLoop vif table { node with num := 0, ret := 0, table := [] }

/-! ### The lists of a scan -/

/-- What `vm_scan_setup_chan` reads; `wmCurchan` is the index of the current channel in the table,
and `ssChans` holds what an earlier scan left. The table has a size that `wifi_mac_chan_attach`
admits, and the candidates of the roaming fit their array. -/
structure ScanSetup where
  simulate : Bool
  beforeConnect : Bool
  roaming : Bool
  roamingFullScan : Bool
  chanSwitch : Bool
  band : CfgBand
  wmChannels : List WifiChannel
  wmCurchan : Option Nat
  connChan : Nat → Option WifiChannel
  connNum : Nat
  roamingCandidates : List WifiChannel
  vmSwitchchan : WifiChannel
  chanAwareCnt : Nat
  ssChans : Nat → Option WifiChannel
  admitted : wmChannels.length < wifinetChanMax
  candidates_le : roamingCandidates.length ≤ roamingCandidateChanMax

/-- The table of channels and the counter of the scans, which is at ten when the next channel that a
loop comes to loses its flag. -/
structure ChannelTable where
  channels : List WifiChannel
  awareCnt : Nat

/-- What `vm_scan_setup_chan` writes. -/
structure SetupOutcome where
  ss : SsChans
  table : ChannelTable
  simulate : Bool
  roamingCandidates : List WifiChannel

/-- The first lines of a loop over the table. -/
def takeAware (c : WifiChannel) (awareCnt : Nat) : WifiChannel × Nat :=
  if awareCnt ≥ 10 then (c.clearAware, 0) else (c, awareCnt)

def simulateLoop (setup : ScanSetup) : List WifiChannel → Nat → Nat → SsChans →
    Traced Nat (SsChans × ChannelTable)
  | [], _, awareCnt, ss => pure (ss, ⟨[], awareCnt⟩)
  | c :: rest, i, awareCnt, ss =>
    let taken := takeAware c awareCnt
    if taken.1.chanBw = .width20 ∧ setup.wmCurchan ≠ some i ∧ inCfgBand setup.band taken.1 then do
      let ss ← ss.append taken.1
      pure (ss, ⟨taken.1 :: rest, taken.2⟩)
    else do
      let left ← simulateLoop setup rest (i + 1) taken.2 ss
      pure (left.1, { left.2 with channels := taken.1 :: left.2.channels })

/-- The loop over the table for the channels that `pick` admits. -/
def tableLoop (pick : WifiChannel → Bool) : List WifiChannel → Nat → SsChans →
    Traced Nat (SsChans × ChannelTable)
  | [], awareCnt, ss => pure (ss, ⟨[], awareCnt⟩)
  | c :: rest, awareCnt, ss => do
    let taken := takeAware c awareCnt
    let ss ← if pick taken.1 then ss.append taken.1 else pure ss
    let left ← tableLoop pick rest taken.2 ss
    pure (left.1, { left.2 with channels := taken.1 :: left.2.channels })

/-- The loop over `conn_chan`, from an index on; every channel is written three times. -/
def connectLoop (setup : ScanSetup) : Nat → Nat → SsChans → Traced Nat SsChans
  | 0, _, ss => pure ss
  | turns + 1, i, ss => do
    let ss ← ss.put i (setup.connChan i)
    let ss ← ss.put (i + setup.connNum) (setup.connChan i)
    let ss ← ss.put (i + setup.connNum * 2) (setup.connChan i)
    connectLoop setup turns (i + 1) ss

/-- The loop over `roaming_candidate_chans`, from an index on. -/
def roamingLoop : List WifiChannel → Nat → SsChans → Traced Nat SsChans
  | [], _, ss => pure ss
  | c :: rest, i, ss => do
    let ss ← ss.put i (some c)
    roamingLoop rest (i + 1) ss

def fullScanPick (band : CfgBand) (c : WifiChannel) : Bool :=
  c.chanBw == .width20 && inCfgBand band c

/-- The end of `vm_scan_setup_chan`, which counts the scan. -/
def ScanSetup.outcome (setup : ScanSetup) (left : SsChans × ChannelTable) : SetupOutcome :=
  { ss := left.1
    table := { left.2 with awareCnt := (left.2.awareCnt + 1) % 256 }
    simulate := setup.simulate
    roamingCandidates := setup.roamingCandidates }

def vmScanSetupChan (setup : ScanSetup) : Traced Nat SetupOutcome :=
  let ss : SsChans := ⟨setup.ssChans, 0⟩
  let table : ChannelTable := ⟨setup.wmChannels, setup.chanAwareCnt⟩
  if setup.simulate then do
    let left ← simulateLoop setup setup.wmChannels 0 setup.chanAwareCnt ss
    pure { setup.outcome left with simulate := false }
  else if setup.beforeConnect then do
    let ss := { ss with last := setup.connNum * 3 % 2 ^ 32 % 65536 }
    let ss ← connectLoop setup setup.connNum 0 ss
    pure (setup.outcome (ss, table))
  else if setup.roaming && !setup.roamingFullScan then do
    let ss := { ss with last := setup.roamingCandidates.length % 65536 }
    let ss ← roamingLoop (setup.roamingCandidates.take ss.last) 0 ss
    pure (setup.outcome (ss, table))
  else if setup.chanSwitch then do
    let ss := { ss with last := 1 }
    let ss ← ss.put 0 (some setup.vmSwitchchan)
    pure (setup.outcome (ss, table))
  else do
    let left ← tableLoop (fullScanPick setup.band) setup.wmChannels setup.chanAwareCnt ss
    pure { setup.outcome left with roamingCandidates := [] }

/-- A channel of twenty megahertz at a frequency, in the configured band. -/
def userPick (band : CfgBand) (freq : Nat) (c : WifiChannel) : Bool :=
  c.chanBw == .width20 && c.chanCfreq1 == freq && inCfgBand band c

def userLoop (band : CfgBand) : List Nat → ChannelTable → SsChans →
    Traced Nat (SsChans × ChannelTable)
  | [], table, ss => pure (ss, table)
  | freq :: rest, table, ss => do
    let left ← tableLoop (userPick band freq) table.channels table.awareCnt ss
    userLoop band rest left.2 left.1

/-- `vm_scan_user_set_chan`, for a request with these frequencies: the list, and the table of
channels. -/
def vmScanUserSetChan (band : CfgBand) (request : List Nat) (table : ChannelTable)
    (ssChans : Nat → Option WifiChannel) : Traced Nat (SsChans × ChannelTable) := do
  let left ← userLoop band request table ⟨ssChans, 0⟩
  pure (left.1, { left.2 with awareCnt := (left.2.awareCnt + 1) % 256 })

end W522a.Scan
