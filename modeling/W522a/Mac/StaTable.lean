import W522a.Lib.Run
import W522a.Lib.Keyed

/-!
The station table of an interface and the records that leave it: the paths that take a station out
of the table, the queue for the delayed free, and what still points to a record.
-/

namespace W522a.Lifetime

/-- `VLSI_LIST_MAX_ITERS`, also the bound of the walks that are written out. -/
abbrev vlsiListMaxIters : Nat := 4096

/-- The bound of the walk that `wifi_mac_find_sta` writes out for a bucket of the WDS table. -/
abbrev wdsWalkMax : Nat := 1024

abbrev wifinetNodeHashsize : Nat := 32

abbrev wifinetNodeFreeWait : Nat := 5000

/-- What the paths out of the table read of a `wifi_station`. -/
structure WifiStation where
  staMacaddr : Nat
  /-- `sta_associd != 0` -/
  associated : Bool
  /-- `WIFINET_NODE_AREF` in `sta_flags` -/
  aref : Bool
  staRstamp : Nat
  staInact : Int
  /-- `WIFINET_NODE_MFP_CONFIRM_DEAUTH` in `sta_flags_ext` -/
  confirmDeauth : Bool
  saQueryTryCount : Nat
  deriving DecidableEq, Repr

/-- `wifi_mac_WdsAddr`: an address behind a station. -/
structure WifiMacWdsAddr where
  wdsMacaddr : Nat
  wdsNi : Nat
  deriving DecidableEq, Repr

/-- The queued work that holds a station. -/
inductive WorkTask where
  | startBss (selbs : Nat) (replaycounter : Nat)
  | disassoc (sta : Nat)
  deriving DecidableEq, Repr

/-- `WIFINET_NODE_HASH`, of the last byte of an address. -/
def wifinetNodeHash (macaddr : Nat) : Nat := macaddr % 256 % wifinetNodeHashsize

/-- An interface with its table. A record is known by the number under which it was allocated; the
buckets of `nt_wds_hash` are one list, in which the entries of a bucket stand in its order. -/
structure StaTable where
  vmMyaddr : Nat
  hostap : Bool
  /-- `WIFINET_FEXT_WDS` in `vm_flags_ext` -/
  wds : Bool
  ntInited : Bool
  ntNsta : List Nat
  ntWdsHash : List WifiMacWdsAddr
  vmMainsta : Option Nat
  replaycounter : Nat
  wmMacExit : Bool
  /-- Each entry with its `queue_time`. -/
  wmFreeEntryq : List (Nat × Nat)
  /-- `wm_free_timer` is armed. -/
  wmFreeTimer : Bool
  work : List WorkTask
  jiffies : Nat
  hz : Nat
  station : Nat → WifiStation
  allocated : Nat
  /-- Every record that `nsta_free` was called for. -/
  freed : List Nat
  /-- Every record that was queued for freeing while it was linked. -/
  early : List Nat

/-- What becomes of `alloc_sta_node`: there is no memory, the driver has no record, or it is made. -/
inductive NodeAlloc where
  | failed
  | refused
  | made
  deriving DecidableEq, Repr

/-- `nsta_free`; the interface of the record may be unset. -/
def nstaFree (vif : Bool) (sta : Nat) (table : StaTable) : StaTable :=
  { table with
    vmMainsta := if vif && table.vmMainsta == some sta then none else table.vmMainsta
    freed := sta :: table.freed }

def freeStaDelayLoop : List (Nat × Nat) → StaTable → StaTable
  | [], table => { table with wmFreeEntryq := [], wmFreeTimer := false }
  | (sta, queueTime) :: rest, table =>
    if wifinetNodeFreeWait * table.hz / 1000 ≤ table.jiffies - queueTime then
      freeStaDelayLoop rest (nstaFree true sta table)
    else { table with wmFreeEntryq := (sta, queueTime) :: rest, wmFreeTimer := true }

def wifiMacFreeStaDelay (table : StaTable) : StaTable :=
  if table.wmMacExit then { table with wmFreeTimer := false }
  else freeStaDelayLoop table.wmFreeEntryq table

def wifiMacFreeStaNow (table : StaTable) : StaTable :=
  { table.wmFreeEntryq.foldl (fun table entry => nstaFree false entry.1 table) table with
    wmFreeEntryq := [] }

/-- The records that are queued for freeing. -/
def StaTable.queued (table : StaTable) : List Nat := table.wmFreeEntryq.map Prod.fst

/-- `wifi_mac_free_sta`, where `memory` says for which records there is a `nsta_entry`. -/
def wifiMacFreeSta (memory : Nat → Bool) (sta : Nat) (table : StaTable) : StaTable :=
  if !memory sta then table
  else if sta ∈ table.queued then table
  else
    { table with
      wmFreeEntryq := table.wmFreeEntryq ++ [(sta, table.jiffies)]
      vmMainsta := if table.vmMainsta == some sta then none else table.vmMainsta
      wmFreeTimer := table.wmFreeTimer || !table.wmMacExit
      early := if sta ∈ table.ntNsta then sta :: table.early else table.early }

/-- `list_del_init` of `sta_list` -/
def listDelInit (sta : Nat) (table : StaTable) : StaTable :=
  { table with ntNsta := table.ntNsta.erase sta }

section Buckets

variable (table : StaTable)

/-- The entries of a bucket that a walk of at most so many turns sees. -/
def StaTable.bucket (most hash : Nat) : List WifiMacWdsAddr :=
  (table.ntWdsHash.filter fun wds => wifinetNodeHash wds.wdsMacaddr == hash).take most

/-- The first entry for an address that `VLSI_FOR_EACH_ENTRY_SAFE` sees in its bucket. -/
def StaTable.wdsFor (macaddr : Nat) : Option WifiMacWdsAddr :=
  (table.bucket vlsiListMaxIters (wifinetNodeHash macaddr)).find? fun wds =>
    wds.wdsMacaddr == macaddr

/-- The entries that a walk over every bucket sees. -/
def StaTable.buckets : List WifiMacWdsAddr :=
  (List.range wifinetNodeHashsize).flatMap fun hash => table.bucket vlsiListMaxIters hash

end Buckets

def wifiMacRmStaFromWdsByAddr (macaddr : Nat) (table : StaTable) : StaTable :=
  if !table.ntInited then table
  else
    match table.wdsFor macaddr with
    | some wds => { table with ntWdsHash := table.ntWdsHash.erase wds }
    | none => table

def wifiMacRmStaFromWdsBySta (sta : Nat) (table : StaTable) : StaTable :=
  if !table.ntInited || !table.wds then table
  else
    { table with
      ntWdsHash := table.ntWdsHash.diff (table.buckets.filter fun wds => wds.wdsNi == sta) }

/-- What the paths out of the table do one after another: the record is unlinked, its address is
taken out of the WDS table, and it is queued. -/
def removeSta (memory : Nat → Bool) (sta : Nat) (table : StaTable) : StaTable :=
  wifiMacFreeSta memory sta
    (wifiMacRmStaFromWdsByAddr (table.station sta).staMacaddr (listDelInit sta table))

def StaTable.setStation (table : StaTable) (sta : Nat) (station : WifiStation) : StaTable :=
  { table with station := fun other => if other = sta then station else table.station other }

def wifiMacStaDisconnect (sta : Nat) (table : StaTable) : StaTable :=
  table.setStation sta { table.station sta with associated := false }

def StaTable.walk (table : StaTable) : List Nat := table.ntNsta.take vlsiListMaxIters

def wifiMacFreeStaFromList (memory : Nat → Bool) (sta : Nat) (table : StaTable) : StaTable :=
  if !table.ntInited then table
  else if sta ∈ table.walk then wifiMacFreeSta memory sta (listDelInit sta table)
  else table

/-- The loop of `wifi_mac_sta_table_rst` for one station. -/
def staTableRstTurn (memory : Nat → Bool) (rstMainsta : Bool) (table : StaTable) (sta : Nat) :
    StaTable :=
  if table.vmMainsta != some sta || rstMainsta then removeSta memory sta table else table

def wifiMacStaTableRst (memory : Nat → Bool) (rstMainsta : Bool) (table : StaTable) : StaTable :=
  table.walk.foldl (staTableRstTurn memory rstMainsta) table

def wifiMacClearStaTable (memory : Nat → Bool) (table : StaTable) : StaTable :=
  if !table.ntInited then table
  else
    table.walk.foldl (fun table sta => wifiMacFreeSta memory sta (listDelInit sta table))
      { table with ntInited := false, ntWdsHash := table.ntWdsHash.diff table.buckets }

def allocStaNode (node : NodeAlloc) (table : StaTable) : Option Nat × StaTable :=
  match node with
  | .failed => (none, table)
  | .refused => (none, nstaFree true table.allocated { table with allocated := table.allocated + 1 })
  | .made => (some table.allocated, { table with allocated := table.allocated + 1 })

def newStation (macaddr : Nat) (inact : Int) : WifiStation where
  staMacaddr := macaddr
  associated := false
  aref := false
  staRstamp := 0
  staInact := inact
  confirmDeauth := false
  saQueryTryCount := 0

abbrev ntInactInit : Int := 30

def wifiMacGetNewStaNode (node : NodeAlloc) (macaddr : Nat) (table : StaTable) :
    Option Nat × StaTable :=
  if !table.ntInited then (none, table)
  else
    match allocStaNode node table with
    | (none, table) => (none, table)
    | (some sta, table) =>
      (some sta, { table.setStation sta (newStation macaddr ntInactInit) with
        ntNsta := table.ntNsta ++ [sta] })

def wifiMacStationTableReinitLinksLocked (table : StaTable) : StaTable :=
  { table with ntNsta := [], ntWdsHash := [] }

/-- The walk over `nt_nsta` for an address, which takes a table that is too long for corrupt. -/
def findLinked (macaddr : Nat) (table : StaTable) : Option Nat × StaTable :=
  match table.walk.find? fun sta => (table.station sta).staMacaddr == macaddr with
  | some sta => (some sta, table)
  | none =>
    if vlsiListMaxIters < table.ntNsta.length then
      (none, wifiMacStationTableReinitLinksLocked table)
    else (none, table)

def wifiMacGetStaNode (node : NodeAlloc) (macaddr : Nat) (table : StaTable) :
    Option Nat × StaTable :=
  if !table.ntInited then (none, table)
  else
    match findLinked macaddr table with
    | (some sta, table) => (some sta, table)
    | (none, table) => wifiMacGetNewStaNode node macaddr table

/-- `wifi_mac_find_sta`. An entry for the address whose station is not linked is removed on the
way. -/
def wifiMacFindSta (macaddr : Nat) (table : StaTable) : Option Nat × StaTable :=
  if !table.ntInited then (none, table)
  else
    match findLinked macaddr table with
    | (some sta, table) => (some sta, table)
    | (none, table) =>
      let bucket := table.bucket wdsWalkMax (wifinetNodeHash macaddr)
      match bucket.find? fun wds =>
        wds.wdsMacaddr == macaddr && table.walk.contains wds.wdsNi with
      | some wds =>
        (some wds.wdsNi, { table with
          ntWdsHash := table.ntWdsHash.diff
            ((bucket.takeWhile (· != wds)).filter (·.wdsMacaddr == macaddr)) })
      | none =>
        (none, { table with
          ntWdsHash := table.ntWdsHash.diff (bucket.filter (·.wdsMacaddr == macaddr)) })

def wifiMacFindWdsSta (macaddr : Nat) (table : StaTable) : Option Nat × StaTable :=
  if !table.ntInited then (none, table)
  else if table.wds then ((table.wdsFor macaddr).map WifiMacWdsAddr.wdsNi, table)
  else
    (none, { table with
      ntWdsHash := table.ntWdsHash.diff
        ((table.bucket vlsiListMaxIters (wifinetNodeHash macaddr)).filter
          (·.wdsMacaddr == macaddr)) })

/-- `wifi_mac_add_wds_addr`; `room` says whether there is memory for an entry. -/
def wifiMacAddWdsAddr (room : Bool) (sta macaddr : Nat) (table : StaTable) : StaTable :=
  if !table.ntInited || !table.wds || !room then table
  else
    match table.wdsFor macaddr with
    | some wds =>
      { table with ntWdsHash := table.ntWdsHash.replace wds { wds with wdsNi := sta } }
    | none => { table with ntWdsHash := ⟨macaddr, sta⟩ :: table.ntWdsHash }

def wifiMacRmSta (memory : Nat → Bool) (macaddr : Nat) (table : StaTable) : StaTable :=
  if !table.ntInited then table
  else
    match table.wdsFor macaddr with
    | some wds =>
      wifiMacFreeSta memory wds.wdsNi
        (listDelInit wds.wdsNi { table with ntWdsHash := table.ntWdsHash.erase wds })
    | none => table

def wifiMacStaDisconnectFromAp (memory : Nat → Bool) (sta : Nat) (table : StaTable) : StaTable :=
  removeSta memory sta (wifiMacStaDisconnect sta table)

/-- `wifi_mac_sta_disassoc_in_task` for one station; `room` says for which there is room in the
work queue. -/
def disassocInTaskTurn (room : Nat → Bool) (table : StaTable) (sta : Nat) : StaTable :=
  if (table.station sta).associated then
    let table := listDelInit sta table
    if room sta then { table with work := table.work ++ [.disassoc sta] } else table
  else table

def wifiMacStaDisassocInTask (room : Nat → Bool) (table : StaTable) : StaTable :=
  table.walk.foldl (disassocInTaskTurn room) table

/-- `wifi_mac_disassoc_all_sta` for one station. -/
def disassocAllTurn (memory : Nat → Bool) (table : StaTable) (sta : Nat) : StaTable :=
  if (table.station sta).associated then wifiMacStaDisconnectFromAp memory sta table else table

def wifiMacDisassocAllSta (memory : Nat → Bool) (table : StaTable) : StaTable :=
  table.walk.foldl (disassocAllTurn memory) table

def wifiMacDisassocCb (memory : Nat → Bool) (sta : Nat) (table : StaTable) : StaTable :=
  wifiMacFreeSta memory sta
    (wifiMacRmStaFromWdsByAddr (table.station sta).staMacaddr (wifiMacStaDisconnect sta table))

def wifiMacStartBssEx (memory : Nat → Bool) (running : Bool) (selbs : Nat) (table : StaTable) :
    StaTable :=
  if !running then table
  else
    let started := { table with vmMainsta := some selbs }
    match table.vmMainsta with
    | some obss =>
      if obss ≠ selbs then
        wifiMacFreeStaFromList memory obss (wifiMacRmStaFromWdsBySta obss started)
      else started
    | none => started

def wifiMacStartBssExTask (memory : Nat → Bool) (running : Bool) (selbs replaycounter : Nat)
    (table : StaTable) : StaTable :=
  if table.replaycounter ≠ replaycounter then table
  else wifiMacStartBssEx memory running selbs table

/-- `wifi_mac_TimeoutStations` for one station. One that expires is unlinked, and that is all. -/
def timeoutStationsTurn (table : StaTable) (sta : Nat) : StaTable :=
  let station := table.station sta
  if !station.aref then table
  else if table.jiffies < station.staRstamp + 5 * table.hz then table
  else if table.vmMainsta == some sta then
    if 0 < station.staInact then
      table.setStation sta { station with staInact := station.staInact - 1 }
    else table
  else
    let aged := table.setStation sta { station with staInact := station.staInact - 1 }
    if station.staInact - 1 ≤ 0 then listDelInit sta aged else aged

/-- `wifi_mac_StationTimeoutEx` for one interface, with `wifi_mac_TimeoutStations`. -/
def wifiMacTimeoutStations (connected : Bool) (table : StaTable) : StaTable :=
  if connected && table.vmMainsta.isSome then table.walk.foldl timeoutStationsTurn table else table

/-- `wifi_mac_act_tx_timeout` for one station of an access point. -/
def actTxTimeoutTurn (memory : Nat → Bool) (table : StaTable) (sta : Nat) : StaTable :=
  let station := table.station sta
  if station.confirmDeauth then
    let counted := table.setStation sta
      { station with saQueryTryCount := station.saQueryTryCount + 1 }
    if station.saQueryTryCount < 10 then counted
    else wifiMacStaDisconnectFromAp memory sta counted
  else table

/-- `wifi_mac_act_tx_timeout`; in station mode no record is taken away here. -/
def wifiMacActTxTimeout (memory : Nat → Bool) (table : StaTable) : StaTable :=
  if table.hostap then table.walk.foldl (actTxTimeoutTurn memory) table else table

def wifiMacCheckMainSta (node : NodeAlloc) (table : StaTable) : StaTable :=
  match table.vmMainsta with
  | some _ => table
  | none =>
    match wifiMacGetStaNode node table.vmMyaddr table with
    | (sta, table) => { table with vmMainsta := sta }

def wifiMacRstBss (memory : Nat → Bool) (node : NodeAlloc) (table : StaTable) : StaTable :=
  wifiMacCheckMainSta node (wifiMacStaTableRst memory false table)

def wifiMacRstMainSta (table : StaTable) : StaTable :=
  match table.vmMainsta with
  | some sta =>
    table.setStation sta
      { table.station sta with
        staMacaddr := 0, associated := false, aref := false, confirmDeauth := false }
  | none => table

def wifiMacBupBss (node : NodeAlloc) (macaddr : Nat) (table : StaTable) : StaTable :=
  if table.vmMainsta.isSome then (wifiMacGetStaNode node macaddr table).2 else table

/-- `wifi_mac_connect`: `channel` says whether there is one, `room` whether the work queue has
room. -/
def wifiMacConnect (node : NodeAlloc) (macaddr : Nat) (channel room : Bool) (table : StaTable) :
    StaTable :=
  match wifiMacGetNewStaNode node macaddr table with
  | (none, table) => table
  | (some sta, table) =>
    if channel && room then
      { table with work := table.work ++ [.startBss sta table.replaycounter] }
    else table

/-- `wifi_mac_send_error` for a frame from an address that is unknown. -/
def wifiMacSendError (memory : Nat → Bool) (node : NodeAlloc) (macaddr : Nat) (table : StaTable) :
    StaTable :=
  if table.wmMacExit then table
  else
    match allocStaNode node table with
    | (none, table) => table
    | (some sta, table) =>
      wifiMacFreeSta memory sta (table.setStation sta (newStation macaddr 0))

/-- The first piece of queued work is done. -/
def runWork (memory : Nat → Bool) (running : Bool) (table : StaTable) : StaTable :=
  match table.work with
  | [] => table
  | .startBss selbs replaycounter :: rest =>
    wifiMacStartBssExTask memory running selbs replaycounter { table with work := rest }
  | .disassoc sta :: rest => wifiMacDisassocCb memory sta { table with work := rest }

/-- `vm_cfg80211_del_station` for one address, and the other callers that look a station up and
disconnect it. -/
def delStation (memory : Nat → Bool) (macaddr : Nat) (table : StaTable) : StaTable :=
  match wifiMacFindSta macaddr table with
  | (none, table) => table
  | (some sta, table) => wifiMacStaDisconnectFromAp memory sta table

/-- A data frame with four addresses that a station receives, and the state that it comes in. -/
structure Addr4Frame where
  /-- `i_addr2` is not the `sta_bssid` of the main station. -/
  other : Bool
  /-- A scan is going on, or a stay on another channel. -/
  away : Bool
  connected : Bool
  /-- `i_addr1` is a group, and the interface takes groups. -/
  multicast : Bool
  addr3 : Nat
  addr4 : Nat
  deriving DecidableEq, Repr

/-- The frame is not from the access point, or comes before there is a connection. -/
def Addr4Frame.notToBss (frame : Addr4Frame) : Bool :=
  (!frame.away && (frame.other || !frame.connected)) || (frame.connected && frame.other)

/-- A frame for a group comes back from the access point. -/
def StaTable.multicastEcho (table : StaTable) (frame : Addr4Frame) : Bool :=
  frame.multicast && (frame.addr3 == table.vmMyaddr ||
    (wifiMacFindWdsSta frame.addr3 table).1.isSome)

/-- `wifi_mac_input` in station mode for a data frame with four addresses. -/
def staInputAddr4 (memory : Nat → Bool) (room : Bool) (frame : Addr4Frame) (table : StaTable) :
    StaTable :=
  match table.vmMainsta with
  | none => table
  | some main =>
    if frame.notToBss then table
    -- Without `WIFINET_FEXT_WDS` the direction of the frame is not allowed.
    else if !table.wds || table.multicastEcho frame then table
    else
      match wifiMacFindWdsSta frame.addr4 table with
      | (some _, table) => table
      | (none, table) =>
        if !frame.other then table
        else
          match wifiMacFindSta frame.addr4 table with
          | (none, table) => wifiMacAddWdsAddr room main frame.addr4 table
          | (some temp, table) =>
            if (table.station temp).staMacaddr = table.vmMyaddr then table
            else
              wifiMacAddWdsAddr room main frame.addr4
                (wifiMacStaDisconnectFromAp memory temp table)

/-- `wifi_mac_encap` in station mode for a broadcast from behind the station. -/
def staEncapAddr4 (room : Bool) (shost : Nat) (table : StaTable) : StaTable :=
  match table.vmMainsta with
  | none => table
  | some main =>
    if !table.wds then table
    else
      match wifiMacFindWdsSta shost table with
      | (some _, table) => table
      | (none, table) => wifiMacAddWdsAddr room main shost table

/-- `wifi_mac_input` of an access point for a frame with four addresses; `toBss` says that it is for
this access point, or that a scan is going on. -/
def apInputAddr4 (memory : Nat → Bool) (room toBss : Bool) (addr2 addr4 : Nat) (table : StaTable) :
    StaTable :=
  match wifiMacFindSta addr2 table with
  | (none, table) => table
  | (some sta, table) =>
    if !toBss || table.vmMainsta == some sta then table
    else if !(table.station sta).associated || !table.wds then table
    else
      match wifiMacFindWdsSta addr4 table with
      | (some wds, table) =>
        if wds ≠ sta then
          wifiMacAddWdsAddr room sta addr4 (wifiMacRmSta memory addr4 table)
        else table
      | (none, table) => delStation memory addr4 table

/-- `wifi_mac_recv_mgmt` of an access point for a frame that asks to join. -/
def apRecvMgmt (memory : Nat → Bool) (node : NodeAlloc) (addr2 : Nat) (table : StaTable) :
    StaTable :=
  match wifiMacFindWdsSta addr2 table with
  | (none, table) => table
  | (some _, table) => wifiMacBupBss node addr2 (wifiMacRmSta memory addr2 table)

def wifiMacStationDetach (memory : Nat → Bool) (table : StaTable) : StaTable :=
  wifiMacFreeStaNow
    (wifiMacClearStaTable memory { table with wmMacExit := true, wmFreeTimer := false })

/-- What happens to an interface. Each event has what its run is given: the records there is a
`nsta_entry` for, the room in the work queue or for an entry of the WDS table, and what becomes of a
new record. -/
inductive StaEvent where
  | bupBss (node : NodeAlloc) (macaddr : Nat)
  | checkMainSta (node : NodeAlloc)
  | connect (node : NodeAlloc) (macaddr : Nat) (channel room : Bool)
  | work (memory : Nat → Bool) (running : Bool)
  | sendError (memory : Nat → Bool) (node : NodeAlloc) (macaddr : Nat)
  | delStation (memory : Nat → Bool) (macaddr : Nat)
  | disassocAll (memory : Nat → Bool)
  | disassocInTask (room : Nat → Bool)
  | timeoutStations (connected : Bool)
  | actTxTimeout (memory : Nat → Bool)
  | rstBss (memory : Nat → Bool) (node : NodeAlloc)
  /-- `wifi_mac_sta_leave` -/
  | leave (memory : Nat → Bool) (node : NodeAlloc)
  /-- The interface is detached, for a change of its mode or for good. -/
  | vdetach (memory : Nat → Bool)
  /-- The interface is attached again, with `wifi_mac_station_init`. -/
  | vattach (memory : Nat → Bool) (node : NodeAlloc) (hostap : Bool)
  | stationDetach (memory : Nat → Bool)
  | freeTimer
  | staInput (memory : Nat → Bool) (room : Bool) (frame : Addr4Frame)
  | staEncap (room : Bool) (shost : Nat)
  | apInput (memory : Nat → Bool) (room toBss : Bool) (addr2 addr4 : Nat)
  | apRecvMgmt (memory : Nat → Bool) (node : NodeAlloc) (addr2 : Nat)
  /-- Frames of a station and the end of its association change its record. -/
  | update (sta : Nat) (station : WifiStation)
  | tick

def StaTable.step (table : StaTable) : StaEvent → StaTable
  | .bupBss node macaddr => wifiMacBupBss node macaddr table
  | .checkMainSta node => wifiMacCheckMainSta node table
  | .connect node macaddr channel room => wifiMacConnect node macaddr channel room table
  | .work memory running => runWork memory running table
  | .sendError memory node macaddr => wifiMacSendError memory node macaddr table
  | .delStation memory macaddr => Lifetime.delStation memory macaddr table
  | .disassocAll memory => wifiMacDisassocAllSta memory table
  | .disassocInTask room => wifiMacStaDisassocInTask room table
  | .timeoutStations connected => wifiMacTimeoutStations connected table
  | .actTxTimeout memory => wifiMacActTxTimeout memory table
  | .rstBss memory node => wifiMacRstBss memory node table
  | .leave memory node => wifiMacRstMainSta (wifiMacRstBss memory node table)
  | .vdetach memory =>
    wifiMacStaTableRst memory true { table with replaycounter := table.replaycounter + 1 }
  | .vattach memory node hostap => wifiMacRstBss memory node { table with hostap := hostap }
  | .stationDetach memory => wifiMacStationDetach memory table
  | .freeTimer => if table.wmFreeTimer then wifiMacFreeStaDelay table else table
  | .staInput memory room frame => staInputAddr4 memory room frame table
  | .staEncap room shost => staEncapAddr4 room shost table
  | .apInput memory room toBss addr2 addr4 => apInputAddr4 memory room toBss addr2 addr4 table
  | .apRecvMgmt memory node addr2 => Lifetime.apRecvMgmt memory node addr2 table
  | .update sta station =>
    table.setStation sta { station with staMacaddr := (table.station sta).staMacaddr }
  | .tick => { table with jiffies := table.jiffies + 1 }

/-- An interface that was just attached. -/
def StaTable.attached (vmMyaddr hz : Nat) (hostap wds : Bool) : StaTable where
  vmMyaddr := vmMyaddr
  hostap := hostap
  wds := wds
  ntInited := true
  ntNsta := []
  ntWdsHash := []
  vmMainsta := none
  replaycounter := 0
  wmMacExit := false
  wmFreeEntryq := []
  wmFreeTimer := false
  work := []
  jiffies := 0
  hz := hz
  station _ := newStation 0 0
  allocated := 0
  freed := []
  early := []

end W522a.Lifetime
