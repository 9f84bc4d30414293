import W522a.Ap.AssocReq
import W522a.Lib.Run

/-!
An access point in operation: what stations send, what the interface is told, and the timers.
-/

namespace W522a.Ap

/-- What happens to an access point. Frames come from a station and are named by its address. -/
inductive ApEvent where
  | auth (macaddr : Nat)
  | authorize (macaddr : Nat)
  | heard (macaddr jiffies : Nat)
  | data (macaddr jiffies : Nat) (powerManagement : Bool)
  | assocReq (conf : AssocConf) (frame : AssocFrame) (env : JoinEnv)
  | disconnect (macaddr : Nat) (env : LeaveEnv)
  | delStation (macaddr : Nat) (env : LeaveEnv)
  | enqueue (macaddr : Nat)
  | pspoll (macaddr aid : Nat)
  | hold (held : Bool)
  | timeout (jiffies hz : Nat)
  | rstBss (lacks : List Nat)
  | vdetach (lacks : List Nat)
  | clearTable (lacks : List Nat)

/-- Something happens to a station of the table. -/
def ApVif.atSta (ap : ApVif) (macaddr : Nat) (change : ApSta → ApVif) : ApVif :=
  match ap.getSta macaddr with
  | none => ap
  | some sta => change sta

/-- The authentication frame of `wifi_mac_recv_auth`: the sender gets a place in the table. -/
def recvAuth (ap : ApVif) (macaddr : Nat) : ApVif :=
  let ap := if (ap.getSta macaddr).isSome then ap else (wifiMacBupBss ap macaddr).1
  ap.atSta macaddr fun sta => ap.put { sta with nodeAref := true }

def heardSta (sta : ApSta) (jiffies : Nat) : ApSta :=
  { sta with staRstamp := jiffies, staInact := sta.staInactReload }

def recvData (ap : ApVif) (sta : ApSta) (jiffies : Nat) (powerManagement : Bool) : ApVif :=
  let sta := heardSta sta jiffies
  if sta.staAssocid = 0 ∨ powerManagement = sta.nodePwrMgt then ap.put sta
  else
    let changed := wifiMacPwrsaveStateChange ap sta powerManagement
    changed.1.put changed.2

def vmCfg80211DelStation (ap : ApVif) (sta : ApSta) (env : LeaveEnv) : ApVif :=
  if sta.staAssocid = 0 then ap
  else
    let changed := wifiMacPwrsaveStateChange ap sta false
    wifiMacStaDisconnectFromAp changed.1 changed.2 env

/-- A frame for a station that sleeps, in `drv_tx_start`. -/
def enqueueFrame (ap : ApVif) (sta : ApSta) : ApVif :=
  if sta.nodePwrMgt then
    let queued := wifiMacPwrsavePsqueueEnqueue ap.vmBcnIntval ap.tim sta
    { ap with tim := queued.1 }.put queued.2
  else ap

def recvPspoll (ap : ApVif) (sta : ApSta) (aid : Nat) : ApVif :=
  let polled := wifiMacPwrsaveRecvPspoll ap.tim sta aid
  { ap with tim := polled.1 }.put polled.2

def apStep (ap : ApVif) : ApEvent → ApVif
  | .auth macaddr => recvAuth ap macaddr
  | .authorize macaddr =>
    ap.atSta macaddr fun sta => ap.put { sta with staInactReload := wifinetInactRun }
  | .heard macaddr jiffies => ap.atSta macaddr fun sta => ap.put (heardSta sta jiffies)
  | .data macaddr jiffies powerManagement =>
    ap.atSta macaddr fun sta => recvData ap sta jiffies powerManagement
  | .assocReq conf frame env => (wifiMacRecvAssocReq conf ap frame env).1
  | .disconnect macaddr env =>
    if ap.vmMainsta = some macaddr then ap
    else ap.atSta macaddr fun sta => wifiMacStaDisconnectFromAp ap sta env
  | .delStation macaddr env => ap.atSta macaddr fun sta => vmCfg80211DelStation ap sta env
  | .enqueue macaddr => ap.atSta macaddr fun sta => enqueueFrame ap sta
  | .pspoll macaddr aid => ap.atSta macaddr fun sta => recvPspoll ap sta aid
  | .hold held => { ap with psqueueHeld := held }
  | .timeout jiffies hz => wifiMacTimeoutStations ap jiffies hz
  | .rstBss lacks => wifiMacRstBss ap lacks
  | .vdetach lacks => wifiMacStaTableRst ap true lacks
  | .clearTable lacks => wifiMacClearStaTable ap lacks

/-- What happens to an access point whose interface goes up and down, and to whose stations action
frames give other channel widths. -/
inductive RadioEvent where
  | now (event : ApEvent)
  | ifRun (up : Bool)
  | htTxchwidth (macaddr : Nat) (wide : Bool)
  | operateMode (macaddr : Nat) (optMode : UInt8)
  | bssCoex (macaddr : Nat)

/-- The action frame `WIFINET_ACTION_HT_TXCHWIDTH`. -/
def recvHtTxchwidth (sta : ApSta) (wide : Bool) : ApSta :=
  { sta with staChbw := if wide then wifinetBwcWidth40 else wifinetBwcWidth20 }

/-- The action frame `WIFINET_ACT_PUBLIC_BSSCOEXIST` of a station that does not stand 40 MHz. -/
def recvBssCoex (sta : ApSta) : ApSta :=
  { sta with
    node40Intolerant := true
    staChbw := wifinetBwcWidth20
    htcapCbw40 := false }

def radioStep (ap : ApVif) : RadioEvent → ApVif
  | .now event => apStep ap event
  | .ifRun up => { ap with mac := { ap.mac with ifRunUp := up } }
  | .htTxchwidth macaddr wide => ap.atSta macaddr fun sta => ap.put (recvHtTxchwidth sta wide)
  | .operateMode macaddr optMode =>
    ap.atSta macaddr fun sta => ap.put (wifiMacParseVhtOpMdNtf optMode sta)
  | .bssCoex macaddr =>
    ap.atSta macaddr fun sta =>
      { ap with
        vmBandwidth := wifinetBwcWidth20
        mac := wifiMacChangeCbw ap.mac }.put (recvBssCoex sta)

/-- How an access point starts. -/
structure ApStart where
  vmMyaddr : Nat
  vmMacMode : Nat
  vmBandwidth : Nat
  vmBcnIntval : Nat
  mainRsn : Rsnparms
  mainRates : List Nat
  mainSae : Bool
  mainMfp : Bool
  capShslot : Bool
  capShpreamble : Bool
  protNone : Bool
  ifRunUp : Bool
  wmNopened : Nat
  coextDisable : Bool

/-- The radio before a station came. -/
def ApStart.mac (start : ApStart) : WifiMac :=
  wifiMacResetErp
    { capShslot := start.capShslot
      capShpreamble := start.capShpreamble
      protNone := start.protNone
      ifRunUp := start.ifRunUp
      wmNopened := start.wmNopened
      wmLongslotsta := 0
      wmNonerpsta := 0
      wmNonHtSta := 0
      wmHt20Sta := 0
      wmHtProtSm := htinfoOpmodePure
      shslot := false
      useprot := false
      usebarker := false
      shpreamble := false
      nonhtAp := false
      erpupdate := false
      htupdate := false
      coextDisable := start.coextDisable }
    start.vmMacMode

/-- The access point that `wifi_mac_create_wifi` leaves, with its main station in the table. -/
def apInit (start : ApStart) : ApVif where
  vmMainsta := some start.vmMyaddr
  vmMyaddr := start.vmMyaddr
  vmMacMode := start.vmMacMode
  vmBandwidth := start.vmBandwidth
  vmBcnIntval := start.vmBcnIntval
  psqueueHeld := false
  vmAidBitmap := [0]
  vmStaAssoc := 0
  vmPsSta := 0
  tim := wifiMacPwrsaveLatevattach (wifiMacStaVattach 0)
  mac := start.mac
  ntInited := true
  ntNsta := [{ newSta start.vmMyaddr with
    staRsn := start.mainRsn
    staRates := start.mainRates
    authSae := start.mainSae
    nodeMfp := start.mainMfp
    nodeHt := wifinetInclude11n start.vmMacMode
    staChbw := start.vmBandwidth }]

/-- An access point whose interface leaves its state: the stations that are taken out of the table
wait for a task that disconnects them. -/
structure ApTask where
  ap : ApVif
  unlinked : List ApSta

/-- What happens to it, with `wifi_mac_sta_disassoc_in_task` and its task for one station. -/
inductive TaskEvent where
  | now (event : ApEvent)
  | disassocInTask
  | disassocCb (macaddr : Nat) (env : LeaveEnv)

def taskStep (task : ApTask) : TaskEvent → ApTask
  | .now event => { task with ap := apStep task.ap event }
  | .disassocInTask =>
    { ap := { task.ap with ntNsta := task.ap.ntNsta.filter (·.staAssocid = 0) }
      unlinked := task.unlinked ++ task.ap.ntNsta.filter (·.staAssocid ≠ 0) }
  | .disassocCb macaddr env =>
    match Keyed.find ApSta.staMacaddr task.unlinked macaddr with
    | none => task
    | some sta =>
      let left := wifiMacStaDisconnect task.ap sta env.quiet
      { ap := wifiMacFreeSta left.1 left.2 env.lacksMemory
        unlinked := Keyed.remove ApSta.staMacaddr task.unlinked macaddr }

/-- It starts with no station on its way out. -/
def taskInit (start : ApStart) : ApTask := ⟨apInit start, []⟩

end W522a.Ap
