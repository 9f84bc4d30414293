import W522a.Ap.PowerSave
import W522a.Ap.Protect

/-!
How stations come and go: the association ids they get and give up, and the ways out of the table.
-/

namespace W522a.Ap

/-- What the surroundings decide when a station leaves: whether no foreign non-ERP station was heard
for a while, and whether memory lacks for the entry in the queue of freed stations. -/
structure LeaveEnv where
  quiet : Bool
  lacksMemory : Bool
  deriving DecidableEq, Repr

/-- What they decide when a station joins: whether the answer is sent, and whether the channel is
gone. -/
structure JoinEnv where
  sent : Bool
  chanErr : Bool
  leave : LeaveEnv
  deriving DecidableEq, Repr

def wifiMacFreeSta (ap : ApVif) (sta : ApSta) (lacksMemory : Bool) : ApVif :=
  if lacksMemory then ap
  else
    let ap := if ap.vmMainsta = some sta.staMacaddr then { ap with vmMainsta := none } else ap
    (nstaCleanup ap sta).1

/-- What `wifi_mac_sta_disconnect` undoes for older rules. -/
def leaveProtection (ap : ApVif) (sta : ApSta) (quiet : Bool) : WifiMac :=
  let mac := if sta.nodeHt && sta.node40Intolerant then wifiMacChangeCbw ap.mac else ap.mac
  let mac :=
    if wifinetInclude11g ap.vmMacMode then wifiMac11gRstParam mac sta quiet else mac
  wifiMacHtProt mac ap.vmMacMode sta .staDisconnect

def wifiMacStaDisconnect (ap : ApVif) (sta : ApSta) (quiet : Bool) : ApVif × ApSta :=
  if sta.staAssocid = 0 then (ap, sta)
  else
    let ap := { ap with
      vmAidBitmap := Bitmap.clrbit 32 ap.vmAidBitmap (wifinetAid sta.staAssocid)
      vmStaAssoc := ap.vmStaAssoc - 1 }
    let sta := { sta with staAssocid := 0 }
    ({ ap with mac := leaveProtection ap sta quiet }, sta)

def wifiMacStaDisconnectFromAp (ap : ApVif) (sta : ApSta) (env : LeaveEnv) : ApVif :=
  let left := wifiMacStaDisconnect ap sta env.quiet
  wifiMacFreeSta (left.1.listDel sta.staMacaddr) left.2 env.lacksMemory

/-- The loop of `wifi_mac_ap_rebuild_aid_state`, with the bitmap and the count so far. -/
def rebuildAids (vmMaxAid : Nat) (vmMainsta : Option Nat) :
    List Nat → Nat → List ApSta → List Nat × Nat × List ApSta
  | bitmap, count, [] => (bitmap, count, [])
  | bitmap, count, sta :: rest =>
    let aid := wifinetAid sta.staAssocid
    if vmMainsta = some sta.staMacaddr ∨ sta.staAssocid = 0 then
      let (bitmap, count, rest) := rebuildAids vmMaxAid vmMainsta bitmap count rest
      (bitmap, count, sta :: rest)
    else if aid = 0 ∨ vmMaxAid ≤ aid ∨ Bitmap.isset 32 bitmap aid = true then
      let (bitmap, count, rest) := rebuildAids vmMaxAid vmMainsta bitmap count rest
      (bitmap, count, { sta with staAssocid := 0 } :: rest)
    else
      let (bitmap, count, rest) :=
        rebuildAids vmMaxAid vmMainsta (Bitmap.setbit 32 bitmap aid) ((count + 1) % 65536) rest
      (bitmap, count, sta :: rest)

def wifiMacApRebuildAidState (ap : ApVif) : ApVif :=
  if !ap.ntInited then ap
  else
    let (bitmap, count, table) := rebuildAids ap.tim.vmMaxAid ap.vmMainsta
      (List.replicate ap.vmAidBitmap.length 0) 0 ap.ntNsta
    { ap with vmAidBitmap := bitmap, vmStaAssoc := count, ntNsta := table }

def findAid (ap : ApVif) : Option Nat :=
  Pool.firstFree 32 ap.vmAidBitmap 1 (ap.tim.vmMaxAid - 1)

/-- What `wifi_mac_sta_connect` does for older rules. -/
def joinProtection (ap : ApVif) (sta : ApSta) : ApVif × ApSta :=
  let (ap, sta) :=
    if sta.nodeHt && sta.node40Intolerant then
      ({ ap with vmBandwidth := wifinetBwcWidth20, mac := wifiMacChangeCbw ap.mac },
        { sta with staChbw := wifinetBwcWidth20, htcapCbw40 := false })
    else (ap, sta)
  let (mac, sta) :=
    if wifinetInclude11g ap.vmMacMode then wifiMac11gInitParam ap.mac sta else (ap.mac, sta)
  ({ ap with mac := wifiMacHtProt mac ap.vmMacMode sta .staConnect }, sta)

def grantAid (ap : ApVif) (sta : ApSta) (aid : Nat) : ApVif × ApSta :=
  ({ ap with
      vmAidBitmap := Bitmap.setbit 32 ap.vmAidBitmap (wifinetAid (aid ||| 0xc000))
      vmStaAssoc := (ap.vmStaAssoc + 1) % 65536 },
    { sta with staAssocid := aid ||| 0xc000 })

/-- What becomes of a request: no answer, one with a reason or status of failure, the one with
`WIFINET_REASON_ASSOC_TOOMANY`, one that could not be sent, or one of success. -/
inductive AssocAnswer where
  | dropped
  | refused (status : Nat)
  | toomany
  | unsent
  | accepted
  deriving DecidableEq, Repr

/-- The end of `wifi_mac_sta_connect`: the answer, and the station leaves again when that fails. -/
def answerAssoc (ap : ApVif) (sta : ApSta) (env : JoinEnv) : ApVif × AssocAnswer :=
  let sta := { sta with
    staUcastkey := none
    staInactReload := wifinetInactAuth
    staInact := wifinetInactAuth }
  if !env.sent then (wifiMacStaDisconnectFromAp ap sta env.leave, .unsent)
  else if env.chanErr then (wifiMacStaDisconnectFromAp ap sta env.leave, .accepted)
  else (ap.put sta, .accepted)

/-- The interface in which `wifi_mac_sta_connect` looks for an association id the last time. -/
def searchAid (ap : ApVif) : ApVif :=
  if (findAid ap).isSome then ap else wifiMacApRebuildAidState ap

/-- `wifi_mac_sta_connect` for a station of the table. -/
def wifiMacStaConnect (ap : ApVif) (sta : ApSta) (env : JoinEnv) : ApVif × AssocAnswer :=
  if sta.staAssocid = 0 then
    let ap := searchAid ap
    match findAid ap with
    | none => (wifiMacStaDisconnectFromAp ap sta env.leave, .toomany)
    | some aid =>
      let (ap, sta) := grantAid ap sta aid
      let (ap, sta) := joinProtection ap sta
      answerAssoc ap sta env
  else answerAssoc ap sta env

/-- `wifi_mac_TimeoutStations` for a station, which stays or is taken out of the table. -/
def timeoutStation (vmMainsta : Option Nat) (jiffies hz : Nat) (tim : TimVif) (sta : ApSta) :
    TimVif × Option ApSta :=
  if !sta.nodeAref then (tim, some sta)
  else
    let aged := ageFrames tim sta
    if jiffies < sta.staRstamp + 5 * hz then (aged.1, some aged.2)
    else if vmMainsta = some sta.staMacaddr then
      (aged.1, some { aged.2 with
        staInact := if 0 < sta.staInact then sta.staInact - 1 else sta.staInact })
    else if sta.staInact - 1 ≤ 0 then (aged.1, none)
    else (aged.1, some { aged.2 with staInact := sta.staInact - 1 })

def timeoutLoop (vmMainsta : Option Nat) (jiffies hz : Nat) :
    TimVif → List ApSta → TimVif × List ApSta
  | tim, [] => (tim, [])
  | tim, sta :: rest =>
    let (tim, kept) := timeoutStation vmMainsta jiffies hz tim sta
    let (tim, rest) := timeoutLoop vmMainsta jiffies hz tim rest
    (tim, kept.toList ++ rest)

def wifiMacTimeoutStations (ap : ApVif) (jiffies hz : Nat) : ApVif :=
  let (tim, table) := timeoutLoop ap.vmMainsta jiffies hz ap.tim ap.ntNsta
  { ap with tim := tim, ntNsta := table }

/-- A station of `wifi_mac_sta_table_rst` gives up its association id. -/
def clearAid (ap : ApVif) (sta : ApSta) : ApVif :=
  if sta.staAssocid = 0 then ap
  else { ap with vmAidBitmap := Bitmap.clrbit 32 ap.vmAidBitmap (wifinetAid sta.staAssocid) }

/-- The loop of `wifi_mac_sta_table_rst` over the stations of the interface, which it takes out of
the table except the main station; memory lacks for the entries of some. -/
def tableRstLoop (rstMainsta : Bool) (lacks : List Nat) : ApVif → List ApSta → ApVif
  | ap, [] => ap
  | ap, sta :: rest =>
    let ap := clearAid ap sta
    if ap.vmMainsta = some sta.staMacaddr ∧ rstMainsta = false then
      tableRstLoop rstMainsta lacks ap rest
    else
      tableRstLoop rstMainsta lacks
        (wifiMacFreeSta (ap.listDel sta.staMacaddr) sta (lacks.contains sta.staMacaddr)) rest

def wifiMacStaTableRst (ap : ApVif) (rstMainsta : Bool) (lacks : List Nat) : ApVif :=
  tableRstLoop rstMainsta lacks ap ap.ntNsta

def wifiMacClearStaTable (ap : ApVif) (lacks : List Nat) : ApVif :=
  if !ap.ntInited then ap
  else tableRstLoop true lacks { ap with ntInited := false } ap.ntNsta

def wifiMacRstBss (ap : ApVif) (lacks : List Nat) : ApVif :=
  let ap := wifiMacStaTableRst ap false lacks
  let ap := { ap with mac := wifiMacResetHt (wifiMacResetErp ap.mac ap.vmMacMode) }
  if ap.vmMainsta.isSome then { ap with vmPsSta := 0 }
  else
    match wifiMacGetStaNode ap ap.vmMyaddr with
    | (ap, none) => ap
    | (ap, some mainsta) => { ap with vmMainsta := some mainsta.staMacaddr, vmPsSta := 0 }

end W522a.Ap
