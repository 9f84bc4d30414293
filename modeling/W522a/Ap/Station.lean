import W522a.Ap.Rsn
import W522a.Ap.Tim
import W522a.Lib.Keyed
import W522a.Lib.Pool

/-!
An access point and the stations of its table: what it keeps of each station, of the interface and of
the radio that the interfaces share.
-/

namespace W522a.Ap

/-- `struct wifi_station`, as an access point uses it. The flags of `sta_flags` and `sta_flags_ext`
are fields, the frames of `sta_pstxqueue` stand for their ages, and a key for its cipher. -/
structure ApSta where
  staMacaddr : Nat
  staAssocid : Nat
  nodeAref : Bool
  staRstamp : Nat
  staInact : Int
  staInactReload : Int
  nodePwrMgt : Bool
  staListenIntval : Nat
  staPstxqueue : List Nat
  staCapinfo : Nat
  staRates : List Nat
  staHtrates : List Nat
  nodeErp : Bool
  nodeHt : Bool
  nodeVht : Bool
  nodeQos : Bool
  nodeUapsd : Bool
  htcapCbw40 : Bool
  node40Intolerant : Bool
  staChbw : Nat
  staRsn : Rsnparms
  authSae : Bool
  nodeMfp : Bool
  nodeReassoc : Bool
  staWmeIe : Bool
  staUcastkey : Option Nat
  deriving DecidableEq

/-- `WIFINET_BWC_WIDTH20` to `WIFINET_BWC_WIDTH80` -/
@[simp] abbrev wifinetBwcWidth20 : Nat := 0

@[simp] abbrev wifinetBwcWidth40 : Nat := 1

@[simp] abbrev wifinetBwcWidth80 : Nat := 2

/-- `WIFINET_HTINFO_OPMODE_PURE`, `WIFINET_HTINFO_OPMODE_MIXED_PROT_OPT` and
`WIFINET_HTINFO_OPMODE_MIXED_PROT_ALL` -/
@[simp] abbrev htinfoOpmodePure : Nat := 0

@[simp] abbrev htinfoOpmodeMixedProtOpt : Nat := 1

@[simp] abbrev htinfoOpmodeMixedProtAll : Nat := 3

def wifinetInclude11g (mode : Nat) : Bool :=
  mode == 3 || mode == 7 || (mode == 2 || mode == 6 || mode == 14)

def wifinetInclude11n (mode : Nat) : Bool := decide (4 ≤ mode)

/-- `struct wifi_mac`: the stations that older rules protect, counted in sixteen bits, and what is
set for them. `ifRunUp` is `NET80211_IF_RUN_UP`. -/
structure WifiMac where
  capShslot : Bool
  capShpreamble : Bool
  protNone : Bool
  ifRunUp : Bool
  wmNopened : Nat
  wmLongslotsta : Nat
  wmNonerpsta : Nat
  wmNonHtSta : Nat
  wmHt20Sta : Nat
  wmHtProtSm : Nat
  shslot : Bool
  useprot : Bool
  usebarker : Bool
  shpreamble : Bool
  nonhtAp : Bool
  erpupdate : Bool
  htupdate : Bool
  coextDisable : Bool
  deriving DecidableEq

/-- `struct wlan_net_vif` of an access point with `vm_sta_tbl`, and the radio. `psqueueHeld` is
`WIFINET_PSQUEUE_OPPS` or `WIFINET_PSQUEUE_NOA` in `vm_pstxqueue_flags`; the association ids in
`tim.vmMaxAid` are those of the interface. -/
structure ApVif where
  vmMainsta : Option Nat
  vmMyaddr : Nat
  vmMacMode : Nat
  vmBandwidth : Nat
  vmBcnIntval : Nat
  psqueueHeld : Bool
  vmAidBitmap : List Nat
  vmStaAssoc : Nat
  vmPsSta : Nat
  tim : TimVif
  mac : WifiMac
  ntInited : Bool
  ntNsta : List ApSta
  deriving DecidableEq

def ApVif.getSta (ap : ApVif) (macaddr : Nat) : Option ApSta :=
  Keyed.find ApSta.staMacaddr ap.ntNsta macaddr

def ApVif.put (ap : ApVif) (sta : ApSta) : ApVif :=
  { ap with ntNsta := Keyed.replace ApSta.staMacaddr ap.ntNsta sta }

/-- `list_del_init` -/
def ApVif.listDel (ap : ApVif) (macaddr : Nat) : ApVif :=
  { ap with ntNsta := Keyed.remove ApSta.staMacaddr ap.ntNsta macaddr }

/-- `WIFINET_INACT_INIT`, `WIFINET_INACT_AUTH` and `WIFINET_INACT_RUN` -/
@[simp] abbrev wifinetInactInit : Int := 30

@[simp] abbrev wifinetInactAuth : Int := 180

@[simp] abbrev wifinetInactRun : Int := 300

/-- What `memset` leaves of the parameters. -/
def noRsn : Rsnparms where
  rsnMcastcipher := 0
  rsnMcastkeylen := 0
  rsnUcastcipherset := 0
  rsnUcastcipher := 0
  rsnUcastkeylen := 0
  rsnKeymgmtset := 0
  rsnCaps := 0
  rsnCapsOffset := 0
  rsnPmkidCount := 0
  rsnPmkidOffset := 0
  rsnPmkid := []
  rsnGmcipher := 0

/-- The station that `wifi_mac_get_new_sta_node` allocates. -/
def newSta (macaddr : Nat) : ApSta where
  staMacaddr := macaddr
  staAssocid := 0
  nodeAref := false
  staRstamp := 0
  staInact := wifinetInactInit
  staInactReload := wifinetInactInit
  nodePwrMgt := false
  staListenIntval := 0
  staPstxqueue := []
  staCapinfo := 0
  staRates := []
  staHtrates := []
  nodeErp := false
  nodeHt := false
  nodeVht := false
  nodeQos := false
  nodeUapsd := false
  htcapCbw40 := false
  node40Intolerant := false
  staChbw := wifinetBwcWidth20
  staRsn := noRsn
  authSae := false
  nodeMfp := false
  nodeReassoc := false
  staWmeIe := false
  staUcastkey := none

/-- `wifi_mac_get_sta_node`: the station of the table, or a new one at its end, unless the table is
gone. -/
def wifiMacGetStaNode (ap : ApVif) (macaddr : Nat) : ApVif × Option ApSta :=
  if !ap.ntInited then (ap, none)
  else
    match ap.getSta macaddr with
    | some sta => (ap, some sta)
    | none => ({ ap with ntNsta := ap.ntNsta ++ [newSta macaddr] }, some (newSta macaddr))

/-- `wifi_mac_bup_bss`, which gives the station the parameters of the main station. -/
def wifiMacBupBss (ap : ApVif) (macaddr : Nat) : ApVif × Option ApSta :=
  match ap.vmMainsta.bind ap.getSta with
  | none => (ap, none)
  | some mainsta =>
    match wifiMacGetStaNode ap macaddr with
    | (ap, none) => (ap, none)
    | (ap, some sta) =>
      let sta := { sta with authSae := mainsta.authSae, staRsn := mainsta.staRsn }
      (ap.put sta, some sta)

end W522a.Ap
