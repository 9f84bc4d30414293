import W522a.Lib.Keyed
import W522a.Lib.Run

/-!
Management frames that a link with protected management frames receives unprotected: the SA Query
procedure they start, its retries by the timer `vm_actsend`, and its end by a response.
-/

namespace W522a.Mac

/-- `vm_opmode`, the two modes that link with protection. -/
inductive SaOpmode where
  | sta
  | hostap
  deriving DecidableEq, Repr

/-- `WIFINET_AUTH_OPEN`, `WIFINET_AUTH_SHARED` and `WIFINET_AUTH_SAE`. -/
inductive AuthMode where
  | openSystem
  | shared
  | sae
  deriving DecidableEq, Repr

/-- The record of the other end of a link. -/
structure SaStation where
  staMacaddr : Nat
  /-- `WIFINET_NODE_MFP_CONFIRM_DEAUTH` in `sta_flags_ext` -/
  confirmDeauth : Bool
  saQuerySeq : UInt16
  saQueryTryCount : UInt16
  deriving DecidableEq, Repr

/-- What an interface has of these links. In station mode its one record is `vm_mainsta`; an
access point has those of `vm_sta_tbl` with an association id, by which the handler finds a sender
whether or not it negotiated protection. -/
structure SaVif where
  opmode : SaOpmode
  /-- `vm_state == WIFINET_S_CONNECTED` -/
  connected : Bool
  stations : List SaStation
  /-- `vm_actsend` is armed. -/
  actsend : Bool
  /-- `wifi_mac_sm_switch` to `WIFINET_S_SCAN` is queued. -/
  smSwitch : Bool
  /-- `sta_authmode` of `vm_mainsta` -/
  authmode : AuthMode
  /-- `rsn_keymgmtset` of `vm_mainsta` has `RSN_ASE_8021X_SAE`. -/
  keymgmtSae : Bool
  privacy : Bool
  wpa : Bool
  counterm : Bool
  deriving DecidableEq, Repr

/-- The subtypes of a management frame, with what the handlers read of them. -/
inductive UnprotectedFrame where
  | deauth
  | disassoc
  /-- `denied`: the frame is short or its sender is not allowed by the ACL. -/
  | auth (denied : Bool) (authType status : Nat)
  | assocReq
  | reassocReq
  | action (robust : Bool)
  | beacon
  | other
  deriving DecidableEq, Repr

abbrev Queries := Nat → Option UInt16

def noQueries : Queries := fun _ => none

/-- `wifi_mac_send_sa_query` with `sa_query_seq++`. -/
def SaStation.query (sta : SaStation) : SaStation :=
  { sta with saQuerySeq := sta.saQuerySeq + 1 }

/-- `sa_query_try_count++` after a query. -/
def SaStation.retry (sta : SaStation) : SaStation :=
  { sta.query with saQueryTryCount := sta.saQueryTryCount + 1 }

/-- The part of `wifi_mac_unprotected_mgmt_pkt_handle` that both modes share: without the flag it
is set, a query is sent and the timer is started. -/
def startConfirm (vif : SaVif) (sta : SaStation) : SaVif × Queries :=
  if sta.confirmDeauth then (vif, noQueries)
  else
    ({ vif with
        stations := Keyed.replace SaStation.staMacaddr vif.stations
          { sta.query with confirmDeauth := true }
        actsend := true },
      fun addr => if addr = sta.staMacaddr then some sta.saQuerySeq else none)

/-- `wifi_mac_unprotected_mgmt_pkt_handle` for a frame of a linked station. A frame for which it
returns true is handled further. -/
def wifiMacUnprotectedMgmtPktHandle (vif : SaVif) (sta : SaStation) (isBmc : Bool)
    (frame : UnprotectedFrame) : Bool × SaVif × Queries :=
  match vif.opmode with
  | .sta =>
    if isBmc ∧ frame ≠ .beacon then (false, vif, noQueries)
    else
      match frame with
      | .deauth | .disassoc => (false, startConfirm vif sta)
      | .action robust => (!robust, vif, noQueries)
      | _ => (true, vif, noQueries)
  | .hostap =>
    match frame with
    | .auth .. | .assocReq | .reassocReq => (false, startConfirm vif sta)
    | _ => (false, vif, noQueries)

/-- `wifi_mac_top_sm` to `WIFINET_S_SCAN`. A connected access point refuses it. A station leaves
its link, and `wifi_mac_rst_main_sta` resets the flags and the parameters of its record. -/
def topSmScan (vif : SaVif) : SaVif :=
  if vif.opmode = .sta ∧ vif.connected then
    { vif with
      connected := false
      authmode := .openSystem
      keymgmtSae := false
      stations := vif.stations.map fun sta => { sta with confirmDeauth := false } }
  else vif

/-- `wifi_mac_status_code_handle` for an authentication frame. -/
def wifiMacStatusCodeHandle (vif : SaVif) (status : Nat) : SaVif :=
  if status = 53 ∧ vif.keymgmtSae ∧ vif.authmode = .openSystem then
    -- `wifi_mac_top_sm` to `WIFINET_S_AUTH` with the status as its argument
    { vif with authmode := .sae, connected := false }
  else if status = 13 then { vif with authmode := .shared }
  else vif

/-- `wifi_mac_recv_auth` of a connected station. The handlers of the algorithms wait for
`WIFINET_S_AUTH`. -/
def wifiMacRecvAuth (vif : SaVif) (denied : Bool) (authType status : Nat) : SaVif :=
  if denied ∨ vif.counterm then vif
  else if vif.privacy ∧ ¬ vif.wpa ∧ vif.authmode = .shared ∧ status = 13 then
    { vif with authmode := .openSystem }
  else if vif.privacy ∧ ¬ vif.wpa ∧ vif.authmode = .openSystem ∧ status ≠ 0 then topSmScan vif
  else if authType ≠ 3 ∧ status ≠ 0 then wifiMacStatusCodeHandle vif status
  else vif

/-- `wifi_mac_recv_mgmt` for what a station lets through unprotected. Of these subtypes only
authentication moves the state of a connected station. -/
def wifiMacRecvMgmt (vif : SaVif) (frame : UnprotectedFrame) : SaVif :=
  match vif.opmode, frame with
  | .sta, .auth denied authType status => wifiMacRecvAuth vif denied authType status
  | _, _ => vif

/-- The management branch of `wifi_mac_input` for an unprotected frame. -/
def wifiMacInput (vif : SaVif) (addr : Nat) (isBmc : Bool) (frame : UnprotectedFrame) :
    SaVif × Queries :=
  match Keyed.find SaStation.staMacaddr vif.stations addr with
  | none => (vif, noQueries)
  | some sta =>
    if vif.connected then
      match wifiMacUnprotectedMgmtPktHandle vif sta isBmc frame with
      | (true, handled, queries) => (wifiMacRecvMgmt handled frame, queries)
      | (false, handled, queries) => (handled, queries)
    else (vif, noQueries)

/-- The response of the SA Query branch of `wifi_mac_recv_action`. The identifier is compared
with the sequence number less one as integers. -/
def recvSaQueryRsp (vif : SaVif) (addr : Nat) (transactionIdentifier : UInt16) : SaVif :=
  match Keyed.find SaStation.staMacaddr vif.stations addr with
  | none => vif
  | some sta =>
    if (transactionIdentifier.toNat : Int) = (sta.saQuerySeq.toNat : Int) - 1 then
      { vif with
        stations := Keyed.replace SaStation.staMacaddr vif.stations
          { sta with confirmDeauth := false, saQueryTryCount := 0 } }
    else vif

def saTryMax : SaOpmode → UInt16
  | .sta => 20
  | .hostap => 10

/-- A record after `wifi_mac_act_tx_timeout`. An access point frees a record that has no retry
left. -/
def actTxStation (opmode : SaOpmode) (sta : SaStation) : Option SaStation :=
  if sta.confirmDeauth then
    match opmode with
    | .sta => some sta.retry
    | .hostap => if sta.saQueryTryCount < saTryMax .hostap then some sta.retry else none
  else some sta

def wifiMacActTxTimeout (vif : SaVif) : SaVif × Queries :=
  let flagged := vif.stations.filter SaStation.confirmDeauth
  ({ vif with
      stations := vif.stations.filterMap (actTxStation vif.opmode)
      actsend := flagged.any fun sta => sta.saQueryTryCount < saTryMax vif.opmode
      smSwitch := vif.smSwitch ||
        (vif.opmode = .sta && flagged.any fun sta => !(sta.saQueryTryCount < saTryMax .sta)) },
    fun addr => (Keyed.find SaStation.staMacaddr flagged addr).map SaStation.saQuerySeq)

/-- The record of a new link, from `alloc_sta_node`. -/
def newStation (addr : Nat) : SaStation := ⟨addr, false, 0, 0⟩

/-- A link is set up. In station mode `wifi_mac_connect` makes a new main station, once the work
that was queued before is done. -/
def linkUp (vif : SaVif) (addr : Nat) (authmode : AuthMode) (keymgmtSae privacy wpa : Bool) :
    SaVif :=
  match vif.opmode with
  | .sta =>
    if vif.connected ∨ vif.smSwitch then vif
    else
      { vif with
        connected := true
        stations := [newStation addr]
        authmode := authmode
        keymgmtSae := keymgmtSae
        privacy := privacy
        wpa := wpa }
  | .hostap =>
    if addr ∈ vif.stations.map SaStation.staMacaddr then vif
    else { vif with stations := vif.stations ++ [newStation addr] }

def linkDown (vif : SaVif) (addr : Nat) : SaVif :=
  match vif.opmode with
  | .sta => if addr ∈ vif.stations.map SaStation.staMacaddr then topSmScan vif else vif
  | .hostap => { vif with stations := Keyed.remove SaStation.staMacaddr vif.stations addr }

inductive SaEvent where
  | unprotected (addr : Nat) (isBmc : Bool) (frame : UnprotectedFrame)
  | response (addr : Nat) (transactionIdentifier : UInt16)
  | timeout
  | smSwitch
  | linkUp (addr : Nat) (authmode : AuthMode) (keymgmtSae privacy wpa : Bool)
  | linkDown (addr : Nat)
  deriving DecidableEq, Repr

def SaVif.step (vif : SaVif) : SaEvent → SaVif × Queries
  | .unprotected addr isBmc frame => wifiMacInput vif addr isBmc frame
  | .response addr identifier => (recvSaQueryRsp vif addr identifier, noQueries)
  | .timeout => if vif.actsend then wifiMacActTxTimeout vif else (vif, noQueries)
  | .smSwitch =>
    if vif.smSwitch then ({ topSmScan vif with smSwitch := false }, noQueries)
    else (vif, noQueries)
  | .linkUp addr authmode keymgmtSae privacy wpa =>
    (linkUp vif addr authmode keymgmtSae privacy wpa, noQueries)
  | .linkDown addr => (linkDown vif addr, noQueries)

/-- An interface without links. An access point is connected to itself. -/
def SaVif.start (opmode : SaOpmode) (counterm : Bool) : SaVif :=
  ⟨opmode, opmode = .hostap, [], false, false, .openSystem, false, false, false, counterm⟩

end W522a.Mac
