import W522a.Ie.ConsumersLaw
import W522a.Ie.Receive
import W522a.Ie.WalkLaw

/-!
When the receivers of management frames read inside of the elements, in whatever state they are: the
elements that they are given have to be as long as what their consumers read.
-/

namespace W522a.Ie

open Memory (Safe forSome onlyIf)

/-- The shortest element that every consumer of a beacon's pointer reads inside of, but for the
elements whose shape counts too. -/
def minLen : IeField → Nat
  | .ssid => 1
  | .htcap => 21
  | .htinfo => 2
  | .vhtCap => 12
  | .vhtOpt => 5
  | .vhtTxPwr => 5
  | .vhtExtBssLd => 6
  | .vhtQuietCh => 7
  | .vhtOptMdNtf => 1
  | .quiet => 4
  | .tim => 3
  | _ => 0

/-- The elements of a beacon are as long as their consumers take them to be. -/
structure BeaconLong (frame : MgmtFrame) (ie : IeField → Option Nat) : Prop where
  lengths : ∀ field frm, ie field = some frm → minLen field ≤ frame.ieLen frm
  doth : ∀ frm, ie .doth = some frm → frame.ieLen frm ≠ 2
  rsn : ∀ frm, ie .rsn = some frm → RsnReads (frame.view frm)
  chSw : ∀ frm, ie .vhtChSw = some frm → SubIesInside (frame.view frm)

/-- An IBSS says its ssid and has an HT information element, which are read unchecked. -/
def IbssReady (ie : IeField → Option Nat) (capinfo : Nat) : Prop :=
  capinfo / 2 % 2 = 1 → ie .htinfo ≠ none ∧ ie .ssid ≠ none

/-- What an association response makes of its elements, each of which is looked at with another. -/
structure AssocLong (frame : MgmtFrame) (ie : IeField → Option Nat) : Prop where
  ht : ∀ htcap, ie .htcap = some htcap → ∀ htinfo, ie .htinfo = some htinfo →
    21 ≤ frame.ieLen htcap ∧ 2 ≤ frame.ieLen htinfo ∧
      ((frame.byte (htcap + 5)).toNat % 128 ≠ 0 → 16 ≤ frame.ieLen htinfo)
  vht : ∀ vhtCap, ie .vhtCap = some vhtCap →
    12 ≤ frame.ieLen vhtCap ∧ ∀ vhtOpt, ie .vhtOpt = some vhtOpt → 5 ≤ frame.ieLen vhtOpt

/-- The kind of element that a parser of a VHT element is for. -/
def parsedKind : IeField → Option UInt8
  | .vhtCap => some 191
  | .vhtOpt => some 192
  | .vhtExtBssLd => some 193
  | .vhtTxPwr => some 195
  | .vhtChSw => some 196
  | .vhtQuietCh => some 198
  | _ => none

/-- The pointers are to elements of the kinds that their parsers are for. -/
def Kinds (frame : MgmtFrame) (ie : IeField → Option Nat) : Prop :=
  ∀ field frm kind, ie field = some frm → parsedKind field = some kind → frame.byte frm = kind

/-- A station that is connected to the sender, with every feature, and does not sleep. -/
def stationEnv (turns : Nat) : RecvEnv where
  opmode := .sta
  scanning := false
  protNone := true
  connected := true
  associating := true
  staAssocid := 1
  fromBss := true
  fromSta := false
  qosNode := true
  htNode := true
  vhtNode := true
  htEnabled := true
  mainsta := true
  sleeping := false
  ps4quiet := false
  capInfoCount := 0
  vmBcnIntval := 100
  channel := none
  findChan := fun _ _ _ => true
  joinChan := fun _ _ _ => true
  ratesMatch := true
  discard := false
  entries := []
  allocated := true
  stale := fun _ => 0
  ssidCleared := true
  ssidGiven := false
  roamingSsid := []
  ssSsid := []
  wraps := true
  turns := turns

/-- An interface that scans and does not know the sender. -/
def scanEnv (wraps : Bool) (stale : Nat → UInt8) : RecvEnv :=
  { stationEnv 0 with scanning := true, staAssocid := 0, wraps := wraps, stale := stale }

/-- An interface that joins an IBSS. -/
def ibssEnv : RecvEnv := { stationEnv 0 with opmode := .ibss }

section Use

variable {env : RecvEnv} {frame : MgmtFrame} {scan : ScanParam} {frm : Nat}

private theorem BeaconLong.toScan {ie : IeField → Option Nat} (long : BeaconLong frame ie) :
    ScanLong frame ie where
  ssid := long.lengths .ssid
  channel :=
    { htcap := fun frm stored => Nat.le_trans (by decide) (long.lengths .htcap frm stored)
      htinfo := long.lengths .htinfo
      vhtOpt := fun frm stored =>
        ⟨Nat.le_trans (by decide) (long.lengths .vhtOpt frm stored),
          fun _ => Nat.le_trans (by decide) (long.lengths .vhtOpt frm stored)⟩ }
  rsn := long.rsn
  tim := fun _ _ _ frm stored => Nat.le_trans (by decide) (long.lengths .tim frm stored)

private theorem vhtIeParseAll_safe (long : BeaconLong frame scan.ie) (kinds : Kinds frame scan.ie)
    (turns : Nat) : Safe (Look.Allowed frame) (vhtIeParseAll frame turns scan) := by
  rw [vhtIeParseAll]
  simp only [Memory.safe_bind, Memory.safe_forSome, Memory.safe_pure, and_true]
  refine ⟨fun frm stored => ?_, fun frm stored => ?_, fun frm stored => ?_, fun frm stored => ?_,
    fun frm stored => ?_, fun frm stored => ?_, fun frm stored => ?_⟩
  · exact (parseVhtCap_safe_iff (kinds _ _ _ stored rfl)).mpr (long.lengths _ _ stored)
  · exact (parseVhtOpt_safe_iff (kinds _ _ _ stored rfl)).mpr (long.lengths _ _ stored)
  · exact (parseVhtTxpw_safe_iff (kinds _ _ _ stored rfl)).mpr (long.lengths _ _ stored)
  · exact (parseVhtChSwWrp_safe_iff (kinds _ _ _ stored rfl)).mpr (long.chSw _ stored) turns
  · exact (parseVhtExtBssLd_safe_iff (kinds _ _ _ stored rfl)).mpr (long.lengths _ _ stored)
  · exact (parseVhtQuietCh_safe_iff (kinds _ _ _ stored rfl)).mpr (long.lengths _ _ stored)
  · exact parseVhtOpMdNtf_safe_iff.mpr (long.lengths _ _ stored)

private theorem stationBeacon_safe (long : BeaconLong frame scan.ie) (kinds : Kinds frame scan.ie) :
    Safe (Look.Allowed frame) (stationBeacon env frame scan) := by
  rw [stationBeacon]
  simp only [Memory.safe_bind, Memory.safe_forSome, Memory.safe_onlyIf, Memory.safe_pure, and_true]
  refine ⟨fun _ _ _ => parseWmeparams_safe _, fun frm stored => ?_,
    fun _ => ⟨fun frm stored => ?_, fun frm stored => ?_⟩, fun _ => vhtIeParseAll_safe long kinds _,
    fun frm stored => ?_, fun _ frm stored => ?_, fun _ frm stored => ?_⟩
  · exact (setQuiet_safe_iff _).mpr (long.lengths _ _ stored)
  · exact parseHtcap_safe_iff.mpr (long.lengths _ _ stored)
  · exact parseHtinfo_safe_iff.mpr (long.lengths _ _ stored)
  · exact parseDothparams_safe_iff.mpr (long.doth _ stored)
  · exact (timBits_safe_iff _).mpr (long.lengths _ _ stored)
  · exact timPeriod_safe_iff.mpr (Nat.le_trans (by decide) (long.lengths _ _ stored))

@[simp] theorem safe_lookVia {pointer : Option Nat} {offset : Nat} :
    Safe (Look.Allowed frame) (frame.lookVia pointer offset) ↔
      ∃ frm, pointer = some frm ∧ offset + 1 ≤ frame.ieLen frm + 2 := by
  cases pointer with
  | none => simp [MgmtFrame.lookVia, Look.Allowed]
  | some frm => simp [MgmtFrame.lookVia]

private theorem neighborWidth_safe (long : BeaconLong frame scan.ie)
    (htinfo : scan.ie .htinfo ≠ none) :
    Safe (Look.Allowed frame) (neighborWidth frame scan) := by
  obtain ⟨info, htinfo⟩ := Option.ne_none_iff_exists'.mp htinfo
  have size : 2 ≤ _ := long.lengths _ _ htinfo
  rw [neighborWidth]
  simp only [Memory.safe_bind, safe_lookVia, Memory.safe_forSome, safe_look_ie, Memory.safe_onlyIf]
  refine ⟨⟨info, htinfo, by omega⟩, fun frm stored => ?_, ?_⟩
  · have opt : 5 ≤ _ := long.lengths _ _ stored
    exact ⟨by omega, fun _ => by omega⟩
  · split
    next wide => exact Memory.safe_pure _
    next narrow => exact Memory.safe_pure _

private theorem recordNeighbor_safe (ssid : scan.ie .ssid ≠ none) :
    Safe (Look.Allowed frame) (recordNeighbor frame scan) := by
  obtain ⟨name, ssid⟩ := Option.ne_none_iff_exists'.mp ssid
  have len : (frame.lookVia (some name) 1).value.toNat = frame.ieLen name := rfl
  rw [recordNeighbor]
  simp only [Memory.safe_bind, safe_lookVia, Memory.safe_forSome, safe_lookBytes,
    Memory.safe_pure, and_true, ssid, len]
  refine ⟨⟨name, rfl, by omega⟩, ?_, saveAll_safe _, setupRates_safe _⟩
  rintro frm ⟨⟩
  exact Nat.le_of_eq (Nat.add_comm _ _)

private theorem addNeighbor_safe (long : BeaconLong frame scan.ie) (htinfo : scan.ie .htinfo ≠ none)
    (ssid : scan.ie .ssid ≠ none) :
    Safe (Look.Allowed frame) (wifiMacAddNeighbor env frame scan) := by
  rw [wifiMacAddNeighbor]
  simp only [Memory.safe_bind]
  refine ⟨neighborWidth_safe long htinfo, ?_⟩
  split
  next joined => exact recordNeighbor_safe ssid
  next apart => exact Memory.safe_pure _

/-- Elements that are long enough are read inside, whatever state the receiver is in. -/
theorem useElements_safe (long : BeaconLong frame scan.ie) (ready : IbssReady scan.ie scan.capinfo)
    (kinds : Kinds frame scan.ie) (env : RecvEnv) :
    Safe (Look.Allowed frame) (useElements env frame scan) := by
  rw [useElements]
  simp only [Memory.safe_bind, Memory.safe_forSome, Memory.safe_onlyIf]
  refine ⟨fun _ => ⟨fun ssid stored => ?_, fun _ => scanRx_safe _ long.toScan⟩, ?_⟩
  · exact updateRoaming_safe long.toScan.channel (long.toScan.ssid ssid stored)
  · split
    next known => exact Memory.safe_pure _
    next onward =>
      split
      next own => exact stationBeacon_safe long kinds
      next other =>
        simp only [Memory.safe_bind, Memory.safe_onlyIf, Memory.safe_pure, and_true]
        intro ibss
        obtain ⟨htinfo, ssid⟩ := ready ibss.2.1
        exact addNeighbor_safe long htinfo ssid

private theorem station_reads {turns : Nat}
    (safe : Safe (Look.Allowed frame) (useElements (stationEnv turns) frame scan)) :
    Safe (Look.Allowed frame) (stationBeacon (stationEnv turns) frame scan) := by
  rw [useElements, if_neg (fun known => Bool.false_ne_true known.1),
    if_pos ⟨rfl, Nat.one_ne_zero, rfl⟩] at safe
  exact (Memory.safe_bind.mp safe).2

/-- What is read of the elements by scans that find the channel. -/
theorem scanLong_of_reads (reads : ∀ wraps stale,
      (∀ ssid, scan.ie .ssid = some ssid → Safe (Look.Allowed frame)
        (wifiMacUpdateRoamingCandidateChan (scanEnv wraps stale) frame scan ssid)) ∧
      Safe (Look.Allowed frame) (wifiMacScanRx (scanEnv wraps stale) frame false scan)) :
    ScanLong frame scan.ie := by
  have entry := fun wraps stale => scanRx_long rfl rfl rfl (reads wraps stale).2
  obtain ⟨channel, rsn, -⟩ := entry true fun _ => 0
  refine ⟨fun ssid stored => ?_, channel, rsn, fun wraps stale => (entry wraps stale).2.2⟩
  exact updateRoaming_first rfl ((reads true fun _ => 0).1 ssid stored)

private theorem scan_reads (safe : ∀ wraps stale,
      Safe (Look.Allowed frame) (useElements (scanEnv wraps stale) frame scan)) :
    ScanLong frame scan.ie := by
  have reads : ∀ wraps stale,
      (∀ ssid, scan.ie .ssid = some ssid → Safe (Look.Allowed frame)
        (wifiMacUpdateRoamingCandidateChan (scanEnv wraps stale) frame scan ssid)) ∧
      Safe (Look.Allowed frame) (wifiMacScanRx (scanEnv wraps stale) frame false scan) := by
    intro wraps stale
    have scanned := safe wraps stale
    rw [useElements] at scanned
    simp only [Memory.safe_bind, Memory.safe_forSome, Memory.safe_onlyIf] at scanned
    exact ⟨(scanned.1 rfl).1, (scanned.1 rfl).2 rfl⟩
  exact scanLong_of_reads reads

theorem ibss_reads (safe : Safe (Look.Allowed frame) (useElements ibssEnv frame scan)) :
    IbssReady scan.ie scan.capinfo := by
  intro ibss
  rw [useElements, if_neg (fun known => Bool.false_ne_true known.1),
    if_neg (fun own => nomatch own.1)] at safe
  simp only [Memory.safe_bind, Memory.safe_onlyIf] at safe
  have joined := safe.2.1 ⟨rfl, ibss, rfl⟩
  rw [wifiMacAddNeighbor] at joined
  simp only [Memory.safe_bind] at joined
  obtain ⟨width, record⟩ := joined
  rw [if_pos (show ibssEnv.joinChan _ _ _ = true from rfl)] at record
  simp only [neighborWidth, recordNeighbor, Memory.safe_bind, safe_lookVia] at width record
  obtain ⟨⟨htinfo, info, -⟩, -⟩ := width
  obtain ⟨⟨ssid, name, -⟩, -⟩ := record
  exact ⟨by simp [info], by simp [name]⟩

/-- Elements that are read inside by a connected station and by a scan are long enough. -/
theorem beaconLong_of_safe (kinds : Kinds frame scan.ie)
    (station : ∀ turns, Safe (Look.Allowed frame) (useElements (stationEnv turns) frame scan))
    (scanned : ∀ wraps stale,
      Safe (Look.Allowed frame) (useElements (scanEnv wraps stale) frame scan)) :
    BeaconLong frame scan.ie := by
  have taken := scan_reads scanned
  have reads := fun turns => station_reads (station turns)
  simp only [stationBeacon, vhtIeParseAll, Memory.safe_bind, Memory.safe_forSome,
    Memory.safe_onlyIf, Memory.safe_pure, and_true] at reads
  obtain ⟨-, quiet, ht, vht, doth, tim, -⟩ := reads 0
  obtain ⟨vhtCap, vhtOpt, txPwr, -, extBssLd, quietCh, optMdNtf⟩ := vht rfl
  constructor
  case lengths =>
    intro field frm stored
    cases field with
    | ssid => exact taken.ssid frm stored
    | quiet => exact (setQuiet_safe_iff _).mp (quiet frm stored)
    | htcap => exact parseHtcap_safe_iff.mp ((ht rfl).1 frm stored)
    | htinfo => exact parseHtinfo_safe_iff.mp ((ht rfl).2 frm stored)
    | tim => exact (timBits_safe_iff _).mp (tim ⟨rfl, rfl⟩ frm stored)
    | vhtCap => exact (parseVhtCap_safe_iff (kinds _ _ _ stored rfl)).mp (vhtCap frm stored)
    | vhtOpt => exact (parseVhtOpt_safe_iff (kinds _ _ _ stored rfl)).mp (vhtOpt frm stored)
    | vhtTxPwr => exact (parseVhtTxpw_safe_iff (kinds _ _ _ stored rfl)).mp (txPwr frm stored)
    | vhtExtBssLd =>
      exact (parseVhtExtBssLd_safe_iff (kinds _ _ _ stored rfl)).mp (extBssLd frm stored)
    | vhtQuietCh =>
      exact (parseVhtQuietCh_safe_iff (kinds _ _ _ stored rfl)).mp (quietCh frm stored)
    | vhtOptMdNtf => exact parseVhtOpMdNtf_safe_iff.mp (optMdNtf frm stored)
    | _ => exact Nat.zero_le _
  case doth =>
    intro frm stored
    exact parseDothparams_safe_iff.mp (doth frm stored)
  case rsn => exact taken.rsn
  case chSw =>
    intro frm stored
    apply (parseVhtChSwWrp_safe_iff (kinds _ _ _ stored rfl)).mp
    intro turns
    obtain ⟨-, -, -, vht, -⟩ := reads turns
    exact (vht rfl).2.2.2.1 frm stored

private theorem oldEntry_safe {ssid : Nat} (entries : List (List UInt8)) (old : Bool) :
    Safe (Look.Allowed frame) (oldEntry env frame ssid entries old) := by
  induction entries generalizing old with
  | nil => exact Memory.safe_pure _
  | cons entry rest induction =>
    rw [oldEntry]
    simp only [Memory.safe_bind, safe_look_ie, value_look_ie]
    refine ⟨by omega, ?_⟩
    split
    next sized =>
      simp only [Memory.safe_bind, safe_lookBytes]
      refine ⟨Nat.le_of_eq (Nat.zero_add _), ?_⟩
      split
      next same =>
        split
        next connected => exact Memory.safe_pure _
        next apart => exact induction true
      next other => exact induction old
    next other => exact induction old

theorem useResponse_safe (long : ScanLong frame scan.ie) (env : RecvEnv) :
    Safe (Look.Allowed frame) (useResponse env frame scan) := by
  rw [useResponse]
  simp only [Memory.safe_bind, Memory.safe_forSome]
  refine ⟨fun ssid stored => ?_, fun ssid _ => oldEntry_safe _ _, ?_⟩
  · exact updateRoaming_safe long.channel (long.ssid ssid stored)
  · split
    next fresh => exact scanRx_safe false long
    next joined => exact Memory.safe_pure _
    next old _ => exact scanRx_safe old long

theorem response_reads (safe : ∀ wraps stale,
      Safe (Look.Allowed frame) (useResponse (scanEnv wraps stale) frame scan)) :
    ScanLong frame scan.ie := by
  have reads : ∀ wraps stale,
      (∀ ssid, scan.ie .ssid = some ssid → Safe (Look.Allowed frame)
        (wifiMacUpdateRoamingCandidateChan (scanEnv wraps stale) frame scan ssid)) ∧
      Safe (Look.Allowed frame) (wifiMacScanRx (scanEnv wraps stale) frame false scan) := by
    intro wraps stale
    have scanned := safe wraps stale
    rw [useResponse] at scanned
    simp only [Memory.safe_bind, Memory.safe_forSome] at scanned
    refine ⟨scanned.1, ?_⟩
    have entered := scanned.2.2
    cases stored : scan.ie .ssid with
    | none => simpa [stored] using entered
    | some ssid => simpa [stored, oldEntry, scanEnv, stationEnv] using entered
  exact scanLong_of_reads reads

theorem assocElements_safe (long : AssocLong frame scan.ie) (kinds : Kinds frame scan.ie)
    (env : RecvEnv) : Safe (Look.Allowed frame) (assocElements env frame scan) := by
  rw [assocElements]
  simp only [Memory.safe_bind, Memory.safe_forSome, Memory.safe_onlyIf, Memory.safe_pure, and_true]
  refine ⟨fun _ _ => parseWmeparams_safe _, fun _ htcap cap htinfo info => ?_,
    fun vhtCap stored => ⟨?_, fun vhtOpt opt => ?_, fun frm _ => ?_⟩⟩
  · obtain ⟨caps, infos, basic⟩ := long.ht htcap cap htinfo info
    refine ⟨parseHtcap_safe_iff.mpr caps, parseHtinfo_safe_iff.mpr infos,
      setupHtRates_safe_iff.mpr (by omega), (setupBasicHtRates_safe_iff _).mpr ?_⟩
    intro rates
    exact basic (mt setupHtRates_value.mpr rates)
  · exact (parseVhtCap_safe_iff (kinds _ _ _ stored rfl)).mpr (long.vht vhtCap stored).1
  · exact (parseVhtOpt_safe_iff (kinds _ _ _ opt rfl)).mpr ((long.vht vhtCap stored).2 vhtOpt opt)
  · simp only [safe_look_ie, value_look_ie, parseVhtOpMdNtf_safe_iff]
    exact ⟨by omega, fun one => one⟩

theorem assocLong_of_safe (kinds : Kinds frame scan.ie) (enabled : env.htEnabled = true)
    (safe : Safe (Look.Allowed frame) (assocElements env frame scan)) :
    AssocLong frame scan.ie := by
  rw [assocElements] at safe
  simp only [Memory.safe_bind, Memory.safe_forSome, Memory.safe_onlyIf, Memory.safe_pure,
    and_true] at safe
  obtain ⟨-, ht, vht⟩ := safe
  constructor
  case ht =>
    intro htcap cap htinfo info
    obtain ⟨caps, infos, -, basic⟩ := ht enabled htcap cap htinfo info
    refine ⟨parseHtcap_safe_iff.mp caps, parseHtinfo_safe_iff.mp infos, fun rates => ?_⟩
    exact (setupBasicHtRates_safe_iff _).mp basic (mt setupHtRates_value.mp rates)
  case vht =>
    intro vhtCap stored
    obtain ⟨cap, opt, -⟩ := vht vhtCap stored
    refine ⟨(parseVhtCap_safe_iff (kinds _ _ _ stored rfl)).mp cap, fun vhtOpt found => ?_⟩
    exact (parseVhtOpt_safe_iff (kinds _ _ _ found rfl)).mp (opt vhtOpt found)

end Use

section Accept

variable {cfgMacMode : Nat} {env : RecvEnv} {frame : MgmtFrame} {scan : ScanParam} {frm : Nat}
  {use : ScanParam → Reader Unit}

/-- The elements of a pointer, if there is one, are no longer than they may be. -/
def AtMost (frame : MgmtFrame) (pointer : Option Nat) (maxlen : Nat) : Prop :=
  ∀ frm, pointer = some frm → frame.ieLen frm ≤ maxlen

theorem verifyElement_safe (pointer : Option Nat) (maxlen : Nat) :
    Safe (Look.Allowed frame) (verifyElement frame pointer maxlen) := by
  rw [verifyElement]
  simp only [Memory.safe_bind, Memory.safe_forSome, safe_look_ie, Memory.safe_pure, and_true]
  intro frm stored
  omega

theorem verifyElement_value (pointer : Option Nat) (maxlen : Nat) :
    (verifyElement frame pointer maxlen).value = true ↔ AtMost frame pointer maxlen := by
  rw [verifyElement, AtMost]
  simp only [Memory.value_bind, Memory.value_forSome, Memory.value_pure, value_look_ie]
  cases pointer with
  | none => simp
  | some frm => simp [MgmtFrame.ieLen]

theorem beaconChan_safe : Safe (Look.Allowed frame) (beaconChan env frame scan) ↔
    (scan.chan = 0 → ∀ frm, scan.ie .vhtOpt = some frm → 2 ≤ frame.ieLen frm) := by
  rw [beaconChan]
  split
  next unnamed =>
    rw [forall_prop_of_true unnamed]
    split
    next frm stored =>
      simp [stored]
    next absent =>
      simp [absent]
  next named => simp [named]

/-- What a frame has to be for its elements to be used. -/
structure Acceptable (frame : MgmtFrame) (ie : IeField → Option Nat) (chan : Nat) : Prop where
  chan : chan ≤ 165
  rates : AtMost frame (ie .rates) 57
  xrates : AtMost frame (ie .xrates) 57
  ssid : AtMost frame (ie .ssid) 32

theorem acceptElements_safe : Safe (Look.Allowed frame) (acceptElements env frame use scan) ↔
    Safe (Look.Allowed frame) (beaconChan env frame scan) ∧
      (Acceptable frame scan.ie (beaconChan env frame scan).value →
        Safe (Look.Allowed frame) (use { scan with chan := (beaconChan env frame scan).value })) := by
  rw [acceptElements]
  simp only [Memory.safe_bind]
  refine and_congr_right fun _ => ?_
  split
  next high =>
    exact iff_of_true (Memory.safe_pure _) fun accepted => absurd accepted.chan (by omega)
  next low =>
    simp only [Memory.safe_bind, verifyElement_safe, true_and]
    split
    next rates =>
      simp only [Memory.safe_bind, verifyElement_safe, true_and]
      split
      next xrates =>
        simp only [Memory.safe_bind, verifyElement_safe, true_and]
        rw [verifyElement_value] at rates xrates
        split
        next ssid =>
          rw [verifyElement_value] at ssid
          have accepted : Acceptable frame scan.ie (beaconChan env frame scan).value :=
            ⟨Nat.le_of_not_lt low, rates, xrates, ssid⟩
          exact ⟨fun safe _ => safe, fun safe => safe accepted⟩
        next ssid =>
          rw [verifyElement_value] at ssid
          exact iff_of_true (Memory.safe_pure _) fun accepted => absurd accepted.ssid ssid
      next xrates =>
        rw [verifyElement_value] at xrates
        exact iff_of_true (Memory.safe_pure _) fun accepted => absurd accepted.xrates xrates
    next rates =>
      rw [verifyElement_value] at rates
      exact iff_of_true (Memory.safe_pure _) fun accepted => absurd accepted.rates rates

/-- The part of `wifi_mac_recv_assoc_rsp` behind the walk reads inside, in whatever state the
interface is, when the elements are long enough for the rates to be set up. -/
theorem acceptResponse_iff (kinds : Kinds frame scan.ie) :
    (∀ env : RecvEnv, env.opmode = .sta ∧ env.associating →
      Safe (Look.Allowed frame) (acceptResponse env frame scan)) ↔
      (scan.statusCode = 0 → AtMost frame (scan.ie .rates) 57 → AtMost frame (scan.ie .xrates) 57 →
        AssocLong frame scan.ie) := by
  constructor
  case mp =>
    intro safe ok rates xrates
    have reads := safe (stationEnv 0) ⟨rfl, rfl⟩
    rw [acceptResponse, if_neg (not_not.mpr ok)] at reads
    simp only [Memory.safe_bind, (verifyElement_value _ _).mpr rates, if_true] at reads
    simp only [Memory.safe_bind, (verifyElement_value _ _).mpr xrates, if_true] at reads
    exact assocLong_of_safe kinds rfl reads.2.2.2
  case mpr =>
    intro long env _
    rw [acceptResponse]
    split
    next refused => exact Memory.safe_pure _
    next ok =>
      simp only [Memory.safe_bind, verifyElement_safe, true_and]
      split
      next rates =>
        simp only [Memory.safe_bind, verifyElement_safe, true_and]
        split
        next xrates =>
          rw [verifyElement_value] at rates xrates
          simp only [Memory.safe_bind, setupRates_safe, true_and]
          split
          next matched => exact assocElements_safe (long (not_not.mp ok) rates xrates) kinds env
          next apart => exact Memory.safe_pure _
        next xrates => exact Memory.safe_pure _
      next rates => exact Memory.safe_pure _

end Accept

section Frame

variable {cfgMacMode : Nat} {env : RecvEnv} {frame : MgmtFrame} {scan : ScanParam} {frm : Nat}

private theorem vendorField_kind {field : IeField}
    (stored : (vendorField frame frm).value = some field) :
    parsedKind field = none := by
  rw [vendorField] at stored
  simp only [Memory.value_bind] at stored
  split at stored
  next => cases stored; rfl
  next =>
    simp only [Memory.value_bind] at stored
    split at stored
    next => cases stored; rfl
    next =>
      simp only [Memory.value_bind] at stored
      split at stored
      next => cases stored; rfl
      next =>
        simp only [Memory.value_bind] at stored
        split at stored
        next => cases stored; rfl
        next => cases stored

private theorem plainField_kind {id : Nat} {field : IeField} {kind : UInt8}
    (stored : plainField cfgMacMode id = some field) (parsed : parsedKind field = some kind) :
    id = kind.toNat := by
  revert stored parsed
  fun_cases plainField cfgMacMode id
  all_goals rintro ⟨⟩
  all_goals rintro ⟨⟩
  all_goals rfl

private theorem storedField_kind {field : IeField} {kind : UInt8}
    (stored : storedField cfgMacMode frame frm = some field)
    (parsed : parsedKind field = some kind) : frame.byte frm = kind := by
  rw [storedField] at stored
  split at stored
  next => cases stored; cases parsed
  next =>
    rw [vendorField_kind stored] at parsed
    cases parsed
  next =>
    split at stored
    next => cases stored; cases parsed
    next => cases stored
  next => exact UInt8.toNat_inj.mp (plainField_kind stored parsed)

theorem designated_kinds (cfgMacMode : Nat) (frame : MgmtFrame) :
    Kinds frame (designated cfgMacMode frame) := by
  intro field frm kind stored parsed
  have matched := (Tlv.lastWhere_mem stored).2
  exact storedField_kind (of_decide_eq_true matched) parsed

def elementsChan (cfgMacMode : Nat) (frame : MgmtFrame) : Nat :=
  if namedChan cfgMacMode frame = 0 then
    ((designated cfgMacMode frame .vhtOpt).map fun frm => (frame.byte (frm + 3)).toNat).getD 0
  else namedChan cfgMacMode frame

/-- A complete frame with a channel that there is, and no rates or ssid that are too long. -/
def Usable (cfgMacMode : Nat) (frame : MgmtFrame) : Prop :=
  Complete frame ∧
    Acceptable frame (designated cfgMacMode frame) (elementsChan cfgMacMode frame)

/-- The channel is that of the elements, or else that of the reception. -/
theorem beaconChan_value (named : scan.chan = namedChan cfgMacMode frame)
    (stored : scan.ie = designated cfgMacMode frame) :
    elementsChan cfgMacMode frame ≤ (beaconChan env frame scan).value ∧
      (env.channel = none → (beaconChan env frame scan).value = elementsChan cfgMacMode frame) := by
  rw [beaconChan, elementsChan, named, stored]
  split
  next unnamed =>
    cases designated cfgMacMode frame .vhtOpt with
    | some frm => exact ⟨Nat.le_refl _, fun _ => rfl⟩
    | none => exact ⟨Nat.zero_le _, fun dark => by simp [dark]⟩
  next chosen => exact ⟨Nat.le_refl _, fun _ => rfl⟩

/-- Every HT information element that the walk takes has a first byte. -/
def HtinfoHeads (cfgMacMode : Nat) (frame : MgmtFrame) : Prop :=
  ∀ elem ∈ walked frame,
    (frame.byte elem).toNat = 61 → cfg11n ≤ cfgMacMode → 1 ≤ frame.ieLen elem

/-- The elements of a beacon or a probe response are as long as the walk, the choice of a channel
and, if the frame is used, its consumers take them to be. -/
structure TakenLong (cfgMacMode : Nat) (frame : MgmtFrame) (long : Prop) : Prop where
  walk : HtinfoHeads cfgMacMode frame
  chan : Complete frame → namedChan cfgMacMode frame = 0 →
    ∀ frm, designated cfgMacMode frame .vhtOpt = some frm → 2 ≤ frame.ieLen frm
  uses : Usable cfgMacMode frame → long

/-- The receivers of beacons and of probe responses read inside, in whatever state they are that
looks at the frame, when what follows the choice of the channel does. -/
theorem recvElements_iff {use : RecvEnv → ScanParam → Reader Unit} {heeds : RecvEnv → Prop}
    {long : Prop} (heeded : heeds (scanEnv true fun _ => 0))
    (sound : long → ∀ env later, later.ie = designated cfgMacMode frame →
      later.fixed = fixedPart frame → Safe (Look.Allowed frame) (use env later))
    (complete : ∀ later, later.ie = designated cfgMacMode frame →
      later.fixed = fixedPart frame →
      (∀ env, heeds env → env.channel = none → Safe (Look.Allowed frame) (use env later)) → long) :
    (∀ env, heeds env →
      Safe (Look.Allowed frame) (recvElements env frame cfgMacMode (use env))) ↔
      TakenLong cfgMacMode frame long := by
  obtain ⟨pointers, named, whole⟩ := pktParse_value cfgMacMode frame
  have stored := funext pointers
  have fixed := pktParse_fixed cfgMacMode frame
  have walk := pktParse_safe cfgMacMode frame
  have reads : ∀ env, Safe (Look.Allowed frame) (recvElements env frame cfgMacMode (use env)) ↔
      Safe (Look.Allowed frame) (wifiMacPktParseElement cfgMacMode frame) ∧
        (Complete frame → Safe (Look.Allowed frame) (acceptElements env frame (use env)
          (wifiMacPktParseElement cfgMacMode frame).value.2)) := by
    intro env
    rw [recvElements, ← whole]
    simp only [Memory.safe_bind]
    refine and_congr_right fun _ => ?_
    cases (wifiMacPktParseElement cfgMacMode frame).value.1 with
    | true => simp
    | false => simp
  generalize (wifiMacPktParseElement cfgMacMode frame).value.2 = scan at *
  simp only [reads, acceptElements_safe]
  constructor
  case mp =>
    intro safe
    constructor
    case walk => exact walk.mp (safe _ heeded).1
    case chan =>
      intro done unnamed frm found
      rw [← stored] at found
      exact beaconChan_safe.mp ((safe _ heeded).2 done).1 (named.trans unnamed) frm found
    case uses =>
      rintro ⟨done, acceptable⟩
      apply complete { scan with chan := elementsChan cfgMacMode frame } stored fixed
      intro env heed dark
      have taken := ((safe env heed).2 done).2
      rw [(beaconChan_value named stored).2 dark, stored] at taken
      rw [stored]
      exact taken acceptable
  case mpr =>
    intro taken env heed
    refine ⟨walk.mpr taken.walk, fun done => ⟨beaconChan_safe.mpr fun unnamed frm found => ?_, ?_⟩⟩
    · rw [stored] at found
      exact taken.chan done (named.symm.trans unnamed) frm found
    · intro acceptable
      rw [stored] at acceptable
      have chan := Nat.le_trans (beaconChan_value named stored).1 acceptable.chan
      have long := taken.uses
        ⟨done, chan, acceptable.rates, acceptable.xrates, acceptable.ssid⟩
      exact sound long env _ stored fixed

theorem recvBeacon_iff :
    (∀ env, Safe (Look.Allowed frame) (wifiMacRecvBeacon env frame cfgMacMode)) ↔
      TakenLong cfgMacMode frame (BeaconLong frame (designated cfgMacMode frame) ∧
        IbssReady (designated cfgMacMode frame) (fixedPart frame).1) := by
  have law : (∀ env : RecvEnv, env.Heeds → Safe (Look.Allowed frame)
      (recvElements env frame cfgMacMode (useElements env frame))) ↔
      TakenLong cfgMacMode frame (BeaconLong frame (designated cfgMacMode frame) ∧
        IbssReady (designated cfgMacMode frame) (fixedPart frame).1) := by
    apply recvElements_iff
    case heeded => exact .inl rfl
    case sound =>
      rintro ⟨long, ready⟩ env later stored fixed
      have kinds := designated_kinds cfgMacMode frame
      rw [← stored, ← fixed] at ready
      rw [← stored] at long kinds
      exact useElements_safe long ready kinds env
    case complete =>
      intro later stored fixed safe
      have kinds := designated_kinds cfgMacMode frame
      rw [← stored] at kinds
      rw [← stored, ← fixed]
      refine ⟨beaconLong_of_safe kinds (fun turns => ?_) fun wraps stale => ?_, ?_⟩
      · exact safe _ (.inr (.inr (.inl ⟨rfl, Nat.one_ne_zero⟩))) rfl
      · exact safe _ (.inl rfl) rfl
      · exact ibss_reads (safe _ (.inr (.inr (.inr rfl))) rfl)
  rw [← law]
  refine forall_congr' fun env => ?_
  rw [wifiMacRecvBeacon]
  simp only [Memory.safe_bind, Memory.safe_onlyIf, Memory.safe_pure, and_true]

private theorem recvProbersp_iff :
    (∀ env, Safe (Look.Allowed frame) (wifiMacRecvProbersp env frame cfgMacMode)) ↔
      TakenLong cfgMacMode frame (ScanLong frame (designated cfgMacMode frame)) := by
  have law : (∀ env : RecvEnv, env.scanning = true → Safe (Look.Allowed frame)
      (recvElements env frame cfgMacMode (useResponse env frame))) ↔
      TakenLong cfgMacMode frame (ScanLong frame (designated cfgMacMode frame)) := by
    apply recvElements_iff
    case heeded => rfl
    case sound =>
      intro long env later stored _
      rw [← stored] at long
      exact useResponse_safe long env
    case complete =>
      intro later stored _ safe
      rw [← stored]
      exact response_reads fun wraps stale => safe _ rfl rfl
  rw [← law]
  refine forall_congr' fun env => ?_
  rw [wifiMacRecvProbersp]
  simp only [Memory.safe_bind, Memory.safe_onlyIf, Memory.safe_pure, and_true]

/-- The elements of an association response are as long as the walk and, if the rates are set up,
their consumers take them to be. It does not matter whether the frame is complete. -/
structure AssocTaken (cfgMacMode : Nat) (frame : MgmtFrame) : Prop where
  walk : HtinfoHeads cfgMacMode frame
  uses : (fixedPart frame).2 = 0 → AtMost frame (designated cfgMacMode frame .rates) 57 →
    AtMost frame (designated cfgMacMode frame .xrates) 57 →
    AssocLong frame (designated cfgMacMode frame)

private theorem recvAssocRsp_iff :
    (∀ env, Safe (Look.Allowed frame) (wifiMacRecvAssocRsp env frame cfgMacMode)) ↔
      AssocTaken cfgMacMode frame := by
  obtain ⟨pointers, -, -⟩ := pktParse_value cfgMacMode frame
  have stored := funext pointers
  have status := congrArg Prod.snd (pktParse_fixed cfgMacMode frame)
  have kinds := designated_kinds cfgMacMode frame
  rw [← stored] at kinds
  have law := acceptResponse_iff kinds
  have reads : ∀ env : RecvEnv,
      Safe (Look.Allowed frame) (wifiMacRecvAssocRsp env frame cfgMacMode) ↔
        (env.opmode = .sta ∧ env.associating →
          Safe (Look.Allowed frame) (wifiMacPktParseElement cfgMacMode frame) ∧
          Safe (Look.Allowed frame) (acceptResponse env frame
            (wifiMacPktParseElement cfgMacMode frame).value.2)) := by
    intro env
    rw [wifiMacRecvAssocRsp]
    simp only [Memory.safe_bind, Memory.safe_onlyIf, Memory.safe_pure, and_true]
  rw [stored] at law
  simp only [reads]
  constructor
  case mp =>
    intro safe
    constructor
    case walk => exact (pktParse_safe cfgMacMode frame).mp (safe (stationEnv 0) ⟨rfl, rfl⟩).1
    case uses =>
      intro ok
      exact law.mp (fun env heeds => (safe env heeds).2) (status.trans ok)
  case mpr =>
    intro taken env heeds
    refine ⟨(pktParse_safe cfgMacMode frame).mpr taken.walk, law.mpr ?_ env heeds⟩
    intro ok
    exact taken.uses (status.symm.trans ok)

structure ElementsLong (cfgMacMode : Nat) (frame : MgmtFrame) : Prop where
  beacon : frame.subtype = 0x80 →
    TakenLong cfgMacMode frame (BeaconLong frame (designated cfgMacMode frame) ∧
      IbssReady (designated cfgMacMode frame) (fixedPart frame).1)
  probersp : frame.subtype = 0x50 →
    TakenLong cfgMacMode frame (ScanLong frame (designated cfgMacMode frame))
  assocRsp : frame.subtype = 0x10 ∨ frame.subtype = 0x30 → AssocTaken cfgMacMode frame

/-- Every pointer that the walk stores is to an element that lies wholly inside of the frame, and
in whatever state the receiver is, it reads inside of the elements. -/
def ElementsInside (cfgMacMode : Nat) (frame : MgmtFrame) : Prop :=
  (∀ field frm, (wifiMacPktParseElement cfgMacMode frame).value.2.ie field = some frm →
    wifiFrameLen ≤ frm ∧ frm + frame.ieLen frm + 2 ≤ frame.pktlen) ∧
  ∀ env, Safe (Look.Allowed frame) (wifiMacRecvMgmt env frame cfgMacMode)

/-- The elements of a management frame are consumed in bounds exactly when they are as long as what
is read of them. -/
theorem elements_inside_iff (cfgMacMode : Nat) (frame : MgmtFrame) :
    ElementsInside cfgMacMode frame ↔ ElementsLong cfgMacMode frame := by
  have pointers := (pktParse_value cfgMacMode frame).1
  rw [ElementsInside, and_iff_right fun field frm found =>
    designated_inside ((pointers field).symm.trans found)]
  simp only [wifiMacRecvMgmt]
  split
  next beacon =>
    rw [recvBeacon_iff]
    exact ⟨fun long => ⟨fun _ => long, by omega, by omega⟩, fun long => long.beacon beacon⟩
  next probersp =>
    rw [recvProbersp_iff]
    exact ⟨fun long => ⟨by omega, fun _ => long, by omega⟩, fun long => long.probersp probersp⟩
  next assocRsp =>
    rw [recvAssocRsp_iff]
    exact ⟨fun long => ⟨by omega, by omega, fun _ => long⟩, fun long => long.assocRsp (.inl assocRsp)⟩
  next reassocRsp =>
    rw [recvAssocRsp_iff]
    exact ⟨fun long => ⟨by omega, by omega, fun _ => long⟩,
      fun long => long.assocRsp (.inr reassocRsp)⟩
  next beacon probersp assocRsp reassocRsp =>
    refine iff_of_true (fun _ => Memory.safe_pure _) ⟨fun id => ?_, fun id => ?_, fun id => ?_⟩
    · exact absurd id beacon
    · exact absurd id probersp
    · exact absurd id (not_or.mpr ⟨assocRsp, reassocRsp⟩)

end Frame

/-- A beacon with its fixed fields and a TIM that has no body. -/
def emptyTim : MgmtFrame := ⟨0x80 :: List.replicate 35 0 ++ [5, 0]⟩

/-- Whoever takes this beacon for its own looks for the map behind the end of the frame. -/
theorem elements_outside : ¬ ElementsInside cfg11ac emptyTim := by
  intro inside
  have reads : 4 + 1 ≤ emptyTim.ieLen 36 + 2 :=
    inside.2 (stationEnv 0) (.ie 36 4 1) (by decide)
  have length : emptyTim.ieLen 36 = 0 := rfl
  omega

end W522a.Ie
