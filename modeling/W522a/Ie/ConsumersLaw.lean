import W522a.Ie.Consumers
import W522a.Ie.WalkLaw

/-!
When a consumer of an element reads inside of it: most take their element to be as long as it should
be, and each has a shortest element that it is safe with.
-/

namespace W522a.Ie

open Ap (clearedRsn)
open Memory (Access InBounds Safe forSome onlyIf)

section Consumers

variable {frame : MgmtFrame} {frm : Nat}

private theorem acParams_safe (left place : Nat) (inside : place + 4 * left ≤ frame.ieLen frm + 2) :
    Safe (Look.Allowed frame) (acParams frame frm left place) := by
  induction left generalizing place with
  | zero => exact Memory.safe_pure _
  | succ left induction =>
    rw [acParams]
    simp only [Memory.safe_bind, safe_look_ie, safe_look16, Memory.safe_pure, and_true]
    exact ⟨by omega, by omega, by omega, induction (place + 4) (by omega)⟩

theorem parseWmeparams_safe (capInfoCount : Nat) :
    Safe (Look.Allowed frame) (wifiMacParseWmeparams frame capInfoCount frm) := by
  rw [wifiMacParseWmeparams]
  simp only [Memory.safe_bind, safe_look_ie, value_look_ie]
  refine ⟨by omega, ?_⟩
  split
  next short => exact Memory.safe_pure _
  next long =>
    have len : 24 ≤ frame.ieLen frm := Nat.le_of_not_lt long
    simp only [Memory.safe_bind, safe_look_ie]
    refine ⟨by omega, ?_⟩
    split
    next known => exact Memory.safe_pure _
    next fresh =>
      simp only [Memory.safe_bind, Memory.safe_pure, and_true]
      exact acParams_safe 4 10 (by omega)

theorem setQuiet_safe_iff (vmBcnIntval : Nat) :
    Safe (Look.Allowed frame) (wifiMacSetQuiet frame vmBcnIntval frm) ↔ 4 ≤ frame.ieLen frm := by
  rw [wifiMacSetQuiet]
  simp only [Memory.safe_bind, safe_look_ie, Memory.safe_pure, and_true]
  omega

theorem parseHtcap_safe_iff :
    Safe (Look.Allowed frame) (wifiMacParseHtcap frame frm) ↔ 21 ≤ frame.ieLen frm := by
  rw [wifiMacParseHtcap]
  simp only [Memory.safe_bind, safe_look_ie, safe_look16, Memory.safe_pure, and_true]
  omega

theorem parseHtinfo_safe_iff :
    Safe (Look.Allowed frame) (wifiMacParseHtinfo frame frm) ↔ 2 ≤ frame.ieLen frm := by
  simp [wifiMacParseHtinfo]

/-- An element of the kind that its parser is for. -/
theorem ofKind_safe {Value : Type} {elemId : UInt8} {program : Reader Value}
    (kind : frame.byte frm = elemId) :
    Safe (Look.Allowed frame) (ofKind frame elemId frm program) ↔
      Safe (Look.Allowed frame) program := by
  simp [ofKind, kind]

theorem parseVhtCap_safe_iff (kind : frame.byte frm = 191) :
    Safe (Look.Allowed frame) (wifiMacParseVhtCap frame frm) ↔ 12 ≤ frame.ieLen frm := by
  rw [wifiMacParseVhtCap, ofKind_safe kind]
  simp only [Memory.safe_bind, safe_look32, safe_look16, Memory.safe_pure, and_true]
  omega

theorem parseVhtOpt_safe_iff (kind : frame.byte frm = 192) :
    Safe (Look.Allowed frame) (wifiMacParseVhtOpt frame frm) ↔ 5 ≤ frame.ieLen frm := by
  rw [wifiMacParseVhtOpt, ofKind_safe kind]
  simp only [Memory.safe_bind, safe_look_ie, safe_look16, Memory.safe_pure, and_true]
  omega

theorem parseVhtTxpw_safe_iff (kind : frame.byte frm = 195) :
    Safe (Look.Allowed frame) (wifiMacParseVhtTxpw frame frm) ↔ 5 ≤ frame.ieLen frm := by
  rw [wifiMacParseVhtTxpw, ofKind_safe kind]
  simp only [Memory.safe_bind, safe_look_ie, Memory.safe_pure, and_true]
  omega

theorem parseVhtExtBssLd_safe_iff (kind : frame.byte frm = 193) :
    Safe (Look.Allowed frame) (wifiMacParseVhtExtBssLd frame frm) ↔ 6 ≤ frame.ieLen frm := by
  rw [wifiMacParseVhtExtBssLd, ofKind_safe kind]
  simp only [Memory.safe_bind, safe_look_ie, safe_look16, Memory.safe_pure, and_true]
  omega

theorem parseVhtQuietCh_safe_iff (kind : frame.byte frm = 198) :
    Safe (Look.Allowed frame) (wifiMacParseVhtQuietCh frame frm) ↔ 7 ≤ frame.ieLen frm := by
  rw [wifiMacParseVhtQuietCh, ofKind_safe kind]
  simp only [Memory.safe_bind, safe_look_ie, safe_look16, Memory.safe_pure, and_true]
  omega

theorem parseVhtOpMdNtf_safe_iff :
    Safe (Look.Allowed frame) (wifiMacParseVhtOpMdNtf frame frm) ↔ 1 ≤ frame.ieLen frm := by
  simp [wifiMacParseVhtOpMdNtf]

theorem parseVhtChSwWrp_safe_iff (kind : frame.byte frm = 196) :
    (∀ turns, Safe (Look.Allowed frame) (parseVhtChSwWrp frame turns frm)) ↔
      SubIesInside (frame.view frm) := by
  rw [← chSwLoop_inside_iff]
  refine forall_congr' fun turns => ?_
  have wrapper : frame.view frm 0 = elemidChanSwitchWrap := kind
  rw [← parse_safe clearedSubIe wrapper, parseVhtChSwWrp, Memory.safe_relabel]
  constructor
  · intro allowed access member
    exact ⟨Nat.zero_le _, allowed access member _ rfl⟩
  · rintro inside access member look ⟨⟩
    exact (inside access member).2

theorem parseDothparams_safe_iff :
    Safe (Look.Allowed frame) (wifiMacParseDothparams frame frm) ↔ frame.ieLen frm ≠ 2 := by
  rw [wifiMacParseDothparams]
  simp only [Memory.safe_bind, safe_look_ie, value_look_ie]
  rw [and_iff_right (by omega)]
  change Safe _ (if frame.ieLen frm < 4 - 2 then _ else _) ↔ _
  split
  next short => exact iff_of_true (Memory.safe_pure _) (by omega)
  next long =>
    simp only [Memory.safe_bind, safe_look_ie, Memory.safe_pure, and_true]
    omega

theorem timBits_safe_iff (staAssocid : Nat) :
    Safe (Look.Allowed frame) (timBits frame staAssocid frm) ↔ 3 ≤ frame.ieLen frm := by
  rw [timBits]
  simp only [Memory.safe_bind, safe_look_ie, value_look_ie]
  constructor
  · intro reads
    omega
  · intro long
    refine ⟨by omega, by omega, ?_⟩
    split
    next covered =>
      have len : (frame.byte (frm + 1)).toNat = frame.ieLen frm := rfl
      simp only [Memory.safe_bind, safe_look_ie, Memory.safe_pure, and_true]
      omega
    next apart => exact Memory.safe_pure _

theorem timPeriod_safe_iff :
    Safe (Look.Allowed frame) (timPeriod frame frm) ↔ 2 ≤ frame.ieLen frm := by
  simp [timPeriod]

theorem saveie_safe : Safe (Look.Allowed frame) (saveie frame frm) := by
  rw [saveie]
  simp only [Memory.safe_bind, safe_look_ie, safe_lookBytes, value_look_ie]
  exact ⟨by omega, Nat.le_of_eq (Nat.zero_add _)⟩

theorem copyRates_safe : Safe (Look.Allowed frame) (copyRates frame frm) := by
  have len : (frame.byte (frm + 1)).toNat = frame.ieLen frm := rfl
  rw [copyRates]
  simp only [Memory.safe_bind, safe_look_ie, safe_lookBytes, value_look_ie, Memory.safe_pure,
    and_true]
  omega

theorem setupRates_safe (scan : ScanParam) :
    Safe (Look.Allowed frame) (wifiMacSetupRates frame scan) := by
  rw [wifiMacSetupRates]
  simp only [Memory.safe_bind, Memory.safe_forSome, safe_look_ie, safe_lookBytes, value_look_ie,
    Memory.safe_pure, and_true]
  refine ⟨fun frm _ => ⟨by omega, Nat.le_of_eq (Nat.add_comm _ _)⟩, fun frm _ => ⟨by omega, ?_⟩⟩
  have len : (frame.byte (frm + 1)).toNat = frame.ieLen frm := rfl
  split
  next much => omega
  next few => omega

theorem setupHtRates_safe_iff :
    Safe (Look.Allowed frame) (wifiMacSetupHtRates frame frm) ↔ 13 ≤ frame.ieLen frm := by
  rw [wifiMacSetupHtRates]
  simp only [Memory.safe_bind, safe_lookBytes, Memory.safe_pure, and_true]
  omega

theorem setupHtRates_value :
    (wifiMacSetupHtRates frame frm).value = [] ↔ (frame.byte (frm + 5)).toNat % 128 = 0 := by
  have bits : (wifiMacSetupHtRates frame frm).value =
      (List.range 7).filter fun rate => (frame.byte (frm + 5)).toNat.testBit rate := rfl
  rw [bits, List.filter_eq_nil_iff]
  simp only [List.mem_range, Bool.not_eq_true]
  constructor
  · intro none
    apply Nat.eq_of_testBit_eq
    intro rate
    rw [Nat.testBit_mod_two_pow _ 7, Nat.zero_testBit]
    by_cases low : rate < 7
    · rw [none rate low, Bool.and_false]
    · simp [low]
  · intro none rate low
    have bit := Nat.testBit_mod_two_pow (frame.byte (frm + 5)).toNat 7 rate
    rw [show 2 ^ 7 = 128 from rfl, none, Nat.zero_testBit] at bit
    simpa [low] using bit.symm

theorem setupBasicHtRates_safe_iff (htrates : List Nat) :
    Safe (Look.Allowed frame) (wifiMacSetupBasicHtRates frame htrates frm) ↔
      (htrates ≠ [] → 16 ≤ frame.ieLen frm) := by
  rw [wifiMacSetupBasicHtRates]
  split
  next none => simp [none]
  next some =>
    simp only [Memory.safe_bind, safe_lookBytes, Memory.safe_pure, and_true, some, ne_eq,
      not_false_eq_true, true_implies]
    omega

end Consumers

/-- What the search for the channel of a sender takes its elements to be. -/
structure ChannelLong (frame : MgmtFrame) (ie : IeField → Option Nat) : Prop where
  htcap : ∀ frm, ie .htcap = some frm → 2 ≤ frame.ieLen frm
  htinfo : ∀ frm, ie .htinfo = some frm → 2 ≤ frame.ieLen frm
  vhtOpt : ∀ frm, ie .vhtOpt = some frm →
    1 ≤ frame.ieLen frm ∧ (frame.byte (frm + 2) ≠ 0 → 2 ≤ frame.ieLen frm)

/-- The saved RSN element, if there is one, is parsed without an error. -/
def RsnPasses (frame : MgmtFrame) (ie : IeField → Option Nat) (wraps : Bool)
    (stale : Nat → UInt8) : Prop :=
  ∀ frm, ie .rsn = some frm → (savedRsn frame wraps stale frm).value.1 = 0

/-- What a scan takes its elements to be. The TIM comes behind the RSN element, which has to pass. -/
structure ScanLong (frame : MgmtFrame) (ie : IeField → Option Nat) : Prop where
  ssid : ∀ frm, ie .ssid = some frm → 1 ≤ frame.ieLen frm
  channel : ChannelLong frame ie
  rsn : ∀ frm, ie .rsn = some frm → RsnReads (frame.view frm)
  tim : ∀ wraps stale, RsnPasses frame ie wraps stale →
    ∀ frm, ie .tim = some frm → 2 ≤ frame.ieLen frm

section Scan

variable {env : RecvEnv} {frame : MgmtFrame} {scan : ScanParam} {ssid frm : Nat}

private theorem vhtWidth_safe_iff (ht : Nat × Int) :
    Safe (Look.Allowed frame) (vhtWidth frame frm ht) ↔
      1 ≤ frame.ieLen frm ∧ (frame.byte (frm + 2) ≠ 0 → 2 ≤ frame.ieLen frm) := by
  rw [vhtWidth]
  simp only [Memory.safe_bind, safe_look_ie, value_look_ie]
  refine and_congr (by omega) ?_
  have zero : frame.byte (frm + 2) ≠ 0 ↔ 1 ≤ (frame.byte (frm + 2)).toNat := by
    rw [Nat.one_le_iff_ne_zero, ne_eq, ne_eq, ← UInt8.toNat_inj]
    rfl
  rw [zero]
  split
  next wide =>
    simp only [Memory.safe_bind, safe_look_ie, Memory.safe_pure, and_true, wide, true_implies]
    omega
  next narrow => simp [narrow]

private theorem htWidth_safe_iff : Safe (Look.Allowed frame) (htWidth frame scan) ↔
    (∀ frm, scan.ie .htcap = some frm → 2 ≤ frame.ieLen frm) ∧
      ∀ frm, scan.ie .htinfo = some frm → 2 ≤ frame.ieLen frm := by
  rw [htWidth]
  simp only [Memory.safe_bind, Memory.safe_forSome, safe_look16]
  refine and_congr (by simp only [Nat.add_le_add_iff_right]) ?_
  split
  next absent => simp [absent]
  next found stored =>
    simp only [Memory.safe_bind, safe_look_ie]
    constructor
    · rintro ⟨inside, -⟩ frm same
      cases stored.symm.trans same
      omega
    · intro long
      have size := long found stored
      refine ⟨by omega, ?_⟩
      split
      next wide =>
        simp only [Memory.safe_bind, safe_look_ie]
        exact ⟨by omega, Memory.safe_choice _ _⟩
      next narrow => exact Memory.safe_pure _

theorem getApChannel_safe_iff :
    Safe (Look.Allowed frame) (wifiMacScanStaGetApChannel env frame scan) ↔
      ChannelLong frame scan.ie := by
  rw [wifiMacScanStaGetApChannel]
  simp only [Memory.safe_bind, Memory.safe_forSome, htWidth_safe_iff, vhtWidth_safe_iff]
  constructor
  · rintro ⟨⟨htcap, htinfo⟩, vhtOpt, -⟩
    exact ⟨htcap, htinfo, vhtOpt⟩
  · intro long
    refine ⟨⟨long.htcap, long.htinfo⟩, long.vhtOpt, ?_⟩
    split
    next found => exact Memory.safe_pure _
    next missing =>
      simp only [Memory.safe_bind, Memory.safe_forSome, safe_look_ie]
      refine ⟨fun frm stored => ?_, Memory.safe_choice _ _⟩
      have size := long.htinfo frm stored
      omega

theorem updateRoaming_safe (channel : ChannelLong frame scan.ie) (first : 1 ≤ frame.ieLen ssid) :
    Safe (Look.Allowed frame) (wifiMacUpdateRoamingCandidateChan env frame scan ssid) := by
  rw [wifiMacUpdateRoamingCandidateChan]
  simp only [Memory.safe_bind, safe_look_ie, value_look_ie]
  refine ⟨by omega, getApChannel_safe_iff.mpr channel, ?_⟩
  split
  next found =>
    simp only [Memory.safe_bind, safe_look_ie]
    refine ⟨by omega, ?_⟩
    split
    next named =>
      simp only [Memory.safe_bind, safe_lookBytes, Memory.safe_pure, and_true]
      exact Nat.le_of_eq (Nat.add_comm _ _)
    next hidden => exact Memory.safe_pure _
  next missing => exact Memory.safe_pure _

/-- With a channel that is found the first byte of the ssid is read, also of a hidden one. -/
theorem updateRoaming_first
    (found : (wifiMacScanStaGetApChannel env frame scan).value = true)
    (safe : Safe (Look.Allowed frame)
      (wifiMacUpdateRoamingCandidateChan env frame scan ssid)) : 1 ≤ frame.ieLen ssid := by
  rw [wifiMacUpdateRoamingCandidateChan] at safe
  simp only [Memory.safe_bind, safe_look_ie, found, if_true] at safe
  have inside := safe.2.2.1
  omega

private theorem scanRsn_value (frm : Nat) :
    (scanRsn env frame frm).value = (savedRsn frame env.wraps env.stale frm).value.1 := rfl

theorem scanRsn_safe_iff (frm : Nat) :
    Safe (Look.Allowed frame) (scanRsn env frame frm) ↔ RsnReads (frame.view frm) := by
  have len_eq : (savedIe frame env.stale frm 1).toNat = frame.ieLen frm := by
    rw [savedIe, if_pos (by omega), MgmtFrame.ieLen]
  have agree : ∀ place < (frame.view frm 1).toNat + Ap.ieHdrLen,
      savedIe frame env.stale frm place = frame.view frm place := by
    intro place inside
    exact if_pos inside
  rw [scanRsn, ← rsnReads_congr agree, ← counterpartRsn_reads_iff env.wraps clearedRsn]
  simp only [savedRsn, Memory.safe_bind, Memory.safe_relabel, Memory.safe_pure, and_true]
  rw [and_iff_right saveie_safe, len_eq]
  constructor
  · intro allowed event member
    have named := allowed event member
    cases event with
    | read access => exact ⟨Nat.zero_le _, named _ rfl⟩
    | spend left count => trivial
    | apply count present => trivial
  · intro within event member look named
    have inside := within event member
    cases event with
    | read access =>
      cases named
      exact inside.2
    | spend left count => cases named
    | apply count present => cases named

private theorem saveSsid_safe : Safe (Look.Allowed frame) (saveSsid env frame ssid) := by
  rw [saveSsid]
  simp only [Memory.safe_bind, safe_look_ie, value_look_ie, Memory.safe_onlyIf, safe_lookBytes]
  refine ⟨by omega, fun _ => ?_⟩
  show 0 + (2 + frame.ieLen ssid) ≤ _
  omega

private theorem ssidWanted_safe (wanted : List (List UInt8)) :
    Safe (Look.Allowed frame) (ssidWanted frame ssid wanted) := by
  induction wanted with
  | nil => exact Memory.safe_pure _
  | cons name rest induction =>
    rw [ssidWanted]
    simp only [Memory.safe_bind, safe_look_ie, value_look_ie]
    refine ⟨by omega, ?_⟩
    split
    next compared =>
      simp only [Memory.safe_bind, safe_lookBytes]
      refine ⟨Nat.le_of_eq (Nat.add_comm _ _), ?_⟩
      split
      next same => exact Memory.safe_pure _
      next other => exact induction
    next apart => exact induction

theorem saveAll_safe (fields : List IeField) :
    Safe (Look.Allowed frame) (saveAll frame scan fields) := by
  induction fields with
  | nil => exact Memory.safe_pure _
  | cons field rest induction =>
    rw [saveAll]
    simp only [Memory.safe_bind, Memory.safe_forSome]
    exact ⟨fun _ _ => saveie_safe, induction⟩

theorem scanEntry_safe_iff : Safe (Look.Allowed frame) (scanEntry env frame scan) ↔
    ∀ frm, scan.ie .tim = some frm → 2 ≤ frame.ieLen frm := by
  rw [scanEntry]
  simp only [Memory.safe_bind, Memory.safe_forSome, Memory.safe_pure, and_true, saveAll_safe,
    saveSsid_safe, copyRates_safe, ssidWanted_safe, timPeriod_safe_iff, implies_true, true_and]

theorem scanRx_safe (old : Bool) (long : ScanLong frame scan.ie) :
    Safe (Look.Allowed frame) (wifiMacScanRx env frame old scan) := by
  rw [wifiMacScanRx]
  split
  next dropped => exact Memory.safe_pure _
  next kept =>
    simp only [Memory.safe_bind]
    refine ⟨getApChannel_safe_iff.mpr long.channel, ?_⟩
    split
    next found =>
      split
      next entry =>
        simp only [Memory.safe_bind, Memory.safe_forSome]
        refine ⟨fun frm stored => (scanRsn_safe_iff frm).mpr (long.rsn frm stored), ?_⟩
        split
        next failed => exact Memory.safe_pure _
        next passed =>
          apply scanEntry_safe_iff.mpr
          apply long.tim env.wraps env.stale
          intro frm stored
          rw [← scanRsn_value]
          simpa [stored] using passed
      next full => exact Memory.safe_pure _
    next missing => exact Memory.safe_pure _

/-- A new entry for a sender whose channel is found. -/
theorem scanRx_long (kept : env.discard = false) (made : env.allocated = true)
    (found : (wifiMacScanStaGetApChannel env frame scan).value = true)
    (safe : Safe (Look.Allowed frame) (wifiMacScanRx env frame false scan)) :
    ChannelLong frame scan.ie ∧ (∀ frm, scan.ie .rsn = some frm → RsnReads (frame.view frm)) ∧
      (RsnPasses frame scan.ie env.wraps env.stale →
        ∀ frm, scan.ie .tim = some frm → 2 ≤ frame.ieLen frm) := by
  rw [wifiMacScanRx, if_neg (by simp [kept])] at safe
  simp only [Memory.safe_bind, found, if_true] at safe
  rw [if_pos (Or.inr made)] at safe
  simp only [Memory.safe_bind, Memory.safe_forSome] at safe
  obtain ⟨channel, rsn, entry⟩ := safe
  refine ⟨getApChannel_safe_iff.mp channel,
    fun frm stored => (scanRsn_safe_iff frm).mp (rsn frm stored), fun passes => ?_⟩
  rw [if_neg] at entry
  · exact scanEntry_safe_iff.mp entry
  · rw [Memory.value_forSome]
    cases stored : scan.ie .rsn with
    | none => simp
    | some frm =>
      have passed := passes frm stored
      simpa [scanRsn_value] using passed

end Scan

end W522a.Ie
