import Mathlib.Tactic.Linarith
import W522a.Lib.Selection
import W522a.Scan.Info

/-!
The choice of a BSS to connect to: one pass over the scan table, by a comparison with bands. What
the pass ends with is the best of the table unless a ladder of preferences leads past the best.
-/

namespace W522a.Scan

open Selection (Ladder select)

/-- `struct wifi_mac_ScanSSID` -/
structure ScanSsid where
  len : Int
  ssid : List UInt8
  deriving DecidableEq, Repr

/-- What the choice reads of the interface, of the device and of the state of the scan. Of the
table `wm_chan_avail` there is a bit for every channel number below 256. -/
structure ScanVif where
  ibss : Bool
  vmFlags : Nat
  fixedRateMode : Nat
  fixedRateRateinfo : Nat
  vmDesBssid : List UInt8
  vmChanRoamingScanFlag : Nat
  wmChanAvail : Nat → Bool
  wmSupHtRates : List UInt8
  roamingThreshold5g : Int
  roamingThreshold2g : Int
  ssSsid : List ScanSsid

@[simp] abbrev wifinetFPrivacy : Nat := 0x10

@[simp] abbrev wifinetFDesbssid : Nat := 0x1000

@[simp] abbrev wifinetFIgnoreSsid : Nat := 0x4000

@[simp] abbrev wifinetConnectFails : Nat := 5

def wifiMacScanStaCompare (a b : ScaninfoEntry) : Int :=
  let aPrivacy := a.scaninfo.siCapinfo &&& wifinetCapinfoPrivacy != 0
  let bPrivacy := b.scaninfo.siCapinfo &&& wifinetCapinfoPrivacy != 0
  if aPrivacy && !bPrivacy then 1
  else if !aPrivacy && bPrivacy then -1
  else if 1 < |(b.connectcnt : Int) - a.connectcnt| then (b.connectcnt : Int) - a.connectcnt
  else if |b.scaninfo.siRssi - a.scaninfo.siRssi| < 5 then
    (wifiMacGetStaMode b.scaninfo : Int) - wifiMacGetStaMode a.scaninfo
  else a.scaninfo.siRssi - b.scaninfo.siRssi

def matchSsid (ie : Nat → UInt8) (ssids : List ScanSsid) : Bool :=
  ssids.any fun ssid =>
    ((ie 1).toNat : Int) == ssid.len &&
      (List.range (ie 1).toNat).map (fun i => ie (2 + i)) == ssid.ssid.take (ie 1).toNat

/-- `check_rate`, which answers 1 whatever it has found. -/
def checkRate (_ : WifiScanInfo) : Bool := true

/-- The basic rates that `check_ht_rate` gathers from the HT elements; a rate is its index. -/
def basicHtRates (scaninfo : WifiScanInfo) : List UInt8 :=
  let htcap := scaninfo.array .siHtcapIe
  let htinfo := scaninfo.array .siHtinfoIe
  if htcap 1 != 0 && htinfo 1 != 0 then
    ((List.range 8).filter fun i => (htcap 5).toNat.testBit i && (htinfo 8).toNat.testBit i).map
      UInt8.ofNat
  else []

def checkHtRate (vif : ScanVif) (scaninfo : WifiScanInfo) : Bool :=
  (basicHtRates scaninfo).all fun rate =>
    vif.wmSupHtRates.any fun known => wifinetGetRateVal rate == wifinetGetRateVal known

/-- A bit of what `match_bss` returns. -/
def failBit (fails : Bool) (bit : Nat) : Nat := if fails then 1 <<< bit else 0

def matchBss (vif : ScanVif) (se : ScaninfoEntry) : Nat :=
  let scaninfo := se.scaninfo
  let privacy := scaninfo.siCapinfo &&& wifinetCapinfoPrivacy != 0
  failBit (!vif.wmChanAvail (scaninfo.siChan.chanPriNum % 256)) 0 |||
  failBit (if vif.ibss then scaninfo.siCapinfo &&& 0x2 == 0 else scaninfo.siCapinfo &&& 0x1 == 0) 1 |||
  failBit (if vif.vmFlags &&& wifinetFPrivacy != 0 then !privacy else privacy) 2 |||
  failBit (!checkRate scaninfo) 3 |||
  failBit ((vif.fixedRateMode == 0 || vif.fixedRateRateinfo &&& 0x80 != 0) &&
    !checkHtRate vif scaninfo) 4 |||
  failBit (vif.vmFlags &&& wifinetFIgnoreSsid == 0 &&
    (vif.ssSsid.isEmpty || !matchSsid (scaninfo.array .siSsid) vif.ssSsid)) 5 |||
  failBit (vif.vmFlags &&& wifinetFDesbssid != 0 && vif.vmDesBssid != scaninfo.siBssid) 6 |||
  failBit (wifinetConnectFails ≤ se.connectcnt) 7

def Matches (vif : ScanVif) (se : ScaninfoEntry) : Prop := matchBss vif se = 0

instance (vif : ScanVif) : DecidablePred (Matches vif) :=
  fun se => inferInstanceAs (Decidable (matchBss vif se = 0))

def Preferred (a b : ScaninfoEntry) : Prop := 0 < wifiMacScanStaCompare a b

instance : DecidableRel Preferred :=
  fun a b => inferInstanceAs (Decidable (0 < wifiMacScanStaCompare a b))

/-- One turn of the loop of `wifi_mac_scan_get_best_node`. -/
def bestNodeStep (vif : ScanVif) (bestNode se : ScaninfoEntry) : ScaninfoEntry :=
  if matchBss vif se = 0 then
    if !bestNode.seValid then se
    else if 0 < wifiMacScanStaCompare se bestNode then se
    else bestNode
  else bestNode

/-- The entry is too weak to roam to; the difference is taken in 32 bits without a sign, and the
threshold is compared as such. -/
def belowRoaming (vif : ScanVif) (se : ScaninfoEntry) : Bool :=
  let roamingThreshold :=
    if se.scaninfo.siChan.is2ghz then vif.roamingThreshold2g else vif.roamingThreshold5g
  decide (((se.seAvgrssi : Int) - 255) % 2 ^ 32 < roamingThreshold % 2 ^ 32)

/-- `wifi_mac_scan_get_best_node`: what it returns, and `bestNode` as it leaves it. -/
def wifiMacScanGetBestNode (vif : ScanVif) (table : List ScaninfoEntry) (bestNode : ScaninfoEntry) :
    Bool × ScaninfoEntry :=
  let bestNode := table.foldl (bestNodeStep vif) bestNode
  if bestNode.seValid && vif.vmChanRoamingScanFlag == 1 && belowRoaming vif bestNode then
    (false, { bestNode with seValid := false })
  else (bestNode.seValid, bestNode)

/-- The entry that `wifi_mac_scan_get_best_node` returns. -/
def returnedNode (vif : ScanVif) (table : List ScaninfoEntry) (bestNode : ScaninfoEntry) :
    Option ScaninfoEntry :=
  match wifiMacScanGetBestNode vif table bestNode with
  | (true, se) => some se
  | (false, _) => none

/-- What is returned in some order of the table matches and is beaten by no matching entry, and the
entries returned in two orders rank the same. -/
structure BestNodeLaw (vif : ScanVif) (table : List ScaninfoEntry) (bestNode : ScaninfoEntry) :
    Prop where
  matching : ∀ order : List ScaninfoEntry, order.Perm table →
    ∀ se ∈ returnedNode vif order bestNode, Matches vif se
  maximal : ∀ order : List ScaninfoEntry, order.Perm table →
    ∀ se ∈ returnedNode vif order bestNode, ∀ other ∈ table, Matches vif other →
      ¬ Preferred other se
  sameRank : ∀ order order' : List ScaninfoEntry, order.Perm table → order'.Perm table →
    ∀ se ∈ returnedNode vif order bestNode, ∀ other ∈ returnedNode vif order' bestNode,
      wifiMacScanStaCompare se other = 0

section Compare

variable {a b : ScaninfoEntry}

theorem wifiMacScanStaCompare_swap :
    wifiMacScanStaCompare b a = -wifiMacScanStaCompare a b := by
  have connects : |(a.connectcnt : Int) - b.connectcnt| = |(b.connectcnt : Int) - a.connectcnt| :=
    abs_sub_comm _ _
  have rssis : |a.scaninfo.siRssi - b.scaninfo.siRssi| = |b.scaninfo.siRssi - a.scaninfo.siRssi| :=
    abs_sub_comm _ _
  simp only [wifiMacScanStaCompare, connects, rssis]
  cases a.scaninfo.siCapinfo &&& wifinetCapinfoPrivacy != 0 with
  | true =>
    cases b.scaninfo.siCapinfo &&& wifinetCapinfoPrivacy != 0 with
    | true => simp only [Bool.not_true, Bool.and_false, Bool.false_and]; split_ifs <;> omega
    | false => rfl
  | false =>
    cases b.scaninfo.siCapinfo &&& wifinetCapinfoPrivacy != 0 with
    | true => rfl
    | false => simp only [Bool.not_false, Bool.false_and, Bool.and_false]; split_ifs <;> omega

theorem not_preferred_self (a : ScaninfoEntry) : ¬ Preferred a a := by
  have swap := wifiMacScanStaCompare_swap (a := a) (b := a)
  rw [Preferred]
  omega

theorem compare_eq_zero (below : ¬ Preferred a b) (above : ¬ Preferred b a) :
    wifiMacScanStaCompare a b = 0 := by
  have swap := wifiMacScanStaCompare_swap (a := a) (b := b)
  rw [Preferred] at below above
  omega

end Compare

section Loop

variable {vif : ScanVif} {table order : List ScaninfoEntry} {bestNode se : ScaninfoEntry}

/-- The best entry so far, when there is one. -/
def validNode (se : ScaninfoEntry) : Option ScaninfoEntry := if se.seValid then some se else none

def matching (vif : ScanVif) (table : List ScaninfoEntry) : List ScaninfoEntry :=
  table.filter fun se => decide (Matches vif se)

theorem mem_matching : se ∈ matching vif table ↔ se ∈ table ∧ Matches vif se := by
  rw [matching, List.mem_filter, decide_eq_true_eq]

/-- The loop selects among the entries that match. -/
theorem validNode_loop (valid : ∀ se ∈ table, se.seValid = true) (bestNode : ScaninfoEntry) :
    validNode (table.foldl (bestNodeStep vif) bestNode) =
      select Preferred (validNode bestNode) (matching vif table) := by
  induction table generalizing bestNode with
  | nil => rfl
  | cons se table loop =>
    have rest := loop (fun later member => valid later (List.mem_cons_of_mem se member))
      (bestNodeStep vif bestNode se)
    have here : se.seValid = true := valid se List.mem_cons_self
    rw [List.foldl_cons, rest]
    by_cases fits : matchBss vif se = 0
    · have listed : matching vif (se :: table) = se :: matching vif table :=
        List.filter_cons_of_pos (decide_eq_true fits)
      rw [listed, Selection.select_cons]
      congr 1
      rw [bestNodeStep, if_pos fits]
      cases known : bestNode.seValid with
      | false => simp [validNode, Selection.keep, known, here]
      | true =>
        rw [if_neg (by simp)]
        by_cases better : 0 < wifiMacScanStaCompare se bestNode
        · simp [validNode, Selection.keep, Preferred, known, here, better]
        · simp [validNode, Selection.keep, Preferred, known, better]
    · have listed : matching vif (se :: table) = matching vif table :=
        List.filter_cons_of_neg (by rw [decide_eq_true_eq]; exact fits)
      rw [listed, bestNodeStep, if_neg fits]

/-- What is returned is what the loop selects, unless it is too weak to roam to. -/
theorem returnedNode_eq_some (valid : ∀ se ∈ table, se.seValid = true) :
    returnedNode vif table bestNode = some se ↔
      select Preferred (validNode bestNode) (matching vif table) = some se ∧
        ¬ (vif.vmChanRoamingScanFlag = 1 ∧ belowRoaming vif se = true) := by
  rw [← validNode_loop valid, returnedNode, wifiMacScanGetBestNode, validNode]
  generalize table.foldl (bestNodeStep vif) bestNode = ended
  cases ended.seValid with
  | false => simp
  | true =>
    by_cases weak : vif.vmChanRoamingScanFlag = 1 ∧ belowRoaming vif ended = true
    · have dropped : (vif.vmChanRoamingScanFlag == 1 && belowRoaming vif ended) = true := by
        simpa using weak
      simp only [Bool.true_and, dropped, if_true]
      constructor
      · intro none
        cases none
      · rintro ⟨same, strong⟩
        cases same
        exact absurd weak strong
    · have kept : (vif.vmChanRoamingScanFlag == 1 && belowRoaming vif ended) = false := by
        simpa using weak
      simp only [Bool.true_and, kept, if_true]
      constructor
      · intro same
        cases same
        exact ⟨rfl, weak⟩
      · rintro ⟨same, -⟩
        exact same

end Loop

/-- The entries of a table that are valid, as the ones that are linked are. -/
structure ScanTable where
  entries : List ScaninfoEntry
  valid : ∀ se ∈ entries, se.seValid = true

/-- Every ladder of preferences over the matching entries leads, from an entry that `bestNode` may
hold at the start, to one that is too weak to roam to or that matches and is beaten by none. -/
def LaddersLeadUp (vif : ScanVif) (table : ScanTable) (bestNode : ScaninfoEntry) : Prop :=
  ∀ rungs top, Ladder Preferred (validNode bestNode) (matching vif table.entries) rungs top →
    (vif.vmChanRoamingScanFlag = 1 ∧ belowRoaming vif top = true) ∨
      Matches vif top ∧ ∀ other ∈ table.entries, Matches vif other → ¬ Preferred other top

section Law

variable {vif : ScanVif} {table : ScanTable} {bestNode se : ScaninfoEntry}

private theorem exists_order_matching {order : List ScaninfoEntry}
    (perm : order.Perm (matching vif table.entries)) :
    ∃ whole : List ScaninfoEntry, whole.Perm table.entries ∧ matching vif whole = order := by
  let others := table.entries.filter fun se => !decide (Matches vif se)
  refine ⟨order ++ others, ?_, ?_⟩
  · exact (perm.append_right others).trans (List.filter_append_perm _ table.entries)
  · have kept : matching vif order = order := by
      apply List.filter_eq_self.mpr
      intro se member
      exact decide_eq_true (mem_matching.mp (perm.subset member)).2
    have dropped : matching vif others = [] := by
      apply List.filter_eq_nil_iff.mpr
      intro se member
      simpa using (List.mem_filter.mp member).2
    calc matching vif (order ++ others)
        _ = matching vif order ++ matching vif others := List.filter_append order others
        _ = order := by rw [kept, dropped, List.append_nil]

/-- The entries that are returned in some order are those that a ladder leads up to. -/
theorem exists_returned_iff :
    (∃ order : List ScaninfoEntry, order.Perm table.entries ∧
      returnedNode vif order bestNode = some se) ↔
      (∃ rungs, Ladder Preferred (validNode bestNode) (matching vif table.entries) rungs se) ∧
        ¬ (vif.vmChanRoamingScanFlag = 1 ∧ belowRoaming vif se = true) := by
  rw [← Selection.exists_order_iff not_preferred_self]
  constructor
  · rintro ⟨order, perm, returned⟩
    have valid : ∀ se ∈ order, se.seValid = true := fun se member =>
      table.valid se (perm.subset member)
    obtain ⟨selected, strong⟩ := (returnedNode_eq_some valid).mp returned
    exact ⟨⟨matching vif order, perm.filter _, selected⟩, strong⟩
  · rintro ⟨⟨order, perm, selected⟩, strong⟩
    obtain ⟨whole, same, filtered⟩ := exists_order_matching perm
    have valid : ∀ se ∈ whole, se.seValid = true := fun se member =>
      table.valid se (same.subset member)
    exact ⟨whole, same, (returnedNode_eq_some valid).mpr ⟨filtered ▸ selected, strong⟩⟩

/-- The choice is a maximum in every order of the table when every ladder leads up to one. -/
theorem bestNode_iff (vif : ScanVif) (table : ScanTable) (bestNode : ScaninfoEntry) :
    BestNodeLaw vif table.entries bestNode ↔ LaddersLeadUp vif table bestNode := by
  constructor
  · intro law rungs top ladder
    by_cases weak : vif.vmChanRoamingScanFlag = 1 ∧ belowRoaming vif top = true
    · exact Or.inl weak
    · obtain ⟨order, perm, returned⟩ := exists_returned_iff.mpr ⟨⟨rungs, ladder⟩, weak⟩
      exact Or.inr ⟨law.matching order perm top returned, law.maximal order perm top returned⟩
  · intro leads
    have climbed : ∀ order : List ScaninfoEntry, order.Perm table.entries →
        ∀ se ∈ returnedNode vif order bestNode,
          (∃ rungs, Ladder Preferred (validNode bestNode) (matching vif table.entries) rungs se) ∧
            Matches vif se ∧ ∀ other ∈ table.entries, Matches vif other → ¬ Preferred other se := by
      intro order perm se returned
      obtain ⟨⟨rungs, ladder⟩, strong⟩ := exists_returned_iff.mp ⟨order, perm, returned⟩
      exact ⟨⟨rungs, ladder⟩, (leads rungs se ladder).resolve_left strong⟩
    refine ⟨fun order perm se returned => (climbed order perm se returned).2.1,
      fun order perm se returned => (climbed order perm se returned).2.2, ?_⟩
    intro order order' perm perm' se returned other returned'
    obtain ⟨⟨rungs, ladder⟩, matched, maximal⟩ := climbed order perm se returned
    obtain ⟨⟨rungs', ladder'⟩, matched', maximal'⟩ := climbed order' perm' other returned'
    -- an entry that comes from `bestNode` itself comes from it in every order
    rcases ladder.top_mem with listed | ⟨rfl, starts⟩
    · rcases ladder'.top_mem with listed' | ⟨rfl, starts⟩
      · exact compare_eq_zero (maximal' se (mem_matching.mp listed).1 matched)
          (maximal other (mem_matching.mp listed').1 matched')
      · rw [starts] at ladder ladder'
        cases ladder'.top_eq_start ladder
        exact compare_eq_zero (not_preferred_self se) (not_preferred_self se)
    · rw [starts] at ladder ladder'
      cases ladder.top_eq_start ladder'
      exact compare_eq_zero (not_preferred_self se) (not_preferred_self se)

end Law

/-- An interface that takes every open network of an access point. -/
def openVif : ScanVif :=
  { ibss := false
    vmFlags := wifinetFIgnoreSsid
    fixedRateMode := 0
    fixedRateRateinfo := 0
    vmDesBssid := []
    vmChanRoamingScanFlag := 0
    wmChanAvail := fun _ => true
    wmSupHtRates := []
    roamingThreshold5g := 0
    roamingThreshold2g := 0
    ssSsid := [] }

/-- An open network on channel 6, with one rate element. -/
def openEntry (rates : List UInt8) (rssi : Nat) : ScaninfoEntry where
  scaninfo :=
    { siMacaddr := []
      siBssid := []
      array := fun field offset => if field = .siRates then rates.getD offset 0 else 0
      siTstamp := []
      siIntval := 100
      siCapinfo := 0x1
      siChan := ⟨2437, 0x4000, 6, .width20⟩
      siTimoff := 0
      siErp := 0
      siRssi := rssi
      siDtimperiod := 0
      siRsnCapa := 0
      siFrameLen := 0 }
  connectcnt := 0
  seValid := true
  seAvgrssi := rssi
  lastUpdateTime := 0
  connectTime := 0

/-- Two networks of 11g and, a little stronger, one without rates. -/
def bandedTable : ScanTable where
  entries := [openEntry [1, 1, 0x8c] 200, openEntry [1, 1, 0x8c] 201, openEntry [] 205]
  valid := by simp [openEntry]

/-- The second beats the third inside the band of the signal, and the third beats the first outside
of it: the third is returned. -/
theorem bestNode_passes_over :
    ¬ BestNodeLaw openVif bandedTable.entries { openEntry [] 0 with seValid := false } := by
  intro law
  have returned : returnedNode openVif bandedTable.entries
      { openEntry [] 0 with seValid := false } = some (openEntry [] 205) := rfl
  have beaten := law.maximal bandedTable.entries (List.Perm.refl _) (openEntry [] 205) returned
    (openEntry [1, 1, 0x8c] 201) (by simp [bandedTable]) rfl
  exact beaten (by decide)

end W522a.Scan
