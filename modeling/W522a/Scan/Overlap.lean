import W522a.Lib.Tally
import W522a.Scan.Info

/-!
How many scanned networks overlap each channel: the map of channels, the range of its entries that a
network takes, and the count over the scan table. The counts are the numbers of scanned networks
whose band takes the channel, for every table of networks that keep away from the ends of the
blocks of channels.
-/

namespace W522a.Scan

@[simp] abbrev wifinetMaxScanChan : Nat := 64

/-- `struct wifi_mac_chan_overlapping`; the count has sixteen bits. -/
structure ChanOverlapping where
  chanIndex : Nat
  overlapping : Nat
  deriving DecidableEq, Repr

/-- `wifi_mac_chan_overlapping_map_init`: its four loops. -/
def wifiMacChanOverlappingMapInit (map : Nat → ChanOverlapping) : Nat → ChanOverlapping :=
  fun i =>
    if i < 14 then { map i with chanIndex := i + 1 }
    else if i < 30 then { map i with chanIndex := 2 * (i - 14) + 34 }
    else if i < 53 then { map i with chanIndex := 2 * (i - 30) + 100 }
    else if i < 62 then { map i with chanIndex := 2 * (i - 53) + 149 }
    else map i

def wifiMacMhz2ieee (freq flags : Nat) : Nat :=
  let from2407 := (freq + 2 ^ 32 - 2407) % 2 ^ 32 / 5
  let from2512 := (15 + (freq + 2 ^ 32 - 2512) % 2 ^ 32 / 20) % 2 ^ 32
  let from5000 := (freq + 2 ^ 32 - 5000) % 2 ^ 32 / 5
  if flags &&& 0x4000 ≠ 0 then
    if freq = 2484 then 14
    else if freq < 2484 then from2407
    else from2512
  else if flags &&& 0x8000 ≠ 0 then from5000
  else if freq = 2484 then 14
  else if freq < 2484 then from2407
  else if freq < 5000 then from2512
  else from5000

/-- The half of a band, in entries of the map; `step` is the distance of two entries in channels. -/
def halfBand (bw : BwcWidth) (step : Nat) : Nat :=
  match bw with
  | .width20 => 2 / step
  | .width40 => 4 / step
  | .width80 => 8 / step
  | _ => step

/-- The range that `get_ovlapping_chan_index` sets for a channel that it has found at `i`. -/
def foundRange (is2g : Bool) (i step : Nat) : Nat × Nat :=
  if i < step then (0, (i + step) % 256)
  else if i + step > 63 then (i - step, 63)
  else if is2g then
    if i + step > 14 then (i - step, 13) else (i - step, (i + step) % 256)
  else
    let low := i - step
    let up := (i + step) % 256
    (if low < 14 then 14
      else if low < 30 ∧ i ≥ 30 then 29
      else if low < 53 ∧ i ≥ 53 then 53
      else low,
      if up > 30 ∧ i ≤ 30 then 30
      else if up > 53 ∧ i ≤ 53 then 53
      else up)

/-- `get_ovlapping_chan_index`: where `*low` and `*up` are afterwards. -/
def getOvlappingChanIndex (map : Nat → ChanOverlapping) (centerChan : Nat) (bw : BwcWidth)
    (range : Nat × Nat) : Nat × Nat :=
  let is2g := 0 < centerChan ∧ centerChan < 15
  let step := if is2g then 1 else 2
  match (List.range wifinetMaxScanChan).find? fun i => (map i).chanIndex == centerChan with
  | some i => foundRange is2g i (halfBand bw step)
  | none => range

def countRange (map : Nat → ChanOverlapping) (range : Nat × Nat) : Nat → ChanOverlapping :=
  (List.range' range.1 (range.2 + 1 - range.1)).foldl (fun map i =>
    Function.update map i { map i with overlapping := ((map i).overlapping + 1) % 65536 }) map

/-- `center_chan` of an entry, which has eight bits. -/
def ScaninfoEntry.centerChan (se : ScaninfoEntry) : Nat :=
  wifiMacMhz2ieee se.scaninfo.siChan.chanCfreq1 0 % 256

/-- The map, and the range that is kept from one network to the next. -/
structure OverlapState where
  map : Nat → ChanOverlapping
  range : Nat × Nat

/-- One network of the scan table. -/
def OverlapState.count (state : OverlapState) (se : ScaninfoEntry) : OverlapState :=
  let range := getOvlappingChanIndex state.map se.centerChan se.scaninfo.siChan.chanBw state.range
  { map := countRange state.map range, range }

/-- The counts at zero, before the first network. -/
def overlapStart (map : Nat → ChanOverlapping) : OverlapState :=
  { map := fun i => if i < wifinetMaxScanChan then { map i with overlapping := 0 } else map i
    range := (0, 0) }

def wifiMacUpdateChanOverlappingMap (map : Nat → ChanOverlapping) (table : List ScaninfoEntry) :
    Nat → ChanOverlapping :=
  (table.foldl OverlapState.count (overlapStart map)).map

/-- The channel of an entry of the map as the driver sets it up, in memory that is zero. -/
def chanAt (i : Nat) : Nat := (wifiMacChanOverlappingMapInit (fun _ => ⟨0, 0⟩) i).chanIndex

/-- A map of channels as the driver sets it up, with any counts. -/
structure OverlapMap where
  cells : Nat → ChanOverlapping
  set : ∀ i < wifinetMaxScanChan, (cells i).chanIndex = chanAt i

/-- The half of a band in channels of five megahertz. -/
def BwcWidth.halfWidth : BwcWidth → Nat
  | .width20 => 2
  | .width40 => 4
  | .width80 | .width80p80 => 8
  | .width160 => 16
  | .unset => 0

def BwcWidth.Tabled (bw : BwcWidth) : Prop := bw = .width20 ∨ bw = .width40 ∨ bw = .width80

/-- A scan table: the channel of every entry is one of the channel table. -/
structure OverlapTable where
  entries : List ScaninfoEntry
  tabled : ∀ se ∈ entries, se.scaninfo.siChan.chanBw.Tabled

/-- The two bands. -/
inductive Band where
  | ghz2
  | ghz5
  deriving DecidableEq, Repr

/-- The band of a channel; an entry without a channel has none. -/
def bandOf (chan : Nat) : Option Band :=
  if chan = 0 then none else if chan < 15 then some .ghz2 else some .ghz5

namespace ScaninfoEntry

variable (se : ScaninfoEntry) (map : Nat → ChanOverlapping)

def bw : BwcWidth := se.scaninfo.siChan.chanBw

def Known : Prop :=
  se.centerChan ≠ 0 ∧ ∃ i, i < wifinetMaxScanChan ∧ (map i).chanIndex = se.centerChan

instance : Decidable (se.Known map) :=
  inferInstanceAs (Decidable (_ ∧ ∃ i, i < 64 ∧ (map i).chanIndex = se.centerChan))

/-- The band that a network takes overlaps a channel. -/
def Overlaps (chan : Nat) : Prop :=
  chan ≠ 0 ∧ se.Known map ∧ chan ≤ se.centerChan + se.bw.halfWidth ∧
    se.centerChan ≤ chan + se.bw.halfWidth

instance (chan : Nat) : Decidable (se.Overlaps map chan) :=
  inferInstanceAs (Decidable (_ ∧ _ ∧ _ ∧ _))

end ScaninfoEntry

/-- The state after some networks of the table. -/
def countedUpTo (map : Nat → ChanOverlapping) (entries : List ScaninfoEntry) : OverlapState :=
  entries.foldl OverlapState.count (overlapStart map)

/-- The counts are right: every channel has the number of networks that overlap it, a network whose
centre channel is not in the map counts nowhere, and the range of every other one lies in the map
and in the band of its centre channel. -/
structure OverlapCounted (map : Nat → ChanOverlapping) (entries : List ScaninfoEntry) : Prop where
  counts : ∀ i < wifinetMaxScanChan,
    (wifiMacUpdateChanOverlappingMap map entries i).overlapping =
      entries.countP fun se => se.Overlaps map (map i).chanIndex
  unknown : ∀ before se after, entries = before ++ se :: after → ¬ se.Known map →
    ∀ i, (countedUpTo map (before ++ [se])).map i = (countedUpTo map before).map i
  ranges : ∀ before se after, entries = before ++ se :: after → se.Known map →
    let range := (countedUpTo map (before ++ [se])).range
    ∀ i, range.1 ≤ i → i ≤ range.2 →
      i < wifinetMaxScanChan ∧ bandOf (map i).chanIndex = bandOf se.centerChan

/-- A centre channel of the map and half of a width, in channels, which keep away from the ends of
the blocks of channels 1 to 14, 34 to 64, 100 to 144 and 149 to 165 as the code needs it. -/
def Clear (center half : Nat) : Prop :=
  if center < 15 then center + half ≠ 15 ∧ ¬ (center = 8 ∧ half = 8)
  else if center ≤ 64 then center + half ≤ 64
  else if center ≤ 144 then
    100 + half ≤ center ∧ center + half ≤ 144 ∨ center = 142 ∧ half = 8
  else 149 < center ∧ center + half ≤ 165 ∧ ¬ (center = 151 ∧ half = 8)

instance (center half : Nat) : Decidable (Clear center half) := by
  unfold Clear
  infer_instance

/-! ### The entries of the map -/

section Entries

variable {i j half : Nat} {bw : BwcWidth}

theorem chanAt_eq : chanAt i =
    if i < 14 then i + 1 else if i < 30 then 2 * (i - 14) + 34
    else if i < 53 then 2 * (i - 30) + 100 else if i < 62 then 2 * (i - 53) + 149 else 0 := by
  unfold chanAt wifiMacChanOverlappingMapInit
  simp only [apply_ite ChanOverlapping.chanIndex]

theorem chanAt_cases (channel : i < 62) :
    i < 14 ∧ chanAt i = i + 1 ∨ 14 ≤ i ∧ i < 30 ∧ chanAt i = 2 * i + 6 ∨
      30 ≤ i ∧ i < 53 ∧ chanAt i = 2 * i + 40 ∨ 53 ≤ i ∧ chanAt i = 2 * i + 43 := by
  rw [chanAt_eq]
  split
  · omega
  · split
    · omega
    · split
      · omega
      · omega

theorem chanAt_pos (channel : i < 62) : 0 < chanAt i := by
  have blocks := chanAt_cases channel
  omega

theorem chanAt_past (past : 62 ≤ i) : chanAt i = 0 := by
  rw [chanAt_eq, if_neg (by omega), if_neg (by omega), if_neg (by omega), if_neg (by omega)]

theorem lt_of_chanAt (channel : chanAt i ≠ 0) : i < 62 := by
  by_contra past
  exact channel (chanAt_past (Nat.not_lt.mp past))

theorem chanAt_lt (before : i < j) (channel : j < 62) : chanAt i < chanAt j := by
  have lower := chanAt_cases (Nat.lt_trans before channel)
  have upper := chanAt_cases channel
  omega

private theorem chanAt_le (before : i ≤ j) (channel : j < 62) : chanAt i ≤ chanAt j := by
  cases Nat.lt_or_eq_of_le before with
  | inl less => exact Nat.le_of_lt (chanAt_lt less channel)
  | inr same => rw [same]

/-- The range of a network whose centre channel is that of an entry. -/
def entryRange (i : Nat) (bw : BwcWidth) : Nat × Nat :=
  foundRange (decide (i < 14)) i (halfBand bw (if i < 14 then 1 else 2))

def InRange (range : Nat × Nat) (j : Nat) : Prop := range.1 ≤ j ∧ j ≤ range.2

instance (range : Nat × Nat) (j : Nat) : Decidable (InRange range j) :=
  inferInstanceAs (Decidable (_ ∧ _))

/-- The channel of an entry lies in the band around that of another one. -/
def Near (i half j : Nat) : Prop :=
  j < 62 ∧ chanAt j ≤ chanAt i + half ∧ chanAt i ≤ chanAt j + half

instance (i half j : Nat) : Decidable (Near i half j) := inferInstanceAs (Decidable (_ ∧ _ ∧ _))

/-- The ends of the range of a centre channel that keeps away from the ends of the blocks: they lie
in the band, and the entries next to them do not. -/
theorem ends_of_clear : ∀ i < 62, ∀ bw ∈ [BwcWidth.width20, .width40, .width80],
    Clear (chanAt i) bw.halfWidth →
      Near i bw.halfWidth (entryRange i bw).1 ∧ Near i bw.halfWidth (entryRange i bw).2 ∧
        ((entryRange i bw).1 = 0 ∨ ¬ Near i bw.halfWidth ((entryRange i bw).1 - 1)) ∧
        ¬ Near i bw.halfWidth ((entryRange i bw).2 + 1) := by
  decide +kernel

/-- The entries where a range in the right band can hold one too many. -/
def Edge (j : Nat) : Prop := j = 29 ∨ j = 30 ∨ j = 53

instance (j : Nat) : Decidable (Edge j) := inferInstanceAs (Decidable (_ ∨ _ ∨ _))

/-- The entry next to an edge, on the side that a range with the edge comes from. -/
def besideEdge (j : Nat) : Nat := if j = 29 then 30 else if j = 30 then 29 else 52

/-- A range that can hold an edge too many, and other entries can only lack. -/
def OneSided (i half : Nat) (range : Nat × Nat) : Prop :=
  ∀ j < 64, (Edge j → (Near i half j → InRange range j) ∧
      (InRange range j → Near i half j ∨ Near i half (besideEdge j))) ∧
    (¬ Edge j → InRange range j → Near i half j)

instance (i half : Nat) (range : Nat × Nat) : Decidable (OneSided i half range) :=
  inferInstanceAs (Decidable (∀ j < 64, _))

/-- A range that lies in the right band but comes to an end of a block is one-sided, and not
right. -/
theorem ends_of_not_clear : ∀ i < 62, ∀ bw ∈ [BwcWidth.width20, .width40, .width80],
    ¬ Clear (chanAt i) bw.halfWidth → (entryRange i bw).2 < 62 →
      bandOf (chanAt (entryRange i bw).2) = bandOf (chanAt i) →
        OneSided i bw.halfWidth (entryRange i bw) ∧
          ∃ j, j < 64 ∧ ¬ (InRange (entryRange i bw) j ↔ Near i bw.halfWidth j) := by
  decide +kernel

theorem inRange_iff_near (channel : i < 62) (tabled : bw.Tabled)
    (clear : Clear (chanAt i) bw.halfWidth) :
    InRange (entryRange i bw) j ↔ Near i bw.halfWidth j := by
  have member : bw ∈ [BwcWidth.width20, .width40, .width80] := by
    obtain rfl | rfl | rfl := tabled <;> decide
  obtain ⟨low, up, below, above⟩ := ends_of_clear i channel bw member clear
  constructor
  · intro ⟨after, before⟩
    have rises := chanAt_le after (Nat.lt_of_le_of_lt before up.1)
    have falls := chanAt_le before up.1
    have low_close := low.2.2
    have up_close := up.2.1
    refine ⟨Nat.lt_of_le_of_lt before up.1, ?_, ?_⟩ <;> omega
  · intro ⟨inside, lower, upper⟩
    constructor
    · by_contra less
      cases below with
      | inl zero => omega
      | inr apart =>
        have earlier := chanAt_le (Nat.le_sub_one_of_lt (Nat.not_le.mp less)) (by have := low.1; omega)
        have rises := chanAt_le (Nat.sub_le (entryRange i bw).1 1) low.1
        have low_close := low.2.1
        exact apart ⟨by have := low.1; omega, by omega, by omega⟩
    · by_contra more
      have next : (entryRange i bw).2 + 1 ≤ j := Nat.not_le.mp more
      have later := chanAt_le next inside
      have rises := chanAt_le (Nat.le_add_right (entryRange i bw).2 1) (Nat.lt_of_le_of_lt next inside)
      have up_close := up.2.2
      exact above ⟨Nat.lt_of_le_of_lt next inside, by omega, by omega⟩

end Entries

/-! ### One network -/

section Networks

variable {map map' : Nat → ChanOverlapping} {range : Nat × Nat} {se : ScaninfoEntry} {i j : Nat}

def SameChannels (map map' : Nat → ChanOverlapping) : Prop :=
  ∀ i, (map' i).chanIndex = (map i).chanIndex

theorem countRange_apply (j : Nat) : countRange map range j =
    if InRange range j then { map j with overlapping := ((map j).overlapping + 1) % 65536 }
    else map j := by
  have turns : ∀ (count start : Nat) (map : Nat → ChanOverlapping),
      (List.range' start count).foldl (fun map i =>
        Function.update map i { map i with overlapping := ((map i).overlapping + 1) % 65536 }) map
        j =
      if start ≤ j ∧ j < start + count then
        { map j with overlapping := ((map j).overlapping + 1) % 65536 } else map j := by
    intro count
    induction count with
    | zero =>
      intro start map
      rw [if_neg (by omega)]
      rfl
    | succ count induction =>
      intro start map
      rw [List.range'_succ, List.foldl_cons, induction]
      by_cases first : j = start
      · rw [first, if_neg (by omega), if_pos (by omega), Function.update_self]
      · rw [Function.update_of_ne first]
        congr 1
        apply propext
        omega
  rw [countRange, turns]
  congr 1
  apply propext
  unfold InRange
  omega

theorem sameChannels_countRange : SameChannels map (countRange map range) := by
  intro i
  rw [countRange_apply]
  split <;> rfl

theorem countRange_ne (ordered : range.1 ≤ range.2) :
    countRange map range range.1 ≠ map range.1 := by
  intro same
  rw [countRange_apply, if_pos ⟨Nat.le_refl _, ordered⟩] at same
  have counts := congrArg ChanOverlapping.overlapping same
  dsimp only at counts
  omega

theorem getOvlappingChanIndex_found (set : ∀ i < wifinetMaxScanChan, (map i).chanIndex = chanAt i)
    (channel : i < 62) (bw : BwcWidth) :
    getOvlappingChanIndex map (chanAt i) bw range = entryRange i bw := by
  have found : ((List.range wifinetMaxScanChan).find? fun j => (map j).chanIndex == chanAt i) =
      some i := by
    rw [List.find?_range_eq_some]
    refine ⟨?_, ?_, ?_⟩
    · rw [set i (Nat.lt_trans channel (by decide))]
      exact beq_self_eq_true _
    · exact List.mem_range.mpr (Nat.lt_trans channel (by decide))
    · intro j before
      have rises := chanAt_lt before channel
      have other : chanAt j ≠ chanAt i := Nat.ne_of_lt rises
      rw [set j (by simp only [wifinetMaxScanChan]; omega), Bool.not_eq_true']
      exact beq_eq_false_iff_ne.mpr other
  have band : (0 < chanAt i ∧ chanAt i < 15) = (i < 14) := by
    have blocks := chanAt_cases channel
    apply propext
    omega
  unfold getOvlappingChanIndex
  rw [found]
  simp only [band]
  rfl

theorem known_entry (set : ∀ i < wifinetMaxScanChan, (map i).chanIndex = chanAt i)
    (known : se.Known map) : ∃ i < 62, se.centerChan = chanAt i := by
  obtain ⟨some, i, inside, same⟩ := known
  rw [set i inside] at same
  refine ⟨i, ?_, same.symm⟩
  apply lt_of_chanAt
  rw [same]
  exact some

/-- What overlaps a channel, by the entries of the map. -/
theorem overlaps_iff (set : ∀ i < wifinetMaxScanChan, (map i).chanIndex = chanAt i)
    (known : se.Known map) (center : se.centerChan = chanAt i) (inside : j < wifinetMaxScanChan) :
    se.Overlaps map (map j).chanIndex ↔ Near i se.bw.halfWidth j := by
  rw [ScaninfoEntry.Overlaps, set j inside, center]
  constructor
  · intro ⟨channel, _, near⟩
    exact ⟨lt_of_chanAt channel, near⟩
  · intro ⟨channel, near⟩
    exact ⟨Nat.ne_of_gt (chanAt_pos channel), known, near⟩

private theorem foundRange_ordered {is2g : Bool} {step : Nat} (inside : i < 64) (small : step ≤ 8)
    (some : 0 < step) (block : is2g = true ↔ i < 14) :
    (foundRange is2g i step).1 ≤ (foundRange is2g i step).2 := by
  have whole : (i + step) % 256 = i + step := Nat.mod_eq_of_lt (by omega)
  unfold foundRange
  rw [whole]
  split
  · exact Nat.zero_le _
  · split
    · dsimp only
      omega
    · split
      next low =>
        have first := block.mp low
        by_cases past : i + step > 14
        · rw [if_pos past]
          dsimp only
          omega
        · rw [if_neg past]
          dsimp only
          omega
      next high =>
        have later := mt block.mpr high
        dsimp only
        split_ifs <;> omega

/-- The range that is kept is never empty. -/
theorem getOvlappingChanIndex_ordered {center : Nat} {bw : BwcWidth}
    (set : ∀ i < wifinetMaxScanChan, (map i).chanIndex = chanAt i) (ordered : range.1 ≤ range.2) :
    (getOvlappingChanIndex map center bw range).1 ≤ (getOvlappingChanIndex map center bw range).2 := by
  unfold getOvlappingChanIndex
  split
  next i found =>
    have inside := List.mem_range.mp (List.mem_of_find?_eq_some found)
    have same : chanAt i = center := by
      rw [← set i inside]
      exact eq_of_beq (List.find?_some (p := fun i => (map i).chanIndex == center) found)
    apply foundRange_ordered inside
    · cases bw <;> split <;> decide
    · cases bw <;> split <;> decide
    · rw [decide_eq_true_eq, ← same]
      by_cases channel : i < 62
      · have blocks := chanAt_cases channel
        omega
      · rw [chanAt_past (Nat.not_lt.mp channel)]
        omega
  next missing => exact ordered

end Networks

/-! ### The whole table -/

section Tables

variable {map : Nat → ChanOverlapping} {entries before : List ScaninfoEntry} {se : ScaninfoEntry}
  {i j : Nat}

@[simp] theorem countedUpTo_append : countedUpTo map (before ++ [se]) =
    (countedUpTo map before).count se := List.foldl_concat ..

private theorem countedUpTo_channels : SameChannels map (countedUpTo map entries).map := by
  induction entries using List.reverseRecOn with
  | nil =>
    intro i
    change (if i < wifinetMaxScanChan then { map i with overlapping := 0 } else map i).chanIndex = _
    split <;> rfl
  | append_singleton before se induction =>
    intro i
    rw [countedUpTo_append]
    exact (sameChannels_countRange i).trans (induction i)

theorem countedUpTo_set (set : ∀ i < wifinetMaxScanChan, (map i).chanIndex = chanAt i) :
    ∀ i < wifinetMaxScanChan, ((countedUpTo map entries).map i).chanIndex = chanAt i := by
  intro i inside
  rw [countedUpTo_channels]
  exact set i inside

theorem countedUpTo_ordered (set : ∀ i < wifinetMaxScanChan, (map i).chanIndex = chanAt i) :
    (countedUpTo map entries).range.1 ≤ (countedUpTo map entries).range.2 := by
  induction entries using List.reverseRecOn with
  | nil => exact Nat.le_refl 0
  | append_singleton before se induction =>
    rw [countedUpTo_append]
    exact getOvlappingChanIndex_ordered (countedUpTo_set set) induction

/-- The range of a network that is known does not depend on the networks before it. -/
theorem range_countedUpTo (set : ∀ i < wifinetMaxScanChan, (map i).chanIndex = chanAt i)
    (channel : i < 62) (center : se.centerChan = chanAt i) :
    (countedUpTo map (before ++ [se])).range = entryRange i se.bw := by
  rw [countedUpTo_append, OverlapState.count, center]
  exact getOvlappingChanIndex_found (countedUpTo_set set) channel se.bw

def Counted (map : Nat → ChanOverlapping) (j : Nat) (se : ScaninfoEntry) : Prop :=
  InRange (getOvlappingChanIndex map se.centerChan se.bw (0, 0)) j

instance : Decidable (Counted map j se) := inferInstanceAs (Decidable (_ ∧ _))

theorem counted_iff (set : ∀ i < wifinetMaxScanChan, (map i).chanIndex = chanAt i)
    (channel : i < 62) (center : se.centerChan = chanAt i) :
    Counted map j se ↔ InRange (entryRange i se.bw) j := by
  rw [Counted, center, getOvlappingChanIndex_found set channel]

/-- When all networks are known, the counts are the numbers of networks that are counted. -/
theorem overlapping_countedUpTo (set : ∀ i < wifinetMaxScanChan, (map i).chanIndex = chanAt i)
    (known : ∀ se ∈ entries, se.Known map) (inside : j < wifinetMaxScanChan) :
    ((countedUpTo map entries).map j).overlapping =
      (entries.countP fun se => Counted map j se) % 65536 := by
  induction entries using List.reverseRecOn with
  | nil => exact congrArg ChanOverlapping.overlapping (if_pos inside)
  | append_singleton before se induction =>
    have earlier := induction fun se member => known se (List.mem_append_left _ member)
    obtain ⟨i, channel, center⟩ :=
      known_entry set (known se (List.mem_append_right _ (List.mem_singleton.mpr rfl)))
    have range : (countedUpTo map (before ++ [se])).range = entryRange i se.bw :=
      range_countedUpTo set channel center
    rw [countedUpTo_append] at range ⊢
    have step : ((countedUpTo map before).count se).map j =
        countRange (countedUpTo map before).map ((countedUpTo map before).count se).range j := rfl
    rw [step, range, countRange_apply, List.countP_append, List.countP_singleton]
    by_cases counted : InRange (entryRange i se.bw) j
    · rw [if_pos counted, if_pos (decide_eq_true ((counted_iff set channel center).mpr counted))]
      dsimp only
      rw [earlier, Nat.mod_add_mod]
    · have uncounted : ¬ decide (Counted map j se) = true := by
        rw [decide_eq_true_eq, counted_iff set channel center]
        exact counted
      rw [if_neg counted, if_neg uncounted, Nat.add_zero, earlier]

end Tables

/-! ### When the counts are right -/

section Counts

variable {map : OverlapMap} {table : OverlapTable}

theorem mem_split {se : ScaninfoEntry} (member : se ∈ table.entries) :
    ∃ before after, table.entries = before ++ se :: after := List.append_of_mem member

theorem known_of_counted (counted : OverlapCounted map.cells table.entries) :
    ∀ se ∈ table.entries, se.Known map.cells := by
  intro se member
  obtain ⟨before, after, parts⟩ := mem_split member
  by_contra unknown
  have same := counted.unknown before se after parts unknown
  have ordered : (countedUpTo map.cells (before ++ [se])).range.1 ≤
      (countedUpTo map.cells (before ++ [se])).range.2 := countedUpTo_ordered map.set
  rw [countedUpTo_append] at same ordered
  exact countRange_ne ordered (same _)

theorem bandOf_near {i j : Nat} {bw : BwcWidth} (channel : i < 62) (tabled : bw.Tabled)
    (near : Near i bw.halfWidth j) : bandOf (chanAt j) = bandOf (chanAt i) := by
  obtain ⟨inside, lower, upper⟩ := near
  have half : bw.halfWidth ≤ 8 := by
    obtain rfl | rfl | rfl := tabled <;> decide
  have here := chanAt_cases channel
  have there := chanAt_cases inside
  have positive := chanAt_pos channel
  have positive' := chanAt_pos inside
  have narrow : (chanAt j < 15) = (chanAt i < 15) := by
    apply propext
    omega
  rw [bandOf, bandOf, if_neg (Nat.ne_of_gt positive), if_neg (Nat.ne_of_gt positive')]
  simp only [narrow]

theorem oneSided_of_counted (counted : OverlapCounted map.cells table.entries)
    {se : ScaninfoEntry} (member : se ∈ table.entries) {i : Nat} (channel : i < 62)
    (center : se.centerChan = chanAt i) :
    OneSided i se.bw.halfWidth (entryRange i se.bw) ∧
      (¬ Clear (chanAt i) se.bw.halfWidth →
        ∃ j, j < 64 ∧ ¬ (InRange (entryRange i se.bw) j ↔ Near i se.bw.halfWidth j)) := by
  have tabled := table.tabled se member
  by_cases clear : Clear (chanAt i) se.bw.halfWidth
  · refine ⟨?_, fun not => absurd clear not⟩
    intro j _
    have same : InRange (entryRange i se.bw) j ↔ Near i se.bw.halfWidth j :=
      inRange_iff_near channel tabled clear
    exact ⟨fun _ => ⟨same.mpr, fun inside => Or.inl (same.mp inside)⟩, fun _ => same.mp⟩
  · obtain ⟨before, after, parts⟩ := mem_split member
    have known := known_of_counted counted se member
    have inBand := counted.ranges before se after parts known
    have ordered : (countedUpTo map.cells (before ++ [se])).range.1 ≤
        (countedUpTo map.cells (before ++ [se])).range.2 := countedUpTo_ordered map.set
    rw [range_countedUpTo map.set channel center] at inBand ordered
    obtain ⟨inside, band⟩ := inBand _ ordered (Nat.le_refl _)
    rw [map.set _ inside, center] at band
    have up : (entryRange i se.bw).2 < 62 := by
      by_contra past
      have some := chanAt_pos channel
      rw [chanAt_past (Nat.not_lt.mp past), bandOf, bandOf, if_pos rfl, if_neg (by omega)] at band
      split at band <;> cases band
    have widths : se.bw ∈ [BwcWidth.width20, .width40, .width80] := by
      obtain same | same | same := tabled <;> rw [ScaninfoEntry.bw, same] <;> decide
    obtain ⟨oneSided, wrong⟩ := ends_of_not_clear i channel se.bw widths clear up band
    exact ⟨oneSided, fun _ => wrong⟩

/-- When the counts are right, a network is counted just where it overlaps a channel. -/
theorem counted_iff_overlaps (counted : OverlapCounted map.cells table.entries) {j : Nat}
    (inside : j < wifinetMaxScanChan) : ∀ se ∈ table.entries,
      Counted map.cells j se ↔ se.Overlaps map.cells (map.cells j).chanIndex := by
  have known := known_of_counted counted
  have counts : ∀ j < wifinetMaxScanChan,
      (table.entries.countP fun se => Counted map.cells j se) % 65536 =
        table.entries.countP fun se => se.Overlaps map.cells (map.cells j).chanIndex := by
    intro j inside
    rw [← counted.counts j inside]
    exact (overlapping_countedUpTo map.set known inside).symm
  have sides : ∀ se ∈ table.entries,
      (Edge j → (se.Overlaps map.cells (map.cells j).chanIndex → Counted map.cells j se) ∧
        (Counted map.cells j se → se.Overlaps map.cells (map.cells j).chanIndex ∨
          se.Overlaps map.cells (map.cells (besideEdge j)).chanIndex)) ∧
      (¬ Edge j → Counted map.cells j se → se.Overlaps map.cells (map.cells j).chanIndex) := by
    intro se member
    obtain ⟨i, channel, center⟩ := known_entry map.set (known se member)
    have beside : besideEdge j < wifinetMaxScanChan := by
      unfold besideEdge
      split
      · decide
      · split <;> decide
    rw [counted_iff map.set channel center, overlaps_iff map.set (known se member) center inside,
      overlaps_iff map.set (known se member) center beside]
    exact (oneSided_of_counted counted member channel center).1 j inside
  have below : ∀ j < wifinetMaxScanChan,
      (table.entries.countP fun se => se.Overlaps map.cells (map.cells j).chanIndex) < 65536 := by
    intro j inside
    rw [← counts j inside]
    exact Nat.mod_lt _ (by decide)
  intro se member
  by_cases edge : Edge j
  · -- the networks that are counted too often at an edge overlap the channel beside it
    have beside : besideEdge j < wifinetMaxScanChan := by
      unfold besideEdge
      split
      · decide
      · split <;> decide
    refine ⟨fun here => ?_, ((sides se member).1 edge).1⟩
    have stronger : ∀ se ∈ table.entries,
        decide (se.Overlaps map.cells (map.cells j).chanIndex) = true →
          decide (Counted map.cells j se) = true := by
      intro se member overlaps
      exact decide_eq_true (((sides se member).1 edge).1 (of_decide_eq_true overlaps))
    have between : ∀ se ∈ table.entries, decide (Counted map.cells j se) = true →
        decide (se.Overlaps map.cells (map.cells j).chanIndex) = true ∨
          decide (se.Overlaps map.cells (map.cells (besideEdge j)).chanIndex) = true := by
      intro se member counted
      simp only [decide_eq_true_eq]
      exact ((sides se member).1 edge).2 (of_decide_eq_true counted)
    exact of_decide_eq_true (Tally.imp_of_countP_mod stronger between (below _ beside)
      (counts j inside) se member (decide_eq_true here))
  · refine ⟨(sides se member).2 edge, fun here => ?_⟩
    have stronger : ∀ se ∈ table.entries, decide (Counted map.cells j se) = true →
        decide (se.Overlaps map.cells (map.cells j).chanIndex) = true := by
      intro se member counted
      exact decide_eq_true ((sides se member).2 edge (of_decide_eq_true counted))
    have fewer := List.countP_mono_left stronger
    have same := counts j inside
    rw [Nat.mod_eq_of_lt (Nat.lt_of_le_of_lt fewer (below j inside))] at same
    exact of_decide_eq_true
      (Tally.imp_of_countP_eq stronger same se member (decide_eq_true here))

/-- The counts of a table are right just when every network has a centre channel of the map that
keeps away from the ends of the blocks, and no channel is overlapped by more networks than sixteen
bits can count. -/
theorem overlapCounted_iff (map : OverlapMap) (table : OverlapTable) :
    OverlapCounted map.cells table.entries ↔
      (∀ se ∈ table.entries,
        se.Known map.cells ∧ Clear se.centerChan se.bw.halfWidth) ∧
      ∀ i < wifinetMaxScanChan,
        (table.entries.countP fun se => se.Overlaps map.cells (map.cells i).chanIndex) < 65536 := by
  constructor
  · intro counted
    have known := known_of_counted counted
    constructor
    · intro se member
      refine ⟨known se member, ?_⟩
      obtain ⟨i, channel, center⟩ := known_entry map.set (known se member)
      rw [center]
      by_contra edge
      obtain ⟨j, inside, wrong⟩ := (oneSided_of_counted counted member channel center).2 edge
      apply wrong
      rw [← counted_iff map.set channel center,
        ← overlaps_iff map.set (known se member) center inside]
      exact counted_iff_overlaps counted inside se member
    · intro i inside
      rw [← counted.counts i inside]
      have count : (wifiMacUpdateChanOverlappingMap map.cells table.entries i).overlapping =
          _ % 65536 := overlapping_countedUpTo map.set known inside
      rw [count]
      exact Nat.mod_lt _ (by decide)
  · intro ⟨clear, small⟩
    have known : ∀ se ∈ table.entries, se.Known map.cells := fun se member => (clear se member).1
    refine ⟨?_, ?_, ?_⟩
    · intro i inside
      have count : (wifiMacUpdateChanOverlappingMap map.cells table.entries i).overlapping =
          _ % 65536 := overlapping_countedUpTo map.set known inside
      have same : (table.entries.countP fun se => Counted map.cells i se) =
          table.entries.countP fun se => se.Overlaps map.cells (map.cells i).chanIndex := by
        apply List.countP_congr
        intro se member
        obtain ⟨k, channel, center⟩ := known_entry map.set (known se member)
        have away := (clear se member).2
        rw [center] at away
        rw [decide_eq_true_eq, decide_eq_true_eq, counted_iff map.set channel center,
          overlaps_iff map.set (known se member) center inside]
        exact inRange_iff_near channel (table.tabled se member) away
      rw [count, same, Nat.mod_eq_of_lt (small i inside)]
    · intro before se after parts unknown
      have member : se ∈ table.entries := by
        rw [parts]
        exact List.mem_append_right _ List.mem_cons_self
      exact absurd (known se member) unknown
    · intro before se after parts _
      have member : se ∈ table.entries := by
        rw [parts]
        exact List.mem_append_right _ List.mem_cons_self
      obtain ⟨k, channel, center⟩ := known_entry map.set (known se member)
      have away := (clear se member).2
      rw [center] at away
      have tabled : se.bw.Tabled := table.tabled se member
      intro range i low up
      have near : Near k se.bw.halfWidth i := by
        apply (inRange_iff_near channel tabled away).mp
        have same : range = entryRange k se.bw := range_countedUpTo map.set channel center
        rw [← same]
        exact ⟨low, up⟩
      have inside : i < wifinetMaxScanChan := Nat.lt_trans near.1 (by decide)
      refine ⟨inside, ?_⟩
      rw [map.set i inside, center]
      exact bandOf_near channel tabled near

def driverMap : OverlapMap := ⟨wifiMacChanOverlappingMapInit fun _ => ⟨0, 0⟩, fun _ _ => rfl⟩

/-- A network at a frequency, with a band of twenty megahertz. -/
def networkAt (freq : Nat) : ScaninfoEntry where
  scaninfo :=
    { siMacaddr := []
      siBssid := []
      array := fun _ _ => 0
      siTstamp := []
      siIntval := 100
      siCapinfo := 0x1
      siChan := ⟨freq, 0x4000, 13, .width20⟩
      siTimoff := 0
      siErp := 0
      siRssi := 0
      siDtimperiod := 0
      siRsnCapa := 0
      siFrameLen := 0 }
  connectcnt := 0
  seValid := true
  seAvgrssi := 0
  lastUpdateTime := 0
  connectTime := 0

/-- A network on channel 13 counts for channel 34, and one on channel 184 for channel 1. -/
theorem overlapCounted_past_edge :
    ¬ OverlapCounted driverMap.cells [networkAt 2472] ∧
      ¬ OverlapCounted driverMap.cells [networkAt 5920] := by
  constructor
  · intro counted
    have right := counted.counts 14 (by decide)
    revert right
    decide
  · intro counted
    have right := counted.counts 0 (by decide)
    revert right
    decide

end Counts

end W522a.Scan
