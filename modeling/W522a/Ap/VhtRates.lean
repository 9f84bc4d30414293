import W522a.Ap.AssocReq
import W522a.Lib.Packed

/-!
The negotiation of the VHT rates. A map has two bits for each of the eight streams, of which 3 says
that the stream is not supported.

What the negotiation of the HT and the VHT rates ought to leave, and the rate sets and maps for
which it does.
-/

namespace W522a.Ap

@[simp] abbrev maxVhtStreams : Nat := 8

/-- `struct wifi_mac_vht_rate_s`. The loops over the streams stay inside the array because of
`few`. -/
structure VhtRates where
  numStreams : Nat
  rates : List Nat
  few : numStreams ≤ maxVhtStreams
  whole : rates.length = maxVhtStreams

def VhtRates.rate (vht : VhtRates) (stream : Nat) : Nat := vht.rates.getD stream 0

/-- `wifi_mac_get_vht_rates`, which counts the supported streams wherever they are. -/
def wifiMacGetVhtRates (map : Nat) : VhtRates where
  numStreams := (Packed.unpack 4 maxVhtStreams map).countP (· < 3)
  rates := Packed.unpack 4 maxVhtStreams map
  few := Nat.le_trans List.countP_le_length (Nat.le_of_eq Packed.length_unpack)
  whole := Packed.length_unpack

def wifiMacGetVhtRateMap (vht : VhtRates) : Nat :=
  vht.rates.foldr (fun rate map => rate ||| map <<< 2) 0 % 2 ^ 16

def wifiMacGetVhtIntersectRates (srs drs : VhtRates) : VhtRates where
  numStreams := min srs.numStreams drs.numStreams
  rates := (List.range maxVhtStreams).map fun stream =>
    if stream < min srs.numStreams drs.numStreams then min (srs.rate stream) (drs.rate stream)
    else 3
  few := Nat.le_trans (Nat.min_le_left _ _) srs.few
  whole := by rw [List.length_map, List.length_range]

def wifiMacVhtBasicRateCheck (irs brs : VhtRates) : Bool :=
  if irs.numStreams < brs.numStreams then false
  else (List.range brs.numStreams).all fun stream => !decide (irs.rate stream < brs.rate stream)

/-- The maps that are negotiated: the ones of the interface, its basic map and the ones of the
peer. -/
structure VhtMaps where
  tx : Nat
  rx : Nat
  basic : Nat
  peerRx : Nat
  peerTx : Nat

/-- What the interface sends and the peer receives. -/
def VhtMaps.txIrs (maps : VhtMaps) (xsect : Bool) : VhtRates :=
  if xsect then
    wifiMacGetVhtIntersectRates (wifiMacGetVhtRates maps.peerRx) (wifiMacGetVhtRates maps.tx)
  else wifiMacGetVhtRates maps.peerRx

/-- What the peer sends and the interface receives. -/
def VhtMaps.rxIrs (maps : VhtMaps) (xsect : Bool) : VhtRates :=
  if xsect then
    wifiMacGetVhtIntersectRates (wifiMacGetVhtRates maps.peerTx) (wifiMacGetVhtRates maps.rx)
  else wifiMacGetVhtRates maps.peerTx

/-- What the negotiation leaves in the station and returns, and the index of the entry that it
reads for the last stream. -/
structure VhtSetup where
  staVhtrates : List Nat
  staStreams : Nat
  staTxVhtrates : Nat
  staRxVhtrates : Nat
  lastRead : Int
  result : Bool

/-- `wifi_mac_setup_vht_rates`; `below` is the byte in front of the array, which is read when no
stream is negotiated. -/
def wifiMacSetupVhtRates (below : Nat) (maps : VhtMaps) (xsect brs : Bool) : VhtSetup :=
  let txIrs := maps.txIrs xsect
  let rxIrs := maps.rxIrs xsect
  let last := if txIrs.numStreams = 0 then below else txIrs.rate (txIrs.numStreams - 1)
  { staVhtrates := List.range (if last = 2 then 10 else if last = 1 then 9 else 8)
    staStreams := txIrs.numStreams
    staTxVhtrates := wifiMacGetVhtRateMap txIrs
    staRxVhtrates := wifiMacGetVhtRateMap rxIrs
    lastRead := (txIrs.numStreams : Int) - 1
    result := !brs ||
      (wifiMacVhtBasicRateCheck txIrs (wifiMacGetVhtRates maps.basic) &&
        wifiMacVhtBasicRateCheck rxIrs (wifiMacGetVhtRates maps.basic)) }

/-- The rates of the HT set are the ones that both sides support, among the MCSs 0 to 7. -/
def HtNegotiated (conf : AssocConf) (ie : Nat → UInt8) : Prop :=
  ∀ mcs, (∃ rate ∈ wifiMacSetupHtRates conf (some ie), wifinetGetRateVal rate = mcs) ↔
    mcs ≤ 7 ∧ (ie 5).toNat.testBit mcs ∧ ∃ rate ∈ conf.wmSupHtRates, wifinetGetRateVal rate = mcs

def vhtRate (map stream : Nat) : Nat := Packed.lane 4 map stream

def Supported (map stream : Nat) : Prop := vhtRate map stream < 3

instance (map : Nat) : DecidablePred (Supported map) := fun stream =>
  inferInstanceAs (Decidable (vhtRate map stream < 3))

def streams (map : Nat) : Nat := Nat.count (Supported map) maxVhtStreams

/-- The lower of the maximum MCSs of two maps. -/
def lowerRate (first second stream : Nat) : Nat :=
  if Supported first stream ∧ Supported second stream then
    min (vhtRate first stream) (vhtRate second stream)
  else 3

/-- A basic rate is met by what two maps have in common. -/
def Met (basic first second stream : Nat) : Prop :=
  Supported first stream ∧ Supported second stream ∧
    vhtRate basic stream ≤ lowerRate first second stream

/-- The first streams that two maps have in common are so many. -/
def LeadingCommon (first second count : Nat) : Prop :=
  count ≤ maxVhtStreams ∧ (∀ stream < count, Supported first stream ∧ Supported second stream) ∧
    (count < maxVhtStreams → ¬ (Supported first count ∧ Supported second count))

structure VhtNegotiated (below : Nat) (maps : VhtMaps) (brs : Bool) : Prop where
  inside : 0 ≤ (wifiMacSetupVhtRates below maps true brs).lastRead ∧
    (wifiMacSetupVhtRates below maps true brs).lastRead < maxVhtStreams
  tx : ∀ stream < maxVhtStreams,
    (maps.txIrs true).rate stream = lowerRate maps.peerRx maps.tx stream
  rx : ∀ stream < maxVhtStreams,
    (maps.rxIrs true).rate stream = lowerRate maps.peerTx maps.rx stream
  leading : LeadingCommon maps.peerRx maps.tx
    (wifiMacSetupVhtRates below maps true brs).staStreams
  txStored : ∀ stream < maxVhtStreams,
    vhtRate (wifiMacSetupVhtRates below maps true brs).staTxVhtrates stream =
      (maps.txIrs true).rate stream
  rxStored : ∀ stream < maxVhtStreams,
    vhtRate (wifiMacSetupVhtRates below maps true brs).staRxVhtrates stream =
      (maps.rxIrs true).rate stream
  basic : (wifiMacSetupVhtRates below maps true brs).result = false ↔
    brs = true ∧ ∃ stream < maxVhtStreams, Supported maps.basic stream ∧
      (¬ Met maps.basic maps.peerRx maps.tx stream ∨ ¬ Met maps.basic maps.peerTx maps.rx stream)

/-- There is a common stream, and as many streams as the smaller map has, counted from the first,
are common. -/
def TxLeading (maps : VhtMaps) : Prop :=
  0 < min (streams maps.peerRx) (streams maps.tx) ∧
    ∀ stream < min (streams maps.peerRx) (streams maps.tx),
      Supported maps.peerRx stream ∧ Supported maps.tx stream

/-- Of as many streams as the smaller map has, counted from the first, each is in both maps or in
none, and no other is common. -/
def RxAligned (maps : VhtMaps) : Prop :=
  ∀ stream < maxVhtStreams,
    if stream < min (streams maps.peerTx) (streams maps.rx) then
      (Supported maps.peerTx stream ↔ Supported maps.rx stream)
    else ¬ (Supported maps.peerTx stream ∧ Supported maps.rx stream)

def AllMet (maps : VhtMaps) : Prop :=
  ∀ stream < maxVhtStreams, Supported maps.basic stream →
    Met maps.basic maps.peerRx maps.tx stream ∧ Met maps.basic maps.peerTx maps.rx stream

def HoleMet (maps : VhtMaps) : Prop :=
  (∃ stream < streams maps.basic, ¬ Supported maps.basic stream) ∧ AllMet maps

/-- The basic map is met by what is sent. What is received has as many streams and meets the basic
map wherever it has the stream, but one of the basic streams it has not. -/
def LackPassed (maps : VhtMaps) : Prop :=
  streams maps.basic ≤ min (streams maps.peerTx) (streams maps.rx) ∧
    (∀ stream < streams maps.basic, Supported maps.basic stream ∧
      Met maps.basic maps.peerRx maps.tx stream ∧
      (Supported maps.peerTx stream ∧ Supported maps.rx stream →
        Met maps.basic maps.peerTx maps.rx stream)) ∧
    ∃ stream < streams maps.basic, ¬ (Supported maps.peerTx stream ∧ Supported maps.rx stream)

variable {map first second basic stream mcs count : Nat} {maps : VhtMaps} {conf : AssocConf}
  {ie : Nat → UInt8} {brs : Bool}

section Ht

/-- The rates that are left are the common ones of the first seven MCSs. -/
theorem setupHtRates_iff :
    (∃ rate ∈ wifiMacSetupHtRates conf (some ie), wifinetGetRateVal rate = mcs) ↔
      mcs < 7 ∧ (ie 5).toNat.testBit mcs ∧
        ∃ rate ∈ conf.wmSupHtRates, wifinetGetRateVal rate = mcs := by
  have value : ∀ mcs < 7, wifinetGetRateVal mcs = mcs := by decide
  constructor
  · intro ⟨rate, found, same⟩
    obtain ⟨own, common⟩ := List.mem_filter.mp found
    obtain ⟨peer, offered, equal⟩ := rateOf_iff.mp common
    obtain ⟨low, bit⟩ := List.mem_filter.mp offered
    have few := List.mem_range.mp low
    rw [value peer few, same] at equal
    subst equal
    exact ⟨few, bit, rate, own, same⟩
  · intro ⟨few, bit, rate, own, same⟩
    refine ⟨rate, List.mem_filter.mpr ⟨own, rateOf_iff.mpr ⟨mcs, ?_, ?_⟩⟩, same⟩
    · exact List.mem_filter.mpr ⟨List.mem_range.mpr few, bit⟩
    · rw [same, value mcs few]

theorem htNegotiated_iff : HtNegotiated conf ie ↔
    ¬ ((ie 5).toNat.testBit 7 ∧ ∃ rate ∈ conf.wmSupHtRates, wifinetGetRateVal rate = 7) := by
  constructor
  · intro right both
    have left := (right 7).mpr ⟨Nat.le_refl _, both⟩
    exact Nat.lt_irrefl _ (setupHtRates_iff.mp left).1
  · intro lacking mcs
    rw [setupHtRates_iff]
    constructor
    · intro ⟨few, rest⟩
      exact ⟨Nat.le_of_lt few, rest⟩
    · intro ⟨few, rest⟩
      refine ⟨Nat.lt_of_le_of_ne few ?_, rest⟩
      intro last
      subst last
      exact lacking rest

end Ht

section Maps

theorem vhtRate_lt (map stream : Nat) : vhtRate map stream < 4 := Nat.mod_lt _ (by decide)

@[simp] theorem numStreams_getVhtRates (map : Nat) :
    (wifiMacGetVhtRates map).numStreams = streams map :=
  Packed.countP_unpack

theorem rate_getVhtRates (inside : stream < maxVhtStreams) :
    (wifiMacGetVhtRates map).rate stream = vhtRate map stream :=
  Packed.getD_unpack inside

theorem streams_le (map : Nat) : streams map ≤ maxVhtStreams := Nat.count_le _

theorem lowerRate_common (left : Supported first stream) (right : Supported second stream) :
    lowerRate first second stream = min (vhtRate first stream) (vhtRate second stream) :=
  if_pos ⟨left, right⟩

theorem lowerRate_lacking (lacking : ¬ (Supported first stream ∧ Supported second stream)) :
    lowerRate first second stream = 3 :=
  if_neg lacking

private theorem lowerRate_le (first second stream : Nat) : lowerRate first second stream ≤ 3 := by
  by_cases common : Supported first stream ∧ Supported second stream
  · rw [lowerRate_common common.1 common.2]
    exact Nat.le_trans (Nat.min_le_left _ _) (Nat.le_of_lt common.1)
  · rw [lowerRate_lacking common]

theorem lowerRate_lt_iff :
    lowerRate first second stream < 3 ↔ Supported first stream ∧ Supported second stream := by
  constructor
  · intro low
    by_contra lacking
    rw [lowerRate_lacking lacking] at low
    exact Nat.lt_irrefl _ low
  · intro ⟨left, right⟩
    rw [lowerRate_common left right]
    exact Nat.lt_of_le_of_lt (Nat.min_le_left _ _) left

private theorem rate_intersect (inside : stream < maxVhtStreams) :
    (wifiMacGetVhtIntersectRates (wifiMacGetVhtRates first) (wifiMacGetVhtRates second)).rate
        stream =
      if stream < min (streams first) (streams second) then
        min (vhtRate first stream) (vhtRate second stream)
      else 3 := by
  rw [VhtRates.rate, wifiMacGetVhtIntersectRates, List.getD_eq_getElem?_getD, List.getElem?_map,
    List.getElem?_range inside]
  simp only [Option.map_some, Option.getD_some, numStreams_getVhtRates,
    rate_getVhtRates inside]

/-- An entry is the right one if the stream is in both maps or in none, for the first streams, and
not common, for the others. -/
theorem rate_intersect_eq_iff (inside : stream < maxVhtStreams) :
    (wifiMacGetVhtIntersectRates (wifiMacGetVhtRates first) (wifiMacGetVhtRates second)).rate
        stream = lowerRate first second stream ↔
      if stream < min (streams first) (streams second) then
        (Supported first stream ↔ Supported second stream)
      else ¬ (Supported first stream ∧ Supported second stream) := by
  rw [rate_intersect inside]
  by_cases early : stream < min (streams first) (streams second)
  · rw [if_pos early, if_pos early]
    by_cases common : Supported first stream ∧ Supported second stream
    · rw [lowerRate_common common.1 common.2]
      exact iff_of_true rfl (iff_of_true common.1 common.2)
    · rw [lowerRate_lacking common]
      have left := vhtRate_lt first stream
      have right := vhtRate_lt second stream
      simp only [Supported] at common ⊢
      omega
  · rw [if_neg early, if_neg early]
    rw [← lowerRate_lt_iff]
    have low := lowerRate_le first second stream
    omega

theorem vhtRate_getVhtRateMap {vht : VhtRates} (small : ∀ rate ∈ vht.rates, rate < 4)
    (inside : stream < maxVhtStreams) :
    vhtRate (wifiMacGetVhtRateMap vht) stream = vht.rate stream := by
  have joined : ∀ rates : List Nat, (∀ rate ∈ rates, rate < 4) →
      rates.foldr (fun rate map => rate ||| map <<< 2) 0 = Packed.pack 4 rates := by
    intro rates
    induction rates with
    | nil => exact fun _ => rfl
    | cons rate rates ih =>
      intro small
      have rest := ih (fun other found => small other (List.mem_cons_of_mem _ found))
      have bits : rate < 2 ^ 2 := small rate List.mem_cons_self
      rw [List.foldr_cons, rest, Nat.or_comm, ← Nat.shiftLeft_add_eq_or_of_lt bits,
        Nat.shiftLeft_eq, Nat.mul_comm, Nat.add_comm]
      rfl
  have word : wifiMacGetVhtRateMap vht = Packed.pack 4 vht.rates := by
    rw [wifiMacGetVhtRateMap, joined vht.rates small]
    apply Nat.mod_eq_of_lt
    have fits := Packed.pack_lt small
    rwa [vht.whole] at fits
  have back := Packed.unpack_pack small
  rw [vhtRate, word, ← Packed.getD_unpack inside, VhtRates.rate]
  rw [vht.whole] at back
  rw [back]

theorem small_intersect (first second : Nat) :
    ∀ rate ∈ (wifiMacGetVhtIntersectRates (wifiMacGetVhtRates first)
      (wifiMacGetVhtRates second)).rates, rate < 4 := by
  intro rate found
  obtain ⟨stream, low, same⟩ := List.mem_map.mp found
  have inside := List.mem_range.mp low
  rw [rate_getVhtRates inside, rate_getVhtRates inside] at same
  have left := vhtRate_lt first stream
  rw [← same]
  split
  · omega
  · decide

end Maps

section Negotiation

theorem basicRateCheck_iff {irs : VhtRates} :
    wifiMacVhtBasicRateCheck irs (wifiMacGetVhtRates basic) = true ↔
      streams basic ≤ irs.numStreams ∧
        ∀ stream < streams basic, vhtRate basic stream ≤ irs.rate stream := by
  rw [wifiMacVhtBasicRateCheck, numStreams_getVhtRates]
  by_cases few : irs.numStreams < streams basic
  · rw [if_pos few]
    exact iff_of_false Bool.false_ne_true (fun enough => Nat.not_le.mpr few enough.1)
  · rw [if_neg few, List.all_eq_true]
    simp only [List.mem_range, Bool.not_eq_true', decide_eq_false_iff_not, Nat.not_lt]
    constructor
    · intro all
      refine ⟨Nat.le_of_not_lt few, ?_⟩
      intro stream low
      have met := all stream low
      rwa [rate_getVhtRates (Nat.lt_of_lt_of_le low (streams_le basic))] at met
    · intro ⟨_, all⟩ stream low
      rw [rate_getVhtRates (Nat.lt_of_lt_of_le low (streams_le basic))]
      exact all stream low

theorem le_streams (leading : ∀ stream < count, Supported first stream ∧ Supported second stream)
    (inside : count ≤ maxVhtStreams) : count ≤ min (streams first) (streams second) :=
  Nat.le_min.mpr
    ⟨Packed.le_count (fun stream low => (leading stream low).1) inside,
      Packed.le_count (fun stream low => (leading stream low).2) inside⟩

/-- If as many streams as the smaller map has are common, no other is. -/
theorem not_common_behind
    (leading : ∀ stream < min (streams first) (streams second),
      Supported first stream ∧ Supported second stream)
    (inside : stream < maxVhtStreams) (behind : min (streams first) (streams second) ≤ stream) :
    ¬ (Supported first stream ∧ Supported second stream) := by
  intro common
  rcases Nat.le_total (streams first) (streams second) with less | less
  · rw [Nat.min_eq_left less] at leading behind
    exact Packed.not_of_count (fun index low => (leading index low).1) rfl inside behind common.1
  · rw [Nat.min_eq_right less] at leading behind
    exact Packed.not_of_count (fun index low => (leading index low).2) rfl inside behind common.2

private theorem supported_iff_lt (whole : ∀ stream < streams map, Supported map stream)
    (inside : stream < maxVhtStreams) : Supported map stream ↔ stream < streams map := by
  constructor
  · intro supported
    apply Nat.lt_of_not_le
    intro behind
    exact Packed.not_of_count whole rfl inside behind supported
  · exact whole stream

theorem TxLeading.rates (leading : TxLeading maps) :
    ∀ stream < maxVhtStreams,
      (maps.txIrs true).rate stream = lowerRate maps.peerRx maps.tx stream := by
  intro stream inside
  apply (rate_intersect_eq_iff inside).mpr
  by_cases early : stream < min (streams maps.peerRx) (streams maps.tx)
  · rw [if_pos early]
    have common := leading.2 stream early
    exact iff_of_true common.1 common.2
  · rw [if_neg early]
    exact not_common_behind leading.2 inside (Nat.le_of_not_lt early)

theorem numStreams_txIrs :
    (maps.txIrs true).numStreams = min (streams maps.peerRx) (streams maps.tx) := by
  show min (wifiMacGetVhtRates maps.peerRx).numStreams (wifiMacGetVhtRates maps.tx).numStreams = _
  rw [numStreams_getVhtRates, numStreams_getVhtRates]

private theorem numStreams_rxIrs :
    (maps.rxIrs true).numStreams = min (streams maps.peerTx) (streams maps.rx) := by
  show min (wifiMacGetVhtRates maps.peerTx).numStreams (wifiMacGetVhtRates maps.rx).numStreams = _
  rw [numStreams_getVhtRates, numStreams_getVhtRates]

/-- The check of the basic rates goes through for what is sent where it is met, when the first
streams are common. -/
theorem TxLeading.check_iff (leading : TxLeading maps) :
    wifiMacVhtBasicRateCheck (maps.txIrs true) (wifiMacGetVhtRates maps.basic) = true ↔
      ∀ stream < streams maps.basic, Supported maps.basic stream ∧
        Met maps.basic maps.peerRx maps.tx stream := by
  rw [basicRateCheck_iff, numStreams_txIrs]
  constructor
  · intro ⟨enough, met⟩ stream low
    have inside := Nat.lt_of_lt_of_le low (streams_le maps.basic)
    have common := leading.2 stream (Nat.lt_of_lt_of_le low enough)
    have lower := met stream low
    rw [leading.rates stream inside] at lower
    exact ⟨Nat.lt_of_le_of_lt lower (lowerRate_lt_iff.mpr common), common.1, common.2, lower⟩
  · intro met
    refine ⟨le_streams (fun stream low => ?_) (streams_le maps.basic), ?_⟩
    · exact ⟨(met stream low).2.1, (met stream low).2.2.1⟩
    · intro stream low
      rw [leading.rates stream (Nat.lt_of_lt_of_le low (streams_le maps.basic))]
      exact (met stream low).2.2.2

theorem RxAligned.rates (aligned : RxAligned maps) :
    ∀ stream < maxVhtStreams,
      (maps.rxIrs true).rate stream = lowerRate maps.peerTx maps.rx stream :=
  fun stream inside => (rate_intersect_eq_iff inside).mpr (aligned stream inside)

/-- The check goes through for what is received where the common streams meet the basic map. -/
theorem RxAligned.check_iff (aligned : RxAligned maps)
    (whole : ∀ stream < streams maps.basic, Supported maps.basic stream) :
    wifiMacVhtBasicRateCheck (maps.rxIrs true) (wifiMacGetVhtRates maps.basic) = true ↔
      streams maps.basic ≤ min (streams maps.peerTx) (streams maps.rx) ∧
        ∀ stream < streams maps.basic, Supported maps.peerTx stream ∧ Supported maps.rx stream →
          Met maps.basic maps.peerTx maps.rx stream := by
  rw [basicRateCheck_iff, numStreams_rxIrs]
  apply and_congr_right
  intro enough
  apply forall_congr'
  intro stream
  apply imp_congr_right
  intro low
  rw [aligned.rates stream (Nat.lt_of_lt_of_le low (streams_le maps.basic))]
  constructor
  · intro lower common
    exact ⟨common.1, common.2, lower⟩
  · intro met
    by_cases common : Supported maps.peerTx stream ∧ Supported maps.rx stream
    · exact (met common).2.2
    · rw [lowerRate_lacking common]
      exact Nat.le_of_lt (whole stream low)

/-- The checks are right unless the basic map has a hole and is met, or what is received lacks a
basic stream that is not looked for. -/
theorem checks_iff (leading : TxLeading maps) (aligned : RxAligned maps) :
    ((wifiMacVhtBasicRateCheck (maps.txIrs true) (wifiMacGetVhtRates maps.basic) = true ∧
        wifiMacVhtBasicRateCheck (maps.rxIrs true) (wifiMacGetVhtRates maps.basic) = true) ↔
      AllMet maps) ↔ ¬ HoleMet maps ∧ ¬ LackPassed maps := by
  constructor
  · intro right
    constructor
    · intro ⟨⟨stream, low, hole⟩, met⟩
      exact hole (leading.check_iff.mp (right.mpr met).1 stream low).1
    · intro ⟨enough, sent, stream, low, lacking⟩
      have checkedTx := leading.check_iff.mpr (fun stream low =>
        ⟨(sent stream low).1, (sent stream low).2.1⟩)
      have checkedRx := (aligned.check_iff (fun stream low => (sent stream low).1)).mpr
        ⟨enough, fun stream low => (sent stream low).2.2⟩
      have inside := Nat.lt_of_lt_of_le low (streams_le maps.basic)
      have met := (right.mp ⟨checkedTx, checkedRx⟩ stream inside (sent stream low).1).2
      exact lacking ⟨met.1, met.2.1⟩
  · intro ⟨noHole, noLack⟩
    constructor
    · intro ⟨checkedTx, checkedRx⟩
      have sent := leading.check_iff.mp checkedTx
      have whole (stream : Nat) (low : stream < streams maps.basic) :
          Supported maps.basic stream := (sent stream low).1
      obtain ⟨enough, received⟩ := (aligned.check_iff whole).mp checkedRx
      intro stream inside supported
      have low := (supported_iff_lt whole inside).mp supported
      refine ⟨(sent stream low).2, received stream low ?_⟩
      by_contra lacking
      exact noLack ⟨enough, fun stream low =>
        ⟨(sent stream low).1, (sent stream low).2, received stream low⟩, stream, low, lacking⟩
    · intro met
      have whole (stream : Nat) (low : stream < streams maps.basic) :
          Supported maps.basic stream := by
        by_contra hole
        exact noHole ⟨⟨stream, low, hole⟩, met⟩
      have all (stream : Nat) (low : stream < streams maps.basic) :=
        met stream (Nat.lt_of_lt_of_le low (streams_le maps.basic)) (whole stream low)
      refine ⟨leading.check_iff.mpr (fun stream low => ⟨whole stream low, (all stream low).1⟩),
        (aligned.check_iff whole).mpr ⟨?_, fun stream low _ => (all stream low).2⟩⟩
      exact le_streams (fun stream low => ⟨(all stream low).2.1, (all stream low).2.2.1⟩)
        (streams_le maps.basic)

private theorem VhtNegotiated.txLeading {below : Nat} (negotiated : VhtNegotiated below maps brs) :
    TxLeading maps := by
  have first := negotiated.inside.1
  have common := negotiated.leading.2.1
  have read : (wifiMacSetupVhtRates below maps true brs).lastRead =
      ((maps.txIrs true).numStreams : Int) - 1 := rfl
  have left : (wifiMacSetupVhtRates below maps true brs).staStreams =
      (maps.txIrs true).numStreams := rfl
  rw [read, numStreams_txIrs] at first
  rw [left, numStreams_txIrs] at common
  exact ⟨by omega, common⟩

/-- What the check of the basic rates returns. -/
theorem result_iff {below : Nat} :
    ((wifiMacSetupVhtRates below maps true brs).result = false ↔
        brs = true ∧ ∃ stream < maxVhtStreams, Supported maps.basic stream ∧
          (¬ Met maps.basic maps.peerRx maps.tx stream ∨
            ¬ Met maps.basic maps.peerTx maps.rx stream)) ↔
      (brs = true →
        ((wifiMacVhtBasicRateCheck (maps.txIrs true) (wifiMacGetVhtRates maps.basic) = true ∧
          wifiMacVhtBasicRateCheck (maps.rxIrs true) (wifiMacGetVhtRates maps.basic) = true) ↔
          AllMet maps)) := by
  have unmet : (∃ stream < maxVhtStreams, Supported maps.basic stream ∧
      (¬ Met maps.basic maps.peerRx maps.tx stream ∨
        ¬ Met maps.basic maps.peerTx maps.rx stream)) ↔ ¬ AllMet maps := by
    simp only [AllMet, not_forall, not_and_or, exists_prop]
  rw [unmet]
  simp only [wifiMacSetupVhtRates]
  cases brs with
  | false => simp
  | true =>
    simp only [Bool.not_true, Bool.false_or, true_and, forall_const, ← Bool.not_eq_true]
    rw [← Bool.and_eq_true]
    exact not_iff_not

/-- The negotiation is right exactly if the first streams are common to what is sent and received,
as many as are counted, and no basic rate is taken for missing or for met by mistake. -/
theorem vhtNegotiated_iff {below : Nat} : VhtNegotiated below maps brs ↔
    TxLeading maps ∧ RxAligned maps ∧ (brs = true → ¬ HoleMet maps ∧ ¬ LackPassed maps) := by
  constructor
  · intro negotiated
    have leading := negotiated.txLeading
    have aligned : RxAligned maps := fun stream inside =>
      (rate_intersect_eq_iff inside).mp (negotiated.rx stream inside)
    refine ⟨leading, aligned, ?_⟩
    intro asked
    exact (checks_iff leading aligned).mp (result_iff.mp negotiated.basic asked)
  · intro ⟨leading, aligned, right⟩
    have inside : (maps.txIrs true).numStreams ≤ maxVhtStreams := (maps.txIrs true).few
    have some : 0 < (maps.txIrs true).numStreams := by
      rw [numStreams_txIrs]
      exact leading.1
    refine
      { inside := ?_
        tx := leading.rates
        rx := aligned.rates
        leading := ?_
        txStored := fun stream inside => vhtRate_getVhtRateMap (small_intersect _ _) inside
        rxStored := fun stream inside => vhtRate_getVhtRateMap (small_intersect _ _) inside
        basic := result_iff.mpr (fun asked => (checks_iff leading aligned).mpr (right asked)) }
    · show 0 ≤ ((maps.txIrs true).numStreams : Int) - 1 ∧
        ((maps.txIrs true).numStreams : Int) - 1 < maxVhtStreams
      omega
    · show LeadingCommon maps.peerRx maps.tx (maps.txIrs true).numStreams
      rw [numStreams_txIrs] at inside ⊢
      exact ⟨inside, leading.2, fun below => not_common_behind leading.2 below (Nat.le_refl _)⟩

/-- The HT rates are right unless MCS 7 is common, and the VHT rates unless a map has a hole in the
wrong place or no stream is common. -/
theorem rates_negotiated_iff (conf : AssocConf) (ie : Nat → UInt8) (below : Nat) (maps : VhtMaps)
    (brs : Bool) :
    (HtNegotiated conf ie ↔
      ¬ ((ie 5).toNat.testBit 7 ∧ ∃ rate ∈ conf.wmSupHtRates, wifinetGetRateVal rate = 7)) ∧
    (VhtNegotiated below maps brs ↔
      TxLeading maps ∧ RxAligned maps ∧ (brs = true → ¬ HoleMet maps ∧ ¬ LackPassed maps)) :=
  ⟨htNegotiated_iff, vhtNegotiated_iff⟩

/-- With one stream of the interface, a peer that has only the second stream is given the rates of
that on the first, and for a peer that has none an entry in front of the array is read. -/
theorem holes_misread :
    let hole : VhtMaps :=
      { tx := 0xfffe, rx := 0xfffe, basic := 0xffff, peerRx := 0xfffb, peerTx := 0xfffb }
    let none : VhtMaps :=
      { tx := 0xfffe, rx := 0xfffe, basic := 0xffff, peerRx := 0xffff, peerTx := 0xffff }
    (hole.txIrs true).rate 0 = 2 ∧ lowerRate hole.peerRx hole.tx 0 = 3 ∧
      ¬ VhtNegotiated 0 hole true ∧ (wifiMacSetupVhtRates 0 none true true).lastRead = -1 ∧
      ¬ VhtNegotiated 0 none true := by
  refine ⟨by decide, by decide, ?_, by decide, ?_⟩
  · intro negotiated
    exact absurd (negotiated.tx 0 (by decide)) (by decide)
  · intro negotiated
    exact absurd negotiated.inside.1 (by decide)

end Negotiation

end W522a.Ap
