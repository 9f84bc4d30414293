import Mathlib.Data.Finset.Max
import W522a.Ap.Tim

/-!
When a station decodes what the access point means: the offset of the bitmap is written only when
its length changes.
-/

namespace W522a.Ap

theorem even_le (value : Nat) : even value ≤ value := Nat.sub_le _ _

theorem even_even (value : Nat) : even (even value) = even value := by
  unfold even
  omega

theorem even_add_bit (value : Nat) {bit : Nat} (small : bit ≤ 1) :
    even (even value + bit) = even value := by
  unfold even
  omega

/-- What holds of the bitmap and the element in every state. -/
structure TimKept (beacon : TimBeacon) : Prop where
  aids : beacon.vif.vmMaxAid ≤ wifinetAidMax
  some : 0 < beacon.vif.vmMaxAid
  length : beacon.vif.vmTimBitmap.length = (beacon.vif.vmMaxAid + 7) / 8
  fits : Bitmap.Fits 8 beacon.vif.vmTimBitmap
  pending : beacon.vif.vmPsPending = Bitmap.card 8 beacon.vif.vmTimBitmap
  timLen : beacon.tie.timLen = 3 + beacon.boTimLen
  bytes : beacon.tie.timBitmap.length = beacon.boTimLen
  nonempty : 0 < beacon.boTimLen
  offset : even beacon.tie.timBitctl < 256

section Vif

variable {vif : TimVif} {associd : Nat} {set : Bool}

/-- What `wifi_mac_pwrsave_set_tim` does: nothing, or it changes the bit and counts. -/
theorem wifiMacPwrsaveSetTim_cases (vif : TimVif) (associd : Nat) (set : Bool) :
    (wifiMacPwrsaveSetTim vif associd set = vif ∧
      (vif.vmMaxAid ≤ wifinetAid associd ∨
        set = Bitmap.isset 8 vif.vmTimBitmap (wifinetAid associd))) ∨
    (wifinetAid associd < vif.vmMaxAid ∧ set = true ∧
      Bitmap.isset 8 vif.vmTimBitmap (wifinetAid associd) = false ∧
      wifiMacPwrsaveSetTim vif associd set = { vif with
        vmTimBitmap := Bitmap.setbit 8 vif.vmTimBitmap (wifinetAid associd)
        vmPsPending := (vif.vmPsPending + 1) % 65536
        timUpdate := true }) ∨
    (wifinetAid associd < vif.vmMaxAid ∧ set = false ∧
      Bitmap.isset 8 vif.vmTimBitmap (wifinetAid associd) = true ∧
      wifiMacPwrsaveSetTim vif associd set = { vif with
        vmTimBitmap := Bitmap.clrbit 8 vif.vmTimBitmap (wifinetAid associd)
        vmPsPending := (vif.vmPsPending + 65535) % 65536
        timUpdate := true }) := by
  unfold wifiMacPwrsaveSetTim
  by_cases past : vif.vmMaxAid ≤ wifinetAid associd
  · exact Or.inl ⟨if_pos past, Or.inl past⟩
  · have below := Nat.lt_of_not_le past
    by_cases same : set = Bitmap.isset 8 vif.vmTimBitmap (wifinetAid associd)
    · left
      exact ⟨by simp [same], Or.inr same⟩
    · right
      cases set with
      | true =>
        have clear : Bitmap.isset 8 vif.vmTimBitmap (wifinetAid associd) = false := by
          simpa using Ne.symm same
        exact Or.inl ⟨below, rfl, clear, by simp [past, clear]⟩
      | false =>
        have busy : Bitmap.isset 8 vif.vmTimBitmap (wifinetAid associd) = true := by
          simpa using Ne.symm same
        exact Or.inr ⟨below, rfl, busy, by simp [past, busy]⟩

theorem aid_inside {length maxAid aid : Nat} (whole : length = (maxAid + 7) / 8)
    (below : aid < maxAid) : aid / 8 < length := by
  omega

theorem card_small {bitmap : List Nat} {maxAid : Nat} (aids : maxAid ≤ wifinetAidMax)
    (whole : bitmap.length = (maxAid + 7) / 8) : Bitmap.card 8 bitmap ≤ 2008 := by
  have bound : Bitmap.card 8 bitmap ≤ 8 * bitmap.length := by
    have size := Finset.card_filter_le (Finset.range (8 * bitmap.length))
      (Bitmap.isset 8 bitmap · = true)
    rw [Finset.card_range] at size
    exact size
  simp only [wifinetAidMax] at aids
  omega

end Vif

section Slice

variable {bitmap : List Nat} {timoff : Nat}

/-- The offset is that of the first byte with a bit. -/
theorem timOffset_first {first : Nat} (inside : first < bitmap.length)
    (nonzero : bitmap.getD first 0 ≠ 0)
    (before : ∀ index, index < first → bitmap.getD index 0 = 0) :
    timOffset bitmap = even first := by
  have search : (List.range bitmap.length).find? (fun index => bitmap.getD index 0 ≠ 0) =
      some first := by
    rw [List.find?_range_eq_some]
    refine ⟨by simpa using nonzero, List.mem_range.mpr inside, ?_⟩
    intro index below
    simpa using before index below
  rw [timOffset, search]

/-- The loop ends at the last byte with a bit. -/
theorem timLast_last {start last : Nat} (inside : last ≤ start)
    (nonzero : bitmap.getD last 0 ≠ 0) (above : timoff ≤ last)
    (behind : ∀ index, last < index → bitmap.getD index 0 = 0) :
    timLast bitmap timoff start = last := by
  induction start with
  | zero =>
    rw [Nat.le_zero.mp inside]
    rfl
  | succ start induction =>
    rw [timLast]
    by_cases same : last = start + 1
    · rw [if_neg (by omega), ← same, if_pos nonzero]
    · rw [if_neg (by omega), if_neg (not_not.mpr (behind (start + 1) (by omega)))]
      exact induction (by omega)

structure Ends (bitmap : List Nat) (first last : Nat) : Prop where
  ordered : first ≤ last
  inside : last < bitmap.length
  firstBit : bitmap.getD first 0 ≠ 0
  lastBit : bitmap.getD last 0 ≠ 0
  before : ∀ index, index < first → bitmap.getD index 0 = 0
  behind : ∀ index, last < index → bitmap.getD index 0 = 0

theorem exists_ends {index : Nat} (nonzero : bitmap.getD index 0 ≠ 0) :
    ∃ first last, Ends bitmap first last := by
  have inside : ∀ index, bitmap.getD index 0 ≠ 0 → index < bitmap.length := by
    intro index found
    by_contra past
    rw [List.getD_eq_getElem?_getD, List.getElem?_eq_none (Nat.le_of_not_lt past)] at found
    exact found rfl
  let bytes := (Finset.range bitmap.length).filter fun index => bitmap.getD index 0 ≠ 0
  have member : ∀ index, index ∈ bytes ↔ bitmap.getD index 0 ≠ 0 := by
    intro index
    rw [Finset.mem_filter, Finset.mem_range]
    exact and_iff_right_of_imp (inside index)
  have some : bytes.Nonempty := ⟨index, (member index).mpr nonzero⟩
  refine ⟨bytes.min' some, bytes.max' some, bytes.min'_le _ (bytes.max'_mem some), ?_,
    (member _).mp (bytes.min'_mem some), (member _).mp (bytes.max'_mem some), ?_, ?_⟩
  · exact inside _ ((member _).mp (bytes.max'_mem some))
  · intro index below
    by_contra found
    exact absurd (bytes.min'_le index ((member index).mpr found)) (Nat.not_le.mpr below)
  · intro index above
    by_contra found
    exact absurd (bytes.le_max' index ((member index).mpr found)) (Nat.not_le.mpr above)

/-- What the section copies when frames are pending: from an even offset to the last byte with a
bit. -/
theorem timSlice_busy {vif : TimVif} {first last : Nat} (pending : vif.vmPsPending ≠ 0)
    (short : vif.vmTimBitmap.length ≤ 251) (ends : Ends vif.vmTimBitmap first last) :
    timSlice vif = some (even first, 1 + last - even first) := by
  have ordered := ends.ordered
  have inside := ends.inside
  have low := even_le first
  have offset := timOffset_first (Nat.lt_of_le_of_lt ordered inside) ends.firstBit ends.before
  have final : timLast vif.vmTimBitmap (even first) (vif.vmTimBitmap.length - 1) = last :=
    timLast_last (by omega) ends.lastBit (by omega) ends.behind
  rw [timSlice, if_pos pending]
  dsimp only
  rw [if_neg (by omega), offset, final]
  congr 2
  omega

end Slice

section Decode

variable {bitmap : List Nat} {tie : TimIe} {base timoff count first last : Nat}

/-- What a station reads of an element that holds a range of the bitmap. -/
theorem timReports_slice (length : tie.timLen = 3 + count) (offset : even tie.timBitctl = base)
    (bytes : tie.timBitmap = (bitmap.drop timoff).take count) (associd : Nat) :
    timReports tie associd = true ↔ base ≤ wifinetAid associd / 8 ∧
      wifinetAid associd / 8 < base + count ∧
      (bitmap.getD (timoff + (wifinetAid associd / 8 - base)) 0).testBit
        (wifinetAid associd % 8) = true := by
  unfold timReports
  dsimp only
  rw [offset, length, bytes, Bool.and_eq_true, Bool.and_eq_true, decide_eq_true_eq,
    decide_eq_true_eq, and_assoc]
  refine and_congr_right fun above => ?_
  have bound : wifinetAid associd / 8 + 4 ≤ 3 + count + base ↔
      wifinetAid associd / 8 < base + count := by omega
  rw [bound]
  refine and_congr_right fun below => ?_
  rw [List.getD_eq_getElem?_getD, List.getElem?_take_of_lt (by omega), List.getElem?_drop,
    ← List.getD_eq_getElem?_getD]

/-- An element with the offset of its bytes says what the bitmap says. -/
theorem timReports_fresh (ends : Ends bitmap first last)
    (length : tie.timLen = 3 + (1 + last - even first))
    (offset : even tie.timBitctl = even first)
    (bytes : tie.timBitmap = (bitmap.drop (even first)).take (1 + last - even first))
    (associd : Nat) :
    timReports tie associd = Bitmap.isset 8 bitmap (wifinetAid associd) := by
  have low := even_le first
  have ordered := ends.ordered
  rw [Bool.eq_iff_iff, timReports_slice length offset bytes, Bitmap.isset]
  constructor
  · rintro ⟨above, -, set⟩
    rw [Nat.add_sub_cancel' above] at set
    exact set
  · intro set
    have nonzero : bitmap.getD (wifinetAid associd / 8) 0 ≠ 0 := by
      intro zero
      rw [zero, Nat.zero_testBit] at set
      cases set
    have above : first ≤ wifinetAid associd / 8 :=
      Nat.le_of_not_lt fun below => nonzero (ends.before _ below)
    have below : wifinetAid associd / 8 ≤ last :=
      Nat.le_of_not_lt fun above => nonzero (ends.behind _ above)
    refine ⟨by omega, by omega, ?_⟩
    rw [Nat.add_sub_cancel' (by omega)]
    exact set

/-- An element with another offset than that of its bytes does not: it reports a station before the
first of the bitmap or behind the last. -/
theorem timReports_stale (fits : Bitmap.Fits 8 bitmap) (ends : Ends bitmap first last)
    (small : base < 256) (short : last < 256) (length : tie.timLen = 3 + (1 + last - even first))
    (offset : even tie.timBitctl = base) (other : base ≠ even first)
    (bytes : tie.timBitmap = (bitmap.drop (even first)).take (1 + last - even first)) :
    ∃ associd, timReports tie associd ≠ Bitmap.isset 8 bitmap (wifinetAid associd) := by
  have low := even_le first
  have ordered := ends.ordered
  -- a byte with a bit that is read where the bitmap has none
  have shifted : ∀ place, even first ≤ place → place ≤ last → bitmap.getD place 0 ≠ 0 →
      bitmap.getD (base + (place - even first)) 0 = 0 →
      ∃ associd, timReports tie associd ≠ Bitmap.isset 8 bitmap (wifinetAid associd) := by
    intro place above below nonzero clear
    obtain ⟨bit, width, set⟩ := fits.exists_bit nonzero
    have aid : wifinetAid (8 * (base + (place - even first)) + bit) =
        8 * (base + (place - even first)) + bit := by
      rw [wifinetAid_eq]
      exact Nat.mod_eq_of_lt (by omega)
    refine ⟨8 * (base + (place - even first)) + bit, ?_⟩
    rw [aid, Bitmap.isset_word width, clear, Nat.zero_testBit]
    rw [ne_eq, Bool.not_eq_false, timReports_slice length offset bytes, aid]
    have word : (8 * (base + (place - even first)) + bit) / 8 = base + (place - even first) := by
      omega
    have index : (8 * (base + (place - even first)) + bit) % 8 = bit := by omega
    rw [word, index, Nat.add_sub_cancel_left, Nat.add_sub_cancel' above]
    exact ⟨by omega, by omega, set⟩
  rcases Nat.lt_or_gt_of_ne other with before | behind
  · exact shifted first low ordered ends.firstBit (ends.before _ (by omega))
  · exact shifted last (by omega) le_rfl ends.lastBit (ends.behind _ (by omega))

end Decode

/-- The section would copy bytes of another offset than the element has, with the length that it
has. -/
def TimStale (beacon : TimBeacon) : Prop :=
  beacon.vif.timUpdate = true ∧ beacon.vif.vmPsPending ≠ 0 ∧
    ∃ timoff, timSlice beacon.vif = some (timoff, beacon.boTimLen) ∧
      timoff ≠ even beacon.tie.timBitctl

section Update

variable {beacon : TimBeacon}

theorem TimKept.short (kept : TimKept beacon) : beacon.vif.vmTimBitmap.length ≤ 251 := by
  have length := kept.length
  have aids := kept.aids
  simp only [wifinetAidMax] at aids
  omega

private theorem TimKept.bitmap (kept : TimKept beacon) : 0 < beacon.vif.vmTimBitmap.length := by
  have length := kept.length
  have some := kept.some
  omega

theorem TimKept.ends (kept : TimKept beacon) (pending : beacon.vif.vmPsPending ≠ 0) :
    ∃ first last, Ends beacon.vif.vmTimBitmap first last := by
  rw [kept.pending] at pending
  have busy : ∃ index, Bitmap.isset 8 beacon.vif.vmTimBitmap index = true := by
    by_contra clear
    refine pending ((Bitmap.card_eq_zero_iff (by decide)).mpr ?_)
    intro index
    rw [← Bool.not_eq_true]
    exact fun set => clear ⟨index, set⟩
  obtain ⟨index, set⟩ := busy
  have nonzero : beacon.vif.vmTimBitmap.getD (index / 8) 0 ≠ 0 := by
    intro zero
    rw [Bitmap.isset, zero, Nat.zero_testBit] at set
    cases set
  exact exists_ends nonzero

/-- What the section does when the bitmap has changed: with no frame pending it copies a byte of
zeros, else the bytes up to the last with a bit, and it writes their offset when their number is
new. -/
theorem timRenew_cases (kept : TimKept beacon) (changed : beacon.vif.timUpdate = true) :
    ∃ timoff timlen, timSlice beacon.vif = some (timoff, timlen) ∧ 0 < timlen ∧ timlen ≤ 251 ∧
      timoff + timlen ≤ beacon.vif.vmTimBitmap.length ∧ even timoff = timoff ∧ timoff < 256 ∧
      timRenew beacon =
        { vif := { beacon.vif with timUpdate := false }
          boTimLen := timlen
          tie := { beacon.tie with
            timLen := 3 + timlen
            timBitctl := if timlen ≠ beacon.boTimLen then timoff else beacon.tie.timBitctl
            timBitmap := (beacon.vif.vmTimBitmap.drop timoff).take timlen } } := by
  have short := kept.short
  have bitmap := kept.bitmap
  obtain ⟨timoff, timlen, slice, positive, bound, inside, whole⟩ :
      ∃ timoff timlen, timSlice beacon.vif = some (timoff, timlen) ∧ 0 < timlen ∧ timlen ≤ 251 ∧
        timoff + timlen ≤ beacon.vif.vmTimBitmap.length ∧ even timoff = timoff := by
    by_cases pending : beacon.vif.vmPsPending ≠ 0
    · obtain ⟨first, last, ends⟩ := kept.ends pending
      have low := even_le first
      have ordered := ends.ordered
      have last_inside := ends.inside
      exact ⟨_, _, timSlice_busy pending short ends, by omega, by omega, by omega,
        even_even first⟩
    · exact ⟨0, 1, by rw [timSlice, if_neg pending], by omega, by omega, by omega, rfl⟩
  refine ⟨timoff, timlen, slice, positive, bound, inside, whole, by omega, ?_⟩
  have plain : ∀ value, value < 256 → value % 256 = value := fun value => Nat.mod_eq_of_lt
  unfold timRenew
  rw [changed, slice]
  by_cases same : timlen = beacon.boTimLen
  · have length := kept.timLen
    simp [same, ← length]
  · simp [same, plain (3 + timlen) (by omega), plain timoff (by omega),
      Nat.mod_eq_of_lt (show timlen < 65536 by omega)]

theorem timReports_countDown (tie : TimIe) (backup associd : Nat) :
    timReports (timCountDown tie backup) associd = timReports tie associd := by
  have offset : even (timCountDown tie backup).timBitctl = even tie.timBitctl := by
    unfold timCountDown
    exact even_add_bit _ (by split <;> split <;> omega)
  unfold timReports
  rw [offset]
  rfl

private theorem timRenew_agrees (kept : TimKept beacon) (changed : beacon.vif.timUpdate = true) :
    TimAgrees (timRenew beacon) ↔ ¬ TimStale beacon := by
  obtain ⟨timoff, timlen, slice, -, bound, inside, whole, small, renewed⟩ :=
    timRenew_cases kept changed
  rw [renewed]
  by_cases pending : beacon.vif.vmPsPending ≠ 0
  · obtain ⟨first, last, ends⟩ := kept.ends pending
    have busy := timSlice_busy pending kept.short ends
    obtain ⟨rfl, rfl⟩ := Prod.mk.inj (Option.some.inj (slice.symm.trans busy))
    have last_inside := ends.inside
    have short := kept.short
    by_cases same : 1 + last - even first = beacon.boTimLen
    · by_cases fresh : even beacon.tie.timBitctl = even first
      · constructor
        · rintro - ⟨-, -, timoff, found, other⟩
          obtain ⟨rfl, -⟩ := Prod.mk.inj (Option.some.inj (found.symm.trans busy))
          exact other fresh.symm
        · intro _ associd
          refine timReports_fresh ends rfl ?_ rfl associd
          simp [same, fresh]
      · constructor
        · intro agrees
          refine absurd agrees (not_forall.mpr ?_)
          refine timReports_stale kept.fits ends kept.offset (by omega) rfl ?_ fresh rfl
          rw [if_neg (not_not.mpr same)]
        · intro fine
          exact absurd ⟨changed, pending, _, same ▸ busy, Ne.symm fresh⟩ fine
    · constructor
      · rintro - ⟨-, -, timoff, found, -⟩
        obtain ⟨-, length⟩ := Prod.mk.inj (Option.some.inj (found.symm.trans busy))
        exact same length.symm
      · intro _ associd
        refine timReports_fresh ends rfl ?_ rfl associd
        simp [same, even_even]
  · constructor
    · rintro - ⟨-, busy, -⟩
      exact pending busy
    · intro _ associd
      have clear := (Bitmap.card_eq_zero_iff (by decide)).mp
        (kept.pending.symm.trans (not_not.mp pending))
      rw [clear, ← Bool.not_eq_true, timReports_slice rfl rfl rfl]
      rintro ⟨-, -, set⟩
      rw [← Bitmap.isset_word (Nat.mod_lt _ (show 0 < 8 by decide)), clear] at set
      cases set

private theorem TimKept.setTim (kept : TimKept beacon) (associd : Nat) (set : Bool) :
    TimKept { beacon with vif := wifiMacPwrsaveSetTim beacon.vif associd set } := by
  obtain ⟨aids, some, length, fits, pending, timLen, bytes, nonempty, offset⟩ := kept
  have small := card_small aids length
  rcases wifiMacPwrsaveSetTim_cases beacon.vif associd set with
    ⟨same, -⟩ | ⟨below, -, clear, changed⟩ | ⟨below, -, busy, changed⟩
  · rw [same]
    exact ⟨aids, some, length, fits, pending, timLen, bytes, nonempty, offset⟩
  · have counted := Bitmap.card_setbit (by decide) (aid_inside length below) clear
    rw [changed]
    refine ⟨aids, some, by simpa using length, fits.setbit (by decide) _, ?_, timLen, bytes,
      nonempty, offset⟩
    dsimp only
    rw [counted, pending]
    omega
  · have counted := Bitmap.card_clrbit (by decide) busy
    rw [changed]
    refine ⟨aids, some, by simpa using length, fits.clrbit _, ?_, timLen, bytes, nonempty, offset⟩
    dsimp only
    rw [← counted] at pending small
    rw [pending]
    omega

private theorem TimKept.countDown (kept : TimKept beacon) (backup : Nat) :
    TimKept { beacon with tie := timCountDown beacon.tie backup } := by
  obtain ⟨aids, some, length, fits, pending, timLen, bytes, nonempty, offset⟩ := kept
  refine ⟨aids, some, length, fits, pending, timLen, bytes, nonempty, ?_⟩
  have same : even (timCountDown beacon.tie backup).timBitctl = even beacon.tie.timBitctl := by
    unfold timCountDown
    exact even_add_bit _ (by split <;> split <;> omega)
  rw [same]
  exact offset

private theorem TimKept.renew (kept : TimKept beacon) : TimKept (timRenew beacon) := by
  by_cases changed : beacon.vif.timUpdate = true
  · obtain ⟨timoff, timlen, -, positive, bound, inside, whole, small, renewed⟩ :=
      timRenew_cases kept changed
    rw [renewed]
    refine ⟨kept.aids, kept.some, kept.length, kept.fits, kept.pending, rfl, ?_, positive, ?_⟩
    · dsimp only
      rw [List.length_take, List.length_drop]
      omega
    · dsimp only
      split
      · rw [whole]
        exact small
      · exact kept.offset
  · rw [timRenew, if_pos (by simpa using changed)]
    exact kept

end Update

/-- After an update the station decodes what the access point means. -/
def TimLawful (beacon : TimBeacon) : TimEvent → Prop
  | .setTim _ _ => True
  | .update backup => TimAgrees (timUpdate beacon backup)

/-- An update does not find the element stale. -/
def TimFresh (beacon : TimBeacon) : TimEvent → Prop
  | .setTim _ _ => True
  | .update _ => ¬ TimStale beacon

/-- A state in which the element agrees with the bitmap, or is to be renewed. -/
structure TimSynced (beacon : TimBeacon) : Prop where
  kept : TimKept beacon
  agrees : beacon.vif.timUpdate = false → TimAgrees beacon

section Run

variable {beacon : TimBeacon}

private theorem timAgrees_countDown {backup : Nat} :
    TimAgrees { beacon with tie := timCountDown beacon.tie backup } ↔ TimAgrees beacon := by
  unfold TimAgrees
  simp only [timReports_countDown]

private theorem TimSynced.lawful_iff (synced : TimSynced beacon) (event : TimEvent) :
    TimLawful beacon event ↔ TimFresh beacon event := by
  cases event with
  | setTim associd set => exact Iff.rfl
  | update backup =>
    rw [TimLawful, timUpdate, timAgrees_countDown, TimFresh]
    by_cases changed : beacon.vif.timUpdate = true
    · exact timRenew_agrees synced.kept changed
    · have idle : beacon.vif.timUpdate = false := by simpa using changed
      rw [timRenew, if_pos (by rw [idle]; rfl)]
      exact ⟨fun _ stale => changed stale.1, fun _ => synced.agrees idle⟩

private theorem TimSynced.step (synced : TimSynced beacon) (event : TimEvent)
    (lawful : TimLawful beacon event) : TimSynced (timStep beacon event) := by
  cases event with
  | setTim associd set =>
    refine ⟨synced.kept.setTim associd set, fun idle => ?_⟩
    rcases wifiMacPwrsaveSetTim_cases beacon.vif associd set with
      ⟨same, -⟩ | ⟨-, -, -, changed⟩ | ⟨-, -, -, changed⟩
    · simp only [timStep, same] at idle ⊢
      exact synced.agrees idle
    · simp only [timStep, changed] at idle
      cases idle
    · simp only [timStep, changed] at idle
      cases idle
  | update backup => exact ⟨synced.kept.renew.countDown backup, fun _ => lawful⟩

private theorem timInit_synced (vmMaxAid vmDtimPeriod : Nat) :
    TimSynced (timInit (wifiMacPwrsaveLatevattach (wifiMacStaVattach vmMaxAid)) vmDtimPeriod) := by
  have bounds : 0 < wifiMacStaVattach vmMaxAid ∧
      wifiMacStaVattach vmMaxAid ≤ wifinetAidMax := by
    unfold wifiMacStaVattach
    simp only [wifinetAidMax, wifinetAidDef]
    split
    · omega
    · split <;> omega
  have zeros : ∀ length place, (List.replicate length 0).getD place 0 = 0 := by
    intro length place
    rw [List.getD_eq_getElem?_getD, List.getElem?_replicate]
    split <;> rfl
  have clear : ∀ length index, Bitmap.isset 8 (List.replicate length 0) index = false := by
    intro length index
    rw [Bitmap.isset, zeros, Nat.zero_testBit]
  refine ⟨⟨bounds.2, bounds.1, List.length_replicate, ?_, ?_, rfl, rfl, Nat.one_pos,
    Nat.zero_lt_succ 255⟩, fun _ associd => ?_⟩
  · intro word member
    rw [List.eq_of_mem_replicate member]
    decide
  · exact ((Bitmap.card_eq_zero_iff (by decide)).mpr (clear _)).symm
  · have empty : (timInit (wifiMacPwrsaveLatevattach (wifiMacStaVattach vmMaxAid))
        vmDtimPeriod).tie.timBitmap = List.replicate 1 0 := rfl
    rw [timReports, empty, zeros, Nat.zero_testBit, Bool.and_false]
    exact (clear _ _).symm

end Run

/-- A station decodes the bitmap of the access point after every update of a run exactly when no
update finds the element stale. -/
theorem tim_agreement_iff (vmMaxAid vmDtimPeriod : Nat) (events : List TimEvent) :
    Machine.Along timStep TimLawful
        (timInit (wifiMacPwrsaveLatevattach (wifiMacStaVattach vmMaxAid)) vmDtimPeriod) events ↔
      Machine.Along timStep TimFresh
        (timInit (wifiMacPwrsaveLatevattach (wifiMacStaVattach vmMaxAid)) vmDtimPeriod) events :=
  Machine.along_congr (fun _ event synced => TimSynced.lawful_iff synced event)
    (fun _ event synced lawful => TimSynced.step synced event lawful)
    (timInit_synced vmMaxAid vmDtimPeriod)

/-- A frame for the station with the association id 16 is announced to no station with it. -/
theorem tim_misplaced : ¬ ∀ (vmMaxAid vmDtimPeriod : Nat) (events : List TimEvent),
    Machine.Along timStep TimLawful
      (timInit (wifiMacPwrsaveLatevattach (wifiMacStaVattach vmMaxAid)) vmDtimPeriod) events := by
  intro law
  have agrees := (law 0 1 [.setTim 0xc010 true, .update 0]).2.1
  have reports := agrees 0xc010
  revert reports
  decide +kernel

end W522a.Ap
