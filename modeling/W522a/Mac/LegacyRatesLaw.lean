import W522a.Mac.LegacyRates
import Mathlib.Data.List.Nodup

/-!
What the negotiation of the legacy rates ought to leave, and the elements for which it does.
-/

namespace W522a.Mac

open Memory (Access InBounds Traced touch)
open W522a.Ap (wifinetGetRateVal wifinetRateMaxsize wifiMacSortRate wifiMacXsectRate rateOf
  rateOf_iff wifiMacFixedRateCheck wifiMacBrsRateCheck sortRates sortRatePass hasRate
  wifiMacIserpRateset)

def listed (element : Option (Nat → UInt8)) : List Nat := element.elim [] elementBytes

namespace RateRequest

def peer (request : RateRequest) : List Nat := listed request.rates ++ listed request.xrates

/-- What the set of the peer holds of them. -/
def kept (request : RateRequest) : List Nat :=
  if request.xrates.isNone then request.peer else request.peer.take wifinetRateMaxsize

/-- The rates of the interface that the set of the peer has. -/
def common (request : RateRequest) : List Nat :=
  wifiMacXsectRate request.vmLegacyRates request.kept

/-- The rate set that is left with `DOSORT` and `DOXSECT`. -/
def left (request : RateRequest) : List Nat := (wifiMacSetupRates request true true).value.1

def succeeds (request : RateRequest) : Bool := (wifiMacSetupRates request true true).value.2

/-- The elements fit: the first into the room of both, or without a second one into the set. -/
def Fits (request : RateRequest) : Prop :=
  (listed request.rates).length ≤ wifinetRateMaxsize ∨
    (request.xrates.isNone = true ∧ (listed request.rates).length ≤ wifinetHtRateSize)

def ChecksPass (request : RateRequest) : Prop :=
  (request.frate = true → wifiMacFixedRateCheck request.fixedRate request.common = true) ∧
    (request.brs = true → wifiMacBrsRateCheck request.mainRates request.common = true)

/-- What the negotiation ought to do and leave. -/
structure Negotiated (request : RateRequest) : Prop where
  inside : ∀ sort xsect, InBounds 0 wifinetHtRateSize (wifiMacSetupRates request sort xsect)
  exact : ∀ value, (∃ rate ∈ request.left, wifinetGetRateVal rate = value) ↔
    (∃ rate ∈ request.peer, wifinetGetRateVal rate = value) ∧
      ∃ rate ∈ request.vmLegacyRates, wifinetGetRateVal rate = value
  increasing : request.left.Pairwise fun first second =>
    wifinetGetRateVal first < wifinetGetRateVal second
  result : request.succeeds = true ↔
    (request.frate = true → ∀ fixed, request.fixedRate = some fixed →
      ∃ rate ∈ request.left, wifinetGetRateVal fixed = wifinetGetRateVal rate) ∧
    (request.brs = true → ∀ basic ∈ request.mainRates, basic.testBit 7 = true →
      ∃ rate ∈ request.left, wifinetGetRateVal basic = wifinetGetRateVal rate)
  erp : wifiMacIserpRateset request.left = true ↔
    ∀ value ∈ [2, 4, 11, 22, 12, 24, 48], ∃ rate ∈ request.left, wifinetGetRateVal rate = value

/-- Every rate of the interface that the peer lists is in the set of the peer. -/
def NoneDropped (request : RateRequest) : Prop :=
  ∀ rate ∈ request.vmLegacyRates, rateOf request.peer rate = true →
    rateOf request.kept rate = true

/-- The common rates stand in increasing order in the set of the interface. -/
def InOrder (request : RateRequest) : Prop :=
  request.common.Pairwise fun first second =>
    wifinetGetRateVal first < wifinetGetRateVal second

end RateRequest

section Sorting

variable {first rate least : Nat} {rates rest : List Nat}

def Ascending (rates : List Nat) : Prop :=
  rates.Pairwise fun first second => wifinetGetRateVal first ≤ wifinetGetRateVal second

/-- A pass keeps the rates and has one of the smallest in front. -/
theorem sortRatePass_spec (first : Nat) (rates : List Nat) :
    ((sortRatePass first rates).1 :: (sortRatePass first rates).2).Perm (first :: rates) ∧
      ∀ rate ∈ first :: rates,
        wifinetGetRateVal (sortRatePass first rates).1 ≤ wifinetGetRateVal rate := by
  induction rates generalizing first with
  | nil =>
    refine ⟨List.Perm.refl _, ?_⟩
    intro rate found
    rw [List.mem_singleton.mp found]
    exact Nat.le_refl _
  | cons rate rates ih =>
    rw [sortRatePass]
    by_cases swap : wifinetGetRateVal rate < wifinetGetRateVal first
    · rw [if_pos swap]
      obtain ⟨perm, small⟩ := ih rate
      refine ⟨?_, ?_⟩
      · exact (List.Perm.swap _ _ _).trans (perm.cons first)
      · intro other found
        rcases List.mem_cons.mp found with same | behind
        · rw [same]
          exact Nat.le_trans (small rate List.mem_cons_self) (Nat.le_of_lt swap)
        · exact small other behind
    · rw [if_neg swap]
      obtain ⟨perm, small⟩ := ih first
      refine ⟨?_, ?_⟩
      · exact ((List.Perm.swap _ _ _).trans (perm.cons rate)).trans (List.Perm.swap _ _ _)
      · intro other found
        rcases List.mem_cons.mp found with same | behind
        · rw [same]
          exact small first List.mem_cons_self
        · rcases List.mem_cons.mp behind with same | later
          · rw [same]
            exact Nat.le_trans (small first List.mem_cons_self) (Nat.le_of_not_lt swap)
          · exact small other (List.mem_cons_of_mem _ later)

theorem sortRates_spec (fuel : Nat) (rates : List Nat) (enough : rates.length ≤ fuel) :
    (sortRates fuel rates).Perm rates ∧ Ascending (sortRates fuel rates) := by
  induction fuel generalizing rates with
  | zero =>
    have none := List.eq_nil_of_length_eq_zero (Nat.le_zero.mp enough)
    subst none
    exact ⟨List.Perm.refl _, List.Pairwise.nil⟩
  | succ fuel ih =>
    cases rates with
    | nil => exact ⟨List.Perm.refl _, List.Pairwise.nil⟩
    | cons first rates =>
      obtain ⟨perm, small⟩ := sortRatePass_spec first rates
      have length := perm.length_eq
      rw [List.length_cons, List.length_cons] at length
      rw [List.length_cons] at enough
      obtain ⟨restPerm, ascending⟩ := ih (sortRatePass first rates).2 (by omega)
      rw [sortRates]
      refine ⟨(restPerm.cons _).trans perm, List.pairwise_cons.mpr ⟨?_, ascending⟩⟩
      intro rate found
      exact small rate (perm.subset (List.mem_cons_of_mem _ (restPerm.subset found)))

theorem sortRate_perm (rates : List Nat) : (wifiMacSortRate rates).Perm rates :=
  (sortRates_spec _ rates (Nat.le_refl _)).1

theorem sortRate_ascending (rates : List Nat) : Ascending (wifiMacSortRate rates) :=
  (sortRates_spec _ rates (Nat.le_refl _)).2

theorem rateOf_sortRate (rate : Nat) : rateOf (wifiMacSortRate rates) rate = rateOf rates rate :=
  (sortRate_perm rates).any_eq

private theorem hasRate_iff (ascending : Ascending rates) :
    hasRate rate rates = true ↔ ∃ other ∈ rates, wifinetGetRateVal other = rate := by
  induction rates with
  | nil => simp [hasRate]
  | cons first rates ih =>
    obtain ⟨least, ascending⟩ := List.pairwise_cons.mp ascending
    rw [hasRate]
    by_cases same : rate = wifinetGetRateVal first
    · rw [if_pos same]
      exact iff_of_true rfl ⟨first, List.mem_cons_self, same.symm⟩
    · rw [if_neg same]
      by_cases passed : rate < wifinetGetRateVal first
      · rw [if_pos passed]
        refine iff_of_false Bool.false_ne_true ?_
        intro ⟨other, found, value⟩
        rcases List.mem_cons.mp found with front | behind
        · exact same (value.symm.trans (congrArg _ front))
        · have above := least other behind
          omega
      · rw [if_neg passed, ih ascending]
        constructor
        · intro ⟨other, found, value⟩
          exact ⟨other, List.mem_cons_of_mem _ found, value⟩
        · intro ⟨other, found, value⟩
          rcases List.mem_cons.mp found with front | behind
          · exact absurd (value.symm.trans (congrArg _ front)) same
          · exact ⟨other, behind, value⟩

/-- The rates that `wifi_mac_iserp_rateset` looks for. -/
def erpRates : List Nat := [2, 4, 11, 22, 12, 24, 48]

theorem iserpRateset_iff (ascending : Ascending rates) :
    wifiMacIserpRateset rates = true ↔
      ∀ rate ∈ erpRates, ∃ other ∈ rates, wifinetGetRateVal other = rate := by
  have scan : [2, 4, 11, 22, 12, 24, 48].all (hasRate · rates) = true ↔
      ∀ rate ∈ erpRates, ∃ other ∈ rates, wifinetGetRateVal other = rate := by
    rw [List.all_eq_true]
    exact forall₂_congr fun rate _ => hasRate_iff ascending
  rw [wifiMacIserpRateset, Bool.and_eq_true, scan]
  constructor
  · exact fun both => both.2
  · intro all
    refine ⟨decide_eq_true ?_, all⟩
    have within : erpRates ⊆ rates.map wifinetGetRateVal := by
      intro rate listed
      obtain ⟨other, found, value⟩ := all rate listed
      exact List.mem_map.mpr ⟨other, found, value⟩
    have distinct : erpRates.Nodup := by decide
    have few := (List.subperm_of_subset distinct within).length_le
    rwa [List.length_map] at few

end Sorting

section Gathering

variable {rates xrates : Option (Nat → UInt8)} {element : Nat → UInt8} {num count : Nat}

@[simp] theorem listed_none : listed none = [] := rfl

@[simp] theorem listed_some : listed (some element) = elementBytes element := rfl

@[simp] theorem length_elementBytes : (elementBytes element).length = (element 1).toNat := by
  rw [elementBytes, List.length_map, List.length_range]

theorem firstRates_value :
    (firstRates rates).value.1 = (listed rates).length ∧
      (List.range (firstRates rates).value.1).map (firstRates rates).value.2 = listed rates := by
  cases rates with
  | none => exact ⟨rfl, rfl⟩
  | some element =>
    refine ⟨length_elementBytes.symm, ?_⟩
    apply List.map_congr_left
    intro index found
    have inside := List.mem_range.mp found
    show (if 0 ≤ index ∧ index < 0 + (element 1).toNat then (element (index - 0 + 2)).toNat
      else 0) = (element (index + 2)).toNat
    rw [if_pos ⟨Nat.zero_le _, by rw [Nat.zero_add]; exact inside⟩, Nat.sub_zero]

private theorem firstRates_inBounds {high : Nat} :
    InBounds 0 high (firstRates rates) ↔ (listed rates).length ≤ high := by
  cases rates with
  | none => exact iff_of_true (Memory.inBounds_pure _) (Nat.zero_le _)
  | some element =>
    rw [firstRates]
    simp only [copyRates, Memory.inBounds_bind, Memory.inBounds_touch, Memory.inBounds_pure]
    simp [listed]

/-- A copy leaves the rates in front and adds some of the element. -/
theorem copyRates_value (set : Nat → Nat) (num : Nat) (few : count ≤ (element 1).toNat) :
    (List.range (num + count)).map (copyRates set num element count).value =
      (List.range num).map set ++ (elementBytes element).take count := by
  rw [List.range_add, List.map_append, List.map_map]
  congr 1
  · apply List.map_congr_left
    intro index found
    have inside := List.mem_range.mp found
    exact if_neg (fun behind => Nat.not_le.mpr inside behind.1)
  · rw [elementBytes, ← List.map_take, List.take_range, Nat.min_eq_left few]
    apply List.map_congr_left
    intro index found
    have inside := List.mem_range.mp found
    show (if num ≤ num + index ∧ num + index < num + count then
      (element (num + index - num + 2)).toNat else set (num + index)) = _
    rw [if_pos ⟨Nat.le_add_right _ _, Nat.add_lt_add_left inside num⟩, Nat.add_sub_cancel_left]

theorem roomFor_eq (inside : num ≤ wifinetRateMaxsize) (count : Nat) :
    roomFor num count = min count (wifinetRateMaxsize - num) := by
  simp only [roomFor, wifinetRateMaxsize] at inside ⊢
  split <;> omega

private theorem roomFor_past (beyond : wifinetRateMaxsize < num) (byte : num < 256) (count : Nat) :
    num + roomFor num count = 313 := by
  simp only [roomFor, wifinetRateMaxsize] at beyond ⊢
  rw [if_pos (by omega)]
  omega

private theorem gatherRates_none :
    (gatherRates rates none).value = listed rates ++ listed none := by
  rw [listed_none, List.append_nil]
  exact firstRates_value.2

private theorem gatherRates_some (fits : (listed rates).length ≤ wifinetRateMaxsize) :
    (gatherRates rates (some element)).value =
      (listed rates ++ listed (some element)).take wifinetRateMaxsize := by
  obtain ⟨num, set⟩ : (firstRates rates).value.1 = (listed rates).length ∧
      (List.range (firstRates rates).value.1).map (firstRates rates).value.2 = listed rates :=
    firstRates_value
  have room := roomFor_eq fits (element 1).toNat
  have total : (listed rates).length + roomFor (listed rates).length (element 1).toNat ≤
      wifinetRateMaxsize := by omega
  have byte : (listed rates).length + roomFor (listed rates).length (element 1).toNat < 256 :=
    Nat.lt_of_le_of_lt total (by decide)
  show (List.range (((firstRates rates).value.1 +
    roomFor (firstRates rates).value.1 (element 1).toNat) % 256)).map
      (copyRates (firstRates rates).value.2 (firstRates rates).value.1 element
        (roomFor (firstRates rates).value.1 (element 1).toNat)).value = _
  rw [num] at set ⊢
  rw [Nat.mod_eq_of_lt byte, copyRates_value _ _ (by omega), set, List.take_append,
    List.take_of_length_le fits, room, listed_some]
  congr 1
  rw [Nat.min_comm, ← List.take_take, List.take_of_length_le (Nat.le_of_eq length_elementBytes)]

private theorem gatherRates_inBounds :
    InBounds 0 wifinetHtRateSize (gatherRates rates xrates) ↔
      (listed rates).length ≤ wifinetRateMaxsize ∨
        (xrates.isNone = true ∧ (listed rates).length ≤ wifinetHtRateSize) := by
  have number : (firstRates rates).value.1 = (listed rates).length := firstRates_value.1
  cases xrates with
  | none =>
    simp only [gatherRates, Memory.inBounds_bind, firstRates_inBounds, Memory.inBounds_pure]
    simp only [wifinetRateMaxsize, wifinetHtRateSize, Option.isNone_none, true_and, and_true]
    omega
  | some element =>
    simp only [gatherRates, copyRates, Memory.inBounds_bind, firstRates_inBounds,
      Memory.inBounds_touch, Memory.inBounds_pure, number, Option.isNone_some, Bool.false_eq_true,
      false_and, or_false, and_true]
    have byte : (listed rates).length < 256 := by
      cases rates with
      | none => exact Nat.zero_lt_succ _
      | some first =>
        rw [listed_some, length_elementBytes]
        exact (first 1).toNat_lt
    by_cases inside : (listed rates).length ≤ wifinetRateMaxsize
    · rw [roomFor_eq inside]
      simp only [wifinetRateMaxsize, wifinetHtRateSize] at inside ⊢
      omega
    · have past := roomFor_past (Nat.lt_of_not_le inside) byte (element 1).toNat
      simp only [wifinetHtRateSize, wifinetRateMaxsize] at inside ⊢
      omega

end Gathering

namespace RateRequest

variable {request : RateRequest}

theorem gathered (fits : request.Fits) :
    (gatherRates request.rates request.xrates).value = request.kept := by
  rcases present : request.xrates with _ | element
  · rw [gatherRates_none, kept, peer, present]
    rfl
  · rw [Fits, present] at fits
    have short : (listed request.rates).length ≤ wifinetRateMaxsize := by
      rcases fits with short | ⟨none, -⟩
      · exact short
      · cases none
    rw [gatherRates_some short, kept, peer, present]
    rfl

private theorem length_kept (fits : request.Fits) : request.kept.length ≤ wifinetHtRateSize := by
  rcases present : request.xrates with _ | element
  · rw [Fits, present] at fits
    rw [kept, peer, present]
    simp only [Option.isNone_none, if_true, listed_none, List.append_nil]
    simp only [wifinetRateMaxsize, wifinetHtRateSize] at fits ⊢
    omega
  · rw [kept, peer, present]
    simp only [Option.isNone_some, Bool.false_eq_true, if_false, List.length_take]
    simp only [wifinetRateMaxsize, wifinetHtRateSize]
    omega

private theorem xsect_sorted (rates : List Nat) :
    wifiMacXsectRate request.vmLegacyRates (wifiMacSortRate rates) =
      wifiMacXsectRate request.vmLegacyRates rates := by
  apply List.filter_congr
  intro rate _
  exact rateOf_sortRate rate

/-- Whatever flags are set, the writes stay inside exactly if the elements fit. -/
theorem inBounds_iff (sort xsect : Bool) :
    InBounds 0 wifinetHtRateSize (wifiMacSetupRates request sort xsect) ↔ request.Fits := by
  constructor
  · intro inside
    exact gatherRates_inBounds.mp (Memory.inBounds_bind.mp inside).1
  · intro fits
    have sorted : (if sort then wifiMacSortRate (gatherRates request.rates request.xrates).value
        else (gatherRates request.rates request.xrates).value).length ≤ wifinetHtRateSize := by
      rw [gathered fits]
      cases sort with
      | true => exact (sortRate_perm request.kept).length_eq ▸ length_kept fits
      | false => exact length_kept fits
    rw [wifiMacSetupRates]
    simp only [Memory.inBounds_bind, Memory.inBounds_touch, Nat.zero_add]
    refine ⟨gatherRates_inBounds.mpr fits, ⟨Nat.le_refl _, ?_⟩, ⟨Nat.le_refl _, ?_⟩, ?_⟩
    · rw [gathered fits]
      exact length_kept fits
    · cases xsect with
      | true => exact Nat.le_trans (List.length_filter_le _ _) request.ownFits
      | false => exact sorted
    · repeat' split
      all_goals exact Memory.inBounds_pure _

/-- The common rates are left, in order if the checks go through. -/
theorem left_eq (fits : request.Fits) :
    (request.ChecksPass ∧ request.left = wifiMacSortRate request.common ∧
        request.succeeds = true) ∨
      (¬ request.ChecksPass ∧ request.left = request.common ∧ request.succeeds = false) := by
  have set : wifiMacXsectRate request.vmLegacyRates
      (wifiMacSortRate (gatherRates request.rates request.xrates).value) = request.common := by
    rw [gathered fits, xsect_sorted, common]
  have value : (wifiMacSetupRates request true true).value =
      if request.frate && !wifiMacFixedRateCheck request.fixedRate request.common then
        (request.common, false)
      else if request.brs && !wifiMacBrsRateCheck request.mainRates request.common then
        (request.common, false)
      else (wifiMacSortRate request.common, true) := by
    rw [← set]
    simp only [wifiMacSetupRates, Memory.value_bind, if_true]
    split
    · rfl
    · split
      · rfl
      · rfl
  rw [left, succeeds, value, ChecksPass]
  cases request.frate <;> cases request.brs <;>
    cases wifiMacFixedRateCheck request.fixedRate request.common <;>
    cases wifiMacBrsRateCheck request.mainRates request.common <;> simp

theorem mem_left (fits : request.Fits) {rate : Nat} :
    rate ∈ request.left ↔ rate ∈ request.common := by
  obtain ⟨-, sorted, -⟩ | ⟨-, same, -⟩ := left_eq fits
  · rw [sorted]
    exact (sortRate_perm request.common).mem_iff
  · rw [same]

private theorem mem_common {value : Nat} :
    (∃ rate ∈ request.common, wifinetGetRateVal rate = value) ↔
      (∃ rate ∈ request.kept, wifinetGetRateVal rate = value) ∧
        ∃ rate ∈ request.vmLegacyRates, wifinetGetRateVal rate = value := by
  constructor
  · intro ⟨rate, found, same⟩
    obtain ⟨own, offered⟩ := List.mem_filter.mp found
    obtain ⟨other, kept, equal⟩ := rateOf_iff.mp offered
    exact ⟨⟨other, kept, equal.symm.trans same⟩, rate, own, same⟩
  · intro ⟨⟨other, kept, equal⟩, rate, own, same⟩
    refine ⟨rate, List.mem_filter.mpr ⟨own, rateOf_iff.mpr ⟨other, kept, ?_⟩⟩, same⟩
    exact same.trans equal.symm

private theorem kept_subset : request.kept ⊆ request.peer := by
  rw [kept]
  split
  · exact List.Subset.refl _
  · exact List.take_subset _ _

/-- What is left is exactly what is common, if no common rate is dropped. -/
theorem exact_iff (fits : request.Fits) :
    (∀ value, (∃ rate ∈ request.left, wifinetGetRateVal rate = value) ↔
      (∃ rate ∈ request.peer, wifinetGetRateVal rate = value) ∧
        ∃ rate ∈ request.vmLegacyRates, wifinetGetRateVal rate = value) ↔
      request.NoneDropped := by
  simp only [mem_left fits, mem_common]
  constructor
  · intro exact rate own listed
    obtain ⟨other, found, same⟩ := rateOf_iff.mp listed
    obtain ⟨⟨kept, there, equal⟩, -⟩ :=
      (exact (wifinetGetRateVal rate)).mpr ⟨⟨other, found, same.symm⟩, rate, own, rfl⟩
    exact rateOf_iff.mpr ⟨kept, there, equal.symm⟩
  · intro noneDropped value
    constructor
    · intro ⟨⟨kept, there, equal⟩, own⟩
      exact ⟨⟨kept, kept_subset there, equal⟩, own⟩
    · intro ⟨⟨other, found, equal⟩, rate, own, same⟩
      obtain ⟨kept, there, value⟩ := rateOf_iff.mp
        (noneDropped rate own (rateOf_iff.mpr ⟨other, found, same.trans equal.symm⟩))
      exact ⟨⟨kept, there, value.symm.trans same⟩, rate, own, same⟩

private theorem sort_increasing (request : RateRequest) :
    (wifiMacSortRate request.common).Pairwise fun first second =>
      wifinetGetRateVal first < wifinetGetRateVal second := by
  have within : (request.common.map wifinetGetRateVal).Nodup :=
    request.distinct.sublist (List.filter_sublist.map _)
  have distinct : ((wifiMacSortRate request.common).map wifinetGetRateVal).Nodup :=
    ((sortRate_perm request.common).map _).nodup_iff.mpr within
  have apart := List.pairwise_map.mp distinct
  apply ((sortRate_ascending request.common).and apart).imp
  intro first second both
  exact Nat.lt_of_le_of_ne both.1 both.2

private theorem increasing_iff (fits : request.Fits) :
    (request.left.Pairwise fun first second =>
      wifinetGetRateVal first < wifinetGetRateVal second) ↔
      request.ChecksPass ∨ request.InOrder := by
  obtain ⟨pass, sorted, -⟩ | ⟨fail, same, -⟩ := left_eq fits
  · rw [sorted]
    exact iff_of_true (sort_increasing request) (Or.inl pass)
  · rw [same]
    exact (or_iff_right fail).symm

/-- The negotiation succeeds when the checks go through. -/
theorem succeeds_iff (fits : request.Fits) :
    request.succeeds = true ↔
      (request.frate = true → ∀ fixed, request.fixedRate = some fixed →
        ∃ rate ∈ request.left, wifinetGetRateVal fixed = wifinetGetRateVal rate) ∧
      (request.brs = true → ∀ basic ∈ request.mainRates, basic.testBit 7 = true →
        ∃ rate ∈ request.left, wifinetGetRateVal basic = wifinetGetRateVal rate) := by
  have checks : request.succeeds = true ↔ request.ChecksPass := by
    obtain ⟨pass, -, done⟩ | ⟨fail, -, failed⟩ := left_eq fits
    · exact iff_of_true done pass
    · rw [failed]
      exact iff_of_false Bool.false_ne_true fail
  rw [checks, ChecksPass]
  simp only [mem_left fits]
  apply and_congr
  · apply imp_congr_right
    intro _
    cases request.fixedRate with
    | none => exact iff_of_true rfl (fun fixed none => nomatch none)
    | some fixed =>
      simp only [wifiMacFixedRateCheck, rateOf_iff, Option.some.injEq, forall_eq']
  · apply imp_congr_right
    intro _
    simp only [wifiMacBrsRateCheck, List.all_eq_true, Bool.or_eq_true, Bool.not_eq_true',
      rateOf_iff, ← Bool.not_eq_true, imp_iff_not_or]

/-- The negotiation is right exactly if the elements fit, no common rate is behind the 57th of the
peer, and the rates are sorted at the end or need not be. -/
theorem negotiated_iff : request.Negotiated ↔
    request.Fits ∧ request.NoneDropped ∧ (request.ChecksPass ∨ request.InOrder) := by
  constructor
  · intro right
    have fits := (inBounds_iff true true).mp (right.inside true true)
    exact ⟨fits, (exact_iff fits).mp right.exact, (increasing_iff fits).mp right.increasing⟩
  · intro ⟨fits, noneDropped, ordered⟩
    have increasing := (increasing_iff fits).mpr ordered
    exact
      { inside := fun sort xsect => (inBounds_iff sort xsect).mpr fits
        exact := (exact_iff fits).mpr noneDropped
        increasing := increasing
        result := succeeds_iff fits
        erp := iserpRateset_iff (increasing.imp Nat.le_of_lt) }

end RateRequest

section Attempts

/-- The rate arrays as a scan leaves them: the elements are cut to what the arrays hold. -/
structure ScanEntry extends ScanRates where
  ratesFit : (siRates 1).toNat ≤ wifinetRateMaxsize
  exratesFit : (siExrates 1).toNat ≤ wifinetRateMaxsize

@[simp] abbrev siRatesSize : Nat := 2 + wifinetRateMaxsize

/-- Attempts stay inside the arrays, and each computes the basic rates of the first one. -/
def AttemptsRight (sta : Bool) (vmMacMode count : Nat) (entry : ScanRates) : Prop :=
  InBounds 0 siRatesSize (attempts sta vmMacMode count entry) ∧
    ∀ basic ∈ (attempts sta vmMacMode count entry).value,
      basic = (wifiMacStaSetBasicRates sta vmMacMode entry).value.2

/-- The first element is appended to the second. -/
def Appends (sta : Bool) (vmMacMode : Nat) (entry : ScanRates) : Prop :=
  sta = true ∧ entry.siRates 1 ≠ 0 ∧
    (rateMode vmMacMode = .bg ∨ (rateMode vmMacMode = .g ∧ entry.siExrates 1 ≠ 0))

def ScanRates.both (entry : ScanRates) : List Nat :=
  elementBytes entry.siExrates ++ elementBytes entry.siRates

def basicFor (mode : RateMode) (apRates : List Nat) : BasicRates :=
  match mode with
  | .g => { plainRates with wm11gRates := check11g apRates }
  | .bg => { wm11bRates := check11b apRates, wm11gRates := check11g apRates }
  | .b | .other => plainRates

variable {sta : Bool} {vmMacMode count : Nat} {entry : ScanRates} {apRates otherRates : List Nat}

private theorem checkBasic_congr (same : ∀ rate, rate ∈ apRates ↔ rate ∈ otherRates)
    (rates basic : List Nat) :
    checkBasic rates basic apRates = checkBasic rates basic otherRates := by
  simp only [checkBasic, same]

theorem basicFor_congr (same : ∀ rate, rate ∈ apRates ↔ rate ∈ otherRates) (mode : RateMode) :
    basicFor mode apRates = basicFor mode otherRates := by
  cases mode with
  | b | other => rfl
  | g =>
    rw [basicFor, check11g, checkBasic_congr same]
    rfl
  | bg =>
    rw [basicFor, check11b, check11g, checkBasic_congr same, checkBasic_congr same]
    rfl

/-- The second element after the first one was appended. -/
theorem appendRates_spec
    (fits : (entry.siExrates 1).toNat + (entry.siRates 1).toNat ≤ wifinetRateMaxsize) :
    ((appendRates entry).value.siExrates 1).toNat =
        (entry.siExrates 1).toNat + (entry.siRates 1).toNat ∧
      elementBytes (appendRates entry).value.siExrates = entry.both := by
  have length : ((appendRates entry).value.siExrates 1).toNat =
      (entry.siExrates 1).toNat + (entry.siRates 1).toNat := by
    show (UInt8.ofNat _).toNat = _
    rw [UInt8.toNat_ofNat']
    exact Nat.mod_eq_of_lt (Nat.lt_of_le_of_lt fits (by decide))
  refine ⟨length, ?_⟩
  rw [elementBytes, length, List.range_add, List.map_append, List.map_map]
  congr 1
  · apply List.map_congr_left
    intro index found
    have inside := List.mem_range.mp found
    have front : (appendRates entry).value.siExrates (index + 2) = entry.siExrates (index + 2) := by
      simp only [appendRates, Memory.value_bind, Memory.value_pure]
      rw [if_neg (by omega), if_neg (by omega)]
    rw [front]
  · apply List.map_congr_left
    intro index found
    have inside := List.mem_range.mp found
    have behind : (appendRates entry).value.siExrates ((entry.siExrates 1).toNat + index + 2) =
        entry.siRates (index + 2) := by
      simp only [appendRates, Memory.value_bind, Memory.value_pure]
      rw [if_neg (by omega), if_pos (by omega)]
      congr 1
      omega
    show ((appendRates entry).value.siExrates ((entry.siExrates 1).toNat + index + 2)).toNat = _
    rw [behind]

theorem Appends.step (appends : Appends sta vmMacMode entry) :
    (wifiMacStaSetBasicRates sta vmMacMode entry).value.1 = (appendRates entry).value ∧
      (wifiMacStaSetBasicRates sta vmMacMode entry).value.2 =
        basicFor (rateMode vmMacMode) (elementBytes (appendRates entry).value.siExrates) ∧
      (InBounds 0 siRatesSize (wifiMacStaSetBasicRates sta vmMacMode entry) ↔
        InBounds 0 siRatesSize (appendRates entry) ∧
          2 + ((appendRates entry).value.siExrates 1).toNat ≤ siRatesSize) := by
  obtain ⟨isSta, some, mode⟩ := appends
  subst isSta
  rcases mode with bg | ⟨g, more⟩
  · simp only [wifiMacStaSetBasicRates, bg, some, ne_eq, not_false_eq_true, true_or, if_true,
      Bool.not_true, Bool.false_eq_true, if_false]
    refine ⟨rfl, rfl, ?_⟩
    simp only [Memory.inBounds_bind, Memory.inBounds_touch, Memory.inBounds_pure, and_true,
      Nat.zero_le, true_and]
  · simp only [wifiMacStaSetBasicRates, g, some, more, ne_eq, not_false_eq_true, if_true,
      Bool.not_true, Bool.false_eq_true, if_false]
    refine ⟨rfl, rfl, ?_⟩
    simp only [Memory.inBounds_bind, Memory.inBounds_touch, Memory.inBounds_pure, and_true,
      Nat.zero_le, true_and]

/-- An appending attempt stays inside exactly if the sum of the lengths does. -/
theorem Appends.inBounds_iff (appends : Appends sta vmMacMode entry) :
    InBounds 0 siRatesSize (wifiMacStaSetBasicRates sta vmMacMode entry) ↔
      (entry.siExrates 1).toNat + (entry.siRates 1).toNat ≤ wifinetRateMaxsize := by
  have write : InBounds 0 siRatesSize (appendRates entry) ↔
      (entry.siExrates 1).toNat + (entry.siRates 1).toNat ≤ wifinetRateMaxsize := by
    simp only [appendRates, Memory.inBounds_bind, Memory.inBounds_touch, Memory.inBounds_pure,
      siRatesSize, Nat.zero_le, true_and, and_true]
    omega
  rw [appends.step.2.2, write]
  constructor
  · exact fun both => both.1
  · intro fits
    rw [(appendRates_spec fits).1]
    exact ⟨fits, Nat.add_le_add_left fits 2⟩

/-- The next attempt appends again, and the rates of both elements are the same. -/
theorem Appends.next (appends : Appends sta vmMacMode entry)
    (fits : (entry.siExrates 1).toNat + (entry.siRates 1).toNat ≤ wifinetRateMaxsize) :
    Appends sta vmMacMode (appendRates entry).value ∧
      ∀ rate, rate ∈ (appendRates entry).value.both ↔ rate ∈ entry.both := by
  obtain ⟨isSta, some, mode⟩ := appends
  obtain ⟨length, bytes⟩ := appendRates_spec fits
  have present : (entry.siRates 1).toNat ≠ 0 := fun none => some (UInt8.toNat_inj.mp none)
  refine ⟨⟨isSta, some, ?_⟩, ?_⟩
  · rcases mode with bg | ⟨g, -⟩
    · exact Or.inl bg
    · refine Or.inr ⟨g, ?_⟩
      intro none
      rw [none] at length
      have zero : (0 : UInt8).toNat = 0 := rfl
      omega
  · intro rate
    have same : (appendRates entry).value.siRates = entry.siRates := rfl
    rw [ScanRates.both, bytes, same]
    simp only [ScanRates.both, List.mem_append]
    exact ⟨fun either => either.elim id Or.inr, Or.inl⟩

/-- A run of appending attempts stays inside as long as what is appended fits, and computes the same
basic rates. -/
theorem Appends.run (appends : Appends sta vmMacMode entry)
    (short : (entry.siExrates 1).toNat ≤ wifinetRateMaxsize) :
    (InBounds 0 siRatesSize (attempts sta vmMacMode count entry) ↔
      (entry.siExrates 1).toNat + count * (entry.siRates 1).toNat ≤ wifinetRateMaxsize) ∧
    ((entry.siExrates 1).toNat + count * (entry.siRates 1).toNat ≤ wifinetRateMaxsize →
      ∀ basic ∈ (attempts sta vmMacMode count entry).value,
        basic = basicFor (rateMode vmMacMode) entry.both) := by
  induction count generalizing entry with
  | zero =>
    rw [Nat.zero_mul, Nat.add_zero]
    exact ⟨iff_of_true (Memory.inBounds_pure _) short, fun _ _ none => nomatch none⟩
  | succ count ih =>
    have product : (count + 1) * (entry.siRates 1).toNat =
        count * (entry.siRates 1).toNat + (entry.siRates 1).toNat := Nat.succ_mul _ _
    rw [attempts]
    simp only [Memory.inBounds_bind, Memory.inBounds_pure, and_true, Memory.value_bind,
      Memory.value_pure]
    rw [appends.inBounds_iff, appends.step.1, appends.step.2.1, product]
    by_cases fits : (entry.siExrates 1).toNat + (entry.siRates 1).toNat ≤ wifinetRateMaxsize
    · obtain ⟨again, same⟩ := appends.next fits
      obtain ⟨length, bytes⟩ := appendRates_spec fits
      have rates : (appendRates entry).value.siRates = entry.siRates := rfl
      obtain ⟨inside, equal⟩ := ih again (by rw [length]; exact fits)
      rw [length, rates] at inside equal
      refine ⟨?_, ?_⟩
      · rw [inside]
        omega
      · intro all basic found
        rcases List.mem_cons.mp found with first | later
        · rw [first, bytes]
        · rw [equal (by omega) basic later]
          exact basicFor_congr same _
    · refine ⟨?_, ?_⟩
      · refine iff_of_false (fun both => fits both.1) ?_
        omega
      · intro all
        omega

/-- An attempt that does not append leaves the arrays as they are. -/
theorem not_appends_step (stays : ¬ Appends sta vmMacMode entry)
    (rates : (entry.siRates 1).toNat ≤ wifinetRateMaxsize)
    (exrates : (entry.siExrates 1).toNat ≤ wifinetRateMaxsize) :
    InBounds 0 siRatesSize (wifiMacStaSetBasicRates sta vmMacMode entry) ∧
      (wifiMacStaSetBasicRates sta vmMacMode entry).value.1 = entry := by
  have read (count : Nat) (short : count ≤ wifinetRateMaxsize) :
      InBounds 0 siRatesSize (touch 2 count) :=
    Memory.inBounds_touch.mpr ⟨Nat.zero_le _, Nat.add_le_add_left short 2⟩
  rw [wifiMacStaSetBasicRates]
  cases sta with
  | false => exact ⟨Memory.inBounds_pure _, rfl⟩
  | true =>
    simp only [Bool.not_true, Bool.false_eq_true, if_false]
    cases mode : rateMode vmMacMode with
    | other => exact ⟨Memory.inBounds_pure _, rfl⟩
    | b =>
      by_cases none : entry.siRates 1 = 0
      · simp only [none, ne_eq, not_true_eq_false, if_false]
        exact ⟨Memory.inBounds_pure _, rfl⟩
      · simp only [none, ne_eq, not_false_eq_true, if_true]
        exact ⟨Memory.inBounds_bind.mpr ⟨read _ rates, Memory.inBounds_pure _⟩, rfl⟩
    | g =>
      by_cases none : entry.siRates 1 = 0
      · by_cases noMore : entry.siExrates 1 = 0
        · simp only [none, noMore, ne_eq, not_true_eq_false, if_false, if_true]
          exact ⟨Memory.inBounds_pure _, rfl⟩
        · simp only [none, noMore, ne_eq, not_true_eq_false, if_false]
          exact ⟨Memory.inBounds_bind.mpr ⟨Memory.inBounds_pure _,
            Memory.inBounds_bind.mpr ⟨read _ exrates, Memory.inBounds_pure _⟩⟩, rfl⟩
      · have noMore : entry.siExrates 1 = 0 := by
          by_contra more
          exact stays ⟨rfl, none, Or.inr ⟨mode, more⟩⟩
        simp only [none, noMore, ne_eq, not_false_eq_true, if_true]
        exact ⟨Memory.inBounds_bind.mpr ⟨read _ rates, Memory.inBounds_pure _⟩, rfl⟩
    | bg =>
      have none : entry.siRates 1 = 0 := by
        by_contra some
        exact stays ⟨rfl, some, Or.inl mode⟩
      by_cases noMore : entry.siExrates 1 = 0
      · simp only [none, noMore, ne_eq, not_true_eq_false, or_self, if_false]
        exact ⟨Memory.inBounds_pure _, rfl⟩
      · simp only [none, noMore, ne_eq, not_true_eq_false, not_false_eq_true, or_true, if_false,
          if_true]
        exact ⟨Memory.inBounds_bind.mpr ⟨Memory.inBounds_pure _,
          Memory.inBounds_bind.mpr ⟨read _ exrates, Memory.inBounds_pure _⟩⟩, rfl⟩

/-- Attempts that do not append do the same each time. -/
theorem not_appends_run (stays : ¬ Appends sta vmMacMode entry)
    (rates : (entry.siRates 1).toNat ≤ wifinetRateMaxsize)
    (exrates : (entry.siExrates 1).toNat ≤ wifinetRateMaxsize) :
    AttemptsRight sta vmMacMode count entry := by
  obtain ⟨inside, same⟩ := not_appends_step stays rates exrates
  induction count with
  | zero => exact ⟨Memory.inBounds_pure _, fun _ none => nomatch none⟩
  | succ count ih =>
    rw [AttemptsRight, attempts]
    simp only [Memory.inBounds_bind, Memory.inBounds_pure, and_true, Memory.value_bind,
      Memory.value_pure, same]
    refine ⟨⟨inside, ih.1⟩, ?_⟩
    intro basic found
    rcases List.mem_cons.mp found with first | later
    · exact first
    · exact ih.2 basic later

/-- Attempts are right exactly if nothing is appended or all that is appended fits. -/
theorem attemptsRight_iff (entry : ScanEntry) :
    AttemptsRight sta vmMacMode count entry.toScanRates ↔
      ¬ Appends sta vmMacMode entry.toScanRates ∨
        (entry.siExrates 1).toNat + count * (entry.siRates 1).toNat ≤ wifinetRateMaxsize := by
  by_cases appends : Appends sta vmMacMode entry.toScanRates
  · rw [or_iff_right (not_not_intro appends)]
    obtain ⟨inside, equal⟩ : (InBounds 0 siRatesSize
        (attempts sta vmMacMode count entry.toScanRates) ↔ _) ∧ (_ → _) :=
      appends.run entry.exratesFit
    constructor
    · exact fun right => inside.mp right.1
    · intro fits
      refine ⟨inside.mpr fits, ?_⟩
      intro basic found
      cases count with
      | zero => nomatch found
      | succ count =>
        have product : (count + 1) * (entry.siRates 1).toNat =
          count * (entry.siRates 1).toNat + (entry.siRates 1).toNat := Nat.succ_mul _ _
        have first : (entry.siExrates 1).toNat + (entry.siRates 1).toNat ≤ wifinetRateMaxsize := by
          omega
        rw [equal fits basic found, appends.step.2.1, (appendRates_spec first).2]
  · exact iff_of_true (not_appends_run appends entry.ratesFit entry.exratesFit) (Or.inl appends)

/-- The negotiation with a peer, and the attempts to connect to a scan entry. -/
theorem legacy_rates_iff (request : RateRequest) (sta : Bool) (vmMacMode count : Nat)
    (entry : ScanEntry) :
    (request.Negotiated ↔
      request.Fits ∧ request.NoneDropped ∧ (request.ChecksPass ∨ request.InOrder)) ∧
    (AttemptsRight sta vmMacMode count entry.toScanRates ↔
      ¬ Appends sta vmMacMode entry.toScanRates ∨
        (entry.siExrates 1).toNat + count * (entry.siRates 1).toNat ≤ wifinetRateMaxsize) :=
  ⟨RateRequest.negotiated_iff, attemptsRight_iff entry⟩

/-- A peer of an 11bg access point that lacks a basic rate is left with rates out of order, and the
seventh attempt to connect to an entry with eight rates and four more writes past the array. -/
theorem legacy_rates_miss :
    let request : RateRequest :=
      { vmLegacyRates := [0x82, 0x84, 0x0b, 0x16, 0x8c, 0x12, 0x98, 0x24, 0xb0, 0x48, 0x60, 0x6c]
        mainRates := [0x82, 0x84, 0x0b, 0x16, 0x8c, 0x12, 0x98, 0x24, 0xb0, 0x48, 0x60, 0x6c]
        fixedRate := none
        rates := some fun index => [1, 5, 0x82, 0x84, 0x8b, 0x96, 0x12].getD index 0
        xrates := none
        frate := true
        brs := true
        ownFits := by decide
        distinct := by decide }
    let entry : ScanEntry :=
      { siRates := fun index => [1, 8, 2, 4, 11, 22, 12, 18, 24, 36].getD index 0
        siExrates := fun index => [50, 4, 48, 72, 96, 108].getD index 0
        ratesFit := by decide
        exratesFit := by decide }
    request.left = [0x82, 0x84, 0x0b, 0x16, 0x12] ∧ ¬ request.Negotiated ∧
      ¬ AttemptsRight true 3 7 entry.toScanRates := by
  intro request entry
  refine ⟨by decide, ?_, ?_⟩
  · intro right
    exact absurd right.increasing (by decide)
  · rw [attemptsRight_iff entry]
    rintro (stays | fits)
    · exact stays ⟨rfl, by decide, Or.inl (by decide)⟩
    · exact absurd fits (by decide)

end Attempts

end W522a.Mac
