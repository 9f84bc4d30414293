import Mathlib.Data.List.FinRange
import Mathlib.Logic.Function.Basic
import W522a.Lib.Run
import W522a.Mac.Amsdu

/-!
The cache of pairwise master key security associations, and when it behaves as a bounded map from
a BSSID to a PMKID. One number of it is the count of its entries and the index of the next write.
-/

namespace W522a.Pmksa

open Mac (MacAddr)
open Machine (Along run)

abbrev wlNumPmkidsMax : Nat := 16

def zeroMac : MacAddr := ⟨[0, 0, 0, 0, 0, 0], rfl⟩

abbrev Pmkid : Type := { bytes : List UInt8 // bytes.length = 16 }

def zeroPmkid : Pmkid := ⟨List.replicate 16 0, List.length_replicate ..⟩

/-- `aml_pmkid_cache` -/
structure PmkidCache where
  inUse : Bool
  bssid : MacAddr
  pmkid : Pmkid
  deriving DecidableEq

/-- `struct aml_pmk_list` -/
structure PmkList where
  pmkidCount : Nat
  pmkidCache : Fin wlNumPmkidsMax → PmkidCache

def einval : Int := 22

namespace PmkList

variable (list : PmkList)

/-- The loops of the cache over its slots: the first one with a BSSID. -/
def slotOf (bssid : MacAddr) : Option (Fin wlNumPmkidsMax) :=
  (List.finRange wlNumPmkidsMax).find? fun slot => (list.pmkidCache slot).bssid = bssid

def put (slot : Fin wlNumPmkidsMax) (entry : PmkidCache) : PmkList :=
  { list with pmkidCache := Function.update list.pmkidCache slot entry }

end PmkList

def zeroEntry : PmkidCache := ⟨false, zeroMac, zeroPmkid⟩

/-- The list that `wifi_mac_pmkid_vattach` allocates. -/
def attached : PmkList := ⟨0, fun _ => zeroEntry⟩

/-- The slot of the next write, in bounds as `aml_cfg80211_set_pmksa` makes it. -/
def writeSlot (list : PmkList) : Fin wlNumPmkidsMax :=
  Fin.ofNat wlNumPmkidsMax (if list.pmkidCount ≥ wlNumPmkidsMax then 0 else list.pmkidCount)

def amlCfg80211SetPmksa (bssid : MacAddr) (pmkid : Pmkid) (list : PmkList) : Int × PmkList :=
  if bssid = zeroMac then (-einval, list)
  else
    match list.slotOf bssid with
    | some slot =>
      (0, { list.put slot { list.pmkidCache slot with pmkid := pmkid, inUse := true } with
        pmkidCount := (slot + 1) % wlNumPmkidsMax })
    | none =>
      let slot := writeSlot list
      (0, { list.put slot ⟨true, bssid, pmkid⟩ with
        pmkidCount := if slot.1 + 1 = wlNumPmkidsMax then 0 else slot + 1 })

def amlPmkidCacheIndex (list : PmkList) (bssid : MacAddr) : Option (Fin wlNumPmkidsMax) :=
  if bssid = zeroMac then none else list.slotOf bssid

def amlCfg80211DelPmksa (bssid : MacAddr) (list : PmkList) : Int × PmkList :=
  if list.pmkidCount = 0 then (0, list)
  else if bssid = zeroMac then (-einval, list)
  else
    match list.slotOf bssid with
    | some slot => (0, list.put slot zeroEntry)
    | none => (-einval, list)

def amlDelPmksaByIndex (bssid : MacAddr) (list : PmkList) : PmkList :=
  match amlPmkidCacheIndex list bssid with
  | none => list
  | some slot =>
    { list.put slot { list.pmkidCache slot with pmkid := zeroPmkid } with
      pmkidCount := if list.pmkidCount ≠ 0 then list.pmkidCount - 1 else list.pmkidCount }

def amlCfg80211FlushPmksa (_ : PmkList) : Int × PmkList := (0, attached)

/-- A BSSID that is not zero. -/
abbrev Bssid : Type := { mac : MacAddr // mac ≠ zeroMac }

/-- The calls of the cache. -/
inductive PmkOp where
  | set (bssid : Bssid) (pmkid : Pmkid)
  | del (bssid : Bssid)
  | delByIndex (bssid : Bssid)
  | flush

def step (list : PmkList) : PmkOp → PmkList
  | .set bssid pmkid => (amlCfg80211SetPmksa bssid.1 pmkid list).2
  | .del bssid => (amlCfg80211DelPmksa bssid.1 list).2
  | .delByIndex bssid => amlDelPmksaByIndex bssid.1 list
  | .flush => (amlCfg80211FlushPmksa list).2

/-- The PMKID that the lookup leads to. -/
def lookup (list : PmkList) (bssid : Bssid) : Option Pmkid :=
  (amlPmkidCacheIndex list bssid.1).map fun slot => (list.pmkidCache slot).pmkid

def Full (list : PmkList) : Prop := ∀ slot, (list.pmkidCache slot).inUse = true

/-- No BSSID has two slots. -/
def Single (list : PmkList) : Prop :=
  ∀ first second, (list.pmkidCache first).bssid = (list.pmkidCache second).bssid →
    (list.pmkidCache first).bssid ≠ zeroMac → first = second

/-- The entry of another BSSID changes only where every slot is in use. -/
def Others (list later : PmkList) (bssid : Bssid) : Prop :=
  ∀ other, other ≠ bssid → lookup later other = lookup list other ∨ Full list

/-- What a bounded map does: a set is found, a deleted entry is not, a flush leaves none, and the
other entries stay unless one has to make room. -/
def MapStep (list later : PmkList) : PmkOp → Prop
  | .set bssid pmkid => lookup later bssid = some pmkid ∧ Others list later bssid
  | .del bssid => lookup later bssid = none ∧ Others list later bssid
  | .delByIndex bssid => lookup later bssid = none ∧ Others list later bssid
  | .flush => ∀ bssid, lookup later bssid = none

/-- The law of a call on the cache. -/
def Law (list : PmkList) (op : PmkOp) : Prop :=
  Single (step list op) ∧ MapStep list (step list op) op

/-- What a call must find: a new BSSID the slot of the next write free, or none; a delete of an
entry a count that is not zero, and only `aml_cfg80211_del_pmksa` deletes one. -/
def Ready (list : PmkList) : PmkOp → Prop
  | .set bssid _ => lookup list bssid = none →
      (list.pmkidCache (writeSlot list)).inUse = false ∨ Full list
  | .del bssid => lookup list bssid ≠ none → list.pmkidCount ≠ 0
  | .delByIndex bssid => lookup list bssid = none
  | .flush => True

section Lookup

variable {list later : PmkList} {bssid : Bssid} {slot : Fin wlNumPmkidsMax} {pmkid : Pmkid}

theorem index_eq (list : PmkList) (bssid : Bssid) :
    amlPmkidCacheIndex list bssid.1 = list.slotOf bssid.1 := if_neg bssid.2

theorem slotOf_some {mac : MacAddr} (found : list.slotOf mac = some slot) :
    (list.pmkidCache slot).bssid = mac := by
  simpa using List.find?_some found

theorem slotOf_none {mac : MacAddr} (missing : list.slotOf mac = none)
    (slot : Fin wlNumPmkidsMax) : (list.pmkidCache slot).bssid ≠ mac := by
  have none_here := List.find?_eq_none.mp missing slot (List.mem_finRange slot)
  simpa using none_here

private theorem slotOf_single (single : Single list)
    (here : (list.pmkidCache slot).bssid = bssid.1) :
    list.slotOf bssid.1 = some slot := by
  cases found : list.slotOf bssid.1 with
  | none => exact absurd here (slotOf_none found slot)
  | some other =>
    have there := slotOf_some found
    congr 1
    apply single other slot (there.trans here.symm)
    rw [there]
    exact bssid.2

theorem lookup_of_slot (single : Single list) (here : (list.pmkidCache slot).bssid = bssid.1) :
    lookup list bssid = some (list.pmkidCache slot).pmkid := by
  rw [lookup, index_eq, slotOf_single single here]
  rfl

theorem lookup_none_iff :
    lookup list bssid = none ↔ ∀ slot, (list.pmkidCache slot).bssid ≠ bssid.1 := by
  rw [lookup, index_eq, Option.map_eq_none_iff]
  constructor
  · exact fun missing slot => slotOf_none missing slot
  · intro nowhere
    cases found : list.slotOf bssid.1 with
    | none => rfl
    | some slot => exact absurd (slotOf_some found) (nowhere slot)

/-- A lookup does not change where the slots of the BSSID and their PMKIDs do not. -/
theorem lookup_congr
    (bssids : ∀ slot, (later.pmkidCache slot).bssid = bssid.1 ↔
      (list.pmkidCache slot).bssid = bssid.1)
    (pmkids : ∀ slot, (list.pmkidCache slot).bssid = bssid.1 →
      (later.pmkidCache slot).pmkid = (list.pmkidCache slot).pmkid) :
    lookup later bssid = lookup list bssid := by
  have same : later.slotOf bssid.1 = list.slotOf bssid.1 := by
    rw [PmkList.slotOf, PmkList.slotOf]
    congr 1
    funext slot
    simp only [bssids slot]
  rw [lookup, lookup, index_eq, index_eq, same]
  cases found : list.slotOf bssid.1 with
  | none => rfl
  | some slot => exact congrArg some (pmkids slot (slotOf_some found))

end Lookup

section Invariant

variable {list : PmkList} {bssid : Bssid} {slot : Fin wlNumPmkidsMax} {pmkid : Pmkid}
  {entry : PmkidCache} {count : Nat}

/-- What holds of the list after every sequence of calls. -/
structure Inv (list : PmkList) : Prop where
  single : Single list
  used : ∀ slot, (list.pmkidCache slot).inUse = true ↔ (list.pmkidCache slot).bssid ≠ zeroMac
  inside : list.pmkidCount < wlNumPmkidsMax

theorem put_self : (list.put slot entry).pmkidCache slot = entry := Function.update_self ..

theorem put_other {other : Fin wlNumPmkidsMax} (distinct : other ≠ slot) :
    (list.put slot entry).pmkidCache other = list.pmkidCache other :=
  Function.update_of_ne distinct ..

/-- A slot can take an entry whose BSSID is zero or in no other slot. -/
theorem Inv.put (inv : Inv list) (used : entry.inUse = true ↔ entry.bssid ≠ zeroMac)
    (alone : entry.bssid ≠ zeroMac → ∀ other, other ≠ slot →
      (list.pmkidCache other).bssid ≠ entry.bssid) (inside : count < wlNumPmkidsMax) :
    Inv { list.put slot entry with pmkidCount := count } where
  single := by
    intro first second
    have stored : ∀ place, ({ list.put slot entry with pmkidCount := count } : PmkList).pmkidCache
        place = (list.put slot entry).pmkidCache place := fun _ => rfl
    rw [stored first, stored second]
    intro same nonzero
    by_cases atFirst : first = slot
    · subst atFirst
      by_contra distinct
      rw [put_self] at same nonzero
      rw [put_other (Ne.symm distinct)] at same
      exact alone nonzero second (Ne.symm distinct) same.symm
    · rw [put_other atFirst] at same nonzero
      by_cases atSecond : second = slot
      · subst atSecond
        rw [put_self] at same
        exact absurd same (alone (same ▸ nonzero) first atFirst)
      · rw [put_other atSecond] at same
        exact inv.single first second same nonzero
  used := by
    intro other
    by_cases here : other = slot
    · subst here
      have self := @put_self list other entry
      simp only [self]
      exact used
    · have kept := @put_other list slot entry other here
      simp only [kept]
      exact inv.used other
  inside := inside

theorem attached_inv : Inv attached where
  single := fun _ _ _ nonzero => absurd rfl nonzero
  used := fun _ => by simp [attached, zeroEntry]
  inside := by decide

end Invariant

section Steps

variable {list : PmkList} {bssid : Bssid} {slot : Fin wlNumPmkidsMax}

theorem set_present (found : list.slotOf bssid.1 = some slot) (pmkid : Pmkid) :
    step list (.set bssid pmkid) =
      { list.put slot { list.pmkidCache slot with pmkid := pmkid, inUse := true } with
        pmkidCount := (slot + 1) % wlNumPmkidsMax } := by
  rw [step, amlCfg80211SetPmksa, if_neg bssid.2, found]

theorem set_absent (missing : list.slotOf bssid.1 = none) (pmkid : Pmkid) :
    step list (.set bssid pmkid) =
      { list.put (writeSlot list) ⟨true, bssid.1, pmkid⟩ with
        pmkidCount := if (writeSlot list).1 + 1 = wlNumPmkidsMax then 0
          else writeSlot list + 1 } := by
  rw [step, amlCfg80211SetPmksa, if_neg bssid.2, missing]

theorem step_inv (list : PmkList) (op : PmkOp) (inv : Inv list) : Inv (step list op) := by
  cases op with
  | set bssid pmkid =>
    cases found : list.slotOf bssid.1 with
    | some slot =>
      have here := slotOf_some found
      rw [set_present found]
      apply inv.put
      · simpa [here] using bssid.2
      · intro nonzero other distinct same
        exact distinct (inv.single other slot same (same ▸ nonzero))
      · exact Nat.mod_lt _ (by decide)
    | none =>
      rw [set_absent found]
      apply inv.put
      · simpa using bssid.2
      · exact fun _ other _ => slotOf_none found other
      · split <;> omega
  | del bssid =>
    rw [step, amlCfg80211DelPmksa, if_neg bssid.2]
    split
    next => exact inv
    next =>
      split
      next slot found =>
        exact inv.put (by simp [zeroEntry]) (fun nonzero => absurd rfl nonzero) inv.inside
      next => exact inv
  | delByIndex bssid =>
    rw [step, amlDelPmksaByIndex]
    split
    next => exact inv
    next slot found =>
      apply inv.put
      · exact inv.used slot
      · intro nonzero other distinct same
        exact distinct (inv.single other slot same (same ▸ nonzero))
      · have inside := inv.inside
        split <;> omega
  | flush => exact attached_inv

/-- A new entry leaves the others alone exactly when its slot was free, or every slot was used. -/
theorem set_absent_others_iff (inv : Inv list) (missing : list.slotOf bssid.1 = none)
    (pmkid : Pmkid) :
    Others list (step list (.set bssid pmkid)) bssid ↔
      (list.pmkidCache (writeSlot list)).inUse = false ∨ Full list := by
  obtain ⟨later, later_eq⟩ : ∃ later, later = step list (.set bssid pmkid) := ⟨_, rfl⟩
  rw [← later_eq]
  rw [set_absent missing] at later_eq
  have written : later.pmkidCache (writeSlot list) = ⟨true, bssid.1, pmkid⟩ := by
    rw [later_eq]
    exact put_self
  have kept : ∀ slot, slot ≠ writeSlot list → later.pmkidCache slot = list.pmkidCache slot := by
    intro slot distinct
    rw [later_eq]
    exact put_other distinct
  constructor
  · intro others
    by_contra taken
    rw [not_or, Bool.not_eq_false] at taken
    obtain ⟨victim, victim_eq⟩ : ∃ victim : Bssid,
        victim.1 = (list.pmkidCache (writeSlot list)).bssid :=
      ⟨⟨_, (inv.used _).mp taken.1⟩, rfl⟩
    have distinct : victim ≠ bssid := by
      intro same
      exact slotOf_none missing (writeSlot list) (victim_eq.symm.trans (congrArg _ same))
    have before := lookup_of_slot inv.single victim_eq.symm
    have after : lookup later victim = none := by
      apply lookup_none_iff.mpr
      intro slot same
      by_cases here : slot = writeSlot list
      · rw [here, written] at same
        exact distinct (Subtype.ext same.symm)
      · rw [kept slot here, victim_eq] at same
        have nonzero := victim.2
        rw [victim_eq, ← same] at nonzero
        exact here (inv.single slot (writeSlot list) same nonzero)
    rcases others victim distinct with stays | full
    · rw [before, after] at stays
      cases stays
    · exact taken.2 full
  · rintro (free | full) other distinct
    · have empty : (list.pmkidCache (writeSlot list)).bssid = zeroMac := by
        by_contra nonzero
        rw [(inv.used _).mpr nonzero] at free
        cases free
      refine Or.inl (lookup_congr (fun slot => ?_) fun slot here => ?_)
      · by_cases here : slot = writeSlot list
        · rw [here, written, empty]
          exact ⟨fun same => absurd (Subtype.ext same.symm) distinct,
            fun same => absurd same.symm other.2⟩
        · rw [kept slot here]
      · by_cases there : slot = writeSlot list
        · rw [there, empty] at here
          exact absurd here.symm other.2
        · rw [kept slot there]
    · exact Or.inr full

/-- Entries of other BSSIDs stay when only a slot of this one changes. -/
theorem others_of_slot {entry : PmkidCache} {count : Nat}
    (here : (list.pmkidCache slot).bssid = bssid.1)
    (own : entry.bssid = bssid.1 ∨ entry.bssid = zeroMac) :
    Others list { list.put slot entry with pmkidCount := count } bssid := by
  intro other distinct
  have foreign : entry.bssid ≠ other.1 := by
    intro same
    rcases own with own | zero
    · exact distinct (Subtype.ext (same.symm.trans own))
    · exact other.2 (same.symm.trans zero)
  have before : (list.pmkidCache slot).bssid ≠ other.1 :=
    fun same => distinct (Subtype.ext (same.symm.trans here))
  have written : (list.put slot entry).pmkidCache slot = entry := put_self
  refine Or.inl (lookup_congr (fun place => ?_) fun place there => ?_)
  · by_cases at_ : place = slot
    · subst at_
      simp only [written]
      exact ⟨fun same => absurd same foreign, fun same => absurd same before⟩
    · have kept : (list.put slot entry).pmkidCache place = list.pmkidCache place := put_other at_
      simp only [kept]
  · have kept : (list.put slot entry).pmkidCache place = list.pmkidCache place := by
      apply put_other
      rintro rfl
      exact before there
    simp only [kept]

private theorem law_iff (op : PmkOp) (inv : Inv list) : Law list op ↔ Ready list op := by
  have single := (step_inv list op inv).single
  have unchanged : ∀ bssid, Others list list bssid := fun _ _ _ => Or.inl rfl
  rw [Law, and_iff_right single]
  cases op with
  | set bssid pmkid =>
    cases found : list.slotOf bssid.1 with
    | some slot =>
      have here := slotOf_some found
      have present : lookup list bssid ≠ none := by
        rw [lookup_of_slot inv.single here]
        exact Option.some_ne_none _
      have stored : ((step list (.set bssid pmkid)).pmkidCache slot) =
          { list.pmkidCache slot with pmkid := pmkid, inUse := true } := by
        rw [set_present found]
        exact put_self
      have renewed : lookup (step list (.set bssid pmkid)) bssid = some pmkid := by
        rw [lookup_of_slot single (by rw [stored]; exact here), stored]
      refine ⟨fun _ missing => absurd missing present, fun _ => ⟨renewed, ?_⟩⟩
      rw [set_present found]
      exact others_of_slot here (Or.inl here)
    | none =>
      have absent : lookup list bssid = none := by
        rw [lookup, index_eq, found]
        rfl
      have stored : ((step list (.set bssid pmkid)).pmkidCache (writeSlot list)) =
          ⟨true, bssid.1, pmkid⟩ := by
        rw [set_absent found]
        exact put_self
      have written : lookup (step list (.set bssid pmkid)) bssid = some pmkid := by
        rw [lookup_of_slot single (by rw [stored]), stored]
      rw [MapStep, and_iff_right written, set_absent_others_iff inv found, Ready]
      exact ⟨fun free _ => free, fun ready => ready absent⟩
  | del bssid =>
    by_cases none_left : list.pmkidCount = 0
    · have same : step list (.del bssid) = list := by
        rw [step, amlCfg80211DelPmksa, if_pos none_left]
      rw [MapStep, same, Ready, and_iff_left (unchanged bssid)]
      exact ⟨fun missing present => absurd missing present,
        fun ready => by_contra fun present => ready present none_left⟩
    refine ⟨fun _ _ => none_left, fun _ => ?_⟩
    cases found : list.slotOf bssid.1 with
    | some slot =>
      have here := slotOf_some found
      have removed : step list (.del bssid) =
          { list.put slot zeroEntry with pmkidCount := list.pmkidCount } := by
        rw [step, amlCfg80211DelPmksa, if_neg none_left, if_neg bssid.2, found]
        rfl
      rw [removed]
      refine ⟨lookup_none_iff.mpr fun place => ?_, others_of_slot here (Or.inr rfl)⟩
      by_cases at_ : place = slot
      · subst at_
        have written := @put_self list place zeroEntry
        simp only [written]
        exact Ne.symm bssid.2
      · have kept := @put_other list slot zeroEntry place at_
        simp only [kept]
        intro same
        apply at_
        apply inv.single place slot (same.trans here.symm)
        rw [same]
        exact bssid.2
    | none =>
      have same : step list (.del bssid) = list := by
        rw [step, amlCfg80211DelPmksa, if_neg none_left, if_neg bssid.2, found]
      rw [MapStep, same]
      exact ⟨lookup_none_iff.mpr (slotOf_none found), unchanged bssid⟩
  | delByIndex bssid =>
    cases found : list.slotOf bssid.1 with
    | some slot =>
      have here := slotOf_some found
      have present : lookup list bssid ≠ none := by
        rw [lookup_of_slot inv.single here]
        exact Option.some_ne_none _
      have stored : ((step list (.delByIndex bssid)).pmkidCache slot) =
          { list.pmkidCache slot with pmkid := zeroPmkid } := by
        rw [step, amlDelPmksaByIndex, index_eq, found]
        exact put_self
      have left : lookup (step list (.delByIndex bssid)) bssid ≠ none := by
        rw [lookup_of_slot single (by rw [stored]; exact here)]
        exact Option.some_ne_none _
      exact ⟨fun law => absurd law.1 left, fun ready => absurd ready present⟩
    | none =>
      have absent := lookup_none_iff.mpr (slotOf_none found)
      have same : step list (.delByIndex bssid) = list := by
        rw [step, amlDelPmksaByIndex, index_eq, found]
      rw [MapStep, same]
      exact ⟨fun _ => absent, fun _ => ⟨absent, unchanged bssid⟩⟩
  | flush =>
    refine ⟨fun _ => trivial, fun _ bssid => lookup_none_iff.mpr fun slot => ?_⟩
    exact Ne.symm bssid.2

end Steps

section Run

variable {ops : List PmkOp}

theorem along_agree : Along step Law attached ops ↔ Along step Ready attached ops := by
  have agree : ∀ list op, Inv list → (Law list op ↔ Ready list op) :=
    fun _ op inv => law_iff op inv
  have kept : ∀ list op, Inv list → Law list op → Inv (step list op) :=
    fun list op inv _ => step_inv list op inv
  exact Machine.along_congr agree kept attached_inv

end Run

/-- Along every sequence of calls the cache is a bounded map exactly when each call finds what it
must find; no BSSID has two slots in any case. -/
theorem pmksa_iff (ops : List PmkOp) :
    (Along step Law attached ops ↔ Along step Ready attached ops) ∧
      Single (run step attached ops) :=
  ⟨along_agree, (Machine.run_invariant step_inv ops attached_inv).single⟩

section Runs

instance (list : PmkList) : Decidable (Full list) := inferInstanceAs (Decidable (∀ _, _))

instance readyDecidable (list : PmkList) : (op : PmkOp) → Decidable (Ready list op)
  | .set _ _ => inferInstanceAs (Decidable (_ → _))
  | .del _ => inferInstanceAs (Decidable (_ → _))
  | .delByIndex _ => inferInstanceAs (Decidable (_ = _))
  | .flush => instDecidableTrue

/-- Sixteen addresses. -/
def bssidOf (last : Fin 16) : Bssid :=
  ⟨⟨[2, 0, 0, 0, 0, UInt8.ofNat last.1], rfl⟩, by
    intro same
    have first := congrArg (fun mac : MacAddr => mac.1.head?) same
    simp [zeroMac] at first⟩

/-- A renewal moves the index of the next write onto an entry, and the next one overwrites it
while slots are free; with sixteen entries the count is zero, and a delete does nothing; a delete
by index leaves the entry. -/
theorem pmksa_overwrites :
    ¬ Along step Law attached
        [.set (bssidOf 1) zeroPmkid, .set (bssidOf 2) zeroPmkid, .set (bssidOf 1) zeroPmkid,
          .set (bssidOf 3) zeroPmkid] ∧
      ¬ Along step Law attached
        ((List.finRange 16).map (fun last => .set (bssidOf last) zeroPmkid) ++
          [.del (bssidOf 0)]) ∧
      ¬ Along step Law attached [.set (bssidOf 1) zeroPmkid, .delByIndex (bssidOf 1)] := by
  refine ⟨fun law => ?_, fun law => ?_, fun law => ?_⟩
  · exact absurd (along_agree.mp law) (by decide +kernel)
  · exact absurd (along_agree.mp law) (by decide +kernel)
  · exact absurd (along_agree.mp law) (by decide +kernel)

end Runs

end W522a.Pmksa
