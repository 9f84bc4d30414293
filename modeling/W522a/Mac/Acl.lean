import Mathlib.Data.Fintype.Basic
import W522a.Lib.Keyed
import W522a.Lib.Run

/-!
The access control list of an interface: a list and 32 hash chains through the same entries, under a
spinlock that is not recursive. A call that takes the lock twice, or goes through a null pointer,
does not return.

The list and the chains agree after every call that returns, and `acl_check` applies the policy to
them. `acl_detach` never returns: the helper that it calls under the lock takes the lock again.
-/

namespace W522a.Acl

abbrev aclHashsize : Nat := 32

abbrev MacAddr : Type := Fin 6 → UInt8

def aclHash (addr : MacAddr) : Nat := (addr 5).toNat % aclHashsize

inductive AclPolicy where
  | openAll
  | allow
  | deny
  deriving DecidableEq, Repr

/-- `NETWIFI_S_ACL_INFO`. An allocation is known by its number. -/
structure AclInfo where
  ptr : Nat
  aclMacaddr : MacAddr

/-- `NETWIFI_S_ACL`, with whether the lock is held. -/
structure AclPriv where
  ptr : Nat
  asLock : Bool
  asPolicy : AclPolicy
  asList : List AclInfo
  asHash : Nat → List AclInfo

/-- The allocations: the number of the next one, and those that were freed. -/
structure AclHeap where
  next : Nat
  freed : List Nat

/-- What the calls use of an interface, and `my_mod_use`. -/
structure AclVif where
  vmAclpriv : Option AclPriv
  heap : AclHeap
  myModUse : Nat

abbrev ENOENT : Nat := 2
abbrev ENOMEM : Nat := 12
abbrev EEXIST : Nat := 17
abbrev EINVAL : Nat := 22

/-- `FREE`, which ignores a null pointer. -/
def free (ptr : Option Nat) (heap : AclHeap) : AclHeap :=
  match ptr with
  | none => heap
  | some ptr => { heap with freed := heap.freed ++ [ptr] }

/-- `ACL_LOCK`. With the lock held it spins for ever. -/
def aclLock (aclpriv : AclPriv) : Option AclPriv :=
  if aclpriv.asLock then none else some { aclpriv with asLock := true }

def aclUnlock (aclpriv : AclPriv) : AclPriv := { aclpriv with asLock := false }

/-- `acl_attach`, where `memory` says whether there is any. -/
def aclAttach (memory : Bool) (vif : AclVif) : Nat × AclVif :=
  if 2 < vif.myModUse then (0, vif)
  else if !memory then (0, { vif with myModUse := 0 })
  else
    (1, { vif with
      vmAclpriv := some ⟨vif.heap.next, false, .openAll, [], fun _ => []⟩
      heap := { vif.heap with next := vif.heap.next + 1 }
      myModUse := 1 })

def findAcl (aclpriv : AclPriv) (macaddr : MacAddr) : Option AclInfo :=
  Keyed.find AclInfo.aclMacaddr (aclpriv.asHash (aclHash macaddr)) macaddr

/-- `list_del_init` of `acl_list` and of `acl_hash` -/
def aclUnlink (aclpriv : AclPriv) (aclinfo : AclInfo) : AclPriv :=
  { aclpriv with
    asList := Keyed.remove AclInfo.ptr aclpriv.asList aclinfo.ptr
    asHash := fun hash => Keyed.remove AclInfo.ptr (aclpriv.asHash hash) aclinfo.ptr }

def aclFree (aclpriv : AclPriv) (heap : AclHeap) (aclinfo : AclInfo) : AclPriv × AclHeap :=
  (aclUnlink aclpriv aclinfo, free (some aclinfo.ptr) heap)

def aclCheck (aclpriv : AclPriv) (mac : MacAddr) : Bool :=
  match aclpriv.asPolicy with
  | .openAll => true
  | .allow => (findAcl aclpriv mac).isSome
  | .deny => (findAcl aclpriv mac).isNone

def aclAdd (mac : MacAddr) (memory : Bool) (vif : AclVif) : Option (Nat × AclVif) :=
  if !memory then some (ENOMEM, vif)
  else do
    let new := vif.heap.next
    let heap := { vif.heap with next := new + 1 }
    let aclpriv ← aclLock (← vif.vmAclpriv)
    let hash := aclHash mac
    match Keyed.find AclInfo.aclMacaddr (aclpriv.asHash hash) mac with
    | some _ =>
      some (EEXIST, { vif with
        vmAclpriv := some (aclUnlock aclpriv)
        heap := free (some new) heap })
    | none =>
      let linked := { aclpriv with
        asList := aclpriv.asList ++ [⟨new, mac⟩]
        asHash := Function.update aclpriv.asHash hash (⟨new, mac⟩ :: aclpriv.asHash hash) }
      some (0, { vif with vmAclpriv := some (aclUnlock linked), heap })

def aclRemove (mac : MacAddr) (vif : AclVif) : Option (Nat × AclVif) := do
  let aclpriv ← aclLock (← vif.vmAclpriv)
  match findAcl aclpriv mac with
  | none => some (ENOENT, { vif with vmAclpriv := some (aclUnlock aclpriv) })
  | some aclinfo =>
    let (aclpriv, heap) := aclFree aclpriv vif.heap aclinfo
    some (0, { vif with vmAclpriv := some (aclUnlock aclpriv), heap })

theorem length_unlink_lt {aclpriv : AclPriv} {aclinfo : AclInfo} {rest : List AclInfo}
    (first : aclpriv.asList = aclinfo :: rest) :
    (aclUnlink aclpriv aclinfo).asList.length < aclpriv.asList.length := by
  have shorter : (Keyed.remove AclInfo.ptr rest aclinfo.ptr).length ≤ rest.length :=
    List.length_filter_le _ _
  simp only [aclUnlink, first, Keyed.remove] at shorter ⊢
  simpa using Nat.lt_succ_of_le shorter

def aclFreeLoop (aclpriv : AclPriv) (heap : AclHeap) : AclPriv × AclHeap :=
  match _first : aclpriv.asList with
  | [] => (aclpriv, heap)
  | aclinfo :: _ => aclFreeLoop (aclUnlink aclpriv aclinfo) (aclFree aclpriv heap aclinfo).2
termination_by aclpriv.asList.length
decreasing_by exact length_unlink_lt ‹_›

def aclFreeAllLocked (aclpriv : AclPriv) (heap : AclHeap) : Option (AclPriv × AclHeap) := do
  let aclpriv ← aclLock aclpriv
  let (aclpriv, heap) := aclFreeLoop aclpriv heap
  some (aclUnlock aclpriv, heap)

def aclFreeAll (vif : AclVif) : Option (Nat × AclVif) := do
  let (aclpriv, heap) ← aclFreeAllLocked (← vif.vmAclpriv) vif.heap
  some (0, { vif with vmAclpriv := some aclpriv, heap })

def aclSetpolicy (policy : Int) (vif : AclVif) : Option (Nat × AclVif) :=
  let set (asPolicy : AclPolicy) := do
    let aclpriv ← vif.vmAclpriv
    some (0, { vif with vmAclpriv := some { aclpriv with asPolicy } })
  if policy = 0 then set .openAll
  else if policy = 1 then set .allow
  else if policy = 2 then set .deny
  else some (EINVAL, vif)

/-- `acl_detach`, which clears `vm_aclpriv` before it frees what it points to. -/
def aclDetach (vif : AclVif) : Option AclVif := do
  let aclpriv ← aclLock (← vif.vmAclpriv)
  let (_, heap) ← aclFreeAllLocked aclpriv vif.heap
  let cleared := { vif with vmAclpriv := none, heap }
  some { cleared with
    heap := free (cleared.vmAclpriv.map AclPriv.ptr) heap
    myModUse := 0 }

/-- A call, with whether there is memory for what it allocates. -/
inductive AclCall where
  | attach (memory : Bool)
  | add (mac : MacAddr) (memory : Bool)
  | remove (mac : MacAddr)
  | setpolicy (policy : Int)
  | freeAll
  | detach

/-- What a call leaves, if it returns. -/
def AclVif.call (vif : AclVif) : AclCall → Option AclVif
  | .attach memory => some (aclAttach memory vif).2
  | .add mac memory => (aclAdd mac memory vif).map Prod.snd
  | .remove mac => (aclRemove mac vif).map Prod.snd
  | .setpolicy policy => (aclSetpolicy policy vif).map Prod.snd
  | .freeAll => (aclFreeAll vif).map Prod.snd
  | .detach => aclDetach vif

def aclInit : AclVif := ⟨none, ⟨0, []⟩, 0⟩

/-- What a policy says about an address, by whether it is in the set. -/
def Admits (policy : AclPolicy) (listed : Prop) : Prop :=
  match policy with
  | .openAll => True
  | .allow => listed
  | .deny => ¬ listed

namespace AclPriv

def Contains (aclpriv : AclPriv) (mac : MacAddr) : Prop :=
  mac ∈ aclpriv.asList.map AclInfo.aclMacaddr

/-- The allocations of the object and its entries. -/
def owned (aclpriv : AclPriv) : List Nat := aclpriv.ptr :: aclpriv.asList.map AclInfo.ptr

/-- The lock is free, the list and the chains hold the same entries without duplicates, each in the
chain of its hash, and `acl_check` is the policy on the set. -/
structure Right (aclpriv : AclPriv) : Prop where
  unlocked : aclpriv.asLock = false
  same : ∀ aclinfo, aclinfo ∈ aclpriv.asList ↔ ∃ hash, aclinfo ∈ aclpriv.asHash hash
  own : ∀ hash, ∀ aclinfo ∈ aclpriv.asHash hash, aclHash aclinfo.aclMacaddr = hash
  single : Keyed.Distinct AclInfo.aclMacaddr aclpriv.asList
  chainSingle : ∀ hash, Keyed.Distinct AclInfo.aclMacaddr (aclpriv.asHash hash)
  checked : ∀ mac, aclCheck aclpriv mac = true ↔
    Admits aclpriv.asPolicy (aclpriv.Contains mac)

/-- The invariant of the entries, with or without the lock. -/
structure Linked (aclpriv : AclPriv) (heap : AclHeap) : Prop where
  chained : ∀ hash aclinfo, aclinfo ∈ aclpriv.asHash hash ↔
    aclinfo ∈ aclpriv.asList ∧ aclHash aclinfo.aclMacaddr = hash
  single : Keyed.Distinct AclInfo.aclMacaddr aclpriv.asList
  chainSingle : ∀ hash, Keyed.Distinct AclInfo.aclMacaddr (aclpriv.asHash hash)
  apart : aclpriv.owned.Nodup
  live : ∀ ptr ∈ aclpriv.owned, ptr < heap.next ∧ ptr ∉ heap.freed

end AclPriv

/-- Nothing is freed twice, or before it is allocated. -/
structure AclHeap.Sound (heap : AclHeap) : Prop where
  once : heap.freed.Nodup
  allocated : ∀ ptr ∈ heap.freed, ptr < heap.next

namespace AclVif

structure Right (vif : AclVif) : Prop where
  once : vif.heap.freed.Nodup
  live : ∀ aclpriv ∈ vif.vmAclpriv, ∀ ptr ∈ aclpriv.owned, ptr ∉ vif.heap.freed
  acl : ∀ aclpriv ∈ vif.vmAclpriv, aclpriv.Right

structure Inv (vif : AclVif) : Prop where
  heap : vif.heap.Sound
  acl : ∀ aclpriv ∈ vif.vmAclpriv, aclpriv.asLock = false ∧ aclpriv.Linked vif.heap

/-- The call returns with everything as it should be, and `acl_detach` has freed the object and its
entries once. -/
def CallRight (vif : AclVif) (call : AclCall) : Prop :=
  ∃ later, vif.call call = some later ∧ later.Right ∧
    (call = .detach → later.vmAclpriv = none ∧
      ∀ aclpriv ∈ vif.vmAclpriv, ∀ ptr ∈ aclpriv.owned, later.heap.freed.count ptr = 1)

/-- There is a list for the calls that go through the pointer to it, and none is `acl_detach`. -/
def Served (vif : AclVif) : AclCall → Prop
  | .attach _ => True
  | .add _ memory => memory = true → vif.vmAclpriv.isSome
  | .remove _ => vif.vmAclpriv.isSome
  | .setpolicy policy => (policy = 0 ∨ policy = 1 ∨ policy = 2) → vif.vmAclpriv.isSome
  | .freeAll => vif.vmAclpriv.isSome
  | .detach => False

end AclVif

variable {aclpriv : AclPriv} {heap : AclHeap} {vif : AclVif} {aclinfo : AclInfo} {mac : MacAddr}

namespace AclPriv.Linked

theorem found (linked : aclpriv.Linked heap) (lookup : findAcl aclpriv mac = some aclinfo) :
    aclinfo ∈ aclpriv.asList ∧ aclinfo.aclMacaddr = mac :=
  ⟨((linked.chained _ _).mp (Keyed.mem_of_find lookup)).1, Keyed.key_of_find lookup⟩

theorem missing (linked : aclpriv.Linked heap) (lookup : findAcl aclpriv mac = none) :
    ¬ aclpriv.Contains mac := by
  intro listed
  obtain ⟨aclinfo, member, rfl⟩ := List.mem_map.mp listed
  have chained := (linked.chained _ aclinfo).mpr ⟨member, rfl⟩
  exact Keyed.absent_of_find lookup (List.mem_map_of_mem chained)

private theorem checked (linked : aclpriv.Linked heap) (mac : MacAddr) :
    aclCheck aclpriv mac = true ↔ Admits aclpriv.asPolicy (aclpriv.Contains mac) := by
  have listed : (findAcl aclpriv mac).isSome = true ↔ aclpriv.Contains mac := by
    cases lookup : findAcl aclpriv mac with
    | none => simp [linked.missing lookup]
    | some aclinfo =>
      obtain ⟨member, same⟩ := linked.found lookup
      simp only [Option.isSome_some, true_iff]
      rw [← same]
      exact List.mem_map_of_mem member
  unfold aclCheck Admits
  cases aclpriv.asPolicy with
  | openAll => simp
  | allow => exact listed
  | deny => simp [← listed]

theorem right (linked : aclpriv.Linked heap) (unlocked : aclpriv.asLock = false) :
    aclpriv.Right where
  unlocked := unlocked
  same := by
    intro aclinfo
    constructor
    · intro member
      exact ⟨_, (linked.chained _ aclinfo).mpr ⟨member, rfl⟩⟩
    · rintro ⟨hash, member⟩
      exact ((linked.chained hash aclinfo).mp member).1
  own := fun hash aclinfo member => ((linked.chained hash aclinfo).mp member).2
  single := linked.single
  chainSingle := linked.chainSingle
  checked := linked.checked

theorem locked (linked : aclpriv.Linked heap) (asLock : Bool) :
    AclPriv.Linked { aclpriv with asLock } heap :=
  ⟨linked.chained, linked.single, linked.chainSingle, linked.apart, linked.live⟩

theorem unused (linked : aclpriv.Linked heap) :
    aclpriv.Linked (free (some heap.next) { heap with next := heap.next + 1 }) where
  chained := linked.chained
  single := linked.single
  chainSingle := linked.chainSingle
  apart := linked.apart
  live := by
    intro ptr mine
    obtain ⟨allocated, live⟩ := linked.live ptr mine
    refine ⟨Nat.lt_succ_of_lt allocated, ?_⟩
    simp [free, live, Nat.ne_of_lt allocated]

theorem unlink (linked : aclpriv.Linked heap) (member : aclinfo ∈ aclpriv.asList) :
    (aclUnlink aclpriv aclinfo).Linked (free (some aclinfo.ptr) heap) where
  chained := by
    intro hash other
    have both := linked.chained hash other
    simp only [aclUnlink, Keyed.mem_remove, both]
    exact and_right_comm
  single := linked.single.sublist List.filter_sublist
  chainSingle := fun hash => (linked.chainSingle hash).sublist List.filter_sublist
  apart := linked.apart.sublist ((List.filter_sublist.map _).cons_cons _)
  live := by
    intro ptr mine
    have before : ptr ∈ aclpriv.owned ∧ ptr ≠ aclinfo.ptr := by
      rcases List.mem_cons.mp mine with rfl | entry
      · refine ⟨.head _, ?_⟩
        rintro same
        exact (List.nodup_cons.mp linked.apart).1 (same ▸ List.mem_map_of_mem member)
      · obtain ⟨other, listed, rfl⟩ := List.mem_map.mp entry
        obtain ⟨listed, differ⟩ := Keyed.mem_remove.mp listed
        exact ⟨.tail _ (List.mem_map_of_mem listed), differ⟩
    obtain ⟨allocated, live⟩ := linked.live ptr before.1
    refine ⟨allocated, ?_⟩
    simp [free, live, before.2]

private theorem link (linked : aclpriv.Linked heap) (sound : heap.Sound)
    (fresh : ¬ aclpriv.Contains mac) :
    AclPriv.Linked { aclpriv with
      asList := aclpriv.asList ++ [⟨heap.next, mac⟩]
      asHash := Function.update aclpriv.asHash (aclHash mac)
        (⟨heap.next, mac⟩ :: aclpriv.asHash (aclHash mac)) }
      { heap with next := heap.next + 1 } where
  chained := by
    intro hash aclinfo
    have both := linked.chained hash aclinfo
    by_cases here : hash = aclHash mac
    · subst here
      simp only [Function.update_self, List.mem_cons, both, List.mem_append, List.not_mem_nil,
        or_false]
      constructor
      · rintro (rfl | ⟨old, own⟩)
        · exact ⟨.inr rfl, rfl⟩
        · exact ⟨.inl old, own⟩
      · rintro ⟨old | rfl, own⟩
        · exact .inr ⟨old, own⟩
        · exact .inl rfl
    · simp only [Function.update_of_ne here, both, List.mem_append, List.mem_singleton]
      constructor
      · rintro ⟨old, own⟩
        exact ⟨.inl old, own⟩
      · rintro ⟨old | rfl, own⟩
        · exact ⟨old, own⟩
        · exact absurd own.symm here
  single := by
    rw [Keyed.Distinct, List.map_append]
    refine List.nodup_append.mpr ⟨linked.single, List.nodup_singleton _, ?_⟩
    rintro other listed _ (_ | ⟨_, ⟨⟩⟩) rfl
    exact fresh listed
  chainSingle := by
    intro hash
    by_cases here : hash = aclHash mac
    · subst here
      simp only [Function.update_self]
      refine List.nodup_cons.mpr ⟨?_, linked.chainSingle _⟩
      intro listed
      obtain ⟨aclinfo, member, same⟩ := List.mem_map.mp listed
      exact fresh (List.mem_map.mpr ⟨aclinfo, ((linked.chained _ _).mp member).1, same⟩)
    · simp only [Function.update_of_ne here]
      exact linked.chainSingle hash
  apart := by
    rw [owned, List.map_append, ← List.cons_append]
    refine List.nodup_append.mpr ⟨linked.apart, List.nodup_singleton _, ?_⟩
    rintro ptr mine _ (_ | ⟨_, ⟨⟩⟩) rfl
    exact Nat.lt_irrefl _ (linked.live _ mine).1
  live := by
    intro ptr mine
    rw [owned, List.map_append, ← List.cons_append] at mine
    rcases List.mem_append.mp mine with old | new
    · obtain ⟨allocated, live⟩ := linked.live ptr old
      exact ⟨Nat.lt_succ_of_lt allocated, live⟩
    · obtain rfl := List.mem_singleton.mp new
      exact ⟨Nat.lt_succ_self _, fun freed => Nat.lt_irrefl _ (sound.allocated _ freed)⟩

end AclPriv.Linked

theorem AclHeap.Sound.free (sound : heap.Sound) {ptr : Nat} (allocated : ptr < heap.next)
    (live : ptr ∉ heap.freed) : (Acl.free (some ptr) heap).Sound where
  once := by
    refine List.nodup_append.mpr ⟨sound.once, List.nodup_singleton _, ?_⟩
    rintro other freed _ (_ | ⟨_, ⟨⟩⟩) rfl
    exact live freed
  allocated := by
    intro other freed
    rcases List.mem_append.mp freed with old | new
    · exact sound.allocated other old
    · rw [List.mem_singleton.mp new]
      exact allocated

theorem AclHeap.Sound.grow (sound : heap.Sound) :
    AclHeap.Sound { heap with next := heap.next + 1 } where
  once := sound.once
  allocated := fun ptr freed => Nat.lt_succ_of_lt (sound.allocated ptr freed)

private theorem aclFreeLoop_linked (linked : aclpriv.Linked heap) (sound : heap.Sound) :
    (aclFreeLoop aclpriv heap).1.Linked (aclFreeLoop aclpriv heap).2 ∧
      (aclFreeLoop aclpriv heap).2.Sound := by
  fun_induction aclFreeLoop aclpriv heap with
  | case1 aclpriv heap empty => exact ⟨linked, sound⟩
  | case2 aclpriv heap aclinfo rest first induction =>
    have member : aclinfo ∈ aclpriv.asList := first ▸ List.mem_cons_self
    obtain ⟨allocated, live⟩ := linked.live aclinfo.ptr (.tail _ (List.mem_map_of_mem member))
    exact induction (linked.unlink member) (sound.free allocated live)

namespace AclVif

theorem Inv.right (valid : vif.Inv) : vif.Right where
  once := valid.heap.once
  live := fun aclpriv attached ptr mine => ((valid.acl aclpriv attached).2.live ptr mine).2
  acl := fun aclpriv attached =>
    (valid.acl aclpriv attached).2.right (valid.acl aclpriv attached).1

private theorem Inv.attach (valid : vif.Inv) (memory : Bool) : (aclAttach memory vif).2.Inv := by
  unfold aclAttach
  split
  · exact valid
  · split
    · exact ⟨valid.heap, valid.acl⟩
    · refine ⟨valid.heap.grow, ?_⟩
      rintro _ ⟨⟩
      refine ⟨rfl, by simp, List.nodup_nil, fun _ => List.nodup_nil, List.nodup_singleton _, ?_⟩
      rintro _ (_ | ⟨_, ⟨⟩⟩)
      exact ⟨Nat.lt_succ_self _, fun freed => Nat.lt_irrefl _ (valid.heap.allocated _ freed)⟩

theorem Inv.put {aclpriv : AclPriv} {heap : AclHeap} (linked : aclpriv.Linked heap)
    (sound : heap.Sound) : Inv { vif with vmAclpriv := some (aclUnlock aclpriv), heap } where
  heap := sound
  acl := by
    rintro _ ⟨⟩
    exact ⟨rfl, linked.locked false⟩

section Attached

variable (valid : vif.Inv) (attached : vif.vmAclpriv = some aclpriv)
include valid attached

theorem Inv.locks : aclLock aclpriv = some { aclpriv with asLock := true } := by
  rw [aclLock, if_neg]
  rw [(valid.acl aclpriv attached).1]
  exact Bool.false_ne_true

private theorem Inv.add (mac : MacAddr) :
    ∃ result, aclAdd mac true vif = some result ∧ result.2.Inv := by
  have linked := (valid.acl aclpriv attached).2
  have grown := valid.heap.grow
  simp only [aclAdd, attached, valid.locks attached, Bool.not_true, Option.bind_eq_bind,
    Option.bind_some, Bool.false_eq_true, if_false]
  split
  · refine ⟨_, rfl, Inv.put (linked.locked true).unused (grown.free (Nat.lt_succ_self _) ?_)⟩
    exact fun freed => Nat.lt_irrefl _ (valid.heap.allocated _ freed)
  · rename_i lookup
    exact ⟨_, rfl, Inv.put ((linked.locked true).link valid.heap (linked.missing lookup)) grown⟩

private theorem Inv.remove (mac : MacAddr) :
    ∃ result, aclRemove mac vif = some result ∧ result.2.Inv := by
  have linked := (valid.acl aclpriv attached).2.locked true
  simp only [aclRemove, attached, valid.locks attached, Option.bind_eq_bind, Option.bind_some]
  split
  · exact ⟨_, rfl, Inv.put linked valid.heap⟩
  · rename_i aclinfo lookup
    have member := (linked.found lookup).1
    obtain ⟨allocated, live⟩ := linked.live aclinfo.ptr (.tail _ (List.mem_map_of_mem member))
    exact ⟨_, rfl, Inv.put (linked.unlink member) (valid.heap.free allocated live)⟩

private theorem Inv.freeAll : ∃ result, aclFreeAll vif = some result ∧ result.2.Inv := by
  have linked := (valid.acl aclpriv attached).2.locked true
  have freed := aclFreeLoop_linked linked valid.heap
  simp only [aclFreeAll, aclFreeAllLocked, attached, valid.locks attached, Option.bind_eq_bind,
    Option.bind_some]
  exact ⟨_, rfl, Inv.put freed.1 freed.2⟩

private theorem Inv.setpolicy (policy : Int) :
    ∃ result, aclSetpolicy policy vif = some result ∧ result.2.Inv := by
  obtain ⟨unlocked, linked⟩ := valid.acl aclpriv attached
  have changed : ∀ asPolicy, Inv { vif with vmAclpriv := some { aclpriv with asPolicy } } := by
    intro asPolicy
    refine ⟨valid.heap, ?_⟩
    rintro _ ⟨⟩
    exact ⟨unlocked, linked.chained, linked.single, linked.chainSingle, linked.apart, linked.live⟩
  simp only [aclSetpolicy, attached, Option.bind_eq_bind, Option.bind_some]
  split
  · exact ⟨_, rfl, changed _⟩
  · split
    · exact ⟨_, rfl, changed _⟩
    · split
      · exact ⟨_, rfl, changed _⟩
      · exact ⟨_, rfl, valid⟩

end Attached

theorem detach_stuck (vif : AclVif) : aclDetach vif = none := by
  unfold aclDetach
  cases attached : vif.vmAclpriv with
  | none => rfl
  | some aclpriv =>
    cases held : aclpriv.asLock <;> simp [aclFreeAllLocked, aclLock, held]

theorem call_served {call : AclCall} (valid : vif.Inv) (served : vif.Served call) :
    ∃ later, vif.call call = some later ∧ later.Inv := by
  have snd : ∀ {returned : Option (Nat × AclVif)},
      (∃ result, returned = some result ∧ result.2.Inv) →
        ∃ later, returned.map Prod.snd = some later ∧ later.Inv := by
    rintro _ ⟨result, rfl, kept⟩
    exact ⟨result.2, rfl, kept⟩
  cases call with
  | attach memory => exact ⟨_, rfl, valid.attach memory⟩
  | add mac memory =>
    cases memory with
    | false => exact ⟨vif, rfl, valid⟩
    | true =>
      obtain ⟨aclpriv, attached⟩ := Option.isSome_iff_exists.mp (served rfl)
      exact snd (valid.add attached mac)
  | remove mac =>
    obtain ⟨aclpriv, attached⟩ := Option.isSome_iff_exists.mp served
    exact snd (valid.remove attached mac)
  | setpolicy policy =>
    by_cases known : policy = 0 ∨ policy = 1 ∨ policy = 2
    · obtain ⟨aclpriv, attached⟩ := Option.isSome_iff_exists.mp (served known)
      exact snd (valid.setpolicy attached policy)
    · push Not at known
      obtain ⟨first, second, third⟩ := known
      refine snd ⟨(EINVAL, vif), ?_, valid⟩
      rw [aclSetpolicy, if_neg first, if_neg second, if_neg third]
  | freeAll =>
    obtain ⟨aclpriv, attached⟩ := Option.isSome_iff_exists.mp served
    exact snd (valid.freeAll attached)
  | detach => exact served.elim

private theorem call_unserved {call : AclCall} (unserved : ¬ vif.Served call) :
    vif.call call = none := by
  cases call with
  | attach memory => exact absurd trivial unserved
  | add mac memory =>
    obtain ⟨rfl, missing⟩ : memory = true ∧ vif.vmAclpriv = none := by
      simpa [Served] using unserved
    simp [AclVif.call, aclAdd, missing]
  | remove mac =>
    have missing : vif.vmAclpriv = none := by simpa [Served] using unserved
    simp [AclVif.call, aclRemove, missing]
  | setpolicy policy =>
    obtain ⟨known, missing⟩ : (policy = 0 ∨ policy = 1 ∨ policy = 2) ∧ vif.vmAclpriv = none := by
      simpa only [Served, Classical.not_imp, Bool.not_eq_true, Option.isSome_eq_false_iff,
        Option.isNone_iff_eq_none] using unserved
    rcases known with rfl | rfl | rfl <;> simp [AclVif.call, aclSetpolicy, missing]
  | freeAll =>
    have missing : vif.vmAclpriv = none := by simpa [Served] using unserved
    simp [AclVif.call, aclFreeAll, missing]
  | detach => exact detach_stuck vif

private theorem callRight_iff {call : AclCall} (valid : vif.Inv) :
    vif.CallRight call ↔ vif.Served call := by
  constructor
  · rintro ⟨later, returned, _⟩
    by_contra unserved
    rw [call_unserved unserved] at returned
    cases returned
  · intro served
    obtain ⟨later, returned, kept⟩ := call_served valid served
    refine ⟨later, returned, kept.right, ?_⟩
    rintro rfl
    exact served.elim

end AclVif

def RunRight (calls : List AclCall) : Prop :=
  Machine.Along (Machine.attempt AclVif.call)
    (fun state call => ∃ vif, state = some vif ∧ vif.CallRight call) (some aclInit) calls

/-- No call has got stuck, and the invariant holds. -/
def Returned (state : Option AclVif) : Prop := ∃ vif, state = some vif ∧ vif.Inv

private theorem aclInit_returned : Returned (some aclInit) :=
  ⟨aclInit, rfl, ⟨List.nodup_nil, nofun⟩, nofun⟩

theorem acl_right_iff (calls : List AclCall) :
    RunRight calls ↔
      Machine.Along (Machine.attempt AclVif.call) (Machine.AttemptOk AclVif.Served)
        (some aclInit) calls := by
  have agree : ∀ state call, Returned state →
      ((∃ vif, state = some vif ∧ vif.CallRight call) ↔
        Machine.AttemptOk AclVif.Served state call) := by
    rintro _ call ⟨vif, rfl, valid⟩
    constructor
    · rintro ⟨_, ⟨⟩, right⟩ _ ⟨⟩
      exact (AclVif.callRight_iff valid).mp right
    · intro served
      exact ⟨vif, rfl, (AclVif.callRight_iff valid).mpr (served vif rfl)⟩
  have preserved : ∀ state call, Returned state →
      (∃ vif, state = some vif ∧ vif.CallRight call) →
        Returned (Machine.attempt AclVif.call state call) := by
    rintro _ call ⟨vif, rfl, valid⟩ ⟨_, ⟨⟩, right⟩
    exact AclVif.call_served valid ((AclVif.callRight_iff valid).mp right)
  exact Machine.along_congr agree preserved aclInit_returned

/-- A list is attached and detached. -/
theorem attached_detached : ¬ RunRight [.attach true, .detach] := by
  rintro ⟨_, ⟨vif, _, later, returned, _⟩, _⟩
  rw [show vif.call .detach = none from AclVif.detach_stuck vif] at returned
  cases returned

end W522a.Acl
