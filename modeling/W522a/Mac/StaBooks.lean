import W522a.Mac.StaTable

/-!
Every record is in one place at a time: linked in the table, held by a path or by queued work on its
way out, queued for freeing, or freed. Nothing points to a record that is on its way to be freed.
-/

namespace W522a.Lifetime

/-- The stations whose disassociation is queued. -/
def StaTable.pending (table : StaTable) : List Nat :=
  table.work.filterMap fun
    | .startBss _ _ => none
    | .disassoc sta => some sta

/-- A record is linked, on its way out by queued work, queued, or freed. -/
def StaTable.Keeps (table : StaTable) (sta : Nat) : Prop :=
  sta ∈ table.ntNsta ∨ sta ∈ table.pending ∨ sta ∈ table.queued ∨ sta ∈ table.freed

/-- What is promised of the records of an interface. No record is lost, and the timer runs for those
that are queued. -/
structure Law (table : StaTable) : Prop where
  unlinked : table.early = []
  queuedOnce : table.queued.Nodup
  freedOnce : table.freed.Nodup ∧ ∀ sta ∈ table.freed, sta ∉ table.queued
  kept : ∀ sta, sta < table.allocated → table.Keeps sta
  timer : table.queued ≠ [] → table.wmFreeTimer = true
  alive : ∀ sta ∈ table.freed, sta ∉ table.ntNsta ∧
    (∀ wds ∈ table.ntWdsHash, wds.wdsNi ≠ sta) ∧ table.vmMainsta ≠ some sta

/-- The books of a table while a path holds some records in its hand. -/
structure Held (hand : List Nat) (table : StaTable) : Prop where
  placed : ∀ sta, table.ntNsta.count sta + hand.count sta + table.pending.count sta +
    table.queued.count sta + table.freed.count sta = if sta < table.allocated then 1 else 0
  targets : ∀ wds ∈ table.ntWdsHash,
    wds.wdsNi ∈ table.ntNsta ∨ wds.wdsNi ∈ hand ∨ wds.wdsNi ∈ table.pending
  main : ∀ sta, table.vmMainsta = some sta →
    sta ∈ table.ntNsta ∨ sta ∈ hand ∨ sta ∈ table.pending
  single : Keyed.Distinct WifiMacWdsAddr.wdsMacaddr table.ntWdsHash
  flagged : table.ntWdsHash ≠ [] → table.wds = true
  timer : table.wmMacExit = false → table.queued ≠ [] → table.wmFreeTimer = true
  unlinked : table.early = []

/-- The books of an interface that is in use. -/
structure Live (table : StaTable) : Prop where
  held : Held [] table
  inited : table.ntInited = true
  running : table.wmMacExit = false

/-- The books of an interface that was detached for good: nothing is left. -/
structure Gone (table : StaTable) : Prop where
  held : Held [] table
  inited : table.ntInited = false
  exit : table.wmMacExit = true
  unqueued : table.queued = []
  unlinked : table.ntNsta = []
  unheld : table.pending = []

/-- The walk over its bucket sees an entry of the WDS table. -/
def StaTable.Seen (table : StaTable) (wds : WifiMacWdsAddr) : Prop :=
  wds ∈ table.bucket vlsiListMaxIters (wifinetNodeHash wds.wdsMacaddr)

/-- The entries that point to a station stand under an address, where a walk sees them. -/
def StaTable.OwnedBy (table : StaTable) (sta macaddr : Nat) : Prop :=
  ∀ wds ∈ table.ntWdsHash, wds.wdsNi = sta → wds.wdsMacaddr = macaddr ∧ table.Seen wds

/-- No entry under another address than its own points to a station. -/
def StaTable.Owned (table : StaTable) (sta : Nat) : Prop :=
  table.OwnedBy sta (table.station sta).staMacaddr

/-- A station can leave: there is memory for its entry, and its own address is the only one whose
entry points to it. -/
def StaTable.Leaves (table : StaTable) (memory : Nat → Bool) (sta : Nat) : Prop :=
  memory sta = true ∧ table.Owned sta

/-- The table is no longer than a walk. -/
def StaTable.Walkable (table : StaTable) : Prop := table.ntNsta.length ≤ vlsiListMaxIters

/-- The station has not been heard of for as long as it may. -/
def StaTable.Expires (table : StaTable) (sta : Nat) : Prop :=
  let station := table.station sta
  station.aref = true ∧ station.staRstamp + 5 * table.hz ≤ table.jiffies ∧
    table.vmMainsta ≠ some sta ∧ station.staInact - 1 ≤ 0

namespace Held

variable {hand : List Nat} {table : StaTable} {sta : Nat}

private theorem linked_only (held : Held hand table) (linked : sta ∈ table.ntNsta) :
    table.ntNsta.count sta = 1 ∧ sta ∉ hand ∧ sta ∉ table.pending ∧ sta ∉ table.queued ∧
      sta ∉ table.freed ∧ sta < table.allocated := by
  have placed := held.placed sta
  have once := List.count_pos_iff.mpr linked
  split at placed
  next made =>
    refine ⟨by omega, ?_, ?_, ?_, ?_, made⟩
    all_goals
      apply List.count_eq_zero.mp
      omega
  next unmade => omega

theorem nodup_ntNsta (held : Held hand table) : table.ntNsta.Nodup := by
  apply List.nodup_iff_count_le_one.mpr
  intro sta
  have placed := held.placed sta
  split at placed
  all_goals omega

private theorem hand_only (held : Held (sta :: hand) table) :
    sta ∉ table.ntNsta ∧ sta ∉ hand ∧ sta ∉ table.pending ∧ sta ∉ table.queued ∧
      sta ∉ table.freed := by
  have placed := held.placed sta
  rw [List.count_cons_self] at placed
  split at placed
  next =>
    refine ⟨?_, ?_, ?_, ?_, ?_⟩
    all_goals
      apply List.count_eq_zero.mp
      omega
  next => omega

theorem listDelInit (held : Held hand table) (linked : sta ∈ table.ntNsta) :
    Held (sta :: hand) (listDelInit sta table) where
  placed other := by
    have placed := held.placed other
    show (table.ntNsta.erase sta).count other + (sta :: hand).count other +
      table.pending.count other + table.queued.count other + table.freed.count other =
        if other < table.allocated then 1 else 0
    rw [List.count_erase]
    by_cases same : sta = other
    · subst same
      rw [List.count_cons_self]
      have once := (held.linked_only linked).1
      simp only [beq_self_eq_true, ↓reduceIte]
      omega
    · rw [List.count_cons_of_ne same]
      simp only [beq_iff_eq, same, ↓reduceIte, Nat.sub_zero]
      exact placed
  targets wds listed := by
    rcases held.targets wds listed with target | target
    · by_cases same : wds.wdsNi = sta
      · exact .inr (.inl (same ▸ List.mem_cons_self))
      · exact .inl ((List.mem_erase_of_ne same).mpr target)
    · exact .inr (target.imp_left (List.mem_cons_of_mem _))
  main other main := by
    rcases held.main other main with place | place
    · by_cases same : other = sta
      · exact .inr (.inl (same ▸ List.mem_cons_self))
      · exact .inl ((List.mem_erase_of_ne same).mpr place)
    · exact .inr (place.imp_left (List.mem_cons_of_mem _))
  single := held.single
  flagged := held.flagged
  timer := held.timer
  unlinked := held.unlinked

theorem sublist (held : Held hand table) {rest : List WifiMacWdsAddr}
    (fewer : rest.Sublist table.ntWdsHash) : Held hand { table with ntWdsHash := rest } where
  placed := held.placed
  targets wds listed := held.targets wds (fewer.subset listed)
  main := held.main
  single := held.single.sublist fewer
  flagged listed := held.flagged fun none => listed (by
    rw [none] at fewer
    exact List.sublist_nil.mp fewer)
  timer := held.timer
  unlinked := held.unlinked

theorem rmByAddr (held : Held hand table) (macaddr : Nat) :
    Held hand (wifiMacRmStaFromWdsByAddr macaddr table) := by
  unfold wifiMacRmStaFromWdsByAddr
  split
  next => exact held
  next =>
    split
    next => exact held.sublist List.erase_sublist
    next => exact held

theorem rmBySta (held : Held hand table) (target : Nat) :
    Held hand (wifiMacRmStaFromWdsBySta target table) := by
  unfold wifiMacRmStaFromWdsBySta
  split
  next => exact held
  next => exact held.sublist (List.diff_sublist _ _)

theorem setStation (held : Held hand table) (sta : Nat) (station : WifiStation) :
    Held hand (table.setStation sta station) :=
  ⟨held.placed, held.targets, held.main, held.single, held.flagged, held.timer, held.unlinked⟩

theorem freeSta {memory : Nat → Bool} (held : Held (sta :: hand) table)
    (room : memory sta = true) (loose : ∀ wds ∈ table.ntWdsHash, wds.wdsNi ≠ sta) :
    Held hand (wifiMacFreeSta memory sta table) := by
  obtain ⟨unlinked, -, unqueuedWork, unqueued, -⟩ := held.hand_only
  unfold wifiMacFreeSta
  rw [if_neg (by simp [room]), if_neg unqueued, if_neg unlinked]
  refine ⟨fun other => ?_, fun wds listed => ?_, fun other main => ?_, held.single, held.flagged,
    fun running _ => ?_, held.unlinked⟩
  · have placed := held.placed other
    rw [List.count_cons] at placed
    simp only [StaTable.queued, StaTable.pending, List.map_append, List.count_append,
      List.map_cons, List.map_nil, List.count_singleton] at placed ⊢
    omega
  · rcases held.targets wds listed with target | target | target
    · exact .inl target
    · rcases List.mem_cons.mp target with same | target
      · exact absurd same (loose wds listed)
      · exact .inr (.inl target)
    · exact .inr (.inr target)
  · dsimp only at main
    split at main
    next => cases main
    next other_main =>
      rcases held.main other main with place | place | place
      · exact .inl place
      · rcases List.mem_cons.mp place with rfl | place
        · exact absurd (beq_iff_eq.mpr main) other_main
        · exact .inr (.inl place)
      · exact .inr (.inr place)
  · dsimp only at running ⊢
    rw [running]
    simp

theorem made (held : Held hand table) :
    Held (table.allocated :: hand) { table with allocated := table.allocated + 1 } where
  placed other := by
    have placed := held.placed other
    show table.ntNsta.count other + (table.allocated :: hand).count other +
      table.pending.count other + table.queued.count other + table.freed.count other =
        if other < table.allocated + 1 then 1 else 0
    rw [List.count_cons]
    by_cases same : table.allocated = other
    · subst same
      simp only [Nat.lt_irrefl, ↓reduceIte, Nat.add_eq_zero_iff] at placed
      simp [placed]
    · rw [if_neg (by simpa using same), Nat.add_zero, placed]
      have bound : other < table.allocated + 1 ↔ other < table.allocated := by omega
      simp only [bound]
  targets wds listed := (held.targets wds listed).imp_right (Or.imp_left (List.mem_cons_of_mem _))
  main other main := (held.main other main).imp_right (Or.imp_left (List.mem_cons_of_mem _))
  single := held.single
  flagged := held.flagged
  timer := held.timer
  unlinked := held.unlinked

theorem link (held : Held (sta :: hand) table) :
    Held hand { table with ntNsta := table.ntNsta ++ [sta] } where
  placed other := by
    have placed := held.placed other
    rw [List.count_cons] at placed
    show (table.ntNsta ++ [sta]).count other + hand.count other +
      table.pending.count other + table.queued.count other + table.freed.count other =
        if other < table.allocated then 1 else 0
    rw [List.count_append, List.count_singleton]
    omega
  targets wds listed := by
    rcases held.targets wds listed with target | target | target
    · exact .inl (List.mem_append_left _ target)
    · rcases List.mem_cons.mp target with same | target
      · exact .inl (List.mem_append_right _ (List.mem_singleton.mpr same))
      · exact .inr (.inl target)
    · exact .inr (.inr target)
  main other main := by
    rcases held.main other main with place | place | place
    · exact .inl (List.mem_append_left _ place)
    · rcases List.mem_cons.mp place with same | place
      · exact .inl (List.mem_append_right _ (List.mem_singleton.mpr same))
      · exact .inr (.inl place)
    · exact .inr (.inr place)
  single := held.single
  flagged := held.flagged
  timer := held.timer
  unlinked := held.unlinked

/-- `nsta_free` frees the record in the hand. -/
theorem free {vif : Bool} (held : Held (sta :: hand) table)
    (loose : ∀ wds ∈ table.ntWdsHash, wds.wdsNi ≠ sta)
    (apart : vif = true ∨ table.vmMainsta ≠ some sta) : Held hand (nstaFree vif sta table) where
  placed other := by
    have placed := held.placed other
    rw [List.count_cons] at placed
    show table.ntNsta.count other + hand.count other + table.pending.count other +
      table.queued.count other + (sta :: table.freed).count other =
        if other < table.allocated then 1 else 0
    rw [List.count_cons]
    omega
  targets wds listed := by
    rcases held.targets wds listed with target | target | target
    · exact .inl target
    · rcases List.mem_cons.mp target with same | target
      · exact absurd same (loose wds listed)
      · exact .inr (.inl target)
    · exact .inr (.inr target)
  main other main := by
    unfold nstaFree at main
    dsimp only at main
    have still : table.vmMainsta = some other ∧ other ≠ sta := by
      split at main
      next => cases main
      next kept =>
        refine ⟨main, fun same => ?_⟩
        rw [same] at main
        rcases apart with known | apart
        · exact kept (by simp [known, main])
        · exact apart main
    rcases held.main other still.1 with place | place | place
    · exact .inl place
    · exact .inr (.inl ((List.mem_cons.mp place).resolve_left still.2))
    · exact .inr (.inr place)
  single := held.single
  flagged := held.flagged
  timer := held.timer
  unlinked := held.unlinked

theorem pend (held : Held (sta :: hand) table) :
    Held hand { table with work := table.work ++ [.disassoc sta] } := by
  have later : StaTable.pending { table with work := table.work ++ [.disassoc sta] } =
      table.pending ++ [sta] := List.filterMap_append
  refine ⟨fun other => ?_, fun wds listed => ?_, fun other main => ?_, held.single, held.flagged,
    held.timer, held.unlinked⟩
  · have placed := held.placed other
    rw [List.count_cons] at placed
    rw [later, List.count_append, List.count_singleton]
    show table.ntNsta.count other + hand.count other + (table.pending.count other + _) +
      table.queued.count other + table.freed.count other =
        if other < table.allocated then 1 else 0
    omega
  · rw [later, List.mem_append, List.mem_singleton]
    rcases held.targets wds listed with target | target | target
    · exact .inl target
    · rcases List.mem_cons.mp target with same | target
      · exact .inr (.inr (.inr same))
      · exact .inr (.inl target)
    · exact .inr (.inr (.inl target))
  · rw [later, List.mem_append, List.mem_singleton]
    rcases held.main other main with place | place | place
    · exact .inl place
    · rcases List.mem_cons.mp place with same | place
      · exact .inr (.inr (.inr same))
      · exact .inr (.inl place)
    · exact .inr (.inr (.inl place))

theorem unpend {rest : List WorkTask} (held : Held hand table)
    (work : table.work = .disassoc sta :: rest) :
    Held (sta :: hand) { table with work := rest } := by
  have before : table.pending = sta :: { table with work := rest }.pending := by
    rw [StaTable.pending, work]
    rfl
  refine ⟨fun other => ?_, fun wds listed => ?_, fun other main => ?_, held.single, held.flagged,
    held.timer, held.unlinked⟩
  · have placed := held.placed other
    rw [before, List.count_cons] at placed
    rw [List.count_cons]
    show table.ntNsta.count other + (hand.count other + _) + _ +
      table.queued.count other + table.freed.count other =
        if other < table.allocated then 1 else 0
    omega
  · rcases held.targets wds listed with target | target | target
    · exact .inl target
    · exact .inr (.inl (List.mem_cons_of_mem _ target))
    · rw [before] at target
      rcases List.mem_cons.mp target with same | target
      · exact .inr (.inl (same ▸ List.mem_cons_self))
      · exact .inr (.inr target)
  · rcases held.main other main with place | place | place
    · exact .inl place
    · exact .inr (.inl (List.mem_cons_of_mem _ place))
    · rw [before] at place
      rcases List.mem_cons.mp place with same | place
      · exact .inr (.inl (same ▸ List.mem_cons_self))
      · exact .inr (.inr place)

theorem setWork (held : Held hand table) {work : List WorkTask}
    (same : { table with work := work }.pending = table.pending) :
    Held hand { table with work := work } where
  placed other := by
    rw [same]
    exact held.placed other
  targets wds listed := by
    rw [same]
    exact held.targets wds listed
  main other main := by
    rw [same]
    exact held.main other main
  single := held.single
  flagged := held.flagged
  timer := held.timer
  unlinked := held.unlinked

theorem below (held : Held [] table)
    (place : sta ∈ table.ntNsta ∨ sta ∈ [] ∨ sta ∈ table.pending) : sta < table.allocated := by
  have placed := held.placed sta
  split at placed
  next made => exact made
  next =>
    rcases place with linked | none | pending
    · have once := List.count_pos_iff.mpr linked
      omega
    · cases none
    · have once := List.count_pos_iff.mpr pending
      omega

theorem setMain (held : Held hand table) {main : Option Nat}
    (placed : ∀ sta, main = some sta →
      sta ∈ table.ntNsta ∨ sta ∈ hand ∨ sta ∈ table.pending) :
    Held hand { table with vmMainsta := main } :=
  ⟨held.placed, held.targets, placed, held.single, held.flagged, held.timer, held.unlinked⟩

end Held

section Buckets

variable {table later : StaTable} {wds : WifiMacWdsAddr} {sta macaddr : Nat}

theorem bucket_sublist (table : StaTable) (most hash : Nat) :
    (table.bucket most hash).Sublist table.ntWdsHash :=
  (List.take_sublist _ _).trans List.filter_sublist

theorem wdsFor_some (found : table.wdsFor macaddr = some wds) :
    wds ∈ table.ntWdsHash ∧ wds.wdsMacaddr = macaddr :=
  ⟨(bucket_sublist ..).subset (List.mem_of_find?_eq_some found),
    by simpa using List.find?_some found⟩

/-- Of a WDS table without double addresses, the first entry for an address is the only one. -/
theorem StaTable.Seen.wdsFor (seen : table.Seen wds)
    (single : Keyed.Distinct WifiMacWdsAddr.wdsMacaddr table.ntWdsHash) :
    table.wdsFor wds.wdsMacaddr = some wds :=
  Keyed.find_of_mem (single.sublist (bucket_sublist ..)) seen

/-- An entry that a walk sees is seen when others are gone. -/
theorem StaTable.Seen.fewer (seen : table.Seen wds)
    (single : Keyed.Distinct WifiMacWdsAddr.wdsMacaddr table.ntWdsHash)
    (fewer : later.ntWdsHash.Sublist table.ntWdsHash) (listed : wds ∈ later.ntWdsHash) :
    later.Seen wds :=
  (single.sublist List.filter_sublist).mem_take (fewer.filter _)
    (List.mem_filter.mpr ⟨listed, beq_self_eq_true _⟩) seen

theorem StaTable.OwnedBy.fewer (owned : table.OwnedBy sta macaddr)
    (single : Keyed.Distinct WifiMacWdsAddr.wdsMacaddr table.ntWdsHash)
    (fewer : later.ntWdsHash.Sublist table.ntWdsHash) : later.OwnedBy sta macaddr := by
  intro wds listed same
  obtain ⟨own, seen⟩ := owned wds (fewer.subset listed) same
  exact ⟨own, seen.fewer single fewer listed⟩

end Buckets

section Remove

variable {memory : Nat → Bool} {table : StaTable} {sta other : Nat}

/-- What `wifi_mac_free_sta` leaves as it is. -/
theorem freeSta_frame (memory : Nat → Bool) (sta : Nat) (table : StaTable) :
    (wifiMacFreeSta memory sta table).ntNsta = table.ntNsta ∧
      (wifiMacFreeSta memory sta table).ntWdsHash = table.ntWdsHash ∧
      (wifiMacFreeSta memory sta table).station = table.station ∧
      (wifiMacFreeSta memory sta table).work = table.work ∧
      (wifiMacFreeSta memory sta table).allocated = table.allocated ∧
      (wifiMacFreeSta memory sta table).ntInited = table.ntInited ∧
      (wifiMacFreeSta memory sta table).wmMacExit = table.wmMacExit := by
  unfold wifiMacFreeSta
  split
  next => exact ⟨rfl, rfl, rfl, rfl, rfl, rfl, rfl⟩
  next =>
    split
    next => exact ⟨rfl, rfl, rfl, rfl, rfl, rfl, rfl⟩
    next => exact ⟨rfl, rfl, rfl, rfl, rfl, rfl, rfl⟩

private theorem freeSta_main (main : table.vmMainsta = some other) (apart : other ≠ sta) :
    (wifiMacFreeSta memory sta table).vmMainsta = some other := by
  unfold wifiMacFreeSta
  split
  next => exact main
  next =>
    split
    next => exact main
    next =>
      dsimp only
      rw [main, if_neg]
      simpa using apart

theorem freeSta_main_of (main : (wifiMacFreeSta memory sta table).vmMainsta = some other) :
    table.vmMainsta = some other := by
  unfold wifiMacFreeSta at main
  split at main
  next => exact main
  next =>
    split at main
    next => exact main
    next =>
      dsimp only at main
      split at main
      next => cases main
      next => exact main

theorem rmByAddr_frame (table : StaTable) (macaddr : Nat) :
    (wifiMacRmStaFromWdsByAddr macaddr table).ntNsta = table.ntNsta ∧
      (wifiMacRmStaFromWdsByAddr macaddr table).ntWdsHash.Sublist table.ntWdsHash ∧
      (wifiMacRmStaFromWdsByAddr macaddr table).station = table.station ∧
      (wifiMacRmStaFromWdsByAddr macaddr table).work = table.work ∧
      (wifiMacRmStaFromWdsByAddr macaddr table).allocated = table.allocated ∧
      (wifiMacRmStaFromWdsByAddr macaddr table).vmMainsta = table.vmMainsta ∧
      (wifiMacRmStaFromWdsByAddr macaddr table).ntInited = table.ntInited ∧
      (wifiMacRmStaFromWdsByAddr macaddr table).wmMacExit = table.wmMacExit := by
  unfold wifiMacRmStaFromWdsByAddr
  split
  next => exact ⟨rfl, List.Sublist.refl _, rfl, rfl, rfl, rfl, rfl, rfl⟩
  next =>
    split
    next => exact ⟨rfl, List.erase_sublist, rfl, rfl, rfl, rfl, rfl, rfl⟩
    next => exact ⟨rfl, List.Sublist.refl _, rfl, rfl, rfl, rfl, rfl, rfl⟩

/-- Once the entry under its address is gone, none points to a station. -/
theorem rmByAddr_loose {hand : List Nat} {macaddr : Nat} (held : Held hand table)
    (inited : table.ntInited = true) (owned : table.OwnedBy sta macaddr) :
    ∀ wds ∈ (wifiMacRmStaFromWdsByAddr macaddr table).ntWdsHash, wds.wdsNi ≠ sta := by
  intro wds listed same
  obtain ⟨own, seen⟩ := owned wds ((rmByAddr_frame table macaddr).2.1.subset listed) same
  unfold wifiMacRmStaFromWdsByAddr at listed
  rw [if_neg (by simp [inited]), ← own, seen.wdsFor held.single] at listed
  exact held.single.nodup.not_mem_erase listed

/-- A record that can leave goes from the table to the queue. -/
theorem Held.remove {hand : List Nat} (held : Held hand table) (inited : table.ntInited = true)
    (linked : sta ∈ table.ntNsta) (leaves : table.Leaves memory sta) :
    Held hand (removeSta memory sta table) := by
  have taken := held.listDelInit linked
  have cleared := taken.rmByAddr (table.station sta).staMacaddr
  exact cleared.freeSta leaves.1 (rmByAddr_loose taken inited leaves.2)

theorem removeSta_frame (memory : Nat → Bool) (sta : Nat) (table : StaTable) :
    (removeSta memory sta table).ntNsta = table.ntNsta.erase sta ∧
      (removeSta memory sta table).ntWdsHash.Sublist table.ntWdsHash ∧
      (removeSta memory sta table).station = table.station ∧
      (removeSta memory sta table).ntInited = table.ntInited ∧
      (removeSta memory sta table).wmMacExit = table.wmMacExit := by
  obtain ⟨linked, wds, station, -, -, inited, exit⟩ :=
    freeSta_frame memory sta
      (wifiMacRmStaFromWdsByAddr (table.station sta).staMacaddr (listDelInit sta table))
  obtain ⟨linked', wds', station', -, -, -, inited', exit'⟩ :=
    rmByAddr_frame (listDelInit sta table) (table.station sta).staMacaddr
  unfold removeSta
  rw [linked, wds, station, inited, exit, linked', station', inited', exit']
  exact ⟨rfl, wds', rfl, rfl, rfl⟩

theorem removeSta_main (main : table.vmMainsta = some other) (apart : other ≠ sta) :
    (removeSta memory sta table).vmMainsta = some other := by
  apply freeSta_main _ apart
  rw [(rmByAddr_frame (listDelInit sta table) _).2.2.2.2.2.1]
  exact main

theorem Live.remove (live : Live table) (linked : sta ∈ table.ntNsta)
    (leaves : table.Leaves memory sta) : Live (removeSta memory sta table) := by
  obtain ⟨-, -, -, inited, exit⟩ := removeSta_frame memory sta table
  exact ⟨live.held.remove live.inited linked leaves, inited.trans live.inited,
    exit.trans live.running⟩

theorem removeSta_linked (apart : other ≠ sta) (linked : other ∈ table.ntNsta) :
    other ∈ (removeSta memory sta table).ntNsta := by
  rw [(removeSta_frame memory sta table).1]
  exact (List.mem_erase_of_ne apart).mpr linked

theorem removeSta_leaves {others : Nat → Bool}
    (single : Keyed.Distinct WifiMacWdsAddr.wdsMacaddr table.ntWdsHash)
    (leaves : table.Leaves others other) : (removeSta memory sta table).Leaves others other := by
  obtain ⟨-, fewer, station, -⟩ := removeSta_frame memory sta table
  refine ⟨leaves.1, ?_⟩
  unfold StaTable.Owned
  rw [station]
  exact leaves.2.fewer single fewer

/-- A record with the same address leaves as before. -/
theorem setStation_leaves {others : Nat → Bool} {station : WifiStation}
    (same : station.staMacaddr = (table.station sta).staMacaddr)
    (leaves : table.Leaves others other) : (table.setStation sta station).Leaves others other := by
  refine ⟨leaves.1, fun wds listed target => ?_⟩
  obtain ⟨own, seen⟩ := leaves.2 wds listed target
  refine ⟨?_, seen⟩
  unfold StaTable.setStation
  dsimp only
  split
  next here =>
    subst here
    exact own.trans same.symm
  next => exact own

theorem setStation_other {station : WifiStation} (apart : other ≠ sta) :
    (table.setStation sta station).station other = table.station other := if_neg apart

theorem Live.setStation (live : Live table) (sta : Nat) (station : WifiStation) :
    Live (table.setStation sta station) :=
  ⟨live.held.setStation sta station, live.inited, live.running⟩

theorem Live.disconnectFromAp (live : Live table) (linked : sta ∈ table.ntNsta)
    (leaves : table.Leaves memory sta) : Live (wifiMacStaDisconnectFromAp memory sta table) :=
  (live.setStation sta _).remove linked (setStation_leaves rfl leaves)

/-- What a path does to one record leaves the others as they are. -/
theorem disconnectFromAp_other (memory : Nat → Bool) (apart : other ≠ sta)
    (single : Keyed.Distinct WifiMacWdsAddr.wdsMacaddr table.ntWdsHash) :
    (other ∈ table.ntNsta → other ∈ (wifiMacStaDisconnectFromAp memory sta table).ntNsta) ∧
      (wifiMacStaDisconnectFromAp memory sta table).station other = table.station other ∧
      ∀ others, table.Leaves others other →
        (wifiMacStaDisconnectFromAp memory sta table).Leaves others other := by
  refine ⟨fun linked => ?_, ?_, fun others leaves => ?_⟩
  · exact removeSta_linked apart linked
  · unfold wifiMacStaDisconnectFromAp
    rw [(removeSta_frame memory sta _).2.2.1]
    exact if_neg apart
  · exact removeSta_leaves single (setStation_leaves rfl leaves)

end Remove

end W522a.Lifetime
