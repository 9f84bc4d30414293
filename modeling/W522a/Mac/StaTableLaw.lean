import W522a.Mac.StaPaths

/-!
What holds of the records of an interface along its runs.
-/

namespace W522a.Lifetime

open Machine (Along run)

/-- What the first piece of queued work needs. -/
def StaTable.WorkSound (table : StaTable) (memory : Nat → Bool) (running : Bool) :
    List WorkTask → Prop
  | [] => True
  | .startBss selbs replaycounter :: _ =>
    table.replaycounter = replaycounter → running = true → selbs ∈ table.ntNsta ∧
      ∀ obss, table.vmMainsta = some obss → obss ≠ selbs → obss ∈ table.walk →
        memory obss = true ∧ ∀ wds ∈ table.ntWdsHash, wds.wdsNi = obss → table.Seen wds
  | .disassoc sta :: _ => table.Leaves memory sta

/-- What an event needs for the records that it takes out of the table: no station expires, each
record that leaves gets its entry in the queue or its place in the work queue and is not the target
of an entry under another address, none that queued work still holds is taken or made the main
station, no lookup meets a table that is longer than a walk, and a walk sees the entry of the WDS
table that it is for. -/
def StaTable.Sound (table : StaTable) : StaEvent → Prop
  | .bupBss _ _ => table.vmMainsta ≠ none → table.Walkable
  | .checkMainSta _ => table.vmMainsta = none → table.Walkable
  | .connect _ _ _ _ => True
  | .work memory running => table.WorkSound memory running table.work
  | .sendError memory node _ =>
    table.wmMacExit = false → node = .made → memory table.allocated = true
  | .delStation memory macaddr =>
    table.Walkable ∧
      ∀ sta, (wifiMacFindSta macaddr table).1 = some sta → table.Leaves memory sta
  | .disassocAll memory =>
    ∀ sta ∈ table.walk, (table.station sta).associated = true → table.Leaves memory sta
  | .disassocInTask room =>
    ∀ sta ∈ table.walk, (table.station sta).associated = true → room sta = true
  | .timeoutStations connected =>
    connected = true → table.vmMainsta ≠ none → ∀ sta ∈ table.walk, ¬ table.Expires sta
  | .actTxTimeout memory =>
    table.hostap = true → ∀ sta ∈ table.walk, (table.station sta).confirmDeauth = true →
      10 ≤ (table.station sta).saQueryTryCount → table.Leaves memory sta
  | .rstBss memory _ | .leave memory _ | .vattach memory _ _ =>
    table.Walkable ∧
      ∀ sta ∈ table.walk, table.vmMainsta ≠ some sta → table.Leaves memory sta
  | .vdetach memory => ∀ sta ∈ table.walk, table.Leaves memory sta
  | .stationDetach memory =>
    table.Walkable ∧ (∀ sta ∈ table.ntNsta, memory sta = true) ∧ table.pending = [] ∧
      ∀ wds ∈ table.ntWdsHash, table.Seen wds
  | .freeTimer => True
  | .staInput memory room frame =>
    ∀ main, table.vmMainsta = some main → table.Strange frame → table.Walkable ∧
      (room = true → table.Reached frame.addr4) ∧
        ∀ temp, (wifiMacFindSta frame.addr4 table).1 = some temp →
          (table.station temp).staMacaddr ≠ table.vmMyaddr →
          table.Leaves memory temp ∧ main ≠ temp
  | .staEncap room shost =>
    table.vmMainsta ≠ none → table.wds = true → room = true → table.Reached shost
  | .apInput memory _ toBss addr2 addr4 =>
    table.Walkable ∧ ∀ sta, (wifiMacFindSta addr2 table).1 = some sta → toBss = true →
      table.vmMainsta ≠ some sta → (table.station sta).associated = true → table.wds = true →
      match (wifiMacFindWdsSta addr4 (wifiMacFindSta addr2 table).2).1 with
      | some target => target ≠ sta → table.Releases memory target addr4
      | none => ∀ temp, (wifiMacFindSta addr4 (wifiMacFindSta addr2 table).2).1 = some temp →
        table.Leaves memory temp
  | .apRecvMgmt memory _ addr2 =>
    ∀ target, (wifiMacFindWdsSta addr2 table).1 = some target →
      table.Releases memory target addr2 ∧ (table.vmMainsta ≠ none → table.Walkable)
  | .update _ _ => True
  | .tick => True

section Steps

variable {table : StaTable} {event : StaEvent}

private theorem Live.runWork {memory : Nat → Bool} {running : Bool} (live : Live table)
    (sound : table.Sound (.work memory running)) : Live (runWork memory running table) := by
  unfold StaTable.Sound at sound
  unfold Lifetime.runWork
  cases work : table.work with
  | nil => exact live
  | cons task rest =>
    rw [work] at sound
    cases task with
    | startBss selbs replaycounter =>
      have same : StaTable.pending { table with work := rest } = table.pending := by
        unfold StaTable.pending
        rw [work]
        rfl
      have next : Live { table with work := rest } :=
        ⟨live.held.setWork same, live.inited, live.running⟩
      dsimp only
      unfold wifiMacStartBssExTask
      split
      next => exact next
      next current =>
        have sound := sound (not_not.mp current)
        exact next.startBss (fun runs => (sound runs).1) fun runs => (sound runs).2
    | disassoc sta => exact live.disassocCb work sound

theorem Live.step (live : Live table) (sound : table.Sound event) :
    Live (table.step event) ∨ Gone (table.step event) := by
  cases event with
  | bupBss node macaddr => exact .inl (live.bupBss sound)
  | checkMainSta node => exact .inl (live.checkMainSta sound)
  | connect node macaddr channel room => exact .inl live.connect
  | work memory running => exact .inl (live.runWork sound)
  | sendError memory node macaddr => exact .inl (live.sendError (sound live.running))
  | delStation memory macaddr => exact .inl (live.delStation sound.1 sound.2)
  | disassocAll memory => exact .inl (live.disassocAll sound)
  | disassocInTask room => exact .inl (live.disassocInTask sound)
  | timeoutStations connected => exact .inl (live.timeoutStations sound)
  | actTxTimeout memory => exact .inl (live.actTxTimeout sound)
  | rstBss memory node => exact .inl (live.rstBss sound.1 sound.2)
  | leave memory node => exact .inl (live.rstBss sound.1 sound.2).rstMainSta
  | vdetach memory =>
    have counted : Live { table with replaycounter := table.replaycounter + 1 } :=
      ⟨⟨live.held.placed, live.held.targets, live.held.main, live.held.single, live.held.flagged,
        live.held.timer, live.held.unlinked⟩, live.inited, live.running⟩
    exact .inl (counted.tableRst fun sta seen _ => sound sta seen)
  | vattach memory node hostap =>
    have changed : Live { table with hostap := hostap } :=
      ⟨⟨live.held.placed, live.held.targets, live.held.main, live.held.single, live.held.flagged,
        live.held.timer, live.held.unlinked⟩, live.inited, live.running⟩
    exact .inl (changed.rstBss sound.1 sound.2)
  | stationDetach memory =>
    exact .inr (live.stationDetach sound.1 sound.2.1 sound.2.2.1 sound.2.2.2)
  | freeTimer =>
    refine .inl ?_
    unfold StaTable.step
    dsimp only
    split
    next => exact live.freeTimer
    next => exact live
  | staInput memory room frame => exact .inl (live.staInput sound)
  | staEncap room shost => exact .inl (live.staEncap sound)
  | apInput memory room toBss addr2 addr4 => exact .inl (live.apInput sound.1 sound.2)
  | apRecvMgmt memory node addr2 => exact .inl (live.apRecvMgmt sound)
  | update sta station => exact .inl (live.setStation sta _)
  | tick =>
    exact .inl ⟨⟨live.held.placed, live.held.targets, live.held.main, live.held.single,
      live.held.flagged, live.held.timer, live.held.unlinked⟩, live.inited, live.running⟩

/-- The same interface with another main station or other values in its records. -/
theorem Gone.same {other : StaTable} (gone : Gone table) (held : Held [] other)
    (inited : other.ntInited = table.ntInited) (exit : other.wmMacExit = table.wmMacExit)
    (queued : other.queued = table.queued) (linked : other.ntNsta = table.ntNsta)
    (pending : other.pending = table.pending) : Gone other :=
  ⟨held, inited.trans gone.inited, exit.trans gone.exit, queued.trans gone.unqueued,
    linked.trans gone.unlinked, pending.trans gone.unheld⟩

private theorem Gone.unfound (gone : Gone table) (macaddr : Nat) :
    wifiMacFindSta macaddr table = (none, table) := by
  unfold wifiMacFindSta
  rw [if_pos (by simp [gone.inited])]

private theorem Gone.unfoundWds (gone : Gone table) (macaddr : Nat) :
    wifiMacFindWdsSta macaddr table = (none, table) := by
  unfold wifiMacFindWdsSta
  rw [if_pos (by simp [gone.inited])]

private theorem Gone.unmade (gone : Gone table) (node : NodeAlloc) (macaddr : Nat) :
    wifiMacGetStaNode node macaddr table = (none, table) := by
  unfold wifiMacGetStaNode
  rw [if_pos (by simp [gone.inited])]

theorem Gone.main (gone : Gone table) : table.vmMainsta = none := by
  cases main : table.vmMainsta with
  | none => rfl
  | some sta =>
    rcases gone.held.main sta main with linked | none | pending
    · rw [gone.unlinked] at linked
      cases linked
    · cases none
    · rw [gone.unheld] at pending
      cases pending

theorem Gone.checkMainSta (gone : Gone table) (node : NodeAlloc) :
    wifiMacCheckMainSta node table = table := by
  unfold wifiMacCheckMainSta
  rw [gone.main, gone.unmade]
  dsimp only
  rw [← gone.main]

private theorem Gone.rstBss (gone : Gone table) (memory : Nat → Bool) (node : NodeAlloc) :
    wifiMacRstBss memory node table = table := by
  unfold wifiMacRstBss wifiMacStaTableRst
  rw [gone.walk, List.foldl_nil, gone.checkMainSta]

private theorem Gone.runWork {memory : Nat → Bool} {running : Bool} (gone : Gone table)
    (sound : table.Sound (.work memory running)) : Gone (runWork memory running table) := by
  unfold StaTable.Sound at sound
  unfold Lifetime.runWork
  have pending := gone.unheld
  cases work : table.work with
  | nil => exact gone
  | cons task rest =>
    unfold StaTable.pending at pending
    rw [work] at sound pending
    cases task with
    | startBss selbs replaycounter =>
      have same : StaTable.pending { table with work := rest } = table.pending := by
        unfold StaTable.pending
        rw [work]
        rfl
      have next : Gone { table with work := rest } :=
        gone.same (gone.held.setWork same) rfl rfl rfl rfl same
      dsimp only
      unfold wifiMacStartBssExTask wifiMacStartBssEx
      split
      next => exact next
      next current =>
        split
        next => exact next
        next runs =>
          have linked := (sound (not_not.mp current) (by simpa using runs)).1
          rw [gone.unlinked] at linked
          cases linked
    | disassoc sta => cases pending

private theorem Gone.step (gone : Gone table) (sound : table.Sound event) :
    Gone (table.step event) := by
  cases event with
  | bupBss node macaddr =>
    unfold StaTable.step wifiMacBupBss
    dsimp only
    rw [gone.main]
    exact gone
  | checkMainSta node =>
    unfold StaTable.step
    dsimp only
    rw [gone.checkMainSta]
    exact gone
  | connect node macaddr channel room =>
    unfold StaTable.step wifiMacConnect wifiMacGetNewStaNode
    dsimp only
    rw [if_pos (by simp [gone.inited])]
    exact gone
  | work memory running => exact gone.runWork sound
  | sendError memory node macaddr =>
    unfold StaTable.step wifiMacSendError
    dsimp only
    rw [if_pos gone.exit]
    exact gone
  | delStation memory macaddr =>
    unfold StaTable.step Lifetime.delStation
    dsimp only
    rw [gone.unfound]
    exact gone
  | disassocAll memory =>
    unfold StaTable.step wifiMacDisassocAllSta
    dsimp only
    rw [gone.walk]
    exact gone
  | disassocInTask room =>
    unfold StaTable.step wifiMacStaDisassocInTask
    dsimp only
    rw [gone.walk]
    exact gone
  | timeoutStations connected =>
    unfold StaTable.step wifiMacTimeoutStations
    dsimp only
    rw [gone.walk, List.foldl_nil, ite_self]
    exact gone
  | actTxTimeout memory =>
    unfold StaTable.step wifiMacActTxTimeout
    dsimp only
    rw [gone.walk, List.foldl_nil, ite_self]
    exact gone
  | rstBss memory node =>
    unfold StaTable.step
    dsimp only
    rw [gone.rstBss]
    exact gone
  | leave memory node =>
    unfold StaTable.step wifiMacRstMainSta
    dsimp only
    rw [gone.rstBss, gone.main]
    exact gone
  | vdetach memory =>
    unfold StaTable.step wifiMacStaTableRst
    dsimp only
    have empty : StaTable.walk { table with replaycounter := table.replaycounter + 1 } = [] :=
      gone.walk
    rw [empty]
    exact gone.same ⟨gone.held.placed, gone.held.targets, gone.held.main, gone.held.single,
      gone.held.flagged, gone.held.timer, gone.held.unlinked⟩ rfl rfl rfl rfl rfl
  | vattach memory node hostap =>
    have changed : Gone { table with hostap := hostap } :=
      gone.same ⟨gone.held.placed, gone.held.targets, gone.held.main, gone.held.single,
        gone.held.flagged, gone.held.timer, gone.held.unlinked⟩ rfl rfl rfl rfl rfl
    unfold StaTable.step
    dsimp only
    rw [changed.rstBss]
    exact changed
  | stationDetach memory =>
    unfold StaTable.step wifiMacStationDetach wifiMacClearStaTable
    dsimp only
    rw [if_pos (by simp [gone.inited])]
    have same : wifiMacFreeStaNow { table with wmMacExit := true, wmFreeTimer := false } =
        { table with wmMacExit := true, wmFreeTimer := false, wmFreeEntryq := [] } := by
      unfold wifiMacFreeStaNow
      have empty : table.wmFreeEntryq = [] := List.map_eq_nil_iff.mp gone.unqueued
      rw [show StaTable.wmFreeEntryq { table with wmMacExit := true, wmFreeTimer := false } = []
        from empty]
      rfl
    rw [same]
    have held : Held [] { table with
        wmMacExit := true, wmFreeTimer := false, wmFreeEntryq := [] } := by
      refine ⟨fun sta => ?_, gone.held.targets, gone.held.main, gone.held.single,
        gone.held.flagged, nofun, gone.held.unlinked⟩
      have placed := gone.held.placed sta
      rw [gone.unqueued] at placed
      exact placed
    exact gone.same held rfl gone.exit.symm gone.unqueued.symm rfl rfl
  | freeTimer =>
    unfold StaTable.step wifiMacFreeStaDelay
    dsimp only
    split
    next =>
      rw [if_pos gone.exit]
      refine gone.same ⟨gone.held.placed, gone.held.targets, gone.held.main, gone.held.single,
        gone.held.flagged, fun running => ?_, gone.held.unlinked⟩ rfl rfl rfl rfl rfl
      exact absurd (gone.exit.symm.trans running) (by decide)
    next => exact gone
  | staInput memory room frame =>
    unfold StaTable.step staInputAddr4
    dsimp only
    rw [gone.main]
    exact gone
  | staEncap room shost =>
    unfold StaTable.step staEncapAddr4
    dsimp only
    rw [gone.main]
    exact gone
  | apInput memory room toBss addr2 addr4 =>
    unfold StaTable.step apInputAddr4
    dsimp only
    rw [gone.unfound]
    exact gone
  | apRecvMgmt memory node addr2 =>
    unfold StaTable.step Lifetime.apRecvMgmt
    dsimp only
    rw [gone.unfoundWds]
    exact gone
  | update sta station =>
    exact gone.same (gone.held.setStation sta _) rfl rfl rfl rfl rfl
  | tick =>
    exact gone.same ⟨gone.held.placed, gone.held.targets, gone.held.main, gone.held.single,
      gone.held.flagged, gone.held.timer, gone.held.unlinked⟩ rfl rfl rfl rfl rfl

theorem Held.law (held : Held [] table)
    (timer : table.queued ≠ [] → table.wmFreeTimer = true) : Law table where
  unlinked := held.unlinked
  queuedOnce := by
    apply List.nodup_iff_count_le_one.mpr
    intro sta
    have placed := held.placed sta
    split at placed
    all_goals omega
  freedOnce := by
    constructor
    · apply List.nodup_iff_count_le_one.mpr
      intro sta
      have placed := held.placed sta
      split at placed
      all_goals omega
    · intro sta freed queued
      have placed := held.placed sta
      have once := List.count_pos_iff.mpr freed
      have also := List.count_pos_iff.mpr queued
      split at placed
      all_goals omega
  kept sta made := by
    have placed := held.placed sta
    rw [if_pos made, List.count_nil] at placed
    unfold StaTable.Keeps
    rw [← List.count_pos_iff, ← List.count_pos_iff, ← List.count_pos_iff, ← List.count_pos_iff]
    omega
  timer := timer
  alive sta freed := by
    have apart : ¬ (sta ∈ table.ntNsta ∨ sta ∈ [] ∨ sta ∈ table.pending) := by
      have placed := held.placed sta
      have once := List.count_pos_iff.mpr freed
      rintro (linked | none | pending)
      · have also := List.count_pos_iff.mpr linked
        split at placed
        all_goals omega
      · cases none
      · have also := List.count_pos_iff.mpr pending
        split at placed
        all_goals omega
    exact ⟨fun linked => apart (.inl linked),
      fun wds listed same => apart (same ▸ held.targets wds listed),
      fun main => apart (held.main sta main)⟩

private theorem Live.law (live : Live table) : Law table :=
  live.held.law (live.held.timer live.running)

private theorem Gone.law (gone : Gone table) : Law table :=
  gone.held.law fun some => absurd gone.unqueued some

end Steps

private theorem Live.attached (vmMyaddr hz : Nat) (hostap wds : Bool) :
    Live (StaTable.attached vmMyaddr hz hostap wds) :=
  ⟨⟨fun sta => (if_neg (Nat.not_lt_zero sta)).symm, nofun, nofun, List.nodup_nil,
    fun some => absurd rfl some, fun _ some => absurd rfl some, rfl⟩, rfl, rfl⟩

/-- Along a run whose events are sound, from an interface that was just attached, every record is
unlinked before it is queued, queued once and freed once, none is lost, and none that is linked, a
target or the main station was freed. -/
theorem station_lifetime (vmMyaddr hz : Nat) (hostap wds : Bool) (events : List StaEvent)
    (sound : Along StaTable.step StaTable.Sound
      (StaTable.attached vmMyaddr hz hostap wds) events) :
    Law (run StaTable.step (StaTable.attached vmMyaddr hz hostap wds) events) := by
  have kept : ∀ table event, (Live table ∨ Gone table) → table.Sound event →
      (Live (table.step event) ∨ Gone (table.step event)) := by
    intro table event books sound
    rcases books with live | gone
    · exact live.step sound
    · exact .inr (gone.step sound)
  rcases Along.invariant kept sound (Or.inl (Live.attached vmMyaddr hz hostap wds)) with
    live | gone
  · exact live.law
  · exact gone.law

section Decide

variable (table : StaTable) (memory : Nat → Bool) (sta : Nat)

instance (wds : WifiMacWdsAddr) : Decidable (table.Seen wds) :=
  inferInstanceAs (Decidable (_ ∈ _))

instance : Decidable (table.Owned sta) :=
  inferInstanceAs (Decidable (∀ wds ∈ table.ntWdsHash, wds.wdsNi = sta → _ ∧ table.Seen wds))

instance (macaddr : Nat) : Decidable (table.Reached macaddr) :=
  inferInstanceAs (Decidable (∀ wds ∈ table.ntWdsHash, _ → table.Seen wds))

instance (frame : Addr4Frame) : Decidable (table.Strange frame) :=
  inferInstanceAs (Decidable (_ ∧ _ ∧ _ ∧ _ ∧ _))

instance : Decidable (table.Leaves memory sta) := inferInstanceAs (Decidable (_ ∧ _))

instance (target macaddr : Nat) : Decidable (table.Releases memory target macaddr) :=
  inferInstanceAs (Decidable (_ ∧ _ ∧ ∀ wds ∈ table.ntWdsHash, wds.wdsNi = target → _))

instance : Decidable (table.Keeps sta) := inferInstanceAs (Decidable (_ ∨ _ ∨ _ ∨ _))

instance : Decidable table.Walkable := inferInstanceAs (Decidable (_ ≤ _))

instance : Decidable (table.Expires sta) := inferInstanceAs (Decidable (_ ∧ _ ∧ _ ∧ _))

instance foundDecidable {found : Option Nat} {holds : Nat → Prop} [DecidablePred holds] :
    Decidable (∀ sta, found = some sta → holds sta) :=
  match found with
  | none => .isTrue nofun
  | some sta => decidable_of_iff (holds sta)
      ⟨fun here _ same => Option.some.inj same ▸ here, fun every => every sta rfl⟩

instance workSoundDecidable (running : Bool) :
    (work : List WorkTask) → Decidable (table.WorkSound memory running work)
  | [] => instDecidableTrue
  | .startBss selbs _ :: _ =>
    inferInstanceAs (Decidable (_ → _ → selbs ∈ table.ntNsta ∧
      ∀ obss, table.vmMainsta = some obss → obss ≠ selbs → obss ∈ table.walk →
        _ ∧ ∀ wds ∈ table.ntWdsHash, _ → table.Seen wds))
  | .disassoc _ :: _ => inferInstanceAs (Decidable (table.Leaves _ _))

instance soundDecidable : (event : StaEvent) → Decidable (table.Sound event)
  | .bupBss _ _ => inferInstanceAs (Decidable (_ → _))
  | .checkMainSta _ => inferInstanceAs (Decidable (_ → _))
  | .connect _ _ _ _ => instDecidableTrue
  | .work memory running => workSoundDecidable table memory running table.work
  | .sendError _ _ _ => inferInstanceAs (Decidable (_ → _ → _))
  | .delStation memory macaddr =>
    inferInstanceAs (Decidable (_ ∧
      ∀ sta, (wifiMacFindSta macaddr table).1 = some sta → table.Leaves memory sta))
  | .disassocAll _ => inferInstanceAs (Decidable (∀ sta ∈ table.walk, _ → _))
  | .disassocInTask _ => inferInstanceAs (Decidable (∀ sta ∈ table.walk, _ → _))
  | .timeoutStations _ => inferInstanceAs (Decidable (_ → _ → ∀ sta ∈ table.walk, _))
  | .actTxTimeout _ => inferInstanceAs (Decidable (_ → ∀ sta ∈ table.walk, _ → _ → _))
  | .rstBss _ _ => inferInstanceAs (Decidable (_ ∧ ∀ sta ∈ table.walk, _ → _))
  | .leave _ _ => inferInstanceAs (Decidable (_ ∧ ∀ sta ∈ table.walk, _ → _))
  | .vattach _ _ _ => inferInstanceAs (Decidable (_ ∧ ∀ sta ∈ table.walk, _ → _))
  | .vdetach _ => inferInstanceAs (Decidable (∀ sta ∈ table.walk, _))
  | .stationDetach _ =>
    inferInstanceAs (Decidable (_ ∧ (∀ sta ∈ table.ntNsta, _) ∧ _ ∧ ∀ wds ∈ table.ntWdsHash, _))
  | .freeTimer => instDecidableTrue
  | .staInput memory _ frame =>
    inferInstanceAs (Decidable (∀ main, table.vmMainsta = some main → _ → _ ∧ _ ∧
      ∀ temp, (wifiMacFindSta frame.addr4 table).1 = some temp →
        _ → table.Leaves memory temp ∧ main ≠ temp))
  | .staEncap _ shost => inferInstanceAs (Decidable (_ → _ → _ → table.Reached shost))
  | .apInput memory _ _ addr2 addr4 =>
    have : ∀ sta, Decidable (match
        (wifiMacFindWdsSta addr4 (wifiMacFindSta addr2 table).2).1 with
        | some target => target ≠ sta → table.Releases memory target addr4
        | none => ∀ temp, (wifiMacFindSta addr4 (wifiMacFindSta addr2 table).2).1 = some temp →
          table.Leaves memory temp) := fun _ =>
      match (wifiMacFindWdsSta addr4 (wifiMacFindSta addr2 table).2).1 with
      | some target => inferInstanceAs (Decidable (_ → table.Releases memory target addr4))
      | none => inferInstanceAs (Decidable (∀ temp, _ = some temp → table.Leaves memory temp))
    inferInstanceAs (Decidable (_ ∧ ∀ sta, (wifiMacFindSta addr2 table).1 = some sta → _ → _ →
      _ → _ → _))
  | .apRecvMgmt memory _ addr2 =>
    inferInstanceAs (Decidable (∀ target, (wifiMacFindWdsSta addr2 table).1 = some target →
      table.Releases memory target addr2 ∧ (table.vmMainsta ≠ none → table.Walkable)))
  | .update _ _ => instDecidableTrue
  | .tick => instDecidableTrue

end Decide

/-- A station joins, leaves, and is freed after the wait. -/
def joinAndLeave (memory : Nat → Bool) : List StaEvent :=
  [.checkMainSta .made, .bupBss .made 5, .delStation memory 5] ++ List.replicate 5 .tick ++
    [.freeTimer]

theorem station_lifetime_leaves :
    (run StaTable.step (StaTable.attached 1 1 true false)
        (joinAndLeave fun _ => true)).freed = [1] ∧
      Law (run StaTable.step (StaTable.attached 1 1 true false) (joinAndLeave fun _ => true)) :=
  ⟨by decide, station_lifetime 1 1 true false (joinAndLeave fun _ => true) (by decide +kernel)⟩

/-- A station that is not heard of for as long as it may is unlinked and lost. -/
def joinAndFallSilent : List StaEvent :=
  [.checkMainSta .made, .bupBss .made 5,
    .update 1 { newStation 5 1 with aref := true }] ++ List.replicate 5 .tick ++
    [.timeoutStations true]

/-- A station that expires is lost, as is one for whose entry there is no memory. -/
theorem station_lifetime_dangles :
    ¬ Law (run StaTable.step (StaTable.attached 1 1 true false) joinAndFallSilent) ∧
      ¬ Law (run StaTable.step (StaTable.attached 1 1 true false)
        (joinAndLeave fun _ => false)) := by
  refine ⟨fun law => ?_, fun law => ?_⟩
  · have lost : ¬ (run StaTable.step (StaTable.attached 1 1 true false)
        joinAndFallSilent).Keeps 1 := by decide
    exact lost (law.kept 1 (by decide))
  · have lost : ¬ (run StaTable.step (StaTable.attached 1 1 true false)
        (joinAndLeave fun _ => false)).Keeps 1 := by decide
    exact lost (law.kept 1 (by decide))

end W522a.Lifetime
