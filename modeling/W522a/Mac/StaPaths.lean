import W522a.Mac.StaBooks

/-!
The paths out of the station table, one by one: each keeps the books when the records that it takes
can leave.
-/

namespace W522a.Lifetime

section Loops

variable {memory : Nat → Bool} {table : StaTable}

theorem Live.nodup_walk (live : Live table) : table.walk.Nodup :=
  live.held.nodup_ntNsta.sublist (List.take_sublist _ _)

theorem mem_of_walk {sta : Nat} (seen : sta ∈ table.walk) : sta ∈ table.ntNsta :=
  List.mem_of_mem_take seen

theorem Gone.walk (gone : Gone table) : table.walk = [] := by
  rw [StaTable.walk, gone.unlinked]
  rfl

theorem Live.tableRst {rstMainsta : Bool} (live : Live table)
    (leaves : ∀ sta ∈ table.walk, rstMainsta = true ∨ table.vmMainsta ≠ some sta →
      table.Leaves memory sta) : Live (wifiMacStaTableRst memory rstMainsta table) := by
  refine Machine.foldl_each (fun table sta => sta ∈ table.ntNsta ∧
    (rstMainsta = true ∨ table.vmMainsta ≠ some sta → table.Leaves memory sta)) ?_
    live.nodup_walk live fun sta seen => ⟨mem_of_walk seen, leaves sta seen⟩
  rintro table sta live ⟨linked, leaves⟩
  unfold staTableRstTurn
  split
  next goes =>
    have goes : rstMainsta = true ∨ table.vmMainsta ≠ some sta := by
      simpa [or_comm] using goes
    refine ⟨live.remove linked (leaves goes), ?_⟩
    rintro other apart ⟨otherLinked, otherLeaves⟩
    refine ⟨removeSta_linked apart otherLinked,
      fun otherGoes => removeSta_leaves live.held.single ?_⟩
    apply otherLeaves
    exact otherGoes.imp_right fun moved main => moved (removeSta_main main apart)
  next => exact ⟨live, fun other _ ready => ready⟩

theorem Live.disassocAll (live : Live table)
    (leaves : ∀ sta ∈ table.walk, (table.station sta).associated = true →
      table.Leaves memory sta) : Live (wifiMacDisassocAllSta memory table) := by
  refine Machine.foldl_each (fun table sta => sta ∈ table.ntNsta ∧
    ((table.station sta).associated = true → table.Leaves memory sta)) ?_
    live.nodup_walk live fun sta seen => ⟨mem_of_walk seen, leaves sta seen⟩
  rintro table sta live ⟨linked, leaves⟩
  unfold disassocAllTurn
  split
  next goes =>
    refine ⟨live.disconnectFromAp linked (leaves goes), ?_⟩
    rintro other apart ⟨otherLinked, otherLeaves⟩
    obtain ⟨stays, station, still⟩ := disconnectFromAp_other memory apart live.held.single
    refine ⟨stays otherLinked, fun otherGoes => still memory (otherLeaves ?_)⟩
    rwa [station] at otherGoes
  next => exact ⟨live, fun other _ ready => ready⟩

theorem Live.actTxTimeout (live : Live table)
    (leaves : table.hostap = true → ∀ sta ∈ table.walk,
      (table.station sta).confirmDeauth = true → 10 ≤ (table.station sta).saQueryTryCount →
      table.Leaves memory sta) : Live (wifiMacActTxTimeout memory table) := by
  unfold wifiMacActTxTimeout
  split
  next hostap =>
    refine Machine.foldl_each (fun table sta => sta ∈ table.ntNsta ∧
      ((table.station sta).confirmDeauth = true → 10 ≤ (table.station sta).saQueryTryCount →
        table.Leaves memory sta)) ?_
      live.nodup_walk live fun sta seen => ⟨mem_of_walk seen, leaves hostap sta seen⟩
    rintro table sta live ⟨linked, leaves⟩
    unfold actTxTimeoutTurn
    dsimp only
    split
    next confirm =>
      have counted := live.setStation sta
        { table.station sta with saQueryTryCount := (table.station sta).saQueryTryCount + 1 }
      split
      next =>
        refine ⟨counted, ?_⟩
        rintro other apart ⟨otherLinked, otherLeaves⟩
        refine ⟨otherLinked, fun otherConfirm tried => setStation_leaves rfl (otherLeaves ?_ ?_)⟩
        · rwa [setStation_other apart] at otherConfirm
        · rwa [setStation_other apart] at tried
      next tried =>
        refine ⟨counted.disconnectFromAp linked
          (setStation_leaves rfl (leaves confirm (Nat.le_of_not_lt tried))), ?_⟩
        rintro other apart ⟨otherLinked, otherLeaves⟩
        obtain ⟨stays, station, still⟩ :=
          disconnectFromAp_other memory apart counted.held.single
        rw [setStation_other apart] at station
        refine ⟨stays otherLinked, fun otherConfirm tried =>
          still memory (setStation_leaves rfl (otherLeaves ?_ ?_))⟩
        · rwa [station] at otherConfirm
        · rwa [station] at tried
    next => exact ⟨live, fun other _ ready => ready⟩
  next => exact live

end Loops

section Nodes

variable {table : StaTable} {node : NodeAlloc} {macaddr : Nat}

/-- `wifi_mac_get_new_sta_node` links the record that it makes. -/
theorem Live.getNewStaNode (live : Live table) (node : NodeAlloc) (macaddr : Nat) :
    Live (wifiMacGetNewStaNode node macaddr table).2 ∧
      (wifiMacGetNewStaNode node macaddr table).2.vmMainsta = table.vmMainsta ∧
      ∀ sta, (wifiMacGetNewStaNode node macaddr table).1 = some sta →
        sta ∈ (wifiMacGetNewStaNode node macaddr table).2.ntNsta := by
  unfold wifiMacGetNewStaNode
  rw [if_neg (by simp [live.inited])]
  have made := live.held.made
  cases node with
  | failed => exact ⟨live, rfl, nofun⟩
  | refused =>
    have unknown : table.vmMainsta ≠ some table.allocated := fun main =>
      absurd (live.held.below (live.held.main _ main)) (Nat.lt_irrefl _)
    refine ⟨⟨made.free (fun wds listed same => ?_) (.inl rfl), live.inited, live.running⟩, ?_,
      nofun⟩
    · have below := live.held.below (live.held.targets wds listed)
      rw [same] at below
      exact absurd below (Nat.lt_irrefl _)
    · simp [allocStaNode, nstaFree, unknown]
  | made =>
    refine ⟨⟨?_, live.inited, live.running⟩, rfl, fun sta same => ?_⟩
    · exact (made.setStation table.allocated (newStation macaddr ntInactInit)).link
    · cases same
      exact List.mem_append_right _ (List.mem_singleton.mpr rfl)

theorem findLinked_eq (walkable : table.Walkable) (macaddr : Nat) :
    findLinked macaddr table =
      (table.walk.find? fun sta => (table.station sta).staMacaddr == macaddr, table) := by
  unfold findLinked
  split
  next sta found => rw [found]
  next missing =>
    rw [if_neg (Nat.not_lt.mpr walkable), missing]

theorem Live.getStaNode (live : Live table) (walkable : table.Walkable) (node : NodeAlloc)
    (macaddr : Nat) :
    Live (wifiMacGetStaNode node macaddr table).2 ∧
      (wifiMacGetStaNode node macaddr table).2.vmMainsta = table.vmMainsta ∧
      ∀ sta, (wifiMacGetStaNode node macaddr table).1 = some sta →
        sta ∈ (wifiMacGetStaNode node macaddr table).2.ntNsta := by
  unfold wifiMacGetStaNode
  rw [if_neg (by simp [live.inited]), findLinked_eq walkable]
  cases found : table.walk.find? fun sta => (table.station sta).staMacaddr == macaddr with
  | none => exact live.getNewStaNode node macaddr
  | some sta =>
    refine ⟨live, rfl, fun other same => ?_⟩
    cases same
    exact mem_of_walk (List.mem_of_find?_eq_some found)

theorem Live.checkMainSta (live : Live table)
    (walkable : table.vmMainsta = none → table.Walkable) :
    Live (wifiMacCheckMainSta node table) := by
  unfold wifiMacCheckMainSta
  cases main : table.vmMainsta with
  | some sta => exact live
  | none =>
    obtain ⟨found, -, linked⟩ :=
      live.getStaNode (walkable main) node table.vmMyaddr
    exact ⟨found.held.setMain fun sta same => .inl (linked sta same), found.inited,
      found.running⟩

theorem Live.bupBss (live : Live table)
    (walkable : table.vmMainsta ≠ none → table.Walkable) :
    Live (wifiMacBupBss node macaddr table) := by
  unfold wifiMacBupBss
  split
  next main => exact (live.getStaNode (walkable (Option.isSome_iff_ne_none.mp main)) node macaddr).1
  next => exact live

theorem Live.connect {channel room : Bool} (live : Live table) :
    Live (wifiMacConnect node macaddr channel room table) := by
  unfold wifiMacConnect
  have made := (live.getNewStaNode node macaddr).1
  generalize wifiMacGetNewStaNode node macaddr table = result at made
  obtain ⟨found, table⟩ := result
  cases found with
  | none => exact made
  | some sta =>
    dsimp only
    split
    next =>
      refine ⟨made.held.setWork ?_, made.inited, made.running⟩
      exact List.filterMap_append.trans (List.append_nil _)
    next => exact made

theorem Live.sendError {memory : Nat → Bool} (live : Live table)
    (room : node = .made → memory table.allocated = true) :
    Live (wifiMacSendError memory node macaddr table) := by
  unfold wifiMacSendError
  rw [if_neg (by simp [live.running])]
  have made := live.held.made
  have loose : ∀ wds ∈ table.ntWdsHash, wds.wdsNi ≠ table.allocated := by
    intro wds listed same
    have below := live.held.below (live.held.targets wds listed)
    rw [same] at below
    exact absurd below (Nat.lt_irrefl _)
  cases node with
  | failed => exact live
  | refused => exact ⟨made.free loose (.inl rfl), live.inited, live.running⟩
  | made =>
    dsimp only [allocStaNode]
    obtain ⟨-, -, -, -, -, inited, exit⟩ := freeSta_frame memory table.allocated
      ({ table with allocated := table.allocated + 1 }.setStation table.allocated
        (newStation macaddr 0))
    refine ⟨?_, inited.trans live.inited, exit.trans live.running⟩
    exact (made.setStation _ _).freeSta (room rfl) loose

end Nodes

section Work

variable {memory room : Nat → Bool} {table : StaTable} {sta : Nat}

theorem Live.disassocInTask (live : Live table)
    (queued : ∀ sta ∈ table.walk, (table.station sta).associated = true → room sta = true) :
    Live (wifiMacStaDisassocInTask room table) := by
  refine Machine.foldl_each (fun table sta => sta ∈ table.ntNsta ∧
    ((table.station sta).associated = true → room sta = true)) ?_
    live.nodup_walk live fun sta seen => ⟨mem_of_walk seen, queued sta seen⟩
  rintro table sta live ⟨linked, queued⟩
  unfold disassocInTaskTurn
  split
  next goes =>
    dsimp only
    rw [if_pos (queued goes)]
    refine ⟨⟨(live.held.listDelInit linked).pend, live.inited, live.running⟩, ?_⟩
    rintro other apart ⟨otherLinked, otherQueued⟩
    exact ⟨(List.mem_erase_of_ne apart).mpr otherLinked, otherQueued⟩
  next => exact ⟨live, fun other _ ready => ready⟩

private theorem timeoutStationsTurn_stays (stays : ¬ table.Expires sta) :
    timeoutStationsTurn table sta = table ∨ ∃ station,
      timeoutStationsTurn table sta = table.setStation sta station := by
  unfold timeoutStationsTurn
  dsimp only
  split
  next => exact .inl rfl
  next aref =>
    split
    next => exact .inl rfl
    next old =>
      split
      next =>
        split
        next => exact .inr ⟨_, rfl⟩
        next => exact .inl rfl
      next apart =>
        split
        next silent =>
          refine absurd ⟨?_, Nat.le_of_not_lt old, ?_, silent⟩ stays
          · simpa using aref
          · simpa using apart
        next => exact .inr ⟨_, rfl⟩

theorem Live.timeoutStations {connected : Bool} (live : Live table)
    (stay : connected = true → table.vmMainsta ≠ none →
      ∀ sta ∈ table.walk, ¬ table.Expires sta) :
    Live (wifiMacTimeoutStations connected table) := by
  unfold wifiMacTimeoutStations
  split
  next turned =>
    rw [Bool.and_eq_true, Option.isSome_iff_ne_none] at turned
    refine Machine.foldl_each (fun table sta => ¬ table.Expires sta) ?_
      live.nodup_walk live (stay turned.1 turned.2)
    intro table sta live stays
    rcases timeoutStationsTurn_stays stays with same | ⟨station, same⟩
    · rw [same]
      exact ⟨live, fun other _ ready => ready⟩
    · rw [same]
      refine ⟨live.setStation sta station, fun other apart ready expires => ready ?_⟩
      unfold StaTable.Expires at expires
      rw [setStation_other apart] at expires
      exact expires
  next => exact live

private theorem rmBySta_frame (table : StaTable) (sta : Nat) :
    (wifiMacRmStaFromWdsBySta sta table).ntNsta = table.ntNsta ∧
      (wifiMacRmStaFromWdsBySta sta table).ntInited = table.ntInited ∧
      (wifiMacRmStaFromWdsBySta sta table).wmMacExit = table.wmMacExit := by
  unfold wifiMacRmStaFromWdsBySta
  split
  next => exact ⟨rfl, rfl, rfl⟩
  next => exact ⟨rfl, rfl, rfl⟩

theorem StaTable.Seen.mem_buckets {wds : WifiMacWdsAddr} (seen : table.Seen wds) :
    wds ∈ table.buckets :=
  List.mem_flatMap.mpr ⟨_, List.mem_range.mpr (Nat.mod_lt _ (by decide)), seen⟩

private theorem rmBySta_gone (held : Held [] table) (inited : table.ntInited = true)
    (seen : ∀ wds ∈ table.ntWdsHash, wds.wdsNi = sta → table.Seen wds) :
    ∀ wds ∈ (wifiMacRmStaFromWdsBySta sta table).ntWdsHash, wds.wdsNi ≠ sta := by
  unfold wifiMacRmStaFromWdsBySta
  intro wds listed
  split at listed
  next unflagged =>
    rw [inited, Bool.not_true, Bool.false_or, Bool.not_eq_true'] at unflagged
    have flagged := held.flagged (List.ne_nil_of_mem listed)
    rw [unflagged] at flagged
    cases flagged
  next =>
    obtain ⟨kept, missed⟩ := (held.single.nodup.mem_sdiff_iff).mp listed
    exact fun same => missed (List.mem_filter.mpr
      ⟨(seen wds kept same).mem_buckets, beq_iff_eq.mpr same⟩)

theorem Live.startBss {running : Bool} {selbs : Nat} (live : Live table)
    (linked : running = true → selbs ∈ table.ntNsta)
    (entry : running = true → ∀ obss, table.vmMainsta = some obss → obss ≠ selbs →
      obss ∈ table.walk → memory obss = true ∧
        ∀ wds ∈ table.ntWdsHash, wds.wdsNi = obss → table.Seen wds) :
    Live (wifiMacStartBssEx memory running selbs table) := by
  unfold wifiMacStartBssEx
  split
  next => exact live
  next runs =>
    have runs : running = true := by simpa using runs
    have started : Held [] { table with vmMainsta := some selbs } := by
      refine live.held.setMain fun sta same => ?_
      cases same
      exact .inl (linked runs)
    dsimp only
    cases main : table.vmMainsta with
    | none => exact ⟨started, live.inited, live.running⟩
    | some obss =>
      dsimp only
      split
      next apart =>
        have cleared := started.rmBySta obss
        have loose := fun seen : obss ∈ table.walk =>
          rmBySta_gone started live.inited (entry runs obss main apart seen).2
        obtain ⟨stays, inited, exit⟩ := rmBySta_frame { table with vmMainsta := some selbs } obss
        generalize wifiMacRmStaFromWdsBySta obss { table with vmMainsta := some selbs } = cleared'
          at cleared loose stays inited exit
        have inited := inited.trans live.inited
        have exit := exit.trans live.running
        unfold wifiMacFreeStaFromList
        rw [if_neg (by simp [inited])]
        split
        next seen =>
          obtain ⟨-, -, -, -, -, same, same'⟩ :=
            freeSta_frame memory obss (listDelInit obss cleared')
          have before : obss ∈ table.walk := by
            unfold StaTable.walk at seen
            rwa [stays] at seen
          have room := (entry runs obss main apart before).1
          exact ⟨(cleared.listDelInit (mem_of_walk seen)).freeSta room (loose before),
            same.trans inited, same'.trans exit⟩
        next => exact ⟨cleared, inited, exit⟩
      next => exact ⟨started, live.inited, live.running⟩

theorem Live.disassocCb {rest : List WorkTask} (live : Live table)
    (work : table.work = .disassoc sta :: rest) (leaves : table.Leaves memory sta) :
    Live (wifiMacDisassocCb memory sta { table with work := rest }) := by
  have taken := ((live.held.unpend work).setStation sta
    { table.station sta with associated := false })
  unfold wifiMacDisassocCb
  obtain ⟨-, -, -, -, -, inited, exit⟩ := freeSta_frame memory sta
    (wifiMacRmStaFromWdsByAddr (table.station sta).staMacaddr
      (wifiMacStaDisconnect sta { table with work := rest }))
  obtain ⟨-, -, -, -, -, -, inited', exit'⟩ := rmByAddr_frame
    (wifiMacStaDisconnect sta { table with work := rest }) (table.station sta).staMacaddr
  exact ⟨(taken.rmByAddr _).freeSta leaves.1 (rmByAddr_loose taken live.inited leaves.2),
    (inited.trans inited').trans live.inited, (exit.trans exit').trans live.running⟩

end Work

section Wds

variable {memory : Nat → Bool} {table : StaTable} {sta macaddr : Nat}

theorem Live.fewer (live : Live table) {rest : List WifiMacWdsAddr}
    (fewer : rest.Sublist table.ntWdsHash) : Live { table with ntWdsHash := rest } :=
  ⟨live.held.sublist fewer, live.inited, live.running⟩

/-- `wifi_mac_find_sta` finds a linked station, and takes nothing but entries of the WDS table
away. -/
theorem findSta_spec (table : StaTable) (inited : table.ntInited = true) (walkable : table.Walkable)
    (macaddr : Nat) :
    (∃ rest : List WifiMacWdsAddr, rest.Sublist table.ntWdsHash ∧
        (wifiMacFindSta macaddr table).2 = { table with ntWdsHash := rest }) ∧
      ∀ sta, (wifiMacFindSta macaddr table).1 = some sta → sta ∈ table.ntNsta := by
  unfold wifiMacFindSta
  rw [if_neg (by simp [inited]), findLinked_eq walkable]
  cases found : table.walk.find? fun sta => (table.station sta).staMacaddr == macaddr with
  | some sta =>
    refine ⟨⟨_, List.Sublist.refl _, rfl⟩, fun other same => ?_⟩
    cases same
    exact mem_of_walk (List.mem_of_find?_eq_some found)
  | none =>
    dsimp only
    split
    next wds entry =>
      refine ⟨⟨_, List.diff_sublist _ _, rfl⟩, fun other same => ?_⟩
      cases same
      have known := List.find?_some entry
      rw [Bool.and_eq_true, List.contains_iff_mem] at known
      exact mem_of_walk known.2
    next => exact ⟨⟨_, List.diff_sublist _ _, rfl⟩, nofun⟩

theorem findWdsSta_spec (table : StaTable) (inited : table.ntInited = true) (macaddr : Nat) :
    (∃ rest : List WifiMacWdsAddr, rest.Sublist table.ntWdsHash ∧
        (wifiMacFindWdsSta macaddr table).2 = { table with ntWdsHash := rest }) ∧
      ∀ sta, (wifiMacFindWdsSta macaddr table).1 = some sta →
        (wifiMacFindWdsSta macaddr table).2 = table ∧
          ∃ wds, table.wdsFor macaddr = some wds ∧ wds.wdsNi = sta := by
  unfold wifiMacFindWdsSta
  rw [if_neg (by simp [inited])]
  split
  next =>
    refine ⟨⟨_, List.Sublist.refl _, rfl⟩, fun sta found => ⟨rfl, ?_⟩⟩
    exact Option.map_eq_some_iff.mp found
  next => exact ⟨⟨_, List.diff_sublist _ _, rfl⟩, nofun⟩

theorem findWdsSta_flagged (inited : table.ntInited = true) (flagged : table.wds = true)
    (macaddr : Nat) :
    wifiMacFindWdsSta macaddr table = ((table.wdsFor macaddr).map WifiMacWdsAddr.wdsNi, table) := by
  unfold wifiMacFindWdsSta
  rw [if_neg (by simp [inited]), if_pos flagged]

theorem leaves_fewer {rest : List WifiMacWdsAddr} (live : Live table)
    (fewer : rest.Sublist table.ntWdsHash) (leaves : table.Leaves memory sta) :
    StaTable.Leaves { table with ntWdsHash := rest } memory sta :=
  ⟨leaves.1, leaves.2.fewer live.held.single fewer⟩

/-- The walk over its bucket sees the entry for an address, if there is one. -/
def StaTable.Reached (table : StaTable) (macaddr : Nat) : Prop :=
  ∀ wds ∈ table.ntWdsHash, wds.wdsMacaddr = macaddr → table.Seen wds

theorem Live.reached_fewer {later : StaTable} (live : Live table)
    (fewer : later.ntWdsHash.Sublist table.ntWdsHash) (reached : table.Reached macaddr) :
    later.Reached macaddr :=
  fun wds listed own =>
    (reached wds (fewer.subset listed) own).fewer live.held.single fewer listed

theorem Live.addWds {room : Bool} (live : Live table)
    (place : sta ∈ table.ntNsta ∨ sta ∈ table.pending)
    (reached : room = true → table.Reached macaddr) :
    Live (wifiMacAddWdsAddr room sta macaddr table) := by
  have place : sta ∈ table.ntNsta ∨ sta ∈ [] ∨ sta ∈ table.pending := place.imp_right Or.inr
  unfold wifiMacAddWdsAddr
  split
  next => exact live
  next usable =>
    rw [live.inited, Bool.not_true, Bool.false_or, Bool.or_eq_true, not_or, Bool.not_eq_true',
      Bool.not_eq_true', Bool.not_eq_false, Bool.not_eq_false] at usable
    obtain ⟨flagged, roomy⟩ := usable
    split
    next wds found =>
      refine ⟨⟨live.held.placed, fun other listed => ?_, live.held.main, ?_, fun _ => flagged,
        live.held.timer, live.held.unlinked⟩, live.inited, live.running⟩
      · rcases Keyed.mem_of_mem_replaceFirst listed with rfl | old
        · exact place
        · exact live.held.targets other old
      · unfold Keyed.Distinct
        dsimp only
        rw [Keyed.map_replaceFirst (by rfl)]
        exact live.held.single
    next unknown =>
      refine ⟨⟨live.held.placed, fun wds listed => ?_, live.held.main, ?_, fun _ => flagged,
        live.held.timer, live.held.unlinked⟩, live.inited, live.running⟩
      · rcases List.mem_cons.mp listed with rfl | listed
        · exact place
        · exact live.held.targets wds listed
      · refine List.nodup_cons.mpr ⟨fun listed => ?_, live.held.single⟩
        obtain ⟨wds, member, rfl⟩ := List.mem_map.mp listed
        have found := (reached roomy wds member rfl).wdsFor live.held.single
        rw [unknown] at found
        cases found

/-- The target of the entry for an address can be taken away with it: it is linked, there is memory
for its entry, and no other address leads to it. -/
def StaTable.Releases (table : StaTable) (memory : Nat → Bool) (target macaddr : Nat) : Prop :=
  memory target = true ∧ target ∈ table.ntNsta ∧
    ∀ wds ∈ table.ntWdsHash, wds.wdsNi = target → wds.wdsMacaddr = macaddr

theorem Live.rmSta {target : Nat} {wds : WifiMacWdsAddr} (live : Live table)
    (found : table.wdsFor macaddr = some wds) (same : wds.wdsNi = target)
    (releases : table.Releases memory target macaddr) :
    Live (wifiMacRmSta memory macaddr table) ∧
      (wifiMacRmSta memory macaddr table).ntNsta = table.ntNsta.erase target ∧
      (wifiMacRmSta memory macaddr table).Reached macaddr := by
  obtain ⟨room, linked, own⟩ := releases
  obtain ⟨listed, named⟩ := wdsFor_some found
  unfold wifiMacRmSta
  rw [if_neg (by simp [live.inited]), found]
  dsimp only
  rw [same]
  have cleared : Live { table with ntWdsHash := table.ntWdsHash.erase wds } :=
    live.fewer List.erase_sublist
  -- The entry was the only one under its address.
  have none_left : ∀ other ∈ table.ntWdsHash.erase wds, other.wdsMacaddr ≠ macaddr := by
    intro other kept here
    have again := live.held.single.eq_of_key listed (List.mem_of_mem_erase kept)
      (here.trans named.symm)
    exact live.held.single.nodup.not_mem_erase (again ▸ kept)
  obtain ⟨stays, hash, -, -, -, inited, exit⟩ := freeSta_frame memory target
    (listDelInit target { table with ntWdsHash := table.ntWdsHash.erase wds })
  refine ⟨⟨(cleared.held.listDelInit linked).freeSta room fun other kept target => ?_,
    inited.trans live.inited, exit.trans live.running⟩, stays, fun other kept here => ?_⟩
  · exact none_left other kept (own other (List.mem_of_mem_erase kept) target)
  · rw [hash] at kept
    exact absurd here (none_left other kept)

theorem Live.delStation (live : Live table) (walkable : table.Walkable)
    (leaves : ∀ sta, (wifiMacFindSta macaddr table).1 = some sta → table.Leaves memory sta) :
    Live (delStation memory macaddr table) := by
  unfold Lifetime.delStation
  obtain ⟨⟨rest, fewer, same⟩, linked⟩ := findSta_spec table live.inited walkable macaddr
  cases found : (wifiMacFindSta macaddr table).1 with
  | none =>
    rw [show wifiMacFindSta macaddr table = (none, { table with ntWdsHash := rest }) from
      Prod.ext found same]
    exact live.fewer fewer
  | some sta =>
    rw [show wifiMacFindSta macaddr table = (some sta, { table with ntWdsHash := rest }) from
      Prod.ext found same]
    exact (live.fewer fewer).disconnectFromAp (linked sta found)
      (leaves_fewer live fewer (leaves sta found))

theorem Live.main_placed (live : Live table) (main : table.vmMainsta = some sta) :
    sta ∈ table.ntNsta ∨ sta ∈ table.pending := by
  rcases live.held.main sta main with linked | none | pending
  · exact .inl linked
  · cases none
  · exact .inr pending

/-- A station takes a frame that is not from its access point, with an address behind it that is
new. -/
def StaTable.Strange (table : StaTable) (frame : Addr4Frame) : Prop :=
  frame.notToBss = false ∧ table.wds = true ∧ table.multicastEcho frame = false ∧
    table.wdsFor frame.addr4 = none ∧ frame.other = true

theorem Live.staInput {room : Bool} {frame : Addr4Frame} (live : Live table)
    (apart : ∀ main, table.vmMainsta = some main → table.Strange frame → table.Walkable ∧
      (room = true → table.Reached frame.addr4) ∧
        ∀ temp, (wifiMacFindSta frame.addr4 table).1 = some temp →
          (table.station temp).staMacaddr ≠ table.vmMyaddr →
          table.Leaves memory temp ∧ main ≠ temp) :
    Live (staInputAddr4 memory room frame table) := by
  unfold staInputAddr4
  cases main : table.vmMainsta with
  | none => exact live
  | some sta =>
    dsimp only
    split
    next => exact live
    next passed =>
      split
      next => exact live
      next allowed =>
        rw [Bool.or_eq_true, not_or, Bool.not_eq_true', Bool.not_eq_false] at allowed
        have lookup := findWdsSta_flagged live.inited allowed.1 frame.addr4
        rw [lookup]
        cases missing : table.wdsFor frame.addr4 with
        | some wds => exact live
        | none =>
          dsimp only [Option.map_none]
          split
          next => exact live
          next other =>
            have strange : table.Strange frame :=
              ⟨by simpa using passed, allowed.1, by simpa using allowed.2, missing,
                by simpa using other⟩
            obtain ⟨walkable, reached, apart⟩ := apart sta main strange
            obtain ⟨⟨rest, fewer, same⟩, linked⟩ :=
              findSta_spec table live.inited walkable frame.addr4
            have live' := live.fewer fewer
            cases found : (wifiMacFindSta frame.addr4 table).1 with
            | none =>
              rw [show wifiMacFindSta frame.addr4 table =
                (none, { table with ntWdsHash := rest }) from Prod.ext found same]
              exact live'.addWds (live.main_placed main) fun roomy =>
                live.reached_fewer fewer (reached roomy)
            | some temp =>
              rw [show wifiMacFindSta frame.addr4 table =
                (some temp, { table with ntWdsHash := rest }) from Prod.ext found same]
              dsimp only
              split
              next => exact live'
              next foreign =>
                obtain ⟨leaves, differ⟩ := apart temp found foreign
                have gone := live'.disconnectFromAp (linked temp found)
                  (leaves_fewer live fewer leaves)
                refine gone.addWds (gone.main_placed ?_) fun roomy =>
                  live.reached_fewer ?_ (reached roomy)
                · exact removeSta_main main differ
                · exact (removeSta_frame memory temp _).2.1.trans fewer

theorem Live.staEncap {room : Bool} {shost : Nat} (live : Live table)
    (reached : table.vmMainsta ≠ none → table.wds = true → room = true → table.Reached shost) :
    Live (staEncapAddr4 room shost table) := by
  unfold staEncapAddr4
  cases main : table.vmMainsta with
  | none => exact live
  | some sta =>
    dsimp only
    split
    next => exact live
    next flagged =>
      rw [Bool.not_eq_true', Bool.not_eq_false] at flagged
      rw [findWdsSta_flagged live.inited flagged]
      cases table.wdsFor shost with
      | some wds => exact live
      | none =>
        exact live.addWds (live.main_placed main) (reached (by simp [main]) flagged)

theorem Live.apInput {room toBss : Bool} {addr2 addr4 : Nat} (live : Live table)
    (walkable : table.Walkable)
    (apart : ∀ sta, (wifiMacFindSta addr2 table).1 = some sta → toBss = true →
      table.vmMainsta ≠ some sta → (table.station sta).associated = true → table.wds = true →
      match (wifiMacFindWdsSta addr4 (wifiMacFindSta addr2 table).2).1 with
      | some target => target ≠ sta → table.Releases memory target addr4
      | none => ∀ temp, (wifiMacFindSta addr4 (wifiMacFindSta addr2 table).2).1 = some temp →
        table.Leaves memory temp) :
    Live (apInputAddr4 memory room toBss addr2 addr4 table) := by
  unfold apInputAddr4
  obtain ⟨⟨rest, fewer, same⟩, linked⟩ := findSta_spec table live.inited walkable addr2
  have live' := live.fewer fewer
  cases found : (wifiMacFindSta addr2 table).1 with
  | none =>
    rw [show wifiMacFindSta addr2 table = (none, { table with ntWdsHash := rest }) from
      Prod.ext found same]
    exact live'
  | some sta =>
    have result : wifiMacFindSta addr2 table = (some sta, { table with ntWdsHash := rest }) :=
      Prod.ext found same
    have apart := apart sta found
    rw [result] at apart ⊢
    dsimp only
    split
    next => exact live'
    next taken =>
      rw [Bool.or_eq_true, not_or, Bool.not_eq_true', Bool.not_eq_false, beq_iff_eq] at taken
      split
      next => exact live'
      next joined =>
        rw [Bool.or_eq_true, Bool.not_eq_true', Bool.not_eq_true', not_or, Bool.not_eq_false,
          Bool.not_eq_false] at joined
        have apart := apart taken.1 taken.2 joined.1 joined.2
        have lookup := findWdsSta_flagged live'.inited joined.2 addr4
        rw [lookup] at apart ⊢
        cases first : StaTable.wdsFor { table with ntWdsHash := rest } addr4 with
        | some wds =>
          rw [first] at apart
          dsimp only [Option.map_some] at apart ⊢
          split
          next differ =>
            obtain ⟨room, there, own⟩ := apart differ
            obtain ⟨gone, stays, reached⟩ := live'.rmSta first rfl
              ⟨room, there, fun wds listed => own wds (fewer.subset listed)⟩
            refine gone.addWds (.inl ?_) fun _ => reached
            rw [stays]
            exact (List.mem_erase_of_ne (Ne.symm differ)).mpr (linked sta found)
          next => exact live'
        | none =>
          rw [first] at apart
          exact live'.delStation walkable fun temp seen =>
            leaves_fewer live fewer (apart temp seen)

theorem Live.apRecvMgmt {node : NodeAlloc} {addr2 : Nat} (live : Live table)
    (releases : ∀ target, (wifiMacFindWdsSta addr2 table).1 = some target →
      table.Releases memory target addr2 ∧ (table.vmMainsta ≠ none → table.Walkable)) :
    Live (apRecvMgmt memory node addr2 table) := by
  unfold Lifetime.apRecvMgmt
  obtain ⟨⟨rest, fewer, same⟩, entry⟩ := findWdsSta_spec table live.inited addr2
  cases found : (wifiMacFindWdsSta addr2 table).1 with
  | none =>
    rw [show wifiMacFindWdsSta addr2 table = (none, { table with ntWdsHash := rest }) from
      Prod.ext found same]
    exact live.fewer fewer
  | some target =>
    obtain ⟨kept, wds, first, points⟩ := entry target found
    obtain ⟨releases, walkable⟩ := releases target found
    rw [show wifiMacFindWdsSta addr2 table = (some target, table) from Prod.ext found kept]
    dsimp only
    obtain ⟨gone, stays, -⟩ := live.rmSta first points releases
    refine gone.bupBss fun main => ?_
    have shorter : (table.ntNsta.erase target).length ≤ table.ntNsta.length :=
      List.length_erase_le
    unfold StaTable.Walkable
    rw [stays]
    refine Nat.le_trans shorter (walkable fun none => main ?_)
    cases after : (wifiMacRmSta memory addr2 table).vmMainsta with
    | none => rfl
    | some sta =>
      unfold wifiMacRmSta at after
      rw [if_neg (by simp [live.inited]), first] at after
      have before := freeSta_main_of after
      rw [show (listDelInit wds.wdsNi { table with
        ntWdsHash := table.ntWdsHash.erase wds }).vmMainsta = table.vmMainsta from rfl,
          none] at before
      cases before

end Wds

section Reset

variable {memory : Nat → Bool} {table : StaTable}

private theorem tableRst_walkable (rstMainsta : Bool) (walkable : table.Walkable) :
    (wifiMacStaTableRst memory rstMainsta table).Walkable := by
  unfold wifiMacStaTableRst
  generalize table.walk = list
  induction list generalizing table with
  | nil => exact walkable
  | cons sta rest induction =>
    apply induction
    unfold staTableRstTurn
    split
    next =>
      unfold StaTable.Walkable
      rw [(removeSta_frame memory sta table).1]
      exact Nat.le_trans List.length_erase_le walkable
    next => exact walkable

theorem Live.rstBss {node : NodeAlloc} (live : Live table) (walkable : table.Walkable)
    (leaves : ∀ sta ∈ table.walk, table.vmMainsta ≠ some sta → table.Leaves memory sta) :
    Live (wifiMacRstBss memory node table) := by
  have reset : Live (wifiMacStaTableRst memory false table) := by
    apply live.tableRst
    intro sta seen goes
    exact leaves sta seen (goes.resolve_left (by decide))
  exact reset.checkMainSta fun _ => tableRst_walkable false walkable

theorem Live.rstMainSta (live : Live table) : Live (wifiMacRstMainSta table) := by
  unfold wifiMacRstMainSta
  cases table.vmMainsta with
  | none => exact live
  | some sta => exact live.setStation sta _

end Reset

section Free

variable {table : StaTable} {hand : List Nat} {sta queueTime : Nat} {rest : List (Nat × Nat)}

theorem Held.unqueue (held : Held hand { table with wmFreeEntryq := (sta, queueTime) :: rest }) :
    Held (sta :: hand) { table with wmFreeEntryq := rest } := by
  refine ⟨fun other => ?_, fun wds listed => ?_, fun other main => ?_, held.single, held.flagged,
    fun running _ => held.timer running (List.cons_ne_nil _ _), held.unlinked⟩
  · have placed := held.placed other
    have queued : StaTable.queued { table with wmFreeEntryq := (sta, queueTime) :: rest } =
      sta :: StaTable.queued { table with wmFreeEntryq := rest } := rfl
    rw [queued, List.count_cons] at placed
    rw [List.count_cons]
    show table.ntNsta.count other + (hand.count other + _) + table.pending.count other +
      _ + table.freed.count other = if other < table.allocated then 1 else 0
    change table.ntNsta.count other + hand.count other + table.pending.count other +
      (_ + _) + table.freed.count other = if other < table.allocated then 1 else 0 at placed
    omega
  · exact (held.targets wds listed).imp_right (Or.imp_left (List.mem_cons_of_mem _))
  · exact (held.main other main).imp_right (Or.imp_left (List.mem_cons_of_mem _))

private theorem Held.queued_loose (held : Held [] table) (queued : sta ∈ table.queued) :
    (∀ wds ∈ table.ntWdsHash, wds.wdsNi ≠ sta) ∧ table.vmMainsta ≠ some sta := by
  have apart : ¬ (sta ∈ table.ntNsta ∨ sta ∈ [] ∨ sta ∈ table.pending) := by
    have placed := held.placed sta
    have once := List.count_pos_iff.mpr queued
    rintro (linked | none | pending)
    · have also := List.count_pos_iff.mpr linked
      split at placed
      all_goals omega
    · cases none
    · have also := List.count_pos_iff.mpr pending
      split at placed
      all_goals omega
  exact ⟨fun wds listed same => apart (same ▸ held.targets wds listed),
    fun main => apart (held.main sta main)⟩

theorem Held.freeFirst {vif : Bool}
    (held : Held [] { table with wmFreeEntryq := (sta, queueTime) :: rest }) :
    Held [] { nstaFree vif sta table with wmFreeEntryq := rest } := by
  obtain ⟨loose, apart⟩ := held.queued_loose List.mem_cons_self
  exact held.unqueue.free loose (.inr apart)

private theorem Held.freeStaDelayLoop
    (held : Held [] { table with wmFreeEntryq := rest }) :
    Held [] (freeStaDelayLoop rest table) := by
  induction rest generalizing table with
  | nil =>
    exact ⟨held.placed, held.targets, held.main, held.single, held.flagged,
      fun _ some => absurd rfl some, held.unlinked⟩
  | cons entry rest induction =>
    obtain ⟨sta, queueTime⟩ := entry
    rw [Lifetime.freeStaDelayLoop]
    split
    next => exact induction held.freeFirst
    next =>
      exact ⟨held.placed, held.targets, held.main, held.single, held.flagged, fun _ _ => rfl,
        held.unlinked⟩

private theorem freeStaDelayLoop_frame (entries : List (Nat × Nat)) (table : StaTable) :
    (freeStaDelayLoop entries table).ntInited = table.ntInited ∧
      (freeStaDelayLoop entries table).wmMacExit = table.wmMacExit := by
  induction entries generalizing table with
  | nil => exact ⟨rfl, rfl⟩
  | cons entry rest induction =>
    rw [Lifetime.freeStaDelayLoop]
    split
    next => exact induction _
    next => exact ⟨rfl, rfl⟩

theorem Live.freeTimer (live : Live table) : Live (wifiMacFreeStaDelay table) := by
  unfold wifiMacFreeStaDelay
  rw [if_neg (by simp [live.running])]
  obtain ⟨inited, exit⟩ := freeStaDelayLoop_frame table.wmFreeEntryq table
  exact ⟨Held.freeStaDelayLoop live.held, inited.trans live.inited, exit.trans live.running⟩

private theorem Held.freeAll {entries : List (Nat × Nat)}
    (held : Held [] { table with wmFreeEntryq := entries }) :
    Held [] { entries.foldl (fun table entry => nstaFree false entry.1 table) table with
      wmFreeEntryq := [] } := by
  induction entries generalizing table with
  | nil => exact held
  | cons entry rest induction => exact induction held.freeFirst

private theorem freeStaNow_frame (table : StaTable) :
    (wifiMacFreeStaNow table).ntNsta = table.ntNsta ∧
      (wifiMacFreeStaNow table).work = table.work ∧
      (wifiMacFreeStaNow table).ntInited = table.ntInited ∧
      (wifiMacFreeStaNow table).wmMacExit = table.wmMacExit := by
  unfold wifiMacFreeStaNow
  generalize table.wmFreeEntryq = entries
  induction entries generalizing table with
  | nil => exact ⟨rfl, rfl, rfl, rfl⟩
  | cons entry rest induction => exact induction (nstaFree false entry.1 table)

/-- The loop of `wifi_mac_clear_sta_table` queues every station that it sees. -/
theorem clear_loop {memory : Nat → Bool} {list left : List Nat} (held : Held [] table)
    (linked : table.ntNsta = list ++ left) (wds : table.ntWdsHash = [])
    (room : ∀ sta ∈ list, memory sta = true) :
    let cleared := list.foldl
      (fun table sta => wifiMacFreeSta memory sta (listDelInit sta table)) table
    Held [] cleared ∧ cleared.ntNsta = left ∧ cleared.work = table.work ∧
      cleared.ntInited = table.ntInited ∧ cleared.wmMacExit = table.wmMacExit := by
  induction list generalizing table with
  | nil => exact ⟨held, linked, rfl, rfl, rfl⟩
  | cons sta rest induction =>
    have first : sta ∈ table.ntNsta := by
      rw [linked]
      exact List.mem_cons_self
    obtain ⟨stays, wds', -, work, -, inited, exit⟩ :=
      freeSta_frame memory sta (listDelInit sta table)
    have next : Held [] (wifiMacFreeSta memory sta (listDelInit sta table)) := by
      apply (held.listDelInit first).freeSta (room sta (.head _))
      intro entry listed
      rw [show (listDelInit sta table).ntWdsHash = [] from wds] at listed
      cases listed
    have shorter : (wifiMacFreeSta memory sta (listDelInit sta table)).ntNsta = rest ++ left := by
      rw [stays]
      show table.ntNsta.erase sta = rest ++ left
      rw [linked, List.cons_append, List.erase_cons_head]
    obtain ⟨last, none, same, same', same''⟩ := induction next shorter (wds'.trans wds)
      fun other listed => room other (.tail _ listed)
    exact ⟨last, none, same.trans work, same'.trans inited, same''.trans exit⟩

theorem Live.stationDetach {memory : Nat → Bool} (live : Live table) (walkable : table.Walkable)
    (room : ∀ sta ∈ table.ntNsta, memory sta = true) (idle : table.pending = [])
    (seen : ∀ wds ∈ table.ntWdsHash, table.Seen wds) :
    Gone (wifiMacStationDetach memory table) := by
  have cleared : table.ntWdsHash.diff table.buckets = [] := by
    refine List.eq_nil_iff_forall_not_mem.mpr fun wds listed => ?_
    obtain ⟨kept, missed⟩ := (live.held.single.nodup.mem_sdiff_iff).mp listed
    exact missed (seen wds kept).mem_buckets
  have begun : Held [] { table with
      wmMacExit := true, wmFreeTimer := false, ntInited := false, ntWdsHash := [] } :=
    ⟨live.held.placed, nofun, live.held.main, List.nodup_nil, fun some => absurd rfl some, nofun,
      live.held.unlinked⟩
  have whole : table.walk = table.ntNsta := List.take_of_length_le walkable
  unfold wifiMacStationDetach wifiMacClearStaTable
  rw [if_neg (by simp [live.inited])]
  rw [show StaTable.walk { table with wmMacExit := true, wmFreeTimer := false } =
    table.ntNsta from whole]
  dsimp only
  rw [show StaTable.buckets { table with wmMacExit := true, wmFreeTimer := false } =
    table.buckets from rfl, cleared]
  obtain ⟨cleared, none, work, inited, exit⟩ :=
    clear_loop begun (List.append_nil _).symm rfl room
  dsimp only at cleared none work inited exit ⊢
  obtain ⟨linked, work', inited', exit'⟩ := freeStaNow_frame
    (table.ntNsta.foldl (fun table sta => wifiMacFreeSta memory sta (listDelInit sta table))
      { table with wmMacExit := true, wmFreeTimer := false, ntInited := false, ntWdsHash := [] })
  refine ⟨Held.freeAll cleared, inited'.trans inited, exit'.trans exit, rfl, linked.trans none, ?_⟩
  unfold StaTable.pending
  rw [work', work]
  exact idle

end Free

end W522a.Lifetime
