import W522a.Ap.AidLaw
import W522a.Ap.ProtectCount

/-!
The counters for older rules and the stations of the table: what a station that is written, comes or
goes does to their agreement.
-/

namespace W522a.Ap

def isCounted (mode : Nat) (counter : ProtCounter) (sta : ApSta) : Bool :=
  decide (sta.staAssocid ≠ 0) && inClass mode sta counter

def tally (mode : Nat) (table : List ApSta) (counter : ProtCounter) : Nat :=
  table.countP (isCounted mode counter)

/-- The counters and the modes that follow are those of the associated stations. -/
structure ProtLawful (ap : ApVif) : Prop where
  counted : ∀ counter, ap.mac.counter counter = tally ap.vmMacMode ap.ntNsta counter
  slot : ap.mac.shslot = true ↔ ap.vmMacMode ≠ 1 ∧ ap.mac.capShslot = true ∧
    ∀ sta ∈ ap.ntNsta, sta.staAssocid ≠ 0 → shortSlottime sta.staCapinfo = true
  erp : ap.mac.useprot = true ↔ ap.mac.protNone = false ∧
    ∃ sta ∈ ap.ntNsta, sta.staAssocid ≠ 0 ∧ wifiMacIserpRateset sta.staRates = false
  ht : ap.mac.wmHtProtSm =
    if ap.ntNsta.any (isCounted ap.vmMacMode .nonHt) then htinfoOpmodeMixedProtAll
    else if ap.mac.nonhtAp then htinfoOpmodeMixedProtOpt
    else htinfoOpmodePure

/-- The counters are those of the associated stations, and the modes follow from the counters. -/
structure ProtCounted (ap : ApVif) : Prop where
  counted : ∀ counter, ap.mac.counter counter = tally ap.vmMacMode ap.ntNsta counter
  flags : MacFlags ap.vmMacMode ap.mac

private theorem isCounted_iff {mode : Nat} {counter : ProtCounter} {sta : ApSta} :
    isCounted mode counter sta = true ↔ sta.staAssocid ≠ 0 ∧ inClass mode sta counter = true := by
  rw [isCounted, Bool.and_eq_true, decide_eq_true_eq]

theorem tally_cons (mode : Nat) (sta : ApSta) (rest : List ApSta) (counter : ProtCounter) :
    tally mode (sta :: rest) counter =
      tally mode rest counter + if isCounted mode counter sta then 1 else 0 :=
  List.countP_cons

theorem tally_perm {mode : Nat} {table other : List ApSta} (same : table.Perm other)
    (counter : ProtCounter) : tally mode table counter = tally mode other counter :=
  same.countP_eq _

theorem tally_zero {mode : Nat} {table : List ApSta} {counter : ProtCounter} :
    tally mode table counter = 0 ↔ ∀ sta ∈ table, isCounted mode counter sta = false := by
  rw [tally, List.countP_eq_zero]
  simp only [Bool.not_eq_true]

private theorem tally_le_held (mode : Nat) (table : List ApSta) (counter : ProtCounter) :
    tally mode table counter ≤ (held table).length := by
  rw [length_held]
  refine List.countP_mono_left fun sta _ counted => ?_
  exact decide_eq_true (isCounted_iff.mp counted).1

theorem protLawful_iff {ap : ApVif} : ProtLawful ap ↔ ProtCounted ap := by
  have slots (counted : ∀ counter, ap.mac.counter counter =
      tally ap.vmMacMode ap.ntNsta counter) : ap.mac.wmLongslotsta = 0 ↔
        ∀ sta ∈ ap.ntNsta, sta.staAssocid ≠ 0 → shortSlottime sta.staCapinfo = true := by
    rw [show ap.mac.wmLongslotsta = tally _ _ .longslot from counted .longslot, tally_zero]
    refine forall₂_congr fun sta _ => ?_
    by_cases assoc : sta.staAssocid = 0 <;> simp [isCounted, inClass, assoc]
  have erps (counted : ∀ counter, ap.mac.counter counter =
      tally ap.vmMacMode ap.ntNsta counter) : ap.mac.wmNonerpsta ≠ 0 ↔
        ∃ sta ∈ ap.ntNsta, sta.staAssocid ≠ 0 ∧ wifiMacIserpRateset sta.staRates = false := by
    rw [show ap.mac.wmNonerpsta = tally _ _ .nonerp from counted .nonerp, ne_eq, tally_zero]
    push Not
    refine exists_congr fun sta => and_congr_right fun _ => ?_
    by_cases assoc : sta.staAssocid = 0 <;> simp [isCounted, inClass, assoc]
  have hts (counted : ∀ counter, ap.mac.counter counter =
      tally ap.vmMacMode ap.ntNsta counter) : ap.mac.wmNonHtSta ≠ 0 ↔
        ap.ntNsta.any (isCounted ap.vmMacMode .nonHt) = true := by
    rw [show ap.mac.wmNonHtSta = tally _ _ .nonHt from counted .nonHt, ne_eq, tally_zero,
      List.any_eq_true]
    push Not
    simp only [Bool.not_eq_false]
  constructor
  · intro lawful
    refine ⟨lawful.counted, ?_, ?_, ?_⟩
    · rw [slots lawful.counted]
      exact lawful.slot
    · rw [erps lawful.counted]
      exact lawful.erp
    · rw [lawful.ht, htProtMode]
      simp only [hts lawful.counted]
  · intro right
    refine ⟨right.counted, ?_, ?_, ?_⟩
    · rw [← slots right.counted]
      exact right.flags.slot
    · rw [← erps right.counted]
      exact right.flags.erp
    · rw [right.flags.ht, htProtMode]
      simp only [hts right.counted]

/-- The ERP mark of a station: that of its rates once it is associated in a mode with 11g, and before
that none. -/
structure ErpKept (mode : Nat) (sta : ApSta) : Prop where
  assoc : sta.staAssocid ≠ 0 → wifinetInclude11g mode = true →
    sta.nodeErp = wifiMacIserpRateset sta.staRates
  free : sta.staAssocid = 0 → sta.nodeErp = false

/-- An access point whose counters are right. -/
structure ProtKept (ap : ApVif) : Prop where
  aids : ∃ leaked, AidKept ap leaked
  erp : ∀ sta ∈ ap.ntNsta, ErpKept ap.vmMacMode sta
  right : ProtCounted ap

/-- A step keeps the counters right exactly under a condition, and then the marks too. -/
structure ProtStep (next : ApVif) (fine : Prop) : Prop where
  right : ProtCounted next ↔ fine
  erp : fine → ∀ sta ∈ next.ntNsta, ErpKept next.vmMacMode sta

theorem ProtStep.congr {next : ApVif} {fine other : Prop} (step : ProtStep next fine)
    (same : fine ↔ other) : ProtStep next other :=
  ⟨step.right.trans same, fun met => step.erp (same.mpr met)⟩

theorem ProtKept.step {ap : ApVif} (kept : ProtKept ap) : ProtStep ap True :=
  ⟨iff_true_intro kept.right, fun _ => kept.erp⟩

section Table

variable {ap next : ApVif} {leaked : List Nat} {sta old : ApSta} {mode : Nat}
  {counter : ProtCounter}

private theorem AidKept.tally_le (kept : AidKept ap leaked) (mode : Nat) (counter : ProtCounter) :
    tally mode ap.ntNsta counter ≤ 16 := by
  have bound := kept.pool.length_le
  rw [List.length_append] at bound
  have held := tally_le_held mode ap.ntNsta counter
  omega

theorem ProtKept.few (kept : ProtKept ap) (counter : ProtCounter) :
    ap.mac.counter counter ≤ 16 := by
  obtain ⟨leaked, aids⟩ := kept.aids
  rw [kept.right.counted]
  exact aids.tally_le ap.vmMacMode counter

/-- The classes of a station depend on four things of it. -/
theorem inClass_congr (capinfo : sta.staCapinfo = old.staCapinfo)
    (rates : sta.staRates = old.staRates) (ht : sta.nodeHt = old.nodeHt)
    (chbw : sta.staChbw = old.staChbw) (counter : ProtCounter) :
    inClass mode sta counter = inClass mode old counter := by
  cases counter with
  | longslot => rw [inClass, inClass, capinfo]
  | nonerp => rw [inClass, inClass, rates]
  | nonHt => rw [inClass, inClass, nonHt, nonHt, ht]
  | ht20 => rw [inClass, inClass, ht20, ht20, ht, chbw]

theorem inClass_same (same : SameRules sta old) (counter : ProtCounter) :
    inClass mode sta counter = inClass mode old counter :=
  inClass_congr same.capinfo same.rates same.ht same.chbw counter

theorem isCounted_congr (same : sta.staAssocid = old.staAssocid)
    (classes : old.staAssocid ≠ 0 → inClass mode sta counter = inClass mode old counter) :
    isCounted mode counter sta = isCounted mode counter old := by
  rw [isCounted, isCounted, same]
  by_cases free : old.staAssocid = 0
  · rw [decide_eq_false (not_not.mpr free), Bool.false_and, Bool.false_and]
  · rw [classes free]

theorem ErpKept.same (erp : ErpKept mode old) (same : SameRules sta old) : ErpKept mode sta := by
  constructor
  · rw [same.associd, same.erp, same.rates]
    exact erp.assoc
  · rw [same.associd, same.erp]
    exact erp.free

/-- The table with a station, whose classes count, and the rest. -/
theorem tally_take (distinct : Keyed.Distinct ApSta.staMacaddr ap.ntNsta)
    (found : ap.getSta old.staMacaddr = some old) (mode : Nat) (counter : ProtCounter) :
    tally mode ap.ntNsta counter =
      tally mode (Keyed.remove ApSta.staMacaddr ap.ntNsta old.staMacaddr) counter +
        if isCounted mode counter old then 1 else 0 := by
  rw [tally_perm (Keyed.perm_remove distinct found), tally_cons]

theorem tally_put (distinct : Keyed.Distinct ApSta.staMacaddr next.ntNsta)
    (present : next.getSta sta.staMacaddr ≠ none) (mode : Nat) (counter : ProtCounter) :
    tally mode (next.put sta).ntNsta counter =
      tally mode (Keyed.remove ApSta.staMacaddr next.ntNsta sta.staMacaddr) counter +
        if isCounted mode counter sta then 1 else 0 := by
  have after : (next.put sta).ntNsta.Perm
      (sta :: Keyed.remove ApSta.staMacaddr next.ntNsta sta.staMacaddr) :=
    Keyed.perm_replace distinct present
  rw [tally_perm after, tally_cons]

theorem mem_put (distinct : Keyed.Distinct ApSta.staMacaddr next.ntNsta)
    (present : next.getSta sta.staMacaddr ≠ none) {other : ApSta}
    (member : other ∈ (next.put sta).ntNsta) : other = sta ∨ other ∈ next.ntNsta := by
  have after : (next.put sta).ntNsta.Perm
      (sta :: Keyed.remove ApSta.staMacaddr next.ntNsta sta.staMacaddr) :=
    Keyed.perm_replace distinct present
  rcases List.mem_cons.mp (after.mem_iff.mp member) with rfl | rest
  · exact Or.inl rfl
  · exact Or.inr (Keyed.mem_remove.mp rest).1

private theorem bit_inj {first second : Bool} {rest : Nat} :
    rest + (if first then 1 else 0) = rest + (if second then 1 else 0) ↔ first = second := by
  cases first <;> cases second <;> simp

/-- A station is written and the radio is not: the counters stay right exactly when its classes do. -/
theorem ProtKept.put (kept : ProtKept ap) (found : ap.getSta old.staMacaddr = some old)
    (same : SameHolder sta old) (erp : sta.nodeErp = old.nodeErp)
    (table : next.ntNsta = ap.ntNsta) (mode : next.vmMacMode = ap.vmMacMode)
    (counters : ∀ counter, next.mac.counter counter = ap.mac.counter counter)
    (flags : MacFlags ap.vmMacMode next.mac) :
    ProtStep (next.put sta) (old.staAssocid ≠ 0 → ∀ counter,
      inClass ap.vmMacMode sta counter = inClass ap.vmMacMode old counter) := by
  obtain ⟨leaked, aids⟩ := kept.aids
  have distinct : Keyed.Distinct ApSta.staMacaddr next.ntNsta := table ▸ aids.distinct
  have present : next.getSta sta.staMacaddr ≠ none := by
    rw [ApVif.getSta, table, same.macaddr]
    exact fun absent => Option.some_ne_none old (found.symm.trans absent)
  have counted (counter : ProtCounter) : (next.put sta).mac.counter counter =
      tally ap.vmMacMode (next.put sta).ntNsta counter ↔
        isCounted ap.vmMacMode counter old = isCounted ap.vmMacMode counter sta := by
    rw [tally_put distinct present, table, same.macaddr,
      show (next.put sta).mac.counter counter = ap.mac.counter counter from counters counter,
      kept.right.counted, tally_take aids.distinct found]
    exact bit_inj
  have classes : (∀ counter, isCounted ap.vmMacMode counter old =
      isCounted ap.vmMacMode counter sta) ↔ (old.staAssocid ≠ 0 → ∀ counter,
        inClass ap.vmMacMode sta counter = inClass ap.vmMacMode old counter) := by
    constructor
    · intro alike assoc counter
      have both := alike counter
      rw [isCounted, isCounted, same.associd, decide_eq_true assoc, Bool.true_and,
        Bool.true_and] at both
      exact both.symm
    · intro alike counter
      exact (isCounted_congr same.associd fun assoc => alike assoc counter).symm
  have modes : (next.put sta).vmMacMode = ap.vmMacMode := mode
  refine ⟨?_, fun alike other member => ?_⟩
  · rw [← classes]
    constructor
    · intro right counter
      have mine := right.counted counter
      rw [modes] at mine
      exact (counted counter).mp mine
    · intro alike
      refine ⟨fun counter => ?_, ?_⟩
      · rw [modes]
        exact (counted counter).mpr (alike counter)
      · rw [modes]
        exact flags
  · rw [modes]
    rcases mem_put distinct present member with rfl | before
    · have mine := kept.erp old (Keyed.mem_of_find found)
      constructor
      · intro assoc g
        rw [same.associd] at assoc
        have rates := alike assoc .nonerp
        rw [inClass, inClass] at rates
        rw [erp, mine.assoc assoc g]
        simpa using rates.symm
      · rw [same.associd, erp]
        exact mine.free
    · exact kept.erp other (table ▸ before)

theorem ProtKept.putSame (kept : ProtKept ap) (found : ap.getSta old.staMacaddr = some old)
    (same : SameRules sta old) : ProtStep (ap.put sta) True :=
  (kept.put found same.toSameHolder same.erp rfl rfl (fun _ => rfl) kept.right.flags).congr
    (iff_true_intro fun _ counter => inClass_same same counter)

theorem ProtKept.concat (kept : ProtKept ap) (free : sta.staAssocid = 0)
    (erp : sta.nodeErp = false) :
    ProtStep { ap with ntNsta := ap.ntNsta ++ [sta] } True := by
  have uncounted (counter : ProtCounter) :
      tally ap.vmMacMode (ap.ntNsta ++ [sta]) counter = tally ap.vmMacMode ap.ntNsta counter := by
    rw [tally, List.countP_append, List.countP_singleton, isCounted,
      decide_eq_false (not_not.mpr free)]
    rfl
  refine ⟨iff_true_intro ⟨fun counter => ?_, kept.right.flags⟩, fun _ other member => ?_⟩
  · exact (kept.right.counted counter).trans (uncounted counter).symm
  · rcases List.mem_append.mp member with before | last
    · exact kept.erp other before
    · rw [List.mem_singleton.mp last]
      exact ⟨fun assoc => absurd free assoc, fun _ => erp⟩

end Table

section Leave

variable {ap next : ApVif} {sta old : ApSta} {mode : Nat}

private theorem nstaCleanup_radio (ap : ApVif) (sta : ApSta) :
    (nstaCleanup ap sta).1.mac = ap.mac ∧ (nstaCleanup ap sta).1.vmMacMode = ap.vmMacMode := by
  unfold nstaCleanup
  have counted :
      (if sta.nodePwrMgt then { ap with vmPsSta := (ap.vmPsSta + 65535) % 65536 } else ap).mac =
          ap.mac ∧
        (if sta.nodePwrMgt then { ap with vmPsSta := (ap.vmPsSta + 65535) % 65536 }
          else ap).vmMacMode = ap.vmMacMode := by
    split
    · exact ⟨rfl, rfl⟩
    · exact ⟨rfl, rfl⟩
  dsimp only
  split
  · exact counted
  · exact counted

theorem wifiMacFreeSta_radio (ap : ApVif) (sta : ApSta) (lacksMemory : Bool) :
    (wifiMacFreeSta ap sta lacksMemory).mac = ap.mac ∧
      (wifiMacFreeSta ap sta lacksMemory).vmMacMode = ap.vmMacMode := by
  unfold wifiMacFreeSta
  split
  · exact ⟨rfl, rfl⟩
  · dsimp only
    obtain ⟨mac, mode⟩ := nstaCleanup_radio
      (if ap.vmMainsta = some sta.staMacaddr then { ap with vmMainsta := none } else ap) sta
    rw [mac, mode]
    split
    · exact ⟨rfl, rfl⟩
    · exact ⟨rfl, rfl⟩

/-- A station that leaves as another one would. -/
structure SameLeave (mode : Nat) (sta old : ApSta) : Prop extends SameHolder sta old where
  slot : old.staAssocid ≠ 0 → wifinetInclude11g mode = true →
    shortSlottime sta.staCapinfo = shortSlottime old.staCapinfo
  erp : sta.nodeErp = old.nodeErp
  ht : sta.nodeHt = old.nodeHt
  chbw : sta.staChbw = old.staChbw

theorem SameRules.leave (same : SameRules sta old) (mode : Nat) : SameLeave mode sta old :=
  ⟨same.toSameHolder, fun _ _ => by rw [same.capinfo], same.erp, same.ht, same.chbw⟩

/-- An associated station may go: the counters of its classes are written, and no foreign non-ERP
station keeps the protection on that it was the last to need. -/
structure LeaveFine (mode : Nat) (mac : WifiMac) (sta : ApSta) (quiet : Bool) : Prop where
  tracks : ∀ counter, inClass mode sta counter = true → tracked mode mac counter = true
  calm : inClass mode sta .nonerp = true → mac.wmNonerpsta = 1 → mac.protNone = false →
    quiet = true

theorem moves_eq_iff {mac : WifiMac} {counter : ProtCounter} :
    moves mode mac sta counter = (if inClass mode sta counter then 1 else 0) ↔
      (inClass mode sta counter = true → tracked mode mac counter = true) := by
  rw [moves]
  cases inClass mode sta counter <;> cases tracked mode mac counter <;> simp

theorem disconnectFromAp_radio (ap : ApVif) (sta : ApSta) (env : LeaveEnv) :
    (wifiMacStaDisconnectFromAp ap sta env).vmMacMode = ap.vmMacMode ∧
      (wifiMacStaDisconnectFromAp ap sta env).ntNsta =
        Keyed.remove ApSta.staMacaddr ap.ntNsta sta.staMacaddr ∧
      (sta.staAssocid = 0 → (wifiMacStaDisconnectFromAp ap sta env).mac = ap.mac) ∧
      (sta.staAssocid ≠ 0 → (wifiMacStaDisconnectFromAp ap sta env).mac =
        leaveProtection ap sta env.quiet) := by
  unfold wifiMacStaDisconnectFromAp
  dsimp only
  obtain ⟨radio, mode⟩ := wifiMacFreeSta_radio
    ((wifiMacStaDisconnect ap sta env.quiet).1.listDel sta.staMacaddr)
    (wifiMacStaDisconnect ap sta env.quiet).2 env.lacksMemory
  rw [radio, mode, (wifiMacFreeSta_frame _ _ _).table]
  unfold wifiMacStaDisconnect
  by_cases free : sta.staAssocid = 0
  · rw [if_pos free]
    exact ⟨rfl, rfl, fun _ => rfl, fun assoc => absurd free assoc⟩
  · rw [if_neg free]
    exact ⟨rfl, rfl, fun none => absurd none free, fun _ => rfl⟩

/-- The radio that a station leaves is the one it was in, but for a new beacon. -/
theorem leaveProtection_cases (ap : ApVif) (sta old : ApSta) (quiet : Bool) :
    ∃ mac, leaveProtection ap sta quiet = leaveMac ap.vmMacMode mac sta quiet ∧
      (∀ counter, mac.counter counter = ap.mac.counter counter) ∧ SameRadio mac ap.mac ∧
      (MacFlags ap.vmMacMode mac ↔ MacFlags ap.vmMacMode ap.mac) ∧
      ∀ counter, moves ap.vmMacMode mac old counter = moves ap.vmMacMode ap.mac old counter := by
  unfold leaveProtection
  by_cases intolerant : (sta.nodeHt && sta.node40Intolerant) = true
  · rw [if_pos intolerant]
    exact ⟨_, rfl, wifiMacChangeCbw_same ap.vmMacMode ap.mac old⟩
  · rw [if_neg intolerant]
    exact ⟨_, rfl, fun _ => rfl, SameRadio.refl _, Iff.rfl, fun _ => rfl⟩

/-- A station of the table leaves: the counters stay right exactly when it may. -/
theorem ProtKept.leave (kept : ProtKept ap) (found : ap.getSta old.staMacaddr = some old)
    (same : SameLeave ap.vmMacMode sta old) (env : LeaveEnv) :
    ProtStep (wifiMacStaDisconnectFromAp ap sta env)
      (old.staAssocid ≠ 0 → LeaveFine ap.vmMacMode ap.mac old env.quiet) := by
  obtain ⟨leaked, aids⟩ := kept.aids
  obtain ⟨mode, table, idle, leaves⟩ := disconnectFromAp_radio ap sta env
  have split := tally_take aids.distinct found ap.vmMacMode
  have erps : ∀ other ∈ (wifiMacStaDisconnectFromAp ap sta env).ntNsta,
      ErpKept (wifiMacStaDisconnectFromAp ap sta env).vmMacMode other := by
    rw [table, mode]
    exact fun other member => kept.erp other (Keyed.mem_remove.mp member).1
  refine ⟨?_, fun _ => erps⟩
  have counted : (∀ counter, (wifiMacStaDisconnectFromAp ap sta env).mac.counter counter =
      tally ap.vmMacMode (Keyed.remove ApSta.staMacaddr ap.ntNsta old.staMacaddr) counter) ∧
        MacFlags ap.vmMacMode (wifiMacStaDisconnectFromAp ap sta env).mac ↔
      (old.staAssocid ≠ 0 → LeaveFine ap.vmMacMode ap.mac old env.quiet) := by
    by_cases free : old.staAssocid = 0
    · rw [idle (same.associd.trans free)]
      refine iff_of_true ⟨fun counter => ?_, kept.right.flags⟩ fun assoc => absurd free assoc
      rw [kept.right.counted, split, isCounted, decide_eq_false (not_not.mpr free),
        Bool.false_and]
      rfl
    · obtain ⟨mac, left, counters, radio, flags, moved⟩ :=
        leaveProtection_cases ap sta old env.quiet
      have classes (counter : ProtCounter) : isCounted ap.vmMacMode counter old =
          inClass ap.vmMacMode old counter := by
        rw [isCounted, decide_eq_true free, Bool.true_and]
      have total (counter : ProtCounter) : mac.counter counter =
          tally ap.vmMacMode (Keyed.remove ApSta.staMacaddr ap.ntNsta old.staMacaddr) counter +
            if inClass ap.vmMacMode old counter then 1 else 0 := by
        rw [counters, kept.right.counted, split, classes]
      have some (counter : ProtCounter) (moves : moves ap.vmMacMode mac old counter = 1) :
          0 < mac.counter counter := by
        rw [total, inClass_of_moves moves]
        exact Nat.succ_pos _
      obtain ⟨counts, -, modes⟩ := leaveMac_spec env.quiet
        ((kept.erp old (Keyed.mem_of_find found)).assoc free) some
        (fun counter => by
          have few := kept.few counter
          rw [counters]
          omega)
      rw [leaves fun none => free (same.associd.symm.trans none), left,
        leaveMac_congr env.quiet (same.slot free) same.erp same.ht same.chbw,
        modes (flags.mpr kept.right.flags)]
      have tracks : (∀ counter, (leaveMac ap.vmMacMode mac old env.quiet).counter counter =
          tally ap.vmMacMode (Keyed.remove ApSta.staMacaddr ap.ntNsta old.staMacaddr) counter) ↔
            ∀ counter, inClass ap.vmMacMode old counter = true →
              tracked ap.vmMacMode ap.mac counter = true := by
        refine forall_congr' fun counter => ?_
        rw [counts, total, moved, ← moves_eq_iff]
        rcases moves_cases ap.vmMacMode ap.mac old counter with same | one
        · rw [same]
          cases inClass ap.vmMacMode old counter <;> simp
        · rw [one, inClass_of_moves one]
          simp
      rw [tracks, moved, show mac.wmNonerpsta = ap.mac.wmNonerpsta from counters .nonerp,
        radio.protNone]
      constructor
      · rintro ⟨tracks, calm⟩ -
        refine ⟨tracks, fun nonerp => calm ?_⟩
        rw [moves, nonerp, tracks .nonerp nonerp]
        rfl
      · intro fine
        exact ⟨(fine free).tracks, fun moving => (fine free).calm (inClass_of_moves moving)⟩
  rw [← counted]
  constructor
  · intro right
    rw [← mode]
    exact ⟨fun counter => by
      rw [right.counted, table, same.macaddr], right.flags⟩
  · rintro ⟨counters, flags⟩
    rw [← mode] at flags
    refine ⟨fun counter => ?_, flags⟩
    rw [counters, table, mode, same.macaddr]

end Leave

section Join

variable {ap : ApVif} {sta old : ApSta} {mode : Nat} {mac : WifiMac}

/-- The station as `wifi_mac_sta_connect` counts it: an HT one that does not stand 40 MHz is
narrowed. -/
def narrowed (sta : ApSta) : ApSta :=
  if sta.nodeHt && sta.node40Intolerant then
    { sta with staChbw := wifinetBwcWidth20, htcapCbw40 := false }
  else sta

/-- A station may come: the counters of its classes are written. -/
def JoinFine (mode : Nat) (mac : WifiMac) (sta : ApSta) : Prop :=
  ∀ counter, inClass mode (narrowed sta) counter = true → tracked mode mac counter = true

/-- A station may come and go at once: no foreign non-ERP station keeps the protection on that it
alone needed. -/
def ReturnFine (mode : Nat) (mac : WifiMac) (sta : ApSta) (quiet : Bool) : Prop :=
  moves mode mac sta .nonerp = 1 → mac.wmNonerpsta = 0 → mac.protNone = false → quiet = true

/-- The operating mode depends on two things of a station. -/
theorem htProt_congr (mode : Nat) (mac : WifiMac) (flag : HtProtUpdate)
    (ht : sta.nodeHt = old.nodeHt) (chbw : sta.staChbw = old.staChbw) :
    wifiMacHtProt mac mode sta flag = wifiMacHtProt mac mode old flag := by
  rw [wifiMacHtProt, wifiMacHtProt, nonHt, nonHt, ht20, ht20, ht, chbw]

theorem initParam_sta (mac : WifiMac) (sta : ApSta) :
    (wifiMac11gInitParam mac sta).2 =
      { sta with nodeErp := wifiMacIserpRateset sta.staRates || sta.nodeErp } := by
  unfold wifiMac11gInitParam
  dsimp only
  cases wifiMacIserpRateset sta.staRates <;> rfl

private theorem joinProtection_sta (ap : ApVif) (sta : ApSta) :
    (joinProtection ap sta).2 = { narrowed sta with
      nodeErp := wifinetInclude11g ap.vmMacMode && wifiMacIserpRateset sta.staRates ||
        sta.nodeErp } := by
  have older (next : ApVif) (other : ApSta) (same : next.vmMacMode = ap.vmMacMode) :
      (if wifinetInclude11g next.vmMacMode then wifiMac11gInitParam next.mac other
        else (next.mac, other)).2 = { other with
          nodeErp := wifinetInclude11g ap.vmMacMode && wifiMacIserpRateset other.staRates ||
            other.nodeErp } := by
    rw [same]
    cases wifinetInclude11g ap.vmMacMode with
    | true => exact initParam_sta next.mac other
    | false => rfl
  unfold joinProtection narrowed
  by_cases intolerant : (sta.nodeHt && sta.node40Intolerant) = true
  · rw [if_pos intolerant, if_pos intolerant]
    exact older { ap with
      vmBandwidth := wifinetBwcWidth20
      mac := wifiMacChangeCbw ap.mac } _ rfl
  · rw [if_neg intolerant, if_neg intolerant]
    exact older ap sta rfl

/-- The radio after a station came, but for a new beacon. -/
theorem joinProtection_radio (ap : ApVif) (sta : ApSta) :
    (joinProtection ap sta).1.vmMacMode = ap.vmMacMode ∧
    (joinProtection ap sta).1.ntNsta = ap.ntNsta ∧
    ∃ mac, (joinProtection ap sta).1.mac = joinMac ap.vmMacMode mac (narrowed sta) ∧
      (∀ counter, mac.counter counter = ap.mac.counter counter) ∧ SameRadio mac ap.mac ∧
      (MacFlags ap.vmMacMode mac ↔ MacFlags ap.vmMacMode ap.mac) ∧
      ∀ counter, moves ap.vmMacMode mac (narrowed sta) counter =
        moves ap.vmMacMode ap.mac (narrowed sta) counter := by
  have older (mac : WifiMac) (other : ApSta) :
      wifiMacHtProt (if wifinetInclude11g ap.vmMacMode then wifiMac11gInitParam mac other
        else (mac, other)).1 ap.vmMacMode (if wifinetInclude11g ap.vmMacMode then
          wifiMac11gInitParam mac other else (mac, other)).2 .staConnect =
        joinMac ap.vmMacMode mac other := by
    unfold joinMac
    cases wifinetInclude11g ap.vmMacMode with
    | true =>
      have ht := congrArg ApSta.nodeHt (initParam_sta mac other)
      have chbw := congrArg ApSta.staChbw (initParam_sta mac other)
      exact htProt_congr _ _ _ ht chbw
    | false => rfl
  unfold joinProtection narrowed
  by_cases intolerant : (sta.nodeHt && sta.node40Intolerant) = true
  · rw [if_pos intolerant, if_pos intolerant]
    exact ⟨rfl, rfl, _, older _ _, wifiMacChangeCbw_same _ _ _⟩
  · rw [if_neg intolerant, if_neg intolerant]
    exact ⟨rfl, rfl, _, older _ _, fun _ => rfl, SameRadio.refl _, Iff.rfl, fun _ => rfl⟩

theorem moves_congr (classes : ∀ counter, inClass mode sta counter = inClass mode old counter)
    (counter : ProtCounter) : moves mode mac sta counter = moves mode mac old counter := by
  rw [moves, moves, classes]

private theorem inClass_narrowed (mode : Nat) (sta : ApSta) (associd : Nat)
    (counter : ProtCounter) :
    inClass mode (narrowed { sta with staAssocid := associd }) counter =
      inClass mode (narrowed sta) counter := by
  unfold narrowed
  dsimp only
  split <;> exact inClass_congr rfl rfl rfl rfl counter

theorem moves_narrowed (mode : Nat) (mac : WifiMac) (sta : ApSta) :
    moves mode mac (narrowed sta) .nonerp = moves mode mac sta .nonerp := by
  unfold narrowed
  split <;> rfl

/-- What is known of a station that got its association id: its classes, its mark, and the counters
that it moved. -/
structure Joined (ap next : ApVif) (sta joined : ApSta) : Prop where
  mode : next.vmMacMode = ap.vmMacMode
  table : next.ntNsta = ap.ntNsta
  counters : ∀ counter, next.mac.counter counter =
    ap.mac.counter counter + moves ap.vmMacMode ap.mac (narrowed sta) counter
  radio : SameRadio next.mac ap.mac
  flags : MacFlags ap.vmMacMode next.mac
  name : joined.staMacaddr = sta.staMacaddr
  assoc : joined.staAssocid ≠ 0
  classes : ∀ counter, inClass ap.vmMacMode joined counter =
    inClass ap.vmMacMode (narrowed sta) counter
  erp : joined.nodeErp =
    (wifinetInclude11g ap.vmMacMode && wifiMacIserpRateset joined.staRates)

theorem Joined.same {next : ApVif} {joined other : ApSta} (join : Joined ap next sta joined)
    (same : SameRules other joined) : Joined ap next sta other := by
  refine ⟨join.mode, join.table, join.counters, join.radio, join.flags,
    same.macaddr.trans join.name, ?_, fun counter => ?_, ?_⟩
  · rw [same.associd]
    exact join.assoc
  · exact (inClass_same same counter).trans (join.classes counter)
  · rw [same.erp, same.rates]
    exact join.erp

theorem ProtKept.joins (kept : ProtKept ap) (found : ap.getSta sta.staMacaddr = some sta)
    (free : sta.staAssocid = 0) {aid : Nat} (below : aid < 17) :
    Joined ap (joinProtection (grantAid ap sta aid).1 (grantAid ap sta aid).2).1 sta
      (joinProtection (grantAid ap sta aid).1 (grantAid ap sta aid).2).2 := by
  obtain ⟨mode, table, mac, radio, counters, same, flags, moved⟩ :=
    joinProtection_radio (grantAid ap sta aid).1 (grantAid ap sta aid).2
  have granted : (joinProtection (grantAid ap sta aid).1 (grantAid ap sta aid).2).2 =
      { narrowed (grantAid ap sta aid).2 with
        nodeErp := wifinetInclude11g ap.vmMacMode && wifiMacIserpRateset sta.staRates ||
          sta.nodeErp } :=
    joinProtection_sta _ _
  have mark : sta.nodeErp = false := (kept.erp sta (Keyed.mem_of_find found)).free free
  obtain ⟨counts, kind, follow⟩ := joinMac_spec ap.vmMacMode mac
    (narrowed (grantAid ap sta aid).2) fun counter => by
      have few := kept.few counter
      rw [counters]
      exact Nat.lt_of_le_of_lt few (by decide)
  have rates : (narrowed (grantAid ap sta aid).2).staRates = sta.staRates := by
    unfold narrowed
    split <;> rfl
  refine ⟨mode, table, fun counter => ?_, ?_, ?_, ?_, ?_, fun counter => ?_, ?_⟩
  · rw [radio]
    refine (counts counter).trans ?_
    rw [counters]
    refine congrArg (ap.mac.counter counter + ·) ((moved counter).trans ?_)
    exact moves_congr (inClass_narrowed ap.vmMacMode sta (aid ||| 0xc000)) counter
  · rw [radio]
    exact kind.trans same
  · rw [radio]
    exact follow (flags.mpr kept.right.flags)
  · rw [granted]
    unfold narrowed
    dsimp only
    split <;> rfl
  · rw [granted]
    have nonzero := (wifinetAid_granted below).2
    unfold narrowed
    dsimp only
    split <;> exact nonzero
  · rw [granted]
    refine Eq.trans ?_ (inClass_narrowed ap.vmMacMode sta (aid ||| 0xc000) counter)
    exact inClass_congr rfl rfl rfl rfl counter
  · rw [granted]
    dsimp only
    rw [rates, mark, Bool.or_false]

/-- The station that joined is written: the counters are right exactly when it may come. -/
theorem Joined.put {next : ApVif} {joined : ApSta} (kept : ProtKept ap)
    (found : ap.getSta sta.staMacaddr = some sta) (free : sta.staAssocid = 0)
    (join : Joined ap next sta joined) :
    ProtStep (next.put joined) (JoinFine ap.vmMacMode ap.mac sta) := by
  obtain ⟨leaked, aids⟩ := kept.aids
  have distinct : Keyed.Distinct ApSta.staMacaddr next.ntNsta := join.table ▸ aids.distinct
  have present : next.getSta joined.staMacaddr ≠ none := by
    rw [ApVif.getSta, join.table, join.name]
    exact fun absent => Option.some_ne_none sta (found.symm.trans absent)
  have modes : (next.put joined).vmMacMode = ap.vmMacMode := join.mode
  have counted (counter : ProtCounter) : (next.put joined).mac.counter counter =
      tally ap.vmMacMode (next.put joined).ntNsta counter ↔
        (inClass ap.vmMacMode (narrowed sta) counter = true →
          tracked ap.vmMacMode ap.mac counter = true) := by
    have counts : isCounted ap.vmMacMode counter joined =
        inClass ap.vmMacMode (narrowed sta) counter := by
      rw [isCounted, decide_eq_true join.assoc, Bool.true_and, join.classes]
    have before : isCounted ap.vmMacMode counter sta = false := by
      rw [isCounted, decide_eq_false (not_not.mpr free), Bool.false_and]
    rw [tally_put distinct present, join.table, join.name,
      show (next.put joined).mac.counter counter = _ from join.counters counter,
      kept.right.counted, tally_take aids.distinct found, counts, before, ← moves_eq_iff]
    exact Nat.add_left_cancel_iff
  refine ⟨?_, fun _ other member => ?_⟩
  · constructor
    · intro right counter
      have mine := right.counted counter
      rw [modes] at mine
      exact (counted counter).mp mine
    · intro fine
      refine ⟨fun counter => ?_, ?_⟩
      · rw [modes]
        exact (counted counter).mpr (fine counter)
      · rw [modes]
        exact join.flags
  · rw [modes]
    rcases mem_put distinct present member with rfl | before
    · refine ⟨fun _ g => ?_, fun none => absurd none join.assoc⟩
      rw [join.erp, g, Bool.true_and]
    · exact kept.erp other (join.table ▸ before)

/-- The station that joined leaves at once: the counters are right exactly when it may return. -/
theorem Joined.leave {next : ApVif} {joined : ApSta} (kept : ProtKept ap)
    (found : ap.getSta sta.staMacaddr = some sta) (free : sta.staAssocid = 0)
    (join : Joined ap next sta joined) (env : LeaveEnv) :
    ProtStep (wifiMacStaDisconnectFromAp next joined env)
      (ReturnFine ap.vmMacMode ap.mac sta env.quiet) := by
  obtain ⟨leaked, aids⟩ := kept.aids
  obtain ⟨mode, table, -, leaves⟩ := disconnectFromAp_radio next joined env
  obtain ⟨mac, left, counters, radio, flags, moved⟩ :=
    leaveProtection_cases next joined joined env.quiet
  rw [join.mode] at mode left flags moved
  rw [join.table, join.name] at table
  have own (counter : ProtCounter) : moves ap.vmMacMode mac joined counter =
      moves ap.vmMacMode ap.mac (narrowed sta) counter := by
    rw [moved, moves, moves, join.classes]
    cases counter with
    | longslot => rfl
    | nonerp => rfl
    | nonHt => rw [tracked, tracked, join.radio.ifRunUp]
    | ht20 => rw [tracked, tracked, join.radio.ifRunUp]
  have total (counter : ProtCounter) : mac.counter counter = ap.mac.counter counter +
      moves ap.vmMacMode ap.mac (narrowed sta) counter := by
    rw [counters, join.counters]
  obtain ⟨counts, -, modes⟩ := leaveMac_spec env.quiet
    (fun g => by
      rw [join.erp, g, Bool.true_and])
    (fun counter one => by
      rw [own] at one
      rw [total, one]
      exact Nat.succ_pos _)
    (fun counter => by
      have few := kept.few counter
      have one := moves_cases ap.vmMacMode ap.mac (narrowed sta) counter
      rw [total]
      omega)
  have after : (wifiMacStaDisconnectFromAp next joined env).mac =
      leaveMac ap.vmMacMode mac joined env.quiet := (leaves join.assoc).trans left
  have rest (counter : ProtCounter) :
      (leaveMac ap.vmMacMode mac joined env.quiet).counter counter =
        tally ap.vmMacMode (Keyed.remove ApSta.staMacaddr ap.ntNsta sta.staMacaddr) counter := by
    have before : isCounted ap.vmMacMode counter sta = false := by
      rw [isCounted, decide_eq_false (not_not.mpr free), Bool.false_and]
    rw [counts, total, own, Nat.add_sub_cancel, kept.right.counted,
      tally_take aids.distinct found, before]
    rfl
  refine ⟨?_, fun _ other member => ?_⟩
  · have calm := modes (flags.mpr join.flags)
    rw [own, moves_narrowed, show mac.wmNonerpsta = _ from total .nonerp, moves_narrowed,
      radio.protNone, join.radio.protNone] at calm
    constructor
    · intro right one none protects
      have fine := right.flags
      rw [mode, after] at fine
      refine calm.mp fine one ?_ protects
      rw [one, show ap.mac.counter .nonerp = 0 from none]
    · intro fine
      refine ⟨fun counter => ?_, ?_⟩
      · rw [after, mode, table]
        exact rest counter
      · rw [after, mode]
        refine calm.mpr fun one total protects => fine one ?_ protects
        rw [one] at total
        exact Nat.succ_injective total
  · rw [table] at member
    rw [mode]
    exact kept.erp other (Keyed.mem_remove.mp member).1

end Join

end W522a.Ap
