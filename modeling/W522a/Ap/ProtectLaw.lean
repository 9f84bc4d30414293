import W522a.Ap.Power
import W522a.Ap.ProtectTable

/-!
When the counters of an access point for older rules are right: they are until a station changes its
class while it is associated, goes without being taken off, or comes or goes while the counters of its
classes are not written.
-/

namespace W522a.Ap

def Uncounting (mode : Nat) (sta : ApSta) : Prop :=
  sta.staAssocid ≠ 0 → ∀ counter, inClass mode sta counter = false

theorem uncounting_iff {mode : Nat} {sta : ApSta} :
    Uncounting mode sta ↔ ∀ counter, isCounted mode counter sta = false := by
  constructor
  · intro idle counter
    rw [isCounted]
    by_cases assoc : sta.staAssocid ≠ 0
    · rw [idle assoc counter, Bool.and_false]
    · rw [decide_eq_false assoc, Bool.false_and]
  · intro idle assoc counter
    have mine := idle counter
    rwa [isCounted, decide_eq_true assoc, Bool.true_and] at mine

section Timeout

variable {ap : ApVif}

private theorem tally_congr {mode : Nat} {table other : List ApSta}
    (same : List.Forall₂ SameRules table other) (counter : ProtCounter) :
    tally mode table counter = tally mode other counter := by
  induction same with
  | nil => rfl
  | cons head _ induction =>
    rw [tally_cons, tally_cons, induction,
      isCounted_congr head.associd fun _ => inClass_same head counter]

/-- Stations that are taken out by inactivity are not taken off the counters. -/
theorem ProtKept.timeout (kept : ProtKept ap) (jiffies hz : Nat) :
    ProtStep (wifiMacTimeoutStations ap jiffies hz) (∀ sta ∈ ap.ntNsta,
      timesOut ap.vmMainsta jiffies hz sta = true → Uncounting ap.vmMacMode sta) := by
  obtain ⟨-, stays⟩ := timeoutLoop_stays ap.vmMainsta jiffies hz ap.tim ap.ntNsta
  have parts (counter : ProtCounter) : tally ap.vmMacMode ap.ntNsta counter =
      tally ap.vmMacMode (ap.ntNsta.filter (timesOut ap.vmMainsta jiffies hz)) counter +
        tally ap.vmMacMode (wifiMacTimeoutStations ap jiffies hz).ntNsta counter := by
    have left : tally ap.vmMacMode (wifiMacTimeoutStations ap jiffies hz).ntNsta counter =
        tally ap.vmMacMode (ap.ntNsta.filter fun sta => !timesOut ap.vmMainsta jiffies hz sta)
          counter := tally_congr stays counter
    rw [left, ← tally_perm (List.filter_append_perm (timesOut ap.vmMainsta jiffies hz) ap.ntNsta),
      tally, List.countP_append]
    rfl
  have gone : (∀ counter,
      tally ap.vmMacMode (ap.ntNsta.filter (timesOut ap.vmMainsta jiffies hz)) counter = 0) ↔
        ∀ sta ∈ ap.ntNsta, timesOut ap.vmMainsta jiffies hz sta = true →
          Uncounting ap.vmMacMode sta := by
    simp only [tally_zero, List.mem_filter, uncounting_iff]
    exact ⟨fun idle sta member late counter => idle counter sta ⟨member, late⟩,
      fun idle counter sta there => idle sta there.1 there.2 counter⟩
  refine ⟨?_, fun _ sta member => ?_⟩
  · rw [← gone]
    constructor
    · intro right counter
      have before := kept.right.counted counter
      have after : ap.mac.counter counter = _ := right.counted counter
      rw [parts counter, after] at before
      change tally ap.vmMacMode _ counter = _ at before
      omega
    · intro none
      refine ⟨fun counter => ?_, kept.right.flags⟩
      have before := kept.right.counted counter
      rw [parts counter, none counter, Nat.zero_add] at before
      exact before
  · obtain ⟨old, before, same⟩ := exists_same stays member
    exact (kept.erp old (List.mem_of_mem_filter before)).same same

end Timeout

section Reset

variable {ap : ApVif} {leaked : List Nat}

theorem tableRstLoop_radio (rstMainsta : Bool) (lacks : List Nat) (ap : ApVif)
    (todo : List ApSta) :
    (tableRstLoop rstMainsta lacks ap todo).mac = ap.mac ∧
      (tableRstLoop rstMainsta lacks ap todo).vmMacMode = ap.vmMacMode := by
  induction todo generalizing ap with
  | nil => exact ⟨rfl, rfl⟩
  | cons sta rest induction =>
    have cleared : (clearAid ap sta).mac = ap.mac ∧
        (clearAid ap sta).vmMacMode = ap.vmMacMode := by
      unfold clearAid
      split <;> exact ⟨rfl, rfl⟩
    rw [tableRstLoop]
    split
    · obtain ⟨radio, mode⟩ := induction (clearAid ap sta)
      exact ⟨radio.trans cleared.1, mode.trans cleared.2⟩
    · obtain ⟨radio, mode⟩ := induction (wifiMacFreeSta ((clearAid ap sta).listDel sta.staMacaddr)
        sta (lacks.contains sta.staMacaddr))
      obtain ⟨freed, freedMode⟩ := wifiMacFreeSta_radio
        ((clearAid ap sta).listDel sta.staMacaddr) sta (lacks.contains sta.staMacaddr)
      exact ⟨radio.trans (freed.trans cleared.1), mode.trans (freedMode.trans cleared.2)⟩

/-- After a reset of the table its stations are those of before that are not associated. -/
theorem AidKept.tableRst_members (kept : AidKept ap leaked) (rstMainsta : Bool)
    (lacks : List Nat) :
    ∀ sta ∈ (wifiMacStaTableRst ap rstMainsta lacks).ntNsta,
      sta ∈ ap.ntNsta ∧ sta.staAssocid = 0 := by
  obtain ⟨-, -, members⟩ := tableRstLoop_kept rstMainsta lacks kept
    (fun sta member => Keyed.find_of_mem kept.distinct member) kept.distinct
  obtain ⟨-, -, free, -⟩ := kept.tableRst rstMainsta lacks
  exact fun sta member => ⟨(members sta member).1, free sta member⟩

theorem tally_free {mode : Nat} {table : List ApSta} (free : ∀ sta ∈ table, sta.staAssocid = 0)
    (counter : ProtCounter) : tally mode table counter = 0 := by
  rw [tally_zero]
  intro sta member
  rw [isCounted, decide_eq_false (not_not.mpr (free sta member)), Bool.false_and]

/-- When all stations are gone and the radio stays, the counters are right when none counted. -/
theorem ProtKept.emptied {next : ApVif} (kept : ProtKept ap) (radio : next.mac = ap.mac)
    (mode : next.vmMacMode = ap.vmMacMode)
    (members : ∀ sta ∈ next.ntNsta, sta ∈ ap.ntNsta ∧ sta.staAssocid = 0) :
    ProtStep next (∀ sta ∈ ap.ntNsta, Uncounting ap.vmMacMode sta) := by
  have none (counter : ProtCounter) : tally ap.vmMacMode next.ntNsta counter = 0 :=
    tally_free (fun sta member => (members sta member).2) counter
  have idle : (∀ counter, tally ap.vmMacMode ap.ntNsta counter = 0) ↔
      ∀ sta ∈ ap.ntNsta, Uncounting ap.vmMacMode sta := by
    simp only [tally_zero, uncounting_iff]
    exact ⟨fun idle sta member counter => idle counter sta member,
      fun idle counter sta member => idle sta member counter⟩
  refine ⟨?_, fun _ sta member => ?_⟩
  · rw [← idle]
    constructor
    · intro right counter
      rw [← kept.right.counted, ← none counter, ← mode, ← right.counted, radio]
    · intro zero
      refine ⟨fun counter => ?_, ?_⟩
      · rw [radio, mode, none, kept.right.counted, zero]
      · rw [radio, mode]
        exact kept.right.flags
  · rw [mode]
    exact kept.erp sta (members sta member).1

theorem ProtKept.tableRst (kept : ProtKept ap) (rstMainsta : Bool) (lacks : List Nat) :
    ProtStep (wifiMacStaTableRst ap rstMainsta lacks)
      (∀ sta ∈ ap.ntNsta, Uncounting ap.vmMacMode sta) := by
  obtain ⟨leaked, aids⟩ := kept.aids
  obtain ⟨radio, mode⟩ := tableRstLoop_radio rstMainsta lacks ap ap.ntNsta
  exact kept.emptied radio mode (aids.tableRst_members rstMainsta lacks)

theorem ProtKept.clearTable (kept : ProtKept ap) (lacks : List Nat) :
    ProtStep (wifiMacClearStaTable ap lacks)
      (∀ sta ∈ ap.ntNsta, Uncounting ap.vmMacMode sta) := by
  obtain ⟨leaked, aids⟩ := kept.aids
  unfold wifiMacClearStaTable
  by_cases inited : ap.ntInited = true
  · rw [if_neg (by simp [inited]), tableRstLoop_inited]
    obtain ⟨radio, mode⟩ := tableRstLoop_radio true lacks ap ap.ntNsta
    exact kept.emptied radio mode (aids.tableRst_members true lacks)
  · have gone : ap.ntInited = false := by simpa using inited
    rw [if_pos (by simp [gone])]
    refine kept.step.congr (iff_of_true trivial ?_)
    rw [aids.inited gone]
    exact fun sta member => absurd member List.not_mem_nil

/-- The radio after a reset of the interface: the counters for 11g start anew, and those of HT when no
other interface is open. -/
theorem resetRadio_spec (mode : Nat) (mac : WifiMac) (flags : MacFlags mode mac) :
    (wifiMacResetHt (wifiMacResetErp mac mode)).wmLongslotsta = 0 ∧
      (wifiMacResetHt (wifiMacResetErp mac mode)).wmNonerpsta = 0 ∧
      (wifiMacResetHt (wifiMacResetErp mac mode)).wmNonHtSta =
        (if 1 < mac.wmNopened then mac.wmNonHtSta else 0) ∧
      (wifiMacResetHt (wifiMacResetErp mac mode)).wmHt20Sta =
        (if 1 < mac.wmNopened then mac.wmHt20Sta else 0) ∧
      MacFlags mode (wifiMacResetHt (wifiMacResetErp mac mode)) := by
  have slots : (mode != 1 && mac.capShslot) = true ↔ mode ≠ 1 ∧ mac.capShslot = true ∧ 0 = 0 := by
    rw [Bool.and_eq_true, bne_iff_ne]
    exact and_congr_right fun _ => (and_iff_left rfl).symm
  have erps : false = true ↔ mac.protNone = false ∧ 0 ≠ 0 :=
    iff_of_false Bool.false_ne_true fun absurdity => absurdity.2 rfl
  have opened : (wifiMacResetErp mac mode).wmNopened = mac.wmNopened := rfl
  unfold wifiMacResetHt
  rw [opened]
  by_cases others : 1 < mac.wmNopened
  · rw [if_pos others, if_pos others, if_pos others]
    exact ⟨rfl, rfl, rfl, rfl, slots, erps, flags.ht⟩
  · rw [if_neg others, if_neg others, if_neg others]
    exact ⟨rfl, rfl, rfl, rfl, slots, erps, rfl⟩

/-- A reset of the interface is fine unless another one is open and HT counters go on. -/
def ResetFine (ap : ApVif) : Prop :=
  1 < ap.mac.wmNopened → ∀ sta ∈ ap.ntNsta, sta.staAssocid ≠ 0 →
    nonHt ap.vmMacMode sta = false ∧ ht20 sta = false

private theorem resetFine_iff (kept : ProtKept ap) : ResetFine ap ↔
    (1 < ap.mac.wmNopened → ap.mac.wmNonHtSta = 0 ∧ ap.mac.wmHt20Sta = 0) := by
  refine forall_congr' fun _ => ?_
  rw [show ap.mac.wmNonHtSta = tally _ _ .nonHt from kept.right.counted .nonHt,
    show ap.mac.wmHt20Sta = tally _ _ .ht20 from kept.right.counted .ht20, tally_zero, tally_zero,
    ← forall₂_and]
  refine forall₂_congr fun sta _ => ?_
  rw [isCounted, isCounted, inClass, inClass]
  by_cases assoc : sta.staAssocid ≠ 0
  · rw [decide_eq_true assoc, Bool.true_and, Bool.true_and]
    exact ⟨fun idle => idle assoc, fun idle _ => idle⟩
  · rw [decide_eq_false assoc, Bool.false_and, Bool.false_and]
    exact iff_of_true (fun other => absurd other assoc) ⟨rfl, rfl⟩

theorem ProtKept.rstBss (kept : ProtKept ap) (lacks : List Nat) :
    ProtStep (wifiMacRstBss ap lacks) (ResetFine ap) := by
  obtain ⟨leaked, aids⟩ := kept.aids
  obtain ⟨radio, mode⟩ := tableRstLoop_radio false lacks ap ap.ntNsta
  have members := aids.tableRst_members false lacks
  obtain ⟨long, nonerp, nonHt, ht20, flags⟩ :=
    resetRadio_spec ap.vmMacMode ap.mac kept.right.flags
  have settled : ∀ next : ApVif, next.vmMacMode = ap.vmMacMode →
      next.mac = wifiMacResetHt (wifiMacResetErp ap.mac ap.vmMacMode) →
      (∀ sta ∈ next.ntNsta, sta.staAssocid = 0 ∧ sta.nodeErp = false) →
      ProtStep next (ResetFine ap) := by
    intro next sameMode reset free
    have none (counter : ProtCounter) : tally ap.vmMacMode next.ntNsta counter = 0 :=
      tally_free (fun sta member => (free sta member).1) counter
    refine ⟨?_, fun _ sta member => ?_⟩
    · rw [resetFine_iff kept]
      constructor
      · intro right others
        have one : next.mac.wmNonHtSta = _ := right.counted .nonHt
        have two : next.mac.wmHt20Sta = _ := right.counted .ht20
        rw [reset, nonHt, if_pos others, sameMode, none] at one
        rw [reset, ht20, if_pos others, sameMode, none] at two
        exact ⟨one, two⟩
      · intro fine
        refine ⟨fun counter => ?_, ?_⟩
        · rw [reset, sameMode, none]
          cases counter with
          | longslot => exact long
          | nonerp => exact nonerp
          | nonHt =>
            refine nonHt.trans ?_
            split
            · next others => exact (fine others).1
            · rfl
          | ht20 =>
            refine ht20.trans ?_
            split
            · next others => exact (fine others).2
            · rfl
        · rw [reset, sameMode]
          exact flags
    · exact ⟨fun assoc => absurd (free sta member).1 assoc, fun _ => (free sta member).2⟩
  have free : ∀ sta ∈ (wifiMacStaTableRst ap false lacks).ntNsta,
      sta.staAssocid = 0 ∧ sta.nodeErp = false := by
    intro sta member
    obtain ⟨before, none⟩ := members sta member
    exact ⟨none, (kept.erp sta before).free none⟩
  have reset : wifiMacResetHt (wifiMacResetErp (wifiMacStaTableRst ap false lacks).mac
      (wifiMacStaTableRst ap false lacks).vmMacMode) =
        wifiMacResetHt (wifiMacResetErp ap.mac ap.vmMacMode) := by
    rw [wifiMacStaTableRst, radio, mode]
  unfold wifiMacRstBss
  dsimp only
  by_cases main : (wifiMacStaTableRst ap false lacks).vmMainsta.isSome = true
  · rw [if_pos main]
    exact settled _ mode reset free
  · rw [if_neg main]
    unfold wifiMacGetStaNode
    dsimp only
    by_cases inited : (wifiMacStaTableRst ap false lacks).ntInited = true
    · rw [if_neg (by simp [inited])]
      split
      · next last none same =>
        split at same
        · cases (Prod.mk.inj same).2
        · cases (Prod.mk.inj same).2
      · next last mainsta same =>
        have place : (last.ntNsta = (wifiMacStaTableRst ap false lacks).ntNsta ∨
            last.ntNsta = (wifiMacStaTableRst ap false lacks).ntNsta ++
              [newSta (wifiMacStaTableRst ap false lacks).vmMyaddr]) ∧
            last.vmMacMode = (wifiMacStaTableRst ap false lacks).vmMacMode ∧
            last.mac = wifiMacResetHt (wifiMacResetErp (wifiMacStaTableRst ap false lacks).mac
              (wifiMacStaTableRst ap false lacks).vmMacMode) := by
          split at same
          · obtain ⟨rfl, -⟩ := Prod.mk.inj same
            exact ⟨Or.inl rfl, rfl, rfl⟩
          · obtain ⟨rfl, -⟩ := Prod.mk.inj same
            exact ⟨Or.inr rfl, rfl, rfl⟩
        obtain ⟨table, sameMode, sameRadio⟩ := place
        refine settled _ (sameMode.trans mode) (sameRadio.trans reset) fun sta member => ?_
        rcases table with before | more
        · exact free sta (before ▸ member)
        · rw [show ApVif.ntNsta _ = _ from more] at member
          rcases List.mem_append.mp member with before | new
          · exact free sta before
          · rw [List.mem_singleton.mp new]
            exact ⟨rfl, rfl⟩
    · rw [if_pos (by simpa using inited)]
      exact settled _ mode reset free

end Reset

/-- A request is fine when a station that is refused may leave, one that is updated keeps its classes,
and one that comes may come, or come and go. -/
def RequestFine (ap : ApVif) (env : JoinEnv) (old : ApSta) : AssocVerdict → Prop
  | .refused _ _ => old.staAssocid ≠ 0 →
    LeaveFine ap.vmMacMode ap.mac old env.leave.quiet
  | .accepted sta =>
    (old.staAssocid ≠ 0 → ∀ counter,
      inClass ap.vmMacMode sta counter = inClass ap.vmMacMode old counter) ∧
    (old.staAssocid = 0 → ap.ntNsta.countP (·.staAssocid ≠ 0) + 1 < ap.tim.vmMaxAid →
      if env.sent && !env.chanErr then JoinFine ap.vmMacMode ap.mac sta
      else ReturnFine ap.vmMacMode ap.mac sta env.leave.quiet)

section Request

variable {ap next : ApVif} {leaked : List Nat} {sta old : ApSta}

/-- What a request does not change before it is decided on. -/
structure Undecided (ap next : ApVif) : Prop where
  mode : next.vmMacMode = ap.vmMacMode
  mac : next.mac = ap.mac
  maxAid : next.tim.vmMaxAid = ap.tim.vmMaxAid
  count : next.ntNsta.countP (·.staAssocid ≠ 0) = ap.ntNsta.countP (·.staAssocid ≠ 0)

theorem Undecided.fine (same : Undecided ap next) (env : JoinEnv) (old : ApSta)
    (verdict : AssocVerdict) : RequestFine next env old verdict ↔ RequestFine ap env old verdict := by
  cases verdict with
  | refused status sta => rw [RequestFine, RequestFine, same.mode, same.mac]
  | accepted sta =>
    rw [RequestFine, RequestFine, same.mode, same.mac, same.maxAid, same.count]

theorem Undecided.trans {last : ApVif} (one : Undecided ap next) (two : Undecided next last) :
    Undecided ap last :=
  ⟨two.mode.trans one.mode, two.mac.trans one.mac, two.maxAid.trans one.maxAid,
    two.count.trans one.count⟩

theorem count_held (same : (held next.ntNsta).Perm (held ap.ntNsta)) :
    next.ntNsta.countP (·.staAssocid ≠ 0) = ap.ntNsta.countP (·.staAssocid ≠ 0) := by
  rw [← length_held, ← length_held, same.length_eq]

theorem ProtKept.markReassoc (kept : ProtKept ap) (macaddr : Nat) :
    ProtKept (markReassoc ap macaddr) ∧ Undecided ap (Ap.markReassoc ap macaddr) := by
  obtain ⟨leaked, aids⟩ := kept.aids
  have step := (aids.markReassoc macaddr).1
  have count := count_held step.holds
  rcases markReassoc_cases ap macaddr with same | ⟨marked, found, changed⟩
  · rw [same]
    exact ⟨kept, rfl, rfl, rfl, rfl⟩
  · have alike : SameRules { marked with nodeReassoc := true } marked :=
      ⟨⟨rfl, rfl⟩, rfl, rfl, rfl, rfl, rfl, rfl⟩
    have written := kept.putSame found alike
    rw [changed] at step count ⊢
    exact ⟨⟨⟨leaked, step.kept⟩, written.erp trivial, written.right.mpr trivial⟩,
      rfl, rfl, rfl, count⟩

theorem ProtKept.bupBss (kept : ProtKept ap) {macaddr : Nat} (absent : ap.getSta macaddr = none) :
    ProtKept (wifiMacBupBss ap macaddr).1 := by
  obtain ⟨leaked, aids⟩ := kept.aids
  have step := (aids.bupBss macaddr).step
  rcases wifiMacBupBss_cases absent with nowhere | ⟨authSae, staRsn, -, placed⟩
  · rw [nowhere]
    exact kept
  · have added : ProtStep { ap with
        ntNsta := ap.ntNsta ++ [freshSta macaddr authSae staRsn] } True := kept.concat rfl rfl
    rw [placed] at step ⊢
    exact ⟨⟨leaked, step.kept⟩, added.erp trivial, added.right.mpr trivial⟩

private theorem ProtKept.assocTarget (kept : ProtKept ap) (macaddr : Nat) :
    ProtKept (assocTarget ap macaddr).1 ∧ Undecided ap (Ap.assocTarget ap macaddr).1 := by
  obtain ⟨leaked, aids⟩ := kept.aids
  have step := (aids.assocTarget macaddr).1.step
  have count := count_held step.holds
  rcases assocTarget_cases ap macaddr with
    nowhere | ⟨-, ⟨sta, found, here⟩ | ⟨absent, -, authSae, staRsn, placed⟩⟩
  · rw [nowhere]
    exact ⟨kept, rfl, rfl, rfl, rfl⟩
  · rw [here]
    exact ⟨kept, rfl, rfl, rfl, rfl⟩
  · have added : ProtStep { ap with
        ntNsta := ap.ntNsta ++ [{ freshSta macaddr authSae staRsn with
          staInactReload := wifinetInactRun }] } True := kept.concat rfl rfl
    rw [placed] at step count ⊢
    exact ⟨⟨⟨leaked, step.kept⟩, added.erp trivial, added.right.mpr trivial⟩, rfl, rfl, rfl, count⟩

private theorem ProtKept.search (kept : ProtKept ap) (inited : ap.ntInited = true) :
    ProtKept (searchAid ap) ∧ (searchAid ap).vmMacMode = ap.vmMacMode ∧
      (searchAid ap).mac = ap.mac := by
  obtain ⟨leaked, aids⟩ := kept.aids
  obtain ⟨⟨leaked', kept', -⟩, table, -⟩ := aids.search inited
  have same : (searchAid ap).vmMacMode = ap.vmMacMode ∧ (searchAid ap).mac = ap.mac := by
    unfold searchAid wifiMacApRebuildAidState
    split
    · exact ⟨rfl, rfl⟩
    · split <;> exact ⟨rfl, rfl⟩
  refine ⟨⟨⟨leaked', kept'⟩, ?_, ⟨fun counter => ?_, ?_⟩⟩, same⟩
  · rw [table, same.1]
    exact kept.erp
  · rw [table, same.1, same.2]
    exact kept.right.counted counter
  · rw [same.1, same.2]
    exact kept.right.flags

private theorem answered_rules (sta : ApSta) : SameRules { sta with
    staUcastkey := none
    staInactReload := wifinetInactAuth
    staInact := wifinetInactAuth } sta :=
  ⟨⟨rfl, rfl⟩, rfl, rfl, rfl, rfl, rfl, rfl⟩

private theorem ProtKept.connect (kept : ProtKept ap) (found : ap.getSta sta.staMacaddr = some sta)
    (free : sta.staAssocid = 0) (env : JoinEnv) :
    ProtStep (wifiMacStaConnect ap sta env).1
      (ap.ntNsta.countP (·.staAssocid ≠ 0) + 1 < ap.tim.vmMaxAid →
        if env.sent && !env.chanErr then JoinFine ap.vmMacMode ap.mac sta
        else ReturnFine ap.vmMacMode ap.mac sta env.leave.quiet) := by
  obtain ⟨leaked, aids⟩ := kept.aids
  have inited := aids.tableInited found
  obtain ⟨searched, mode, mac⟩ := kept.search inited
  obtain ⟨⟨leaked', kept', -⟩, table, -⟩ := aids.search inited
  have known : (searchAid ap).getSta sta.staMacaddr = some sta := by
    rw [ApVif.getSta, table]
    exact found
  have full := aids.search_none_iff inited
  have bound := aids.pool.length_le
  rw [List.length_append, length_held] at bound
  rw [length_held] at full
  rcases wifiMacStaConnect_cases ap sta env with
    ⟨assoc, -⟩ | ⟨-, none, refuses⟩ | ⟨-, aid, search, joins⟩
  · exact absurd free assoc
  · rw [refuses]
    have step := searched.leave known ((SameRules.refl sta).leave _) env.leave
    refine step.congr (iff_of_true (fun assoc => absurd free assoc) fun room => ?_)
    rw [full.mp none, aids.maxAid] at room
    exact absurd room (by decide)
  · rw [joins]
    have some : ¬ findAid (searchAid ap) = none := by
      rw [search]
      exact Option.some_ne_none aid
    have room : ap.ntNsta.countP (·.staAssocid ≠ 0) + 1 < ap.tim.vmMaxAid := by
      rw [aids.maxAid]
      rw [full] at some
      omega
    have below : aid < 17 := by
      have spot := search
      rw [findAid, kept'.maxAid] at spot
      exact (Pool.firstFree_some spot).2.1
    have join := (searched.joins known free below).same (answered_rules _)
    have comes := join.put searched known free
    have returns := join.leave searched known free env.leave
    rw [mode, mac] at comes returns
    refine ProtStep.congr ?_ (⟨fun fine _ => fine, fun fine => fine room⟩)
    unfold answerAssoc
    dsimp only
    cases env.sent with
    | false => exact returns
    | true =>
      cases env.chanErr with
      | true => exact returns
      | false => exact comes

/-- A request keeps the counters right exactly when it is fine. -/
theorem ProtKept.recvAssocReq (kept : ProtKept ap) (conf : AssocConf) (frame : AssocFrame)
    (env : JoinEnv) :
    ProtStep (wifiMacRecvAssocReq conf ap frame env).1
      (∀ old verdict, assocVerdict conf ap frame = some (old, verdict) →
        RequestFine ap env old verdict) := by
  obtain ⟨marked, one⟩ := kept.markReassoc frame.addr2
  obtain ⟨placed, two⟩ := marked.assocTarget frame.addr2
  obtain ⟨leaked, aids⟩ := marked.aids
  have place := (aids.assocTarget frame.addr2).1
  rcases wifiMacRecvAssocReq_cases conf ap frame env with
    ⟨verdict, drops | drops | ⟨next, target, drops⟩⟩ |
    ⟨mainsta, next, target, verdict, target', ways⟩
  · rw [drops, verdict]
    exact kept.step.congr (iff_of_true trivial fun _ _ absurdity => nomatch absurdity)
  · rw [drops, verdict]
    exact marked.step.congr (iff_of_true trivial fun _ _ absurdity => nomatch absurdity)
  · rw [target] at placed
    rw [drops, verdict]
    exact placed.step.congr (iff_of_true trivial fun _ _ absurdity => nomatch absurdity)
  · rw [target'] at placed two place
    replace placed : ProtKept next := placed
    have same := one.trans two
    have found := getSta_self (place.found target rfl)
    have known := assocStation_same conf next mainsta frame target
    have alone : (∀ old verdict', assocVerdict conf ap frame = some (old, verdict') →
        RequestFine ap env old verdict') ↔
          RequestFine next env target (assocStation conf next mainsta frame target) := by
      rw [verdict, same.fine]
      constructor
      · exact fun all => all _ _ rfl
      · rintro fine old verdict' ⟨⟩
        exact fine
    refine ProtStep.congr ?_ alone.symm
    rcases ways with ⟨status, refused, decision, refuses⟩ | ⟨accepted, decision, assoc, updates⟩ |
      ⟨accepted, decision, free, joins⟩
    · obtain ⟨ht, chbw, slot⟩ := assocStation_refused decision
      rw [refuses, decision]
      rw [decision] at known
      exact placed.leave found ⟨known.toSameHolder, slot, known.erp, ht, chbw⟩ env.leave
    · rw [updates, decision]
      rw [decision] at known
      replace known : SameKnown accepted target := known
      have written := placed.put found known.toSameHolder known.erp rfl rfl (fun _ => rfl)
        placed.right.flags
      refine written.congr ⟨fun classes => ⟨classes, fun none => ?_⟩, fun fine => fine.1⟩
      exact absurd (known.associd.trans none) assoc
    · rw [decision] at known
      replace known : SameKnown accepted target := known
      have none : target.staAssocid = 0 := known.associd.symm.trans free
      have written := placed.put found known.toSameHolder known.erp rfl rfl (fun _ => rfl)
        placed.right.flags
      have idle : target.staAssocid ≠ 0 → ∀ counter,
          inClass next.vmMacMode accepted counter = inClass next.vmMacMode target counter :=
        fun assoc => absurd none assoc
      have step := place.step.kept.put found known.toSameHolder
      have kept' : ProtKept (next.put accepted) :=
        ⟨⟨leaked, step.kept⟩, written.erp idle, written.right.mpr idle⟩
      have here : (next.put accepted).getSta accepted.staMacaddr = some accepted := by
        refine getSta_put ?_
        rw [known.macaddr, found]
        exact Option.some_ne_none target
      have count := count_held step.holds
      rw [joins, decision]
      refine (kept'.connect here free env).congr ?_
      rw [count]
      exact ⟨fun fine => ⟨idle, fun _ => fine⟩, fun fine => fine.2 none⟩

end Request

section Events

variable {ap : ApVif} {sta : ApSta}

/-- What happens keeps the classes of associated stations, and lets none come or go in a way that the
counters miss. -/
def ProtFine (ap : ApVif) : RadioEvent → Prop
  | .now event =>
    match event with
    | .assocReq conf frame env => ∀ old verdict,
      assocVerdict conf ap frame = some (old, verdict) → RequestFine ap env old verdict
    | .disconnect macaddr env => ∀ sta, ap.getSta macaddr = some sta → sta.staAssocid ≠ 0 →
      LeaveFine ap.vmMacMode ap.mac sta env.quiet
    | .delStation macaddr env => ∀ sta, ap.getSta macaddr = some sta → sta.staAssocid ≠ 0 →
      LeaveFine ap.vmMacMode ap.mac sta env.quiet
    | .timeout jiffies hz => ∀ sta ∈ ap.ntNsta,
      timesOut ap.vmMainsta jiffies hz sta = true → Uncounting ap.vmMacMode sta
    | .rstBss _ => ResetFine ap
    | .vdetach _ => ∀ sta ∈ ap.ntNsta, Uncounting ap.vmMacMode sta
    | .clearTable _ => ∀ sta ∈ ap.ntNsta, Uncounting ap.vmMacMode sta
    | _ => True
  | .ifRun _ => True
  | .htTxchwidth macaddr wide => ∀ sta, ap.getSta macaddr = some sta → sta.staAssocid ≠ 0 →
    ∀ counter, inClass ap.vmMacMode (recvHtTxchwidth sta wide) counter =
      inClass ap.vmMacMode sta counter
  | .operateMode macaddr optMode => ∀ sta, ap.getSta macaddr = some sta → sta.staAssocid ≠ 0 →
    ∀ counter, inClass ap.vmMacMode (wifiMacParseVhtOpMdNtf optMode sta) counter =
      inClass ap.vmMacMode sta counter
  | .bssCoex macaddr => ∀ sta, ap.getSta macaddr = some sta → sta.staAssocid ≠ 0 →
    ∀ counter, inClass ap.vmMacMode (recvBssCoex sta) counter = inClass ap.vmMacMode sta counter

/-- Something happens to a station of the table that meets a condition. -/
theorem ProtKept.atSta (kept : ProtKept ap) (macaddr : Nat) (change : ApSta → ApVif)
    (fine : ApSta → Prop)
    (each : ∀ sta, ap.getSta sta.staMacaddr = some sta → ProtStep (change sta) (fine sta)) :
    ProtStep (ap.atSta macaddr change) (∀ sta, ap.getSta macaddr = some sta → fine sta) := by
  unfold ApVif.atSta
  cases found : ap.getSta macaddr with
  | none => exact kept.step.congr (iff_of_true trivial fun _ absurdity => nomatch absurdity)
  | some sta =>
    refine (each sta (getSta_self found)).congr ⟨?_, fun all => all sta rfl⟩
    rintro met other ⟨⟩
    exact met

/-- Something happens to a station of the table and leaves the counters. -/
theorem ProtKept.atStaSame (kept : ProtKept ap) (macaddr : Nat) (change : ApSta → ApVif)
    (each : ∀ sta, ap.getSta sta.staMacaddr = some sta → ProtStep (change sta) True) :
    ProtStep (ap.atSta macaddr change) True :=
  (kept.atSta macaddr change (fun _ => True) each).congr (iff_true_intro fun _ _ => trivial)

/-- A change of the power save state leaves the radio and how a station is treated. -/
theorem stateChange_rules (ap : ApVif) (sta : ApSta) (enable : Bool) :
    (wifiMacPwrsaveStateChange ap sta enable).1.mac = ap.mac ∧
      (wifiMacPwrsaveStateChange ap sta enable).1.vmMacMode = ap.vmMacMode ∧
      SameRules (wifiMacPwrsaveStateChange ap sta enable).2 sta := by
  unfold wifiMacPwrsaveStateChange
  split
  · dsimp only
    split <;> exact ⟨rfl, rfl, ⟨⟨rfl, rfl⟩, rfl, rfl, rfl, rfl, rfl, rfl⟩⟩
  · split
    · exact ⟨rfl, rfl, SameRules.refl sta⟩
    · dsimp only
      rw [wifiMacPwrsavePsqueueFlush_eq]
      split <;> exact ⟨rfl, rfl, ⟨⟨rfl, rfl⟩, rfl, rfl, rfl, rfl, rfl, rfl⟩⟩

/-- A station is written that is treated as before, after a step that leaves the table and the
radio. -/
theorem ProtKept.putRules {next : ApVif} {other : ApSta} (kept : ProtKept ap)
    (found : ap.getSta sta.staMacaddr = some sta) (table : next.ntNsta = ap.ntNsta)
    (mode : next.vmMacMode = ap.vmMacMode) (radio : next.mac = ap.mac)
    (same : SameRules other sta) : ProtStep (next.put other) True := by
  refine (kept.put found same.toSameHolder same.erp table mode (fun counter => ?_) ?_).congr
    (iff_true_intro fun _ counter => inClass_same same counter)
  · rw [radio]
  · rw [radio]
    exact kept.right.flags

private theorem ProtKept.recvAuth (kept : ProtKept ap) (macaddr : Nat) :
    ProtStep (recvAuth ap macaddr) True := by
  have step : ProtKept (if (ap.getSta macaddr).isSome then ap
      else (wifiMacBupBss ap macaddr).1) := by
    by_cases known : (ap.getSta macaddr).isSome = true
    · rw [if_pos known]
      exact kept
    · rw [if_neg known]
      exact kept.bupBss (by simpa using known)
  exact step.atStaSame macaddr _ fun sta found => step.putSame found
    ⟨⟨rfl, rfl⟩, rfl, rfl, rfl, rfl, rfl, rfl⟩

private theorem ProtKept.recvData (kept : ProtKept ap) (found : ap.getSta sta.staMacaddr = some sta)
    (jiffies : Nat) (powerManagement : Bool) :
    ProtStep (recvData ap sta jiffies powerManagement) True := by
  have heard : SameRules (heardSta sta jiffies) sta :=
    ⟨⟨rfl, rfl⟩, rfl, rfl, rfl, rfl, rfl, rfl⟩
  unfold Ap.recvData
  dsimp only
  split
  · exact kept.putSame found heard
  · obtain ⟨frame, -⟩ := stateChange_frame ap (heardSta sta jiffies) powerManagement
    obtain ⟨radio, mode, same⟩ := stateChange_rules ap (heardSta sta jiffies) powerManagement
    exact kept.putRules found frame.table mode radio (same.trans heard)

/-- A station that is deleted leaves as it would anyway. -/
theorem ProtKept.delStation (kept : ProtKept ap)
    (found : ap.getSta sta.staMacaddr = some sta) (env : LeaveEnv) :
    ProtStep (vmCfg80211DelStation ap sta env)
      (sta.staAssocid ≠ 0 → LeaveFine ap.vmMacMode ap.mac sta env.quiet) := by
  unfold vmCfg80211DelStation
  by_cases free : sta.staAssocid = 0
  · rw [if_pos free]
    exact kept.step.congr (iff_of_true trivial fun assoc => absurd free assoc)
  · rw [if_neg free]
    obtain ⟨leaked, aids⟩ := kept.aids
    obtain ⟨frame, -⟩ := stateChange_frame ap sta false
    obtain ⟨radio, mode, same⟩ := stateChange_rules ap sta false
    have kept' : ProtKept (wifiMacPwrsaveStateChange ap sta false).1 := by
      refine ⟨⟨leaked, (aids.frame frame).kept⟩, ?_, ⟨fun counter => ?_, ?_⟩⟩
      · rw [frame.table, mode]
        exact kept.erp
      · rw [radio, mode, frame.table]
        exact kept.right.counted counter
      · rw [radio, mode]
        exact kept.right.flags
    have here : (wifiMacPwrsaveStateChange ap sta false).1.getSta sta.staMacaddr = some sta := by
      rw [ApVif.getSta, frame.table]
      exact found
    have step := kept'.leave here (same.leave _) env
    rw [radio, mode] at step
    exact step

private theorem psqueueEnqueue_rules (vmBcnIntval : Nat) (tim : TimVif) (sta : ApSta) :
    SameRules (wifiMacPwrsavePsqueueEnqueue vmBcnIntval tim sta).2 sta := by
  unfold wifiMacPwrsavePsqueueEnqueue
  split
  · exact SameRules.refl sta
  · dsimp only
    split <;> exact ⟨⟨rfl, rfl⟩, rfl, rfl, rfl, rfl, rfl, rfl⟩

private theorem recvPspoll_rules (tim : TimVif) (sta : ApSta) (aid : Nat) :
    SameRules (wifiMacPwrsaveRecvPspoll tim sta aid).2 sta := by
  have sent : SameRules (wifiMacPwrsavePsqueueSend sta).1 sta := by
    unfold wifiMacPwrsavePsqueueSend
    split <;> exact ⟨⟨rfl, rfl⟩, rfl, rfl, rfl, rfl, rfl, rfl⟩
  unfold wifiMacPwrsaveRecvPspoll
  split
  · exact SameRules.refl sta
  · split
    · exact SameRules.refl sta
    · dsimp only
      split <;> exact sent

theorem parseVhtOpMdNtf_same (optMode : UInt8) (sta : ApSta) :
    SameHolder (wifiMacParseVhtOpMdNtf optMode sta) sta ∧
      (wifiMacParseVhtOpMdNtf optMode sta).nodeErp = sta.nodeErp := by
  unfold wifiMacParseVhtOpMdNtf
  dsimp only
  split
  · exact ⟨⟨rfl, rfl⟩, rfl⟩
  · exact ⟨SameHolder.refl sta, rfl⟩

private theorem ProtKept.apStep (kept : ProtKept ap) (event : ApEvent) :
    ProtStep (apStep ap event) (ProtFine ap (.now event)) := by
  cases event with
  | auth macaddr => exact kept.recvAuth macaddr
  | authorize macaddr =>
    exact kept.atStaSame macaddr _ fun sta found => kept.putSame found
      ⟨⟨rfl, rfl⟩, rfl, rfl, rfl, rfl, rfl, rfl⟩
  | heard macaddr jiffies =>
    exact kept.atStaSame macaddr _ fun sta found => kept.putSame found
      ⟨⟨rfl, rfl⟩, rfl, rfl, rfl, rfl, rfl, rfl⟩
  | data macaddr jiffies powerManagement =>
    exact kept.atStaSame macaddr _ fun sta found => kept.recvData found jiffies powerManagement
  | assocReq conf frame env => exact kept.recvAssocReq conf frame env
  | disconnect macaddr env =>
    rw [Ap.apStep, ProtFine]
    by_cases main : ap.vmMainsta = some macaddr
    · rw [if_pos main]
      refine kept.step.congr (iff_of_true trivial fun sta found assoc => ?_)
      obtain ⟨leaked, aids⟩ := kept.aids
      have name : sta.staMacaddr = macaddr := Keyed.key_of_find found
      exact absurd (aids.main sta (Keyed.mem_of_find found) (name ▸ main)) assoc
    · rw [if_neg main]
      exact kept.atSta macaddr _ _ fun sta found =>
        kept.leave found ((SameRules.refl sta).leave _) env
  | delStation macaddr env =>
    exact kept.atSta macaddr _ _ fun sta found => kept.delStation found env
  | enqueue macaddr =>
    refine kept.atStaSame macaddr _ fun sta found => ?_
    rw [enqueueFrame]
    split
    · exact kept.putRules found rfl rfl rfl (psqueueEnqueue_rules _ _ _)
    · exact kept.step
  | pspoll macaddr aid =>
    exact kept.atStaSame macaddr _ fun sta found =>
      kept.putRules found rfl rfl rfl (recvPspoll_rules _ _ _)
  | hold held =>
    exact ⟨iff_true_intro ⟨kept.right.counted, kept.right.flags⟩, fun _ => kept.erp⟩
  | timeout jiffies hz => exact kept.timeout jiffies hz
  | rstBss lacks => exact kept.rstBss lacks
  | vdetach lacks => exact kept.tableRst true lacks
  | clearTable lacks => exact kept.clearTable lacks

/-- A station is written to which an action frame gives another width. -/
theorem ProtKept.putWidth (kept : ProtKept ap) {next : ApVif} {other : ApSta}
    (found : ap.getSta sta.staMacaddr = some sta) (same : SameHolder other sta)
    (erp : other.nodeErp = sta.nodeErp) (table : next.ntNsta = ap.ntNsta)
    (mode : next.vmMacMode = ap.vmMacMode)
    (radio : next.mac = ap.mac ∨ next.mac = wifiMacChangeCbw ap.mac) :
    ProtStep (next.put other) (sta.staAssocid ≠ 0 → ∀ counter,
      inClass ap.vmMacMode other counter = inClass ap.vmMacMode sta counter) := by
  obtain ⟨counters, -, flags, -⟩ := wifiMacChangeCbw_same ap.vmMacMode ap.mac sta
  refine kept.put found same erp table mode (fun counter => ?_) ?_
  · rcases radio with radio | radio
    · rw [radio]
    · rw [radio]
      exact counters counter
  · rcases radio with radio | radio
    · rw [radio]
      exact kept.right.flags
    · rw [radio]
      exact flags.mpr kept.right.flags

theorem ProtKept.radioStep (kept : ProtKept ap) (event : RadioEvent) :
    ProtStep (radioStep ap event) (ProtFine ap event) := by
  cases event with
  | now event => exact kept.apStep event
  | ifRun up =>
    refine ⟨iff_true_intro ⟨fun counter => ?_, ?_⟩, fun _ => kept.erp⟩
    · have before := kept.right.counted counter
      cases counter <;> exact before
    · have flags := kept.right.flags
      exact ⟨flags.slot, flags.erp, flags.ht⟩
  | htTxchwidth macaddr wide =>
    exact kept.atSta macaddr _ _ fun sta found =>
      kept.putWidth found ⟨rfl, rfl⟩ rfl rfl rfl (Or.inl rfl)
  | operateMode macaddr optMode =>
    refine kept.atSta macaddr _ _ fun sta found => ?_
    obtain ⟨same, erp⟩ := parseVhtOpMdNtf_same optMode sta
    exact kept.putWidth found same erp rfl rfl (Or.inl rfl)
  | bssCoex macaddr =>
    exact kept.atSta macaddr _ _ fun sta found =>
      kept.putWidth found ⟨rfl, rfl⟩ rfl rfl rfl (Or.inr rfl)

end Events

/-- After a step the counters and the modes are those of the associated stations. -/
def ProtAfter (ap : ApVif) (event : RadioEvent) : Prop := ProtLawful (radioStep ap event)

theorem ProtKept.lawful_iff {ap : ApVif} (kept : ProtKept ap) (event : RadioEvent) :
    ProtAfter ap event ↔ ProtFine ap event :=
  protLawful_iff.trans (kept.radioStep event).right

theorem AidKept.radioStep {ap : ApVif} {leaked : List Nat} (kept : AidKept ap leaked)
    (event : RadioEvent) : ∃ leaked', AidKept (radioStep ap event) leaked' := by
  have written : ∀ macaddr (change : ApSta → ApVif),
      (∀ sta, ap.getSta sta.staMacaddr = some sta → AidTidy ap leaked (change sta)) →
        ∃ leaked', AidKept (ap.atSta macaddr change) leaked' := by
    intro macaddr change each
    obtain ⟨leaked', after, -⟩ := kept.atSta macaddr change each
    exact ⟨leaked', after⟩
  cases event with
  | now event =>
    obtain ⟨leaked', after, -⟩ := kept.step event
    exact ⟨leaked', after⟩
  | ifRun up =>
    have framed : AidStep ap leaked { ap with mac := { ap.mac with ifRunUp := up } } :=
      kept.frame ⟨rfl, rfl, rfl, rfl, rfl, fun _ => id⟩
    exact ⟨leaked, framed.kept⟩
  | htTxchwidth macaddr wide =>
    exact written macaddr _ fun sta found => AidStep.tidy (kept.put found ⟨rfl, rfl⟩)
  | operateMode macaddr optMode =>
    exact written macaddr _ fun sta found =>
      AidStep.tidy (kept.put found (parseVhtOpMdNtf_same optMode sta).1)
  | bssCoex macaddr =>
    refine written macaddr _ fun sta found => AidStep.tidy ?_
    have framed : AidStep ap leaked { ap with
        vmBandwidth := wifinetBwcWidth20
        mac := wifiMacChangeCbw ap.mac } :=
      kept.frame ⟨rfl, rfl, rfl, rfl, rfl, fun _ => id⟩
    exact framed.trans (framed.kept.put found ⟨rfl, rfl⟩)

private theorem ProtKept.next {ap : ApVif} (kept : ProtKept ap) (event : RadioEvent)
    (lawful : ProtAfter ap event) : ProtKept (Ap.radioStep ap event) := by
  obtain ⟨leaked, aids⟩ := kept.aids
  exact ⟨aids.radioStep event, (kept.radioStep event).erp ((kept.lawful_iff event).mp lawful),
    protLawful_iff.mp lawful⟩

private theorem apInit_prot (start : ApStart) : ProtKept (apInit start) := by
  have only : ∀ sta ∈ (apInit start).ntNsta, sta.staAssocid = 0 ∧ sta.nodeErp = false := by
    intro sta member
    rw [List.mem_singleton.mp member]
    exact ⟨rfl, rfl⟩
  refine ⟨⟨[], (taskInit_settled start).kept⟩, fun sta member => ?_, fun counter => ?_, ?_⟩
  · exact ⟨fun assoc => absurd (only sta member).1 assoc, fun _ => (only sta member).2⟩
  · rw [tally_free fun sta member => (only sta member).1]
    cases counter <;> rfl
  · refine ⟨?_, iff_of_false Bool.false_ne_true fun absurdity => absurdity.2 rfl, rfl⟩
    have slot : (apInit start).mac.shslot = (start.vmMacMode != 1 && start.capShslot) := rfl
    rw [slot, Bool.and_eq_true, bne_iff_ne]
    exact and_congr_right fun _ => (and_iff_left rfl).symm

end W522a.Ap
