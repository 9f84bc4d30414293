import W522a.Ap.PowerTable

/-!
When the bits of an access point announce what it keeps: they and the two counts are right until a
station leaves that sleeps or has frames, in a way that does not look after them.
-/

namespace W522a.Ap

section Request

variable {ap : ApVif} {leaked : List Nat} {sta old : ApSta} {others : List Nat} {sleeping : Nat}

/-- A station that is awake and has no frames is like any other such station. -/
theorem PowerHand.replace {tim : TimVif} {psSta : Nat}
    (hand : PowerHand tim psSta old others sleeping) (wasAwake : old.nodePwrMgt = false)
    (awake : sta.nodePwrMgt = false) (empty : sta.staPstxqueue = []) :
    PowerHand tim psSta sta others sleeping := by
  have pool := hand.pool
  have count := hand.count
  rw [waitsBy_empty (hand.tidy.awake wasAwake)] at pool
  rw [sleepsBy_awake wasAwake] at count
  refine ⟨⟨fun asleep => ?_, fun frames => absurd empty frames⟩, ?_, ?_, hand.few⟩
  · rw [awake] at asleep
    cases asleep
  · rw [waitsBy_empty empty]
    exact pool
  · rw [sleepsBy_awake awake]
    exact count

private theorem wifiMac11gInitParam_power (mac : WifiMac) (sta : ApSta) :
    SamePower (wifiMac11gInitParam mac sta).2 sta := by
  unfold wifiMac11gInitParam
  dsimp only
  split <;> exact ⟨⟨rfl, rfl⟩, rfl, rfl⟩

/-- What is done for older rules changes nothing of the power save state. -/
theorem joinProtection_power (ap : ApVif) (sta : ApSta) :
    (joinProtection ap sta).1.tim = ap.tim ∧ (joinProtection ap sta).1.vmPsSta = ap.vmPsSta ∧
      (joinProtection ap sta).1.ntNsta = ap.ntNsta ∧ SamePower (joinProtection ap sta).2 sta := by
  have older : ∀ (next : ApVif) (other : ApSta), SamePower (if wifinetInclude11g next.vmMacMode
      then wifiMac11gInitParam next.mac other else (next.mac, other)).2 other := by
    intro next other
    split
    · exact wifiMac11gInitParam_power _ _
    · exact SamePower.refl other
  unfold joinProtection
  by_cases intolerant : (sta.nodeHt && sta.node40Intolerant) = true
  · rw [if_pos intolerant]
    exact ⟨rfl, rfl, rfl, (older _ _).trans ⟨⟨rfl, rfl⟩, rfl, rfl⟩⟩
  · rw [if_neg intolerant]
    exact ⟨rfl, rfl, rfl, older _ _⟩

/-- The answer leaves nothing behind of a station that is awake and has no frames. -/
theorem PowerHand.answer (tidy : ∀ other ∈ ap.ntNsta, PowerTidy other)
    (distinct : Keyed.Distinct ApSta.staMacaddr ap.ntNsta)
    (present : ap.getSta sta.staMacaddr ≠ none) (awake : sta.nodePwrMgt = false)
    (hand : PowerHand ap.tim ap.vmPsSta sta
      (waits (Keyed.remove ApSta.staMacaddr ap.ntNsta sta.staMacaddr) ++ [])
      (sleepers (Keyed.remove ApSta.staMacaddr ap.ntNsta sta.staMacaddr) + 0))
    (env : JoinEnv) : PowerKept (answerAssoc ap sta env).1 [] 0 := by
  have written : PowerHand ap.tim ap.vmPsSta { sta with
      staUcastkey := none
      staInactReload := wifinetInactAuth
      staInact := wifinetInactAuth }
      (waits (Keyed.remove ApSta.staMacaddr ap.ntNsta sta.staMacaddr) ++ [])
      (sleepers (Keyed.remove ApSta.staMacaddr ap.ntNsta sta.staMacaddr) + 0) :=
    hand.same ⟨⟨rfl, rfl⟩, rfl, rfl⟩
  obtain ⟨stale, uncounted, after, fine⟩ := PowerHand.disconnectFromAp tidy written env.leave
  obtain ⟨rfl, rfl⟩ := fine.mpr ⟨written.tidy.awake awake, fun _ => awake⟩
  unfold answerAssoc
  dsimp only
  split
  · exact after
  · split
    · exact after
    · exact written.put distinct present tidy

private theorem PowerKept.search (power : PowerKept ap [] 0) (kept : AidKept ap leaked)
    (inited : ap.ntInited = true) : PowerKept (searchAid ap) [] 0 := by
  obtain ⟨-, table, -⟩ := kept.search inited
  have same : (searchAid ap).tim = ap.tim ∧ (searchAid ap).vmPsSta = ap.vmPsSta := by
    unfold searchAid wifiMacApRebuildAidState
    split
    · exact ⟨rfl, rfl⟩
    · split <;> exact ⟨rfl, rfl⟩
  refine ⟨?_, ?_, ?_⟩
  · rw [table]
    exact power.tidy
  · rw [table, same.1]
    exact power.pool
  · rw [table, same.2]
    exact power.count

/-- A station that joins leaves nothing behind. -/
theorem PowerKept.connect (power : PowerKept ap [] 0) (kept : AidKept ap leaked)
    (found : ap.getSta sta.staMacaddr = some sta) (free : sta.staAssocid = 0) (env : JoinEnv) :
    PowerKept (wifiMacStaConnect ap sta env).1 [] 0 := by
  have inited := kept.tableInited found
  obtain ⟨⟨leaked', kept', -⟩, table, -⟩ := kept.search inited
  have searched := power.search kept inited
  have known : (searchAid ap).getSta sta.staMacaddr = some sta := by
    rw [ApVif.getSta, table]
    exact found
  have tidy := power.tidy sta (Keyed.mem_of_find found)
  have awake := tidy.free free
  rcases wifiMacStaConnect_cases ap sta env with
    ⟨assoc, -⟩ | ⟨-, -, refuses⟩ | ⟨-, aid, -, joins⟩
  · exact absurd free assoc
  · rw [refuses]
    obtain ⟨stale, uncounted, after, fine⟩ :=
      searched.disconnectFromAp kept' known (SamePower.refl sta) env.leave
    obtain ⟨rfl, rfl⟩ := fine.mpr ⟨tidy.awake awake, fun _ => awake⟩
    exact after
  · rw [joins]
    obtain ⟨bits, count, same, power⟩ := joinProtection_power
      (grantAid (searchAid ap) sta aid).1 (grantAid (searchAid ap) sta aid).2
    have hand := searched.take kept'.distinct (kept'.few searched.tidy) known
    have joined : (joinProtection (grantAid (searchAid ap) sta aid).1
        (grantAid (searchAid ap) sta aid).2).2.staMacaddr = sta.staMacaddr := power.macaddr
    refine PowerHand.answer ?_ ?_ ?_ ?_ ?_ env
    · rw [same]
      exact searched.tidy
    · rw [same]
      exact kept'.distinct
    · rw [ApVif.getSta, same, joined]
      exact fun absent => Option.some_ne_none sta (known.symm.trans absent)
    · rw [power.pwrMgt]
      exact awake
    · rw [bits, count, same, joined]
      refine hand.replace awake ?_ ?_
      · rw [power.pwrMgt]
        exact awake
      · rw [power.queue]
        exact tidy.awake awake

private theorem wifiMacStaConnect_answer (ap : ApVif) (sta : ApSta) (env : JoinEnv) (status : Nat) :
    (wifiMacStaConnect ap sta env).2 ≠ .refused status := by
  have answers : ∀ (ap : ApVif) (sta : ApSta), (answerAssoc ap sta env).2 ≠ .refused status := by
    intro ap sta
    unfold answerAssoc
    dsimp only
    split
    · exact AssocAnswer.noConfusion
    · split <;> exact AssocAnswer.noConfusion
  rcases wifiMacStaConnect_cases ap sta env with
    ⟨-, ends⟩ | ⟨-, -, ends⟩ | ⟨-, aid, -, ends⟩
  · rw [ends]
    exact answers _ _
  · rw [ends]
    exact AssocAnswer.noConfusion
  · rw [ends]
    exact answers _ _

private theorem PowerKept.markReassoc (power : PowerKept ap [] 0) (kept : AidKept ap leaked)
    (macaddr : Nat) : PowerKept (markReassoc ap macaddr) [] 0 := by
  rcases markReassoc_cases ap macaddr with same | ⟨marked, found, changed⟩
  · rw [same]
    exact power
  · rw [changed]
    exact power.put kept.distinct (kept.few power.tidy) found ⟨⟨rfl, rfl⟩, rfl, rfl⟩

theorem PowerKept.bupBss (power : PowerKept ap [] 0) {macaddr : Nat}
    (absent : ap.getSta macaddr = none) : PowerKept (wifiMacBupBss ap macaddr).1 [] 0 := by
  rcases wifiMacBupBss_cases absent with nowhere | ⟨authSae, staRsn, -, placed⟩
  · rw [nowhere]
    exact power
  · rw [placed]
    exact power.concat rfl rfl

/-- The station of a request is in the table, or it is new. -/
theorem PowerKept.assocTarget (power : PowerKept ap [] 0) (macaddr : Nat) :
    PowerKept (assocTarget ap macaddr).1 [] 0 ∧
      ∀ target, (assocTarget ap macaddr).2 = some target →
        ap.getSta macaddr = some target ∨
        (ap.getSta macaddr = none ∧ ∀ lacksMemory, LeavesQuietly target lacksMemory) := by
  rcases assocTarget_cases ap macaddr with
    nowhere | ⟨-, ⟨sta, found, here⟩ | ⟨absent, -, authSae, staRsn, placed⟩⟩
  · rw [nowhere]
    exact ⟨power, fun target absurdity => nomatch absurdity⟩
  · rw [here]
    refine ⟨power, ?_⟩
    rintro target ⟨⟩
    exact Or.inl found
  · rw [placed]
    refine ⟨power.concat rfl rfl, ?_⟩
    rintro target ⟨⟩
    exact Or.inr ⟨absent, fun _ => ⟨rfl, fun _ => rfl⟩⟩

/-- What a request leaves behind: nothing, unless a station is refused that does not leave quietly. -/
theorem PowerKept.recvAssocReq (power : PowerKept ap [] 0) (kept : AidKept ap leaked)
    (conf : AssocConf) (frame : AssocFrame) (env : JoinEnv) :
    ∃ stale uncounted, PowerKept (wifiMacRecvAssocReq conf ap frame env).1 stale uncounted ∧
      (stale = [] ∧ uncounted = 0 ↔
        ∀ status, (wifiMacRecvAssocReq conf ap frame env).2 = .refused status →
          ∀ sta, ap.getSta frame.addr2 = some sta → LeavesQuietly sta env.leave.lacksMemory) := by
  have marked := power.markReassoc kept frame.addr2
  have kept' := (kept.markReassoc frame.addr2).1.kept
  have nothing : ∀ (next : ApVif) (answer : AssocAnswer), PowerKept next [] 0 →
      (∀ status, answer ≠ .refused status) → ∃ stale uncounted, PowerKept next stale uncounted ∧
        (stale = [] ∧ uncounted = 0 ↔ ∀ status, answer = .refused status →
          ∀ sta, ap.getSta frame.addr2 = some sta →
            LeavesQuietly sta env.leave.lacksMemory) := by
    intro next answer after other
    refine ⟨[], 0, after, iff_of_true ⟨rfl, rfl⟩ ?_⟩
    exact fun status refused => absurd refused (other status)
  have placed := (kept'.assocTarget frame.addr2).1
  obtain ⟨after, whose⟩ := marked.assocTarget frame.addr2
  rcases wifiMacRecvAssocReq_cases conf ap frame env with
    ⟨-, drops | drops | ⟨next, place, drops⟩⟩ | ⟨mainsta, next, target, -, place, ways⟩
  · rw [drops]
    exact nothing _ _ power fun _ => AssocAnswer.noConfusion
  · rw [drops]
    exact nothing _ _ marked fun _ => AssocAnswer.noConfusion
  · rw [place] at after
    rw [drops]
    exact nothing _ _ after fun _ => AssocAnswer.noConfusion
  · rw [place] at placed after whose
    replace after : PowerKept next [] 0 := after
    have found := getSta_self (placed.found target rfl)
    have same := (assocStation_same conf next mainsta frame target).toSamePower
    have few := placed.step.kept.few after.tidy
    rcases ways with ⟨status, refused, verdict, refuses⟩ | ⟨accepted, verdict, -, updates⟩ |
      ⟨accepted, verdict, free, joins⟩
    · rw [verdict] at same
      rw [refuses]
      obtain ⟨stale, uncounted, left, fine⟩ :=
        after.disconnectFromAp placed.step.kept found same env.leave
      refine ⟨stale, uncounted, left, fine.trans ?_⟩
      obtain ⟨nobody, somebody⟩ := markReassoc_getSta ap frame.addr2 frame.addr2
      rcases whose target rfl with known | ⟨absent, quiet⟩
      · obtain ⟨old, there, marks⟩ := somebody target known
        have power : SamePower target old := by
          rcases marks with rfl | rfl
          · exact SamePower.refl _
          · exact ⟨⟨rfl, rfl⟩, rfl, rfl⟩
        rw [LeavesQuietly.same power]
        constructor
        · rintro quiet - - sta here
          rw [there] at here
          exact Option.some.inj here ▸ quiet
        · exact fun quiet => quiet status rfl old there
      · refine iff_of_true (quiet _) ?_
        rintro - - sta here
        rw [nobody.mp absent] at here
        cases here
    · rw [verdict] at same
      rw [updates]
      refine nothing _ _ ?_ fun _ => AssocAnswer.noConfusion
      exact after.put placed.step.kept.distinct few found same
    · rw [verdict] at same
      replace same : SamePower accepted target := same
      have written := after.put placed.step.kept.distinct few found same
      have kept'' := (placed.step.kept.put found same.toSameHolder).kept
      have here : (next.put accepted).getSta accepted.staMacaddr = some accepted := by
        refine getSta_put ?_
        rw [same.macaddr, found]
        exact Option.some_ne_none target
      rw [joins]
      refine nothing _ _ (written.connect kept'' here free env) fun status => ?_
      exact wifiMacStaConnect_answer _ _ env status

end Request

section Events

variable {ap : ApVif} {leaked : List Nat} {sta : ApSta}

/-- A station is written after something happened to it in hand. -/
theorem PowerKept.putHand {next : ApVif} {other : ApSta} (power : PowerKept ap [] 0)
    (kept : AidKept ap leaked) (found : ap.getSta sta.staMacaddr = some sta)
    (table : next.ntNsta = ap.ntNsta) (name : other.staMacaddr = sta.staMacaddr)
    (hand : PowerHand next.tim next.vmPsSta other
      (waits (Keyed.remove ApSta.staMacaddr ap.ntNsta sta.staMacaddr) ++ [])
      (sleepers (Keyed.remove ApSta.staMacaddr ap.ntNsta sta.staMacaddr) + 0)) :
    PowerKept (next.put other) [] 0 := by
  rw [← table, ← name] at hand
  refine hand.put ?_ ?_ ?_
  · rw [table]
    exact kept.distinct
  · rw [ApVif.getSta, table, name]
    exact fun absent => Option.some_ne_none sta (found.symm.trans absent)
  · rw [table]
    exact power.tidy

private theorem PowerKept.recvAuth (power : PowerKept ap [] 0) (kept : AidKept ap leaked)
    (macaddr : Nat) : PowerKept (recvAuth ap macaddr) [] 0 := by
  have step : PowerKept (if (ap.getSta macaddr).isSome then ap
        else (wifiMacBupBss ap macaddr).1) [] 0 ∧
      AidKept (if (ap.getSta macaddr).isSome then ap
        else (wifiMacBupBss ap macaddr).1) leaked := by
    by_cases known : (ap.getSta macaddr).isSome = true
    · rw [if_pos known]
      exact ⟨power, kept⟩
    · rw [if_neg known]
      exact ⟨power.bupBss (by simpa using known), (kept.bupBss macaddr).step.kept⟩
  obtain ⟨after, kept'⟩ := step
  unfold Ap.recvAuth ApVif.atSta
  dsimp only
  split
  · exact after
  · next sta found =>
    exact after.put kept'.distinct (kept'.few after.tidy) (getSta_self found)
      ⟨⟨rfl, rfl⟩, rfl, rfl⟩

private theorem PowerKept.recvData (power : PowerKept ap [] 0) (kept : AidKept ap leaked)
    (found : ap.getSta sta.staMacaddr = some sta) (jiffies : Nat) (powerManagement : Bool) :
    PowerKept (recvData ap sta jiffies powerManagement) [] 0 := by
  have few := kept.few power.tidy
  have heard : SamePower (heardSta sta jiffies) sta := ⟨⟨rfl, rfl⟩, rfl, rfl⟩
  unfold Ap.recvData
  dsimp only
  split
  · exact power.put kept.distinct few found heard
  · next changes =>
    have assoc : sta.staAssocid ≠ 0 := fun free => changes (Or.inl free)
    have hand := ((power.take kept.distinct few found).same heard).stateChange
      ((kept.own found).same heard.toSameHolder) assoc powerManagement
    obtain ⟨frame, holder⟩ := stateChange_frame ap (heardSta sta jiffies) powerManagement
    exact power.putHand kept found frame.table holder.macaddr hand

/-- A station that is deleted is woken up first, and leaves nothing behind then. -/
theorem PowerKept.delStation (power : PowerKept ap [] 0) (kept : AidKept ap leaked)
    (found : ap.getSta sta.staMacaddr = some sta) (env : LeaveEnv) :
    ∃ stale uncounted, PowerKept (vmCfg80211DelStation ap sta env) stale uncounted ∧
      (stale = [] ∧ uncounted = 0 ↔ (ap.psqueueHeld = true → sta.nodePwrMgt = true →
        LeavesQuietly sta env.lacksMemory)) := by
  have tidy := power.tidy sta (Keyed.mem_of_find found)
  unfold vmCfg80211DelStation
  by_cases free : sta.staAssocid = 0
  · rw [if_pos free]
    refine ⟨[], 0, power, iff_of_true ⟨rfl, rfl⟩ fun _ asleep => ?_⟩
    exact absurd free (tidy.asleep asleep)
  · rw [if_neg free]
    dsimp only
    have hand := (power.take kept.distinct (kept.few power.tidy) found).stateChange
      (kept.own found) free false
    obtain ⟨frame, holder⟩ := stateChange_frame ap sta false
    have left := hand
    rw [← frame.table, ← holder.macaddr] at left
    obtain ⟨stale, uncounted, after, fine⟩ := PowerHand.disconnectFromAp
      (frame.table ▸ power.tidy) left env
    refine ⟨stale, uncounted, after, fine.trans ?_⟩
    rcases stateChange_awake ap sta with ⟨asleep, waiting, same⟩ | awake
    · rw [same]
      exact ⟨fun quiet _ _ => quiet, fun quiet => quiet waiting asleep⟩
    · refine iff_of_true ⟨hand.tidy.awake awake, fun _ => awake⟩ fun waiting asleep => ?_
      have same : (wifiMacPwrsaveStateChange ap sta false).2 = sta := by
        unfold wifiMacPwrsaveStateChange
        simp [waiting, asleep]
      rw [same, asleep] at awake
      cases awake

/-- No station that sleeps or has frames leaves in a way that does not look after them. -/
def PowerFine (ap : ApVif) : ApEvent → Prop
  | .assocReq conf frame env => ∀ status,
    (wifiMacRecvAssocReq conf ap frame env).2 = .refused status →
      ∀ sta, ap.getSta frame.addr2 = some sta → LeavesQuietly sta env.leave.lacksMemory
  | .disconnect macaddr env => ∀ sta, ap.getSta macaddr = some sta →
    LeavesQuietly sta env.lacksMemory
  | .delStation macaddr env => ∀ sta, ap.getSta macaddr = some sta → ap.psqueueHeld = true →
    sta.nodePwrMgt = true → LeavesQuietly sta env.lacksMemory
  | .timeout jiffies hz => ∀ sta ∈ ap.ntNsta,
    timesOut ap.vmMainsta jiffies hz sta = true → sta.nodePwrMgt = false
  | .rstBss lacks => ∀ sta ∈ ap.ntNsta,
    lacks.contains sta.staMacaddr = true → sta.staPstxqueue = []
  | .vdetach lacks | .clearTable lacks => ∀ sta ∈ ap.ntNsta,
    lacks.contains sta.staMacaddr = true → sta.nodePwrMgt = false
  | _ => True

/-- What a step leaves behind: nothing, exactly when it is fine. -/
theorem PowerKept.step (power : PowerKept ap [] 0) (kept : AidKept ap leaked) (event : ApEvent) :
    ∃ stale uncounted, PowerKept (apStep ap event) stale uncounted ∧
      (stale = [] ∧ uncounted = 0 ↔ PowerFine ap event) := by
  have few := kept.few power.tidy
  have nothing : ∀ next, PowerKept next [] 0 →
      ∃ stale uncounted, PowerKept next stale uncounted ∧
        (stale = [] ∧ uncounted = 0 ↔ True) :=
    fun next after => ⟨[], 0, after, iff_true_intro ⟨rfl, rfl⟩⟩
  have known : ∀ {macaddr sta}, ap.getSta macaddr = some sta →
      ap.getSta sta.staMacaddr = some sta := fun found => getSta_self found
  cases event with
  | auth macaddr => exact nothing _ (power.recvAuth kept macaddr)
  | authorize macaddr =>
    refine nothing _ ?_
    rw [apStep, ApVif.atSta]
    cases found : ap.getSta macaddr with
    | none => exact power
    | some sta => exact power.put kept.distinct few (known found) ⟨⟨rfl, rfl⟩, rfl, rfl⟩
  | heard macaddr jiffies =>
    refine nothing _ ?_
    rw [apStep, ApVif.atSta]
    cases found : ap.getSta macaddr with
    | none => exact power
    | some sta => exact power.put kept.distinct few (known found) ⟨⟨rfl, rfl⟩, rfl, rfl⟩
  | data macaddr jiffies powerManagement =>
    refine nothing _ ?_
    rw [apStep, ApVif.atSta]
    cases found : ap.getSta macaddr with
    | none => exact power
    | some sta => exact power.recvData kept (known found) jiffies powerManagement
  | assocReq conf frame env => exact power.recvAssocReq kept conf frame env
  | disconnect macaddr env =>
    rw [apStep, ApVif.atSta, PowerFine]
    cases found : ap.getSta macaddr with
    | none =>
      refine ⟨[], 0, ?_, iff_of_true ⟨rfl, rfl⟩ fun sta there => by cases there⟩
      split <;> exact power
    | some sta =>
      by_cases main : ap.vmMainsta = some macaddr
      · rw [if_pos main]
        refine ⟨[], 0, power, iff_of_true ⟨rfl, rfl⟩ ?_⟩
        rintro other ⟨⟩
        have member := Keyed.mem_of_find found
        have name : sta.staMacaddr = macaddr := Keyed.key_of_find found
        have tidy := power.tidy sta member
        have awake := tidy.free (kept.main sta member (name ▸ main))
        exact ⟨tidy.awake awake, fun _ => awake⟩
      · rw [if_neg main]
        obtain ⟨stale, uncounted, after, fine⟩ :=
          power.disconnectFromAp kept (known found) (SamePower.refl sta) env
        refine ⟨stale, uncounted, after, fine.trans ⟨?_, fun quiet => quiet sta rfl⟩⟩
        rintro quiet other ⟨⟩
        exact quiet
  | delStation macaddr env =>
    rw [apStep, ApVif.atSta, PowerFine]
    cases found : ap.getSta macaddr with
    | none =>
      exact ⟨[], 0, power, iff_of_true ⟨rfl, rfl⟩ fun sta there => by cases there⟩
    | some sta =>
      obtain ⟨stale, uncounted, after, fine⟩ := power.delStation kept (known found) env
      refine ⟨stale, uncounted, after, fine.trans ⟨?_, fun quiet => quiet sta rfl⟩⟩
      rintro quiet other ⟨⟩
      exact quiet
  | enqueue macaddr =>
    refine nothing _ ?_
    rw [apStep, ApVif.atSta]
    cases found : ap.getSta macaddr with
    | none => exact power
    | some sta =>
      dsimp only
      rw [enqueueFrame]
      by_cases asleep : sta.nodePwrMgt = true
      · rw [if_pos asleep]
        have hand := (power.take kept.distinct few (known found)).enqueue
          (kept.own (known found)) asleep ap.vmBcnIntval
        have same := (psqueueEnqueue_same ap.vmBcnIntval ap.tim sta).1
        exact power.putHand kept (known found) rfl same.macaddr hand
      · rw [if_neg asleep]
        exact power
  | pspoll macaddr aid =>
    refine nothing _ ?_
    rw [apStep, ApVif.atSta]
    cases found : ap.getSta macaddr with
    | none => exact power
    | some sta =>
      have hand := (power.take kept.distinct few (known found)).pspoll (kept.own (known found)) aid
      have same := (recvPspoll_same ap.tim sta aid).1
      exact power.putHand kept (known found) rfl same.macaddr hand
  | hold held => exact nothing _ ⟨power.tidy, power.pool, power.count⟩
  | timeout jiffies hz => exact power.timeout kept jiffies hz
  | rstBss lacks =>
    obtain ⟨stale, after, fine⟩ := power.rstBss kept lacks
    exact ⟨stale, 0, after, (and_iff_left rfl).trans fine⟩
  | vdetach lacks => exact power.tableRst_iff kept true lacks
  | clearTable lacks => exact power.clearTable kept lacks

end Events

def PowerAfter (ap : ApVif) (event : ApEvent) : Prop := PowerLawful (apStep ap event)

/-- An access point whose bookkeeping says no more than the truth. -/
structure PowerSettled (ap : ApVif) : Prop where
  kept : ∃ leaked, AidKept ap leaked
  power : PowerKept ap [] 0

private theorem PowerSettled.lawful_iff {ap : ApVif} (settled : PowerSettled ap) (event : ApEvent) :
    PowerAfter ap event ↔ PowerFine ap event := by
  obtain ⟨⟨leaked, kept⟩, power⟩ := settled
  obtain ⟨stale, uncounted, after, fine⟩ := power.step kept event
  exact after.lawful_iff.trans fine

private theorem PowerSettled.step {ap : ApVif} (settled : PowerSettled ap) (event : ApEvent)
    (lawful : PowerAfter ap event) : PowerSettled (apStep ap event) := by
  obtain ⟨⟨leaked, kept⟩, power⟩ := settled
  obtain ⟨leaked', after, -⟩ := kept.step event
  obtain ⟨stale, uncounted, next, -⟩ := power.step kept event
  obtain ⟨rfl, rfl⟩ := next.lawful_iff.mp lawful
  exact ⟨⟨leaked', after⟩, next⟩

private theorem apInit_power (start : ApStart) : PowerSettled (apInit start) := by
  have settled : AidKept (apInit start) [] := (taskInit_settled start).kept
  refine ⟨⟨[], settled⟩, ?_, ?_, rfl⟩
  · intro sta member
    rw [List.mem_singleton.mp member]
    exact ⟨fun absurdity => (nomatch absurdity), fun frames => absurd rfl frames⟩
  · have none : Pool.Kept 8 1 17 (List.replicate 3 0) [] := Pool.Kept.none_held 3
    have clear : ∀ index, Bitmap.isset 8 (List.replicate 3 0) index = false := by
      intro index
      rw [← Bool.not_eq_true, none.bits]
      exact List.not_mem_nil
    have zero := (Bitmap.card_eq_zero_iff (by decide)).mpr clear
    exact ⟨rfl, rfl, none, zero.symm⟩

end W522a.Ap
