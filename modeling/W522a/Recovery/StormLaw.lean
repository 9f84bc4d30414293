import Mathlib.Order.Nat
import W522a.Recovery.Storm

/-!
The guard's tests by the time since its last attempt, and from them the runs in which the attempts
stay apart, end after ten and are granted anew after a healthy gap.
-/

namespace W522a.Recovery

section Guard

variable {clock : Jiffies} {state : StormState} {env : RecoveryEnv} {reason : StallReason}

private theorem least_lt_half (clock : Jiffies) : recoveryMinInterval * clock.hz < clock.half := by
  have wide := clock.wide
  simp only [recoveryMinInterval, recoveryHealthyGap] at wide ⊢
  omega

/-- What the guard remembers is the last attempt, and its count is right when it has none. -/
structure StormInv (clock : Jiffies) (state : StormState) : Prop where
  few : state.mac.recoveryAttempts ≤ recoveryGiveupAfter
  bounded : state.episode ≤ recoveryGiveupAfter
  spaced : state.attempts.Pairwise fun later earlier =>
    earlier + recoveryMinInterval * clock.hz ≤ later
  fresh : state.attempts = [] →
    state.mac.lastRecoveryJiffies = 0 ∧ state.mac.recoveryAttempts = 0 ∧ state.episode = 0
  last : ∀ earlier ∈ state.attempts.head?, earlier ≤ state.now ∧
    state.mac.lastRecoveryJiffies = clock.word earlier ∧
      (clock.word earlier = 0 → state.mac.recoveryAttempts ≠ 0)

/-- The attempts counted after the test of the healthy gap. -/
def keptAttempts (clock : Jiffies) (state : StormState) : Nat :=
  if recoveryStale clock (clock.word state.now) state.mac then 0 else state.mac.recoveryAttempts

def LetsThrough (clock : Jiffies) (state : StormState) : Prop :=
  recoveryThrottled clock (clock.word state.now) state.mac = false ∧
    keptAttempts clock state < recoveryGiveupAfter

theorem schedule_cases (clock : Jiffies) (env : RecoveryEnv) (reason : StallReason)
    (state : StormState) (running : env.wmMacExit = false) :
    let result := wifiMacScheduleTxRecovery clock (clock.word state.now) env (some reason) state.mac
    (LetsThrough clock state ∧ result.2.attempted = true ∧
        result.1.lastRecoveryJiffies = clock.word state.now ∧
        result.1.recoveryAttempts = keptAttempts clock state + 1) ∨
      (¬ LetsThrough clock state ∧ result.2.attempted = false ∧
        result.1.lastRecoveryJiffies = state.mac.lastRecoveryJiffies ∧
        result.1.recoveryAttempts = keptAttempts clock state) := by
  have forgets : ∀ mac : RecoveryMac,
      recoveryThrottled clock (clock.word state.now) { mac with recoveryAttempts := 0 } =
        recoveryThrottled clock (clock.word state.now) mac := fun _ => rfl
  unfold wifiMacScheduleTxRecovery LetsThrough keptAttempts
  rw [running, if_neg Bool.false_ne_true]
  dsimp only
  by_cases stale : recoveryStale clock (clock.word state.now) state.mac = true
  · rw [if_pos stale, if_pos stale, forgets]
    by_cases throttled : recoveryThrottled clock (clock.word state.now) state.mac = true
    · rw [if_pos throttled]
      exact Or.inr ⟨fun lets => Bool.false_ne_true (lets.1.symm.trans throttled), rfl, rfl, rfl⟩
    · rw [if_neg throttled]
      exact Or.inl ⟨⟨Bool.eq_false_iff.mpr throttled, by decide⟩, rfl, rfl, rfl⟩
  · rw [if_neg stale, if_neg stale]
    by_cases throttled : recoveryThrottled clock (clock.word state.now) state.mac = true
    · rw [if_pos throttled]
      exact Or.inr ⟨fun lets => Bool.false_ne_true (lets.1.symm.trans throttled), rfl, rfl, rfl⟩
    · rw [if_neg throttled]
      by_cases many : recoveryGiveupAfter ≤ state.mac.recoveryAttempts
      · rw [if_pos many]
        exact Or.inr ⟨fun lets => absurd lets.2 (Nat.not_lt.mpr many), rfl, rfl, rfl⟩
      · rw [if_neg many]
        exact Or.inl ⟨⟨Bool.eq_false_iff.mpr throttled, Nat.lt_of_not_le many⟩, rfl, rfl, rfl⟩

/-- The test of the healthy gap, by the time since the last attempt. -/
theorem recoveryStale_iff {earlier : Nat} (before : earlier ≤ state.now)
    (known : state.mac.lastRecoveryJiffies = clock.word earlier)
    (seen : clock.word earlier ≠ 0) :
    recoveryStale clock (clock.word state.now) state.mac = true ↔
      recoveryHealthyGap * clock.hz < clock.word (state.now - earlier) ∧
        clock.word (state.now - earlier) ≤ recoveryHealthyGap * clock.hz + clock.half := by
  have moment : state.now = earlier + (state.now - earlier) := (Nat.add_sub_of_le before).symm
  unfold recoveryStale
  rw [known, bne_iff_ne.mpr seen, Bool.true_and]
  nth_rewrite 1 [moment]
  exact Clock.Ticks.after_ahead clock.wide

theorem recoveryThrottled_iff {earlier : Nat} (before : earlier ≤ state.now)
    (known : state.mac.lastRecoveryJiffies = clock.word earlier)
    (seen : clock.word earlier ≠ 0) :
    recoveryThrottled clock (clock.word state.now) state.mac = true ↔
      clock.word (state.now - earlier) < recoveryMinInterval * clock.hz ∨
        recoveryMinInterval * clock.hz + clock.half ≤ clock.word (state.now - earlier) := by
  have moment : state.now = earlier + (state.now - earlier) := (Nat.add_sub_of_le before).symm
  unfold recoveryThrottled
  rw [known, bne_iff_ne.mpr seen, Bool.true_and]
  nth_rewrite 1 [moment]
  exact Clock.Ticks.before_ahead (least_lt_half clock)

variable (clock state) in
/-- An attempt at the moment zero of `jiffies` is none to the guard. -/
theorem unseen_tests (unseen : state.mac.lastRecoveryJiffies = 0) :
    recoveryStale clock (clock.word state.now) state.mac = false ∧
      recoveryThrottled clock (clock.word state.now) state.mac = false := by
  unfold recoveryStale recoveryThrottled
  rw [unseen]
  exact ⟨rfl, rfl⟩

structure GuardLaw (clock : Jiffies) (env : RecoveryEnv) (reason : StallReason)
    (state : StormState) : Prop where
  spaced : (stormGuard clock env reason state).attempts.Pairwise fun later earlier =>
    earlier + recoveryMinInterval * clock.hz ≤ later
  bounded : (stormGuard clock env reason state).episode ≤ recoveryGiveupAfter
  restored : HealthyGap clock state →
    (stormGuard clock env reason state).attempts = state.now :: state.attempts ∧
      (stormGuard clock env reason state).mac.recoveryAttempts = 1

/-- The law of a report that follows the attempt `earlier`. -/
structure Judged (clock : Jiffies) (state : StormState) (earlier : Nat) : Prop where
  apart : LetsThrough clock state → earlier + recoveryMinInterval * clock.hz ≤ state.now
  counted : ¬ HealthyGap clock state → LetsThrough clock state →
    state.episode < recoveryGiveupAfter
  renewed : HealthyGap clock state → LetsThrough clock state ∧ keptAttempts clock state = 0

private theorem pairwise_head {relation : Nat → Nat → Prop} {later earlier : Nat} {rest : List Nat}
    (transitive : ∀ oldest, relation earlier oldest → relation later earlier →
      relation later oldest) (chain : (earlier :: rest).Pairwise relation) :
    (later :: earlier :: rest).Pairwise relation ↔ relation later earlier := by
  obtain ⟨first, others⟩ := List.pairwise_cons.mp chain
  constructor
  · intro whole
    exact (List.pairwise_cons.mp whole).1 earlier List.mem_cons_self
  · intro next
    refine List.pairwise_cons.mpr ⟨?_, chain⟩
    intro oldest member
    rcases List.mem_cons.mp member with same | older
    · exact same ▸ next
    · exact transitive oldest (first oldest older) next

theorem guardLaw_iff (inv : StormInv clock state) (running : env.wmMacExit = false)
    {earlier : Nat} {rest : List Nat} (made : state.attempts = earlier :: rest) :
    GuardLaw clock env reason state ↔ Judged clock state earlier := by
  have chain := inv.spaced
  rw [made] at chain
  have extended : (state.now :: earlier :: rest).Pairwise
      (fun later earlier => earlier + recoveryMinInterval * clock.hz ≤ later) ↔
        earlier + recoveryMinInterval * clock.hz ≤ state.now :=
    pairwise_head (fun oldest one two => by omega) chain
  have few := inv.bounded
  have longer : state.now :: earlier :: rest ≠ earlier :: rest := List.cons_ne_self _ _
  rcases schedule_cases clock env reason state running with
    ⟨lets, attempted, -, counted⟩ | ⟨shut, refused, -, counted⟩
  · have attempts : (stormGuard clock env reason state).attempts = state.now :: earlier :: rest := by
      rw [stormGuard, ← made]
      exact if_pos attempted
    have episode : (stormGuard clock env reason state).episode =
        (if HealthyGap clock state then 0 else state.episode) + 1 := if_pos attempted
    constructor
    · rintro ⟨spaced, bounded, restored⟩
      rw [attempts] at spaced
      rw [episode] at bounded
      refine ⟨fun _ => extended.mp spaced, ?_, ?_⟩
      · intro busy _
        rw [if_neg busy] at bounded
        exact bounded
      · intro gap
        exact ⟨lets, Nat.succ.inj (counted.symm.trans (restored gap).2)⟩
    · rintro ⟨apart, bounded, renewed⟩
      refine ⟨attempts ▸ extended.mpr (apart lets), ?_, ?_⟩
      · rw [episode]
        split
        · decide
        · rename_i busy
          exact bounded busy lets
      · intro gap
        refine ⟨made ▸ attempts, counted.trans ?_⟩
        rw [(renewed gap).2]
  · have attempts : (stormGuard clock env reason state).attempts = earlier :: rest := by
      rw [stormGuard, ← made]
      exact if_neg (Bool.eq_false_iff.mp refused)
    have episode : (stormGuard clock env reason state).episode =
        if HealthyGap clock state then 0 else state.episode := if_neg (Bool.eq_false_iff.mp refused)
    constructor
    · rintro ⟨-, -, restored⟩
      refine ⟨fun lets => absurd lets shut, fun _ lets => absurd lets shut, ?_⟩
      intro gap
      have same := (restored gap).1
      rw [attempts, made] at same
      exact absurd same.symm longer
    · rintro ⟨-, -, renewed⟩
      refine ⟨attempts ▸ chain, ?_, fun gap => absurd (renewed gap).1 shut⟩
      rw [episode]
      split
      · exact Nat.zero_le _
      · exact few

private theorem letsThrough_iff {earlier : Nat} (before : earlier ≤ state.now)
    (known : state.mac.lastRecoveryJiffies = clock.word earlier)
    (seen : clock.word earlier ≠ 0) :
    let elapsed := clock.word (state.now - earlier)
    let least := recoveryMinInterval * clock.hz
    let healthy := recoveryHealthyGap * clock.hz
    (LetsThrough clock state ↔ (least ≤ elapsed ∧ elapsed < least + clock.half) ∧
        (healthy < elapsed ∨ state.mac.recoveryAttempts < recoveryGiveupAfter)) ∧
      (least ≤ elapsed ∧ elapsed < least + clock.half →
        (keptAttempts clock state = 0 ↔ healthy < elapsed ∨ state.mac.recoveryAttempts = 0)) := by
  intro elapsed least healthy
  have stale := recoveryStale_iff before known seen
  have throttled := recoveryThrottled_iff before known seen
  have ordered : least ≤ healthy := Nat.mul_le_mul_right clock.hz (by decide)
  have idle : recoveryThrottled clock (clock.word state.now) state.mac = false ↔
      least ≤ elapsed ∧ elapsed < least + clock.half := by
    rw [Bool.eq_false_iff, ne_eq, throttled, not_or, Nat.not_lt, Nat.not_le]
  have attempts : elapsed < least + clock.half → keptAttempts clock state =
      if healthy < elapsed then 0 else state.mac.recoveryAttempts := by
    intro inside
    unfold keptAttempts
    by_cases late : healthy < elapsed
    · rw [if_pos late, if_pos (stale.mpr ⟨late, by omega⟩)]
    · rw [if_neg late, if_neg (fun test => late (stale.mp test).1)]
  constructor
  · rw [LetsThrough, idle]
    refine and_congr_right fun inside => ?_
    rw [attempts inside.2]
    split
    · rename_i late
      exact iff_of_true (by decide) (Or.inl late)
    · rename_i early
      exact ⟨Or.inr, fun either => either.resolve_left early⟩
  · intro inside
    rw [attempts inside.2]
    split
    · rename_i late
      exact iff_of_true rfl (Or.inl late)
    · rename_i early
      exact ⟨Or.inr, fun either => either.resolve_left early⟩

theorem judged_iff (inv : StormInv clock state) {earlier : Nat}
    (made : earlier ∈ state.attempts.head?) :
    Judged clock state earlier ↔ ReportOk clock state earlier := by
  obtain ⟨before, known, counted⟩ := inv.last earlier made
  have few := inv.few
  have bounded := inv.bounded
  unfold ReportOk
  dsimp only
  by_cases zero : clock.word earlier = 0
  · have kept := counted zero
    obtain ⟨fresh, idle⟩ := unseen_tests clock state (known.trans zero)
    have attempts : keptAttempts clock state = state.mac.recoveryAttempts := by
      rw [keptAttempts, fresh, if_neg Bool.false_ne_true]
    have lets : LetsThrough clock state ↔ state.mac.recoveryAttempts < recoveryGiveupAfter := by
      rw [LetsThrough, attempts]
      exact and_iff_right idle
    rw [if_pos zero]
    constructor
    · rintro ⟨apart, few, renewed⟩
      have busy : ¬ HealthyGap clock state := fun gap => kept (attempts ▸ (renewed gap).2)
      refine ⟨busy, fun below => ⟨?_, few busy (lets.mpr below)⟩⟩
      have := apart (lets.mpr below)
      omega
    · rintro ⟨busy, rest⟩
      refine ⟨?_, fun _ passes => (rest (lets.mp passes)).2, fun gap => absurd gap busy⟩
      intro passes
      have := (rest (lets.mp passes)).1
      omega
  · obtain ⟨lets, kept⟩ := letsThrough_iff before known zero
    have shown : clock.word (state.now - earlier) ≤ state.now - earlier := Nat.mod_le _ _
    rw [if_neg zero]
    split
    · rename_i gap
      constructor
      · rintro ⟨-, -, renewed⟩
        obtain ⟨passes, unused⟩ := renewed gap
        have inside := (lets.mp passes).1
        exact ⟨inside.1, inside.2, (kept inside).mp unused⟩
      · rintro ⟨least, most, rest⟩
        refine ⟨?_, fun busy => absurd gap busy, fun _ => ⟨lets.mpr ⟨⟨least, most⟩, ?_⟩, ?_⟩⟩
        · intro _
          omega
        · rcases rest with late | unused
          · exact Or.inl late
          · exact Or.inr (unused ▸ by decide)
        · exact (kept ⟨least, most⟩).mpr rest
    · rename_i busy
      constructor
      · rintro ⟨-, counts, -⟩ full
        have shut : ¬ LetsThrough clock state := fun passes =>
          absurd full (Nat.ne_of_lt (counts busy passes))
        rw [lets] at shut
        omega
      · intro shut
        refine ⟨?_, ?_, fun gap => absurd gap busy⟩
        · intro passes
          have inside := (lets.mp passes).1.1
          omega
        · intro _ passes
          have inside := lets.mp passes
          refine Nat.lt_of_le_of_ne bounded fun full => ?_
          have := shut full
          omega

theorem guardLaw_fresh (inv : StormInv clock state) (running : env.wmMacExit = false)
    (unused : state.attempts = []) : GuardLaw clock env reason state := by
  obtain ⟨unseen, zero, young⟩ := inv.fresh unused
  obtain ⟨fresh, idle⟩ := unseen_tests clock state unseen
  have kept : keptAttempts clock state = 0 := by
    rw [keptAttempts, fresh, if_neg Bool.false_ne_true, zero]
  have lets : LetsThrough clock state := ⟨idle, kept ▸ by decide⟩
  rcases schedule_cases clock env reason state running with
    ⟨-, attempted, -, counted⟩ | ⟨shut, -⟩
  · have attempts : (stormGuard clock env reason state).attempts = state.now :: state.attempts :=
      if_pos attempted
    have episode : (stormGuard clock env reason state).episode =
        (if HealthyGap clock state then 0 else state.episode) + 1 := if_pos attempted
    refine ⟨?_, ?_, fun _ => ⟨attempts, counted.trans (kept ▸ rfl)⟩⟩
    · rw [attempts, unused]
      exact List.pairwise_singleton _ _
    · rw [episode, young, ite_self]
      decide
  · exact absurd lets shut

variable (reason) in
/-- A guard that finds the driver exiting does nothing. -/
theorem StormInv.exiting (inv : StormInv clock state) (exits : env.wmMacExit = true) :
    StormInv clock (stormGuard clock env reason state) ∧
      (stormGuard clock env reason state).attempts = state.attempts := by
  have nothing : wifiMacScheduleTxRecovery clock (clock.word state.now) env (some reason)
      state.mac = (state.mac, ⟨false, [], false⟩) := by
    unfold wifiMacScheduleTxRecovery
    exact if_pos exits
  unfold stormGuard
  rw [nothing]
  refine ⟨⟨inv.few, ?_, inv.spaced, ?_, inv.last⟩, rfl⟩
  · show (if HealthyGap clock state then 0 else state.episode) ≤ recoveryGiveupAfter
    split
    · exact Nat.zero_le _
    · exact inv.bounded
  · intro none
    obtain ⟨unseen, zero, young⟩ := inv.fresh none
    exact ⟨unseen, zero, (congrArg (ite _ 0) young).trans (ite_self 0)⟩

theorem StormInv.guard (inv : StormInv clock state) (running : env.wmMacExit = false)
    (law : GuardLaw clock env reason state) :
    StormInv clock (stormGuard clock env reason state) := by
  have kept : keptAttempts clock state ≤ state.mac.recoveryAttempts := by
    unfold keptAttempts
    split
    · exact Nat.zero_le _
    · exact le_rfl
  rcases schedule_cases clock env reason state running with
    ⟨lets, attempted, last, counted⟩ | ⟨shut, refused, last, counted⟩
  · have attempts : (stormGuard clock env reason state).attempts = state.now :: state.attempts :=
      if_pos attempted
    refine ⟨?_, law.bounded, law.spaced, ?_, ?_⟩
    · exact counted.trans_le lets.2
    · intro none
      rw [attempts] at none
      cases none
    · intro earlier made
      rw [attempts] at made
      cases made
      exact ⟨le_rfl, last, fun _ => counted ▸ Nat.succ_ne_zero _⟩
  · have attempts : (stormGuard clock env reason state).attempts = state.attempts :=
      if_neg (Bool.eq_false_iff.mp refused)
    refine ⟨counted.trans_le (kept.trans inv.few), law.bounded, law.spaced, ?_, ?_⟩
    · intro none
      rw [attempts] at none
      obtain ⟨unseen, zero, -⟩ := inv.fresh none
      -- a guard that knows of no attempt lets the report through
      have idle := (unseen_tests clock state unseen).2
      exact absurd ⟨idle, (kept.trans_eq zero).trans_lt (by decide)⟩ shut
    · intro earlier made
      rw [attempts] at made
      obtain ⟨before, known, seen⟩ := inv.last earlier made
      refine ⟨before, last.trans known, fun zero => ?_⟩
      obtain ⟨fresh, -⟩ := unseen_tests clock state (known.trans zero)
      have same : keptAttempts clock state = state.mac.recoveryAttempts := by
        rw [keptAttempts, fresh, if_neg Bool.false_ne_true]
      exact (counted.trans same).trans_ne (seen zero)

end Guard

section Runs

variable {clock : Jiffies} {state : StormState}

/-- Only the guard touches what the law is about. -/
theorem StormInv.arrival (inv : StormInv clock state) (moment : StallMoment) :
    StormInv clock (stormArrival state moment) ∧
      (stormArrival state moment).attempts = state.attempts ∧
      (stormArrival state moment).now = state.now + moment.delay := by
  have later : ∀ mac : RecoveryMac, ∀ watchdog : Watchdog,
      mac.recoveryAttempts = state.mac.recoveryAttempts →
      mac.lastRecoveryJiffies = state.mac.lastRecoveryJiffies →
      StormInv clock { state with now := state.now + moment.delay, mac, watchdog } := by
    intro mac watchdog attempts last
    refine ⟨attempts.trans_le inv.few, inv.bounded, inv.spaced, ?_, ?_⟩
    · intro none
      obtain ⟨unseen, zero, young⟩ := inv.fresh none
      exact ⟨last.trans unseen, attempts.trans zero, young⟩
    · intro earlier made
      obtain ⟨before, known, seen⟩ := inv.last earlier made
      exact ⟨before.trans (Nat.le_add_right _ _), last.trans known,
        fun zero => attempts.symm ▸ seen zero⟩
  have work : (wifiMacTxRecoveryWork state.mac).1.recoveryAttempts = state.mac.recoveryAttempts ∧
      (wifiMacTxRecoveryWork state.mac).1.lastRecoveryJiffies = state.mac.lastRecoveryJiffies := by
    unfold wifiMacTxRecoveryWork
    dsimp only
    split
    · exact ⟨rfl, rfl⟩
    · exact ⟨rfl, rfl⟩
  unfold stormArrival
  cases moment.event with
  | recoveryWork => exact ⟨later _ _ work.1 work.2, rfl, rfl⟩
  | netdevTimeout valid => exact ⟨later _ _ rfl rfl, rfl, rfl⟩
  | watchdog ready counters =>
    cases ready with
    | false => exact ⟨later _ _ rfl rfl, rfl, rfl⟩
    | true =>
      refine ⟨later _ _ ?_ ?_, rfl, rfl⟩
      · split
        · rfl
        · rfl
      · split
        · rfl
        · rfl

/-- The law of a step with a report is the law of the report. -/
theorem stormLaw_guard (inv : StormInv clock state) {moment : StallMoment} {reason : StallReason}
    (report : stormReport state moment = some reason) (running : moment.env.wmMacExit = false) :
    StormLaw clock state moment ↔
      GuardLaw clock moment.env reason (stormArrival state moment) := by
  obtain ⟨-, attempts, now⟩ := inv.arrival moment
  have step : stormStep clock state moment =
      stormGuard clock moment.env reason (stormArrival state moment) := by
    rw [stormStep, report]
  constructor
  · rintro ⟨spaced, bounded, restored⟩
    refine ⟨step ▸ spaced, step ▸ bounded, fun gap => ?_⟩
    have anew := restored (report ▸ rfl) running gap
    rw [step, ← now, ← attempts] at anew
    exact anew
  · rintro ⟨spaced, bounded, restored⟩
    refine ⟨step ▸ spaced, step ▸ bounded, fun _ _ gap => ?_⟩
    rw [step, ← now, ← attempts]
    exact restored gap

private theorem stormLaw_iff (inv : StormInv clock state) (moment : StallMoment) :
    StormLaw clock state moment ↔ StormOk clock state moment := by
  obtain ⟨arrived, attempts, -⟩ := inv.arrival moment
  cases report : stormReport state moment with
  | none =>
    have step : stormStep clock state moment = stormArrival state moment := by
      rw [stormStep, report]
    refine iff_of_true ⟨?_, ?_, ?_⟩ ?_
    · exact step ▸ arrived.spaced
    · exact step ▸ arrived.bounded
    · intro some
      rw [report] at some
      cases some
    · intro some
      rw [report] at some
      cases some
  | some reason =>
    have step : stormStep clock state moment =
        stormGuard clock moment.env reason (stormArrival state moment) := by
      rw [stormStep, report]
    cases exiting : moment.env.wmMacExit with
    | true =>
      obtain ⟨kept, -⟩ := arrived.exiting reason exiting
      refine iff_of_true ⟨step ▸ kept.spaced, step ▸ kept.bounded, ?_⟩ ?_
      · intro _ running
        exact absurd (exiting.symm.trans running) (by decide)
      · intro _ running
        exact absurd (exiting.symm.trans running) (by decide)
    | false =>
      rw [stormLaw_guard inv report exiting]
      constructor
      · intro law _ _ earlier known
        have made : earlier ∈ (stormArrival state moment).attempts.head? := attempts ▸ known
        obtain ⟨rest, found⟩ := List.head?_eq_some_iff.mp made
        exact (judged_iff arrived made).mp ((guardLaw_iff arrived exiting found).mp law)
      · intro fine
        cases made : (stormArrival state moment).attempts with
        | nil => exact guardLaw_fresh arrived exiting made
        | cons earlier rest =>
          have head : earlier ∈ (stormArrival state moment).attempts.head? := by
            rw [made]
            rfl
          refine (guardLaw_iff arrived exiting made).mpr ((judged_iff arrived head).mpr ?_)
          exact fine (report ▸ rfl) exiting earlier (attempts ▸ head)

private theorem StormInv.step (inv : StormInv clock state) (moment : StallMoment)
    (law : StormLaw clock state moment) : StormInv clock (stormStep clock state moment) := by
  obtain ⟨arrived, -⟩ := inv.arrival moment
  cases report : stormReport state moment with
  | none =>
    rw [stormStep, report]
    exact arrived
  | some reason =>
    rw [stormStep, report]
    cases exiting : moment.env.wmMacExit with
    | true => exact (arrived.exiting _ exiting).1
    | false => exact arrived.guard exiting ((stormLaw_guard inv report exiting).mp law)

private theorem stormStart_inv (clock : Jiffies) (now : Nat) : StormInv clock (stormStart now) := by
  refine ⟨Nat.zero_le _, Nat.zero_le _, List.Pairwise.nil, fun _ => ⟨rfl, rfl, rfl⟩, ?_⟩
  intro earlier made
  cases made

/-- The attempts of a run keep their law exactly when every report comes at a time that is fine:
none follows an attempt at the moment zero of `jiffies` too early, after a healthy gap or beyond
the tenth; the first after a healthy gap finds the last attempt, modulo the range of `jiffies`,
more than the gap ago; and once ten attempts were made without a healthy gap, each comes within
the gap after the last. -/
theorem recovery_storm_iff (clock : Jiffies) (now : Nat) (moments : List StallMoment) :
    Machine.Along (stormStep clock) (StormLaw clock) (stormStart now) moments ↔
      Machine.Along (stormStep clock) (StormOk clock) (stormStart now) moments :=
  Machine.along_congr (fun _ moment inv => stormLaw_iff inv moment)
    (fun _ moment inv law => inv.step moment law) (stormStart_inv clock now)

end Runs

/-- A kernel with 100 ticks a second and words of 64 bits. -/
def plainJiffies : Jiffies := ⟨100, 2 ^ 63, by decide, by decide⟩

/-- The network stack reports a timeout, half a minute after the last event. -/
def timeoutReport : StallMoment := ⟨3000, ⟨false, true, []⟩, .netdevTimeout true⟩

/-- A stall reported every half minute for ten and a half minutes is attacked eleven times. -/
theorem recovery_storm_resumes :
    ¬ Machine.Along (stormStep plainJiffies) (StormLaw plainJiffies) (stormStart 1000)
      (List.replicate 20 timeoutReport ++ [timeoutReport]) := by
  intro along
  obtain ⟨law, -⟩ := (Machine.along_append.mp along).2
  exact absurd law.bounded (by decide +kernel)

end W522a.Recovery
