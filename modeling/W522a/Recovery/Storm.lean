import W522a.Common
import W522a.Lib.Clock
import W522a.Lib.Run

/-!
The guard in front of the TX recovery, the watchdog task and the netdev timeout that report to it,
and the work it schedules. Moments are jiffies counted without end; the driver sees them in an
`unsigned long`.
-/

namespace W522a.Recovery

/-- `RECOVERY_MIN_INTERVAL`, in seconds. -/
@[simp] abbrev recoveryMinInterval : Nat := 30

/-- `RECOVERY_HEALTHY_GAP`, in seconds. -/
@[simp] abbrev recoveryHealthyGap : Nat := 300

@[simp] abbrev recoveryGiveupAfter : Nat := 10

abbrev Jiffies := Clock.Ticks recoveryHealthyGap

/-- The texts that `wifi_mac_schedule_tx_recovery` is given, or compares its reason with. -/
inductive StallReason where
  /-- "firmware watchdog" -/
  | watchdog
  /-- "firmware watchdog: tx stall" -/
  | txStall
  /-- "firmware watchdog: tx fail burst" -/
  | txFailBurst
  /-- "firmware watchdog: host wake stuck" -/
  | hostWakeStuck
  /-- "firmware watchdog: page free overflow" -/
  | pageFreeOverflow
  /-- "netdev tx_timeout" -/
  | netdevTxTimeout
  deriving DecidableEq, Repr

/-- An interface, as far as the guard looks at it. -/
structure RecoveryVif where
  id : Nat
  vmOpmode : VmOpmode
  vmNdev : Bool
  deriving DecidableEq, Repr

/-- What the guard finds when it is called. -/
structure RecoveryEnv where
  wmMacExit : Bool
  drvPriv : Bool
  vifs : List RecoveryVif

/-- What the guard and the recovery work keep. -/
structure RecoveryMac where
  lastRecoveryJiffies : Nat
  recoveryAttempts : Nat
  wmTxRecoveryPending : Bool
  wmTxStallCnt : Nat
  apTxbaDisabledUntil : Nat
  deriving DecidableEq, Repr

/-- What a call of the guard leads to. -/
structure RecoveryEffect where
  attempted : Bool
  woken : List Nat
  scheduled : Bool
  deriving DecidableEq, Repr

/-- Seconds of the cooldown that a reason arms for access points. -/
def armApCooldown (env : RecoveryEnv) (reason : Option StallReason) : Option Nat :=
  if !env.drvPriv then none
  else
    match reason with
    | some .txStall => some 30
    | some .watchdog => some 30
    | some .txFailBurst => some 15
    | _ => none

/-- The access points whose queue is woken. -/
def hostapQueues (env : RecoveryEnv) : List Nat :=
  (env.vifs.filter fun vif => decide (vif.vmOpmode = .hostap) && vif.vmNdev).map (·.id)

section Guard

variable (clock : Jiffies) (now : Nat)

/-- The last attempt is longer ago than the healthy gap. -/
def recoveryStale (mac : RecoveryMac) : Bool :=
  mac.lastRecoveryJiffies != 0 &&
    clock.after now (clock.word (mac.lastRecoveryJiffies + recoveryHealthyGap * clock.hz))

/-- The last attempt is too recent for another. -/
def recoveryThrottled (mac : RecoveryMac) : Bool :=
  mac.lastRecoveryJiffies != 0 &&
    clock.before now (clock.word (mac.lastRecoveryJiffies + recoveryMinInterval * clock.hz))

/-- What an attempt does, behind the tests of the guard. -/
def attemptRecovery (env : RecoveryEnv) (reason : Option StallReason) (mac : RecoveryMac) :
    RecoveryMac × RecoveryEffect :=
  let cooldown := armApCooldown env reason
  let hostapSeen := env.vifs.any fun vif => vif.vmOpmode = .hostap
  let disabledUntil :=
    match cooldown with
    | some seconds =>
      if hostapSeen then clock.word (now + seconds * clock.hz) else mac.apTxbaDisabledUntil
    | none => mac.apTxbaDisabledUntil
  ({ mac with
      lastRecoveryJiffies := now
      recoveryAttempts := mac.recoveryAttempts + 1
      apTxbaDisabledUntil := disabledUntil
      wmTxRecoveryPending := true },
    { attempted := true
      woken := if reason.isSome then hostapQueues env else []
      scheduled := !mac.wmTxRecoveryPending })

/-- `wifi_mac_schedule_tx_recovery`; `now` is a value of `jiffies`. -/
def wifiMacScheduleTxRecovery (env : RecoveryEnv) (reason : Option StallReason)
    (mac : RecoveryMac) : RecoveryMac × RecoveryEffect :=
  if env.wmMacExit then (mac, ⟨false, [], false⟩)
  else
    let mac := if recoveryStale clock now mac then { mac with recoveryAttempts := 0 } else mac
    if recoveryThrottled clock now mac then (mac, ⟨false, [], false⟩)
    else if recoveryGiveupAfter ≤ mac.recoveryAttempts then (mac, ⟨false, [], false⟩)
    else attemptRecovery clock now env reason mac

end Guard

/-- `wifi_mac_tx_recovery_work`, and whether it escalates to `wifi_mac_connect_repair`. -/
def wifiMacTxRecoveryWork (mac : RecoveryMac) : RecoveryMac × Bool :=
  let stallCnt := mac.wmTxStallCnt + 1
  if 3 ≤ stallCnt then ({ mac with wmTxStallCnt := 0, wmTxRecoveryPending := false }, true)
  else ({ mac with wmTxStallCnt := stallCnt, wmTxRecoveryPending := false }, false)

/-- The counters the watchdog samples, words of 32 bits. -/
structure TxCounters where
  freePage : Nat
  send : Nat
  done : Nat
  free : Nat
  txOkNum : Nat
  txFailNum : Nat
  hostWake : Nat
  deriving DecidableEq, Repr

/-- What the watchdog keeps between its runs; no sample is its `baseline_valid` of zero. -/
structure Watchdog where
  baseline : Option TxCounters
  stallCount : Nat
  txFailCount : Nat
  hostWakeCount : Nat
  freePageCount : Nat
  deriving DecidableEq, Repr

@[simp] abbrev watchdogStuckGap : Nat := 16

@[simp] abbrev watchdogConfirmStall : Nat := 2

@[simp] abbrev watchdogConfirmTxFail : Nat := 2

@[simp] abbrev watchdogConfirmTransient : Nat := 4

def condStall (old cur : TxCounters) : Bool :=
  old.freePage == cur.freePage && old.done == cur.done && old.free == cur.free &&
    decide ((cur.free + watchdogStuckGap) % 2 ^ 32 < cur.done) && decide (cur.done < cur.send)

def condTxFail (old cur : TxCounters) : Bool :=
  cur.txOkNum == old.txOkNum && decide (200 < Ring.span (2 ^ 32) old.txFailNum cur.txFailNum)

/-- The reason the confirmed counts give, if any. -/
def fireReason (watchdog : Watchdog) : Option StallReason :=
  if watchdogConfirmStall ≤ watchdog.stallCount then some .txStall
  else if watchdogConfirmTxFail ≤ watchdog.txFailCount then some .txFailBurst
  else if watchdogConfirmTransient ≤ watchdog.hostWakeCount then some .hostWakeStuck
  else if watchdogConfirmTransient ≤ watchdog.freePageCount then some .pageFreeOverflow
  else none

def countSample (old cur : TxCounters) (watchdog : Watchdog) : Watchdog where
  baseline := some cur
  stallCount := if condStall old cur then watchdog.stallCount + 1 else 0
  txFailCount := if condTxFail old cur then watchdog.txFailCount + 1 else 0
  hostWakeCount := if 0 < cur.hostWake then watchdog.hostWakeCount + 1 else 0
  freePageCount := if 224 < cur.freePage then watchdog.freePageCount + 1 else 0

/-- `wifi_mac_connect_repair_task` on a sample: the watchdog afterwards, whether it clears
`wm_tx_stall_cnt`, and the stall it reports. -/
def wifiMacConnectRepairTask (cur : TxCounters) (watchdog : Watchdog) :
    Watchdog × Bool × Option StallReason :=
  match watchdog.baseline with
  | none => (⟨some cur, 0, 0, 0, 0⟩, false, none)
  | some old =>
    let counted := countSample old cur watchdog
    match fireReason counted with
    | some reason => (⟨some cur, 0, 0, 0, 0⟩, !condStall old cur, some reason)
    | none => (counted, !condStall old cur, none)

/-- What happens: the watchdog task runs (`ready` unless the HAL is gone), the network stack's
`wifi_mac_tx_timeout` (`valid` unless the device or its interface is not), or the work. -/
inductive StallEvent where
  | watchdog (ready : Bool) (counters : TxCounters)
  | netdevTimeout (valid : Bool)
  | recoveryWork

/-- An event, `delay` jiffies after the one before. -/
structure StallMoment where
  delay : Nat
  env : RecoveryEnv
  event : StallEvent

/-- The driver with the history of the reports: when the last one came, all attempts with the
newest first, and how many of them no healthy gap has followed. -/
structure StormState where
  now : Nat
  mac : RecoveryMac
  watchdog : Watchdog
  reported : Option Nat
  attempts : List Nat
  episode : Nat

def HealthyGap (clock : Jiffies) (state : StormState) : Prop :=
  ∃ last, state.reported = some last ∧ last + recoveryHealthyGap * clock.hz < state.now

instance (clock : Jiffies) (state : StormState) : Decidable (HealthyGap clock state) :=
  match given : state.reported with
  | none => isFalse (by rintro ⟨last, found, _⟩; rw [given] at found; cases found)
  | some last =>
    decidable_of_iff (last + recoveryHealthyGap * clock.hz < state.now)
      ⟨fun late => ⟨last, given, late⟩, by
        rintro ⟨other, found, late⟩
        rw [given] at found
        cases found
        exact late⟩

/-- The state in which an event's report, if there is one, reaches the guard. -/
def stormArrival (state : StormState) (moment : StallMoment) : StormState :=
  let state := { state with now := state.now + moment.delay }
  match moment.event with
  | .watchdog true counters =>
    let run := wifiMacConnectRepairTask counters state.watchdog
    { state with
      watchdog := run.1
      mac := if run.2.1 then { state.mac with wmTxStallCnt := 0 } else state.mac }
  | .recoveryWork => { state with mac := (wifiMacTxRecoveryWork state.mac).1 }
  | _ => state

def stormReport (state : StormState) (moment : StallMoment) : Option StallReason :=
  match moment.event with
  | .watchdog true counters => (wifiMacConnectRepairTask counters state.watchdog).2.2
  | .netdevTimeout true => some .netdevTxTimeout
  | _ => none

/-- A report at the guard, with its entry in the history. -/
def stormGuard (clock : Jiffies) (env : RecoveryEnv) (reason : StallReason) (state : StormState) :
    StormState :=
  let result := wifiMacScheduleTxRecovery clock (clock.word state.now) env (some reason) state.mac
  let episode := if HealthyGap clock state then 0 else state.episode
  { state with
    mac := result.1
    reported := some state.now
    attempts := if result.2.attempted then state.now :: state.attempts else state.attempts
    episode := if result.2.attempted then episode + 1 else episode }

def stormStep (clock : Jiffies) (state : StormState) (moment : StallMoment) : StormState :=
  match stormReport state moment with
  | none => stormArrival state moment
  | some reason => stormGuard clock moment.env reason (stormArrival state moment)

def stormStart (now : Nat) : StormState where
  now := now
  mac := ⟨0, 0, false, 0, 0⟩
  watchdog := ⟨none, 0, 0, 0, 0⟩
  reported := none
  attempts := []
  episode := 0

/-- What a step is meant to keep: attempts lie apart, ten at most follow each other without a
healthy gap, and the first report after such a gap has all ten before it. -/
structure StormLaw (clock : Jiffies) (state : StormState) (moment : StallMoment) : Prop where
  spaced : (stormStep clock state moment).attempts.Pairwise fun later earlier =>
    earlier + recoveryMinInterval * clock.hz ≤ later
  bounded : (stormStep clock state moment).episode ≤ recoveryGiveupAfter
  restored : (stormReport state moment).isSome → moment.env.wmMacExit = false →
    HealthyGap clock (stormArrival state moment) →
      (stormStep clock state moment).attempts = (state.now + moment.delay) :: state.attempts ∧
        (stormStep clock state moment).mac.recoveryAttempts = 1

/-- The reports that the guard judges rightly, by the time since the attempt `earlier`. Where that
was made at the moment zero of `jiffies`, the guard knows of none. -/
def ReportOk (clock : Jiffies) (state : StormState) (earlier : Nat) : Prop :=
  let elapsed := clock.word (state.now - earlier)
  let least := recoveryMinInterval * clock.hz
  let healthy := recoveryHealthyGap * clock.hz
  if clock.word earlier = 0 then
    ¬ HealthyGap clock state ∧
      (state.mac.recoveryAttempts < recoveryGiveupAfter →
        least ≤ state.now - earlier ∧ state.episode < recoveryGiveupAfter)
  else if HealthyGap clock state then
    least ≤ elapsed ∧ elapsed < least + clock.half ∧
      (healthy < elapsed ∨ state.mac.recoveryAttempts = 0)
  else
    state.episode = recoveryGiveupAfter → elapsed < least ∨ least + clock.half ≤ elapsed ∨
      state.mac.recoveryAttempts = recoveryGiveupAfter ∧ elapsed ≤ healthy

/-- The steps that keep the law. -/
def StormOk (clock : Jiffies) (state : StormState) (moment : StallMoment) : Prop :=
  (stormReport state moment).isSome → moment.env.wmMacExit = false →
    ∀ earlier ∈ state.attempts.head?, ReportOk clock (stormArrival state moment) earlier

end W522a.Recovery
