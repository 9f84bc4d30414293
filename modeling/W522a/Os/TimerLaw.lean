import W522a.Os.Timer

/-!
The protocol of a timer object, and the interleavings that keep it.
-/

namespace W522a.Os

def Armed (timer : OsTimerExt) : Prop := timer.osTimer.isSome

instance (timer : OsTimerExt) : Decidable (Armed timer) :=
  inferInstanceAs (Decidable (_ = true))

/-- `active_flag` tells whether an expiry is to come. A running handler decides at its end whether
it re-arms: until then the flag is set unless the timer is cancelled, and may not be set without
it. -/
structure ActiveLaw (sys : TimerSystem) : Prop where
  armed : Armed sys.timer → sys.timer.activeFlag = true
  rearms : sys.running ≠ 0 → sys.timer.cancelFlag = false → sys.timer.activeFlag = true
  idle : sys.timer.activeFlag = true → Armed sys.timer ∨ sys.running ≠ 0

/-- The protocol at one step: the flag is right, no two handlers run, and an expiry runs the
handler exactly when the timer was started and not cancelled since. -/
structure ProtocolStep (sys : TimerSystem) (event : TimerEvent) : Prop where
  active : ActiveLaw (timerStep sys event)
  alone : (timerStep sys event).running ≤ 1
  fires : event = .expire → Armed sys.timer → sys.wanted = true →
    (timerStep sys event).running = sys.running + 1
  silent : event = .expire → sys.wanted = false → (timerStep sys event).running = sys.running

/-- The steps that keep the protocol. An expiry of a started timer finds no handler running, and a
context to call it with; a handler whose timer was started again in the meantime ends with
`OS_TIMER_REARMED`, and with no cancel under way. -/
def KeepsProtocol (sys : TimerSystem) : TimerEvent → Prop
  | .expire => Armed sys.timer → sys.wanted = true →
    sys.running = 0 ∧ sys.timer.context = true
  | .finish result => sys.running ≠ 0 → Armed sys.timer →
    result = osTimerRearmed ∧ sys.timer.cancelFlag = false
  | _ => True

/-- What every interleaving keeps that keeps the protocol. -/
structure TimerInv (sys : TimerSystem) : Prop where
  active : ActiveLaw sys
  alone : sys.running ≤ 1
  locked : sys.timer.timerLock = true → sys.running ≠ 0
  wanted : sys.wanted = true →
    sys.timer.cancelFlag = false ∧ sys.timer.timerHandler = true
  unwanted : sys.wanted = false →
    sys.timer.cancelFlag = true ∨ ¬ Armed sys.timer ∧ sys.running = 0
  ready : sys.running ≠ 0 → sys.timer.context = true

theorem freshTimer_inv (deferrable : Bool) (timerPeriod : Nat) (timerHandler context : Bool) :
    TimerInv (freshTimer deferrable timerPeriod timerHandler context) := by
  constructor
  case active => constructor <;> simp [freshTimer, osTimerExInitialize, Armed]
  all_goals simp [freshTimer, osTimerExInitialize, Armed]

section Steps

variable {sys : TimerSystem}

/-- A timer that is not armed, not active and not locked, with no handler running. -/
theorem TimerInv.of_idle (armed : ¬ Armed sys.timer) (inactive : sys.timer.activeFlag = false)
    (unlocked : sys.timer.timerLock = false) (unwanted : sys.wanted = false)
    (cancelled : sys.running ≠ 0 → sys.timer.cancelFlag = true) (alone : sys.running ≤ 1)
    (ready : sys.running ≠ 0 → sys.timer.context = true) : TimerInv sys where
  active := by
    refine ⟨fun found => absurd found armed, ?_, ?_⟩
    · intro busy live
      rw [cancelled busy] at live
      cases live
    · intro active
      rw [inactive] at active
      cases active
  alone := alone
  locked := by
    intro locked
    rw [unlocked] at locked
    cases locked
  wanted := by
    intro wanted
    rw [unwanted] at wanted
    cases wanted
  unwanted := by
    intro _
    by_cases busy : sys.running = 0
    · exact Or.inr ⟨armed, busy⟩
    · exact Or.inl (cancelled busy)
  ready := ready

theorem TimerInv.setPeriod (inv : TimerInv sys) (timerPeriod : Nat) :
    TimerInv { sys with timer := osSetTimerPeriod timerPeriod sys.timer } where
  active := ⟨inv.active.armed, inv.active.rearms, inv.active.idle⟩
  alone := inv.alone
  locked := inv.locked
  wanted := inv.wanted
  unwanted := inv.unwanted
  ready := inv.ready

theorem TimerInv.start (inv : TimerInv sys) : TimerInv (sys.started (osTimerExStart sys.timer)) := by
  unfold osTimerExStart TimerSystem.started
  cases handler : sys.timer.timerHandler with
  | false =>
    simp only [Bool.not_false, if_true, Bool.or_false]
    exact inv
  | true =>
    simp only [Bool.not_true, Bool.false_eq_true, if_false, Bool.or_true]
    constructor
    case active => exact ⟨fun _ => rfl, fun _ _ => rfl, fun _ => Or.inl rfl⟩
    case alone => exact inv.alone
    case locked => exact inv.locked
    case wanted => exact fun _ => ⟨rfl, rfl⟩
    case unwanted => exact nofun
    case ready => exact inv.ready

theorem TimerInv.cancel (inv : TimerInv sys) :
    TimerInv { sys with timer := (osTimerExCancel sys.timer).2, wanted := false } :=
  TimerInv.of_idle nofun rfl rfl rfl (fun _ => rfl) inv.alone inv.ready

theorem TimerInv.cancelSleep (inv : TimerInv sys) :
    TimerInv { sys with
      timer := cancelMark sys.timer, waiting := sys.waiting + 1, wanted := false } where
  active := ⟨inv.active.armed, fun _ => nofun, inv.active.idle⟩
  alone := inv.alone
  locked := inv.locked
  wanted := nofun
  unwanted := fun _ => Or.inl rfl
  ready := inv.ready

theorem TimerInv.cancelSync (idle : sys.running = 0) :
    TimerInv { sys with
      timer := (cancelRest sys.timer).2, waiting := sys.waiting - 1, wanted := false } :=
  TimerInv.of_idle nofun rfl rfl rfl (fun busy => absurd idle busy) (by simp [idle])
    (fun busy => absurd idle busy)

theorem TimerInv.expire_unwanted (inv : TimerInv sys) (armed : Armed sys.timer)
    (unwanted : sys.wanted = false) : sys.expired.running = sys.running ∧ TimerInv sys.expired := by
  have cancelled : sys.timer.cancelFlag = true :=
    (inv.unwanted unwanted).resolve_right fun quiet => quiet.1 armed
  cases locked : sys.timer.timerLock with
  | true =>
    have result : sys.expired = { sys with
        timer := { sys.timer with osTimer := none, activeFlag := false } } := by
      simp [TimerSystem.expired, handlerBegin, locked]
    rw [result]
    refine ⟨rfl, ?_⟩
    constructor
    case active =>
      refine ⟨fun active => (by cases active), fun _ live => ?_,
        fun handler => (by cases handler)⟩
      rw [cancelled] at live
      cases live
    case alone => exact inv.alone
    case locked => exact inv.locked
    case wanted =>
      intro wanted
      rw [unwanted] at wanted
      cases wanted
    case unwanted => exact fun _ => Or.inl cancelled
    case ready => exact inv.ready
  | false =>
    have result : sys.expired = { sys with
        timer := { sys.timer with osTimer := none, activeFlag := false } } := by
      simp [TimerSystem.expired, handlerBegin, locked, cancelled]
    rw [result]
    refine ⟨rfl, TimerInv.of_idle ?_ rfl locked unwanted (fun _ => cancelled) inv.alone inv.ready⟩
    intro active
    cases active

/-- The expiry of a started timer runs the handler when none is running. -/
theorem TimerInv.expire_wanted (inv : TimerInv sys) (armed : Armed sys.timer)
    (wanted : sys.wanted = true) (idle : sys.running = 0) (context : sys.timer.context = true) :
    sys.expired.running = sys.running + 1 ∧ TimerInv sys.expired := by
  obtain ⟨live, handler⟩ := inv.wanted wanted
  have unlocked : sys.timer.timerLock = false := by
    cases locked : sys.timer.timerLock with
    | false => rfl
    | true => exact absurd idle (inv.locked locked)
  have result : sys.expired = { sys with
      timer := { sys.timer with osTimer := none, timerLock := true }
      running := 1 } := by
    simp [TimerSystem.expired, handlerBegin, unlocked, live, handler, context, idle]
  rw [result, idle]
  refine ⟨rfl, ?_⟩
  have active := inv.active.armed armed
  constructor
  case active => exact ⟨fun _ => active, fun _ _ => active, fun _ => Or.inr nofun⟩
  case alone => exact Nat.le_refl 1
  case locked => exact fun _ => nofun
  case wanted => exact fun _ => ⟨live, handler⟩
  case unwanted => exact fun unwanted => absurd (wanted.symm.trans unwanted) nofun
  case ready => exact fun _ => context

theorem expire_misses (fires : sys.expired.running = sys.running + 1)
    (alone : sys.expired.running ≤ 1) :
    sys.running = 0 ∧ sys.timer.context = true := by
  refine ⟨by omega, ?_⟩
  by_contra missing
  have silent : sys.expired.running = sys.running := by
    have absent : sys.timer.context = false := by simpa using missing
    unfold TimerSystem.expired handlerBegin
    dsimp only
    split
    next locked => rfl
    next unlocked =>
      split
      next cancelled => rfl
      next live => simp [absent]
  omega

private theorem TimerInv.finish_idle (inv : TimerInv sys) (quiet : ¬ Armed sys.timer) :
    TimerInv { sys with
      timer := { sys.timer with activeFlag := false, timerLock := false }
      running := sys.running - 1 } := by
  have alone := inv.alone
  have idle : sys.running - 1 = 0 := by omega
  rw [idle]
  constructor
  case active => exact ⟨fun armed => absurd armed quiet, fun busy => absurd rfl busy, nofun⟩
  case alone => exact Nat.zero_le 1
  case locked => exact nofun
  case wanted => exact inv.wanted
  case unwanted => exact fun _ => Or.inr ⟨quiet, rfl⟩
  case ready => exact fun busy => absurd rfl busy

private theorem TimerInv.finish_rearmed (inv : TimerInv sys) (busy : sys.running ≠ 0)
    (live : sys.timer.cancelFlag = false) :
    TimerInv { sys with
      timer := { osSetTimer sys.timer with timerLock := false }
      running := sys.running - 1 } := by
  have alone := inv.alone
  have idle : sys.running - 1 = 0 := by omega
  have active := inv.active.rearms busy live
  have wanted : sys.wanted = true := by
    by_contra unwanted
    rcases inv.unwanted (by simpa using unwanted) with cancelled | ⟨-, idle⟩
    · rw [live] at cancelled
      cases cancelled
    · exact busy idle
  rw [idle]
  constructor
  case active => exact ⟨fun _ => active, fun busy => absurd rfl busy, fun _ => Or.inl rfl⟩
  case alone => exact Nat.zero_le 1
  case locked => exact nofun
  case wanted => exact inv.wanted
  case unwanted => exact fun unwanted => absurd (wanted.symm.trans unwanted) nofun
  case ready => exact fun busy => absurd rfl busy

theorem timerStep_inv (inv : TimerInv sys) (event : TimerEvent)
    (keeps : KeepsProtocol sys event) : TimerInv (timerStep sys event) := by
  cases event with
  | setPeriod timerPeriod => exact inv.setPeriod timerPeriod
  | start => exact inv.start
  | startPeriod timerPeriod => exact (inv.setPeriod timerPeriod).start
  | cancel => exact inv.cancel
  | cancelSleep => exact inv.cancelSleep
  | cancelSync =>
    rw [timerStep]
    split
    next blocked => exact inv
    next free =>
      obtain ⟨-, idle⟩ := not_or.mp free
      exact TimerInv.cancelSync (Decidable.not_not.mp idle)
  | expire =>
    rw [timerStep]
    split
    next quiet => exact inv
    next armed =>
      have armed : Armed sys.timer := by simpa [Armed, Option.isSome_iff_ne_none] using armed
      cases wanted : sys.wanted with
      | true =>
        obtain ⟨idle, context⟩ := keeps armed wanted
        exact (inv.expire_wanted armed wanted idle context).2
      | false => exact (inv.expire_unwanted armed wanted).2
  | finish result =>
    rw [timerStep]
    split
    next idle => exact inv
    next busy =>
      unfold handlerEnd
      split
      next rearms => exact inv.finish_rearmed busy rearms.2
      next idles =>
        apply inv.finish_idle
        intro armed
        exact idles (keeps busy armed)

private theorem timerStep_expire (armed : Armed sys.timer) :
    timerStep sys .expire = sys.expired := by
  rw [timerStep, if_neg]
  simpa [Armed, Option.isSome_iff_ne_none] using armed

private theorem protocolStep_iff (inv : TimerInv sys) (event : TimerEvent) :
    ProtocolStep sys event ↔ KeepsProtocol sys event := by
  constructor
  case mp =>
    intro law
    cases event with
    | expire =>
      intro armed wanted
      have fires := law.fires rfl armed wanted
      have alone := law.alone
      rw [timerStep_expire armed] at fires alone
      exact expire_misses fires alone
    | finish result =>
      intro busy armed
      by_contra idles
      -- the end clears the flag and leaves the timer armed
      have still := law.active.armed
      rw [timerStep, if_neg busy, handlerEnd, if_neg idles] at still
      exact absurd (still armed) nofun
    | _ => trivial
  case mpr =>
    intro keeps
    have after := timerStep_inv inv event keeps
    refine ⟨after.active, after.alone, ?_, ?_⟩
    · rintro rfl armed wanted
      obtain ⟨idle, context⟩ := keeps armed wanted
      rw [timerStep_expire armed]
      exact (inv.expire_wanted armed wanted idle context).1
    · rintro rfl unwanted
      by_cases armed : Armed sys.timer
      · rw [timerStep_expire armed]
        exact (inv.expire_unwanted armed unwanted).1
      · rw [timerStep, if_pos (by simpa [Armed] using armed)]

end Steps

/-- In every interleaving of starts, cancels, expiries and handlers' ends the protocol holds at
every step exactly when every step is one of those that keep it. -/
theorem timer_protocol_iff (deferrable : Bool) (timerPeriod : Nat) (timerHandler context : Bool)
    (events : List TimerEvent) :
    Machine.Along timerStep ProtocolStep
        (freshTimer deferrable timerPeriod timerHandler context) events ↔
      Machine.Along timerStep KeepsProtocol
        (freshTimer deferrable timerPeriod timerHandler context) events := by
  exact Machine.along_congr (fun _ event inv => protocolStep_iff inv event)
    (fun _ event inv law => timerStep_inv inv event ((protocolStep_iff inv event).mp law))
    (freshTimer_inv deferrable timerPeriod timerHandler context)

/-- A handler that starts its timer again and returns `OS_TIMER_NOT_REARMED` leaves it armed and
reported as idle. -/
theorem timer_protocol_restart :
    ¬ Machine.Along timerStep ProtocolStep (freshTimer false 20 true true)
      [.start, .expire, .start, .finish 1] := by
  rintro ⟨-, -, -, law, -⟩
  exact absurd (law.active.armed (by decide)) (by decide)

end W522a.Os
