import W522a.Lib.Run

/-!
The timer object: its flags beside the kernel's own timer, what start, cancel and an expiry do to
them, and the machine of their interleavings.
-/

namespace W522a.Os

abbrev osTimerRearmed : Int := 0

/-- `struct os_timer_ext`. The kernel's timer is the delay it is armed with, if it is armed;
`timerHandler` and `context` say whether the pointers are set. -/
structure OsTimerExt where
  osTimer : Option Nat
  timerLock : Bool
  cancelFlag : Bool
  activeFlag : Bool
  deferrableFlag : Bool
  timerPeriod : Nat
  context : Bool
  timerHandler : Bool
  deriving DecidableEq, Repr

/-- `os_timer_ex_initialize`, and `os_timer_ex_initialize_deferrable` with the flag. -/
def osTimerExInitialize (deferrable : Bool) (timerPeriod : Nat) (timerHandler context : Bool) :
    OsTimerExt where
  osTimer := none
  timerLock := false
  cancelFlag := false
  activeFlag := false
  deferrableFlag := deferrable
  timerPeriod := timerPeriod
  context := context
  timerHandler := timerHandler

def osSetTimer (timer : OsTimerExt) : OsTimerExt :=
  { timer with osTimer := some timer.timerPeriod }

def osSetTimerPeriod (timerPeriod : Nat) (timer : OsTimerExt) : OsTimerExt :=
  { timer with timerPeriod := timerPeriod }

/-- `os_timer_ex_start`, with its result. -/
def osTimerExStart (timer : OsTimerExt) : Bool × OsTimerExt :=
  if !timer.timerHandler then (false, timer)
  else (true, osSetTimer { timer with activeFlag := true, cancelFlag := false })

def osTimerExStartPeriod (timerPeriod : Nat) (timer : OsTimerExt) : Bool × OsTimerExt :=
  osTimerExStart (osSetTimerPeriod timerPeriod timer)

/-- `os_timer_ex_cancel` up to its call of the kernel. -/
def cancelMark (timer : OsTimerExt) : OsTimerExt := { timer with cancelFlag := true }

/-- `os_timer_ex_cancel` from that call on, with its result: whether the timer was armed. -/
def cancelRest (timer : OsTimerExt) : Bool × OsTimerExt :=
  (timer.osTimer.isSome,
    { timer with osTimer := none, activeFlag := false, timerLock := false })

/-- `os_timer_ex_cancel` without sleep, and `os_timer_ex_del`. -/
def osTimerExCancel (timer : OsTimerExt) : Bool × OsTimerExt := cancelRest (cancelMark timer)

/-- `os_timer_ex_handler` up to the call of the user's handler, and whether it makes the call. -/
def handlerBegin (timer : OsTimerExt) : OsTimerExt × Bool :=
  if timer.timerLock then ({ timer with activeFlag := false }, false)
  else if timer.cancelFlag then
    ({ timer with activeFlag := false, timerLock := false }, false)
  else if timer.timerHandler && timer.context then ({ timer with timerLock := true }, true)
  else ({ timer with activeFlag := false, timerLock := false }, false)

/-- `os_timer_ex_handler` from the return of the user's handler on. -/
def handlerEnd (result : Int) (timer : OsTimerExt) : OsTimerExt :=
  if result = osTimerRearmed ∧ timer.cancelFlag = false then
    { osSetTimer timer with timerLock := false }
  else { timer with activeFlag := false, timerLock := false }

/-- A timer among its users: how many of the user's handlers are running, how many sleeping
cancels wait for them, and whether the last call of start or cancel was a start. -/
structure TimerSystem where
  timer : OsTimerExt
  running : Nat
  waiting : Nat
  wanted : Bool
  deriving DecidableEq, Repr

/-- What the users of a timer and the kernel do. A sleeping cancel marks the timer, and goes on
once no handler is running. An expiry may begin while a handler is running, although the kernel
runs the functions of one timer after each other. -/
inductive TimerEvent where
  | setPeriod (timerPeriod : Nat)
  | start
  | startPeriod (timerPeriod : Nat)
  | cancel
  | cancelSleep
  | cancelSync
  | expire
  | finish (result : Int)
  deriving DecidableEq, Repr

namespace TimerSystem

def started (sys : TimerSystem) (call : Bool × OsTimerExt) : TimerSystem :=
  { sys with timer := call.2, wanted := sys.wanted || call.1 }

/-- The kernel's timer expires: it is no longer armed, and the handler begins. -/
def expired (sys : TimerSystem) : TimerSystem :=
  let (timer, called) := handlerBegin { sys.timer with osTimer := none }
  { sys with timer := timer, running := sys.running + called.toNat }

end TimerSystem

open TimerSystem

/-- One step of an interleaving. What cannot happen changes nothing. -/
def timerStep (sys : TimerSystem) : TimerEvent → TimerSystem
  | .setPeriod timerPeriod => { sys with timer := osSetTimerPeriod timerPeriod sys.timer }
  | .start => sys.started (osTimerExStart sys.timer)
  | .startPeriod timerPeriod => sys.started (osTimerExStartPeriod timerPeriod sys.timer)
  | .cancel => { sys with timer := (osTimerExCancel sys.timer).2, wanted := false }
  | .cancelSleep =>
    { sys with timer := cancelMark sys.timer, waiting := sys.waiting + 1, wanted := false }
  | .cancelSync =>
    if sys.waiting = 0 ∨ sys.running ≠ 0 then sys
    else
      { sys with
        timer := (cancelRest sys.timer).2, waiting := sys.waiting - 1, wanted := false }
  | .expire => if sys.timer.osTimer.isNone then sys else sys.expired
  | .finish result =>
    if sys.running = 0 then sys
    else { sys with timer := handlerEnd result sys.timer, running := sys.running - 1 }

def freshTimer (deferrable : Bool) (timerPeriod : Nat) (timerHandler context : Bool) :
    TimerSystem :=
  ⟨osTimerExInitialize deferrable timerPeriod timerHandler context, 0, 0, false⟩

end W522a.Os
