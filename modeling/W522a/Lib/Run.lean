import Mathlib.Data.List.Basic

/-!
Runs of a machine whose next state is a function of the state and of an event.
Nondeterminism of an environment is part of the event.
-/

namespace Machine

universe u v w

def run (step : State → Event → State) (start : State) (events : List Event) : State :=
  events.foldl step start

/-- Every event meets `ok` in the state in which it is taken. -/
def Along (step : State → Event → State) (ok : State → Event → Prop) :
    State → List Event → Prop
  | _, [] => True
  | state, event :: rest => ok state event ∧ Along step ok (step state event) rest

variable {State : Type u} {Event : Type v} {step : State → Event → State}
  {ok : State → Event → Prop}

instance Along.decidable [∀ state event, Decidable (ok state event)] :
    ∀ (start : State) (events : List Event), Decidable (Along step ok start events)
  | _, [] => inferInstanceAs (Decidable True)
  | state, event :: rest =>
    haveI := Along.decidable (step state event) rest
    inferInstanceAs (Decidable (ok state event ∧ Along step ok (step state event) rest))

@[simp] theorem run_nil (start : State) : run step start [] = start := rfl

@[simp] theorem run_cons (start : State) (event : Event) (rest : List Event) :
    run step start (event :: rest) = run step (step start event) rest := rfl

theorem run_append (start : State) (first second : List Event) :
    run step start (first ++ second) = run step (run step start first) second :=
  List.foldl_append

theorem along_append {start : State} {first second : List Event} :
    Along step ok start (first ++ second) ↔
      Along step ok start first ∧ Along step ok (run step start first) second := by
  induction first generalizing start with
  | nil => simp [Along]
  | cons event rest induction => simp [Along, induction, and_assoc]

theorem along_and {other : State → Event → Prop} {start : State} {events : List Event} :
    Along step (fun state event => ok state event ∧ other state event) start events ↔
      Along step ok start events ∧ Along step other start events := by
  induction events generalizing start with
  | nil => simp [Along]
  | cons event rest induction =>
    simp only [Along, induction]
    exact and_and_and_comm

theorem along_of_forall {each : Event → Prop} {start : State} {events : List Event}
    (met : ∀ event ∈ events, each event) : Along step (fun _ event => each event) start events := by
  induction events generalizing start with
  | nil => trivial
  | cons event rest induction =>
    exact ⟨met event (.head _), induction fun other listed => met other (.tail _ listed)⟩

/-- A part of the state that steps as a machine of its own runs as that machine. -/
theorem run_view {Whole : Type w} {whole : Whole → Event → Whole} {view : Whole → State}
    (follows : ∀ state event, view (whole state event) = step (view state) event)
    (start : Whole) (events : List Event) :
    view (run whole start events) = run step (view start) events := by
  induction events generalizing start with
  | nil => rfl
  | cons event rest induction => rw [run_cons, run_cons, induction, follows]

/-- An invariant that every step meeting `ok` preserves holds after every such run. -/
theorem Along.invariant {inv : State → Prop}
    (preserved : ∀ state event, inv state → ok state event → inv (step state event))
    {start : State} {events : List Event} (valid : Along step ok start events)
    (initial : inv start) : inv (run step start events) := by
  induction events generalizing start with
  | nil => exact initial
  | cons event rest induction =>
    exact induction valid.2 (preserved start event initial valid.1)

/-- Two conditions hold along the same runs when they agree under an invariant that every step
meeting them preserves. -/
theorem along_congr {inv : State → Prop} {other : State → Event → Prop}
    (agree : ∀ state event, inv state → (ok state event ↔ other state event))
    (preserved : ∀ state event, inv state → ok state event → inv (step state event))
    {start : State} {events : List Event} (initial : inv start) :
    Along step ok start events ↔ Along step other start events := by
  induction events generalizing start with
  | nil => exact Iff.rfl
  | cons event rest induction =>
    rw [Along, Along, ← agree start event initial]
    exact and_congr_right fun met => induction (preserved start event initial met)

/-- An invariant that every step preserves holds after every run. -/
theorem run_invariant {inv : State → Prop}
    (preserved : ∀ state event, inv state → inv (step state event))
    {start : State} (events : List Event) (initial : inv start) :
    inv (run step start events) := by
  induction events generalizing start with
  | nil => exact initial
  | cons event rest induction => exact induction (preserved start event initial)

/-- A loop that takes each item once keeps an invariant when each step keeps it and what the other
items need. -/
theorem foldl_each {inv : State → Prop} (ready : State → Event → Prop)
    (taken : ∀ state event, inv state → ready state event →
      inv (step state event) ∧
        ∀ other, other ≠ event → ready state other → ready (step state event) other)
    {start : State} {events : List Event} (single : events.Nodup) (initial : inv start)
    (each : ∀ event ∈ events, ready start event) : inv (events.foldl step start) := by
  induction events generalizing start with
  | nil => exact initial
  | cons event rest induction =>
    have single := List.nodup_cons.mp single
    have next := taken start event initial (each event (.head _))
    apply induction single.2 next.1
    intro other listed
    apply next.2 other
    · rintro rfl
      exact single.1 listed
    · exact each other (.tail _ listed)

section Attempt

variable {attempted : State → Event → Option State}

/-- A step that may fail, after steps that may have failed. -/
def attempt (attempted : State → Event → Option State) (state : Option State) (event : Event) :
    Option State :=
  state.bind fun known => attempted known event

/-- The condition on an event, unless a step has failed before. -/
def AttemptOk (ok : State → Event → Prop) (state : Option State) (event : Event) : Prop :=
  ∀ known ∈ state, ok known event

/-- No step of a run fails, and an invariant holds behind it, when every step that meets `ok`
succeeds and preserves the invariant. -/
theorem attempt_invariant {inv : State → Prop}
    (preserved : ∀ state event, inv state → ok state event →
      ∃ later, attempted state event = some later ∧ inv later)
    {start : State} {events : List Event}
    (valid : Along (attempt attempted) (AttemptOk ok) (some start) events) (initial : inv start) :
    ∃ later, run (attempt attempted) (some start) events = some later ∧ inv later := by
  induction events generalizing start with
  | nil => exact ⟨start, rfl, initial⟩
  | cons event rest induction =>
    obtain ⟨later, succeeds, holds⟩ := preserved start event initial (valid.1 start rfl)
    have next : attempt attempted (some start) event = some later := succeeds
    have behind := valid.2
    rw [next] at behind
    rw [run_cons, next]
    exact induction behind holds

end Attempt

/-- `state` is reached from `start` by some list of events. -/
def Reaches (step : State → Event → State) (start state : State) : Prop :=
  ∃ events, run step start events = state

theorem Reaches.invariant {inv : State → Prop}
    (preserved : ∀ state event, inv state → inv (step state event))
    {start state : State} (reached : Reaches step start state) (initial : inv start) :
    inv state := by
  obtain ⟨events, rfl⟩ := reached
  exact run_invariant preserved events initial

end Machine
