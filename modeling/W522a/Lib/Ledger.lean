import Mathlib.Logic.Function.Basic

/-!
Who owns a buffer. A buffer is given to the code under study, is touched and perhaps replaced by a
copy while it is held, and ends with another owner or is given back.
-/

namespace Ledger

universe u

/-- What happens to a buffer; every action but the first is done to one of its copies. -/
inductive Action where
  | give
  | touch (copy : Nat)
  | replace (copy : Nat)
  | accept (copy : Nat)
  | complete (copy : Nat)
  | finish (copy : Nat)
  deriving DecidableEq, Repr

/-- How a buffer is held. -/
inductive Holding where
  | absent
  | held (copy : Nat)
  | accepted (copy : Nat)
  | completed
  deriving DecidableEq, Repr

/-- The law of one action: only the copy that is there can be touched, only a held buffer can be
replaced, accepted or completed, and only its new owner finishes one that was accepted. -/
def step : Holding → Action → Option Holding
  | .absent, .give => some (.held 0)
  | .held copy, .touch place => if place = copy then some (.held copy) else none
  | .held copy, .replace place => if place = copy then some (.held (copy + 1)) else none
  | .held copy, .accept place => if place = copy then some (.accepted copy) else none
  | .held copy, .complete place => if place = copy then some .completed else none
  | .accepted copy, .touch place => if place = copy then some (.accepted copy) else none
  | .accepted copy, .finish place => if place = copy then some .completed else none
  | _, _ => none

/-- Nobody has lost the buffer. -/
def Settled : Holding → Prop
  | .held _ => False
  | _ => True

instance (holding : Holding) : Decidable (Settled holding) := by
  cases holding with
  | held _ => exact inferInstanceAs (Decidable False)
  | absent => exact inferInstanceAs (Decidable True)
  | accepted _ => exact inferInstanceAs (Decidable True)
  | completed => exact inferInstanceAs (Decidable True)

/-- The holding after actions on one buffer, where they are lawful. -/
def run (start : Holding) (actions : List Action) : Option Holding := actions.foldlM step start

variable {Buffer : Type u} [DecidableEq Buffer] {books : Buffer → Holding} {buffer : Buffer}

def runAll (books : Buffer → Holding) : List (Buffer × Action) → Option (Buffer → Holding)
  | [] => some books
  | event :: rest =>
    match step (books event.1) event.2 with
    | some holding => runAll (Function.update books event.1 holding) rest
    | none => none

def Lawful (books : Buffer → Holding) (events : List (Buffer × Action)) : Prop :=
  ∃ later, runAll books events = some later ∧ ∀ buffer, Settled (later buffer)

theorem run_append (start : Holding) (first second : List Action) :
    run start (first ++ second) = (run start first).bind fun later => run later second :=
  List.foldlM_append

theorem runAll_append (books : Buffer → Holding) (first second : List (Buffer × Action)) :
    runAll books (first ++ second) =
      (runAll books first).bind fun later => runAll later second := by
  induction first generalizing books with
  | nil => rfl
  | cons event rest induction =>
    rw [List.cons_append, runAll, runAll]
    cases step (books event.1) event.2 with
    | none => rfl
    | some holding => exact induction _

/-- Actions on one buffer change its entry alone. -/
theorem runAll_one (books : Buffer → Holding) (buffer : Buffer) (actions : List Action) :
    runAll books (actions.map fun action => (buffer, action)) =
      (run (books buffer) actions).map (Function.update books buffer) := by
  induction actions generalizing books with
  | nil =>
    show some books = some (Function.update books buffer (books buffer))
    rw [Function.update_eq_self]
  | cons action rest induction =>
    rw [List.map_cons, runAll, run, List.foldlM_cons]
    dsimp only
    cases step (books buffer) action with
    | none => rfl
    | some holding =>
      dsimp only
      rw [induction, Function.update_self]
      show (run holding rest).map _ = (run holding rest).map _
      refine congrArg (Option.map · _) (funext fun last => ?_)
      exact Function.update_idem _ _ _

theorem lawful_append {later : Buffer → Holding} {first second : List (Buffer × Action)}
    (begun : runAll books first = some later) :
    Lawful books (first ++ second) ↔ Lawful later second := by
  unfold Lawful
  rw [runAll_append, begun]
  rfl

theorem not_lawful_append {first second : List (Buffer × Action)}
    (broken : runAll books first = none) : ¬ Lawful books (first ++ second) := by
  rintro ⟨later, ran, -⟩
  rw [runAll_append, broken] at ran
  cases ran

/-- Actions on other buffers leave an entry as it is. -/
theorem runAll_other {later : Buffer → Holding} {events : List (Buffer × Action)}
    (others : ∀ event ∈ events, event.1 ≠ buffer) (ran : runAll books events = some later) :
    later buffer = books buffer := by
  induction events generalizing books with
  | nil =>
    cases ran
    rfl
  | cons event rest induction =>
    rw [runAll] at ran
    cases taken : step (books event.1) event.2 with
    | none =>
      rw [taken] at ran
      cases ran
    | some holding =>
      rw [taken] at ran
      rw [induction (fun next listed => others next (.tail _ listed)) ran]
      exact Function.update_of_ne (others event (.head _)).symm _ _

theorem not_lawful_of_held (buffer : Buffer) {events : List (Buffer × Action)}
    (others : ∀ event ∈ events, event.1 ≠ buffer) (held : ¬ Settled (books buffer)) :
    ¬ Lawful books events := by
  rintro ⟨later, ran, settled⟩
  have kept := settled buffer
  rw [runAll_other others ran] at kept
  exact held kept

theorem lawful_nil : Lawful books [] ↔ ∀ buffer, Settled (books buffer) := by
  constructor
  · rintro ⟨later, ran, settled⟩
    cases ran
    exact settled
  · intro settled
    exact ⟨books, rfl, settled⟩

end Ledger
