import Mathlib.Data.List.Basic

/-!
Events that raise a debt, events that settle it, and events at which none may be open: a monitor of
one bit, and what a log that it accepts looks like.
-/

namespace Owing

universe u

variable {Event : Type u} {raises settles closes : Event → Bool}

/-- Whether a debt is open behind an event. -/
def after (raises settles : Event → Bool) (owed : Bool) (event : Event) : Bool :=
  if raises event then true else if settles event then false else owed

/-- Whether a debt is open behind some events. -/
def owes (raises settles : Event → Bool) (owed : Bool) (log : List Event) : Bool :=
  log.foldl (after raises settles) owed

def Clean (raises settles closes : Event → Bool) : Bool → List Event → Prop
  | _, [] => True
  | owed, event :: rest =>
    (closes event = true → owed = false) ∧
      Clean raises settles closes (after raises settles owed event) rest

variable {owed : Bool} {event : Event} {log first second front back : List Event}

theorem owes_append : owes raises settles owed (first ++ second) =
    owes raises settles (owes raises settles owed first) second := List.foldl_append

theorem clean_append : Clean raises settles closes owed (first ++ second) ↔
    Clean raises settles closes owed first ∧
      Clean raises settles closes (owes raises settles owed first) second := by
  induction first generalizing owed with
  | nil => exact ⟨fun clean => ⟨trivial, clean⟩, fun both => both.2⟩
  | cons event rest ih =>
    rw [List.cons_append, Clean, Clean, ih, and_assoc]
    rfl

theorem clean_of_open (never : ∀ event ∈ log, closes event = false) :
    Clean raises settles closes owed log := by
  induction log generalizing owed with
  | nil => trivial
  | cons event rest ih =>
    refine ⟨?_, ih fun other found => never other (List.mem_cons_of_mem _ found)⟩
    intro closing
    rw [never event List.mem_cons_self] at closing
    cases closing

theorem owes_of_quiet (quiet : ∀ event ∈ log, raises event = false)
    (opened : owes raises settles owed log = true) : owed = true := by
  induction log generalizing owed with
  | nil => exact opened
  | cons event rest ih =>
    have before := ih (fun other found => quiet other (List.mem_cons_of_mem _ found)) opened
    rw [after, quiet event List.mem_cons_self] at before
    cases owed with
    | true => rfl
    | false => simp at before

/-- An open debt is settled before anything closes. -/
theorem settled_of_open (clean : Clean raises settles closes true log)
    (done : owes raises settles true log = false) :
    ∃ mid last rest, log = mid ++ last :: rest ∧ settles last = true ∧
      ∀ other ∈ mid, closes other = false := by
  induction log with
  | nil => cases done
  | cons event rest ih =>
    obtain ⟨shut, clean⟩ := clean
    have stays : closes event = false := by
      cases closing : closes event with
      | true => exact absurd (shut closing) (by decide)
      | false => rfl
    by_cases still : after raises settles true event = true
    · rw [still] at clean
      rw [owes, List.foldl_cons, still] at done
      obtain ⟨mid, last, others, split, settled, quiet⟩ := ih clean done
      refine ⟨event :: mid, last, others, ?_, settled, ?_⟩
      · rw [split]
        rfl
      · intro other found
        rcases List.mem_cons.mp found with rfl | later
        · exact stays
        · exact quiet other later
    · refine ⟨[], event, rest, rfl, ?_, fun other found => absurd found (by simp)⟩
      rw [after] at still
      cases settled : settles event with
      | true => rfl
      | false => simp [settled] at still

/-- In a clean log that leaves nothing open, every debt is settled before anything closes. -/
theorem settled (clean : Clean raises settles closes owed log)
    (done : owes raises settles owed log = false) (split : log = front ++ event :: back)
    (raised : raises event = true) :
    ∃ mid last rest, back = mid ++ last :: rest ∧ settles last = true ∧
      ∀ other ∈ mid, closes other = false := by
  rw [split] at clean done
  rw [clean_append, Clean] at clean
  rw [owes_append, owes, List.foldl_cons] at done
  have opened : after raises settles (owes raises settles owed front) event = true := by
    rw [after, raised, if_pos rfl]
  rw [opened] at clean done
  exact settled_of_open clean.2.2 done

end Owing
