import Mathlib.Logic.Basic

/-!
Programs that log what they do, and the programs whose every event is allowed. The events of a
parser are the places it reads; those of another program may be more.
-/

namespace Memory

universe u

structure Traced (Event : Type u) (Value : Type) where
  log : List Event
  value : Value
  deriving Repr

variable {Event : Type u} {Value Result : Type} {ok other : Event → Prop}

instance : Monad (Traced Event) where
  pure value := ⟨[], value⟩
  bind program next := ⟨program.log ++ (next program.value).log, (next program.value).value⟩

def emit (event : Event) : Traced Event Unit := ⟨[event], ()⟩

def Safe (ok : Event → Prop) (program : Traced Event Value) : Prop :=
  ∀ event ∈ program.log, ok event

section Rules

variable {program : Traced Event Value} {next : Value → Traced Event Result}

@[simp] theorem value_pure (value : Value) : (pure value : Traced Event Value).value = value := rfl

@[simp] theorem value_bind : (program >>= next).value = (next program.value).value := rfl

@[simp] theorem value_emit (event : Event) : (emit event).value = () := rfl

theorem pure_seq {value : Value} : (pure value >>= next) = next value := rfl

theorem seq_assoc {Last : Type} {last : Result → Traced Event Last} :
    (program >>= next >>= last) = program >>= fun value => next value >>= last := by
  simp only [bind, List.append_assoc]

@[simp] theorem log_pure (value : Value) : (pure value : Traced Event Value).log = [] := rfl

@[simp] theorem log_bind : (program >>= next).log = program.log ++ (next program.value).log := rfl

@[simp] theorem log_emit (event : Event) : (emit event).log = [event] := rfl

@[simp] theorem safe_pure (value : Value) : Safe ok (pure value : Traced Event Value) := by
  intro event found
  cases found

@[simp] theorem safe_bind : Safe ok (program >>= next) ↔
    Safe ok program ∧ Safe ok (next program.value) := by
  have log_eq : (program >>= next).log = program.log ++ (next program.value).log := rfl
  simp only [Safe, log_eq, List.mem_append, or_imp, forall_and]

@[simp] theorem safe_emit {event : Event} : Safe ok (emit event) ↔ ok event := by
  simp [Safe, emit]

theorem log_forM_emit {Item : Type} (items : List Item) (label : Item → Event) :
    (items.forM fun item => (emit (label item) : Traced Event Unit)).log = items.map label := by
  induction items with
  | nil => rfl
  | cons item rest ih => exact congrArg (label item :: ·) ih

theorem Safe.mono (safe : Safe ok program) (allowed : ∀ event, ok event → other event) :
    Safe other program := by
  intro event found
  exact allowed event (safe event found)

end Rules

def onlyIf (condition : Prop) [Decidable condition] (program : Traced Event Value) :
    Traced Event (Option Value) :=
  if condition then do
    let value ← program
    pure (some value)
  else pure none

/-- Run a program on what is there. -/
def forSome {Item : Type} (item : Option Item) (use : Item → Traced Event Value) :
    Traced Event (Option Value) :=
  match item with
  | some item => do
    let value ← use item
    pure (some value)
  | none => pure none

def Traced.relabel {Other : Type u} (label : Event → Option Other)
    (program : Traced Event Value) : Traced Other Value :=
  ⟨program.log.filterMap label, program.value⟩

section Conditions

variable {program : Traced Event Value}

@[simp] theorem safe_onlyIf {condition : Prop} [Decidable condition] :
    Safe ok (onlyIf condition program) ↔ (condition → Safe ok program) := by
  rw [onlyIf]
  split
  next holds => simp [holds]
  next fails => simp [fails]

@[simp] theorem safe_forSome {Item : Type} {item : Option Item}
    {use : Item → Traced Event Value} :
    Safe ok (forSome item use) ↔ ∀ found, item = some found → Safe ok (use found) := by
  cases item with
  | none => simp [forSome]
  | some item => simp [forSome]

@[simp] theorem value_forSome {Item : Type} {item : Option Item}
    {use : Item → Traced Event Value} :
    (forSome item use).value = item.map fun found => (use found).value := by
  cases item with
  | none => rfl
  | some item => rfl

theorem safe_choice {condition : Prop} [Decidable condition] (first second : Value) :
    Safe ok (if condition then pure first else pure second : Traced Event Value) := by
  split
  next holds => exact safe_pure first
  next fails => exact safe_pure second

/-- The events of a relabelled program are allowed when those it logs under another name are. -/
@[simp] theorem safe_relabel {Other : Type u} {label : Event → Option Other} {ok : Other → Prop} :
    Safe ok (program.relabel label) ↔
      Safe (fun event => ∀ other, label event = some other → ok other) program := by
  simp only [Safe, Traced.relabel, List.mem_filterMap]
  constructor
  · intro allowed event member other named
    exact allowed other ⟨event, member, named⟩
  · rintro allowed other ⟨event, member, named⟩
    exact allowed event member other named

end Conditions

/-- Some cells that a program reads. -/
structure Access where
  start : Nat
  count : Nat
  deriving DecidableEq, Repr

/-- The cells of an access lie between two places. -/
def Access.Inside (low high : Nat) (access : Access) : Prop :=
  low ≤ access.start ∧ access.start + access.count ≤ high

def touch (start count : Nat) : Traced Access Unit := emit ⟨start, count⟩

def fetch (memory : Nat → Value) (place : Nat) : Traced Access Value := do
  touch place 1
  pure (memory place)

/-- Every access of the program lies between two places. -/
def InBounds (low high : Nat) (program : Traced Access Value) : Prop :=
  Safe (Access.Inside low high) program

section Accesses

variable {low high start count place : Nat} {program : Traced Access Value}
  {next : Value → Traced Access Result}

@[simp] theorem value_touch : (touch start count).value = () := rfl

@[simp] theorem value_fetch {memory : Nat → Value} : (fetch memory place).value = memory place :=
  rfl

@[simp] theorem inBounds_pure (value : Value) :
    InBounds low high (pure value : Traced Access Value) := safe_pure value

@[simp] theorem inBounds_bind : InBounds low high (program >>= next) ↔
    InBounds low high program ∧ InBounds low high (next program.value) := safe_bind

@[simp] theorem inBounds_touch : InBounds low high (touch start count) ↔
    low ≤ start ∧ start + count ≤ high := safe_emit

@[simp] theorem inBounds_fetch {memory : Nat → Value} : InBounds low high (fetch memory place) ↔
    low ≤ place ∧ place + 1 ≤ high := by
  simp [fetch]

end Accesses

end Memory
