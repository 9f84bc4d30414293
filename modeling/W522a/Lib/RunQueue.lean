import Mathlib.Data.List.Nodup
import Mathlib.Logic.Function.Basic

/-!
Run queues. An item waits on the list of its home and carries a flag that says so; each operation
on a list has to keep the flag and the list two copies of one fact.
-/

namespace RunQueue

universe u v

variable {Item : Type u} {Home : Type v} {home : Item → Home} {flag later : Item → Bool}
  {lists : Home → List Item} {item : Item} {place : Home}

/-- The items on the lists are the items whose flag is set, each once and on the list of its
home. -/
structure Consistent (home : Item → Home) (flag : Item → Bool) (lists : Home → List Item) :
    Prop where
  nodup : ∀ place, (lists place).Nodup
  listed : ∀ item place, item ∈ lists place ↔ flag item = true ∧ home item = place

theorem Consistent.flag_iff (consistent : Consistent home flag lists) (item : Item) :
    flag item = true ↔ item ∈ lists (home item) := by
  rw [consistent.listed]
  exact ⟨fun set => ⟨set, rfl⟩, fun listed => listed.1⟩

theorem Consistent.home_eq (consistent : Consistent home flag lists)
    (listed : item ∈ lists place) : home item = place :=
  ((consistent.listed item place).mp listed).2

theorem consistent_empty (home : Item → Home) :
    Consistent home (fun _ => false) (fun _ => []) :=
  ⟨fun _ => List.nodup_nil, fun _ _ => by simp⟩

theorem Consistent.congr (consistent : Consistent home flag lists)
    (same : ∀ item, later item = flag item) : Consistent home later lists := by
  have flags : later = flag := funext same
  rw [flags]
  exact consistent

/-- An item put on the list of its home as its flag is set. -/
theorem Consistent.link [DecidableEq Home] (consistent : Consistent home flag lists)
    (off : flag item = false) (on : later item = true)
    (others : ∀ other, other ≠ item → later other = flag other) :
    Consistent home later
      (Function.update lists (home item) (lists (home item) ++ [item])) := by
  have absent : item ∉ lists (home item) := by
    intro listed
    rw [(consistent.flag_iff item).mpr listed] at off
    cases off
  constructor
  · intro place
    by_cases own : place = home item
    · rw [own, Function.update_self]
      refine List.nodup_append.mpr ⟨consistent.nodup _, List.nodup_singleton _, ?_⟩
      intro one found two last same
      rw [same, List.mem_singleton.mp last] at found
      exact absent found
    · rw [Function.update_of_ne own]
      exact consistent.nodup place
  · intro other place
    by_cases same : other = item
    · subst same
      by_cases own : place = home other
      · subst own
        rw [Function.update_self]
        exact ⟨fun _ => ⟨on, rfl⟩, fun _ => List.mem_append_right _ List.mem_cons_self⟩
      · rw [Function.update_of_ne own, consistent.listed]
        exact ⟨fun found => absurd found.2.symm own, fun found => absurd found.2.symm own⟩
    · rw [others other same]
      by_cases own : place = home item
      · subst own
        rw [Function.update_self, List.mem_append, consistent.listed, List.mem_singleton]
        exact ⟨fun found => found.resolve_right same, Or.inl⟩
      · rw [Function.update_of_ne own]
        exact consistent.listed other place

/-- An item taken off the list of its home as its flag is cleared. -/
theorem Consistent.unlink [DecidableEq Home] [DecidableEq Item]
    (consistent : Consistent home flag lists) (off : later item = false)
    (others : ∀ other, other ≠ item → later other = flag other) :
    Consistent home later
      (Function.update lists (home item) ((lists (home item)).erase item)) := by
  constructor
  · intro place
    by_cases own : place = home item
    · rw [own, Function.update_self]
      exact (consistent.nodup _).erase item
    · rw [Function.update_of_ne own]
      exact consistent.nodup place
  · intro other place
    by_cases same : other = item
    · subst same
      rw [off]
      by_cases own : place = home other
      · subst own
        rw [Function.update_self]
        exact ⟨fun found => absurd rfl ((consistent.nodup _).mem_erase_iff.mp found).1,
          fun found => Bool.noConfusion found.1⟩
      · rw [Function.update_of_ne own, consistent.listed]
        exact ⟨fun found => absurd found.2.symm own, fun found => Bool.noConfusion found.1⟩
    · rw [others other same]
      by_cases own : place = home item
      · subst own
        rw [Function.update_self, List.mem_erase_of_ne same]
        exact consistent.listed other _
      · rw [Function.update_of_ne own]
        exact consistent.listed other place

end RunQueue
