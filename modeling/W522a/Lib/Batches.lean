import Mathlib.Data.List.Nodup
import Mathlib.Data.List.Perm.Basic
import Mathlib.Data.List.Flatten
import Mathlib.Data.List.Pairwise

/-!
A list of items that come in batches, with a counter of the batches. A batch leaves the list as a
whole: it is handed on, or each of its items is finished.
-/

namespace Batches

universe u

variable {Item : Type u}

/-- Every batch that ever came waits, was handed on or is finished, and the list is made of those
that wait. -/
structure Kept (batches waiting handed done : List (List Item)) (linked finished : List Item)
    (count : Int) : Prop where
  full : ∀ batch ∈ batches, batch ≠ []
  distinct : batches.flatten.Nodup
  placed : batches.Perm (waiting ++ (handed ++ done))
  linked : linked = waiting.flatten
  finished : finished = done.flatten
  counted : count = waiting.length

variable {batches waiting handed done before after : List (List Item)} {batch : List Item}
  {linked finished : List Item} {item : Item} {count : Int}

theorem kept_empty : Kept ([] : List (List Item)) [] [] [] [] [] 0 where
  full _ none := by cases none
  distinct := List.nodup_nil
  placed := List.Perm.nil
  linked := rfl
  finished := rfl
  counted := rfl

/-- A batch of new items comes to the end of the list. -/
theorem Kept.add (kept : Kept batches waiting handed done linked finished count)
    (full : batch ≠ []) (distinct : batch.Nodup)
    (fresh : ∀ item ∈ batch, item ∉ batches.flatten) :
    Kept (batches ++ [batch]) (waiting ++ [batch]) handed done (linked ++ batch) finished
      (count + 1) where
  full other listed := by
    cases List.mem_append.mp listed with
    | inl old => exact kept.full other old
    | inr new => exact List.mem_singleton.mp new ▸ full
  distinct := by
    rw [List.flatten_append, List.flatten_singleton]
    apply List.Nodup.append kept.distinct distinct
    intro item old new
    exact fresh item new old
  placed := by
    have moved : (waiting ++ (handed ++ done) ++ [batch]).Perm
        (waiting ++ [batch] ++ (handed ++ done)) := by
      rw [List.append_assoc waiting, List.append_assoc waiting]
      exact List.perm_append_comm.append_left waiting
    exact (kept.placed.append_right [batch]).trans moved
  linked := by rw [List.flatten_append, List.flatten_singleton, kept.linked]
  finished := kept.finished
  counted := by
    rw [kept.counted, List.length_append, List.length_singleton]
    rfl

theorem Kept.hand
    (kept : Kept batches (before ++ batch :: after) handed done linked finished count) :
    Kept batches (before ++ after) (handed ++ [batch]) done (before.flatten ++ after.flatten)
      finished (count - 1) where
  full := kept.full
  distinct := kept.distinct
  placed := by
    have moved : (before ++ batch :: after ++ (handed ++ done)).Perm
        (before ++ after ++ (handed ++ [batch] ++ done)) := by
      rw [List.append_assoc, List.append_assoc, List.append_assoc, List.singleton_append]
      apply List.Perm.append_left
      rw [List.cons_append, ← List.append_assoc, ← List.append_assoc]
      exact List.perm_middle.symm
    exact kept.placed.trans moved
  linked := List.flatten_append.symm
  finished := kept.finished
  counted := by
    rw [kept.counted, List.length_append, List.length_append, List.length_cons]
    omega

theorem Kept.handFirst (kept : Kept batches (batch :: waiting) handed done linked finished count) :
    Kept batches waiting (handed ++ [batch]) done waiting.flatten finished (count - 1) := by
  have kept : Kept batches ([] ++ batch :: waiting) handed done linked finished count := kept
  exact kept.hand

theorem Kept.finish
    (kept : Kept batches (before ++ batch :: after) handed done linked finished count) :
    Kept batches (before ++ after) handed (done ++ [batch]) (before.flatten ++ after.flatten)
      (finished ++ batch) (count - 1) where
  full := kept.full
  distinct := kept.distinct
  placed := by
    have moved : (before ++ batch :: after ++ (handed ++ done)).Perm
        (before ++ after ++ (handed ++ (done ++ [batch]))) := by
      rw [List.append_assoc, List.append_assoc, ← List.append_assoc handed]
      apply List.Perm.append_left
      rw [← List.append_assoc after]
      exact (List.perm_append_singleton _ _).symm
    exact kept.placed.trans moved
  linked := List.flatten_append.symm
  finished := by rw [List.flatten_append, List.flatten_singleton, kept.finished]
  counted := by
    rw [kept.counted, List.length_append, List.length_append, List.length_cons]
    omega

theorem Kept.mem_of_linked (kept : Kept batches waiting handed done linked finished count)
    (listed : item ∈ linked) : item ∈ batches.flatten := by
  rw [kept.linked] at listed
  rw [kept.placed.flatten.mem_iff, List.flatten_append]
  exact List.mem_append_left _ listed

theorem Kept.mem_of_waiting (kept : Kept batches waiting handed done linked finished count)
    (waits : batch ∈ waiting) : batch ∈ batches :=
  kept.placed.mem_iff.mpr (List.mem_append_left _ waits)

theorem Kept.once (kept : Kept batches waiting handed done linked finished count) :
    (linked ++ (handed.flatten ++ finished)).Nodup := by
  have placed := kept.placed.flatten
  rw [List.flatten_append, List.flatten_append, ← kept.linked, ← kept.finished] at placed
  exact placed.nodup_iff.mp kept.distinct

/-- The only waiting batch with an item is the one that the item came with. -/
theorem Kept.eq_of_mem (kept : Kept batches waiting handed done linked finished count)
    {first second : List Item} (one : first ∈ batches) (two : second ∈ batches)
    (left : item ∈ first) (right : item ∈ second) : first = second := by
  have apart := (List.nodup_flatten.mp kept.distinct).2
  by_contra differ
  have symmetric : Std.Symm (@List.Disjoint Item) :=
    ⟨fun _ _ disjoint _ right left => disjoint left right⟩
  have disjoint : List.Disjoint first second := apart.forall one two differ
  exact disjoint left right

/-- An item of the list that came alone is a batch that waits. -/
theorem Kept.split_single (kept : Kept batches waiting handed done linked finished count)
    {front back : List Item} (alone : [item] ∈ batches) (place : linked = front ++ item :: back) :
    ∃ before after, waiting = before ++ [item] :: after ∧ before.flatten = front ∧
      after.flatten = back := by
  have once := kept.once
  have listed : item ∈ waiting.flatten := by
    rw [← kept.linked, place]
    exact List.mem_append_right _ List.mem_cons_self
  obtain ⟨batch, waits, member⟩ := List.mem_flatten.mp listed
  obtain rfl := kept.eq_of_mem (kept.mem_of_waiting waits) alone member List.mem_cons_self
  obtain ⟨before, after, rfl⟩ := List.append_of_mem waits
  have same : before.flatten ++ item :: after.flatten = front ++ item :: back := by
    rw [← place, kept.linked, List.flatten_append, List.flatten_cons, List.singleton_append]
  rw [place, ← same] at once
  have absent := (List.nodup_cons.mp (List.nodup_middle.mp (List.nodup_append.mp once).1)).1
  rw [List.mem_append, not_or] at absent
  have parts := (List.append_cons_inj_of_notMem absent.1 absent.2).mp same
  exact ⟨before, after, rfl, parts.1, parts.2.2⟩

section Counted

variable [DecidableEq Item]

def linkedBatches (batches : List (List Item)) (linked : List Item) : List (List Item) :=
  batches.filter fun batch => batch.any (· ∈ linked)

theorem Kept.count_eq (kept : Kept batches waiting handed done linked finished count) :
    count = (linkedBatches batches linked).length := by
  have apart := List.nodup_append.mp kept.once
  have waits : ∀ batch ∈ waiting, (batch.any (· ∈ linked)) = true := by
    intro batch listed
    obtain ⟨item, rest, rfl⟩ :=
      List.exists_cons_of_ne_nil (kept.full batch (kept.mem_of_waiting listed))
    rw [List.any_cons, Bool.or_eq_true, decide_eq_true_iff, kept.linked]
    exact Or.inl (List.mem_flatten.mpr ⟨_, listed, List.mem_cons_self⟩)
  have gone : ∀ batch ∈ handed ++ done, ¬(batch.any (· ∈ linked)) = true := by
    intro batch listed found
    obtain ⟨item, member, held⟩ := List.any_eq_true.mp found
    have other : item ∈ handed.flatten ++ finished := by
      rw [kept.finished, ← List.flatten_append]
      exact List.mem_flatten.mpr ⟨batch, listed, member⟩
    exact apart.2.2 item (of_decide_eq_true held) item other rfl
  have counted := (kept.placed.filter fun batch => batch.any (· ∈ linked)).length_eq
  rw [List.filter_append, List.filter_eq_self.mpr waits, List.filter_eq_nil_iff.mpr gone,
    List.append_nil] at counted
  rw [kept.counted, linkedBatches, counted]

end Counted

theorem Kept.count_zero (kept : Kept batches waiting handed done linked finished count) :
    count = 0 ↔ linked = [] := by
  rw [kept.counted, kept.linked]
  constructor
  · intro zero
    have none : waiting = [] := List.length_eq_zero_iff.mp (by omega)
    rw [none]
    rfl
  · intro empty
    cases waiting with
    | nil => rfl
    | cons batch rest =>
      have full := kept.full batch (kept.mem_of_waiting List.mem_cons_self)
      exact absurd (List.append_eq_nil_iff.mp empty).1 full

theorem Kept.whole (kept : Kept batches waiting handed done linked finished count)
    (listed : batch ∈ batches) :
    batch <:+: linked ∨ batch ∈ handed ∨ batch <:+: finished := by
  have inside : ∀ {parts : List (List Item)}, batch ∈ parts → batch <:+: parts.flatten := by
    intro parts member
    obtain ⟨before, after, rfl⟩ := List.append_of_mem member
    exact ⟨before.flatten, after.flatten, by simp⟩
  rw [kept.linked, kept.finished]
  cases List.mem_append.mp (kept.placed.mem_iff.mp listed) with
  | inl waits => exact Or.inl (inside waits)
  | inr gone =>
    cases List.mem_append.mp gone with
    | inl given => exact Or.inr (Or.inl given)
    | inr later => exact Or.inr (Or.inr (inside later))

end Batches
