import Mathlib.Data.List.Perm.Basic
import Mathlib.Data.List.Chain

/-!
The selection of one item from a list in a single pass, by a preference that need not be transitive,
and the items that it can end with over all orders of the list.
-/

namespace Selection

universe u

variable {Item : Type u}

structure Ladder (beats : Item → Item → Prop) (start : Option Item) (table rungs : List Item)
    (top : Item) : Prop where
  taken : rungs.Subperm table
  climbs : (start.toList ++ rungs).IsChain fun lower upper => beats upper lower
  covers : ∀ item ∈ table, ∃ rung ∈ start.toList ++ rungs, ¬ beats item rung
  ends : (start.toList ++ rungs).getLast? = some top

variable {beats : Item → Item → Prop} {start : Option Item} {best item top : Item}
  {items table rungs : List Item}

section Ladders

theorem Ladder.top_mem (ladder : Ladder beats start table rungs top) :
    top ∈ table ∨ rungs = [] ∧ start = some top := by
  have ends := ladder.ends
  cases rungs with
  | nil =>
    right
    cases start with
    | none => cases ends
    | some best => exact ⟨rfl, ends⟩
  | cons first rungs =>
    left
    rw [List.getLast?_append_of_ne_nil _ (List.cons_ne_nil first rungs)] at ends
    exact ladder.taken.subset (List.mem_of_getLast? ends)

theorem Ladder.top_eq_start {rungs' : List Item} {top' : Item}
    (stays : Ladder beats (some best) table [] best)
    (ladder : Ladder beats (some best) table rungs' top') : top' = best := by
  cases rungs' with
  | nil => exact (Option.some.inj ladder.ends).symm
  | cons first rungs' =>
    have higher : beats first best := (List.isChain_cons_cons.mp ladder.climbs).1
    obtain ⟨rung, found, unbeaten⟩ :=
      stays.covers first (ladder.taken.subset List.mem_cons_self)
    cases List.mem_singleton.mp found
    exact absurd higher unbeaten

end Ladders

variable (beats) [DecidableRel beats]

/-- One item of the pass: it is kept when it beats the best so far, or when there is none. -/
def keep (best : Option Item) (item : Item) : Option Item :=
  match best with
  | none => some item
  | some best => if beats item best then some item else some best

/-- The pass over a list, from the best so far. -/
def select (start : Option Item) (items : List Item) : Option Item :=
  items.foldl (keep beats) start

section Pass

variable {beats}

@[simp] theorem select_nil : select beats start [] = start := rfl

@[simp] theorem select_cons :
    select beats start (item :: items) = select beats (keep beats start item) items := rfl

private theorem select_append {more : List Item} :
    select beats start (items ++ more) = select beats (select beats start items) more :=
  List.foldl_append

private theorem select_unbeaten (unbeaten : ∀ item ∈ items, ¬ beats item best) :
    select beats (some best) items = some best := by
  induction items with
  | nil => rfl
  | cons item items pass =>
    have skipped : keep beats (some best) item = some best :=
      if_neg (unbeaten item List.mem_cons_self)
    rw [select_cons, skipped]
    exact pass fun later member => unbeaten later (List.mem_cons_of_mem item member)

private theorem Ladder.of_select (irreflexive : ∀ item, ¬ beats item item)
    (ended : select beats start items = some top) :
    ∃ rungs : List Item, rungs.Sublist items ∧
      (start.toList ++ rungs).IsChain (fun lower upper => beats upper lower) ∧
      (∀ item ∈ items, ∃ rung ∈ start.toList ++ rungs, ¬ beats item rung) ∧
      (start.toList ++ rungs).getLast? = some top := by
  induction items generalizing start with
  | nil =>
    cases ended
    refine ⟨[], List.Sublist.refl [], List.isChain_singleton top, ?_, rfl⟩
    intro item none
    cases none
  | cons item items climb =>
    cases start with
    | none =>
      have next : select beats (some item) items = some top := ended
      obtain ⟨rungs, sublist, climbs, covers, ends⟩ := climb next
      refine ⟨item :: rungs, sublist.cons_cons item, climbs, ?_, ends⟩
      intro other member
      cases member with
      | head => exact ⟨item, List.mem_cons_self, irreflexive item⟩
      | tail _ later => exact covers other later
    | some best =>
      rw [select_cons, keep] at ended
      split at ended
      next higher =>
        obtain ⟨rungs, sublist, climbs, covers, ends⟩ := climb ended
        refine ⟨item :: rungs, sublist.cons_cons item, ?_, ?_, ?_⟩
        · exact List.isChain_cons_cons.mpr ⟨higher, climbs⟩
        · intro other member
          cases member with
          | head => exact ⟨item, by simp, irreflexive item⟩
          | tail _ later =>
            obtain ⟨rung, found, unbeaten⟩ := covers other later
            exact ⟨rung, List.mem_cons_of_mem best found, unbeaten⟩
        · have longer : (Option.some best).toList ++ item :: rungs = best :: item :: rungs := rfl
          rw [longer, List.getLast?_cons_cons]
          exact ends
      next lower =>
        obtain ⟨rungs, sublist, climbs, covers, ends⟩ := climb ended
        refine ⟨rungs, sublist.cons item, climbs, ?_, ends⟩
        intro other member
        cases member with
        | head => exact ⟨best, by simp, lower⟩
        | tail _ later => exact covers other later

/-- From a rung, the items that do not beat it are passed over before the next rung comes. -/
theorem exists_order_of_rungs (climbs : (best :: rungs).IsChain fun lower upper => beats upper lower)
    (covers : ∀ item ∈ items, ∃ rung ∈ best :: rungs, ¬ beats item rung)
    (ends : (best :: rungs).getLast? = some top) :
    ∃ order : List Item, order.Perm (rungs ++ items) ∧ select beats (some best) order = some top := by
  induction rungs generalizing best items with
  | nil =>
    cases ends
    refine ⟨items, List.Perm.refl items, select_unbeaten fun item member => ?_⟩
    obtain ⟨rung, found, unbeaten⟩ := covers item member
    cases List.mem_singleton.mp found
    exact unbeaten
  | cons next rungs step =>
    have higher := (List.isChain_cons_cons.mp climbs).1
    let passed := items.filter fun item => decide (¬ beats item best)
    let later := items.filter fun item => !decide (¬ beats item best)
    have unbeaten : ∀ item ∈ passed, ¬ beats item best := by
      intro item member
      exact of_decide_eq_true (List.mem_filter.mp member).2
    have covered : ∀ item ∈ later, ∃ rung ∈ next :: rungs, ¬ beats item rung := by
      intro item member
      obtain ⟨here, beaten⟩ := List.mem_filter.mp member
      obtain ⟨rung, found, unbeaten⟩ := covers item here
      cases found with
      | head => simp [unbeaten] at beaten
      | tail _ found => exact ⟨rung, found, unbeaten⟩
    obtain ⟨order, perm, ended⟩ := step (List.isChain_cons_cons.mp climbs).2 covered
      (List.getLast?_cons_cons ▸ ends)
    have kept : keep beats (some best) next = some next := if_pos higher
    refine ⟨passed ++ next :: order, ?_, ?_⟩
    · calc passed ++ next :: order
          _ |>.Perm (next :: (passed ++ order)) := List.perm_middle
          _ |>.Perm (next :: (passed ++ (rungs ++ later))) := (perm.append_left passed).cons next
          _ |>.Perm (next :: (rungs ++ (passed ++ later))) :=
            (List.perm_append_comm_assoc passed rungs later).cons next
          _ |>.Perm (next :: (rungs ++ items)) :=
            ((List.filter_append_perm _ items).append_left rungs).cons next
    · rw [select_append, select_unbeaten unbeaten, select_cons, kept, ended]

theorem exists_order_iff (irreflexive : ∀ item, ¬ beats item item) :
    (∃ order : List Item, order.Perm table ∧ select beats start order = some top) ↔
      ∃ rungs, Ladder beats start table rungs top := by
  constructor
  · rintro ⟨order, perm, ended⟩
    obtain ⟨rungs, sublist, climbs, covers, ends⟩ := Ladder.of_select irreflexive ended
    exact ⟨rungs, sublist.subperm.trans perm.subperm, climbs,
      fun item member => covers item (perm.mem_iff.mpr member), ends⟩
  · rintro ⟨rungs, taken, climbs, covers, ends⟩
    obtain ⟨order, same, sublist⟩ := taken
    obtain ⟨rest, split⟩ := sublist.exists_perm_append
    have whole : table.Perm (rungs ++ rest) := split.trans (same.append_right rest)
    have covered : ∀ item ∈ rest, ∃ rung ∈ start.toList ++ rungs, ¬ beats item rung :=
      fun item member => covers item (whole.mem_iff.mpr (List.mem_append_right rungs member))
    cases start with
    | some best =>
      obtain ⟨order, perm, ended⟩ := exists_order_of_rungs climbs covered ends
      exact ⟨order, perm.trans whole.symm, ended⟩
    | none =>
      cases rungs with
      | nil => cases ends
      | cons first rungs =>
        obtain ⟨order, perm, ended⟩ := exists_order_of_rungs climbs covered ends
        exact ⟨first :: order, (perm.cons first).trans whole.symm, ended⟩

end Pass

end Selection
