import Mathlib.Data.List.Sort

/-!
The best of the items that were offered: a list of a fixed length that is kept in order, into which
each new item goes up from the end and pushes the last one out.
-/

namespace Podium

universe u v

variable {Item : Type u} {Rank : Type v} [LinearOrder Rank] {rank rank' : Item → Rank} {size : Nat}
  {offered chosen entries : List Item} {item : Item}

/-- Put an item in front of the entries at the end that it beats; the last entry leaves. -/
def insertBest (rank : Item → Rank) (size : Nat) (entries : List Item) (item : Item) : List Item :=
  (entries.reverse.orderedInsert (fun item other => rank item ≤ rank other) item).reverse.take size

/-- The entries are in order, and are the best of what was offered: as many of them reach a rank as
were offered that do, or all of them. -/
structure Best (rank : Item → Rank) (size : Nat) (offered entries : List Item) : Prop where
  length : entries.length = size
  order : entries.Pairwise fun first second => rank second ≤ rank first
  known : entries ⊆ offered
  reached : ∀ limit, entries.countP (fun item => limit ≤ rank item) =
    min size (offered.countP fun item => limit ≤ rank item)

theorem best_self (item : Item) :
    Best rank size (List.replicate size item) (List.replicate size item) := by
  refine ⟨List.length_replicate, List.pairwise_replicate.mpr (.inr le_rfl), List.Subset.refl _,
    fun limit => ?_⟩
  rw [min_eq_right]
  exact List.countP_le_length.trans (Nat.le_of_eq List.length_replicate)

/-- Of a list in order, as many as fit reach a rank. -/
theorem countP_take (order : entries.Pairwise fun first second => rank second ≤ rank first)
    (limit : Rank) (size : Nat) : (entries.take size).countP (fun item => limit ≤ rank item) =
      min size (entries.countP fun item => limit ≤ rank item) := by
  induction entries generalizing size with
  | nil => simp
  | cons first rest induction =>
    obtain ⟨least, order⟩ := List.pairwise_cons.mp order
    cases size with
    | zero => simp
    | succ size =>
      rw [List.take_succ_cons, List.countP_cons, List.countP_cons, induction order]
      split
      · omega
      · rename_i below
        have none : rest.countP (fun item => limit ≤ rank item) = 0 := by
          refine List.countP_eq_zero.mpr fun item member reach => below ?_
          exact decide_eq_true ((of_decide_eq_true reach).trans (least item member))
        omega

theorem Best.insert (best : Best rank size offered entries) (item : Item) :
    Best rank size (offered ++ [item]) (insertBest rank size entries item) := by
  have total : Std.Total fun item other : Item => rank item ≤ rank other :=
    ⟨fun first second => le_total (rank first) (rank second)⟩
  have trans : IsTrans Item fun item other => rank item ≤ rank other := ⟨fun _ _ _ => le_trans⟩
  have whole := List.pairwise_reverse.mpr
    ((List.pairwise_reverse.mpr best.order).orderedInsert item)
  have same := ((List.reverse_perm _).trans (List.perm_orderedInsert (fun item other =>
    rank item ≤ rank other) item entries.reverse)).trans ((List.reverse_perm entries).cons item)
  refine ⟨?_, whole.sublist (List.take_sublist _ _), ?_, fun limit => ?_⟩
  · rw [insertBest, List.length_take, same.length_eq, List.length_cons, best.length]
    omega
  · intro other member
    rcases List.mem_cons.mp (same.subset (List.mem_of_mem_take member)) with rfl | old
    · exact List.mem_append_right _ (List.mem_singleton.mpr rfl)
    · exact List.mem_append_left _ (best.known old)
  · rw [insertBest, countP_take whole, same.countP_eq, List.countP_cons, best.reached,
      List.countP_append, List.countP_singleton]
    split <;> omega

theorem Best.congr (best : Best rank size offered entries)
    (same : ∀ item ∈ offered, rank item = rank' item) : Best rank' size offered entries := by
  refine ⟨best.length, best.order.imp_of_mem fun {first second} one two least => ?_, best.known,
    fun limit => ?_⟩
  · rw [← same first (best.known one), ← same second (best.known two)]
    exact least
  · have counts : ∀ items ⊆ offered, items.countP (fun item => limit ≤ rank' item) =
        items.countP fun item => limit ≤ rank item := by
      intro items part
      exact List.countP_congr fun item member => by rw [same item (part member)]
    rw [counts entries best.known, counts offered (List.Subset.refl _), best.reached]

theorem Best.absorb {other : List Item} (best : Best rank size (offered ++ chosen) entries)
    (part : Best rank size other chosen) : Best rank size (offered ++ other) entries := by
  refine ⟨best.length, best.order, fun item member => ?_, fun limit => ?_⟩
  · rcases List.mem_append.mp (best.known member) with first | second
    · exact List.mem_append_left _ first
    · exact List.mem_append_right _ (part.known second)
  · rw [best.reached, List.countP_append, List.countP_append, part.reached]
    omega

theorem Best.first (best : Best rank (size + 1) offered (item :: entries)) :
    ∀ other ∈ offered, rank other ≤ rank item := by
  intro other member
  have some : 0 < (item :: entries).countP fun entry => rank other ≤ rank entry := by
    rw [best.reached]
    have known : 0 < offered.countP fun entry => rank other ≤ rank entry :=
      List.countP_pos_iff.mpr ⟨other, member, decide_eq_true le_rfl⟩
    omega
  obtain ⟨entry, inside, reach⟩ := List.countP_pos_iff.mp some
  have reach : rank other ≤ rank entry := of_decide_eq_true reach
  rcases List.mem_cons.mp inside with rfl | rest
  · exact reach
  · exact reach.trans ((List.pairwise_cons.mp best.order).1 entry rest)

end Podium
