import Mathlib.Order.Basic
import Mathlib.Data.List.Basic

/-!
Lists that ascend strictly between two bounds, and the logs they are appended to.
-/

namespace Machine

universe u

/-- The values ascend strictly, from `low` on and below `high`. -/
structure Ascending {Value : Type u} [Preorder Value] (low high : Value)
    (values : List Value) : Prop where
  sorted : values.Pairwise (· < ·)
  bounded : ∀ value, value ∈ values → low ≤ value ∧ value < high

namespace Ascending

variable {Value : Type u} [Preorder Value] {low middle high : Value} {first second : List Value}

theorem nil : Ascending low high ([] : List Value) := ⟨List.Pairwise.nil, by simp⟩

theorem singleton {value : Value} (above : low ≤ value) (below : value < high) :
    Ascending low high [value] :=
  ⟨List.pairwise_singleton _ _, by simpa using ⟨above, below⟩⟩

theorem append (ascending : Ascending low middle first)
    (continued : Ascending middle high second) (lower : low ≤ middle) (upper : middle ≤ high) :
    Ascending low high (first ++ second) := by
  refine ⟨List.pairwise_append.mpr ⟨ascending.sorted, continued.sorted, ?_⟩, ?_⟩
  · intro left leftMember right rightMember
    have below := (ascending.bounded left leftMember).2
    exact lt_of_lt_of_le below (continued.bounded right rightMember).1
  · intro value member
    rcases List.mem_append.mp member with old | new
    · have bounds := ascending.bounded value old
      exact ⟨bounds.1, lt_of_lt_of_le bounds.2 upper⟩
    · have bounds := continued.bounded value new
      exact ⟨le_trans lower bounds.1, bounds.2⟩

end Ascending

/-- One stamped value comes before another: in an earlier epoch, or in the same one and below. -/
def Earlier {Value : Type u} [LT Value] (left right : Nat × Value) : Prop :=
  left.1 < right.1 ∨ left.1 = right.1 ∧ left.2 < right.2

/-- A log of stamped values in order, with every value of the current epoch below `bound`. -/
structure Chronicle {Value : Type u} [Preorder Value] (epoch : Nat) (bound : Value)
    (log : List (Nat × Value)) : Prop where
  ordered : log.Pairwise Earlier
  past : ∀ entry, entry ∈ log → entry.1 < epoch ∨ entry.1 = epoch ∧ entry.2 < bound

namespace Chronicle

variable {Value : Type u} [Preorder Value] {epoch : Nat} {low high bound : Value}
  {log : List (Nat × Value)} {values : List Value}

theorem nil : Chronicle epoch bound ([] : List (Nat × Value)) :=
  ⟨List.Pairwise.nil, by simp⟩

theorem nextEpoch (chronicle : Chronicle epoch bound log) (fresh : Value) :
    Chronicle (epoch + 1) fresh log := by
  refine ⟨chronicle.ordered, ?_⟩
  intro entry member
  left
  rcases chronicle.past entry member with before | ⟨same, -⟩ <;> omega

theorem extend (chronicle : Chronicle epoch low log) (ascending : Ascending low high values)
    (ordered : low ≤ high) :
    Chronicle epoch high (log ++ values.map fun value => (epoch, value)) := by
  constructor
  · refine List.pairwise_append.mpr ⟨chronicle.ordered, ?_, ?_⟩
    · rw [List.pairwise_map]
      exact ascending.sorted.imp fun below => Or.inr ⟨rfl, below⟩
    · intro old oldMember new newMember
      obtain ⟨value, member, rfl⟩ := List.mem_map.mp newMember
      rcases chronicle.past old oldMember with before | ⟨same, below⟩
      · exact Or.inl before
      · exact Or.inr ⟨same, lt_of_lt_of_le below (ascending.bounded value member).1⟩
  · intro entry member
    rcases List.mem_append.mp member with old | new
    · rcases chronicle.past entry old with before | ⟨same, below⟩
      · exact Or.inl before
      · exact Or.inr ⟨same, lt_of_lt_of_le below ordered⟩
    · obtain ⟨value, found, rfl⟩ := List.mem_map.mp new
      exact Or.inr ⟨rfl, (ascending.bounded value found).2⟩

end Chronicle

end Machine
