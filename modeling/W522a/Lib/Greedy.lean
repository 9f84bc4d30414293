import Mathlib.Data.List.Basic

/-!
Greedy prefixes: what a loop takes that goes through a list as long as each next item is admitted
after the ones before it.
-/

namespace Greedy

universe u

variable {Item : Type u} {admits : List Item → Item → Prop} {items taken rest : List Item}

def Admitted (admits : List Item → Item → Prop) (items : List Item) : Prop :=
  ∀ before item after, items = before ++ item :: after → admits before item

structure Taken (admits : List Item → Item → Prop) (items taken rest : List Item) : Prop where
  split : items = taken ++ rest
  admitted : Admitted admits taken
  stopped : ∀ item after, rest = item :: after → ¬ admits taken item

theorem admitted_nil : Admitted admits ([] : List Item) := by
  intro before item after split
  simp at split

theorem Admitted.concat {item : Item} (admitted : Admitted admits items)
    (next : admits items item) : Admitted admits (items ++ [item]) := by
  intro before other after split
  rcases List.eq_nil_or_concat after with rfl | ⟨front, last, rfl⟩
  · obtain ⟨rfl, same⟩ := List.append_inj' split rfl
    cases same
    exact next
  · have regrouped : items ++ [item] = (before ++ other :: front) ++ [last] := by
      simpa using split
    obtain ⟨same, -⟩ := List.append_inj' regrouped rfl
    exact admitted before other front same

private theorem Admitted.initial {second : List Item}
    (admitted : Admitted admits (items ++ second)) :
    Admitted admits items := by
  intro before item after split
  exact admitted before item (after ++ second) (by simp [split])

theorem Taken.includes (greedy : Taken admits items taken rest) {first second : List Item}
    (split : items = first ++ second) (admitted : Admitted admits first) : first <+: taken := by
  have shorter : first <+: items := ⟨second, split.symm⟩
  have own : taken <+: items := ⟨rest, greedy.split.symm⟩
  rcases List.prefix_or_prefix_of_prefix shorter own with inside | ⟨more, longer⟩
  · exact inside
  · cases more with
    | nil => simp [← longer]
    | cons item others =>
      have next : admits taken item := admitted taken item others longer.symm
      have remaining : rest = item :: (others ++ second) := by
        have both : taken ++ rest = taken ++ (item :: (others ++ second)) := by
          rw [← greedy.split, split, ← longer]
          simp
        exact List.append_cancel_left both
      exact absurd next (greedy.stopped item (others ++ second) remaining)

theorem Taken.admitted_upto (greedy : Taken admits items taken rest) {before after : List Item}
    {item : Item} (found : taken = before ++ item :: after) :
    Admitted admits (before ++ [item]) := by
  have whole := greedy.admitted
  rw [found] at whole
  have regrouped : Admitted admits ((before ++ [item]) ++ after) := by simpa using whole
  exact regrouped.initial

end Greedy
