import Mathlib.Data.List.Induction

/-!
Buffers of elements that each say how long they are: where the elements lie, and what is left of a
loop over them that keeps the last one of a kind.
-/

namespace Tlv

universe u v

/-- The elements from some place on, for so many turns. An element has two bytes of header, and the
whole of it lies before the end of the buffer. -/
def elements (length : Nat → Nat) (stop : Nat) : Nat → Nat → List Nat
  | 0, _ => []
  | turns + 1, place =>
    if place + length place + 1 < stop then
      place :: elements length stop turns (place + length place + 2)
    else []

variable {length : Nat → Nat} {stop turns place elem : Nat}

theorem elements_inside (member : elem ∈ elements length stop turns place) :
    place ≤ elem ∧ elem + length elem + 2 ≤ stop := by
  induction turns generalizing place with
  | zero => cases member
  | succ turns induction =>
    rw [elements] at member
    split at member
    next whole =>
      cases member with
      | head => exact ⟨Nat.le_refl _, whole⟩
      | tail _ later =>
        obtain ⟨after, inside⟩ := induction later
        exact ⟨by omega, inside⟩
    next cut => cases member

def lastWhere (kind : Nat → Bool) (places : List Nat) : Option Nat := (places.filter kind).getLast?

theorem lastWhere_mem {kind : Nat → Bool} {places : List Nat}
    (found : lastWhere kind places = some elem) : elem ∈ places ∧ kind elem = true := by
  have member := List.mem_of_getLast? found
  exact List.mem_filter.mp member

private theorem lastWhere_append (kind : Nat → Bool) (places : List Nat) (elem : Nat) :
    lastWhere kind (places ++ [elem]) =
      if kind elem then some elem else lastWhere kind places := by
  rw [lastWhere, List.filter_append]
  by_cases matched : kind elem = true
  · simp [matched]
  · simp [lastWhere, matched]

/-- What a loop over some places leaves in a field that the places of one kind write. -/
theorem foldl_last {State : Type u} {Value : Type v} {step : State → Nat → State}
    {kind : Nat → Bool} {value : Nat → Value} (field : State → Value)
    (written : ∀ state place,
      field (step state place) = if kind place then value place else field state)
    (places : List Nat) (start : State) :
    field (places.foldl step start) =
      ((lastWhere kind places).map value).getD (field start) := by
  induction places using List.reverseRecOn with
  | nil => rfl
  | append_singleton places elem induction =>
    rw [List.foldl_append, lastWhere_append]
    show field (step (places.foldl step start) elem) = _
    rw [written]
    by_cases matched : kind elem = true
    · simp [matched]
    · simp [matched, induction]

end Tlv
