import Mathlib.Logic.Function.Iterate

/-!
While loops with a bound on their turns: what a loop computes is its body, iterated as long as
its guard holds.
-/

namespace Machine

/-- Repeat `body` while `guard` holds, at most `fuel` times. -/
def whileDo (guard : State → Bool) (body : State → State) : Nat → State → State
  | 0, state => state
  | fuel + 1, state => if guard state then whileDo guard body fuel (body state) else state

variable {State : Type} {guard : State → Bool} {body : State → State}

/-- A loop is its body iterated, with the guard true before every turn. -/
theorem whileDo_eq_iterate (guard : State → Bool) (body : State → State) (fuel : Nat)
    (state : State) :
    ∃ count, count ≤ fuel ∧ whileDo guard body fuel state = body^[count] state ∧
      (∀ turn, turn < count → guard (body^[turn] state) = true) ∧
      (count < fuel → guard (body^[count] state) = false) := by
  induction fuel generalizing state with
  | zero => exact ⟨0, by simp [whileDo]⟩
  | succ fuel induction =>
    cases turns : guard state with
    | false => exact ⟨0, by simp [whileDo, turns]⟩
    | true =>
      obtain ⟨count, bound, result, guarded, stopped⟩ := induction (body state)
      refine ⟨count + 1, by omega, ?_, ?_, ?_⟩
      · simpa [whileDo, turns] using result
      · intro turn before
        cases turn with
        | zero => exact turns
        | succ turn => exact guarded turn (by omega)
      · intro before
        exact stopped (by omega)

/-- An invariant that the body keeps while the guard holds is kept by the loop. -/
theorem whileDo_invariant {inv : State → Prop}
    (kept : ∀ state, inv state → guard state = true → inv (body state))
    (fuel : Nat) {state : State} (initial : inv state) : inv (whileDo guard body fuel state) := by
  induction fuel generalizing state with
  | zero => exact initial
  | succ fuel induction =>
    rw [whileDo]
    split
    · rename_i turns
      exact induction (kept state initial turns)
    · exact initial

/-- A loop whose body lowers a measure ends with its guard false, given as many turns as the
measure has. -/
theorem whileDo_stops {inv : State → Prop} {measure : State → Nat}
    (kept : ∀ state, inv state → guard state = true → inv (body state))
    (lowered : ∀ state, inv state → guard state = true → measure (body state) < measure state)
    {fuel : Nat} {state : State} (initial : inv state) (enough : measure state ≤ fuel) :
    guard (whileDo guard body fuel state) = false := by
  induction fuel generalizing state with
  | zero =>
    cases turns : guard state with
    | false => simpa [whileDo] using turns
    | true =>
      have less := lowered state initial turns
      omega
  | succ fuel induction =>
    rw [whileDo]
    split
    · rename_i turns
      have less := lowered state initial turns
      exact induction (kept state initial turns) (by omega)
    · rename_i stopped
      simpa using stopped

/-- A search round a ring ends at the first slot that is wanted, if there is one. -/
theorem whileDo_round (wanted : Nat → Bool) {size first slot : Nat} (inside : slot < size)
    (right : wanted slot = true) (before : first < size) :
    ∃ count < size, whileDo (fun slot => !wanted slot) (fun slot => (slot + 1) % size) size first =
        (first + count) % size ∧ wanted ((first + count) % size) = true ∧
      ∀ turn < count, wanted ((first + turn) % size) = false := by
  obtain ⟨count, bound, result, guarded, stopped⟩ := whileDo_eq_iterate (fun slot => !wanted slot)
    (fun slot => (slot + 1) % size) size first
  have reached : ∀ turn, (fun slot => (slot + 1) % size)^[turn] first = (first + turn) % size := by
    intro turn
    induction turn with
    | zero => exact (Nat.mod_eq_of_lt before).symm
    | succ turn induction =>
      rw [Function.iterate_succ_apply', induction, Nat.mod_add_mod, Nat.add_assoc]
  simp only [reached, Bool.not_eq_true', Bool.not_eq_false'] at result guarded stopped
  have less : count < size := by
    refine Nat.lt_of_not_le fun all => ?_
    have turn : (slot + size - first) % size < size := Nat.mod_lt _ (Nat.zero_lt_of_lt inside)
    have missed := guarded _ (Nat.lt_of_lt_of_le turn all)
    rw [Nat.add_mod_mod, Nat.add_sub_cancel' (by omega), Nat.add_mod_right,
      Nat.mod_eq_of_lt inside, right] at missed
    cases missed
  exact ⟨count, less, result, by simpa using stopped less, guarded⟩

end Machine
