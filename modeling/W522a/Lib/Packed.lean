import Mathlib.Order.Nat
import Mathlib.Data.Nat.Count
import Mathlib.Tactic.Ring

/-!
Small numbers packed into a word, the first of them into the lowest bits, and how many of the
indices with a property come first.
-/

namespace Packed

def unpack (base : Nat) : Nat → Nat → List Nat
  | 0, _ => []
  | count + 1, word => word % base :: unpack base count (word / base)

def lane (base word index : Nat) : Nat := word / base ^ index % base

def pack (base : Nat) (numbers : List Nat) : Nat :=
  numbers.foldr (fun number word => number + base * word) 0

variable {base word index count : Nat} {numbers : List Nat}

@[simp] theorem length_unpack : (unpack base count word).length = count := by
  induction count generalizing word with
  | zero => rfl
  | succ count ih => rw [unpack, List.length_cons, ih]

theorem lane_succ : lane base word (index + 1) = lane base (word / base) index := by
  rw [lane, lane, Nat.pow_succ', Nat.div_div_eq_div_mul]

theorem getD_unpack (inside : index < count) :
    (unpack base count word).getD index 0 = lane base word index := by
  induction count generalizing word index with
  | zero => exact absurd inside (Nat.not_lt_zero _)
  | succ count ih =>
    cases index with
    | zero => rw [unpack, List.getD_cons_zero, lane, Nat.pow_zero, Nat.div_one]
    | succ index =>
      rw [unpack, List.getD_cons_succ, ih (Nat.lt_of_succ_lt_succ inside), lane_succ]

theorem unpack_pack (small : ∀ number ∈ numbers, number < base) :
    unpack base numbers.length (pack base numbers) = numbers := by
  induction numbers with
  | nil => rfl
  | cons number numbers ih =>
    have first := small number List.mem_cons_self
    have rest := ih (fun other found => small other (List.mem_cons_of_mem _ found))
    show (number + base * pack base numbers) % base ::
      unpack base numbers.length ((number + base * pack base numbers) / base) = _
    rw [Nat.add_mul_mod_self_left, Nat.mod_eq_of_lt first,
      Nat.add_mul_div_left _ _ (Nat.zero_lt_of_lt first), Nat.div_eq_of_lt first, Nat.zero_add,
      rest]

theorem pack_lt (small : ∀ number ∈ numbers, number < base) :
    pack base numbers < base ^ numbers.length := by
  induction numbers with
  | nil => exact Nat.one_pos
  | cons number numbers ih =>
    have first := small number List.mem_cons_self
    have rest := ih (fun other found => small other (List.mem_cons_of_mem _ found))
    have product := Nat.mul_le_mul_left base (Nat.succ_le_of_lt rest)
    show number + base * pack base numbers < base ^ (numbers.length + 1)
    rw [Nat.pow_succ']
    rw [Nat.mul_succ] at product
    omega

section Counts

variable {p : Nat → Prop} [DecidablePred p] {bound total : Nat}

theorem countP_unpack {ok : Nat → Prop} [DecidablePred ok] :
    (unpack base count word).countP (fun number => ok number) =
      Nat.count (fun index => ok (lane base word index)) count := by
  induction count generalizing word with
  | zero => rfl
  | succ count ih =>
    rw [unpack, List.countP_cons, ih, Nat.count_succ']
    simp only [lane_succ, decide_eq_true_eq]
    congr 1
    rw [lane, Nat.pow_zero, Nat.div_one]

theorem le_count (leading : ∀ index < bound, p index) (inside : bound ≤ total) :
    bound ≤ Nat.count p total := by
  calc bound = Nat.count p bound := (Nat.count_of_forall leading).symm
    _ ≤ Nat.count p total := Nat.count_monotone p inside

theorem not_of_count (leading : ∀ index < bound, p index) (all : Nat.count p total = bound)
    (inside : index < total) (behind : bound ≤ index) : ¬ p index := by
  have whole : total = bound + (total - bound) := by omega
  have run : Nat.count p bound = bound := Nat.count_of_forall leading
  rw [whole, Nat.count_add, run] at all
  have none : Nat.count (fun rest => p (bound + rest)) (total - bound) = 0 := by omega
  have absent := Nat.count_iff_forall_not.mp none (index - bound) (by omega)
  rwa [Nat.add_sub_of_le behind] at absent

end Counts

end Packed
