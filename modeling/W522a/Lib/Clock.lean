import W522a.Lib.Ring

/-!
A clock kept in a machine word that wraps round. Moments are counted without end; the word shows a
moment modulo its range, and two words are compared by the sign of their difference.
-/

namespace Clock

/-- A clock with `hz` ticks a second, in a word with a range of `2 * half`. The longest interval
of interest, `longest` seconds, is shorter than half the range. -/
structure Ticks (longest : Nat) where
  hz : Nat
  half : Nat
  ticking : 0 < hz
  wide : longest * hz < half

namespace Ticks

variable {longest : Nat} (clock : Ticks longest)

def range : Nat := 2 * clock.half

def word (moment : Nat) : Nat := moment % clock.range

/-- The first of two words comes after the second: `(long)(b - a) < 0`. -/
def after (a b : Nat) : Bool := decide (clock.half ≤ Ring.span clock.range a b)

/-- The first of two words comes before the second. -/
def before (a b : Nat) : Bool := clock.after b a

private theorem half_pos : 0 < clock.half := Nat.zero_lt_of_lt clock.wide

theorem half_lt_range : clock.half < clock.range := by
  have positive := clock.half_pos
  unfold range
  omega

theorem word_lt (moment : Nat) : clock.word moment < clock.range :=
  Nat.mod_lt _ (Nat.zero_lt_of_lt clock.half_lt_range)

variable {clock} {start elapsed gap : Nat}

variable (clock start elapsed gap) in
theorem word_later : clock.word (start + elapsed) =
    Ring.slot clock.range (clock.word start) (clock.word elapsed) :=
  Nat.add_mod start elapsed _

variable (clock start gap) in
theorem word_ahead :
    clock.word (clock.word start + gap) = Ring.slot clock.range (clock.word start) gap := rfl

/-- Whether a word lies after an earlier one moved ahead by `gap` only depends on what passed. -/
theorem after_ahead (inside : gap < clock.half) :
    clock.after (clock.word (start + elapsed)) (clock.word (clock.word start + gap)) = true ↔
      gap < clock.word elapsed ∧ clock.word elapsed ≤ gap + clock.half := by
  have passed := clock.word_lt elapsed
  have fits : gap < clock.range := Nat.lt_trans inside clock.half_lt_range
  rw [after, word_later clock start elapsed, word_ahead clock start gap,
    Ring.span_slot_slot (clock.word_lt start) passed fits, decide_eq_true_iff,
    Ring.span_eq passed fits]
  unfold range at *
  split <;> omega

theorem before_ahead (inside : gap < clock.half) :
    clock.before (clock.word (start + elapsed)) (clock.word (clock.word start + gap)) = true ↔
      clock.word elapsed < gap ∨ gap + clock.half ≤ clock.word elapsed := by
  have passed := clock.word_lt elapsed
  have fits : gap < clock.range := Nat.lt_trans inside clock.half_lt_range
  rw [before, after, word_later clock start elapsed, word_ahead clock start gap,
    Ring.span_slot_slot (clock.word_lt start) fits passed, decide_eq_true_iff,
    Ring.span_eq fits passed]
  unfold range at *
  split <;> omega

end Ticks

end Clock
