import Mathlib.Algebra.GroupWithZero.Nat
import Mathlib.Data.List.Basic

/-!
Ranges of a list that stands for memory: reading a range, writing one, and what a write leaves
alone.
-/

namespace Bytes

universe u

variable {Cell : Type u} {memory first second bytes : List Cell} {start count offset length : Nat}

/-- The cells of a range; a range that runs past the end is cut off there. -/
def slice (memory : List Cell) (start count : Nat) : List Cell := (memory.drop start).take count

def write (memory : List Cell) (start : Nat) (bytes : List Cell) : List Cell :=
  memory.take start ++ bytes ++ memory.drop (start + bytes.length)

@[simp] theorem slice_zero : slice memory start 0 = [] := by simp [slice]

theorem length_slice (inside : start + count ≤ memory.length) :
    (slice memory start count).length = count := by
  simp only [slice, List.length_take, List.length_drop]
  omega

theorem length_write (inside : start + bytes.length ≤ memory.length) :
    (write memory start bytes).length = memory.length := by
  simp only [write, List.length_append, List.length_take, List.length_drop]
  omega

theorem slice_add : slice memory start (count + length) =
    slice memory start count ++ slice memory (start + count) length := by
  rw [slice, List.take_add, List.drop_drop, slice, slice]

theorem take_slice (shorter : length ≤ count) :
    (slice memory start count).take length = slice memory start length := by
  rw [slice, List.take_take, Nat.min_eq_left shorter, slice]

theorem slice_past (past : memory.length ≤ start + count) (more : count ≤ length) :
    slice memory start count = slice memory start length := by
  rw [slice, slice, List.take_of_length_le, List.take_of_length_le]
  · rw [List.length_drop]
    omega
  · rw [List.length_drop]
    omega

theorem slice_append_left (inside : start + count ≤ first.length) :
    slice (first ++ second) start count = slice first start count := by
  rw [slice, slice, List.drop_append_of_le_length (by omega), List.take_append_of_le_length]
  rw [List.length_drop]
  omega

theorem slice_append_right :
    slice (first ++ second) (first.length + start) count = slice second start count := by
  rw [slice, slice, ← List.drop_drop, List.drop_left]

theorem slice_append_at : slice (first ++ second) first.length count = second.take count := by
  rw [slice, List.drop_left]

theorem slice_of_place (place : first.length = start) :
    slice (first ++ second) start count = second.take count := by
  rw [← place]
  exact slice_append_at

theorem take_write (inside : start ≤ memory.length) (before : offset ≤ start) :
    (write memory start bytes).take offset = memory.take offset := by
  rw [write, List.append_assoc, List.take_append_of_le_length]
  · rw [List.take_take, Nat.min_eq_left before]
  · rw [List.length_take]
    omega

theorem slice_of_take (same : first.take offset = second.take offset)
    (before : start + count ≤ offset) : slice first start count = slice second start count := by
  have cut : ∀ memory : List Cell,
      slice memory start count = ((memory.take offset).drop start).take count := by
    intro memory
    rw [slice, List.drop_take, List.take_take, Nat.min_eq_left (by omega)]
  rw [cut first, cut second, same]

theorem slice_write_before (inside : start ≤ memory.length) (before : offset + count ≤ start) :
    slice (write memory start bytes) offset count = slice memory offset count :=
  slice_of_take (take_write inside (Nat.le_refl start)) before

theorem slice_write_same (inside : start ≤ memory.length) :
    slice (write memory start bytes) start bytes.length = bytes := by
  have place : (memory.take start).length = start := by
    rw [List.length_take]
    omega
  rw [write, List.append_assoc, slice]
  nth_rewrite 1 [← place]
  rw [List.drop_left, List.take_left]

theorem drop_write (inside : start + bytes.length ≤ memory.length)
    (after : start + bytes.length ≤ offset) :
    (write memory start bytes).drop offset = memory.drop offset := by
  have place : (memory.take start ++ bytes).length = start + bytes.length := by
    rw [List.length_append, List.length_take]
    omega
  obtain ⟨more, rfl⟩ : ∃ more, offset = start + bytes.length + more :=
    ⟨offset - (start + bytes.length), by omega⟩
  rw [write, ← List.drop_drop, List.drop_left' place, List.drop_drop]

theorem slice_write_after (inside : start + bytes.length ≤ memory.length)
    (after : start + bytes.length ≤ offset) :
    slice (write memory start bytes) offset count = slice memory offset count := by
  rw [slice, drop_write inside after, slice]

theorem write_write {later : List Cell} (same : later.length = bytes.length)
    (inside : start ≤ memory.length) :
    write (write memory start bytes) start later = write memory start later := by
  have place : (memory.take start ++ bytes).length = start + bytes.length := by
    rw [List.length_append, List.length_take]
    omega
  have before : (write memory start bytes).take start = memory.take start :=
    take_write inside (Nat.le_refl start)
  rw [write, before, same, write, List.drop_left' place, write, same]

theorem write_append :
    write (first ++ second) (first.length + start) bytes = first ++ write second start bytes := by
  rw [write, write, List.take_length_add_append, Nat.add_assoc, List.drop_length_add_append]
  simp

theorem write_append_left (inside : start + bytes.length ≤ first.length) :
    write (first ++ second) start bytes = write first start bytes ++ second := by
  rw [write, write, List.take_append_of_le_length (by omega),
    List.drop_append_of_le_length inside, List.append_assoc (first.take start ++ bytes)]

theorem write_end {later : List Cell} (same : later.length = second.length) :
    write (first ++ second) first.length later = first ++ later := by
  rw [write, List.take_left, same, ← List.length_append, List.drop_length, List.append_nil]

theorem slices_join (memory : List Cell) (size first count : Nat) :
    ((List.range' first count).flatMap fun index => slice memory (index * size) size) =
      slice memory (first * size) (count * size) := by
  induction count generalizing first with
  | zero => simp
  | succ count induction =>
    rw [List.range'_succ, List.flatMap_cons, induction, Nat.succ_mul first, Nat.succ_mul count,
      Nat.add_comm (count * size), slice_add]

/-- Memory that is read by places holds bytes from a place on. -/
def Holds (memory : Nat → Cell) : Nat → List Cell → Prop
  | _, [] => True
  | start, byte :: rest => memory start = byte ∧ Holds memory (start + 1) rest

theorem holds_append {memory : Nat → Cell} : Holds memory start (first ++ second) ↔
    Holds memory start first ∧ Holds memory (start + first.length) second := by
  induction first generalizing start with
  | nil => simp [Holds]
  | cons byte rest induction =>
    rw [List.cons_append, Holds, Holds, induction, and_assoc, List.length_cons,
      Nat.add_assoc start 1, Nat.add_comm 1]

theorem holds_getD (fill : Cell) (bytes : List Cell) :
    Holds (fun place => bytes.getD place fill) 0 bytes := by
  have shifted : ∀ (before rest : List Cell),
      Holds (fun place => (before ++ rest).getD place fill) before.length rest := by
    intro before rest
    induction rest generalizing before with
    | nil => exact trivial
    | cons byte rest induction =>
      refine ⟨by simp, ?_⟩
      have later := induction (before ++ [byte])
      rwa [List.append_assoc, List.length_append] at later
  exact shifted [] bytes

/-- The number that bytes stand for, the lowest byte first. -/
def little : List UInt8 → Nat
  | [] => 0
  | byte :: rest => byte.toNat + 256 * little rest

theorem little_append (first second : List UInt8) :
    little (first ++ second) = little first + 256 ^ first.length * little second := by
  induction first with
  | nil => simp [little]
  | cons byte rest induction =>
    simp only [List.cons_append, little, induction, List.length_cons, Nat.pow_succ, Nat.mul_add]
    rw [Nat.mul_comm (256 ^ rest.length) 256, Nat.mul_assoc, Nat.add_assoc]

end Bytes
