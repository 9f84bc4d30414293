import W522a.Lib.Bytes
import Mathlib.Data.UInt

/-!
The Michael function over a message of bytes: the words of the padded message go one by one through
a block that loses nothing, so messages that differ in one byte never have the same code.
-/

namespace Michael

open Bytes (little)

/-- The two halves of the state. -/
structure State where
  left : UInt32
  right : UInt32
  deriving DecidableEq, Repr

def turnLeft (value bits : UInt32) : UInt32 := (value <<< bits) ||| (value >>> (32 - bits))

def turnRight (value bits : UInt32) : UInt32 := (value >>> bits) ||| (value <<< (32 - bits))

def swapBytes (value : UInt32) : UInt32 :=
  ((value &&& 0x00ff00ff) <<< 8) ||| ((value &&& 0xff00ff00) >>> 8)

/-- One round: a change of the right half by the left one, and a sum into the left one. -/
def round (change : UInt32 → UInt32) (state : State) : State :=
  let right := state.right ^^^ change state.left
  ⟨state.left + right, right⟩

def block (state : State) : State :=
  round (turnRight · 2) (round (turnLeft · 3) (round swapBytes (round (turnLeft · 17) state)))

def step (state : State) (word : UInt32) : State :=
  block { state with left := state.left ^^^ word }

def word (first second third fourth : UInt8) : UInt32 :=
  UInt32.ofNat (little [first, second, third, fourth])

def wordBytes (value : UInt32) : List UInt8 :=
  [value.toUInt8, (value >>> 8).toUInt8, (value >>> 16).toUInt8, (value >>> 24).toUInt8]

def State.bytes (state : State) : List UInt8 := wordBytes state.left ++ wordBytes state.right

/-- The words of a list of bytes; what does not fill a word is left out. -/
def words : List UInt8 → List UInt32
  | first :: second :: third :: fourth :: rest => word first second third fourth :: words rest
  | _ => []

/-- The message with its end marked, filled up to whole words of which the last is zero. -/
def pad (message : List UInt8) : List UInt8 :=
  message ++ 0x5a :: List.replicate (7 - message.length % 4) 0

def mic (key : State) (message : List UInt8) : State := (words (pad message)).foldl step key

section Blocks

variable {change : UInt32 → UInt32} {first second : State}

private theorem round_injective : Function.Injective (round change) := by
  intro first second same
  have right : first.right ^^^ change first.left = second.right ^^^ change second.left :=
    congrArg State.right same
  have left : first.left = second.left := by
    have sums : first.left + (first.right ^^^ change first.left) =
        second.left + (second.right ^^^ change second.left) := congrArg State.left same
    rw [right] at sums
    exact (UInt32.add_left_inj _).mp sums
  rw [left] at right
  have halves : first.right = second.right := (UInt32.xor_left_inj _).mp right
  cases first
  cases second
  cases left
  cases halves
  rfl

theorem block_injective : Function.Injective block := by
  have rounds : block = round (turnRight · 2) ∘ round (turnLeft · 3) ∘ round swapBytes ∘
      round (turnLeft · 17) := rfl
  rw [rounds]
  exact round_injective.comp (round_injective.comp (round_injective.comp round_injective))

private theorem step_injective (value : UInt32) : Function.Injective (step · value) := by
  intro first second same
  have mixed : State.mk (first.left ^^^ value) first.right =
      State.mk (second.left ^^^ value) second.right := block_injective same
  have left : first.left = second.left := (UInt32.xor_left_inj _).mp (State.mk.inj mixed).1
  have right : first.right = second.right := (State.mk.inj mixed).2
  cases first
  cases second
  cases left
  cases right
  rfl

private theorem step_word_injective (state : State) : Function.Injective (step state) := by
  intro first second same
  exact (UInt32.xor_right_inj _).mp (congrArg State.left (block_injective same))

/-- One word that differs is never made up for by the same words after it. -/
theorem foldl_step_ne {state : State} {before after : List UInt32} {value value' : UInt32}
    (differ : value ≠ value') :
    (before ++ value :: after).foldl step state ≠ (before ++ value' :: after).foldl step state := by
  rw [List.foldl_append, List.foldl_append, List.foldl_cons, List.foldl_cons]
  have apart : step (before.foldl step state) value ≠ step (before.foldl step state) value' :=
    (step_word_injective _).ne differ
  revert apart
  generalize step (before.foldl step state) value = first
  generalize step (before.foldl step state) value' = second
  induction after generalizing first second with
  | nil => exact fun apart => apart
  | cons value rest induction =>
    intro apart
    exact induction _ _ ((step_injective value).ne apart)

end Blocks

section Words

variable {first second third fourth : UInt8} {before message : List UInt8} {byte byte' : UInt8}

private theorem little_four_lt : little [first, second, third, fourth] < 2 ^ 32 := by
  have first_lt := first.toNat_lt
  have second_lt := second.toNat_lt
  have third_lt := third.toNat_lt
  have fourth_lt := fourth.toNat_lt
  simp only [little]
  omega

theorem toNat_word :
    (word first second third fourth).toNat = little [first, second, third, fourth] := by
  rw [word, UInt32.toNat_ofNat', Nat.mod_eq_of_lt little_four_lt]

/-- The bytes of a word can be read off it. -/
theorem word_inj {first' second' third' fourth' : UInt8}
    (same : word first second third fourth = word first' second' third' fourth') :
    first = first' ∧ second = second' ∧ third = third' ∧ fourth = fourth' := by
  have values := congrArg UInt32.toNat same
  rw [toNat_word, toNat_word] at values
  simp only [little] at values
  have first_lt := first.toNat_lt
  have second_lt := second.toNat_lt
  have third_lt := third.toNat_lt
  have first_lt' := first'.toNat_lt
  have second_lt' := second'.toNat_lt
  have third_lt' := third'.toNat_lt
  refine ⟨UInt8.toNat_inj.mp ?_, UInt8.toNat_inj.mp ?_, UInt8.toNat_inj.mp ?_,
    UInt8.toNat_inj.mp ?_⟩ <;> omega

private theorem little_wordBytes (value : UInt32) : little (wordBytes value) = value.toNat := by
  have bound := value.toNat_lt
  simp only [wordBytes, little, UInt32.toNat_toUInt8, UInt32.toNat_shiftRight, UInt32.reduceToNat,
    Nat.shiftRight_eq_div_pow, Nat.reduceMod, Nat.reducePow]
  omega

private theorem wordBytes_injective : Function.Injective wordBytes := by
  intro first second same
  apply UInt32.toNat_inj.mp
  rw [← little_wordBytes, same, little_wordBytes]

theorem bytes_injective : Function.Injective State.bytes := by
  intro first second same
  obtain ⟨left, right⟩ := List.append_inj same rfl
  cases first
  cases second
  cases wordBytes_injective left
  cases wordBytes_injective right
  rfl

private theorem words_append (whole : 4 ∣ before.length) :
    words (before ++ message) = words before ++ words message := by
  fun_induction words before with
  | case1 first second third fourth rest induction =>
    have rest_whole : 4 ∣ rest.length := by
      simp only [List.length_cons] at whole
      omega
    simp only [List.cons_append, words, induction rest_whole]
  | case2 before short =>
    have empty : before = [] := by
      match before, short, whole with
      | [], _, _ => rfl
      | [_], _, whole => simp at whole
      | [_, _], _, whole => simp at whole
      | [_, _, _], _, whole => simp at whole
      | first :: second :: third :: fourth :: rest, short, _ =>
        exact absurd rfl (short first second third fourth rest)
    rw [empty, List.nil_append, List.nil_append]

private theorem two_of_length {rest : List UInt8} (long : 2 ≤ rest.length) :
    ∃ first second more, rest = first :: second :: more := by
  match rest, long with
  | first :: second :: more, _ => exact ⟨first, second, more, rfl⟩

private theorem three_of_length {rest : List UInt8} (long : 3 ≤ rest.length) :
    ∃ first second third more, rest = first :: second :: third :: more := by
  match rest, long with
  | first :: second :: third :: more, _ => exact ⟨first, second, third, more, rfl⟩

/-- Bytes that fill whole words and differ in one byte have words that differ in one word. -/
theorem words_differ (differ : byte ≠ byte') (whole : 4 ∣ (before ++ byte :: message).length) :
    ∃ front value value' back, value ≠ value' ∧
      words (before ++ byte :: message) = front ++ value :: back ∧
      words (before ++ byte' :: message) = front ++ value' :: back := by
  fun_induction words before with
  | case1 first second third fourth rest induction =>
    have rest_whole : 4 ∣ (rest ++ byte :: message).length := by
      simp only [List.cons_append, List.length_cons] at whole
      omega
    obtain ⟨front, value, value', back, apart, left, right⟩ := induction rest_whole
    refine ⟨word first second third fourth :: front, value, value', back, apart, ?_, ?_⟩
    · simp only [List.cons_append, words, left]
    · simp only [List.cons_append, words, right]
  | case2 before short =>
    -- the byte lies in the first word, at one of its four places
    rw [List.length_append, List.length_cons] at whole
    match before, short with
    | [], _ =>
      have long : 3 ≤ message.length := by
        simp only [List.length_nil] at whole
        omega
      obtain ⟨second, third, fourth, rest, rfl⟩ := three_of_length long
      exact ⟨[], _, _, words rest, fun same => differ (word_inj same).1, rfl, rfl⟩
    | [first], _ =>
      have long : 2 ≤ message.length := by
        simp only [List.length_singleton] at whole
        omega
      obtain ⟨third, fourth, rest, rfl⟩ := two_of_length long
      exact ⟨[], _, _, words rest, fun same => differ (word_inj same).2.1, rfl, rfl⟩
    | [first, second], _ =>
      have long : 0 < message.length := by
        simp only [List.length_cons, List.length_nil] at whole
        omega
      obtain ⟨fourth, rest, rfl⟩ := List.exists_cons_of_length_pos long
      exact ⟨[], _, _, words rest, fun same => differ (word_inj same).2.2.1, rfl, rfl⟩
    | [first, second, third], _ =>
      exact ⟨[], _, _, words message, fun same => differ (word_inj same).2.2.2, rfl, rfl⟩
    | first :: second :: third :: fourth :: rest, short =>
      exact absurd rfl (short first second third fourth rest)

private theorem length_pad : 4 ∣ (pad message).length := by
  simp only [pad, List.length_append, List.length_cons, List.length_replicate]
  omega

end Words

section Codes

variable {key : State} {before message : List UInt8} {byte byte' : UInt8}

theorem mic_append (whole : 4 ∣ before.length) :
    mic key (before ++ message) = mic ((words before).foldl step key) message := by
  have padded : pad (before ++ message) = before ++ pad message := by
    obtain ⟨turns, count⟩ := whole
    have same : (before ++ message).length % 4 = message.length % 4 := by
      rw [List.length_append, count]
      omega
    rw [pad, pad, same, List.append_assoc]
  rw [mic, mic, padded, words_append whole, List.foldl_append]

theorem mic_ne (differ : byte ≠ byte') :
    mic key (before ++ byte :: message) ≠ mic key (before ++ byte' :: message) := by
  have padded : ∀ byte : UInt8, pad (before ++ byte :: message) =
      before ++ byte :: (message ++ 0x5a ::
        List.replicate (7 - (before.length + (message.length + 1)) % 4) 0) := by
    intro byte
    simp only [pad, List.append_assoc, List.cons_append, List.length_append, List.length_cons]
  have whole : 4 ∣ (pad (before ++ byte :: message)).length := length_pad
  rw [padded] at whole
  obtain ⟨front, value, value', back, apart, left, right⟩ := words_differ differ whole
  rw [mic, mic, padded, padded, left, right]
  exact foldl_step_ne apart

end Codes

end Michael
