import Mathlib.Data.Finset.Card
import Mathlib.Data.Finset.Range
import Mathlib.Data.Nat.Bitwise

/-!
Bitmaps kept in words of a fixed width: testing, setting and clearing a bit, and the number of bits
that are set.
-/

namespace Bitmap

def isset (width : Nat) (words : List Nat) (index : Nat) : Bool :=
  (words.getD (index / width) 0).testBit (index % width)

def setbit (width : Nat) (words : List Nat) (index : Nat) : List Nat :=
  words.modify (index / width) (· ||| 2 ^ (index % width))

def clrbit (width : Nat) (words : List Nat) (index : Nat) : List Nat :=
  words.modify (index / width) (· &&& (2 ^ width - (2 ^ (index % width) + 1)))

variable {width index other : Nat} {words : List Nat}

@[simp] theorem length_setbit : (setbit width words index).length = words.length :=
  List.length_modify _ _ _

@[simp] theorem length_clrbit : (clrbit width words index).length = words.length :=
  List.length_modify _ _ _

theorem isset_past (past : words.length ≤ index / width) : isset width words index = false := by
  rw [isset, List.getD_eq_getElem?_getD, List.getElem?_eq_none past, Option.getD_none,
    Nat.zero_testBit]

theorem inside_of_isset (set : isset width words index = true) :
    index / width < words.length := by
  by_contra past
  rw [isset_past (Nat.le_of_not_lt past)] at set
  cases set

private theorem word_modify (change : Nat → Nat) (place : Nat) :
    (words.modify index change).getD place 0 =
      if place = index ∧ place < words.length then change (words.getD place 0)
      else words.getD place 0 := by
  rw [List.getD_eq_getElem?_getD, List.getElem?_modify, List.getD_eq_getElem?_getD]
  by_cases inside : place < words.length
  · by_cases same : place = index
    · rw [if_pos ⟨same, inside⟩, List.getElem?_eq_getElem inside]
      simp [same]
    · rw [if_neg fun both => same both.1, List.getElem?_eq_getElem inside]
      simp [Ne.symm same]
  · rw [if_neg fun both => inside both.2, List.getElem?_eq_none (Nat.le_of_not_lt inside)]
    simp

private theorem same_index (word : other / width = index / width)
    (bit : other % width = index % width) : other = index := by
  rw [← Nat.div_add_mod other width, ← Nat.div_add_mod index width, word, bit]

theorem isset_setbit (inside : index / width < words.length) :
    isset width (setbit width words index) other =
      (decide (other = index) || isset width words other) := by
  rw [isset, setbit, word_modify]
  by_cases word : other / width = index / width
  · rw [if_pos ⟨word, word ▸ inside⟩, Nat.testBit_or, Nat.testBit_two_pow, isset, Bool.or_comm]
    congr 1
    rw [decide_eq_decide]
    constructor
    · intro bit
      exact same_index word bit.symm
    · rintro rfl
      rfl
  · have apart : other ≠ index := fun same => word (same ▸ rfl)
    rw [if_neg fun both => word both.1, decide_eq_false apart, Bool.false_or, isset]

theorem isset_clrbit (positive : 0 < width) :
    isset width (clrbit width words index) other =
      (decide (other ≠ index) && isset width words other) := by
  rw [isset, clrbit, word_modify]
  have below : index % width < width := Nat.mod_lt index positive
  have otherBelow : other % width < width := Nat.mod_lt other positive
  by_cases word : other / width = index / width ∧ other / width < words.length
  · rw [if_pos word, Nat.testBit_and,
      Nat.testBit_two_pow_sub_succ (Nat.pow_lt_pow_right (by decide) below), Nat.testBit_two_pow,
      decide_eq_true otherBelow, Bool.true_and, isset, Bool.and_comm]
    congr 1
    rw [← decide_not, decide_eq_decide]
    refine not_congr ⟨fun bit => same_index word.1 bit.symm, ?_⟩
    rintro rfl
    rfl
  · rw [if_neg word]
    by_cases same : other = index
    · have past : words.length ≤ other / width := by
        by_contra inside
        exact word ⟨by rw [same], Nat.lt_of_not_le inside⟩
      have clear := isset_past past
      rw [isset] at clear
      rw [clear, isset, clear, Bool.and_false]
    · rw [decide_eq_true same, Bool.true_and, isset]

def card (width : Nat) (words : List Nat) : Nat :=
  ((Finset.range (width * words.length)).filter (isset width words · = true)).card

theorem index_lt (positive : 0 < width) (inside : index / width < words.length) :
    index < width * words.length := by
  rw [Nat.mul_comm]
  exact (Nat.div_lt_iff_lt_mul positive).mp inside

theorem card_setbit (positive : 0 < width) (inside : index / width < words.length)
    (clear : isset width words index = false) :
    card width (setbit width words index) = card width words + 1 := by
  have bits : (Finset.range (width * (setbit width words index).length)).filter
      (isset width (setbit width words index) · = true) =
      insert index ((Finset.range (width * words.length)).filter
        (isset width words · = true)) := by
    ext other
    simp only [Finset.mem_filter, Finset.mem_range, length_setbit, Finset.mem_insert,
      isset_setbit inside, Bool.or_eq_true, decide_eq_true_eq]
    constructor
    · rintro ⟨bound, same | set⟩
      · exact Or.inl same
      · exact Or.inr ⟨bound, set⟩
    · rintro (rfl | ⟨bound, set⟩)
      · exact ⟨index_lt positive inside, Or.inl rfl⟩
      · exact ⟨bound, Or.inr set⟩
  rw [card, bits, Finset.card_insert_of_notMem, card]
  intro member
  have set := (Finset.mem_filter.mp member).2
  rw [clear] at set
  cases set

theorem card_clrbit (positive : 0 < width) (set : isset width words index = true) :
    card width (clrbit width words index) + 1 = card width words := by
  have member : index ∈ (Finset.range (width * words.length)).filter
      (isset width words · = true) :=
    Finset.mem_filter.mpr
      ⟨Finset.mem_range.mpr (index_lt positive (inside_of_isset set)), set⟩
  have bits : (Finset.range (width * (clrbit width words index).length)).filter
      (isset width (clrbit width words index) · = true) =
      ((Finset.range (width * words.length)).filter (isset width words · = true)).erase
        index := by
    ext other
    simp only [Finset.mem_filter, Finset.mem_range, length_clrbit, Finset.mem_erase,
      isset_clrbit positive, Bool.and_eq_true, decide_eq_true_eq]
    exact and_left_comm
  rw [card, bits, Finset.card_erase_add_one member, card]

theorem card_eq_zero_iff (positive : 0 < width) :
    card width words = 0 ↔ ∀ index, isset width words index = false := by
  rw [card, Finset.card_eq_zero, Finset.filter_eq_empty_iff]
  constructor
  · intro clear index
    by_contra set
    have found : isset width words index = true := by simpa using set
    exact clear (Finset.mem_range.mpr (index_lt positive (inside_of_isset found))) found
  · intro clear index _
    rw [clear index]
    exact Bool.false_ne_true

def Fits (width : Nat) (words : List Nat) : Prop := ∀ word ∈ words, word < 2 ^ width

private theorem Fits.getD (fits : Fits width words) (place : Nat) :
    words.getD place 0 < 2 ^ width := by
  by_cases inside : place < words.length
  · rw [List.getD_eq_getElem?_getD, List.getElem?_eq_getElem inside, Option.getD_some]
    exact fits _ (List.getElem_mem inside)
  · rw [List.getD_eq_getElem?_getD, List.getElem?_eq_none (Nat.le_of_not_lt inside),
      Option.getD_none]
    exact Nat.two_pow_pos width

theorem Fits.exists_bit (fits : Fits width words) {place : Nat}
    (nonzero : words.getD place 0 ≠ 0) :
    ∃ bit, bit < width ∧ (words.getD place 0).testBit bit = true := by
  obtain ⟨bit, set⟩ := Nat.exists_testBit_of_ne_zero nonzero
  refine ⟨bit, ?_, set⟩
  by_contra high
  have clear := Nat.testBit_lt_two_pow (Nat.lt_of_lt_of_le (fits.getD place)
    (Nat.pow_le_pow_right (by decide) (Nat.le_of_not_lt high)))
  rw [clear] at set
  cases set

theorem isset_word (bound : other < width) :
    isset width words (width * index + other) = (words.getD index 0).testBit other := by
  rw [isset, Nat.mul_add_div (Nat.zero_lt_of_lt bound), Nat.div_eq_of_lt bound, Nat.add_zero,
    Nat.mul_add_mod, Nat.mod_eq_of_lt bound]

theorem mem_modify {change : Nat → Nat} {word : Nat}
    (member : word ∈ words.modify index change) :
    word ∈ words ∨ ∃ old ∈ words, word = change old := by
  obtain ⟨place, inside, rfl⟩ := List.mem_iff_getElem.mp member
  rw [List.length_modify] at inside
  rw [List.getElem_modify]
  split
  · exact Or.inr ⟨_, List.getElem_mem inside, rfl⟩
  · exact Or.inl (List.getElem_mem inside)

theorem Fits.setbit (fits : Fits width words) (positive : 0 < width) (index : Nat) :
    Fits width (setbit width words index) := by
  intro word member
  rcases mem_modify member with old | ⟨old, found, rfl⟩
  · exact fits word old
  · exact Nat.or_lt_two_pow (fits old found)
      (Nat.pow_lt_pow_right (by decide) (Nat.mod_lt index positive))

theorem Fits.clrbit (fits : Fits width words) (index : Nat) :
    Fits width (clrbit width words index) := by
  intro word member
  rcases mem_modify member with old | ⟨old, found, rfl⟩
  · exact fits word old
  · exact Nat.lt_of_le_of_lt Nat.and_le_left (fits old found)

end Bitmap
