import W522a.Crypto.Michael

/-!
When the software Michael code of a frame is the Michael function of its addresses, its priority and
its payload: every split of the payload that leaves no word in three buffers and the last part of a
word in one, and every header but that of a quality-of-service frame with four addresses.
-/

namespace W522a.Crypto

open Michael (State step words mic)

/-! ### The words of a buffer -/

section Words

variable {lr : State} {data : Nat → UInt8} {count extra offset space dataLen : Nat}

theorem takeWord_eq (lr : State) (word : UInt32) : takeWord lr word = step lr word := rfl

private theorem toNat_or_shift {low high bits : Nat} (small : low < 2 ^ bits) :
    low ||| high <<< bits = low + 2 ^ bits * high := by
  rw [Nat.shiftLeft_eq, Nat.mul_comm high, Nat.or_comm, ← Nat.two_pow_add_eq_or_of_lt small,
    Nat.add_comm]

theorem getLe32Split_eq (b0 b1 b2 b3 : UInt8) :
    getLe32Split b0 b1 b2 b3 = Michael.word b0 b1 b2 b3 := by
  have b0_lt := b0.toNat_lt
  have b1_lt := b1.toNat_lt
  have b2_lt := b2.toNat_lt
  have b3_lt := b3.toNat_lt
  apply UInt32.toNat_inj.mp
  rw [Michael.toNat_word]
  simp only [getLe32Split, UInt32.toNat_or, UInt32.toNat_shiftLeft, UInt8.toNat_toUInt32,
    UInt32.reduceToNat, Nat.reduceMod, Bytes.little]
  have second : b1.toNat <<< 8 % 2 ^ 32 = b1.toNat <<< 8 := by
    rw [Nat.shiftLeft_eq]
    exact Nat.mod_eq_of_lt (by omega)
  have third : b2.toNat <<< 16 % 2 ^ 32 = b2.toNat <<< 16 := by
    rw [Nat.shiftLeft_eq]
    exact Nat.mod_eq_of_lt (by omega)
  have fourth : b3.toNat <<< 24 % 2 ^ 32 = b3.toNat <<< 24 := by
    rw [Nat.shiftLeft_eq]
    exact Nat.mod_eq_of_lt (by omega)
  have two : b0.toNat + 2 ^ 8 * b1.toNat < 2 ^ 16 := by omega
  have three : b0.toNat + 2 ^ 8 * b1.toNat + 2 ^ 16 * b2.toNat < 2 ^ 24 := by omega
  rw [second, third, fourth, toNat_or_shift b0_lt, toNat_or_shift two, toNat_or_shift three]
  omega

theorem field_zero : field data offset 0 = [] := rfl

private theorem field_succ :
    field data offset (count + 1) = data offset :: field data (offset + 1) count := by
  simp only [field, List.range_succ_eq_map, List.map_cons, List.map_map, Nat.add_zero]
  congr 1
  apply List.map_congr_left
  intro index _
  rw [Function.comp_apply, Nat.add_right_comm, Nat.add_assoc]

theorem length_field : (field data offset count).length = count := by
  simp [field]

theorem field_add : field data offset (count + extra) =
    field data offset count ++ field data (offset + count) extra := by
  induction count generalizing offset with
  | zero => rw [field_zero, List.nil_append, Nat.zero_add, Nat.add_zero]
  | succ count induction =>
    rw [Nat.add_right_comm, field_succ, field_succ, induction, List.cons_append,
      Nat.add_right_comm offset 1, Nat.add_assoc offset count 1]

theorem field_advance :
    field (advance extra data) offset count = field data (extra + offset) count := by
  apply List.map_congr_left
  intro index _
  rw [advance, Nat.add_assoc]

theorem advance_advance : advance extra (advance offset data) = advance (offset + extra) data := by
  funext index
  simp only [advance, Nat.add_assoc]

theorem words_field : words (field data 0 (count + 4)) =
    getLe32 data :: words (field (advance 4 data) 0 count) := by
  rw [field_advance, Nat.add_comm count, field_add]
  have four : field data 0 4 = [data 0, data 1, data 2, data 3] := rfl
  rw [four, getLe32, getLe32Split_eq]
  rfl

theorem wordLoop_eq : wordLoop space lr data dataLen =
    ⟨(words (field data 0 (4 * (space / 4)))).foldl step lr, advance (4 * (space / 4)) data,
      space % 4, dataLen - 4 * (space / 4)⟩ := by
  fun_induction wordLoop space lr data dataLen with
  | case1 space lr data dataLen induction =>
    have turns : 4 * ((space + 4) / 4) = 4 * (space / 4) + 4 := by omega
    change _ = MicReader.mk ((words (field data 0 (4 * ((space + 4) / 4)))).foldl step lr) _
      ((space + 4) % 4) (dataLen - 4 * ((space + 4) / 4))
    rw [induction, turns, words_field, List.foldl_cons, takeWord_eq, advance_advance,
      Nat.add_comm 4, Nat.add_mod_right, Nat.add_comm _ 4, ← Nat.sub_sub]
  | case2 space lr data dataLen short =>
    have small : space < 4 := by
      by_contra large
      exact short (space - 4) (by omega)
    have none : 4 * (space / 4) = 0 := by omega
    have pointer : advance 0 data = data := by
      funext index
      rw [advance, Nat.zero_add]
    rw [none, Nat.mod_eq_of_lt small, field_zero, pointer]
    rfl

/-- What follows the loop: the last word and the empty one. -/
def finish (reader : MicReader) : State :=
  let lr := takeWord reader.lr (finalWord reader)
  michaelBlock lr.left lr.right

theorem finish_short (short : count < 4) :
    finish ⟨lr, data, space, count⟩ = mic lr (field data 0 count) := by
  have block : ∀ lr : State, michaelBlock lr.left lr.right = step lr (Michael.word 0 0 0 0) := by
    intro lr
    have zero : Michael.word 0 0 0 0 = 0 := rfl
    rw [zero, ← takeWord_eq, takeWord, UInt32.xor_zero]
  rw [finish, block, takeWord_eq]
  match count, short with
  | 0, _ =>
    have last : finalWord ⟨lr, data, space, 0⟩ = Michael.word 0x5a 0 0 0 := getLe32Split_eq _ _ _ _
    rw [last]
    rfl
  | 1, _ =>
    have last : finalWord ⟨lr, data, space, 1⟩ = Michael.word (data 0) 0x5a 0 0 :=
      getLe32Split_eq _ _ _ _
    rw [last]
    rfl
  | 2, _ =>
    have last : finalWord ⟨lr, data, space, 2⟩ = Michael.word (data 0) (data 1) 0x5a 0 :=
      getLe32Split_eq _ _ _ _
    rw [last]
    rfl
  | 3, _ =>
    have last : finalWord ⟨lr, data, space, 3⟩ = Michael.word (data 0) (data 1) (data 2) 0x5a :=
      getLe32Split_eq _ _ _ _
    rw [last]
    rfl

end Words

/-! ### The split of the payload -/

/-- A buffer of the payload ends at one place of it and the next buffer at another one: the first
ends the payload, or it ends before the last part of a word, and the word that it ends in is
completed by the next buffer. -/
def InTwo (total ending nextEnding : Nat) : Prop :=
  ending = total ∨
    ending < 4 * (total / 4) ∧ (4 ∣ ending ∨ 4 * (ending / 4) + 4 ≤ nextEnding)

/-- A split of the payload in which no word lies in three buffers and the last part of a word lies
in one: where a buffer ends, and the lengths of those after it. -/
def Chained (total : Nat) : Nat → List Nat → Prop
  | _, [] => True
  | ending, length :: rest =>
    InTwo total ending (ending + length) ∧ Chained total (ending + length) rest

instance (total ending nextEnding : Nat) : Decidable (InTwo total ending nextEnding) :=
  inferInstanceAs (Decidable (_ ∨ _ ∧ (_ ∨ _)))

instance decidableChained (total : Nat) :
    (ending : Nat) → (rest : List Nat) → Decidable (Chained total ending rest)
  | _, [] => isTrue trivial
  | ending, length :: rest =>
    have := decidableChained total (ending + length) rest
    inferInstanceAs (Decidable (_ ∧ _))

section Splits

variable {lr : State} {data : Nat → UInt8} {total ending nextEnding whole space : Nat}
  {lengths : List Nat} {skbs : List MicSkb} {before : List UInt8} {byte byte' : UInt8}

private theorem inTwo_shift (words : 4 ∣ whole) :
    InTwo (total + whole) (ending + whole) (nextEnding + whole) ↔
      InTwo total ending nextEnding := by
  unfold InTwo
  omega

theorem chained_shift (words : 4 ∣ whole) :
    Chained (total + whole) (ending + whole) lengths ↔ Chained total ending lengths := by
  induction lengths generalizing ending with
  | nil => exact Iff.rfl
  | cons length rest induction =>
    rw [Chained, Chained, Nat.add_right_comm, inTwo_shift words, induction]

theorem chained_of_empty (empty : lengths.sum = 0) : Chained total total lengths := by
  induction lengths with
  | nil => trivial
  | cons length rest induction =>
    rw [List.sum_cons] at empty
    have zero : length = 0 := by omega
    rw [zero]
    exact ⟨Or.inl rfl, induction (by omega)⟩

def chainData (skbs : List MicSkb) : List UInt8 :=
  skbs.flatMap fun skb => field skb.memory 0 skb.len

private theorem length_chainData : (chainData skbs).length = (skbs.map MicSkb.len).sum := by
  simp only [chainData, List.length_flatMap, length_field]

/-- One turn of the loop that ends it: less than a word is left. -/
theorem michaelLoop_short (short : total - 4 * (space / 4) < 4) (inside : space ≤ total) :
    michaelLoop ⟨lr, data, space, total⟩ skbs =
      ⟨(words (field data 0 (4 * (space / 4)))).foldl step lr, advance (4 * (space / 4)) data,
        space % 4, total - 4 * (space / 4)⟩ := by
  cases skbs with
  | nil =>
    rw [michaelLoop, Nat.min_eq_left inside, wordLoop_eq]
    exact if_pos short
  | cons skb skbs =>
    rw [michaelLoop, Nat.min_eq_left inside, wordLoop_eq]
    exact if_pos short

theorem michaelLoop_cons {skb : MicSkb} (long : 4 ≤ total - 4 * (space / 4))
    (inside : space ≤ total) :
    michaelLoop ⟨lr, data, space, total⟩ (skb :: skbs) =
      (let lr := (words (field data 0 (4 * (space / 4)))).foldl step lr
      let data := advance (4 * (space / 4)) data
      if space % 4 ≠ 0 then
        if skb.len < 4 - space % 4 then ⟨lr, data, space % 4, total - 4 * (space / 4)⟩
        else
          michaelLoop
            ⟨takeWord lr (splitWord (space % 4) data skb.memory),
              advance (4 - space % 4) skb.memory, skb.len - (4 - space % 4),
              total - 4 * (space / 4) - 4⟩ skbs
      else michaelLoop ⟨lr, skb.memory, skb.len, total - 4 * (space / 4)⟩ skbs) := by
  rw [michaelLoop, Nat.min_eq_left inside, wordLoop_eq]
  exact if_neg (Nat.not_lt.mpr long)

theorem field_words (data : Nat → UInt8) (space : Nat) : field data 0 space =
    field data 0 (4 * (space / 4)) ++ field (advance (4 * (space / 4)) data) 0 (space % 4) := by
  rw [field_advance, Nat.add_zero]
  conv => left; rw [← Nat.div_add_mod space 4, field_add, Nat.zero_add]

theorem whole_field : 4 ∣ (field data 0 (4 * (space / 4))).length := ⟨space / 4, length_field⟩

private theorem finish_michaelLoop_last (empty : (skbs.map MicSkb.len).sum = 0) :
    finish (michaelLoop ⟨lr, data, space, space⟩ skbs) =
      mic lr (field data 0 space ++ chainData skbs) := by
  have nothing : chainData skbs = [] := List.eq_nil_of_length_eq_zero (length_chainData.trans empty)
  have left : space - 4 * (space / 4) = space % 4 := by omega
  have short : space - 4 * (space / 4) < 4 := by omega
  rw [michaelLoop_short short (Nat.le_refl space), left, finish_short (by omega), nothing,
    List.append_nil, field_words data space, Michael.mic_append whole_field]

private theorem words_split {rest dataNext : Nat → UInt8} (low : 0 < space) (high : space < 4) :
    words (field rest 0 space ++ field dataNext 0 (4 - space)) =
      [splitWord space rest dataNext] := by
  match space, low, high with
  | 1, _, _ => exact congrArg (fun word => [word]) (getLe32Split_eq _ _ _ _).symm
  | 2, _, _ => exact congrArg (fun word => [word]) (getLe32Split_eq _ _ _ _).symm
  | 3, _, _ => exact congrArg (fun word => [word]) (getLe32Split_eq _ _ _ _).symm

/-- The loop takes the words of the buffers, and the last buffer holds what is left. -/
theorem finish_michaelLoop
    (chained : Chained (space + (skbs.map MicSkb.len).sum) space (skbs.map MicSkb.len)) :
    finish (michaelLoop ⟨lr, data, space, space + (skbs.map MicSkb.len).sum⟩ skbs) =
      mic lr (field data 0 space ++ chainData skbs) := by
  induction skbs generalizing lr data space with
  | nil => exact finish_michaelLoop_last rfl
  | cons skb skbs induction =>
    have sums : ((skb :: skbs).map MicSkb.len).sum = skb.len + (skbs.map MicSkb.len).sum := rfl
    have joined : chainData (skb :: skbs) = field skb.memory 0 skb.len ++ chainData skbs := rfl
    obtain ⟨place, later⟩ := chained
    rw [sums] at place later ⊢
    by_cases long : 4 ≤ space + (skb.len + (skbs.map MicSkb.len).sum) - 4 * (space / 4)
    · rw [michaelLoop_cons long (by omega), joined]
      by_cases aligned : space % 4 = 0
      · -- the buffer ends with a word
        have turns : 4 * (space / 4) = space := by omega
        have left : space + (skb.len + (skbs.map MicSkb.len).sum) - space =
            skb.len + (skbs.map MicSkb.len).sum := by omega
        have whole : 4 ∣ space := ⟨space / 4, turns.symm⟩
        rw [Nat.add_comm space, Nat.add_comm space skb.len, chained_shift whole] at later
        dsimp only
        rw [if_neg (not_not.mpr aligned), turns, left, induction later,
          Michael.mic_append ⟨space / 4, length_field.trans turns.symm⟩]
      · -- a word of the buffer is completed by the next one
        have enough : 4 * (space / 4) + 4 ≤ space + skb.len := by
          unfold InTwo at place
          omega
        have fits : ¬ skb.len < 4 - space % 4 := by omega
        have left : space + (skb.len + (skbs.map MicSkb.len).sum) - 4 * (space / 4) - 4 =
            skb.len - (4 - space % 4) + (skbs.map MicSkb.len).sum := by omega
        have ends : space + skb.len = skb.len - (4 - space % 4) + (4 * (space / 4) + 4) := by omega
        have total : space + (skb.len + (skbs.map MicSkb.len).sum) =
            skb.len - (4 - space % 4) + (skbs.map MicSkb.len).sum + (4 * (space / 4) + 4) := by
          omega
        have whole : 4 ∣ 4 * (space / 4) + 4 := ⟨space / 4 + 1, rfl⟩
        rw [total, ends, chained_shift whole] at later
        dsimp only
        rw [if_pos aligned, if_neg fits, left, induction later]
        have next : field skb.memory 0 skb.len =
            field skb.memory 0 (4 - space % 4) ++
              field (advance (4 - space % 4) skb.memory) 0 (skb.len - (4 - space % 4)) := by
          rw [field_advance, Nat.add_zero]
          conv => left; rw [← Nat.add_sub_of_le (Nat.not_lt.mp fits), field_add, Nat.zero_add]
        have word : 4 ∣ (field (advance (4 * (space / 4)) data) 0 (space % 4) ++
            field skb.memory 0 (4 - space % 4)).length := by
          rw [List.length_append, length_field, length_field]
          omega
        rw [field_words data space, next, List.append_assoc, Michael.mic_append whole_field,
          List.append_assoc, ← List.append_assoc, Michael.mic_append word,
          words_split (by omega) (by omega)]
        rfl
    · -- less than a word is left, and it lies in this buffer
      have empty : skb.len + (skbs.map MicSkb.len).sum = 0 := by
        unfold InTwo at place
        omega
      rw [empty, Nat.add_zero]
      exact finish_michaelLoop_last (sums.trans empty)

/-- A chain of buffers of given lengths that holds a list of bytes. -/
def cut : List Nat → List UInt8 → List MicSkb
  | [], _ => []
  | length :: rest, bytes =>
    ⟨length, fun index => (bytes.take length).getD index 0, 0, false⟩ :: cut rest (bytes.drop length)

theorem map_len_cut {bytes : List UInt8} : (cut lengths bytes).map MicSkb.len = lengths := by
  induction lengths generalizing bytes with
  | nil => rfl
  | cons length rest induction => rw [cut, List.map_cons, induction]

theorem field_getD (bytes : List UInt8) :
    field (fun index => bytes.getD index 0) 0 bytes.length = bytes := by
  induction bytes with
  | nil => rfl
  | cons byte rest induction =>
    rw [List.length_cons, Nat.add_comm, field_add]
    have tail : field (fun index => (byte :: rest).getD index 0) (0 + 1) rest.length =
        field (fun index => rest.getD index 0) 0 rest.length := by
      apply List.map_congr_left
      intro index _
      rw [Nat.zero_add, Nat.zero_add, Nat.add_comm]
      exact List.getD_cons_succ
    rw [tail, induction]
    rfl

theorem chainData_cut {bytes : List UInt8} (held : bytes.length = lengths.sum) :
    chainData (cut lengths bytes) = bytes := by
  induction lengths generalizing bytes with
  | nil => exact (List.eq_nil_of_length_eq_zero held).symm
  | cons length rest induction =>
    rw [List.sum_cons] at held
    have front : (bytes.take length).length = length := by
      rw [List.length_take]
      omega
    have data : field (fun index => (bytes.take length).getD index 0) 0 length =
        bytes.take length := by
      conv => left; right; rw [← front]
      exact field_getD _
    rw [cut, chainData, List.flatMap_cons, ← chainData, induction, data, List.take_append_drop]
    rw [List.length_drop]
    omega

/-- The buffers before the last byte of the payload do not show it. -/
theorem cut_append_of_le {length : Nat} (fits : length ≤ before.length) :
    cut (length :: lengths) (before ++ [byte]) =
      ⟨length, fun index => (before.take length).getD index 0, 0, false⟩ ::
        cut lengths (before.drop length ++ [byte]) := by
  rw [cut, List.take_append_of_le_length fits, List.drop_append_of_le_length fits]

/-- Where a split is not as it should be, the loop never comes to the last byte of the payload. -/
theorem michaelLoop_blind (unchained : ¬ Chained (space + lengths.sum) space lengths)
    (held : before.length + 1 = lengths.sum) :
    michaelLoop ⟨lr, data, space, space + lengths.sum⟩ (cut lengths (before ++ [byte])) =
      michaelLoop ⟨lr, data, space, space + lengths.sum⟩ (cut lengths (before ++ [byte'])) := by
  induction lengths generalizing lr data space before with
  | nil => exact absurd trivial unchained
  | cons length rest induction =>
    rw [List.sum_cons] at held unchained ⊢
    by_cases long : 4 ≤ space + (length + rest.sum) - 4 * (space / 4)
    · -- what the split is not, it is not behind the next buffer, or the next buffer is too short
      have later : InTwo (space + (length + rest.sum)) space (space + length) →
          length ≤ before.length := by
        intro place
        by_contra more
        have empty : rest.sum = 0 := by omega
        have ends : Chained (space + (length + rest.sum)) (space + length) rest := by
          rw [empty, Nat.add_zero]
          exact chained_of_empty empty
        exact unchained ⟨place, ends⟩
      by_cases aligned : space % 4 = 0
      · have whole : 4 ∣ space := Nat.dvd_of_mod_eq_zero aligned
        have place : InTwo (space + (length + rest.sum)) space (space + length) := by
          unfold InTwo
          omega
        have tail : ¬ Chained (length + rest.sum) length rest := by
          intro chained
          have shifted := (chained_shift whole).mpr chained
          rw [Nat.add_comm _ space, Nat.add_comm length space] at shifted
          exact unchained ⟨place, shifted⟩
        have left : space + (length + rest.sum) - 4 * (space / 4) = length + rest.sum := by omega
        have fits := later place
        have shorter : (before.drop length).length + 1 = rest.sum := by
          rw [List.length_drop]
          omega
        rw [cut_append_of_le fits, cut_append_of_le fits, michaelLoop_cons long (by omega),
          michaelLoop_cons long (by omega)]
        dsimp only
        rw [if_neg (not_not.mpr aligned), if_neg (not_not.mpr aligned), left]
        exact induction tail shorter
      · by_cases short : length < 4 - space % 4
        · rw [cut, cut, michaelLoop_cons long (by omega), michaelLoop_cons long (by omega)]
          dsimp only
          rw [if_pos aligned, if_pos short, if_pos aligned, if_pos short]
        · have place : InTwo (space + (length + rest.sum)) space (space + length) := by
            unfold InTwo
            omega
          have whole : 4 ∣ 4 * (space / 4) + 4 := ⟨space / 4 + 1, rfl⟩
          have tail : ¬ Chained (length - (4 - space % 4) + rest.sum) (length - (4 - space % 4))
              rest := by
            intro chained
            have shifted := (chained_shift whole).mpr chained
            have total : length - (4 - space % 4) + rest.sum + (4 * (space / 4) + 4) =
                space + (length + rest.sum) := by omega
            have ends : length - (4 - space % 4) + (4 * (space / 4) + 4) = space + length := by
              omega
            rw [total, ends] at shifted
            exact unchained ⟨place, shifted⟩
          have left : space + (length + rest.sum) - 4 * (space / 4) - 4 =
              length - (4 - space % 4) + rest.sum := by omega
          have fits := later place
          have shorter : (before.drop length).length + 1 = rest.sum := by
            rw [List.length_drop]
            omega
          rw [cut_append_of_le fits, cut_append_of_le fits, michaelLoop_cons long (by omega),
            michaelLoop_cons long (by omega)]
          dsimp only
          rw [if_pos aligned, if_neg short, if_pos aligned, if_neg short, left]
          exact induction tail shorter
    · rw [michaelLoop_short (by omega) (by omega), michaelLoop_short (by omega) (by omega)]

end Splits

/-! ### The code of a frame -/

/-- The destination address of a data frame, by its two direction bits. -/
def destination (wh : Nat → UInt8) : List UInt8 :=
  if wh 1 &&& 1 ≠ 0 then field wh 16 6 else field wh 4 6

/-- The source address of a data frame, by its two direction bits. -/
def source (wh : Nat → UInt8) : List UInt8 :=
  if wh 1 &&& 2 = 0 then field wh 10 6
  else if wh 1 &&& 1 = 0 then field wh 16 6
  else field wh 24 6

/-- The priority of a data frame: the identifier in its quality-of-service field, which comes
behind the fourth address where there is one. -/
def priority (wh : Nat → UInt8) : UInt8 :=
  if wh 0 &&& wifinetFc0SubtypeQos = 0 then 0
  else if wh 1 &&& wifinetFc1DirMask = wifinetFc1DirMask then wh 30 &&& wifinetQosTid
  else wh 24 &&& wifinetQosTid

def pseudoHeader (wh : Nat → UInt8) : List UInt8 :=
  destination wh ++ source wh ++ [priority wh, 0, 0, 0]

/-- The form of a data frame in a chain of buffers: the frame control field, how much of the payload
lies in the first buffer behind the header, and the lengths of the other buffers. -/
structure MicShape where
  wifimac : MicMac
  fc0 : UInt8
  fc1 : UInt8
  first : Nat
  later : List Nat
  isData : fc0 &&& wifinetFc0TypeMask = wifinetFc0TypeData
  first_lt : wifiMacHdrspace wifimac fc0 fc1 + first < 2 ^ 32

namespace MicShape

variable (shape : MicShape)

def off : Nat := wifiMacHdrspace shape.wifimac shape.fc0 shape.fc1

structure Fits (frame : MicFrame) : Prop where
  fc0 : frame.first.memory 0 = shape.fc0
  fc1 : frame.first.memory 1 = shape.fc1
  first : frame.first.len = shape.off + shape.first
  next : frame.next.map MicSkb.len = shape.later

def payload (frame : MicFrame) : List UInt8 :=
  field frame.first.memory shape.off shape.first ++ chainData frame.next

/-- For every key and every frame of this form the code computed is the Michael function of the
pseudo header and the payload. -/
def ComputesMichael : Prop :=
  ∀ (key : Nat → UInt8) (frame : MicFrame), shape.Fits frame →
    michaelMic key frame shape.off (frame.pktlen - shape.off) =
      (mic ⟨Michael.word (key 0) (key 1) (key 2) (key 3),
        Michael.word (key 4) (key 5) (key 6) (key 7)⟩
        (pseudoHeader frame.first.memory ++ shape.payload frame)).bytes

/-- With the software code forced on both sides, a frame of this form is accepted just when it is
what `tkip_enmic` makes of a frame under the same key, and that frame is given back. -/
def RoundTrips : Prop :=
  ∀ (sent received : MicKey) (frame : MicFrame), shape.Fits frame →
    sent.wkCipher = some wifiMacCipherTkip → received.wkCipher = some wifiMacCipherTkip →
    received.wkSwmic = true → (∀ index < 8, sent.wkTxmic index = received.wkRxmic index) →
      ((tkipDemic received frame shape.off true).value = 1 ↔
        ∃ original, tkipEnmic shape.wifimac sent original true = (1, frame)) ∧
      ∀ original, tkipEnmic shape.wifimac sent original true = (1, frame) →
        (tkipDemic received frame shape.off true).frame = original

def FourAddressQos : Prop :=
  shape.fc1 &&& wifinetFc1DirMask = wifinetFc1DirMask ∧ shape.fc0 &&& wifinetFc0SubtypeQos ≠ 0

/-- No word of the payload lies in three buffers, and the last part of a word lies in one. -/
def WellSplit : Prop :=
  Chained (shape.first + shape.later.sum) shape.first shape.later

end MicShape

section Frames

variable {shape : MicShape} {frame : MicFrame} {key : Nat → UInt8} {lr : State}
  {header message : List UInt8}

private theorem foldl_header (long : header.length = 16) :
    (words header).foldl step lr =
      (let hdr := fun index => header.getD index 0
      takeWord (takeWord (takeWord (takeWord lr (getLe32 hdr)) (getLe32 (advance 4 hdr)))
        (getLe32 (advance 8 hdr))) (getLe32 (advance 12 hdr))) := by
  have bytes := field_getD header
  rw [long] at bytes
  rw [← bytes, words_field, words_field, words_field, words_field, advance_advance,
    advance_advance, advance_advance, bytes]
  rfl

theorem length_michaelMicHdr (wh : Nat → UInt8) : (michaelMicHdr wh).length = 16 := by
  unfold michaelMicHdr
  split
  · rfl
  · split
    · rfl
    · split <;> rfl

private theorem whole_header {wh : Nat → UInt8} : 4 ∣ (michaelMicHdr wh).length :=
  ⟨4, length_michaelMicHdr wh⟩

/-- What the code computes, in the form of its loop. -/
theorem michaelMic_loop (fits : shape.Fits frame) :
    michaelMic key frame shape.off (frame.pktlen - shape.off) =
      (finish (michaelLoop
        ⟨(words (michaelMicHdr frame.first.memory)).foldl step
            ⟨Michael.word (key 0) (key 1) (key 2) (key 3),
              Michael.word (key 4) (key 5) (key 6) (key 7)⟩,
          advance shape.off frame.first.memory, shape.first, shape.first + shape.later.sum⟩
        frame.next)).bytes := by
  have start : (frame.first.len + 2 ^ 32 - shape.off) % 2 ^ 32 = shape.first := by
    have bound : shape.off + shape.first < 2 ^ 32 := shape.first_lt
    rw [fits.first]
    omega
  have total : frame.pktlen - shape.off = shape.first + shape.later.sum := by
    rw [MicFrame.pktlen, fits.first, fits.next]
    omega
  have halves : (⟨getLe32 key, getLe32 (advance 4 key)⟩ : State) =
      ⟨Michael.word (key 0) (key 1) (key 2) (key 3),
        Michael.word (key 4) (key 5) (key 6) (key 7)⟩ := by
    rw [getLe32, getLe32, getLe32Split_eq, getLe32Split_eq]
    rfl
  rw [foldl_header (length_michaelMicHdr frame.first.memory), ← halves, total, michaelMic, start]
  rfl

/-- The code of a frame that is split as it should be, with the header that the code reads. -/
theorem michaelMic_eq (fits : shape.Fits frame) (wellSplit : shape.WellSplit) :
    michaelMic key frame shape.off (frame.pktlen - shape.off) =
      (mic ⟨Michael.word (key 0) (key 1) (key 2) (key 3),
        Michael.word (key 4) (key 5) (key 6) (key 7)⟩
        (michaelMicHdr frame.first.memory ++ shape.payload frame)).bytes := by
  have chained := wellSplit
  rw [MicShape.WellSplit, ← fits.next] at chained
  rw [michaelMic_loop fits, ← fits.next, finish_michaelLoop chained,
    Michael.mic_append whole_header, MicShape.payload, field_advance, Nat.add_zero]

private theorem direction_cases (fc1 : UInt8) :
    fc1 &&& wifinetFc1DirMask = 0 ∨ fc1 &&& wifinetFc1DirMask = 1 ∨
      fc1 &&& wifinetFc1DirMask = 2 ∨ fc1 &&& wifinetFc1DirMask = 3 := by
  have bound : (fc1 &&& wifinetFc1DirMask).toNat < 2 ^ 2 := by
    rw [UInt8.toNat_and]
    exact Nat.and_lt_two_pow _ (by decide)
  simp only [← UInt8.toNat_inj]
  change _ = 0 ∨ _ = 1 ∨ _ = 2 ∨ _ = 3
  omega

private theorem addresses_eq (wh : Nat → UInt8) :
    (michaelMicHdr wh).take 12 = destination wh ++ source wh := by
  have low : wh 1 &&& 1 = wh 1 &&& wifinetFc1DirMask &&& 1 :=
    (UInt8.and_assoc (wh 1) wifinetFc1DirMask 1).symm
  have high : wh 1 &&& 2 = wh 1 &&& wifinetFc1DirMask &&& 2 :=
    (UInt8.and_assoc (wh 1) wifinetFc1DirMask 2).symm
  rw [michaelMicHdr, destination, source, low, high]
  obtain same | same | same | same := direction_cases (wh 1) <;> rw [same] <;> rfl

theorem michaelMicHdr_parts (wh : Nat → UInt8) : michaelMicHdr wh = destination wh ++ source wh ++
    [if wh 0 &&& wifinetFc0SubtypeQos ≠ 0 then wh 24 &&& wifinetQosTid else 0, 0, 0, 0] := by
  rw [← addresses_eq]
  have long := length_michaelMicHdr wh
  rw [michaelMicHdr, List.length_append] at long
  have twelve : _ = 12 := Nat.add_right_cancel long
  rw [michaelMicHdr, List.take_left' twelve]

/-- The header that the code reads is the pseudo header but for a quality-of-service frame with four
addresses. -/
theorem michaelMicHdr_eq (fits : shape.Fits frame) (other : ¬ shape.FourAddressQos) :
    michaelMicHdr frame.first.memory = pseudoHeader frame.first.memory := by
  rw [MicShape.FourAddressQos, ← fits.fc0, ← fits.fc1] at other
  rw [michaelMicHdr_parts, pseudoHeader, priority]
  by_cases qos : frame.first.memory 0 &&& wifinetFc0SubtypeQos = 0
  · rw [if_neg (not_not.mpr qos), if_pos qos]
  · have three := fun four => other ⟨four, qos⟩
    rw [if_pos qos, if_neg qos, if_neg three]

end Frames

/-! ### Which forms of frames get the right code -/

section Forms

variable {shape : MicShape} {frame : MicFrame}

/-- A frame of a form with chosen bytes: the byte where the code looks for the priority, and the
data of the later buffers. -/
def MicShape.sample (shape : MicShape) (tid : UInt8) (bytes : List UInt8) : MicFrame :=
  { first :=
      { len := shape.off + shape.first
        memory := fun index =>
          if index = 0 then shape.fc0 else if index = 1 then shape.fc1
          else if index = 24 then tid else 0
        tailroom := 0
        mTkipmichw := false }
    next := cut shape.later bytes }

theorem sample_fits (shape : MicShape) (tid : UInt8) (bytes : List UInt8) :
    shape.Fits (shape.sample tid bytes) :=
  ⟨rfl, rfl, rfl, map_len_cut⟩

theorem wellSplit_of_computes (computes : shape.ComputesMichael) : shape.WellSplit := by
  by_contra unsplit
  have some : 0 < shape.later.sum := by
    by_contra none
    apply unsplit
    rw [MicShape.WellSplit, Nat.eq_zero_of_not_pos none, Nat.add_zero]
    exact chained_of_empty (Nat.eq_zero_of_not_pos none)
  have held : (List.replicate (shape.later.sum - 1) (0 : UInt8)).length + 1 = shape.later.sum := by
    rw [List.length_replicate]
    omega
  generalize List.replicate (shape.later.sum - 1) (0 : UInt8) = before at held
  have code : ∀ byte : UInt8, finish (michaelLoop
      ⟨(words (michaelMicHdr (shape.sample 0 []).first.memory)).foldl step
          ⟨Michael.word 0 0 0 0, Michael.word 0 0 0 0⟩,
        advance shape.off (shape.sample 0 []).first.memory, shape.first,
        shape.first + shape.later.sum⟩ (cut shape.later (before ++ [byte]))) =
      mic ⟨Michael.word 0 0 0 0, Michael.word 0 0 0 0⟩
        (pseudoHeader (shape.sample 0 []).first.memory ++
          (field (shape.sample 0 []).first.memory shape.off shape.first ++ (before ++ [byte]))) := by
    intro byte
    have fits := sample_fits shape 0 (before ++ [byte])
    have right := computes (fun _ => 0) (shape.sample 0 (before ++ [byte])) fits
    have data : chainData (shape.sample 0 (before ++ [byte])).next = before ++ [byte] := by
      apply chainData_cut
      rw [List.length_append]
      exact held
    rw [michaelMic_loop fits, MicShape.payload, data] at right
    exact Michael.bytes_injective right
  have differ := code 0
  rw [michaelLoop_blind unsplit held, code 1] at differ
  simp only [← List.append_assoc] at differ
  exact Michael.mic_ne (by decide) differ

/-- A form that gets the right code is not that of a quality-of-service frame with four
addresses. -/
theorem not_fourAddressQos_of_computes (computes : shape.ComputesMichael) :
    ¬ shape.FourAddressQos := by
  intro ⟨four, qos⟩
  have fits := sample_fits shape 1 (List.replicate shape.later.sum 0)
  have right := computes (fun _ => 0) _ fits
  rw [michaelMic_eq fits (wellSplit_of_computes computes), michaelMicHdr_parts, pseudoHeader,
    priority, fits.fc0, fits.fc1, if_pos qos, if_neg qos, if_pos four] at right
  have same := Michael.bytes_injective right
  simp only [List.append_assoc, List.cons_append] at same
  rw [← List.append_assoc, ← List.append_assoc] at same
  have apart : (1 : UInt8) &&& wifinetQosTid ≠ 0 &&& wifinetQosTid := by decide
  exact Michael.mic_ne apart same

private theorem put_nil (skb : MicSkb) : skb.put [] = skb := by
  have memory : (skb.put []).memory = skb.memory := by
    funext index
    have outside : ¬ (skb.len ≤ index ∧ index < skb.len + ([] : List UInt8).length) := by
      rw [List.length_nil]
      omega
    exact if_neg outside
  rw [MicSkb.put] at memory ⊢
  dsimp only at memory
  rw [memory]
  rfl

private theorem trim_len (skb : MicSkb) :
    skb.trim (skb.len - 0) = skb := if_neg (Nat.lt_irrefl skb.len)

theorem changeLast_of_same {change : MicSkb → MicSkb} (same : ∀ skb, change skb = skb) :
    frame.changeLast change = frame := by
  rw [MicFrame.changeLast]
  split
  · rw [same]
  next last found =>
    rw [same, List.dropLast_append_getLast? last found]

private theorem tkipEnmic_tkip {wifimac : MicMac} {key : MicKey}
    (cipher : key.wkCipher = some wifiMacCipherTkip) :
    tkipEnmic wifimac key frame true = (1, frame) := by
  have named : wifiMacCipherTkip ≠ wifiMacCipherNone := by decide
  have room : ¬ frame.last.tailroom < wifiMacCipherTkip.wmMiclen := Nat.not_lt_zero _
  have software : ¬ (wifimac.tkipmic = true ∧ (!true) = true) := fun hardware => by
    cases hardware.2
  rw [tkipEnmic, if_pos (Or.inl rfl), cipher]
  dsimp only
  rw [if_neg named, if_neg room, if_neg software, changeLast_of_same]
  intro skb
  exact put_nil skb

private theorem tkipDemic_tkip {key : MicKey} {hdrlen : Nat} (swmic : key.wkSwmic = true)
    (cipher : key.wkCipher = some wifiMacCipherTkip) :
    tkipDemic key frame hdrlen true = ⟨1, false, frame⟩ := by
  have named : wifiMacCipherTkip ≠ wifiMacCipherNone := by decide
  rw [tkipDemic, if_pos ⟨swmic, rfl⟩, cipher]
  dsimp only
  have same : ∀ mic : List UInt8, ¬ mic.take wifiMacCipherTkip.wmMiclen ≠
      field frame.last.memory (frame.last.len - wifiMacCipherTkip.wmMiclen)
        wifiMacCipherTkip.wmMiclen := fun mic differ => differ rfl
  rw [if_neg named, if_neg (same _), changeLast_of_same]
  intro skb
  exact trim_len skb

private theorem roundTrips (shape : MicShape) : shape.RoundTrips := by
  intro sent received frame _ sender receiver swmic _
  rw [tkipDemic_tkip swmic receiver]
  constructor
  · exact iff_of_true rfl ⟨frame, tkipEnmic_tkip sender⟩
  · intro original made
    rw [tkipEnmic_tkip sender] at made
    exact (congrArg Prod.snd made).symm

/-- The software code of the frames of a form is the Michael function, and they come through the two
sides, just when the payload is split as it should be and the header is not that of a
quality-of-service frame with four addresses. -/
theorem michaelMic_iff (shape : MicShape) :
    shape.ComputesMichael ∧ shape.RoundTrips ↔ shape.WellSplit ∧ ¬ shape.FourAddressQos := by
  constructor
  · intro ⟨computes, _⟩
    exact ⟨wellSplit_of_computes computes, not_fourAddressQos_of_computes computes⟩
  · intro ⟨wellSplit, other⟩
    refine ⟨?_, roundTrips shape⟩
    intro key frame fits
    rw [michaelMic_eq fits wellSplit, michaelMicHdr_eq fits other]

/-- The form of a quality-of-service frame with four addresses whose payload is four bytes in one
buffer. -/
def fourAddressShape : MicShape :=
  { wifimac := ⟨false, false⟩
    fc0 := 0x88
    fc1 := 0x03
    first := 4
    later := []
    isData := rfl
    first_lt := by decide }

/-- The form of a frame with three addresses whose payload of four bytes lies in buffers of one,
two and one byte. -/
def threeBufferShape : MicShape :=
  { wifimac := ⟨false, false⟩
    fc0 := 0x08
    fc1 := 0x01
    first := 1
    later := [2, 1]
    isData := rfl
    first_lt := by decide }

/-- A quality-of-service frame with four addresses gets the code of another priority, and of a
payload whose word lies in three buffers the last byte is left out. -/
theorem michaelMic_reads_other_bytes :
    ¬ fourAddressShape.ComputesMichael ∧ ¬ threeBufferShape.ComputesMichael := by
  constructor
  · intro computes
    exact not_fourAddressQos_of_computes computes ⟨rfl, by decide⟩
  · intro computes
    have split : ¬ Chained 4 1 [2, 1] := by decide
    exact split (wellSplit_of_computes computes)

end Forms

end W522a.Crypto
