import W522a.Mac.Fragment
import Mathlib.Data.List.ModifyLast
import Mathlib.Data.Nat.Bitwise
import Mathlib.Tactic.Linarith

/-!
The fragments that `wifi_mac_encap` makes of a frame, written out: their headers, their numbers and
their payloads.
-/

namespace W522a.Mac

open Bytes (slice write little)

section Flags

variable (fc : UInt8)

theorem moreFrag_testBit : fc.toNat / 4 % 2 = (fc.toNat.testBit 2).toNat := by
  rw [Nat.testBit_eq_decide_div_mod_eq]
  rcases Nat.mod_two_eq_zero_or_one (fc.toNat / 4) with even | odd
  · simp [even]
  · simp [odd]

theorem setMoreFrag_bit : (setMoreFrag fc).toNat / 4 % 2 = 1 := by
  rw [moreFrag_testBit, setMoreFrag, UInt8.toNat_or, Nat.testBit_or]
  simp [Nat.testBit]

theorem clearMoreFrag_bit : (clearMoreFrag fc).toNat / 4 % 2 = 0 := by
  rw [moreFrag_testBit, clearMoreFrag, UInt8.toNat_and, Nat.testBit_and]
  simp [Nat.testBit]

theorem setWep_bit : (setWep fc).toNat / 4 % 2 = fc.toNat / 4 % 2 := by
  rw [moreFrag_testBit, moreFrag_testBit, setWep, UInt8.toNat_or, Nat.testBit_or]
  simp [Nat.testBit]

theorem clearWep_bit : (clearWep fc).toNat / 4 % 2 = fc.toNat / 4 % 2 := by
  rw [moreFrag_testBit, moreFrag_testBit, clearWep, UInt8.toNat_and, Nat.testBit_and]
  simp [Nat.testBit]

end Flags

theorem or_low {seq low : Nat} (small : low < 16) : seq * 16 ||| low = seq * 16 + low := by
  rw [Nat.mul_comm, ← Nat.two_pow_add_eq_or_of_lt (i := 4) small]

namespace TxHeader

variable (header : TxHeader)

@[simp] theorem updateFc1_length (change : UInt8 → UInt8) :
    (header.updateFc1 change).bytes.length = header.bytes.length := List.length_modify ..

@[simp] theorem setSeq_length (seq : Nat) :
    (header.setSeq seq).bytes.length = header.bytes.length := by
  have long := header.long
  simp only [wifiFrameLen] at long
  exact Bytes.length_write (by simp only [List.length_cons, List.length_nil]; omega)

@[simp] theorem updateFc1_fc1 (change : UInt8 → UInt8) :
    (header.updateFc1 change).fc1 = change header.fc1 := by
  have long := header.long
  simp only [wifiFrameLen] at long
  have inside : 1 < header.bytes.length := by omega
  simp [fc1, macByte, updateFc1, inside]

@[simp] theorem setSeq_fc1 (seq : Nat) : (header.setSeq seq).fc1 = header.fc1 := by
  have long := header.long
  simp only [wifiFrameLen] at long
  have inside : 1 < (header.bytes.take 22).length := by
    rw [List.length_take]
    omega
  simp only [fc1, macByte, setSeq, write, List.append_assoc]
  rw [List.getD_eq_getElem?_getD, List.getElem?_append_left inside,
    List.getElem?_take_of_lt (by omega), List.getD_eq_getElem?_getD]

theorem updateFc1_slice (change : UInt8 → UInt8) {start count : Nat} (after : 2 ≤ start) :
    slice (header.updateFc1 change).bytes start count = slice header.bytes start count := by
  exact congrArg (List.take count)
    (List.drop_modify_of_lt change 1 start header.bytes (by omega))

theorem setSeq_slice (seq : Nat) {start count : Nat} (before : start + count ≤ 22) :
    slice (header.setSeq seq).bytes start count = slice header.bytes start count := by
  have long := header.long
  simp only [wifiFrameLen] at long
  exact Bytes.slice_write_before (by omega) before

@[simp] theorem updateFc1_iSeq (change : UInt8 → UInt8) :
    (header.updateFc1 change).iSeq = header.iSeq := by
  rw [iSeq, updateFc1_slice header change (by omega), iSeq]

theorem setSeq_iSeq {seq : Nat} (small : seq < 65536) : (header.setSeq seq).iSeq = seq := by
  have long := header.long
  simp only [wifiFrameLen] at long
  have same : slice (header.setSeq seq).bytes 22 2 = [UInt8.ofNat seq, UInt8.ofNat (seq / 256)] :=
    Bytes.slice_write_same (by omega)
  rw [iSeq, same]
  simp only [little, UInt8.toNat_ofNat']
  omega

end TxHeader

def fragmentHeader (wh : TxHeader) (number : Nat) : TxHeader :=
  if number = 0 then wh else wh.setSeq (wh.iSeq ||| (number &&& 15))

def fragmentRange (wh : TxHeader) (body : List UInt8) (size first count : Nat) : List Mpdu :=
  (List.range' first count).map fun number =>
    ⟨fragmentHeader wh number, slice body (number * size) size⟩

/-- The loop fills the fragments behind the first, as long as the body reaches to the last one. -/
theorem fragmentLoop_eq (wh : TxHeader) (body : List UInt8) {size : Nat} (positive : 0 < size)
    (turns : Nat) {fragnum : Nat} (later : fragnum ≠ 0)
    (reaches : (fragnum + turns) * size ≤ body.length + size) :
    fragmentLoop wh body size turns fragnum ((fragnum * size : Nat) : Int)
        ((body.length : Int) - (fragnum * size : Nat)) =
      some (fragmentRange wh body size fragnum turns) := by
  induction turns generalizing fragnum with
  | zero => rfl
  | succ turns induction =>
    have next : ((fragnum + 1) * size : Nat) = fragnum * size + size := Nat.succ_mul _ _
    have bound : fragnum * size ≤ body.length := by
      have grown : (fragnum + 1) * size ≤ (fragnum + (turns + 1)) * size :=
        Nat.mul_le_mul_right size (by omega)
      omega
    have reached : ((fragnum + 1) + turns) * size ≤ body.length + size := by
      rw [Nat.add_assoc, Nat.add_comm 1]
      exact reaches
    have rest := induction (Nat.succ_ne_zero fragnum) reached
    have offset : ((fragnum * size : Nat) : Int) + size = ((fragnum + 1) * size : Nat) := by
      rw [next]
      rfl
    have left : (body.length : Int) - (fragnum * size : Nat) - size =
        body.length - ((fragnum + 1) * size : Nat) := by
      rw [← offset]
      omega
    have payload : slice body (fragnum * size)
        (if (size : Int) ≤ body.length - (fragnum * size : Nat) then (size : Int)
          else body.length - (fragnum * size : Nat)).toNat = slice body (fragnum * size) size := by
      split
      · rfl
      · exact Bytes.slice_past (by omega) (by omega)
    have header : fragmentHeader wh fragnum = wh.setSeq (wh.iSeq ||| (fragnum &&& 15)) :=
      if_neg later
    have filled : ¬ (if (size : Int) ≤ body.length - (fragnum * size : Nat) then (size : Int)
        else body.length - (fragnum * size : Nat)) < 0 := by
      split <;> omega
    unfold fragmentLoop
    dsimp only
    rw [if_neg filled, offset, left, rest, Int.toNat_natCast, payload, ← header]
    rfl

private theorem endFragments_concat (frames : List Mpdu) (last : Mpdu) :
    endFragments (frames ++ [last]) =
      frames ++ [{ last with header := last.header.updateFc1 clearMoreFrag }] :=
  List.modifyLast_concat ..

private theorem fragmentRange_concat (wh : TxHeader) (body : List UInt8) (size first count : Nat) :
    fragmentRange wh body size first (count + 1) =
      fragmentRange wh body size first count ++
        [⟨fragmentHeader wh (first + count), slice body ((first + count) * size) size⟩] := by
  rw [fragmentRange, List.range'_concat, List.map_append, Nat.one_mul]
  rfl

theorem fragmentRange_first (wh : TxHeader) (body : List UInt8) (size count : Nat) :
    fragmentRange wh body size 0 (count + 1) =
      ⟨wh, body.take size⟩ :: fragmentRange wh body size 1 count := by
  have payload : slice body (0 * size) size = body.take size := by
    rw [Nat.zero_mul, slice, List.drop_zero]
  rw [fragmentRange, List.range'_succ, List.map_cons, payload]
  rfl

/-- The fragments of a frame, of which there are two more than `count`. -/
def fragmentsOf (wh : TxHeader) (body : List UInt8) (size count : Nat) : List Mpdu :=
  fragmentRange wh body size 0 (count + 1) ++
    [⟨(fragmentHeader wh (count + 1)).updateFc1 clearMoreFrag,
      slice body ((count + 1) * size) size⟩]

def sharedHeader (env : EncapEnv) (txseq : Nat) (header : TxHeader) : TxHeader :=
  ((if env.key.isSome ∧ env.protect then header.updateFc1 setWep else header).setSeq 0
    |>.updateFc1 setMoreFrag).setSeq (txseq * 16 % 65536)

theorem splitFrame_eq (env : EncapEnv) {size : Nat} (positive : 0 < size) (count txseq : Nat)
    (frame : Mpdu) (reaches : (count + 1) * size ≤ frame.payload.length) :
    splitFrame env ((count + 2 : Nat) : Int) size txseq frame =
      .frames (fragmentsOf (sharedHeader env txseq frame.header) frame.payload size count) := by
  have several : (1 : Int) < ((count + 2 : Nat) : Int) := by omega
  have turns : (((count + 2 : Nat) : Int) - 1).toNat = count + 1 := by omega
  have looped := fragmentLoop_eq (sharedHeader env txseq frame.header) frame.payload positive
    (count + 1) Nat.one_ne_zero (by
      rw [Nat.add_comm 1, Nat.succ_mul (count + 1)]
      exact Nat.add_le_add_right reaches size)
  rw [Nat.one_mul] at looped
  unfold splitFrame
  simp only [several, ↓reduceIte, turns]
  unfold sharedHeader at looped
  rw [looped]
  dsimp only
  rw [fragmentRange_concat, endFragments_concat, fragmentsOf, fragmentRange_first,
    Nat.add_comm 1 count, Int.toNat_natCast]
  rfl

/-- A body that ends before the last fragment makes the driver fault. -/
theorem fragmentLoop_fault (wh : TxHeader) (body : List UInt8) {size : Nat} (positive : 0 < size)
    (turns fragnum : Nat) {offset datalen : Int} (some_ : turns ≠ 0)
    (beyond : datalen < (turns - 1) * size) :
    fragmentLoop wh body size turns fragnum offset datalen = none := by
  induction turns generalizing fragnum offset datalen with
  | zero => exact absurd rfl some_
  | succ turns induction =>
    unfold fragmentLoop
    dsimp only
    by_cases past : (if (size : Int) ≤ datalen then (size : Int) else datalen) < 0
    · rw [if_pos past]
    · rw [if_neg past]
      cases turns with
      | zero =>
        have negative : datalen < 0 := by simpa using beyond
        rw [if_neg (by omega)] at past
        exact absurd negative past
      | succ turns =>
        have less : datalen - size < ((turns + 1 : Nat) - 1) * (size : Int) := by
          push_cast at beyond ⊢
          linarith
        rw [induction (fragnum + 1) (Nat.succ_ne_zero turns) less]
        rfl

theorem splitFrame_fault (env : EncapEnv) {size : Nat} (positive : 0 < size) (count txseq : Nat)
    (frame : Mpdu) (beyond : frame.payload.length < (count + 1) * size) :
    splitFrame env ((count + 2 : Nat) : Int) size txseq frame = .fault := by
  have several : (1 : Int) < ((count + 2 : Nat) : Int) := by omega
  have turns : (((count + 2 : Nat) : Int) - 1).toNat = count + 1 := by omega
  have behind : (frame.payload.length : Int) - size < ((count + 1 : Nat) - 1) * (size : Int) := by
    have past := Int.ofNat_lt.mpr beyond
    push_cast at past ⊢
    linarith
  unfold splitFrame
  simp only [several, ↓reduceIte, turns]
  rw [fragmentLoop_fault _ frame.payload positive (count + 1) 1 (Nat.succ_ne_zero count) behind]

end W522a.Mac
