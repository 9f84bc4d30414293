import W522a.Mac.FragmentLaw

/-!
When a fragmented MSDU makes the round trip. The number of fragments and the size of their payloads
are computed by different formulas: the former subtracts the cipher's header from a frame that does
not hold it, and neither counts the header's padding.
-/

namespace W522a.Mac

open Bytes (slice)

section Count

theorem fragCount_eq {rest size count : Nat} (above : (count + 1) * size < rest)
    (below : rest ≤ (count + 2) * size) : fragCount rest size = (count + 2 : Nat) := by
  have positive : 0 < size := by
    rcases Nat.eq_zero_or_pos size with zero | positive
    · subst zero
      omega
    · exact positive
  have grown : (count + 2) * size = (count + 1) * size + size := Nat.succ_mul _ _
  have whole : fragCount rest size =
      ((rest / size : Nat) : Int) + if rest % size = 0 then 0 else 1 := by
    rw [fragCount, ← Int.ofNat_tdiv, ← Int.ofNat_tmod]
    simp only [Int.natCast_eq_zero]
  rw [whole]
  rcases Nat.eq_or_lt_of_le below with full | short
  · subst full
    rw [Nat.mul_div_cancel _ positive, Nat.mul_mod_left, if_pos rfl]
    rfl
  · have quotient : rest / size = count + 1 :=
      Nat.div_eq_of_lt_le (Nat.le_of_lt above) short
    have split := Nat.div_add_mod rest size
    rw [quotient, Nat.mul_comm] at split
    rw [quotient, if_neg (by omega)]
    rfl

theorem exists_fragCount {rest size : Nat} (positive : 0 < size) (several : size < rest) :
    ∃ count, (count + 1) * size < rest ∧ rest ≤ (count + 2) * size := by
  have atLeast : 1 ≤ (rest - 1) / size := (Nat.one_le_div_iff positive).mpr (by omega)
  refine ⟨(rest - 1) / size - 1, ?_, ?_⟩
  · rw [Nat.sub_add_cancel atLeast]
    have below := Nat.div_mul_le_self (rest - 1) size
    omega
  · have next : (rest - 1) / size - 1 + 2 = (rest - 1) / size + 1 := by omega
    have above := Nat.lt_mul_div_succ (rest - 1) positive
    rw [next, Nat.mul_comm]
    omega

theorem fragCount_negative {rest size : Int} (long : 0 ≤ rest) (negative : size < 0) :
    fragCount rest size ≤ 1 := by
  have quotient : rest.tdiv size ≤ 0 := Int.tdiv_nonpos_of_nonneg_of_nonpos long negative.le
  unfold fragCount
  split <;> omega

end Count

/-- A MSDU for one station, with the threshold and the key that it meets, and the buffers of the
receiving side. -/
structure FragmentCase where
  env : EncapEnv
  txseq : Nat
  skb : EncapSkb
  rx : RxBuffers
  unicast : skb.frame.header.multicast = false
  msdu : env.isAmsdu = false

namespace FragmentCase

variable (input : FragmentCase)

def hdrsize : Nat := input.skb.frame.header.bytes.length

def datalen : Nat := input.skb.frame.payload.length

/-- The headers that `pdusize` leaves room for. -/
def headers : Nat := input.skb.hdrsizeNopad + input.env.ciphdrsize

/-- `pdusize`, where it is positive. -/
def part : Nat := input.env.vmFragthreshold - input.headers

/-- The frames are well formed, and the receiving side gets the MSDU back. -/
def RoundTrip : Prop :=
  ∃ frames, wifiMacEncap input.env input.txseq input.skb = .frames frames ∧
    Fragmented input.env.vmFragthreshold frames ∧
    (reassembled input.rx input.hdrsize frames).map (fun msdu => msdu.data.drop input.hdrsize) =
      [input.skb.frame.payload]

/-- What a frame above the threshold needs: a threshold above the headers, padding that the room for
the cipher's header covers, a last part that the cipher's header does not hide from `fragcnt`, at
most 16 parts, and a buffer for each of them on both sides. -/
structure Fits : Prop where
  cipher : input.env.key ≠ some none
  above : input.headers < input.env.vmFragthreshold
  padded : input.hdrsize ≤ input.headers
  counted : input.headers < (input.datalen - 1) % input.part + 1 + input.hdrsize
  few : input.datalen ≤ 16 * input.part
  allocated : ∀ turn, (turn + 1) * input.part < input.datalen → input.env.allocOk turn = true
  received : ∃ room, input.rx.firstRoom input.hdrsize = some room ∧
    input.hdrsize + (input.datalen - input.part) ≤ room

/-- The header of a frame that is not fragmented. -/
def wholeHeader (env : EncapEnv) (header : TxHeader) : TxHeader :=
  (if env.key.isSome ∧ env.protect then header.updateFc1 setWep else header).setSeq 0

theorem wholeHeader_length (env : EncapEnv) (header : TxHeader) :
    (wholeHeader env header).bytes.length = header.bytes.length := by
  unfold wholeHeader
  rw [TxHeader.setSeq_length]
  split
  · exact header.updateFc1_length setWep
  · rfl

theorem sharedHeader_eq (env : EncapEnv) (txseq : Nat) (header : TxHeader) :
    sharedHeader env txseq header =
      ((wholeHeader env header).updateFc1 setMoreFrag).setSeq (txseq * 16 % 65536) := rfl

theorem sharedHeader_length (env : EncapEnv) (txseq : Nat) (header : TxHeader) :
    (sharedHeader env txseq header).bytes.length = header.bytes.length := by
  rw [sharedHeader_eq, TxHeader.setSeq_length, TxHeader.updateFc1_length, wholeHeader_length]

theorem sharedHeader_iSeq (env : EncapEnv) (txseq : Nat) (header : TxHeader) :
    (sharedHeader env txseq header).iSeq = txseq % 4096 * 16 := by
  rw [sharedHeader_eq, TxHeader.setSeq_iSeq _ (Nat.mod_lt _ (by omega))]
  omega

theorem sharedHeader_moreFrag (env : EncapEnv) (txseq : Nat) (header : TxHeader) :
    (sharedHeader env txseq header).moreFrag = true := by
  rw [sharedHeader_eq, TxHeader.moreFrag, TxHeader.setSeq_fc1, TxHeader.updateFc1_fc1,
    setMoreFrag_bit]
  rfl

private theorem wholeHeader_moreFrag (env : EncapEnv) {header : TxHeader}
    (whole : header.fc1.toNat / 4 % 2 = 0) : (wholeHeader env header).moreFrag = false := by
  unfold wholeHeader TxHeader.moreFrag
  rw [TxHeader.setSeq_fc1]
  split
  · rw [TxHeader.updateFc1_fc1, setWep_bit, whole]
    rfl
  · rw [whole]
    rfl

/-- Without a second fragment the frame is sent as it is. -/
theorem splitFrame_whole (env : EncapEnv) {fragcnt : Int} (pdusize : Int) (txseq : Nat)
    (frame : Mpdu) (single : fragcnt ≤ 1) :
    splitFrame env fragcnt pdusize txseq frame =
      .frames [⟨wholeHeader env frame.header, frame.payload⟩] := by
  unfold splitFrame
  simp only [if_neg (Int.not_lt.mpr single)]
  rfl

variable {input}

theorem roundTrip_short (short : input.skb.frame.pktlen ≤ input.env.vmFragthreshold) :
    input.RoundTrip := by
  have whole := wholeHeader_moreFrag input.env input.skb.whole
  have number : (wholeHeader input.env input.skb.frame.header).iSeq = 0 :=
    TxHeader.setSeq_iSeq _ (by omega)
  have length := wholeHeader_length input.env input.skb.frame.header
  have filled : input.skb.frame.payload ≠ [] := by
    intro empty
    have llc := input.skb.llc
    rw [empty] at llc
    exact absurd llc (by decide)
  refine ⟨[⟨wholeHeader input.env input.skb.frame.header, input.skb.frame.payload⟩], ?_, ?_, ?_⟩
  · unfold wifiMacEncap
    rw [if_neg fun long => Nat.not_lt.mpr short long.1]
    exact splitFrame_whole input.env 0 input.txseq input.skb.frame (le_refl 1)
  · refine ⟨?_, ?_, ?_, ?_, ?_⟩
    · simp only [List.map_cons, List.map_nil, number]
      rfl
    · intro first firstMember second secondMember
      rw [List.mem_singleton.mp firstMember, List.mem_singleton.mp secondMember]
    · simp only [List.map_cons, List.map_nil, whole]
      rfl
    · intro frame member
      rw [List.mem_singleton.mp member, Mpdu.pktlen, length]
      exact short
    · intro frame member
      rw [List.mem_singleton.mp member]
      exact filled
  · have final := (rxSkb_moreFrag input.rx 0
      ⟨wholeHeader input.env input.skb.frame.header, input.skb.frame.payload⟩).trans whole
    have zero := rxSkb_fragno input.rx 0
      ⟨wholeHeader input.env input.skb.frame.header, input.skb.frame.payload⟩
    rw [number] at zero
    have body := rxSkb_body input.rx 0
      ⟨wholeHeader input.env input.skb.frame.header, input.skb.frame.payload⟩ length
    have passed : reassembled input.rx input.hdrsize
        [⟨wholeHeader input.env input.skb.frame.header, input.skb.frame.payload⟩] =
          [rxSkb input.rx 0
            ⟨wholeHeader input.env input.skb.frame.header, input.skb.frame.payload⟩] := by
      simp only [reassembled, passIn, List.zipIdx_cons, List.zipIdx_nil, List.map_cons,
        List.map_nil, Machine.run_cons, Machine.run_nil, defragStep]
      unfold wifiMacDefrag
      rw [if_pos ⟨final, zero, rfl⟩]
      rfl
    rw [passed]
    exact congrArg (fun part => [part]) body

private theorem ciphdrsize_le (env : EncapEnv) : env.ciphdrsize ≤ llcSnapframelen := by
  unfold EncapEnv.ciphdrsize
  split
  · rename_i cip _
    cases cip <;> decide
  · exact Nat.zero_le _

private theorem headers_le (input : FragmentCase) :
    (0 : Int) ≤ input.skb.frame.pktlen - input.headers := by
  have cipher := ciphdrsize_le input.env
  have llc := input.skb.llc
  have sized := input.skb.sized
  have pad : input.skb.hdrsizeNopad ≤ roundup input.skb.hdrsizeNopad 4 := by
    unfold roundup
    omega
  have header : input.skb.hdrsizeNopad ≤ input.skb.frame.header.bytes.length := by
    rw [sized]
    split
    · exact pad
    · exact le_refl _
  unfold headers Mpdu.pktlen
  omega

/-- What `fragcnt` divides: the frame without the headers that a fragment has of its own. -/
def rest (input : FragmentCase) : Nat := input.skb.frame.pktlen - input.headers

section Long

variable (long : input.env.vmFragthreshold < input.skb.frame.pktlen)

include long in
theorem several : input.env.vmFragthreshold < input.skb.frame.pktlen ∧
    !input.skb.frame.header.multicast ∧ !input.env.isAmsdu := by
  rw [input.unicast, input.msdu]
  exact ⟨long, rfl, rfl⟩

include long in
theorem encap_long (cipher : input.env.key ≠ some none)
    (apart : input.env.pdusize input.skb.hdrsizeNopad ≠ 0) :
    wifiMacEncap input.env input.txseq input.skb =
      let pdusize := input.env.pdusize input.skb.hdrsizeNopad
      let fragcnt := fragCount (input.skb.frame.pktlen - input.headers) pdusize
      if fragcnt < 1 ∨ ¬ (List.range (fragcnt - 1).toNat).all input.env.allocOk then .dropped
      else splitFrame input.env fragcnt pdusize input.txseq input.skb.frame := by
  have headers : ((input.headers : Nat) : Int) = input.skb.hdrsizeNopad + input.env.ciphdrsize :=
    rfl
  unfold wifiMacEncap
  rw [if_pos (several long), if_neg cipher, headers]
  exact if_neg apart

include long in
/-- A frame above the threshold is split when the threshold leaves room behind the headers and the
buffers are there. -/
theorem encap_several (cipher : input.env.key ≠ some none)
    (above : input.headers < input.env.vmFragthreshold) {count : Nat}
    (least : (count + 1) * input.part < input.rest) (most : input.rest ≤ (count + 2) * input.part) :
    wifiMacEncap input.env input.txseq input.skb =
      if (List.range (count + 1)).all input.env.allocOk then
        splitFrame input.env ((count + 2 : Nat) : Int) input.part input.txseq input.skb.frame
      else .dropped := by
  have size : input.env.pdusize input.skb.hdrsizeNopad = (input.part : Nat) := by
    rw [part, Int.ofNat_sub above.le]
    rfl
  have remains : (input.skb.frame.pktlen : Int) - input.headers = (input.rest : Nat) := by
    rw [rest, Int.ofNat_sub (above.le.trans long.le)]
  have turns : (((count + 2 : Nat) : Int) - 1).toNat = count + 1 := by omega
  have counted : ¬ ((count + 2 : Nat) : Int) < 1 := by omega
  have apart : input.env.pdusize input.skb.hdrsizeNopad ≠ 0 := by
    rw [size, part]
    omega
  rw [encap_long long cipher apart]
  dsimp only
  rw [size, remains, fragCount_eq least most, turns]
  by_cases enough : (List.range (count + 1)).all input.env.allocOk = true
  · rw [if_pos enough, if_neg]
    rintro (few | none_)
    · exact counted few
    · exact none_ enough
  · rw [if_neg enough, if_pos (.inr enough)]

include long in
theorem above_of_roundTrip (trip : input.RoundTrip) :
    input.env.key ≠ some none ∧ input.headers < input.env.vmFragthreshold := by
  obtain ⟨frames, sent, wellFormed, -⟩ := trip
  have cipher : input.env.key ≠ some none := by
    intro missing
    unfold wifiMacEncap at sent
    rw [if_pos (several long), if_pos missing] at sent
    cases sent
  refine ⟨cipher, ?_⟩
  by_contra within
  have within : (input.env.vmFragthreshold : Int) ≤ input.headers :=
    Int.ofNat_le.mpr (Nat.le_of_not_lt within)
  have size : input.env.pdusize input.skb.hdrsizeNopad =
      input.env.vmFragthreshold - input.headers := rfl
  by_cases zero : input.env.pdusize input.skb.hdrsizeNopad = 0
  · unfold wifiMacEncap at sent
    rw [if_pos (several long), if_neg cipher] at sent
    simp only [zero, ↓reduceIte] at sent
    cases sent
  · have few : fragCount (input.skb.frame.pktlen - input.headers)
        (input.env.pdusize input.skb.hdrsizeNopad) ≤ 1 :=
      fragCount_negative input.headers_le (by omega)
    rw [encap_long long cipher zero] at sent
    dsimp only at sent
    split at sent
    · cases sent
    · rw [splitFrame_whole _ _ _ _ few] at sent
      cases sent
      have bounded := wellFormed.bounded _ List.mem_cons_self
      rw [Mpdu.pktlen, wholeHeader_length] at bounded
      exact absurd bounded (Nat.not_le.mpr long)

/-- The numbers that the fragments of a frame above the threshold have to agree on: what is left of
the body when the last fragment is filled, and the room on both sides. -/
structure Parts (input : FragmentCase) (count : Nat) : Prop where
  allocated : (List.range (count + 1)).all input.env.allocOk = true
  padded : input.hdrsize ≤ input.headers
  reaches : (count + 1) * input.part < input.datalen
  ends_ : input.datalen ≤ (count + 2) * input.part
  few : count + 2 ≤ 16
  received : ∃ room, input.rx.firstRoom input.hdrsize = some room ∧
    input.hdrsize + (input.datalen - input.part) ≤ room

include long in
theorem roundTrip_iff_parts (cipher : input.env.key ≠ some none)
    (above : input.headers < input.env.vmFragthreshold) {count : Nat}
    (least : (count + 1) * input.part < input.rest) (most : input.rest ≤ (count + 2) * input.part) :
    input.RoundTrip ↔ input.Parts count := by
  have positive : 0 < input.part := Nat.sub_pos_of_lt above
  have sent := encap_several long cipher above least most
  have numbered := sharedHeader_iSeq input.env input.txseq input.skb.frame.header
  have small : input.txseq % 4096 < 4096 := Nat.mod_lt _ (by omega)
  have more := sharedHeader_moreFrag input.env input.txseq input.skb.frame.header
  have length := sharedHeader_length input.env input.txseq input.skb.frame.header
  obtain ⟨wh, shared⟩ : ∃ wh, sharedHeader input.env input.txseq input.skb.frame.header = wh :=
    ⟨_, rfl⟩
  constructor
  · rintro ⟨frames, outcome, wellFormed, received⟩
    rw [sent] at outcome
    by_cases enough : (List.range (count + 1)).all input.env.allocOk = true
    · rw [if_pos enough] at outcome
      by_cases reaches : (count + 1) * input.part ≤ input.datalen
      · rw [splitFrame_eq input.env positive count input.txseq input.skb.frame reaches] at outcome
        rw [shared] at outcome numbered more length
        cases outcome
        obtain ⟨few, bounded, past⟩ := of_fragmented numbered small reaches wellFormed
        have sized : wh.bytes.length = input.hdrsize := length
        have padded : input.hdrsize ≤ input.headers := by
          rw [sized] at bounded
          unfold part at bounded
          omega
        rw [← sized] at received
        obtain ⟨ends_, room⟩ := (reassembled_iff input.rx numbered small more few).mp received
        rw [sized] at room
        exact ⟨enough, padded, past, ends_, few, room⟩
      · rw [splitFrame_fault input.env positive count input.txseq input.skb.frame
          (Nat.lt_of_not_le reaches)] at outcome
        cases outcome
    · rw [if_neg enough] at outcome
      cases outcome
  · intro parts
    rw [if_pos parts.allocated,
      splitFrame_eq input.env positive count input.txseq input.skb.frame parts.reaches.le] at sent
    rw [shared] at sent numbered more length
    have sized : wh.bytes.length = input.hdrsize := length
    have room : wh.bytes.length + input.part ≤ input.env.vmFragthreshold := by
      have padded := parts.padded
      rw [sized]
      unfold part
      omega
    refine ⟨_, sent, fragmented_fragmentsOf numbered small more parts.few room positive
      parts.reaches, ?_⟩
    rw [← sized]
    refine (reassembled_iff input.rx numbered small more parts.few).mpr ⟨parts.ends_, ?_⟩
    rw [sized]
    exact parts.received

end Long

theorem last_part {length size count : Nat} (past : (count + 1) * size < length)
    (ends_ : length ≤ (count + 2) * size) :
    (count + 1) * size + ((length - 1) % size + 1) = length := by
  have grown : (count + 2) * size = (count + 1) * size + size := Nat.succ_mul _ _
  have next : (count + 1 + 1) * size = (count + 2) * size := rfl
  have quotient : (length - 1) / size = count + 1 :=
    Nat.div_eq_of_lt_le (by omega) (by omega)
  have split := Nat.div_add_mod (length - 1) size
  rw [quotient, Nat.mul_comm] at split
  omega

/-- The padding and the cipher's header leave as many parts to count as there are. -/
theorem Fits.parts (fits : input.Fits)
    (long : input.env.vmFragthreshold < input.skb.frame.pktlen) :
    ∃ count, (count + 1) * input.part < input.rest ∧ input.rest ≤ (count + 2) * input.part ∧
      input.Parts count := by
  have padded := fits.padded
  have above := fits.above
  have positive : 0 < input.part := Nat.sub_pos_of_lt fits.above
  have length : input.skb.frame.pktlen = input.hdrsize + input.datalen := rfl
  have several : input.part < input.datalen := by
    unfold part
    omega
  obtain ⟨count, past, ends_⟩ := exists_fragCount positive several
  have last := last_part past ends_
  have counted := fits.counted
  refine ⟨count, ?_, ?_, ?_⟩
  · unfold rest
    omega
  · unfold rest
    omega
  · refine ⟨?_, padded, past, ends_, ?_, fits.received⟩
    · refine List.all_eq_true.mpr fun turn member => fits.allocated turn ?_
      have before : (turn + 1) * input.part ≤ (count + 1) * input.part :=
        Nat.mul_le_mul_right input.part (List.mem_range.mp member)
      exact Nat.lt_of_le_of_lt before past
    · have less := Nat.lt_of_lt_of_le past fits.few
      have fewer := Nat.lt_of_mul_lt_mul_right less
      omega

private theorem Parts.fits (cipher : input.env.key ≠ some none)
    (above : input.headers < input.env.vmFragthreshold) {count : Nat}
    (least : (count + 1) * input.part < input.rest) (parts : input.Parts count) : input.Fits where
  cipher := cipher
  above := above
  padded := parts.padded
  counted := by
    have last := last_part parts.reaches parts.ends_
    have length : input.skb.frame.pktlen = input.hdrsize + input.datalen := rfl
    unfold rest at least
    omega
  few := Nat.le_trans parts.ends_ (Nat.mul_le_mul_right input.part parts.few)
  allocated := by
    intro turn behind
    have less := Nat.lt_of_lt_of_le behind parts.ends_
    have fewer := Nat.lt_of_mul_lt_mul_right less
    exact List.all_eq_true.mp parts.allocated turn (List.mem_range.mpr (by omega))
  received := parts.received

/-- A MSDU makes the round trip exactly when it is not above the threshold, or the parts that it is
cut into are the ones that `fragcnt` counts, are few enough for their numbers and fit on both
sides. -/
theorem roundTrip_iff (input : FragmentCase) :
    input.RoundTrip ↔ input.skb.frame.pktlen ≤ input.env.vmFragthreshold ∨ input.Fits := by
  rcases Nat.lt_or_ge input.env.vmFragthreshold input.skb.frame.pktlen with long | short
  · constructor
    · intro trip
      obtain ⟨cipher, above⟩ := above_of_roundTrip long trip
      have positive : 0 < input.part := Nat.sub_pos_of_lt above
      have several : input.part < input.rest := by
        unfold part rest
        omega
      obtain ⟨count, least, most⟩ := exists_fragCount positive several
      have parts := (roundTrip_iff_parts long cipher above least most).mp trip
      exact .inr (parts.fits cipher above least)
    · rintro (short | fits)
      · exact absurd long (Nat.not_lt.mpr short)
      · obtain ⟨count, least, most, parts⟩ := fits.parts long
        exact (roundTrip_iff_parts long fits.cipher fits.above least most).mpr parts
  · exact ⟨fun _ => .inl short, fun _ => roundTrip_short short⟩

/-- A QoS frame of 26 + 449 bytes under CCMP and a threshold of 256: two parts of 222 bytes are
counted, and five bytes are left. -/
def tailCase : FragmentCase where
  env := ⟨256, some (some .ccmp), true, false, fun _ => true⟩
  txseq := 1
  skb :=
    { frame := ⟨⟨0x88 :: 0x01 :: List.replicate 24 0, by decide⟩, List.replicate 449 0⟩
      hdrsizeNopad := 26
      datapad := false
      sized := rfl
      whole := rfl
      llc := by decide +kernel }
  rx := ⟨1500, fun _ => 4096, fun _ => 8192, fun _ => none⟩
  unicast := rfl
  msdu := rfl

/-- The end of a MSDU is lost where the cipher's header hides it from `fragcnt`. -/
theorem fragments_lose_tail : ¬ ∀ input : FragmentCase, input.RoundTrip := by
  intro always
  have counted : (0 + 1) * tailCase.part < tailCase.rest ∧
      tailCase.rest ≤ (0 + 2) * tailCase.part := by decide +kernel
  have long : tailCase.env.vmFragthreshold < tailCase.skb.frame.pktlen := by decide +kernel
  have cipher : tailCase.env.key ≠ some none := by decide
  have above : tailCase.headers < tailCase.env.vmFragthreshold := by decide
  have parts := (roundTrip_iff_parts long cipher above counted.1 counted.2).mp (always tailCase)
  have ends_ := parts.ends_
  exact absurd ends_ (by decide +kernel)

end FragmentCase

end W522a.Mac
