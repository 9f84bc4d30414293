import W522a.Mac.FragmentRx
import W522a.Mac.FragmentTx

/-!
The round trip of a fragmented MSDU: when the fragments are well formed and the receiving side puts
the MSDU together again.
-/

namespace W522a.Mac

open Bytes (slice write little)

section Received

variable (rx : RxBuffers) (number : Nat) (frame : Mpdu)

theorem rxSkb_slice {start count : Nat} (after : 2 ≤ start)
    (inside : start + count ≤ wifiFrameLen) :
    slice (rxSkb rx number frame).data start count = slice frame.header.bytes start count := by
  have long := (frame.header.updateFc1 clearWep).long
  rw [← frame.header.updateFc1_slice clearWep after]
  exact Bytes.slice_append_left (Nat.le_trans inside long)

theorem rxSkb_iSeqNum : (rxSkb rx number frame).iSeqNum = frame.header.iSeq := by
  have long := frame.header.long
  simp only [wifiFrameLen] at long
  have two : (slice frame.header.bytes 22 2).length = 2 := Bytes.length_slice (by omega)
  rw [RxSkb.iSeqNum, RxSkb.iSeq, rxSkb_slice rx number frame (by omega) (by decide), TxHeader.iSeq]
  obtain ⟨low, high, pair⟩ := List.length_eq_two.mp two
  rw [pair]
  rfl

theorem rxSkb_rxseq : (rxSkb rx number frame).rxseq = frame.header.iSeq / 16 := by
  rw [RxSkb.rxseq, rxSkb_iSeqNum]

theorem rxSkb_fragno : (rxSkb rx number frame).fragno = frame.header.iSeq % 16 := by
  rw [RxSkb.fragno, rxSkb_iSeqNum]

theorem rxSkb_addr1 : (rxSkb rx number frame).addr1 = slice frame.header.bytes 4 6 :=
  rxSkb_slice rx number frame (by omega) (by decide)

theorem rxSkb_addr2 : (rxSkb rx number frame).addr2 = slice frame.header.bytes 10 6 :=
  rxSkb_slice rx number frame (by omega) (by decide)

theorem rxSkb_length : (rxSkb rx number frame).data.length = frame.pktlen := by
  rw [rxSkb, List.length_append, TxHeader.updateFc1_length, Mpdu.pktlen]

theorem rxSkb_body {hdrlen : Nat} (same : frame.header.bytes.length = hdrlen) :
    (rxSkb rx number frame).data.drop hdrlen = frame.payload := by
  rw [rxSkb, List.drop_left']
  rw [TxHeader.updateFc1_length, same]

/-- `WIFINET_FC1_MORE_FRAG` of a header. -/
def TxHeader.moreFrag (header : TxHeader) : Bool := header.fc1.toNat / 4 % 2 = 1

theorem rxSkb_moreFrag : (rxSkb rx number frame).moreFrag = frame.header.moreFrag := by
  have long := (frame.header.updateFc1 clearWep).long
  simp only [wifiFrameLen] at long
  have byte : macByte (rxSkb rx number frame).data 1 = (frame.header.updateFc1 clearWep).fc1 := by
    rw [rxSkb, macByte, TxHeader.fc1, macByte, List.getD_eq_getElem?_getD,
      List.getD_eq_getElem?_getD, List.getElem?_append_left (by omega)]
  rw [RxSkb.moreFrag, byte, TxHeader.updateFc1_fc1, clearWep_bit, TxHeader.moreFrag]

end Received

/-- What the fragment with a number has of the frame: the header's length, addresses and number, and
its part of the body. -/
structure FragmentAt (wh : TxHeader) (body : List UInt8) (size seq number : Nat) (frame : Mpdu) :
    Prop where
  length : frame.header.bytes.length = wh.bytes.length
  iSeq : frame.header.iSeq = seq * 16 + number % 16
  addr1 : slice frame.header.bytes 4 6 = slice wh.bytes 4 6
  addr2 : slice frame.header.bytes 10 6 = slice wh.bytes 10 6
  payload : frame.payload = slice body (number * size) size

section Headers

variable {wh : TxHeader} {body : List UInt8} {size seq : Nat}

theorem fragmentHeader_at (numbered : wh.iSeq = seq * 16) (small : seq < 4096) (number : Nat) :
    FragmentAt wh body size seq number
      ⟨fragmentHeader wh number, slice body (number * size) size⟩ := by
  unfold fragmentHeader
  by_cases first : number = 0
  · subst first
    rw [if_pos rfl]
    exact ⟨rfl, numbered, rfl, rfl, rfl⟩
  · rw [if_neg first]
    have low : number &&& 15 = number % 16 := Nat.and_two_pow_sub_one_eq_mod number 4
    have bound : number % 16 < 16 := Nat.mod_lt _ (by omega)
    refine ⟨wh.setSeq_length _, ?_, wh.setSeq_slice _ (by omega), wh.setSeq_slice _ (by omega), rfl⟩
    rw [numbered, low, or_low bound]
    exact wh.setSeq_iSeq (by omega)

theorem fragmentHeader_fc1 (number : Nat) : (fragmentHeader wh number).fc1 = wh.fc1 := by
  unfold fragmentHeader
  split
  · rfl
  · exact wh.setSeq_fc1 _

theorem FragmentAt.updateFc1 {number : Nat} {frame : Mpdu}
    (at_ : FragmentAt wh body size seq number frame) (change : UInt8 → UInt8) :
    FragmentAt wh body size seq number
      { frame with header := frame.header.updateFc1 change } where
  length := (frame.header.updateFc1_length change).trans at_.length
  iSeq := (frame.header.updateFc1_iSeq change).trans at_.iSeq
  addr1 := (frame.header.updateFc1_slice change (by omega)).trans at_.addr1
  addr2 := (frame.header.updateFc1_slice change (by omega)).trans at_.addr2
  payload := at_.payload

end Headers

/-- The fragments of one MSDU: numbered from 0 in one sequence number, with more to come after all
but the last, none above the threshold and none empty. -/
structure Fragmented (threshold : Nat) (frames : List Mpdu) : Prop where
  numbered : frames.map (fun frame => frame.header.iSeq % 16) = List.range frames.length
  oneSeq : ∀ first ∈ frames, ∀ second ∈ frames, first.header.iSeq / 16 = second.header.iSeq / 16
  more : frames.map (fun frame => frame.header.moreFrag) =
    List.replicate (frames.length - 1) true ++ [false]
  bounded : ∀ frame ∈ frames, frame.pktlen ≤ threshold
  filled : ∀ frame ∈ frames, frame.payload ≠ []

section Fragments

variable {wh : TxHeader} {body : List UInt8} {size seq : Nat}

theorem length_fragmentsOf (wh : TxHeader) (body : List UInt8) (size count : Nat) :
    (fragmentsOf wh body size count).length = count + 2 := by
  simp [fragmentsOf, fragmentRange]

/-- Every fragment is one of the numbered ones. -/
theorem mem_fragmentsOf (numbered : wh.iSeq = seq * 16) (small : seq < 4096) (count : Nat) :
    ∀ frame ∈ fragmentsOf wh body size count,
      ∃ number, number < count + 2 ∧ FragmentAt wh body size seq number frame := by
  intro frame member
  rcases List.mem_append.mp member with member | last
  · obtain ⟨number, range, rfl⟩ := List.mem_map.mp member
    have bound := (List.mem_range'_1.mp range).2
    exact ⟨number, by omega, fragmentHeader_at numbered small number⟩
  · rw [List.mem_singleton.mp last]
    exact ⟨count + 1, by omega,
      (fragmentHeader_at numbered small (count + 1)).updateFc1 clearMoreFrag⟩

theorem numbers_fragmentsOf (numbered : wh.iSeq = seq * 16) (small : seq < 4096) (count : Nat) :
    (fragmentsOf wh body size count).map (fun frame => frame.header.iSeq % 16) =
      (List.range (count + 2)).map (· % 16) := by
  have each : ∀ number, (fragmentHeader wh number).iSeq % 16 = number % 16 := by
    intro number
    have at_ : FragmentAt wh body size seq number _ := fragmentHeader_at numbered small number
    rw [at_.iSeq]
    omega
  have plain : (fragmentRange wh body size 0 (count + 1)).map
      (fun frame => frame.header.iSeq % 16) = (List.range (count + 1)).map (· % 16) := by
    rw [fragmentRange, List.map_map, List.range_eq_range']
    exact List.map_congr_left fun number _ => each number
  rw [fragmentsOf, List.map_append, plain, List.range_succ (n := count + 1), List.map_append]
  simp only [List.map_cons, List.map_nil, TxHeader.updateFc1_iSeq, each]

private theorem more_fragmentsOf (more : wh.moreFrag = true) (count : Nat) :
    (fragmentsOf wh body size count).map (fun frame => frame.header.moreFrag) =
      List.replicate (count + 1) true ++ [false] := by
  have plain : ∀ frame ∈ fragmentRange wh body size 0 (count + 1),
      frame.header.moreFrag = true := by
    intro frame member
    obtain ⟨number, _, rfl⟩ := List.mem_map.mp member
    unfold TxHeader.moreFrag at more ⊢
    rw [fragmentHeader_fc1]
    exact more
  have cleared : (((fragmentHeader wh (count + 1)).updateFc1 clearMoreFrag)).moreFrag = false := by
    unfold TxHeader.moreFrag
    rw [TxHeader.updateFc1_fc1, clearMoreFrag_bit]
    rfl
  rw [fragmentsOf, List.map_append, List.map_congr_left plain, List.map_const']
  simp only [List.map_cons, List.map_nil, cleared, fragmentRange, List.length_map,
    List.length_range']

theorem range_mod_iff (count : Nat) :
    (List.range count).map (· % 16) = List.range count ↔ count ≤ 16 := by
  constructor
  · intro same
    by_contra long
    have value := congrArg (fun numbers => numbers[16]?) same
    simp [Nat.lt_of_not_le long] at value
  · intro short
    refine (List.map_congr_left ?_).trans (List.map_id _)
    intro number member
    have bound := List.mem_range.mp member
    exact Nat.mod_eq_of_lt (by omega)

/-- The fragments are well formed when there are no more than 16 of them, their header leaves the
threshold room for a full payload, and the last one has a payload. -/
theorem fragmented_fragmentsOf {threshold count : Nat} (numbered : wh.iSeq = seq * 16)
    (small : seq < 4096) (more : wh.moreFrag = true) (few : count + 2 ≤ 16)
    (room : wh.bytes.length + size ≤ threshold) (positive : 0 < size)
    (reaches : (count + 1) * size < body.length) :
    Fragmented threshold (fragmentsOf wh body size count) where
  numbered := by
    rw [numbers_fragmentsOf numbered small, length_fragmentsOf]
    exact (range_mod_iff _).mpr few
  oneSeq := by
    intro first firstMember second secondMember
    obtain ⟨one, _, atOne⟩ := mem_fragmentsOf numbered small count first firstMember
    obtain ⟨two, _, atTwo⟩ := mem_fragmentsOf numbered small count second secondMember
    rw [atOne.iSeq, atTwo.iSeq]
    omega
  more := by
    rw [more_fragmentsOf more, length_fragmentsOf]
    rfl
  bounded := by
    intro frame member
    obtain ⟨number, _, at_⟩ := mem_fragmentsOf numbered small count frame member
    have payload : frame.payload.length ≤ size := by
      rw [at_.payload, slice, List.length_take]
      exact Nat.min_le_left _ _
    rw [Mpdu.pktlen, at_.length]
    omega
  filled := by
    intro frame member empty
    obtain ⟨number, bound, at_⟩ := mem_fragmentsOf numbered small count frame member
    have before : number * size ≤ (count + 1) * size := Nat.mul_le_mul_right size (by omega)
    have length := congrArg List.length (at_.payload.symm.trans empty)
    rw [slice, List.length_take, List.length_drop, List.length_nil] at length
    omega

def lastFragment (wh : TxHeader) (body : List UInt8) (size number : Nat) : Mpdu :=
  ⟨(fragmentHeader wh number).updateFc1 clearMoreFrag, slice body (number * size) size⟩

private theorem lastFragment_at (numbered : wh.iSeq = seq * 16) (small : seq < 4096)
    (number : Nat) :
    FragmentAt wh body size seq number (lastFragment wh body size number) :=
  (fragmentHeader_at numbered small number).updateFc1 clearMoreFrag

theorem fragmentsOf_cons (wh : TxHeader) (body : List UInt8) (size count : Nat) :
    fragmentsOf wh body size count =
      ⟨wh, body.take size⟩ ::
        (fragmentRange wh body size 1 count ++ [lastFragment wh body size (count + 1)]) := by
  rw [fragmentsOf, fragmentRange_first]
  rfl

/-- What well formed fragments say of the frame, when none of them lies behind its end. -/
theorem of_fragmented {threshold count : Nat} (numbered : wh.iSeq = seq * 16) (small : seq < 4096)
    (reaches : (count + 1) * size ≤ body.length)
    (wellFormed : Fragmented threshold (fragmentsOf wh body size count)) :
    count + 2 ≤ 16 ∧ wh.bytes.length + size ≤ threshold ∧ (count + 1) * size < body.length := by
  refine ⟨?_, ?_, ?_⟩
  · have numbers := wellFormed.numbered
    rw [numbers_fragmentsOf numbered small, length_fragmentsOf] at numbers
    exact (range_mod_iff _).mp numbers
  · have first : (⟨wh, body.take size⟩ : Mpdu) ∈ fragmentsOf wh body size count := by
      rw [fragmentsOf_cons]
      exact List.mem_cons_self
    have full : size ≤ body.length :=
      Nat.le_trans (Nat.le_mul_of_pos_left size (Nat.succ_pos count)) reaches
    have bounded := wellFormed.bounded _ first
    rw [Mpdu.pktlen, List.length_take, Nat.min_eq_left full] at bounded
    exact bounded
  · have last : lastFragment wh body size (count + 1) ∈ fragmentsOf wh body size count :=
      List.mem_append_right _ List.mem_cons_self
    have filled := List.length_pos_of_ne_nil (wellFormed.filled _ last)
    rw [lastFragment, slice, List.length_take, List.length_drop] at filled
    omega

/-- A numbered frame as it is passed in. -/
def passedAt (rx : RxBuffers) (hdrlen : Nat) (entry : Mpdu × Nat) : Passed :=
  (⟨rxSkb rx entry.2 entry.1, hdrlen⟩, rx.room entry.2)

theorem passIn_eq (rx : RxBuffers) (hdrlen : Nat) (frames : List Mpdu) :
    passIn rx hdrlen frames =
      (frames.zipIdx.map (passedAt rx hdrlen)).map Passed.event := by
  rw [List.map_map]
  rfl

/-- The fragments behind what is held continue it. -/
theorem continues_fragments (rx : RxBuffers) (body : List UInt8) (size : Nat) {hdrlen : Nat}
    (numbered : wh.iSeq = seq * 16) (small : seq < 4096) (more : wh.moreFrag = true)
    (sized : wh.bytes.length = hdrlen) (count : Nat) {first : Nat} (held : RxSkb)
    (few : first + count < 16)
    (same : held.rxseq = seq) (next : held.fragno + 1 = first)
    (receiver : held.addr1 = slice wh.bytes 4 6)
    (transmitter : held.addr2 = slice wh.bytes 10 6) :
    Continues hdrlen held
      (((fragmentRange wh body size first count ++
        [lastFragment wh body size (first + count)]).zipIdx first).map (passedAt rx hdrlen)) := by
  have facts : ∀ {number : Nat} {frame : Mpdu}, FragmentAt wh body size seq number frame →
      number < 16 → hdrlen ≤ (rxSkb rx number frame).pktlen ∧
        (rxSkb rx number frame).rxseq = seq ∧ (rxSkb rx number frame).fragno = number ∧
        (rxSkb rx number frame).addr1 = slice wh.bytes 4 6 ∧
        (rxSkb rx number frame).addr2 = slice wh.bytes 10 6 := by
    intro number frame at_ bound
    refine ⟨?_, ?_, ?_, ?_, ?_⟩
    · rw [RxSkb.pktlen, rxSkb_length, Mpdu.pktlen, at_.length, sized]
      exact Nat.le_add_right _ _
    · rw [rxSkb_rxseq, at_.iSeq]
      omega
    · rw [rxSkb_fragno, at_.iSeq]
      omega
    · rw [rxSkb_addr1, at_.addr1]
    · rw [rxSkb_addr2, at_.addr2]
  induction count generalizing first held with
  | zero =>
    obtain ⟨long, seqSame, number, one, two⟩ :=
      facts (lastFragment_at numbered small first) few
    have final : (rxSkb rx first (lastFragment wh body size first)).moreFrag = false := by
      rw [rxSkb_moreFrag, lastFragment, TxHeader.moreFrag, TxHeader.updateFc1_fc1,
        clearMoreFrag_bit]
      rfl
    exact ⟨rfl, long, seqSame.trans same.symm, number.trans next.symm, one.trans receiver.symm,
      two.trans transmitter.symm, final, trivial⟩
  | succ count induction =>
    have at_ : FragmentAt wh body size seq first _ := fragmentHeader_at numbered small first
    obtain ⟨long, seqSame, number, one, two⟩ := facts at_ (by omega)
    have last : first + (count + 1) = (first + 1) + count := by omega
    rw [fragmentRange, List.range'_succ, List.map_cons, List.cons_append, List.zipIdx_cons,
      List.map_cons, last]
    refine ⟨rfl, long, seqSame.trans same.symm, number.trans next.symm, one.trans receiver.symm,
      two.trans transmitter.symm, ?_, ?_⟩
    · have set : (rxSkb rx first
          ⟨fragmentHeader wh first, slice body (first * size) size⟩).moreFrag = true := by
        rw [rxSkb_moreFrag, TxHeader.moreFrag, fragmentHeader_fc1]
        exact more
      refine set.trans ?_
      simp
    · refine induction (held.append hdrlen _) (by omega) ?_ ?_ ?_ ?_
      · rw [RxSkb.append_rxseq]
        exact seqSame
      · rw [RxSkb.append_fragno]
        exact congrArg (· + 1) number
      · rw [RxSkb.append_addr1]
        exact receiver
      · rw [RxSkb.append_addr2]
        exact transmitter

private theorem totalBody_passedAt (rx : RxBuffers) {hdrlen : Nat} (frames : List Mpdu)
    (sized : ∀ frame ∈ frames, frame.header.bytes.length = hdrlen) (first : Nat) :
    totalBody ((frames.zipIdx first).map (passedAt rx hdrlen)) =
      frames.flatMap fun frame => frame.payload := by
  induction frames generalizing first with
  | nil => rfl
  | cons frame rest induction =>
    have body := rxSkb_body rx first frame (sized frame List.mem_cons_self)
    have others := induction (fun other member => sized other (List.mem_cons_of_mem frame member))
      (first + 1)
    rw [List.zipIdx_cons, List.map_cons, List.flatMap_cons, ← others, ← body]
    rfl

private theorem payloads_later (wh : TxHeader) (body : List UInt8) (size first count : Nat) :
    ((fragmentRange wh body size first count ++
      [lastFragment wh body size (first + count)]).flatMap fun frame => frame.payload) =
      slice body (first * size) ((count + 1) * size) := by
  have joined := Bytes.slices_join body size first (count + 1)
  rw [List.range'_concat, List.flatMap_append, Nat.one_mul] at joined
  rw [List.flatMap_append, fragmentRange, List.flatMap_map, ← joined]
  rfl

def RxBuffers.firstRoom (rx : RxBuffers) (hdrlen : Nat) : Option Nat :=
  if rx.endOffset 0 < rx.mtu + hdrlen then (rx.room 0).map Prod.fst else some (rx.tailroom 0)

/-- The receiving side hands up the payloads of the fragments when the room behind the first one
takes the others, the header of the last one included, and hands up nothing otherwise. -/
theorem reassembled_fragmentsOf (rx : RxBuffers) (numbered : wh.iSeq = seq * 16)
    (small : seq < 4096) (more : wh.moreFrag = true) {count : Nat} (few : count + 2 ≤ 16) :
    (reassembled rx wh.bytes.length (fragmentsOf wh body size count)).map
        (fun msdu => msdu.data.drop wh.bytes.length) =
      if ∃ room, rx.firstRoom wh.bytes.length = some room ∧
        wh.bytes.length + (slice body size ((count + 1) * size)).length ≤ room then
        [body.take ((count + 2) * size)] else [] := by
  have sized : ∀ frame ∈ fragmentRange wh body size 1 count ++
      [lastFragment wh body size (count + 1)], frame.header.bytes.length = wh.bytes.length := by
    intro frame member
    have inside : frame ∈ fragmentsOf wh body size count := by
      rw [fragmentsOf_cons]
      exact List.mem_cons_of_mem _ member
    obtain ⟨number, _, at_⟩ := mem_fragmentsOf numbered small count frame inside
    exact at_.length
  have zero : (rxSkb rx 0 ⟨wh, body.take size⟩).fragno = 0 := by
    rw [rxSkb_fragno, numbered]
    exact Nat.mul_mod_left _ _
  have started : (rxSkb rx 0 ⟨wh, body.take size⟩).moreFrag = true := by
    rw [rxSkb_moreFrag]
    exact more
  have same : (rxSkb rx 0 ⟨wh, body.take size⟩).rxseq = seq := by
    rw [rxSkb_rxseq, numbered]
    exact Nat.mul_div_cancel _ (by omega)
  have continues := continues_fragments rx body size numbered small more rfl count
    (rxSkb rx 0 ⟨wh, body.take size⟩) (by omega : 1 + count < 16) same (by rw [zero])
    (rxSkb_addr1 ..) (rxSkb_addr2 ..)
  have long : wh.bytes.length ≤ (rxSkb rx 0 ⟨wh, body.take size⟩).data.length := by
    rw [rxSkb_length]
    exact Nat.le_add_right _ _
  rw [Nat.add_comm 1 count] at continues
  have later := payloads_later wh body size 1 count
  rw [Nat.add_comm 1 count, Nat.one_mul] at later
  have total := (totalBody_passedAt rx _ sized 1).trans later
  have nonempty : ((fragmentRange wh body size 1 count ++
      [lastFragment wh body size (count + 1)]).zipIdx 1).map (passedAt rx wh.bytes.length) ≠
        [] := by
    intro empty
    rw [List.map_eq_nil_iff, List.zipIdx_eq_nil_iff] at empty
    exact List.append_ne_nil_of_right_ne_nil _ (List.cons_ne_nil _ _) empty
  have joined : body.take size ++ slice body size ((count + 1) * size) =
      body.take ((count + 2) * size) := by
    rw [slice, Nat.succ_mul (count + 1), Nat.add_comm _ size, List.take_add]
  have run := run_fragments rx.mtu (passedAt rx wh.bytes.length (⟨wh, body.take size⟩, 0)) _
    nonempty zero started wh.long long continues
  rw [total] at run
  rw [reassembled, passIn_eq, fragmentsOf_cons, List.zipIdx_cons, List.map_cons, Nat.zero_add, run,
    ← joined]
  congr 1
  have first := rxSkb_body rx 0 ⟨wh, body.take size⟩ rfl
  exact congrArg (fun part => [part ++ slice body size ((count + 1) * size)]) first

private theorem length_later {count : Nat} (ends_ : body.length ≤ (count + 2) * size) :
    (slice body size ((count + 1) * size)).length = body.length - size := by
  have grown : (count + 2) * size = (count + 1) * size + size := Nat.succ_mul _ _
  rw [slice, List.length_take, List.length_drop]
  omega

/-- The receiving side gets the body back when the fragments reach its end and there is room behind
the first of them. -/
theorem reassembled_iff (rx : RxBuffers) (numbered : wh.iSeq = seq * 16) (small : seq < 4096)
    (more : wh.moreFrag = true) {count : Nat} (few : count + 2 ≤ 16) :
    (reassembled rx wh.bytes.length (fragmentsOf wh body size count)).map
        (fun msdu => msdu.data.drop wh.bytes.length) = [body] ↔
      body.length ≤ (count + 2) * size ∧ ∃ room, rx.firstRoom wh.bytes.length = some room ∧
        wh.bytes.length + (body.length - size) ≤ room := by
  rw [reassembled_fragmentsOf rx numbered small more few]
  constructor
  · intro received
    by_cases found : ∃ room, rx.firstRoom wh.bytes.length = some room ∧
        wh.bytes.length + (slice body size ((count + 1) * size)).length ≤ room
    · rw [if_pos found] at received
      have ends_ : body.length ≤ (count + 2) * size := by
        rw [← (List.cons.inj received).1, List.length_take]
        exact Nat.min_le_left _ _
      rw [length_later ends_] at found
      exact ⟨ends_, found⟩
    · rw [if_neg found] at received
      cases received
  · rintro ⟨ends_, found⟩
    rw [length_later ends_, if_pos found, List.take_of_length_le ends_]

end Fragments

end W522a.Mac
