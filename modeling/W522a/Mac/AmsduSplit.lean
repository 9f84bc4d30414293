import W522a.Mac.Amsdu

/-!
What the split of an A-MSDU delivers: the round trip from the 802.11 encoding, and what becomes of
it when the first destination looks like an LLC/SNAP header.
-/

namespace W522a.Mac

open Bytes (slice write)

section Fields

theorem be16_append {first second : List UInt8} (offset : Nat) :
    be16 (first ++ second) (first.length + offset) = be16 second offset := by
  simp only [be16, Nat.add_assoc, List.getD_eq_getElem?_getD]
  rw [List.getElem?_append_right (by omega), List.getElem?_append_right (by omega)]
  simp

theorem be16_of_place {first second : List UInt8} {offset : Nat} (place : first.length = offset) :
    be16 (first ++ second) offset = be16 second 0 := by
  rw [← place]
  exact be16_append 0

theorem be16_htons {value : Nat} (fits : value < 65536) (rest : List UInt8) :
    be16 (htons value ++ rest) 0 = value := by
  have high : (UInt8.ofNat (value / 256)).toNat = value / 256 := by
    rw [UInt8.toNat_ofNat']
    omega
  have low : (UInt8.ofNat value).toNat = value % 256 := by
    rw [UInt8.toNat_ofNat']
  simp only [be16, htons, List.cons_append, List.getD_cons_zero, List.getD_cons_succ, high, low]
  omega

@[simp] theorem htons_length (value : Nat) : (htons value).length = 2 := rfl

theorem htons_ne_zero {value : Nat} (fits : value < 65536) (positive : value ≠ 0) :
    htons value ≠ [0, 0] := by
  intro zero
  have same := be16_htons fits []
  rw [zero] at same
  exact positive same.symm

end Fields

namespace Subframe

variable (frame : Subframe)

theorem llc_length : frame.llc.length = 6 := by
  simp [llc, frame.orgCode.2]

def etherHeader : List UInt8 := frame.dst.1 ++ frame.src.1 ++ frame.etherType.1

theorem etherHeader_length : frame.etherHeader.length = 14 := by
  simp [etherHeader, frame.dst.2, frame.src.2, frame.etherType.2]

theorem unwrapped_eq : frame.unwrapped = frame.etherHeader ++ frame.body := rfl

/-- The bytes before the Ethernet header once the subframe is decapsulated. -/
def lead : List UInt8 := frame.dst.1 ++ frame.src.1.take 2

theorem lead_length : frame.lead.length = 8 := by
  simp [lead, frame.dst.2, frame.src.2]

/-- The rest of the encoding up to the body. -/
def header : List UInt8 :=
  frame.src.1.drop 2 ++ htons (frame.body.length + llcSnapframelen) ++ frame.llc ++
    frame.etherType.1

theorem header_length : frame.header.length = 14 := by
  simp [header, frame.llc_length, frame.src.2, frame.etherType.2]

theorem encode_eq : frame.encode = frame.lead ++ (frame.header ++ frame.body) := by
  have source : frame.src.1 = frame.src.1.take 2 ++ frame.src.1.drop 2 :=
    (List.take_append_drop 2 frame.src.1).symm
  rw [encode]
  nth_rewrite 1 [source]
  simp only [lead, header, List.append_assoc]

theorem encode_length : frame.encode.length = frame.body.length + 22 := by
  rw [encode_eq]
  simp only [List.length_append, lead_length, header_length]
  omega

/-- The buffer of a subframe once it is decapsulated. -/
def decapped : List UInt8 := frame.lead ++ frame.unwrapped

theorem decapped_length : frame.decapped.length = frame.body.length + 22 := by
  rw [decapped, unwrapped_eq]
  simp only [List.length_append, lead_length, etherHeader_length]
  omega

/-- Where the Ethernet frame lies. -/
def view (start : Nat) : SkbView := ⟨start + 8, frame.body.length + 14⟩

theorem view_bytes {buf rest : List UInt8} (before : List UInt8)
    (shape : buf = before ++ (frame.decapped ++ rest)) :
    (frame.view before.length).bytes buf = frame.unwrapped := by
  have length_eq : frame.unwrapped.length = frame.body.length + 14 := by
    rw [unwrapped_eq, List.length_append, etherHeader_length, Nat.add_comm]
  rw [SkbView.bytes, view, shape, Bytes.slice_append_right, decapped, List.append_assoc]
  rw [Bytes.slice_of_place frame.lead_length, List.take_left' length_eq]

theorem roundup_eq : roundup (frame.body.length + 22) 4 =
    frame.body.length + 22 + frame.padding.length := by
  rw [frame.aligned]
  simp only [roundup, etherHeaderLen, llcSnapframelen]
  omega

end Subframe

section Decap

variable {frame : Subframe} {before tail : List UInt8}

private theorem be16_encode : be16 (before ++ (frame.encode ++ tail)) (before.length + 12) =
    frame.body.length + llcSnapframelen := by
  have split_eq : frame.encode ++ tail = (frame.dst.1 ++ frame.src.1) ++
      (htons (frame.body.length + llcSnapframelen) ++
        (frame.llc ++ frame.etherType.1 ++ frame.body ++ tail)) := by
    simp [Subframe.encode]
  have twelve : (frame.dst.1 ++ frame.src.1).length = 12 := by
    simp [frame.dst.2, frame.src.2]
  rw [be16_append, split_eq, be16_of_place twelve]
  exact be16_htons frame.fits _

/-- The decapsulation of a subframe inside the buffer. -/
theorem subframeDecap_eq {buf : List UInt8} {skb : SkbView} (long : 22 ≤ skb.len) :
    wifiMacAmsduSubframeDecap buf skb =
      (write buf (skb.data + 8) (slice buf skb.data 12 ++ slice buf (skb.data + 20) 2),
        ⟨skb.data + 8, skb.len - 8⟩) := by
  have first : ¬ skb.len < 14 := by omega
  have second : ¬ skb.len - 14 < 8 := by omega
  simp only [wifiMacAmsduSubframeDecap, osSkbPull, etherHeaderLen, llcSnapframelen, if_neg first,
    if_neg second, osSkbPush]
  have start_eq : skb.data + 14 + 8 - 14 = skb.data + 8 := by omega
  have len_eq : skb.len - 14 - 8 + 14 = skb.len - 8 := by omega
  rw [start_eq, len_eq]

theorem osSkbTrim_subfrm (start : Nat) {length field : Nat} (longer : field + 14 < length) :
    osSkbTrim ⟨start + 8, length - 8⟩ (field + 14 - 8) = ⟨start + 8, field + 6⟩ := by
  rw [osSkbTrim, if_pos (by simp only; omega)]
  rfl

theorem deliverData_long {start length : Nat} {batchList : List SkbView} (long : 14 ≤ length) :
    wifiMacDeliverData ⟨start, length⟩ batchList = batchList ++ [⟨start, length⟩] := by
  rw [wifiMacDeliverData, if_neg]
  simp only [etherHeaderLen]
  omega

private theorem subframeDecap_encode {len : Nat} (long : 22 ≤ len) :
    wifiMacAmsduSubframeDecap (before ++ (frame.encode ++ tail)) ⟨before.length, len⟩ =
      (before ++ (frame.decapped ++ tail), ⟨before.length + 8, len - 8⟩) := by
  have addresses : slice (before ++ (frame.encode ++ tail)) before.length 12 =
      frame.dst.1 ++ frame.src.1 := by
    have twelve : (frame.dst.1 ++ frame.src.1).length = 12 := by
      simp [frame.dst.2, frame.src.2]
    rw [Bytes.slice_append_at]
    simp only [Subframe.encode, List.append_assoc]
    rw [← List.append_assoc]
    exact List.take_left' twelve
  have etherType : slice (before ++ (frame.encode ++ tail)) (before.length + 20) 2 =
      frame.etherType.1 := by
    have split_eq : frame.encode ++ tail =
        (frame.dst.1 ++ frame.src.1 ++ htons (frame.body.length + llcSnapframelen) ++ frame.llc) ++
          (frame.etherType.1 ++ (frame.body ++ tail)) := by
      simp [Subframe.encode]
    have twenty : (frame.dst.1 ++ frame.src.1 ++ htons (frame.body.length + llcSnapframelen) ++
        frame.llc).length = 20 := by
      simp [frame.dst.2, frame.src.2, frame.llc_length]
    rw [Bytes.slice_append_right, split_eq, Bytes.slice_of_place twenty]
    exact List.take_left' frame.etherType.2
  rw [subframeDecap_eq long]
  dsimp only
  rw [addresses, etherType, Bytes.write_append]
  have rewritten : write (frame.encode ++ tail) 8 frame.etherHeader = frame.decapped ++ tail := by
    rw [frame.encode_eq, List.append_assoc, write, List.take_left' frame.lead_length,
      frame.etherHeader_length, ← List.drop_drop, List.drop_left' frame.lead_length,
      List.append_assoc frame.header, List.drop_left' frame.header_length, Subframe.decapped,
      Subframe.unwrapped_eq]
    simp only [List.append_assoc]
  rw [Subframe.etherHeader] at rewritten
  rw [rewritten]

end Decap

section Turn

variable {alloc : RxAlloc} {fuel turn : Nat} {frame : Subframe} {before tail : List UInt8}
  {amsduList : List SkbView}

/-- The state of the loop with `rest` left of the A-MSDU. -/
def splitAt (before rest : List UInt8) (amsduList : List SkbView) : AmsduState :=
  ⟨before ++ rest, ⟨before.length, rest.length⟩, amsduList⟩

private theorem deliver_view (start : Nat) :
    wifiMacDeliverData (frame.view start) amsduList = amsduList ++ [frame.view start] := by
  have long : ¬ frame.body.length + 14 < etherHeaderLen := by simp
  rw [wifiMacDeliverData, Subframe.view, if_neg long]

private theorem amsduLoop_turn :
    amsduLoop alloc (fuel + 1) turn (splitAt before (frame.encode ++ tail) amsduList) =
      if tail = [] then
        ⟨before ++ (frame.decapped ++ tail), frame.view before.length,
          amsduList ++ [frame.view before.length]⟩
      else if tail.length < frame.padding.length ∨ alloc.cloneOk turn = false then
        splitAt before (frame.encode ++ tail) amsduList
      else
        amsduLoop alloc fuel (turn + 1)
          ⟨before ++ (frame.decapped ++ tail),
            ⟨before.length + (frame.body.length + 22 + frame.padding.length),
              tail.length - frame.padding.length⟩,
            amsduList ++ [frame.view before.length]⟩ := by
  have len : (frame.encode ++ tail).length = frame.body.length + 22 + tail.length := by
    rw [List.length_append, frame.encode_length]
  have field : be16 (before ++ (frame.encode ++ tail)) (before.length + 12) =
      frame.body.length + 8 := be16_encode
  have decap : wifiMacAmsduSubframeDecap (before ++ (frame.encode ++ tail))
      ⟨before.length, frame.body.length + 22 + tail.length⟩ =
      (before ++ (frame.decapped ++ tail),
        ⟨before.length + 8, frame.body.length + 22 + tail.length - 8⟩) :=
    subframeDecap_encode (by omega)
  have round : roundup (frame.body.length + 22) 4 =
      frame.body.length + 22 + frame.padding.length := frame.roundup_eq
  have size : frame.body.length + 8 + 14 = frame.body.length + 22 := by omega
  rw [amsduLoop, splitAt]
  simp only [len, field, decap, etherHeaderLen, llcSnapframelen, size, round]
  rw [if_neg (by omega), if_neg (by omega)]
  by_cases exactly : tail = []
  · have whole : frame.body.length + 22 + tail.length = frame.body.length + 22 := by
      simp [exactly]
    have place : (⟨before.length + 8, frame.body.length + 22 + tail.length - 8⟩ : SkbView) =
        frame.view before.length := by
      rw [Subframe.view, whole]
      congr 1
    rw [if_pos whole, if_pos exactly, place, deliver_view]
  · have more : 0 < tail.length := List.length_pos_of_ne_nil exactly
    rw [if_neg (by omega), if_neg exactly]
    by_cases short : tail.length < frame.padding.length
    · rw [if_pos (by omega), if_pos (Or.inl short)]
    · rw [if_neg (by omega)]
      cases cloned : alloc.cloneOk turn with
      | false => simp
      | true =>
        have pulled : osSkbPull ⟨before.length, frame.body.length + 22 + tail.length⟩
            (frame.body.length + 22 + frame.padding.length) =
            some ⟨before.length + (frame.body.length + 22 + frame.padding.length),
              tail.length - frame.padding.length⟩ := by
          rw [osSkbPull, if_neg (by simp only; omega)]
          congr 2
          simp only
          omega
        have trimmed : osSkbTrim
            ⟨before.length + 8, frame.body.length + 22 + tail.length - 8⟩
            (frame.body.length + 22 - 8) = frame.view before.length := by
          rw [osSkbTrim, if_pos (by simp only; omega)]
          rfl
        rw [pulled, trimmed, deliver_view]
        simp [short]

private theorem amsduLoop_short {state : AmsduState} (short : state.skb.len < 14) :
    amsduLoop alloc fuel turn state = state := by
  cases fuel with
  | zero => rfl
  | succ fuel => rw [amsduLoop, if_pos short]

end Turn

section Frames

def clonesNeeded (lastPadded : Bool) : List Subframe → Nat
  | [] => 0
  | [last] => if lastPadded ∧ last.padding ≠ [] then 1 else 0
  | _ :: next :: rest => clonesNeeded lastPadded (next :: rest) + 1

theorem encodeAmsdu_pos (lastPadded : Bool) (frame : Subframe) (rest : List Subframe) :
    22 ≤ (encodeAmsdu lastPadded (frame :: rest)).length := by
  cases rest with
  | nil =>
    rw [encodeAmsdu, List.length_append, frame.encode_length]
    omega
  | cons next rest =>
    rw [encodeAmsdu, List.length_append, List.length_append, frame.encode_length]
    omega

/-- Views that lie before a place read the same whatever follows it. -/
theorem views_stable {amsduList : List SkbView} {before rest : List UInt8}
    (inside : ∀ skb ∈ amsduList, skb.data + skb.len ≤ before.length) :
    (amsduList.map fun skb => skb.bytes (before ++ rest)) =
      amsduList.map fun skb => skb.bytes before := by
  refine List.map_congr_left ?_
  intro skb found
  exact Bytes.slice_append_left (inside skb found)

/-- A subframe that is handed up joins the frames before it. -/
theorem views_extend {amsduList : List SkbView} {before rest : List UInt8} {frame : Subframe}
    (inside : ∀ skb ∈ amsduList, skb.data + skb.len ≤ before.length) :
    (amsduList ++ [frame.view before.length]).map
        (fun skb => skb.bytes (before ++ (frame.decapped ++ rest))) =
      (amsduList.map fun skb => skb.bytes before) ++ [frame.unwrapped] := by
  rw [List.map_append, views_stable inside, List.map_singleton, frame.view_bytes before rfl]

/-- The split hands up every subframe when the clones it needs are made, and too few otherwise. -/
theorem amsduLoop_frames (alloc : RxAlloc) (turn : Nat) (lastPadded : Bool)
    (frames : List Subframe) {fuel : Nat} {before : List UInt8} {amsduList : List SkbView}
    (inside : ∀ skb ∈ amsduList, skb.data + skb.len ≤ before.length)
    (enough : (encodeAmsdu lastPadded frames).length ≤ fuel) :
    let final := amsduLoop alloc fuel turn
      (splitAt before (encodeAmsdu lastPadded frames) amsduList)
    ((∀ count, count < clonesNeeded lastPadded frames → alloc.cloneOk (turn + count) = true) →
      (final.amsduList.map fun skb => skb.bytes final.buf) =
        (amsduList.map fun skb => skb.bytes before) ++ frames.map Subframe.unwrapped) ∧
    (¬ (∀ count, count < clonesNeeded lastPadded frames → alloc.cloneOk (turn + count) = true) →
      final.amsduList.length < amsduList.length + frames.length) := by
  dsimp only
  induction frames generalizing fuel turn before amsduList with
  | nil =>
    have nothing : splitAt before (encodeAmsdu lastPadded []) amsduList =
        ⟨before, ⟨before.length, 0⟩, amsduList⟩ := by
      simp [splitAt, encodeAmsdu]
    rw [nothing, amsduLoop_short (by simp)]
    exact ⟨fun _ => by simp, fun failed => absurd (by simp [clonesNeeded]) failed⟩
  | cons frame rest induction =>
    have long := encodeAmsdu_pos lastPadded frame rest
    obtain ⟨fuel, rfl⟩ : ∃ less, fuel = less + 1 := ⟨fuel - 1, by omega⟩
    cases rest with
    | nil =>
      obtain ⟨tail, tail_eq⟩ : ∃ tail, tail = if lastPadded then frame.padding else [] := ⟨_, rfl⟩
      have shape : encodeAmsdu lastPadded [frame] = frame.encode ++ tail := by
        rw [encodeAmsdu, tail_eq]
      rw [shape, amsduLoop_turn]
      by_cases exactly : tail = []
      · rw [if_pos exactly]
        have none_needed : clonesNeeded lastPadded [frame] = 0 := by
          rw [clonesNeeded, if_neg]
          rintro ⟨padded, nonempty⟩
          rw [if_pos padded] at tail_eq
          exact nonempty (tail_eq.symm.trans exactly)
        refine ⟨fun _ => views_extend inside, fun failed => absurd ?_ failed⟩
        intro count below
        omega
      · rw [if_neg exactly]
        have padded : tail = frame.padding := by
          cases lastPadded with
          | true => exact tail_eq
          | false => exact absurd tail_eq exactly
        have one_needed : clonesNeeded lastPadded [frame] = 1 := by
          rw [clonesNeeded, if_pos]
          cases lastPadded with
          | true => exact ⟨rfl, by rw [← padded]; exact exactly⟩
          | false => exact absurd tail_eq exactly
        rw [one_needed]
        cases cloned : alloc.cloneOk turn with
        | false =>
          rw [if_pos (Or.inr rfl)]
          refine ⟨fun ok => ?_, fun _ => by simp [splitAt]⟩
          have made : alloc.cloneOk turn = true := ok 0 (by omega)
          rw [made] at cloned
          cases cloned
        | true =>
          rw [if_neg (by simp [padded]), amsduLoop_short (by simp [padded])]
          refine ⟨fun _ => views_extend inside, fun failed => absurd ?_ failed⟩
          intro count below
          have first : count = 0 := by omega
          rw [first]
          exact cloned
    | cons next others =>
      have shape : encodeAmsdu lastPadded (frame :: next :: others) =
          frame.encode ++ (frame.padding ++ encodeAmsdu lastPadded (next :: others)) := by
        rw [encodeAmsdu, List.append_assoc]
      have following := encodeAmsdu_pos lastPadded next others
      have behind : frame.padding ++ encodeAmsdu lastPadded (next :: others) ≠ [] := by
        intro nothing
        have length_eq := congrArg List.length nothing
        rw [List.length_append, List.length_nil] at length_eq
        omega
      rw [shape] at enough
      rw [shape, amsduLoop_turn, if_neg behind]
      cases cloned : alloc.cloneOk turn with
      | false =>
        rw [if_pos (Or.inr rfl)]
        refine ⟨fun ok => ?_, fun _ => by simp [splitAt]⟩
        have made : alloc.cloneOk turn = true := ok 0 (by simp [clonesNeeded])
        rw [made] at cloned
        cases cloned
      | true =>
        rw [if_neg (by simp)]
        have moved : (⟨before ++ (frame.decapped ++
              (frame.padding ++ encodeAmsdu lastPadded (next :: others))),
            ⟨before.length + (frame.body.length + 22 + frame.padding.length),
              (frame.padding ++ encodeAmsdu lastPadded (next :: others)).length -
                frame.padding.length⟩,
            amsduList ++ [frame.view before.length]⟩ : AmsduState) =
            splitAt (before ++ (frame.decapped ++ frame.padding))
              (encodeAmsdu lastPadded (next :: others))
              (amsduList ++ [frame.view before.length]) := by
          simp only [splitAt, List.length_append, frame.decapped_length, List.append_assoc,
            Nat.add_sub_cancel_left]
        have insideNext : ∀ skb ∈ amsduList ++ [frame.view before.length],
            skb.data + skb.len ≤ (before ++ (frame.decapped ++ frame.padding)).length := by
          intro skb found
          rw [List.length_append, List.length_append, frame.decapped_length]
          rcases List.mem_append.mp found with old | new
          · have early := inside skb old
            omega
          · rw [List.mem_singleton.mp new, Subframe.view]
            simp only
            omega
        have enoughNext : (encodeAmsdu lastPadded (next :: others)).length ≤ fuel := by
          rw [List.length_append, List.length_append, frame.encode_length] at enough
          omega
        obtain ⟨delivered, lost⟩ := induction (turn + 1) insideNext enoughNext
        have shifted : (∀ count, count < clonesNeeded lastPadded (frame :: next :: others) →
              alloc.cloneOk (turn + count) = true) ↔
            ∀ count, count < clonesNeeded lastPadded (next :: others) →
              alloc.cloneOk (turn + 1 + count) = true := by
          rw [clonesNeeded]
          constructor
          · intro all count below
            rw [Nat.add_assoc, Nat.add_comm 1 count]
            exact all (count + 1) (by omega)
          · intro all count below
            cases count with
            | zero => exact cloned
            | succ count =>
              rw [Nat.add_comm count 1, ← Nat.add_assoc]
              exact all count (by omega)
        rw [moved, shifted]
        refine ⟨fun ok => ?_, fun failed => ?_⟩
        · rw [delivered ok, views_extend inside]
          simp
        · have fewer := lost failed
          simp only [List.length_append, List.length_cons, List.length_nil] at fewer ⊢
          omega

end Frames

section First

variable {alloc : RxAlloc}

/-- The buffer once the subframe at the place of a socket buffer is decapsulated. -/
def decapBuf (buf : List UInt8) (start : Nat) : List UInt8 :=
  write buf (start + 8) (slice buf start 12 ++ slice buf (start + 20) 2)

variable {buf : List UInt8} {start : Nat}

theorem decapBuf_fields (inside : start + 22 ≤ buf.length) :
    (slice buf start 12 ++ slice buf (start + 20) 2).length = 14 := by
  rw [List.length_append, Bytes.length_slice (by omega), Bytes.length_slice (by omega)]

theorem decapBuf_length (inside : start + 22 ≤ buf.length) :
    (decapBuf buf start).length = buf.length := by
  apply Bytes.length_write
  rw [decapBuf_fields inside]
  omega

private theorem decapBuf_take {count : Nat} (inside : start + 22 ≤ buf.length)
    (before : count ≤ start + 8) :
    (decapBuf buf start).take count = buf.take count :=
  Bytes.take_write (by omega) before

theorem decapBuf_dst (inside : start + 22 ≤ buf.length) :
    slice (decapBuf buf start) (start + 8) 6 = slice buf start 6 := by
  have whole : slice (decapBuf buf start) (start + 8)
      (slice buf start 12 ++ slice buf (start + 20) 2).length =
        slice buf start 12 ++ slice buf (start + 20) 2 := Bytes.slice_write_same (by omega)
  rw [decapBuf_fields inside] at whole
  have first : (slice buf start 12).length = 12 := Bytes.length_slice (by omega)
  calc slice (decapBuf buf start) (start + 8) 6
      = (slice (decapBuf buf start) (start + 8) 14).take 6 := (Bytes.take_slice (by omega)).symm
    _ = (slice buf start 12 ++ slice buf (start + 20) 2).take 6 := congrArg (List.take 6) whole
    _ = (slice buf start 12).take 6 := List.take_append_of_le_length (by omega)
    _ = slice buf start 6 := Bytes.take_slice (by omega)

/-- What one turn of the loop can do, whatever the bytes are. -/
theorem amsduLoop_step (alloc : RxAlloc) (fuel turn : Nat) (state : AmsduState) :
    amsduLoop alloc (fuel + 1) turn state = state ∨
    (22 ≤ state.skb.len ∧
      ∃ next : AmsduState, ∃ length : Nat,
        next.buf = decapBuf state.buf state.skb.data ∧
        next.amsduList = state.amsduList ++ [⟨state.skb.data + 8, length⟩] ∧
        14 ≤ length ∧ state.skb.data + 8 + length ≤ next.skb.data + next.skb.len ∧
        next.skb.data + next.skb.len = state.skb.data + state.skb.len ∧
        (amsduLoop alloc (fuel + 1) turn state = next ∨
          (state.skb.data + 22 ≤ next.skb.data ∧
            amsduLoop alloc (fuel + 1) turn state = amsduLoop alloc fuel (turn + 1) next))) := by
  rw [amsduLoop]
  by_cases short : state.skb.len < etherHeaderLen
  · rw [if_pos short]
    exact Or.inl rfl
  rw [if_neg short]
  obtain ⟨field, field_eq⟩ : ∃ field, field = be16 state.buf (state.skb.data + 12) := ⟨_, rfl⟩
  rw [← field_eq]
  by_cases small : field < llcSnapframelen
  · rw [if_pos small]
    exact Or.inl rfl
  rw [if_neg small]
  simp only [etherHeaderLen, llcSnapframelen] at short small ⊢
  by_cases exactly : state.skb.len = field + 14
  · rw [if_pos exactly, subframeDecap_eq (by omega)]
    refine Or.inr ⟨by omega, _, state.skb.len - 8, rfl, deliverData_long (by omega), by omega, ?_, ?_,
      Or.inl rfl⟩
    · exact Nat.le_refl _
    · simp only
      omega
  rw [if_neg exactly]
  have rounded : field + 14 ≤ roundup (field + 14) 4 := by
    simp only [roundup]
    omega
  by_cases padded : state.skb.len < roundup (field + 14) 4
  · rw [if_pos padded]
    exact Or.inl rfl
  rw [if_neg padded]
  cases cloned : alloc.cloneOk turn with
  | false => exact Or.inl (by simp)
  | true =>
    have pulled : osSkbPull state.skb (roundup (field + 14) 4) =
        some ⟨state.skb.data + roundup (field + 14) 4,
          state.skb.len - roundup (field + 14) 4⟩ := by
      rw [osSkbPull, if_neg padded]
    have longer : field + 14 < state.skb.len := by omega
    have trimmed := osSkbTrim_subfrm state.skb.data longer
    rw [subframeDecap_eq (by omega), pulled]
    simp only [trimmed, Option.getD_some, Bool.not_true, Bool.false_eq_true, if_false]
    refine Or.inr ⟨by omega, _, field + 6, rfl, deliverData_long (by omega), by omega, ?_, ?_,
      Or.inr ⟨?_, rfl⟩⟩
    all_goals
      simp only
      omega

private theorem amsduLoop_frame (fuel : Nat) {turn : Nat} {state : AmsduState}
    (inside : state.skb.data + state.skb.len ≤ state.buf.length) :
    let final := amsduLoop alloc fuel turn state
    final.buf.take state.skb.data = state.buf.take state.skb.data ∧
      ∃ more, final.amsduList = state.amsduList ++ more := by
  dsimp only
  induction fuel generalizing turn state with
  | zero => exact ⟨rfl, [], (List.append_nil _).symm⟩
  | succ fuel induction =>
    rcases amsduLoop_step alloc fuel turn state with
      stopped | ⟨long, next, length, buf_eq, list_eq, -, -, end_eq, last | ⟨onward, again⟩⟩
    · rw [stopped]
      exact ⟨rfl, [], (List.append_nil _).symm⟩
    · rw [last, list_eq, buf_eq]
      exact ⟨decapBuf_take (by omega) (by omega), _, rfl⟩
    · have size : next.buf.length = state.buf.length := by
        rw [buf_eq]
        exact decapBuf_length (by omega)
      have within : next.skb.data + next.skb.len ≤ next.buf.length := by omega
      obtain ⟨kept, more, list_more⟩ := induction within
      rw [again]
      refine ⟨?_, ⟨state.skb.data + 8, length⟩ :: more, ?_⟩
      · have cut := congrArg (List.take state.skb.data) kept
        rw [List.take_take, List.take_take, Nat.min_eq_left (by omega), buf_eq,
          decapBuf_take (by omega) (by omega)] at cut
        exact cut
      · rw [list_more, list_eq]
        simp

theorem amsduLoop_first (fuel : Nat) {turn : Nat} {state : AmsduState}
    (inside : state.skb.data + state.skb.len ≤ state.buf.length) (fresh : state.amsduList = []) :
    let final := amsduLoop alloc fuel turn state
    final.amsduList = [] ∨
      ∃ first rest, (final.amsduList.map fun skb => skb.bytes final.buf) = first :: rest ∧
        first.take 6 = slice state.buf state.skb.data 6 := by
  dsimp only
  cases fuel with
  | zero => exact Or.inl fresh
  | succ fuel =>
    rcases amsduLoop_step alloc fuel turn state with
      stopped | ⟨long, next, length, buf_eq, list_eq, least, place, end_eq, step⟩
    · rw [stopped]
      exact Or.inl fresh
    rw [fresh, List.nil_append] at list_eq
    have copied : slice next.buf (state.skb.data + 8) 6 = slice state.buf state.skb.data 6 := by
      rw [buf_eq]
      exact decapBuf_dst (by omega)
    have head : ∀ buf : List UInt8,
        ((⟨state.skb.data + 8, length⟩ : SkbView).bytes buf).take 6 =
          slice buf (state.skb.data + 8) 6 := by
      intro buf
      exact Bytes.take_slice (by simp only; omega)
    rcases step with last | ⟨onward, again⟩
    · rw [last, list_eq]
      exact Or.inr ⟨_, [], rfl, (head _).trans copied⟩
    · have size : next.buf.length = state.buf.length := by
        rw [buf_eq]
        exact decapBuf_length (by omega)
      have within : next.skb.data + next.skb.len ≤ next.buf.length := by omega
      obtain ⟨kept, more, list_more⟩ := amsduLoop_frame fuel within
      rw [again, list_more, list_eq]
      refine Or.inr ⟨_, _, rfl, ?_⟩
      rw [head, Bytes.slice_of_take kept (by omega)]
      exact copied

end First

end W522a.Mac
