import W522a.Mac.AmsduSplit

/-!
When the frames of an A-MSDU come out as they went in. The decapsulation takes the first
destination for an LLC/SNAP header when it looks like one.
-/

namespace W522a.Mac

open Bytes (slice write)

section Decap

/-- The payload is where the processor wants it, or its copy is made. -/
def RxAlloc.Placed (alloc : RxAlloc) : Prop := alloc.aligned = true ∨ alloc.copyOk = true

theorem slice_le (memory : List UInt8) (start count : Nat) :
    (slice memory start count).length ≤ count := by
  rw [slice, List.length_take]
  exact Nat.min_le_left count _

private theorem etherAddresses_le (wh : List UInt8) :
    (etherAddresses wh).1.length ≤ 6 ∧ (etherAddresses wh).2.length ≤ 6 := by
  unfold etherAddresses
  split <;> exact ⟨slice_le _ _ _, slice_le _ _ _⟩

private theorem etherAddresses_type_le {wh etherType : List UInt8} (short : etherType.length ≤ 2) :
    ((etherAddresses wh).1 ++ (etherAddresses wh).2 ++ etherType).length ≤ 14 := by
  obtain ⟨dst, src⟩ := etherAddresses_le wh
  rw [List.length_append, List.length_append]
  omega

instance (alloc : RxAlloc) : Decidable alloc.Placed :=
  inferInstanceAs (Decidable (alloc.aligned = true ∨ alloc.copyOk = true))

/-- The decapsulation writes an Ethernet header that ends where the payload it keeps starts. -/
theorem wifiMacDecap_eq (alloc : RxAlloc) (header : MacHeader) {payload : List UInt8} {skip : Nat}
    (skip_eq : skip = if 8 ≤ payload.length ∧ payload.take 6 = llcSnap then 8 else 0) :
    ∃ etherHeader : List UInt8, etherHeader.length ≤ 14 ∧
      wifiMacDecap alloc header.1.length false (header.1 ++ payload)
          ⟨0, (header.1 ++ payload).length⟩ =
        if alloc.Placed then
          some (write (header.1 ++ payload) (header.1.length + skip - 14) etherHeader,
            ⟨header.1.length + skip - 14, payload.length - skip + 14⟩)
        else none := by
  have pulled : osSkbPull ⟨0, (header.1 ++ payload).length⟩ header.1.length =
      some ⟨header.1.length, payload.length⟩ := by
    have enough : ¬ (header.1 ++ payload).length < header.1.length := by
      rw [List.length_append]
      omega
    rw [osSkbPull, if_neg enough, List.length_append, Nat.zero_add, Nat.add_sub_cancel_left]
  have start : slice (header.1 ++ payload) header.1.length 6 = payload.take 6 :=
    Bytes.slice_append_at
  have placed : ((!alloc.aligned) = true ∧ (!alloc.copyOk) = true) ↔ ¬ alloc.Placed := by
    simp [RxAlloc.Placed]
  have not_forwarded : ∀ qosAmsdu : Prop, ¬ (false = true ∧ qosAmsdu) := by simp
  unfold wifiMacDecap
  simp only [if_neg (not_forwarded _), pulled, start, placed, llcSnapframelen, etherHeaderLen]
  by_cases snap : 8 ≤ payload.length ∧ payload.take 6 = llcSnap
  · rw [if_pos snap] at skip_eq
    have shorter : osSkbPull ⟨header.1.length, payload.length⟩ 8 =
        some ⟨header.1.length + 8, payload.length - 8⟩ := by
      rw [osSkbPull, if_neg (Nat.not_lt.mpr snap.1)]
    simp only [if_pos snap, shorter, Option.getD_some, osSkbPush, skip_eq, ite_not]
    exact ⟨_, etherAddresses_type_le (slice_le _ _ _), rfl⟩
  · rw [if_neg snap] at skip_eq
    simp only [if_neg snap, osSkbPush, skip_eq, ite_not]
    exact ⟨_, etherAddresses_type_le (Nat.le_of_eq (htons_length _)), rfl⟩

/-- What the split of the decapsulated frame starts from. -/
theorem receiveAmsdu_eq (alloc : RxAlloc) (header : MacHeader) {payload : List UInt8} {skip : Nat}
    (skip_eq : skip = if 8 ≤ payload.length ∧ payload.take 6 = llcSnap then 8 else 0) :
    ∃ etherHeader : List UInt8, etherHeader.length ≤ 14 ∧
      receiveAmsdu alloc header.1.length (header.1 ++ payload) =
        if alloc.Placed then
          let final := amsduLoop alloc (payload.length - skip) 0
            ⟨write (header.1 ++ payload) (header.1.length + skip - 14) etherHeader,
              ⟨header.1.length + skip, payload.length - skip⟩, []⟩
          final.amsduList.map fun subfrm => subfrm.bytes final.buf
        else [] := by
  obtain ⟨etherHeader, short, decapped⟩ :=
    wifiMacDecap_eq alloc header skip_eq
  refine ⟨etherHeader, short, ?_⟩
  rw [receiveAmsdu, decapped]
  by_cases placed : alloc.Placed
  · have long := header.2.1
    have back : header.1.length + skip - 14 + 14 = header.1.length + skip := by omega
    rw [if_pos placed, if_pos placed]
    have longer : ¬ payload.length - skip + 14 < 14 := by omega
    simp only [wifiMacAmsduInput, osSkbPull, etherHeaderLen, if_neg longer, Option.getD_some, back,
      Nat.add_sub_cancel]
  · rw [if_neg placed, if_neg placed]

end Decap

section RoundTrip

variable {alloc : RxAlloc} {lastPadded : Bool}

/-- The clones that the split needs are made. -/
def RxAlloc.Cloned (alloc : RxAlloc) (lastPadded : Bool) (frames : List Subframe) : Prop :=
  ∀ count, count < clonesNeeded lastPadded frames → alloc.cloneOk count = true

private theorem ethernet_take (frame : Subframe) : frame.ethernet.take 6 = frame.dst.1 := by
  unfold Subframe.ethernet
  split
  · rw [Subframe.unwrapped, List.append_assoc, List.append_assoc, List.take_left' frame.dst.2]
  · rw [Subframe.encode, List.append_assoc, List.append_assoc, List.take_left' frame.dst.2]

theorem unwrapped_eq_ethernet_iff (frame : Subframe) :
    frame.unwrapped = frame.ethernet ↔ frame.orgCode.1 = [0, 0, 0] := by
  unfold Subframe.ethernet
  by_cases zero : frame.orgCode.1 = [0, 0, 0]
  · rw [if_pos zero]
    exact ⟨fun _ => zero, fun _ => rfl⟩
  · rw [if_neg zero]
    refine ⟨fun same => ?_, fun found => absurd found zero⟩
    have count := congrArg List.length same
    rw [frame.encode_length, frame.unwrapped_eq, List.length_append, frame.etherHeader_length]
      at count
    omega

theorem encodeAmsdu_take (frame : Subframe) (rest : List Subframe) :
    (encodeAmsdu lastPadded (frame :: rest)).take 6 = frame.dst.1 := by
  have shape : ∃ tail, encodeAmsdu lastPadded (frame :: rest) = frame.dst.1 ++ tail := by
    cases rest with
    | nil =>
      rw [encodeAmsdu, Subframe.encode]
      simp only [List.append_assoc]
      exact ⟨_, rfl⟩
    | cons next rest =>
      rw [encodeAmsdu, Subframe.encode]
      simp only [List.append_assoc]
      exact ⟨_, rfl⟩
  obtain ⟨tail, shape⟩ := shape
  rw [shape, List.take_left' frame.dst.2]

private theorem encodeAmsdu_slice (frame : Subframe) (rest : List Subframe) :
    slice (encodeAmsdu lastPadded (frame :: rest)) 8 6 =
      frame.src.1.drop 2 ++ htons (frame.body.length + llcSnapframelen) := by
  have shape : ∃ tail, encodeAmsdu lastPadded (frame :: rest) = frame.lead ++
      ((frame.src.1.drop 2 ++ htons (frame.body.length + llcSnapframelen)) ++ tail) := by
    cases rest with
    | nil =>
      rw [encodeAmsdu, Subframe.encode_eq, Subframe.header]
      simp only [List.append_assoc]
      exact ⟨_, rfl⟩
    | cons next rest =>
      rw [encodeAmsdu, Subframe.encode_eq, Subframe.header]
      simp only [List.append_assoc]
      exact ⟨_, rfl⟩
  have six : (frame.src.1.drop 2 ++ htons (frame.body.length + llcSnapframelen)).length = 6 := by
    simp [frame.src.2]
  obtain ⟨tail, shape⟩ := shape
  rw [shape, Bytes.slice_of_place frame.lead_length, List.take_left' six]

/-- A frame whose destination looks like LLC/SNAP does not come out. -/
theorem receiveAmsdu_snap_ne {header : MacHeader} {frame : Subframe} {rest : List Subframe}
    (snap : frame.dst.1 = llcSnap) :
    receiveAmsdu alloc header.1.length (header.1 ++ encodeAmsdu lastPadded (frame :: rest)) ≠
      (frame :: rest).map Subframe.ethernet := by
  have long := encodeAmsdu_pos lastPadded frame rest
  have looksSnap : 8 ≤ (encodeAmsdu lastPadded (frame :: rest)).length ∧
      (encodeAmsdu lastPadded (frame :: rest)).take 6 = llcSnap :=
    ⟨by omega, (encodeAmsdu_take frame rest).trans snap⟩
  obtain ⟨etherHeader, short, received⟩ := receiveAmsdu_eq alloc header (if_pos looksSnap).symm
  rw [received]
  by_cases placed : alloc.Placed
  · rw [if_pos placed]
    dsimp only
    have size : (header.1 ++ encodeAmsdu lastPadded (frame :: rest)).length =
        header.1.length + (encodeAmsdu lastPadded (frame :: rest)).length := List.length_append
    have wide := header.2.1
    have written : (write (header.1 ++ encodeAmsdu lastPadded (frame :: rest))
        (header.1.length + 8 - 14) etherHeader).length =
          header.1.length + (encodeAmsdu lastPadded (frame :: rest)).length := by
      rw [Bytes.length_write (by omega), size]
    obtain ⟨state, state_eq⟩ : ∃ state : AmsduState,
        state = ⟨write (header.1 ++ encodeAmsdu lastPadded (frame :: rest))
          (header.1.length + 8 - 14) etherHeader,
          ⟨header.1.length + 8, (encodeAmsdu lastPadded (frame :: rest)).length - 8⟩, []⟩ :=
      ⟨_, rfl⟩
    have inside : state.skb.data + state.skb.len ≤ state.buf.length := by
      rw [state_eq]
      simp only
      omega
    rw [← state_eq]
    rcases amsduLoop_first _ inside (by rw [state_eq]) with
      nothing | ⟨first, others, delivered, start⟩
    · rw [nothing]
      exact (List.cons_ne_nil _ _).symm
    · rw [delivered]
      intro same
      have ethernet : frame.ethernet = first := (List.cons_eq_cons.mp same).1.symm
      rw [state_eq] at start
      simp only at start
      rw [Bytes.slice_write_after (by omega) (by omega), Bytes.slice_append_right,
        encodeAmsdu_slice, ← ethernet, ethernet_take, snap] at start
      have four : (frame.src.1.drop 2).length = 4 := by
        rw [List.length_drop, frame.src.2]
      have zero := congrArg (List.drop 4) start
      rw [List.drop_left' four] at zero
      exact htons_ne_zero frame.fits (by simp) zero.symm
  · rw [if_neg placed]
    exact (List.cons_ne_nil _ _).symm

/-- The round trip: the frames come out as they went in exactly when the allocations succeed, the
first destination does not look like an LLC/SNAP header, and every organisation code is zero. -/
theorem amsdu_roundTrip_iff (alloc : RxAlloc) (header : MacHeader) (lastPadded : Bool)
    (frames : List Subframe) :
    receiveAmsdu alloc header.1.length (header.1 ++ encodeAmsdu lastPadded frames) =
        frames.map Subframe.ethernet ↔
      frames = [] ∨
        ((∀ first ∈ frames.head?, first.dst.1 ≠ llcSnap) ∧
          (∀ frame ∈ frames, frame.orgCode.1 = [0, 0, 0]) ∧ alloc.Placed ∧
          alloc.Cloned lastPadded frames) := by
  cases frames with
  | nil =>
    refine ⟨fun _ => Or.inl rfl, fun _ => ?_⟩
    have nothing : 0 = if 8 ≤ ([] : List UInt8).length ∧ [].take 6 = llcSnap then 8 else 0 := rfl
    obtain ⟨etherHeader, short, received⟩ := receiveAmsdu_eq alloc header nothing
    rw [encodeAmsdu, received]
    by_cases placed : alloc.Placed
    · rw [if_pos placed]
      rfl
    · rw [if_neg placed]
      rfl
  | cons frame rest =>
    by_cases snap : frame.dst.1 = llcSnap
    · refine ⟨fun same => absurd same (receiveAmsdu_snap_ne snap), ?_⟩
      rintro (nothing | ⟨first, -⟩)
      · cases nothing
      · exact absurd snap (first frame rfl)
    have plain : ¬ (8 ≤ (encodeAmsdu lastPadded (frame :: rest)).length ∧
        (encodeAmsdu lastPadded (frame :: rest)).take 6 = llcSnap) := by
      rintro ⟨-, looksSnap⟩
      rw [encodeAmsdu_take] at looksSnap
      exact snap looksSnap
    obtain ⟨etherHeader, short, received⟩ :=
      receiveAmsdu_eq alloc header (if_neg plain).symm
    rw [received]
    by_cases placed : alloc.Placed
    · rw [if_pos placed]
      have wide := header.2.1
      have inside : header.1.length + 0 - 14 + etherHeader.length ≤ header.1.length := by omega
      have start : (write header.1 (header.1.length + 0 - 14) etherHeader).length =
          header.1.length := Bytes.length_write inside
      have shape : (⟨write (header.1 ++ encodeAmsdu lastPadded (frame :: rest))
            (header.1.length + 0 - 14) etherHeader,
          ⟨header.1.length + 0, (encodeAmsdu lastPadded (frame :: rest)).length - 0⟩, []⟩ :
            AmsduState) =
          splitAt (write header.1 (header.1.length + 0 - 14) etherHeader)
            (encodeAmsdu lastPadded (frame :: rest)) [] := by
        rw [splitAt, Bytes.write_append_left inside, start]
        rfl
      have inside_nil : ∀ skb ∈ ([] : List SkbView), skb.data + skb.len ≤
          (write header.1 (header.1.length + 0 - 14) etherHeader).length := by simp
      obtain ⟨delivered, lost⟩ := amsduLoop_frames alloc 0 lastPadded (frame :: rest) inside_nil
        (Nat.le_refl _)
      rw [shape, Nat.sub_zero]
      simp only [Nat.zero_add] at delivered lost
      constructor
      · intro same
        have cloned : alloc.Cloned lastPadded (frame :: rest) := by
          by_contra failed
          have fewer := lost failed
          have count := congrArg List.length same
          simp only [List.length_map, List.length_nil] at count fewer
          omega
        refine Or.inr ⟨?_, ?_, placed, cloned⟩
        · intro first found
          rw [← Option.some.inj found]
          exact snap
        · intro other found
          have each := List.map_inj_left.mp ((delivered cloned).symm.trans same) other found
          exact (unwrapped_eq_ethernet_iff other).mp each
      · rintro (nothing | ⟨-, zero, -, cloned⟩)
        · cases nothing
        · refine (delivered cloned).trans (List.map_congr_left ?_)
          intro other found
          exact (unwrapped_eq_ethernet_iff other).mpr (zero other found)
    · rw [if_neg placed]
      constructor
      · intro nothing
        exact absurd nothing.symm (List.cons_ne_nil _ _)
      · rintro (nothing | ⟨-, -, done, -⟩)
        · cases nothing
        · exact absurd done placed

def roomyRx : RxAlloc := ⟨true, true, fun _ => true⟩

/-- The header of a QoS data frame from the access point. -/
def qosHeader : MacHeader :=
  ⟨[0x88, 0x02, 0, 0] ++ List.replicate 6 1 ++ List.replicate 6 2 ++ List.replicate 6 2 ++
    [0, 0, 0x80, 0], by decide⟩

/-- A subframe of four bytes to `dst`. -/
def pingSubframe (dst : MacAddr) : Subframe where
  dst := dst
  src := ⟨List.replicate 6 3, by decide⟩
  orgCode := ⟨[0, 0, 0], by decide⟩
  etherType := ⟨[0x08, 0x00], by decide⟩
  body := [1, 2, 3, 4]
  fits := by decide
  padding := [0, 0]
  aligned := by decide

/-- Two subframes, the first of them to a destination that reads as LLC/SNAP: neither comes out. -/
theorem amsdu_snapDestination :
    receiveAmsdu roomyRx qosHeader.1.length (qosHeader.1 ++ encodeAmsdu false
        [pingSubframe ⟨[0xAA, 0xAA, 0x03, 0, 0, 0], by decide⟩,
          pingSubframe ⟨List.replicate 6 1, by decide⟩]) ≠
      [pingSubframe ⟨[0xAA, 0xAA, 0x03, 0, 0, 0], by decide⟩,
        pingSubframe ⟨List.replicate 6 1, by decide⟩].map Subframe.ethernet := by
  decide +kernel

end RoundTrip

end W522a.Mac
