import W522a.Mac.Fragment
import W522a.Mac.Reassembly

/-!
The receiving side of a fragmented MSDU: fragments that follow one another are put together when
there is room for all of them, and lost otherwise.
-/

namespace W522a.Mac

open Bytes (slice write)

/-- A fragment with the room that a copy of it would have. -/
abbrev Passed : Type := Fragment × Option (Nat × Nat)

def Passed.event (passed : Passed) : DefragEvent := .input passed.1 passed.2

/-- What a fragment adds to the MSDU. -/
def Fragment.body (fragment : Fragment) : List UInt8 := fragment.skb.data.drop fragment.hdrlen

/-- The fragments continue what is held, one after the other and up to the last one. -/
def Continues (hdrlen : Nat) (held : RxSkb) : List Passed → Prop
  | [] => True
  | passed :: rest =>
    passed.1.hdrlen = hdrlen ∧ hdrlen ≤ passed.1.skb.pktlen ∧
      passed.1.skb.rxseq = held.rxseq ∧ passed.1.skb.fragno = held.fragno + 1 ∧
      passed.1.skb.addr1 = held.addr1 ∧ passed.1.skb.addr2 = held.addr2 ∧
      passed.1.skb.moreFrag = !rest.isEmpty ∧
      Continues hdrlen (held.append hdrlen passed.1.skb) rest

theorem Continues.later {hdrlen : Nat} {held : RxSkb} {rest : List Passed}
    (continues : Continues hdrlen held rest) : ∀ passed ∈ rest, passed.1.skb.fragno ≠ 0 := by
  induction rest generalizing held with
  | nil =>
    intro passed member
    cases member
  | cons first rest induction =>
    obtain ⟨_, _, _, next, _, _, _, others⟩ := continues
    intro passed member
    rcases List.mem_cons.mp member with same | member
    · subst same
      rw [next]
      exact Nat.succ_ne_zero _
    · exact induction others passed member

section Steps

variable {hdrlen : Nat} {state : DefragRun} {held : RxSkb} {passed : Passed}

/-- A later fragment that does not follow what is held is lost, with all that is held. -/
theorem defragStep_lost (mtu : Nat) (later : passed.1.skb.fragno ≠ 0)
    (apart : ∀ held, state.sta.rxfrag = some held → ¬ Follows held passed.1.skb) :
    (defragStep mtu state passed.event).sta.rxfrag = none ∧
      (defragStep mtu state passed.event).msdus = state.msdus := by
  have outcome := wifiMacDefrag_alone mtu passed.2 apart
  obtain ⟨msdu, sta, result⟩ : ∃ msdu sta, wifiMacDefrag mtu passed.2 state.sta passed.1.skb
      passed.1.hdrlen = (msdu, sta) := ⟨_, _, rfl⟩
  simp only [Passed.event, defragStep]
  rw [result] at outcome ⊢
  cases outcome with
  | whole msdu unfragmented same => exact absurd unfragmented.2 later
  | first more zero => exact absurd zero later
  | copied room more zero => exact absurd zero later
  | stray _ => exact ⟨state.sta.dropRxfrag_rxfrag, List.append_nil _⟩
  | short held found follows => exact absurd follows (apart held found)
  | merged held found follows more => exact absurd follows (apart held found)
  | last held found follows final => exact absurd follows (apart held found)

/-- A fragment that follows what is held is appended to it. -/
theorem wifiMacDefrag_follows (mtu : Nat) (room : Option (Nat × Nat)) (sta : FragStation)
    {skb : RxSkb} (found : sta.rxfrag = some held) (follows : Follows held skb)
    (long : hdrlen ≤ skb.pktlen) :
    wifiMacDefrag mtu room sta skb hdrlen =
      finishDefrag skb.moreFrag
        ({ sta with rxfrag := some (held.append hdrlen skb) }.free skb) := by
  have kept : matchRxfrag sta skb = sta := by
    unfold matchRxfrag
    rw [found]
    exact if_pos follows
  have occupied : ¬ (skb.moreFrag = false ∧ skb.fragno = 0 ∧ sta.rxfrag.isNone) := by
    rintro ⟨-, -, empty⟩
    rw [found] at empty
    cases empty
  unfold wifiMacDefrag
  rw [if_neg occupied]
  simp only [kept, found]
  rw [if_neg (Nat.not_lt.mpr long)]

/-- Nothing comes of later fragments when nothing is held. -/
theorem run_lost (mtu : Nat) (rest : List Passed) (later : ∀ passed ∈ rest, passed.1.skb.fragno ≠ 0)
    (empty : state.sta.rxfrag = none) :
    (Machine.run (defragStep mtu) state (rest.map Passed.event)).msdus = state.msdus := by
  induction rest generalizing state with
  | nil => rfl
  | cons first rest induction =>
    have apart : ∀ held, state.sta.rxfrag = some held → ¬ Follows held first.1.skb := by
      intro held found
      rw [empty] at found
      cases found
    obtain ⟨still, same⟩ := defragStep_lost mtu
      (later first List.mem_cons_self) apart
    rw [List.map_cons, Machine.run_cons, ← same]
    exact induction (fun passed member => later passed (List.mem_cons_of_mem first member)) still

/-- What is held keeps its body, and the appended fragment's body comes behind it. -/
theorem append_drop (held skb : RxSkb) (header : wifiFrameLen ≤ hdrlen)
    (long : hdrlen ≤ held.data.length) :
    (held.append hdrlen skb).data.drop hdrlen = held.data.drop hdrlen ++ skb.data.drop hdrlen := by
  have whole := held.long
  have two := skb.iSeq_length
  simp only [wifiFrameLen] at header whole
  rw [RxSkb.append_data, List.drop_append_of_le_length]
  · rw [Bytes.drop_write (by omega) (by omega)]
  · rw [Bytes.length_write (by omega)]
    exact long

private theorem append_length (held skb : RxSkb) (hdrlen : Nat) :
    (held.append hdrlen skb).data.length = held.data.length + (skb.data.length - hdrlen) := by
  have whole := held.long
  have two := skb.iSeq_length
  simp only [wifiFrameLen] at whole
  rw [RxSkb.append_data, List.length_append, Bytes.length_write (by omega), List.length_drop]

/-- The bytes that fragments add. -/
def totalBody (rest : List Passed) : List UInt8 := rest.flatMap fun passed => passed.1.body

/-- Fragments that continue what is held are put together with it when they fit behind it, the
header of the last one included, and are lost with it otherwise. -/
theorem run_continues (mtu : Nat) (rest : List Passed) (some_ : rest ≠ [])
    (continues : Continues hdrlen held rest) (found : state.sta.rxfrag = some held)
    (header : wifiFrameLen ≤ hdrlen) (long : hdrlen ≤ held.data.length) :
    (Machine.run (defragStep mtu) state (rest.map Passed.event)).msdus.map
        (fun msdu => msdu.data.drop hdrlen) =
      state.msdus.map (fun msdu => msdu.data.drop hdrlen) ++
        if hdrlen + (totalBody rest).length ≤ held.tailroom then
          [held.data.drop hdrlen ++ totalBody rest] else [] := by
  induction rest generalizing state held with
  | nil => exact absurd rfl some_
  | cons first rest induction =>
    have numbers := continues.later
    obtain ⟨sized, filled, seq, next, receiver, transmitter, more, others⟩ := continues
    have body : first.1.body = first.1.skb.data.drop hdrlen := by
      rw [Fragment.body, sized]
    have bodyLength : first.1.body.length = first.1.skb.pktlen - hdrlen := by
      rw [body, List.length_drop, RxSkb.pktlen]
    have split : totalBody (first :: rest) = first.1.body ++ totalBody rest := rfl
    rw [List.map_cons, Machine.run_cons]
    by_cases room : first.1.skb.pktlen ≤ held.tailroom
    · have follows : Follows held first.1.skb := ⟨seq, next, receiver, transmitter, room⟩
      have merged := wifiMacDefrag_follows mtu first.2 state.sta found follows filled
      have left : (held.append hdrlen first.1.skb).tailroom =
          held.tailroom - (first.1.skb.pktlen - hdrlen) := rfl
      have stepped : defragStep mtu state first.event =
          ⟨(finishDefrag first.1.skb.moreFrag
              ({ state.sta with rxfrag := some (held.append hdrlen first.1.skb) }.free
                first.1.skb)).2,
            state.passed ++ [first.1],
            state.msdus ++ (finishDefrag first.1.skb.moreFrag
              ({ state.sta with rxfrag := some (held.append hdrlen first.1.skb) }.free
                first.1.skb)).1.toList⟩ := by
        simp only [Passed.event, defragStep, sized, merged]
      cases rest with
      | nil =>
        have final : first.1.skb.moreFrag = false := more
        have fits : hdrlen + (totalBody [first]).length ≤ held.tailroom := by
          simp only [totalBody, List.flatMap_cons, List.flatMap_nil, List.append_nil, bodyLength]
          omega
        rw [if_pos fits, List.map_nil, Machine.run_nil, stepped, final]
        simp [finishDefrag, FragStation.free, append_drop held first.1.skb header long, totalBody,
          body]
      | cons second others_ =>
        have final : first.1.skb.moreFrag = true := more
        have kept : (defragStep mtu state first.event).sta.rxfrag =
            some (held.append hdrlen first.1.skb) := by
          rw [stepped, final]
          rfl
        have same : (defragStep mtu state first.event).msdus = state.msdus := by
          rw [stepped, final]
          exact List.append_nil _
        have longer : hdrlen ≤ (held.append hdrlen first.1.skb).data.length := by
          rw [append_length]
          exact Nat.le_trans long (Nat.le_add_right _ _)
        rw [induction (List.cons_ne_nil second others_) others kept longer, same, left,
          append_drop held first.1.skb header long, split, List.length_append, bodyLength, body,
          List.append_assoc]
        congr 1
        have equal : (hdrlen + (totalBody (second :: others_)).length ≤
            held.tailroom - (first.1.skb.pktlen - hdrlen)) ↔
            (hdrlen + (first.1.skb.pktlen - hdrlen + (totalBody (second :: others_)).length) ≤
              held.tailroom) := by omega
        simp only [equal]
    · have apart : ∀ other, state.sta.rxfrag = some other → ¬ Follows other first.1.skb := by
        intro other same follows
        rw [found] at same
        cases same
        exact room follows.2.2.2.2
      obtain ⟨empty, same⟩ := defragStep_lost mtu
        (numbers first List.mem_cons_self) apart
      have tooLong : ¬ hdrlen + (totalBody (first :: rest)).length ≤ held.tailroom := by
        rw [split, List.length_append, bodyLength]
        omega
      have later : ∀ passed ∈ rest, passed.1.skb.fragno ≠ 0 := fun passed member =>
        numbers passed (List.mem_cons_of_mem first member)
      rw [if_neg tooLong, List.append_nil, run_lost mtu rest later empty, same]

private theorem Continues.of_data {rest : List Passed} {other : RxSkb}
    (continues : Continues hdrlen held rest) (same : other.data = held.data) :
    Continues hdrlen other rest := by
  induction rest generalizing held other with
  | nil => trivial
  | cons first rest induction =>
    obtain ⟨sized, filled, seq, next, receiver, transmitter, more, others⟩ := continues
    have control : other.iSeqNum = held.iSeqNum := by
      simp only [RxSkb.iSeqNum, RxSkb.iSeq, same]
    refine ⟨sized, filled, ?_, ?_, ?_, ?_, more, ?_⟩
    · rw [seq, RxSkb.rxseq, RxSkb.rxseq, control]
    · rw [next, RxSkb.fragno, RxSkb.fragno, control]
    · rw [receiver, RxSkb.addr1, RxSkb.addr1, same]
    · rw [transmitter, RxSkb.addr2, RxSkb.addr2, same]
    · refine induction others ?_
      rw [RxSkb.append_data, RxSkb.append_data, same]

/-- The room behind the first fragment, in its own buffer or in a copy. -/
def firstRoom (mtu : Nat) (first : Passed) : Option Nat :=
  if first.1.skb.endOffset < mtu + first.1.hdrlen then first.2.map Prod.fst
  else some first.1.skb.tailroom

/-- The first fragment is held where there is room behind it, if anywhere. -/
theorem defragStep_first (mtu : Nat) (state : DefragRun) (empty : state.sta.rxfrag = none)
    (zero : passed.1.skb.fragno = 0) (more : passed.1.skb.moreFrag = true) :
    (defragStep mtu state passed.event).msdus = state.msdus ∧
      ((firstRoom mtu passed = none ∧ (defragStep mtu state passed.event).sta.rxfrag = none) ∨
      ∃ held, firstRoom mtu passed = some held.tailroom ∧ held.data = passed.1.skb.data ∧
        (defragStep mtu state passed.event).sta.rxfrag = some held) := by
  have started : ¬ (passed.1.skb.moreFrag = false ∧ passed.1.skb.fragno = 0 ∧
      state.sta.rxfrag.isNone) := by
    rintro ⟨final, -⟩
    rw [more] at final
    cases final
  have kept : matchRxfrag state.sta passed.1.skb = state.sta := by
    unfold matchRxfrag
    rw [empty]
  have held : wifiMacDefrag mtu passed.2 state.sta passed.1.skb passed.1.hdrlen =
      finishDefrag true (holdFirst mtu passed.2 state.sta passed.1.skb passed.1.hdrlen) := by
    unfold wifiMacDefrag
    rw [if_neg started]
    simp only [kept, empty, zero, ↓reduceIte, more]
  simp only [Passed.event, defragStep, held]
  refine ⟨List.append_nil _, ?_⟩
  unfold firstRoom holdFirst finishDefrag
  simp only [more, ↓reduceIte, if_neg (not_not.mpr passed.1.skb.linear)]
  by_cases small : passed.1.skb.endOffset < mtu + passed.1.hdrlen
  · simp only [small, ↓reduceIte]
    cases passed.2 with
    | none => exact .inl ⟨rfl, rfl⟩
    | some room =>
      exact .inr ⟨{ passed.1.skb with
        id := .copied state.sta.copies, tailroom := room.1, endOffset := room.2 }, rfl, rfl, rfl⟩
  · simp only [small, ↓reduceIte]
    exact .inr ⟨passed.1.skb, rfl, rfl, rfl⟩

/-- Fragments are put together when the first one's buffer has room for the others. -/
theorem run_fragments (mtu : Nat) (first : Passed) (rest : List Passed) (some_ : rest ≠ [])
    (zero : first.1.skb.fragno = 0) (more : first.1.skb.moreFrag = true)
    (header : wifiFrameLen ≤ hdrlen) (long : hdrlen ≤ first.1.skb.data.length)
    (continues : Continues hdrlen first.1.skb rest) :
    (Machine.run (defragStep mtu) DefragRun.initial
        ((first :: rest).map Passed.event)).msdus.map (fun msdu => msdu.data.drop hdrlen) =
      if ∃ room, firstRoom mtu first = some room ∧ hdrlen + (totalBody rest).length ≤ room then
        [first.1.skb.data.drop hdrlen ++ totalBody rest] else [] := by
  obtain ⟨same, outcome⟩ := defragStep_first mtu DefragRun.initial rfl zero more
  rw [List.map_cons, Machine.run_cons]
  rcases outcome with ⟨none_, empty⟩ | ⟨held, room, data, found⟩
  · rw [run_lost mtu rest continues.later empty, same, if_neg]
    · rfl
    · rintro ⟨room, found, -⟩
      rw [none_] at found
      cases found
  · rw [run_continues mtu rest some_ (continues.of_data data) found header (data ▸ long), same,
      room, data]
    simp only [Option.some.injEq, exists_eq_left']
    rfl

end Steps

end W522a.Mac
