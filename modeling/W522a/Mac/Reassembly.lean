import W522a.Mac.Defrag
import Mathlib.Data.List.Perm.Basic

/-!
Soundness of the defragmentation: what is handed up is one frame or the fragments of one MSDU in
order, and every buffer that is passed in is used up once.
-/

namespace W522a.Mac

open Bytes (slice write)

namespace RxSkb

variable (skb fragment : RxSkb) (hdrlen : Nat)

theorem iSeq_length : skb.iSeq.length = 2 := by
  have header := skb.long
  simp only [wifiFrameLen] at header
  exact Bytes.length_slice (by omega)

theorem append_data : (skb.append hdrlen fragment).data =
    write skb.data 22 fragment.iSeq ++ fragment.data.drop hdrlen := rfl

theorem append_slice {start count : Nat} (before : start + count ≤ 22) :
    slice (skb.append hdrlen fragment).data start count = slice skb.data start count := by
  have header := skb.long
  have two := fragment.iSeq_length
  simp only [wifiFrameLen] at header
  rw [append_data, Bytes.slice_append_left, Bytes.slice_write_before (by omega) before]
  rw [Bytes.length_write (by omega)]
  omega

@[simp] theorem append_addr1 : (skb.append hdrlen fragment).addr1 = skb.addr1 :=
  append_slice skb fragment hdrlen (by omega)

@[simp] theorem append_addr2 : (skb.append hdrlen fragment).addr2 = skb.addr2 :=
  append_slice skb fragment hdrlen (by omega)

@[simp] theorem append_iSeq : (skb.append hdrlen fragment).iSeq = fragment.iSeq := by
  have header := skb.long
  have two := fragment.iSeq_length
  simp only [wifiFrameLen] at header
  rw [iSeq, append_data, Bytes.slice_append_left]
  · nth_rewrite 1 [← two]
    exact Bytes.slice_write_same (by omega)
  · rw [Bytes.length_write (by omega)]
    omega

@[simp] theorem append_rxseq : (skb.append hdrlen fragment).rxseq = fragment.rxseq := by
  simp only [rxseq, iSeqNum, append_iSeq]

@[simp] theorem append_fragno : (skb.append hdrlen fragment).fragno = fragment.fragno := by
  simp only [fragno, iSeqNum, append_iSeq]

@[simp] theorem append_id : (skb.append hdrlen fragment).id = skb.id := rfl

@[simp] theorem clearTkipMicHw_id : skb.clearTkipMicHw.id = skb.id := rfl

@[simp] theorem clearTkipMicHw_data : skb.clearTkipMicHw.data = skb.data := rfl

end RxSkb

namespace FragStation

variable (sta : FragStation)

@[simp] theorem dropRxfrag_rxfrag : sta.dropRxfrag.rxfrag = none := by
  unfold dropRxfrag
  split
  · assumption
  · rfl

@[simp] theorem dropRxfrag_copies : sta.dropRxfrag.copies = sta.copies := by
  unfold dropRxfrag
  split <;> rfl

@[simp] theorem dropRxfrag_freed :
    sta.dropRxfrag.freed = sta.freed ++ sta.rxfrag.toList.map RxSkb.id := by
  unfold dropRxfrag
  split
  · rename_i empty
    rw [empty]
    exact (List.append_nil _).symm
  · rename_i held found
    rw [found]
    rfl

private theorem dropRxfrag_of_none (empty : sta.rxfrag = none) : sta.dropRxfrag = sta := by
  unfold dropRxfrag
  rw [empty]

end FragStation

/-- What one call of `wifi_mac_defrag` can do. -/
inductive Defragged (sta : FragStation) (fragment : Fragment) :
    Option RxSkb → FragStation → Prop where
  | whole (msdu : RxSkb) (unfragmented : fragment.skb.Unfragmented)
      (same : msdu = fragment.skb ∨ msdu = fragment.skb.clearTkipMicHw) :
      Defragged sta fragment (some msdu) sta.dropRxfrag
  | first (more : fragment.skb.moreFrag = true) (zero : fragment.skb.fragno = 0) :
      Defragged sta fragment none { sta.dropRxfrag with rxfrag := some fragment.skb }
  | copied (room : Option (Nat × Nat)) (more : fragment.skb.moreFrag = true)
      (zero : fragment.skb.fragno = 0) :
      Defragged sta fragment none
        (({ sta.dropRxfrag with rxfrag := some fragment.skb }.copyRxfrag fragment.skb room).free
          fragment.skb)
  | stray (later : fragment.skb.fragno ≠ 0) :
      Defragged sta fragment none (sta.dropRxfrag.free fragment.skb)
  | short (held : RxSkb) (found : sta.rxfrag = some held) (follows : Follows held fragment.skb) :
      Defragged sta fragment none (sta.free fragment.skb)
  | merged (held : RxSkb) (found : sta.rxfrag = some held) (follows : Follows held fragment.skb)
      (more : fragment.skb.moreFrag = true) :
      Defragged sta fragment none
        ({ sta with rxfrag := some (held.append fragment.hdrlen fragment.skb) }.free fragment.skb)
  | last (held : RxSkb) (found : sta.rxfrag = some held) (follows : Follows held fragment.skb)
      (final : fragment.skb.moreFrag = false) :
      Defragged sta fragment
        (some (held.append fragment.hdrlen fragment.skb).clearTkipMicHw)
        ({ sta with rxfrag := none }.free fragment.skb)

section Outcome

variable {mtu : Nat} {room : Option (Nat × Nat)} {sta : FragStation} {fragment : Fragment}

/-- With nothing held, or with something that does not fit the frame. -/
theorem wifiMacDefrag_alone (mtu : Nat) (room : Option (Nat × Nat))
    (alone : ∀ held, sta.rxfrag = some held → ¬ Follows held fragment.skb) :
    Defragged sta fragment (wifiMacDefrag mtu room sta fragment.skb fragment.hdrlen).1
      (wifiMacDefrag mtu room sta fragment.skb fragment.hdrlen).2 := by
  have cleared : matchRxfrag sta fragment.skb = sta.dropRxfrag := by
    unfold matchRxfrag
    cases found : sta.rxfrag with
    | none => exact (sta.dropRxfrag_of_none found).symm
    | some held => exact if_neg (alone held found)
  unfold wifiMacDefrag
  simp only [cleared, FragStation.dropRxfrag_rxfrag]
  by_cases plain : fragment.skb.moreFrag = false ∧ fragment.skb.fragno = 0 ∧ sta.rxfrag.isNone
  · rw [if_pos plain]
    obtain ⟨final, zero, empty⟩ := plain
    have kept : Defragged sta fragment (some fragment.skb) sta.dropRxfrag :=
      Defragged.whole fragment.skb ⟨final, zero⟩ (Or.inl rfl)
    rw [sta.dropRxfrag_of_none (Option.isNone_iff_eq_none.mp empty)] at kept
    exact kept
  rw [if_neg plain]
  by_cases zero : fragment.skb.fragno = 0
  · rw [if_pos zero]
    unfold holdFirst finishDefrag
    cases more : fragment.skb.moreFrag with
    | false =>
      have restored : { sta.dropRxfrag with rxfrag := none } = sta.dropRxfrag := by
        rw [← sta.dropRxfrag_rxfrag]
      simp only [Bool.false_eq_true, if_false, Option.map_some, restored]
      exact Defragged.whole _ ⟨more, zero⟩ (Or.inr rfl)
    | true =>
      simp only [if_true]
      rw [if_neg (not_not.mpr fragment.skb.linear)]
      by_cases small : fragment.skb.endOffset < mtu + fragment.hdrlen
      · rw [if_pos small]
        exact Defragged.copied room more zero
      · rw [if_neg small]
        exact Defragged.first more zero
  · rw [if_neg zero]
    have dropped : ({ sta.dropRxfrag.free fragment.skb with rxfrag := none } : FragStation) =
        sta.dropRxfrag.free fragment.skb := by
      rw [FragStation.free, sta.dropRxfrag_rxfrag]
    have empty : (sta.dropRxfrag.free fragment.skb).rxfrag = none := sta.dropRxfrag_rxfrag
    unfold finishDefrag
    rw [dropped, empty]
    split <;> exact Defragged.stray zero

theorem wifiMacDefrag_spec (mtu : Nat) (room : Option (Nat × Nat)) (sta : FragStation)
    (fragment : Fragment) :
    Defragged sta fragment (wifiMacDefrag mtu room sta fragment.skb fragment.hdrlen).1
      (wifiMacDefrag mtu room sta fragment.skb fragment.hdrlen).2 := by
  by_cases alone : ∀ held, sta.rxfrag = some held → ¬ Follows held fragment.skb
  · exact wifiMacDefrag_alone mtu room alone
  obtain ⟨held, found, follows⟩ :
      ∃ held, sta.rxfrag = some held ∧ Follows held fragment.skb := by
    by_contra nothing
    exact alone fun held found follows => nothing ⟨held, found, follows⟩
  have kept : matchRxfrag sta fragment.skb = sta := by
    unfold matchRxfrag
    rw [found]
    exact if_pos follows
  have occupied : ¬ (fragment.skb.moreFrag = false ∧ fragment.skb.fragno = 0 ∧
      sta.rxfrag.isNone) := by
    rintro ⟨-, -, empty⟩
    rw [found] at empty
    cases empty
  unfold wifiMacDefrag
  rw [if_neg occupied]
  simp only [kept, found]
  by_cases short : fragment.skb.pktlen < fragment.hdrlen
  · rw [if_pos short]
    exact Defragged.short held found follows
  rw [if_neg short]
  unfold finishDefrag
  cases more : fragment.skb.moreFrag with
  | true => exact Defragged.merged held found follows more
  | false => exact Defragged.last held found follows more

end Outcome

section Joined

private theorem joined_two (first second : Fragment) (rest : List Fragment) :
    joined (first :: second :: rest) =
      write first.skb.data 22 ((second :: rest).getLast (List.cons_ne_nil _ _)).skb.iSeq ++
        (second :: rest).flatMap fun fragment => fragment.skb.data.drop fragment.hdrlen := rfl

/-- One more fragment: its body goes behind, its sequence control into the header. -/
theorem joined_snoc {fragments : List Fragment} (nonempty : fragments ≠ []) (next : Fragment) :
    joined (fragments ++ [next]) =
      write (joined fragments) 22 next.skb.iSeq ++ next.skb.data.drop next.hdrlen := by
  cases fragments with
  | nil => exact absurd rfl nonempty
  | cons first rest =>
    have header := first.skb.long
    simp only [wifiFrameLen] at header
    cases rest with
    | nil =>
      rw [List.singleton_append, joined_two]
      simp [joined]
    | cons second rest =>
      obtain ⟨last, last_eq⟩ : ∃ last, last = (second :: rest).getLast (List.cons_ne_nil _ _) :=
        ⟨_, rfl⟩
      have two := last.skb.iSeq_length
      have twoNext := next.skb.iSeq_length
      have written : (write first.skb.data 22 last.skb.iSeq).length = first.skb.data.length :=
        Bytes.length_write (by omega)
      rw [List.cons_append, List.cons_append, joined_two, joined_two, ← last_eq,
        Bytes.write_append_left (by omega), Bytes.write_write (by omega) (by omega)]
      simp [List.append_assoc]

end Joined

/-- The held buffer is the fragments so far, all of which say that more follow. -/
structure Holds (passed : List Fragment) (held : RxSkb) (fragments : List Fragment) : Prop where
  nonempty : fragments ≠ []
  taken : fragments.Sublist passed
  numbered : fragments.map (fun fragment => fragment.skb.fragno) = List.range fragments.length
  same : ∀ fragment ∈ fragments, fragment.skb.rxseq = held.rxseq ∧
    fragment.skb.addr1 = held.addr1 ∧ fragment.skb.addr2 = held.addr2
  number : held.fragno + 1 = fragments.length
  more : ∀ fragment ∈ fragments, fragment.skb.moreFrag = true
  bytes : held.data = joined fragments

namespace Holds

variable {passed fragments : List Fragment} {held : RxSkb} {fragment : Fragment}

theorem passed_more (holds : Holds passed held fragments) (more : List Fragment) :
    Holds (passed ++ more) held fragments :=
  { holds with taken := holds.taken.trans (List.sublist_append_left passed more) }

/-- A first fragment that is held, or a copy of it. -/
theorem first {skb : RxSkb} (more : fragment.skb.moreFrag = true) (zero : fragment.skb.fragno = 0)
    (bytes : skb.data = fragment.skb.data) : Holds (passed ++ [fragment]) skb [fragment] where
  nonempty := List.cons_ne_nil _ _
  taken := List.sublist_append_right passed [fragment]
  numbered := by simp [zero]
  same := by
    intro other found
    rw [List.mem_singleton.mp found]
    simp [RxSkb.rxseq, RxSkb.iSeqNum, RxSkb.iSeq, RxSkb.addr1, RxSkb.addr2, bytes]
  number := by
    have same : skb.fragno = fragment.skb.fragno := by
      simp [RxSkb.fragno, RxSkb.iSeqNum, RxSkb.iSeq, bytes]
    rw [same, zero]
    rfl
  more := by
    intro other found
    rw [List.mem_singleton.mp found]
    exact more
  bytes := bytes

theorem inOrder (holds : Holds passed held fragments) (follows : Follows held fragment.skb) :
    InOrder (fragments ++ [fragment]) := by
  obtain ⟨sequence, number, receiver, transmitter, -⟩ := follows
  have toHeld : ∀ other ∈ fragments ++ [fragment], other.skb.rxseq = held.rxseq ∧
      other.skb.addr1 = held.addr1 ∧ other.skb.addr2 = held.addr2 := by
    intro other found
    rcases List.mem_append.mp found with early | late
    · exact holds.same other early
    · rw [List.mem_singleton.mp late]
      exact ⟨sequence, receiver, transmitter⟩
  constructor
  · rw [List.map_append, holds.numbered, List.length_append, List.length_singleton,
      List.range_succ, List.map_singleton, number, holds.number]
  · intro one foundOne two foundTwo
    obtain ⟨sequenceOne, receiverOne, transmitterOne⟩ := toHeld one foundOne
    obtain ⟨sequenceTwo, receiverTwo, transmitterTwo⟩ := toHeld two foundTwo
    exact ⟨sequenceOne.trans sequenceTwo.symm, receiverOne.trans receiverTwo.symm,
      transmitterOne.trans transmitterTwo.symm⟩

theorem taken_snoc (holds : Holds passed held fragments) :
    (fragments ++ [fragment]).Sublist (passed ++ [fragment]) :=
  List.Sublist.append holds.taken (List.Sublist.refl [fragment])

theorem append_bytes (holds : Holds passed held fragments) :
    (held.append fragment.hdrlen fragment.skb).data = joined (fragments ++ [fragment]) := by
  rw [RxSkb.append_data, joined_snoc holds.nonempty, holds.bytes]

private theorem append (holds : Holds passed held fragments) (follows : Follows held fragment.skb)
    (more : fragment.skb.moreFrag = true) :
    Holds (passed ++ [fragment]) (held.append fragment.hdrlen fragment.skb)
      (fragments ++ [fragment]) where
  nonempty := List.append_ne_nil_of_right_ne_nil _ (List.cons_ne_nil _ _)
  taken := holds.taken_snoc
  numbered := (holds.inOrder follows).numbered
  same := by
    intro other found
    obtain ⟨sequence, -, receiver, transmitter, -⟩ := follows
    rw [RxSkb.append_rxseq, RxSkb.append_addr1, RxSkb.append_addr2]
    rcases List.mem_append.mp found with early | late
    · obtain ⟨same, receiverSame, transmitterSame⟩ := holds.same other early
      exact ⟨same.trans sequence.symm, receiverSame, transmitterSame⟩
    · rw [List.mem_singleton.mp late]
      exact ⟨rfl, receiver, transmitter⟩
  number := by
    rw [RxSkb.append_fragno, follows.2.1, holds.number, List.length_append]
    rfl
  more := by
    intro other found
    rcases List.mem_append.mp found with early | late
    · exact holds.more other early
    · rw [List.mem_singleton.mp late]
      exact more
  bytes := holds.append_bytes

end Holds

theorem HandedUp.passed_more {passed : List Fragment} {msdu : RxSkb}
    (handed : HandedUp passed msdu) (more : List Fragment) : HandedUp (passed ++ more) msdu := by
  rcases handed with ⟨fragment, found, whole, bytes⟩ | ⟨fragments, last, taken, parts⟩
  · exact Or.inl ⟨fragment, List.mem_append_left more found, whole, bytes⟩
  · exact Or.inr ⟨fragments, last, taken.trans (List.sublist_append_left passed more), parts⟩

/-- The invariant of a station's fragments. -/
structure DefragInv (state : DefragRun) : Prop where
  held : ∀ held, state.sta.rxfrag = some held → ∃ fragments, Holds state.passed held fragments
  handed : ∀ msdu ∈ state.msdus, HandedUp state.passed msdu
  ledger : state.taken.Perm state.used

theorem DefragInv.initial : DefragInv DefragRun.initial where
  held := by
    intro held found
    cases found
  handed := by
    intro msdu found
    cases found
  ledger := List.Perm.refl _

section Step

variable {state : DefragRun} {fragment : Fragment} {msdu : Option RxSkb} {sta : FragStation}

private theorem held_step (inv : DefragInv state)
    (outcome : Defragged state.sta fragment msdu sta) :
    ∀ held, sta.rxfrag = some held →
      ∃ fragments, Holds (state.passed ++ [fragment]) held fragments := by
  intro held found
  cases outcome with
  | whole msdu unfragmented same => simp at found
  | first more zero =>
    rw [← Option.some.inj found]
    exact ⟨[fragment], Holds.first more zero rfl⟩
  | copied room more zero =>
    cases room with
    | none => cases found
    | some room =>
      rw [← Option.some.inj found]
      exact ⟨[fragment], Holds.first more zero rfl⟩
  | stray later =>
    rw [FragStation.free, FragStation.dropRxfrag_rxfrag] at found
    cases found
  | short before foundBefore follows =>
    obtain ⟨fragments, holds⟩ := inv.held held found
    exact ⟨fragments, holds.passed_more [fragment]⟩
  | merged before foundBefore follows more =>
    obtain ⟨fragments, holds⟩ := inv.held before foundBefore
    rw [← Option.some.inj found]
    exact ⟨fragments ++ [fragment], holds.append follows more⟩
  | last before foundBefore follows final => cases found

private theorem handed_step (inv : DefragInv state)
    (outcome : Defragged state.sta fragment msdu sta) :
    ∀ handed ∈ msdu, HandedUp (state.passed ++ [fragment]) handed := by
  intro handed found
  cases outcome with
  | whole msdu unfragmented same =>
    rw [← Option.some.inj found]
    refine Or.inl ⟨fragment, List.mem_append_right _ (List.mem_singleton.mpr rfl), unfragmented, ?_⟩
    rcases same with same | same <;> rw [same]
    rfl
  | last held foundHeld follows final =>
    obtain ⟨fragments, holds⟩ := inv.held held foundHeld
    rw [← Option.some.inj found]
    exact Or.inr ⟨fragments, fragment, holds.taken_snoc, holds.inOrder follows, holds.more, final,
      holds.append_bytes⟩
  | first => cases found
  | copied => cases found
  | stray => cases found
  | short => cases found
  | merged => cases found

/-- Every buffer a call gets hold of is handed up, freed or held after it. -/
theorem ledger_step (ledger : state.taken.Perm state.used)
    (outcome : Defragged state.sta fragment msdu sta) :
    (DefragRun.taken ⟨sta, state.passed ++ [fragment], state.msdus ++ msdu.toList⟩).Perm
      (DefragRun.used ⟨sta, state.passed ++ [fragment], state.msdus ++ msdu.toList⟩) := by
  rw [List.perm_iff_count] at ledger ⊢
  intro id
  have before := ledger id
  simp only [DefragRun.taken, DefragRun.used, List.count_append, List.map_append] at before ⊢
  cases outcome with
  | whole msdu unfragmented same =>
    have kept : msdu.id = fragment.skb.id := by
      rcases same with same | same <;> rw [same]
      rfl
    simp [kept]
    omega
  | first more zero =>
    simp
    omega
  | copied room more zero =>
    cases room with
    | none =>
      simp [FragStation.copyRxfrag, FragStation.free]
      omega
    | some room =>
      simp [FragStation.copyRxfrag, FragStation.free, List.range_succ]
      omega
  | stray later =>
    simp [FragStation.free]
    omega
  | short held found follows =>
    simp [FragStation.free, found] at before ⊢
    omega
  | merged held found follows more =>
    simp [FragStation.free, found] at before ⊢
    omega
  | last held found follows final =>
    simp [FragStation.free, found] at before ⊢
    omega

private theorem ledger_drop (ledger : state.taken.Perm state.used) :
    (DefragRun.taken { state with sta := state.sta.dropRxfrag }).Perm
      (DefragRun.used { state with sta := state.sta.dropRxfrag }) := by
  simpa [DefragRun.taken, DefragRun.used] using ledger

private theorem DefragInv.step (mtu : Nat) (inv : DefragInv state) (event : DefragEvent) :
    DefragInv (defragStep mtu state event) := by
  have dropped : DefragInv { state with sta := state.sta.dropRxfrag } := by
    refine ⟨fun held found => ?_, inv.handed, ledger_drop inv.ledger⟩
    rw [FragStation.dropRxfrag_rxfrag] at found
    cases found
  cases event with
  | input fragment room =>
    have outcome := wifiMacDefrag_spec mtu room state.sta fragment
    refine ⟨held_step inv outcome, fun handed found => ?_, ledger_step inv.ledger outcome⟩
    rcases List.mem_append.mp found with early | late
    · exact (inv.handed handed early).passed_more [fragment]
    · exact handed_step inv outcome handed (Option.mem_toList.mp late)
  | timeout => exact dropped
  | cleanup => exact dropped

/-- A whole MSDU is handed up at once, whatever is held. -/
theorem unfragmented_step (mtu : Nat) (room : Option (Nat × Nat))
    (unfragmented : fragment.skb.Unfragmented) :
    ∃ msdu, (defragStep mtu state (.input fragment room)).msdus = state.msdus ++ [msdu] ∧
      msdu.id = fragment.skb.id ∧ msdu.data = fragment.skb.data := by
  have outcome := wifiMacDefrag_spec mtu room state.sta fragment
  have stepped : (defragStep mtu state (.input fragment room)).msdus = state.msdus ++
      (wifiMacDefrag mtu room state.sta fragment.skb fragment.hdrlen).1.toList := rfl
  rw [stepped]
  obtain ⟨final, zero⟩ := unfragmented
  have alone : ∀ held, ¬ Follows held fragment.skb := by
    intro held follows
    have number := follows.2.1
    omega
  obtain ⟨msdu, sta, result⟩ : ∃ msdu sta,
      wifiMacDefrag mtu room state.sta fragment.skb fragment.hdrlen = (msdu, sta) := ⟨_, _, rfl⟩
  rw [result] at outcome ⊢
  simp only at outcome ⊢
  cases outcome with
  | whole msdu unfragmented same =>
    refine ⟨msdu, rfl, ?_⟩
    rcases same with same | same <;> rw [same]
    · exact ⟨rfl, rfl⟩
    · exact ⟨rfl, rfl⟩
  | first more => exact absurd (final.symm.trans more) Bool.false_ne_true
  | copied room more => exact absurd (final.symm.trans more) Bool.false_ne_true
  | stray later => exact absurd zero later
  | short held found follows => exact absurd follows (alone held)
  | merged held found follows => exact absurd follows (alone held)
  | last held found follows => exact absurd follows (alone held)

end Step

/-- Whatever arrives, times out and is cleaned up in whatever order: what is handed up is one frame
or the fragments of one MSDU in order, a whole MSDU is handed up at once and unchanged, and every
buffer is handed up, freed or held exactly once. -/
theorem defrag_sound (mtu : Nat) (events : List DefragEvent) :
    let final := Machine.run (defragStep mtu) DefragRun.initial events
    (∀ msdu ∈ final.msdus, HandedUp final.passed msdu) ∧
    (∀ fragment room, fragment.skb.Unfragmented →
      ∃ msdu, (defragStep mtu final (.input fragment room)).msdus = final.msdus ++ [msdu] ∧
        msdu.id = fragment.skb.id ∧ msdu.data = fragment.skb.data) ∧
    final.taken.Perm final.used := by
  have inv : DefragInv (Machine.run (defragStep mtu) DefragRun.initial events) :=
    Machine.run_invariant (fun state event inv => inv.step mtu event) events DefragInv.initial
  exact ⟨inv.handed, fun fragment room whole => unfragmented_step mtu room whole, inv.ledger⟩

end W522a.Mac
