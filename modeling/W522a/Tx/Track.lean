import W522a.Tx.Aggregate

/-!
The scoreboard's window as a record of the frames in flight: recording a frame adds it, and a
completion takes it out and slides the window.
-/

namespace W522a.Tx

open Function (update)

/-- The place of a sequence number in a window. -/
def BaWindow.index (win : BaWindow) (seqnum : Nat) : Nat := drvBaIndex win.seqStart seqnum

def BaWindow.slotAt (win : BaWindow) (offset : Nat) : Option Nat :=
  Ring.entry drvTidMaxBufs win.txDesc win.bawHead offset

/-- The window records exactly `members`, each at the place of its number, and lies within the
numbers given out. -/
structure Tracks (win : BaWindow) (members : List Member) : Prop where
  headInside : win.bawHead < 128
  tailInside : win.bawTail < 128
  sizeLow : 1 ≤ win.bawSize
  sizeHigh : win.bawSize ≤ 64
  startInside : win.seqStart < 4096
  nextInside : win.seqNext < 4096
  bounded : win.span ≤ win.bawSize
  ordered : win.span ≤ win.index win.seqNext
  numbered : ∀ member ∈ members, member.seqnum < 4096
  held : ∀ member ∈ members,
    win.index member.seqnum < win.span ∧ win.slotAt (win.index member.seqnum) = some member.id
  owned : ∀ offset, offset < 128 → ∀ id, win.slotAt offset = some id →
    ∃ member ∈ members, member.id = id ∧ win.index member.seqnum = offset
  distinct : members.Pairwise fun first second => first.seqnum ≠ second.seqnum

/-- A window that spans anything has a frame in flight. -/
def Opens (win : BaWindow) (members : List Member) : Prop := win.span ≠ 0 → members ≠ []

section Arithmetic

theorem drvBaIndex_inj {start first second : Nat} (firstInside : first < 4096)
    (secondInside : second < 4096) (same : drvBaIndex start first = drvBaIndex start second) :
    first = second := by
  simp only [drvBaIndex, wifinetSeqMax] at same
  omega

theorem drvBaIndex_self (start : Nat) : drvBaIndex start start = 0 := by simp [drvBaIndex]

theorem drvBaIndex_next {start seq : Nat} (startInside : start < 4096)
    (apart : drvBaIndex start seq ≠ 0) :
    drvBaIndex (circleAddOne start 4096) seq + 1 = drvBaIndex start seq := by
  simp only [drvBaIndex, wifinetSeqMax, circleAddOne] at apart ⊢
  split <;> omega

theorem maskedSpan_eq {head tail : Nat} (headInside : head < 128) (tailInside : tail < 128) :
    (((tail : Int) - head) % (128 : Nat)).toNat = Ring.span 128 head tail := by
  rw [Ring.span_eq headInside tailInside]
  split <;> omega

theorem BaWindow.descId_eq (win : BaWindow) (offset : Nat) :
    win.descId offset = Ring.slot 128 win.bawHead offset := rfl

end Arithmetic

section Record

variable {win : BaWindow} {members : List Member} {ptxdesc : TxDesc}

/-- A window lies within its ring and within the numbers of twelve bits. -/
structure BaWindow.Inside (win : BaWindow) : Prop where
  head : win.bawHead < 128
  tail : win.bawTail < 128
  small : win.bawSize ≤ 64
  start : win.seqStart < 4096

theorem Tracks.inside (tracks : Tracks win members) : win.Inside :=
  ⟨tracks.headInside, tracks.tailInside, tracks.sizeHigh, tracks.startInside⟩

theorem BaWindow.Inside.span_eq (inside : win.Inside) :
    win.span = Ring.span 128 win.bawHead win.bawTail :=
  maskedSpan_eq inside.head inside.tail

/-- The span once a frame at `index` is recorded. -/
theorem span_drvTxAdd2baw (inside : win.Inside)
    (within : win.index ptxdesc.seqnum < win.bawSize) :
    (drvTxAdd2baw ptxdesc win).bawTail < 128 ∧
      (drvTxAdd2baw ptxdesc win).span = max win.span (win.index ptxdesc.seqnum + 1) := by
  have small := inside.small
  have headInside := inside.head
  have taken : ¬ (drvTidMaxBufs ≤ win.index ptxdesc.seqnum ∨
      win.bawSize ≠ 0 ∧ win.bawSize ≤ win.index ptxdesc.seqnum) := by
    simp only [drvTidMaxBufs]; omega
  unfold drvTxAdd2baw
  rw [BaWindow.index] at taken
  simp only [if_neg taken]
  by_cases longer : win.span ≤ drvBaIndex win.seqStart ptxdesc.seqnum
  · have slotInside : Ring.slot 128 win.bawHead (drvBaIndex win.seqStart ptxdesc.seqnum) < 128 :=
      Ring.slot_lt (by decide)
    have tail_eq : circleAddOne (win.descId (drvBaIndex win.seqStart ptxdesc.seqnum))
        drvTidMaxBufs =
        Ring.next 128 (Ring.slot 128 win.bawHead (drvBaIndex win.seqStart ptxdesc.seqnum)) :=
      circleAddOne_eq_next _ (by decide)
    rw [if_pos longer, tail_eq]
    refine ⟨Ring.next_lt slotInside, ?_⟩
    rw [BaWindow.index] at within ⊢
    have span_eq : Ring.span 128 win.bawHead
        (Ring.next 128 (Ring.slot 128 win.bawHead (drvBaIndex win.seqStart ptxdesc.seqnum))) =
        drvBaIndex win.seqStart ptxdesc.seqnum + 1 :=
      Ring.span_next_slot headInside (by omega)
    rw [← maskedSpan_eq headInside (Ring.next_lt slotInside)] at span_eq
    rw [BaWindow.span, span_eq]
    omega
  · rw [if_neg longer]
    refine ⟨inside.tail, ?_⟩
    rw [BaWindow.index]
    simp only [BaWindow.span] at longer ⊢
    omega

/-- What the ring holds once a frame is recorded. -/
theorem slotAt_drvTxAdd2baw (inside : win.Inside)
    (within : win.index ptxdesc.seqnum < win.bawSize) {offset : Nat} (bound : offset < 128) :
    (drvTxAdd2baw ptxdesc win).slotAt offset =
      if offset = win.index ptxdesc.seqnum then some ptxdesc.id else win.slotAt offset := by
  have small := inside.small
  have taken : ¬ (drvTidMaxBufs ≤ win.index ptxdesc.seqnum ∨
      win.bawSize ≠ 0 ∧ win.bawSize ≤ win.index ptxdesc.seqnum) := by
    simp only [drvTidMaxBufs]; omega
  unfold drvTxAdd2baw
  rw [BaWindow.index] at taken
  simp only [if_neg taken, BaWindow.slotAt, BaWindow.descId_eq]
  rw [BaWindow.index] at within ⊢
  split
  · rename_i same
    rw [same]
    exact Ring.entry_update_same
  · rename_i different
    exact Ring.entry_update_other inside.head (by omega) bound different

private theorem Tracks.record (tracks : Tracks win members)
    (within : win.index ptxdesc.seqnum < win.bawSize) (inside : ptxdesc.seqnum < 4096)
    (given : win.index ptxdesc.seqnum < win.index win.seqNext)
    (fresh : ∀ member ∈ members, member.seqnum ≠ ptxdesc.seqnum) :
    Tracks (drvTxAdd2baw ptxdesc win) (members ++ [ptxdesc.member]) := by
  obtain ⟨tailInside, span_eq⟩ := span_drvTxAdd2baw tracks.inside within
  have small := tracks.sizeHigh
  have index_eq : ∀ seqnum, (drvTxAdd2baw ptxdesc win).index seqnum = win.index seqnum := by
    intro seqnum
    simp [BaWindow.index]
  have apart : ∀ member ∈ members, win.index member.seqnum ≠ win.index ptxdesc.seqnum := by
    intro member found same
    exact fresh member found (drvBaIndex_inj (tracks.numbered member found) inside same)
  constructor
  case headInside => simpa using tracks.headInside
  case tailInside => exact tailInside
  case sizeLow => simpa using tracks.sizeLow
  case sizeHigh => simpa using tracks.sizeHigh
  case startInside => simpa using tracks.startInside
  case nextInside => simpa using tracks.nextInside
  case bounded =>
    have bounded := tracks.bounded
    rw [span_eq, drvTxAdd2baw_bawSize]
    omega
  case ordered =>
    have ordered := tracks.ordered
    rw [span_eq, index_eq, drvTxAdd2baw_seqNext]
    omega
  case numbered =>
    intro member found
    rcases List.mem_append.mp found with old | new
    · exact tracks.numbered member old
    · rw [List.mem_singleton.mp new]
      exact inside
  case held =>
    intro member found
    rw [index_eq, span_eq]
    rcases List.mem_append.mp found with old | new
    · obtain ⟨below, slot⟩ := tracks.held member old
      have bounded := tracks.bounded
      refine ⟨by omega, ?_⟩
      rw [slotAt_drvTxAdd2baw tracks.inside within (by omega), if_neg (apart member old)]
      exact slot
    · rw [List.mem_singleton.mp new]
      rw [TxDesc.member_seqnum, TxDesc.member_id]
      refine ⟨by omega, ?_⟩
      rw [slotAt_drvTxAdd2baw tracks.inside within (by omega), if_pos rfl]
  case owned =>
    intro offset bound id occupied
    rw [slotAt_drvTxAdd2baw tracks.inside within bound] at occupied
    split at occupied
    · rename_i same
      refine ⟨ptxdesc.member, by simp, Option.some.inj occupied, ?_⟩
      rw [index_eq, same]
      rfl
    · obtain ⟨member, found, own, place⟩ := tracks.owned offset bound id occupied
      exact ⟨member, List.mem_append_left _ found, own, by rw [index_eq, place]⟩
  case distinct =>
    refine List.pairwise_append.mpr ⟨tracks.distinct, List.pairwise_singleton _ _, ?_⟩
    intro member found other new
    rw [List.mem_singleton.mp new]
    exact fresh member found

theorem Tracks.recordAll {taken : List TxDesc} (tracks : Tracks win members)
    (within : ∀ ptxdesc ∈ taken, win.index ptxdesc.seqnum < win.bawSize ∧
      ptxdesc.seqnum < 4096 ∧ win.index ptxdesc.seqnum < win.index win.seqNext)
    (distinct : (members ++ taken.map TxDesc.member).Pairwise
      fun first second => first.seqnum ≠ second.seqnum) :
    Tracks (recordAll taken win) (members ++ taken.map TxDesc.member) := by
  induction taken generalizing win members with
  | nil => simpa using tracks
  | cons ptxdesc rest induction =>
    obtain ⟨inWindow, inside, given⟩ := within ptxdesc List.mem_cons_self
    obtain ⟨-, -, apart⟩ := List.pairwise_append.mp distinct
    have recorded := tracks.record inWindow inside given
      (fun member found => apart member found ptxdesc.member (by simp))
    have next := induction recorded
      (by
        intro other found
        simpa [BaWindow.index] using within other (List.mem_cons_of_mem _ found))
      (by simpa using distinct)
    simpa using next

theorem BaWindow.Inside.span_eq_zero_iff (inside : win.Inside) :
    win.span = 0 ↔ win.bawHead = win.bawTail := by
  rw [inside.span_eq]
  exact Ring.span_eq_zero_iff inside.head inside.tail

theorem BaWindow.Inside.slotAt_zero (inside : win.Inside) :
    win.slotAt 0 = win.txDesc win.bawHead := by
  simp [BaWindow.slotAt, Ring.entry, Ring.slot_zero inside.head]

theorem slotAt_slideHead (inside : win.Inside) {offset : Nat} (bound : offset < 128) :
    (slideHead win).slotAt offset =
      if offset = 127 then win.slotAt 0 else win.slotAt (offset + 1) := by
  have head_eq : (slideHead win).bawHead = Ring.next 128 win.bawHead :=
    circleAddOne_eq_next _ (by decide)
  rw [BaWindow.slotAt, head_eq]
  split
  · rename_i last
    rw [inside.slotAt_zero, last]
    exact congrArg win.txDesc (Ring.slot_next_last inside.head)
  · rename_i different
    exact Ring.entry_next inside.head (by simp only [drvTidMaxBufs]; omega)

theorem BaWindow.Inside.slideHead (inside : win.Inside) (apart : win.bawHead ≠ win.bawTail) :
    (slideHead win).Inside ∧ (slideHead win).span + 1 = win.span := by
  have head_eq : (Tx.slideHead win).bawHead = Ring.next 128 win.bawHead :=
    circleAddOne_eq_next _ (by decide)
  have headInside : (Tx.slideHead win).bawHead < 128 := by
    rw [head_eq]
    exact Ring.next_lt inside.head
  have startInside : (Tx.slideHead win).seqStart < 4096 := by
    have start := inside.start
    simp only [Tx.slideHead, circleAddOne, wifinetSeqMax]
    split <;> omega
  have shorter := Ring.span_next inside.head inside.tail apart
  have here : (Tx.slideHead win).span = Ring.span 128 (Tx.slideHead win).bawHead win.bawTail :=
    maskedSpan_eq headInside inside.tail
  refine ⟨⟨headInside, inside.tail, inside.small, startInside⟩, ?_⟩
  rw [inside.span_eq, ← shorter, ← head_eq, here]

theorem BaWindow.Inside.index_slideHead (inside : win.Inside) {seqnum : Nat}
    (away : win.index seqnum ≠ 0) : (Tx.slideHead win).index seqnum + 1 = win.index seqnum :=
  drvBaIndex_next inside.start away

/-- Sliding past an empty head keeps the record. -/
theorem Tracks.slideHead (tracks : Tracks win members) (apart : win.bawHead ≠ win.bawTail)
    (empty : win.txDesc win.bawHead = none) :
    Tracks (slideHead win) members ∧ (slideHead win).span + 1 = win.span := by
  have first : win.slotAt 0 = none := by rw [tracks.inside.slotAt_zero, empty]
  have span_pos : win.span ≠ 0 := fun zero => apart (tracks.inside.span_eq_zero_iff.mp zero)
  obtain ⟨slid, span_eq⟩ := tracks.inside.slideHead apart
  have headInside := slid.head
  have startInside := slid.start
  have index_eq : ∀ seqnum, win.index seqnum ≠ 0 →
      (Tx.slideHead win).index seqnum + 1 = win.index seqnum :=
    fun seqnum away => tracks.inside.index_slideHead away
  have away : ∀ member ∈ members, win.index member.seqnum ≠ 0 := by
    intro member found zero
    obtain ⟨-, slot⟩ := tracks.held member found
    rw [zero, first] at slot
    cases slot
  refine ⟨?_, span_eq⟩
  have bounded := tracks.bounded
  have ordered := tracks.ordered
  have small := tracks.sizeHigh
  constructor
  case headInside => exact headInside
  case tailInside => exact tracks.tailInside
  case sizeLow => exact tracks.sizeLow
  case sizeHigh => exact tracks.sizeHigh
  case startInside => exact startInside
  case nextInside => exact tracks.nextInside
  case bounded =>
    show (Tx.slideHead win).span ≤ win.bawSize
    omega
  case ordered =>
    have next := index_eq win.seqNext (by omega)
    show (Tx.slideHead win).span ≤ (Tx.slideHead win).index win.seqNext
    omega
  case numbered => exact tracks.numbered
  case held =>
    intro member found
    obtain ⟨below, slot⟩ := tracks.held member found
    have place := index_eq member.seqnum (away member found)
    refine ⟨by omega, ?_⟩
    rw [slotAt_slideHead tracks.inside (by omega), if_neg (by omega), place]
    exact slot
  case owned =>
    intro offset bound id occupied
    rw [slotAt_slideHead tracks.inside bound] at occupied
    split at occupied
    · rw [first] at occupied
      cases occupied
    · rename_i different
      obtain ⟨member, found, own, place⟩ := tracks.owned (offset + 1) (by omega) id occupied
      have moved := index_eq member.seqnum (by omega)
      exact ⟨member, found, own, by omega⟩
  case distinct => exact tracks.distinct

private theorem Tracks.slideWindow {turns : Nat} (tracks : Tracks win members)
    (enough : win.span ≤ turns) :
    Tracks (slideWindow turns win) members ∧ Opens (slideWindow turns win) members := by
  induction turns generalizing win with
  | zero =>
    have together : win.bawHead = win.bawTail := tracks.inside.span_eq_zero_iff.mp (by omega)
    rw [Tx.slideWindow, if_neg (fun turning => turning.1 together)]
    exact ⟨tracks, fun open_ => absurd (Nat.le_zero.mp enough) open_⟩
  | succ turns induction =>
    by_cases turning : win.bawHead ≠ win.bawTail ∧ win.txDesc win.bawHead = none
    · obtain ⟨slid, shorter⟩ := tracks.slideHead turning.1 turning.2
      rw [Tx.slideWindow, if_pos turning]
      exact induction slid (by omega)
    · rw [Tx.slideWindow, if_neg turning]
      refine ⟨tracks, ?_⟩
      intro open_ nobody
      have apart : win.bawHead ≠ win.bawTail :=
        fun together => open_ (tracks.inside.span_eq_zero_iff.mpr together)
      obtain ⟨id, occupied⟩ : ∃ id, win.slotAt 0 = some id := by
        rw [tracks.inside.slotAt_zero]
        exact Option.ne_none_iff_exists'.mp fun empty => turning ⟨apart, empty⟩
      obtain ⟨member, found, -⟩ := tracks.owned 0 (by omega) id occupied
      simp [nobody] at found

/-- A completion takes its frame out of the record. -/
theorem Tracks.complete {before after : List Member} {member : Member}
    (tracks : Tracks win (before ++ member :: after)) :
    Tracks (drvTxUpdateBaWin member.seqnum win) (before ++ after) ∧
      Opens (drvTxUpdateBaWin member.seqnum win) (before ++ after) := by
  obtain ⟨below, slot⟩ := tracks.held member (by simp)
  have bounded := tracks.bounded
  have small := tracks.sizeHigh
  have positive := tracks.sizeLow
  obtain ⟨-, others, fresh⟩ := List.pairwise_append.mp tracks.distinct
  have apart : ∀ other ∈ before ++ after, win.index other.seqnum ≠ win.index member.seqnum := by
    intro other found same
    have numbered : other.seqnum < 4096 := tracks.numbered other (by
      rcases List.mem_append.mp found with early | late
      · exact List.mem_append_left _ early
      · exact List.mem_append_right _ (List.mem_cons_of_mem _ late))
    have equal : other.seqnum = member.seqnum :=
      drvBaIndex_inj numbered (tracks.numbered member (by simp)) same
    rcases List.mem_append.mp found with early | late
    · exact fresh other early member List.mem_cons_self equal
    · exact (List.pairwise_cons.mp others).1 other late equal.symm
  have cleared_slot : ∀ offset, offset < 128 →
      ({ win with txDesc := update win.txDesc (win.descId (win.index member.seqnum)) none } :
        BaWindow).slotAt offset =
      if offset = win.index member.seqnum then none else win.slotAt offset := by
    intro offset bound
    simp only [BaWindow.slotAt, BaWindow.descId_eq]
    split
    · rename_i same
      rw [same]
      exact Ring.entry_update_same
    · rename_i different
      exact Ring.entry_update_other tracks.headInside (by simp only [drvTidMaxBufs]; omega) bound
        different
  have cleared : Tracks
      { win with txDesc := update win.txDesc (win.descId (win.index member.seqnum)) none }
      (before ++ after) := by
    have smaller : ∀ other ∈ before ++ after, other ∈ before ++ member :: after := by
      intro other found
      rcases List.mem_append.mp found with early | late
      · exact List.mem_append_left _ early
      · exact List.mem_append_right _ (List.mem_cons_of_mem _ late)
    refine { tracks with
      numbered := fun other found => tracks.numbered other (smaller other found)
      held := ?_
      owned := ?_
      distinct := ?_ }
    · intro other found
      obtain ⟨otherBelow, otherSlot⟩ := tracks.held other (smaller other found)
      refine ⟨otherBelow, ?_⟩
      show BaWindow.slotAt _ (win.index other.seqnum) = some other.id
      rw [cleared_slot _ (by omega), if_neg (apart other found)]
      exact otherSlot
    · intro offset bound id occupied
      rw [cleared_slot offset bound] at occupied
      split at occupied
      · cases occupied
      · rename_i different
        obtain ⟨other, found, own, place⟩ := tracks.owned offset bound id occupied
        refine ⟨other, ?_, own, place⟩
        rcases List.mem_append.mp found with early | late
        · exact List.mem_append_left _ early
        · rcases List.mem_cons.mp late with rfl | late
          · exact absurd place.symm different
          · exact List.mem_append_right _ late
    · exact tracks.distinct.sublist (List.Sublist.append_left (List.sublist_cons_self _ _) _)
  have updates : drvTxUpdateBaWin member.seqnum win =
      Tx.slideWindow (win.bawSize + 1)
        { win with txDesc := update win.txDesc (win.descId (win.index member.seqnum)) none } := by
    unfold drvTxUpdateBaWin
    rw [BaWindow.index] at below
    rw [if_neg (by omega)]
    simp only [drvTidMaxBufs]
    rw [if_neg (by omega)]
    rfl
  rw [updates]
  exact cleared.slideWindow (by show win.span ≤ win.bawSize + 1; omega)

@[simp] theorem slideWindow_fixed (turns : Nat) (win : BaWindow) :
    (slideWindow turns win).seqNext = win.seqNext ∧
      (slideWindow turns win).bawSize = win.bawSize := by
  induction turns generalizing win with
  | zero =>
    rw [Tx.slideWindow]
    split <;> exact ⟨rfl, rfl⟩
  | succ turns induction =>
    rw [Tx.slideWindow]
    split
    · exact induction (Tx.slideHead win)
    · exact ⟨rfl, rfl⟩

@[simp] theorem drvTxUpdateBaWin_seqNext (seqnum : Nat) (win : BaWindow) :
    (drvTxUpdateBaWin seqnum win).seqNext = win.seqNext := by
  unfold drvTxUpdateBaWin
  split
  · rfl
  · dsimp only
    split
    · rfl
    · simp

end Record

end W522a.Tx
