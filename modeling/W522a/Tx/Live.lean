import W522a.Tx.InWindow

/-!
The window as far as it spans: its slots stand for the members in flight, and the frames queued
carry the numbers behind it. What lies beyond the window does not matter.
-/

namespace W522a.Tx

open Function (update)

/-- The window spans exactly `members`, each at the place of its number. -/
structure Spans (win : BaWindow) (members : List Member) : Prop where
  inside : win.Inside
  sizeLow : 1 ≤ win.bawSize
  bounded : win.span ≤ win.bawSize
  held : ∀ member ∈ members,
    win.index member.seqnum < win.span ∧ win.slotAt (win.index member.seqnum) = some member.id
  owned : ∀ offset, offset < win.span → win.slotAt offset ≠ none →
    ∃ member ∈ members, win.index member.seqnum = offset
  distinct : members.Pairwise fun first second =>
    win.index first.seqnum ≠ win.index second.seqnum

/-- A window that spans anything starts with an occupied slot. -/
def Opened (win : BaWindow) : Prop := win.span ≠ 0 → win.slotAt 0 ≠ none

/-- The numbers of frames follow one another. -/
def Follow : Nat → List Member → Prop
  | _, [] => True
  | next, member :: rest =>
    member.seqnum % wifinetSeqMax = next % wifinetSeqMax ∧ Follow (next + 1) rest

def BaWindow.behind (win : BaWindow) : Nat := win.seqStart + win.span

section Numbers

theorem Follow.of_mod {next other : Nat} {members : List Member} (follow : Follow next members)
    (same : other % wifinetSeqMax = next % wifinetSeqMax) : Follow other members := by
  induction members generalizing next other with
  | nil => trivial
  | cons member rest induction =>
    refine ⟨follow.1.trans same.symm, induction follow.2 ?_⟩
    rw [Nat.add_mod, same, ← Nat.add_mod]

theorem follow_append {next : Nat} {first second : List Member} :
    Follow next (first ++ second) ↔ Follow next first ∧ Follow (next + first.length) second := by
  induction first generalizing next with
  | nil => simp [Follow]
  | cons member rest induction =>
    simp only [List.cons_append, Follow, induction, List.length_cons, and_assoc]
    rw [Nat.add_assoc, Nat.add_comm 1]

theorem index_of_mod {win : BaWindow} {seqnum distance : Nat}
    (same : seqnum % wifinetSeqMax = (win.seqStart + distance) % wifinetSeqMax)
    (near : distance < 4096) : win.index seqnum = distance := by
  simp only [BaWindow.index, drvBaIndex, wifinetSeqMax] at same ⊢
  omega

end Numbers

section Record

variable {win : BaWindow} {members : List Member} {ptxdesc : TxDesc}

theorem Spans.nobody (spans : Spans win members) (zero : win.span = 0) : members = [] := by
  cases members with
  | nil => rfl
  | cons member rest =>
    have below := (spans.held member List.mem_cons_self).1
    omega

theorem Spans.empty (spans : Spans win []) (opened : Opened win) : win.span = 0 := by
  by_contra open_
  obtain ⟨member, found, -⟩ := spans.owned 0 (Nat.pos_of_ne_zero open_) (opened open_)
  cases found

/-- Recording the frame whose number is right behind the window makes it longer by one. -/
theorem Spans.record (spans : Spans win members) (opened : Opened win)
    (next : win.index ptxdesc.seqnum = win.span) (room : win.span < win.bawSize) :
    Spans (drvTxAdd2baw ptxdesc win) (members ++ [ptxdesc.member]) ∧
      Opened (drvTxAdd2baw ptxdesc win) ∧ (drvTxAdd2baw ptxdesc win).span = win.span + 1 := by
  have small := spans.inside.small
  have within : win.index ptxdesc.seqnum < win.bawSize := by omega
  obtain ⟨tailInside, longer⟩ := span_drvTxAdd2baw spans.inside within
  have span_eq : (drvTxAdd2baw ptxdesc win).span = win.span + 1 := by omega
  have index_eq : ∀ seqnum, (drvTxAdd2baw ptxdesc win).index seqnum = win.index seqnum := by
    intro seqnum
    rw [BaWindow.index, drvTxAdd2baw_seqStart, BaWindow.index]
  have slot : ∀ offset, offset < 128 → (drvTxAdd2baw ptxdesc win).slotAt offset =
      if offset = win.span then some ptxdesc.id else win.slotAt offset := by
    intro offset bound
    rw [slotAt_drvTxAdd2baw spans.inside within bound, next]
  refine ⟨?_, ?_, span_eq⟩
  · constructor
    · refine ⟨?_, tailInside, ?_, ?_⟩
      · rw [drvTxAdd2baw_bawHead]
        exact spans.inside.head
      · rw [drvTxAdd2baw_bawSize]
        exact small
      · rw [drvTxAdd2baw_seqStart]
        exact spans.inside.start
    · rw [drvTxAdd2baw_bawSize]
      exact spans.sizeLow
    · rw [span_eq, drvTxAdd2baw_bawSize]
      exact room
    · intro member found
      rw [index_eq, span_eq]
      rcases List.mem_append.mp found with old | new
      · obtain ⟨below, occupied⟩ := spans.held member old
        refine ⟨by omega, ?_⟩
        rw [slot _ (by omega), if_neg (by omega)]
        exact occupied
      · rw [List.mem_singleton.mp new, TxDesc.member_seqnum, next, TxDesc.member_id]
        refine ⟨Nat.lt_succ_self _, ?_⟩
        rw [slot _ (by omega), if_pos rfl]
    · intro offset bound occupied
      rw [span_eq] at bound
      rw [slot offset (by omega)] at occupied
      by_cases last : offset = win.span
      · refine ⟨ptxdesc.member, List.mem_append_right _ List.mem_cons_self, ?_⟩
        rw [index_eq, TxDesc.member_seqnum, next, last]
      · rw [if_neg last] at occupied
        obtain ⟨member, found, place⟩ := spans.owned offset (by omega) occupied
        exact ⟨member, List.mem_append_left _ found, (index_eq _).trans place⟩
    · simp only [index_eq]
      refine List.pairwise_append.mpr ⟨spans.distinct, List.pairwise_singleton _ _, ?_⟩
      intro member found other new
      rw [List.mem_singleton.mp new, TxDesc.member_seqnum, next]
      exact Nat.ne_of_lt (spans.held member found).1
  · intro _
    rw [slot 0 (by omega)]
    by_cases first : 0 = win.span
    · rw [if_pos first]
      exact Option.some_ne_none _
    · rw [if_neg first]
      exact opened (Ne.symm first)

theorem Spans.recordAll {taken : List TxDesc} (spans : Spans win members) (opened : Opened win)
    (follow : Follow win.behind (taken.map TxDesc.member))
    (room : win.span + taken.length ≤ win.bawSize) :
    Spans (recordAll taken win) (members ++ taken.map TxDesc.member) ∧
      Opened (recordAll taken win) ∧ (recordAll taken win).span = win.span + taken.length := by
  induction taken generalizing win members with
  | nil =>
    rw [List.map_nil, List.append_nil]
    exact ⟨spans, opened, rfl⟩
  | cons ptxdesc rest induction =>
    rw [List.length_cons] at room
    obtain ⟨number, later⟩ := follow
    have small := spans.inside.small
    have next : win.index ptxdesc.seqnum = win.span :=
      index_of_mod number (by omega)
    obtain ⟨recorded, still, longer⟩ := spans.record opened next (by omega)
    have behind : (drvTxAdd2baw ptxdesc win).behind = win.behind + 1 := by
      rw [BaWindow.behind, drvTxAdd2baw_seqStart, longer]
      rfl
    obtain ⟨all, open_, total⟩ := induction recorded still (behind ▸ later)
      (by rw [longer, drvTxAdd2baw_bawSize]; omega)
    refine ⟨?_, open_, ?_⟩
    · rw [List.append_assoc] at all
      exact all
    · rw [recordAll_cons, total, longer, List.length_cons]
      omega

/-- Sliding past an empty head keeps the record and the number behind the window. -/
theorem Spans.slideHead (spans : Spans win members) (apart : win.bawHead ≠ win.bawTail)
    (empty : win.txDesc win.bawHead = none) :
    Spans (slideHead win) members ∧ (slideHead win).span + 1 = win.span ∧
      (slideHead win).behind % wifinetSeqMax = win.behind % wifinetSeqMax := by
  have first : win.slotAt 0 = none := by rw [spans.inside.slotAt_zero, empty]
  have small := spans.inside.small
  have bounded := spans.bounded
  obtain ⟨slid, shorter⟩ := spans.inside.slideHead apart
  have away : ∀ member ∈ members, win.index member.seqnum ≠ 0 := by
    intro member found zero
    obtain ⟨-, occupied⟩ := spans.held member found
    rw [zero, first] at occupied
    cases occupied
  have index_eq : ∀ member ∈ members,
      (Tx.slideHead win).index member.seqnum + 1 = win.index member.seqnum :=
    fun member found => spans.inside.index_slideHead (away member found)
  refine ⟨?_, shorter, ?_⟩
  · constructor
    · exact slid
    · exact spans.sizeLow
    · show (Tx.slideHead win).span ≤ win.bawSize
      omega
    · intro member found
      obtain ⟨below, occupied⟩ := spans.held member found
      have place := index_eq member found
      refine ⟨by omega, ?_⟩
      rw [slotAt_slideHead spans.inside (by omega), if_neg (by omega), place]
      exact occupied
    · intro offset bound occupied
      rw [slotAt_slideHead spans.inside (by omega), if_neg (by omega)] at occupied
      obtain ⟨member, found, place⟩ := spans.owned (offset + 1) (by omega) occupied
      have moved := index_eq member found
      exact ⟨member, found, by omega⟩
    · refine spans.distinct.imp_of_mem ?_
      intro one other oneFound otherFound different same
      have oneMoved := index_eq one oneFound
      have otherMoved := index_eq other otherFound
      omega
  · have start := spans.inside.start
    have moved : (Tx.slideHead win).seqStart % wifinetSeqMax =
        (win.seqStart + 1) % wifinetSeqMax := by
      simp only [Tx.slideHead, circleAddOne, wifinetSeqMax]
      split <;> omega
    simp only [BaWindow.behind, wifinetSeqMax] at moved ⊢
    omega

/-- The slide ends at an occupied head or with the window empty, before its limit. -/
theorem Spans.slideWindow {turns : Nat} (spans : Spans win members) (enough : win.span ≤ turns) :
    Spans (slideWindow turns win) members ∧ Opened (slideWindow turns win) ∧
      (slideWindow turns win).behind % wifinetSeqMax = win.behind % wifinetSeqMax := by
  induction turns generalizing win with
  | zero =>
    have together : win.bawHead = win.bawTail :=
      spans.inside.span_eq_zero_iff.mp (Nat.le_zero.mp enough)
    rw [Tx.slideWindow, if_neg (fun turning => turning.1 together)]
    exact ⟨spans, fun open_ => absurd (Nat.le_zero.mp enough) open_, rfl⟩
  | succ turns induction =>
    by_cases turning : win.bawHead ≠ win.bawTail ∧ win.txDesc win.bawHead = none
    · obtain ⟨slid, shorter, same⟩ := spans.slideHead turning.1 turning.2
      rw [Tx.slideWindow, if_pos turning]
      obtain ⟨kept, opened, behind⟩ := induction slid (by omega)
      exact ⟨kept, opened, behind.trans same⟩
    · rw [Tx.slideWindow, if_neg turning]
      refine ⟨spans, ?_, rfl⟩
      intro open_ empty
      have apart : win.bawHead ≠ win.bawTail :=
        fun together => open_ (spans.inside.span_eq_zero_iff.mpr together)
      rw [spans.inside.slotAt_zero] at empty
      exact turning ⟨apart, empty⟩

/-- A completion takes its frame out of the window. -/
theorem Spans.complete {before after : List Member} {member : Member}
    (spans : Spans win (before ++ member :: after)) :
    Spans (drvTxUpdateBaWin member.seqnum win) (before ++ after) ∧
      Opened (drvTxUpdateBaWin member.seqnum win) ∧
      (drvTxUpdateBaWin member.seqnum win).behind % wifinetSeqMax =
        win.behind % wifinetSeqMax := by
  have inside := spans.inside
  have small := inside.small
  have positive := spans.sizeLow
  have bounded := spans.bounded
  obtain ⟨below, -⟩ := spans.held member (List.mem_append_right _ List.mem_cons_self)
  have fewer : List.Sublist (before ++ after) (before ++ member :: after) :=
    List.Sublist.append_left (List.sublist_cons_self _ _) _
  obtain ⟨-, others, fresh⟩ := List.pairwise_append.mp spans.distinct
  have apart : ∀ other ∈ before ++ after, win.index other.seqnum ≠ win.index member.seqnum := by
    intro other found same
    rcases List.mem_append.mp found with early | late
    · exact fresh other early member List.mem_cons_self same
    · exact (List.pairwise_cons.mp others).1 other late same.symm
  obtain ⟨cleared, cleared_eq⟩ : ∃ cleared : BaWindow, cleared =
      { win with txDesc := update win.txDesc (win.descId (win.index member.seqnum)) none } :=
    ⟨_, rfl⟩
  have slot : ∀ offset, offset < 128 → cleared.slotAt offset =
      if offset = win.index member.seqnum then none else win.slotAt offset := by
    intro offset bound
    rw [cleared_eq]
    simp only [BaWindow.slotAt, BaWindow.descId_eq]
    split
    · rename_i same
      rw [same]
      exact Ring.entry_update_same
    · rename_i different
      exact Ring.entry_update_other inside.head (by simp only [drvTidMaxBufs]; omega) bound
        different
  have left : Spans cleared (before ++ after) := by
    constructor
    · rw [cleared_eq]
      exact ⟨inside.head, inside.tail, inside.small, inside.start⟩
    · rw [cleared_eq]
      exact positive
    · rw [cleared_eq]
      exact bounded
    · intro other found
      obtain ⟨otherBelow, occupied⟩ := spans.held other (fewer.subset found)
      have index : cleared.index other.seqnum = win.index other.seqnum := by
        rw [cleared_eq]
        rfl
      have span : cleared.span = win.span := by
        rw [cleared_eq]
        rfl
      rw [index, span]
      refine ⟨otherBelow, ?_⟩
      rw [slot _ (by omega), if_neg (apart other found)]
      exact occupied
    · intro offset bound occupied
      have span : cleared.span = win.span := by
        rw [cleared_eq]
        rfl
      rw [span] at bound
      rw [slot offset (by omega)] at occupied
      by_cases own : offset = win.index member.seqnum
      · rw [if_pos own] at occupied
        exact absurd rfl occupied
      · rw [if_neg own] at occupied
        obtain ⟨other, found, place⟩ := spans.owned offset bound occupied
        refine ⟨other, ?_, ?_⟩
        · rcases List.mem_append.mp found with early | late
          · exact List.mem_append_left _ early
          · rcases List.mem_cons.mp late with same | late
            · rw [same] at place
              exact absurd place.symm own
            · exact List.mem_append_right _ late
        · rw [cleared_eq]
          exact place
    · rw [cleared_eq]
      exact spans.distinct.sublist fewer
  have updates : drvTxUpdateBaWin member.seqnum win =
      Tx.slideWindow (win.bawSize + 1) cleared := by
    unfold drvTxUpdateBaWin
    rw [BaWindow.index] at below
    rw [if_neg (by omega)]
    simp only [drvTidMaxBufs]
    rw [if_neg (by omega), cleared_eq]
    rfl
  have span : cleared.span ≤ win.bawSize + 1 := by
    rw [cleared_eq]
    exact Nat.le_succ_of_le bounded
  have behind : cleared.behind = win.behind := by
    rw [cleared_eq]
    rfl
  rw [updates, ← behind]
  exact left.slideWindow span

end Record

end W522a.Tx
