import W522a.Tx.Session

/-!
The scoreboard's invariant: the window tracks the members in flight, and the frames queued carry
recent numbers of their own. Every safe step keeps it.
-/

namespace W522a.Tx

/-- The window, the members in flight and the frames queued fit together. -/
structure Consistent (win : BaWindow) (members waiting : List Member) : Prop where
  tracks : Tracks win members
  opens : Opens win members
  sound : ∀ member ∈ members, member.bNulldata = false ∧ member.attached = true
  numbered : ∀ member ∈ waiting, member.seqnum < 4096
  ready : ∀ member ∈ waiting,
    member.bAmpdu = true ∧ member.bNulldata = false ∧ member.attached = true
  recent : ∀ member ∈ waiting, 1 ≤ win.age member ∧ win.age member ≤ 4032
  distinct : (members ++ waiting).Pairwise fun first second => first.seqnum ≠ second.seqnum

def TxInv (tid : TxTid) : Prop := Consistent tid.win (aggregated tid.inHal) (queued tid)

section Consistent

variable {win : BaWindow} {members waiting : List Member}

/-- A frame queued and within the window lies before the next number. -/
theorem given_of_recent {member : Member} (startInside : win.seqStart < 4096)
    (nextInside : win.seqNext < 4096)
    (recent : 1 ≤ win.age member ∧ win.age member ≤ 4032)
    (within : win.index member.seqnum < 64) :
    win.index member.seqnum < win.index win.seqNext := by
  simp only [BaWindow.index, BaWindow.age, drvBaIndex, wifinetSeqMax] at recent within ⊢
  omega

theorem Tracks.index_next {member : Member} (tracks : Tracks win members)
    (found : member ∈ members) :
    win.index win.seqNext = win.index member.seqnum + win.age member := by
  obtain ⟨below, -⟩ := tracks.held member found
  have ordered := tracks.ordered
  have startInside := tracks.startInside
  have nextInside := tracks.nextInside
  have inside := tracks.numbered member found
  simp only [BaWindow.index, BaWindow.age, drvBaIndex, wifinetSeqMax] at below ordered ⊢
  omega

theorem Consistent.emptied (consistent : Consistent win members waiting) :
    Consistent win members [] where
  tracks := consistent.tracks
  opens := consistent.opens
  sound := consistent.sound
  numbered := by simp
  ready := by simp
  recent := by simp
  distinct := by simpa using (List.pairwise_append.mp consistent.distinct).1

/-- Sending an aggregate moves its frames from the queue into the window. -/
theorem Consistent.send {taken : List TxDesc} {rest : List Member}
    (consistent : Consistent win members (taken.map TxDesc.member ++ rest))
    (within : ∀ ptxdesc ∈ taken, win.index ptxdesc.seqnum < win.bawSize) :
    Consistent (recordAll taken win) (members ++ taken.map TxDesc.member) rest := by
  have tracks := consistent.tracks
  have small := tracks.sizeHigh
  have next_eq : (recordAll taken win).seqNext = win.seqNext := (recordAll_fixed taken win).2.1
  have early : ∀ ptxdesc ∈ taken,
      ptxdesc.member ∈ taken.map TxDesc.member ++ rest := fun ptxdesc found =>
    List.mem_append_left _ (List.mem_map_of_mem found)
  have regrouped : ((members ++ taken.map TxDesc.member) ++ rest).Pairwise
      fun first second => first.seqnum ≠ second.seqnum := by
    simpa using consistent.distinct
  constructor
  case tracks =>
    refine tracks.recordAll ?_ (List.pairwise_append.mp regrouped).1
    intro ptxdesc found
    have inWindow := within ptxdesc found
    have inside : ptxdesc.member.seqnum < 4096 := consistent.numbered _ (early ptxdesc found)
    have given := given_of_recent tracks.startInside tracks.nextInside
      (consistent.recent _ (early ptxdesc found))
      (by rw [TxDesc.member_seqnum]; omega)
    exact ⟨inWindow, inside, given⟩
  case opens =>
    intro spans nobody
    obtain ⟨none_before, none_taken⟩ := List.append_eq_nil_iff.mp nobody
    have nothing : taken = [] := List.map_eq_nil_iff.mp none_taken
    subst nothing
    exact consistent.opens spans none_before
  case sound =>
    intro member found
    rcases List.mem_append.mp found with old | new
    · exact consistent.sound member old
    · exact (consistent.ready member (List.mem_append_left _ new)).2
  case numbered => exact fun member found =>
    consistent.numbered member (List.mem_append_right _ found)
  case ready => exact fun member found =>
    consistent.ready member (List.mem_append_right _ found)
  case recent =>
    intro member found
    rw [BaWindow.age, next_eq]
    exact consistent.recent member (List.mem_append_right _ found)
  case distinct => exact regrouped

theorem Consistent.complete {before after : List Member} {member : Member}
    (consistent : Consistent win (before ++ member :: after) waiting) :
    Consistent (drvTxUpdateBaWin member.seqnum win) (before ++ after) waiting := by
  obtain ⟨tracks, opens⟩ := consistent.tracks.complete
  have fewer : List.Sublist (before ++ after) (before ++ member :: after) :=
    List.Sublist.append_left (List.sublist_cons_self _ _) _
  constructor
  case tracks => exact tracks
  case opens => exact opens
  case sound => exact fun other found => consistent.sound other (fewer.subset found)
  case numbered => exact consistent.numbered
  case ready => exact consistent.ready
  case recent =>
    intro other found
    rw [BaWindow.age, drvTxUpdateBaWin_seqNext]
    exact consistent.recent other found
  case distinct =>
    exact consistent.distinct.sublist (List.Sublist.append_right fewer _)

theorem Consistent.advance (consistent : Consistent win members waiting)
    (recent : ∀ member ∈ members ++ waiting, win.age member < 4032) :
    Consistent { win with seqNext := circleAddOne win.seqNext wifinetSeqMax } members waiting := by
  have tracks := consistent.tracks
  have nextInside := tracks.nextInside
  have next_lt : circleAddOne win.seqNext wifinetSeqMax < 4096 := by
    simp only [circleAddOne, wifinetSeqMax]
    split <;> omega
  have older : ∀ seq, seq < 4096 → drvBaIndex seq win.seqNext < 4095 →
      drvBaIndex seq (circleAddOne win.seqNext wifinetSeqMax) =
        drvBaIndex seq win.seqNext + 1 := by
    intro seq inside young
    simp only [drvBaIndex, circleAddOne, wifinetSeqMax] at young ⊢
    split <;> omega
  refine { consistent with
    tracks := { tracks with nextInside := next_lt, ordered := ?_ }
    recent := ?_ }
  · show win.span ≤ drvBaIndex win.seqStart (circleAddOne win.seqNext wifinetSeqMax)
    by_cases spans : win.span = 0
    · omega
    · obtain ⟨member, found⟩ := List.exists_mem_of_ne_nil _ (consistent.opens spans)
      obtain ⟨below, -⟩ := tracks.held member found
      have young := recent member (List.mem_append_left _ found)
      have place := tracks.index_next found
      have bounded := tracks.bounded
      have small := tracks.sizeHigh
      have ordered := tracks.ordered
      simp only [BaWindow.index] at place below ordered
      rw [older win.seqStart tracks.startInside (by omega)]
      omega
  · intro member found
    have young := recent member (List.mem_append_right _ found)
    obtain ⟨positive, -⟩ := consistent.recent member found
    simp only [BaWindow.age] at young positive ⊢
    rw [older member.seqnum (consistent.numbered member found) (by omega)]
    omega

/-- A frame that has just taken its number may join the queue. -/
theorem Consistent.enqueue {member : Member} (consistent : Consistent win members waiting)
    (recent : ∀ other ∈ members ++ waiting, win.age other < 4032)
    (own : member.seqnum = win.seqNext)
    (ready : member.bAmpdu = true ∧ member.bNulldata = false ∧ member.attached = true) :
    Consistent { win with seqNext := circleAddOne win.seqNext wifinetSeqMax } members
      (waiting ++ [member]) := by
  have advanced := consistent.advance recent
  have nextInside := consistent.tracks.nextInside
  have fresh : ∀ other ∈ members ++ waiting, other.seqnum ≠ member.seqnum := by
    intro other found same
    rcases List.mem_append.mp found with flying | queued
    · have place := consistent.tracks.index_next flying
      obtain ⟨below, -⟩ := consistent.tracks.held other flying
      have ordered := consistent.tracks.ordered
      rw [same, own] at place below
      omega
    · obtain ⟨positive, -⟩ := consistent.recent other queued
      rw [BaWindow.age, same, own, drvBaIndex_self] at positive
      omega
  constructor
  case tracks => exact advanced.tracks
  case opens => exact advanced.opens
  case sound => exact advanced.sound
  case numbered =>
    intro other found
    rcases List.mem_append.mp found with old | new
    · exact consistent.numbered other old
    · rw [List.mem_singleton.mp new, own]
      exact nextInside
  case ready =>
    intro other found
    rcases List.mem_append.mp found with old | new
    · exact consistent.ready other old
    · rw [List.mem_singleton.mp new]
      exact ready
  case recent =>
    intro other found
    rcases List.mem_append.mp found with old | new
    · exact advanced.recent other old
    · rw [List.mem_singleton.mp new, BaWindow.age, own]
      simp only [drvBaIndex, circleAddOne, wifinetSeqMax]
      split <;> omega
  case distinct =>
    rw [← List.append_assoc]
    refine List.pairwise_append.mpr ⟨consistent.distinct, List.pairwise_singleton _ _, ?_⟩
    intro other found joined new
    rw [List.mem_singleton.mp new]
    exact fresh other found

/-- With nothing in flight the window may start anywhere, be of any size, and go back to its
head. -/
theorem Consistent.restart (consistent : Consistent win members waiting)
    (together : win.bawHead = win.bawTail) {seqStart : Nat} (inside : seqStart < 4096) :
    Consistent { win with seqStart := seqStart } members waiting := by
  have tracks := consistent.tracks
  have zero : win.span = 0 := tracks.inside.span_eq_zero_iff.mpr together
  have nobody : members = [] := by
    rcases List.eq_nil_or_concat members with none_left | ⟨front, last, found⟩
    · exact none_left
    · obtain ⟨below, -⟩ := tracks.held last (by simp [found])
      omega
  subst nobody
  refine { consistent with
    tracks := { tracks with
      startInside := inside
      ordered := ?_
      held := by simp
      owned := ?_ } }
  · show win.span ≤ _
    omega
  · intro offset bound id occupied
    obtain ⟨member, found, -⟩ := tracks.owned offset bound id occupied
    simp at found

theorem Consistent.drain (consistent : Consistent win [] []) :
    Consistent { win with seqNext := win.seqStart, bawTail := win.bawHead } [] [] := by
  have tracks := consistent.tracks
  have zero :
      ({ win with seqNext := win.seqStart, bawTail := win.bawHead } : BaWindow).span = 0 := by
    simp [BaWindow.span]
  refine { consistent with
    tracks := { tracks with
      tailInside := tracks.headInside
      nextInside := tracks.startInside
      bounded := by rw [zero]; exact Nat.zero_le _
      ordered := by rw [zero]; exact Nat.zero_le _
      held := by simp
      owned := ?_ }
    opens := fun spans => absurd zero spans
    recent := by simp }
  intro offset bound id occupied
  obtain ⟨member, found, -⟩ := tracks.owned offset bound id occupied
  simp at found

end Consistent

end W522a.Tx
