import W522a.Hal.Flush

/-!
What the flush does to one queue.
-/

namespace W522a.Hal

section Changes

variable {vid : Nat}

def TxIds.Leads (ids ids' : TxIds) : Prop := ∃ more, ids'.changes = ids.changes ++ more

def TxIds.Allocates (ids ids' : TxIds) : Prop :=
  ∃ more id, ids'.changes = ids.changes ++ more ∧ IdChange.alloc id ∈ more

theorem TxIds.Leads.refl (ids : TxIds) : ids.Leads ids := ⟨[], (List.append_nil _).symm⟩

theorem TxIds.Leads.trans {ids ids' ids'' : TxIds} (first : ids.Leads ids')
    (second : ids'.Leads ids'') : ids.Leads ids'' := by
  obtain ⟨more, changes⟩ := first
  obtain ⟨later, changes'⟩ := second
  exact ⟨more ++ later, by rw [changes', changes, List.append_assoc]⟩

theorem TxIds.Allocates.after {ids ids' ids'' : TxIds} (first : ids.Leads ids')
    (second : ids'.Allocates ids'') : ids.Allocates ids'' := by
  obtain ⟨more, changes⟩ := first
  obtain ⟨later, id, changes', found⟩ := second
  exact ⟨more ++ later, id, by rw [changes', changes, List.append_assoc],
    List.mem_append_right more found⟩

theorem TxIds.Allocates.before {ids ids' ids'' : TxIds} (first : ids.Allocates ids')
    (second : ids'.Leads ids'') : ids.Allocates ids'' := by
  obtain ⟨more, id, changes, found⟩ := first
  obtain ⟨later, changes'⟩ := second
  exact ⟨more ++ later, id, by rw [changes', changes, List.append_assoc],
    List.mem_append_left later found⟩

private theorem flushElt_leads (ids : TxIds) (elt : FwTxdescFifo) :
    ids.Leads (flushElt ids elt) := by
  unfold flushElt
  by_cases busy : ids.Busy elt.hostcallbackid
  · rw [halFreeTxId_busy busy]
    exact ⟨[.free elt.hostcallbackid], rfl⟩
  · rw [halFreeTxId_idle busy]
    exact TxIds.Leads.refl ids

theorem flushSet_leads (fuel : Nat) (state : QueueFlush) (remain : List Nat) :
    state.ids.Leads (flushSet vid fuel state remain).1.ids := by
  induction fuel generalizing state remain with
  | zero => exact TxIds.Leads.refl _
  | succ fuel induction =>
    unfold flushSet
    split
    · exact TxIds.Leads.refl _
    split
    · exact TxIds.Leads.refl _
    split
    · exact (flushElt_leads _ _).trans (induction _ _)
    · exact induction ⟨_, state.ids⟩ _

theorem flushMake_leads (fuel : Nat) (state : QueueFlush) :
    state.ids.Leads (flushMake vid fuel state).ids := by
  induction fuel generalizing state with
  | zero => exact TxIds.Leads.refl _
  | succ fuel induction =>
    unfold flushMake
    split
    · exact TxIds.Leads.refl _
    split
    · exact TxIds.Leads.refl _
    split
    · exact induction ⟨_, state.ids⟩
    split
    · rename_i ids failed
      rw [(halAllocTxId_none failed).1]
      exact TxIds.Leads.refl _
    · rename_i id ids taken
      have first : state.ids.Leads ids := ⟨[.alloc id], by rw [(halAllocTxId_some taken).2.2]⟩
      exact first.trans (induction ⟨_, ids⟩)

theorem flushQueue_leads (state : QueueFlush) :
    state.ids.Leads (flushQueue vid state).ids :=
  (flushMake_leads _ state).trans (flushSet_leads _ _ _)

end Changes

section Loops

variable {vid : Nat} {fifo : SharedFifo FwTxdescFifo} {ids : TxIds} {start fuel : Nat}
  {set gap made : List FwTxdescFifo} {elt : FwTxdescFifo}

theorem flushMake_stop (staged : fifo.Staged start set gap []) :
    flushMake vid fuel ⟨fifo, ids⟩ = ⟨fifo, ids⟩ := by
  have count := staged.madeCount
  have stopped : coSharedFifoEmpty fifo .make = false := by
    rw [Bool.eq_false_iff]
    intro more
    have positive := (staged.empty_iff .make).mp more
    rw [count] at positive
    exact Nat.lt_irrefl 0 positive
  cases fuel with
  | zero => rfl
  | succ fuel => simp [flushMake, stopped]

/-- What the first loop takes, and has not passed on. -/
def takenMake (fifo : SharedFifo FwTxdescFifo) : SharedFifo FwTxdescFifo :=
  fifo.setOut .make (Ring.advance fifo.eltNbr (fifo.outIdx .make) 1)

/-- A turn of the first loop at a frame of the interface. -/
theorem flushMake_turn_mine (staged : fifo.Staged start set [] (elt :: made))
    (mine : flushMine vid elt = true) :
    flushMake vid (fuel + 1) ⟨fifo, ids⟩ =
      flushMake vid fuel ⟨coSharedFifoPut (takenMake fifo) .make 1, ids⟩ := by
  have count : 0 < coSharedFifoNbEltCont fifo .make := by
    rw [staged.madeCount]
    exact Nat.succ_pos _
  have more : coSharedFifoEmpty fifo .make = true := (staged.empty_iff .make).mpr count
  rw [flushMake]
  simp only [more, SharedFifo.Staged.get_eq count, SharedFifo.setOut_elts, staged.pick_make, mine,
    Bool.not_true, Bool.false_eq_true, if_false, if_true, takenMake]

/-- A turn of the first loop at a frame of another interface. -/
theorem flushMake_turn_other (staged : fifo.Staged start set [] (elt :: made))
    (other : flushMine vid elt = false) (ids' : TxIds) :
    (halAllocTxId ids elt = (none, ids') →
      flushMake vid (fuel + 1) ⟨fifo, ids⟩ = ⟨takenMake fifo, ids'⟩) ∧
    ∀ id, halAllocTxId ids elt = (some id, ids') →
      flushMake vid (fuel + 1) ⟨fifo, ids⟩ = flushMake vid fuel ⟨coSharedFifoPut
        ((takenMake fifo).write (fifo.outIdx .make) { elt with hostcallbackid := id }) .make 1,
        ids'⟩ := by
  have count : 0 < coSharedFifoNbEltCont fifo .make := by
    rw [staged.madeCount]
    exact Nat.succ_pos _
  have more : coSharedFifoEmpty fifo .make = true := (staged.empty_iff .make).mpr count
  constructor
  · intro failed
    rw [flushMake]
    simp only [more, SharedFifo.Staged.get_eq count, SharedFifo.setOut_elts, staged.pick_make,
      other, failed, Bool.not_true, Bool.false_eq_true, if_false, takenMake]
  · intro id allocated
    rw [flushMake]
    simp only [more, SharedFifo.Staged.get_eq count, SharedFifo.setOut_elts, staged.pick_make,
      other, allocated, Bool.not_true, Bool.false_eq_true, if_false, takenMake]

/-- Frames of the interface are passed on without an id. -/
theorem flushMake_mine (fuel : Nat) (ids : TxIds)
    (mine : ∀ elt ∈ made, flushMine vid elt = true) {rest : List FwTxdescFifo}
    (staged : fifo.Staged start set [] (made ++ rest)) :
    ∃ passed, passed.Staged start (set ++ made) [] rest ∧ passed.eltNbr = fifo.eltNbr ∧
      flushMake vid (fuel + made.length) ⟨fifo, ids⟩ = flushMake vid fuel ⟨passed, ids⟩ := by
  induction made generalizing fifo set with
  | nil => exact ⟨fifo, by simpa using staged, rfl, rfl⟩
  | cons elt made induction =>
    have own : flushMine vid elt = true := mine elt List.mem_cons_self
    have kept := staged.pass_make elt
    have same : (fifo.setOut .make (Ring.advance fifo.eltNbr (fifo.outIdx .make) 1)).write
        (fifo.outIdx .make) elt =
          fifo.setOut .make (Ring.advance fifo.eltNbr (fifo.outIdx .make) 1) := by
      rw [SharedFifo.write, SharedFifo.setOut_elts, ← staged.pick_make, Function.update_eq_self]
      rfl
    rw [same] at kept
    obtain ⟨passed, passedStaged, size, looped⟩ :=
      induction (fun elt found => mine elt (List.mem_cons_of_mem _ found)) kept
    refine ⟨passed, by simpa using passedStaged, size, ?_⟩
    rw [List.length_cons, ← Nat.add_assoc, flushMake_turn_mine staged own]
    exact looped

private theorem flushSet_stop (staged : fifo.Staged start [] gap made) (remain : List Nat) :
    flushSet vid fuel ⟨fifo, ids⟩ remain = (⟨fifo, ids⟩, remain) := by
  have count := staged.setCount
  have stopped : coSharedFifoEmpty fifo .set = false := by
    rw [Bool.eq_false_iff]
    intro more
    have positive := (staged.empty_iff .set).mp more
    rw [count] at positive
    exact Nat.lt_irrefl 0 positive
  cases fuel with
  | zero => rfl
  | succ fuel => simp [flushSet, stopped]

private theorem flushSet_turn (staged : fifo.Staged start (elt :: set) gap made)
    (remain : List Nat) :
    flushSet vid (fuel + 1) ⟨fifo, ids⟩ remain =
      let passed := coSharedFifoPut
        (fifo.setOut .set (Ring.advance fifo.eltNbr (fifo.outIdx .set) 1)) .set 1
      if flushMine vid elt then flushSet vid fuel ⟨passed, flushElt ids elt⟩ remain
      else flushSet vid fuel ⟨passed, ids⟩ (remain ++ [start % fifo.eltNbr]) := by
  have count : 0 < coSharedFifoNbEltCont fifo .set := by
    rw [staged.setCount]
    exact Nat.succ_pos _
  have more : coSharedFifoEmpty fifo .set = true := (staged.empty_iff .set).mpr count
  have picked := staged.pick_set
  rw [staged.outSet] at picked
  rw [flushSet]
  simp only [more, SharedFifo.Staged.get_eq count, SharedFifo.setOut_elts, staged.outSet, picked,
    Bool.not_true, Bool.false_eq_true, if_false]

/-- The second loop completes the frames of the interface, and remembers where the others are. -/
theorem flushSet_spec (vid : Nat) (ids : TxIds) (staged : fifo.Staged start set gap made)
    (remain : List Nat)
    (enough : set.length ≤ fuel) :
    ∃ (passed : SharedFifo FwTxdescFifo) (counters : List Nat),
      passed.Staged (start + set.length) [] gap made ∧
      passed.elts = fifo.elts ∧ passed.eltNbr = fifo.eltNbr ∧
      counters.Pairwise (· < ·) ∧
      (∀ counter ∈ counters, start ≤ counter ∧ counter < start + set.length) ∧
      (counters.map fun counter => fifo.elts (counter % fifo.eltNbr)) =
        set.filter (fun elt => !flushMine vid elt) ∧
      flushSet vid fuel ⟨fifo, ids⟩ remain =
        (⟨passed, (set.filter (flushMine vid)).foldl flushElt ids⟩,
          remain ++ counters.map (· % fifo.eltNbr)) := by
  induction set generalizing fifo start ids remain fuel with
  | nil =>
    refine ⟨fifo, [], staged, rfl, rfl, List.Pairwise.nil, by simp, rfl, ?_⟩
    rw [flushSet_stop staged]
    simp
  | cons elt set induction =>
    obtain ⟨fuel, rfl⟩ : ∃ less, fuel = less + 1 := ⟨fuel - 1, by
      rw [List.length_cons] at enough
      omega⟩
    have short : set.length ≤ fuel := by
      rw [List.length_cons] at enough
      omega
    have next := staged.pass_set
    have ends : start + 1 + set.length = start + (elt :: set).length := by
      rw [List.length_cons]
      omega
    have first := staged.pick_set
    rw [staged.outSet] at first
    rw [flushSet_turn staged]
    cases mine : flushMine vid elt with
    | true =>
      obtain ⟨passed, counters, rest, elts, size, ascending, inside, others, looped⟩ :=
        induction (flushElt ids elt) next remain short
      rw [ends] at rest
      refine ⟨passed, counters, rest, elts, size, ascending, ?_, ?_, ?_⟩
      · intro counter found
        have place := inside counter found
        omega
      · rw [List.filter_cons_of_neg (by simp [mine])]
        exact others
      · rw [List.filter_cons_of_pos mine]
        simp only [if_true]
        exact looped
    | false =>
      obtain ⟨passed, counters, rest, elts, size, ascending, inside, others, looped⟩ :=
        induction ids next (remain ++ [start % fifo.eltNbr]) short
      rw [ends] at rest
      refine ⟨passed, start :: counters, rest, elts, size, ?_, ?_, ?_, ?_⟩
      · refine List.pairwise_cons.mpr ⟨fun counter found => ?_, ascending⟩
        have place := inside counter found
        omega
      · intro counter found
        rcases List.mem_cons.mp found with head | tail
        · rw [head, List.length_cons]
          omega
        · have place := inside counter tail
          omega
      · rw [List.filter_cons_of_pos (by simp [mine]), List.map_cons, first]
        exact congrArg (List.cons elt) others
      · rw [List.filter_cons_of_neg (by simp [mine])]
        simp only [Bool.false_eq_true, if_false]
        rw [looped, List.map_cons, List.append_assoc, List.singleton_append]
        rfl

/-- The third loop puts the remembered frames behind those made. -/
theorem flushRemain_spec (counters : List Nat) (staged : fifo.Staged start [] gap made)
    (ascending : counters.Pairwise (· < ·))
    (near : ∀ counter ∈ counters, counter < start ∧
      start + gap.length + made.length < counter + fifo.eltNbr) :
    ((counters.map (· % fifo.eltNbr)).foldl flushRemain fifo).Staged start [] gap
      (made ++ counters.map fun counter => fifo.elts (counter % fifo.eltNbr)) := by
  induction counters generalizing fifo made with
  | nil => simpa using staged
  | cons counter rest induction =>
    obtain ⟨early, close⟩ := near counter List.mem_cons_self
    obtain ⟨later, ascendingRest⟩ := List.pairwise_cons.mp ascending
    have count : 0 < coSharedFifoNbEltCont fifo .get := by
      rw [staged.getCount, List.length_nil]
      omega
    have outGet : fifo.outIdx .get = (start + gap.length + made.length) % fifo.eltNbr := by
      rw [staged.outGet, List.length_nil, Nat.add_zero]
    have turned : flushRemain fifo (counter % fifo.eltNbr) =
        coSharedFifoPut ((fifo.setOut .get (Ring.advance fifo.eltNbr (fifo.outIdx .get) 1)).write
          (fifo.outIdx .get) (fifo.elts (counter % fifo.eltNbr))) .get 1 := by
      rw [flushRemain, SharedFifo.Staged.get_eq count]
      rfl
    have filled := staged.pass_get (by rw [List.length_nil]; omega)
      (fifo.elts (counter % fifo.eltNbr))
    rw [← turned] at filled
    have size : (flushRemain fifo (counter % fifo.eltNbr)).eltNbr = fifo.eltNbr := by
      rw [turned]
      rfl
    -- the copy does not reach the frames that are still to be copied
    have kept : ∀ next ∈ rest, (flushRemain fifo (counter % fifo.eltNbr)).elts
        (next % fifo.eltNbr) = fifo.elts (next % fifo.eltNbr) := by
      intro next found
      obtain ⟨before, reach⟩ := near next (List.mem_cons_of_mem _ found)
      have apart : (start + gap.length + made.length) % fifo.eltNbr ≠ next % fifo.eltNbr :=
        Ring.mod_ne (by omega) (by omega)
      rw [turned, outGet]
      exact Function.update_of_ne apart.symm _ _
    have nearRest : ∀ next ∈ rest, next < start ∧
        start + gap.length + (made ++ [fifo.elts (counter % fifo.eltNbr)]).length <
          next + (flushRemain fifo (counter % fifo.eltNbr)).eltNbr := by
      intro next found
      obtain ⟨before, reach⟩ := near next (List.mem_cons_of_mem _ found)
      have behind := later next found
      rw [size, List.length_append, List.length_singleton]
      omega
    have done := induction filled ascendingRest nearRest
    rw [size] at done
    have copies : (rest.map fun next =>
        (flushRemain fifo (counter % fifo.eltNbr)).elts (next % fifo.eltNbr)) =
          rest.map fun next => fifo.elts (next % fifo.eltNbr) :=
      List.map_congr_left kept
    rw [copies, List.append_assoc, List.singleton_append] at done
    exact done

theorem flushRest_spec (vid : Nat) (ids : TxIds) (staged : fifo.Staged start set gap made) :
    ∃ passed : SharedFifo FwTxdescFifo,
      passed.Staged (start + set.length) [] gap
        (made ++ set.filter fun elt => !flushMine vid elt) ∧
      flushRest vid ⟨fifo, ids⟩ = ⟨passed, (set.filter (flushMine vid)).foldl flushElt ids⟩ := by
  have room := staged.room
  have enough : set.length ≤ fifo.eltNbr := by omega
  obtain ⟨passed, counters, passedStaged, elts, size, ascending, inside, others, looped⟩ :=
    flushSet_spec vid ids staged [] enough
  have near : ∀ counter ∈ counters, counter < start + set.length ∧
      start + set.length + gap.length + made.length < counter + passed.eltNbr := by
    intro counter found
    have place := inside counter found
    rw [size]
    omega
  have copied := flushRemain_spec counters passedStaged ascending near
  rw [elts, size, others] at copied
  refine ⟨_, copied, ?_⟩
  rw [flushRest, looped, List.nil_append]

/-- A queue whose frames made belong to the interface: they are flushed with those set, and the
others are made again in their order. -/
theorem flushQueue_mine (ids : TxIds) (staged : fifo.Staged start set [] made)
    (mine : ∀ elt ∈ made, flushMine vid elt = true) :
    ∃ passed : SharedFifo FwTxdescFifo,
      passed.Staged (start + (set ++ made).length) [] []
        ((set ++ made).filter fun elt => !flushMine vid elt) ∧
      flushQueue vid ⟨fifo, ids⟩ =
        ⟨passed, ((set ++ made).filter (flushMine vid)).foldl flushElt ids⟩ := by
  have room := staged.room
  have split : fifo.Staged start set [] (made ++ []) := by
    rw [List.append_nil]
    exact staged
  obtain ⟨passed, passedStaged, size, looped⟩ :=
    flushMake_mine (fifo.eltNbr - made.length) ids mine split
  rw [flushMake_stop passedStaged, Nat.sub_add_cancel (by omega)] at looped
  obtain ⟨final, finalStaged, rest⟩ := flushRest_spec vid ids passedStaged
  refine ⟨final, finalStaged, ?_⟩
  rw [flushQueue]
  exact (congrArg (flushRest vid) looped).trans rest

/-- A frame of another interface that finds no id is left between the stages. -/
theorem flushQueue_failed {rest : List FwTxdescFifo}
    (staged : fifo.Staged start set [] (made ++ elt :: rest))
    (mine : ∀ elt ∈ made, flushMine vid elt = true) (other : flushMine vid elt = false)
    (failed : (halAllocTxId ids elt).1 = none) :
    (flushQueue vid ⟨fifo, ids⟩).fifo.Staged (start + (set ++ made).length) [] [elt]
      (rest ++ (set ++ made).filter fun elt => !flushMine vid elt) := by
  have room := staged.room
  simp only [List.length_append, List.length_cons, List.length_nil] at room
  obtain ⟨passed, passedStaged, size, looped⟩ :=
    flushMake_mine (fifo.eltNbr - made.length - 1 + 1) ids mine staged
  have left : halAllocTxId ids elt = (none, (halAllocTxId ids elt).2) :=
    Prod.ext failed rfl
  rw [(flushMake_turn_other passedStaged other _).1 left] at looped
  have turns : fifo.eltNbr - made.length - 1 + 1 + made.length = fifo.eltNbr := by omega
  rw [turns] at looped
  obtain ⟨final, finalStaged, done⟩ :=
    flushRest_spec vid (halAllocTxId ids elt).2 passedStaged.take_make
  rw [flushQueue]
  have ended := (congrArg (flushRest vid) looped).trans done
  rw [ended]
  exact finalStaged

/-- A frame of another interface that finds an id changes the bitmap. -/
theorem flushQueue_allocates {rest : List FwTxdescFifo} {id : Nat} {ids' : TxIds}
    (staged : fifo.Staged start set [] (made ++ elt :: rest))
    (mine : ∀ elt ∈ made, flushMine vid elt = true) (other : flushMine vid elt = false)
    (taken : halAllocTxId ids elt = (some id, ids')) :
    ids.Allocates (flushQueue vid ⟨fifo, ids⟩).ids := by
  have room := staged.room
  simp only [List.length_append, List.length_cons, List.length_nil] at room
  obtain ⟨passed, passedStaged, size, looped⟩ :=
    flushMake_mine (fifo.eltNbr - made.length - 1 + 1) ids mine staged
  rw [(flushMake_turn_other passedStaged other ids').2 id taken] at looped
  have turns : fifo.eltNbr - made.length - 1 + 1 + made.length = fifo.eltNbr := by omega
  rw [turns] at looped
  have allocated : ids.Allocates ids' :=
    ⟨[.alloc id], id, by rw [(halAllocTxId_some taken).2.2], List.mem_singleton.mpr rfl⟩
  have more : ids'.Leads (flushQueue vid ⟨fifo, ids⟩).ids := by
    have done : (flushQueue vid ⟨fifo, ids⟩).ids = (flushRest vid _).ids :=
      congrArg (fun state => (flushRest vid state).ids) looped
    rw [done]
    exact (flushMake_leads _ ⟨_, ids'⟩).trans (flushSet_leads _ _ _)
  exact allocated.before more

end Loops

end W522a.Hal
