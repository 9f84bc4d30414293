import W522a.Hal.FlushQueue

/-!
The law of the flush: every frame of the interface is completed once, under its own queue id, every
other frame stays where it was in the order, and the bitmap only loses ids of flushed frames.
-/

namespace W522a.Hal

section Ids

variable {ids current : TxIds} {before : List FwTxdescFifo} {elt : FwTxdescFifo}

/-- The flush of a frame, behind others, clears a bit: the one of its id, unless an earlier frame
carries the same id. -/
def TxIds.Frees (ids : TxIds) (before : List FwTxdescFifo) (elt : FwTxdescFifo) : Prop :=
  ids.Busy elt.hostcallbackid ∧
    ∀ earlier ∈ before, earlier.hostcallbackid ≠ elt.hostcallbackid

instance : Decidable (ids.Frees before elt) := inferInstanceAs (Decidable (_ ∧ _))

/-- The queue id that the flush hands up with a frame. -/
def TxIds.given (ids : TxIds) (before : List FwTxdescFifo) (elt : FwTxdescFifo) : Nat :=
  if ids.Frees before elt then (ids.txFrames elt.hostcallbackid).txqueueid else 0

/-- What the flush of frames hands up. -/
def TxIds.givenAll (ids : TxIds) : List FwTxdescFifo → List FwTxdescFifo → List (Nat × Nat)
  | _, [] => []
  | before, elt :: rest =>
    (elt.callback, ids.given before elt) :: ids.givenAll (before ++ [elt]) rest

/-- The ids whose bits the flush of frames clears. -/
def TxIds.freedAll (ids : TxIds) : List FwTxdescFifo → List FwTxdescFifo → List Nat
  | _, [] => []
  | before, elt :: rest =>
    (if ids.Frees before elt then [elt.hostcallbackid] else []) ++
      ids.freedAll (before ++ [elt]) rest

/-- The ids once some frames have been flushed. -/
structure TxIds.After (ids : TxIds) (before : List FwTxdescFifo) (current : TxIds) : Prop where
  busy : ∀ id, current.Busy id ↔
    ids.Busy id ∧ ∀ earlier ∈ before, earlier.hostcallbackid ≠ id
  frames : current.txFrames = ids.txFrames

private theorem forall_snoc {holds : FwTxdescFifo → Prop} :
    (∀ earlier ∈ before ++ [elt], holds earlier) ↔
      (∀ earlier ∈ before, holds earlier) ∧ holds elt := by
  simp [or_imp, forall_and]

private theorem flushElt_after (after : ids.After before current) (elt : FwTxdescFifo) :
    ids.After (before ++ [elt]) (flushElt current elt) ∧
      (flushElt current elt).handled =
        current.handled ++ [(elt.callback, ids.given before elt)] ∧
      (flushElt current elt).changes = current.changes ++
        (if ids.Frees before elt then [elt.hostcallbackid] else []).map IdChange.free := by
  have frees : current.Busy elt.hostcallbackid ↔ ids.Frees before elt :=
    after.busy elt.hostcallbackid
  unfold flushElt TxIds.given
  by_cases busy : current.Busy elt.hostcallbackid
  · rw [halFreeTxId_busy busy, if_pos (frees.mp busy), if_pos (frees.mp busy)]
    refine ⟨⟨fun id => ?_, after.frames⟩, ?_, rfl⟩
    · rw [forall_snoc, ← and_assoc, ← after.busy id]
      by_cases same : elt.hostcallbackid = id
      · simp [TxIds.Busy, intrTxHandle, clearId, clearDrop, same]
      · have other : Function.update current.txFramesMap elt.hostcallbackid false id =
            current.txFramesMap id := Function.update_of_ne (Ne.symm same) _ _
        simp [TxIds.Busy, intrTxHandle, clearId, clearDrop, same, other]
    · simp [intrTxHandle, clearId, clearDrop, after.frames]
  · rw [halFreeTxId_idle busy, if_neg (mt frees.mpr busy), if_neg (mt frees.mpr busy)]
    refine ⟨⟨fun id => ?_, after.frames⟩, rfl, (List.append_nil _).symm⟩
    rw [forall_snoc, ← and_assoc, ← after.busy id]
    refine ⟨fun used => ⟨used, fun same => ?_⟩, And.left⟩
    rw [same] at busy
    exact busy used

theorem foldl_flushElt (frames : List FwTxdescFifo) (after : ids.After before current) :
    ids.After (before ++ frames) (frames.foldl flushElt current) ∧
      (frames.foldl flushElt current).handled = current.handled ++ ids.givenAll before frames ∧
      (frames.foldl flushElt current).changes =
        current.changes ++ (ids.freedAll before frames).map IdChange.free := by
  induction frames generalizing before current with
  | nil => simpa [TxIds.givenAll, TxIds.freedAll] using after
  | cons elt rest induction =>
    obtain ⟨next, handled, changes⟩ := flushElt_after after elt
    obtain ⟨final, handledRest, changesRest⟩ := induction next
    rw [List.append_assoc, List.singleton_append] at final
    refine ⟨final, ?_, ?_⟩
    · rw [List.foldl_cons, handledRest, handled, TxIds.givenAll, List.append_assoc,
        List.singleton_append]
    · rw [List.foldl_cons, changesRest, changes, TxIds.freedAll, List.map_append,
        List.append_assoc]

/-- Every frame is handed up with its own queue id exactly when the flush gives it that id. -/
theorem givenAll_own_iff (frames : List FwTxdescFifo) :
    ids.givenAll before frames = frames.map (fun elt => (elt.callback, elt.txqueueid)) ↔
      ∀ first elt last, frames = first ++ elt :: last →
        ids.given (before ++ first) elt = elt.txqueueid := by
  induction frames generalizing before with
  | nil => simp [TxIds.givenAll]
  | cons elt rest induction =>
    rw [TxIds.givenAll, List.map_cons, List.cons_eq_cons, induction]
    constructor
    · rintro ⟨head, tail⟩ first other last split
      cases first with
      | nil =>
        obtain ⟨rfl, rfl⟩ := List.cons_eq_cons.mp split
        rw [List.append_nil]
        exact (Prod.mk.inj head).2
      | cons early first =>
        obtain ⟨rfl, rfl⟩ := List.cons_eq_cons.mp split
        have later := tail first other last rfl
        rw [List.append_assoc] at later
        exact later
    · intro all
      refine ⟨?_, fun first other last split => ?_⟩
      · have head := all [] elt rest rfl
        rw [List.append_nil] at head
        rw [head]
      · have later := all (elt :: first) other last (by rw [split, List.cons_append])
        rw [List.append_assoc]
        exact later

theorem mem_freedAll_iff (frames : List FwTxdescFifo) {id : Nat} :
    id ∈ ids.freedAll before frames ↔ ∃ first elt last, frames = first ++ elt :: last ∧
      ids.Frees (before ++ first) elt ∧ elt.hostcallbackid = id := by
  induction frames generalizing before with
  | nil => simp [TxIds.freedAll]
  | cons elt rest induction =>
    rw [TxIds.freedAll, List.mem_append, induction]
    constructor
    · rintro (head | ⟨first, other, last, split, frees, same⟩)
      · by_cases frees : ids.Frees before elt
        · rw [if_pos frees, List.mem_singleton] at head
          refine ⟨[], elt, rest, rfl, ?_, head.symm⟩
          rw [List.append_nil]
          exact frees
        · rw [if_neg frees] at head
          cases head
      · refine ⟨elt :: first, other, last, by rw [split, List.cons_append], ?_, same⟩
        rw [List.append_assoc] at frees
        exact frees
    · rintro ⟨first, other, last, split, frees, same⟩
      cases first with
      | nil =>
        obtain ⟨rfl, rfl⟩ := List.cons_eq_cons.mp split
        rw [List.append_nil] at frees
        rw [if_pos frees, same]
        exact Or.inl (List.mem_singleton.mpr rfl)
      | cons early first =>
        obtain ⟨rfl, rfl⟩ := List.cons_eq_cons.mp split
        refine Or.inr ⟨first, other, last, rfl, ?_, same⟩
        rw [List.append_assoc]
        exact frees

end Ids

/-- The frames that the flush of an interface completes, in its order. -/
def flushed (vid : Nat) (hal : HalTx) : List FwTxdescFifo :=
  (List.range halNumTxQueues).flatMap fun queue =>
    (hal.txdsTristaFifo queue).waiting.filter (flushMine vid)

structure FlushLaw (vid : Nat) (before after : HalTx) : Prop where
  completed : after.ids.handled = before.ids.handled ++
    (flushed vid before).map fun elt => (elt.callback, elt.txqueueid)
  kept : ∀ queue, queue < halNumTxQueues → (after.txdsTristaFifo queue).waiting =
    (before.txdsTristaFifo queue).waiting.filter fun elt => !flushMine vid elt
  freed : ∃ freed : List Nat,
    after.ids.changes = before.ids.changes ++ freed.map IdChange.free ∧
      ∀ id ∈ freed, ∃ owner ∈ flushed vid before,
        before.ids.Holds owner ∧ owner.hostcallbackid = id
  bitmap : ∀ id, after.ids.Busy id ↔ before.ids.Busy id ∧
    ∀ owner ∈ flushed vid before, before.ids.Holds owner → owner.hostcallbackid ≠ id

/-- In the order of the flush, a frame carries an id that is in use, that no earlier frame carries,
that belongs to a flushed frame and was allocated for this frame's queue; or it frees no id, and
lies in queue 0. -/
def FlushesOwn (ids : TxIds) (frames : List FwTxdescFifo) : Prop :=
  ∀ first elt last, frames = first ++ elt :: last →
    if ids.Frees first elt then
      (∃ owner ∈ frames, ids.Holds owner ∧ owner.hostcallbackid = elt.hostcallbackid) ∧
        (ids.txFrames elt.hostcallbackid).txqueueid = elt.txqueueid
    else elt.txqueueid = 0

section Queues

variable {vid : Nat} {hal : HalTx}

/-- Every frame made belongs to the interface. -/
def MadeMine (vid : Nat) (fifo : SharedFifo FwTxdescFifo) : Prop :=
  ∀ elt ∈ fifo.stage .make, flushMine vid elt = true

/-- The flush of a queue whose frames made belong to the interface. -/
theorem flushAt_mine {queue : Nat} (valid : (hal.txdsTristaFifo queue).Valid)
    (mine : MadeMine vid (hal.txdsTristaFifo queue)) :
    ((flushAt vid hal queue).txdsTristaFifo queue).waiting =
        (hal.txdsTristaFifo queue).waiting.filter (fun elt => !flushMine vid elt) ∧
      (flushAt vid hal queue).ids =
        ((hal.txdsTristaFifo queue).waiting.filter (flushMine vid)).foldl flushElt hal.ids := by
  obtain ⟨start, set, made, staged⟩ := valid
  rw [MadeMine, staged.stage_make] at mine
  obtain ⟨passed, passedStaged, flushedQueue⟩ := flushQueue_mine hal.ids staged mine
  rw [flushAt, flushedQueue]
  simp only [Function.update_self, SharedFifo.waiting, passedStaged.stage_set,
    passedStaged.stage_make, staged.stage_set, staged.stage_make, List.nil_append]
  exact ⟨trivial, trivial⟩

private theorem exists_first_other (frames : List FwTxdescFifo)
    (other : ¬ ∀ elt ∈ frames, flushMine vid elt = true) :
    ∃ first elt last, frames = first ++ elt :: last ∧
      (∀ elt ∈ first, flushMine vid elt = true) ∧ flushMine vid elt = false := by
  induction frames with
  | nil => simp at other
  | cons elt rest induction =>
    cases own : flushMine vid elt with
    | false => exact ⟨[], elt, rest, rfl, by simp, own⟩
    | true =>
      have later : ¬ ∀ elt ∈ rest, flushMine vid elt = true := by
        intro all
        exact other (List.forall_mem_cons.mpr ⟨own, all⟩)
      obtain ⟨first, next, last, split, mine, foreign⟩ := induction later
      exact ⟨elt :: first, next, last, by rw [split, List.cons_append],
        List.forall_mem_cons.mpr ⟨own, mine⟩, foreign⟩

/-- The flush of a queue with a frame of another interface made: an id is allocated, or the frames
of other interfaces do not all stay. -/
theorem flushAt_other {queue : Nat} (valid : (hal.txdsTristaFifo queue).Valid)
    (other : ¬ MadeMine vid (hal.txdsTristaFifo queue)) :
    hal.ids.Allocates (flushAt vid hal queue).ids ∨
      ((flushAt vid hal queue).txdsTristaFifo queue).waiting ≠
        (hal.txdsTristaFifo queue).waiting.filter fun elt => !flushMine vid elt := by
  obtain ⟨start, set, made, staged⟩ := valid
  rw [MadeMine, staged.stage_make] at other
  obtain ⟨first, elt, last, rfl, mine, foreign⟩ := exists_first_other made other
  cases allocated : (halAllocTxId hal.ids elt).1 with
  | some id =>
    have taken : halAllocTxId hal.ids elt = (some id, (halAllocTxId hal.ids elt).2) :=
      Prod.ext allocated rfl
    exact Or.inl (flushQueue_allocates staged mine foreign taken)
  | none =>
    refine Or.inr fun same => ?_
    have left := flushQueue_failed staged mine foreign allocated
    have after : ((flushAt vid hal queue).txdsTristaFifo queue).waiting =
        last ++ (set ++ first).filter fun elt => !flushMine vid elt := by
      rw [flushAt]
      simp only [Function.update_self, SharedFifo.waiting, left.stage_set, left.stage_make,
        List.nil_append]
    have before : (hal.txdsTristaFifo queue).waiting = (set ++ first) ++ elt :: last := by
      rw [SharedFifo.waiting, staged.stage_set, staged.stage_make, List.append_assoc]
    rw [after, before, List.filter_append (set ++ first),
      List.filter_cons_of_pos (by simp [foreign])] at same
    -- what is left behind the frame would have to belong to other interfaces, and one is missing
    have others : last.filter (fun elt => !flushMine vid elt) = last := by
      refine List.filter_eq_self.mpr fun item found => ?_
      have inside : item ∈ (set ++ first).filter (fun elt => !flushMine vid elt) ++
          elt :: last.filter fun elt => !flushMine vid elt := by
        rw [← same]
        exact List.mem_append_left _ found
      rcases List.mem_append.mp inside with early | late
      · exact (List.mem_filter.mp early).2
      · rcases List.mem_cons.mp late with head | tail
        · rw [head, foreign]
          rfl
        · exact (List.mem_filter.mp tail).2
    have count := congrArg List.length same
    rw [others] at count
    simp only [List.length_append, List.length_cons] at count
    omega

theorem flushAt_elsewhere {queue away : Nat} (apart : away ≠ queue) :
    (flushAt vid hal queue).txdsTristaFifo away = hal.txdsTristaFifo away :=
  Function.update_of_ne apart _ _

theorem flushAt_leads (queue : Nat) : hal.ids.Leads (flushAt vid hal queue).ids :=
  flushQueue_leads ⟨hal.txdsTristaFifo queue, hal.ids⟩

theorem flushAll_elsewhere (queues : List Nat) {away : Nat} (apart : away ∉ queues) :
    (queues.foldl (flushAt vid) hal).txdsTristaFifo away = hal.txdsTristaFifo away := by
  induction queues generalizing hal with
  | nil => rfl
  | cons queue rest induction =>
    rw [List.foldl_cons, induction (fun found => apart (List.mem_cons_of_mem _ found))]
    apply flushAt_elsewhere
    rintro rfl
    exact apart List.mem_cons_self

private theorem flushAll_leads (queues : List Nat) :
    hal.ids.Leads (queues.foldl (flushAt vid) hal).ids := by
  induction queues generalizing hal with
  | nil => exact TxIds.Leads.refl _
  | cons queue rest induction => exact (flushAt_leads queue).trans induction

/-- The flush of queues whose frames made belong to the interface. -/
theorem flushAll_mine (queues : List Nat) (distinct : queues.Nodup)
    (valid : ∀ queue ∈ queues, (hal.txdsTristaFifo queue).Valid)
    (mine : ∀ queue ∈ queues, MadeMine vid (hal.txdsTristaFifo queue)) :
    (∀ queue ∈ queues, ((queues.foldl (flushAt vid) hal).txdsTristaFifo queue).waiting =
        (hal.txdsTristaFifo queue).waiting.filter fun elt => !flushMine vid elt) ∧
      (queues.foldl (flushAt vid) hal).ids =
        (queues.flatMap fun queue =>
          (hal.txdsTristaFifo queue).waiting.filter (flushMine vid)).foldl flushElt hal.ids := by
  induction queues generalizing hal with
  | nil => exact ⟨by simp, rfl⟩
  | cons queue rest induction =>
    obtain ⟨fresh, distinctRest⟩ := List.nodup_cons.mp distinct
    obtain ⟨stayed, idsNow⟩ :=
      flushAt_mine (valid queue List.mem_cons_self) (mine queue List.mem_cons_self)
    have untouched : ∀ away ∈ rest,
        (flushAt vid hal queue).txdsTristaFifo away = hal.txdsTristaFifo away := by
      intro away found
      apply flushAt_elsewhere
      rintro rfl
      exact fresh found
    have validRest : ∀ away ∈ rest, ((flushAt vid hal queue).txdsTristaFifo away).Valid := by
      intro away found
      rw [untouched away found]
      exact valid away (List.mem_cons_of_mem _ found)
    have mineRest : ∀ away ∈ rest, MadeMine vid ((flushAt vid hal queue).txdsTristaFifo away) := by
      intro away found
      rw [untouched away found]
      exact mine away (List.mem_cons_of_mem _ found)
    obtain ⟨stayedRest, idsRest⟩ := induction distinctRest validRest mineRest
    constructor
    · intro away found
      rcases List.mem_cons.mp found with rfl | later
      · rw [List.foldl_cons, flushAll_elsewhere rest fresh]
        exact stayed
      · rw [List.foldl_cons, stayedRest away later, untouched away later]
    · rw [List.foldl_cons, idsRest, idsNow, List.flatMap_cons, List.foldl_append]
      congr 1
      exact List.flatMap_congr fun away found => by rw [untouched away found]

/-- The flush of queues one of which has a frame of another interface made. -/
theorem flushAll_other (queues : List Nat) (distinct : queues.Nodup)
    (valid : ∀ queue ∈ queues, (hal.txdsTristaFifo queue).Valid) {queue : Nat}
    (member : queue ∈ queues) (other : ¬ MadeMine vid (hal.txdsTristaFifo queue)) :
    hal.ids.Allocates (queues.foldl (flushAt vid) hal).ids ∨
      ∃ queue ∈ queues, ((queues.foldl (flushAt vid) hal).txdsTristaFifo queue).waiting ≠
        (hal.txdsTristaFifo queue).waiting.filter fun elt => !flushMine vid elt := by
  induction queues generalizing hal with
  | nil => cases member
  | cons head rest induction =>
    obtain ⟨fresh, distinctRest⟩ := List.nodup_cons.mp distinct
    rw [List.foldl_cons]
    by_cases here : MadeMine vid (hal.txdsTristaFifo head)
    · have later : queue ∈ rest := by
        rcases List.mem_cons.mp member with rfl | found
        · exact absurd here other
        · exact found
      have untouched : ∀ away ∈ rest,
          (flushAt vid hal head).txdsTristaFifo away = hal.txdsTristaFifo away := by
        intro away found
        apply flushAt_elsewhere
        rintro rfl
        exact fresh found
      have validRest : ∀ away ∈ rest, ((flushAt vid hal head).txdsTristaFifo away).Valid := by
        intro away found
        rw [untouched away found]
        exact valid away (List.mem_cons_of_mem _ found)
      have otherRest : ¬ MadeMine vid ((flushAt vid hal head).txdsTristaFifo queue) := by
        rw [untouched queue later]
        exact other
      rcases induction distinctRest validRest later otherRest with allocates | ⟨away, found, lost⟩
      · exact Or.inl (allocates.after (flushAt_leads head))
      · rw [untouched away found] at lost
        exact Or.inr ⟨away, List.mem_cons_of_mem _ found, lost⟩
    · rcases flushAt_other (valid head List.mem_cons_self) here with allocates | lost
      · exact Or.inl (allocates.before (flushAll_leads rest))
      · refine Or.inr ⟨head, List.mem_cons_self, ?_⟩
        rw [flushAll_elsewhere rest fresh]
        exact lost

end Queues

section Law

variable {ids : TxIds} {frames : List FwTxdescFifo}

/-- A frame that carries an id in use: the first one that carries it frees it. -/
theorem exists_frees {id : Nat} (busy : ids.Busy id) {elt : FwTxdescFifo} (found : elt ∈ frames)
    (carries : elt.hostcallbackid = id) :
    ∃ first item last, frames = first ++ item :: last ∧ ids.Frees first item ∧
      item.hostcallbackid = id := by
  induction frames with
  | nil => cases found
  | cons head rest induction =>
    by_cases first : head.hostcallbackid = id
    · refine ⟨[], head, rest, rfl, ⟨?_, by simp⟩, first⟩
      rw [first]
      exact busy
    · have later : elt ∈ rest := by
        rcases List.mem_cons.mp found with rfl | tail
        · exact absurd carries first
        · exact tail
      obtain ⟨before, item, last, split, frees, same⟩ := induction later
      refine ⟨head :: before, item, last, by rw [split, List.cons_append], ⟨frees.1, ?_⟩, same⟩
      refine List.forall_mem_cons.mpr ⟨?_, frees.2⟩
      rw [same]
      exact first

/-- What the flush of frames does is lawful exactly when they flush their own ids. -/
theorem flushesOwn_iff :
    FlushesOwn ids frames ↔
      ids.givenAll [] frames = frames.map (fun elt => (elt.callback, elt.txqueueid)) ∧
      ∀ id ∈ ids.freedAll [] frames, ∃ owner ∈ frames, ids.Holds owner ∧
        owner.hostcallbackid = id := by
  rw [givenAll_own_iff]
  constructor
  · intro own
    refine ⟨fun first elt last split => ?_, fun id found => ?_⟩
    · have each := own first elt last split
      rw [List.nil_append, TxIds.given]
      by_cases frees : ids.Frees first elt
      · rw [if_pos frees] at each ⊢
        exact each.2
      · rw [if_neg frees] at each ⊢
        exact each.symm
    · obtain ⟨first, elt, last, split, frees, same⟩ := (mem_freedAll_iff frames).mp found
      have each := own first elt last split
      rw [List.nil_append] at frees
      rw [if_pos frees, same] at each
      exact each.1
  · rintro ⟨given, freed⟩ first elt last split
    have queue := given first elt last split
    rw [List.nil_append, TxIds.given] at queue
    by_cases frees : ids.Frees first elt
    · rw [if_pos frees] at queue ⊢
      exact ⟨freed _ ((mem_freedAll_iff frames).mpr ⟨first, elt, last, split, frees, rfl⟩), queue⟩
    · rw [if_neg frees] at queue ⊢
      exact queue.symm

/-- The flush keeps its law exactly when no frame of another interface is still without an id, and
every flushed frame flushes an id of its own. -/
theorem halTxFlush_law_iff (vid : Nat) (hal : HalTx)
    (valid : ∀ queue, queue < halNumTxQueues → (hal.txdsTristaFifo queue).Valid) :
    FlushLaw vid hal (halTxFlush vid hal) ↔
      (∀ queue, queue < halNumTxQueues → MadeMine vid (hal.txdsTristaFifo queue)) ∧
        FlushesOwn hal.ids (flushed vid hal) := by
  obtain ⟨start, start_eq⟩ : ∃ start : HalTx,
      start = { hal with ids := { hal.ids with bhaltxdrop := !halIsEmptyTxId hal.ids } } := ⟨_, rfl⟩
  have fifos : start.txdsTristaFifo = hal.txdsTristaFifo := by rw [start_eq]
  have handled : start.ids.handled = hal.ids.handled := by rw [start_eq]
  have changes : start.ids.changes = hal.ids.changes := by rw [start_eq]
  have fresh : hal.ids.After [] start.ids := by
    rw [start_eq]
    exact ⟨fun id => by simp [TxIds.Busy], rfl⟩
  have validAll : ∀ queue ∈ List.range halNumTxQueues, (start.txdsTristaFifo queue).Valid := by
    intro queue found
    rw [fifos]
    exact valid queue (List.mem_range.mp found)
  have flushedAll : (halTxFlush vid hal) =
      { (List.range halNumTxQueues).foldl (flushAt vid) start with
        ids := { ((List.range halNumTxQueues).foldl (flushAt vid) start).ids with
          bhaltxdrop := false } } := by rw [start_eq]; rfl
  by_cases mine : ∀ queue, queue < halNumTxQueues → MadeMine vid (hal.txdsTristaFifo queue)
  · have mineAll : ∀ queue ∈ List.range halNumTxQueues,
        MadeMine vid (start.txdsTristaFifo queue) := by
      intro queue found
      rw [fifos]
      exact mine queue (List.mem_range.mp found)
    obtain ⟨stayed, idsNow⟩ := flushAll_mine _ List.nodup_range validAll mineAll
    rw [fifos] at stayed idsNow
    obtain ⟨after, handledNow, changesNow⟩ := foldl_flushElt (flushed vid hal) fresh
    have finalIds : ((List.range halNumTxQueues).foldl (flushAt vid) start).ids =
        (flushed vid hal).foldl flushElt start.ids := idsNow
    rw [handled] at handledNow
    rw [changes] at changesNow
    rw [List.nil_append] at after
    rw [flushedAll]
    constructor
    · intro law
      refine ⟨mine, flushesOwn_iff.mpr ⟨?_, ?_⟩⟩
      · have completed := law.completed
        simp only [finalIds, handledNow] at completed
        exact List.append_cancel_left completed
      · obtain ⟨freed, freedChanges, owned⟩ := law.freed
        simp only [finalIds, changesNow] at freedChanges
        have same := List.append_cancel_left freedChanges
        rw [List.map_inj_right fun first second eq => IdChange.free.inj eq] at same
        rw [same]
        exact owned
    · rintro ⟨-, own⟩
      obtain ⟨given, freed⟩ := flushesOwn_iff.mp own
      refine ⟨?_, ?_, ⟨hal.ids.freedAll [] (flushed vid hal), ?_, freed⟩, ?_⟩
      · simp only [finalIds, handledNow, given]
      · intro queue inside
        exact stayed queue (List.mem_range.mpr inside)
      · simp only [finalIds, changesNow]
      · intro id
        have busy : TxIds.Busy { ((List.range halNumTxQueues).foldl (flushAt vid) start).ids with
            bhaltxdrop := false } id ↔ ((flushed vid hal).foldl flushElt start.ids).Busy id := by
          rw [finalIds]
          rfl
        rw [busy, after.busy id]
        refine and_congr_right fun used => ⟨fun none owner found _ => none owner found, ?_⟩
        intro notHeld elt found carries
        obtain ⟨first, item, last, split, frees, same⟩ := exists_frees used found carries
        have listed : id ∈ hal.ids.freedAll [] (flushed vid hal) :=
          (mem_freedAll_iff _).mpr ⟨first, item, last, split, frees, same⟩
        obtain ⟨owner, member, holds, carried⟩ := freed id listed
        exact notHeld owner member holds carried
  · refine ⟨fun law => ?_, fun conditions => absurd conditions.1 mine⟩
    obtain ⟨queue, inside, other⟩ :
        ∃ queue, queue < halNumTxQueues ∧ ¬ MadeMine vid (hal.txdsTristaFifo queue) := by
      by_contra none
      exact mine fun queue inside => by_contra fun other => none ⟨queue, inside, other⟩
    rw [← fifos] at other
    rw [flushedAll] at law
    rcases flushAll_other _ List.nodup_range validAll (List.mem_range.mpr inside) other with
      ⟨more, id, changed, allocated⟩ | ⟨away, found, lost⟩
    · obtain ⟨freed, freedChanges, -⟩ := law.freed
      rw [changes] at changed
      have same := List.append_cancel_left (changed.symm.trans freedChanges)
      rw [same] at allocated
      obtain ⟨_, _, impossible⟩ := List.mem_map.mp allocated
      cases impossible
    · rw [fifos] at lost
      exact absurd (law.kept away (List.mem_range.mp found)) lost

/-- A frame alone in a transmission. -/
def loneElt (callback txqueueid vid : Nat) : FwTxdescFifo :=
  ⟨callback, txqueueid, vid, 0, 1, 1, 1, 0⟩

/-- Fifos with one frame made, in one queue. -/
def loneTx (queue : Nat) (elt : FwTxdescFifo) (ids : TxIds) : HalTx where
  txdsTristaFifo := fun index =>
    if index = queue then halFill (coSharedFifoInit 80 fun _ => elt) elt
    else coSharedFifoInit 80 fun _ => elt
  ids := ids

def firstBusy : TxIds where
  txFramesMap := fun id => id == 0
  txFrames := fun _ => ⟨9, 4⟩
  bhaltxdrop := false
  txSendOkEventNum := fun _ => 0
  changes := []
  handled := []

/-- The next frame made is set, with an id. -/
def setNext (id : Nat) (fifo : SharedFifo FwTxdescFifo) : SharedFifo FwTxdescFifo :=
  match coSharedFifoGet fifo .make 1 with
  | (some ptr, fifo) =>
    coSharedFifoPut (fifo.write ptr { fifo.elts ptr with hostcallbackid := id }) .make 1
  | (none, fifo) => fifo

/-- Two interfaces have frames in queue 0, and in queue 4, where all of them are set. In queue 0 the
two frames made belong to interface 0, with an id of a frame set and with one that is free. -/
def mixedTx : HalTx where
  txdsTristaFifo := fun index =>
    let empty := coSharedFifoInit 80 fun _ => loneElt 0 0 0
    if index = 0 then
      [{ loneElt 3 0 0 with hostcallbackid := 5 }, loneElt 4 0 0].foldl halFill
        (setNext 6 (setNext 5 ([loneElt 1 0 0, loneElt 2 0 1].foldl halFill empty)))
    else if index = 4 then
      setNext 8 (setNext 7 ([loneElt 5 4 1, loneElt 6 4 0].foldl halFill empty))
    else empty
  ids := { firstBusy with
    txFramesMap := fun id => [5, 6, 7, 8].contains id
    txFrames := fun id =>
      ([⟨1, 0⟩, ⟨2, 0⟩, ⟨5, 4⟩, ⟨6, 4⟩] : List TxFrameDesc).getD (id - 5) ⟨0, 0⟩ }

private theorem mixedTx_valid (queue : Nat) : (mixedTx.txdsTristaFifo queue).Valid := by
  by_cases first : queue = 0
  · subst first
    exact ⟨1, [{ loneElt 1 0 0 with hostcallbackid := 5 },
      { loneElt 2 0 1 with hostcallbackid := 6 }],
      [{ loneElt 3 0 0 with hostcallbackid := 5 }, loneElt 4 0 0], by
        constructor <;> decide +kernel⟩
  · by_cases second : queue = 4
    · subst second
      exact ⟨1, [{ loneElt 5 4 1 with hostcallbackid := 7 },
        { loneElt 6 4 0 with hostcallbackid := 8 }], [], by
          constructor <;> decide +kernel⟩
    · rw [mixedTx]
      simp only [if_neg first, if_neg second]
      exact ⟨1, [], [], SharedFifo.init_staged _ (by decide)⟩

theorem halTxFlush_law_iff_mixed :
    FlushLaw 0 mixedTx (halTxFlush 0 mixedTx) ∧
      (flushed 0 mixedTx).map FwTxdescFifo.callback = [1, 3, 4, 6] := by
  constructor
  · refine (halTxFlush_law_iff 0 mixedTx fun queue _ => mixedTx_valid queue).mpr ⟨?_, ?_⟩
    · simp only [MadeMine]
      decide +kernel
    · rw [flushesOwn_iff]
      simp only [TxIds.Holds]
      decide +kernel
  · decide +kernel

/-- A frame of queue 1 that has no id yet carries 0: its flush frees the id of a frame in flight,
and completes it under that frame's queue. -/
theorem halTxFlush_freesForeign :
    ¬ FlushLaw 0 (loneTx 1 (loneElt 7 1 0) firstBusy)
      (halTxFlush 0 (loneTx 1 (loneElt 7 1 0) firstBusy)) := by
  intro law
  have completed := law.completed
  revert completed
  decide +kernel

end Law

end W522a.Hal
