import W522a.Tx.Numbers

/-!
Whether two outstanding frames ever carry the same sequence number. The numbers come from `seq_next`
and, for other frames of the same identifier, from `sta_txseqs`; a drain takes `seq_next` back.
-/

namespace W522a.Tx

/-- The number of a frame that does not take it from `seq_next`. -/
def TxRequest.ownNumber (request : TxRequest) : Nat :=
  if request.txfrag then request.desc.seqnum else request.txSeq

/-- How many numbers of `seq_next` were given out since that of a frame. -/
def BaWindow.since (win : BaWindow) (ptxdesc : TxDesc) : Nat :=
  drvBaIndex ptxdesc.seqnum win.seqNext

/-- An identifier, with the numbers of outstanding frames that did not come from `seq_next`. While
no two outstanding frames share a number, the number tells the frame. -/
structure Numbered where
  tid : TxTid
  own : List Nat

instance (request : TxRequest) (tid : TxTid) : Decidable (UsesSeqNext request tid) := by
  unfold UsesSeqNext
  infer_instance

/-- The numbers from elsewhere, with that of the frame that a step sends. -/
def Numbered.ownWith (seen : Numbered) : TxEvent → List Nat
  | .send _ request =>
    if UsesSeqNext request seen.tid then seen.own
    else request.ownNumber % wifinetSeqMax :: seen.own
  | _ => seen.own

def numberStep (seen : Numbered) (moment : TxEnv × TxEvent) : Numbered where
  tid := txStep seen.tid moment
  own := (seen.ownWith moment.2).filter (· ∈ numbers (txStep seen.tid moment))

/-- The frame took its number from `seq_next`. -/
def Numbered.Counted (seen : Numbered) (ptxdesc : TxDesc) : Prop :=
  ptxdesc.seqnum % wifinetSeqMax ∉ seen.own

/-- The steps that are safe for the numbers. A number of `seq_next` is given out while no frame that
was numbered from it 4095 numbers ago is outstanding, and no frame with the same number from
elsewhere; a number from elsewhere is not that of an outstanding frame; and a drain takes back no
number of a frame that the hardware has. -/
def NumberOk (seen : Numbered) (moment : TxEnv × TxEvent) : Prop :=
  match moment.2 with
  | .send _ request =>
    (UsesSeqNext request seen.tid →
        seen.tid.win.seqNext ∉ seen.own ∧
          ∀ ptxdesc ∈ outstanding seen.tid,
            seen.Counted ptxdesc → seen.tid.win.since ptxdesc ≠ 4095) ∧
      (¬ UsesSeqNext request seen.tid →
        ∀ ptxdesc ∈ outstanding seen.tid,
          ptxdesc.seqnum % wifinetSeqMax ≠ request.ownNumber % wifinetSeqMax)
  | .flushfree =>
    seen.tid.bWork = true → ∀ ptxdesc ∈ seen.tid.inHal ++ seen.tid.normal.map Subtype.val,
      seen.Counted ptxdesc →
        seen.tid.win.index seen.tid.win.seqNext ≤ seen.tid.win.index ptxdesc.seqnum
  | _ => True

instance (seen : Numbered) (ptxdesc : TxDesc) : Decidable (seen.Counted ptxdesc) :=
  inferInstanceAs (Decidable (_ ∉ _))

instance (seen : Numbered) : ∀ moment, Decidable (NumberOk seen moment)
  | (_, .send _ _) => inferInstanceAs (Decidable (_ ∧ _))
  | (_, .flushfree) => inferInstanceAs (Decidable (_ → _))
  | (_, .task _) | (_, .complete _ _) | (_, .completeNormal _ _) | (_, .reqSetup)
  | (_, .rspProcess _ _) | (_, .requestTimer) | (_, .pause) | (_, .resume _) | (_, .flush)
  | (_, .cleanup) | (_, .ampduDel) | (_, .addbaClear) | (_, .shared _ _ _) => instDecidableTrue

/-- The outstanding numbers differ from one another, and only a number from elsewhere may be the one
that is given out next. -/
structure NumberInv (own : List Nat) (tid : TxTid) : Prop where
  startInside : tid.win.seqStart < 4096
  nextInside : tid.win.seqNext < 4096
  apart : (numbers tid).Nodup
  fresh : tid.win.seqNext ∈ numbers tid → tid.win.seqNext ∈ own

section Steps

variable {env : TxEnv} {tid first second : TxTid} {own : List Nat} {seen : Numbered}

theorem NumberInv.of_settles (inv : NumberInv own first) (settles : Settles first second) :
    NumberInv own second where
  startInside := settles.start inv.startInside inv.nextInside
  nextInside := settles.next.symm ▸ inv.nextInside
  apart := Multiset.nodup_of_le settles.fewer inv.apart
  fresh := by
    rw [settles.next]
    exact fun member => inv.fresh (Multiset.mem_of_le settles.fewer member)

/-- The numbers from elsewhere are kept as long as they are outstanding. -/
theorem NumberInv.filter (inv : NumberInv own tid) :
    NumberInv (own.filter (· ∈ numbers tid)) tid where
  startInside := inv.startInside
  nextInside := inv.nextInside
  apart := inv.apart
  fresh := fun member =>
    List.mem_filter.mpr ⟨inv.fresh member, decide_eq_true member⟩

theorem mem_numbers {number : Nat} :
    number ∈ numbers tid ↔ ∃ ptxdesc ∈ outstanding tid, ptxdesc.seqnum % wifinetSeqMax = number := by
  have whole : numbers tid = numbersOf (outstanding tid) := by
    rw [outstanding, numbersOf_append, numbersOf_append]
    rfl
  rw [whole, numbersOf, Multiset.mem_coe, List.mem_map]

private theorem NumberInv.add {number : Nat} (inv : NumberInv own first)
    (win : second.win.seqStart = first.win.seqStart) (inside : second.win.seqNext < 4096)
    (joined : numbers second = numbers first + {number}) (other : number ∉ numbers first)
    {all : List Nat} (fresh : second.win.seqNext ∈ numbers first → second.win.seqNext ∈ all)
    (apart : second.win.seqNext = number → second.win.seqNext ∈ all) : NumberInv all second where
  startInside := win.symm ▸ inv.startInside
  nextInside := inside
  apart := by
    rw [joined, add_comm]
    exact Multiset.nodup_cons.mpr ⟨other, inv.apart⟩
  fresh := by
    rw [joined, Multiset.mem_add, Multiset.mem_singleton]
    exact fun member => member.elim fresh apart

/-- What a prepared frame does once it is given to the queue or to `drv_tx_normal`. -/
theorem passOn_numbers (env : TxEnv) (ptxdesc : TxDesc) (tid : TxTid) :
    (enqueueAmpdu env ptxdesc tid).1.win = tid.win ∧
      numbers (enqueueAmpdu env ptxdesc tid).1 =
        numbers tid + {ptxdesc.seqnum % wifinetSeqMax} := by
  have normal : numbers (drvTxNormal ptxdesc (drvTxbaQuarantine env .pendingFuse tid)) =
      numbers tid + {ptxdesc.seqnum % wifinetSeqMax} := by
    simp only [drvTxNormal, numbers, List.map_append, numbersOf_append]
    rw [add_assoc _ (numbersOf (tid.normal.map Subtype.val))]
    rfl
  have queued : numbers { tid with txdsQueue := tid.txdsQueue ++ [ptxdesc] } =
      numbers tid + {ptxdesc.seqnum % wifinetSeqMax} := by
    simp only [numbers, numbersOf_append]
    have single : numbersOf [ptxdesc] = {ptxdesc.seqnum % wifinetSeqMax} := rfl
    rw [single]
    simp only [add_assoc, add_comm]
  unfold enqueueAmpdu
  split
  · exact ⟨rfl, normal⟩
  · dsimp only
    unfold drvTxQueueTid
    split
    · exact ⟨rfl, queued⟩
    · exact ⟨rfl, queued⟩

@[simp] theorem drvTxPrepare_normal (request : TxRequest) (tid : TxTid) :
    (drvTxPrepare request tid).2.normal = tid.normal := by
  unfold drvTxPrepare takeSeqNext
  dsimp only
  split
  · rfl
  · split
    · split <;> rfl
    · split <;> rfl

private theorem drvTxPrepare_ownNumber {request : TxRequest} (other : ¬ UsesSeqNext request tid) :
    (drvTxPrepare request tid).1.seqnum = request.ownNumber := by
  unfold drvTxPrepare TxRequest.ownNumber
  unfold UsesSeqNext at other
  dsimp only
  by_cases special : request.special ∨ request.desc.bNulldata
  · simp only [if_pos special]
    split <;> rfl
  · simp only [if_neg special]
    by_cases aggregates : request.aggregable ∧ !tid.cleanupInprogress ∧ tid.addbaExchangecomplete
    · simp only [if_pos aggregates]
      cases fragment : request.txfrag with
      | true => rfl
      | false => exact absurd ⟨special, by rw [if_pos aggregates]; exact fragment⟩ other
    · simp only [if_neg aggregates]
      cases vht : request.vhtRate with
      | true => exact absurd ⟨special, by rw [if_neg aggregates]; exact vht⟩ other
      | false =>
        simp only [Bool.false_eq_true, if_false]
        split <;> rfl

/-- A prepared frame joins the outstanding ones before the scheduler runs. -/
theorem drvSend_joins (env : TxEnv) (hal : Nat → HalTurn) (request : TxRequest) (tid : TxTid) :
    ∃ joined, joined.win = (drvTxPrepare request tid).2.win ∧
      numbers joined = numbers (drvTxPrepare request tid).2 +
        {(drvTxPrepare request tid).1.seqnum % wifinetSeqMax} ∧
      Settles joined (drvSend env hal request tid) := by
  unfold drvSend
  dsimp only
  split
  · obtain ⟨win, joined⟩ := passOn_numbers env (drvTxPrepare request tid).1
      (drvTxPrepare request tid).2
    exact ⟨_, win, joined, Settles.runTask (.refl _)⟩
  · refine ⟨drvTxNormal (drvTxPrepare request tid).1 (drvTxPrepare request tid).2, rfl, ?_,
      .refl _⟩
    simp only [drvTxNormal, numbers, List.map_append, numbersOf_append]
    rw [add_assoc _ (numbersOf ((drvTxPrepare request tid).2.normal.map Subtype.val))]
    rfl

private theorem NumberInv.send {hal : Nat → HalTurn} {request : TxRequest}
    (inv : NumberInv seen.own seen.tid) (safe : NumberOk seen (env, .send hal request)) :
    NumberInv (seen.ownWith (.send hal request)) (drvSend env hal request seen.tid) := by
  obtain ⟨young, apart⟩ := safe
  have nextInside := inv.nextInside
  obtain ⟨joined, win, numbered, settles⟩ := drvSend_joins env hal request seen.tid
  refine NumberInv.of_settles ?_ settles
  rcases drvTxPrepare_cases request seen.tid with ⟨uses, core, seqnum, -, -⟩ | ⟨other, same, -⟩
  · obtain ⟨preparedWin, others⟩ := Prod.mk.inj core
    obtain ⟨inHal, queue⟩ := Prod.mk.inj others
    obtain ⟨unowned, young⟩ := young uses
    have kept : numbers (drvTxPrepare request seen.tid).2 = numbers seen.tid := by
      rw [numbers, numbers, inHal, queue, drvTxPrepare_normal]
    rw [kept, seqnum, Nat.mod_eq_of_lt nextInside] at numbered
    rw [preparedWin] at win
    have next : joined.win.seqNext = circleAddOne seen.tid.win.seqNext 4096 := by
      rw [win]
    have below : circleAddOne seen.tid.win.seqNext 4096 < 4096 := by
      unfold circleAddOne
      split <;> omega
    rw [Numbered.ownWith, if_pos uses]
    refine inv.add (by rw [win]) (by rw [next]; exact below) numbered
      (fun member => unowned (inv.fresh member)) ?_ ?_
    · rw [next]
      intro member
      obtain ⟨ptxdesc, found, number⟩ := mem_numbers.mp member
      by_contra counted
      rw [← number] at counted
      refine young ptxdesc found counted ?_
      -- a frame that carries the number after the next one was numbered 4095 numbers ago
      simp only [BaWindow.since, drvBaIndex, wifinetSeqMax, circleAddOne] at number ⊢
      split at number <;> omega
    · rw [next]
      unfold circleAddOne
      split <;> omega
  · have notCarried := apart other
    have own : (drvTxPrepare request seen.tid).1.seqnum = request.ownNumber :=
      drvTxPrepare_ownNumber other
    rw [same] at win numbered
    rw [own] at numbered
    rw [Numbered.ownWith, if_neg other]
    refine inv.add (by rw [win]) (by rw [win]; exact nextInside) numbered ?_ ?_ ?_
    · intro member
      obtain ⟨ptxdesc, found, number⟩ := mem_numbers.mp member
      exact notCarried ptxdesc found number
    · rw [win]
      exact fun member => List.mem_cons_of_mem _ (inv.fresh member)
    · exact fun equal => equal ▸ List.mem_cons_self

private theorem numbers_orphan (tid : TxTid) :
    numbersOf (tid.inHal.map TxDesc.orphan) +
        numbersOf ((tid.normal.map NormalDesc.orphan).map Subtype.val) =
      numbersOf tid.inHal + numbersOf (tid.normal.map Subtype.val) := by
  have orphaned : (tid.normal.map NormalDesc.orphan).map Subtype.val =
      (tid.normal.map Subtype.val).map TxDesc.orphan := by
    rw [List.map_map, List.map_map]
    rfl
  rw [orphaned, numbersOf_orphan, numbersOf_orphan]

/-- A drain leaves the frames of the hardware and takes `seq_next` back to the window's start. -/
theorem drvTidDrain_numbers (env : TxEnv) (tid : TxTid) :
    (drvTidDrain env tid).win.seqStart = tid.win.seqStart ∧
      (drvTidDrain env tid).win.seqNext = tid.win.seqStart ∧
      numbers (drvTidDrain env tid) =
        numbersOf tid.inHal + numbersOf (tid.normal.map Subtype.val) := by
  have core : (drvTidSwqCleanup env tid).core = (tid.win, tid.inHal, []) :=
    drvTxCompleteList_core _ _ _ _
  have normal : (drvTidSwqCleanup env tid).normal = tid.normal := drvTxCompleteList_normal _ _ _ _
  obtain ⟨win, others⟩ := Prod.mk.inj core
  obtain ⟨inHal, queue⟩ := Prod.mk.inj others
  have start : (drvTidSwqCleanup env tid).win.seqStart = tid.win.seqStart := by
    rw [win]
  refine ⟨start, start, ?_⟩
  simp only [drvTidDrain, numbers, inHal, queue, normal, numbersOf_nil, zero_add]

private theorem NumberInv.flushfree (inv : NumberInv seen.own seen.tid)
    (safe : NumberOk seen (env, .flushfree)) :
    NumberInv seen.own { drvTxlistFreeAllByVid env seen.tid with txdsPendingCnt := 0 } := by
  have startInside := inv.startInside
  have nextInside := inv.nextInside
  unfold drvTxlistFreeAllByVid
  dsimp only
  by_cases waiting : seen.tid.bWork = true
  · obtain ⟨start, next, left⟩ := drvTidDrain_numbers env { seen.tid with
      inHal := seen.tid.inHal.map TxDesc.orphan
      normal := seen.tid.normal.map NormalDesc.orphan
      bWork := false }
    rw [if_pos waiting]
    rw [numbers_orphan] at left
    have fewer : numbersOf seen.tid.inHal + numbersOf (seen.tid.normal.map Subtype.val) ≤
        numbers seen.tid := by
      rw [numbers, add_assoc]
      exact Multiset.le_add_left _ _
    refine ⟨start.symm ▸ startInside, next.symm ▸ startInside, ?_, ?_⟩
    · exact left.symm ▸ Multiset.nodup_of_le fewer inv.apart
    · intro member
      have found : seen.tid.win.seqStart ∈
          numbersOf (seen.tid.inHal ++ seen.tid.normal.map Subtype.val) := by
        rw [numbersOf_append, ← left, ← next]
        exact member
      obtain ⟨ptxdesc, inside, number⟩ := List.mem_map.mp (Multiset.mem_coe.mp found)
      rw [next]
      by_contra counted
      have behind := safe waiting ptxdesc inside (by rw [Numbered.Counted, number]; exact counted)
      have carried : seen.tid.win.seqStart ∈ numbers seen.tid :=
        Multiset.mem_of_le fewer (numbersOf_append ▸ found)
      -- the start is taken back only as far as the next number
      have equal : seen.tid.win.seqStart = seen.tid.win.seqNext := by
        simp only [BaWindow.index, drvBaIndex, wifinetSeqMax] at behind number
        omega
      exact counted (equal.symm ▸ inv.fresh (equal ▸ carried))
  · rw [if_neg waiting]
    refine ⟨startInside, nextInside, ?_, ?_⟩
    · have apart := inv.apart
      rw [numbers, add_assoc, ← numbers_orphan, ← add_assoc] at apart
      exact apart
    · have fresh := inv.fresh
      rw [numbers, add_assoc, ← numbers_orphan, ← add_assoc] at fresh
      exact fresh

private theorem numberStep_numbers (seen : Numbered) (moment : TxEnv × TxEvent)
    (inv : NumberInv seen.own seen.tid) (safe : NumberOk seen moment) :
    NumberInv (numberStep seen moment).own (numberStep seen moment).tid := by
  refine NumberInv.filter ?_
  obtain ⟨env, event⟩ := moment
  cases event with
  | send hal request => exact inv.send safe
  | task hal => exact inv.of_settles (drvTxlistTask_settles hal)
  | complete index txok => exact inv.of_settles (completeAt_settles env txok seen.tid index)
  | completeNormal index txok =>
    exact inv.of_settles (completeNormalAt_settles env txok seen.tid index)
  | reqSetup => exact inv.of_settles drvAddbaReqSetup_settles
  | rspProcess hal rsp => exact inv.of_settles (drvAddbaRspProcess_settles hal rsp)
  | requestTimer => exact inv.of_settles drvAddbaTimer_settles
  | pause => exact inv.of_settles drvTxlistPauseForStaTid_settles
  | resume hal => exact inv.of_settles (Settles.runTask unpause_settles)
  | flush => exact inv.of_settles drvTxlistFlushForStaTid_settles
  | flushfree => exact inv.flushfree safe
  | cleanup => exact inv.of_settles drvTxlistCleanupForSta_settles
  | ampduDel => exact inv.of_settles drvTxampduDel_settles
  | addbaClear => exact inv.of_settles drvAddbaClear_settles
  | shared txdsPendingCnt waitMpduTimeout sampleRate => exact inv.of_settles (.of_core rfl rfl)

private theorem drvTxlistInitForSta_numbers (tidIndex : Nat) :
    NumberInv [] (drvTxlistInitForSta tidIndex) where
  startInside := (by decide : 0 < 4096)
  nextInside := (by decide : 0 < 4096)
  apart := Multiset.nodup_zero
  fresh := fun member => absurd member (Multiset.notMem_zero _)

end Steps

/-- In every run whose steps are all safe for the numbers, no two outstanding frames carry the same
one. -/
theorem noReuse_run (tidIndex : Nat) (moments : List (TxEnv × TxEvent))
    (safe : Machine.Along numberStep NumberOk ⟨drvTxlistInitForSta tidIndex, []⟩ moments) :
    NoReuse (Machine.run txStep (drvTxlistInitForSta tidIndex) moments) := by
  have inv := safe.invariant numberStep_numbers (drvTxlistInitForSta_numbers tidIndex)
  have follows : ∀ numbered moment,
      (numberStep numbered moment).tid = txStep numbered.tid moment := fun _ _ => rfl
  have runs : (Machine.run numberStep ⟨drvTxlistInitForSta tidIndex, []⟩ moments).tid =
      Machine.run txStep (drvTxlistInitForSta tidIndex) moments :=
    Machine.run_view follows _ moments
  exact noReuse_iff.mpr (runs ▸ inv.apart)

/-- A frame that takes the number 0 from elsewhere. -/
def specialRequest (id : Nat) : TxRequest :=
  { dataRequest id true with special := true, txSeq := 0 }

/-- A special frame goes out and completes before two frames are in flight, and another one waits
for the first of them, whose number it has. -/
theorem noReuse_run_special :
    NoReuse (Machine.run txStep (drvTxlistInitForSta 0) (agreement ++
      [(plainTxEnv 1, .send (roomyHal true) (specialRequest 1)),
        (plainTxEnv 1, .completeNormal 0 true),
        (plainTxEnv 1, .send (roomyHal true) (dataRequest 2 true)),
        (plainTxEnv 1, .send (roomyHal true) (dataRequest 3 true)),
        (plainTxEnv 1, .complete 0 true),
        (plainTxEnv 1, .send (roomyHal true) (specialRequest 4))])) :=
  noReuse_run 0 _ (by decide +kernel)

/-- A flush while frame 0 is in the hardware and frame 1 waits: the next frame is numbered 0
again. -/
def drainedEvents : List (TxEnv × TxEvent) :=
  agreement ++
    [(plainTxEnv 1, .send (roomyHal true) (dataRequest 1 true)),
      (plainTxEnv 1, .send (fun _ => ⟨0, true, true⟩) (dataRequest 2 true)),
      (plainTxEnv 1, .flushfree),
      (plainTxEnv 1, .send (roomyHal true) (dataRequest 3 true))]

theorem noReuse_drained :
    ¬ ∀ (tidIndex : Nat) (moments : List (TxEnv × TxEvent)),
      NoReuse (Machine.run txStep (drvTxlistInitForSta tidIndex) moments) := by
  intro apart
  have reused := noReuse_iff.mp (apart 0 drainedEvents)
  exact absurd reused (by decide +kernel)

end W522a.Tx
