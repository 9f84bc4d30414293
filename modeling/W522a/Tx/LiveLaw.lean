import W522a.Tx.Live

/-!
Whether the window of an identifier can close for ever: once nothing is in flight, the builder takes
the first frame queued, unless a number was lost between the window and the queue.
-/

namespace W522a.Tx

/-- The aggregate members in flight that still belong to a station. -/
def live (inHal : List TxDesc) : List Member :=
  (inHal.map TxDesc.member).filter fun member => member.bAmpdu && member.attached

/-- The builder takes a frame of a queue with nothing in flight, whatever the configuration, and
the first frame queued is never outside the window. -/
structure NeverStuck (tid : TxTid) : Prop where
  takes : tid.txdsQueue ≠ [] → (∀ ptxdesc ∈ tid.inHal, ptxdesc.bAmpdu = false) →
    ∀ env, (drvTxampduBuild env tid).frames ≠ []
  head : ∀ first ∈ tid.txdsQueue.head?,
    bawWithin tid.win.seqStart tid.win.bawSize first.seqnum

/-- The next number is the one behind the window and the queue. -/
def Contiguous (tid : TxTid) : Prop :=
  tid.win.seqNext % wifinetSeqMax = (tid.win.behind + tid.txdsQueue.length) % wifinetSeqMax

def JoinsQueue (env : TxEnv) (request : TxRequest) (tid : TxTid) : Prop :=
  (drvTxPrepare request tid).1.bAmpdu = true ∧
    ¬ (drvTidIsHostap env = true ∧ apAmpduPendingLimit ≤ tid.txdsPendingCnt)

/-- The steps that lose no number. A frame joins the queue with the number behind it; an aggregate
is sent as `TurnOk` says; a member that completes has its station; a request moves the window's start
only when nothing is queued or in flight; a response leaves room for what the window spans; and a
flush either drains the identifier or finds no member in flight. -/
def LiveOk (tid : TxTid) (moment : TxEnv × TxEvent) : Prop :=
  let env := moment.1
  match moment.2 with
  | .send hal request =>
    (JoinsQueue env request tid → UsesSeqNext request tid ∧ Contiguous tid) ∧
      ((drvTxPrepare request tid).1.bAmpdu = true →
        RunOk env hal
          (enqueueAmpdu env (drvTxPrepare request tid).1 (drvTxPrepare request tid).2))
  | .task hal => TaskOk env hal tid
  | .complete index _ =>
    ∀ ptxdesc, tid.inHal[index]? = some ptxdesc → ptxdesc.bAmpdu = true →
      ptxdesc.attached = true → env.sta.isSome = true
  | .reqSetup =>
    (drvTxbaQuarantined env tid).1 = true ∨
      tid.txdsQueue = [] ∧ tid.win.bawHead = tid.win.bawTail
  | .rspProcess hal rsp =>
    rsp.statuscode = wifinetStatusSuccess →
      tid.win.span ≤ clampT rsp.buffersize 1 wmeBaBmpSize ∧
        (tid.addbaExchangeinprogress = true → env.sta.isSome = true →
          RunOk env hal (unpause (acceptRsp env rsp (answerRequest rsp tid))))
  | .resume hal => RunOk env hal (unpause tid)
  | .flushfree =>
    tid.bWork = true ∨ ∀ ptxdesc ∈ tid.inHal, ptxdesc.bAmpdu = true → ptxdesc.attached = false
  | _ => True

/-- The window spans the members in flight, and the frames queued carry the numbers behind it. -/
structure Aligned (win : BaWindow) (members waiting : List Member) : Prop where
  spans : Spans win members
  opened : Opened win
  nextInside : win.seqNext < 4096
  sound : ∀ member ∈ members, member.bNulldata = false
  ready : ∀ member ∈ waiting,
    member.bAmpdu = true ∧ member.bNulldata = false ∧ member.attached = true
  follow : Follow win.behind waiting

def LiveInv (tid : TxTid) : Prop := Aligned tid.win (live tid.inHal) (queued tid)

section Aligned

variable {win : BaWindow} {members waiting : List Member}

theorem Aligned.emptied (aligned : Aligned win members waiting) : Aligned win members [] where
  spans := aligned.spans
  opened := aligned.opened
  nextInside := aligned.nextInside
  sound := aligned.sound
  ready := by
    intro member found
    cases found
  follow := trivial

/-- Sending an aggregate moves its frames from the queue into the window. -/
theorem Aligned.send {taken : List TxDesc} {rest : List Member}
    (aligned : Aligned win members (taken.map TxDesc.member ++ rest))
    (room : win.span + taken.length ≤ win.bawSize) :
    Aligned (recordAll taken win) (members ++ taken.map TxDesc.member) rest := by
  obtain ⟨first, later⟩ := follow_append.mp aligned.follow
  obtain ⟨spans, opened, longer⟩ := aligned.spans.recordAll aligned.opened first room
  have behind : (recordAll taken win).behind = win.behind + taken.length := by
    rw [BaWindow.behind, longer, (recordAll_fixed taken win).1, ← Nat.add_assoc]
    rfl
  constructor
  · exact spans
  · exact opened
  · rw [(recordAll_fixed taken win).2.1]
    exact aligned.nextInside
  · intro member found
    rcases List.mem_append.mp found with old | new
    · exact aligned.sound member old
    · exact (aligned.ready member (List.mem_append_left _ new)).2.1
  · exact fun member found => aligned.ready member (List.mem_append_right _ found)
  · rw [List.length_map] at later
    rw [behind]
    exact later

theorem Aligned.complete {before after : List Member} {member : Member}
    (aligned : Aligned win (before ++ member :: after) waiting) :
    Aligned (drvTxUpdateBaWin member.seqnum win) (before ++ after) waiting := by
  obtain ⟨spans, opened, behind⟩ := aligned.spans.complete
  have fewer : List.Sublist (before ++ after) (before ++ member :: after) :=
    List.Sublist.append_left (List.sublist_cons_self _ _) _
  constructor
  · exact spans
  · exact opened
  · rw [drvTxUpdateBaWin_seqNext]
    exact aligned.nextInside
  · exact fun other found => aligned.sound other (fewer.subset found)
  · exact aligned.ready
  · exact aligned.follow.of_mod behind

theorem Aligned.advance (aligned : Aligned win members waiting) :
    Aligned { win with seqNext := circleAddOne win.seqNext wifinetSeqMax } members waiting := by
  have inside := aligned.nextInside
  have below : circleAddOne win.seqNext 4096 < 4096 := by
    unfold circleAddOne
    split <;> omega
  have spans := aligned.spans
  exact ⟨⟨⟨spans.inside.head, spans.inside.tail, spans.inside.small, spans.inside.start⟩,
    spans.sizeLow, spans.bounded, spans.held, spans.owned, spans.distinct⟩, aligned.opened, below,
    aligned.sound, aligned.ready, aligned.follow⟩

/-- A frame joins the queue with the number behind it. -/
theorem Aligned.enqueue {member : Member} (aligned : Aligned win members waiting)
    (number : member.seqnum % wifinetSeqMax = (win.behind + waiting.length) % wifinetSeqMax)
    (ready : member.bAmpdu = true ∧ member.bNulldata = false ∧ member.attached = true) :
    Aligned win members (waiting ++ [member]) where
  spans := aligned.spans
  opened := aligned.opened
  nextInside := aligned.nextInside
  sound := aligned.sound
  ready := by
    intro other found
    rcases List.mem_append.mp found with old | new
    · exact aligned.ready other old
    · rw [List.mem_singleton.mp new]
      exact ready
  follow := follow_append.mpr ⟨aligned.follow, number, trivial⟩

theorem Aligned.restart (aligned : Aligned win members [])
    (together : win.bawHead = win.bawTail) {seqStart : Nat} (start : seqStart < 4096) :
    Aligned { win with seqStart := seqStart } members [] := by
  have spans := aligned.spans
  have zero : win.span = 0 := spans.inside.span_eq_zero_iff.mpr together
  have nobody : members = [] := spans.nobody zero
  subst nobody
  refine ⟨⟨⟨spans.inside.head, spans.inside.tail, spans.inside.small, start⟩, spans.sizeLow,
    spans.bounded, ?_, ?_, List.Pairwise.nil⟩, aligned.opened, aligned.nextInside, aligned.sound,
    aligned.ready, trivial⟩
  · intro member found
    cases found
  · intro offset bound
    have inside : offset < win.span := bound
    omega

theorem Aligned.drain (aligned : Aligned win members waiting) :
    Aligned { win with seqNext := win.seqStart, bawTail := win.bawHead } [] [] := by
  have spans := aligned.spans
  have zero :
      ({ win with seqNext := win.seqStart, bawTail := win.bawHead } : BaWindow).span = 0 := by
    simp [BaWindow.span]
  refine ⟨⟨⟨spans.inside.head, spans.inside.head, spans.inside.small, spans.inside.start⟩,
    spans.sizeLow, ?_, ?_, ?_, List.Pairwise.nil⟩, fun open_ => absurd zero open_,
    spans.inside.start, ?_, ?_, trivial⟩
  · rw [zero]
    exact Nat.zero_le _
  · intro member found
    cases found
  · intro offset bound
    rw [zero] at bound
    omega
  · intro member found
    cases found
  · intro member found
    cases found

end Aligned

section Steps

variable {env : TxEnv} {tid first second : TxTid}

theorem LiveInv.of_core (inv : LiveInv first) (same : second.core = first.core) :
    LiveInv second := by
  obtain ⟨win, others⟩ := Prod.mk.inj same
  obtain ⟨inHal, queue⟩ := Prod.mk.inj others
  rw [LiveInv, queued, win, inHal, queue]
  exact inv

theorem LiveInv.of_kept (inv : LiveInv first) (kept : Kept first second) : LiveInv second := by
  rcases kept with same | emptied
  · exact inv.of_core same
  · have without : LiveInv { first with txdsQueue := [] } := Aligned.emptied inv
    exact without.of_core emptied

theorem live_append (one other : List TxDesc) : live (one ++ other) = live one ++ live other := by
  simp [live]

private theorem live_of_ready {frames taken : List TxDesc}
    (same : frames.map TxDesc.member = taken.map TxDesc.member)
    (ready : ∀ member ∈ taken.map TxDesc.member,
      member.bAmpdu = true ∧ member.bNulldata = false ∧ member.attached = true) :
    live frames = taken.map TxDesc.member := by
  rw [live, same]
  refine List.filter_eq_self.mpr fun member found => ?_
  obtain ⟨ampdu, -, attached⟩ := ready member found
  rw [ampdu, attached]
  rfl

/-- The frames that an aggregate takes fit into the window behind what it spans. -/
theorem Aligned.room {taken rest : List TxDesc} (inv : LiveInv tid)
    (result : BuildResult env tid taken rest (drvTxampduBuild env tid)) (some_ : taken ≠ []) :
    tid.win.span + taken.length ≤ tid.win.bawSize := by
  have small := inv.spans.inside.small
  have positive := inv.spans.sizeLow
  have bounded := inv.spans.bounded
  rcases List.eq_nil_or_concat taken with nothing | ⟨front, last, shape⟩
  · exact absurd nothing some_
  · obtain ⟨⟨first, head, within⟩, -, admitted⟩ :=
      result.reached front last [] (by simpa using shape)
    have count : front.length < maxFrames env tid.win :=
      (admitted front last [] (by simp)).2.2
    have most : maxFrames env tid.win ≤ max tid.win.bawSize 1 := Nat.min_le_left _ _
    have queue : tid.txdsQueue = first :: tid.txdsQueue.tail := (List.head?_eq_some_iff.mp
      (Option.mem_def.mp head)).choose_spec ▸ rfl
    have number : first.seqnum % wifinetSeqMax = tid.win.behind % wifinetSeqMax := by
      have follow := inv.follow
      rw [queued, queue] at follow
      exact follow.1
    have index : tid.win.index first.seqnum = tid.win.span :=
      index_of_mod number (by omega)
    have length : taken.length = front.length + 1 := by simp [shape]
    simp only [bawWithin, BaWindow.index, drvBaIndex, wifinetSeqMax] at within index
    omega

theorem LiveInv.scheduled : Scheduled env LiveInv where
  same := by
    intro first second inv win inHal queue
    rw [LiveInv, win, inHal, queue]
    exact inv
  emptied := Aligned.emptied
  sent := by
    intro hal tid later taken rest inv safe result nonempty turn
    obtain ⟨flying, inHal, same⟩ := turn.inHal
    have aligned : Aligned tid.win (live tid.inHal)
        (taken.map TxDesc.member ++ rest.map TxDesc.member) := by
      rw [← List.map_append, result.queue]
      exact inv
    have ready := fun member found => aligned.ready member (List.mem_append_left _ found)
    rw [LiveInv, queued, turn.win, inHal, turn.queue, live_append, live_of_ready same ready]
    exact aligned.send (Aligned.room inv result nonempty)

end Steps

section Events

variable {env : TxEnv} {tid : TxTid}

theorem drvTxPrepare_pending (request : TxRequest) (tid : TxTid) :
    (drvTxPrepare request tid).2.txdsPendingCnt = tid.txdsPendingCnt := by
  unfold drvTxPrepare
  dsimp only
  split
  · rfl
  · split
    · split <;> rfl
    · split <;> rfl

/-- A frame joins the queue unless too many are waiting on an access point. -/
private theorem enqueueAmpdu_cases (env : TxEnv) (ptxdesc : TxDesc) (tid : TxTid) :
    (drvTidIsHostap env = true ∧ apAmpduPendingLimit ≤ tid.txdsPendingCnt) ∧
        (enqueueAmpdu env ptxdesc tid).1.core = tid.core ∨
      ¬ (drvTidIsHostap env = true ∧ apAmpduPendingLimit ≤ tid.txdsPendingCnt) ∧
        (enqueueAmpdu env ptxdesc tid).1.core =
          (tid.win, tid.inHal, tid.txdsQueue ++ [ptxdesc]) := by
  unfold enqueueAmpdu
  split
  · rename_i fused
    exact Or.inl ⟨fused, rfl⟩
  · rename_i open_
    exact Or.inr ⟨open_, drvTxQueueTid_core { tid with txdsQueue := tid.txdsQueue ++ [ptxdesc] }⟩

/-- A frame with a number of its own goes behind the queue or outside the aggregates. -/
private theorem LiveInv.sendNumbered {hal : Nat → HalTurn} {request : TxRequest}
    (inv : LiveInv tid) (safe : LiveOk tid (env, .send hal request))
    (core : (drvTxPrepare request tid).2.core =
      ({ tid.win with seqNext := circleAddOne tid.win.seqNext wifinetSeqMax },
        tid.inHal, tid.txdsQueue))
    (seqnum : (drvTxPrepare request tid).1.seqnum = tid.win.seqNext)
    (nulldata : (drvTxPrepare request tid).1.bNulldata = false)
    (attached : (drvTxPrepare request tid).1.attached = true) :
    LiveInv (drvSend env hal request tid) := by
  obtain ⟨joins, runs⟩ := safe
  obtain ⟨win, others⟩ := Prod.mk.inj core
  obtain ⟨inHal, queue⟩ := Prod.mk.inj others
  have advanced : LiveInv (drvTxPrepare request tid).2 := by
    rw [LiveInv, queued, win, inHal, queue]
    exact Aligned.advance inv
  unfold drvSend
  dsimp only
  split
  · rename_i ampdu
    refine LiveInv.scheduled.runTask ?_ (runs ampdu)
    rcases enqueueAmpdu_cases env (drvTxPrepare request tid).1 (drvTxPrepare request tid).2 with
      ⟨-, kept⟩ | ⟨open_, joined⟩
    · exact advanced.of_core kept
    · rw [drvTxPrepare_pending] at open_
      obtain ⟨-, contiguous⟩ := joins ⟨ampdu, open_⟩
      obtain ⟨win', others'⟩ := Prod.mk.inj joined
      obtain ⟨inHal', queue'⟩ := Prod.mk.inj others'
      rw [LiveInv, queued, win', inHal', queue', win, inHal, queue, List.map_append]
      refine (Aligned.advance inv).enqueue ?_ ⟨ampdu, nulldata, attached⟩
      rw [TxDesc.member_seqnum, seqnum, queued, List.length_map]
      exact contiguous
  · exact advanced.of_core (drvTxNormal_core _ _)

theorem LiveInv.send {hal : Nat → HalTurn} {request : TxRequest} (inv : LiveInv tid)
    (safe : LiveOk tid (env, .send hal request)) : LiveInv (drvSend env hal request tid) := by
  rcases drvTxPrepare_cases request tid with
    ⟨-, core, seqnum, nulldata, attached⟩ | ⟨other, same, -⟩
  · exact inv.sendNumbered safe core seqnum nulldata attached
  · obtain ⟨joins, runs⟩ := safe
    unfold drvSend
    dsimp only
    split
    · rename_i ampdu
      refine LiveInv.scheduled.runTask ?_ (runs ampdu)
      rcases enqueueAmpdu_cases env (drvTxPrepare request tid).1 (drvTxPrepare request tid).2 with
        ⟨-, kept⟩ | ⟨open_, -⟩
      · exact inv.of_core (kept.trans (congrArg TxTid.core same))
      · rw [drvTxPrepare_pending] at open_
        exact absurd (joins ⟨ampdu, open_⟩).1 other
    · exact inv.of_core ((drvTxNormal_core _ _).trans (congrArg TxTid.core same))

theorem LiveInv.completeAt {index : Nat} {txok : Bool} (inv : LiveInv tid)
    (safe : LiveOk tid (env, .complete index txok)) : LiveInv (completeAt env index txok tid) := by
  unfold Tx.completeAt
  split
  · exact inv
  · rename_i ptxdesc found
    obtain ⟨inside, own⟩ := List.getElem?_eq_some_iff.mp found
    have erased : tid.inHal.eraseIdx index =
        tid.inHal.take index ++ tid.inHal.drop (index + 1) :=
      List.eraseIdx_eq_take_drop_succ _ _
    have before_eq : live tid.inHal = live (tid.inHal.take index) ++
        (live [ptxdesc] ++ live (tid.inHal.drop (index + 1))) := by
      rw [← live_append, ← live_append, List.singleton_append, ← own, List.getElem_cons_drop,
        List.take_append_drop]
    by_cases tracked : ptxdesc.bAmpdu = true ∧ ptxdesc.attached = true
    · obtain ⟨ampdu, attached⟩ := tracked
      have members : live tid.inHal = live (tid.inHal.take index) ++
          ptxdesc.member :: live (tid.inHal.drop (index + 1)) := by
        rw [before_eq]
        simp [live, TxDesc.member, ampdu, attached]
      have aligned : Aligned tid.win (live (tid.inHal.take index) ++
          ptxdesc.member :: live (tid.inHal.drop (index + 1))) (queued tid) := by
        rw [← members]
        exact inv
      have nulldata : ptxdesc.bNulldata = false := aligned.sound ptxdesc.member (by simp)
      have core := drvTxCompleteTask_member env txok
        { tid with inHal := tid.inHal.eraseIdx index } ampdu nulldata attached
        (safe ptxdesc found ampdu attached)
      obtain ⟨win, others⟩ := Prod.mk.inj core
      obtain ⟨inHal, queue⟩ := Prod.mk.inj others
      rw [LiveInv, queued, win, inHal, queue]
      show Aligned (drvTxUpdateBaWin ptxdesc.seqnum tid.win)
        (live (tid.inHal.eraseIdx index)) (queued tid)
      rw [erased, live_append]
      exact aligned.complete
    · have same : live (tid.inHal.eraseIdx index) = live tid.inHal := by
        have nobody : live [ptxdesc] = [] := by
          refine List.filter_eq_nil_iff.mpr ?_
          intro member found
          rw [List.mem_singleton.mp found]
          simpa [TxDesc.member] using tracked
        rw [erased, before_eq, live_append, nobody, List.nil_append]
      have remaining : LiveInv { tid with inHal := tid.inHal.eraseIdx index } := by
        rw [LiveInv, same]
        exact inv
      refine remaining.of_core ?_
      cases ampdu : ptxdesc.bAmpdu with
      | false => exact drvTxCompleteTask_core env txok _ ampdu
      | true =>
        have orphaned : ptxdesc.attached = false := by
          simpa [ampdu] using tracked
        unfold drvTxCompleteTask
        rw [if_pos (by simp [orphaned])]
        exact drvTxComplete_core _ _ _ _

private theorem LiveInv.reqSetup (inv : LiveInv tid) (safe : LiveOk tid (env, .reqSetup)) :
    LiveInv (drvAddbaReqSetup env tid) := by
  have core := drvTxbaQuarantined_core env tid
  unfold drvAddbaReqSetup
  split
  · rename_i kept quarantined
    rw [quarantined] at core
    exact inv.of_core core
  · rename_i kept quarantined
    rw [quarantined] at core
    obtain ⟨nothing, together⟩ : tid.txdsQueue = [] ∧ tid.win.bawHead = tid.win.bawTail := by
      rcases safe with refused | idle
      · rw [quarantined] at refused
        cases refused
      · exact idle
    have same : kept.core = tid.core := core
    obtain ⟨win, others⟩ := Prod.mk.inj same
    obtain ⟨inHal, queue⟩ := Prod.mk.inj others
    have empty : queued tid = [] := by rw [queued, nothing, List.map_nil]
    have restarted : LiveInv { kept with win := { kept.win with seqStart := kept.win.seqNext } } := by
      have aligned : Aligned tid.win (live tid.inHal) (queued tid) := inv
      rw [empty] at aligned
      rw [LiveInv, queued]
      simp only [win, inHal, queue, nothing, List.map_nil]
      exact aligned.restart together aligned.nextInside
    dsimp only
    split
    · exact restarted
    · exact restarted

private theorem LiveInv.rspProcess {hal : Nat → HalTurn} {rsp : AddbaRsp} (inv : LiveInv tid)
    (safe : LiveOk tid (env, .rspProcess hal rsp)) :
    LiveInv (drvAddbaRspProcess env hal rsp tid) := by
  refine LiveInv.scheduled.rspProcess inv fun success => ?_
  obtain ⟨fits, runs⟩ := safe success
  refine ⟨?_, runs⟩
  have ordered : 1 ≤ wmeBaBmpSize := by decide
  obtain ⟨low, high⟩ : 1 ≤ clampT rsp.buffersize 1 wmeBaBmpSize ∧
      clampT rsp.buffersize 1 wmeBaBmpSize ≤ wmeBaBmpSize := clampT_bounds ordered
  obtain ⟨win, others⟩ := Prod.mk.inj (answerRequest_core tid rsp)
  obtain ⟨inHal, queue⟩ := Prod.mk.inj others
  have spans := inv.spans
  rw [LiveInv, queued]
  simp only [acceptRsp, win, inHal, queue]
  exact { inv with
    spans := { spans with
      inside := { spans.inside with small := high }
      sizeLow := low
      bounded := fits } }

private theorem live_orphan (inHal : List TxDesc) : live (inHal.map TxDesc.orphan) = [] := by
  refine List.filter_eq_nil_iff.mpr ?_
  intro member found
  obtain ⟨ptxdesc, flying, rfl⟩ := List.mem_map.mp found
  obtain ⟨other, -, rfl⟩ := List.mem_map.mp flying
  simp [TxDesc.orphan, TxDesc.member]

theorem live_nil {inHal : List TxDesc}
    (orphans : ∀ ptxdesc ∈ inHal, ptxdesc.bAmpdu = true → ptxdesc.attached = false) :
    live inHal = [] := by
  refine List.filter_eq_nil_iff.mpr ?_
  intro member found
  obtain ⟨ptxdesc, flying, rfl⟩ := List.mem_map.mp found
  cases ampdu : ptxdesc.bAmpdu with
  | false => simp [TxDesc.member, ampdu]
  | true => simp [TxDesc.member, orphans ptxdesc flying ampdu]

private theorem LiveInv.flushfree (inv : LiveInv tid) (safe : LiveOk tid (env, .flushfree)) :
    LiveInv (drvTxlistFreeAllByVid env tid) := by
  unfold drvTxlistFreeAllByVid
  dsimp only
  split
  · have core : (drvTidSwqCleanup env { tid with
        inHal := tid.inHal.map TxDesc.orphan
        normal := tid.normal.map NormalDesc.orphan
        bWork := false }).core = (tid.win, tid.inHal.map TxDesc.orphan, []) :=
      drvTxCompleteList_core _ _ _ _
    obtain ⟨win, others⟩ := Prod.mk.inj core
    obtain ⟨inHal, queue⟩ := Prod.mk.inj others
    unfold drvTidDrain
    rw [LiveInv, queued]
    simp only [win, inHal, queue, live_orphan]
    exact Aligned.drain inv
  · rename_i idle
    have orphans := safe.resolve_left idle
    have aligned : Aligned tid.win (live tid.inHal) (queued tid) := inv
    rw [live_nil orphans] at aligned
    rw [LiveInv, live_orphan]
    exact aligned

end Events

section Runs

variable {tid : TxTid}

theorem txStep_live (tid : TxTid) (moment : TxEnv × TxEvent) (inv : LiveInv tid)
    (safe : LiveOk tid moment) : LiveInv (txStep tid moment) := by
  obtain ⟨env, event⟩ := moment
  cases event with
  | send hal request => exact inv.send safe
  | task hal => exact LiveInv.scheduled.task inv safe
  | complete index txok => exact inv.completeAt safe
  | completeNormal index txok => exact inv.of_core (completeNormalAt_core index txok)
  | reqSetup => exact inv.reqSetup safe
  | rspProcess hal rsp => exact inv.rspProcess safe
  | requestTimer => exact inv.of_core drvAddbaTimer_core
  | pause => exact inv.of_core (drvTxlistPauseForStaTid_core tid)
  | resume hal => exact LiveInv.scheduled.runTask (inv.of_core (unpause_core tid)) safe
  | flush => exact inv.of_kept (drvTxlistFlushForStaTid_kept env tid)
  | flushfree => exact inv.flushfree safe
  | cleanup => exact inv.of_kept (drvTxlistCleanupForSta_kept env tid)
  | ampduDel => exact inv.of_kept (drvTxampduDel_kept env tid)
  | addbaClear => exact inv.of_core drvAddbaClear_core
  | shared txdsPendingCnt waitMpduTimeout sampleRate => exact inv

private theorem emptyWindow_spans : Spans ⟨wmeMaxBa, 0, 0, 0, 0, 0, fun _ => none⟩ [] where
  inside := ⟨by decide, by decide, by decide, by decide⟩
  sizeLow := by decide
  bounded := by decide
  held := by
    intro member found
    cases found
  owned := by
    intro offset bound
    cases bound
  distinct := List.Pairwise.nil

private theorem drvTxlistInitForSta_live (tidIndex : Nat) :
    LiveInv (drvTxlistInitForSta tidIndex) where
  spans := emptyWindow_spans
  opened := fun open_ => absurd rfl open_
  nextInside := Nat.zero_lt_succ _
  sound := by
    intro member found
    cases found
  ready := by
    intro member found
    cases found
  follow := trivial

theorem LiveInv.index_head (inv : LiveInv tid) {first : TxDesc}
    (head : first ∈ tid.txdsQueue.head?) : tid.win.index first.seqnum = tid.win.span := by
  have small := inv.spans.inside.small
  have bounded := inv.spans.bounded
  obtain ⟨rest, queue⟩ := List.head?_eq_some_iff.mp (Option.mem_def.mp head)
  have follow := inv.follow
  rw [queued, queue] at follow
  exact index_of_mod follow.1 (by omega)

private theorem LiveInv.takes (inv : LiveInv tid) (nonempty : tid.txdsQueue ≠ [])
    (idle : ∀ ptxdesc ∈ tid.inHal, ptxdesc.bAmpdu = false) (env : TxEnv) :
    (drvTxampduBuild env tid).frames ≠ [] := by
  have positive := inv.spans.sizeLow
  have small := inv.spans.inside.small
  have nobody : live tid.inHal = [] := by
    refine live_nil ?_
    intro ptxdesc flying ampdu
    rw [idle ptxdesc flying] at ampdu
    cases ampdu
  have spans : Spans tid.win [] := nobody ▸ inv.spans
  have zero : tid.win.span = 0 := spans.empty inv.opened
  obtain ⟨first, rest, queue⟩ := List.exists_cons_of_ne_nil nonempty
  have head : first ∈ tid.txdsQueue.head? := by rw [queue]; rfl
  have index : tid.win.index first.seqnum = 0 := (inv.index_head head).trans zero
  have most : maxFrames env tid.win ≤ hBaw tid.win := Nat.min_le_left _ _
  have some_ : 0 < maxFrames env tid.win := by
    have subframes := (ampduSubframes_bounds env tid.win.bawSize).1
    rw [maxFrames, hBaw]
    omega
  have starts : MayStart env tid := by
    refine ⟨first, head, ?_⟩
    simp only [bawWithin, hBaw, BaWindow.index, drvBaIndex, wifinetSeqMax] at most index ⊢
    omega
  have within : bawWithin tid.win.seqStart tid.win.bawSize first.seqnum := by
    simp only [bawWithin, BaWindow.index] at index ⊢
    omega
  have rated : ratedQueue env tid = { first with rateinfo := (chosenRate env tid).1 } :: rest := by
    simp [ratedQueue, queue]
  have reached : Reached env tid [] { first with rateinfo := (chosenRate env tid).1 } := by
    refine ⟨starts, ⟨rest, rated⟩, ?_⟩
    exact Greedy.admitted_nil.concat ⟨within, Or.inl rfl, some_⟩
  obtain ⟨taken, left, result⟩ := drvTxampduBuild_result env tid
  have more := (result.complete [] _ reached).length_le
  intro nothing
  have members := result.frames
  rw [nothing] at members
  have none_taken : taken = [] := List.map_eq_nil_iff.mp members.symm
  rw [none_taken] at more
  cases more

private theorem LiveInv.neverStuck (inv : LiveInv tid) : NeverStuck tid where
  takes := inv.takes
  head := by
    intro first head
    have index := inv.index_head head
    have bounded := inv.spans.bounded
    rw [BaWindow.index] at index
    rw [bawWithin, index]
    exact bounded

end Runs

/-- In every run whose steps all lose no number, the window never closes for ever. -/
theorem neverStuck_run (tidIndex : Nat) (moments : List (TxEnv × TxEvent))
    (safe : Machine.Along txStep LiveOk (drvTxlistInitForSta tidIndex) moments) :
    NeverStuck (Machine.run txStep (drvTxlistInitForSta tidIndex) moments) :=
  (safe.invariant txStep_live (drvTxlistInitForSta_live tidIndex)).neverStuck

/-- A frame that the HAL takes and that completes leaves the window open. -/
theorem neverStuck_single :
    NeverStuck (Machine.run txStep (drvTxlistInitForSta 0) (agreement ++
      [(plainTxEnv 1, .send (roomyHal true) (dataRequest 1 true)),
        (plainTxEnv 1, .complete 0 true)])) := by
  refine neverStuck_run 0 _
    ⟨Or.inr ⟨rfl, rfl⟩, ?_, ⟨fun _ => ⟨⟨by decide, rfl⟩, rfl⟩, ?_⟩, fun _ _ _ _ => rfl, trivial⟩
  · exact fun _ => ⟨by decide, fun _ _ runs => absurd runs (by decide)⟩
  · intro ampdu runs work unpaused mother
    refine ⟨fun due nonempty room => ?_, fun more => absurd more (by decide)⟩
    exact turnOk_of_single rfl (by decide) rfl rfl

/-- A frame that is sent outside the aggregates while a request is under way takes the number at
which the window starts. -/
def numberLost : List (TxEnv × TxEvent) :=
  [(plainTxEnv 8, .reqSetup),
    (plainTxEnv 8, .send (roomyHal true) (dataRequest 1 false)),
    (plainTxEnv 8, .completeNormal 0 true),
    (plainTxEnv 8, .rspProcess (roomyHal true) ⟨0, 8, false⟩),
    (plainTxEnv 8, .send (roomyHal true) (dataRequest 2 true))]

/-- The next frame is queued one number behind the start of a window that nobody will ever fill:
the builder, which wants room for eight frames, takes none although nothing is in flight. -/
theorem neverStuck_lost :
    ¬ ∀ (tidIndex : Nat) (moments : List (TxEnv × TxEvent)),
      NeverStuck (Machine.run txStep (drvTxlistInitForSta tidIndex) moments) := by
  intro never
  have takes := (never 0 numberLost).takes
  have flying : (Machine.run txStep (drvTxlistInitForSta 0) numberLost).inHal = [] := rfl
  have nothing : (drvTxampduBuild (plainTxEnv 8)
      (Machine.run txStep (drvTxlistInitForSta 0) numberLost)).frames = [] := by decide +kernel
  refine takes (by decide +kernel) ?_ (plainTxEnv 8) nothing
  intro ptxdesc found
  rw [flying] at found
  cases found

end W522a.Tx
