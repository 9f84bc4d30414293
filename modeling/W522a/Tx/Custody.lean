import Mathlib.Algebra.Order.Group.Multiset
import Mathlib.Data.List.InsertIdx
import W522a.Tx.Waiting

/-!
The frames that one identifier answers for: those in its queue, those the hardware has, those given
to `drv_tx_normal`, those to be sent again, and those completed. Its functions move a frame from
one of these to another, and only a send adds one.
-/

namespace W522a.Tx

open Function (update)

def ids (frames : List TxDesc) : Multiset Nat := (frames.map TxDesc.id : List Nat)

@[simp] theorem ids_nil : ids [] = 0 := rfl

@[simp] theorem ids_cons (ptxdesc : TxDesc) (rest : List TxDesc) :
    ids (ptxdesc :: rest) = {ptxdesc.id} + ids rest := rfl

@[simp] theorem ids_append (first second : List TxDesc) :
    ids (first ++ second) = ids first + ids second := by
  rw [ids, List.map_append, ← Multiset.coe_add]
  rfl

theorem ids_singleton (ptxdesc : TxDesc) : ids [ptxdesc] = {ptxdesc.id} := rfl

theorem ids_congr {first second : List TxDesc}
    (same : first.map TxDesc.member = second.map TxDesc.member) : ids first = ids second := by
  have mapped := congrArg (List.map Member.id) same
  rw [List.map_map, List.map_map] at mapped
  exact congrArg (fun names : List Nat => (names : Multiset Nat)) mapped

theorem ids_orphan (frames : List TxDesc) : ids (frames.map TxDesc.orphan) = ids frames := by
  rw [ids, List.map_map]
  rfl

theorem ids_normalOrphan (frames : List NormalDesc) :
    ids ((frames.map NormalDesc.orphan).map Subtype.val) = ids (frames.map Subtype.val) := by
  rw [← ids_orphan (frames.map Subtype.val), List.map_map, List.map_map]
  rfl

theorem ids_eraseIdx {frames : List TxDesc} {index : Nat} {ptxdesc : TxDesc}
    (found : frames[index]? = some ptxdesc) :
    ids (frames.eraseIdx index) + {ptxdesc.id} = ids frames := by
  obtain ⟨inside, at_eq⟩ := List.getElem?_eq_some_iff.mp found
  have split : frames = frames.take index ++ ptxdesc :: frames.drop (index + 1) := by
    rw [← at_eq, List.getElem_cons_drop, List.take_append_drop]
  have erased : frames.eraseIdx index = frames.take index ++ frames.drop (index + 1) :=
    List.eraseIdx_eq_take_drop_succ frames index
  calc ids (frames.eraseIdx index) + {ptxdesc.id}
      = ids (frames.take index) + ({ptxdesc.id} + ids (frames.drop (index + 1))) := by
        rw [erased, ids_append]
        ac_rfl
    _ = ids (frames.take index ++ ptxdesc :: frames.drop (index + 1)) := by
        rw [ids_append, ids_cons]
    _ = ids frames := by rw [← split]

/-- The frames of an identifier that are not completed. -/
def held (tid : TxTid) : Multiset Nat :=
  ids tid.txdsQueue + ids tid.inHal + ids (tid.normal.map Subtype.val) + ids tid.retransmitQueue

def account (tid : TxTid) : Multiset Nat := held tid + ids (tid.completed.map Prod.fst)

/-- `after` answers for the frames of `before`, and has given nothing to `drv_tx_normal`. -/
structure Keeps (before after : TxTid) : Prop where
  account : account after = account before
  normal : before.normal = [] → after.normal = []

/-- The same, with frames that `before` did not answer for. -/
structure Gains (gained : Multiset Nat) (before after : TxTid) : Prop where
  account : account after = account before + gained
  normal : before.normal = [] → after.normal = []

section Custody

variable {before middle after : TxTid} {first second : Multiset Nat}

theorem Keeps.refl (tid : TxTid) : Keeps tid tid := ⟨rfl, id⟩

theorem Keeps.trans (early : Keeps before middle) (late : Keeps middle after) :
    Keeps before after :=
  ⟨late.account.trans early.account, fun nothing => late.normal (early.normal nothing)⟩

theorem Keeps.gains (early : Keeps before middle) (late : Gains first middle after) :
    Gains first before after := by
  refine ⟨?_, fun nothing => late.normal (early.normal nothing)⟩
  rw [late.account, early.account]

private theorem Gains.trans (early : Gains first before middle) (late : Gains second middle after) :
    Gains (first + second) before after := by
  refine ⟨?_, fun nothing => late.normal (early.normal nothing)⟩
  rw [late.account, early.account, add_assoc]

theorem Gains.keeps (early : Gains first middle after)
    (taken : Tx.account middle + first = Tx.account before)
    (normal : before.normal = [] → middle.normal = []) : Keeps before after :=
  ⟨early.account.trans taken, fun nothing => early.normal (normal nothing)⟩

end Custody

section Completion

variable (env : TxEnv) (tid : TxTid)

theorem drvTxbaQuarantine_keeps (code : TxbaFault) :
    Keeps tid (drvTxbaQuarantine env code tid) := ⟨rfl, id⟩

private theorem noteFwResult_keeps (ptxdesc : TxDesc) (txok : Bool) :
    Keeps tid (noteFwResult env ptxdesc txok tid) := by
  unfold noteFwResult
  split
  · exact Keeps.refl tid
  · split
    · split
      · exact ⟨rfl, id⟩
      · exact Keeps.refl tid
    · dsimp only
      split
      · exact ⟨rfl, id⟩
      · exact ⟨rfl, id⟩

theorem drvTxComplete_gains (ptxdesc : TxDesc) (txok : Bool) :
    Gains {ptxdesc.id} tid (drvTxComplete env ptxdesc txok tid) := by
  refine (noteFwResult_keeps env tid ptxdesc txok).gains ⟨?_, id⟩
  simp only [account, held, drvTxComplete, List.map_append, ids_append]
  rw [List.map_cons, List.map_nil, ids_singleton, ← add_assoc]

theorem drvTxCompleteList_gains (queue : List TxDesc) (txok : Bool) :
    Gains (ids queue) tid (drvTxCompleteList env queue txok tid) := by
  unfold drvTxCompleteList
  induction queue generalizing tid with
  | nil => exact ⟨(add_zero _).symm, id⟩
  | cons ptxdesc rest induction =>
    exact (drvTxComplete_gains env tid ptxdesc txok).trans (induction _)

theorem noteCompletion_keeps (ptxdesc : TxDesc) : Keeps tid (noteCompletion ptxdesc tid) := by
  unfold noteCompletion
  split
  · dsimp only
    split
    · exact ⟨rfl, id⟩
    · exact ⟨rfl, id⟩
  · exact Keeps.refl tid

theorem drvTxCompleteTask_gains (ptxdesc : TxDesc) (txok : Bool) :
    Gains {ptxdesc.id} tid (drvTxCompleteTask env ptxdesc txok tid) := by
  unfold drvTxCompleteTask
  split
  · exact drvTxComplete_gains env tid ptxdesc false
  · have noted := noteCompletion_keeps tid ptxdesc
    dsimp only
    split
    · refine noted.gains ⟨?_, id⟩
      simp only [account, held, ids_append, ids_singleton]
      ac_rfl
    · exact noted.gains (drvTxComplete_gains env _ ptxdesc txok)

theorem completeAt_keeps (index : Nat) (txok : Bool) :
    Keeps tid (completeAt env index txok tid) := by
  unfold completeAt
  split
  · exact Keeps.refl tid
  · rename_i ptxdesc found
    refine (drvTxCompleteTask_gains env _ ptxdesc txok).keeps ?_ id
    simp only [account, held]
    rw [← ids_eraseIdx found]
    ac_rfl

end Completion

section Scheduler

variable (env : TxEnv) (tid : TxTid)

private theorem sendToHal_gains (accepts : Bool) (txQueue : List TxDesc) :
    Gains (ids txQueue) tid (sendToHal env accepts txQueue tid) := by
  unfold sendToHal
  split
  · refine ⟨?_, id⟩
    simp only [account, held, ids_append]
    ac_rfl
  · exact (drvTxbaQuarantine_keeps env tid .halTxFail).gains
      (drvTxCompleteList_gains env _ txQueue false)

private theorem soleFrame_id (ptxdesc : TxDesc) : (soleFrame env ptxdesc).id = ptxdesc.id := by
  unfold soleFrame
  dsimp only
  split
  · rfl
  · rfl

private theorem dispatchAmpdu_gains (accepts : Bool) (ptxdesc : TxDesc) (rest : List TxDesc) :
    Gains (ids (ptxdesc :: rest)) tid (dispatchAmpdu env accepts ptxdesc rest tid).1 := by
  have served : Keeps tid { tid with waitMpduTimeout := false } := ⟨rfl, id⟩
  unfold dispatchAmpdu
  split
  · exact drvTxCompleteList_gains env tid (ptxdesc :: rest) false
  · dsimp only
    split
    · split
      · exact served.gains (drvTxCompleteList_gains env _ (ptxdesc :: rest) false)
      · rename_i alone
        rw [Decidable.not_not.mp alone, ids_singleton, ← soleFrame_id env ptxdesc]
        exact served.gains (sendToHal_gains env _ accepts [soleFrame env ptxdesc])
    · exact served.gains (sendToHal_gains env _ accepts
        ({ ptxdesc with b11n := true, bAggr := true } :: rest))

private theorem drvTxampduBuild_account :
    account (drvTxampduBuild env tid).tid + ids (drvTxampduBuild env tid).frames = account tid ∧
      (drvTxampduBuild env tid).tid.normal = tid.normal := by
  obtain ⟨taken, rest, result⟩ := drvTxampduBuild_result env tid
  obtain ⟨sampleRate, scoreboard⟩ := result.scoreboard
  have queue : ids tid.txdsQueue = ids taken + ids rest := by
    rw [← ids_append]
    exact (ids_congr result.queue).symm
  rw [scoreboard, ids_congr result.frames]
  refine ⟨?_, rfl⟩
  simp only [account, held]
  rw [queue]
  ac_rfl

private theorem schedTurn_keeps (hal : HalTurn) : Keeps tid (schedTurn env hal tid).1 := by
  unfold schedTurn
  split
  · exact ⟨rfl, id⟩
  · split
    · exact Keeps.refl tid
    · obtain ⟨built, normal⟩ := drvTxampduBuild_account env tid
      dsimp only
      split
      · rename_i nothing
        rw [nothing, ids_nil, add_zero] at built
        exact ⟨built, fun empty => normal.trans empty⟩
      · rename_i ptxdesc rest frames
        rw [frames] at built
        exact (dispatchAmpdu_gains env _ hal.accepts ptxdesc rest).keeps built
          fun empty => normal.trans empty

private theorem schedLoop_keeps (hal : Nat → HalTurn) (fuel turn : Nat) :
    Keeps tid (schedLoop env hal fuel turn tid) := by
  induction fuel generalizing turn tid with
  | zero => exact Keeps.refl tid
  | succ fuel induction =>
    have first := schedTurn_keeps env tid (hal turn)
    rw [schedLoop]
    dsimp only
    split
    · exact first.trans (induction _ (turn + 1))
    · exact first

theorem drvTxSchedAggr_keeps (hal : Nat → HalTurn) : Keeps tid (drvTxSchedAggr env hal tid) := by
  unfold drvTxSchedAggr
  split
  · exact Keeps.refl tid
  · exact schedLoop_keeps env tid hal _ 0

end Scheduler

section Exchange

variable (env : TxEnv) (tid : TxTid)

theorem drvTxPrepare_id (request : TxRequest) :
    (drvTxPrepare request tid).1.id = request.desc.id := by
  have other : ∀ (txfrag : Bool) (ptxdesc : TxDesc) (txSeq : Nat),
      (if txfrag then ptxdesc else { ptxdesc with seqnum := txSeq }).id = ptxdesc.id := by
    intro txfrag ptxdesc txSeq
    cases txfrag with
    | false => rfl
    | true => rfl
  unfold drvTxPrepare
  dsimp only
  split
  · exact other _ _ _
  · split
    · split
      · rfl
      · rfl
    · split
      · rfl
      · exact other _ _ _

theorem drvTxPrepare_keeps (request : TxRequest) : Keeps tid (drvTxPrepare request tid).2 := by
  unfold drvTxPrepare
  dsimp only
  split
  · exact Keeps.refl tid
  · split
    · split
      · exact Keeps.refl tid
      · exact ⟨rfl, id⟩
    · split
      · exact ⟨rfl, id⟩
      · exact Keeps.refl tid

theorem drvTxNormal_account (ptxdesc : TxDesc) :
    account (drvTxNormal ptxdesc tid) = account tid + {ptxdesc.id} := by
  simp only [account, held, drvTxNormal, List.map_append, ids_append]
  rw [List.map_cons, List.map_nil, ids_singleton]
  ac_rfl

private theorem flushFrame_account (ptxdesc : TxDesc) :
    account (flushFrame env ptxdesc tid) = account tid + {ptxdesc.id} := by
  unfold flushFrame
  dsimp only
  split
  · exact drvTxNormal_account { tid with txdsPendingCnt := tid.txdsPendingCnt - 1 } ptxdesc
  · exact (drvTxComplete_gains env { tid with txdsPendingCnt := tid.txdsPendingCnt - 1 } ptxdesc
      false).account

private theorem flushFrames_account (queue : List TxDesc) :
    account (queue.foldl (fun tid ptxdesc => flushFrame env ptxdesc tid) tid) =
      account tid + ids queue := by
  induction queue generalizing tid with
  | nil => exact (add_zero _).symm
  | cons ptxdesc rest induction =>
    rw [List.foldl_cons, induction, flushFrame_account, ids_cons, add_assoc]

/-- An emptied queue, with its frames counted apart. -/
theorem emptied_account {emptied : TxTid} (queue : emptied.txdsQueue = [])
    (inHal : emptied.inHal = tid.inHal) (normal : emptied.normal = tid.normal)
    (retransmitQueue : emptied.retransmitQueue = tid.retransmitQueue)
    (completed : emptied.completed = tid.completed) :
    account emptied + ids tid.txdsQueue = account tid := by
  simp only [account, held, queue, inHal, normal, retransmitQueue, completed, ids_nil]
  rw [zero_add]
  ac_rfl

theorem drvTxlistFlushForStaTid_account :
    account (drvTxlistFlushForStaTid env tid) = account tid := by
  unfold drvTxlistFlushForStaTid
  dsimp only
  split
  · rfl
  · rw [flushFrames_account]
    exact emptied_account tid rfl rfl rfl rfl rfl

theorem drvTidSwqCleanup_keeps : Keeps tid (drvTidSwqCleanup env tid) :=
  (drvTxCompleteList_gains env _ tid.txdsQueue false).keeps
    (emptied_account tid rfl rfl rfl rfl rfl) id

theorem drvTidDrain_keeps : Keeps tid (drvTidDrain env tid) :=
  (drvTidSwqCleanup_keeps env tid).trans ⟨rfl, id⟩

private theorem drvTidCleanup_keeps : Keeps tid (drvTidCleanup env tid) := by
  have cleaned := drvTidSwqCleanup_keeps env tid
  unfold drvTidCleanup
  dsimp only
  split
  · exact cleaned
  · split
    · split
      · exact cleaned.trans ⟨rfl, id⟩
      · exact cleaned.trans ⟨rfl, id⟩
    · exact cleaned.trans ⟨rfl, id⟩

theorem drvTxlistPauseForStaTid_keeps : Keeps tid (drvTxlistPauseForStaTid tid) := by
  unfold drvTxlistPauseForStaTid
  split
  · exact ⟨rfl, id⟩
  · exact Keeps.refl tid

theorem drvTxampduDel_account : account (drvTxampduDel env tid) = account tid := by
  unfold drvTxampduDel
  split
  · rfl
  · split
    · rfl
    · obtain ⟨ended, ended_eq⟩ : ∃ ended, ended =
          if tid.addbaExchangeinprogress then
            { tid with addbaExchangeinprogress := false, addbaTimerActive := false }
          else tid := ⟨_, rfl⟩
      have first : account ended = account tid := by
        rw [ended_eq]
        split
        · rfl
        · rfl
      have paused := (drvTxlistPauseForStaTid_keeps ended).account.trans first
      dsimp only
      rw [← ended_eq, drvTxlistFlushForStaTid_account]
      split
      · exact paused
      · exact paused

private theorem drvTxbaQuarantined_keeps : Keeps tid (drvTxbaQuarantined env tid).2 := by
  unfold drvTxbaQuarantined
  split
  · exact Keeps.refl tid
  · split
    · exact Keeps.refl tid
    · exact ⟨rfl, id⟩

theorem drvAddbaReqSetup_keeps : Keeps tid (drvAddbaReqSetup env tid) := by
  have checked := drvTxbaQuarantined_keeps env tid
  unfold drvAddbaReqSetup
  split
  · rename_i later refused
    rw [refused] at checked
    exact checked.trans ⟨rfl, id⟩
  · rename_i later allowed
    rw [allowed] at checked
    dsimp only
    split
    · exact checked.trans ⟨rfl, id⟩
    · exact checked.trans ⟨rfl, id⟩

theorem answerRequest_keeps (rsp : AddbaRsp) : Keeps tid (answerRequest rsp tid) := by
  unfold answerRequest
  dsimp only
  split
  · exact ⟨rfl, id⟩
  · exact ⟨rfl, id⟩

theorem acceptRsp_keeps (rsp : AddbaRsp) :
    Keeps tid (acceptRsp env rsp (answerRequest rsp tid)) :=
  (answerRequest_keeps tid rsp).trans ⟨rfl, id⟩

theorem drvAddbaTimer_keeps : Keeps tid (drvAddbaTimer env tid) := by
  unfold drvAddbaTimer
  dsimp only
  split
  · exact ⟨rfl, id⟩
  · exact ⟨rfl, id⟩

theorem drvAddbaClear_keeps : Keeps tid (drvAddbaClear tid) := by
  unfold drvAddbaClear
  dsimp only
  split
  · exact ⟨rfl, id⟩
  · exact ⟨rfl, id⟩

end Exchange

namespace Lists

theorem cleanupTid_keeps (env : TxEnv) (tid : TxTid) : Keeps tid (cleanupTid env tid) := by
  unfold cleanupTid
  split
  · have ended : Keeps tid { tid with
        addbaExchangeinprogress := false
        addbaTimerActive := false
        paused := (tid.paused + 255) % 256 } := ⟨rfl, id⟩
    exact ended.trans (drvTidCleanup_keeps env _)
  · exact drvTidCleanup_keeps env tid

variable {Sta : Type}

/-- Every identifier answers for the frames it answered for. -/
def Holds (lists later : TxLists Sta) : Prop := ∀ key, Keeps (lists.tid key) (later.tid key)

/-- One identifier has gained frames, and may have given some to `drv_tx_normal`. -/
structure Serves (gained : Multiset Nat) (key : TidKey Sta) (lists later : TxLists Sta) : Prop where
  account : account (later.tid key) = account (lists.tid key) + gained
  others : ∀ other, other ≠ key → Keeps (lists.tid other) (later.tid other)

section Composition

variable {lists middle later : TxLists Sta} {key : TidKey Sta} {gained : Multiset Nat}

theorem Holds.refl (lists : TxLists Sta) : Holds lists lists := fun _ => Keeps.refl _

theorem Holds.trans (early : Holds lists middle) (late : Holds middle later) : Holds lists later :=
  fun key => (early key).trans (late key)

theorem Holds.of_eq (same : later.tid = lists.tid) : Holds lists later := by
  intro key
  rw [same]
  exact Keeps.refl _

theorem Holds.serves (early : Holds lists middle) (late : Serves gained key middle later) :
    Serves gained key lists later := by
  refine ⟨?_, fun other different => (early other).trans (late.others other different)⟩
  rw [late.account, (early key).account]

theorem Serves.holds (early : Serves gained key lists middle) (late : Holds middle later) :
    Serves gained key lists later := by
  refine ⟨?_, fun other different => (early.others other different).trans (late other)⟩
  rw [(late key).account, early.account]

theorem Holds.toServes (holds : Holds lists later) (key : TidKey Sta) : Serves 0 key lists later :=
  ⟨(holds key).account.trans (add_zero _).symm, fun other _ => holds other⟩

end Composition

section Functions

variable [DecidableEq Sta] {lists later : TxLists Sta} {key : TidKey Sta} {env : ListEnv Sta}

theorem Holds.focus {work : TxTid → TxTid} (keeps : ∀ tid, Keeps tid (work tid))
    (key : TidKey Sta) : Holds lists (focus work key lists) := by
  intro other
  by_cases same : other = key
  · have loaded : Keeps (lists.tid key) (load key lists) := ⟨rfl, id⟩
    rw [same, focus_self]
    exact loaded.trans (keeps _)
  · rw [focus_other _ _ _ _ same]
    exact Keeps.refl _

theorem Serves.focus {work : TxTid → TxTid} {gained : Multiset Nat}
    (accounts : ∀ tid, Tx.account (work tid) = Tx.account tid + gained) (key : TidKey Sta) :
    Serves gained key lists (focus work key lists) := by
  refine ⟨?_, fun other different => ?_⟩
  · rw [focus_self]
    exact accounts (load key lists)
  · rw [focus_other _ _ _ _ different]
    exact Keeps.refl _

theorem Holds.write {tid : TxTid} (written : later.tid = update lists.tid key tid)
    (keeps : Keeps (lists.tid key) tid) : Holds lists later := by
  intro other
  rw [written]
  by_cases same : other = key
  · rw [same, Function.update_self]
    exact keeps
  · rw [Function.update_of_ne same]
    exact Keeps.refl _

theorem Holds.unlinkTid (lists : TxLists Sta) (key : TidKey Sta) :
    Holds lists (unlinkTid key lists) := Holds.write rfl ⟨rfl, id⟩

theorem Holds.linkAc (ac : AcKey Sta) : Holds lists (linkAc ac lists) :=
  Holds.of_eq (linkAc_tid ac lists)

theorem Holds.queueTid (lists : TxLists Sta) (key : TidKey Sta) :
    Holds lists (drvTxQueueTid key lists) := by
  unfold drvTxQueueTid
  split
  · exact Holds.refl lists
  · split
    · exact Holds.refl lists
    · have linked : Holds lists (linkTid key lists) := Holds.write rfl ⟨rfl, id⟩
      exact linked.trans (Holds.linkAc key.ac)

private theorem Holds.serveTids (env : ListEnv Sta) (hal : Nat → HalTurn) (keys : List (TidKey Sta))
    (lists : TxLists Sta) : Holds lists (serveTids env hal keys lists) := by
  induction keys generalizing lists with
  | nil => exact Holds.refl lists
  | cons key rest induction =>
    have unlinked := Holds.unlinkTid lists key
    rw [Lists.serveTids]
    dsimp only
    split
    · exact unlinked.trans (induction _)
    · have served := unlinked.trans
        (Holds.focus (fun tid => drvTxSchedAggr_keeps (env.sta key.sta) tid hal) key)
      split
      · exact served.trans (Holds.queueTid _ key)
      · exact served

theorem Holds.task (hal : Nat → HalTurn) (queueId : Nat) (lists : TxLists Sta) :
    Holds lists (drvTxlistTask env hal queueId lists) := by
  unfold drvTxlistTask
  split
  · exact Holds.refl lists
  · rename_i ac rest waiting
    have unlinked : Holds lists (unlinkAc ac lists) := Holds.of_eq rfl
    have served := unlinked.trans
      (Holds.serveTids env hal ((unlinkAc ac lists).tidQueue ac) (unlinkAc ac lists))
    dsimp only
    split
    · exact served.trans (Holds.linkAc ac)
    · exact served

theorem Serves.sendAmpdu (hal : Nat → HalTurn) (key : TidKey Sta) (ptxdesc : TxDesc)
    (lists : TxLists Sta) :
    Serves {ptxdesc.id} key lists (drvTxSendAmpdu env hal key ptxdesc lists) := by
  unfold drvTxSendAmpdu
  dsimp only
  split
  · exact Serves.focus (fun tid => drvTxNormal_account
      (drvTxbaQuarantine (env.sta key.sta) .pendingFuse tid) ptxdesc) key
  · obtain ⟨queued, queued_eq⟩ : ∃ queued : TxLists Sta, queued = { lists with
        tid := update lists.tid key
          { lists.tid key with txdsQueue := (lists.tid key).txdsQueue ++ [ptxdesc] } } := ⟨_, rfl⟩
    have taken : Serves {ptxdesc.id} key lists queued := by
      rw [queued_eq]
      refine ⟨?_, fun other different => ?_⟩
      · dsimp only
        rw [Function.update_self]
        simp only [Tx.account, held, ids_append, ids_singleton]
        ac_rfl
      · dsimp only
        rw [Function.update_of_ne different]
        exact Keeps.refl _
    rw [← queued_eq]
    have waiting := taken.holds (Holds.queueTid queued key)
    split
    · exact waiting.holds (Holds.of_eq rfl)
    · refine waiting.holds (Holds.trans ?_ (Holds.task hal key.queueId _))
      exact Holds.of_eq rfl

theorem Holds.resume (hal : Nat → HalTurn) (key : TidKey Sta) (lists : TxLists Sta) :
    Holds lists (drvTxlistResumeForStaTid env hal key lists) := by
  unfold drvTxlistResumeForStaTid
  dsimp only
  split
  · exact Holds.refl lists
  · have resumed : Holds lists { lists with
        tid := update lists.tid key
          { lists.tid key with paused := (lists.tid key).paused - 1 } } :=
      Holds.write rfl ⟨rfl, id⟩
    split
    · exact resumed
    · exact (resumed.trans (Holds.queueTid _ key)).trans (Holds.task hal key.queueId _)

theorem Serves.flush (key : TidKey Sta) :
    Serves 0 key lists (Lists.focus (drvTxlistFlushForStaTid (env.sta key.sta)) key lists) :=
  Serves.focus (fun tid => (drvTxlistFlushForStaTid_account _ tid).trans (add_zero _).symm) key

theorem Serves.ampduDel (key : TidKey Sta) :
    Serves 0 key lists (Lists.focus (drvTxampduDel (env.sta key.sta)) key lists) :=
  Serves.focus (fun tid => (drvTxampduDel_account _ tid).trans (add_zero _).symm) key

theorem Serves.rspProcess (hal : Nat → HalTurn) (key : TidKey Sta) (rsp : AddbaRsp)
    (lists : TxLists Sta) : Serves 0 key lists (drvAddbaRspProcess env hal key rsp lists) := by
  unfold drvAddbaRspProcess
  dsimp only
  split
  · have agreed : Holds lists (Lists.focus
        (fun tid => acceptRsp (env.sta key.sta) rsp (answerRequest rsp tid)) key lists) :=
      Holds.focus (fun tid => acceptRsp_keeps (env.sta key.sta) tid rsp) key
    split
    · exact agreed.toServes key
    · split
      · exact (agreed.trans (Holds.resume hal key _)).toServes key
      · exact agreed.serves (Serves.flush key)
  · have refused : Holds lists (Lists.focus
        (fun tid => drvTxbaQuarantine (env.sta key.sta) .addbaRefused (answerRequest rsp tid)) key
        lists) :=
      Holds.focus (fun tid => (answerRequest_keeps tid rsp).trans
        (drvTxbaQuarantine_keeps (env.sta key.sta) _ .addbaRefused)) key
    split
    · exact refused.serves (Serves.flush key)
    · exact refused.toServes key

theorem Holds.addbaClear (sta : Sta) (lists : TxLists Sta) :
    Holds lists (drvAddbaClear sta lists) := by
  intro key
  unfold drvAddbaClear
  dsimp only
  split
  · exact drvAddbaClear_keeps _
  · exact Keeps.refl _

private theorem Holds.pushTids (env : ListEnv Sta) (vid : Nat) (keys : List (TidKey Sta))
    (acNeedFlush : Bool) (lists : TxLists Sta) :
    Holds lists (pushTids env vid keys acNeedFlush lists).2 := by
  induction keys generalizing acNeedFlush lists with
  | nil => exact Holds.refl lists
  | cons key rest induction =>
    rw [Lists.pushTids]
    split
    · exact ((Holds.unlinkTid lists key).trans
        (Holds.focus (fun tid => drvTidDrain_keeps (env.sta key.sta) tid) key)).trans
        (induction true _)
    · exact Holds.refl lists

private theorem Holds.pushAcs (vid : Nat) (acs acNotRelease : List (AcKey Sta)) (acNeedFlush : Bool)
    (lists : TxLists Sta) : Holds lists (pushAcs env vid acs acNeedFlush acNotRelease lists).1 := by
  induction acs generalizing acNotRelease acNeedFlush lists with
  | nil => exact Holds.refl lists
  | cons ac rest induction =>
    have unlinked : Holds lists (unlinkAc ac lists) := Holds.of_eq rfl
    have pushed := unlinked.trans (Holds.pushTids env vid
      ((unlinkAc ac lists).tidQueue ac) acNeedFlush (unlinkAc ac lists))
    rw [Lists.pushAcs]
    dsimp only
    split
    · exact pushed.trans (induction _ _ _)
    · refine Holds.trans ?_ (induction _ _ _)
      exact pushed.trans (Holds.of_eq rfl)

theorem Holds.freeAllByVid (vid queueId : Nat) (lists : TxLists Sta) :
    Holds lists (drvTxlistFreeAllByVid env vid queueId lists) := by
  have orphaned : Holds lists { lists with
      tid := fun key =>
        let tid := lists.tid key
        if key.queueId = queueId ∧ (lists.vid key.sta = vid ∨ vid = 3) then
          { tid with
            inHal := tid.inHal.map TxDesc.orphan
            normal := tid.normal.map NormalDesc.orphan }
        else tid } := by
    intro key
    dsimp only
    split
    · refine ⟨?_, fun nothing => ?_⟩
      · simp only [Tx.account, held]
        rw [ids_orphan, ids_normalOrphan]
      · dsimp only
        rw [nothing]
        rfl
    · exact Keeps.refl _
  unfold drvTxlistFreeAllByVid
  dsimp only
  split
  · exact orphaned.trans ((Holds.pushAcs vid _ [] false _).trans (Holds.of_eq rfl))
  · exact orphaned

private theorem Holds.cleanupTids (keys : List (TidKey Sta)) (lists : TxLists Sta) :
    Holds lists (cleanupTids env keys lists) := by
  induction keys generalizing lists with
  | nil => exact Holds.refl lists
  | cons key rest induction =>
    exact ((Holds.unlinkTid lists key).trans
      (Holds.focus (fun tid => cleanupTid_keeps (env.sta key.sta) tid) key)).trans (induction _)

private theorem Holds.cleanupAcs (sta : Sta) (acs : List (AcKey Sta)) (lists : TxLists Sta) :
    Holds lists (cleanupAcs env sta acs lists) := by
  induction acs generalizing lists with
  | nil => exact Holds.refl lists
  | cons ac rest induction =>
    rw [Lists.cleanupAcs]
    split
    · exact induction lists
    · split
      · exact induction lists
      · have unlinked : Holds lists (unlinkAc ac lists) := Holds.of_eq rfl
        exact (unlinked.trans (Holds.cleanupTids _ _)).trans (induction _)

theorem Holds.cleanup (sta : Sta) (lists : TxLists Sta) :
    Holds lists (drvTxlistCleanupForSta env sta lists) := by
  unfold drvTxlistCleanupForSta
  generalize List.range halNumTxQueues = queues
  induction queues generalizing lists with
  | nil => exact Holds.refl lists
  | cons queueId rest induction =>
    exact (Holds.cleanupAcs sta (lists.acq queueId) lists).trans (induction _)

end Functions

end Lists

end W522a.Tx
