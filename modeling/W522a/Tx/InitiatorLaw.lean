import W522a.Tx.Initiator
import W522a.Tx.Steps
import Mathlib.Logic.Function.Basic

/-!
What the initiator keeps over every run: requests are ended once each, a quarantined identifier has
no request and no agreement, and agreements come from admitted responses alone.
-/

namespace W522a.Tx

/-- The fields that the exchange turns on. -/
def TxTid.exchange (tid : TxTid) : Bool × Bool × Nat :=
  (tid.addbaExchangeinprogress, tid.addbaExchangecomplete, tid.txbaDisabledUntil)

/-- Neither a request nor an agreement, and a cooldown. -/
def TxTid.Resting (tid : TxTid) : Prop :=
  tid.addbaExchangeinprogress = false ∧ tid.addbaExchangecomplete = false ∧
    tid.txbaDisabledUntil ≠ 0

/-- The exchange is left alone, or given up by a quarantine. -/
def Quieted (before after : TxTid) : Prop := after.exchange = before.exchange ∨ after.Resting

theorem TxTid.Resting.of_exchange {before after : TxTid} (resting : before.Resting)
    (same : after.exchange = before.exchange) : after.Resting := by
  obtain ⟨progress, others⟩ := Prod.mk.inj same
  obtain ⟨complete, disabled⟩ := Prod.mk.inj others
  exact ⟨progress.trans resting.1, complete.trans resting.2.1,
    fun zero => resting.2.2 (disabled.symm.trans zero)⟩

theorem Quieted.refl (tid : TxTid) : Quieted tid tid := .inl rfl

theorem Quieted.of_same {before after : TxTid} (same : after.exchange = before.exchange) :
    Quieted before after := .inl same

theorem Quieted.trans {first second third : TxTid} (before : Quieted first second)
    (after : Quieted second third) : Quieted first third := by
  rcases after with same | resting
  · rcases before with equal | resting
    · exact .inl (same.trans equal)
    · exact .inr (resting.of_exchange same)
  · exact .inr resting

section Quieted

variable (env : TxEnv) (hal : Nat → HalTurn) (code : TxbaFault) (ptxdesc : TxDesc) (txok : Bool)
  (tid : TxTid)

theorem drvTxbaQuarantine_resting : (drvTxbaQuarantine env code tid).Resting := by
  refine ⟨rfl, rfl, ?_⟩
  unfold drvTxbaQuarantine
  dsimp only [apTxbaCooldown, staTxbaCooldown]
  split <;> omega

theorem drvTxComplete_quieted : Quieted tid (drvTxComplete env ptxdesc txok tid) := by
  unfold drvTxComplete noteFwResult
  split
  · exact .inl rfl
  · split
    · split <;> exact .inl rfl
    · dsimp only
      split
      · exact .inr ((drvTxbaQuarantine_resting env .fwEndFail tid).of_exchange rfl)
      · exact .inl rfl

theorem drvTxCompleteList_quieted (queue : List TxDesc) :
    Quieted tid (drvTxCompleteList env queue txok tid) := by
  induction queue generalizing tid with
  | nil => exact .refl tid
  | cons first rest induction =>
    exact (drvTxComplete_quieted env first txok tid).trans
      (induction (drvTxComplete env first txok tid))

theorem drvTxQueueTid_exchange : (drvTxQueueTid tid).exchange = tid.exchange := by
  unfold drvTxQueueTid
  split <;> rfl

private theorem sendToHal_quieted (accepts : Bool) (txQueue : List TxDesc) :
    Quieted tid (sendToHal env accepts txQueue tid) := by
  unfold sendToHal
  split
  · exact .inl rfl
  · exact Quieted.trans (.inr (drvTxbaQuarantine_resting env .halTxFail tid))
      (drvTxCompleteList_quieted env false _ txQueue)

private theorem dispatchAmpdu_quieted (accepts : Bool) (rest : List TxDesc) :
    Quieted tid (dispatchAmpdu env accepts ptxdesc rest tid).1 := by
  unfold dispatchAmpdu
  have lowered : Quieted tid { tid with waitMpduTimeout := false } := .inl rfl
  split
  · exact drvTxCompleteList_quieted env false tid _
  · dsimp only
    split
    · split
      · exact lowered.trans (drvTxCompleteList_quieted env false _ _)
      · exact lowered.trans (sendToHal_quieted env _ accepts _)
    · exact lowered.trans (sendToHal_quieted env _ accepts _)

private theorem schedTurn_quieted (turn : HalTurn) : Quieted tid (schedTurn env turn tid).1 := by
  unfold schedTurn
  split
  · exact .inl rfl
  · split
    · exact .refl tid
    · obtain ⟨taken, rest, built⟩ := drvTxampduBuild_result env tid
      obtain ⟨sampleRate, shape⟩ := built.scoreboard
      have same : Quieted tid (drvTxampduBuild env tid).tid := by
        rw [shape]
        exact .inl rfl
      dsimp only
      split
      · exact same
      · exact same.trans (dispatchAmpdu_quieted env _ _ turn.accepts _)

private theorem schedLoop_quieted (fuel turn : Nat) :
    Quieted tid (schedLoop env hal fuel turn tid) := by
  induction fuel generalizing turn tid with
  | zero => exact .refl tid
  | succ fuel induction =>
    unfold schedLoop
    dsimp only
    split
    · exact (schedTurn_quieted env tid (hal turn)).trans (induction _ (turn + 1))
    · exact schedTurn_quieted env tid (hal turn)

private theorem drvTxlistTask_quieted : Quieted tid (drvTxlistTask env hal tid) := by
  unfold drvTxlistTask
  split
  · exact .refl tid
  · have lowered : Quieted tid { tid with bWork := false } := .inl rfl
    dsimp only
    split
    · exact lowered
    · have scheduled : Quieted { tid with bWork := false }
          (drvTxSchedAggr env hal { tid with bWork := false }) := by
        unfold drvTxSchedAggr
        split
        · exact .refl _
        · exact schedLoop_quieted env hal _ _ 0
      split
      · exact (lowered.trans scheduled).trans (.of_same (drvTxQueueTid_exchange _))
      · exact lowered.trans scheduled

private theorem drvTxlistResumeForStaTid_quieted :
    Quieted tid (drvTxlistResumeForStaTid env hal tid) := by
  have unpaused : Quieted tid (unpause tid).1 := by
    unfold unpause
    split
    · exact .refl tid
    · dsimp only
      split
      · exact .inl rfl
      · exact .inl (drvTxQueueTid_exchange _)
  unfold drvTxlistResumeForStaTid runTask
  split
  · exact unpaused.trans (drvTxlistTask_quieted env hal _)
  · exact unpaused

private theorem flushFrame_quieted : Quieted tid (flushFrame env ptxdesc tid) := by
  unfold flushFrame
  have lowered : Quieted tid { tid with txdsPendingCnt := tid.txdsPendingCnt - 1 } := .inl rfl
  dsimp only
  split
  · exact .inl rfl
  · exact lowered.trans (drvTxComplete_quieted env ptxdesc false _)

theorem drvTxlistFlushForStaTid_quieted : Quieted tid (drvTxlistFlushForStaTid env tid) := by
  have frames : ∀ (queue : List TxDesc) (tid : TxTid),
      Quieted tid (queue.foldl (fun tid ptxdesc => flushFrame env ptxdesc tid) tid) := by
    intro queue
    induction queue with
    | nil => exact .refl
    | cons first rest induction =>
      intro tid
      exact (flushFrame_quieted env first tid).trans (induction (flushFrame env first tid))
  unfold drvTxlistFlushForStaTid
  dsimp only
  split
  · exact .inl rfl
  · exact Quieted.trans (.inl rfl) (frames _ _)

end Quieted

/-- A quarantined identifier has neither a request nor an agreement. -/
def Calm (tid : TxTid) : Prop := tid.txbaDisabledUntil ≠ 0 → tid.Resting

private theorem Calm.of_quieted {before after : TxTid} (calm : Calm before)
    (quieted : Quieted before after) : Calm after := by
  rcases quieted with same | resting
  · intro disabled
    have equal : after.txbaDisabledUntil = before.txbaDisabledUntil :=
      congrArg (fun fields => fields.2.2) same
    exact (calm (equal ▸ disabled)).of_exchange same
  · exact fun _ => resting

theorem concludeRsp_calm (env : TxEnv) (hal : Nat → HalTurn) (rsp : AddbaRsp) (resume : Bool)
    (tid : TxTid) : Calm (concludeRsp env hal rsp resume tid) := by
  have accepted : Calm (acceptRsp env rsp tid) := fun disabled => absurd rfl disabled
  have refused : Calm (drvTxbaQuarantine env .addbaRefused tid) :=
    fun _ => drvTxbaQuarantine_resting env .addbaRefused tid
  unfold concludeRsp
  split
  · dsimp only
    split
    · exact accepted
    · split
      · exact accepted.of_quieted (drvTxlistResumeForStaTid_quieted env hal _)
      · exact accepted.of_quieted (drvTxlistFlushForStaTid_quieted env _)
  · dsimp only
    split
    · exact refused.of_quieted (drvTxlistFlushForStaTid_quieted env _)
    · exact refused

theorem concludeRsp_refused {env : TxEnv} {hal : Nat → HalTurn} {rsp : AddbaRsp} {resume : Bool}
    {tid : TxTid} (refused : rsp.statuscode ≠ wifinetStatusSuccess) :
    (concludeRsp env hal rsp resume tid).addbaExchangecomplete = false := by
  have resting := drvTxbaQuarantine_resting env .addbaRefused tid
  unfold concludeRsp
  simp only [refused, ↓reduceIte]
  cases resume with
  | false => exact resting.2.1
  | true =>
    rcases drvTxlistFlushForStaTid_quieted env (drvTxbaQuarantine env .addbaRefused tid) with
      same | rest
    · exact (resting.of_exchange same).2.1
    · exact rest.2.1

theorem answerRequest_exchange (rsp : AddbaRsp) (tid : TxTid) :
    (answerRequest rsp tid).exchange =
      (false, tid.addbaExchangecomplete, tid.txbaDisabledUntil) := by
  unfold answerRequest TxTid.exchange
  cases progress : tid.addbaExchangeinprogress <;> simp [progress]

theorem answerRequest_calm (rsp : AddbaRsp) {tid : TxTid} (calm : Calm tid) :
    Calm (answerRequest rsp tid) := by
  intro disabled
  obtain ⟨progress, others⟩ := Prod.mk.inj (answerRequest_exchange rsp tid)
  obtain ⟨complete, until_⟩ := Prod.mk.inj others
  rw [until_] at disabled
  exact ⟨progress, complete.trans (calm disabled).2.1, until_ ▸ disabled⟩

theorem drvAddbaReqSetup_calm {env : TxEnv} {tid : TxTid} (calm : Calm tid) :
    Calm (drvAddbaReqSetup env tid) := by
  unfold drvAddbaReqSetup drvTxbaQuarantined
  by_cases free : tid.txbaDisabledUntil = 0
  · simp only [free, ↓reduceIte]
    split <;> exact fun disabled => absurd rfl disabled
  · simp only [free, ↓reduceIte]
    by_cases waiting : env.now < tid.txbaDisabledUntil
    · simp only [waiting, ↓reduceIte]
      exact fun disabled => calm disabled
    · simp only [waiting, ↓reduceIte]
      split <;> exact fun disabled => absurd rfl disabled

theorem drvAddbaClear_calm (tid : TxTid) : Calm (drvAddbaClear tid) := by
  unfold drvAddbaClear clearExchange
  dsimp only
  split <;> exact fun disabled => absurd rfl disabled

theorem expireRequest_calm {tid : TxTid} (calm : Calm tid) : Calm (expireRequest tid) :=
  fun disabled => ⟨rfl, (calm disabled).2⟩

theorem concludeTimer_calm {env : TxEnv} {expired : Bool} {tid : TxTid} (calm : Calm tid) :
    Calm (concludeTimer env expired tid) := by
  cases expired with
  | false => exact calm
  | true => exact fun _ => drvTxbaQuarantine_resting env .addbaTimeout tid

/-- No agreement comes into being. -/
def Steady (before after : TxTid) : Prop :=
  after.addbaExchangecomplete = true → before.addbaExchangecomplete = true

theorem answerRequest_steady (rsp : AddbaRsp) (tid : TxTid) :
    Steady tid (answerRequest rsp tid) := by
  intro complete
  have same : (answerRequest rsp tid).addbaExchangecomplete = tid.addbaExchangecomplete :=
    congrArg (fun fields => fields.2.1) (answerRequest_exchange rsp tid)
  exact same.symm.trans complete

theorem drvAddbaReqSetup_steady (env : TxEnv) (tid : TxTid) :
    Steady tid (drvAddbaReqSetup env tid) := by
  intro complete
  unfold drvAddbaReqSetup drvTxbaQuarantined at complete
  by_cases free : tid.txbaDisabledUntil = 0
  · simp only [free, ↓reduceIte] at complete
    split at complete <;> exact complete
  · by_cases waiting : env.now < tid.txbaDisabledUntil
    · simpa only [free, waiting, ↓reduceIte] using complete
    · simp only [free, waiting, ↓reduceIte] at complete
      split at complete <;> exact complete

theorem drvAddbaClear_steady (tid : TxTid) : Steady tid (drvAddbaClear tid) := by
  intro complete
  unfold drvAddbaClear clearExchange at complete
  dsimp only at complete
  split at complete
  · assumption
  · exact complete

theorem concludeTimer_steady (env : TxEnv) (expired : Bool) (tid : TxTid) :
    Steady tid (concludeTimer env expired tid) := by
  intro complete
  cases expired with
  | false => exact complete
  | true => cases complete

/-- The request that is in progress, counted. -/
def TxTid.openRequests (tid : TxTid) : Nat := if tid.addbaExchangeinprogress then 1 else 0

/-- The numbers of the requests that have ended are those given out but for the one in progress,
each of them once. -/
structure Counted (tid : TxTid) (requests : Nat) (ended : List (Nat × Ender)) : Prop where
  opened : tid.openRequests ≤ requests
  numbers : ended.map Prod.fst = List.range (requests - tid.openRequests)

/-- What the receive thread knows of the request it saw in progress. -/
def RxKnows (side : Initiator) : Prop :=
  match side.rx with
  | .idle => True
  | .admitted index _ request => request < side.requests index
  | .answered index _ request won =>
    request < side.requests index ∧
      ∀ number, won = some number → request ≤ number ∧ (number, Ender.response) ∈ side.ended index

/-- What every step of the initiator keeps. -/
structure InitiatorInv (side : Initiator) : Prop where
  calm : ∀ index, Calm (side.tid index)
  counted : ∀ index, Counted (side.tid index) (side.requests index) (side.ended index)
  knows : RxKnows side

section Put

variable (ender : Ender) (index : Nat) (tid : TxTid) (side : Initiator)

theorem put_tid_same : (side.put ender index tid).tid index = tid := Function.update_self ..

theorem put_tid_other {other : Nat} (apart : other ≠ index) :
    (side.put ender index tid).tid other = side.tid other := Function.update_of_ne apart ..

theorem put_requests_le (other : Nat) :
    side.requests other ≤ (side.put ender index tid).requests other := by
  unfold Initiator.put
  dsimp only
  split
  · by_cases same : other = index
    · subst same
      rw [Function.update_self]
      exact Nat.le_succ _
    · exact Nat.le_of_eq (Function.update_of_ne same ..).symm
  · exact Nat.le_refl _

private theorem put_ended_subset (other : Nat) :
    side.ended other ⊆ (side.put ender index tid).ended other := by
  unfold Initiator.put
  dsimp only
  split
  · by_cases same : other = index
    · subst same
      rw [Function.update_self]
      exact List.subset_append_left _ _
    · rw [Function.update_of_ne same]
      exact List.Subset.refl _
  · exact List.Subset.refl _

private theorem Counted.put {before : TxTid} {requests : Nat} {ended : List (Nat × Ender)}
    (counted : Counted before requests ended) :
    Counted tid
      (if !before.addbaExchangeinprogress && tid.addbaExchangeinprogress then requests + 1
        else requests)
      (if before.addbaExchangeinprogress && !tid.addbaExchangeinprogress then
        ended ++ [(requests - 1, ender)] else ended) := by
  obtain ⟨opened, numbers⟩ := counted
  unfold TxTid.openRequests at opened numbers
  constructor <;> unfold TxTid.openRequests <;>
    cases was : before.addbaExchangeinprogress <;> cases tid.addbaExchangeinprogress <;>
    simp only [was, Bool.not_true, Bool.not_false, Bool.and_false, Bool.and_true,
      Bool.false_eq_true, ↓reduceIte, Nat.sub_zero, Nat.add_sub_cancel] at opened numbers ⊢
  · exact Nat.zero_le _
  · exact Nat.le_add_left 1 requests
  · exact Nat.zero_le _
  · exact opened
  · exact numbers
  · exact numbers
  · have split : requests = (requests - 1) + 1 := (Nat.sub_add_cancel opened).symm
    rw [List.map_append, numbers]
    conv_rhs => rw [split, List.range_succ]
    rfl
  · exact numbers

private theorem put_counted (counted : ∀ index, Counted (side.tid index) (side.requests index)
    (side.ended index)) (other : Nat) :
    Counted ((side.put ender index tid).tid other) ((side.put ender index tid).requests other)
      ((side.put ender index tid).ended other) := by
  by_cases same : other = index
  · subst same
    have kept := (counted other).put ender tid
    unfold Initiator.put
    dsimp only
    rw [Function.update_self]
    split <;> split <;> simp_all
  · have kept := counted other
    unfold Initiator.put
    dsimp only
    rw [Function.update_of_ne same]
    split
    · rw [Function.update_of_ne same]
      split
      · rw [Function.update_of_ne same]
        exact kept
      · exact kept
    · split
      · rw [Function.update_of_ne same]
        exact kept
      · exact kept

private theorem put_calm (calm : ∀ index, Calm (side.tid index)) (kept : Calm tid) (other : Nat) :
    Calm ((side.put ender index tid).tid other) := by
  by_cases same : other = index
  · subst same
    rw [put_tid_same]
    exact kept
  · rw [put_tid_other ender index tid side same]
    exact calm other

private theorem put_knows (knows : RxKnows side) : RxKnows (side.put ender index tid) := by
  have same : (side.put ender index tid).rx = side.rx := rfl
  unfold RxKnows at knows ⊢
  rw [same]
  cases at_ : side.rx with
  | idle => trivial
  | admitted other rsp request =>
    rw [at_] at knows
    exact Nat.lt_of_lt_of_le knows (put_requests_le ender index tid side other)
  | answered other rsp request won =>
    rw [at_] at knows
    refine ⟨Nat.lt_of_lt_of_le knows.1 (put_requests_le ender index tid side other), ?_⟩
    intro number found
    obtain ⟨later, member⟩ := knows.2 number found
    exact ⟨later, put_ended_subset ender index tid side other member⟩

theorem InitiatorInv.put (inv : InitiatorInv side) (calm : Calm tid) :
    InitiatorInv (side.put ender index tid) where
  calm := put_calm ender index tid side inv.calm calm
  counted := put_counted ender index tid side inv.counted
  knows := put_knows ender index tid side inv.knows

end Put

section Inv

variable {side : Initiator}

private theorem InitiatorInv.receive (skb : SkBuff) (inv : InitiatorInv side) :
    InitiatorInv (recvAddbaResponse skb side) := by
  unfold recvAddbaResponse
  split
  · rename_i index rsp _ _
    split
    · exact inv
    · split
      · exact inv
      · rename_i progress
        refine ⟨inv.calm, inv.counted, ?_⟩
        have opened := (inv.counted index).opened
        have busy : (side.tid index).addbaExchangeinprogress = true := by simpa using progress
        simp only [TxTid.openRequests, busy, ↓reduceIte] at opened
        exact Nat.sub_lt opened Nat.one_pos
  · exact inv

private theorem InitiatorInv.exchangeRsp (inv : InitiatorInv side) :
    InitiatorInv (exchangeRsp side) := by
  unfold Tx.exchangeRsp
  split
  · rename_i index rsp request found
    have calm := answerRequest_calm rsp (inv.calm index)
    have kept := inv.put .response index (answerRequest rsp (side.tid index)) side calm
    refine ⟨kept.calm, kept.counted, ?_⟩
    have knows := inv.knows
    unfold RxKnows at knows
    rw [found] at knows
    refine ⟨Nat.lt_of_lt_of_le knows (put_requests_le .response index _ side index), ?_⟩
    intro number won
    cases busy : (side.tid index).addbaExchangeinprogress with
    | false => simp [busy] at won
    | true =>
      have same : side.requests index - 1 = number := by simpa [busy] using won
      subst same
      refine ⟨Nat.le_sub_one_of_lt knows, ?_⟩
      have settled : (answerRequest rsp (side.tid index)).addbaExchangeinprogress = false :=
        congrArg Prod.fst (answerRequest_exchange rsp (side.tid index))
      simp [Initiator.put, busy, settled]
  · exact inv

private theorem InitiatorInv.finishRsp (env : TxEnv) (hal : Nat → HalTurn)
    (inv : InitiatorInv side) :
    InitiatorInv (finishRsp env hal side) := by
  unfold Tx.finishRsp
  split
  · rename_i index rsp request won _
    have kept := inv.put .quarantine index
      (concludeRsp env hal rsp won.isSome (side.tid index)) side
      (concludeRsp_calm env hal rsp won.isSome (side.tid index))
    exact ⟨kept.calm, kept.counted, trivial⟩
  · exact inv

private theorem InitiatorInv.fireTimer (index : Nat) (inv : InitiatorInv side) :
    InitiatorInv (fireTimer index side) := by
  unfold Tx.fireTimer
  dsimp only
  split
  · have kept := inv.put .timer index { side.tid index with addbaTimerActive := false } side
      (inv.calm index)
    exact ⟨kept.calm, kept.counted, kept.knows⟩
  · exact inv

private theorem InitiatorInv.exchangeTimer (inv : InitiatorInv side) :
    InitiatorInv (exchangeTimer side) := by
  unfold Tx.exchangeTimer
  split
  · rename_i index items _ _
    have calm : Calm (if (side.tid index).addbaExchangeinprogress then
        expireRequest (side.tid index) else side.tid index) := by
      split
      · exact expireRequest_calm (inv.calm index)
      · exact inv.calm index
    have kept := inv.put .timer index _ side calm
    exact ⟨kept.calm, kept.counted, kept.knows⟩
  · exact inv

private theorem InitiatorInv.finishTimer (env : TxEnv) (inv : InitiatorInv side) :
    InitiatorInv (finishTimer env side) := by
  unfold Tx.finishTimer
  split
  · rename_i index expired _
    have kept := inv.put .quarantine index (concludeTimer env expired (side.tid index)) side
      (concludeTimer_calm (inv.calm index))
    exact ⟨kept.calm, kept.counted, kept.knows⟩
  · exact inv

private theorem InitiatorInv.clearAll (inv : InitiatorInv side) : InitiatorInv (clearAll side) := by
  unfold Tx.clearAll
  generalize List.range wmeNumTid = indices
  induction indices generalizing side with
  | nil => exact inv
  | cons index rest induction =>
    exact induction (inv.put .clear index _ side (drvAddbaClear_calm (side.tid index)))

theorem initiatorStep_inv (side : Initiator) (moment : TxEnv × InitiatorEvent)
    (inv : InitiatorInv side) : InitiatorInv (initiatorStep side moment) := by
  obtain ⟨env, event⟩ := moment
  cases event with
  | reqSetup index =>
    simp only [initiatorStep]
    split
    · exact inv
    · exact inv.put .quarantine index _ side (drvAddbaReqSetup_calm (inv.calm index))
  | receive skb => exact inv.receive skb
  | rspExchange => exact inv.exchangeRsp
  | rspFinish hal => exact inv.finishRsp env hal
  | timerFires index => exact inv.fireTimer index
  | timerExchange => exact inv.exchangeTimer
  | timerFinish => exact inv.finishTimer env
  | quarantine index code =>
    exact inv.put .quarantine index _ side (fun _ => drvTxbaQuarantine_resting env code _)
  | clear => exact inv.clearAll

theorem initiatorRun_inv (moments : List (TxEnv × InitiatorEvent)) :
    InitiatorInv (initiatorRun moments) := by
  refine Machine.run_invariant initiatorStep_inv moments ⟨?_, ?_, trivial⟩
  · exact fun _ disabled => absurd rfl disabled
  · exact fun _ => ⟨Nat.le_refl 0, rfl⟩

end Inv

/-- An identifier becomes aggregating. -/
def Becomes (index : Nat) (before after : Initiator) : Prop :=
  (before.tid index).addbaExchangecomplete = false ∧
    (after.tid index).addbaExchangecomplete = true

/-- The cooldown of an identifier runs. -/
def Quarantined (index now : Nat) (side : Initiator) : Prop :=
  now < (side.tid index).txbaDisabledUntil

/-- The receive thread is in a response for an identifier. -/
def Handling (index : Nat) (side : Initiator) : Prop :=
  match side.rx with
  | .idle => False
  | .admitted handled _ _ => handled = index
  | .answered handled _ _ _ => handled = index

theorem put_steady (ender : Ender) (handled index : Nat) {tid : TxTid} {side : Initiator}
    (steady : Steady (side.tid handled) tid) :
    Steady (side.tid index) ((side.put ender handled tid).tid index) := by
  by_cases same : index = handled
  · subst same
    rw [put_tid_same]
    exact steady
  · rw [put_tid_other ender handled tid side same]
    exact id

private theorem clearAll_steady (index : Nat) (side : Initiator) :
    Steady (side.tid index) ((clearAll side).tid index) := by
  unfold clearAll
  generalize List.range wmeNumTid = indices
  induction indices generalizing side with
  | nil => exact id
  | cons handled rest induction =>
    have first := put_steady .clear handled index (drvAddbaClear_steady (side.tid handled))
    exact fun complete => first (induction _ complete)

theorem clearAll_rx (side : Initiator) : (clearAll side).rx = side.rx := by
  unfold clearAll
  generalize List.range wmeNumTid = indices
  induction indices generalizing side with
  | nil => rfl
  | cons handled rest induction => exact induction _

/-- Only the end of a response can make an identifier aggregating. -/
theorem initiatorStep_steady (index : Nat) (side : Initiator)
    (moment : TxEnv × InitiatorEvent)
    (other : ∀ hal rsp request won, moment.2 = .rspFinish hal →
      side.rx ≠ .answered index rsp request won) :
    Steady (side.tid index) ((initiatorStep side moment).tid index) := by
  obtain ⟨env, event⟩ := moment
  cases event with
  | reqSetup handled =>
    simp only [initiatorStep]
    split
    · exact id
    · exact put_steady .quarantine handled index (drvAddbaReqSetup_steady env _)
  | receive skb =>
    simp only [initiatorStep, recvAddbaResponse]
    split
    · split
      · exact id
      · split <;> exact id
    · exact id
  | rspExchange =>
    simp only [initiatorStep, exchangeRsp]
    split
    · exact put_steady .response _ index (answerRequest_steady _ _)
    · exact id
  | rspFinish hal =>
    simp only [initiatorStep, finishRsp]
    split
    · rename_i handled rsp request won found
      by_cases same : index = handled
      · subst same
        exact absurd found (other hal rsp request won rfl)
      · exact fun complete => (put_tid_other .quarantine handled _ side same) ▸ complete
    · exact id
  | timerFires handled =>
    simp only [initiatorStep, fireTimer]
    split
    · exact put_steady .timer handled index id
    · exact id
  | timerExchange =>
    simp only [initiatorStep, exchangeTimer]
    split
    · refine put_steady .timer _ index ?_
      split <;> exact id
    · exact id
  | timerFinish =>
    simp only [initiatorStep, finishTimer]
    split
    · exact put_steady .quarantine _ index (concludeTimer_steady env _ _)
    · exact id
  | quarantine handled code =>
    exact put_steady .quarantine handled index (fun complete => by cases complete)
  | clear => exact clearAll_steady index side

/-- What becomes aggregating does so at the end of a successful response. -/
theorem Becomes.answered {index : Nat} {side : Initiator} {moment : TxEnv × InitiatorEvent}
    (becomes : Becomes index side (initiatorStep side moment)) :
    ∃ hal rsp request won, moment.2 = .rspFinish hal ∧
      side.rx = .answered index rsp request won ∧ rsp.statuscode = wifinetStatusSuccess := by
  by_contra none_
  have steady : Steady (side.tid index) ((initiatorStep side moment).tid index) := by
    by_cases finishes : ∃ hal rsp request won, moment.2 = .rspFinish hal ∧
        side.rx = .answered index rsp request won
    · obtain ⟨hal, rsp, request, won, event, found⟩ := finishes
      have refused : rsp.statuscode ≠ wifinetStatusSuccess := by
        intro success
        exact none_ ⟨hal, rsp, request, won, event, found, success⟩
      obtain ⟨env, action⟩ := moment
      cases event
      intro complete
      simp only [initiatorStep, finishRsp, found, put_tid_same] at complete
      rw [concludeRsp_refused refused] at complete
      cases complete
    · refine initiatorStep_steady index side moment ?_
      intro hal rsp request won event found
      exact finishes ⟨hal, rsp, request, won, event, found⟩
  have before := steady becomes.2
  rw [becomes.1] at before
  cases before

/-- No response is admitted for a quarantined identifier. -/
theorem Quarantined.unhandled {index : Nat} {side : Initiator} {moment : TxEnv × InitiatorEvent}
    (quarantined : Quarantined index moment.1.now side) (inv : InitiatorInv side)
    (free : ¬ Handling index side) : ¬ Handling index (initiatorStep side moment) := by
  have disabled : (side.tid index).txbaDisabledUntil ≠ 0 :=
    Nat.ne_of_gt (Nat.lt_of_le_of_lt (Nat.zero_le _) quarantined)
  have resting := inv.calm index disabled
  obtain ⟨env, event⟩ := moment
  cases event with
  | reqSetup handled =>
    simp only [initiatorStep]
    split <;> exact free
  | receive skb =>
    simp only [initiatorStep, recvAddbaResponse]
    split
    · rename_i handled rsp _ _
      split
      · exact free
      · split
        · exact free
        · rename_i busy
          intro same
          have same : handled = index := same
          subst same
          simp [resting.1] at busy
    · exact free
  | rspExchange =>
    simp only [initiatorStep, exchangeRsp]
    split
    · rename_i handled rsp request found
      intro same
      apply free
      unfold Handling
      rw [found]
      exact same
    · exact free
  | rspFinish hal =>
    simp only [initiatorStep, finishRsp]
    split
    · exact id
    · exact free
  | timerFires handled =>
    simp only [initiatorStep, fireTimer]
    split <;> exact free
  | timerExchange =>
    simp only [initiatorStep, exchangeTimer]
    split <;> exact free
  | timerFinish =>
    simp only [initiatorStep, finishTimer]
    split <;> exact free
  | quarantine handled code => exact free
  | clear =>
    unfold Handling at free ⊢
    simp only [initiatorStep, clearAll_rx]
    exact free

/-- A quarantined identifier does not become aggregating while no response for it is in hand. -/
theorem Quarantined.barred {index : Nat} {side : Initiator}
    (later : List (TxEnv × InitiatorEvent)) (inv : InitiatorInv side)
    (quarantined : Machine.Along initiatorStep
      (fun side moment => Quarantined index moment.1.now side) side later)
    (free : ¬ Handling index side)
    (separate : (side.tid index).addbaExchangecomplete = false) :
    ((Machine.run initiatorStep side later).tid index).addbaExchangecomplete = false := by
  induction later generalizing side with
  | nil => exact separate
  | cons moment rest induction =>
    have steady := initiatorStep_steady index side moment (by
      intro hal rsp request won _ found
      apply free
      unfold Handling
      rw [found])
    refine induction (initiatorStep_inv side moment inv) quarantined.2
      (Quarantined.unhandled quarantined.1 inv free) ?_
    cases complete : ((initiatorStep side moment).tid index).addbaExchangecomplete with
    | false => rfl
    | true =>
      rw [steady complete] at separate
      cases separate

/-- The protocol as it is meant. An identifier becomes aggregating only by a successful response
whose request is still in progress when the response takes it, every request is ended once, by a
response or by the timer, and no quarantined identifier becomes aggregating. -/
structure InitiatorLaw (side : Initiator) : Prop where
  agreed : ∀ moment index, Becomes index side (initiatorStep side moment) →
    ∃ rsp request number, side.rx = .answered index rsp request (some number) ∧
      rsp.statuscode = wifinetStatusSuccess
  numbers : ∀ index, (side.ended index).map Prod.fst =
    List.range (side.requests index - (side.tid index).openRequests)
  ended : ∀ index, ∀ entry ∈ side.ended index, entry.2 = .response ∨ entry.2 = .timer
  barred : ∀ moment index, Becomes index side (initiatorStep side moment) →
    ¬ Quarantined index moment.1.now side

/-- An identifier that is quarantined for firmware failures while it waits for a response. -/
def quarantinedRequest : List (TxEnv × InitiatorEvent) :=
  [(plainTxEnv 64, .reqSetup 0), (plainTxEnv 64, .quarantine 0 .fwEndFail)]

/-- `drv_txba_quarantine` ends a request that neither a response nor the timer has ended. -/
theorem initiatorLaw_quarantined : ¬ ∀ moments, InitiatorLaw (initiatorRun moments) := by
  intro law
  have ended := (law quarantinedRequest).ended 0 (0, .quarantine) (by decide +kernel)
  rcases ended with response | timer
  · cases response
  · cases timer

/-- What the driver keeps. An identifier becomes aggregating only at the end of a successful
response that the receive path admitted for a request in progress, and that ended one if its
compare-exchange found one. Every request is ended once, by a response, the timer, a quarantine or a
clear. A quarantined identifier has no request and no agreement, and while its cooldown runs it
becomes aggregating by no response but one that was in hand before. -/
structure InitiatorKept (side : Initiator) : Prop where
  agreed : ∀ moment index, Becomes index side (initiatorStep side moment) →
    ∃ hal rsp request won, moment.2 = .rspFinish hal ∧
      side.rx = .answered index rsp request won ∧ rsp.statuscode = wifinetStatusSuccess ∧
      request < side.requests index ∧
      ∀ number, won = some number → request ≤ number ∧ (number, Ender.response) ∈ side.ended index
  numbers : ∀ index, (side.ended index).map Prod.fst =
    List.range (side.requests index - (side.tid index).openRequests)
  resting : ∀ index, (side.tid index).txbaDisabledUntil ≠ 0 → (side.tid index).Resting
  barred : ∀ index later, ¬ Handling index side →
    (side.tid index).addbaExchangecomplete = false →
    Machine.Along initiatorStep (fun side moment => Quarantined index moment.1.now side) side
      later →
    ((Machine.run initiatorStep side later).tid index).addbaExchangecomplete = false

theorem initiatorRun_kept (moments : List (TxEnv × InitiatorEvent)) :
    InitiatorKept (initiatorRun moments) := by
  have inv := initiatorRun_inv moments
  refine ⟨?_, fun index => (inv.counted index).numbers, inv.calm, ?_⟩
  · intro moment index becomes
    obtain ⟨hal, rsp, request, won, event, found, success⟩ := becomes.answered
    have knows := inv.knows
    unfold RxKnows at knows
    rw [found] at knows
    exact ⟨hal, rsp, request, won, event, found, success, knows.1, knows.2⟩
  · intro index later free separate quarantined
    exact Quarantined.barred later inv quarantined free separate

end W522a.Tx
