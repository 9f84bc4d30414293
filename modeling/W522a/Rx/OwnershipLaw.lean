import W522a.Rx.Ownership

/-!
Frames and rings over whole runs of a station: while sessions end only through paths that empty
them, every frame is held by a live session or gone once, and a cleaned node holds nothing.
-/

namespace W522a.Rx

open RxScoreboard

/-- A frame that the call gives to the scoreboard. -/
def taken (scb : RxScoreboard) : TidEvent → Multiset SkBuff
  | .input _ _ skb => if scb.rxAddbaExchangecomplete then {skb} else 0
  | .bar skb => {skb}
  | _ => 0

/-- The rings allocated for a scoreboard and not freed, behind a call. Only `drv_rx_addbareq`
allocates one; only `drv_rxampdu_del` and `drv_rx_nsta_clean` free one. -/
def ringsAfter (scb : RxScoreboard) (call : TidEvent) (rings : Nat) : Nat :=
  let result := tidStep scb call
  match call with
  | .addbareq _ _ _ => if scb.pRxDesc.isNone ∧ result.pRxDesc.isSome then rings + 1 else rings
  | .ampduDel _ | .nstaClean _ =>
    if scb.pRxDesc.isSome ∧ result.pRxDesc.isNone then rings - 1 else rings
  | _ => rings

/-- A call that leaves nothing behind: an agreement is cleared only while its ring is empty, a node
is set up only without a ring, and cleaned only when its ring belongs to a session. -/
def CallOk (scb : RxScoreboard) : TidEvent → Prop
  | .addbaClear => held scb = 0
  | .nstaInit _ => scb.pRxDesc.isNone
  | .nstaClean _ => scb.pRxDesc.isSome → scb.rxAddbaExchangecomplete = true
  | _ => True

structure Keeps (scb : RxScoreboard) (rings : Nat) : Prop where
  ring : RingInv scb
  live : scb.rxAddbaExchangecomplete = false → held scb = 0
  rings : rings = if scb.pRxDesc.isSome then 1 else 0

section Calls

variable {scb result : RxScoreboard} {rings : Nat}

theorem held_of_missing (missing : scb.pRxDesc.isNone) : held scb = 0 := by
  refine Slots.content_eq_zero.mpr fun index _ => ?_
  rw [wbuf, Option.isNone_iff_eq_none.mp missing]
  rfl

theorem RingInv.held_of_same (inv : RingInv scb) (same : scb.bawHead = scb.bawTail) :
    held scb = 0 := by
  refine Slots.content_eq_zero.mpr fun index inside => ?_
  have head := inv.headInside
  simp only [drvTidMaxBufs] at inside
  have place : (scb.bawHead + (((index : Int) - scb.bawHead) % 128).toNat) % 128 = index := by
    omega
  have empty := inv.frameAt_none same
    (show (((index : Int) - scb.bawHead) % 128).toNat < 128 by omega)
  rwa [frameAt_eq_wbuf, drvTidMaxBufs, place] at empty

structure CallResult (scb : RxScoreboard) (call : TidEvent) : Prop where
  account : account (tidStep scb call) = account scb + taken scb call
  live : (tidStep scb call).rxAddbaExchangecomplete = false → held (tidStep scb call) = 0
  rings : ringsAfter scb call (if scb.pRxDesc.isSome then 1 else 0) =
    if (tidStep scb call).pRxDesc.isSome then 1 else 0

theorem Conserves.callResult {call : TidEvent} (conserves : Conserves scb (tidStep scb call))
    (keeps : Keeps scb rings) (nothing : taken scb call = 0)
    (plain : ∀ count, ringsAfter scb call count = count) : CallResult scb call where
  account := by rw [conserves.account, nothing, add_zero]
  live := by
    intro ended
    rw [conserves.session] at ended
    exact conserves.empty (keeps.live ended)
  rings := by rw [plain, conserves.ring]

private theorem ended_account (inv : RingInv scb) (env : RxEnv) (drop : Bool)
    {result : RxScoreboard}
    (handedUp : result.handedUp =
      (drvRxFlushTid env drop { scb with timerActive := false }).handedUp)
    (freed : result.freed = (drvRxFlushTid env drop { scb with timerActive := false }).freed)
    (nothing : held result = 0) : account result = account scb := by
  have quiet : RingInv { scb with timerActive := false } :=
    inv.congr rfl rfl rfl rfl id rfl id rfl
  have cleared : Conserves scb { scb with timerActive := false } :=
    (Conserves.refl inv.headInside).congr rfl rfl rfl rfl rfl
  have flushed := cleared.trans (drvRxFlushTid_conserves env drop cleared.inside)
  have empty := (drvRxFlushTid_inv env drop quiet).held_of_same
    (drvRxFlushTid_empty env drop quiet)
  rw [← flushed.account, account, account, nothing, empty, handedUp, freed]

/-- The end of a session, as `drv_rxampdu_del` and `drv_rx_nsta_clean` make it. -/
theorem ended_result {call : TidEvent} (keeps : Keeps scb rings) (env : RxEnv) (drop : Bool)
    (deletes : call = .ampduDel env ∨ call = .nstaClean env)
    (session : scb.rxAddbaExchangecomplete = true)
    (step : tidStep scb call = { drvRxFlushTid env drop { scb with timerActive := false } with
      rxAddbaExchangecomplete := false, pRxDesc := none }) : CallResult scb call := by
  have nothing : held (tidStep scb call) = 0 := held_of_missing (by rw [step]; rfl)
  have given : taken scb call = 0 := by
    rcases deletes with rfl | rfl
    · rfl
    · rfl
  have ring : scb.pRxDesc.isSome := (keeps.ring.session session).1
  have missing : (tidStep scb call).pRxDesc = none := by rw [step]
  refine ⟨?_, fun _ => nothing, ?_⟩
  · rw [given, add_zero]
    exact ended_account keeps.ring env drop (by rw [step]) (by rw [step]) nothing
  · rcases deletes with rfl | rfl
    · simp [ringsAfter, ring, missing]
    · simp [ringsAfter, ring, missing]

/-- The accepting branch of `drv_rx_addbareq` has handed up or freed every frame it answers for, on
the ring it has found. -/
theorem acceptAddba_logs (keeps : Keeps scb rings) (env : RxEnv) (req : AddbaReq) :
    ((acceptAddba env req scb).handedUp : Multiset SkBuff) + (acceptAddba env req scb).freed =
        account scb ∧
      (acceptAddba env req scb).pRxDesc.isSome = scb.pRxDesc.isSome := by
  unfold acceptAddba
  by_cases renegotiated : scb.rxAddbaExchangecomplete ∧ scb.pRxDesc.isSome
  · have quiet : RingInv { scb with timerActive := false } :=
      keeps.ring.congr rfl rfl rfl rfl id rfl id rfl
    have cleared : Conserves scb { scb with timerActive := false } :=
      (Conserves.refl keeps.ring.headInside).congr rfl rfl rfl rfl rfl
    have flushed := cleared.trans (drvRxFlushTid_conserves env false cleared.inside)
    have empty := (drvRxFlushTid_inv env false quiet).held_of_same
      (drvRxFlushTid_empty env false quiet)
    simp only [if_pos renegotiated]
    refine ⟨?_, flushed.ring⟩
    rw [← flushed.account, account, empty, zero_add]
  · simp only [if_neg renegotiated]
    refine ⟨?_, trivial⟩
    have nothing : held scb = 0 := by
      cases session : scb.rxAddbaExchangecomplete with
      | true => exact absurd ⟨session, (keeps.ring.session session).1⟩ renegotiated
      | false => exact keeps.live session
    rw [account, nothing, zero_add]

/-- What `drv_rx_addbareq` leaves of the frames and of the ring. -/
theorem drvRxAddbareqTid_keeps (keeps : Keeps scb rings) (env : RxEnv) (req : AddbaReq)
    (allocated : Bool) :
    account (drvRxAddbareqTid env req allocated scb) = account scb ∧
      ((drvRxAddbareqTid env req allocated scb).rxAddbaExchangecomplete = false →
        held (drvRxAddbareqTid env req allocated scb) = 0) ∧
      (scb.pRxDesc.isSome → (drvRxAddbareqTid env req allocated scb).pRxDesc.isSome) := by
  obtain ⟨logs, ring⟩ := acceptAddba_logs keeps env req
  have emptied : ∀ result : RxScoreboard, held result = 0 →
      result.handedUp = (acceptAddba env req scb).handedUp →
      result.freed = (acceptAddba env req scb).freed → account result = account scb := by
    intro result nothing handedUp freed
    rw [← logs, account, nothing, handedUp, freed, zero_add]
  unfold drvRxAddbareqTid
  dsimp only
  split
  · exact ⟨account_congr rfl rfl rfl, fun ended => (held_congr rfl).trans (keeps.live ended), id⟩
  · split
    · exact ⟨account_congr rfl rfl rfl, fun ended => (held_congr rfl).trans (keeps.live ended), id⟩
    · split
      · have nothing : ∀ result : RxScoreboard, result.pRxDesc = some emptyRing →
            held result = 0 := by
          intro result fresh
          refine Slots.content_eq_zero.mpr fun index _ => ?_
          rw [wbuf, fresh]
          rfl
        exact ⟨emptied _ (nothing _ rfl) rfl rfl, fun _ => nothing _ rfl, fun _ => rfl⟩
      · rename_i refused
        obtain ⟨missing, -⟩ := not_or.mp refused
        have none_there : (acceptAddba env req scb).pRxDesc.isNone := by
          simpa using missing
        have nothing : ∀ result : RxScoreboard,
            result.pRxDesc = (acceptAddba env req scb).pRxDesc → held result = 0 := by
          intro result same
          exact held_of_missing (by rw [same]; exact none_there)
        refine ⟨emptied _ (nothing _ rfl) rfl rfl, fun _ => nothing _ rfl, ?_⟩
        intro found
        rw [← ring] at found
        exact absurd found missing

private theorem addbareq_result (keeps : Keeps scb rings) (env : RxEnv) (req : AddbaReq)
    (allocated : Bool) : CallResult scb (.addbareq env req allocated) := by
  obtain ⟨account, live, ring⟩ := drvRxAddbareqTid_keeps keeps env req allocated
  refine ⟨account.trans (add_zero _).symm, live, ?_⟩
  unfold ringsAfter tidStep
  dsimp only
  cases before : scb.pRxDesc with
  | none =>
    cases (drvRxAddbareqTid env req allocated scb).pRxDesc with
    | none => rfl
    | some slots => rfl
  | some slots =>
    have after := ring (by rw [before]; rfl)
    rw [after]
    rfl

private theorem unchanged_result {call : TidEvent} (keeps : Keeps scb rings)
    (same : tidStep scb call = scb) (nothing : taken scb call = 0) : CallResult scb call := by
  have conserves : Conserves scb (tidStep scb call) := by
    rw [same]
    exact Conserves.refl keeps.ring.headInside
  refine Conserves.callResult conserves keeps nothing fun count => ?_
  unfold ringsAfter
  rw [same]
  cases call with
  | addbareq env req allocated => cases found : scb.pRxDesc <;> simp [found]
  | ampduDel env => cases found : scb.pRxDesc <;> simp [found]
  | nstaClean env => cases found : scb.pRxDesc <;> simp [found]
  | _ => rfl

private theorem drvRxSortTimerEx_conserves (env : RxEnv) (now : Nat)
    (inside : scb.bawHead < drvTidMaxBufs) : Conserves scb (drvRxSortTimerEx env now scb) := by
  unfold drvRxSortTimerEx
  split
  · exact drvRxFlushTid_conserves env true inside
  · have swept := sortTimerLoop_conserves (drvRxReorderTimeout env) now inside
    dsimp only
    split
    · exact swept.congr rfl rfl rfl rfl rfl
    · exact swept

theorem tidStep_result (keeps : Keeps scb rings) (call : TidEvent) (safe : CallOk scb call) :
    CallResult scb call := by
  have inside := keeps.ring.headInside
  cases call with
  | nstaInit env =>
    have missing : scb.pRxDesc = none := Option.isNone_iff_eq_none.mp safe
    have nothing : held scb = 0 := held_of_missing safe
    have after : held (tidStep scb (.nstaInit env)) = 0 := held_of_missing rfl
    refine ⟨?_, fun _ => after, ?_⟩
    · rw [account, after, account, nothing]
      exact (add_zero _).symm
    · rw [missing]
      rfl
  | addbareq env req allocated => exact addbareq_result keeps env req allocated
  | input env now skb =>
    cases session : scb.rxAddbaExchangecomplete with
    | false =>
      have same : tidStep scb (.input env now skb) = scb := by simp [tidStep, session]
      have nothing : taken scb (.input env now skb) = 0 := by simp [taken, session]
      refine Conserves.callResult ?_ keeps nothing fun _ => rfl
      rw [same]
      exact Conserves.refl inside
    | true =>
      have ring : scb.pRxDesc.isSome := (keeps.ring.session session).1
      have step : tidStep scb (.input env now skb) = drvRxInputTid env now skb scb := by
        simp [tidStep, session]
      have received := drvRxInputTid_receives env now skb ring inside
      rw [← step] at received
      refine ⟨?_, ?_, ?_⟩
      · rw [received.account, taken, if_pos session]
      · intro ended
        rw [received.session, session] at ended
        cases ended
      · rw [received.ring]
        rfl
  | bar skb =>
    have received : Receives skb scb (drvRxBarTid skb scb) := drvRxBarTid_receives skb inside
    refine ⟨received.account, ?_, ?_⟩
    · intro ended
      have session : scb.rxAddbaExchangecomplete = false := received.session.symm.trans ended
      have freed : drvRxBarTid skb scb = scb.skbFree skb := by simp [drvRxBarTid, session]
      show held (drvRxBarTid skb scb) = 0
      rw [freed]
      exact (held_congr rfl).trans (keeps.live session)
    · have ring : (tidStep scb (.bar skb)).pRxDesc.isSome = scb.pRxDesc.isSome := received.ring
      rw [ring]
      rfl
  | sortTimer env now =>
    exact Conserves.callResult (drvRxSortTimerEx_conserves env now inside) keeps rfl fun _ => rfl
  | timerHandler =>
    exact Conserves.callResult ((Conserves.refl inside).congr rfl rfl rfl rfl rfl) keeps rfl
      fun _ => rfl
  | flushTid env drop =>
    exact Conserves.callResult (drvRxFlushTid_conserves env drop inside) keeps rfl fun _ => rfl
  | ampduDel env =>
    cases session : scb.rxAddbaExchangecomplete with
    | false =>
      have same : tidStep scb (.ampduDel env) = scb := by simp [tidStep, drvRxampduDel, session]
      exact unchanged_result keeps same rfl
    | true =>
      refine ended_result keeps env false (Or.inl rfl) session ?_
      simp [tidStep, drvRxampduDel, session]
  | setAddbaRsp statuscode =>
    exact Conserves.callResult ((Conserves.refl inside).congr rfl rfl rfl rfl rfl) keeps rfl
      fun _ => rfl
  | addbaClear =>
    have cleared : held (drvAddbaClearTid scb) = 0 := (held_congr rfl).trans safe
    exact ⟨(account_congr rfl rfl rfl).trans (add_zero _).symm, fun _ => cleared, rfl⟩
  | nstaClean env =>
    cases session : scb.rxAddbaExchangecomplete with
    | false =>
      have same : tidStep scb (.nstaClean env) = scb := by
        simp [tidStep, drvRxNstaCleanTid, session]
      exact unchanged_result keeps same rfl
    | true =>
      refine ended_result keeps env true (Or.inr rfl) session ?_
      simp [tidStep, drvRxNstaCleanTid, session]

end Calls

/-- A station, the frames given to `drv_rx_input`, and the rings allocated for each identifier that
were not freed. -/
structure Owned where
  sta : RxNsta
  given : Multiset SkBuff
  rings : Nat → Nat

/-- The frame of a call. -/
def given : RxEvent → Multiset SkBuff
  | .input _ _ skb => {skb}
  | _ => 0

/-- One call, with what is given and allocated. -/
def own (seen : Owned) (event : RxEvent) : Owned where
  sta := step seen.sta event
  given := seen.given + given event
  rings := fun tid =>
    (onTid tid event).elim (seen.rings tid) fun call =>
      ringsAfter (seen.sta.rxScb tid) call (seen.rings tid)

/-- No frame was given and nothing allocated. -/
def zeroOwned : Owned := ⟨zeroNsta, 0, fun _ => 0⟩

/-- Every frame is held in one slot of a live session, or was handed up or freed once, and the only
rings are those the scoreboards have. -/
structure OwnershipLaw (seen : Owned) : Prop where
  conserved : seen.given = seen.sta.passed + seen.sta.dropped +
    Slots.total wmeNumTid fun tid => account (seen.sta.rxScb tid)
  live : ∀ tid, tid < wmeNumTid → (seen.sta.rxScb tid).rxAddbaExchangecomplete = false →
    ∀ index, index < drvTidMaxBufs → (seen.sta.rxScb tid).wbuf index = none
  rings : ∀ tid, tid < wmeNumTid →
    seen.rings tid = if (seen.sta.rxScb tid).pRxDesc.isSome then 1 else 0

/-- No slot holds a frame and no ring is allocated. -/
def NothingHeld (seen : Owned) : Prop :=
  ∀ tid, tid < wmeNumTid → seen.rings tid = 0 ∧
    ∀ index, index < drvTidMaxBufs → (seen.sta.rxScb tid).wbuf index = none

/-- The calls that leave nothing behind. An agreement is cleared only while no session holds a frame;
a node is set up only while no ring is allocated; and it is cleaned only while every ring belongs to
a live session and receive aggregation is configured. -/
def OwnOk (seen : Owned) : RxEvent → Prop
  | .addbaClear => ∀ tid, tid < wmeNumTid →
    ∀ index, index < drvTidMaxBufs → (seen.sta.rxScb tid).wbuf index = none
  | .nstaInit env => (env.cfgRxaggr || env.cfgApRxaggr) = true →
    ∀ tid, tid < wmeNumTid → (seen.sta.rxScb tid).pRxDesc.isNone
  | .nstaClean env => ∀ tid, tid < wmeNumTid → (seen.sta.rxScb tid).pRxDesc.isSome →
    (env.cfgRxaggr || env.cfgApRxaggr) = true ∧
      (seen.sta.rxScb tid).rxAddbaExchangecomplete = true
  | _ => True

instance (seen : Owned) (event : RxEvent) : Decidable (OwnOk seen event) := by
  cases event <;> unfold OwnOk <;> infer_instance

section Runs

variable {seen : Owned} {event : RxEvent} {tid : Nat}

/-- What holds of a station in every state of a run. -/
structure OwnInv (seen : Owned) : Prop where
  conserved : seen.given = seen.sta.passed + seen.sta.dropped +
    Slots.total wmeNumTid fun tid => account (seen.sta.rxScb tid)
  keeps : ∀ tid, tid < wmeNumTid → Keeps (seen.sta.rxScb tid) (seen.rings tid)

theorem callOk_of_ownOk (safe : OwnOk seen event) (inside : tid < wmeNumTid) {call : TidEvent}
    (found : onTid tid event = some call) : CallOk (seen.sta.rxScb tid) call := by
  cases event with
  | nstaInit env =>
    simp only [onTid, Option.ite_none_right_eq_some, Option.some.injEq] at found
    obtain ⟨⟨configured, -⟩, rfl⟩ := found
    exact safe configured tid inside
  | nstaClean env =>
    simp only [onTid, Option.ite_none_right_eq_some, Option.some.injEq] at found
    obtain ⟨-, rfl⟩ := found
    exact fun ring => (safe tid inside ring).2
  | addbaClear =>
    simp only [onTid, Option.ite_none_right_eq_some, Option.some.injEq] at found
    obtain ⟨-, rfl⟩ := found
    exact Slots.content_eq_zero.mpr (safe tid inside)
  | input env now skb =>
    simp only [onTid] at found
    split at found
    · cases found
    · split at found
      · split at found
        · cases found
          trivial
        · cases found
      · split at found
        · cases found
          trivial
        · cases found
  | _ =>
    simp only [onTid, Option.ite_none_right_eq_some, Option.some.injEq] at found
    obtain ⟨-, rfl⟩ := found
    trivial

theorem own_keeps (keeps : Keeps (seen.sta.rxScb tid) (seen.rings tid)) (safe : OwnOk seen event)
    (inside : tid < wmeNumTid) :
    Keeps ((own seen event).sta.rxScb tid) ((own seen event).rings tid) := by
  have after : (own seen event).sta.rxScb tid =
      (onTid tid event).elim (seen.sta.rxScb tid) (tidStep (seen.sta.rxScb tid)) :=
    step_rxScb seen.sta tid event
  rw [after]
  unfold own
  dsimp only
  cases found : onTid tid event with
  | none => exact keeps
  | some call =>
    have result := tidStep_result keeps call (callOk_of_ownOk safe inside found)
    refine ⟨tidStep_inv keeps.ring call, result.live, ?_⟩
    show ringsAfter (seen.sta.rxScb tid) call (seen.rings tid) = _
    rw [keeps.rings]
    exact result.rings

/-- What a call adds to one scoreboard's account. -/
theorem own_account (keeps : Keeps (seen.sta.rxScb tid) (seen.rings tid)) (safe : OwnOk seen event)
    (inside : tid < wmeNumTid) :
    account ((own seen event).sta.rxScb tid) = account (seen.sta.rxScb tid) +
      (onTid tid event).elim 0 (taken (seen.sta.rxScb tid)) := by
  have after : (own seen event).sta.rxScb tid =
      (onTid tid event).elim (seen.sta.rxScb tid) (tidStep (seen.sta.rxScb tid)) :=
    step_rxScb seen.sta tid event
  rw [after]
  cases found : onTid tid event with
  | none => exact (add_zero _).symm
  | some call => exact (tidStep_result keeps call (callOk_of_ownOk safe inside found)).account

/-- A frame given to a station is freed, passed on, or given to one scoreboard. -/
theorem drvRxInput_cases (env : RxEnv) (now : Nat) (skb : SkBuff) (sta : RxNsta) :
    drvRxInput env now skb sta = sta.drop skb ∨ drvRxInput env now skb sta = sta.pass skb ∨
      ∃ tid call, tid < wmeNumTid ∧
        drvRxInput env now skb sta = sta.update tid (fun scb => tidStep scb call) ∧
        taken (sta.rxScb tid) call = {skb} ∧ CallOk (sta.rxScb tid) call := by
  unfold drvRxInput drvRxBar
  split
  · exact Or.inl rfl
  · split
    · exact Or.inl rfl
    · split
      · split
        · exact Or.inl rfl
        · rename_i inside
          exact Or.inr (Or.inr ⟨barTid skb, .bar skb, Nat.lt_of_not_le inside, rfl, rfl, trivial⟩)
      · split
        · exact Or.inr (Or.inl rfl)
        · split
          · exact Or.inr (Or.inl rfl)
          · rename_i inside
            split
            · exact Or.inr (Or.inl rfl)
            · rename_i open_
              have session : (sta.rxScb (qosTid skb)).rxAddbaExchangecomplete = true := by
                simpa using open_
              refine Or.inr (Or.inr ⟨qosTid skb, .input env now skb, Nat.lt_of_not_le inside, ?_, ?_,
                trivial⟩)
              · simp only [RxNsta.update, tidStep, session, if_true]
              · simp only [taken, session, if_true]

private theorem input_conserved (inv : OwnInv seen) (env : RxEnv) (now : Nat) (skb : SkBuff) :
    seen.given + {skb} = (drvRxInput env now skb seen.sta).passed +
      (drvRxInput env now skb seen.sta).dropped +
      Slots.total wmeNumTid fun tid => account ((drvRxInput env now skb seen.sta).rxScb tid) := by
  rw [inv.conserved]
  rcases drvRxInput_cases env now skb seen.sta with
    dropped | passed | ⟨tid, call, inside, step, frame, safe⟩
  · rw [dropped]
    show _ = (seen.sta.passed : Multiset SkBuff) +
      ((seen.sta.dropped ++ [skb] : List SkBuff) : Multiset SkBuff) + _
    rw [← Multiset.coe_add, Multiset.coe_singleton]
    simp only [RxNsta.drop_rxScb]
    ac_rfl
  · rw [passed]
    show _ = ((seen.sta.passed ++ [skb] : List SkBuff) : Multiset SkBuff) +
      (seen.sta.dropped : Multiset SkBuff) + _
    rw [← Multiset.coe_add, Multiset.coe_singleton]
    simp only [RxNsta.pass_rxScb]
    ac_rfl
  · have result := tidStep_result (inv.keeps tid inside) call safe
    have gained : Slots.total wmeNumTid (fun other => account
        ((drvRxInput env now skb seen.sta).rxScb other)) =
        Slots.total wmeNumTid (fun other => account (seen.sta.rxScb other)) + {skb} := by
      refine Slots.total_gain inside ?_ ?_
      · rw [step, RxNsta.update_rxScb, if_pos rfl, result.account, frame]
      · intro other different
        rw [step, RxNsta.update_rxScb, if_neg (Ne.symm different)]
    have passed : (drvRxInput env now skb seen.sta).passed = seen.sta.passed := by rw [step]; rfl
    have dropped : (drvRxInput env now skb seen.sta).dropped = seen.sta.dropped := by rw [step]; rfl
    rw [gained, passed, dropped, add_assoc]

/-- A call that gives no frame moves none in or out. -/
theorem quiet_conserved (inv : OwnInv seen) (safe : OwnOk seen event) (nothing : given event = 0)
    (none_taken : ∀ tid, (onTid tid event).elim 0 (taken (seen.sta.rxScb tid)) = 0)
    (passed : (step seen.sta event).passed = seen.sta.passed)
    (dropped : (step seen.sta event).dropped = seen.sta.dropped) :
    (own seen event).given = (own seen event).sta.passed + (own seen event).sta.dropped +
      Slots.total wmeNumTid fun tid => account ((own seen event).sta.rxScb tid) := by
  have same : Slots.total wmeNumTid (fun tid => account ((own seen event).sta.rxScb tid)) =
      Slots.total wmeNumTid fun tid => account (seen.sta.rxScb tid) := by
    refine Slots.total_congr fun tid inside => ?_
    rw [own_account (inv.keeps tid inside) safe inside, none_taken, add_zero]
  rw [same]
  show seen.given + given event = (step seen.sta event).passed + (step seen.sta event).dropped + _
  rw [nothing, add_zero, passed, dropped]
  exact inv.conserved

private theorem own_conserved (inv : OwnInv seen) (safe : OwnOk seen event) :
    (own seen event).given = (own seen event).sta.passed + (own seen event).sta.dropped +
      Slots.total wmeNumTid fun tid => account ((own seen event).sta.rxScb tid) := by
  cases event with
  | input env now skb => exact input_conserved inv env now skb
  | _ =>
    refine quiet_conserved inv safe rfl ?_ ?_ ?_
    · intro tid
      simp only [onTid]
      split <;> rfl
    · simp only [step, drvRxAddbareq]
      first
        | rfl
        | (split <;> rfl)
    · simp only [step, drvRxAddbareq]
      first
        | rfl
        | (split <;> rfl)

private theorem own_inv (seen : Owned) (event : RxEvent) (inv : OwnInv seen)
    (safe : OwnOk seen event) :
    OwnInv (own seen event) where
  conserved := own_conserved inv safe
  keeps := fun tid inside => own_keeps (inv.keeps tid inside) safe inside

private theorem zeroOwned_inv : OwnInv zeroOwned where
  conserved := by
    have nothing : Slots.total wmeNumTid (fun tid => account (zeroOwned.sta.rxScb tid)) = 0 := by
      refine Slots.total_eq_zero.mpr fun tid _ => ?_
      have empty : held zeroScoreboard = 0 := held_of_missing rfl
      show account zeroScoreboard = 0
      rw [account, empty]
      rfl
    rw [nothing]
    rfl
  keeps := by
    intro tid _
    exact ⟨zeroScoreboard_good.inv, fun _ => held_of_missing rfl, rfl⟩

private theorem OwnInv.law (inv : OwnInv seen) : OwnershipLaw seen where
  conserved := inv.conserved
  live := fun tid inside ended =>
    Slots.content_eq_zero.mp ((inv.keeps tid inside).live ended)
  rings := fun tid inside => (inv.keeps tid inside).rings

private theorem nstaClean_nothing {env : RxEnv} (inv : OwnInv seen)
    (safe : OwnOk seen (.nstaClean env)) :
    NothingHeld (own seen (.nstaClean env)) := by
  intro tid inside
  have keeps := own_keeps (inv.keeps tid inside) safe inside
  have missing : ((own seen (.nstaClean env)).sta.rxScb tid).pRxDesc.isNone := by
    show ((step seen.sta (.nstaClean env)).rxScb tid).pRxDesc.isNone
    rw [step_rxScb]
    cases ring : (seen.sta.rxScb tid).pRxDesc.isSome with
    | true =>
      obtain ⟨configured, session⟩ := safe tid inside ring
      simp [onTid, configured, inside, tidStep, drvRxNstaCleanTid, session]
    | false =>
      have none_there : (seen.sta.rxScb tid).pRxDesc.isNone := by simpa using ring
      have ended : (seen.sta.rxScb tid).rxAddbaExchangecomplete = false := by
        cases session : (seen.sta.rxScb tid).rxAddbaExchangecomplete with
        | false => rfl
        | true =>
          have found := ((inv.keeps tid inside).ring.session session).1
          rw [ring] at found
          cases found
      simp only [onTid]
      split
      · simpa [tidStep, drvRxNstaCleanTid, ended] using none_there
      · exact none_there
  refine ⟨?_, Slots.content_eq_zero.mp (held_of_missing missing)⟩
  have absent : ((own seen (.nstaClean env)).sta.rxScb tid).pRxDesc.isSome = false := by
    simpa using missing
  rw [keeps.rings, absent]
  rfl

end Runs

/-- In every run whose sessions end through paths that empty them, every frame given is held by a
live session or gone once, and nothing is held once the node was cleaned. -/
theorem rx_owned (events : List RxEvent) (safe : Machine.Along own OwnOk zeroOwned events) :
    OwnershipLaw (Machine.run own zeroOwned events) ∧
      ∀ before env, events = before ++ [.nstaClean env] →
        NothingHeld (Machine.run own zeroOwned events) := by
  refine ⟨(safe.invariant own_inv zeroOwned_inv).law, ?_⟩
  rintro before env rfl
  obtain ⟨first, ⟨last, -⟩⟩ := Machine.along_append.mp safe
  rw [Machine.run_append]
  exact nstaClean_nothing (first.invariant own_inv zeroOwned_inv) last

/-- A frame that is handed up at once and one ahead of a hole, a renegotiation that hands it up,
another one, and the cleaning of the node. -/
theorem rx_owned_renegotiated :
    let events := sessionEvents ++ [.input plainEnv 0 (qosFrame 0 1),
      .input plainEnv 1 (qosFrame 1 3), .addbareq plainEnv ⟨2, 0, 64, 5⟩ true,
      .input plainEnv 2 (qosFrame 2 6), .nstaClean plainEnv]
    OwnershipLaw (Machine.run own zeroOwned events) ∧
      ∀ before env, events = before ++ [.nstaClean env] →
        NothingHeld (Machine.run own zeroOwned events) :=
  rx_owned _ (by decide +kernel)

/-- A cleared agreement is skipped by the cleaning of the node: frame 3, which waits behind a hole
at 2, and the ring stay for ever. -/
theorem rx_leaks :
    ¬ ∀ events : List RxEvent, OwnershipLaw (Machine.run own zeroOwned events) ∧
      ∀ before env, events = before ++ [.nstaClean env] →
        NothingHeld (Machine.run own zeroOwned events) := by
  intro law
  have nothing := (law (sessionEvents ++ [.input plainEnv 0 (qosFrame 0 1),
    .input plainEnv 1 (qosFrame 1 3), .addbaClear, .nstaClean plainEnv])).2
    (sessionEvents ++ [.input plainEnv 0 (qosFrame 0 1), .input plainEnv 1 (qosFrame 1 3),
      .addbaClear]) plainEnv rfl 0 (by decide)
  exact absurd nothing.2 (by decide +kernel)

end W522a.Rx
