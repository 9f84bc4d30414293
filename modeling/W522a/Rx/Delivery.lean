import W522a.Rx.Order

/-!
In-order delivery over whole runs of a session. An observer keeps the unwrapped number of the
window start and the numbers handed up, and counts how often the window was started afresh.
-/

namespace W522a.Rx

open RxScoreboard

/-- The frame that a call starts the window at: the first one after `drv_rx_nsta_init`, and one
behind an empty window. -/
def restart (scb : RxScoreboard) : TidEvent → Option SkBuff
  | .input _ _ skb =>
    if scb.seqReset ∨ isOld skb.rxSeq scb ∧ desynced scb then some skb else none
  | _ => none

def rebase (scb : RxScoreboard) (call : TidEvent) : RxScoreboard :=
  match restart scb call with
  | some skb => resyncTo skb.rxSeq scb
  | none => scb

def rebaseStart (number : Nat → Int) (start : Int) (scb : RxScoreboard) (call : TidEvent) : Int :=
  match restart scb call with
  | some skb => number skb.id
  | none => start

/-- The frames of a session and its timers, with every data frame less than four windows behind
the start and no further ahead than the rest of the sequence space. -/
def InReach (number : Nat → Int) (start : Int) (scb : RxScoreboard) : TidEvent → Prop
  | .input _ _ skb =>
    (skb.rxSeq : Int) = number skb.id % wifinetSeqMax ∧
      (scb.seqReset = false → start - scb.bawSize * 4 < number skb.id ∧
        number skb.id + scb.bawSize * 4 ≤ start + wifinetSeqMax)
  | .bar _ | .sortTimer _ _ | .timerHandler => True
  | _ => False

section Step

variable {number : Nat → Int} {start : Int} {scb result : RxScoreboard}

theorem RingInv.held_of_empty (inv : RingInv scb) (same : scb.bawHead = scb.bawTail) :
    Held number start scb := by
  intro offset bound skb found
  rw [inv.frameAt_none same bound] at found
  simp at found

private theorem drvRxBarTid_moves (inv : RingInv scb) (held : Held number start scb)
    (skb : SkBuff) :
    ∃ count, count < 4096 ∧ Moves number start count scb (drvRxBarTid skb scb) := by
  have still : Moves number start 0 scb (scb.skbFree skb) :=
    (Moves.refl inv held).congr rfl rfl rfl rfl rfl
  unfold drvRxBarTid
  split
  · exact ⟨0, by omega, still⟩
  · dsimp only
    split
    · exact ⟨0, by omega, still⟩
    · have skips := releaseUpTo_releases inv
        ((scb.bawHead + drvBaIndex scb.seqNext skb.barSeq) % drvTidMaxBufs)
      obtain ⟨skipped, skipBound, skip⟩ := skips.moves inv held
      obtain ⟨count, bound, moves⟩ :=
        (releaseInOrder_releases skips.inv).moves skips.inv skip.held
      have span := ringPending_lt scb
      have rest := ringPending_lt (releaseUpTo
        ((scb.bawHead + drvBaIndex scb.seqNext skb.barSeq) % drvTidMaxBufs) scb)
      exact ⟨skipped + count, by omega, (skip.trans moves).congr rfl rfl rfl rfl rfl⟩

private theorem drvRxSortTimerEx_moves (inv : RingInv scb) (held : Held number start scb)
    (env : RxEnv) (now : Nat) :
    ∃ count, count < 4096 ∧ Moves number start count scb (drvRxSortTimerEx env now scb) := by
  have span := ringPending_lt scb
  unfold drvRxSortTimerEx
  split
  · obtain ⟨count, bound, moves⟩ := drvRxFlushTid_moves inv held env true
    exact ⟨count, by omega, moves⟩
  · obtain ⟨count, bound, moves⟩ :=
      (sortTimerLoop_releases inv (drvRxReorderTimeout env) now).moves inv held
    dsimp only
    split
    · exact ⟨count, by omega, moves.congr rfl rfl rfl rfl rfl⟩
    · exact ⟨count, by omega, moves⟩

/-- A frame in reach that is not behind the window lies at its distance from the start. -/
theorem index_of_reach {rxseq seqNext bawSize : Nat} {own : Int} (positive : 1 ≤ bawSize)
    (numbered : (seqNext : Int) = start % 4096) (label : (rxseq : Int) = own % 4096)
    (behind : start - bawSize * 4 < own) (ahead : own + bawSize * 4 ≤ start + 4096)
    (recent : ¬ 4096 < drvBaIndex seqNext rxseq + bawSize * 4) :
    own = start + drvBaIndex seqNext rxseq ∧ drvBaIndex seqNext rxseq + bawSize * 4 ≤ 4096 := by
  simp only [drvBaIndex, wifinetSeqMax] at recent ⊢
  omega

private theorem drvRxInputTid_moves (inv : RingInv scb)
    (complete : scb.rxAddbaExchangecomplete = true)
    (held : Held number start scb) (numbered : (scb.seqNext : Int) = start % 4096) (env : RxEnv)
    (now : Nat) (skb : SkBuff) (reach : InReach number start scb (.input env now skb)) :
    ∃ count, count < 4096 ∧
      Moves number (rebaseStart number start scb (.input env now skb)) count
        (rebase scb (.input env now skb)) (drvRxInputTid env now skb scb) := by
  obtain ⟨ready, started, positive, small⟩ := inv.inSession complete skb.rxSeq_lt
  obtain ⟨label, near⟩ := reach
  have own_seq := (Nat.mod_eq_of_lt skb.rxSeq_lt).symm
  unfold drvRxInputTid rebaseStart rebase restart
  cases reset : scb.seqReset with
  | true =>
    have renumbered : (resetSeq skb.rxSeq scb).seqNext = skb.rxSeq := by simp [resetSeq, reset]
    obtain ⟨-, -, -, -, -, session, logged⟩ := resetSeq_fields skb.rxSeq scb
    have index : drvBaIndex skb.rxSeq skb.rxSeq = 0 := by simp [drvBaIndex]
    have recent : ¬ isOld skb.rxSeq (resetSeq skb.rxSeq scb) := by
      simp only [isOld, renumbered, index, wifinetSeqMax]
      omega
    have empty : (resetSeq skb.rxSeq scb).bawHead = (resetSeq skb.rxSeq scb).bawTail := by
      obtain ⟨head, tail, -⟩ := resetSeq_fields skb.rxSeq scb
      rw [head, tail]
      exact inv.fresh reset
    obtain ⟨count, bound, moves⟩ := queueFrame_moves ready started positive small
      (by rw [renumbered]; exact own_seq) (ready.held_of_empty empty)
      (show number skb.id = number skb.id + (0 : Nat) by omega) (by omega) env now
    simp only [recent, if_false, true_or, if_true, renumbered, index]
    refine ⟨count, bound, ?_, moves.held, by rw [moves.seqNext, renumbered]; rfl, ?_⟩
    · have emitted := moves.emitted
      rwa [logged] at emitted
    · exact moves.session.trans session
  | false =>
    have unchanged : resetSeq skb.rxSeq scb = scb := by simp [resetSeq, reset]
    rw [unchanged] at ready started positive small
    simp only [unchanged, Bool.false_eq_true, false_or]
    by_cases old : isOld skb.rxSeq scb
    · by_cases resync : desynced scb
      · have fresh := ready.resyncTo resync.1 skb.rxSeq_lt
        simp only [old, resync, and_self, if_true]
        exact queueFrame_moves fresh ⟨started.ring, started.begun⟩ positive small own_seq
          (fresh.held_of_empty resync.1)
          (show number skb.id = number skb.id + (0 : Nat) by omega)
          (show 0 + scb.bawSize * 4 ≤ 4096 by omega) env now
      · simp only [old, resync, and_false, if_true, if_false]
        exact ⟨0, by omega, (Moves.refl inv held).congr rfl rfl rfl rfl rfl⟩
    · obtain ⟨behind, ahead⟩ := near reset
      obtain ⟨place, reachable⟩ := index_of_reach positive numbered label behind ahead old
      simp only [old, false_and, if_false]
      exact queueFrame_moves ready started positive small (seqNext_add_index skb.rxSeq_lt) held
        place reachable env now

/-- Every call in reach moves the window on from where it starts it. -/
theorem tidStep_moves (inv : RingInv scb) (complete : scb.rxAddbaExchangecomplete = true)
    (held : Held number start scb) (numbered : (scb.seqNext : Int) = start % 4096)
    (call : TidEvent) (reach : InReach number start scb call) :
    ∃ count, count < 4096 ∧
      Moves number (rebaseStart number start scb call) count (rebase scb call)
        (tidStep scb call) := by
  cases call with
  | input env now skb =>
    simp only [tidStep, complete, if_true]
    exact drvRxInputTid_moves inv complete held numbered env now skb reach
  | bar skb => exact drvRxBarTid_moves inv held skb
  | sortTimer env now => exact drvRxSortTimerEx_moves inv held env now
  | timerHandler => exact ⟨0, by omega, (Moves.refl inv held).congr rfl rfl rfl rfl rfl⟩
  | _ => exact absurd reach (by simp [InReach])

end Step

/-- What an observer of one traffic identifier keeps besides the station. -/
structure Observed where
  sta : RxNsta
  start : Int
  epoch : Nat
  log : List (Nat × Int)

/-- Observe one call on the station: the window start moves with `seq_next`, a restart begins an
epoch, and the numbers of the frames handed up are logged. -/
def observe (number : Nat → Int) (tid : Nat) (seen : Observed) (event : RxEvent) : Observed :=
  let scb := seen.sta.rxScb tid
  let sta := step seen.sta event
  match onTid tid event with
  | none => { seen with sta := sta }
  | some call =>
    let epoch := if (restart scb call).isSome then seen.epoch + 1 else seen.epoch
    { sta := sta
      start := rebaseStart number seen.start scb call +
        drvBaIndex (rebase scb call).seqNext (sta.rxScb tid).seqNext
      epoch := epoch
      log := seen.log ++ ((sta.rxScb tid).handedUp.drop scb.handedUp.length).map
        fun skb => (epoch, number skb.id) }

/-- Every call of the run is in reach of the identifier's window. -/
def StepInReach (number : Nat → Int) (tid : Nat) (seen : Observed) (event : RxEvent) : Prop :=
  match onTid tid event with
  | none => True
  | some call => InReach number seen.start (seen.sta.rxScb tid) call

instance (number : Nat → Int) (start : Int) (scb : RxScoreboard) :
    ∀ call, Decidable (InReach number start scb call)
  | .input _ _ _ => inferInstanceAs (Decidable (_ ∧ _))
  | .bar _ | .sortTimer _ _ | .timerHandler => instDecidableTrue
  | .nstaInit _ | .addbareq _ _ _ | .flushTid _ _ | .ampduDel _ | .setAddbaRsp _ | .addbaClear
  | .nstaClean _ => instDecidableFalse

instance (number : Nat → Int) (tid : Nat) (seen : Observed) (event : RxEvent) :
    Decidable (StepInReach number tid seen event) := by
  unfold StepInReach
  exact match onTid tid event with
    | none => instDecidableTrue
    | some _ => inferInstance

/-- The observer's picture of a session in which `earlier` was handed up before. -/
structure Tracked (number : Nat → Int) (tid : Nat) (earlier : List SkBuff) (seen : Observed) :
    Prop where
  inv : RingInv (seen.sta.rxScb tid)
  complete : (seen.sta.rxScb tid).rxAddbaExchangecomplete = true
  held : Held number seen.start (seen.sta.rxScb tid)
  numbered : ((seen.sta.rxScb tid).seqNext : Int) = seen.start % 4096
  chronicle : Machine.Chronicle seen.epoch seen.start seen.log
  logged : ∃ frames, (seen.sta.rxScb tid).handedUp = earlier ++ frames ∧
    seen.log.map Prod.snd = frames.map fun skb => number skb.id

/-- The number of a window start is that of its sequence number. -/
theorem rebase_numbered {number : Nat → Int} {start : Int} {scb : RxScoreboard}
    (numbered : (scb.seqNext : Int) = start % 4096) {call : TidEvent}
    (reach : InReach number start scb call) :
    ((rebase scb call).seqNext : Int) = rebaseStart number start scb call % 4096 := by
  unfold rebase rebaseStart
  cases begun : restart scb call with
  | none => exact numbered
  | some skb =>
    cases call with
    | input env now other =>
      have same : other = skb := by
        simp only [restart] at begun
        split at begun
        · simpa using begun
        · simp at begun
      rw [← same]
      exact reach.1
    | _ => simp [restart] at begun

private theorem rebase_handedUp (scb : RxScoreboard) (call : TidEvent) :
    (rebase scb call).handedUp = scb.handedUp := by
  unfold rebase; split <;> rfl

/-- A restart opens an epoch, and every other call leaves the log as it is. -/
theorem rebase_chronicle {number : Nat → Int} {scb : RxScoreboard} {epoch : Nat} {start : Int}
    {log : List (Nat × Int)} (chronicle : Machine.Chronicle epoch start log) (call : TidEvent) :
    Machine.Chronicle (if (restart scb call).isSome then epoch + 1 else epoch)
      (rebaseStart number start scb call) log := by
  unfold rebaseStart
  cases restart scb call with
  | none => exact chronicle
  | some skb => exact chronicle.nextEpoch _

private theorem observe_tracked {number : Nat → Int} {tid : Nat} {earlier : List SkBuff}
    {seen : Observed} (tracked : Tracked number tid earlier seen) (event : RxEvent)
    (reach : StepInReach number tid seen event) :
    Tracked number tid earlier (observe number tid seen event) := by
  obtain ⟨inv, complete, held, numbered, chronicle, frames, handed, log⟩ := tracked
  have after := step_rxScb seen.sta tid event
  unfold StepInReach at reach
  unfold observe
  cases call_eq : onTid tid event with
  | none =>
    rw [call_eq] at after
    have same : (step seen.sta event).rxScb tid = seen.sta.rxScb tid := after
    constructor <;> simp only [same]
    · exact inv
    · exact complete
    · exact held
    · exact numbered
    · exact chronicle
    · exact ⟨frames, handed, log⟩
  | some call =>
    rw [call_eq] at after reach
    have same : (step seen.sta event).rxScb tid = tidStep (seen.sta.rxScb tid) call := after
    obtain ⟨count, bound, moves⟩ := tidStep_moves inv complete held numbered call reach
    obtain ⟨released, appended, ascending⟩ := moves.emitted
    have based := rebase_numbered numbered reach
    have moved : drvBaIndex (rebase (seen.sta.rxScb tid) call).seqNext
        (tidStep (seen.sta.rxScb tid) call).seqNext = count := by
      rw [moves.seqNext]
      simp only [drvBaIndex, wifinetSeqMax]
      omega
    rw [rebase_handedUp] at appended
    have fresh : (tidStep (seen.sta.rxScb tid) call).handedUp.drop
        (seen.sta.rxScb tid).handedUp.length = released := by
      rw [appended, List.drop_left]
    constructor <;> simp only [same, moved]
    · exact tidStep_inv inv call
    · rw [moves.session]
      unfold rebase
      split
      · exact complete
      · exact complete
    · exact moves.held
    · rw [moves.seqNext]
      omega
    · rw [fresh]
      have extended := (rebase_chronicle chronicle call).extend ascending (by omega)
      rwa [List.map_map] at extended
    · refine ⟨frames ++ released, by rw [appended, handed, List.append_assoc], ?_⟩
      rw [fresh, List.map_append, log, List.map_append, List.map_map]
      rfl

private theorem observe_sta (number : Nat → Int) (tid : Nat) (seen : Observed) (event : RxEvent) :
    (observe number tid seen event).sta = step seen.sta event := by
  unfold observe
  dsimp only
  split <;> rfl

/-- In-order delivery: once a session is complete and its window empty, the frames its buffer
hands up are numbered in ascending order from one restart of the window to the next. -/
theorem reorder_inOrder (number : Nat → Int) (tid : Nat) (before events : List RxEvent)
    (start : Int)
    (complete : ((Machine.run step zeroNsta before).rxScb tid).rxAddbaExchangecomplete = true)
    (empty : ((Machine.run step zeroNsta before).rxScb tid).bawHead =
      ((Machine.run step zeroNsta before).rxScb tid).bawTail)
    (numbered : (((Machine.run step zeroNsta before).rxScb tid).seqNext : Int) =
      start % wifinetSeqMax)
    (reach : Machine.Along (observe number tid) (StepInReach number tid)
      ⟨Machine.run step zeroNsta before, start, 0, []⟩ events) :
    let seen := Machine.run (observe number tid)
      ⟨Machine.run step zeroNsta before, start, 0, []⟩ events
    ∃ frames,
      ((Machine.run step zeroNsta (before ++ events)).rxScb tid).handedUp =
        ((Machine.run step zeroNsta before).rxScb tid).handedUp ++ frames ∧
      seen.log.map Prod.snd = frames.map (fun skb => number skb.id) ∧
      seen.log.Pairwise Machine.Earlier := by
  have inv := run_inv before tid
  have begun : Tracked number tid ((Machine.run step zeroNsta before).rxScb tid).handedUp
      ⟨Machine.run step zeroNsta before, start, 0, []⟩ :=
    ⟨inv, complete, inv.held_of_empty empty, numbered, Machine.Chronicle.nil, [], by simp, rfl⟩
  have tracked := reach.invariant (fun _ _ kept near => observe_tracked kept _ near) begun
  obtain ⟨frames, handed, log⟩ := tracked.logged
  rw [Machine.run_view (observe_sta number tid), ← Machine.run_append] at handed
  exact ⟨frames, handed, log, tracked.chronicle.ordered⟩

/-- Frames 0, 2 and 1 come in, then the reorder timer expires. -/
def swappedFrames : List RxEvent :=
  [.input plainEnv 0 (qosFrame 0 0), .input plainEnv 1 (qosFrame 2 2),
    .input plainEnv 2 (qosFrame 1 1), .sortTimer plainEnv 0 40]

theorem reorder_inOrder_swapped :
    let seen := Machine.run (observe (fun id => id) 0)
      ⟨Machine.run step zeroNsta sessionEvents, 0, 0, []⟩ swappedFrames
    ∃ frames,
      ((Machine.run step zeroNsta (sessionEvents ++ swappedFrames)).rxScb 0).handedUp =
        ((Machine.run step zeroNsta sessionEvents).rxScb 0).handedUp ++ frames ∧
      seen.log.map Prod.snd = frames.map (fun skb => (skb.id : Int)) ∧
      seen.log.Pairwise Machine.Earlier :=
  reorder_inOrder (fun id => id) 0 sessionEvents swappedFrames 0 (by decide +kernel)
    (by decide +kernel) (by decide +kernel) (by decide +kernel)

/-- The calls of a session, with data frames within half the sequence space of the window. -/
def StepInHalf (number : Nat → Int) (tid : Nat) (seen : Observed) (event : RxEvent) : Prop :=
  match onTid tid event with
  | none | some (.bar _) | some (.sortTimer _ _) | some .timerHandler => True
  | some (.input _ _ skb) =>
    (skb.rxSeq : Int) = number skb.id % wifinetSeqMax ∧
      seen.start - 2048 ≤ number skb.id ∧ number skb.id < seen.start + 2048
  | some _ => False

instance (number : Nat → Int) (tid : Nat) (seen : Observed) (event : RxEvent) :
    Decidable (StepInHalf number tid seen event) := by
  unfold StepInHalf
  exact match onTid tid event with
    | none | some (.bar _) | some (.sortTimer _ _) | some .timerHandler => instDecidableTrue
    | some (.input _ _ _) => inferInstance
    | some (.nstaInit _) | some (.addbareq _ _ _) | some (.flushTid _ _) | some (.ampduDel _)
    | some (.setAddbaRsp _) | some .addbaClear | some (.nstaClean _) => instDecidableFalse

/-- For the calls of a session whose data frames are within half the sequence space of the window,
the log of what is handed up is in order. -/
def HalfLaw (ordered : List (Nat × Int) → Prop) : Prop :=
  ∀ (number : Nat → Int) (tid : Nat) (before events : List RxEvent) (start : Int),
    ((Machine.run step zeroNsta before).rxScb tid).rxAddbaExchangecomplete = true →
    ((Machine.run step zeroNsta before).rxScb tid).bawHead =
      ((Machine.run step zeroNsta before).rxScb tid).bawTail →
    (((Machine.run step zeroNsta before).rxScb tid).seqNext : Int) = start % wifinetSeqMax →
    Machine.Along (observe number tid) (StepInHalf number tid)
      ⟨Machine.run step zeroNsta before, start, 0, []⟩ events →
    ordered (Machine.run (observe number tid)
      ⟨Machine.run step zeroNsta before, start, 0, []⟩ events).log

/-- Frame 399 is handed up, frame 100 lies more than four windows behind it, then the reorder timer
expires. -/
def lateFrames : List RxEvent :=
  [.input plainEnv 0 (qosFrame 0 399), .input plainEnv 1 (qosFrame 1 100),
    .sortTimer plainEnv 0 400]

/-- A late repeat of frame 5 finds the window empty, starts it afresh and is handed up again. A
frame four windows behind counts as one ahead, and is handed up without a restart. -/
theorem reorder_repeats :
    ¬ HalfLaw (fun log => (log.map Prod.snd).Pairwise (· < ·)) ∧
      ¬ HalfLaw (fun log => log.Pairwise Machine.Earlier) := by
  constructor
  · intro law
    have ascending := law (fun _ => 5) 0 sessionEvents
      [.input plainEnv 0 (qosFrame 0 5), .input plainEnv 1 (qosFrame 1 5)] 0
      (by decide +kernel) (by decide +kernel) (by decide +kernel) (by decide +kernel)
    exact absurd ascending (by decide +kernel)
  · intro law
    let number : Nat → Int := fun id => if id = 0 then 399 else 100
    have ascending := law number 0 sessionEvents lateFrames 0
      (by decide +kernel) (by decide +kernel) (by decide +kernel) (by decide +kernel)
    have log : (Machine.run (observe number 0)
        ⟨Machine.run step zeroNsta sessionEvents, 0, 0, []⟩ lateFrames).log =
          [(1, 399), (1, 100)] := by decide +kernel
    rw [log] at ascending
    simp [Machine.Earlier] at ascending

end W522a.Rx
