import W522a.Rx.Passing
import W522a.Rx.Reachable

/-!
What one expiry of the reorder timer gives up, and in which states it gives up what it should.
-/

namespace W522a.Rx

open RxScoreboard

/-- The frame buffered at a place has waited at least the timeout. -/
def Aged (env : RxEnv) (now : Nat) (scb : RxScoreboard) (offset : Nat) : Prop :=
  (scb.buffered offset).isSome ∧
    drvRxReorderTimeout env ≤ scb.waited now ((scb.bawHead + offset) % drvTidMaxBufs)

/-- What an expiry should do that moves the window by `count` places. The frames it passes are
handed up in order and the others stay. It gives up a missing number only before a frame that has
itself waited long enough, leaves no frame that is contiguous with the new start, and arms the
timer exactly when frames are left. -/
structure TimedOut (env : RxEnv) (now count : Nat) (scb result : RxScoreboard) : Prop where
  advances : Advances count scb result
  givenUp : ∀ offset, offset < count → scb.buffered offset = none →
    ∃ later, offset < later ∧ later < count ∧ Aged env now scb later
  contiguous : result.buffered 0 = none
  armed : ∀ offset, (result.buffered offset).isSome → result.timerActive = true
  quiet : (∀ offset, result.buffered offset = none) →
    result.timerActive = scb.timerActive ∧ result.timerPeriod = scb.timerPeriod

def SortTimerLaw (env : RxEnv) (now : Nat) (scb result : RxScoreboard) : Prop :=
  ∃ count, TimedOut env now count scb result

/-- The states that an expiry serves: with a station every buffered frame has waited long enough,
and the span ends with a frame; without one the span is empty. -/
structure SortTimerServed (env : RxEnv) (now : Nat) (scb : RxScoreboard) : Prop where
  aged : env.netNsta.isSome → ∀ offset, (scb.buffered offset).isSome → Aged env now scb offset
  last : env.netNsta.isSome → scb.ringPending ≠ 0 →
    (scb.buffered (scb.ringPending - 1)).isSome
  gone : env.netNsta.isNone → scb.ringPending = 0

section Expiry

variable {env : RxEnv} {now : Nat} {scb result : RxScoreboard}

/-- A place whose frame still waits is one with a frame that has not aged. -/
theorem stillWaits_iterate (inv : RingInv scb) (count : Nat) :
    stillWaits (drvRxReorderTimeout env) now (RxScoreboard.releaseHead^[count] scb) = true ↔
      (scb.buffered count).isSome ∧ ¬ Aged env now scb count := by
  have front : (RxScoreboard.releaseHead^[count] scb).wbuf
      (RxScoreboard.releaseHead^[count] scb).bawHead = scb.buffered count := by
    rw [← buffered_zero (iterate_bawHead_lt inv.headInside), buffered_iterate inv.headInside,
      Nat.add_zero]
  rw [stillWaits, front, iterate_waited, iterate_bawHead inv.headInside, Bool.and_eq_true,
    decide_eq_true_eq, Aged, not_and, Nat.not_le]
  constructor
  case mp => exact fun waits => ⟨waits.1, fun _ => waits.2⟩
  case mpr => exact fun young => ⟨young.1, young.2 young.1⟩

private theorem iterate_timer (count : Nat) :
    (RxScoreboard.releaseHead^[count] scb).timerActive = scb.timerActive ∧
      (RxScoreboard.releaseHead^[count] scb).timerPeriod = scb.timerPeriod := by
  induction count with
  | zero => exact ⟨rfl, rfl⟩
  | succ count induction =>
    rw [Function.iterate_succ_apply', ← induction.1, ← induction.2]
    unfold RxScoreboard.releaseHead
    split <;> exact ⟨rfl, rfl⟩

/-- The loop of an expiry, release by release. -/
theorem RingInv.sortTimerLoop_eq (inv : RingInv scb) (timeout now : Nat) :
    ∃ count, count ≤ scb.ringPending ∧
      sortTimerLoop timeout now scb = RxScoreboard.releaseHead^[count] scb ∧
      (∀ turn, turn < count →
        ¬ stillWaits timeout now (RxScoreboard.releaseHead^[turn] scb) = true) ∧
      (count = scb.ringPending ∨
        stillWaits timeout now (RxScoreboard.releaseHead^[count] scb) = true) := by
  obtain ⟨count, short, result, guarded, stopped⟩ :=
    inv.loop_stops fun scb => !scb.stillWaits timeout now
  have kept : RingInv (RxScoreboard.releaseHead^[count] scb) := by
    rw [← result]
    apply (release_loop inv _ drvTidMaxBufs).inv
    intro scb guarded
    exact (of_decide_eq_true guarded).1
  refine ⟨count, short, ?_, ?_, ?_⟩
  · rw [← kept.touchStop_eq, ← result]
    rfl
  · intro turn before
    simpa using guarded turn before
  · rcases stopped with whole | waits
    · exact Or.inl whole
    · exact Or.inr (by simpa using waits)

/-- With a station, an expiry passes holes and frames that have waited long enough, up to the tail
or to the first frame that has not. -/
theorem drvRxSortTimerEx_attached (inv : RingInv scb) (attached : env.netNsta.isSome)
    (now : Nat) :
    ∃ count, count ≤ scb.ringPending ∧ Advances count scb (drvRxSortTimerEx env now scb) ∧
      (∀ offset, offset < count → (scb.buffered offset).isSome → Aged env now scb offset) ∧
      ((count = scb.ringPending ∧
          (drvRxSortTimerEx env now scb).timerActive = scb.timerActive ∧
          (drvRxSortTimerEx env now scb).timerPeriod = scb.timerPeriod) ∨
        ((scb.buffered count).isSome ∧ ¬ Aged env now scb count ∧
          (drvRxSortTimerEx env now scb).timerActive = true)) := by
  obtain ⟨count, short, loop, before, stop⟩ :=
    inv.sortTimerLoop_eq (drvRxReorderTimeout env) now
  have there : ¬ env.netNsta.isNone = true := by simp [Option.isSome_iff_ne_none.mp attached]
  have passedAged : ∀ offset, offset < count → (scb.buffered offset).isSome →
      Aged env now scb offset := by
    intro offset inside found
    by_contra young
    exact before offset inside ((stillWaits_iterate inv offset).mpr ⟨found, young⟩)
  have tail : (RxScoreboard.releaseHead^[count] scb).bawHead =
      (RxScoreboard.releaseHead^[count] scb).bawTail ↔ count = scb.ringPending := by
    rw [iterate_bawTail]
    exact inv.iterate_tail_iff short
  refine ⟨count, short, ?_⟩
  unfold drvRxSortTimerEx
  rw [if_neg there]
  dsimp only
  rw [loop]
  by_cases whole : count = scb.ringPending
  case pos =>
    rw [if_neg (not_not.mpr (tail.mpr whole))]
    exact ⟨inv.advances count, passedAged, Or.inl ⟨whole, iterate_timer count⟩⟩
  case neg =>
    rw [if_pos (mt tail.mp whole)]
    obtain ⟨found, young⟩ := (stillWaits_iterate inv count).mp (stop.resolve_left whole)
    exact ⟨(inv.advances count).congr rfl rfl rfl rfl, passedAged, Or.inr ⟨found, young, rfl⟩⟩

theorem TimedOut.count_bound {count : Nat}
    (timedOut : TimedOut env now count scb result) :
    count = 0 ∨ (scb.buffered (count - 1)).isSome := by
  by_cases zero : count = 0
  · exact Or.inl zero
  · right
    by_contra missing
    obtain ⟨later, above, below, -⟩ := timedOut.givenUp (count - 1) (by omega)
      (by simpa using missing)
    omega

theorem TimedOut.count_le {count : Nat} (inv : RingInv scb)
    (timedOut : TimedOut env now count scb result) : count ≤ scb.ringPending := by
  rcases timedOut.count_bound with zero | found
  · omega
  · have inside := inv.lt_of_buffered found
    omega

theorem sortTimerLaw_attached (inv : RingInv scb) (attached : env.netNsta.isSome) :
    SortTimerLaw env now scb (drvRxSortTimerEx env now scb) ↔ SortTimerServed env now scb := by
  obtain ⟨count, short, moved, passedAged, stop⟩ :=
    drvRxSortTimerEx_attached inv attached now
  have span := ringPending_lt scb
  have present : ¬ env.netNsta.isNone = true := by simp [Option.isSome_iff_ne_none.mp attached]
  have front := moved.buffered 0
  rw [Nat.add_zero] at front
  constructor
  case mp =>
    rintro ⟨other, timedOut⟩
    have inside := timedOut.count_le inv
    have same : other = count := timedOut.advances.count_eq moved.seqNext (by omega) (by omega)
    subst same
    have nothing := timedOut.contiguous
    rw [front] at nothing
    -- a frame that still waits at the new start would be contiguous with it
    have whole : other = scb.ringPending := by
      rcases stop with ⟨whole, -⟩ | ⟨found, -⟩
      · exact whole
      · rw [nothing] at found
        cases found
    refine ⟨?_, ?_, fun gone => absurd gone present⟩
    · intro _ offset found
      apply passedAged offset _ found
      rw [whole]
      exact inv.lt_of_buffered found
    · intro _ positive
      rw [← whole] at positive ⊢
      exact (timedOut.count_bound).resolve_left positive
  case mpr =>
    intro served
    obtain ⟨whole, active, period⟩ : count = scb.ringPending ∧
        (drvRxSortTimerEx env now scb).timerActive = scb.timerActive ∧
        (drvRxSortTimerEx env now scb).timerPeriod = scb.timerPeriod := by
      rcases stop with whole | ⟨found, young, -⟩
      · exact whole
      · exact absurd (served.aged attached count found) young
    have empty : ∀ offset, (drvRxSortTimerEx env now scb).buffered offset = none := by
      intro offset
      rw [moved.buffered]
      exact inv.buffered_outside (by omega)
    refine ⟨count, moved, ?_, empty 0, ?_, fun _ => ⟨active, period⟩⟩
    · intro offset inside hole
      have last := served.last attached (by omega)
      have apart : offset ≠ scb.ringPending - 1 := by
        intro same
        rw [← same, hole] at last
        cases last
      exact ⟨scb.ringPending - 1, by omega, by omega, served.aged attached _ last⟩
    · intro offset found
      rw [empty] at found
      cases found

/-- The number of the window start follows the head towards the tail. -/
structure Drained (scb current : RxScoreboard) : Prop where
  inv : RingInv current
  shorter : current.ringPending ≤ scb.ringPending
  seqNext : current.seqNext =
    (scb.seqNext + (scb.ringPending - current.ringPending)) % 4096

theorem Drained.releaseHead {current : RxScoreboard} (drained : Drained scb current)
    (apart : current.bawHead ≠ current.bawTail) : Drained scb current.releaseHead := by
  obtain ⟨inv, shorter, seqNext⟩ := drained
  have fewer := ringPending_releaseHead_pos inv.headInside inv.tailInside apart
  refine ⟨inv.releaseHead (inv.started apart), by omega, ?_⟩
  rw [releaseHead_seqNext, circleAddOne]
  simp only [wifinetSeqMax]
  split <;> omega

private theorem Drained.discardHead {current : RxScoreboard} (drained : Drained scb current)
    (apart : current.bawHead ≠ current.bawTail) : Drained scb current.discardHead := by
  obtain ⟨inv, shorter, seqNext⟩ := drained.releaseHead apart
  rw [discardHead_eq]
  exact ⟨inv.congr rfl rfl rfl rfl id rfl id rfl, shorter, seqNext⟩

/-- Without a station, an expiry frees what is buffered: the window moves to the tail and nothing is
handed up. -/
theorem drvRxSortTimerEx_gone (inv : RingInv scb) (gone : env.netNsta.isNone) (now : Nat) :
    (drvRxSortTimerEx env now scb).seqNext = (scb.seqNext + scb.ringPending) % 4096 ∧
      (drvRxSortTimerEx env now scb).handedUp = scb.handedUp := by
  rw [drvRxSortTimerEx, if_pos gone]
  constructor
  · have begun : Drained scb scb := by
      refine ⟨inv, Nat.le_refl _, ?_⟩
      rw [Nat.sub_self]
      exact (Nat.mod_eq_of_lt inv.seqInside).symm
    have drained : Drained scb (drvRxFlushTid env true scb) :=
      drvRxFlushTid_keeps (Drained scb) (fun _ kept apart => kept.releaseHead apart)
        (fun _ kept apart => kept.discardHead apart) env true begun
    have empty := (ringPending_eq_zero_iff drained.inv.headInside drained.inv.tailInside).mpr
      (drvRxFlushTid_empty env true inv)
    rw [drained.seqNext, empty, Nat.sub_zero]
  · have kept : ∀ current : RxScoreboard, current.handedUp = scb.handedUp →
        decide (current.bawHead ≠ current.bawTail) = true →
        current.discardHead.handedUp = scb.handedUp := by
      intro current same _
      rw [discardHead_eq]
      exact same
    exact Machine.whileDo_invariant kept drvTidMaxBufs rfl

private theorem sortTimerLaw_gone (inv : RingInv scb) (gone : env.netNsta.isNone) :
    SortTimerLaw env now scb (drvRxSortTimerEx env now scb) ↔ SortTimerServed env now scb := by
  obtain ⟨moved, silent⟩ := drvRxSortTimerEx_gone inv gone now
  have span := ringPending_lt scb
  have absent : ¬ env.netNsta.isSome = true := by simpa using gone
  constructor
  case mp =>
    rintro ⟨count, timedOut⟩
    have inside := timedOut.count_le inv
    have same : count = scb.ringPending :=
      timedOut.advances.count_eq moved (by omega) (by omega)
    refine ⟨fun there => absurd there absent, fun there => absurd there absent, fun _ => ?_⟩
    -- the last frame that is passed would have been handed up
    rcases timedOut.count_bound with zero | found
    · rw [← same, zero]
    · have nothing : scb.passed count = [] := by
        have logged := timedOut.advances.handedUp
        rw [silent] at logged
        exact List.self_eq_append_right.mp logged
      obtain ⟨skb, last⟩ := Option.isSome_iff_exists.mp found
      have positive : count ≠ 0 := by
        intro zero
        have within := inv.lt_of_buffered found
        omega
      have member : skb ∈ scb.passed count := by
        apply List.mem_filterMap.mpr
        exact ⟨count - 1, List.mem_range.mpr (by omega), last⟩
      rw [nothing] at member
      cases member
  case mpr =>
    intro served
    have zero := served.gone gone
    have same := (ringPending_eq_zero_iff inv.headInside inv.tailInside).mp zero
    have empty : ∀ offset, scb.buffered offset = none :=
      fun offset => inv.buffered_outside (by omega)
    have still : drvRxSortTimerEx env now scb = scb := by
      rw [drvRxSortTimerEx, if_pos gone, drvRxFlushTid, flushLoop, drvTidMaxBufs,
        Machine.whileDo, if_neg (by simp [same])]
    rw [still]
    refine ⟨0, inv.advances 0, ?_, empty 0, ?_, fun _ => ⟨rfl, rfl⟩⟩
    · intro offset below
      exact absurd below (Nat.not_lt_zero offset)
    · intro offset found
      rw [empty] at found
      cases found

end Expiry

/-- For every state a run reaches, every moment and every configuration, an expiry of the reorder
timer does what it should exactly when every buffered frame has waited long enough. -/
theorem drvRxSortTimerEx_iff (events : List RxEvent) (tid now : Nat) (env : RxEnv) :
    SortTimerLaw env now ((Machine.run step zeroNsta events).rxScb tid)
        (drvRxSortTimerEx env now ((Machine.run step zeroNsta events).rxScb tid)) ↔
      SortTimerServed env now ((Machine.run step zeroNsta events).rxScb tid) := by
  have inv := run_inv events tid
  cases attached : env.netNsta.isSome with
  | true => exact sortTimerLaw_attached inv attached
  | false => exact sortTimerLaw_gone inv (by simpa using attached)

/-- Frame 0 is handed up, frame 2 arms the timer at 10, frame 5 comes at 29 and the timer fires. -/
def freshHole : RxScoreboard :=
  (Machine.run step zeroNsta (sessionEvents ++
    [.input plainEnv 0 (qosFrame 0 0), .input plainEnv 10 (qosFrame 1 2),
      .input plainEnv 29 (qosFrame 2 5), .timerHandler 0])).rxScb 0

/-- The expiry at 30 hands up frame 2, and gives up frames 3 and 4 for a frame that has waited for
one millisecond and stays where it is. -/
theorem drvRxSortTimerEx_givesUp :
    ¬ SortTimerLaw plainEnv 30 freshHole (drvRxSortTimerEx plainEnv 30 freshHole) ∧
      (drvRxSortTimerEx plainEnv 30 freshHole).seqNext = 5 ∧
      (drvRxSortTimerEx plainEnv 30 freshHole).handedUp.map SkBuff.id = [0, 1] := by
  refine ⟨?_, by decide +kernel, by decide +kernel⟩
  rintro ⟨count, timedOut⟩
  have contiguous := timedOut.contiguous
  exact absurd contiguous (by decide +kernel)

end W522a.Rx
