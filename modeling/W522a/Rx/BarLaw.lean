import W522a.Rx.Passing
import W522a.Rx.Reachable

/-!
What a block acknowledgement request does to the reorder buffer, and for which starting numbers it
moves the window as far as it should.
-/

namespace W522a.Rx

open RxScoreboard

/-- How far the starting number of a request lies ahead of the window start. -/
def RxScoreboard.barIndex (scb : RxScoreboard) (bar : SkBuff) : Nat :=
  drvBaIndex scb.seqNext bar.barSeq

abbrev seqHalf : Nat := 2048

/-- What a request should do. A starting number ahead of the window hands up the frames before it
and those contiguous from it, and the window starts at the first number that is missing from there
on, with every later frame at its own number and in its own slot. A starting number behind the
window changes nothing. -/
structure BarLaw (bar : SkBuff) (scb result : RxScoreboard) : Prop where
  numbered : ∀ offset skb, scb.buffered offset = some skb →
    skb.rxSeq = (scb.seqNext + offset) % wifinetSeqMax
  ahead : scb.barIndex bar < seqHalf → ∃ missing, scb.barIndex bar ≤ missing ∧
    (∀ offset, scb.barIndex bar ≤ offset → offset < missing → (scb.buffered offset).isSome) ∧
    scb.buffered missing = none ∧ Advances missing scb result
  behind : seqHalf ≤ scb.barIndex bar → { result with freed := scb.freed } = scb

/-- The request reaches the scoreboard of a session. -/
def BarTaken (env : RxEnv) (bar : SkBuff) (scb : RxScoreboard) : Prop :=
  env.netNsta.isSome ∧ barTid bar < wmeNumTid ∧ scb.rxAddbaExchangecomplete = true

/-- The requests that the code serves. Ahead of the window the starting number lies within the span
of the ring or at its end. Behind it the guard against old requests stops it, or the span is empty,
or it lies a multiple of the ring's length ahead of a window whose first frame is missing. A
request that no session takes is served when there was nothing to do. -/
structure BarServed (env : RxEnv) (bar : SkBuff) (scb : RxScoreboard) : Prop where
  ahead : scb.barIndex bar < seqHalf → BarTaken env bar scb → scb.barIndex bar ≤ scb.ringPending
  refused : scb.barIndex bar < seqHalf → ¬ BarTaken env bar scb →
    scb.barIndex bar = 0 ∧ scb.wbuf scb.bawHead = none
  behind : seqHalf ≤ scb.barIndex bar → BarTaken env bar scb →
    wifinetSeqMax < scb.barIndex bar + scb.bawSize * 4 ∨ scb.ringPending = 0 ∨
      scb.barIndex bar % drvTidMaxBufs = 0 ∧ scb.wbuf scb.bawHead = none

section Bar

variable {env : RxEnv} {bar : SkBuff} {sta : RxNsta} {scb : RxScoreboard}

theorem barIndex_lt : scb.barIndex bar < 4096 := drvBaIndex_lt _ _

theorem drvRxBar_refused (refused : ¬ BarTaken env bar (sta.rxScb (barTid bar))) :
    ∃ freed, (drvRxBar env bar sta).rxScb (barTid bar) =
      { sta.rxScb (barTid bar) with freed := freed } := by
  unfold drvRxBar
  split
  next gone => exact ⟨_, rfl⟩
  next attached =>
    split
    next outside => exact ⟨_, rfl⟩
    next inside =>
      have alone : (sta.rxScb (barTid bar)).rxAddbaExchangecomplete = false := by
        cases complete : (sta.rxScb (barTid bar)).rxAddbaExchangecomplete with
        | false => rfl
        | true =>
          apply absurd _ refused
          exact ⟨by simpa [Option.isSome_iff_ne_none] using attached, Nat.not_le.mp inside,
            complete⟩
      refine ⟨((sta.rxScb (barTid bar)).skbFree bar).freed, ?_⟩
      rw [RxNsta.update_rxScb, if_pos rfl, drvRxBarTid, if_pos (Or.inl (by simp [alone]))]
      rfl

/-- The releases of a request that is not old. -/
def barRelease (index : Nat) (scb : RxScoreboard) : RxScoreboard :=
  releaseInOrder (releaseUpTo ((scb.bawHead + index) % drvTidMaxBufs) scb)

/-- The guard against old requests. -/
def BarOld (bar : SkBuff) (scb : RxScoreboard) : Prop :=
  scb.bawSize < scb.barIndex bar ∧ wifinetSeqMax < scb.barIndex bar + scb.bawSize * 4

/-- A request that a session takes is dropped as old or releases frames. -/
theorem drvRxBar_taken (inv : RingInv (sta.rxScb (barTid bar)))
    (taken : BarTaken env bar (sta.rxScb (barTid bar))) :
    (BarOld bar (sta.rxScb (barTid bar)) ∧
      (drvRxBar env bar sta).rxScb (barTid bar) = (sta.rxScb (barTid bar)).skbFree bar) ∨
    (¬ BarOld bar (sta.rxScb (barTid bar)) ∧ (drvRxBar env bar sta).rxScb (barTid bar) =
      (barRelease ((sta.rxScb (barTid bar)).barIndex bar) (sta.rxScb (barTid bar))).skbFree
        bar) := by
  obtain ⟨attached, inside, complete⟩ := taken
  obtain ⟨ring, positive, -⟩ := inv.session complete
  have session : ¬ (!(sta.rxScb (barTid bar)).rxAddbaExchangecomplete ∨
      (sta.rxScb (barTid bar)).pRxDesc.isNone ∨ (sta.rxScb (barTid bar)).bawSize = 0) := by
    rintro (alone | missing | zero)
    · simp [complete] at alone
    · simp [Option.isNone_iff_eq_none.mp missing] at ring
    · omega
  have there : ¬ env.netNsta.isNone = true := by simp [Option.isSome_iff_ne_none.mp attached]
  unfold drvRxBar
  rw [if_neg there, if_neg (Nat.not_le.mpr inside), RxNsta.update_rxScb, if_pos rfl, drvRxBarTid,
    if_neg session]
  dsimp only
  split
  next old => exact Or.inl ⟨old, rfl⟩
  next recent => exact Or.inr ⟨recent, rfl⟩

/-- The loop up to the starting number ends there or at the tail. -/
theorem RingInv.releaseUpTo_stops (inv : RingInv scb) (descId : Nat) :
    ∃ count, count ≤ scb.ringPending ∧
      releaseUpTo descId scb = RxScoreboard.releaseHead^[count] scb ∧
      (∀ turn, turn < count → (scb.bawHead + turn) % 128 ≠ descId) ∧
      (count = scb.ringPending ∨ (scb.bawHead + count) % 128 = descId) := by
  obtain ⟨count, short, result, guarded, stopped⟩ :=
    inv.loop_stops fun scb => scb.bawHead ≠ descId
  refine ⟨count, short, ?_, ?_, ?_⟩
  · rw [← result, releaseUpTo]
    simp only [decide_eq_true_eq]
  · intro turn before
    have apart := of_decide_eq_true (guarded turn before)
    rwa [iterate_bawHead inv.headInside] at apart
  · rcases stopped with whole | found
    · exact Or.inl whole
    · rw [iterate_bawHead inv.headInside] at found
      exact Or.inr (Decidable.not_not.mp (of_decide_eq_false found))

/-- A request that is not old makes some number of releases, at most as many as the span is long.
-/
theorem RingInv.barRelease_eq (inv : RingInv scb) (index : Nat) :
    ∃ count run, count ≤ scb.ringPending ∧ count + run ≤ scb.ringPending ∧
      barRelease index scb = RxScoreboard.releaseHead^[count + run] scb ∧
      (∀ turn, turn < count → (scb.bawHead + turn) % 128 ≠ (scb.bawHead + index) % 128) ∧
      (count = scb.ringPending ∨ (scb.bawHead + count) % 128 = (scb.bawHead + index) % 128) ∧
      (∀ offset, count ≤ offset → offset < count + run → (scb.buffered offset).isSome) ∧
      scb.buffered (count + run) = none := by
  obtain ⟨count, short, upTo, before, stop⟩ :=
    inv.releaseUpTo_stops ((scb.bawHead + index) % drvTidMaxBufs)
  have middle : RingInv (RxScoreboard.releaseHead^[count] scb) := by
    rw [← upTo]
    exact (releaseUpTo_releases inv _).inv
  obtain ⟨run, inOrder, there, missing⟩ := middle.releaseInOrder_eq
  have shifted : ∀ offset, (RxScoreboard.releaseHead^[count] scb).buffered offset =
      scb.buffered (count + offset) := fun offset => buffered_iterate inv.headInside
  rw [shifted] at missing
  have contiguous : ∀ offset, count ≤ offset → offset < count + run →
      (scb.buffered offset).isSome := by
    intro offset above below
    have found := there (offset - count) (by omega)
    rwa [shifted, Nat.add_sub_cancel' above] at found
  refine ⟨count, run, short, ?_, ?_, before, stop, contiguous, missing⟩
  · cases run with
    | zero => exact short
    | succ run =>
      have last := inv.lt_of_buffered (contiguous (count + run) (by omega) (by omega))
      omega
  · rw [barRelease, upTo, inOrder, ← Function.iterate_add_apply, Nat.add_comm]

theorem RingInv.missing_lt (inv : RingInv scb) {index missing : Nat} (bound : index < 4096)
    (there : ∀ offset, index ≤ offset → offset < missing → (scb.buffered offset).isSome) :
    missing < 4096 := by
  have span := ringPending_lt scb
  by_contra beyond
  have last := inv.lt_of_buffered (there (missing - 1) (by omega) (by omega))
  omega

private theorem barLaw_refused (inv : RingInv scb) (refused : ¬ BarTaken env bar scb)
    (freed : List SkBuff) :
    BarLaw bar scb { scb with freed := freed } ↔ BarServed env bar scb := by
  constructor
  case mp =>
    intro law
    refine ⟨fun _ taken => absurd taken refused, ?_, fun _ taken => absurd taken refused⟩
    intro before _
    obtain ⟨missing, reaches, there, empty, advances⟩ := law.ahead before
    have none_moved : missing = 0 := by
      apply advances.count_eq _ (inv.missing_lt barIndex_lt there) (by decide)
      exact (Nat.mod_eq_of_lt inv.seqInside).symm
    subst none_moved
    refine ⟨Nat.le_zero.mp reaches, ?_⟩
    rw [← buffered_zero inv.headInside]
    exact empty
  case mpr =>
    intro served
    refine ⟨fun _ _ => inv.buffered_numbered, ?_, fun _ => rfl⟩
    intro before
    obtain ⟨zero, empty⟩ := served.refused before refused
    rw [← buffered_zero inv.headInside] at empty
    refine ⟨0, Nat.le_of_eq zero, ?_, empty, (inv.advances 0).congr rfl rfl rfl rfl⟩
    intro offset _ below
    exact absurd below (Nat.not_lt_zero offset)

/-- A request that is not old serves a starting number ahead of the window exactly when it lies
within the span or at its end. -/
theorem barRelease_ahead (inv : RingInv scb) {index : Nat} (bound : index < 4096) :
    (∃ missing, index ≤ missing ∧
      (∀ offset, index ≤ offset → offset < missing → (scb.buffered offset).isSome) ∧
      scb.buffered missing = none ∧ Advances missing scb ((barRelease index scb).skbFree bar)) ↔
    index ≤ scb.ringPending := by
  obtain ⟨count, run, short, within, released, before, stop, there, empty⟩ :=
    inv.barRelease_eq index
  have moved : Advances (count + run) scb ((barRelease index scb).skbFree bar) := by
    rw [released]
    exact (inv.advances (count + run)).congr rfl rfl rfl rfl
  have span := ringPending_lt scb
  constructor
  case mp =>
    rintro ⟨missing, reaches, contiguous, -, advances⟩
    have same := advances.count_eq moved.seqNext (inv.missing_lt bound contiguous) (by omega)
    omega
  case mpr =>
    intro inside
    -- the loop passes exactly the places before the starting number
    have exact_ : count = index := by
      have head := inv.headInside
      have upTo : count ≤ index := by
        by_contra longer
        exact before index (Nat.not_le.mp longer) rfl
      omega
    subst exact_
    exact ⟨count + run, Nat.le_add_right _ _, there, empty, moved⟩

/-- A request that is not old changes nothing exactly when the span is empty, or when the starting
number falls on the head's slot and no frame is there. -/
theorem barRelease_still (inv : RingInv scb) (index : Nat) :
    { (barRelease index scb).skbFree bar with freed := scb.freed } = scb ↔
      scb.ringPending = 0 ∨ index % drvTidMaxBufs = 0 ∧ scb.wbuf scb.bawHead = none := by
  obtain ⟨count, run, short, within, released, before, stop, there, empty⟩ :=
    inv.barRelease_eq index
  have span := ringPending_lt scb
  have head := inv.headInside
  rw [← buffered_zero inv.headInside]
  constructor
  case mp =>
    intro same
    have moved : Advances (count + run) scb scb := by
      conv => rhs; rw [← same, released]
      exact (inv.advances (count + run)).congr rfl rfl rfl rfl
    have none_moved : count + run = 0 := by
      apply moved.count_eq _ (by omega) (by decide)
      exact (Nat.mod_eq_of_lt inv.seqInside).symm
    rw [none_moved] at empty
    rcases stop with whole | found
    · exact Or.inl (by omega)
    · refine Or.inr ⟨?_, empty⟩
      simp only [drvTidMaxBufs]
      omega
  case mpr =>
    intro still
    have none_moved : count + run = 0 := by
      rcases still with zero | ⟨multiple, missing⟩
      · omega
      · have first : count = 0 := by
          by_contra positive
          apply before 0 (Nat.pos_of_ne_zero positive)
          simp only [drvTidMaxBufs] at multiple
          omega
        by_contra positive
        have found := there 0 (by omega) (by omega)
        rw [missing] at found
        cases found
    rw [released, none_moved]
    rfl

end Bar

/-- For every state a run reaches and every request, `drv_rx_bar` does what it should exactly when
the request is one of those the code serves. -/
theorem drvRxBar_iff (events : List RxEvent) (env : RxEnv) (bar : SkBuff) :
    BarLaw bar ((Machine.run step zeroNsta events).rxScb (barTid bar))
        ((drvRxBar env bar (Machine.run step zeroNsta events)).rxScb (barTid bar)) ↔
      BarServed env bar ((Machine.run step zeroNsta events).rxScb (barTid bar)) := by
  have inv := run_inv events (barTid bar)
  generalize Machine.run step zeroNsta events = sta at inv ⊢
  by_cases taken : BarTaken env bar (sta.rxScb (barTid bar))
  case neg =>
    obtain ⟨freed, result⟩ := drvRxBar_refused taken
    rw [result]
    exact barLaw_refused inv taken freed
  case pos =>
    have small := (inv.session taken.2.2).2.2
    rcases drvRxBar_taken inv taken with ⟨old, result⟩ | ⟨recent, result⟩
    case inl =>
      have far : ¬ (sta.rxScb (barTid bar)).barIndex bar < seqHalf := by
        have guarded := old.2
        simp only [wifinetSeqMax, seqHalf] at guarded ⊢
        omega
      rw [result]
      constructor
      case mp =>
        intro _
        exact ⟨fun ahead => absurd ahead far, fun ahead => absurd ahead far,
          fun _ _ => Or.inl old.2⟩
      case mpr =>
        intro _
        exact ⟨fun _ _ => inv.buffered_numbered, fun ahead => absurd ahead far, fun _ => rfl⟩
    case inr =>
      rw [result]
      constructor
      case mp =>
        intro law
        refine ⟨?_, fun _ refused => absurd taken refused, ?_⟩
        · intro ahead _
          exact (barRelease_ahead inv barIndex_lt).mp (law.ahead ahead)
        · intro behind _
          exact Or.inr ((barRelease_still inv _).mp (law.behind behind))
      case mpr =>
        intro served
        refine ⟨fun _ _ => inv.buffered_numbered, ?_, ?_⟩
        · intro ahead
          exact (barRelease_ahead inv barIndex_lt).mpr (served.ahead ahead taken)
        · intro behind
          apply (barRelease_still inv _).mpr
          refine (served.behind behind taken).resolve_left ?_
          intro guarded
          apply recent
          refine ⟨?_, guarded⟩
          simp only [seqHalf] at behind
          omega

/-- A request of identifier 0 with a starting number. -/
def barFrame (id : Nat) (seq : Nat) : SkBuff where
  id := id
  data := [0x84, 0, 0, 0] ++ List.replicate 14 0 ++
    [UInt8.ofNat (seq % 16 * 16), UInt8.ofNat (seq / 16)]

/-- Frames 0 and 2 have come. -/
def oneMissing : RxNsta :=
  Machine.run step zeroNsta
    (sessionEvents ++ [.input plainEnv 0 (qosFrame 0 0), .input plainEnv 1 (qosFrame 1 2)])

/-- A request for number 10 leaves the window at 3, where the frames end, and one for a number a
thousand behind moves it there, too. -/
theorem drvRxBar_stops :
    (¬ BarLaw (barFrame 2 10) (oneMissing.rxScb 0)
        ((drvRxBar plainEnv (barFrame 2 10) oneMissing).rxScb 0)) ∧
      ¬ BarLaw (barFrame 2 3001) (oneMissing.rxScb 0)
        ((drvRxBar plainEnv (barFrame 2 3001) oneMissing).rxScb 0) := by
  constructor
  · intro law
    obtain ⟨missing, reaches, there, -, advances⟩ := law.ahead (by decide +kernel)
    have start : (oneMissing.rxScb 0).barIndex (barFrame 2 10) = 9 := by decide +kernel
    have nothing : (oneMissing.rxScb 0).buffered 9 = none := by decide +kernel
    have stop : missing = 9 := by
      apply Nat.le_antisymm _ (start ▸ reaches)
      by_contra beyond
      have found := there 9 (Nat.le_of_eq start) (Nat.not_le.mp beyond)
      rw [nothing] at found
      cases found
    have moved := advances.seqNext
    rw [stop] at moved
    exact absurd moved (by decide +kernel)
  · intro law
    have still := congrArg RxScoreboard.seqNext (law.behind (by decide +kernel))
    exact absurd still (by decide +kernel)

end W522a.Rx
