import W522a.Rx.Release

/-!
One call on a scoreboard keeps the ring invariant, and the tight law too unless a window jump
overshoots the tail.
-/

namespace W522a.Rx

open RxScoreboard

theorem RingInv.of_empty {scb : RxScoreboard} (head : scb.bawHead = 0) (tail : scb.bawTail = 0)
    (seqInside : scb.seqNext < 4096) (empty : ∀ index, scb.wbuf index = none)
    (session : scb.rxAddbaExchangecomplete = true →
      scb.pRxDesc.isSome ∧ 1 ≤ scb.bawSize ∧ scb.bawSize ≤ 64)
    (sound : scb.fault = false) : RingInv scb where
  headInside := by omega
  tailInside := by omega
  seqInside := seqInside
  outside := fun _ _ _ => empty _
  within := fun _ _ _ => empty _
  numbered := by
    intro offset skb bound found
    simp [frameAt, Ring.entry, empty] at found
  session := session
  missing := by
    intro apart
    omega
  fresh := by
    intro reset
    omega
  sound := sound

theorem Tight.of_empty {scb : RxScoreboard} (head : scb.bawHead = 0) (tail : scb.bawTail = 0) :
    Tight scb := by
  have zero : scb.ringPending = 0 := by simp [ringPending, head, tail]
  exact ⟨by omega, by omega⟩

theorem RingInv.frameAt_none {scb : RxScoreboard} (inv : RingInv scb)
    (same : scb.bawHead = scb.bawTail) {offset : Nat} (bound : offset < 128) :
    scb.frameAt offset = none := by
  have zero := (ringPending_eq_zero_iff inv.headInside inv.tailInside).mpr same
  exact inv.outside offset (by omega) bound

/-- Storing a frame at its own place keeps the invariant. -/
theorem RingInv.placeFrame {scb : RxScoreboard} {skb : SkBuff} {now index : Nat}
    (inv : RingInv scb) (started : Started scb) (size : scb.bawSize ≤ 64)
    (fits : index < scb.bawSize) (place : skb.rxSeq = (scb.seqNext + index) % 4096) :
    RingInv (placeFrame now skb index scb) where
  headInside := by rw [placeFrame_bawHead]; exact inv.headInside
  tailInside := placeFrame_bawTail_lt inv.tailInside
  seqInside := by rw [placeFrame_seqNext]; exact inv.seqInside
  outside := by
    intro offset beyond bound
    rw [ringPending_placeFrame (by omega)] at beyond
    rw [frameAt_placeFrame inv.headInside (by omega) started.ring bound]
    split at beyond
    · rw [if_neg (by omega)]
      exact inv.outside offset (by omega) bound
    · rw [if_neg (by omega)]
      exact inv.outside offset beyond bound
  within := by
    intro offset beyond bound
    rw [placeFrame_bawSize] at beyond
    rw [frameAt_placeFrame inv.headInside (by omega) started.ring bound, if_neg (by omega)]
    exact inv.within offset beyond bound
  numbered := by
    intro offset other bound found
    rw [frameAt_placeFrame inv.headInside (by omega) started.ring bound] at found
    rw [placeFrame_seqNext]
    split at found
    · rename_i same
      cases found
      rw [place, same]
    · exact inv.numbered offset other bound found
  session := by simpa using inv.session
  missing := by
    intro _
    simpa using started.ring
  fresh := by
    intro reset
    simp [started.begun] at reset
  sound := by rw [placeFrame_fault started.ring]; exact inv.sound

/-- A frame stored inside the window, or at the end of a full one, ends the span. -/
theorem Tight.placeFrame {scb : RxScoreboard} {skb : SkBuff} {now index : Nat}
    (inv : RingInv scb) (started : Started scb) (size : scb.bawSize ≤ 64)
    (fits : index < scb.bawSize) (span : scb.ringPending ≤ scb.bawSize)
    (last : index < scb.ringPending →
      scb.ringPending - 1 = index ∨ (scb.frameAt (scb.ringPending - 1)).isSome) :
    Tight (placeFrame now skb index scb) := by
  have pending : (Rx.placeFrame now skb index scb).ringPending =
      if scb.ringPending ≤ index then index + 1 else scb.ringPending :=
    ringPending_placeFrame (by omega)
  constructor
  · rw [pending, placeFrame_bawSize]
    split <;> omega
  · intro positive
    rw [pending]
    split
    · rw [frameAt_placeFrame inv.headInside (by omega) started.ring (by omega)]
      simp
    · rename_i inside
      rw [frameAt_placeFrame inv.headInside (by omega) started.ring (by omega)]
      rcases last (by omega) with same | occupied
      · simp [same]
      · split
        · rfl
        · exact occupied

theorem armReorderTimer_eq (env : RxEnv) (scb : RxScoreboard) :
    ∃ active period, armReorderTimer env scb =
      { scb with timerActive := active, timerPeriod := period } := by
  unfold armReorderTimer
  split
  · split
    · exact ⟨_, _, rfl⟩
    · exact ⟨scb.timerActive, scb.timerPeriod, rfl⟩
  · exact ⟨_, scb.timerPeriod, rfl⟩

private theorem RingInv.armReorderTimer {scb : RxScoreboard} (inv : RingInv scb) (env : RxEnv) :
    RingInv (armReorderTimer env scb) := by
  obtain ⟨active, period, armed⟩ := armReorderTimer_eq env scb
  rw [armed]
  exact inv.congr rfl rfl rfl rfl id rfl id rfl

private theorem Tight.armReorderTimer {scb : RxScoreboard} (tight : Tight scb) (env : RxEnv) :
    Tight (armReorderTimer env scb) := by
  obtain ⟨active, period, armed⟩ := armReorderTimer_eq env scb
  rw [armed]
  exact tight.congr rfl rfl rfl rfl

theorem frameAt_eq_wbuf (scb : RxScoreboard) (index : Nat) :
    scb.frameAt index = scb.wbuf ((scb.bawHead + index) % drvTidMaxBufs) := rfl

private theorem RingInv.insertFrame {scb : RxScoreboard} {skb : SkBuff} {now index : Nat}
    (inv : RingInv scb) (started : Started scb) (size : scb.bawSize ≤ 64)
    (fits : index < scb.bawSize) (place : skb.rxSeq = (scb.seqNext + index) % 4096)
    (env : RxEnv) : RingInv (insertFrame env now skb index scb) := by
  unfold Rx.insertFrame
  split
  · exact inv.congr rfl rfl rfl rfl id rfl id rfl
  · have placed : RingInv (Rx.placeFrame now skb index scb) :=
      inv.placeFrame started size fits place
    exact (releaseInOrder_releases placed).inv.armReorderTimer env

private theorem Tight.insertFrame {scb : RxScoreboard} {skb : SkBuff} {now index : Nat}
    (inv : RingInv scb) (started : Started scb) (size : scb.bawSize ≤ 64)
    (fits : index < scb.bawSize) (place : skb.rxSeq = (scb.seqNext + index) % 4096)
    (span : scb.ringPending ≤ scb.bawSize)
    (last : index < scb.ringPending →
      scb.ringPending - 1 = index ∨ (scb.frameAt (scb.ringPending - 1)).isSome)
    (env : RxEnv) : Tight (insertFrame env now skb index scb) := by
  unfold Rx.insertFrame
  split
  · rename_i duplicate
    rw [← frameAt_eq_wbuf] at duplicate
    refine Tight.congr ⟨span, ?_⟩ rfl rfl rfl rfl
    intro _
    -- a slot in use lies inside the span
    have inside : index < scb.ringPending := by
      by_contra beyond
      rw [inv.outside index (by omega) (by omega)] at duplicate
      simp at duplicate
    rcases last inside with same | occupied
    · rwa [same]
    · exact occupied
  · have placed : RingInv (Rx.placeFrame now skb index scb) :=
      inv.placeFrame started size fits place
    have tight : Tight (Rx.placeFrame now skb index scb) :=
      Tight.placeFrame inv started size fits span last
    exact ((releaseInOrder_releases placed).tight ⟨placed, tight⟩).armReorderTimer env

theorem seqNext_add_index {start seq : Nat} (bound : seq < 4096) :
    seq = (start + drvBaIndex start seq) % 4096 := by
  simp only [drvBaIndex, wifinetSeqMax]
  omega

/-- A frame that lies past the window is queued at its end, after as many releases. -/
theorem queueFrame_eq {scb : RxScoreboard} (positive : 1 ≤ scb.bawSize) (env : RxEnv)
    (now : Nat) (skb : SkBuff) (index : Nat) :
    queueFrame env now skb index scb =
      insertFrame env now skb (min index (scb.bawSize - 1))
        (RxScoreboard.releaseHead^[index + 1 - scb.bawSize] scb.clearOldRun) := by
  unfold Rx.queueFrame
  rw [windowJump_eq index scb.clearOldRun positive]
  rfl

theorem RingInv.clearOldRun {scb : RxScoreboard} (inv : RingInv scb) : RingInv scb.clearOldRun :=
  inv.congr rfl rfl rfl rfl id rfl id rfl

/-- What the frame meets once the window has jumped. -/
theorem RingInv.jumped {scb : RxScoreboard} {seq index : Nat} (inv : RingInv scb)
    (started : Started scb) (positive : 1 ≤ scb.bawSize)
    (place : seq = (scb.seqNext + index) % 4096) {jumped : RxScoreboard}
    (jump : jumped = RxScoreboard.releaseHead^[index + 1 - scb.bawSize] scb.clearOldRun) :
    RingInv jumped ∧ Started jumped ∧ jumped.bawSize = scb.bawSize ∧
      seq = (jumped.seqNext + min index (scb.bawSize - 1)) % 4096 := by
  obtain ⟨kept, running⟩ :=
    inv.clearOldRun.iterate ⟨started.ring, started.begun⟩ (index + 1 - scb.bawSize)
  have size : jumped.bawSize = scb.bawSize := by rw [jump, iterate_bawSize]; rfl
  have number : jumped.seqNext = (scb.seqNext + (index + 1 - scb.bawSize)) % 4096 := by
    rw [jump]
    exact iterate_seqNext inv.clearOldRun.seqInside _
  rw [← jump] at kept running
  refine ⟨kept, running, size, ?_⟩
  rw [place, number]
  omega

/-- `drv_rx_input` on a frame at an index, jumping or not. -/
theorem RingInv.queueFrame {scb : RxScoreboard} {skb : SkBuff} {index : Nat}
    (inv : RingInv scb) (started : Started scb) (positive : 1 ≤ scb.bawSize)
    (size : scb.bawSize ≤ 64) (place : skb.rxSeq = (scb.seqNext + index) % 4096)
    (env : RxEnv) (now : Nat) : RingInv (queueFrame env now skb index scb) := by
  obtain ⟨kept, running, same, number⟩ := inv.jumped started positive place rfl
  rw [queueFrame_eq positive]
  exact kept.insertFrame running (by omega) (by omega) number env

/-- How far the tail lies ahead of the head once the window has jumped to an index. -/
def spanAfterJump (index : Nat) (scb : RxScoreboard) : Int :=
  ((scb.ringPending : Int) - (index + 1 - scb.bawSize : Nat)) % drvTidMaxBufs

private theorem Tight.queueFrame {scb : RxScoreboard} {skb : SkBuff} {index : Nat}
    (good : Good scb) (started : Started scb) (positive : 1 ≤ scb.bawSize)
    (size : scb.bawSize ≤ 64) (place : skb.rxSeq = (scb.seqNext + index) % 4096)
    (short : spanAfterJump index scb ≤ scb.bawSize) (env : RxEnv) (now : Nat) :
    Tight (queueFrame env now skb index scb) := by
  obtain ⟨kept, running, same, number⟩ := good.inv.jumped started positive place rfl
  have pending : ((RxScoreboard.releaseHead^[index + 1 - scb.bawSize]
      scb.clearOldRun).ringPending : Int) = spanAfterJump index scb :=
    ringPending_iterate _ scb.clearOldRun
  rw [queueFrame_eq positive]
  apply Tight.insertFrame kept running (by omega) (by omega) number (by omega)
  intro inside
  by_cases jumps : scb.bawSize ≤ index
  · -- after a jump the frame takes the last place of the window
    left
    omega
  · have still : index + 1 - scb.bawSize = 0 := by omega
    have quiet : Tight scb.clearOldRun := good.tight.congr rfl rfl rfl rfl
    right
    simp only [still, Function.iterate_zero, id] at inside ⊢
    exact quiet.last (by omega)

theorem resetSeq_fields (rxseq : Nat) (scb : RxScoreboard) :
    (resetSeq rxseq scb).bawHead = scb.bawHead ∧ (resetSeq rxseq scb).bawTail = scb.bawTail ∧
      (resetSeq rxseq scb).bawSize = scb.bawSize ∧
      (resetSeq rxseq scb).pRxDesc = scb.pRxDesc ∧ (resetSeq rxseq scb).seqReset = false ∧
      (resetSeq rxseq scb).rxAddbaExchangecomplete = scb.rxAddbaExchangecomplete ∧
      (resetSeq rxseq scb).handedUp = scb.handedUp := by
  unfold resetSeq
  cases reset : scb.seqReset <;> simp [reset]

theorem RingInv.resyncTo {scb : RxScoreboard} (inv : RingInv scb)
    (same : scb.bawHead = scb.bawTail) {seq : Nat} (bound : seq < 4096) :
    RingInv (resyncTo seq scb) where
  headInside := inv.headInside
  tailInside := inv.tailInside
  seqInside := bound
  outside := inv.outside
  within := inv.within
  numbered := by
    intro offset skb inside found
    have ring_same : (Rx.resyncTo seq scb).frameAt = scb.frameAt := frameAt_congr rfl rfl
    rw [ring_same, inv.frameAt_none same inside] at found
    simp at found
  session := inv.session
  missing := inv.missing
  fresh := inv.fresh
  sound := inv.sound

private theorem RingInv.resetSeq {scb : RxScoreboard} (inv : RingInv scb) {rxseq : Nat}
    (bound : rxseq < 4096) : RingInv (resetSeq rxseq scb) := by
  unfold Rx.resetSeq
  split
  · rename_i reset
    exact (inv.resyncTo (inv.fresh reset) bound).congr rfl rfl rfl rfl (by simp) rfl id rfl
  · exact inv

/-- A jump that leaves the tail further ahead than the window is wide: the head has passed it. -/
def Overshoots (skb : SkBuff) (scb : RxScoreboard) : Prop :=
  let scb := resetSeq skb.rxSeq scb
  scb.rxAddbaExchangecomplete = true ∧ ¬ isOld skb.rxSeq scb ∧
    (scb.bawSize : Int) < spanAfterJump (drvBaIndex scb.seqNext skb.rxSeq) scb

instance (skb : SkBuff) (scb : RxScoreboard) : Decidable (Overshoots skb scb) :=
  inferInstanceAs (Decidable (_ ∧ _ ∧ _))

/-- A session's scoreboard, ready for its next frame. -/
theorem RingInv.inSession {scb : RxScoreboard} (inv : RingInv scb)
    (complete : scb.rxAddbaExchangecomplete = true) {rxseq : Nat} (bound : rxseq < 4096) :
    RingInv (Rx.resetSeq rxseq scb) ∧ Started (Rx.resetSeq rxseq scb) ∧
      1 ≤ (Rx.resetSeq rxseq scb).bawSize ∧ (Rx.resetSeq rxseq scb).bawSize ≤ 64 := by
  obtain ⟨-, -, size, ring, begun, -, -⟩ := resetSeq_fields rxseq scb
  obtain ⟨allocated, positive, small⟩ := inv.session complete
  exact ⟨inv.resetSeq bound, ⟨by rw [ring]; exact allocated, begun⟩, by omega, by omega⟩

theorem RingInv.drvRxInputTid {scb : RxScoreboard} (inv : RingInv scb)
    (complete : scb.rxAddbaExchangecomplete = true) (env : RxEnv) (now : Nat) (skb : SkBuff) :
    RingInv (drvRxInputTid env now skb scb) := by
  obtain ⟨ready, started, positive, small⟩ := inv.inSession complete skb.rxSeq_lt
  unfold Rx.drvRxInputTid
  dsimp only
  split
  · split
    · rename_i resync
      exact (ready.resyncTo resync.1 skb.rxSeq_lt).queueFrame ⟨started.ring, started.begun⟩
        positive small (Nat.mod_eq_of_lt skb.rxSeq_lt).symm env now
    · exact ready.congr rfl rfl rfl rfl id rfl id rfl
  · exact ready.queueFrame started positive small (seqNext_add_index skb.rxSeq_lt) env now

theorem Good.drvRxInputTid {scb : RxScoreboard} (good : Good scb)
    (complete : scb.rxAddbaExchangecomplete = true) (env : RxEnv) (now : Nat) (skb : SkBuff)
    (short : ¬ Overshoots skb scb) : Good (drvRxInputTid env now skb scb) := by
  refine ⟨good.inv.drvRxInputTid complete env now skb, ?_⟩
  obtain ⟨ready, started, positive, small⟩ := good.inv.inSession complete skb.rxSeq_lt
  obtain ⟨head, tail, size, ring, -, session, -⟩ := resetSeq_fields skb.rxSeq scb
  have tight : Tight (resetSeq skb.rxSeq scb) := good.tight.congr size head tail ring
  unfold Rx.drvRxInputTid
  dsimp only
  split
  · split
    · rename_i resync
      have fresh := ready.resyncTo resync.1 skb.rxSeq_lt
      have clear : Tight (resyncTo skb.rxSeq (resetSeq skb.rxSeq scb)) :=
        tight.congr rfl rfl rfl rfl
      have near : spanAfterJump 0 (resyncTo skb.rxSeq (resetSeq skb.rxSeq scb)) ≤
          (resyncTo skb.rxSeq (resetSeq skb.rxSeq scb)).bawSize := by
        have span := clear.span
        have bound := ringPending_lt (resyncTo skb.rxSeq (resetSeq skb.rxSeq scb))
        have wide : 1 ≤ (resyncTo skb.rxSeq (resetSeq skb.rxSeq scb)).bawSize := positive
        simp only [spanAfterJump, drvTidMaxBufs]
        omega
      exact Tight.queueFrame ⟨fresh, clear⟩ ⟨started.ring, started.begun⟩ positive small
        (Nat.mod_eq_of_lt skb.rxSeq_lt).symm near env now
    · exact tight.congr rfl rfl rfl rfl
  · rename_i recent
    have near : spanAfterJump (drvBaIndex (resetSeq skb.rxSeq scb).seqNext skb.rxSeq)
        (resetSeq skb.rxSeq scb) ≤ (resetSeq skb.rxSeq scb).bawSize := by
      by_contra far
      exact short ⟨by rw [session]; exact complete, recent, by omega⟩
    exact Tight.queueFrame ⟨ready, tight⟩ started positive small
      (seqNext_add_index skb.rxSeq_lt) near env now

end W522a.Rx
