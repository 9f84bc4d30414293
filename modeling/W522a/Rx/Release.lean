import W522a.Rx.Invariant

/-!
Every loop over the ring is a number of releases of its head, at most as many as the span is
long. The laws of a scoreboard are therefore shown for one release and one stored frame.
-/

namespace W522a.Rx

open RxScoreboard

/-- Both laws of a scoreboard. -/
structure Good (scb : RxScoreboard) : Prop where
  inv : RingInv scb
  tight : Tight scb

theorem Good.releaseHead {scb : RxScoreboard} (good : Good scb)
    (apart : scb.bawHead ≠ scb.bawTail) : Good scb.releaseHead :=
  ⟨good.inv.releaseHead (good.inv.started apart), good.tight.releaseHead good.inv apart⟩

theorem RingInv.discardHead {scb : RxScoreboard} (inv : RingInv scb) (started : Started scb) :
    RingInv scb.discardHead := by
  rw [discardHead_eq]
  exact (inv.releaseHead started).congr rfl rfl rfl rfl id rfl id rfl

theorem Good.discardHead {scb : RxScoreboard} (good : Good scb)
    (apart : scb.bawHead ≠ scb.bawTail) : Good scb.discardHead := by
  refine ⟨good.inv.discardHead (good.inv.started apart), ?_⟩
  rw [discardHead_eq]
  exact (good.releaseHead apart).tight.congr rfl rfl rfl rfl

theorem touch_eq {scb : RxScoreboard} (ring : scb.pRxDesc.isSome) : scb.touch = scb := by
  have sound : (scb.fault || scb.pRxDesc.isNone) = scb.fault := by
    cases found : scb.pRxDesc with
    | none => simp [found] at ring
    | some slots => simp
  rw [touch, sound]

theorem RingInv.touchStop_eq {scb : RxScoreboard} (inv : RingInv scb) : scb.touchStop = scb := by
  unfold touchStop
  split
  · rename_i apart
    exact touch_eq (inv.missing apart)
  · rfl

/-- Any number of releases keeps the invariant once the ring is in use. -/
theorem RingInv.iterate {scb : RxScoreboard} (inv : RingInv scb) (started : Started scb)
    (count : Nat) :
    RingInv (RxScoreboard.releaseHead^[count] scb) ∧
      Started (RxScoreboard.releaseHead^[count] scb) := by
  induction count generalizing scb with
  | zero => exact ⟨inv, started⟩
  | succ count induction =>
    rw [Function.iterate_succ_apply]
    exact induction (inv.releaseHead started) started.releaseHead

/-- `result` comes from `scb` by releases of its head up to the tail. -/
structure Releases (scb result : RxScoreboard) : Prop where
  counted : ∃ count, count ≤ scb.ringPending ∧ result = RxScoreboard.releaseHead^[count] scb
  inv : RingInv result

/-- A loop that releases heads short of the tail. -/
theorem release_loop {guard : RxScoreboard → Bool} {scb : RxScoreboard} (inv : RingInv scb)
    (short : ∀ scb, guard scb = true → scb.bawHead ≠ scb.bawTail) (fuel : Nat) :
    Releases scb (Machine.whileDo guard RxScoreboard.releaseHead fuel scb) := by
  induction fuel generalizing scb with
  | zero => exact ⟨⟨0, by omega, rfl⟩, inv⟩
  | succ fuel induction =>
    rw [Machine.whileDo]
    split
    · rename_i turns
      have apart := short scb turns
      have fewer := ringPending_releaseHead_pos inv.headInside inv.tailInside apart
      obtain ⟨⟨count, bound, result⟩, kept⟩ :=
        induction (inv.releaseHead (inv.started apart))
      exact ⟨⟨count + 1, by omega, result⟩, kept⟩
    · exact ⟨⟨0, by omega, rfl⟩, inv⟩

theorem Releases.touchStop {scb result : RxScoreboard} (releases : Releases scb result) :
    Releases scb result.touchStop := by
  rw [releases.inv.touchStop_eq]
  exact releases

theorem releaseInOrder_releases {scb : RxScoreboard} (inv : RingInv scb) :
    Releases scb (releaseInOrder scb) := by
  apply Releases.touchStop
  apply release_loop inv
  intro scb guarded
  exact (of_decide_eq_true guarded).1

theorem sortTimerLoop_releases {scb : RxScoreboard} (inv : RingInv scb) (timeout now : Nat) :
    Releases scb (sortTimerLoop timeout now scb) := by
  apply Releases.touchStop
  apply release_loop inv
  intro scb guarded
  exact (of_decide_eq_true guarded).1

theorem releaseUpTo_releases {scb : RxScoreboard} (inv : RingInv scb) (descId : Nat) :
    Releases scb (releaseUpTo descId scb) := by
  apply release_loop inv
  intro scb guarded
  exact (of_decide_eq_true guarded).1

theorem Releases.tight {scb result : RxScoreboard} (releases : Releases scb result)
    (good : Good scb) : Tight result := by
  obtain ⟨⟨count, bound, rfl⟩, -⟩ := releases
  induction count generalizing scb with
  | zero => exact good.tight
  | succ count induction =>
    have apart : scb.bawHead ≠ scb.bawTail := by
      intro same
      have zero := (ringPending_eq_zero_iff good.inv.headInside good.inv.tailInside).mpr same
      omega
    have fewer :=
      ringPending_releaseHead_pos good.inv.headInside good.inv.tailInside apart
    rw [Function.iterate_succ_apply]
    exact induction (good.releaseHead apart) (by omega)

theorem Releases.good {scb result : RxScoreboard} (releases : Releases scb result)
    (good : Good scb) : Good result :=
  ⟨releases.inv, releases.tight good⟩

/-- `drv_rx_flush_tid` ends with an empty span and keeps what releases keep. -/
theorem drvRxFlushTid_keeps (property : RxScoreboard → Prop)
    (released : ∀ scb, property scb → scb.bawHead ≠ scb.bawTail → property scb.releaseHead)
    (discarded : ∀ scb, property scb → scb.bawHead ≠ scb.bawTail → property scb.discardHead)
    (env : RxEnv) (drop : Bool) {scb : RxScoreboard} (initial : property scb) :
    property (drvRxFlushTid env drop scb) := by
  apply Machine.whileDo_invariant _ _ initial
  intro scb holds guarded
  have apart := of_decide_eq_true guarded
  split
  · exact discarded scb holds apart
  · exact released scb holds apart

theorem drvRxFlushTid_inv (env : RxEnv) (drop : Bool) {scb : RxScoreboard}
    (inv : RingInv scb) : RingInv (drvRxFlushTid env drop scb) :=
  drvRxFlushTid_keeps RingInv (fun _ inv apart => inv.releaseHead (inv.started apart))
    (fun _ inv apart => inv.discardHead (inv.started apart)) env drop inv

theorem drvRxFlushTid_good (env : RxEnv) (drop : Bool) {scb : RxScoreboard} (good : Good scb) :
    Good (drvRxFlushTid env drop scb) :=
  drvRxFlushTid_keeps Good (fun _ good apart => good.releaseHead apart)
    (fun _ good apart => good.discardHead apart) env drop good

theorem drvRxFlushTid_empty (env : RxEnv) (drop : Bool) {scb : RxScoreboard}
    (inv : RingInv scb) :
    (drvRxFlushTid env drop scb).bawHead = (drvRxFlushTid env drop scb).bawTail := by
  have kept : ∀ scb : RxScoreboard, RingInv scb → decide (scb.bawHead ≠ scb.bawTail) = true →
      RingInv ((if drop || env.netNsta.isNone then RxScoreboard.discardHead
        else RxScoreboard.releaseHead) scb) := by
    intro scb inv guarded
    have started := inv.started (of_decide_eq_true guarded)
    split
    · exact inv.discardHead started
    · exact inv.releaseHead started
  have lowered : ∀ scb : RxScoreboard, RingInv scb →
      decide (scb.bawHead ≠ scb.bawTail) = true →
      ((if drop || env.netNsta.isNone then RxScoreboard.discardHead
        else RxScoreboard.releaseHead) scb).ringPending < scb.ringPending := by
    intro scb inv guarded
    have fewer := ringPending_releaseHead_pos inv.headInside inv.tailInside
      (of_decide_eq_true guarded)
    split
    · rw [discardHead_eq]
      exact Nat.lt_of_succ_le (Nat.le_of_eq fewer)
    · omega
  have stopped := Machine.whileDo_stops kept lowered inv (Nat.le_of_lt (ringPending_lt scb))
  exact Decidable.not_not.mp (of_decide_eq_false stopped)

section Place

variable {scb : RxScoreboard} {skb : SkBuff} {now index : Nat}

@[simp] theorem placeFrame_bawHead : (placeFrame now skb index scb).bawHead = scb.bawHead := by
  unfold placeFrame; dsimp only; split <;> rfl

@[simp] theorem placeFrame_seqNext : (placeFrame now skb index scb).seqNext = scb.seqNext := by
  unfold placeFrame; dsimp only; split <;> rfl

@[simp] theorem placeFrame_bawSize : (placeFrame now skb index scb).bawSize = scb.bawSize := by
  unfold placeFrame; dsimp only; split <;> rfl

@[simp] theorem placeFrame_seqReset :
    (placeFrame now skb index scb).seqReset = scb.seqReset := by
  unfold placeFrame; dsimp only; split <;> rfl

@[simp] theorem placeFrame_complete :
    (placeFrame now skb index scb).rxAddbaExchangecomplete = scb.rxAddbaExchangecomplete := by
  unfold placeFrame; dsimp only; split <;> rfl

@[simp] theorem placeFrame_handedUp :
    (placeFrame now skb index scb).handedUp = scb.handedUp := by
  unfold placeFrame; dsimp only; split <;> rfl

@[simp] theorem placeFrame_isSome :
    (placeFrame now skb index scb).pRxDesc.isSome = scb.pRxDesc.isSome := by
  unfold placeFrame; dsimp only; split <;> simp [store]

theorem placeFrame_fault (ring : scb.pRxDesc.isSome) :
    (placeFrame now skb index scb).fault = scb.fault := by
  unfold placeFrame; dsimp only; split <;> simp [store, touch_eq ring]

theorem placeFrame_bawTail_lt (inside : scb.bawTail < 128) :
    (placeFrame now skb index scb).bawTail < 128 := by
  unfold placeFrame
  simp only [circleAddOne, drvTidMaxBufs]
  split
  · dsimp only; split <;> omega
  · exact inside

/-- Where a frame goes, and that no other frame moves. -/
theorem frameAt_placeFrame (inside : scb.bawHead < 128) (bound : index < 128)
    (ring : scb.pRxDesc.isSome) {offset : Nat} (offsetBound : offset < 128) :
    (placeFrame now skb index scb).frameAt offset =
      if offset = index then some skb else scb.frameAt offset := by
  have stored : (placeFrame now skb index scb).frameAt =
      (scb.store ((scb.bawHead + index) % 128) ⟨some skb, now⟩).frameAt := by
    apply frameAt_congr
    · unfold placeFrame; dsimp only; split <;> rfl
    · exact placeFrame_bawHead
  rw [stored, frameAt_store inside bound offsetBound ring]

theorem ringPending_placeFrame (bound : index + 1 < 128) :
    (placeFrame now skb index scb).ringPending =
      if scb.ringPending ≤ index then index + 1 else scb.ringPending := by
  unfold placeFrame
  dsimp only
  split
  · simp only [ringPending, circleAddOne, drvTidMaxBufs, store, touch]
    split <;> omega
  · rfl

end Place

end W522a.Rx
