import W522a.Rx.Reachable
import W522a.Lib.Slots

/-!
Who owns a received frame. A scoreboard answers for the frames in its slots, those it has handed up
and those it has freed; its operations move a frame from one of these to another.
-/

namespace W522a.Rx

open RxScoreboard

/-- The frames in the slots of the ring. -/
def held (scb : RxScoreboard) : Multiset SkBuff := Slots.content drvTidMaxBufs scb.wbuf

/-- The frames a scoreboard answers for. -/
def account (scb : RxScoreboard) : Multiset SkBuff := held scb + scb.handedUp + scb.freed

/-- `result` owns the frames of `scb`, in the same session and on the same ring, and a ring without
frames stays so. -/
structure Conserves (scb result : RxScoreboard) : Prop where
  account : account result = account scb
  session : result.rxAddbaExchangecomplete = scb.rxAddbaExchangecomplete
  ring : result.pRxDesc.isSome = scb.pRxDesc.isSome
  empty : held scb = 0 → held result = 0
  inside : result.bawHead < drvTidMaxBufs

section Conserves

variable {scb middle result : RxScoreboard}

theorem held_congr (same : result.pRxDesc = scb.pRxDesc) : held result = held scb := by
  have wbuf : result.wbuf = scb.wbuf := by
    funext index
    rw [RxScoreboard.wbuf, RxScoreboard.wbuf, same]
  rw [held, held, wbuf]

theorem account_congr (pRxDesc : result.pRxDesc = scb.pRxDesc)
    (handedUp : result.handedUp = scb.handedUp) (freed : result.freed = scb.freed) :
    account result = account scb := by
  rw [account, account, held_congr pRxDesc, handedUp, freed]

theorem Conserves.refl (inside : scb.bawHead < drvTidMaxBufs) : Conserves scb scb :=
  ⟨rfl, rfl, rfl, id, inside⟩

theorem Conserves.trans (first : Conserves scb middle) (second : Conserves middle result) :
    Conserves scb result where
  account := second.account.trans first.account
  session := second.session.trans first.session
  ring := second.ring.trans first.ring
  empty := fun nothing => second.empty (first.empty nothing)
  inside := second.inside

/-- A change of fields that ownership does not read. -/
theorem Conserves.congr (conserves : Conserves scb middle)
    (pRxDesc : result.pRxDesc = middle.pRxDesc) (handedUp : result.handedUp = middle.handedUp)
    (freed : result.freed = middle.freed)
    (session : result.rxAddbaExchangecomplete = middle.rxAddbaExchangecomplete)
    (bawHead : result.bawHead = middle.bawHead) : Conserves scb result where
  account := (account_congr pRxDesc handedUp freed).trans conserves.account
  session := session.trans conserves.session
  ring := by rw [pRxDesc]; exact conserves.ring
  empty := by rw [held_congr pRxDesc]; exact conserves.empty
  inside := by rw [bawHead]; exact conserves.inside

private theorem circleAddOne_lt {head : Nat} (inside : head < drvTidMaxBufs) :
    circleAddOne head drvTidMaxBufs < drvTidMaxBufs := by
  simp only [circleAddOne, drvTidMaxBufs] at inside ⊢
  split <;> omega

@[simp] theorem releaseHead_freed (scb : RxScoreboard) : scb.releaseHead.freed = scb.freed := by
  unfold releaseHead; split <;> rfl

theorem held_releaseHead (inside : scb.bawHead < drvTidMaxBufs) :
    held scb.releaseHead + Slots.single (scb.wbuf scb.bawHead) = held scb := by
  have wbuf : scb.releaseHead.wbuf = Function.update scb.wbuf scb.bawHead none := by
    funext index
    rw [wbuf_releaseHead]
    by_cases same : index = scb.bawHead
    · rw [if_pos same, same, Function.update_self]
    · rw [if_neg same, Function.update_of_ne same]
  have moved := Slots.content_update scb.wbuf inside none
  rw [← wbuf, Slots.single_none, add_zero] at moved
  exact moved

theorem Conserves.releaseHead (inside : scb.bawHead < drvTidMaxBufs) :
    Conserves scb scb.releaseHead where
  account := by
    have moved := held_releaseHead inside
    rw [Rx.account, Rx.account, releaseHead_handedUp, releaseHead_freed, ← Multiset.coe_add,
      Slots.coe_toList, ← moved]
    ac_rfl
  session := releaseHead_complete scb
  ring := releaseHead_isSome scb
  empty := by
    intro nothing
    have moved := held_releaseHead inside
    rw [nothing] at moved
    exact Multiset.le_zero.mp (moved ▸ Multiset.le_add_right _ _)
  inside := by
    rw [releaseHead_bawHead]
    exact circleAddOne_lt inside

private theorem Conserves.discardHead (inside : scb.bawHead < drvTidMaxBufs) :
    Conserves scb scb.discardHead := by
  have released := Conserves.releaseHead inside
  have moved := held_releaseHead inside
  have owned : Rx.account scb.discardHead = held scb.releaseHead + (scb.handedUp : Multiset SkBuff) +
      ((scb.freed ++ (scb.wbuf scb.bawHead).toList : List SkBuff) : Multiset SkBuff) := by
    rw [discardHead_eq]
    rfl
  rw [discardHead_eq] at owned ⊢
  refine ⟨?_, released.session, released.ring, released.empty, released.inside⟩
  rw [owned, Rx.account, ← Multiset.coe_add, Slots.coe_toList, ← moved]
  ac_rfl

/-- A loop whose body moves the head past a frame. -/
theorem Conserves.whileDo {guard : RxScoreboard → Bool} {body : RxScoreboard → RxScoreboard}
    (moves : ∀ scb, scb.bawHead < drvTidMaxBufs → Conserves scb (body scb))
    (fuel : Nat) (inside : scb.bawHead < drvTidMaxBufs) :
    Conserves scb (Machine.whileDo guard body fuel scb) := by
  have kept : ∀ other, Conserves scb other → guard other = true → Conserves scb (body other) :=
    fun other conserves _ => conserves.trans (moves other conserves.inside)
  exact Machine.whileDo_invariant kept fuel (Conserves.refl inside)

theorem Conserves.touchStop (conserves : Conserves scb middle) :
    Conserves scb middle.touchStop := by
  unfold RxScoreboard.touchStop
  split
  · exact conserves.congr rfl rfl rfl rfl rfl
  · exact conserves

theorem releaseInOrder_conserves (inside : scb.bawHead < drvTidMaxBufs) :
    Conserves scb (releaseInOrder scb) :=
  (Conserves.whileDo (fun _ => Conserves.releaseHead) _ inside).touchStop

theorem sortTimerLoop_conserves (timeout now : Nat) (inside : scb.bawHead < drvTidMaxBufs) :
    Conserves scb (sortTimerLoop timeout now scb) :=
  (Conserves.whileDo (fun _ => Conserves.releaseHead) _ inside).touchStop

theorem releaseUpTo_conserves (descId : Nat) (inside : scb.bawHead < drvTidMaxBufs) :
    Conserves scb (releaseUpTo descId scb) :=
  Conserves.whileDo (fun _ => Conserves.releaseHead) _ inside

theorem drvRxFlushTid_conserves (env : RxEnv) (drop : Bool)
    (inside : scb.bawHead < drvTidMaxBufs) : Conserves scb (drvRxFlushTid env drop scb) := by
  refine Conserves.whileDo ?_ _ inside
  intro other within
  split
  · exact Conserves.discardHead within
  · exact Conserves.releaseHead within

theorem windowJump_conserves (index : Nat) (inside : scb.bawHead < drvTidMaxBufs) :
    Conserves scb (windowJump index scb).2 := by
  refine @Machine.whileDo_invariant _ _ _ (fun jump : Nat × RxScoreboard => Conserves scb jump.2)
    ?_ index (index, scb) (Conserves.refl inside)
  intro jump conserves _
  exact conserves.trans (Conserves.releaseHead conserves.inside)

end Conserves

/-- `result` has taken a frame on, in the same session and on the same ring. -/
structure Receives (skb : SkBuff) (scb result : RxScoreboard) : Prop where
  account : account result = account scb + {skb}
  session : result.rxAddbaExchangecomplete = scb.rxAddbaExchangecomplete
  ring : result.pRxDesc.isSome = scb.pRxDesc.isSome

section Receives

variable {skb : SkBuff} {scb middle result : RxScoreboard}

theorem Receives.after (receives : Receives skb middle result) (conserves : Conserves scb middle) :
    Receives skb scb result where
  account := by rw [receives.account, conserves.account]
  session := receives.session.trans conserves.session
  ring := receives.ring.trans conserves.ring

private theorem Receives.before (receives : Receives skb scb middle)
    (conserves : Conserves middle result) : Receives skb scb result where
  account := conserves.account.trans receives.account
  session := conserves.session.trans receives.session
  ring := conserves.ring.trans receives.ring

theorem skbFree_receives (skb : SkBuff) (scb : RxScoreboard) :
    Receives skb scb (scb.skbFree skb) := by
  refine ⟨?_, rfl, rfl⟩
  have freed : Rx.account (scb.skbFree skb) = held scb + (scb.handedUp : Multiset SkBuff) +
      ((scb.freed ++ [skb] : List SkBuff) : Multiset SkBuff) := rfl
  rw [freed, Rx.account, ← Multiset.coe_add, ← add_assoc]
  rfl

private theorem placeFrame_receives {now index : Nat} (ring : scb.pRxDesc.isSome)
    (empty : scb.wbuf ((scb.bawHead + index) % drvTidMaxBufs) = none) :
    Receives skb scb (placeFrame now skb index scb) := by
  have wbuf : (placeFrame now skb index scb).wbuf =
      Function.update scb.wbuf ((scb.bawHead + index) % drvTidMaxBufs) (some skb) := by
    obtain ⟨slots, found⟩ := Option.isSome_iff_exists.mp ring
    have stored : (placeFrame now skb index scb).pRxDesc =
        some (Function.update slots ((scb.bawHead + index) % drvTidMaxBufs) ⟨some skb, now⟩) := by
      unfold placeFrame
      dsimp only
      split
      · simp [store, touch, found]
      · simp [store, touch, found]
    funext place
    rw [RxScoreboard.wbuf, stored]
    by_cases same : place = (scb.bawHead + index) % drvTidMaxBufs
    · rw [same, Function.update_self]
      simp
    · rw [Function.update_of_ne same, RxScoreboard.wbuf, found]
      simp [Function.update_of_ne same]
  have inside : (scb.bawHead + index) % drvTidMaxBufs < drvTidMaxBufs :=
    Nat.mod_lt _ (by decide)
  have gained : held (placeFrame now skb index scb) = held scb + {skb} := by
    have moved := Slots.content_update scb.wbuf inside (some skb)
    rw [← wbuf, empty, Slots.single_none, add_zero] at moved
    exact moved
  have freed : (placeFrame now skb index scb).freed = scb.freed := by
    unfold placeFrame
    dsimp only
    split <;> rfl
  refine ⟨?_, placeFrame_complete, placeFrame_isSome⟩
  rw [Rx.account, gained, placeFrame_handedUp, freed, Rx.account]
  ac_rfl

private theorem armReorderTimer_conserves (env : RxEnv) (inside : scb.bawHead < drvTidMaxBufs) :
    Conserves scb (armReorderTimer env scb) := by
  obtain ⟨active, period, armed⟩ := armReorderTimer_eq env scb
  rw [armed]
  exact (Conserves.refl inside).congr rfl rfl rfl rfl rfl

private theorem insertFrame_receives (env : RxEnv) (now index : Nat) (ring : scb.pRxDesc.isSome)
    (inside : scb.bawHead < drvTidMaxBufs) :
    Receives skb scb (insertFrame env now skb index scb) := by
  unfold insertFrame
  split
  · exact skbFree_receives skb scb
  · rename_i free
    have placed : Receives skb scb (placeFrame now skb index scb) :=
      placeFrame_receives ring (Option.not_isSome_iff_eq_none.mp free)
    have within : (placeFrame now skb index scb).bawHead < drvTidMaxBufs := by
      rw [placeFrame_bawHead]
      exact inside
    have released := releaseInOrder_conserves within
    exact (placed.before released).before (armReorderTimer_conserves env released.inside)

private theorem queueFrame_receives (env : RxEnv) (now index : Nat) (ring : scb.pRxDesc.isSome)
    (inside : scb.bawHead < drvTidMaxBufs) :
    Receives skb scb (queueFrame env now skb index scb) := by
  have cleared : Conserves scb scb.clearOldRun :=
    (Conserves.refl inside).congr rfl rfl rfl rfl rfl
  have jumped := cleared.trans (windowJump_conserves index cleared.inside)
  have still : (windowJump index scb.clearOldRun).2.pRxDesc.isSome := by
    rw [jumped.ring]
    exact ring
  exact (insertFrame_receives env now _ still jumped.inside).after jumped

theorem drvRxInputTid_receives (env : RxEnv) (now : Nat) (skb : SkBuff)
    (ring : scb.pRxDesc.isSome) (inside : scb.bawHead < drvTidMaxBufs) :
    Receives skb scb (drvRxInputTid env now skb scb) := by
  have reset : Conserves scb (resetSeq skb.rxSeq scb) := by
    unfold resetSeq
    split
    · exact (Conserves.refl inside).congr rfl rfl rfl rfl rfl
    · exact Conserves.refl inside
  have still : (resetSeq skb.rxSeq scb).pRxDesc.isSome := by
    rw [reset.ring]
    exact ring
  refine Receives.after ?_ reset
  unfold drvRxInputTid
  dsimp only
  split
  · split
    · have restarted : Conserves (resetSeq skb.rxSeq scb)
          (resyncTo skb.rxSeq (resetSeq skb.rxSeq scb)) :=
        (Conserves.refl reset.inside).congr rfl rfl rfl rfl rfl
      have received : Receives skb (resyncTo skb.rxSeq (resetSeq skb.rxSeq scb))
          (queueFrame env now skb 0 (resyncTo skb.rxSeq (resetSeq skb.rxSeq scb))) :=
        queueFrame_receives env now 0 still restarted.inside
      exact received.after restarted
    · have counted : Conserves (resetSeq skb.rxSeq scb)
          { resetSeq skb.rxSeq scb with rxOldRun := oldRun (resetSeq skb.rxSeq scb) } :=
        (Conserves.refl reset.inside).congr rfl rfl rfl rfl rfl
      exact (skbFree_receives skb _).after counted
  · exact queueFrame_receives env now _ still reset.inside

theorem drvRxBarTid_receives (skb : SkBuff) (inside : scb.bawHead < drvTidMaxBufs) :
    Receives skb scb (drvRxBarTid skb scb) := by
  unfold drvRxBarTid
  split
  · exact skbFree_receives skb scb
  · dsimp only
    split
    · exact skbFree_receives skb scb
    · have skipped := releaseUpTo_conserves
        ((scb.bawHead + drvBaIndex scb.seqNext skb.barSeq) % drvTidMaxBufs) inside
      have released := skipped.trans (releaseInOrder_conserves skipped.inside)
      exact (skbFree_receives skb _).after released

end Receives

end W522a.Rx
