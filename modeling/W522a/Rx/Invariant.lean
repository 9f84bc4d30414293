import W522a.Rx.Window
import W522a.Rx.Station

/-!
What holds of a receive scoreboard after every run, and the tighter law that a window jump past
the tail breaks.
-/

namespace W522a.Rx

open RxScoreboard

structure RingInv (scb : RxScoreboard) : Prop where
  headInside : scb.bawHead < 128
  tailInside : scb.bawTail < 128
  seqInside : scb.seqNext < 4096
  outside : ∀ offset, scb.ringPending ≤ offset → offset < 128 → scb.frameAt offset = none
  within : ∀ offset, scb.bawSize ≤ offset → offset < 128 → scb.frameAt offset = none
  numbered : ∀ offset skb, offset < 128 → scb.frameAt offset = some skb →
    skb.rxSeq = (scb.seqNext + offset) % 4096
  session : scb.rxAddbaExchangecomplete = true →
    scb.pRxDesc.isSome ∧ 1 ≤ scb.bawSize ∧ scb.bawSize ≤ 64
  missing : scb.bawHead ≠ scb.bawTail → scb.pRxDesc.isSome
  fresh : scb.seqReset = true → scb.bawHead = scb.bawTail
  sound : scb.fault = false

/-- The span fits the negotiated window and ends with a frame. -/
structure Tight (scb : RxScoreboard) : Prop where
  span : scb.ringPending ≤ scb.bawSize
  last : scb.ringPending ≠ 0 → (scb.frameAt (scb.ringPending - 1)).isSome

/-- A scoreboard whose ring is allocated and whose first frame has come. -/
structure Started (scb : RxScoreboard) : Prop where
  ring : scb.pRxDesc.isSome
  begun : scb.seqReset = false

theorem RingInv.started {scb : RxScoreboard} (inv : RingInv scb)
    (apart : scb.bawHead ≠ scb.bawTail) : Started scb where
  ring := inv.missing apart
  begun := by
    cases reset : scb.seqReset with
    | true => exact absurd (inv.fresh reset) apart
    | false => rfl

theorem Started.releaseHead {scb : RxScoreboard} (started : Started scb) :
    Started scb.releaseHead :=
  ⟨by simpa using started.ring, by simpa using started.begun⟩

private theorem releaseHead_fault {scb : RxScoreboard} (ring : scb.pRxDesc.isSome) :
    scb.releaseHead.fault = scb.fault := by
  unfold RxScoreboard.releaseHead
  split
  · rfl
  · obtain ⟨slots, found⟩ := Option.isSome_iff_exists.mp ring
    simp [advance, touch, found]

private theorem releaseHead_seq {scb : RxScoreboard} (bound : scb.seqNext < 4096) :
    scb.releaseHead.seqNext = (scb.seqNext + 1) % 4096 := by
  simp only [releaseHead_seqNext, circleAddOne, wifinetSeqMax]
  split <;> omega

theorem RingInv.releaseHead {scb : RxScoreboard} (inv : RingInv scb) (started : Started scb) :
    RingInv scb.releaseHead where
  headInside := by
    have head := inv.headInside
    simp only [releaseHead_bawHead, circleAddOne, drvTidMaxBufs]
    split <;> omega
  tailInside := by simpa using inv.tailInside
  seqInside := by rw [releaseHead_seq inv.seqInside]; omega
  outside := by
    intro offset beyond bound
    rw [frameAt_releaseHead inv.headInside bound]
    split
    · rfl
    · have moved := ringPending_releaseHead scb
      have positive := ringPending_lt scb
      exact inv.outside (offset + 1) (by omega) (by omega)
  within := by
    intro offset beyond bound
    rw [releaseHead_bawSize] at beyond
    rw [frameAt_releaseHead inv.headInside bound]
    split
    · rfl
    · exact inv.within (offset + 1) (by omega) (by omega)
  numbered := by
    intro offset skb bound found
    rw [frameAt_releaseHead inv.headInside bound] at found
    split at found
    · exact absurd found (by simp)
    · rw [inv.numbered (offset + 1) skb (by omega) found, releaseHead_seq inv.seqInside]
      omega
  session := by simpa using inv.session
  missing := by
    intro _
    simpa using started.ring
  fresh := by
    intro reset
    simp [started.begun] at reset
  sound := by rw [releaseHead_fault started.ring]; exact inv.sound

/-- A change of fields that the invariant does not read. -/
theorem RingInv.congr {scb other : RxScoreboard} (inv : RingInv scb)
    (seqNext : other.seqNext = scb.seqNext) (bawSize : other.bawSize = scb.bawSize)
    (bawHead : other.bawHead = scb.bawHead) (bawTail : other.bawTail = scb.bawTail)
    (seqReset : other.seqReset = true → scb.seqReset = true)
    (pRxDesc : other.pRxDesc = scb.pRxDesc)
    (complete : other.rxAddbaExchangecomplete = true → scb.rxAddbaExchangecomplete = true)
    (fault : other.fault = scb.fault) : RingInv other where
  headInside := by rw [bawHead]; exact inv.headInside
  tailInside := by rw [bawTail]; exact inv.tailInside
  seqInside := by rw [seqNext]; exact inv.seqInside
  outside := by
    rw [ringPending_congr bawHead bawTail, frameAt_congr pRxDesc bawHead]
    exact inv.outside
  within := by rw [bawSize, frameAt_congr pRxDesc bawHead]; exact inv.within
  numbered := by rw [frameAt_congr pRxDesc bawHead, seqNext]; exact inv.numbered
  session := by rw [bawSize, pRxDesc]; exact fun valid => inv.session (complete valid)
  missing := by rw [bawHead, bawTail, pRxDesc]; exact inv.missing
  fresh := by rw [bawHead, bawTail]; exact fun reset => inv.fresh (seqReset reset)
  sound := by rw [fault]; exact inv.sound

theorem Tight.congr {scb other : RxScoreboard} (tight : Tight scb)
    (bawSize : other.bawSize = scb.bawSize) (bawHead : other.bawHead = scb.bawHead)
    (bawTail : other.bawTail = scb.bawTail) (pRxDesc : other.pRxDesc = scb.pRxDesc) :
    Tight other where
  span := by rw [ringPending_congr bawHead bawTail, bawSize]; exact tight.span
  last := by
    rw [ringPending_congr bawHead bawTail, frameAt_congr pRxDesc bawHead]
    exact tight.last

theorem Tight.releaseHead {scb : RxScoreboard} (tight : Tight scb) (inv : RingInv scb)
    (apart : scb.bawHead ≠ scb.bawTail) : Tight scb.releaseHead := by
  have moved := ringPending_releaseHead_pos inv.headInside inv.tailInside apart
  have span := tight.span
  have bound := ringPending_lt scb
  constructor
  · simp only [releaseHead_bawSize]; omega
  · intro positive
    rw [frameAt_releaseHead inv.headInside (by omega), if_neg (by omega)]
    have last := tight.last (by omega)
    have place : scb.releaseHead.ringPending - 1 + 1 = scb.ringPending - 1 := by omega
    rwa [place]

end W522a.Rx
