import W522a.Rx.Session

/-!
The representation of the reorder ring over whole runs of a station: what every run keeps, and
the law of the window in every run without an overshooting jump.
-/

namespace W522a.Rx

open RxScoreboard

theorem drvRxBarTid_inv {scb : RxScoreboard} (inv : RingInv scb) (skb : SkBuff) :
    RingInv (drvRxBarTid skb scb) := by
  have freed : ∀ other : RxScoreboard, RingInv other → RingInv (other.skbFree skb) :=
    fun _ kept => kept.congr rfl rfl rfl rfl id rfl id rfl
  unfold drvRxBarTid
  split
  · exact freed scb inv
  · dsimp only
    split
    · exact freed scb inv
    · apply freed
      exact (releaseInOrder_releases (releaseUpTo_releases inv _).inv).inv

theorem drvRxBarTid_good {scb : RxScoreboard} (good : Good scb) (skb : SkBuff) :
    Good (drvRxBarTid skb scb) := by
  refine ⟨drvRxBarTid_inv good.inv skb, ?_⟩
  have freed : ∀ other : RxScoreboard, Tight other → Tight (other.skbFree skb) :=
    fun _ tight => tight.congr rfl rfl rfl rfl
  unfold drvRxBarTid
  split
  · exact freed scb good.tight
  · dsimp only
    split
    · exact freed scb good.tight
    · apply freed
      have skipped := (releaseUpTo_releases good.inv
        ((scb.bawHead + drvBaIndex scb.seqNext skb.barSeq) % drvTidMaxBufs)).good good
      exact (releaseInOrder_releases skipped.inv).tight skipped

theorem drvRxSortTimerEx_inv {scb : RxScoreboard} (inv : RingInv scb) (env : RxEnv)
    (now : Nat) : RingInv (drvRxSortTimerEx env now scb) := by
  unfold drvRxSortTimerEx
  split
  · exact drvRxFlushTid_inv env true inv
  · have swept := (sortTimerLoop_releases inv (drvRxReorderTimeout env) now).inv
    dsimp only
    split
    · exact swept.congr rfl rfl rfl rfl id rfl id rfl
    · exact swept

theorem drvRxSortTimerEx_good {scb : RxScoreboard} (good : Good scb) (env : RxEnv)
    (now : Nat) : Good (drvRxSortTimerEx env now scb) := by
  refine ⟨drvRxSortTimerEx_inv good.inv env now, ?_⟩
  unfold drvRxSortTimerEx
  split
  · exact (drvRxFlushTid_good env true good).tight
  · have swept := (sortTimerLoop_releases good.inv (drvRxReorderTimeout env) now).tight good
    dsimp only
    split
    · exact swept.congr rfl rfl rfl rfl
    · exact swept

private theorem RingInv.ended {scb : RxScoreboard} (inv : RingInv scb)
    (empty : scb.bawHead = scb.bawTail) :
    RingInv { scb with rxAddbaExchangecomplete := false, pRxDesc := none } where
  headInside := inv.headInside
  tailInside := inv.tailInside
  seqInside := inv.seqInside
  outside := fun _ _ _ => rfl
  within := fun _ _ _ => rfl
  numbered := by
    intro offset skb bound found
    simp [frameAt, Ring.entry, wbuf] at found
  session := by simp
  missing := fun apart => absurd empty apart
  fresh := fun _ => empty
  sound := inv.sound

private theorem Tight.of_same {scb : RxScoreboard} (same : scb.bawHead = scb.bawTail) :
    Tight scb := by
  have zero : scb.ringPending = 0 := by simp [ringPending, same]
  exact ⟨by omega, by omega⟩

private theorem ended_inv {scb : RxScoreboard} (inv : RingInv scb) (env : RxEnv) (drop : Bool) :
    RingInv { drvRxFlushTid env drop { scb with timerActive := false } with
      rxAddbaExchangecomplete := false, pRxDesc := none } := by
  have quiet : RingInv { scb with timerActive := false } :=
    inv.congr rfl rfl rfl rfl id rfl id rfl
  exact (drvRxFlushTid_inv env drop quiet).ended (drvRxFlushTid_empty env drop quiet)

private theorem ended_tight {scb : RxScoreboard} (inv : RingInv scb) (env : RxEnv)
    (drop : Bool) :
    Tight { drvRxFlushTid env drop { scb with timerActive := false } with
      rxAddbaExchangecomplete := false, pRxDesc := none } := by
  have quiet : RingInv { scb with timerActive := false } :=
    inv.congr rfl rfl rfl rfl id rfl id rfl
  exact Tight.of_same (drvRxFlushTid_empty env drop quiet)

private theorem rxBaWindow_bounds (env : RxEnv) : 1 ≤ rxBaWindow env ∧ rxBaWindow env ≤ 64 :=
  clampT_bounds (by decide)

/-- The accepting branch leaves an empty span and a window of 1 to 64 frames. -/
theorem acceptAddba_fields (env : RxEnv) (req : AddbaReq) (scb : RxScoreboard) :
    (acceptAddba env req scb).bawHead = 0 ∧ (acceptAddba env req scb).bawTail = 0 ∧
      (acceptAddba env req scb).seqNext = req.startseqnum ∧
      1 ≤ (acceptAddba env req scb).bawSize ∧ (acceptAddba env req scb).bawSize ≤ 64 := by
  have window := rxBaWindow_bounds env
  have clamped : 1 ≤ clampT req.buffersize 1 (rxBaWindow env) ∧
      clampT req.buffersize 1 (rxBaWindow env) ≤ rxBaWindow env := clampT_bounds window.1
  refine ⟨rfl, rfl, rfl, ?_⟩
  simp only [acceptAddba]
  split <;> omega

/-- It reads no missing ring, and a session it leaves in place has one. -/
theorem acceptAddba_sound {scb : RxScoreboard} (inv : RingInv scb) (env : RxEnv)
    (req : AddbaReq) :
    (acceptAddba env req scb).fault = false ∧
      ((acceptAddba env req scb).rxAddbaExchangecomplete = true →
        (acceptAddba env req scb).pRxDesc.isSome) := by
  have quiet : RingInv { scb with timerActive := false } :=
    inv.congr rfl rfl rfl rfl id rfl id rfl
  unfold acceptAddba
  by_cases live : scb.rxAddbaExchangecomplete ∧ scb.pRxDesc.isSome
  · simp only [if_pos live]
    exact ⟨(drvRxFlushTid_inv env false quiet).sound, by simp⟩
  · simp only [if_neg live]
    exact ⟨inv.sound, fun complete => (inv.session complete).1⟩

theorem drvRxAddbareqTid_good (env : RxEnv) (req : AddbaReq) (allocated : Bool)
    {scb : RxScoreboard} (good : RingInv scb) :
    RingInv (drvRxAddbareqTid env req allocated scb) ∧
      (Tight scb → Tight (drvRxAddbareqTid env req allocated scb)) := by
  obtain ⟨head, tail, seq, positive, small⟩ := acceptAddba_fields env req scb
  obtain ⟨sound, session⟩ := acceptAddba_sound good env req
  unfold drvRxAddbareqTid
  dsimp only
  split
  · exact ⟨good.congr rfl rfl rfl rfl id rfl id rfl, fun tight => tight.congr rfl rfl rfl rfl⟩
  · split
    · exact ⟨good.congr rfl rfl rfl rfl id rfl id rfl,
        fun tight => tight.congr rfl rfl rfl rfl⟩
    · split
      · refine ⟨RingInv.of_empty head tail ?_ (fun _ => rfl) ?_ sound, ?_⟩
        · exact seq ▸ req.startseqnum.isLt
        · exact fun _ => ⟨rfl, positive, small⟩
        · exact fun _ => Tight.of_empty head tail
      · rename_i missing
        have none_there : (acceptAddba env req scb).pRxDesc = none := by
          cases found : (acceptAddba env req scb).pRxDesc with
          | none => rfl
          | some slots => simp [found] at missing
        refine ⟨RingInv.of_empty head tail ?_ ?_ ?_ sound, ?_⟩
        · exact seq ▸ req.startseqnum.isLt
        · intro index
          simp [wbuf, none_there]
        · intro complete
          simp [none_there] at session
          simp [session] at complete
        · exact fun _ => Tight.of_empty head tail

theorem tidStep_inv {scb : RxScoreboard} (inv : RingInv scb) (event : TidEvent) :
    RingInv (tidStep scb event) := by
  cases event with
  | nstaInit env =>
    exact RingInv.of_empty rfl rfl (by decide : (0 : Nat) < 4096) (fun _ => rfl)
      (fun complete => by simp [tidStep, drvRxNstaInitTid] at complete) inv.sound
  | addbareq env req allocated => exact (drvRxAddbareqTid_good env req allocated inv).1
  | input env now skb =>
    simp only [tidStep]
    split
    · rename_i complete
      exact inv.drvRxInputTid complete env now skb
    · exact inv
  | bar skb => exact drvRxBarTid_inv inv skb
  | sortTimer env now => exact drvRxSortTimerEx_inv inv env now
  | timerHandler => exact inv.congr rfl rfl rfl rfl id rfl id rfl
  | flushTid env drop => exact drvRxFlushTid_inv env drop inv
  | ampduDel env =>
    simp only [tidStep, drvRxampduDel]
    split
    · exact inv
    · exact ended_inv inv env false
  | setAddbaRsp statuscode => exact inv.congr rfl rfl rfl rfl id rfl id rfl
  | addbaClear => exact inv.congr rfl rfl rfl rfl id rfl (by simp [tidStep, drvAddbaClearTid]) rfl
  | nstaClean env =>
    simp only [tidStep, drvRxNstaCleanTid]
    split
    · exact inv
    · exact ended_inv inv env true

/-- No frame of a session makes the window jump past the tail and leave it ahead. -/
def NoOvershoot (scb : RxScoreboard) : TidEvent → Prop
  | .input _ _ skb => ¬ Overshoots skb scb
  | _ => True

instance (scb : RxScoreboard) (event : TidEvent) : Decidable (NoOvershoot scb event) := by
  cases event <;> unfold NoOvershoot <;> infer_instance

theorem tidStep_good {scb : RxScoreboard} (good : Good scb) (event : TidEvent)
    (short : NoOvershoot scb event) : Good (tidStep scb event) := by
  refine ⟨tidStep_inv good.inv event, ?_⟩
  cases event with
  | nstaInit env => exact Tight.of_empty rfl rfl
  | addbareq env req allocated =>
    exact (drvRxAddbareqTid_good env req allocated good.inv).2 good.tight
  | input env now skb =>
    simp only [tidStep]
    split
    · rename_i complete
      exact (good.drvRxInputTid complete env now skb short).tight
    · exact good.tight
  | bar skb => exact (drvRxBarTid_good good skb).tight
  | sortTimer env now => exact (drvRxSortTimerEx_good good env now).tight
  | timerHandler => exact good.tight.congr rfl rfl rfl rfl
  | flushTid env drop => exact (drvRxFlushTid_good env drop good).tight
  | ampduDel env =>
    simp only [tidStep, drvRxampduDel]
    split
    · exact good.tight
    · exact ended_tight good.inv env false
  | setAddbaRsp statuscode => exact good.tight.congr rfl rfl rfl rfl
  | addbaClear => exact good.tight.congr rfl rfl rfl rfl
  | nstaClean env =>
    simp only [tidStep, drvRxNstaCleanTid]
    split
    · exact good.tight
    · exact ended_tight good.inv env true

theorem zeroScoreboard_good : Good zeroScoreboard :=
  ⟨RingInv.of_empty rfl rfl (by decide : (0 : Nat) < 4096) (fun _ => rfl)
    (fun complete => by simp [zeroScoreboard] at complete) rfl, Tight.of_empty rfl rfl⟩

theorem run_inv (events : List RxEvent) (tid : Nat) :
    RingInv ((Machine.run step zeroNsta events).rxScb tid) := by
  have kept : ∀ (sta : RxNsta) (event : RxEvent), RingInv (sta.rxScb tid) →
      RingInv ((step sta event).rxScb tid) := by
    intro sta event inv
    rw [step_rxScb]
    cases seen : onTid tid event with
    | none => exact inv
    | some call => exact tidStep_inv inv call
  exact Machine.run_invariant kept events zeroScoreboard_good.inv

/-- A session has a ring, a window that the ring has room for and indices inside the ring, and no
function has read a ring that was missing. -/
structure SessionLaw (scb : RxScoreboard) : Prop where
  ring : scb.rxAddbaExchangecomplete = true → scb.pRxDesc.isSome
  window : scb.rxAddbaExchangecomplete = true → 1 ≤ scb.bawSize ∧ scb.bawSize ≤ wmeMaxBa
  head : scb.bawHead < drvTidMaxBufs
  tail : scb.bawTail < drvTidMaxBufs
  next : scb.seqNext < wifinetSeqMax
  intact : scb.fault = false

/-- In whatever order the calls come, and whichever allocations fail. `drv_addba_clear` takes no lock,
but it only takes the flag back: amid a locked call it comes to nothing, or to what it is before or
behind the call. -/
theorem session_allocated (tid : Nat) (events : List RxEvent) :
    SessionLaw ((Machine.run step zeroNsta events).rxScb tid) := by
  have inv : RingInv ((Machine.run step zeroNsta events).rxScb tid) := run_inv events tid
  refine ⟨?_, ?_, inv.headInside, inv.tailInside, inv.seqInside, inv.sound⟩
  · intro complete
    exact (inv.session complete).1
  · intro complete
    exact (inv.session complete).2

/-- The representation of the reorder ring: the span fits the window, the slots outside it are
empty, each slot holds its own number, and the last slot of the span is in use. -/
structure WindowLaw (scb : RxScoreboard) : Prop where
  span : scb.ringPending ≤ scb.bawSize
  outside : ∀ index, index < drvTidMaxBufs →
    (scb.ringPending : Int) ≤ ((index : Int) - scb.bawHead) % drvTidMaxBufs →
    scb.wbuf index = none
  numbered : ∀ offset skb, offset < scb.ringPending →
    scb.wbuf ((scb.bawHead + offset) % drvTidMaxBufs) = some skb →
    skb.rxSeq = (scb.seqNext + offset) % wifinetSeqMax
  last : scb.ringPending ≠ 0 →
    (scb.wbuf ((scb.bawTail + (drvTidMaxBufs - 1)) % drvTidMaxBufs)).isSome

private theorem Good.windowLaw {scb : RxScoreboard} (good : Good scb) : WindowLaw scb where
  span := good.tight.span
  outside := by
    intro index inside beyond
    have head := good.inv.headInside
    simp only [drvTidMaxBufs] at inside beyond
    -- the slot is the one at its own distance from the head
    have place : (scb.bawHead + (((index : Int) - scb.bawHead) % 128).toNat) % 128 = index := by
      omega
    have empty := good.inv.outside (((index : Int) - scb.bawHead) % 128).toNat
      (by omega) (by omega)
    rwa [frameAt_eq_wbuf, drvTidMaxBufs, place] at empty
  numbered := by
    intro offset skb inside found
    have bound := ringPending_lt scb
    exact good.inv.numbered offset skb (by omega) found
  last := by
    intro positive
    have head := good.inv.headInside
    have tail := good.inv.tailInside
    have place : (scb.bawHead + (scb.ringPending - 1)) % 128 = (scb.bawTail + 127) % 128 := by
      simp only [ringPending, drvTidMaxBufs] at positive ⊢
      omega
    have occupied := good.tight.last positive
    rwa [frameAt_eq_wbuf, drvTidMaxBufs, place] at occupied

/-- A call on the station does not make the window of a scoreboard overshoot its tail. -/
def StepShort (tid : Nat) (sta : RxNsta) (event : RxEvent) : Prop :=
  match onTid tid event with
  | some call => NoOvershoot (sta.rxScb tid) call
  | none => True

instance (tid : Nat) (sta : RxNsta) (event : RxEvent) : Decidable (StepShort tid sta event) := by
  unfold StepShort; split <;> infer_instance

/-- Without an overshooting jump the ring keeps the law of its window in every state of a run. -/
theorem reorderRing_windowLaw (tid : Nat) (events : List RxEvent)
    (short : Machine.Along step (StepShort tid) zeroNsta events) :
    WindowLaw ((Machine.run step zeroNsta events).rxScb tid) := by
  have kept : ∀ (sta : RxNsta) (event : RxEvent), Good (sta.rxScb tid) →
      StepShort tid sta event → Good ((step sta event).rxScb tid) := by
    intro sta event good valid
    rw [step_rxScb]
    unfold StepShort at valid
    cases seen : onTid tid event with
    | none => exact good
    | some call =>
      rw [seen] at valid
      exact tidStep_good good call valid
  exact (short.invariant kept zeroScoreboard_good).windowLaw

/-- A station with its interface in station mode and the default receive configuration. -/
def plainEnv : RxEnv where
  netNsta := some (some .other)
  cfgRxBaWindow := 64
  cfgApRxBaWindow := 64
  cfgRxaggr := true
  cfgApRxaggr := true
  cfgMonitorRxaggr := false
  cfgRxReorderTimeout := 20
  cfgApRxReorderTimeout := 20

/-- A unicast QoS data frame of identifier 0 with a sequence number. -/
def qosFrame (id : Nat) (seq : Nat) : SkBuff where
  id := id
  data := [0x88, 0, 0, 0] ++ List.replicate 18 0 ++
    [UInt8.ofNat (seq % 16 * 16), UInt8.ofNat (seq / 16), 0, 0]

/-- The node is set up and a window of 64 frames from number 0 is agreed on. -/
def sessionEvents : List RxEvent :=
  [.nstaInit plainEnv, .addbareq plainEnv ⟨1, 0, 64, 0⟩ true]

/-- Frames 0, 3, 1 and a repeated 3 keep the law. -/
theorem reorderRing_windowLaw_gap :
    WindowLaw ((Machine.run step zeroNsta (sessionEvents ++
      [.input plainEnv 0 (qosFrame 0 0), .input plainEnv 1 (qosFrame 1 3),
        .input plainEnv 2 (qosFrame 2 1), .input plainEnv 3 (qosFrame 3 3)])).rxScb 0) :=
  reorderRing_windowLaw 0 _ (by decide +kernel)

/-- Frame 100 right after frame 0 moves the head to 37 and leaves the tail at 1: the span is 92
in a window of 64. -/
theorem reorderRing_overshoots :
    ¬ ∀ (tid : Nat) (events : List RxEvent),
      WindowLaw ((Machine.run step zeroNsta events).rxScb tid) := by
  intro law
  have span := (law 0 (sessionEvents ++
    [.input plainEnv 0 (qosFrame 0 0), .input plainEnv 1 (qosFrame 1 100)])).span
  exact absurd span (by decide +kernel)

end W522a.Rx
