import Mathlib.Data.List.Nodup
import W522a.Tx.Handover

/-!
When every frame that the interface gives down is settled: taken over or completed, once, and not
touched afterwards.
-/

namespace W522a.Handover

open Ledger (Action Holding Settled Lawful runAll)
open Hal (halNumTxQueues)

def HalView.Takes (view : HalView) : Prop :=
  view.netNsta = true ∧ view.staWnetVif = true ∧ view.queueMatches = true ∧
    view.halBufferFull = false ∧ view.halOps = true

/-- The frame is offered to the hardware at once, which does not take it. -/
def NormalView.Loses (view : NormalView) : Prop :=
  (view.isMotherChannel = true ∨ view.probereq = true) ∧ view.halBufferFull = false ∧
    view.backupQcnt = 0 ∧ ¬ view.hal.Takes

def SendView.Checks (view : SendView) : Prop :=
  view.txinfo = true ∧ view.tidIndex < wmeNumTid ∧ view.queueId < halNumTxQueues ∧
    view.staDrvSta = true ∧ view.txqueueSetup = true ∧ view.prepared = true

/-- The frame is for a queue of its own, which is not the one it says. -/
def SendView.Misqueued (view : SendView) : Prop :=
  ¬ (view.bUapsd = true ∧ view.qosData = true) ∧ view.bAmpdu = true ∧
    view.txlistQnum ≠ view.queueId

/-- The frame goes to `drv_tx_normal`. -/
def SendView.Normal (view : SendView) : Prop :=
  ¬ (view.bUapsd = true ∧ view.qosData = true) ∧
    if view.bAmpdu then view.txlistQnum = view.queueId ∧ view.pendingFuse = true
    else ¬ (view.bMcast = true ∧ view.ps = true)

/-- `drv_send` says that it took the frame, which is on no queue. -/
def SendView.Loses (view : SendView) : Prop :=
  view.Checks ∧ view.Normal ∧ view.normal.Loses

def SendView.Refuses (view : SendView) : Prop := ¬ view.Checks ∨ view.Misqueued

/-- The first checks of `drv_tx_start` -/
def StartView.Sane (view : StartView) : Prop :=
  view.sta = true ∧ view.txinfo = true ∧ view.ptxdesc = true ∧ view.tidIndex < wmeNumTid ∧
    view.wnetVif = true ∧ view.vmWmac = true

/-- The firmware is being restarted under an interface that is no access point, or the driver has
no record of the station. -/
def StartView.Unready (view : StartView) : Prop :=
  view.vmOpmode ≠ .hostap ∧ view.recoveryStat < wifinetRecoveryVifUp ∨ view.drvSta = false

/-- The frame waits for its block-ack session. -/
def StartView.Buffers (view : StartView) : Prop :=
  (view.bDatapkt = true ∧ view.bNulldata = false ∧ view.bMcast = false ∧ view.bEap = false) ∧
    view.aggrAllowed = false ∧ view.tidTxBuffSending = false

/-- Neither power save mode holds the frame back. -/
def StartView.Awake (view : StartView) : Prop :=
  view.pwrSavBypass = true ∨ view.uapsd = true ∨
    view.waitsForVif = false ∧ view.nodePwrMgt = false

/-- `drv_tx_start` gets to its loop. -/
def StartView.Enters (view : StartView) : Prop :=
  view.netOps = true ∧ view.Sane ∧ ¬ view.Unready ∧ ¬ view.Buffers

/-- `drv_tx_start` gets to `drv_send`. -/
def StartView.Sends (view : StartView) : Prop :=
  view.Enters ∧ view.drvPktDrop = false ∧ view.Awake ∧
    (view.needsRoom = true → view.copyExpanded = true)

/-- The frame stays behind with `drv_tx_start`: it returns an error and has not freed the frame, or
it returns none and the frame is on no queue. -/
def StartView.Strands (view : StartView) : Prop :=
  view.netOps = false ∨ view.Sane ∧ view.Unready ∨ view.Sends ∧ view.send.Loses

/-- `drv_tx_start` frees the frame and returns an error. -/
def StartView.Drops (view : StartView) : Prop :=
  view.netOps = true ∧ ¬ view.Sane ∨
    view.Enters ∧ (view.drvPktDrop = true ∨
      ¬ view.Awake ∧ view.waitsForVif = true ∧ view.connected = false ∨
      view.Awake ∧ view.needsRoom = true ∧ view.copyExpanded = false) ∨
    view.Sends ∧ view.send.Refuses

/-- The queue for a sleeping station frees the frame, for which it has no room. -/
def StartView.Overflows (view : StartView) : Prop :=
  view.Enters ∧ view.drvPktDrop = false ∧ ¬ view.Awake ∧ view.waitsForVif = false ∧
    view.pstxqueueFull = true

/-- The frame is copied on the way. -/
def StartView.Copies (view : StartView) : Prop := view.Sends ∧ view.needsRoom = true

/-- The copy of the frame that `drv_send` is given. -/
def StartView.sent (view : StartView) (copy : Nat) : Nat :=
  if view.needsRoom then copy + 1 else copy

/-- The driver is through with the frame before `drv_tx_start` returns. -/
def StartView.Finishes (view : StartView) : Prop := view.Sends ∧ view.send.finished = true

/-- `wifi_mac_build_txinfo` finds the key and the type of a frame. -/
def InfoView.Builds (view : InfoView) : Prop :=
  (view.protect = true → view.bPmf = false →
    (view.defaultKey = true → view.vmDefTxkey = true) ∧ view.cipher = true ∧
      view.wmEncap = true ∧ view.wmHeader ≤ view.hdrspace ∧ view.encapped = true ∧
      view.cipherStays = true) ∧
    view.typeKnown = true

/-- None of the frames is touched behind its end or stranded, up to the first that is dropped. -/
def Passes (info : Nat → InfoView) (start : Nat → StartView) : List Nat → Prop
  | [] => True
  | frame :: rest =>
    (info frame).Builds ∧ ¬ (start frame).Strands ∧
      (¬ (start frame).Drops → Passes info start rest)

/-- `wifi_mac_encap` allocates its fragments: at least one frame is made. -/
def EncapView.Allocates (view : EncapView) : Prop :=
  1 ≤ view.fragcnt ∧ ∀ skbcnt : Nat, 1 ≤ skbcnt → (skbcnt : Int) < view.fragcnt →
    view.env.allocOk skbcnt = true

/-- There are the fragments of a frame that needs them, and its MIC. -/
def EncapView.Fills (view : EncapView) : Prop :=
  (view.fragments = true → view.env.key ≠ some none ∧ view.Allocates) ∧
    (view.env.key ≠ none → view.env.protect = true → view.enmicOk = true)

/-- `wifi_mac_encap` makes something of the frame that is to be sent. -/
def EncapView.Sends (view : EncapView) : Prop :=
  (view.room = true ∨ view.copyExpanded = true) ∧
    (view.use4addr = true ∨ view.vmOpmode ≠ .monitor ∧ view.vmOpmode ≠ .p2p ∧
      (view.vmOpmode = .ibss → view.mainsta = true)) ∧
    view.Fills

/-- `wifi_mac_tx_send` gets to `wifi_mac_encap`. -/
def TxSendView.Encaps (view : TxSendView) : Prop :=
  view.nsta = true ∧ view.drvOps = true ∧ view.txinfo = true ∧
    ¬ (view.amsduSupported = true ∧ view.special = false ∧ view.amsduTakes = true)

/-- What `wifi_mac_tx_send` needs to keep its buffers: of those that `wifi_mac_encap` makes, each
passes that is not freed because of one before it. -/
def TxSendView.Sound (view : TxSendView) : Prop :=
  view.Encaps → view.encap.Sends →
    Passes view.info view.start
      (0 :: (List.range' 1 (view.encap.fragcnt.toNat - 1)).reverse)

/-- `wifi_mac_tx_mgmt_frm` gets to `drv_tx_start`. -/
def TxMgmtView.Starts (view : TxMgmtView) : Prop :=
  view.rfTest = false ∧
    (view.protect = true → (view.multicast = true → view.mmieOk = true) ∧
      view.encryptOk = true) ∧
    view.info.Builds

/-- What `wifi_mac_tx_mgmt_frm` needs to keep its buffer, which its messages read. -/
def TxMgmtView.Sound (view : TxMgmtView) : Prop :=
  view.Starts → ¬ view.start.Strands ∧ ¬ view.start.Drops ∧
    (view.debug = true →
      ¬ view.start.Overflows ∧ ¬ view.start.Copies ∧ ¬ view.start.Finishes)

section Driver

private theorem drvToHal_takes {view : HalView} (takes : view.Takes) (copy : Nat) :
    drvToHal view copy = ([.accept copy], 0) := by
  obtain ⟨netNsta, staWnetVif, queueMatches, room, halOps⟩ := takes
  simp [drvToHal, netNsta, staWnetVif, queueMatches, room, halOps]

private theorem drvToHal_refuses {view : HalView} (refuses : ¬ view.Takes) (copy : Nat) :
    (drvToHal view copy).1 = [] := by
  unfold drvToHal
  repeat' split
  all_goals first | rfl | skip
  refine absurd ⟨?_, ?_, ?_, ?_, ?_⟩ refuses
  all_goals simp_all

theorem drvTxNormal_eq (view : NormalView) (copy : Nat) :
    view.Loses ∧ drvTxNormal view copy = ([.touch copy], 0) ∨
      ¬ view.Loses ∧ drvTxNormal view copy = ([.touch copy, .accept copy], 0) := by
  unfold drvTxNormal
  split
  next away =>
    refine .inr ⟨?_, rfl⟩
    rintro ⟨here, -⟩
    rw [Bool.and_eq_true, Bool.not_eq_true', Bool.not_eq_true'] at away
    rcases here with here | here
    · rw [here] at away
      exact absurd away.1 (by decide)
    · rw [here] at away
      exact absurd away.2 (by decide)
  next here =>
    split
    next full => exact .inr ⟨fun loses => by simp [loses.2.1] at full, rfl⟩
    next room =>
      split
      next waiting => exact .inr ⟨fun loses => by simp [loses.2.2.1] at waiting, rfl⟩
      next empty =>
        by_cases takes : view.hal.Takes
        · rw [drvToHal_takes takes]
          exact .inr ⟨fun loses => loses.2.2.2 takes, rfl⟩
        · rw [drvToHal_refuses takes]
          refine .inl ⟨⟨?_, ?_, ?_, takes⟩, rfl⟩
          · cases mother : view.isMotherChannel with
            | true => exact .inl rfl
            | false =>
              refine .inr ?_
              simpa [mother] using here
          · simpa using room
          · simpa using empty

theorem drvSend_checks {view : SendView} (checks : view.Checks) (copy : Nat) :
    drvSend view copy =
      let (queued, error) := drvSendQueue view copy
      if error ≠ 0 then (.touch copy :: queued, -12)
      else if view.finished && queued.contains (.accept copy) then
        (.touch copy :: queued ++ [.finish copy], 0)
      else (.touch copy :: queued, 0) := by
  obtain ⟨txinfo, tidIndex, queueId, staDrvSta, txqueueSetup, prepared⟩ := checks
  unfold drvSend
  rw [if_neg (by simp [txinfo, tidIndex, queueId]), if_neg (by simp [staDrvSta]),
    if_neg (by simp [txqueueSetup]), if_neg (by simp [prepared])]

private theorem drvSend_unchecked {view : SendView} (unchecked : ¬ view.Checks) (copy : Nat) :
    Ledger.run (.held copy) (drvSend view copy).1 = some (.held copy) ∧
      (drvSend view copy).2 < 0 := by
  unfold drvSend
  split
  next => exact ⟨rfl, by decide⟩
  next sane =>
    split
    next => exact ⟨rfl, by decide⟩
    next staDrvSta =>
      split
      next => exact ⟨rfl, by decide⟩
      next txqueueSetup =>
        split
        next => exact ⟨by simp [Ledger.run, Ledger.step], by simp⟩
        next prepared =>
          refine absurd ⟨?_, ?_, ?_, ?_, ?_, ?_⟩ unchecked
          all_goals simp_all

/-- The queues of `drv_send` take the frame at once, or hand it to `drv_tx_normal`. -/
theorem drvSendQueue_eq (view : SendView) (copy : Nat) :
    view.Misqueued ∧ drvSendQueue view copy = ([], -1) ∨
      view.Normal ∧ drvSendQueue view copy = drvTxNormal view.normal copy ∨
      ¬ view.Misqueued ∧ ¬ view.Normal ∧ drvSendQueue view copy = ([.accept copy], 0) := by
  unfold drvSendQueue
  split
  next uapsd =>
    rw [Bool.and_eq_true] at uapsd
    exact .inr (.inr ⟨fun misqueued => misqueued.1 uapsd, fun normal => normal.1 uapsd, rfl⟩)
  next plain =>
    rw [Bool.and_eq_true] at plain
    split
    next ampdu =>
      unfold drvTxSendAmpdu
      split
      next other => exact .inl ⟨⟨plain, ampdu, other⟩, rfl⟩
      next own =>
        rw [not_not] at own
        split
        next fuse =>
          refine .inr (.inl ⟨⟨plain, ?_⟩, rfl⟩)
          rw [if_pos ampdu]
          exact ⟨own, fuse⟩
        next calm =>
          refine .inr (.inr ⟨fun misqueued => misqueued.2.2 own, fun normal => calm ?_, rfl⟩)
          have fused := normal.2
          rw [if_pos ampdu] at fused
          exact fused.2
    next single =>
      split
      next sleeping =>
        rw [Bool.and_eq_true] at sleeping
        refine .inr (.inr ⟨fun misqueued => single misqueued.2.1, fun normal => ?_, rfl⟩)
        have awake := normal.2
        rw [if_neg single] at awake
        exact awake sleeping
      next awake =>
        rw [Bool.and_eq_true] at awake
        refine .inr (.inl ⟨⟨plain, ?_⟩, rfl⟩)
        rw [if_neg single]
        exact awake

theorem drvSend_refuses {view : SendView} (refuses : view.Refuses) (copy : Nat) :
    Ledger.run (.held copy) (drvSend view copy).1 = some (.held copy) ∧
      (drvSend view copy).2 < 0 := by
  by_cases checks : view.Checks
  · have misqueued := refuses.resolve_left (not_not_intro checks)
    rw [drvSend_checks checks]
    rcases drvSendQueue_eq view copy with ⟨-, value⟩ | ⟨normal, -⟩ | ⟨proper, -⟩
    · rw [value]
      exact ⟨by simp [Ledger.run, Ledger.step], by simp⟩
    · have own := normal.2
      rw [if_pos misqueued.2.1] at own
      exact absurd own.1 misqueued.2.2
    · exact absurd misqueued proper
  · exact drvSend_unchecked checks copy

theorem drvSend_loses {view : SendView} (loses : view.Loses) (copy : Nat) :
    Ledger.run (.held copy) (drvSend view copy).1 = some (.held copy) ∧
      (drvSend view copy).2 = 0 := by
  obtain ⟨checks, normal, lost⟩ := loses
  rw [drvSend_checks checks]
  rcases drvSendQueue_eq view copy with ⟨misqueued, -⟩ | ⟨-, value⟩ | ⟨-, other, -⟩
  · have own := normal.2
    rw [if_pos misqueued.2.1] at own
    exact absurd own.1 misqueued.2.2
  · rw [value]
    rcases drvTxNormal_eq view.normal copy with ⟨-, value⟩ | ⟨kept, -⟩
    · rw [value]
      simp [Ledger.run, Ledger.step]
    · exact absurd lost kept
  · exact absurd normal other

/-- Every other frame has a new owner, who may be through with it. -/
theorem drvSend_takes {view : SendView} (accepted : ¬ view.Refuses) (kept : ¬ view.Loses)
    (copy : Nat) :
    Ledger.run (.held copy) (drvSend view copy).1 =
        some (if view.finished then .completed else .accepted copy) ∧
      (drvSend view copy).2 = 0 := by
  rw [SendView.Refuses, not_or, not_not] at accepted
  obtain ⟨checks, proper⟩ := accepted
  have taken : drvSendQueue view copy = ([.accept copy], 0) ∨
      drvSendQueue view copy = ([.touch copy, .accept copy], 0) := by
    rcases drvSendQueue_eq view copy with ⟨misqueued, -⟩ | ⟨normal, value⟩ | ⟨-, -, value⟩
    · exact absurd misqueued proper
    · rcases drvTxNormal_eq view.normal copy with ⟨lost, -⟩ | ⟨-, taken⟩
      · exact absurd ⟨checks, normal, lost⟩ kept
      · exact .inr (value.trans taken)
    · exact .inl value
  rw [drvSend_checks checks]
  cases finished : view.finished with
  | true =>
    rcases taken with value | value
    all_goals
      rw [value]
      simp [Ledger.run, Ledger.step]
  | false =>
    rcases taken with value | value
    all_goals
      rw [value]
      simp [Ledger.run, Ledger.step]

/-- The ways of `drv_tx_start` before its loop. -/
theorem drvTxStart_cases (view : StartView) (copy : Nat) :
    view.netOps = false ∧ drvTxStart view copy = ([], -1) ∨
      (view.netOps = true ∧ ¬ view.Sane) ∧
        drvTxStart view copy = ([.touch copy, .complete copy], -1) ∨
      (view.Sane ∧ view.Unready) ∧ (drvTxStart view copy).1 = [.touch copy] ∨
      (view.netOps = true ∧ view.Sane ∧ ¬ view.Unready ∧ view.Buffers) ∧
        drvTxStart view copy = ([.touch copy, .accept copy], 0) ∨
      view.Enters ∧ drvTxStart view copy =
        let (queued, left, error) := drvTxQueue view copy
        if error < 0 then (.touch copy :: queued ++ [.complete left], error)
        else (.touch copy :: queued, error) := by
  unfold drvTxStart
  split
  next out => exact .inl ⟨by simpa using out, rfl⟩
  next netOps =>
    have netOps : view.netOps = true := by simpa using netOps
    split
    next insane =>
      refine .inr (.inl ⟨⟨netOps, fun sane => ?_⟩, rfl⟩)
      obtain ⟨sta, txinfo, ptxdesc, tidIndex, wnetVif, vmWmac⟩ := sane
      simp [sta, txinfo, ptxdesc, wnetVif, vmWmac] at insane
      exact absurd tidIndex (Nat.not_lt_of_le insane)
    next sane =>
      have sane : view.Sane := by
        refine ⟨?_, ?_, ?_, ?_, ?_, ?_⟩
        all_goals simp_all
      split
      next recovering => exact .inr (.inr (.inl ⟨⟨sane, .inl recovering⟩, rfl⟩))
      next ready =>
        split
        next unknown =>
          exact .inr (.inr (.inl ⟨⟨sane, .inr (by simpa using unknown)⟩, rfl⟩))
        next known =>
          have unready : ¬ view.Unready := by
            rintro (recovering | unknown)
            · exact ready recovering
            · exact known (by simp [unknown])
          split
          next buffers =>
            refine .inr (.inr (.inr (.inl ⟨⟨netOps, sane, unready, ?_⟩, rfl⟩)))
            simpa [StartView.Buffers, and_assoc] using buffers
          next passes =>
            refine .inr (.inr (.inr (.inr ⟨⟨netOps, sane, unready, fun buffers => ?_⟩, rfl⟩)))
            apply passes
            simpa [StartView.Buffers, and_assoc] using buffers

/-- The ways through the loop of `drv_tx_start`. -/
theorem drvTxQueue_cases (view : StartView) (copy : Nat) :
    view.drvPktDrop = true ∧ drvTxQueue view copy = ([.touch copy], copy, -4) ∨
      view.drvPktDrop = false ∧
        ((¬ view.Awake ∧ view.waitsForVif = true ∧ view.connected = false) ∧
            drvTxQueue view copy = ([.touch copy], copy, -5) ∨
          (¬ view.Awake ∧ view.waitsForVif = true ∧ view.connected = true) ∧
            drvTxQueue view copy = ([.touch copy, .accept copy], copy, 0) ∨
          (¬ view.Awake ∧ view.waitsForVif = false) ∧ drvTxQueue view copy =
            (.touch copy :: wifiMacPwrsavePsqueueEnqueue view.pstxqueueFull copy, copy, 0) ∨
          (view.Awake ∧ view.needsRoom = true ∧ view.copyExpanded = false) ∧
            drvTxQueue view copy = ([.touch copy], copy, -5) ∨
          (view.Awake ∧ view.needsRoom = true ∧ view.copyExpanded = true) ∧
            drvTxQueue view copy =
              ([.touch copy, .replace copy] ++ (drvSend view.send (copy + 1)).1, copy + 1,
                (drvSend view.send (copy + 1)).2) ∨
          (view.Awake ∧ view.needsRoom = false) ∧ drvTxQueue view copy =
            (.touch copy :: (drvSend view.send copy).1, copy, (drvSend view.send copy).2)) := by
  unfold drvTxQueue StartView.Awake
  cases view.drvPktDrop with
  | true => exact .inl ⟨rfl, rfl⟩
  | false =>
    refine .inr ⟨rfl, ?_⟩
    cases view.pwrSavBypass with
    | true =>
      cases view.needsRoom with
      | false => simp
      | true => cases view.copyExpanded <;> simp
    | false =>
      cases view.uapsd with
      | true =>
        cases view.needsRoom with
        | false => simp
        | true => cases view.copyExpanded <;> simp
      | false =>
        cases view.waitsForVif with
        | true => cases view.connected <;> simp
        | false =>
          cases view.nodePwrMgt with
          | true => simp
          | false =>
            cases view.needsRoom with
            | false => simp
            | true => cases view.copyExpanded <;> simp

theorem run_touch (copy : Nat) (rest : List Action) :
    Ledger.run (.held copy) (.touch copy :: rest) = Ledger.run (.held copy) rest := by
  simp [Ledger.run, Ledger.step]

theorem run_replace (copy : Nat) (rest : List Action) :
    Ledger.run (.held copy) (.replace copy :: rest) = Ledger.run (.held (copy + 1)) rest := by
  simp [Ledger.run, Ledger.step]

theorem drvTxStart_sends {view : StartView} (sends : view.Sends) (copy : Nat) :
    let (actions, error) := drvSend view.send (view.sent copy)
    Ledger.run (.held copy) (drvTxStart view copy).1 =
        Ledger.run (.held (view.sent copy))
          (if error < 0 then actions ++ [.complete (view.sent copy)] else actions) ∧
      (drvTxStart view copy).2 = error := by
  unfold StartView.sent
  obtain ⟨enters, drvPktDrop, awake, expands⟩ := sends
  obtain ⟨netOps, sane, unready, buffers⟩ := enters
  rcases drvTxStart_cases view copy with ⟨out, -⟩ | ⟨⟨-, insane⟩, -⟩ | ⟨⟨-, other⟩, -⟩ |
    ⟨⟨-, -, -, other⟩, -⟩ | ⟨-, value⟩
  · rw [netOps] at out
    cases out
  · exact absurd sane insane
  · exact absurd other unready
  · exact absurd other buffers
  · dsimp only
    rw [value]
    rcases drvTxQueue_cases view copy with ⟨dropped, -⟩ | ⟨-, ⟨⟨asleep, -⟩, -⟩ |
      ⟨⟨asleep, -⟩, -⟩ | ⟨⟨asleep, -⟩, -⟩ | ⟨⟨-, small, failed⟩, -⟩ | ⟨⟨-, small, -⟩, queued⟩ |
      ⟨⟨-, large⟩, queued⟩⟩
    · rw [drvPktDrop] at dropped
      cases dropped
    · exact absurd awake asleep
    · exact absurd awake asleep
    · exact absurd awake asleep
    · rw [expands small] at failed
      cases failed
    · rw [queued, if_pos small]
      dsimp only
      split
      next => simp [run_touch, run_replace]
      next => simp [run_touch, run_replace]
    · rw [queued, large, if_neg Bool.false_ne_true]
      dsimp only
      split
      next => simp [run_touch]
      next => simp [run_touch]

private theorem run_completes {actions : List Action} {start : Holding} {copy : Nat}
    (ran : Ledger.run start actions = some (.held copy)) :
    Ledger.run start (actions ++ [.complete copy]) = some .completed := by
  rw [Ledger.run_append, ran]
  simp [Ledger.run, Ledger.step]

theorem drvTxStart_strands {view : StartView} (strands : view.Strands) (copy : Nat) :
    ∃ left, Ledger.run (.held copy) (drvTxStart view copy).1 = some (.held left) := by
  rcases strands with out | ⟨sane, unready⟩ | ⟨sends, loses⟩
  · refine ⟨copy, ?_⟩
    simp [drvTxStart, out, Ledger.run]
  · rcases drvTxStart_cases view copy with ⟨-, value⟩ | ⟨⟨-, insane⟩, -⟩ | ⟨-, value⟩ |
      ⟨⟨-, -, ready, -⟩, -⟩ | ⟨⟨-, -, ready, -⟩, -⟩
    · exact ⟨copy, by simp [value, Ledger.run]⟩
    · exact absurd sane insane
    · exact ⟨copy, by simp [value, Ledger.run, Ledger.step]⟩
    · exact absurd unready ready
    · exact absurd unready ready
  · have fares := drvTxStart_sends sends copy
    have lost := drvSend_loses loses (view.sent copy)
    dsimp only at fares
    rw [lost.2, if_neg (by decide)] at fares
    exact ⟨_, fares.1.trans lost.1⟩

theorem drvTxStart_drops {view : StartView} (drops : view.Drops) (copy : Nat) :
    Ledger.run (.held copy) (drvTxStart view copy).1 = some .completed ∧
      (drvTxStart view copy).2 ≠ 0 := by
  rcases drops with ⟨netOps, insane⟩ | ⟨enters, failed⟩ | ⟨sends, refuses⟩
  · rcases drvTxStart_cases view copy with ⟨out, -⟩ | ⟨-, value⟩ | ⟨⟨sane, -⟩, -⟩ |
      ⟨⟨-, sane, -⟩, -⟩ | ⟨⟨-, sane, -⟩, -⟩
    · rw [netOps] at out
      cases out
    · rw [value]
      simp [Ledger.run, Ledger.step]
    · exact absurd sane insane
    · exact absurd sane insane
    · exact absurd sane insane
  · have queued : ∃ error : Int, error < 0 ∧
        drvTxQueue view copy = ([.touch copy], copy, error) := by
      rcases drvTxQueue_cases view copy with ⟨-, value⟩ | ⟨carried, ⟨-, value⟩ |
        ⟨⟨asleep, -, connected⟩, -⟩ | ⟨⟨asleep, passes⟩, -⟩ | ⟨-, value⟩ |
        ⟨⟨awake, -, expanded⟩, -⟩ | ⟨⟨awake, large⟩, -⟩⟩
      · exact ⟨-4, by decide, value⟩
      · exact ⟨-5, by decide, value⟩
      · rcases failed with dropped | ⟨-, -, failed⟩ | ⟨awake, -⟩
        · exact absurd (dropped.symm.trans carried) (by decide)
        · exact absurd (failed.symm.trans connected) (by decide)
        · exact absurd awake asleep
      · rcases failed with dropped | ⟨-, waits, -⟩ | ⟨awake, -⟩
        · exact absurd (dropped.symm.trans carried) (by decide)
        · exact absurd (waits.symm.trans passes) (by decide)
        · exact absurd awake asleep
      · exact ⟨-5, by decide, value⟩
      · rcases failed with dropped | ⟨asleep, -⟩ | ⟨-, -, failed⟩
        · exact absurd (dropped.symm.trans carried) (by decide)
        · exact absurd awake asleep
        · exact absurd (failed.symm.trans expanded) (by decide)
      · rcases failed with dropped | ⟨asleep, -⟩ | ⟨-, small, -⟩
        · exact absurd (dropped.symm.trans carried) (by decide)
        · exact absurd awake asleep
        · exact absurd (small.symm.trans large) (by decide)
    obtain ⟨error, negative, value⟩ := queued
    obtain ⟨netOps, sane, unready, buffers⟩ := enters
    rcases drvTxStart_cases view copy with ⟨out, -⟩ | ⟨⟨-, insane⟩, -⟩ | ⟨⟨-, other⟩, -⟩ |
      ⟨⟨-, -, -, other⟩, -⟩ | ⟨-, started⟩
    · rw [netOps] at out
      cases out
    · exact absurd sane insane
    · exact absurd other unready
    · exact absurd other buffers
    · rw [started, value]
      dsimp only
      rw [if_pos negative]
      exact ⟨by simp [Ledger.run, Ledger.step], by omega⟩
  · have fares := drvTxStart_sends sends copy
    have refused := drvSend_refuses refuses (view.sent copy)
    dsimp only at fares
    rw [if_pos refused.2] at fares
    refine ⟨fares.1.trans (run_completes refused.1), ?_⟩
    rw [fares.2]
    omega

/-- Every other frame is settled, and the caller is told that it was taken. It is the driver's as
it was given unless the driver copied it or is through with it. -/
theorem drvTxStart_keeps {view : StartView} (found : ¬ view.Strands) (carried : ¬ view.Drops)
    (copy : Nat) :
    ∃ later, Ledger.run (.held copy) (drvTxStart view copy).1 = some later ∧ Settled later ∧
      (drvTxStart view copy).2 = 0 ∧
      (later = .accepted copy ↔ ¬ view.Overflows ∧ ¬ view.Copies ∧ ¬ view.Finishes) := by
  rcases drvTxStart_cases view copy with ⟨out, -⟩ | ⟨insane, -⟩ | ⟨unready, -⟩ |
    ⟨⟨-, -, -, buffers⟩, value⟩ | ⟨enters, value⟩
  · exact absurd (.inl out) found
  · exact absurd (.inl insane) carried
  · exact absurd (.inr (.inl unready)) found
  · rw [value]
    refine ⟨.accepted copy, by simp [Ledger.run, Ledger.step], trivial, rfl, fun _ => ?_,
      fun _ => rfl⟩
    exact ⟨fun overflows => overflows.1.2.2.2 buffers, fun copies => copies.1.1.2.2.2 buffers,
      fun finishes => finishes.1.1.2.2.2 buffers⟩
  · by_cases sends : view.Sends
    · have taken := drvSend_takes (fun refuses => carried (.inr (.inr ⟨sends, refuses⟩)))
        (fun loses => found (.inr (.inr ⟨sends, loses⟩))) (view.sent copy)
      have fares := drvTxStart_sends sends copy
      dsimp only at fares
      rw [taken.2, if_neg (by decide)] at fares
      refine ⟨_, fares.1.trans taken.1, ?_, fares.2, ?_⟩
      · cases view.send.finished with
        | true => trivial
        | false => trivial
      · have awake : ¬ view.Overflows := fun overflows => overflows.2.2.1 sends.2.2.1
        simp only [StartView.Copies, StartView.Finishes, StartView.sent, sends, awake]
        cases view.send.finished with
        | true => simp
        | false => cases view.needsRoom <;> simp
    · have unsent : ¬ view.Copies ∧ ¬ view.Finishes :=
        ⟨fun copies => sends copies.1, fun finishes => sends finishes.1⟩
      rw [value]
      rcases drvTxQueue_cases view copy with ⟨dropped, -⟩ | ⟨passes, ⟨failed, -⟩ |
        ⟨⟨asleep, waits, -⟩, queued⟩ | ⟨⟨asleep, through⟩, queued⟩ | ⟨failed, -⟩ |
        ⟨⟨awake, -, expanded⟩, -⟩ | ⟨⟨awake, large⟩, -⟩⟩
      · exact absurd (.inr (.inl ⟨enters, .inl dropped⟩)) carried
      · exact absurd (.inr (.inl ⟨enters, .inr (.inl failed)⟩)) carried
      · rw [queued]
        refine ⟨.accepted copy, by simp [Ledger.run, Ledger.step], trivial, rfl, fun _ => ?_,
          fun _ => rfl⟩
        refine ⟨fun overflows => ?_, unsent⟩
        exact absurd (waits.symm.trans overflows.2.2.2.1) (by decide)
      · rw [queued]
        cases full : view.pstxqueueFull with
        | true =>
          refine ⟨.completed, ?_, trivial, rfl, ⟨fun kept => ?_, fun calm => ?_⟩⟩
          · simp [wifiMacPwrsavePsqueueEnqueue, Ledger.run, Ledger.step]
          · cases kept
          · exact absurd ⟨enters, passes, asleep, through, full⟩ calm.1
        | false =>
          refine ⟨.accepted copy, ?_, trivial, rfl, fun _ => ⟨fun overflows => ?_, unsent⟩,
            fun _ => rfl⟩
          · simp [wifiMacPwrsavePsqueueEnqueue, Ledger.run, Ledger.step]
          · exact absurd (full.symm.trans overflows.2.2.2.2) (by decide)
      · exact absurd (.inr (.inl ⟨enters, .inr (.inr failed)⟩)) carried
      · exact absurd ⟨enters, passes, awake, fun _ => expanded⟩ sends
      · refine absurd ⟨enters, passes, awake, fun small => ?_⟩ sends
        exact absurd (small.symm.trans large) (by decide)

end Driver

section Lists

variable {books : Nat → Holding}

/-- The buffers of a list are held, each once, and nothing else is. -/
structure Carried (books : Nat → Holding) (list : List TxBuffer) : Prop where
  single : (list.map TxBuffer.frame).Nodup
  held : ∀ skbbuf ∈ list, books skbbuf.frame = .held skbbuf.copy
  settled : ∀ frame, frame ∉ list.map TxBuffer.frame → Settled (books frame)

/-- The rest of a list behind a first buffer that is settled. -/
theorem Carried.next {skbbuf : TxBuffer} {next : List TxBuffer} {holding : Holding}
    (carried : Carried books (skbbuf :: next)) (settled : Settled holding) :
    Carried (Function.update books skbbuf.frame holding) next := by
  have single := List.nodup_cons.mp carried.single
  refine ⟨single.2, fun other listed => ?_, fun frame unlisted => ?_⟩
  · rw [Function.update_of_ne]
    · exact carried.held other (.tail _ listed)
    · intro same
      exact single.1 (same ▸ List.mem_map_of_mem listed)
  · by_cases same : frame = skbbuf.frame
    · rw [same, Function.update_self]
      exact settled
    · rw [Function.update_of_ne same]
      refine carried.settled frame fun listed => ?_
      rcases List.mem_cons.mp listed with head | tail
      · exact same head
      · exact unlisted tail

/-- What is done to the first buffer of a list. -/
theorem Carried.runAll_act {skbbuf : TxBuffer} {next : List TxBuffer}
    (carried : Carried books (skbbuf :: next)) (actions : List Action) :
    runAll books (skbbuf.act actions) =
      (Ledger.run (.held skbbuf.copy) actions).map (Function.update books skbbuf.frame) := by
  rw [TxBuffer.act, Ledger.runAll_one, carried.held skbbuf (.head _)]

theorem lawful_completeAll {list : List TxBuffer} (carried : Carried books list) :
    Lawful books (completeAll list) := by
  induction list generalizing books with
  | nil => exact Ledger.lawful_nil.mpr fun frame => carried.settled frame List.not_mem_nil
  | cons skbbuf next induction =>
    rw [completeAll, List.flatMap_cons]
    have completed := carried.runAll_act [.complete skbbuf.copy]
    rw [show Ledger.run (.held skbbuf.copy) [.complete skbbuf.copy] = some .completed by
      simp [Ledger.run, Ledger.step]] at completed
    apply (Ledger.lawful_append completed).mpr
    exact induction (carried.next trivial)

theorem not_lawful_txSendBad {skbbuf : TxBuffer} {next : List TxBuffer}
    (carried : Carried books (skbbuf :: next)) :
    ¬ Lawful books (txSendBad (skbbuf :: next)) := by
  rw [txSendBad, List.flatMap_cons]
  apply Ledger.not_lawful_append
  rw [carried.runAll_act]
  simp [Ledger.run, Ledger.step]

theorem act_frame {skbbuf : TxBuffer} {actions : List Action} {event : Nat × Action}
    (listed : event ∈ skbbuf.act actions) : event.1 = skbbuf.frame := by
  obtain ⟨action, -, rfl⟩ := List.mem_map.mp listed
  rfl

/-- The actions on the buffers of a list are on the frames of the list. -/
theorem flatMap_frame {list : List TxBuffer} {actions : TxBuffer → List Action}
    {event : Nat × Action} (listed : event ∈ list.flatMap fun skbbuf => skbbuf.act (actions skbbuf)) :
    event.1 ∈ list.map TxBuffer.frame := by
  obtain ⟨skbbuf, member, acted⟩ := List.mem_flatMap.mp listed
  exact act_frame acted ▸ List.mem_map_of_mem member

private theorem txSendLoop_frame {info : Nat → InfoView} {start : Nat → StartView}
    {list : List TxBuffer} {event : Nat × Action}
    (listed : event ∈ txSendLoop info start list) : event.1 ∈ list.map TxBuffer.frame := by
  induction list with
  | nil => cases listed
  | cons skbbuf next induction =>
    rw [txSendLoop] at listed
    dsimp only at listed
    split at listed
    · rcases List.mem_append.mp listed with touched | bad
      · exact act_frame touched ▸ List.mem_cons_self
      · exact flatMap_frame bad
    · split at listed
      · rcases List.mem_append.mp listed with own | rest
        · rcases List.mem_append.mp own with touched | started
          · exact act_frame touched ▸ List.mem_cons_self
          · exact act_frame started ▸ List.mem_cons_self
        · exact .tail _ (flatMap_frame rest)
      · rcases List.mem_append.mp listed with own | rest
        · rcases List.mem_append.mp own with touched | started
          · exact act_frame touched ▸ List.mem_cons_self
          · exact act_frame started ▸ List.mem_cons_self
        · exact .tail _ (induction rest)

theorem wifiMacBuildTxinfo_iff (view : InfoView) :
    wifiMacBuildTxinfo view = 0 ↔ view.Builds := by
  unfold wifiMacBuildTxinfo wifiMacSecurityEncap InfoView.Builds
  cases view.typeKnown with
  | false => simp
  | true =>
    cases view.protect with
    | false => simp
    | true =>
      cases view.bPmf with
      | true => simp
      | false =>
        by_cases headroom : view.wmHeader ≤ view.hdrspace
        · cases view.cipherStays <;> simp [headroom]
        · cases view.cipherStays <;> simp [headroom]

/-- The first buffer of a list is settled by its actions, and the rest of the list follows. -/
theorem Carried.lawful_first {skbbuf : TxBuffer} {next : List TxBuffer} {actions : List Action}
    {holding : Holding} {rest : List (Nat × Action)} (carried : Carried books (skbbuf :: next))
    (ran : Ledger.run (.held skbbuf.copy) actions = some holding) :
    Lawful books (skbbuf.act actions ++ rest) ↔
      Lawful (Function.update books skbbuf.frame holding) rest := by
  apply Ledger.lawful_append
  rw [carried.runAll_act, ran]
  rfl

/-- A first buffer that its actions leave held is lost. -/
theorem Carried.not_lawful_first {skbbuf : TxBuffer} {next : List TxBuffer}
    {actions : List Action} {copy : Nat} {rest : List (Nat × Action)}
    (carried : Carried books (skbbuf :: next))
    (ran : Ledger.run (.held skbbuf.copy) actions = some (.held copy))
    (others : ∀ event ∈ rest, event.1 ∈ next.map TxBuffer.frame) :
    ¬ Lawful books (skbbuf.act actions ++ rest) := by
  rw [carried.lawful_first ran]
  have single := (List.nodup_cons.mp carried.single).1
  apply Ledger.not_lawful_of_held skbbuf.frame
  · intro event listed same
    exact single (same ▸ others event listed)
  · rw [Function.update_self]
    exact id

private theorem act_append (skbbuf : TxBuffer) (first second : List Action) :
    skbbuf.act first ++ skbbuf.act second = skbbuf.act (first ++ second) :=
  List.map_append.symm

/-- The loop of `wifi_mac_tx_send` keeps the buffers of a list exactly when they pass. -/
theorem lawful_txSendLoop (info : Nat → InfoView) (start : Nat → StartView)
    {list : List TxBuffer} (carried : Carried books list) :
    Lawful books (txSendLoop info start list) ↔
      Passes info start (list.map TxBuffer.frame) := by
  induction list generalizing books with
  | nil =>
    refine iff_of_true ?_ trivial
    exact Ledger.lawful_nil.mpr fun frame => carried.settled frame List.not_mem_nil
  | cons skbbuf next induction =>
    rw [txSendLoop, List.map_cons, Passes, ← wifiMacBuildTxinfo_iff]
    dsimp only
    have touched : Ledger.run (.held skbbuf.copy) [.touch skbbuf.copy] =
        some (.held skbbuf.copy) := by
      simp [Ledger.run, Ledger.step]
    split
    next fails =>
      refine iff_of_false ?_ fun passes => fails passes.1
      have kept : Carried (Function.update books skbbuf.frame (.held skbbuf.copy))
          (skbbuf :: next) := by
        rw [← carried.held skbbuf (.head _), Function.update_eq_self]
        exact carried
      rw [carried.lawful_first touched]
      exact not_lawful_txSendBad kept
    next builds =>
      rw [not_not] at builds
      rw [act_append, List.singleton_append]
      by_cases strands : (start skbbuf.frame).Strands
      · refine iff_of_false ?_ fun passes => passes.2.1 strands
        obtain ⟨left, ran⟩ := drvTxStart_strands strands skbbuf.copy
        have behind := (run_touch skbbuf.copy _).trans ran
        split
        next => exact carried.not_lawful_first behind fun event listed => flatMap_frame listed
        next => exact carried.not_lawful_first behind fun event listed => txSendLoop_frame listed
      · by_cases drops : (start skbbuf.frame).Drops
        · obtain ⟨ran, told⟩ := drvTxStart_drops drops skbbuf.copy
          refine iff_of_true ?_ ⟨builds, strands, fun kept => absurd drops kept⟩
          rw [if_pos told]
          apply (carried.lawful_first ((run_touch skbbuf.copy _).trans ran)).mpr
          exact lawful_completeAll (carried.next trivial)
        · obtain ⟨later, ran, settled, quiet, -⟩ := drvTxStart_keeps strands drops skbbuf.copy
          rw [if_neg (not_not_intro quiet)]
          rw [carried.lawful_first ((run_touch skbbuf.copy _).trans ran)]
          rw [induction (carried.next settled)]
          exact ⟨fun passes => ⟨builds, strands, fun _ => passes⟩, fun passes => passes.2.2 drops⟩

theorem allocFragments_eq (allocOk : Nat → Bool) (turns skbcnt : Nat) :
    allocFragments allocOk turns skbcnt = skbcnt + turns ↔
      ∀ count, skbcnt ≤ count → count < skbcnt + turns → allocOk count = true := by
  induction turns generalizing skbcnt with
  | zero =>
    refine iff_of_true rfl fun count above below => ?_
    omega
  | succ turns induction =>
    rw [allocFragments]
    split
    next allocated =>
      rw [show skbcnt + (turns + 1) = skbcnt + 1 + turns by omega, induction]
      constructor
      · intro every count above below
        rcases Nat.eq_or_lt_of_le above with same | higher
        · exact same ▸ allocated
        · exact every count higher below
      · intro every count above below
        exact every count (by omega) below
    next failed =>
      refine iff_of_false (by omega) fun every => failed ?_
      exact every skbcnt le_rfl (by omega)

theorem Carried.perm {list other : List TxBuffer} (carried : Carried books list)
    (same : list.Perm other) : Carried books other where
  single := (same.map _).nodup_iff.mp carried.single
  held skbbuf listed := carried.held skbbuf (same.mem_iff.mpr listed)
  settled frame unlisted :=
    carried.settled frame fun listed => unlisted ((same.map _).mem_iff.mp listed)

private theorem carried_giveAll {list base : List TxBuffer} (carried : Carried books base)
    (single : (list.map TxBuffer.frame).Nodup)
    (fresh : ∀ skbbuf ∈ list, books skbbuf.frame = .absent ∧ skbbuf.copy = 0) :
    ∃ later, runAll books (giveAll list) = some later ∧ Carried later (list ++ base) := by
  induction list generalizing books base with
  | nil => exact ⟨books, rfl, carried⟩
  | cons skbbuf next induction =>
    obtain ⟨absent, first⟩ := fresh skbbuf (.head _)
    have single := List.nodup_cons.mp single
    have unlisted : skbbuf.frame ∉ base.map TxBuffer.frame := by
      intro listed
      obtain ⟨other, member, same⟩ := List.mem_map.mp listed
      have held := carried.held other member
      rw [same, absent] at held
      cases held
    have joined : Carried (Function.update books skbbuf.frame (.held 0)) (skbbuf :: base) := by
      refine ⟨List.nodup_cons.mpr ⟨unlisted, carried.single⟩, ?_, ?_⟩
      · intro other listed
        rcases List.mem_cons.mp listed with rfl | listed
        · rw [Function.update_self, first]
        · rw [Function.update_of_ne]
          · exact carried.held other listed
          · exact fun same => unlisted (same ▸ List.mem_map_of_mem listed)
      · intro frame missing
        rw [List.map_cons, List.mem_cons, not_or] at missing
        rw [Function.update_of_ne missing.1]
        exact carried.settled frame missing.2
    have given : runAll books (skbbuf.act [.give]) =
        some (Function.update books skbbuf.frame (.held 0)) := by
      rw [TxBuffer.act, Ledger.runAll_one, absent]
      rfl
    obtain ⟨later, ran, held⟩ := induction joined single.2 fun other listed => by
      rw [Function.update_of_ne]
      · exact fresh other (.tail _ listed)
      · exact fun same => single.1 (same ▸ List.mem_map_of_mem listed)
    refine ⟨later, ?_, held.perm List.perm_middle⟩
    rw [giveAll, List.flatMap_cons, Ledger.runAll_append, given]
    exact ran

/-- Buffers that are held can be touched. -/
theorem runAll_touches {list : List TxBuffer}
    (held : ∀ skbbuf ∈ list, books skbbuf.frame = .held skbbuf.copy) :
    runAll books (list.flatMap fun skbbuf => skbbuf.act [.touch skbbuf.copy]) = some books := by
  induction list with
  | nil => rfl
  | cons skbbuf next induction =>
    have touched : runAll books (skbbuf.act [.touch skbbuf.copy]) = some books := by
      rw [TxBuffer.act, Ledger.runAll_one, held skbbuf (.head _)]
      simp only [Ledger.run, List.foldlM_cons, Ledger.step, ↓reduceIte, List.foldlM_nil]
      rw [← held skbbuf (.head _)]
      exact congrArg some (Function.update_eq_self _ _)
    rw [List.flatMap_cons, Ledger.runAll_append, touched]
    exact induction fun other listed => held other (.tail _ listed)

private theorem framelist_frame (skbcnt : Nat) :
    (framelist skbcnt).map TxBuffer.frame = (List.range' 1 (skbcnt - 1)).reverse := by
  rw [framelist, List.map_map]
  exact List.map_id _

/-- The books while the frame is the only buffer. -/
def lone (copy : Nat) : Nat → Holding := Function.update (fun _ => .absent) 0 (.held copy)

theorem carried_lone (copy : Nat) : Carried (lone copy) [⟨0, copy⟩] := by
  refine ⟨by simp, fun skbbuf listed => ?_, fun frame other => ?_⟩
  · obtain rfl := List.mem_singleton.mp listed
    exact Function.update_self 0 _ _
  · have other : frame ≠ 0 := fun same => other (List.mem_singleton.mpr same)
    rw [lone, Function.update_of_ne other]
    trivial

theorem lawful_encapBad {list : List TxBuffer} {skb : TxBuffer}
    (carried : Carried books (list ++ [skb])) : Lawful books (encapBad list skb) := by
  have same : encapBad list skb = completeAll (list ++ [skb]) := by
    rw [encapBad, completeAll, completeAll, List.flatMap_append, List.flatMap_singleton]
  rw [same]
  exact lawful_completeAll carried

/-- The fragments are there when all allocations succeed, which are then as many as are needed. -/
theorem allocated_iff (view : EncapView) :
    (((if view.fragments then
        allocFragments view.env.allocOk (view.fragcnt - 1).toNat 1 else 1 : Nat) : Int) =
      view.fragcnt) ↔ (view.fragments = true → view.Allocates) := by
  split
  next fragments =>
    simp only [fragments, true_implies, EncapView.Allocates]
    by_cases positive : 1 ≤ view.fragcnt
    · have counted : view.fragcnt = ((1 + (view.fragcnt - 1).toNat : Nat) : Int) := by omega
      have every := allocFragments_eq view.env.allocOk (view.fragcnt - 1).toNat 1
      constructor
      · intro same
        refine ⟨positive, fun skbcnt above below => every.mp (by omega) skbcnt above (by omega)⟩
      · intro allocates
        have last := every.mpr fun count above below => allocates.2 count above (by omega)
        omega
    · refine iff_of_false ?_ fun allocates => positive allocates.1
      have none : (view.fragcnt - 1).toNat = 0 := by omega
      rw [none, allocFragments]
      omega
  next whole =>
    refine iff_of_true ?_ fun fragments => absurd fragments whole
    rw [EncapView.fragcnt, if_neg whole]
    rfl

/-- `wifi_mac_encap` behind the header keeps what it holds: it sends the frame and the fragments,
or frees all of them. -/
theorem encapBody_keeps (view : EncapView) (copy : Nat) :
    view.Fills ∧ (∃ later, runAll (lone copy) (encapBody view ⟨0, copy⟩).1 = some later ∧
        Carried later (encapBody view ⟨0, copy⟩).2 ∧
        (encapBody view ⟨0, copy⟩).2.map TxBuffer.frame =
          0 :: (List.range' 1 (view.fragcnt.toNat - 1)).reverse) ∨
      ¬ view.Fills ∧ (encapBody view ⟨0, copy⟩).2 = [] ∧
        Lawful (lone copy) (encapBody view ⟨0, copy⟩).1 := by
  have touched : runAll (lone copy) (TxBuffer.act ⟨0, copy⟩ [.touch copy]) =
      some (lone copy) := by
    have touches := runAll_touches (carried_lone copy).held
    rwa [List.flatMap_singleton] at touches
  unfold encapBody
  dsimp only
  split
  next noCipher =>
    rw [Bool.and_eq_true, beq_iff_eq] at noCipher
    refine .inr ⟨fun fills => (fills.1 noCipher.1).1 noCipher.2, rfl, ?_⟩
    apply (Ledger.lawful_append touched).mpr
    exact lawful_encapBad (carried_lone copy)
  next cipher =>
    rw [Bool.and_eq_true, beq_iff_eq, not_and] at cipher
    have allocated := allocated_iff view
    generalize (if view.fragments then
        allocFragments view.env.allocOk (view.fragcnt - 1).toNat 1 else 1) = skbcnt at *
    have single : ((framelist skbcnt).map TxBuffer.frame).Nodup := by
      rw [framelist_frame, List.nodup_reverse]
      exact List.nodup_range'
    obtain ⟨later, given, carried⟩ := carried_giveAll (carried_lone copy) single fun skbbuf listed => by
      obtain ⟨frame, member, rfl⟩ := List.mem_map.mp listed
      have positive : frame ≠ 0 := by
        rw [List.mem_reverse, List.mem_range'_1] at member
        omega
      exact ⟨Function.update_of_ne positive _ _, rfl⟩
    have begun : runAll (lone copy) (TxBuffer.act ⟨0, copy⟩ [.touch copy] ++
        giveAll (framelist skbcnt)) = some later := by
      rw [Ledger.runAll_append, touched]
      exact given
    split
    next short =>
      refine .inr ⟨fun fills => short (allocated.mpr fun fragments => (fills.1 fragments).2),
        rfl, ?_⟩
      apply (Ledger.lawful_append begun).mpr
      exact lawful_encapBad carried
    next counted =>
      rw [not_not] at counted
      split
      next unsigned =>
        refine .inr ⟨fun fills => ?_, rfl, ?_⟩
        · simp only [Bool.and_eq_true, Bool.not_eq_true', Option.isSome_iff_ne_none] at unsigned
          have signed := fills.2 unsigned.1.1 unsigned.1.2
          rw [unsigned.2] at signed
          cases signed
        · apply (Ledger.lawful_append begun).mpr
          exact lawful_encapBad carried
      next signed =>
        refine .inl ⟨⟨fun fragments => ⟨cipher fragments, allocated.mp counted fragments⟩,
          fun key protect => ?_⟩, later, ?_, ?_, ?_⟩
        · simp only [Bool.and_eq_true, Bool.not_eq_true', Option.isSome_iff_ne_none] at signed
          simpa [key, protect] using signed
        · rw [Ledger.runAll_append, begun]
          refine runAll_touches fun skbbuf listed => carried.held skbbuf ?_
          exact List.mem_append_left _ listed
        · exact carried.perm (List.perm_append_singleton _ _)
        · rw [List.map_cons, framelist_frame, ← counted, Int.toNat_natCast]

theorem run_touch_iff (holding later : Holding) (copy : Nat) :
    Ledger.run holding [.touch copy] = some later ↔
      later = holding ∧ (holding = .held copy ∨ holding = .accepted copy) := by
  cases holding with
  | absent => simp [Ledger.run, Ledger.step]
  | held place =>
    by_cases same : copy = place
    · simp [Ledger.run, Ledger.step, same, eq_comm]
    · simp [Ledger.run, Ledger.step, same, Ne.symm same]
  | accepted place =>
    by_cases same : copy = place
    · simp [Ledger.run, Ledger.step, same, eq_comm]
    · simp [Ledger.run, Ledger.step, same, Ne.symm same]
  | completed => simp [Ledger.run, Ledger.step]

theorem lawful_lone (actions : List Action) :
    Lawful (lone 0) (TxBuffer.act ⟨0, 0⟩ actions) ↔
      ∃ later, Ledger.run (.held 0) actions = some later ∧ Settled later := by
  have ran := (carried_lone 0).runAll_act actions
  constructor
  · rintro ⟨later, all, settled⟩
    rw [ran] at all
    obtain ⟨holding, own, rfl⟩ := Option.map_eq_some_iff.mp all
    have last := settled 0
    rw [Function.update_self] at last
    exact ⟨holding, own, last⟩
  · rintro ⟨holding, own, settled⟩
    rw [own] at ran
    refine ⟨_, ran, fun frame => ?_⟩
    exact ((carried_lone 0).next settled).settled frame List.not_mem_nil

theorem lawful_freed : Lawful (lone 0) (TxBuffer.act ⟨0, 0⟩ [.touch 0, .complete 0]) := by
  apply (lawful_lone _).mpr
  exact ⟨.completed, by simp [Ledger.run, Ledger.step], trivial⟩

/-- What is done before the header: the frame is there, perhaps as a copy, or it is freed. -/
theorem encapHeader_cases (view : EncapView) :
    (∃ copy, ∃ moved, runAll (lone 0) moved = some (lone copy) ∧
      (¬ view.Sends ∧ wifiMacEncap view = (moved ++ encapBad [] ⟨0, copy⟩, []) ∨
        (view.Sends ↔ view.Fills) ∧ wifiMacEncap view =
          (moved ++ (encapBody view ⟨0, copy⟩).1, (encapBody view ⟨0, copy⟩).2))) ∨
      ¬ view.Sends ∧ wifiMacEncap view = (TxBuffer.act ⟨0, 0⟩ [.touch 0, .complete 0], []) := by
  unfold wifiMacEncap
  dsimp only
  split
  next stuck =>
    refine .inr ⟨fun sends => ?_, rfl⟩
    rw [Bool.and_eq_true, Bool.not_eq_true', Bool.not_eq_true'] at stuck
    rcases sends.1 with room | expanded
    · exact absurd (room.symm.trans stuck.1) (by decide)
    · exact absurd (expanded.symm.trans stuck.2) (by decide)
  next fits =>
    have roomy : view.room = true ∨ view.copyExpanded = true := by
      cases room : view.room with
      | true => exact .inl rfl
      | false => exact .inr (by simpa [room] using fits)
    obtain ⟨copy, moved, ran, parts⟩ : ∃ copy moved,
        runAll (lone 0) moved = some (lone copy) ∧
          (if view.room then (TxBuffer.act ⟨0, 0⟩ [.touch 0], (⟨0, 0⟩ : TxBuffer))
            else (TxBuffer.act ⟨0, 0⟩ [.touch 0, .replace 0], ⟨0, 1⟩)) = (moved, ⟨0, copy⟩) := by
      cases view.room with
      | true =>
        refine ⟨0, _, ?_, rfl⟩
        have touches := runAll_touches (carried_lone 0).held
        rwa [List.flatMap_singleton] at touches
      | false =>
        refine ⟨1, _, ?_, rfl⟩
        rw [(carried_lone 0).runAll_act, run_touch, run_replace]
        exact congrArg some (Function.update_idem _ _ _)
    refine .inl ⟨copy, moved, ran, ?_⟩
    rw [parts]
    dsimp only
    split
    next homeless =>
      refine .inl ⟨fun sends => ?_, rfl⟩
      simp only [Bool.and_eq_true, Bool.not_eq_true', beq_iff_eq] at homeless
      obtain ⟨⟨plain, ibss⟩, alone⟩ := homeless
      rcases sends.2.1 with four | ⟨-, -, main⟩
      · exact absurd (four.symm.trans plain) (by decide)
      · exact absurd ((main ibss).symm.trans alone) (by decide)
    next homed =>
      split
      next noHeader =>
        refine .inl ⟨fun sends => ?_, rfl⟩
        simp only [EncapView.noHeader, Bool.and_eq_true, Bool.not_eq_true', Bool.or_eq_true,
          beq_iff_eq] at noHeader
        rcases sends.2.1 with four | ⟨monitor, p2p, -⟩
        · exact absurd (four.symm.trans noHeader.1) (by decide)
        · rcases noHeader.2 with same | same
          · exact monitor same
          · exact p2p same
      next header =>
        refine .inr ⟨⟨fun sends => sends.2.2, fun fills => ⟨roomy, ?_, fills⟩⟩, rfl⟩
        simp only [EncapView.noHeader, Bool.and_eq_true, Bool.not_eq_true', Bool.or_eq_true,
          beq_iff_eq] at header homed
        cases four : view.use4addr with
        | true => exact .inl rfl
        | false =>
          refine .inr ⟨fun same => header ⟨four, .inl same⟩, fun same => header ⟨four, .inr same⟩,
            fun ibss => ?_⟩
          cases main : view.mainsta with
          | true => rfl
          | false => exact absurd ⟨⟨four, ibss⟩, main⟩ homed

private theorem wifiMacEncap_keeps (view : EncapView) :
    view.Sends ∧ (∃ later, runAll (lone 0) (wifiMacEncap view).1 = some later ∧
        Carried later (wifiMacEncap view).2 ∧
        (wifiMacEncap view).2.map TxBuffer.frame =
          0 :: (List.range' 1 (view.fragcnt.toNat - 1)).reverse) ∨
      ¬ view.Sends ∧ (wifiMacEncap view).2 = [] ∧
        Lawful (lone 0) (wifiMacEncap view).1 := by
  rcases encapHeader_cases view with ⟨copy, moved, ran, ⟨refused, value⟩ | ⟨same, value⟩⟩ |
    ⟨refused, value⟩
  · rw [value]
    refine .inr ⟨refused, rfl, ?_⟩
    apply (Ledger.lawful_append ran).mpr
    exact lawful_encapBad (carried_lone copy)
  · rw [value, same]
    dsimp only
    rw [Ledger.runAll_append, ran, Ledger.lawful_append ran]
    exact encapBody_keeps view copy
  · rw [value]
    exact .inr ⟨refused, rfl, lawful_freed⟩

theorem lawful_give (rest : List (Nat × Action)) :
    Lawful (fun _ => .absent) ((0, .give) :: rest) ↔ Lawful (lone 0) rest := by
  have given : runAll (fun _ => .absent) [((0 : Nat), Action.give)] = some (lone 0) := rfl
  exact Ledger.lawful_append given

end Lists

private theorem lawful_wifiMacTxSend (view : TxSendView) :
    Lawful (fun _ => .absent) ((0, .give) :: wifiMacTxSend view) ↔ view.Sound := by
  have touched : Ledger.run (.held 0) [.touch 0] = some (.held 0) := by
    simp [Ledger.run, Ledger.step]
  rw [lawful_give]
  unfold wifiMacTxSend TxSendView.Sound
  dsimp only
  split
  next unknown =>
    refine iff_of_true lawful_freed fun encaps => ?_
    simp [encaps.1] at unknown
  next nsta =>
    split
    next unknown =>
      refine iff_of_true lawful_freed fun encaps => ?_
      simp [encaps.2.1] at unknown
    next drvOps =>
      split
      next unknown =>
        refine iff_of_true lawful_freed fun encaps => ?_
        simp [encaps.2.2.1] at unknown
      next txinfo =>
        split
        next aggregated =>
          refine iff_of_true ?_ fun encaps => ?_
          · apply (lawful_lone _).mpr
            exact ⟨.accepted 0, by simp [Ledger.run, Ledger.step], trivial⟩
          · refine absurd ?_ encaps.2.2.2
            simpa [and_assoc] using aggregated
        next single =>
          have encaps : view.Encaps := by
            refine ⟨by simpa using nsta, by simpa using drvOps, by simpa using txinfo,
              fun aggregated => single ?_⟩
            simpa [and_assoc] using aggregated
          have kept : Function.update (lone 0) 0 (.held 0) = lone 0 :=
            Function.update_idem _ _ _
          rw [List.append_assoc, (carried_lone 0).lawful_first touched, kept]
          rcases wifiMacEncap_keeps view.encap with ⟨sends, later, ran, carried, frames⟩ |
            ⟨refused, empty, freed⟩
          · rw [Ledger.lawful_append ran, lawful_txSendLoop view.info view.start carried, frames]
            exact ⟨fun passes _ _ => passes, fun sound => sound encaps sends⟩
          · rw [empty, txSendLoop, List.append_nil]
            exact iff_of_true freed fun _ sends => absurd sends refused

private theorem lawful_wifiMacTxMgmtFrm (view : TxMgmtView) :
    Lawful (fun _ => .absent) ((0, .give) :: wifiMacTxMgmtFrm view) ↔ view.Sound := by
  rw [lawful_give]
  unfold wifiMacTxMgmtFrm TxMgmtView.Sound
  dsimp only
  split
  next rfTest =>
    refine iff_of_true ?_ fun starts => ?_
    · apply (lawful_lone _).mpr
      exact ⟨.completed, by simp [Ledger.run, Ledger.step], trivial⟩
    · exact absurd (rfTest.symm.trans starts.1) (by decide)
  next online =>
    split
    next unsigned =>
      refine iff_of_true lawful_freed fun starts => ?_
      simp only [Bool.and_eq_true, Bool.not_eq_true'] at unsigned
      exact absurd (((starts.2.1 unsigned.1.1).1 unsigned.1.2).symm.trans unsigned.2) (by decide)
    next signed =>
      split
      next plain =>
        refine iff_of_true lawful_freed fun starts => ?_
        simp only [Bool.and_eq_true, Bool.not_eq_true'] at plain
        exact absurd ((starts.2.1 plain.1).2.symm.trans plain.2) (by decide)
      next encrypted =>
        split
        next fails =>
          refine iff_of_true lawful_freed fun starts => ?_
          exact absurd ((wifiMacBuildTxinfo_iff view.info).mpr starts.2.2) fails
        next builds =>
          rw [not_not] at builds
          have starts : view.Starts := by
            refine ⟨by simpa using online, fun protect => ⟨fun multicast => ?_, ?_⟩,
              (wifiMacBuildTxinfo_iff view.info).mp builds⟩
            · simpa [protect, multicast] using signed
            · simpa [protect] using encrypted
          rw [lawful_lone, Ledger.run_append, run_touch]
          by_cases strands : view.start.Strands
          · refine iff_of_false ?_ fun sound => (sound starts).1 strands
            obtain ⟨left, ran⟩ := drvTxStart_strands strands 0
            rw [ran, Option.bind_some]
            rintro ⟨later, printed, settled⟩
            split at printed
            · rw [((run_touch_iff _ _ _).mp printed).1] at settled
              exact settled
            · split at printed
              · rw [((run_touch_iff _ _ _).mp printed).1] at settled
                exact settled
              · cases printed
                exact settled
          · by_cases drops : view.start.Drops
            · refine iff_of_false ?_ fun sound => (sound starts).2.1 drops
              obtain ⟨ran, told⟩ := drvTxStart_drops drops 0
              rw [ran, if_pos told]
              rintro ⟨later, printed, -⟩
              cases printed
            · obtain ⟨later, ran, settled, quiet, own⟩ := drvTxStart_keeps strands drops 0
              rw [ran, if_neg (not_not_intro quiet), Option.bind_some]
              cases debug : view.debug with
              | false =>
                refine iff_of_true ⟨later, rfl, settled⟩ fun _ => ⟨strands, drops, fun told => ?_⟩
                cases told
              | true =>
                rw [if_pos rfl]
                constructor
                · rintro ⟨last, printed, -⟩ _
                  refine ⟨strands, drops, fun _ => own.mp ?_⟩
                  rcases ((run_touch_iff _ _ _).mp printed).2 with same | same
                  · rw [same] at settled
                    exact settled.elim
                  · exact same
                · intro sound
                  have same := own.mpr ((sound starts).2.2 rfl)
                  exact ⟨later, (run_touch_iff _ _ _).mpr ⟨rfl, .inr same⟩, settled⟩

/-- Every buffer that is given down, and every fragment that is made of it, ends with the driver or
is completed, once, and is not touched behind its end: for an MSDU and for a management frame this
holds exactly when what is found on the way is sound. -/
theorem upper_tx_iff (msdu : TxSendView) (mgmt : TxMgmtView) :
    (Lawful (fun _ => .absent) ((0, .give) :: wifiMacTxSend msdu) ↔ msdu.Sound) ∧
      (Lawful (fun _ => .absent) ((0, .give) :: wifiMacTxMgmtFrm mgmt) ↔ mgmt.Sound) :=
  ⟨lawful_wifiMacTxSend msdu, lawful_wifiMacTxMgmtFrm mgmt⟩

/-- A frame that nothing stops. -/
def openStart : StartView where
  netOps := true
  sta := true
  txinfo := true
  ptxdesc := true
  tidIndex := 0
  wnetVif := true
  vmWmac := true
  vmOpmode := .sta
  recoveryStat := wifinetRecoveryVifUp
  drvSta := true
  bDatapkt := true
  bNulldata := false
  bMcast := false
  bEap := false
  aggrAllowed := true
  tidTxBuffSending := false
  drvPktDrop := false
  pwrSavBypass := false
  uapsd := false
  psQueue := false
  ps4quiet := false
  probereq := false
  connected := true
  nodePwrMgt := false
  pstxqueueFull := false
  headerRoom := 200
  tailRoom := 64
  aligned := true
  copyExpanded := true
  send :=
    { txinfo := true, staDrvSta := true, tidIndex := 0, queueId := 1, txqueueSetup := true,
      prepared := true, bUapsd := false, qosData := true, bAmpdu := false, txlistQnum := 1,
      pendingFuse := true, bMcast := false, ps := false, finished := false,
      normal :=
        { isMotherChannel := true, probereq := false, halBufferFull := false, backupQcnt := 0,
          hal := { netNsta := true, staWnetVif := true, queueMatches := true,
                   halBufferFull := false, halOps := true } } }

/-- An unprotected frame of a known type. -/
def openInfo : InfoView where
  protect := false
  bPmf := false
  defaultKey := false
  vmDefTxkey := false
  cipher := false
  wmEncap := false
  hdrspace := 64
  wmHeader := 0
  encapped := false
  cipherStays := true
  typeKnown := true

/-- An MSDU that is sent in three fragments. -/
def threeFragments (info : Nat → InfoView) (start : Nat → StartView) : TxSendView where
  nsta := true
  drvOps := true
  txinfo := true
  special := false
  amsduSupported := false
  amsduTakes := false
  encap :=
    { room := true, copyExpanded := true, use4addr := false, vmOpmode := .sta, mainsta := true,
      pktlen := 600, hdrsizeNopad := 26, multicast := false, enmicOk := true,
      env :=
        { vmFragthreshold := 256, key := none, protect := false, isAmsdu := false,
          allocOk := fun _ => true } }
  info := info
  start := start

example : (runAll (fun _ => .absent) ((0, .give) :: wifiMacTxSend
    (threeFragments (fun _ => openInfo) fun _ => openStart))).map
      (fun books => [books 0, books 1, books 2]) =
    some [.accepted 0, .accepted 0, .accepted 0] := by decide

/-- The firmware goes down before the second of three fragments, which is then on no queue and not
freed; a key is gone, and the buffer that is freed for it is read once more; a management frame that
the driver dropped is read for the message about it. -/
theorem upper_tx_strands :
    ¬ Lawful (fun _ => .absent) ((0, .give) :: wifiMacTxSend (threeFragments (fun _ => openInfo)
        fun frame => if frame = 2 then { openStart with recoveryStat := 1 } else openStart)) ∧
      ¬ Lawful (fun _ => .absent) ((0, .give) :: wifiMacTxSend (threeFragments
        (fun _ => { openInfo with protect := true }) fun _ => openStart)) ∧
      ¬ Lawful (fun _ => .absent) ((0, .give) :: wifiMacTxMgmtFrm
        { rfTest := false, protect := false, multicast := false, mmieOk := false,
          encryptOk := false, info := openInfo, start := { openStart with drvPktDrop := true },
          debug := false }) := by
  refine ⟨?_, ?_, ?_⟩
  · rintro ⟨later, ran, settled⟩
    have stranded : (runAll (fun _ => .absent) ((0, .give) :: wifiMacTxSend
        (threeFragments (fun _ => openInfo) fun frame =>
          if frame = 2 then { openStart with recoveryStat := 1 } else openStart))).map (· 2) =
        some (.held 0) := by decide
    rw [ran, Option.map_some, Option.some.injEq] at stranded
    have lost := settled 2
    rw [stranded] at lost
    exact lost
  · rintro ⟨later, ran, -⟩
    have touched : (runAll (fun _ => .absent) ((0, .give) :: wifiMacTxSend (threeFragments
        (fun _ => { openInfo with protect := true }) fun _ => openStart))).isNone = true := by
      decide
    rw [ran] at touched
    cases touched
  · rintro ⟨later, ran, -⟩
    have touched : (runAll (fun _ => .absent) ((0, .give) :: wifiMacTxMgmtFrm
        { rfTest := false, protect := false, multicast := false, mmieOk := false,
          encryptOk := false, info := openInfo, start := { openStart with drvPktDrop := true },
          debug := false })).isNone = true := by decide
    rw [ran] at touched
    cases touched

end W522a.Handover
