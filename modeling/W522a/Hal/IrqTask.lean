import W522a.Hal.Scatter

/-!
The interrupt task of the host interface: a status word of the firmware, and the loop that drains
what came behind it. A status word is an observation, together with what the other threads and the
firmware show until the next one is read.
-/

namespace W522a.Hal

open Memory (Traced emit)

/-- `rxmax_offset`, the 224 RX pages of the chip -/
@[simp] abbrev rxmaxOffset : Nat := 224 * 512

@[simp] abbrev rxFifoSize : Nat := 4 * 224 * 512

@[simp] abbrev readLenPerOnce : Nat := 64 * 1024

@[simp] abbrev readBufferableLen : Nat := 8 * 1024

@[simp] abbrev func6Blksize : Nat := 512

def circleSubtract2 (a b l : Nat) : Nat := if b < a then a - b else l + a - b

/-- The bits of the status word. -/
inductive IrqBit where
  | txErrorIrq | rxErrorIrq | rxOk | txOk | beaconSendOkVid0 | beaconSendOkVid1 | gotoWakeupVid0
  | gotoWakeupVid1 | p2pOpppsCwendVid0 | p2pOpppsCwendVid1 | fwEvent | p2pNoAStartVid1
  | beaconRecvOkVid0 | beaconRecvOkVid1 | beaconMissVid0 | beaconMissVid1
  deriving DecidableEq

def hasBit (status : Nat) (bit : IrqBit) : Bool := status.testBit bit.ctorIdx

/-- `FW_RX_PTR_MASK` and `FW_RX_PTR_OFFSET`: the RX pointer in a status word, in words -/
def fwRxPtr (status : Nat) : Nat := status / 2 ^ 16 % 2 ^ 16

/-- A read of the status word, with what the task meets until the next one: `rx_fifo.FDH` and
`drv_suspend_cnt` as other threads leave them, the TX counters of the firmware, the free nodes for
TX statuses, what `host_wrapper_len` starts with, and whether `hal_tx_frame` returns before it
clears `need_scheduling_tx`. The firmware keeps its pointer within the RX pages. -/
structure IrqObs where
  status : Nat
  bhalOpen : Bool
  drvSuspendCnt : Int
  fdh : Nat
  txdoneframecounter : UInt8
  txpagecounter : UInt16
  freeNodes : Nat
  hostWrapperLen : Int
  txFrameReturns : Bool
  ring : fwRxPtr status * 4 < rxmaxOffset

/-- The parameters of the module, and `sdio_align_size` of function 6. -/
structure IrqConf where
  irqPollMaxIters : Int
  irqIdlePolls : Int
  rxDrainIterMax : Int
  idleGraceSkip : Int
  idleBreakOnRepeat : Int
  sdioAlignSize : Nat → Nat

/-- The fields of the task in `struct hal_private`, and `rx_fifo.FDT`. -/
structure IrqHal where
  psHostState : Nat
  wifiSdioAccess : Nat
  drvSuspendCnt : Int
  rxHostOffset : Nat
  fdt : Nat
  needSchedulingTx : Bool
  txPageFreeNum : Nat
  halTxPageDoneCounter : UInt16
  halTxFrameDoneCounter : UInt8
  deriving DecidableEq

/-- What the task does to the outside. `wrapped` is the copy from behind the end of the RX FIFO to
its start, `received` and `published` are new values of `rx_host_offset` and of `rx_fifo.FDT`,
`completion` the TX status in a slot with whether a node takes it, and `notice` a call for another
bit. -/
inductive IrqEvent where
  | unmask
  | notice (bit : IrqBit)
  | rcvFrame (fifo offset len : Nat)
  | wrapped (len : Nat)
  | received (offset : Nat)
  | published (fdt : Nat)
  | completion (slot : Nat) (queued : Bool)
  | txFrame
  | clear
  deriving DecidableEq

/-- `clamp_t(int, ..)` -/
def clampInt (value low high : Int) : Nat := (max low (min value high)).toNat

/-- `clamp_t(unsigned int, ..)` of an `int` -/
def clampUnsigned (value : Int) (low high : Nat) : Nat :=
  max low (min (value % 2 ^ 32).toNat high)

/-- The lengths of a read: `read_len` as it is asked of the chip, `host_wrapper_len`, and what of it
the read counts too. -/
def rxReadLens (conf : IrqConf) (hostWrapperLen : Int) (rxFifoFdt remainLen : Nat) :
    Nat × Int × Nat :=
  let readLen := if readLenPerOnce + readBufferableLen < remainLen then readLenPerOnce
    else remainLen
  let hostRemainLen := rxFifoSize - rxFifoFdt
  -- without a wrap the length is what the last read left, and at first what the stack held
  if hostRemainLen ≤ readLen then
    let hostWrapperLen : Int := (conf.sdioAlignSize hostRemainLen : Int) - hostRemainLen
    (hostRemainLen, hostWrapperLen, min hostWrapperLen.toNat (remainLen - hostRemainLen))
  else (readLen, hostWrapperLen, min hostWrapperLen.toNat (remainLen - readLen))

/-- The copy of what a read counts too. -/
def copyWrapped (extra : Nat) : Traced IrqEvent Unit :=
  if extra = 0 then pure () else emit (.wrapped extra)

/-- The loop of `hi_soft_rx_irq` that reads `remain_len` bytes from the chip: the new
`rx_host_offset`, and what is left if `fuel` reads are not enough. -/
def rxReads (conf : IrqConf) : Nat → Int → Nat → Nat → Nat → Traced IrqEvent (Nat × Nat)
  | 0, _, _, rxHostOffset, remainLen => pure (rxHostOffset, remainLen)
  | fuel + 1, hostWrapperLen, rxFifoFdt, rxHostOffset, remainLen => do
    let (readLen, hostWrapperLen, extra) := rxReadLens conf hostWrapperLen rxFifoFdt remainLen
    emit (.rcvFrame rxFifoFdt rxHostOffset readLen)
    copyWrapped extra
    let rxHostOffset' := circleAddition2 rxHostOffset (readLen + extra) rxmaxOffset
    let left := remainLen - (readLen + extra)
    if left = 0 then pure (rxHostOffset', 0)
    else
      rxReads conf fuel (min hostWrapperLen 0)
        (circleAddition2 rxFifoFdt (readLen + extra) rxFifoSize) rxHostOffset' left

def fifoEmptySize (obs : IrqObs) (hal : IrqHal) : Nat := circleSubtract2 obs.fdh hal.fdt rxFifoSize

def rxTotalLen (obs : IrqObs) (hal : IrqHal) : Nat :=
  circleSubtract2 (fwRxPtr obs.status * 4) hal.rxHostOffset rxmaxOffset

/-- A pass of `hi_soft_rx_irq` that the RX FIFO has room for. -/
def rxPass (conf : IrqConf) (obs : IrqObs) (hal : IrqHal) : Traced IrqEvent IrqHal := do
  let total := rxTotalLen obs hal
  let (rxHostOffset, _) ← rxReads conf total obs.hostWrapperLen hal.fdt hal.rxHostOffset total
  emit (.received rxHostOffset)
  -- while the driver is suspended the bytes are given up
  if obs.drvSuspendCnt = 0 then
    let fdt := circleAddition2 hal.fdt total rxFifoSize
    emit (.published fdt)
    pure { hal with rxHostOffset, fdt }
  else pure { hal with rxHostOffset }

/-- `hi_soft_rx_irq` from `rx_drain_again` on: a pass for the last word that was read, and up to
`left` more for words that it reads itself. The result is the number of the next word. -/
def rxDrain (conf : IrqConf) (env : Nat → IrqObs) :
    Nat → Nat → IrqHal → Traced IrqEvent (IrqHal × Nat)
  | 0, index, hal =>
    if fifoEmptySize (env index) hal ≤ rxTotalLen (env index) hal + func6Blksize then
      pure (hal, index + 1)
    else do
      let hal ← rxPass conf (env index) hal
      pure (hal, index + 1)
  | left + 1, index, hal =>
    if fifoEmptySize (env index) hal ≤ rxTotalLen (env index) hal + func6Blksize then
      pure (hal, index + 1)
    else do
      let hal ← rxPass conf (env index) hal
      if fwRxPtr (env (index + 1)).status * 4 ≠ hal.rxHostOffset then
        rxDrain conf env left (index + 1) hal
      else pure (hal, index + 2)

/-- `hi_soft_rx_irq` for the word that was read at `index` -/
def hiSoftRxIrq (conf : IrqConf) (env : Nat → IrqObs) (index : Nat) (hal : IrqHal) :
    Traced IrqEvent (IrqHal × Nat) :=
  if hal.rxHostOffset = fwRxPtr (env index).status * 4 ∨ !(env index).bhalOpen then
    pure (hal, index + 1)
  else rxDrain conf env (clampUnsigned conf.rxDrainIterMax 1 64) index hal

/-- The loop of `hi_soft_tx_irq`: the counter, and the number of frames. -/
def txReaps (done : UInt8) : Nat → Nat → UInt8 → Traced IrqEvent (UInt8 × Nat)
  | 0, _, counter => pure (counter, 0)
  | fuel + 1, freeNodes, counter =>
    if done = counter then pure (counter, 0)
    else do
      emit (.completion (counter.toNat % 128) (decide (freeNodes ≠ 0)))
      let (last, reaped) ← txReaps done fuel (freeNodes - 1) (counter + 1)
      pure (last, reaped + 1)

def hiSoftTxIrq (obs : IrqObs) (hal : IrqHal) : Traced IrqEvent (IrqHal × Nat) := do
  let pages := (obs.txpagecounter - hal.halTxPageDoneCounter).toNat % 256
  let (halTxFrameDoneCounter, reaped) ←
    txReaps obs.txdoneframecounter 256 obs.freeNodes hal.halTxFrameDoneCounter
  pure ({ hal with
    txPageFreeNum := (hal.txPageFreeNum + pages) % 2 ^ 32
    halTxPageDoneCounter := obs.txpagecounter
    halTxFrameDoneCounter }, reaped)

def callTxFrame (obs : IrqObs) (hal : IrqHal) : Traced IrqEvent IrqHal := do
  emit .txFrame
  pure { hal with needSchedulingTx := obs.txFrameReturns && hal.needSchedulingTx }

/-- The calls of `hi_irq_task` for the other bits, before and after RX and TX. -/
def wakeNotices (status : Nat) : List IrqBit :=
  [.gotoWakeupVid1, .gotoWakeupVid0].filter (hasBit status)

def otherNotices (status : Nat) : List IrqBit :=
  (if hasBit status .beaconSendOkVid1 then [.beaconSendOkVid1]
    else [.beaconSendOkVid0].filter (hasBit status)) ++
  [.p2pOpppsCwendVid1, .p2pNoAStartVid1, .fwEvent, .beaconMissVid0, .beaconMissVid1,
    .beaconRecvOkVid1, .beaconRecvOkVid0].filter (hasBit status)

def probeRx (conf : IrqConf) (env : Nat → IrqObs) (index : Nat) (hal : IrqHal) :
    Traced IrqEvent (IrqHal × Nat) :=
  if hasBit (env index).status .rxOk ∧ fwRxPtr (env index).status * 4 ≠ hal.rxHostOffset then
    hiSoftRxIrq conf env index hal
  else pure (hal, index + 1)

/-- The TX work of a word: the state, and how many frames were reaped -/
def probeTx (obs : IrqObs) (hal : IrqHal) : Traced IrqEvent (IrqHal × Nat) :=
  if hasBit obs.status .txOk then hiSoftTxIrq obs hal else pure (hal, 0)

/-- The RX and TX work of a word in the loop: the state, the number of the next word, whether there
was work, and whether frames were reaped. -/
def drainProbe (conf : IrqConf) (env : Nat → IrqObs) (index : Nat) (hal : IrqHal) :
    Traced IrqEvent (IrqHal × Nat × Bool × Bool) := do
  let obs := env index
  let rx := hasBit obs.status .rxOk && decide (fwRxPtr obs.status * 4 ≠ hal.rxHostOffset)
  let (hal, next) ← probeRx conf env index hal
  let (hal, reaped) ← probeTx obs hal
  pure (hal, next, rx || decide (reaped ≠ 0), decide (reaped ≠ 0))

/-- The variables of the loop. -/
structure DrainState where
  hal : IrqHal
  index : Nat
  prevStatus : Nat
  idlePolls : Nat
  workSinceFlush : Nat
  deriving DecidableEq

@[simp] abbrev txFlushEvery : Nat := 4

def flushIf (due : Bool) (obs : IrqObs) (hal : IrqHal) : Traced IrqEvent IrqHal :=
  if due then callTxFrame obs hal else pure hal

/-- A turn of the loop up to its exits: the variables, and whether there was work. -/
def drainTurn (conf : IrqConf) (env : Nat → IrqObs) (drain : DrainState) :
    Traced IrqEvent (DrainState × Bool) := do
  let obs := env drain.index
  let (hal, next, didWork, txReaped) ← drainProbe conf env drain.index drain.hal
  if didWork then
    let hal := { hal with needSchedulingTx := true }
    let flush := txReaped || decide (txFlushEvery ≤ drain.workSinceFlush + 1)
    let hal ← flushIf flush obs hal
    pure ({ drain with
      hal
      index := next
      idlePolls := 0
      workSinceFlush := if flush then 0 else drain.workSinceFlush + 1 }, true)
  else
    let hal ← flushIf (decide (drain.workSinceFlush ≠ 0)) obs hal
    pure ({ drain with hal, index := next, workSinceFlush := 0 }, false)

/-- Why the loop ended. -/
inductive DrainExit where
  | bound | repeated | idle
  deriving DecidableEq

/-- A turn of the loop as it was taken. -/
structure DrainPass where
  obs : IrqObs
  before : IrqHal
  events : List IrqEvent
  after : IrqHal

/-- The loop, with the turns that `max_iters` leaves, and its passes. -/
def drainLoop (conf : IrqConf) (env : Nat → IrqObs) (breakOnRepeat : Bool) (maxIdlePolls : Nat) :
    Nat → DrainState → Traced DrainPass (DrainExit × DrainState)
  | 0, drain => pure (.bound, drain)
  | left + 1, drain => do
    let status := (env drain.index).status
    let turn := drainTurn conf env drain
    let (next, didWork) := turn.value
    emit ⟨env drain.index, drain.hal, turn.log, next.hal⟩
    if didWork then drainLoop conf env breakOnRepeat maxIdlePolls left next
    else if breakOnRepeat && decide (status = drain.prevStatus) then pure (.repeated, next)
    else
      let next := { next with prevStatus := status, idlePolls := drain.idlePolls + 1 }
      if maxIdlePolls ≤ next.idlePolls then pure (.idle, next)
      else drainLoop conf env breakOnRepeat maxIdlePolls left next

/-- What a run of the task did: its events before the loop, the passes of the loop and how it ended,
and its events behind. -/
structure IrqRun where
  entry : List IrqEvent
  passes : List DrainPass
  ended : Option (DrainExit × DrainState)
  tail : List IrqEvent

/-- The RX work of the first word -/
def entryRx (conf : IrqConf) (env : Nat → IrqObs) (start : IrqHal) :
    Traced IrqEvent (IrqHal × Nat) :=
  if hasBit (env 0).status .rxOk then hiSoftRxIrq conf env 0 start else pure (start, 1)

/-- `need_scheduling_tx` behind the RX and TX work of the first word -/
def entryWanted (status : Nat) (start : IrqHal) : Bool :=
  start.needSchedulingTx || hasBit status .rxOk || hasBit status .txOk

/-- The work of the first word, with a flush if one is wanted. -/
def irqEntry (conf : IrqConf) (env : Nat → IrqObs) (start : IrqHal) :
    Traced IrqEvent (IrqHal × Nat) := do
  let obs := env 0
  (wakeNotices obs.status).forM fun bit => emit (.notice bit)
  let (hal, next) ← entryRx conf env start
  let (hal, _) ← probeTx obs hal
  let wanted := entryWanted obs.status start
  let hal ← flushIf wanted obs { hal with needSchedulingTx := wanted }
  (otherNotices obs.status).forM fun bit => emit (.notice bit)
  pure (hal, next)

def IrqConf.maxIters (conf : IrqConf) : Nat := clampUnsigned conf.irqPollMaxIters 1 4096

/-- `max_idle_polls`, which is 1 behind a word without RX and TX -/
def IrqConf.maxIdlePolls (conf : IrqConf) (status : Nat) : Nat :=
  if conf.idleGraceSkip ≠ 0 ∧ !hasBit status .rxOk ∧ !hasBit status .txOk then 1
  else clampInt conf.irqIdlePolls 1 64

def hiIrqTask (conf : IrqConf) (env : Nat → IrqObs) (start : IrqHal) : IrqRun :=
  if start.psHostState = 3 ∨ start.wifiSdioAccess = 0 ∨ start.drvSuspendCnt ≠ 0 then
    ⟨[], [], none, [.unmask]⟩
  else
    let status := (env 0).status
    let entry := irqEntry conf env start
    if hasBit status .txErrorIrq ∨ hasBit status .rxErrorIrq then ⟨entry.log, [], none, [.clear]⟩
    else
      let drained := drainLoop conf env (decide (conf.idleBreakOnRepeat ≠ 0))
        (conf.maxIdlePolls status) conf.maxIters ⟨entry.value.1, entry.value.2, status, 0, 0⟩
      let last := drained.value.2
      let flushed := flushIf (decide (last.workSinceFlush ≠ 0)) (env (last.index - 1)) last.hal
      ⟨entry.log, drained.log, some drained.value, flushed.log ++ [.clear]⟩

/-- Everything that a run did, in order. -/
def IrqRun.events (run : IrqRun) : List IrqEvent :=
  run.entry ++ run.passes.flatMap DrainPass.events ++ run.tail

end W522a.Hal
