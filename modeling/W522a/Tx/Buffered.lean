import W522a.Lib.Batches
import W522a.Lib.Run
import W522a.Tx.Store

/-!
The queues of U-APSD stations, behind a full HAL and for multicast: a list of descriptors with a
counter beside it. A unit is a chain of descriptors, added and sent as one. The functions that give
up the lock between their turns go on from what they have of their own.
-/

namespace W522a.Tx.Buffered

open Store (HalAnswer)

@[simp] abbrev wmeUapsdNodeMaxqdepth : UInt8 := 8

abbrev wifinetQosEosp : UInt8 := 0x10

abbrev wifinetFc1MoreData : UInt8 := 0x20

/-- `struct wifi_qos_frame`: what the service periods read and write. -/
structure WifiQosFrame where
  iFc0 : UInt8
  iFc1 : UInt8
  iQos0 : UInt8
  deriving DecidableEq, Repr

/-- A buffer with its frame, and the interface of `cb->sta` where there is one. -/
structure SkBuff where
  cbVif : Option Nat
  frame : WifiQosFrame
  deriving DecidableEq, Repr

/-- A frame on its way to a queue. -/
structure BufFrame (Sta : Type) where
  wnetVifId : Nat
  drvSta : Sta
  skbbuf : SkBuff
  deriving DecidableEq, Repr

/-- `struct drv_txdesc` on a queue, known by its address. -/
structure BufDesc (Sta : Type) where
  address : Nat
  wnetVifId : Nat
  txdescSta : Sta
  txdescMpdu : Option SkBuff
  txdescQueueLast : Option Nat
  deriving DecidableEq, Repr

/-- What a turn meets in the HAL; `nearlyFull` answers for more than one frame. -/
structure TurnAnswer extends HalAnswer where
  nearlyFull : Bool

variable {Sta : Type}

/-- What a turn of a service period writes to the frame of `lastbf`. -/
structure Mark where
  lastbf : Nat
  eosp : Bool
  noMoreData : Bool
  deriving DecidableEq, Repr

/-- A queue and its counter, the lists that the HAL has taken from it, the descriptors that were
completed, and the marks that were written. -/
structure BufferQueue (Sta : Type) where
  txdescList : List (BufDesc Sta)
  qcnt : Int
  toHal : List (List (BufDesc Sta))
  completed : List (BufDesc Sta)
  marks : List Mark
  deriving DecidableEq, Repr

/-- What a function has of its own between two turns. -/
inductive Walk (Sta : Type) where
  | send (started : Bool) (txQueue : List (BufDesc Sta))
  | trigger (flush : Bool) (count : Nat) (eospFlag : Bool) (txQueue : List (BufDesc Sta))
  | drain (vid : Nat) (notFree : List (BufDesc Sta))
  deriving DecidableEq, Repr

/-- The descriptors of a unit, at the addresses from `first` on: `txdesc_queue_last` of the first is
the last one. -/
def chain (first : Nat) (frames : List (BufFrame Sta)) : List (BufDesc Sta) :=
  frames.mapIdx fun index frame =>
    { address := first + index
      wnetVifId := frame.wnetVifId
      txdescSta := frame.drvSta
      txdescMpdu := some frame.skbbuf
      txdescQueueLast := some (first + if index = 0 then frames.length - 1 else index) }

/-- `list_cut_position`: the list through a descriptor and the rest, or nothing when the descriptor
is not on the list. -/
def listCutPosition (entry : Nat) :
    List (BufDesc Sta) → Option (List (BufDesc Sta) × List (BufDesc Sta))
  | [] => none
  | ptxdesc :: rest =>
    if ptxdesc.address = entry then some ([ptxdesc], rest)
    else
      match listCutPosition entry rest with
      | none => none
      | some (cut, left) => some (ptxdesc :: cut, left)

/-- The unit through a descriptor is cut off, and counted off. -/
def takeUnit (lastbf : Nat) (queue : BufferQueue Sta) :
    Option (List (BufDesc Sta) × BufferQueue Sta) :=
  match listCutPosition lastbf queue.txdescList with
  | none => none
  | some (unit, left) => some (unit, { queue with txdescList := left, qcnt := queue.qcnt - 1 })

/-- `drv_to_hal` of a local list that a unit is put on. What it refuses stays on the list, and the
units behind are refused with it: the list is then longer than its first descriptor says. -/
def drvToHal (accepts : Bool) (txQueue unit : List (BufDesc Sta)) (queue : BufferQueue Sta) :
    List (BufDesc Sta) × BufferQueue Sta :=
  if accepts && txQueue.isEmpty then ([], { queue with toHal := queue.toHal ++ [unit] })
  else (txQueue ++ unit, queue)

def drvTxdescListQueue (unit : List (BufDesc Sta)) (queue : BufferQueue Sta) : BufferQueue Sta :=
  if unit.isEmpty then queue
  else { queue with txdescList := queue.txdescList ++ unit, qcnt := queue.qcnt + 1 }

section Send

/-- A turn of `drv_txdesc_list_send`, with the condition of its loop in front. -/
def sendTurn (answer : TurnAnswer) (started : Bool) (txQueue : List (BufDesc Sta))
    (queue : BufferQueue Sta) : Option (Option (Walk Sta) × BufferQueue Sta) :=
  if started && !(decide (0 < queue.qcnt) && !queue.txdescList.isEmpty) then some (none, queue)
  else
    match queue.txdescList with
    | [] => some (none, queue)
    | ptxdesc :: _ =>
      if answer.bufferFull then some (none, queue)
      else
        match ptxdesc.txdescQueueLast with
        | none => some (none, queue)
        | some lastbf =>
          match takeUnit lastbf queue with
          | none => none
          | some (unit, taken) =>
            let handed := drvToHal answer.accepts txQueue unit taken
            some (some (.send true handed.1), handed.2)

/-- Whether `drv_tx_mcastq_send` takes a descriptor, and nothing when it has no buffer. -/
def mcastReady (vmPsSta : Nat → Nat) (ptxdesc : BufDesc Sta) : Option Bool :=
  match ptxdesc.txdescMpdu with
  | none => none
  | some skbbuf =>
    match skbbuf.cbVif with
    | none => some false
    | some vif => some (vmPsSta vif == 0)

/-- The loop of `drv_tx_mcastq_send` behind the descriptors that it has passed. -/
def mcastqLoop (vmPsSta : Nat → Nat) (answers : Nat → TurnAnswer) :
    Nat → List (BufDesc Sta) → List (BufDesc Sta) → List (BufDesc Sta) → BufferQueue Sta →
      Option (BufferQueue Sta)
  | _, _, passed, [], queue => some { queue with txdescList := passed }
  | turn, txQueue, passed, ptxdesc :: rest, queue =>
    match mcastReady vmPsSta ptxdesc with
    | none => none
    | some ready =>
      if ready && queue.qcnt != 0 then
        if (answers turn).bufferFull then
          some { queue with txdescList := passed ++ ptxdesc :: rest }
        else
          let handed := drvToHal (answers turn).accepts txQueue [ptxdesc]
            { queue with qcnt := queue.qcnt - 1 }
          if 0 < handed.2.qcnt then
            mcastqLoop vmPsSta answers (turn + 1) handed.1 passed rest handed.2
          else some { handed.2 with txdescList := passed ++ rest }
      else if 0 < queue.qcnt then
        mcastqLoop vmPsSta answers turn txQueue (passed ++ [ptxdesc]) rest queue
      else some { queue with txdescList := passed ++ ptxdesc :: rest }

def drvTxMcastqSend (vmPsSta : Nat → Nat) (answers : Nat → TurnAnswer) (queue : BufferQueue Sta) :
    Option (BufferQueue Sta) :=
  if queue.qcnt = 0 || queue.txdescList.isEmpty then some queue
  else mcastqLoop vmPsSta answers 0 [] [] queue.txdescList queue

end Send

section Trigger

/-- The frame of `lastbf` with a mark. -/
def WifiQosFrame.write (mark : Mark) (whqos : WifiQosFrame) : WifiQosFrame :=
  { whqos with
    iQos0 := if mark.eosp then whqos.iQos0 ||| wifinetQosEosp else whqos.iQos0
    iFc1 := if mark.noMoreData then whqos.iFc1 &&& ~~~wifinetFc1MoreData else whqos.iFc1 }

def markLast (mark : Mark) (unit : List (BufDesc Sta)) : List (BufDesc Sta) :=
  unit.map fun ptxdesc =>
    if ptxdesc.address = mark.lastbf then
      { ptxdesc with
        txdescMpdu := ptxdesc.txdescMpdu.map fun skbbuf =>
          { skbbuf with frame := skbbuf.frame.write mark } }
    else ptxdesc

/-- `txn_real`, an unsigned char. -/
def txnReal (maxsp : UInt8) (uapsdQqcnt : Int) : Nat :=
  if maxsp == wmeUapsdNodeMaxqdepth then (uapsdQqcnt % 256).toNat
  else if uapsdQqcnt < maxsp.toNat then (uapsdQqcnt % 256).toNat
  else maxsp.toNat

/-- `drv_process_uapsd_nsta_trigger` before its loop: `txn_real`, when it comes to the loop. -/
def triggerStart (bufferFull : Bool) (maxsp : UInt8) (queue : BufferQueue Sta) : Option Nat :=
  if queue.qcnt = 0 || bufferFull then none else some (txnReal maxsp queue.qcnt)

/-- A turn of the loop of `drv_process_uapsd_nsta_trigger`. -/
def triggerTurn (answer : TurnAnswer) (flush : Bool) (count : Nat) (eospFlag : Bool)
    (txQueue : List (BufDesc Sta)) (queue : BufferQueue Sta) :
    Option (Option (Walk Sta) × BufferQueue Sta) :=
  if count = 0 || eospFlag then some (none, queue)
  else
    match queue.txdescList with
    | [] => some (none, queue)
    | ptxdesc :: _ =>
      if answer.bufferFull then some (none, queue)
      else
        match ptxdesc.txdescQueueLast with
        | none => some (none, queue)
        | some lastbf =>
          match takeUnit lastbf queue with
          | none => none
          | some (unit, taken) =>
            if unit.any fun member => member.address == lastbf && member.txdescMpdu.isNone then
              some (none, queue)
            else
              -- `UAPSD_BRN + 1` frames more must have room behind any but the last of `count`
              let eosp := !flush && (count == 1 || answer.nearlyFull)
              let mark : Mark := ⟨lastbf, eosp, taken.qcnt == 0⟩
              let handed := drvToHal answer.accepts txQueue (markLast mark unit)
                { taken with marks := taken.marks ++ [mark] }
              some (some (.trigger flush (count - 1) eosp handed.1), handed.2)

end Trigger

section Drain

/-- Whether a descriptor belongs to the interface. -/
def ofVid (vid : Nat) (ptxdesc : BufDesc Sta) : Bool := ptxdesc.wnetVifId == vid || vid == 3

/-- `drv_txdesc_list_drain` until it gives up the lock, and the completion that follows: the
descriptors of other interfaces wait on a list of its own, which is put back at the end. -/
def drainTurn (vid : Nat) (notFree : List (BufDesc Sta)) (queue : BufferQueue Sta) :
    Option (Walk Sta) × BufferQueue Sta :=
  let skipped := notFree ++ queue.txdescList.takeWhile (!ofVid vid ·)
  match queue.txdescList.dropWhile (!ofVid vid ·) with
  | [] => (none, { queue with txdescList := skipped })
  | ptxdesc :: rest =>
    (some (.drain vid skipped),
      { queue with
        txdescList := rest
        qcnt := queue.qcnt - 1
        completed := queue.completed ++ [ptxdesc] })

/-- `drv_txdesc_list_cleanup` of a descriptor that the caller's walk is at. -/
def drvTxdescListCleanup (ptxdesc : BufDesc Sta) (queue : BufferQueue Sta) : BufferQueue Sta :=
  { queue with qcnt := queue.qcnt - 1, completed := queue.completed ++ [ptxdesc] }

variable [DecidableEq Sta]

/-- The walk of `drv_txq_backup_cleanup` behind the descriptors that it has passed. -/
def cleanupLoop (drvSta : Sta) :
    List (BufDesc Sta) → List (BufDesc Sta) → BufferQueue Sta → BufferQueue Sta
  | passed, [], queue => { queue with txdescList := passed }
  | passed, ptxdesc :: rest, queue =>
    if ptxdesc.txdescSta = drvSta then
      cleanupLoop drvSta passed rest (drvTxdescListCleanup ptxdesc queue)
    else cleanupLoop drvSta (passed ++ [ptxdesc]) rest queue

def drvTxqBackupCleanup (drvSta : Sta) (queue : BufferQueue Sta) : BufferQueue Sta :=
  cleanupLoop drvSta [] queue.txdescList queue

end Drain

/-- A queue with the functions that are at work on it. `units` are the addresses of each unit that
was added, and `nextAddress` is that of the next descriptor. -/
structure BufferState (Sta : Type) where
  queue : BufferQueue Sta
  units : List (List Nat)
  nextAddress : Nat
  walks : List (Walk Sta)
  deriving DecidableEq, Repr

def drvTxdescListInit : BufferState Sta := ⟨⟨[], 0, [], [], []⟩, [], 0, []⟩

/-- What happens to a queue. A function that gives up the lock begins, and then takes its turns. -/
inductive BufferEvent (Sta : Type) where
  | add (frames : List (BufFrame Sta))
  | send
  | drain (vid : Nat)
  | trigger (staIsuapsd bufferFull : Bool) (maxsp : UInt8) (flush : Bool)
  | turn (index : Nat) (answer : TurnAnswer)
  | mcastqSend (vmPsSta : Nat → Nat) (answers : Nat → TurnAnswer)
  | cleanup (drvSta : Sta)

/-- A turn of a function at work, with what it goes on from when it is not at its end. -/
def walkTurn (answer : TurnAnswer) (walk : Walk Sta) (queue : BufferQueue Sta) :
    Option (Option (Walk Sta) × BufferQueue Sta) :=
  match walk with
  | .send started txQueue => sendTurn answer started txQueue queue
  | .trigger flush count eospFlag txQueue => triggerTurn answer flush count eospFlag txQueue queue
  | .drain vid notFree => some (drainTurn vid notFree queue)

/-- The place of a function at work is taken by what it goes on from. -/
def advance (index : Nat) (walks : List (Walk Sta)) : Option (Walk Sta) → List (Walk Sta)
  | none => walks.eraseIdx index
  | some walk => walks.set index walk

variable [DecidableEq Sta]

/-- The state after an event, where no pointer leads outside the list. -/
def bufferStep (state : BufferState Sta) : BufferEvent Sta → Option (BufferState Sta)
  | .add frames =>
    let unit := chain state.nextAddress frames
    some { state with
      queue := drvTxdescListQueue unit state.queue
      units := if unit.isEmpty then state.units else state.units ++ [unit.map (·.address)]
      nextAddress := state.nextAddress + frames.length }
  | .send =>
    if state.queue.qcnt = 0 then some state
    else some { state with walks := state.walks ++ [.send false []] }
  | .drain vid =>
    if state.queue.qcnt = 0 then some state
    else some { state with walks := state.walks ++ [.drain vid []] }
  | .trigger staIsuapsd bufferFull maxsp flush =>
    if !staIsuapsd then some state
    else
      match triggerStart bufferFull maxsp state.queue with
      | none => some state
      | some count => some { state with walks := state.walks ++ [.trigger flush count false []] }
  | .turn index answer =>
    match state.walks[index]? with
    | none => some state
    | some walk =>
      match walkTurn answer walk state.queue with
      | none => none
      | some (next, queue) =>
        some { state with queue := queue, walks := advance index state.walks next }
  | .mcastqSend vmPsSta answers =>
    match drvTxMcastqSend vmPsSta answers state.queue with
    | none => none
    | some queue => some { state with queue := queue }
  | .cleanup drvSta => some { state with queue := drvTxqBackupCleanup drvSta state.queue }

end W522a.Tx.Buffered
