import W522a.Hal.TxId

/-!
The flush of an interface. Every queue is rotated: what was made is set, what is set is completed
when it belongs to the interface and made again when it does not.
-/

namespace W522a.Hal

structure QueueFlush where
  fifo : SharedFifo FwTxdescFifo
  ids : TxIds

/-- The frame belongs to the interface; 3 stands for every interface. -/
def flushMine (vid : Nat) (elt : FwTxdescFifo) : Bool := elt.vid == vid || vid == 3

/-- The first loop of `hal_tx_flush`; the elements of the ring bound its turns. -/
def flushMake (vid : Nat) : Nat → QueueFlush → QueueFlush
  | 0, state => state
  | fuel + 1, state =>
    if !coSharedFifoEmpty state.fifo .make then state
    else
      match coSharedFifoGet state.fifo .make 1 with
      | (none, _) => state
      | (some ptr, fifo) =>
        if flushMine vid (fifo.elts ptr) then
          flushMake vid fuel ⟨coSharedFifoPut fifo .make 1, state.ids⟩
        else
          match halAllocTxId state.ids (fifo.elts ptr) with
          -- the loop is left between the get and the put
          | (none, ids) => ⟨fifo, ids⟩
          | (some id, ids) =>
            let elt := { fifo.elts ptr with hostcallbackid := id }
            flushMake vid fuel ⟨coSharedFifoPut (fifo.write ptr elt) .make 1, ids⟩

/-- A frame that is flushed: its id is freed, and it is handed up as sent. -/
def flushElt (ids : TxIds) (elt : FwTxdescFifo) : TxIds :=
  let (freed, ids) := halFreeTxId ids elt.hostcallbackid
  intrTxHandle ids elt.callback ((freed.map TxFrameDesc.txqueueid).getD 0)

/-- The second loop of `hal_tx_flush`, with `remain_eltptr`. -/
def flushSet (vid : Nat) : Nat → QueueFlush → List Nat → QueueFlush × List Nat
  | 0, state, remain => (state, remain)
  | fuel + 1, state, remain =>
    if !coSharedFifoEmpty state.fifo .set then (state, remain)
    else
      match coSharedFifoGet state.fifo .set 1 with
      | (none, _) => (state, remain)
      | (some ptr, fifo) =>
        if flushMine vid (fifo.elts ptr) then
          flushSet vid fuel ⟨coSharedFifoPut fifo .set 1, flushElt state.ids (fifo.elts ptr)⟩ remain
        else flushSet vid fuel ⟨coSharedFifoPut fifo .set 1, state.ids⟩ (remain ++ [ptr])

/-- A turn of the third loop of `hal_tx_flush`: copy a remaining element to a free one. -/
def flushRemain (fifo : SharedFifo FwTxdescFifo) (remain : Nat) : SharedFifo FwTxdescFifo :=
  match coSharedFifoGet fifo .get 1 with
  | (none, fifo) => fifo
  | (some ptr, fifo) => coSharedFifoPut (fifo.write ptr (fifo.elts remain)) .get 1

/-- The second and the third loop of `hal_tx_flush`. -/
def flushRest (vid : Nat) (state : QueueFlush) : QueueFlush :=
  let (passed, remain) := flushSet vid state.fifo.eltNbr state []
  ⟨remain.foldl flushRemain passed.fifo, passed.ids⟩

def flushQueue (vid : Nat) (state : QueueFlush) : QueueFlush :=
  flushRest vid (flushMake vid state.fifo.eltNbr state)

def flushAt (vid : Nat) (hal : HalTx) (queue : Nat) : HalTx :=
  let flushed := flushQueue vid ⟨hal.txdsTristaFifo queue, hal.ids⟩
  ⟨Function.update hal.txdsTristaFifo queue flushed.fifo, flushed.ids⟩

def halTxFlush (vid : Nat) (hal : HalTx) : HalTx :=
  let start := { hal with ids := { hal.ids with bhaltxdrop := !halIsEmptyTxId hal.ids } }
  let flushed := (List.range halNumTxQueues).foldl (flushAt vid) start
  { flushed with ids := { flushed.ids with bhaltxdrop := false } }

end W522a.Hal
