import W522a.Hal.SharedFifo

/-!
The transmit fifos, and the transmit ids: the bitmap of the ids in use, and the frame and queue that
each was allocated for.
-/

namespace W522a.Hal

@[simp] abbrev wifiMaxTxframe : Nat := 128

@[simp] abbrev halNumTxQueues : Nat := 8

/-- An element of a transmit fifo with what the code reads of its descriptor. The callback is the
address of the upper layer's descriptor. -/
structure FwTxdescFifo where
  callback : Nat
  txqueueid : Nat
  vid : Nat
  hostcallbackid : Nat
  aggrNum : Nat
  aggrPageNum : Nat
  pageNum : Nat
  tid : Nat
  deriving DecidableEq, Repr

structure TxFrameDesc where
  callback : Nat
  txqueueid : Nat
  deriving DecidableEq, Repr

inductive IdChange where
  | alloc (id : Nat)
  | free (id : Nat)
  deriving DecidableEq, Repr

/-- The ids of `hal_private` and the frames freed of each queue, with a record of every change of the
bitmap and of every frame handed to `intr_tx_handle` with the queue id it was given. -/
structure TxIds where
  txFramesMap : Nat → Bool
  txFrames : Nat → TxFrameDesc
  bhaltxdrop : Bool
  txSendOkEventNum : Nat → Nat
  changes : List IdChange
  handled : List (Nat × Nat)

def halIsEmptyTxId (ids : TxIds) : Bool :=
  (List.range wifiMaxTxframe).all fun id => !ids.txFramesMap id

/-- `hal_alloc_tx_id`; no id is `TXID_INVALID`. -/
def halAllocTxId (ids : TxIds) (elt : FwTxdescFifo) : Option Nat × TxIds :=
  match (List.range wifiMaxTxframe).find? fun id => !ids.txFramesMap id with
  | none => (none, ids)
  | some id =>
    (some id, { ids with
      txFramesMap := Function.update ids.txFramesMap id true
      txFrames := Function.update ids.txFrames id ⟨elt.callback, elt.txqueueid⟩
      changes := ids.changes ++ [.alloc id] })

/-- The drop mark goes when the last id is freed. -/
def clearDrop (ids : TxIds) : TxIds :=
  { ids with bhaltxdrop := ids.bhaltxdrop && !halIsEmptyTxId ids }

/-- The bits and counters that `hal_free_tx_id` writes for an id in use. -/
def clearId (ids : TxIds) (id : Nat) : TxIds :=
  let queue := (ids.txFrames id).txqueueid
  clearDrop { ids with
    txFramesMap := Function.update ids.txFramesMap id false
    txSendOkEventNum := Function.update ids.txSendOkEventNum queue (ids.txSendOkEventNum queue + 1)
    changes := ids.changes ++ [.free id] }

/-- `hal_free_tx_id`: the callback and the queue id of the freed id, which stay 0 when it fails. -/
def halFreeTxId (ids : TxIds) (callbackid : Nat) : Option TxFrameDesc × TxIds :=
  if wifiMaxTxframe ≤ callbackid then (none, ids)
  else if ids.txFramesMap callbackid then
    (some (ids.txFrames callbackid), clearId ids callbackid)
  else (none, ids)

def intrTxHandle (ids : TxIds) (callback queueId : Nat) : TxIds :=
  { ids with handled := ids.handled ++ [(callback, queueId)] }

/-- The transmit fifos and the ids of `hal_private`. -/
structure HalTx where
  txdsTristaFifo : Nat → SharedFifo FwTxdescFifo
  ids : TxIds

/-- The fifo part of `hal_fill_agg_start` and of `hal_fill_priv`: fill a free element. -/
def halFill (fifo : SharedFifo FwTxdescFifo) (elt : FwTxdescFifo) : SharedFifo FwTxdescFifo :=
  match coSharedFifoGet fifo .get 1 with
  | (none, fifo) => fifo
  | (some ptr, fifo) => coSharedFifoPut (fifo.write ptr elt) .get 1

namespace TxIds

variable (ids : TxIds)

def Busy (id : Nat) : Prop := id < wifiMaxTxframe ∧ ids.txFramesMap id = true

instance (id : Nat) : Decidable (ids.Busy id) :=
  inferInstanceAs (Decidable (id < wifiMaxTxframe ∧ ids.txFramesMap id = true))

/-- The frame holds the id it carries: the id was allocated for it and is in use. -/
def Holds (elt : FwTxdescFifo) : Prop :=
  ids.Busy elt.hostcallbackid ∧ (ids.txFrames elt.hostcallbackid).callback = elt.callback

end TxIds

section Spec

variable {ids : TxIds} {id : Nat} {elt : FwTxdescFifo}

theorem halFreeTxId_busy (busy : ids.Busy id) :
    halFreeTxId ids id = (some (ids.txFrames id), clearId ids id) := by
  rw [halFreeTxId, if_neg (Nat.not_le.mpr busy.1), if_pos busy.2]

theorem halFreeTxId_idle (idle : ¬ ids.Busy id) : halFreeTxId ids id = (none, ids) := by
  rw [halFreeTxId]
  by_cases large : wifiMaxTxframe ≤ id
  · rw [if_pos large]
  · rw [if_neg large, if_neg]
    intro used
    exact idle ⟨Nat.not_le.mp large, used⟩

theorem halAllocTxId_some {ids' : TxIds} (taken : halAllocTxId ids elt = (some id, ids')) :
    id < wifiMaxTxframe ∧ ¬ ids.Busy id ∧ ids' = { ids with
      txFramesMap := Function.update ids.txFramesMap id true
      txFrames := Function.update ids.txFrames id ⟨elt.callback, elt.txqueueid⟩
      changes := ids.changes ++ [.alloc id] } := by
  unfold halAllocTxId at taken
  split at taken
  · cases taken
  · rename_i found search
    cases taken
    have free := List.find?_some search
    have inside := List.mem_range.mp (List.mem_of_find?_eq_some search)
    refine ⟨inside, ?_, rfl⟩
    rintro ⟨-, busy⟩
    rw [busy] at free
    cases free

theorem halAllocTxId_none {ids' : TxIds} (failed : halAllocTxId ids elt = (none, ids')) :
    ids' = ids ∧ ∀ id, id < wifiMaxTxframe → ids.Busy id := by
  unfold halAllocTxId at failed
  split at failed
  · rename_i search
    cases failed
    refine ⟨rfl, fun id inside => ⟨inside, ?_⟩⟩
    have used := List.find?_eq_none.mp search id (List.mem_range.mpr inside)
    simpa using used
  · cases failed

end Spec

end W522a.Hal
