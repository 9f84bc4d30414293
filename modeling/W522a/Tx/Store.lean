import W522a.Tx.Lists

/-!
The buffers of the driver around its lists: the frames put off while an interface is away from its
channel, the backup lists behind a full HAL (the list for multicast frames holds those of power
save as well), the frames of U-APSD stations, those the HAL has outside the aggregates, and those
to be sent again. What an attempt to submit meets in the HAL is part of the event.
-/

namespace W522a.Tx.Store

open Function (update)
open Tx.Lists (TidKey TxLists ListEnv focus load halNumTxQueues)

/-- The length of `drv_normal_buffer_queue`. -/
@[simp] abbrev normalBufferQueues : Nat := 2

abbrev halWmeUapsd : Fin halNumTxQueues := 6

abbrev halWmeMcast : Fin halNumTxQueues := 7

variable {Sta : Type}

/-- The list of an identifier, among all lists. -/
def queue (key : TidKey Sta) : Fin halNumTxQueues :=
  ⟨key.queueId, by
    unfold TidKey.queueId Lists.AcKey.queueId
    cases key.ac.ac <;> decide⟩

/-- A frame outside the aggregates, with its identifier and its list. -/
structure Entry (Sta : Type) where
  key : TidKey Sta
  queue : Fin halNumTxQueues
  probeReq : Bool
  ptxdesc : TxDesc

/-- `txdesc_sta` is cleared. -/
def Entry.orphan (entry : Entry Sta) : Entry Sta := { entry with ptxdesc := entry.ptxdesc.orphan }

/-- What an attempt to submit a frame meets: `aml_tx_hal_buffer_full`, and what `drv_to_hal`
then does with the frame. -/
structure HalAnswer where
  bufferFull : Bool
  accepts : Bool

/-- The buffers of `drv_priv`. `txlistQ` are the frames of `txlist_q` that no aggregate has; those
of the aggregates are in `lists`. `vif` is the interface of a station, `saved` stands for the
queues of the layer above that a frame to be sent again may come back to, and `nextId` names the
next frame that is accepted. -/
structure TxStore (Sta : Type) where
  lists : TxLists Sta
  vif : Sta → Fin normalBufferQueues
  normalBuffer : Fin normalBufferQueues → List (Entry Sta)
  backup : Fin halNumTxQueues → List (Entry Sta)
  uapsdQueue : Sta → List (Entry Sta)
  txlistQ : Fin halNumTxQueues → List (Entry Sta)
  saved : List (Entry Sta)
  nextId : Nat

/-- What the functions read besides: `vmPsSta` says whether stations of an interface sleep. -/
structure StoreEnv (Sta : Type) extends ListEnv Sta where
  vmPsSta : Fin normalBufferQueues → Bool

/-- A function of the lists, among the buffers. -/
def onLists (work : TxLists Sta → TxLists Sta) (store : TxStore Sta) : TxStore Sta :=
  { store with lists := work store.lists }

section Submit

/-- What a loop over a list has sent, has taken off without sending it, and has left. -/
structure Handover (Sta : Type) where
  sent : List (Entry Sta)
  refused : List (Entry Sta)
  left : List (Entry Sta)

/-- The loops of `drv_txdesc_list_send` and `drv_tx_mcastq_send` over a list. `txQueue` is theirs:
a frame that `drv_to_hal` refuses stays on it, and the frames behind it are refused with it. -/
def handOver (ready : Entry Sta → Bool) (answers : Nat → HalAnswer) :
    Nat → List (Entry Sta) → List (Entry Sta) → Handover Sta
  | _, txQueue, [] => ⟨[], txQueue, []⟩
  | turn, txQueue, entry :: rest =>
    if !ready entry then
      let handed := handOver ready answers turn txQueue rest
      { handed with left := entry :: handed.left }
    else if (answers turn).bufferFull then ⟨[], txQueue, entry :: rest⟩
    else if (answers turn).accepts && txQueue.isEmpty then
      let handed := handOver ready answers (turn + 1) [] rest
      { handed with sent := entry :: handed.sent }
    else handOver ready answers (turn + 1) (txQueue ++ [entry]) rest

/-- Send from a backup list. Nothing keeps what `drv_to_hal` refuses. -/
def submitBackup (ready : Entry Sta → Bool) (answers : Nat → HalAnswer)
    (queue : Fin halNumTxQueues) (store : TxStore Sta) : TxStore Sta :=
  let handed := handOver ready answers 0 [] (store.backup queue)
  { store with
    backup := update store.backup queue handed.left
    txlistQ := update store.txlistQ queue (store.txlistQ queue ++ handed.sent) }

def drvTxqBackupSend (answers : Nat → HalAnswer) (queue : Fin halNumTxQueues) :
    TxStore Sta → TxStore Sta :=
  submitBackup (fun _ => true) answers queue

def drvTxMcastqSend (env : StoreEnv Sta) (answers : Nat → HalAnswer) (store : TxStore Sta) :
    TxStore Sta :=
  submitBackup (fun entry => !env.vmPsSta (store.vif entry.key.sta)) answers halWmeMcast store

def drvTxqBackupAddbuf (queue : Fin halNumTxQueues) (entry : Entry Sta) (store : TxStore Sta) :
    TxStore Sta :=
  { store with backup := update store.backup queue (store.backup queue ++ [entry]) }

/-- `drv_to_hal` of a single frame. -/
def drvToHal (accepts : Bool) (entry : Entry Sta) (store : TxStore Sta) : TxStore Sta :=
  if accepts then
    { store with txlistQ := update store.txlistQ entry.queue (store.txlistQ entry.queue ++ [entry]) }
  else store

/-- `drv_tx_normal`, which does not look at the result of `drv_to_hal`. -/
def drvTxNormal (env : StoreEnv Sta) (answers : Nat → HalAnswer) (entry : Entry Sta)
    (store : TxStore Sta) : TxStore Sta :=
  if !(env.sta entry.key.sta).motherChannel && !entry.probeReq then
    let vid := store.vif entry.key.sta
    { store with normalBuffer := update store.normalBuffer vid (store.normalBuffer vid ++ [entry]) }
  else if (answers 0).bufferFull then drvTxqBackupAddbuf entry.queue entry store
  else if !(store.backup entry.queue).isEmpty then
    drvTxqBackupSend (fun turn => answers (turn + 1)) entry.queue
      (drvTxqBackupAddbuf entry.queue entry store)
  else
    drvToHal (answers 0).accepts
      { entry with ptxdesc := { entry.ptxdesc with bAmpdu := false, pktnum := 1 } } store

/-- `drv_tx_normal` of each frame that a function of an identifier has given to it. -/
def drvTxNormals (env : StoreEnv Sta) (answers : Nat → Nat → HalAnswer) (key : TidKey Sta) :
    Nat → List NormalDesc → TxStore Sta → TxStore Sta
  | _, [], store => store
  | turn, ptxdesc :: rest, store =>
    drvTxNormals env answers key (turn + 1) rest
      (drvTxNormal env (answers turn) ⟨key, queue key, false, ptxdesc.1⟩ store)

variable [DecidableEq Sta]

/-- What waits in `normal` of an identifier goes its way. -/
def deliver (env : StoreEnv Sta) (answers : Nat → Nat → HalAnswer) (key : TidKey Sta)
    (store : TxStore Sta) : TxStore Sta :=
  let tid := store.lists.tid key
  drvTxNormals env answers key 0 tid.normal
    (onLists (fun lists => { lists with tid := update lists.tid key { tid with normal := [] } })
      store)

/-- What decides the way of a frame besides its identifier: its list, and whether it is a probe
request, a QoS data frame for a U-APSD station, or a multicast frame while stations sleep. -/
structure Route where
  queue : Fin halNumTxQueues
  probeReq : Bool
  uapsd : Bool
  mcastPs : Bool

def drvSend (env : StoreEnv Sta) (turns : Nat → HalTurn) (answers : Nat → Nat → HalAnswer)
    (key : TidKey Sta) (route : Route) (request : TxRequest) (store : TxStore Sta) : TxStore Sta :=
  let ptxdesc := (drvTxPrepare request (load key store.lists)).1
  let entry : Entry Sta := ⟨key, route.queue, route.probeReq, ptxdesc⟩
  let store := onLists (focus (fun tid => (drvTxPrepare request tid).2) key) store
  if route.uapsd then
    { store with
      uapsdQueue := update store.uapsdQueue key.sta (store.uapsdQueue key.sta ++ [entry]) }
  else if ptxdesc.bAmpdu then
    deliver env answers key
      (onLists (Lists.drvTxSendAmpdu env.toListEnv turns key ptxdesc) store)
  else if route.mcastPs then drvTxqBackupAddbuf halWmeMcast entry store
  else drvTxNormal env (answers 0) entry store

/-- `drv_process_uapsd_nsta_trigger`. `limit` is how many frames the service period takes: what
`maxsp` and the room for the frames behind leave. -/
def drvProcessUapsdNstaTrigger (answers : Nat → HalAnswer) (sta : Sta) (limit : Nat)
    (store : TxStore Sta) : TxStore Sta :=
  let waiting := store.uapsdQueue sta
  let handed := handOver (fun _ => true) answers 0 [] (waiting.take limit)
  { store with
    uapsdQueue := update store.uapsdQueue sta (handed.left ++ waiting.drop limit)
    txlistQ := update store.txlistQ halWmeUapsd (store.txlistQ halWmeUapsd ++ handed.sent) }

end Submit

section Complete

variable [DecidableEq Sta]

/-- `drv_tx_complete` of a frame that has not been sent. -/
def failEntry (env : StoreEnv Sta) (store : TxStore Sta) (entry : Entry Sta) : TxStore Sta :=
  onLists (focus (drvTxComplete (env.sta entry.key.sta) entry.ptxdesc false) entry.key) store

/-- Complete the frames of a backup list that `chosen` picks. -/
def failBackup (env : StoreEnv Sta) (chosen : Entry Sta → Bool) (queue : Fin halNumTxQueues)
    (store : TxStore Sta) : TxStore Sta :=
  ((store.backup queue).filter chosen).foldl (failEntry env)
    { store with backup := update store.backup queue ((store.backup queue).filter (!chosen ·)) }

/-- Whether a frame belongs to the interface. -/
def ofVid (vid : Nat) (store : TxStore Sta) (entry : Entry Sta) : Bool :=
  (store.vif entry.key.sta).val == vid || vid == 3

/-- `drv_txq_backup_drain`, and with the list for multicast frames `drv_tx_mcastq_cleanup`. -/
def drvTxqBackupDrain (env : StoreEnv Sta) (vid : Nat) (queue : Fin halNumTxQueues)
    (store : TxStore Sta) : TxStore Sta :=
  failBackup env (ofVid vid store) queue store

def drvTxqBackupCleanup (env : StoreEnv Sta) (sta : Sta) (store : TxStore Sta)
    (queue : Fin halNumTxQueues) : TxStore Sta :=
  failBackup env (fun entry => entry.key.sta == sta) queue store

def drvTxUapsdNstaCleanup (env : StoreEnv Sta) (sta : Sta) (store : TxStore Sta) : TxStore Sta :=
  (store.uapsdQueue sta).foldl (failEntry env)
    { store with uapsdQueue := update store.uapsdQueue sta [] }

def drvFreeNormalBufferQueue (env : StoreEnv Sta) (vid : Fin normalBufferQueues)
    (store : TxStore Sta) : TxStore Sta :=
  (store.normalBuffer vid).foldl (failEntry env)
    { store with normalBuffer := update store.normalBuffer vid [] }

/-- A turn of the loop of `drv_flush_normal_buffer_queue`, which holds no lock between turns. -/
def drvFlushNormalBufferQueue (env : StoreEnv Sta) (answers : Nat → HalAnswer)
    (vid : Fin normalBufferQueues) (store : TxStore Sta) : TxStore Sta :=
  match store.normalBuffer vid with
  | [] => store
  | entry :: rest =>
    let taken := { store with normalBuffer := update store.normalBuffer vid rest }
    if (answers 0).bufferFull then
      { store with normalBuffer := update store.normalBuffer vid (rest ++ [entry]) }
    else if staConnected (env.sta entry.key.sta) then
      drvTxNormal env (fun turn => answers (turn + 1))
        { entry with ptxdesc := { entry.ptxdesc with bAmpdu := false } } taken
    else failEntry env taken entry

/-- What follows a completion on a list: what waits behind it is sent. -/
def sendBehind (env : StoreEnv Sta) (answers : Nat → HalAnswer) (queue : Fin halNumTxQueues)
    (store : TxStore Sta) : TxStore Sta :=
  if queue = halWmeMcast then drvTxMcastqSend env answers store
  else drvTxqBackupSend answers queue store

/-- `drv_tx_complete_task` of a frame outside the aggregates. U-APSD frames are not sent again. -/
def drvTxCompleteTask (env : TxEnv) (queue : Fin halNumTxQueues) (ptxdesc : TxDesc) (txok : Bool)
    (tid : TxTid) : TxTid :=
  if queue = halWmeUapsd ∧ ptxdesc.attached ∧ env.sta.isSome then
    drvTxComplete env ptxdesc txok (noteCompletion ptxdesc tid)
  else Tx.drvTxCompleteTask env ptxdesc txok tid

/-- `drv_tx_irq_tasklet` for a place of `txlistQ`. -/
def drvTxIrqTasklet (env : StoreEnv Sta) (answers : Nat → HalAnswer) (queue : Fin halNumTxQueues)
    (index : Nat) (txok : Bool) (store : TxStore Sta) : TxStore Sta :=
  match (store.txlistQ queue)[index]? with
  | none => store
  | some entry =>
    let sta := env.sta entry.key.sta
    let completed := onLists (focus (drvTxCompleteTask sta queue entry.ptxdesc txok) entry.key)
      { store with txlistQ := update store.txlistQ queue ((store.txlistQ queue).eraseIdx index) }
    if !entry.ptxdesc.attached || sta.sta.isNone then completed
    else sendBehind env answers queue completed

/-- `drv_tx_irq_tasklet` for a member of an aggregate. -/
def completeMember (env : StoreEnv Sta) (answers : Nat → HalAnswer) (key : TidKey Sta)
    (index : Nat) (txok : Bool) (store : TxStore Sta) : TxStore Sta :=
  let sta := env.sta key.sta
  let completed := onLists (focus (completeAt sta index txok) key) store
  match (store.lists.tid key).inHal[index]? with
  | none => completed
  | some ptxdesc =>
    if !ptxdesc.attached || sta.sta.isNone then completed
    else sendBehind env answers (queue key) completed

def drvTxlistFreeAllByVid (env : StoreEnv Sta) (vid : Nat) (queue : Fin halNumTxQueues)
    (store : TxStore Sta) : TxStore Sta :=
  let orphaned := { store with
    txlistQ := update store.txlistQ queue
      ((store.txlistQ queue).map fun entry =>
        if ofVid vid store entry then entry.orphan else entry) }
  drvTxqBackupDrain env vid queue
    (onLists (Lists.drvTxlistFreeAllByVid env.toListEnv vid queue) orphaned)

/-- A turn of `drv_txlist_flushfree`. -/
def flushfreeQueue (env : StoreEnv Sta) (vid : Nat) (store : TxStore Sta)
    (queue : Fin halNumTxQueues) : TxStore Sta :=
  onLists (fun lists => { lists with
      txdsPendingCnt := update lists.txdsPendingCnt queue 0 })
    (drvTxlistFreeAllByVid env vid queue store)

def drvTxlistFlushfree (env : StoreEnv Sta) (vid : Nat) (store : TxStore Sta) : TxStore Sta :=
  (List.finRange halNumTxQueues).foldl (flushfreeQueue env vid) store

def drvTxlistCleanupForSta (env : StoreEnv Sta) (sta : Sta) (store : TxStore Sta) : TxStore Sta :=
  (List.finRange halNumTxQueues).foldl (drvTxqBackupCleanup env sta)
    (onLists (Lists.drvTxlistCleanupForSta env.toListEnv sta) store)

/-- `free_txlist_when_free_sta`: the frames of the station that the HAL has lose it. -/
def freeTxlistWhenFreeSta (sta : Sta) (store : TxStore Sta) : TxStore Sta :=
  { store with
    txlistQ := fun queue => (store.txlistQ queue).map fun entry =>
      if entry.key.sta = sta then entry.orphan else entry
    lists := { store.lists with
      tid := fun key =>
        let tid := store.lists.tid key
        if key.sta = sta then { tid with inHal := tid.inHal.map TxDesc.orphan } else tid } }

end Complete

section Again

/-- What `wifi_mac_buffer_txq_send` does with a frame to be sent again: it frees the frame of a
station that is gone, and for the others `drv_tx_start` sends it, completes it with an error, puts
it off, or gives it back unfinished. -/
inductive Restart where
  | send (turns : Nat → HalTurn) (answers : Nat → Nat → HalAnswer) (route : Route)
    (request : TxRequest)
  | refuse
  | save
  | abandon

variable [DecidableEq Sta]

/-- One frame of `wifi_mac_buffer_txq_send`. -/
def drvTxStart (env : StoreEnv Sta) (restart : Restart) (entry : Entry Sta) (store : TxStore Sta) :
    TxStore Sta :=
  match restart with
  | .send turns answers route request =>
    drvSend env turns answers entry.key route { request with desc := entry.ptxdesc } store
  | .refuse =>
    onLists (focus (fun tid =>
      { tid with completed := tid.completed ++ [(entry.ptxdesc, false)] }) entry.key) store
  | .save => { store with saved := store.saved ++ [entry] }
  | .abandon => store

/-- The first frame that an identifier has to send again. -/
def drvRetransmit (env : StoreEnv Sta) (key : TidKey Sta) (restart : Restart)
    (store : TxStore Sta) : TxStore Sta :=
  match (store.lists.tid key).retransmitQueue with
  | [] => store
  | ptxdesc :: rest =>
    drvTxStart env restart ⟨key, queue key, false, ptxdesc⟩
      (onLists (fun lists => { lists with
        tid := update lists.tid key { lists.tid key with retransmitQueue := rest } }) store)

/-- A frame that was put off. -/
def drvRelease (env : StoreEnv Sta) (index : Nat) (restart : Restart) (store : TxStore Sta) :
    TxStore Sta :=
  match store.saved[index]? with
  | none => store
  | some entry =>
    drvTxStart env restart entry { store with saved := store.saved.eraseIdx index }

/-- `wifi_mac_buffer_txq_flush` of the frames to be sent again. -/
def flushRetransmit (store : TxStore Sta) : TxStore Sta :=
  onLists (fun lists => { lists with
    tid := fun key => { lists.tid key with retransmitQueue := [] } }) store

end Again

/-- What happens to the buffers. -/
inductive StoreEvent (Sta : Type) where
  | send (turns : Nat → HalTurn) (answers : Nat → Nat → HalAnswer) (key : TidKey Sta)
    (route : Route) (request : TxRequest)
  | task (turns : Nat → HalTurn) (queueId : Nat)
  | timeout (waitMpduTimeout : Bool)
  | completeMember (answers : Nat → HalAnswer) (key : TidKey Sta) (index : Nat) (txok : Bool)
  | txIrq (answers : Nat → HalAnswer) (queue : Fin halNumTxQueues) (index : Nat) (txok : Bool)
  | reqSetup (key : TidKey Sta)
  | rspProcess (turns : Nat → HalTurn) (answers : Nat → Nat → HalAnswer) (key : TidKey Sta)
    (rsp : AddbaRsp)
  | requestTimer (key : TidKey Sta)
  | pause (key : TidKey Sta)
  | resume (turns : Nat → HalTurn) (key : TidKey Sta)
  | flush (answers : Nat → Nat → HalAnswer) (key : TidKey Sta)
  | ampduDel (answers : Nat → Nat → HalAnswer) (key : TidKey Sta)
  | addbaClear (sta : Sta)
  | flushfree (vid : Nat)
  | cleanup (sta : Sta)
  | freeSta (sta : Sta)
  | backupSend (answers : Nat → HalAnswer) (queue : Fin halNumTxQueues)
  | mcastqSend (answers : Nat → HalAnswer)
  | mcastqCleanup (vid : Nat)
  | uapsdTrigger (answers : Nat → HalAnswer) (sta : Sta) (limit : Nat)
  | uapsdCleanup (sta : Sta)
  | flushNormal (answers : Nat → HalAnswer) (vid : Fin normalBufferQueues)
  | freeNormal (vid : Fin normalBufferQueues)
  | retransmit (key : TidKey Sta) (restart : Restart)
  | release (index : Nat) (restart : Restart)
  | flushRetransmit
  | flushSaved

variable [DecidableEq Sta]

/-- One event, under the configuration and the stations of its moment. A frame that is accepted
takes the next name. -/
def storeStep (store : TxStore Sta) (moment : StoreEnv Sta × StoreEvent Sta) : TxStore Sta :=
  let env := moment.1
  match moment.2 with
  | .send turns answers key route request =>
    drvSend env turns answers key route
      { request with desc := { request.desc with id := store.nextId } }
      { store with nextId := store.nextId + 1 }
  | .task turns queueId => onLists (Lists.drvTxlistTask env.toListEnv turns queueId) store
  | .timeout waitMpduTimeout =>
    onLists (fun lists => { lists with waitMpduTimeout := waitMpduTimeout }) store
  | .completeMember answers key index txok => completeMember env answers key index txok store
  | .txIrq answers queue index txok => drvTxIrqTasklet env answers queue index txok store
  | .reqSetup key => onLists (focus (drvAddbaReqSetup (env.sta key.sta)) key) store
  | .rspProcess turns answers key rsp =>
    deliver env answers key (onLists (Lists.drvAddbaRspProcess env.toListEnv turns key rsp) store)
  | .requestTimer key => onLists (focus (drvAddbaTimer (env.sta key.sta)) key) store
  | .pause key => onLists (focus drvTxlistPauseForStaTid key) store
  | .resume turns key =>
    onLists (Lists.drvTxlistResumeForStaTid env.toListEnv turns key) store
  | .flush answers key =>
    deliver env answers key (onLists (focus (drvTxlistFlushForStaTid (env.sta key.sta)) key) store)
  | .ampduDel answers key =>
    deliver env answers key (onLists (focus (drvTxampduDel (env.sta key.sta)) key) store)
  | .addbaClear sta => onLists (Lists.drvAddbaClear sta) store
  | .flushfree vid => drvTxlistFlushfree env vid store
  | .cleanup sta => drvTxlistCleanupForSta env sta store
  | .freeSta sta => freeTxlistWhenFreeSta sta store
  | .backupSend answers queue => drvTxqBackupSend answers queue store
  | .mcastqSend answers => drvTxMcastqSend env answers store
  | .mcastqCleanup vid => drvTxqBackupDrain env vid halWmeMcast store
  | .uapsdTrigger answers sta limit => drvProcessUapsdNstaTrigger answers sta limit store
  | .uapsdCleanup sta => drvTxUapsdNstaCleanup env sta store
  | .flushNormal answers vid => drvFlushNormalBufferQueue env answers vid store
  | .freeNormal vid => drvFreeNormalBufferQueue env vid store
  | .retransmit key restart => drvRetransmit env key restart store
  | .release index restart => drvRelease env index restart store
  | .flushRetransmit => flushRetransmit store
  | .flushSaved => { store with saved := [] }

/-- `drv_tx_init` and `drv_txlist_setup`: the stations with their interfaces, and no frame. -/
def drvTxInit (vif : Sta → Fin normalBufferQueues) : TxStore Sta where
  lists := Lists.drvTxlistSetup fun sta => vif sta
  vif := vif
  normalBuffer := fun _ => []
  backup := fun _ => []
  uapsdQueue := fun _ => []
  txlistQ := fun _ => []
  saved := []
  nextId := 0

end W522a.Tx.Store
