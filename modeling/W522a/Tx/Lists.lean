import W522a.Tx.Session

/-!
The transmit lists of the driver: the access categories that wait on each, the identifiers that
wait on each access category, and the count of the frames pending on each. An identifier is
scheduled by being on its lists; what happens to it alone is what happens to one identifier.
-/

namespace W522a.Tx.Lists

open Function (update)

variable {Sta : Type}

/-- The access categories. -/
inductive WmeAc where
  | be
  | bk
  | vi
  | vo
  deriving DecidableEq, Repr

def tidToWmeAc (tidIndex : Nat) : WmeAc :=
  if tidIndex = 0 ∨ tidIndex = 3 then .be
  else if tidIndex = 1 ∨ tidIndex = 2 then .bk
  else if tidIndex = 4 ∨ tidIndex = 5 then .vi
  else .vo

@[simp] abbrev halNumTxQueues : Nat := 8

/-- An access category of a station. -/
structure AcKey (Sta : Type) where
  sta : Sta
  ac : WmeAc
  deriving DecidableEq

/-- A traffic identifier of a station. -/
structure TidKey (Sta : Type) where
  sta : Sta
  index : Fin wmeNumTid
  deriving DecidableEq

/-- `queue_id`, as `drv_txlist_init_for_sta` sets it: `HAL_WME_AC_BE` and its neighbours. -/
def AcKey.queueId (ac : AcKey Sta) : Nat :=
  match ac.ac with
  | .be => 0
  | .bk => 1
  | .vi => 2
  | .vo => 3

/-- The access category an identifier belongs to. -/
def TidKey.ac (key : TidKey Sta) : AcKey Sta := ⟨key.sta, tidToWmeAc key.index⟩

/-- The list an identifier is mapped to. -/
def TidKey.queueId (key : TidKey Sta) : Nat := key.ac.queueId

/-- The lists of `drv_txlist_table` with what waits on them. `tidQueue` and `acWork` are
`tid_queue` and `b_work` of `struct drv_queue_ac`; `acq` and `txdsPendingCnt` belong to
`struct drv_txlist`. The fields that identifiers share stand here; their copies in `tid` are
loaded when a function works on one identifier. -/
structure TxLists (Sta : Type) where
  vid : Sta → Nat
  tid : TidKey Sta → TxTid
  tidQueue : AcKey Sta → List (TidKey Sta)
  acWork : AcKey Sta → Bool
  acq : Nat → List (AcKey Sta)
  txdsPendingCnt : Nat → Nat
  waitMpduTimeout : Bool
  sampleRate : RateInfo

/-- What the functions read of `drv_priv`: the configuration, and for each station what one
identifier's functions read. -/
structure ListEnv (Sta : Type) where
  sta : Sta → TxEnv
  cfgTxaggr : Bool

variable [DecidableEq Sta]

/-- An identifier with the fields it shares. -/
def load (key : TidKey Sta) (lists : TxLists Sta) : TxTid :=
  { lists.tid key with
    txdsPendingCnt := lists.txdsPendingCnt key.queueId
    waitMpduTimeout := lists.waitMpduTimeout
    sampleRate := lists.sampleRate }

/-- A function of one identifier, among the lists. -/
def focus (work : TxTid → TxTid) (key : TidKey Sta) (lists : TxLists Sta) : TxLists Sta :=
  let tid := work (load key lists)
  { lists with
    tid := update lists.tid key tid
    txdsPendingCnt := update lists.txdsPendingCnt key.queueId tid.txdsPendingCnt
    waitMpduTimeout := tid.waitMpduTimeout
    sampleRate := tid.sampleRate }

/-- An access category goes to the end of its list, unless it waits there. -/
def linkAc (ac : AcKey Sta) (lists : TxLists Sta) : TxLists Sta :=
  if lists.acWork ac then lists
  else
    { lists with
      acWork := update lists.acWork ac true
      acq := update lists.acq ac.queueId (lists.acq ac.queueId ++ [ac]) }

/-- An access category leaves its list. -/
def unlinkAc (ac : AcKey Sta) (lists : TxLists Sta) : TxLists Sta :=
  { lists with
    acWork := update lists.acWork ac false
    acq := update lists.acq ac.queueId ((lists.acq ac.queueId).erase ac) }

/-- An identifier goes to the end of its access category. -/
def linkTid (key : TidKey Sta) (lists : TxLists Sta) : TxLists Sta :=
  { lists with
    tid := update lists.tid key { lists.tid key with bWork := true }
    tidQueue := update lists.tidQueue key.ac (lists.tidQueue key.ac ++ [key]) }

def unlinkTid (key : TidKey Sta) (lists : TxLists Sta) : TxLists Sta :=
  { lists with
    tid := update lists.tid key { lists.tid key with bWork := false }
    tidQueue := update lists.tidQueue key.ac ((lists.tidQueue key.ac).erase key) }

def drvTxQueueTid (key : TidKey Sta) (lists : TxLists Sta) : TxLists Sta :=
  if (lists.tid key).paused ≠ 0 then lists
  else if (lists.tid key).bWork then lists
  else linkAc key.ac (linkTid key lists)

/-- The loop of `drv_txlist_task` over the identifiers of an access category: those paused are
unlinked, and the first one that is not gets its turn. -/
def serveTids (env : ListEnv Sta) (hal : Nat → HalTurn) :
    List (TidKey Sta) → TxLists Sta → TxLists Sta
  | [], lists => lists
  | key :: rest, lists =>
    let lists := unlinkTid key lists
    if (lists.tid key).paused ≠ 0 then serveTids env hal rest lists
    else
      let lists := focus (drvTxSchedAggr (env.sta key.sta) hal) key lists
      if (lists.tid key).txdsQueue ≠ [] then drvTxQueueTid key lists else lists

def drvTxlistTask (env : ListEnv Sta) (hal : Nat → HalTurn) (queueId : Nat)
    (lists : TxLists Sta) : TxLists Sta :=
  match lists.acq queueId with
  | [] => lists
  | ac :: _ =>
    let lists := unlinkAc ac lists
    let lists := serveTids env hal (lists.tidQueue ac) lists
    if lists.tidQueue ac ≠ [] then linkAc ac lists else lists

def drvTxSendAmpdu (env : ListEnv Sta) (hal : Nat → HalTurn) (key : TidKey Sta)
    (ptxdesc : TxDesc) (lists : TxLists Sta) : TxLists Sta :=
  let sta := env.sta key.sta
  if drvTidIsHostap sta ∧ apAmpduPendingLimit ≤ lists.txdsPendingCnt key.queueId then
    focus (fun tid => drvTxNormal ptxdesc (drvTxbaQuarantine sta .pendingFuse tid)) key lists
  else
    let lists := { lists with
      tid := update lists.tid key
        { lists.tid key with txdsQueue := (lists.tid key).txdsQueue ++ [ptxdesc] } }
    let lists := drvTxQueueTid key lists
    let target := drvTxAmpduWaitTarget sta (ampduSubframes sta (lists.tid key).win.bawSize)
    let lists := { lists with
      txdsPendingCnt := update lists.txdsPendingCnt key.queueId
        (lists.txdsPendingCnt key.queueId + 1) }
    if lists.txdsPendingCnt key.queueId < target ∧ !lists.waitMpduTimeout then lists
    else drvTxlistTask env hal key.queueId lists

/-- `drv_send` of a unicast data frame. -/
def drvSend (env : ListEnv Sta) (hal : Nat → HalTurn) (key : TidKey Sta) (request : TxRequest)
    (lists : TxLists Sta) : TxLists Sta :=
  let ptxdesc := (drvTxPrepare request (load key lists)).1
  let lists := focus (fun tid => (drvTxPrepare request tid).2) key lists
  if ptxdesc.bAmpdu then drvTxSendAmpdu env hal key ptxdesc lists
  else focus (drvTxNormal ptxdesc) key lists

def drvTxlistResumeForStaTid (env : ListEnv Sta) (hal : Nat → HalTurn) (key : TidKey Sta)
    (lists : TxLists Sta) : TxLists Sta :=
  let tid := lists.tid key
  if tid.paused = 0 then lists
  else
    let lists := { lists with
      tid := update lists.tid key { tid with paused := tid.paused - 1 } }
    if (lists.tid key).paused ≠ 0 ∨ (lists.tid key).txdsQueue = [] then lists
    else drvTxlistTask env hal key.queueId (drvTxQueueTid key lists)

def drvAddbaRspProcess (env : ListEnv Sta) (hal : Nat → HalTurn) (key : TidKey Sta)
    (rsp : AddbaRsp) (lists : TxLists Sta) : TxLists Sta :=
  let sta := env.sta key.sta
  let resume := (lists.tid key).addbaExchangeinprogress
  if rsp.statuscode = wifinetStatusSuccess then
    let lists := focus (fun tid => acceptRsp sta rsp (answerRequest rsp tid)) key lists
    if !resume then lists
    else if sta.sta.isSome then drvTxlistResumeForStaTid env hal key lists
    else focus (drvTxlistFlushForStaTid sta) key lists
  else
    let lists :=
      focus (fun tid => drvTxbaQuarantine sta .addbaRefused (answerRequest rsp tid)) key lists
    if resume then focus (drvTxlistFlushForStaTid sta) key lists else lists

def drvAddbaClear (sta : Sta) (lists : TxLists Sta) : TxLists Sta :=
  { lists with
    tid := fun key =>
      if key.sta = sta then Tx.drvAddbaClear (lists.tid key) else lists.tid key }

/-- The inner loop of `drv_txlist_push_pending`, with `ac_need_flush` after it. -/
def pushTids (env : ListEnv Sta) (vid : Nat) :
    List (TidKey Sta) → Bool → TxLists Sta → Bool × TxLists Sta
  | [], acNeedFlush, lists => (acNeedFlush, lists)
  | key :: rest, _, lists =>
    if lists.vid key.sta = vid ∨ vid = 3 then
      pushTids env vid rest true (focus (drvTidDrain (env.sta key.sta)) key (unlinkTid key lists))
    else (false, lists)

/-- The outer loop of `drv_txlist_push_pending`. The last argument of the result is
`ac_not_release`. -/
def pushAcs (env : ListEnv Sta) (vid : Nat) :
    List (AcKey Sta) → Bool → List (AcKey Sta) → TxLists Sta → TxLists Sta × List (AcKey Sta)
  | [], _, acNotRelease, lists => (lists, acNotRelease)
  | ac :: rest, acNeedFlush, acNotRelease, lists =>
    let lists := unlinkAc ac lists
    let (acNeedFlush, lists) := pushTids env vid (lists.tidQueue ac) acNeedFlush lists
    if acNeedFlush then pushAcs env vid rest acNeedFlush acNotRelease lists
    else
      pushAcs env vid rest acNeedFlush (acNotRelease ++ [ac])
        { lists with acWork := update lists.acWork ac true }

def drvTxlistPushPending (env : ListEnv Sta) (vid queueId : Nat) (lists : TxLists Sta) :
    TxLists Sta :=
  let (lists, acNotRelease) := pushAcs env vid (lists.acq queueId) false [] lists
  { lists with acq := update lists.acq queueId (lists.acq queueId ++ acNotRelease) }

/-- `drv_txlist_free_all_by_vid`: the frames of the hardware lose their station, and what waits is
pushed out. -/
def drvTxlistFreeAllByVid (env : ListEnv Sta) (vid queueId : Nat) (lists : TxLists Sta) :
    TxLists Sta :=
  let lists := { lists with
    tid := fun key =>
      let tid := lists.tid key
      if key.queueId = queueId ∧ (lists.vid key.sta = vid ∨ vid = 3) then
        { tid with
          inHal := tid.inHal.map TxDesc.orphan
          normal := tid.normal.map NormalDesc.orphan }
      else tid }
  if env.cfgTxaggr then drvTxlistPushPending env vid queueId lists else lists

def drvTxlistFlushfree (env : ListEnv Sta) (vid : Nat) (lists : TxLists Sta) : TxLists Sta :=
  (List.range halNumTxQueues).foldl (fun lists queueId =>
    let lists := drvTxlistFreeAllByVid env vid queueId lists
    { lists with txdsPendingCnt := update lists.txdsPendingCnt queueId 0 }) lists

/-- What `drv_txlist_cleanup_for_sta` does to an identifier; `paused` has eight bits. -/
def cleanupTid (env : TxEnv) (tid : TxTid) : TxTid :=
  if tid.addbaExchangeinprogress then
    drvTidCleanup env
      { tid with
        addbaExchangeinprogress := false
        addbaTimerActive := false
        paused := (tid.paused + 255) % 256 }
  else drvTidCleanup env tid

/-- The inner loop of `drv_txlist_cleanup_for_sta`. -/
def cleanupTids (env : ListEnv Sta) : List (TidKey Sta) → TxLists Sta → TxLists Sta
  | [], lists => lists
  | key :: rest, lists =>
    cleanupTids env rest (focus (cleanupTid (env.sta key.sta)) key (unlinkTid key lists))

/-- The loop of `drv_txlist_cleanup_for_sta` over the access categories of a list. -/
def cleanupAcs (env : ListEnv Sta) (sta : Sta) : List (AcKey Sta) → TxLists Sta → TxLists Sta
  | [], lists => lists
  | ac :: rest, lists =>
    match lists.tidQueue ac with
    | [] => cleanupAcs env sta rest lists
    | key :: others =>
      if key.sta ≠ sta then cleanupAcs env sta rest lists
      else cleanupAcs env sta rest (cleanupTids env (key :: others) (unlinkAc ac lists))

def drvTxlistCleanupForSta (env : ListEnv Sta) (sta : Sta) (lists : TxLists Sta) : TxLists Sta :=
  (List.range halNumTxQueues).foldl (fun lists queueId =>
    cleanupAcs env sta (lists.acq queueId) lists) lists

/-- What happens to the lists. -/
inductive ListEvent (Sta : Type) where
  | send (hal : Nat → HalTurn) (key : TidKey Sta) (request : TxRequest)
  | task (hal : Nat → HalTurn) (queueId : Nat)
  | timeout (waitMpduTimeout : Bool)
  | complete (key : TidKey Sta) (index : Nat) (txok : Bool)
  | completeNormal (key : TidKey Sta) (index : Nat) (txok : Bool)
  | reqSetup (key : TidKey Sta)
  | rspProcess (hal : Nat → HalTurn) (key : TidKey Sta) (rsp : AddbaRsp)
  | requestTimer (key : TidKey Sta)
  | pause (key : TidKey Sta)
  | resume (hal : Nat → HalTurn) (key : TidKey Sta)
  | flush (key : TidKey Sta)
  | ampduDel (key : TidKey Sta)
  | addbaClear (sta : Sta)
  | pushPending (vid queueId : Nat)
  | flushfree (vid : Nat)
  | cleanup (sta : Sta)

def listStep (lists : TxLists Sta) (moment : ListEnv Sta × ListEvent Sta) : TxLists Sta :=
  let env := moment.1
  match moment.2 with
  | .send hal key request => drvSend env hal key request lists
  | .task hal queueId => drvTxlistTask env hal queueId lists
  | .timeout waitMpduTimeout => { lists with waitMpduTimeout := waitMpduTimeout }
  | .complete key index txok => focus (completeAt (env.sta key.sta) index txok) key lists
  | .completeNormal key index txok =>
    focus (completeNormalAt (env.sta key.sta) index txok) key lists
  | .reqSetup key => focus (drvAddbaReqSetup (env.sta key.sta)) key lists
  | .rspProcess hal key rsp => drvAddbaRspProcess env hal key rsp lists
  | .requestTimer key => focus (drvAddbaTimer (env.sta key.sta)) key lists
  | .pause key => focus drvTxlistPauseForStaTid key lists
  | .resume hal key => drvTxlistResumeForStaTid env hal key lists
  | .flush key => focus (drvTxlistFlushForStaTid (env.sta key.sta)) key lists
  | .ampduDel key => focus (drvTxampduDel (env.sta key.sta)) key lists
  | .addbaClear sta => drvAddbaClear sta lists
  | .pushPending vid queueId => drvTxlistPushPending env vid queueId lists
  | .flushfree vid => drvTxlistFlushfree env vid lists
  | .cleanup sta => drvTxlistCleanupForSta env sta lists

/-- `drv_txlist_initial` and `drv_txlist_init_for_sta`: the stations with their interfaces, and
nothing that waits. -/
def drvTxlistSetup (vid : Sta → Nat) : TxLists Sta where
  vid := vid
  tid := fun key => drvTxlistInitForSta key.index
  tidQueue := fun _ => []
  acWork := fun _ => false
  acq := fun _ => []
  txdsPendingCnt := fun _ => 0
  waitMpduTimeout := false
  sampleRate := noRate

end W522a.Tx.Lists
