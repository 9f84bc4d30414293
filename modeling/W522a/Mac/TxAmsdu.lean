import Mathlib.Logic.Function.Basic
import W522a.Common
import W522a.Mac.Amsdu

/-!
The aggregation of MSDUs on the way down: `wifi_mac_amsdu_send` queues an MSDU, the tasklet moves it
to the array of the A-MSDU under construction, and an A-MSDU that is full or old is handed to the
driver.
-/

namespace W522a.TxAmsdu

open Mac (MacAddr roundup htons etherHeaderLen llcSnapframelen llcSnap)

def defaultTxamsduSubMax : Nat := 4

def defaultTxamsduSubMaxBw80 : Nat := 8

def amsduMaxSubfrmLen : Nat := 2304

def amsduBufferHeadroom : Nat := 64

def amsduMaxBufferSizeBw80 : Nat := 7935

def amsduMaxLen : Nat := 4000 - amsduBufferHeadroom

def amsduMaxLenBw80 : Nat := amsduMaxBufferSizeBw80 - amsduBufferHeadroom

/-- `AMSDU_MAX_LIVE_TIME`, in milliseconds. -/
def amsduMaxLiveTime : Nat := 10

/-- The nodes of `wifi_mac_amsdu_attach`: `MAX_MSDU_CNT * WME_NUM_TID`. -/
def msduNodes : Nat := (80 + 128 / 8) * 4 * 8

def fragmtThresholdMax : Nat := 2346

def subframeTotalLen (length : Nat) : Nat := roundup (length + llcSnapframelen) 4

/-- The queue of a TID of a station. -/
structure Key where
  station : Nat
  tid : Fin 8
  deriving DecidableEq, Repr

/-- `struct wifi_mac_pkt_info`: what `wifi_mac_xmit_pkt_parse` found out about a frame. -/
structure PktInfo where
  bTcp : Bool := false
  bTcpAck : Bool := false
  bTcpAckDel : Bool := false
  bTcpPush : Bool := false
  bEap : Bool := false
  bDhcp : Bool := false
  bArp : Bool := false
  bTcpSavedFlag : Bool := false
  bTcpFree : Bool := false
  bIcmp : Bool := false
  bLatency : Bool := false
  eatCount : BitVec 8 := 0
  tcpSrcPort : BitVec 16 := 0
  tcpDstPort : BitVec 16 := 0
  tcpSeqnum : BitVec 32 := 0
  tcpAckSeqnum : BitVec 32 := 0
  deriving DecidableEq

/-- Where `drv_pkt_info.pkt_info` begins in a `struct drv_txdesc`, on a 64-bit machine. -/
def pktInfoOffset : Nat := 76

def sizeofPktInfo : Nat := 16

def sizeofTxdesc : Nat := 224

/-- So many records from `pkt_info[0]` on end before the list links of the next descriptor. The
array has `DEFAULT_TXAMSDU_SUB_MAX` of them; those behind it lie on fields that the driver fills
later. -/
def Inside (records : Nat) : Prop := pktInfoOffset + records * sizeofPktInfo ≤ sizeofTxdesc

instance (records : Nat) : Decidable (Inside records) := inferInstanceAs (Decidable (_ ≤ _))

/-- An Ethernet frame from the upper layer; `marked` when `M_UAPSD` or `M_PWR_SAV` is set. -/
structure Msdu where
  dst : MacAddr
  src : MacAddr
  etherType : { bytes : List UInt8 // bytes.length = 2 }
  body : List UInt8
  marked : Bool
  pktInfo : PktInfo := {}
  deriving DecidableEq

/-- The buffer of an MSDU: which one it is, its station and TID, and its frame. -/
structure Skb where
  number : Nat
  key : Key
  msdu : Msdu
  deriving DecidableEq

namespace Skb

variable (skb : Skb)

def etherHeader : List UInt8 := skb.msdu.dst.1 ++ skb.msdu.src.1 ++ skb.msdu.etherType.1

/-- The bytes of the frame. -/
def ethernet : List UInt8 := skb.etherHeader ++ skb.msdu.body

/-- `os_skb_get_pktlen` -/
def pktlen : Nat := skb.msdu.body.length + etherHeaderLen

/-- The length that the MSDU takes in an A-MSDU. -/
def framelen : Nat := subframeTotalLen skb.pktlen

end Skb

/-- What is handed to the driver: an MSDU as it is, or an A-MSDU with the MSDUs copied to it, and
the records from `pkt_info[0]` of its descriptor on. -/
inductive TxBuf where
  | msdu (skb : Skb)
  | amsdu (key : Key) (members : List Skb) (data : List UInt8) (infos : List PktInfo)
  deriving DecidableEq

namespace TxBuf

/-- `os_skb_get_nsta` and `os_skb_get_tid` -/
def key : TxBuf → Key
  | .msdu skb => skb.key
  | .amsdu key _ _ _ => key

def members : TxBuf → List Skb
  | .msdu skb => [skb]
  | .amsdu _ members _ _ => members

/-- The MSDU buffer that `wifi_mac_complete_wbuf` gives back; an A-MSDU is a copy. -/
def own : TxBuf → List Skb
  | .msdu skb => [skb]
  | .amsdu _ _ _ _ => []

/-- What the receive side makes of a buffer: an A-MSDU is walked by `wifi_mac_amsdu_input`. -/
def split : TxBuf → List (List UInt8)
  | .msdu skb => [skb.ethernet]
  | .amsdu _ _ data _ => Mac.wifiMacAmsduInput ⟨true, true, fun _ => true⟩ data ⟨0, data.length⟩

end TxBuf

/-- `struct wifi_mac_amsdu_tx`; `amsdunum` is the length of `msdu_tmp_buf`. -/
structure AmsduTx where
  amsduTxBuf : Option TxBuf
  bWork : Bool
  framelen : Nat
  msduList : List Skb
  inTime : BitVec 64
  msduTmpBuf : List Skb

/-- The operating modes of `wifi_mac_amsdu_send`. -/
inductive Opmode where
  | sta
  | p2pClient
  | hostap
  | p2pGo
  | other
  deriving DecidableEq, Repr

/-- What does not change: the ticks of a second, the interface of a station, whether it has an
aggregation state, and the settings of the interfaces. -/
structure Setup where
  hz : Nat
  vid : Nat → Nat
  staAmsdu : Nat → Bool
  vmFragthreshold : Nat → Nat
  vmOpmode : Nat → Opmode

/-- Where the tasklet is: it gives up the queue lock while it works on an MSDU it took, and before
it looks at the age of an A-MSDU. -/
inductive Tasklet where
  | idle
  | taken (skb : Skb)
  | returned
  | checking (key : Key)
  deriving DecidableEq

/-- A frame for the driver, and the `amsdu_max_length` of its station then. -/
structure Sent where
  buf : TxBuf
  limit : Nat
  deriving DecidableEq

/-- The aggregation state of the device, and the logs of what was offered, handed to the driver,
completed, and lost on the way; `overrun` when records were copied over the links of a descriptor
that is not the A-MSDU's. -/
structure TxState where
  jiffies : BitVec 64
  staChbw80 : Nat → Bool
  curChan80 : Bool
  amsduMaxLength : Nat → Nat
  amsdutx : Key → AmsduTx
  wmAmsduTxq : List Key
  freeNodes : Nat
  freeAmsduList : List TxBuf
  msduCnt : Fin 8 → Nat
  tasklet : Tasklet
  crashed : Bool
  overrun : Bool
  offered : List Skb
  air : List Sent
  completed : List TxBuf
  lost : List Skb

/-- What the environment answers while a frame is handed down: the memory of a new A-MSDU with the
bytes left in it, whether `wifi_mac_encap` finds memory, and whether `wifi_mac_build_txinfo` accepts
the frame. -/
structure Outcome where
  memory : Option (Nat → UInt8)
  encap : Bool
  txinfo : Bool

def timeAfter (a b : BitVec 64) : Bool := (b - a).msb

namespace TxState

variable (state : TxState)

def put (key : Key) (tx : AmsduTx) : TxState :=
  { state with amsdutx := Function.update state.amsdutx key tx }

/-- `wifi_mac_complete_wbuf` -/
def complete (bufs : List TxBuf) : TxState := { state with completed := state.completed ++ bufs }

/-- So many records are copied to the descriptor of an A-MSDU. -/
def record (records : Nat) : TxState :=
  { state with overrun := state.overrun || !decide (Inside records) }

/-- The counter of a TID, less some MSDUs, not below zero. -/
def uncount (tid : Fin 8) (count : Nat) : TxState :=
  { state with
    msduCnt := Function.update state.msduCnt tid
      (if state.msduCnt tid > count then state.msduCnt tid - count else 0) }

end TxState

/-- `wifi_mac_amsdu_check`: the MSDU must not be aggregated. -/
def wifiMacAmsduCheck (skb : Skb) : Bool :=
  skb.msdu.marked || decide (skb.msdu.etherType.1 ≠ [0x08, 0x00])

/-- `wifi_mac_amsdu_encap`; `stale` are the bytes that the memory of the A-MSDU holds before. -/
def wifiMacAmsduEncap (stale : Nat → UInt8) (amsduBuf : List UInt8) (skb : Skb)
    (prependEther : Bool) : List UInt8 :=
  let amsduBuf := if prependEther then amsduBuf ++ skb.etherHeader else amsduBuf
  let padlen :=
    if prependEther then 0
    else roundup (amsduBuf.length - etherHeaderLen) 4 - (amsduBuf.length - etherHeaderLen)
  let amsduBuf := amsduBuf ++ (List.range padlen).map fun place => stale (amsduBuf.length + place)
  amsduBuf ++ skb.msdu.dst.1 ++ skb.msdu.src.1 ++
    htons (skb.pktlen + llcSnapframelen - etherHeaderLen) ++ llcSnap ++ skb.msdu.etherType.1 ++
    skb.msdu.body

/-- The loop of `wifi_mac_amsdu_aggr` over the MSDUs of the array. -/
def aggrData (stale : Nat → UInt8) : List Skb → List UInt8
  | [] => []
  | first :: rest =>
    rest.foldl (fun data skb => wifiMacAmsduEncap stale data skb false)
      (wifiMacAmsduEncap stale [] first true)

/-- A record is copied behind those of the A-MSDU; the first one keeps `b_tcp_ack_del` while the
others have it too, with its ports. -/
def copyPktInfo (infos : List PktInfo) (info : PktInfo) : List PktInfo :=
  match infos with
  | [] => [info]
  | first :: rest =>
    let same := first.bTcpAckDel && info.bTcpAckDel &&
      (first.tcpSrcPort == info.tcpSrcPort && first.tcpDstPort == info.tcpDstPort)
    (if !same then { first with bTcpAckDel := false } else first) :: (rest ++ [info])

/-- The records that the loop of `wifi_mac_amsdu_aggr` copies. -/
def aggrInfos (skbs : List Skb) : List PktInfo :=
  skbs.foldl (fun infos skb => copyPktInfo infos skb.msdu.pktInfo) []

def freeSkb (buf : Option TxBuf) (state : TxState) : TxState :=
  match buf with
  | none => state
  | some buf => { state with lost := state.lost ++ buf.members }

/-- `wifi_mac_amsdu_aggr`: whether an A-MSDU was made. -/
def wifiMacAmsduAggr (memory : Option (Nat → UInt8)) (key : Key) (state : TxState) :
    Bool × TxState :=
  let tx := state.amsdutx key
  if tx.msduTmpBuf = [] then (false, state)
  else
    let state := freeSkb tx.amsduTxBuf state
    match memory with
    | none => (false, state.put key { tx with amsduTxBuf := none })
    | some stale =>
      let infos := aggrInfos tx.msduTmpBuf
      let state := state.record infos.length
      (true, (state.complete (tx.msduTmpBuf.map TxBuf.msdu)).put key { tx with
        amsduTxBuf := some (.amsdu key tx.msduTmpBuf (aggrData stale tx.msduTmpBuf) infos)
        framelen := 0
        msduTmpBuf := [] })

/-- The end of `wifi_mac_amsdu_tx2drvlay`: the MSDUs are not counted any more, and the frame is
completed or goes to the driver. -/
def toDriver (outcome : Outcome) (buf : TxBuf) (state : TxState) : TxState :=
  let state := state.uncount buf.key.tid buf.members.length
  if !outcome.txinfo then { state.complete [buf] with lost := state.lost ++ buf.members }
  else { state with air := state.air ++ [⟨buf, state.amsduMaxLength buf.key.station⟩] }

/-- `wifi_mac_amsdu_tx2drvlay`; the frame of `wifi_mac_encap` is read without a look at whether
there is one. -/
def wifiMacAmsduTx2drvlay (outcome : Outcome) (key : Key) (state : TxState) : TxState :=
  match (state.amsdutx key).amsduTxBuf with
  | none => state
  | some buf =>
    let state := state.put key { state.amsdutx key with amsduTxBuf := none }
    if !outcome.encap then { state with crashed := true } else toDriver outcome buf state

/-- An A-MSDU is made and handed to the driver. -/
def aggrSend (outcome : Outcome) (key : Key) (state : TxState) : TxState :=
  let (made, state) := wifiMacAmsduAggr outcome.memory key state
  if made then wifiMacAmsduTx2drvlay outcome key state else state

namespace TxState

variable (state : TxState)

def wide (station : Nat) : Bool := state.staChbw80 station && state.curChan80

/-- The bound of `wifi_mac_amsdu_ex` on the length of an A-MSDU. -/
def maxLen (station : Nat) : Nat :=
  min (state.amsduMaxLength station)
    (if state.wide station then amsduMaxLenBw80 else amsduMaxLen)

/-- The bound of `wifi_mac_amsdu_ex` on the MSDUs of an A-MSDU. -/
def subMax (station : Nat) : Nat :=
  if state.wide station then defaultTxamsduSubMaxBw80 else defaultTxamsduSubMax

/-- An A-MSDU has waited for longer than `AMSDU_MAX_LIVE_TIME`. -/
def aged (setup : Setup) (tx : AmsduTx) : Bool :=
  timeAfter state.jiffies (tx.inTime + BitVec.ofNat 64 (amsduMaxLiveTime * setup.hz / 1000))

end TxState

/-- The MSDU goes out on its own. -/
def Alone (skb : Skb) : Prop :=
  amsduMaxSubfrmLen < skb.framelen ∨ wifiMacAmsduCheck skb = true

instance (skb : Skb) : Decidable (Alone skb) := inferInstanceAs (Decidable (_ ∨ _))

/-- The MSDU fits the A-MSDU under construction. -/
def Fits (setup : Setup) (state : TxState) (skb : Skb) (tx : AmsduTx) : Prop :=
  skb.framelen + tx.framelen + etherHeaderLen ≤ state.maxLen skb.key.station ∧
    tx.msduTmpBuf.length + 1 ≤ state.subMax skb.key.station ∧ state.aged setup tx = false

instance (setup : Setup) (state : TxState) (skb : Skb) (tx : AmsduTx) :
    Decidable (Fits setup state skb tx) :=
  inferInstanceAs (Decidable (_ ∧ _ ∧ _))

/-- The A-MSDU is as long as it may be, or has all the MSDUs it may have. -/
def Full (state : TxState) (key : Key) : Prop :=
  (state.amsdutx key).framelen + etherHeaderLen = state.maxLen key.station ∨
    (state.amsdutx key).msduTmpBuf.length = state.subMax key.station

instance (state : TxState) (key : Key) : Decidable (Full state key) :=
  inferInstanceAs (Decidable (_ ∨ _))

def append (skb : Skb) (state : TxState) : TxState :=
  state.put skb.key { state.amsdutx skb.key with
    framelen := (state.amsdutx skb.key).framelen + skb.framelen
    msduTmpBuf := (state.amsdutx skb.key).msduTmpBuf ++ [skb] }

/-- The array is full and no memory was found: its MSDUs are completed, the last one first. -/
def dropFull (key : Key) (state : TxState) : TxState :=
  let tx := state.amsdutx key
  if tx.msduTmpBuf.length < defaultTxamsduSubMaxBw80 * 2 then state
  else
    let state := state.complete (tx.msduTmpBuf.reverse.map TxBuf.msdu)
    { state.put key { tx with framelen := 0, msduTmpBuf := [] } with
      lost := state.lost ++ tx.msduTmpBuf.reverse }

/-- The A-MSDU of a key gets its time when its first MSDU comes. -/
def stamp (key : Key) (state : TxState) : TxState :=
  if (state.amsdutx key).msduTmpBuf = [] then
    state.put key { state.amsdutx key with inTime := state.jiffies }
  else state

/-- `wifi_mac_amsdu_ex`; `first` answers for the A-MSDU, `second` for an MSDU on its own. -/
def wifiMacAmsduEx (setup : Setup) (first second : Outcome) (skb : Skb) (state : TxState) :
    TxState :=
  if Alone skb then
    let state := aggrSend first skb.key state
    wifiMacAmsduTx2drvlay second skb.key
      (state.put skb.key { state.amsdutx skb.key with amsduTxBuf := some (.msdu skb) })
  else
    let state := stamp skb.key state
    if Fits setup state skb (state.amsdutx skb.key) then
      let state := append skb state
      if Full state skb.key then aggrSend first skb.key state else state
    else append skb (dropFull skb.key (aggrSend first skb.key state))

/-- The MSDUs of the free list are completed, and their nodes given back. -/
def drain (state : TxState) : TxState :=
  { state.complete state.freeAmsduList with
    freeNodes := state.freeNodes + state.freeAmsduList.length
    freeAmsduList := [] }

/-- The loop of `wifi_mac_amsdu_tasklet` over the queues, up to the next MSDU it takes. -/
def scan : List Key → TxState → TxState
  | [], state => drain { state with wmAmsduTxq := [], tasklet := .idle }
  | key :: rest, state =>
    let tx := state.amsdutx key
    match tx.msduList with
    | skb :: others =>
      { state.put key { tx with msduList := others } with
        wmAmsduTxq := key :: rest
        tasklet := .taken skb }
    | [] =>
      if tx.msduTmpBuf = [] then scan rest (state.put key { tx with bWork := false })
      else drain { state with wmAmsduTxq := key :: rest, tasklet := .checking key }

/-- The end of `wifi_mac_amsdu_tasklet`: an old A-MSDU is handed down. -/
def checkAge (setup : Setup) (outcome : Outcome) (key : Key) (state : TxState) : TxState :=
  if state.aged setup (state.amsdutx key) = true then aggrSend outcome key state else state

/-- `wifi_mac_amsdu_send`: whether it kept the MSDU. -/
def wifiMacAmsduSend (setup : Setup) (skb : Skb) (state : TxState) : Bool × TxState :=
  let vid := setup.vid skb.key.station
  if setup.staAmsdu skb.key.station = false then (false, state)
  else if setup.vmFragthreshold vid < fragmtThresholdMax ∨ setup.vmOpmode vid = .other then
    (false, state)
  else if state.freeNodes = 0 then (false, state)
  else
    let tx := state.amsdutx skb.key
    (true, { state.put skb.key { tx with msduList := tx.msduList ++ [skb], bWork := true } with
      freeNodes := state.freeNodes - 1
      msduCnt := Function.update state.msduCnt skb.key.tid (state.msduCnt skb.key.tid + 1)
      wmAmsduTxq := if tx.bWork then state.wmAmsduTxq else state.wmAmsduTxq ++ [skb.key] })

/-- What `wifi_mac_tx_send` does with an MSDU that `wifi_mac_amsdu_send` gives back. -/
def sendAlone (outcome : Outcome) (skb : Skb) (state : TxState) : TxState :=
  if !outcome.encap then { state with lost := state.lost ++ [skb] }
  else if !outcome.txinfo then { state.complete [.msdu skb] with lost := state.lost ++ [skb] }
  else { state with air := state.air ++ [⟨.msdu skb, state.amsduMaxLength skb.key.station⟩] }

section Flush

/-- An MSDU buffer or an A-MSDU goes to `free_amsdu_list`. -/
def setFree (buf : TxBuf) (state : TxState) : TxState :=
  { state.uncount buf.key.tid buf.members.length with
    freeAmsduList := state.freeAmsduList ++ [buf]
    lost := state.lost ++ buf.members }

/-- The A-MSDU of a queue is freed; there may be no node for it. -/
def freeTxBuf (key : Key) (state : TxState) : Bool × TxState :=
  match (state.amsdutx key).amsduTxBuf with
  | none => (true, state)
  | some buf =>
    let state := state.put key { state.amsdutx key with amsduTxBuf := none }
    if state.freeNodes = 0 then (false, { state with lost := state.lost ++ buf.members })
    else (true, setFree buf { state with freeNodes := state.freeNodes - 1 })

/-- The MSDUs of the list move to `free_amsdu_list` with their nodes. -/
def freeMsduList (key : Key) (state : TxState) : TxState :=
  let skbs := (state.amsdutx key).msduList
  skbs.foldl (fun state skb => setFree (.msdu skb) state)
    (state.put key { state.amsdutx key with msduList := [] })

/-- The MSDUs of the array, from the last one; the loop ends when there is no node. -/
def freeTmpBuf (key : Key) : List Skb → TxState → TxState
  | [], state => state
  | skb :: before, state =>
    let state := state.put key { state.amsdutx key with msduTmpBuf := before.reverse }
    if state.freeNodes = 0 then { state with lost := state.lost ++ [skb] }
    else
      freeTmpBuf key before
        (setFree (.msdu skb) { state with freeNodes := state.freeNodes - 1 })

/-- The flush works on the queues of an interface, or on all with the number 3. -/
def Hit (setup : Setup) (vid : Nat) (key : Key) : Prop := setup.vid key.station = vid ∨ vid = 3

instance (setup : Setup) (vid : Nat) (key : Key) : Decidable (Hit setup vid key) :=
  inferInstanceAs (Decidable (_ ∨ _))

/-- `wifi_mac_txamsdu_free_all`; `notFree` are the queues of other interfaces. -/
def wifiMacTxamsduFreeAll (setup : Setup) (vid : Nat) : List Key → List Key → TxState → TxState
  | [], notFree, state => { state with wmAmsduTxq := notFree }
  | key :: rest, notFree, state =>
    if Hit setup vid key then
      let state := state.put key { state.amsdutx key with bWork := false }
      let (freed, state) := freeTxBuf key state
      if freed then
        let state := freeMsduList key state
        wifiMacTxamsduFreeAll setup vid rest notFree
          (freeTmpBuf key (state.amsdutx key).msduTmpBuf.reverse state)
      else { state with wmAmsduTxq := rest ++ notFree }
    else wifiMacTxamsduFreeAll setup vid rest (notFree ++ [key]) state

end Flush

section Negotiate

/-- The `MAX_MPDU_LEN` of the VHT capabilities. -/
inductive VhtMpdu where
  | len3895
  | len7991
  | len11454
  deriving DecidableEq, Repr

/-- `VHT_MPDU_SIZE_3895`, `VHT_MPDU_SIZE_7991` or `VHT_MPDU_SIZE_11451` -/
def VhtMpdu.size : VhtMpdu → Nat
  | .len3895 => 3895
  | .len7991 => 7991
  | .len11454 => 11451

/-- `AMSDU_SIZE_7935` or `AMSDU_SIZE_3839`, as `WIFINET_HTCAP_C_MAXAMSDUSIZE` says. -/
def htSize (maxamsdusize : Bool) : Nat := if maxamsdusize then 7935 else 3839

/-- `wifi_mac_alloc_amsdu_node`: the `amsdu_max_length` of a new station. -/
def allocAmsduLength (vht : VhtMpdu) (maxamsdusize : Bool) : Nat :=
  min (min amsduMaxBufferSizeBw80 vht.size) (htSize maxamsdusize)

/-- A capability element of a station takes its `amsdu_max_length` down. -/
def negotiate (station size : Nat) (state : TxState) : TxState :=
  { state with
    amsduMaxLength := Function.update state.amsduMaxLength station
      (min (state.amsduMaxLength station) size) }

end Negotiate

/-- What can happen, one critical section at a time. -/
inductive TxEvent where
  | send (key : Key) (msdu : Msdu) (outcome : Outcome)
  | begin
  | work (first second : Outcome)
  | resume
  | age (outcome : Outcome)
  | flush (vid : Nat)
  | tick
  | staBandwidth (station : Nat) (is80 : Bool)
  | curChannel (is80 : Bool)
  | htcap (station : Nat) (maxamsdusize : Bool)
  | vhtcap (station : Nat) (vht : VhtMpdu)

/-- A step of the device. The tasklet lock keeps a flush away from a running tasklet. -/
def step (setup : Setup) (state : TxState) : TxEvent → TxState
  | .send key msdu outcome =>
    let skb : Skb := ⟨state.offered.length, key, msdu⟩
    let state := { state with offered := state.offered ++ [skb] }
    let (kept, state) := wifiMacAmsduSend setup skb state
    if kept then state else sendAlone outcome skb state
  | .begin =>
    match state.tasklet with
    | .idle => scan state.wmAmsduTxq state
    | _ => state
  | .work first second =>
    match state.tasklet with
    | .taken skb => { wifiMacAmsduEx setup first second skb state with tasklet := .returned }
    | _ => state
  | .resume =>
    match state.tasklet with
    | .returned => scan state.wmAmsduTxq { state with freeNodes := state.freeNodes + 1 }
    | _ => state
  | .age outcome =>
    match state.tasklet with
    | .checking key => { checkAge setup outcome key state with tasklet := .idle }
    | _ => state
  | .flush vid =>
    match state.tasklet with
    | .idle => wifiMacTxamsduFreeAll setup vid state.wmAmsduTxq [] state
    | _ => state
  | .tick => { state with jiffies := state.jiffies + 1 }
  | .staBandwidth station is80 =>
    { state with staChbw80 := Function.update state.staChbw80 station is80 }
  | .curChannel is80 => { state with curChan80 := is80 }
  | .htcap station maxamsdusize => negotiate station (htSize maxamsdusize) state
  | .vhtcap station vht => negotiate station vht.size state

/-- The queue of a new station: `wifi_mac_alloc_amsdu_node`. -/
def newAmsduTx : AmsduTx := ⟨none, false, 0, [], 0, []⟩

/-- `wifi_mac_amsdu_attach`, with the stations as `wifi_mac_alloc_amsdu_node` leaves them. -/
def attached (vht : Nat → VhtMpdu) (maxamsdusize : Nat → Bool) : TxState where
  jiffies := 0
  staChbw80 := fun _ => false
  curChan80 := false
  amsduMaxLength := fun station => allocAmsduLength (vht station) (maxamsdusize station)
  amsdutx := fun _ => newAmsduTx
  wmAmsduTxq := []
  freeNodes := msduNodes
  freeAmsduList := []
  msduCnt := fun _ => 0
  tasklet := .idle
  crashed := false
  overrun := false
  offered := []
  air := []
  completed := []
  lost := []

end W522a.TxAmsdu
