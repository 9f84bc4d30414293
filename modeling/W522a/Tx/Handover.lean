import W522a.Lib.Ledger
import W522a.Hal.TxId
import W522a.Mac.Fragment

/-!
The way of a frame from the interface to the driver, as far as it decides who owns the buffer: each
function says what it does to the buffer and what it returns.
-/

namespace W522a.Handover

open Ledger (Action)
open Hal (halNumTxQueues)

@[simp] abbrev wifinetRecoveryVifUp : Nat := 4

/-- `HI_TXDESC_DATAOFFSET`: what stands before the data in the packed `hi_tx_desc`. -/
@[simp] abbrev hiTxdescDataoffset : Nat := 104

/-- The operating modes that the way down tells apart. -/
inductive TxOpmode where
  | ibss
  | wds
  | hostap
  | sta
  | monitor
  | p2p
  | other
  deriving DecidableEq, Repr

/-- What `drv_to_hal` finds: the station behind the descriptor, its interface, whether the queue is
the frame's, whether the hardware has room, and its operations. -/
structure HalView where
  netNsta : Bool
  staWnetVif : Bool
  queueMatches : Bool
  halBufferFull : Bool
  halOps : Bool

/-- `drv_to_hal` for one frame that is no aggregate. -/
def drvToHal (view : HalView) (copy : Nat) : List Action × Int :=
  if !view.netNsta then ([], -1)
  else if !view.staWnetVif || !view.queueMatches then ([], -1)
  else if view.halBufferFull then ([], -1)
  else if !view.halOps then ([], -1)
  else ([.accept copy], 0)

/-- What `drv_tx_normal` finds. -/
structure NormalView where
  isMotherChannel : Bool
  probereq : Bool
  halBufferFull : Bool
  backupQcnt : Nat
  hal : HalView

/-- `drv_tx_normal` for a list of one frame; it does not look at what `drv_to_hal` returns. -/
def drvTxNormal (view : NormalView) (copy : Nat) : List Action × Int :=
  if !view.isMotherChannel && !view.probereq then ([.touch copy, .accept copy], 0)
  else if view.halBufferFull then ([.touch copy, .accept copy], 0)
  else if 0 < view.backupQcnt then ([.touch copy, .accept copy], 0)
  else (.touch copy :: (drvToHal view.hal copy).1, 0)

/-- What `drv_send` finds: whether its own checks pass, and which queue is the frame's. The last
field says that the driver is through with the frame before `drv_send` returns. -/
structure SendView where
  txinfo : Bool
  staDrvSta : Bool
  tidIndex : Nat
  queueId : Nat
  txqueueSetup : Bool
  prepared : Bool
  bUapsd : Bool
  qosData : Bool
  bAmpdu : Bool
  txlistQnum : Nat
  pendingFuse : Bool
  bMcast : Bool
  ps : Bool
  normal : NormalView
  finished : Bool

def drvTxSendAmpdu (view : SendView) (copy : Nat) : List Action × Int :=
  if view.txlistQnum ≠ view.queueId then ([], -1)
  else if view.pendingFuse then drvTxNormal view.normal copy
  else ([.accept copy], 0)

/-- The queues of `drv_send` -/
def drvSendQueue (view : SendView) (copy : Nat) : List Action × Int :=
  if view.bUapsd && view.qosData then ([.accept copy], 0)
  else if view.bAmpdu then drvTxSendAmpdu view copy
  else if view.bMcast && view.ps then ([.accept copy], 0)
  else drvTxNormal view.normal copy

/-- `drv_send`; the driver may finish a frame that it took. -/
def drvSend (view : SendView) (copy : Nat) : List Action × Int :=
  if !view.txinfo || wmeNumTid ≤ view.tidIndex || halNumTxQueues ≤ view.queueId then ([], -22)
  else if !view.staDrvSta then ([], -22)
  else if !view.txqueueSetup then ([], -22)
  else if !view.prepared then ([.touch copy], -12)
  else
    let (queued, error) := drvSendQueue view copy
    if error ≠ 0 then (.touch copy :: queued, -12)
    else if view.finished && queued.contains (.accept copy) then
      (.touch copy :: queued ++ [.finish copy], 0)
    else (.touch copy :: queued, 0)

/-- What `drv_tx_start` finds. -/
structure StartView where
  netOps : Bool
  sta : Bool
  txinfo : Bool
  ptxdesc : Bool
  tidIndex : Nat
  wnetVif : Bool
  vmWmac : Bool
  vmOpmode : TxOpmode
  recoveryStat : Nat
  drvSta : Bool
  bDatapkt : Bool
  bNulldata : Bool
  bMcast : Bool
  bEap : Bool
  aggrAllowed : Bool
  tidTxBuffSending : Bool
  drvPktDrop : Bool
  pwrSavBypass : Bool
  uapsd : Bool
  psQueue : Bool
  ps4quiet : Bool
  probereq : Bool
  connected : Bool
  nodePwrMgt : Bool
  pstxqueueFull : Bool
  headerRoom : Nat
  tailRoom : Nat
  aligned : Bool
  copyExpanded : Bool
  send : SendView

/-- `wifi_mac_pwrsave_psqueue_enqueue`, which frees what does not fit. -/
def wifiMacPwrsavePsqueueEnqueue (pstxqueueFull : Bool) (copy : Nat) : List Action :=
  if pstxqueueFull then [.complete copy] else [.accept copy]

/-- The frame waits for the interface, which is asleep for the access point. -/
def StartView.waitsForVif (view : StartView) : Bool :=
  view.psQueue && !(view.ps4quiet && view.probereq)

/-- The buffer has no room for what the hardware needs before and behind the frame. -/
def StartView.needsRoom (view : StartView) : Bool :=
  view.headerRoom < hiTxdescDataoffset + 32 || view.tailRoom < 32 || !view.aligned

/-- The loop of `drv_tx_start` that is run once: what is done, the copy that is left, and the
error. -/
def drvTxQueue (view : StartView) (copy : Nat) : List Action × Nat × Int :=
  if view.drvPktDrop then ([.touch copy], copy, -4)
  else if !view.pwrSavBypass && !view.uapsd && view.waitsForVif then
    if !view.connected then ([.touch copy], copy, -5)
    else ([.touch copy, .accept copy], copy, 0)
  else if !view.pwrSavBypass && !view.uapsd && view.nodePwrMgt then
    (.touch copy :: wifiMacPwrsavePsqueueEnqueue view.pstxqueueFull copy, copy, 0)
  else if view.needsRoom then
    if !view.copyExpanded then ([.touch copy], copy, -5)
    else
      let (sent, error) := drvSend view.send (copy + 1)
      ([.touch copy, .replace copy] ++ sent, copy + 1, error)
  else
    let (sent, error) := drvSend view.send copy
    (.touch copy :: sent, copy, error)

def drvTxStart (view : StartView) (copy : Nat) : List Action × Int :=
  if !view.netOps then ([], -1)
  else if !view.sta || !view.txinfo || !view.ptxdesc || wmeNumTid ≤ view.tidIndex ||
      !view.wnetVif || !view.vmWmac then ([.touch copy, .complete copy], -1)
  else if view.vmOpmode ≠ .hostap ∧ view.recoveryStat < wifinetRecoveryVifUp then
    ([.touch copy], -2)
  else if !view.drvSta then ([.touch copy], -3)
  else if (view.bDatapkt && !view.bNulldata && !view.bMcast && !view.bEap) && !view.aggrAllowed &&
      !view.tidTxBuffSending then ([.touch copy, .accept copy], 0)
  else
    let (queued, left, error) := drvTxQueue view copy
    if error < 0 then (.touch copy :: queued ++ [.complete left], error)
    else (.touch copy :: queued, error)

/-- What `wifi_mac_build_txinfo` finds: how the frame is protected, the key for it, and whether its
type is known. -/
structure InfoView where
  protect : Bool
  bPmf : Bool
  defaultKey : Bool
  vmDefTxkey : Bool
  cipher : Bool
  wmEncap : Bool
  hdrspace : Nat
  wmHeader : Nat
  encapped : Bool
  cipherStays : Bool
  typeKnown : Bool

/-- `wifi_mac_security_encap` finds a key. -/
def wifiMacSecurityEncap (view : InfoView) : Bool :=
  if view.defaultKey && !view.vmDefTxkey then false
  else if !view.cipher then false
  else if !view.wmEncap then false
  else if view.hdrspace < view.wmHeader then false
  else view.encapped

def wifiMacBuildTxinfo (view : InfoView) : Int :=
  if view.protect && !view.bPmf && !wifiMacSecurityEncap view then -5
  else if view.protect && !view.bPmf && !view.cipherStays then -5
  else if !view.typeKnown then -5
  else 0

/-- What `wifi_mac_encap` finds. The key comes with the cipher behind it. -/
structure EncapView where
  room : Bool
  copyExpanded : Bool
  use4addr : Bool
  vmOpmode : TxOpmode
  mainsta : Bool
  pktlen : Nat
  hdrsizeNopad : Nat
  multicast : Bool
  env : Mac.EncapEnv
  enmicOk : Bool

/-- A frame and the copy of it that is there. -/
structure TxBuffer where
  frame : Nat
  copy : Nat
  deriving DecidableEq, Repr

def TxBuffer.act (skbbuf : TxBuffer) (actions : List Action) : List (Nat × Action) :=
  actions.map fun action => (skbbuf.frame, action)

/-- `wifi_mac_complete_wbuf` for the frames of a list, one after another. -/
def completeAll (list : List TxBuffer) : List (Nat × Action) :=
  list.flatMap fun skbbuf => skbbuf.act [.complete skbbuf.copy]

def allocFragments (allocOk : Nat → Bool) : Nat → Nat → Nat
  | 0, skbcnt => skbcnt
  | turns + 1, skbcnt =>
    if allocOk skbcnt then allocFragments allocOk turns (skbcnt + 1) else skbcnt

/-- `framelist` after so many turns: each new buffer is put before the others. -/
def framelist (skbcnt : Nat) : List TxBuffer :=
  (List.range' 1 (skbcnt - 1)).reverse.map fun frame => ⟨frame, 0⟩

def giveAll (list : List TxBuffer) : List (Nat × Action) :=
  list.flatMap fun skbbuf => skbbuf.act [.give]

/-- `bad` of `wifi_mac_encap` -/
def encapBad (list : List TxBuffer) (skb : TxBuffer) : List (Nat × Action) :=
  completeAll list ++ skb.act [.complete skb.copy]

/-- The mode makes no header. -/
def EncapView.noHeader (view : EncapView) : Bool :=
  !view.use4addr && (view.vmOpmode == .monitor || view.vmOpmode == .p2p)

def EncapView.fragments (view : EncapView) : Bool :=
  view.env.vmFragthreshold < view.pktlen && !view.multicast && !view.env.isAmsdu

def EncapView.fragcnt (view : EncapView) : Int :=
  if view.fragments then
    Mac.fragCount ((view.pktlen : Int) - (view.hdrsizeNopad + view.env.ciphdrsize))
      (view.env.pdusize view.hdrsizeNopad)
  else 1

/-- `wifi_mac_encap` behind the header: the fragments are allocated, the frame gets its MIC, and
each fragment its part. -/
def encapBody (view : EncapView) (skb : TxBuffer) : List (Nat × Action) × List TxBuffer :=
  let touched := skb.act [.touch skb.copy]
  let noCipher := view.fragments && view.env.key == some none
  if noCipher then (touched ++ encapBad [] skb, [])
  else
    let skbcnt := if view.fragments then
      allocFragments view.env.allocOk (view.fragcnt - 1).toNat 1 else 1
    let list := framelist skbcnt
    let given := touched ++ giveAll list
    if (skbcnt : Int) ≠ view.fragcnt then (given ++ encapBad list skb, [])
    else if view.env.key.isSome && view.env.protect && !view.enmicOk then
      (given ++ encapBad list skb, [])
    else (given ++ list.flatMap fun fragment => fragment.act [.touch fragment.copy], skb :: list)

/-- `wifi_mac_encap` for the frame 0: what is done, and the buffers that are to be sent. -/
def wifiMacEncap (view : EncapView) : List (Nat × Action) × List TxBuffer :=
  let skb : TxBuffer := ⟨0, 0⟩
  if !view.room && !view.copyExpanded then (skb.act [.touch 0, .complete 0], [])
  else
    let (moved, skb) : List (Nat × Action) × TxBuffer :=
      if view.room then (skb.act [.touch 0], skb)
      else (skb.act [.touch 0, .replace 0], { skb with copy := 1 })
    if !view.use4addr && view.vmOpmode == .ibss && !view.mainsta then
      (moved ++ encapBad [] skb, [])
    else if view.noHeader then (moved ++ encapBad [] skb, [])
    else
      let (events, list) := encapBody view skb
      (moved ++ events, list)

/-- `bad` of `wifi_mac_tx_send`, which counts the frame by its `tid` after it is completed. -/
def txSendBad (list : List TxBuffer) : List (Nat × Action) :=
  list.flatMap fun skbbuf => skbbuf.act [.touch skbbuf.copy, .complete skbbuf.copy,
    .touch skbbuf.copy]

def txSendLoop (info : Nat → InfoView) (start : Nat → StartView) :
    List TxBuffer → List (Nat × Action)
  | [] => []
  | skbbuf :: next =>
    let touched := skbbuf.act [.touch skbbuf.copy]
    if wifiMacBuildTxinfo (info skbbuf.frame) ≠ 0 then touched ++ txSendBad (skbbuf :: next)
    else
      let (started, error) := drvTxStart (start skbbuf.frame) skbbuf.copy
      if error ≠ 0 then touched ++ skbbuf.act started ++ completeAll next
      else touched ++ skbbuf.act started ++ txSendLoop info start next

/-- What `wifi_mac_tx_send` finds: whether the frame has its station, interface and descriptor, what
`wifi_mac_amsdu_send` does with it, and what is found for each fragment. -/
structure TxSendView where
  nsta : Bool
  drvOps : Bool
  txinfo : Bool
  special : Bool
  amsduSupported : Bool
  amsduTakes : Bool
  encap : EncapView
  info : Nat → InfoView
  start : Nat → StartView

/-- `wifi_mac_tx_send` for the frame 0. Aggregation is a new owner of what it takes. -/
def wifiMacTxSend (view : TxSendView) : List (Nat × Action) :=
  let skbbuf : TxBuffer := ⟨0, 0⟩
  if !view.nsta then skbbuf.act [.touch 0, .complete 0]
  else if !view.drvOps then skbbuf.act [.touch 0, .complete 0]
  else if !view.txinfo then skbbuf.act [.touch 0, .complete 0]
  else if view.amsduSupported && !view.special && view.amsduTakes then
    skbbuf.act [.touch 0, .accept 0]
  else
    let (events, list) := wifiMacEncap view.encap
    skbbuf.act [.touch 0] ++ events ++ txSendLoop view.info view.start list

/-- What `wifi_mac_tx_mgmt_frm` finds. The last field says that debug messages are printed. -/
structure TxMgmtView where
  rfTest : Bool
  protect : Bool
  multicast : Bool
  mmieOk : Bool
  encryptOk : Bool
  info : InfoView
  start : StartView
  debug : Bool

/-- `wifi_mac_tx_mgmt_frm` for the frame 0. Its messages print what they find in the buffer. -/
def wifiMacTxMgmtFrm (view : TxMgmtView) : List (Nat × Action) :=
  let skbbuf : TxBuffer := ⟨0, 0⟩
  if view.rfTest then skbbuf.act [.complete 0]
  else if view.protect && view.multicast && !view.mmieOk then skbbuf.act [.touch 0, .complete 0]
  else if view.protect && !view.encryptOk then skbbuf.act [.touch 0, .complete 0]
  else if wifiMacBuildTxinfo view.info ≠ 0 then skbbuf.act [.touch 0, .complete 0]
  else
    let (started, error) := drvTxStart view.start 0
    skbbuf.act (.touch 0 :: started ++
      if error ≠ 0 then [.touch 0] else if view.debug then [.touch 0] else [])

end W522a.Handover
