import W522a.Lib.Flat
import W522a.Hal.Scatter

/-!
The scatter request through the bounce buffer, of a build for another platform than the maker's
that sends whole blocks.
-/

namespace W522a.Hal

open Memory (Traced emit)

@[simp] abbrev sdioMaxSgEntries : Nat := 34

def sdiohApiRcFail : Int := 1

def enomem : Int := -12

def enodev : Int := -19

def einval : Int := -22

def emsgsize : Int := -90

/-- `ALIGN` of 32-bit numbers -/
def align (x a : Nat) : Nat :=
  let mask := (a + (2 ^ 32 - 1)) % 2 ^ 32
  (x + mask) % 2 ^ 32 &&& (2 ^ 32 - 1 - mask)

/-- `struct amlw_hif_scatter_item`: the bits of its two `int` fields, and the memory behind its
packet. -/
structure ScatItem where
  len : BitVec 32
  pageNum : BitVec 32
  packet : Option (Nat → UInt8)

/-- `struct amlw_hif_scatter_req` -/
structure ScatReq where
  addr : Nat
  hifWrite : Bool
  hifAsynchronous : Bool
  hasComplete : Bool
  scatCount : Int
  scatList : List ScatItem
  whole : scatList.length = sdioMaxSgEntries

/-- A function of the card, with the limits of its host. -/
structure SdioFunc where
  num : Nat
  curBlksize : Nat
  maxBlkCount : Nat
  maxReqSize : Nat

/-- `struct amlw_hwif_sdio`: its functions, where card and host are known too, and the bounce buffer
with its contents. -/
structure SdioPriv where
  sdioFuncIf : Nat → Option SdioFunc
  hasBounce : Bool
  bounceBufSize : Nat
  bounceBuf : Int → UInt8
  sizeFits : bounceBufSize < 2 ^ 32

/-- What the host and the card make of a CMD53: errors, and what is read. -/
structure MmcTransfer where
  cmdError : Int
  dataError : Int
  data : Nat → UInt8

/-- A CMD53. -/
structure Cmd53 where
  write : Bool
  num : Nat
  addr : Nat
  blocks : Nat
  data : List UInt8
  deriving DecidableEq

/-- What a request does: writes to the bounce buffer, transfers, new values of `tx_page_offset`,
copies to the packets, and its completion, which calls back for each item. -/
inductive ScatEvent where
  | fill (pos : Int) (size : Nat)
  | cmd53 (cmd : Cmd53)
  | pageOffset (offset : Nat)
  | copyOut (data : List UInt8)
  | callback (index : Nat)
  | freed
  deriving DecidableEq

/-- An event that may be left out. -/
def emitIf (condition : Bool) (event : ScatEvent) : Traced ScatEvent Unit :=
  if condition then emit event else pure ()

/-- An `int` as the size of `memcpy` or `memset`. -/
def sizeT (size : BitVec 32) : Nat := (size.signExtend 64).toNat

def ScatReq.items (req : ScatReq) : List ScatItem := req.scatList.take req.scatCount.toNat

/-- `aml_sdio_cmd53_buf_rw`. A read fills the buffer. -/
def amlSdioCmd53BufRw (func : SdioFunc) (addr len : Nat) (write : Bool) (buf : List UInt8)
    (transfer : MmcTransfer) : Traced ScatEvent Int :=
  if len = 0 then pure einval
  else if func.curBlksize = 0 ∨ len % func.curBlksize ≠ 0 then pure einval
  else
    let blkcnt := len / func.curBlksize
    if blkcnt = 0 ∨ sdioMaxBlkCnt < blkcnt then pure einval
    else do
      emit (.cmd53 ⟨write, func.num % 8, addr % 2 ^ 17, blkcnt, buf⟩)
      emitIf (!write) (.fill 0 len)
      pure (if transfer.cmdError ≠ 0 then transfer.cmdError else transfer.dataError)

/-- The loop of `aml_sdio_validate_scat_req`. The checks keep `total` within the buffer. -/
def validateItems (curBlksize maxReqSize bounceSize : Nat) :
    Nat → List ScatItem → Except Int Nat
  | total, [] => .ok total
  | total, item :: rest =>
    let pktLen := item.len.toNat
    let aligned := align pktLen curBlksize
    if pktLen = 0 ∨ item.packet.isNone then .error einval
    else if aligned < pktLen ∨ maxReqSize < aligned then .error emsgsize
    else if bounceSize < total ∨ bounceSize - total < aligned then .error emsgsize
    else validateItems curBlksize maxReqSize bounceSize (total + aligned) rest

def amlSdioValidateScatReq (req : ScatReq) (func : SdioFunc) (maxReqSize bounceSize : Nat) :
    Except Int Nat :=
  if func.curBlksize = 0 then .error einval
  else if req.scatCount ≤ 0 ∨ (sdioMaxSgEntries : Int) < req.scatCount then .error einval
  else validateItems func.curBlksize maxReqSize bounceSize 0 req.items

/-- The calls of `complete`: also a count that was refused is gone through, and an index from
`sdioMaxSgEntries` on is past the end of `scat_list`. -/
def scatCallbacks (req : ScatReq) : Traced ScatEvent Unit :=
  if req.hasComplete then (List.range req.scatCount.toNat).forM fun index => emit (.callback index)
  else pure ()

def amlSdioScatComplete (req : ScatReq) : Traced ScatEvent Unit := do
  scatCallbacks req
  emit .freed

/-- The copies to the packets, from an offset of what was read. -/
def copyPackets (curBlksize : Nat) (data : Int → UInt8) :
    Nat → List ScatItem → Traced ScatEvent Unit
  | _, [] => pure ()
  | copyOffset, item :: rest => do
    emit (.copyOut (Flat.load data copyOffset (sizeT item.len)))
    copyPackets curBlksize data (copyOffset + align item.len.toNat curBlksize) rest

/-- The locals of a turn of the writing loop, and the bounce buffer. -/
structure Packing where
  ttlLen : Nat
  ttlPageNum : Nat
  bouncePos : Nat
  bounceBuf : Int → UInt8

/-- A packet is copied behind those before it. -/
def packItem (blkSize : Nat) (item : ScatItem) (packing : Packing) : Traced ScatEvent Packing := do
  let sgDataSize := align item.len.toNat blkSize
  let copyLen := item.len
  let pos : Int := packing.bouncePos
  let padding := BitVec.ofNat 32 sgDataSize - copyLen
  -- both lengths are compared as `int`
  let pads := decide (copyLen.toInt < (BitVec.ofNat 32 sgDataSize).toInt)
  let copied := Flat.fill packing.bounceBuf pos (sizeT copyLen) (item.packet.getD fun _ => 0)
  emit (.fill pos (sizeT copyLen))
  emitIf pads (.fill (pos + copyLen.toInt) (sizeT padding))
  pure
    { ttlLen := (packing.ttlLen + sgDataSize) % 2 ^ 32
      ttlPageNum := (packing.ttlPageNum + item.pageNum.toNat) % 2 ^ 32
      bouncePos := (packing.bouncePos + sgDataSize) % 2 ^ 32
      bounceBuf :=
        if pads then Flat.fill copied (pos + copyLen.toInt) (sizeT padding) fun _ => 0
        else copied }

/-- The inner loop of `aml_sdio_scat_req_rw`: it copies packets as long as they fit, and returns
those that are left. -/
def packItems (blkSize maxReqSize : Nat) :
    List ScatItem → Packing → Traced ScatEvent (List ScatItem × Packing)
  | [], packing => pure ([], packing)
  | item :: rest, packing =>
    if maxReqSize ≤ packing.ttlLen then pure (item :: rest, packing)
    else if maxReqSize - packing.ttlLen < align item.len.toNat blkSize then
      pure (item :: rest, packing)
    else do
      let packing ← packItem blkSize item packing
      packItems blkSize maxReqSize rest packing

/-- The outer loop for a write: the result of the last transfer, and `tx_page_offset`, or nothing if
`fuel` turns are not enough. -/
def scatWrites (func : SdioFunc) (addr maxReqSize : Nat) (transfers : Nat → MmcTransfer) :
    Nat → Nat → List ScatItem → (Int → UInt8) → Int → Nat →
      Traced ScatEvent (Option (Int × Nat))
  | 0, _, _, _, _, _ => pure none
  | _ + 1, _, [], _, result, txPageOffset => pure (some (result, txPageOffset))
  | fuel + 1, index, item :: rest, bounceBuf, _, txPageOffset => do
    let (left, packing) ← packItems func.curBlksize maxReqSize (item :: rest) ⟨0, 0, 0, bounceBuf⟩
    if packing.ttlLen = 0 ∨ packing.ttlLen % func.curBlksize ≠ 0 then
      pure (some (sdiohApiRcFail, txPageOffset))
    else
      let result ← amlSdioCmd53BufRw func addr packing.ttlLen true
        (Flat.load packing.bounceBuf 0 packing.ttlLen) (transfers index)
      if result ≠ 0 then pure (some (result, txPageOffset))
      else
        let txPageOffset := circleAddition2 packing.ttlPageNum txPageOffset txAddresstableNum
        emit (.pageOffset txPageOffset)
        scatWrites func addr maxReqSize transfers fuel (index + 1) left packing.bounceBuf result
          txPageOffset

/-- The branch of `aml_sdio_scat_req_rw` for a read. -/
def scatRead (func : SdioFunc) (req : ScatReq) (maxReqSize rxLen : Nat) (bounceBuf : Int → UInt8)
    (transfer : MmcTransfer) : Traced ScatEvent Int :=
  if maxReqSize < rxLen then pure emsgsize
  else do
    emit (.fill 0 rxLen)
    let result ← amlSdioCmd53BufRw func req.addr rxLen false
      ((List.range rxLen).map transfer.data) transfer
    if result ≠ 0 then pure result
    else do
      copyPackets func.curBlksize (Flat.fill bounceBuf 0 rxLen transfer.data) 0 req.items
      pure result

/-- `max_req_size`, before and after the bounce buffer is looked at -/
def scatMaxReqSize (priv : SdioPriv) (func : SdioFunc) : Nat :=
  let maxReqSize :=
    min (min func.maxBlkCount sdioMaxBlkCnt * func.curBlksize % 2 ^ 32) func.maxReqSize
  if priv.bounceBufSize < maxReqSize then priv.bounceBufSize else maxReqSize

/-- What `aml_sdio_scat_req_rw` does before it completes the request. -/
def scatTransfer (priv : SdioPriv) (req : ScatReq) (transfers : Nat → MmcTransfer)
    (txPageOffset : Nat) : Traced ScatEvent (Option (Int × Nat)) :=
  match priv.sdioFuncIf (if req.hifWrite then 4 else 6) with
  | none => pure (some (enodev, txPageOffset))
  | some func =>
    if func.curBlksize = 0 then pure (some (einval, txPageOffset))
    else if !priv.hasBounce ∨ priv.bounceBufSize = 0 then pure (some (enomem, txPageOffset))
    else
      let maxReqSize := scatMaxReqSize priv func
      match amlSdioValidateScatReq req func maxReqSize priv.bounceBufSize with
      | .error result => pure (some (result, txPageOffset))
      | .ok ttlLen =>
        if req.hifWrite then
          scatWrites func req.addr maxReqSize transfers (req.items.length + 1) 0 req.items
            priv.bounceBuf 0 txPageOffset
        else do
          let result ← scatRead func req maxReqSize ttlLen priv.bounceBuf (transfers 0)
          pure (some (result, txPageOffset))

def scatFinish (req : ScatReq) : Traced ScatEvent Unit :=
  if req.hifAsynchronous then amlSdioScatComplete req else pure ()

/-- `aml_sdio_scat_req_rw`: its result, and `tx_page_offset`. Without a request or its context there
is nothing to complete. -/
def amlSdioScatReqRw (priv : Option SdioPriv) (req : Option ScatReq)
    (transfers : Nat → MmcTransfer) (txPageOffset : Nat) :
    Traced ScatEvent (Option (Int × Nat)) :=
  match priv, req with
  | some priv, some req => do
    let result ← scatTransfer priv req transfers txPageOffset
    scatFinish req
    pure result
  | _, _ => pure (some (einval, txPageOffset))

end W522a.Hal
