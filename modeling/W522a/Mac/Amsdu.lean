import W522a.Lib.Bytes

/-!
The decapsulation of a received data frame and the split of an A-MSDU. The buffer is shared
between a socket buffer and its clones, so the frames are views of it until they are handed up.
-/

namespace W522a.Mac

open Bytes (slice write)

/-- A socket buffer: where its data starts in the buffer, and its length. -/
structure SkbView where
  data : Nat
  len : Nat
  deriving DecidableEq, Repr

def SkbView.bytes (skb : SkbView) (buf : List UInt8) : List UInt8 := slice buf skb.data skb.len

def osSkbPull (skb : SkbView) (count : Nat) : Option SkbView :=
  if skb.len < count then none else some ⟨skb.data + count, skb.len - count⟩

def osSkbPush (skb : SkbView) (count : Nat) : SkbView := ⟨skb.data - count, skb.len + count⟩

def osSkbTrim (skb : SkbView) (length : Nat) : SkbView :=
  if length < skb.len then { skb with len := length } else skb

@[simp] abbrev llcSnapframelen : Nat := 8

/-- The size of `struct ether_header`. -/
@[simp] abbrev etherHeaderLen : Nat := 14

/-- `LLC_SNAP_LSAP` twice, `LLC_UI` and an organisation code of zeros. -/
def llcSnap : List UInt8 := [0xAA, 0xAA, 0x03, 0, 0, 0]

def roundup (value unit : Nat) : Nat := (value + (unit - 1)) / unit * unit

def be16 (buf : List UInt8) (offset : Nat) : Nat :=
  (buf.getD offset 0).toNat * 256 + (buf.getD (offset + 1) 0).toNat

/-- `htons`, as the two bytes it leaves in memory. -/
def htons (value : Nat) : List UInt8 := [UInt8.ofNat (value / 256), UInt8.ofNat value]

/-- Whether the allocations of a reception succeed: the alignment of the payload, the copy that an
unaligned one needs, and the clone of each turn of the split. -/
structure RxAlloc where
  aligned : Bool
  copyOk : Bool
  cloneOk : Nat → Bool

def macByte (header : List UInt8) (offset : Nat) : UInt8 := header.getD offset 0

/-- The destination and the source that the direction bits of `i_fc[1]` select. -/
def etherAddresses (header : List UInt8) : List UInt8 × List UInt8 :=
  match (macByte header 1).toNat % 4 with
  | 0 => (slice header 4 6, slice header 10 6)
  | 1 => (slice header 16 6, slice header 10 6)
  | 2 => (slice header 4 6, slice header 16 6)
  | _ => (slice header 16 6, slice header 24 6)

def wifiMacDecap (alloc : RxAlloc) (hdrlen : Nat) (isFwd : Bool) (buf : List UInt8)
    (skb : SkbView) : Option (List UInt8 × SkbView) :=
  let wh := slice buf skb.data hdrlen
  let qosAmsdu := (macByte wh 0).toNat / 16 = 8 ∧ (macByte wh 24).toNat / 128 = 1
  let hdrlen := if isFwd ∧ qosAmsdu then hdrlen + 14 else hdrlen
  match osSkbPull skb hdrlen with
  | none => none
  | some llc =>
    let isSnap := llcSnapframelen ≤ llc.len ∧ slice buf llc.data 6 = llcSnap
    let payload := if isSnap then (osSkbPull llc llcSnapframelen).getD llc else llc
    let eh := osSkbPush payload etherHeaderLen
    if !alloc.aligned ∧ !alloc.copyOk then none
    else
      let etherType :=
        if isSnap then slice buf (llc.data + 6) 2 else htons (eh.len - etherHeaderLen)
      let (dhost, shost) := etherAddresses wh
      some (write buf eh.data (dhost ++ shost ++ etherType), eh)

def wifiMacAmsduSubframeDecap (buf : List UInt8) (skb : SkbView) : List UInt8 × SkbView :=
  match osSkbPull skb etherHeaderLen with
  | none => (buf, skb)
  | some llc =>
    let ehSrc := slice buf skb.data 12 ++ slice buf (llc.data + 6) 2
    match osSkbPull llc llcSnapframelen with
    | none => (buf, llc)
    | some payload =>
      let ehDst := osSkbPush payload etherHeaderLen
      (write buf ehDst.data ehSrc, ehDst)

/-- `__wifi_mac_deliver_data` with a list to batch on. -/
def wifiMacDeliverData (skb : SkbView) (batchList : List SkbView) : List SkbView :=
  if skb.len < etherHeaderLen then batchList else batchList ++ [skb]

/-- The buffer, what is left of the A-MSDU, and the frames batched in `amsdu_list`. -/
structure AmsduState where
  buf : List UInt8
  skb : SkbView
  amsduList : List SkbView

/-- The loop of `wifi_mac_amsdu_input`; the length of what is left bounds its turns. -/
def amsduLoop (alloc : RxAlloc) : Nat → Nat → AmsduState → AmsduState
  | 0, _, state => state
  | fuel + 1, turn, state =>
    if state.skb.len < etherHeaderLen then state
    else if be16 state.buf (state.skb.data + 12) < llcSnapframelen then state
    else
      let subfrmLen := be16 state.buf (state.skb.data + 12) + etherHeaderLen
      let (buf, subfrm) := wifiMacAmsduSubframeDecap state.buf state.skb
      if state.skb.len = subfrmLen then
        ⟨buf, subfrm, wifiMacDeliverData subfrm state.amsduList⟩
      else if state.skb.len < roundup subfrmLen 4 then state
      else if !alloc.cloneOk turn then state
      else
        amsduLoop alloc fuel (turn + 1)
          ⟨buf, (osSkbPull state.skb (roundup subfrmLen 4)).getD state.skb,
            wifiMacDeliverData (osSkbTrim subfrm (subfrmLen - llcSnapframelen)) state.amsduList⟩

/-- `wifi_mac_amsdu_input`: the frames of the flushed batch, as they are in the buffer then. -/
def wifiMacAmsduInput (alloc : RxAlloc) (buf : List UInt8) (skb : SkbView) : List (List UInt8) :=
  if skb.len < etherHeaderLen then []
  else
    let inner := (osSkbPull skb etherHeaderLen).getD skb
    let final := amsduLoop alloc inner.len 0 ⟨buf, inner, []⟩
    final.amsduList.map fun subfrm => subfrm.bytes final.buf

/-- An A-MSDU on its way from `wifi_mac_input`: decapsulated, then split. -/
def receiveAmsdu (alloc : RxAlloc) (hdrlen : Nat) (buf : List UInt8) : List (List UInt8) :=
  match wifiMacDecap alloc hdrlen false buf ⟨0, buf.length⟩ with
  | none => []
  | some (buf, skb) => wifiMacAmsduInput alloc buf skb

abbrev MacAddr : Type := { bytes : List UInt8 // bytes.length = 6 }

/-- A subframe of an A-MSDU with an LLC/SNAP payload, and the bytes it may be padded with. -/
structure Subframe where
  dst : MacAddr
  src : MacAddr
  orgCode : { bytes : List UInt8 // bytes.length = 3 }
  etherType : { bytes : List UInt8 // bytes.length = 2 }
  body : List UInt8
  fits : body.length + llcSnapframelen < 65536
  padding : List UInt8
  aligned : padding.length = (4 - (etherHeaderLen + llcSnapframelen + body.length) % 4) % 4

namespace Subframe

variable (frame : Subframe)

/-- The LLC/SNAP header up to the protocol. -/
def llc : List UInt8 := [0xAA, 0xAA, 0x03] ++ frame.orgCode.1

/-- The subframe without its padding, as 802.11 encodes it. -/
def encode : List UInt8 :=
  frame.dst.1 ++ frame.src.1 ++ htons (frame.body.length + llcSnapframelen) ++
    (frame.llc ++ frame.etherType.1 ++ frame.body)

def unwrapped : List UInt8 := frame.dst.1 ++ frame.src.1 ++ frame.etherType.1 ++ frame.body

/-- The Ethernet frame of the MSDU: its SNAP header is an Ethernet type only when the organisation
code is zero, and otherwise stays behind the length. -/
def ethernet : List UInt8 :=
  if frame.orgCode.1 = [0, 0, 0] then frame.unwrapped else frame.encode

end Subframe

def encodeAmsdu (lastPadded : Bool) : List Subframe → List UInt8
  | [] => []
  | [last] => last.encode ++ (if lastPadded then last.padding else [])
  | frame :: next :: rest => frame.encode ++ frame.padding ++ encodeAmsdu lastPadded (next :: rest)

/-- The header of a data frame: four addresses when both direction bits are set. -/
abbrev MacHeader : Type :=
  { bytes : List UInt8 //
    24 ≤ bytes.length ∧ ((macByte bytes 1).toNat % 4 = 3 → 30 ≤ bytes.length) }

end W522a.Mac
