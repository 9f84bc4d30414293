import W522a.Mac.Defrag

/-!
The fragmentation of a data frame in `wifi_mac_encap`, and the fragments as the receiving side
passes them to `wifi_mac_defrag`.
-/

namespace W522a.Mac

open Bytes (slice write little)

/-- The ciphers of `struct wifi_mac_security`. None of them has a `wm_miclen`, so
`wifi_mac_security_enmic` leaves every frame alone. -/
inductive Cipher where
  | none
  | wpi
  | ccmp
  | cmac
  | wep
  | tkip
  deriving DecidableEq, Repr

def Cipher.wmHeader : Cipher → Nat
  | .none | .wpi => 0
  | .wep => 3 + 1
  | .ccmp | .cmac | .tkip => 3 + 1 + 4

/-- The header of a data frame, with its padding. -/
structure TxHeader where
  bytes : List UInt8
  long : wifiFrameLen ≤ bytes.length
  deriving DecidableEq

namespace TxHeader

variable (header : TxHeader)

/-- `i_fc[1]` -/
def fc1 : UInt8 := macByte header.bytes 1

def iSeq : Nat := little (slice header.bytes 22 2)

def updateFc1 (change : UInt8 → UInt8) : TxHeader where
  bytes := header.bytes.modify 1 change
  long := by
    rw [List.length_modify]
    exact header.long

def setSeq (seq : Nat) : TxHeader where
  bytes := write header.bytes 22 [UInt8.ofNat seq, UInt8.ofNat (seq / 256)]
  long := by
    have long := header.long
    simp only [wifiFrameLen] at long ⊢
    rw [Bytes.length_write (by simp only [List.length_cons, List.length_nil]; omega)]
    exact long

/-- `WIFINET_IS_MULTICAST` of `i_addr1` -/
def multicast : Bool := (macByte header.bytes 4).toNat % 2 = 1

end TxHeader

def setMoreFrag (fc : UInt8) : UInt8 := fc ||| 0x04

def clearMoreFrag (fc : UInt8) : UInt8 := fc &&& 0xFB

def setWep (fc : UInt8) : UInt8 := fc ||| 0x40

def clearWep (fc : UInt8) : UInt8 := fc &&& 0xBF

/-- A frame: its header and what stands behind it. -/
structure Mpdu where
  header : TxHeader
  payload : List UInt8
  deriving DecidableEq

/-- `os_skb_get_pktlen` -/
def Mpdu.pktlen (mpdu : Mpdu) : Nat := mpdu.header.bytes.length + mpdu.payload.length

/-- A frame whose header `wifi_mac_encap` has built and whose offloaded checksums are filled in: no
more fragments, and at least a LLC header behind it. -/
structure EncapSkb where
  frame : Mpdu
  hdrsizeNopad : Nat
  datapad : Bool
  sized : frame.header.bytes.length = if datapad then roundup hdrsizeNopad 4 else hdrsizeNopad
  whole : frame.header.fc1.toNat / 4 % 2 = 0
  llc : llcSnapframelen ≤ frame.payload.length

/-- What the fragmentation reads of the interface, the key and the station: the threshold, whether
there is a key and a cipher behind it, whether the frame is to be protected, and which of the
buffers can be allocated. -/
structure EncapEnv where
  vmFragthreshold : Nat
  key : Option (Option Cipher)
  protect : Bool
  isAmsdu : Bool
  allocOk : Nat → Bool

def EncapEnv.ciphdrsize (env : EncapEnv) : Nat :=
  match env.key with
  | some (some cip) => cip.wmHeader
  | _ => 0

def EncapEnv.pdusize (env : EncapEnv) (hdrsizeNopad : Nat) : Int :=
  (env.vmFragthreshold : Int) - (hdrsizeNopad + env.ciphdrsize)

/-- `fragcnt`, with the division of C. -/
def fragCount (size pdusize : Int) : Int :=
  size.tdiv pdusize + if size.tmod pdusize = 0 then 0 else 1

/-- What becomes of a frame: it is sent in frames, dropped, or the driver faults. -/
inductive EncapResult where
  | frames (list : List Mpdu)
  | dropped
  | fault
  deriving DecidableEq

/-- The loop over `framelist`, which fills a buffer with each turn. -/
def fragmentLoop (wh : TxHeader) (body : List UInt8) (pdusize : Int) :
    Nat → Nat → Int → Int → Option (List Mpdu)
  | 0, _, _, _ => some []
  | turns + 1, fragnum, offset, datalen =>
    let pdulen := if pdusize ≤ datalen then pdusize else datalen
    if pdulen < 0 then none
    else
      let frame : Mpdu :=
        ⟨wh.setSeq (wh.iSeq ||| (fragnum &&& 15)), slice body offset.toNat pdulen.toNat⟩
      (fragmentLoop wh body pdusize turns (fragnum + 1) (offset + pdusize)
        (datalen - pdusize)).map (frame :: ·)

def endFragments (frames : List Mpdu) : List Mpdu :=
  frames.modifyLast fun frame => { frame with header := frame.header.updateFc1 clearMoreFrag }

/-- The end of `wifi_mac_encap`, with the number of the frame taken from `sta_txseqs`. -/
def splitFrame (env : EncapEnv) (fragcnt : Int) (pdusize : Int) (txseq : Nat) (frame : Mpdu) :
    EncapResult :=
  let header :=
    if env.key.isSome ∧ env.protect then frame.header.updateFc1 setWep else frame.header
  let header := header.setSeq 0
  if 1 < fragcnt then
    let wh := (header.updateFc1 setMoreFrag).setSeq (txseq * 16 % 65536)
    match fragmentLoop wh frame.payload pdusize (fragcnt - 1).toNat 1 pdusize
      (frame.payload.length - pdusize) with
    | none => .fault
    | some rest => .frames (⟨wh, frame.payload.take pdusize.toNat⟩ :: endFragments rest)
  else .frames [⟨header, frame.payload⟩]

/-- The part of `wifi_mac_encap` behind the header. -/
def wifiMacEncap (env : EncapEnv) (txseq : Nat) (skb : EncapSkb) : EncapResult :=
  if env.vmFragthreshold < skb.frame.pktlen ∧ !skb.frame.header.multicast ∧ !env.isAmsdu then
    if env.key = some none then .dropped
    else
      let pdusize := env.pdusize skb.hdrsizeNopad
      if pdusize = 0 then .fault
      else
        let fragcnt :=
          fragCount (skb.frame.pktlen - (skb.hdrsizeNopad + env.ciphdrsize)) pdusize
        if fragcnt < 1 ∨ ¬ (List.range (fragcnt - 1).toNat).all env.allocOk then .dropped
        else splitFrame env fragcnt pdusize txseq skb.frame
  else splitFrame env 1 0 txseq skb.frame

/-- The buffers of the receiving side: the room behind a frame, the end of its buffer, and what a
copy has. -/
structure RxBuffers where
  mtu : Nat
  tailroom : Nat → Nat
  endOffset : Nat → Nat
  room : Nat → Option (Nat × Nat)

/-- A frame as it reaches `wifi_mac_defrag`: decrypted, and with `WIFINET_FC1_WEP` cleared. -/
def rxSkb (rx : RxBuffers) (number : Nat) (frame : Mpdu) : RxSkb where
  id := .received number
  data := (frame.header.updateFc1 clearWep).bytes ++ frame.payload
  long := by
    rw [List.length_append]
    exact Nat.le_trans (frame.header.updateFc1 clearWep).long (Nat.le_add_right _ _)
  tailroom := rx.tailroom number
  endOffset := rx.endOffset number
  dataLen := 0
  linear := rfl
  tkipMicHw := true

/-- The frames passed in, in order. -/
def passIn (rx : RxBuffers) (hdrlen : Nat) (frames : List Mpdu) : List DefragEvent :=
  frames.zipIdx.map fun entry => .input ⟨rxSkb rx entry.2 entry.1, hdrlen⟩ (rx.room entry.2)

/-- What the receiving side hands up. -/
def reassembled (rx : RxBuffers) (hdrlen : Nat) (frames : List Mpdu) : List RxSkb :=
  (Machine.run (defragStep rx.mtu) DefragRun.initial (passIn rx hdrlen frames)).msdus

end W522a.Mac
