import W522a.Common
import W522a.Lib.Run
import W522a.Mac.Amsdu

/-!
Defragmentation. A station has one place for the MSDU that is put together, whatever the traffic
identifiers of its fragments are.
-/

namespace W522a.Mac

open Bytes (slice write)

/-- Which socket buffer it is: one that was received, or a copy that the driver made. -/
inductive SkbId where
  | received (number : Nat)
  | copied (number : Nat)
  deriving DecidableEq, Repr

/-- A received data frame. `dataLen` counts the bytes outside the linear part: there are none, as
`hal_rx_thread` copies every frame into one piece. -/
structure RxSkb where
  id : SkbId
  data : List UInt8
  long : wifiFrameLen ≤ data.length
  tailroom : Nat
  endOffset : Nat
  dataLen : Nat
  linear : dataLen = 0
  tkipMicHw : Bool

namespace RxSkb

variable (skb : RxSkb)

/-- `os_skb_get_pktlen` -/
def pktlen : Nat := skb.data.length

/-- `i_fc[1] & WIFINET_FC1_MORE_FRAG` -/
def moreFrag : Bool := (macByte skb.data 1).toNat / 4 % 2 = 1

/-- `i_seq`, the two bytes of sequence control. -/
def iSeq : List UInt8 := slice skb.data 22 2

/-- `le16_to_cpu` of `i_seq`. -/
def iSeqNum : Nat := (skb.iSeq.getD 0 0).toNat + 256 * (skb.iSeq.getD 1 0).toNat

def rxseq : Nat := skb.iSeqNum / 16

def fragno : Nat := skb.iSeqNum % 16

/-- `i_addr1` -/
def addr1 : List UInt8 := slice skb.data 4 6

/-- `i_addr2` -/
def addr2 : List UInt8 := slice skb.data 10 6

def Unfragmented : Prop := skb.moreFrag = false ∧ skb.fragno = 0

instance : Decidable skb.Unfragmented :=
  inferInstanceAs (Decidable (skb.moreFrag = false ∧ skb.fragno = 0))

def clearTkipMicHw : RxSkb := { skb with tkipMicHw := false }

/-- Append the body of a fragment, and take over its sequence control. -/
def append (hdrlen : Nat) (fragment : RxSkb) : RxSkb :=
  { skb with
    data := write skb.data 22 fragment.iSeq ++ fragment.data.drop hdrlen
    long := by
      have held := skb.long
      have header := fragment.long
      simp only [wifiFrameLen] at held header
      have two : fragment.iSeq.length = 2 := Bytes.length_slice (by omega)
      rw [List.length_append, Bytes.length_write (by omega)]
      simp only [wifiFrameLen]
      omega
    tailroom := skb.tailroom - (fragment.pktlen - hdrlen) }

end RxSkb

/-- What defragmentation reads and writes of a station, and the buffers freed and copied so far. -/
structure FragStation where
  rxfrag : Option RxSkb
  freed : List SkbId
  copies : Nat

namespace FragStation

variable (sta : FragStation)

/-- `os_skb_free` -/
def free (skb : RxSkb) : FragStation := { sta with freed := sta.freed ++ [skb.id] }

/-- Free the held fragments, as the timeout and the cleanup of a station do as well. -/
def dropRxfrag : FragStation :=
  match sta.rxfrag with
  | none => sta
  | some held => { sta.free held with rxfrag := none }

/-- `os_skb_copy` and `os_skb_copy_expand` into the held fragments; the room of the copy is what
the allocation gives, if it gives any. -/
def copyRxfrag (skb : RxSkb) (room : Option (Nat × Nat)) : FragStation :=
  match room with
  | none => { sta with rxfrag := none }
  | some (tailroom, endOffset) =>
    { sta with
      rxfrag := some
        { skb with id := .copied sta.copies, tailroom := tailroom, endOffset := endOffset }
      copies := sta.copies + 1 }

end FragStation

/-- The fragment is the next one of the MSDU that is held, and fits behind it. -/
def Follows (held skb : RxSkb) : Prop :=
  skb.rxseq = held.rxseq ∧ skb.fragno = held.fragno + 1 ∧ skb.addr1 = held.addr1 ∧
    skb.addr2 = held.addr2 ∧ skb.pktlen ≤ held.tailroom

instance (held skb : RxSkb) : Decidable (Follows held skb) :=
  inferInstanceAs (Decidable (_ ∧ _ ∧ _ ∧ _ ∧ _))

/-- The held fragments, unless the frame is not the next one. -/
def matchRxfrag (sta : FragStation) (skb : RxSkb) : FragStation :=
  match sta.rxfrag with
  | none => sta
  | some held => if Follows held skb then sta else sta.dropRxfrag

/-- Hold a frame with fragment number 0, in a copy when it is a fragment whose buffer has no room
for those to come. -/
def holdFirst (mtu : Nat) (room : Option (Nat × Nat)) (sta : FragStation) (skb : RxSkb)
    (hdrlen : Nat) : FragStation :=
  let held := { sta with rxfrag := some skb }
  if skb.moreFrag then
    if skb.dataLen ≠ 0 then (held.copyRxfrag skb room).free skb
    else if skb.endOffset < mtu + hdrlen then (held.copyRxfrag skb room).free skb
    else held
  else held

/-- The end of `wifi_mac_defrag`: hand up what is held behind the last fragment. -/
def finishDefrag (moreFrag : Bool) (sta : FragStation) : Option RxSkb × FragStation :=
  if moreFrag then (none, sta)
  else (sta.rxfrag.map RxSkb.clearTkipMicHw, { sta with rxfrag := none })

def wifiMacDefrag (mtu : Nat) (room : Option (Nat × Nat)) (sta : FragStation) (skb : RxSkb)
    (hdrlen : Nat) : Option RxSkb × FragStation :=
  if skb.moreFrag = false ∧ skb.fragno = 0 ∧ sta.rxfrag.isNone then (some skb, sta)
  else
    let sta := matchRxfrag sta skb
    match sta.rxfrag with
    | none =>
      if skb.fragno = 0 then finishDefrag skb.moreFrag (holdFirst mtu room sta skb hdrlen)
      else finishDefrag skb.moreFrag (sta.free skb)
    | some held =>
      -- the fragment number follows the held one, so it is not 0
      if skb.pktlen < hdrlen then (none, sta.free skb)
      else
        finishDefrag skb.moreFrag
          ({ sta with rxfrag := some (held.append hdrlen skb) }.free skb)

/-- A frame as `wifi_mac_input` passes it in, with the length of its header. -/
structure Fragment where
  skb : RxSkb
  hdrlen : Nat

/-- What can happen to the fragments of a station. -/
inductive DefragEvent where
  | input (fragment : Fragment) (room : Option (Nat × Nat))
  | timeout
  | cleanup

/-- A station with the frames passed in and the MSDUs handed up. -/
structure DefragRun where
  sta : FragStation
  passed : List Fragment
  msdus : List RxSkb

def DefragRun.initial : DefragRun := ⟨⟨none, [], 0⟩, [], []⟩

def defragStep (mtu : Nat) (state : DefragRun) : DefragEvent → DefragRun
  | .input fragment room =>
    let (msdu, sta) := wifiMacDefrag mtu room state.sta fragment.skb fragment.hdrlen
    ⟨sta, state.passed ++ [fragment], state.msdus ++ msdu.toList⟩
  | .timeout | .cleanup => { state with sta := state.sta.dropRxfrag }

/-- Fragments `0..n` of one MSDU: numbered in order, with one sequence number, receiver and
transmitter. -/
structure InOrder (fragments : List Fragment) : Prop where
  numbered : fragments.map (fun fragment => fragment.skb.fragno) = List.range fragments.length
  same : ∀ first ∈ fragments, ∀ second ∈ fragments,
    first.skb.rxseq = second.skb.rxseq ∧ first.skb.addr1 = second.skb.addr1 ∧
      first.skb.addr2 = second.skb.addr2

/-- The bodies of the fragments behind the first frame, which takes over the sequence control of
the last one. -/
def joined : List Fragment → List UInt8
  | [] => []
  | [only] => only.skb.data
  | first :: second :: rest =>
    write first.skb.data 22 ((second :: rest).getLast (by simp)).skb.iSeq ++
      (second :: rest).flatMap fun fragment => fragment.skb.data.drop fragment.hdrlen

/-- An MSDU is one of the frames passed in, or all the fragments of one: the last one, and only the
last one, says that no more follow. -/
def HandedUp (passed : List Fragment) (msdu : RxSkb) : Prop :=
  (∃ fragment ∈ passed, fragment.skb.Unfragmented ∧ msdu.data = fragment.skb.data) ∨
  ∃ fragments last, (fragments ++ [last]).Sublist passed ∧ InOrder (fragments ++ [last]) ∧
    (∀ fragment ∈ fragments, fragment.skb.moreFrag = true) ∧ last.skb.moreFrag = false ∧
    msdu.data = joined (fragments ++ [last])

/-- The buffers that came into the station's hands: those passed in, and the copies made. -/
def DefragRun.taken (state : DefragRun) : List SkbId :=
  state.passed.map (fun fragment => fragment.skb.id) ++
    (List.range state.sta.copies).map SkbId.copied

/-- Where the buffers went: handed up, freed, or still held. -/
def DefragRun.used (state : DefragRun) : List SkbId :=
  state.msdus.map RxSkb.id ++ state.sta.freed ++ state.sta.rxfrag.toList.map RxSkb.id

end W522a.Mac
