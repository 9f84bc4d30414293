import W522a.Common
import W522a.Lib.Michael

/-!
The software Michael code of a frame that lies in a chain of buffers (`michael_mic`), and how
`tkip_enmic` appends it and `tkip_demic` checks it and takes it off.
-/

namespace W522a.Crypto

open Michael (State)

@[simp] abbrev wifinetFc0TypeMask : UInt8 := 0x0c

@[simp] abbrev wifinetFc0TypeCtl : UInt8 := 0x04

@[simp] abbrev wifinetFc0TypeData : UInt8 := 0x08

@[simp] abbrev wifinetFc0SubtypeQos : UInt8 := 0x80

/-- `WIFINET_FC1_DIR_MASK`, which is `WIFINET_FC1_DIR_DSTODS` as well. -/
@[simp] abbrev wifinetFc1DirMask : UInt8 := 0x03

@[simp] abbrev wifinetFc1Order : UInt8 := 0x80

@[simp] abbrev wifinetQosTid : UInt8 := 0x0f

@[simp] abbrev wifinetKeybufSize : Nat := 16

/-- What the code uses of a `sk_buff`: its length, the memory from its data pointer on (behind the
end of the data as well), the room that `skb_tailroom` gives and the flag `M_TKIPMICHW`. -/
structure MicSkb where
  len : Nat
  memory : Nat → UInt8
  tailroom : Nat
  mTkipmichw : Bool

/-- A frame: the first buffer, and those that `os_skb_next` leads to. -/
structure MicFrame where
  first : MicSkb
  next : List MicSkb

/-- What the code uses of `wifi_mac_security`. -/
structure MicCipher where
  wmName : String
  wmMiclen : Nat
  deriving DecidableEq, Repr

def wifiMacCipherNone : MicCipher := ⟨"NONE", 0⟩

def wifiMacCipherTkip : MicCipher := ⟨"TKIP", 0⟩

/-- What the code uses of a `wifi_mac_key`; `wkSwmic` is the bit `WIFINET_KEY_SWMIC` of `wk_flags`. -/
structure MicKey where
  wkSwmic : Bool
  wkKey : List UInt8
  wkCipher : Option MicCipher
  deriving DecidableEq, Repr

/-- What the code uses of a `wifi_mac`: `WIFINET_F_DATAPAD` of `wm_flags` and `WIFINET_C_TKIPMIC` of
`wm_caps`. -/
structure MicMac where
  datapad : Bool
  tkipmic : Bool
  deriving DecidableEq, Repr

def advance (count : Nat) (data : Nat → UInt8) : Nat → UInt8 := fun index => data (count + index)

def MicKey.wkTxmic (key : MicKey) : Nat → UInt8 :=
  fun index => key.wkKey.getD (wifinetKeybufSize + index) 0

def MicKey.wkRxmic (key : MicKey) : Nat → UInt8 :=
  fun index => key.wkKey.getD (wifinetKeybufSize + 8 + index) 0

/-- `wifi_mac_hdrsize`, by the two bytes of the frame control field. -/
def wifiMacHdrsize (fc0 fc1 : UInt8) : Nat :=
  if fc0 &&& wifinetFc0TypeMask = wifinetFc0TypeCtl then wifiFrameLen
  else
    let size := wifiFrameLen + if fc1 &&& wifinetFc1DirMask = wifinetFc1DirMask then 6 else 0
    let htc := if fc1 &&& wifinetFc1Order = wifinetFc1Order then 4 else 0
    if fc0 &&& (wifinetFc0TypeMask ||| wifinetFc0SubtypeQos) =
        wifinetFc0TypeData ||| wifinetFc0SubtypeQos then size + 2 + htc
    else if fc0 &&& wifinetFc0TypeMask = 0 then size + htc
    else size

def wifiMacHdrspace (wifimac : MicMac) (fc0 fc1 : UInt8) : Nat :=
  let size := wifiMacHdrsize fc0 fc1
  if wifimac.datapad then (size + 3) / 4 * 4 else size

def rotl (val bits : UInt32) : UInt32 := (val <<< bits) ||| (val >>> (32 - bits))

def rotr (val bits : UInt32) : UInt32 := (val >>> bits) ||| (val <<< (32 - bits))

def xswap (val : UInt32) : UInt32 := ((val &&& 0x00ff00ff) <<< 8) ||| ((val &&& 0xff00ff00) >>> 8)

def michaelBlock (l r : UInt32) : State :=
  let r := r ^^^ rotl l 17
  let l := l + r
  let r := r ^^^ xswap l
  let l := l + r
  let r := r ^^^ rotl l 3
  let l := l + r
  let r := r ^^^ rotr l 2
  let l := l + r
  ⟨l, r⟩

def getLe32Split (b0 b1 b2 b3 : UInt8) : UInt32 :=
  b0.toUInt32 ||| (b1.toUInt32 <<< 8) ||| (b2.toUInt32 <<< 16) ||| (b3.toUInt32 <<< 24)

def getLe32 (p : Nat → UInt8) : UInt32 := getLe32Split (p 0) (p 1) (p 2) (p 3)

def putLe32 (v : UInt32) : List UInt8 :=
  [v.toUInt8, (v >>> 8).toUInt8, (v >>> 16).toUInt8, (v >>> 24).toUInt8]

/-- A word goes into `l`, and the block function follows. -/
def takeWord (lr : State) (word : UInt32) : State := michaelBlock (lr.left ^^^ word) lr.right

def field (wh : Nat → UInt8) (offset count : Nat) : List UInt8 :=
  (List.range count).map fun index => wh (offset + index)

/-- `michael_mic_hdr`; the type of service is read where `wifi_qos_frame` has it. -/
def michaelMicHdr (wh : Nat → UInt8) : List UInt8 :=
  let addr1 := field wh 4 6
  let addr2 := field wh 10 6
  let addr3 := field wh 16 6
  let addr4 := field wh 24 6
  let addresses :=
    if wh 1 &&& wifinetFc1DirMask = 0 then addr1 ++ addr2
    else if wh 1 &&& wifinetFc1DirMask = 1 then addr3 ++ addr2
    else if wh 1 &&& wifinetFc1DirMask = 2 then addr1 ++ addr3
    else addr3 ++ addr4
  let priority := if wh 0 &&& wifinetFc0SubtypeQos ≠ 0 then wh 24 &&& wifinetQosTid else 0
  addresses ++ [priority, 0, 0, 0]

/-- The variables of the loop of `michael_mic`. -/
structure MicReader where
  lr : State
  data : Nat → UInt8
  space : Nat
  dataLen : Nat

/-- The inner loop of `michael_mic`, over the words that lie in one buffer. -/
def wordLoop : Nat → State → (Nat → UInt8) → Nat → MicReader
  | space + 4, lr, data, dataLen =>
    wordLoop space (takeWord lr (getLe32 data)) (advance 4 data) (dataLen - 4)
  | space, lr, data, dataLen => ⟨lr, data, space, dataLen⟩

/-- A word of which the first `space` bytes lie in one buffer and the others in the next one. -/
def splitWord (space : Nat) (data dataNext : Nat → UInt8) : UInt32 :=
  match space with
  | 1 => getLe32Split (data 0) (dataNext 0) (dataNext 1) (dataNext 2)
  | 2 => getLe32Split (data 0) (data 1) (dataNext 0) (dataNext 1)
  | _ => getLe32Split (data 0) (data 1) (data 2) (dataNext 0)

/-- The loop of `michael_mic` over the buffers. -/
def michaelLoop (reader : MicReader) (skbs : List MicSkb) : MicReader :=
  let reader :=
    wordLoop (min reader.space reader.dataLen) reader.lr reader.data reader.dataLen
  if reader.dataLen < 4 then reader
  else
    match skbs with
    | [] => reader
    | skb :: skbs =>
      if reader.space ≠ 0 then
        if skb.len < 4 - reader.space then reader
        else
          michaelLoop
            { lr := takeWord reader.lr (splitWord reader.space reader.data skb.memory)
              data := advance (4 - reader.space) skb.memory
              space := skb.len - (4 - reader.space)
              dataLen := reader.dataLen - 4 } skbs
      else michaelLoop { reader with data := skb.memory, space := skb.len } skbs
termination_by structural skbs

/-- The last word, with what is left of the data; a length of four or more matches no case. -/
def finalWord (reader : MicReader) : UInt32 :=
  match reader.dataLen with
  | 0 => getLe32Split 0x5a 0 0 0
  | 1 => getLe32Split (reader.data 0) 0x5a 0 0
  | 2 => getLe32Split (reader.data 0) (reader.data 1) 0x5a 0
  | 3 => getLe32Split (reader.data 0) (reader.data 1) (reader.data 2) 0x5a
  | _ => 0

def michaelMic (key : Nat → UInt8) (frame : MicFrame) (off dataLen : Nat) : List UInt8 :=
  let hdr := fun index => (michaelMicHdr frame.first.memory).getD index 0
  let lr : State := ⟨getLe32 key, getLe32 (advance 4 key)⟩
  let lr := takeWord lr (getLe32 hdr)
  let lr := takeWord lr (getLe32 (advance 4 hdr))
  let lr := takeWord lr (getLe32 (advance 8 hdr))
  let lr := takeWord lr (getLe32 (advance 12 hdr))
  let reader := michaelLoop
    { lr
      data := advance off frame.first.memory
      space := (frame.first.len + 2 ^ 32 - off) % 2 ^ 32
      dataLen } frame.next
  let lr := takeWord reader.lr (finalWord reader)
  let lr := michaelBlock lr.left lr.right
  putLe32 lr.left ++ putLe32 lr.right

/-- The length of the data in all buffers of a frame. -/
def MicFrame.pktlen (frame : MicFrame) : Nat :=
  frame.first.len + (frame.next.map MicSkb.len).sum

def MicFrame.last (frame : MicFrame) : MicSkb := frame.next.getLastD frame.first

def MicFrame.changeLast (frame : MicFrame) (change : MicSkb → MicSkb) : MicFrame :=
  match frame.next.getLast? with
  | none => { frame with first := change frame.first }
  | some last => { frame with next := frame.next.dropLast ++ [change last] }

/-- `memcpy(os_skb_put(skb, count), bytes, count)` -/
def MicSkb.put (skb : MicSkb) (bytes : List UInt8) : MicSkb :=
  { skb with
    len := skb.len + bytes.length
    memory := fun index =>
      if skb.len ≤ index ∧ index < skb.len + bytes.length then bytes.getD (index - skb.len) 0
      else skb.memory index
    tailroom := skb.tailroom - bytes.length }

/-- `os_skb_trim` -/
def MicSkb.trim (skb : MicSkb) (len : Nat) : MicSkb :=
  if skb.len > len then { skb with len, tailroom := skb.tailroom + (skb.len - len) } else skb

/-- `tkip_enmic`: the value it returns and the frame. -/
def tkipEnmic (wifimac : MicMac) (key : MicKey) (frame : MicFrame) (force : Bool) :
    Nat × MicFrame :=
  if force ∨ key.wkSwmic then
    match key.wkCipher with
    | none => (0, frame)
    | some cipher =>
      if cipher = wifiMacCipherNone then (0, frame)
      else if frame.last.tailroom < cipher.wmMiclen then (0, frame)
      else
        let hdrlen := wifiMacHdrspace wifimac (frame.first.memory 0) (frame.first.memory 1)
        if wifimac.tkipmic ∧ !force then
          (1, frame.changeLast fun skb =>
            { skb with mTkipmichw := true }.put (List.replicate cipher.wmMiclen 0))
        else
          let mic := michaelMic key.wkTxmic frame hdrlen (frame.pktlen - hdrlen)
          (1, frame.changeLast fun skb => skb.put (mic.take cipher.wmMiclen))
  else (1, frame)

/-- What a check of the code does: the value it returns, whether it reports a wrong code with
`wifi_mac_notify_mic_fail`, and the frame. -/
structure DemicOutcome where
  value : Nat
  micFail : Bool
  frame : MicFrame

def tkipDemic (key : MicKey) (frame : MicFrame) (hdrlen : Nat) (force : Bool) : DemicOutcome :=
  if key.wkSwmic ∧ force then
    match key.wkCipher with
    | none => ⟨0, false, frame⟩
    | some cipher =>
      if cipher = wifiMacCipherNone then ⟨0, false, frame⟩
      else
        let mic := michaelMic key.wkRxmic frame hdrlen (frame.pktlen - (hdrlen + cipher.wmMiclen))
        let mic0 := field frame.last.memory (frame.last.len - cipher.wmMiclen) cipher.wmMiclen
        if mic.take cipher.wmMiclen ≠ mic0 then ⟨0, true, frame⟩
        else ⟨1, false, frame.changeLast fun skb => skb.trim (skb.len - cipher.wmMiclen)⟩
  else ⟨1, false, frame⟩

end W522a.Crypto
