import W522a.Ap.AssocReq
import W522a.Lib.Traced

/-!
The walk over the elements of a management frame, which stores a pointer to each element that it
knows, with everything that it reads.
-/

namespace W522a.Ie

open Ap (read16l read32l wpaSel)
open Memory (Traced Safe emit)

/-- A management frame from its header on. -/
structure MgmtFrame where
  bytes : List UInt8
  deriving DecidableEq, Repr

namespace MgmtFrame

variable (frame : MgmtFrame)

def byte (place : Nat) : UInt8 := frame.bytes.getD place 0

/-- `os_skb_get_pktlen`; the pointer `efrm` behind the frame has this offset. -/
def pktlen : Nat := frame.bytes.length

def view (frm : Nat) : Nat → UInt8 := fun offset => frame.byte (frm + offset)

/-- What an element says of its length: `frm[1]`. -/
def ieLen (frm : Nat) : Nat := (frame.byte (frm + 1)).toNat

end MgmtFrame

/-- A read of the frame itself, of an element through the pointer to it, or through a pointer that
is not set. -/
inductive Look where
  | frame (place count : Nat)
  | ie (frm offset count : Nat)
  | null
  deriving DecidableEq, Repr

/-- A read inside the frame, or inside of the element with its two bytes of header. -/
def Look.Allowed (frame : MgmtFrame) : Look → Prop
  | .frame place count => place + count ≤ frame.pktlen
  | .ie frm offset count => offset + count ≤ frame.ieLen frm + 2
  | .null => False

abbrev Reader : Type → Type := Traced Look

namespace MgmtFrame

variable (frame : MgmtFrame)

def peek (place : Nat) : Reader UInt8 := do
  emit (.frame place 1)
  pure (frame.byte place)

def peek16 (place : Nat) : Reader Nat := do
  emit (.frame place 2)
  pure (read16l frame.byte place)

def look (frm offset : Nat) : Reader UInt8 := do
  emit (.ie frm offset 1)
  pure (frame.byte (frm + offset))

/-- Read an element through a pointer that is not checked. -/
def lookVia (pointer : Option Nat) (offset : Nat) : Reader UInt8 :=
  match pointer with
  | some frm => frame.look frm offset
  | none => do
    emit .null
    pure 0

def look16 (frm offset : Nat) : Reader Nat := do
  emit (.ie frm offset 2)
  pure (read16l frame.byte (frm + offset))

def look32 (frm offset : Nat) : Reader Nat := do
  emit (.ie frm offset 4)
  pure (read32l frame.byte (frm + offset))

def lookBytes (frm offset count : Nat) : Reader (List UInt8) := do
  emit (.ie frm offset count)
  pure ((List.range count).map fun place => frame.byte (frm + offset + place))

end MgmtFrame

/-- The pointers of `struct wifi_mac_scan_param` to elements. -/
inductive IeField where
  | ssid
  | rates
  | country
  | tim
  | xrates
  | rsn
  | wpa
  | wme
  | wps
  | tpc
  | doth
  | quiet
  | htcap
  | htinfo
  | extCap
  | vhtCap
  | vhtOpt
  | vhtTxPwr
  | vhtChSw
  | vhtExtBssLd
  | vhtQuietCh
  | vhtOptMdNtf
  | rsnxe
  | bssLoad
  deriving DecidableEq, Repr

/-- `struct wifi_mac_scan_param`. A pointer is the offset of the byte it points to. -/
structure ScanParam where
  frameLen : Nat
  capinfo : Nat
  statusCode : Nat
  assocId : Nat
  chan : Nat
  erp : UInt8
  bintval : Nat
  timoff : Nat
  tstamp : Option Nat
  ie : IeField → Option Nat

/-- `scan` as its callers clear it. -/
def clearedScan : ScanParam := ⟨0, 0, 0, 0, 0, 0, 0, 0, none, fun _ => none⟩

def ScanParam.store (scan : ScanParam) (field : IeField) (frm : Nat) : ScanParam :=
  { scan with ie := Function.update scan.ie field (some frm) }

abbrev cfg11n : Nat := 3

abbrev cfg11ac : Nat := 4

def iswpaoui (frame : MgmtFrame) (frm : Nat) : Reader Bool := do
  let len ← frame.look frm 1
  if 3 < len.toNat then
    let oui ← frame.look32 frm 2
    pure (oui == wpaSel 0x01)
  else pure false

/-- `iswmeparam` and `iswmeinfo`, which differ in the subtype. -/
def iswmeSubtype (subtype : UInt8) (frame : MgmtFrame) (frm : Nat) : Reader Bool := do
  let len ← frame.look frm 1
  if 5 < len.toNat then
    let oui ← frame.look32 frm 2
    if oui = wpaSel 0x02 then
      let found ← frame.look frm 6
      pure (found == subtype)
    else pure false
  else pure false

def iswmeparam : MgmtFrame → Nat → Reader Bool := iswmeSubtype 1

def iswmeinfo : MgmtFrame → Nat → Reader Bool := iswmeSubtype 0

/-- `iswpsoui`, which reads its bytes in the other order. -/
def iswpsoui (frame : MgmtFrame) (frm : Nat) : Reader Bool := do
  let len ← frame.look frm 1
  if 3 < len.toNat then
    let oui ← frame.lookBytes frm 2 4
    pure (oui == [0x00, 0x50, 0xf2, 0x04])
  else pure false

def vendorField (frame : MgmtFrame) (frm : Nat) : Reader (Option IeField) := do
  if ← iswpaoui frame frm then pure (some .wpa)
  else if ← iswmeparam frame frm then pure (some .wme)
  else if ← iswmeinfo frame frm then pure (some .wme)
  else if ← iswpsoui frame frm then pure (some .wps)
  else pure none

/-- The cases of the switch that only store a pointer. -/
def plainField (cfgMacMode : Nat) : Nat → Option IeField
  | 0 => some .ssid
  | 1 => some .rates
  | 7 => some .country
  | 50 => some .xrates
  | 48 => some .rsn
  | 32 => some .tpc
  | 37 => some .doth
  | 40 => some .quiet
  | 45 => if cfg11n ≤ cfgMacMode then some .htcap else none
  | 127 => some .extCap
  | 191 => if cfg11ac ≤ cfgMacMode then some .vhtCap else none
  | 192 => if cfg11ac ≤ cfgMacMode then some .vhtOpt else none
  | 195 => some .vhtTxPwr
  | 196 => some .vhtChSw
  | 193 => some .vhtExtBssLd
  | 198 => some .vhtQuietCh
  | 199 => some .vhtOptMdNtf
  | 244 => some .rsnxe
  | 11 => some .bssLoad
  | _ => none

/-- Store a pointer, if there is a place for it. -/
def ScanParam.storeIn (scan : ScanParam) (field : Option IeField) (frm : Nat) : ScanParam :=
  match field with
  | some field => scan.store field frm
  | none => scan

/-- The switch of `wifi_mac_pkt_parse_element` over the kind of an element, or nothing when it
returns. -/
def noteElement (cfgMacMode : Nat) (frame : MgmtFrame) (frm : Nat) (scan : ScanParam) :
    Reader (Option ScanParam) := do
  let id ← frame.look frm 0
  match id.toNat with
  | 2 => if frame.pktlen ≤ frm + 6 then pure none else pure (some scan)
  | 3 =>
    if frame.pktlen ≤ frm + 2 then pure none
    else
      let chan ← frame.peek (frm + 2)
      pure (some { scan with chan := chan.toNat })
  | 5 => pure (some { scan.store .tim frm with timoff := frm % 256 })
  | 42 =>
    let len ← frame.look frm 1
    if frame.pktlen ≤ frm + 2 ∨ len ≠ 1 then pure none
    else
      let erp ← frame.look frm 2
      pure (some { scan with erp := erp })
  | 221 =>
    let field ← vendorField frame frm
    pure (some (scan.storeIn field frm))
  | 61 =>
    if cfg11n ≤ cfgMacMode then
      let chan ← frame.look frm 2
      pure (some { scan.store .htinfo frm with chan := chan.toNat })
    else pure (some scan)
  | id => pure (some (scan.storeIn (plainField cfgMacMode id) frm))

/-- The loop of `wifi_mac_pkt_parse_element`, for so many turns, and whether the frame is invalid. -/
def elementLoop (cfgMacMode : Nat) (frame : MgmtFrame) :
    Nat → Nat → ScanParam → Reader (Bool × ScanParam)
  | 0, frm, scan => pure (frame.pktlen < frm, scan)
  | turns + 1, frm, scan =>
    if frm + 1 < frame.pktlen then do
      let len ← frame.peek (frm + 1)
      if frm + len.toNat + 1 < frame.pktlen then
        match ← noteElement cfgMacMode frame frm scan with
        | none => pure (true, scan)
        | some scan => elementLoop cfgMacMode frame turns (frm + len.toNat + 2) scan
      else pure (frame.pktlen < frm, scan)
    else pure (frame.pktlen < frm, scan)

/-- The fixed fields of the frame and where its elements start, or nothing when it is too short. -/
def fixedFields (frame : MgmtFrame) (scan : ScanParam) : Reader (Option (Nat × ScanParam)) := do
  let subtype := (frame.byte 0).toNat &&& 0xf0
  let frm := wifiFrameLen
  if subtype = 0x80 ∨ subtype = 0x50 then
    if frame.pktlen < frm + 12 then pure none
    else
      let bintval ← frame.peek16 (frm + 8)
      let capinfo ← frame.peek16 (frm + 10)
      pure (some (frm + 12,
        { scan with tstamp := some frm, bintval := bintval % 256, capinfo := capinfo }))
  else if subtype = 0x10 then
    if frame.pktlen < frm + 6 then pure none
    else
      let capinfo ← frame.peek16 frm
      let statusCode ← frame.peek16 (frm + 2)
      let assocId ← frame.peek16 (frm + 4)
      pure (some (frm + 6,
        { scan with capinfo := capinfo, statusCode := statusCode, assocId := assocId }))
  else pure (some (frm, scan))

/-- `wifi_mac_pkt_parse_element`: whether the frame is invalid, and what it says. The messages, the
counters and the encryption flag of a pending connection are left out. -/
def wifiMacPktParseElement (cfgMacMode : Nat) (frame : MgmtFrame) :
    Reader (Bool × ScanParam) := do
  let scan := { clearedScan with frameLen := frame.pktlen }
  match ← fixedFields frame scan with
  | none => pure (true, scan)
  | some (frm, scan) => elementLoop cfgMacMode frame frame.pktlen frm scan

end W522a.Ie
