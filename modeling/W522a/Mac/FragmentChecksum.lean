import W522a.Lib.OnesSum
import W522a.Lib.Traced

/-!
The checksums that `wifi_mac_encap` computes by itself in front of fragmenting a packet, on a
processor that has the low byte of a word first.

When the checksums are right that a packet gets in front of fragmenting it.
-/

namespace W522a.Mac

open Memory (Access InBounds Traced touch)

@[simp] abbrev ipprotoTcp : Nat := 6

@[simp] abbrev ipprotoUdp : Nat := 17

@[simp] abbrev ethertypeIp : Nat := 0x0800

def readWord (memory : Nat → UInt8) (place : Nat) : Traced Access Nat := do
  touch place 2
  pure (OnesSum.word memory place)

def writeWord (memory : Nat → UInt8) (place value : Nat) : Traced Access (Nat → UInt8) := do
  touch place 2
  pure (OnesSum.put memory place value)

def checksumLoop (memory : Nat → UInt8) : Nat → Nat → Nat → Traced Access Nat
  | 0, _, cksum => pure cksum
  | size + 1, place, cksum => do
    let word ← readWord memory place
    checksumLoop memory size (place + 2) ((cksum + word) % 2 ^ 32)

/-- The number of words that `calculate_checksum` sums up for a length. -/
def checksumSize (len : Int) : Nat := (len / 2 + len % 2).toNat

def calculateChecksum (memory : Nat → UInt8) (buffer : Nat) (len : Int) : Traced Access Nat := do
  let cksum ← checksumLoop memory (checksumSize len) buffer 0
  pure (OnesSum.complement cksum)

/-- A checksum field is cleared, and written. -/
def fillChecksum (memory : Nat → UInt8) (check buffer : Nat) (len : Int) :
    Traced Access (Nat → UInt8) := do
  let memory ← writeWord memory check 0
  let cksum ← calculateChecksum memory buffer len
  writeWord memory check cksum

/-- `calculate_checksum_for_fragment_pkt`, and whether `M_CHECKSUMHW` is still set. The fields
`tot_len` and `len` are read as they stand in the packet. -/
def calculateChecksumForFragmentPkt (checksumHw : Bool) (etherType hdrsize : Nat)
    (memory : Nat → UInt8) : Traced Access ((Nat → UInt8) × Bool) := do
  let ipPktOffset := (hdrsize + 8) % 256
  if checksumHw ∧ etherType = ethertypeIp then
    touch ipPktOffset 1
    let ihl := (memory ipPktOffset).toNat % 16
    let header := ipPktOffset + ihl * 4
    let memory ← fillChecksum memory (ipPktOffset + 10) ipPktOffset (ihl * 4)
    touch (ipPktOffset + 9) 1
    let protocol := (memory (ipPktOffset + 9)).toNat
    if protocol = ipprotoTcp then
      let totLen ← readWord memory (ipPktOffset + 2)
      let memory ← fillChecksum memory (header + 16) header ((totLen : Int) - ihl * 4)
      pure (memory, false)
    else if protocol = ipprotoUdp then
      let len ← readWord memory (header + 4)
      let memory ← fillChecksum memory (header + 6) header len
      pure (memory, false)
    else pure (memory, false)
  else pure (memory, checksumHw)

/-- An IPv4 packet with a TCP or UDP segment in a socket buffer, behind `hdrsize` bytes of the
802.11 header and the LLC header. -/
structure FragmentPkt where
  memory : Nat → UInt8
  pktlen : Nat
  hdrsize : Nat
  /-- whole 32-bit words of the IP header, at least five -/
  ihl : Nat
  /-- the length of the packet -/
  totLen : Nat
  udp : Bool
  hdrsizeSmall : hdrsize + 8 < 256
  ihlField : (memory (hdrsize + 8)).toNat % 16 = ihl
  ihlLeast : 5 ≤ ihl
  totLenField : 256 * (memory (hdrsize + 10)).toNat + (memory (hdrsize + 11)).toNat = totLen
  protocolField : (memory (hdrsize + 17)).toNat = if udp then ipprotoUdp else ipprotoTcp
  segmentLeast : ihl * 4 + (if udp then 8 else 20) ≤ totLen
  udpLenField : udp = true →
    256 * (memory (hdrsize + 8 + ihl * 4 + 4)).toNat +
      (memory (hdrsize + 8 + ihl * 4 + 5)).toNat = totLen - ihl * 4
  inside : hdrsize + 8 + totLen ≤ pktlen

namespace FragmentPkt

variable (pkt : FragmentPkt)

/-- Where the IP header starts. -/
def ip : Nat := pkt.hdrsize + 8

/-- Where the TCP or UDP header starts. -/
def header : Nat := pkt.ip + pkt.ihl * 4

def segmentLen : Nat := pkt.totLen - pkt.ihl * 4

/-- Where the checksum of the segment is. -/
def check : Nat := pkt.header + if pkt.udp then 6 else 16

def pseudoSum (memory : Nat → UInt8) : Nat :=
  OnesSum.network memory (pkt.ip + 12) 8 + (memory (pkt.ip + 9)).toNat + pkt.segmentLen

/-- A receiver finds both checksums right. -/
structure Right (memory : Nat → UInt8) : Prop where
  ip : OnesSum.Verifies (OnesSum.network memory pkt.ip (pkt.ihl * 4))
  segment : OnesSum.Verifies
    (pkt.pseudoSum memory + OnesSum.network memory pkt.header pkt.segmentLen)

/-- The length for which the code sums up the segment: the bytes of the field stand the other way
round than the processor takes them. -/
def takenLen : Int :=
  if pkt.udp then OnesSum.word pkt.memory (pkt.header + 4)
  else (OnesSum.word pkt.memory (pkt.ip + 2) : Int) - pkt.ihl * 4

/-- The bytes of the words that are summed up for that length. -/
def takenBytes : Nat := 2 * checksumSize pkt.takenLen

def cleared : Nat → UInt8 := OnesSum.put pkt.memory pkt.check 0

/-- What the code makes of the packet. -/
def filled : Traced Access ((Nat → UInt8) × Bool) :=
  calculateChecksumForFragmentPkt true ethertypeIp pkt.hdrsize pkt.memory

end FragmentPkt

section Loop

variable {memory : Nat → UInt8} {place check buffer high size cksum : Nat} {len : Int}

private theorem value_checksumLoop (small : cksum + 65535 * size < 2 ^ 32) :
    (checksumLoop memory size place cksum).value =
      cksum + OnesSum.host memory place (2 * size) := by
  induction size generalizing place cksum with
  | zero => rfl
  | succ size induction =>
    have low := (memory place).toNat_lt
    have high := (memory (place + 1)).toNat_lt
    have first : OnesSum.host memory place (2 * (size + 1)) =
        OnesSum.word memory place + OnesSum.host memory (place + 2) (2 * size) := by
      unfold OnesSum.host OnesSum.word
      rw [show 2 * (size + 1) = 2 * size + 1 + 1 by omega, OnesSum.spread, OnesSum.spread,
        show place + 1 + 1 = place + 2 from rfl]
      omega
    have bound : OnesSum.word memory place ≤ 65535 := by
      unfold OnesSum.word
      omega
    rw [first]
    change (checksumLoop memory size (place + 2)
      ((cksum + OnesSum.word memory place) % 2 ^ 32)).value = _
    rw [Nat.mod_eq_of_lt (by omega), induction (by omega)]
    omega

private theorem inBounds_checksumLoop (start : place ≤ high) :
    InBounds 0 high (checksumLoop memory size place cksum) ↔ place + 2 * size ≤ high := by
  induction size generalizing place cksum with
  | zero => exact iff_of_true (Memory.inBounds_pure cksum) (by omega)
  | succ size induction =>
    rw [checksumLoop, Memory.inBounds_bind, readWord, Memory.inBounds_bind]
    simp only [Memory.inBounds_touch, Memory.inBounds_pure, and_true]
    by_cases inside : place + 2 ≤ high
    · rw [induction inside]
      omega
    · omega

theorem value_fillChecksum (small : checksumSize len ≤ 65536) :
    (fillChecksum memory check buffer len).value =
      OnesSum.put memory check (OnesSum.complement
        (OnesSum.host (OnesSum.put memory check 0) buffer (2 * checksumSize len))) := by
  change OnesSum.put (OnesSum.put memory check 0) check (OnesSum.complement
    (checksumLoop (OnesSum.put memory check 0) (checksumSize len) buffer 0).value) = _
  rw [value_checksumLoop (by omega), OnesSum.put_put, Nat.zero_add]

theorem inBounds_fillChecksum (start : buffer ≤ high) (inside : check + 2 ≤ high) :
    InBounds 0 high (fillChecksum memory check buffer len) ↔
      buffer + 2 * checksumSize len ≤ high := by
  unfold fillChecksum writeWord calculateChecksum
  simp only [Memory.inBounds_bind, Memory.inBounds_touch, Memory.inBounds_pure,
    inBounds_checksumLoop start, inside, Nat.zero_le, and_true, true_and]

end Loop

namespace FragmentPkt

variable (pkt : FragmentPkt)

theorem ihl_lt : pkt.ihl < 16 := by
  rw [← pkt.ihlField]
  exact Nat.mod_lt _ (by decide)

/-- The places of the packet in the socket buffer. -/
theorem places : pkt.header = pkt.ip + 4 * pkt.ihl ∧ pkt.ihl * 4 + pkt.segmentLen = pkt.totLen ∧
    pkt.header + pkt.segmentLen ≤ pkt.pktlen ∧ pkt.header + 6 ≤ pkt.check ∧
    pkt.check + 2 ≤ pkt.header + pkt.segmentLen := by
  have least := pkt.segmentLeast
  have inside := pkt.inside
  unfold check header segmentLen ip
  cases udp : pkt.udp with
  | true =>
    simp only [udp, if_true] at least ⊢
    omega
  | false =>
    simp only [udp, Bool.false_eq_true, if_false] at least ⊢
    omega

def ipCheck : Nat :=
  OnesSum.complement
    (OnesSum.host (OnesSum.put pkt.memory (pkt.ip + 10) 0) pkt.ip (pkt.ihl * 4))

/-- The packet with its IP header done. -/
def headed : Nat → UInt8 := OnesSum.put pkt.memory (pkt.ip + 10) pkt.ipCheck

def segmentCheck : Nat :=
  OnesSum.complement
    (OnesSum.host (OnesSum.put pkt.headed pkt.check 0) pkt.header pkt.takenBytes)

theorem checksumSize_header : checksumSize (pkt.ihl * 4) = 2 * pkt.ihl := by
  unfold checksumSize
  omega

theorem takenSize_le : checksumSize pkt.takenLen ≤ 65536 := by
  have word : ∀ place, OnesSum.word pkt.memory place < 65536 := by
    intro place
    have low := (pkt.memory place).toNat_lt
    have high := (pkt.memory (place + 1)).toNat_lt
    unfold OnesSum.word
    omega
  have first := word (pkt.header + 4)
  have second := word (pkt.ip + 2)
  unfold checksumSize takenLen
  split <;> omega

theorem headed_other {offset : Nat} (outside : offset ≠ pkt.ip + 10 ∧ offset ≠ pkt.ip + 11) :
    pkt.headed offset = pkt.memory offset := OnesSum.put_other outside

/-- The fields that the code reads behind the IP header checksum are those of the packet. -/
theorem headed_fields :
    (pkt.headed (pkt.ip + 9)).toNat = (if pkt.udp then ipprotoUdp else ipprotoTcp) ∧
      OnesSum.word pkt.headed (pkt.ip + 2) = OnesSum.word pkt.memory (pkt.ip + 2) ∧
      OnesSum.word pkt.headed (pkt.header + 4) = OnesSum.word pkt.memory (pkt.header + 4) := by
  have least := pkt.ihlLeast
  have places := pkt.places
  refine ⟨?_, ?_, ?_⟩
  · rw [pkt.headed_other (by omega)]
    exact pkt.protocolField
  · unfold OnesSum.word
    rw [pkt.headed_other (by omega), pkt.headed_other (by omega)]
  · unfold OnesSum.word
    rw [pkt.headed_other (by omega), pkt.headed_other (by omega)]

/-- Where the code takes the length of the segment from. -/
def lenField : Nat := if pkt.udp then pkt.header + 4 else pkt.ip + 2

private theorem value_header :
    (fillChecksum pkt.memory (pkt.ip + 10) pkt.ip (pkt.ihl * 4)).value = pkt.headed := by
  have small := pkt.ihl_lt
  have size := pkt.checksumSize_header
  rw [value_fillChecksum (by omega), size, headed, ipCheck,
    show 2 * (2 * pkt.ihl) = pkt.ihl * 4 by omega]

/-- The two checksums are filled in, one behind the other. -/
theorem filled_eq : pkt.filled = (do
    touch pkt.ip 1
    let _ ← fillChecksum pkt.memory (pkt.ip + 10) pkt.ip (pkt.ihl * 4)
    touch (pkt.ip + 9) 1
    touch pkt.lenField 2
    let memory ← fillChecksum pkt.headed pkt.check pkt.header pkt.takenLen
    pure (memory, false)) := by
  obtain ⟨protocol, totLen, len⟩ := pkt.headed_fields
  have known : ∀ next : (Nat → UInt8) → Traced Access ((Nat → UInt8) × Bool),
      (fillChecksum pkt.memory (pkt.ip + 10) pkt.ip (pkt.ihl * 4) >>= next) =
        fillChecksum pkt.memory (pkt.ip + 10) pkt.ip (pkt.ihl * 4) >>= fun _ =>
          next pkt.headed := by
    intro next
    rw [← pkt.value_header]
    rfl
  unfold filled calculateChecksumForFragmentPkt
  rw [Nat.mod_eq_of_lt pkt.hdrsizeSmall, if_pos ⟨rfl, rfl⟩]
  simp only [pkt.ihlField]
  rw [show pkt.hdrsize + 8 = pkt.ip from rfl, known, protocol]
  unfold lenField takenLen check
  cases udp : pkt.udp with
  | true =>
    simp only [if_true]
    rw [if_neg (by decide), ← len]
    rfl
  | false =>
    simp only [Bool.false_eq_true, if_false, if_true]
    rw [← totLen]
    rfl

theorem value_filled :
    pkt.filled.value.1 = OnesSum.put pkt.headed pkt.check pkt.segmentCheck := by
  rw [pkt.filled_eq]
  exact value_fillChecksum pkt.takenSize_le

theorem inBounds_filled :
    InBounds 0 pkt.pktlen pkt.filled ↔ pkt.header + pkt.takenBytes ≤ pkt.pktlen := by
  have least := pkt.ihlLeast
  have places := pkt.places
  have header : InBounds 0 pkt.pktlen
      (fillChecksum pkt.memory (pkt.ip + 10) pkt.ip (pkt.ihl * 4)) ↔
      pkt.ip + 2 * checksumSize (pkt.ihl * 4) ≤ pkt.pktlen :=
    inBounds_fillChecksum (by omega) (by omega)
  have segment : InBounds 0 pkt.pktlen
      (fillChecksum pkt.headed pkt.check pkt.header pkt.takenLen) ↔
      pkt.header + 2 * checksumSize pkt.takenLen ≤ pkt.pktlen :=
    inBounds_fillChecksum (by omega) (by omega)
  have field : pkt.lenField + 2 ≤ pkt.pktlen := by
    unfold lenField
    split <;> omega
  rw [pkt.filled_eq]
  simp only [Memory.inBounds_bind, Memory.inBounds_touch, Memory.inBounds_pure, header, segment,
    pkt.checksumSize_header, field, takenBytes, Nat.zero_le, and_true, true_and]
  omega

theorem cast_completed {memory : Nat → UInt8} {place count sum : Nat} (words : Nat)
    (inside : 2 * words + 2 ≤ count) (small : sum < 2 ^ 32) :
    (OnesSum.network (OnesSum.put memory (place + 2 * words) (OnesSum.complement sum)) place
        count : ZMod 65535) =
      OnesSum.network (OnesSum.put memory (place + 2 * words) 0) place count -
        256 * (sum : ZMod 65535) := by
  obtain ⟨more, rfl⟩ : ∃ more, count = 2 * words + (2 + more) := ⟨count - (2 * words + 2), by omega⟩
  rw [OnesSum.network_put words (OnesSum.complement_lt sum), OnesSum.complement_cast small]
  ring

theorem host_small {memory : Nat → UInt8} {place size : Nat} (short : size ≤ 65536) :
    OnesSum.host memory place (2 * size) < 2 ^ 32 := by
  have bound := OnesSum.host_le memory place size
  omega

private theorem ip_verifies :
    OnesSum.Verifies (OnesSum.network pkt.filled.value.1 pkt.ip (pkt.ihl * 4)) := by
  have least := pkt.ihlLeast
  have short := pkt.ihl_lt
  have places := pkt.places
  have untouched : OnesSum.network pkt.filled.value.1 pkt.ip (pkt.ihl * 4) =
      OnesSum.network pkt.headed pkt.ip (pkt.ihl * 4) := by
    rw [pkt.value_filled]
    refine OnesSum.spread_congr fun offset inside => OnesSum.put_other ⟨?_, ?_⟩
    · omega
    · omega
  have small : OnesSum.host (OnesSum.put pkt.memory (pkt.ip + 10) 0) pkt.ip (pkt.ihl * 4) <
      2 ^ 32 := by
    rw [show pkt.ihl * 4 = 2 * (2 * pkt.ihl) by omega]
    exact host_small (by omega)
  rw [untouched, OnesSum.verifies_iff]
  · refine (cast_completed 5 (by omega) small).trans ?_
    rw [OnesSum.network_cast]
    ring
  · -- the first byte holds the length of the header
    have version : (pkt.headed pkt.ip).toNat % 16 = pkt.ihl := by
      rw [pkt.headed_other (by omega)]
      exact pkt.ihlField
    have first : 256 * (pkt.headed pkt.ip).toNat ≤
        OnesSum.network pkt.headed pkt.ip (pkt.ihl * 4) := by
      rw [show pkt.ihl * 4 = pkt.ihl * 4 - 1 + 1 by omega]
      exact Nat.le_add_right _ _
    omega

private theorem network_cleared (count : Nat) :
    OnesSum.network (OnesSum.put pkt.headed pkt.check 0) pkt.header count =
      OnesSum.network pkt.cleared pkt.header count := by
  have least := pkt.ihlLeast
  have places := pkt.places
  apply OnesSum.spread_congr
  intro offset inside
  by_cases outside : pkt.header + offset ≠ pkt.check ∧ pkt.header + offset ≠ pkt.check + 1
  · rw [cleared, OnesSum.put_other outside, OnesSum.put_other outside,
      pkt.headed_other (by omega)]
  · unfold cleared OnesSum.put
    by_cases here : pkt.header + offset = pkt.check + 1
    · rw [here, Function.update_self, Function.update_self]
    · have there : pkt.header + offset = pkt.check := by omega
      rw [Function.update_of_ne here, Function.update_of_ne here, there, Function.update_self,
        Function.update_self]

private theorem pseudoSum_filled : pkt.pseudoSum pkt.filled.value.1 = pkt.pseudoSum pkt.memory := by
  have least := pkt.ihlLeast
  have places := pkt.places
  have same : ∀ offset, offset < pkt.header → offset ≠ pkt.ip + 10 ∧ offset ≠ pkt.ip + 11 →
      pkt.filled.value.1 offset = pkt.memory offset := by
    intro offset before outside
    rw [pkt.value_filled, OnesSum.put_other (by omega), pkt.headed_other outside]
  have addresses : OnesSum.network pkt.filled.value.1 (pkt.ip + 12) 8 =
      OnesSum.network pkt.memory (pkt.ip + 12) 8 :=
    OnesSum.spread_congr fun offset inside => same _ (by omega) (by omega)
  unfold pseudoSum
  rw [addresses, same (pkt.ip + 9) (by omega) (by omega)]

/-- The segment verifies exactly when the words that the code sums up have the sum of the pseudo
header and the segment, up to carries. -/
theorem segment_verifies_iff :
    OnesSum.Verifies (pkt.pseudoSum pkt.filled.value.1 +
        OnesSum.network pkt.filled.value.1 pkt.header pkt.segmentLen) ↔
      (pkt.pseudoSum pkt.memory + OnesSum.network pkt.cleared pkt.header pkt.segmentLen) % 65535 =
        OnesSum.network pkt.cleared pkt.header pkt.takenBytes % 65535 := by
  have places := pkt.places
  have small : OnesSum.host (OnesSum.put pkt.headed pkt.check 0) pkt.header pkt.takenBytes <
      2 ^ 32 := host_small pkt.takenSize_le
  obtain ⟨words, place⟩ : ∃ words, pkt.check = pkt.header + 2 * words := by
    unfold check
    cases pkt.udp with
    | true => exact ⟨3, rfl⟩
    | false => exact ⟨8, rfl⟩
  have taken : (OnesSum.network (OnesSum.put pkt.headed pkt.check 0) pkt.header pkt.takenBytes :
      ZMod 65535) = 256 * (OnesSum.host (OnesSum.put pkt.headed pkt.check 0) pkt.header
        pkt.takenBytes : ZMod 65535) := OnesSum.network_cast
  have segment : (OnesSum.network pkt.filled.value.1 pkt.header pkt.segmentLen : ZMod 65535) =
      OnesSum.network pkt.cleared pkt.header pkt.segmentLen -
        OnesSum.network pkt.cleared pkt.header pkt.takenBytes := by
    rw [pkt.value_filled, ← pkt.network_cleared, ← pkt.network_cleared, taken, segmentCheck, place]
    exact cast_completed words (by omega) (place ▸ small)
  have positive : pkt.pseudoSum pkt.filled.value.1 +
      OnesSum.network pkt.filled.value.1 pkt.header pkt.segmentLen ≠ 0 := by
    rw [pkt.pseudoSum_filled]
    unfold pseudoSum
    omega
  rw [OnesSum.verifies_iff positive, ← ZMod.natCast_eq_natCast_iff', Nat.cast_add, Nat.cast_add,
    segment, pkt.pseudoSum_filled, ← add_sub_assoc, sub_eq_zero]

end FragmentPkt

/-- A packet leaves with right checksums, and nothing beside it is read, exactly when the length
field with its bytes exchanged ends in the packet and gives the sum by chance. -/
theorem fragment_checksum_iff (pkt : FragmentPkt) :
    pkt.Right pkt.filled.value.1 ∧ InBounds 0 pkt.pktlen pkt.filled ↔
      pkt.header + pkt.takenBytes ≤ pkt.pktlen ∧
        (pkt.pseudoSum pkt.memory + OnesSum.network pkt.cleared pkt.header pkt.segmentLen) %
            65535 =
          OnesSum.network pkt.cleared pkt.header pkt.takenBytes % 65535 := by
  rw [pkt.inBounds_filled]
  constructor
  · intro both
    exact ⟨both.2, pkt.segment_verifies_iff.mp both.1.segment⟩
  · intro both
    exact ⟨⟨pkt.ip_verifies, pkt.segment_verifies_iff.mpr both.2⟩, both.1⟩

/-- Four hundred bytes in a TCP packet: the code takes the length `0x0190` for `0x9001`. -/
theorem fragment_checksum_past :
    let pkt : FragmentPkt :=
      { memory := fun place => if place = 34 then 0x45 else if place = 36 then 1
          else if place = 37 then 0x90 else if place = 43 then 6 else 0
        pktlen := 434
        hdrsize := 26
        ihl := 5
        totLen := 400
        udp := false
        hdrsizeSmall := by decide
        ihlField := by decide
        ihlLeast := by decide
        totLenField := by decide
        protocolField := by decide
        segmentLeast := by decide
        udpLenField := fun absurdity => nomatch absurdity
        inside := by decide }
    ¬ (pkt.Right pkt.filled.value.1 ∧ InBounds 0 pkt.pktlen pkt.filled) := by
  intro pkt both
  have inside := pkt.inBounds_filled.mp both.2
  revert inside
  decide

end W522a.Mac
