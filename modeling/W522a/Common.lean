import Mathlib.Algebra.Group.Int.Defs
import Mathlib.Algebra.GroupWithZero.Nat
import W522a.Lib.Ring

/-! Constants, macros and buffers that several parts of the driver share. -/

namespace W522a

@[simp] abbrev wifinetSeqMax : Nat := 4096

@[simp] abbrev drvTidMaxBufs : Nat := 128

@[simp] abbrev wmeMaxBa : Nat := 64

@[simp] abbrev wmeNumTid : Nat := 8

instance : NeZero wmeNumTid := ⟨by decide⟩

@[simp] abbrev wifinetStatusSuccess : Nat := 0

@[simp] abbrev wifinetStatusRefused : Nat := 37

/-- The size of `struct wifi_frame`. -/
@[simp] abbrev wifiFrameLen : Nat := 24

def circleAddOne (value size : Nat) : Nat := if value = size - 1 then 0 else value + 1

/-- `DRV_BA_INDEX`: the masked difference of two sequence numbers. -/
def drvBaIndex (start seq : Nat) : Nat := (((seq : Int) - start) % wifinetSeqMax).toNat

def clampT (value low high : Nat) : Nat := min (max value low) high

theorem circleAddOne_eq_next {size : Nat} (value : Nat) (positive : 0 < size) :
    circleAddOne value size = Ring.next size value := by
  unfold circleAddOne Ring.next
  split <;> split <;> omega

theorem drvBaIndex_lt (start seq : Nat) : drvBaIndex start seq < wifinetSeqMax := by
  simp only [drvBaIndex, wifinetSeqMax]; omega

theorem clampT_bounds {value low high : Nat} (ordered : low ≤ high) :
    low ≤ clampT value low high ∧ clampT value low high ≤ high := by
  unfold clampT; omega

/-- The operating modes of an interface that the reorder code tells apart. -/
inductive VmOpmode where
  | hostap
  | monitor
  | other
  deriving DecidableEq, Repr

/-- A socket buffer: which buffer it is, and the bytes from its data pointer on. -/
structure SkBuff where
  id : Nat
  data : List UInt8
  deriving DecidableEq, Repr

namespace SkBuff

def byte (skb : SkBuff) (offset : Nat) : Nat := (skb.data.getD offset 0).toNat

def le16 (skb : SkBuff) (offset : Nat) : Nat := skb.byte offset + 256 * skb.byte (offset + 1)

private theorem byte_lt (skb : SkBuff) (offset : Nat) : skb.byte offset < 256 :=
  UInt8.toNat_lt _

private theorem le16_lt (skb : SkBuff) (offset : Nat) : skb.le16 offset < 65536 := by
  have low := skb.byte_lt offset
  have high := skb.byte_lt (offset + 1)
  unfold le16; omega

/-- The sequence number of a data frame, `i_seq >> WIFINET_SEQ_SEQ_SHIFT`. -/
def rxSeq (skb : SkBuff) : Nat := skb.le16 22 / 16

/-- The starting sequence number of a block-ack request, from the same field of `i_seq`. -/
def barSeq (skb : SkBuff) : Nat := skb.le16 18 / 16

theorem rxSeq_lt (skb : SkBuff) : skb.rxSeq < wifinetSeqMax := by
  have bound := skb.le16_lt 22
  simp only [rxSeq, wifinetSeqMax]; omega

end SkBuff

end W522a
