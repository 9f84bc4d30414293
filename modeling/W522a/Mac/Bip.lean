import W522a.Common
import W522a.Lib.Bytes

/-!
Broadcast integrity protection: the management MIC element that `wifi_mac_add_mmie` appends to a
broadcast management frame, and its check in `wifi_mac_parse_mmie`.
-/

namespace W522a.Mac

open Bytes (slice write little)

@[simp] abbrev mmeIeId : Nat := 76

@[simp] abbrev mmeIeLength : Nat := 26

@[simp] abbrev mmeIeLengthCmac : Nat := 18

@[simp] abbrev bipAadSize : Nat := 20

@[simp] abbrev wifinetCipherAesCmac : Nat := 5

/-- What the protection uses of `pmf_key`. -/
structure PmfKey where
  wkKeyType : Nat
  wkValid : Nat
  wkKeyix : Nat
  wkKey : List UInt8
  wkKeyrsc : List UInt8
  deriving DecidableEq, Repr

/-- What surrounds the two functions: the cipher, whether an allocation succeeds, and the bytes of
memory from the data pointer on, which the check reads behind the end of the frame. -/
structure BipEnv where
  omac1Aes128 : List UInt8 → List UInt8 → Vector UInt8 16
  allocOk : Bool
  memory : Nat → UInt8

def clearFlag (bit : Nat) (field : List UInt8) : List UInt8 :=
  let value := little field &&& (65535 - 2 ^ bit)
  [UInt8.ofNat value, UInt8.ofNat (value / 256)]

def clearRetry (field : List UInt8) : List UInt8 := clearFlag 11 field

def clearPwrMgt (field : List UInt8) : List UInt8 := clearFlag 12 field

def clearMoreData (field : List UInt8) : List UInt8 := clearFlag 13 field

/-- The first `BIP_AAD_SIZE` bytes of `bip_aad`: the masked frame control and the addresses. -/
def bipHeader (frame : List UInt8) : List UInt8 :=
  clearMoreData (clearPwrMgt (clearRetry (slice frame 0 2))) ++
    slice frame 4 6 ++ slice frame 10 6 ++ slice frame 16 6

def amlCalculateBipMic (env : BipEnv) (key : PmfKey) (data : List UInt8) : Option (List UInt8) :=
  if key.wkKeyType = wifinetCipherAesCmac then
    some (env.omac1Aes128 (key.wkKey.take 16) data).toList
  else none

/-- `wifi_mac_add_mmie` on a frame that has been extended by the element: the value it returns, the
key and the frame. -/
def wifiMacAddMmie (env : BipEnv) (key : PmfKey) (frame : List UInt8) :
    Nat × PmfKey × List UInt8 :=
  if !env.allocOk then (1, key, frame)
  else if key.wkValid ≠ 1 then (1, key, frame)
  else
    let cmac := key.wkKeyType = wifinetCipherAesCmac
    let mmeClen := if cmac then 16 else 24
    let micLen := if cmac then 8 else 16
    let key := { key with wkKeyrsc := key.wkKeyrsc.modify 5 (· + 1) }
    let mmeCont :=
      [UInt8.ofNat mmeIeId, UInt8.ofNat mmeClen, UInt8.ofNat key.wkKeyix, 0] ++
        slice key.wkKeyrsc 0 6 ++ List.replicate 16 0
    let frame := write frame (frame.length - mmeClen - 2) (mmeCont.take (mmeClen + 2))
    let bipAad := bipHeader frame ++ frame.drop wifiFrameLen
    match amlCalculateBipMic env key bipAad with
    | none => (1, key, frame)
    | some mic => (0, key, write frame (frame.length - micLen) (mic.take micLen))

/-- The loop of `wifi_mac_parse_mmie` that prints `bip_aad`, whose counter has eight bits; `none`
when the turns do not suffice. -/
def dumpLoop (oriLen : Nat) : Nat → UInt8 → Option Unit
  | 0, _ => none
  | turns + 1, i => if i.toNat < oriLen then dumpLoop oriLen turns (i + 1) else some ()

/-- Bytes at an offset from the data pointer, behind the end of the frame as well. -/
def readMemory (env : BipEnv) (frame : List UInt8) (offset count : Nat) : List UInt8 :=
  (List.range count).map fun index => frame.getD (offset + index) (env.memory (offset + index))

/-- `wifi_mac_parse_mmie`: the value it returns and the key, or `none` when it never returns. -/
def wifiMacParseMmie (env : BipEnv) (key : PmfKey) (frm : List UInt8) : Option (Int × PmfKey) :=
  let pktLen := frm.length % 65536
  let micLen := if key.wkKeyType = wifinetCipherAesCmac then 8 else 16
  if pktLen < wifiFrameLen ∨ pktLen - wifiFrameLen < micLen then some (-1, key)
  else
    let mme := pktLen - (if micLen = 8 then mmeIeLengthCmac else mmeIeLength)
    let pktIpn := slice frm (mme + 4) 8
    if (frm.getD mme 0).toNat ≠ mmeIeId then some (-1, key)
    else if little (slice frm (mme + 2) 2) ≠ key.wkKeyix then some (-1, key)
    else if little pktIpn ≤ little (slice key.wkKeyrsc 0 8) then some (-1, key)
    else if !env.allocOk then some (-1, key)
    else
      let oriLen := pktLen - wifiFrameLen + bipAadSize
      let bipAad := bipHeader frm ++ slice frm wifiFrameLen (pktLen - wifiFrameLen - micLen) ++
        List.replicate micLen 0
      match dumpLoop oriLen 256 0 with
      | none => none
      | some () =>
        match amlCalculateBipMic env key bipAad with
        | none => some (0, key)
        | some mic =>
          -- `wh` points to whole headers, so the offset counts headers
          if mic.take micLen ≠ readMemory env frm (wifiFrameLen * (pktLen - micLen)) micLen then
            some (1, { key with wkKeyrsc := write key.wkKeyrsc 0 pktIpn })
          else some (0, key)

theorem dumpLoop_never {oriLen : Nat} (long : 255 < oriLen) (turns : Nat) (i : UInt8) :
    dumpLoop oriLen turns i = none := by
  induction turns generalizing i with
  | zero => rfl
  | succ turns induction =>
    have below : i.toNat < oriLen := Nat.lt_of_lt_of_le i.toNat_lt (by omega)
    rw [dumpLoop, if_pos below]
    exact induction (i + 1)

theorem dumpLoop_done {oriLen : Nat} (short : oriLen ≤ 255) (turns : Nat) (i : UInt8)
    (inside : i.toNat ≤ oriLen) (enough : oriLen < i.toNat + turns) :
    dumpLoop oriLen turns i = some () := by
  induction turns generalizing i with
  | zero => exact absurd enough (Nat.not_lt.mpr inside)
  | succ turns induction =>
    rw [dumpLoop]
    split
    · rename_i below
      have next : (i + 1).toNat = i.toNat + 1 := by
        rw [UInt8.toNat_add]
        simp only [UInt8.toNat_one]
        omega
      exact induction (i + 1) (by omega) (by omega)
    · rfl

end W522a.Mac
