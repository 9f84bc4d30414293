import W522a.Mac.Bip

/-!
What the check of the management MIC element accepts, against what the protection promises: every
frame that `wifi_mac_add_mmie` has protected, and no frame with another MIC.
-/

namespace W522a.Mac

open Bytes (slice write little)

/-- The authenticated data of a frame that ends in an element: the masked frame control, the
addresses, and the body with the MIC of the element zeroed. -/
def bipData (frame : List UInt8) : List UInt8 :=
  bipHeader frame ++ slice frame wifiFrameLen (frame.length - wifiFrameLen - 8) ++
    List.replicate 8 0

/-- The MIC that a frame ought to carry. -/
def bipMic (env : BipEnv) (key : PmfKey) (frame : List UInt8) : List UInt8 :=
  (env.omac1Aes128 (key.wkKey.take 16) (bipData frame)).toList.take 8

def micField (frame : List UInt8) : List UInt8 := slice frame (frame.length - 8) 8

/-- What the check compares the MIC to: memory behind the frame. -/
def strayBytes (env : BipEnv) (length : Nat) : List UInt8 :=
  (List.range 8).map fun index => env.memory (wifiFrameLen * (length - 8) + index)

/-- A frame that passes everything but the comparison of the MIC: a CMAC key, an element at its end
with the number of the key, and a counter above the one kept. -/
structure Presented (key : PmfKey) (frame : List UInt8) : Prop where
  cmac : key.wkKeyType = wifinetCipherAesCmac
  long : wifiFrameLen + 8 ≤ frame.length
  element : (frame.getD (frame.length - mmeIeLengthCmac) 0).toNat = mmeIeId
  keyix : little (slice frame (frame.length - mmeIeLengthCmac + 2) 2) = key.wkKeyix
  newer : little (slice key.wkKeyrsc 0 8) <
    little (slice frame (frame.length - mmeIeLengthCmac + 4) 8)

/-- The receiver takes a frame for a protected one. -/
def Accepts (env : BipEnv) (key : PmfKey) (frame : List UInt8) : Prop :=
  ∃ after, wifiMacParseMmie env key frame = some (1, after)

section Check

variable {env : BipEnv} {key : PmfKey} {frame : List UInt8}

private theorem readMemory_stray (long : wifiFrameLen + 8 ≤ frame.length) :
    readMemory env frame (wifiFrameLen * (frame.length - 8)) 8 = strayBytes env frame.length := by
  unfold readMemory strayBytes
  refine List.map_congr_left ?_
  intro index _
  simp only [wifiFrameLen] at long ⊢
  rw [List.getD_eq_getElem?_getD, List.getElem?_eq_none (by omega), Option.getD_none]

theorem presented_of_accepts (short : frame.length < 65536) (accepts : Accepts env key frame) :
    Presented key frame := by
  obtain ⟨after, result⟩ := accepts
  unfold wifiMacParseMmie at result
  rw [Nat.mod_eq_of_lt short] at result
  by_cases cmac : key.wkKeyType = wifinetCipherAesCmac
  · simp only [cmac, ↓reduceIte] at result
    split at result
    · simp at result
    · rename_i long
      split at result
      · simp at result
      · rename_i element
        split at result
        · simp at result
        · rename_i keyix
          split at result
          · simp at result
          · rename_i newer
            refine ⟨cmac, ?_, not_not.mp element, not_not.mp keyix, Nat.lt_of_not_le newer⟩
            simp only [wifiFrameLen] at long ⊢
            omega
  · simp only [cmac, ↓reduceIte] at result
    repeat' split at result
    all_goals simp_all [amlCalculateBipMic]

/-- The rest of the check: the comparison decides, in the wrong sense and on the wrong bytes, unless
the frame is so long that the printing loop never ends. -/
theorem accepts_of_presented (short : frame.length < 65536) (presented : Presented key frame) :
    Accepts env key frame ↔
      env.allocOk = true ∧ frame.length ≤ 259 ∧
        bipMic env key frame ≠ strayBytes env frame.length := by
  obtain ⟨cmac, long, element, keyix, newer⟩ := presented
  have headed : ¬ (frame.length < wifiFrameLen ∨ frame.length - wifiFrameLen < 8) := by
    simp only [wifiFrameLen] at long ⊢
    omega
  unfold Accepts wifiMacParseMmie
  rw [Nat.mod_eq_of_lt short]
  simp only [cmac, ↓reduceIte, headed, element, keyix, Nat.not_le.mpr newer, ne_eq,
    not_true_eq_false, amlCalculateBipMic]
  cases allocated : env.allocOk with
  | false => simp
  | true =>
    by_cases fits : frame.length ≤ 259
    · have ends : dumpLoop (frame.length - wifiFrameLen + bipAadSize) 256 0 = some () := by
        refine dumpLoop_done ?_ 256 0 (Nat.zero_le _) ?_
        · simp only [wifiFrameLen, bipAadSize] at long ⊢
          omega
        · simp only [wifiFrameLen, bipAadSize, UInt8.toNat_zero] at long ⊢
          omega
      have mic : (env.omac1Aes128 (key.wkKey.take 16) (bipHeader frame ++
          slice frame wifiFrameLen (frame.length - wifiFrameLen - 8) ++
          List.replicate 8 0)).toList.take 8 = bipMic env key frame := rfl
      rw [ends, readMemory_stray long]
      simp only [mic, fits, Bool.not_true, Bool.false_eq_true, ↓reduceIte, true_and]
      by_cases same : bipMic env key frame = strayBytes env frame.length <;> simp [same]
    · have never : dumpLoop (frame.length - wifiFrameLen + bipAadSize) 256 0 = none := by
        refine dumpLoop_never ?_ 256 0
        simp only [wifiFrameLen, bipAadSize] at long ⊢
        omega
      rw [never]
      simp [fits]

end Check

/-- The counter that `wifi_mac_add_mmie` puts into the element: it counts up the sixth byte. -/
def sentCounter (key : PmfKey) : List UInt8 := slice (key.wkKeyrsc.modify 5 (· + 1)) 0 6

/-- The element of a CMAC key up to its MIC. -/
def mmieHead (key : PmfKey) : List UInt8 :=
  [UInt8.ofNat mmeIeId, 16, UInt8.ofNat key.wkKeyix, 0] ++ sentCounter key

/-- A management frame as `wifi_mac_tx_mgmt_frm` is given it. -/
structure MgmtFrame where
  bytes : List UInt8
  whole : wifiFrameLen ≤ bytes.length
  fits : bytes.length + mmeIeLengthCmac < 65536

def sentMic (env : BipEnv) (key : PmfKey) (frame : MgmtFrame) : List UInt8 :=
  (env.omac1Aes128 (key.wkKey.take 16)
    (bipHeader frame.bytes ++ frame.bytes.drop wifiFrameLen ++ mmieHead key ++
      List.replicate 8 0)).toList.take 8

theorem length_sentMic (env : BipEnv) (key : PmfKey) (frame : MgmtFrame) :
    (sentMic env key frame).length = 8 := by
  simp [sentMic]

theorem bipHeader_append {frame : List UInt8} (whole : wifiFrameLen ≤ frame.length)
    (rest : List UInt8) : bipHeader (frame ++ rest) = bipHeader frame := by
  simp only [wifiFrameLen] at whole
  unfold bipHeader
  rw [Bytes.slice_append_left (by omega), Bytes.slice_append_left (by omega),
    Bytes.slice_append_left (by omega), Bytes.slice_append_left (by omega)]

section Sent

variable {env : BipEnv} {key : PmfKey} {frame : MgmtFrame}

theorem length_sentCounter (counters : key.wkKeyrsc.length = 17) :
    (sentCounter key).length = 6 :=
  Bytes.length_slice (by rw [List.length_modify, counters]; omega)

theorem length_mmieHead (counters : key.wkKeyrsc.length = 17) : (mmieHead key).length = 10 := by
  rw [mmieHead, List.length_append, length_sentCounter counters]
  rfl

/-- The element without its MIC takes the place of the room behind the frame. -/
theorem write_element (frame : List UInt8) (counters : key.wkKeyrsc.length = 17)
    (room : Vector UInt8 18) :
    write (frame ++ room.toList) ((frame ++ room.toList).length - 16 - 2)
      (([UInt8.ofNat mmeIeId, UInt8.ofNat 16, UInt8.ofNat key.wkKeyix, 0] ++
        slice (key.wkKeyrsc.modify 5 (· + 1)) 0 6 ++ List.replicate 16 0).take 18) =
      frame ++ (mmieHead key ++ List.replicate 8 0) := by
  have head := length_mmieHead counters
  have place : (frame ++ room.toList).length - 16 - 2 = frame.length := by
    rw [List.length_append, Vector.length_toList]
    omega
  have content : (mmieHead key ++ List.replicate 16 (0 : UInt8)).take 18 =
      mmieHead key ++ List.replicate 8 0 := by
    rw [show 18 = (mmieHead key).length + 8 by rw [head], List.take_length_add_append]
    rfl
  rw [place]
  refine Eq.trans (congrArg _ content) (Bytes.write_end ?_)
  rw [List.length_append, head, Vector.length_toList, List.length_replicate]

/-- What `wifi_mac_add_mmie` sends: the frame, the element and the MIC. -/
theorem wifiMacAddMmie_sent (counters : key.wkKeyrsc.length = 17) (room : Vector UInt8 18)
    (sent : (wifiMacAddMmie env key (frame.bytes ++ room.toList)).1 = 0) :
    key.wkKeyType = wifinetCipherAesCmac ∧
      (wifiMacAddMmie env key (frame.bytes ++ room.toList)).2.2 =
        frame.bytes ++ mmieHead key ++ sentMic env key frame := by
  unfold wifiMacAddMmie at sent ⊢
  split at sent
  · cases sent
  · split at sent
    · cases sent
    · rename_i allocated valid
      by_cases cmac : key.wkKeyType = wifinetCipherAesCmac
      · refine ⟨cmac, ?_⟩
        have written := write_element frame.bytes counters room
        have header := bipHeader_append frame.whole (mmieHead key ++ List.replicate 8 0)
        have body : (frame.bytes ++ (mmieHead key ++ List.replicate 8 0)).drop wifiFrameLen =
            frame.bytes.drop wifiFrameLen ++ (mmieHead key ++ List.replicate 8 0) :=
          List.drop_append_of_le_length frame.whole
        have mic : (env.omac1Aes128 (key.wkKey.take 16) (bipHeader frame.bytes ++
            (frame.bytes.drop wifiFrameLen ++
              (mmieHead key ++ List.replicate 8 0)))).toList.take 8 =
            sentMic env key frame := by
          simp only [sentMic, List.append_assoc]
        have place : (frame.bytes ++ (mmieHead key ++ List.replicate 8 (0 : UInt8))).length - 8 =
            (frame.bytes ++ mmieHead key).length := by
          simp only [List.length_append, List.length_replicate]
          omega
        simp only [cmac, ↓reduceIte, amlCalculateBipMic, Nat.reduceAdd]
        rw [if_neg allocated, if_neg valid, written, header, body, mic, place, ← List.append_assoc]
        exact Bytes.write_end (by rw [length_sentMic, List.length_replicate])
      · dsimp only at sent
        rw [amlCalculateBipMic, if_neg cmac] at sent
        cases sent

def sentFrame (env : BipEnv) (key : PmfKey) (frame : MgmtFrame) : List UInt8 :=
  frame.bytes ++ (mmieHead key ++ sentMic env key frame)

theorem length_sentFrame (env : BipEnv) (frame : MgmtFrame)
    (counters : key.wkKeyrsc.length = 17) :
    (sentFrame env key frame).length = frame.bytes.length + 18 := by
  rw [sentFrame, List.length_append, List.length_append, length_mmieHead counters, length_sentMic]

theorem element_place (counters : key.wkKeyrsc.length = 17) :
    (sentFrame env key frame).length - mmeIeLengthCmac = frame.bytes.length := by
  rw [length_sentFrame env frame counters, Nat.add_sub_cancel]

theorem sent_element (counters : key.wkKeyrsc.length = 17) :
    ((sentFrame env key frame).getD ((sentFrame env key frame).length - mmeIeLengthCmac) 0).toNat =
      mmeIeId := by
  rw [element_place counters, sentFrame, List.getD_eq_getElem?_getD,
    List.getElem?_append_right (Nat.le_refl _), Nat.sub_self]
  rfl

theorem sent_keyix (counters : key.wkKeyrsc.length = 17) :
    little (slice (sentFrame env key frame)
      ((sentFrame env key frame).length - mmeIeLengthCmac + 2) 2) = key.wkKeyix % 256 := by
  rw [element_place counters, sentFrame, Bytes.slice_append_right]
  simp [mmieHead, slice, little]

theorem sent_ipn (counters : key.wkKeyrsc.length = 17) :
    slice (sentFrame env key frame) ((sentFrame env key frame).length - mmeIeLengthCmac + 4) 8 =
      sentCounter key ++ (sentMic env key frame).take 2 := by
  have six := length_sentCounter counters
  rw [element_place counters, sentFrame, Bytes.slice_append_right]
  unfold slice mmieHead
  rw [List.append_assoc]
  change ((sentCounter key ++ sentMic env key frame).take 8) = _
  rw [show 8 = (sentCounter key).length + 2 by rw [six], List.take_length_add_append]

private theorem sent_data (counters : key.wkKeyrsc.length = 17) :
    bipData (sentFrame env key frame) =
      bipHeader frame.bytes ++ frame.bytes.drop wifiFrameLen ++ mmieHead key ++
        List.replicate 8 0 := by
  have whole := frame.whole
  have head := length_mmieHead counters
  have count : (sentFrame env key frame).length - wifiFrameLen - 8 =
      (frame.bytes.drop wifiFrameLen ++ mmieHead key).length := by
    rw [length_sentFrame env frame counters, List.length_append, List.length_drop, head]
    simp only [wifiFrameLen] at whole ⊢
    omega
  have body : slice (sentFrame env key frame) wifiFrameLen
      ((sentFrame env key frame).length - wifiFrameLen - 8) =
      frame.bytes.drop wifiFrameLen ++ mmieHead key := by
    rw [count, slice, sentFrame, List.drop_append_of_le_length whole, ← List.append_assoc,
      List.take_left]
  rw [bipData, body, sentFrame, bipHeader_append whole, ← List.append_assoc]

private theorem sent_mic (counters : key.wkKeyrsc.length = 17) :
    bipMic env key (sentFrame env key frame) = sentMic env key frame := by
  rw [bipMic, sent_data counters, sentMic]

end Sent

def SameKey (sender receiver : PmfKey) : Prop :=
  receiver.wkKeyType = sender.wkKeyType ∧ receiver.wkKeyix = sender.wkKeyix ∧
    receiver.wkKey = sender.wkKey

/-- A sender with a frame to protect, a receiver, and any frame that reaches it. `room` is what
`os_skb_put` appended, and `sendAlloc` whether the sender's allocation succeeds. -/
structure BipCase where
  env : BipEnv
  sendAlloc : Bool
  sender : PmfKey
  counters : sender.wkKeyrsc.length = 17
  receiver : PmfKey
  frame : MgmtFrame
  room : Vector UInt8 18
  received : List UInt8
  short : received.length < 65536

namespace BipCase

variable (bip : BipCase)

/-- What `wifi_mac_add_mmie` makes of the sender's frame. -/
def added : Nat × PmfKey × List UInt8 :=
  wifiMacAddMmie { bip.env with allocOk := bip.sendAlloc } bip.sender
    (bip.frame.bytes ++ bip.room.toList)

/-- The sender protects the frame, for a receiver with the same key and a smaller counter. -/
def Protected : Prop :=
  bip.added.1 = 0 ∧ SameKey bip.sender bip.receiver ∧
    little (slice bip.receiver.wkKeyrsc 0 8) < little (sentCounter bip.sender)

/-- The receiver accepts what the sender has protected, and nothing without the right MIC. -/
structure Authentic : Prop where
  complete : bip.Protected → Accepts bip.env bip.receiver bip.added.2.2
  sound : Accepts bip.env bip.receiver bip.received →
    micField bip.received = bipMic bip.env bip.receiver bip.received

/-- When the code does so. A protected frame has a key number of one byte and at most 241 bytes
without the element, the receiver's allocation succeeds and the memory that the check reads differs
from the MIC. Of the frames that pass the rest of the check, those that are not too long and whose
MIC differs from that memory carry the right MIC. -/
structure Fitting : Prop where
  own : bip.Protected → bip.env.allocOk = true ∧ bip.sender.wkKeyix < 256 ∧
    bip.frame.bytes.length ≤ 241 ∧
    sentMic bip.env bip.sender bip.frame ≠ strayBytes bip.env (bip.frame.bytes.length + 18)
  forged : Presented bip.receiver bip.received → bip.env.allocOk = true →
    bip.received.length ≤ 259 →
    bipMic bip.env bip.receiver bip.received ≠ strayBytes bip.env bip.received.length →
    micField bip.received = bipMic bip.env bip.receiver bip.received

/-- The sent frame passes the rest of the check when the number of the key fits its byte. -/
theorem presented_sent (cmac : bip.sender.wkKeyType = wifinetCipherAesCmac)
    (same : SameKey bip.sender bip.receiver)
    (newer : little (slice bip.receiver.wkKeyrsc 0 8) < little (sentCounter bip.sender)) :
    Presented bip.receiver (sentFrame bip.env bip.sender bip.frame) ↔
      bip.sender.wkKeyix < 256 := by
  have long := length_sentFrame bip.env bip.frame bip.counters
  have whole := bip.frame.whole
  obtain ⟨type, number, _⟩ := same
  constructor
  · intro presented
    have keyix := presented.keyix
    rw [sent_keyix bip.counters, number] at keyix
    omega
  · intro small
    refine ⟨type.trans cmac, ?_, sent_element bip.counters, ?_, ?_⟩
    · simp only [wifiFrameLen] at whole ⊢
      omega
    · rw [sent_keyix bip.counters, number]
      exact Nat.mod_eq_of_lt small
    · rw [sent_ipn bip.counters, Bytes.little_append]
      exact Nat.lt_of_lt_of_le newer (Nat.le_add_right _ _)

/-- The receiver accepts the sender's frame when it fits. -/
theorem accepts_sent (own : bip.Protected) :
    Accepts bip.env bip.receiver bip.added.2.2 ↔
      bip.env.allocOk = true ∧ bip.sender.wkKeyix < 256 ∧ bip.frame.bytes.length ≤ 241 ∧
        sentMic bip.env bip.sender bip.frame ≠
          strayBytes bip.env (bip.frame.bytes.length + 18) := by
  obtain ⟨sent, same, newer⟩ := own
  obtain ⟨cmac, result⟩ := wifiMacAddMmie_sent bip.counters bip.room sent
  have frame : bip.added.2.2 = sentFrame bip.env bip.sender bip.frame :=
    result.trans (List.append_assoc _ _ _)
  have long := length_sentFrame bip.env bip.frame bip.counters
  have fits := bip.frame.fits
  have short : (sentFrame bip.env bip.sender bip.frame).length < 65536 := by
    rw [long]
    exact fits
  have mic : bipMic bip.env bip.receiver (sentFrame bip.env bip.sender bip.frame) =
      sentMic bip.env bip.sender bip.frame := by
    rw [← sent_mic bip.counters, bipMic, same.2.2, bipMic]
  have presented := bip.presented_sent cmac same newer
  rw [frame]
  constructor
  · intro accepts
    have shown := presented_of_accepts short accepts
    obtain ⟨allocated, bound, apart⟩ := (accepts_of_presented short shown).mp accepts
    rw [mic, long] at apart
    rw [long] at bound
    exact ⟨allocated, presented.mp shown, by omega, apart⟩
  · rintro ⟨allocated, small, bound, apart⟩
    refine (accepts_of_presented short (presented.mpr small)).mpr ⟨allocated, ?_, ?_⟩
    · rw [long]
      omega
    · rw [mic, long]
      exact apart

end BipCase

/-- The check authenticates a frame exactly when it fits. -/
theorem bip_authentic_iff (bip : BipCase) : bip.Authentic ↔ bip.Fitting := by
  constructor
  · rintro ⟨complete, sound⟩
    refine ⟨fun own => (bip.accepts_sent own).mp (complete own), ?_⟩
    intro presented allocated bound apart
    exact sound ((accepts_of_presented bip.short presented).mpr ⟨allocated, bound, apart⟩)
  · rintro ⟨own, forged⟩
    refine ⟨fun kept => (bip.accepts_sent kept).mpr (own kept), ?_⟩
    intro accepts
    have presented := presented_of_accepts bip.short accepts
    obtain ⟨allocated, bound, apart⟩ := (accepts_of_presented bip.short presented).mp accepts
    exact forged presented allocated bound apart

/-- A broadcast deauthentication with an element that has a counter of one and no MIC. -/
def forgedDeauth : List UInt8 :=
  [0xC0, 0, 0, 0] ++ List.replicate 6 0xFF ++ [0, 0x11, 0x22, 0x33, 0x44, 0x55] ++
    [0, 0x11, 0x22, 0x33, 0x44, 0x55] ++ [0, 0] ++ [3, 0] ++ [76, 16, 4, 0, 1, 0, 0, 0, 0, 0] ++
    List.replicate 8 0

def forgedFrame : MgmtFrame := ⟨forgedDeauth.take 26, by decide, by decide⟩

def zeroKey : PmfKey := ⟨wifinetCipherAesCmac, 1, 4, List.replicate 16 0, List.replicate 17 0⟩

theorem zeroKey_counters : zeroKey.wkKeyrsc.length = 17 := rfl

/-- A station with a key of zeros that receives the forged frame, with zeros behind it in memory.
The cipher gives the value of AES-CMAC for it. -/
def forgedCase : BipCase where
  env :=
    { omac1Aes128 := fun _ _ => #v[24, 192, 206, 16, 107, 232, 214, 217, 165, 5, 227, 244, 232, 26,
        122, 235]
      allocOk := true
      memory := fun _ => 0 }
  sendAlloc := true
  sender := zeroKey
  counters := zeroKey_counters
  receiver := zeroKey
  frame := forgedFrame
  room := Vector.replicate 18 0
  received := forgedDeauth
  short := by decide

/-- The receiver accepts a forged frame. -/
theorem bip_forged : ¬ ∀ bip : BipCase, bip.Authentic := by
  intro authentic
  have accepts : Accepts forgedCase.env forgedCase.receiver forgedCase.received :=
    ⟨{ forgedCase.receiver with wkKeyrsc := 1 :: List.replicate 16 0 }, by decide +kernel⟩
  have mic := (authentic forgedCase).sound accepts
  revert mic
  decide +kernel

end W522a.Mac
