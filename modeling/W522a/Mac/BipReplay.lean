import W522a.Mac.BipCheck
import W522a.Lib.Replay
import W522a.Lib.Run

/-!
Replay protection of broadcast management frames over whole runs: the counters that a sender puts
on the air, and what a receiver makes of the frames that reach it.
-/

namespace W522a.Mac

open Bytes (slice write little)

/-- A call of `wifi_mac_add_mmie` for a frame; `room` is what `os_skb_put` appended. -/
structure BipCall where
  frame : MgmtFrame
  room : Vector UInt8 18
  allocOk : Bool

/-- A sender, and the frames it has put on the air. -/
structure BipSender where
  key : PmfKey
  air : List (List UInt8)

/-- A frame that reaches a receiver, whether the allocation of the check succeeds, and the memory
that the check reads behind the frame. -/
structure Reception where
  frame : List UInt8
  short : frame.length < 65536
  allocOk : Bool
  memory : Nat → UInt8

/-- A receiver, the frames it has accepted, and whether it is in the loop that never ends. -/
structure BipReceiver where
  key : PmfKey
  accepted : List (List UInt8)
  hangs : Bool

section Steps

variable (omac1Aes128 : List UInt8 → List UInt8 → Vector UInt8 16)

/-- What surrounds the check of a frame. -/
def Reception.env (reception : Reception) : BipEnv :=
  ⟨omac1Aes128, reception.allocOk, reception.memory⟩

/-- What surrounds a call of the sender. -/
def BipCall.env (call : BipCall) : BipEnv := ⟨omac1Aes128, call.allocOk, fun _ => 0⟩

/-- The part of `wifi_mac_tx_mgmt_frm` that protects a frame: it is sent when that succeeds. -/
def bipSend (sender : BipSender) (call : BipCall) : BipSender :=
  let (failed, key, frame) :=
    wifiMacAddMmie (call.env omac1Aes128) sender.key (call.frame.bytes ++ call.room.toList)
  ⟨key, if failed = 0 then sender.air ++ [frame] else sender.air⟩

def bipReceive (receiver : BipReceiver) (reception : Reception) : BipReceiver :=
  if receiver.hangs then receiver
  else
    match wifiMacParseMmie (reception.env omac1Aes128) receiver.key reception.frame with
    | none => { receiver with hangs := true }
    | some (result, key) =>
      ⟨key, if result = 1 then receiver.accepted ++ [reception.frame] else receiver.accepted, false⟩

end Steps

def ipnBytes (frame : List UInt8) : List UInt8 := slice frame (frame.length - mmeIeLengthCmac + 4) 6

/-- The number that the counter of a frame stands for. -/
def ipn (frame : List UInt8) : Nat := little (ipnBytes frame)

/-- What the check reads for the counter: the two bytes behind it, of the MIC, are its highest. -/
def pktIpn (frame : List UInt8) : Nat := little (slice frame (frame.length - mmeIeLengthCmac + 4) 8)

/-- The two bytes that the check reads behind the counter. -/
def ipnTail (frame : List UInt8) : Nat :=
  little (slice frame (frame.length - mmeIeLengthCmac + 10) 2)

/-- The counter that a receiver keeps, of eight bytes as well. -/
def localIpn (key : PmfKey) : Nat := little (slice key.wkKeyrsc 0 8)

def PmfKey.keep (key : PmfKey) (frame : List UInt8) : PmfKey :=
  let pktIpn := slice frame (frame.length - mmeIeLengthCmac + 4) 8
  { key with wkKeyrsc := write key.wkKeyrsc 0 pktIpn }

section Counter

variable {frame : List UInt8}

theorem pktIpn_eq (long : wifiFrameLen + 8 ≤ frame.length) :
    pktIpn frame = ipn frame + 256 ^ 6 * ipnTail frame := by
  have six : (ipnBytes frame).length = 6 := by
    refine Bytes.length_slice ?_
    simp only [wifiFrameLen, mmeIeLengthCmac] at long ⊢
    omega
  have parts : slice frame (frame.length - mmeIeLengthCmac + 4) 8 =
      ipnBytes frame ++ slice frame (frame.length - mmeIeLengthCmac + 10) 2 :=
    @Bytes.slice_add _ frame _ 6 2
  rw [pktIpn, parts, Bytes.little_append, six, ipn, ipnTail]

end Counter

/-- A frame passes everything in the check but the comparison of the counters, for a receiver with
this key. -/
structure Passes (env : BipEnv) (key : PmfKey) (frame : List UInt8) : Prop where
  cmac : key.wkKeyType = wifinetCipherAesCmac
  long : wifiFrameLen + 8 ≤ frame.length
  element : (frame.getD (frame.length - mmeIeLengthCmac) 0).toNat = mmeIeId
  keyix : little (slice frame (frame.length - mmeIeLengthCmac + 2) 2) = key.wkKeyix
  allocated : env.allocOk = true
  ends : frame.length ≤ 259
  apart : bipMic env key frame ≠ strayBytes env frame.length

instance (env : BipEnv) (key : PmfKey) (frame : List UInt8) : Decidable (Passes env key frame) :=
  decidable_of_iff (key.wkKeyType = wifinetCipherAesCmac ∧ wifiFrameLen + 8 ≤ frame.length ∧
      (frame.getD (frame.length - mmeIeLengthCmac) 0).toNat = mmeIeId ∧
      little (slice frame (frame.length - mmeIeLengthCmac + 2) 2) = key.wkKeyix ∧
      env.allocOk = true ∧ frame.length ≤ 259 ∧
      bipMic env key frame ≠ strayBytes env frame.length)
    ⟨fun ⟨cmac, long, element, keyix, allocated, ends, apart⟩ =>
      ⟨cmac, long, element, keyix, allocated, ends, apart⟩,
    fun passes => ⟨passes.cmac, passes.long, passes.element, passes.keyix, passes.allocated,
      passes.ends, passes.apart⟩⟩

section Check

variable {env : BipEnv} {key : PmfKey} {frame : List UInt8}

theorem accepts_iff (short : frame.length < 65536) :
    Accepts env key frame ↔ Passes env key frame ∧ localIpn key < pktIpn frame := by
  constructor
  · intro accepts
    have presented := presented_of_accepts short accepts
    obtain ⟨allocated, ends, apart⟩ := (accepts_of_presented short presented).mp accepts
    exact ⟨⟨presented.cmac, presented.long, presented.element, presented.keyix, allocated, ends,
      apart⟩, presented.newer⟩
  · rintro ⟨passes, newer⟩
    have presented : Presented key frame :=
      ⟨passes.cmac, passes.long, passes.element, passes.keyix, newer⟩
    exact (accepts_of_presented short presented).mpr ⟨passes.allocated, passes.ends, passes.apart⟩

/-- The key after a check that ends: the receiver keeps the counter of a frame that it accepts. -/
theorem wifiMacParseMmie_key {result : Int} {after : PmfKey} (short : frame.length < 65536)
    (parsed : wifiMacParseMmie env key frame = some (result, after)) :
    after = if result = 1 then key.keep frame else key := by
  unfold wifiMacParseMmie at parsed
  rw [Nat.mod_eq_of_lt short] at parsed
  by_cases cmac : key.wkKeyType = wifinetCipherAesCmac
  · have eight : (if key.wkKeyType = wifinetCipherAesCmac then 8 else 16) = 8 := if_pos cmac
    simp only [eight, ↓reduceIte] at parsed
    repeat' split at parsed
    all_goals cases parsed
    all_goals rfl
  · -- no MIC is made with a key of another type
    have none_made : ∀ data, amlCalculateBipMic env key data = none :=
      fun data => if_neg cmac
    simp only [none_made] at parsed
    repeat' split at parsed
    all_goals cases parsed
    all_goals rfl

theorem localIpn_keep (long : wifiFrameLen + 8 ≤ frame.length) :
    localIpn (key.keep frame) = pktIpn frame := by
  have eight : (slice frame (frame.length - mmeIeLengthCmac + 4) 8).length = 8 := by
    refine Bytes.length_slice ?_
    simp only [wifiFrameLen, mmeIeLengthCmac] at long ⊢
    omega
  have read : slice (key.keep frame).wkKeyrsc 0
      (slice frame (frame.length - mmeIeLengthCmac + 4) 8).length = _ :=
    Bytes.slice_write_same (Nat.zero_le _)
  rw [eight] at read
  rw [localIpn, read, pktIpn]

theorem length_keep (counters : 8 ≤ key.wkKeyrsc.length)
    (long : wifiFrameLen + 8 ≤ frame.length) : 8 ≤ (key.keep frame).wkKeyrsc.length := by
  have eight : (slice frame (frame.length - mmeIeLengthCmac + 4) 8).length = 8 := by
    refine Bytes.length_slice ?_
    simp only [wifiFrameLen, mmeIeLengthCmac] at long ⊢
    omega
  rw [PmfKey.keep, Bytes.length_write (by rw [eight]; exact counters)]
  exact counters

theorem Passes.of_same {other : PmfKey} (same : SameKey key other)
    (passes : Passes env key frame) : Passes env other frame := by
  obtain ⟨type, keyix, bytes⟩ := same
  refine ⟨type.trans passes.cmac, passes.long, passes.element, passes.keyix.trans keyix.symm,
    passes.allocated, passes.ends, ?_⟩
  rw [bipMic, bytes]
  exact passes.apart

end Check

section Receiver

variable {omac1Aes128 : List UInt8 → List UInt8 → Vector UInt8 16} {key origin : PmfKey}
  {accepted : List (List UInt8)} {reception : Reception} {receptions : List Reception}

private theorem bipReceive_hangs (key : PmfKey) (accepted : List (List UInt8))
    (receptions : List Reception) :
    (Machine.run (bipReceive omac1Aes128) ⟨key, accepted, true⟩ receptions).accepted =
      accepted := by
  induction receptions with
  | nil => rfl
  | cons reception rest induction => exact induction

theorem bipReceive_accepts (passes : Passes (reception.env omac1Aes128) key reception.frame)
    (newer : localIpn key < pktIpn reception.frame) :
    bipReceive omac1Aes128 ⟨key, accepted, false⟩ reception =
      ⟨key.keep reception.frame, accepted ++ [reception.frame], false⟩ := by
  obtain ⟨after, parsed⟩ := (accepts_iff reception.short).mpr ⟨passes, newer⟩
  have kept := wifiMacParseMmie_key reception.short parsed
  rw [if_pos rfl] at kept
  simp [bipReceive, parsed, kept]

/-- A frame that is not accepted leaves the receiver as it is, or hangs it. -/
theorem bipReceive_refuses
    (refused : ¬ (Passes (reception.env omac1Aes128) key reception.frame ∧
      localIpn key < pktIpn reception.frame)) :
    bipReceive omac1Aes128 ⟨key, accepted, false⟩ reception = ⟨key, accepted, true⟩ ∨
      bipReceive omac1Aes128 ⟨key, accepted, false⟩ reception = ⟨key, accepted, false⟩ := by
  cases parsed : wifiMacParseMmie (reception.env omac1Aes128) key reception.frame with
  | none =>
    left
    simp [bipReceive, parsed]
  | some outcome =>
    obtain ⟨result, after⟩ := outcome
    right
    have other : result ≠ 1 := by
      rintro rfl
      exact refused ((accepts_iff reception.short).mp ⟨after, parsed⟩)
    have kept := wifiMacParseMmie_key reception.short parsed
    rw [if_neg other] at kept
    simp [bipReceive, parsed, kept, other]

def bipAdmitted (omac1Aes128 : List UInt8 → List UInt8 → Vector UInt8 16)
    (key : PmfKey) (mark : Nat) (receptions : List Reception) : List Reception :=
  Replay.admitted (fun reception => pktIpn reception.frame)
    (fun reception => Passes (reception.env omac1Aes128) key reception.frame) mark receptions

/-- A receiver accepts what its gate admits, until it hangs. -/
theorem bipReceive_admitted (same : SameKey origin key) (counters : 8 ≤ key.wkKeyrsc.length) :
    ∃ taken, taken <+: receptions ∧
      (Machine.run (bipReceive omac1Aes128) ⟨key, accepted, false⟩ receptions).accepted =
        accepted ++ (bipAdmitted omac1Aes128 origin (localIpn key) taken).map Reception.frame := by
  induction receptions generalizing key accepted with
  | nil => exact ⟨[], List.prefix_rfl, by simp [bipAdmitted, Replay.admitted]⟩
  | cons reception rest induction =>
    rw [Machine.run_cons]
    have back : SameKey key origin := ⟨same.1.symm, same.2.1.symm, same.2.2.symm⟩
    by_cases admits : Passes (reception.env omac1Aes128) origin reception.frame ∧
        localIpn key < pktIpn reception.frame
    · obtain ⟨passes, newer⟩ := admits
      rw [bipReceive_accepts (passes.of_same same) newer]
      obtain ⟨taken, before, result⟩ := @induction (key.keep reception.frame)
        (accepted ++ [reception.frame]) same (length_keep counters passes.long)
      refine ⟨reception :: taken, List.prefix_cons_inj reception |>.mpr before, ?_⟩
      rw [result, localIpn_keep passes.long, bipAdmitted, bipAdmitted, Replay.admitted,
        if_pos ⟨passes, newer⟩]
      simp
    · have refused : ¬ (Passes (reception.env omac1Aes128) key reception.frame ∧
          localIpn key < pktIpn reception.frame) :=
        fun both => admits ⟨both.1.of_same back, both.2⟩
      rcases @bipReceive_refuses _ _ accepted _ refused with hangs | kept
      · rw [hangs, bipReceive_hangs]
        exact ⟨[], List.nil_prefix, by simp [bipAdmitted, Replay.admitted]⟩
      · rw [kept]
        obtain ⟨taken, before, result⟩ := @induction key accepted same counters
        refine ⟨reception :: taken, List.prefix_cons_inj reception |>.mpr before, ?_⟩
        rw [result, bipAdmitted, bipAdmitted, Replay.admitted, if_neg admits]

/-- A receiver accepts frames that all pass and whose counters ascend. -/
theorem bipReceive_all (same : SameKey origin key) (counters : 8 ≤ key.wkKeyrsc.length)
    (passing : ∀ reception ∈ receptions,
      Passes (reception.env omac1Aes128) origin reception.frame ∧
        localIpn key < pktIpn reception.frame)
    (ascends : (receptions.map fun reception => pktIpn reception.frame).Pairwise (· < ·)) :
    (Machine.run (bipReceive omac1Aes128) ⟨key, accepted, false⟩ receptions).accepted =
      accepted ++ receptions.map Reception.frame := by
  induction receptions generalizing key accepted with
  | nil => simp
  | cons reception rest induction =>
    obtain ⟨above, later⟩ := List.pairwise_cons.mp ascends
    obtain ⟨passes, newer⟩ := passing reception List.mem_cons_self
    rw [Machine.run_cons, bipReceive_accepts (passes.of_same same) newer,
      @induction (key.keep reception.frame) _ same (length_keep counters passes.long) ?_ later]
    · simp
    · intro other member
      rw [localIpn_keep passes.long]
      exact ⟨(passing other (List.mem_cons_of_mem reception member)).1,
        above _ (List.mem_map_of_mem member)⟩

end Receiver

/-- The key of a sender that has counted up. -/
def PmfKey.bump (key : PmfKey) : PmfKey := { key with wkKeyrsc := key.wkKeyrsc.modify 5 (· + 1) }

/-- The byte of the counter that the sender counts up, the highest of its six. -/
def topByte (key : PmfKey) : Nat := (key.wkKeyrsc.getD 5 0).toNat

/-- The number of calls that put a frame on the air. -/
def bipSends (key : PmfKey) (calls : List BipCall) : Nat :=
  if key.wkKeyType = wifinetCipherAesCmac ∧ key.wkValid = 1 then
    calls.countP BipCall.allocOk
  else 0

section Sender

variable {omac1Aes128 : List UInt8 → List UInt8 → Vector UInt8 16} {key : PmfKey}
  {air : List (List UInt8)} {call : BipCall} {calls : List BipCall}

theorem modify_sixth (counters : key.wkKeyrsc.length = 17) :
    key.bump.wkKeyrsc =
      key.wkKeyrsc.take 5 ++ (key.wkKeyrsc.getD 5 0 + 1) :: key.wkKeyrsc.drop 6 := by
  have inside : 5 < key.wkKeyrsc.length := by omega
  have there : key.wkKeyrsc.getD 5 0 = key.wkKeyrsc[5] := by
    rw [List.getD_eq_getElem?_getD, List.getElem?_eq_getElem inside, Option.getD_some]
  rw [PmfKey.bump, there, List.modify_eq_take_cons_drop inside]

theorem bump_counters (counters : key.wkKeyrsc.length = 17) :
    key.bump.wkKeyrsc.length = 17 := by
  rw [PmfKey.bump, List.length_modify, counters]

private theorem topByte_bump (counters : key.wkKeyrsc.length = 17) :
    topByte key.bump = (topByte key + 1) % 256 := by
  have five : (key.wkKeyrsc.take 5).length = 5 := by
    rw [List.length_take, counters]
    rfl
  rw [topByte, modify_sixth counters, List.getD_eq_getElem?_getD,
    List.getElem?_append_right (by rw [five]), five]
  simp [topByte]

private theorem take_bump (counters : key.wkKeyrsc.length = 17) :
    key.bump.wkKeyrsc.take 5 = key.wkKeyrsc.take 5 := by
  have five : (key.wkKeyrsc.take 5).length = 5 := by
    rw [List.length_take, counters]
    rfl
  rw [modify_sixth counters, List.take_append_of_le_length (by rw [five]), List.take_take]
  rfl

private theorem little_sentCounter (counters : key.wkKeyrsc.length = 17) :
    little (sentCounter key) =
      little (key.wkKeyrsc.take 5) + 256 ^ 5 * ((topByte key + 1) % 256) := by
  have five : (key.wkKeyrsc.take 5).length = 5 := by
    rw [List.length_take, counters]
    rfl
  have bytes : sentCounter key = key.wkKeyrsc.take 5 ++ [key.wkKeyrsc.getD 5 0 + 1] := by
    have whole : sentCounter key = key.bump.wkKeyrsc.take 6 := rfl
    rw [whole, modify_sixth counters]
    conv => lhs; rw [show 6 = (key.wkKeyrsc.take 5).length + 1 by rw [five],
      List.take_length_add_append]
    rfl
  rw [bytes, Bytes.little_append, five]
  simp [little, topByte]

private theorem ipn_sentFrame (env : BipEnv) (frame : MgmtFrame)
    (counters : key.wkKeyrsc.length = 17) :
    ipn (sentFrame env key frame) = little (sentCounter key) := by
  have eight : slice (sentFrame env key frame)
      ((sentFrame env key frame).length - mmeIeLengthCmac + 4) 8 = _ := sent_ipn counters
  have six := length_sentCounter counters
  have bytes : ipnBytes (sentFrame env key frame) = sentCounter key := by
    rw [ipnBytes, ← Bytes.take_slice (show 6 ≤ 8 by omega), eight]
    conv => lhs; rw [show 6 = (sentCounter key).length by rw [six], List.take_left]
  rw [ipn, bytes]

theorem bipSend_result (counters : key.wkKeyrsc.length = 17) :
    bipSend omac1Aes128 ⟨key, air⟩ call =
      if call.allocOk = true ∧ key.wkValid = 1 then
        ⟨key.bump, if key.wkKeyType = wifinetCipherAesCmac then
          air ++ [sentFrame (call.env omac1Aes128) key call.frame] else air⟩
      else ⟨key, air⟩ := by
  by_cases allocated : call.allocOk = true
  · by_cases valid : key.wkValid = 1
    · rw [if_pos ⟨allocated, valid⟩]
      have there : (call.env omac1Aes128).allocOk = true := allocated
      by_cases cmac : key.wkKeyType = wifinetCipherAesCmac
      · have done : (wifiMacAddMmie (call.env omac1Aes128) key
            (call.frame.bytes ++ call.room.toList)).1 = 0 := by
          simp [wifiMacAddMmie, there, valid, amlCalculateBipMic, cmac]
        have bumped : (wifiMacAddMmie (call.env omac1Aes128) key
            (call.frame.bytes ++ call.room.toList)).2.1 = key.bump := by
          simp [wifiMacAddMmie, there, valid, amlCalculateBipMic, cmac, PmfKey.bump]
        have frame := (wifiMacAddMmie_sent counters call.room done).2
        rw [List.append_assoc] at frame
        have result : wifiMacAddMmie (call.env omac1Aes128) key
            (call.frame.bytes ++ call.room.toList) =
            (0, key.bump, sentFrame (call.env omac1Aes128) key call.frame) :=
          Prod.ext done (Prod.ext bumped frame)
        simp [bipSend, result, cmac]
      · simp [bipSend, wifiMacAddMmie, there, valid, amlCalculateBipMic, cmac, PmfKey.bump]
    · have refused : ¬ (call.allocOk = true ∧ key.wkValid = 1) := fun both => valid both.2
      rw [if_neg refused]
      simp [bipSend, wifiMacAddMmie, valid, BipCall.env, allocated]
  · have refused : ¬ (call.allocOk = true ∧ key.wkValid = 1) := fun both => allocated both.1
    rw [if_neg refused]
    simp [bipSend, wifiMacAddMmie, BipCall.env, allocated]

/-- The counters on the air are the next values of the byte that the sender counts up. -/
theorem bipSend_air (counters : key.wkKeyrsc.length = 17) :
    (Machine.run (bipSend omac1Aes128) ⟨key, air⟩ calls).air.map ipn =
      air.map ipn ++ (Replay.wrapping 256 (topByte key + 1) (bipSends key calls)).map fun top =>
        little (key.wkKeyrsc.take 5) + 256 ^ 5 * top := by
  induction calls generalizing key air with
  | nil =>
    have none_sent : bipSends key [] = 0 := by simp [bipSends]
    rw [none_sent]
    simp
  | cons call rest induction =>
    rw [Machine.run_cons, bipSend_result counters]
    by_cases counts : call.allocOk = true ∧ key.wkValid = 1
    · rw [if_pos counts, induction (bump_counters counters), take_bump counters,
        topByte_bump counters]
      by_cases cmac : key.wkKeyType = wifinetCipherAesCmac
      · have next : bipSends key (call :: rest) = bipSends key.bump rest + 1 := by
          simp [bipSends, PmfKey.bump, cmac, counts.1, counts.2]
        rw [if_pos cmac, next, Replay.wrapping_succ, List.map_append, List.map_cons,
          List.map_cons, ipn_sentFrame _ _ counters, little_sentCounter counters,
          ← Replay.wrapping_mod 256 (topByte key + 1 + 1),
          ← Replay.wrapping_mod 256 ((topByte key + 1) % 256 + 1), Nat.mod_add_mod]
        simp
      · have none_sent : bipSends key.bump rest = 0 ∧ bipSends key (call :: rest) = 0 := by
          simp [bipSends, PmfKey.bump, cmac]
        rw [if_neg cmac, none_sent.1, none_sent.2]
        simp
    · have next : bipSends key (call :: rest) = bipSends key rest := by
        by_cases able : key.wkKeyType = wifinetCipherAesCmac ∧ key.wkValid = 1
        · have refused : ¬ call.allocOk = true := fun allocated => counts ⟨allocated, able.2⟩
          simp [bipSends, able, List.countP_cons_of_neg refused]
        · simp only [bipSends, if_neg able]
      rw [if_neg counts, induction counters, next]

/-- What is on the air is what a sender with this key has protected. -/
theorem bipSend_sent (counters : key.wkKeyrsc.length = 17) {frame : List UInt8}
    (member : frame ∈ (Machine.run (bipSend omac1Aes128) ⟨key, air⟩ calls).air) :
    frame ∈ air ∨ ∃ env sender original, SameKey key sender ∧ sender.wkKeyrsc.length = 17 ∧
      key.wkKeyType = wifinetCipherAesCmac ∧ frame = sentFrame env sender original := by
  induction calls generalizing key air with
  | nil => exact Or.inl member
  | cons call rest induction =>
    rw [Machine.run_cons, bipSend_result counters] at member
    split at member
    · rcases induction (bump_counters counters) member with before | ⟨env, sender, original, sent⟩
      · split at before
        · rename_i cmac
          rcases List.mem_append.mp before with old | new
          · exact Or.inl old
          · refine Or.inr ⟨call.env omac1Aes128, key, call.frame, ⟨rfl, rfl, rfl⟩, counters, cmac,
              List.mem_singleton.mp new⟩
        · exact Or.inl before
      · exact Or.inr ⟨env, sender, original, sent⟩
    · exact induction counters member

end Sender

/-- A sender and a receiver of broadcast management frames: the calls of `wifi_mac_add_mmie`, the
frames that reach the receiver in their order, and the frames that may reach it in any order and as
often as anyone likes. -/
structure IgtkRun where
  omac1Aes128 : List UInt8 → List UInt8 → Vector UInt8 16
  sender : PmfKey
  counters : sender.wkKeyrsc.length = 17
  receiver : PmfKey
  localCounters : receiver.wkKeyrsc.length = 17
  calls : List BipCall
  inOrder : List Reception
  pool : Set Reception

namespace IgtkRun

variable (igtk : IgtkRun)

/-- The frames that the sender has put on the air. -/
def air : List (List UInt8) :=
  (Machine.run (bipSend igtk.omac1Aes128) ⟨igtk.sender, []⟩ igtk.calls).air

/-- The frames that the receiver accepts of those that reach it. -/
def accepted (receptions : List Reception) : List (List UInt8) :=
  (Machine.run (bipReceive igtk.omac1Aes128) ⟨igtk.receiver, [], false⟩ receptions).accepted

/-- The receiver has the sender's key, and frames of the sender reach it in their order, all with
counters above its own. -/
structure InStep : Prop where
  same : SameKey igtk.sender igtk.receiver
  ordered : (igtk.inOrder.map Reception.frame).Sublist igtk.air
  newer : ∀ reception ∈ igtk.inOrder, localIpn igtk.receiver < ipn reception.frame

/-- The counters on the air ascend, the receiver accepts authentic frames in their order, and it
accepts no counter twice. -/
structure ReplayLaw : Prop where
  ascending : igtk.calls.length < 2 ^ 48 → (igtk.air.map ipn).Pairwise (· < ·)
  complete : igtk.InStep → igtk.accepted igtk.inOrder = igtk.inOrder.map Reception.frame
  unique : ∀ receptions, (∀ reception ∈ receptions, reception ∈ igtk.pool) →
    ((igtk.accepted receptions).map ipn).Nodup

/-- When the code does so. The highest byte of the counter does not wrap. Of frames that reach the
receiver in their order, the number of the key fits its byte, the allocation succeeds, the frame is
short enough, its MIC differs from the memory behind it, and the two bytes of the MIC behind each
counter do not make it fall. Two frames of one counter that pass the rest of the check have the same
two bytes behind it. -/
structure Keeping : Prop where
  unwrapped : igtk.calls.length < 2 ^ 48 →
    (topByte igtk.sender + 1) % 256 + bipSends igtk.sender igtk.calls ≤ 256
  fitting : igtk.InStep →
    (∀ reception ∈ igtk.inOrder, igtk.sender.wkKeyix < 256 ∧ reception.allocOk = true ∧
      reception.frame.length ≤ 259 ∧
      bipMic (reception.env igtk.omac1Aes128) igtk.receiver reception.frame ≠
        strayBytes (reception.env igtk.omac1Aes128) reception.frame.length) ∧
      (igtk.inOrder.map fun reception => pktIpn reception.frame).Pairwise (· < ·)
  single : ∀ one ∈ igtk.pool, ∀ two ∈ igtk.pool,
    Passes (one.env igtk.omac1Aes128) igtk.receiver one.frame →
    Passes (two.env igtk.omac1Aes128) igtk.receiver two.frame →
    localIpn igtk.receiver < pktIpn one.frame → localIpn igtk.receiver < pktIpn two.frame →
    ipn one.frame = ipn two.frame → ipnTail one.frame = ipnTail two.frame

theorem ascending_iff : (igtk.air.map ipn).Pairwise (· < ·) ↔
    (topByte igtk.sender + 1) % 256 + bipSends igtk.sender igtk.calls ≤ 256 := by
  have counted : igtk.air.map ipn = _ := bipSend_air igtk.counters
  rw [List.map_nil, List.nil_append] at counted
  rw [counted, List.pairwise_map, ← Replay.wrapping_ascends (by decide)]
  refine List.Pairwise.iff ?_
  intro one two
  rw [Nat.add_lt_add_iff_left, Nat.mul_lt_mul_left (by decide)]

/-- What a frame that reaches the receiver in its order passes. -/
theorem passes_iff (step : igtk.InStep) {reception : Reception}
    (member : reception ∈ igtk.inOrder) :
    Passes (reception.env igtk.omac1Aes128) igtk.receiver reception.frame ↔
      igtk.sender.wkKeyix < 256 ∧ reception.allocOk = true ∧ reception.frame.length ≤ 259 ∧
        bipMic (reception.env igtk.omac1Aes128) igtk.receiver reception.frame ≠
          strayBytes (reception.env igtk.omac1Aes128) reception.frame.length := by
  have onAir := step.ordered.subset (List.mem_map_of_mem member)
  rcases bipSend_sent igtk.counters onAir with nothing | found
  · cases nothing
  · obtain ⟨env, sender, original, same, counters, cmac, sent⟩ := found
    have element := @sent_element env sender original counters
    have keyix := @sent_keyix env sender original counters
    have long := length_sentFrame env original counters
    have whole := original.whole
    rw [← sent] at element keyix long
    rw [same.2.1] at keyix
    constructor
    · intro passes
      have number := passes.keyix
      rw [keyix, step.same.2.1] at number
      exact ⟨by omega, passes.allocated, passes.ends, passes.apart⟩
    · rintro ⟨small, allocated, ends, apart⟩
      refine ⟨step.same.1.trans cmac, ?_, element, ?_, allocated, ends, apart⟩
      · simp only [wifiFrameLen] at whole ⊢
        omega
      · rw [keyix, step.same.2.1]
        exact Nat.mod_eq_of_lt small

theorem localCounters_eight : 8 ≤ igtk.receiver.wkKeyrsc.length := by
  rw [igtk.localCounters]
  omega

theorem accepted_admitted (receptions : List Reception) : ∃ taken, taken <+: receptions ∧
    igtk.accepted receptions =
      (bipAdmitted igtk.omac1Aes128 igtk.receiver (localIpn igtk.receiver) taken).map
        Reception.frame := by
  obtain ⟨taken, before, result⟩ := @bipReceive_admitted igtk.omac1Aes128 igtk.receiver
    igtk.receiver [] receptions ⟨rfl, rfl, rfl⟩ igtk.localCounters_eight
  exact ⟨taken, before, result⟩

/-- The receiver accepts all that reach it exactly when they pass and their counters ascend. -/
theorem accepts_all_iff (receptions : List Reception) :
    igtk.accepted receptions = receptions.map Reception.frame ↔
      (∀ reception ∈ receptions,
        Passes (reception.env igtk.omac1Aes128) igtk.receiver reception.frame ∧
          localIpn igtk.receiver < pktIpn reception.frame) ∧
      (receptions.map fun reception => pktIpn reception.frame).Pairwise (· < ·) := by
  constructor
  · intro whole
    obtain ⟨taken, before, result⟩ := igtk.accepted_admitted receptions
    have sub : (bipAdmitted igtk.omac1Aes128 igtk.receiver (localIpn igtk.receiver)
        taken).Sublist taken := Replay.admitted_sublist
    have count : (bipAdmitted igtk.omac1Aes128 igtk.receiver (localIpn igtk.receiver)
        taken).length = receptions.length := by
      have lengths := congrArg List.length (result.symm.trans whole)
      rw [List.length_map, List.length_map] at lengths
      exact lengths
    have all : taken = receptions :=
      before.eq_of_length (le_antisymm before.length_le (by rw [← count]; exact sub.length_le))
    rw [all] at sub count
    exact Replay.admitted_eq_self_iff.mp (sub.eq_of_length count)
  · rintro ⟨passing, ascends⟩
    exact @bipReceive_all igtk.omac1Aes128 igtk.receiver igtk.receiver [] receptions
      ⟨rfl, rfl, rfl⟩ igtk.localCounters_eight passing ascends

private theorem complete_iff (step : igtk.InStep) :
    igtk.accepted igtk.inOrder = igtk.inOrder.map Reception.frame ↔
      (∀ reception ∈ igtk.inOrder, igtk.sender.wkKeyix < 256 ∧ reception.allocOk = true ∧
        reception.frame.length ≤ 259 ∧
        bipMic (reception.env igtk.omac1Aes128) igtk.receiver reception.frame ≠
          strayBytes (reception.env igtk.omac1Aes128) reception.frame.length) ∧
        (igtk.inOrder.map fun reception => pktIpn reception.frame).Pairwise (· < ·) := by
  rw [igtk.accepts_all_iff]
  refine and_congr_left fun _ => ?_
  constructor
  · intro passing reception member
    exact (igtk.passes_iff step member).mp (passing reception member).1
  · intro fitting reception member
    have passes := (igtk.passes_iff step member).mpr (fitting reception member)
    refine ⟨passes, ?_⟩
    rw [pktIpn_eq passes.long]
    exact Nat.lt_of_lt_of_le (step.newer reception member) (Nat.le_add_right _ _)

/-- No counter is accepted twice exactly when two frames of one counter never have different bytes
behind it. -/
theorem unique_iff :
    (∀ receptions, (∀ reception ∈ receptions, reception ∈ igtk.pool) →
      ((igtk.accepted receptions).map ipn).Nodup) ↔
    ∀ one ∈ igtk.pool, ∀ two ∈ igtk.pool,
      Passes (one.env igtk.omac1Aes128) igtk.receiver one.frame →
      Passes (two.env igtk.omac1Aes128) igtk.receiver two.frame →
      localIpn igtk.receiver < pktIpn one.frame → localIpn igtk.receiver < pktIpn two.frame →
      ipn one.frame = ipn two.frame → ipnTail one.frame = ipnTail two.frame := by
  constructor
  · intro unique
    -- of two frames with different bytes, the one with the smaller bytes is accepted first
    have rising : ∀ one ∈ igtk.pool, ∀ two ∈ igtk.pool,
        Passes (one.env igtk.omac1Aes128) igtk.receiver one.frame →
        Passes (two.env igtk.omac1Aes128) igtk.receiver two.frame →
        localIpn igtk.receiver < pktIpn one.frame → localIpn igtk.receiver < pktIpn two.frame →
        ipn one.frame = ipn two.frame → ¬ ipnTail one.frame < ipnTail two.frame := by
      intro one oneIn two twoIn onePasses twoPasses oneNew twoNew same lower
      have order : pktIpn one.frame < pktIpn two.frame := by
        rw [pktIpn_eq onePasses.long, pktIpn_eq twoPasses.long, same]
        omega
      have accepts : igtk.accepted [one, two] = [one.frame, two.frame] := by
        refine (igtk.accepts_all_iff [one, two]).mpr ⟨?_, ?_⟩
        · intro reception member
          rcases List.mem_pair.mp member with rfl | rfl
          · exact ⟨onePasses, oneNew⟩
          · exact ⟨twoPasses, twoNew⟩
        · exact List.pairwise_pair.mpr order
      have apart := unique [one, two] (by
        intro reception member
        rcases List.mem_pair.mp member with rfl | rfl
        · exact oneIn
        · exact twoIn)
      rw [accepts] at apart
      simp [same] at apart
    intro one oneIn two twoIn onePasses twoPasses oneNew twoNew same
    rcases Nat.lt_trichotomy (ipnTail one.frame) (ipnTail two.frame) with lower | equal | higher
    · exact absurd lower
        (rising one oneIn two twoIn onePasses twoPasses oneNew twoNew same)
    · exact equal
    · exact absurd higher
        (rising two twoIn one oneIn twoPasses onePasses twoNew oneNew same.symm)
  · intro single receptions drawn
    obtain ⟨taken, before, result⟩ := igtk.accepted_admitted receptions
    rw [result, List.map_map, List.Nodup, List.pairwise_map]
    have ascends : ((bipAdmitted igtk.omac1Aes128 igtk.receiver (localIpn igtk.receiver)
        taken).map fun reception => pktIpn reception.frame).Pairwise (· < ·) :=
      Replay.admitted_ascends
    refine (List.pairwise_map.mp ascends).imp_of_mem ?_
    intro one two oneMember twoMember rises same
    have inPool : ∀ reception ∈ bipAdmitted igtk.omac1Aes128 igtk.receiver
        (localIpn igtk.receiver) taken, reception ∈ igtk.pool :=
      fun reception member =>
        drawn reception (before.subset (Replay.admitted_sublist.subset member))
    obtain ⟨onePasses, oneNew⟩ := Replay.admitted_passes oneMember
    obtain ⟨twoPasses, twoNew⟩ := Replay.admitted_passes twoMember
    have tails := single one (inPool one oneMember) two (inPool two twoMember) onePasses
      twoPasses oneNew twoNew same
    have sameIpn : ipn one.frame = ipn two.frame := same
    rw [pktIpn_eq onePasses.long, pktIpn_eq twoPasses.long, sameIpn, tails] at rises
    exact Nat.lt_irrefl _ rises

end IgtkRun

/-- The protection against replay holds exactly when the counters keep to their bounds. -/
theorem bip_replay_iff (igtk : IgtkRun) : igtk.ReplayLaw ↔ igtk.Keeping := by
  constructor
  · rintro ⟨ascending, complete, unique⟩
    exact ⟨fun short => igtk.ascending_iff.mp (ascending short),
      fun step => (igtk.complete_iff step).mp (complete step), igtk.unique_iff.mp unique⟩
  · rintro ⟨unwrapped, fitting, single⟩
    exact ⟨fun short => igtk.ascending_iff.mpr (unwrapped short),
      fun step => (igtk.complete_iff step).mpr (fitting step), igtk.unique_iff.mpr single⟩

/-- A sender with a key of zeros that protects one frame 256 times. -/
def wornRun : IgtkRun where
  omac1Aes128 := fun _ _ => Vector.replicate 16 0
  sender := zeroKey
  counters := zeroKey_counters
  receiver := zeroKey
  localCounters := zeroKey_counters
  calls := List.replicate 256 ⟨forgedFrame, Vector.replicate 18 0, true⟩
  inOrder := []
  pool := ∅

/-- The 256th counter on the air is zero again. -/
theorem bip_worn : ¬ ∀ igtk : IgtkRun, igtk.ReplayLaw := by
  intro law
  have ascends := (law wornRun).ascending (by decide +kernel)
  have short := wornRun.ascending_iff.mp ascends
  revert short
  decide +kernel

end W522a.Mac
