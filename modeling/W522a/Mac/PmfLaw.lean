import W522a.Mac.Pmf

/-!
What comes of a protected management frame: when a sent one arrives as it was, and when a received
one is accepted on no other ground than the key of the station, with no length below zero and no
copy past the frame.
-/

namespace W522a.Mac

open Bytes (slice write)
open Crypto (Aes CcmpAlloc ccmpHeader ccmpSuite setIswep ccmpDecrypt ccmpEncrypt)
open Memory (Traced Safe)

variable {env tx rx : PmfEnv} {sta peer : PmfStation} {sender : SwStation} {key : WifiMacKey}
  {frm header body : List UInt8}

/-- A frame under the key: behind the header with the packet number stand the encryption of some
body and its check. -/
def Authentic (aes : Aes) (key : WifiMacKey) (frm : List UInt8) : Prop :=
  let suite := ccmpSuite 8 (aes (key.wkKey.take 16)) frm (frm.drop wifiFrameLen)
  key.wkKeylen = 16 ∧ wifiFrameLen + 8 ≤ frm.length ∧
    ∃ body, frm.drop (wifiFrameLen + 8) = (suite.encrypt body).1 ++ (suite.encrypt body).2

/-- A length is not negative, and a copy stays in the frame. -/
def Fits (len : Nat) : PmfEvent → Prop
  | .length value => 0 ≤ value
  | .copy start count => start + count ≤ len

/-- The frame is accepted under the key of the station alone, and by harmless steps. -/
def AcceptsSafely (env : PmfEnv) (sta : PmfStation) (frm : List UInt8) : Prop :=
  ((wifiMacMgmtValidate env sta frm).value.res = some 0 →
    Authentic env.aes sta.staUcastkey frm) ∧
  Safe (Fits frm.length) (wifiMacMgmtValidate env sta frm)

/-- The group check fails on the frame as it arrived, without what stands around the body. -/
def GroupRefuses (env : PmfEnv) (sta : PmfStation) (frm : List UInt8) : Prop :=
  let (ivLen, icvLen) := setIceIvLen sta.rsnUcastcipher
  let dataLen := (frm.length - wifiFrameLen - ivLen - icvLen) % 65536
  isBmc frm = true ∧ (checkMmie env.toBipEnv sta.pmfKey (isBmc frm)
    (movedBody env.toBipEnv frm ivLen dataLen) (frm.length - ivLen - icvLen)).value.res ≠ some 0

/-- A robust frame has room for what its cipher puts around the body, and a cipher that decrypts
nothing meets a frame that is authentic or refused for another reason. -/
def Guarded (env : PmfEnv) (sta : PmfStation) (frm : List UInt8) : Prop :=
  isRobustManagementFrame env.toBipEnv frm = true →
    wifiFrameLen + (setIceIvLen sta.rsnUcastcipher).1 + (setIceIvLen sta.rsnUcastcipher).2 ≤
        frm.length ∧
      (sta.rsnUcastcipher ∈ aesCiphers ∨ Authentic env.aes sta.staUcastkey frm ∨
        env.mgmtAllocOk = false ∨ GroupRefuses env sta frm)

theorem length_of_authentic {aes : Aes} (authentic : Authentic aes key frm) :
    wifiFrameLen + 16 ≤ frm.length := by
  obtain ⟨-, -, body, parts⟩ := authentic
  have sizes := congrArg List.length parts
  rw [List.length_append, Crypto.length_ccmpCheck (by decide), List.length_drop] at sizes
  simp only [wifiFrameLen] at sizes ⊢
  omega

theorem ccmpPlain_eq (env : PmfEnv) (key : WifiMacKey) (frm : List UInt8) :
    ccmpPlain env key frm = if key.wkKeylen = 16 then
      ccmpDecrypt env.aes env.ccmpAlloc key.wkKey frm (frm.drop wifiFrameLen) else none := by
  have cut := key.cut
  rw [ccmpPlain]
  split
  · rfl
  · rw [if_neg (by omega)]

theorem length_ccmpPlain {plain : List UInt8} (accepted : ccmpPlain env key frm = some plain) :
    8 + plain.length + 8 = frm.length - wifiFrameLen := by
  rw [ccmpPlain_eq] at accepted
  split at accepted
  · have sizes := Crypto.length_ccmpDecryptWith (by decide) accepted
    rwa [List.length_drop] at sizes
  · cases accepted

theorem ccmpPlain_alloc {plain : List UInt8} (accepted : ccmpPlain env key frm = some plain) :
    env.ccmpAlloc = ⟨true, true⟩ := by
  rw [ccmpPlain_eq] at accepted
  split at accepted
  · exact Crypto.ccmpDecryptWith_alloc accepted
  · cases accepted

theorem authentic_of_ccmpPlain {plain : List UInt8}
    (accepted : ccmpPlain env key frm = some plain) : Authentic env.aes key frm := by
  have sizes := length_ccmpPlain accepted
  rw [ccmpPlain_eq] at accepted
  split at accepted
  · rename_i sixteen
    have allocated := Crypto.ccmpDecryptWith_alloc accepted
    rw [ccmpDecrypt, allocated] at accepted
    obtain ⟨eight, parts⟩ := (Crypto.ccmpDecryptWith_eq_some (by decide)).mp accepted
    rw [List.drop_drop] at parts
    exact ⟨sixteen, by omega, plain, parts⟩
  · cases accepted

theorem cipher_cases (cipher : Nat) : (cipher ∈ aesCiphers ∧ setIceIvLen cipher = (8, 8)) ∨
    (cipher ∉ aesCiphers ∧ (setIceIvLen cipher).1 + (setIceIvLen cipher).2 < 16) := by
  by_cases aes : cipher ∈ aesCiphers
  · refine Or.inl ⟨aes, ?_⟩
    simp only [aesCiphers, List.mem_cons, List.not_mem_nil, or_false] at aes
    rcases aes with rfl | rfl | rfl <;> decide
  · refine Or.inr ⟨aes, ?_⟩
    rw [setIceIvLen]
    split
    · decide
    · split
      · decide
      · decide

private theorem safe_amlAesDecrypt (long : wifiFrameLen ≤ frm.length) :
    Safe (Fits frm.length) (amlAesDecrypt env sta frm) := by
  rw [amlAesDecrypt, Memory.safe_bind]
  refine ⟨Memory.safe_emit.mpr (Int.sub_nonneg.mpr (Int.ofNat_le.mpr long)), ?_⟩
  split
  · exact Memory.safe_pure _
  · rename_i plain accepted
    have sizes := length_ccmpPlain accepted
    have room : wifiFrameLen + 8 + plain.length ≤ frm.length := by omega
    rw [Memory.safe_bind]
    exact ⟨Memory.safe_emit.mpr room, Memory.safe_pure _⟩

theorem value_amlAesDecrypt : (amlAesDecrypt env sta frm).value =
    (ccmpPlain env sta.staUcastkey frm).map (write frm (wifiFrameLen + 8)) := by
  rw [amlAesDecrypt, Memory.value_bind]
  cases ccmpPlain env sta.staUcastkey frm with
  | none => rfl
  | some plain => rfl

private theorem safe_amlPktDecrypt (long : wifiFrameLen ≤ frm.length) :
    Safe (Fits frm.length) (amlPktDecrypt env sta frm) := by
  rw [amlPktDecrypt]
  split
  · exact safe_amlAesDecrypt long
  · exact Memory.safe_pure _

private theorem Fits.mono {shorter len : Nat} (fewer : shorter ≤ len) (event : PmfEvent)
    (fits : Fits shorter event) : Fits len event := by
  cases event with
  | length value => exact fits
  | copy start count => exact Nat.le_trans fits fewer

private theorem safe_mmieAccesses (pmfKey : PmfKey) (frm : List UInt8) :
    Safe (Fits frm.length) (mmieAccesses pmfKey frm) := by
  have cut : frm.length % 65536 ≤ frm.length := Nat.mod_le _ _
  simp only [mmieAccesses]
  split
  · split
    · exact Memory.safe_pure _
    · rename_i room
      simp only [Memory.safe_bind, Memory.safe_emit, Fits, if_true, wifiFrameLen,
        mmeIeLengthCmac] at room ⊢
      omega
  · split
    · exact Memory.safe_pure _
    · rename_i room
      simp only [Memory.safe_bind, Memory.safe_emit, Fits, wifiFrameLen, mmeIeLength] at room ⊢
      rw [if_neg (by decide)]
      omega

private theorem safe_checkMmie {pmfKey : PmfKey} {bmc : Bool} {moved : List UInt8}
    {shorter len : Nat}
    (fewer : shorter ≤ len) :
    Safe (Fits len) (checkMmie env.toBipEnv pmfKey bmc moved shorter) := by
  have within : (moved.take shorter).length ≤ len := by
    rw [List.length_take]
    exact Nat.le_trans (Nat.min_le_left _ _) fewer
  rw [checkMmie]
  split
  · rw [Memory.safe_bind]
    refine ⟨(safe_mmieAccesses pmfKey _).mono (Fits.mono within), ?_⟩
    dsimp only
    split
    · exact Memory.safe_pure _
    · exact Memory.safe_pure _
  · exact Memory.safe_pure _

private theorem safe_validate (room : wifiFrameLen + (setIceIvLen sta.rsnUcastcipher).1 +
      (setIceIvLen sta.rsnUcastcipher).2 ≤ frm.length) :
    Safe (Fits frm.length) (wifiMacMgmtValidate env sta frm) := by
  rw [wifiMacMgmtValidate]
  revert room
  generalize setIceIvLen sta.rsnUcastcipher = around
  obtain ⟨ivLen, icvLen⟩ := around
  intro room
  split
  · exact Memory.safe_pure _
  · dsimp only
    have rest : ((frm.length : Int) - wifiFrameLen - ivLen - icvLen) =
        ((frm.length - wifiFrameLen - ivLen - icvLen : Nat) : Int) := by
      simp only [wifiFrameLen] at room ⊢
      omega
    have long : wifiFrameLen ≤ frm.length := by omega
    rw [rest, Memory.safe_bind]
    refine ⟨Memory.safe_emit.mpr (Int.natCast_nonneg _), ?_⟩
    split
    · exact Memory.safe_pure _
    · rw [Memory.safe_bind]
      refine ⟨safe_amlPktDecrypt long, ?_⟩
      have fewer : (frm.length - wifiFrameLen - ivLen - icvLen) % 65536 ≤
          frm.length - wifiFrameLen - ivLen - icvLen := Nat.mod_le _ _
      split
      · exact Memory.safe_pure _
      · rw [Memory.safe_bind, Memory.safe_emit, Memory.safe_bind, Memory.safe_emit]
        simp only [Fits]
        refine ⟨?_, ?_, safe_checkMmie (by omega)⟩
        · omega
        · omega

theorem validate_other (other : isRobustManagementFrame env.toBipEnv frm = false) :
    wifiMacMgmtValidate env sta frm = pure ⟨some 1, sta.pmfKey, frm⟩ := by
  rw [wifiMacMgmtValidate, if_pos (by rw [other]; rfl)]

theorem validate_unallocated (unallocated : env.mgmtAllocOk = false) :
    (wifiMacMgmtValidate env sta frm).value.res = some 1 := by
  rw [wifiMacMgmtValidate]
  split
  · rfl
  · simp only [Memory.value_bind, unallocated, Bool.not_false, if_true, Memory.value_pure]

/-- What comes of a robust frame with room for what its cipher puts around the body. -/
theorem value_validate {ivLen icvLen : Nat}
    (lengths : setIceIvLen sta.rsnUcastcipher = (ivLen, icvLen))
    (robust : isRobustManagementFrame env.toBipEnv frm = true) (allocated : env.mgmtAllocOk = true)
    (room : wifiFrameLen + ivLen + icvLen ≤ frm.length) :
    (wifiMacMgmtValidate env sta frm).value = match (amlPktDecrypt env sta frm).value with
      | none => ⟨some 1, sta.pmfKey, frm⟩
      | some plain => (checkMmie env.toBipEnv sta.pmfKey (isBmc frm)
        (movedBody env.toBipEnv plain ivLen ((frm.length - wifiFrameLen - ivLen - icvLen) % 65536))
        (frm.length - ivLen - icvLen)).value := by
  have rest : ((frm.length : Int) - wifiFrameLen - ivLen - icvLen) =
      ((frm.length - wifiFrameLen - ivLen - icvLen : Nat) : Int) := by
    simp only [wifiFrameLen] at room ⊢
    omega
  have narrow : (((frm.length - wifiFrameLen - ivLen - icvLen : Nat) : Int) % 65536).toNat =
      (frm.length - wifiFrameLen - ivLen - icvLen) % 65536 := by omega
  rw [wifiMacMgmtValidate, if_neg (by rw [robust]; decide), lengths]
  dsimp only
  rw [rest, narrow, Memory.value_bind, if_neg (by rw [allocated]; decide), Memory.value_bind]
  cases (amlPktDecrypt env sta frm).value with
  | none => rfl
  | some plain => rfl

/-- A frame that is too short for what its cipher puts around the body has a negative length. -/
theorem room_of_safe (robust : isRobustManagementFrame env.toBipEnv frm = true)
    (safe : Safe (Fits frm.length) (wifiMacMgmtValidate env sta frm)) :
    wifiFrameLen + (setIceIvLen sta.rsnUcastcipher).1 + (setIceIvLen sta.rsnUcastcipher).2 ≤
      frm.length := by
  rw [wifiMacMgmtValidate, if_neg (by rw [robust]; decide)] at safe
  revert safe
  generalize setIceIvLen sta.rsnUcastcipher = around
  obtain ⟨ivLen, icvLen⟩ := around
  intro safe
  have first := Memory.safe_emit.mp (Memory.safe_bind.mp safe).1
  simp only [Fits, wifiFrameLen] at first ⊢
  omega

/-- With a cipher that decrypts, only a frame that was decrypted is accepted. -/
theorem decrypts_of_accepted (aes : sta.rsnUcastcipher ∈ aesCiphers)
    (robust : isRobustManagementFrame env.toBipEnv frm = true) (allocated : env.mgmtAllocOk = true)
    (room : wifiFrameLen + (setIceIvLen sta.rsnUcastcipher).1 +
      (setIceIvLen sta.rsnUcastcipher).2 ≤ frm.length)
    (accepted : (wifiMacMgmtValidate env sta frm).value.res = some 0) :
    ∃ plain, ccmpPlain env sta.staUcastkey frm = some plain := by
  rw [value_validate rfl robust allocated room, amlPktDecrypt, if_pos aes, value_amlAesDecrypt]
    at accepted
  cases found : ccmpPlain env sta.staUcastkey frm with
  | none =>
    rw [found] at accepted
    cases accepted
  | some plain => exact ⟨plain, rfl⟩

theorem acceptsSafely_iff (env : PmfEnv) (sta : PmfStation) (frm : List UInt8) :
    AcceptsSafely env sta frm ↔ Guarded env sta frm := by
  constructor
  · rintro ⟨under, safe⟩ robust
    have room := room_of_safe robust safe
    refine ⟨room, ?_⟩
    by_cases aes : sta.rsnUcastcipher ∈ aesCiphers
    · exact Or.inl aes
    · refine Or.inr ?_
      cases allocated : env.mgmtAllocOk with
      | false => exact Or.inr (Or.inl rfl)
      | true =>
        rw [value_validate rfl robust allocated room, amlPktDecrypt, if_neg aes] at under
        by_cases refuses : GroupRefuses env sta frm
        · exact Or.inr (Or.inr refuses)
        · refine Or.inl (under ?_)
          cases group : isBmc frm with
          | false => rfl
          | true =>
            have passes := not_and.mp refuses group
            rw [group] at passes
            exact Decidable.of_not_not passes
  · intro guarded
    cases robust : isRobustManagementFrame env.toBipEnv frm with
    | false =>
      rw [AcceptsSafely, validate_other robust]
      refine ⟨fun accepted => ?_, Memory.safe_pure _⟩
      cases accepted
    | true =>
      obtain ⟨room, cause⟩ := guarded robust
      refine ⟨fun accepted => ?_, safe_validate room⟩
      cases allocated : env.mgmtAllocOk with
      | false =>
        rw [validate_unallocated allocated] at accepted
        cases accepted
      | true =>
        by_cases aes : sta.rsnUcastcipher ∈ aesCiphers
        · obtain ⟨plain, found⟩ := decrypts_of_accepted aes robust allocated room accepted
          exact authentic_of_ccmpPlain found
        · rcases cause with same | authentic | unallocated | ⟨group, refuses⟩
          · exact absurd same aes
          · exact authentic
          · rw [allocated] at unallocated
            cases unallocated
          · rw [value_validate rfl robust allocated room, amlPktDecrypt, if_neg aes] at accepted
            exact absurd accepted refuses

end W522a.Mac
