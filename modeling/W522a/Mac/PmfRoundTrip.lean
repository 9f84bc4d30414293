import W522a.Mac.PmfLaw

/-!
The way of a protected management frame from a station to its peer: what the peer makes of the frame
that was encrypted for it.
-/

namespace W522a.Mac

open Ap (wifinetCipherTkip wifinetCipherAesCcm)
open Bytes (slice write)
open Crypto (Aes CcmpAlloc ccmpHeader ccmpSuite setIswep ccmpDecrypt ccmpEncrypt)
open Memory (Traced Safe)

/-- A robust unicast management frame as it is handed over to be encrypted: it has its header, in
which the caller has set `WIFINET_FC1_WEP`. -/
structure RobustFrame (env : BipEnv) (frm : List UInt8) : Prop where
  header : wifiFrameLen ≤ frm.length
  robust : isRobustManagementFrame env frm = true
  unicast : isBmc frm = false
  marked : frm.getD 1 0 &&& wifinetFc1Wep ≠ 0

def Restores (tx rx : PmfEnv) (sender : SwStation) (peer : PmfStation) (frm : List UInt8) : Prop :=
  let sent := wifiMacSwEncrypt tx sender frm
  let received := (wifiMacMgmtValidate rx peer sent.2.2).value
  sent.1 = 1 ∧ received.res = some 0 ∧ received.frame = frm

abbrev frameBody (frm : List UInt8) : List UInt8 := frm.drop wifiFrameLen

/-- The header that is put before the body of a unicast frame. -/
abbrev SwStation.ccmpHeader (sender : SwStation) : List UInt8 :=
  Crypto.ccmpHeader (pnBytes sender.uRepCnt) sender.staUcastkey.wkKeyix

/-- What the peer does not move, because the length it computes has 16 bits, happens to be what
belongs there. -/
def Unmoved (header body : List UInt8) : Prop :=
  let dataLen := body.length % 65536
  ((header ++ body).drop dataLen).take (body.length - dataLen) = body.drop dataLen

/-- What it takes for a frame to arrive: a key and a cipher that both sides treat as AES, memory on
both sides, a packet number whose first byte is not taken for a category, and a body whose length
has 16 bits. -/
structure Restorable (tx rx : PmfEnv) (sender : SwStation) (peer : PmfStation) (frm : List UInt8) :
    Prop where
  keyType : sender.staUcastkey.wkKeyType ∈ aesCiphers
  keylen : sender.staUcastkey.wkKeylen = 16
  cipher : peer.rsnUcastcipher ∈ aesCiphers
  sent : tx.ccmpAlloc = ⟨true, true⟩
  received : rx.mgmtAllocOk = true ∧ rx.ccmpAlloc = ⟨true, true⟩
  category : frm.getD 0 0 &&& wifinetFc0SubtypeMask = wifinetFc0SubtypeAction →
    ¬categoryIsNonRobust sender.uRepCnt.toUInt8
  whole : (frameBody frm).length < 65536 ∨ Unmoved sender.ccmpHeader (frameBody frm)

variable {env tx rx : PmfEnv} {peer : PmfStation} {sender : SwStation} {key : WifiMacKey}
  {frm header body rest : List UInt8}

theorem unmoved_of_short (short : body.length < 65536) : Unmoved header body := by
  rw [Unmoved, Nat.mod_eq_of_lt short, Nat.sub_self, List.take_zero, List.drop_length]

theorem setIswep_of_marked (marked : header.getD 1 0 &&& wifinetFc1Wep ≠ 0) :
    setIswep header = header := by
  have kept : ∀ byte : UInt8, byte &&& 0x40 ≠ 0 → byte ||| 0x40 = byte := by
    rintro ⟨byte⟩
    revert byte
    decide
  match header with
  | [] => rfl
  | [first] => rfl
  | first :: second :: later => exact congrArg (first :: · :: later) (kept second marked)

/-- The encryption of a body and its check. -/
def sealedBody (aes : Aes) (key : WifiMacKey) (pn header body : List UInt8) : List UInt8 :=
  let suite := ccmpSuite 8 (aes (key.wkKey.take 16)) (header ++ ccmpHeader pn key.wkKeyix)
    (ccmpHeader pn key.wkKeyix)
  (suite.encrypt body).1 ++ (suite.encrypt body).2

theorem length_sealedBody (aes : Aes) (key : WifiMacKey) (pn header body : List UInt8) :
    (sealedBody aes key pn header body).length = body.length + 8 := by
  rw [sealedBody, List.length_append, Sealing.Suite.length_encrypt]
  exact congrArg (body.length + ·) (Crypto.length_check (by decide) body)

/-- The encrypted frame takes the place of the frame and of the room that was put behind it. -/
theorem amlCcmpEncrypt_eq {pn : List UInt8} (sixteen : key.wkKeylen = 16)
    (allocated : env.ccmpAlloc = ⟨true, true⟩) (long : header.length = 24)
    (set : setIswep header = header) (room : rest.length = 16) :
    amlCcmpEncrypt env key pn wifiFrameLen (header ++ (body ++ rest)) body.length =
      some (header ++ ccmpHeader pn key.wkKeyix ++ sealedBody env.aes key pn header body) := by
  have made : ccmpEncrypt env.aes ⟨true, true⟩ key.wkKey (header ++ (body ++ rest))
      (wifiFrameLen + body.length) wifiFrameLen (some pn) key.wkKeyix =
        some (setIswep header ++ ccmpHeader pn key.wkKeyix ++
          sealedBody env.aes key pn (setIswep header) body) :=
    Crypto.ccmpEncryptWith_eq (by decide) long
  have sizes : (header ++ ccmpHeader pn key.wkKeyix ++
      sealedBody env.aes key pn header body).length = (header ++ (body ++ rest)).length := by
    simp only [List.length_append, length_sealedBody, Crypto.length_ccmpHeader, long, room]
    omega
  rw [amlCcmpEncrypt, if_pos sixteen, allocated, made, set]
  refine congrArg some ?_
  show (write (header ++ (body ++ rest)) 0 _).take _ = _
  rw [write, List.take_zero, List.nil_append, Nat.zero_add, sizes, List.drop_length,
    List.append_nil, ← sizes, List.take_length]

/-- Encryption succeeds with a key of 16 bytes for AES, and with memory. -/
theorem swEncrypt_cause (unicast : isBmc frm = false)
    (sent : (wifiMacSwEncrypt tx sender frm).1 = 1) :
    sender.staUcastkey.wkKeyType ∈ aesCiphers ∧ sender.staUcastkey.wkKeylen = 16 ∧
      tx.ccmpAlloc = ⟨true, true⟩ := by
  have cut := sender.staUcastkey.cut
  rw [wifiMacSwEncrypt] at sent
  simp only [unicast, Bool.false_eq_true, if_false] at sent
  by_cases keyType : sender.staUcastkey.wkKeyType ∈ aesCiphers
  · refine ⟨keyType, ?_⟩
    rw [if_pos keyType] at sent
    split at sent
    · rename_i made
      rw [amlCcmpEncrypt] at made
      by_cases sixteen : sender.staUcastkey.wkKeylen = 16
      · rw [if_pos sixteen] at made
        obtain ⟨enc, encrypted, -⟩ := Option.map_eq_some_iff.mp made
        exact ⟨sixteen, Crypto.ccmpEncryptWith_alloc encrypted⟩
      · rw [if_neg sixteen, if_neg (by omega)] at made
        cases made
    · cases sent
  · rw [if_neg keyType] at sent
    cases sent

theorem swEncrypt_eq (long : header.length = 24) (unicast : isBmc (header ++ body) = false)
    (set : setIswep header = header) (keyType : sender.staUcastkey.wkKeyType ∈ aesCiphers)
    (sixteen : sender.staUcastkey.wkKeylen = 16) (allocated : tx.ccmpAlloc = ⟨true, true⟩) :
    (wifiMacSwEncrypt tx sender (header ++ body)).1 = 1 ∧
      (wifiMacSwEncrypt tx sender (header ++ body)).2.2 = header ++ sender.ccmpHeader ++
        sealedBody tx.aes sender.staUcastkey (pnBytes sender.uRepCnt) header body := by
  have lengths : setIceIvLen sender.staUcastkey.wkKeyType = (8, 8) := by
    rcases cipher_cases sender.staUcastkey.wkKeyType with ⟨-, lengths⟩ | ⟨other, -⟩
    · exact lengths
    · exact absurd keyType other
  have room : ((List.range 16).map fun place =>
      tx.memory ((header ++ body).length + place)).length = 16 := by simp
  have plen : ((header ++ body) ++ (List.range 16).map fun place =>
      tx.memory ((header ++ body).length + place)).length - wifiFrameLen - 8 - 8 = body.length := by
    rw [List.length_append, room, List.length_append, long]
    simp only [wifiFrameLen]
    omega
  rw [wifiMacSwEncrypt]
  simp only [unicast, Bool.false_eq_true, if_false, lengths, if_pos keyType]
  rw [plen, List.append_assoc, amlCcmpEncrypt_eq sixteen allocated long set room]
  exact ⟨rfl, rfl⟩

/-- The peer takes the first byte of the packet number for the category. -/
theorem robust_sent_iff {memory : BipEnv} (long : header.length = 24)
    (robust : isRobustManagementFrame env.toBipEnv (header ++ body) = true) :
    isRobustManagementFrame memory (header ++ sender.ccmpHeader ++ rest) = true ↔
      ((header ++ body).getD 0 0 &&& wifinetFc0SubtypeMask = wifinetFc0SubtypeAction →
        ¬categoryIsNonRobust sender.uRepCnt.toUInt8) := by
  have first : (header ++ sender.ccmpHeader ++ rest).getD 0 0 = (header ++ body).getD 0 0 := by
    rw [List.append_assoc, List.getD_append _ _ _ _ (by omega), List.getD_append _ _ _ _ (by omega)]
  have category : (header ++ sender.ccmpHeader ++ rest).getD wifiFrameLen
      (memory.memory wifiFrameLen) = sender.uRepCnt.toUInt8 := by
    rw [List.append_assoc, List.getD_append_right _ _ _ _ (by rw [long]), long]
    rfl
  rw [isRobustManagementFrame] at robust ⊢
  simp only [first, category]
  split at robust
  · cases robust
  · rename_i type
    rw [if_neg type]
    split at robust
    · cases robust
    · rename_i subtype
      rw [if_neg subtype]
      constructor
      · intro same action nonRobust
        rw [if_pos ⟨action, nonRobust⟩] at same
        cases same
      · intro other
        rw [if_neg]
        rintro ⟨action, nonRobust⟩
        exact other action nonRobust

private theorem readMemory_inside {memory : BipEnv} {start count : Nat}
    (inside : start + count ≤ frm.length) :
    readMemory memory frm start count = slice frm start count := by
  apply List.ext_getElem
  · rw [readMemory, List.length_map, List.length_range, Bytes.length_slice inside]
  · intro place first second
    rw [Bytes.length_slice inside] at second
    simp only [readMemory, slice, List.getElem_map, List.getElem_range, List.getElem_take,
      List.getElem_drop]
    rw [List.getD_eq_getElem _ _ (by omega)]

/-- The body moves over the header before it, as far as the length of 16 bits goes. -/
theorem movedBody_eq {memory : BipEnv} {before check : List UInt8} {dataLen : Nat}
    (long : header.length = 24) (eight : before.length = 8) (fits : dataLen ≤ body.length) :
    (movedBody memory (header ++ before ++ (body ++ check)) 8 dataLen).take (24 + body.length) =
      header ++ (body.take dataLen ++
        ((before ++ body).drop dataLen).take (body.length - dataLen)) := by
  have read : readMemory memory (header ++ before ++ (body ++ check)) (wifiFrameLen + 8) dataLen =
      body.take dataLen := by
    have place : (header ++ before).length = wifiFrameLen + 8 := by
      rw [List.length_append, long, eight]
    rw [readMemory_inside, Bytes.slice_of_place place, List.take_append_of_le_length fits]
    rw [List.length_append, place, List.length_append]
    omega
  have copied : (body.take dataLen).length = dataLen := by
    rw [List.length_take, Nat.min_eq_left fits]
  have within : ((before ++ body).drop dataLen).length = 8 + (body.length - dataLen) := by
    rw [List.length_drop, List.length_append, eight]
    omega
  have kept : (header ++ before ++ (body ++ check)).drop (wifiFrameLen + dataLen) =
      (before ++ body).drop dataLen ++ check := by
    rw [List.append_assoc, ← List.drop_drop, List.drop_left' long, ← List.append_assoc,
      List.drop_append_of_le_length]
    rw [List.length_append]
    omega
  have front : (header ++ before ++ (body ++ check)).take wifiFrameLen = header := by
    rw [List.append_assoc, List.take_left' long]
  rw [movedBody, read, write, copied, front, kept, List.append_assoc, ← long,
    List.take_length_add_append]
  have split : body.length = dataLen + (body.length - dataLen) := by omega
  refine congrArg (header ++ ·) ?_
  nth_rewrite 1 [split]
  nth_rewrite 1 [← copied]
  rw [List.take_length_add_append, List.take_append_of_le_length]
  omega

/-- Moving the body restores it exactly when what is not moved is in its place. -/
theorem restored_iff {before : List UInt8} :
    header ++ (body.take (body.length % 65536) ++
        ((before ++ body).drop (body.length % 65536)).take (body.length - body.length % 65536)) =
      header ++ body ↔ Unmoved before body := by
  rw [List.append_right_inj, Unmoved]
  constructor
  · intro same
    conv at same => rhs; rw [← List.take_append_drop (body.length % 65536) body]
    exact List.append_cancel_left same
  · intro same
    rw [same, List.take_append_drop]

/-- The peer decrypts what was encrypted for it. -/
theorem ccmpPlain_sent {pn : List UInt8} (long : header.length = 24) (sixteen : key.wkKeylen = 16)
    (allocated : rx.ccmpAlloc = ⟨true, true⟩) :
    ccmpPlain rx key (header ++ ccmpHeader pn key.wkKeyix ++
      sealedBody rx.aes key pn header body) = some body := by
  have behind : (header ++ ccmpHeader pn key.wkKeyix ++ sealedBody rx.aes key pn header body).drop
      wifiFrameLen = ccmpHeader pn key.wkKeyix ++ sealedBody rx.aes key pn header body := by
    rw [List.append_assoc, List.drop_left' long]
  rw [ccmpPlain_eq, if_pos sixteen, behind, allocated]
  exact Crypto.ccmpDecryptWith_encrypt (by decide) long

private theorem write_plain {before sealed : List UInt8} (long : header.length = 24)
    (eight : before.length = 8) :
    write (header ++ before ++ sealed) (wifiFrameLen + 8) body =
      header ++ before ++ (body ++ sealed.drop body.length) := by
  have place : (header ++ before).length = wifiFrameLen + 8 := by
    rw [List.length_append, long, eight]
  rw [write, List.take_left' place, ← List.drop_drop, List.drop_left' place, List.append_assoc]

theorem isBmc_append (long : header.length = 24) : isBmc (header ++ body) = isBmc header := by
  rw [isBmc, isBmc, List.getD_append _ _ _ _ (by omega)]

/-- What the peer makes of the frame that was sent to it. -/
theorem validate_sent (long : header.length = 24) (unicast : isBmc header = false)
    (sixteen : sender.staUcastkey.wkKeylen = 16) (aes : peer.rsnUcastcipher ∈ aesCiphers)
    (shared : peer.staUcastkey = sender.staUcastkey) (allocated : rx.mgmtAllocOk = true)
    (started : rx.ccmpAlloc = ⟨true, true⟩)
    (robust : isRobustManagementFrame rx.toBipEnv (header ++ sender.ccmpHeader ++
      sealedBody rx.aes sender.staUcastkey (pnBytes sender.uRepCnt) header body) = true) :
    (wifiMacMgmtValidate rx peer (header ++ sender.ccmpHeader ++
      sealedBody rx.aes sender.staUcastkey (pnBytes sender.uRepCnt) header body)).value =
        ⟨some 0, peer.pmfKey, header ++ (body.take (body.length % 65536) ++
          ((sender.ccmpHeader ++ body).drop (body.length % 65536)).take
            (body.length - body.length % 65536))⟩ := by
  have eight : sender.ccmpHeader.length = 8 := rfl
  have lengths : setIceIvLen peer.rsnUcastcipher = (8, 8) := by
    rcases cipher_cases peer.rsnUcastcipher with ⟨-, lengths⟩ | ⟨other, -⟩
    · exact lengths
    · exact absurd aes other
  have sizes : (header ++ sender.ccmpHeader ++ sealedBody rx.aes sender.staUcastkey
      (pnBytes sender.uRepCnt) header body).length = body.length + 40 := by
    rw [List.length_append, List.length_append, length_sealedBody, long, eight]
    omega
  have left : body.length + 40 - wifiFrameLen - 8 - 8 = body.length := by
    simp only [wifiFrameLen]
    omega
  have kept : body.length + 40 - 8 - 8 = 24 + body.length := by omega
  have decrypted : ccmpPlain rx sender.staUcastkey (header ++ sender.ccmpHeader ++
      sealedBody rx.aes sender.staUcastkey (pnBytes sender.uRepCnt) header body) = some body :=
    ccmpPlain_sent long sixteen started
  have group : isBmc (header ++ sender.ccmpHeader ++ sealedBody rx.aes sender.staUcastkey
      (pnBytes sender.uRepCnt) header body) = false := by
    rw [List.append_assoc, isBmc_append long, unicast]
  rw [value_validate lengths robust allocated (by rw [sizes, wifiFrameLen]; omega), amlPktDecrypt,
    if_pos aes, value_amlAesDecrypt, shared, decrypted, sizes, left, kept, group, Option.map_some,
    write_plain long eight]
  exact congrArg (Validated.mk (some 0) peer.pmfKey)
    (movedBody_eq long eight (Nat.mod_le _ _))

/-- A peer that does not decrypt leaves the frame longer than it was. -/
theorem length_undecrypted (aes : peer.rsnUcastcipher ∉ aesCiphers) (unicast : isBmc frm = false)
    (long : wifiFrameLen + 16 ≤ frm.length) (allocated : rx.mgmtAllocOk = true)
    (robust : isRobustManagementFrame rx.toBipEnv frm = true) :
    frm.length < (wifiMacMgmtValidate rx peer frm).value.frame.length + 16 := by
  have fewer : (setIceIvLen peer.rsnUcastcipher).1 + (setIceIvLen peer.rsnUcastcipher).2 < 16 := by
    rcases cipher_cases peer.rsnUcastcipher with ⟨same, -⟩ | ⟨-, fewer⟩
    · exact absurd same aes
    · exact fewer
  have grows : ∀ ivLen dataLen, frm.length ≤ (movedBody rx.toBipEnv frm ivLen dataLen).length := by
    intro ivLen dataLen
    rw [movedBody, write, List.length_append, List.length_append, List.length_take,
      List.length_drop]
    omega
  cases lengths : setIceIvLen peer.rsnUcastcipher with
  | mk ivLen icvLen =>
    rw [lengths] at fewer
    simp only at fewer
    rw [value_validate lengths robust allocated (by omega), amlPktDecrypt, if_neg aes, unicast]
    have enough := grows ivLen ((frm.length - wifiFrameLen - ivLen - icvLen) % 65536)
    show _ < (List.take _ _).length + 16
    rw [List.length_take]
    omega

theorem restores_iff (same : rx.aes = tx.aes) (shared : peer.staUcastkey = sender.staUcastkey)
    (mgmt : RobustFrame tx.toBipEnv frm) :
    Restores tx rx sender peer frm ↔ Restorable tx rx sender peer frm := by
  obtain ⟨header, body, rfl, long⟩ : ∃ header body, frm = header ++ body ∧ header.length = 24 :=
    ⟨frm.take 24, frm.drop 24, (List.take_append_drop 24 frm).symm,
      List.length_take_of_le mgmt.header⟩
  have set : setIswep header = header := by
    refine setIswep_of_marked ?_
    have marked := mgmt.marked
    rwa [List.getD_append _ _ _ _ (by omega)] at marked
  have unicast : isBmc header = false := (isBmc_append long).symm.trans mgmt.unicast
  have eight : sender.ccmpHeader.length = 8 := rfl
  have text : frameBody (header ++ body) = body := List.drop_left' long
  constructor
  · rintro ⟨sent, accepted, frame⟩
    obtain ⟨keyType, sixteen, sending⟩ := swEncrypt_cause mgmt.unicast sent
    rw [(swEncrypt_eq long mgmt.unicast set keyType sixteen sending).2, ← same] at accepted frame
    have arrived : isBmc (header ++ sender.ccmpHeader ++ sealedBody rx.aes sender.staUcastkey
        (pnBytes sender.uRepCnt) header body) = false := by
      rw [List.append_assoc, isBmc_append long, unicast]
    have sizes : (header ++ sender.ccmpHeader ++ sealedBody rx.aes sender.staUcastkey
        (pnBytes sender.uRepCnt) header body).length = (header ++ body).length + 16 := by
      rw [List.length_append, List.length_append, length_sealedBody, List.length_append, eight]
      omega
    cases robust : isRobustManagementFrame rx.toBipEnv (header ++ sender.ccmpHeader ++ sealedBody
        rx.aes sender.staUcastkey (pnBytes sender.uRepCnt) header body) with
    | false =>
      rw [validate_other robust] at accepted
      cases accepted
    | true =>
      cases allocated : rx.mgmtAllocOk with
      | false =>
        rw [validate_unallocated allocated] at accepted
        cases accepted
      | true =>
        by_cases aes : peer.rsnUcastcipher ∈ aesCiphers
        · have started : rx.ccmpAlloc = ⟨true, true⟩ := by
            obtain ⟨plain, found⟩ := decrypts_of_accepted aes robust allocated (by
              rw [sizes, List.length_append, long]
              rcases cipher_cases peer.rsnUcastcipher with ⟨-, lengths⟩ | ⟨other, -⟩
              · rw [lengths, wifiFrameLen]
                omega
              · exact absurd aes other) accepted
            exact ccmpPlain_alloc found
          have received := validate_sent long unicast sixteen aes shared allocated started robust
          rw [received] at frame
          refine ⟨keyType, sixteen, aes, sending, ⟨allocated, started⟩,
            (robust_sent_iff long mgmt.robust).mp robust, Or.inr ?_⟩
          rw [text]
          exact restored_iff.mp frame
        · have longer := length_undecrypted aes arrived (by
            rw [sizes, List.length_append, long]
            simp only [wifiFrameLen]
            omega) allocated robust
          rw [frame, sizes] at longer
          exact absurd longer (Nat.lt_irrefl _)
  · rintro ⟨keyType, sixteen, aes, sending, ⟨allocated, started⟩, category, whole⟩
    obtain ⟨sent, made⟩ := swEncrypt_eq long mgmt.unicast set keyType sixteen sending
    have robust : isRobustManagementFrame rx.toBipEnv (header ++ sender.ccmpHeader ++ sealedBody
        rx.aes sender.staUcastkey (pnBytes sender.uRepCnt) header body) = true :=
      (robust_sent_iff long mgmt.robust).mpr category
    rw [text] at whole
    have unmoved : Unmoved sender.ccmpHeader body := whole.elim unmoved_of_short id
    have received := validate_sent long unicast sixteen aes shared allocated started robust
    refine ⟨sent, ?_⟩
    rw [made, ← same]
    exact ⟨congrArg Validated.res received,
      (congrArg Validated.frame received).trans (restored_iff.mpr unmoved)⟩

theorem mgmt_protection (rx : PmfEnv) (peer : PmfStation) :
    (∀ (tx : PmfEnv) (sender : SwStation) (frm : List UInt8), rx.aes = tx.aes →
      peer.staUcastkey = sender.staUcastkey → RobustFrame tx.toBipEnv frm →
        (Restores tx rx sender peer frm ↔ Restorable tx rx sender peer frm)) ∧
    ∀ frm : List UInt8, AcceptsSafely rx peer frm ↔ Guarded rx peer frm :=
  ⟨fun _ _ _ same shared robust => restores_iff same shared robust,
    fun frm => acceptsSafely_iff rx peer frm⟩

/-- The key of the two stations. -/
def sharedKey : WifiMacKey where
  wkKeylen := 16
  wkKeyType := wifinetCipherAesCcm
  wkKeyix := 0
  wkKey := (List.range 16).map UInt8.ofNat
  cut := by decide

/-- What AES makes of the blocks of one frame under this key. -/
def knownBlocks : List (List UInt8 × List UInt8) := [
  ([89, 16, 2, 0, 0, 0, 0, 0, 0, 0, 0, 0, 0, 1, 0, 2],
    [149, 84, 15, 124, 23, 240, 211, 0, 44, 49, 146, 252, 63, 54, 8, 123]),
  ([149, 66, 207, 60, 21, 240, 211, 0, 45, 49, 144, 252, 63, 54, 8, 123],
    [88, 78, 50, 48, 30, 120, 181, 97, 200, 84, 104, 70, 159, 32, 36, 12]),
  ([90, 78, 50, 48, 31, 120, 181, 97, 200, 84, 104, 70, 159, 32, 36, 12],
    [158, 63, 41, 25, 224, 129, 180, 221, 22, 164, 25, 56, 95, 103, 118, 250]),
  ([156, 63, 41, 25, 224, 129, 180, 221, 22, 164, 25, 56, 95, 103, 118, 250],
    [6, 179, 174, 140, 38, 83, 65, 158, 229, 52, 11, 198, 202, 203, 51, 71]),
  ([1, 16, 2, 0, 0, 0, 0, 0, 0, 0, 0, 0, 0, 1, 0, 1],
    [34, 125, 112, 114, 80, 253, 171, 206, 114, 77, 210, 72, 159, 169, 63, 133]),
  ([1, 16, 2, 0, 0, 0, 0, 0, 0, 0, 0, 0, 0, 1, 0, 0],
    [221, 23, 246, 125, 98, 37, 38, 84, 237, 105, 221, 229, 123, 92, 199, 110])]

/-- Everything is allocated, and nothing is behind the frames. -/
def calmEnv : PmfEnv where
  omac1Aes128 _ _ := Vector.replicate 16 0
  allocOk := true
  memory _ := 0
  aes _ block := Crypto.toBlock ((knownBlocks.lookup block.toList).getD [])
  mgmtAllocOk := true
  ccmpAlloc := ⟨true, true⟩

/-- A station that sends with this packet number. -/
def senderAt (pn : UInt64) : SwStation := ⟨sharedKey, sharedKey, pn, 0⟩

def peerWith (cipher : Nat) : PmfStation := ⟨sharedKey, cipher, ⟨5, 0, 4, [], []⟩⟩

def frameOf (fc0 : UInt8) (body : List UInt8) : List UInt8 :=
  [fc0, 0x40, 0, 0, 2, 0, 0, 0, 1, 0, 2, 0, 0, 0, 0, 0, 2, 0, 0, 0, 1, 0, 0x60, 0] ++ body

/-- A deauthentication arrives under the first packet number, and is accepted for good reason. -/
theorem mgmt_protection_deauth :
    Restores calmEnv calmEnv (senderAt 1) (peerWith wifinetCipherAesCcm) (frameOf 0xc0 [2, 0]) ∧
    AcceptsSafely calmEnv (peerWith wifinetCipherAesCcm)
      (wifiMacSwEncrypt calmEnv (senderAt 1) (frameOf 0xc0 [2, 0])).2.2 := by
  refine ⟨((mgmt_protection calmEnv (peerWith wifinetCipherAesCcm)).1 calmEnv (senderAt 1)
    (frameOf 0xc0 [2, 0]) rfl rfl ⟨by decide, by decide, by decide, by decide⟩).mpr ⟨by decide, rfl,
    by decide, rfl, ⟨rfl, rfl⟩, by decide, Or.inl (by decide)⟩, ?_⟩
  exact ((mgmt_protection calmEnv (peerWith wifinetCipherAesCcm)).2 _).mpr
    fun _ => ⟨by decide, Or.inl (by decide)⟩

/-- A deauthentication of two bytes without encryption makes a length negative. Where the cipher is
TKIP, one that nobody has encrypted is accepted. Under packet number 4, a query of the security
association is taken for a public action frame and refused. -/
theorem mgmt_protection_fails :
    PmfEvent.length (-14) ∈ (wifiMacMgmtValidate calmEnv (peerWith wifinetCipherAesCcm)
      (frameOf 0xc0 [2, 0])).log ∧
    ((wifiMacMgmtValidate calmEnv (peerWith wifinetCipherTkip)
        (frameOf 0xc0 (List.replicate 14 0))).value.res = some 0 ∧
      ¬Authentic calmEnv.aes (peerWith wifinetCipherTkip).staUcastkey
        (frameOf 0xc0 (List.replicate 14 0))) ∧
    RobustFrame calmEnv.toBipEnv (frameOf 0xd0 [8, 0, 1, 0]) ∧
    ¬Restores calmEnv calmEnv (senderAt 4) (peerWith wifinetCipherAesCcm)
      (frameOf 0xd0 [8, 0, 1, 0]) := by
  refine ⟨by decide, ⟨by decide, ?_⟩, ⟨by decide, by decide, by decide, by decide⟩, ?_⟩
  · intro authentic
    exact absurd (length_of_authentic authentic) (by decide)
  · intro restores
    have robust : RobustFrame calmEnv.toBipEnv (frameOf 0xd0 [8, 0, 1, 0]) :=
      ⟨by decide, by decide, by decide, by decide⟩
    exact ((restores_iff rfl rfl robust).mp restores).category (by decide) (by decide)

end W522a.Mac
