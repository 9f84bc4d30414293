import W522a.Hal.AirtimeLaw

/-!
The limit on the length of an aggregate against the transmit times. The limit leaves no room for
the service and the tail bits, so that the longest aggregate takes one symbol too many wherever
such an aggregate exists.
-/

namespace W522a.Hal

/-- The codes of the HT and the VHT rates. -/
inductive McsCode : Nat → Prop
  | ht {mcs : Nat} (known : mcs ≤ wifi11nMax) : McsCode (0x80 + mcs)
  | vht {mcs : Nat} (known : mcs ≤ wifi11acMax) : McsCode (0xc0 + mcs)

/-- The transmit time for what the limit is asked for, without the greenfield preamble. -/
def mcsTxTime (rate bw : Nat) (shortGI : Bool) (length : Nat) : Nat :=
  Frame.txTime { rate, shortGI, bw, green := false, length }

/-- Every length up to the limit has a transmit time of at most 4095 µs and an L-SIG length of 12
bits, and no longer one has. -/
def LimitAgrees (rate bw : Nat) (shortGI : Bool) : Prop :=
  (∀ length ≤ 65535, length ≤ maxSendPacketLen rate bw shortGI →
    mcsTxTime rate bw shortGI length ≤ 4095 ∧
      halTxDescGetLen rate length shortGI bw false < 2 ^ 12) ∧
  ∀ length ≤ 65535, maxSendPacketLen rate bw shortGI < length →
    4095 < mcsTxTime rate bw shortGI length

/-- The rates at which every length of 16 bits is done in 4095 µs. -/
def Roomy (rate bw : Nat) (shortGI : Bool) : Prop :=
  if isHtRate rate then
    (bw = 1 ∨ bw = 2) ∧ (getMcs rate = 7 ∨ (getMcs rate = 6 ∧ shortGI = true))
  else
    (bw = 1 ∧ (7 ≤ getMcs rate ∨ (getMcs rate = 6 ∧ shortGI = true))) ∨
      (bw = 2 ∧ (4 ≤ getMcs rate ∨ (getMcs rate = 3 ∧ shortGI = true)))

instance (rate bw : Nat) (shortGI : Bool) : Decidable (Roomy rate bw shortGI) :=
  inferInstanceAs (Decidable (if isHtRate rate then _ else _))

def maxSymbols (shortGI : Bool) (preamble : Nat) : Nat :=
  if shortGI then (4095 - preamble) * 10 / 36 else (4095 - preamble) / 4

variable {rate mcs bw length nsymbits preamble symbols : Nat} {shortGI : Bool}

private theorem symbols_at_limit (wide : 26 ≤ nsymbits) :
    (8 * (nsymbits * symbols / 8) + ofdmPlcpBits) ⌈/⌉ nsymbits = symbols + 1 := by
  have positive : 0 < nsymbits := Nat.lt_of_lt_of_le (by decide) wide
  apply Nat.le_antisymm
  · apply (ceilDiv_le_iff_le_mul positive).mpr
    rw [Nat.mul_succ]
    simp only [ofdmPlcpBits]
    omega
  · apply Nat.lt_of_not_le
    intro fits
    have bits := (ceilDiv_le_iff_le_mul positive).mp fits
    simp only [ofdmPlcpBits] at bits
    omega

/-- The whole symbols are done in time, and one more is not. -/
theorem maxSymbols_spec (front : preamble = 36 ∨ preamble = 40) :
    exactSymbolTime shortGI (maxSymbols shortGI preamble) + preamble ≤ 4095 ∧
      4095 < exactSymbolTime shortGI (maxSymbols shortGI preamble + 1) + preamble ∧
      exactSymbolTime shortGI (maxSymbols shortGI preamble + 1) + preamble < 2 ^ 16 := by
  rcases front with rfl | rfl <;> cases shortGI <;> decide

theorem getLen_lt {time : Nat} (front : 36 ≤ time) (fits : time ≤ 4095) :
    ((((time : Int) - 20) / 4 * 3 - 3) % 2 ^ 16).toNat < 2 ^ 12 := by
  rw [Int.emod_eq_of_lt (by omega) (by omega)]
  omega

/-- Where all lengths are done in whole symbols, the time and the L-SIG length fit. -/
theorem roomy_fits (wide : 26 ≤ nsymbits) (front : preamble = 36 ∨ preamble = 40)
    (room : 524302 ≤ nsymbits * maxSymbols shortGI preamble) (short : length ≤ 65535) :
    exactSymbolTime shortGI ((8 * length + ofdmPlcpBits) ⌈/⌉ nsymbits) + preamble ≤ 4095 := by
  have positive : 0 < nsymbits := Nat.lt_of_lt_of_le (by decide) wide
  have symbols : (8 * length + ofdmPlcpBits) ⌈/⌉ nsymbits ≤ maxSymbols shortGI preamble := by
    apply (ceilDiv_le_iff_le_mul positive).mpr
    simp only [ofdmPlcpBits]
    omega
  have time : exactSymbolTime shortGI ((8 * length + ofdmPlcpBits) ⌈/⌉ nsymbits) ≤
      exactSymbolTime shortGI (maxSymbols shortGI preamble) := exactSymbolTime_mono symbols
  have whole : exactSymbolTime shortGI (maxSymbols shortGI preamble) + preamble ≤ 4095 :=
    (maxSymbols_spec front).1
  omega

/-- Where the longest aggregate of whole symbols exists, it takes too long. -/
theorem limit_exceeds (wide : 26 ≤ nsymbits) (front : preamble = 36 ∨ preamble = 40) :
    4095 < (exactSymbolTime shortGI
      ((8 * (nsymbits * maxSymbols shortGI preamble / 8) + ofdmPlcpBits) ⌈/⌉ nsymbits)
        + preamble) % 2 ^ 16 := by
  have next : 4095 < exactSymbolTime shortGI (maxSymbols shortGI preamble + 1) + preamble ∧
      exactSymbolTime shortGI (maxSymbols shortGI preamble + 1) + preamble < 2 ^ 16 :=
    (maxSymbols_spec front).2
  obtain ⟨late, small⟩ := next
  rw [symbols_at_limit wide, Nat.mod_eq_of_lt small]
  exact late

/-- The transmit time of an HT aggregate, by the bits of its symbols. -/
theorem mcsTxTime_ht (known : mcs ≤ wifi11nMax) (short : length ≤ 65535) :
    mcsTxTime (0x80 + mcs) bw shortGI length =
      (exactSymbolTime shortGI
        ((8 * length + ofdmPlcpBits) ⌈/⌉ htBitsPerSymbol mcs (min bw bw40)) + 36) % 2 ^ 16 := by
  obtain ⟨isHt, code⟩ := ht_code known
  obtain ⟨bits, wide⟩ := htBitsPerSymbol_spec mcs known (min bw bw40) (Nat.min_le_right _ _)
  rw [mcsTxTime, txTime_ht known short]
  simp only [Frame.exactTime, isHt, code, if_true]
  rw [exactSymbols_eq (by omega) bits]
  rfl

/-- The transmit time of a VHT aggregate, by the bits of its symbols. -/
theorem mcsTxTime_vht (known : mcs ≤ wifi11acMax) (band : bw ≤ 3) (short : length ≤ 65535)
    (defined : ¬ (mcs = 9 ∧ bw = 0)) :
    mcsTxTime (0xc0 + mcs) bw shortGI length =
      (exactSymbolTime shortGI ((8 * length + ofdmPlcpBits) ⌈/⌉ vhtBitsPerSymbol mcs bw) + 40)
        % 2 ^ 16 := by
  obtain ⟨notHt, isVht, code⟩ := vht_code known
  obtain ⟨-, bits, wide⟩ := (vhtBitsPerSymbol_spec mcs known bw band).resolve_left
    (fun none => defined ⟨none.1, none.2.1⟩)
  rw [mcsTxTime, txTime_vht known band short defined]
  simp only [Frame.exactTime, notHt, isVht, code, Bool.false_eq_true, if_false, if_true]
  rw [exactSymbols_eq (by omega) bits]
  rfl

theorem maxSendPacketLen_ht : ∀ mcs ≤ wifi11nMax, ∀ bw ≤ 2, ∀ shortGI : Bool,
    maxSendPacketLen (0x80 + mcs) bw shortGI =
      htBitsPerSymbol mcs (min bw bw40) * maxSymbols shortGI 36 / 8 := by
  decide

/-- The limits of the VHT rates are those of whole symbols, but for MCS 9 at 20 MHz. -/
theorem maxSendPacketLen_vht : ∀ mcs ≤ wifi11acMax, ∀ bw ≤ 2, ∀ shortGI : Bool,
    ¬ (mcs = 9 ∧ bw = 0) →
      maxSendPacketLen (0xc0 + mcs) bw shortGI =
        vhtBitsPerSymbol mcs bw * maxSymbols shortGI 40 / 8 := by
  decide

/-- Either every length of 16 bits fits into the symbols of an HT rate with its service and tail
bits, or the limit is such a length. -/
theorem roomy_ht : ∀ mcs ≤ wifi11nMax, ∀ bw ≤ 2, ∀ shortGI : Bool,
    (Roomy (0x80 + mcs) bw shortGI ∧
        524302 ≤ htBitsPerSymbol mcs (min bw bw40) * maxSymbols shortGI 36) ∨
      (¬ Roomy (0x80 + mcs) bw shortGI ∧
        htBitsPerSymbol mcs (min bw bw40) * maxSymbols shortGI 36 / 8 ≤ 65535) := by
  decide

private theorem roomy_vht : ∀ mcs ≤ wifi11acMax, ∀ bw ≤ 2, ∀ shortGI : Bool,
    (Roomy (0xc0 + mcs) bw shortGI ∧
        524302 ≤ vhtBitsPerSymbol mcs bw * maxSymbols shortGI 40) ∨
      (¬ Roomy (0xc0 + mcs) bw shortGI ∧
        vhtBitsPerSymbol mcs bw * maxSymbols shortGI 40 / 8 ≤ 65535) := by
  decide

private theorem mute_ht : ∀ mcs ≤ wifi11nMax, ∀ shortGI : Bool,
    maxSendPacketLen (0x80 + mcs) 3 shortGI = 0 ∧ mcsTxTime (0x80 + mcs) 3 shortGI 1 ≤ 4095 ∧
      ¬ Roomy (0x80 + mcs) 3 shortGI := by
  decide

private theorem mute_vht : ∀ mcs ≤ wifi11acMax, ∀ shortGI : Bool,
    maxSendPacketLen (0xc0 + mcs) 3 shortGI = 0 ∧ mcsTxTime (0xc0 + mcs) 3 shortGI 1 ≤ 4095 ∧
      ¬ Roomy (0xc0 + mcs) 3 shortGI := by
  decide

private theorem undefined_vht : ∀ shortGI : Bool,
    maxSendPacketLen 0xc9 0 shortGI < 65535 ∧ mcsTxTime 0xc9 0 shortGI 65535 ≤ 4095 ∧
      ¬ Roomy 0xc9 0 shortGI := by
  decide

private theorem getLen_eq (code : McsCode rate) :
    halTxDescGetLen rate length shortGI bw false =
      ((((mcsTxTime rate bw shortGI length : Int) - 20) / 4 * 3 - 3) % 2 ^ 16).toNat := by
  cases code with
  | ht known =>
    obtain ⟨isHt, -⟩ := ht_code known
    simp only [halTxDescGetLen, mcsTxTime, Frame.txTime, isHt, if_true]
  | vht known =>
    obtain ⟨notHt, isVht, -⟩ := vht_code known
    simp only [halTxDescGetLen, mcsTxTime, Frame.txTime, notHt, isVht, Bool.false_eq_true, if_false,
      if_true]

/-- A limit of whole symbols agrees with the transmit times only if no length gets to it. -/
theorem whole_symbols_agree_iff (code : McsCode rate) (wide : 26 ≤ nsymbits)
    (front : preamble = 36 ∨ preamble = 40)
    (limit : maxSendPacketLen rate bw shortGI = nsymbits * maxSymbols shortGI preamble / 8)
    (time : ∀ length ≤ 65535, mcsTxTime rate bw shortGI length =
      (exactSymbolTime shortGI ((8 * length + ofdmPlcpBits) ⌈/⌉ nsymbits) + preamble) % 2 ^ 16)
    (room : (Roomy rate bw shortGI ∧ 524302 ≤ nsymbits * maxSymbols shortGI preamble) ∨
      (¬ Roomy rate bw shortGI ∧ nsymbits * maxSymbols shortGI preamble / 8 ≤ 65535)) :
    LimitAgrees rate bw shortGI ↔ Roomy rate bw shortGI := by
  rcases room with ⟨roomy, room⟩ | ⟨tight, exists16⟩
  · refine iff_of_true ⟨?_, ?_⟩ roomy
    · intro length short within
      have fits : exactSymbolTime shortGI ((8 * length + ofdmPlcpBits) ⌈/⌉ nsymbits) + preamble ≤
          4095 := roomy_fits wide front room short
      have same : mcsTxTime rate bw shortGI length =
          exactSymbolTime shortGI ((8 * length + ofdmPlcpBits) ⌈/⌉ nsymbits) + preamble := by
        rw [time length short, Nat.mod_eq_of_lt (by omega)]
      rw [getLen_eq code, same]
      exact ⟨fits, getLen_lt (by omega) fits⟩
    · intro length short beyond
      rw [limit] at beyond
      omega
  · refine iff_of_false ?_ tight
    intro agrees
    have fits := (agrees.1 (nsymbits * maxSymbols shortGI preamble / 8) exists16
      (Nat.le_of_eq limit.symm)).1
    rw [time _ exists16] at fits
    exact Nat.not_lt.mpr fits (limit_exceeds wide front)

private theorem not_agrees_of_short (short : length ≤ 65535)
    (beyond : maxSendPacketLen rate bw shortGI < length)
    (fits : mcsTxTime rate bw shortGI length ≤ 4095) : ¬ LimitAgrees rate bw shortGI := by
  intro agrees
  exact Nat.not_lt.mpr fits (agrees.2 length short beyond)

/-- The limit agrees with the transmit times exactly at the rates at which no length is limited. -/
theorem limitAgrees_iff (code : McsCode rate) (band : bw ≤ 3) :
    LimitAgrees rate bw shortGI ↔ Roomy rate bw shortGI := by
  by_cases widest : bw = 3
  · subst widest
    cases code with
    | @ht mcs known =>
      obtain ⟨limit, fits, tight⟩ := mute_ht mcs known shortGI
      exact iff_of_false (not_agrees_of_short (by decide) (by rw [limit]; decide) fits) tight
    | @vht mcs known =>
      obtain ⟨limit, fits, tight⟩ := mute_vht mcs known shortGI
      exact iff_of_false (not_agrees_of_short (by decide) (by rw [limit]; decide) fits) tight
  · have asked : bw ≤ 2 := by omega
    cases code with
    | @ht mcs known =>
      obtain ⟨-, wide⟩ := htBitsPerSymbol_spec mcs known (min bw bw40) (Nat.min_le_right _ _)
      have enough : 26 ≤ htBitsPerSymbol mcs (min bw bw40) := by omega
      exact whole_symbols_agree_iff (.ht known) enough (Or.inl rfl)
        (maxSendPacketLen_ht mcs known bw asked shortGI)
        (fun length short => mcsTxTime_ht known short) (roomy_ht mcs known bw asked shortGI)
    | @vht mcs known =>
      by_cases undefined : mcs = 9 ∧ bw = 0
      · obtain ⟨rfl, rfl⟩ := undefined
        obtain ⟨limit, fits, tight⟩ := undefined_vht shortGI
        exact iff_of_false (not_agrees_of_short (Nat.le_refl _) limit fits) tight
      · obtain ⟨-, -, wide⟩ := (vhtBitsPerSymbol_spec mcs known bw band).resolve_left
          (fun none => undefined ⟨none.1, none.2.1⟩)
        have enough : 26 ≤ vhtBitsPerSymbol mcs bw := by omega
        exact whole_symbols_agree_iff (.vht known) enough (Or.inr rfl)
          (maxSendPacketLen_vht mcs known bw asked shortGI undefined)
          (fun length short => mcsTxTime_vht known band short undefined)
          (roomy_vht mcs known bw asked shortGI)

/-- At MCS 7 and 40 MHz no aggregate is too long. -/
theorem widest_ht_agrees : LimitAgrees 0x87 1 false :=
  (limitAgrees_iff (.ht (by decide : 7 ≤ wifi11nMax)) (by decide)).mpr (by decide)

/-- At MCS 0 and 20 MHz the limit is 3295 bytes, which need 1015 symbols where there is time for
1014. -/
theorem slowest_ht_exceeds :
    McsCode 0x80 ∧ maxSendPacketLen 0x80 0 false = 3295 ∧ mcsTxTime 0x80 0 false 3295 = 4096 ∧
      ¬ LimitAgrees 0x80 0 false := by
  refine ⟨.ht (by decide : 0 ≤ wifi11nMax), by decide, by decide, ?_⟩
  intro agrees
  exact absurd (agrees.1 3295 (by decide) (by decide)).1 (by decide)

end W522a.Hal
