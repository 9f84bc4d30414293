import W522a.Hal.Airtime
import W522a.Lib.Rounding
import Mathlib.Tactic.IntervalCases

/-!
What the transmit times ought to be, and the lengths up to which they are.
-/

namespace W522a.Hal

/-- What a transmit time is asked for. -/
structure Frame where
  rate : Nat
  shortGI : Bool
  bw : Nat
  green : Bool
  length : Nat

/-- The frames that may be sent: an MPDU of at most the 4095 bytes that a PSDU has without HT,
which is above every MSDU with its headers, or an HT or a VHT aggregate. -/
inductive Frame.Sendable : Frame → Prop
  | legacy {rate length : Nat} (shortGI : Bool) (bw : Nat) (green : Bool)
      (known : rate ≤ wifi11bgMax) (short : length ≤ 4095) :
      Sendable { rate, shortGI, bw, green, length }
  | ht {mcs length : Nat} (shortGI : Bool) (bw : Nat) (green : Bool) (known : mcs ≤ wifi11nMax)
      (short : length ≤ 65535) : Sendable { rate := 0x80 + mcs, shortGI, bw, green, length }
  | vht {mcs bw length : Nat} (shortGI green : Bool) (known : mcs ≤ wifi11acMax) (band : bw ≤ 3)
      (short : length ≤ 65535) : Sendable { rate := 0xc0 + mcs, shortGI, bw, green, length }

/-- The transmit time that the driver computes. -/
def Frame.txTime (frame : Frame) : Nat :=
  if isHtRate frame.rate then
    halTxdescriptorHtGettxTime frame.rate frame.length frame.shortGI frame.bw frame.green
  else if isVhtRate frame.rate then
    halTxDescriptorVhtGetTxTime frame.rate frame.length frame.shortGI frame.bw frame.green
  else halTxDescriptorGetDuration frame.rate frame.length

/-- A rate in units of 500 kb/s. -/
def halfMegabits (rate : Nat) : Nat := [2, 4, 11, 22, 12, 18, 24, 36, 48, 72, 96, 108].getD rate 0

def dataSubcarriers (bw : Nat) : Nat := [52, 108, 234, 468].getD bw 0

/-- The data bits of a subcarrier in a symbol, in sixths. -/
def bitSixths (mcs : Nat) : Nat := [3, 6, 9, 12, 18, 24, 27, 30, 36, 40].getD mcs 0

/-- The symbols that an HT or a VHT frame needs. -/
def exactSymbols (mcs bw length : Nat) : Nat :=
  (6 * (8 * length + ofdmPlcpBits)) ⌈/⌉ (dataSubcarriers bw * bitSixths mcs)

/-- A symbol lasts 4 µs, or 3.6 µs with the short guard interval. -/
def exactSymbolTime (shortGI : Bool) (symbols : Nat) : Nat :=
  if shortGI then (18 * symbols) ⌈/⌉ 5 else 4 * symbols

def Frame.exactTime (frame : Frame) : Nat :=
  if isHtRate frame.rate then
    exactSymbolTime frame.shortGI
        (exactSymbols (getMcs frame.rate) (min frame.bw bw40) frame.length)
      + halTxDescriptorHtGetPreamble frame.green
  else if isVhtRate frame.rate then
    exactSymbolTime frame.shortGI (exactSymbols (getMcs frame.rate) frame.bw frame.length)
      + halTxDescriptorVhtGetPreamble frame.green
  else if isOfmdRate frame.rate then
    4 * ((8 * frame.length + ofdmPlcpBits) ⌈/⌉ (2 * halfMegabits frame.rate))
  else (2 * (8 * frame.length)) ⌈/⌉ halfMegabits frame.rate

/-- No sum or product on the way leaves the type that it is computed in. -/
def Frame.NoOverflow (frame : Frame) : Prop :=
  let plcp := if isOfmdRate frame.rate then ofdmPlcpBits else 0
  if isHtRate frame.rate ∨ isVhtRate frame.rate then
    8 * frame.length + plcp < 2 ^ 32 ∧ frame.exactTime < 2 ^ 16
  else
    8 * frame.length + plcp < 2 ^ 16 ∧
      bitTime frame.rate * (8 * frame.length + plcp) + (2 ^ 18 - 1) < 2 ^ 32

/-- The transmit time is the exact one, no intermediate value overflows, and no shorter frame of
the rate takes longer. -/
def Frame.TimedExactly (frame : Frame) : Prop :=
  frame.txTime = frame.exactTime ∧ frame.NoOverflow ∧
    ∀ shorter ≤ frame.length, { frame with length := shorter }.txTime ≤ frame.txTime

/-- The longest frame of a rate whose transmit time comes out right. At 1 Mb/s the product of bits
and `bit_time` has 32 bits; at the lowest MCS the time of a long aggregate has more than 16; for
the MCS 9 at 20 MHz one symbol is taken whatever the length. -/
def Frame.lengthTimed (frame : Frame) : Nat :=
  if isHtRate frame.rate then
    if getMcs frame.rate = 0 ∧ frame.bw = 0 then
      match frame.shortGI, frame.green with
      | false, false => 53212
      | false, true => 53219
      | true, false => 59127
      | true, true => 59134
    else 65535
  else if isVhtRate frame.rate then
    if getMcs frame.rate = 0 ∧ frame.bw = 0 then if frame.shortGI then 59124 else 53209
    else if getMcs frame.rate = 9 ∧ frame.bw = 0 then 40
    else 65535
  else if frame.rate = wifi11b1m then 2047
  else 4095

section Codes

variable {rate mcs : Nat}

theorem legacy_code (known : rate ≤ wifi11bgMax) :
    isHtRate rate = false ∧ isVhtRate rate = false := by
  have all : ∀ rate ≤ wifi11bgMax, isHtRate rate = false ∧ isVhtRate rate = false := by decide
  exact all rate known

theorem ht_code (known : mcs ≤ wifi11nMax) :
    isHtRate (0x80 + mcs) = true ∧ getMcs (0x80 + mcs) = mcs := by
  have all : ∀ mcs ≤ wifi11nMax, isHtRate (0x80 + mcs) = true ∧ getMcs (0x80 + mcs) = mcs := by
    decide
  exact all mcs known

theorem vht_code (known : mcs ≤ wifi11acMax) :
    isHtRate (0xc0 + mcs) = false ∧ isVhtRate (0xc0 + mcs) = true ∧ getMcs (0xc0 + mcs) = mcs := by
  have all : ∀ mcs ≤ wifi11acMax,
      isHtRate (0xc0 + mcs) = false ∧ isVhtRate (0xc0 + mcs) = true ∧
        getMcs (0xc0 + mcs) = mcs := by decide
  exact all mcs known

end Codes

section Legacy

variable {rate length bits : Nat}

theorem shifted_eq (fits : bitTime rate * bits + (2 ^ 18 - 1) < 2 ^ 32) :
    (bitTime rate * bits + (2 ^ 18 - 1)) % 2 ^ 32 / 2 ^ 18 % 2 ^ 16 =
      (bitTime rate * bits) ⌈/⌉ 2 ^ 18 := by
  rw [Nat.mod_eq_of_lt fits, Nat.mod_eq_of_lt (by omega), Nat.ceilDiv_eq_add_pred_div,
    Nat.add_sub_assoc (by decide)]

/-- The numbers of `bit_time` for the CCK rates. -/
theorem bitTime_cck : ∀ rate ≤ wifi11b11m,
    0 < halfMegabits rate ∧ bitTime rate * halfMegabits rate ≤ 2 ^ 18 * 2 ∧
      2 ^ 18 * 2 - bitTime rate * halfMegabits rate ≤ 6 ∧
      (rate = wifi11b1m ∨ bitTime rate ≤ 131072) := by
  decide

theorem product_fits_cck (cck : rate ≤ wifi11b11m) (short : length ≤ 4095)
    (timed : rate ≠ wifi11b1m ∨ length ≤ 2047) :
    bitTime rate * (8 * length) + (2 ^ 18 - 1) < 2 ^ 32 := by
  obtain ⟨-, -, -, slowest | faster⟩ := bitTime_cck rate cck
  · subst slowest
    have few : length ≤ 2047 := timed.resolve_left (fun other => other rfl)
    show 262144 * (8 * length) + (2 ^ 18 - 1) < 2 ^ 32
    omega
  · have product := Nat.mul_le_mul_right (8 * length) faster
    omega

theorem duration_cck (cck : rate ≤ wifi11b11m) (short : length ≤ 4095)
    (timed : rate ≠ wifi11b1m ∨ length ≤ 2047) :
    halTxDescriptorGetDuration rate length = (2 * (8 * length)) ⌈/⌉ halfMegabits rate := by
  have notOfdm : isOfmdRate rate = false := by
    simp only [isOfmdRate, decide_eq_false_iff_not]
    omega
  have cutOff : length * 8 % 2 ^ 16 = 8 * length := by omega
  obtain ⟨positive, truncated, loss, -⟩ := bitTime_cck rate cck
  simp only [halTxDescriptorGetDuration, notOfdm, Bool.false_eq_true, if_false]
  rw [cutOff, shifted_eq (product_fits_cck cck short timed)]
  apply Rounding.ceilDiv_reciprocal 1 positive (by decide) (Nat.add_sub_of_le truncated)
  · intro quotient less
    exact less
  · have lost := Nat.mul_le_mul_right (8 * length) loss
    omega

/-- The numbers of `bit_time` for the OFDM rates. The bits of a symbol and the eight bits of a
byte have a common divisor, so that a frame never ends just behind a symbol: the last symbol has
two bits at 9 Mb/s and six at the other rates. -/
theorem bitTime_ofdm : ∀ rate ≤ wifi11bgMax, wifi11b11m < rate →
    bitTime rate ≤ 43690 ∧ 0 < 2 * halfMegabits rate ∧
      bitTime rate * (2 * halfMegabits rate) ≤ 2 ^ 20 * 1 ∧
      ((2 * halfMegabits rate % 8 = 0 ∧
          (2 ^ 20 * 1 - bitTime rate * (2 * halfMegabits rate)) * 32782 < 2 ^ 20 * 6) ∨
        (2 * halfMegabits rate % 4 = 0 ∧
          (2 ^ 20 * 1 - bitTime rate * (2 * halfMegabits rate)) * 32782 < 2 ^ 20 * 2)) := by
  decide

theorem product_fits_ofdm (known : rate ≤ wifi11bgMax) (ofdm : wifi11b11m < rate)
    (short : length ≤ 4095) :
    bitTime rate * (8 * length + ofdmPlcpBits) + (2 ^ 18 - 1) < 2 ^ 32 := by
  have product := Nat.mul_le_mul_right (8 * length + ofdmPlcpBits)
    (bitTime_ofdm rate known ofdm).1
  have few : 43690 * (8 * length + ofdmPlcpBits) ≤ 43690 * 32782 := by
    apply Nat.mul_le_mul_left
    simp only [ofdmPlcpBits]
    omega
  omega

/-- Whole bytes behind the bits of the PLCP end no closer behind a symbol than those bits do. -/
theorem symbols_ofdm {divisor : Nat} (positive : 0 < 2 * halfMegabits rate)
    (truncated : bitTime rate * (2 * halfMegabits rate) ≤ 2 ^ 20 * 1)
    (whole : divisor ∣ 2 * halfMegabits rate) (bytes : divisor ∣ 8) (short : length ≤ 4095)
    (small : (2 ^ 20 * 1 - bitTime rate * (2 * halfMegabits rate)) * 32782 <
      2 ^ 20 * (ofdmPlcpBits % divisor)) :
    (bitTime rate * (8 * length + ofdmPlcpBits)) ⌈/⌉ 2 ^ 20 =
      (8 * length + ofdmPlcpBits) ⌈/⌉ (2 * halfMegabits rate) := by
  have count : 8 * length + ofdmPlcpBits ≤ 32782 := by
    simp only [ofdmPlcpBits]
    omega
  rw [← Nat.one_mul (8 * length + ofdmPlcpBits), ← Nat.mul_assoc, Nat.mul_one]
  apply Rounding.ceilDiv_reciprocal (ofdmPlcpBits % divisor) positive (by decide)
    (Nat.add_sub_of_le truncated)
  · intro quotient less
    rw [Nat.one_mul] at less ⊢
    obtain ⟨multiple, symbols⟩ := whole.mul_right quotient
    obtain ⟨wholeBytes, byte⟩ := bytes
    rw [symbols] at less ⊢
    have past : (8 * length + ofdmPlcpBits - divisor * multiple) % divisor =
        ofdmPlcpBits % divisor := by
      rw [Nat.sub_mul_mod (Nat.le_of_lt less), byte, Nat.mul_assoc, Nat.mul_add_mod]
    have most := Nat.mod_le (8 * length + ofdmPlcpBits - divisor * multiple) divisor
    omega
  · exact Nat.lt_of_le_of_lt (Nat.mul_le_mul_left _ count) small

theorem duration_ofdm (known : rate ≤ wifi11bgMax) (ofdm : wifi11b11m < rate)
    (short : length ≤ 4095) :
    halTxDescriptorGetDuration rate length =
      4 * ((8 * length + ofdmPlcpBits) ⌈/⌉ (2 * halfMegabits rate)) := by
  have isOfdm : isOfmdRate rate = true := by
    simpa only [isOfmdRate, decide_eq_true_eq] using ofdm
  have cutOff : (length * 8 % 2 ^ 16 + (16 + 6)) % 2 ^ 16 = 8 * length + ofdmPlcpBits := by
    simp only [ofdmPlcpBits]
    omega
  obtain ⟨-, positive, truncated, apart⟩ := bitTime_ofdm rate known ofdm
  have symbols : (bitTime rate * (8 * length + ofdmPlcpBits)) ⌈/⌉ 2 ^ 20 =
      (8 * length + ofdmPlcpBits) ⌈/⌉ (2 * halfMegabits rate) := by
    rcases apart with ⟨whole, small⟩ | ⟨whole, small⟩
    · exact symbols_ofdm positive truncated (Nat.dvd_of_mod_eq_zero whole) (by decide) short small
    · exact symbols_ofdm positive truncated (Nat.dvd_of_mod_eq_zero whole) (by decide) short small
  have few : (bitTime rate * (8 * length + ofdmPlcpBits)) ⌈/⌉ 2 ^ 18 ≤ 16384 := by
    apply (ceilDiv_le_iff_le_mul (by decide)).mpr
    have fits := product_fits_ofdm known ofdm short
    omega
  simp only [halTxDescriptorGetDuration, isOfdm, if_true]
  rw [cutOff, shifted_eq (product_fits_ofdm known ofdm short)]
  rw [← symbols, show (2 : Nat) ^ 20 = 2 ^ 18 * 4 by decide,
    ← Rounding.ceilDiv_ceilDiv _ (by decide) (by decide), Nat.ceilDiv_eq_add_pred_div _ 4]
  omega

theorem duration_slowest (long : 2047 < length) (short : length ≤ 4095) :
    halTxDescriptorGetDuration wifi11b1m length = 8 * length - 16384 := by
  have notOfdm : isOfmdRate wifi11b1m = false := rfl
  have longest : bitTime wifi11b1m = 262144 := rfl
  simp only [halTxDescriptorGetDuration, notOfdm, longest, Bool.false_eq_true, if_false]
  omega

end Legacy

section Mcs

variable {mcs bw length nsymbits preamble : Nat} {shortGI : Bool}

private theorem symbolTime_eq (nsymbols : Nat) :
    symbolTime shortGI nsymbols = exactSymbolTime shortGI nsymbols := by
  cases shortGI with
  | false => exact Nat.mul_comm nsymbols 4
  | true =>
    show (nsymbols * 18 + 4) / 5 = (18 * nsymbols) ⌈/⌉ 5
    rw [Nat.ceilDiv_eq_add_pred_div, Nat.mul_comm]
    rfl

theorem exactSymbolTime_mono {symbols more : Nat} (grown : symbols ≤ more) :
    exactSymbolTime shortGI symbols ≤ exactSymbolTime shortGI more := by
  cases shortGI with
  | false => exact Nat.mul_le_mul_left 4 grown
  | true => exact Rounding.ceilDiv_mono (Nat.mul_le_mul_left 18 grown)

theorem exactSymbols_eq (positive : 0 < nsymbits)
    (bits : dataSubcarriers bw * bitSixths mcs = 6 * nsymbits) :
    exactSymbols mcs bw length = (8 * length + ofdmPlcpBits) ⌈/⌉ nsymbits := by
  rw [exactSymbols, bits, Rounding.ceilDiv_scale _ positive (by decide)]

private theorem exactSymbols_le (wide : 26 ≤ nsymbits) (short : length ≤ 65535) :
    (8 * length + ofdmPlcpBits) ⌈/⌉ nsymbits ≤ 20166 := by
  apply Rounding.ceilDiv_le_of_le (by decide) wide
  simp only [ofdmPlcpBits]
  omega

/-- The bits and the symbols fit, so that only the time may be cut off. -/
theorem cutOff_time (wide : 26 ≤ nsymbits) (short : length ≤ 65535) :
    (symbolTime shortGI (((length * 8 + ofdmPlcpBits) % 2 ^ 32 + nsymbits - 1) / nsymbits % 2 ^ 16)
        % 2 ^ 16 + preamble) % 2 ^ 16 =
      (exactSymbolTime shortGI ((8 * length + ofdmPlcpBits) ⌈/⌉ nsymbits) + preamble) % 2 ^ 16 := by
  have nbits : (length * 8 + ofdmPlcpBits) % 2 ^ 32 = 8 * length + ofdmPlcpBits := by
    simp only [ofdmPlcpBits]
    omega
  have few := exactSymbols_le wide short
  have fits : (8 * length + ofdmPlcpBits) ⌈/⌉ nsymbits % 2 ^ 16 =
      (8 * length + ofdmPlcpBits) ⌈/⌉ nsymbits := Nat.mod_eq_of_lt (by omega)
  rw [nbits, ← Nat.ceilDiv_eq_add_pred_div, fits, symbolTime_eq, Nat.mod_add_mod]

theorem wide_fits (wide : 52 ≤ nsymbits) (short : length ≤ 65535) (front : preamble ≤ 40) :
    exactSymbolTime shortGI ((8 * length + ofdmPlcpBits) ⌈/⌉ nsymbits) + preamble < 2 ^ 16 := by
  have few : (8 * length + ofdmPlcpBits) ⌈/⌉ nsymbits ≤ 10083 := by
    apply Rounding.ceilDiv_le_of_le (by decide) wide
    simp only [ofdmPlcpBits]
    omega
  have time : exactSymbolTime shortGI _ ≤ exactSymbolTime shortGI 10083 :=
    exactSymbolTime_mono few
  have most : exactSymbolTime shortGI 10083 ≤ 40332 := by cases shortGI <;> decide
  omega

theorem narrow_long_fits_iff :
    exactSymbolTime false ((8 * length + ofdmPlcpBits) ⌈/⌉ 26) + preamble < 2 ^ 16 ↔
      8 * length + ofdmPlcpBits ≤ 26 * ((65535 - preamble) / 4) ∧ preamble < 2 ^ 16 := by
  rw [← ceilDiv_le_iff_le_mul (by decide)]
  simp only [exactSymbolTime, Bool.false_eq_true, if_false]
  omega

theorem narrow_short_fits_iff :
    exactSymbolTime true ((8 * length + ofdmPlcpBits) ⌈/⌉ 26) + preamble < 2 ^ 16 ↔
      8 * length + ofdmPlcpBits ≤ 26 * ((65535 - preamble) * 5 / 18) ∧ preamble < 2 ^ 16 := by
  rw [← ceilDiv_le_iff_le_mul (by decide)]
  simp only [exactSymbolTime, if_true]
  rw [Nat.ceilDiv_eq_add_pred_div (18 * _)]
  omega

/-- The bits of an HT symbol: all subcarriers carry data, and only at the lowest rate they are
below 52. -/
theorem htBitsPerSymbol_spec : ∀ mcs ≤ wifi11nMax, ∀ bw ≤ bw40,
    dataSubcarriers bw * bitSixths mcs = 6 * htBitsPerSymbol mcs bw ∧
      ((mcs = 0 ∧ bw = 0 ∧ htBitsPerSymbol mcs bw = 26) ∨
        (¬ (mcs = 0 ∧ bw = 0) ∧ 52 ≤ htBitsPerSymbol mcs bw)) := by
  decide

/-- The bits of a VHT symbol: the table has none for MCS 9 at 20 MHz. -/
theorem vhtBitsPerSymbol_spec : ∀ mcs ≤ wifi11acMax, ∀ bw ≤ 3,
    (mcs = 9 ∧ bw = 0 ∧ vhtBitsPerSymbol mcs bw = 0) ∨
      (¬ (mcs = 9 ∧ bw = 0) ∧ dataSubcarriers bw * bitSixths mcs = 6 * vhtBitsPerSymbol mcs bw ∧
        ((mcs = 0 ∧ bw = 0 ∧ vhtBitsPerSymbol mcs bw = 26) ∨
          (¬ (mcs = 0 ∧ bw = 0) ∧ 52 ≤ vhtBitsPerSymbol mcs bw))) := by
  decide

end Mcs

section Times

variable {mcs bw length : Nat} {shortGI green : Bool}

theorem txTime_ht (known : mcs ≤ wifi11nMax) (short : length ≤ 65535) :
    Frame.txTime { rate := 0x80 + mcs, shortGI, bw, green, length } =
      Frame.exactTime { rate := 0x80 + mcs, shortGI, bw, green, length } % 2 ^ 16 := by
  obtain ⟨isHt, code⟩ := ht_code known
  have capped : (if bw40 < bw then bw40 else bw) = min bw bw40 := by
    by_cases above : bw40 < bw
    · rw [if_pos above, Nat.min_eq_right (Nat.le_of_lt above)]
    · rw [if_neg above, Nat.min_eq_left (Nat.le_of_not_lt above)]
  obtain ⟨bits, wide⟩ := htBitsPerSymbol_spec mcs known (min bw bw40) (Nat.min_le_right _ _)
  have enough : 26 ≤ htBitsPerSymbol mcs (min bw bw40) := by omega
  simp only [Frame.txTime, Frame.exactTime, isHt, code, if_true, halTxdescriptorHtGettxTime, capped]
  rw [exactSymbols_eq (by omega) bits, cutOff_time enough short]

theorem exactTime_ht_lt_iff (known : mcs ≤ wifi11nMax) (short : length ≤ 65535) :
    Frame.exactTime { rate := 0x80 + mcs, shortGI, bw, green, length } < 2 ^ 16 ↔
      length ≤ Frame.lengthTimed { rate := 0x80 + mcs, shortGI, bw, green, length } := by
  obtain ⟨isHt, code⟩ := ht_code known
  obtain ⟨bits, wide⟩ := htBitsPerSymbol_spec mcs known (min bw bw40) (Nat.min_le_right _ _)
  have narrowest : min bw bw40 = 0 ↔ bw = 0 := by
    simp only [bw40]
    omega
  simp only [Frame.exactTime, Frame.lengthTimed, isHt, code, if_true]
  rw [exactSymbols_eq (by omega) bits]
  rw [narrowest] at wide
  rcases wide with ⟨lowest, narrow, least⟩ | ⟨other, wide⟩
  · rw [least, if_pos ⟨lowest, narrow⟩]
    cases shortGI with
    | false =>
      rw [narrow_long_fits_iff]
      cases green with
      | false =>
        simp only [ofdmPlcpBits, halTxDescriptorHtGetPreamble, Bool.false_eq_true, if_false]
        omega
      | true =>
        simp only [ofdmPlcpBits, halTxDescriptorHtGetPreamble, if_true]
        omega
    | true =>
      rw [narrow_short_fits_iff]
      cases green with
      | false =>
        simp only [ofdmPlcpBits, halTxDescriptorHtGetPreamble, Bool.false_eq_true, if_false]
        omega
      | true =>
        simp only [ofdmPlcpBits, halTxDescriptorHtGetPreamble, if_true]
        omega
  · rw [if_neg other]
    have front : halTxDescriptorHtGetPreamble green ≤ 40 := by cases green <;> decide
    exact iff_of_true (wide_fits wide short front) short

theorem txTime_vht (known : mcs ≤ wifi11acMax) (band : bw ≤ 3) (short : length ≤ 65535)
    (defined : ¬ (mcs = 9 ∧ bw = 0)) :
    Frame.txTime { rate := 0xc0 + mcs, shortGI, bw, green, length } =
      Frame.exactTime { rate := 0xc0 + mcs, shortGI, bw, green, length } % 2 ^ 16 := by
  obtain ⟨notHt, isVht, code⟩ := vht_code known
  obtain ⟨-, bits, wide⟩ := (vhtBitsPerSymbol_spec mcs known bw band).resolve_left
    (fun none => defined ⟨none.1, none.2.1⟩)
  have enough : 26 ≤ vhtBitsPerSymbol mcs bw := by omega
  have positive : vhtBitsPerSymbol mcs bw ≠ 0 := by omega
  simp only [Frame.txTime, Frame.exactTime, notHt, isVht, code, Bool.false_eq_true, if_false,
    if_true, halTxDescriptorVhtGetTxTime, positive]
  rw [exactSymbols_eq (by omega) bits, cutOff_time enough short]

private theorem exactTime_vht_lt_iff (known : mcs ≤ wifi11acMax) (band : bw ≤ 3)
    (short : length ≤ 65535)
    (defined : ¬ (mcs = 9 ∧ bw = 0)) :
    Frame.exactTime { rate := 0xc0 + mcs, shortGI, bw, green, length } < 2 ^ 16 ↔
      length ≤ Frame.lengthTimed { rate := 0xc0 + mcs, shortGI, bw, green, length } := by
  obtain ⟨notHt, isVht, code⟩ := vht_code known
  obtain ⟨-, bits, wide⟩ := (vhtBitsPerSymbol_spec mcs known bw band).resolve_left
    (fun none => defined ⟨none.1, none.2.1⟩)
  simp only [Frame.exactTime, Frame.lengthTimed, notHt, isVht, code, Bool.false_eq_true, if_false,
    if_true]
  rw [exactSymbols_eq (by omega) bits]
  rcases wide with ⟨lowest, narrow, least⟩ | ⟨other, wide⟩
  · rw [least, if_pos ⟨lowest, narrow⟩]
    cases shortGI with
    | false =>
      rw [narrow_long_fits_iff]
      simp only [ofdmPlcpBits, halTxDescriptorVhtGetPreamble, Bool.false_eq_true, if_false]
      omega
    | true =>
      rw [narrow_short_fits_iff]
      simp only [ofdmPlcpBits, halTxDescriptorVhtGetPreamble, if_true]
      omega
  · rw [if_neg other, if_neg defined]
    have front : halTxDescriptorVhtGetPreamble green ≤ 40 := Nat.le_refl _
    exact iff_of_true (wide_fits wide short front) short

/-- Of the rate that has no bits in the table, only a frame that is done in one symbol is timed
right. -/
theorem txTime_undefined_iff (short : length ≤ 65535) :
    Frame.txTime { rate := 0xc9, shortGI, bw := 0, green, length } =
      Frame.exactTime { rate := 0xc9, shortGI, bw := 0, green, length } ↔ length ≤ 40 := by
  have notHt : isHtRate 0xc9 = false := rfl
  have isVht : isVhtRate 0xc9 = true := rfl
  have none : vhtBitsPerSymbol (getMcs 0xc9) 0 = 0 := rfl
  have bits : dataSubcarriers 0 * bitSixths (getMcs 0xc9) = 2080 := rfl
  simp only [Frame.txTime, Frame.exactTime, notHt, isVht, Bool.false_eq_true, if_false, if_true,
    halTxDescriptorVhtGetTxTime, none, halTxDescriptorVhtGetPreamble, exactSymbols, bits,
    ofdmPlcpBits]
  rw [Nat.ceilDiv_eq_add_pred_div]
  cases shortGI with
  | false =>
    simp only [symbolTime, exactSymbolTime, Bool.false_eq_true, if_false]
    omega
  | true =>
    simp only [symbolTime, exactSymbolTime, if_true]
    rw [Nat.ceilDiv_eq_add_pred_div]
    omega

end Times

namespace Frame

variable {frame : Frame}

theorem Sendable.shorten (sendable : frame.Sendable) {shorter : Nat}
    (less : shorter ≤ frame.length) : Sendable { frame with length := shorter } := by
  cases sendable with
  | legacy shortGI bw green known short =>
    exact .legacy shortGI bw green known (Nat.le_trans less short)
  | ht shortGI bw green known short => exact .ht shortGI bw green known (Nat.le_trans less short)
  | vht shortGI green known band short =>
    exact .vht shortGI green known band (Nat.le_trans less short)

theorem exactTime_mono {shorter : Nat} (less : shorter ≤ frame.length) :
    exactTime { frame with length := shorter } ≤ frame.exactTime := by
  have bytes : 8 * shorter ≤ 8 * frame.length := Nat.mul_le_mul_left 8 less
  have bits : 8 * shorter + ofdmPlcpBits ≤ 8 * frame.length + ofdmPlcpBits :=
    Nat.add_le_add_right bytes _
  have symbols (bw : Nat) : exactSymbols (getMcs frame.rate) bw shorter ≤
      exactSymbols (getMcs frame.rate) bw frame.length :=
    Rounding.ceilDiv_mono (Nat.mul_le_mul_left 6 bits)
  by_cases isHt : isHtRate frame.rate
  · simp only [exactTime, isHt, if_true]
    exact Nat.add_le_add_right (exactSymbolTime_mono (symbols _)) _
  · by_cases isVht : isVhtRate frame.rate
    · simp only [exactTime, isHt, isVht, if_true, Bool.false_eq_true, if_false]
      exact Nat.add_le_add_right (exactSymbolTime_mono (symbols _)) _
    · by_cases isOfdm : isOfmdRate frame.rate
      · simp only [exactTime, isHt, isVht, isOfdm, if_true, Bool.false_eq_true, if_false]
        exact Nat.mul_le_mul_left 4 (Rounding.ceilDiv_mono bits)
      · simp only [exactTime, isHt, isVht, isOfdm, Bool.false_eq_true, if_false]
        exact Rounding.ceilDiv_mono (Nat.mul_le_mul_left 2 bytes)

private theorem txTime_lt (mcs : isHtRate frame.rate ∨ isVhtRate frame.rate) :
    frame.txTime < 2 ^ 16 := by
  by_cases isHt : isHtRate frame.rate
  · simp only [txTime, isHt, if_true]
    exact Nat.mod_lt _ (by decide)
  · simp only [txTime, isHt, mcs.resolve_left isHt, if_true, Bool.false_eq_true, if_false]
    exact Nat.mod_lt _ (by decide)

theorem txTime_eq_iff (sendable : frame.Sendable) :
    frame.txTime = frame.exactTime ↔ frame.length ≤ frame.lengthTimed := by
  cases sendable with
  | @legacy rate length shortGI bw green known short =>
    obtain ⟨notHt, notVht⟩ := legacy_code known
    simp only [txTime, exactTime, lengthTimed, notHt, notVht, Bool.false_eq_true, if_false]
    by_cases ofdm : wifi11b11m < rate
    · have isOfdm : isOfmdRate rate = true := by
        simpa only [isOfmdRate, decide_eq_true_eq] using ofdm
      have faster : rate ≠ wifi11b1m := by
        simp only [wifi11b11m, wifi11b1m] at ofdm ⊢
        omega
      rw [if_pos isOfdm, if_neg faster, duration_ofdm known ofdm short]
      exact iff_of_true rfl short
    · have cck : rate ≤ wifi11b11m := Nat.le_of_not_lt ofdm
      have notOfdm : ¬ isOfmdRate rate = true := by
        simpa only [isOfmdRate, decide_eq_true_eq] using ofdm
      rw [if_neg notOfdm]
      by_cases slowest : rate = wifi11b1m
      · subst slowest
        rw [if_pos rfl]
        constructor
        · intro timed
          apply Nat.le_of_not_lt
          intro long
          rw [duration_slowest long short, Nat.ceilDiv_eq_add_pred_div] at timed
          have bits : halfMegabits wifi11b1m = 2 := rfl
          rw [bits] at timed
          omega
        · intro few
          exact duration_cck cck short (Or.inr few)
      · rw [if_neg slowest, duration_cck cck short (Or.inl slowest)]
        exact iff_of_true rfl short
  | @ht mcs length shortGI bw green known short =>
    rw [txTime_ht known short, Nat.mod_eq_iff_lt (by decide)]
    exact exactTime_ht_lt_iff known short
  | @vht mcs bw length shortGI green known band short =>
    by_cases undefined : mcs = 9 ∧ bw = 0
    · obtain ⟨rfl, rfl⟩ := undefined
      have notHt : isHtRate 0xc9 = false := rfl
      have isVht : isVhtRate 0xc9 = true := rfl
      have mcs : getMcs 0xc9 = 9 := rfl
      rw [txTime_undefined_iff short]
      simp only [lengthTimed, notHt, isVht, mcs, Bool.false_eq_true, if_false, if_true]
      exact Iff.rfl
    · rw [txTime_vht known band short undefined, Nat.mod_eq_iff_lt (by decide)]
      exact exactTime_vht_lt_iff known band short undefined

private theorem noOverflow (sendable : frame.Sendable) (timed : frame.length ≤ frame.lengthTimed) :
    frame.NoOverflow := by
  have right := (txTime_eq_iff sendable).mpr timed
  cases sendable with
  | @legacy rate length shortGI bw green known short =>
    obtain ⟨notHt, notVht⟩ := legacy_code known
    simp only [NoOverflow, notHt, notVht, Bool.false_eq_true, or_self, if_false]
    by_cases ofdm : wifi11b11m < rate
    · have isOfdm : isOfmdRate rate = true := by
        simpa only [isOfmdRate, decide_eq_true_eq] using ofdm
      rw [if_pos isOfdm]
      refine ⟨?_, product_fits_ofdm known ofdm short⟩
      simp only [ofdmPlcpBits]
      omega
    · have notOfdm : ¬ isOfmdRate rate = true := by
        simpa only [isOfmdRate, decide_eq_true_eq] using ofdm
      rw [if_neg notOfdm]
      refine ⟨by omega, product_fits_cck (Nat.le_of_not_lt ofdm) short ?_⟩
      by_cases slowest : rate = wifi11b1m
      · right
        simp only [lengthTimed, notHt, notVht, Bool.false_eq_true, if_false] at timed
        rwa [if_pos slowest] at timed
      · exact Or.inl slowest
  | @ht mcs length shortGI bw green known short =>
    have isMcs : isHtRate (0x80 + mcs) ∨ isVhtRate (0x80 + mcs) := Or.inl (ht_code known).1
    have fits : txTime { rate := 0x80 + mcs, shortGI, bw, green, length } < 2 ^ 16 :=
      txTime_lt isMcs
    rw [right] at fits
    simp only [NoOverflow, isMcs, if_true]
    refine ⟨?_, fits⟩
    split
    · simp only [ofdmPlcpBits]
      omega
    · omega
  | @vht mcs bw length shortGI green known band short =>
    have isMcs : isHtRate (0xc0 + mcs) ∨ isVhtRate (0xc0 + mcs) := Or.inr (vht_code known).2.1
    have fits : txTime { rate := 0xc0 + mcs, shortGI, bw, green, length } < 2 ^ 16 :=
      txTime_lt isMcs
    rw [right] at fits
    simp only [NoOverflow, isMcs, if_true]
    refine ⟨?_, fits⟩
    split
    · simp only [ofdmPlcpBits]
      omega
    · omega

/-- The transmit times are right up to the lengths of `lengthTimed`. -/
theorem timedExactly_iff (sendable : frame.Sendable) :
    frame.TimedExactly ↔ frame.length ≤ frame.lengthTimed := by
  constructor
  · intro exact
    exact (txTime_eq_iff sendable).mp exact.1
  · intro timed
    have right := (txTime_eq_iff sendable).mpr timed
    refine ⟨right, noOverflow sendable timed, ?_⟩
    intro shorter less
    have rightToo := (txTime_eq_iff (sendable.shorten less)).mpr (Nat.le_trans less timed)
    rw [right, rightToo]
    exact exactTime_mono less

/-- A frame of 1500 bytes at 1 Mb/s is timed right. -/
theorem slow_frame_timed :
    TimedExactly { rate := wifi11b1m, shortGI := false, bw := 0, green := false, length := 1500 } :=
  (timedExactly_iff (.legacy false 0 false (by decide) (by decide))).mpr (by decide)

/-- A frame with an MSDU of 2304 bytes at 1 Mb/s takes more than 18 ms, and is taken for one of
2 ms. -/
theorem long_slow_frame_wraps :
    let frame : Frame :=
      { rate := wifi11b1m, shortGI := false, bw := 0, green := false, length := 2304 }
    frame.Sendable ∧ frame.txTime = 2048 ∧ frame.exactTime = 18432 ∧ ¬ frame.TimedExactly := by
  refine ⟨.legacy false 0 false (by decide) (by decide), by decide, by decide, ?_⟩
  intro exact
  exact absurd exact.1 (by decide)

end Frame

end W522a.Hal
