import Mathlib.Algebra.GroupWithZero.Nat
import Mathlib.Data.BitVec

/-!
The transmit times and the limit on the length of an aggregate of `wifi_hal_txdesc.c`. The rates
are the codes of `fi_sdio.h`; a sum, a product or a shift is cut off to the type it is stored in
or computed in.
-/

namespace W522a.Hal

@[simp] abbrev wifiRateMask : Nat := 0xf0

def isHtRate (rate : Nat) : Bool := rate &&& wifiRateMask == 0x80

def isVhtRate (rate : Nat) : Bool := rate &&& wifiRateMask == 0xc0

/-- `GET_HT_MCS`, `GET_VHT_MCS` and `GET_MCS` are one mask. -/
def getMcs (rate : Nat) : Nat := rate % 16

@[simp] abbrev wifi11b1m : Nat := 0x00

@[simp] abbrev wifi11b11m : Nat := 0x03

@[simp] abbrev wifi11bgMax : Nat := 0x0b

@[simp] abbrev wifi11nMax : Nat := 0x07

@[simp] abbrev wifi11acMax : Nat := 0x09

def isOfmdRate (rate : Nat) : Bool := wifi11b11m < rate

@[simp] abbrev bw40 : Nat := 1

@[simp] abbrev ofdmPlcpBits : Nat := 22

/-- `bit_time` of `our_rate_controls`, as `hal_tx_desc_init` leaves it -/
def bitTime (rate : Nat) : Nat :=
  [262144, 131072, 47662, 23831, 43690, 29127, 21845, 14563, 10922, 7281, 5461, 4854].getD rate 0

def htBitsPerSymbol (mcs bw : Nat) : Nat :=
  ([[26, 54], [52, 108], [78, 162], [104, 216], [156, 324], [208, 432], [234, 486],
    [260, 540]].getD mcs []).getD bw 0

def vhtBitsPerSymbol (mcs bw : Nat) : Nat :=
  ([[26, 54, 117, 234], [52, 108, 234, 468], [78, 162, 351, 702], [104, 216, 468, 936],
    [156, 324, 702, 1404], [208, 432, 936, 1872], [234, 486, 1053, 2106], [260, 540, 1170, 2340],
    [312, 648, 1404, 2808], [0, 720, 1560, 3120]].getD mcs []).getD bw 0

def symbolTime (shortGI : Bool) (nsymbols : Nat) : Nat :=
  if shortGI then (nsymbols * 18 + 4) / 5 else nsymbols * 4

def halTxDescriptorHtGetPreamble (green : Bool) : Nat :=
  if green then 8 + 8 + 8 + 4 else 8 + 8 + 4 + 8 + 4 + 4

/-- `Hal_TxDescriptor_VHT_GetPreamble` clears the flag of the greenfield preamble. -/
def halTxDescriptorVhtGetPreamble (_green : Bool) : Nat := 8 + 8 + 4 + 8 + 4 + 4 + 4

def halTxdescriptorHtGettxTime (rate pktlen : Nat) (shortGI : Bool) (bw : Nat) (green : Bool) :
    Nat :=
  let bw := if bw40 < bw then bw40 else bw
  let nbits := (pktlen * 8 + ofdmPlcpBits) % 2 ^ 32
  let nsymbits := htBitsPerSymbol (getMcs rate) bw
  let nsymbols := (nbits + nsymbits - 1) / nsymbits % 2 ^ 16
  let duration := symbolTime shortGI nsymbols % 2 ^ 16
  (duration + halTxDescriptorHtGetPreamble green) % 2 ^ 16

/-- `Hal_TxDescriptor_VHT_GetTxTime` takes one symbol for the rate that the table has no bits
for. -/
def halTxDescriptorVhtGetTxTime (rate pktlen : Nat) (shortGI : Bool) (bw : Nat) (green : Bool) :
    Nat :=
  let nbits := (pktlen * 8 + ofdmPlcpBits) % 2 ^ 32
  let nsymbits := vhtBitsPerSymbol (getMcs rate) bw
  let nsymbols := if nsymbits = 0 then 1 else (nbits + nsymbits - 1) / nsymbits % 2 ^ 16
  let duration := symbolTime shortGI nsymbols % 2 ^ 16
  (duration + halTxDescriptorVhtGetPreamble green) % 2 ^ 16

/-- `Hal_TxDescriptor_GetDuration`. The length is counted in bits where it was counted in bytes,
in an `unsigned short`; the product is an `unsigned int`. -/
def halTxDescriptorGetDuration (rate length : Nat) : Nat :=
  let length := length * 8 % 2 ^ 16
  let length := if isOfmdRate rate then (length + (16 + 6)) % 2 ^ 16 else length
  let duration := (bitTime rate * length + (2 ^ 18 - 1)) % 2 ^ 32 / 2 ^ 18 % 2 ^ 16
  if isOfmdRate rate then (duration + 3) / 4 * 4 % 2 ^ 16 else duration

def halTxDescGetLen (rate pktlen : Nat) (shortGI : Bool) (bw : Nat) (green : Bool) : Nat :=
  if isHtRate rate then
    ((((halTxdescriptorHtGettxTime rate pktlen shortGI bw green : Int) - 20) / 4 * 3 - 3)
      % 2 ^ 16).toNat
  else if isVhtRate rate then
    ((((halTxDescriptorVhtGetTxTime rate pktlen shortGI bw green : Int) - 20) / 4 * 3 - 3)
      % 2 ^ 16).toNat
  else pktlen % 2 ^ 16

def maxSendPacketLen (rate bw : Nat) (shortGI : Bool) : Nat :=
  if isHtRate rate = false ∧ isVhtRate rate = false then 0
  else
    let preambleTime :=
      if isHtRate rate then halTxDescriptorHtGetPreamble false
      else halTxDescriptorVhtGetPreamble false
    let maxDataFieldTxTime := 4095 - preambleTime
    let maxSymbolNumber :=
      if shortGI then maxDataFieldTxTime * 10 / 36 else maxDataFieldTxTime / 4
    let mcs := getMcs rate
    if 9 < mcs ∨ 2 < bw then 0
    else
      let mcs := if mcs = 9 ∧ bw = 0 then 8 else mcs
      if isHtRate rate then
        let bw := if bw40 < bw then bw40 else bw
        let mcs := if 7 < mcs then 7 else mcs
        htBitsPerSymbol mcs bw * maxSymbolNumber / 8
      else vhtBitsPerSymbol mcs bw * maxSymbolNumber / 8

end W522a.Hal
