import W522a.Ap.AssocReq

/-!
An entry of the scan table: what is kept of a beacon or a probe response, and the mode of the peer
that is read from it.
-/

namespace W522a.Scan

open Ap (read16l rsnCipher wpaCipher wifinetCipherTkip)

/-- `enum wifi_mac_bwc_width` -/
inductive BwcWidth where
  | width20
  | width40
  | width80
  | width160
  | width80p80
  | unset
  deriving DecidableEq, Repr

/-- `struct wifi_channel`, what the scan reads of it. -/
structure WifiChannel where
  chanCfreq1 : Nat
  chanFlags : Nat
  chanPriNum : Nat
  chanBw : BwcWidth
  deriving DecidableEq, Repr

def WifiChannel.is2ghz (chan : WifiChannel) : Bool := chan.chanFlags &&& 0x4000 != 0

def WifiChannel.is5ghz (chan : WifiChannel) : Bool := chan.chanFlags &&& 0x8000 != 0

@[simp] abbrev wifinetNwidLen : Nat := 32

@[simp] abbrev wifinetRateMaxsize : Nat := 57

@[simp] abbrev scaninfoIeLength : Nat := 260

/-- The arrays of `struct wifi_scan_info` that hold an element. -/
inductive InfoField where
  | siSsid
  | siRates
  | siExrates
  | siWpaIe
  | siWmeIe
  | siHtcapIe
  | siHtinfoIe
  | siCountryIe
  | siBssLoadIe
  | siRsnIe
  | siRsnxIe
  | siWpsIe
  | ieExtCap
  | ieVhtCap
  | ieVhtOpt
  | ieVhtTxPwr
  | ieVhtChSw
  | ieVhtExtBssLd
  | ieVhtQuietCh
  | ieVhtOptMdNtf
  deriving DecidableEq, Repr

/-- The size of an array; the last eight have that of the packed structure of their element. -/
def InfoField.size : InfoField → Nat
  | siSsid => 2 + wifinetNwidLen
  | siRates | siExrates => 2 + wifinetRateMaxsize
  | siWpaIe | siWmeIe | siHtcapIe | siHtinfoIe | siCountryIe | siBssLoadIe | siRsnIe | siRsnxIe
  | siWpsIe => scaninfoIeLength
  | ieExtCap => 10
  | ieVhtCap => 14
  | ieVhtOpt => 7
  | ieVhtTxPwr => 7
  | ieVhtChSw => 98
  | ieVhtExtBssLd => 8
  | ieVhtQuietCh => 9
  | ieVhtOptMdNtf => 3

/-- `struct wifi_scan_info`: its arrays are the bytes from their first one on. -/
structure WifiScanInfo where
  siMacaddr : List UInt8
  siBssid : List UInt8
  array : InfoField → Nat → UInt8
  siTstamp : List UInt8
  siIntval : Nat
  siCapinfo : Nat
  siChan : WifiChannel
  siTimoff : Nat
  siErp : UInt8
  siRssi : Int
  siDtimperiod : UInt8
  siRsnCapa : Nat
  siFrameLen : Nat

/-- `struct scaninfo_entry` without its links. -/
structure ScaninfoEntry where
  scaninfo : WifiScanInfo
  connectcnt : Nat
  seValid : Bool
  seAvgrssi : Nat
  lastUpdateTime : Nat
  connectTime : Nat

/-- `enum wifi_mac_macmode`, the modes that a scan tells apart. -/
@[simp] abbrev wifinetModeAuto : Nat := 0

@[simp] abbrev wifinetMode11b : Nat := 1

@[simp] abbrev wifinetMode11g : Nat := 2

@[simp] abbrev wifinetMode11bg : Nat := 3

@[simp] abbrev wifinetMode11n : Nat := 4

@[simp] abbrev wifinetMode11gn : Nat := 6

@[simp] abbrev wifinetMode11bgn : Nat := 7

@[simp] abbrev wifinetMode11gnac : Nat := 14

def wifinetGetRateVal (rate : UInt8) : UInt8 := rate &&& 0x7f

@[simp] abbrev wifinetCapinfoPrivacy : Nat := 0x10

@[simp] abbrev wifinetElemidVhtcap : UInt8 := 191

def hasRateOf (basicRate : List UInt8) (rates : Nat → UInt8) : Bool :=
  (List.range (rates 1).toNat).any fun i =>
    basicRate.any fun basic => wifinetGetRateVal (rates (i + 2)) == wifinetGetRateVal basic

/-- `wifi_mac_get_ap_mode`: whether there are rates of 11b, and whether there are rates of 11g. -/
def wifiMacGetApMode (rates : Nat → UInt8) : Bool × Bool :=
  (hasRateOf [0x82, 0x84, 0x8b, 0x96] rates,
    hasRateOf [0x8c, 0x92, 0x98, 0xa4, 0xb0, 0xc8, 0xe0, 0xec] rates)

/-- One of so many suites is stronger than TKIP; the count is kept in eight bits. -/
def hasStrongCipher (cipher : Nat → Nat) (count first : Nat) : Bool :=
  (List.range (count % 256)).any fun i => wifinetCipherTkip < cipher (first + 4 * i)

def wifiMacIsHtForbidden (se : WifiScanInfo) : Bool :=
  let wpaIe := se.array .siWpaIe
  let rsnIe := se.array .siRsnIe
  let hasWpa := wpaIe 1 != 0
  let hasRsn := rsnIe 1 != 0
  !(hasWpa && hasStrongCipher (fun place => (wpaCipher wpaIe place 0).1) (read16l wpaIe 12) 14 ||
    hasRsn && hasStrongCipher (fun place => (rsnCipher rsnIe place 0).1) (read16l rsnIe 8) 10 ||
    !hasWpa && !hasRsn && se.siCapinfo &&& wifinetCapinfoPrivacy == 0)

def wifiMacGetStaMode (se : WifiScanInfo) : Nat :=
  let (firstB, firstG) := wifiMacGetApMode (se.array .siRates)
  let (moreB, moreG) := wifiMacGetApMode (se.array .siExrates)
  let legacy :=
    match firstB || moreB, firstG || moreG with
    | true, true => wifinetMode11bg
    | false, true => wifinetMode11g
    | true, false => wifinetMode11b
    | false, false => wifinetModeAuto
  let vht := !se.siChan.is2ghz && se.array .ieVhtCap 0 == wifinetElemidVhtcap
  let macmode :=
    if se.array .siHtcapIe 1 != 0 && !wifiMacIsHtForbidden se then
      if vht then wifinetMode11gnac
      else if legacy = wifinetMode11bg then wifinetMode11bgn
      else if legacy = wifinetMode11g then wifinetMode11gn
      else wifinetMode11n
    else if vht then wifinetMode11g
    else legacy
  if macmode = wifinetModeAuto then
    if se.siChan.is5ghz then wifinetMode11gnac else wifinetMode11bgn
  else macmode

end W522a.Scan
