import W522a.Ap.Station

/-!
What an access point does for stations that older rules protect: the counts of the stations without
short slot time, of the non-ERP ones, of those without HT and of the HT ones with 20 MHz, and the
modes that follow from them.
-/

namespace W522a.Ap

def shortSlottime (capinfo : Nat) : Bool := capinfo.testBit 10

def shortPreamble (capinfo : Nat) : Bool := capinfo.testBit 5

def wifinetGetRateVal (rate : Nat) : Nat := rate &&& 0x7f

/-- The inner loop of `wifi_mac_iserp_rateset`. -/
def hasRate (rate : Nat) : List Nat → Bool
  | [] => false
  | r :: rest =>
    if rate = wifinetGetRateVal r then true
    else if rate < wifinetGetRateVal r then false
    else hasRate rate rest

def wifiMacIserpRateset (rates : List Nat) : Bool :=
  decide (7 ≤ rates.length) && [2, 4, 11, 22, 12, 24, 48].all (hasRate · rates)

def wifiMac11gInitParam (mac : WifiMac) (sta : ApSta) : WifiMac × ApSta :=
  let mac :=
    if shortSlottime sta.staCapinfo then mac
    else { mac with wmLongslotsta := (mac.wmLongslotsta + 1) % 65536, shslot := false }
  if wifiMacIserpRateset sta.staRates then (mac, { sta with nodeErp := true })
  else
    let mac := { mac with
      wmNonerpsta := (mac.wmNonerpsta + 1) % 65536
      useprot := mac.useprot || !mac.protNone }
    let mac :=
      if shortPreamble sta.staCapinfo then mac
      else { mac with usebarker := true, shpreamble := false }
    ({ mac with erpupdate := mac.erpupdate || mac.wmNonerpsta == 1 }, sta)

/-- The non-ERP part of `wifi_mac_11g_rst_param`; `quiet` tells that no foreign non-ERP station was
heard for `WIFINET_INACT_NONERP` seconds. -/
def leaveNonerp (mac : WifiMac) (quiet : Bool) : WifiMac :=
  if mac.wmNonerpsta = 0 then mac
  else
    let mac := { mac with wmNonerpsta := mac.wmNonerpsta - 1 }
    if mac.wmNonerpsta = 0 then
      { mac with
        useprot := mac.useprot && !quiet
        shpreamble := mac.shpreamble || mac.capShpreamble
        usebarker := mac.usebarker && !mac.capShpreamble
        erpupdate := true }
    else mac

/-- The part of `wifi_mac_11g_rst_param` about slots. -/
def leaveLongslot (mac : WifiMac) : WifiMac :=
  let mac := { mac with wmLongslotsta := mac.wmLongslotsta - 1 }
  if mac.wmLongslotsta = 0 then { mac with shslot := mac.shslot || mac.capShslot } else mac

def wifiMac11gRstParam (mac : WifiMac) (sta : ApSta) (quiet : Bool) : WifiMac :=
  let mac := if shortSlottime sta.staCapinfo then mac else leaveLongslot mac
  if sta.nodeErp then mac else leaveNonerp mac quiet

/-- `enum wifi_mac_ht_prot_update_flag` -/
inductive HtProtUpdate where
  | staConnect
  | staDisconnect
  | beaconUpdate
  deriving DecidableEq, Repr

/-- A count of sixteen bits after a station came or went. -/
def HtProtUpdate.count (flag : HtProtUpdate) (count : Nat) : Nat :=
  match flag with
  | .staConnect => (count + 1) % 65536
  | .staDisconnect => (count + 65535) % 65536
  | .beaconUpdate => count

def nonHt (mode : Nat) (sta : ApSta) : Bool := wifinetInclude11n mode && !sta.nodeHt

def ht20 (sta : ApSta) : Bool := sta.nodeHt && sta.staChbw == wifinetBwcWidth20

/-- The operating mode that follows from the counts. -/
def htProtMode (mac : WifiMac) : Nat :=
  if mac.wmNonHtSta ≠ 0 then htinfoOpmodeMixedProtAll
  else if mac.nonhtAp then htinfoOpmodeMixedProtOpt
  else htinfoOpmodePure

def wifiMacHtProt (mac : WifiMac) (mode : Nat) (sta : ApSta) (flag : HtProtUpdate) : WifiMac :=
  if !mac.ifRunUp then mac
  else
    let mac :=
      if nonHt mode sta then { mac with wmNonHtSta := flag.count mac.wmNonHtSta } else mac
    let mac := if ht20 sta then { mac with wmHt20Sta := flag.count mac.wmHt20Sta } else mac
    { mac with
      wmHtProtSm := htProtMode mac
      htupdate := mac.htupdate || mac.wmHtProtSm != htProtMode mac }

def wifiMacChangeCbw (mac : WifiMac) : WifiMac :=
  if mac.coextDisable then mac else { mac with htupdate := true }

/-- `wifi_mac_reset_erp`; the mode 1 is `WIFINET_MODE_11B`. -/
def wifiMacResetErp (mac : WifiMac) (mode : Nat) : WifiMac :=
  { mac with
    useprot := false
    wmNonerpsta := 0
    wmLongslotsta := 0
    shslot := mode != 1 && mac.capShslot
    shpreamble := mac.capShpreamble
    usebarker := !mac.capShpreamble }

def wifiMacResetHt (mac : WifiMac) : WifiMac :=
  if 1 < mac.wmNopened then mac
  else
    { mac with
      wmNonHtSta := 0
      wmHt20Sta := 0
      wmHtProtSm := htinfoOpmodePure
      nonhtAp := false }

end W522a.Ap
