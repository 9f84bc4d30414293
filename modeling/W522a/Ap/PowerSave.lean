import W522a.Ap.Station

/-!
Frames that an access point keeps for stations in power save, the bits that announce them, and the
count of the stations that sleep.
-/

namespace W522a.Ap

@[simp] abbrev wifinetPsMaxQueue : Nat := 100

@[simp] abbrev wifinetInactWait : Nat := 1

/-- `wifi_mac_pwrsave_psqueue_clean`, and how many frames there were. -/
def wifiMacPwrsavePsqueueClean (sta : ApSta) : ApSta × Nat :=
  ({ sta with staPstxqueue := [] }, sta.staPstxqueue.length)

/-- `wifi_mac_pwrsave_psqueue_age`: the frames at the head whose time is over go, the others age. -/
def wifiMacPwrsavePsqueueAge (sta : ApSta) : ApSta × Nat :=
  let left := sta.staPstxqueue.dropWhile (· < wifinetInactWait)
  ({ sta with staPstxqueue := left.map fun age => (age + 2 ^ 32 - wifinetInactWait) % 2 ^ 32 },
    sta.staPstxqueue.length - left.length)

/-- The age of a frame that comes now. -/
def psqueueAge (vmBcnIntval : Nat) (sta : ApSta) : Nat :=
  max (sta.staListenIntval * vmBcnIntval / 1000) 1

def wifiMacPwrsavePsqueueEnqueue (vmBcnIntval : Nat) (tim : TimVif) (sta : ApSta) :
    TimVif × ApSta :=
  if wifinetPsMaxQueue ≤ sta.staPstxqueue.length then (tim, sta)
  else
    let sta := { sta with
      staPstxqueue := sta.staPstxqueue ++ [psqueueAge vmBcnIntval sta] }
    if sta.staPstxqueue.length = 1 then
      (wifiMacPwrsaveSetTim tim sta.staAssocid true, sta)
    else (tim, sta)

/-- `wifi_mac_pwrsave_psqueue_send`, and how many frames are left. -/
def wifiMacPwrsavePsqueueSend (sta : ApSta) : ApSta × Nat :=
  match sta.staPstxqueue with
  | [] => (sta, 0)
  | _ :: rest => ({ sta with staPstxqueue := rest }, rest.length)

/-- The loop of `wifi_mac_pwrsave_psqueue_flush`: a frame is sent until none is left. -/
def psqueueFlush (sta : ApSta) : Nat → ApSta
  | 0 => sta
  | fuel + 1 =>
    let sent := wifiMacPwrsavePsqueueSend sta
    if sent.2 = 0 then sent.1 else psqueueFlush sent.1 fuel

def wifiMacPwrsavePsqueueFlush (sta : ApSta) : ApSta :=
  psqueueFlush sta (sta.staPstxqueue.length + 1)

/-- `wifi_mac_pwrsave_state_change` of an access point. -/
def wifiMacPwrsaveStateChange (ap : ApVif) (sta : ApSta) (enable : Bool) : ApVif × ApSta :=
  if enable then
    let ap := if sta.nodePwrMgt then ap else { ap with vmPsSta := (ap.vmPsSta + 1) % 65536 }
    (ap, { sta with nodePwrMgt := true })
  else if sta.nodePwrMgt && ap.psqueueHeld then (ap, sta)
  else
    let ap :=
      if sta.nodePwrMgt then { ap with vmPsSta := (ap.vmPsSta + 65535) % 65536 } else ap
    let sta := wifiMacPwrsavePsqueueFlush { sta with nodePwrMgt := false }
    ({ ap with tim := wifiMacPwrsaveSetTim ap.tim sta.staAssocid false }, sta)

/-- `wifi_mac_pwrsave_recv_pspoll`, for the association id in the frame. -/
def wifiMacPwrsaveRecvPspoll (tim : TimVif) (sta : ApSta) (aid : Nat) : TimVif × ApSta :=
  if sta.staAssocid = 0 then (tim, sta)
  else if aid ≠ sta.staAssocid then (tim, sta)
  else
    let sent := wifiMacPwrsavePsqueueSend sta
    if sent.2 = 0 then (wifiMacPwrsaveSetTim tim sta.staAssocid false, sent.1)
    else (tim, sent.1)

def nstaCleanup (ap : ApVif) (sta : ApSta) : ApVif × ApSta :=
  let ap :=
    if sta.nodePwrMgt then { ap with vmPsSta := (ap.vmPsSta + 65535) % 65536 } else ap
  let sta := { sta with nodePwrMgt := false, nodeAref := false }
  let cleaned := wifiMacPwrsavePsqueueClean sta
  if cleaned.2 = 0 then (ap, cleaned.1)
  else ({ ap with tim := wifiMacPwrsaveSetTim ap.tim sta.staAssocid false }, cleaned.1)

/-- The start of `wifi_mac_TimeoutStations` for a station: its frames age when it is associated. -/
def ageFrames (tim : TimVif) (sta : ApSta) : TimVif × ApSta :=
  if sta.staAssocid = 0 then (tim, sta)
  else
    let aged := wifiMacPwrsavePsqueueAge sta
    if aged.2 ≠ 0 ∧ aged.1.staPstxqueue.length = 0 then
      (wifiMacPwrsaveSetTim tim sta.staAssocid false, aged.1)
    else (tim, aged.1)

end W522a.Ap
