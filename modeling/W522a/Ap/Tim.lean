import W522a.Common
import W522a.Lib.Bitmap
import W522a.Lib.Run

/-!
The traffic indication map of an access point: the bitmap of the stations with buffered frames, its
encoding in the beacon, and the decoder of a station.
-/

namespace W522a.Ap

@[simp] abbrev wifinetAidMax : Nat := 2007

def wifinetAid (associd : Nat) : Nat := associd &&& 0x3fff

theorem wifinetAid_eq (associd : Nat) : wifinetAid associd = associd % 16384 :=
  Nat.and_two_pow_sub_one_eq_mod associd 14

/-- The bitmap of an interface: `timUpdate` is `WIFINET_F_TIMUPDATE`, and the length of the list
`vm_tim_len`. -/
structure TimVif where
  vmMaxAid : Nat
  vmTimBitmap : List Nat
  vmPsPending : Nat
  timUpdate : Bool
  deriving DecidableEq, Repr

@[simp] abbrev wifinetAidDef : Nat := 17

/-- The association ids of an interface, as `wifi_mac_sta_vattach` bounds them. -/
def wifiMacStaVattach (vmMaxAid : Nat) : Nat :=
  if vmMaxAid = 0 then wifinetAidDef
  else if wifinetAidMax < vmMaxAid then wifinetAidMax else vmMaxAid

def wifiMacPwrsaveLatevattach (vmMaxAid : Nat) : TimVif where
  vmMaxAid := vmMaxAid
  vmTimBitmap := List.replicate ((vmMaxAid + 7) / 8) 0
  vmPsPending := 0
  timUpdate := false

/-- `wifi_mac_pwrsave_set_tim` for the association id of a station. -/
def wifiMacPwrsaveSetTim (vif : TimVif) (associd : Nat) (set : Bool) : TimVif :=
  let aid := wifinetAid associd
  if vif.vmMaxAid ≤ aid then vif
  else if set = Bitmap.isset 8 vif.vmTimBitmap aid then vif
  else if set then
    { vif with
      vmTimBitmap := Bitmap.setbit 8 vif.vmTimBitmap aid
      vmPsPending := (vif.vmPsPending + 1) % 65536
      timUpdate := true }
  else
    { vif with
      vmTimBitmap := Bitmap.clrbit 8 vif.vmTimBitmap aid
      vmPsPending := (vif.vmPsPending + 65535) % 65536
      timUpdate := true }

/-- `struct wifi_mac_tim_ie` with the bytes of its bitmap. -/
structure TimIe where
  timLen : Nat
  timCount : Nat
  timPeriod : Nat
  timBitctl : Nat
  timBitmap : List Nat
  deriving DecidableEq, Repr

/-- The element in the beacon of an interface. -/
structure TimBeacon where
  vif : TimVif
  boTimLen : Nat
  tie : TimIe
  deriving DecidableEq, Repr

/-- The element that `wifi_mac_beacon_init` writes. -/
def timInit (vif : TimVif) (vmDtimPeriod : Nat) : TimBeacon where
  vif := vif
  boTimLen := 1
  tie := ⟨4, 0, vmDtimPeriod, 0, [0]⟩

def even (value : Nat) : Nat := value - value % 2

/-- `timoff`: where the first byte with a bit is, or 128. -/
def timOffset (bitmap : List Nat) : Nat :=
  match (List.range bitmap.length).find? fun index => bitmap.getD index 0 ≠ 0 with
  | none => 128
  | some index => even index

/-- The loop that looks for the last byte with a bit. It does not get below 0, since it starts from
there only when one of the first two bytes has a bit. -/
def timLast (bitmap : List Nat) (timoff : Nat) : Nat → Nat
  | 0 => 0
  | index + 1 =>
    if index + 1 < timoff then index + 1
    else if bitmap.getD (index + 1) 0 ≠ 0 then index + 1
    else timLast bitmap timoff index

/-- `timoff` and `timlen`, unless the code goes to `tim_done`. -/
def timSlice (vif : TimVif) : Option (Nat × Nat) :=
  if vif.vmPsPending ≠ 0 then
    let timoff := timOffset vif.vmTimBitmap
    if vif.vmTimBitmap.length = 0 then none
    else
      let last := timLast vif.vmTimBitmap timoff (vif.vmTimBitmap.length - 1)
      some (timoff, (1 + last + 2 ^ 32 - timoff) % 2 ^ 32)
  else some (0, 1)

/-- The part of `_wifi_mac_beacon_update` that renews the bitmap of the element. -/
def timRenew (beacon : TimBeacon) : TimBeacon :=
  if !beacon.vif.timUpdate then beacon
  else
    match timSlice beacon.vif with
    | none => beacon
    | some (timoff, timlen) =>
      let beacon :=
        if timlen ≠ beacon.boTimLen then
          { beacon with
            boTimLen := timlen % 65536
            tie := { beacon.tie with timLen := (3 + timlen) % 256, timBitctl := timoff % 256 } }
        else beacon
      { beacon with
        vif := { beacon.vif with timUpdate := false }
        tie := { beacon.tie with
          timBitmap := (beacon.vif.vmTimBitmap.drop timoff).take beacon.boTimLen } }

/-- The part of `_wifi_mac_beacon_update` that counts down to the next delivery of multicast frames;
`backup` is `txlist_backup_qcnt`. -/
def timCountDown (tie : TimIe) (backup : Nat) : TimIe :=
  let count := if tie.timCount = 0 then (tie.timPeriod + 255) % 256 else tie.timCount - 1
  let delivery := backup ≠ 0 ∧ (count = 0 ∨ tie.timPeriod = 1)
  { tie with
    timCount := count
    timBitctl := even tie.timBitctl + if delivery then 1 else 0 }

/-- The traffic indication section of `_wifi_mac_beacon_update`. -/
def timUpdate (beacon : TimBeacon) (backup : Nat) : TimBeacon :=
  let beacon := timRenew beacon
  { beacon with tie := timCountDown beacon.tie backup }

/-- The test of `wifi_mac_recv_beacon` for traffic of a station. -/
def timReports (tie : TimIe) (associd : Nat) : Bool :=
  let aid := wifinetAid associd
  let ix := aid / 8
  let min := even tie.timBitctl
  decide (min ≤ ix) && decide (ix + 4 ≤ tie.timLen + min) &&
    (tie.timBitmap.getD (ix - min) 0).testBit (aid % 8)

/-- What happens to the bitmap and the beacon. -/
inductive TimEvent where
  | setTim (associd : Nat) (set : Bool)
  | update (backup : Nat)
  deriving DecidableEq, Repr

def timStep (beacon : TimBeacon) : TimEvent → TimBeacon
  | .setTim associd set =>
    { beacon with vif := wifiMacPwrsaveSetTim beacon.vif associd set }
  | .update backup => timUpdate beacon backup

/-- The station decodes what the access point means, for every association id. -/
def TimAgrees (beacon : TimBeacon) : Prop :=
  ∀ associd, timReports beacon.tie associd =
    Bitmap.isset 8 beacon.vif.vmTimBitmap (wifinetAid associd)

end W522a.Ap
