import W522a.Lib.Run

/-!
The power state of the interfaces: what `wifi_mac_pwrsave_set_state` records, what it tells the
driver, and what the driver tells the chip.
-/

namespace W522a.Mac

/-- `enum wifinet_ps_state`, and `enum drv_ps_state` with it. -/
inductive PsState where
  | awake
  | fullSleep
  | networkSleep
  deriving DecidableEq, Repr

/-- `PS_ACTIVE` and `PS_DOZE` -/
inductive HalPower where
  | active
  | doze
  deriving DecidableEq, Repr

/-- `struct wifi_mac_pwrsave_t` of an interface: `enabled` says that `ips_sta_psmode` is not
`WIFINET_PWRSAVE_NONE`. -/
structure PsVif where
  ipsState : PsState
  enabled : Bool
  deriving DecidableEq, Repr

/-- The interfaces by number, and the calls of `awake`, `fullsleep` and `netsleep` of `drv_ops` and
of `phy_pwr_save_mode` so far, the last one first. -/
structure PsMac where
  vifs : Nat → PsVif
  drvOps : List (Nat × PsState)
  phyPwrSaveMode : List (Nat × HalPower)

/-- The flags that the driver looks at: `drv_scanning` and `aml_wifi_is_enable_rf_test`. -/
structure PsEnv where
  drvScanning : Bool
  rfTest : Bool
  deriving DecidableEq, Repr

/-- The table of `wifi_mac_pwrsave_set_state`. -/
def psAllows : PsState → PsState → Bool
  | .awake, newstate => newstate == .fullSleep
  | .networkSleep, newstate => newstate == .awake || newstate == .fullSleep
  | .fullSleep, newstate => newstate == .awake || newstate == .networkSleep

/-- `drv_pwrsave_set_state`: what it calls `drv_hal_setpower` with. -/
def drvPwrsaveSetState : PsState → List HalPower
  | .awake => [.active]
  | .fullSleep => [.doze]
  | .networkSleep => []

/-- `drv_pwrsave_awake`, `drv_pwrsave_fullsleep` and `drv_pwrsave_netsleep`. -/
def drvPwrsave (env : PsEnv) : PsState → List HalPower
  | .awake => drvPwrsaveSetState .awake
  | .fullSleep =>
    if env.rfTest then drvPwrsaveSetState .awake
    else if env.drvScanning then [] else drvPwrsaveSetState .fullSleep
  | .networkSleep => if env.drvScanning then [] else drvPwrsaveSetState .networkSleep

def wifiMacComPsSetState (env : PsEnv) (mac : PsMac) (newstate : PsState) (wnetVifId : Nat) :
    PsMac :=
  { mac with
    drvOps := (wnetVifId, newstate) :: mac.drvOps
    phyPwrSaveMode :=
      (drvPwrsave env newstate).reverse.map (fun power => (wnetVifId, power)) ++
        mac.phyPwrSaveMode }

def PsMac.setVif (mac : PsMac) (wnetVifId : Nat) (vif : PsVif) : PsMac :=
  { mac with vifs := Function.update mac.vifs wnetVifId vif }

/-- `wifi_mac_pwrsave_set_state`, and its `status`. -/
def wifiMacPwrsaveSetState (env : PsEnv) (mac : PsMac) (wnetVifId : Nat) (newstate : PsState) :
    PsMac × Bool :=
  let vif := mac.vifs wnetVifId
  if !vif.enabled then (mac, false)
  else
    let status := psAllows vif.ipsState newstate
    let mac := if status then mac.setVif wnetVifId { vif with ipsState := newstate } else mac
    (wifiMacComPsSetState env mac newstate wnetVifId, status)

/-- A request for an interface, or a change of its power save mode. -/
inductive PsEvent where
  | setState (wnetVifId : Nat) (newstate : PsState) (env : PsEnv)
  | setMode (wnetVifId : Nat) (enabled : Bool)

def psStep (mac : PsMac) : PsEvent → PsMac
  | .setState wnetVifId newstate env => (wifiMacPwrsaveSetState env mac wnetVifId newstate).1
  | .setMode wnetVifId enabled =>
    mac.setVif wnetVifId { mac.vifs wnetVifId with enabled := enabled }

/-- The interfaces as `wifi_mac_pwrsave_vattach` leaves them, with some power save modes. -/
def psAttached (enabled : Nat → Bool) : PsMac where
  vifs wnetVifId := ⟨.awake, enabled wnetVifId⟩
  drvOps := []
  phyPwrSaveMode := []

/-- The state that the driver was told last for an interface; it is awake before it is told any. -/
def lastCommanded (mac : PsMac) (wnetVifId : Nat) : PsState :=
  ((mac.drvOps.find? (·.1 == wnetVifId)).map Prod.snd).getD .awake

/-- What is recorded of every interface is what the driver was told. -/
def PsAgrees (mac : PsMac) : Prop :=
  ∀ wnetVifId, lastCommanded mac wnetVifId = (mac.vifs wnetVifId).ipsState

/-- A request that the table rejects has the chip told nothing. -/
def PsSpares (mac : PsMac) : PsEvent → Prop
  | .setState wnetVifId newstate env =>
    psAllows (mac.vifs wnetVifId).ipsState newstate = false →
      (psStep mac (.setState wnetVifId newstate env)).phyPwrSaveMode = mac.phyPwrSaveMode
  | .setMode _ _ => True

/-- The request is for an interface without power save, or the table allows it, or it repeats a
state of sleep of which the driver tells the chip nothing. -/
def PsOrderly (mac : PsMac) : PsEvent → Prop
  | .setState wnetVifId newstate env =>
    (mac.vifs wnetVifId).enabled = false ∨
      psAllows (mac.vifs wnetVifId).ipsState newstate = true ∨
      ((mac.vifs wnetVifId).ipsState = newstate ∧
        (newstate = .networkSleep ∨
          newstate = .fullSleep ∧ env.drvScanning = true ∧ env.rfTest = false))
  | .setMode _ _ => True

section Commands

variable {mac : PsMac} {env : PsEnv} {wnetVifId other : Nat} {newstate : PsState}

@[simp] theorem PsMac.setVif_vifs (mac : PsMac) (wnetVifId : Nat) (vif : PsVif) :
    (mac.setVif wnetVifId vif).vifs = Function.update mac.vifs wnetVifId vif := rfl

@[simp] theorem lastCommanded_setVif (mac : PsMac) (wnetVifId : Nat) (vif : PsVif) :
    lastCommanded (mac.setVif wnetVifId vif) = lastCommanded mac := rfl

private theorem lastCommanded_com (env : PsEnv) (mac : PsMac) (newstate : PsState)
    (wnetVifId : Nat) :
    lastCommanded (wifiMacComPsSetState env mac newstate wnetVifId) =
      Function.update (lastCommanded mac) wnetVifId newstate := by
  funext other
  unfold lastCommanded wifiMacComPsSetState
  rw [List.find?_cons]
  by_cases same : wnetVifId = other
  · simp [same]
  · rw [Function.update_of_ne (Ne.symm same), beq_false_of_ne same]

private theorem drvPwrsave_eq_nil : drvPwrsave env newstate = [] ↔
    newstate = .networkSleep ∨
      newstate = .fullSleep ∧ env.drvScanning = true ∧ env.rfTest = false := by
  obtain ⟨drvScanning, rfTest⟩ := env
  cases newstate <;> cases drvScanning <;> cases rfTest <;> decide

private theorem setState_disabled (disabled : (mac.vifs wnetVifId).enabled = false) :
    wifiMacPwrsaveSetState env mac wnetVifId newstate = (mac, false) := by
  unfold wifiMacPwrsaveSetState
  rw [if_pos (by simp [disabled])]

/-- A request of an interface with power save goes to the driver, whatever the table says. -/
theorem setState_enabled (env : PsEnv) (newstate : PsState)
    (enabled : (mac.vifs wnetVifId).enabled = true) :
    lastCommanded (wifiMacPwrsaveSetState env mac wnetVifId newstate).1 =
        Function.update (lastCommanded mac) wnetVifId newstate ∧
      (∀ other, ((wifiMacPwrsaveSetState env mac wnetVifId newstate).1.vifs other).ipsState =
        if other = wnetVifId ∧ psAllows (mac.vifs wnetVifId).ipsState newstate = true
        then newstate else (mac.vifs other).ipsState) ∧
      ((wifiMacPwrsaveSetState env mac wnetVifId newstate).1.phyPwrSaveMode = mac.phyPwrSaveMode ↔
        drvPwrsave env newstate = []) := by
  unfold wifiMacPwrsaveSetState
  dsimp only
  rw [if_neg (by simp [enabled])]
  cases allowed : psAllows (mac.vifs wnetVifId).ipsState newstate with
  | true =>
    refine ⟨?_, fun other => ?_, ?_⟩
    · exact lastCommanded_com ..
    · by_cases same : other = wnetVifId
      · simp [wifiMacComPsSetState, same]
      · simp [wifiMacComPsSetState, same]
    · simp [wifiMacComPsSetState, PsMac.setVif]
  | false =>
    refine ⟨?_, fun other => ?_, ?_⟩
    · exact lastCommanded_com ..
    · simp [wifiMacComPsSetState]
    · simp [wifiMacComPsSetState]

end Commands

section Agreement

variable {mac : PsMac} {event : PsEvent}

/-- A request for an interface with power save keeps the agreement when the table allows it or it
asks for the state that is recorded. -/
theorem agrees_setState {env : PsEnv} {wnetVifId : Nat} {newstate : PsState}
    (agrees : PsAgrees mac) (enabled : (mac.vifs wnetVifId).enabled = true) :
    PsAgrees (psStep mac (.setState wnetVifId newstate env)) ↔
      psAllows (mac.vifs wnetVifId).ipsState newstate = true ∨
        (mac.vifs wnetVifId).ipsState = newstate := by
  obtain ⟨commanded, recorded, -⟩ := setState_enabled env newstate enabled
  unfold PsAgrees psStep
  simp only [commanded, recorded]
  constructor
  · intro same
    have here := same wnetVifId
    rw [Function.update_self] at here
    by_cases allowed : psAllows (mac.vifs wnetVifId).ipsState newstate = true
    · exact Or.inl allowed
    · rw [if_neg fun both => allowed both.2] at here
      exact Or.inr here.symm
  · intro orderly other
    by_cases same : other = wnetVifId
    · subst same
      rw [Function.update_self]
      split
      · rfl
      · next rejected =>
        exact (orderly.resolve_left fun allowed => rejected ⟨rfl, allowed⟩).symm
    · rw [Function.update_of_ne same, if_neg fun both => same both.1]
      exact agrees other

private theorem psStep_iff (agrees : PsAgrees mac) :
    PsAgrees (psStep mac event) ∧ PsSpares mac event ↔ PsOrderly mac event := by
  cases event with
  | setMode wnetVifId enabled =>
    refine iff_of_true ⟨fun other => ?_, trivial⟩ trivial
    unfold psStep
    rw [lastCommanded_setVif, agrees other, PsMac.setVif_vifs]
    by_cases same : other = wnetVifId
    · rw [same, Function.update_self]
    · rw [Function.update_of_ne same]
  | setState wnetVifId newstate env =>
    cases enabled : (mac.vifs wnetVifId).enabled with
    | false =>
      have left : psStep mac (.setState wnetVifId newstate env) = mac :=
        congrArg Prod.fst (setState_disabled enabled)
      refine iff_of_true ⟨?_, fun _ => ?_⟩ (Or.inl enabled)
      · rw [left]
        exact agrees
      · rw [left]
    | true =>
      obtain ⟨-, -, silent⟩ := setState_enabled env newstate enabled
      rw [agrees_setState agrees enabled]
      simp only [PsSpares, PsOrderly, psStep, silent, drvPwrsave_eq_nil, enabled]
      cases allowed : psAllows (mac.vifs wnetVifId).ipsState newstate with
      | true => simp
      | false => simp

end Agreement

/-- Over a run, the driver is told what is recorded and the chip is spared what the table rejects
exactly when every request is orderly. -/
theorem power_state_iff (enabled : Nat → Bool) (events : List PsEvent) :
    Machine.Along psStep
        (fun mac event => PsAgrees (psStep mac event) ∧ PsSpares mac event)
        (psAttached enabled) events ↔
      Machine.Along psStep PsOrderly (psAttached enabled) events := by
  have initial : PsAgrees (psAttached enabled) := fun _ => rfl
  have step : ∀ mac event, PsAgrees mac →
      (PsAgrees (psStep mac event) ∧ PsSpares mac event ↔ PsOrderly mac event) :=
    fun _ _ agrees => psStep_iff agrees
  exact Machine.along_congr step (fun _ _ _ after => after.1) initial

/-- An interface that is awake is asked to sleep in the network: the driver is told so, and nothing
is recorded. -/
theorem power_state_parts :
    ¬ Machine.Along psStep
      (fun mac event => PsAgrees (psStep mac event) ∧ PsSpares mac event)
      (psAttached fun _ => true) [.setState 0 .networkSleep ⟨false, false⟩] := by
  intro holds
  have here := holds.1.1 0
  revert here
  decide

end W522a.Mac
