import Mathlib.Order.Nat
import W522a.Mac.SaQuery

/-!
The procedures that unprotected frames start, followed from outside: how many queries of each have
gone unanswered, and what the interface may do about its links.
-/

namespace W522a.Mac

/-- A procedure that is running: the retries since its first frame, and the last query. -/
structure Procedure where
  unanswered : Nat
  last : UInt16
  deriving DecidableEq, Repr

structure SaWatch where
  vif : SaVif
  /-- The procedure that runs with the station of an address. -/
  running : Nat → Option Procedure

/-- What an event means for the procedure of an address, with the query that it sent there. -/
def watchStep (running : Option Procedure) (addr : Nat) (query : Option UInt16) :
    SaEvent → Option Procedure
  | .unprotected _ _ _ =>
    match query with
    | none => running
    | some identifier =>
      some ⟨(running.map Procedure.unanswered).getD 0, identifier⟩
  | .timeout =>
    match running, query with
    | some procedure, some identifier => some ⟨procedure.unanswered + 1, identifier⟩
    | running, _ => running
  | .response sender identifier =>
    match running with
    | none => none
    | some procedure =>
      if sender = addr ∧ identifier = procedure.last then none else some procedure
  | _ => running

/-- The links of an interface can be used. A station that has queued the switch to a scan has
given its link up. -/
def SaVif.live (vif : SaVif) : Prop :=
  vif.opmode = .sta → vif.connected = true ∧ vif.smSwitch = false

/-- The link with the station of an address is up. -/
def SaVif.up (vif : SaVif) (addr : Nat) : Prop :=
  vif.live ∧ addr ∈ vif.stations.map SaStation.staMacaddr

instance (vif : SaVif) : Decidable vif.live := inferInstanceAs (Decidable (_ → _))

instance (vif : SaVif) (addr : Nat) : Decidable (vif.up addr) :=
  inferInstanceAs (Decidable (_ ∧ _))

/-- A procedure ends with its link. -/
def SaWatch.step (watch : SaWatch) (event : SaEvent) : SaWatch where
  vif := (watch.vif.step event).1
  running addr :=
    if (watch.vif.step event).1.up addr then
      watchStep (watch.running addr) addr ((watch.vif.step event).2 addr) event
    else none

/-- A link is given up at the end of a procedure whose retries all went unanswered, for nothing
else that an unprotected frame, a response or the timer does. A response to the last query ends
the procedure and gives all retries back. -/
structure SaLaw (watch : SaWatch) (event : SaEvent) : Prop where
  kept : ∀ addr, event ≠ .linkDown addr → watch.vif.up addr →
    ¬ (watch.step event).vif.up addr →
    event = .timeout ∧ ∃ procedure, watch.running addr = some procedure ∧
      (saTryMax watch.vif.opmode).toNat ≤ procedure.unanswered
  answered : ∀ addr procedure, event = .response addr procedure.last → watch.vif.up addr →
    watch.running addr = some procedure →
    ∀ sta ∈ (watch.step event).vif.stations, sta.staMacaddr = addr →
      sta.confirmDeauth = false ∧ sta.saQueryTryCount = 0

/-- An authentication frame that moves a connected station to another state. -/
def restarts (vif : SaVif) (isBmc : Bool) : UnprotectedFrame → Prop
  | .auth denied authType status =>
    vif.opmode = .sta ∧ isBmc = false ∧ denied = false ∧ vif.counterm = false ∧
      vif.authmode = .openSystem ∧
      (if vif.privacy ∧ ¬ vif.wpa then status ≠ 0
        else authType ≠ 3 ∧ status = 53 ∧ vif.keymgmtSae)
  | _ => False

/-- The frames and responses that the procedure can take: no authentication frame that moves a
station that is up, and no response to the query that the sequence number wraps at. -/
def SaSound (watch : SaWatch) : SaEvent → Prop
  | .unprotected addr isBmc frame => watch.vif.up addr → ¬ restarts watch.vif isBmc frame
  | .response addr identifier => watch.vif.live →
    ∀ sta ∈ watch.vif.stations, sta.staMacaddr = addr → sta.confirmDeauth = true →
      sta.saQuerySeq = 0 → identifier ≠ 0xFFFF
  | _ => True

/-- A record and the procedure that is followed for it. -/
def Agrees (opmode : SaOpmode) (sta : SaStation) : Option Procedure → Prop
  | none => sta.confirmDeauth = false ∧ sta.saQueryTryCount = 0
  | some procedure => sta.confirmDeauth = true ∧
      sta.saQueryTryCount.toNat = procedure.unanswered ∧
      sta.saQuerySeq = procedure.last + 1 ∧ sta.saQueryTryCount ≤ saTryMax opmode

structure SaWatch.Inv (watch : SaWatch) : Prop where
  single : watch.vif.opmode = .sta → watch.vif.stations.length ≤ 1
  distinct : Keyed.Distinct SaStation.staMacaddr watch.vif.stations
  gone : ∀ addr, ¬ watch.vif.up addr → watch.running addr = none
  agrees : watch.vif.live → ∀ sta ∈ watch.vif.stations,
    Agrees watch.vif.opmode sta (watch.running sta.staMacaddr)

section Frames

variable {vif : SaVif} {addr : Nat} {isBmc : Bool} {frame : UnprotectedFrame} {sta : SaStation}

theorem topSmScan_stations :
    (topSmScan vif).stations.map SaStation.staMacaddr = vif.stations.map SaStation.staMacaddr := by
  unfold topSmScan
  split
  · rw [List.map_map]
    rfl
  · rfl

theorem topSmScan_opmode : (topSmScan vif).opmode = vif.opmode := by
  unfold topSmScan
  split <;> rfl

theorem topSmScan_hostap (hostap : vif.opmode = .hostap) : topSmScan vif = vif := by
  unfold topSmScan
  rw [hostap]
  exact if_neg fun both => nomatch both.1

theorem topSmScan_connected (station : vif.opmode = .sta) : (topSmScan vif).connected = false := by
  unfold topSmScan
  split
  · rfl
  · next stays => exact Bool.eq_false_iff.mpr fun connected => stays ⟨station, connected⟩

structure SameLinks (vif next : SaVif) : Prop where
  opmode : next.opmode = vif.opmode
  connected : next.connected = vif.connected
  smSwitch : next.smSwitch = vif.smSwitch
  stations : next.stations = vif.stations

theorem SameLinks.refl : SameLinks vif vif := ⟨rfl, rfl, rfl, rfl⟩

theorem SameLinks.live {next : SaVif} (same : SameLinks vif next) : next.live ↔ vif.live := by
  unfold SaVif.live
  rw [same.opmode, same.connected, same.smSwitch]

theorem SameLinks.up {next : SaVif} (same : SameLinks vif next) : next.up addr ↔ vif.up addr := by
  unfold SaVif.up
  rw [same.live, same.stations]

/-- An authentication frame moves a connected station exactly when it says so. -/
theorem wifiMacRecvAuth_spec (denied : Bool) (authType status : Nat) (station : vif.opmode = .sta)
    (single : isBmc = false) :
    (restarts vif isBmc (.auth denied authType status) →
      (wifiMacRecvAuth vif denied authType status).opmode = .sta ∧
        (wifiMacRecvAuth vif denied authType status).connected = false) ∧
      (¬ restarts vif isBmc (.auth denied authType status) →
        SameLinks vif (wifiMacRecvAuth vif denied authType status)) := by
  have outcome : wifiMacRecvAuth vif denied authType status =
      if denied ∨ vif.counterm then vif
      else if vif.privacy ∧ ¬ vif.wpa ∧ vif.authmode = .shared ∧ status = 13 then
        { vif with authmode := .openSystem }
      else if vif.privacy ∧ ¬ vif.wpa ∧ vif.authmode = .openSystem ∧ status ≠ 0 then topSmScan vif
      else if authType ≠ 3 ∧ status ≠ 0 then wifiMacStatusCodeHandle vif status
      else vif := rfl
  have moves : restarts vif isBmc (.auth denied authType status) ↔
      vif.opmode = .sta ∧ isBmc = false ∧ denied = false ∧ vif.counterm = false ∧
        vif.authmode = .openSystem ∧
        (if vif.privacy ∧ ¬ vif.wpa then status ≠ 0
          else authType ≠ 3 ∧ status = 53 ∧ vif.keymgmtSae) := Iff.rfl
  rw [outcome]
  split
  · next quiet =>
    refine ⟨fun restart => ?_, fun _ => .refl⟩
    obtain ⟨-, -, allowed, running, -⟩ := moves.mp restart
    rcases quiet with denied | counterm
    · exact absurd denied (Bool.eq_false_iff.mp allowed)
    · exact absurd counterm (Bool.eq_false_iff.mp running)
  · next heard =>
    obtain ⟨allowed, running⟩ := not_or.mp heard
    split
    · next shared =>
      refine ⟨fun restart => ?_, fun _ => ⟨rfl, rfl, rfl, rfl⟩⟩
      obtain ⟨-, -, -, -, openSystem, -⟩ := moves.mp restart
      exact absurd (openSystem.symm.trans shared.2.2.1) (by decide)
    · split
      · next scan =>
        refine ⟨fun _ => ⟨topSmScan_opmode.trans station, topSmScan_connected station⟩,
          fun stays => absurd (moves.mpr ⟨station, single, Bool.eq_false_iff.mpr allowed,
            Bool.eq_false_iff.mpr running, scan.2.2.1, ?_⟩) stays⟩
        rw [if_pos ⟨scan.1, scan.2.1⟩]
        exact scan.2.2.2
      · next noScan =>
        split
        · next failed =>
          unfold wifiMacStatusCodeHandle
          split
          · next pmkid =>
            refine ⟨fun _ => ⟨station, rfl⟩, fun stays => absurd (moves.mpr ⟨station, single,
              Bool.eq_false_iff.mpr allowed, Bool.eq_false_iff.mpr running, pmkid.2.2, ?_⟩) stays⟩
            split
            · exact failed.2
            · exact ⟨failed.1, pmkid.1, pmkid.2.1⟩
          · next other =>
            refine ⟨fun restart => ?_, fun _ => ?_⟩
            · obtain ⟨-, -, -, -, openSystem, why⟩ := moves.mp restart
              split at why
              · next wep => exact absurd ⟨wep.1, wep.2, openSystem, why⟩ noScan
              · exact absurd ⟨why.2.1, why.2.2, openSystem⟩ other
            · split
              · exact ⟨rfl, rfl, rfl, rfl⟩
              · exact .refl
        · next passed =>
          refine ⟨fun restart => ?_, fun _ => .refl⟩
          obtain ⟨-, -, -, -, openSystem, why⟩ := moves.mp restart
          split at why
          · next wep => exact absurd ⟨wep.1, wep.2, openSystem, why⟩ noScan
          · exact absurd ⟨why.1, by rw [why.2.1]; decide⟩ passed

variable (vif addr isBmc frame) in
/-- What a frame does: nothing, it starts a procedure, or it authenticates. -/
theorem wifiMacInput_cases :
    wifiMacInput vif addr isBmc frame = (vif, noQueries) ∨
      (∃ sta, Keyed.find SaStation.staMacaddr vif.stations addr = some sta ∧
        wifiMacInput vif addr isBmc frame = startConfirm vif sta) ∨
      ∃ denied authType status, frame = .auth denied authType status ∧ vif.opmode = .sta ∧
        isBmc = false ∧ vif.connected = true ∧
        Keyed.find SaStation.staMacaddr vif.stations addr ≠ none ∧
        wifiMacInput vif addr isBmc frame =
          (wifiMacRecvAuth vif denied authType status, noQueries) := by
  unfold wifiMacInput
  cases found : Keyed.find SaStation.staMacaddr vif.stations addr with
  | none => exact Or.inl rfl
  | some sta =>
    dsimp only
    by_cases connected : vif.connected = true
    · rw [if_pos connected]
      unfold wifiMacUnprotectedMgmtPktHandle wifiMacRecvMgmt
      cases mode : vif.opmode with
      | sta =>
        dsimp only
        by_cases dropped : isBmc ∧ frame ≠ .beacon
        · rw [if_pos dropped]
          exact Or.inl rfl
        · rw [if_neg dropped]
          cases frame with
          | deauth => exact Or.inr (Or.inl ⟨sta, rfl, rfl⟩)
          | disassoc => exact Or.inr (Or.inl ⟨sta, rfl, rfl⟩)
          | auth denied authType status =>
            have single : isBmc = false :=
              Bool.eq_false_iff.mpr fun group => dropped ⟨group, UnprotectedFrame.noConfusion⟩
            refine Or.inr (Or.inr ⟨denied, authType, status, rfl, rfl, single, connected,
              Option.some_ne_none sta, ?_⟩)
            dsimp only
            rw [mode]
          | action robust =>
            cases robust <;> simp [mode]
          | assocReq | reassocReq | beacon | other => simp [mode]
      | hostap =>
        cases frame with
        | auth _ _ _ | assocReq | reassocReq => exact Or.inr (Or.inl ⟨sta, rfl, rfl⟩)
        | _ => exact Or.inl rfl
    · rw [if_neg connected]
      exact Or.inl rfl

private theorem wifiMacRecvAuth_addresses {denied : Bool} {authType status : Nat} :
    (wifiMacRecvAuth vif denied authType status).stations.map SaStation.staMacaddr =
      vif.stations.map SaStation.staMacaddr := by
  unfold wifiMacRecvAuth wifiMacStatusCodeHandle
  split
  · rfl
  · split
    · rfl
    · split
      · exact topSmScan_stations
      · split
        · split
          · rfl
          · split <;> rfl
        · rfl

private theorem find_of_address (linked : addr ∈ vif.stations.map SaStation.staMacaddr) :
    ∃ sta, Keyed.find SaStation.staMacaddr vif.stations addr = some sta := by
  refine Option.ne_none_iff_exists'.mp fun missing => ?_
  exact Keyed.absent_of_find missing linked

theorem wifiMacInput_restarts (up : vif.up addr) (moves : restarts vif isBmc frame) :
    ¬ (wifiMacInput vif addr isBmc frame).1.live := by
  cases frame with
  | auth denied authType status =>
    have station : vif.opmode = .sta := moves.1
    have single : isBmc = false := moves.2.1
    obtain ⟨connected, -⟩ := up.1 station
    obtain ⟨sta, found⟩ := find_of_address up.2
    have taken : wifiMacInput vif addr isBmc (.auth denied authType status) =
        (wifiMacRecvAuth vif denied authType status, noQueries) := by
      unfold wifiMacInput wifiMacUnprotectedMgmtPktHandle wifiMacRecvMgmt
      rw [found, single]
      simp [station, connected]
    obtain ⟨mode, left⟩ := (wifiMacRecvAuth_spec _ _ _ station single).1 moves
    rw [taken]
    intro live
    exact absurd (live mode).1 (by rw [left]; exact Bool.false_ne_true)
  | _ => exact moves.elim

/-- What another frame leaves: the links as they were, a procedure that it started, or a link
that had been given up before. -/
theorem wifiMacInput_sound (quiet : vif.up addr → ¬ restarts vif isBmc frame) :
    (SameLinks vif (wifiMacInput vif addr isBmc frame).1 ∧
      (wifiMacInput vif addr isBmc frame).2 = noQueries) ∨
    (∃ sta, Keyed.find SaStation.staMacaddr vif.stations addr = some sta ∧
      wifiMacInput vif addr isBmc frame = startConfirm vif sta) ∨
    (¬ vif.live ∧ ¬ (wifiMacInput vif addr isBmc frame).1.live ∧
      (wifiMacInput vif addr isBmc frame).1.opmode = vif.opmode ∧
      (wifiMacInput vif addr isBmc frame).1.stations.map SaStation.staMacaddr =
        vif.stations.map SaStation.staMacaddr) := by
  rcases wifiMacInput_cases vif addr isBmc frame with
    nothing | starts | ⟨denied, authType, status, rfl, station, single, connected, found, taken⟩
  · rw [nothing]
    exact Or.inl ⟨.refl, rfl⟩
  · exact Or.inr (Or.inl starts)
  · obtain ⟨restarting, staying⟩ := wifiMacRecvAuth_spec denied authType status
      station single
    rw [taken]
    by_cases moves : restarts vif isBmc (.auth denied authType status)
    · have given : ¬ vif.live := by
        intro live
        refine quiet ⟨live, ?_⟩ moves
        obtain ⟨sta, here⟩ := Option.ne_none_iff_exists'.mp found
        exact List.mem_map.mpr ⟨sta, Keyed.mem_of_find here, Keyed.key_of_find here⟩
      obtain ⟨mode, left⟩ := restarting moves
      refine Or.inr (Or.inr ⟨given, fun live => ?_, mode.trans station.symm,
        wifiMacRecvAuth_addresses⟩)
      exact absurd (live mode).1 (by rw [left]; exact Bool.false_ne_true)
    · exact Or.inl ⟨staying moves, rfl⟩

theorem startConfirm_addresses :
    (startConfirm vif sta).1.stations.map SaStation.staMacaddr =
      vif.stations.map SaStation.staMacaddr := by
  unfold startConfirm
  split
  · rfl
  · exact Keyed.map_replace ..

theorem startConfirm_live : (startConfirm vif sta).1.live ↔ vif.live := by
  unfold startConfirm
  split <;> exact Iff.rfl

theorem startConfirm_opmode : (startConfirm vif sta).1.opmode = vif.opmode := by
  unfold startConfirm
  split <;> rfl

end Frames

section Step

variable {watch : SaWatch} {event : SaEvent}

/-- The invariant follows from the records whose link is up. -/
theorem SaWatch.Inv.of_agrees
    (single : (watch.vif.step event).1.opmode = .sta →
      (watch.vif.step event).1.stations.length ≤ 1)
    (distinct : Keyed.Distinct SaStation.staMacaddr (watch.vif.step event).1.stations)
    (agrees : (watch.vif.step event).1.live → ∀ sta ∈ (watch.vif.step event).1.stations,
      Agrees (watch.vif.step event).1.opmode sta
        (watchStep (watch.running sta.staMacaddr) sta.staMacaddr
          ((watch.vif.step event).2 sta.staMacaddr) event)) :
    (watch.step event).Inv := by
  refine ⟨single, distinct, fun addr down => if_neg down, fun live sta member => ?_⟩
  have up : (watch.vif.step event).1.up sta.staMacaddr := ⟨live, List.mem_map_of_mem member⟩
  have follows : (watch.step event).running sta.staMacaddr =
      watchStep (watch.running sta.staMacaddr) sta.staMacaddr
        ((watch.vif.step event).2 sta.staMacaddr) event := if_pos up
  rw [follows]
  exact agrees live sta member

variable (event) in
/-- The parts of the invariant that the addresses carry. -/
theorem SaWatch.Inv.addresses (inv : watch.Inv)
    (opmode : (watch.vif.step event).1.opmode = watch.vif.opmode)
    (same : (watch.vif.step event).1.stations.map SaStation.staMacaddr =
      watch.vif.stations.map SaStation.staMacaddr) :
    ((watch.vif.step event).1.opmode = .sta → (watch.vif.step event).1.stations.length ≤ 1) ∧
      Keyed.Distinct SaStation.staMacaddr (watch.vif.step event).1.stations := by
  constructor
  · intro station
    have count := congrArg List.length same
    rw [List.length_map, List.length_map] at count
    rw [count]
    exact inv.single (opmode ▸ station)
  · unfold Keyed.Distinct
    rw [same]
    exact inv.distinct

/-- The law for an event that takes no link down and is no response. -/
theorem SaLaw.of_up (kept : ∀ addr, event ≠ .linkDown addr → watch.vif.up addr →
      (watch.vif.step event).1.up addr)
    (other : ∀ addr identifier, event ≠ .response addr identifier) : SaLaw watch event where
  kept addr outside up down := absurd (kept addr outside up) down
  answered addr procedure response := absurd response (other addr procedure.last)

private theorem startConfirm_agrees {sta : SaStation} (inv : watch.Inv) {addr : Nat}
    (found : Keyed.find SaStation.staMacaddr watch.vif.stations addr = some sta)
    (live : watch.vif.live) {isBmc : Bool} {frame : UnprotectedFrame} :
    ∀ other ∈ (startConfirm watch.vif sta).1.stations, Agrees watch.vif.opmode other
      (watchStep (watch.running other.staMacaddr) other.staMacaddr
        ((startConfirm watch.vif sta).2 other.staMacaddr) (.unprotected addr isBmc frame)) := by
  have mine := inv.agrees live sta (Keyed.mem_of_find found)
  intro other member
  unfold startConfirm at member ⊢
  split at member
  · next flagged =>
    rw [if_pos flagged]
    exact inv.agrees live other member
  · next clear =>
    rw [if_neg clear]
    have quiet : watch.running sta.staMacaddr = none := by
      cases running : watch.running sta.staMacaddr with
      | none => rfl
      | some procedure =>
        rw [running] at mine
        exact absurd mine.1 clear
    rw [quiet] at mine
    rcases Keyed.mem_replace member with rfl | ⟨old, apart⟩
    · have asked : (if sta.staMacaddr = sta.staMacaddr then some sta.saQuerySeq else none) =
          some sta.saQuerySeq := if_pos rfl
      change Agrees _ _ (watchStep (watch.running sta.staMacaddr) sta.staMacaddr
        (if sta.staMacaddr = sta.staMacaddr then some sta.saQuerySeq else none) _)
      rw [asked, quiet]
      have none : sta.saQueryTryCount = 0 := mine.2
      refine ⟨rfl, ?_, rfl, ?_⟩
      · change sta.saQueryTryCount.toNat = 0
        rw [none]
        rfl
      · change sta.saQueryTryCount ≤ _
        rw [none]
        exact UInt16.le_iff_toNat_le.mpr (Nat.zero_le _)
    · have silent : (if other.staMacaddr = sta.staMacaddr then some sta.saQuerySeq else none) =
          none := if_neg apart
      dsimp only
      rw [silent]
      exact inv.agrees live other old

theorem unprotected_step (inv : watch.Inv) {addr : Nat} {isBmc : Bool}
    {frame : UnprotectedFrame} :
    (SaSound watch (.unprotected addr isBmc frame) ↔ SaLaw watch (.unprotected addr isBmc frame)) ∧
      (SaSound watch (.unprotected addr isBmc frame) →
        (watch.step (.unprotected addr isBmc frame)).Inv) := by
  have input : watch.vif.step (.unprotected addr isBmc frame) =
      wifiMacInput watch.vif addr isBmc frame := rfl
  refine ⟨⟨fun sound => ?_, fun law up moves => ?_⟩, fun sound => ?_⟩
  · refine .of_up (fun peer _ up => ?_) (fun _ _ => SaEvent.noConfusion)
    rw [input]
    rcases wifiMacInput_sound sound with ⟨same, -⟩ | ⟨sta, -, starts⟩ | ⟨given, -⟩
    · exact same.up.mpr up
    · rw [starts]
      refine ⟨startConfirm_live.mpr up.1, ?_⟩
      rw [startConfirm_addresses]
      exact up.2
    · exact absurd up.1 given
  · have down := wifiMacInput_restarts up moves
    obtain ⟨timeout, -⟩ := law.kept addr SaEvent.noConfusion up fun later => down later.1
    cases timeout
  · rcases wifiMacInput_sound sound with ⟨same, silent⟩ | ⟨sta, found, starts⟩ | ⟨-, down, mode, same⟩
    · obtain ⟨single, distinct⟩ := inv.addresses (.unprotected addr isBmc frame)
        same.opmode (congrArg _ same.stations)
      refine .of_agrees single distinct fun live sta member => ?_
      rw [input] at live member ⊢
      rw [same.opmode, silent]
      rw [same.stations] at member
      exact inv.agrees (same.live.mp live) sta member
    · have addresses := inv.addresses (.unprotected addr isBmc frame)
        (by rw [input, starts]; exact startConfirm_opmode)
        (by rw [input, starts]; exact startConfirm_addresses)
      refine .of_agrees addresses.1 addresses.2 fun live other member => ?_
      rw [input, starts] at live member ⊢
      rw [startConfirm_opmode]
      exact startConfirm_agrees inv found (startConfirm_live.mp live) other member
    · obtain ⟨single, distinct⟩ := inv.addresses (.unprotected addr isBmc frame) mode same
      exact .of_agrees single distinct fun live => absurd live down

private theorem recvSaQueryRsp_addresses {vif : SaVif} {addr : Nat} {identifier : UInt16} :
    (recvSaQueryRsp vif addr identifier).stations.map SaStation.staMacaddr =
      vif.stations.map SaStation.staMacaddr := by
  unfold recvSaQueryRsp
  split
  · rfl
  · split
    · exact Keyed.map_replace ..
    · rfl

private theorem recvSaQueryRsp_live {vif : SaVif} {addr : Nat} {identifier : UInt16} :
    (recvSaQueryRsp vif addr identifier).live ↔ vif.live := by
  unfold recvSaQueryRsp
  split
  · exact Iff.rfl
  · split <;> exact Iff.rfl

private theorem recvSaQueryRsp_opmode {vif : SaVif} {addr : Nat} {identifier : UInt16} :
    (recvSaQueryRsp vif addr identifier).opmode = vif.opmode := by
  unfold recvSaQueryRsp
  split
  · rfl
  · split <;> rfl

theorem identifier_iff {identifier saQuerySeq : UInt16} :
    (identifier.toNat : Int) = (saQuerySeq.toNat : Int) - 1 ↔
      saQuerySeq = identifier + 1 ∧ saQuerySeq ≠ 0 := by
  have small := identifier.toNat_lt
  have other := saQuerySeq.toNat_lt
  have next : (identifier + 1).toNat = (identifier.toNat + 1) % 65536 := UInt16.toNat_add ..
  have zero : (0 : UInt16).toNat = 0 := rfl
  rw [ne_eq, ← UInt16.toNat_inj, ← UInt16.toNat_inj, next, zero]
  omega

private theorem wrap_iff {identifier : UInt16} : identifier + 1 = 0 ↔ identifier = 0xFFFF := by
  have small := identifier.toNat_lt
  have next : (identifier + 1).toNat = (identifier.toNat + 1) % 65536 := UInt16.toNat_add ..
  have zero : (0 : UInt16).toNat = 0 := rfl
  have full : (0xFFFF : UInt16).toNat = 65535 := rfl
  rw [← UInt16.toNat_inj, ← UInt16.toNat_inj, next, zero, full]
  omega

/-- A record after a response: cleared by a match, or as it was. -/
theorem recvSaQueryRsp_member {vif : SaVif} {addr : Nat} {identifier : UInt16} {sta : SaStation}
    (distinct : Keyed.Distinct SaStation.staMacaddr vif.stations)
    (member : sta ∈ (recvSaQueryRsp vif addr identifier).stations) :
    ∃ old ∈ vif.stations, old.staMacaddr = sta.staMacaddr ∧
      sta = if old.staMacaddr = addr ∧ old.saQuerySeq = identifier + 1 ∧ old.saQuerySeq ≠ 0 then
        { old with confirmDeauth := false, saQueryTryCount := 0 } else old := by
  unfold recvSaQueryRsp at member
  split at member
  · next missing =>
    refine ⟨sta, member, rfl, (if_neg fun both => ?_).symm⟩
    exact Keyed.absent_of_find missing (both.1 ▸ List.mem_map_of_mem member)
  · next found there =>
    have key := Keyed.key_of_find there
    split at member
    · next hit =>
      rcases Keyed.mem_replace member with rfl | ⟨old, apart⟩
      · exact ⟨found, Keyed.mem_of_find there, rfl, (if_pos ⟨key, identifier_iff.mp hit⟩).symm⟩
      · exact ⟨sta, old, rfl, (if_neg fun both => apart (both.1.trans key.symm)).symm⟩
    · next missed =>
      refine ⟨sta, member, rfl, (if_neg fun both => missed ?_).symm⟩
      have mine : Keyed.find SaStation.staMacaddr vif.stations addr = some sta :=
        both.1 ▸ Keyed.find_of_mem distinct member
      have same : found = sta := Option.some.inj (there.symm.trans mine)
      rw [same]
      exact identifier_iff.mpr both.2

theorem response_step (inv : watch.Inv) {addr : Nat} {identifier : UInt16} :
    (SaSound watch (.response addr identifier) ↔ SaLaw watch (.response addr identifier)) ∧
      (SaSound watch (.response addr identifier) →
        (watch.step (.response addr identifier)).Inv) := by
  have links : ∀ peer, watch.vif.up peer → (recvSaQueryRsp watch.vif addr identifier).up peer := by
    intro peer up
    refine ⟨recvSaQueryRsp_live.mpr up.1, ?_⟩
    rw [recvSaQueryRsp_addresses]
    exact up.2
  refine ⟨⟨fun sound => ⟨fun peer _ up down => absurd (links peer up) down, ?_⟩, ?_⟩, ?_⟩
  · rintro peer procedure same up running sta member rfl
    obtain ⟨rfl, rfl⟩ := SaEvent.response.inj same
    obtain ⟨old, present, here, outcome⟩ := recvSaQueryRsp_member inv.distinct member
    have agrees := inv.agrees up.1 old present
    rw [here, running] at agrees
    obtain ⟨flagged, -, sequence, -⟩ := agrees
    have fresh : old.saQuerySeq ≠ 0 := fun wrapped =>
      sound up.1 old present here flagged wrapped (wrap_iff.mp (sequence.symm.trans wrapped))
    rw [outcome, if_pos ⟨here, sequence, fresh⟩]
    exact ⟨rfl, rfl⟩
  · intro law live sta member here flagged wrapped last
    have agrees := inv.agrees live sta member
    cases running : watch.running sta.staMacaddr with
    | none =>
      rw [running] at agrees
      exact absurd flagged (by rw [agrees.1]; exact Bool.false_ne_true)
    | some procedure =>
      rw [running] at agrees
      have final : identifier = procedure.last := by
        have next := agrees.2.2.1
        rw [wrapped] at next
        exact last.trans (wrap_iff.mp next.symm).symm
      have kept : sta ∈ (recvSaQueryRsp watch.vif addr identifier).stations := by
        have found : Keyed.find SaStation.staMacaddr watch.vif.stations addr = some sta :=
          here ▸ Keyed.find_of_mem inv.distinct member
        unfold recvSaQueryRsp
        rw [found]
        dsimp only
        rw [if_neg fun hit => (identifier_iff.mp hit).2 wrapped]
        exact member
      have cleared := law.answered sta.staMacaddr procedure (by rw [here, final])
        ⟨live, List.mem_map_of_mem member⟩ running sta kept rfl
      exact absurd flagged (by rw [cleared.1]; exact Bool.false_ne_true)
  · intro sound
    obtain ⟨single, distinct⟩ := inv.addresses (.response addr identifier)
      recvSaQueryRsp_opmode recvSaQueryRsp_addresses
    refine .of_agrees single distinct fun live sta member => ?_
    have before : watch.vif.live := recvSaQueryRsp_live.mp live
    obtain ⟨old, present, here, rfl⟩ := recvSaQueryRsp_member inv.distinct member
    have agrees := inv.agrees before old present
    rw [← here]
    have mode : (watch.vif.step (.response addr identifier)).1.opmode = watch.vif.opmode :=
      recvSaQueryRsp_opmode
    rw [mode]
    unfold watchStep
    cases running : watch.running old.staMacaddr with
    | none =>
      rw [running] at agrees
      split
      · exact ⟨rfl, rfl⟩
      · exact agrees
    | some procedure =>
      rw [running] at agrees
      by_cases answer : old.staMacaddr = addr ∧ identifier = procedure.last
      · have sequence : old.saQuerySeq = identifier + 1 := by rw [answer.2, agrees.2.2.1]
        have fresh : old.saQuerySeq ≠ 0 := fun wrapped =>
          sound before old present answer.1 agrees.1 wrapped
            (wrap_iff.mp (sequence.symm.trans wrapped))
        dsimp only
        rw [if_pos ⟨answer.1, sequence, fresh⟩, if_pos ⟨answer.1.symm, answer.2⟩]
        exact ⟨rfl, rfl⟩
      · have other : ¬ (old.staMacaddr = addr ∧ old.saQuerySeq = identifier + 1 ∧
            old.saQuerySeq ≠ 0) := by
          rintro ⟨mine, sequence, -⟩
          refine answer ⟨mine, ?_⟩
          have next := sequence.symm.trans agrees.2.2.1
          exact (UInt16.add_left_inj 1).mp next
        dsimp only
        rw [if_neg other, if_neg fun both => answer ⟨both.1.symm, both.2⟩]
        exact agrees

/-- What the timer leaves of a record whose link stays up, with its query. -/
theorem actTxStation_agrees {opmode : SaOpmode} {sta next : SaStation}
    {running : Option Procedure} (agrees : Agrees opmode sta running)
    (kept : actTxStation opmode sta = some next)
    (room : sta.confirmDeauth = true → sta.saQueryTryCount < saTryMax opmode) {addr : Nat} :
    Agrees opmode next (watchStep running addr
      (if sta.confirmDeauth then some sta.saQuerySeq else none) .timeout) := by
  cases running with
  | none =>
    obtain ⟨clear, none⟩ := agrees
    unfold actTxStation at kept
    rw [clear] at kept ⊢
    cases kept
    exact ⟨clear, none⟩
  | some procedure =>
    obtain ⟨flagged, count, sequence, -⟩ := agrees
    have short := room flagged
    have same : next = sta.retry := by
      unfold actTxStation at kept
      rw [if_pos flagged] at kept
      cases opmode with
      | sta => exact (Option.some.inj kept).symm
      | hostap =>
        dsimp only at kept
        rw [if_pos short] at kept
        exact (Option.some.inj kept).symm
    have below := UInt16.lt_iff_toNat_lt.mp short
    have bound : (saTryMax opmode).toNat ≤ 20 := by cases opmode <;> decide
    have counted : (sta.saQueryTryCount + 1).toNat = sta.saQueryTryCount.toNat + 1 := by
      rw [UInt16.toNat_add]
      exact Nat.mod_eq_of_lt (show sta.saQueryTryCount.toNat + 1 < 65536 by omega)
    rw [same, if_pos flagged]
    refine ⟨flagged, ?_, rfl, UInt16.le_iff_toNat_le.mpr ?_⟩
    · change (sta.saQueryTryCount + 1).toNat = procedure.unanswered + 1
      rw [counted, count]
    · change (sta.saQueryTryCount + 1).toNat ≤ _
      rw [counted]
      exact below

/-- The query that the timer sends to a linked station. -/
theorem flagged_query {stations : List SaStation}
    (distinct : Keyed.Distinct SaStation.staMacaddr stations) {sta : SaStation}
    (member : sta ∈ stations) :
    (Keyed.find SaStation.staMacaddr (stations.filter SaStation.confirmDeauth)
        sta.staMacaddr).map SaStation.saQuerySeq =
      if sta.confirmDeauth then some sta.saQuerySeq else none := by
  have narrow : Keyed.Distinct SaStation.staMacaddr (stations.filter SaStation.confirmDeauth) :=
    List.Nodup.sublist (List.filter_sublist.map _) distinct
  split
  · next flagged =>
    rw [Keyed.find_of_mem narrow (List.mem_filter.mpr ⟨member, flagged⟩)]
    rfl
  · next clear =>
    cases found : Keyed.find SaStation.staMacaddr (stations.filter SaStation.confirmDeauth)
        sta.staMacaddr with
    | none => rfl
    | some other =>
      obtain ⟨present, flagged⟩ := List.mem_filter.mp (Keyed.mem_of_find found)
      have mine := Keyed.find_of_mem distinct present
      rw [Keyed.key_of_find found, Keyed.find_of_mem distinct member] at mine
      exact absurd flagged (Option.some.inj mine ▸ clear)

theorem actTxStation_address {opmode : SaOpmode} {sta next : SaStation}
    (kept : actTxStation opmode sta = some next) : next.staMacaddr = sta.staMacaddr := by
  unfold actTxStation at kept
  split at kept
  · split at kept
    · cases kept
      rfl
    · split at kept
      · cases kept
        rfl
      · cases kept
  · cases kept
    rfl

private theorem actTxStation_sublist {opmode : SaOpmode} (stations : List SaStation) :
    ((stations.filterMap (actTxStation opmode)).map SaStation.staMacaddr).Sublist
      (stations.map SaStation.staMacaddr) := by
  induction stations with
  | nil => exact List.Sublist.slnil
  | cons sta rest induction =>
    cases kept : actTxStation opmode sta with
    | none =>
      rw [List.filterMap_cons_none kept]
      exact induction.cons _
    | some next =>
      rw [List.filterMap_cons_some kept, List.map_cons, List.map_cons, actTxStation_address kept]
      exact induction.cons_cons _

/-- A record whose link does not stay up has no retry left. -/
theorem actTxTimeout_down {vif : SaVif} {sta : SaStation}
    (single : vif.opmode = .sta → vif.stations.length ≤ 1) (member : sta ∈ vif.stations)
    (live : vif.live) (down : ¬ (wifiMacActTxTimeout vif).1.up sta.staMacaddr) :
    sta.confirmDeauth = true ∧ ¬ sta.saQueryTryCount < saTryMax vif.opmode := by
  cases mode : vif.opmode with
  | sta =>
    obtain ⟨connected, free⟩ := live mode
    have linked : sta.staMacaddr ∈
        (wifiMacActTxTimeout vif).1.stations.map SaStation.staMacaddr := by
      have some : ∃ next, actTxStation vif.opmode sta = some next := by
        unfold actTxStation
        rw [mode]
        split <;> exact ⟨_, rfl⟩
      obtain ⟨next, kept⟩ := some
      exact List.mem_map.mpr
        ⟨next, List.mem_filterMap.mpr ⟨sta, member, kept⟩, actTxStation_address kept⟩
    have given : (wifiMacActTxTimeout vif).1.smSwitch = true := by
      refine Bool.of_not_eq_false fun stays => down ⟨fun _ => ⟨connected, stays⟩, linked⟩
    unfold wifiMacActTxTimeout at given
    simp only [free, mode, Bool.false_or, decide_true, Bool.true_and, List.any_eq_true,
      List.mem_filter] at given
    obtain ⟨other, ⟨present, flagged⟩, full⟩ := given
    have same : other = sta := by
      obtain ⟨only, shape⟩ := List.length_eq_one_iff.mp
        (le_antisymm (single mode) (List.length_pos_of_mem member))
      rw [shape] at present member
      rw [List.mem_singleton.mp present, List.mem_singleton.mp member]
    rw [same] at flagged full
    exact ⟨flagged, by simpa using full⟩
  | hostap =>
    have alive : (wifiMacActTxTimeout vif).1.live := fun station =>
      absurd (mode.symm.trans station) (by decide)
    cases kept : actTxStation vif.opmode sta with
    | some next =>
      refine absurd ⟨alive, List.mem_map.mpr ⟨next, ?_, actTxStation_address kept⟩⟩ down
      exact List.mem_filterMap.mpr ⟨sta, member, kept⟩
    | none =>
      rw [mode] at kept
      unfold actTxStation at kept
      split at kept
      · next flagged =>
        dsimp only at kept
        split at kept
        · cases kept
        · next full => exact ⟨flagged, full⟩
      · cases kept

/-- A record whose link stays up had a retry left. -/
theorem actTxTimeout_room {vif : SaVif} {sta next : SaStation} (member : sta ∈ vif.stations)
    (kept : actTxStation vif.opmode sta = some next) (live : (wifiMacActTxTimeout vif).1.live)
    (flagged : sta.confirmDeauth = true) : sta.saQueryTryCount < saTryMax vif.opmode := by
  cases mode : vif.opmode with
  | sta =>
    obtain ⟨-, free⟩ := live mode
    unfold wifiMacActTxTimeout at free
    simp only [mode, decide_true, Bool.true_and, Bool.or_eq_false_iff] at free
    have room := List.any_eq_false.mp free.2 sta (List.mem_filter.mpr ⟨member, flagged⟩)
    simpa using room
  | hostap =>
    rw [mode] at kept
    unfold actTxStation at kept
    rw [if_pos flagged] at kept
    dsimp only at kept
    split at kept
    · next short => exact short
    · cases kept

theorem timeout_step (inv : watch.Inv) :
    SaLaw watch .timeout ∧ (watch.step .timeout).Inv := by
  have step : watch.vif.step .timeout =
      if watch.vif.actsend then wifiMacActTxTimeout watch.vif else (watch.vif, noQueries) := rfl
  constructor
  · refine ⟨fun addr _ up down => ⟨rfl, ?_⟩, fun _ _ => SaEvent.noConfusion⟩
    obtain ⟨sta, member, rfl⟩ := List.mem_map.mp up.2
    have down' : ¬ (watch.vif.step .timeout).1.up sta.staMacaddr := down
    rw [step] at down'
    split at down'
    · obtain ⟨flagged, full⟩ := actTxTimeout_down inv.single member up.1 down'
      have agrees := inv.agrees up.1 sta member
      cases running : watch.running sta.staMacaddr with
      | none =>
        rw [running] at agrees
        exact absurd flagged (by rw [agrees.1]; exact Bool.false_ne_true)
      | some procedure =>
        rw [running] at agrees
        refine ⟨procedure, rfl, ?_⟩
        rw [← agrees.2.1]
        exact Nat.le_of_not_lt fun short => full (UInt16.lt_iff_toNat_lt.mpr short)
    · exact absurd up down'
  · by_cases armed : watch.vif.actsend = true
    · have next : watch.vif.step .timeout = wifiMacActTxTimeout watch.vif := by
        rw [step, if_pos armed]
      refine .of_agrees (fun station => ?_) ?_ fun live sta member => ?_
      · rw [next] at station ⊢
        exact (List.length_filterMap_le ..).trans (inv.single station)
      · rw [next]
        exact List.Nodup.sublist (actTxStation_sublist _) inv.distinct
      · rw [next] at live member ⊢
        obtain ⟨old, present, kept⟩ := List.mem_filterMap.mp member
        have before : watch.vif.live := by
          intro station
          obtain ⟨connected, free⟩ := live station
          exact ⟨connected, (Bool.or_eq_false_iff.mp free).1⟩
        have query : (wifiMacActTxTimeout watch.vif).2 sta.staMacaddr =
            if old.confirmDeauth then some old.saQuerySeq else none := by
          rw [actTxStation_address kept]
          exact flagged_query inv.distinct present
        rw [query, actTxStation_address kept]
        exact actTxStation_agrees (inv.agrees before old present) kept
          (actTxTimeout_room present kept live)
    · have next : watch.vif.step .timeout = (watch.vif, noQueries) := by
        rw [step, if_neg armed]
      refine .of_agrees (next ▸ inv.single) (next ▸ inv.distinct) fun live sta member => ?_
      rw [next] at live member ⊢
      have still : watchStep (watch.running sta.staMacaddr) sta.staMacaddr
          (noQueries sta.staMacaddr) .timeout = watch.running sta.staMacaddr := by
        cases watch.running sta.staMacaddr <;> rfl
      dsimp only
      rw [still]
      exact inv.agrees live sta member

/-- The invariant when the records stay, with the procedures that the event leaves alone. -/
theorem SaWatch.Inv.of_still (inv : watch.Inv)
    (opmode : (watch.vif.step event).1.opmode = watch.vif.opmode)
    (same : (watch.vif.step event).1.stations.map SaStation.staMacaddr =
      watch.vif.stations.map SaStation.staMacaddr)
    (live : (watch.vif.step event).1.live →
      watch.vif.live ∧ (watch.vif.step event).1.stations = watch.vif.stations)
    (still : ∀ running addr query, watchStep running addr query event = running) :
    (watch.step event).Inv := by
  obtain ⟨single, distinct⟩ := inv.addresses _ opmode same
  refine .of_agrees single distinct fun alive sta member => ?_
  obtain ⟨before, stations⟩ := live alive
  rw [still, opmode]
  rw [stations] at member
  exact inv.agrees before sta member

theorem unchanged_step (inv : watch.Inv) (same : (watch.vif.step event).1 = watch.vif)
    (other : ∀ addr identifier, event ≠ .response addr identifier)
    (still : ∀ running addr query, watchStep running addr query event = running) :
    SaLaw watch event ∧ (watch.step event).Inv := by
  refine ⟨.of_up (fun addr _ up => ?_) other, inv.of_still ?_ ?_ (fun live => ⟨?_, ?_⟩) still⟩
  · rw [same]
    exact up
  · rw [same]
  · rw [same]
  · rwa [same] at live
  · rw [same]

theorem smSwitch_step (inv : watch.Inv) :
    SaLaw watch .smSwitch ∧ (watch.step .smSwitch).Inv := by
  have step : watch.vif.step .smSwitch =
      if watch.vif.smSwitch then ({ topSmScan watch.vif with smSwitch := false }, noQueries)
      else (watch.vif, noQueries) := rfl
  by_cases queued : watch.vif.smSwitch = true
  · have next : (watch.vif.step .smSwitch).1 =
        { topSmScan watch.vif with smSwitch := false } := by rw [step, if_pos queued]
    cases mode : watch.vif.opmode with
    | sta =>
      have given : ¬ watch.vif.live := fun live =>
        absurd (live mode).2 (by rw [queued]; decide)
      refine ⟨.of_up (fun addr _ up => absurd up.1 given) (fun _ _ => SaEvent.noConfusion),
        inv.of_still ?_ ?_ (fun live => ?_) (fun _ _ _ => rfl)⟩
      · rw [next]
        exact topSmScan_opmode
      · rw [next]
        exact topSmScan_stations
      · rw [next] at live
        have left := (live (topSmScan_opmode.trans mode)).1
        exact absurd ((topSmScan_connected mode).symm.trans left) (by decide)
    | hostap =>
      have idle := topSmScan_hostap mode
      have alive : watch.vif.live := fun station => absurd (mode.symm.trans station) (by decide)
      refine ⟨.of_up (fun addr _ up => ?_) (fun _ _ => SaEvent.noConfusion),
        inv.of_still ?_ ?_ (fun _ => ⟨alive, ?_⟩) (fun _ _ _ => rfl)⟩
      · rw [next, idle]
        exact ⟨fun station => absurd (mode.symm.trans station) (by decide), up.2⟩
      · rw [next, idle]
      · rw [next, idle]
      · rw [next, idle]
  · have next : (watch.vif.step .smSwitch).1 = watch.vif := by rw [step, if_neg queued]
    exact unchanged_step inv next (fun _ _ => SaEvent.noConfusion) (fun _ _ _ => rfl)

theorem linkUp_step (inv : watch.Inv) {addr : Nat} {authmode : AuthMode}
    {keymgmtSae privacy wpa : Bool} :
    SaLaw watch (.linkUp addr authmode keymgmtSae privacy wpa) ∧
      (watch.step (.linkUp addr authmode keymgmtSae privacy wpa)).Inv := by
  have step : (watch.vif.step (.linkUp addr authmode keymgmtSae privacy wpa)).1 =
      linkUp watch.vif addr authmode keymgmtSae privacy wpa := rfl
  unfold linkUp at step
  cases mode : watch.vif.opmode with
  | sta =>
    rw [mode] at step
    dsimp only at step
    by_cases busy : watch.vif.connected = true ∨ watch.vif.smSwitch = true
    · rw [if_pos busy] at step
      exact unchanged_step inv step (fun _ _ => SaEvent.noConfusion) (fun _ _ _ => rfl)
    · rw [if_neg busy] at step
      have down : ¬ watch.vif.live := fun live => busy (Or.inl (live mode).1)
      refine ⟨.of_up (fun peer _ up => absurd up.1 down) (fun _ _ => SaEvent.noConfusion),
        .of_agrees (fun _ => ?_) ?_ fun _ sta member => ?_⟩
      · rw [step]
        exact le_rfl
      · rw [step]
        exact List.nodup_singleton _
      · rw [step] at member
        obtain rfl := List.mem_singleton.mp member
        have gone : watch.running addr = none := inv.gone addr fun up => down up.1
        change Agrees _ (newStation addr) (watch.running addr)
        rw [gone]
        exact ⟨rfl, rfl⟩
  | hostap =>
    have alive : watch.vif.live := fun station => absurd (mode.symm.trans station) (by decide)
    rw [mode] at step
    dsimp only at step
    by_cases known : addr ∈ watch.vif.stations.map SaStation.staMacaddr
    · rw [if_pos known] at step
      exact unchanged_step inv step (fun _ _ => SaEvent.noConfusion) (fun _ _ _ => rfl)
    · rw [if_neg known] at step
      refine ⟨.of_up (fun peer _ up => ?_) (fun _ _ => SaEvent.noConfusion),
        .of_agrees (fun station => ?_) ?_ fun _ sta member => ?_⟩
      · rw [step]
        refine ⟨fun station => SaOpmode.noConfusion station, ?_⟩
        rw [List.map_append]
        exact List.mem_append_left _ up.2
      · rw [step] at station
        exact SaOpmode.noConfusion station
      · rw [step]
        exact inv.distinct.concat known
      · have opmode : (watch.vif.step (.linkUp addr authmode keymgmtSae privacy wpa)).1.opmode =
            watch.vif.opmode := by rw [step, mode]
        rw [step] at member
        rw [opmode]
        rcases List.mem_append.mp member with old | new
        · exact inv.agrees alive sta old
        · obtain rfl := List.mem_singleton.mp new
          have gone : watch.running addr = none := inv.gone addr fun up => known up.2
          change Agrees _ (newStation addr) (watch.running addr)
          rw [gone]
          exact ⟨rfl, rfl⟩

theorem linkDown_step (inv : watch.Inv) {addr : Nat} :
    SaLaw watch (.linkDown addr) ∧ (watch.step (.linkDown addr)).Inv := by
  have step : (watch.vif.step (.linkDown addr)).1 = linkDown watch.vif addr := rfl
  unfold linkDown at step
  cases mode : watch.vif.opmode with
  | sta =>
    rw [mode] at step
    dsimp only at step
    by_cases known : addr ∈ watch.vif.stations.map SaStation.staMacaddr
    · rw [if_pos known] at step
      refine ⟨.of_up (fun peer outside up => ?_) (fun _ _ => SaEvent.noConfusion),
        inv.of_still ?_ ?_ (fun live => ?_) (fun _ _ _ => rfl)⟩
      · -- the one record of a station is the one whose link is left
        obtain ⟨sta, member, rfl⟩ := List.mem_map.mp up.2
        obtain ⟨only, shape⟩ := List.length_eq_one_iff.mp
          (le_antisymm (inv.single mode) (List.length_pos_of_mem member))
        rw [shape] at known member
        rw [List.mem_singleton.mp member] at outside
        exact absurd (congrArg SaEvent.linkDown (List.mem_singleton.mp known)) outside
      · rw [step]
        exact topSmScan_opmode
      · rw [step]
        exact topSmScan_stations
      · rw [step] at live
        have left := (live (topSmScan_opmode.trans mode)).1
        exact absurd ((topSmScan_connected mode).symm.trans left) (by decide)
    · rw [if_neg known] at step
      exact unchanged_step inv step (fun _ _ => SaEvent.noConfusion) (fun _ _ _ => rfl)
  | hostap =>
    have alive : watch.vif.live := fun station => absurd (mode.symm.trans station) (by decide)
    rw [mode] at step
    dsimp only at step
    refine ⟨.of_up (fun peer outside up => ?_) (fun _ _ => SaEvent.noConfusion),
      .of_agrees (fun station => ?_) ?_ fun _ sta member => ?_⟩
    · rw [step]
      obtain ⟨sta, member, rfl⟩ := List.mem_map.mp up.2
      have apart : sta.staMacaddr ≠ addr := fun same => outside (congrArg SaEvent.linkDown same.symm)
      exact ⟨fun station => SaOpmode.noConfusion station,
        List.mem_map_of_mem (Keyed.mem_remove.mpr ⟨member, apart⟩)⟩
    · rw [step] at station
      exact SaOpmode.noConfusion station
    · rw [step]
      exact inv.distinct.remove addr
    · have opmode : (watch.vif.step (.linkDown addr)).1.opmode = watch.vif.opmode := by
        rw [step, mode]
      rw [step] at member
      rw [opmode]
      exact inv.agrees alive sta (Keyed.mem_remove.mp member).1

private theorem saLaw_iff (inv : watch.Inv) : SaSound watch event ↔ SaLaw watch event := by
  cases event with
  | unprotected addr isBmc frame => exact (unprotected_step inv).1
  | response addr identifier => exact (response_step inv).1
  | timeout => exact iff_of_true trivial (timeout_step inv).1
  | smSwitch => exact iff_of_true trivial (smSwitch_step inv).1
  | linkUp addr authmode keymgmtSae privacy wpa => exact iff_of_true trivial (linkUp_step inv).1
  | linkDown addr => exact iff_of_true trivial (linkDown_step inv).1

private theorem SaWatch.Inv.step (inv : watch.Inv) (sound : SaSound watch event) :
    (watch.step event).Inv := by
  cases event with
  | unprotected addr isBmc frame => exact (unprotected_step inv).2 sound
  | response addr identifier => exact (response_step inv).2 sound
  | timeout => exact (timeout_step inv).2
  | smSwitch => exact (smSwitch_step inv).2
  | linkUp addr authmode keymgmtSae privacy wpa => exact (linkUp_step inv).2
  | linkDown addr => exact (linkDown_step inv).2

end Step

section Run

open Machine

/-- An interface without links, and no procedure. -/
def SaWatch.start (opmode : SaOpmode) (counterm : Bool) : SaWatch :=
  ⟨.start opmode counterm, fun _ => none⟩

private theorem SaWatch.Inv.start (opmode : SaOpmode) (counterm : Bool) :
    (SaWatch.start opmode counterm).Inv :=
  ⟨fun _ => Nat.zero_le _, List.nodup_nil, fun _ _ => rfl,
    fun _ _ member => absurd member List.not_mem_nil⟩

/-- Links are given up only after all retries, and a response gives them back, in exactly the
runs without an authentication frame that moves a station and without a response to the query
that the sequence number wraps at. -/
theorem sa_query_iff (opmode : SaOpmode) (counterm : Bool) (events : List SaEvent) :
    Along SaWatch.step SaSound (.start opmode counterm) events ↔
      Along SaWatch.step SaLaw (.start opmode counterm) events := by
  apply along_congr _ _ (SaWatch.Inv.start opmode counterm)
  · exact fun watch event inv => saLaw_iff inv
  · exact fun watch event inv sound => inv.step sound

/-- One unprotected authentication frame takes a station with a cached SAE key out of its link,
and a response to the query with the last sequence number leaves the procedure running. -/
theorem sa_query_defeated :
    ¬ Along SaWatch.step SaLaw (.start .sta false)
        [.linkUp 1 .openSystem true true true, .unprotected 1 false (.auth false 0 53)] ∧
      (let vif : SaVif := ⟨.sta, true, [⟨1, false, 0xFFFF, 0⟩], false, false, .sae, true, true,
        true, false⟩
      let asked := vif.step (.unprotected 1 false .deauth)
      asked.2 1 = some 0xFFFF ∧
        (asked.1.step (.response 1 0xFFFF)).1.stations = [⟨1, true, 0, 0⟩]) := by
  refine ⟨fun law => ?_, by decide, by decide⟩
  have given := law.2.1.kept 1 (by decide) (by decide) (by decide)
  exact absurd given.1 (by decide)

end Run

end W522a.Mac
