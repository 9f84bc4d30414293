import Mathlib.Data.List.Count
import W522a.Common
import W522a.Lib.Keyed

/-!
The fan-out of a received frame over the interfaces: a group frame goes to every interface that may
want it, as a copy or the buffer itself, and any other frame to the one that the descriptor names.
-/

namespace W522a.Rx

inductive WifiMacState where
  | init
  | scan
  | connecting
  | auth
  | assoc
  | connected
  deriving DecidableEq, Repr

inductive WifiMacOpmode where
  | ibss
  | sta
  | hostap
  | wds
  | monitor
  | p2pClient
  | p2pGo
  | p2pDev
  deriving DecidableEq, Repr

/-- `struct wlan_net_vif`, as `wifi_mac_input_all` looks at it. The main station is there when its
`sta_bssid` is. -/
structure InputVif where
  wnetVifId : Nat
  vmState : WifiMacState
  vmOpmode : WifiMacOpmode
  vmMainsta : Option (List UInt8)
  deriving DecidableEq, Repr

/-- `struct wifi_mac`: `scanning` is `WIFINET_F_SCAN` in `wm_flags`, and `wm_wnet_vifs` has no two
interfaces of one number. -/
structure InputMac where
  scanning : Bool
  wmNopened : Nat
  wmWnetVifs : List InputVif
  distinct : Keyed.Distinct InputVif.wnetVifId wmWnetVifs

/-- `WIFINET_IS_MULTICAST` of `i_addr1` -/
def inputMulticast (skb : SkBuff) : Bool := skb.byte 4 % 2 == 1

/-- `i_addr2` -/
def inputBssid (skb : SkBuff) : List UInt8 := (skb.data.drop 10).take 6

/-- What an interface gets: the buffer itself, a copy, or nothing because `os_skb_copy` fails. -/
inductive InputBuffer where
  | original
  | copy
  | lacking
  deriving DecidableEq, Repr

/-- What the loop has done: whom it gave what, in this order, whether the buffer is still in hand,
and `type`. -/
structure InputResult where
  inputs : List (Nat × InputBuffer)
  skb : Bool
  type : Int
  deriving DecidableEq, Repr

/-- What the surroundings decide: for which interfaces a copy is made, and what `wifi_mac_input`
returns for them. -/
structure InputEnv where
  osSkbCopy : Nat → Bool
  wifiMacInput : Nat → Int

def InputVif.up (vif : InputVif) : Bool := vif.vmState != .init && vif.vmMainsta.isSome

/-- A station that is connected to another network than that of the frame. -/
def elsewhere (scanning : Bool) (skb : SkBuff) (vif : InputVif) : Bool :=
  (vif.vmOpmode == .sta || vif.vmOpmode == .p2pClient) && vif.vmState == .connected &&
    !scanning && vif.vmMainsta != some (inputBssid skb)

/-- An interface is given something, and the loop goes on behind it. -/
def InputResult.before (id : Nat) (buffer : InputBuffer) (rest : InputResult) : InputResult :=
  { rest with inputs := (id, buffer) :: rest.inputs }

/-- The loop of `wifi_mac_input_all`, with `type` so far. -/
def inputVifs (env : InputEnv) (scanning : Bool) (wmNopened : Nat) (skb : SkBuff)
    (rsWnetVifId : Nat) : Int → List InputVif → InputResult
  | type, [] => ⟨[], true, type⟩
  | type, vif :: rest =>
    let handed : InputResult :=
      ⟨[(vif.wnetVifId, .original)], false, env.wifiMacInput vif.wnetVifId⟩
    let passed := inputVifs env scanning wmNopened skb rsWnetVifId type rest
    if !vif.up then passed
    else if inputMulticast skb then
      if elsewhere scanning skb vif then passed
      else if 1 < wmNopened ∧ rest ≠ [] then
        if env.osSkbCopy vif.wnetVifId then
          (inputVifs env scanning wmNopened skb rsWnetVifId
            (env.wifiMacInput vif.wnetVifId) rest).before vif.wnetVifId .copy
        else passed.before vif.wnetVifId .lacking
      else handed
    else if vif.wnetVifId ≠ rsWnetVifId then passed
    else handed

/-- `wifi_mac_input_all`; a buffer that is still in hand behind the loop is freed. -/
def wifiMacInputAll (env : InputEnv) (mac : InputMac) (skb : Option SkBuff) (rsWnetVifId : Nat) :
    InputResult :=
  match skb with
  | none => ⟨[], false, -1⟩
  | some skb => inputVifs env mac.scanning mac.wmNopened skb rsWnetVifId (-1) mac.wmWnetVifs

/-- An interface that a group frame is for. -/
def eligible (mac : InputMac) (skb : SkBuff) (vif : InputVif) : Bool :=
  vif.up && !elsewhere mac.scanning skb vif

/-- How often an interface was given a frame. -/
def InputResult.delivered (result : InputResult) (id : Nat) : Nat :=
  result.inputs.countP fun input => input.1 == id && input.2 != .lacking

/-- How often the buffer itself was given away or freed. -/
def InputResult.consumed (result : InputResult) : Nat :=
  result.inputs.countP (·.2 == .original) + result.skb.toNat

/-- The frame comes where it belongs. -/
structure FansOut (env : InputEnv) (mac : InputMac) (skb : SkBuff) (rsWnetVifId : Nat)
    (result : InputResult) : Prop where
  multicast : inputMulticast skb = true → ∀ vif ∈ mac.wmWnetVifs,
    result.delivered vif.wnetVifId =
      if eligible mac skb vif = true ∧ (vif.wnetVifId, .lacking) ∉ result.inputs then 1 else 0
  lacking : ∀ id, (id, .lacking) ∈ result.inputs → env.osSkbCopy id = false
  unicast : inputMulticast skb = false → ∀ vif ∈ mac.wmWnetVifs,
    result.delivered vif.wnetVifId = if vif.wnetVifId = rsWnetVifId then 1 else 0
  known : ∀ input ∈ result.inputs, ∃ vif ∈ mac.wmWnetVifs, vif.wnetVifId = input.1
  consumed : result.consumed = 1

section Outcome

variable {result : InputResult} {id : Nat}

private theorem InputResult.delivered_before (id : Nat) (buffer : InputBuffer) (rest : InputResult)
    (other : Nat) :
    (rest.before id buffer).delivered other =
      rest.delivered other + if id = other ∧ buffer ≠ .lacking then 1 else 0 := by
  unfold InputResult.before InputResult.delivered
  rw [List.countP_cons]
  simp

theorem InputResult.delivered_absent (absent : id ∉ result.inputs.map Prod.fst) :
    result.delivered id = 0 := by
  refine List.countP_eq_zero.mpr fun input listed given => absent ?_
  have same : input.1 = id := by
    simp only [Bool.and_eq_true, beq_iff_eq] at given
    exact given.1
  exact same ▸ List.mem_map_of_mem listed

theorem InputResult.delivered_eq (once : (result.inputs.map Prod.fst).Nodup) :
    result.delivered id =
      if id ∈ result.inputs.map Prod.fst ∧ (id, .lacking) ∉ result.inputs then 1 else 0 := by
  obtain ⟨inputs, skb, type⟩ := result
  induction inputs with
  | nil => rfl
  | cons input rest induction =>
    obtain ⟨first, buffer⟩ := input
    obtain ⟨fresh, later⟩ := List.nodup_cons.mp once
    change (InputResult.before first buffer ⟨rest, skb, type⟩).delivered id = _
    rw [InputResult.delivered_before]
    by_cases same : first = id
    · subst same
      have none : (first, InputBuffer.lacking) ∉ rest := by
        intro listed
        exact fresh (List.mem_map.mpr ⟨_, listed, rfl⟩)
      rw [InputResult.delivered_absent fresh]
      cases buffer <;> simp [none]
    · have other : ¬ (first = id ∧ buffer ≠ .lacking) := fun both => same both.1
      rw [induction later, if_neg other, Nat.add_zero]
      simp only [List.map_cons, List.mem_cons, Prod.mk.injEq, Ne.symm same, false_and, false_or]

end Outcome

section Loop

variable {env : InputEnv} {scanning : Bool} {wmNopened rsWnetVifId : Nat} {skb : SkBuff}

theorem inputVifs_consumed (type : Int) (vifs : List InputVif) :
    (inputVifs env scanning wmNopened skb rsWnetVifId type vifs).consumed = 1 := by
  have before : ∀ (id : Nat) (buffer : InputBuffer) (rest : InputResult), buffer ≠ .original →
      rest.consumed = 1 → (rest.before id buffer).consumed = 1 := by
    intro id buffer rest other once
    rw [← once]
    unfold InputResult.consumed InputResult.before
    rw [List.countP_cons_of_neg (by simpa using other)]
  induction vifs generalizing type with
  | nil => rfl
  | cons vif rest induction =>
    rw [inputVifs]
    split
    · exact induction type
    · split
      · split
        · exact induction type
        · split
          · split
            · exact before _ _ _ (by decide) (induction _)
            · exact before _ _ _ (by decide) (induction _)
          · rfl
      · split
        · exact induction type
        · rfl

theorem inputVifs_lacking (type : Int) (vifs : List InputVif) :
    ∀ id, (id, .lacking) ∈ (inputVifs env scanning wmNopened skb rsWnetVifId type vifs).inputs →
      env.osSkbCopy id = false := by
  induction vifs generalizing type with
  | nil => exact fun id listed => absurd listed List.not_mem_nil
  | cons vif rest induction =>
    intro id listed
    rw [inputVifs] at listed
    split at listed
    · exact induction type id listed
    · split at listed
      · split at listed
        · exact induction type id listed
        · split at listed
          · split at listed
            · rcases List.mem_cons.mp listed with same | later
              · cases same
              · exact induction _ id later
            · next failed =>
              rcases List.mem_cons.mp listed with same | later
              · rw [(Prod.mk.inj same).1]
                simpa using failed
              · exact induction _ id later
          · cases List.mem_singleton.mp listed
      · split at listed
        · exact induction type id listed
        · cases List.mem_singleton.mp listed

/-- Where more than one interface is opened, a group frame is offered to all that it is for. -/
theorem inputVifs_many (group : inputMulticast skb = true) (many : 1 < wmNopened) (type : Int)
    (vifs : List InputVif) :
    (inputVifs env scanning wmNopened skb rsWnetVifId type vifs).inputs.map Prod.fst =
      (vifs.filter fun vif => vif.up && !elsewhere scanning skb vif).map InputVif.wnetVifId := by
  induction vifs generalizing type with
  | nil => rfl
  | cons vif rest induction =>
    rw [inputVifs, if_pos group]
    cases up : vif.up with
    | false =>
      rw [List.filter_cons_of_neg (by simp [up])]
      exact induction type
    | true =>
      cases foreign : elsewhere scanning skb vif with
      | true =>
        rw [List.filter_cons_of_neg (by simp [foreign])]
        exact induction type
      | false =>
        rw [List.filter_cons_of_pos (by simp [up, foreign]), List.map_cons]
        by_cases last : rest = []
        · subst last
          simp
        · rw [if_neg (by simp), if_neg (by simp), if_pos ⟨many, last⟩]
          cases env.osSkbCopy vif.wnetVifId with
          | true => exact congrArg (vif.wnetVifId :: ·) (induction _)
          | false => exact congrArg (vif.wnetVifId :: ·) (induction _)

/-- Where it is thought to be the only one, the first interface that it is for gets the buffer. -/
theorem inputVifs_few (group : inputMulticast skb = true) (few : ¬ 1 < wmNopened) (type : Int)
    (vifs : List InputVif) :
    (inputVifs env scanning wmNopened skb rsWnetVifId type vifs).inputs =
      ((vifs.filter fun vif => vif.up && !elsewhere scanning skb vif).take 1).map
        fun vif => (vif.wnetVifId, .original) := by
  induction vifs with
  | nil => rfl
  | cons vif rest induction =>
    rw [inputVifs, if_pos group]
    cases up : vif.up with
    | false =>
      rw [List.filter_cons_of_neg (by simp [up])]
      exact induction
    | true =>
      cases foreign : elsewhere scanning skb vif with
      | true =>
        rw [List.filter_cons_of_neg (by simp [foreign])]
        exact induction
      | false =>
        rw [List.filter_cons_of_pos (by simp [up, foreign])]
        rw [if_neg (by simp), if_neg (by simp), if_neg fun both => few both.1]
        rfl

/-- Another frame is given to the first interface in use that the descriptor names. -/
theorem inputVifs_unicast (single : inputMulticast skb = false) (type : Int)
    (vifs : List InputVif) :
    (inputVifs env scanning wmNopened skb rsWnetVifId type vifs).inputs =
      ((vifs.filter fun vif => vif.up && vif.wnetVifId == rsWnetVifId).take 1).map
        fun vif => (vif.wnetVifId, .original) := by
  have other : ¬ inputMulticast skb = true := by simp [single]
  induction vifs with
  | nil => rfl
  | cons vif rest induction =>
    rw [inputVifs, if_neg other]
    cases up : vif.up with
    | false =>
      rw [List.filter_cons_of_neg (by simp [up])]
      exact induction
    | true =>
      by_cases named : vif.wnetVifId = rsWnetVifId
      · rw [List.filter_cons_of_pos (by simp [up, named]), if_neg (by simp),
          if_neg (not_not.mpr named)]
        rfl
      · rw [List.filter_cons_of_neg (by simp [named]), if_neg (by simp), if_pos named]
        exact induction

end Loop

section Law

variable {mac : InputMac} {env : InputEnv} {skb : SkBuff} {rsWnetVifId : Nat}
  {vif other : InputVif} {chosen : InputVif → Bool}

private theorem InputMac.unique (mac : InputMac) (first : vif ∈ mac.wmWnetVifs)
    (second : other ∈ mac.wmWnetVifs) (same : vif.wnetVifId = other.wnetVifId) : vif = other := by
  have found := Keyed.find_of_mem mac.distinct first
  rw [same, Keyed.find_of_mem mac.distinct second] at found
  exact (Option.some.inj found).symm

theorem InputMac.nodup_filter (mac : InputMac) (chosen : InputVif → Bool) :
    ((mac.wmWnetVifs.filter chosen).map InputVif.wnetVifId).Nodup :=
  List.Nodup.sublist (List.filter_sublist.map _) mac.distinct

private theorem InputMac.mem_filter (mac : InputMac) (listed : vif ∈ mac.wmWnetVifs) :
    vif.wnetVifId ∈ (mac.wmWnetVifs.filter chosen).map InputVif.wnetVifId ↔
      chosen vif = true := by
  constructor
  · intro found
    obtain ⟨other, member, same⟩ := List.mem_map.mp found
    obtain ⟨present, holds⟩ := List.mem_filter.mp member
    rw [← mac.unique present listed same]
    exact holds
  · exact fun holds => List.mem_map_of_mem (List.mem_filter.mpr ⟨listed, holds⟩)

private theorem InputMac.named_le (mac : InputMac) (rsWnetVifId : Nat) :
    (mac.wmWnetVifs.filter fun vif => vif.up && vif.wnetVifId == rsWnetVifId).length ≤ 1 := by
  have single := mac.nodup_filter fun vif => vif.up && vif.wnetVifId == rsWnetVifId
  have same : ∀ id ∈ (mac.wmWnetVifs.filter fun vif =>
      vif.up && vif.wnetVifId == rsWnetVifId).map InputVif.wnetVifId, id = rsWnetVifId := by
    intro id member
    obtain ⟨vif, listed, rfl⟩ := List.mem_map.mp member
    have named := (List.mem_filter.mp listed).2
    simp only [Bool.and_eq_true, beq_iff_eq] at named
    exact named.2
  rw [List.eq_replicate_of_mem same] at single
  simpa using single

/-- When the interfaces that were looked at are those that the frame is for, it comes where it
belongs. -/
theorem InputResult.delivered_filter {result : InputResult}
    (looked : result.inputs.map Prod.fst =
      (mac.wmWnetVifs.filter chosen).map InputVif.wnetVifId)
    (listed : vif ∈ mac.wmWnetVifs) :
    result.delivered vif.wnetVifId =
      if chosen vif = true ∧ (vif.wnetVifId, .lacking) ∉ result.inputs then 1 else 0 := by
  have once : (result.inputs.map Prod.fst).Nodup := by
    rw [looked]
    exact mac.nodup_filter chosen
  rw [InputResult.delivered_eq once, looked]
  simp only [mac.mem_filter listed]

theorem InputResult.known_filter {result : InputResult}
    (looked : result.inputs.map Prod.fst =
      (mac.wmWnetVifs.filter chosen).map InputVif.wnetVifId) :
    ∀ input ∈ result.inputs, ∃ vif ∈ mac.wmWnetVifs, vif.wnetVifId = input.1 := by
  intro input member
  have named : input.1 ∈ (mac.wmWnetVifs.filter chosen).map InputVif.wnetVifId :=
    looked ▸ List.mem_map_of_mem member
  obtain ⟨vif, listed, same⟩ := List.mem_map.mp named
  exact ⟨vif, (List.mem_filter.mp listed).1, same⟩

/-- A group frame that is offered to all that it is for. -/
theorem fansOut_group (group : inputMulticast skb = true)
    (looked : (wifiMacInputAll env mac (some skb) rsWnetVifId).inputs.map Prod.fst =
      (mac.wmWnetVifs.filter (eligible mac skb)).map InputVif.wnetVifId) :
    FansOut env mac skb rsWnetVifId (wifiMacInputAll env mac (some skb) rsWnetVifId) where
  multicast _ _ listed := InputResult.delivered_filter looked listed
  lacking := inputVifs_lacking (-1) mac.wmWnetVifs
  unicast single := by
    rw [group] at single
    cases single
  known := InputResult.known_filter looked
  consumed := inputVifs_consumed (-1) mac.wmWnetVifs

/-- A frame for one interface comes there, and nowhere else, when the interface is in use. -/
theorem fansOut_unicast (single : inputMulticast skb = false) :
    FansOut env mac skb rsWnetVifId (wifiMacInputAll env mac (some skb) rsWnetVifId) ↔
      ∀ vif ∈ mac.wmWnetVifs, vif.wnetVifId = rsWnetVifId → vif.up = true := by
  have inputs : (wifiMacInputAll env mac (some skb) rsWnetVifId).inputs =
      (mac.wmWnetVifs.filter fun vif => vif.up && vif.wnetVifId == rsWnetVifId).map
        fun vif => (vif.wnetVifId, .original) := by
    refine (inputVifs_unicast single (-1) mac.wmWnetVifs).trans ?_
    rw [List.take_of_length_le (mac.named_le rsWnetVifId)]
  have looked := congrArg (List.map Prod.fst) inputs
  rw [List.map_map] at looked
  have plain : ∀ id, (id, .lacking) ∉ (wifiMacInputAll env mac (some skb) rsWnetVifId).inputs := by
    intro id listed
    rw [inputs] at listed
    obtain ⟨vif, -, same⟩ := List.mem_map.mp listed
    cases same
  have given : ∀ vif ∈ mac.wmWnetVifs,
      (wifiMacInputAll env mac (some skb) rsWnetVifId).delivered vif.wnetVifId =
        if vif.up = true ∧ vif.wnetVifId = rsWnetVifId then 1 else 0 := by
    intro vif listed
    rw [InputResult.delivered_filter looked listed]
    simp only [plain, not_false_eq_true, and_true, Bool.and_eq_true, beq_iff_eq]
  constructor
  · intro fans vif listed named
    have once := fans.unicast single vif listed
    rw [given vif listed, if_pos named] at once
    by_contra unused
    rw [if_neg fun both => unused both.1] at once
    cases once
  · intro used
    refine ⟨fun group => ?_, inputVifs_lacking (-1) mac.wmWnetVifs, fun _ vif listed => ?_,
      InputResult.known_filter looked, inputVifs_consumed (-1) mac.wmWnetVifs⟩
    · rw [single] at group
      cases group
    · rw [given vif listed]
      exact if_congr (and_iff_right_of_imp (used vif listed)) rfl rfl

/-- Every frame comes where it belongs, but for a group frame for several interfaces while no more
than one is said to be opened, and a frame for an interface that is not in use. -/
theorem input_all_iff (env : InputEnv) (mac : InputMac) (skb : SkBuff) (rsWnetVifId : Nat) :
    FansOut env mac skb rsWnetVifId (wifiMacInputAll env mac (some skb) rsWnetVifId) ↔
      (inputMulticast skb = true →
          1 < mac.wmNopened ∨ mac.wmWnetVifs.countP (eligible mac skb) ≤ 1) ∧
        (inputMulticast skb = false →
          ∀ vif ∈ mac.wmWnetVifs, vif.wnetVifId = rsWnetVifId → vif.up = true) := by
  cases group : inputMulticast skb with
  | false => simp [fansOut_unicast group]
  | true =>
    simp only [Bool.true_eq_false, false_implies, and_true, true_implies]
    by_cases many : 1 < mac.wmNopened
    · exact iff_of_true (fansOut_group group (inputVifs_many group many (-1) mac.wmWnetVifs))
        (Or.inl many)
    · have first : (wifiMacInputAll env mac (some skb) rsWnetVifId).inputs =
          ((mac.wmWnetVifs.filter (eligible mac skb)).take 1).map
            fun vif => (vif.wnetVifId, .original) := inputVifs_few group many (-1) mac.wmWnetVifs
      rw [List.countP_eq_length_filter]
      constructor
      · intro fans
        by_contra several
        rw [not_or, Nat.not_le] at several
        have numbers := mac.nodup_filter (eligible mac skb)
        cases shape : mac.wmWnetVifs.filter (eligible mac skb) with
        | nil => simp [shape] at several
        | cons head rest =>
          cases rest with
          | nil => simp [shape] at several
          | cons second rest =>
            rw [shape] at first numbers
            have member : second ∈ mac.wmWnetVifs.filter (eligible mac skb) := by
              rw [shape]
              exact List.mem_cons_of_mem _ List.mem_cons_self
            obtain ⟨listed, wanted⟩ := List.mem_filter.mp member
            have other : head.wnetVifId ≠ second.wnetVifId := fun same =>
              (List.nodup_cons.mp numbers).1 (by simp [same])
            have missed := fans.multicast group second listed
            have none : (wifiMacInputAll env mac (some skb) rsWnetVifId).delivered
                second.wnetVifId = 0 := by
              apply InputResult.delivered_absent
              rw [first]
              simpa using Ne.symm other
            rw [none, if_pos ⟨wanted, by simp [first]⟩] at missed
            cases missed
      · intro few
        have few := few.resolve_left many
        rw [List.take_of_length_le few] at first
        have looked := congrArg (List.map Prod.fst) first
        rw [List.map_map] at looked
        exact fansOut_group group looked

/-- A P2P device that cfg80211 starts listens without being counted as opened: a group frame comes
only to the interface before it. -/
theorem input_all_misses :
    let sta : InputVif := ⟨0, .scan, .sta, some [2, 0, 0, 0, 0, 1]⟩
    let device : InputVif := ⟨1, .scan, .p2pDev, some [2, 0, 0, 0, 0, 2]⟩
    let mac : InputMac := ⟨false, 1, [sta, device], by unfold Keyed.Distinct; decide⟩
    let probe : SkBuff :=
      ⟨0, [0x40, 0, 0, 0, 255, 255, 255, 255, 255, 255, 2, 0, 0, 0, 0, 3, 255, 255, 255, 255, 255,
        255, 0, 0]⟩
    ¬ FansOut ⟨fun _ => true, fun _ => 0⟩ mac probe 0
      (wifiMacInputAll ⟨fun _ => true, fun _ => 0⟩ mac (some probe) 0) := by
  intro sta device mac probe fans
  have missed := fans.multicast (by decide) device (by decide)
  revert missed
  decide

end Law

end W522a.Rx
