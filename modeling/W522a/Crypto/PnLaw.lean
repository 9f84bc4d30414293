import Mathlib.Order.Nat
import W522a.Crypto.PnAssign

/-!
The numbers drawn from one counter, in the order in which the frames of a station or of a group
draw them, and the runs in which they rise.
-/

namespace W522a.Crypto

section Counter

variable {pn : Pn}

theorem increment_word0 (below : pn.word0.toNat + 1 < 2 ^ 64) :
    pn.increment.word0.toNat = pn.word0.toNat + 1 := by
  unfold Pn.increment
  rw [UInt64.toNat_add]
  exact Nat.mod_eq_of_lt below

theorem increment_value (below : pn.word0.toNat + 1 < 2 ^ 64) :
    pn.increment.value = pn.value + 1 := by
  have low := increment_word0 below
  have high : pn.increment.word1 = pn.word1 := rfl
  unfold Pn.value
  rw [low, high]
  omega

theorem increment_falls (full : pn.word0.toNat + 1 = 2 ^ 64) :
    pn.increment.value < pn.value := by
  have low : pn.increment.word0.toNat = 0 := by
    unfold Pn.increment
    rw [UInt64.toNat_add]
    exact (congrArg (· % 2 ^ 64) full).trans (Nat.mod_self _)
  have high : pn.increment.word1 = pn.word1 := rfl
  unfold Pn.value
  rw [low, high]
  omega

variable (pn) in
theorem carry_value (low : UInt64) (room : pn.word1.toNat + 1 < 2 ^ 64) :
    (Pn.mk low (pn.word1 + 1)).value = low.toNat + 2 ^ 64 * pn.word1.toNat + 2 ^ 64 := by
  have high : (pn.word1 + 1).toNat = pn.word1.toNat + 1 := by
    rw [UInt64.toNat_add]
    exact Nat.mod_eq_of_lt room
  unfold Pn.value
  dsimp only
  rw [high]
  omega

theorem halWpiPnSelfPlus_value (below : pn.value + 1 < 2 ^ 128) :
    (halWpiPnSelfPlus pn).value = pn.value + 1 := by
  unfold halWpiPnSelfPlus
  split
  · rename_i full
    have word : pn.word0.toNat = 2 ^ 64 - 1 := congrArg UInt64.toNat full
    unfold Pn.value at below ⊢
    have carried := carry_value pn 0 (by omega)
    unfold Pn.value at carried
    rw [carried]
    have zero : (0 : UInt64).toNat = 0 := rfl
    omega
  · rename_i notFull
    apply increment_value
    have bound := pn.word0.toNat_lt
    have other : pn.word0.toNat ≠ 2 ^ 64 - 1 := fun same => notFull (UInt64.toNat_inj.mp same)
    omega

theorem halWpiPnSelfPlusPlus_value (below : pn.value + 2 < 2 ^ 128) :
    (halWpiPnSelfPlusPlus pn).value = pn.value + 2 := by
  unfold halWpiPnSelfPlusPlus
  split
  · rename_i full
    have word : pn.word0.toNat = 2 ^ 64 - 1 := congrArg UInt64.toNat full
    unfold Pn.value at below ⊢
    have carried := carry_value pn 1 (by omega)
    unfold Pn.value at carried
    rw [carried]
    have one : (1 : UInt64).toNat = 1 := rfl
    omega
  · rename_i notFull
    split
    · rename_i nearly
      have word : pn.word0.toNat = 2 ^ 64 - 2 := congrArg UInt64.toNat nearly
      unfold Pn.value at below ⊢
      have carried := carry_value pn 0 (by omega)
      unfold Pn.value at carried
      rw [carried]
      have zero : (0 : UInt64).toNat = 0 := rfl
      omega
    · rename_i notNearly
      have bound := pn.word0.toNat_lt
      have first : pn.word0.toNat ≠ 2 ^ 64 - 1 := fun same => notFull (UInt64.toNat_inj.mp same)
      have second : pn.word0.toNat ≠ 2 ^ 64 - 2 :=
        fun same => notNearly (UInt64.toNat_inj.mp same)
      have low : (pn.word0 + 2).toNat = pn.word0.toNat + 2 := by
        rw [UInt64.toNat_add]
        exact Nat.mod_eq_of_lt (show pn.word0.toNat + 2 < 2 ^ 64 by omega)
      unfold Pn.value
      dsimp only
      rw [low]
      omega

theorem low_value {word : UInt64} : (Pn.mk word 0).value = word.toNat := by
  unfold Pn.value
  simp

theorem ccmpPn_value : (ccmpPn pn).value = pn.word0.toNat % 2 ^ 48 := by
  unfold ccmpPn
  rw [low_value, UInt64.toNat_and]
  exact Nat.and_two_pow_sub_one_eq_mod _ 48

end Counter

/-- A counter read as the integer of its two words, or of its first one. -/
def Pn.read (wide : Bool) (pn : Pn) : Nat := if wide then pn.value else pn.word0.toNat

def pnBits (wide : Bool) : Nat := if wide then 128 else 64

section Event

variable (sta : TxStation)

/-- The frames of the hardware from this counter are encrypted with WPI. -/
def PnEvent.wide (event : PnEvent) : Bool :=
  decide (sta.encryptType event.group = .wpi)

def PnEvent.stride (event : PnEvent) : Nat :=
  match event with
  | .hardware isBc isProtected =>
    if isProtected then
      match sta.encryptType isBc with
      | .tkip => 1
      | .aes => 1
      | .wpi => if isBc then 1 else 2
      | _ => 0
    else 0
  | .software _ _ => 1

def PnEvent.number (event : PnEvent) (cnt : RepCnt) : Nat :=
  (cnt (event.ref sta)).read (event.wide sta)

def BelowWrap (air : Air) (event : PnEvent) : Prop :=
  event.number sta air.cnt + event.stride sta < 2 ^ pnBits (event.wide sta)

/-- The number of the counter fits the six bytes of the header that the software writes. -/
def Fits (air : Air) : PnEvent → Prop
  | .hardware _ _ => True
  | .software isBmc alloc => (PnEvent.software isBmc alloc).number sta air.cnt < 2 ^ 48

/-- A number that is drawn is below the next one to be drawn, and a frame carries a number that
no earlier frame of the counter had and that the peer accepts after every one of them. -/
structure PnLaw (air : Air) (event : PnEvent) : Prop where
  rising : 0 < event.stride sta →
    event.number sta air.cnt < event.number sta (air.step sta event).cnt
  unused : Fits sta air event → ∀ pn, (draw sta air.cnt event).1 = some pn →
    pn ∉ air.sent (event.ref sta)
  accepted : Fits sta air event → ∀ pn, (draw sta air.cnt event).1 = some pn →
    ∀ earlier ∈ air.sent (event.ref sta), halWpiChkPnIncrease pn earlier = true

/-- The software does not count a WPI counter whose first word is full. -/
def Carries (air : Air) : PnEvent → Prop
  | .hardware _ _ => True
  | .software isBmc alloc => (PnEvent.software isBmc alloc).wide sta = true →
      (air.cnt ((PnEvent.software isBmc alloc).ref sta)).word0 ≠ 0xFFFFFFFFFFFFFFFF

/-- Every number sent from a counter is below the number it offers. -/
def Passed (air : Air) : Prop :=
  ∀ event : PnEvent, ∀ pn ∈ air.sent (event.ref sta), pn.value < event.number sta air.cnt

end Event

section Draw

variable {sta : TxStation} {air : Air} {event : PnEvent}

private theorem staId_toNat :
    (staId sta).toNat = if sta.modeSta then 1 else (sta.staAssocid &&& ~~~0xc000).toNat := by
  unfold staId
  split
  · rfl
  · have aid : (sta.staAssocid &&& ~~~0xc000).toNat < 17 := UInt16.lt_iff_toNat_lt.mp sta.aid_lt
    rw [UInt16.toNat_toUInt8]
    omega

/-- What an event does to its counter: the number it carries and the number it leaves. -/
structure Drawn (sta : TxStation) (air : Air) (event : PnEvent) (next : Pn) : Prop where
  counter : (draw sta air.cnt event).2 = Function.update air.cnt (event.ref sta) next
  carried : ∀ pn, (draw sta air.cnt event).1 = some pn →
    0 < event.stride sta ∧ pn.value ≤ event.number sta air.cnt ∧
      (Fits sta air event → pn.value = event.number sta air.cnt)

private theorem Drawn.still (none : draw sta air.cnt event = (none, air.cnt)) :
    Drawn sta air event (air.cnt (event.ref sta)) := by
  refine ⟨?_, fun pn some => ?_⟩
  · rw [none, Function.update_eq_self]
  · rw [none] at some
    cases some

/-- The hardware sends the number that the counter offers. -/
theorem Drawn.hardware {isBc isProtected : Bool} {carried next : Pn}
    (pair : draw sta air.cnt (.hardware isBc isProtected) =
      (some carried, Function.update air.cnt ((PnEvent.hardware isBc isProtected).ref sta) next))
    (moves : 0 < (PnEvent.hardware isBc isProtected).stride sta)
    (whole : carried.value = (PnEvent.hardware isBc isProtected).number sta air.cnt) :
    Drawn sta air (.hardware isBc isProtected) next := by
  refine ⟨congrArg Prod.snd pair, fun pn some => ?_⟩
  rw [pair] at some
  cases some
  exact ⟨moves, whole.le, fun _ => whole⟩

/-- The hardware counts in the width of its cipher. -/
theorem draw_hardware {isBc isProtected : Bool}
    (below : BelowWrap sta air (.hardware isBc isProtected)) :
    ∃ next, Drawn sta air (.hardware isBc isProtected) next ∧
      next.read ((PnEvent.hardware isBc isProtected).wide sta) =
        (PnEvent.hardware isBc isProtected).number sta air.cnt +
          (PnEvent.hardware isBc isProtected).stride sta := by
  cases isProtected with
  | false => exact ⟨_, .still rfl, rfl⟩
  | true =>
    have ref : (if isBc then PnRef.mRepCnt sta.wnetVifId
        else .uRepCnt sta.wnetVifId (staId sta).toNat) = (PnEvent.hardware isBc true).ref sta := by
      rw [staId_toNat]
      rfl
    have wide : (PnEvent.hardware isBc true).wide sta = decide (sta.encryptType isBc = .wpi) := rfl
    have drawn : draw sta air.cnt (.hardware isBc true) =
        assignTxDescPn isBc sta.wnetVifId (staId sta) (sta.encryptType isBc) air.cnt := rfl
    have stride : (PnEvent.hardware isBc true).stride sta =
        match sta.encryptType isBc with
        | .tkip => 1
        | .aes => 1
        | .wpi => if isBc then 1 else 2
        | _ => 0 := rfl
    have number : (PnEvent.hardware isBc true).number sta air.cnt =
        (air.cnt ((PnEvent.hardware isBc true).ref sta)).read
          ((PnEvent.hardware isBc true).wide sta) := rfl
    unfold BelowWrap at below
    unfold assignTxDescPn at drawn
    rw [ref] at drawn
    rw [number] at below
    cases type : sta.encryptType isBc <;>
      rw [type] at drawn stride wide
    case tkip | aes =>
      rw [wide, stride] at below
      rw [number, wide]
      refine ⟨_, .hardware drawn (by rw [stride]; exact Nat.one_pos) ?_, ?_⟩
      · rw [number, wide]
        exact low_value
      · rw [stride]
        exact increment_word0 below
    case wpi =>
      rw [wide, stride] at below
      rw [number, wide]
      cases isBc with
      | true =>
        refine ⟨_, .hardware drawn (by rw [stride]; exact Nat.one_pos) ?_, ?_⟩
        · rw [number, wide]
          rfl
        · rw [stride]
          exact halWpiPnSelfPlus_value below
      | false =>
        refine ⟨_, .hardware drawn (by rw [stride]; exact Nat.two_pos) ?_, ?_⟩
        · rw [number, wide]
          rfl
        · rw [stride]
          exact halWpiPnSelfPlusPlus_value below
    all_goals exact ⟨_, .still drawn, by rw [stride]; rfl⟩

/-- A frame encrypted in software has the low six bytes of the counter. -/
theorem wifiMacSwEncrypt_carried {isBmc alloc : Bool} {pn : Pn}
    (some : (draw sta air.cnt (.software isBmc alloc)).1 = some pn) :
    pn = ccmpPn (air.cnt ((PnEvent.software isBmc alloc).ref sta)) := by
  have ref : (if isBmc then PnRef.mRepCnt sta.wnetVifId
      else .uRepCnt sta.wnetVifId
        (if sta.modeSta then 1 else sta.staAssocid &&& ~~~0xc000 : UInt16).toNat) =
        (PnEvent.software isBmc alloc).ref sta := by
    unfold PnEvent.ref PnEvent.group
    cases sta.modeSta <;> rfl
  have encrypted : ∀ key : MacKey,
      amlCcmpEncrypt key (air.cnt ((PnEvent.software isBmc alloc).ref sta)) alloc =
        Option.some pn →
      pn = ccmpPn (air.cnt ((PnEvent.software isBmc alloc).ref sta)) := by
    intro key result
    unfold amlCcmpEncrypt at result
    split at result
    · exact (Option.some.inj result).symm
    · cases result
  unfold draw wifiMacSwEncrypt at some
  dsimp only at some
  rw [ref] at some
  split at some
  · exact encrypted _ some
  · exact encrypted _ some
  · exact encrypted _ some
  · cases some

private theorem Pn.word0_le_read (wide : Bool) (pn : Pn) : pn.word0.toNat ≤ pn.read wide := by
  cases wide with
  | false => exact le_refl _
  | true => exact Nat.le_add_right _ _

private theorem Pn.read_of_short {wide : Bool} {pn : Pn} (short : pn.read wide < 2 ^ 48) :
    pn.read wide = pn.word0.toNat := by
  cases wide with
  | false => rfl
  | true =>
    change pn.word0.toNat + 2 ^ 64 * pn.word1.toNat < 2 ^ 48 at short
    change pn.word0.toNat + 2 ^ 64 * pn.word1.toNat = pn.word0.toNat
    omega

private theorem draw_software {isBmc alloc : Bool} :
    Drawn sta air (.software isBmc alloc)
      (air.cnt ((PnEvent.software isBmc alloc).ref sta)).increment := by
  refine ⟨?_, fun pn some => ?_⟩
  · unfold draw wifiMacSwEncrypt PnEvent.ref PnEvent.group
    cases sta.modeSta <;> rfl
  · have carried := wifiMacSwEncrypt_carried some
    have low : (ccmpPn (air.cnt ((PnEvent.software isBmc alloc).ref sta))).value ≤
        (air.cnt ((PnEvent.software isBmc alloc).ref sta)).word0.toNat := by
      rw [ccmpPn_value]
      exact Nat.mod_le _ _
    refine ⟨Nat.one_pos, ?_, fun fits => ?_⟩
    · rw [carried]
      exact low.trans (Pn.word0_le_read _ _)
    · have short : (air.cnt ((PnEvent.software isBmc alloc).ref sta)).read
          ((PnEvent.software isBmc alloc).wide sta) < 2 ^ 48 := fits
      have whole := Pn.read_of_short short
      rw [whole] at short
      rw [carried, ccmpPn_value, Nat.mod_eq_of_lt short]
      exact whole.symm

/-- Below the wrap the software counts in the width of the counter when it need not carry. -/
theorem draw_software_iff {isBmc alloc : Bool}
    (below : BelowWrap sta air (.software isBmc alloc)) :
    (Carries sta air (.software isBmc alloc) →
      (air.cnt ((PnEvent.software isBmc alloc).ref sta)).increment.read
          ((PnEvent.software isBmc alloc).wide sta) =
        (PnEvent.software isBmc alloc).number sta air.cnt + 1) ∧
      (¬ Carries sta air (.software isBmc alloc) →
        (air.cnt ((PnEvent.software isBmc alloc).ref sta)).increment.read
            ((PnEvent.software isBmc alloc).wide sta) <
          (PnEvent.software isBmc alloc).number sta air.cnt) := by
  have carries : Carries sta air (.software isBmc alloc) ↔
      ((PnEvent.software isBmc alloc).wide sta = true →
        (air.cnt ((PnEvent.software isBmc alloc).ref sta)).word0 ≠ 0xFFFFFFFFFFFFFFFF) := Iff.rfl
  rw [carries]
  unfold BelowWrap PnEvent.number at below
  unfold PnEvent.number
  generalize (PnEvent.software isBmc alloc).wide sta = wide at *
  generalize air.cnt ((PnEvent.software isBmc alloc).ref sta) = pn at *
  cases wide with
  | false =>
    exact ⟨fun _ => increment_word0 below,
      fun not => absurd (fun wide => absurd wide Bool.false_ne_true) not⟩
  | true =>
    have bound := pn.word0.toNat_lt
    have full : pn.word0 = 0xFFFFFFFFFFFFFFFF ↔ pn.word0.toNat + 1 = 2 ^ 64 := by
      rw [← UInt64.toNat_inj]
      exact (Nat.add_right_cancel_iff (n := 1)).symm
    refine ⟨fun free => increment_value ?_, fun not => increment_falls ?_⟩
    · have other := mt full.mpr (free rfl)
      omega
    · exact full.mp (Decidable.not_not.mp fun other => not fun _ => other)

theorem draw_spec (below : BelowWrap sta air event) :
    ∃ next, Drawn sta air event next ∧
      (Carries sta air event →
        next.read (event.wide sta) = event.number sta air.cnt + event.stride sta) ∧
      (¬ Carries sta air event →
        0 < event.stride sta ∧ next.read (event.wide sta) < event.number sta air.cnt) := by
  cases event with
  | hardware isBc isProtected =>
    obtain ⟨next, drawn, counted⟩ := draw_hardware below
    exact ⟨next, drawn, fun _ => counted, fun not => absurd trivial not⟩
  | software isBmc alloc =>
    obtain ⟨counted, falls⟩ := draw_software_iff below
    exact ⟨_, draw_software, counted, fun not => ⟨Nat.one_pos, falls not⟩⟩

end Draw

section Step

variable {sta : TxStation} {air : Air} {event other : PnEvent}

private theorem ref_eq_iff : other.ref sta = event.ref sta ↔ other.group = event.group := by
  unfold PnEvent.ref
  cases other.group <;> cases event.group <;> simp

private theorem wide_eq (same : other.group = event.group) : other.wide sta = event.wide sta := by
  unfold PnEvent.wide
  rw [same]

theorem Drawn.number {next : Pn} (drawn : Drawn sta air event next) :
    event.number sta (air.step sta event).cnt = next.read (event.wide sta) := by
  unfold PnEvent.number Air.step
  dsimp only
  rw [drawn.counter, Function.update_self]

/-- What was sent stays below a counter that does not fall. -/
theorem Passed.step {next : Pn} (passed : Passed sta air) (drawn : Drawn sta air event next)
    (kept : event.number sta air.cnt ≤ next.read (event.wide sta))
    (moved : 0 < event.stride sta → event.number sta air.cnt < next.read (event.wide sta)) :
    Passed sta (air.step sta event) := by
  intro other pn sent
  by_cases same : other.group = event.group
  · have here : other.ref sta = event.ref sta := ref_eq_iff.mpr same
    have offered : other.number sta (air.step sta event).cnt = next.read (event.wide sta) := by
      rw [← drawn.number]
      unfold PnEvent.number
      rw [here, wide_eq same]
    have log : (air.step sta event).sent (other.ref sta) =
        (draw sta air.cnt event).1.toList ++ air.sent (event.ref sta) := by
      rw [here]
      exact Function.update_self ..
    rw [offered]
    rw [log] at sent
    rcases List.mem_append.mp sent with now | earlier
    · obtain ⟨moves, bounded, -⟩ := drawn.carried pn (Option.mem_toList.mp now)
      exact bounded.trans_lt (moved moves)
    · exact (passed event pn earlier).trans_le kept
  · have apart : other.ref sta ≠ event.ref sta := fun here => same (ref_eq_iff.mp here)
    have offered : other.number sta (air.step sta event).cnt = other.number sta air.cnt := by
      unfold PnEvent.number Air.step
      dsimp only
      rw [drawn.counter, Function.update_of_ne apart]
    have log : (air.step sta event).sent (other.ref sta) = air.sent (other.ref sta) :=
      Function.update_of_ne apart ..
    rw [offered]
    rw [log] at sent
    exact passed other pn sent

private theorem pnLaw_iff (passed : Passed sta air) (below : BelowWrap sta air event) :
    Carries sta air event ↔ PnLaw sta air event := by
  obtain ⟨next, drawn, counted, falls⟩ := draw_spec below
  constructor
  · intro carries
    have later := counted carries
    refine ⟨fun moves => ?_, fun fits pn some sent => ?_, fun fits pn some earlier sent => ?_⟩
    · rw [drawn.number, later]
      exact Nat.lt_add_of_pos_right moves
    · have whole := (drawn.carried pn some).2.2 fits
      exact absurd whole (passed event pn sent).ne
    · have whole := (drawn.carried pn some).2.2 fits
      rw [halWpiChkPnIncrease_iff, whole]
      exact passed event earlier sent
  · intro law
    refine Classical.byContradiction fun not => ?_
    obtain ⟨moves, fallen⟩ := falls not
    have risen := law.rising moves
    rw [drawn.number] at risen
    exact absurd risen fallen.not_gt

private theorem passed_step (passed : Passed sta air) (below : BelowWrap sta air event)
    (carries : Carries sta air event) : Passed sta (air.step sta event) := by
  obtain ⟨next, drawn, counted, -⟩ := draw_spec below
  have later := counted carries
  refine passed.step drawn ?_ fun moves => ?_
  · rw [later]
    exact Nat.le_add_right _ _
  · rw [later]
    exact Nat.lt_add_of_pos_right moves

end Step

section Run

open Machine

/-- A key has been set: nothing was sent under it. -/
def Air.fresh (cnt : RepCnt) : Air := ⟨cnt, fun _ => []⟩

instance (sta : TxStation) (air : Air) (event : PnEvent) : Decidable (BelowWrap sta air event) :=
  inferInstanceAs (Decidable (_ < _))

private theorem aggEncryptType_ne_wpi (cipher : Cipher) (wkKeylen : Nat) :
    aggEncryptType (txinfoKeyType cipher) wkKeylen ≠ .wpi := by
  unfold aggEncryptType
  split
  · decide
  · cases cipher <;> decide

/-- With the types that `wifi_mac_build_txinfo` leads to, the software never has to carry. -/
theorem carries_txinfo {sta : TxStation} {keys : Bool → Cipher}
    (types : ∀ isBc, sta.encryptType isBc =
      aggEncryptType (txinfoKeyType (keys isBc)) sta.staUcastkey.wkKeylen)
    (air : Air) (event : PnEvent) : Carries sta air event := by
  cases event with
  | hardware isBc isProtected => trivial
  | software isBmc alloc =>
    intro wide
    have wpi : sta.encryptType isBmc = .wpi := of_decide_eq_true wide
    exact absurd ((types isBmc).symm.trans wpi) (aggEncryptType_ne_wpi _ _)

/-- A connected station with one encryption type for its own and for the group's frames. -/
def sampleStation (cipher : Cipher) (encryptType : EncryptType) : TxStation where
  wnetVifId := 0
  modeSta := true
  staAssocid := 0xc003
  staUcastkey := ⟨cipher, 16⟩
  vmNwKey := ⟨cipher, 16⟩
  encryptType _ := encryptType
  aid_lt := by decide

end Run

end W522a.Crypto
