import W522a.Lib.Bytes
import W522a.Lib.Traced

/-!
The Channel Switch Wrapper element of a beacon: the loop over its sub-elements, and when it ends
without a read behind the element. The offset of the loop has eight bits.
-/

namespace W522a.Ie

open Memory (Access InBounds Traced fetch touch)

@[simp] abbrev subIeMaxLen : Nat := 32

abbrev elemidChanSwitchWrap : UInt8 := 196

abbrev elemidCountry : UInt8 := 7

abbrev elemidWideBandChanSwitch : UInt8 := 194

abbrev elemidVhtTxPwrEnvlp : UInt8 := 195

/-- What a station keeps of the sub-elements. -/
structure ChSwSubIe where
  staNewCountrySubIe : List UInt8
  staWideBwChSwSubIe : List UInt8
  staNewVhtTxPwSubIe : List UInt8
  deriving DecidableEq, Repr

/-- `memset` of the three buffers. -/
def clearedSubIe : ChSwSubIe :=
  ⟨List.replicate subIeMaxLen 0, List.replicate subIeMaxLen 0, List.replicate subIeMaxLen 0⟩

def subIeKept (subIeId : UInt8) : Bool :=
  subIeId = elemidCountry || subIeId = elemidWideBandChanSwitch || subIeId = elemidVhtTxPwrEnvlp

/-- `memcpy` of a sub-element to the buffer of its kind. -/
def copySubIe (ie : Nat → UInt8) (subIeOfst : Nat) (subIeId subIeLen : UInt8) (sta : ChSwSubIe) :
    Traced Access ChSwSubIe := do
  let count := subIeLen.toNat + 2
  let bytes := (List.range count).map fun place => ie (subIeOfst + place)
  if subIeId = elemidCountry then
    touch subIeOfst count
    pure { sta with staNewCountrySubIe := Bytes.write sta.staNewCountrySubIe 0 bytes }
  else if subIeId = elemidWideBandChanSwitch then
    touch subIeOfst count
    pure { sta with staWideBwChSwSubIe := Bytes.write sta.staWideBwChSwSubIe 0 bytes }
  else if subIeId = elemidVhtTxPwrEnvlp then
    touch subIeOfst count
    pure { sta with staNewVhtTxPwSubIe := Bytes.write sta.staNewVhtTxPwSubIe 0 bytes }
  else pure sta

/-- The loop of `wifi_mac_parse_vht_ch_sw_wrp`, for some turns; `none` when it is still going. -/
def chSwLoop (ie : Nat → UInt8) : Nat → UInt8 → ChSwSubIe → Traced Access (Option ChSwSubIe)
  | 0, _, _ => pure none
  | turns + 1, subIeOfst, sta => do
    let elemLen ← fetch ie 1
    if subIeOfst.toNat < elemLen.toNat + 2 then
      let subIeId ← fetch ie subIeOfst.toNat
      let subIeLen ← fetch ie (subIeOfst.toNat + 1)
      if subIeLen.toNat ≤ subIeMaxLen - 2 then
        let sta ← copySubIe ie subIeOfst.toNat subIeId subIeLen sta
        chSwLoop ie turns (subIeOfst + (subIeLen + 2)) sta
      else pure (some sta)
    else pure (some sta)

def wifiMacParseVhtChSwWrp (ie : Nat → UInt8) (turns : Nat) (sta : ChSwSubIe) :
    Traced Access (Option ChSwSubIe) := do
  let elemId ← fetch ie 0
  if elemId ≠ elemidChanSwitchWrap then pure (some sta)
  else chSwLoop ie turns 2 clearedSubIe

/-- `wifi_mac_vht_ie_parse_all`, with the pointer to the wrapper that the scan parameters hold. -/
def wifiMacVhtIeParseAll (vhtChSw : Option (Nat → UInt8)) (turns : Nat) (sta : ChSwSubIe) :
    Traced Access (Option ChSwSubIe) :=
  match vhtChSw with
  | none => pure (some sta)
  | some ie => wifiMacParseVhtChSwWrp ie turns sta

def Ends (ie : Nat → UInt8) (sta : ChSwSubIe) : Prop :=
  ∃ turns after, (wifiMacVhtIeParseAll (some ie) turns sta).value = some after

/-- However long the loop goes on, it reads bytes of the element only. -/
def StaysInside (ie : Nat → UInt8) (sta : ChSwSubIe) : Prop :=
  ∀ turns, InBounds 0 ((ie 1).toNat + 2) (wifiMacVhtIeParseAll (some ie) turns sta)

/-- A chain of sub-elements from an offset on: each has its header in the element, a length of at
most 30 and, if it is of a kind that is kept, its body in the element too; the chain goes on behind
it modulo 256, until it is past the element or at a header with a longer length. -/
inductive SubIeChain (ie : Nat → UInt8) : UInt8 → Prop
  | past {offset : UInt8} : (ie 1).toNat + 2 ≤ offset.toNat → SubIeChain ie offset
  | tooLong {offset : UInt8} : offset.toNat + 2 ≤ (ie 1).toNat + 2 →
      30 < (ie (offset.toNat + 1)).toNat → SubIeChain ie offset
  | next {offset : UInt8} : offset.toNat + 2 ≤ (ie 1).toNat + 2 →
      (ie (offset.toNat + 1)).toNat ≤ 30 →
      (subIeKept (ie offset.toNat) →
        offset.toNat + ((ie (offset.toNat + 1)).toNat + 2) ≤ (ie 1).toNat + 2) →
      SubIeChain ie (offset + (ie (offset.toNat + 1) + 2)) → SubIeChain ie offset

def subIeAfter (ie : Nat → UInt8) (offset : UInt8) : UInt8 :=
  offset + (ie (offset.toNat + 1) + 2)

/-- The offsets that the loop comes to, however long it goes on. -/
inductive SubIeMet (ie : Nat → UInt8) : UInt8 → Prop
  | first : SubIeMet ie 2
  | next {offset : UInt8} : SubIeMet ie offset → offset.toNat < (ie 1).toNat + 2 →
      (ie (offset.toNat + 1)).toNat ≤ 30 → SubIeMet ie (subIeAfter ie offset)

/-- A sub-element has its header in the element and, if it is copied, its body. -/
def SubIeInside (ie : Nat → UInt8) (offset : UInt8) : Prop :=
  offset.toNat + 2 ≤ (ie 1).toNat + 2 ∧
    ((ie (offset.toNat + 1)).toNat ≤ 30 → subIeKept (ie offset.toNat) →
      offset.toNat + ((ie (offset.toNat + 1)).toNat + 2) ≤ (ie 1).toNat + 2)

/-- Every sub-element that the loop comes to is inside of the element. -/
def SubIesInside (ie : Nat → UInt8) : Prop :=
  ∀ offset, SubIeMet ie offset → offset.toNat < (ie 1).toNat + 2 → SubIeInside ie offset

section Loop

variable {ie : Nat → UInt8} {turns high : Nat} {offset : UInt8} {sta : ChSwSubIe}

private theorem copySubIe_safe (subIeOfst : Nat) (subIeId subIeLen : UInt8) (sta : ChSwSubIe) :
    InBounds 0 high (copySubIe ie subIeOfst subIeId subIeLen sta) ↔
      (subIeKept subIeId → subIeOfst + (subIeLen.toNat + 2) ≤ high) := by
  rw [copySubIe, subIeKept]
  split
  next country => simp [country]
  next other =>
    split
    next wide => simp [wide]
    next other =>
      split
      next envelope => simp [envelope]
      next other => simp [*]

theorem chSwLoop_past (turns : Nat) (sta : ChSwSubIe) (past : (ie 1).toNat + 2 ≤ offset.toNat) :
    (chSwLoop ie (turns + 1) offset sta).value = some sta ∧
      InBounds 0 ((ie 1).toNat + 2) (chSwLoop ie (turns + 1) offset sta) := by
  have behind : ¬ offset.toNat < (ie 1).toNat + 2 := by omega
  constructor
  · simp [chSwLoop, behind]
  · simp [chSwLoop, behind]

/-- At a length that no buffer has room for the loop ends. -/
theorem chSwLoop_tooLong (turns : Nat) (sta : ChSwSubIe)
    (before : offset.toNat < (ie 1).toNat + 2) (long : 30 < (ie (offset.toNat + 1)).toNat) :
    (chSwLoop ie (turns + 1) offset sta).value = some sta ∧
      (InBounds 0 ((ie 1).toNat + 2) (chSwLoop ie (turns + 1) offset sta) ↔
        offset.toNat + 2 ≤ (ie 1).toNat + 2) := by
  have refused : ¬ (ie (offset.toNat + 1)).toNat ≤ 30 := by omega
  constructor
  · simp [chSwLoop, before, refused]
  · simp [chSwLoop, before, refused]
    omega

def copied (ie : Nat → UInt8) (offset : UInt8) (sta : ChSwSubIe) : ChSwSubIe :=
  (copySubIe ie offset.toNat (ie offset.toNat) (ie (offset.toNat + 1)) sta).value

/-- Any other turn copies a sub-element and goes on behind it. -/
theorem chSwLoop_next (turns : Nat) (sta : ChSwSubIe)
    (before : offset.toNat < (ie 1).toNat + 2) (short : (ie (offset.toNat + 1)).toNat ≤ 30) :
    (chSwLoop ie (turns + 1) offset sta).value =
        (chSwLoop ie turns (offset + (ie (offset.toNat + 1) + 2)) (copied ie offset sta)).value ∧
      (InBounds 0 ((ie 1).toNat + 2) (chSwLoop ie (turns + 1) offset sta) ↔
        offset.toNat + 2 ≤ (ie 1).toNat + 2 ∧
        (subIeKept (ie offset.toNat) →
          offset.toNat + ((ie (offset.toNat + 1)).toNat + 2) ≤ (ie 1).toNat + 2) ∧
        InBounds 0 ((ie 1).toNat + 2)
          (chSwLoop ie turns (offset + (ie (offset.toNat + 1) + 2)) (copied ie offset sta))) := by
  constructor
  · simp [chSwLoop, before, short, copied]
  · simp [chSwLoop, before, short, copySubIe_safe, copied]
    omega

private theorem chSwLoop_inside (inside : SubIesInside ie) (met : SubIeMet ie offset) (turns : Nat)
    (sta : ChSwSubIe) : InBounds 0 ((ie 1).toNat + 2) (chSwLoop ie turns offset sta) := by
  induction turns generalizing offset sta with
  | zero => exact Memory.inBounds_pure none
  | succ turns induction =>
    by_cases before : offset.toNat < (ie 1).toNat + 2
    · obtain ⟨header, body⟩ := inside offset met before
      by_cases short : (ie (offset.toNat + 1)).toNat ≤ 30
      · have onward := chSwLoop_next turns sta before short
        exact onward.2.mpr ⟨header, body short, induction (met.next before short) _⟩
      · have stopped := chSwLoop_tooLong turns sta before (Nat.lt_of_not_le short)
        exact stopped.2.mpr header
    · exact (chSwLoop_past turns sta (Nat.le_of_not_lt before)).2

/-- The loop comes to every offset that is met. -/
theorem SubIeMet.reached (met : SubIeMet ie offset)
    (inside : ∀ turns, InBounds 0 ((ie 1).toNat + 2) (chSwLoop ie turns 2 clearedSubIe)) :
    ∃ sta, ∀ turns, InBounds 0 ((ie 1).toNat + 2) (chSwLoop ie turns offset sta) := by
  induction met with
  | first => exact ⟨clearedSubIe, inside⟩
  | @next offset met before short induction =>
    obtain ⟨sta, inside⟩ := induction
    refine ⟨copied ie offset sta, fun turns => ?_⟩
    have onward := chSwLoop_next turns sta before short
    exact (onward.2.mp (inside (turns + 1))).2.2

theorem chSwLoop_inside_iff :
    (∀ turns, InBounds 0 ((ie 1).toNat + 2) (chSwLoop ie turns 2 clearedSubIe)) ↔
      SubIesInside ie := by
  constructor
  case mpr =>
    intro inside turns
    exact chSwLoop_inside inside .first turns clearedSubIe
  case mp =>
    intro inside offset met before
    obtain ⟨sta, turn⟩ := met.reached inside
    by_cases short : (ie (offset.toNat + 1)).toNat ≤ 30
    · have onward := (chSwLoop_next 0 sta before short).2.mp (turn 1)
      exact ⟨onward.1, fun _ => onward.2.1⟩
    · have stopped := chSwLoop_tooLong 0 sta before (Nat.lt_of_not_le short)
      exact ⟨stopped.2.mp (turn 1), fun fits => absurd fits short⟩

private theorem SubIeChain.ends (chain : SubIeChain ie offset) (sta : ChSwSubIe) :
    ∃ turns after, (chSwLoop ie turns offset sta).value = some after := by
  induction chain generalizing sta with
  | past behind => exact ⟨1, sta, (chSwLoop_past 0 sta behind).1⟩
  | tooLong header long => exact ⟨1, sta, (chSwLoop_tooLong 0 sta (by omega) long).1⟩
  | @next offset header short body rest induction =>
    obtain ⟨turns, after, ended⟩ := induction (copied ie offset sta)
    have onward := chSwLoop_next turns sta (by omega) short
    exact ⟨turns + 1, after, onward.1.trans ended⟩

private theorem SubIeChain.inside (chain : SubIeChain ie offset) (turns : Nat) (sta : ChSwSubIe) :
    InBounds 0 ((ie 1).toNat + 2) (chSwLoop ie turns offset sta) := by
  induction chain generalizing turns sta with
  | past behind =>
    cases turns with
    | zero => exact Memory.inBounds_pure none
    | succ turns => exact (chSwLoop_past turns sta behind).2
  | tooLong header long =>
    cases turns with
    | zero => exact Memory.inBounds_pure none
    | succ turns => exact (chSwLoop_tooLong turns sta (by omega) long).2.mpr header
  | next header short body rest induction =>
    cases turns with
    | zero => exact Memory.inBounds_pure none
    | succ turns =>
      have onward := chSwLoop_next turns sta (by omega) short
      exact onward.2.mpr ⟨header, body, induction turns _⟩

/-- A walk that ends inside the element has gone along a chain of sub-elements. -/
theorem chain_of_walk {after : ChSwSubIe}
    (ended : (chSwLoop ie turns offset sta).value = some after)
    (inside : InBounds 0 ((ie 1).toNat + 2) (chSwLoop ie turns offset sta)) :
    SubIeChain ie offset := by
  induction turns generalizing offset sta with
  | zero => cases ended
  | succ turns induction =>
    by_cases before : offset.toNat < (ie 1).toNat + 2
    · by_cases short : (ie (offset.toNat + 1)).toNat ≤ 30
      · have onward := chSwLoop_next turns sta before short
        obtain ⟨header, body, rest⟩ := onward.2.mp inside
        exact SubIeChain.next header short body (induction (onward.1.symm.trans ended) rest)
      · have stopped := chSwLoop_tooLong turns sta before (by omega)
        exact SubIeChain.tooLong (stopped.2.mp inside) (by omega)
    · exact SubIeChain.past (by omega)

private theorem next_toNat (ie : Nat → UInt8) (offset : UInt8) :
    (offset + (ie (offset.toNat + 1) + 2)).toNat =
      (offset.toNat + ((ie (offset.toNat + 1)).toNat + 2)) % 256 := by
  rw [UInt8.toNat_add, UInt8.toNat_add]
  simp

end Loop

section Wrapper

variable {ie : Nat → UInt8} {turns : Nat}

theorem parse_value (sta : ChSwSubIe) (wrapper : ie 0 = elemidChanSwitchWrap) :
    (wifiMacVhtIeParseAll (some ie) turns sta).value =
      (chSwLoop ie turns 2 clearedSubIe).value := by
  simp [wifiMacVhtIeParseAll, wifiMacParseVhtChSwWrp, wrapper]

theorem parse_safe (sta : ChSwSubIe) (wrapper : ie 0 = elemidChanSwitchWrap) :
    InBounds 0 ((ie 1).toNat + 2) (wifiMacVhtIeParseAll (some ie) turns sta) ↔
      InBounds 0 ((ie 1).toNat + 2) (chSwLoop ie turns 2 clearedSubIe) := by
  simp [wifiMacVhtIeParseAll, wifiMacParseVhtChSwWrp, wrapper]

/-- The parse of a wrapper ends inside of it where its bytes are a chain of sub-elements. -/
theorem ch_sw_wrp_iff (ie : Nat → UInt8) (sta : ChSwSubIe)
    (wrapper : ie 0 = elemidChanSwitchWrap) :
    (Ends ie sta ∧ StaysInside ie sta) ↔ SubIeChain ie 2 := by
  constructor
  · intro good
    obtain ⟨⟨turns, after, ended⟩, inside⟩ := good
    rw [parse_value sta wrapper] at ended
    exact chain_of_walk ended ((parse_safe sta wrapper).mp (inside turns))
  · intro chain
    constructor
    · obtain ⟨turns, after, ended⟩ := chain.ends clearedSubIe
      exact ⟨turns, after, (parse_value sta wrapper).trans ended⟩
    · intro turns
      exact (parse_safe sta wrapper).mpr (chain.inside turns clearedSubIe)

/-- A wrapper of 15 bytes: a country, a sub-element that is not kept, a channel switch, an empty
power envelope, and a header with a length that ends the loop. -/
def mixedWrapper (place : Nat) : UInt8 :=
  [196, 15, 7, 3, 85, 83, 32, 9, 0, 194, 2, 1, 42, 195, 0, 1, 31].getD place 0

theorem ch_sw_wrp_iff_mixed :
    Ends mixedWrapper clearedSubIe ∧ StaysInside mixedWrapper clearedSubIe := by
  refine (ch_sw_wrp_iff mixedWrapper clearedSubIe rfl).mpr ?_
  have country := @SubIeChain.next mixedWrapper 2 (by decide) (by decide) (by decide)
  have skipped := @SubIeChain.next mixedWrapper 7 (by decide) (by decide) (by decide)
  have switch := @SubIeChain.next mixedWrapper 9 (by decide) (by decide) (by decide)
  have envelope := @SubIeChain.next mixedWrapper 13 (by decide) (by decide) (by decide)
  have ended := @SubIeChain.tooLong mixedWrapper 15 (by decide) (by decide)
  exact country (skipped (switch (envelope ended)))

/-- A wrapper of 255 bytes with sub-elements of 30 bytes at 2, 34 and so on up to 226: behind the
last one the offset is 258, which is 2 again. -/
def ringWrapper (place : Nat) : UInt8 :=
  if place = 0 then elemidChanSwitchWrap
  else if place = 1 then 255
  else if place % 32 = 3 then 30
  else 0

private theorem ringWrapper_turns (turns : Nat) {offset : UInt8} (sta : ChSwSubIe)
    (place : offset.toNat % 32 = 2) : (chSwLoop ringWrapper turns offset sta).value = none := by
  induction turns generalizing offset sta with
  | zero => rfl
  | succ turns induction =>
    have length_eq : ringWrapper (offset.toNat + 1) = 30 := by
      rw [ringWrapper, if_neg (by omega), if_neg (by omega), if_pos (by omega)]
    have bound : offset.toNat < (ringWrapper 1).toNat + 2 := by
      have eight := offset.toNat_lt
      have element : (ringWrapper 1).toNat = 255 := rfl
      omega
    have onward := chSwLoop_next turns sta bound (by rw [length_eq]; decide)
    have next_eq := next_toNat ringWrapper offset
    rw [onward.1]
    apply induction
    rw [next_eq, length_eq]
    have thirty : (30 : UInt8).toNat = 30 := rfl
    omega

/-- The parse of this beacon never ends. -/
theorem ch_sw_wrp_spins :
    ringWrapper 0 = elemidChanSwitchWrap ∧
      ¬ (Ends ringWrapper clearedSubIe ∧ StaysInside ringWrapper clearedSubIe) := by
  refine ⟨rfl, fun good => ?_⟩
  obtain ⟨turns, after, ended⟩ := good.1
  rw [parse_value clearedSubIe rfl, ringWrapper_turns turns clearedSubIe rfl] at ended
  cases ended

end Wrapper

end W522a.Ie
