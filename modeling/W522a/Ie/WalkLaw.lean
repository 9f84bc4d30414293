import W522a.Ie.Walk
import W522a.Lib.Tlv

/-!
What the walk over the elements stores: for each pointer the last element of its kind that comes
before the walk stops, which lies in the frame.
-/

namespace W522a.Ie

open Memory (Safe)
open Tlv (elements lastWhere)

section Looks

variable {frame : MgmtFrame} {frm offset place count : Nat}

@[simp] theorem safe_look_ie : Safe (Look.Allowed frame) (frame.look frm offset) ↔
    offset + 1 ≤ frame.ieLen frm + 2 := by
  simp [MgmtFrame.look, Look.Allowed]

@[simp] theorem safe_look16 : Safe (Look.Allowed frame) (frame.look16 frm offset) ↔
    offset + 2 ≤ frame.ieLen frm + 2 := by
  simp [MgmtFrame.look16, Look.Allowed]

@[simp] theorem safe_look32 : Safe (Look.Allowed frame) (frame.look32 frm offset) ↔
    offset + 4 ≤ frame.ieLen frm + 2 := by
  simp [MgmtFrame.look32, Look.Allowed]

@[simp] theorem safe_lookBytes : Safe (Look.Allowed frame) (frame.lookBytes frm offset count) ↔
    offset + count ≤ frame.ieLen frm + 2 := by
  simp [MgmtFrame.lookBytes, Look.Allowed]

@[simp] theorem safe_peek : Safe (Look.Allowed frame) (frame.peek place) ↔
    place + 1 ≤ frame.pktlen := by
  simp [MgmtFrame.peek, Look.Allowed]

@[simp] theorem safe_peek16 : Safe (Look.Allowed frame) (frame.peek16 place) ↔
    place + 2 ≤ frame.pktlen := by
  simp [MgmtFrame.peek16, Look.Allowed]

@[simp] theorem value_look_ie : (frame.look frm offset).value = frame.byte (frm + offset) := by
  simp [MgmtFrame.look]

@[simp] theorem value_peek : (frame.peek place).value = frame.byte place := by
  simp [MgmtFrame.peek]

end Looks

/-- The pointer that an element is stored in. -/
def storedField (cfgMacMode : Nat) (frame : MgmtFrame) (frm : Nat) : Option IeField :=
  match (frame.byte frm).toNat with
  | 5 => some .tim
  | 221 => (vendorField frame frm).value
  | 61 => if cfg11n ≤ cfgMacMode then some .htinfo else none
  | id => plainField cfgMacMode id

/-- An element at which the walk gives up. -/
def refuses (frame : MgmtFrame) (frm : Nat) : Bool :=
  match (frame.byte frm).toNat with
  | 2 => decide (frame.pktlen ≤ frm + 6)
  | 3 => decide (frame.pktlen ≤ frm + 2)
  | 42 => decide (frame.pktlen ≤ frm + 2) || decide (frame.ieLen frm ≠ 1)
  | _ => false

/-- An element whose first byte is the channel. -/
def givesChan (cfgMacMode : Nat) (frame : MgmtFrame) (frm : Nat) : Bool :=
  match (frame.byte frm).toNat with
  | 3 => true
  | 61 => decide (cfg11n ≤ cfgMacMode)
  | _ => false

section Element

variable {cfgMacMode frm : Nat} {frame : MgmtFrame} {scan : ScanParam}

private theorem vendorField_safe : Safe (Look.Allowed frame) (vendorField frame frm) := by
  have wpa : Safe (Look.Allowed frame) (iswpaoui frame frm) := by
    rw [iswpaoui]
    simp only [Memory.safe_bind, safe_look_ie, value_look_ie]
    refine ⟨by omega, ?_⟩
    split
    next long =>
      simp only [Memory.safe_bind, safe_look32, Memory.safe_pure, and_true]
      show 2 + 4 ≤ (frame.byte (frm + 1)).toNat + 2
      omega
    next short => exact Memory.safe_pure _
  have wme : ∀ subtype, Safe (Look.Allowed frame) (iswmeSubtype subtype frame frm) := by
    intro subtype
    rw [iswmeSubtype]
    simp only [Memory.safe_bind, safe_look_ie, value_look_ie]
    refine ⟨by omega, ?_⟩
    split
    next long =>
      have len : 5 < frame.ieLen frm := long
      simp only [Memory.safe_bind, safe_look32]
      refine ⟨by omega, ?_⟩
      split
      next same =>
        simp only [Memory.safe_bind, safe_look_ie, Memory.safe_pure, and_true]
        omega
      next other => exact Memory.safe_pure _
    next short => exact Memory.safe_pure _
  have wps : Safe (Look.Allowed frame) (iswpsoui frame frm) := by
    rw [iswpsoui]
    simp only [Memory.safe_bind, safe_look_ie, value_look_ie]
    refine ⟨by omega, ?_⟩
    split
    next long =>
      simp only [Memory.safe_bind, safe_lookBytes, Memory.safe_pure, and_true]
      show 2 + 4 ≤ (frame.byte (frm + 1)).toNat + 2
      omega
    next short => exact Memory.safe_pure _
  rw [vendorField]
  simp only [Memory.safe_bind]
  refine ⟨wpa, ?_⟩
  split
  next => exact Memory.safe_pure _
  next =>
    simp only [Memory.safe_bind]
    refine ⟨wme 1, ?_⟩
    split
    next => exact Memory.safe_pure _
    next =>
      simp only [Memory.safe_bind]
      refine ⟨wme 0, ?_⟩
      split
      next => exact Memory.safe_pure _
      next =>
        simp only [Memory.safe_bind]
        refine ⟨wps, ?_⟩
        split
        next => exact Memory.safe_pure _
        next => exact Memory.safe_pure _

theorem noteElement_safe :
    Safe (Look.Allowed frame) (noteElement cfgMacMode frame frm scan) ↔
      ((frame.byte frm).toNat = 61 → cfg11n ≤ cfgMacMode → 1 ≤ frame.ieLen frm) := by
  rw [noteElement]
  simp only [Memory.safe_bind, safe_look_ie, value_look_ie, Nat.add_zero]
  rw [and_iff_right (by omega)]
  split
  next id =>
    have other : ¬ (frame.byte frm).toNat = 61 := by omega
    split <;> simp [other]
  next id =>
    have other : ¬ (frame.byte frm).toNat = 61 := by omega
    split
    next short => simp [other]
    next long =>
      simp [other]
      omega
  next id =>
    have other : ¬ (frame.byte frm).toNat = 61 := by omega
    simp [other]
  next id =>
    have other : ¬ (frame.byte frm).toNat = 61 := by omega
    simp only [Memory.safe_bind, safe_look_ie, value_look_ie, other, false_implies, iff_true]
    refine ⟨by omega, ?_⟩
    split
    next short => exact Memory.safe_pure _
    next long =>
      rw [not_or, not_not] at long
      have one : frame.ieLen frm = 1 := by rw [MgmtFrame.ieLen, long.2]; rfl
      simp only [Memory.safe_bind, safe_look_ie, Memory.safe_pure, and_true]
      omega
  next id =>
    have other : ¬ (frame.byte frm).toNat = 61 := by omega
    simp [other, vendorField_safe]
  next id =>
    split
    next ht => simp [id, ht]
    next legacy => simp [legacy]
  next =>
    simp only [Memory.safe_pure, true_iff]
    intro id
    contradiction

/-- What the fixed fields of a frame say: the capabilities and the status. -/
def ScanParam.fixed (scan : ScanParam) : Nat × Nat := (scan.capinfo, scan.statusCode)

/-- What the walk makes of an element at which it does not give up. -/
def noted (cfgMacMode : Nat) (frame : MgmtFrame) (scan : ScanParam) (frm : Nat) : ScanParam :=
  match (frame.byte frm).toNat with
  | 2 => scan
  | 3 => { scan with chan := (frame.byte (frm + 2)).toNat }
  | 5 => { scan.store .tim frm with timoff := frm % 256 }
  | 42 => { scan with erp := frame.byte (frm + 2) }
  | 221 => scan.storeIn (vendorField frame frm).value frm
  | 61 =>
    if cfg11n ≤ cfgMacMode then
      { scan.store .htinfo frm with chan := (frame.byte (frm + 2)).toNat }
    else scan
  | id => scan.storeIn (plainField cfgMacMode id) frm

theorem noteElement_value : (noteElement cfgMacMode frame frm scan).value =
    if refuses frame frm then none else some (noted cfgMacMode frame scan frm) := by
  rw [noteElement, refuses, noted]
  simp only [Memory.value_bind, value_look_ie, Nat.add_zero]
  split
  next id => split <;> simp [*]
  next id => split <;> simp [*]
  next id => simp [id]
  next id =>
    have one : frame.ieLen frm = 1 ↔ frame.byte (frm + 1) = 1 := by
      rw [MgmtFrame.ieLen, ← UInt8.toNat_inj]
      rfl
    by_cases short : frame.pktlen ≤ frm + 2 ∨ frame.byte (frm + 1) ≠ 1
    · have refused : (decide (frame.pktlen ≤ frm + 2) || decide (frame.ieLen frm ≠ 1)) = true := by
        simpa only [Bool.or_eq_true, decide_eq_true_eq, ne_eq, one] using short
      simp only [Memory.value_bind, value_look_ie]
      rw [if_pos short]
      simp only [id, refused]
      rfl
    · obtain ⟨inside, single⟩ := not_or.mp short
      simp only [Memory.value_bind, value_look_ie]
      rw [if_neg short]
      simp [id]
      exact ⟨by omega, one.mpr (not_not.mp single)⟩
  next id => simp [id]
  next id => split <;> simp [*]
  next => simp

theorem noted_ie (cfgMacMode : Nat) (frame : MgmtFrame) (field : IeField) (scan : ScanParam)
    (frm : Nat) :
    (noted cfgMacMode frame scan frm).ie field =
      if storedField cfgMacMode frame frm = some field then some frm else scan.ie field := by
  have stores : ∀ (found : Option IeField) (later : ScanParam),
      later.ie = (scan.storeIn found frm).ie →
      later.ie field = if found = some field then some frm else scan.ie field := by
    intro found later same
    rw [same]
    cases found with
    | none => simp [ScanParam.storeIn]
    | some other =>
      by_cases here : other = field
      · simp [ScanParam.storeIn, ScanParam.store, here]
      · simp [ScanParam.storeIn, ScanParam.store, here, Ne.symm here]
  rw [noted, storedField]
  split
  next id =>
    rw [id]
    exact stores none _ rfl
  next id =>
    rw [id]
    exact stores none _ rfl
  next id =>
    rw [id]
    exact stores (some .tim) _ rfl
  next id =>
    rw [id]
    exact stores none _ rfl
  next id =>
    rw [id]
    exact stores _ _ rfl
  next id =>
    rw [id]
    split
    next ht => exact stores (some .htinfo) _ rfl
    next legacy => exact stores none _ rfl
  next =>
    split
    next id => contradiction
    next id => contradiction
    next id => contradiction
    next => exact stores _ _ rfl

theorem noted_chan (cfgMacMode : Nat) (frame : MgmtFrame) (scan : ScanParam) (frm : Nat) :
    (noted cfgMacMode frame scan frm).chan =
      if givesChan cfgMacMode frame frm then (frame.byte (frm + 2)).toNat else scan.chan := by
  have kept : ∀ found, (scan.storeIn found frm).chan = scan.chan := by
    intro found
    cases found with
    | none => rfl
    | some field => rfl
  rw [noted, givesChan]
  split
  next id => simp [id]
  next id => simp [id]
  next id =>
    simp only [id]
    rfl
  next id => simp [id]
  next id =>
    simp only [id]
    exact kept _
  next id => split <;> simp [*]
  next =>
    split
    next id => contradiction
    next id => contradiction
    next => exact kept _

theorem noted_fixed (cfgMacMode : Nat) (frame : MgmtFrame) (scan : ScanParam) (frm : Nat) :
    (noted cfgMacMode frame scan frm).fixed = scan.fixed := by
  have kept : ∀ found, (scan.storeIn found frm).fixed = scan.fixed := by
    intro found
    cases found with
    | none => rfl
    | some field => rfl
  rw [noted]
  split
  next => rfl
  next => rfl
  next => rfl
  next => rfl
  next => exact kept _
  next =>
    split
    next ht => rfl
    next legacy => rfl
  next => exact kept _

end Element

section Loop

variable {cfgMacMode : Nat} {frame : MgmtFrame}

/-- The elements that the walk takes from some place on: those before the first that it refuses. -/
def takenFrom (frame : MgmtFrame) (turns frm : Nat) : List Nat :=
  (elements frame.ieLen frame.pktlen turns frm).takeWhile fun elem => !refuses frame elem

private theorem elementLoop_succ (cfgMacMode turns : Nat) (frame : MgmtFrame) (frm : Nat)
    (scan : ScanParam) :
    (elementLoop cfgMacMode frame (turns + 1) frm scan).value =
      if frm + frame.ieLen frm + 1 < frame.pktlen then
        if refuses frame frm then (true, scan)
        else (elementLoop cfgMacMode frame turns (frm + frame.ieLen frm + 2)
          (noted cfgMacMode frame scan frm)).value
      else (decide (frame.pktlen < frm), scan) := by
  rw [elementLoop]
  by_cases header : frm + 1 < frame.pktlen
  · rw [if_pos header]
    simp only [Memory.value_bind, value_peek]
    change (if frm + frame.ieLen frm + 1 < frame.pktlen then _ else _ : Reader _).value = _
    by_cases whole : frm + frame.ieLen frm + 1 < frame.pktlen
    · rw [if_pos whole, if_pos whole]
      simp only [Memory.value_bind, noteElement_value]
      cases refuses frame frm with
      | true => rfl
      | false => rfl
    · rw [if_neg whole, if_neg whole]
      rfl
  · rw [if_neg header, if_neg (by omega)]
    rfl

/-- The walk is the fold over the elements it takes, and it is valid when it refuses none. -/
theorem elementLoop_value (turns frm : Nat) (scan : ScanParam) :
    (elementLoop cfgMacMode frame turns frm scan).value =
      ((elements frame.ieLen frame.pktlen turns frm).any (refuses frame) ||
          decide (frame.pktlen < frm),
        (takenFrom frame turns frm).foldl (noted cfgMacMode frame) scan) := by
  induction turns generalizing frm scan with
  | zero => simp [elementLoop, takenFrom, elements]
  | succ turns induction =>
    rw [elementLoop_succ, takenFrom, elements]
    by_cases whole : frm + frame.ieLen frm + 1 < frame.pktlen
    · have inside : decide (frame.pktlen < frm) = false := by simpa using (by omega)
      have next : decide (frame.pktlen < frm + frame.ieLen frm + 2) = false :=
        decide_eq_false (Nat.not_lt_of_le whole)
      simp only [if_pos whole, inside]
      cases refused : refuses frame frm with
      | true => simp [refused]
      | false =>
        have rest := induction (frm + frame.ieLen frm + 2) (noted cfgMacMode frame scan frm)
        simp [refused, rest, takenFrom, next]
    · simp [whole]

/-- The walk reads inside of the elements when each HT information element has a first byte. -/
theorem elementLoop_safe (turns frm : Nat) (scan : ScanParam) :
    Safe (Look.Allowed frame) (elementLoop cfgMacMode frame turns frm scan) ↔
      ∀ elem ∈ takenFrom frame turns frm,
        (frame.byte elem).toNat = 61 → cfg11n ≤ cfgMacMode → 1 ≤ frame.ieLen elem := by
  induction turns generalizing frm scan with
  | zero => simp [elementLoop, takenFrom, elements]
  | succ turns induction =>
    rw [elementLoop, takenFrom, elements]
    by_cases header : frm + 1 < frame.pktlen
    · rw [if_pos header]
      simp only [Memory.safe_bind, safe_peek, value_peek]
      rw [and_iff_right (by omega)]
      change Safe _ (if frm + frame.ieLen frm + 1 < frame.pktlen then _ else _) ↔ _
      by_cases whole : frm + frame.ieLen frm + 1 < frame.pktlen
      · simp only [if_pos whole, Memory.safe_bind, noteElement_safe, noteElement_value]
        cases refused : refuses frame frm with
        | true =>
          have other : (frame.byte frm).toNat ≠ 61 := by
            intro id
            simp [refuses, id] at refused
          simp [refused, other]
        | false =>
          have rest := induction (frm + frame.ieLen frm + 2) (noted cfgMacMode frame scan frm)
          simp only [List.takeWhile_cons, refused, Bool.not_false, if_true, List.forall_mem_cons]
          exact and_congr_right fun _ => rest
      · simp [whole]
    · have cut : ¬ frm + frame.ieLen frm + 1 < frame.pktlen := by omega
      simp [header, cut]

end Loop

section Walk

variable {cfgMacMode frm : Nat} {frame : MgmtFrame} {field : IeField}

/-- Where the elements of a frame start, if its fixed fields are there. -/
def ieStart (frame : MgmtFrame) : Option Nat :=
  let subtype := (frame.byte 0).toNat &&& 0xf0
  if subtype = 0x80 ∨ subtype = 0x50 then
    if frame.pktlen < wifiFrameLen + 12 then none else some (wifiFrameLen + 12)
  else if subtype = 0x10 then
    if frame.pktlen < wifiFrameLen + 6 then none else some (wifiFrameLen + 6)
  else some wifiFrameLen

/-- The capabilities and the status of a frame whose fixed fields are there. -/
def fixedPart (frame : MgmtFrame) : Nat × Nat :=
  let subtype := (frame.byte 0).toNat &&& 0xf0
  if subtype = 0x80 ∨ subtype = 0x50 then
    if frame.pktlen < wifiFrameLen + 12 then (0, 0)
    else (Ap.read16l frame.byte (wifiFrameLen + 10), 0)
  else if subtype = 0x10 then
    if frame.pktlen < wifiFrameLen + 6 then (0, 0)
    else (Ap.read16l frame.byte wifiFrameLen, Ap.read16l frame.byte (wifiFrameLen + 2))
  else (0, 0)

/-- The elements that the walk over a frame takes. -/
def walked (frame : MgmtFrame) : List Nat :=
  match ieStart frame with
  | none => []
  | some start => takenFrom frame frame.pktlen start

/-- A frame that has its fixed fields and no element at which the walk gives up. -/
def Complete (frame : MgmtFrame) : Prop :=
  ∃ start, ieStart frame = some start ∧ start ≤ frame.pktlen ∧
    ∀ elem ∈ elements frame.ieLen frame.pktlen frame.pktlen start, refuses frame elem = false

/-- The element that a pointer designates: the last one of its kind that the walk takes. -/
def designated (cfgMacMode : Nat) (frame : MgmtFrame) (field : IeField) : Option Nat :=
  lastWhere (fun elem => storedField cfgMacMode frame elem = some field) (walked frame)

/-- The channel that the elements name, or 0. -/
def namedChan (cfgMacMode : Nat) (frame : MgmtFrame) : Nat :=
  ((lastWhere (givesChan cfgMacMode frame) (walked frame)).map
    fun elem => (frame.byte (elem + 2)).toNat).getD 0

theorem walked_inside (member : frm ∈ walked frame) :
    wifiFrameLen ≤ frm ∧ frm + frame.ieLen frm + 2 ≤ frame.pktlen := by
  rw [walked] at member
  split at member
  next short => cases member
  next start fixed =>
    have listed := List.takeWhile_subset _ member
    obtain ⟨after, inside⟩ := Tlv.elements_inside listed
    refine ⟨Nat.le_trans ?_ after, inside⟩
    revert fixed
    rw [ieStart]
    split
    next =>
      split
      next => exact nofun
      next =>
        rintro ⟨⟩
        exact Nat.le_add_right _ _
    next =>
      split
      next =>
        split
        next => exact nofun
        next =>
          rintro ⟨⟩
          exact Nat.le_add_right _ _
      next =>
        rintro ⟨⟩
        exact Nat.le_refl _

/-- The fixed fields leave the pointers and the channel alone. -/
theorem fixedFields_value (frame : MgmtFrame) (scan : ScanParam) :
    ((fixedFields frame scan).value = none ∧ ieStart frame = none) ∨
      ∃ start later, (fixedFields frame scan).value = some (start, later) ∧
        ieStart frame = some start ∧ later.ie = scan.ie ∧ later.chan = scan.chan := by
  rw [fixedFields, ieStart]
  split
  next =>
    split
    next => exact .inl ⟨rfl, rfl⟩
    next => exact .inr ⟨_, _, rfl, rfl, rfl, rfl⟩
  next =>
    split
    next =>
      split
      next => exact .inl ⟨rfl, rfl⟩
      next => exact .inr ⟨_, _, rfl, rfl, rfl, rfl⟩
    next => exact .inr ⟨_, _, rfl, rfl, rfl, rfl⟩

theorem fixedFields_safe (scan : ScanParam) :
    Safe (Look.Allowed frame) (fixedFields frame scan) := by
  rw [fixedFields]
  split
  next =>
    split
    next => exact Memory.safe_pure _
    next long =>
      simp only [wifiFrameLen] at long
      simp
      omega
  next =>
    split
    next =>
      split
      next => exact Memory.safe_pure _
      next long =>
        simp only [wifiFrameLen] at long
        simp
        omega
    next => exact Memory.safe_pure _

/-- What the parse of a frame leaves: in each pointer the element it designates, the channel that
is named, and whether the frame is complete. -/
theorem pktParse_value (cfgMacMode : Nat) (frame : MgmtFrame) :
    (∀ field, (wifiMacPktParseElement cfgMacMode frame).value.2.ie field =
      designated cfgMacMode frame field) ∧
    (wifiMacPktParseElement cfgMacMode frame).value.2.chan = namedChan cfgMacMode frame ∧
    ((wifiMacPktParseElement cfgMacMode frame).value.1 = false ↔ Complete frame) := by
  rw [wifiMacPktParseElement]
  simp only [Memory.value_bind]
  obtain ⟨short, absent⟩ | ⟨start, later, fixed, present, ie, chan⟩ :=
    fixedFields_value frame { clearedScan with frameLen := frame.pktlen }
  · rw [short]
    refine ⟨fun field => ?_, ?_, ?_⟩
    · simp [designated, walked, absent, Tlv.lastWhere, clearedScan]
    · simp [namedChan, walked, absent, Tlv.lastWhere, clearedScan]
    · refine iff_of_false (fun accepted => by cases accepted) ?_
      rintro ⟨start, found, -⟩
      rw [absent] at found
      cases found
  · rw [fixed]
    simp only [elementLoop_value]
    have taken : walked frame = takenFrom frame frame.pktlen start := by rw [walked, present]
    refine ⟨fun field => ?_, ?_, ?_⟩
    · have written : ∀ scan frm, (noted cfgMacMode frame scan frm).ie field =
          if decide (storedField cfgMacMode frame frm = some field) then some frm
          else scan.ie field := by
        intro scan frm
        simpa using noted_ie cfgMacMode frame field scan frm
      have stored := Tlv.foldl_last (fun scan : ScanParam => scan.ie field) written
        (takenFrom frame frame.pktlen start) later
      rw [designated, taken, stored, ie]
      cases lastWhere _ (takenFrom frame frame.pktlen start) with
      | none => rfl
      | some elem => rfl
    · have named := Tlv.foldl_last (fun scan : ScanParam => scan.chan) (noted_chan cfgMacMode frame)
        (takenFrom frame frame.pktlen start) later
      rw [namedChan, taken, named, chan]
      rfl
    · rw [Bool.or_eq_false_iff, decide_eq_false_iff_not, Nat.not_lt, List.any_eq_false]
      constructor
      · intro complete
        exact ⟨start, present, complete.2, fun elem member => by
          simpa using complete.1 elem member⟩
      · rintro ⟨other, found, inside, accepted⟩
        cases present.symm.trans found
        exact ⟨fun elem member => by simpa using accepted elem member, inside⟩

private theorem fixedFields_fixed {scan : ScanParam} (cleared : scan.fixed = (0, 0)) :
    ((fixedFields frame scan).value.elim scan Prod.snd).fixed = fixedPart frame := by
  rw [fixedFields, fixedPart]
  split
  next beacon =>
    split
    next short => exact cleared
    next long => exact congrArg (Prod.mk _) (congrArg Prod.snd cleared)
  next other =>
    split
    next response =>
      split
      next short => exact cleared
      next long => rfl
    next plain => exact cleared

theorem pktParse_fixed (cfgMacMode : Nat) (frame : MgmtFrame) :
    (wifiMacPktParseElement cfgMacMode frame).value.2.fixed = fixedPart frame := by
  have walk : ∀ (places : List Nat) (scan : ScanParam),
      (places.foldl (noted cfgMacMode frame) scan).fixed = scan.fixed := by
    intro places
    induction places with
    | nil => exact fun _ => rfl
    | cons place rest induction =>
      intro scan
      rw [List.foldl_cons, induction, noted_fixed]
  have fixed : ((fixedFields frame { clearedScan with frameLen := frame.pktlen }).value.elim
      { clearedScan with frameLen := frame.pktlen } Prod.snd).fixed = fixedPart frame :=
    fixedFields_fixed rfl
  rw [wifiMacPktParseElement, ← fixed]
  simp only [Memory.value_bind]
  cases (fixedFields frame { clearedScan with frameLen := frame.pktlen }).value with
  | none => rfl
  | some start =>
    simp only [elementLoop_value, walk]
    rfl

/-- The parse of a frame stays inside of it and of its elements when each HT information element
that it takes has a first byte. -/
theorem pktParse_safe (cfgMacMode : Nat) (frame : MgmtFrame) :
    Safe (Look.Allowed frame) (wifiMacPktParseElement cfgMacMode frame) ↔
      ∀ elem ∈ walked frame,
        (frame.byte elem).toNat = 61 → cfg11n ≤ cfgMacMode → 1 ≤ frame.ieLen elem := by
  rw [wifiMacPktParseElement]
  simp only [Memory.safe_bind]
  rw [and_iff_right (fixedFields_safe _)]
  obtain ⟨short, absent⟩ | ⟨start, later, fixed, present, -, -⟩ :=
    fixedFields_value frame { clearedScan with frameLen := frame.pktlen }
  · rw [short, walked, absent]
    simp
  · rw [fixed, walked, present]
    exact elementLoop_safe _ _ _

theorem designated_inside (found : designated cfgMacMode frame field = some frm) :
    wifiFrameLen ≤ frm ∧ frm + frame.ieLen frm + 2 ≤ frame.pktlen :=
  walked_inside (Tlv.lastWhere_mem found).1

end Walk

end W522a.Ie
