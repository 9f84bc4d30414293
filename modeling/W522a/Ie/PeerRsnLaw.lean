import W522a.Ie.PeerRsn

/-!
When the parsers of a peer's security element stay inside of it. The judge of a peer checks every
count; the other caller goes on with a count that it has found too large.
-/

namespace W522a.Ie

open Ap (OwnRsnparms Rsnparms SuiteLoop ListsFit read16l rsnCipher rsnKeymgmt rsnVersion wpaCipher
  wpaKeymgmt shiftOne ouiLen wpaPmkidLen ieHdrLen unknownCipher cipherAt)
open Memory (Access Traced emit Safe)
open ParseEvent (Allowed)

section Events

variable {stop start count len left present : Nat}

@[simp] theorem safe_look : Safe (Allowed stop) (look start count) ↔ start + count ≤ stop := by
  simp [look, Allowed, Access.Inside]

@[simp] theorem safe_spend : Safe (Allowed stop) (spend len count) ↔ count ≤ len := by
  simp [spend, Allowed]

theorem spend_value : (spend len count).value = (len + 256 - count) % 256 := by
  simp [spend]

theorem spend_of_le (len count : Nat) (covered : count ≤ len) (small : len < 256) :
    (spend len count).value = len - count := by
  rw [spend_value]
  omega

theorem spend_lt : (spend len count).value < 256 := Nat.mod_lt _ (by decide)

end Events

section Suites

variable {wraps : Bool} {suite : Nat → Nat → Nat × Nat} {bad : Option Nat} {stop n : Nat}
  {state : SuiteLoop}

/-- The loop computes what the loop over suites computes. -/
theorem suiteTurns_value (wraps : Bool) (suite : Nat → Nat → Nat × Nat) (bad n : Nat)
    (state : SuiteLoop) :
    (suiteTurns wraps suite (some bad) n state).value = Ap.suiteLoop wraps suite bad n state := by
  induction n generalizing state with
  | zero => rfl
  | succ n induction =>
    rw [suiteTurns, Ap.suiteLoop]
    dsimp only
    by_cases ends : state.w ||| shiftOne wraps (suite state.frm state.keylen).1 = bad
    · simp [ends]
    · have onward : some bad ≠ some (state.w ||| shiftOne wraps (suite state.frm state.keylen).1) :=
        fun same => ends (Option.some.inj same).symm
      simp [ends, Ne.symm ends, induction, spend_value]

theorem suiteTurns_safe (inside : state.frm + n * ouiLen ≤ stop) (covered : n * ouiLen ≤ state.len)
    (small : state.len < 256) : Safe (Allowed stop) (suiteTurns wraps suite bad n state) := by
  induction n generalizing state with
  | zero => exact Memory.safe_pure _
  | succ n induction =>
    simp only [ouiLen] at inside covered
    have left := spend_of_le state.len 4 (by omega) small
    rw [suiteTurns]
    simp only [Memory.safe_bind, safe_look, ouiLen]
    refine ⟨by omega, ?_⟩
    split
    next ends =>
      simp only [Memory.safe_bind, safe_look, Memory.safe_pure, and_true]
      omega
    next onward =>
      simp only [Memory.safe_bind, safe_spend, left]
      refine ⟨by omega, induction ?_ ?_ ?_⟩
      · simp only [ouiLen]
        omega
      · simp only [ouiLen]
        omega
      · dsimp only
        omega

/-- Where a loop that gets through leaves the parser. -/
theorem suiteTurns_end (wraps : Bool) (suite : Nat → Nat → Nat × Nat) (bad : Option Nat) (n : Nat)
    (state : SuiteLoop) (through : (suiteTurns wraps suite bad n state).value.1 = true)
    (small : state.len < 256) :
    (suiteTurns wraps suite bad n state).value.2.frm = state.frm + n * ouiLen ∧
      (suiteTurns wraps suite bad n state).value.2.len < 256 ∧
      (n * ouiLen ≤ state.len →
        (suiteTurns wraps suite bad n state).value.2.len = state.len - n * ouiLen) := by
  induction n generalizing state with
  | zero => exact ⟨rfl, small, fun _ => rfl⟩
  | succ n induction =>
    rw [suiteTurns] at through ⊢
    simp only [Memory.value_bind] at through ⊢
    split at through
    next ends => cases through
    next onward =>
      rw [if_neg onward]
      simp only [Memory.value_bind] at through ⊢
      obtain ⟨frm_eq, less, len_eq⟩ := induction _ through spend_lt
      refine ⟨?_, less, fun covered => ?_⟩
      · rw [frm_eq]
        simp only [ouiLen]
        omega
      · simp only [ouiLen] at covered len_eq ⊢
        have left := spend_of_le state.len 4 (by omega) small
        rw [len_eq (by rw [left]; omega), left]
        omega

end Suites

section Rest

variable {frm : Nat → UInt8} {total stop : Nat} {state : Cursor}

/-- The bytes that the counter says are left are bytes of the element. -/
structure Placed (stop : Nat) (state : Cursor) : Prop where
  inside : state.offset + state.len ≤ stop
  small : state.len < 256

theorem Placed.advance {count : Nat} (placed : Placed stop state) (room : count ≤ state.len)
    (rsn : Rsnparms) :
    Placed stop ⟨state.offset + count, (spend state.len count).value, rsn⟩ := by
  have left := spend_of_le _ _ room placed.small
  have inside := placed.inside
  have small := placed.small
  constructor
  · simp only [left]
    omega
  · simp only [left]
    omega

private theorem parseCaps_placed (frm : Nat → UInt8) (total : Nat) (placed : Placed stop state) :
    Safe (Allowed stop) (parseCaps frm total state) ∧
      Placed stop (parseCaps frm total state).value := by
  have inside := placed.inside
  rw [parseCaps]
  split
  next room =>
    refine ⟨?_, placed.advance room _⟩
    simp only [Memory.safe_bind, safe_look, safe_spend, Memory.safe_pure, and_true]
    omega
  next short => exact ⟨Memory.safe_pure _, placed⟩

private theorem parsePmkidCount_placed (frm : Nat → UInt8) (placed : Placed stop state) :
    Safe (Allowed stop) (parsePmkidCount frm state) ∧
      Placed stop (parsePmkidCount frm state).value := by
  have inside := placed.inside
  rw [parsePmkidCount]
  split
  next room =>
    refine ⟨?_, placed.advance room _⟩
    simp only [Memory.safe_bind, safe_look, safe_spend, Memory.safe_pure, and_true]
    omega
  next short => exact ⟨Memory.safe_pure _, placed.inside, placed.small⟩

private theorem pmkidLoop_placed (frm : Nat → UInt8) (left n : Nat) (placed : Placed stop state)
    (room : left * wpaPmkidLen ≤ state.len) :
    Safe (Allowed stop) (pmkidLoop frm left n state) ∧
      Placed stop (pmkidLoop frm left n state).value := by
  induction left generalizing n state with
  | zero => exact ⟨Memory.safe_pure _, placed⟩
  | succ left induction =>
    simp only [wpaPmkidLen] at room
    have inside := placed.inside
    have spent := spend_of_le state.len 16 (by omega) placed.small
    rw [pmkidLoop]
    have after : ∀ rsn : Rsnparms,
        Safe (Allowed stop) (pmkidLoop frm left (n + 1)
          ⟨state.offset + 16, (spend state.len 16).value, rsn⟩) ∧
        Placed stop (pmkidLoop frm left (n + 1)
          ⟨state.offset + 16, (spend state.len 16).value, rsn⟩).value := by
      intro rsn
      apply induction (n + 1) (placed.advance (show 16 ≤ state.len by omega) rsn)
      simp only [spent, wpaPmkidLen]
      omega
    split
    next first =>
      simp only [Memory.safe_bind, Memory.value_bind, safe_look, safe_spend, Memory.safe_pure,
        true_and, wpaPmkidLen]
      exact ⟨⟨by omega, by omega, (after _).1⟩, (after _).2⟩
    next later =>
      simp only [Memory.safe_bind, Memory.value_bind, safe_spend, Memory.safe_pure, true_and,
        wpaPmkidLen]
      exact ⟨⟨by omega, (after _).1⟩, (after _).2⟩

private theorem parseGmcipher_safe (placed : Placed stop state) :
    Safe (Allowed stop) (parseGmcipher frm state) := by
  have inside := placed.inside
  rw [parseGmcipher]
  split
  next room =>
    simp only [Memory.safe_bind, safe_look, safe_spend, Memory.safe_pure, and_true]
    omega
  next short => exact Memory.safe_pure _

private theorem parsePmkids_safe (placed : Placed stop state) :
    Safe (Allowed stop) (parsePmkids frm state) := by
  rw [parsePmkids]
  split
  next some =>
    split
    next room =>
      obtain ⟨safe, after⟩ := pmkidLoop_placed frm _ 0 placed room
      simp only [Memory.safe_bind, Memory.safe_pure, and_true]
      exact ⟨safe, parseGmcipher_safe after⟩
    next short => exact Memory.safe_pure _
  next none =>
    simp only [Memory.safe_bind, Memory.safe_pure, and_true]
    exact parseGmcipher_safe ⟨placed.inside, placed.small⟩

private theorem parseRest_safe (isJudge : Bool) (placed : Placed stop state) :
    Safe (Allowed stop) (parseRest frm isJudge total state) := by
  rw [parseRest]
  split
  next short => exact Memory.safe_pure _
  next room =>
    obtain ⟨caps, afterCaps⟩ := parseCaps_placed frm total placed
    obtain ⟨count, afterCount⟩ := parsePmkidCount_placed frm afterCaps
    simp only [Memory.safe_bind]
    exact ⟨caps, count, parsePmkids_safe afterCount⟩

end Rest

section Lists

variable {wraps isJudge : Bool} {frm : Nat → UInt8} {total : Nat} {state : Cursor}

@[simp] theorem safe_apply {stop count present : Nat} :
    Safe (Allowed stop) (emit (.apply count present)) ↔ count ≤ present := Memory.safe_emit

/-- The loop computes what it does, whatever the count says. -/
theorem suites_value {suite : Nat → Nat → Nat × Nat} {bad : Option Nat} {stop n : Nat}
    {start : SuiteLoop} :
    (suites wraps suite bad stop n start).value = (suiteTurns wraps suite bad n start).value := rfl

theorem suites_safe {suite : Nat → Nat → Nat × Nat} {bad : Option Nat} {stop n : Nat}
    {start : SuiteLoop} (inside : start.frm + n * ouiLen ≤ stop)
    (covered : n * ouiLen ≤ start.len) (small : start.len < 256) :
    Safe (Allowed stop) (suites wraps suite bad stop n start) := by
  rw [suites]
  simp only [Memory.safe_bind, safe_apply]
  refine ⟨?_, suiteTurns_safe inside covered small⟩
  simp only [ouiLen] at inside ⊢
  omega

/-- A set of key managements is looked at, then the rest is parsed. -/
theorem keymgmtFound_safe {rsn : Rsnparms} {found : Bool × SuiteLoop}
    (place : found.1 = true → found.2.frm + found.2.len ≤ total + ieHdrLen)
    (small : found.1 = true → found.2.len < 256) :
    Safe (Allowed (total + ieHdrLen)) (keymgmtFound frm isJudge total rsn found) := by
  rw [keymgmtFound]
  split
  next unknown => exact Memory.safe_pure _
  next known =>
    rw [Bool.not_eq_true', Bool.not_eq_false] at known
    split
    next apart => exact Memory.safe_pure _
    next shared => exact parseRest_safe isJudge ⟨place known, small known⟩

/-- The parse of the key managements stays inside exactly when it goes by a count that fits. -/
theorem parseKeymgmt_safe_iff (place : state.offset + state.len = total + ieHdrLen)
    (small : state.len < 256) (two : 2 ≤ state.len) :
    Safe (Allowed (total + ieHdrLen)) (parseKeymgmt wraps frm isJudge total state) ↔
      (isJudge = true ∨
        state.offset + 2 + read16l frm state.offset * ouiLen ≤ total + ieHdrLen) := by
  have left := spend_of_le _ _ two small
  rw [parseKeymgmt]
  simp only [Memory.safe_bind, safe_look, safe_spend, left]
  generalize read16l frm state.offset = n
  simp only [ouiLen, ieHdrLen] at place ⊢
  split
  next refused => exact iff_of_true ⟨by omega, two, Memory.safe_pure _⟩ (Or.inl refused.2)
  next onward =>
    simp only [Memory.safe_bind]
    constructor
    · rintro ⟨-, -, applied, -⟩
      simp only [suites, Memory.safe_bind, safe_apply, ouiLen] at applied
      exact Or.inr (by omega)
    · intro fits
      have covered : n * 4 ≤ state.len - 2 := by
        rcases fits with judge | fits
        · simp only [judge, and_true, not_or] at onward
          omega
        · omega
      have ended := suiteTurns_end wraps (fun offset keylen => (rsnKeymgmt frm offset, keylen))
        (some 1) n ⟨state.offset + 2, state.len - 2, 0, 0⟩
      refine ⟨by omega, two, suites_safe (by simp only [ouiLen]; omega) covered
        (by simp only; omega), keymgmtFound_safe (fun known => ?_) fun known => ?_⟩
      · obtain ⟨frm_eq, -, len_eq⟩ := ended known (by simp only; omega)
        have counted := len_eq covered
        simp only [ouiLen] at frm_eq counted
        rw [suites_value, frm_eq, counted]
        simp only [ieHdrLen]
        omega
      · exact (ended known (by simp only; omega)).2.1

theorem cipherTurns_through (wraps : Bool) (frm : Nat → UInt8) (n : Nat) (start : SuiteLoop)
    (empty : start.w = 0) :
    (suiteTurns wraps (rsnCipher frm) (some 32) n start).value.1 = true := by
  rw [suiteTurns_value]
  exact Ap.cipherLoop_through empty

/-- A set of pairwise ciphers is looked at, then the key managements are parsed. -/
theorem ucastFound_safe {rsn : Rsnparms} {found : Bool × SuiteLoop}
    (place : found.2.frm + found.2.len = total + ieHdrLen) (small : found.2.len < 256)
    (two : 2 ≤ found.2.len)
    (fits : isJudge = true ∨
      found.2.frm + 2 + read16l frm found.2.frm * ouiLen ≤ total + ieHdrLen) :
    Safe (Allowed (total + ieHdrLen)) (ucastFound wraps frm isJudge total rsn found) := by
  rw [ucastFound]
  dsimp only
  split
  next unknown => exact Memory.safe_pure _
  next known =>
    split
    next apart => exact Memory.safe_pure _
    next shared => exact (parseKeymgmt_safe_iff place small two).mpr fits

/-- The caller that does not judge goes on to the key managements wherever the loop has ended. -/
theorem ucastFound_inside {rsn : Rsnparms} {found : Bool × SuiteLoop} (known : found.1 = true)
    (place : found.2.frm + found.2.len = total + ieHdrLen) (small : found.2.len < 256)
    (safe : Safe (Allowed (total + ieHdrLen)) (ucastFound wraps frm false total rsn found)) :
    found.2.frm + 2 ≤ total + ieHdrLen ∧
      found.2.frm + 2 + read16l frm found.2.frm * ouiLen ≤ total + ieHdrLen := by
  have keymgmts : Safe (Allowed (total + ieHdrLen)) (parseKeymgmt wraps frm false total
      ⟨found.2.frm, found.2.len, { rsn with rsnUcastkeylen := found.2.keylen }⟩) := by
    simpa [ucastFound, known] using safe
  have room : found.2.frm + 2 ≤ total + ieHdrLen := by
    rw [parseKeymgmt] at keymgmts
    simp only [Memory.safe_bind, safe_look] at keymgmts
    exact keymgmts.1
  have two : 2 ≤ found.2.len := by omega
  have fits := (parseKeymgmt_safe_iff place small two).mp keymgmts
  exact ⟨room, fits.resolve_left Bool.false_ne_true⟩

/-- The parse of the pairwise ciphers stays inside exactly when it goes by counts that fit. -/
theorem parseUcast_safe_iff (wraps isJudge : Bool) (frm : Nat → UInt8) (total : Nat)
    (state : Cursor) (place : state.offset + state.len = total + ieHdrLen)
    (small : state.len < 256) (two : 2 ≤ state.len) :
    Safe (Allowed (total + ieHdrLen)) (parseUcast wraps frm isJudge total state) ↔
      (isJudge = true ∨
        (state.offset + 2 + read16l frm state.offset * ouiLen + 2 ≤ total + ieHdrLen ∧
          state.offset + 2 + read16l frm state.offset * ouiLen + 2 +
            read16l frm (state.offset + 2 + read16l frm state.offset * ouiLen) * ouiLen ≤
              total + ieHdrLen)) := by
  have left := spend_of_le _ _ two small
  rw [parseUcast]
  simp only [Memory.safe_bind, safe_look, safe_spend, left]
  generalize read16l frm state.offset = n
  simp only [ouiLen, ieHdrLen] at place ⊢
  split
  next refused => exact iff_of_true ⟨by omega, two, Memory.safe_pure _⟩ (Or.inl refused.2)
  next onward =>
    have through := cipherTurns_through wraps frm n
      ⟨state.offset + 2, state.len - 2, 0, state.rsn.rsnUcastkeylen⟩ rfl
    obtain ⟨frm_eq, less, len_eq⟩ := suiteTurns_end _ _ _ _ _ through (by simp only; omega)
    simp only [ouiLen] at frm_eq len_eq
    simp only [Memory.safe_bind, suites_value]
    constructor
    · rintro ⟨-, -, applied, rest⟩
      cases isJudge with
      | true => exact Or.inl rfl
      | false =>
        simp only [suites, Memory.safe_bind, safe_apply, ouiLen] at applied
        have counted := len_eq (by omega)
        obtain ⟨room, fits⟩ := ucastFound_inside through
          (by rw [frm_eq, counted]; simp only [ieHdrLen]; omega) less rest
        rw [frm_eq] at room fits
        exact Or.inr ⟨room, fits⟩
    · intro fits
      have covered : n * 4 + 2 ≤ state.len - 2 := by
        rcases fits with judge | ⟨room, -⟩
        · simp only [judge, and_true, not_or] at onward
          omega
        · omega
      have counted := len_eq (by omega)
      refine ⟨by omega, two, suites_safe (by simp only [ouiLen]; omega)
        (by simp only [ouiLen]; omega) (by simp only; omega), ucastFound_safe ?_ less ?_ ?_⟩
      · rw [frm_eq, counted]
        simp only [ieHdrLen]
        omega
      · omega
      · rw [frm_eq]
        exact fits.imp_right fun inside => inside.2

end Lists

section Rsn

variable {wraps isJudge : Bool} {frm : Nat → UInt8} {rsn : Rsnparms}

/-- An element that the parser refuses before it has read a count. -/
def HeadRefused (frm : Nat → UInt8) : Prop :=
  (frm 1).toNat < 10 ∨ read16l frm 2 ≠ rsnVersion ∨ cipherAt frm 4 = unknownCipher

/-- The parser of a peer's RSN element stays inside of it when it judges, when it refuses the head
of the element, and when the element has the suites that it counts. -/
theorem counterpartRsn_safe_iff (wraps : Bool) (rsn : Rsnparms) (frm : Nat → UInt8)
    (isJudge : Bool) :
    Safe (Allowed ((frm 1).toNat + ieHdrLen)) (wifiMacParseCounterpartRsn wraps rsn frm isJudge) ↔
      (isJudge = true ∨ HeadRefused frm ∨ ListsFit frm) := by
  rw [wifiMacParseCounterpartRsn]
  simp only [Memory.safe_bind, safe_look, ieHdrLen]
  have small := (frm 1).toNat_lt
  split
  next short =>
    exact iff_of_true ⟨by omega, Memory.safe_pure _⟩ (Or.inr (Or.inl (Or.inl short)))
  next long =>
    simp only [Memory.safe_bind, safe_look]
    split
    next version =>
      exact iff_of_true ⟨by omega, by omega, Memory.safe_pure _⟩
        (Or.inr (Or.inl (Or.inr (Or.inl version))))
    next version =>
      have first := spend_of_le ((frm 1).toNat) 2 (by omega) small
      have second := spend_of_le ((frm 1).toNat - 2) 4 (by omega) (by omega)
      simp only [Memory.safe_bind, safe_look, safe_spend, first, ouiLen]
      split
      next unknown =>
        rw [Ap.rsnCipher_fst] at unknown
        simp only [Memory.safe_bind, safe_look, Memory.safe_pure]
        exact iff_of_true ⟨by omega, by omega, by omega, by omega, by omega, trivial⟩
          (Or.inr (Or.inl (Or.inr (Or.inr unknown))))
      next known =>
        simp only [Memory.safe_bind, safe_spend, second]
        split
        next other =>
          exact iff_of_true ⟨by omega, by omega, by omega, by omega, by omega,
            Memory.safe_pure _⟩ (Or.inl other.1)
        next same =>
          rw [Ap.rsnCipher_fst] at known
          obtain ⟨rest, rest_eq⟩ : ∃ rest, rest = (frm 1).toNat - 2 - 4 := ⟨_, rfl⟩
          rw [← rest_eq]
          have suites_iff := parseUcast_safe_iff wraps isJudge frm (frm 1).toNat
            ⟨8, rest, { rsn with
              rsnMcastkeylen := (rsnCipher frm 4 rsn.rsnMcastkeylen).2 }⟩
            (by simp only [ieHdrLen]; omega) (by simp only; omega) (by simp only; omega)
          have lists : ListsFit frm ↔
              8 + 2 + read16l frm 8 * ouiLen + 2 ≤ (frm 1).toNat + ieHdrLen ∧
              8 + 2 + read16l frm 8 * ouiLen + 2 +
                read16l frm (8 + 2 + read16l frm 8 * ouiLen) * ouiLen ≤
                  (frm 1).toNat + ieHdrLen :=
            ⟨fun fit => ⟨fit.pairwise, fit.keymgmts⟩,
              fun fit => ⟨not_not.mp version, fit.1, fit.2⟩⟩
          have head : ¬ HeadRefused frm := by
            rintro (few | other | unknown)
            · exact long few
            · exact version other
            · exact known unknown
          simp only [ieHdrLen, ouiLen] at suites_iff lists
          rw [suites_iff, ← lists]
          constructor
          · rintro ⟨-, -, -, -, -, judge | fit⟩
            · exact Or.inl judge
            · exact Or.inr (Or.inr fit)
          · rintro (judge | refused | fit)
            · exact ⟨by omega, by omega, by omega, by omega, by omega, Or.inl judge⟩
            · exact absurd refused head
            · exact ⟨by omega, by omega, by omega, by omega, by omega, Or.inr fit⟩

end Rsn

section Wpa

variable {wraps : Bool} {frm : Nat → UInt8} {own total : Nat} {rsn : OwnRsnparms}

theorem turns_through {suite : Nat → Nat → Nat × Nat} {n : Nat} {start : SuiteLoop} :
    (suiteTurns wraps suite none n start).value.1 = true := by
  induction n generalizing start with
  | zero => rfl
  | succ n induction =>
    rw [suiteTurns]
    simp [induction]

private theorem wpaKeymgmtFound_safe {state : SuiteLoop}
    (place : state.frm + state.len ≤ total + ieHdrLen) :
    Safe (Allowed (total + ieHdrLen)) (wpaKeymgmtFound frm own rsn state) := by
  rw [wpaKeymgmtFound]
  split
  next empty => exact Memory.safe_pure _
  next shared =>
    split
    next room =>
      simp only [Memory.safe_bind, safe_look, Memory.safe_pure, and_true]
      omega
    next short => exact Memory.safe_pure _

private theorem parseWpaKeymgmts_safe {state : SuiteLoop}
    (place : state.frm + state.len = total + ieHdrLen)
    (small : state.len < 256) (two : 2 ≤ state.len) :
    Safe (Allowed (total + ieHdrLen)) (parseWpaKeymgmts wraps frm own total rsn state) := by
  have left := spend_of_le _ _ two small
  rw [parseWpaKeymgmts]
  simp only [Memory.safe_bind, safe_look, safe_spend, left]
  generalize read16l frm state.frm = n
  simp only [ouiLen, ieHdrLen] at place ⊢
  refine ⟨by omega, two, ?_⟩
  split
  next short => exact Memory.safe_pure _
  next room =>
    obtain ⟨frm_eq, -, len_eq⟩ := suiteTurns_end wraps
      (fun offset keylen => (wpaKeymgmt frm offset, keylen)) none n
      ⟨state.frm + 2, state.len - 2, 0, 0⟩ turns_through (by simp only; omega)
    simp only [ouiLen] at frm_eq len_eq
    have counted := len_eq (by omega)
    simp only [Memory.safe_bind, suites_value]
    refine ⟨suites_safe (by simp only [ouiLen]; omega) (by simp only [ouiLen]; omega)
      (by simp only; omega), wpaKeymgmtFound_safe ?_⟩
    rw [frm_eq, counted]
    simp only [ieHdrLen]
    omega

private theorem wpaUcastFound_safe {state : SuiteLoop}
    (place : state.frm + state.len = total + ieHdrLen)
    (small : state.len < 256) (two : 2 ≤ state.len) :
    Safe (Allowed (total + ieHdrLen)) (wpaUcastFound wraps frm own total rsn state) := by
  rw [wpaUcastFound]
  split
  next empty => exact Memory.safe_pure _
  next shared => exact parseWpaKeymgmts_safe place small two

private theorem parseWpaUcast_safe {len : Nat} (place : 12 + len = total + ieHdrLen)
    (small : len < 256)
    (two : 2 ≤ len) :
    Safe (Allowed (total + ieHdrLen)) (parseWpaUcast wraps frm own total len rsn) := by
  have left := spend_of_le _ _ two small
  rw [parseWpaUcast]
  simp only [Memory.safe_bind, safe_look, safe_spend, left]
  generalize read16l frm 12 = n
  simp only [ouiLen, ieHdrLen] at place ⊢
  refine ⟨by omega, two, ?_⟩
  split
  next short => exact Memory.safe_pure _
  next room =>
    obtain ⟨frm_eq, less, len_eq⟩ := suiteTurns_end wraps (wpaCipher frm) none n
      ⟨14, len - 2, 0, rsn.rsnUcastkeylen⟩ turns_through (by simp only; omega)
    simp only [ouiLen] at frm_eq len_eq
    have counted := len_eq (by omega)
    simp only [Memory.safe_bind, suites_value]
    refine ⟨suites_safe (by simp only [ouiLen]; omega) (by simp only [ouiLen]; omega)
      (by simp only; omega), wpaUcastFound_safe ?_ less ?_⟩
    · rw [frm_eq, counted]
      simp only [ieHdrLen]
      omega
    · omega

private theorem wpa_safe (wraps : Bool) (rsn : OwnRsnparms) (frm : Nat → UInt8) (own : Nat) :
    Safe (Allowed ((frm 1).toNat + ieHdrLen)) (wifiMacParseWpa wraps rsn frm own) := by
  have small := (frm 1).toNat_lt
  rw [wifiMacParseWpa]
  simp only [Memory.safe_bind, safe_look, ieHdrLen]
  refine ⟨by omega, ?_⟩
  split
  next short => exact Memory.safe_pure _
  next long =>
    have first := spend_of_le ((frm 1).toNat) 4 (by omega) small
    simp only [Memory.safe_bind, safe_look, safe_spend, first]
    refine ⟨by omega, by omega, ?_⟩
    split
    next version => exact Memory.safe_pure _
    next version =>
      have second := spend_of_le ((frm 1).toNat - 4) 2 (by omega) (by omega)
      simp only [Memory.safe_bind, safe_look, safe_spend, second, ouiLen]
      refine ⟨by omega, by omega, ?_⟩
      split
      next other => exact Memory.safe_pure _
      next same =>
        have third := spend_of_le ((frm 1).toNat - 4 - 2) 4 (by omega) (by omega)
        simp only [Memory.safe_bind, safe_spend, third]
        exact ⟨by omega, parseWpaUcast_safe (by simp only [ieHdrLen]; omega) (by omega) (by omega)⟩

end Wpa

/-- The parsers of a peer's element stay inside of it, keep the counter and go by the suites that
are there, unless the one that does not judge is given an RSN element that counts more of them. -/
theorem peer_element_iff (wraps : Bool) (rsn : Rsnparms) (wpa : OwnRsnparms) (frm : Nat → UInt8)
    (isJudge : Bool) (own : Nat) :
    (Safe (Allowed ((frm 1).toNat + ieHdrLen))
        (wifiMacParseCounterpartRsn wraps rsn frm isJudge) ∧
      Safe (Allowed ((frm 1).toNat + ieHdrLen)) (wifiMacParseWpa wraps wpa frm own)) ↔
      (isJudge = true ∨ HeadRefused frm ∨ ListsFit frm) := by
  rw [counterpartRsn_safe_iff]
  exact and_iff_left (wpa_safe wraps wpa frm own)

/-- An RSN element of ten bytes: version, group cipher and one pairwise cipher that is not there. -/
def cutRsn : Nat → UInt8 := Ap.element [48, 10, 1, 0, 0x00, 0x0f, 0xac, 4, 1, 0]

/-- The four bytes behind the element are read as its pairwise cipher. -/
theorem cutRsn_read :
    ¬ (Safe (Allowed ((cutRsn 1).toNat + ieHdrLen))
        (wifiMacParseCounterpartRsn true Ap.clearedRsn cutRsn false) ∧
      Safe (Allowed ((cutRsn 1).toNat + ieHdrLen))
        (wifiMacParseWpa true Ap.zeroRsnparms cutRsn 0)) := by
  rintro ⟨safe, -⟩
  have inside := safe (.read ⟨10, 4⟩) (by decide)
  exact absurd inside.2 (by decide)

end W522a.Ie
