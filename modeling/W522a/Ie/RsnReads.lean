import W522a.Ie.PeerRsnLaw

/-!
What the parser of an RSN element reads when it does not judge: with a count that is too large it
still stays inside when it stops at the first key management.
-/

namespace W522a.Ie

open Ap (Rsnparms SuiteLoop ListsFit read16l rsnCipher rsnKeymgmt rsnVersion ouiLen ieHdrLen
  unknownCipher cipherAt keymgmtOffset shiftOne)
open Memory (Access Safe)
open ParseEvent (Allowed)

/-- The bytes that are read lie before `stop`, whatever becomes of the counters. -/
def ParseEvent.Within (stop : Nat) : ParseEvent → Prop
  | read access => access.Inside 0 stop
  | spend _ _ => True
  | apply _ _ => True

open ParseEvent (Within)

section Loop

variable {wraps : Bool} {frm : Nat → UInt8} {stop start count len n : Nat} {state : SuiteLoop}

@[simp] theorem within_look : Safe (Within stop) (look start count) ↔ start + count ≤ stop := by
  simp [look, Within, Access.Inside]

@[simp] theorem within_spend : Safe (Within stop) (spend len count) := by
  simp [spend, Within]

theorem within_of_allowed {Value : Type} {program : Parse Value}
    (safe : Safe (Allowed stop) program) : Safe (Within stop) program := by
  refine safe.mono fun event allowed => ?_
  cases event with
  | read access => exact allowed
  | spend left count => trivial
  | apply count present => trivial

@[simp] theorem within_suites {suite : Nat → Nat → Nat × Nat} {bad : Option Nat} {last : Nat} :
    Safe (Within stop) (suites wraps suite bad last n state) ↔
      Safe (Within stop) (suiteTurns wraps suite bad n state) := by
  simp [suites, Within]

/-- A loop that gets through has read all of its suites. -/
theorem suiteTurns_reads {suite : Nat → Nat → Nat × Nat} {bad : Option Nat} (n : Nat)
    (state : SuiteLoop) (through : (suiteTurns wraps suite bad n state).value.1 = true)
    (safe : Safe (Within stop) (suiteTurns wraps suite bad n state)) (some : n ≠ 0) :
    state.frm + n * ouiLen ≤ stop := by
  induction n generalizing state with
  | zero => exact absurd rfl some
  | succ n induction =>
    rw [suiteTurns] at through safe
    simp only [Memory.value_bind] at through
    simp only [Memory.safe_bind, within_look] at safe
    obtain ⟨first, rest⟩ := safe
    split at through
    next ends => cases through
    next onward =>
      rw [if_neg onward] at rest
      simp only [Memory.value_bind] at through
      simp only [Memory.safe_bind, within_spend, true_and] at rest
      by_cases more : n = 0
      · rw [more]
        simpa using first
      · have read := induction _ through rest more
        simp only [ouiLen] at read ⊢
        omega

end Loop

section Reads

variable {wraps : Bool} {frm : Nat → UInt8} {total : Nat} {state : Cursor}

/-- The reads of the key managements from an offset on, with a count that may be too large. -/
def KeymgmtReads (frm : Nat → UInt8) (stop offset : Nat) : Prop :=
  offset + 2 ≤ stop ∧
    (offset + 2 + read16l frm offset * ouiLen ≤ stop ∨
      (offset + 2 + ouiLen ≤ stop ∧ rsnKeymgmt frm (offset + 2) = 0))

private theorem parseKeymgmt_reads_iff (place : state.offset + state.len = total + ieHdrLen)
    (small : state.len < 256) :
    Safe (Within (total + ieHdrLen)) (parseKeymgmt wraps frm false total state) ↔
      KeymgmtReads frm (total + ieHdrLen) state.offset := by
  constructor
  case mp =>
    intro safe
    rw [parseKeymgmt] at safe
    simp only [Memory.safe_bind, within_look, within_spend, true_and] at safe
    obtain ⟨counted, safe⟩ := safe
    refine ⟨counted, ?_⟩
    rw [if_neg (fun judged => Bool.false_ne_true judged.2)] at safe
    simp only [Memory.safe_bind, within_suites] at safe
    obtain ⟨turns, -⟩ := safe
    by_cases none : read16l frm state.offset = 0
    · exact .inl (by rw [none]; simpa using counted)
    · by_cases unknown : rsnKeymgmt frm (state.offset + 2) = 0
      · obtain ⟨n, counts⟩ := Nat.exists_eq_succ_of_ne_zero none
        rw [counts, suiteTurns] at turns
        simp only [Memory.safe_bind, within_look] at turns
        exact .inr ⟨turns.1, unknown⟩
      · apply Or.inl
        apply suiteTurns_reads _ _ _ turns none
        rw [suiteTurns_value]
        exact (Ap.keymgmtLoop_through wraps frm _ none rfl).mpr unknown
  case mpr =>
    rintro ⟨counted, fits | ⟨first, unknown⟩⟩
    · have two : 2 ≤ state.len := by omega
      exact within_of_allowed ((parseKeymgmt_safe_iff place small two).mpr (.inr fits))
    · by_cases none : read16l frm state.offset = 0
      · have two : 2 ≤ state.len := by omega
        apply within_of_allowed ((parseKeymgmt_safe_iff place small two).mpr (.inr _))
        rw [none]
        simpa using counted
      · obtain ⟨n, counts⟩ := Nat.exists_eq_succ_of_ne_zero none
        have one : shiftOne wraps 0 = 1 := rfl
        rw [parseKeymgmt]
        simp only [Memory.safe_bind, within_look, within_spend, true_and]
        refine ⟨counted, ?_⟩
        rw [if_neg (fun judged => Bool.false_ne_true judged.2), counts]
        simp only [Memory.safe_bind, within_suites, suites_value, suiteTurns, unknown, one,
          Nat.zero_or, if_true, within_look, Memory.value_bind, Memory.value_pure, keymgmtFound]
        simpa using first

/-- The loop over the pairwise ciphers goes by its count, then the key managements are read. -/
theorem parseUcast_reads_iff (place : state.offset + state.len = total + ieHdrLen)
    (small : state.len < 256) :
    Safe (Within (total + ieHdrLen)) (parseUcast wraps frm false total state) ↔
      KeymgmtReads frm (total + ieHdrLen)
        (state.offset + 2 + read16l frm state.offset * ouiLen) := by
  have unjudged : ∀ {wrong : Prop}, ¬ (wrong ∧ false = true) :=
    fun judged => Bool.false_ne_true judged.2
  rw [parseUcast]
  simp only [Memory.safe_bind, within_look, within_spend, true_and, if_neg unjudged,
    within_suites, suites_value]
  generalize counts : read16l frm state.offset = n
  have through := cipherTurns_through wraps frm n
    ⟨state.offset + 2, (spend state.len 2).value, 0, state.rsn.rsnUcastkeylen⟩ rfl
  have ended := suiteTurns_end _ _ _ _ _ through spend_lt
  have keymgmts : state.offset + 2 + n * ouiLen ≤ total + ieHdrLen →
      (Safe (Within (total + ieHdrLen)) (ucastFound wraps frm false total state.rsn
        (suiteTurns wraps (rsnCipher frm) (some 32) n
          ⟨state.offset + 2, (spend state.len 2).value, 0, state.rsn.rsnUcastkeylen⟩).value) ↔
        KeymgmtReads frm (total + ieHdrLen) (state.offset + 2 + n * ouiLen)) := by
    intro inside
    obtain ⟨frm_eq, less, len_eq⟩ := ended
    have left := spend_of_le state.len 2 (by omega) small
    have counted := len_eq (by simp only [left]; omega)
    rw [← frm_eq]
    simp only [ucastFound, through, Bool.not_true, Bool.false_eq_true, if_false]
    apply parseKeymgmt_reads_iff
    · rw [frm_eq, counted]
      simp only [left]
      omega
    · exact less
  constructor
  case mp =>
    rintro ⟨counted, turns, rest⟩
    apply (keymgmts _).mp rest
    by_cases none : n = 0
    · simpa [none] using counted
    · exact suiteTurns_reads n _ through turns none
  case mpr =>
    intro reads
    have inside := reads.1
    have left := spend_of_le state.len 2 (by omega) small
    refine ⟨by omega, within_of_allowed ?_, (keymgmts (by omega)).mpr reads⟩
    apply suiteTurns_safe
    · show state.offset + 2 + n * ouiLen ≤ _
      omega
    · simp only [left]
      omega
    · exact spend_lt

/-- An element whose head is refused, or whose key managements are there as far as they are read. -/
def RsnReads (frm : Nat → UInt8) : Prop :=
  HeadRefused frm ∨
    KeymgmtReads frm ((frm 1).toNat + ieHdrLen) (keymgmtOffset (read16l frm 8))

/-- The parser that does not judge reads inside of an element when it refuses the head of it and
when the key managements that it comes to are there. -/
theorem counterpartRsn_reads_iff (wraps : Bool) (rsn : Rsnparms) (frm : Nat → UInt8) :
    Safe (Within ((frm 1).toNat + ieHdrLen)) (wifiMacParseCounterpartRsn wraps rsn frm false) ↔
      RsnReads frm := by
  have small := (frm 1).toNat_lt
  rw [wifiMacParseCounterpartRsn]
  simp only [Memory.safe_bind, within_look, ieHdrLen]
  rw [and_iff_right (by omega)]
  split
  next short => exact iff_of_true (Memory.safe_pure _) (.inl (.inl short))
  next long =>
    simp only [Memory.safe_bind, within_look]
    rw [and_iff_right (by omega)]
    split
    next version => exact iff_of_true (Memory.safe_pure _) (.inl (.inr (.inl version)))
    next version =>
      simp only [Memory.safe_bind, within_look, within_spend, true_and, ouiLen]
      rw [and_iff_right (by omega)]
      have first := spend_of_le ((frm 1).toNat) 2 (by omega) small
      have second := spend_of_le ((frm 1).toNat - 2) 4 (by omega) (by omega)
      split
      next unknown =>
        rw [Ap.rsnCipher_fst] at unknown
        simp only [Memory.safe_bind, within_look, Memory.safe_pure, and_true]
        exact iff_of_true (by omega) (.inl (.inr (.inr unknown)))
      next known =>
        rw [Ap.rsnCipher_fst] at known
        have head : ¬ HeadRefused frm := by
          rintro (few | other | unknown)
          · exact long few
          · exact version other
          · exact known unknown
        simp only [Memory.safe_bind, within_spend, true_and]
        rw [RsnReads, or_iff_right head]
        rw [if_neg fun judged => Bool.false_ne_true judged.1]
        apply parseUcast_reads_iff
        · simp only [first, second, ieHdrLen]
          omega
        · exact spend_lt

theorem rsnReads_congr {other : Nat → UInt8}
    (agree : ∀ place < (frm 1).toNat + ieHdrLen, other place = frm place) :
    RsnReads other ↔ RsnReads frm := by
  simp only [ieHdrLen] at agree
  have len_eq : other 1 = frm 1 := agree 1 (by omega)
  have half : ∀ offset, offset + 2 ≤ (frm 1).toNat + 2 →
      read16l other offset = read16l frm offset := by
    intro offset inside
    rw [read16l, read16l, agree offset (by omega), agree (offset + 1) (by omega)]
  have word : ∀ offset, offset + 4 ≤ (frm 1).toNat + 2 →
      Ap.read32l other offset = Ap.read32l frm offset := by
    intro offset inside
    rw [Ap.read32l, Ap.read32l, half offset (by omega), half (offset + 2) (by omega)]
  by_cases short : (frm 1).toNat < 10
  · exact iff_of_true (.inl (.inl (by rw [len_eq]; exact short))) (.inl (.inl short))
  · have head : HeadRefused other ↔ HeadRefused frm := by
      simp only [HeadRefused, cipherAt, rsnCipher, len_eq, half 2 (by omega), word 4 (by omega)]
    have keymgmts : ∀ offset, KeymgmtReads other ((frm 1).toNat + 2) offset ↔
        KeymgmtReads frm ((frm 1).toNat + 2) offset := by
      intro offset
      refine and_congr_right fun counted => ?_
      rw [half offset counted]
      refine or_congr_right (and_congr_right fun first => ?_)
      rw [rsnKeymgmt, rsnKeymgmt, word (offset + 2) first]
    rw [RsnReads, RsnReads, head, len_eq, half 8 (by omega)]
    exact or_congr_right (keymgmts _)

end Reads

end W522a.Ie
