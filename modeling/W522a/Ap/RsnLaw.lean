import W522a.Ap.Rsn
import W522a.Lib.Mask

/-!
When the two parsers of the RSN element agree: what a configuration accepts and records, what the
judge of a peer accepts, and the peers for which that is what the configuration says.
-/

namespace W522a.Ap

def cipherAt (frm : Nat → UInt8) (offset : Nat) : Nat := (rsnCipher frm offset 0).1

/-- The values of `n` suites that follow one another. -/
def suitesAt (value : Nat → Nat) (n offset : Nat) : List Nat :=
  (List.range n).map fun place => value (offset + place * ouiLen)

/-- Where the key managements start behind `n` pairwise ciphers, with their count. -/
def keymgmtOffset (n : Nat) : Nat := 10 + n * ouiLen

/-- The pairwise ciphers that an element lists. -/
def peerCiphers (frm : Nat → UInt8) : List Nat := suitesAt (cipherAt frm) (read16l frm 8) 10

/-- The number of key managements that an element lists. -/
def keymgmtCount (frm : Nat → UInt8) : Nat := read16l frm (keymgmtOffset (read16l frm 8))

/-- The key managements that an element lists. -/
def peerKeymgmts (frm : Nat → UInt8) : List Nat :=
  suitesAt (rsnKeymgmt frm) (keymgmtCount frm) (keymgmtOffset (read16l frm 8) + 2)

def listsEnd (frm : Nat → UInt8) : Nat :=
  keymgmtOffset (read16l frm 8) + 2 + keymgmtCount frm * ouiLen

/-- The pairwise ciphers that a configuration reads, with a count of eight bits. -/
def ownCiphers (frm : Nat → UInt8) : List Nat := suitesAt (cipherAt frm) (read16l frm 8 % 256) 10

/-- The key managements that a configuration reads, with a count of eight bits. -/
def ownKeymgmts (frm : Nat → UInt8) : List Nat :=
  suitesAt (rsnKeymgmt frm) (read16l frm (keymgmtOffset (read16l frm 8 % 256)) % 256)
    (keymgmtOffset (read16l frm 8 % 256) + 2)

/-- The number of PMKIDs, where the element is long enough to count them. -/
def pmkidCount (frm : Nat → UInt8) : Nat :=
  if listsEnd frm + 4 ≤ (frm 1).toNat + ieHdrLen then read16l frm (listsEnd frm + 2) else 0

/-- So many PMKIDs fit into the element. -/
def PmkidsFit (frm : Nat → UInt8) (count : Nat) : Prop :=
  count ≠ 0 → listsEnd frm + 4 + count * wpaPmkidLen ≤ (frm 1).toNat + ieHdrLen

/-- The version is known, and the two lists lie inside the element. -/
structure ListsFit (frm : Nat → UInt8) : Prop where
  version : read16l frm 2 = rsnVersion
  pairwise : keymgmtOffset (read16l frm 8) + 2 ≤ (frm 1).toNat + ieHdrLen
  keymgmts : listsEnd frm ≤ (frm 1).toNat + ieHdrLen

/-- A well-formed element: the version is known, and what it counts lies inside. -/
structure RsnWellFormed (frm : Nat → UInt8) : Prop where
  lists : ListsFit frm
  pmkids : PmkidsFit frm (pmkidCount frm)

/-- What a peer's element has to be for the access point that `own` configured. -/
structure RsnMeets (own peer : Nat → UInt8) : Prop where
  wellFormed : RsnWellFormed peer
  group : cipherAt peer 4 = cipherAt own 4
  pairwise : ∃ cipher ∈ peerCiphers peer, cipher ∈ ownCiphers own
  keymgmt : ∃ keymgmt ∈ peerKeymgmts peer, keymgmt ∈ ownKeymgmts own

/-- The two parsers agree: the judge accepts exactly the peers that meet the configuration, it
accepts the configured element itself, and nothing of an earlier configuration is enabled. -/
structure RsnAgrees (wraps : Bool) (vif : RsnVif) (rsn : Rsnparms) (own peer : Nat → UInt8) :
    Prop where
  judged : (wifiMacParseCounterpartRsn wraps (wifiMacParseOwnRsn vif rsn own).2 peer true).1 = 0 ↔
    RsnMeets own peer
  itself : (wifiMacParseCounterpartRsn wraps (wifiMacParseOwnRsn vif rsn own).2 own true).1 = 0
  ciphers : ∀ cipher, (wifiMacParseOwnRsn vif rsn own).2.rsnUcastcipherset.testBit cipher = true →
    cipher ∈ ownCiphers own
  keymgmts : ∀ keymgmt, (wifiMacParseOwnRsn vif rsn own).2.rsnKeymgmtset.testBit keymgmt = true →
    keymgmt ∈ ownKeymgmts own

section Suites

variable {frm : Nat → UInt8} {offset keylen cipher : Nat}

theorem rsnCipher_fst (frm : Nat → UInt8) (offset keylen : Nat) :
    (rsnCipher frm offset keylen).1 = cipherAt frm offset := by
  unfold cipherAt rsnCipher
  dsimp only
  repeat' split
  all_goals rfl

theorem cipherAt_mem (frm : Nat → UInt8) (offset : Nat) :
    cipherAt frm offset ∈ [0, 1, 2, 3, 6, 8, 9, 32] := by
  unfold cipherAt rsnCipher
  dsimp only
  repeat' split
  all_goals decide

theorem rsnKeymgmt_mem (frm : Nat → UInt8) (offset : Nat) :
    rsnKeymgmt frm offset ∈ [0, 1, 2, 5, 6, 8] := by
  unfold rsnKeymgmt
  dsimp only
  repeat' split
  all_goals decide

theorem suitesAt_succ (value : Nat → Nat) (n offset : Nat) :
    suitesAt value (n + 1) offset = value offset :: suitesAt value n (offset + ouiLen) := by
  unfold suitesAt
  rw [List.range_succ_eq_map, List.map_cons, List.map_map, Nat.zero_mul, Nat.add_zero]
  refine congrArg _ (List.map_congr_left fun place _ => ?_)
  show value (offset + (place + 1) * ouiLen) = value (offset + ouiLen + place * ouiLen)
  rw [Nat.succ_mul, Nat.add_comm (place * ouiLen), Nat.add_assoc]

theorem suitesAt_ne_nil {value : Nat → Nat} {n : Nat} {suite : Nat}
    (listed : suite ∈ suitesAt value n offset) : n ≠ 0 := by
  rintro rfl
  cases listed

theorem mem_suitesAt {value : Nat → Nat} {n suite : Nat} (listed : suite ∈ suitesAt value n offset) :
    ∃ place, suite = value place := by
  obtain ⟨place, -, found⟩ := List.mem_map.mp listed
  exact ⟨_, found.symm⟩

end Suites

section Own

variable {vif : RsnVif} {frm : Nat → UInt8}

/-- A loop that gets through has read only ciphers it knows, and recorded those that fit. -/
theorem ownUcast_spec {n index : Nat} {rsn : Rsnparms} (through : (ownUcast vif frm n index rsn).1) :
    (∀ cipher ∈ suitesAt (cipherAt frm) n index, cipher ≠ unknownCipher) ∧
      (∀ bit, (ownUcast vif frm n index rsn).2.rsnUcastcipherset.testBit bit = true ↔
        rsn.rsnUcastcipherset.testBit bit = true ∧ (n = 0 ∨ bit < 8) ∨
          bit < 8 ∧ bit ∈ suitesAt (cipherAt frm) n index) ∧
      (ownUcast vif frm n index rsn).2.rsnMcastcipher = rsn.rsnMcastcipher ∧
      (ownUcast vif frm n index rsn).2.rsnKeymgmtset = rsn.rsnKeymgmtset := by
  induction n generalizing index rsn with
  | zero => simp [suitesAt, ownUcast]
  | succ n induction =>
    rw [ownUcast] at through ⊢
    dsimp only at through ⊢
    split at through
    · cases through
    · rename_i taken
      rw [if_neg taken]
      obtain ⟨known, recorded, mcast, keymgmts⟩ := induction through
      rw [suitesAt_succ]
      refine ⟨?_, fun bit => ?_, mcast, keymgmts⟩
      · intro cipher listed
        rcases List.mem_cons.mp listed with first | later
        · intro unknown
          rw [first, ← rsnCipher_fst frm index rsn.rsnUcastkeylen] at unknown
          exact taken (by simp [cipherRefused, unknown])
        · exact known cipher later
      · rw [recorded bit, Mask.testBit_mod_pow, Mask.testBit_or_pow, rsnCipher_fst, List.mem_cons]
        constructor
        · rintro (⟨⟨small, stale | first⟩, -⟩ | ⟨small, later⟩)
          · exact Or.inl ⟨stale, Or.inr small⟩
          · exact Or.inr ⟨small, Or.inl first⟩
          · exact Or.inr ⟨small, Or.inr later⟩
        · rintro (⟨stale, none | small⟩ | ⟨small, first | later⟩)
          · cases none
          · exact Or.inl ⟨⟨small, Or.inl stale⟩, Or.inr small⟩
          · exact Or.inl ⟨⟨small, Or.inr first⟩, Or.inr small⟩
          · exact Or.inr ⟨small, later⟩

private theorem ownKeymgmt_spec {n index : Nat} {rsn : Rsnparms}
    (through : (ownKeymgmt frm n index rsn).1) :
    (∀ keymgmt ∈ suitesAt (rsnKeymgmt frm) n index, keymgmt ≠ 0) ∧
      (∀ bit, (ownKeymgmt frm n index rsn).2.rsnKeymgmtset.testBit bit = true ↔
        rsn.rsnKeymgmtset.testBit bit = true ∧ (n = 0 ∨ bit < 16) ∨
          bit ∈ suitesAt (rsnKeymgmt frm) n index) ∧
      (ownKeymgmt frm n index rsn).2.rsnMcastcipher = rsn.rsnMcastcipher ∧
      (ownKeymgmt frm n index rsn).2.rsnUcastcipherset = rsn.rsnUcastcipherset := by
  induction n generalizing index rsn with
  | zero => simp [suitesAt, ownKeymgmt]
  | succ n induction =>
    rw [ownKeymgmt] at through ⊢
    split at through
    · cases through
    · rename_i taken
      rw [if_neg taken]
      obtain ⟨known, recorded, mcast, ciphers⟩ := induction through
      have narrow : rsnKeymgmt frm index < 16 := by
        have listed := rsnKeymgmt_mem frm index
        simp only [List.mem_cons, List.not_mem_nil, or_false] at listed
        omega
      rw [suitesAt_succ]
      refine ⟨?_, fun bit => ?_, mcast, ciphers⟩
      · intro keymgmt listed
        rcases List.mem_cons.mp listed with first | later
        · rw [first]
          exact taken
        · exact known keymgmt later
      · rw [recorded bit, Mask.testBit_mod_pow, Mask.testBit_or_pow, List.mem_cons]
        constructor
        · rintro (⟨⟨small, stale | first⟩, -⟩ | later)
          · exact Or.inl ⟨stale, Or.inr small⟩
          · exact Or.inr (Or.inl first)
          · exact Or.inr (Or.inr later)
        · rintro (⟨stale, none | small⟩ | first | later)
          · cases none
          · exact Or.inl ⟨⟨small, Or.inl stale⟩, Or.inr small⟩
          · exact Or.inl ⟨⟨first ▸ narrow, Or.inr first⟩, Or.inr (first ▸ narrow)⟩
          · exact Or.inr later

/-- The rest of an element that a configuration accepts counts PMKIDs that fit. -/
theorem ownRest_spec {stop index : Nat} {rsn : Rsnparms}
    (accepted : (ownRest frm stop index rsn).1 = 0) :
    (index + 4 ≤ stop → index + 4 + read16l frm (index + 2) % 256 * wpaPmkidLen ≤ stop) ∧
      (ownRest frm stop index rsn).2.rsnMcastcipher = rsn.rsnMcastcipher ∧
      (ownRest frm stop index rsn).2.rsnUcastcipherset = rsn.rsnUcastcipherset ∧
      (ownRest frm stop index rsn).2.rsnKeymgmtset = rsn.rsnKeymgmtset := by
  unfold ownRest at accepted ⊢
  dsimp only at accepted ⊢
  by_cases caps : 2 ≤ stop - index
  · rw [if_pos caps] at accepted ⊢
    dsimp only at accepted ⊢
    by_cases counted : 2 ≤ stop - (index + 2)
    · rw [if_pos counted] at accepted ⊢
      dsimp only at accepted ⊢
      split at accepted
      · cases accepted
      · rename_i fits
        rw [if_neg fits]
        refine ⟨fun _ => by simp only [wpaPmkidLen] at fits ⊢; omega, ?_⟩
        repeat' split
        all_goals exact ⟨rfl, rfl, rfl⟩
    · rw [if_neg counted] at accepted ⊢
      dsimp only at accepted ⊢
      rw [Nat.zero_mul, if_neg (Nat.not_lt_zero _)]
      refine ⟨fun room => absurd room (by omega), ?_⟩
      repeat' split
      all_goals exact ⟨rfl, rfl, rfl⟩
  · rw [if_neg caps] at accepted ⊢
    dsimp only at accepted ⊢
    rw [if_neg caps] at accepted ⊢
    dsimp only at accepted ⊢
    rw [Nat.zero_mul, if_neg (Nat.not_lt_zero _)]
    refine ⟨fun room => absurd room (by omega), ?_⟩
    repeat' split
    all_goals exact ⟨rfl, rfl, rfl⟩

/-- The end of the two lists as a configuration counts them. -/
def ownEnd (frm : Nat → UInt8) : Nat :=
  keymgmtOffset (read16l frm 8 % 256) + 2 +
    read16l frm (keymgmtOffset (read16l frm 8 % 256)) % 256 * ouiLen

/-- What holds of an element that a configuration accepts, and of the parameters it leaves. -/
structure OwnAccepted (frm : Nat → UInt8) (rsn after : Rsnparms) : Prop where
  version : read16l frm 2 = rsnVersion
  group : cipherAt frm 4 ≠ unknownCipher
  inside : ownEnd frm ≤ (frm 1).toNat + ieHdrLen
  ciphers : ∀ cipher ∈ ownCiphers frm, cipher ≠ unknownCipher
  keymgmts : ∀ keymgmt ∈ ownKeymgmts frm, keymgmt ≠ 0
  pmkids : ownEnd frm + 4 ≤ (frm 1).toNat + ieHdrLen →
    ownEnd frm + 4 + read16l frm (ownEnd frm + 2) % 256 * wpaPmkidLen ≤ (frm 1).toNat + ieHdrLen
  mcast : after.rsnMcastcipher = cipherAt frm 4
  cipherset : ∀ bit, after.rsnUcastcipherset.testBit bit = true ↔
    rsn.rsnUcastcipherset.testBit bit = true ∧ (read16l frm 8 % 256 = 0 ∨ bit < 8) ∨
      bit < 8 ∧ bit ∈ ownCiphers frm
  keymgmtset : ∀ bit, after.rsnKeymgmtset.testBit bit = true ↔
    rsn.rsnKeymgmtset.testBit bit = true ∧
        (read16l frm (keymgmtOffset (read16l frm 8 % 256)) % 256 = 0 ∨ bit < 16) ∨
      bit ∈ ownKeymgmts frm

theorem wifiMacParseOwnRsn_accepted {rsn : Rsnparms}
    (accepted : (wifiMacParseOwnRsn vif rsn frm).1 = 0) :
    OwnAccepted frm rsn (wifiMacParseOwnRsn vif rsn frm).2 := by
  unfold wifiMacParseOwnRsn ownSecond at accepted ⊢
  dsimp only at accepted ⊢
  split at accepted
  · cases accepted
  rename_i long
  split at accepted
  · cases accepted
  rename_i version
  split at accepted
  · cases accepted
  rename_i group
  split at accepted
  · cases accepted
  rename_i pairwise
  split at accepted
  · cases accepted
  rename_i ciphers
  split at accepted
  · cases accepted
  rename_i room
  split at accepted
  · cases accepted
  rename_i keymgmts
  rw [if_neg long, if_neg version, if_neg group, if_neg pairwise, if_neg ciphers, if_neg room,
    if_neg keymgmts]
  rw [Bool.not_eq_true', Bool.not_eq_false] at ciphers keymgmts
  obtain ⟨knownCiphers, recorded, mcast, oldKeymgmts⟩ := ownUcast_spec ciphers
  obtain ⟨knownKeymgmts, written, mcastKept, cipherset⟩ := ownKeymgmt_spec keymgmts
  obtain ⟨pmkids, mcastLeft, ciphersLeft, keymgmtsLeft⟩ := ownRest_spec accepted
  rw [rsnCipher_fst] at group
  constructor
  · exact not_not.mp version
  · intro unknown
    exact group (by simp [cipherRefused, unknown])
  · simp only [ownEnd, keymgmtOffset, ieHdrLen, ouiLen] at long pairwise room ⊢
    omega
  · exact knownCiphers
  · exact knownKeymgmts
  · exact pmkids
  · exact (mcastLeft.trans (mcastKept.trans mcast)).trans (rsnCipher_fst frm 4 _)
  · intro bit
    rw [ciphersLeft, cipherset]
    exact recorded bit
  · intro bit
    rw [keymgmtsLeft]
    refine (written bit).trans ?_
    dsimp only
    rw [oldKeymgmts]
    rfl

end Own

section Judge

variable {wraps : Bool} {frm : Nat → UInt8} {suite : Nat → Nat → Nat × Nat}
  {bad : Nat}

theorem testBit_shiftOne (wraps : Bool) (w bit : Nat) :
    (shiftOne wraps w).testBit bit = true ↔ w < 32 ∧ bit = w ∨ ¬ w < 32 ∧ wraps = true ∧ bit = 0 := by
  unfold shiftOne
  split
  · rename_i small
    rw [Nat.testBit_two_pow, decide_eq_true_iff]
    exact ⟨fun same => Or.inl ⟨small, same.symm⟩, fun shape => (shape.resolve_right
      fun large => large.1 small).2.symm⟩
  · rename_i large
    split
    · rename_i low
      rw [show (1 : Nat) = 2 ^ 0 from rfl, Nat.testBit_two_pow, decide_eq_true_iff]
      exact ⟨fun zero => Or.inr ⟨large, low, zero.symm⟩, fun shape => (shape.resolve_left
        fun small => large small.1).2.2.symm⟩
    · rename_i gone
      rw [Nat.zero_testBit]
      refine ⟨fun never => Bool.noConfusion never, ?_⟩
      rintro (⟨small, -⟩ | ⟨-, low, -⟩)
      · exact absurd small large
      · exact absurd low gone

/-- A loop whose set keeps away from the one that ends it gets through. -/
theorem suiteLoop_through (away : Nat → Prop) (apart : ∀ w, away w → w ≠ bad)
    (keeps : ∀ w offset keylen, away w → away (w ||| shiftOne wraps (suite offset keylen).1))
    {n : Nat} {state : SuiteLoop} (start : away state.w) :
    (suiteLoop wraps suite bad n state).1 = true := by
  induction n generalizing state with
  | zero => rfl
  | succ n induction =>
    have next := keeps state.w state.frm state.keylen start
    rw [suiteLoop]
    dsimp only
    rw [if_neg (apart _ next)]
    exact induction next

/-- Where a loop that gets through ends, when the element holds all of its suites. -/
theorem suiteLoop_end (value : Nat → Nat)
    (plain : ∀ offset keylen, (suite offset keylen).1 = value offset) {n : Nat}
    {state : SuiteLoop} (small : state.len < 256) (enough : n * ouiLen ≤ state.len)
    (through : (suiteLoop wraps suite bad n state).1 = true) :
    (suiteLoop wraps suite bad n state).2.frm = state.frm + n * ouiLen ∧
      (suiteLoop wraps suite bad n state).2.len = state.len - n * ouiLen ∧
      ∀ bit, (suiteLoop wraps suite bad n state).2.w.testBit bit = true ↔
        state.w.testBit bit = true ∨
          ∃ found ∈ suitesAt value n state.frm, (shiftOne wraps found).testBit bit = true := by
  induction n generalizing state with
  | zero => simp [suiteLoop, suitesAt]
  | succ n induction =>
    rw [suiteLoop] at through ⊢
    dsimp only at through ⊢
    split at through
    · cases through
    · rename_i other
      rw [if_neg other]
      simp only [ouiLen] at enough
      have left : (state.len + 256 - ouiLen) % 256 = state.len - ouiLen := by
        simp only [ouiLen]
        omega
      obtain ⟨frmEnd, lenEnd, bits⟩ := induction
        (by dsimp only; rw [left]; omega) (by dsimp only; rw [left]; simp only [ouiLen]; omega)
        through
      refine ⟨frmEnd.trans ?_, lenEnd.trans ?_, fun bit => (bits bit).trans ?_⟩
      · simp only [ouiLen]
        omega
      · dsimp only
        rw [left]
        simp only [ouiLen]
        omega
      · dsimp only
        rw [suitesAt_succ, List.exists_mem_cons_iff, Nat.testBit_or, Bool.or_eq_true, plain,
          or_assoc]

/-- The judge looks at the PMKIDs with a count of eight bits. -/
theorem counterpartRest_accepts {total offset len : Nat} {rsn : Rsnparms} :
    (counterpartRest frm true total offset len rsn).1 = 0 ↔
      (4 ≤ len → 4 + read16l frm (offset + 2) % 256 * wpaPmkidLen ≤ len) := by
  unfold counterpartRest
  rw [if_neg fun refused => Bool.noConfusion refused.2]
  dsimp only
  by_cases caps : 2 ≤ len
  · rw [if_pos caps]
    dsimp only
    by_cases counted : 2 ≤ len - 2
    · rw [if_pos counted]
      dsimp only
      split
      · rename_i short
        refine iff_of_false (by simp) fun fits => ?_
        have room := fits (by omega)
        simp only [wpaPmkidLen] at short room
        omega
      · rename_i fits
        refine iff_of_true rfl fun _ => ?_
        simp only [wpaPmkidLen] at fits ⊢
        omega
    · rw [if_neg counted]
      dsimp only
      rw [Nat.zero_mul, if_neg (Nat.not_lt_zero _)]
      exact iff_of_true rfl fun room => absurd room (by omega)
  · rw [if_neg caps]
    dsimp only
    rw [if_neg caps]
    dsimp only
    rw [Nat.zero_mul, if_neg (Nat.not_lt_zero _)]
    exact iff_of_true rfl fun room => absurd room (by omega)

theorem rsnKeymgmt_lt (frm : Nat → UInt8) (offset : Nat) : rsnKeymgmt frm offset < 16 := by
  have listed := rsnKeymgmt_mem frm offset
  simp only [List.mem_cons, List.not_mem_nil, or_false] at listed
  omega

theorem testBit_shiftOne_keymgmt (wraps : Bool) (frm : Nat → UInt8) (offset bit : Nat) :
    (shiftOne wraps (rsnKeymgmt frm offset)).testBit bit = true ↔ bit = rsnKeymgmt frm offset := by
  have small := rsnKeymgmt_lt frm offset
  rw [testBit_shiftOne]
  constructor
  · rintro (⟨-, same⟩ | ⟨large, -⟩)
    · exact same
    · exact absurd (Nat.lt_trans small (by decide)) large
  · exact fun same => Or.inl ⟨Nat.lt_trans small (by decide), same⟩

/-- The loop over the key managements ends at once when it does not know the first of them. -/
theorem keymgmtLoop_through (wraps : Bool) (frm : Nat → UInt8) (state : SuiteLoop) {n : Nat}
    (some : n ≠ 0) (start : state.w = 0) :
    (suiteLoop wraps (fun offset keylen => (rsnKeymgmt frm offset, keylen)) 1 n state).1 = true ↔
      rsnKeymgmt frm state.frm ≠ 0 := by
  obtain ⟨n, rfl⟩ := Nat.exists_eq_succ_of_ne_zero some
  rw [suiteLoop]
  dsimp only
  rw [start, Nat.zero_or]
  by_cases unknown : rsnKeymgmt frm state.frm = 0
  · rw [unknown, if_pos (show shiftOne wraps 0 = 1 from rfl)]
    exact iff_of_false Bool.false_ne_true fun known => known rfl
  · have set : (shiftOne wraps (rsnKeymgmt frm state.frm)).testBit (rsnKeymgmt frm state.frm) =
        true := (testBit_shiftOne_keymgmt wraps frm state.frm _).mpr rfl
    have apart : ∀ w : Nat, w.testBit (rsnKeymgmt frm state.frm) = true → w ≠ 1 := by
      rintro w bit rfl
      rw [show (1 : Nat) = 2 ^ 0 from rfl, Nat.testBit_two_pow, decide_eq_true_iff] at bit
      exact unknown bit.symm
    rw [if_neg (apart _ set)]
    refine iff_of_true (suiteLoop_through
      (fun w => w.testBit (rsnKeymgmt frm state.frm) = true) apart ?_ set) unknown
    intro w offset keylen bit
    rw [Nat.testBit_or, bit, Bool.true_or]

theorem cipherLoop_through {n : Nat} {state : SuiteLoop} (start : state.w = 0) :
    (suiteLoop wraps (rsnCipher frm) 32 n state).1 = true := by
  refine suiteLoop_through (fun w => w.testBit 5 = false) ?_ ?_ ?_
  · rintro w bit rfl
    exact absurd bit (by decide)
  · intro w offset keylen bit
    rw [Nat.testBit_or, bit, Bool.false_or, rsnCipher_fst, ← Bool.not_eq_true, testBit_shiftOne]
    have listed := cipherAt_mem frm offset
    simp only [List.mem_cons, List.not_mem_nil, or_false] at listed
    omega
  · rw [start, Nat.zero_testBit]

private theorem counterpartKeymgmt_accepts {total offset len : Nat} {rsn : Rsnparms} (two : 2 ≤ len)
    (small : len < 256) :
    (counterpartKeymgmt wraps frm true total offset len rsn).1 = 0 ↔
      read16l frm offset * ouiLen ≤ len - 2 ∧ rsnKeymgmt frm (offset + 2) ≠ 0 ∧
        (∃ keymgmt ∈ suitesAt (rsnKeymgmt frm) (read16l frm offset) (offset + 2),
          rsn.rsnKeymgmtset.testBit keymgmt = true) ∧
        (4 ≤ len - 2 - read16l frm offset * ouiLen →
          4 + read16l frm (offset + 2 + read16l frm offset * ouiLen + 2) % 256 * wpaPmkidLen ≤
            len - 2 - read16l frm offset * ouiLen) := by
  have left : (len + 256 - 2) % 256 = len - 2 := by omega
  unfold counterpartKeymgmt
  dsimp only
  rw [left]
  by_cases short : (read16l frm offset = 0 ∨ len - 2 < read16l frm offset * ouiLen)
  · rw [if_pos ⟨short, rfl⟩]
    refine iff_of_false (by simp) ?_
    rintro ⟨enough, -, ⟨keymgmt, listed, -⟩, -⟩
    rcases short with none | long
    · exact suitesAt_ne_nil listed none
    · exact absurd enough (Nat.not_le.mpr long)
  · rw [if_neg fun refused => short refused.1]
    obtain ⟨some, enough⟩ := not_or.mp short
    have through := keymgmtLoop_through wraps frm ⟨offset + 2, len - 2, 0, 0⟩ some rfl
    by_cases known : rsnKeymgmt frm (offset + 2) = 0
    · have ended := mt through.mp fun other => other known
      rw [Bool.not_eq_true] at ended
      rw [ended]
      exact iff_of_false (by simp) fun accepted => accepted.2.1 known
    · obtain ⟨frmEnd, lenEnd, bits⟩ := suiteLoop_end
        (rsnKeymgmt frm) (fun _ _ => rfl) (show len - 2 < 256 by omega)
        (Nat.not_lt.mp enough) (through.mpr known)
      rw [through.mpr known, Bool.not_true, if_neg Bool.false_ne_true, frmEnd, lenEnd,
        ← counterpartRest_accepts]
      have shared : (suiteLoop wraps (fun offset keylen => (rsnKeymgmt frm offset, keylen)) 1
            (read16l frm offset) ⟨offset + 2, len - 2, 0, 0⟩).2.w &&& rsn.rsnKeymgmtset ≠ 0 ↔
          ∃ keymgmt ∈ suitesAt (rsnKeymgmt frm) (read16l frm offset) (offset + 2),
            rsn.rsnKeymgmtset.testBit keymgmt = true := by
        rw [Mask.and_ne_zero_iff]
        constructor
        · rintro ⟨bit, set, enabled⟩
          rcases (bits bit).mp set with never | ⟨keymgmt, listed, own⟩
          · rw [Nat.zero_testBit] at never
            cases never
          · obtain ⟨place, rfl⟩ := mem_suitesAt listed
            rw [testBit_shiftOne_keymgmt] at own
            exact ⟨_, listed, own ▸ enabled⟩
        · rintro ⟨keymgmt, listed, enabled⟩
          refine ⟨keymgmt, (bits keymgmt).mpr (Or.inr ⟨keymgmt, listed, ?_⟩), enabled⟩
          obtain ⟨place, rfl⟩ := mem_suitesAt listed
          exact (testBit_shiftOne_keymgmt wraps frm place _).mpr rfl
      by_cases apart : (suiteLoop wraps (fun offset keylen => (rsnKeymgmt frm offset, keylen)) 1
            (read16l frm offset) ⟨offset + 2, len - 2, 0, 0⟩).2.w &&& rsn.rsnKeymgmtset = 0
      · rw [if_pos ⟨rfl, apart⟩]
        exact iff_of_false (by simp) fun accepted => shared.mpr accepted.2.2.1 apart
      · rw [if_neg fun refused => apart refused.2]
        exact ⟨fun accepted => ⟨Nat.not_lt.mp enough, known, shared.mp apart, accepted⟩,
          fun accepted => accepted.2.2.2⟩

/-- What the judge of a peer asks of its element. -/
structure JudgeAccepts (wraps : Bool) (rsn : Rsnparms) (frm : Nat → UInt8) : Prop where
  lists : ListsFit frm
  known : cipherAt frm 4 ≠ unknownCipher
  group : cipherAt frm 4 = rsn.rsnMcastcipher
  pairwise : ∃ cipher ∈ peerCiphers frm, ∃ bit, (shiftOne wraps cipher).testBit bit = true ∧
    rsn.rsnUcastcipherset.testBit bit = true
  first : rsnKeymgmt frm (keymgmtOffset (read16l frm 8) + 2) ≠ 0
  keymgmt : ∃ keymgmt ∈ peerKeymgmts frm, rsn.rsnKeymgmtset.testBit keymgmt = true
  pmkids : PmkidsFit frm (pmkidCount frm % 256)

theorem pmkidsFit_iff (inside : listsEnd frm ≤ (frm 1).toNat + ieHdrLen) :
    PmkidsFit frm (pmkidCount frm % 256) ↔
      (4 ≤ (frm 1).toNat + ieHdrLen - listsEnd frm →
        4 + read16l frm (listsEnd frm + 2) % 256 * wpaPmkidLen ≤
          (frm 1).toNat + ieHdrLen - listsEnd frm) := by
  unfold PmkidsFit pmkidCount
  simp only [ieHdrLen, wpaPmkidLen] at inside ⊢
  split
  · rename_i room
    constructor
    · intro fits _
      by_cases none : read16l frm (listsEnd frm + 2) % 256 = 0
      · rw [none]
        omega
      · have far := fits none
        omega
    · intro fits _
      have far := fits (by omega)
      omega
  · rename_i short
    refine iff_of_true (fun some => absurd rfl some) fun room => absurd room ?_
    omega

theorem judge_accepts (rsn : Rsnparms) :
    (wifiMacParseCounterpartRsn wraps rsn frm true).1 = 0 ↔ JudgeAccepts wraps rsn frm := by
  have byte : (frm 1).toNat < 256 := (frm 1).toNat_lt
  unfold wifiMacParseCounterpartRsn
  dsimp only
  rw [rsnCipher_fst]
  by_cases short : (frm 1).toNat < 10
  · rw [if_pos short]
    refine iff_of_false (by simp) fun accepted => ?_
    have inside := accepted.lists.pairwise
    simp only [keymgmtOffset, ieHdrLen, ouiLen] at inside
    omega
  rw [if_neg short]
  by_cases other : read16l frm 2 ≠ rsnVersion
  · rw [if_pos other]
    exact iff_of_false (by simp) fun accepted => other accepted.lists.version
  rw [if_neg other]
  by_cases unknown : cipherAt frm 4 = unknownCipher
  · rw [if_pos unknown]
    exact iff_of_false (by simp) fun accepted => accepted.known unknown
  rw [if_neg unknown]
  by_cases differs : cipherAt frm 4 ≠ rsn.rsnMcastcipher
  · rw [if_pos ⟨rfl, differs⟩]
    exact iff_of_false (by simp) fun accepted => differs accepted.group
  rw [if_neg fun refused => differs refused.2]
  by_cases bad : read16l frm 8 = 0 ∨ (frm 1).toNat - 8 < read16l frm 8 * ouiLen + 2
  · rw [if_pos ⟨bad, rfl⟩]
    refine iff_of_false (by simp) fun accepted => ?_
    rcases bad with none | long
    · obtain ⟨cipher, listed, -⟩ := accepted.pairwise
      exact suitesAt_ne_nil listed none
    · have inside := accepted.lists.pairwise
      simp only [keymgmtOffset, ieHdrLen, ouiLen] at inside long
      omega
  rw [if_neg fun refused => bad refused.1]
  obtain ⟨some, enough⟩ := not_or.mp bad
  simp only [ouiLen] at enough
  have through : (suiteLoop wraps (rsnCipher frm) 32 (read16l frm 8)
      ⟨10, (frm 1).toNat - 8, 0, rsn.rsnUcastkeylen⟩).1 = true := cipherLoop_through rfl
  obtain ⟨frmEnd, lenEnd, bits⟩ := suiteLoop_end (cipherAt frm)
    (rsnCipher_fst frm) (show (frm 1).toNat - 8 < 256 by omega)
    (show read16l frm 8 * ouiLen ≤ (frm 1).toNat - 8 by simp only [ouiLen]; omega) through
  rw [through, Bool.not_true, if_neg Bool.false_ne_true, frmEnd, lenEnd]
  have shared : (suiteLoop wraps (rsnCipher frm) 32 (read16l frm 8)
        ⟨10, (frm 1).toNat - 8, 0, rsn.rsnUcastkeylen⟩).2.w &&& rsn.rsnUcastcipherset ≠ 0 ↔
      ∃ cipher ∈ peerCiphers frm, ∃ bit, (shiftOne wraps cipher).testBit bit = true ∧
        rsn.rsnUcastcipherset.testBit bit = true := by
    rw [Mask.and_ne_zero_iff]
    constructor
    · rintro ⟨bit, set, enabled⟩
      rcases (bits bit).mp set with never | ⟨cipher, listed, own⟩
      · rw [Nat.zero_testBit] at never
        cases never
      · exact ⟨cipher, listed, bit, own, enabled⟩
    · rintro ⟨cipher, listed, bit, own, enabled⟩
      exact ⟨bit, (bits bit).mpr (Or.inr ⟨cipher, listed, own⟩), enabled⟩
  by_cases apart : (suiteLoop wraps (rsnCipher frm) 32 (read16l frm 8)
      ⟨10, (frm 1).toNat - 8, 0, rsn.rsnUcastkeylen⟩).2.w &&& rsn.rsnUcastcipherset = 0
  · rw [if_pos ⟨rfl, apart⟩]
    exact iff_of_false (by simp) fun accepted => shared.mpr accepted.pairwise apart
  rw [if_neg fun refused => apart refused.2]
  dsimp only
  rw [counterpartKeymgmt_accepts (by simp only [ouiLen]; omega) (by omega)]
  have rest : (frm 1).toNat - 8 - read16l frm 8 * ouiLen - 2 - keymgmtCount frm * ouiLen =
      (frm 1).toNat + ieHdrLen - listsEnd frm := by
    simp only [listsEnd, keymgmtOffset, ouiLen, ieHdrLen]
    omega
  constructor
  · rintro ⟨fits, first, keymgmt, pmkids⟩
    have lists : ListsFit frm := by
      refine ⟨not_not.mp other, ?_, ?_⟩
      · simp only [keymgmtOffset, ieHdrLen, ouiLen]
        omega
      · have keymgmts : keymgmtCount frm * ouiLen ≤
            (frm 1).toNat - 8 - read16l frm 8 * ouiLen - 2 := fits
        simp only [listsEnd, keymgmtOffset, ieHdrLen, ouiLen] at keymgmts ⊢
        omega
    refine ⟨lists, unknown, not_not.mp differs, shared.mp apart, first, keymgmt, ?_⟩
    rw [pmkidsFit_iff lists.keymgmts, ← rest]
    exact pmkids
  · intro accepted
    have inside := accepted.lists.keymgmts
    refine ⟨?_, accepted.first, accepted.keymgmt, ?_⟩
    · show keymgmtCount frm * ouiLen ≤ (frm 1).toNat - 8 - read16l frm 8 * ouiLen - 2
      simp only [listsEnd, keymgmtOffset, ieHdrLen, ouiLen] at inside ⊢
      omega
    · have pmkids := (pmkidsFit_iff inside).mp accepted.pmkids
      rw [← rest] at pmkids
      exact pmkids

end Judge

/-- The two elements share a pairwise cipher that the set of eight bits can hold, or the shift by
32 of a suite that is not known falls on the bit of WEP. -/
def SharesRecorded (wraps : Bool) (own peer : Nat → UInt8) : Prop :=
  (∃ cipher ∈ peerCiphers peer, cipher ∈ ownCiphers own ∧ cipher < 8) ∨
    wraps = true ∧ unknownCipher ∈ peerCiphers peer ∧ wifinetCipherWep ∈ ownCiphers own

/-- The configurations that can be used. What the parameters held before is configured again, the
counts have one byte and are not zero, and the set of eight bits can hold one of the ciphers. -/
structure OwnOk (rsn : Rsnparms) (own : Nat → UInt8) : Prop where
  ciphersNew : ∀ cipher, cipher < 8 → rsn.rsnUcastcipherset.testBit cipher = true →
    cipher ∈ ownCiphers own
  keymgmtsNew : ∀ keymgmt, keymgmt < 16 → rsn.rsnKeymgmtset.testBit keymgmt = true →
    keymgmt ∈ ownKeymgmts own
  ciphers : 0 < read16l own 8 ∧ read16l own 8 < 256
  keymgmts : 0 < keymgmtCount own ∧ keymgmtCount own < 256
  recorded : ∃ cipher ∈ ownCiphers own, cipher < 8

/-- The peers that the judge treats right. One that meets the configuration shares a cipher that is
recorded, and its first key management is known. One that does not is not taken for such because
its count of PMKIDs has a second byte, or because it lists a suite that is not known. -/
structure PeerOk (wraps : Bool) (own peer : Nat → UInt8) : Prop where
  met : RsnMeets own peer → SharesRecorded wraps own peer ∧
    rsnKeymgmt peer (keymgmtOffset (read16l peer 8) + 2) ≠ 0
  unmet : ListsFit peer → cipherAt peer 4 = cipherAt own 4 →
    (∃ keymgmt ∈ peerKeymgmts peer, keymgmt ∈ ownKeymgmts own) →
    rsnKeymgmt peer (keymgmtOffset (read16l peer 8) + 2) ≠ 0 →
    SharesRecorded wraps own peer → PmkidsFit peer (pmkidCount peer % 256) →
    PmkidsFit peer (pmkidCount peer) ∧ ∃ cipher ∈ peerCiphers peer, cipher ∈ ownCiphers own

section Agreement

variable {wraps : Bool} {vif : RsnVif} {own peer : Nat → UInt8} {rsn after : Rsnparms}

theorem shares_iff (accepted : OwnAccepted own rsn after)
    (new : ∀ cipher, cipher < 8 → rsn.rsnUcastcipherset.testBit cipher = true →
      cipher ∈ ownCiphers own)
    (some : read16l own 8 % 256 ≠ 0) :
    (∃ cipher ∈ peerCiphers peer, ∃ bit, (shiftOne wraps cipher).testBit bit = true ∧
      after.rsnUcastcipherset.testBit bit = true) ↔ SharesRecorded wraps own peer := by
  have enabled : ∀ bit, after.rsnUcastcipherset.testBit bit = true ↔
      bit < 8 ∧ bit ∈ ownCiphers own := by
    intro bit
    rw [accepted.cipherset bit]
    constructor
    · rintro (⟨stale, none | small⟩ | recorded)
      · exact absurd none some
      · exact ⟨small, new bit small stale⟩
      · exact recorded
    · exact Or.inr
  constructor
  · rintro ⟨cipher, listed, bit, set, on⟩
    obtain ⟨small, configured⟩ := (enabled bit).mp on
    rcases (testBit_shiftOne wraps cipher bit).mp set with ⟨-, rfl⟩ | ⟨large, wrapped, rfl⟩
    · exact Or.inl ⟨bit, listed, configured, small⟩
    · obtain ⟨place, found⟩ := mem_suitesAt listed
      have known := cipherAt_mem peer place
      rw [← found] at known
      simp only [List.mem_cons, List.not_mem_nil, or_false] at known
      have unknown : cipher = unknownCipher := by
        simp only [unknownCipher]
        omega
      exact Or.inr ⟨wrapped, unknown ▸ listed, configured⟩
  · rintro (⟨cipher, listed, configured, small⟩ | ⟨wrapped, listed, configured⟩)
    · exact ⟨cipher, listed, cipher, (testBit_shiftOne wraps cipher cipher).mpr
        (Or.inl ⟨Nat.lt_trans small (by decide), rfl⟩), (enabled cipher).mpr ⟨small, configured⟩⟩
    · exact ⟨unknownCipher, listed, 0, (testBit_shiftOne wraps unknownCipher 0).mpr
        (Or.inr ⟨by decide, wrapped, rfl⟩), (enabled 0).mpr ⟨by decide, configured⟩⟩

private theorem keymgmts_iff (accepted : OwnAccepted own rsn after)
    (new : ∀ keymgmt, keymgmt < 16 → rsn.rsnKeymgmtset.testBit keymgmt = true →
      keymgmt ∈ ownKeymgmts own) :
    (∃ keymgmt ∈ peerKeymgmts peer, after.rsnKeymgmtset.testBit keymgmt = true) ↔
      ∃ keymgmt ∈ peerKeymgmts peer, keymgmt ∈ ownKeymgmts own := by
  refine exists_congr fun keymgmt => and_congr_right fun listed => ?_
  obtain ⟨place, found⟩ := mem_suitesAt listed
  rw [accepted.keymgmtset keymgmt]
  constructor
  · rintro (⟨stale, -⟩ | recorded)
    · exact new keymgmt (found ▸ rsnKeymgmt_lt peer place) stale
    · exact recorded
  · exact Or.inr

/-- What the judge accepts, in terms of the configured element. -/
theorem judged_iff (accepted : OwnAccepted own rsn after)
    (newCiphers : ∀ cipher, cipher < 8 → rsn.rsnUcastcipherset.testBit cipher = true →
      cipher ∈ ownCiphers own)
    (newKeymgmts : ∀ keymgmt, keymgmt < 16 → rsn.rsnKeymgmtset.testBit keymgmt = true →
      keymgmt ∈ ownKeymgmts own)
    (some : read16l own 8 % 256 ≠ 0) :
    JudgeAccepts wraps after peer ↔
      ListsFit peer ∧ cipherAt peer 4 = cipherAt own 4 ∧ SharesRecorded wraps own peer ∧
        rsnKeymgmt peer (keymgmtOffset (read16l peer 8) + 2) ≠ 0 ∧
        (∃ keymgmt ∈ peerKeymgmts peer, keymgmt ∈ ownKeymgmts own) ∧
        PmkidsFit peer (pmkidCount peer % 256) := by
  constructor
  · intro judged
    exact ⟨judged.lists, judged.group.trans accepted.mcast,
      (shares_iff accepted newCiphers some).mp judged.pairwise, judged.first,
      (keymgmts_iff accepted newKeymgmts).mp judged.keymgmt, judged.pmkids⟩
  · rintro ⟨lists, group, shares, first, keymgmt, pmkids⟩
    refine ⟨lists, fun unknown => accepted.group (group.symm.trans unknown),
      group.trans accepted.mcast.symm, (shares_iff accepted newCiphers some).mpr shares, first,
      (keymgmts_iff accepted newKeymgmts).mpr keymgmt, pmkids⟩

private theorem own_as_peer (ciphers : read16l own 8 < 256) (keymgmts : keymgmtCount own < 256) :
    peerCiphers own = ownCiphers own ∧ peerKeymgmts own = ownKeymgmts own ∧
      listsEnd own = ownEnd own := by
  unfold keymgmtCount at keymgmts
  unfold peerCiphers ownCiphers peerKeymgmts ownKeymgmts listsEnd ownEnd keymgmtCount
  rw [Nat.mod_eq_of_lt ciphers, Nat.mod_eq_of_lt keymgmts]
  exact ⟨rfl, rfl, rfl⟩

private theorem ListsFit.counts (lists : ListsFit own) :
    read16l own 8 < 256 ∧ keymgmtCount own < 256 := by
  have byte : (own 1).toNat < 256 := (own 1).toNat_lt
  have keymgmts := lists.keymgmts
  simp only [listsEnd, keymgmtOffset, ieHdrLen, ouiLen] at keymgmts
  omega

/-- The judge accepts the configured element exactly when its counts have one byte and are not
zero, and one of its ciphers is recorded. -/
theorem itself_iff (accepted : OwnAccepted own rsn after)
    (newCiphers : ∀ cipher, cipher < 8 → rsn.rsnUcastcipherset.testBit cipher = true →
      cipher ∈ ownCiphers own)
    (newKeymgmts : ∀ keymgmt, keymgmt < 16 → rsn.rsnKeymgmtset.testBit keymgmt = true →
      keymgmt ∈ ownKeymgmts own) :
    JudgeAccepts wraps after own ↔
      (0 < read16l own 8 ∧ read16l own 8 < 256) ∧
        (0 < keymgmtCount own ∧ keymgmtCount own < 256) ∧ ∃ cipher ∈ ownCiphers own, cipher < 8 := by
  constructor
  · intro judged
    obtain ⟨fewCiphers, fewKeymgmts⟩ := judged.lists.counts
    obtain ⟨ciphersSame, -, -⟩ := own_as_peer fewCiphers fewKeymgmts
    have someCiphers : read16l own 8 ≠ 0 := by
      obtain ⟨cipher, listed, -⟩ := judged.pairwise
      exact suitesAt_ne_nil listed
    have someKeymgmts : keymgmtCount own ≠ 0 := by
      obtain ⟨keymgmt, listed, -⟩ := judged.keymgmt
      exact suitesAt_ne_nil listed
    refine ⟨⟨Nat.pos_of_ne_zero someCiphers, fewCiphers⟩,
      ⟨Nat.pos_of_ne_zero someKeymgmts, fewKeymgmts⟩, ?_⟩
    have some : read16l own 8 % 256 ≠ 0 := by
      rw [Nat.mod_eq_of_lt fewCiphers]
      exact someCiphers
    rcases (shares_iff accepted newCiphers some).mp judged.pairwise with shared | stray
    · obtain ⟨cipher, -, configured, small⟩ := shared
      exact ⟨cipher, configured, small⟩
    · rw [ciphersSame] at stray
      exact absurd rfl (accepted.ciphers _ stray.2.1)
  · rintro ⟨⟨someCiphers, fewCiphers⟩, ⟨someKeymgmts, fewKeymgmts⟩, cipher, configured, small⟩
    obtain ⟨ciphersSame, keymgmtsSame, endSame⟩ := own_as_peer fewCiphers fewKeymgmts
    have some : read16l own 8 % 256 ≠ 0 := by
      rw [Nat.mod_eq_of_lt fewCiphers]
      exact Nat.ne_of_gt someCiphers
    have inside : listsEnd own ≤ (own 1).toNat + ieHdrLen := endSame.trans_le accepted.inside
    have first : rsnKeymgmt own (keymgmtOffset (read16l own 8) + 2) ∈ ownKeymgmts own := by
      obtain ⟨count, counted⟩ := Nat.exists_eq_succ_of_ne_zero (Nat.ne_of_gt someKeymgmts)
      rw [← keymgmtsSame, peerKeymgmts, counted, suitesAt_succ]
      exact List.mem_cons_self
    refine (judged_iff accepted newCiphers newKeymgmts some).mpr ⟨⟨accepted.version, ?_, inside⟩,
      rfl, Or.inl ⟨cipher, ciphersSame ▸ configured, configured, small⟩,
      accepted.keymgmts _ first, ⟨_, keymgmtsSame ▸ first, first⟩, ?_⟩
    · simp only [listsEnd] at inside
      omega
    · rw [pmkidsFit_iff inside, endSame]
      intro room
      have fits := accepted.pmkids (by omega)
      omega

/-- The two parsers agree about a peer exactly when the configuration can be used and the peer is
one that the judge treats right. -/
theorem rsn_agrees_iff (accepted : (wifiMacParseOwnRsn vif rsn own).1 = 0) :
    RsnAgrees wraps vif rsn own peer ↔ OwnOk rsn own ∧ PeerOk wraps own peer := by
  have recorded := wifiMacParseOwnRsn_accepted accepted
  constructor
  · intro agrees
    have newCiphers : ∀ cipher, cipher < 8 → rsn.rsnUcastcipherset.testBit cipher = true →
        cipher ∈ ownCiphers own := fun cipher small stale =>
      agrees.ciphers cipher ((recorded.cipherset cipher).mpr (Or.inl ⟨stale, Or.inr small⟩))
    have newKeymgmts : ∀ keymgmt, keymgmt < 16 → rsn.rsnKeymgmtset.testBit keymgmt = true →
        keymgmt ∈ ownKeymgmts own := fun keymgmt small stale =>
      agrees.keymgmts keymgmt ((recorded.keymgmtset keymgmt).mpr (Or.inl ⟨stale, Or.inr small⟩))
    obtain ⟨ciphers, keymgmts, held⟩ :=
      (itself_iff recorded newCiphers newKeymgmts).mp ((judge_accepts _).mp agrees.itself)
    have some : read16l own 8 % 256 ≠ 0 := by
      rw [Nat.mod_eq_of_lt ciphers.2]
      exact Nat.ne_of_gt ciphers.1
    have judged : JudgeAccepts wraps _ peer ↔ RsnMeets own peer :=
      (judge_accepts _).symm.trans agrees.judged
    rw [judged_iff recorded newCiphers newKeymgmts some] at judged
    refine ⟨⟨newCiphers, newKeymgmts, ciphers, keymgmts, held⟩, ⟨fun meets => ?_, ?_⟩⟩
    · obtain ⟨-, -, shares, first, -⟩ := judged.mpr meets
      exact ⟨shares, first⟩
    · intro lists group keymgmt first shares pmkids
      have meets := judged.mp ⟨lists, group, shares, first, keymgmt, pmkids⟩
      exact ⟨meets.wellFormed.pmkids, meets.pairwise⟩
  · rintro ⟨ownOk, peerOk⟩
    have some : read16l own 8 % 256 ≠ 0 := by
      rw [Nat.mod_eq_of_lt ownOk.ciphers.2]
      exact Nat.ne_of_gt ownOk.ciphers.1
    constructor
    · rw [judge_accepts, judged_iff recorded ownOk.ciphersNew ownOk.keymgmtsNew some]
      constructor
      · rintro ⟨lists, group, shares, first, keymgmt, pmkids⟩
        obtain ⟨fits, pairwise⟩ := peerOk.unmet lists group keymgmt first shares pmkids
        exact ⟨⟨lists, fits⟩, group, pairwise, keymgmt⟩
      · intro meets
        obtain ⟨shares, first⟩ := peerOk.met meets
        refine ⟨meets.wellFormed.lists, meets.group, shares, first, meets.keymgmt, fun more => ?_⟩
        have fits := meets.wellFormed.pmkids (fun none => more (by rw [none]))
        have fewer := Nat.mod_le (pmkidCount peer) 256
        simp only [wpaPmkidLen] at fits ⊢
        omega
    · exact (judge_accepts _).mpr ((itself_iff recorded ownOk.ciphersNew ownOk.keymgmtsNew).mpr
        ⟨ownOk.ciphers, ownOk.keymgmts, ownOk.recorded⟩)
    · intro cipher on
      rcases (recorded.cipherset cipher).mp on with ⟨stale, none | small⟩ | ⟨-, configured⟩
      · exact absurd none some
      · exact ownOk.ciphersNew cipher small stale
      · exact configured
    · intro keymgmt on
      rcases (recorded.keymgmtset keymgmt).mp on with ⟨stale, none | small⟩ | configured
      · obtain ⟨ciphers, keymgmts⟩ := (⟨ownOk.ciphers.2, ownOk.keymgmts⟩ :
          read16l own 8 < 256 ∧ 0 < keymgmtCount own ∧ keymgmtCount own < 256)
        unfold keymgmtCount at keymgmts
        rw [Nat.mod_eq_of_lt ciphers, Nat.mod_eq_of_lt keymgmts.2] at none
        exact absurd none (Nat.ne_of_gt keymgmts.1)
      · exact ownOk.keymgmtsNew keymgmt small stale
      · exact configured

/-- An interface with every cipher. -/
def plainVif : RsnVif := ⟨0xff, fun _ => true⟩

/-- The parameters after the `memset` of `wifi_cfg80211.c`, with which an access point is
configured. -/
def clearedRsn : Rsnparms := ⟨0, 0, 0, 0, 0, 0, 0, 0, 0, 0, [], 0⟩

/-- An element as it stands in memory. -/
def element (bytes : List UInt8) : Nat → UInt8 := fun offset => bytes.getD offset 0

/-- CCMP and a pre-shared key. -/
def pskElement : Nat → UInt8 :=
  element [48, 20, 1, 0, 0x00, 0x0f, 0xac, 4, 1, 0, 0x00, 0x0f, 0xac, 4,
    1, 0, 0x00, 0x0f, 0xac, 2, 0, 0]

/-- The same with fast transition before the pre-shared key. -/
def fastElement : Nat → UInt8 :=
  element [48, 24, 1, 0, 0x00, 0x0f, 0xac, 4, 1, 0, 0x00, 0x0f, 0xac, 4,
    2, 0, 0x00, 0x0f, 0xac, 4, 0x00, 0x0f, 0xac, 2, 0, 0]

/-- CCMP and TKIP, a pre-shared key and 802.1X. -/
def pairElement : Nat → UInt8 :=
  element [48, 28, 1, 0, 0x00, 0x0f, 0xac, 4, 2, 0, 0x00, 0x0f, 0xac, 4, 0x00, 0x0f, 0xac, 2,
    2, 0, 0x00, 0x0f, 0xac, 2, 0x00, 0x0f, 0xac, 1, 12, 0]

/-- A peer takes one of the ciphers and one of the key managements. -/
theorem rsn_agrees_pair : RsnAgrees true plainVif clearedRsn pairElement pskElement ∧
    RsnMeets pairElement pskElement := by
  have lists : RsnMeets pairElement pskElement :=
    ⟨⟨⟨by decide, by decide, by decide⟩, fun some => absurd (by decide) some⟩, by decide,
      by decide, by decide⟩
  refine ⟨(rsn_agrees_iff (by decide)).mpr ⟨⟨?_, ?_, by decide, by decide, by decide⟩, ?_, ?_⟩,
    lists⟩
  · intro cipher _ stale
    exact absurd stale (by simp [clearedRsn])
  · intro keymgmt _ stale
    exact absurd stale (by simp [clearedRsn])
  · exact fun _ => ⟨Or.inl (by decide), by decide⟩
  · exact fun _ _ _ _ _ _ => ⟨fun some => absurd (by decide) some, by decide⟩

/-- A peer that lists what the access point does not know first is refused. -/
theorem rsn_refused : (wifiMacParseOwnRsn plainVif clearedRsn pskElement).1 = 0 ∧
    ¬ RsnAgrees true plainVif clearedRsn pskElement fastElement := by
  refine ⟨by decide, fun agrees => ?_⟩
  have meets : RsnMeets pskElement fastElement :=
    ⟨⟨⟨by decide, by decide, by decide⟩, fun some => absurd (by decide) some⟩, by decide,
      by decide, by decide⟩
  exact absurd (agrees.judged.mpr meets) (by decide)

end Agreement

end W522a.Ap
