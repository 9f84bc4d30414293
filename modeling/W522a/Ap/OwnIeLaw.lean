import W522a.Ap.OwnIeLayout

/-!
Which parameters come back from the elements that are built of them.
-/

namespace W522a.Ap

/-- The pointer is behind the element, and the length byte counts what is behind the header. -/
structure BuiltIe.WellFormed (built : BuiltIe) : Prop where
  ending : built.frm = built.bytes.length
  length : (built.bytes.getD 1 0).toNat + ieHdrLen = built.frm

/-- What comes back of the parameters when the judge of a peer and a station that joins read the
RSN element, wherever it stands. -/
structure RsnReads (wraps : Bool) (rsn : OwnRsnparms) (frm : Nat → UInt8) : Prop where
  wellFormed : RsnWellFormed frm
  judged : (wifiMacParseCounterpartRsn wraps rsn.toRsnparms frm true).1 = 0
  judgedCaps :
    (wifiMacParseCounterpartRsn wraps rsn.toRsnparms frm true).2.rsnCaps = rsn.rsnCaps
  judgedKeylen : (wifiMacParseCounterpartRsn wraps rsn.toRsnparms frm true).2.rsnMcastkeylen =
    rsn.rsnMcastkeylen
  joined : ∀ peer, (wifiMacParseCounterpartRsn wraps peer frm false).1 = 0
  joinedCaps : ∀ peer, (wifiMacParseCounterpartRsn wraps peer frm false).2.rsnCaps = rsn.rsnCaps
  group : cipherAt frm 4 = rsn.rsnMcastcipher
  ciphers : ∀ cipher, rsn.rsnUcastcipherset.testBit cipher = true ↔ cipher ∈ peerCiphers frm
  keymgmts : ∀ keymgmt, rsn.rsnKeymgmtset.testBit keymgmt = true ↔ keymgmt ∈ peerKeymgmts frm

/-- What comes back of the parameters when the judge of a peer and a configuration read the WPA
element, wherever it stands. -/
structure WpaReads (wraps : Bool) (rsn : OwnRsnparms) (frm : Nat → UInt8) : Prop where
  judged : (wifiMacParseWpa wraps rsn.toRsnparms frm).1 = 0
  judgedKeylen :
    (wifiMacParseWpa wraps rsn.toRsnparms frm).2.rsnMcastkeylen = rsn.rsnMcastkeylen
  recorded : (wifiMacParseOwnWpa wraps zeroRsnparms frm).1 = 0
  group : (wifiMacParseOwnWpa wraps zeroRsnparms frm).2.rsnMcastcipher = rsn.rsnMcastcipher
  ciphers : (wifiMacParseOwnWpa wraps zeroRsnparms frm).2.rsnUcastcipherset =
    rsn.rsnUcastcipherset
  keymgmts : (wifiMacParseOwnWpa wraps zeroRsnparms frm).2.rsnKeymgmtset = rsn.rsnKeymgmtset
  caps : (wifiMacParseOwnWpa wraps zeroRsnparms frm).2.rsnCaps = rsn.rsnCaps
  saValid : (wifiMacParseOwnWpa wraps zeroRsnparms frm).2.saValid = rsn.saValid

/-- The RSN element is built, from inside its table, and the parameters come back. -/
def RsnRoundTrip (wraps : Bool) (rsn : OwnRsnparms) : Prop :=
  ∃ built, wifiMacSetupRsnIe rsn = some built ∧ built.WellFormed ∧
    ∀ frm, Bytes.Holds frm 0 built.bytes → RsnReads wraps rsn frm

/-- The WPA element is built, from inside its table, and the parameters come back. -/
def WpaRoundTrip (wraps : Bool) (rsn : OwnRsnparms) : Prop :=
  ∃ built, wifiMacSetupWpaIe rsn = some built ∧ built.WellFormed ∧
    ∀ frm, Bytes.Holds frm 0 built.bytes → WpaReads wraps rsn frm

def SetWithin (set : Nat) (bits : List Nat) : Prop :=
  set ≠ 0 ∧ ∀ bit, set.testBit bit = true → bit ∈ bits

/-- The group cipher is one of those that an element can carry, and so are the pairwise ciphers
and the key managements, of which there are some. -/
structure Emitted (rsn : OwnRsnparms) (groups ciphers keymgmts : List Nat) : Prop where
  group : rsn.rsnMcastcipher ∈ groups
  ciphers : SetWithin rsn.rsnUcastcipherset ciphers
  keymgmts : SetWithin rsn.rsnKeymgmtset keymgmts

section RsnParser

variable {wraps : Bool} {frm : Nat → UInt8} {rsn : Rsnparms} {isJudge : Bool}

/-- The rest of an element that ends behind its capabilities. -/
theorem counterpartRest_reads {total offset : Nat} :
    (counterpartRest frm isJudge total offset 2 rsn).1 = 0 ∧
      (counterpartRest frm isJudge total offset 2 rsn).2.rsnCaps = read16l frm offset ∧
      (counterpartRest frm isJudge total offset 2 rsn).2.rsnMcastkeylen = rsn.rsnMcastkeylen := by
  simp [counterpartRest]

private theorem counterpartKeymgmt_reads (wraps : Bool) (rsn : Rsnparms) (total : Nat)
    {offset len n : Nat} (counted : read16l frm offset = n)
    (some : n ≠ 0) (small : len < 256) (room : len = n * ouiLen + 4)
    (first : rsnKeymgmt frm (offset + 2) ≠ 0)
    (judged : isJudge = true → ∃ keymgmt ∈ suitesAt (rsnKeymgmt frm) n (offset + 2),
      rsn.rsnKeymgmtset.testBit keymgmt = true) :
    (counterpartKeymgmt wraps frm isJudge total offset len rsn).1 = 0 ∧
      (counterpartKeymgmt wraps frm isJudge total offset len rsn).2.rsnCaps =
        read16l frm (offset + 2 + n * ouiLen) ∧
      (counterpartKeymgmt wraps frm isJudge total offset len rsn).2.rsnMcastkeylen =
        rsn.rsnMcastkeylen := by
  have left : (len + 256 - 2) % 256 = n * ouiLen + 2 := by omega
  have through := (keymgmtLoop_through wraps frm ⟨offset + 2, n * ouiLen + 2, 0, 0⟩ some rfl).mpr
    first
  obtain ⟨frmEnd, lenEnd, bits⟩ := suiteLoop_end (rsnKeymgmt frm) (fun _ _ => rfl)
    (show n * ouiLen + 2 < 256 by omega) (Nat.le_add_right _ _) through
  have meets : isJudge = true →
      (suiteLoop wraps (fun offset keylen => (rsnKeymgmt frm offset, keylen)) 1 n
        ⟨offset + 2, n * ouiLen + 2, 0, 0⟩).2.w &&& rsn.rsnKeymgmtset ≠ 0 := by
    intro judge
    obtain ⟨keymgmt, listed, enabled⟩ := judged judge
    refine Mask.and_ne_zero_iff.mpr ⟨keymgmt, (bits keymgmt).mpr
      (Or.inr ⟨keymgmt, listed, ?_⟩), enabled⟩
    obtain ⟨place, rfl⟩ := mem_suitesAt listed
    exact (testBit_shiftOne_keymgmt wraps frm place _).mpr rfl
  unfold counterpartKeymgmt
  dsimp only
  rw [counted, left, if_neg fun refused => refused.1.elim some (Nat.not_lt.mpr
    (Nat.le_add_right _ _)), through, Bool.not_true, if_neg Bool.false_ne_true,
    if_neg fun refused => meets refused.1 refused.2, frmEnd, lenEnd, Nat.add_sub_cancel_left]
  exact counterpartRest_reads

/-- The parser accepts an element that ends behind its capabilities, and reads these of it. -/
structure CounterpartReads (wraps : Bool) (rsn : Rsnparms) (frm : Nat → UInt8) (isJudge : Bool) :
    Prop where
  accepted : (wifiMacParseCounterpartRsn wraps rsn frm isJudge).1 = 0
  caps : (wifiMacParseCounterpartRsn wraps rsn frm isJudge).2.rsnCaps = read16l frm (listsEnd frm)
  keylen : (wifiMacParseCounterpartRsn wraps rsn frm isJudge).2.rsnMcastkeylen =
    (rsnCipher frm 4 rsn.rsnMcastkeylen).2

theorem counterpart_reads (lists : ListsFit frm) (known : cipherAt frm 4 ≠ unknownCipher)
    (some : read16l frm 8 ≠ 0) (more : keymgmtCount frm ≠ 0)
    (first : rsnKeymgmt frm (keymgmtOffset (read16l frm 8) + 2) ≠ 0)
    (ending : listsEnd frm = (frm 1).toNat)
    (judged : isJudge = true → cipherAt frm 4 = rsn.rsnMcastcipher ∧
      (∃ cipher ∈ peerCiphers frm, cipher < 32 ∧ rsn.rsnUcastcipherset.testBit cipher = true) ∧
      ∃ keymgmt ∈ peerKeymgmts frm, rsn.rsnKeymgmtset.testBit keymgmt = true) :
    CounterpartReads wraps rsn frm isJudge := by
  have byte : (frm 1).toNat < 256 := (frm 1).toNat_lt
  have room : (frm 1).toNat = 12 + read16l frm 8 * 4 + keymgmtCount frm * 4 := by
    rw [← ending]
    simp only [listsEnd, keymgmtOffset, ouiLen]
    omega
  have through : (suiteLoop wraps (rsnCipher frm) 32 (read16l frm 8)
      ⟨10, (frm 1).toNat - 8, 0, rsn.rsnUcastkeylen⟩).1 = true := cipherLoop_through rfl
  obtain ⟨frmEnd, lenEnd, bits⟩ := suiteLoop_end (cipherAt frm)
    (rsnCipher_fst frm) (show (frm 1).toNat - 8 < 256 by omega)
    (show read16l frm 8 * ouiLen ≤ (frm 1).toNat - 8 by simp only [ouiLen]; omega) through
  have meets : isJudge = true → (suiteLoop wraps (rsnCipher frm) 32 (read16l frm 8)
      ⟨10, (frm 1).toNat - 8, 0, rsn.rsnUcastkeylen⟩).2.w &&& rsn.rsnUcastcipherset ≠ 0 := by
    intro judge
    obtain ⟨-, ⟨cipher, listed, small, enabled⟩, -⟩ := judged judge
    refine Mask.and_ne_zero_iff.mpr ⟨cipher, (bits cipher).mpr (Or.inr ⟨cipher, listed, ?_⟩),
      enabled⟩
    exact (testBit_shiftOne wraps cipher cipher).mpr (Or.inl ⟨small, rfl⟩)
  obtain ⟨after, keylen, keymgmtset, read⟩ : ∃ after : Rsnparms,
      after.rsnMcastkeylen = (rsnCipher frm 4 rsn.rsnMcastkeylen).2 ∧
      after.rsnKeymgmtset = rsn.rsnKeymgmtset ∧
      wifiMacParseCounterpartRsn wraps rsn frm isJudge =
        counterpartKeymgmt wraps frm isJudge (frm 1).toNat (keymgmtOffset (read16l frm 8))
          ((frm 1).toNat - 8 - read16l frm 8 * ouiLen) after := by
    refine ⟨{ rsn with
      rsnMcastkeylen := (rsnCipher frm 4 rsn.rsnMcastkeylen).2
      rsnUcastkeylen := (suiteLoop wraps (rsnCipher frm) 32 (read16l frm 8)
        ⟨10, (frm 1).toNat - 8, 0, rsn.rsnUcastkeylen⟩).2.keylen }, rfl, rfl, ?_⟩
    unfold wifiMacParseCounterpartRsn
    dsimp only
    rw [if_neg (by omega : ¬(frm 1).toNat < 10), if_neg (not_not.mpr lists.version),
      rsnCipher_fst, if_neg known, if_neg fun refused => refused.2 (judged refused.1).1,
      if_neg fun refused => refused.1.elim some (by simp only [ouiLen]; omega), through,
      Bool.not_true, if_neg Bool.false_ne_true,
      if_neg fun refused => meets refused.1 refused.2, frmEnd, lenEnd, keymgmtOffset]
  have last : (frm 1).toNat - 8 - read16l frm 8 * ouiLen = keymgmtCount frm * ouiLen + 4 := by
    simp only [ouiLen]
    omega
  have shared : isJudge = true → ∃ keymgmt ∈ peerKeymgmts frm,
      after.rsnKeymgmtset.testBit keymgmt = true := by
    rw [keymgmtset]
    exact fun judge => (judged judge).2.2
  obtain ⟨accepted, caps, kept⟩ := counterpartKeymgmt_reads wraps after (frm 1).toNat
    rfl more (by omega) last first shared
  rw [← read] at accepted caps kept
  exact ⟨accepted, caps, kept.trans keylen⟩

end RsnParser

section Kept

variable {set bit : Nat} {suites : List (Nat × List UInt8)}

theorem SetWithin.kept (within : SetWithin set (suites.map Prod.fst)) (bit : Nat) :
    set.testBit bit = true ↔ bit ∈ (keptSuites set suites).map Prod.fst := by
  rw [mem_kept]
  exact ⟨fun enabled => ⟨within.2 bit enabled, enabled⟩, fun listed => listed.2⟩

theorem SetWithin.some (within : SetWithin set (suites.map Prod.fst)) :
    (keptSuites set suites).length ≠ 0 := by
  obtain ⟨bit, enabled⟩ := Nat.exists_testBit_of_ne_zero within.1
  intro none
  have listed := (within.kept bit).mp enabled
  rw [List.length_eq_zero_iff.mp none] at listed
  cases listed

/-- A set that is listed with something in it is one that an element can carry. -/
theorem setWithin_of_kept
    (same : ∀ bit, set.testBit bit = true ↔ bit ∈ (keptSuites set suites).map Prod.fst)
    (listed : bit ∈ (keptSuites set suites).map Prod.fst) :
    SetWithin set (suites.map Prod.fst) := by
  refine ⟨?_, fun bit enabled => (mem_kept.mp ((same bit).mp enabled)).1⟩
  rintro rfl
  have enabled := (same bit).mpr listed
  rw [Nat.zero_testBit] at enabled
  cases enabled

end Kept

section Rsn

variable {wraps : Bool} {rsn : OwnRsnparms} {built : BuiltIe}

/-- What is built is one of the layouts, with a pointer behind it. -/
theorem rsnIe_built (build : wifiMacSetupRsnIe rsn = some built) :
    ∃ group, groupSelector rsn rsnCipherSuite (rsnSelector 0x05) = some group ∧
      group.length = ouiLen ∧
      built = ⟨wifinetElemidRsn :: UInt8.ofNat (rsnBody rsn group).length :: rsnBody rsn group,
        (rsnBody rsn group).length + 2⟩ := by
  rw [wifiMacSetupRsnIe_eq] at build
  obtain ⟨group, chosen, finished⟩ := Option.map_eq_some_iff.mp build
  have four : group.length = ouiLen := groupSelector_length (by decide) rfl chosen
  refine ⟨group, chosen, four, ?_⟩
  rw [← finished, finishIe_eq (rsnBody_short rsn four)]

theorem finished_wellFormed {id : UInt8} {rest : List UInt8} (short : rest.length ≤ 98) :
    BuiltIe.WellFormed ⟨id :: UInt8.ofNat rest.length :: rest, rest.length + 2⟩ := by
  refine ⟨rfl, ?_⟩
  show (UInt8.ofNat rest.length).toNat + 2 = rest.length + 2
  rw [UInt8.toNat_ofNat']
  omega

theorem rsnRoundTrip_emitted (carried : RsnRoundTrip wraps rsn) :
    Emitted rsn rsnIeGroups (rsnIeCiphers.map Prod.fst) (rsnIeKeymgmts.map Prod.fst) := by
  obtain ⟨built, build, -, reads⟩ := carried
  obtain ⟨group, chosen, four, rfl⟩ := rsnIe_built build
  have held := Bytes.holds_getD 0 (wifinetElemidRsn ::
    UInt8.ofNat (rsnBody rsn group).length :: rsnBody rsn group)
  have layout := rsnLayout_of_holds four held
  have read := reads _ held
  have accepted := (judge_accepts _).mp read.judged
  constructor
  · exact (rsnGroup_same chosen layout.group).mp read.group
  · obtain ⟨cipher, listed, -⟩ := accepted.pairwise
    rw [layout.ciphers] at listed
    refine setWithin_of_kept (fun bit => ?_) listed
    rw [← layout.ciphers]
    exact read.ciphers bit
  · obtain ⟨keymgmt, listed, -⟩ := accepted.keymgmt
    rw [layout.keymgmts] at listed
    refine setWithin_of_kept (fun bit => ?_) listed
    rw [← layout.keymgmts]
    exact read.keymgmts bit

private theorem RsnLayout.lists {group : List UInt8} {frm : Nat → UInt8}
    (layout : RsnLayout rsn group frm) : ListsFit frm := by
  have inside : listsEnd frm ≤ (frm 1).toNat + ieHdrLen := by
    rw [layout.ending]
    exact Nat.le_add_right _ _
  refine ⟨layout.version, ?_, inside⟩
  unfold listsEnd at inside
  omega

private theorem RsnLayout.reads {group : List UInt8} {frm : Nat → UInt8}
    (layout : RsnLayout rsn group frm)
    (chosen : groupSelector rsn rsnCipherSuite (rsnSelector 0x05) = some group)
    (caps : rsn.rsnCaps < 2 ^ 16)
    (wep : rsn.rsnMcastcipher = 0 → rsn.rsnMcastkeylen = 5 ∨ rsn.rsnMcastkeylen = 13)
    (emitted : Emitted rsn rsnIeGroups (rsnIeCiphers.map Prod.fst) (rsnIeKeymgmts.map Prod.fst)) :
    RsnReads wraps rsn frm := by
  have ciphers := emitted.ciphers.kept
  have keymgmts := emitted.keymgmts.kept
  rw [← layout.ciphers] at ciphers
  rw [← layout.keymgmts] at keymgmts
  have group := (rsnGroup_same chosen layout.group).mpr emitted.group
  have known : cipherAt frm 4 ≠ unknownCipher := by
    have number : rsn.rsnMcastcipher < 6 := groupSelector_number chosen (by decide)
    rw [group]
    simp only [unknownCipher]
    omega
  have some : read16l frm 8 ≠ 0 := layout.count.trans_ne emitted.ciphers.some
  have more : keymgmtCount frm ≠ 0 := layout.counted.trans_ne emitted.keymgmts.some
  have first : rsnKeymgmt frm (keymgmtOffset (read16l frm 8) + 2) ∈ peerKeymgmts frm := by
    obtain ⟨count, counted⟩ := Nat.exists_eq_succ_of_ne_zero more
    rw [peerKeymgmts, counted, suitesAt_succ]
    exact List.mem_cons_self
  have firstKnown : rsnKeymgmt frm (keymgmtOffset (read16l frm 8) + 2) ≠ 0 := by
    intro unknown
    rw [unknown] at first
    exact absurd (emitted.keymgmts.2 0 ((keymgmts 0).mpr first)) (by decide)
  have judged : CounterpartReads wraps rsn.toRsnparms frm true := by
    refine counterpart_reads layout.lists known some more firstKnown layout.ending fun _ =>
      ⟨group, ?_, _, first, (keymgmts _).mpr first⟩
    obtain ⟨cipher, enabled⟩ := Nat.exists_testBit_of_ne_zero emitted.ciphers.1
    have small : ∀ bit ∈ rsnIeCiphers.map Prod.fst, bit < 32 := by decide
    exact ⟨cipher, (ciphers cipher).mp enabled, small cipher (emitted.ciphers.2 cipher enabled),
      enabled⟩
  have joined : ∀ peer, CounterpartReads wraps peer frm false := fun peer =>
    counterpart_reads layout.lists known some more firstKnown layout.ending
      fun never => Bool.noConfusion never
  constructor
  · refine ⟨layout.lists, fun counted => absurd ?_ counted⟩
    unfold pmkidCount
    rw [layout.ending, if_neg]
    simp only [ieHdrLen]
    omega
  · exact judged.accepted
  · exact judged.caps.trans (layout.caps caps)
  · exact judged.keylen.trans (rsnGroup_keylen chosen layout.group wep)
  · exact fun peer => (joined peer).accepted
  · exact fun peer => (joined peer).caps.trans (layout.caps caps)
  · exact group
  · exact ciphers
  · exact keymgmts

theorem rsnRoundTrip_of_emitted (caps : rsn.rsnCaps < 2 ^ 16)
    (wep : rsn.rsnMcastcipher = 0 → rsn.rsnMcastkeylen = 5 ∨ rsn.rsnMcastkeylen = 13)
    (emitted : Emitted rsn rsnIeGroups (rsnIeCiphers.map Prod.fst) (rsnIeKeymgmts.map Prod.fst)) :
    RsnRoundTrip wraps rsn := by
  have place : ∀ number ∈ rsnIeGroups, number < rsnCipherSuite.length := by decide
  obtain ⟨group, chosen⟩ := groupSelector_some (rsnSelector 0x05)
    (place rsn.rsnMcastcipher emitted.group)
  obtain ⟨built, build⟩ : ∃ built, wifiMacSetupRsnIe rsn = some built := by
    rw [wifiMacSetupRsnIe_eq, chosen]
    exact ⟨_, rfl⟩
  obtain ⟨group, chosen, four, rfl⟩ := rsnIe_built build
  refine ⟨_, build, finished_wellFormed (rsnBody_short rsn four), fun frm held => ?_⟩
  exact (rsnLayout_of_holds four held).reads chosen caps wep emitted

end Rsn

section WpaParser

variable {wraps : Bool} {frm : Nat → UInt8} {rsn start : OwnRsnparms} {group : List UInt8}

private theorem wpaSuites_bits {suite : Nat → Nat → Nat × Nat} (value : Nat → Nat)
    (plain : ∀ offset keylen, (suite offset keylen).1 = value offset) (n offset bit : Nat)
    (found : Nat × Nat) :
    (wpaSuites wraps suite n offset found).1.testBit bit = true ↔ found.1.testBit bit = true ∨
      ∃ listed ∈ suitesAt value n offset, (shiftOne wraps listed).testBit bit = true := by
  induction n generalizing offset found with
  | zero => simp [wpaSuites, suitesAt]
  | succ n induction =>
    rw [wpaSuites, induction, suitesAt_succ, List.exists_mem_cons_iff, ← or_assoc]
    dsimp only
    rw [Nat.testBit_or, Bool.or_eq_true, plain]

/-- The set that a loop reads of suites with small numbers. -/
theorem wpaSuites_listed {suite : Nat → Nat → Nat × Nat} (value : Nat → Nat)
    (plain : ∀ offset keylen, (suite offset keylen).1 = value offset) (n offset keylen : Nat)
    (small : ∀ listed ∈ suitesAt value n offset, listed < 32) (bit : Nat) :
    (wpaSuites wraps suite n offset (0, keylen)).1.testBit bit = true ↔
      bit ∈ suitesAt value n offset := by
  rw [wpaSuites_bits value plain]
  constructor
  · rintro (never | ⟨listed, member, set⟩)
    · rw [Nat.zero_testBit] at never
      cases never
    · rcases (testBit_shiftOne wraps listed bit).mp set with ⟨-, rfl⟩ | ⟨large, -⟩
      · exact member
      · exact absurd (small listed member) large
  · exact fun member => Or.inr ⟨bit, member, (testBit_shiftOne wraps bit bit).mpr
      (Or.inl ⟨small bit member, rfl⟩)⟩

theorem wpaCipher_fst (frm : Nat → UInt8) (offset keylen : Nat) :
    (wpaCipher frm offset keylen).1 = wpaCipherAt frm offset := by
  unfold wpaCipherAt wpaCipher
  dsimp only
  repeat' split
  all_goals rfl

/-- The pairwise ciphers that the WPA element of the parameters lists. -/
def wpaCiphersKept (rsn : OwnRsnparms) : List (Nat × List UInt8) :=
  keptSuites rsn.rsnUcastcipherset wpaIeCiphers

/-- The key managements that the WPA element of the parameters lists. -/
def wpaKeymgmtsKept (rsn : OwnRsnparms) : List (Nat × List UInt8) :=
  keptSuites rsn.rsnKeymgmtset wpaIeKeymgmts

/-- The bytes behind the key managements. -/
def wpaTail (rsn : OwnRsnparms) : List UInt8 := if rsn.saValid then [rsn.gtksa, rsn.ptksa] else []

/-- What a parser finds in the WPA element that is built. -/
structure WpaLayout (rsn : OwnRsnparms) (group : List UInt8) (frm : Nat → UInt8) : Prop where
  total : (frm 1).toNat = 14 + (wpaCiphersKept rsn).length * 4 + (wpaKeymgmtsKept rsn).length * 4 +
    (wpaTail rsn).length
  version : read16l frm 6 = wpaVersion
  group : Bytes.Holds frm 8 group
  count : read16l frm 12 = (wpaCiphersKept rsn).length
  ciphers : suitesAt (wpaCipherAt frm) (wpaCiphersKept rsn).length 14 =
    (wpaCiphersKept rsn).map Prod.fst
  counted : read16l frm (14 + (wpaCiphersKept rsn).length * 4) = (wpaKeymgmtsKept rsn).length
  keymgmts : suitesAt (wpaKeymgmt frm) (wpaKeymgmtsKept rsn).length
    (14 + (wpaCiphersKept rsn).length * 4 + 2) = (wpaKeymgmtsKept rsn).map Prod.fst

theorem wpaKept_few (rsn : OwnRsnparms) : (wpaCiphersKept rsn).length ≤ 2 ∧
    (wpaKeymgmtsKept rsn).length ≤ 2 ∧ (wpaTail rsn).length ≤ 2 := by
  refine ⟨length_kept _ _, length_kept _ _, ?_⟩
  unfold wpaTail
  split
  · exact Nat.le_refl _
  · exact Nat.zero_le _

theorem length_wpaBody (four : group.length = ouiLen) : (wpaBody rsn group).length =
    14 + (wpaCiphersKept rsn).length * 4 + (wpaKeymgmtsKept rsn).length * 4 +
      (wpaTail rsn).length := by
  unfold wpaCiphersKept wpaKeymgmtsKept wpaTail
  simp only [wpaBody, List.length_append, four,
    length_countedSuites (kept_carried wpaIeCiphers_carried),
    length_countedSuites (kept_carried wpaIeKeymgmts_carried), List.length_cons, List.length_nil,
    wpaSelector, ouiLen]
  omega

theorem wpaBody_short (rsn : OwnRsnparms) (four : group.length = ouiLen) :
    (wpaBody rsn group).length ≤ 98 := by
  obtain ⟨ciphers, keymgmts, tail⟩ := wpaKept_few rsn
  rw [length_wpaBody four]
  omega

theorem wpaLayout_of_holds (four : group.length = ouiLen)
    (held : Bytes.Holds frm 0 (wifinetElemidVendor :: UInt8.ofNat (wpaBody rsn group).length ::
      wpaBody rsn group)) : WpaLayout rsn group frm := by
  obtain ⟨ciphersFew, keymgmtsFew, -⟩ := wpaKept_few rsn
  have short := wpaBody_short rsn four
  obtain ⟨-, length, body⟩ := held
  obtain ⟨-, rest⟩ := Bytes.holds_append.mp body
  obtain ⟨version, rest⟩ := Bytes.holds_append.mp rest
  obtain ⟨groupHeld, rest⟩ := Bytes.holds_append.mp rest
  obtain ⟨ciphersHeld, rest⟩ := Bytes.holds_append.mp rest
  obtain ⟨keymgmtsHeld, -⟩ := Bytes.holds_append.mp rest
  rw [length_countedSuites (kept_carried wpaIeCiphers_carried), four] at keymgmtsHeld
  rw [four] at ciphersHeld
  obtain ⟨count, ciphers⟩ := countedSuites_read (kept_carried wpaIeCiphers_carried)
    (Nat.lt_of_le_of_lt ciphersFew (by decide)) ciphersHeld
  obtain ⟨counted, keymgmts⟩ := countedSuites_read (kept_carried wpaIeKeymgmts_carried)
    (Nat.lt_of_le_of_lt keymgmtsFew (by decide)) keymgmtsHeld
  have place : 0 + 1 + 1 + (wpaSelector 0x01).length + [(1 : UInt8), 0].length + ouiLen +
      (2 + (wpaCiphersKept rsn).length * ouiLen) = 14 + (wpaCiphersKept rsn).length * 4 := by
    simp only [wpaSelector, List.length_cons, List.length_nil, ouiLen]
    omega
  change read16l frm (0 + 1 + 1 + (wpaSelector 0x01).length + [(1 : UInt8), 0].length + ouiLen +
      (2 + (wpaCiphersKept rsn).length * ouiLen)) = (wpaKeymgmtsKept rsn).length at counted
  change suitesAt (wpaKeymgmt frm) _ (0 + 1 + 1 + (wpaSelector 0x01).length +
    [(1 : UInt8), 0].length + ouiLen + (2 + (wpaCiphersKept rsn).length * ouiLen) + 2) = _
    at keymgmts
  rw [place] at counted keymgmts
  refine ⟨?_, read16l_holds version, groupHeld, count, ciphers, counted, keymgmts⟩
  rw [← length_wpaBody four, show (1 : Nat) = 0 + 1 from rfl, length, UInt8.toNat_ofNat']
  omega

theorem word_zero_iff {w : Nat} {listed : List Nat}
    (bits : ∀ bit, w.testBit bit = true ↔ bit ∈ listed) : w = 0 ↔ listed = [] := by
  constructor
  · rintro rfl
    refine List.eq_nil_iff_forall_not_mem.mpr fun bit member => ?_
    have never := (bits bit).mpr member
    rw [Nat.zero_testBit] at never
    cases never
  · rintro rfl
    refine Nat.eq_of_testBit_eq fun bit => ?_
    rw [Nat.zero_testBit, ← Bool.not_eq_true, bits]
    exact List.not_mem_nil

/-- A narrow field keeps a list of small numbers. -/
theorem word_mod_bits (width : Nat) {w : Nat} {listed : List Nat}
    (bits : ∀ bit, w.testBit bit = true ↔ bit ∈ listed) (small : ∀ bit ∈ listed, bit < width)
    (bit : Nat) : (w % 2 ^ width).testBit bit = true ↔ bit ∈ listed := by
  rw [Mask.testBit_mod_pow, bits]
  exact ⟨fun kept => kept.2, fun member => ⟨small bit member, member⟩⟩

theorem wpaCiphersKept_mem {bit : Nat} (listed : bit ∈ (wpaCiphersKept rsn).map Prod.fst) :
    bit = 3 ∨ bit = 1 := by
  have known := (mem_kept.mp listed).1
  simp only [wpaIeCiphers, List.map_cons, List.map_nil, List.mem_cons, List.not_mem_nil,
    or_false] at known
  exact known

theorem wpaKeymgmtsKept_mem {bit : Nat} (listed : bit ∈ (wpaKeymgmtsKept rsn).map Prod.fst) :
    bit = 1 ∨ bit = 2 := by
  have known := (mem_kept.mp listed).1
  simp only [wpaIeKeymgmts, List.map_cons, List.map_nil, List.mem_cons, List.not_mem_nil,
    or_false] at known
  exact known

/-- What a configuration has recorded before it reads the key managements. -/
def recordedWpa (start : OwnRsnparms) (cipher suites : Nat × Nat) : OwnRsnparms :=
  { start with
    rsnMcastkeylen := cipher.2
    rsnMcastcipher := cipher.1
    rsnUcastkeylen := suites.2
    rsnUcastcipherset := suites.1 % 2 ^ 8 }

namespace WpaLayout

theorem cipherBits (layout : WpaLayout rsn group frm) (wraps : Bool) (keylen bit : Nat) :
    (wpaSuites wraps (wpaCipher frm) (read16l frm 12) 14 (0, keylen)).1.testBit bit = true ↔
      bit ∈ (wpaCiphersKept rsn).map Prod.fst := by
  rw [layout.count, wpaSuites_listed (wpaCipherAt frm) (wpaCipher_fst frm), layout.ciphers]
  intro listed member
  rw [layout.ciphers] at member
  rcases wpaCiphersKept_mem member with rfl | rfl
  · decide
  · decide

theorem keymgmtBits (layout : WpaLayout rsn group frm) (wraps : Bool) (bit : Nat) :
    (wpaSuites wraps (fun place keylen => (wpaKeymgmt frm place, keylen))
      (wpaKeymgmtsKept rsn).length (14 + (wpaCiphersKept rsn).length * 4 + 2) (0, 0)).1.testBit bit =
        true ↔ bit ∈ (wpaKeymgmtsKept rsn).map Prod.fst := by
  rw [wpaSuites_listed (wpaKeymgmt frm) (fun _ _ => rfl), layout.keymgmts]
  intro listed member
  rw [layout.keymgmts] at member
  rcases wpaKeymgmtsKept_mem member with rfl | rfl
  · decide
  · decide

theorem own_start (layout : WpaLayout rsn group frm) : wifiMacParseOwnWpa wraps start frm =
    let suites := wpaSuites wraps (wpaCipher frm) (read16l frm 12) 14 (0, start.rsnUcastkeylen)
    let recorded := recordedWpa start (wpaCipher frm 8 start.rsnMcastkeylen) suites
    if suites.1 = 0 then (wifinetReasonIeInvalid, recorded)
    else ownWpaKeymgmts wraps frm (14 + (wpaCiphersKept rsn).length * 4)
      ((wpaKeymgmtsKept rsn).length * 4 + (wpaTail rsn).length + 2) recorded := by
  have total := layout.total
  have count := layout.count
  have left : (frm 1).toNat - 12 - read16l frm 12 * 4 =
      (wpaKeymgmtsKept rsn).length * 4 + (wpaTail rsn).length + 2 := by omega
  unfold wifiMacParseOwnWpa
  dsimp only
  rw [if_neg (by omega : ¬(frm 1).toNat < 14), if_neg (not_not.mpr layout.version),
    if_neg (not_not.mpr rfl), if_neg (by omega), left, ← count]
  rfl

/-- The key managements are recorded when there are some. -/
theorem own_keymgmts (layout : WpaLayout rsn group frm) :
    ownWpaKeymgmts wraps frm (14 + (wpaCiphersKept rsn).length * 4)
        ((wpaKeymgmtsKept rsn).length * 4 + (wpaTail rsn).length + 2) start =
      let offset := 14 + (wpaCiphersKept rsn).length * 4 + 2
      let suites := wpaSuites wraps (fun place keylen => (wpaKeymgmt frm place, keylen))
        (wpaKeymgmtsKept rsn).length offset (0, 0)
      let recorded := { start with rsnKeymgmtset := suites.1 % 2 ^ 16 }
      let tail := offset + (wpaKeymgmtsKept rsn).length * 4
      if suites.1 = 0 then (wifinetReasonIeInvalid, recorded)
      else if 2 ≤ (wpaTail rsn).length then
        (0, { recorded with saValid := true, gtksa := frm tail, ptksa := frm (tail + 1) })
      else (0, recorded) := by
  unfold ownWpaKeymgmts
  dsimp only
  rw [layout.counted, if_neg (by omega), show (wpaKeymgmtsKept rsn).length * 4 +
    (wpaTail rsn).length + 2 - 2 - (wpaKeymgmtsKept rsn).length * 4 = (wpaTail rsn).length by omega]

theorem own_accepted (layout : WpaLayout rsn group frm) :
    (wifiMacParseOwnWpa wraps start frm).1 = 0 ↔
      (wpaCiphersKept rsn).map Prod.fst ≠ [] ∧ (wpaKeymgmtsKept rsn).map Prod.fst ≠ [] := by
  rw [layout.own_start, Ne, Ne, ← word_zero_iff (layout.cipherBits wraps start.rsnUcastkeylen),
    ← word_zero_iff (layout.keymgmtBits wraps)]
  dsimp only
  split
  · next none => exact iff_of_false (by simp) fun accepted => accepted.1 none
  · next some =>
    rw [layout.own_keymgmts]
    dsimp only
    split
    · next none => exact iff_of_false (by simp) fun accepted => accepted.2 none
    · next more =>
      refine iff_of_true ?_ ⟨some, more⟩
      split
      · rfl
      · rfl

/-- What a configuration records of an element that lists both. -/
theorem own_reads (layout : WpaLayout rsn group frm)
    (accepted : (wifiMacParseOwnWpa wraps zeroRsnparms frm).1 = 0) :
    (wifiMacParseOwnWpa wraps zeroRsnparms frm).2.rsnMcastcipher = (wpaCipher frm 8 0).1 ∧
      (∀ bit, (wifiMacParseOwnWpa wraps zeroRsnparms frm).2.rsnUcastcipherset.testBit bit = true ↔
        bit ∈ (wpaCiphersKept rsn).map Prod.fst) ∧
      (∀ bit, (wifiMacParseOwnWpa wraps zeroRsnparms frm).2.rsnKeymgmtset.testBit bit = true ↔
        bit ∈ (wpaKeymgmtsKept rsn).map Prod.fst) ∧
      (wifiMacParseOwnWpa wraps zeroRsnparms frm).2.rsnCaps = 0 ∧
      (wifiMacParseOwnWpa wraps zeroRsnparms frm).2.saValid = rsn.saValid := by
  obtain ⟨ciphers, keymgmts⟩ := layout.own_accepted.mp accepted
  have cipherBits := layout.cipherBits wraps zeroRsnparms.rsnUcastkeylen
  have keymgmtBits := layout.keymgmtBits wraps
  have cipherKept := word_mod_bits 8 cipherBits fun bit listed => by
    rcases wpaCiphersKept_mem listed with rfl | rfl
    · decide
    · decide
  have keymgmtKept := word_mod_bits 16 keymgmtBits fun bit listed => by
    rcases wpaKeymgmtsKept_mem listed with rfl | rfl
    · decide
    · decide
  rw [layout.own_start]
  dsimp only
  rw [if_neg (mt (word_zero_iff cipherBits).mp ciphers), layout.own_keymgmts]
  dsimp only
  rw [if_neg (mt (word_zero_iff keymgmtBits).mp keymgmts)]
  have tail : 2 ≤ (wpaTail rsn).length ↔ rsn.saValid = true := by
    unfold wpaTail
    cases rsn.saValid with
    | true => simp
    | false => simp
  split
  · next more => exact ⟨rfl, cipherKept, keymgmtKept, rfl, (tail.mp more).symm⟩
  · next short =>
    exact ⟨rfl, cipherKept, keymgmtKept, rfl, (Bool.eq_false_iff.mpr (mt tail.mpr short)).symm⟩

/-- The judge of a peer accepts what the parameters list, and keeps the key length. -/
theorem judge_reads (layout : WpaLayout rsn group frm)
    (same : (wpaCipher frm 8 rsn.rsnMcastkeylen).1 = rsn.rsnMcastcipher)
    (ciphers : (wpaCiphersKept rsn).map Prod.fst ≠ [])
    (keymgmts : (wpaKeymgmtsKept rsn).map Prod.fst ≠ []) :
    (wifiMacParseWpa wraps rsn.toRsnparms frm).1 = 0 ∧
      (wifiMacParseWpa wraps rsn.toRsnparms frm).2.rsnMcastkeylen =
        (wpaCipher frm 8 rsn.rsnMcastkeylen).2 := by
  have total := layout.total
  have count := layout.count
  have left : (frm 1).toNat - 12 - read16l frm 12 * 4 =
      (wpaKeymgmtsKept rsn).length * 4 + (wpaTail rsn).length + 2 := by omega
  have cipherBits := layout.cipherBits wraps rsn.rsnUcastkeylen
  have keymgmtBits := layout.keymgmtBits wraps
  have ciphersMeet : (wpaSuites wraps (wpaCipher frm) (read16l frm 12) 14
      (0, rsn.rsnUcastkeylen)).1 &&& rsn.rsnUcastcipherset ≠ 0 := by
    obtain ⟨bit, listed⟩ := List.exists_mem_of_ne_nil _ ciphers
    exact Mask.and_ne_zero_iff.mpr ⟨bit, (cipherBits bit).mpr listed, (mem_kept.mp listed).2⟩
  have keymgmtsMeet : (wpaSuites wraps (fun place keylen => (wpaKeymgmt frm place, keylen))
      (wpaKeymgmtsKept rsn).length (14 + (wpaCiphersKept rsn).length * 4 + 2) (0, 0)).1 &&&
        rsn.rsnKeymgmtset ≠ 0 := by
    obtain ⟨bit, listed⟩ := List.exists_mem_of_ne_nil _ keymgmts
    exact Mask.and_ne_zero_iff.mpr ⟨bit, (keymgmtBits bit).mpr listed, (mem_kept.mp listed).2⟩
  unfold wifiMacParseWpa
  dsimp only
  rw [if_neg (by omega : ¬(frm 1).toNat < 14), if_neg (not_not.mpr layout.version),
    if_neg (not_not.mpr same), if_neg (by omega), if_neg ciphersMeet, left]
  unfold wpaKeymgmts
  dsimp only
  rw [count, layout.counted, if_neg (by omega), if_neg keymgmtsMeet]
  exact ⟨rfl, rfl⟩

end WpaLayout

end WpaParser

section Wpa

variable {wraps : Bool} {rsn : OwnRsnparms} {built : BuiltIe}

theorem wpaIe_built (build : wifiMacSetupWpaIe rsn = some built) :
    ∃ group, groupSelector rsn wpaCipherSuite (wpaSelector 0x05) = some group ∧
      group.length = ouiLen ∧
      built = ⟨wifinetElemidVendor :: UInt8.ofNat (wpaBody rsn group).length :: wpaBody rsn group,
        (wpaBody rsn group).length + 2⟩ := by
  rw [wifiMacSetupWpaIe_eq] at build
  obtain ⟨group, chosen, finished⟩ := Option.map_eq_some_iff.mp build
  have four : group.length = ouiLen := groupSelector_length (by decide) rfl chosen
  refine ⟨group, chosen, four, ?_⟩
  rw [← finished, finishIe_eq (wpaBody_short rsn four)]

theorem wpaRoundTrip_emitted (carried : WpaRoundTrip wraps rsn) :
    Emitted rsn wpaIeGroups (wpaIeCiphers.map Prod.fst) (wpaIeKeymgmts.map Prod.fst) ∧
      rsn.rsnCaps = 0 := by
  obtain ⟨built, build, -, reads⟩ := carried
  obtain ⟨group, chosen, four, rfl⟩ := wpaIe_built build
  have held := Bytes.holds_getD 0 (wifinetElemidVendor ::
    UInt8.ofNat (wpaBody rsn group).length :: wpaBody rsn group)
  have layout := wpaLayout_of_holds four held
  have read := reads _ held
  obtain ⟨mcast, ciphers, keymgmts, caps, -⟩ := layout.own_reads read.recorded
  obtain ⟨someCiphers, someKeymgmts⟩ := layout.own_accepted.mp read.recorded
  rw [read.group] at mcast
  rw [read.ciphers] at ciphers
  rw [read.keymgmts] at keymgmts
  obtain ⟨cipher, cipherListed⟩ := List.exists_mem_of_ne_nil _ someCiphers
  obtain ⟨keymgmt, keymgmtListed⟩ := List.exists_mem_of_ne_nil _ someKeymgmts
  refine ⟨⟨?_, ?_, ?_⟩, read.caps.symm.trans caps⟩
  · exact (wpaGroup_same chosen layout.group 0).mp mcast.symm
  · exact setWithin_of_kept ciphers cipherListed
  · exact setWithin_of_kept keymgmts keymgmtListed

private theorem WpaLayout.reads {group : List UInt8} {frm : Nat → UInt8}
    (layout : WpaLayout rsn group frm)
    (chosen : groupSelector rsn wpaCipherSuite (wpaSelector 0x05) = some group)
    (caps : rsn.rsnCaps = 0)
    (wep : rsn.rsnMcastcipher = 0 → rsn.rsnMcastkeylen = 5 ∨ rsn.rsnMcastkeylen = 13)
    (emitted : Emitted rsn wpaIeGroups (wpaIeCiphers.map Prod.fst) (wpaIeKeymgmts.map Prod.fst)) :
    WpaReads wraps rsn frm := by
  have someCiphers : (wpaCiphersKept rsn).map Prod.fst ≠ [] := by
    intro none
    exact emitted.ciphers.some (List.length_eq_zero_iff.mpr (List.map_eq_nil_iff.mp none))
  have someKeymgmts : (wpaKeymgmtsKept rsn).map Prod.fst ≠ [] := by
    intro none
    exact emitted.keymgmts.some (List.length_eq_zero_iff.mpr (List.map_eq_nil_iff.mp none))
  have recorded : (wifiMacParseOwnWpa wraps zeroRsnparms frm).1 = 0 :=
    layout.own_accepted.mpr ⟨someCiphers, someKeymgmts⟩
  obtain ⟨mcast, ciphers, keymgmts, zeroCaps, saValid⟩ := layout.own_reads recorded
  obtain ⟨judged, keylen⟩ := layout.judge_reads
    ((wpaGroup_same chosen layout.group _).mpr emitted.group) someCiphers someKeymgmts
  constructor
  · exact judged
  · exact keylen.trans (wpaGroup_keylen chosen layout.group wep)
  · exact recorded
  · exact mcast.trans ((wpaGroup_same chosen layout.group 0).mpr emitted.group)
  · apply Nat.eq_of_testBit_eq
    intro bit
    rw [Bool.eq_iff_iff, ciphers bit]
    exact (emitted.ciphers.kept bit).symm
  · apply Nat.eq_of_testBit_eq
    intro bit
    rw [Bool.eq_iff_iff, keymgmts bit]
    exact (emitted.keymgmts.kept bit).symm
  · exact zeroCaps.trans caps.symm
  · exact saValid

theorem wpaRoundTrip_of_emitted (caps : rsn.rsnCaps = 0)
    (wep : rsn.rsnMcastcipher = 0 → rsn.rsnMcastkeylen = 5 ∨ rsn.rsnMcastkeylen = 13)
    (emitted : Emitted rsn wpaIeGroups (wpaIeCiphers.map Prod.fst) (wpaIeKeymgmts.map Prod.fst)) :
    WpaRoundTrip wraps rsn := by
  have place : ∀ number ∈ wpaIeGroups, number < wpaCipherSuite.length := by decide
  obtain ⟨group, chosen⟩ := groupSelector_some (wpaSelector 0x05)
    (place rsn.rsnMcastcipher emitted.group)
  obtain ⟨built, build⟩ : ∃ built, wifiMacSetupWpaIe rsn = some built := by
    rw [wifiMacSetupWpaIe_eq, chosen]
    exact ⟨_, rfl⟩
  obtain ⟨group, chosen, four, rfl⟩ := wpaIe_built build
  refine ⟨_, build, finished_wellFormed (wpaBody_short rsn four), fun frm held => ?_⟩
  exact (wpaLayout_of_holds four held).reads chosen caps wep emitted

end Wpa

section Configuration

variable {wraps : Bool} {vif : RsnVif} {frm : Nat → UInt8} {rsn : Rsnparms}

/-- What every configuration leaves: capabilities of two bytes, and a key length for WEP once a
pairwise cipher is recorded. -/
structure Configured (rsn : Rsnparms) : Prop where
  caps : rsn.rsnCaps < 2 ^ 16
  wep : rsn.rsnMcastcipher = 0 → rsn.rsnUcastcipherset ≠ 0 →
    rsn.rsnMcastkeylen = 5 ∨ rsn.rsnMcastkeylen = 13

private theorem read16l_lt (frm : Nat → UInt8) (offset : Nat) : read16l frm offset < 2 ^ 16 := by
  have low : (frm offset).toNat < 256 := (frm offset).toNat_lt
  have high : (frm (offset + 1)).toNat < 256 := (frm (offset + 1)).toNat_lt
  unfold read16l
  omega

theorem rsnCipher_wep (frm : Nat → UInt8) (keylen : Nat) (wep : (rsnCipher frm 4 keylen).1 = 0) :
    (rsnCipher frm 4 keylen).2 = 5 ∨ (rsnCipher frm 4 keylen).2 = 13 := by
  unfold rsnCipher at wep ⊢
  dsimp only at wep ⊢
  repeat' split
  all_goals simp_all

theorem wpaCipher_wep (frm : Nat → UInt8) (keylen : Nat) (wep : (wpaCipher frm 8 keylen).1 = 0) :
    (wpaCipher frm 8 keylen).2 = 5 ∨ (wpaCipher frm 8 keylen).2 = 13 := by
  unfold wpaCipher at wep ⊢
  dsimp only at wep ⊢
  repeat' split
  all_goals simp_all

/-- What is left after the group cipher is read keeps it, and capabilities of two bytes. -/
structure KeepsGroup (rsn after : Rsnparms) : Prop where
  mcast : after.rsnMcastcipher = rsn.rsnMcastcipher
  keylen : after.rsnMcastkeylen = rsn.rsnMcastkeylen
  caps : rsn.rsnCaps < 2 ^ 16 → after.rsnCaps < 2 ^ 16

private theorem KeepsGroup.trans {rsn between after : Rsnparms} (first : KeepsGroup rsn between)
    (second : KeepsGroup between after) : KeepsGroup rsn after :=
  ⟨second.mcast.trans first.mcast, second.keylen.trans first.keylen,
    fun small => second.caps (first.caps small)⟩

theorem ownUcast_keeps (vif : RsnVif) (frm : Nat → UInt8) (n index : Nat) (rsn : Rsnparms) :
    KeepsGroup rsn (ownUcast vif frm n index rsn).2 := by
  induction n generalizing index rsn with
  | zero => exact ⟨rfl, rfl, id⟩
  | succ n induction =>
    rw [ownUcast]
    dsimp only
    split
    · exact ⟨rfl, rfl, id⟩
    · refine ⟨(induction _ _).mcast, (induction _ _).keylen, fun small => ?_⟩
      apply (induction _ _).caps
      exact small

private theorem ownKeymgmt_keeps (n index : Nat) (rsn : Rsnparms) :
    KeepsGroup rsn (ownKeymgmt frm n index rsn).2 := by
  induction n generalizing index rsn with
  | zero => exact ⟨rfl, rfl, id⟩
  | succ n induction =>
    rw [ownKeymgmt]
    split
    · exact ⟨rfl, rfl, id⟩
    · refine ⟨(induction _ _).mcast, (induction _ _).keylen, fun small => ?_⟩
      apply (induction _ _).caps
      exact small

private theorem ownRest_keeps (stop index : Nat) (rsn : Rsnparms) :
    KeepsGroup rsn (ownRest frm stop index rsn).2 := by
  have small := read16l_lt frm
  unfold ownRest
  dsimp only
  repeat' split
  all_goals exact ⟨rfl, rfl, fun narrow => by first | exact narrow | exact small _⟩

private theorem ownSecond_keeps (frm : Nat → UInt8) (len index : Nat) (rsn : Rsnparms) :
    KeepsGroup rsn (ownSecond frm len index rsn).2 := by
  unfold ownSecond
  dsimp only
  split
  · exact ⟨rfl, rfl, id⟩
  · split
    · exact ownKeymgmt_keeps _ _ rsn
    · exact (ownKeymgmt_keeps _ _ rsn).trans (ownRest_keeps _ _ _)

theorem KeepsGroup.configured {rsn after : Rsnparms} (keeps : KeepsGroup rsn after)
    (before : Configured rsn)
    (wep : rsn.rsnMcastcipher = 0 → rsn.rsnMcastkeylen = 5 ∨ rsn.rsnMcastkeylen = 13) :
    Configured after := by
  refine ⟨keeps.caps before.caps, fun zero _ => ?_⟩
  rw [keeps.keylen]
  exact wep (keeps.mcast.symm.trans zero)

/-- What the parser of the RSN element does behind the group cipher. -/
theorem ownRsn_keeps (vif : RsnVif) (frm : Nat → UInt8) (len n : Nat) (rsn : Rsnparms) :
    KeepsGroup rsn (ownSecond frm len (10 + n * ouiLen)
      { (ownUcast vif frm n 10 rsn).2 with
        rsnUcastcipher := chosenUcast (ownUcast vif frm n 10 rsn).2.rsnUcastcipherset }).2 := by
  have first := ownUcast_keeps vif frm n 10 rsn
  have second := ownSecond_keeps frm len (10 + n * ouiLen)
    { (ownUcast vif frm n 10 rsn).2 with
      rsnUcastcipher := chosenUcast (ownUcast vif frm n 10 rsn).2.rsnUcastcipherset }
  exact ⟨second.mcast.trans first.mcast, second.keylen.trans first.keylen,
    fun small => second.caps (first.caps small)⟩

private theorem wifiMacParseOwnRsn_configured (vif : RsnVif) (frm : Nat → UInt8) :
    Configured (wifiMacParseOwnRsn vif zeroRsnparms.toRsnparms frm).2 := by
  have zeroCaps : zeroRsnparms.rsnCaps < 2 ^ 16 := by decide
  have zero : ∀ mcast keylen, Configured
      { zeroRsnparms.toRsnparms with rsnMcastcipher := mcast, rsnMcastkeylen := keylen } :=
    fun mcast keylen => ⟨zeroCaps, fun _ some => absurd rfl some⟩
  have wep := rsnCipher_wep frm zeroRsnparms.rsnMcastkeylen
  unfold wifiMacParseOwnRsn
  dsimp only
  split
  · exact zero _ _
  split
  · exact zero _ _
  split
  · exact zero _ _
  split
  · exact zero _ _
  split
  · exact (ownUcast_keeps _ _ _ _ _).configured (zero _ _) wep
  · exact (ownRsn_keeps _ _ _ _ _).configured (zero _ _) wep

private theorem ownWpaKeymgmts_keeps (offset len : Nat) (start : OwnRsnparms) :
    KeepsGroup start.toRsnparms (ownWpaKeymgmts wraps frm offset len start).2.toRsnparms := by
  unfold ownWpaKeymgmts
  dsimp only
  repeat' split
  all_goals exact ⟨rfl, rfl, id⟩

private theorem wifiMacParseOwnWpa_configured (wraps : Bool) (frm : Nat → UInt8) :
    Configured (wifiMacParseOwnWpa wraps zeroRsnparms frm).2.toRsnparms := by
  have zeroCaps : zeroRsnparms.rsnCaps < 2 ^ 16 := by decide
  have wep := wpaCipher_wep frm zeroRsnparms.rsnMcastkeylen
  unfold wifiMacParseOwnWpa
  dsimp only
  split
  · exact ⟨zeroCaps, fun _ some => absurd rfl some⟩
  split
  · exact ⟨zeroCaps, fun _ some => absurd rfl some⟩
  rw [if_neg (not_not.mpr rfl)]
  split
  · exact ⟨zeroCaps, fun _ some => absurd rfl some⟩
  split
  · exact ⟨zeroCaps, fun zero _ => wep zero⟩
  · exact (ownWpaKeymgmts_keeps _ _ _).configured
      ⟨zeroCaps, fun zero _ => wep zero⟩ wep

private theorem ivCfg80211SetRsn_configured (wraps : Bool) (vif : RsnVif)
    (wpaie rsnie : Option (Nat → UInt8)) :
    Configured (ivCfg80211SetRsn wraps vif wpaie rsnie).toRsnparms := by
  unfold ivCfg80211SetRsn
  cases rsnie with
  | some frm => exact wifiMacParseOwnRsn_configured vif frm
  | none =>
    cases wpaie with
    | some frm =>
      have left := wifiMacParseOwnWpa_configured wraps frm
      exact ⟨left.caps, left.wep⟩
    | none => exact ⟨(by decide : zeroRsnparms.rsnCaps < 2 ^ 16), fun _ some => absurd rfl some⟩

/-- The parameters that a configuration leaves come back from the RSN element exactly when the
group cipher, the pairwise ciphers and the key managements are some that it can carry, and from the
WPA element when that is so there and there are no capabilities, for which it has no place. -/
theorem own_element_iff (wraps : Bool) (vif : RsnVif) (wpaie rsnie : Option (Nat → UInt8)) :
    let rsn := ivCfg80211SetRsn wraps vif wpaie rsnie
    (RsnRoundTrip wraps rsn ↔ Emitted rsn [0, 1, 2, 3] [3, 1] [1, 2, 6, 8]) ∧
      (WpaRoundTrip wraps rsn ↔ Emitted rsn [0, 1, 3] [3, 1] [1, 2] ∧ rsn.rsnCaps = 0) := by
  intro rsn
  have left : Configured rsn.toRsnparms := ivCfg80211SetRsn_configured wraps vif wpaie rsnie
  constructor
  · constructor
    · exact rsnRoundTrip_emitted
    · intro emitted
      exact rsnRoundTrip_of_emitted left.caps (fun wep => left.wep wep emitted.ciphers.1) emitted
  · constructor
    · exact wpaRoundTrip_emitted
    · rintro ⟨emitted, caps⟩
      exact wpaRoundTrip_of_emitted caps (fun wep => left.wep wep emitted.ciphers.1) emitted

/-- CCMP and 802.1X with SHA-256, which the configuration takes. -/
def sha256Element : Nat → UInt8 :=
  element [48, 20, 1, 0, 0x00, 0x0f, 0xac, 4, 1, 0, 0x00, 0x0f, 0xac, 4,
    1, 0, 0x00, 0x0f, 0xac, 5, 0, 0]

/-- The same with no group cipher and a pre-shared key, which it takes as well. -/
def noGroupElement : Nat → UInt8 :=
  element [48, 20, 1, 0, 0x00, 0x0f, 0xac, 0, 1, 0, 0x00, 0x0f, 0xac, 4,
    1, 0, 0x00, 0x0f, 0xac, 2, 0, 0]

/-- The element that is built of the first lists no key management, and the judge refuses it; the
second takes its group cipher from behind the table. -/
theorem own_element_lost :
    (wifiMacParseOwnRsn plainVif zeroRsnparms.toRsnparms sha256Element).1 = 0 ∧
      ¬ RsnRoundTrip true (ivCfg80211SetRsn true plainVif none (some sha256Element)) ∧
      (wifiMacParseOwnRsn plainVif zeroRsnparms.toRsnparms noGroupElement).1 = 0 ∧
      wifiMacSetupRsnIe (ivCfg80211SetRsn true plainVif none (some noGroupElement)) = none := by
  refine ⟨by decide, fun carried => ?_, by decide, by decide⟩
  obtain ⟨built, build, -, reads⟩ := carried
  have same : built = ⟨[48, 16, 1, 0, 0x00, 0x0f, 0xac, 4, 1, 0, 0x00, 0x0f, 0xac, 4, 0, 0, 0, 0],
      18⟩ := by
    apply Option.some.inj
    rw [← build]
    decide
  have judged := (reads (element built.bytes) (Bytes.holds_getD 0 _)).judged
  rw [same] at judged
  exact absurd judged (by decide)

end Configuration

end W522a.Ap
