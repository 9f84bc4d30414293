import W522a.Ap.OwnIe
import W522a.Ap.RsnLaw

/-!
What stands where in the elements that are built, and how the suites in them are read again.
-/

namespace W522a.Ap

/-- A suite that an element carries as four bytes, and how it is read again. -/
structure Carried (value : (Nat → UInt8) → Nat → Nat) (suite : Nat × List UInt8) : Prop where
  length : suite.2.length = ouiLen
  read : ∀ frm offset, Bytes.Holds frm offset suite.2 → value frm offset = suite.1

def keptSuites (set : Nat) (suites : List (Nat × List UInt8)) : List (Nat × List UInt8) :=
  suites.filter fun suite => set.testBit suite.1

section Reading

variable {frm : Nat → UInt8} {offset : Nat}

theorem read16l_holds {low high : UInt8} (held : Bytes.Holds frm offset [low, high]) :
    read16l frm offset = low.toNat + 256 * high.toNat := by
  obtain ⟨first, second, -⟩ := held
  rw [read16l, first, second]

theorem read16l_short {v : Nat} (small : v < 2 ^ 16)
    (held : Bytes.Holds frm offset [UInt8.ofNat v, UInt8.ofNat (v / 256)]) :
    read16l frm offset = v := by
  rw [read16l_holds held, UInt8.toNat_ofNat', UInt8.toNat_ofNat']
  omega

theorem read32l_holds {first second third fourth : UInt8}
    (held : Bytes.Holds frm offset [first, second, third, fourth]) :
    read32l frm offset = first.toNat + 256 * second.toNat +
      65536 * (third.toNat + 256 * fourth.toNat) := by
  obtain ⟨one, two, three, four, -⟩ := held
  rw [read32l, read16l, read16l, one, two, three, four]

theorem read32l_rsnSelector {type : UInt8} (held : Bytes.Holds frm offset (rsnSelector type)) :
    read32l frm offset = rsnSel type.toNat := by
  rw [read32l_holds held, rsnSel]
  show 0 + 256 * 15 + 65536 * (172 + 256 * type.toNat) = _
  omega

theorem read32l_wpaSelector {type : UInt8} (held : Bytes.Holds frm offset (wpaSelector type)) :
    read32l frm offset = wpaSel type.toNat := by
  rw [read32l_holds held, wpaSel]
  show 0 + 256 * 80 + 65536 * (242 + 256 * type.toNat) = _
  omega

def wpaCipherAt (frm : Nat → UInt8) (offset : Nat) : Nat := (wpaCipher frm offset 0).1

theorem rsnIeCiphers_carried : ∀ suite ∈ rsnIeCiphers, Carried cipherAt suite := by
  intro suite listed
  simp only [rsnIeCiphers, List.mem_cons, List.not_mem_nil, or_false] at listed
  rcases listed with rfl | rfl
  all_goals
    refine ⟨rfl, fun frm offset held => ?_⟩
    unfold cipherAt rsnCipher
    rw [read32l_rsnSelector held]
    simp [rsnSel]

theorem rsnIeKeymgmts_carried : ∀ suite ∈ rsnIeKeymgmts, Carried rsnKeymgmt suite := by
  intro suite listed
  simp only [rsnIeKeymgmts, List.mem_cons, List.not_mem_nil, or_false] at listed
  rcases listed with rfl | rfl | rfl | rfl
  all_goals
    refine ⟨rfl, fun frm offset held => ?_⟩
    unfold rsnKeymgmt
    rw [read32l_rsnSelector held]
    simp [rsnSel]

theorem wpaIeCiphers_carried : ∀ suite ∈ wpaIeCiphers, Carried wpaCipherAt suite := by
  intro suite listed
  simp only [wpaIeCiphers, List.mem_cons, List.not_mem_nil, or_false] at listed
  rcases listed with rfl | rfl
  all_goals
    refine ⟨rfl, fun frm offset held => ?_⟩
    unfold wpaCipherAt wpaCipher
    rw [read32l_wpaSelector held]
    simp [wpaSel]

theorem wpaIeKeymgmts_carried : ∀ suite ∈ wpaIeKeymgmts, Carried wpaKeymgmt suite := by
  intro suite listed
  simp only [wpaIeKeymgmts, List.mem_cons, List.not_mem_nil, or_false] at listed
  rcases listed with rfl | rfl
  all_goals
    refine ⟨rfl, fun frm offset held => ?_⟩
    unfold wpaKeymgmt
    rw [read32l_wpaSelector held]
    simp [wpaSel]

variable {value : (Nat → UInt8) → Nat → Nat} {suites : List (Nat × List UInt8)} {set bit : Nat}

/-- Suites that follow one another are read one after another. -/
theorem suitesAt_carried (carried : ∀ suite ∈ suites, Carried value suite)
    (held : Bytes.Holds frm offset (suites.flatMap Prod.snd)) :
    suitesAt (value frm) suites.length offset = suites.map Prod.fst := by
  induction suites generalizing offset with
  | nil => rfl
  | cons suite rest induction =>
    obtain ⟨first, later⟩ := Bytes.holds_append.mp held
    have own := carried suite List.mem_cons_self
    rw [own.length] at later
    rw [List.length_cons, suitesAt_succ, List.map_cons, own.read frm offset first,
      induction (fun suite listed => carried suite (List.mem_cons_of_mem _ listed)) later]

theorem length_carried (carried : ∀ suite ∈ suites, Carried value suite) :
    (suites.flatMap Prod.snd).length = suites.length * ouiLen := by
  induction suites with
  | nil => rfl
  | cons suite rest induction =>
    rw [List.flatMap_cons, List.length_append, (carried suite List.mem_cons_self).length,
      induction fun suite listed => carried suite (List.mem_cons_of_mem _ listed),
      List.length_cons, Nat.succ_mul, Nat.add_comm]

theorem kept_carried (carried : ∀ suite ∈ suites, Carried value suite) :
    ∀ suite ∈ keptSuites set suites, Carried value suite :=
  fun suite kept => carried suite (List.mem_filter.mp kept).1

theorem mem_kept : bit ∈ (keptSuites set suites).map Prod.fst ↔
    bit ∈ suites.map Prod.fst ∧ set.testBit bit = true := by
  constructor
  · intro listed
    obtain ⟨suite, kept, rfl⟩ := List.mem_map.mp listed
    obtain ⟨known, enabled⟩ := List.mem_filter.mp kept
    exact ⟨List.mem_map_of_mem known, enabled⟩
  · rintro ⟨listed, enabled⟩
    obtain ⟨suite, known, rfl⟩ := List.mem_map.mp listed
    exact List.mem_map_of_mem (List.mem_filter.mpr ⟨known, enabled⟩)

end Reading

section Building

variable {frm : List UInt8} {suites : List (Nat × List UInt8)} {set : Nat}

private theorem modify_at (first : List UInt8) (byte : UInt8) (rest : List UInt8)
    (change : UInt8 → UInt8) :
    (first ++ byte :: rest).modify first.length change = first ++ change byte :: rest := by
  induction first with
  | nil => rfl
  | cons head tail induction =>
    rw [List.cons_append, List.length_cons, List.modify_succ_cons, induction, List.cons_append]

/-- The loop counts in the byte at `selcnt` and appends behind. -/
theorem addSelectors_loop (count high : UInt8) (rest : List UInt8) :
    suites.foldl (fun out suite =>
        if set.testBit suite.1 then addselector (out.modify frm.length (· + 1)) suite.2 else out)
      (frm ++ count :: high :: rest) =
      frm ++ (count + UInt8.ofNat (keptSuites set suites).length) :: high ::
        (rest ++ (keptSuites set suites).flatMap Prod.snd) := by
  induction suites generalizing count rest with
  | nil => simp [keptSuites]
  | cons suite later induction =>
    rw [List.foldl_cons]
    split
    · rename_i enabled
      have kept : keptSuites set (suite :: later) = suite :: keptSuites set later :=
        List.filter_cons_of_pos enabled
      rw [modify_at, addselector, List.append_assoc, List.cons_append, List.cons_append, induction,
        kept, List.length_cons, List.flatMap_cons, List.append_assoc, UInt8.ofNat_add,
        UInt8.add_assoc, UInt8.add_comm 1]
      rfl
    · rename_i absent
      have kept : keptSuites set (suite :: later) = keptSuites set later :=
        List.filter_cons_of_neg absent
      rw [induction, kept]

theorem addSelectors_eq : addSelectors frm set suites =
    frm ++ ([UInt8.ofNat (keptSuites set suites).length, 0] ++
      (keptSuites set suites).flatMap Prod.snd) := by
  unfold addSelectors addshort
  refine (addSelectors_loop (UInt8.ofNat 0) (UInt8.ofNat (0 / 256)) []).trans ?_
  rw [List.nil_append]
  simp

def groupSelector (rsn : OwnRsnparms) (cipherSuite : List (List UInt8))
    (wep104Suite : List UInt8) : Option (List UInt8) :=
  if rsn.rsnMcastcipher = wifinetCipherWep ∧ 13 ≤ rsn.rsnMcastkeylen then some wep104Suite
  else cipherSuite[rsn.rsnMcastcipher]?

theorem addGroup_eq {rsn : OwnRsnparms} {cipherSuite : List (List UInt8)}
    {wep104Suite : List UInt8} : addGroup frm rsn cipherSuite wep104Suite =
      (groupSelector rsn cipherSuite wep104Suite).map (addselector frm) := by
  unfold addGroup groupSelector
  split
  · rfl
  · rfl

theorem finishIe_eq {id : UInt8} {rest : List UInt8} (short : rest.length ≤ 98) :
    finishIe (id :: 0 :: rest) =
      ⟨id :: UInt8.ofNat rest.length :: rest, rest.length + 2⟩ := by
  have length : (UInt8.ofNat rest.length).toNat = rest.length := by
    rw [UInt8.toNat_ofNat']
    omega
  have stays : ¬ wifiMacIeWpaSize < (UInt8.ofNat rest.length).toNat + 2 := by
    rw [length]
    simp only [wifiMacIeWpaSize]
    omega
  unfold finishIe
  simp only [List.length_cons, List.set_cons_succ, List.set_cons_zero, List.getD_cons_succ,
    List.getD_cons_zero]
  rw [show rest.length + 1 + 1 - 2 = rest.length from rfl, if_neg stays]

def countedSuites (suites : List (Nat × List UInt8)) : List UInt8 :=
  [UInt8.ofNat suites.length, 0] ++ suites.flatMap Prod.snd

theorem length_kept (set : Nat) (suites : List (Nat × List UInt8)) :
    (keptSuites set suites).length ≤ suites.length := List.length_filter_le _ _

/-- What follows the header of the RSN element. -/
def rsnBody (rsn : OwnRsnparms) (group : List UInt8) : List UInt8 :=
  [1, 0] ++ (group ++ (countedSuites (keptSuites rsn.rsnUcastcipherset rsnIeCiphers) ++
    (countedSuites (keptSuites rsn.rsnKeymgmtset rsnIeKeymgmts) ++
      [UInt8.ofNat rsn.rsnCaps, UInt8.ofNat (rsn.rsnCaps / 256)])))

/-- What follows the header of the WPA element. -/
def wpaBody (rsn : OwnRsnparms) (group : List UInt8) : List UInt8 :=
  wpaSelector 0x01 ++ ([1, 0] ++ (group ++
    (countedSuites (keptSuites rsn.rsnUcastcipherset wpaIeCiphers) ++
      (countedSuites (keptSuites rsn.rsnKeymgmtset wpaIeKeymgmts) ++
        if rsn.saValid then [rsn.gtksa, rsn.ptksa] else []))))

theorem length_countedSuites {value : (Nat → UInt8) → Nat → Nat}
    (carried : ∀ suite ∈ suites, Carried value suite) :
    (countedSuites suites).length = 2 + suites.length * ouiLen := by
  rw [countedSuites, List.length_append, length_carried carried]
  rfl

theorem wifiMacSetupRsnIe_eq (rsn : OwnRsnparms) : wifiMacSetupRsnIe rsn =
    (groupSelector rsn rsnCipherSuite (rsnSelector 0x05)).map fun group =>
      finishIe (wifinetElemidRsn :: 0 :: rsnBody rsn group) := by
  rw [wifiMacSetupRsnIe, addGroup_eq, Option.map_map]
  congr 1
  funext group
  simp only [Function.comp, addSelectors_eq, addshort, addselector, rsnBody, countedSuites,
    List.append_assoc]
  rfl

theorem wifiMacSetupWpaIe_eq (rsn : OwnRsnparms) : wifiMacSetupWpaIe rsn =
    (groupSelector rsn wpaCipherSuite (wpaSelector 0x05)).map fun group =>
      finishIe (wifinetElemidVendor :: 0 :: wpaBody rsn group) := by
  rw [wifiMacSetupWpaIe, addGroup_eq, Option.map_map]
  congr 1
  funext group
  simp only [Function.comp, addSelectors_eq, addshort, addselector, wpaBody, countedSuites,
    List.append_assoc]
  split
  · rfl
  · rw [List.append_nil]
    rfl

end Building

section Layout

variable {frm : Nat → UInt8} {offset : Nat} {group : List UInt8} {rsn : OwnRsnparms}

theorem countedSuites_read {value : (Nat → UInt8) → Nat → Nat} {suites : List (Nat × List UInt8)}
    (carried : ∀ suite ∈ suites, Carried value suite) (few : suites.length < 256)
    (held : Bytes.Holds frm offset (countedSuites suites)) :
    read16l frm offset = suites.length ∧
      suitesAt (value frm) suites.length (offset + 2) = suites.map Prod.fst := by
  obtain ⟨counted, listed⟩ := Bytes.holds_append.mp held
  refine ⟨?_, suitesAt_carried carried listed⟩
  rw [read16l_holds counted, UInt8.toNat_ofNat']
  show suites.length % 256 + 256 * 0 = _
  omega

/-- What a parser finds in an element that carries two lists of suites at fixed places. -/
structure RsnLayout (rsn : OwnRsnparms) (group : List UInt8) (frm : Nat → UInt8) : Prop where
  version : read16l frm 2 = rsnVersion
  group : Bytes.Holds frm 4 group
  count : read16l frm 8 = (keptSuites rsn.rsnUcastcipherset rsnIeCiphers).length
  ciphers : peerCiphers frm = (keptSuites rsn.rsnUcastcipherset rsnIeCiphers).map Prod.fst
  counted : keymgmtCount frm = (keptSuites rsn.rsnKeymgmtset rsnIeKeymgmts).length
  keymgmts : peerKeymgmts frm = (keptSuites rsn.rsnKeymgmtset rsnIeKeymgmts).map Prod.fst
  ending : listsEnd frm = (frm 1).toNat
  caps : rsn.rsnCaps < 2 ^ 16 → read16l frm (listsEnd frm) = rsn.rsnCaps

theorem length_rsnBody (four : group.length = ouiLen) : (rsnBody rsn group).length =
    12 + (keptSuites rsn.rsnUcastcipherset rsnIeCiphers).length * ouiLen +
      (keptSuites rsn.rsnKeymgmtset rsnIeKeymgmts).length * ouiLen := by
  simp only [rsnBody, List.length_append, four,
    length_countedSuites (kept_carried rsnIeCiphers_carried),
    length_countedSuites (kept_carried rsnIeKeymgmts_carried), List.length_cons, List.length_nil,
    ouiLen]
  omega

theorem rsnBody_short (rsn : OwnRsnparms) (four : group.length = ouiLen) :
    (rsnBody rsn group).length ≤ 98 := by
  have ciphers := length_kept rsn.rsnUcastcipherset rsnIeCiphers
  have keymgmts := length_kept rsn.rsnKeymgmtset rsnIeKeymgmts
  have twoCiphers : rsnIeCiphers.length = 2 := rfl
  have fourKeymgmts : rsnIeKeymgmts.length = 4 := rfl
  rw [length_rsnBody four]
  simp only [ouiLen]
  omega

theorem rsnLayout_of_holds (four : group.length = ouiLen)
    (held : Bytes.Holds frm 0 (wifinetElemidRsn :: UInt8.ofNat (rsnBody rsn group).length ::
      rsnBody rsn group)) : RsnLayout rsn group frm := by
  have ciphersFew := length_kept rsn.rsnUcastcipherset rsnIeCiphers
  have keymgmtsFew := length_kept rsn.rsnKeymgmtset rsnIeKeymgmts
  have twoCiphers : rsnIeCiphers.length = 2 := rfl
  have fourKeymgmts : rsnIeKeymgmts.length = 4 := rfl
  have short := rsnBody_short rsn four
  obtain ⟨-, length, body⟩ := held
  obtain ⟨version, rest⟩ := Bytes.holds_append.mp body
  obtain ⟨groupHeld, rest⟩ := Bytes.holds_append.mp rest
  obtain ⟨ciphersHeld, rest⟩ := Bytes.holds_append.mp rest
  obtain ⟨keymgmtsHeld, capsHeld⟩ := Bytes.holds_append.mp rest
  rw [length_countedSuites (kept_carried rsnIeCiphers_carried), four] at keymgmtsHeld capsHeld
  rw [length_countedSuites (kept_carried rsnIeKeymgmts_carried)] at capsHeld
  rw [four] at ciphersHeld
  have total : (frm 1).toNat = (rsnBody rsn group).length := by
    rw [show (1 : Nat) = 0 + 1 from rfl, length, UInt8.toNat_ofNat']
    omega
  obtain ⟨count, ciphers⟩ := countedSuites_read (kept_carried rsnIeCiphers_carried) (by omega)
    ciphersHeld
  obtain ⟨counted, keymgmts⟩ := countedSuites_read (kept_carried rsnIeKeymgmts_carried)
    (by omega) keymgmtsHeld
  have count8 : read16l frm 8 = (keptSuites rsn.rsnUcastcipherset rsnIeCiphers).length := count
  have place : 0 + 1 + 1 + [(1 : UInt8), 0].length + ouiLen +
      (2 + (keptSuites rsn.rsnUcastcipherset rsnIeCiphers).length * ouiLen) =
      keymgmtOffset (read16l frm 8) := by
    rw [count8, keymgmtOffset]
    simp only [List.length_cons, List.length_nil, ouiLen]
    omega
  rw [place] at counted keymgmts capsHeld
  have ending : listsEnd frm = keymgmtOffset (read16l frm 8) +
      (2 + (keptSuites rsn.rsnKeymgmtset rsnIeKeymgmts).length * ouiLen) := by
    rw [listsEnd, keymgmtCount, counted, Nat.add_assoc]
  refine ⟨?_, groupHeld, count8, ?_, counted, ?_, ?_, ?_⟩
  · exact read16l_holds version
  · rw [peerCiphers, count8]
    exact ciphers
  · rw [peerKeymgmts, keymgmtCount, counted]
    exact keymgmts
  · rw [ending, total, length_rsnBody four, count8, keymgmtOffset]
    omega
  · intro small
    rw [ending]
    exact read16l_short small capsHeld

end Layout

section Group

variable {frm : Nat → UInt8} {offset : Nat} {group : List UInt8} {rsn : OwnRsnparms}

/-- A group cipher that has a selector has a place in the table. -/
theorem groupSelector_cases {cipherSuite : List (List UInt8)} {wep104Suite : List UInt8}
    (chosen : groupSelector rsn cipherSuite wep104Suite = some group) :
    (rsn.rsnMcastcipher = wifinetCipherWep ∧ 13 ≤ rsn.rsnMcastkeylen) ∧ group = wep104Suite ∨
      ¬ (rsn.rsnMcastcipher = wifinetCipherWep ∧ 13 ≤ rsn.rsnMcastkeylen) ∧
        cipherSuite[rsn.rsnMcastcipher]? = some group := by
  unfold groupSelector at chosen
  split at chosen
  · next long => exact Or.inl ⟨long, (Option.some.inj chosen).symm⟩
  · next short => exact Or.inr ⟨short, chosen⟩

theorem read32l_zero (held : Bytes.Holds frm offset [0, 0, 0, 0]) : read32l frm offset = 0 :=
  read32l_holds held

theorem groupSelector_length {cipherSuite : List (List UInt8)} {wep104Suite : List UInt8}
    (table : ∀ selector ∈ cipherSuite, selector.length = ouiLen)
    (wep : wep104Suite.length = ouiLen)
    (chosen : groupSelector rsn cipherSuite wep104Suite = some group) : group.length = ouiLen := by
  rcases groupSelector_cases chosen with ⟨-, rfl⟩ | ⟨-, listed⟩
  · exact wep
  · exact table group (List.mem_of_getElem? listed)

theorem groupSelector_some {cipherSuite : List (List UInt8)} (wep104Suite : List UInt8)
    (inside : rsn.rsnMcastcipher < cipherSuite.length) :
    ∃ group, groupSelector rsn cipherSuite wep104Suite = some group := by
  unfold groupSelector
  split
  · exact ⟨_, rfl⟩
  · exact ⟨_, List.getElem?_eq_getElem inside⟩

/-- How the group cipher of the RSN element is read again. -/
theorem rsnGroup_read (chosen : groupSelector rsn rsnCipherSuite (rsnSelector 0x05) = some group)
    (held : Bytes.Holds frm offset group) (keylen : Nat) : rsnCipher frm offset keylen =
      if rsn.rsnMcastcipher = 0 then (0, if 13 ≤ rsn.rsnMcastkeylen then 13 else 5)
      else if rsn.rsnMcastcipher ≤ 3 then (rsn.rsnMcastcipher, keylen)
      else if rsn.rsnMcastcipher = 5 then (9, keylen) else (32, keylen) := by
  rcases groupSelector_cases chosen with ⟨⟨wep, long⟩, rfl⟩ | ⟨short, listed⟩
  · unfold rsnCipher
    rw [read32l_rsnSelector held, wep, if_pos long]
    simp [rsnSel]
  · obtain ⟨inside, found⟩ := List.getElem?_eq_some_iff.mp listed
    have place : rsn.rsnMcastcipher < 6 := inside
    rcases (by omega : rsn.rsnMcastcipher = 0 ∨ rsn.rsnMcastcipher = 1 ∨ rsn.rsnMcastcipher = 2 ∨
      rsn.rsnMcastcipher = 3 ∨ rsn.rsnMcastcipher = 4 ∨ rsn.rsnMcastcipher = 5) with
      number | number | number | number | number | number
    all_goals
      rw [number] at listed
      obtain rfl := Option.some.inj listed
      unfold rsnCipher
      first
        | rw [read32l_rsnSelector held]
        | rw [read32l_zero held]
    · rw [if_pos number, if_neg fun long => short ⟨number, long⟩]
      simp [rsnSel]
    all_goals
      simp [rsnSel, number]

/-- The group ciphers that the RSN element can carry. -/
def rsnIeGroups : List Nat :=
  [wifinetCipherWep, wifinetCipherTkip, wifinetCipherAesOcb, wifinetCipherAesCcm]

theorem groupSelector_number {cipherSuite : List (List UInt8)} {wep104Suite : List UInt8}
    (chosen : groupSelector rsn cipherSuite wep104Suite = some group)
    (places : 0 < cipherSuite.length) : rsn.rsnMcastcipher < cipherSuite.length := by
  rcases groupSelector_cases chosen with ⟨⟨wep, -⟩, -⟩ | ⟨-, listed⟩
  · rw [wep]
    exact places
  · exact (List.getElem?_eq_some_iff.mp listed).1

theorem rsnGroup_same (chosen : groupSelector rsn rsnCipherSuite (rsnSelector 0x05) = some group)
    (held : Bytes.Holds frm offset group) :
    cipherAt frm offset = rsn.rsnMcastcipher ↔ rsn.rsnMcastcipher ∈ rsnIeGroups := by
  have number : rsn.rsnMcastcipher < 6 := groupSelector_number chosen (by decide)
  rw [cipherAt, rsnGroup_read chosen held]
  simp only [rsnIeGroups, List.mem_cons, List.not_mem_nil, or_false, wifinetCipherWep,
    wifinetCipherTkip, wifinetCipherAesOcb, wifinetCipherAesCcm]
  repeat' split
  all_goals
    dsimp only
    omega

/-- How the group cipher of the WPA element is read again. -/
theorem wpaGroup_read (chosen : groupSelector rsn wpaCipherSuite (wpaSelector 0x05) = some group)
    (held : Bytes.Holds frm offset group) (keylen : Nat) : wpaCipher frm offset keylen =
      if rsn.rsnMcastcipher = 0 then (0, if 13 ≤ rsn.rsnMcastkeylen then 13 else 5)
      else if rsn.rsnMcastcipher = 1 ∨ rsn.rsnMcastcipher = 3 then (rsn.rsnMcastcipher, keylen)
      else if rsn.rsnMcastcipher = 5 then (9, keylen) else (32, keylen) := by
  rcases groupSelector_cases chosen with ⟨⟨wep, long⟩, rfl⟩ | ⟨short, listed⟩
  · unfold wpaCipher
    rw [read32l_wpaSelector held, wep, if_pos long]
    simp [wpaSel]
  · have place : rsn.rsnMcastcipher < 6 := (List.getElem?_eq_some_iff.mp listed).1
    rcases (by omega : rsn.rsnMcastcipher = 0 ∨ rsn.rsnMcastcipher = 1 ∨ rsn.rsnMcastcipher = 2 ∨
      rsn.rsnMcastcipher = 3 ∨ rsn.rsnMcastcipher = 4 ∨ rsn.rsnMcastcipher = 5) with
      number | number | number | number | number | number
    all_goals
      rw [number] at listed
      obtain rfl := Option.some.inj listed
      unfold wpaCipher
      first
        | rw [read32l_wpaSelector held]
        | rw [read32l_zero held]
    · rw [if_pos number, if_neg fun long => short ⟨number, long⟩]
      simp [wpaSel]
    all_goals
      simp [wpaSel, number]

/-- The group ciphers that the WPA element can carry. -/
def wpaIeGroups : List Nat := [wifinetCipherWep, wifinetCipherTkip, wifinetCipherAesCcm]

theorem wpaGroup_same (chosen : groupSelector rsn wpaCipherSuite (wpaSelector 0x05) = some group)
    (held : Bytes.Holds frm offset group) (keylen : Nat) :
    (wpaCipher frm offset keylen).1 = rsn.rsnMcastcipher ↔ rsn.rsnMcastcipher ∈ wpaIeGroups := by
  have number : rsn.rsnMcastcipher < 6 := groupSelector_number chosen (by decide)
  rw [wpaGroup_read chosen held]
  simp only [wpaIeGroups, List.mem_cons, List.not_mem_nil, or_false, wifinetCipherWep,
    wifinetCipherTkip, wifinetCipherAesCcm]
  repeat' split
  all_goals
    dsimp only
    omega

theorem wpaGroup_keylen (chosen : groupSelector rsn wpaCipherSuite (wpaSelector 0x05) = some group)
    (held : Bytes.Holds frm offset group)
    (wep : rsn.rsnMcastcipher = 0 → rsn.rsnMcastkeylen = 5 ∨ rsn.rsnMcastkeylen = 13) :
    (wpaCipher frm offset rsn.rsnMcastkeylen).2 = rsn.rsnMcastkeylen := by
  rw [wpaGroup_read chosen held]
  split
  · next zero =>
    dsimp only
    have two := wep zero
    split
    all_goals omega
  · repeat' split
    all_goals rfl

/-- The key length of WEP comes back as well, and no other group cipher has one. -/
theorem rsnGroup_keylen (chosen : groupSelector rsn rsnCipherSuite (rsnSelector 0x05) = some group)
    (held : Bytes.Holds frm offset group)
    (wep : rsn.rsnMcastcipher = 0 → rsn.rsnMcastkeylen = 5 ∨ rsn.rsnMcastkeylen = 13) :
    (rsnCipher frm offset rsn.rsnMcastkeylen).2 = rsn.rsnMcastkeylen := by
  rw [rsnGroup_read chosen held]
  split
  · next zero =>
    dsimp only
    have two := wep zero
    split
    all_goals omega
  · repeat' split
    all_goals rfl

end Group

end W522a.Ap
