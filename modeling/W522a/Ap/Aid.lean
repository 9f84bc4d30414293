import W522a.Ap.Machine
import W522a.Ap.Request
import W522a.Ap.TimLaw

/-!
The association ids of an access point as numbers of a pool: those that the stations of the table
hold, and those that leaked, whose bits are set although no station of the table has them.
-/

namespace W522a.Ap

/-- What a station holds: its association id, or nothing. -/
def heldBy (sta : ApSta) : List Nat :=
  if sta.staAssocid = 0 then [] else [wifinetAid sta.staAssocid]

/-- The association ids that the stations of a table hold. -/
def held (table : List ApSta) : List Nat := table.flatMap heldBy

theorem held_cons (sta : ApSta) (rest : List ApSta) :
    held (sta :: rest) = heldBy sta ++ held rest := List.flatMap_cons

theorem held_append (first second : List ApSta) :
    held (first ++ second) = held first ++ held second := List.flatMap_append

theorem held_perm {table other : List ApSta} (same : table.Perm other) :
    (held table).Perm (held other) := same.flatMap_right heldBy

theorem heldBy_none {sta : ApSta} (free : sta.staAssocid = 0) : heldBy sta = [] := if_pos free

theorem heldBy_some {sta : ApSta} (assoc : sta.staAssocid ≠ 0) :
    heldBy sta = [wifinetAid sta.staAssocid] := if_neg assoc

theorem heldBy_congr {sta other : ApSta} (same : sta.staAssocid = other.staAssocid) :
    heldBy sta = heldBy other := by
  rw [heldBy, heldBy, same]

theorem mem_held {table : List ApSta} {aid : Nat} :
    aid ∈ held table ↔ ∃ sta ∈ table, sta.staAssocid ≠ 0 ∧ wifinetAid sta.staAssocid = aid := by
  rw [held, List.mem_flatMap]
  refine exists_congr fun sta => and_congr_right fun _ => ?_
  by_cases free : sta.staAssocid = 0
  · rw [heldBy_none free]
    exact iff_of_false List.not_mem_nil fun assoc => assoc.1 free
  · rw [heldBy_some free, List.mem_singleton]
    exact ⟨fun same => ⟨free, same.symm⟩, fun assoc => assoc.2.symm⟩

/-- The association ids of an access point are those of a pool, with some that leaked. -/
structure AidKept (ap : ApVif) (leaked : List Nat) : Prop where
  distinct : Keyed.Distinct ApSta.staMacaddr ap.ntNsta
  word : ap.vmAidBitmap.length = 1
  maxAid : ap.tim.vmMaxAid = 17
  main : ∀ sta ∈ ap.ntNsta, ap.vmMainsta = some sta.staMacaddr → sta.staAssocid = 0
  inited : ap.ntInited = false → ap.ntNsta = []
  pool : Pool.Kept 32 1 17 ap.vmAidBitmap (held ap.ntNsta ++ leaked)

def Counted (ap : ApVif) : Prop := ap.vmStaAssoc = (held ap.ntNsta).length

/-- A step after which the same association ids are held. -/
structure AidStep (ap : ApVif) (leaked : List Nat) (next : ApVif) : Prop where
  kept : AidKept next leaked
  counted : Counted ap → Counted next
  holds : (held next.ntNsta).Perm (held ap.ntNsta)

theorem AidStep.trans {first second third : ApVif} {leaked : List Nat}
    (one : AidStep first leaked second) (two : AidStep second leaked third) :
    AidStep first leaked third :=
  ⟨two.kept, fun counted => two.counted (one.counted counted), two.holds.trans one.holds⟩

/-- What changes nothing that the association ids depend on. -/
structure AidFrame (ap next : ApVif) : Prop where
  bitmap : next.vmAidBitmap = ap.vmAidBitmap
  assoc : next.vmStaAssoc = ap.vmStaAssoc
  maxAid : next.tim.vmMaxAid = ap.tim.vmMaxAid
  table : next.ntNsta = ap.ntNsta
  inited : next.ntInited = ap.ntInited
  main : ∀ macaddr, next.vmMainsta = some macaddr → ap.vmMainsta = some macaddr

section Frames

variable {ap next : ApVif} {leaked : List Nat} {sta old : ApSta} {macaddr : Nat}

theorem AidFrame.refl (ap : ApVif) : AidFrame ap ap := ⟨rfl, rfl, rfl, rfl, rfl, fun _ => id⟩

theorem AidFrame.trans {third : ApVif} (one : AidFrame ap next) (two : AidFrame next third) :
    AidFrame ap third where
  bitmap := two.bitmap.trans one.bitmap
  assoc := two.assoc.trans one.assoc
  maxAid := two.maxAid.trans one.maxAid
  table := two.table.trans one.table
  inited := two.inited.trans one.inited
  main macaddr same := one.main macaddr (two.main macaddr same)

theorem AidKept.frame (kept : AidKept ap leaked) (frame : AidFrame ap next) :
    AidStep ap leaked next := by
  obtain ⟨distinct, word, maxAid, main, inited, pool⟩ := kept
  refine ⟨⟨?_, ?_, frame.maxAid.trans maxAid, ?_, ?_, ?_⟩, fun counted => ?_,
    List.Perm.of_eq (congrArg held frame.table)⟩
  · rw [frame.table]
    exact distinct
  · rw [frame.bitmap]
    exact word
  · rw [frame.table]
    intro sta member same
    exact main sta member (frame.main _ same)
  · rw [frame.table, frame.inited]
    exact inited
  · rw [frame.table, frame.bitmap]
    exact pool
  · rw [Counted, frame.assoc, frame.table]
    exact counted

theorem AidKept.refl (kept : AidKept ap leaked) : AidStep ap leaked ap :=
  ⟨kept, id, List.Perm.refl _⟩

theorem wifiMacPwrsaveSetTim_maxAid (tim : TimVif) (associd : Nat) (set : Bool) :
    (wifiMacPwrsaveSetTim tim associd set).vmMaxAid = tim.vmMaxAid := by
  rcases wifiMacPwrsaveSetTim_cases tim associd set with
    ⟨same, -⟩ | ⟨-, -, -, changed⟩ | ⟨-, -, -, changed⟩
  · rw [same]
  · rw [changed]
  · rw [changed]

private theorem nstaCleanup_frame (ap : ApVif) (sta : ApSta) :
    AidFrame ap (nstaCleanup ap sta).1 := by
  unfold nstaCleanup
  have counted : AidFrame ap
      (if sta.nodePwrMgt then { ap with vmPsSta := (ap.vmPsSta + 65535) % 65536 } else ap) := by
    split <;> exact ⟨rfl, rfl, rfl, rfl, rfl, fun _ => id⟩
  dsimp only
  split
  · exact counted
  · exact counted.trans
      ⟨rfl, rfl, wifiMacPwrsaveSetTim_maxAid _ _ _, rfl, rfl, fun _ => id⟩

theorem wifiMacFreeSta_frame (ap : ApVif) (sta : ApSta) (lacksMemory : Bool) :
    AidFrame ap (wifiMacFreeSta ap sta lacksMemory) := by
  unfold wifiMacFreeSta
  split
  · exact AidFrame.refl ap
  · refine AidFrame.trans ?_ (nstaCleanup_frame _ sta)
    split
    · exact ⟨rfl, rfl, rfl, rfl, rfl, fun _ same => nomatch same⟩
    · exact AidFrame.refl ap

private theorem psqueueFlush_same (sta : ApSta) (fuel : Nat) :
    SameHolder (psqueueFlush sta fuel) sta := by
  induction fuel generalizing sta with
  | zero => exact SameHolder.refl sta
  | succ fuel induction =>
    have sent : SameHolder (wifiMacPwrsavePsqueueSend sta).1 sta := by
      unfold wifiMacPwrsavePsqueueSend
      split <;> exact ⟨rfl, rfl⟩
    rw [psqueueFlush]
    split
    · exact sent
    · exact (induction _).trans sent

theorem stateChange_frame (ap : ApVif) (sta : ApSta) (enable : Bool) :
    AidFrame ap (wifiMacPwrsaveStateChange ap sta enable).1 ∧
      SameHolder (wifiMacPwrsaveStateChange ap sta enable).2 sta := by
  unfold wifiMacPwrsaveStateChange
  have counted : ∀ (change : Nat → Nat), AidFrame ap
      (if sta.nodePwrMgt then { ap with vmPsSta := change ap.vmPsSta } else ap) := by
    intro change
    split <;> exact ⟨rfl, rfl, rfl, rfl, rfl, fun _ => id⟩
  have other : ∀ (change : Nat → Nat), AidFrame ap
      (if sta.nodePwrMgt then ap else { ap with vmPsSta := change ap.vmPsSta }) := by
    intro change
    split <;> exact ⟨rfl, rfl, rfl, rfl, rfl, fun _ => id⟩
  by_cases on : enable = true
  · rw [if_pos on]
    exact ⟨other (fun count => (count + 1) % 65536), ⟨rfl, rfl⟩⟩
  · rw [if_neg on]
    by_cases waits : (sta.nodePwrMgt && ap.psqueueHeld) = true
    · rw [if_pos waits]
      exact ⟨AidFrame.refl ap, SameHolder.refl sta⟩
    · rw [if_neg waits]
      refine ⟨(counted (fun count => (count + 65535) % 65536)).trans
        ⟨rfl, rfl, wifiMacPwrsaveSetTim_maxAid _ _ _, rfl, rfl, fun _ => id⟩, ?_⟩
      exact (psqueueFlush_same _ _).trans ⟨rfl, rfl⟩

end Frames

section Table

variable {ap next : ApVif} {leaked : List Nat} {sta old : ApSta} {macaddr : Nat}

theorem AidKept.tableInited (kept : AidKept ap leaked) (found : ap.getSta macaddr = some old) :
    ap.ntInited = true := by
  by_contra gone
  have empty := kept.inited (by simpa using gone)
  rw [ApVif.getSta, empty] at found
  cases found

/-- A station of the table is in hand: what it holds now replaces what it held in the table. -/
structure InHand (ap : ApVif) (sta : ApSta) (leaked : List Nat) : Prop where
  distinct : Keyed.Distinct ApSta.staMacaddr ap.ntNsta
  word : ap.vmAidBitmap.length = 1
  maxAid : ap.tim.vmMaxAid = 17
  main : ∀ other ∈ ap.ntNsta, ap.vmMainsta = some other.staMacaddr → other.staAssocid = 0
  mainSta : ap.vmMainsta = some sta.staMacaddr → sta.staAssocid = 0
  inited : ap.ntInited = true
  found : ap.getSta sta.staMacaddr ≠ none
  pool : Pool.Kept 32 1 17 ap.vmAidBitmap
    (heldBy sta ++ held (Keyed.remove ApSta.staMacaddr ap.ntNsta sta.staMacaddr) ++ leaked)

def CountedHand (ap : ApVif) (sta : ApSta) : Prop :=
  ap.vmStaAssoc =
    (heldBy sta ++ held (Keyed.remove ApSta.staMacaddr ap.ntNsta sta.staMacaddr)).length

theorem AidKept.take (kept : AidKept ap leaked) (found : ap.getSta old.staMacaddr = some old)
    (same : SameHolder sta old) :
    InHand ap sta leaked ∧ (Counted ap → CountedHand ap sta) := by
  have holds := held_perm (Keyed.perm_remove kept.distinct found)
  rw [held_cons, ← heldBy_congr same.associd, ← same.macaddr] at holds
  refine ⟨⟨kept.distinct, kept.word, kept.maxAid, kept.main, fun main => ?_,
    kept.tableInited found, ?_, kept.pool.perm (holds.append_right leaked)⟩, fun counted => ?_⟩
  · rw [same.associd]
    exact kept.main old (Keyed.mem_of_find found) (same.macaddr ▸ main)
  · rw [same.macaddr, found]
    exact Option.some_ne_none old
  · exact counted.trans holds.length_eq

theorem InHand.frame (hand : InHand ap sta leaked) (frame : AidFrame ap next) :
    InHand next sta leaked ∧ (CountedHand ap sta → CountedHand next sta) := by
  obtain ⟨distinct, word, maxAid, main, mainSta, inited, found, pool⟩ := hand
  refine ⟨⟨?_, ?_, frame.maxAid.trans maxAid, ?_, fun same => mainSta (frame.main _ same),
    frame.inited.trans inited, ?_, ?_⟩, fun counted => ?_⟩
  · rw [frame.table]
    exact distinct
  · rw [frame.bitmap]
    exact word
  · rw [frame.table]
    exact fun other member same => main other member (frame.main _ same)
  · rw [ApVif.getSta, frame.table]
    exact found
  · rw [frame.table, frame.bitmap]
    exact pool
  · rw [CountedHand, frame.assoc, frame.table]
    exact counted

theorem InHand.change (hand : InHand ap sta leaked) (other : ApSta)
    (same : SameHolder other sta) :
    InHand ap other leaked ∧ (CountedHand ap sta → CountedHand ap other) := by
  obtain ⟨distinct, word, maxAid, main, mainSta, inited, found, pool⟩ := hand
  refine ⟨⟨distinct, word, maxAid, main, ?_, inited, ?_, ?_⟩, fun counted => ?_⟩
  · rw [same.macaddr, same.associd]
    exact mainSta
  · rw [same.macaddr]
    exact found
  · rw [same.macaddr, heldBy_congr same.associd]
    exact pool
  · rw [CountedHand, same.macaddr, heldBy_congr same.associd]
    exact counted

theorem InHand.put (hand : InHand ap sta leaked) :
    AidKept (ap.put sta) leaked ∧ (CountedHand ap sta → Counted (ap.put sta)) := by
  have after : (ap.put sta).ntNsta.Perm
      (sta :: Keyed.remove ApSta.staMacaddr ap.ntNsta sta.staMacaddr) :=
    Keyed.perm_replace hand.distinct hand.found
  have holds := held_perm after
  rw [held_cons] at holds
  refine ⟨⟨hand.distinct.replace sta, hand.word, hand.maxAid, ?_, fun gone => ?_, ?_⟩,
    fun counted => ?_⟩
  · intro other member main
    rcases List.mem_cons.mp (after.mem_iff.mp member) with rfl | rest
    · exact hand.mainSta main
    · exact hand.main other (Keyed.mem_remove.mp rest).1 main
  · exact absurd hand.inited (by simpa [ApVif.put] using gone)
  · exact hand.pool.perm (holds.symm.append_right leaked)
  · exact counted.trans holds.symm.length_eq

/-- The station in hand gives up what it holds and is taken out of the table. -/
theorem InHand.leave (hand : InHand ap sta leaked) (quiet : Bool) :
    AidKept ((wifiMacStaDisconnect ap sta quiet).1.listDel sta.staMacaddr) leaked ∧
      (CountedHand ap sta →
        Counted ((wifiMacStaDisconnect ap sta quiet).1.listDel sta.staMacaddr)) := by
  have main : ∀ other ∈ Keyed.remove ApSta.staMacaddr ap.ntNsta sta.staMacaddr,
      ap.vmMainsta = some other.staMacaddr → other.staAssocid = 0 := fun other member =>
    hand.main other (Keyed.mem_remove.mp member).1
  have pool := hand.pool
  unfold CountedHand wifiMacStaDisconnect
  by_cases free : sta.staAssocid = 0
  · rw [if_pos free]
    rw [heldBy_none free, List.nil_append] at pool ⊢
    refine ⟨⟨hand.distinct.remove _, hand.word, hand.maxAid, main, fun gone => ?_, pool⟩, id⟩
    exact absurd hand.inited (by simpa [ApVif.listDel] using gone)
  · rw [if_neg free]
    rw [heldBy_some free] at pool ⊢
    refine ⟨⟨hand.distinct.remove _, ?_, hand.maxAid, main, fun gone => ?_, ?_⟩,
      fun counted => ?_⟩
    · exact Bitmap.length_clrbit.trans hand.word
    · exact absurd hand.inited (by simpa [ApVif.listDel] using gone)
    · exact pool.release (by decide)
    · rw [List.length_append, List.length_singleton] at counted
      rw [Counted]
      simp only [ApVif.listDel]
      omega

theorem AidKept.put (kept : AidKept ap leaked) (found : ap.getSta old.staMacaddr = some old)
    (same : SameHolder sta old) : AidStep ap leaked (ap.put sta) := by
  obtain ⟨hand, counted⟩ := kept.take found same
  have before := held_perm (Keyed.perm_remove kept.distinct found)
  have after := held_perm (Keyed.perm_replace hand.distinct hand.found)
  rw [held_cons] at before after
  rw [same.macaddr, heldBy_congr same.associd] at after
  exact ⟨hand.put.1, fun count => hand.put.2 (counted count), after.trans before.symm⟩

/-- The station in hand leaves the access point. -/
theorem InHand.disconnectFromAp (hand : InHand ap sta leaked) (env : LeaveEnv) :
    AidKept (wifiMacStaDisconnectFromAp ap sta env) leaked ∧
      (CountedHand ap sta → Counted (wifiMacStaDisconnectFromAp ap sta env)) := by
  obtain ⟨kept, counted⟩ := hand.leave env.quiet
  have freed := kept.frame (wifiMacFreeSta_frame _ (wifiMacStaDisconnect ap sta env.quiet).2
    env.lacksMemory)
  exact ⟨freed.kept, fun count => freed.counted (counted count)⟩

theorem getSta_put (present : ap.getSta sta.staMacaddr ≠ none) :
    (ap.put sta).getSta sta.staMacaddr = some sta := by
  obtain ⟨old, found⟩ := Option.ne_none_iff_exists'.mp present
  have name : old.staMacaddr = sta.staMacaddr := Keyed.key_of_find found
  rw [ApVif.getSta] at found ⊢
  rw [ApVif.put, Keyed.find_replace, found, Option.map_some, if_pos name]

/-- A station that holds nothing comes to the table. -/
theorem AidKept.concat (kept : AidKept ap leaked) (sta : ApSta)
    (fresh : ap.getSta sta.staMacaddr = none) (free : sta.staAssocid = 0) (inited : ap.ntInited = true) :
    AidStep ap leaked { ap with ntNsta := ap.ntNsta ++ [sta] } := by
  have unchanged : held (ap.ntNsta ++ [sta]) = held ap.ntNsta := by
    rw [held_append, held_cons, heldBy_none free]
    exact List.append_nil _
  refine ⟨⟨kept.distinct.concat (Keyed.absent_of_find fresh), kept.word, kept.maxAid, ?_, ?_, ?_⟩,
    fun counted => ?_, List.Perm.of_eq unchanged⟩
  · intro other member main
    rcases List.mem_append.mp member with here | last
    · exact kept.main other here main
    · rw [List.mem_singleton.mp last]
      exact free
  · intro gone
    rw [inited] at gone
    cases gone
  · dsimp only
    rw [unchanged]
    exact kept.pool
  · rw [Counted]
    dsimp only
    rw [unchanged]
    exact counted

end Table

section Grant

variable {ap : ApVif} {leaked : List Nat} {sta : ApSta} {aid : Nat}

/-- The loop of a rebuild finds every station of a kept pool in order. -/
theorem rebuildAids_kept (vmMainsta : Option Nat) (table : List ApSta) {bitmap before : List Nat}
    (pool : Pool.Kept 32 1 17 bitmap before) (word : bitmap.length = 1)
    (distinct : (held table ++ before).Nodup)
    (range : ∀ aid ∈ held table, 1 ≤ aid ∧ aid < 17)
    (main : ∀ sta ∈ table, vmMainsta = some sta.staMacaddr → sta.staAssocid = 0) :
    ∃ rebuilt, rebuildAids 17 vmMainsta bitmap before.length table =
        (rebuilt, (held table ++ before).length, table) ∧
      rebuilt.length = 1 ∧ Pool.Kept 32 1 17 rebuilt (held table ++ before) := by
  induction table generalizing bitmap before with
  | nil => exact ⟨bitmap, rfl, word, pool⟩
  | cons sta rest induction =>
    have later : ∀ other ∈ rest, vmMainsta = some other.staMacaddr → other.staAssocid = 0 :=
      fun other member => main other (List.mem_cons_of_mem _ member)
    rw [held_cons] at distinct range ⊢
    by_cases free : sta.staAssocid = 0
    · rw [heldBy_none free, List.nil_append] at distinct range ⊢
      obtain ⟨rebuilt, loop, length, kept⟩ := induction pool word distinct range later
      refine ⟨rebuilt, ?_, length, kept⟩
      rw [rebuildAids, if_pos (Or.inr free), loop]
    · rw [heldBy_some free] at distinct range ⊢
      generalize holds : wifinetAid sta.staAssocid = aid at distinct range ⊢
      have bounds := range aid (List.mem_cons_self ..)
      have fresh : aid ∉ before := by
        intro member
        exact (List.nodup_cons.mp distinct).1 (List.mem_append_right _ member)
      have clear : Bitmap.isset 32 bitmap aid = false := by
        rw [← Bool.not_eq_true, pool.bits]
        exact fresh
      have usable : ¬ (aid = 0 ∨ 17 ≤ aid ∨ Bitmap.isset 32 bitmap aid = true) := by
        rw [clear]
        simp only [Bool.false_eq_true, or_false]
        omega
      have granted := pool.grant bounds.1 bounds.2 (by omega) clear
      have few := granted.length_le
      rw [List.length_cons] at few
      have moved : (held rest ++ aid :: before).Perm ([aid] ++ held rest ++ before) :=
        List.perm_middle
      obtain ⟨rebuilt, loop, length, kept⟩ := induction granted
        (Bitmap.length_setbit.trans word) (moved.symm.nodup_iff.mp distinct)
        (fun other member => range other (List.mem_cons_of_mem _ member)) later
      have notMain : ¬ vmMainsta = some sta.staMacaddr := fun same =>
        free (main sta (List.mem_cons_self ..) same)
      refine ⟨rebuilt, ?_, length, kept.perm moved⟩
      rw [rebuildAids, if_neg (not_or.mpr ⟨notMain, free⟩), holds,
        if_neg usable, Nat.mod_eq_of_lt (by omega), ← List.length_cons (a := aid), loop,
        moved.length_eq]

/-- A rebuild of a kept pool ends what leaked, and counts anew. -/
theorem AidKept.rebuild (kept : AidKept ap leaked) (inited : ap.ntInited = true) :
    AidKept (wifiMacApRebuildAidState ap) [] ∧ Counted (wifiMacApRebuildAidState ap) ∧
      (wifiMacApRebuildAidState ap).ntNsta = ap.ntNsta := by
  obtain ⟨rebuilt, loop, length, pool⟩ := rebuildAids_kept ap.vmMainsta ap.ntNsta
    (Pool.Kept.none_held 1) List.length_replicate
    (by
      rw [List.append_nil]
      exact (List.nodup_append.mp kept.pool.distinct).1)
    (fun aid member => kept.pool.range aid (List.mem_append_left _ member)) kept.main
  rw [List.length_nil] at loop
  rw [wifiMacApRebuildAidState, if_neg (by simp [inited]), kept.maxAid, kept.word, loop]
  refine ⟨⟨kept.distinct, length, kept.maxAid, kept.main, fun gone => ?_, pool⟩, ?_, rfl⟩
  · exact absurd inited (by simpa using gone)
  · rw [Counted, List.append_nil]

theorem wifinetAid_granted (small : aid < 17) :
    wifinetAid (aid ||| 0xc000) = aid ∧ aid ||| 0xc000 ≠ 0 := by
  revert small
  revert aid
  decide

/-- The station in hand gets a free association id. -/
theorem InHand.grant (hand : InHand ap sta leaked) (free : sta.staAssocid = 0)
    (notMain : ap.vmMainsta ≠ some sta.staMacaddr) (found : findAid ap = some aid) :
    InHand (grantAid ap sta aid).1 (grantAid ap sta aid).2 leaked ∧
      (CountedHand ap sta → CountedHand (grantAid ap sta aid).1 (grantAid ap sta aid).2) := by
  unfold findAid at found
  rw [hand.maxAid] at found
  obtain ⟨above, below, clear⟩ := Pool.firstFree_some found
  obtain ⟨number, nonzero⟩ := wifinetAid_granted below
  have word := hand.word
  have pool := hand.pool
  rw [heldBy_none free, List.nil_append] at pool
  have granted := pool.grant above below (by omega) clear
  have few := granted.length_le
  rw [List.length_cons, List.length_append] at few
  have holds : heldBy (grantAid ap sta aid).2 = [aid] := by
    rw [heldBy_some nonzero]
    exact congrArg (fun held => [held]) number
  refine ⟨⟨hand.distinct, ?_, hand.maxAid, hand.main, fun main => absurd main notMain,
    hand.inited, hand.found, ?_⟩, fun counted => ?_⟩
  · exact Bitmap.length_setbit.trans word
  · rw [holds]
    simp only [grantAid, number]
    exact granted
  · rw [CountedHand, heldBy_none free, List.nil_append] at counted
    rw [CountedHand, holds]
    simp only [grantAid, counted, List.length_append, List.length_singleton]
    omega

private theorem wifiMac11gInitParam_same (mac : WifiMac) (sta : ApSta) :
    SameHolder (wifiMac11gInitParam mac sta).2 sta := by
  unfold wifiMac11gInitParam
  dsimp only
  split <;> exact ⟨rfl, rfl⟩

theorem joinProtection_frame (ap : ApVif) (sta : ApSta) :
    AidFrame ap (joinProtection ap sta).1 ∧ SameHolder (joinProtection ap sta).2 sta := by
  have older : ∀ (next : ApVif) (other : ApSta), SameHolder (if wifinetInclude11g next.vmMacMode
      then wifiMac11gInitParam next.mac other else (next.mac, other)).2 other := by
    intro next other
    split
    · exact wifiMac11gInitParam_same _ _
    · exact SameHolder.refl other
  unfold joinProtection
  by_cases intolerant : (sta.nodeHt && sta.node40Intolerant) = true
  · rw [if_pos intolerant]
    exact ⟨⟨rfl, rfl, rfl, rfl, rfl, fun _ => id⟩, (older _ _).trans ⟨rfl, rfl⟩⟩
  · rw [if_neg intolerant]
    exact ⟨⟨rfl, rfl, rfl, rfl, rfl, fun _ => id⟩, older _ _⟩

theorem InHand.answer (hand : InHand ap sta leaked) (env : JoinEnv) :
    AidKept (answerAssoc ap sta env).1 leaked ∧
      (CountedHand ap sta → Counted (answerAssoc ap sta env).1) := by
  unfold answerAssoc
  obtain ⟨changed, counted⟩ := hand.change { sta with
    staUcastkey := none
    staInactReload := wifinetInactAuth
    staInact := wifinetInactAuth } ⟨rfl, rfl⟩
  obtain ⟨left, count⟩ := changed.disconnectFromAp env.leave
  dsimp only
  split
  · exact ⟨left, fun before => count (counted before)⟩
  · split
    · exact ⟨left, fun before => count (counted before)⟩
    · exact ⟨changed.put.1, fun before => changed.put.2 (counted before)⟩

theorem answerAssoc_answer (ap : ApVif) (sta : ApSta) (env : JoinEnv) :
    (answerAssoc ap sta env).2 ≠ .toomany := by
  unfold answerAssoc
  split
  · exact fun absurdity => nomatch absurdity
  · split <;> exact fun absurdity => nomatch absurdity

/-- A step keeps a pool, and keeps it free of leaks and well counted. -/
def AidTidy (ap : ApVif) (leaked : List Nat) (next : ApVif) : Prop :=
  ∃ leaked', AidKept next leaked' ∧ (leaked = [] → Counted ap → leaked' = [] ∧ Counted next)

theorem AidStep.tidy {next : ApVif} (step : AidStep ap leaked next) :
    AidTidy ap leaked next :=
  ⟨leaked, step.kept, fun empty counted => ⟨empty, step.counted counted⟩⟩

theorem AidStep.andThen {next third : ApVif} (one : AidStep ap leaked next)
    (two : AidTidy next leaked third) : AidTidy ap leaked third := by
  obtain ⟨last, after, later⟩ := two
  exact ⟨last, after, fun empty counted => later empty (one.counted counted)⟩

theorem AidTidy.trans {next third : ApVif} (one : AidTidy ap leaked next)
    (two : ∀ leaked', AidKept next leaked' → AidTidy next leaked' third) :
    AidTidy ap leaked third := by
  obtain ⟨middle, kept, tidy⟩ := one
  obtain ⟨last, after, later⟩ := two middle kept
  refine ⟨last, after, fun empty counted => ?_⟩
  obtain ⟨none, count⟩ := tidy empty counted
  exact later none count

theorem AidKept.disconnectFromAp {old : ApSta} (kept : AidKept ap leaked)
    (found : ap.getSta old.staMacaddr = some old) (same : SameHolder sta old) (env : LeaveEnv) :
    AidTidy ap leaked (wifiMacStaDisconnectFromAp ap sta env) := by
  obtain ⟨hand, counted⟩ := kept.take found same
  obtain ⟨left, count⟩ := hand.disconnectFromAp env
  exact ⟨leaked, left, fun empty before => ⟨empty, count (counted before)⟩⟩

theorem AidKept.search (kept : AidKept ap leaked) (inited : ap.ntInited = true) :
    AidTidy ap leaked (searchAid ap) ∧ (searchAid ap).ntNsta = ap.ntNsta ∧
      (searchAid ap).vmMainsta = ap.vmMainsta := by
  unfold searchAid
  split
  · exact ⟨kept.refl.tidy, rfl, rfl⟩
  · obtain ⟨rebuilt, counted, table⟩ := kept.rebuild inited
    refine ⟨⟨[], rebuilt, fun _ _ => ⟨rfl, counted⟩⟩, table, ?_⟩
    unfold wifiMacApRebuildAidState
    split <;> rfl

theorem AidKept.search_full (kept : AidKept ap leaked) (inited : ap.ntInited = true)
    (full : findAid (searchAid ap) = none) (above : 1 ≤ aid) (below : aid < 17) :
    aid ∈ held ap.ntNsta := by
  have first : (findAid ap).isSome = false := by
    by_contra some
    have busy : (findAid ap).isSome = true := by
      rw [← Bool.not_eq_false]
      exact some
    rw [searchAid, if_pos busy] at full
    rw [full] at busy
    cases busy
  rw [searchAid, if_neg (by simp [first])] at full
  obtain ⟨rebuilt, -, table⟩ := kept.rebuild inited
  have pool := rebuilt.pool
  rw [List.append_nil, table] at pool
  rw [findAid, rebuilt.maxAid] at full
  exact pool.all_held full above below

theorem AidKept.search_none_iff (kept : AidKept ap leaked) (inited : ap.ntInited = true) :
    findAid (searchAid ap) = none ↔ (held ap.ntNsta).length = 16 := by
  obtain ⟨rebuilt, -, table⟩ := kept.rebuild inited
  have pool := rebuilt.pool
  rw [List.append_nil, table] at pool
  refine Iff.trans ⟨fun full aid above below => kept.search_full inited full above below,
    fun all => ?_⟩ pool.full_iff.symm
  have search : ∀ next, AidKept next [] ∨ next = ap → next.ntNsta = ap.ntNsta →
      findAid next = none := by
    intro next known same
    have bits : ∀ aid, 1 ≤ aid → aid < 17 →
        Bitmap.isset 32 next.vmAidBitmap aid = true := by
      intro aid above below
      rcases known with after | rfl
      · refine (after.pool.bits aid).mpr (List.mem_append_left _ ?_)
        rw [same]
        exact all aid above below
      · exact (kept.pool.bits aid).mpr (List.mem_append_left _ (all aid above below))
    have maxAid : next.tim.vmMaxAid = 17 := by
      rcases known with after | rfl
      · exact after.maxAid
      · exact kept.maxAid
    rw [findAid, maxAid]
    exact Pool.firstFree_full bits
  unfold searchAid
  split
  · exact search ap (Or.inr rfl) rfl
  · exact search _ (Or.inl rebuilt) table

/-- What becomes of a station that joins: it has an association id already, there is none for it, or
it gets one. -/
theorem wifiMacStaConnect_cases (ap : ApVif) (sta : ApSta) (env : JoinEnv) :
    (sta.staAssocid ≠ 0 ∧ wifiMacStaConnect ap sta env = answerAssoc ap sta env) ∨
    (sta.staAssocid = 0 ∧ findAid (searchAid ap) = none ∧
      wifiMacStaConnect ap sta env =
        (wifiMacStaDisconnectFromAp (searchAid ap) sta env.leave, .toomany)) ∨
    (sta.staAssocid = 0 ∧ ∃ aid, findAid (searchAid ap) = some aid ∧
      wifiMacStaConnect ap sta env =
        answerAssoc
          (joinProtection (grantAid (searchAid ap) sta aid).1 (grantAid (searchAid ap) sta aid).2).1
          (joinProtection (grantAid (searchAid ap) sta aid).1 (grantAid (searchAid ap) sta aid).2).2
          env) := by
  unfold wifiMacStaConnect
  by_cases free : sta.staAssocid = 0
  · rw [if_pos free]
    cases search : findAid (searchAid ap) with
    | none => exact Or.inr (Or.inl ⟨free, rfl, by simp only [search]⟩)
    | some aid => exact Or.inr (Or.inr ⟨free, aid, rfl, by simp only [search]⟩)
  · rw [if_neg free]
    exact Or.inl ⟨free, rfl⟩

theorem AidKept.connect (kept : AidKept ap leaked)
    (found : ap.getSta sta.staMacaddr = some sta) (notMain : ap.vmMainsta ≠ some sta.staMacaddr)
    (env : JoinEnv) : AidTidy ap leaked (wifiMacStaConnect ap sta env).1 := by
  obtain ⟨tidy, table, main⟩ := kept.search (kept.tableInited found)
  have known : (searchAid ap).getSta sta.staMacaddr = some sta := by
    rw [ApVif.getSta, table]
    exact found
  rcases wifiMacStaConnect_cases ap sta env with
    ⟨-, answers⟩ | ⟨-, -, refuses⟩ | ⟨free, aid, search, joins⟩
  · rw [answers]
    obtain ⟨hand, counted⟩ := kept.take found (SameHolder.refl sta)
    obtain ⟨answered, count⟩ := hand.answer env
    exact ⟨leaked, answered, fun empty before => ⟨empty, count (counted before)⟩⟩
  · rw [refuses]
    refine tidy.trans fun leaked' searched => ?_
    exact searched.disconnectFromAp known (SameHolder.refl sta) env.leave
  · rw [joins]
    refine tidy.trans fun leaked' searched => ?_
    obtain ⟨hand, counted⟩ := searched.take known (SameHolder.refl sta)
    obtain ⟨granted, count⟩ := hand.grant free (main ▸ notMain) search
    obtain ⟨frame, same⟩ := joinProtection_frame (grantAid (searchAid ap) sta aid).1
      (grantAid (searchAid ap) sta aid).2
    obtain ⟨framed, framedCount⟩ := granted.frame frame
    obtain ⟨joined, joinedCount⟩ := framed.change _ same
    obtain ⟨answered, answeredCount⟩ := joined.answer env
    exact ⟨leaked', answered, fun empty before =>
      ⟨empty, answeredCount (joinedCount (framedCount (count (counted before))))⟩⟩

end Grant

end W522a.Ap
