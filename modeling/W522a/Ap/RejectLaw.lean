import W522a.Ap.ProtectLaw

/-!
What a (re)association request that is not accepted leaves of the sessions of an access point. The
session of the sender is ended as a whole when it is refused. All others stay as they are, but for
an association id that another station has as well, when the request finds none that is free.
-/

namespace W522a.Ap

/-- A station is as it was, but for the mark of one that associates again. -/
def SameSession (sta old : ApSta) : Prop := sta = { old with nodeReassoc := sta.nodeReassoc }

/-- The stations under these names are as they were. -/
def SessionsKept (ap next : ApVif) (names : Nat → Prop) : Prop :=
  ∀ macaddr old, names macaddr → ap.getSta macaddr = some old →
    ∃ sta, next.getSta macaddr = some sta ∧ SameSession sta old

section Sessions

variable {ap next third : ApVif} {sta : ApSta} {names : Nat → Prop} {macaddr : Nat}

theorem SessionsKept.of_table (same : next.ntNsta = ap.ntNsta) : SessionsKept ap next names := by
  intro macaddr old _ found
  exact ⟨old, by rw [ApVif.getSta, same]; exact found, rfl⟩

theorem SessionsKept.trans (one : SessionsKept ap next names)
    (two : SessionsKept next third names) : SessionsKept ap third names := by
  intro macaddr old named found
  obtain ⟨sta, there, same⟩ := one macaddr old named found
  obtain ⟨last, here, again⟩ := two macaddr sta named there
  refine ⟨last, here, ?_⟩
  rw [SameSession] at same again ⊢
  rw [again, same]

theorem SessionsKept.put (other : ∀ macaddr, names macaddr → macaddr ≠ sta.staMacaddr) :
    SessionsKept ap (ap.put sta) names := by
  intro macaddr old named found
  have differ : old.staMacaddr ≠ sta.staMacaddr := by
    rw [Keyed.key_of_find found]
    exact other macaddr named
  refine ⟨old, ?_, rfl⟩
  rw [ApVif.getSta] at found
  rw [ApVif.getSta, ApVif.put, Keyed.find_replace, found, Option.map_some, if_neg differ]

theorem SessionsKept.markReassoc (ap : ApVif) (macaddr : Nat) :
    SessionsKept ap (markReassoc ap macaddr) names := by
  intro name old _ found
  obtain ⟨absent, known⟩ := markReassoc_getSta ap macaddr name
  have present : (Ap.markReassoc ap macaddr).getSta name ≠ none := by
    intro gone
    rw [absent.mp gone] at found
    cases found
  obtain ⟨sta, here⟩ := Option.ne_none_iff_exists'.mp present
  obtain ⟨before, there, same⟩ := known sta here
  obtain rfl := Option.some.inj (there.symm.trans found)
  refine ⟨sta, here, ?_⟩
  rcases same with rfl | rfl
  · rfl
  · rfl

theorem SessionsKept.assocTarget (ap : ApVif) (macaddr : Nat) :
    SessionsKept ap (assocTarget ap macaddr).1 names := by
  rcases assocTarget_cases ap macaddr with
    nowhere | ⟨-, ⟨sta, -, known⟩ | ⟨-, -, authSae, staRsn, placed⟩⟩
  · rw [nowhere]
    exact .of_table rfl
  · rw [known]
    exact .of_table rfl
  · rw [placed]
    intro name old _ found
    refine ⟨old, ?_, rfl⟩
    rw [ApVif.getSta, Keyed.find] at found
    rw [ApVif.getSta, Keyed.find, List.find?_append, found, Option.some_or]

theorem disconnectFromAp_table (ap : ApVif) (sta : ApSta) (env : LeaveEnv) :
    (wifiMacStaDisconnectFromAp ap sta env).ntNsta =
      Keyed.remove ApSta.staMacaddr ap.ntNsta sta.staMacaddr := by
  have left : (wifiMacStaDisconnect ap sta env.quiet).1.ntNsta = ap.ntNsta := by
    unfold wifiMacStaDisconnect
    split <;> rfl
  rw [wifiMacStaDisconnectFromAp, (wifiMacFreeSta_frame _ _ _).table, ApVif.listDel, left]

theorem SessionsKept.disconnectFromAp (env : LeaveEnv)
    (other : ∀ macaddr, names macaddr → macaddr ≠ sta.staMacaddr) :
    SessionsKept ap (wifiMacStaDisconnectFromAp ap sta env) names := by
  intro macaddr old named found
  refine ⟨old, ?_, rfl⟩
  rw [ApVif.getSta, disconnectFromAp_table, Keyed.find_remove (other macaddr named)]
  exact found

theorem disconnectFromAp_gone (ap : ApVif) (sta : ApSta) (env : LeaveEnv) :
    (wifiMacStaDisconnectFromAp ap sta env).getSta sta.staMacaddr = none := by
  rw [ApVif.getSta, disconnectFromAp_table]
  refine List.find?_eq_none.mpr fun other member => ?_
  simpa using (Keyed.mem_remove.mp member).2

theorem SessionsKept.answer (env : JoinEnv)
    (other : ∀ macaddr, names macaddr → macaddr ≠ sta.staMacaddr) :
    SessionsKept ap (answerAssoc ap sta env).1 names := by
  unfold answerAssoc
  dsimp only
  split
  · exact .disconnectFromAp env.leave other
  · split
    · exact .disconnectFromAp env.leave other
    · exact .put other

end Sessions

section Rebuild

variable {ap next : ApVif} {sta old : ApSta} {macaddr : Nat}

/-- The association id of a station is not one of the access point, or another station has it. -/
def IdClash (ap : ApVif) (sta : ApSta) : Prop :=
  wifinetAid sta.staAssocid = 0 ∨ ap.tim.vmMaxAid ≤ wifinetAid sta.staAssocid ∨
    ∃ other ∈ ap.ntNsta, other.staMacaddr ≠ sta.staMacaddr ∧ other.staAssocid ≠ 0 ∧
      wifinetAid other.staAssocid = wifinetAid sta.staAssocid

private theorem isset_of_setbit {words : List Nat} {index other : Nat}
    (set : Bitmap.isset 32 (Bitmap.setbit 32 words index) other = true) :
    other = index ∨ Bitmap.isset 32 words other = true := by
  have inside := Bitmap.inside_of_isset set
  by_cases room : index / 32 < words.length
  · rw [Bitmap.isset_setbit room, Bool.or_eq_true, decide_eq_true_iff] at set
    exact set
  · rw [Bitmap.setbit, List.modify_eq_self (Nat.le_of_not_lt room)] at set
    exact .inr set

/-- The loop of a rebuild leaves a station as it is, or takes an association id from it that is out
of range, is in the bitmap, or is that of another station. -/
theorem rebuildAids_find (vmMaxAid : Nat) (vmMainsta : Option Nat) {table : List ApSta}
    (bitmap : List Nat) (count : Nat)
    (found : Keyed.find ApSta.staMacaddr table macaddr = some old) :
    Keyed.find ApSta.staMacaddr (rebuildAids vmMaxAid vmMainsta bitmap count table).2.2 macaddr =
        some old ∨
      Keyed.find ApSta.staMacaddr (rebuildAids vmMaxAid vmMainsta bitmap count table).2.2 macaddr =
          some { old with staAssocid := 0 } ∧
        (wifinetAid old.staAssocid = 0 ∨ vmMaxAid ≤ wifinetAid old.staAssocid ∨
          Bitmap.isset 32 bitmap (wifinetAid old.staAssocid) = true ∨
          ∃ other ∈ table, other.staMacaddr ≠ macaddr ∧ other.staAssocid ≠ 0 ∧
            wifinetAid other.staAssocid = wifinetAid old.staAssocid) := by
  induction table generalizing bitmap count with
  | nil => cases found
  | cons head rest induction =>
    have later : (∃ other ∈ rest, other.staMacaddr ≠ macaddr ∧ other.staAssocid ≠ 0 ∧
        wifinetAid other.staAssocid = wifinetAid old.staAssocid) →
          ∃ other ∈ head :: rest, other.staMacaddr ≠ macaddr ∧ other.staAssocid ≠ 0 ∧
            wifinetAid other.staAssocid = wifinetAid old.staAssocid := by
      rintro ⟨other, member, holds⟩
      exact ⟨other, .tail _ member, holds⟩
    rw [Keyed.find_cons] at found
    rw [rebuildAids]
    by_cases skip : vmMainsta = some head.staMacaddr ∨ head.staAssocid = 0
    · simp only [if_pos skip]
      rw [Keyed.find_cons]
      by_cases here : head.staMacaddr = macaddr
      · rw [if_pos here] at found ⊢
        exact .inl found
      · rw [if_neg here] at found ⊢
        refine (induction bitmap count found).imp_right ?_
        exact And.imp_right (.imp_right (.imp_right (.imp_right later)))
    · simp only [if_neg skip]
      split
      · rename_i taken
        rw [Keyed.find_cons]
        by_cases here : head.staMacaddr = macaddr
        · rw [if_pos here] at found ⊢
          obtain rfl := Option.some.inj found
          exact .inr ⟨rfl, taken.imp_right (.imp_right .inl)⟩
        · rw [if_neg here] at found ⊢
          refine (induction bitmap count found).imp_right ?_
          exact And.imp_right (.imp_right (.imp_right (.imp_right later)))
      · rw [Keyed.find_cons]
        by_cases here : head.staMacaddr = macaddr
        · rw [if_pos here] at found ⊢
          exact .inl found
        · rw [if_neg here] at found ⊢
          refine (induction _ _ found).imp_right (And.imp_right (.imp_right (.imp_right ?_)))
          rintro (set | clash)
          · rcases isset_of_setbit set with same | before
            · exact .inr ⟨head, .head _, here, fun free => skip (.inr free), same.symm⟩
            · exact .inl before
          · exact .inr (later clash)

private theorem searchAid_find (found : ap.getSta macaddr = some old) :
    (searchAid ap).getSta macaddr = some old ∨
      (searchAid ap).getSta macaddr = some { old with staAssocid := 0 } ∧
        findAid ap = none ∧ IdClash ap old := by
  unfold searchAid
  split
  · exact .inl found
  · rename_i full
    have none : findAid ap = none := by simpa using full
    unfold wifiMacApRebuildAidState
    split
    · exact .inl found
    · refine .imp_right (And.imp_right fun clash => ⟨none, clash⟩) ?_
      refine (rebuildAids_find ap.tim.vmMaxAid ap.vmMainsta
        (List.replicate ap.vmAidBitmap.length 0) 0 found).imp_right (And.imp_right ?_)
      refine .imp_right (.imp_right ?_)
      rw [Keyed.key_of_find found]
      rintro (set | clash)
      · have empty : Pool.Kept 32 1 17 (List.replicate ap.vmAidBitmap.length 0) [] :=
          .none_held _
        exact absurd ((empty.bits _).mp set) List.not_mem_nil
      · exact clash

end Rebuild

section Connect

variable {ap : ApVif} {sta : ApSta} {names : Nat → Prop}

/-- Behind the search, a station that joins changes no other. -/
theorem SessionsKept.connect (env : JoinEnv)
    (other : ∀ macaddr, names macaddr → macaddr ≠ sta.staMacaddr) :
    SessionsKept ap (wifiMacStaConnect ap sta env).1 names ∨
      SessionsKept (searchAid ap) (wifiMacStaConnect ap sta env).1 names := by
  rcases wifiMacStaConnect_cases ap sta env with
    ⟨-, answers⟩ | ⟨-, -, refuses⟩ | ⟨-, aid, -, joins⟩
  · rw [answers]
    exact .inl (.answer env other)
  · rw [refuses]
    exact .inr (.disconnectFromAp env.leave other)
  · rw [joins]
    obtain ⟨frame, same⟩ := joinProtection_frame (grantAid (searchAid ap) sta aid).1
      (grantAid (searchAid ap) sta aid).2
    have joined : SessionsKept (searchAid ap) (joinProtection (grantAid (searchAid ap) sta aid).1
        (grantAid (searchAid ap) sta aid).2).1 names := .of_table frame.table
    refine .inr (joined.trans (.answer env fun macaddr named => ?_))
    rw [same.macaddr]
    exact other macaddr named

/-- A joining station leaves every other as it is, or takes an id from it that clashes, if none is
free. -/
theorem connect_find {macaddr : Nat} {old : ApSta} (env : JoinEnv)
    (found : ap.getSta macaddr = some old) (differ : macaddr ≠ sta.staMacaddr) :
    (∃ last, (wifiMacStaConnect ap sta env).1.getSta macaddr = some last ∧
        SameSession last old) ∨
      findAid ap = none ∧ IdClash ap old ∧
        ∃ last, (wifiMacStaConnect ap sta env).1.getSta macaddr = some last ∧
          SameSession last { old with staAssocid := 0 } := by
  have other : ∀ name, name = macaddr → name ≠ sta.staMacaddr := by
    rintro _ rfl
    exact differ
  rcases SessionsKept.connect env other with kept | behind
  · exact .inl (kept macaddr old rfl found)
  · rcases searchAid_find found with same | ⟨taken, full, clash⟩
    · exact .inl (behind macaddr old rfl same)
    · exact .inr ⟨full, clash, behind macaddr _ rfl taken⟩

end Connect

section Clash

variable {ap next : ApVif} {sta old : ApSta}

/-- Every station with an association id comes from one of the table before. -/
structure Holders (ap next : ApVif) : Prop where
  maxAid : next.tim.vmMaxAid = ap.tim.vmMaxAid
  bitmap : next.vmAidBitmap = ap.vmAidBitmap
  holder : ∀ sta ∈ next.ntNsta, sta.staAssocid ≠ 0 → ∃ old ∈ ap.ntNsta, SameHolder sta old

theorem Holders.trans {third : ApVif} (one : Holders ap next) (two : Holders next third) :
    Holders ap third where
  maxAid := two.maxAid.trans one.maxAid
  bitmap := two.bitmap.trans one.bitmap
  holder sta member assoc := by
    obtain ⟨middle, there, same⟩ := two.holder sta member assoc
    rw [same.associd] at assoc
    obtain ⟨old, here, before⟩ := one.holder middle there assoc
    exact ⟨old, here, same.trans before⟩

theorem Holders.put (fresh : sta.staAssocid = 0 ∨ ∃ old ∈ ap.ntNsta, SameHolder sta old) :
    Holders ap (ap.put sta) where
  maxAid := rfl
  bitmap := rfl
  holder other member assoc := by
    rcases Keyed.mem_replace member with rfl | ⟨present, -⟩
    · rcases fresh with free | known
      · exact absurd free assoc
      · exact known
    · exact ⟨other, present, SameHolder.refl other⟩

theorem Holders.markReassoc (ap : ApVif) (macaddr : Nat) :
    Holders ap (markReassoc ap macaddr) := by
  rcases markReassoc_cases ap macaddr with same | ⟨sta, found, changed⟩
  · rw [same]
    exact ⟨rfl, rfl, fun sta member _ => ⟨sta, member, SameHolder.refl sta⟩⟩
  · rw [changed]
    exact .put (.inr ⟨sta, Keyed.mem_of_find found, rfl, rfl⟩)

private theorem Holders.assocTarget (ap : ApVif) (macaddr : Nat) :
    Holders ap (assocTarget ap macaddr).1 := by
  have same : Holders ap ap :=
    ⟨rfl, rfl, fun sta member _ => ⟨sta, member, SameHolder.refl sta⟩⟩
  rcases assocTarget_cases ap macaddr with
    nowhere | ⟨-, ⟨sta, -, known⟩ | ⟨-, -, authSae, staRsn, placed⟩⟩
  · rw [nowhere]
    exact same
  · rw [known]
    exact same
  · rw [placed]
    refine ⟨rfl, rfl, fun sta member assoc => ?_⟩
    rcases List.mem_append.mp member with present | fresh
    · exact ⟨sta, present, SameHolder.refl sta⟩
    · rw [List.mem_singleton.mp fresh] at assoc
      exact absurd rfl assoc

private theorem Holders.clash (holders : Holders ap next) (same : SameHolder sta old)
    (clash : IdClash next sta) : IdClash ap old := by
  rw [IdClash, same.macaddr, same.associd, holders.maxAid] at clash
  refine clash.imp_right (.imp_right ?_)
  rintro ⟨other, member, differ, assoc, id⟩
  obtain ⟨before, present, holder⟩ := holders.holder other member assoc
  rw [holder.macaddr] at differ
  rw [holder.associd] at assoc id
  exact ⟨before, present, differ, assoc, id⟩

theorem AidKept.no_clash {leaked : List Nat} (kept : AidKept ap leaked) {macaddr : Nat}
    (found : ap.getSta macaddr = some old) (assoc : old.staAssocid ≠ 0) : ¬ IdClash ap old := by
  have split := held_perm (Keyed.perm_remove kept.distinct found)
  rw [held_cons, heldBy_some assoc] at split
  have member : wifinetAid old.staAssocid ∈ held ap.ntNsta :=
    split.mem_iff.mpr List.mem_cons_self
  obtain ⟨above, below⟩ := kept.pool.range _ (List.mem_append_left _ member)
  have single := split.nodup_iff.mp (List.nodup_append.mp kept.pool.distinct).1
  rintro (zero | large | ⟨other, present, differ, otherAssoc, id⟩)
  · omega
  · rw [kept.maxAid] at large
    omega
  · rw [Keyed.key_of_find found] at differ
    have rest : other ∈ Keyed.remove ApSta.staMacaddr ap.ntNsta macaddr :=
      Keyed.mem_remove.mpr ⟨present, differ⟩
    have twice : wifinetAid old.staAssocid ∈
        held (Keyed.remove ApSta.staMacaddr ap.ntNsta macaddr) :=
      mem_held.mpr ⟨other, rest, otherAssoc, id⟩
    exact (List.nodup_cons.mp single).1 twice

end Clash

/-- The station of a request is in the table under the name of the sender. -/
theorem assocTarget_found {ap next : ApVif} {macaddr : Nat} {target : ApSta}
    (place : assocTarget ap macaddr = (next, some target)) :
    next.getSta macaddr = some target ∧ target.staMacaddr = macaddr := by
  rcases assocTarget_cases ap macaddr with
    nowhere | ⟨-, ⟨sta, found, known⟩ | ⟨absent, -, authSae, staRsn, placed⟩⟩
  · rw [place] at nowhere
    cases nowhere
  · rw [place] at known
    cases known
    exact ⟨found, Keyed.key_of_find found⟩
  · rw [place] at placed
    cases placed
    refine ⟨?_, rfl⟩
    rw [ApVif.getSta, Keyed.find] at absent
    rw [ApVif.getSta, Keyed.find, List.find?_append, absent, Option.none_or]
    simp [freshSta, newSta]

/-- A request that is dropped or answered with a failure leaves every associated station as it was,
unless it is the sender, which a refusal disconnects, or the request of another sender finds no
association id, and that of the station clashes. -/
def RequestSpares (conf : AssocConf) (ap : ApVif) (frame : AssocFrame) (env : JoinEnv) : Prop :=
  (wifiMacRecvAssocReq conf ap frame env).2 ≠ .accepted →
    ∀ macaddr old, ap.getSta macaddr = some old → old.staAssocid ≠ 0 →
      (∃ sta, (wifiMacRecvAssocReq conf ap frame env).1.getSta macaddr = some sta ∧
        SameSession sta old) ∨
      (macaddr = frame.addr2 ∧
        (∃ status, (wifiMacRecvAssocReq conf ap frame env).2 = .refused status) ∧
        (wifiMacRecvAssocReq conf ap frame env).1.getSta macaddr = none) ∨
      (macaddr ≠ frame.addr2 ∧ findAid ap = none ∧ IdClash ap old ∧
        ∃ sta, (wifiMacRecvAssocReq conf ap frame env).1.getSta macaddr = some sta ∧
          SameSession sta { old with staAssocid := 0 })

theorem requestSpares (conf : AssocConf) (ap : ApVif) (frame : AssocFrame) (env : JoinEnv) :
    RequestSpares conf ap frame env := by
  intro rejected macaddr old found assoc
  have mark : ∀ names, SessionsKept ap (markReassoc ap frame.addr2) names :=
    fun names => .markReassoc ap frame.addr2
  have asked : ∀ names, SessionsKept ap
      (assocTarget (markReassoc ap frame.addr2) frame.addr2).1 names :=
    fun names => (mark names).trans (.assocTarget _ frame.addr2)
  have holders : Holders ap (assocTarget (markReassoc ap frame.addr2) frame.addr2).1 :=
    (Holders.markReassoc ap frame.addr2).trans (.assocTarget _ frame.addr2)
  rcases wifiMacRecvAssocReq_cases conf ap frame env with
    ⟨-, drops | drops | ⟨next, place, drops⟩⟩ | ⟨mainsta, next, target, -, place, ways⟩
  · rw [drops]
    exact .inl ⟨old, found, rfl⟩
  · rw [drops]
    exact .inl (mark (· = macaddr) macaddr old rfl found)
  · rw [drops]
    rw [place] at asked
    exact .inl (asked (· = macaddr) macaddr old rfl found)
  · rw [place] at asked holders
    obtain ⟨here, name⟩ := assocTarget_found place
    have same := (assocStation_same conf next mainsta frame target).toSameHolder
    rcases ways with ⟨status, refused, verdict, refuses⟩ | ⟨accepted, -, -, updates⟩ |
      ⟨accepted, verdict, free, joins⟩
    · rw [verdict] at same
      have sender : refused.staMacaddr = frame.addr2 := same.macaddr.trans name
      rw [refuses]
      by_cases own : macaddr = frame.addr2
      · refine .inr (.inl ⟨own, ⟨status, rfl⟩, ?_⟩)
        rw [own, ← sender]
        exact disconnectFromAp_gone next refused env.leave
      · have others : SessionsKept next (wifiMacStaDisconnectFromAp next refused env.leave)
            (· ≠ frame.addr2) := .disconnectFromAp env.leave fun _ differ => by rwa [sender]
        exact .inl ((asked (· ≠ frame.addr2)).trans others macaddr old own found)
    · rw [updates] at rejected
      exact absurd rfl rejected
    · rw [verdict] at same
      replace same : SameHolder accepted target := same
      have sender : accepted.staMacaddr = frame.addr2 := same.macaddr.trans name
      -- a sender that has an association id does not come this far
      have own : macaddr ≠ frame.addr2 := by
        rintro rfl
        obtain ⟨sta, there, session⟩ := asked (· = frame.addr2) _ old rfl found
        obtain rfl := Option.some.inj (there.symm.trans here)
        rw [SameSession] at session
        rw [same.associd, session] at free
        exact assoc free
      have written : SessionsKept next (next.put accepted) (· ≠ frame.addr2) :=
        .put fun _ differ => by rwa [sender]
      obtain ⟨asking, there, session⟩ :=
        (asked (· ≠ frame.addr2)).trans written macaddr old own found
      rw [joins]
      rcases connect_find env there (sender ▸ own) with
        ⟨last, kept, again⟩ | ⟨full, clash, last, kept, again⟩
      · refine .inl ⟨last, kept, ?_⟩
        rw [SameSession] at session again ⊢
        rw [again, session]
      · have before : Holders ap (next.put accepted) := holders.trans (.put (.inl free))
        refine .inr (.inr ⟨own, ?_, ?_, last, kept, ?_⟩)
        · rwa [findAid, before.maxAid, before.bitmap] at full
        · have holder : SameHolder asking old := by
            rw [SameSession] at session
            rw [session]
            exact ⟨rfl, rfl⟩
          exact before.clash holder clash
        · rw [SameSession] at session again ⊢
          rw [again, session]

/-- A request that is not accepted, in a state without clashes: all sessions stay, or the sender is
refused and its session ends. -/
def RequestKeeps (conf : AssocConf) (ap : ApVif) (frame : AssocFrame) (env : JoinEnv) : Prop :=
  (wifiMacRecvAssocReq conf ap frame env).2 ≠ .accepted →
    ∀ macaddr old, ap.getSta macaddr = some old → old.staAssocid ≠ 0 →
      (∃ sta, (wifiMacRecvAssocReq conf ap frame env).1.getSta macaddr = some sta ∧
        SameSession sta old) ∨
      (macaddr = frame.addr2 ∧
        (∃ status, (wifiMacRecvAssocReq conf ap frame env).2 = .refused status) ∧
        (wifiMacRecvAssocReq conf ap frame env).1.getSta macaddr = none)

private theorem AidKept.requestKeeps {ap : ApVif} {leaked : List Nat} (kept : AidKept ap leaked)
    (conf : AssocConf) (frame : AssocFrame) (env : JoinEnv) : RequestKeeps conf ap frame env := by
  intro rejected macaddr old found assoc
  rcases requestSpares conf ap frame env rejected macaddr old found assoc with
    same | refused | ⟨-, -, clash, -⟩
  · exact .inl same
  · exact .inr refused
  · exact absurd clash (kept.no_clash found assoc)

private theorem run_kept (start : ApStart) (events : List RadioEvent) :
    ∃ leaked, AidKept (Machine.run radioStep (apInit start) events) leaked := by
  have kept : ∀ (ap : ApVif) (event : RadioEvent), (∃ leaked, AidKept ap leaked) →
      ∃ leaked, AidKept (radioStep ap event) leaked := by
    rintro ap event ⟨leaked, kept⟩
    exact kept.radioStep event
  exact Machine.run_invariant kept events ⟨[], (taskInit_settled start).kept⟩

/-- A request that is not accepted leaves the sessions of all stations, but for that of a sender it
refuses and an association id that clashes, and no run of the radio leads to ids that clash. -/
theorem sessions_kept :
    (∀ conf ap frame env, RequestSpares conf ap frame env) ∧
      ∀ (start : ApStart) (events : List RadioEvent) conf frame env,
        RequestKeeps conf (Machine.run radioStep (apInit start) events) frame env := by
  refine ⟨requestSpares, fun start events conf frame env => ?_⟩
  obtain ⟨leaked, kept⟩ := run_kept start events
  exact kept.requestKeeps conf frame env

/-- An associated station whose second request lacks the mark of an infrastructure network is no
longer in the table. -/
theorem refused_sender_leaves : ¬ ∀ (start : ApStart) (events : List RadioEvent) conf frame env,
    (wifiMacRecvAssocReq conf (Machine.run radioStep (apInit start) events) frame env).2 ≠
        .accepted →
      ∀ macaddr old,
        (Machine.run radioStep (apInit start) events).getSta macaddr = some old →
          old.staAssocid ≠ 0 →
            ∃ sta, (wifiMacRecvAssocReq conf (Machine.run radioStep (apInit start) events) frame
                env).1.getSta macaddr = some sta ∧ SameSession sta old := by
  intro keeps
  have stays : ∀ {before behind : Option ApSta}, (∀ old, before = some old → old.staAssocid ≠ 0 →
      ∃ sta, behind = some sta ∧ SameSession sta old) →
        before.any (·.staAssocid != 0) = true → behind.isSome = true := by
    intro before behind same there
    obtain ⟨old, found, assoc⟩ := (Option.any_eq_true _ _).mp there
    obtain ⟨sta, here, -⟩ := same old found (by simpa using assoc)
    rw [here, Option.isSome_some]
  have here := stays (keeps
    ⟨2, 7, 1, 100, noRsn, [2], false, false, true, true, false, true, 1, false⟩
    [.now (.auth 4),
      .now (.assocReq ⟨true, false, false, false, 2, [], [2], [], none, false, false, false, false,
        0⟩ ⟨false, 4, 2, [1, 0, 1, 0, 1, 1, 2]⟩ ⟨true, false, false, false⟩)]
    ⟨true, false, false, false, 2, [], [2], [], none, false, false, false, false, 0⟩
    ⟨false, 4, 2, [0, 0, 1, 0, 1, 1, 2]⟩ ⟨true, false, false, false⟩ (by decide +kernel) 4)
    (by decide +kernel)
  revert here
  decide +kernel

end W522a.Ap
