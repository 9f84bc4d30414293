import W522a.Ap.Aid

/-!
When the association ids of an access point are in order: what is held, what the bitmap says and what
is counted agree until a station that holds one is taken out of the table without giving it up.
-/

namespace W522a.Ap

/-- The order of the association ids: the stations hold different ones of the range, the bitmap has
the bits of those that are held, and they are counted. -/
structure AidDiscipline (ap : ApVif) : Prop where
  distinct : ∀ first ∈ ap.ntNsta, ∀ second ∈ ap.ntNsta, first.staAssocid ≠ 0 →
    second.staAssocid ≠ 0 → wifinetAid first.staAssocid = wifinetAid second.staAssocid →
    first = second
  range : ∀ sta ∈ ap.ntNsta, sta.staAssocid ≠ 0 →
    1 ≤ wifinetAid sta.staAssocid ∧ wifinetAid sta.staAssocid < ap.tim.vmMaxAid
  bits : ∀ aid, Bitmap.isset 32 ap.vmAidBitmap aid = true ↔
    ∃ sta ∈ ap.ntNsta, sta.staAssocid ≠ 0 ∧ wifinetAid sta.staAssocid = aid
  counted : ap.vmStaAssoc = ap.ntNsta.countP (·.staAssocid ≠ 0)

theorem length_held (table : List ApSta) :
    (held table).length = table.countP (·.staAssocid ≠ 0) := by
  induction table with
  | nil => rfl
  | cons sta rest induction =>
    rw [held_cons, List.length_append, induction, List.countP_cons]
    by_cases free : sta.staAssocid = 0
    · simp [heldBy_none free, free]
    · simp [heldBy_some free, free, Nat.add_comm]

section Order

variable {ap : ApVif} {leaked : List Nat}

/-- The association ids of a kept pool are in order exactly when none leaked and the count is
right. -/
theorem AidKept.discipline_iff (kept : AidKept ap leaked) :
    AidDiscipline ap ↔ leaked = [] ∧ Counted ap := by
  obtain ⟨distinct, -, maxAid, -, -, pool⟩ := kept
  constructor
  · intro order
    refine ⟨List.eq_nil_iff_forall_not_mem.mpr fun aid lost => ?_, ?_⟩
    · obtain ⟨sta, member, assoc, same⟩ :=
        (order.bits aid).mp ((pool.bits aid).mpr (List.mem_append_right _ lost))
      have twice := List.disjoint_of_nodup_append pool.distinct
      exact twice (mem_held.mpr ⟨sta, member, assoc, same⟩) lost
    · rw [Counted, length_held]
      exact order.counted
  · rintro ⟨rfl, counted⟩
    rw [List.append_nil] at pool
    refine ⟨?_, ?_, fun aid => (pool.bits aid).trans mem_held, ?_⟩
    · intro first member second other one two same
      by_contra differ
      have split := Keyed.perm_remove distinct (Keyed.find_of_mem distinct member)
      have rest : second ∈ Keyed.remove ApSta.staMacaddr ap.ntNsta first.staMacaddr := by
        rcases List.mem_cons.mp (split.mem_iff.mp other) with here | later
        · exact absurd here.symm differ
        · exact later
      have nodup := (held_perm split).nodup_iff.mp pool.distinct
      rw [held_cons, heldBy_some one] at nodup
      exact (List.nodup_cons.mp nodup).1 (mem_held.mpr ⟨second, rest, two, same.symm⟩)
    · intro sta member assoc
      rw [maxAid]
      exact pool.range _ (mem_held.mpr ⟨sta, member, assoc, rfl⟩)
    · rw [← length_held]
      exact counted

end Order

section Request

variable {ap : ApVif} {leaked : List Nat} {macaddr : Nat} {sta : ApSta}

theorem AidKept.markReassoc (kept : AidKept ap leaked) (macaddr : Nat) :
    AidStep ap leaked (markReassoc ap macaddr) ∧
      (Ap.markReassoc ap macaddr).vmMainsta = ap.vmMainsta := by
  unfold Ap.markReassoc
  cases found : wifiMacFindTxSta ap macaddr with
  | none => exact ⟨kept.refl, rfl⟩
  | some sta => exact ⟨kept.put (findTxSta_found found) ⟨rfl, rfl⟩, rfl⟩

/-- The station that a request or an authentication frame gives a place in the table. -/
structure Placed (ap : ApVif) (leaked : List Nat) (macaddr : Nat) (next : ApVif)
    (sta : Option ApSta) : Prop where
  step : AidStep ap leaked next
  main : next.vmMainsta = ap.vmMainsta
  found : ∀ placed, sta = some placed → next.getSta macaddr = some placed
  named : ∀ placed, sta = some placed → placed.staMacaddr = macaddr

theorem Placed.nowhere (kept : AidKept ap leaked) : Placed ap leaked macaddr ap none :=
  ⟨kept.refl, rfl, fun _ absurdity => (nomatch absurdity), fun _ absurdity => (nomatch absurdity)⟩

theorem AidKept.getStaNode (kept : AidKept ap leaked) (macaddr : Nat) :
    Placed ap leaked macaddr (wifiMacGetStaNode ap macaddr).1
      (wifiMacGetStaNode ap macaddr).2 := by
  unfold wifiMacGetStaNode
  by_cases inited : ap.ntInited = true
  · rw [if_neg (by simp [inited])]
    cases found : ap.getSta macaddr with
    | some sta =>
      refine ⟨kept.refl, rfl, ?_, ?_⟩
      · rintro placed ⟨⟩
        exact found
      · rintro placed ⟨⟩
        exact Keyed.key_of_find found
    | none =>
      have step := kept.concat (newSta macaddr) found rfl inited
      refine ⟨step, rfl, ?_, ?_⟩
      · rintro placed ⟨⟩
        exact Keyed.find_of_mem step.kept.distinct (List.mem_append_right _ (List.mem_singleton_self _))
      · rintro placed ⟨⟩
        rfl
  · rw [if_pos (by simpa using inited)]
    exact Placed.nowhere kept

theorem Placed.put {next : ApVif} {placed : ApSta}
    (place : Placed ap leaked macaddr next (some placed)) (same : SameHolder sta placed) :
    Placed ap leaked macaddr (next.put sta) (some sta) := by
  have found := place.found placed rfl
  have name : sta.staMacaddr = macaddr := same.macaddr.trans (place.named placed rfl)
  refine ⟨place.step.trans (place.step.kept.put (getSta_self found) same), place.main, ?_, ?_⟩
  · rintro other ⟨⟩
    rw [← name]
    refine getSta_put ?_
    rw [name, found]
    exact Option.some_ne_none placed
  · rintro other ⟨⟩
    exact name

theorem AidKept.bupBss (kept : AidKept ap leaked) (macaddr : Nat) :
    Placed ap leaked macaddr (wifiMacBupBss ap macaddr).1 (wifiMacBupBss ap macaddr).2 := by
  unfold wifiMacBupBss
  cases main : ap.vmMainsta.bind ap.getSta with
  | none =>
    exact Placed.nowhere kept
  | some mainsta =>
    have place := kept.getStaNode macaddr
    cases node : wifiMacGetStaNode ap macaddr with
    | mk next placed =>
      rw [node] at place
      cases placed with
      | none => exact place
      | some sta => exact place.put ⟨rfl, rfl⟩

theorem AidKept.assocTarget (kept : AidKept ap leaked) (macaddr : Nat) :
    Placed ap leaked macaddr (assocTarget ap macaddr).1 (assocTarget ap macaddr).2 ∧
      ((Ap.assocTarget ap macaddr).2 ≠ none → ap.vmMainsta ≠ some macaddr) := by
  unfold Ap.assocTarget
  by_cases main : ap.vmMainsta = some macaddr
  · rw [if_pos main]
    exact ⟨Placed.nowhere kept, fun none => absurd rfl none⟩
  · rw [if_neg main]
    refine ⟨?_, fun _ => main⟩
    cases found : ap.getSta macaddr with
    | some sta =>
      refine ⟨kept.refl, rfl, ?_, ?_⟩
      · rintro placed ⟨⟩
        exact found
      · rintro placed ⟨⟩
        exact Keyed.key_of_find found
    | none =>
      have place := kept.bupBss macaddr
      cases node : wifiMacBupBss ap macaddr with
      | mk next placed =>
        rw [node] at place
        cases placed with
        | none => exact place
        | some sta => exact place.put ⟨rfl, rfl⟩

/-- A request keeps the pool, and it is turned down for want of an association id only when the
stations hold them all. -/
theorem AidKept.recvAssocReq (kept : AidKept ap leaked) (conf : AssocConf) (frame : AssocFrame)
    (env : JoinEnv) :
    AidTidy ap leaked (wifiMacRecvAssocReq conf ap frame env).1 ∧
      ((wifiMacRecvAssocReq conf ap frame env).2 = .toomany →
        ∀ aid, 1 ≤ aid → aid < 17 → aid ∈ held ap.ntNsta) := by
  obtain ⟨marked, mainMarked⟩ := kept.markReassoc frame.addr2
  obtain ⟨placed, notMain⟩ := marked.kept.assocTarget frame.addr2
  rcases wifiMacRecvAssocReq_cases conf ap frame env with
    ⟨-, drops | drops | ⟨next, place, drops⟩⟩ | ⟨mainsta, next, target, -, place, ways⟩
  · rw [drops]
    exact ⟨kept.refl.tidy, fun absurdity => nomatch absurdity⟩
  · rw [drops]
    exact ⟨marked.tidy, fun absurdity => nomatch absurdity⟩
  · rw [place] at placed
    rw [drops]
    exact ⟨(marked.trans placed.step).tidy, fun absurdity => nomatch absurdity⟩
  · rw [place] at placed notMain
    have found := placed.found target rfl
    have name := placed.named target rfl
    have same := (assocStation_same conf next mainsta frame target).toSameHolder
    rcases ways with ⟨status, refused, verdict, refuses⟩ | ⟨accepted, verdict, -, updates⟩ |
      ⟨accepted, verdict, free, joins⟩
    · rw [refuses]
      rw [verdict] at same
      refine ⟨(marked.trans placed.step).andThen ?_, fun absurdity => nomatch absurdity⟩
      exact placed.step.kept.disconnectFromAp (getSta_self found) same env.leave
    · rw [updates]
      rw [verdict] at same
      refine ⟨((marked.trans placed.step).trans ?_).tidy, fun absurdity => nomatch absurdity⟩
      exact placed.step.kept.put (getSta_self found) same
    · rw [joins]
      rw [verdict] at same
      replace same : SameHolder accepted target := same
      have written := placed.step.kept.put (getSta_self found) same
      have before := (marked.trans placed.step).trans written
      have here : (next.put accepted).getSta accepted.staMacaddr = some accepted := by
        refine getSta_put ?_
        rw [same.macaddr, name, found]
        exact Option.some_ne_none target
      have other : (next.put accepted).vmMainsta ≠ some accepted.staMacaddr := by
        rw [show (next.put accepted).vmMainsta = next.vmMainsta from rfl, placed.main,
          same.macaddr, name]
        exact notMain (Option.some_ne_none target)
      refine ⟨before.andThen (written.kept.connect here other env), fun full aid above below => ?_⟩
      refine before.holds.mem_iff.mp ?_
      rcases wifiMacStaConnect_cases (next.put accepted) accepted env with
        ⟨assoc, -⟩ | ⟨-, none, -⟩ | ⟨-, aid, -, answers⟩
      · exact absurd free assoc
      · exact written.kept.search_full (written.kept.tableInited here) none above below
      · rw [answers] at full
        exact absurd full (answerAssoc_answer _ _ env)

end Request

section Timeout

variable {ap : ApVif} {leaked : List Nat}

/-- A station that `wifi_mac_TimeoutStations` takes out of the table. -/
def timesOut (vmMainsta : Option Nat) (jiffies hz : Nat) (sta : ApSta) : Bool :=
  sta.nodeAref && decide (sta.staRstamp + 5 * hz ≤ jiffies) &&
    decide (vmMainsta ≠ some sta.staMacaddr) && decide (sta.staInact ≤ 1)

theorem ageFrames_same (tim : TimVif) (sta : ApSta) :
    SameRules (ageFrames tim sta).2 sta ∧ (ageFrames tim sta).1.vmMaxAid = tim.vmMaxAid := by
  unfold ageFrames
  split
  · exact ⟨SameRules.refl sta, rfl⟩
  · dsimp only
    split
    · exact ⟨⟨⟨rfl, rfl⟩, rfl, rfl, rfl, rfl, rfl, rfl⟩, wifiMacPwrsaveSetTim_maxAid _ _ _⟩
    · exact ⟨⟨⟨rfl, rfl⟩, rfl, rfl, rfl, rfl, rfl, rfl⟩, rfl⟩

/-- A station is passed by, or its frames age, and then it is taken out or stays. -/
theorem timeoutStation_cases (vmMainsta : Option Nat) (jiffies hz : Nat) (tim : TimVif)
    (sta : ApSta) :
    (timesOut vmMainsta jiffies hz sta = false ∧
      timeoutStation vmMainsta jiffies hz tim sta = (tim, some sta)) ∨
    (timesOut vmMainsta jiffies hz sta = true ∧
      timeoutStation vmMainsta jiffies hz tim sta = ((ageFrames tim sta).1, none)) ∨
    (timesOut vmMainsta jiffies hz sta = false ∧
      ∃ inact, timeoutStation vmMainsta jiffies hz tim sta =
        ((ageFrames tim sta).1, some { (ageFrames tim sta).2 with staInact := inact })) := by
  unfold timeoutStation timesOut
  by_cases aref : sta.nodeAref = true
  · rw [if_neg (by simp [aref])]
    dsimp only
    by_cases young : jiffies < sta.staRstamp + 5 * hz
    · rw [if_pos young]
      exact Or.inr (Or.inr ⟨by simp [young], (ageFrames tim sta).2.staInact, rfl⟩)
    · rw [if_neg young]
      by_cases main : vmMainsta = some sta.staMacaddr
      · rw [if_pos main]
        exact Or.inr (Or.inr ⟨by simp [main],
          if 0 < sta.staInact then sta.staInact - 1 else sta.staInact, rfl⟩)
      · rw [if_neg main]
        by_cases late : sta.staInact - 1 ≤ 0
        · rw [if_pos late]
          refine Or.inr (Or.inl ⟨?_, rfl⟩)
          simp only [aref, main, ne_eq, not_false_eq_true, decide_true, Bool.and_true,
            Bool.true_and, Bool.and_eq_true, decide_eq_true_eq]
          omega
        · rw [if_neg late]
          refine Or.inr (Or.inr ⟨?_, sta.staInact - 1, rfl⟩)
          rw [Bool.and_eq_false_iff]
          right
          rw [decide_eq_false_iff_not]
          omega
  · rw [if_pos (by simpa using aref)]
    exact Or.inl ⟨by simp [aref], rfl⟩

/-- The stations that stay in the table hold what they held, and are treated as they were. -/
theorem timeoutLoop_stays (vmMainsta : Option Nat) (jiffies hz : Nat) (tim : TimVif)
    (table : List ApSta) :
    (timeoutLoop vmMainsta jiffies hz tim table).1.vmMaxAid = tim.vmMaxAid ∧
      List.Forall₂ SameRules (timeoutLoop vmMainsta jiffies hz tim table).2
        (table.filter fun sta => !timesOut vmMainsta jiffies hz sta) := by
  induction table generalizing tim with
  | nil => exact ⟨rfl, List.Forall₂.nil⟩
  | cons sta rest induction =>
    obtain ⟨aged, maxAid⟩ := ageFrames_same tim sta
    rw [timeoutLoop]
    rcases timeoutStation_cases vmMainsta jiffies hz tim sta with
      ⟨young, idle⟩ | ⟨late, gone⟩ | ⟨young, inact, kept⟩
    · rw [List.filter_cons_of_pos (by simp [young]), idle]
      obtain ⟨restMaxAid, stay⟩ := induction tim
      exact ⟨restMaxAid, stay.cons (SameRules.refl sta)⟩
    · rw [List.filter_cons_of_neg (by simp [late]), gone]
      obtain ⟨restMaxAid, stay⟩ := induction (ageFrames tim sta).1
      exact ⟨restMaxAid.trans maxAid, stay⟩
    · rw [List.filter_cons_of_pos (by simp [young]), kept]
      obtain ⟨restMaxAid, stay⟩ := induction (ageFrames tim sta).1
      refine ⟨restMaxAid.trans maxAid, stay.cons (SameRules.trans ?_ aged)⟩
      exact ⟨⟨rfl, rfl⟩, rfl, rfl, rfl, rfl, rfl, rfl⟩

private theorem held_congr {table other : List ApSta} (same : List.Forall₂ SameHolder table other) :
    held table = held other ∧
      table.map ApSta.staMacaddr = other.map ApSta.staMacaddr := by
  induction same with
  | nil => exact ⟨rfl, rfl⟩
  | cons head _ induction =>
    rw [held_cons, held_cons, heldBy_congr head.associd, induction.1, List.map_cons, List.map_cons,
      head.macaddr, induction.2]
    exact ⟨rfl, rfl⟩

theorem exists_same {relation : ApSta → ApSta → Prop} {table other : List ApSta} {sta : ApSta}
    (same : List.Forall₂ relation table other) (member : sta ∈ table) :
    ∃ old ∈ other, relation sta old := by
  induction same with
  | nil => exact absurd member List.not_mem_nil
  | cons head _ induction =>
    rcases List.mem_cons.mp member with rfl | later
    · exact ⟨_, List.mem_cons_self, head⟩
    · obtain ⟨old, found, holder⟩ := induction later
      exact ⟨old, List.mem_cons_of_mem _ found, holder⟩

/-- What the stations held that are taken out leaks. -/
theorem AidKept.timeout (kept : AidKept ap leaked) (jiffies hz : Nat) :
    AidKept (wifiMacTimeoutStations ap jiffies hz)
        (held (ap.ntNsta.filter (timesOut ap.vmMainsta jiffies hz)) ++ leaked) ∧
      (wifiMacTimeoutStations ap jiffies hz).vmStaAssoc = ap.vmStaAssoc ∧
      held (wifiMacTimeoutStations ap jiffies hz).ntNsta =
        held (ap.ntNsta.filter fun sta => !timesOut ap.vmMainsta jiffies hz sta) := by
  obtain ⟨maxAid, stays⟩ := timeoutLoop_stays ap.vmMainsta jiffies hz ap.tim ap.ntNsta
  obtain ⟨holds, names⟩ := held_congr (stays.imp fun _ _ same => same.toSameHolder)
  have parts := held_perm (List.filter_append_perm (timesOut ap.vmMainsta jiffies hz) ap.ntNsta)
  rw [held_append] at parts
  refine ⟨⟨?_, kept.word, maxAid.trans kept.maxAid, ?_, ?_, ?_⟩, rfl, holds⟩
  · rw [Keyed.Distinct]
    simp only [wifiMacTimeoutStations, names]
    exact List.Nodup.sublist (List.filter_sublist.map _) kept.distinct
  · intro sta member main
    obtain ⟨old, before, same⟩ := exists_same stays member
    rw [same.associd]
    rw [same.macaddr] at main
    exact kept.main old (List.mem_of_mem_filter before) main
  · intro gone
    have empty := kept.inited gone
    simp only [wifiMacTimeoutStations, empty]
    rfl
  · simp only [wifiMacTimeoutStations, holds]
    refine kept.pool.perm ?_
    rw [← List.append_assoc]
    exact (parts.symm.trans List.perm_append_comm).append_right leaked

end Timeout

section Reset

variable {ap : ApVif} {leaked : List Nat} {sta : ApSta}

/-- A station gives up its bit and is taken out of the table, but not uncounted. -/
theorem AidKept.clear (kept : AidKept ap leaked) (found : ap.getSta sta.staMacaddr = some sta)
    (lacksMemory : Bool) :
    AidKept (wifiMacFreeSta ((clearAid ap sta).listDel sta.staMacaddr) sta lacksMemory) leaked ∧
      (wifiMacFreeSta ((clearAid ap sta).listDel sta.staMacaddr) sta lacksMemory).vmStaAssoc =
        ap.vmStaAssoc := by
  obtain ⟨hand, -⟩ := kept.take found (SameHolder.refl sta)
  have pool := hand.pool
  have main : ∀ other ∈ Keyed.remove ApSta.staMacaddr ap.ntNsta sta.staMacaddr,
      ap.vmMainsta = some other.staMacaddr → other.staAssocid = 0 := fun other member =>
    kept.main other (Keyed.mem_remove.mp member).1
  have inited : ap.ntInited = false →
      Keyed.remove ApSta.staMacaddr ap.ntNsta sta.staMacaddr = [] := fun gone =>
    absurd hand.inited (by simp [gone])
  have frame := wifiMacFreeSta_frame ((clearAid ap sta).listDel sta.staMacaddr) sta lacksMemory
  have cleared : AidKept ((clearAid ap sta).listDel sta.staMacaddr) leaked ∧
      ((clearAid ap sta).listDel sta.staMacaddr).vmStaAssoc = ap.vmStaAssoc := by
    unfold clearAid
    by_cases free : sta.staAssocid = 0
    · rw [if_pos free]
      rw [heldBy_none free, List.nil_append] at pool
      exact ⟨⟨kept.distinct.remove _, kept.word, kept.maxAid, main, inited, pool⟩, rfl⟩
    · rw [if_neg free]
      rw [heldBy_some free] at pool
      refine ⟨⟨kept.distinct.remove _, ?_, kept.maxAid, main, inited, ?_⟩, rfl⟩
      · exact Bitmap.length_clrbit.trans kept.word
      · exact pool.release (by decide)
  exact ⟨(cleared.1.frame frame).kept, frame.assoc.trans cleared.2⟩

/-- The loop of a reset takes the stations out, one after the other, and counts none of them down. -/
theorem tableRstLoop_kept (rstMainsta : Bool) (lacks : List Nat) {todo : List ApSta}
    (kept : AidKept ap leaked)
    (present : ∀ sta ∈ todo, ap.getSta sta.staMacaddr = some sta)
    (distinct : Keyed.Distinct ApSta.staMacaddr todo) :
    AidKept (tableRstLoop rstMainsta lacks ap todo) leaked ∧
      (tableRstLoop rstMainsta lacks ap todo).vmStaAssoc = ap.vmStaAssoc ∧
      ∀ sta ∈ (tableRstLoop rstMainsta lacks ap todo).ntNsta, sta ∈ ap.ntNsta ∧
        (sta.staMacaddr ∉ todo.map ApSta.staMacaddr ∨
          (rstMainsta = false ∧ ap.vmMainsta = some sta.staMacaddr)) := by
  induction todo generalizing ap with
  | nil => exact ⟨kept, rfl, fun sta member => ⟨member, Or.inl List.not_mem_nil⟩⟩
  | cons sta rest induction =>
    have found := present sta List.mem_cons_self
    obtain ⟨fresh, later⟩ := List.nodup_cons.mp distinct
    have main : (clearAid ap sta).vmMainsta = ap.vmMainsta := by
      unfold clearAid
      split <;> rfl
    rw [tableRstLoop]
    by_cases stays : ap.vmMainsta = some sta.staMacaddr ∧ rstMainsta = false
    · have free := kept.main sta (Keyed.mem_of_find found) stays.1
      rw [main, if_pos stays, clearAid, if_pos free]
      obtain ⟨after, counted, members⟩ := induction kept
        (fun other member => present other (List.mem_cons_of_mem _ member)) later
      refine ⟨after, counted, fun other member => ?_⟩
      obtain ⟨before, absent | main⟩ := members other member
      · refine ⟨before, ?_⟩
        by_cases same : other.staMacaddr = sta.staMacaddr
        · exact Or.inr ⟨stays.2, same ▸ stays.1⟩
        · refine Or.inl ?_
          rw [List.map_cons, List.mem_cons]
          exact not_or.mpr ⟨same, absent⟩
      · exact ⟨before, Or.inr main⟩
    · rw [main, if_neg stays]
      obtain ⟨cleared, uncounted⟩ := kept.clear found (lacks.contains sta.staMacaddr)
      have frame := wifiMacFreeSta_frame ((clearAid ap sta).listDel sta.staMacaddr) sta
        (lacks.contains sta.staMacaddr)
      have same : (clearAid ap sta).ntNsta = ap.ntNsta := by
        unfold clearAid
        split <;> rfl
      have table : (wifiMacFreeSta ((clearAid ap sta).listDel sta.staMacaddr) sta
          (lacks.contains sta.staMacaddr)).ntNsta =
          Keyed.remove ApSta.staMacaddr ap.ntNsta sta.staMacaddr := by
        rw [frame.table, ApVif.listDel, same]
      obtain ⟨after, counted, members⟩ := induction cleared
        (fun other member => by
          rw [ApVif.getSta, table, Keyed.find_remove]
          · exact present other (List.mem_cons_of_mem _ member)
          · intro twice
            exact fresh (twice ▸ List.mem_map_of_mem member)) later
      refine ⟨after, counted.trans uncounted, fun other member => ?_⟩
      obtain ⟨before, absent | left⟩ := members other member
      · rw [table] at before
        obtain ⟨there, differ⟩ := Keyed.mem_remove.mp before
        refine ⟨there, Or.inl ?_⟩
        rw [List.map_cons, List.mem_cons]
        exact not_or.mpr ⟨differ, absent⟩
      · rw [table] at before
        refine ⟨(Keyed.mem_remove.mp before).1, Or.inr ⟨left.1, ?_⟩⟩
        have known := frame.main _ left.2
        rwa [ApVif.listDel, main] at known

/-- After a reset of the table no station holds an association id, and none is uncounted. -/
theorem AidKept.tableRst (kept : AidKept ap leaked) (rstMainsta : Bool) (lacks : List Nat) :
    AidKept (wifiMacStaTableRst ap rstMainsta lacks) leaked ∧
      (wifiMacStaTableRst ap rstMainsta lacks).vmStaAssoc = ap.vmStaAssoc ∧
      (∀ sta ∈ (wifiMacStaTableRst ap rstMainsta lacks).ntNsta, sta.staAssocid = 0) ∧
      (rstMainsta = true → (wifiMacStaTableRst ap rstMainsta lacks).ntNsta = []) := by
  obtain ⟨after, counted, members⟩ := tableRstLoop_kept rstMainsta lacks kept
    (fun sta member => Keyed.find_of_mem kept.distinct member) kept.distinct
  have left : ∀ sta ∈ (wifiMacStaTableRst ap rstMainsta lacks).ntNsta,
      sta ∈ ap.ntNsta ∧ rstMainsta = false ∧ ap.vmMainsta = some sta.staMacaddr := by
    intro sta member
    obtain ⟨before, absent | main⟩ := members sta member
    · exact absurd (List.mem_map_of_mem before) absent
    · exact ⟨before, main⟩
  refine ⟨after, counted, fun sta member => ?_, fun all => ?_⟩
  · exact kept.main sta (left sta member).1 (left sta member).2.2
  · refine List.eq_nil_iff_forall_not_mem.mpr fun sta member => ?_
    rw [all] at left
    exact absurd (left sta (all ▸ member)).2.1 (by decide)

theorem tableRstLoop_inited (rstMainsta : Bool) (lacks : List Nat) (ap : ApVif)
    (todo : List ApSta) (inited : Bool) :
    tableRstLoop rstMainsta lacks { ap with ntInited := inited } todo =
      { tableRstLoop rstMainsta lacks ap todo with ntInited := inited } := by
  induction todo generalizing ap with
  | nil => rfl
  | cons sta rest induction =>
    have cleared : clearAid { ap with ntInited := inited } sta =
        { clearAid ap sta with ntInited := inited } := by
      unfold clearAid
      split <;> rfl
    have freed : ∀ (other : ApVif) (lacksMemory : Bool),
        wifiMacFreeSta { other with ntInited := inited } sta lacksMemory =
          { wifiMacFreeSta other sta lacksMemory with ntInited := inited } := by
      intro other lacksMemory
      unfold wifiMacFreeSta nstaCleanup
      dsimp only
      split
      · rfl
      · split <;> split <;> split <;> rfl
    rw [tableRstLoop, tableRstLoop, cleared]
    dsimp only
    split
    · exact induction _
    · rw [← induction, ← freed]
      rfl

theorem held_free {table : List ApSta} (free : ∀ sta ∈ table, sta.staAssocid = 0) :
    held table = [] :=
  List.flatMap_eq_nil_iff.mpr fun sta member => heldBy_none (free sta member)

private theorem getStaNode_free (ap : ApVif) (macaddr : Nat)
    (free : ∀ sta ∈ ap.ntNsta, sta.staAssocid = 0) :
    (wifiMacGetStaNode ap macaddr).1.vmStaAssoc = ap.vmStaAssoc ∧
      ∀ sta ∈ (wifiMacGetStaNode ap macaddr).1.ntNsta, sta.staAssocid = 0 := by
  unfold wifiMacGetStaNode
  split
  · exact ⟨rfl, free⟩
  · split
    · exact ⟨rfl, free⟩
    · refine ⟨rfl, fun sta member => ?_⟩
      rcases List.mem_append.mp member with before | last
      · exact free sta before
      · rw [List.mem_singleton.mp last]
        rfl

/-- After a reset of the interface no station holds an association id, and none is uncounted. -/
theorem AidKept.rstBss (kept : AidKept ap leaked) (lacks : List Nat) :
    AidKept (wifiMacRstBss ap lacks) leaked ∧
      (wifiMacRstBss ap lacks).vmStaAssoc = ap.vmStaAssoc ∧
      ∀ sta ∈ (wifiMacRstBss ap lacks).ntNsta, sta.staAssocid = 0 := by
  obtain ⟨reset, counted, free, -⟩ := kept.tableRst false lacks
  unfold wifiMacRstBss
  dsimp only
  generalize wifiMacStaTableRst ap false lacks = next at reset counted free ⊢
  have radio : AidKept { next with
      mac := wifiMacResetHt (wifiMacResetErp next.mac next.vmMacMode) } leaked :=
    ⟨reset.distinct, reset.word, reset.maxAid, reset.main, reset.inited, reset.pool⟩
  split
  · exact ⟨⟨reset.distinct, reset.word, reset.maxAid, reset.main, reset.inited, reset.pool⟩,
      counted, free⟩
  · have placed := (radio.getStaNode next.vmMyaddr).step.kept
    obtain ⟨same, none⟩ := getStaNode_free { next with
      mac := wifiMacResetHt (wifiMacResetErp next.mac next.vmMacMode) } next.vmMyaddr free
    cases node : wifiMacGetStaNode { next with
        mac := wifiMacResetHt (wifiMacResetErp next.mac next.vmMacMode) } next.vmMyaddr with
    | mk last main =>
      rw [node] at placed same none
      cases main with
      | none => exact ⟨placed, same.trans counted, none⟩
      | some mainsta =>
        exact ⟨⟨placed.distinct, placed.word, placed.maxAid, fun sta member _ => none sta member,
          placed.inited, placed.pool⟩, same.trans counted, none⟩

/-- The table is empty once it is cleared, and nobody is uncounted. -/
theorem AidKept.clearTable (kept : AidKept ap leaked) (lacks : List Nat) :
    AidKept (wifiMacClearStaTable ap lacks) leaked ∧
      (wifiMacClearStaTable ap lacks).vmStaAssoc = ap.vmStaAssoc ∧
      (wifiMacClearStaTable ap lacks).ntNsta = [] := by
  unfold wifiMacClearStaTable
  by_cases inited : ap.ntInited = true
  · rw [if_neg (by simp [inited]), tableRstLoop_inited]
    obtain ⟨after, counted, -, empty⟩ := kept.tableRst true lacks
    have none := empty rfl
    refine ⟨⟨after.distinct, after.word, after.maxAid, after.main, fun _ => none, after.pool⟩,
      counted, none⟩
  · have gone : ap.ntInited = false := by simpa using inited
    rw [if_pos (by simp [gone])]
    exact ⟨kept, rfl, kept.inited gone⟩

end Reset

section Events

variable {ap : ApVif} {leaked : List Nat}

theorem AidKept.atSta (kept : AidKept ap leaked) (macaddr : Nat) (change : ApSta → ApVif)
    (each : ∀ sta, ap.getSta sta.staMacaddr = some sta → AidTidy ap leaked (change sta)) :
    AidTidy ap leaked (ap.atSta macaddr change) := by
  unfold ApVif.atSta
  cases found : ap.getSta macaddr with
  | none => exact kept.refl.tidy
  | some sta => exact each sta (getSta_self found)

theorem AidKept.recvAuth (kept : AidKept ap leaked) (macaddr : Nat) :
    AidTidy ap leaked (recvAuth ap macaddr) := by
  have step : AidStep ap leaked
      (if (ap.getSta macaddr).isSome then ap else (wifiMacBupBss ap macaddr).1) := by
    split
    · exact kept.refl
    · exact (kept.bupBss macaddr).step
  refine step.andThen (step.kept.atSta macaddr _ fun sta found => AidStep.tidy ?_)
  refine step.kept.put found ?_
  exact ⟨rfl, rfl⟩

/-- A change of the power save state of a station, which is written. -/
theorem AidKept.stateChange {sta old : ApSta} (kept : AidKept ap leaked)
    (found : ap.getSta old.staMacaddr = some old) (same : SameHolder sta old) (enable : Bool) :
    AidStep ap leaked (wifiMacPwrsaveStateChange ap sta enable).1 ∧
      (wifiMacPwrsaveStateChange ap sta enable).1.getSta old.staMacaddr = some old ∧
      SameHolder (wifiMacPwrsaveStateChange ap sta enable).2 old := by
  obtain ⟨frame, holder⟩ := stateChange_frame ap sta enable
  refine ⟨kept.frame frame, ?_, holder.trans same⟩
  rw [ApVif.getSta, frame.table]
  exact found

theorem AidKept.recvData {sta : ApSta} (kept : AidKept ap leaked)
    (found : ap.getSta sta.staMacaddr = some sta) (jiffies : Nat) (powerManagement : Bool) :
    AidTidy ap leaked (recvData ap sta jiffies powerManagement) := by
  have heard : SameHolder (heardSta sta jiffies) sta := ⟨rfl, rfl⟩
  unfold Ap.recvData
  dsimp only
  split
  · exact (kept.put found heard).tidy
  · obtain ⟨step, here, same⟩ := kept.stateChange found heard powerManagement
    exact (step.trans (step.kept.put here same)).tidy

private theorem AidKept.delStation {sta : ApSta} (kept : AidKept ap leaked)
    (found : ap.getSta sta.staMacaddr = some sta) (env : LeaveEnv) :
    AidTidy ap leaked (vmCfg80211DelStation ap sta env) := by
  unfold vmCfg80211DelStation
  split
  · exact kept.refl.tidy
  · obtain ⟨step, here, same⟩ := kept.stateChange found (SameHolder.refl sta) false
    exact step.andThen (step.kept.disconnectFromAp here same env)

/-- A station is written after the bits that announce frames changed. -/
theorem AidKept.putTim {sta old : ApSta} (kept : AidKept ap leaked)
    (found : ap.getSta old.staMacaddr = some old) (same : SameHolder sta old) (tim : TimVif)
    (maxAid : tim.vmMaxAid = ap.tim.vmMaxAid) :
    AidStep ap leaked ({ ap with tim := tim }.put sta) := by
  have framed : AidStep ap leaked { ap with tim := tim } :=
    kept.frame ⟨rfl, rfl, maxAid, rfl, rfl, fun _ => id⟩
  exact framed.trans (framed.kept.put found same)

private theorem psqueueSend_same (sta : ApSta) :
    SameHolder (wifiMacPwrsavePsqueueSend sta).1 sta := by
  unfold wifiMacPwrsavePsqueueSend
  split <;> exact ⟨rfl, rfl⟩

theorem psqueueEnqueue_same (vmBcnIntval : Nat) (tim : TimVif) (sta : ApSta) :
    SameHolder (wifiMacPwrsavePsqueueEnqueue vmBcnIntval tim sta).2 sta ∧
      (wifiMacPwrsavePsqueueEnqueue vmBcnIntval tim sta).1.vmMaxAid = tim.vmMaxAid := by
  unfold wifiMacPwrsavePsqueueEnqueue
  split
  · exact ⟨SameHolder.refl sta, rfl⟩
  · dsimp only
    split
    · exact ⟨⟨rfl, rfl⟩, wifiMacPwrsaveSetTim_maxAid _ _ _⟩
    · exact ⟨⟨rfl, rfl⟩, rfl⟩

private theorem AidKept.enqueueFrame {sta : ApSta} (kept : AidKept ap leaked)
    (found : ap.getSta sta.staMacaddr = some sta) : AidTidy ap leaked (enqueueFrame ap sta) := by
  unfold Ap.enqueueFrame
  split
  · obtain ⟨same, maxAid⟩ := psqueueEnqueue_same ap.vmBcnIntval ap.tim sta
    exact (kept.putTim found same _ maxAid).tidy
  · exact kept.refl.tidy

theorem recvPspoll_same (tim : TimVif) (sta : ApSta) (aid : Nat) :
    SameHolder (wifiMacPwrsaveRecvPspoll tim sta aid).2 sta ∧
      (wifiMacPwrsaveRecvPspoll tim sta aid).1.vmMaxAid = tim.vmMaxAid := by
  unfold wifiMacPwrsaveRecvPspoll
  split
  · exact ⟨SameHolder.refl sta, rfl⟩
  · split
    · exact ⟨SameHolder.refl sta, rfl⟩
    · dsimp only
      split
      · exact ⟨psqueueSend_same sta, wifiMacPwrsaveSetTim_maxAid _ _ _⟩
      · exact ⟨psqueueSend_same sta, rfl⟩

private theorem AidKept.recvPspoll {sta : ApSta} (kept : AidKept ap leaked)
    (found : ap.getSta sta.staMacaddr = some sta) (aid : Nat) :
    AidTidy ap leaked (recvPspoll ap sta aid) := by
  obtain ⟨same, maxAid⟩ := recvPspoll_same ap.tim sta aid
  exact (kept.putTim found same _ maxAid).tidy

/-- No station that holds an association id is taken out of the table without giving it up and being
uncounted. -/
def AidFine (ap : ApVif) : ApEvent → Prop
  | .timeout jiffies hz => ∀ sta ∈ ap.ntNsta,
    timesOut ap.vmMainsta jiffies hz sta = true → sta.staAssocid = 0
  | .rstBss _ | .vdetach _ | .clearTable _ => ∀ sta ∈ ap.ntNsta, sta.staAssocid = 0
  | _ => True

private theorem reset_iff {next : ApVif} (counted : Counted ap)
    (same : next.vmStaAssoc = ap.vmStaAssoc)
    (none : held next.ntNsta = []) :
    Counted next ↔ ∀ sta ∈ ap.ntNsta, sta.staAssocid = 0 := by
  rw [Counted, same, counted, none, List.length_nil, List.length_eq_zero_iff]
  constructor
  · intro empty sta member
    by_contra assoc
    have holder := mem_held.mpr ⟨sta, member, assoc, rfl⟩
    rw [empty] at holder
    exact absurd holder List.not_mem_nil
  · exact held_free

/-- A step keeps the pool, and keeps the order exactly when it is fine. -/
theorem AidKept.step (kept : AidKept ap leaked) (event : ApEvent) :
    ∃ leaked', AidKept (apStep ap event) leaked' ∧
      (leaked = [] → Counted ap →
        (leaked' = [] ∧ Counted (apStep ap event) ↔ AidFine ap event)) := by
  have tidy : ∀ next, AidTidy ap leaked next → ∃ leaked', AidKept next leaked' ∧
      (leaked = [] → Counted ap → (leaked' = [] ∧ Counted next ↔ True)) := by
    rintro next ⟨leaked', after, clean⟩
    exact ⟨leaked', after, fun empty counted => iff_true_intro (clean empty counted)⟩
  cases event with
  | auth macaddr => exact tidy _ (kept.recvAuth macaddr)
  | authorize macaddr =>
    refine tidy _ (kept.atSta macaddr _ fun sta found => AidStep.tidy (kept.put found ?_))
    exact ⟨rfl, rfl⟩
  | heard macaddr jiffies =>
    refine tidy _ (kept.atSta macaddr _ fun sta found => AidStep.tidy (kept.put found ?_))
    exact ⟨rfl, rfl⟩
  | data macaddr jiffies powerManagement =>
    exact tidy _ (kept.atSta macaddr _ fun sta found => kept.recvData found jiffies _)
  | assocReq conf frame env => exact tidy _ (kept.recvAssocReq conf frame env).1
  | disconnect macaddr env =>
    refine tidy _ ?_
    rw [apStep]
    split
    · exact kept.refl.tidy
    · exact kept.atSta macaddr _ fun sta found =>
        kept.disconnectFromAp found (SameHolder.refl sta) env
  | delStation macaddr env =>
    exact tidy _ (kept.atSta macaddr _ fun sta found => kept.delStation found env)
  | enqueue macaddr => exact tidy _ (kept.atSta macaddr _ fun sta found => kept.enqueueFrame found)
  | pspoll macaddr aid =>
    exact tidy _ (kept.atSta macaddr _ fun sta found => kept.recvPspoll found aid)
  | hold held =>
    refine tidy _ (AidStep.tidy (kept.frame ?_))
    exact ⟨rfl, rfl, rfl, rfl, rfl, fun _ => id⟩
  | timeout jiffies hz =>
    obtain ⟨after, counted, holds⟩ := kept.timeout jiffies hz
    refine ⟨_, after, ?_⟩
    rintro rfl count
    rw [List.append_nil, AidFine]
    have parts := held_perm
      (List.filter_append_perm (timesOut ap.vmMainsta jiffies hz) ap.ntNsta)
    rw [held_append] at parts
    constructor
    · rintro ⟨empty, -⟩ sta member late
      by_contra assoc
      have lost := mem_held.mpr ⟨sta, List.mem_filter.mpr ⟨member, late⟩, assoc, rfl⟩
      rw [empty] at lost
      exact absurd lost List.not_mem_nil
    · intro fine
      have empty : held (ap.ntNsta.filter (timesOut ap.vmMainsta jiffies hz)) = [] :=
        held_free fun sta member =>
          fine sta (List.mem_of_mem_filter member) (List.of_mem_filter member)
      refine ⟨empty, ?_⟩
      rw [empty, List.nil_append] at parts
      rw [Counted, apStep, counted, holds, count]
      exact parts.length_eq.symm
  | rstBss lacks =>
    obtain ⟨after, same, free⟩ := kept.rstBss lacks
    exact ⟨leaked, after, fun empty counted =>
      (and_iff_right empty).trans (reset_iff counted same (held_free free))⟩
  | vdetach lacks =>
    obtain ⟨after, same, free, -⟩ := kept.tableRst true lacks
    exact ⟨leaked, after, fun empty counted =>
      (and_iff_right empty).trans (reset_iff counted same (held_free free))⟩
  | clearTable lacks =>
    obtain ⟨after, same, none⟩ := kept.clearTable lacks
    refine ⟨leaked, after, fun empty counted =>
      (and_iff_right empty).trans (reset_iff counted same ?_)⟩
    rw [apStep, none]
    rfl

end Events

/-- A request is turned down for want of an association id only when stations hold them all. -/
def RefusedRightly (ap : ApVif) : ApEvent → Prop
  | .assocReq conf frame env => (wifiMacRecvAssocReq conf ap frame env).2 = .toomany →
    ∀ aid, 1 ≤ aid → aid < ap.tim.vmMaxAid →
      ∃ sta ∈ ap.ntNsta, sta.staAssocid ≠ 0 ∧ wifinetAid sta.staAssocid = aid
  | _ => True

private theorem AidKept.refusedRightly {ap : ApVif} {leaked : List Nat} (kept : AidKept ap leaked)
    (event : ApEvent) : RefusedRightly ap event := by
  cases event with
  | assocReq conf frame env =>
    intro full aid above below
    rw [kept.maxAid] at below
    exact mem_held.mp ((kept.recvAssocReq conf frame env).2 full aid above below)
  | _ => trivial

/-- A step that handles a request turns nobody down without need; the task's own steps answer none. -/
def TaskRefusedRightly (task : ApTask) : TaskEvent → Prop
  | .now event => RefusedRightly task.ap event
  | .disassocInTask => True
  | .disassocCb _ _ => True

/-- After a step the association ids are in order, and nobody was turned down without need. -/
def AidLawful (task : ApTask) (event : TaskEvent) : Prop :=
  AidDiscipline (taskStep task event).ap ∧ TaskRefusedRightly task event

/-- A step does not take a station with an association id out of the table and leave it that. -/
def AidReturned (task : ApTask) : TaskEvent → Prop
  | .now event => AidFine task.ap event
  | .disassocInTask => ∀ sta ∈ task.ap.ntNsta, sta.staAssocid = 0
  | .disassocCb _ _ => True

/-- An access point whose association ids are in order, and no station of which is on its way out. -/
structure AidSettled (task : ApTask) : Prop where
  kept : AidKept task.ap []
  counted : Counted task.ap
  linked : task.unlinked = []

section Run

variable {task : ApTask}

theorem AidKept.unlink {ap : ApVif} (kept : AidKept ap []) :
    AidKept { ap with ntNsta := ap.ntNsta.filter (·.staAssocid = 0) } (held ap.ntNsta) := by
  have none : held (ap.ntNsta.filter (·.staAssocid = 0)) = [] :=
    held_free fun sta member => by simpa using List.of_mem_filter member
  have pool := kept.pool
  rw [List.append_nil] at pool
  refine ⟨List.Nodup.sublist (List.filter_sublist.map _) kept.distinct, kept.word, kept.maxAid,
    fun sta member => kept.main sta (List.mem_of_mem_filter member), fun gone => ?_, ?_⟩
  · simp only [kept.inited gone, List.filter_nil]
  · dsimp only
    rw [none]
    exact pool

theorem disassocCb_settled (linked : task.unlinked = []) (macaddr : Nat) (env : LeaveEnv) :
    taskStep task (.disassocCb macaddr env) = task := by
  rw [taskStep, linked]
  rfl

theorem AidSettled.lawful_iff (settled : AidSettled task) (event : TaskEvent) :
    AidLawful task event ↔ AidReturned task event := by
  obtain ⟨kept, counted, linked⟩ := settled
  cases event with
  | now event =>
    obtain ⟨leaked', after, fine⟩ := kept.step event
    have rightly : TaskRefusedRightly task (.now event) := kept.refusedRightly event
    rw [AidLawful, and_iff_left rightly]
    exact after.discipline_iff.trans (fine rfl counted)
  | disassocInTask =>
    rw [AidLawful, TaskRefusedRightly, and_true, AidReturned]
    refine kept.unlink.discipline_iff.trans ⟨?_, fun free => ⟨held_free free, ?_⟩⟩
    · rintro ⟨empty, -⟩ sta member
      by_contra assoc
      have holder := mem_held.mpr ⟨sta, member, assoc, rfl⟩
      rw [empty] at holder
      exact absurd holder List.not_mem_nil
    · have all : task.ap.ntNsta.filter (·.staAssocid = 0) = task.ap.ntNsta :=
        List.filter_eq_self.mpr fun sta member => by simpa using free sta member
      rw [Counted] at counted ⊢
      dsimp only
      rw [all]
      exact counted
  | disassocCb macaddr env =>
    rw [AidLawful, disassocCb_settled linked]
    exact iff_of_true ⟨kept.discipline_iff.mpr ⟨rfl, counted⟩, trivial⟩ trivial

private theorem AidSettled.step (settled : AidSettled task) (event : TaskEvent)
    (lawful : AidLawful task event) : AidSettled (taskStep task event) := by
  have returned := (settled.lawful_iff event).mp lawful
  obtain ⟨kept, counted, linked⟩ := settled
  cases event with
  | now event =>
    obtain ⟨leaked', after, -⟩ := kept.step event
    obtain ⟨rfl, count⟩ := after.discipline_iff.mp lawful.1
    exact ⟨after, count, linked⟩
  | disassocInTask =>
    obtain ⟨-, count⟩ := kept.unlink.discipline_iff.mp lawful.1
    have after := kept.unlink
    rw [held_free returned] at after
    refine ⟨after, count, ?_⟩
    rw [taskStep, linked, List.nil_append, List.filter_eq_nil_iff]
    intro sta member
    simpa using returned sta member
  | disassocCb macaddr env =>
    rw [disassocCb_settled linked]
    exact ⟨kept, counted, linked⟩

theorem taskInit_settled (start : ApStart) : AidSettled (taskInit start) := by
  have none : held (apInit start).ntNsta = [] := by
    refine held_free fun sta member => ?_
    rw [List.mem_singleton.mp member]
    rfl
  refine ⟨⟨List.nodup_singleton _, rfl, rfl, fun sta member _ => ?_, fun gone => ?_, ?_⟩, ?_, rfl⟩
  · rw [List.mem_singleton.mp member]
    rfl
  · cases gone
  · simp only [taskInit]
    rw [none]
    exact Pool.Kept.none_held 1
  · simp only [taskInit, Counted]
    rw [none]
    rfl

end Run

end W522a.Ap
