import W522a.Ap.AidLaw
import W522a.Ap.Power

/-!
What the stations leave behind that go: a bit that announces nothing, or a count of nobody.
-/

namespace W522a.Ap

/-- The bookkeeping of power save: a bit of the range is set for the stations with frames, the set
bits are counted, and so are the stations that sleep. -/
structure PowerLawful (ap : ApVif) : Prop where
  bits : ∀ aid, 1 ≤ aid → aid < ap.tim.vmMaxAid →
    (Bitmap.isset 8 ap.tim.vmTimBitmap aid = true ↔
      ∃ sta ∈ ap.ntNsta, sta.staAssocid ≠ 0 ∧ wifinetAid sta.staAssocid = aid ∧
        sta.staPstxqueue ≠ [])
  pending : ap.tim.vmPsPending = Bitmap.card 8 ap.tim.vmTimBitmap
  asleep : ap.vmPsSta = ap.ntNsta.countP fun sta => sta.staAssocid ≠ 0 ∧ sta.nodePwrMgt = true

/-- What the bookkeeping says besides the truth: bits that stand for no station with frames, and
stations that are gone and still counted. -/
structure PowerKept (ap : ApVif) (stale : List Nat) (uncounted : Nat) : Prop where
  tidy : ∀ sta ∈ ap.ntNsta, PowerTidy sta
  pool : TimPool ap.tim (waits ap.ntNsta ++ stale)
  count : ap.vmPsSta = sleepers ap.ntNsta + uncounted

theorem sleepers_countP {table : List ApSta} (tidy : ∀ sta ∈ table, PowerTidy sta) :
    sleepers table =
      table.countP fun sta => decide (sta.staAssocid ≠ 0 ∧ sta.nodePwrMgt = true) := by
  induction table with
  | nil => rfl
  | cons sta rest induction =>
    have mine := tidy sta List.mem_cons_self
    rw [sleepers_cons, List.countP_cons,
      induction fun other member => tidy other (List.mem_cons_of_mem _ member)]
    by_cases asleep : sta.nodePwrMgt = true
    · rw [sleepsBy_asleep asleep]
      simp [asleep, mine.asleep asleep, Nat.add_comm]
    · rw [sleepsBy_awake (by simpa using asleep)]
      simp [asleep]

private theorem sleepers_le_held {table : List ApSta} (tidy : ∀ sta ∈ table, PowerTidy sta) :
    sleepers table ≤ (held table).length := by
  rw [sleepers_countP tidy, length_held]
  refine List.countP_mono_left fun sta _ asleep => ?_
  simp only [ne_eq, decide_eq_true_eq] at asleep ⊢
  exact asleep.1

section Table

variable {ap : ApVif} {leaked stale : List Nat} {uncounted macaddr : Nat} {sta old : ApSta}

theorem PowerKept.lawful_iff (power : PowerKept ap stale uncounted) :
    PowerLawful ap ↔ stale = [] ∧ uncounted = 0 := by
  obtain ⟨tidy, pool, count⟩ := power
  rw [sleepers_countP tidy] at count
  constructor
  · intro lawful
    refine ⟨List.eq_nil_iff_forall_not_mem.mpr fun aid lost => ?_, ?_⟩
    · have member := List.mem_append_right (waits ap.ntNsta) lost
      obtain ⟨above, below⟩ := pool.pool.range aid member
      have announced := (lawful.bits aid above (pool.maxAid.symm ▸ below)).mp
        ((pool.pool.bits aid).mpr member)
      exact List.disjoint_of_nodup_append pool.pool.distinct (mem_waits.mpr announced) lost
    · have right := lawful.asleep
      omega
  · rintro ⟨rfl, rfl⟩
    refine ⟨fun aid _ _ => ?_, pool.pending, count⟩
    rw [pool.pool.bits aid, List.append_nil]
    exact mem_waits

theorem AidKept.few (kept : AidKept ap leaked) (tidy : ∀ sta ∈ ap.ntNsta, PowerTidy sta) :
    sleepers ap.ntNsta ≤ 16 := by
  have bound := kept.pool.length_le
  rw [List.length_append] at bound
  have asleep := sleepers_le_held tidy
  omega

theorem PowerKept.take (power : PowerKept ap stale uncounted)
    (distinct : Keyed.Distinct ApSta.staMacaddr ap.ntNsta)
    (few : sleepers ap.ntNsta + uncounted ≤ 16)
    (found : ap.getSta old.staMacaddr = some old) :
    PowerHand ap.tim ap.vmPsSta old
      (waits (Keyed.remove ApSta.staMacaddr ap.ntNsta old.staMacaddr) ++ stale)
      (sleepers (Keyed.remove ApSta.staMacaddr ap.ntNsta old.staMacaddr) + uncounted) := by
  have split := Keyed.perm_remove distinct found
  have bits := waits_perm split
  have asleep := sleepers_perm split
  rw [waits_cons] at bits
  rw [sleepers_cons] at asleep
  refine ⟨power.tidy old (Keyed.mem_of_find found), ?_, ?_, by omega⟩
  · rw [← List.append_assoc]
    exact power.pool.perm (bits.append_right stale)
  · rw [power.count, asleep, Nat.add_assoc]

theorem AidKept.own (kept : AidKept ap leaked) (found : ap.getSta old.staMacaddr = some old) :
    Own old (waits (Keyed.remove ApSta.staMacaddr ap.ntNsta old.staMacaddr) ++ []) := by
  have split := held_perm (Keyed.perm_remove kept.distinct found)
  rw [held_cons] at split
  have pool := kept.pool.perm (split.append_right leaked)
  refine ⟨fun aid mine => pool.range aid ?_, fun aid mine waiting => ?_⟩
  · exact List.mem_append_left _ (List.mem_append_left _ mine)
  · rw [List.append_nil] at waiting
    obtain ⟨other, member, assoc, same, -⟩ := mem_waits.mp waiting
    have twice := List.disjoint_of_nodup_append (List.nodup_append.mp pool.distinct).1
    exact twice mine (mem_held.mpr ⟨other, member, assoc, same⟩)

/-- A station in hand is written to the table. -/
theorem PowerHand.put {next : ApVif} (distinct : Keyed.Distinct ApSta.staMacaddr next.ntNsta)
    (present : next.getSta sta.staMacaddr ≠ none)
    (tidy : ∀ other ∈ next.ntNsta, PowerTidy other)
    (hand : PowerHand next.tim next.vmPsSta sta
      (waits (Keyed.remove ApSta.staMacaddr next.ntNsta sta.staMacaddr) ++ stale)
      (sleepers (Keyed.remove ApSta.staMacaddr next.ntNsta sta.staMacaddr) + uncounted)) :
    PowerKept (next.put sta) stale uncounted := by
  have after : (next.put sta).ntNsta.Perm
      (sta :: Keyed.remove ApSta.staMacaddr next.ntNsta sta.staMacaddr) :=
    Keyed.perm_replace distinct present
  have bits := waits_perm after
  have asleep := sleepers_perm after
  rw [waits_cons] at bits
  rw [sleepers_cons] at asleep
  refine ⟨fun other member => ?_, ?_, ?_⟩
  · rcases List.mem_cons.mp (after.mem_iff.mp member) with rfl | rest
    · exact hand.tidy
    · exact tidy other (Keyed.mem_remove.mp rest).1
  · refine hand.pool.perm ?_
    rw [← List.append_assoc]
    exact bits.symm.append_right stale
  · rw [asleep, Nat.add_assoc]
    exact hand.count

/-- A station is written whose power save state did not change. -/
theorem PowerKept.put (power : PowerKept ap stale uncounted)
    (distinct : Keyed.Distinct ApSta.staMacaddr ap.ntNsta)
    (few : sleepers ap.ntNsta + uncounted ≤ 16)
    (found : ap.getSta old.staMacaddr = some old) (same : SamePower sta old) :
    PowerKept (ap.put sta) stale uncounted := by
  have hand := (power.take distinct few found).same same
  rw [← same.macaddr] at hand
  refine hand.put distinct ?_ power.tidy
  rw [same.macaddr, found]
  exact Option.some_ne_none old

theorem PowerKept.concat (power : PowerKept ap stale uncounted) (awake : sta.nodePwrMgt = false)
    (empty : sta.staPstxqueue = []) :
    PowerKept { ap with ntNsta := ap.ntNsta ++ [sta] } stale uncounted := by
  have asleep : sleepers (ap.ntNsta ++ [sta]) = sleepers ap.ntNsta := by
    rw [sleepers_append, sleepers_cons, sleepsBy_awake awake]
    rfl
  have bits : waits (ap.ntNsta ++ [sta]) = waits ap.ntNsta := by
    rw [waits_append, waits_cons, waitsBy_empty empty]
    exact List.append_nil _
  refine ⟨fun other member => ?_, ?_, ?_⟩
  · rcases List.mem_append.mp member with before | last
    · exact power.tidy other before
    · rw [List.mem_singleton.mp last]
      refine ⟨fun asleep => ?_, fun frames => absurd empty frames⟩
      rw [awake] at asleep
      cases asleep
  · dsimp only
    rw [bits]
    exact power.pool
  · dsimp only
    rw [asleep]
    exact power.count

/-- The table without a station, whose bit and count are left behind or not. -/
theorem PowerKept.without {next : ApVif} (tidy : ∀ other ∈ ap.ntNsta, PowerTidy other)
    (table : next.ntNsta = Keyed.remove ApSta.staMacaddr ap.ntNsta macaddr)
    (pool : TimPool next.tim
      (waits (Keyed.remove ApSta.staMacaddr ap.ntNsta macaddr) ++ stale))
    (count : next.vmPsSta =
      sleepers (Keyed.remove ApSta.staMacaddr ap.ntNsta macaddr) + uncounted) :
    PowerKept next stale uncounted := by
  refine ⟨fun other member => ?_, ?_, ?_⟩
  · rw [table] at member
    exact tidy other (Keyed.mem_remove.mp member).1
  · rw [table]
    exact pool
  · rw [table]
    exact count

end Table

/-- A station leaves and nothing is left behind: no frames are kept for it, and when memory lacks for
its cleaning up it does not sleep. -/
def LeavesQuietly (sta : ApSta) (lacksMemory : Bool) : Prop :=
  sta.staPstxqueue = [] ∧ (lacksMemory = true → sta.nodePwrMgt = false)

theorem LeavesQuietly.same {sta old : ApSta} (same : SamePower sta old) (lacksMemory : Bool) :
    LeavesQuietly sta lacksMemory ↔ LeavesQuietly old lacksMemory := by
  rw [LeavesQuietly, LeavesQuietly, same.queue, same.pwrMgt]

def leftCount (sta : ApSta) (lacksMemory : Bool) : Nat := if lacksMemory then sleepsBy sta else 0

section Leave

variable {ap : ApVif} {leaked stale : List Nat} {uncounted sleeping : Nat} {sta old : ApSta}
  {others : List Nat}

theorem leftCount_zero (sta : ApSta) (lacksMemory : Bool) :
    leftCount sta lacksMemory = 0 ↔ (lacksMemory = true → sta.nodePwrMgt = false) := by
  unfold leftCount
  cases lacksMemory with
  | false => exact iff_of_true rfl fun absurdity => nomatch absurdity
  | true =>
    rw [if_pos rfl, sleepsBy]
    cases sta.nodePwrMgt with
    | false => exact iff_of_true rfl fun _ => rfl
    | true => exact iff_of_false Nat.one_ne_zero fun awake => Bool.noConfusion (awake rfl)

private theorem wifiMacStaDisconnect_power (ap : ApVif) (sta : ApSta) (quiet : Bool) :
    (wifiMacStaDisconnect ap sta quiet).1.tim = ap.tim ∧
      (wifiMacStaDisconnect ap sta quiet).1.vmPsSta = ap.vmPsSta ∧
      (wifiMacStaDisconnect ap sta quiet).1.ntNsta = ap.ntNsta ∧
      (wifiMacStaDisconnect ap sta quiet).2 = { sta with staAssocid := 0 } := by
  unfold wifiMacStaDisconnect
  by_cases free : sta.staAssocid = 0
  · rw [if_pos free, ← free]
    exact ⟨rfl, rfl, rfl, rfl⟩
  · rw [if_neg free]
    exact ⟨rfl, rfl, rfl, rfl⟩

private theorem PowerHand.free_lost (hand : PowerHand ap.tim ap.vmPsSta sta others sleeping)
    (lacksMemory : Bool) :
    (wifiMacFreeSta ap { sta with staAssocid := 0 } lacksMemory).tim = ap.tim ∧
      (wifiMacFreeSta ap { sta with staAssocid := 0 } lacksMemory).vmPsSta =
        sleeping + leftCount sta lacksMemory := by
  have count := hand.count
  unfold wifiMacFreeSta leftCount
  cases lacksMemory with
  | true => exact ⟨rfl, count.trans (Nat.add_comm _ _)⟩
  | false =>
    rw [if_neg Bool.false_ne_true, if_neg Bool.false_ne_true]
    dsimp only
    split
    · have orphan : PowerHand { ap with vmMainsta := none }.tim
          { ap with vmMainsta := none }.vmPsSta sta others sleeping := hand
      exact orphan.cleanup_lost
    · exact hand.cleanup_lost

/-- One that still has it leaves it behind when memory lacks. -/
theorem PowerHand.free (hand : PowerHand ap.tim ap.vmPsSta sta others sleeping)
    (lacksMemory : Bool) :
    TimPool (wifiMacFreeSta ap sta lacksMemory).tim
        ((if lacksMemory then waitsBy sta else []) ++ others) ∧
      (wifiMacFreeSta ap sta lacksMemory).vmPsSta = sleeping + leftCount sta lacksMemory := by
  have count := hand.count
  unfold wifiMacFreeSta leftCount
  cases lacksMemory with
  | true => exact ⟨hand.pool, count.trans (Nat.add_comm _ _)⟩
  | false =>
    simp only [Bool.false_eq_true, if_false, List.nil_append]
    split
    · have orphan : PowerHand { ap with vmMainsta := none }.tim
          { ap with vmMainsta := none }.vmPsSta sta others sleeping := hand
      exact orphan.cleanup
    · exact hand.cleanup

/-- What a station in hand leaves behind that is taken out of the table after it gave up its
association id. -/
theorem PowerHand.disconnectFromAp (tidy : ∀ other ∈ ap.ntNsta, PowerTidy other)
    (hand : PowerHand ap.tim ap.vmPsSta sta
      (waits (Keyed.remove ApSta.staMacaddr ap.ntNsta sta.staMacaddr) ++ [])
      (sleepers (Keyed.remove ApSta.staMacaddr ap.ntNsta sta.staMacaddr) + 0))
    (env : LeaveEnv) :
    ∃ stale uncounted, PowerKept (wifiMacStaDisconnectFromAp ap sta env) stale uncounted ∧
      (stale = [] ∧ uncounted = 0 ↔ LeavesQuietly sta env.lacksMemory) := by
  obtain ⟨bits, count, table, gone⟩ := wifiMacStaDisconnect_power ap sta env.quiet
  have left : PowerHand ((wifiMacStaDisconnect ap sta env.quiet).1.listDel sta.staMacaddr).tim
      ((wifiMacStaDisconnect ap sta env.quiet).1.listDel sta.staMacaddr).vmPsSta sta
      (waits (Keyed.remove ApSta.staMacaddr ap.ntNsta sta.staMacaddr) ++ [])
      (sleepers (Keyed.remove ApSta.staMacaddr ap.ntNsta sta.staMacaddr) + 0) := by
    simp only [ApVif.listDel, bits, count]
    exact hand
  obtain ⟨freedBits, freedCount⟩ := left.free_lost env.lacksMemory
  have frame := wifiMacFreeSta_frame
    ((wifiMacStaDisconnect ap sta env.quiet).1.listDel sta.staMacaddr)
    { sta with staAssocid := 0 } env.lacksMemory
  refine ⟨waitsBy sta, leftCount sta env.lacksMemory, ?_, ?_⟩
  · unfold wifiMacStaDisconnectFromAp
    dsimp only
    rw [gone]
    refine PowerKept.without tidy ?_ ?_ freedCount
    · rw [frame.table, ApVif.listDel, table]
    · rw [freedBits]
      refine left.pool.perm ?_
      rw [List.append_nil]
      exact List.perm_append_comm
  · rw [hand.tidy.waitsBy_nil, leftCount_zero]
    exact Iff.rfl

/-- What a station of the table leaves behind so. -/
theorem PowerKept.disconnectFromAp (power : PowerKept ap [] 0) (kept : AidKept ap leaked)
    (found : ap.getSta old.staMacaddr = some old) (same : SamePower sta old) (env : LeaveEnv) :
    ∃ stale uncounted, PowerKept (wifiMacStaDisconnectFromAp ap sta env) stale uncounted ∧
      (stale = [] ∧ uncounted = 0 ↔ LeavesQuietly old env.lacksMemory) := by
  have hand := (power.take kept.distinct (kept.few power.tidy) found).same same
  rw [← same.macaddr] at hand
  obtain ⟨stale, uncounted, after, fine⟩ := hand.disconnectFromAp power.tidy env
  exact ⟨stale, uncounted, after, fine.trans (LeavesQuietly.same same env.lacksMemory)⟩

end Leave

section Reset

variable {ap : ApVif} {leaked stale : List Nat} {uncounted : Nat} {sta : ApSta}

/-- What a station leaves behind that a reset takes out of the table. -/
theorem PowerKept.clear (power : PowerKept ap stale uncounted) (kept : AidKept ap leaked)
    (few : sleepers ap.ntNsta + uncounted ≤ 16) (found : ap.getSta sta.staMacaddr = some sta)
    (lacksMemory : Bool) :
    PowerKept (wifiMacFreeSta ((clearAid ap sta).listDel sta.staMacaddr) sta lacksMemory)
        ((if lacksMemory then waitsBy sta else []) ++ stale)
        (uncounted + leftCount sta lacksMemory) ∧
      (wifiMacFreeSta ((clearAid ap sta).listDel sta.staMacaddr) sta lacksMemory).ntNsta =
        Keyed.remove ApSta.staMacaddr ap.ntNsta sta.staMacaddr := by
  have cleared : (clearAid ap sta).tim = ap.tim ∧ (clearAid ap sta).vmPsSta = ap.vmPsSta ∧
      (clearAid ap sta).ntNsta = ap.ntNsta := by
    unfold clearAid
    split <;> exact ⟨rfl, rfl, rfl⟩
  obtain ⟨bits, count, table⟩ := cleared
  have hand : PowerHand ((clearAid ap sta).listDel sta.staMacaddr).tim
      ((clearAid ap sta).listDel sta.staMacaddr).vmPsSta sta
      (waits (Keyed.remove ApSta.staMacaddr ap.ntNsta sta.staMacaddr) ++ stale)
      (sleepers (Keyed.remove ApSta.staMacaddr ap.ntNsta sta.staMacaddr) + uncounted) := by
    simp only [ApVif.listDel, bits, count]
    exact power.take kept.distinct few found
  obtain ⟨freedBits, freedCount⟩ := hand.free lacksMemory
  have left : (wifiMacFreeSta ((clearAid ap sta).listDel sta.staMacaddr) sta lacksMemory).ntNsta =
      Keyed.remove ApSta.staMacaddr ap.ntNsta sta.staMacaddr := by
    rw [(wifiMacFreeSta_frame _ sta lacksMemory).table, ApVif.listDel, table]
  refine ⟨PowerKept.without power.tidy left ?_ ?_, left⟩
  · refine freedBits.perm ?_
    rw [← List.append_assoc, ← List.append_assoc]
    exact List.perm_append_comm.append_right stale
  · rw [freedCount, Nat.add_assoc]

private theorem clear_nothing (tidy : PowerTidy sta) (lacksMemory : Bool) :
    (if lacksMemory then waitsBy sta else []) = [] ↔
      (lacksMemory = true → sta.staPstxqueue = []) := by
  cases lacksMemory with
  | false => exact iff_of_true rfl fun absurdity => nomatch absurdity
  | true =>
    rw [if_pos rfl, tidy.waitsBy_nil]
    exact ⟨fun empty _ => empty, fun empty => empty rfl⟩

/-- What the loop of a reset leaves behind of the stations that it takes out. -/
theorem tableRstLoop_power (rstMainsta : Bool) (lacks : List Nat) {todo : List ApSta}
    (kept : AidKept ap leaked) (power : PowerKept ap stale uncounted)
    (few : sleepers ap.ntNsta + uncounted ≤ 16)
    (present : ∀ sta ∈ todo, ap.getSta sta.staMacaddr = some sta)
    (distinct : Keyed.Distinct ApSta.staMacaddr todo) :
    ∃ stale' uncounted', PowerKept (tableRstLoop rstMainsta lacks ap todo) stale' uncounted' ∧
      (stale' = [] ↔ stale = [] ∧ ∀ sta ∈ todo,
        lacks.contains sta.staMacaddr = true → sta.staPstxqueue = []) ∧
      (uncounted' = 0 ↔ uncounted = 0 ∧ ∀ sta ∈ todo,
        lacks.contains sta.staMacaddr = true → sta.nodePwrMgt = false) := by
  induction todo generalizing ap stale uncounted with
  | nil =>
    refine ⟨stale, uncounted, power, ?_, ?_⟩
    · exact (and_iff_left fun sta member => absurd member List.not_mem_nil).symm
    · exact (and_iff_left fun sta member => absurd member List.not_mem_nil).symm
  | cons sta rest induction =>
    have found := present sta List.mem_cons_self
    have member := Keyed.mem_of_find found
    have tidy := power.tidy sta member
    obtain ⟨fresh, later⟩ := List.nodup_cons.mp distinct
    have main : (clearAid ap sta).vmMainsta = ap.vmMainsta := by
      unfold clearAid
      split <;> rfl
    rw [tableRstLoop]
    by_cases stays : ap.vmMainsta = some sta.staMacaddr ∧ rstMainsta = false
    · have free := kept.main sta member stays.1
      have awake := tidy.free free
      rw [main, if_pos stays, clearAid, if_pos free]
      obtain ⟨stale', uncounted', after, bits, counts⟩ := induction kept power few
        (fun other there => present other (List.mem_cons_of_mem _ there)) later
      refine ⟨stale', uncounted', after, ?_, ?_⟩
      · rw [bits, List.forall_mem_cons, and_iff_right (fun _ => tidy.awake awake)]
      · rw [counts, List.forall_mem_cons, and_iff_right (fun _ => awake)]
    · rw [main, if_neg stays]
      obtain ⟨cleared, table⟩ := power.clear kept few found (lacks.contains sta.staMacaddr)
      have less := sleepers_perm (Keyed.perm_remove kept.distinct found)
      rw [sleepers_cons] at less
      have most : leftCount sta (lacks.contains sta.staMacaddr) ≤ sleepsBy sta := by
        unfold leftCount
        split
        · exact Nat.le_refl _
        · exact Nat.zero_le _
      obtain ⟨stale', uncounted', after, bits, counts⟩ := induction
        (kept.clear found (lacks.contains sta.staMacaddr)).1 cleared
        (by
          rw [table]
          omega)
        (fun other there => by
          rw [ApVif.getSta, table, Keyed.find_remove]
          · exact present other (List.mem_cons_of_mem _ there)
          · intro twice
            exact fresh (twice ▸ List.mem_map_of_mem there)) later
      refine ⟨stale', uncounted', after, ?_, ?_⟩
      · rw [bits, List.append_eq_nil_iff, clear_nothing tidy, List.forall_mem_cons]
        exact and_assoc.trans and_left_comm
      · rw [counts, Nat.add_eq_zero_iff, leftCount_zero, List.forall_mem_cons]
        exact and_assoc

theorem PowerKept.tableRst (power : PowerKept ap [] 0) (kept : AidKept ap leaked)
    (rstMainsta : Bool) (lacks : List Nat) :
    ∃ stale uncounted, PowerKept (wifiMacStaTableRst ap rstMainsta lacks) stale uncounted ∧
      (stale = [] ↔ ∀ sta ∈ ap.ntNsta,
        lacks.contains sta.staMacaddr = true → sta.staPstxqueue = []) ∧
      (uncounted = 0 ↔ ∀ sta ∈ ap.ntNsta,
        lacks.contains sta.staMacaddr = true → sta.nodePwrMgt = false) := by
  obtain ⟨stale, uncounted, after, bits, counts⟩ := tableRstLoop_power rstMainsta lacks kept power
    (kept.few power.tidy) (fun sta member => Keyed.find_of_mem kept.distinct member) kept.distinct
  rw [and_iff_right rfl] at bits counts
  exact ⟨stale, uncounted, after, bits, counts⟩

/-- After a reset of the whole table nothing is left behind when those stations are awake for which
memory lacks. -/
theorem PowerKept.tableRst_iff (power : PowerKept ap [] 0) (kept : AidKept ap leaked)
    (rstMainsta : Bool) (lacks : List Nat) :
    ∃ stale uncounted, PowerKept (wifiMacStaTableRst ap rstMainsta lacks) stale uncounted ∧
      (stale = [] ∧ uncounted = 0 ↔ ∀ sta ∈ ap.ntNsta,
        lacks.contains sta.staMacaddr = true → sta.nodePwrMgt = false) := by
  obtain ⟨stale, uncounted, after, bits, counts⟩ := power.tableRst kept rstMainsta lacks
  refine ⟨stale, uncounted, after, ?_⟩
  rw [bits, counts]
  exact and_iff_right_of_imp fun awake sta member lack =>
    (power.tidy sta member).awake (awake sta member lack)

/-- After a reset of the interface the count starts anew. -/
theorem PowerKept.rstBss (power : PowerKept ap [] 0) (kept : AidKept ap leaked)
    (lacks : List Nat) :
    ∃ stale, PowerKept (wifiMacRstBss ap lacks) stale 0 ∧
      (stale = [] ↔ ∀ sta ∈ ap.ntNsta,
        lacks.contains sta.staMacaddr = true → sta.staPstxqueue = []) := by
  obtain ⟨stale, uncounted, reset, bits, counts⟩ := power.tableRst kept false lacks
  obtain ⟨-, -, free, -⟩ := kept.tableRst false lacks
  have none : sleepers (wifiMacStaTableRst ap false lacks).ntNsta = 0 := by
    refine List.sum_eq_zero fun count member => ?_
    obtain ⟨sta, there, rfl⟩ := List.mem_map.mp member
    exact sleepsBy_awake ((reset.tidy sta there).free (free sta there))
  have inited : (wifiMacStaTableRst ap false lacks).ntInited = ap.ntInited := by
    have loop := congrArg ApVif.ntInited
      (tableRstLoop_inited false lacks ap ap.ntNsta ap.ntInited)
    exact loop
  have settled : ∀ next : ApVif, next.tim = (wifiMacStaTableRst ap false lacks).tim →
      next.ntNsta = (wifiMacStaTableRst ap false lacks).ntNsta → next.vmPsSta = 0 →
        PowerKept next stale 0 := by
    intro next same table zero
    refine ⟨?_, ?_, ?_⟩
    · rw [table]
      exact reset.tidy
    · rw [same, table]
      exact reset.pool
    · rw [zero, table, none]
  refine ⟨stale, ?_, bits⟩
  unfold wifiMacRstBss
  dsimp only
  by_cases main : (wifiMacStaTableRst ap false lacks).vmMainsta.isSome = true
  · rw [if_pos main]
    exact settled _ rfl rfl rfl
  · rw [if_neg main]
    unfold wifiMacGetStaNode
    dsimp only
    by_cases gone : ap.ntInited = false
    · rw [if_pos (by simp [inited, gone])]
      refine settled _ rfl rfl ?_
      have zero : uncounted = 0 := by
        rw [counts, kept.inited gone]
        exact fun sta member => absurd member List.not_mem_nil
      rw [reset.count, none, zero]
    · rw [if_neg (by simpa [inited] using gone)]
      cases found : ApVif.getSta { wifiMacStaTableRst ap false lacks with
          mac := wifiMacResetHt (wifiMacResetErp (wifiMacStaTableRst ap false lacks).mac
            (wifiMacStaTableRst ap false lacks).vmMacMode) }
          (wifiMacStaTableRst ap false lacks).vmMyaddr with
      | some sta => exact settled _ rfl rfl rfl
      | none =>
        have before := settled { wifiMacStaTableRst ap false lacks with vmPsSta := 0 } rfl rfl rfl
        have placed : PowerKept { wifiMacStaTableRst ap false lacks with
            vmPsSta := 0
            ntNsta := (wifiMacStaTableRst ap false lacks).ntNsta ++
              [newSta (wifiMacStaTableRst ap false lacks).vmMyaddr] } stale 0 :=
          before.concat rfl rfl
        exact ⟨placed.tidy, placed.pool, placed.count⟩

/-- After the table is cleared nothing is left behind when those stations are awake for which memory
lacks. -/
theorem PowerKept.clearTable (power : PowerKept ap [] 0) (kept : AidKept ap leaked)
    (lacks : List Nat) :
    ∃ stale uncounted, PowerKept (wifiMacClearStaTable ap lacks) stale uncounted ∧
      (stale = [] ∧ uncounted = 0 ↔ ∀ sta ∈ ap.ntNsta,
        lacks.contains sta.staMacaddr = true → sta.nodePwrMgt = false) := by
  unfold wifiMacClearStaTable
  by_cases inited : ap.ntInited = true
  · rw [if_neg (by simp [inited]), tableRstLoop_inited]
    obtain ⟨stale, uncounted, after, fine⟩ := power.tableRst_iff kept true lacks
    exact ⟨stale, uncounted, ⟨after.tidy, after.pool, after.count⟩, fine⟩
  · have gone : ap.ntInited = false := by simpa using inited
    rw [if_pos (by simp [gone])]
    refine ⟨[], 0, power, iff_of_true ⟨rfl, rfl⟩ ?_⟩
    rw [kept.inited gone]
    exact fun sta member => absurd member List.not_mem_nil

end Reset

section Timeout

variable {ap : ApVif} {leaked others : List Nat} {sta next : ApSta} {tim tim' : TimVif}
  {rest : List ApSta}

theorem mem_waitsBy {aid : Nat} (member : aid ∈ waitsBy sta) : aid ∈ heldBy sta := by
  by_cases empty : sta.staPstxqueue = []
  · rw [waitsBy_empty empty] at member
    exact absurd member List.not_mem_nil
  · rwa [waitsBy_some empty] at member

private theorem sleepsBy_zero : sleepsBy sta = 0 ↔ sta.nodePwrMgt = false := by
  rw [sleepsBy]
  cases sta.nodePwrMgt with
  | false => exact iff_of_true rfl rfl
  | true => exact iff_of_false Nat.one_ne_zero Bool.noConfusion

/-- The frames of the first station of a list age. -/
theorem TimPool.age (pool : TimPool tim (waits (sta :: rest) ++ others))
    (tidy : PowerTidy sta)
    (own : ∀ aid ∈ held (sta :: rest), (1 ≤ aid ∧ aid < 17) ∧ aid ∉ others)
    (distinct : (held (sta :: rest)).Nodup) :
    PowerHand (ageFrames tim sta).1 (sleepsBy sta) (ageFrames tim sta).2 (waits rest ++ others)
      0 := by
  rw [held_cons] at own distinct
  rw [waits_cons, List.append_assoc] at pool
  have hand : PowerHand tim (sleepsBy sta) sta (waits rest ++ others) 0 :=
    ⟨tidy, pool, rfl, by decide⟩
  refine hand.age ⟨fun aid mine => (own aid (List.mem_append_left _ mine)).1,
    fun aid mine waiting => ?_⟩
  rcases List.mem_append.mp waiting with later | other
  · obtain ⟨another, member, assoc, same, -⟩ := mem_waits.mp later
    exact List.disjoint_of_nodup_append distinct mine
      (mem_held.mpr ⟨another, member, assoc, same⟩)
  · exact (own aid (List.mem_append_left _ mine)).2 other

/-- A part of a table after its stations were checked, some of which left a bit or a count behind. -/
structure TimedOut (expires : ApSta → Bool) (table : List ApSta) (others : List Nat)
    (result : TimVif × List ApSta) (stale : List Nat) (uncounted : Nat) : Prop where
  tidy : ∀ sta ∈ result.2, PowerTidy sta
  pool : TimPool result.1 (waits result.2 ++ (stale ++ others))
  count : sleepers table = sleepers result.2 + uncounted
  fine : stale = [] ∧ uncounted = 0 ↔
    ∀ sta ∈ table, expires sta = true → sta.nodePwrMgt = false

section Check

variable {expires : ApSta → Bool} {stale : List Nat} {uncounted : Nat}
  {result : TimVif × List ApSta}

private theorem TimedOut.stay
    (checked : TimedOut expires rest (waitsBy next ++ others) result stale uncounted)
    (tidy : PowerTidy next) (same : sleepsBy next = sleepsBy sta) (young : expires sta = false) :
    TimedOut expires (sta :: rest) others (result.1, next :: result.2) stale uncounted := by
  refine ⟨List.forall_mem_cons.mpr ⟨tidy, checked.tidy⟩, ?_, ?_, ?_⟩
  · rw [waits_cons]
    refine checked.pool.perm (List.perm_iff_count.mpr fun aid => ?_)
    simp only [List.count_append]
    omega
  · rw [sleepers_cons, sleepers_cons, checked.count, same]
    omega
  · rw [checked.fine, List.forall_mem_cons, and_iff_right]
    intro late
    rw [young] at late
    cases late

/-- The first station goes, and what it waited with stays. -/
theorem TimedOut.go
    (checked : TimedOut expires rest (waitsBy next ++ others) result stale uncounted)
    (tidy : PowerTidy next) (same : sleepsBy next = sleepsBy sta) (late : expires sta = true) :
    TimedOut expires (sta :: rest) others result (stale ++ waitsBy next)
      (uncounted + sleepsBy sta) := by
  refine ⟨checked.tidy, ?_, ?_, ?_⟩
  · rw [List.append_assoc]
    exact checked.pool
  · rw [sleepers_cons, checked.count]
    omega
  · rw [List.append_eq_nil_iff, Nat.add_eq_zero_iff, and_and_and_comm, checked.fine,
      List.forall_mem_cons, and_comm]
    refine and_congr_left fun _ => ?_
    rw [sleepsBy_zero]
    constructor
    · exact fun quiet _ => quiet.2
    · intro awake
      rw [sleepsBy_zero.mpr (awake late)] at same
      exact ⟨waitsBy_empty (tidy.awake (sleepsBy_zero.mp same)), awake late⟩

end Check

/-- The others of the rest are those of the list, and what waits for the first station now. -/
theorem PowerHand.handOver (hand : PowerHand tim (sleepsBy sta) next (waits rest ++ others) 0)
    (same : SameHolder next sta)
    (own : ∀ aid ∈ held (sta :: rest), (1 ≤ aid ∧ aid < 17) ∧ aid ∉ others)
    (distinct : (held (sta :: rest)).Nodup) :
    TimPool tim (waits rest ++ (waitsBy next ++ others)) ∧
      (∀ aid ∈ held rest, (1 ≤ aid ∧ aid < 17) ∧ aid ∉ waitsBy next ++ others) ∧
      (held rest).Nodup := by
  rw [held_cons] at own distinct
  refine ⟨?_, fun aid later => ?_, (List.nodup_append.mp distinct).2.1⟩
  · refine hand.pool.perm ?_
    rw [← List.append_assoc, ← List.append_assoc]
    exact List.perm_append_comm.append_right others
  · obtain ⟨range, foreign⟩ := own aid (List.mem_append_right _ later)
    refine ⟨range, fun waiting => ?_⟩
    rcases List.mem_append.mp waiting with his | other
    · rw [← heldBy_congr same.associd] at distinct
      exact List.disjoint_of_nodup_append distinct (mem_waitsBy his) later
    · exact foreign other

/-- What the loop of `wifi_mac_TimeoutStations` leaves behind of the stations that it takes out. -/
theorem timeoutLoop_power (vmMainsta : Option Nat) (jiffies hz : Nat) (tim : TimVif)
    {table : List ApSta} (others : List Nat) (tidy : ∀ sta ∈ table, PowerTidy sta)
    (pool : TimPool tim (waits table ++ others))
    (own : ∀ aid ∈ held table, (1 ≤ aid ∧ aid < 17) ∧ aid ∉ others)
    (distinct : (held table).Nodup) :
    ∃ stale uncounted, TimedOut (timesOut vmMainsta jiffies hz) table others
      (timeoutLoop vmMainsta jiffies hz tim table) stale uncounted := by
  induction table generalizing tim others with
  | nil =>
    refine ⟨[], 0, tidy, pool, rfl, iff_of_true ⟨rfl, rfl⟩ ?_⟩
    exact fun sta member => absurd member List.not_mem_nil
  | cons sta rest induction =>
    have mine := tidy sta List.mem_cons_self
    have later : ∀ other ∈ rest, PowerTidy other := fun other member =>
      tidy other (List.mem_cons_of_mem _ member)
    have aged := pool.age mine own distinct
    have holder := (ageFrames_same tim sta).1.toSameHolder
    rw [timeoutLoop]
    rcases timeoutStation_cases vmMainsta jiffies hz tim sta with
      ⟨young, idle⟩ | ⟨late, gone⟩ | ⟨young, inact, kept⟩
    · rw [idle]
      rw [waits_cons, List.append_assoc] at pool
      have hand : PowerHand tim (sleepsBy sta) sta (waits rest ++ others) 0 :=
        ⟨mine, pool, rfl, by decide⟩
      obtain ⟨bits, range, nodup⟩ := hand.handOver (SameHolder.refl sta) own distinct
      obtain ⟨stale, uncounted, checked⟩ := induction tim _ later bits range nodup
      exact ⟨stale, uncounted, checked.stay mine rfl young⟩
    · rw [gone]
      obtain ⟨bits, range, nodup⟩ := aged.handOver holder own distinct
      obtain ⟨stale, uncounted, checked⟩ := induction _ _ later bits range nodup
      exact ⟨_, _, checked.go aged.tidy aged.count.symm late⟩
    · rw [kept]
      have same : SamePower { (ageFrames tim sta).2 with staInact := inact }
          (ageFrames tim sta).2 := ⟨⟨rfl, rfl⟩, rfl, rfl⟩
      have hand := aged.same same
      obtain ⟨bits, range, nodup⟩ := hand.handOver (same.toSameHolder.trans holder) own distinct
      obtain ⟨stale, uncounted, checked⟩ := induction _ _ later bits range nodup
      exact ⟨stale, uncounted, checked.stay hand.tidy hand.count.symm young⟩

theorem PowerKept.timeout (power : PowerKept ap [] 0) (kept : AidKept ap leaked)
    (jiffies hz : Nat) :
    ∃ stale uncounted, PowerKept (wifiMacTimeoutStations ap jiffies hz) stale uncounted ∧
      (stale = [] ∧ uncounted = 0 ↔ ∀ sta ∈ ap.ntNsta,
        timesOut ap.vmMainsta jiffies hz sta = true → sta.nodePwrMgt = false) := by
  obtain ⟨stale, uncounted, checked⟩ :=
    timeoutLoop_power ap.vmMainsta jiffies hz ap.tim [] power.tidy power.pool
      (fun aid member => ⟨kept.pool.range aid (List.mem_append_left _ member), List.not_mem_nil⟩)
      (List.nodup_append.mp kept.pool.distinct).1
  have pool := checked.pool
  rw [List.append_nil] at pool
  exact ⟨stale, uncounted, ⟨checked.tidy, pool, power.count.trans checked.count⟩, checked.fine⟩

end Timeout

end W522a.Ap
