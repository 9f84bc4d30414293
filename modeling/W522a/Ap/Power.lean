import W522a.Ap.Aid

/-!
The frames that an access point keeps for its stations, the bits that announce them and the count of
the stations that sleep: what each operation on one station does to the three of them.
-/

namespace W522a.Ap

/-- The association id that has to be announced for a station: its own, when frames are kept for it. -/
def waitsBy (sta : ApSta) : List Nat := if sta.staPstxqueue = [] then [] else heldBy sta

/-- The association ids that have to be announced. -/
def waits (table : List ApSta) : List Nat := table.flatMap waitsBy

/-- How often a station counts as one that sleeps. -/
def sleepsBy (sta : ApSta) : Nat := if sta.nodePwrMgt then 1 else 0

def sleepers (table : List ApSta) : Nat := (table.map sleepsBy).sum

theorem waits_cons (sta : ApSta) (rest : List ApSta) :
    waits (sta :: rest) = waitsBy sta ++ waits rest := List.flatMap_cons

theorem waits_append (first second : List ApSta) :
    waits (first ++ second) = waits first ++ waits second := List.flatMap_append

theorem waits_perm {table other : List ApSta} (same : table.Perm other) :
    (waits table).Perm (waits other) := same.flatMap_right waitsBy

theorem sleepers_cons (sta : ApSta) (rest : List ApSta) :
    sleepers (sta :: rest) = sleepsBy sta + sleepers rest := by
  rw [sleepers, List.map_cons, List.sum_cons]
  rfl

theorem sleepers_append (first second : List ApSta) :
    sleepers (first ++ second) = sleepers first + sleepers second := by
  rw [sleepers, List.map_append, List.sum_append]
  rfl

theorem sleepers_perm {table other : List ApSta} (same : table.Perm other) :
    sleepers table = sleepers other := (same.map sleepsBy).sum_eq

theorem waitsBy_empty {sta : ApSta} (empty : sta.staPstxqueue = []) : waitsBy sta = [] :=
  if_pos empty

theorem waitsBy_some {sta : ApSta} (frames : sta.staPstxqueue ≠ []) : waitsBy sta = heldBy sta :=
  if_neg frames

theorem sleepsBy_awake {sta : ApSta} (awake : sta.nodePwrMgt = false) : sleepsBy sta = 0 := by
  rw [sleepsBy, awake]
  rfl

theorem sleepsBy_asleep {sta : ApSta} (asleep : sta.nodePwrMgt = true) : sleepsBy sta = 1 :=
  if_pos asleep

theorem mem_waits {table : List ApSta} {aid : Nat} :
    aid ∈ waits table ↔ ∃ sta ∈ table, sta.staAssocid ≠ 0 ∧
      wifinetAid sta.staAssocid = aid ∧ sta.staPstxqueue ≠ [] := by
  rw [waits, List.mem_flatMap]
  refine exists_congr fun sta => and_congr_right fun _ => ?_
  by_cases empty : sta.staPstxqueue = []
  · rw [waitsBy_empty empty]
    exact iff_of_false List.not_mem_nil fun waiting => waiting.2.2 empty
  · rw [waitsBy_some empty]
    by_cases free : sta.staAssocid = 0
    · rw [heldBy_none free]
      exact iff_of_false List.not_mem_nil fun waiting => waiting.1 free
    · rw [heldBy_some free, List.mem_singleton]
      exact ⟨fun same => ⟨free, same.symm, empty⟩, fun waiting => waiting.2.1.symm⟩

/-- A station sleeps only when it is associated, and frames are kept for it only when it sleeps. -/
structure PowerTidy (sta : ApSta) : Prop where
  asleep : sta.nodePwrMgt = true → sta.staAssocid ≠ 0
  queued : sta.staPstxqueue ≠ [] → sta.nodePwrMgt = true

theorem PowerTidy.awake {sta : ApSta} (tidy : PowerTidy sta) (awake : sta.nodePwrMgt = false) :
    sta.staPstxqueue = [] := by
  by_contra frames
  rw [tidy.queued frames] at awake
  cases awake

theorem PowerTidy.free {sta : ApSta} (tidy : PowerTidy sta) (free : sta.staAssocid = 0) :
    sta.nodePwrMgt = false := by
  by_contra asleep
  exact tidy.asleep (by simpa using asleep) free

theorem PowerTidy.same {sta old : ApSta} (tidy : PowerTidy old) (same : SamePower sta old) :
    PowerTidy sta := by
  constructor
  · rw [same.pwrMgt, same.associd]
    exact tidy.asleep
  · rw [same.queue, same.pwrMgt]
    exact tidy.queued

theorem PowerTidy.waitsBy_nil {sta : ApSta} (tidy : PowerTidy sta) :
    waitsBy sta = [] ↔ sta.staPstxqueue = [] := by
  refine ⟨fun none => ?_, waitsBy_empty⟩
  by_contra frames
  rw [waitsBy_some frames, heldBy_some (tidy.asleep (tidy.queued frames))] at none
  cases none

theorem waitsBy_same {sta old : ApSta} (same : SamePower sta old) : waitsBy sta = waitsBy old := by
  rw [waitsBy, waitsBy, same.queue, heldBy_congr same.associd]

theorem sleepsBy_same {sta old : ApSta} (same : SamePower sta old) :
    sleepsBy sta = sleepsBy old := by
  rw [sleepsBy, sleepsBy, same.pwrMgt]

/-- The bitmap announces these association ids, and its bits are counted. -/
structure TimPool (tim : TimVif) (bits : List Nat) : Prop where
  maxAid : tim.vmMaxAid = 17
  length : tim.vmTimBitmap.length = 3
  pool : Pool.Kept 8 1 17 tim.vmTimBitmap bits
  pending : tim.vmPsPending = Bitmap.card 8 tim.vmTimBitmap

section Bits

variable {tim : TimVif} {bits : List Nat} {associd : Nat}

theorem TimPool.perm {other : List Nat} (pool : TimPool tim bits) (same : bits.Perm other) :
    TimPool tim other :=
  ⟨pool.maxAid, pool.length, pool.pool.perm same, pool.pending⟩

theorem TimPool.small (pool : TimPool tim bits) : Bitmap.card 8 tim.vmTimBitmap ≤ 2008 := by
  have whole : tim.vmTimBitmap.length = (17 + 7) / 8 := pool.length
  exact card_small (by decide) whole

theorem TimPool.set (pool : TimPool tim bits) (above : 1 ≤ wifinetAid associd)
    (below : wifinetAid associd < 17) (fresh : wifinetAid associd ∉ bits) :
    TimPool (wifiMacPwrsaveSetTim tim associd true) (wifinetAid associd :: bits) := by
  have small := pool.small
  obtain ⟨maxAid, length, kept, pending⟩ := pool
  have inside : wifinetAid associd / 8 < tim.vmTimBitmap.length := by omega
  have clear : Bitmap.isset 8 tim.vmTimBitmap (wifinetAid associd) = false := by
    rw [← Bool.not_eq_true, kept.bits]
    exact fresh
  rcases wifiMacPwrsaveSetTim_cases tim associd true with
    ⟨-, past | busy⟩ | ⟨-, -, -, changed⟩ | ⟨-, absurdity, -⟩
  · omega
  · rw [clear] at busy
    cases busy
  · have counted := Bitmap.card_setbit (by decide) inside clear
    rw [changed]
    refine ⟨maxAid, Bitmap.length_setbit.trans length, kept.grant above below inside clear, ?_⟩
    dsimp only
    rw [counted, pending]
    omega
  · cases absurdity

theorem TimPool.clear (pool : TimPool tim (wifinetAid associd :: bits)) :
    TimPool (wifiMacPwrsaveSetTim tim associd false) bits := by
  have small := pool.small
  obtain ⟨maxAid, length, kept, pending⟩ := pool
  have busy : Bitmap.isset 8 tim.vmTimBitmap (wifinetAid associd) = true :=
    (kept.bits _).mpr List.mem_cons_self
  have bounds := kept.range _ List.mem_cons_self
  rcases wifiMacPwrsaveSetTim_cases tim associd false with
    ⟨-, past | clear⟩ | ⟨-, absurdity, -⟩ | ⟨-, -, -, changed⟩
  · omega
  · rw [busy] at clear
    cases clear
  · cases absurdity
  · have counted := Bitmap.card_clrbit (by decide) busy
    rw [changed]
    refine ⟨maxAid, Bitmap.length_clrbit.trans length, kept.release (by decide), ?_⟩
    dsimp only
    rw [pending]
    omega

theorem TimPool.absent (pool : TimPool tim bits) (fresh : wifinetAid associd ∉ bits) :
    wifiMacPwrsaveSetTim tim associd false = tim := by
  rcases wifiMacPwrsaveSetTim_cases tim associd false with
    ⟨same, -⟩ | ⟨-, absurdity, -⟩ | ⟨-, -, busy, -⟩
  · exact same
  · cases absurdity
  · exact absurd ((pool.pool.bits _).mp busy) fresh

theorem TimPool.absent_zero (pool : TimPool tim bits) :
    wifiMacPwrsaveSetTim tim 0 false = tim := by
  refine pool.absent fun member => ?_
  have bounds := pool.pool.range _ member
  rw [show wifinetAid 0 = 0 from rfl] at bounds
  omega

end Bits

/-- A station in hand, with the association ids that are announced for others and the count of the
others that sleep. -/
structure PowerHand (tim : TimVif) (psSta : Nat) (sta : ApSta) (others : List Nat)
    (sleeping : Nat) : Prop where
  tidy : PowerTidy sta
  pool : TimPool tim (waitsBy sta ++ others)
  count : psSta = sleepsBy sta + sleeping
  few : sleeping < 65535

/-- The association id of a station is in the range, and is not announced for others. -/
structure Own (sta : ApSta) (others : List Nat) : Prop where
  range : ∀ aid ∈ heldBy sta, 1 ≤ aid ∧ aid < 17
  fresh : ∀ aid ∈ heldBy sta, aid ∉ others

section Hand

variable {tim : TimVif} {psSta sleeping : Nat} {sta : ApSta} {others : List Nat}

theorem Own.same {other : ApSta} (own : Own sta others) (same : SameHolder other sta) :
    Own other others := by
  have holds := heldBy_congr same.associd
  exact ⟨holds ▸ own.range, holds ▸ own.fresh⟩

theorem PowerHand.same {other : ApSta} (hand : PowerHand tim psSta sta others sleeping)
    (same : SamePower other sta) : PowerHand tim psSta other others sleeping := by
  refine ⟨hand.tidy.same same, ?_, ?_, hand.few⟩
  · rw [waitsBy_same same]
    exact hand.pool
  · rw [sleepsBy_same same]
    exact hand.count

/-- The queue of a station in hand is empty now, and its bit is cleared. -/
theorem PowerHand.emptied {next : ApSta} (hand : PowerHand tim psSta sta others sleeping)
    (own : Own sta others) (assoc : sta.staAssocid ≠ 0) (same : next.staAssocid = sta.staAssocid)
    (power : next.nodePwrMgt = sta.nodePwrMgt) (empty : next.staPstxqueue = []) :
    PowerHand (wifiMacPwrsaveSetTim tim sta.staAssocid false) psSta next others sleeping := by
  have pool := hand.pool
  refine ⟨⟨?_, fun frames => absurd empty frames⟩, ?_, ?_, hand.few⟩
  · rw [power, same]
    exact hand.tidy.asleep
  · rw [waitsBy_empty empty]
    by_cases frames : sta.staPstxqueue = []
    · rw [waitsBy_empty frames] at pool
      rw [pool.absent]
      · exact pool
      · refine own.fresh _ ?_
        rw [heldBy_some assoc]
        exact List.mem_singleton_self _
    · rw [waitsBy_some frames, heldBy_some assoc] at pool
      exact pool.clear
  · rw [hand.count, sleepsBy, sleepsBy, power]

/-- The queue of a station in hand changes, but is empty or not as before. -/
theorem PowerHand.shifted {next : ApSta} (hand : PowerHand tim psSta sta others sleeping)
    (same : next.staAssocid = sta.staAssocid) (power : next.nodePwrMgt = sta.nodePwrMgt)
    (empty : next.staPstxqueue = [] ↔ sta.staPstxqueue = []) :
    PowerHand tim psSta next others sleeping := by
  have waiting : waitsBy next = waitsBy sta := by
    rw [waitsBy, waitsBy, heldBy_congr same]
    simp only [empty]
  refine ⟨⟨?_, ?_⟩, ?_, ?_, hand.few⟩
  · rw [power, same]
    exact hand.tidy.asleep
  · intro frames
    rw [power]
    exact hand.tidy.queued fun none => frames (empty.mpr none)
  · rw [waiting]
    exact hand.pool
  · rw [hand.count, sleepsBy, sleepsBy, power]

private theorem psqueueFlush_empties (sta : ApSta) (fuel : Nat)
    (enough : sta.staPstxqueue.length < fuel) :
    psqueueFlush sta fuel = { sta with staPstxqueue := [] } := by
  induction fuel generalizing sta with
  | zero => exact absurd enough (Nat.not_lt_zero _)
  | succ fuel induction =>
    rw [psqueueFlush]
    cases frames : sta.staPstxqueue with
    | nil =>
      simp only [wifiMacPwrsavePsqueueSend, frames, if_true]
      rw [← frames]
    | cons frame rest =>
      simp only [wifiMacPwrsavePsqueueSend, frames]
      rw [frames, List.length_cons] at enough
      by_cases last : rest.length = 0
      · rw [if_pos last, List.eq_nil_of_length_eq_zero last]
      · rw [if_neg last, induction _ (Nat.lt_of_succ_lt_succ enough)]

theorem wifiMacPwrsavePsqueueFlush_eq (sta : ApSta) :
    wifiMacPwrsavePsqueueFlush sta = { sta with staPstxqueue := [] } :=
  psqueueFlush_empties sta _ (Nat.lt_succ_self _)

/-- A frame is kept for a station that sleeps. -/
theorem PowerHand.enqueue (hand : PowerHand tim psSta sta others sleeping) (own : Own sta others)
    (asleep : sta.nodePwrMgt = true) (vmBcnIntval : Nat) :
    PowerHand (wifiMacPwrsavePsqueueEnqueue vmBcnIntval tim sta).1 psSta
      (wifiMacPwrsavePsqueueEnqueue vmBcnIntval tim sta).2 others sleeping := by
  have assoc := hand.tidy.asleep asleep
  have pool := hand.pool
  unfold wifiMacPwrsavePsqueueEnqueue
  by_cases full : wifinetPsMaxQueue ≤ sta.staPstxqueue.length
  · rw [if_pos full]
    exact hand
  · rw [if_neg full]
    by_cases frames : sta.staPstxqueue = []
    · have first : (sta.staPstxqueue ++ [psqueueAge vmBcnIntval sta]).length = 1 := by
        rw [frames]
        rfl
      dsimp only
      rw [if_pos first]
      have mine : wifinetAid sta.staAssocid ∈ heldBy sta := by
        rw [heldBy_some assoc]
        exact List.mem_singleton_self _
      obtain ⟨above, below⟩ := own.range _ mine
      rw [waitsBy_empty frames] at pool
      have waiting : waitsBy { sta with
          staPstxqueue := sta.staPstxqueue ++ [psqueueAge vmBcnIntval sta] } =
            [wifinetAid sta.staAssocid] :=
        (waitsBy_some (List.append_ne_nil_of_right_ne_nil _ (List.cons_ne_nil _ _))).trans
          (heldBy_some assoc)
      refine ⟨⟨fun _ => assoc, fun _ => asleep⟩, ?_, hand.count, hand.few⟩
      rw [waiting]
      exact pool.set above below (own.fresh _ mine)
    · have more : (sta.staPstxqueue ++ [psqueueAge vmBcnIntval sta]).length ≠ 1 := by
        have some := List.length_pos_of_ne_nil frames
        rw [List.length_append, List.length_singleton]
        omega
      dsimp only
      rw [if_neg more]
      refine hand.shifted rfl rfl (iff_of_false ?_ frames)
      exact List.append_ne_nil_of_right_ne_nil _ (List.cons_ne_nil _ _)

theorem PowerHand.pspoll (hand : PowerHand tim psSta sta others sleeping) (own : Own sta others)
    (aid : Nat) :
    PowerHand (wifiMacPwrsaveRecvPspoll tim sta aid).1 psSta
      (wifiMacPwrsaveRecvPspoll tim sta aid).2 others sleeping := by
  unfold wifiMacPwrsaveRecvPspoll
  by_cases free : sta.staAssocid = 0
  · rw [if_pos free]
    exact hand
  · rw [if_neg free]
    by_cases other : aid ≠ sta.staAssocid
    · rw [if_pos other]
      exact hand
    · rw [if_neg other]
      cases frames : sta.staPstxqueue with
      | nil =>
        simp only [wifiMacPwrsavePsqueueSend, frames, if_true]
        exact hand.emptied own free rfl rfl frames
      | cons frame rest =>
        simp only [wifiMacPwrsavePsqueueSend, frames]
        by_cases last : rest.length = 0
        · rw [if_pos last]
          exact hand.emptied own free rfl rfl (List.eq_nil_of_length_eq_zero last)
        · rw [if_neg last]
          refine hand.shifted rfl rfl (iff_of_false ?_ ?_)
          · exact fun empty => last (List.length_eq_zero_iff.mpr empty)
          · rw [frames]
            exact List.cons_ne_nil _ _

theorem PowerHand.age (hand : PowerHand tim psSta sta others sleeping) (own : Own sta others) :
    PowerHand (ageFrames tim sta).1 psSta (ageFrames tim sta).2 others sleeping := by
  unfold ageFrames
  by_cases free : sta.staAssocid = 0
  · rw [if_pos free]
    exact hand
  · rw [if_neg free]
    have shorter : (sta.staPstxqueue.dropWhile (· < wifinetInactWait)).length ≤
        sta.staPstxqueue.length := (List.dropWhile_sublist _).length_le
    simp only [wifiMacPwrsavePsqueueAge, List.length_map]
    split
    · next expires =>
      refine hand.emptied own free rfl rfl ?_
      rw [List.map_eq_nil_iff, ← List.length_eq_zero_iff]
      exact expires.2
    · next left =>
      refine hand.shifted rfl rfl ?_
      rw [List.map_eq_nil_iff, ← List.length_eq_zero_iff, ← List.length_eq_zero_iff]
      omega

end Hand

section Change

variable {ap : ApVif} {sta : ApSta} {others : List Nat} {sleeping : Nat}

theorem PowerHand.uncount {tim : TimVif} {psSta : Nat}
    (hand : PowerHand tim psSta sta others sleeping) (asleep : sta.nodePwrMgt = true) :
    (psSta + 65535) % 65536 = sleeping := by
  have count := hand.count
  have few := hand.few
  rw [sleepsBy_asleep asleep] at count
  omega

/-- A station changes its power save state. When it wakes up, the change waits while the queues are
held, and else it is awake. -/
theorem PowerHand.stateChange (hand : PowerHand ap.tim ap.vmPsSta sta others sleeping)
    (own : Own sta others) (assoc : sta.staAssocid ≠ 0) (enable : Bool) :
    PowerHand (wifiMacPwrsaveStateChange ap sta enable).1.tim
      (wifiMacPwrsaveStateChange ap sta enable).1.vmPsSta
      (wifiMacPwrsaveStateChange ap sta enable).2 others sleeping := by
  have count := hand.count
  have few := hand.few
  unfold wifiMacPwrsaveStateChange
  by_cases on : enable = true
  · rw [if_pos on]
    by_cases asleep : sta.nodePwrMgt = true
    · rw [if_pos asleep]
      refine hand.same ⟨⟨rfl, rfl⟩, asleep.symm, rfl⟩
    · rw [if_neg asleep]
      have awake : sta.nodePwrMgt = false := by simpa using asleep
      rw [sleepsBy_awake awake] at count
      refine ⟨⟨fun _ => assoc, fun _ => rfl⟩, hand.pool, ?_, few⟩
      dsimp only
      rw [sleepsBy_asleep rfl]
      omega
  · rw [if_neg on]
    by_cases waiting : (sta.nodePwrMgt && ap.psqueueHeld) = true
    · rw [if_pos waiting]
      exact hand
    · rw [if_neg waiting]
      dsimp only
      rw [wifiMacPwrsavePsqueueFlush_eq]
      have emptied : PowerHand _ _ { sta with staPstxqueue := [] } others sleeping :=
        hand.emptied own assoc rfl rfl rfl
      have tidy : PowerTidy { sta with nodePwrMgt := false, staPstxqueue := [] } :=
        ⟨fun absurdity => (nomatch absurdity), fun frames => absurd rfl frames⟩
      refine ⟨tidy, ?_, ?_, few⟩
      · by_cases asleep : sta.nodePwrMgt = true
        · rw [if_pos asleep]
          exact emptied.pool
        · rw [if_neg asleep]
          exact emptied.pool
      · by_cases asleep : sta.nodePwrMgt = true
        · rw [if_pos asleep, sleepsBy_awake rfl, Nat.zero_add]
          exact hand.uncount asleep
        · rw [if_neg asleep, sleepsBy_awake rfl]
          rw [sleepsBy_awake (by simpa using asleep)] at count
          exact count

/-- A station that is asked to wake up is awake, unless the queues are held. -/
theorem stateChange_awake (ap : ApVif) (sta : ApSta) :
    (sta.nodePwrMgt = true ∧ ap.psqueueHeld = true ∧
      wifiMacPwrsaveStateChange ap sta false = (ap, sta)) ∨
    (wifiMacPwrsaveStateChange ap sta false).2.nodePwrMgt = false := by
  unfold wifiMacPwrsaveStateChange
  rw [if_neg Bool.false_ne_true]
  by_cases waiting : (sta.nodePwrMgt && ap.psqueueHeld) = true
  · rw [if_pos waiting]
    rw [Bool.and_eq_true] at waiting
    exact Or.inl ⟨waiting.1, waiting.2, rfl⟩
  · rw [if_neg waiting]
    right
    dsimp only
    rw [wifiMacPwrsavePsqueueFlush_eq]

theorem PowerHand.cleanup (hand : PowerHand ap.tim ap.vmPsSta sta others sleeping) :
    TimPool (nstaCleanup ap sta).1.tim others ∧ (nstaCleanup ap sta).1.vmPsSta = sleeping := by
  have count := hand.count
  have pool := hand.pool
  have counted : (if sta.nodePwrMgt then { ap with vmPsSta := (ap.vmPsSta + 65535) % 65536 }
      else ap).vmPsSta = sleeping := by
    by_cases asleep : sta.nodePwrMgt = true
    · rw [if_pos asleep]
      exact hand.uncount asleep
    · rw [if_neg asleep]
      rw [sleepsBy_awake (by simpa using asleep), Nat.zero_add] at count
      exact count
  have bits : (if sta.nodePwrMgt then { ap with vmPsSta := (ap.vmPsSta + 65535) % 65536 }
      else ap).tim = ap.tim := by
    split <;> rfl
  unfold nstaCleanup
  dsimp only [wifiMacPwrsavePsqueueClean]
  by_cases empty : sta.staPstxqueue = []
  · rw [if_pos (List.length_eq_zero_iff.mpr empty), bits]
    rw [waitsBy_empty empty] at pool
    exact ⟨pool, counted⟩
  · rw [if_neg fun none => empty (List.length_eq_zero_iff.mp none)]
    refine ⟨?_, counted⟩
    dsimp only
    rw [bits]
    rw [waitsBy_some empty, heldBy_some (hand.tidy.asleep (hand.tidy.queued empty))] at pool
    exact pool.clear

theorem PowerHand.cleanup_lost (hand : PowerHand ap.tim ap.vmPsSta sta others sleeping) :
    (nstaCleanup ap { sta with staAssocid := 0 }).1.tim = ap.tim ∧
      (nstaCleanup ap { sta with staAssocid := 0 }).1.vmPsSta = sleeping := by
  have counted := hand.cleanup.2
  unfold nstaCleanup at counted ⊢
  dsimp only [wifiMacPwrsavePsqueueClean] at counted ⊢
  have bits : (if sta.nodePwrMgt then { ap with vmPsSta := (ap.vmPsSta + 65535) % 65536 }
      else ap).tim = ap.tim := by
    split <;> rfl
  by_cases empty : sta.staPstxqueue.length = 0
  · rw [if_pos empty] at counted ⊢
    exact ⟨bits, counted⟩
  · rw [if_neg empty] at counted ⊢
    dsimp only at counted ⊢
    refine ⟨?_, counted⟩
    rw [bits]
    exact hand.pool.absent_zero

end Change

end W522a.Ap
