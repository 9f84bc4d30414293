import Mathlib.Data.List.Perm.Basic
import Mathlib.Data.Prod.Lex
import W522a.Common
import W522a.Lib.Loop
import W522a.Lib.Podium

/-!
`minstrel_ht_update_stats`: the success of each rate is averaged, and the rates with the best
throughput are listed for the next frames. `init_sample_table`: the order in which the others are
tried.
-/

namespace W522a.Rate

open Function (update)
open Podium (Best insertBest)

def ewmaLevel : Int := 96
def ewmaDiv : Int := 128
def maxThrRates : Nat := 4
def mcsGroupRates : Nat := 10
def minstrelCckGroup : Nat := 4

def int32 (value : Int) : Int := value.bmod (2 ^ 32)

def minstrelFrac (val div : Nat) : Nat := (val <<< 12) % 2 ^ 32 / div

/-- The step that `minstrel_ewma` and `minstrel_ewmv` make. -/
def ewmaIncr (diff weight : Int) : Int := (int32 ((ewmaDiv - weight) * diff)).tdiv ewmaDiv

def minstrelEwma (old new weight : Int) : Int := int32 (old + ewmaIncr (int32 (new - old)) weight)

def minstrelEwmv (oldEwmv curProb probEwma weight : Int) : Int :=
  let diff := int32 (curProb - probEwma)
  let incr := int32 (diff * ewmaIncr diff weight) >>> (12 : Nat)
  (int32 (weight * int32 (oldEwmv + incr))).tdiv ewmaDiv

structure MinstrelRateStats where
  attempts : Nat
  lastAttempts : Nat
  success : Nat
  lastSuccess : Nat
  attHist : Nat
  succHist : Nat
  probEwma : Nat
  probEwmv : Nat
  retryUpdated : Bool
  tpAvg : Nat
  deriving Inhabited

def minstrelCalcRateStats (mrs : MinstrelRateStats) : MinstrelRateStats :=
  let curProb := minstrelFrac mrs.success mrs.attempts
  let averaged :=
    if mrs.attempts = 0 then mrs
    else
      { mrs with
        probEwma := if mrs.attHist = 0 then curProb % 2 ^ 16 else
          (minstrelEwma mrs.probEwma (int32 curProb) ewmaLevel % 2 ^ 16).toNat
        probEwmv := if mrs.attHist = 0 then mrs.probEwmv else
          (minstrelEwmv mrs.probEwmv (int32 curProb) mrs.probEwma ewmaLevel % 2 ^ 16).toNat
        attHist := (mrs.attHist + mrs.attempts) % 2 ^ 32
        succHist := (mrs.succHist + mrs.success) % 2 ^ 32 }
  { averaged with
    lastSuccess := mrs.success
    lastAttempts := mrs.attempts
    success := 0
    attempts := 0 }

structure McsGroup where
  streams : Nat
  duration : List Nat

/-- `MCS_DURATION` of one stream -/
def mcsDuration (sgi : Bool) (bps : Nat) : Nat :=
  let syms := (3072000 + bps - 1) / bps
  (if sgi then (syms * 18000 + 4000) / 5 else (syms * 1000) <<< 2) / 16

def cckDuration (bitrate : Nat) (short : Bool) (len : Nat) : Nat :=
  1000 * (10 + (if short then 72 + 24 else 144 + 48) + 8 * (len + 4) * 10 / bitrate)

def cckAckDuration (short : Bool) (bitrate : Nat) : Nat :=
  cckDuration (if 10 < bitrate then 20 else 10) false 60 + cckDuration bitrate short 24000

def minstrelMcsGroups : List McsGroup :=
  let ht20 := [26, 52, 78, 104, 156, 208, 234, 260]
  let ht40 := [54, 108, 162, 216, 324, 432, 486, 540]
  let vht20 := ht20 ++ [312, 346]
  let vht40 := ht40 ++ [648, 720]
  let vht80 := [117, 234, 351, 468, 702, 936, 1053, 1170, 1404, 1560]
  let group (bps : List Nat) (sgi : Bool) : McsGroup := ⟨1, bps.map (mcsDuration sgi)⟩
  let cck (short : Bool) := [10, 20, 55, 110].map (cckAckDuration short)
  [group ht20 false, group ht20 true, group ht40 false, group ht40 true, ⟨0, cck false ++ cck true⟩,
    group vht20 false, group vht20 true, group vht40 false, group vht40 true, group vht80 false,
    group vht80 true]

/-- `struct minstrel_ht_sta`, with its groups: `groups[group].rates[i]` is at
`MCS_GROUP_RATES * group + i`. -/
structure MinstrelHtSta where
  ampduLen : Nat
  ampduPackets : Nat
  avgAmpduLen : Nat
  maxTpRate : List Nat
  maxProbRate : Nat
  lastStatsUpdate : Nat
  overhead : Nat
  sampleCount : Nat
  sampleSlow : Nat
  sampleGroup : Nat
  supported : Nat → Nat
  rates : Nat → MinstrelRateStats
  maxGroupTpRate : Nat → List Nat
  maxGroupProbRate : Nat → Nat
  index : Nat → Nat
  column : Nat → Nat
  deriving Inhabited

/-- `minstrel_ht_get_tp_avg`, where a division by 0 gives 0 -/
def minstrelHtGetTpAvg (mi : MinstrelHtSta) (group rate probEwma : Nat) : Nat :=
  if probEwma < minstrelFrac 10 100 then 0
  else
    let nsecs := if group ≠ minstrelCckGroup then
      1000 * mi.overhead % 2 ^ 32 / (mi.avgAmpduLen >>> 12) else 0
    let duration := minstrelMcsGroups[group]?.elim [] McsGroup.duration
    let nsecs := (nsecs + duration.getD rate 0) % 2 ^ 32
    let prob := if minstrelFrac 90 100 < probEwma then minstrelFrac 90 100 else probEwma
    (100 * (prob * 1000000 % 2 ^ 32 / nsecs) % 2 ^ 32) >>> 12

namespace MinstrelHtSta

variable (mi : MinstrelHtSta) (index : Nat)

def prob : Nat := (mi.rates index).probEwma

def tp : Nat :=
  minstrelHtGetTpAvg mi (index / mcsGroupRates) (index % mcsGroupRates) (mi.prob index)

/-- Throughput first, then success. -/
def rank : Nat ×ₗ Nat := toLex (mi.tp index, mi.prob index)

/-- The bit of the rate in `supported` of its group. -/
def allows : Bool := (mi.supported (index / mcsGroupRates)).testBit (index % mcsGroupRates)

end MinstrelHtSta

/-- `minstrel_ht_sort_best_tp_rates`, which goes up from the end of the list as long as the rate is
better than the one in the list -/
def minstrelHtSortBestTpRates (mi : MinstrelHtSta) (index : Nat) (tpList : List Nat) :
    MinstrelHtSta × List Nat :=
  ({ mi with rates := update mi.rates index { mi.rates index with tpAvg := mi.tp index } },
    insertBest mi.rank maxThrRates tpList index)

def minstrelHtSetBestProbRate (mi : MinstrelHtSta) (index : Nat) : MinstrelHtSta :=
  let group := index / mcsGroupRates
  let better (other : Nat) : Bool :=
    if minstrelFrac 75 100 < mi.prob index then mi.tp other < mi.tp index
    else mi.prob other < mi.prob index
  if group = minstrelCckGroup ∧ mi.maxTpRate.getD 0 0 / mcsGroupRates ≠ minstrelCckGroup then mi
  else
    { mi with
      maxProbRate := if better mi.maxProbRate then index else mi.maxProbRate
      maxGroupProbRate := if better (mi.maxGroupProbRate group) then
        update mi.maxGroupProbRate group index else mi.maxGroupProbRate }

def minstrelHtAssignBestTpRates (mi : MinstrelHtSta) (tmpMcsTpRate tmpCckTpRate : List Nat) :
    MinstrelHtSta × List Nat :=
  if mi.tp (tmpMcsTpRate.getD 0 0) < mi.tp (tmpCckTpRate.getD 0 0) then
    tmpCckTpRate.foldl (fun turn index => minstrelHtSortBestTpRates turn.1 index turn.2)
      (mi, tmpMcsTpRate)
  else (mi, tmpMcsTpRate)

def minstrelHtProbRateReduceStreams (mi : MinstrelHtSta) : MinstrelHtSta :=
  let streams (group : Nat) : Nat := minstrelMcsGroups[group]?.elim 0 McsGroup.streams
  let tmpMaxStreams := streams (mi.maxTpRate.getD 0 0 / mcsGroupRates)
  (List.range minstrelMcsGroups.length).foldl (fun turn group =>
    if mi.supported group = 0 ∨ group = minstrelCckGroup then turn
    else
      let tp := mi.tp (mcsGroupRates * group + mi.maxGroupProbRate group % mcsGroupRates)
      if turn.2 < tp ∧ streams group < tmpMaxStreams then
        ({ turn.1 with maxProbRate := mi.maxGroupProbRate group }, tp)
      else turn) (mi, 0) |>.1

/-- The locals of `minstrel_ht_update_stats`. -/
structure StatsTurn where
  mi : MinstrelHtSta
  tmpMcsTpRate : List Nat
  tmpCckTpRate : List Nat
  tmpGroupTpRate : List Nat

def rateTurn (group : Nat) (turn : StatsTurn) (i : Nat) : StatsTurn :=
  let index := mcsGroupRates * group + i
  if turn.mi.allows index then
    let mrs := minstrelCalcRateStats { turn.mi.rates index with retryUpdated := false }
    let mi := { turn.mi with rates := update turn.mi.rates index mrs }
    let sorted := minstrelHtSortBestTpRates mi index
      (if group ≠ minstrelCckGroup then turn.tmpMcsTpRate else turn.tmpCckTpRate)
    let grouped := minstrelHtSortBestTpRates sorted.1 index turn.tmpGroupTpRate
    { mi := minstrelHtSetBestProbRate grouped.1 index
      tmpMcsTpRate := if group ≠ minstrelCckGroup then sorted.2 else turn.tmpMcsTpRate
      tmpCckTpRate := if group ≠ minstrelCckGroup then turn.tmpCckTpRate else sorted.2
      tmpGroupTpRate := grouped.2 }
  else turn

def groupTurn (turn : StatsTurn) (group : Nat) : StatsTurn :=
  if turn.mi.supported group = 0 then turn
  else
    let mi := { turn.mi with sampleCount := (turn.mi.sampleCount + 1) % 2 ^ 32 }
    let turn := (List.range mcsGroupRates).foldl (rateTurn group) { turn with mi }
    { turn with mi := { turn.mi with
        maxGroupTpRate := update turn.mi.maxGroupTpRate group turn.tmpGroupTpRate } }

/-- What `minstrel_ht_update_stats` does in front of its loops. -/
def averageAmpdu (mi : MinstrelHtSta) : MinstrelHtSta :=
  let mi := { mi with sampleSlow := 0, sampleCount := 0 }
  if 0 < mi.ampduPackets then
    { mi with
      avgAmpduLen := (minstrelEwma (int32 mi.avgAmpduLen)
        (int32 (minstrelFrac mi.ampduLen mi.ampduPackets)) ewmaLevel % 2 ^ 32).toNat
      ampduLen := 0
      ampduPackets := 0 }
  else mi

def minstrelHtUpdateStats (jiffies : Nat) (mi : MinstrelHtSta) : MinstrelHtSta :=
  let zeros := List.replicate maxThrRates 0
  let turn := (List.range minstrelMcsGroups.length).foldl groupTurn
    ⟨averageAmpdu mi, zeros, zeros, zeros⟩
  let assigned := minstrelHtAssignBestTpRates turn.mi turn.tmpMcsTpRate turn.tmpCckTpRate
  let mi := minstrelHtProbRateReduceStreams { assigned.1 with maxTpRate := assigned.2 }
  { mi with
    sampleCount := mi.sampleCount * 10 % 2 ^ 32
    lastStatsUpdate := jiffies }

section Ranking

variable {start mi : MinstrelHtSta} {index other count : Nat} {want : Nat → Bool}
  {ranked : Nat → Nat ×ₗ Nat} {listed tpList : List Nat}

/-- What the throughput of a rate depends on, but its success, is the same. -/
structure Alike (start mi : MinstrelHtSta) : Prop where
  overhead : mi.overhead = start.overhead
  average : mi.avgAmpduLen = start.avgAmpduLen
  supported : mi.supported = start.supported

/-- The success of a rate when all are averaged. -/
def settled (start : MinstrelHtSta) (index : Nat) : Nat :=
  if start.allows index then
    (minstrelCalcRateStats { start.rates index with retryUpdated := false }).probEwma
  else start.prob index

/-- The rank of a rate when all are averaged. -/
def settledRank (start : MinstrelHtSta) (index : Nat) : Nat ×ₗ Nat :=
  toLex (minstrelHtGetTpAvg start (index / mcsGroupRates) (index % mcsGroupRates)
    (settled start index), settled start index)

theorem Alike.rank (alike : Alike start mi) (prob : mi.prob index = settled start index) :
    mi.rank index = settledRank start index := by
  rw [MinstrelHtSta.rank, MinstrelHtSta.tp, prob, settledRank]
  simp only [minstrelHtGetTpAvg, alike.overhead, alike.average]

theorem tp_le_of_rank_le (least : mi.rank index ≤ mi.rank other) : mi.tp index ≤ mi.tp other := by
  rw [MinstrelHtSta.rank, MinstrelHtSta.rank, Prod.Lex.toLex_le_toLex] at least
  rcases least with less | ⟨same, -⟩
  · exact Nat.le_of_lt less
  · exact Nat.le_of_eq same

theorem sorted_prob : (minstrelHtSortBestTpRates mi index tpList).1.prob = mi.prob := by
  funext other
  simp only [minstrelHtSortBestTpRates, MinstrelHtSta.prob, Function.update_apply]
  split
  · rename_i same
    rw [same]
  · rfl

private theorem sorted_rank : (minstrelHtSortBestTpRates mi index tpList).1.rank = mi.rank := by
  funext other
  rw [MinstrelHtSta.rank, MinstrelHtSta.tp, sorted_prob]
  rfl

theorem sorted_all (items : List Nat) (turn : MinstrelHtSta × List Nat)
    (best : Best ranked maxThrRates listed turn.2) (same : turn.1.rank = ranked) :
    let sorted := items.foldl (fun turn index => minstrelHtSortBestTpRates turn.1 index turn.2) turn
    Best ranked maxThrRates (listed ++ items) sorted.2 ∧ sorted.1.rank = ranked := by
  induction items generalizing turn listed with
  | nil => exact ⟨(List.append_nil listed).symm ▸ best, same⟩
  | cons item items induction =>
    subst same
    have rest := induction (minstrelHtSortBestTpRates turn.1 item turn.2) (best.insert item)
      sorted_rank
    rw [List.append_assoc] at rest
    exact rest

/-- What was sorted in when the rates up to `count` are done. -/
def MinstrelHtSta.offered (start : MinstrelHtSta) (want : Nat → Bool) (count : Nat) : List Nat :=
  List.replicate maxThrRates 0 ++
    (List.range count).filter fun index => start.allows index && want index

theorem lt_of_offered (member : index ∈ start.offered want count) : index = 0 ∨ index < count := by
  rcases List.mem_append.mp member with zero | known
  · exact .inl (List.eq_of_mem_replicate zero)
  · exact .inr (List.mem_range.mp (List.mem_of_mem_filter known))

/-- A list has the best of the rates up to `count`. -/
def Counted (start : MinstrelHtSta) (want : Nat → Bool) (count : Nat) (tpList : List Nat) : Prop :=
  Best (settledRank start) maxThrRates (start.offered want count) tpList

theorem Counted.pass (counted : Counted start want count tpList)
    (refused : (start.allows count && want count) = false) :
    Counted start want (count + 1) tpList := by
  rw [Counted, MinstrelHtSta.offered, List.range_succ, List.filter_append, List.filter_singleton,
    refused, cond_false, List.append_nil]
  exact counted

private theorem Counted.sort (counted : Counted start want count tpList)
    (allowed : (start.allows count && want count) = true)
    (ranks : ∀ index < count + 1, mi.rank index = settledRank start index) :
    Counted start want (count + 1) (minstrelHtSortBestTpRates mi count tpList).2 := by
  have before : ∀ index ∈ start.offered want count, index < count + 1 := by
    intro index member
    have place := lt_of_offered member
    omega
  rw [Counted, MinstrelHtSta.offered, List.range_succ, List.filter_append, List.filter_singleton,
    allowed, cond_true, ← List.append_assoc]
  have best : Best mi.rank maxThrRates (start.offered want count) tpList :=
    Best.congr counted fun index member => (ranks index (before index member)).symm
  refine (best.insert count).congr fun index member => ?_
  rcases List.mem_append.mp member with old | last
  · exact ranks index (before index old)
  · exact ranks index (List.mem_singleton.mp last ▸ Nat.lt_succ_self count)

end Ranking

section Counting

variable {start mi : MinstrelHtSta} {turn : StatsTurn} {index count done group i : Nat}

def isMcs (index : Nat) : Bool := index / mcsGroupRates ≠ minstrelCckGroup

/-- The rates up to `count` are averaged and sorted in. -/
structure Counting (start : MinstrelHtSta) (count : Nat) (turn : StatsTurn) : Prop where
  alike : Alike start turn.mi
  known : ∀ index < count, turn.mi.prob index = settled start index
  fresh : ∀ index, count ≤ index → turn.mi.rates index = start.rates index
  mcs : Counted start isMcs count turn.tmpMcsTpRate
  cck : Counted start (!isMcs ·) count turn.tmpCckTpRate

theorem Counting.skip (counting : Counting start count turn)
    (refused : start.allows count = false) : Counting start (count + 1) turn := by
  constructor
  case alike => exact counting.alike
  case known =>
    intro index before
    rcases Nat.lt_succ_iff_lt_or_eq.mp before with less | rfl
    · exact counting.known index less
    · rw [settled, refused, if_neg Bool.false_ne_true, MinstrelHtSta.prob,
        counting.fresh index (Nat.le_refl _), MinstrelHtSta.prob]
  case fresh => exact fun index after => counting.fresh index (Nat.le_of_succ_le after)
  case mcs => exact counting.mcs.pass (by rw [refused, Bool.false_and])
  case cck => exact counting.cck.pass (by rw [refused, Bool.false_and])

private theorem setBest_frame (mi : MinstrelHtSta) (index : Nat) : ∃ maxProbRate maxGroupProbRate,
    minstrelHtSetBestProbRate mi index = { mi with maxProbRate, maxGroupProbRate } := by
  rw [minstrelHtSetBestProbRate]
  split
  · exact ⟨_, _, rfl⟩
  · exact ⟨_, _, rfl⟩

private theorem Counting.rate (counting : Counting start (mcsGroupRates * group + i) turn)
    (inside : i < mcsGroupRates) :
    Counting start (mcsGroupRates * group + i + 1) (rateTurn group turn i) := by
  have place : (mcsGroupRates * group + i) / mcsGroupRates = group := by
    rw [mcsGroupRates] at inside ⊢
    omega
  rw [rateTurn]
  dsimp only
  generalize mcsGroupRates * group + i = count at *
  have allowed : turn.mi.allows count = start.allows count := by
    rw [MinstrelHtSta.allows, counting.alike.supported]
    rfl
  cases refused : start.allows count with
  | false =>
    rw [allowed, refused, if_neg Bool.false_ne_true]
    exact counting.skip refused
  | true =>
    rw [allowed, refused, if_pos rfl]
    generalize averaged : ({ turn.mi with rates := update turn.mi.rates count (minstrelCalcRateStats
      { turn.mi.rates count with retryUpdated := false }) } : MinstrelHtSta) = mi
    have alike : Alike start mi := averaged ▸ ⟨counting.alike.overhead, counting.alike.average,
      counting.alike.supported⟩
    have known : ∀ index < count + 1, mi.prob index = settled start index := by
      intro index before
      rw [← averaged, MinstrelHtSta.prob]
      dsimp only
      rw [Function.update_apply]
      split
      · rename_i same
        rw [same, settled, if_pos refused, counting.fresh count (Nat.le_refl _)]
      · exact counting.known index (by omega)
    have ranks : ∀ index < count + 1, mi.rank index = settledRank start index :=
      fun index before => alike.rank (known index before)
    obtain ⟨maxProbRate, maxGroupProbRate, framed⟩ := setBest_frame
      (minstrelHtSortBestTpRates (minstrelHtSortBestTpRates mi count
        (if group ≠ minstrelCckGroup then turn.tmpMcsTpRate else turn.tmpCckTpRate)).1 count
          turn.tmpGroupTpRate).1 count
    rw [framed]
    constructor
    case alike => exact ⟨alike.overhead, alike.average, alike.supported⟩
    case known =>
      intro index before
      rw [← known index before]
      show (minstrelHtSortBestTpRates _ count turn.tmpGroupTpRate).1.prob index = _
      rw [sorted_prob, sorted_prob]
    case fresh =>
      intro index after
      have apart : index ≠ count := by omega
      have kept : mi.rates index = turn.mi.rates index := averaged ▸ Function.update_of_ne apart _ _
      exact (Function.update_of_ne apart _ _).trans ((Function.update_of_ne apart _ _).trans
        (kept.trans (counting.fresh index (by omega))))
    case mcs =>
      by_cases cck : group = minstrelCckGroup
      · simpa [cck] using counting.mcs.pass (by simp [isMcs, place, cck])
      · simpa [cck] using counting.mcs.sort (by simp [isMcs, place, cck, refused]) ranks
    case cck =>
      by_cases cck : group = minstrelCckGroup
      · simpa [cck] using counting.cck.sort (by simp [isMcs, place, cck, refused]) ranks
      · simpa [cck] using counting.cck.pass (by simp [isMcs, place, cck])

private theorem Counting.whole (counting : Counting start (mcsGroupRates * group) turn) :
    Counting start (mcsGroupRates * (group + 1)) (groupTurn turn group) := by
  rw [groupTurn, counting.alike.supported]
  split
  · rename_i none
    have skipped : ∀ i ≤ mcsGroupRates, Counting start (mcsGroupRates * group + i) turn := by
      intro i upto
      induction i with
      | zero => exact counting
      | succ i induction =>
        refine (induction (Nat.le_of_succ_le upto)).skip ?_
        have place : (mcsGroupRates * group + i) / mcsGroupRates = group := by
          rw [mcsGroupRates] at upto ⊢
          omega
        rw [MinstrelHtSta.allows, place, none]
        exact Nat.zero_testBit _
    exact skipped mcsGroupRates (Nat.le_refl _)
  · have begun : Counting start (mcsGroupRates * group) { turn with mi := { turn.mi with
        sampleCount := (turn.mi.sampleCount + 1) % 2 ^ 32 } } :=
      { counting with alike := ⟨counting.alike.overhead, counting.alike.average,
          counting.alike.supported⟩ }
    have done : ∀ i ≤ mcsGroupRates, Counting start (mcsGroupRates * group + i)
        ((List.range i).foldl (rateTurn group) { turn with mi := { turn.mi with
          sampleCount := (turn.mi.sampleCount + 1) % 2 ^ 32 } }) := by
      intro i upto
      induction i with
      | zero => exact begun
      | succ i induction =>
        rw [List.range_succ, List.foldl_append]
        exact (induction (Nat.le_of_succ_le upto)).rate upto
    have whole := done mcsGroupRates (Nat.le_refl _)
    exact { whole with
      alike := ⟨whole.alike.overhead, whole.alike.average, whole.alike.supported⟩ }

end Counting

section Update

private theorem reduce_frame (mi : MinstrelHtSta) : ∃ maxProbRate,
    minstrelHtProbRateReduceStreams mi = { mi with maxProbRate } := by
  rw [minstrelHtProbRateReduceStreams]
  suffices all : ∀ groups : List Nat, ∀ turn : MinstrelHtSta × Nat,
      (∃ maxProbRate, turn.1 = { mi with maxProbRate }) → ∃ maxProbRate,
        (groups.foldl _ turn).1 = { mi with maxProbRate } from all _ _ ⟨_, rfl⟩
  intro groups
  induction groups with
  | nil => exact fun turn framed => framed
  | cons group groups induction =>
    rintro turn ⟨maxProbRate, framed⟩
    refine induction _ ?_
    dsimp only
    split
    · exact ⟨_, framed⟩
    · split
      · exact ⟨_, by rw [framed]⟩
      · exact ⟨_, framed⟩

/-- A rate of the CCK group has a higher throughput than all the others. -/
def CckFaster (mi : MinstrelHtSta) (mcs cck : List Nat) : Prop :=
  ∃ fast ∈ cck, ∀ index ∈ mcs, mi.tp index < mi.tp fast

/-- The rates that frames are sent at are the best of those that the station supports, by throughput
and then by success; those of the CCK group count only when one is faster than all the others. -/
theorem max_tp_rate_best (jiffies : Nat) (mi : MinstrelHtSta) :
    let later := minstrelHtUpdateStats jiffies mi
    let count := mcsGroupRates * minstrelMcsGroups.length
    let mcs := mi.offered isMcs count
    let cck := mi.offered (!isMcs ·) count
    (¬ CckFaster later mcs cck → Best later.rank maxThrRates mcs later.maxTpRate) ∧
      (CckFaster later mcs cck → Best later.rank maxThrRates (mcs ++ cck) later.maxTpRate) := by
  dsimp only
  set start := averageAmpdu mi with averaged
  have offered : ∀ want count, mi.offered want count = start.offered want count := by
    intro want count
    rw [averaged, averageAmpdu]
    split <;> rfl
  have counted : ∀ groups, Counting start (mcsGroupRates * groups)
      ((List.range groups).foldl groupTurn ⟨start, List.replicate maxThrRates 0,
        List.replicate maxThrRates 0, List.replicate maxThrRates 0⟩) := by
    intro groups
    induction groups with
    | zero =>
      exact ⟨⟨rfl, rfl, rfl⟩, fun _ before => absurd before (Nat.not_lt_zero _), fun _ _ => rfl,
        Podium.best_self 0, Podium.best_self 0⟩
    | succ groups induction =>
      rw [List.range_succ, List.foldl_append]
      exact induction.whole
  have counting := counted minstrelMcsGroups.length
  rw [minstrelHtUpdateStats, ← averaged, offered, offered]
  dsimp only
  generalize (List.range minstrelMcsGroups.length).foldl groupTurn _ = turn at counting
  generalize bound : mcsGroupRates * minstrelMcsGroups.length = count at counting
  have same : ∀ want, ∀ index ∈ start.offered want count,
      settledRank start index = turn.mi.rank index := by
    intro want index member
    have positive : 0 < count := bound ▸ (by decide)
    have place := lt_of_offered member
    exact (counting.alike.rank (counting.known index (by omega))).symm
  have mcs := Best.congr counting.mcs (same isMcs)
  have cck := Best.congr counting.cck (same (!isMcs ·))
  generalize start.offered isMcs count = mcsRates at mcs
  generalize start.offered (!isMcs ·) count = cckRates at cck
  -- what was not better than the first of its list is compared through it
  obtain ⟨slow, slows, mcsList⟩ := List.exists_cons_of_length_eq_add_one mcs.length
  obtain ⟨fast, fasts, cckList⟩ := List.exists_cons_of_length_eq_add_one cck.length
  have faster : CckFaster turn.mi mcsRates cckRates ↔ turn.mi.tp slow < turn.mi.tp fast := by
    rw [mcsList] at mcs
    rw [cckList] at cck
    constructor
    · rintro ⟨other, member, above⟩
      exact Nat.lt_of_lt_of_le (above slow (mcs.known List.mem_cons_self))
        (tp_le_of_rank_le (cck.first other member))
    · intro above
      exact ⟨fast, cck.known List.mem_cons_self, fun index member =>
        Nat.lt_of_le_of_lt (tp_le_of_rank_le (mcs.first index member)) above⟩
  obtain ⟨assigned, assigns⟩ : ∃ assigned, assigned =
    minstrelHtAssignBestTpRates turn.mi turn.tmpMcsTpRate turn.tmpCckTpRate := ⟨_, rfl⟩
  have assign := assigns
  rw [minstrelHtAssignBestTpRates, mcsList, cckList, List.getD_cons_zero, List.getD_cons_zero,
    ← mcsList, ← cckList] at assign
  obtain ⟨maxProbRate, reduced⟩ := reduce_frame { assigned.1 with maxTpRate := assigned.2 }
  rw [← assigns, reduced]
  show (¬ CckFaster assigned.1 _ _ → Best assigned.1.rank _ _ assigned.2) ∧
    (CckFaster assigned.1 _ _ → Best assigned.1.rank _ _ assigned.2)
  by_cases above : turn.mi.tp slow < turn.mi.tp fast
  · rw [if_pos above] at assign
    obtain ⟨best, rank⟩ := sorted_all turn.tmpCckTpRate (turn.mi, turn.tmpMcsTpRate) mcs rfl
    rw [← assign] at best rank
    have tp : assigned.1.tp = turn.mi.tp :=
      funext fun index => congrArg (fun rank => (ofLex rank).1) (congrFun rank index)
    rw [CckFaster, tp, rank]
    exact ⟨fun slower => absurd (faster.mpr above) slower, fun _ => best.absorb cck⟩
  · rw [if_neg above] at assign
    rw [assign]
    exact ⟨fun _ => mcs, fun quick => absurd (faster.mp quick) above⟩

end Update

section SampleTable

/-- `i` in the first free slot of a column of `sample_table` from a random one on. -/
def placeSample (rnd : Nat → Nat) (column : List Nat) (i : Nat) : List Nat :=
  let newIdx := Machine.whileDo (fun newIdx => !decide (column.getD newIdx 0xff = 0xff))
    (fun newIdx => (newIdx + 1) % mcsGroupRates) mcsGroupRates ((i + rnd i) % mcsGroupRates)
  column.set newIdx i

/-- `init_sample_table`, with the random bytes of each column -/
def initSampleTable (rnd : Nat → Nat → Nat) : List (List Nat) :=
  (List.range 10).map fun col =>
    (List.range mcsGroupRates).foldl (placeSample (rnd col)) (List.replicate mcsGroupRates 0xff)

/-- A column in which some slots are left. -/
def Sampled (column : List Nat) (i : Nat) : Prop :=
  column.Perm (List.range i ++ List.replicate (mcsGroupRates - i) 0xff)

private theorem Sampled.length {column : List Nat} {i : Nat} (sampled : Sampled column i)
    (upto : i ≤ mcsGroupRates) : column.length = mcsGroupRates := by
  rw [sampled.length_eq, List.length_append, List.length_range, List.length_replicate]
  omega

private theorem Sampled.place {column : List Nat} {i : Nat} (sampled : Sampled column i)
    (inside : i < mcsGroupRates) (rnd : Nat → Nat) :
    Sampled (placeSample rnd column i) (i + 1) := by
  have length := sampled.length (Nat.le_of_lt inside)
  obtain ⟨slot, low, value⟩ := List.getElem_of_mem (sampled.mem_iff.mpr
    (List.mem_append_right _ (List.mem_replicate.mpr ⟨by omega, rfl⟩)))
  have right : decide (column.getD slot 0xff = 0xff) = true := by
    rw [List.getD_eq_getElem?_getD, List.getElem?_eq_getElem low, value]
    rfl
  -- the search ends at a slot that is free
  obtain ⟨count, -, found, free, -⟩ := Machine.whileDo_round
    (fun slot => decide (column.getD slot 0xff = 0xff)) (length ▸ low) right
    (Nat.mod_lt (i + rnd i) (show 0 < mcsGroupRates by decide))
  have within : ((i + rnd i) % mcsGroupRates + count) % mcsGroupRates < mcsGroupRates :=
    Nat.mod_lt _ (by decide)
  rw [placeSample, found]
  generalize ((i + rnd i) % mcsGroupRates + count) % mcsGroupRates = newIdx at *
  have free := of_decide_eq_true free
  rw [List.getD_eq_getElem?_getD, List.getElem?_eq_getElem (length ▸ within),
    Option.getD_some] at free
  have left : mcsGroupRates - i = mcsGroupRates - (i + 1) + 1 := by omega
  have rest : (column.eraseIdx newIdx).Perm
      (List.range i ++ List.replicate (mcsGroupRates - (i + 1)) 0xff) := by
    refine List.Perm.cons_inv (a := 0xff) ?_
    have whole := List.getElem_cons_eraseIdx_perm (length ▸ within)
    rw [free] at whole
    rw [Sampled, left, List.replicate_succ] at sampled
    exact whole.trans (sampled.trans List.perm_middle)
  rw [Sampled, List.range_succ, List.append_assoc]
  exact (List.set_perm_cons_eraseIdx (length ▸ within) i).trans
    ((rest.cons i).trans List.perm_middle.symm)

/-- Each column samples every rate of a group once, whatever the random bytes are. -/
theorem sample_table_perm (rnd : Nat → Nat → Nat) (col : Fin 10) :
    ((initSampleTable rnd).getD col []).Perm (List.range mcsGroupRates) := by
  have sampled : ∀ i ≤ mcsGroupRates, Sampled ((List.range i).foldl (placeSample (rnd col))
      (List.replicate mcsGroupRates 0xff)) i := by
    intro i upto
    induction i with
    | zero => exact List.Perm.refl _
    | succ i induction =>
      rw [List.range_succ, List.foldl_append]
      exact (induction (Nat.le_of_succ_le upto)).place upto (rnd col)
  have whole := sampled mcsGroupRates (Nat.le_refl _)
  rw [Sampled, Nat.sub_self, List.replicate_zero, List.append_nil] at whole
  simpa [initSampleTable] using whole

def minstrelSetNextSampleIdx (mi : MinstrelHtSta) : MinstrelHtSta :=
  let groups := minstrelMcsGroups.length
  let group := Machine.whileDo (fun group => !decide (mi.supported group ≠ 0))
    (fun group => (group + 1) % groups) groups ((mi.sampleGroup + 1) % groups)
  let wraps := mcsGroupRates ≤ mi.index group + 1
  { mi with
    sampleGroup := group
    index := update mi.index group (if wraps then 0 else mi.index group + 1)
    column := if wraps then update mi.column group
      (if 10 ≤ mi.column group + 1 then 0 else mi.column group + 1) else mi.column }

/-- The search of a call ends at a group that has a rate. -/
theorem minstrelSetNextSampleIdx_supported (mi : MinstrelHtSta)
    (group : Fin minstrelMcsGroups.length) (supported : mi.supported group ≠ 0) :
    mi.supported (minstrelSetNextSampleIdx mi).sampleGroup ≠ 0 := by
  obtain ⟨ahead, -, found, stops, -⟩ := Machine.whileDo_round
    (fun group => decide (mi.supported group ≠ 0)) group.isLt (decide_eq_true supported)
    (Nat.mod_lt (mi.sampleGroup + 1) (show 0 < minstrelMcsGroups.length by decide))
  have next : (minstrelSetNextSampleIdx mi).sampleGroup =
      ((mi.sampleGroup + 1) % minstrelMcsGroups.length + ahead) % minstrelMcsGroups.length := found
  rw [next]
  exact of_decide_eq_true stops

private theorem iterate_supported (mi : MinstrelHtSta) (calls : Nat) :
    (minstrelSetNextSampleIdx^[calls] mi).supported = mi.supported := by
  induction calls with
  | zero => rfl
  | succ calls ih =>
    rw [Function.iterate_succ_apply']
    exact ih

/-- Every group with a rate that the station supports has its turn within as many calls as there
are groups, and each call ends at such a group. -/
theorem sample_group_visited (mi : MinstrelHtSta) (group : Fin minstrelMcsGroups.length)
    (supported : mi.supported group ≠ 0) : (∃ calls, calls < minstrelMcsGroups.length ∧
      (minstrelSetNextSampleIdx^[calls + 1] mi).sampleGroup = group) ∧
      ∀ calls, mi.supported (minstrelSetNextSampleIdx^[calls + 1] mi).sampleGroup ≠ 0 := by
  constructor
  case right =>
    intro calls
    have same := iterate_supported mi calls
    rw [Function.iterate_succ_apply', ← same]
    exact minstrelSetNextSampleIdx_supported _ group (same ▸ supported)
  obtain ⟨group, inside⟩ := group
  have whole : minstrelMcsGroups.length = 11 := rfl
  suffices turns : ∀ left, (group + 10 - mi.sampleGroup % 11) % 11 = left → ∃ calls ≤ left,
      (minstrelSetNextSampleIdx^[calls + 1] mi).sampleGroup = group by
    obtain ⟨calls, bound, reached⟩ := turns _ rfl
    exact ⟨calls, by omega, reached⟩
  intro left
  induction left using Nat.strongRecOn generalizing mi with
  | ind left induction =>
    intro distance
    obtain ⟨ahead, less, found, -, passed⟩ := Machine.whileDo_round
      (fun group => decide (mi.supported group ≠ 0)) inside (decide_eq_true supported)
      (Nat.mod_lt (mi.sampleGroup + 1) (show 0 < minstrelMcsGroups.length by decide))
    have next : (minstrelSetNextSampleIdx mi).sampleGroup =
        ((mi.sampleGroup + 1) % 11 + ahead) % 11 := found
    have most : ahead ≤ left := by
      refine Nat.le_of_not_lt fun far => ?_
      have missed := of_decide_eq_false (passed left far)
      have place : ((mi.sampleGroup + 1) % 11 + left) % 11 = group := by omega
      exact missed (place ▸ supported)
    rcases Nat.lt_or_eq_of_le most with before | equal
    · obtain ⟨calls, bound, reached⟩ := induction (left - ahead - 1) (by omega)
        (minstrelSetNextSampleIdx mi) supported (by omega)
      exact ⟨calls + 1, by omega, reached⟩
    · exact ⟨0, Nat.zero_le _, next.trans (by omega)⟩

theorem sample_group_visited_last :
    (∃ calls, calls < minstrelMcsGroups.length ∧ (minstrelSetNextSampleIdx^[calls + 1]
      { (default : MinstrelHtSta) with supported := fun group => group }).sampleGroup = 10) ∧
      ∀ calls, (minstrelSetNextSampleIdx^[calls + 1]
        { (default : MinstrelHtSta) with supported := fun group => group }).sampleGroup ≠ 0 :=
  sample_group_visited { (default : MinstrelHtSta) with supported := fun group => group }
    ⟨10, by decide⟩ (by decide)

end SampleTable

end W522a.Rate
