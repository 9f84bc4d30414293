import W522a.Hal.Scatter
import Mathlib.Data.List.Basic

/-!
Runs of `hi_tx_frame`, in which transfers may fail.
-/

namespace W522a.Hal

open Memory (Traced emit)

def Outcome.Through (outcome : Outcome) : Prop := outcome.cmdError = 0 ∧ outcome.dataError = 0

instance : DecidablePred Outcome.Through := fun outcome =>
  inferInstanceAs (Decidable (outcome.cmdError = 0 ∧ outcome.dataError = 0))

def transferred (requests : List ScatRequest) : List TxDesc :=
  (requests.filter fun request => request.outcome.Through).flatMap ScatRequest.sgList

/-- A request has at most 16 entries and a number of blocks that is that of its bytes and fits nine
bits. -/
structure WellFormed (conf : ScatConf) (request : ScatRequest) : Prop where
  entries : request.sgList.length ≤ sgNumMax
  bytes : request.blkcnt * func4Blksize = (request.sgList.map conf.sgDataSize).sum
  blocks : request.blkcnt ≤ sdioMaxBlkCnt

/-- What a call ought to do: it ends, transfers descriptors in order and none twice, in requests
that are well formed, moves the offset by their pages, and succeeds exactly if all are
transferred. -/
structure CallRight {conf : ScatConf} (counters : TxCounters) (call : ScatCall conf) : Prop where
  formed : ∀ request ∈ (hiTxFrame counters call).log, WellFormed conf request
  ordered : (transferred (hiTxFrame counters call).log).Sublist call.descs
  ended : ∃ ret next, (hiTxFrame counters call).value = some (ret, next) ∧
    next.txPageOffset =
      (counters.txPageOffset + pages (transferred (hiTxFrame counters call).log))
        % txAddresstableNum ∧
    (ret = 0 ↔ transferred (hiTxFrame counters call).log = call.descs)

/-- The descriptors that go into the next request. -/
def ScatConf.chunk (conf : ScatConf) (descs : List TxDesc) : List TxDesc :=
  scatEntries conf 0 (descs.take sgNumMax)

/-- The last transfer of a request, and how often another may still be tried again. -/
def lastTry (outcomes : Nat → Outcome) : Nat → Nat → Nat × Nat
  | 0, index => (index, 0)
  | left + 1, index =>
    if (outcomes index).cmdError = 0 then (index, left + 1) else lastTry outcomes left (index + 1)

def GivenUp (conf : ScatConf) (outcomes : Nat → Outcome) : Nat → List TxDesc → Nat → Nat → Prop
  | 0, _, _, _ => True
  | fuel + 1, descs, left, index =>
    let (last, left) := lastTry outcomes left index
    (outcomes last).cmdError ≠ 0 ∧
      (descs.drop (conf.chunk descs).length ≠ [] →
        GivenUp conf outcomes fuel (descs.drop (conf.chunk descs).length) left (last + 1))

/-- Requests go through, without an error of their data and with pages that take the offset round at
most once, until from one on every request is given up. -/
def Orderly (conf : ScatConf) (outcomes : Nat → Outcome) :
    Nat → List TxDesc → Nat → Nat → Nat → Prop
  | 0, _, _, _, _ => True
  | fuel + 1, descs, left, index, offset =>
    let (last, left) := lastTry outcomes left index
    if (outcomes last).cmdError = 0 then
      (outcomes last).dataError = 0 ∧
        offset + pages (conf.chunk descs) < 2 * txAddresstableNum ∧
        (descs.drop (conf.chunk descs).length ≠ [] →
          Orderly conf outcomes fuel (descs.drop (conf.chunk descs).length) left (last + 1)
            ((offset + pages (conf.chunk descs)) % txAddresstableNum))
    else
      descs.drop (conf.chunk descs).length ≠ [] →
        GivenUp conf outcomes fuel (descs.drop (conf.chunk descs).length) left (last + 1)

instance GivenUp.decidable (conf : ScatConf) (outcomes : Nat → Outcome) :
    ∀ (fuel : Nat) (descs : List TxDesc) (left index : Nat),
      Decidable (GivenUp conf outcomes fuel descs left index)
  | 0, _, _, _ => inferInstanceAs (Decidable True)
  | fuel + 1, descs, left, index =>
    haveI := GivenUp.decidable conf outcomes fuel (descs.drop (conf.chunk descs).length)
      (lastTry outcomes left index).2 ((lastTry outcomes left index).1 + 1)
    inferInstanceAs (Decidable (_ ∧ (_ → _)))

instance Orderly.decidable (conf : ScatConf) (outcomes : Nat → Outcome) :
    ∀ (fuel : Nat) (descs : List TxDesc) (left index offset : Nat),
      Decidable (Orderly conf outcomes fuel descs left index offset)
  | 0, _, _, _, _ => inferInstanceAs (Decidable True)
  | fuel + 1, descs, left, index, offset =>
    haveI := Orderly.decidable conf outcomes fuel (descs.drop (conf.chunk descs).length)
      (lastTry outcomes left index).2 ((lastTry outcomes left index).1 + 1)
      ((offset + pages (conf.chunk descs)) % txAddresstableNum)
    inferInstanceAs (Decidable (if (outcomes (lastTry outcomes left index).1).cmdError = 0 then
      _ ∧ _ ∧ (_ → _) else _ → _))

/-- There are descriptors, and nothing goes through behind a request that is given up, in this call
or before it. -/
def CallMeets {conf : ScatConf} (counters : TxCounters) (call : ScatCall conf) : Prop :=
  call.descs ≠ [] ∧
    (GivenUp conf call.outcomes call.descs.length call.descs 5 0 ∨
      (counters.sendPageNum = 0 ∧
        Orderly conf call.outcomes call.descs.length call.descs 5 0 counters.txPageOffset))

instance CallMeets.decidable {conf : ScatConf} (counters : TxCounters) (call : ScatCall conf) :
    Decidable (CallMeets counters call) :=
  inferInstanceAs (Decidable (call.descs ≠ [] ∧
    (GivenUp conf call.outcomes call.descs.length call.descs 5 0 ∨
      (counters.sendPageNum = 0 ∧
        Orderly conf call.outcomes call.descs.length call.descs 5 0 counters.txPageOffset))))

variable {conf : ScatConf} {outcomes : Nat → Outcome} {descs sgList rest : List TxDesc}
  {desc : TxDesc} {fuel left index total blkcnt : Nat} {counters next : TxCounters}

section Entries

theorem scatEntries_starts (total : Nat) (descs : List TxDesc) :
    scatEntries conf total descs <+: descs := by
  induction descs generalizing total with
  | nil => exact List.prefix_rfl
  | cons desc rest ih =>
    rw [scatEntries]
    split
    · exact List.nil_prefix
    · exact (List.prefix_cons_inj desc).mpr (ih _)

private theorem scatEntries_bytes (total : Nat) (descs : List TxDesc)
    (inside : total ≤ conf.maxSgSize) :
    total + ((scatEntries conf total descs).map conf.sgDataSize).sum ≤ conf.maxSgSize := by
  induction descs generalizing total with
  | nil => exact inside
  | cons desc rest ih =>
    rw [scatEntries]
    split
    · exact inside
    · rename_i fits
      have more := ih (total + conf.sgDataSize desc) (by omega)
      rw [List.map_cons, List.sum_cons]
      omega

theorem chunk_starts (descs : List TxDesc) : conf.chunk descs <+: descs :=
  (scatEntries_starts 0 _).trans (List.take_prefix _ _)

private theorem length_chunk (descs : List TxDesc) : (conf.chunk descs).length ≤ sgNumMax :=
  Nat.le_trans (scatEntries_starts 0 _).length_le (List.length_take_le _ _)

theorem chunk_ne_nil (some : descs ≠ [])
    (fits : ∀ desc ∈ descs, conf.sgDataSize desc ≤ conf.maxSgSize) : conf.chunk descs ≠ [] := by
  cases descs with
  | nil => exact absurd rfl some
  | cons desc rest =>
    have first := fits desc List.mem_cons_self
    rw [ScatConf.chunk, List.take_cons (by decide), scatEntries, if_neg (by omega)]
    exact List.cons_ne_nil _ _

theorem chunk_append (descs : List TxDesc) :
    conf.chunk descs ++ descs.drop (conf.chunk descs).length = descs := by
  obtain ⟨rest, split⟩ : conf.chunk descs <+: descs := chunk_starts descs
  calc conf.chunk descs ++ descs.drop (conf.chunk descs).length
      = conf.chunk descs ++ (conf.chunk descs ++ rest).drop (conf.chunk descs).length := by
        rw [split]
    _ = descs := by rw [List.drop_left, split]

theorem sgDataSize_blocks (desc : TxDesc) :
    conf.sgDataSize desc / func4Blksize * func4Blksize = conf.sgDataSize desc ∧
      0 < conf.sgDataSize desc / func4Blksize := by
  have behind := conf.behind
  simp only [ScatConf.sgDataSize, func4Blksize]
  omega

private theorem blocks_bytes (descs : List TxDesc) :
    conf.blocks descs * func4Blksize = (descs.map conf.sgDataSize).sum := by
  induction descs with
  | nil => exact Nat.zero_mul _
  | cons desc rest ih =>
    have whole : conf.sgDataSize desc / func4Blksize * func4Blksize = conf.sgDataSize desc :=
      (sgDataSize_blocks desc).1
    rw [ScatConf.blocks] at ih ⊢
    rw [List.map_cons, List.sum_cons, Nat.add_mul, whole, ih, List.map_cons, List.sum_cons]

theorem blocks_ne_zero (some : descs ≠ []) : conf.blocks descs ≠ 0 := by
  cases descs with
  | nil => exact absurd rfl some
  | cons desc rest =>
    have first : 0 < conf.sgDataSize desc / func4Blksize := (sgDataSize_blocks desc).2
    rw [ScatConf.blocks, List.map_cons, List.sum_cons]
    omega

theorem chunk_wellFormed (descs : List TxDesc) (outcome : Outcome) :
    WellFormed conf ⟨conf.chunk descs, conf.blocks (conf.chunk descs), outcome⟩ := by
  have bytes : conf.blocks (conf.chunk descs) * func4Blksize =
      ((conf.chunk descs).map conf.sgDataSize).sum := blocks_bytes _
  have within : 0 + ((conf.chunk descs).map conf.sgDataSize).sum ≤ conf.maxSgSize :=
    scatEntries_bytes 0 (descs.take sgNumMax) (Nat.zero_le _)
  have most : conf.maxSgSize ≤ func4Blksize * sdioMaxBlkCnt :=
    Nat.le_trans (Nat.min_le_left _ _) (Nat.mul_le_mul_right _ conf.blkFits)
  refine ⟨length_chunk descs, bytes, ?_⟩
  rw [← bytes] at within
  simp only [func4Blksize, sdioMaxBlkCnt] at within most ⊢
  omega

private theorem setup_eq (some : descs ≠ []) :
    hiSdioSetupScatData conf (descs.take sgNumMax) =
      (conf.blocks (conf.chunk descs), conf.chunk descs) := by
  have taken : descs.take sgNumMax ≠ [] := by
    intro none
    rcases List.take_eq_nil_iff.mp none with zero | nil
    · cases zero
    · exact some nil
  rw [hiSdioSetupScatData, if_neg taken]
  rfl

end Entries

section Tries

/-- The tries of a request end with the last one, and only that may go through. -/
theorem scatTries_spec (outcomes : Nat → Outcome) (sgList : List TxDesc) (blkcnt left index : Nat) :
    (scatTries outcomes sgList blkcnt left index).value =
        ((outcomes (lastTry outcomes left index).1).cmdError,
          (lastTry outcomes left index).1 + 1, (lastTry outcomes left index).2) ∧
      transferred (scatTries outcomes sgList blkcnt left index).log =
        (if (outcomes (lastTry outcomes left index).1).Through then sgList else []) ∧
      ∀ request ∈ (scatTries outcomes sgList blkcnt left index).log,
        ∃ outcome, request = ⟨sgList, blkcnt, outcome⟩ := by
  induction left generalizing index with
  | zero =>
    refine ⟨rfl, ?_, ?_⟩
    · show transferred [⟨sgList, blkcnt, outcomes index⟩] = _
      rw [transferred, lastTry, List.filter_cons]
      by_cases through : (outcomes index).Through
      · simp [through]
      · simp [through]
    · intro request found
      exact ⟨outcomes index, List.mem_singleton.mp found⟩
  | succ left ih =>
    rw [scatTries, lastTry]
    by_cases accepted : (outcomes index).cmdError = 0
    · rw [if_pos accepted, if_pos accepted]
      refine ⟨?_, ?_, ?_⟩
      · show ((0 : Int), index + 1, left + 1) = _
        rw [accepted]
      · show transferred [⟨sgList, blkcnt, outcomes index⟩] = _
        rw [transferred, List.filter_cons]
        by_cases through : (outcomes index).Through
        · simp [through]
        · simp [through]
      · intro request found
        exact ⟨outcomes index, List.mem_singleton.mp found⟩
    · obtain ⟨value, moved, formed⟩ := ih (index + 1)
      rw [if_neg accepted, if_neg accepted]
      refine ⟨value, ?_, ?_⟩
      · have notThrough : ¬ (outcomes index).Through := fun through => accepted through.1
        rw [← moved]
        show transferred (⟨sgList, blkcnt, outcomes index⟩ :: _) = _
        rw [transferred, List.filter_cons, if_neg (by simpa using notThrough)]
        rfl
      · intro request found
        rcases List.mem_cons.mp found with first | later
        · exact ⟨outcomes index, first⟩
        · exact formed request later

theorem transferred_append (first second : List ScatRequest) :
    transferred (first ++ second) = transferred first ++ transferred second := by
  rw [transferred, List.filter_append, List.flatMap_append]
  rfl

theorem pages_append (first second : List TxDesc) :
    pages (first ++ second) = pages first + pages second := by
  rw [pages, List.map_append, List.sum_append]
  rfl

end Tries

section Loop

def afterRequest (conf : ScatConf) (descs : List TxDesc) (counters : TxCounters) (ret : Int) :
    TxCounters :=
  let sendPageNum := (counters.sendPageNum + pages (conf.chunk descs)) % 2 ^ 32
  if ret = 0 then
    { sendPageNum := 0
      txPageOffset := circleAddition2 sendPageNum counters.txPageOffset txAddresstableNum }
  else { counters with sendPageNum }

/-- One turn of the loop: a request with its tries, and the rest. -/
theorem loop_turn (some : descs ≠ [])
    (fits : ∀ desc ∈ descs, conf.sgDataSize desc ≤ conf.maxSgSize) (left index : Nat)
    (counters : TxCounters) :
    hiTxFrameLoop conf outcomes (fuel + 1) descs left index counters =
      (scatTries outcomes (conf.chunk descs) (conf.blocks (conf.chunk descs)) left index >>=
        fun tried =>
          if descs.drop (conf.chunk descs).length = [] then
            pure (Option.some (tried.1, afterRequest conf descs counters tried.1))
          else
            hiTxFrameLoop conf outcomes fuel (descs.drop (conf.chunk descs).length) tried.2.2
              tried.2.1 (afterRequest conf descs counters tried.1)) := by
  rw [hiTxFrameLoop, setup_eq some]
  dsimp only
  rw [if_neg (blocks_ne_zero (chunk_ne_nil some fits))]
  rfl

theorem loop_cases (outcomes : Nat → Outcome) (fuel : Nat) (some : descs ≠ [])
    (fits : ∀ desc ∈ descs, conf.sgDataSize desc ≤ conf.maxSgSize) (left index : Nat)
    (counters : TxCounters) :
    let last := lastTry outcomes left index
    let rest := descs.drop (conf.chunk descs).length
    let turn := scatTries outcomes (conf.chunk descs) (conf.blocks (conf.chunk descs)) left index
    let after := afterRequest conf descs counters (outcomes last.1).cmdError
    let loop := hiTxFrameLoop conf outcomes (fuel + 1) descs left index counters
    (rest = [] ∧ loop.log = turn.log ∧
        loop.value = Option.some ((outcomes last.1).cmdError, after)) ∨
      (rest ≠ [] ∧
        loop.log = turn.log ++
          (hiTxFrameLoop conf outcomes fuel rest last.2 (last.1 + 1) after).log ∧
        loop.value = (hiTxFrameLoop conf outcomes fuel rest last.2 (last.1 + 1) after).value) := by
  intro last rest turn after loop
  have value : turn.value = ((outcomes last.1).cmdError, last.1 + 1, last.2) :=
    (scatTries_spec outcomes _ _ left index).1
  have turned : loop = turn >>= fun tried =>
      if rest = [] then pure (Option.some (tried.1, afterRequest conf descs counters tried.1))
      else hiTxFrameLoop conf outcomes fuel rest tried.2.2 tried.2.1
        (afterRequest conf descs counters tried.1) := loop_turn some fits left index counters
  rw [turned, Memory.log_bind, Memory.value_bind, value]
  by_cases none : rest = []
  · left
    rw [if_pos none]
    exact ⟨none, List.append_nil _, rfl⟩
  · right
    rw [if_neg none]
    exact ⟨none, rfl, rfl⟩

theorem rest_fits (fits : ∀ desc ∈ descs, conf.sgDataSize desc ≤ conf.maxSgSize) (count : Nat) :
    ∀ desc ∈ descs.drop count, conf.sgDataSize desc ≤ conf.maxSgSize :=
  fun desc found => fits desc (List.drop_subset _ _ found)

theorem rest_shorter (some : descs ≠ [])
    (fits : ∀ desc ∈ descs, conf.sgDataSize desc ≤ conf.maxSgSize)
    (enough : descs.length ≤ fuel + 1) :
    (descs.drop (conf.chunk descs).length).length ≤ fuel := by
  have full := List.length_pos_iff.mpr (chunk_ne_nil some fits)
  rw [List.length_drop]
  omega

/-- Whatever fails, the loop ends, its requests are well formed, and what is transferred comes in
order and once. -/
structure LoopSafe (conf : ScatConf) (outcomes : Nat → Outcome) (fuel : Nat) (descs : List TxDesc)
    (left index : Nat) (counters : TxCounters) : Prop where
  formed : ∀ request ∈ (hiTxFrameLoop conf outcomes fuel descs left index counters).log,
    WellFormed conf request
  ordered :
    (transferred (hiTxFrameLoop conf outcomes fuel descs left index counters).log).Sublist descs
  ends : (hiTxFrameLoop conf outcomes fuel descs left index counters).value.isSome = true

theorem loop_safe (some : descs ≠ [])
    (fits : ∀ desc ∈ descs, conf.sgDataSize desc ≤ conf.maxSgSize)
    (enough : descs.length ≤ fuel) : LoopSafe conf outcomes fuel descs left index counters := by
  induction fuel generalizing descs left index counters with
  | zero => exact absurd (List.eq_nil_of_length_eq_zero (Nat.le_zero.mp enough)) some
  | succ fuel ih =>
    obtain ⟨-, moved, same⟩ := scatTries_spec outcomes (conf.chunk descs)
      (conf.blocks (conf.chunk descs)) left index
    have formed : ∀ request ∈ (scatTries outcomes (conf.chunk descs)
        (conf.blocks (conf.chunk descs)) left index).log, WellFormed conf request := by
      intro request found
      obtain ⟨outcome, rfl⟩ := same request found
      exact chunk_wellFormed descs outcome
    have first : (transferred (scatTries outcomes (conf.chunk descs)
        (conf.blocks (conf.chunk descs)) left index).log).Sublist (conf.chunk descs) := by
      rw [moved]
      split
      · exact List.Sublist.refl _
      · exact List.nil_sublist _
    obtain ⟨-, log, value⟩ | ⟨more, log, value⟩ :=
      loop_cases outcomes fuel some fits left index counters
    · refine ⟨?_, ?_, ?_⟩
      · rw [log]
        exact formed
      · rw [log]
        exact first.trans (chunk_starts descs).sublist
      · rw [value]
        rfl
    · have rest : LoopSafe conf outcomes fuel (descs.drop (conf.chunk descs).length)
          (lastTry outcomes left index).2 ((lastTry outcomes left index).1 + 1)
          (afterRequest conf descs counters
            (outcomes (lastTry outcomes left index).1).cmdError) :=
        ih more (rest_fits fits _) (rest_shorter some fits enough)
      refine ⟨?_, ?_, ?_⟩
      · intro request found
        rw [log] at found
        rcases List.mem_append.mp found with now | later
        · exact formed request now
        · exact rest.formed request later
      · rw [log, transferred_append]
        have both := first.append rest.ordered
        rwa [chunk_append] at both
      · rw [value]
        exact rest.ends

theorem not_through {outcome : Outcome} (failed : outcome.cmdError ≠ 0) : ¬ outcome.Through :=
  fun through => failed through.1

theorem afterRequest_failed (descs : List TxDesc) (counters : TxCounters) {ret : Int}
    (failed : ret ≠ 0) :
    (afterRequest conf descs counters ret).txPageOffset = counters.txPageOffset := by
  rw [afterRequest, if_neg failed]

/-- If every request is given up, nothing is transferred and the call says so. -/
theorem loop_givenUp (counters : TxCounters) (some : descs ≠ [])
    (fits : ∀ desc ∈ descs, conf.sgDataSize desc ≤ conf.maxSgSize)
    (enough : descs.length ≤ fuel) (givenUp : GivenUp conf outcomes fuel descs left index) :
    transferred (hiTxFrameLoop conf outcomes fuel descs left index counters).log = [] ∧
      ∃ ret next, (hiTxFrameLoop conf outcomes fuel descs left index counters).value =
          Option.some (ret, next) ∧
        ret ≠ 0 ∧ next.txPageOffset = counters.txPageOffset := by
  induction fuel generalizing descs left index counters with
  | zero => exact absurd (List.eq_nil_of_length_eq_zero (Nat.le_zero.mp enough)) some
  | succ fuel ih =>
    obtain ⟨failed, later⟩ := givenUp
    obtain ⟨-, moved, -⟩ := scatTries_spec outcomes (conf.chunk descs)
      (conf.blocks (conf.chunk descs)) left index
    rw [if_neg (not_through failed)] at moved
    obtain ⟨-, log, value⟩ | ⟨more, log, value⟩ :=
      loop_cases outcomes fuel some fits left index counters
    · exact ⟨by rw [log, moved], _, _, value, failed, afterRequest_failed descs _ failed⟩
    · obtain ⟨none, ret, next, ended, wrong, stays⟩ :=
        ih (afterRequest conf descs counters (outcomes (lastTry outcomes left index).1).cmdError)
          more (rest_fits fits _) (rest_shorter some fits enough) (later more)
      refine ⟨?_, ret, next, value.trans ended, wrong,
        stays.trans (afterRequest_failed descs _ failed)⟩
      rw [log, transferred_append, moved, none]
      rfl

/-- A request that goes through moves the offset by its pages, round once if need be. -/
theorem afterRequest_through (fresh : counters.sendPageNum = 0)
    (once : counters.txPageOffset + pages (conf.chunk descs) < 2 * txAddresstableNum) :
    afterRequest conf descs counters 0 =
      ⟨0, (counters.txPageOffset + pages (conf.chunk descs)) % txAddresstableNum⟩ := by
  have moved : circleAddition2 ((0 + pages (conf.chunk descs)) % 2 ^ 32) counters.txPageOffset
      txAddresstableNum =
        (counters.txPageOffset + pages (conf.chunk descs)) % txAddresstableNum := by
    rw [Nat.zero_add]
    exact circleAddition2_once once (by decide)
  rw [afterRequest, if_pos rfl, fresh, moved]

/-- If nothing goes through behind a request that is given up, the offset moves by the pages that
are transferred, and the call succeeds if all are. -/
theorem loop_orderly (counters : TxCounters) (some : descs ≠ [])
    (fits : ∀ desc ∈ descs, conf.sgDataSize desc ≤ conf.maxSgSize)
    (enough : descs.length ≤ fuel) (fresh : counters.sendPageNum = 0)
    (inside : counters.txPageOffset < txAddresstableNum)
    (orderly : Orderly conf outcomes fuel descs left index counters.txPageOffset) :
    ∃ ret next, (hiTxFrameLoop conf outcomes fuel descs left index counters).value =
        Option.some (ret, next) ∧
      next.txPageOffset =
        (counters.txPageOffset + pages (transferred
          (hiTxFrameLoop conf outcomes fuel descs left index counters).log))
            % txAddresstableNum ∧
      (ret = 0 ↔
        transferred (hiTxFrameLoop conf outcomes fuel descs left index counters).log = descs) := by
  induction fuel generalizing descs left index counters with
  | zero => exact absurd (List.eq_nil_of_length_eq_zero (Nat.le_zero.mp enough)) some
  | succ fuel ih =>
    obtain ⟨-, moved, -⟩ := scatTries_spec outcomes (conf.chunk descs)
      (conf.blocks (conf.chunk descs)) left index
    have whole : conf.chunk descs ++ descs.drop (conf.chunk descs).length = descs :=
      chunk_append descs
    rw [Orderly] at orderly
    by_cases accepted : (outcomes (lastTry outcomes left index).1).cmdError = 0
    · obtain ⟨clean, once, later⟩ := (if_pos accepted).mp orderly
      have after := afterRequest_through fresh once
      rw [if_pos ⟨accepted, clean⟩] at moved
      obtain ⟨none, log, value⟩ | ⟨more, log, value⟩ :=
        loop_cases outcomes fuel some fits left index counters
      · rw [accepted, after] at value
        rw [none, List.append_nil] at whole
        refine ⟨_, _, value, ?_, ?_⟩
        · rw [log, moved]
        · rw [log, moved]
          exact iff_of_true rfl whole
      · rw [accepted, after] at log value
        obtain ⟨ret, next, ended, offset, all⟩ :=
          ih ⟨0, (counters.txPageOffset + pages (conf.chunk descs)) % txAddresstableNum⟩ more
            (rest_fits fits _) (rest_shorter some fits enough) rfl
            (Nat.mod_lt _ (by decide)) (later more)
        refine ⟨ret, next, value.trans ended, ?_, ?_⟩
        · rw [log, transferred_append, moved, pages_append, offset, Nat.mod_add_mod, Nat.add_assoc]
        · rw [log, transferred_append, moved, all]
          constructor
          · intro equal
            rw [equal, whole]
          · intro equal
            exact List.append_cancel_left (equal.trans whole.symm)
    · have givenUp := (if_neg accepted).mp orderly
      have same : (afterRequest conf descs counters
          (outcomes (lastTry outcomes left index).1).cmdError).txPageOffset =
            counters.txPageOffset := afterRequest_failed descs counters accepted
      rw [if_neg (not_through accepted)] at moved
      obtain ⟨-, log, value⟩ | ⟨more, log, value⟩ :=
        loop_cases outcomes fuel some fits left index counters
      · refine ⟨_, _, value, ?_, ?_⟩
        · rw [log, moved, same]
          exact (Nat.mod_eq_of_lt inside).symm
        · rw [log, moved]
          exact iff_of_false accepted some.symm
      · obtain ⟨nothing, ret, next, ended, wrong, stays⟩ :=
          loop_givenUp (afterRequest conf descs counters
              (outcomes (lastTry outcomes left index).1).cmdError)
            more (rest_fits fits _) (rest_shorter some fits enough) (givenUp more)
        refine ⟨ret, next, value.trans ended, ?_, ?_⟩
        · rw [log, transferred_append, moved, nothing, stays, same]
          exact (Nat.mod_eq_of_lt inside).symm
        · rw [log, transferred_append, moved, nothing]
          exact iff_of_false wrong some.symm

end Loop

section Calls

variable {call : ScatCall conf} {start : TxCounters} {calls : List (ScatCall conf)}

private theorem call_right (inside : counters.txPageOffset < txAddresstableNum)
    (meets : CallMeets counters call) : CallRight counters call := by
  obtain ⟨some, reached⟩ := meets
  have fuel : max call.descs.length 1 = call.descs.length :=
    Nat.max_eq_left (List.length_pos_iff.mpr some)
  have safe : LoopSafe conf call.outcomes (max call.descs.length 1) call.descs 5 0 counters :=
    loop_safe some call.fits (Nat.le_max_left _ _)
  refine ⟨safe.formed, safe.ordered, ?_⟩
  rw [hiTxFrame, fuel]
  rcases reached with givenUp | ⟨fresh, orderly⟩
  · obtain ⟨nothing, ret, next, ended, wrong, stays⟩ :=
      loop_givenUp counters some call.fits (Nat.le_refl _) givenUp
    refine ⟨ret, next, ended, ?_, ?_⟩
    · rw [nothing, stays]
      exact (Nat.mod_eq_of_lt inside).symm
    · rw [nothing]
      exact iff_of_false wrong some.symm
  · exact loop_orderly counters some call.fits (Nat.le_refl _) fresh inside orderly

private theorem CallRight.inside (right : CallRight counters call) :
    (txFrameStep counters call).txPageOffset < txAddresstableNum := by
  obtain ⟨ret, next, ended, offset, -⟩ := right.ended
  rw [txFrameStep, ended]
  show next.txPageOffset < _
  rw [offset]
  exact Nat.mod_lt _ (by decide)

/-- In a run whose calls all meet the condition, every call does what it ought to do. -/
theorem calls_right (inside : start.txPageOffset < txAddresstableNum)
    (met : Machine.Along txFrameStep CallMeets start calls) :
    Machine.Along txFrameStep CallRight start calls := by
  induction calls generalizing start with
  | nil => trivial
  | cons call rest ih =>
    have right : CallRight start call := call_right inside met.1
    exact ⟨right, ih right.inside met.2⟩

/-- A host that takes requests of any size, and 17 descriptors of 1000 bytes and two pages. -/
def wideHost : ScatConf := ⟨512, 512 * 511, 64, by decide, by decide⟩

/-- The first `failing` transfers of a call fail. -/
def failingFirst (failing : Nat) : ScatCall wideHost where
  descs := List.replicate 17 ⟨1000, 2⟩
  outcomes index := if index < failing then ⟨-110, 0⟩ else ⟨0, 0⟩
  fits := by decide

theorem retried_calls_right :
    Machine.Along txFrameStep CallMeets ⟨0, 250⟩ [failingFirst 3, failingFirst 0] ∧
      Machine.Along txFrameStep CallRight ⟨0, 250⟩ [failingFirst 3, failingFirst 0] :=
  have met : Machine.Along txFrameStep CallMeets ⟨0, 250⟩ [failingFirst 3, failingFirst 0] := by
    decide
  ⟨met, calls_right (by decide) met⟩

/-- A request that is given up is forgotten when the next one goes through: the call succeeds, and
its pages count too. -/
theorem given_up_forgotten :
    (hiTxFrame ⟨0, 0⟩ (failingFirst 6)).value = some (0, ⟨0, 34⟩) ∧
      transferred (hiTxFrame ⟨0, 0⟩ (failingFirst 6)).log = [⟨1000, 2⟩] ∧
      ¬ CallRight ⟨0, 0⟩ (failingFirst 6) := by
  have value : (hiTxFrame ⟨0, 0⟩ (failingFirst 6)).value = some (0, ⟨0, 34⟩) := by decide
  have moved : transferred (hiTxFrame ⟨0, 0⟩ (failingFirst 6)).log = [⟨1000, 2⟩] := by decide
  refine ⟨value, moved, ?_⟩
  intro right
  obtain ⟨ret, next, ended, -, all⟩ := right.ended
  rw [value] at ended
  cases ended
  have whole := all.mp rfl
  rw [moved] at whole
  exact absurd whole (by decide)

end Calls

end W522a.Hal
