import W522a.Tx.Aggregate
import W522a.Tx.Steps

/-!
The count of an aggregate's frames, from the configuration that bounds it to the test of the
scheduler, whose statistics have fewer entries than an aggregate may have frames.
-/

namespace W522a.Tx

/-- The items of the configuration that bound an aggregate, as `get_s16_item` finds them. -/
structure AmpduItems where
  cfgAmpduSubframes : Option Int16
  cfgApAmpduWaitTarget : Option Int16
  cfgApAmpduHt20Limit : Option Int16
  cfgApAmpduWideLimit : Option Int16

def clampItem (item : Option Int16) (stored : Nat) : Nat :=
  match item with
  | none => stored
  | some value =>
    (min (max value.toInt defaultTxampduSubMin) defaultTxampduSubMax).toNat

/-- `parse_drv_cfg_param`, for the items of the aggregates. -/
def parseDrvCfgParam (items : AmpduItems) (env : TxEnv) : TxEnv :=
  { env with
    cfgAmpduSubframes := clampItem items.cfgAmpduSubframes env.cfgAmpduSubframes
    cfgApAmpduWaitTarget := clampItem items.cfgApAmpduWaitTarget env.cfgApAmpduWaitTarget
    cfgApAmpduHt20Limit := clampItem items.cfgApAmpduHt20Limit env.cfgApAmpduHt20Limit
    cfgApAmpduWideLimit := clampItem items.cfgApAmpduWideLimit env.cfgApAmpduWideLimit }

inductive DrvCfgRole where
  | ap
  | sta
  | monitor
  deriving DecidableEq, Repr

/-- `drv_cfg_apply_role`, for the items of the aggregates. -/
def drvCfgApplyRole (items : AmpduItems) (role : DrvCfgRole) (env : TxEnv) : TxEnv :=
  match role with
  | .ap =>
    { env with
      cfgApAmpduWaitTarget := clampItem items.cfgApAmpduWaitTarget env.cfgApAmpduWaitTarget
      cfgApAmpduHt20Limit := clampItem items.cfgApAmpduHt20Limit env.cfgApAmpduHt20Limit
      cfgApAmpduWideLimit := clampItem items.cfgApAmpduWideLimit env.cfgApAmpduWideLimit }
  | .sta =>
    { env with
      cfgAmpduSubframes := clampItem items.cfgAmpduSubframes env.cfgAmpduSubframes }
  | .monitor => env

/-- One file of the configuration: the common one or that of a role. -/
structure CfgFile where
  role : Option DrvCfgRole
  items : AmpduItems

/-- What loading a file does to the configuration. -/
def loadFile (file : CfgFile) (env : TxEnv) : TxEnv :=
  match file.role with
  | none => parseDrvCfgParam file.items env
  | some role => drvCfgApplyRole file.items role env

def loadFiles (files : List CfgFile) (env : TxEnv) : TxEnv :=
  files.foldl (fun env file => loadFile file env) env

/-- The values a configuration gives the aggregates. -/
def TxEnv.limits (env : TxEnv) : List Nat :=
  [env.cfgAmpduSubframes, env.cfgApAmpduWaitTarget, env.cfgApAmpduHt20Limit,
    env.cfgApAmpduWideLimit]

/-- Every value lies where the parser clamps it to. -/
def TxEnv.Clamped (env : TxEnv) : Prop :=
  ∀ value ∈ env.limits, defaultTxampduSubMin ≤ value ∧ value ≤ defaultTxampduSubMax

private theorem clampItem_bounds {stored : Nat} (item : Option Int16)
    (before : defaultTxampduSubMin ≤ stored ∧ stored ≤ defaultTxampduSubMax) :
    defaultTxampduSubMin ≤ clampItem item stored ∧
      clampItem item stored ≤ defaultTxampduSubMax := by
  cases item with
  | none => exact before
  | some value =>
    simp only [clampItem, defaultTxampduSubMin, defaultTxampduSubMax]
    omega

private theorem loadFile_clamped {env : TxEnv} (file : CfgFile) (clamped : env.Clamped) :
    (loadFile file env).Clamped := by
  simp only [TxEnv.Clamped, TxEnv.limits, List.forall_mem_cons] at clamped ⊢
  obtain ⟨subframes, target, ht20, wide, -⟩ := clamped
  have none_left : ∀ value ∈ ([] : List Nat), defaultTxampduSubMin ≤ value ∧
      value ≤ defaultTxampduSubMax := by simp
  obtain ⟨role, items⟩ := file
  cases role with
  | none =>
    exact ⟨clampItem_bounds _ subframes, clampItem_bounds _ target, clampItem_bounds _ ht20,
      clampItem_bounds _ wide, none_left⟩
  | some role =>
    cases role with
    | ap =>
      exact ⟨subframes, clampItem_bounds _ target, clampItem_bounds _ ht20,
        clampItem_bounds _ wide, none_left⟩
    | sta => exact ⟨clampItem_bounds _ subframes, target, ht20, wide, none_left⟩
    | monitor => exact ⟨subframes, target, ht20, wide, none_left⟩

theorem loadFiles_clamped (files : List CfgFile) {env : TxEnv} (clamped : env.Clamped) :
    (loadFiles files env).Clamped := by
  induction files generalizing env with
  | nil => exact clamped
  | cons file rest induction => exact induction (loadFile_clamped file clamped)

/-- The test that `drv_tx_sched_aggr` makes of the aggregate it got. -/
def CountPasses (ampdu : Ampdu) : Prop :=
  ∀ ptxdesc ∈ ampdu.frames.head?, ¬ (ptxdesc.pktnum = 0 ∨ txAggrStatusLen < ptxdesc.pktnum)

instance (ampdu : Ampdu) : Decidable (CountPasses ampdu) :=
  inferInstanceAs (Decidable (∀ ptxdesc ∈ ampdu.frames.head?, _))

/-- An aggregate of this queue takes one frame more than `tx_aggr_status` has entries: the window
is open for it, the bound allows it, and so many frames are queued, inside the window and within
the length limit. -/
structure Overfull (env : TxEnv) (tid : TxTid) : Prop where
  starts : MayStart env tid
  bound : txAggrStatusLen < maxFrames env tid.win
  within : ∀ ptxdesc ∈ tid.txdsQueue.take (txAggrStatusLen + 1),
    bawWithin tid.win.seqStart tid.win.bawSize ptxdesc.seqnum
  fits : ∃ ptxdesc ∈ tid.txdsQueue[txAggrStatusLen]?,
    aggrLen env (chosenRate env tid).1 (tid.txdsQueue.take txAggrStatusLen) + alDelta ptxdesc ≤
      (chosenRate env tid).2

section Rated

variable {env : TxEnv} {tid : TxTid} {rateinfo : RateInfo}

/-- The rates chosen for the first frame change nothing that the window looks at. -/
theorem ratedQueue_within (count : Nat) :
    (∀ ptxdesc ∈ (ratedQueue env tid).take (count + 1),
      bawWithin tid.win.seqStart tid.win.bawSize ptxdesc.seqnum) ↔
    ∀ ptxdesc ∈ tid.txdsQueue.take (count + 1),
      bawWithin tid.win.seqStart tid.win.bawSize ptxdesc.seqnum := by
  unfold ratedQueue
  split
  next empty => rw [empty]
  next first rest queued => simp [queued]

private theorem ratedQueue_aggrLen (count : Nat) :
    aggrLen env rateinfo ((ratedQueue env tid).take (count + 1)) =
      aggrLen env rateinfo (tid.txdsQueue.take (count + 1)) := by
  unfold ratedQueue
  split
  next empty => rw [empty]
  next first rest queued => simp [queued, aggrLen, alDelta, padAfter]

private theorem ratedQueue_later (place : Nat) :
    (ratedQueue env tid)[place + 1]? = tid.txdsQueue[place + 1]? := by
  unfold ratedQueue
  split
  next empty => rw [empty]
  next first rest queued => simp [queued]

private theorem aggrLen_append (first second : List TxDesc) :
    aggrLen env rateinfo (first ++ second) =
      aggrLen env rateinfo first + aggrLen env rateinfo second := by
  simp [aggrLen]

/-- Once a frame fits behind all those before it, each of those fits behind its own. -/
theorem fits_earlier {before front behind : List TxDesc} {ptxdesc item : TxDesc}
    (found : before ++ [ptxdesc] = front ++ item :: behind) :
    aggrLen env rateinfo front + alDelta item ≤
      aggrLen env rateinfo before + alDelta ptxdesc := by
  rcases List.eq_nil_or_concat behind with rfl | ⟨middle, last, rfl⟩
  case inl =>
    obtain ⟨rfl, same⟩ := List.append_inj' found rfl
    cases same
    exact Nat.le_refl _
  case inr =>
    have grouped : before ++ [ptxdesc] = (front ++ item :: middle) ++ [last] := by
      simpa using found
    obtain ⟨rfl, -⟩ := List.append_inj' grouped rfl
    have whole : aggrLen env rateinfo (front ++ item :: middle) =
        aggrLen env rateinfo front + aggrLen env rateinfo (item :: middle) :=
      aggrLen_append front _
    have own : alDelta item ≤ aggrLen env rateinfo (item :: middle) := by
      simp only [aggrLen, List.map_cons, List.sum_cons]
      omega
    omega

private theorem reached_past_iff :
    (∃ before item, before.length = txAggrStatusLen ∧ Reached env tid before item) ↔
      Overfull env tid := by
  constructor
  case mp =>
    rintro ⟨before, item, length, starts, ⟨after, split_eq⟩, admitted⟩
    obtain ⟨within, fits, bound⟩ := admitted before item [] rfl
    have front : (ratedQueue env tid).take txAggrStatusLen = before := by
      rw [split_eq, ← length, List.take_left]
    have place : (ratedQueue env tid)[txAggrStatusLen]? = some item := by
      rw [split_eq, ← length, List.getElem?_append_right (Nat.le_refl _), Nat.sub_self]
      rfl
    have upto : (ratedQueue env tid).take (txAggrStatusLen + 1) = before ++ [item] := by
      rw [List.take_add_one, front, place]
      rfl
    constructor
    case starts => exact starts
    case bound => rwa [length] at bound
    case within =>
      apply (ratedQueue_within txAggrStatusLen).mp
      rw [upto]
      intro ptxdesc member
      obtain ⟨earlier, later, found⟩ := List.append_of_mem member
      exact (admitted earlier ptxdesc later found).1
    case fits =>
      refine ⟨item, ?_, ?_⟩
      · rw [← ratedQueue_later]
        exact place
      · rw [← ratedQueue_aggrLen, front]
        apply fits.resolve_left
        intro empty
        rw [empty] at length
        cases length
  case mpr =>
    rintro ⟨starts, bound, within, item, place, fits⟩
    have rated : (ratedQueue env tid)[txAggrStatusLen]? = some item := by
      rw [ratedQueue_later]
      exact place
    obtain ⟨inside, found⟩ := List.getElem?_eq_some_iff.mp rated
    have length : ((ratedQueue env tid).take txAggrStatusLen).length = txAggrStatusLen :=
      List.length_take_of_le (Nat.le_of_lt inside)
    have upto : (ratedQueue env tid).take (txAggrStatusLen + 1) =
        (ratedQueue env tid).take txAggrStatusLen ++ [item] := by
      rw [List.take_add_one, rated]
      rfl
    refine ⟨(ratedQueue env tid).take txAggrStatusLen, item, length, starts, ?_, ?_⟩
    · refine ⟨(ratedQueue env tid).drop (txAggrStatusLen + 1), ?_⟩
      have whole := List.take_append_drop (txAggrStatusLen + 1) (ratedQueue env tid)
      rw [upto, List.append_assoc] at whole
      exact whole.symm
    · intro front ptxdesc behind split_eq
      have counted := congrArg List.length split_eq
      simp only [List.length_append, List.length_cons, List.length_nil, length] at counted
      refine ⟨?_, Or.inr ?_, by omega⟩
      · apply (ratedQueue_within txAggrStatusLen).mpr within
        rw [upto, split_eq]
        simp
      · rw [← ratedQueue_aggrLen] at fits
        exact Nat.le_trans (fits_earlier split_eq) fits

end Rated

private theorem countPasses_iff_reached (env : TxEnv) (tid : TxTid) :
    CountPasses (drvTxampduBuild env tid) ↔
      ¬ ∃ before item, before.length = txAggrStatusLen ∧ Reached env tid before item := by
  obtain ⟨taken, rest, result⟩ := drvTxampduBuild_result env tid
  have same : (drvTxampduBuild env tid).frames.length = taken.length := by
    simpa using congrArg List.length result.frames
  have count : CountPasses (drvTxampduBuild env tid) ↔ taken.length ≤ txAggrStatusLen := by
    unfold CountPasses
    cases frames : (drvTxampduBuild env tid).frames with
    | nil => simp [← same, frames]
    | cons first others =>
      have pktnum := result.pktnum first others frames
      simp only [frames, List.length_cons] at same
      simp only [List.head?_cons, Option.mem_def, Option.some.injEq, forall_eq', pktnum, ← same]
      omega
  rw [count, ← Nat.not_lt]
  apply not_congr
  constructor
  case mp =>
    intro longer
    refine ⟨taken.take txAggrStatusLen, taken[txAggrStatusLen],
      List.length_take_of_le (Nat.le_of_lt longer), ?_⟩
    apply result.reached _ _ (taken.drop (txAggrStatusLen + 1))
    rw [← List.drop_eq_getElem_cons longer, List.take_append_drop]
  case mpr =>
    rintro ⟨before, item, length, reached⟩
    have within := (result.complete before item reached).length_le
    rw [List.length_append, length] at within
    exact within

/-- The test of `drv_tx_sched_aggr` accepts an aggregate exactly when the queue is not overfull for
the configuration that the files have left. -/
theorem aggregate_count_iff (files : List CfgFile) (env : TxEnv) (tid : TxTid) :
    CountPasses (drvTxampduBuild (loadFiles files env) tid) ↔
      ¬ Overfull (loadFiles files env) tid := by
  rw [countPasses_iff_reached, reached_past_iff]

/-- A file with the one item `cfg_ampdu_subframes`. -/
def subframesFile (role : Option DrvCfgRole) (subframes : Int16) : CfgFile where
  role := role
  items := ⟨some subframes, none, none, none⟩

/-- A scoreboard with a window of 64 frames and frames of 1000 bytes queued. -/
def backlog (count : Nat) : TxTid :=
  { drvTxlistInitForSta 0 with
    win := { (drvTxlistInitForSta 0).win with bawSize := 64 }
    txdsQueue := (List.range count).map fun seqnum =>
      { (dataRequest seqnum true).desc with seqnum := seqnum, bAmpdu := true }
    txdsPendingCnt := count }

/-- A station once the common file and the one of its role that come with the driver are loaded. -/
def shippedStation : TxEnv :=
  loadFiles [subframesFile none 8, subframesFile (some .sta) 32] (plainTxEnv 64)

/-- That station builds an aggregate of 32 frames, and the scheduler discards every one. -/
theorem aggregate_count_drops :
    shippedStation.Clamped ∧
      ¬ CountPasses (drvTxampduBuild shippedStation (backlog 32)) ∧
      (schedTurn shippedStation (roomyHal true 0) (backlog 32)).1.inHal = [] ∧
      (schedTurn shippedStation (roomyHal true 0) (backlog 32)).1.completed.map
        (fun entry => (entry.1.seqnum, entry.2)) = (List.range 32).map fun seqnum =>
          (seqnum, false) := by
  refine ⟨?_, ?_, ?_, ?_⟩
  · unfold TxEnv.Clamped
    decide
  · decide +kernel
  · decide +kernel
  · decide +kernel

end W522a.Tx
