import W522a.Tx.Aggregate
import W522a.Tx.Steps

/-!
The bounds of an aggregate: its frames, its length and its pages. The builder looks ahead by the
padding behind the frame it took last; the pages are never compared with anything, and are bounded
by the length that the frames have.
-/

namespace W522a.Tx

@[simp] abbrev wifinetCrcLen : Nat := 4

@[simp] abbrev defaultTxpagenum : Nat := 224

/-- The lengths that `wifi_mac_build_txinfo` notes of a frame, `mpdulen` and `packetlen`, where the
cipher adds `overhead` to it. -/
def txinfoLengths (pktlen overhead : Nat) : Nat × Nat :=
  (pktlen % 65536, (pktlen + overhead + wifinetCrcLen) % 65536)

/-- The lengths of a descriptor are those of a frame that fits 16 bits with what is added to it. -/
def Measured (ptxdesc : TxDesc) : Prop :=
  ∃ pktlen overhead, pktlen + overhead + wifinetCrcLen < 65536 ∧
    (ptxdesc.mpdulen, ptxdesc.packetlen) = txinfoLengths pktlen overhead

/-- What follows a frame of an aggregate when another frame does: its padding, and the delimiters
that its descriptor asks for. -/
def behind (ptxdesc : TxDesc) : Nat := padbytes (alDelta ptxdesc) + ptxdesc.delimit * 4

/-- The length of an aggregate: a delimiter and a packet for each frame, and what stands between
them. -/
def aggregateLen (frames : List TxDesc) : Nat :=
  (frames.map alDelta).sum + (frames.dropLast.map behind).sum

/-- What the builder keeps true of its locals. -/
structure Bounded (env : TxEnv) (limit bawSize : Nat) (build : BuildState) : Prop where
  win : build.tid.win.bawSize = bawSize
  al : build.al = aggregateLen build.frames
  bpad : build.bpad = build.frames.getLast?.elim 0 behind
  pages : build.pages = aggrPages build.frames % 65536
  short : build.frames.length ≤ 1 ∨ build.al ≤ limit
  count : build.frames.length ≤ min (max bawSize 1) (ampduSubframes env bawSize)
  measured : ∀ ptxdesc ∈ build.frames, Measured ptxdesc

section Loop

variable {env : TxEnv} {rateinfo : RateInfo} {limit bawSize : Nat} {build : BuildState}
  {ptxdesc : TxDesc} {rest : List TxDesc}

theorem Measured.mpdulen_le (measured : Measured ptxdesc) :
    ptxdesc.mpdulen ≤ ptxdesc.packetlen ∧ ptxdesc.packetlen < 65536 := by
  obtain ⟨pktlen, overhead, fits, lengths⟩ := measured
  obtain ⟨mpdulen, packetlen⟩ := Prod.mk.inj lengths
  rw [mpdulen, packetlen, Nat.mod_eq_of_lt fits, Nat.mod_eq_of_lt (by omega)]
  omega

private theorem aggregateLen_concat (frames : List TxDesc) (ptxdesc : TxDesc) :
    aggregateLen (frames ++ [ptxdesc]) =
      aggregateLen frames + frames.getLast?.elim 0 behind + alDelta ptxdesc := by
  have between : (frames.map behind).sum =
      (frames.dropLast.map behind).sum + frames.getLast?.elim 0 behind := by
    rcases List.eq_nil_or_concat frames with rfl | ⟨front, last, rfl⟩
    · rfl
    · simp
  simp only [aggregateLen, List.map_append, List.sum_append, List.dropLast_concat, between,
    List.map_cons, List.map_nil, List.sum_cons, List.sum_nil]
  omega

private theorem Bounded.keepSampleRate (bounded : Bounded env limit bawSize build) (started : Bool)
    (ptxdesc : TxDesc) :
    Bounded env limit bawSize
      { build with tid := keepSampleRate started ptxdesc build.tid } := by
  have same : (Tx.keepSampleRate started ptxdesc build.tid).win = build.tid.win := by
    rw [Tx.keepSampleRate]
    split
    · rfl
    · rfl
  exact ⟨(congrArg BaWindow.bawSize same).trans bounded.win, bounded.al, bounded.bpad,
    bounded.pages, bounded.short, bounded.count, bounded.measured⟩

private theorem Bounded.takeFrame (bounded : Bounded env limit bawSize build)
    (measured : Measured ptxdesc)
    (fits : build.frames = [] ∨ build.al + build.bpad + alDelta ptxdesc ≤ limit)
    (room : build.frames.length < maxFrames env build.tid.win) :
    Bounded env limit bawSize (takeFrame env rateinfo ptxdesc rest build) := by
  have al : build.al + build.bpad + alDelta ptxdesc =
      aggregateLen (build.frames ++ [markFrame env build.tid.tidIndex rateinfo ptxdesc]) := by
    rw [aggregateLen_concat, ← bounded.al, ← bounded.bpad]
    rfl
  constructor
  · rw [← bounded.win]
    unfold Tx.takeFrame drvTxAdd2baw
    dsimp only
    split
    · rfl
    · rfl
  · exact al
  · simp [Tx.takeFrame, behind, padAfter, markFrame, alDelta]
  · have pages := bounded.pages
    simp only [Tx.takeFrame, aggrPages, List.map_append, List.sum_append, List.map_cons,
      List.map_nil, List.sum_cons, List.sum_nil, markFrame] at pages ⊢
    omega
  · cases fits with
    | inl first => simp [Tx.takeFrame, first]
    | inr fits => exact Or.inr fits
  · rw [maxFrames, hBaw, bounded.win] at room
    rw [Tx.takeFrame, List.length_append, List.length_singleton]
    exact room
  · intro other member
    rcases List.mem_append.mp member with old | new
    · exact bounded.measured other old
    · rw [List.mem_singleton.mp new]
      exact measured

theorem Bounded.buildLoop (bounded : Bounded env limit bawSize build) (queue : List TxDesc)
    (measured : ∀ ptxdesc ∈ queue, Measured ptxdesc) :
    Bounded env limit bawSize (buildLoop env rateinfo limit queue build) := by
  induction queue generalizing build with
  | nil => exact bounded
  | cons ptxdesc rest loop =>
    have kept := bounded.keepSampleRate (!build.frames.isEmpty) ptxdesc
    have stops : ∀ status, Bounded env limit bawSize
        { build with
          tid := Tx.keepSampleRate (!build.frames.isEmpty) ptxdesc build.tid, status := status } :=
      fun status =>
        ⟨kept.win, kept.al, kept.bpad, kept.pages, kept.short, kept.count, kept.measured⟩
    rw [Tx.buildLoop]
    dsimp only
    split
    · exact stops 1
    · split
      · exact stops 2
      · rename_i fits
        split
        · exact stops 2
        · rename_i room
          refine loop (kept.takeFrame (measured ptxdesc List.mem_cons_self) ?_
            (Nat.lt_of_not_le room)) fun other member =>
              measured other (List.mem_cons_of_mem ptxdesc member)
          by_cases first : build.frames = []
          · exact Or.inl first
          · exact Or.inr (Nat.le_of_not_lt fun longer => fits ⟨first, longer⟩)

end Loop

section Pages

variable {frames : List TxDesc}

private theorem aggrPages_le (measured : ∀ ptxdesc ∈ frames, Measured ptxdesc) :
    500 * aggrPages frames ≤ (frames.map alDelta).sum + 595 * frames.length := by
  induction frames with
  | nil => exact Nat.le_refl 0
  | cons ptxdesc rest bound =>
    obtain ⟨here, later⟩ := List.forall_mem_cons.mp measured
    have shorter := here.mpdulen_le.1
    have behind := bound later
    simp only [aggrPages, List.map_cons, List.sum_cons, List.length_cons, alDelta, drvAggrDelimSz,
      halCalcMpduPage_eq] at behind ⊢
    omega

/-- The pages of an aggregate are in the pool. -/
theorem aggrPages_le_pool (measured : ∀ ptxdesc ∈ frames, Measured ptxdesc)
    (count : frames.length ≤ defaultTxampduSubMax)
    (short : frames.length ≤ 1 ∨ aggregateLen frames ≤ 65535) :
    aggrPages frames ≤ defaultTxpagenum := by
  have pages := aggrPages_le measured
  have part : (frames.map alDelta).sum ≤ aggregateLen frames := Nat.le_add_right _ _
  cases short with
  | inr short =>
    simp only [defaultTxampduSubMax, defaultTxpagenum] at count ⊢
    omega
  | inl single =>
    match frames with
    | [] => exact Nat.zero_le _
    | [ptxdesc] =>
      have long := (measured ptxdesc List.mem_cons_self).mpdulen_le
      simp only [aggrPages, List.map_cons, List.map_nil, List.sum_cons, List.sum_nil,
        halCalcMpduPage_eq, defaultTxpagenum]
      omega
    | _ :: _ :: _ => exact absurd single (by simp)

end Pages

section Result

variable {env : TxEnv} {tid : TxTid}

/-- The bounds of what `drv_txampdu_build` builds: its frames, its length under the effective limit,
and the length and the pages that its first frame records. -/
structure BuildBounds (env : TxEnv) (tid : TxTid) (frames : List TxDesc) : Prop where
  count : frames.length ≤ min tid.win.bawSize (ampduSubframes env tid.win.bawSize)
  length : frames.length = 1 ∨ aggregateLen frames ≤ (chosenRate env tid).2
  agglen : ∀ first ∈ frames.head?, first.agglen = aggregateLen frames
  pages : ∀ first ∈ frames.head?, first.aggrPageNum = aggrPages frames
  pool : aggrPages frames ≤ defaultTxpagenum

theorem BuildBounds.nothing : BuildBounds env tid [] := by
  refine ⟨Nat.zero_le _, Or.inr (Nat.zero_le _), ?_, ?_, Nat.zero_le _⟩
  · intro first found
    exact absurd found (Option.not_mem_none first)
  · intro first found
    exact absurd found (Option.not_mem_none first)

private theorem aggregateLen_congr {front back : List TxDesc}
    (deltas : front.map alDelta = back.map alDelta) (gaps : front.map behind = back.map behind) :
    aggregateLen front = aggregateLen back := by
  have between : front.dropLast.map behind = back.dropLast.map behind := by
    rw [List.map_dropLast, List.map_dropLast, gaps]
  rw [aggregateLen, aggregateLen, deltas, between]

/-- The totals that are recorded are those of the locals. -/
theorem Bounded.finishFirst {limit : Nat} {build : BuildState}
    (bounded : Bounded env limit tid.win.bawSize build) (capped : limit ≤ 65535)
    (shut : tid.win.bawSize = 0 → build.frames = [])
    (chosen : (chosenRate env tid).2 = limit) : BuildBounds env tid (finishFirst build) := by
  cases taken : build.frames with
  | nil =>
    have nothing : Tx.finishFirst build = [] := by simp only [Tx.finishFirst, taken]
    exact nothing ▸ .nothing
  | cons first rest =>
    have recorded : Tx.finishFirst build =
        { first with
          agglen := build.al
          pktnum := build.frames.length
          aggrPageNum := build.pages } :: rest := by
      simp only [Tx.finishFirst, taken]
    have length : aggregateLen (Tx.finishFirst build) = build.al := by
      rw [bounded.al, taken, recorded]
      exact aggregateLen_congr rfl rfl
    have pages : aggrPages (Tx.finishFirst build) = aggrPages build.frames := by
      rw [taken, recorded]
      rfl
    have count : (Tx.finishFirst build).length = build.frames.length := by
      rw [recorded, taken, List.length_cons, List.length_cons]
    have most := bounded.count
    have subframes := (ampduSubframes_bounds env tid.win.bawSize).2
    have pool : aggrPages build.frames ≤ defaultTxpagenum := by
      refine aggrPages_le_pool bounded.measured (by omega) ?_
      rw [← bounded.al]
      exact bounded.short.imp_right fun short => Nat.le_trans short capped
    have head : (Tx.finishFirst build).head? = some
        { first with
          agglen := build.al
          pktnum := build.frames.length
          aggrPageNum := build.pages } := by
      rw [recorded, List.head?_cons]
    constructor
    · rw [count]
      have opened : 1 ≤ tid.win.bawSize := by
        apply Nat.one_le_iff_ne_zero.mpr
        intro closed
        cases taken.symm.trans (shut closed)
      omega
    · rw [count, length, chosen]
      refine bounded.short.imp_left fun single => ?_
      rw [taken, List.length_cons] at single ⊢
      omega
    · rw [head, length]
      rintro _ ⟨⟩
      rfl
    · rw [head, pages]
      rintro _ ⟨⟩
      refine bounded.pages.trans (Nat.mod_eq_of_lt ?_)
      exact Nat.lt_of_le_of_lt pool (by decide)
    · rw [pages]
      exact pool

private theorem aggrLimit_le (limit : Nat) : aggrLimit limit ≤ 65535 := by
  rw [aggrLimit]
  split
  · exact Nat.le_refl _
  · exact Nat.min_le_right _ _

/-- Every aggregate has at most as many frames as the window and the limit allow, is no longer than
the effective limit unless it is a single frame, and records its length and its pages, which the
pool has. -/
theorem drvTxampduBuild_bounds (env : TxEnv) (tid : TxTid)
    (measured : ∀ ptxdesc ∈ tid.txdsQueue, Measured ptxdesc) :
    BuildBounds env tid (drvTxampduBuild env tid).frames := by
  unfold drvTxampduBuild
  split
  · exact .nothing
  · rename_i first rest queued
    rw [queued] at measured
    split
    · exact .nothing
    · rename_i within
      have chosen : chosenRate env tid = ((rateLimit env first (firstRate first tid).1).1,
          aggrLimit (rateLimit env first (firstRate first tid).1).2) := by
        simp only [chosenRate, queued]
      have rated : ∀ ptxdesc ∈ { first with
          rateinfo := (rateLimit env first (firstRate first tid).1).1 } :: rest,
          Measured ptxdesc := by
        obtain ⟨here, later⟩ := List.forall_mem_cons.mp measured
        exact List.forall_mem_cons.mpr ⟨here, later⟩
      have begun : ∀ queue sampleRate, Bounded env (chosenRate env tid).2 tid.win.bawSize
          (buildStart queue sampleRate tid) := fun queue sampleRate =>
        ⟨rfl, rfl, rfl, rfl, Or.inl (Nat.zero_le 1), Nat.zero_le _,
          fun ptxdesc found => absurd found List.not_mem_nil⟩
      have limit : (chosenRate env tid).2 =
          aggrLimit (rateLimit env first (firstRate first tid).1).2 := congrArg Prod.snd chosen
      rw [limit] at begun
      refine ((begun _ _).buildLoop _ rated).finishFirst (aggrLimit_le _) (fun closed => ?_) limit
      have outside : ¬ bawWithin tid.win.seqStart tid.win.bawSize first.seqnum := by
        have subframes := (ampduSubframes_bounds env tid.win.bawSize).1
        have one : maxFrames env tid.win = 1 := by
          rw [maxFrames, hBaw, closed] at *
          omega
        have ahead := Decidable.not_not.mp within
        simp only [bawWithin, drvBaIndex, wifinetSeqMax, closed, one] at ahead ⊢
        omega
      rw [buildLoop]
      exact congrArg BuildState.frames (if_pos outside)

/-- A frame of 1536 bytes with eight more of its cipher. -/
def measuredDesc (seqnum : Nat) : TxDesc :=
  { (dataRequest seqnum true).desc with
    seqnum := seqnum
    mpdulen := (txinfoLengths 1536 8).1
    packetlen := (txinfoLengths 1536 8).2 }

/-- A scoreboard with a window of 64 frames and two frames queued. -/
def measuredTid : TxTid :=
  { drvTxlistInitForSta 0 with
    win := { (drvTxlistInitForSta 0).win with bawSize := 64 }
    txdsQueue := [measuredDesc 0, measuredDesc 1] }

theorem drvTxampduBuild_bounds_pair :
    BuildBounds (plainTxEnv 64) measuredTid (drvTxampduBuild (plainTxEnv 64) measuredTid).frames :=
  drvTxampduBuild_bounds (plainTxEnv 64) measuredTid fun ptxdesc member => by
    have measured : ∀ seqnum, Measured (measuredDesc seqnum) := fun seqnum =>
      ⟨1536, 8, by decide, rfl⟩
    rcases List.mem_cons.mp member with rfl | later
    · exact measured 0
    · rw [List.mem_singleton.mp later]
      exact measured 1

end Result

end W522a.Tx
