import W522a.Tx.Scoreboard

/-!
The A-MPDU builder: which frames of the queue it takes, and what it does to the scoreboard.
-/

namespace W522a.Tx

/-- The locals of `drv_txampdu_build` and the scoreboard it works on. The queue of the scoreboard
is what is left of it; `frames` is `tx_queue`. -/
structure BuildState where
  tid : TxTid
  frames : List TxDesc
  al : Nat
  bpad : Nat
  pages : Nat
  status : Nat

/-- The length one MPDU adds to the aggregate. -/
def alDelta (ptxdesc : TxDesc) : Nat := drvAggrDelimSz + ptxdesc.packetlen

/-- The padding behind an MPDU. -/
def padAfter (env : TxEnv) (rateinfo : RateInfo) (ptxdesc : TxDesc) : Nat :=
  padbytes (alDelta ptxdesc) + drvComputeNumDelims env rateinfo ptxdesc.packetlen * 4

def hBaw (win : BaWindow) : Nat := max win.bawSize 1

def maxFrames (env : TxEnv) (win : BaWindow) : Nat :=
  min (hBaw win) (ampduSubframes env win.bawSize)

/-- The rate memory before an MPDU: a sample rate behind the first frame is kept for later. -/
def keepSampleRate (started : Bool) (ptxdesc : TxDesc) (tid : TxTid) : TxTid :=
  if started ∧ ptxdesc.rateinfo.useSampleRate then { tid with sampleRate := ptxdesc.rateinfo }
  else tid

/-- What `drv_txampdu_build` writes to the descriptor of an MPDU it takes. The policy of the block
acknowledgement goes into the frame's header as well. -/
def markFrame (env : TxEnv) (tidIndex : Nat) (rateinfo : RateInfo) (ptxdesc : TxDesc) : TxDesc :=
  { ptxdesc with
    delimit := drvComputeNumDelims env rateinfo ptxdesc.packetlen
    bNoack := ptxdesc.bNoack || !env.cfgAmpduackpolicy.testBit tidIndex }

/-- Take one MPDU: off the queue, into the scoreboard, onto the aggregate. -/
def takeFrame (env : TxEnv) (rateinfo : RateInfo) (ptxdesc : TxDesc) (rest : List TxDesc)
    (build : BuildState) : BuildState where
  tid := { build.tid with
    win := drvTxAdd2baw ptxdesc build.tid.win
    txdsQueue := rest
    txdsPendingCnt := build.tid.txdsPendingCnt - 1 }
  frames := build.frames ++ [markFrame env build.tid.tidIndex rateinfo ptxdesc]
  al := build.al + build.bpad + alDelta ptxdesc
  bpad := padAfter env rateinfo ptxdesc
  pages := (build.pages + halCalcMpduPage ptxdesc.mpdulen) % 65536
  status := build.status

/-- The loop of `drv_txampdu_build` over the queue. -/
def buildLoop (env : TxEnv) (rateinfo : RateInfo) (aggrLimit : Nat) :
    List TxDesc → BuildState → BuildState
  | [], build => build
  | ptxdesc :: rest, build =>
    let build := { build with tid := keepSampleRate (!build.frames.isEmpty) ptxdesc build.tid }
    if ¬ bawWithin build.tid.win.seqStart build.tid.win.bawSize ptxdesc.seqnum then
      { build with status := 1 }
    else if build.frames ≠ [] ∧ aggrLimit < build.al + build.bpad + alDelta ptxdesc then
      { build with status := 2 }
    else if maxFrames env build.tid.win ≤ build.frames.length then { build with status := 2 }
    else buildLoop env rateinfo aggrLimit rest (takeFrame env rateinfo ptxdesc rest build)

def noRate : RateInfo := ⟨0, 0, false, false, false, 0, 0, 0⟩

/-- The rates the first frame is sent with, and the sample rates left in memory. -/
def firstRate (first : TxDesc) (tid : TxTid) : RateInfo × RateInfo :=
  if !first.rateinfo.useSampleRate ∧ tid.sampleRate.trynum ≠ 0 then (tid.sampleRate, noRate)
  else (first.rateinfo, tid.sampleRate)

/-- The rates once `drv_lookup_rate` may have chosen them, and the length limit they give. -/
def rateLimit (env : TxEnv) (first : TxDesc) (rateinfo : RateInfo) : RateInfo × Nat :=
  if !first.rateValid then env.lookupRate rateinfo
  else
    let (first, second, third) := rateinfo.maxampdulen
    (rateinfo, min third (min first second))

/-- `aggr_limit`, with its default and its cap. -/
def aggrLimit (limit : Nat) : Nat :=
  if limit = 0 then defaultTxampduLenMax else min limit 65535

/-- The totals that `drv_txampdu_build` writes to the first frame. -/
def finishFirst (build : BuildState) : List TxDesc :=
  match build.frames with
  | [] => []
  | first :: rest =>
    { first with
      agglen := build.al, pktnum := build.frames.length, aggrPageNum := build.pages } :: rest

/-- The locals of `drv_txampdu_build` before its loop. -/
def buildStart (queue : List TxDesc) (sampleRate : RateInfo) (tid : TxTid) : BuildState where
  tid := { tid with txdsQueue := queue, sampleRate := sampleRate }
  frames := []
  al := 0
  bpad := 0
  pages := 0
  status := 0

/-- The result of `drv_txampdu_build`: the scoreboard, `tx_queue` and the status. -/
structure Ampdu where
  tid : TxTid
  frames : List TxDesc
  status : Nat

def drvTxampduBuild (env : TxEnv) (tid : TxTid) : Ampdu :=
  match tid.txdsQueue with
  | [] => ⟨tid, [], 1⟩
  | first :: rest =>
    if ¬ bawWithin tid.win.seqStart tid.win.bawSize (first.seqnum + maxFrames env tid.win) then
      ⟨tid, [], 0⟩
    else
      let (rateinfo, sampleRate) := firstRate first tid
      let (rateinfo, limit) := rateLimit env first rateinfo
      let first := { first with rateinfo := rateinfo }
      let build := buildLoop env rateinfo (aggrLimit limit) (first :: rest)
        (buildStart (first :: rest) sampleRate tid)
      ⟨build.tid, finishFirst build, build.status⟩

end W522a.Tx
