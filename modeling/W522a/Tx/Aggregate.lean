import W522a.Tx.Build
import W522a.Lib.Greedy

/-!
What the A-MPDU builder takes: the greedy prefix of the queue under the window, the length limit
and the bound on the frames, recorded in the scoreboard in the order of the queue.
-/

namespace W522a.Tx

/-- The length of the frames of an aggregate, each with its delimiters and its padding. -/
def aggrLen (env : TxEnv) (rateinfo : RateInfo) (frames : List TxDesc) : Nat :=
  (frames.map fun ptxdesc => alDelta ptxdesc + padAfter env rateinfo ptxdesc).sum

def aggrPages (frames : List TxDesc) : Nat :=
  (frames.map fun ptxdesc => halCalcMpduPage ptxdesc.mpdulen).sum

/-- A frame may follow the frames before it. -/
def Admits (env : TxEnv) (rateinfo : RateInfo) (limit : Nat) (win : BaWindow)
    (before : List TxDesc) (ptxdesc : TxDesc) : Prop :=
  bawWithin win.seqStart win.bawSize ptxdesc.seqnum ∧
    (before = [] ∨ aggrLen env rateinfo before + alDelta ptxdesc ≤ limit) ∧
    before.length < maxFrames env win

def recordAll (frames : List TxDesc) (win : BaWindow) : BaWindow :=
  frames.foldl (fun win ptxdesc => drvTxAdd2baw ptxdesc win) win

@[simp] theorem drvTxAdd2baw_seqStart (ptxdesc : TxDesc) (win : BaWindow) :
    (drvTxAdd2baw ptxdesc win).seqStart = win.seqStart := by
  unfold drvTxAdd2baw; dsimp only; split <;> rfl

@[simp] theorem drvTxAdd2baw_seqNext (ptxdesc : TxDesc) (win : BaWindow) :
    (drvTxAdd2baw ptxdesc win).seqNext = win.seqNext := by
  unfold drvTxAdd2baw; dsimp only; split <;> rfl

@[simp] theorem drvTxAdd2baw_bawSize (ptxdesc : TxDesc) (win : BaWindow) :
    (drvTxAdd2baw ptxdesc win).bawSize = win.bawSize := by
  unfold drvTxAdd2baw; dsimp only; split <;> rfl

@[simp] theorem drvTxAdd2baw_bawHead (ptxdesc : TxDesc) (win : BaWindow) :
    (drvTxAdd2baw ptxdesc win).bawHead = win.bawHead := by
  unfold drvTxAdd2baw; dsimp only; split <;> rfl

@[simp] theorem recordAll_nil (win : BaWindow) : recordAll [] win = win := rfl

@[simp] theorem recordAll_cons (ptxdesc : TxDesc) (rest : List TxDesc) (win : BaWindow) :
    recordAll (ptxdesc :: rest) win = recordAll rest (drvTxAdd2baw ptxdesc win) := rfl

theorem recordAll_append (first second : List TxDesc) (win : BaWindow) :
    recordAll (first ++ second) win = recordAll second (recordAll first win) :=
  List.foldl_append

@[simp] theorem recordAll_fixed (frames : List TxDesc) (win : BaWindow) :
    (recordAll frames win).seqStart = win.seqStart ∧
      (recordAll frames win).seqNext = win.seqNext ∧
      (recordAll frames win).bawSize = win.bawSize ∧
      (recordAll frames win).bawHead = win.bawHead := by
  induction frames generalizing win with
  | nil => exact ⟨rfl, rfl, rfl, rfl⟩
  | cons ptxdesc rest induction =>
    obtain ⟨start, next, size, head⟩ := induction (drvTxAdd2baw ptxdesc win)
    exact ⟨by simpa using start, by simpa using next, by simpa using size, by simpa using head⟩

/-- The locals of the builder after it has taken `taken` from a scoreboard. -/
structure Built (env : TxEnv) (rateinfo : RateInfo) (limit : Nat) (start : TxTid)
    (taken rest : List TxDesc) (build : BuildState) : Prop where
  frames : build.frames = taken.map (markFrame env start.tidIndex rateinfo)
  length : build.al + build.bpad = aggrLen env rateinfo taken
  pages : build.pages = aggrPages taken % 65536
  admitted : Greedy.Admitted (Admits env rateinfo limit start.win) taken
  tid : ∃ sampleRate, build.tid = { start with
    win := recordAll taken start.win
    txdsQueue := rest
    txdsPendingCnt := start.txdsPendingCnt - taken.length
    sampleRate := sampleRate }

section Loop

variable {env : TxEnv} {rateinfo : RateInfo} {limit : Nat} {start : TxTid}
  {taken rest : List TxDesc} {build : BuildState} {ptxdesc : TxDesc}

private theorem Built.keepSampleRate (built : Built env rateinfo limit start taken rest build)
    (started : Bool) :
    Built env rateinfo limit start taken rest
      { build with tid := keepSampleRate started ptxdesc build.tid } := by
  refine ⟨built.frames, built.length, built.pages, built.admitted, ?_⟩
  obtain ⟨sampleRate, shape⟩ := built.tid
  unfold Tx.keepSampleRate
  dsimp only
  split
  · exact ⟨ptxdesc.rateinfo, by rw [shape]⟩
  · exact ⟨sampleRate, shape⟩

private theorem Built.takeFrame
    (built : Built env rateinfo limit start taken (ptxdesc :: rest) build)
    (admits : Admits env rateinfo limit start.win taken ptxdesc) :
    Built env rateinfo limit start (taken ++ [ptxdesc]) rest
      (takeFrame env rateinfo ptxdesc rest build) := by
  obtain ⟨sampleRate, shape⟩ := built.tid
  constructor
  · simp [Tx.takeFrame, built.frames, shape]
  · have before := built.length
    simp only [Tx.takeFrame, aggrLen, List.map_append, List.sum_append, List.map_cons,
      List.map_nil, List.sum_cons, List.sum_nil] at before ⊢
    omega
  · have before := built.pages
    simp only [Tx.takeFrame, aggrPages, List.map_append, List.sum_append, List.map_cons,
      List.map_nil, List.sum_cons, List.sum_nil] at before ⊢
    omega
  · exact built.admitted.concat admits
  · refine ⟨sampleRate, ?_⟩
    rw [recordAll_append, List.length_append]
    simp only [Tx.takeFrame, shape, recordAll, List.foldl_cons, List.foldl_nil, List.length_cons,
      List.length_nil]
    congr 1

/-- The loop takes the greedy prefix of the queue. -/
theorem buildLoop_built (queue : List TxDesc)
    (built : Built env rateinfo limit start taken queue build) :
    ∃ more rest, queue = more ++ rest ∧
      Built env rateinfo limit start (taken ++ more) rest
        (buildLoop env rateinfo limit queue build) ∧
      ∀ item after, rest = item :: after →
        ¬ Admits env rateinfo limit start.win (taken ++ more) item := by
  induction queue generalizing taken build with
  | nil => exact ⟨[], [], rfl, by simpa [buildLoop] using built, by simp⟩
  | cons ptxdesc rest induction =>
    have kept : Built env rateinfo limit start taken (ptxdesc :: rest)
        { build with tid := keepSampleRate (!build.frames.isEmpty) ptxdesc build.tid } :=
      built.keepSampleRate _
    obtain ⟨sampleRate, shape⟩ := kept.tid
    obtain ⟨seqStart, -, bawSize, -⟩ := recordAll_fixed taken start.win
    have none_taken : build.frames = [] ↔ taken = [] := by simp [built.frames]
    have count : build.frames.length = taken.length := by simp [built.frames]
    have window : maxFrames env (recordAll taken start.win) = maxFrames env start.win := by
      simp [maxFrames, hBaw]
    have stop : ¬ Admits env rateinfo limit start.win taken ptxdesc → ∀ status,
        ∃ more remaining, ptxdesc :: rest = more ++ remaining ∧
          Built env rateinfo limit start (taken ++ more) remaining
            { build with
              tid := keepSampleRate (!build.frames.isEmpty) ptxdesc build.tid, status := status } ∧
          ∀ item after, remaining = item :: after →
            ¬ Admits env rateinfo limit start.win (taken ++ more) item := by
      intro refused status
      refine ⟨[], ptxdesc :: rest, rfl, ?_, ?_⟩
      · simpa using ⟨kept.frames, kept.length, kept.pages, kept.admitted, kept.tid⟩
      · rintro item after same
        cases same
        simpa using refused
    have kept_win : (keepSampleRate (!build.frames.isEmpty) ptxdesc build.tid).win =
        recordAll taken start.win := congrArg TxTid.win shape
    rw [buildLoop]
    simp only [kept_win, seqStart, bawSize, window]
    split
    · rename_i outside
      exact stop (fun admits => outside admits.1) 1
    · rename_i within
      split
      · rename_i tooLong
        apply stop
        rintro ⟨-, short | fits, -⟩
        · exact tooLong.1 (none_taken.mpr short)
        · have length := built.length
          omega
      · rename_i fits
        split
        · rename_i full
          apply stop
          rintro ⟨-, -, room⟩
          omega
        · rename_i room
          have admits : Admits env rateinfo limit start.win taken ptxdesc := by
            refine ⟨Decidable.not_not.mp within, ?_, by omega⟩
            by_cases first : taken = []
            · exact Or.inl first
            · right
              have length := built.length
              have longer : ¬ limit < build.al + build.bpad + alDelta ptxdesc :=
                fun long => fits ⟨fun none_yet => first (none_taken.mp none_yet), long⟩
              omega
          have next := kept.takeFrame admits
          obtain ⟨more, remaining, split_eq, result, stopped⟩ := induction next
          refine ⟨ptxdesc :: more, remaining, by simp [split_eq], ?_, ?_⟩
          · simpa using result
          · simpa using stopped

end Loop

/-- The rates and the length limit of an aggregate that starts with the first frame queued. -/
def chosenRate (env : TxEnv) (tid : TxTid) : RateInfo × Nat :=
  match tid.txdsQueue with
  | [] => (noRate, 0)
  | first :: _ =>
    let (rateinfo, limit) := rateLimit env first (firstRate first tid).1
    (rateinfo, aggrLimit limit)

/-- The queue with the rates of its first frame chosen. -/
def ratedQueue (env : TxEnv) (tid : TxTid) : List TxDesc :=
  match tid.txdsQueue with
  | [] => []
  | first :: rest => { first with rateinfo := (chosenRate env tid).1 } :: rest

/-- The test of the first frame: the window is open for a whole aggregate. -/
def MayStart (env : TxEnv) (tid : TxTid) : Prop :=
  ∃ first ∈ tid.txdsQueue.head?,
    bawWithin tid.win.seqStart tid.win.bawSize (first.seqnum + maxFrames env tid.win)

/-- The builder gets to `ptxdesc` and may take it, after the frames `before` it. -/
def Reached (env : TxEnv) (tid : TxTid) (before : List TxDesc) (ptxdesc : TxDesc) : Prop :=
  MayStart env tid ∧
    (∃ after, ratedQueue env tid = before ++ ptxdesc :: after) ∧
    Greedy.Admitted (Admits env (chosenRate env tid).1 (chosenRate env tid).2 tid.win)
      (before ++ [ptxdesc])

/-- What the scoreboard and the completion read of a descriptor. -/
structure Member where
  id : Nat
  seqnum : Nat
  bAmpdu : Bool
  bNulldata : Bool
  attached : Bool
  deriving DecidableEq, Repr

/-- The scoreboard's view of a descriptor. -/
def TxDesc.member (ptxdesc : TxDesc) : Member where
  id := ptxdesc.id
  seqnum := ptxdesc.seqnum
  bAmpdu := ptxdesc.bAmpdu
  bNulldata := ptxdesc.bNulldata
  attached := ptxdesc.attached

@[simp] theorem TxDesc.member_id (ptxdesc : TxDesc) : ptxdesc.member.id = ptxdesc.id := rfl

@[simp] theorem TxDesc.member_seqnum (ptxdesc : TxDesc) :
    ptxdesc.member.seqnum = ptxdesc.seqnum := rfl

@[simp] theorem ratedQueue_members (env : TxEnv) (tid : TxTid) :
    (ratedQueue env tid).map TxDesc.member = tid.txdsQueue.map TxDesc.member := by
  unfold ratedQueue
  split
  · rename_i empty
    simp [empty]
  · rename_i queued
    simp [queued, TxDesc.member]

private theorem finishFirst_members (build : BuildState) :
    (finishFirst build).map TxDesc.member = build.frames.map TxDesc.member := by
  unfold finishFirst
  split
  · rename_i empty
    simp [empty]
  · rename_i found
    simp [found, TxDesc.member]

private theorem finishFirst_pktnum {build : BuildState} {ptxdesc : TxDesc} {rest : List TxDesc}
    (found : finishFirst build = ptxdesc :: rest) : ptxdesc.pktnum = rest.length + 1 := by
  unfold finishFirst at found
  split at found
  · exact absurd found (by simp)
  · rename_i frames
    obtain ⟨rfl, rfl⟩ := List.cons.inj found
    simp [frames]

/-- What `drv_txampdu_build` does: it takes the frames it reaches, all of them and in their order,
records them, and leaves everything else of the scoreboard alone. -/
structure BuildResult (env : TxEnv) (tid : TxTid) (taken rest : List TxDesc) (ampdu : Ampdu) :
    Prop where
  scoreboard : ∃ sampleRate, ampdu.tid = { tid with
    win := recordAll taken tid.win
    txdsQueue := rest
    txdsPendingCnt := tid.txdsPendingCnt - taken.length
    sampleRate := sampleRate }
  queue : (taken ++ rest).map TxDesc.member = tid.txdsQueue.map TxDesc.member
  frames : ampdu.frames.map TxDesc.member = taken.map TxDesc.member
  pktnum : ∀ first others, ampdu.frames = first :: others → first.pktnum = others.length + 1
  reached : ∀ before item after, taken = before ++ item :: after → Reached env tid before item
  complete : ∀ before item, Reached env tid before item → (before ++ [item]) <+: taken

private theorem nothing_built {env : TxEnv} {tid : TxTid} {status : Nat}
    (closed : ¬ MayStart env tid) : BuildResult env tid [] tid.txdsQueue ⟨tid, [], status⟩ where
  scoreboard := ⟨tid.sampleRate, rfl⟩
  queue := rfl
  frames := rfl
  pktnum := by simp
  reached := by simp
  complete := fun _ _ found => absurd found.1 closed

theorem drvTxampduBuild_result (env : TxEnv) (tid : TxTid) :
    ∃ taken rest, BuildResult env tid taken rest (drvTxampduBuild env tid) := by
  unfold drvTxampduBuild
  split
  · rename_i empty
    exact ⟨[], tid.txdsQueue, nothing_built (by simp [MayStart, empty])⟩
  · rename_i first others queued
    split
    · rename_i outside
      exact ⟨[], tid.txdsQueue, nothing_built (by simpa [MayStart, queued] using outside)⟩
    · rename_i within
      have starts : MayStart env tid := by simpa [MayStart, queued] using within
      have rated : ratedQueue env tid =
          { first with rateinfo := (chosenRate env tid).1 } :: others := by
        simp [ratedQueue, queued]
      have begun : Built env (chosenRate env tid).1 (chosenRate env tid).2 tid []
          (ratedQueue env tid) (buildStart (ratedQueue env tid) (firstRate first tid).2 tid) :=
        ⟨rfl, rfl, rfl, Greedy.admitted_nil, _, rfl⟩
      obtain ⟨taken, rest, split_eq, built, stopped⟩ := buildLoop_built _ begun
      have greedy : Greedy.Taken
          (Admits env (chosenRate env tid).1 (chosenRate env tid).2 tid.win)
          (ratedQueue env tid) taken rest :=
        ⟨split_eq, built.admitted, stopped⟩
      have result : BuildResult env tid taken rest
          (let build := buildLoop env (chosenRate env tid).1 (chosenRate env tid).2
            (ratedQueue env tid) (buildStart (ratedQueue env tid) (firstRate first tid).2 tid)
          ⟨build.tid, finishFirst build, build.status⟩) := by
        refine ⟨built.tid, ?_, ?_, fun _ _ => finishFirst_pktnum, ?_, ?_⟩
        · rw [← split_eq]
          exact ratedQueue_members env tid
        · simp [finishFirst_members, built.frames, markFrame, TxDesc.member]
        · intro before item after found
          refine ⟨starts, ⟨after ++ rest, by simp [split_eq, found]⟩, ?_⟩
          exact greedy.admitted_upto found
        · rintro before item ⟨-, ⟨after, whole⟩, admitted⟩
          have grouped : ratedQueue env tid = (before ++ [item]) ++ after := by simp [whole]
          exact greedy.includes grouped admitted
      refine ⟨taken, rest, ?_⟩
      simpa [rated, chosenRate, queued] using result

end W522a.Tx
