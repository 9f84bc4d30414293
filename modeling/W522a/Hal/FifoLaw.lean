import W522a.Hal.SharedFifo
import W522a.Lib.Run
import Mathlib.Data.List.Nodup
import Mathlib.Data.List.Range
import Mathlib.Data.List.Perm.Subperm

/-!
Runs of the shared fifo: three stages that take elements out of the ring and pass them on to one
another, in any order. What is between the stages is in the hands of the stage that got it.
-/

namespace W522a.Hal

universe u

/-- The elements of a stage, walked from its start to its end. -/
def SharedFifo.interval {Elt : Type u} (fifo : SharedFifo Elt) (block : Block) : List Nat :=
  if fifo.outIdx block ≤ fifo.inIdx block then
    List.range' (fifo.outIdx block) (fifo.inIdx block - fifo.outIdx block)
  else
    List.range' (fifo.outIdx block) (fifo.eltNbr - fifo.outIdx block) ++
      List.range (fifo.inIdx block)

inductive FifoCall where
  | get (block : Block) (nbElt : Nat)
  | put (block : Block) (nbElt : Nat)

/-- A fifo in use, with the elements that each stage has in hand, and a record of those that have
entered and left it. -/
structure FifoRun (Elt : Type u) where
  fifo : SharedFifo Elt
  inHand : Block → List Nat
  entered : Block → List Nat
  left : Block → List Nat

section Runs

variable {Elt : Type u}

def FifoRun.initial (eltNbr : Nat) (elts : Nat → Elt) : FifoRun Elt where
  fifo := coSharedFifoInit eltNbr elts
  inHand _ := []
  entered _ := []
  left _ := []

/-- One call. The elements got are those from the returned pointer on. -/
def fifoStep (state : FifoRun Elt) : FifoCall → FifoRun Elt
  | .get block nbElt =>
    match coSharedFifoGet state.fifo block nbElt with
    | (none, fifo) => { state with fifo := fifo }
    | (some ptr, fifo) =>
      let got := Ring.indices fifo.eltNbr ptr nbElt
      { state with
        fifo := fifo
        inHand := Function.update state.inHand block (state.inHand block ++ got)
        left := Function.update state.left block (state.left block ++ got) }
  | .put block nbElt =>
    let passed := Ring.indices state.fifo.eltNbr (state.fifo.inIdx block.next) nbElt
    { state with
      fifo := coSharedFifoPut state.fifo block nbElt
      inHand := Function.update state.inHand block ((state.inHand block).drop nbElt)
      entered := Function.update state.entered block.next (state.entered block.next ++ passed) }

/-- A stage passes on no more than it has in hand. -/
def Returns (state : FifoRun Elt) : FifoCall → Prop
  | .get _ _ => True
  | .put block nbElt => nbElt ≤ (state.inHand block).length

instance Returns.decidable (state : FifoRun Elt) : ∀ call, Decidable (Returns state call)
  | .get _ _ => inferInstanceAs (Decidable True)
  | .put block nbElt => inferInstanceAs (Decidable (nbElt ≤ (state.inHand block).length))

/-- What a stage holds at first. -/
def atFirst (eltNbr : Nat) : Block → List Nat
  | .get => List.range' 1 (eltNbr - 1)
  | .make => []
  | .set => []

/-- The elements in the order of the ring: what a stage has in hand stands before what it holds. -/
def FifoRun.owned (state : FifoRun Elt) : List Nat :=
  state.inHand .set ++ state.fifo.interval .set ++
    (state.inHand .make ++ state.fifo.interval .make) ++
    (state.inHand .get ++ state.fifo.interval .get)

/-- Every element but a spare one has exactly one owner, and the owners stand in stage order around
the ring. Each stage counts what it holds, and hands it out in the order in which it came; what a
stage got is what it passes on, except that the last stage passes on the spare element before. -/
structure FifoRun.Shared (eltNbr : Nat) (state : FifoRun Elt) (spare : Nat) : Prop where
  contiguous : ∃ start, spare :: state.owned = Ring.indices eltNbr start eltNbr
  once : (spare :: state.owned).Perm (List.range eltNbr)
  exact_ : ∀ block, coSharedFifoNbElt state.fifo block = (state.fifo.interval block).length
  total : coSharedFifoNbElt state.fifo .set + (state.inHand .set).length +
    (coSharedFifoNbElt state.fifo .make + (state.inHand .make).length) +
    (coSharedFifoNbElt state.fifo .get + (state.inHand .get).length) = eltNbr - 1
  ordered : ∀ block, atFirst eltNbr block ++ state.entered block =
    state.left block ++ state.fifo.interval block
  passed : ∀ block, block ≠ .set → state.left block = state.entered block.next ++ state.inHand block
  recycled : 0 :: state.left .set = state.entered .get ++ spare :: state.inHand .set

/-- Where the elements of a stage end, as a counter: where the hand of the stage behind it starts,
or a turn of the ring less one ahead of it. -/
def ahead (eltNbr : Nat) (low : Block → Nat) : Block → Nat
  | .set => low .make
  | .make => low .get
  | .get => low .set + (eltNbr - 1)

/-- The first element that a stage passes on: the spare one behind the last stage. -/
def passedFirst : Block → Nat
  | .set => 0
  | .make => 1
  | .get => 1

/-- The indices of the stages as counters that run on: from `low` on a stage has elements in hand,
from `out` on it holds them. -/
structure FifoRun.Marked (eltNbr : Nat) (state : FifoRun Elt) (low out : Block → Nat) : Prop where
  size : state.fifo.eltNbr = eltNbr
  large : 1 < eltNbr
  outIdx : ∀ block, state.fifo.outIdx block = out block % eltNbr
  inIdx : ∀ block, state.fifo.inIdx block = ahead eltNbr low block % eltNbr
  started : ∀ block, 1 ≤ low block
  low_le : ∀ block, low block ≤ out block
  out_le : ∀ block, out block ≤ ahead eltNbr low block
  inHand : ∀ block, state.inHand block =
    Ring.indices eltNbr (low block) (out block - low block)
  left : ∀ block, state.left block = Ring.indices eltNbr 1 (out block - 1)
  entered : ∀ block, state.entered block.next =
    Ring.indices eltNbr (passedFirst block) (low block - 1)

/-- What a stage passes on moves the end of the next one. -/
theorem ahead_update {eltNbr : Nat} {low : Block → Nat} (block other : Block) (nbElt : Nat) :
    ahead eltNbr (Function.update low block (low block + nbElt)) other =
      ahead eltNbr low other + if other = block.next then nbElt else 0 := by
  cases block <;> cases other <;> simp [ahead, Block.next]
  omega

theorem Block.next_inj {block other : Block} (same : block.next = other.next) : block = other := by
  cases block <;> cases other <;> first | rfl | cases same

namespace FifoRun.Marked

variable {eltNbr : Nat} {state : FifoRun Elt} {low out : Block → Nat}

theorem held_lt (marked : state.Marked eltNbr low out) (block : Block) :
    ahead eltNbr low block - out block < eltNbr := by
  have large := marked.large
  have set := marked.low_le .set
  have make := marked.low_le .make
  have get := marked.low_le .get
  have setEnd := marked.out_le .set
  have makeEnd := marked.out_le .make
  have getEnd := marked.out_le .get
  cases block <;> simp only [ahead] at * <;> omega

theorem nbEltCont (marked : state.Marked eltNbr low out) (block : Block) :
    coSharedFifoNbEltCont state.fifo block = ahead eltNbr low block - out block := by
  have short := marked.held_lt block
  obtain ⟨held, reached⟩ := Nat.exists_eq_add_of_le (marked.out_le block)
  rw [reached, Nat.add_sub_cancel_left] at short
  rw [coSharedFifoNbEltCont, marked.outIdx, marked.inIdx, marked.size, reached,
    Nat.add_sub_cancel_left]
  exact Ring.distance_mod _ short

theorem nbElt (marked : state.Marked eltNbr low out) (block : Block) :
    coSharedFifoNbElt state.fifo block = ahead eltNbr low block - out block := by
  have below : state.fifo.outIdx block < state.fifo.eltNbr := by
    rw [marked.outIdx, marked.size]
    exact Nat.mod_lt _ (by have := marked.large; omega)
  have inside : state.fifo.inIdx block < state.fifo.eltNbr := by
    rw [marked.inIdx, marked.size]
    exact Nat.mod_lt _ (by have := marked.large; omega)
  rw [← marked.nbEltCont, coSharedFifoNbElt, coSharedFifoNbEltCont]
  split <;> split <;> omega

private theorem passedFirst_mod (marked : state.Marked eltNbr low out) (block : Block) :
    (passedFirst block + (low block - 1)) % eltNbr =
      ahead eltNbr low block.next % eltNbr := by
  have large := marked.large
  have started := marked.started block
  cases block with
  | set =>
    have turn : ahead eltNbr low Block.set.next = (passedFirst .set + (low .set - 1)) + eltNbr := by
      simp only [ahead, passedFirst, Block.next]
      omega
    rw [turn, Nat.add_mod_right]
  | make =>
    have same : ahead eltNbr low Block.make.next = passedFirst .make + (low .make - 1) := by
      simp only [ahead, passedFirst, Block.next]
      omega
    rw [same]
  | get =>
    have same : ahead eltNbr low Block.get.next = passedFirst .get + (low .get - 1) := by
      simp only [ahead, passedFirst, Block.next]
      omega
    rw [same]

theorem interval_eq (marked : state.Marked eltNbr low out) (block : Block) :
    state.fifo.interval block =
      Ring.indices eltNbr (out block) (ahead eltNbr low block - out block) := by
  have short := marked.held_lt block
  have below : out block % eltNbr < eltNbr := Nat.mod_lt _ (by omega)
  have count := marked.nbEltCont block
  rw [coSharedFifoNbEltCont, marked.outIdx, marked.inIdx, marked.size] at count
  have inside : ahead eltNbr low block % eltNbr < eltNbr := Nat.mod_lt _ (by omega)
  rw [SharedFifo.interval, ← Ring.indices_mod, marked.outIdx, marked.inIdx, marked.size]
  split at count
  · rename_i ordered
    rw [if_pos ordered, Ring.indices_plain (by omega), count]
  · rename_i wraps
    have last : out block % eltNbr + (ahead eltNbr low block - out block) - eltNbr =
        ahead eltNbr low block % eltNbr := by omega
    rw [if_neg wraps, Ring.indices_wrapped (by omega) (by omega) (by omega), last]

theorem get (marked : state.Marked eltNbr low out) (block : Block) (nbElt : Nat) :
    ∃ later, (fifoStep state (.get block nbElt)).Marked eltNbr low later := by
  have large := marked.large
  by_cases short : coSharedFifoNbEltCont state.fifo block < nbElt
  · have same : fifoStep state (.get block nbElt) = state := by
      simp only [fifoStep, coSharedFifoGet, if_pos short]
    rw [same]
    exact ⟨out, marked⟩
  · have enough := Nat.le_of_not_lt short
    rw [marked.nbEltCont] at enough
    have bounded := marked.held_lt block
    have behind := marked.out_le block
    have before := marked.low_le block
    have started := marked.started block
    have moved : Ring.advance eltNbr (out block % eltNbr) nbElt =
        (out block + nbElt) % eltNbr := Ring.advance_mod (by omega) (by omega)
    simp only [fifoStep, coSharedFifoGet, if_neg short, marked.size, marked.outIdx, moved]
    refine ⟨Function.update out block (out block + nbElt), ?_⟩
    constructor
    · exact marked.size
    · exact large
    · intro other
      by_cases same : other = block
      · subst same
        simp
      · simpa [same] using marked.outIdx other
    · intro other
      simpa using marked.inIdx other
    · exact marked.started
    · intro other
      by_cases same : other = block
      · subst same
        simpa using Nat.le_trans before (Nat.le_add_right _ _)
      · simpa [same] using marked.low_le other
    · intro other
      by_cases same : other = block
      · subst same
        simp only [Function.update_self]
        omega
      · simpa [same] using marked.out_le other
    · intro other
      by_cases same : other = block
      · subst same
        have grown : out other + nbElt - low other = (out other - low other) + nbElt := by omega
        have reached : low other + (out other - low other) = out other := by omega
        simp only [Function.update_self, marked.inHand, grown, Ring.indices_add, reached,
          SharedFifo.setOut_eltNbr, marked.size, Ring.indices_mod]
      · simpa [same] using marked.inHand other
    · intro other
      by_cases same : other = block
      · subst same
        have grown : out other + nbElt - 1 = (out other - 1) + nbElt := by omega
        have reached : 1 + (out other - 1) = out other := by omega
        simp only [Function.update_self, marked.left, grown, Ring.indices_add, reached,
          SharedFifo.setOut_eltNbr, marked.size, Ring.indices_mod]
      · simpa [same] using marked.left other
    · exact marked.entered

theorem put (marked : state.Marked eltNbr low out) (block : Block) {nbElt : Nat}
    (returned : nbElt ≤ (state.inHand block).length) :
    ∃ later, (fifoStep state (.put block nbElt)).Marked eltNbr later out := by
  have large := marked.large
  have before := marked.low_le block
  have started := marked.started block
  rw [marked.inHand, Ring.length_indices] at returned
  have moved : Ring.advance eltNbr (ahead eltNbr low block.next % eltNbr) nbElt =
      (ahead eltNbr low block.next + nbElt) % eltNbr := by
    have set := marked.low_le .set
    have make := marked.low_le .make
    have get := marked.low_le .get
    have setEnd := marked.out_le .set
    have makeEnd := marked.out_le .make
    have getEnd := marked.out_le .get
    refine Ring.advance_mod ?_ (by omega)
    cases block <;> simp only [ahead] at * <;> omega
  refine ⟨Function.update low block (low block + nbElt), ?_⟩
  simp only [fifoStep, coSharedFifoPut, marked.size, marked.inIdx, moved, Ring.indices_mod]
  constructor
  · exact marked.size
  · exact large
  · intro other
    simpa using marked.outIdx other
  · intro other
    rw [ahead_update]
    by_cases same : other = block.next
    · rw [SharedFifo.setIn_inIdx, if_pos same, if_pos same, same]
    · rw [SharedFifo.setIn_inIdx, if_neg same, if_neg same]
      exact marked.inIdx other
  · intro other
    by_cases same : other = block
    · subst same
      simpa using Nat.le_trans started (Nat.le_add_right _ _)
    · simpa [same] using marked.started other
  · intro other
    by_cases same : other = block
    · subst same
      simp only [Function.update_self]
      omega
    · simpa [same] using marked.low_le other
  · intro other
    rw [ahead_update]
    exact Nat.le_trans (marked.out_le other) (Nat.le_add_right _ _)
  · intro other
    by_cases same : other = block
    · subst same
      have parts : out other - low other = nbElt + (out other - (low other + nbElt)) := by omega
      simp only [Function.update_self, marked.inHand]
      conv => lhs; rw [parts, Ring.indices_add]
      rw [List.drop_left' Ring.length_indices]
    · simpa [same] using marked.inHand other
  · exact marked.left
  · intro other
    by_cases same : other = block
    · subst same
      have grown : low other + nbElt - 1 = (low other - 1) + nbElt := by omega
      have reached : Ring.indices eltNbr (passedFirst other + (low other - 1)) nbElt =
          Ring.indices eltNbr (ahead eltNbr low other.next) nbElt := by
        rw [← Ring.indices_mod, marked.passedFirst_mod, Ring.indices_mod]
      simp only [Function.update_self, marked.entered, grown, Ring.indices_add, reached]
    · have apart : other.next ≠ block.next := fun equal => same (Block.next_inj equal)
      simpa [same, apart] using marked.entered other

/-- What a stage has in hand stands right before what it holds. -/
theorem hand_append (marked : state.Marked eltNbr low out) (block : Block) :
    state.inHand block ++ state.fifo.interval block =
      Ring.indices eltNbr (low block) (ahead eltNbr low block - low block) := by
  rw [marked.inHand, marked.interval_eq]
  exact Ring.indices_join (marked.low_le block) (marked.out_le block)

private theorem owned_eq (marked : state.Marked eltNbr low out) :
    state.owned = Ring.indices eltNbr (low .set) (eltNbr - 1) := by
  have set := Nat.le_trans (marked.low_le .set) (marked.out_le .set)
  have make := Nat.le_trans (marked.low_le .make) (marked.out_le .make)
  have get := Nat.le_trans (marked.low_le .get) (marked.out_le .get)
  simp only [ahead] at set make get
  have turn : low .set + (eltNbr - 1) - low .set = eltNbr - 1 := Nat.add_sub_cancel_left _ _
  simp only [FifoRun.owned, marked.hand_append, ahead]
  rw [Ring.indices_join set make, Ring.indices_join (Nat.le_trans set make) get, turn]

private theorem shared (marked : state.Marked eltNbr low out) :
    state.Shared eltNbr ((low .set - 1) % eltNbr) := by
  have large := marked.large
  have startedSet := marked.started .set
  have around : (low .set - 1) % eltNbr :: state.owned =
      Ring.indices eltNbr (low .set - 1) eltNbr := by
    have whole : eltNbr = (eltNbr - 1) + 1 := by omega
    have next : low .set - 1 + 1 = low .set := by omega
    rw [marked.owned_eq]
    conv => rhs; arg 3; rw [whole]
    rw [Ring.indices_succ, next]
  refine ⟨⟨_, around⟩, ?_, ?_, ?_, ?_, ?_, ?_⟩
  · have apart : ((low .set - 1) % eltNbr :: state.owned).Nodup := by
      rw [around]
      exact Ring.nodup_indices (Nat.le_refl _)
    refine (List.subperm_of_subset apart ?_).perm_of_length_le ?_
    · intro index member
      rw [around] at member
      exact List.mem_range.mpr (Ring.indices_lt (by omega) index member)
    · rw [around, Ring.length_indices, List.length_range]
  · intro block
    rw [marked.nbElt, marked.interval_eq, Ring.length_indices]
  · have set := marked.low_le .set
    have make := marked.low_le .make
    have get := marked.low_le .get
    have setEnd := marked.out_le .set
    have makeEnd := marked.out_le .make
    have getEnd := marked.out_le .get
    simp only [ahead] at setEnd makeEnd getEnd
    simp only [marked.nbElt, marked.inHand, Ring.length_indices, ahead]
    omega
  · intro block
    have started := marked.started block
    have left := Nat.le_trans started (marked.low_le block)
    rw [marked.left, marked.interval_eq, Ring.indices_join left (marked.out_le block)]
    have entered := marked.entered
    cases block with
    | set =>
      rw [atFirst, List.nil_append]
      exact entered .make
    | make =>
      rw [atFirst, List.nil_append]
      exact entered .get
    | get =>
      have parts : ahead eltNbr low .get - 1 = (eltNbr - 1) + (low .set - 1) := by
        simp only [ahead]
        omega
      have turn : 1 + (eltNbr - 1) = eltNbr := by omega
      have first : Ring.indices eltNbr 1 (eltNbr - 1) = List.range' 1 (eltNbr - 1) :=
        Ring.indices_plain (by omega)
      have again : Ring.indices eltNbr eltNbr (low .set - 1) =
          Ring.indices eltNbr 0 (low .set - 1) := by
        rw [← Ring.indices_mod, Nat.mod_self]
      rw [parts, Ring.indices_add, turn, first, again]
      exact congrArg (List.range' 1 (eltNbr - 1) ++ ·) (entered .set)
  · intro block other
    have started := marked.started block
    have first : passedFirst block = 1 := by
      cases block with
      | set => exact absurd rfl other
      | make => rfl
      | get => rfl
    rw [marked.left, marked.entered, marked.inHand, first,
      Ring.indices_join started (marked.low_le block)]
  · have entered := marked.entered .set
    have behind := marked.low_le .set
    have grown : out .set - 1 + 1 = (low .set - 1) + (1 + (out .set - low .set)) := by omega
    have zero : (0 :: state.left .set) = Ring.indices eltNbr 0 (out .set - 1 + 1) := by
      rw [marked.left, Ring.indices_succ, Nat.zero_mod]
    have one : 0 + (low .set - 1) + 1 = low .set := by omega
    rw [zero, grown, Ring.indices_add, Ring.indices_add, one, marked.inHand]
    refine congrArg₂ (· ++ ·) entered.symm ?_
    rw [Nat.zero_add]
    rfl

end FifoRun.Marked

private theorem FifoRun.marked_initial {eltNbr : Nat} (large : 1 < eltNbr) (elts : Nat → Elt) :
    (FifoRun.initial eltNbr elts).Marked eltNbr (fun _ => 1) (fun _ => 1) where
  size := rfl
  large := large
  outIdx block := by
    rw [Nat.mod_eq_of_lt large]
    cases block <;> rfl
  inIdx block := by
    have turn : 1 + (eltNbr - 1) = eltNbr := by omega
    cases block with
    | set => exact (Nat.mod_eq_of_lt large).symm
    | make => exact (Nat.mod_eq_of_lt large).symm
    | get =>
      rw [ahead, turn, Nat.mod_self]
      rfl
  started _ := Nat.le_refl _
  low_le _ := Nat.le_refl _
  out_le block := by
    cases block with
    | set => exact Nat.le_refl _
    | make => exact Nat.le_refl _
    | get => exact Nat.le_add_right _ _
  inHand _ := rfl
  left _ := rfl
  entered block := by
    cases block <;> rfl

/-- The stages share the elements of the ring after any calls in which each of them passes on what
it got. -/
theorem fifoRun_shared {eltNbr : Nat} (large : 1 < eltNbr) (elts : Nat → Elt)
    (calls : List FifoCall)
    (returned : Machine.Along fifoStep Returns (FifoRun.initial eltNbr elts) calls) :
    ∃ spare, (Machine.run fifoStep (FifoRun.initial eltNbr elts) calls).Shared eltNbr spare := by
  have kept : ∀ (state : FifoRun Elt) (call : FifoCall),
      (∃ low out, state.Marked eltNbr low out) → Returns state call →
        ∃ low out, (fifoStep state call).Marked eltNbr low out := by
    rintro state call ⟨low, out, marked⟩ valid
    cases call with
    | get block nbElt =>
      obtain ⟨later, kept⟩ := marked.get block nbElt
      exact ⟨low, later, kept⟩
    | put block nbElt =>
      obtain ⟨later, kept⟩ := marked.put block valid
      exact ⟨later, out, kept⟩
  have invariant := returned.invariant kept ⟨_, _, FifoRun.marked_initial large elts⟩
  obtain ⟨low, out, marked⟩ := invariant
  exact ⟨_, marked.shared⟩

/-- Two elements through all stages of a ring of four. -/
theorem fifoRun_shared_four :
    ∃ spare, (Machine.run fifoStep (FifoRun.initial 4 fun index => index)
      [.get .get 2, .put .get 2, .get .make 1, .put .make 1, .get .set 1, .put .set 1]).Shared 4
        spare :=
  fifoRun_shared (by decide) (fun index => index) _ (by decide)

end Runs

end W522a.Hal
