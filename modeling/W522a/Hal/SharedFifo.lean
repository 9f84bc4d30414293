import W522a.Lib.Cells

/-!
The shared fifo: one ring of elements that three stages hand round, each with its own pair of
indices. Its contents are the elements set for transmission, and behind them those made.
-/

namespace W522a.Hal

universe u

/-- The stages of a transmit fifo, `CO_TX_BUFFER_GET`, `CO_TX_BUFFER_MAKE` and
`CO_TX_BUFFER_SET`. -/
inductive Block where
  | get
  | make
  | set
  deriving DecidableEq, Repr

/-- `NextBlockID` -/
def Block.next : Block → Block
  | .get => .make
  | .make => .set
  | .set => .get

/-- `struct _CO_SF_BLOCK_IDX` -/
structure BlockIdx where
  inIdx : Nat
  outIdx : Nat

/-- `struct _CO_SHARED_FIFO` with the elements it points to. -/
structure SharedFifo (Elt : Type u) where
  eltNbr : Nat
  elts : Nat → Elt
  idxTab : Block → BlockIdx

section Operations

variable {Elt : Type u}

def coSharedFifoInit (eltNbr : Nat) (elts : Nat → Elt) : SharedFifo Elt where
  eltNbr := eltNbr
  elts := elts
  idxTab
    | .get => ⟨0, 1⟩
    | .make => ⟨1, 1⟩
    | .set => ⟨1, 1⟩

namespace SharedFifo

variable (fifo : SharedFifo Elt) (block : Block)

def inIdx : Nat := (fifo.idxTab block).inIdx

def outIdx : Nat := (fifo.idxTab block).outIdx

/-- Move the end of a stage's elements. -/
def setIn (index : Nat) : SharedFifo Elt :=
  { fifo with
    idxTab := Function.update fifo.idxTab block { fifo.idxTab block with inIdx := index } }

def setOut (index : Nat) : SharedFifo Elt :=
  { fifo with
    idxTab := Function.update fifo.idxTab block { fifo.idxTab block with outIdx := index } }

def write (ptr : Nat) (elt : Elt) : SharedFifo Elt :=
  { fifo with elts := Function.update fifo.elts ptr elt }

end SharedFifo

def coSharedFifoNbEltCont (fifo : SharedFifo Elt) (block : Block) : Nat :=
  if fifo.outIdx block ≤ fifo.inIdx block then fifo.inIdx block - fifo.outIdx block
  else fifo.eltNbr + fifo.inIdx block - fifo.outIdx block

def coSharedFifoNbElt (fifo : SharedFifo Elt) (block : Block) : Nat :=
  let nbElt := fifo.eltNbr + fifo.inIdx block - fifo.outIdx block
  if fifo.eltNbr ≤ nbElt then nbElt - fifo.eltNbr else nbElt

/-- `CO_SharedFifoEmpty`: despite its name it says that the stage holds elements. -/
def coSharedFifoEmpty (fifo : SharedFifo Elt) (block : Block) : Bool :=
  fifo.inIdx block != fifo.outIdx block

def coSharedFifoGet (fifo : SharedFifo Elt) (block : Block) (nbElt : Nat) :
    Option Nat × SharedFifo Elt :=
  if coSharedFifoNbEltCont fifo block < nbElt then (none, fifo)
  else
    (some (fifo.outIdx block),
      fifo.setOut block (Ring.advance fifo.eltNbr (fifo.outIdx block) nbElt))

def coSharedFifoPut (fifo : SharedFifo Elt) (block : Block) (nbElt : Nat) : SharedFifo Elt :=
  fifo.setIn block.next (Ring.advance fifo.eltNbr (fifo.inIdx block.next) nbElt)

end Operations

namespace SharedFifo

variable {Elt : Type u} {fifo : SharedFifo Elt} {block other : Block} {index ptr : Nat} {elt : Elt}

@[simp] theorem setIn_eltNbr : (fifo.setIn block index).eltNbr = fifo.eltNbr := rfl

@[simp] theorem setOut_eltNbr : (fifo.setOut block index).eltNbr = fifo.eltNbr := rfl

@[simp] theorem write_eltNbr : (fifo.write ptr elt).eltNbr = fifo.eltNbr := rfl

@[simp] theorem setIn_elts : (fifo.setIn block index).elts = fifo.elts := rfl

@[simp] theorem setOut_elts : (fifo.setOut block index).elts = fifo.elts := rfl

@[simp] theorem write_elts : (fifo.write ptr elt).elts = Function.update fifo.elts ptr elt := rfl

@[simp] theorem setIn_inIdx :
    (fifo.setIn block index).inIdx other = if other = block then index else fifo.inIdx other := by
  by_cases same : other = block
  · rw [same]
    simp [inIdx, setIn]
  · simp [inIdx, setIn, same]

@[simp] theorem setIn_outIdx : (fifo.setIn block index).outIdx other = fifo.outIdx other := by
  by_cases same : other = block
  · rw [same]
    simp [outIdx, setIn]
  · simp [outIdx, setIn, same]

@[simp] theorem setOut_outIdx :
    (fifo.setOut block index).outIdx other =
      if other = block then index else fifo.outIdx other := by
  by_cases same : other = block
  · rw [same]
    simp [outIdx, setOut]
  · simp [outIdx, setOut, same]

@[simp] theorem setOut_inIdx : (fifo.setOut block index).inIdx other = fifo.inIdx other := by
  by_cases same : other = block
  · rw [same]
    simp [inIdx, setOut]
  · simp [inIdx, setOut, same]

@[simp] theorem write_inIdx : (fifo.write ptr elt).inIdx other = fifo.inIdx other := rfl

@[simp] theorem write_outIdx : (fifo.write ptr elt).outIdx other = fifo.outIdx other := rfl

def stage (fifo : SharedFifo Elt) (block : Block) : List Elt :=
  Ring.cells fifo.eltNbr fifo.elts (fifo.outIdx block) (coSharedFifoNbEltCont fifo block)

/-- The fifo holds `set` from the counter `start` on, then elements that a failed step has left
between the stages, then `made`. -/
structure Staged (fifo : SharedFifo Elt) (start : Nat) (set gap made : List Elt) : Prop where
  room : set.length + gap.length + made.length < fifo.eltNbr
  cells : Ring.cells fifo.eltNbr fifo.elts start (set.length + gap.length + made.length) =
    set ++ gap ++ made
  outSet : fifo.outIdx .set = start % fifo.eltNbr
  inSet : fifo.inIdx .set = (start + set.length) % fifo.eltNbr
  outMake : fifo.outIdx .make = (start + set.length + gap.length) % fifo.eltNbr
  inMake : fifo.inIdx .make = (start + set.length + gap.length + made.length) % fifo.eltNbr
  outGet : fifo.outIdx .get = (start + set.length + gap.length + made.length) % fifo.eltNbr
  inGet : fifo.inIdx .get = (start + fifo.eltNbr - 1) % fifo.eltNbr

/-- A fifo between two steps that succeed. -/
def Valid (fifo : SharedFifo Elt) : Prop := ∃ start set made, fifo.Staged start set [] made

theorem init_staged (elts : Nat → Elt) {eltNbr : Nat} (large : 1 < eltNbr) :
    (coSharedFifoInit eltNbr elts).Staged 1 [] [] [] where
  room := Nat.lt_trans Nat.zero_lt_one large
  cells := rfl
  outSet := (Nat.mod_eq_of_lt large).symm
  inSet := (Nat.mod_eq_of_lt large).symm
  outMake := (Nat.mod_eq_of_lt large).symm
  inMake := (Nat.mod_eq_of_lt large).symm
  outGet := (Nat.mod_eq_of_lt large).symm
  inGet := by
    have same : (1 + eltNbr - 1) % eltNbr = 0 := by
      rw [Nat.add_sub_cancel_left, Nat.mod_self]
    exact same.symm

/-- What waits in the fifo, in its order. -/
def waiting (fifo : SharedFifo Elt) : List Elt := fifo.stage .set ++ fifo.stage .make

namespace Staged

variable {start : Nat} {set gap made : List Elt}

theorem positive (staged : fifo.Staged start set gap made) : 0 < fifo.eltNbr := by
  have room := staged.room
  omega

theorem setCount (staged : fifo.Staged start set gap made) :
    coSharedFifoNbEltCont fifo .set = set.length := by
  have room := staged.room
  rw [coSharedFifoNbEltCont, staged.outSet, staged.inSet]
  exact Ring.distance_mod _ (by omega)

theorem madeCount (staged : fifo.Staged start set gap made) :
    coSharedFifoNbEltCont fifo .make = made.length := by
  have room := staged.room
  rw [coSharedFifoNbEltCont, staged.outMake, staged.inMake]
  exact Ring.distance_mod _ (by omega)

theorem getCount (staged : fifo.Staged start set gap made) :
    coSharedFifoNbEltCont fifo .get =
      fifo.eltNbr - 1 - (set.length + gap.length + made.length) := by
  have room := staged.room
  have inGet : fifo.inIdx .get = (start + set.length + gap.length + made.length +
      (fifo.eltNbr - 1 - (set.length + gap.length + made.length))) % fifo.eltNbr := by
    rw [staged.inGet]
    congr 1
    omega
  rw [coSharedFifoNbEltCont, staged.outGet, inGet]
  exact Ring.distance_mod _ (by omega)

theorem stage_set (staged : fifo.Staged start set gap made) : fifo.stage .set = set := by
  have cells := staged.cells
  rw [Nat.add_assoc, Ring.cells_append, List.append_assoc] at cells
  have start_eq : Ring.cells fifo.eltNbr fifo.elts (fifo.outIdx .set) set.length =
      Ring.cells fifo.eltNbr fifo.elts start set.length := by
    rw [staged.outSet, Ring.cells_mod]
  rw [stage, staged.setCount, start_eq]
  exact (List.append_inj cells Ring.cells_length).1

theorem stage_make (staged : fifo.Staged start set gap made) : fifo.stage .make = made := by
  have cells := staged.cells
  rw [Ring.cells_append] at cells
  have start_eq : Ring.cells fifo.eltNbr fifo.elts (fifo.outIdx .make) made.length =
      Ring.cells fifo.eltNbr fifo.elts (start + (set.length + gap.length)) made.length := by
    rw [staged.outMake, Ring.cells_mod, Nat.add_assoc]
  rw [stage, staged.madeCount, start_eq]
  exact (List.append_inj cells (by rw [Ring.cells_length, List.length_append])).2

theorem pick_set (staged : fifo.Staged start (elt :: set) gap made) :
    fifo.elts (fifo.outIdx .set) = elt := by
  have cells := staged.cells
  rw [show (elt :: set).length + gap.length + made.length =
    set.length + gap.length + made.length + 1 by rw [List.length_cons]; omega,
    Ring.cells_succ] at cells
  rw [staged.outSet]
  exact (List.cons_eq_cons.mp cells).1

theorem pick_make (staged : fifo.Staged start set gap (elt :: made)) :
    fifo.elts (fifo.outIdx .make) = elt := by
  have handed := staged.stage_make
  rw [stage, staged.madeCount, List.length_cons, Ring.cells_succ] at handed
  rw [staged.outMake] at handed ⊢
  rw [Nat.mod_mod] at handed
  exact (List.cons_eq_cons.mp handed).1

theorem get_eq (holds : 0 < coSharedFifoNbEltCont fifo block) :
    coSharedFifoGet fifo block 1 = (some (fifo.outIdx block),
      fifo.setOut block (Ring.advance fifo.eltNbr (fifo.outIdx block) 1)) := by
  rw [coSharedFifoGet, if_neg (by omega)]

private theorem outIdx_lt (staged : fifo.Staged start set gap made) (block : Block) :
    fifo.outIdx block < fifo.eltNbr := by
  cases block with
  | get =>
    rw [staged.outGet]
    exact Nat.mod_lt _ staged.positive
  | make =>
    rw [staged.outMake]
    exact Nat.mod_lt _ staged.positive
  | set =>
    rw [staged.outSet]
    exact Nat.mod_lt _ staged.positive

theorem empty_iff (staged : fifo.Staged start set gap made) (block : Block) :
    coSharedFifoEmpty fifo block = true ↔ 0 < coSharedFifoNbEltCont fifo block := by
  have below := staged.outIdx_lt block
  rw [coSharedFifoEmpty, bne_iff_ne, coSharedFifoNbEltCont]
  split <;> omega

theorem take_make (staged : fifo.Staged start set [] (elt :: made)) :
    (fifo.setOut .make (Ring.advance fifo.eltNbr (fifo.outIdx .make) 1)).Staged start set [elt]
      made := by
  have room := staged.room
  have total : set.length + [elt].length + made.length =
      set.length + ([] : List Elt).length + (elt :: made).length := by
    simp only [List.length_cons, List.length_nil]
    omega
  have behind : start + set.length + [elt].length + made.length =
      start + set.length + ([] : List Elt).length + (elt :: made).length := by
    simp only [List.length_cons, List.length_nil]
    omega
  constructor
  · rw [total]
    exact room
  · rw [total, setOut_eltNbr, setOut_elts, staged.cells]
    simp
  · simpa using staged.outSet
  · simpa using staged.inSet
  · rw [setOut_outIdx, if_pos rfl, staged.outMake, setOut_eltNbr,
      Ring.advance_mod staged.positive staged.positive]
    rfl
  · rw [behind, setOut_inIdx]
    exact staged.inMake
  · rw [behind, setOut_outIdx, if_neg (by decide)]
    exact staged.outGet
  · rw [setOut_inIdx]
    exact staged.inGet

/-- An element made is set for transmission, with what was written to it. -/
theorem pass_make (staged : fifo.Staged start set [] (elt :: made)) (written : Elt) :
    (coSharedFifoPut ((fifo.setOut .make (Ring.advance fifo.eltNbr (fifo.outIdx .make) 1)).write
      (fifo.outIdx .make) written) .make 1).Staged start (set ++ [written]) [] made := by
  have room := staged.room
  have positive := staged.positive
  have total : (set ++ [written]).length + ([] : List Elt).length + made.length =
      set.length + ([] : List Elt).length + (elt :: made).length := by
    simp only [List.length_append, List.length_cons, List.length_nil]
    omega
  have behind : start + (set ++ [written]).length + ([] : List Elt).length + made.length =
      start + set.length + ([] : List Elt).length + (elt :: made).length := by
    simp only [List.length_append, List.length_cons, List.length_nil]
    omega
  have next : start + (set ++ [written]).length + ([] : List Elt).length =
      start + set.length + 1 := by
    simp only [List.length_append, List.length_cons, List.length_nil]
    omega
  simp only [List.length_cons, List.length_nil] at room
  have cells := staged.cells
  have outMake := staged.outMake
  rw [List.length_nil, Nat.add_zero] at outMake
  constructor
  · rw [total]
    exact staged.room
  · have parts : set.length + ([] : List Elt).length + (elt :: made).length =
        set.length + (1 + made.length) := by
      simp only [List.length_cons, List.length_nil]
      omega
    rw [parts, Ring.cells_append, Ring.cells_append] at cells
    have before : Ring.cells fifo.eltNbr fifo.elts start set.length = set := by
      have split := cells
      rw [List.append_nil] at split
      exact (List.append_inj split Ring.cells_length).1
    have after : Ring.cells fifo.eltNbr fifo.elts (start + set.length + 1) made.length = made := by
      have split := cells
      rw [List.append_nil] at split
      have tail : Ring.cells fifo.eltNbr fifo.elts (start + set.length) 1 ++
          Ring.cells fifo.eltNbr fifo.elts (start + set.length + 1) made.length = [elt] ++ made :=
        (List.append_inj split Ring.cells_length).2
      exact (List.append_inj tail Ring.cells_length).2
    rw [total, parts, ← Nat.add_assoc, Ring.cells_append]
    simp only [coSharedFifoPut, setIn_eltNbr, setIn_elts, write_eltNbr, write_elts, setOut_eltNbr,
      setOut_elts, outMake]
    rw [Ring.cells_update_end (by omega), before,
      Ring.cells_update_before (by omega) (by omega), ← Nat.add_assoc, after, List.append_nil]
  · simpa [coSharedFifoPut, Block.next] using staged.outSet
  · simp only [coSharedFifoPut, Block.next, setIn_inIdx, if_pos, write_inIdx, setOut_inIdx,
      write_eltNbr, setOut_eltNbr, setIn_eltNbr, staged.inSet]
    rw [Ring.advance_mod positive positive, List.length_append]
    rfl
  · rw [next]
    simp only [coSharedFifoPut, Block.next, setIn_outIdx, write_outIdx, setOut_outIdx, if_pos,
      setIn_eltNbr, write_eltNbr, setOut_eltNbr, outMake]
    rw [Ring.advance_mod positive positive]
  · rw [behind]
    simpa [coSharedFifoPut, Block.next] using staged.inMake
  · rw [behind]
    simpa [coSharedFifoPut, Block.next] using staged.outGet
  · simpa [coSharedFifoPut, Block.next] using staged.inGet

theorem pass_set (staged : fifo.Staged start (elt :: set) gap made) :
    (coSharedFifoPut (fifo.setOut .set (Ring.advance fifo.eltNbr (fifo.outIdx .set) 1)) .set
      1).Staged (start + 1) set gap made := by
  have room := staged.room
  have positive := staged.positive
  have cells := staged.cells
  have total : (elt :: set).length + gap.length + made.length =
      set.length + gap.length + made.length + 1 := by
    simp only [List.length_cons]
    omega
  have inside : start + (elt :: set).length = start + 1 + set.length := by
    rw [List.length_cons]
    omega
  constructor
  · simp only [coSharedFifoPut, setIn_eltNbr, setOut_eltNbr]
    omega
  · rw [total, Ring.cells_succ] at cells
    exact (List.cons_eq_cons.mp cells).2
  · simp only [coSharedFifoPut, Block.next, setIn_outIdx, setOut_outIdx, if_pos, setIn_eltNbr,
      setOut_eltNbr, staged.outSet]
    exact Ring.advance_mod positive positive
  · rw [← inside]
    simpa [coSharedFifoPut, Block.next] using staged.inSet
  · rw [← inside]
    simpa [coSharedFifoPut, Block.next] using staged.outMake
  · rw [← inside]
    simpa [coSharedFifoPut, Block.next] using staged.inMake
  · rw [← inside]
    simpa [coSharedFifoPut, Block.next] using staged.outGet
  · simp only [coSharedFifoPut, Block.next, setIn_inIdx, if_pos, setOut_inIdx, setIn_eltNbr,
      setOut_eltNbr, staged.inGet]
    rw [Ring.advance_mod positive positive]
    congr 1
    omega

/-- A free element is filled behind those made. -/
theorem pass_get (staged : fifo.Staged start set gap made)
    (room : set.length + gap.length + made.length + 1 < fifo.eltNbr) (written : Elt) :
    (coSharedFifoPut ((fifo.setOut .get (Ring.advance fifo.eltNbr (fifo.outIdx .get) 1)).write
      (fifo.outIdx .get) written) .get 1).Staged start set gap (made ++ [written]) := by
  have positive := staged.positive
  have total : set.length + gap.length + (made ++ [written]).length =
      set.length + gap.length + made.length + 1 := by
    rw [List.length_append, List.length_singleton]
    omega
  have behind : start + set.length + gap.length + (made ++ [written]).length =
      start + set.length + gap.length + made.length + 1 := by
    rw [List.length_append, List.length_singleton]
    omega
  have outGet : fifo.outIdx .get =
      (start + (set.length + gap.length + made.length)) % fifo.eltNbr := by
    rw [staged.outGet]
    congr 1
    omega
  constructor
  · rw [total]
    exact room
  · simp only [coSharedFifoPut, setIn_eltNbr, setIn_elts, write_eltNbr, write_elts, setOut_eltNbr,
      setOut_elts]
    rw [total, outGet, Ring.cells_update_end (by omega), staged.cells, List.append_assoc]
  · simpa [coSharedFifoPut, Block.next] using staged.outSet
  · simpa [coSharedFifoPut, Block.next] using staged.inSet
  · simpa [coSharedFifoPut, Block.next] using staged.outMake
  · rw [behind]
    simp only [coSharedFifoPut, Block.next, setIn_inIdx, if_pos, write_inIdx, setOut_inIdx,
      setIn_eltNbr, write_eltNbr, setOut_eltNbr, staged.inMake]
    exact Ring.advance_mod positive positive
  · rw [behind]
    simp only [coSharedFifoPut, Block.next, setIn_outIdx, write_outIdx, setOut_outIdx, if_pos,
      setIn_eltNbr, write_eltNbr, setOut_eltNbr, staged.outGet]
    exact Ring.advance_mod positive positive
  · simpa [coSharedFifoPut, Block.next] using staged.inGet

end Staged

end SharedFifo

end W522a.Hal
