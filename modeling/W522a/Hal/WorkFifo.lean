import W522a.Hal.SharedFifo

/-!
The shared fifo of the deferred work: the same indices with two stages, the slots to be filled and
the items to be run, seen through counters that never wrap.
-/

namespace W522a.Hal.Work

universe u

/-- The stages of the work fifo, `CO_WORK_GET` and `CO_WORK_FREE`. -/
inductive WorkBlock where
  | get
  | free
  deriving DecidableEq, Repr

/-- `NextBlockID` of a fifo with `CO_SF_WORK_NBR` stages. -/
def WorkBlock.next : WorkBlock → WorkBlock
  | .get => .free
  | .free => .get

/-- `struct _CO_SHARED_FIFO` with the elements it points to. -/
structure WorkFifo (Elt : Type u) where
  eltNbr : Nat
  elts : Nat → Elt
  idxTab : WorkBlock → BlockIdx

variable {Elt : Type u}

def coSharedFifoInit (eltNbr : Nat) (elts : Nat → Elt) : WorkFifo Elt where
  eltNbr := eltNbr
  elts := elts
  idxTab
    | .get => ⟨0, 1⟩
    | .free => ⟨1, 1⟩

namespace WorkFifo

variable (fifo : WorkFifo Elt) (block : WorkBlock)

def inIdx : Nat := (fifo.idxTab block).inIdx

def outIdx : Nat := (fifo.idxTab block).outIdx

/-- Move the end of a stage's elements. -/
def setIn (index : Nat) : WorkFifo Elt :=
  { fifo with
    idxTab := Function.update fifo.idxTab block { fifo.idxTab block with inIdx := index } }

def setOut (index : Nat) : WorkFifo Elt :=
  { fifo with
    idxTab := Function.update fifo.idxTab block { fifo.idxTab block with outIdx := index } }

def write (ptr : Nat) (elt : Elt) : WorkFifo Elt :=
  { fifo with elts := Function.update fifo.elts ptr elt }

end WorkFifo

def coSharedFifoNbEltCont (fifo : WorkFifo Elt) (block : WorkBlock) : Nat :=
  if fifo.outIdx block ≤ fifo.inIdx block then fifo.inIdx block - fifo.outIdx block
  else fifo.eltNbr + fifo.inIdx block - fifo.outIdx block

/-- `CO_SharedFifoEmpty`, which says that the stage holds elements. -/
def coSharedFifoEmpty (fifo : WorkFifo Elt) (block : WorkBlock) : Bool :=
  fifo.inIdx block != fifo.outIdx block

def coSharedFifoGet (fifo : WorkFifo Elt) (block : WorkBlock) (nbElt : Nat) :
    Option Nat × WorkFifo Elt :=
  if coSharedFifoNbEltCont fifo block < nbElt then (none, fifo)
  else
    (some (fifo.outIdx block),
      fifo.setOut block (Ring.advance fifo.eltNbr (fifo.outIdx block) nbElt))

def coSharedFifoPut (fifo : WorkFifo Elt) (block : WorkBlock) (nbElt : Nat) : WorkFifo Elt :=
  fifo.setIn block.next (Ring.advance fifo.eltNbr (fifo.inIdx block.next) nbElt)

namespace WorkFifo

variable {fifo : WorkFifo Elt} {block other : WorkBlock} {index ptr : Nat} {elt : Elt}

@[simp] theorem setIn_eltNbr : (fifo.setIn block index).eltNbr = fifo.eltNbr := rfl

@[simp] theorem setOut_eltNbr : (fifo.setOut block index).eltNbr = fifo.eltNbr := rfl

@[simp] theorem write_eltNbr : (fifo.write ptr elt).eltNbr = fifo.eltNbr := rfl

@[simp] theorem setIn_elts : (fifo.setIn block index).elts = fifo.elts := rfl

@[simp] theorem setOut_elts : (fifo.setOut block index).elts = fifo.elts := rfl

@[simp] theorem write_elts : (fifo.write ptr elt).elts = Function.update fifo.elts ptr elt := rfl

@[simp] theorem setIn_inIdx :
    (fifo.setIn block index).inIdx other = if other = block then index else fifo.inIdx other := by
  by_cases same : other = block
  · rw [same]
    simp [inIdx, setIn]
  · simp [inIdx, setIn, same]

@[simp] theorem setIn_outIdx : (fifo.setIn block index).outIdx other = fifo.outIdx other := by
  by_cases same : other = block
  · rw [same]
    simp [outIdx, setIn]
  · simp [outIdx, setIn, same]

@[simp] theorem setOut_outIdx :
    (fifo.setOut block index).outIdx other =
      if other = block then index else fifo.outIdx other := by
  by_cases same : other = block
  · rw [same]
    simp [outIdx, setOut]
  · simp [outIdx, setOut, same]

@[simp] theorem setOut_inIdx : (fifo.setOut block index).inIdx other = fifo.inIdx other := by
  by_cases same : other = block
  · rw [same]
    simp [inIdx, setOut]
  · simp [inIdx, setOut, same]

@[simp] theorem write_inIdx : (fifo.write ptr elt).inIdx other = fifo.inIdx other := rfl

@[simp] theorem write_outIdx : (fifo.write ptr elt).outIdx other = fifo.outIdx other := rfl

/-- The slot of the element with a number, counted from the first ever handed out. -/
def slot (fifo : WorkFifo Elt) (turn : Nat) : Nat := (1 + turn) % fifo.eltNbr

@[simp] theorem write_slot (turn : Nat) : (fifo.write ptr elt).slot turn = fifo.slot turn := rfl

/-- So many slots were ever handed out to be filled, so many of them passed on, so many of those
taken to be run, and so many given back. -/
structure Counted (fifo : WorkFifo Elt) (granted published taken freed : Nat) : Prop where
  outGet : fifo.outIdx .get = (1 + granted) % fifo.eltNbr
  inFree : fifo.inIdx .free = (1 + published) % fifo.eltNbr
  outFree : fifo.outIdx .free = (1 + taken) % fifo.eltNbr
  inGet : fifo.inIdx .get = freed % fifo.eltNbr
  given : freed ≤ taken
  run : taken ≤ published
  passed : published ≤ granted
  room : granted < freed + fifo.eltNbr

theorem init_counted (elts : Nat → Elt) {eltNbr : Nat} (large : 1 < eltNbr) :
    (coSharedFifoInit eltNbr elts).Counted 0 0 0 0 where
  outGet := (Nat.mod_eq_of_lt large).symm
  inFree := (Nat.mod_eq_of_lt large).symm
  outFree := (Nat.mod_eq_of_lt large).symm
  inGet := (Nat.zero_mod eltNbr).symm
  given := Nat.le_refl 0
  run := Nat.le_refl 0
  passed := Nat.le_refl 0
  room := by
    rw [Nat.zero_add]
    exact Nat.lt_trans Nat.zero_lt_one large

namespace Counted

variable {granted published taken freed : Nat}

theorem positive (counted : fifo.Counted granted published taken freed) : 0 < fifo.eltNbr := by
  have passed := counted.passed
  have run := counted.run
  have given := counted.given
  have room := counted.room
  omega

theorem getCount (counted : fifo.Counted granted published taken freed) :
    coSharedFifoNbEltCont fifo .get = freed + fifo.eltNbr - 1 - granted := by
  have passed := counted.passed
  have run := counted.run
  have given := counted.given
  have room := counted.room
  have inGet : fifo.inIdx .get =
      (1 + granted + (freed + fifo.eltNbr - 1 - granted)) % fifo.eltNbr := by
    have sum : 1 + granted + (freed + fifo.eltNbr - 1 - granted) = freed + fifo.eltNbr := by omega
    rw [sum, Nat.add_mod_right]
    exact counted.inGet
  rw [coSharedFifoNbEltCont, counted.outGet, inGet]
  exact Ring.distance_mod _ (by omega)

theorem freeCount (counted : fifo.Counted granted published taken freed) :
    coSharedFifoNbEltCont fifo .free = published - taken := by
  have passed := counted.passed
  have run := counted.run
  have given := counted.given
  have room := counted.room
  have inFree : fifo.inIdx .free = (1 + taken + (published - taken)) % fifo.eltNbr := by
    have sum : 1 + taken + (published - taken) = 1 + published := by omega
    rw [sum]
    exact counted.inFree
  rw [coSharedFifoNbEltCont, counted.outFree, inFree]
  exact Ring.distance_mod _ (by omega)

theorem empty_iff (counted : fifo.Counted granted published taken freed) :
    coSharedFifoEmpty fifo .free = true ↔ taken < published := by
  have passed := counted.passed
  have run := counted.run
  have given := counted.given
  have room := counted.room
  rw [coSharedFifoEmpty, bne_iff_ne, counted.inFree, counted.outFree]
  constructor
  case mp =>
    intro apart
    by_contra whole
    have same : taken = published := by omega
    exact apart (by rw [same])
  case mpr =>
    intro behind
    exact Ring.mod_ne (by omega) (by omega)

/-- Two elements less than a ring apart lie in two slots. -/
theorem slot_ne (counted : fifo.Counted granted published taken freed) {first second : Nat}
    (firstIn : freed ≤ first ∧ first < granted) (secondIn : freed ≤ second ∧ second < granted)
    (apart : first ≠ second) : fifo.slot first ≠ fifo.slot second := by
  have room := counted.room
  rcases Nat.lt_or_gt_of_ne apart with before | after
  · exact (Ring.mod_ne (by omega) (by omega)).symm
  · exact Ring.mod_ne (by omega) (by omega)

theorem grant (counted : fifo.Counted granted published taken freed)
    (free : granted + 1 < freed + fifo.eltNbr) :
    (fifo.setOut .get (Ring.advance fifo.eltNbr (fifo.outIdx .get) 1)).Counted (granted + 1)
      published taken freed where
  outGet := by
    rw [setOut_outIdx, if_pos rfl, counted.outGet, setOut_eltNbr,
      Ring.advance_mod counted.positive counted.positive, Nat.add_assoc]
  inFree := by
    rw [setOut_inIdx]
    exact counted.inFree
  outFree := by
    rw [setOut_outIdx, if_neg nofun]
    exact counted.outFree
  inGet := by
    rw [setOut_inIdx]
    exact counted.inGet
  given := counted.given
  run := counted.run
  passed := Nat.le_succ_of_le counted.passed
  room := free

theorem write (counted : fifo.Counted granted published taken freed) (ptr : Nat) (elt : Elt) :
    (fifo.write ptr elt).Counted granted published taken freed :=
  ⟨counted.outGet, counted.inFree, counted.outFree, counted.inGet, counted.given, counted.run,
    counted.passed, counted.room⟩

theorem publish (counted : fifo.Counted granted published taken freed)
    (held : published < granted) :
    (coSharedFifoPut fifo .get 1).Counted granted (published + 1) taken freed where
  outGet := by
    rw [coSharedFifoPut, setIn_outIdx]
    exact counted.outGet
  inFree := by
    rw [coSharedFifoPut, WorkBlock.next, setIn_inIdx, if_pos rfl, counted.inFree, setIn_eltNbr,
      Ring.advance_mod counted.positive counted.positive, Nat.add_assoc]
  outFree := by
    rw [coSharedFifoPut, setIn_outIdx]
    exact counted.outFree
  inGet := by
    rw [coSharedFifoPut, WorkBlock.next, setIn_inIdx, if_neg nofun]
    exact counted.inGet
  given := counted.given
  run := Nat.le_succ_of_le counted.run
  passed := held
  room := counted.room

theorem take (counted : fifo.Counted granted published taken freed)
    (waits : taken < published) :
    (fifo.setOut .free (Ring.advance fifo.eltNbr (fifo.outIdx .free) 1)).Counted granted
      published (taken + 1) freed where
  outGet := by
    rw [setOut_outIdx, if_neg nofun]
    exact counted.outGet
  inFree := by
    rw [setOut_inIdx]
    exact counted.inFree
  outFree := by
    rw [setOut_outIdx, if_pos rfl, counted.outFree, setOut_eltNbr,
      Ring.advance_mod counted.positive counted.positive, Nat.add_assoc]
  inGet := by
    rw [setOut_inIdx]
    exact counted.inGet
  given := Nat.le_succ_of_le counted.given
  run := waits
  passed := counted.passed
  room := counted.room

theorem release (counted : fifo.Counted granted published taken freed)
    (held : freed < taken) :
    (coSharedFifoPut fifo .free 1).Counted granted published taken (freed + 1) where
  outGet := by
    rw [coSharedFifoPut, setIn_outIdx]
    exact counted.outGet
  inFree := by
    rw [coSharedFifoPut, WorkBlock.next, setIn_inIdx, if_neg nofun]
    exact counted.inFree
  outFree := by
    rw [coSharedFifoPut, setIn_outIdx]
    exact counted.outFree
  inGet := by
    rw [coSharedFifoPut, WorkBlock.next, setIn_inIdx, if_pos rfl, counted.inGet, setIn_eltNbr,
      Ring.advance_mod counted.positive counted.positive]
  given := held
  run := counted.run
  passed := counted.passed
  room := Nat.lt_of_lt_of_le counted.room (by rw [coSharedFifoPut, setIn_eltNbr]; omega)

end Counted

end WorkFifo

end W522a.Hal.Work
