import Mathlib.Data.List.Forall2
import W522a.Common
import W522a.Lib.Flat
import W522a.Lib.Ring
import W522a.Lib.Run

/-!
The fifo of the commands to the firmware: the head is the host's and the tail the firmware's, and
each side reads the other's over the bus. A step is one access to the chip, with what the host does
up to the next one; all callers of `hi_set_cmd` hold a mutex, so one command is pushed at a time.

The firmware reads every command once, in order and as it was pushed, as long as no command is
longer than an entry: nothing in `hi_push_down_fifo` looks at the length.
-/

namespace W522a.Hal

@[simp] abbrev appCmdPerfifoLen : Nat := 64

/-- `FIFO_SHARE_CTRL` of the host. The words of the chip at `FCB` are `FifoChip`. -/
structure FifoShareCtrl where
  fdb : Nat
  fdn : Nat
  fdh : Nat
  fdt : Nat
  fdl : Nat

/-- The chip: its memory, and the head and the tail at `FCB + 8` and `FCB + 12`. -/
structure FifoChip where
  sram : Int → UInt8
  fdh : Nat
  fdt : Nat

def bFifoFull (fifo : FifoShareCtrl) : Bool :=
  circleAddOne fifo.fdh fifo.fdn == fifo.fdt

def hiGetNextDownFifo (fifo : FifoShareCtrl) : Nat := fifo.fdb + fifo.fdh * fifo.fdl

def hiDownFifoPull (fifo : FifoShareCtrl) (chip : FifoChip) : Bool × FifoShareCtrl :=
  (bFifoFull { fifo with fdt := chip.fdt }, { fifo with fdt := chip.fdt })

/-- Where the host is in `hi_push_down_fifo`: outside, or before one of its two writes. -/
inductive PushAt where
  | outside
  | entry (pdata : List UInt8)
  | head (pdata : List UInt8)
  deriving DecidableEq

/-- The host, the chip, the commands with what `hi_push_down_fifo` returned for them, and what the
firmware has read. -/
structure CmdFifo where
  host : FifoShareCtrl
  chip : FifoChip
  place : PushAt
  returned : List (List UInt8 × Bool)
  seen : List (List UInt8)

/-- A step: a call of `hi_push_down_fifo` up to its first write, the next write of the call, or the
firmware, which reads so many bytes of the entry at its tail and moves the tail. -/
inductive CmdStep where
  | push (pdata : List UInt8)
  | write
  | consume (count : Nat)

namespace CmdFifo

def push (fifo : CmdFifo) (pdata : List UInt8) : CmdFifo :=
  let (full, host) := hiDownFifoPull fifo.host fifo.chip
  if full then { fifo with host, returned := fifo.returned ++ [(pdata, false)] }
  else { fifo with host, place := .entry pdata }

/-- The write of the entry, and `CIRCLE_Add_One` of the host's head. -/
def writeEntry (fifo : CmdFifo) (pdata : List UInt8) : CmdFifo :=
  { fifo with
    chip := { fifo.chip with
      sram := Flat.fill fifo.chip.sram (hiGetNextDownFifo fifo.host) pdata.length
        fun index => pdata.getD index 0 }
    host := { fifo.host with fdh := circleAddOne fifo.host.fdh fifo.host.fdn }
    place := .head pdata }

def writeHead (fifo : CmdFifo) (pdata : List UInt8) : CmdFifo :=
  { fifo with
    chip := { fifo.chip with fdh := fifo.host.fdh }
    place := .outside
    returned := fifo.returned ++ [(pdata, true)] }

/-- The firmware takes the entry at its tail, if there is one. -/
def consume (fifo : CmdFifo) (count : Nat) : CmdFifo :=
  if fifo.chip.fdt = fifo.chip.fdh then fifo
  else
    { fifo with
      chip := { fifo.chip with fdt := circleAddOne fifo.chip.fdt fifo.host.fdn }
      seen := fifo.seen ++
        [Flat.load fifo.chip.sram (fifo.host.fdb + fifo.chip.fdt * fifo.host.fdl : Nat) count] }

/-- What a step does. The host calls only when it is outside, and writes only inside a call. -/
def step (fifo : CmdFifo) : CmdStep → CmdFifo
  | .push pdata =>
    match fifo.place with
    | .outside => fifo.push pdata
    | _ => fifo
  | .write =>
    match fifo.place with
    | .outside => fifo
    | .entry pdata => fifo.writeEntry pdata
    | .head pdata => fifo.writeHead pdata
  | .consume count => fifo.consume count

/-- The commands that were taken: those for which the call returned `true`. -/
def pushed (fifo : CmdFifo) : List (List UInt8) :=
  fifo.returned.filterMap fun (pdata, taken) => if taken then some pdata else none

end CmdFifo

/-- The part of `hal_host_init` about the fifo, with the number and the place of its entries as the
chip has them, and the fifo of the chip empty. -/
def cmdFifoInit (fdb fdn : Nat) (sram : Int → UInt8) : CmdFifo where
  host := ⟨fdb, fdn, 0, 0, appCmdPerfifoLen⟩
  chip := ⟨sram, 0, 0⟩
  place := .outside
  returned := []
  seen := []

/-- Two texts agree in every byte that both have. -/
def Agrees (pdata bytes : List UInt8) : Prop := pdata <+: bytes ∨ bytes <+: pdata

namespace CmdFifo

/-- Where an entry lies, counted from the tail. -/
def entryPos (fifo : CmdFifo) (offset : Nat) : Nat :=
  fifo.host.fdb + Ring.slot fifo.host.fdn fifo.chip.fdt offset * fifo.host.fdl

/-- The entry at an offset from the tail begins with a command. -/
def Holds (fifo : CmdFifo) (offset : Nat) (pdata : List UInt8) : Prop :=
  Flat.load fifo.chip.sram (fifo.entryPos offset) pdata.length = pdata

/-- The commands that were taken are those the firmware has read, each as it was pushed, and behind
them those that lie between the tail and the head, each still in its entry. -/
def Right (fifo : CmdFifo) : Prop :=
  ∃ taken unread,
    fifo.pushed = taken ++ unread ∧
    List.Forall₂ Agrees taken fifo.seen ∧
    unread.length < fifo.host.fdn ∧
    fifo.chip.fdh = Ring.slot fifo.host.fdn fifo.chip.fdt unread.length ∧
    ∀ offset pdata, unread[offset]? = some pdata → fifo.Holds offset pdata

/-- A call that returns `false` leaves the chip and the place and the head of the host. -/
def RefusalKeeps (fifo : CmdFifo) : Prop :=
  ∀ pdata, (fifo.step (.push pdata)).returned = fifo.returned ++ [(pdata, false)] →
    (fifo.step (.push pdata)).chip = fifo.chip ∧
    (fifo.step (.push pdata)).place = fifo.place ∧
    (fifo.step (.push pdata)).host.fdh = fifo.host.fdh ∧
    (fifo.step (.push pdata)).seen = fifo.seen

/-- What holds of the host at its place in a call, with so many unread commands. -/
def PlaceInv (fifo : CmdFifo) (unread : Nat) : PushAt → Prop
  | .outside => fifo.host.fdh = Ring.slot fifo.host.fdn fifo.chip.fdt unread
  | .entry pdata =>
    fifo.host.fdh = Ring.slot fifo.host.fdn fifo.chip.fdt unread ∧
      unread + 1 < fifo.host.fdn ∧ pdata.length ≤ fifo.host.fdl
  | .head pdata =>
    fifo.host.fdh = Ring.slot fifo.host.fdn fifo.chip.fdt (unread + 1) ∧
      unread + 1 < fifo.host.fdn ∧ pdata.length ≤ fifo.host.fdl ∧ fifo.Holds unread pdata

/-- The invariant, with the commands that were read and those that were not. -/
structure Inv (fifo : CmdFifo) (taken unread : List (List UInt8)) : Prop where
  pushed : fifo.pushed = taken ++ unread
  read : List.Forall₂ Agrees taken fifo.seen
  inside : fifo.chip.fdt < fifo.host.fdn
  room : unread.length < fifo.host.fdn
  head : fifo.chip.fdh = Ring.slot fifo.host.fdn fifo.chip.fdt unread.length
  short : ∀ pdata ∈ unread, pdata.length ≤ fifo.host.fdl
  kept : ∀ offset pdata, unread[offset]? = some pdata → fifo.Holds offset pdata
  place : fifo.PlaceInv unread.length fifo.place

theorem Inv.right {fifo : CmdFifo} {taken unread : List (List UInt8)}
    (valid : fifo.Inv taken unread) : fifo.Right :=
  ⟨taken, unread, valid.pushed, valid.read, valid.room, valid.head, valid.kept⟩

variable {fifo : CmdFifo} {taken unread : List (List UInt8)} {pdata : List UInt8} {offset : Nat}

theorem Holds.agrees (holds : fifo.Holds offset pdata) (count : Nat) :
    Agrees pdata (Flat.load fifo.chip.sram (fifo.entryPos offset) count) := by
  rcases Nat.le_total pdata.length count with short | long
  · left
    obtain ⟨more, rfl⟩ := Nat.exists_eq_add_of_le short
    rw [Flat.load_add, holds]
    exact List.prefix_append _ _
  · right
    obtain ⟨more, whole⟩ := Nat.exists_eq_add_of_le long
    rw [Holds, whole, Flat.load_add] at holds
    exact ⟨_, holds⟩

section Push

theorem push_cases (fifo : CmdFifo) (pdata : List UInt8) :
    bFifoFull { fifo.host with fdt := fifo.chip.fdt } = true ∧
        fifo.push pdata =
          { fifo with
            host := { fifo.host with fdt := fifo.chip.fdt }
            returned := fifo.returned ++ [(pdata, false)] } ∨
      bFifoFull { fifo.host with fdt := fifo.chip.fdt } = false ∧
        fifo.push pdata =
          { fifo with
            host := { fifo.host with fdt := fifo.chip.fdt }
            place := .entry pdata } := by
  cases full : bFifoFull { fifo.host with fdt := fifo.chip.fdt } with
  | true => exact .inl ⟨rfl, if_pos full⟩
  | false => exact .inr ⟨rfl, if_neg (Bool.eq_false_iff.mp full)⟩

theorem push_refused
    (refused : (fifo.push pdata).returned = fifo.returned ++ [(pdata, false)]) :
    fifo.push pdata =
      { fifo with
        host := { fifo.host with fdt := fifo.chip.fdt }
        returned := fifo.returned ++ [(pdata, false)] } := by
  rcases push_cases fifo pdata with ⟨_, same⟩ | ⟨_, same⟩
  · exact same
  · rw [same] at refused
    simp at refused

private theorem full_iff (valid : fifo.Inv taken unread) (outside : fifo.place = .outside) :
    bFifoFull { fifo.host with fdt := fifo.chip.fdt } = true ↔
      unread.length + 1 = fifo.host.fdn := by
  have inside := valid.inside
  have host := valid.place
  rw [outside] at host
  simp only [bFifoFull, beq_iff_eq]
  rw [circleAddOne_eq_next _ (Nat.zero_lt_of_lt inside), host]
  rcases Nat.lt_or_ge (unread.length + 1) fifo.host.fdn with room | full
  · have distance := Ring.span_next_slot inside room
    constructor
    · intro same
      rw [same, Ring.span_self inside] at distance
      omega
    · omega
  · have last : unread.length + 1 = fifo.host.fdn := by
      have room := valid.room
      omega
    refine ⟨fun _ => last, fun _ => ?_⟩
    rw [Ring.slot_eq inside (by omega)]
    unfold Ring.next
    split <;> split <;> omega

theorem push_inv (valid : fifo.Inv taken unread) (outside : fifo.place = .outside)
    (short : pdata.length ≤ fifo.host.fdl) : (fifo.push pdata).Inv taken unread := by
  have host := valid.place
  rw [outside] at host
  rcases push_cases fifo pdata with ⟨_, same⟩ | ⟨free, same⟩
  · rw [same]
    refine ⟨?_, valid.read, valid.inside, valid.room, valid.head, valid.short, valid.kept, ?_⟩
    · simpa [CmdFifo.pushed] using valid.pushed
    · rw [outside]
      exact host
  · have room : unread.length + 1 < fifo.host.fdn := by
      have other : unread.length + 1 ≠ fifo.host.fdn := by
        simpa [free] using full_iff valid outside
      have room := valid.room
      omega
    rw [same]
    exact ⟨valid.pushed, valid.read, valid.inside, valid.room, valid.head, valid.short, valid.kept,
      host, room, short⟩

end Push

section Write

private theorem holds_writeEntry {other : List UInt8} :
    (fifo.writeEntry pdata).Holds offset other ↔
      Flat.load (Flat.fill fifo.chip.sram (hiGetNextDownFifo fifo.host) pdata.length
        fun index => pdata.getD index 0) (fifo.entryPos offset) other.length = other :=
  Iff.rfl

theorem writeEntry_inv (valid : fifo.Inv taken unread) (before : fifo.place = .entry pdata) :
    (fifo.writeEntry pdata).Inv taken unread := by
  have host := valid.place
  rw [before] at host
  obtain ⟨free, room, short⟩ := host
  have place : hiGetNextDownFifo fifo.host = fifo.entryPos unread.length := by
    rw [hiGetNextDownFifo, free, entryPos]
  have whole : (List.range pdata.length).map (fun index => pdata.getD index 0) = pdata := by
    apply List.ext_getElem
    · simp
    · intro index _ inside
      simp [inside]
  refine ⟨valid.pushed, valid.read, valid.inside, valid.room, valid.head, valid.short, ?_,
    ?_, room, short, ?_⟩
  · intro offset other listed
    have within : offset < unread.length := (List.getElem?_eq_some_iff.mp listed).1
    have apart : Ring.slot fifo.host.fdn fifo.chip.fdt offset ≠
        Ring.slot fifo.host.fdn fifo.chip.fdt unread.length := by
      intro same
      have same := Ring.slot_inj valid.inside (by omega) (by omega) same
      omega
    have otherShort := valid.short other (List.mem_of_getElem? listed)
    have kept := valid.kept offset other listed
    rw [holds_writeEntry, place]
    exact (Flat.load_fill_slot apart otherShort short).trans kept
  · show circleAddOne fifo.host.fdh fifo.host.fdn = _
    rw [circleAddOne_eq_next _ (Nat.zero_lt_of_lt valid.inside), free]
    exact Ring.next_slot valid.inside room
  · rw [holds_writeEntry, place, Flat.load_fill, whole]

theorem writeHead_inv (valid : fifo.Inv taken unread) (before : fifo.place = .head pdata) :
    (fifo.writeHead pdata).Inv taken (unread ++ [pdata]) := by
  have host := valid.place
  rw [before] at host
  obtain ⟨head, room, short, holds⟩ := host
  have longer : (unread ++ [pdata]).length = unread.length + 1 := List.length_append
  refine ⟨?_, valid.read, valid.inside, ?_, ?_, ?_, ?_, ?_⟩
  · have same := valid.pushed
    simp only [CmdFifo.pushed] at same
    simp [CmdFifo.pushed, writeHead, same]
  · rw [longer]
    exact room
  · rw [longer]
    exact head
  · intro other listed
    rcases List.mem_append.mp listed with old | new
    · exact valid.short other old
    · rw [List.mem_singleton.mp new]
      exact short
  · intro offset other listed
    rcases Nat.lt_or_ge offset unread.length with old | new
    · rw [List.getElem?_append_left old] at listed
      exact valid.kept offset other listed
    · have within := (List.getElem?_eq_some_iff.mp listed).1
      have last : offset = unread.length := by omega
      rw [last, List.getElem?_concat_length] at listed
      rw [last, ← Option.some.inj listed]
      exact holds
  · show fifo.host.fdh = _
    rw [longer]
    exact head

end Write

section Consume

/-- The commands behind the first move one entry towards the tail. -/
theorem holds_consume {count : Nat} (inside : fifo.chip.fdt < fifo.host.fdn)
    (waiting : fifo.chip.fdt ≠ fifo.chip.fdh) (bound : offset + 1 < fifo.host.fdn) :
    (fifo.consume count).Holds offset pdata ↔ fifo.Holds (offset + 1) pdata := by
  have next := circleAddOne_eq_next fifo.chip.fdt (Nat.zero_lt_of_lt inside)
  have shifted := Ring.slot_next inside bound
  rw [← next] at shifted
  rw [Holds, Holds, entryPos, entryPos, ← shifted, consume, if_neg waiting]

private theorem placeInv_consume {count rest : Nat} (inside : fifo.chip.fdt < fifo.host.fdn)
    (waiting : fifo.chip.fdt ≠ fifo.chip.fdh) (room : rest + 1 < fifo.host.fdn) {place : PushAt}
    (host : fifo.PlaceInv (rest + 1) place) : (fifo.consume count).PlaceInv rest place := by
  have next := circleAddOne_eq_next fifo.chip.fdt (Nat.zero_lt_of_lt inside)
  cases place with
  | outside =>
    have shifted := Ring.slot_next inside room
    rw [← next] at shifted
    simp only [PlaceInv, consume, if_neg waiting]
    exact host.trans shifted.symm
  | entry pdata =>
    have shifted := Ring.slot_next inside room
    rw [← next] at shifted
    obtain ⟨head, _, short⟩ := host
    simp only [PlaceInv, consume, if_neg waiting]
    exact ⟨head.trans shifted.symm, room, short⟩
  | head pdata =>
    obtain ⟨head, more, short, holds⟩ := host
    have shifted := Ring.slot_next inside more
    rw [← next] at shifted
    refine ⟨?_, ?_, ?_, (holds_consume inside waiting room).mpr holds⟩ <;>
      simp only [consume, if_neg waiting]
    · exact head.trans shifted.symm
    · exact room
    · exact short

private theorem consume_inv (valid : fifo.Inv taken unread) (count : Nat) :
    ∃ taken unread, (fifo.consume count).Inv taken unread := by
  have inside := valid.inside
  by_cases waiting : fifo.chip.fdt = fifo.chip.fdh
  · exact ⟨taken, unread, by rwa [consume, if_pos waiting]⟩
  · cases unread with
    | nil =>
      have head := valid.head
      rw [List.length_nil, Ring.slot_zero inside] at head
      exact absurd head.symm waiting
    | cons first rest =>
      have room : rest.length + 1 < fifo.host.fdn := valid.room
      have next := circleAddOne_eq_next fifo.chip.fdt (Nat.zero_lt_of_lt inside)
      have shifted := Ring.slot_next inside room
      rw [← next] at shifted
      have seen := Holds.agrees (valid.kept 0 first rfl) count
      rw [entryPos, Ring.slot_zero inside] at seen
      have host : (fifo.consume count).PlaceInv rest.length fifo.place :=
        placeInv_consume inside waiting room valid.place
      have kept : ∀ offset other, rest[offset]? = some other →
          (fifo.consume count).Holds offset other := by
        intro offset other listed
        have within : offset < rest.length := (List.getElem?_eq_some_iff.mp listed).1
        exact (holds_consume inside waiting (by omega)).mpr (valid.kept (offset + 1) other listed)
      rw [consume, if_neg waiting] at host kept ⊢
      refine ⟨taken ++ [first], rest, ?_, List.rel_append valid.read (.cons seen .nil), ?_,
        Nat.lt_of_succ_lt room, valid.head.trans shifted.symm,
        fun other listed => valid.short other (.tail _ listed), kept, host⟩
      · rw [List.append_assoc]
        exact valid.pushed
      · show circleAddOne fifo.chip.fdt fifo.host.fdn < fifo.host.fdn
        rw [next]
        exact Ring.next_lt inside

end Consume

section Run

private theorem refusalKeeps (fifo : CmdFifo) : fifo.RefusalKeeps := by
  intro pdata refused
  simp only [step] at refused ⊢
  split at refused
  · rw [push_refused refused]
    exact ⟨rfl, rfl, rfl, rfl⟩
  · exact ⟨rfl, rfl, rfl, rfl⟩

private theorem step_fdl (fifo : CmdFifo) (event : CmdStep) :
    (fifo.step event).host.fdl = fifo.host.fdl := by
  cases event with
  | push pdata =>
    simp only [step]
    split
    · rcases push_cases fifo pdata with ⟨_, same⟩ | ⟨_, same⟩ <;> rw [same]
    · rfl
  | write =>
    simp only [step]
    split <;> rfl
  | consume count =>
    simp only [step, consume]
    split <;> rfl

private theorem step_inv (event : CmdStep) (valid : ∃ taken unread, fifo.Inv taken unread)
    (short : ∀ pdata, event = .push pdata → pdata.length ≤ fifo.host.fdl) :
    ∃ taken unread, (fifo.step event).Inv taken unread := by
  obtain ⟨taken, unread, valid⟩ := valid
  cases event with
  | push pdata =>
    simp only [step]
    split
    · rename_i outside
      exact ⟨taken, unread, push_inv valid outside (short pdata rfl)⟩
    · exact ⟨taken, unread, valid⟩
  | write =>
    simp only [step]
    split
    · exact ⟨taken, unread, valid⟩
    · rename_i before
      exact ⟨taken, unread, writeEntry_inv valid before⟩
    · rename_i before
      exact ⟨taken, _, writeHead_inv valid before⟩
  | consume count => exact consume_inv valid count

private theorem init_inv {fdb fdn : Nat} (sram : Int → UInt8) (entries : 0 < fdn) :
    (cmdFifoInit fdb fdn sram).Inv [] [] where
  pushed := rfl
  read := .nil
  inside := entries
  room := entries
  head := (Ring.slot_zero entries).symm
  short := nofun
  kept := nofun
  place := (Ring.slot_zero entries).symm

end Run

end CmdFifo

open CmdFifo in
theorem commands_once {fdb fdn : Nat} {sram : Int → UInt8} {events : List CmdStep}
    (entries : 0 < fdn)
    (short : ∀ pdata, CmdStep.push pdata ∈ events → pdata.length ≤ appCmdPerfifoLen) :
    (Machine.run CmdFifo.step (cmdFifoInit fdb fdn sram) events).Right ∧
      (Machine.run CmdFifo.step (cmdFifoInit fdb fdn sram) events).RefusalKeeps := by
  refine ⟨?_, refusalKeeps _⟩
  have each : Machine.Along CmdFifo.step
      (fun _ event => ∀ pdata, event = CmdStep.push pdata → pdata.length ≤ appCmdPerfifoLen)
      (cmdFifoInit fdb fdn sram) events := by
    apply Machine.along_of_forall
    rintro _ listed pdata rfl
    exact short pdata listed
  have preserved : ∀ (fifo : CmdFifo) (event : CmdStep),
      (fifo.host.fdl = appCmdPerfifoLen ∧ ∃ taken unread, fifo.Inv taken unread) →
      (∀ pdata, event = CmdStep.push pdata → pdata.length ≤ appCmdPerfifoLen) →
      (fifo.step event).host.fdl = appCmdPerfifoLen ∧
        ∃ taken unread, (fifo.step event).Inv taken unread := by
    rintro fifo event ⟨width, valid⟩ fits
    refine ⟨(step_fdl fifo event).trans width, step_inv event valid ?_⟩
    rw [width]
    exact fits
  obtain ⟨_, taken, unread, valid⟩ :=
    each.invariant preserved ⟨rfl, [], [], init_inv sram entries⟩
  exact valid.right

/-- A fifo of four entries takes three commands and refuses a fourth; when the firmware has read two
of them, two more go round the end. -/
def commandsRound : List CmdStep :=
  [.push [7, 1, 2], .write, .write, .push [8], .write, .write, .push [9, 5], .write, .write,
    .push [4, 4], .consume 3, .consume 1, .push [6, 6, 6, 6], .write, .write, .push [3, 1], .write,
    .write, .consume 2, .consume 4]

theorem commands_once_round :
    ((Machine.run CmdFifo.step (cmdFifoInit 0 4 fun _ => 0) commandsRound).Right ∧
      (Machine.run CmdFifo.step (cmdFifoInit 0 4 fun _ => 0) commandsRound).RefusalKeeps) ∧
      (Machine.run CmdFifo.step (cmdFifoInit 0 4 fun _ => 0) commandsRound).returned =
        [([7, 1, 2], true), ([8], true), ([9, 5], true), ([4, 4], false), ([6, 6, 6, 6], true),
          ([3, 1], true)] ∧
      (Machine.run CmdFifo.step (cmdFifoInit 0 4 fun _ => 0) commandsRound).chip.fdh = 1 :=
  ⟨commands_once (by decide) (by simp [commandsRound]), by decide +kernel, by decide +kernel⟩

/-- The last byte of a pattern command lies in the entry of the next one, which overwrites it. -/
theorem long_command_overwritten :
    ¬ (Machine.run CmdFifo.step (cmdFifoInit 0 4 fun _ => 0)
        [.push (List.replicate 65 1), .write, .write, .push [7], .write, .write,
          .consume 65]).Right := by
  rintro ⟨taken, unread, pushed, read, _⟩
  rw [show CmdFifo.pushed _ = [List.replicate 65 1, [7]] by decide +kernel] at pushed
  rw [show CmdFifo.seen _ = [List.replicate 64 1 ++ [7]] by decide +kernel] at read
  cases read with
  | cons same none =>
    cases none
    obtain ⟨rfl, _⟩ := List.cons.inj pushed
    rcases same with longer | shorter
    · exact absurd longer (by decide)
    · exact absurd shorter (by decide)

end W522a.Hal
