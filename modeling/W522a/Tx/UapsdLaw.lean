import W522a.Tx.BufferedLaw
import W522a.Tx.Uapsd

/-!
A service period ends with EOSP on its last frame, and its flag with the completion of that frame,
when the HAL takes every unit up to the last one of the period.
-/

namespace W522a.Tx.Uapsd

open Buffered

variable {Sta : Type} {unit : List (BufDesc Sta)} {rest units : List (List (BufDesc Sta))}
  {queue : BufferQueue Sta} {answers : Nat → TurnAnswer} {flush : Bool} {count turn : Nat}
  {qcnt : Int}

section Content

def lastAddress (unit : List (BufDesc Sta)) : Nat := (unit.getLast?.map (·.address)).getD 0

/-- A unit that waits: its first descriptor points to the last one, or nowhere. -/
structure Formed (unit : List (BufDesc Sta)) : Prop where
  full : unit ≠ []
  last : ∀ first ∈ unit.head?,
    first.txdescQueueLast = none ∨ first.txdescQueueLast = some (lastAddress unit)

structure Content (units : List (List (BufDesc Sta))) (list : List (BufDesc Sta)) : Prop where
  made : list = units.flatten
  distinct : (addresses list).Nodup
  formed : ∀ unit ∈ units, Formed unit

/-- Whether the pointers of a unit are set that a service period needs. -/
def sendable (unit : List (BufDesc Sta)) : Bool :=
  (unit.head?.bind (·.txdescQueueLast)).isSome && (unit.getLast?.bind (·.txdescMpdu)).isSome

theorem Content.tail (content : Content (unit :: rest) queue.txdescList) :
    Content rest rest.flatten where
  made := rfl
  distinct := by
    have distinct := content.distinct
    rw [content.made, List.flatten_cons, addresses_append] at distinct
    exact (List.nodup_append.mp distinct).2.1
  formed other listed := content.formed other (.tail _ listed)

theorem Formed.split (formed : Formed unit) : ∃ init last, unit = init ++ [last] :=
  (List.eq_nil_or_concat' unit).resolve_left formed.full

theorem lastAddress_concat (init : List (BufDesc Sta)) (last : BufDesc Sta) :
    lastAddress (init ++ [last]) = last.address := by
  rw [lastAddress, List.getLast?_concat]
  rfl

private theorem Content.takeUnit (content : Content (unit :: rest) queue.txdescList) :
    Buffered.takeUnit (lastAddress unit) queue =
      some (unit, { queue with txdescList := rest.flatten, qcnt := queue.qcnt - 1 }) := by
  obtain ⟨init, last, rfl⟩ := (content.formed unit (.head _)).split
  have made : queue.txdescList = init ++ last :: rest.flatten := by
    rw [content.made, List.flatten_cons, List.append_assoc, List.singleton_append]
  have places : addresses queue.txdescList =
      addresses init ++ last.address :: addresses rest.flatten := by
    rw [made, addresses_append, addresses_cons]
  have fresh : last.address ∉ addresses init := by
    have distinct := content.distinct
    rw [places] at distinct
    intro inside
    exact (List.nodup_append.mp distinct).2.2 _ inside _ List.mem_cons_self rfl
  obtain ⟨cut, left, found, split, names⟩ := listCutPosition_eq places fresh
  have lengths : cut.length = (init ++ [last]).length := by
    have same := congrArg List.length names
    simpa [addresses] using same
  have whole : cut ++ left = init ++ [last] ++ rest.flatten := by
    rw [← split, made, List.append_assoc, List.singleton_append]
  obtain ⟨rfl, rfl⟩ := List.append_inj whole lengths
  rw [lastAddress_concat, Buffered.takeUnit, found]

end Content

section Turns

/-- A turn at an empty queue is the last one. -/
theorem triggerTurn_empty (answer : TurnAnswer) (eospFlag : Bool) (txQueue : List (BufDesc Sta))
    (empty : queue.txdescList = []) :
    triggerTurn answer flush count eospFlag txQueue queue = some (none, queue) := by
  rw [triggerTurn, empty]
  split
  · rfl
  · rfl

/-- What is asked of the buffer of `lastbf` is asked of the last descriptor. -/
theorem any_isNone (formed : Formed unit) (distinct : (addresses unit).Nodup) :
    (unit.any fun member => member.address == lastAddress unit && member.txdescMpdu.isNone) =
      !(unit.getLast?.bind (·.txdescMpdu)).isSome := by
  obtain ⟨init, last, rfl⟩ := formed.split
  have others : init.any (fun member => member.address == lastAddress (init ++ [last]) &&
      member.txdescMpdu.isNone) = false := by
    rw [List.any_eq_false]
    intro member listed
    rw [lastAddress_concat, Bool.and_eq_true, beq_iff_eq]
    intro same
    rw [addresses_append] at distinct
    exact (List.nodup_append.mp distinct).2.2 _ (List.mem_map_of_mem listed) _ List.mem_cons_self
      same.1
  rw [List.any_append, others, lastAddress_concat, List.getLast?_concat]
  cases found : last.txdescMpdu with
  | none => simp [found]
  | some skbbuf => simp [found]

private theorem triggerTurn_front (content : Content (unit :: rest) queue.txdescList)
    (answer : TurnAnswer)
    (txQueue : List (BufDesc Sta)) :
    triggerTurn answer flush (count + 1) false txQueue queue =
      if answer.bufferFull || !sendable unit then some (none, queue)
      else
        let eosp := !flush && (count == 0 || answer.nearlyFull)
        let mark : Mark := ⟨lastAddress unit, eosp, queue.qcnt - 1 == 0⟩
        let handed := drvToHal answer.accepts txQueue (markLast mark unit)
          { queue with
            txdescList := rest.flatten
            qcnt := queue.qcnt - 1
            marks := queue.marks ++ [mark] }
        some (some (.trigger flush count eosp handed.1), handed.2) := by
  have formed := content.formed unit (.head _)
  have distinct : (addresses unit).Nodup := by
    have all := content.distinct
    rw [content.made, List.flatten_cons, addresses_append] at all
    exact (List.nodup_append.mp all).1
  obtain ⟨first, more, shape⟩ := List.exists_cons_of_ne_nil formed.full
  have place : queue.txdescList = first :: (more ++ rest.flatten) := by
    rw [content.made, List.flatten_cons, shape, List.cons_append]
  have ahead : unit.head? = some first := by rw [shape]; rfl
  rw [triggerTurn, if_neg (by simp), place]
  cases room : answer.bufferFull with
  | true => simp
  | false =>
    cases formed.last first ahead with
    | inl nowhere => simp [sendable, ahead, nowhere]
    | inr pointed =>
      simp only [pointed, content.takeUnit, any_isNone formed distinct, sendable, ahead,
        Option.bind_some, Option.isSome_some, Bool.true_and, Bool.false_or, Bool.false_eq_true,
        if_false]
      split
      · rfl
      · simp

end Turns

section Serve

/-- The units that a loop hands over, marked, and all marks that it writes. Nothing is handed over
behind a unit that was refused. -/
def serve (answers : Nat → TurnAnswer) (flush : Bool) :
    Nat → Nat → Bool → Int → List (List (BufDesc Sta)) → List (List (BufDesc Sta)) × List Mark
  | 0, _, _, _, _ => ([], [])
  | _, _, _, _, [] => ([], [])
  | count + 1, turn, refused, qcnt, unit :: rest =>
    if (answers turn).bufferFull || !sendable unit then ([], [])
    else
      let eosp := !flush && (count == 0 || (answers turn).nearlyFull)
      let mark : Mark := ⟨lastAddress unit, eosp, qcnt - 1 == 0⟩
      let refused := refused || !(answers turn).accepts
      let later :=
        if eosp then ([], []) else serve answers flush count (turn + 1) refused (qcnt - 1) rest
      (if refused then later.1 else markLast mark unit :: later.1, mark :: later.2)

/-- What a loop leaves of a queue. -/
structure Served (queue later : BufferQueue Sta) (units : List (List (BufDesc Sta)))
    (out : List (List (BufDesc Sta)) × List Mark) : Prop where
  sent : later.toHal = queue.toHal ++ out.1
  marks : later.marks = queue.marks ++ out.2
  rest : ∃ taken, Content (units.drop taken) later.txdescList

private theorem served_stay (content : Content units queue.txdescList) :
    Served queue queue units ([], []) where
  sent := (List.append_nil _).symm
  marks := (List.append_nil _).symm
  rest := ⟨0, content⟩

structure Submitted (base later : BufferQueue Sta) (refused : Bool)
    (marked : List (BufDesc Sta)) : Prop where
  sent : later.toHal = base.toHal ++ if refused then [] else [marked]
  marks : later.marks = base.marks
  list : later.txdescList = base.txdescList
  qcnt : later.qcnt = base.qcnt

private theorem drvToHal_submitted (accepts : Bool) (txQueue : List (BufDesc Sta))
    {marked : List (BufDesc Sta)} (full : marked ≠ []) (base : BufferQueue Sta) :
    (drvToHal accepts txQueue marked base).1.isEmpty = !(!txQueue.isEmpty || !accepts) ∧
      Submitted base (drvToHal accepts txQueue marked base).2 (!txQueue.isEmpty || !accepts)
        marked := by
  have behind : (txQueue ++ marked).isEmpty = false := by
    rw [List.isEmpty_eq_false_iff]
    exact List.append_ne_nil_of_right_ne_nil txQueue full
  cases accepts with
  | false =>
    simp only [drvToHal, Bool.false_and, Bool.false_eq_true, if_false, Bool.not_false, Bool.or_true,
      behind, Bool.not_true]
    exact ⟨trivial, (List.append_nil _).symm, rfl, rfl, rfl⟩
  | true =>
    cases waiting : txQueue.isEmpty with
    | true =>
      simp only [drvToHal, waiting, Bool.and_true, if_true]
      exact ⟨rfl, rfl, rfl, rfl, rfl⟩
    | false =>
      simp only [drvToHal, waiting, Bool.true_and, Bool.false_eq_true, if_false, behind,
        Bool.not_false, Bool.true_or, Bool.not_true]
      exact ⟨trivial, (List.append_nil _).symm, rfl, rfl, rfl⟩

/-- Without room for another frame, or behind EOSP, the loop is at its end. -/
theorem runWalk_done (fuel : Nat) (eospFlag : Bool) (txQueue : List (BufDesc Sta))
    (done : count = 0 ∨ eospFlag = true) :
    runWalk answers (fuel + 1) turn (.trigger flush count eospFlag txQueue) queue = some queue := by
  have ended : (decide (count = 0) || eospFlag) = true := by
    cases done with
    | inl none => rw [none]; rfl
    | inr set => rw [set, Bool.or_true]
  rw [runWalk, walkTurn, triggerTurn, if_pos ended]

/-- The loop of a service period serves the units that wait. -/
theorem runWalk_serve (units : List (List (BufDesc Sta))) (txQueue : List (BufDesc Sta))
    (content : Content units queue.txdescList) :
    ∃ later, runWalk answers (count + 1) turn (.trigger flush count false txQueue) queue =
        some later ∧
      Served queue later units (serve answers flush count turn (!txQueue.isEmpty) queue.qcnt units)
        := by
  induction units generalizing count turn queue txQueue with
  | nil =>
    have empty : queue.txdescList = [] := content.made
    refine ⟨queue, ?_, ?_⟩
    · rw [runWalk, walkTurn, triggerTurn_empty _ _ _ empty]
    · cases count with
      | zero => exact served_stay content
      | succ count => exact served_stay content
  | cons unit rest induction =>
    cases count with
    | zero =>
      refine ⟨queue, runWalk_done 0 false txQueue (Or.inl rfl), ?_⟩
      exact served_stay content
    | succ count =>
      rw [runWalk, walkTurn, triggerTurn_front content, serve]
      by_cases stop : ((answers turn).bufferFull || !sendable unit) = true
      · rw [if_pos stop, if_pos stop]
        exact ⟨queue, rfl, served_stay content⟩
      · rw [if_neg stop, if_neg stop]
        have full : unit ≠ [] := (content.formed unit (.head _)).full
        simp only
        generalize (!flush && (count == 0 || (answers turn).nearlyFull)) = eosp
        generalize named : (⟨lastAddress unit, eosp, queue.qcnt - 1 == 0⟩ : Mark) = mark
        have marked : markLast mark unit ≠ [] := fun none => full (List.map_eq_nil_iff.mp none)
        obtain ⟨own, submitted⟩ := drvToHal_submitted (answers turn).accepts txQueue marked
          { queue with
            txdescList := rest.flatten
            qcnt := queue.qcnt - 1
            marks := queue.marks ++ [mark] }
        generalize drvToHal (answers turn).accepts txQueue (markLast mark unit) _ = handed at *
        obtain ⟨kept, base⟩ := handed
        have behind : Content rest base.txdescList := by
          rw [submitted.list]
          exact content.tail
        cases eosp with
        | true =>
          refine ⟨base, runWalk_done count true kept (Or.inr rfl), ?_, ?_, 1, behind⟩
          · rw [submitted.sent]
            split
            · rfl
            · rfl
          · exact submitted.marks
        | false =>
          obtain ⟨later, ends, served⟩ := induction kept behind
          rw [own, submitted.qcnt, Bool.not_not] at served
          refine ⟨later, ends, ?_, ?_, ?_⟩
          · rw [served.sent, submitted.sent]
            split
            · rw [List.append_nil]
              rfl
            · rw [List.append_assoc]
              rfl
          · rw [served.marks, submitted.marks, List.append_assoc]
            rfl
          · obtain ⟨taken, remains⟩ := served.rest
            exact ⟨taken + 1, remains⟩

end Serve

section Period

/-- The marks of a period of `n` units: EOSP on the last of them, and no more data on the last unit
of the queue. -/
def expected (n : Nat) (units : List (List (BufDesc Sta))) : List Mark :=
  (units.take n).mapIdx fun index unit =>
    ⟨lastAddress unit, index + 1 == n, index + 1 == units.length⟩

/-- The units of a period with their marks. -/
def marked (n : Nat) (units : List (List (BufDesc Sta))) : List (List (BufDesc Sta)) :=
  List.zipWith markLast (expected n units) units

theorem expected_cons (n : Nat) (unit : List (BufDesc Sta)) (rest : List (List (BufDesc Sta))) :
    expected (n + 1) (unit :: rest) =
      ⟨lastAddress unit, n == 0, rest.length == 0⟩ :: expected n rest := by
  rw [expected, List.take_succ_cons, List.mapIdx_cons, expected]
  simp

theorem marked_cons (n : Nat) (unit : List (BufDesc Sta)) (rest : List (List (BufDesc Sta))) :
    marked (n + 1) (unit :: rest) =
      markLast ⟨lastAddress unit, n == 0, rest.length == 0⟩ unit :: marked n rest := by
  rw [marked, expected_cons, List.zipWith_cons_cons, marked]

@[simp] theorem expected_zero (units : List (List (BufDesc Sta))) : expected 0 units = [] := rfl

@[simp] theorem marked_zero (units : List (List (BufDesc Sta))) : marked 0 units = [] := rfl

/-- A period of at most `count` units that begins at a turn ends at a unit: the HAL has room for
every unit up to that one and takes it, only there is no room for more behind it unless `count` is
reached, and the counter is at its end when the queue is. -/
structure EndsAt (answers : Nat → TurnAnswer) (turn count : Nat) (qcnt : Int)
    (units : List (List (BufDesc Sta))) (last : Nat) : Prop where
  waits : last < units.length
  within : last < count
  room : ∀ index ≤ last, (answers (turn + index)).bufferFull = false
  accepts : ∀ index ≤ last, (answers (turn + index)).accepts = true
  sendable : ∀ unit ∈ units.take (last + 1), sendable unit = true
  closes : last + 1 = count ∨ (answers (turn + last)).nearlyFull = true
  early : ∀ index < last, (answers (turn + index)).nearlyFull = false
  counted : ∀ index ≤ last, qcnt = (index : Int) + 1 ↔ units.length = index + 1

/-- The first unit of a period. -/
structure First (answers : Nat → TurnAnswer) (turn : Nat) (qcnt : Int)
    (unit : List (BufDesc Sta)) (rest : List (List (BufDesc Sta))) : Prop where
  room : (answers turn).bufferFull = false
  accepts : (answers turn).accepts = true
  sendable : Uapsd.sendable unit = true
  counted : qcnt = 1 ↔ rest = []

theorem endsAt_zero : EndsAt answers turn (count + 1) qcnt (unit :: rest) 0 ↔
    First answers turn qcnt unit rest ∧ (count = 0 ∨ (answers turn).nearlyFull = true) := by
  constructor
  · intro ends
    refine ⟨⟨ends.room 0 (le_refl 0), ends.accepts 0 (le_refl 0), ends.sendable unit (.head _), ?_⟩,
      ?_⟩
    · have counted := ends.counted 0 (le_refl 0)
      simpa using counted
    · cases ends.closes with
      | inl same => exact Or.inl (Nat.succ.inj same).symm
      | inr full => exact Or.inr full
  · rintro ⟨first, closes⟩
    refine ⟨Nat.succ_pos _, Nat.succ_pos _, ?_, ?_, ?_, ?_, ?_, ?_⟩
    · intro index least
      rw [Nat.le_zero.mp least]
      exact first.room
    · intro index least
      rw [Nat.le_zero.mp least]
      exact first.accepts
    · intro other listed
      rw [List.take_succ_cons, List.take_zero, List.mem_singleton] at listed
      rw [listed]
      exact first.sendable
    · cases closes with
      | inl none => exact Or.inl (congrArg Nat.succ none).symm
      | inr full => exact Or.inr full
    · intro index none
      exact absurd none (Nat.not_lt_zero index)
    · intro index least
      rw [Nat.le_zero.mp least]
      simpa using first.counted

private theorem endsAt_succ {last : Nat} :
    EndsAt answers turn (count + 1) qcnt (unit :: rest) (last + 1) ↔
    First answers turn qcnt unit rest ∧ (answers turn).nearlyFull = false ∧
      EndsAt answers (turn + 1) count (qcnt - 1) rest last := by
  have shift : ∀ index, turn + 1 + index = turn + (index + 1) := fun index => by omega
  constructor
  · intro ends
    refine ⟨⟨ends.room 0 (Nat.zero_le _), ends.accepts 0 (Nat.zero_le _),
      ends.sendable unit (.head _), ?_⟩, ends.early 0 (Nat.succ_pos _), ?_⟩
    · have counted := ends.counted 0 (Nat.zero_le _)
      simpa using counted
    · constructor
      case waits => exact Nat.lt_of_succ_lt_succ ends.waits
      case within => exact Nat.lt_of_succ_lt_succ ends.within
      case room =>
        intro index least
        rw [shift]
        exact ends.room _ (Nat.succ_le_succ least)
      case accepts =>
        intro index least
        rw [shift]
        exact ends.accepts _ (Nat.succ_le_succ least)
      case sendable => exact fun other listed => ends.sendable other (.tail _ listed)
      case closes =>
        rw [shift]
        exact ends.closes.imp_left Nat.succ.inj
      case early =>
        intro index least
        rw [shift]
        exact ends.early _ (Nat.succ_lt_succ least)
      case counted =>
        intro index least
        have counted := ends.counted (index + 1) (Nat.succ_le_succ least)
        rw [List.length_cons] at counted
        omega
  · rintro ⟨first, roomy, ends⟩
    constructor
    case waits => exact Nat.succ_lt_succ ends.waits
    case within => exact Nat.succ_lt_succ ends.within
    case room =>
      intro index least
      cases index with
      | zero => exact first.room
      | succ index =>
        rw [← shift]
        exact ends.room _ (Nat.le_of_succ_le_succ least)
    case accepts =>
      intro index least
      cases index with
      | zero => exact first.accepts
      | succ index =>
        rw [← shift]
        exact ends.accepts _ (Nat.le_of_succ_le_succ least)
    case sendable =>
      intro other listed
      cases listed with
      | head => exact first.sendable
      | tail _ later => exact ends.sendable other later
    case closes =>
      rw [← shift]
      exact ends.closes.imp_left (congrArg Nat.succ)
    case early =>
      intro index least
      cases index with
      | zero => exact roomy
      | succ index =>
        rw [← shift]
        exact ends.early _ (Nat.lt_of_succ_lt_succ least)
    case counted =>
      intro index least
      cases index with
      | zero => simpa using first.counted
      | succ index =>
        have counted := ends.counted index (Nat.le_of_succ_le_succ least)
        rw [List.length_cons]
        omega

private theorem serve_refused (units : List (List (BufDesc Sta))) :
    (serve answers flush count turn true qcnt units).1 = [] := by
  induction units generalizing count turn qcnt with
  | nil =>
    cases count with
    | zero => rfl
    | succ count => rfl
  | cons unit rest induction =>
    cases count with
    | zero => rfl
    | succ count =>
      rw [serve]
      split
      · rfl
      · simp only [Bool.true_or, if_true]
        split
        · rfl
        · exact induction

/-- A loop serves a period exactly when the period ends. -/
theorem serve_eq_iff (units : List (List (BufDesc Sta))) (last : Nat) :
    serve answers false count turn false qcnt units =
        (marked (last + 1) units, expected (last + 1) units) ∧ last < units.length ↔
      EndsAt answers turn count qcnt units last := by
  induction units generalizing count turn qcnt last with
  | nil =>
    constructor
    · exact fun both => absurd both.2 (Nat.not_lt_zero last)
    · exact fun ends => absurd ends.waits (Nat.not_lt_zero last)
  | cons unit rest induction =>
    cases count with
    | zero =>
      constructor
      · intro both
        have none := congrArg Prod.snd both.1
        rw [expected_cons] at none
        cases none
      · intro ends
        exact absurd ends.within (Nat.not_lt_zero last)
    | succ count =>
      rw [serve, marked_cons, expected_cons]
      by_cases stop : ((answers turn).bufferFull || !sendable unit) = true
      · rw [if_pos stop]
        constructor
        · intro both
          cases both.1
        · intro ends
          have room := ends.room 0 (Nat.zero_le _)
          have sent := ends.sendable unit (.head _)
          rw [Nat.add_zero] at room
          rw [room, sent] at stop
          cases stop
      · rw [if_neg stop]
        rw [Bool.or_eq_true, not_or, Bool.not_eq_true, Bool.not_eq_true, Bool.not_eq_false'] at stop
        have counts : ((qcnt - 1 == 0) = (rest.length == 0)) ↔ (qcnt = 1 ↔ rest = []) := by
          rw [Bool.eq_iff_iff, beq_iff_eq, beq_iff_eq, List.length_eq_zero_iff, Int.sub_eq_zero]
        cases last with
        | zero =>
          rw [endsAt_zero]
          constructor
          · intro both
            simp only [Prod.mk.injEq, List.cons.injEq, Mark.mk.injEq] at both
            obtain ⟨⟨sent, ⟨_, closes, counted⟩, _⟩, _⟩ := both
            have eosp : (count == 0 || (answers turn).nearlyFull) = true := by simpa using closes
            refine ⟨⟨stop.1, ?_, stop.2, counts.mp counted⟩, by simpa using eosp⟩
            by_contra refuses
            rw [Bool.not_eq_true] at refuses
            simp [eosp, refuses] at sent
          · rintro ⟨first, closes⟩
            have eosp : (count == 0 || (answers turn).nearlyFull) = true := by simpa using closes
            simp [eosp, first.accepts, counts.mpr first.counted]
        | succ last =>
          rw [endsAt_succ, ← induction]
          constructor
          · intro both
            simp only [Prod.mk.injEq, List.cons.injEq, Mark.mk.injEq] at both
            obtain ⟨⟨sent, ⟨_, closes, counted⟩, later⟩, waits⟩ := both
            have goes : (count == 0 || (answers turn).nearlyFull) = false := by simpa using closes
            have accepts : (answers turn).accepts = true := by
              by_contra refuses
              rw [Bool.not_eq_true] at refuses
              simp [goes, refuses, serve_refused] at sent
            simp only [goes, accepts, Bool.not_false, Bool.true_and, Bool.not_true, Bool.or_false,
              Bool.false_eq_true, if_false, List.cons.injEq] at sent later
            exact ⟨⟨stop.1, accepts, stop.2, counts.mp counted⟩, (Bool.or_eq_false_iff.mp goes).2,
              Prod.ext sent.2 later, Nat.lt_of_succ_lt_succ waits⟩
          · rintro ⟨first, roomy, served, waits⟩
            have more : (count == 0) = false := by
              cases count with
              | zero =>
                have none := congrArg Prod.snd served
                cases rest with
                | nil => cases waits
                | cons other rest => rw [expected_cons] at none; cases none
              | succ count => rfl
            simp only [more, roomy, first.accepts, counts.mpr first.counted, served, Bool.not_false,
              Bool.true_and, Bool.not_true, Bool.or_false, Bool.false_eq_true, if_false]
            exact ⟨rfl, Nat.succ_lt_succ waits⟩

end Period

section Trigger

variable {env : RxEnv} {maxsp : UInt8} {ac : Nat} {sta later : UapsdSta Sta}

/-- What a trigger has to do: send at most `maxsp` units with EOSP on the last one and no more data
on the last of the queue, or a QoS null with EOSP. -/
def PeriodKept (maxsp : UInt8) (units : List (List (BufDesc Sta))) (sta later : UapsdSta Sta) :
    Prop :=
  ∃ n ≤ maxsp.toNat, n ≤ units.length ∧
    later.queue.toHal = sta.queue.toHal ++ marked n units ∧
    later.queue.marks = sta.queue.marks ++ expected n units ∧
    ∃ tid, later.nulls = sta.nulls ++ if n = 0 then [⟨tid, true⟩] else []

def TriggerOk (env : RxEnv) (maxsp : UInt8) (ac : Nat) (units : List (List (BufDesc Sta)))
    (sta : UapsdSta Sta) : Prop :=
  sta.staIsuapsd = true ∧
    ((sta.queue.qcnt = 0 ∨ env.bufferFull = true) ∧ acCanTrigger sta ac = true ∨
      ¬(sta.queue.qcnt = 0 ∨ env.bufferFull = true) ∧
        ∃ last < maxsp.toNat, EndsAt env.answers 0 (txnReal maxsp sta.queue.qcnt)
          sta.queue.qcnt units last)

/-- Nothing is sent from the queue: a period needs a null frame. -/
theorem periodKept_none (list : later.queue.toHal = sta.queue.toHal)
    (marks : later.queue.marks = sta.queue.marks) :
    PeriodKept maxsp units sta later ↔ ∃ tid, later.nulls = sta.nulls ++ [⟨tid, true⟩] := by
  constructor
  · rintro ⟨n, _, within, _, written, tid, nulls⟩
    rw [marks, List.self_eq_append_right] at written
    have none : n = 0 := by
      have length := congrArg List.length written
      simp only [expected, List.length_mapIdx, List.length_take, List.length_nil] at length
      omega
    rw [if_pos none] at nulls
    exact ⟨tid, nulls⟩
  · rintro ⟨tid, nulls⟩
    exact ⟨0, Nat.zero_le _, Nat.zero_le _, by simpa using list, by simpa using marks, tid,
      by simpa using nulls⟩

/-- A trigger that neither an empty queue nor a full HAL stops serves the units that wait. -/
theorem trigger_loop (content : Content units sta.queue.txdescList) (env : RxEnv) (maxsp : UInt8)
    (ac : Nat) (flush : Bool) (uapsd : sta.staIsuapsd = true)
    (busy : ¬(sta.queue.qcnt = 0 ∨ env.bufferFull = true)) :
    ∃ queue, drvProcessUapsdNstaTrigger env maxsp ac flush sta =
        some (queue.qcnt, sta.handedOver queue) ∧
      Served sta.queue queue units (serve env.answers flush (txnReal maxsp sta.queue.qcnt) 0 false
        sta.queue.qcnt units) := by
  have start : triggerStart env.bufferFull maxsp sta.queue =
      some (txnReal maxsp sta.queue.qcnt) := by
    rw [triggerStart, if_neg (by simpa using busy)]
  obtain ⟨queue, ends, served⟩ : ∃ later, runWalk env.answers (txnReal maxsp sta.queue.qcnt + 1) 0
        (.trigger flush (txnReal maxsp sta.queue.qcnt) false []) sta.queue = some later ∧
      Served sta.queue later units (serve env.answers flush (txnReal maxsp sta.queue.qcnt) 0 false
        sta.queue.qcnt units) :=
    runWalk_serve units [] content
  refine ⟨queue, ?_, served⟩
  simp only [drvProcessUapsdNstaTrigger, uapsd, start, ends, Bool.not_true, Bool.false_eq_true,
    if_false]

/-- A trigger at an empty queue or a full HAL. -/
theorem trigger_null (env : RxEnv) (maxsp : UInt8) (ac : Nat) (flush : Bool)
    (uapsd : sta.staIsuapsd = true) (idle : sta.queue.qcnt = 0 ∨ env.bufferFull = true) :
    drvProcessUapsdNstaTrigger env maxsp ac flush sta =
      some (0, if flush then sta else drvUapsdSendQosNull ac sta) := by
  have start : triggerStart env.bufferFull maxsp sta.queue = none := by
    rw [triggerStart, if_pos (by simpa using idle)]
  simp only [drvProcessUapsdNstaTrigger, uapsd, start, Bool.not_true, Bool.false_eq_true, if_false]

theorem trigger_off (env : RxEnv) (maxsp : UInt8) (ac : Nat) (flush : Bool)
    (off : sta.staIsuapsd = false) :
    drvProcessUapsdNstaTrigger env maxsp ac flush sta = some (0, sta) := by
  rw [drvProcessUapsdNstaTrigger, off]
  rfl

/-- A trigger without flush comes to its end, and has done what it has to exactly under its
condition. -/
theorem trigger_iff (content : Content units sta.queue.txdescList) (env : RxEnv) (maxsp : UInt8)
    (ac : Nat) :
    ∃ ret later, drvProcessUapsdNstaTrigger env maxsp ac false sta = some (ret, later) ∧
      (PeriodKept maxsp units sta later ↔ TriggerOk env maxsp ac units sta) := by
  rw [TriggerOk]
  cases uapsd : sta.staIsuapsd with
  | false =>
    refine ⟨0, sta, trigger_off env maxsp ac false uapsd, ?_⟩
    rw [periodKept_none rfl rfl]
    simp
  | true =>
    by_cases idle : sta.queue.qcnt = 0 ∨ env.bufferFull = true
    · refine ⟨0, drvUapsdSendQosNull ac sta, trigger_null env maxsp ac false uapsd idle, ?_⟩
      have null : PeriodKept maxsp units sta (drvUapsdSendQosNull ac sta) ↔
          ∃ tid, (drvUapsdSendQosNull ac sta).nulls = sta.nulls ++ [⟨tid, true⟩] :=
        periodKept_none rfl rfl
      rw [null]
      simp [idle, drvUapsdSendQosNull, wifiMacSendQosnulldata, acCanTrigger]
    · obtain ⟨queue, ends, served⟩ := trigger_loop content env maxsp ac false uapsd idle
      refine ⟨queue.qcnt, sta.handedOver queue, ends, ?_⟩
      constructor
      · rintro ⟨n, few, within, sent, written, tid, nulls⟩
        cases n with
        | zero => simp [UapsdSta.handedOver] at nulls
        | succ last =>
          refine ⟨rfl, Or.inr ⟨idle, last, few, (serve_eq_iff units last).mp ⟨?_, within⟩⟩⟩
          have same := served.sent.symm.trans sent
          have marks := served.marks.symm.trans written
          exact Prod.ext (List.append_cancel_left same) (List.append_cancel_left marks)
      · rintro ⟨_, ⟨none, _⟩ | ⟨_, last, few, closes⟩⟩
        · exact absurd none idle
        · obtain ⟨serves, waits⟩ := (serve_eq_iff units last).mpr closes
          have sent := served.sent
          have marks := served.marks
          rw [serves] at sent marks
          exact ⟨last + 1, few, waits, sent, marks, 0, by simp [UapsdSta.handedOver]⟩

end Trigger

section Runs

variable {sta later : UapsdSta Sta} {env : RxEnv} {maxsp : UInt8} {ac : Nat}

/-- While the flag of the period is set, the HAL has a frame whose completion clears it. -/
def SpEnds (sta : UapsdSta Sta) : Prop :=
  sta.uapsdSp = true → ∃ ptxdesc ∈ sta.inHal, endsPeriod ptxdesc = true

/-- The invariant behind the flag. -/
structure Inv (sta : UapsdSta Sta) : Prop where
  content : ∃ units, Content units sta.queue.txdescList
  below : ∀ ptxdesc ∈ sta.queue.txdescList, ptxdesc.address < sta.nextAddress
  data : ∀ ptxdesc ∈ sta.queue.txdescList, ∀ skbbuf ∈ ptxdesc.txdescMpdu,
    skbbuf.frame.iFc0 = qosData
  ends : SpEnds sta

private theorem eosp_or (byte : UInt8) : (byte ||| wifinetQosEosp) &&& wifinetQosEosp ≠ 0 := by
  have absorbed : (byte ||| wifinetQosEosp) &&& wifinetQosEosp = wifinetQosEosp := by
    apply UInt8.toBitVec_inj.mp
    rw [UInt8.toBitVec_and, UInt8.toBitVec_or]
    ext index _
    grind
  rw [absorbed]
  decide

/-- The last descriptor of a unit with EOSP ends the period. -/
theorem markLast_ends (formed : Formed unit) (sends : sendable unit = true)
    (data : ∀ ptxdesc ∈ unit, ∀ skbbuf ∈ ptxdesc.txdescMpdu, skbbuf.frame.iFc0 = qosData)
    (empty : Bool) :
    ∃ ptxdesc ∈ markLast ⟨lastAddress unit, true, empty⟩ unit, endsPeriod ptxdesc = true := by
  obtain ⟨init, last, rfl⟩ := formed.split
  rw [sendable, List.getLast?_concat, Bool.and_eq_true] at sends
  obtain ⟨skbbuf, attached⟩ := Option.isSome_iff_exists.mp sends.2
  have attached : last.txdescMpdu = some skbbuf := attached
  refine ⟨_, List.mem_map_of_mem (List.mem_append_right init (List.mem_singleton_self last)), ?_⟩
  have kind := data last (List.mem_append_right init (List.mem_singleton_self last)) skbbuf attached
  rw [lastAddress_concat, if_pos rfl]
  simp only [endsPeriod, attached, Option.map_some, WifiQosFrame.write, if_true, kind,
    beq_self_eq_true, Bool.true_or, Bool.true_and]
  exact bne_iff_ne.mpr (eosp_or _)

/-- The last unit of a period has a frame that ends it. -/
theorem marked_ends (units : List (List (BufDesc Sta))) (last : Nat) (waits : last < units.length)
    (formed : ∀ unit ∈ units, Formed unit)
    (sends : ∀ unit ∈ units.take (last + 1), sendable unit = true)
    (data : ∀ ptxdesc ∈ units.flatten, ∀ skbbuf ∈ ptxdesc.txdescMpdu,
      skbbuf.frame.iFc0 = qosData) :
    ∃ ptxdesc ∈ (marked (last + 1) units).flatten, endsPeriod ptxdesc = true := by
  induction units generalizing last with
  | nil => cases waits
  | cons unit rest induction =>
    rw [marked_cons, List.flatten_cons]
    rw [List.flatten_cons] at data
    cases last with
    | zero =>
      obtain ⟨ptxdesc, listed, ends⟩ := markLast_ends (formed unit (.head _))
        (sends unit (.head _)) (fun other inside => data other (List.mem_append_left _ inside)) _
      exact ⟨ptxdesc, List.mem_append_left _ listed, ends⟩
    | succ last =>
      obtain ⟨ptxdesc, listed, ends⟩ := induction last (Nat.lt_of_succ_lt_succ waits)
        (fun other inside => formed other (.tail _ inside))
        (fun other inside => sends other (.tail _ inside))
        (fun other inside => data other (List.mem_append_right _ inside))
      exact ⟨ptxdesc, List.mem_append_right _ listed, ends⟩

/-- What every trigger leaves as it was. -/
structure Keeps (sta later : UapsdSta Sta) : Prop where
  content : ∃ units, Content units later.queue.txdescList
  inside : later.queue.txdescList ⊆ sta.queue.txdescList
  nextAddress : later.nextAddress = sta.nextAddress
  flag : later.uapsdSp = true → sta.uapsdSp = true

theorem trigger_keeps (content : Content units sta.queue.txdescList) (env : RxEnv) (maxsp : UInt8)
    (ac : Nat) (flush : Bool) :
    ∃ ret later, drvProcessUapsdNstaTrigger env maxsp ac flush sta = some (ret, later) ∧
      Keeps sta later := by
  have same : Keeps sta sta := ⟨⟨units, content⟩, List.Subset.refl _, rfl, id⟩
  cases uapsd : sta.staIsuapsd with
  | false => exact ⟨0, sta, trigger_off env maxsp ac flush uapsd, same⟩
  | true =>
    by_cases idle : sta.queue.qcnt = 0 ∨ env.bufferFull = true
    · refine ⟨0, _, trigger_null env maxsp ac flush uapsd idle, ?_⟩
      cases flush with
      | true => exact same
      | false => exact ⟨⟨units, content⟩, List.Subset.refl _, rfl, fun set => by cases set⟩
    · obtain ⟨queue, ends, served⟩ := trigger_loop content env maxsp ac flush uapsd idle
      obtain ⟨taken, remains⟩ := served.rest
      refine ⟨queue.qcnt, sta.handedOver queue, ends, ⟨_, remains⟩, ?_, rfl, id⟩
      intro ptxdesc listed
      have listed : ptxdesc ∈ queue.txdescList := listed
      rw [remains.made] at listed
      obtain ⟨unit, waits, member⟩ := List.mem_flatten.mp listed
      rw [content.made]
      exact List.mem_flatten.mpr ⟨unit, List.mem_of_mem_drop waits, member⟩

/-- A period that ends leaves the HAL the frame that ends it, or clears the flag itself. -/
theorem trigger_ends {ret : Int} (content : Content units sta.queue.txdescList)
    (data : ∀ ptxdesc ∈ sta.queue.txdescList, ∀ skbbuf ∈ ptxdesc.txdescMpdu,
      skbbuf.frame.iFc0 = qosData)
    (ok : TriggerOk env maxsp ac units sta)
    (done : drvProcessUapsdNstaTrigger env maxsp ac false sta = some (ret, later)) :
    SpEnds later := by
  obtain ⟨uapsd, ⟨idle, _⟩ | ⟨busy, last, _, closes⟩⟩ := ok
  · rw [trigger_null env maxsp ac false uapsd idle] at done
    cases done
    intro set
    cases set
  · obtain ⟨queue, ends, served⟩ := trigger_loop content env maxsp ac false uapsd busy
    rw [ends] at done
    cases done
    obtain ⟨serves, waits⟩ := (serve_eq_iff units last).mpr closes
    rw [content.made] at data
    obtain ⟨ptxdesc, listed, ended⟩ :=
      marked_ends units last waits content.formed closes.sendable data
    have sent := served.sent
    rw [serves] at sent
    refine fun _ => ⟨ptxdesc, ?_, ended⟩
    apply List.mem_append_right
    rw [sent, List.drop_left]
    exact listed

theorem Inv.of_keeps (inv : Inv sta) (keeps : Keeps sta later) (ends : SpEnds later) :
    Inv later where
  content := keeps.content
  below ptxdesc listed := keeps.nextAddress ▸ inv.below ptxdesc (keeps.inside listed)
  data ptxdesc listed := inv.data ptxdesc (keeps.inside listed)
  ends := ends

theorem formed_chain {first : Nat} {frames : List (BufFrame Sta)} (some : frames ≠ []) :
    Formed (chain first frames) where
  full none := some (List.mapIdx_eq_nil_iff.mp none)
  last head found := by
    have names := addresses_chain first frames
    have many : 0 < frames.length := List.length_pos_iff.mpr some
    have last : lastAddress (chain first frames) = first + (frames.length - 1) := by
      rw [lastAddress, ← List.getLast?_map]
      change (addresses (chain first frames)).getLast?.getD 0 = _
      rw [names, getLast?_range' first many]
      rfl
    obtain ⟨rest, shape⟩ := List.head?_eq_some_iff.mp found
    have start : head.address = first := by
      rw [shape, addresses_cons] at names
      obtain ⟨count, length⟩ := Nat.exists_eq_succ_of_ne_zero (Nat.ne_of_gt many)
      rw [length, List.range'_succ] at names
      exact (List.cons.inj names).1
    have listed : head ∈ chain first frames := by
      rw [shape]
      exact List.mem_cons_self
    rw [last]
    exact Or.inr ((of_mem_chain listed).2 start)

theorem Inv.queued (inv : Inv sta) (frames : List (DataFrame Sta)) :
    Inv (drvTxQueueUapsdNsta frames sta) := by
  cases frames with
  | nil => exact inv
  | cons frame frames =>
    have names := addresses_chain sta.nextAddress ((frame :: frames).map (·.toBuf))
    rw [List.length_map] at names
    have formed : Formed (chain sta.nextAddress ((frame :: frames).map (·.toBuf))) :=
      formed_chain (List.cons_ne_nil _ _)
    have list : (drvTxQueueUapsdNsta (frame :: frames) sta).queue.txdescList =
        sta.queue.txdescList ++ chain sta.nextAddress ((frame :: frames).map (·.toBuf)) := by
      simp only [drvTxQueueUapsdNsta, drvTxdescListQueue,
        List.isEmpty_eq_false_iff.mpr formed.full, Bool.false_eq_true, if_false]
    have inside : ∀ ptxdesc ∈ chain sta.nextAddress ((frame :: frames).map (·.toBuf)),
        sta.nextAddress ≤ ptxdesc.address ∧
          ptxdesc.address < sta.nextAddress + (frame :: frames).length := by
      intro ptxdesc listed
      have member : ptxdesc.address ∈ addresses
          (chain sta.nextAddress ((frame :: frames).map (·.toBuf))) := List.mem_map_of_mem listed
      rw [names] at member
      exact List.mem_range'_1.mp member
    obtain ⟨units, content⟩ := inv.content
    constructor
    case content =>
      rw [list]
      refine ⟨units ++ [chain sta.nextAddress ((frame :: frames).map (·.toBuf))], ?_, ?_, ?_⟩
      · rw [List.flatten_append, List.flatten_singleton, content.made]
      · rw [addresses_append]
        apply List.Nodup.append content.distinct
        · rw [names]
          exact List.nodup_range'
        · intro address old new
          obtain ⟨one, known, rfl⟩ := List.mem_map.mp old
          obtain ⟨two, fresh, same⟩ := List.mem_map.mp new
          have below := inv.below one known
          have above := (inside two fresh).1
          omega
      · intro unit listed
        cases List.mem_append.mp listed with
        | inl old => exact content.formed unit old
        | inr new => exact List.mem_singleton.mp new ▸ formed
    case below =>
      intro ptxdesc listed
      rw [list, List.mem_append] at listed
      cases listed with
      | inl old => exact Nat.lt_add_right _ (inv.below ptxdesc old)
      | inr new => exact (inside ptxdesc new).2
    case data =>
      intro ptxdesc listed skbbuf attached
      rw [list, List.mem_append] at listed
      cases listed with
      | inl old => exact inv.data ptxdesc old skbbuf attached
      | inr new =>
        obtain ⟨index, within, rfl⟩ := List.mem_mapIdx.mp new
        rw [← Option.some.inj attached, List.getElem_map]
        rfl
    case ends => exact inv.ends

private theorem eospIndicate_eq (ptxdesc : BufDesc Sta) (sta : UapsdSta Sta) :
    ∃ flag noa, wifiMacPwrsaveEospIndicate ptxdesc sta =
        { sta with uapsdSp := flag, waitNoaEnd := noa } ∧
      (flag = true → endsPeriod ptxdesc = false ∧ sta.uapsdSp = true) := by
  rw [wifiMacPwrsaveEospIndicate, endsPeriod]
  cases ptxdesc.txdescMpdu with
  | none => exact ⟨sta.uapsdSp, sta.waitNoaEnd, rfl, fun set => ⟨rfl, set⟩⟩
  | some skbbuf =>
    by_cases kind : skbbuf.frame.iFc0 = qosData ∨ skbbuf.frame.iFc0 = qosNull
    · by_cases ended : skbbuf.frame.iQos0 &&& wifinetQosEosp ≠ 0 ∨ sta.waitNoaEnd = true
      · refine ⟨false, false, ?_, fun set => by cases set⟩
        simp only [if_pos kind, if_pos ended]
      · refine ⟨sta.uapsdSp, sta.waitNoaEnd, ?_, fun set => ⟨?_, set⟩⟩
        · simp only [if_pos kind, if_neg ended]
        · rw [not_or, not_ne_iff] at ended
          simp [ended.1]
    · refine ⟨sta.uapsdSp, sta.waitNoaEnd, ?_, fun set => ⟨?_, set⟩⟩
      · simp only [if_neg kind]
      · rw [not_or] at kind
        simp [kind.1, kind.2]

private theorem Inv.complete (inv : Inv sta) (index : Nat) : Inv (completeFrame index sta) := by
  rw [completeFrame]
  cases found : sta.inHal[index]? with
  | none => exact inv
  | some ptxdesc =>
    obtain ⟨flag, noa, same, stays⟩ := eospIndicate_eq ptxdesc sta
    simp only [same]
    refine ⟨inv.content, inv.below, inv.data, fun set => ?_⟩
    obtain ⟨other, listed, ends⟩ := inv.ends (stays set).2
    refine ⟨other, ?_, ends⟩
    obtain ⟨place, here⟩ := List.mem_iff_getElem?.mp listed
    apply List.mem_eraseIdx_iff_getElem?.mpr
    refine ⟨place, ?_, here⟩
    rintro rfl
    rw [found] at here
    rw [← Option.some.inj here, (stays set).1] at ends
    cases ends

def startsPeriod (env : RxEnv) (qwh : RxFrame) (sta : UapsdSta Sta) : Bool :=
  concerns env sta && pwrMgt qwh == sta.uapsdTrig && isTrigger qwh sta && !sta.uapsdSp

def EventOk (sta : UapsdSta Sta) : UapsdEvent Sta → Prop
  | .rx env qwh => startsPeriod env qwh sta = true →
    ∃ units, Content units sta.queue.txdescList ∧
      TriggerOk env sta.staUapsdMaxsp (rxAc qwh) units sta
  | _ => True

private theorem Inv.pwrsaveChange (inv : Inv sta) (env : RxEnv) (qwh : RxFrame) :
    ∃ later, Uapsd.pwrsaveChange env qwh sta = some later ∧ Inv later := by
  rw [Uapsd.pwrsaveChange]
  split
  · exact ⟨_, rfl, inv.content, inv.below, inv.data, fun set => by cases set⟩
  · have awake : Inv { sta with uapsdSp := false, uapsdTrig := false } :=
      ⟨inv.content, inv.below, inv.data, fun set => by cases set⟩
    obtain ⟨units, content⟩ := awake.content
    obtain ⟨ret, later, ends, keeps⟩ := trigger_keeps content env wmeUapsdNodeMaxqdepth 0 true
    simp only [ends]
    exact ⟨later, rfl, awake.of_keeps keeps fun set => by cases keeps.flag set⟩

/-- A service period that meets its condition leaves a frame in the HAL that ends it, or no flag. -/
theorem Inv.servicePeriod (inv : Inv sta) {env : RxEnv} {qwh : RxFrame}
    {units : List (List (BufDesc Sta))} (content : Content units sta.queue.txdescList)
    (ok : TriggerOk env sta.staUapsdMaxsp (rxAc qwh) units sta) :
    ∃ later, Uapsd.servicePeriod env qwh sta = some later ∧ Inv later := by
  rw [Uapsd.servicePeriod]
  generalize begun : ({ sta with
      uapsdSp := true
      staUapsdTrigseq := Function.update sta.staUapsdTrigseq (rxAc qwh) qwh.iSeq } :
    UapsdSta Sta) = started
  have content : Content units started.queue.txdescList := begun ▸ content
  have data : ∀ ptxdesc ∈ started.queue.txdescList, ∀ skbbuf ∈ ptxdesc.txdescMpdu,
      skbbuf.frame.iFc0 = qosData := begun ▸ inv.data
  have ok : TriggerOk env sta.staUapsdMaxsp (rxAc qwh) units started := begun ▸ ok
  obtain ⟨ret, later, ends, keeps⟩ :=
    trigger_keeps content env sta.staUapsdMaxsp (rxAc qwh) false
  have ended := trigger_ends content data ok ends
  have below : ∀ ptxdesc ∈ later.queue.txdescList, ptxdesc.address < later.nextAddress := by
    intro ptxdesc listed
    have inside := keeps.inside listed
    rw [keeps.nextAddress]
    rw [← begun] at inside ⊢
    exact inv.below ptxdesc inside
  have holds : Inv later :=
    ⟨keeps.content, below, fun ptxdesc listed => data ptxdesc (keeps.inside listed), ended⟩
  simp only [ends]
  split
  · exact ⟨_, rfl, holds.content, holds.below, holds.data, holds.ends⟩
  · exact ⟨later, rfl, holds⟩

private theorem Inv.step (inv : Inv sta) {event : UapsdEvent Sta} (ok : EventOk sta event) :
    ∃ later, uapsdStep sta event = some later ∧ Inv later := by
  cases event with
  | queue frames => exact ⟨_, rfl, inv.queued frames⟩
  | complete index => exact ⟨_, rfl, inv.complete index⟩
  | rx env qwh =>
    rw [uapsdStep, wifiMacPwrsaveChkUapsdTrig]
    cases known : concerns env sta with
    | false => exact ⟨sta, rfl, inv⟩
    | true =>
      simp only [Bool.not_true, Bool.false_eq_true, if_false]
      by_cases change : (pwrMgt qwh != sta.uapsdTrig) = true
      · rw [if_pos change]
        exact inv.pwrsaveChange env qwh
      · rw [if_neg change]
        cases trigger : isTrigger qwh sta with
        | false => exact ⟨sta, rfl, inv⟩
        | true =>
          cases flag : sta.uapsdSp with
          | true => exact ⟨sta, rfl, inv⟩
          | false =>
            have starts : startsPeriod env qwh sta = true := by
              rw [startsPeriod, known, trigger, flag]
              simpa using change
            obtain ⟨units, content, meets⟩ := ok starts
            exact inv.servicePeriod content meets

/-- A trigger frame is honoured while no frame in the HAL ends a period. -/
theorem honoured (ends : SpEnds sta) (known : concerns env sta = true) {qwh : RxFrame}
    (mode : pwrMgt qwh = sta.uapsdTrig) (trigger : isTrigger qwh sta = true)
    (none : ∀ ptxdesc ∈ sta.inHal, endsPeriod ptxdesc = false) :
    wifiMacPwrsaveChkUapsdTrig env qwh sta = servicePeriod env qwh sta := by
  have clear : sta.uapsdSp = false := by
    by_contra set
    rw [Bool.not_eq_false] at set
    obtain ⟨ptxdesc, listed, ended⟩ := ends set
    rw [none ptxdesc listed] at ended
    cases ended
  simp [wifiMacPwrsaveChkUapsdTrig, known, mode, trigger, clear]

/-- A trigger without flush does what it has to exactly under its condition; and in every run whose
service periods meet it, while the flag is set the HAL has a frame that ends the period, so that a
trigger behind the period is honoured. -/
theorem uapsd_service_period :
    (∀ (units : List (List (BufDesc Sta))) (sta : UapsdSta Sta) (env : RxEnv) (maxsp : UInt8)
      (ac : Nat), Content units sta.queue.txdescList →
      ∃ ret later, drvProcessUapsdNstaTrigger env maxsp ac false sta = some (ret, later) ∧
        (PeriodKept maxsp units sta later ↔ TriggerOk env maxsp ac units sta)) ∧
    ∀ (start : UapsdSta Sta) (events : List (UapsdEvent Sta)),
      start.queue.txdescList = [] → start.uapsdSp = false →
      Machine.Along (Machine.attempt uapsdStep) (Machine.AttemptOk EventOk) (some start) events →
      ∃ sta, Machine.run (Machine.attempt uapsdStep) (some start) events = some sta ∧ SpEnds sta ∧
        ∀ env qwh, concerns env sta = true → pwrMgt qwh = sta.uapsdTrig →
          isTrigger qwh sta = true → (∀ ptxdesc ∈ sta.inHal, endsPeriod ptxdesc = false) →
          wifiMacPwrsaveChkUapsdTrig env qwh sta = servicePeriod env qwh sta := by
  refine ⟨fun units sta env maxsp ac content => trigger_iff content env maxsp ac, ?_⟩
  intro start events empty clear met
  have initial : Inv start := by
    refine ⟨⟨[], empty, by rw [empty]; exact List.nodup_nil, fun _ none => by cases none⟩, ?_, ?_,
      fun set => by rw [clear] at set; cases set⟩
    · intro ptxdesc listed
      rw [empty] at listed
      cases listed
    · intro ptxdesc listed
      rw [empty] at listed
      cases listed
  obtain ⟨sta, ends, inv⟩ :=
    Machine.attempt_invariant (fun _ _ inv ok => Inv.step inv ok) met initial
  exact ⟨sta, ends, inv.ends, fun env qwh known mode trigger none =>
    honoured inv.ends known mode trigger none⟩

/-- A station in power save with periods of two units. -/
abbrev sleepingSta : UapsdSta Nat :=
  { queue := ⟨[], 0, [], [], []⟩, nextAddress := 0, inHal := [], staIsuapsd := true, uapsd := true
    uapsdTrig := true, uapsdSp := false, waitNoaEnd := false, staUapsd := 0x2f, staUapsdMaxsp := 2
    staUapsdAcDelivena := fun _ => true, staUapsdTrigseq := fun _ => 0xffff, nulls := []
    tim := false }

/-- Room for the first `free` turns of a trigger. -/
abbrev roomFor (free : Nat) : RxEnv :=
  ⟨true, true, true, false, fun turn => ⟨⟨decide (free ≤ turn), true⟩, false⟩⟩

abbrev triggerFrame (seq : Nat) : RxFrame := ⟨⟨qosNull, wifinetFc1PwrMgt, 0⟩, seq⟩

abbrev dataFrame : DataFrame Nat := ⟨0, 0, 0x22, 0⟩

/-- The station with two frames, each a unit of its own. -/
abbrev twoQueued : UapsdSta Nat :=
  drvTxQueueUapsdNsta [dataFrame] (drvTxQueueUapsdNsta [dataFrame] sleepingSta)

abbrev twoUnits : List (List (BufDesc Nat)) :=
  [chain 0 [dataFrame.toBuf], chain 1 [dataFrame.toBuf]]

private theorem content_twoUnits : Content twoUnits twoQueued.queue.txdescList where
  made := rfl
  distinct := by decide
  formed unit listed := by
    cases listed with
    | head => exact formed_chain (List.cons_ne_nil _ _)
    | tail _ later =>
      rw [List.mem_singleton.mp later]
      exact formed_chain (List.cons_ne_nil _ _)

/-- Two frames go out in one period, and their completions end it. -/
theorem uapsd_service_period_two :
    (∃ ret later, drvProcessUapsdNstaTrigger (roomFor 2) 2 0 false twoQueued = some (ret, later) ∧
      (PeriodKept 2 twoUnits twoQueued later ↔ TriggerOk (roomFor 2) 2 0 twoUnits twoQueued)) ∧
    ∃ sta, Machine.run (Machine.attempt uapsdStep) (some sleepingSta)
        [.queue [dataFrame], .queue [dataFrame], .rx (roomFor 2) (triggerFrame 0), .complete 0,
          .complete 0] = some sta ∧ SpEnds sta ∧
      ∀ env qwh, concerns env sta = true → pwrMgt qwh = sta.uapsdTrig →
        isTrigger qwh sta = true → (∀ ptxdesc ∈ sta.inHal, endsPeriod ptxdesc = false) →
        wifiMacPwrsaveChkUapsdTrig env qwh sta = servicePeriod env qwh sta := by
  refine ⟨uapsd_service_period.1 _ _ _ _ _ content_twoUnits,
    uapsd_service_period.2 _ _ rfl rfl ⟨?_, ?_, ?_, ?_, ?_, trivial⟩⟩
  · exact fun _ _ => trivial
  · exact fun _ _ => trivial
  · intro known found
    cases found
    refine fun _ => ⟨twoUnits, content_twoUnits, rfl, Or.inr ⟨by decide, 1, by decide, ?_⟩⟩
    refine ⟨by decide, by decide, ?_, fun _ _ => rfl, by decide, Or.inl rfl, fun _ _ => rfl, ?_⟩
    · intro index least
      exact decide_eq_false (by omega)
    · intro index least
      change (2 : Int) = index + 1 ↔ 2 = index + 1
      omega
  · exact fun _ _ => trivial
  · exact fun _ _ => trivial

/-- The HAL fills up behind the first of two frames: it went out without EOSP, its completion leaves
the flag, and the next trigger is not honoured. -/
theorem uapsd_service_period_stuck :
    (∃ ret later, drvProcessUapsdNstaTrigger (roomFor 1) 2 0 false twoQueued = some (ret, later) ∧
      ¬PeriodKept 2 twoUnits twoQueued later) ∧
    ∃ sta, Machine.run (Machine.attempt uapsdStep) (some sleepingSta)
        [.queue [dataFrame], .queue [dataFrame], .rx (roomFor 1) (triggerFrame 0), .complete 0] =
          some sta ∧ ¬SpEnds sta ∧ sta.inHal = [] ∧
      uapsdStep sta (.rx (roomFor 2) (triggerFrame 1)) = some sta := by
  refine ⟨⟨_, _, rfl, ?_⟩, _, rfl, ?_, rfl, rfl⟩
  · rintro ⟨n, few, _, _, written, _⟩
    have apart : ∀ n ≤ 2, [(⟨0, false, false⟩ : Mark)] ≠ expected n twoUnits := by decide
    exact apart n few written
  · intro ends
    obtain ⟨ptxdesc, listed, _⟩ := ends rfl
    cases listed

end Runs

end W522a.Tx.Uapsd
