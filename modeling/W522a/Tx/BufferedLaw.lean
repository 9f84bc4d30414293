import Mathlib.Data.List.TakeWhile
import W522a.Tx.Buffered

/-!
The counter of a queue says how many units are on it, and a unit leaves as a whole to the HAL or to
its completion, as long as the HAL takes what is handed to it and nothing is taken by descriptors
but units of one.
-/

namespace W522a.Tx.Buffered

variable {Sta : Type}

def addresses (list : List (BufDesc Sta)) : List Nat := list.map (·.address)

@[simp] theorem addresses_nil : addresses ([] : List (BufDesc Sta)) = [] := rfl

@[simp] theorem addresses_cons (ptxdesc : BufDesc Sta) (rest : List (BufDesc Sta)) :
    addresses (ptxdesc :: rest) = ptxdesc.address :: addresses rest := rfl

@[simp] theorem addresses_append (front back : List (BufDesc Sta)) :
    addresses (front ++ back) = addresses front ++ addresses back := List.map_append

section Books

variable {units : List (List Nat)} {queue : BufferQueue Sta} {front back unit : List (BufDesc Sta)}
  {ptxdesc : BufDesc Sta}

/-- Every unit that was added waits, is in the HAL or is completed. -/
def Booked (units : List (List Nat)) (queue : BufferQueue Sta) : Prop :=
  ∃ waiting done, Batches.Kept units waiting (queue.toHal.map addresses) done
    (addresses queue.txdescList) (addresses queue.completed) queue.qcnt

/-- A descriptor has its buffer, and the first one of a unit points to the last one. -/
structure Pointed (units : List (List Nat)) (ptxdesc : BufDesc Sta) : Prop where
  buffer : ptxdesc.txdescMpdu.isSome = true
  last : ∀ rest, ptxdesc.address :: rest ∈ units →
    ptxdesc.txdescQueueLast = (ptxdesc.address :: rest).getLast?

theorem Booked.handOne (booked : Booked units queue) (alone : [ptxdesc.address] ∈ units)
    (place : queue.txdescList = front ++ ptxdesc :: back) :
    Booked units { queue with
      txdescList := front ++ back, qcnt := queue.qcnt - 1
      toHal := queue.toHal ++ [[ptxdesc]] } := by
  obtain ⟨waiting, done, kept⟩ := booked
  have placed : addresses queue.txdescList =
      addresses front ++ ptxdesc.address :: addresses back := by
    rw [place, addresses_append, addresses_cons]
  obtain ⟨before, after, rfl, first, second⟩ := kept.split_single alone placed
  have later := kept.hand
  rw [first, second] at later
  exact ⟨before ++ after, done, by simpa using later⟩

theorem Booked.finishOne (booked : Booked units queue) (alone : [ptxdesc.address] ∈ units)
    (place : queue.txdescList = front ++ ptxdesc :: back) :
    Booked units { queue with
      txdescList := front ++ back, qcnt := queue.qcnt - 1
      completed := queue.completed ++ [ptxdesc] } := by
  obtain ⟨waiting, done, kept⟩ := booked
  have placed : addresses queue.txdescList =
      addresses front ++ ptxdesc.address :: addresses back := by
    rw [place, addresses_append, addresses_cons]
  obtain ⟨before, after, rfl, first, second⟩ := kept.split_single alone placed
  have later := kept.finish
  rw [first, second] at later
  exact ⟨before ++ after, done ++ [[ptxdesc.address]], by simpa using later⟩

/-- A list is cut behind the first descriptor with an address. -/
theorem listCutPosition_eq {list : List (BufDesc Sta)} {entry : Nat} {init rest : List Nat}
    (places : addresses list = init ++ entry :: rest) (fresh : entry ∉ init) :
    ∃ cut left, listCutPosition entry list = some (cut, left) ∧ list = cut ++ left ∧
      addresses cut = init ++ [entry] := by
  induction init generalizing list with
  | nil =>
    obtain ⟨ptxdesc, left, rfl, same, _⟩ := List.map_eq_cons_iff.mp places
    exact ⟨[ptxdesc], left, if_pos same, rfl, by simp [same]⟩
  | cons head init induction =>
    obtain ⟨ptxdesc, tail, rfl, same, others⟩ := List.map_eq_cons_iff.mp places
    rw [List.mem_cons, not_or] at fresh
    obtain ⟨cut, left, found, split, names⟩ := induction others fresh.2
    refine ⟨ptxdesc :: cut, left, ?_, by rw [split, List.cons_append], ?_⟩
    · rw [listCutPosition, if_neg fun equal => fresh.1 (equal.symm.trans same), found]
    · rw [addresses_cons, names, same, List.cons_append]

/-- The unit at the front of the list is cut off as a whole. -/
theorem Booked.takeUnit (booked : Booked units queue) (pointed : Pointed units ptxdesc)
    (front : queue.txdescList = ptxdesc :: back) :
    ∃ lastbf unit left, ptxdesc.txdescQueueLast = some lastbf ∧
      Buffered.takeUnit lastbf queue =
        some (unit, { queue with txdescList := left, qcnt := queue.qcnt - 1 }) ∧
      queue.txdescList = unit ++ left ∧
      ∀ marked, addresses marked = addresses unit →
        Booked units { queue with
          txdescList := left, qcnt := queue.qcnt - 1, toHal := queue.toHal ++ [marked] } := by
  obtain ⟨waiting, done, kept⟩ := booked
  have linked : waiting.flatten = ptxdesc.address :: addresses back := by
    rw [← kept.linked, front]
    rfl
  cases waiting with
  | nil => cases linked
  | cons batch after =>
    have listed := kept.mem_of_waiting (List.mem_cons_self : batch ∈ batch :: after)
    cases batch with
    | nil => exact absurd rfl (kept.full _ listed)
    | cons head rest =>
      rw [List.flatten_cons, List.cons_append] at linked
      obtain rfl := (List.cons.inj linked).1
      obtain ⟨init, lastbf, whole⟩ :=
        List.eq_nil_or_concat' (ptxdesc.address :: rest) |>.resolve_left (List.cons_ne_nil _ _)
      have last : ptxdesc.txdescQueueLast = some lastbf := by
        rw [pointed.last rest listed, whole]
        exact List.getLast?_concat
      have places : addresses queue.txdescList = init ++ lastbf :: after.flatten := by
        rw [kept.linked, List.flatten_cons, whole, List.append_assoc, List.singleton_append]
      have fresh : lastbf ∉ init := by
        have distinct := (List.nodup_flatten.mp kept.distinct).1 _ listed
        rw [whole] at distinct
        intro inside
        exact (List.nodup_append.mp distinct).2.2 lastbf inside lastbf List.mem_cons_self rfl
      obtain ⟨unit, left, cut, split, names⟩ := listCutPosition_eq places fresh
      refine ⟨lastbf, unit, left, last, ?_, split, ?_⟩
      · rw [Buffered.takeUnit, cut]
      · intro marked same
        have later := kept.handFirst
        have remains : addresses left = after.flatten := by
          rw [split, addresses_append, names, List.append_assoc] at places
          exact (List.cons.inj (List.append_cancel_left places)).2
        refine ⟨after, done, ?_⟩
        rw [whole, ← names, ← same] at later
        simpa [remains] using later

end Books

section Chain

variable {first : Nat} {frames : List (BufFrame Sta)} {ptxdesc : BufDesc Sta}

theorem addresses_chain (first : Nat) (frames : List (BufFrame Sta)) :
    addresses (chain first frames) = List.range' first frames.length := by
  apply List.ext_getElem
  · simp [addresses, chain]
  · intro index _ _
    simp [addresses, chain]

theorem of_mem_chain (listed : ptxdesc ∈ chain first frames) :
    ptxdesc.txdescMpdu.isSome = true ∧
      (ptxdesc.address = first → ptxdesc.txdescQueueLast = some (first + (frames.length - 1))) := by
  obtain ⟨index, within, rfl⟩ := List.mem_mapIdx.mp listed
  refine ⟨rfl, fun same => ?_⟩
  have start : index = 0 := Nat.add_eq_left.mp same
  simp [start]

theorem getLast?_range' (first : Nat) {count : Nat} (some : 0 < count) :
    (List.range' first count).getLast? = Option.some (first + (count - 1)) := by
  rw [List.getLast?_range', if_neg (by omega)]
  congr 1
  omega

end Chain

section Steps

/-- The descriptor was added as a unit of its own. -/
def Alone (units : List (List Nat)) (ptxdesc : BufDesc Sta) : Prop := [ptxdesc.address] ∈ units

/-- Whether `drv_tx_mcastq_send` has to do with a descriptor. -/
def readyNow (vmPsSta : Nat → Nat) (ptxdesc : BufDesc Sta) : Bool :=
  mcastReady vmPsSta ptxdesc == some true

/-- Each descriptor of an awake interface, up to the first that the HAL has no room for, is a unit
of its own that the HAL takes. -/
def McastTakes (units : List (List Nat)) (vmPsSta : Nat → Nat) (answers : Nat → TurnAnswer)
    (list : List (BufDesc Sta)) : Prop :=
  ∀ turn, ∀ within : turn < (list.filter (readyNow vmPsSta)).length,
    (∀ earlier ≤ turn, (answers earlier).bufferFull = false) →
      (answers turn).accepts = true ∧ Alone units (list.filter (readyNow vmPsSta))[turn]

/-- A unit is handed to a HAL that takes it, where there is room; a drain comes first to a
descriptor of its interface that is a unit of its own, or to none at all. -/
def TurnOk (units : List (List Nat)) (answer : TurnAnswer) (list : List (BufDesc Sta)) :
    Walk Sta → Prop
  | .send _ _ => list ≠ [] → answer.bufferFull = false → answer.accepts = true
  | .trigger _ _ _ _ => list ≠ [] → answer.bufferFull = false → answer.accepts = true
  | .drain vid _ =>
    (∀ ptxdesc ∈ list, ofVid vid ptxdesc = false) ∨
      ∃ ptxdesc ∈ list.head?, ofVid vid ptxdesc = true ∧ Alone units ptxdesc

def EventOk (state : BufferState Sta) : BufferEvent Sta → Prop
  | .turn index answer =>
    ∀ walk ∈ state.walks[index]?, TurnOk state.units answer state.queue.txdescList walk
  | .mcastqSend vmPsSta answers =>
    McastTakes state.units vmPsSta answers state.queue.txdescList
  | .cleanup drvSta =>
    ∀ ptxdesc ∈ state.queue.txdescList, ptxdesc.txdescSta = drvSta → Alone state.units ptxdesc
  | _ => True

/-- What a function at work has of its own is empty. -/
def Walk.Idle : Walk Sta → Prop
  | .send _ txQueue => txQueue = []
  | .trigger _ _ _ txQueue => txQueue = []
  | .drain _ notFree => notFree = []

/-- The invariant behind the counter. -/
structure Inv (state : BufferState Sta) : Prop where
  booked : Booked state.units state.queue
  pointed : ∀ ptxdesc ∈ state.queue.txdescList, Pointed state.units ptxdesc
  below : ∀ address ∈ state.units.flatten, address < state.nextAddress
  idle : ∀ walk ∈ state.walks, walk.Idle

variable {units : List (List Nat)} {queue : BufferQueue Sta} {answer : TurnAnswer}
  {list : List (BufDesc Sta)}

/-- A turn comes to its end with the books kept, nothing new on the list, and nothing of its own. -/
def Advances (units : List (List Nat)) (queue : BufferQueue Sta)
    (result : Option (Option (Walk Sta) × BufferQueue Sta)) : Prop :=
  ∃ next later, result = some (next, later) ∧ Booked units later ∧
    later.txdescList ⊆ queue.txdescList ∧ ∀ walk ∈ next, walk.Idle

theorem advances_stay (booked : Booked units queue) : Advances units queue (some (none, queue)) :=
  ⟨none, queue, rfl, booked, fun _ listed => listed, fun _ none => by cases none⟩

theorem drvToHal_nil (unit : List (BufDesc Sta)) :
    drvToHal true [] unit queue = ([], { queue with toHal := queue.toHal ++ [unit] }) := rfl

private theorem sendTurn_advances (booked : Booked units queue)
    (pointed : ∀ ptxdesc ∈ queue.txdescList, Pointed units ptxdesc) (started : Bool)
    (ok : TurnOk units answer queue.txdescList (.send started [])) :
    Advances units queue (sendTurn answer started [] queue) := by
  rw [sendTurn]
  split
  · exact advances_stay booked
  · cases place : queue.txdescList with
    | nil => exact advances_stay booked
    | cons ptxdesc rest =>
      cases room : answer.bufferFull with
      | true => exact advances_stay booked
      | false =>
        have accepts := ok (by rw [place]; exact List.cons_ne_nil _ _) room
        have own := pointed ptxdesc (by rw [place]; exact List.mem_cons_self)
        obtain ⟨lastbf, unit, left, last, taken, split, later⟩ := booked.takeUnit own place
        simp only [last, taken, accepts, drvToHal_nil]
        refine ⟨_, _, rfl, later unit rfl, ?_, ?_⟩
        · rw [split]
          exact List.subset_append_right unit left
        · intro walk found
          obtain rfl := Option.some.inj found
          rfl

private theorem addresses_markLast (mark : Mark) (unit : List (BufDesc Sta)) :
    addresses (markLast mark unit) = addresses unit := by
  rw [addresses, addresses, markLast, List.map_map]
  apply List.map_congr_left
  intro ptxdesc _
  rw [Function.comp_apply]
  split
  · rfl
  · rfl

private theorem triggerTurn_advances (booked : Booked units queue)
    (pointed : ∀ ptxdesc ∈ queue.txdescList, Pointed units ptxdesc) (flush : Bool) (count : Nat)
    (eospFlag : Bool)
    (ok : TurnOk units answer queue.txdescList (.trigger flush count eospFlag [])) :
    Advances units queue (triggerTurn answer flush count eospFlag [] queue) := by
  rw [triggerTurn]
  split
  · exact advances_stay booked
  · cases place : queue.txdescList with
    | nil => exact advances_stay booked
    | cons ptxdesc rest =>
      cases room : answer.bufferFull with
      | true => exact advances_stay booked
      | false =>
        have accepts := ok (by rw [place]; exact List.cons_ne_nil _ _) room
        have own := pointed ptxdesc (by rw [place]; exact List.mem_cons_self)
        obtain ⟨lastbf, unit, left, last, taken, split, later⟩ := booked.takeUnit own place
        simp only [last, taken, accepts, drvToHal_nil, Bool.false_eq_true, if_false]
        split
        · exact advances_stay booked
        · refine ⟨_, _, rfl, later _ (addresses_markLast _ _), ?_, ?_⟩
          · rw [split]
            exact List.subset_append_right unit left
          · intro walk found
            obtain rfl := Option.some.inj found
            rfl

private theorem drainTurn_advances (booked : Booked units queue) (vid : Nat)
    (ok : TurnOk units answer queue.txdescList (.drain vid [])) :
    Advances units queue (some (drainTurn vid [] queue)) := by
  cases ok with
  | inl none =>
    have skip : ∀ ptxdesc ∈ queue.txdescList, (!ofVid vid ptxdesc) = true := by
      intro ptxdesc listed
      rw [none ptxdesc listed]
      rfl
    have stays : drainTurn vid [] queue = (Option.none, queue) := by
      rw [drainTurn, List.dropWhile_eq_nil_iff.mpr skip, List.takeWhile_eq_self_iff.mpr skip]
      rfl
    rw [stays]
    exact advances_stay booked
  | inr some =>
    obtain ⟨ptxdesc, first, own, alone⟩ := some
    obtain ⟨rest, place⟩ := List.head?_eq_some_iff.mp first
    have front : queue.txdescList = [] ++ ptxdesc :: rest := place
    have later := booked.finishOne alone front
    rw [drainTurn, place, List.dropWhile_cons_of_neg (by simp [own]),
      List.takeWhile_cons_of_neg (by simp [own])]
    refine ⟨_, _, rfl, later, ?_, ?_⟩
    · rw [place]
      exact List.subset_cons_self ptxdesc rest
    · intro walk found
      obtain rfl := Option.some.inj found
      rfl

theorem walkTurn_advances (booked : Booked units queue)
    (pointed : ∀ ptxdesc ∈ queue.txdescList, Pointed units ptxdesc) {walk : Walk Sta}
    (idle : walk.Idle) (ok : TurnOk units answer queue.txdescList walk) :
    Advances units queue (walkTurn answer walk queue) := by
  cases walk with
  | send started txQueue =>
    obtain rfl : txQueue = [] := idle
    exact sendTurn_advances booked pointed started ok
  | trigger flush count eospFlag txQueue =>
    obtain rfl : txQueue = [] := idle
    exact triggerTurn_advances booked pointed flush count eospFlag ok
  | drain vid notFree =>
    obtain rfl : notFree = [] := idle
    exact drainTurn_advances booked vid ok

theorem cleanupLoop_booked [DecidableEq Sta] (drvSta : Sta) (passed : List (BufDesc Sta))
    {rest : List (BufDesc Sta)}
    (booked : Booked units { queue with txdescList := passed ++ rest })
    (alone : ∀ ptxdesc ∈ rest, ptxdesc.txdescSta = drvSta → Alone units ptxdesc) :
    Booked units (cleanupLoop drvSta passed rest queue) ∧
      (cleanupLoop drvSta passed rest queue).txdescList ⊆ passed ++ rest := by
  induction rest generalizing passed queue with
  | nil =>
    rw [List.append_nil] at booked
    exact ⟨booked, List.subset_append_left passed []⟩
  | cons ptxdesc rest induction =>
    have others : ∀ other ∈ rest, other.txdescSta = drvSta → Alone units other :=
      fun other listed => alone other (.tail _ listed)
    rw [cleanupLoop]
    split
    case isTrue same =>
      have later : Booked units
          { drvTxdescListCleanup ptxdesc queue with txdescList := passed ++ rest } :=
        booked.finishOne (alone ptxdesc (.head _) same) rfl
      obtain ⟨kept, inside⟩ := induction passed later others
      refine ⟨kept, fun other listed => ?_⟩
      have found := inside listed
      rw [List.mem_append] at found ⊢
      exact found.imp_right (.tail _)
    case isFalse =>
      have moved : passed ++ ptxdesc :: rest = passed ++ [ptxdesc] ++ rest :=
        List.append_cons passed ptxdesc rest
      rw [moved] at booked ⊢
      exact induction _ booked others

private theorem mcastqLoop_booked {vmPsSta : Nat → Nat} {answers : Nat → TurnAnswer} {turn : Nat}
    (passed : List (BufDesc Sta)) {rest : List (BufDesc Sta)}
    (booked : Booked units { queue with txdescList := passed ++ rest })
    (buffers : ∀ ptxdesc ∈ rest, ptxdesc.txdescMpdu.isSome = true)
    (takes : McastTakes units vmPsSta (fun later => answers (turn + later)) rest) :
    ∃ later, mcastqLoop vmPsSta answers turn [] passed rest queue = some later ∧
      Booked units later ∧ later.txdescList ⊆ passed ++ rest := by
  induction rest generalizing turn passed queue with
  | nil =>
    rw [List.append_nil] at booked
    exact ⟨_, rfl, booked, List.subset_append_left passed []⟩
  | cons ptxdesc rest induction =>
    have others : ∀ other ∈ rest, other.txdescMpdu.isSome = true :=
      fun other listed => buffers other (.tail _ listed)
    have moved : passed ++ ptxdesc :: rest = passed ++ [ptxdesc] ++ rest :=
      List.append_cons passed ptxdesc rest
    -- the descriptor stays where it is
    have stay : ∃ later, some { queue with txdescList := passed ++ ptxdesc :: rest } = some later ∧
        Booked units later ∧ later.txdescList ⊆ passed ++ ptxdesc :: rest :=
      ⟨_, rfl, booked, List.Subset.refl _⟩
    obtain ⟨ready, asked⟩ : ∃ ready, mcastReady vmPsSta ptxdesc = some ready := by
      obtain ⟨skbbuf, attached⟩ := Option.isSome_iff_exists.mp (buffers ptxdesc (.head _))
      simp only [mcastReady, attached]
      cases skbbuf.cbVif with
      | none => exact ⟨false, rfl⟩
      | some vif => exact ⟨_, rfl⟩
    rw [mcastqLoop, asked]
    cases ready with
    | false =>
      have skipped : (ptxdesc :: rest).filter (readyNow vmPsSta) =
          rest.filter (readyNow vmPsSta) :=
        List.filter_cons_of_neg (by simp [readyNow, asked])
      rw [McastTakes, skipped] at takes
      simp only [Bool.false_and, Bool.false_eq_true, if_false]
      split
      · rw [moved] at booked ⊢
        exact induction _ booked others takes
      · exact stay
    | true =>
      have taken : (ptxdesc :: rest).filter (readyNow vmPsSta) =
          ptxdesc :: rest.filter (readyNow vmPsSta) :=
        List.filter_cons_of_pos (by simp [readyNow, asked])
      rw [McastTakes, taken] at takes
      by_cases none : queue.qcnt = 0
      · have idle : (true && queue.qcnt != 0) = false := by rw [none]; rfl
        have low : ¬0 < queue.qcnt := by omega
        simp only [idle, Bool.false_eq_true, if_false, if_neg low]
        exact stay
      · simp only [bne_iff_ne.mpr none, Bool.and_true, if_true]
        cases room : (answers turn).bufferFull with
        | true => exact stay
        | false =>
          have first := takes 0 (Nat.succ_pos _) fun earlier least => by
            rw [Nat.le_zero.mp least]
            exact room
          have accepts : (answers turn).accepts = true := first.1
          let taken : BufferQueue Sta :=
            { queue with qcnt := queue.qcnt - 1, toHal := queue.toHal ++ [[ptxdesc]] }
          have later : Booked units { taken with txdescList := passed ++ rest } :=
            booked.handOne first.2 rfl
          have shift : ∀ index, answers (turn + 1 + index) = answers (turn + (index + 1)) :=
            fun index => by rw [Nat.add_right_comm, Nat.add_assoc]
          have next : McastTakes units vmPsSta (fun later => answers (turn + 1 + later)) rest := by
            simp only [shift]
            intro index within clear
            apply takes (index + 1) (Nat.succ_lt_succ within)
            intro earlier below
            cases earlier with
            | zero => exact room
            | succ earlier => exact clear earlier (Nat.le_of_succ_le_succ below)
          have inside : passed ++ rest ⊆ passed ++ ptxdesc :: rest :=
            List.append_subset.mpr ⟨List.subset_append_left _ _,
              List.Subset.trans (List.subset_cons_self ptxdesc rest) (List.subset_append_right _ _)⟩
          simp only [accepts, drvToHal_nil, Bool.false_eq_true, if_false]
          split
          · obtain ⟨final, found, kept, below⟩ := induction passed later others next
            exact ⟨final, found, kept, fun other listed => inside (below listed)⟩
          · exact ⟨_, rfl, later, inside⟩

theorem drvTxMcastqSend_booked {vmPsSta : Nat → Nat} {answers : Nat → TurnAnswer}
    (booked : Booked units queue)
    (pointed : ∀ ptxdesc ∈ queue.txdescList, Pointed units ptxdesc)
    (takes : McastTakes units vmPsSta answers queue.txdescList) :
    ∃ later, drvTxMcastqSend vmPsSta answers queue = some later ∧ Booked units later ∧
      later.txdescList ⊆ queue.txdescList := by
  rw [drvTxMcastqSend]
  split
  · exact ⟨queue, rfl, booked, List.Subset.refl _⟩
  · have buffers : ∀ ptxdesc ∈ queue.txdescList, ptxdesc.txdescMpdu.isSome = true :=
      fun ptxdesc listed => (pointed ptxdesc listed).buffer
    apply mcastqLoop_booked [] booked buffers
    simpa only [Nat.zero_add] using takes

end Steps

section Runs

variable {state : BufferState Sta}

/-- The counter says how many units are on the list; a unit is on the list, in the HAL or completed
as a whole, and in one of these places only. -/
structure Sound (state : BufferState Sta) : Prop where
  counted : state.queue.qcnt =
    (Batches.linkedBatches state.units (addresses state.queue.txdescList)).length
  empty : state.queue.qcnt = 0 ↔ state.queue.txdescList = []
  whole : ∀ unit ∈ state.units, unit <:+: addresses state.queue.txdescList ∨
    unit ∈ state.queue.toHal.map addresses ∨ unit <:+: addresses state.queue.completed
  once : (addresses state.queue.txdescList ++
    ((state.queue.toHal.map addresses).flatten ++ addresses state.queue.completed)).Nodup

theorem Inv.sound (inv : Inv state) : Sound state := by
  obtain ⟨waiting, done, kept⟩ := inv.booked
  refine ⟨kept.count_eq, ?_, fun unit listed => kept.whole listed, kept.once⟩
  rw [kept.count_zero]
  exact List.map_eq_nil_iff

theorem inv_init : Inv (drvTxdescListInit : BufferState Sta) where
  booked := ⟨[], [], Batches.kept_empty⟩
  pointed _ none := by cases none
  below _ none := by cases none
  idle _ none := by cases none

/-- What is on the list keeps its pointers when later units are added. -/
theorem Inv.pointed_later (inv : Inv state) {ptxdesc : BufDesc Sta} {unit : List Nat}
    (listed : ptxdesc ∈ state.queue.txdescList)
    (fresh : ∀ address ∈ unit, state.nextAddress ≤ address) :
    Pointed (state.units ++ [unit]) ptxdesc := by
  obtain ⟨waiting, done, kept⟩ := inv.booked
  refine ⟨(inv.pointed ptxdesc listed).buffer, fun rest found => ?_⟩
  cases List.mem_append.mp found with
  | inl old => exact (inv.pointed ptxdesc listed).last rest old
  | inr new =>
    have inside : ptxdesc.address ∈ unit := by
      rw [← List.mem_singleton.mp new]
      exact List.mem_cons_self
    have known := kept.mem_of_linked (List.mem_map_of_mem listed)
    have below := inv.below _ known
    have above := fresh _ inside
    omega

private theorem Inv.add [DecidableEq Sta] (inv : Inv state) (frames : List (BufFrame Sta)) :
    ∃ later, bufferStep state (.add frames) = some later ∧ Inv later := by
  refine ⟨_, rfl, ?_⟩
  cases frames with
  | nil => exact inv
  | cons frame frames =>
    have names := addresses_chain state.nextAddress (frame :: frames)
    have full : chain state.nextAddress (frame :: frames) ≠ [] := by
      intro none
      rw [none] at names
      cases names
    have fresh : ∀ address ∈ addresses (chain state.nextAddress (frame :: frames)),
        state.nextAddress ≤ address := by
      intro address listed
      rw [names] at listed
      exact (List.mem_range'_1.mp listed).1
    have distinct : (addresses (chain state.nextAddress (frame :: frames))).Nodup := by
      rw [names]
      exact List.nodup_range'
    simp only [drvTxdescListQueue, List.isEmpty_eq_false_iff.mpr full, Bool.false_eq_true, if_false]
    constructor
    case booked =>
      obtain ⟨waiting, done, kept⟩ := inv.booked
      refine ⟨waiting ++ [addresses (chain state.nextAddress (frame :: frames))], done, ?_⟩
      rw [addresses_append]
      apply kept.add _ distinct
      · intro address new old
        have below := inv.below address old
        have above := fresh address new
        omega
      · intro none
        exact full (List.map_eq_nil_iff.mp none)
    case pointed =>
      intro ptxdesc listed
      cases List.mem_append.mp listed with
      | inl old => exact inv.pointed_later old fresh
      | inr new =>
        obtain ⟨buffer, last⟩ := of_mem_chain new
        refine ⟨buffer, fun rest found => ?_⟩
        have above := fresh _ (List.mem_map_of_mem new)
        cases List.mem_append.mp found with
        | inl known =>
          have below := inv.below _ (List.mem_flatten.mpr ⟨_, known, List.mem_cons_self⟩)
          omega
        | inr own =>
          have whole : ptxdesc.address :: rest =
              List.range' state.nextAddress (frames.length + 1) :=
            (List.mem_singleton.mp own).trans names
          rw [whole, getLast?_range' _ (Nat.succ_pos _)]
          apply last
          rw [List.range'_succ] at whole
          exact (List.cons.inj whole).1
    case below =>
      intro address listed
      rw [List.flatten_append, List.flatten_singleton, List.mem_append] at listed
      cases listed with
      | inl old => exact Nat.lt_add_right _ (inv.below address old)
      | inr new =>
        have inside : address ∈ addresses (chain state.nextAddress (frame :: frames)) := new
        rw [names] at inside
        exact (List.mem_range'_1.mp inside).2
    case idle => exact inv.idle

private theorem Inv.begin (inv : Inv state) {walk : Walk Sta} (idle : walk.Idle) :
    Inv { state with walks := state.walks ++ [walk] } where
  booked := inv.booked
  pointed := inv.pointed
  below := inv.below
  idle other listed := by
    cases List.mem_append.mp listed with
    | inl old => exact inv.idle other old
    | inr new => exact List.mem_singleton.mp new ▸ idle

private theorem mem_advance {index : Nat} {walks : List (Walk Sta)} {next : Option (Walk Sta)}
    {walk : Walk Sta} (listed : walk ∈ advance index walks next) : walk ∈ walks ∨ walk ∈ next := by
  cases next with
  | none => exact Or.inl (List.mem_of_mem_eraseIdx listed)
  | some own =>
    cases List.mem_or_eq_of_mem_set listed with
    | inl old => exact Or.inl old
    | inr new => exact Or.inr (congrArg some new.symm)

private theorem Inv.step [DecidableEq Sta] (inv : Inv state) {event : BufferEvent Sta}
    (ok : EventOk state event) : ∃ later, bufferStep state event = some later ∧ Inv later := by
  cases event with
  | add frames => exact inv.add frames
  | send =>
    rw [bufferStep]
    split
    · exact ⟨state, rfl, inv⟩
    · exact ⟨_, rfl, inv.begin rfl⟩
  | drain vid =>
    rw [bufferStep]
    split
    · exact ⟨state, rfl, inv⟩
    · exact ⟨_, rfl, inv.begin rfl⟩
  | trigger staIsuapsd bufferFull maxsp flush =>
    rw [bufferStep]
    split
    · exact ⟨state, rfl, inv⟩
    · split
      · exact ⟨state, rfl, inv⟩
      · exact ⟨_, rfl, inv.begin rfl⟩
  | turn index answer =>
    rw [bufferStep]
    cases found : state.walks[index]? with
    | none => exact ⟨state, rfl, inv⟩
    | some walk =>
      obtain ⟨next, queue, taken, booked, inside, idle⟩ :=
        walkTurn_advances inv.booked inv.pointed
          (inv.idle walk (List.mem_of_getElem? found)) (ok walk found)
      simp only [taken]
      refine ⟨_, rfl, booked, fun ptxdesc listed => inv.pointed ptxdesc (inside listed), inv.below,
        fun other listed => ?_⟩
      cases mem_advance listed with
      | inl old => exact inv.idle other old
      | inr new => exact idle other new
  | mcastqSend vmPsSta answers =>
    obtain ⟨queue, sent, booked, inside⟩ := drvTxMcastqSend_booked inv.booked inv.pointed ok
    rw [bufferStep, sent]
    exact ⟨_, rfl, booked, fun ptxdesc listed => inv.pointed ptxdesc (inside listed), inv.below,
      inv.idle⟩
  | cleanup drvSta =>
    have cleaned := cleanupLoop_booked drvSta [] inv.booked ok
    exact ⟨_, rfl, cleaned.1, fun ptxdesc listed => inv.pointed ptxdesc (cleaned.2 listed),
      inv.below, inv.idle⟩

/-- In every run whose events meet their conditions no pointer leads outside the list, and the
counter and the units are as they should be. -/
theorem buffered_run [DecidableEq Sta] (events : List (BufferEvent Sta))
    (met : Machine.Along (Machine.attempt bufferStep) (Machine.AttemptOk EventOk)
      (some (drvTxdescListInit : BufferState Sta)) events) :
    ∃ state, Machine.run (Machine.attempt bufferStep) (some drvTxdescListInit) events = some state ∧
      Sound state := by
  obtain ⟨state, ends, inv⟩ :=
    Machine.attempt_invariant (fun _ _ inv ok => Inv.step inv ok) met inv_init
  exact ⟨state, ends, inv.sound⟩

abbrev dataFrame (vid : Nat) : BufFrame Nat := ⟨vid, 0, ⟨some vid, ⟨0x88, 0x22, 0⟩⟩⟩

/-- Room for a frame, which the HAL takes or not. -/
abbrev roomFor (accepts : Bool) : TurnAnswer := ⟨⟨false, accepts⟩, false⟩

/-- Two frames of different interfaces: one is drained and one is sent. -/
theorem buffered_run_pair :
    ∃ state, Machine.run (Machine.attempt bufferStep) (some (drvTxdescListInit : BufferState Nat))
      [.add [dataFrame 0], .add [dataFrame 1], .drain 0, .turn 0 (roomFor true), .send,
        .turn 1 (roomFor true)] = some state ∧ Sound state := by
  apply buffered_run
  refine ⟨?_, ?_, ?_, ?_, ?_, ?_, trivial⟩
  · exact fun _ _ => trivial
  · exact fun _ _ => trivial
  · exact fun _ _ => trivial
  · intro known found
    cases found
    intro walk found
    cases found
    exact Or.inr ⟨_, rfl, rfl, .head _⟩
  · exact fun _ _ => trivial
  · intro known found
    cases found
    intro walk found
    cases found
    exact fun _ _ => rfl

/-- A frame that the HAL refuses is on no list and is never completed; a drain that gives up the
lock with a frame of another interface on its own list leaves an empty queue with a count; and it
counts a chain of two frames off twice. -/
theorem buffered_run_fails :
    (¬∃ state, Machine.run (Machine.attempt bufferStep) (some (drvTxdescListInit : BufferState Nat))
      [.add [dataFrame 0], .send, .turn 0 (roomFor false)] = some state ∧ Sound state) ∧
    (¬∃ state, Machine.run (Machine.attempt bufferStep) (some (drvTxdescListInit : BufferState Nat))
      [.add [dataFrame 1], .add [dataFrame 0], .drain 0, .turn 0 (roomFor true)] = some state ∧
        Sound state) ∧
    ¬∃ state, Machine.run (Machine.attempt bufferStep) (some (drvTxdescListInit : BufferState Nat))
      [.add [dataFrame 0, dataFrame 0], .drain 3, .turn 0 (roomFor true)] = some state ∧
        Sound state := by
  refine ⟨?_, ?_, ?_⟩
  · rintro ⟨state, ends, sound⟩
    obtain rfl := Option.some.inj ends
    have whole := sound.whole [0] (by decide)
    revert whole
    decide
  · rintro ⟨state, ends, sound⟩
    obtain rfl := Option.some.inj ends
    have empty := sound.empty
    revert empty
    decide
  · rintro ⟨state, ends, sound⟩
    obtain rfl := Option.some.inj ends
    have empty := sound.empty
    revert empty
    decide

end Runs

end W522a.Tx.Buffered
