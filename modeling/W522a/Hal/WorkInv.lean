import W522a.Hal.WorkQueue

/-!
What holds of the deferred work as long as every put passes on the slot that its own call filled.
-/

namespace W522a.Hal.Work

/-- The slots the worker holds. -/
def WorkerPc.held : WorkerPc → Nat
  | .running _ | .calling _ | .freeing => 1
  | _ => 0

/-- The items in the slots it holds whose task it has called. -/
def WorkerPc.begun : WorkerPc → Nat
  | .calling _ | .freeing => 1
  | _ => 0

/-- The items in the slots it holds whose callback it has called. -/
def WorkerPc.ended : WorkerPc → Nat
  | .freeing => 1
  | _ => 0

/-- How far the worker is from its sleep when nothing else comes. -/
def WorkerPc.rank : WorkerPc → Nat
  | .asleep => 0
  | .getting => 1
  | .testing => 2
  | .clearing | .freeing => 3
  | .scanning | .calling _ => 4
  | .running _ => 5

/-- The worker looks at the items before it sleeps again. -/
def WorkerPc.serves : WorkerPc → Bool
  | .asleep | .scanning => false
  | _ => true

/-- The first `begun` posts had their task called and the first `ended` of them their callback, each
once, in the order in which the posts were handed their slots. -/
structure Served (queue : WorkQueue) (begun ended : Nat) : Prop where
  tasks : queue.tasksRun = (queue.granted.take begun).map Prod.snd
  callbacks : queue.callbacksRun =
    ((queue.granted.take ended).map Prod.snd).filter fun work => work.taskcallback.isSome
  ordered : ended ≤ begun
  apart : begun ≤ ended + 1
  posted : begun ≤ queue.granted.length

/-- The fifo, with its slots numbered by the posts they were handed to. -/
structure FifoInv (queue : WorkQueue) (published freed : Nat) : Prop where
  size : queue.fifo.eltNbr = workItemNum
  counted :
    queue.fifo.Counted queue.granted.length published (freed + queue.worker.held) freed
  contents : ∀ turn, freed ≤ turn → turn < published →
    ∃ caller, queue.granted[turn]? = some (caller, queue.fifo.elts (queue.fifo.slot turn))
  proper : ∀ entry ∈ queue.granted, entry.2.task.isSome = true

/-- The slot the worker was handed is the first one not given back. -/
def HoldsFirst (queue : WorkQueue) (freed : Nat) : WorkerPc → Prop
  | .running ptr | .calling ptr => ptr = queue.fifo.slot freed
  | _ => True

/-- What the place of a caller says of its post and of the slot it was handed. -/
def PostAt (queue : WorkQueue) (published caller : Nat) : PostPc → Prop
  | .idle => True
  | .filling ptr work =>
    published ≤ queue.turn caller ∧ ptr = queue.fifo.slot (queue.turn caller) ∧
      queue.granted[queue.turn caller]? = some (caller, work)
  | .putting ptr work =>
    (published ≤ queue.turn caller ∧ ptr = queue.fifo.slot (queue.turn caller) ∧
      queue.granted[queue.turn caller]? = some (caller, work)) ∧ queue.fifo.elts ptr = work
  | .flagging | .waking =>
    queue.turn caller < published ∧ ∃ work, queue.granted[queue.turn caller]? = some (caller, work)

/-- The item of a post passed on is not forgotten: the worker will look at it, or its caller has the
wait flag or the semaphore still to raise. -/
def Woken (queue : WorkQueue) (turn : Nat) : Prop :=
  queue.worker.serves = true ∨
    (∃ caller, queue.callers caller = .flagging ∧ queue.turn caller = turn) ∨
    (queue.waitFlag = true ∧
      (0 < queue.workThreadSem ∨ queue.worker = .scanning ∨
        ∃ caller, queue.callers caller = .waking ∧ queue.turn caller = turn))

structure WorkInv (queue : WorkQueue) (published freed : Nat) : Prop where
  fifo : FifoInv queue published freed
  holds : HoldsFirst queue freed queue.worker
  served : Served queue (freed + queue.worker.begun) (freed + queue.worker.ended)
  posts : ∀ caller, PostAt queue published caller (queue.callers caller)
  fresh : ∀ caller, queue.callers caller ≠ .idle → queue.turn caller ∉ queue.returned
  returned : ∀ turn ∈ queue.returned, turn < published
  woken : ∀ turn, freed + queue.worker.held ≤ turn → turn < published → Woken queue turn

/-- A put passes on the slot that its own call filled. -/
def KeepsOrder (queue : WorkQueue) : WorkEvent → Prop
  | .goOn caller =>
    match queue.callers caller with
    | .putting ptr _ => ptr = queue.fifo.inIdx .free
    | _ => True
  | _ => True

variable {queue : WorkQueue} {published freed caller other turn : Nat} {work : WorkTask}

theorem PostAt.entry {pc : PostPc} (post : PostAt queue published caller pc)
    (under : pc ≠ .idle) : ∃ work, queue.granted[queue.turn caller]? = some (caller, work) := by
  cases pc with
  | idle => exact absurd rfl under
  | filling ptr work => exact ⟨work, post.2.2⟩
  | putting ptr work => exact ⟨work, post.1.2.2⟩
  | flagging => exact post.2
  | waking => exact post.2

namespace WorkInv

theorem turn_ne (inv : WorkInv queue published freed) (first : queue.callers caller ≠ .idle)
    (second : queue.callers other ≠ .idle) (apart : other ≠ caller) :
    queue.turn other ≠ queue.turn caller := by
  obtain ⟨work, entry⟩ := (inv.posts caller).entry first
  obtain ⟨otherWork, otherEntry⟩ := (inv.posts other).entry second
  intro same
  rw [same, entry] at otherEntry
  exact apart (congrArg Prod.fst (Option.some.inj otherEntry)).symm

theorem turn_lt (inv : WorkInv queue published freed) (under : queue.callers caller ≠ .idle) :
    queue.turn caller < queue.granted.length := by
  obtain ⟨work, entry⟩ := (inv.posts caller).entry under
  exact (List.getElem?_eq_some_iff.mp entry).1

theorem freed_le (inv : WorkInv queue published freed) : freed ≤ published := by
  have given := inv.fifo.counted.given
  have run := inv.fifo.counted.run
  exact Nat.le_trans given run

end WorkInv

theorem Served.post {begun ended : Nat} (served : Served queue begun ended)
    (caller : Nat) (work : WorkTask) {later : WorkQueue}
    (granted : later.granted = queue.granted ++ [(caller, work)])
    (tasksRun : later.tasksRun = queue.tasksRun)
    (callbacksRun : later.callbacksRun = queue.callbacksRun) : Served later begun ended where
  tasks := by
    rw [tasksRun, granted, List.take_append_of_le_length served.posted]
    exact served.tasks
  callbacks := by
    rw [callbacksRun, granted,
      List.take_append_of_le_length (Nat.le_trans served.ordered served.posted)]
    exact served.callbacks
  ordered := served.ordered
  apart := served.apart
  posted := by
    rw [granted, List.length_append]
    exact Nat.le_add_right_of_le served.posted

end W522a.Hal.Work
