import W522a.Hal.WorkFifo
import W522a.Lib.Run

/-!
The deferred work: callers that post items and the worker that runs them, as one machine whose
steps are the calls of the fifo, the updates of the wait flag and the semaphore.
-/

namespace W522a.Hal.Work

/-- `struct hal_work_task`. A function is its address, if there is one. -/
structure WorkTask where
  task : Option Nat
  taskcallback : Option Nat
  param1 : Nat
  param2 : Nat
  param3 : Nat
  param4 : Nat
  param5 : Nat
  deriving DecidableEq, Repr

abbrev workItemNum : Nat := 512

/-- Where a caller is in `drv_hal_add_workitem`, with the slot it was handed and the item it posts:
before it fills the slot, before it passes it on, before `hal_call_task` sets the wait flag, and
before it raises the semaphore. -/
inductive PostPc where
  | idle
  | filling (ptr : Nat) (work : WorkTask)
  | putting (ptr : Nat) (work : WorkTask)
  | flagging
  | waking
  deriving DecidableEq, Repr

/-- Where the worker is: in `down_interruptible`, before it looks at the wait flag and clears it, and
in `drv_hal_workitem_task` with the slot it was handed. -/
inductive WorkerPc where
  | asleep
  | scanning
  | clearing
  | testing
  | getting
  | running (ptr : Nat)
  | calling (ptr : Nat)
  | freeing
  deriving DecidableEq, Repr

/-- The work fifo among its callers and the worker. `granted` lists the posts that were handed a
slot, in the order of their gets and so for each caller in the order of its posts; `returned`
counts into it the posts whose call has returned 0, and `refused` lists the other results. The
last two are the functions the worker has called. -/
structure WorkQueue where
  fifo : WorkFifo WorkTask
  waitFlag : Bool
  workThreadSem : Nat
  callers : Nat → PostPc
  worker : WorkerPc
  granted : List (Nat × WorkTask)
  turn : Nat → Nat
  returned : List Nat
  refused : List (Nat × Int)
  tasksRun : List WorkTask
  callbacksRun : List WorkTask

/-- What can happen: a caller posts an item or goes on with its post, another task's
`hal_call_task` raises the semaphore, or the worker goes on. -/
inductive WorkEvent where
  | post (caller : Nat) (work : WorkTask)
  | goOn (caller : Nat)
  | otherWake
  | work
  deriving DecidableEq, Repr

namespace WorkQueue

def setCaller (queue : WorkQueue) (caller : Nat) (pc : PostPc) : WorkQueue :=
  { queue with callers := Function.update queue.callers caller pc }

/-- `drv_hal_add_workitem` up to its `CO_SharedFifoGet`. -/
def post (queue : WorkQueue) (caller : Nat) (work : WorkTask) : WorkQueue :=
  if work.task.isNone then { queue with refused := queue.refused ++ [(caller, -22)] }
  else
    match coSharedFifoGet queue.fifo .get 1 with
    | (none, _) => { queue with refused := queue.refused ++ [(caller, -28)] }
    | (some ptr, fifo) =>
      { queue.setCaller caller (.filling ptr work) with
        fifo := fifo
        granted := queue.granted ++ [(caller, work)]
        turn := Function.update queue.turn caller queue.granted.length }

def goOn (queue : WorkQueue) (caller : Nat) : WorkQueue :=
  match queue.callers caller with
  | .idle => queue
  | .filling ptr work =>
    { queue.setCaller caller (.putting ptr work) with fifo := queue.fifo.write ptr work }
  | .putting _ _ =>
    { queue.setCaller caller .flagging with fifo := coSharedFifoPut queue.fifo .get 1 }
  | .flagging => { queue.setCaller caller .waking with waitFlag := true }
  | .waking =>
    { queue.setCaller caller .idle with
      workThreadSem := queue.workThreadSem + 1
      returned := queue.returned ++ [queue.turn caller] }

/-- The next step of `hal_work_thread` and, within it, of `drv_hal_workitem_task`. -/
def work (queue : WorkQueue) : WorkQueue :=
  match queue.worker with
  | .asleep =>
    if queue.workThreadSem = 0 then queue
    else { queue with worker := .scanning, workThreadSem := queue.workThreadSem - 1 }
  | .scanning => { queue with worker := if queue.waitFlag then .clearing else .asleep }
  | .clearing => { queue with worker := .testing, waitFlag := false }
  | .testing =>
    { queue with worker := if coSharedFifoEmpty queue.fifo .free then .getting else .asleep }
  | .getting =>
    match coSharedFifoGet queue.fifo .free 1 with
    | (none, _) => { queue with worker := .asleep }
    | (some ptr, fifo) => { queue with worker := .running ptr, fifo := fifo }
  | .running ptr =>
    { queue with
      worker := .calling ptr
      tasksRun :=
        if (queue.fifo.elts ptr).task.isSome then queue.tasksRun ++ [queue.fifo.elts ptr]
        else queue.tasksRun }
  | .calling ptr =>
    { queue with
      worker := .freeing
      callbacksRun :=
        if (queue.fifo.elts ptr).taskcallback.isSome then
          queue.callbacksRun ++ [queue.fifo.elts ptr]
        else queue.callbacksRun }
  | .freeing => { queue with worker := .testing, fifo := coSharedFifoPut queue.fifo .free 1 }

end WorkQueue

open WorkQueue

/-- One step of an interleaving. A caller posts when it is not in a post. -/
def workStep (queue : WorkQueue) : WorkEvent → WorkQueue
  | .post caller work => if queue.callers caller = .idle then queue.post caller work else queue
  | .goOn caller => queue.goOn caller
  | .otherWake => { queue with workThreadSem := queue.workThreadSem + 1 }
  | .work => queue.work

/-- The queue after `drv_hal_workitem_inital`, over whatever its slots hold. -/
def freshQueue (elts : Nat → WorkTask) : WorkQueue where
  fifo := coSharedFifoInit workItemNum elts
  waitFlag := false
  workThreadSem := 0
  callers := fun _ => .idle
  worker := .asleep
  granted := []
  turn := fun _ => 0
  returned := []
  refused := []
  tasksRun := []
  callbacksRun := []

end W522a.Hal.Work
