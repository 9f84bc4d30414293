import W522a.Hal.WorkPosts

/-!
The worker keeps the invariant of the deferred work, and what follows for every interleaving in
which each put passes on the slot that its own call filled.
-/

namespace W522a.Hal.Work

open Machine

variable {queue : WorkQueue} {published freed caller other turn ptr : Nat} {work : WorkTask}

private theorem WorkerPc.empty_handed {pc : WorkerPc} (empty : pc.held = 0) :
    pc.begun = 0 ∧ pc.ended = 0 ∧ ∀ queue freed, HoldsFirst queue freed pc := by
  cases pc with
  | running ptr => cases empty
  | calling ptr => cases empty
  | freeing => cases empty
  | _ => exact ⟨rfl, rfl, fun _ _ => trivial⟩

theorem Woken.of_serves (serves : queue.worker.serves = true) : Woken queue turn := .inl serves

namespace WorkInv

/-- The worker goes from one place to another and holds no slot in either. -/
theorem move (inv : WorkInv queue published freed) (pc : WorkerPc) (waitFlag : Bool)
    (workThreadSem : Nat) (before : queue.worker.held = 0) (after : pc.held = 0)
    (woken : ∀ turn, freed ≤ turn → turn < published →
      Woken { queue with
        worker := pc, waitFlag := waitFlag, workThreadSem := workThreadSem } turn) :
    WorkInv { queue with worker := pc, waitFlag := waitFlag, workThreadSem := workThreadSem }
      published freed := by
  obtain ⟨begun, ended, -⟩ := WorkerPc.empty_handed before
  obtain ⟨later, done, holds⟩ := WorkerPc.empty_handed after
  have counted := inv.fifo.counted
  have served := inv.served
  rw [before, ← after] at counted
  rw [begun, ended] at served
  refine ⟨⟨inv.fifo.size, counted, inv.fifo.contents, inv.fifo.proper⟩, holds _ _, ?served,
    inv.posts, inv.fresh, inv.returned, ?woken⟩
  case served =>
    rw [later, done]
    exact ⟨served.tasks, served.callbacks, served.ordered, served.apart, served.posted⟩
  case woken =>
    intro turn untaken passed
    exact woken turn (Nat.le_trans (Nat.le_add_right _ _) untaken) passed

theorem take (inv : WorkInv queue published freed) (place : queue.worker = .getting)
    (waits : freed < published) :
    WorkInv { queue with
      worker := .running (queue.fifo.outIdx .free)
      fifo := queue.fifo.setOut .free
        (Ring.advance queue.fifo.eltNbr (queue.fifo.outIdx .free) 1) } published freed := by
  have counted := inv.fifo.counted
  have served := inv.served
  rw [place] at counted served
  refine ⟨⟨inv.fifo.size, counted.take waits, inv.fifo.contents, inv.fifo.proper⟩,
    counted.outFree, ⟨served.tasks, served.callbacks, served.ordered, served.apart,
      served.posted⟩, ?posts, inv.fresh, inv.returned, fun turn _ _ => Woken.of_serves rfl⟩
  case posts =>
    intro other
    exact (inv.posts other).frame rfl rfl (fun _ => id) (fun _ _ => rfl) (Nat.le_refl _)
      (fun _ => id)

/-- The item in the first slot not given back is the one of the next post. -/
theorem first (inv : WorkInv queue published freed) (waits : freed < published) :
    (queue.granted.take (freed + 1)).map Prod.snd =
      (queue.granted.take freed).map Prod.snd ++ [queue.fifo.elts (queue.fifo.slot freed)] := by
  obtain ⟨caller, entry⟩ := inv.fifo.contents freed (Nat.le_refl _) waits
  rw [List.take_add_one, entry, List.map_append]
  rfl

private theorem runTask (inv : WorkInv queue published freed)
    (place : queue.worker = .running ptr) :
    WorkInv { queue with
      worker := .calling ptr
      tasksRun :=
        if (queue.fifo.elts ptr).task.isSome then queue.tasksRun ++ [queue.fifo.elts ptr]
        else queue.tasksRun } published freed := by
  have counted := inv.fifo.counted
  have served := inv.served
  have holds : HoldsFirst queue freed (.running ptr) := place ▸ inv.holds
  rw [place] at counted served
  have waits : freed < published := counted.run
  obtain ⟨caller, entry⟩ := inv.fifo.contents freed (Nat.le_refl _) waits
  have task : (queue.fifo.elts ptr).task.isSome = true := by
    rw [holds]
    exact inv.fifo.proper _ (List.mem_of_getElem? entry)
  rw [if_pos task]
  refine ⟨⟨inv.fifo.size, counted, inv.fifo.contents, inv.fifo.proper⟩, holds, ?served,
    inv.posts, inv.fresh, inv.returned, fun turn _ _ => Woken.of_serves rfl⟩
  case served =>
    refine ⟨?tasks, served.callbacks, Nat.le_succ_of_le served.ordered, Nat.le_refl _,
      (List.getElem?_eq_some_iff.mp entry).1⟩
    have tasks : queue.tasksRun = (queue.granted.take freed).map Prod.snd := served.tasks
    show queue.tasksRun ++ [queue.fifo.elts ptr] = (queue.granted.take (freed + 1)).map Prod.snd
    rw [inv.first waits, tasks, holds]

private theorem runCallback (inv : WorkInv queue published freed)
    (place : queue.worker = .calling ptr) :
    WorkInv { queue with
      worker := .freeing
      callbacksRun :=
        if (queue.fifo.elts ptr).taskcallback.isSome then
          queue.callbacksRun ++ [queue.fifo.elts ptr]
        else queue.callbacksRun } published freed := by
  have counted := inv.fifo.counted
  have served := inv.served
  have holds : HoldsFirst queue freed (.calling ptr) := place ▸ inv.holds
  rw [place] at counted served
  have waits : freed < published := counted.run
  refine ⟨⟨inv.fifo.size, counted, inv.fifo.contents, inv.fifo.proper⟩, trivial, ?served,
    inv.posts, inv.fresh, inv.returned, fun turn _ _ => Woken.of_serves rfl⟩
  case served =>
    refine ⟨served.tasks, ?callbacks, Nat.le_refl _, Nat.le_succ _, served.posted⟩
    have callbacks : queue.callbacksRun = ((queue.granted.take freed).map Prod.snd).filter
        fun work => work.taskcallback.isSome := served.callbacks
    show _ = ((queue.granted.take (freed + 1)).map Prod.snd).filter
        fun work => work.taskcallback.isSome
    rw [inv.first waits, List.filter_append, ← callbacks, ← holds]
    by_cases callback : (queue.fifo.elts ptr).taskcallback.isSome = true
    · simp [callback]
    · simp [callback]

private theorem release (inv : WorkInv queue published freed) (place : queue.worker = .freeing) :
    WorkInv { queue with worker := .testing, fifo := coSharedFifoPut queue.fifo .free 1 }
      published (freed + 1) := by
  have counted := inv.fifo.counted
  have served := inv.served
  rw [place] at counted served
  refine ⟨⟨inv.fifo.size, counted.release (Nat.lt_succ_self _), ?contents, inv.fifo.proper⟩,
    trivial, ⟨served.tasks, served.callbacks, served.ordered, served.apart, served.posted⟩,
    ?posts, inv.fresh, inv.returned, fun turn _ _ => Woken.of_serves rfl⟩
  case contents =>
    intro turn old passed
    exact inv.fifo.contents turn (Nat.le_of_succ_le old) passed
  case posts =>
    intro other
    exact (inv.posts other).frame rfl rfl (fun _ => id) (fun _ _ => rfl) (Nat.le_refl _)
      (fun _ => id)

end WorkInv

/-- The worker sleeps and no semaphore wakes it. -/
def WorkQueue.Sleeps (queue : WorkQueue) : Prop :=
  queue.worker = .asleep ∧ queue.workThreadSem = 0

/-- What the worker has still to do. -/
def WorkQueue.ahead (queue : WorkQueue) (published freed : Nat) : Nat :=
  5 * (queue.workThreadSem + (published - (freed + queue.worker.held))) + queue.worker.rank

namespace WorkInv

theorem advance (inv : WorkInv queue published freed) :
    ∃ given, WorkInv queue.work published given ∧
      (queue.Sleeps ∨ queue.work.ahead published given < queue.ahead published freed) := by
  have counted := inv.fifo.counted
  have run := counted.run
  unfold WorkQueue.work
  split
  next place =>
    split
    next none => exact ⟨freed, inv, .inl ⟨place, none⟩⟩
    next raised =>
      have empty : queue.worker.held = 0 := by rw [place]; rfl
      refine ⟨freed, inv.move .scanning queue.waitFlag _ empty rfl ?_, .inr ?_⟩
      · intro turn old passed
        have woken := inv.woken turn (by rw [empty]; exact old) passed
        rw [Woken, place] at woken
        obtain serves | waits | ⟨flag, -⟩ := woken
        · cases serves
        · exact .inr (.inl waits)
        · exact .inr (.inr ⟨flag, .inr (.inl rfl)⟩)
      · simp only [WorkQueue.ahead, place, WorkerPc.held, WorkerPc.rank]
        omega
  next place =>
    have empty : queue.worker.held = 0 := by rw [place]; rfl
    split
    next flag =>
      refine ⟨freed, inv.move .clearing _ _ empty rfl fun turn _ _ => Woken.of_serves rfl,
        .inr ?_⟩
      simp [WorkQueue.ahead, place, WorkerPc.held, WorkerPc.rank]
    next clear =>
      refine ⟨freed, inv.move .asleep _ _ empty rfl ?_, .inr ?_⟩
      · intro turn old passed
        have woken := inv.woken turn (by rw [empty]; exact old) passed
        rw [Woken, place] at woken
        obtain serves | waits | ⟨flag, -⟩ := woken
        · cases serves
        · exact .inr (.inl waits)
        · exact absurd flag clear
      · simp [WorkQueue.ahead, place, WorkerPc.held, WorkerPc.rank]
  next place =>
    have empty : queue.worker.held = 0 := by rw [place]; rfl
    refine ⟨freed, inv.move .testing false _ empty rfl fun turn _ _ => Woken.of_serves rfl,
      .inr ?_⟩
    simp [WorkQueue.ahead, place, WorkerPc.held, WorkerPc.rank]
  next place =>
    have empty : queue.worker.held = 0 := by rw [place]; rfl
    rw [empty] at counted
    split
    next more =>
      refine ⟨freed, inv.move .getting _ _ empty rfl fun turn _ _ => Woken.of_serves rfl, .inr ?_⟩
      simp [WorkQueue.ahead, place, WorkerPc.held, WorkerPc.rank]
    next none =>
      refine ⟨freed, inv.move .asleep _ _ empty rfl ?_, .inr ?_⟩
      · intro turn old passed
        exact absurd (counted.empty_iff.mpr (Nat.lt_of_le_of_lt old passed)) none
      · simp [WorkQueue.ahead, place, WorkerPc.held, WorkerPc.rank]
  next place =>
    have empty : queue.worker.held = 0 := by rw [place]; rfl
    rw [empty] at counted
    have count := counted.freeCount
    rw [coSharedFifoGet]
    split
    next none fifo got =>
      split at got
      next few =>
        refine ⟨freed, inv.move .asleep _ _ empty rfl ?_, .inr ?_⟩
        · intro turn old passed
          omega
        · simp [WorkQueue.ahead, place, WorkerPc.held, WorkerPc.rank]
      next => cases got
    next ptr fifo got =>
      split at got
      next => cases got
      next more =>
        cases got
        refine ⟨freed, inv.take place (by omega), .inr ?_⟩
        simp only [WorkQueue.ahead, place, WorkerPc.held, WorkerPc.rank]
        omega
  next ptr place =>
    refine ⟨freed, inv.runTask place, .inr ?_⟩
    simp [WorkQueue.ahead, place, WorkerPc.held, WorkerPc.rank]
  next ptr place =>
    refine ⟨freed, inv.runCallback place, .inr ?_⟩
    simp [WorkQueue.ahead, place, WorkerPc.held, WorkerPc.rank]
  next place =>
    refine ⟨freed + 1, inv.release place, .inr ?_⟩
    simp [WorkQueue.ahead, place, WorkerPc.held, WorkerPc.rank]

theorem step (inv : WorkInv queue published freed) (event : WorkEvent)
    (keeps : KeepsOrder queue event) :
    ∃ passed given, WorkInv (workStep queue event) passed given := by
  cases event with
  | post caller work =>
    rw [workStep]
    split
    next idle => exact ⟨published, freed, inv.post idle⟩
    next => exact ⟨published, freed, inv⟩
  | goOn caller =>
    obtain ⟨passed, kept⟩ := inv.goOn keeps
    exact ⟨passed, freed, kept⟩
  | otherWake => exact ⟨published, freed, inv.otherWake⟩
  | work =>
    obtain ⟨given, kept, -⟩ := inv.advance
    exact ⟨published, given, kept⟩

theorem fresh_queue (elts : Nat → WorkTask) : WorkInv (freshQueue elts) 0 0 where
  fifo := {
    size := rfl
    counted := WorkFifo.init_counted elts (by decide)
    contents := fun turn _ passed => absurd passed (Nat.not_lt_zero turn)
    proper := nofun }
  holds := trivial
  served := ⟨rfl, rfl, Nat.le_refl 0, Nat.zero_le 1, Nat.le_refl 0⟩
  posts := fun _ => trivial
  fresh := fun _ under => absurd rfl under
  returned := nofun
  woken := fun turn _ passed => absurd passed (Nat.not_lt_zero turn)

/-- The worker comes to its sleep when nothing else happens. -/
theorem settles (inv : WorkInv queue published freed) :
    ∃ steps given, (run workStep queue (List.replicate steps .work)).Sleeps ∧
      WorkInv (run workStep queue (List.replicate steps .work)) published given := by
  obtain ⟨ahead, bound⟩ : ∃ ahead, ahead = queue.ahead published freed := ⟨_, rfl⟩
  induction ahead using Nat.strongRecOn generalizing queue freed with
  | ind ahead induction =>
    obtain ⟨given, kept, sleeps | nearer⟩ := inv.advance
    · exact ⟨0, freed, sleeps, inv⟩
    · obtain ⟨steps, last, sleeps, settled⟩ := induction _ (bound ▸ nearer) kept rfl
      exact ⟨steps + 1, last, sleeps, settled⟩

private theorem executed (inv : WorkInv queue published freed) (sleeps : queue.Sleeps) :
    ∀ turn ∈ queue.returned, turn < freed := by
  intro turn back
  by_contra late
  have empty : queue.worker.held = 0 := by rw [sleeps.1]; rfl
  have woken := inv.woken turn (by rw [empty]; omega) (inv.returned turn back)
  rw [Woken, sleeps.1, sleeps.2] at woken
  obtain serves | ⟨caller, place, own⟩ | ⟨-, up | scanning | ⟨caller, place, own⟩⟩ := woken
  · cases serves
  · exact inv.fresh caller (by simp [place]) (own ▸ back)
  · exact absurd up (Nat.lt_irrefl 0)
  · cases scanning
  · exact inv.fresh caller (by simp [place]) (own ▸ back)

private theorem drained (inv : WorkInv queue published freed) (sleeps : queue.Sleeps)
    (none : ∀ caller, queue.callers caller ≠ .flagging ∧ queue.callers caller ≠ .waking) :
    coSharedFifoEmpty queue.fifo .free = false := by
  have empty : queue.worker.held = 0 := by rw [sleeps.1]; rfl
  have counted := inv.fifo.counted
  rw [empty] at counted
  by_contra some
  have waits := counted.empty_iff.mp (Bool.not_eq_false _ ▸ some)
  have woken := inv.woken freed (by rw [empty]; exact Nat.le_refl _) waits
  rw [Woken, sleeps.1, sleeps.2] at woken
  obtain serves | ⟨caller, place, -⟩ | ⟨-, up | scanning | ⟨caller, place, -⟩⟩ := woken
  · cases serves
  · exact (none caller).1 place
  · exact absurd up (Nat.lt_irrefl 0)
  · cases scanning
  · exact (none caller).2 place

private theorem served_asleep (inv : WorkInv queue published freed) (sleeps : queue.Sleeps) :
    Served queue freed freed := by
  have served := inv.served
  rw [sleeps.1] at served
  exact served

end WorkInv

private theorem post_refused (caller : Nat) (work : WorkTask)
    (refused : (queue.post caller work).refused ≠ queue.refused) :
    (queue.post caller work).fifo = queue.fifo := by
  revert refused
  unfold WorkQueue.post
  split
  next => exact fun _ => rfl
  next =>
    split
    next => exact fun _ => rfl
    next => exact fun refused => absurd rfl refused

/-- The law of the deferred work: every item that was run was run once, in the order of the posts
and with its own functions and parameters; those whose post returned 0 have run when the worker
sleeps, and it comes to its sleep by itself; then nothing passed on is left unless its poster has
still to wake the worker; a refused post leaves the fifo as it was. -/
structure QueueLaw (queue : WorkQueue) : Prop where
  served : ∃ begun ended, Served queue begun ended
  executed : queue.Sleeps →
    ∃ count, Served queue count count ∧ ∀ turn ∈ queue.returned, turn < count
  settles : ∃ steps, (run workStep queue (List.replicate steps .work)).Sleeps ∧
    ∃ count, Served (run workStep queue (List.replicate steps .work)) count count ∧
      ∀ turn ∈ queue.returned, turn < count
  drained : queue.Sleeps →
    (∀ caller, queue.callers caller ≠ .flagging ∧ queue.callers caller ≠ .waking) →
    coSharedFifoEmpty queue.fifo .free = false
  refused : ∀ caller work, (queue.post caller work).refused ≠ queue.refused →
    (queue.post caller work).fifo = queue.fifo

private theorem work_returned : queue.work.returned = queue.returned := by
  unfold WorkQueue.work
  split
  next => split <;> rfl
  next => rfl
  next => rfl
  next => rfl
  next => split <;> rfl
  next => rfl
  next => rfl
  next => rfl

private theorem run_work_returned (steps : Nat) :
    (run workStep queue (List.replicate steps .work)).returned = queue.returned := by
  induction steps generalizing queue with
  | zero => rfl
  | succ steps induction => exact induction.trans work_returned

private theorem WorkInv.law (inv : WorkInv queue published freed) : QueueLaw queue where
  served := ⟨_, _, inv.served⟩
  executed := fun sleeps => ⟨freed, inv.served_asleep sleeps, inv.executed sleeps⟩
  settles := by
    obtain ⟨steps, given, sleeps, settled⟩ := inv.settles
    refine ⟨steps, sleeps, given, settled.served_asleep sleeps, ?_⟩
    intro turn back
    apply settled.executed sleeps turn
    rw [run_work_returned]
    exact back
  drained := inv.drained
  refused := post_refused

/-- Every put so far passed on the slot that its own call filled. -/
def InOrder (queue : WorkQueue) : Prop := ∃ published freed, WorkInv queue published freed

/-- Over every interleaving of any number of posts with the worker, the law holds in the state
reached when each put passes on the slot that its own call filled. -/
theorem work_queue_law (elts : Nat → WorkTask) (events : List WorkEvent)
    (keeps : Along workStep KeepsOrder (freshQueue elts) events) :
    QueueLaw (run workStep (freshQueue elts) events) := by
  have preserved : ∀ queue event, InOrder queue → KeepsOrder queue event →
      InOrder (workStep queue event) := by
    intro queue event ⟨published, freed, inv⟩ keeps
    exact inv.step event keeps
  have fresh : InOrder (freshQueue elts) := ⟨0, 0, WorkInv.fresh_queue elts⟩
  obtain ⟨published, freed, inv⟩ := keeps.invariant preserved fresh
  exact inv.law

/-- Two callers post, each after the other's post, and the worker runs the first item. -/
theorem work_queue_law_posts :
    QueueLaw (run workStep (freshQueue fun _ => ⟨none, none, 0, 0, 0, 0, 0⟩)
      [.post 0 ⟨some 1, some 2, 3, 4, 5, 6, 7⟩, .goOn 0, .goOn 0, .goOn 0, .goOn 0,
        .post 1 ⟨some 8, none, 0, 0, 0, 0, 0⟩, .work, .work, .goOn 1, .work, .work, .work, .work,
        .goOn 1]) :=
  work_queue_law _ _ ⟨trivial, trivial, rfl, trivial, trivial, trivial, trivial, trivial, trivial,
    trivial, trivial, trivial, trivial, rfl, trivial⟩

/-- Two callers are handed their slots. The second fills its own and passes on the first one's, in
which the worker finds no function; then the first fills its own and passes on the second one's. -/
def overtaken : List WorkEvent :=
  [.post 0 ⟨some 1, none, 0, 0, 0, 0, 0⟩, .post 1 ⟨some 2, none, 0, 0, 0, 0, 0⟩,
    .goOn 1, .goOn 1, .goOn 1, .goOn 1] ++ List.replicate 9 .work ++
    [.goOn 0, .goOn 0, .goOn 0, .goOn 0] ++ List.replicate 9 .work

/-- Both posts returned 0 and the worker sleeps, but it ran one item: the first caller's never
runs. -/
theorem work_queue_overtaken :
    ¬ QueueLaw (run workStep (freshQueue fun _ => ⟨none, none, 0, 0, 0, 0, 0⟩) overtaken) := by
  intro law
  obtain ⟨count, served, executed⟩ := law.executed ⟨by decide, by decide⟩
  have second := executed 1 (by decide)
  have ran : (run workStep (freshQueue fun _ => ⟨none, none, 0, 0, 0, 0, 0⟩)
      overtaken).tasksRun.length = 1 := by decide
  have tasks := congrArg List.length served.tasks
  rw [List.length_map, List.length_take, Nat.min_eq_left served.posted, ran] at tasks
  omega

end W522a.Hal.Work
