import W522a.Hal.WorkInv

/-!
The steps of the callers keep the invariant of the deferred work.
-/

namespace W522a.Hal.Work

variable {queue : WorkQueue} {published freed caller other turn ptr : Nat} {work : WorkTask}

namespace WorkQueue

@[simp] theorem setCaller_same {pc : PostPc} : (queue.setCaller caller pc).callers caller = pc := by
  simp [setCaller]

theorem setCaller_other {pc : PostPc} (apart : other ≠ caller) :
    (queue.setCaller caller pc).callers other = queue.callers other := by
  simp [setCaller, apart]

end WorkQueue

/-- A step keeps what the place of a caller says when it keeps the caller's slot and entry, and the
items passed on do not come to include its own. -/
theorem PostAt.frame {later : WorkQueue} {pc : PostPc} {passed : Nat}
    (post : PostAt queue published other pc)
    (slots : later.fifo.eltNbr = queue.fifo.eltNbr)
    (turns : later.turn other = queue.turn other)
    (grown : ∀ entry, queue.granted[queue.turn other]? = some entry →
      later.granted[queue.turn other]? = some entry)
    (elts : pc ≠ .idle → published ≤ queue.turn other →
      later.fifo.elts (queue.fifo.slot (queue.turn other)) =
        queue.fifo.elts (queue.fifo.slot (queue.turn other)))
    (more : published ≤ passed)
    (waits : pc ≠ .idle → published ≤ queue.turn other → passed ≤ queue.turn other) :
    PostAt later passed other pc := by
  have slot : later.fifo.slot (queue.turn other) = queue.fifo.slot (queue.turn other) := by
    rw [WorkFifo.slot, WorkFifo.slot, slots]
  cases pc with
  | idle => trivial
  | filling ptr work =>
    obtain ⟨behind, handed, entry⟩ := post
    simp only [PostAt, turns, slot]
    exact ⟨waits nofun behind, handed, grown _ entry⟩
  | putting ptr work =>
    obtain ⟨⟨behind, handed, entry⟩, filled⟩ := post
    cases handed
    simp only [PostAt, turns, slot]
    exact ⟨⟨waits nofun behind, trivial, grown _ entry⟩, (elts nofun behind).trans filled⟩
  | flagging =>
    obtain ⟨gone, work, entry⟩ := post
    simp only [PostAt, turns]
    exact ⟨Nat.lt_of_lt_of_le gone more, work, grown _ entry⟩
  | waking =>
    obtain ⟨gone, work, entry⟩ := post
    simp only [PostAt, turns]
    exact ⟨Nat.lt_of_lt_of_le gone more, work, grown _ entry⟩

/-- An item is not forgotten by a step of a caller that has neither the wait flag nor the semaphore
of a post to raise. -/
theorem Woken.frame {later : WorkQueue} (woken : Woken queue turn) (caller : Nat)
    (flagging : queue.callers caller ≠ .flagging) (waking : queue.callers caller ≠ .waking)
    (others : ∀ other, other ≠ caller →
      later.callers other = queue.callers other ∧ later.turn other = queue.turn other)
    (worker : later.worker = queue.worker) (flag : later.waitFlag = queue.waitFlag)
    (sem : later.workThreadSem = queue.workThreadSem) : Woken later turn := by
  have kept : ∀ other place, place = .flagging ∨ place = .waking →
      queue.callers other = place ∧ queue.turn other = turn →
      later.callers other = place ∧ later.turn other = turn := by
    intro other place listed found
    have apart : other ≠ caller := by
      rintro rfl
      cases listed with
      | inl raises => exact flagging (found.1.trans raises)
      | inr wakes => exact waking (found.1.trans wakes)
    obtain ⟨callers, turns⟩ := others other apart
    exact ⟨callers.trans found.1, turns.trans found.2⟩
  rw [Woken, worker, flag, sem]
  cases woken with
  | inl serves => exact .inl serves
  | inr later =>
    cases later with
    | inl raises =>
      obtain ⟨other, found⟩ := raises
      exact .inr (.inl ⟨other, kept other _ (.inl rfl) found⟩)
    | inr flagged =>
      obtain ⟨raised, up | scanning | ⟨other, found⟩⟩ := flagged
      · exact .inr (.inr ⟨raised, .inl up⟩)
      · exact .inr (.inr ⟨raised, .inr (.inl scanning)⟩)
      · exact .inr (.inr ⟨raised, .inr (.inr ⟨other, kept other _ (.inr rfl) found⟩)⟩)

/-- An item that is not forgotten is not forgotten either once the semaphore is raised. -/
theorem Woken.raise {later : WorkQueue} (woken : Woken queue turn)
    (others : ∀ other, queue.callers other = .flagging → later.callers other = .flagging)
    (turns : later.turn = queue.turn) (worker : later.worker = queue.worker)
    (flag : later.waitFlag = queue.waitFlag)
    (sem : 0 < later.workThreadSem) : Woken later turn := by
  cases woken with
  | inl serves => exact .inl (by rw [worker]; exact serves)
  | inr waits =>
    cases waits with
    | inl raises =>
      obtain ⟨other, found, same⟩ := raises
      exact .inr (.inl ⟨other, others other found, by rw [turns]; exact same⟩)
    | inr flagged => exact .inr (.inr ⟨by rw [flag]; exact flagged.1, .inl sem⟩)

def WorkQueue.grant (queue : WorkQueue) (caller : Nat) (work : WorkTask) : WorkQueue :=
  { queue.setCaller caller (.filling (queue.fifo.outIdx .get) work) with
    fifo := queue.fifo.setOut .get (Ring.advance queue.fifo.eltNbr (queue.fifo.outIdx .get) 1)
    granted := queue.granted ++ [(caller, work)]
    turn := Function.update queue.turn caller queue.granted.length }

namespace WorkInv

private theorem refuse (inv : WorkInv queue published freed) (results : List (Nat × Int)) :
    WorkInv { queue with refused := results } published freed where
  fifo := ⟨inv.fifo.size, inv.fifo.counted, inv.fifo.contents, inv.fifo.proper⟩
  holds := inv.holds
  served := ⟨inv.served.tasks, inv.served.callbacks, inv.served.ordered, inv.served.apart,
    inv.served.posted⟩
  posts := inv.posts
  fresh := inv.fresh
  returned := inv.returned
  woken := inv.woken

private theorem grant_fifo (inv : WorkInv queue published freed) (task : work.task.isSome = true)
    (free : queue.granted.length + 1 < freed + queue.fifo.eltNbr) :
    FifoInv (queue.grant caller work) published freed where
  size := inv.fifo.size
  counted := by
    have counted := inv.fifo.counted.grant free
    rw [WorkQueue.grant, List.length_append]
    exact counted
  contents := by
    intro turn old passed
    obtain ⟨poster, entry⟩ := inv.fifo.contents turn old passed
    have handed := (List.getElem?_eq_some_iff.mp entry).1
    exact ⟨poster, (List.getElem?_append_left handed).trans entry⟩
  proper := by
    intro entry listed
    cases List.mem_append.mp listed with
    | inl old => exact inv.fifo.proper entry old
    | inr new =>
      cases List.mem_singleton.mp new
      exact task

private theorem grant (inv : WorkInv queue published freed) (idle : queue.callers caller = .idle)
    (task : work.task.isSome = true)
    (free : queue.granted.length + 1 < freed + queue.fifo.eltNbr) :
    WorkInv (queue.grant caller work) published freed where
  fifo := inv.grant_fifo task free
  holds := inv.holds
  served := inv.served.post caller work rfl rfl rfl
  posts := by
    intro other
    by_cases same : other = caller
    · cases same
      have turn : (queue.grant caller work).turn caller = queue.granted.length := by
        simp [WorkQueue.grant]
      have place : (queue.grant caller work).callers caller =
          .filling (queue.fifo.outIdx .get) work := WorkQueue.setCaller_same
      rw [place, PostAt, turn]
      exact ⟨inv.fifo.counted.passed, inv.fifo.counted.outGet, List.getElem?_concat_length⟩
    · have turn : (queue.grant caller work).turn other = queue.turn other := by
        simp [WorkQueue.grant, same]
      have place : (queue.grant caller work).callers other = queue.callers other :=
        WorkQueue.setCaller_other same
      rw [place]
      refine (inv.posts other).frame rfl turn ?_ (fun _ _ => rfl) (Nat.le_refl _)
        (fun _ => id)
      intro entry found
      exact (List.getElem?_append_left (List.getElem?_eq_some_iff.mp found).1).trans found
  fresh := by
    intro other under
    by_cases same : other = caller
    · cases same
      have turn : (queue.grant caller work).turn caller = queue.granted.length := by
        simp [WorkQueue.grant]
      rw [turn]
      intro back
      have handed := inv.returned _ back
      exact absurd inv.fifo.counted.passed (Nat.not_le_of_lt handed)
    · have turn : (queue.grant caller work).turn other = queue.turn other := by
        simp [WorkQueue.grant, same]
      rw [turn]
      have place : (queue.grant caller work).callers other = queue.callers other :=
        WorkQueue.setCaller_other same
      exact inv.fresh other (place ▸ under)
  returned := inv.returned
  woken := by
    intro turn untaken passed
    apply (inv.woken turn untaken passed).frame caller
    case flagging => simp [idle]
    case waking => simp [idle]
    case others =>
      intro other apart
      exact ⟨WorkQueue.setCaller_other apart, by simp [WorkQueue.grant, apart]⟩
    all_goals rfl

theorem post (inv : WorkInv queue published freed) (idle : queue.callers caller = .idle) :
    WorkInv (queue.post caller work) published freed := by
  unfold WorkQueue.post
  split
  next => exact inv.refuse _
  next task =>
    have count := inv.fifo.counted.getCount
    rw [coSharedFifoGet]
    split
    next => exact inv.refuse _
    next ptr fifo got =>
      split at got
      next => cases got
      next room =>
        cases got
        apply inv.grant idle
        case task => simpa [Option.isSome_iff_ne_none] using task
        case free => omega

/-- A caller that is not in `hal_call_task` comes to another place: what the other callers need and
what wakes the worker is kept. -/
theorem woken_setCaller (inv : WorkInv queue published freed) {pc : PostPc}
    {fifo : WorkFifo WorkTask} (flagging : queue.callers caller ≠ .flagging)
    (waking : queue.callers caller ≠ .waking) (untaken : freed + queue.worker.held ≤ turn)
    (passed : turn < published) : Woken { queue.setCaller caller pc with fifo := fifo } turn := by
  apply (inv.woken turn untaken passed).frame caller flagging waking
  case others =>
    intro other apart
    exact ⟨WorkQueue.setCaller_other apart, rfl⟩
  all_goals rfl

theorem fresh_setCaller (inv : WorkInv queue published freed) {pc : PostPc}
    (under : queue.callers caller ≠ .idle)
    (busy : (queue.setCaller caller pc).callers other ≠ .idle) :
    queue.turn other ∉ queue.returned := by
  by_cases same : other = caller
  · rw [same]
    exact inv.fresh caller under
  · rw [WorkQueue.setCaller_other same] at busy
    exact inv.fresh other busy

/-- A slot that was handed to a post under way holds none of the items passed on, and is no other
post's. -/
theorem slot_ne (inv : WorkInv queue published freed) (under : queue.callers caller ≠ .idle)
    (waits : published ≤ queue.turn caller) (old : freed ≤ turn)
    (handed : turn < queue.granted.length) (apart : turn ≠ queue.turn caller) :
    queue.fifo.slot turn ≠ queue.fifo.slot (queue.turn caller) := by
  have freed_le := inv.freed_le
  exact inv.fifo.counted.slot_ne ⟨old, handed⟩ ⟨by omega, inv.turn_lt under⟩ apart

theorem fill (inv : WorkInv queue published freed)
    (place : queue.callers caller = .filling ptr work) :
    WorkInv { queue.setCaller caller (.putting ptr work) with fifo := queue.fifo.write ptr work }
      published freed := by
  have under : queue.callers caller ≠ .idle := by simp [place]
  have post := inv.posts caller
  rw [place] at post
  obtain ⟨waits, handed, entry⟩ := post
  have untouched : ∀ turn, freed ≤ turn → turn < queue.granted.length →
      turn ≠ queue.turn caller →
      (queue.fifo.write ptr work).elts (queue.fifo.slot turn) =
        queue.fifo.elts (queue.fifo.slot turn) := by
    intro turn old listed apart
    rw [WorkFifo.write_elts, handed]
    exact Function.update_of_ne (inv.slot_ne under waits old listed apart) _ _
  refine ⟨⟨inv.fifo.size, inv.fifo.counted.write ptr work, ?contents, inv.fifo.proper⟩, ?holds,
    ⟨inv.served.tasks, inv.served.callbacks, inv.served.ordered, inv.served.apart,
      inv.served.posted⟩, ?posts, ?fresh, inv.returned, ?woken⟩
  case contents =>
    intro turn old passed
    obtain ⟨poster, found⟩ := inv.fifo.contents turn old passed
    refine ⟨poster, ?_⟩
    have listed := (List.getElem?_eq_some_iff.mp found).1
    have same := untouched turn old listed (by omega)
    rw [WorkFifo.write_slot, same]
    exact found
  case holds => exact inv.holds
  case posts =>
    intro other
    by_cases same : other = caller
    · cases same
      have filled : (queue.fifo.write ptr work).elts ptr = work := by simp
      rw [WorkQueue.setCaller_same]
      exact ⟨⟨waits, handed, entry⟩, filled⟩
    · rw [WorkQueue.setCaller_other same]
      refine (inv.posts other).frame rfl rfl (fun _ => id) ?_ (Nat.le_refl _)
        (fun _ => id)
      intro busy behind
      have old := Nat.le_trans inv.freed_le behind
      exact untouched _ old (inv.turn_lt busy) (inv.turn_ne under busy same)
  case fresh =>
    intro other busy
    exact inv.fresh_setCaller under busy
  case woken =>
    intro turn untaken passed
    exact inv.woken_setCaller (by simp [place]) (by simp [place]) untaken passed

theorem put (inv : WorkInv queue published freed)
    (place : queue.callers caller = .putting ptr work) (keeps : ptr = queue.fifo.inIdx .free) :
    WorkInv { queue.setCaller caller .flagging with fifo := coSharedFifoPut queue.fifo .get 1 }
      (published + 1) freed := by
  have under : queue.callers caller ≠ .idle := by simp [place]
  have post := inv.posts caller
  rw [place] at post
  obtain ⟨⟨waits, handed, entry⟩, filled⟩ := post
  have listed := inv.turn_lt under
  have held : published < queue.granted.length := Nat.lt_of_le_of_lt waits listed
  -- the slot that becomes an item is the one of the next turn, so that turn is the poster's
  have own : queue.turn caller = published := by
    by_contra apart
    have next : queue.fifo.inIdx .free = queue.fifo.slot published := inv.fifo.counted.inFree
    have two := inv.slot_ne under waits inv.freed_le held (Ne.symm apart)
    exact two (next.symm.trans (keeps.symm.trans handed))
  refine ⟨⟨inv.fifo.size, inv.fifo.counted.publish held, ?contents, inv.fifo.proper⟩, inv.holds,
    ⟨inv.served.tasks, inv.served.callbacks, inv.served.ordered, inv.served.apart,
      inv.served.posted⟩, ?posts, ?fresh, ?returned, ?woken⟩
  case contents =>
    intro turn old passed
    by_cases last : turn = published
    · refine ⟨caller, ?_⟩
      have stored : queue.fifo.elts (queue.fifo.slot published) = work := by
        rw [← own, ← handed]
        exact filled
      rw [last]
      rw [own] at entry
      exact entry.trans (congrArg (fun item => some (caller, item)) stored.symm)
    · exact inv.fifo.contents turn old (by omega)
  case posts =>
    intro other
    by_cases same : other = caller
    · cases same
      rw [WorkQueue.setCaller_same]
      exact ⟨own ▸ Nat.lt_succ_self _, work, entry⟩
    · rw [WorkQueue.setCaller_other same]
      refine (inv.posts other).frame rfl rfl (fun _ => id) (fun _ _ => rfl) (Nat.le_succ _) ?_
      intro busy behind
      have apart := inv.turn_ne under busy same
      omega
  case fresh =>
    intro other busy
    exact inv.fresh_setCaller under busy
  case returned =>
    intro turn back
    exact Nat.lt_succ_of_lt (inv.returned turn back)
  case woken =>
    intro turn untaken passed
    by_cases last : turn = published
    · exact .inr (.inl ⟨caller, WorkQueue.setCaller_same, own.trans last.symm⟩)
    · exact inv.woken_setCaller (by simp [place]) (by simp [place]) untaken (by omega)

private theorem flag (inv : WorkInv queue published freed)
    (place : queue.callers caller = .flagging) :
    WorkInv { queue.setCaller caller .waking with waitFlag := true } published freed := by
  have under : queue.callers caller ≠ .idle := by simp [place]
  have post := inv.posts caller
  rw [place] at post
  refine ⟨⟨inv.fifo.size, inv.fifo.counted, inv.fifo.contents, inv.fifo.proper⟩, inv.holds,
    ⟨inv.served.tasks, inv.served.callbacks, inv.served.ordered, inv.served.apart,
      inv.served.posted⟩, ?posts, ?fresh, inv.returned, ?woken⟩
  case posts =>
    intro other
    by_cases same : other = caller
    · cases same
      rw [WorkQueue.setCaller_same]
      exact post
    · rw [WorkQueue.setCaller_other same]
      exact (inv.posts other).frame rfl rfl (fun _ => id) (fun _ _ => rfl) (Nat.le_refl _)
        (fun _ => id)
  case fresh =>
    intro other busy
    exact inv.fresh_setCaller under busy
  case woken =>
    intro turn untaken passed
    have kept : ∀ other, other ≠ caller → ∀ {pc}, queue.callers other = pc →
        (queue.setCaller caller .waking).callers other = pc := by
      intro other apart pc found
      exact (WorkQueue.setCaller_other apart).trans found
    cases inv.woken turn untaken passed with
    | inl serves => exact .inl serves
    | inr later =>
      cases later with
      | inl raises =>
        obtain ⟨other, found, same⟩ := raises
        by_cases self : other = caller
        · cases self
          exact .inr (.inr ⟨rfl, .inr (.inr ⟨caller, WorkQueue.setCaller_same, same⟩)⟩)
        · exact .inr (.inl ⟨other, kept other self found, same⟩)
      | inr flagged =>
        obtain ⟨raised, up | scanning | ⟨other, found, same⟩⟩ := flagged
        · exact .inr (.inr ⟨rfl, .inl up⟩)
        · exact .inr (.inr ⟨rfl, .inr (.inl scanning)⟩)
        · have self : other ≠ caller := by
            rintro rfl
            rw [place] at found
            cases found
          exact .inr (.inr ⟨rfl, .inr (.inr ⟨other, kept other self found, same⟩)⟩)

private theorem wake (inv : WorkInv queue published freed)
    (place : queue.callers caller = .waking) :
    WorkInv { queue.setCaller caller .idle with
      workThreadSem := queue.workThreadSem + 1
      returned := queue.returned ++ [queue.turn caller] } published freed := by
  have under : queue.callers caller ≠ .idle := by simp [place]
  have post := inv.posts caller
  rw [place] at post
  refine ⟨⟨inv.fifo.size, inv.fifo.counted, inv.fifo.contents, inv.fifo.proper⟩, inv.holds,
    ⟨inv.served.tasks, inv.served.callbacks, inv.served.ordered, inv.served.apart,
      inv.served.posted⟩, ?posts, ?fresh, ?returned, ?woken⟩
  case posts =>
    intro other
    by_cases same : other = caller
    · cases same
      rw [WorkQueue.setCaller_same]
      trivial
    · rw [WorkQueue.setCaller_other same]
      exact (inv.posts other).frame rfl rfl (fun _ => id) (fun _ _ => rfl) (Nat.le_refl _)
        (fun _ => id)
  case fresh =>
    intro other busy
    have apart : other ≠ caller := by
      rintro rfl
      exact busy WorkQueue.setCaller_same
    rw [WorkQueue.setCaller_other apart] at busy
    intro back
    cases List.mem_append.mp back with
    | inl old => exact inv.fresh other busy old
    | inr new => exact inv.turn_ne under busy apart (List.mem_singleton.mp new)
  case returned =>
    intro turn back
    cases List.mem_append.mp back with
    | inl old => exact inv.returned turn old
    | inr new =>
      rw [List.mem_singleton.mp new]
      exact post.1
  case woken =>
    intro turn untaken passed
    apply Woken.raise (inv.woken turn untaken passed)
    case others =>
      intro other found
      have apart : other ≠ caller := by
        rintro rfl
        rw [place] at found
        cases found
      exact (WorkQueue.setCaller_other apart).trans found
    case sem => exact Nat.succ_pos _
    all_goals rfl

theorem otherWake (inv : WorkInv queue published freed) :
    WorkInv { queue with workThreadSem := queue.workThreadSem + 1 } published freed where
  fifo := ⟨inv.fifo.size, inv.fifo.counted, inv.fifo.contents, inv.fifo.proper⟩
  holds := inv.holds
  served := ⟨inv.served.tasks, inv.served.callbacks, inv.served.ordered, inv.served.apart,
    inv.served.posted⟩
  posts := inv.posts
  fresh := inv.fresh
  returned := inv.returned
  woken := by
    intro turn untaken passed
    exact Woken.raise (inv.woken turn untaken passed) (fun _ => id) rfl rfl rfl (Nat.succ_pos _)

theorem goOn (inv : WorkInv queue published freed) (keeps : KeepsOrder queue (.goOn caller)) :
    ∃ passed, WorkInv (queue.goOn caller) passed freed := by
  unfold WorkQueue.goOn
  split
  next => exact ⟨published, inv⟩
  next ptr work place => exact ⟨published, inv.fill place⟩
  next ptr work place =>
    have own : ptr = queue.fifo.inIdx .free := by
      simpa only [KeepsOrder, place] using keeps
    exact ⟨published + 1, inv.put place own⟩
  next place => exact ⟨published, inv.flag place⟩
  next place => exact ⟨published, inv.wake place⟩

end WorkInv

end W522a.Hal.Work
