import W522a.Mac.TxAmsduBooks

/-!
What the functions of the aggregation do to the books, and to the arrays of MSDUs.
-/

namespace W522a.TxAmsdu

open Mac (etherHeaderLen)
open Books (Evolves Move Same)

/-- The array of a queue: there is no A-MSDU between two calls, and the MSDUs of the array fit. -/
structure AmsduTx.Shaped (tx : AmsduTx) (limit : Nat) : Prop where
  empty : tx.amsduTxBuf = none
  small : ∀ skb ∈ tx.msduTmpBuf, skb.Small
  counted : (tx.msduTmpBuf.map Skb.framelen).sum ≤ tx.framelen
  room : tx.msduTmpBuf ≠ [] → (tx.msduTmpBuf.map Skb.framelen).sum + etherHeaderLen ≤ limit

/-- The length of an A-MSDU; an MSDU on its own is none. -/
def TxBuf.amsduLen : TxBuf → Nat
  | .msdu _ => 0
  | .amsdu _ _ data _ => data.length

/-- A frame that the receive side splits into its MSDUs, of one queue, in the agreed length. -/
structure Sent.Honest (sent : Sent) : Prop where
  split : sent.buf.split = sent.buf.members.map Skb.ethernet
  own : ∀ skb ∈ sent.buf.members, skb.key = sent.buf.key
  within : sent.buf.amsduLen ≤ sent.limit

/-- The queues are in shape, and so is what went to the driver. -/
structure Shape (state : TxState) : Prop where
  alive : state.crashed = false ∧ state.overrun = false
  queues : ∀ key, (state.amsdutx key).Shaped (state.amsduMaxLength key.station)
  wide : ∀ station, htSize false ≤ state.amsduMaxLength station
  honest : ∀ sent ∈ state.air, sent.Honest

variable {state : TxState} {key : Key} {skb : Skb} {outcome : Outcome} {may : Key → Prop}
  {front rest : List Skb}

section Fields

@[simp] theorem put_amsdutx (tx : AmsduTx) :
    (state.put key tx).amsdutx = Function.update state.amsdutx key tx := rfl

theorem put_same : state.put key (state.amsdutx key) = state := by
  simp [TxState.put]

theorem put_put (first second : AmsduTx) :
    (state.put key first).put key second = state.put key second := by
  simp [TxState.put]

theorem uncount_msduCnt (tid : Fin 8) (count : Nat) :
    (state.uncount tid count).msduCnt =
      Function.update state.msduCnt tid (state.msduCnt tid - count) := by
  have less : (if state.msduCnt tid > count then state.msduCnt tid - count else 0) =
      state.msduCnt tid - count := by
    split <;> omega
  rw [TxState.uncount, less]

theorem held_put (tx : AmsduTx) (tasklet : Tasklet)
    (others : ∀ other, other ≠ key → tasklet.msdus other = state.tasklet.msdus other) :
    ({ state.put key tx with tasklet := tasklet } : TxState).held =
      Function.update state.held key (tx.msduTmpBuf ++ tasklet.msdus key ++ tx.msduList) := by
  funext other
  by_cases here : other = key
  · subst here
    simp [TxState.held]
  · simp [TxState.held, Function.update_of_ne here, others other here]

end Fields

section Driver

theorem own_map (skbs : List Skb) : (skbs.map TxBuf.msdu).flatMap TxBuf.own = skbs := by
  rw [List.flatMap_map]
  exact List.flatMap_singleton' skbs

theorem returned_perm (bufs : List TxBuf) :
    ((state.complete bufs).books.relay.returned).Perm
      (state.books.relay.returned ++ bufs.flatMap TxBuf.own) := by
  simp only [TxState.books, TxState.complete, List.flatMap_append, List.append_assoc]
  exact List.Perm.append_left _ List.perm_append_comm

/-- The first MSDUs of a queue leave it with a frame; `copied` are those whose buffers were
completed when they were copied. -/
theorem toDriver_evolves {mid : TxState} {buf : TxBuf} {copied : List Skb}
    (split : state.held key = front ++ rest) (key_eq : buf.key = key)
    (members : buf.members = front) (given : copied ++ buf.own = front)
    (before : Same mid.books { state.books with
      relay := { state.books.relay with
        returned := state.books.relay.returned ++ copied
        held := Function.update state.held key rest } })
    (refused : outcome.txinfo = false → may key) :
    Evolves may state.books (toDriver outcome buf mid).books := by
  have counts : (mid.uncount buf.key.tid buf.members.length).msduCnt =
      Function.update state.msduCnt key.tid (state.msduCnt key.tid - front.length) := by
    rw [uncount_msduCnt, key_eq, members]
    have same : mid.msduCnt = state.msduCnt := before.counted
    rw [same]
  cases accepted : outcome.txinfo with
  | true =>
    have part : copied.Sublist front := by
      rw [← given]
      exact List.sublist_append_left _ _
    apply (Relation.ReflTransGen.single (Move.send split part)).tail
    apply Move.same
    rw [toDriver]
    simp only [accepted, Bool.not_true, Bool.false_eq_true, if_false]
    exact
      { offered := before.offered
        sent := by
          have sent : (mid.air.flatMap fun sent => sent.buf.members) =
            state.air.flatMap fun sent => sent.buf.members := before.sent
          simp [TxState.books, Books.send, Relay.send, TxState.uncount, sent, members]
        lost := before.lost
        returned := before.returned
        held := before.held
        counted := counts }
  | false =>
    apply (Relation.ReflTransGen.single (Move.lose split (refused accepted))).tail
    apply Move.same
    rw [toDriver]
    simp only [accepted, Bool.not_false, if_true]
    exact
      { offered := before.offered
        sent := before.sent
        lost := by
          have lost : (mid.lost ++ buf.members).Perm (state.lost ++ front) := by
            rw [members]
            exact List.Perm.append_right front before.lost
          exact lost
        returned := by
          have later := @returned_perm (mid.uncount buf.key.tid buf.members.length) [buf]
          have all : [buf].flatMap TxBuf.own = buf.own := by simp
          rw [all] at later
          have copies := List.Perm.append_right buf.own before.returned
          rw [List.append_assoc, given] at copies
          exact later.trans copies
        held := before.held
        counted := counts }

theorem Shape.toDriver (shape : Shape state) {buf : TxBuf}
    (honest : (⟨buf, state.amsduMaxLength buf.key.station⟩ : Sent).Honest) :
    Shape (toDriver outcome buf state) := by
  rw [TxAmsdu.toDriver]
  cases outcome.txinfo with
  | true =>
    refine ⟨shape.alive, shape.queues, shape.wide, fun sent listed => ?_⟩
    rcases List.mem_append.mp listed with old | new
    · exact shape.honest sent old
    · rw [List.mem_singleton.mp new]
      exact honest
  | false => exact ⟨shape.alive, shape.queues, shape.wide, shape.honest⟩

/-- A frame for the driver leaves the queues alone. -/
theorem toDriver_frame (buf : TxBuf) :
    (toDriver outcome buf state).amsdutx = state.amsdutx ∧
      (toDriver outcome buf state).tasklet = state.tasklet ∧
      (toDriver outcome buf state).offered = state.offered ∧
      (toDriver outcome buf state).amsduMaxLength = state.amsduMaxLength := by
  rw [toDriver]
  cases outcome.txinfo with
  | true => exact ⟨rfl, rfl, rfl, rfl⟩
  | false => exact ⟨rfl, rfl, rfl, rfl⟩

theorem Shape.put (shape : Shape state) {tx : AmsduTx}
    (shaped : tx.Shaped (state.amsduMaxLength key.station)) : Shape (state.put key tx) where
  alive := shape.alive
  queues := by
    intro other
    by_cases here : other = key
    · subst here
      rw [put_amsdutx, Function.update_self]
      exact shaped
    · rw [put_amsdutx, Function.update_of_ne here]
      exact shape.queues other
  wide := shape.wide
  honest := shape.honest

end Driver

section Aggregate

/-- The queue of a key with an empty array. -/
def AmsduTx.cleared (tx : AmsduTx) : AmsduTx := { tx with framelen := 0, msduTmpBuf := [] }

private theorem AmsduTx.cleared_shaped {tx : AmsduTx} {limit : Nat} (empty : tx.amsduTxBuf = none) :
    tx.cleared.Shaped limit :=
  ⟨empty, List.forall_mem_nil _, Nat.zero_le _, fun nonempty => absurd rfl nonempty⟩

/-- An A-MSDU that is made can be handed down: `wifi_mac_encap` has memory, and the records of its
MSDUs end before the next descriptor. -/
def Makes (outcome : Outcome) (skbs : List Skb) : Prop :=
  outcome.encap = true ∧ Inside skbs.length

instance (outcome : Outcome) (skbs : List Skb) : Decidable (Makes outcome skbs) :=
  inferInstanceAs (Decidable (_ ∧ _))

/-- What an aggregation does: nothing, or an A-MSDU goes to the driver. -/
theorem aggrSend_cases (empty : (state.amsdutx key).amsduTxBuf = none)
    (makes : outcome.memory.isSome = true → (state.amsdutx key).msduTmpBuf ≠ [] →
      Makes outcome (state.amsdutx key).msduTmpBuf) :
    (((state.amsdutx key).msduTmpBuf = [] ∨ outcome.memory = none) ∧
        aggrSend outcome key state = state) ∨
      ((state.amsdutx key).msduTmpBuf ≠ [] ∧ ∃ stale, outcome.memory = some stale ∧
        aggrSend outcome key state =
          toDriver outcome
            (.amsdu key (state.amsdutx key).msduTmpBuf
              (aggrData stale (state.amsdutx key).msduTmpBuf)
              (aggrInfos (state.amsdutx key).msduTmpBuf))
            ((state.complete ((state.amsdutx key).msduTmpBuf.map TxBuf.msdu)).put key
              (state.amsdutx key).cleared)) := by
  by_cases nothing : (state.amsdutx key).msduTmpBuf = []
  · refine Or.inl ⟨Or.inl nothing, ?_⟩
    simp [aggrSend, wifiMacAmsduAggr, nothing]
  cases found : outcome.memory with
  | none =>
    refine Or.inl ⟨Or.inr rfl, ?_⟩
    have same : ({ state.amsdutx key with amsduTxBuf := none } : AmsduTx) = state.amsdutx key := by
      rw [← empty]
    simp only [aggrSend, wifiMacAmsduAggr, nothing, found, empty, freeSkb, if_false,
      Bool.false_eq_true]
    rw [same, put_same]
  | some stale =>
    refine Or.inr ⟨nothing, stale, rfl, ?_⟩
    obtain ⟨ready, inside⟩ := makes (by rw [found]; rfl) nothing
    have recorded : state.record (aggrInfos (state.amsdutx key).msduTmpBuf).length = state := by
      rw [aggrInfos_length, TxState.record, decide_eq_true inside, Bool.not_true, Bool.or_false]
    have same : ({ state.amsdutx key with
        amsduTxBuf := none, framelen := 0, msduTmpBuf := [] } : AmsduTx) =
          (state.amsdutx key).cleared := by
      rw [← empty]
      rfl
    simp only [aggrSend, wifiMacAmsduAggr, nothing, found, empty, freeSkb, recorded, if_false,
      if_true, wifiMacAmsduTx2drvlay, put_amsdutx, Function.update_self, ready, Bool.not_true,
      Bool.false_eq_true, put_put, same]

variable (shape : Shape state)
include shape

variable (may) in
/-- After an aggregation the queues are in shape, and the books evolved. -/
theorem aggrSend_kept (sound : state.books.Sound)
    (makes : outcome.memory.isSome = true → (state.amsdutx key).msduTmpBuf ≠ [] →
      Makes outcome (state.amsdutx key).msduTmpBuf)
    (refused : outcome.txinfo = false → may key) :
    Shape (aggrSend outcome key state) ∧
      Evolves may state.books (aggrSend outcome key state).books := by
  have shaped := shape.queues key
  rcases aggrSend_cases shaped.empty makes with ⟨-, same⟩ | ⟨nonempty, stale, -, made⟩
  · rw [same]
    exact ⟨shape, .refl⟩
  obtain ⟨tmp, tmp_eq⟩ : ∃ tmp, tmp = (state.amsdutx key).msduTmpBuf := ⟨_, rfl⟩
  have held : state.held key =
      tmp ++ (state.tasklet.msdus key ++ (state.amsdutx key).msduList) := by
    rw [TxState.held, tmp_eq, List.append_assoc]
  have later : ((state.complete (tmp.map TxBuf.msdu)).put key (state.amsdutx key).cleared).held =
      Function.update state.held key (state.tasklet.msdus key ++ (state.amsdutx key).msduList) :=
    held_put (state.amsdutx key).cleared state.tasklet fun _ _ => rfl
  rw [made, ← tmp_eq]
  rw [← tmp_eq] at nonempty
  refine ⟨?_, ?_⟩
  · apply Shape.toDriver
    · have completed : Shape (state.complete (tmp.map TxBuf.msdu)) :=
        ⟨shape.alive, shape.queues, shape.wide, shape.honest⟩
      exact completed.put (AmsduTx.cleared_shaped shaped.empty)
    · have smalls : ∀ skb ∈ tmp, skb.Small := by
        rw [tmp_eq]
        exact shaped.small
      refine ⟨aggrData_split stale key _ nonempty smalls, fun skb listed => ?_, ?_⟩
      · exact sound.relay.held_lane (Relay.front_held held listed)
      · have room := shaped.room
        rw [← tmp_eq] at room
        exact Nat.le_trans (aggrData_length stale nonempty smalls) (room nonempty)
  · apply toDriver_evolves held rfl rfl (List.append_nil tmp) _ refused
    exact
      { offered := rfl
        sent := rfl
        lost := .rfl
        returned := by
          have given := @returned_perm state (tmp.map TxBuf.msdu)
          rw [own_map] at given
          exact given
        held := later
        counted := rfl }

/-- What an aggregation leaves of the array, and what it leaves alone. -/
theorem aggrSend_frame
    (makes : outcome.memory.isSome = true → (state.amsdutx key).msduTmpBuf ≠ [] →
      Makes outcome (state.amsdutx key).msduTmpBuf) :
    ((aggrSend outcome key state).amsdutx key).msduTmpBuf =
        (if outcome.memory.isSome then [] else (state.amsdutx key).msduTmpBuf) ∧
      ((aggrSend outcome key state).amsdutx key).msduList = (state.amsdutx key).msduList ∧
      (aggrSend outcome key state).tasklet = state.tasklet ∧
      (aggrSend outcome key state).offered = state.offered ∧
      (aggrSend outcome key state).amsduMaxLength = state.amsduMaxLength := by
  rcases aggrSend_cases (shape.queues key).empty makes with
    ⟨nothing, same⟩ | ⟨-, stale, found, made⟩
  · rw [same]
    refine ⟨?_, rfl, rfl, rfl, rfl⟩
    rcases nothing with nothing | missing
    · rw [nothing, ite_self]
    · rw [missing]
      rfl
  · rw [made, found]
    obtain ⟨queues, tasklet, offered, longest⟩ := @toDriver_frame
      ((state.complete ((state.amsdutx key).msduTmpBuf.map TxBuf.msdu)).put key
        (state.amsdutx key).cleared) outcome
      (.amsdu key (state.amsdutx key).msduTmpBuf (aggrData stale (state.amsdutx key).msduTmpBuf)
        (aggrInfos (state.amsdutx key).msduTmpBuf))
    rw [queues, tasklet, offered, longest, put_amsdutx, Function.update_self]
    exact ⟨rfl, rfl, rfl, rfl, rfl⟩

end Aggregate

section Work

theorem Shape.tasklet (shape : Shape state) (tasklet : Tasklet) :
    Shape { state with tasklet := tasklet } :=
  ⟨shape.alive, shape.queues, shape.wide, shape.honest⟩

theorem msdus_taken_other {other : Key} (distinct : other ≠ skb.key) :
    (Tasklet.taken skb).msdus other = [] :=
  if_neg (Ne.symm distinct)

theorem msdus_taken : (Tasklet.taken skb).msdus skb.key = [skb] := if_pos rfl

theorem msdus_returned (taken : state.tasklet = .taken skb) :
    ∀ other, other ≠ skb.key → Tasklet.returned.msdus other = state.tasklet.msdus other := by
  intro other distinct
  rw [taken, msdus_taken_other distinct]
  rfl

theorem toDriver_tasklet (buf : TxBuf) (tasklet : Tasklet) :
    ({ toDriver outcome buf state with tasklet := tasklet } : TxState) =
      toDriver outcome buf { state with tasklet := tasklet } := by
  rw [toDriver, toDriver]
  cases outcome.txinfo with
  | true => rfl
  | false => rfl

theorem aggrSend_tasklet (empty : (state.amsdutx key).amsduTxBuf = none) (tasklet : Tasklet) :
    ({ aggrSend outcome key state with tasklet := tasklet } : TxState) =
      aggrSend outcome key { state with tasklet := tasklet } := by
  simp only [aggrSend, wifiMacAmsduAggr]
  by_cases nothing : (state.amsdutx key).msduTmpBuf = []
  · simp only [nothing, if_true, Bool.false_eq_true, if_false]
  simp only [nothing, if_false, empty, freeSkb]
  cases outcome.memory with
  | none => rfl
  | some stale =>
    simp only [if_true, wifiMacAmsduTx2drvlay, put_amsdutx, Function.update_self]
    cases outcome.encap with
    | true => exact toDriver_tasklet _ _
    | false => rfl

/-- An MSDU on its own goes to the driver when the array is empty. -/
theorem alone_kept (shape : Shape state) (taken : state.tasklet = .taken skb)
    (nothing : (state.amsdutx skb.key).msduTmpBuf = []) (encap : outcome.encap = true)
    (refused : outcome.txinfo = false → may skb.key) :
    let later : TxState := { wifiMacAmsduTx2drvlay outcome skb.key
      (state.put skb.key { state.amsdutx skb.key with amsduTxBuf := some (.msdu skb) }) with
        tasklet := .returned }
    Shape later ∧ Evolves may state.books later.books ∧ later.offered = state.offered := by
  have empty : ({ state.amsdutx skb.key with amsduTxBuf := none } : AmsduTx) =
      state.amsdutx skb.key := by
    rw [← (shape.queues skb.key).empty]
  have driven : wifiMacAmsduTx2drvlay outcome skb.key
      (state.put skb.key { state.amsdutx skb.key with amsduTxBuf := some (.msdu skb) }) =
        toDriver outcome (.msdu skb) state := by
    simp only [wifiMacAmsduTx2drvlay, put_amsdutx, Function.update_self, encap, Bool.not_true,
      Bool.false_eq_true, if_false, put_put]
    rw [empty, put_same]
  have held : state.held skb.key = [skb] ++ (state.amsdutx skb.key).msduList := by
    rw [TxState.held, nothing, taken, msdus_taken]
    rfl
  have later : ({ state with tasklet := .returned } : TxState).held =
      Function.update state.held skb.key (state.amsdutx skb.key).msduList := by
    have placed := held_put (state.amsdutx skb.key) .returned (msdus_returned taken)
    rw [put_same, nothing] at placed
    exact placed
  dsimp only
  rw [driven, toDriver_tasklet]
  refine ⟨?_, ?_, ?_⟩
  · apply Shape.toDriver (shape.tasklet .returned)
    refine ⟨rfl, fun other listed => ?_, Nat.zero_le _⟩
    rw [List.mem_singleton.mp listed]
    rfl
  · apply toDriver_evolves held rfl rfl (List.nil_append [skb]) _ refused
    exact
      { offered := rfl
        sent := rfl
        lost := .rfl
        returned := by
          rw [List.append_nil]
          exact .rfl
        held := later
        counted := rfl }
  · exact toDriver_frame _ |>.2.2.1

/-- The MSDU in hand is added to the array, where it fits. -/
theorem append_kept (shape : Shape state) (taken : state.tasklet = .taken skb)
    (small : skb.Small)
    (room : ((state.amsdutx skb.key).msduTmpBuf.map Skb.framelen).sum + skb.framelen +
      etherHeaderLen ≤ state.amsduMaxLength skb.key.station) :
    Shape { append skb state with tasklet := .returned } ∧
      ({ append skb state with tasklet := .returned } : TxState).books = state.books := by
  have shaped := shape.queues skb.key
  have total : (((state.amsdutx skb.key).msduTmpBuf ++ [skb]).map Skb.framelen).sum =
      ((state.amsdutx skb.key).msduTmpBuf.map Skb.framelen).sum + skb.framelen := by
    simp
  have longer : ({ state.amsdutx skb.key with
      framelen := (state.amsdutx skb.key).framelen + skb.framelen
      msduTmpBuf := (state.amsdutx skb.key).msduTmpBuf ++ [skb] } : AmsduTx).Shaped
        (state.amsduMaxLength skb.key.station) := by
    refine ⟨shaped.empty, fun other listed => ?_, ?_, fun _ => ?_⟩
    · rcases List.mem_append.mp listed with old | new
      · exact shaped.small other old
      · rw [List.mem_singleton.mp new]
        exact small
    · have counted := shaped.counted
      simp only [total]
      omega
    · simp only [total]
      exact room
  have appended : Shape (append skb state) := shape.put longer
  refine ⟨appended.tasklet .returned, ?_⟩
  have placed := held_put { state.amsdutx skb.key with
    framelen := (state.amsdutx skb.key).framelen + skb.framelen
    msduTmpBuf := (state.amsdutx skb.key).msduTmpBuf ++ [skb] } .returned (msdus_returned taken)
  have same : (state.amsdutx skb.key).msduTmpBuf ++ [skb] ++ Tasklet.returned.msdus skb.key ++
      (state.amsdutx skb.key).msduList = state.held skb.key := by
    rw [TxState.held, taken, msdus_taken]
    simp [Tasklet.msdus]
  rw [same, Function.update_eq_self] at placed
  have whole : ({ append skb state with tasklet := .returned } : TxState).held = state.held :=
    placed
  simp only [TxState.books, whole]
  rfl

private theorem stamp_kept (shape : Shape state) :
    Shape (stamp key state) ∧ (stamp key state).books = state.books := by
  have shaped := shape.queues key
  rw [stamp]
  split
  next nothing =>
    refine ⟨shape.put ⟨shaped.empty, shaped.small, shaped.counted, shaped.room⟩, ?_⟩
    have placed := @held_put state key { state.amsdutx key with inTime := state.jiffies }
      state.tasklet fun _ _ => rfl
    have same : (state.amsdutx key).msduTmpBuf ++ state.tasklet.msdus key ++
        (state.amsdutx key).msduList = state.held key := rfl
    rw [same, Function.update_eq_self] at placed
    have whole : (state.put key { state.amsdutx key with inTime := state.jiffies }).held =
        state.held := placed
    simp only [TxState.books, whole]
    rfl
  next => exact ⟨shape, rfl⟩

private theorem stamp_frame :
    (stamp key state).tasklet = state.tasklet ∧ (stamp key state).offered = state.offered ∧
      (stamp key state).amsduMaxLength = state.amsduMaxLength ∧
      ((stamp key state).amsdutx key).msduTmpBuf = (state.amsdutx key).msduTmpBuf := by
  rw [stamp]
  split
  next => simp [TxState.put]
  next => exact ⟨rfl, rfl, rfl, rfl⟩

/-- What `wifi_mac_amsdu_ex` must find. An MSDU on its own needs the memory for the A-MSDU before
it. An MSDU that does not fit needs it unless it still keeps the agreed length and is not the
seventeenth. An A-MSDU that is made can be handed down, and so can the MSDU on its own. -/
def WorkReady (setup : Setup) (first second : Outcome) (skb : Skb) (state : TxState) : Prop :=
  if Alone skb then
    ((state.amsdutx skb.key).msduTmpBuf ≠ [] → first.memory.isSome = true ∧
      Makes first (state.amsdutx skb.key).msduTmpBuf) ∧ second.encap = true
  else if Fits setup (stamp skb.key state) skb ((stamp skb.key state).amsdutx skb.key) then
    Full (append skb (stamp skb.key state)) skb.key → first.memory.isSome = true →
      first.encap = true
  else
    (state.amsdutx skb.key).msduTmpBuf ≠ [] →
      if first.memory.isSome then Makes first (state.amsdutx skb.key).msduTmpBuf
      else (state.amsdutx skb.key).msduTmpBuf.length < defaultTxamsduSubMaxBw80 * 2 ∧
        ((state.amsdutx skb.key).msduTmpBuf.map Skb.framelen).sum + skb.framelen +
          etherHeaderLen ≤ state.amsduMaxLength skb.key.station

/-- The records of an array that an MSDU fits stay inside the descriptor. -/
theorem append_inside {setup : Setup} (fits : Fits setup state skb (state.amsdutx skb.key)) :
    Inside ((append skb state).amsdutx skb.key).msduTmpBuf.length := by
  have few : state.subMax skb.key.station ≤ defaultTxamsduSubMaxBw80 := by
    rw [TxState.subMax]
    split
    next => exact Nat.le_refl _
    next => decide
  have length : ((append skb state).amsdutx skb.key).msduTmpBuf.length =
      (state.amsdutx skb.key).msduTmpBuf.length + 1 := by
    simp [append]
  have most := Nat.le_trans fits.2.1 few
  rw [length]
  simp only [Inside, pktInfoOffset, sizeofPktInfo, sizeofTxdesc]
  simp only [defaultTxamsduSubMaxBw80] at most
  omega

private theorem small_of_not_alone (shared : ¬ Alone skb) : skb.Small := by
  rw [Alone, not_or, Nat.not_lt] at shared
  exact shared.1

variable (may) in
/-- A step of the tasklet on the MSDU in hand. -/
theorem work_kept {setup : Setup} {first second : Outcome} (shape : Shape state)
    (sound : state.books.Sound) (taken : state.tasklet = .taken skb)
    (ready : WorkReady setup first second skb state)
    (refusedFirst : first.txinfo = false → may skb.key)
    (refusedSecond : second.txinfo = false → may skb.key) :
    let later : TxState :=
      { wifiMacAmsduEx setup first second skb state with tasklet := .returned }
    Shape later ∧ Evolves may state.books later.books ∧ later.offered = state.offered := by
  dsimp only
  rw [WorkReady] at ready
  rw [wifiMacAmsduEx]
  split at ready
  next alone =>
    rw [if_pos alone]
    have makes := fun (_ : first.memory.isSome = true)
      (nonempty : (state.amsdutx skb.key).msduTmpBuf ≠ []) => (ready.1 nonempty).2
    obtain ⟨tmp, -, tasklet, offered, -⟩ := aggrSend_frame shape makes
    have nothing : ((aggrSend first skb.key state).amsdutx skb.key).msduTmpBuf = [] := by
      rw [tmp]
      split
      next => rfl
      next missing =>
        by_contra nonempty
        exact missing (ready.1 nonempty).1
    obtain ⟨shaped, evolved⟩ := aggrSend_kept may shape sound makes refusedFirst
    obtain ⟨last, moved, same⟩ :=
      alone_kept shaped (tasklet.trans taken) nothing ready.2 refusedSecond
    exact ⟨last, evolved.trans moved, same.trans offered⟩
  next shared =>
    have small := small_of_not_alone shared
    rw [if_neg shared]
    obtain ⟨stamped, books⟩ := @stamp_kept state skb.key shape
    obtain ⟨tasklet, offered, longest, tmp⟩ := @stamp_frame state skb.key
    obtain ⟨timed, timed_eq⟩ : ∃ timed, timed = stamp skb.key state := ⟨_, rfl⟩
    rw [← timed_eq] at stamped books tasklet offered longest tmp ready ⊢
    split at ready
    next fits =>
      simp only [if_pos fits]
      have room : ((timed.amsdutx skb.key).msduTmpBuf.map Skb.framelen).sum + skb.framelen +
          etherHeaderLen ≤ timed.amsduMaxLength skb.key.station := by
        have counted := (stamped.queues skb.key).counted
        have within := Nat.le_trans fits.1 (Nat.min_le_left _ _)
        omega
      obtain ⟨shaped, same⟩ := append_kept stamped (tasklet.trans taken) small room
      split
      next full =>
        have empty : ((append skb timed).amsdutx skb.key).amsduTxBuf = none :=
          (shaped.queues skb.key).empty
        rw [aggrSend_tasklet empty]
        -- The array has no more MSDUs than `wifi_mac_amsdu_ex` lets an A-MSDU have.
        have makes := fun (found : first.memory.isSome = true)
          (_ : ((append skb timed).amsdutx skb.key).msduTmpBuf ≠ []) =>
          (⟨ready full found, append_inside fits⟩ : Makes first _)
        have sameSound : ({ append skb timed with tasklet := .returned } : TxState).books.Sound := by
          rw [same, books]
          exact sound
        obtain ⟨last, moved⟩ := aggrSend_kept may shaped sameSound makes refusedFirst
        have kept := (aggrSend_frame shaped makes).2.2.2.1
        rw [← aggrSend_tasklet empty] at kept
        refine ⟨last, ?_, kept.trans offered⟩
        rw [same, books] at moved
        exact moved
      next =>
        refine ⟨shaped, ?_, offered⟩
        rw [same, books]
    next tight =>
      simp only [if_neg tight]
      have makes : first.memory.isSome = true → (timed.amsdutx skb.key).msduTmpBuf ≠ [] →
          Makes first (timed.amsdutx skb.key).msduTmpBuf := by
        intro found nonempty
        rw [tmp] at nonempty ⊢
        have met := ready nonempty
        rwa [if_pos found] at met
      have timedSound : timed.books.Sound := by
        rw [books]
        exact sound
      obtain ⟨shaped, evolved⟩ := aggrSend_kept may stamped timedSound makes refusedFirst
      obtain ⟨left, -, sameTasklet, sameOffered, sameLongest⟩ := aggrSend_frame stamped makes
      have bounds : ((aggrSend first skb.key timed).amsdutx skb.key).msduTmpBuf.length <
            defaultTxamsduSubMaxBw80 * 2 ∧
          (((aggrSend first skb.key timed).amsdutx skb.key).msduTmpBuf.map Skb.framelen).sum +
              skb.framelen + etherHeaderLen ≤
            (aggrSend first skb.key timed).amsduMaxLength skb.key.station := by
        rw [left, tmp, sameLongest, longest]
        have alone_fits : skb.framelen + etherHeaderLen ≤ state.amsduMaxLength skb.key.station := by
          have wide := shape.wide skb.key.station
          simp only [Skb.Small, amsduMaxSubfrmLen] at small
          simp only [htSize, Bool.false_eq_true, if_false, etherHeaderLen] at wide ⊢
          omega
        by_cases nothing : (state.amsdutx skb.key).msduTmpBuf = []
        · simpa [nothing, defaultTxamsduSubMaxBw80] using alone_fits
        · have met := ready nothing
          by_cases found : first.memory.isSome = true
          · simpa [found, defaultTxamsduSubMaxBw80] using alone_fits
          · rw [if_neg found] at met ⊢
            exact met
      have undropped : dropFull skb.key (aggrSend first skb.key timed) =
          aggrSend first skb.key timed := if_pos bounds.1
      rw [undropped]
      have stillTaken := sameTasklet.trans (tasklet.trans taken)
      obtain ⟨last, same⟩ := append_kept shaped stillTaken small bounds.2
      refine ⟨last, ?_, sameOffered.trans offered⟩
      rw [same, ← books]
      exact evolved

end Work

end W522a.TxAmsdu
