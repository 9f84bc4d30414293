import Mathlib.Algebra.Order.BigOperators.Group.List
import Mathlib.Algebra.Order.Group.Nat
import W522a.Lib.Run
import W522a.Mac.TxAmsduSteps

/-!
The runs of the aggregation in which every MSDU goes out once, in order, or is dropped and
completed once, and a run in which an MSDU overtakes another.
-/

namespace W522a.TxAmsdu

open Mac (etherHeaderLen)
open Books (Evolves Move Same)
open Machine (Along run)

variable {setup : Setup} {state : TxState} {key : Key} {skb : Skb} {outcome : Outcome}
  {may : Key → Prop}

section Tasklet

/-- The books of two states that hold the same and log the same. -/
theorem books_same {later : TxState} (offered : later.offered = state.offered)
    (air : later.air = state.air) (lost : later.lost = state.lost)
    (completed : later.completed ++ later.freeAmsduList = state.completed ++ state.freeAmsduList)
    (held : later.held = state.held) (counted : later.msduCnt = state.msduCnt) :
    later.books = state.books := by
  simp only [TxState.books, offered, air, lost, completed, held, counted]

/-- The books do not change when a queue changes but holds the same. -/
theorem put_books {queues : List Key} {tx : AmsduTx} {tasklet : Tasklet}
    (others : ∀ other, other ≠ key → tasklet.msdus other = state.tasklet.msdus other)
    (same : tx.msduTmpBuf ++ tasklet.msdus key ++ tx.msduList = state.held key) :
    ({ state.put key tx with wmAmsduTxq := queues, tasklet := tasklet } : TxState).books =
      state.books := by
  have placed := held_put tx tasklet others
  rw [same, Function.update_eq_self] at placed
  exact books_same rfl rfl rfl rfl placed rfl

private theorem drain_books : (drain state).books = state.books :=
  books_same rfl rfl rfl (List.append_nil _) rfl rfl

private theorem Shape.drain (shape : Shape state) : Shape (drain state) :=
  ⟨shape.alive, shape.queues, shape.wide, shape.honest⟩

/-- The tasklet has no MSDU in hand. -/
def TxState.Free (state : TxState) : Prop := ∀ key, state.tasklet.msdus key = []

theorem held_free {queues : List Key} {tasklet : Tasklet} (free : state.Free)
    (empty : ∀ key, tasklet.msdus key = []) :
    ({ state with wmAmsduTxq := queues, tasklet := tasklet } : TxState).held = state.held := by
  funext key
  simp only [TxState.held, free key, empty key]

/-- The loop of the tasklet takes an MSDU in hand, at most. -/
theorem scan_kept (keys : List Key) (shape : Shape state) (sound : state.books.Sound)
    (free : state.Free) :
    Shape (scan keys state) ∧ (scan keys state).books = state.books ∧
      (scan keys state).offered = state.offered := by
  induction keys generalizing state with
  | nil =>
    rw [scan]
    refine ⟨?_, drain_books.trans ?_, rfl⟩
    · exact Shape.drain ⟨shape.alive, shape.queues, shape.wide, shape.honest⟩
    · exact books_same rfl rfl rfl rfl (held_free free fun _ => rfl) rfl
  | cons key rest induction =>
    have shaped := shape.queues key
    simp only [scan]
    split
    next skb others listed =>
      have shape_put := shape.put
        (⟨shaped.empty, shaped.small, shaped.counted, shaped.room⟩ :
          ({ state.amsdutx key with msduList := others } : AmsduTx).Shaped _)
      refine ⟨⟨shape_put.alive, shape_put.queues, shape_put.wide, shape_put.honest⟩, ?_, rfl⟩
      have member : skb ∈ state.held key := by
        rw [TxState.held, listed]
        exact List.mem_append_right _ (.head _)
      have own : skb.key = key := sound.relay.held_lane member
      apply put_books
      · intro other distinct
        rw [free other, msdus_taken_other (own ▸ distinct)]
      · subst own
        rw [msdus_taken, TxState.held, listed, free skb.key, List.append_nil, List.append_assoc]
        rfl
    next nothing =>
      split
      next empty =>
        have shape_put := shape.put
          (⟨shaped.empty, shaped.small, shaped.counted, shaped.room⟩ :
            ({ state.amsdutx key with bWork := false } : AmsduTx).Shaped _)
        have books : (state.put key { state.amsdutx key with bWork := false }).books =
            state.books := put_books (fun _ _ => rfl) rfl
        have sound_put : (state.put key { state.amsdutx key with bWork := false }).books.Sound := by
          rw [books]
          exact sound
        obtain ⟨last, kept, offered⟩ := induction shape_put sound_put free
        exact ⟨last, kept.trans books, offered⟩
      next =>
        refine ⟨?_, drain_books.trans ?_, rfl⟩
        · exact Shape.drain ⟨shape.alive, shape.queues, shape.wide, shape.honest⟩
        · exact books_same rfl rfl rfl rfl (held_free free fun _ => rfl) rfl

end Tasklet

section Flush

/-- The state once some MSDUs of a queue are on the free list. -/
def freed (key : Key) (skbs : List Skb) (state : TxState) : TxState :=
  { state.uncount key.tid skbs.length with
    freeAmsduList := state.freeAmsduList ++ skbs.map TxBuf.msdu
    lost := state.lost ++ skbs }

theorem freed_nil : freed key [] state = state := by
  have same : Function.update state.msduCnt key.tid (state.msduCnt key.tid) = state.msduCnt :=
    Function.update_eq_self _ _
  have counts := @uncount_msduCnt state key.tid 0
  rw [Nat.sub_zero, same] at counts
  simp only [freed, List.length_nil, counts, List.map_nil, List.append_nil]
  rfl

theorem freed_cons (own : skb.key = key) (skbs : List Skb) :
    freed key skbs (setFree (.msdu skb) state) = freed key (skb :: skbs) state := by
  have counts : ((state.uncount key.tid 1).uncount key.tid skbs.length).msduCnt =
      (state.uncount key.tid (skbs.length + 1)).msduCnt := by
    rw [uncount_msduCnt, uncount_msduCnt, uncount_msduCnt, Function.update_idem,
      Function.update_self, Nat.sub_sub, Nat.add_comm 1]
  subst own
  simp only [freed, setFree, TxBuf.key, TxBuf.members, List.length_cons, List.length_nil,
    Nat.zero_add, List.map_cons]
  simp only [TxState.uncount] at counts ⊢
  simp only [counts, List.append_assoc, List.cons_append, List.nil_append]

private theorem freeMsduList_eq (own : ∀ skb ∈ (state.amsdutx key).msduList, skb.key = key) :
    freeMsduList key state = freed key (state.amsdutx key).msduList
      (state.put key { state.amsdutx key with msduList := [] }) := by
  have each : ∀ (skbs : List Skb) (state : TxState), (∀ skb ∈ skbs, skb.key = key) →
      skbs.foldl (fun state skb => setFree (.msdu skb) state) state = freed key skbs state := by
    intro skbs
    induction skbs with
    | nil =>
      intro state _
      exact freed_nil.symm
    | cons skb rest induction =>
      intro state same
      rw [List.foldl_cons, induction _ fun other listed => same other (.tail _ listed)]
      exact freed_cons (same skb (.head _)) rest
  exact each _ _ own

/-- The array is emptied when there are nodes for its MSDUs. -/
theorem freeTmpBuf_eq (skbs : List Skb) (own : ∀ skb ∈ skbs, skb.key = key)
    (whole : (state.amsdutx key).msduTmpBuf = skbs.reverse)
    (enough : skbs.length ≤ state.freeNodes) :
    freeTmpBuf key skbs state = freed key skbs
      { state.put key { state.amsdutx key with msduTmpBuf := [] } with
        freeNodes := state.freeNodes - skbs.length } := by
  induction skbs generalizing state with
  | nil =>
    rw [List.reverse_nil] at whole
    have same : ({ state.amsdutx key with msduTmpBuf := [] } : AmsduTx) = state.amsdutx key := by
      rw [← whole]
    rw [freed_nil, same, put_same]
    rfl
  | cons skb before induction =>
    have some_nodes : ¬ state.freeNodes = 0 := by
      simp only [List.length_cons] at enough
      omega
    have others := fun other listed => own other (.tail skb listed)
    have queue : ((setFree (.msdu skb) { state.put key
        { state.amsdutx key with msduTmpBuf := before.reverse } with
          freeNodes := state.freeNodes - 1 }).amsdutx key).msduTmpBuf = before.reverse := by
      simp [setFree, TxState.uncount, TxState.put]
    have nodes : before.length ≤ (setFree (.msdu skb) { state.put key
        { state.amsdutx key with msduTmpBuf := before.reverse } with
          freeNodes := state.freeNodes - 1 }).freeNodes := by
      simp only [List.length_cons] at enough
      simp only [setFree, TxState.uncount]
      omega
    have stepped : freeTmpBuf key (skb :: before) state = freeTmpBuf key before
        (setFree (.msdu skb) { state.put key
          { state.amsdutx key with msduTmpBuf := before.reverse } with
            freeNodes := state.freeNodes - 1 }) := by
      rw [freeTmpBuf]
      exact if_neg some_nodes
    rw [stepped, induction others queue nodes, ← freed_cons (own skb (.head _))]
    congr 1
    have count : state.freeNodes - 1 - before.length = state.freeNodes - (skb :: before).length := by
      simp only [List.length_cons]
      omega
    simp only [setFree, TxState.uncount, TxState.put, Function.update_idem, Function.update_self,
      count]
    rfl

/-- The queue of a key that a flush emptied. -/
def AmsduTx.flushed (tx : AmsduTx) : AmsduTx :=
  { tx with bWork := false, msduList := [], msduTmpBuf := [] }

def flushQueue (key : Key) (state : TxState) : TxState :=
  let tx := state.amsdutx key
  freed key tx.msduTmpBuf.reverse
    { freed key tx.msduList (state.put key tx.flushed) with
      freeNodes := state.freeNodes - tx.msduTmpBuf.length }

theorem flushQueue_eq (shape : Shape state) (own : ∀ skb ∈ state.held key, skb.key = key)
    (enough : (state.amsdutx key).msduTmpBuf.length ≤ state.freeNodes) :
    (let idle := state.put key { state.amsdutx key with bWork := false }
     (freeTxBuf key idle).1 = true ∧
      freeTmpBuf key ((freeMsduList key (freeTxBuf key idle).2).amsdutx key).msduTmpBuf.reverse
        (freeMsduList key (freeTxBuf key idle).2) = flushQueue key state) := by
  have empty := (shape.queues key).empty
  have none_there : freeTxBuf key (state.put key { state.amsdutx key with bWork := false }) =
      (true, state.put key { state.amsdutx key with bWork := false }) := by
    simp [freeTxBuf, TxState.put, empty]
  have listOwn : ∀ skb ∈ (state.amsdutx key).msduList, skb.key = key :=
    fun skb listed => own skb (List.mem_append_right _ listed)
  have tmpOwn : ∀ skb ∈ (state.amsdutx key).msduTmpBuf.reverse, skb.key = key := by
    intro skb listed
    apply own
    rw [TxState.held, List.append_assoc]
    exact List.mem_append_left _ (List.mem_reverse.mp listed)
  have listFree : freeMsduList key (state.put key { state.amsdutx key with bWork := false }) =
      freed key (state.amsdutx key).msduList (state.put key
        { state.amsdutx key with bWork := false, msduList := [] }) := by
    rw [freeMsduList_eq]
    · simp only [put_amsdutx, Function.update_self, put_put]
    · simpa using listOwn
  dsimp only
  rw [none_there]
  refine ⟨rfl, ?_⟩
  rw [listFree]
  have tmp : ((freed key (state.amsdutx key).msduList (state.put key
      { state.amsdutx key with bWork := false, msduList := [] })).amsdutx key).msduTmpBuf =
        (state.amsdutx key).msduTmpBuf := by
    simp [freed, TxState.uncount, TxState.put]
  rw [tmp, freeTmpBuf_eq _ tmpOwn (by rw [tmp, List.reverse_reverse])
    (by simpa [freed, TxState.uncount, TxState.put] using enough), flushQueue]
  congr 1
  simp [freed, TxState.uncount, TxState.put, AmsduTx.flushed]

private theorem Shape.freed (shape : Shape state) (skbs : List Skb) :
    Shape (freed key skbs state) :=
  ⟨shape.alive, shape.queues, shape.wide, shape.honest⟩

private theorem flushQueue_kept (shape : Shape state) (free : state.Free) (allowed : may key) :
    Shape (flushQueue key state) ∧ Evolves may state.books (flushQueue key state).books := by
  have shaped := shape.queues key
  obtain ⟨tmp, tmp_eq⟩ : ∃ tmp, tmp = (state.amsdutx key).msduTmpBuf := ⟨_, rfl⟩
  obtain ⟨list, list_eq⟩ : ∃ list, list = (state.amsdutx key).msduList := ⟨_, rfl⟩
  have emptied : (state.amsdutx key).flushed.Shaped (state.amsduMaxLength key.station) :=
    ⟨shaped.empty, List.forall_mem_nil _, Nat.zero_le _, fun nonempty => absurd rfl nonempty⟩
  have split : state.held key = (tmp ++ list) ++ [] := by
    rw [TxState.held, free key, tmp_eq, list_eq, List.append_nil, List.append_nil]
  refine ⟨?_, ?_⟩
  · have first : Shape { freed key list (state.put key (state.amsdutx key).flushed) with
        freeNodes := state.freeNodes - tmp.length } := by
      have whole : Shape (freed key list (state.put key (state.amsdutx key).flushed)) :=
        (shape.put emptied).freed list
      exact ⟨whole.alive, whole.queues, whole.wide, whole.honest⟩
    rw [flushQueue, ← tmp_eq, ← list_eq]
    exact first.freed tmp.reverse
  apply (Relation.ReflTransGen.single (Move.lose split allowed)).tail
  apply Move.same
  have shuffled : (list ++ tmp.reverse).Perm (tmp ++ list) :=
    List.perm_append_comm.trans (List.Perm.append_right list (List.reverse_perm tmp))
  rw [flushQueue, ← tmp_eq, ← list_eq]
  exact
    { offered := rfl
      sent := rfl
      lost := by
        have lost : (state.lost ++ list ++ tmp.reverse).Perm (state.lost ++ (tmp ++ list)) := by
          rw [List.append_assoc]
          exact List.Perm.append_left _ shuffled
        exact lost
      returned := by
        have returned : ((state.completed ++ (state.freeAmsduList ++ list.map TxBuf.msdu ++
            tmp.reverse.map TxBuf.msdu)).flatMap TxBuf.own).Perm
              ((state.completed ++ state.freeAmsduList).flatMap TxBuf.own ++ (tmp ++ list)) := by
          simp only [List.flatMap_append, own_map, List.append_assoc]
          exact List.Perm.append_left _ (List.Perm.append_left _ shuffled)
        exact returned
      held := by
        have placed := @held_put state key (state.amsdutx key).flushed
          state.tasklet fun _ _ => rfl
        have nothing : (state.amsdutx key).flushed.msduTmpBuf ++ state.tasklet.msdus key ++
            (state.amsdutx key).flushed.msduList = [] := by
          rw [free key]
          rfl
        rw [nothing] at placed
        exact placed
      counted := by
        have first := @uncount_msduCnt (state.put key (state.amsdutx key).flushed) key.tid
          list.length
        have second := @uncount_msduCnt { freed key list
          (state.put key (state.amsdutx key).flushed) with
            freeNodes := state.freeNodes - tmp.length } key.tid tmp.reverse.length
        have middle : ({ freed key list (state.put key (state.amsdutx key).flushed) with
            freeNodes := state.freeNodes - tmp.length } : TxState).msduCnt =
              Function.update state.msduCnt key.tid (state.msduCnt key.tid - list.length) := first
        refine second.trans ?_
        rw [middle, Function.update_idem, Function.update_self, Nat.sub_sub,
          List.length_reverse, Nat.add_comm, ← List.length_append]
        rfl }

theorem flushQueue_frame :
    (flushQueue key state).tasklet = state.tasklet ∧
      (flushQueue key state).offered = state.offered ∧
      (flushQueue key state).freeNodes =
        state.freeNodes - (state.amsdutx key).msduTmpBuf.length ∧
      (flushQueue key state).amsdutx =
        Function.update state.amsdutx key (state.amsdutx key).flushed :=
  ⟨rfl, rfl, rfl, rfl⟩

/-- The MSDUs in the arrays of the queues that a flush works on. -/
def flushNodes (setup : Setup) (vid : Nat) (keys : List Key) (state : TxState) : Nat :=
  ((keys.filter fun key => Hit setup vid key).map fun key =>
    (state.amsdutx key).msduTmpBuf.length).sum

private theorem flushNodes_le {vid : Nat} (keys : List Key) :
    flushNodes setup vid keys (flushQueue key state) ≤ flushNodes setup vid keys state := by
  rw [flushNodes, flushNodes]
  apply List.sum_le_sum
  intro other _
  rw [flushQueue_frame.2.2.2]
  by_cases here : other = key
  · subst here
    simp [AmsduTx.flushed]
  · rw [Function.update_of_ne here]

variable (may) in
/-- A flush empties the queues of its interface when there are nodes for their arrays. -/
theorem flush_kept {vid : Nat} (keys notFree : List Key) (shape : Shape state)
    (sound : state.books.Sound) (free : state.Free)
    (enough : flushNodes setup vid keys state ≤ state.freeNodes)
    (allowed : ∀ key, Hit setup vid key → may key) :
    Shape (wifiMacTxamsduFreeAll setup vid keys notFree state) ∧
      Evolves may state.books (wifiMacTxamsduFreeAll setup vid keys notFree state).books ∧
      (wifiMacTxamsduFreeAll setup vid keys notFree state).offered = state.offered := by
  induction keys generalizing state notFree with
  | nil => exact ⟨⟨shape.alive, shape.queues, shape.wide, shape.honest⟩, .refl, rfl⟩
  | cons key rest induction =>
    rw [wifiMacTxamsduFreeAll]
    split
    next hit =>
      have nodes : flushNodes setup vid (key :: rest) state =
          (state.amsdutx key).msduTmpBuf.length + flushNodes setup vid rest state := by
        simp [flushNodes, hit]
      have own : ∀ skb ∈ state.held key, skb.key = key :=
        fun skb held => sound.relay.held_lane held
      obtain ⟨freed, flushed⟩ := flushQueue_eq shape own (by omega)
      obtain ⟨shaped, evolved⟩ := flushQueue_kept shape free (allowed key hit)
      simp only [freed, if_true, flushed]
      have less := @flushNodes_le setup state key vid rest
      have left : flushNodes setup vid rest (flushQueue key state) ≤
          (flushQueue key state).freeNodes := by
        rw [flushQueue_frame.2.2.1]
        omega
      obtain ⟨last, moved, offered⟩ := induction notFree shaped (Evolves.sound evolved sound) free left
      exact ⟨last, evolved.trans moved, offered⟩
    next =>
      have fewer : flushNodes setup vid rest state ≤ state.freeNodes := by
        rwa [flushNodes, List.filter_cons_of_neg (by simpa using ‹¬ Hit setup vid key›)] at enough
      exact induction (notFree ++ [key]) shape sound free fewer

end Flush

section Send

/-- `wifi_mac_amsdu_send` keeps an MSDU for this station while there is a node. -/
def Kept (setup : Setup) (key : Key) (state : TxState) : Prop :=
  setup.staAmsdu key.station = true ∧
    fragmtThresholdMax ≤ setup.vmFragthreshold (setup.vid key.station) ∧
    setup.vmOpmode (setup.vid key.station) ≠ .other ∧ 0 < state.freeNodes

instance : Decidable (Kept setup key state) := inferInstanceAs (Decidable (_ ∧ _ ∧ _ ∧ _))

theorem wifiMacAmsduSend_kept :
    (wifiMacAmsduSend setup skb state).1 = true ↔ Kept setup skb.key state := by
  rw [wifiMacAmsduSend, Kept]
  cases setup.staAmsdu skb.key.station with
  | false => simp
  | true =>
    by_cases settings : setup.vmFragthreshold (setup.vid skb.key.station) < fragmtThresholdMax ∨
        setup.vmOpmode (setup.vid skb.key.station) = .other
    · have refused : ¬ (fragmtThresholdMax ≤ setup.vmFragthreshold (setup.vid skb.key.station) ∧
          setup.vmOpmode (setup.vid skb.key.station) ≠ .other) := by
        rintro ⟨high, usual⟩
        rcases settings with low | other
        · omega
        · exact usual other
      simp only [Bool.true_eq_false, if_false, if_pos settings, Bool.false_eq_true, true_and]
      exact ⟨False.elim, fun all => refused ⟨all.1, all.2.1⟩⟩
    · rw [not_or, Nat.not_lt] at settings
      by_cases none_left : state.freeNodes = 0
      · simp [Nat.not_lt.mpr settings.1, settings.2, none_left]
      · simp [Nat.not_lt.mpr settings.1, settings.2, none_left, settings.1,
          Nat.pos_of_ne_zero none_left]

theorem wifiMacAmsduSend_refused (refused : ¬ Kept setup skb.key state) :
    wifiMacAmsduSend setup skb state = (false, state) := by
  have not_kept : (wifiMacAmsduSend setup skb state).1 ≠ true :=
    fun kept => refused (wifiMacAmsduSend_kept.mp kept)
  rw [wifiMacAmsduSend] at not_kept ⊢
  split at not_kept
  next missing => simp [missing]
  next present =>
    split at not_kept
    next settings => simp [present, settings]
    next usual =>
      split at not_kept
      next none_left => simp [present, usual, none_left]
      next => exact absurd rfl not_kept

/-- The state in which `wifi_mac_amsdu_send` takes an MSDU. -/
def TxState.offer (state : TxState) (skb : Skb) : TxState :=
  { state with offered := state.offered ++ [skb] }

/-- An MSDU that is kept waits at the end of its queue. -/
theorem send_kept (shape : Shape state) (new : skb ∉ state.offered)
    (kept : Kept setup skb.key state) :
    (wifiMacAmsduSend setup skb (state.offer skb)).1 = true ∧
      Shape (wifiMacAmsduSend setup skb (state.offer skb)).2 ∧
      Evolves may state.books (wifiMacAmsduSend setup skb (state.offer skb)).2.books ∧
      (wifiMacAmsduSend setup skb (state.offer skb)).2.offered = state.offered ++ [skb] := by
  have shaped := shape.queues skb.key
  have taken : (wifiMacAmsduSend setup skb (state.offer skb)).1 = true :=
    wifiMacAmsduSend_kept.mpr kept
  refine ⟨taken, ?_⟩
  obtain ⟨tx, tx_eq⟩ : ∃ tx : AmsduTx, tx = { state.amsdutx skb.key with
      msduList := (state.amsdutx skb.key).msduList ++ [skb], bWork := true } := ⟨_, rfl⟩
  have later : (wifiMacAmsduSend setup skb (state.offer skb)).2 =
      { (state.offer skb).put skb.key tx with
        freeNodes := state.freeNodes - 1
        msduCnt := Function.update state.msduCnt skb.key.tid (state.msduCnt skb.key.tid + 1)
        wmAmsduTxq := if (state.amsdutx skb.key).bWork then state.wmAmsduTxq
          else state.wmAmsduTxq ++ [skb.key] } := by
    rw [wifiMacAmsduSend] at taken ⊢
    simp only at taken ⊢
    split at taken
    next => exact absurd taken (by simp)
    next present =>
      split at taken
      next => exact absurd taken (by simp)
      next usual =>
        split at taken
        next => exact absurd taken (by simp)
        next some_left =>
          rw [if_neg present, if_neg usual, if_neg some_left, tx_eq]
          rfl
  have shaped_put : Shape ((state.offer skb).put skb.key tx) := by
    have before : Shape (state.offer skb) := ⟨shape.alive, shape.queues, shape.wide, shape.honest⟩
    apply before.put
    rw [tx_eq]
    exact ⟨shaped.empty, shaped.small, shaped.counted, shaped.room⟩
  rw [later]
  refine ⟨⟨shaped_put.alive, shaped_put.queues, shaped_put.wide, shaped_put.honest⟩, ?_, rfl⟩
  apply (Relation.ReflTransGen.single (Move.offer new)).tail
  apply Move.same
  exact
    { offered := rfl
      sent := rfl
      lost := .rfl
      returned := .rfl
      held := by
        have placed := @held_put (state.offer skb) skb.key tx state.tasklet fun _ _ => rfl
        have longer : tx.msduTmpBuf ++ state.tasklet.msdus skb.key ++ tx.msduList =
            state.held skb.key ++ [skb] := by
          rw [tx_eq, TxState.held]
          simp
        rw [longer] at placed
        exact placed
      counted := rfl }

variable (may) in
/-- An MSDU that is not kept goes out when nothing is held for its queue. -/
theorem sendAlone_kept (shape : Shape state) (new : skb ∉ state.offered)
    (nothing : state.held skb.key = []) (encap : outcome.encap = true)
    (refused : outcome.txinfo = false → may skb.key) :
    Shape (sendAlone outcome skb (state.offer skb)) ∧
      Evolves may state.books (sendAlone outcome skb (state.offer skb)).books ∧
      (sendAlone outcome skb (state.offer skb)).offered = state.offered ++ [skb] := by
  have split : (state.books.offer skb).relay.held skb.key = [skb] ++ [] := by
    have here : (state.books.offer skb).relay.held skb.key = state.held skb.key ++ [skb] :=
      Function.update_self _ _ _
    rw [here, nothing]
    rfl
  have heldBack : Function.update (Function.update state.held skb.key
      (state.held skb.key ++ [skb])) skb.key [] = state.held := by
    rw [Function.update_idem, ← nothing, Function.update_eq_self]
  have countBack : Function.update (Function.update state.msduCnt skb.key.tid
      (state.msduCnt skb.key.tid + 1)) skb.key.tid
        (Function.update state.msduCnt skb.key.tid (state.msduCnt skb.key.tid + 1) skb.key.tid -
          1) = state.msduCnt := by
    rw [Function.update_idem, Function.update_self, Nat.add_sub_cancel, Function.update_eq_self]
  have offered : Move may state.books (state.books.offer skb) := Move.offer new
  rw [sendAlone]
  simp only [encap, Bool.not_true, Bool.false_eq_true, if_false]
  cases accepted : outcome.txinfo with
  | true =>
    simp only [Bool.not_true, Bool.false_eq_true, if_false]
    refine ⟨⟨shape.alive, shape.queues, shape.wide, fun sent listed => ?_⟩, ?_, rfl⟩
    · rcases List.mem_append.mp listed with old | last
      · exact shape.honest sent old
      · rw [List.mem_singleton.mp last]
        refine ⟨rfl, fun other listed => ?_, Nat.zero_le _⟩
        rw [List.mem_singleton.mp listed]
        rfl
    · have part : ([] : List Skb).Sublist [skb] := List.nil_sublist _
      apply ((Relation.ReflTransGen.single offered).tail (Move.send split part)).tail
      apply Move.same
      exact
        { offered := rfl
          sent := by
            simp [TxState.books, TxState.offer, Books.send, Books.offer, Relay.send, Relay.offer,
              TxBuf.members]
          lost := .rfl
          returned := by
            have same : (state.books.offer skb).relay.returned ++ [] =
                state.books.relay.returned := List.append_nil _
            exact .of_eq same.symm
          held := heldBack.symm
          counted := countBack.symm }
  | false =>
    simp only [Bool.not_false, if_true]
    refine ⟨⟨shape.alive, shape.queues, shape.wide, shape.honest⟩, ?_, rfl⟩
    apply ((Relation.ReflTransGen.single offered).tail (Move.lose split (refused accepted))).tail
    apply Move.same
    exact
      { offered := rfl
        sent := rfl
        lost := .rfl
        returned := @returned_perm (state.offer skb) [.msdu skb]
        held := heldBack.symm
        counted := countBack.symm }

end Send

section Run

/-- What the device and its memory must do in a step: a node or an empty queue for an MSDU, memory
where `WorkReady` says, an A-MSDU that can be handed down where one is made, nodes for the arrays
that a flush empties, and no shorter agreed length than what an array already has. -/
def Ready (setup : Setup) (state : TxState) : TxEvent → Prop
  | .send key _ outcome =>
    Kept setup key state ∨ (state.held key = [] ∧ outcome.encap = true)
  | .work first second =>
    match state.tasklet with
    | .taken skb => WorkReady setup first second skb state
    | _ => True
  | .age outcome =>
    match state.tasklet with
    | .checking key =>
      state.aged setup (state.amsdutx key) = true → outcome.memory.isSome = true →
        Makes outcome (state.amsdutx key).msduTmpBuf
    | _ => True
  | .flush vid =>
    state.tasklet = .idle → flushNodes setup vid state.wmAmsduTxq state ≤ state.freeNodes
  | .htcap station maxamsdusize => Room station (htSize maxamsdusize)
  | .vhtcap station vht => Room station vht.size
  | _ => True
where
  /-- The arrays of a station are no longer than a length. -/
  Room (station size : Nat) : Prop :=
    ∀ tid : Fin 8, (state.amsdutx ⟨station, tid⟩).msduTmpBuf ≠ [] →
      ((state.amsdutx ⟨station, tid⟩).msduTmpBuf.map Skb.framelen).sum + etherHeaderLen ≤ size

/-- A step that may drop MSDUs of a queue: a flush of its interface, or a frame without its key. -/
def TxEvent.Drops (setup : Setup) (key : Key) : TxEvent → Prop
  | .send _ _ outcome => outcome.txinfo = false
  | .work first second => first.txinfo = false ∨ second.txinfo = false
  | .age outcome => outcome.txinfo = false
  | .flush vid => Hit setup vid key
  | _ => False

/-- The state of a run that met the conditions. -/
structure Good (state : TxState) : Prop where
  shape : Shape state
  sound : state.books.Sound
  numbered : ∀ skb ∈ state.offered, skb.number < state.offered.length

private theorem Good.fresh (good : Good state) (key : Key) (msdu : Msdu) :
    (⟨state.offered.length, key, msdu⟩ : Skb) ∉ state.offered :=
  fun listed => Nat.lt_irrefl _ (good.numbered _ listed)

/-- The MSDUs keep their numbers when one is offered. -/
theorem Good.numbered_next (good : Good state) (key : Key) (msdu : Msdu) :
    ∀ skb ∈ state.offered ++ [(⟨state.offered.length, key, msdu⟩ : Skb)],
      skb.number < (state.offered ++ [(⟨state.offered.length, key, msdu⟩ : Skb)]).length := by
  intro skb listed
  rw [List.length_append]
  rcases List.mem_append.mp listed with old | last
  · exact Nat.lt_add_right 1 (good.numbered skb old)
  · rw [List.mem_singleton.mp last]
    exact Nat.lt_succ_self _

private theorem negotiate_kept {station size : Nat} (shape : Shape state)
    (wide : htSize false ≤ size)
    (room : Ready.Room state station size) : Shape (negotiate station size state) where
  alive := shape.alive
  queues := by
    intro key
    have shaped := shape.queues key
    refine ⟨shaped.empty, shaped.small, shaped.counted, fun nonempty => ?_⟩
    have old := shaped.room nonempty
    simp only [negotiate]
    by_cases here : key.station = station
    · rw [here, Function.update_self]
      have new := room key.tid (by rw [← here]; exact nonempty)
      rw [← here] at new ⊢
      exact Nat.le_min.mpr ⟨old, new⟩
    · rw [Function.update_of_ne here]
      exact old
  wide := by
    intro other
    have old := shape.wide other
    simp only [negotiate]
    by_cases here : other = station
    · subst here
      rw [Function.update_self]
      exact Nat.le_min.mpr ⟨old, wide⟩
    · rw [Function.update_of_ne here]
      exact old
  honest := shape.honest

private theorem free_of_not_taken (idle : ∀ skb, state.tasklet ≠ .taken skb) : state.Free := by
  intro key
  cases at_ : state.tasklet with
  | taken skb => exact absurd at_ (idle skb)
  | idle => rfl
  | returned => rfl
  | checking _ => rfl

private theorem send_step_kept {key : Key} {msdu : Msdu} {outcome : Outcome} (good : Good state)
    (ready : Ready setup state (.send key msdu outcome)) :
    Good (step setup state (.send key msdu outcome)) ∧
      Evolves (fun _ => outcome.txinfo = false) state.books
        (step setup state (.send key msdu outcome)).books := by
  obtain ⟨skb, skb_eq⟩ : ∃ skb : Skb, skb = ⟨state.offered.length, key, msdu⟩ := ⟨_, rfl⟩
  have own : skb.key = key := by rw [skb_eq]
  have new : skb ∉ state.offered := by
    rw [skb_eq]
    exact good.fresh key msdu
  have next : ∀ later : TxState, Shape later →
      Evolves (fun key => outcome.txinfo = false) state.books later.books →
        later.offered = state.offered ++ [skb] → Good later ∧
          Evolves (fun key => outcome.txinfo = false) state.books later.books := by
    intro later shaped evolved offered
    refine ⟨⟨shaped, evolved.sound good.sound, ?_⟩, evolved⟩
    rw [offered, skb_eq]
    exact good.numbered_next key msdu
  have stepped : step setup state (.send key msdu outcome) =
      if (wifiMacAmsduSend setup skb (state.offer skb)).1 then
        (wifiMacAmsduSend setup skb (state.offer skb)).2
      else sendAlone outcome skb (wifiMacAmsduSend setup skb (state.offer skb)).2 := by
    rw [skb_eq]
    rfl
  rw [stepped]
  by_cases kept : Kept setup key state
  · rw [← own] at kept
    obtain ⟨taken, shaped, evolved, offered⟩ := send_kept good.shape new kept
    rw [if_pos taken]
    exact next _ shaped evolved offered
  · have refused : wifiMacAmsduSend setup skb (state.offer skb) = (false, state.offer skb) := by
      apply wifiMacAmsduSend_refused
      rw [own]
      exact kept
    obtain ⟨nothing, encap⟩ := ready.resolve_left kept
    rw [← own] at nothing
    obtain ⟨shaped, evolved, offered⟩ := sendAlone_kept
      (fun _ => outcome.txinfo = false) good.shape new nothing encap fun failed => failed
    rw [refused]
    exact next _ shaped evolved offered

/-- A step that meets the conditions keeps the shape of the queues; the books evolve, and MSDUs
are dropped only where the step may drop them. -/
theorem step_kept {event : TxEvent} (good : Good state) (ready : Ready setup state event) :
    Good (step setup state event) ∧
      Evolves (fun key => event.Drops setup key) state.books (step setup state event).books := by
  obtain ⟨shape, sound, numbered⟩ := good
  -- A step that offers nothing is good when the shape is kept and the books evolve.
  have settled : ∀ later : TxState, Shape later →
      Evolves (fun key => event.Drops setup key) state.books later.books →
        later.offered = state.offered → Good later ∧
          Evolves (fun key => event.Drops setup key) state.books later.books := by
    intro later shaped evolved offered
    refine ⟨⟨shaped, evolved.sound sound, ?_⟩, evolved⟩
    rw [offered]
    exact numbered
  have unmoved : ∀ later : TxState, Shape later → later.books = state.books →
      later.offered = state.offered → Good later ∧
        Evolves (fun key => event.Drops setup key) state.books later.books := by
    intro later shaped same offered
    apply settled later shaped _ offered
    rw [same]
  have stuck := unmoved state shape rfl rfl
  cases event with
  | send key msdu outcome =>
    exact send_step_kept ⟨shape, sound, numbered⟩ ready
  | begin =>
    cases at_ : state.tasklet with
    | idle =>
      have free := free_of_not_taken (fun skb taken => by rw [at_] at taken; cases taken)
      obtain ⟨shaped, same, offered⟩ := scan_kept state.wmAmsduTxq shape sound free
      simp only [step, at_]
      exact unmoved _ shaped same offered
    | taken _ => simpa only [step, at_] using stuck
    | returned => simpa only [step, at_] using stuck
    | checking _ => simpa only [step, at_] using stuck
  | work first second =>
    cases at_ : state.tasklet with
    | taken skb =>
      simp only [Ready, at_] at ready
      obtain ⟨shaped, evolved, offered⟩ := work_kept
        (fun _ => first.txinfo = false ∨ second.txinfo = false) shape sound at_ ready
        Or.inl Or.inr
      simp only [step, at_]
      exact settled _ shaped evolved offered
    | idle => simpa only [step, at_] using stuck
    | returned => simpa only [step, at_] using stuck
    | checking _ => simpa only [step, at_] using stuck
  | resume =>
    cases at_ : state.tasklet with
    | returned =>
      have free : TxState.Free { state with freeNodes := state.freeNodes + 1 } :=
        free_of_not_taken (fun skb taken => by
          have same : state.tasklet = .taken skb := taken
          rw [at_] at same
          cases same)
      have shapedNode : Shape { state with freeNodes := state.freeNodes + 1 } :=
        ⟨shape.alive, shape.queues, shape.wide, shape.honest⟩
      obtain ⟨shaped, same, offered⟩ := scan_kept state.wmAmsduTxq shapedNode sound free
      have stepped : step setup state .resume =
          scan state.wmAmsduTxq { state with freeNodes := state.freeNodes + 1 } := by
        simp only [step, at_]
      rw [stepped]
      exact unmoved _ shaped same offered
    | taken _ => simpa only [step, at_] using stuck
    | idle => simpa only [step, at_] using stuck
    | checking _ => simpa only [step, at_] using stuck
  | age outcome =>
    cases at_ : state.tasklet with
    | checking key =>
      have free := free_of_not_taken (fun skb taken => by rw [at_] at taken; cases taken)
      simp only [Ready, at_] at ready
      have idled : ∀ later : TxState, later.tasklet = state.tasklet →
          ({ later with tasklet := .idle } : TxState).books = later.books := by
        intro later same
        refine books_same rfl rfl rfl rfl ?_ rfl
        have laterFree : later.Free := by
          intro other
          rw [same]
          exact free other
        exact held_free laterFree fun _ => rfl
      simp only [step, at_, checkAge]
      split
      next old =>
        have makes : outcome.memory.isSome = true → (state.amsdutx key).msduTmpBuf ≠ [] →
            Makes outcome (state.amsdutx key).msduTmpBuf := fun found _ => ready old found
        obtain ⟨shaped, evolved⟩ := aggrSend_kept (fun _ => outcome.txinfo = false) shape sound
          makes fun failed => failed
        obtain ⟨-, -, tasklet, offered, -⟩ := aggrSend_frame shape makes
        apply settled _ (shaped.tasklet .idle) _ offered
        rw [idled _ tasklet]
        exact evolved
      next => exact unmoved _ (shape.tasklet .idle) (idled state rfl) rfl
    | taken _ => simpa only [step, at_] using stuck
    | returned => simpa only [step, at_] using stuck
    | idle => simpa only [step, at_] using stuck
  | flush vid =>
    cases at_ : state.tasklet with
    | idle =>
      have free := free_of_not_taken (fun skb taken => by rw [at_] at taken; cases taken)
      obtain ⟨shaped, evolved, offered⟩ := flush_kept (fun key => Hit setup vid key)
        state.wmAmsduTxq [] shape sound free (ready at_) fun _ hit => hit
      simp only [step, at_]
      exact settled _ shaped evolved offered
    | taken _ => simpa only [step, at_] using stuck
    | returned => simpa only [step, at_] using stuck
    | checking _ => simpa only [step, at_] using stuck
  | tick => exact unmoved _ ⟨shape.alive, shape.queues, shape.wide, shape.honest⟩ rfl rfl
  | staBandwidth station is80 =>
    exact unmoved _ ⟨shape.alive, shape.queues, shape.wide, shape.honest⟩ rfl rfl
  | curChannel is80 =>
    exact unmoved _ ⟨shape.alive, shape.queues, shape.wide, shape.honest⟩ rfl rfl
  | htcap station maxamsdusize =>
    apply unmoved _ (negotiate_kept shape _ ready) rfl rfl
    cases maxamsdusize with
    | true => decide
    | false => exact Nat.le_refl _
  | vhtcap station vht =>
    apply unmoved _ (negotiate_kept shape _ ready) rfl rfl
    cases vht with
    | len3895 => decide
    | len7991 => decide
    | len11454 => decide

end Run

section Law

namespace TxState

variable (state : TxState)

/-- What the receive side makes of the frames of a queue. -/
def delivered (key : Key) : List (List UInt8) :=
  (state.air.filter fun sent => sent.buf.key = key).flatMap fun sent => sent.buf.split

/-- The MSDUs that were offered to a queue and not dropped, in order. -/
def remaining (key : Key) : List Skb :=
  (state.offered.filter fun skb => skb.key = key).filter fun skb => skb ∉ state.lost

end TxState

/-- The frames of a queue split into the MSDUs that it was offered, in order, each once, up to
those that it still holds and those that were dropped; a dropped MSDU is completed once, or about
to be; no A-MSDU is longer than agreed, or has records behind its descriptor; and a TID that holds
nothing counts nothing. -/
structure Law (state : TxState) : Prop where
  alive : state.crashed = false ∧ state.overrun = false
  inOrder : ∀ key, state.delivered key ++ (state.held key).map Skb.ethernet =
    (state.remaining key).map Skb.ethernet
  completedOnce : ∀ skb ∈ state.lost,
    ((state.completed ++ state.freeAmsduList).flatMap TxBuf.own).count skb = 1
  within : ∀ sent ∈ state.air, sent.buf.amsduLen ≤ sent.limit
  counted : ∀ tid, (∀ station, state.held ⟨station, tid⟩ = []) → state.msduCnt tid = 0

/-- Honest frames split into the MSDUs that were copied to them. -/
theorem delivered_eq {air : List Sent} (honest : ∀ sent ∈ air, sent.Honest) (key : Key) :
    (air.filter fun sent => sent.buf.key = key).flatMap (fun sent => sent.buf.split) =
      (Relay.along Skb.key key (air.flatMap fun sent => sent.buf.members)).map Skb.ethernet := by
  induction air with
  | nil => rfl
  | cons sent rest induction =>
    have first := honest sent (.head _)
    have others := induction fun other listed => honest other (.tail _ listed)
    rw [List.flatMap_cons, Relay.along_append, List.map_append, ← others]
    by_cases here : sent.buf.key = key
    · have own : ∀ skb ∈ sent.buf.members, skb.key = key :=
        fun skb listed => (first.own skb listed).trans here
      rw [List.filter_cons, if_pos (decide_eq_true here), List.flatMap_cons, first.split,
        Relay.along_all own]
    · have foreign : ∀ skb ∈ sent.buf.members, skb.key ≠ key :=
        fun skb listed same => here ((first.own skb listed).symm.trans same)
      rw [List.filter_cons, if_neg (by simpa using here), Relay.along_none foreign]
      rfl

private theorem Good.law (good : Good state) : Law state where
  alive := good.shape.alive
  inOrder := by
    intro key
    have ordered := good.sound.relay.inOrder key
    rw [TxState.delivered, delivered_eq good.shape.honest key, ← List.map_append]
    exact congrArg (List.map Skb.ethernet) ordered
  completedOnce := by
    intro skb lost
    exact List.count_eq_one_of_mem good.sound.relay.returnedOnce
      (good.sound.relay.lostReturned skb lost)
  within := fun sent listed => (good.shape.honest sent listed).within
  counted := by
    intro tid idle
    apply good.sound.idle_counted tid
    rintro ⟨station, other⟩ here
    subst here
    exact idle station

private theorem attached_good (vht : Nat → VhtMpdu) (maxamsdusize : Nat → Bool) :
    Good (attached vht maxamsdusize) where
  shape :=
    { alive := ⟨rfl, rfl⟩
      queues := fun _ => ⟨rfl, List.forall_mem_nil _, Nat.le_refl _,
        fun nonempty => absurd rfl nonempty⟩
      wide := by
        intro station
        have size : htSize false ≤ (vht station).size := by
          cases vht station with
          | len3895 => decide
          | len7991 => decide
          | len11454 => decide
        have short : htSize false ≤ htSize (maxamsdusize station) := by
          cases maxamsdusize station with
          | true => decide
          | false => exact Nat.le_refl _
        exact Nat.le_min.mpr ⟨Nat.le_min.mpr ⟨by decide, size⟩, short⟩
      honest := List.forall_mem_nil _ }
  sound := ⟨Relay.empty_sound, fun _ => rfl⟩
  numbered := List.forall_mem_nil _

/-- In every run whose steps find what `Ready` says, the law of the aggregation holds, and only
MSDUs of an interface that was flushed or without its key are dropped. -/
theorem tx_amsdu_law (setup : Setup) (vht : Nat → VhtMpdu) (maxamsdusize : Nat → Bool)
    (events : List TxEvent)
    (ready : Along (step setup) (Ready setup) (attached vht maxamsdusize) events) :
    Law (run (step setup) (attached vht maxamsdusize) events) ∧
      ∀ key, (∀ event ∈ events, ¬ event.Drops setup key) →
        ∀ skb ∈ (run (step setup) (attached vht maxamsdusize) events).lost, skb.key ≠ key := by
  refine ⟨?_, fun key spared => ?_⟩
  · have kept : ∀ state event, Good state → Ready setup state event →
        Good (step setup state event) := fun state event good ready => (step_kept good ready).1
    exact (Along.invariant kept ready (attached_good vht maxamsdusize)).law
  · have kept : ∀ state event, (Good state ∧ ∀ skb ∈ state.lost, skb.key ≠ key) →
        (Ready setup state event ∧ ¬ event.Drops setup key) →
          Good (step setup state event) ∧ ∀ skb ∈ (step setup state event).lost, skb.key ≠ key := by
      rintro state event ⟨good, whole⟩ ⟨ready, spared⟩
      obtain ⟨later, evolved⟩ := step_kept good ready
      refine ⟨later, fun skb lost same => ?_⟩
      rcases evolved.lost good.sound skb lost with before | dropped
      · exact whole skb before same
      · rw [same] at dropped
        exact spared dropped
    have both := Machine.along_and.mpr ⟨ready, Machine.along_of_forall spared⟩
    exact (Along.invariant kept both ⟨attached_good vht maxamsdusize, List.forall_mem_nil _⟩).2

end Law

section Runs

instance workReadyDecidable (first second : Outcome) :
    Decidable (WorkReady setup first second skb state) :=
  inferInstanceAs (Decidable (ite _ _ _))

instance (station size : Nat) : Decidable (Ready.Room state station size) :=
  inferInstanceAs (Decidable (∀ _ : Fin 8, _ → _))

instance readyDecidable (setup : Setup) (state : TxState) :
    (event : TxEvent) → Decidable (Ready setup state event)
  | .send _ _ _ => inferInstanceAs (Decidable (_ ∨ _))
  | .work first second =>
    match at_ : state.tasklet with
    | .taken skb => decidable_of_iff (WorkReady setup first second skb state)
        (by simp only [Ready, at_])
    | .idle => .isTrue (by simp only [Ready, at_])
    | .returned => .isTrue (by simp only [Ready, at_])
    | .checking _ => .isTrue (by simp only [Ready, at_])
  | .age outcome =>
    match at_ : state.tasklet with
    | .checking key => decidable_of_iff
        (state.aged setup (state.amsdutx key) = true → outcome.memory.isSome = true →
          Makes outcome (state.amsdutx key).msduTmpBuf) (by simp only [Ready, at_])
    | .taken _ => .isTrue (by simp only [Ready, at_])
    | .idle => .isTrue (by simp only [Ready, at_])
    | .returned => .isTrue (by simp only [Ready, at_])
  | .flush _ => inferInstanceAs (Decidable (_ → _))
  | .htcap _ _ => inferInstanceAs (Decidable (Ready.Room _ _ _))
  | .vhtcap _ _ => inferInstanceAs (Decidable (Ready.Room _ _ _))
  | .begin => instDecidableTrue
  | .resume => instDecidableTrue
  | .tick => instDecidableTrue
  | .staBandwidth _ _ => instDecidableTrue
  | .curChannel _ => instDecidableTrue

/-- One station of an interface without fragmentation. -/
def plainSetup : Setup := ⟨250, fun _ => 0, fun _ => true, fun _ => fragmtThresholdMax, fun _ => .sta⟩

/-- Everything the device asks for is there. -/
def roomy : Outcome := ⟨some fun _ => 0, true, true⟩

/-- No memory for an A-MSDU. -/
def scarce : Outcome := ⟨none, true, true⟩

/-- A frame of a protocol with one byte. -/
def frameOf (etherType : { bytes : List UInt8 // bytes.length = 2 }) (body : UInt8) : Msdu :=
  ⟨⟨[2, 0, 0, 0, 0, 1], rfl⟩, ⟨[2, 0, 0, 0, 0, 2], rfl⟩, etherType, [body], false, {}⟩

/-- A frame of the Internet Protocol. -/
def ipFrame (body : UInt8) : Msdu := frameOf ⟨[0x08, 0x00], rfl⟩ body

/-- A frame of the Internet Protocol, version 6. -/
def ipv6Frame (body : UInt8) : Msdu := frameOf ⟨[0x86, 0xDD], rfl⟩ body

/-- A run of the tasklet for one MSDU. -/
def taskletFor (outcome : Outcome) : List TxEvent :=
  [.begin, .work outcome roomy, .resume, .age roomy]

/-- Two frames go out as an A-MSDU when the time has passed. -/
def twoFrames : List TxEvent :=
  [.send ⟨0, 0⟩ (ipFrame 1) roomy, .send ⟨0, 0⟩ (ipFrame 2) roomy, .begin, .work roomy roomy,
    .resume, .work roomy roomy, .resume, .age roomy, .tick, .tick, .tick, .begin, .age roomy]

theorem tx_amsdu_law_pair :
    ((run (step plainSetup) (attached (fun _ => .len3895) fun _ => false) twoFrames).air.map
        fun sent => sent.buf.members.length) = [2] ∧
      Law (run (step plainSetup) (attached (fun _ => .len3895) fun _ => false) twoFrames) :=
  ⟨by decide +kernel, (tx_amsdu_law plainSetup (fun _ => .len3895) (fun _ => false) twoFrames
    (by decide +kernel)).1⟩

/-- A frame that must not be aggregated finds no memory for the A-MSDU before it. -/
def overtaking : List TxEvent :=
  [.send ⟨0, 0⟩ (ipFrame 1) roomy] ++ taskletFor roomy ++
    [.send ⟨0, 0⟩ (ipv6Frame 2) roomy] ++ taskletFor scarce

/-- The frame on its own overtakes the one that still waits. -/
theorem tx_amsdu_overtakes :
    ¬ Law (run (step plainSetup) (attached (fun _ => .len3895) fun _ => false) overtaking) := by
  intro law
  have ordered := law.inOrder ⟨0, 0⟩
  have different : ¬ ((run (step plainSetup) (attached (fun _ => .len3895) fun _ => false)
        overtaking).delivered ⟨0, 0⟩ ++
      ((run (step plainSetup) (attached (fun _ => .len3895) fun _ => false)
        overtaking).held ⟨0, 0⟩).map Skb.ethernet =
      ((run (step plainSetup) (attached (fun _ => .len3895) fun _ => false)
        overtaking).remaining ⟨0, 0⟩).map Skb.ethernet) := by
    decide +kernel
  exact different ordered

end Runs

end W522a.TxAmsdu
