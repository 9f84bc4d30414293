import W522a.Lib.Slots
import W522a.Tx.Custody
import W522a.Tx.Pending
import W522a.Tx.Store

/-!
Where the frames of the driver are, over whole runs: each frame that was accepted is in one buffer
or completed, once, in every run in which the HAL takes what it has room for and no frame to be sent
again is thrown away.
-/

namespace W522a.Tx.Store

open Function (update)
open Tx.Lists (TidKey TxLists ListEnv focus load halNumTxQueues Holds Serves)

variable {Sta : Type}

/-- The frame of an attempt that finds room is taken. -/
def HalAnswer.Takes (answer : HalAnswer) : Prop := answer.bufferFull = false → answer.accepts = true

section Names

/-- The identities of the frames of a buffer. -/
def names (entries : List (Entry Sta)) : Multiset Nat := ids (entries.map Entry.ptxdesc)

@[simp] theorem names_nil : names ([] : List (Entry Sta)) = 0 := rfl

@[simp] theorem names_cons (entry : Entry Sta) (rest : List (Entry Sta)) :
    names (entry :: rest) = {entry.ptxdesc.id} + names rest := rfl

@[simp] theorem names_append (first second : List (Entry Sta)) :
    names (first ++ second) = names first + names second := by
  rw [names, List.map_append, ids_append]
  rfl

theorem names_filter (chosen : Entry Sta → Bool) (entries : List (Entry Sta)) :
    names (entries.filter (!chosen ·)) + names (entries.filter chosen) = names entries := by
  induction entries with
  | nil => rfl
  | cons entry rest induction =>
    rw [names_cons, ← induction]
    cases picked : chosen entry with
    | true =>
      rw [List.filter_cons_of_pos picked, List.filter_cons_of_neg (by simp [picked]), names_cons]
      ac_rfl
    | false =>
      rw [List.filter_cons_of_pos (by simp [picked]), List.filter_cons_of_neg (by simp [picked]),
        names_cons]
      ac_rfl

theorem names_eraseIdx {entries : List (Entry Sta)} {index : Nat} {entry : Entry Sta}
    (found : entries[index]? = some entry) :
    names (entries.eraseIdx index) + {entry.ptxdesc.id} = names entries := by
  have mapped : (entries.map Entry.ptxdesc)[index]? = some entry.ptxdesc := by
    rw [List.getElem?_map, found]
    rfl
  rw [names, names, ← ids_eraseIdx mapped, List.eraseIdx_map]

theorem names_orphan (chosen : Entry Sta → Bool) (entries : List (Entry Sta)) :
    names (entries.map fun entry => if chosen entry then entry.orphan else entry) =
      names entries := by
  induction entries with
  | nil => rfl
  | cons entry rest induction =>
    rw [List.map_cons, names_cons, names_cons, induction]
    split
    · rfl
    · rfl

theorem handOver_names {answers : Nat → HalAnswer} (takes : ∀ turn, (answers turn).Takes)
    (ready : Entry Sta → Bool) (turn : Nat) (entries : List (Entry Sta)) :
    let handed := handOver ready answers turn [] entries
    names handed.left + names handed.sent = names entries := by
  induction entries generalizing turn with
  | nil => rfl
  | cons entry rest induction =>
    rw [handOver]
    dsimp only
    split
    · rw [names_cons, names_cons, ← induction turn]
      ac_rfl
    · split
      · rw [names_nil, add_zero]
      · rename_i room
        have taken := takes turn (Bool.not_eq_true _ ▸ room)
        rw [if_pos (by rw [taken]; rfl), names_cons, names_cons, ← induction (turn + 1)]
        ac_rfl

end Names

section Whole

variable [Fintype Sta]

/-- The frames of a family of buffers. -/
def stock {Place : Type} [Fintype Place] (buffer : Place → List (Entry Sta)) : Multiset Nat :=
  ∑ place, names (buffer place)

/-- The frames that the identifiers answer for. -/
def tally (lists : TxLists Sta) : Multiset Nat := ∑ key, account (lists.tid key)

/-- The frames that the driver answers for. -/
def whole (store : TxStore Sta) : Multiset Nat :=
  tally store.lists + stock store.normalBuffer + stock store.backup + stock store.uapsdQueue +
    stock store.txlistQ + names store.saved

/-- `later` answers for the frames of `store` and for `gained`, nothing waits in `normal` of an
identifier where nothing waited before, and no frame was accepted. -/
structure Carries (gained : Multiset Nat) (store later : TxStore Sta) : Prop where
  whole : whole later = whole store + gained
  normal : ∀ key, (store.lists.tid key).normal = [] → (later.lists.tid key).normal = []
  nextId : later.nextId = store.nextId

section Stock

variable {Place : Type} [Fintype Place] [DecidableEq Place] {buffer : Place → List (Entry Sta)}

omit [Fintype Sta] in
theorem stock_update (buffer : Place → List (Entry Sta)) (place : Place)
    (entries : List (Entry Sta)) :
    stock (update buffer place entries) + names (buffer place) = stock buffer + names entries := by
  have moved := Slots.sum_update (Finset.mem_univ place) (fun other => names (buffer other))
    (names entries)
  have same : (fun other => names (update buffer place entries other)) =
      update (fun other => names (buffer other)) place (names entries) := by
    funext other
    by_cases own : other = place
    · rw [own, Function.update_self, Function.update_self]
    · rw [Function.update_of_ne own, Function.update_of_ne own]
  rw [stock, same]
  exact moved

omit [Fintype Sta] in
theorem stock_append (buffer : Place → List (Entry Sta)) (place : Place)
    (entries : List (Entry Sta)) :
    stock (update buffer place (buffer place ++ entries)) = stock buffer + names entries := by
  have moved := stock_update buffer place (buffer place ++ entries)
  rw [names_append, add_comm (names (buffer place)), ← add_assoc] at moved
  exact add_right_cancel moved

omit [Fintype Sta] in
theorem stock_take {place : Place} {left : List (Entry Sta)} {gone : Multiset Nat}
    (split : names left + gone = names (buffer place)) :
    stock (update buffer place left) + gone = stock buffer := by
  have moved := stock_update buffer place left
  rw [← split, add_comm (names left), ← add_assoc] at moved
  exact add_right_cancel moved

omit [Fintype Sta] in
theorem stock_empty (buffer : Place → List (Entry Sta)) (place : Place) :
    stock (update buffer place []) + names (buffer place) = stock buffer :=
  (stock_update buffer place []).trans (add_zero _)

end Stock

section Composition

variable {store middle later : TxStore Sta} {first second : Multiset Nat}

theorem Carries.refl (store : TxStore Sta) : Carries 0 store store :=
  ⟨(add_zero _).symm, fun _ => id, rfl⟩

theorem Carries.trans (early : Carries first store middle) (late : Carries second middle later) :
    Carries (first + second) store later := by
  refine ⟨?_, fun key nothing => late.normal key (early.normal key nothing),
    late.nextId.trans early.nextId⟩
  rw [late.whole, early.whole, add_assoc]

/-- Frames taken out of a buffer and given back. -/
theorem Carries.returned (early : Carries first middle later)
    (taken : Store.whole middle + first = Store.whole store)
    (normal : middle.lists.tid = store.lists.tid) (nextId : middle.nextId = store.nextId) :
    Carries 0 store later := by
  refine ⟨?_, fun key nothing => early.normal key ?_, early.nextId.trans nextId⟩
  · rw [early.whole, taken, add_zero]
  · rw [normal]
    exact nothing

theorem Carries.next (early : Carries 0 store middle) (late : Carries first middle later) :
    Carries first store later := by
  have joined := early.trans late
  rwa [zero_add] at joined

theorem Carries.before (early : Carries first store middle) (late : Carries 0 middle later) :
    Carries first store later := by
  have joined := early.trans late
  rwa [add_zero] at joined

end Composition

section Lists

variable [DecidableEq Sta] {store : TxStore Sta} {lists : TxLists Sta} {gained : Multiset Nat}

theorem tally_update (lists : TxLists Sta) (key : TidKey Sta) (tid : TxTid) :
    tally { lists with tid := update lists.tid key tid } + account (lists.tid key) =
      tally lists + account tid := by
  have moved := Slots.sum_update (Finset.mem_univ key) (fun other => account (lists.tid other))
    (account tid)
  have same : (fun other => account (update lists.tid key tid other)) =
      update (fun other => account (lists.tid other)) key (account tid) := by
    funext other
    by_cases own : other = key
    · rw [own, Function.update_self, Function.update_self]
    · rw [Function.update_of_ne own, Function.update_of_ne own]
  rw [tally, same]
  exact moved

theorem whole_take {key : TidKey Sta} {tid : TxTid} {gone : Multiset Nat}
    (split : account tid + gone = account (store.lists.tid key)) :
    whole (onLists (fun lists => { lists with tid := update lists.tid key tid }) store) + gone =
      whole store := by
  have moved := tally_update store.lists key tid
  rw [← split, add_comm (account tid), ← add_assoc] at moved
  have taken := add_right_cancel moved
  simp only [whole, onLists]
  rw [← taken]
  ac_rfl

private theorem tally_serves {key : TidKey Sta} (serves : Serves gained key store.lists lists) :
    tally lists = tally store.lists + gained := by
  have moved := tally_update store.lists key (lists.tid key)
  have same : tally { store.lists with tid := update store.lists.tid key (lists.tid key) } =
      tally lists := by
    refine Finset.sum_congr rfl fun other _ => ?_
    dsimp only
    by_cases own : other = key
    · rw [own, Function.update_self]
    · rw [Function.update_of_ne own, (serves.others other own).account]
  rw [same, serves.account, add_comm (account _) gained, ← add_assoc] at moved
  exact add_right_cancel moved

theorem whole_serves {key : TidKey Sta} (serves : Serves gained key store.lists lists) :
    whole { store with lists := lists } = whole store + gained := by
  simp only [whole]
  rw [tally_serves serves]
  ac_rfl

omit [DecidableEq Sta] in
theorem Carries.holds (holds : Holds store.lists lists) :
    Carries 0 store { store with lists := lists } := by
  refine ⟨?_, fun key => (holds key).normal, rfl⟩
  have same : tally lists = tally store.lists :=
    Finset.sum_congr rfl fun key _ => (holds key).account
  simp only [Store.whole]
  rw [same, add_zero]

theorem Carries.focus {work : TxTid → TxTid} (key : TidKey Sta)
    (gains : ∀ tid, Gains gained tid (work tid)) :
    Carries gained store (onLists (Lists.focus work key) store) := by
  refine ⟨whole_serves (Serves.focus (fun tid => (gains tid).account) key),
    fun other nothing => ?_, rfl⟩
  show ((Lists.focus work key store.lists).tid other).normal = []
  by_cases own : other = key
  · subst own
    rw [Lists.focus_self]
    exact (gains _).normal nothing
  · rw [Lists.focus_other _ _ _ _ own]
    exact nothing

end Lists

section Buffers

variable {store : TxStore Sta} {env : StoreEnv Sta}

theorem drvTxqBackupAddbuf_carries (queue : Fin halNumTxQueues) (entry : Entry Sta)
    (store : TxStore Sta) :
    Carries {entry.ptxdesc.id} store (drvTxqBackupAddbuf queue entry store) := by
  refine ⟨?_, fun _ => id, rfl⟩
  simp only [whole, drvTxqBackupAddbuf]
  rw [stock_append, names_cons, names_nil, add_zero]
  ac_rfl

/-- What a backup list hands over, the HAL has. -/
theorem submitBackup_carries {answers : Nat → HalAnswer} (takes : ∀ turn, (answers turn).Takes)
    (ready : Entry Sta → Bool) (queue : Fin halNumTxQueues) (store : TxStore Sta) :
    Carries 0 store (submitBackup ready answers queue store) := by
  have handed := handOver_names takes ready 0 (store.backup queue)
  refine ⟨?_, fun _ => id, rfl⟩
  simp only [whole, submitBackup]
  rw [stock_append, ← stock_take handed, add_zero]
  ac_rfl

private theorem drvToHal_carries {accepts : Bool} (taken : accepts = true) (entry : Entry Sta)
    (store : TxStore Sta) :
    Carries {entry.ptxdesc.id} store (drvToHal accepts entry store) := by
  unfold drvToHal
  rw [if_pos taken]
  refine ⟨?_, fun _ => id, rfl⟩
  simp only [whole]
  rw [stock_append, names_cons, names_nil, add_zero]
  ac_rfl

/-- `drv_tx_normal` puts a frame somewhere, while the HAL takes what it has room for. -/
theorem drvTxNormal_carries {answers : Nat → HalAnswer} (takes : ∀ turn, (answers turn).Takes)
    (entry : Entry Sta) (store : TxStore Sta) :
    Carries {entry.ptxdesc.id} store (drvTxNormal env answers entry store) := by
  unfold drvTxNormal
  dsimp only
  split
  · refine ⟨?_, fun _ => id, rfl⟩
    simp only [whole]
    rw [stock_append, names_cons, names_nil, add_zero]
    ac_rfl
  · split
    · exact drvTxqBackupAddbuf_carries entry.queue entry store
    · split
      · exact (drvTxqBackupAddbuf_carries entry.queue entry store).before
          (submitBackup_carries (fun turn => takes (turn + 1)) _ _ _)
      · rename_i room waiting
        exact drvToHal_carries (takes 0 (Bool.not_eq_true _ ▸ room))
          { entry with ptxdesc := { entry.ptxdesc with bAmpdu := false, pktnum := 1 } } store

omit [Fintype Sta] in
private theorem drvTxNormals_lists (answers : Nat → Nat → HalAnswer) (key : TidKey Sta) (turn : Nat)
    (normal : List NormalDesc) (store : TxStore Sta) :
    (drvTxNormals env answers key turn normal store).lists = store.lists := by
  have one : ∀ (answers : Nat → HalAnswer) (entry : Entry Sta) (store : TxStore Sta),
      (drvTxNormal env answers entry store).lists = store.lists := by
    intro answers entry store
    unfold drvTxNormal
    dsimp only
    split
    · rfl
    · split
      · rfl
      · split
        · rfl
        · unfold drvToHal
          split
          · rfl
          · rfl
  induction normal generalizing turn store with
  | nil => rfl
  | cons ptxdesc rest induction =>
    rw [drvTxNormals, induction]
    exact one _ _ _

private theorem drvTxNormals_carries (env : StoreEnv Sta) {answers : Nat → Nat → HalAnswer}
    (takes : ∀ frame turn, (answers frame turn).Takes) (key : TidKey Sta) (frame : Nat)
    (normal : List NormalDesc) (store : TxStore Sta) :
    Carries (ids (normal.map Subtype.val)) store
      (drvTxNormals env answers key frame normal store) := by
  induction normal generalizing frame store with
  | nil => exact Carries.refl store
  | cons ptxdesc rest induction =>
    exact (drvTxNormal_carries (takes frame) ⟨key, queue key, false, ptxdesc.1⟩ store).trans
      (induction (frame + 1) _)

end Buffers

section Functions

variable [DecidableEq Sta] {store : TxStore Sta} {env : StoreEnv Sta} {gained : Multiset Nat}

/-- What a function of an identifier gives to `drv_tx_normal` goes to a buffer. -/
theorem deliver_carries {answers : Nat → Nat → HalAnswer}
    (takes : ∀ frame turn, (answers frame turn).Takes) {key : TidKey Sta}
    {work : TxLists Sta → TxLists Sta} (serves : Serves gained key store.lists (work store.lists)) :
    Carries gained store (deliver env answers key (onLists work store)) := by
  obtain ⟨tid, tid_eq⟩ : ∃ tid, tid = (work store.lists).tid key := ⟨_, rfl⟩
  have split : account { tid with normal := [] } + ids (tid.normal.map Subtype.val) =
      account ((onLists work store).lists.tid key) := by
    show _ = account ((work store.lists).tid key)
    rw [← tid_eq]
    simp only [account, held, List.map_nil, ids_nil, add_zero]
    ac_rfl
  have taken := whole_take split
  have sent := drvTxNormals_carries env takes key 0 tid.normal
    (onLists (fun lists => { lists with tid := update lists.tid key { tid with normal := [] } })
      (onLists work store))
  have delivered : deliver env answers key (onLists work store) =
      drvTxNormals env answers key 0 tid.normal
        (onLists (fun lists => { lists with tid := update lists.tid key { tid with normal := [] } })
          (onLists work store)) := by
    rw [tid_eq]
    rfl
  rw [delivered]
  refine ⟨?_, fun other nothing => ?_, sent.nextId⟩
  · rw [sent.whole, taken]
    exact whole_serves serves
  · rw [drvTxNormals_lists]
    simp only [onLists]
    by_cases own : other = key
    · rw [own, Function.update_self]
    · rw [Function.update_of_ne own]
      exact (serves.others other own).normal nothing

theorem drvSend_carries {answers : Nat → Nat → HalAnswer}
    (takes : ∀ frame turn, (answers frame turn).Takes) (turns : Nat → HalTurn) (key : TidKey Sta)
    (route : Route) (request : TxRequest) (store : TxStore Sta) :
    Carries {request.desc.id} store (drvSend env turns answers key route request store) := by
  have named := drvTxPrepare_id (load key store.lists) request
  have prepared : Carries 0 store
      (onLists (focus (fun tid => (drvTxPrepare request tid).2) key) store) :=
    Carries.holds (Holds.focus (fun tid => drvTxPrepare_keeps tid request) key)
  unfold drvSend
  dsimp only
  rw [← named]
  split
  · refine prepared.next ⟨?_, fun _ => id, rfl⟩
    simp only [whole]
    rw [stock_append, names_cons, names_nil, add_zero]
    ac_rfl
  · split
    · exact prepared.next (deliver_carries takes (Serves.sendAmpdu turns key _ _))
    · split
      · exact prepared.next (drvTxqBackupAddbuf_carries halWmeMcast
          ⟨key, route.queue, route.probeReq, _⟩ _)
      · exact prepared.next (drvTxNormal_carries (takes 0)
          ⟨key, route.queue, route.probeReq, _⟩ _)

theorem drvProcessUapsdNstaTrigger_carries {answers : Nat → HalAnswer}
    (takes : ∀ turn, (answers turn).Takes) (sta : Sta) (limit : Nat) (store : TxStore Sta) :
    Carries 0 store (drvProcessUapsdNstaTrigger answers sta limit store) := by
  obtain ⟨handed, handed_eq⟩ : ∃ handed, handed =
      handOver (fun _ => true) answers 0 [] ((store.uapsdQueue sta).take limit) := ⟨_, rfl⟩
  have given : names handed.left + names handed.sent =
      names ((store.uapsdQueue sta).take limit) := by
    rw [handed_eq]
    exact handOver_names takes _ 0 _
  have split : names (handed.left ++ (store.uapsdQueue sta).drop limit) + names handed.sent =
      names (store.uapsdQueue sta) := by
    have whole := congrArg names (List.take_append_drop limit (store.uapsdQueue sta))
    rw [names_append] at whole
    rw [← whole, ← given, names_append]
    ac_rfl
  refine ⟨?_, fun _ => id, rfl⟩
  simp only [whole, drvProcessUapsdNstaTrigger]
  rw [← handed_eq, stock_append, ← stock_take split, add_zero]
  ac_rfl

theorem failEntry_carries (entry : Entry Sta) (store : TxStore Sta) :
    Carries {entry.ptxdesc.id} store (failEntry env store entry) :=
  Carries.focus entry.key fun tid =>
    drvTxComplete_gains (env.sta entry.key.sta) tid entry.ptxdesc false

theorem failEntries_carries (entries : List (Entry Sta)) (store : TxStore Sta) :
    Carries (names entries) store (entries.foldl (failEntry env) store) := by
  induction entries generalizing store with
  | nil => exact Carries.refl store
  | cons entry rest induction =>
    exact (failEntry_carries entry store).trans (induction _)

theorem failBackup_carries (chosen : Entry Sta → Bool) (queue : Fin halNumTxQueues)
    (store : TxStore Sta) : Carries 0 store (failBackup env chosen queue store) := by
  have split := names_filter chosen (store.backup queue)
  refine (failEntries_carries _ _).returned ?_ rfl rfl
  simp only [whole]
  rw [← stock_take split]
  ac_rfl

theorem drvTxUapsdNstaCleanup_carries (sta : Sta) (store : TxStore Sta) :
    Carries 0 store (drvTxUapsdNstaCleanup env sta store) := by
  refine (failEntries_carries _ _).returned ?_ rfl rfl
  simp only [whole]
  rw [← stock_empty store.uapsdQueue sta]
  ac_rfl

theorem drvFreeNormalBufferQueue_carries (vid : Fin normalBufferQueues) (store : TxStore Sta) :
    Carries 0 store (drvFreeNormalBufferQueue env vid store) := by
  refine (failEntries_carries _ _).returned ?_ rfl rfl
  simp only [whole]
  rw [← stock_empty store.normalBuffer vid]
  ac_rfl

theorem drvFlushNormalBufferQueue_carries {answers : Nat → HalAnswer}
    (takes : ∀ turn, (answers turn).Takes) (vid : Fin normalBufferQueues) (store : TxStore Sta) :
    Carries 0 store (drvFlushNormalBufferQueue env answers vid store) := by
  unfold drvFlushNormalBufferQueue
  split
  · exact Carries.refl store
  · rename_i entry rest waiting
    have split : names rest + {entry.ptxdesc.id} = names (store.normalBuffer vid) := by
      rw [waiting, names_cons, add_comm]
    have taken : whole { store with normalBuffer := update store.normalBuffer vid rest } +
        {entry.ptxdesc.id} = whole store := by
      simp only [whole]
      rw [← stock_take split]
      ac_rfl
    dsimp only
    split
    · have turned := stock_update store.normalBuffer vid (rest ++ [entry])
      rw [names_append, names_cons, names_nil, add_zero, split] at turned
      refine ⟨?_, fun _ => id, rfl⟩
      simp only [whole]
      rw [add_right_cancel turned, add_zero]
    · split
      · exact (drvTxNormal_carries (fun turn => takes (turn + 1))
          { entry with ptxdesc := { entry.ptxdesc with bAmpdu := false } } _).returned taken rfl rfl
      · exact (failEntry_carries entry _).returned taken rfl rfl

omit [DecidableEq Sta] in
theorem sendBehind_carries {answers : Nat → HalAnswer} (takes : ∀ turn, (answers turn).Takes)
    (queue : Fin halNumTxQueues) (store : TxStore Sta) :
    Carries 0 store (sendBehind env answers queue store) := by
  unfold sendBehind
  split
  · exact submitBackup_carries takes _ _ store
  · exact submitBackup_carries takes _ _ store

private theorem drvTxCompleteTask_gains (env : TxEnv) (queue : Fin halNumTxQueues)
    (ptxdesc : TxDesc)
    (txok : Bool) (tid : TxTid) :
    Gains {ptxdesc.id} tid (drvTxCompleteTask env queue ptxdesc txok tid) := by
  unfold drvTxCompleteTask
  split
  · exact (noteCompletion_keeps tid ptxdesc).gains (drvTxComplete_gains env _ ptxdesc txok)
  · exact Tx.drvTxCompleteTask_gains env tid ptxdesc txok

theorem drvTxIrqTasklet_carries {answers : Nat → HalAnswer} (takes : ∀ turn, (answers turn).Takes)
    (queue : Fin halNumTxQueues) (index : Nat) (txok : Bool) (store : TxStore Sta) :
    Carries 0 store (drvTxIrqTasklet env answers queue index txok store) := by
  unfold drvTxIrqTasklet
  split
  · exact Carries.refl store
  · rename_i entry found
    have taken : whole { store with
        txlistQ := update store.txlistQ queue ((store.txlistQ queue).eraseIdx index) } +
        {entry.ptxdesc.id} = whole store := by
      simp only [whole]
      rw [← stock_take (names_eraseIdx found)]
      ac_rfl
    have completed := (Carries.focus entry.key (fun tid => drvTxCompleteTask_gains
      (env.sta entry.key.sta) queue entry.ptxdesc txok tid)).returned taken rfl rfl
    dsimp only
    split
    · exact completed
    · exact completed.next (sendBehind_carries takes queue _)

theorem completeMember_carries {answers : Nat → HalAnswer} (takes : ∀ turn, (answers turn).Takes)
    (key : TidKey Sta) (index : Nat) (txok : Bool) (store : TxStore Sta) :
    Carries 0 store (completeMember env answers key index txok store) := by
  have completed : Carries 0 store
      (onLists (focus (completeAt (env.sta key.sta) index txok) key) store) :=
    Carries.holds (Holds.focus (fun tid => completeAt_keeps (env.sta key.sta) tid index txok) key)
  unfold completeMember
  dsimp only
  split
  · exact completed
  · split
    · exact completed
    · exact completed.next (sendBehind_carries takes (queue key) _)

private theorem drvTxlistFreeAllByVid_carries (vid : Nat) (queue : Fin halNumTxQueues)
    (store : TxStore Sta) : Carries 0 store (drvTxlistFreeAllByVid env vid queue store) := by
  have same := names_orphan (ofVid vid store) (store.txlistQ queue)
  have moved := stock_update store.txlistQ queue ((store.txlistQ queue).map fun entry =>
    if ofVid vid store entry then entry.orphan else entry)
  rw [same] at moved
  have orphaned : Carries 0 store { store with
      txlistQ := update store.txlistQ queue ((store.txlistQ queue).map fun entry =>
        if ofVid vid store entry then entry.orphan else entry) } := by
    refine ⟨?_, fun _ => id, rfl⟩
    simp only [whole]
    rw [add_right_cancel moved, add_zero]
  exact (orphaned.next (Carries.holds (Holds.freeAllByVid vid queue _))).next
    (failBackup_carries _ queue _)

theorem drvTxlistFlushfree_carries (vid : Nat) (store : TxStore Sta) :
    Carries 0 store (drvTxlistFlushfree env vid store) := by
  unfold drvTxlistFlushfree
  generalize List.finRange halNumTxQueues = queues
  induction queues generalizing store with
  | nil => exact Carries.refl store
  | cons queue rest induction =>
    have flushed : Carries 0 store (flushfreeQueue env vid store queue) :=
      (drvTxlistFreeAllByVid_carries vid queue store).next (Carries.holds (Holds.of_eq rfl))
    exact flushed.next (induction _)

theorem drvTxlistCleanupForSta_carries (sta : Sta) (store : TxStore Sta) :
    Carries 0 store (drvTxlistCleanupForSta env sta store) := by
  have cleaned : Carries 0 store
      (onLists (Lists.drvTxlistCleanupForSta env.toListEnv sta) store) :=
    Carries.holds (Holds.cleanup sta store.lists)
  unfold drvTxlistCleanupForSta
  refine cleaned.next ?_
  generalize List.finRange halNumTxQueues = queues
  generalize onLists (Lists.drvTxlistCleanupForSta env.toListEnv sta) store = later
  induction queues generalizing later with
  | nil => exact Carries.refl later
  | cons queue rest induction => exact (failBackup_carries _ queue later).next (induction _)

theorem freeTxlistWhenFreeSta_carries (sta : Sta) (store : TxStore Sta) :
    Carries 0 store (freeTxlistWhenFreeSta sta store) := by
  have orphaned : Carries 0 store { store with
      txlistQ := fun queue => (store.txlistQ queue).map fun entry =>
        if entry.key.sta = sta then entry.orphan else entry } := by
    have same : stock (fun queue => (store.txlistQ queue).map fun entry =>
        if entry.key.sta = sta then entry.orphan else entry) = stock store.txlistQ := by
      refine Finset.sum_congr rfl fun queue _ => ?_
      have mapped := names_orphan (fun entry => decide (entry.key.sta = sta)) (store.txlistQ queue)
      simp only [decide_eq_true_eq] at mapped
      exact mapped
    refine ⟨?_, fun _ => id, rfl⟩
    simp only [whole]
    rw [same, add_zero]
  refine orphaned.next (Carries.holds fun key => ?_)
  dsimp only
  split
  · refine ⟨?_, id⟩
    simp only [account, held, ids_orphan]
  · exact Keeps.refl _

end Functions

section Again

variable [DecidableEq Sta] {store : TxStore Sta} {env : StoreEnv Sta}

/-- A frame to be sent again is not thrown away, and meets a HAL that takes what it has room for. -/
def Restart.Ok : Restart → Prop
  | .send _ answers _ _ => ∀ frame turn, (answers frame turn).Takes
  | .refuse | .save => True
  | .abandon => False

theorem drvTxStart_carries (env : StoreEnv Sta) {restart : Restart} (ok : restart.Ok)
    (entry : Entry Sta) (store : TxStore Sta) :
    Carries {entry.ptxdesc.id} store (drvTxStart env restart entry store) := by
  cases restart with
  | send turns answers route request =>
    exact drvSend_carries ok turns entry.key route { request with desc := entry.ptxdesc } store
  | refuse =>
    refine Carries.focus entry.key fun tid => ⟨?_, id⟩
    simp only [account, held, List.map_append, ids_append]
    rw [List.map_cons, List.map_nil, ids_singleton, ← add_assoc]
  | save =>
    refine ⟨?_, fun _ => id, rfl⟩
    simp only [whole, drvTxStart]
    rw [names_append, names_cons, names_nil, add_zero, ← add_assoc]
  | abandon => exact absurd ok id

private theorem drvRetransmit_carries {restart : Restart} (ok : restart.Ok) (key : TidKey Sta)
    (store : TxStore Sta) : Carries 0 store (drvRetransmit env key restart store) := by
  unfold drvRetransmit
  split
  · exact Carries.refl store
  · rename_i ptxdesc rest waiting
    have split : account { store.lists.tid key with retransmitQueue := rest } + {ptxdesc.id} =
        account (store.lists.tid key) := by
      simp only [account, held, waiting, ids_cons]
      ac_rfl
    have started := drvTxStart_carries env ok ⟨key, queue key, false, ptxdesc⟩
      (onLists (fun lists => { lists with
        tid := update lists.tid key { lists.tid key with retransmitQueue := rest } }) store)
    refine ⟨?_, fun other nothing => started.normal other ?_, started.nextId⟩
    · rw [started.whole, add_zero]
      exact whole_take split
    · simp only [onLists]
      by_cases own : other = key
      · rw [own, Function.update_self]
        rw [own] at nothing
        exact nothing
      · rw [Function.update_of_ne own]
        exact nothing

private theorem drvRelease_carries {restart : Restart} (ok : restart.Ok) (index : Nat)
    (store : TxStore Sta) : Carries 0 store (drvRelease env index restart store) := by
  unfold drvRelease
  split
  · exact Carries.refl store
  · rename_i entry found
    refine (drvTxStart_carries env ok entry _).returned ?_ rfl rfl
    simp only [whole]
    rw [← names_eraseIdx found]
    ac_rfl

end Again

section Run

variable [DecidableEq Sta]

/-- Every place a frame can be in, and the frames completed: for each identifier its queue, the
frames of the HAL in aggregates, those to be sent again and those completed; then the frames put
off, the backup lists, the U-APSD lists, the other frames of the HAL, and those given back. -/
def everywhere (store : TxStore Sta) : Multiset Nat :=
  ∑ key, (ids (store.lists.tid key).txdsQueue + ids (store.lists.tid key).inHal +
      ids (store.lists.tid key).retransmitQueue +
      ids ((store.lists.tid key).completed.map Prod.fst)) +
    ∑ vid, names (store.normalBuffer vid) + ∑ queue, names (store.backup queue) +
    ∑ sta, names (store.uapsdQueue sta) + ∑ queue, names (store.txlistQ queue) +
    names store.saved

/-- A step that loses no frame: outside the scheduler the HAL takes what it has room for, a frame
to be sent again is not thrown away, and the queues that are flushed without completing anything
are empty. -/
def StoreOk (store : TxStore Sta) (moment : StoreEnv Sta × StoreEvent Sta) : Prop :=
  match moment.2 with
  | .send _ answers _ _ _ | .rspProcess _ answers _ _ | .flush answers _ | .ampduDel answers _ =>
    ∀ frame turn, (answers frame turn).Takes
  | .completeMember answers _ _ _ | .txIrq answers _ _ _ | .backupSend answers _
  | .mcastqSend answers | .uapsdTrigger answers _ _ | .flushNormal answers _ =>
    ∀ turn, (answers turn).Takes
  | .retransmit _ restart | .release _ restart => restart.Ok
  | .flushRetransmit => ∀ key, (store.lists.tid key).retransmitQueue = []
  | .flushSaved => store.saved = []
  | .task _ _ | .timeout _ | .reqSetup _ | .requestTimer _ | .pause _ | .resume _ _
  | .addbaClear _ | .flushfree _ | .cleanup _ | .freeSta _ | .mcastqCleanup _ | .uapsdCleanup _
  | .freeNormal _ => True

/-- The driver answers for the frames it has accepted, each once, and none is on its way. -/
structure Kept (store : TxStore Sta) : Prop where
  whole : whole store = Multiset.range store.nextId
  normal : ∀ key, (store.lists.tid key).normal = []

variable {store later : TxStore Sta}

omit [DecidableEq Sta] in
private theorem Kept.carries (kept : Kept store) (carries : Carries 0 store later) :
    Kept later := by
  refine ⟨?_, fun key => carries.normal key (kept.normal key)⟩
  rw [carries.whole, kept.whole, carries.nextId, add_zero]

private theorem storeStep_kept (store : TxStore Sta) (moment : StoreEnv Sta × StoreEvent Sta)
    (kept : Kept store) (ok : StoreOk store moment) : Kept (storeStep store moment) := by
  obtain ⟨env, event⟩ := moment
  cases event with
  | send turns answers key route request =>
    have sent : Carries {store.nextId} { store with nextId := store.nextId + 1 }
        (storeStep store (env, .send turns answers key route request)) :=
      drvSend_carries ok turns key route
        { request with desc := { request.desc with id := store.nextId } } _
    refine ⟨?_, fun key => sent.normal key (kept.normal key)⟩
    have before : whole { store with nextId := store.nextId + 1 } =
        Multiset.range store.nextId := kept.whole
    rw [sent.whole, before, sent.nextId, Multiset.range_succ, ← Multiset.singleton_add, add_comm]
  | task turns queueId =>
    exact kept.carries (Carries.holds (Holds.task turns queueId store.lists))
  | timeout waitMpduTimeout => exact kept.carries (Carries.holds (Holds.of_eq rfl))
  | completeMember answers key index txok =>
    exact kept.carries (completeMember_carries ok key index txok store)
  | txIrq answers queue index txok =>
    exact kept.carries (drvTxIrqTasklet_carries ok queue index txok store)
  | reqSetup key =>
    exact kept.carries (Carries.holds
      (Holds.focus (fun tid => drvAddbaReqSetup_keeps (env.sta key.sta) tid) key))
  | rspProcess turns answers key rsp =>
    exact kept.carries (deliver_carries ok (Serves.rspProcess turns key rsp store.lists))
  | requestTimer key =>
    exact kept.carries (Carries.holds
      (Holds.focus (fun tid => drvAddbaTimer_keeps (env.sta key.sta) tid) key))
  | pause key =>
    exact kept.carries (Carries.holds (Holds.focus drvTxlistPauseForStaTid_keeps key))
  | resume turns key =>
    exact kept.carries (Carries.holds (Holds.resume turns key store.lists))
  | flush answers key => exact kept.carries (deliver_carries ok (Serves.flush key))
  | ampduDel answers key => exact kept.carries (deliver_carries ok (Serves.ampduDel key))
  | addbaClear sta => exact kept.carries (Carries.holds (Holds.addbaClear sta store.lists))
  | flushfree vid => exact kept.carries (drvTxlistFlushfree_carries vid store)
  | cleanup sta => exact kept.carries (drvTxlistCleanupForSta_carries sta store)
  | freeSta sta => exact kept.carries (freeTxlistWhenFreeSta_carries sta store)
  | backupSend answers queue => exact kept.carries (submitBackup_carries ok _ queue store)
  | mcastqSend answers => exact kept.carries (submitBackup_carries ok _ halWmeMcast store)
  | mcastqCleanup vid => exact kept.carries (failBackup_carries _ halWmeMcast store)
  | uapsdTrigger answers sta limit =>
    exact kept.carries (drvProcessUapsdNstaTrigger_carries ok sta limit store)
  | uapsdCleanup sta => exact kept.carries (drvTxUapsdNstaCleanup_carries sta store)
  | flushNormal answers vid => exact kept.carries (drvFlushNormalBufferQueue_carries ok vid store)
  | freeNormal vid => exact kept.carries (drvFreeNormalBufferQueue_carries vid store)
  | retransmit key restart => exact kept.carries (drvRetransmit_carries ok key store)
  | release index restart => exact kept.carries (drvRelease_carries ok index store)
  | flushRetransmit =>
    refine kept.carries (Carries.holds fun key => ⟨?_, id⟩)
    simp only [account, held]
    rw [ok key]
  | flushSaved =>
    have nothing : store.saved = [] := ok
    refine ⟨?_, kept.normal⟩
    show whole { store with saved := [] } = _
    rw [← nothing]
    exact kept.whole

omit [DecidableEq Sta] in
private theorem Kept.everywhere (kept : Kept store) :
    everywhere store = Multiset.range store.nextId := by
  have accounts : ∀ key, ids (store.lists.tid key).txdsQueue + ids (store.lists.tid key).inHal +
      ids (store.lists.tid key).retransmitQueue +
      ids ((store.lists.tid key).completed.map Prod.fst) = account (store.lists.tid key) := by
    intro key
    simp only [account, held, kept.normal key, List.map_nil, ids_nil, add_zero]
  rw [← kept.whole, Store.everywhere, Finset.sum_congr rfl fun key _ => accounts key]
  rfl

omit [DecidableEq Sta] in
private theorem drvTxInit_kept (vif : Sta → Fin normalBufferQueues) : Kept (drvTxInit vif) := by
  refine ⟨?_, fun _ => rfl⟩
  have accounts : tally (drvTxInit vif).lists = 0 := Finset.sum_eq_zero fun key _ => rfl
  have empty : ∀ {Place : Type} [Fintype Place],
      stock (fun _ : Place => ([] : List (Entry Sta))) = 0 := by
    intro Place finite
    exact Finset.sum_eq_zero fun place _ => rfl
  simp only [whole, accounts]
  simp only [drvTxInit, empty, names_nil, add_zero, Multiset.range_zero]

/-- In every run whose steps lose no frame, each frame accepted is in exactly one place or has been
completed, exactly once; a name that no frame has is nowhere. -/
theorem custody_run (vif : Sta → Fin normalBufferQueues)
    (moments : List (StoreEnv Sta × StoreEvent Sta))
    (valid : Machine.Along storeStep StoreOk (drvTxInit vif) moments) (id : Nat) :
    (everywhere (Machine.run storeStep (drvTxInit vif) moments)).count id =
      if id < (Machine.run storeStep (drvTxInit vif) moments).nextId then 1 else 0 := by
  have kept : Kept (Machine.run storeStep (drvTxInit vif) moments) :=
    valid.invariant storeStep_kept (drvTxInit_kept vif)
  rw [kept.everywhere]
  split
  · rename_i accepted
    exact Multiset.count_eq_one_of_mem (Multiset.nodup_range _) (Multiset.mem_range.mpr accepted)
  · rename_i unknown
    exact Multiset.count_eq_zero_of_notMem fun found => unknown (Multiset.mem_range.mp found)

end Run

end Whole

open Tx.Lists (plainListEnv bestEffort)

/-- A single station that is awake. -/
def plainStoreEnv : StoreEnv Unit := { plainListEnv (plainTxEnv 8) with vmPsSta := fun _ => false }

/-- A best effort frame on its own list. -/
def plainRoute : Route := ⟨0, false, false, false⟩

/-- A data frame outside the aggregates. -/
def plainSend (answer : HalAnswer) : StoreEnv Unit × StoreEvent Unit :=
  (plainStoreEnv, .send (roomyHal true) (fun _ _ => answer) bestEffort plainRoute
    { dataRequest 0 false with desc := { (dataRequest 0 false).desc with bTcp := true } })

/-- The answer of the HAL to the first frame on the best effort list. -/
def plainIrq (txok : Bool) : StoreEnv Unit × StoreEvent Unit :=
  (plainStoreEnv, .txIrq (fun _ => ⟨false, true⟩) 0 0 txok)

/-- A frame finds the HAL full and waits behind it, and another one takes it along. -/
theorem custody_backup :
    (everywhere (Machine.run storeStep (drvTxInit fun _ => 0)
      [plainSend ⟨true, false⟩, plainSend ⟨false, true⟩, plainIrq false])).count 0 = 1 := by
  have valid : Machine.Along storeStep StoreOk (drvTxInit fun _ => 0)
      [plainSend ⟨true, false⟩, plainSend ⟨false, true⟩, plainIrq false] :=
    ⟨fun _ _ room => Bool.noConfusion room, fun _ _ _ => rfl, fun _ _ => rfl, trivial⟩
  rw [custody_run (fun _ => 0) _ valid 0, if_pos (by decide +kernel)]

/-- A frame that `drv_to_hal` refuses behind the check of `drv_tx_normal` is nowhere and is not
completed; nor is a frame to be sent again when a disconnect flushes their queue. -/
theorem custody_lost :
    ((everywhere (Machine.run storeStep (drvTxInit fun _ => 0) [plainSend ⟨false, false⟩])).count
        0 = 0 ∧
      (Machine.run storeStep (drvTxInit fun _ => 0) [plainSend ⟨false, false⟩]).nextId = 1) ∧
    (everywhere (Machine.run storeStep (drvTxInit fun _ => 0)
        [plainSend ⟨false, true⟩, plainIrq false, (plainStoreEnv, .flushRetransmit)])).count 0 = 0 ∧
      (Machine.run storeStep (drvTxInit fun _ => 0)
        [plainSend ⟨false, true⟩, plainIrq false,
          (plainStoreEnv, .flushRetransmit)]).nextId = 1 := by
  refine ⟨⟨?_, ?_⟩, ?_, ?_⟩
  · decide +kernel
  · decide +kernel
  · decide +kernel
  · decide +kernel

end W522a.Tx.Store
