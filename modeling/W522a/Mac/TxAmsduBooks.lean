import Mathlib.Logic.Relation
import W522a.Lib.Relay
import W522a.Mac.TxAmsduFrame

/-!
The aggregation seen as a relay of MSDUs with a counter for each TID: what was offered waits in the
queue of its station and TID, and leaves it in order, to the driver or to be dropped.
-/

namespace W522a.TxAmsdu

open Mac (etherHeaderLen)
open Relation (ReflTransGen)

/-- The MSDU that the tasklet has in hand for a queue. -/
def Tasklet.msdus (tasklet : Tasklet) (key : Key) : List Skb :=
  match tasklet with
  | .taken skb => if skb.key = key then [skb] else []
  | _ => []

/-- The MSDUs that are held for a station and TID, in the order in which they are to go. -/
def TxState.held (state : TxState) (key : Key) : List Skb :=
  (state.amsdutx key).msduTmpBuf ++ state.tasklet.msdus key ++ (state.amsdutx key).msduList

/-- The relay of the MSDUs, and the counters of the TIDs. -/
structure Books where
  relay : Relay Skb Key
  msduCnt : Fin 8 → Nat

def TxState.books (state : TxState) : Books where
  relay := {
    offered := state.offered
    sent := state.air.flatMap fun sent => sent.buf.members
    lost := state.lost
    returned := (state.completed ++ state.freeAmsduList).flatMap TxBuf.own
    held := state.held }
  msduCnt := state.msduCnt

namespace Books

def offer (books : Books) (skb : Skb) : Books where
  relay := books.relay.offer Skb.key skb
  msduCnt := Function.update books.msduCnt skb.key.tid (books.msduCnt skb.key.tid + 1)

/-- The first MSDUs of a queue go to the driver, and some of their buffers are completed. -/
def send (books : Books) (key : Key) (front back rest : List Skb) : Books where
  relay := books.relay.send key front back rest
  msduCnt := Function.update books.msduCnt key.tid (books.msduCnt key.tid - front.length)

/-- The first MSDUs of a queue are dropped and completed. -/
def lose (books : Books) (key : Key) (front rest : List Skb) : Books where
  relay := books.relay.lose key front rest
  msduCnt := Function.update books.msduCnt key.tid (books.msduCnt key.tid - front.length)

/-- The same books, up to the order in which MSDUs are dropped and completed. -/
structure Same (later books : Books) : Prop where
  offered : later.relay.offered = books.relay.offered
  sent : later.relay.sent = books.relay.sent
  lost : later.relay.lost.Perm books.relay.lost
  returned : later.relay.returned.Perm books.relay.returned
  held : later.relay.held = books.relay.held
  counted : later.msduCnt = books.msduCnt

def ofTid (tid : Fin 8) (key : Key) : Bool := decide (key.tid = tid)

/-- How many MSDUs of a TID a log has. -/
def count (tid : Fin 8) (skbs : List Skb) : Nat := skbs.countP (ofTid tid ∘ Skb.key)

/-- The relay is sound, and a counter is what was offered of its TID and did not leave. -/
structure Sound (books : Books) : Prop where
  relay : books.relay.Sound Skb.key
  counted : ∀ tid, books.msduCnt tid + count tid books.relay.sent + count tid books.relay.lost =
    count tid books.relay.offered

/-- What can happen to the books; MSDUs are dropped only where they may be. -/
inductive Move (may : Key → Prop) (books : Books) : Books → Prop where
  | offer {skb : Skb} (new : skb ∉ books.relay.offered) : Move may books (books.offer skb)
  | send {key : Key} {front back rest : List Skb}
    (split : books.relay.held key = front ++ rest) (part : back.Sublist front) :
    Move may books (books.send key front back rest)
  | lose {key : Key} {front rest : List Skb}
    (split : books.relay.held key = front ++ rest) (allowed : may key) :
    Move may books (books.lose key front rest)
  | same {later : Books} (same : Same later books) : Move may books later

variable {books later : Books} {may : Key → Prop} {key : Key} {skb : Skb}
  {front rest : List Skb}

section Count

theorem count_same (same : ∀ skb ∈ front, skb.key = key) (tid : Fin 8) :
    count tid front = if key.tid = tid then front.length else 0 := by
  split
  next here =>
    apply List.countP_eq_length.mpr
    intro skb listed
    rw [Function.comp_apply, same skb listed]
    exact decide_eq_true here
  next other =>
    apply List.countP_eq_zero.mpr
    intro skb listed
    rw [Function.comp_apply, same skb listed]
    simpa [ofTid] using other

@[simp] theorem count_append (tid : Fin 8) (first second : List Skb) :
    count tid (first ++ second) = count tid first + count tid second :=
  List.countP_append

variable (sound : books.Sound)
include sound

private theorem Sound.held_counted (key : Key) :
    (books.relay.held key).length ≤ books.msduCnt key.tid := by
  have enough := sound.relay.count_le (ofTid key.tid) key (decide_eq_true rfl)
  have whole := sound.counted key.tid
  simp only [count] at whole
  omega

theorem Sound.idle_counted (tid : Fin 8)
    (idle : ∀ key : Key, key.tid = tid → books.relay.held key = []) : books.msduCnt tid = 0 := by
  have all_gone := sound.relay.count_eq (ofTid tid) fun key here => idle key (of_decide_eq_true here)
  have whole := sound.counted tid
  simp only [count] at whole
  omega

/-- The counters once the first MSDUs of a queue left it. -/
theorem Sound.uncounted (split : books.relay.held key = front ++ rest) (tid : Fin 8) :
    Function.update books.msduCnt key.tid (books.msduCnt key.tid - front.length) tid +
        count tid front = books.msduCnt tid := by
  have size := sound.held_counted key
  rw [split, List.length_append] at size
  have own : ∀ skb ∈ front, skb.key = key :=
    fun skb listed => sound.relay.held_lane (Relay.front_held split listed)
  rw [count_same own]
  by_cases here : tid = key.tid
  · subst here
    rw [Function.update_self, if_pos rfl]
    omega
  · rw [Function.update_of_ne here, if_neg (Ne.symm here), Nat.add_zero]

end Count

private theorem Sound.move (sound : books.Sound) (moved : Move may books later) : later.Sound := by
  cases moved with
  | @offer skb new =>
    refine ⟨sound.relay.offer new, fun tid => ?_⟩
    have whole := sound.counted tid
    have one : count tid [skb] = if skb.key.tid = tid then 1 else 0 := count_same (by simp) tid
    simp only [offer, Relay.offer, count_append, one]
    by_cases here : tid = skb.key.tid
    · subst here
      rw [Function.update_self, if_pos rfl]
      omega
    · rw [Function.update_of_ne here, if_neg (Ne.symm here)]
      omega
  | @send key front rest back split part =>
    refine ⟨sound.relay.send split part, fun tid => ?_⟩
    have whole := sound.counted tid
    have less := sound.uncounted split tid
    simp only [send, Relay.send, count_append]
    omega
  | @lose key front rest split allowed =>
    refine ⟨sound.relay.lose split, fun tid => ?_⟩
    have whole := sound.counted tid
    have less := sound.uncounted split tid
    simp only [lose, Relay.lose, count_append]
    omega
  | same same =>
    refine ⟨sound.relay.shuffle same.offered same.sent same.lost same.returned same.held,
      fun tid => ?_⟩
    have lost : count tid later.relay.lost = count tid books.relay.lost := same.lost.countP_eq _
    rw [same.counted, same.sent, lost, same.offered]
    exact sound.counted tid

private theorem Move.lost (sound : books.Sound) (moved : Move may books later) :
    ∀ skb ∈ later.relay.lost, skb ∈ books.relay.lost ∨ may skb.key := by
  cases moved with
  | offer new => exact fun _ listed => Or.inl listed
  | send split part => exact fun _ listed => Or.inl listed
  | @lose key front rest split allowed =>
    intro skb listed
    rcases List.mem_append.mp listed with old | new
    · exact Or.inl old
    · rw [sound.relay.held_lane (Relay.front_held split new)]
      exact Or.inr allowed
  | same same => exact fun skb listed => Or.inl (same.lost.mem_iff.mp listed)

abbrev Evolves (may : Key → Prop) : Books → Books → Prop := ReflTransGen (Move may)

theorem Evolves.sound (evolved : Evolves may books later) (sound : books.Sound) :
    later.Sound := by
  induction evolved with
  | refl => exact sound
  | tail _ moved induction => exact induction.move moved

theorem Evolves.lost (evolved : Evolves may books later) (sound : books.Sound) :
    ∀ skb ∈ later.relay.lost, skb ∈ books.relay.lost ∨ may skb.key := by
  induction evolved with
  | refl => exact fun _ listed => Or.inl listed
  | tail evolved moved induction =>
    intro skb listed
    rcases moved.lost (Evolves.sound evolved sound) skb listed with before | dropped
    · exact induction skb before
    · exact Or.inr dropped

end Books

end W522a.TxAmsdu
