import Mathlib.Data.List.Basic
import Mathlib.Data.List.Nodup
import Mathlib.Data.List.Perm.Subperm
import Mathlib.Logic.Function.Basic

/-!
Lanes of items that are handed on in the order in which they were offered. Some items are lost on
the way, and an item may be given back to the one who offered it.
-/

/-- What was offered, handed on, lost and given back, and what each lane still holds. -/
structure Relay (Item Lane : Type*) where
  offered : List Item
  sent : List Item
  lost : List Item
  returned : List Item
  held : Lane → List Item

namespace Relay

variable {Item Lane : Type*} {lane : Item → Lane} {relay : Relay Item Lane}
  {place : Lane}

section Lost

variable [DecidableEq Item]

def without (lost items : List Item) : List Item := items.filter fun item => item ∉ lost

theorem mem_without {lost items : List Item} {item : Item} :
    item ∈ without lost items ↔ item ∈ items ∧ item ∉ lost := by
  simp [without]

theorem without_append (lost items more : List Item) :
    without lost (items ++ more) = without lost items ++ without lost more :=
  List.filter_append items more

theorem without_all {lost items : List Item} (alive : ∀ item ∈ items, item ∉ lost) :
    without lost items = items :=
  List.filter_eq_self.mpr fun item listed => decide_eq_true (alive item listed)

theorem without_self (items : List Item) : without items items = [] :=
  List.filter_eq_nil_iff.mpr fun item listed => by simpa using listed

theorem without_lost (lost more items : List Item) :
    without (lost ++ more) items = without more (without lost items) := by
  rw [without, without, without, List.filter_filter]
  apply List.filter_congr
  intro item _
  simp [not_or, Bool.and_comm]

end Lost

variable [DecidableEq Lane]

def along (lane : Item → Lane) (place : Lane) (items : List Item) : List Item :=
  items.filter fun item => lane item = place

section Lists

variable {items : List Item}

@[simp] theorem along_append (more : List Item) :
    along lane place (items ++ more) = along lane place items ++ along lane place more :=
  List.filter_append items more

theorem along_all (same : ∀ item ∈ items, lane item = place) : along lane place items = items :=
  List.filter_eq_self.mpr fun item listed => decide_eq_true (same item listed)

theorem along_none (other : ∀ item ∈ items, lane item ≠ place) : along lane place items = [] :=
  List.filter_eq_nil_iff.mpr fun item listed => by simpa using other item listed

theorem mem_along {item : Item} :
    item ∈ along lane place items ↔ item ∈ items ∧ lane item = place := by
  simp [along]

end Lists

section Moves

def offer (lane : Item → Lane) (relay : Relay Item Lane) (item : Item) : Relay Item Lane :=
  { relay with
    offered := relay.offered ++ [item]
    held := Function.update relay.held (lane item) (relay.held (lane item) ++ [item]) }

/-- The first items of a lane are handed on, and some of them given back. -/
def send (relay : Relay Item Lane) (place : Lane) (front back rest : List Item) :
    Relay Item Lane :=
  { relay with
    sent := relay.sent ++ front
    returned := relay.returned ++ back
    held := Function.update relay.held place rest }

/-- The first items of a lane are lost and given back. -/
def lose (relay : Relay Item Lane) (place : Lane) (front rest : List Item) : Relay Item Lane :=
  { relay with
    lost := relay.lost ++ front
    returned := relay.returned ++ front
    held := Function.update relay.held place rest }

@[simp] theorem offer_held (item : Item) :
    (relay.offer lane item).held =
      Function.update relay.held (lane item) (relay.held (lane item) ++ [item]) := rfl

@[simp] theorem lose_held (front rest : List Item) :
    (relay.lose place front rest).held = Function.update relay.held place rest := rfl

end Moves

variable [DecidableEq Item]

/-- The items that were offered to a lane and not lost. -/
def kept (lane : Item → Lane) (relay : Relay Item Lane) (place : Lane) : List Item :=
  without relay.lost (along lane place relay.offered)

/-- Every lane keeps its order, nothing is handed on twice, and what is lost is given back. -/
structure Sound (lane : Item → Lane) (relay : Relay Item Lane) : Prop where
  fresh : relay.offered.Nodup
  inOrder : ∀ place, along lane place relay.sent ++ relay.held place = relay.kept lane place
  lostOnce : relay.lost.Nodup
  lostReturned : ∀ item ∈ relay.lost, item ∈ relay.returned
  returnedOnce : relay.returned.Nodup
  returnedOffered : ∀ item ∈ relay.returned, item ∈ relay.offered
  returnedGone : ∀ item ∈ relay.returned, item ∉ relay.held (lane item)

def empty : Relay Item Lane := ⟨[], [], [], [], fun _ => []⟩

theorem empty_sound : (empty : Relay Item Lane).Sound lane where
  fresh := List.nodup_nil
  inOrder := fun _ => rfl
  lostOnce := List.nodup_nil
  lostReturned := nofun
  returnedOnce := List.nodup_nil
  returnedOffered := nofun
  returnedGone := nofun

namespace Sound

variable (sound : relay.Sound lane)
include sound

theorem kept_nodup (place : Lane) : (relay.kept lane place).Nodup :=
  (sound.fresh.filter _).filter _

theorem mem_kept {item : Item} :
    item ∈ relay.kept lane place ↔
      (item ∈ relay.sent ∧ lane item = place) ∨ item ∈ relay.held place := by
  rw [← sound.inOrder, List.mem_append, mem_along]

theorem held_offered {item : Item} (held : item ∈ relay.held place) :
    item ∈ relay.offered ∧ lane item = place ∧ item ∉ relay.lost := by
  have listed := sound.mem_kept.mpr (Or.inr held)
  simpa only [kept, mem_without, mem_along, and_assoc] using listed

theorem held_lane {item : Item} (held : item ∈ relay.held place) : lane item = place :=
  (sound.held_offered held).2.1

theorem held_nodup (place : Lane) : (relay.held place).Nodup := by
  have whole := sound.kept_nodup place
  rw [← sound.inOrder] at whole
  exact (List.nodup_append.mp whole).2.1

theorem held_not_returned {item : Item} (held : item ∈ relay.held place) :
    item ∉ relay.returned := by
  intro listed
  apply sound.returnedGone item listed
  rwa [sound.held_lane held]

private theorem sent_kept {item : Item} (sent : item ∈ relay.sent) :
    item ∈ relay.kept lane (lane item) :=
  sound.mem_kept.mpr (Or.inl ⟨sent, rfl⟩)

theorem sent_offered {item : Item} (sent : item ∈ relay.sent) :
    item ∈ relay.offered ∧ item ∉ relay.lost := by
  have listed := sound.sent_kept sent
  simp only [kept, mem_without, mem_along] at listed
  exact ⟨listed.1.1, listed.2⟩

private theorem sent_nodup : relay.sent.Nodup := by
  apply List.nodup_iff_count_le_one.mpr
  intro item
  have whole := sound.kept_nodup (lane item)
  rw [← sound.inOrder] at whole
  have once := List.nodup_iff_count_le_one.mp (List.nodup_append.mp whole).1 item
  rwa [along, List.count_filter (by simp)] at once

theorem apart (place : Lane) : (relay.sent ++ (relay.lost ++ relay.held place)).Nodup := by
  have lost_held : (relay.lost ++ relay.held place).Nodup := by
    apply sound.lostOnce.append (sound.held_nodup place)
    intro item lost held
    exact (sound.held_offered held).2.2 lost
  apply sound.sent_nodup.append lost_held
  intro item sent other
  rcases List.mem_append.mp other with lost | held
  · exact (sound.sent_offered sent).2 lost
  · have whole := sound.kept_nodup place
    rw [← sound.inOrder] at whole
    have sentHere := mem_along.mpr ⟨sent, sound.held_lane held⟩
    exact (List.nodup_append.mp whole).2.2 item sentHere item held rfl

theorem lost_offered {item : Item} (lost : item ∈ relay.lost) : item ∈ relay.offered :=
  sound.returnedOffered item (sound.lostReturned item lost)

end Sound

section Moves

variable (sound : relay.Sound lane)
include sound

theorem Sound.offer {item : Item} (new : item ∉ relay.offered) :
    (relay.offer lane item).Sound lane where
  fresh := sound.fresh.append (List.nodup_singleton item) (by simpa using new)
  inOrder := by
    intro place
    have alive : item ∉ relay.lost := fun lost => new (sound.lost_offered lost)
    have before := sound.inOrder place
    have stays : without relay.lost (along lane place [item]) = along lane place [item] := by
      apply without_all
      intro other listed
      rw [List.mem_singleton.mp (mem_along.mp listed).1]
      exact alive
    have later : (relay.offer lane item).kept lane place =
        relay.kept lane place ++ along lane place [item] := by
      calc (relay.offer lane item).kept lane place
          = without relay.lost (along lane place (relay.offered ++ [item])) := rfl
        _ = relay.kept lane place ++ along lane place [item] := by
          rw [along_append, without_append, stays, kept]
    rw [later, ← before, List.append_assoc]
    congr 1
    by_cases here : place = lane item
    · subst here
      rw [along_all (by simp), offer_held, Function.update_self]
    · rw [along_none (by simpa using Ne.symm here), List.append_nil, offer_held,
        Function.update_of_ne here]
  lostOnce := sound.lostOnce
  lostReturned := sound.lostReturned
  returnedOnce := sound.returnedOnce
  returnedOffered := fun other listed =>
    List.mem_append_left _ (sound.returnedOffered other listed)
  returnedGone := by
    intro other listed held
    simp only [Relay.offer] at listed held
    by_cases here : lane other = lane item
    · rw [here, Function.update_self, List.mem_append, List.mem_singleton, ← here] at held
      rcases held with held | rfl
      · exact sound.returnedGone other listed held
      · exact new (sound.returnedOffered other listed)
    · rw [Function.update_of_ne here] at held
      exact sound.returnedGone other listed held

variable {front rest : List Item} (split : relay.held place = front ++ rest)
include split

omit sound [DecidableEq Item] [DecidableEq Lane] in
theorem front_held {item : Item} (listed : item ∈ front) : item ∈ relay.held place := by
  rw [split]
  exact List.mem_append_left rest listed

theorem Sound.front_nodup : front.Nodup := by
  have whole := sound.held_nodup place
  rw [split] at whole
  exact (List.nodup_append.mp whole).1

/-- Items of the front that are given back were not given back before, and are not held after. -/
theorem Sound.give {back : List Item} (part : back.Sublist front) :
    (relay.returned ++ back).Nodup ∧
      (∀ item ∈ relay.returned ++ back, item ∈ relay.offered) ∧
      ∀ item ∈ relay.returned ++ back,
        item ∉ Function.update relay.held place rest (lane item) := by
  have fromFront : ∀ item ∈ back, item ∈ relay.held place :=
    fun item listed => front_held split (part.subset listed)
  refine ⟨?_, ?_, ?_⟩
  · apply sound.returnedOnce.append (part.nodup (sound.front_nodup split))
    intro item old listed
    exact sound.held_not_returned (fromFront item listed) old
  · intro item listed
    rcases List.mem_append.mp listed with old | new
    · exact sound.returnedOffered item old
    · exact (sound.held_offered (fromFront item new)).1
  · intro item listed held
    have here : item ∈ relay.held (lane item) := by
      by_cases same : lane item = place
      · rw [same, Function.update_self] at held
        rw [same, split]
        exact List.mem_append_right front held
      · rwa [Function.update_of_ne same] at held
    rcases List.mem_append.mp listed with old | new
    · exact sound.returnedGone item old here
    · have same := sound.held_lane (fromFront item new)
      rw [same, Function.update_self] at held
      have whole := sound.held_nodup place
      rw [split] at whole
      exact (List.nodup_append.mp whole).2.2 item (part.subset new) item held rfl

theorem Sound.send {back : List Item} (part : back.Sublist front) :
    (relay.send place front back rest).Sound lane where
  fresh := sound.fresh
  inOrder := by
    intro other
    have before := sound.inOrder other
    simp only [Relay.send, along_append]
    by_cases here : other = place
    · subst here
      have whole : along lane other front = front :=
        along_all fun item listed => sound.held_lane (front_held split listed)
      rw [Function.update_self, whole, List.append_assoc, ← split]
      exact before
    · have nothing : along lane other front = [] :=
        along_none fun item listed same =>
          here (same.symm.trans (sound.held_lane (front_held split listed)))
      rw [Function.update_of_ne here, nothing, List.append_nil]
      exact before
  lostOnce := sound.lostOnce
  lostReturned := fun item lost => List.mem_append_left _ (sound.lostReturned item lost)
  returnedOnce := (sound.give split part).1
  returnedOffered := (sound.give split part).2.1
  returnedGone := (sound.give split part).2.2

theorem Sound.lose : (relay.lose place front rest).Sound lane where
  fresh := sound.fresh
  inOrder := by
    intro other
    have before := sound.inOrder other
    have narrowed : (relay.lose place front rest).kept lane other =
        without front (relay.kept lane other) :=
      without_lost relay.lost front _
    have sent_stays : without front (along lane other relay.sent) =
        along lane other relay.sent := by
      apply without_all
      intro item listed inFront
      have apart := sound.apart place
      exact (List.nodup_append.mp apart).2.2 item (mem_along.mp listed).1 item
        (List.mem_append_right _ (front_held split inFront)) rfl
    rw [narrowed, ← before, without_append, sent_stays]
    congr 1
    have once := sound.held_nodup place
    rw [split] at once
    by_cases here : other = place
    · subst here
      have rest_stays : without front rest = rest := by
        apply without_all
        intro item listed inFront
        exact (List.nodup_append.mp once).2.2 item inFront item listed rfl
      rw [lose_held, Function.update_self, split, without_append, without_self, rest_stays,
        List.nil_append]
    · rw [lose_held, Function.update_of_ne here]
      symm
      apply without_all
      intro item held inFront
      exact here ((sound.held_lane held).symm.trans
        (sound.held_lane (front_held split inFront)))
  lostOnce := by
    apply sound.lostOnce.append (sound.front_nodup split)
    intro item lost listed
    exact (sound.held_offered (front_held split listed)).2.2 lost
  lostReturned := by
    intro item listed
    rcases List.mem_append.mp listed with old | new
    · exact List.mem_append_left _ (sound.lostReturned item old)
    · exact List.mem_append_right _ new
  returnedOnce := (sound.give split (List.Sublist.refl front)).1
  returnedOffered := (sound.give split (List.Sublist.refl front)).2.1
  returnedGone := (sound.give split (List.Sublist.refl front)).2.2

end Moves

/-- The order of the logs of what is lost and given back does not matter. -/
theorem Sound.shuffle {later : Relay Item Lane} (sound : relay.Sound lane)
    (offered : later.offered = relay.offered) (sent : later.sent = relay.sent)
    (lost : later.lost.Perm relay.lost) (returned : later.returned.Perm relay.returned)
    (held : later.held = relay.held) : later.Sound lane where
  fresh := by
    rw [offered]
    exact sound.fresh
  inOrder := by
    intro place
    have same : later.kept lane place = relay.kept lane place := by
      simp only [kept, without, offered, lost.mem_iff]
    rw [sent, held, same]
    exact sound.inOrder place
  lostOnce := lost.nodup_iff.mpr sound.lostOnce
  lostReturned := fun item listed =>
    returned.mem_iff.mpr (sound.lostReturned item (lost.mem_iff.mp listed))
  returnedOnce := returned.nodup_iff.mpr sound.returnedOnce
  returnedOffered := by
    intro item listed
    rw [offered]
    exact sound.returnedOffered item (returned.mem_iff.mp listed)
  returnedGone := by
    intro item listed
    rw [held]
    exact sound.returnedGone item (returned.mem_iff.mp listed)

section Count

variable (sound : relay.Sound lane) (among : Lane → Bool)
include sound

/-- What some lanes were offered is enough for what they handed on, lost and hold. -/
theorem Sound.count_le (place : Lane) (counted : among place = true) :
    relay.sent.countP (among ∘ lane) + relay.lost.countP (among ∘ lane) +
        (relay.held place).length ≤ relay.offered.countP (among ∘ lane) := by
  have all_held : (relay.held place).countP (among ∘ lane) = (relay.held place).length := by
    apply List.countP_eq_length.mpr
    intro item held
    rw [Function.comp_apply, sound.held_lane held]
    exact counted
  have inside : (relay.sent ++ (relay.lost ++ relay.held place)).Subperm relay.offered := by
    apply List.subperm_of_subset (sound.apart place)
    intro item listed
    rcases List.mem_append.mp listed with sent | other
    · exact (sound.sent_offered sent).1
    · rcases List.mem_append.mp other with lost | held
      · exact sound.lost_offered lost
      · exact (sound.held_offered held).1
  have counts := inside.countP_le (among ∘ lane)
  rw [List.countP_append, List.countP_append, all_held] at counts
  omega

theorem Sound.count_eq (idle : ∀ place, among place = true → relay.held place = []) :
    relay.offered.countP (among ∘ lane) ≤
      relay.sent.countP (among ∘ lane) + relay.lost.countP (among ∘ lane) := by
  have inside : (relay.offered.filter (among ∘ lane)).Subperm
      ((relay.sent ++ relay.lost).filter (among ∘ lane)) := by
    apply List.subperm_of_subset (sound.fresh.filter _)
    intro item listed
    obtain ⟨offered, counted⟩ := List.mem_filter.mp listed
    apply List.mem_filter.mpr
    refine ⟨?_, counted⟩
    by_cases lost : item ∈ relay.lost
    · exact List.mem_append_right _ lost
    · have kept : item ∈ relay.kept lane (lane item) := by
        simp [Relay.kept, mem_without, mem_along, offered, lost]
      rcases sound.mem_kept.mp kept with ⟨sent, -⟩ | held
      · exact List.mem_append_left _ sent
      · rw [idle (lane item) counted] at held
        exact absurd held List.not_mem_nil
  have counts := inside.length_le
  rwa [← List.countP_eq_length_filter, ← List.countP_eq_length_filter, List.countP_append]
    at counts

end Count

end Relay
