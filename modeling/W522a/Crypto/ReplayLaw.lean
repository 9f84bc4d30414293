import Mathlib.Order.Nat
import W522a.Crypto.ReplayWindow

/-!
What the replay check does to a counter with its window, and from it the runs in which the windows
of an interface stand for the numbers that were accepted.
-/

namespace W522a.Crypto

open PairWindow (holds mark shift ones)

section Window

variable {window : PnWindow}

/-- The lowest ones of a window are counted, or one place is. -/
theorem countPnWin_spec (fits : PairWindow.Fits pnHalf window) :
    0 < countPnWin window ∧ countPnWin window ≤ maxPnWindow ∧
      (countPnWin window = 1 ∨
        ∀ place, place < countPnWin window → holds pnHalf window place = true) := by
  have low := PairWindow.ones_le 64 fits.low
  have high := PairWindow.ones_le 64 fits.high
  have lows : ∀ place, place < ones 64 window.low → window.low.testBit place = true :=
    fun place => PairWindow.testBit_ones
  have highs : ∀ place, place < ones 64 window.high → window.high.testBit place = true :=
    fun place => PairWindow.testBit_ones
  unfold countPnWin holds
  generalize ones 64 window.low = first at *
  generalize ones 64 window.high = second at *
  simp only [maxPnWindow, pnHalf] at low high ⊢
  by_cases short : first < 62 / 2
  · rw [if_pos short]
    by_cases none : first = 0
    · rw [if_pos none]
      exact ⟨by omega, by omega, Or.inl rfl⟩
    · rw [if_neg none]
      refine ⟨by omega, by omega, Or.inr fun place below => ?_⟩
      rw [if_pos (by omega)]
      exact lows place below
  · rw [if_neg short, if_neg (by omega)]
    refine ⟨by omega, by omega, Or.inr fun place below => ?_⟩
    split
    · exact lows place (by omega)
    · exact highs _ (by omega)

theorem halSetPnWin_eq (fits : PairWindow.Fits pnHalf window) :
    halSetPnWin window = (countPnWin window, shift pnHalf (countPnWin window) window) := by
  obtain ⟨positive, -⟩ := countPnWin_spec fits
  unfold halSetPnWin shift
  dsimp only
  by_cases near : countPnWin window < maxPnWindow / 2
  · rw [if_pos ⟨positive, near⟩, if_pos near]
  · rw [if_neg (fun both => near both.2), if_neg near]
    by_cases far : countPnWin window < maxPnWindow
    · rw [if_pos ⟨Nat.le_of_not_lt near, far⟩]
      exact congrArg (Prod.mk _) (if_pos far).symm
    · rw [if_neg (fun both => far both.2)]
      exact congrArg (Prod.mk _) (if_neg far).symm

theorem halCheckDupPn_iff (diff : Nat) :
    halCheckDupPn window diff ≠ 0 ↔
      (0 < diff ∧ diff ≤ maxPnWindow) ∧ holds pnHalf window (diff - 1) = true := by
  have bit : ∀ word place : Nat, word &&& 1 <<< place ≠ 0 ↔ word.testBit place = true := by
    intro word place
    rw [Nat.one_shiftLeft, Mask.and_ne_zero_iff]
    constructor
    · rintro ⟨other, set, same⟩
      rw [Nat.testBit_two_pow, decide_eq_true_iff] at same
      exact same ▸ set
    · intro set
      exact ⟨place, set, Nat.testBit_two_pow_self⟩
  unfold halCheckDupPn holds
  simp only [maxPnWindow, pnHalf]
  by_cases low : 0 < diff ∧ diff ≤ 62 / 2
  · rw [if_pos low, bit, if_pos (by omega)]
    exact ⟨fun set => ⟨by omega, set⟩, fun both => both.2⟩
  · rw [if_neg low]
    by_cases high : 62 / 2 < diff ∧ diff ≤ 62
    · rw [if_pos high, bit, if_neg (by omega), Nat.sub_right_comm]
      exact ⟨fun set => ⟨by omega, set⟩, fun both => both.2⟩
    · rw [if_neg high]
      exact iff_of_false (fun zero => zero rfl) (fun both => by omega)

end Window

/-- A counter and a window that stand for the numbers accepted so far. -/
structure Tracked (replay : Replay) (accepted : List Nat) : Prop where
  fits : PairWindow.Fits pnHalf replay.window
  represents : Represents replay.counter.word0.toNat replay.window accepted
  small : ∀ number ∈ accepted, number < 2 ^ 64
  fresh : replay.counter.word0.toNat = 0 → accepted = []

section Source

variable {replay : Replay} {accepted : List Nat} {rx : UInt64}

theorem Tracked.empty (tracked : Tracked replay accepted)
    (fresh : replay.counter.word0.toNat = 0) : replay.window = ⟨0, 0⟩ := by
  refine tracked.fits.empty fun place => Bool.eq_false_iff.mpr fun set => ?_
  have found := (tracked.represents (place + 1) (by omega)).mpr (by
    rwa [fresh, Nat.sub_zero, Nat.add_sub_cancel])
  rw [tracked.fresh fresh] at found
  cases found

/-- Sliding the window moves its base, past numbers that were accepted or by one. -/
theorem Tracked.slide (tracked : Tracked replay accepted)
    (room : replay.counter.word0.toNat + 1 < 2 ^ 64) :
    Tracked (slideReplay replay) accepted ∧
      (slideReplay replay).counter.word0.toNat =
        replay.counter.word0.toNat + countPnWin replay.window := by
  obtain ⟨positive, bounded, runs⟩ := countPnWin_spec tracked.fits
  have inside : replay.counter.word0.toNat + countPnWin replay.window < 2 ^ 64 := by
    rcases runs with one | run
    · rwa [one]
    · -- the last place of the run belongs to a number that was accepted
      have last := run (countPnWin replay.window - 1) (by omega)
      refine tracked.small _ ((tracked.represents _ (by omega)).mpr ?_)
      rwa [Nat.add_sub_cancel_left]
  have base : (slideReplay replay).counter.word0.toNat =
      replay.counter.word0.toNat + countPnWin replay.window := by
    have offset : (UInt64.ofNat (countPnWin replay.window)).toNat = countPnWin replay.window :=
      Nat.mod_eq_of_lt (Nat.lt_of_le_of_lt (Nat.le_add_left _ _) inside)
    unfold slideReplay
    rw [halSetPnWin_eq tracked.fits]
    dsimp only
    rw [UInt64.toNat_add, offset, Nat.mod_eq_of_lt inside]
  have window : (slideReplay replay).window =
      shift pnHalf (countPnWin replay.window) replay.window :=
    congrArg Prod.snd (halSetPnWin_eq tracked.fits)
  refine ⟨⟨?_, ?_, tracked.small, ?_⟩, base⟩
  · rw [window]
    exact tracked.fits.shift
  · intro number above
    rw [base] at above ⊢
    rw [window, PairWindow.holds_shift tracked.fits, tracked.represents number (by omega)]
    have place : number - (replay.counter.word0.toNat + countPnWin replay.window) - 1 +
        countPnWin replay.window = number - replay.counter.word0.toNat - 1 := by omega
    rw [place]
  · intro zero
    omega

theorem repcntDiff_near {my : UInt64} (above : my.toNat < rx.toNat)
    (near : rx.toNat - my.toNat < 2 ^ 32) : repcntDiff my rx = rx.toNat - my.toNat := by
  unfold repcntDiff
  rw [UInt64.toNat_sub_of_le rx my (UInt64.le_iff_toNat_le.mpr above.le), Nat.mod_eq_of_lt near]

/-- A new number within the window is recorded at its place. -/
theorem Tracked.mark (tracked : Tracked replay accepted)
    (started : replay.counter.word0.toNat ≠ 0) (above : replay.counter.word0.toNat < rx.toNat)
    (near : rx.toNat ≤ replay.counter.word0.toNat + maxPnWindow) :
    Tracked { replay with
      window := mark pnHalf (rx.toNat - replay.counter.word0.toNat - 1) replay.window }
      (rx.toNat :: accepted) := by
  simp only [maxPnWindow] at near
  refine ⟨tracked.fits.mark (by simp only [pnHalf, maxPnWindow]; omega), ?_, ?_, ?_⟩
  · intro number past
    have place : number = rx.toNat ↔
        number - replay.counter.word0.toNat - 1 = rx.toNat - replay.counter.word0.toNat - 1 := by
      change replay.counter.word0.toNat < number at past
      omega
    refine Iff.trans ?_ PairWindow.holds_mark.symm
    rw [List.mem_cons, or_comm]
    exact or_congr (tracked.represents number past) place
  · intro number member
    rcases List.mem_cons.mp member with same | older
    · exact same ▸ rx.toNat_lt
    · exact tracked.small number older
  · exact fun zero => absurd zero started

theorem placeReplay_eq {diff : Nat} (positive : 0 < diff) (near : diff ≤ maxPnWindow) :
    placeReplay diff replay =
      if diff = 1 then
        slideReplay { replay with window := mark pnHalf (diff - 1) replay.window }
      else { replay with window := mark pnHalf (diff - 1) replay.window } := by
  simp only [maxPnWindow] at near
  unfold placeReplay mark
  simp only [maxPnWindow, pnHalf]
  by_cases low : diff ≤ 62 / 2
  · rw [if_pos ⟨positive, low⟩, if_pos (show diff - 1 < 62 / 2 by omega)]
  · rw [if_neg (fun both => low both.2), if_pos (by omega), if_neg (show diff ≠ 1 by omega),
      if_neg (by omega), Nat.sub_right_comm]

theorem placeReplay_far {diff : Nat} (far : diff = 0 ∨ maxPnWindow < diff) :
    placeReplay diff replay = replay := by
  simp only [maxPnWindow] at far
  unfold placeReplay
  simp only [maxPnWindow]
  rw [if_neg (by omega), if_neg (by omega)]

/-- A new number inside the window keeps the counter and the window right. -/
theorem Tracked.place (tracked : Tracked replay accepted)
    (started : replay.counter.word0.toNat ≠ 0) (above : replay.counter.word0.toNat < rx.toNat)
    (near : rx.toNat ≤ replay.counter.word0.toNat + maxPnWindow) :
    Tracked (placeReplay (repcntDiff replay.counter.word0 rx) replay) (rx.toNat :: accepted) := by
  have marked := tracked.mark started above near
  have width : maxPnWindow = 62 := rfl
  have bound := rx.toNat_lt
  rw [repcntDiff_near above (by omega), placeReplay_eq (by omega) (by omega)]
  split
  · exact (marked.slide (by show replay.counter.word0.toNat + 1 < _; omega)).1
  · exact marked

/-- A new number that a single slide brings into the window is recorded. -/
theorem Tracked.record (tracked : Tracked replay accepted)
    (started : replay.counter.word0.toNat ≠ 0) (above : replay.counter.word0.toNat < rx.toNat)
    (near : rx.toNat ≤ replay.counter.word0.toNat + maxPnWindow + countPnWin replay.window) :
    Tracked (recordReplay rx replay) (rx.toNat :: accepted) := by
  have width : maxPnWindow = 62 := rfl
  have bound := rx.toNat_lt
  obtain ⟨first, counted, -⟩ := countPnWin_spec tracked.fits
  obtain ⟨slid, base⟩ := tracked.slide (by omega)
  unfold recordReplay
  dsimp only
  rw [repcntDiff_near above (by omega)]
  split
  · exact slid.place (by omega) (by omega) (by omega)
  · rename_i inside
    have placed := tracked.place started above (by omega)
    rwa [repcntDiff_near above (by omega)] at placed

private theorem Tracked.next (tracked : Tracked replay accepted) {rxPn : Pn}
    (empty : replay.window = ⟨0, 0⟩) (above : replay.counter.word0.toNat < rxPn.word0.toNat) :
    Tracked { replay with counter := rxPn } (rxPn.word0.toNat :: accepted) := by
  have clear : ∀ place, holds pnHalf replay.window place = false := by
    intro place
    rw [empty]
    exact PairWindow.holds_empty
  refine ⟨tracked.fits, ?_, ?_, fun zero => ?_⟩
  · intro number past
    change rxPn.word0.toNat < number at past
    refine iff_of_false ?_ (Bool.eq_false_iff.mp (clear _))
    intro member
    rcases List.mem_cons.mp member with same | older
    · exact absurd same (Nat.ne_of_gt past)
    · have set := (tracked.represents number (above.trans past)).mp older
      rw [clear] at set
      cases set
  · intro number member
    rcases List.mem_cons.mp member with same | older
    · exact same ▸ rxPn.word0.toNat_lt
    · exact tracked.small number older
  · change rxPn.word0.toNat = 0 at zero
    omega

/-- The numbers that the check does not take for the first or the very next one. -/
structure Later (replay : Replay) (rxPn : Pn) : Prop where
  started : replay.counter.word0.toNat ≠ 0
  above : replay.counter.word0.toNat < rxPn.word0.toNat
  apart : ¬ (replay.counter.word0.toNat + 1 = rxPn.word0.toNat ∧ replay.window = ⟨0, 0⟩)

theorem chkReplayWindow_cases (replay : Replay) (rxPn : Pn) :
    (rxPn.word0.toNat ≤ replay.counter.word0.toNat ∧
        chkReplayWindow rxPn replay = (false, replay)) ∨
      (replay.counter.word0.toNat < rxPn.word0.toNat ∧ replay.window = ⟨0, 0⟩ ∧
        (replay.counter.word0.toNat = 0 ∨
          replay.counter.word0.toNat + 1 = rxPn.word0.toNat) ∧
        chkReplayWindow rxPn replay = (true, { replay with counter := rxPn })) ∨
      (replay.counter.word0.toNat = 0 ∧ replay.window ≠ ⟨0, 0⟩) ∨
      (Later replay rxPn ∧ chkReplayWindow rxPn replay =
        if halCheckDupPn replay.window (repcntDiff replay.counter.word0 rxPn.word0) ≠ 0 then
          (false, replay)
        else (true, recordReplay rxPn.word0 replay)) := by
  have before : replay.counter.word0 < rxPn.word0 ↔
      replay.counter.word0.toNat < rxPn.word0.toNat := UInt64.lt_iff_toNat_lt
  have zero : replay.counter.word0 = 0 ↔ replay.counter.word0.toNat = 0 :=
    (UInt64.toNat_inj (b := 0)).symm
  have blank : replay.window = ⟨0, 0⟩ ↔ replay.window.low = 0 ∧ replay.window.high = 0 := by
    constructor
    · intro same
      rw [same]
      exact ⟨rfl, rfl⟩
    · rintro ⟨low, high⟩
      exact congrArg₂ PairWindow.Words.mk low high
  have pred : replay.counter.word0.toNat < rxPn.word0.toNat →
      (replay.counter.word0 = rxPn.word0 - 1 ↔
        replay.counter.word0.toNat + 1 = rxPn.word0.toNat) := by
    intro above
    have one : (1 : UInt64) ≤ rxPn.word0 := by
      rw [UInt64.le_iff_toNat_le]
      exact Nat.lt_of_le_of_lt (Nat.zero_le _) above
    rw [← UInt64.toNat_inj, UInt64.toNat_sub_of_le _ _ one]
    show _ = _ - 1 ↔ _
    omega
  by_cases above : replay.counter.word0.toNat < rxPn.word0.toNat
  · refine Or.inr ?_
    unfold chkReplayWindow
    rw [if_pos (before.mpr above)]
    dsimp only
    by_cases first : replay.counter.word0.toNat = 0
    · by_cases empty : replay.window = ⟨0, 0⟩
      · refine Or.inl ⟨above, empty, Or.inl first, ?_⟩
        have positive : 0 < rxPn.word0 := by
          rw [← zero.mpr first]
          exact before.mpr above
        have primed : primeReplay rxPn.word0 replay =
            { replay with counter := { replay.counter with word0 := rxPn.word0 - 1 } } :=
          if_pos ⟨zero.mpr first, positive⟩
        rw [primed]
        exact if_pos ⟨rfl, blank.mp empty⟩
      · exact Or.inr (Or.inl ⟨first, empty⟩)
    · have primed : primeReplay rxPn.word0 replay = replay :=
        if_neg fun both => first (zero.mp both.1)
      rw [primed]
      by_cases next : replay.counter.word0.toNat + 1 = rxPn.word0.toNat ∧ replay.window = ⟨0, 0⟩
      · refine Or.inl ⟨above, next.2, Or.inr next.1, ?_⟩
        exact if_pos ⟨(pred above).mpr next.1, blank.mp next.2⟩
      · refine Or.inr (Or.inr ⟨⟨first, above, next⟩, ?_⟩)
        exact if_neg fun both => next ⟨(pred above).mp both.1, blank.mpr both.2⟩
  · refine Or.inl ⟨Nat.le_of_not_lt above, ?_⟩
    exact if_neg (fun less => above (before.mp less))

/-- The check of a number that the window can take. -/
theorem Tracked.check_near (tracked : Tracked replay accepted) {rxPn : Pn}
    (near : rxPn.word0.toNat ≤ replay.counter.word0.toNat ∨ replay.counter.word0.toNat = 0 ∨
      rxPn.word0.toNat ≤
        replay.counter.word0.toNat + maxPnWindow + countPnWin replay.window) :
    let result := chkReplayWindow rxPn replay
    (result.1 = true ↔
        replay.counter.word0.toNat < rxPn.word0.toNat ∧ rxPn.word0.toNat ∉ accepted) ∧
      Tracked result.2 (if result.1 then rxPn.word0.toNat :: accepted else accepted) := by
  have width : maxPnWindow = 62 := rfl
  obtain ⟨-, counted, -⟩ := countPnWin_spec tracked.fits
  rcases chkReplayWindow_cases replay rxPn with
    ⟨old, result⟩ | ⟨above, empty, -, result⟩ | ⟨first, full⟩ | ⟨later, result⟩
  · rw [result]
    exact ⟨iff_of_false Bool.false_ne_true (fun both => absurd both.1 (Nat.not_lt.mpr old)), tracked⟩
  · have absent : rxPn.word0.toNat ∉ accepted := by
      rw [tracked.represents _ above, empty, PairWindow.holds_empty]
      exact Bool.false_ne_true
    rw [result]
    exact ⟨iff_of_true rfl ⟨above, absent⟩, tracked.next empty above⟩
  · exact absurd (tracked.empty first) full
  · obtain ⟨started, above, -⟩ := later
    have near := (near.resolve_left (Nat.not_le.mpr above)).resolve_left started
    have diff := repcntDiff_near above (by omega)
    have duplicate : halCheckDupPn replay.window (repcntDiff replay.counter.word0 rxPn.word0) ≠ 0 ↔
        rxPn.word0.toNat ∈ accepted := by
      rw [halCheckDupPn_iff, diff, tracked.represents _ above]
      refine ⟨fun both => both.2, fun set => ⟨⟨by omega, ?_⟩, set⟩⟩
      by_contra far
      rw [tracked.fits.holds_past (by simp only [pnHalf]; omega)] at set
      cases set
    rw [result]
    split
    · rename_i found
      exact ⟨iff_of_false Bool.false_ne_true (fun both => both.2 (duplicate.mp found)), tracked⟩
    · rename_i absent
      exact ⟨iff_of_true rfl ⟨above, fun member => absent (duplicate.mpr member)⟩,
        tracked.record started above near⟩

/-- A number that lies behind the window of a counter and is yet recorded is not stood for. -/
theorem not_represents {window : PnWindow} {base number : Nat} (fits : PairWindow.Fits pnHalf window)
    (far : base + maxPnWindow < number) (accepted : List Nat) :
    ¬ Represents base window (number :: accepted) := by
  simp only [maxPnWindow] at far
  intro represents
  have set := (represents number (by omega)).mp List.mem_cons_self
  rw [fits.holds_past (by simp only [pnHalf, maxPnWindow]; omega)] at set
  cases set

/-- Recording a number moves the base by two slides at most, and keeps the words of the window
in their halves. -/
theorem placeReplay_bound (diff : Nat) (fits : PairWindow.Fits pnHalf replay.window) :
    PairWindow.Fits pnHalf (placeReplay diff replay).window ∧
      (placeReplay diff replay).counter.word0.toNat ≤
        replay.counter.word0.toNat + maxPnWindow := by
  by_cases inside : 0 < diff ∧ diff ≤ maxPnWindow
  · have marked : PairWindow.Fits pnHalf (mark pnHalf (diff - 1) replay.window) := by
      have near := inside.2
      simp only [maxPnWindow] at near
      exact fits.mark (by simp only [pnHalf, maxPnWindow]; omega)
    rw [placeReplay_eq inside.1 inside.2]
    split
    · obtain ⟨-, counted, -⟩ := countPnWin_spec marked
      unfold slideReplay
      rw [halSetPnWin_eq marked]
      refine ⟨marked.shift, ?_⟩
      dsimp only
      rw [UInt64.toNat_add]
      refine (Nat.mod_le _ _).trans (Nat.add_le_add_left ?_ _)
      exact (Nat.mod_le _ _).trans counted
    · exact ⟨marked, Nat.le_add_right _ _⟩
  · rw [placeReplay_far (by omega)]
    exact ⟨fits, Nat.le_add_right _ _⟩

/-- A number too far ahead is either refused, or taken and not stood for. -/
theorem Tracked.check_far (tracked : Tracked replay accepted) {rxPn : Pn}
    (started : replay.counter.word0.toNat ≠ 0)
    (far : replay.counter.word0.toNat + maxPnWindow + countPnWin replay.window <
      rxPn.word0.toNat) :
    let result := chkReplayWindow rxPn replay
    rxPn.word0.toNat ∉ accepted ∧ (result.1 = true →
      ¬ Represents result.2.counter.word0.toNat result.2.window
        (rxPn.word0.toNat :: accepted)) := by
  have width : maxPnWindow = 62 := rfl
  have bound := rxPn.word0.toNat_lt
  have fits := tracked.fits
  obtain ⟨positive, counted, -⟩ := countPnWin_spec fits
  have absent : rxPn.word0.toNat ∉ accepted := by
    rw [tracked.represents _ (by omega), fits.holds_past (by simp only [pnHalf]; omega)]
    exact Bool.false_ne_true
  refine ⟨absent, ?_⟩
  rcases chkReplayWindow_cases replay rxPn with
    ⟨old, -⟩ | ⟨-, -, next, -⟩ | ⟨first, -⟩ | ⟨later, result⟩
  · omega
  · omega
  · exact absurd first started
  · rw [result]
    split
    · intro refused
      cases refused
    · intro _
      obtain ⟨slid, base⟩ := tracked.slide (by omega)
      unfold recordReplay
      dsimp only
      by_cases apart : rxPn.word0.toNat - replay.counter.word0.toNat < 2 ^ 32
      · -- the window was slid once, and the number is still behind it
        rw [repcntDiff_near (by omega) apart, if_pos (by omega),
          repcntDiff_near (by omega) (by omega), placeReplay_far (Or.inr (by omega))]
        exact not_represents slid.fits (by omega) accepted
      · -- the 32 bits of the distance say nothing; two slides do not bring the base near
        split
        · obtain ⟨kept, near⟩ := placeReplay_bound
            (repcntDiff (slideReplay replay).counter.word0 rxPn.word0) slid.fits
          exact not_represents kept (by omega) accepted
        · obtain ⟨kept, near⟩ := placeReplay_bound
            (repcntDiff replay.counter.word0 rxPn.word0) fits
          exact not_represents kept (by omega) accepted

/-- A number beyond the next one leaves a bit in a window that was empty. -/
theorem Tracked.check_gap (tracked : Tracked replay accepted) {rxPn : Pn}
    (started : replay.counter.word0.toNat ≠ 0) (empty : replay.window = ⟨0, 0⟩)
    (gap : replay.counter.word0.toNat + 1 < rxPn.word0.toNat)
    (near : rxPn.word0.toNat ≤
      replay.counter.word0.toNat + maxPnWindow + countPnWin replay.window) :
    (chkReplayWindow rxPn replay).2.window ≠ ⟨0, 0⟩ := by
  have width : maxPnWindow = 62 := rfl
  have one : countPnWin replay.window = 1 := by
    rw [empty]
    rfl
  have bound := rxPn.word0.toNat_lt
  obtain ⟨taken, kept⟩ := tracked.check_near (Or.inr (Or.inr near))
  have absent : rxPn.word0.toNat ∉ accepted := by
    rw [tracked.represents _ (by omega), empty, PairWindow.holds_empty]
    exact Bool.false_ne_true
  have result := taken.mpr ⟨by omega, absent⟩
  rw [if_pos result] at kept
  have base : (chkReplayWindow rxPn replay).2.counter.word0.toNat < rxPn.word0.toNat := by
    rcases chkReplayWindow_cases replay rxPn with
      ⟨old, -⟩ | ⟨-, -, next, -⟩ | ⟨first, -⟩ | ⟨-, recorded⟩
    · omega
    · omega
    · exact absurd first started
    · rw [recorded] at result ⊢
      split at result
      · cases result
      · rename_i new
        rw [if_neg new]
        obtain ⟨slid, moved⟩ := tracked.slide (by omega)
        unfold recordReplay
        dsimp only
        rw [repcntDiff_near (by omega) (by omega)]
        split
        · rw [repcntDiff_near (by omega) (by omega), placeReplay_eq (by omega) (by omega),
            if_neg (by omega)]
          show (slideReplay replay).counter.word0.toNat < _
          omega
        · rw [placeReplay_eq (by omega) (by omega), if_neg (by omega)]
          show replay.counter.word0.toNat < _
          omega
  intro cleared
  have set := (kept.represents _ base).mp List.mem_cons_self
  rw [cleared, PairWindow.holds_empty] at set
  cases set

end Source

/-- The law of one frame, for the counter and the window that it is checked with. -/
structure SourceLaw (replay : Replay) (accepted : List Nat) (rxPn : Pn) : Prop where
  once : (chkReplayWindow rxPn replay).1 = true → rxPn.word0.toNat ∉ accepted
  admits : rxPn.word0.toNat ∉ accepted → replay.counter.word0.toNat < rxPn.word0.toNat →
    (chkReplayWindow rxPn replay).1 = true
  represents : Represents (chkReplayWindow rxPn replay).2.counter.word0.toNat
    (chkReplayWindow rxPn replay).2.window
    (if (chkReplayWindow rxPn replay).1 then rxPn.word0.toNat :: accepted else accepted)

/-- A frame keeps its counter and window right exactly when its number is not too far ahead. -/
theorem Tracked.sourceLaw_iff {replay : Replay} {accepted : List Nat}
    (tracked : Tracked replay accepted) (rxPn : Pn) :
    SourceLaw replay accepted rxPn ↔
      rxPn.word0.toNat ≤ replay.counter.word0.toNat ∨ replay.counter.word0.toNat = 0 ∨
        rxPn.word0.toNat ≤
          replay.counter.word0.toNat + maxPnWindow + countPnWin replay.window := by
  constructor
  · intro law
    by_contra far
    obtain ⟨above, started, far⟩ := not_or.mp far |>.imp_right not_or.mp
    obtain ⟨absent, lost⟩ := tracked.check_far started (Nat.lt_of_not_le far)
    have taken := law.admits absent (Nat.lt_of_not_le above)
    have represents := law.represents
    rw [if_pos taken] at represents
    exact lost taken represents
  · intro near
    obtain ⟨taken, kept⟩ := tracked.check_near near
    exact ⟨fun result => (taken.mp result).2, fun absent above => taken.mpr ⟨above, absent⟩,
      kept.represents⟩

/-- An empty window stays empty under old numbers, the first one and the very next one. -/
theorem check_next {replay : Replay} {rxPn : Pn} (empty : replay.window = ⟨0, 0⟩)
    (near : rxPn.word0.toNat ≤ replay.counter.word0.toNat ∨ replay.counter.word0.toNat = 0 ∨
      rxPn.word0.toNat = replay.counter.word0.toNat + 1) :
    (chkReplayWindow rxPn replay).2.window = ⟨0, 0⟩ := by
  rcases chkReplayWindow_cases replay rxPn with
    ⟨-, result⟩ | ⟨-, -, -, result⟩ | ⟨-, full⟩ | ⟨⟨started, above, apart⟩, -⟩
  · rw [result]
    exact empty
  · rw [result]
    exact empty
  · exact absurd empty full
  · have next := (near.resolve_left (Nat.not_le.mpr above)).resolve_left started
    exact absurd ⟨next.symm, empty⟩ apart

section Interface

variable {env : ReplayEnv} {state : ReplayState}

namespace ReplayVif

@[simp] theorem replay_put (vif : ReplayVif) (source : PnSource) (replay : Replay) :
    (vif.put source replay).replay source = replay := by
  cases source with
  | group => rfl
  | station staId =>
    show (⟨Function.update vif.uRepCnt staId replay.counter staId, replay.window⟩ : Replay) = _
    rw [Function.update_self]

/-- Another source keeps its counter, and its window unless both are stations. -/
theorem replay_put_other (vif : ReplayVif) {source other : PnSource} (replay : Replay)
    (different : other ≠ source) :
    (vif.put source replay).replay other = vif.replay other ∨
      (∃ staId otherId, source = .station staId ∧ other = .station otherId ∧ otherId ≠ staId) ∧
        (vif.put source replay).replay other =
          { vif.replay other with window := replay.window } := by
  cases source with
  | group =>
    cases other with
    | group => exact absurd rfl different
    | station otherId => exact Or.inl rfl
  | station staId =>
    cases other with
    | group => exact Or.inl rfl
    | station otherId =>
      have apart : otherId ≠ staId := fun same => different (congrArg PnSource.station same)
      refine Or.inr ⟨⟨staId, otherId, rfl, rfl, apart⟩, ?_⟩
      show (⟨Function.update vif.uRepCnt staId replay.counter otherId, replay.window⟩ : Replay) = _
      rw [Function.update_of_ne apart]
      rfl

end ReplayVif

/-- Every window stands for what was accepted, and one that stations share is empty. -/
structure ReplayInv (env : ReplayEnv) (state : ReplayState) : Prop where
  tracked : ∀ source, env.Knows source →
    Tracked (state.vif.replay source) (state.accepted source)
  shared : ∀ source, env.Knows source → ¬ Alone env source →
    (state.vif.replay source).window = ⟨0, 0⟩

variable (env state) in
/-- What the step does to the history of a source. -/
theorem replayStep_accepted (source : PnSource) (rxPn : Pn) :
    (replayStep env state (.frame source rxPn)).accepted source =
        (if (env.check source rxPn state.vif).1 then
          pnNumber env.cipher rxPn :: state.accepted source else state.accepted source) ∧
      ∀ other, other ≠ source →
        (replayStep env state (.frame source rxPn)).accepted other = state.accepted other := by
  unfold replayStep
  dsimp only
  cases (env.check source rxPn state.vif).1 with
  | true =>
    refine ⟨?_, fun other different => ?_⟩
    · rw [if_pos rfl, if_pos rfl, Function.update_self]
    · rw [if_pos rfl, Function.update_of_ne different]
  | false => exact ⟨rfl, fun _ _ => rfl⟩

variable (state) in
/-- A known source is checked with its own counter and window. -/
theorem check_known {source : PnSource} (known : env.Knows source) (rxPn : Pn) :
    env.check source rxPn state.vif =
      ((chkReplay env.cipher.decryptType rxPn (state.vif.replay source)).1,
        state.vif.put source
          (chkReplay env.cipher.decryptType rxPn (state.vif.replay source)).2) := by
  cases source with
  | group => rfl
  | station staId => exact if_pos known

theorem check_unknown {source : PnSource} (unknown : ¬ env.Knows source) (rxPn : Pn) :
    env.check source rxPn state.vif = (false, state.vif) := by
  cases source with
  | group => exact absurd trivial unknown
  | station staId => exact if_neg unknown

theorem ReplayInv.setKey (inv : ReplayInv env state) (source : PnSource) :
    ReplayInv env (replayStep env state (.setKey source)) := by
  unfold replayStep
  dsimp only
  split
  · rename_i known
    have shown : ∀ other, env.Knows other → other ≠ source →
        (state.vif.put source replayInit).replay other = state.vif.replay other := by
      intro other there different
      rcases ReplayVif.replay_put_other state.vif replayInit different with same | ⟨both, same⟩
      · exact same
      · obtain ⟨staId, otherId, rfl, rfl, apart⟩ := both
        have empty := inv.shared _ there fun alone => apart (alone staId known).symm
        rw [same]
        show Replay.mk _ _ = state.vif.replay _
        rw [← show (state.vif.replay (.station otherId)).window = replayInit.window from empty]
    constructor
    · intro other there
      by_cases same : other = source
      · subst same
        dsimp only
        rw [ReplayVif.replay_put, Function.update_self]
        refine ⟨⟨by decide, by decide⟩, ?_, ?_, fun _ => rfl⟩
        · intro number _
          refine iff_of_false (List.not_mem_nil) ?_
          show ¬ holds pnHalf ⟨0, 0⟩ _ = true
          rw [PairWindow.holds_empty]
          exact Bool.false_ne_true
        · intro number member
          cases member
      · dsimp only
        rw [shown other there same, Function.update_of_ne same]
        exact inv.tracked other there
    · intro other there shares
      by_cases same : other = source
      · subst same
        exact congrArg Replay.window (ReplayVif.replay_put state.vif other replayInit)
      · dsimp only
        rw [shown other there same]
        exact inv.shared other there shares
  · exact inv

theorem unknown_same {source : PnSource} (unknown : ¬ env.Knows source) (rxPn : Pn) :
    replayStep env state (.frame source rxPn) = state := by
  unfold replayStep
  dsimp only
  rw [check_unknown unknown]
  rfl

section Numbered

variable (numbered : env.cipher ≠ .wapi)

include numbered

theorem chkReplay_numbered (rxPn : Pn) (replay : Replay) :
    chkReplay env.cipher.decryptType rxPn replay = chkReplayWindow rxPn replay ∧
      ∀ pn : Pn, pnNumber env.cipher pn = pn.word0.toNat := by
  cases given : env.cipher with
  | tkip => exact ⟨rfl, fun _ => rfl⟩
  | ccmp => exact ⟨rfl, fun _ => rfl⟩
  | wapi => exact absurd given numbered

/-- The law of a frame is that of its own counter, and of the others that share its window. -/
theorem replayLaw_frame {source : PnSource} (known : env.Knows source) (rxPn : Pn) :
    ReplayLaw env state (.frame source rxPn) ↔
      SourceLaw (state.vif.replay source) (state.accepted source) rxPn ∧
        ∀ other, env.Knows other → other ≠ source →
          Represents (state.vif.replay other).counter.word0.toNat
            ((state.vif.put source
              (chkReplayWindow rxPn (state.vif.replay source)).2).replay other).window
            (state.accepted other) := by
  obtain ⟨checked, number⟩ := chkReplay_numbered numbered rxPn (state.vif.replay source)
  have check := check_known state known rxPn
  rw [checked] at check
  obtain ⟨own, others⟩ := replayStep_accepted env state source rxPn
  rw [check, number] at own
  have vif : (replayStep env state (.frame source rxPn)).vif =
      state.vif.put source (chkReplayWindow rxPn (state.vif.replay source)).2 :=
    congrArg Prod.snd check
  have counter : ∀ other, other ≠ source →
      ((state.vif.put source (chkReplayWindow rxPn (state.vif.replay source)).2).replay
        other).counter = (state.vif.replay other).counter := by
    intro other different
    rcases ReplayVif.replay_put_other state.vif
      (chkReplayWindow rxPn (state.vif.replay source)).2 different with same | ⟨-, same⟩
    · rw [same]
    · rw [same]
  constructor
  · rintro ⟨once, admits, represents⟩
    refine ⟨⟨?_, ?_, ?_⟩, ?_⟩
    · intro taken
      have absent := once source rxPn rfl (check ▸ taken)
      rwa [number] at absent
    · intro absent above
      have taken := admits source rxPn rfl known (by rwa [number])
        (by rwa [replayBase, number, number])
      rwa [check] at taken
    · have mine := represents source known
      rwa [replayBase, vif, ReplayVif.replay_put, own, number] at mine
    · intro other there different
      have others := others other different ▸ represents other there
      rwa [replayBase, vif, number, counter other different] at others
  · rintro ⟨⟨once, admits, represents⟩, shared⟩
    refine ⟨?_, ?_, ?_⟩
    · rintro _ _ ⟨⟩ taken
      rw [check] at taken
      rw [number]
      exact once taken
    · rintro _ _ ⟨⟩ - absent above
      rw [number] at absent
      rw [replayBase, number, number] at above
      rw [check]
      exact admits absent above
    · intro other there
      by_cases same : other = source
      · subst same
        rwa [replayBase, vif, ReplayVif.replay_put, own, number]
      · rw [replayBase, vif, number, counter other same, others other same]
        exact shared other there same

/-- A frame of a source with a window of its own. -/
theorem ReplayInv.frame_alone (inv : ReplayInv env state) {source : PnSource}
    (known : env.Knows source) (alone : Alone env source) (rxPn : Pn) :
    ReplayLaw env state (.frame source rxPn) ↔
      SourceLaw (state.vif.replay source) (state.accepted source) rxPn := by
  rw [replayLaw_frame numbered known]
  refine and_iff_left fun other there different => ?_
  rcases ReplayVif.replay_put_other state.vif
    (chkReplayWindow rxPn (state.vif.replay source)).2 different with same | ⟨both, -⟩
  · rw [same]
    exact (inv.tracked other there).represents
  · obtain ⟨staId, otherId, rfl, rfl, apart⟩ := both
    exact absurd (alone otherId there) apart

/-- A frame of a station that shares its window. -/
theorem ReplayInv.frame_shared (inv : ReplayInv env state) {source : PnSource}
    (known : env.Knows source) (shares : ¬ Alone env source) (rxPn : Pn) :
    ReplayLaw env state (.frame source rxPn) ↔
      SourceLaw (state.vif.replay source) (state.accepted source) rxPn ∧
        (chkReplayWindow rxPn (state.vif.replay source)).2.window = ⟨0, 0⟩ := by
  rw [replayLaw_frame numbered known]
  refine and_congr_right fun law => ?_
  have tracked := inv.tracked source known
  have kept := (tracked.check_near ((tracked.sourceLaw_iff rxPn).mp law)).2
  have others : ∀ other, env.Knows other → other ≠ source →
      (state.vif.put source (chkReplayWindow rxPn (state.vif.replay source)).2).replay other =
          state.vif.replay other ∨
        (state.vif.replay other).window = ⟨0, 0⟩ ∧
        ((state.vif.put source (chkReplayWindow rxPn (state.vif.replay source)).2).replay
          other).window = (chkReplayWindow rxPn (state.vif.replay source)).2.window := by
    intro other there different
    rcases ReplayVif.replay_put_other state.vif
      (chkReplayWindow rxPn (state.vif.replay source)).2 different with same | ⟨both, same⟩
    · exact Or.inl same
    · obtain ⟨staId, otherId, rfl, rfl, apart⟩ := both
      refine Or.inr ⟨inv.shared _ there fun alone => ?_,
        (congrArg Replay.window same).trans rfl⟩
      exact apart (alone staId known).symm
  constructor
  · intro represents
    -- another station has nothing above its base, so the window they share holds nothing
    obtain ⟨staId, rfl, otherId, there, apart⟩ :
        ∃ staId, source = .station staId ∧ ∃ otherId ∈ env.stations, otherId ≠ staId := by
      cases source with
      | group => exact absurd trivial shares
      | station staId =>
        obtain ⟨otherId, both⟩ := not_forall.mp shares
        obtain ⟨there, apart⟩ := Classical.not_imp.mp both
        exact ⟨staId, rfl, otherId, there, apart⟩
    have different : PnSource.station otherId ≠ .station staId := by
      rintro ⟨⟩
      exact apart rfl
    have after := represents (.station otherId) there different
    have before := (inv.tracked (.station otherId) there).represents
    have empty : (state.vif.replay (.station otherId)).window = ⟨0, 0⟩ := by
      refine inv.shared _ there fun alone => ?_
      exact apart (alone staId known).symm
    refine kept.fits.empty fun place => Bool.eq_false_iff.mpr fun set => ?_
    have number := (after ((state.vif.replay (.station otherId)).counter.word0.toNat + place + 1)
      (by omega)).mpr (by
        rw [Nat.add_assoc, Nat.add_sub_cancel_left, Nat.add_sub_cancel]
        exact set)
    have held := (before _ (by omega)).mp number
    rw [empty, PairWindow.holds_empty] at held
    cases held
  · intro empty other there different
    rcases others other there different with same | ⟨blank, same⟩
    · rw [same]
      exact (inv.tracked other there).represents
    · rw [same, empty, ← blank]
      exact (inv.tracked other there).represents

/-- The law of a step that the windows survive. -/
theorem ReplayInv.represents (inv : ReplayInv env state) (source : PnSource)
    (known : env.Knows source) :
    Represents (replayBase env state source) (state.vif.replay source).window
      (state.accepted source) := by
  rw [replayBase, (chkReplay_numbered numbered (state.vif.replay source).counter
    (state.vif.replay source)).2]
  exact (inv.tracked source known).represents

theorem ReplayInv.law_iff (inv : ReplayInv env state) (event : ReplayEvent) :
    ReplayLaw env state event ↔ ReplayOk env state event := by
  cases event with
  | setKey source =>
    refine iff_of_true ⟨?_, ?_, ?_⟩ trivial
    · rintro _ _ ⟨⟩
    · rintro _ _ ⟨⟩
    · exact (inv.setKey source).represents numbered
  | frame source rxPn =>
    by_cases known : env.Knows source
    · have tracked := inv.tracked source known
      obtain ⟨-, number⟩ := chkReplay_numbered numbered rxPn (state.vif.replay source)
      unfold ReplayOk replayBase
      dsimp only
      rw [number, number]
      by_cases alone : Alone env source
      · rw [inv.frame_alone numbered known alone, tracked.sourceLaw_iff, if_pos alone]
        exact ⟨fun near _ _ => near, fun near => near numbered known⟩
      · have empty := inv.shared source known alone
        rw [inv.frame_shared numbered known alone, tracked.sourceLaw_iff, if_neg alone]
        constructor
        · rintro ⟨near, clear⟩ - -
          by_contra apart
          obtain ⟨above, started, apart⟩ := not_or.mp apart |>.imp_right not_or.mp
          have near := (near.resolve_left above).resolve_left started
          exact tracked.check_gap started empty (by omega) near clear
        · intro near
          have near := near numbered known
          have positive := (countPnWin_spec tracked.fits).1
          exact ⟨near.imp_right (Or.imp_right fun next => by omega), check_next empty near⟩
    · refine iff_of_true ⟨?_, ?_, ?_⟩ fun _ there => absurd there known
      · rintro _ _ ⟨⟩ taken
        rw [check_unknown known] at taken
        cases taken
      · rintro _ _ ⟨⟩ there
        exact absurd there known
      · rw [unknown_same known]
        exact inv.represents numbered

theorem ReplayInv.step (inv : ReplayInv env state) (event : ReplayEvent)
    (law : ReplayLaw env state event) : ReplayInv env (replayStep env state event) := by
  cases event with
  | setKey source => exact inv.setKey source
  | frame source rxPn =>
    by_cases known : env.Knows source
    · have tracked := inv.tracked source known
      obtain ⟨checked, number⟩ := chkReplay_numbered numbered rxPn (state.vif.replay source)
      have check := check_known state known rxPn
      rw [checked] at check
      obtain ⟨own, others⟩ := replayStep_accepted env state source rxPn
      rw [check, number] at own
      have vif : (replayStep env state (.frame source rxPn)).vif =
          state.vif.put source (chkReplayWindow rxPn (state.vif.replay source)).2 :=
        congrArg Prod.snd check
      have mine := ((replayLaw_frame numbered known rxPn).mp law).1
      have kept := (tracked.check_near ((tracked.sourceLaw_iff rxPn).mp mine)).2
      -- the window of a station that is not alone is empty before and after
      have still : ¬ Alone env source →
          (chkReplayWindow rxPn (state.vif.replay source)).2.window =
            (state.vif.replay source).window := by
        intro shares
        rw [((inv.frame_shared numbered known shares rxPn).mp law).2, inv.shared source known shares]
      have shown : ∀ other, env.Knows other → other ≠ source →
          (replayStep env state (.frame source rxPn)).vif.replay other =
            state.vif.replay other := by
        intro other there different
        rw [vif]
        rcases ReplayVif.replay_put_other state.vif
          (chkReplayWindow rxPn (state.vif.replay source)).2 different with same | ⟨both, same⟩
        · exact same
        · obtain ⟨staId, otherId, rfl, rfl, apart⟩ := both
          rw [same, still fun alone => apart (alone otherId there)]
          rfl
      constructor
      · intro other there
        by_cases same : other = source
        · subst same
          rw [vif, ReplayVif.replay_put, own]
          exact kept
        · rw [shown other there same, others other same]
          exact inv.tracked other there
      · intro other there shares
        by_cases same : other = source
        · subst same
          rw [vif, ReplayVif.replay_put, still shares]
          exact inv.shared other there shares
        · rw [shown other there same]
          exact inv.shared other there shares
    · rw [unknown_same known]
      exact inv

end Numbered

/-- Under WAPI no window is used, and the counter is the highest number accepted. -/
structure WapiInv (env : ReplayEnv) (state : ReplayState) : Prop where
  unused : ∀ source, (state.vif.replay source).window = ⟨0, 0⟩
  highest : ∀ source, env.Knows source → ∀ number ∈ state.accepted source,
    number ≤ (state.vif.replay source).counter.value

/-- Putting back a counter with an unused window leaves all windows unused. -/
theorem WapiInv.put_unused (inv : WapiInv env state) (source : PnSource) {replay : Replay}
    (unused : replay.window = ⟨0, 0⟩) (other : PnSource) :
    ((state.vif.put source replay).replay other).window = ⟨0, 0⟩ := by
  by_cases same : other = source
  · subst same
    rw [ReplayVif.replay_put]
    exact unused
  · rcases ReplayVif.replay_put_other state.vif replay same with kept | ⟨-, kept⟩
    · rw [kept]
      exact inv.unused other
    · rw [kept]
      exact unused

private theorem WapiInv.put_counter (source : PnSource) (replay : Replay) {other : PnSource}
    (different : other ≠ source) :
    ((state.vif.put source replay).replay other).counter = (state.vif.replay other).counter := by
  rcases ReplayVif.replay_put_other state.vif replay different with kept | ⟨-, kept⟩
  · rw [kept]
  · rw [kept]

section Wapi

variable (wapi : env.cipher = .wapi)

include wapi

variable (state) in
theorem check_wapi {source : PnSource} (known : env.Knows source) (rxPn : Pn) :
    env.check source rxPn state.vif =
      if halWpiChkPnIncrease rxPn (state.vif.replay source).counter then
        (true, state.vif.put source { state.vif.replay source with counter := rxPn })
      else (false, state.vif.put source (state.vif.replay source)) := by
  rw [check_known _ known, wapi]
  show ((chkReplayWapi rxPn (state.vif.replay source)).1,
    state.vif.put source (chkReplayWapi rxPn (state.vif.replay source)).2) = _
  unfold chkReplayWapi
  split
  · rfl
  · rfl

theorem WapiInv.step (inv : WapiInv env state) (event : ReplayEvent) :
    WapiInv env (replayStep env state event) := by
  cases event with
  | setKey source =>
    unfold replayStep
    dsimp only
    split
    · refine ⟨inv.put_unused source rfl, ?_⟩
      intro other there number member
      by_cases same : other = source
      · subst same
        change number ∈ Function.update state.accepted other [] other at member
        rw [Function.update_self] at member
        cases member
      · change number ∈ Function.update state.accepted source [] other at member
        rw [Function.update_of_ne same] at member
        show number ≤ ((state.vif.put source replayInit).replay other).counter.value
        rw [WapiInv.put_counter source replayInit same]
        exact inv.highest other there number member
    · exact inv
  | frame source rxPn =>
    by_cases known : env.Knows source
    · obtain ⟨own, others⟩ := replayStep_accepted env state source rxPn
      have check := check_wapi state wapi known rxPn
      have vif : (replayStep env state (.frame source rxPn)).vif =
          (env.check source rxPn state.vif).2 := rfl
      by_cases above : halWpiChkPnIncrease rxPn (state.vif.replay source).counter = true
      · rw [if_pos above] at check
        rw [check] at vif own
        refine ⟨vif ▸ inv.put_unused source (inv.unused source), ?_⟩
        intro other there number member
        by_cases same : other = source
        · subst same
          rw [own, if_pos rfl, wapi] at member
          rw [vif, ReplayVif.replay_put]
          rcases List.mem_cons.mp member with newest | older
          · exact newest.le
          · have below := (halWpiChkPnIncrease_iff _ _).mp above
            exact (inv.highest other there number older).trans below.le
        · rw [others other same] at member
          rw [vif, WapiInv.put_counter source _ same]
          exact inv.highest other there number member
      · rw [if_neg above] at check
        rw [check] at vif own
        refine ⟨vif ▸ inv.put_unused source (inv.unused source), ?_⟩
        intro other there number member
        by_cases same : other = source
        · subst same
          rw [own, if_neg Bool.false_ne_true] at member
          rw [vif, ReplayVif.replay_put]
          exact inv.highest other there number member
        · rw [others other same] at member
          rw [vif, WapiInv.put_counter source _ same]
          exact inv.highest other there number member
    · rw [unknown_same known]
      exact inv

private theorem WapiInv.law (inv : WapiInv env state) (event : ReplayEvent) :
    ReplayLaw env state event := by
  have number : ∀ pn : Pn, pnNumber env.cipher pn = pn.value := fun pn => by rw [wapi]; rfl
  have next := inv.step wapi event
  refine ⟨?_, ?_, ?_⟩
  · rintro source rxPn - taken member
    by_cases known : env.Knows source
    · rw [check_wapi _ wapi known] at taken
      rw [number] at member
      split at taken
      · rename_i above
        have below := (halWpiChkPnIncrease_iff _ _).mp above
        exact absurd (inv.highest source known _ member) (Nat.not_le.mpr below)
      · cases taken
    · rw [check_unknown known] at taken
      cases taken
  · rintro source rxPn - known - above
    rw [replayBase, number, number] at above
    rw [check_wapi _ wapi known, if_pos ((halWpiChkPnIncrease_iff _ _).mpr above)]
  · intro source known other past
    rw [replayBase, number] at past
    rw [next.unused source, PairWindow.holds_empty]
    refine iff_of_false (fun member => ?_) Bool.false_ne_true
    exact absurd (next.highest source known other member) (Nat.not_le.mpr past)

end Wapi

end Interface

section Runs

/-- What every state of a lawful run keeps, by the cipher of the interface. -/
def ReplaySettled (env : ReplayEnv) (state : ReplayState) : Prop :=
  if env.cipher = .wapi then WapiInv env state else ReplayInv env state

private theorem replayStart_settled (env : ReplayEnv) : ReplaySettled env replayStart := by
  unfold ReplaySettled
  split
  · refine ⟨fun source => ?_, fun source _ number member => ?_⟩
    · cases source with
      | group => rfl
      | station staId => rfl
    · cases member
  · have zero : ∀ source, replayStart.vif.replay source = replayInit := by
      intro source
      cases source with
      | group => rfl
      | station staId => rfl
    refine ⟨fun source _ => ?_, fun source _ _ => congrArg Replay.window (zero source)⟩
    rw [zero]
    refine ⟨⟨by decide, by decide⟩, ?_, fun number member => ?_, fun _ => rfl⟩
    · intro number _
      refine iff_of_false (fun member => ?_) ?_
      · cases member
      · show ¬ holds pnHalf ⟨0, 0⟩ _ = true
        rw [PairWindow.holds_empty]
        exact Bool.false_ne_true
    · cases member

private theorem ReplaySettled.law_iff {env : ReplayEnv} {state : ReplayState}
    (settled : ReplaySettled env state) (event : ReplayEvent) :
    ReplayLaw env state event ↔ ReplayOk env state event := by
  unfold ReplaySettled at settled
  split at settled
  · rename_i wapi
    refine iff_of_true (settled.law wapi event) ?_
    cases event with
    | setKey source => trivial
    | frame source rxPn => exact fun numbered => absurd wapi numbered
  · rename_i numbered
    exact settled.law_iff numbered event

private theorem ReplaySettled.step {env : ReplayEnv} {state : ReplayState}
    (settled : ReplaySettled env state) (event : ReplayEvent)
    (law : ReplayLaw env state event) : ReplaySettled env (replayStep env state event) := by
  unfold ReplaySettled at settled ⊢
  split at settled
  · rename_i wapi
    rw [if_pos wapi]
    exact settled.step wapi event
  · rename_i numbered
    rw [if_neg numbered]
    exact settled.step numbered event law

/-- On any interface, with any stations, no number is accepted twice, new numbers above the base
are accepted and the windows stand for what was accepted, in every state of a run, exactly when
every TKIP or CCMP frame has an old number, the first one, or one that its window can take: at most
62 above the base and the run of ones that a slide would skip, or, where stations share the window,
the very next one. -/
theorem replay_window_iff (env : ReplayEnv) (events : List ReplayEvent) :
    Machine.Along (replayStep env) (ReplayLaw env) replayStart events ↔
      Machine.Along (replayStep env) (ReplayOk env) replayStart events :=
  Machine.along_congr (fun _ event settled => settled.law_iff event)
    (fun _ event settled law => settled.step event law) (replayStart_settled env)

end Runs

def ccmpFrame (staId : Nat) (number : UInt64) : ReplayEvent := .frame (.station staId) ⟨number, 0⟩

/-- One station sends the number 100 after the number 1, and a copy of it is accepted again. -/
theorem replay_window_replayed :
    ¬ Machine.Along (replayStep ⟨[1], .ccmp⟩) (ReplayLaw ⟨[1], .ccmp⟩) replayStart
      [ccmpFrame 1 1, ccmpFrame 1 100, ccmpFrame 1 100] := by
  rintro ⟨-, -, replayed, -⟩
  exact absurd (replayed.once (.station 1) ⟨100, 0⟩ rfl (by decide +kernel)) (by decide +kernel)

end W522a.Crypto
