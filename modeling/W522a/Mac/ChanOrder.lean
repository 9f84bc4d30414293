import W522a.Lib.Pivot

/-!
The table of the channels, and the quicksort that orders it by the channel numbers.
-/

namespace W522a.Country

/-- `wifi_mac_bwc_width` -/
inductive BwcWidth where
  | width20
  | width40
  | width80
  | width160
  | width80p80
  | unset
  deriving DecidableEq, Repr

structure WifiChannel where
  chanCfreq1 : Nat
  chanFlags : UInt16
  chanPriNum : Nat
  chanMaxpower : Int
  chanMinpower : Int
  chanBw : BwcWidth
  globalOperatingClass : Nat
  deriving DecidableEq, Repr

/-- The memory of a table, of which the first entries are in use. -/
abbrev Channels : Type := Nat → WifiChannel

/-- The first inner loop of `wifi_mac_get_pos`, downwards from `j`. -/
def scanDown (channels : Channels) (x : WifiChannel) (i : Nat) : Nat → Nat
  | 0 => 0
  | j + 1 =>
    if i < j + 1 ∧ x.chanPriNum ≤ (channels (j + 1)).chanPriNum then scanDown channels x i j
    else j + 1

/-- The second inner loop of `wifi_mac_get_pos`, upwards from `i`. -/
def scanUp (channels : Channels) (x : WifiChannel) (i j : Nat) : Nat :=
  if i < j ∧ (channels i).chanPriNum < x.chanPriNum then scanUp channels x (i + 1) j else i
termination_by j - i

section Scans

variable {channels : Channels} {x : WifiChannel} {i j : Nat}

/-- Where the scan stops: at the hole, or at the first channel from above that belongs below. -/
theorem scanDown_spec (ordered : i ≤ j) :
    i ≤ scanDown channels x i j ∧ scanDown channels x i j ≤ j ∧
    (∀ place, scanDown channels x i j < place → place ≤ j →
      x.chanPriNum ≤ (channels place).chanPriNum) ∧
    (i < scanDown channels x i j →
      (channels (scanDown channels x i j)).chanPriNum < x.chanPriNum) := by
  induction j with
  | zero =>
    obtain rfl : i = 0 := by omega
    exact ⟨Nat.le_refl _, Nat.le_refl _, by omega, fun less => absurd less (Nat.lt_irrefl _)⟩
  | succ j induction =>
    rw [scanDown]
    split
    · rename_i more
      obtain ⟨lower, upper, passed, stopped⟩ := induction (by omega)
      refine ⟨lower, by omega, ?_, stopped⟩
      intro place behind within
      rcases Nat.lt_or_eq_of_le within with less | rfl
      · exact passed place behind (by omega)
      · exact more.2
    · rename_i ends
      refine ⟨ordered, Nat.le_refl _, by omega, ?_⟩
      intro less
      exact Nat.lt_of_not_le fun reached => ends ⟨less, reached⟩

theorem scanUp_spec (ordered : i ≤ j) :
    i ≤ scanUp channels x i j ∧ scanUp channels x i j ≤ j ∧
    (∀ place, i ≤ place → place < scanUp channels x i j →
      (channels place).chanPriNum < x.chanPriNum) ∧
    (scanUp channels x i j < j →
      x.chanPriNum ≤ (channels (scanUp channels x i j)).chanPriNum) := by
  fun_induction scanUp channels x i j with
  | case1 i more induction =>
    obtain ⟨lower, upper, passed, stopped⟩ := induction (by omega)
    refine ⟨by omega, upper, ?_, stopped⟩
    intro place behind within
    rcases Nat.lt_or_eq_of_le behind with less | rfl
    · exact passed place less within
    · exact more.2
  | case2 i ends =>
    refine ⟨Nat.le_refl _, ordered, by omega, ?_⟩
    intro less
    exact Nat.le_of_not_lt fun reached => ends ⟨less, reached⟩

end Scans

/-- A turn of the outer loop of `wifi_mac_get_pos`, with the two ends. -/
def posTurn (channels : Channels) (x : WifiChannel) (i j : Nat) : Channels × Nat × Nat :=
  let j := scanDown channels x i j
  let (channels, i) :=
    if i < j then (Function.update channels i (channels j), i + 1) else (channels, i)
  let i := scanUp channels x i j
  if i < j then (Function.update channels j (channels i), i, j - 1) else (channels, i, j)

/-- The part from `a` to `b`, in which the place `i` is a hole for `x`: what lies below the hole
belongs there, and so does what lies above `j`. -/
structure Parting (before channels : Channels) (x : WifiChannel) (a b i j : Nat) : Prop where
  lower : a ≤ i
  ordered : i ≤ j
  upper : j ≤ b
  shuffled : Pivot.Shuffled a (b + 1) before (Function.update channels i x)
  below : Pivot.Each (fun c => c.chanPriNum < x.chanPriNum) a i channels
  above : Pivot.Each (fun c => x.chanPriNum ≤ c.chanPriNum) (j + 1) (b + 1) channels

section Turn

variable {before channels : Channels} {x : WifiChannel} {a b i j hole : Nat}

/-- The hole has moved to the upper end, behind what was moved down. -/
structure Lifted (before channels : Channels) (x : WifiChannel) (a b i j : Nat) : Prop where
  lower : a ≤ i
  ordered : i ≤ j
  upper : j ≤ b
  shuffled : Pivot.Shuffled a (b + 1) before (Function.update channels j x)
  below : Pivot.Each (fun c => c.chanPriNum < x.chanPriNum) a i channels
  above : Pivot.Each (fun c => x.chanPriNum ≤ c.chanPriNum) (j + 1) (b + 1) channels

/-- The channel at which the scan from above stops is moved down into the hole. -/
theorem Parting.lift (parting : Parting before channels x a b i j)
    (stop : scanDown channels x i j = hole) :
    if i < hole then Lifted before (Function.update channels i (channels hole)) x a b (i + 1) hole
    else Lifted before channels x a b i hole := by
  obtain ⟨low, high, passed, stopped⟩ := stop ▸ scanDown_spec parting.ordered
  have lower := parting.lower
  have upper := parting.upper
  have above : Pivot.Each (fun c => x.chanPriNum ≤ c.chanPriNum) (hole + 1) (b + 1) channels := by
    intro place behind within
    rcases Nat.lt_or_ge j place with far | near
    · exact parting.above place far within
    · exact passed place behind near
  split
  · rename_i less
    refine ⟨by omega, less, by omega, ?_, ?_, ?_⟩
    · exact parting.shuffled.move ⟨lower, by omega⟩ ⟨by omega, by omega⟩
    · intro place from_a inside
      rcases Nat.lt_or_eq_of_le (Nat.le_of_lt_succ inside) with old | rfl
      · rw [Function.update_of_ne (by omega)]
        exact parting.below place from_a old
      · rw [Function.update_self]
        exact stopped less
    · intro place behind within
      rw [Function.update_of_ne (by omega)]
      exact above place behind within
  · obtain rfl : i = hole := by omega
    exact ⟨lower, Nat.le_refl _, by omega, parting.shuffled, parting.below, above⟩

/-- The channel at which the scan from below stops is moved up into the hole. -/
theorem Lifted.drop (lifted : Lifted before channels x a b i j)
    (stop : scanUp channels x i j = hole) :
    if hole < j then
      Parting before (Function.update channels j (channels hole)) x a b hole (j - 1)
    else Parting before channels x a b hole j := by
  obtain ⟨low, high, passed, stopped⟩ := stop ▸ scanUp_spec lifted.ordered
  have lower := lifted.lower
  have upper := lifted.upper
  have below : Pivot.Each (fun c => c.chanPriNum < x.chanPriNum) a hole channels := by
    intro place from_a inside
    rcases Nat.lt_or_ge place i with old | new
    · exact lifted.below place from_a old
    · exact passed place new inside
  split
  · rename_i less
    refine ⟨by omega, by omega, by omega, ?_, ?_, ?_⟩
    · exact lifted.shuffled.move ⟨by omega, by omega⟩ ⟨by omega, by omega⟩
    · intro place from_a inside
      rw [Function.update_of_ne (by omega)]
      exact below place from_a inside
    · intro place behind within
      rcases Nat.lt_or_eq_of_le (show j ≤ place by omega) with far | rfl
      · rw [Function.update_of_ne (by omega)]
        exact lifted.above place far within
      · rw [Function.update_self]
        exact stopped less
  · obtain rfl : hole = j := by omega
    exact ⟨by omega, Nat.le_refl _, upper, lifted.shuffled, below, lifted.above⟩

private theorem posTurn_parting (parting : Parting before channels x a b i j) :
    Parting before (posTurn channels x i j).1 x a b (posTurn channels x i j).2.1
      (posTurn channels x i j).2.2 := by
  have lift := parting.lift rfl
  unfold posTurn
  split at lift
  · rename_i less
    have drop := lift.drop rfl
    simp only [if_pos less]
    split at drop
    · rename_i more
      simp only [if_pos more]
      exact drop
    · rename_i ends
      simp only [if_neg ends]
      exact drop
  · rename_i ends
    have drop := lift.drop rfl
    simp only [if_neg ends]
    split at drop
    · rename_i more
      simp only [if_pos more]
      exact drop
    · rename_i ends
      simp only [if_neg ends]
      exact drop

theorem posTurn_lt (less : i < j) :
    (posTurn channels x i j).2.2 - (posTurn channels x i j).2.1 < j - i := by
  have down := @scanDown_spec channels x i j (Nat.le_of_lt less)
  unfold posTurn
  by_cases lifted : i < scanDown channels x i j
  · have up := @scanUp_spec
      (Function.update channels i (channels (scanDown channels x i j))) x (i + 1) _ lifted
    simp only [if_pos lifted]
    split <;> simp only <;> omega
  · have up := @scanUp_spec channels x _ _ down.1
    simp only [if_neg lifted]
    split <;> simp only <;> omega

end Turn

/-- The outer loop of `wifi_mac_get_pos`: the place of the hole. -/
def posLoop (channels : Channels) (x : WifiChannel) (i j : Nat) : Channels × Nat :=
  if _less : i < j then
    let turn := posTurn channels x i j
    posLoop turn.1 x turn.2.1 turn.2.2
  else (channels, i)
termination_by j - i
decreasing_by exact posTurn_lt ‹_›

def wifiMacGetPos (channels : Channels) (a b : Nat) : Channels × Nat :=
  if b < a then (channels, 0)
  else
    let (moved, i) := posLoop channels (channels a) a b
    (Function.update moved i (channels a), i)

section Position

variable {before channels : Channels} {x : WifiChannel} {a b i j : Nat}

/-- The channel at `pos` parts the places from `a` to `b`, which were otherwise shuffled. -/
structure Parted (before after : Channels) (a b pos : Nat) : Prop where
  lower : a ≤ pos
  upper : pos ≤ b
  shuffled : Pivot.Shuffled a (b + 1) before after
  below : Pivot.Each (fun c => c.chanPriNum ≤ (after pos).chanPriNum) a pos after
  above : Pivot.Each (fun c => (after pos).chanPriNum ≤ c.chanPriNum) (pos + 1) (b + 1) after

private theorem Parting.done (parting : Parting before channels x a b i j) (met : ¬ i < j) :
    Parted before (Function.update channels i x) a b i := by
  have ordered := parting.ordered
  obtain rfl : i = j := by omega
  refine ⟨parting.lower, parting.upper, parting.shuffled, ?_, ?_⟩
  · intro place from_a inside
    rw [Function.update_self, Function.update_of_ne (by omega)]
    exact Nat.le_of_lt (parting.below place from_a inside)
  · intro place behind within
    rw [Function.update_self, Function.update_of_ne (by omega)]
    exact parting.above place behind within

private theorem posLoop_parted (parting : Parting before channels x a b i j) :
    Parted before
      (Function.update (posLoop channels x i j).1 (posLoop channels x i j).2 x) a b
      (posLoop channels x i j).2 := by
  fun_induction posLoop channels x i j with
  | case1 channels i j less turn induction => exact induction (posTurn_parting parting)
  | case2 channels i j met => exact parting.done met

theorem wifiMacGetPos_parted (channels : Channels) (ordered : a ≤ b) :
    Parted channels (wifiMacGetPos channels a b).1 a b (wifiMacGetPos channels a b).2 := by
  have start : Parting channels channels (channels a) a b a b := by
    refine ⟨Nat.le_refl _, ordered, Nat.le_refl _, ?_, ?_, ?_⟩
    · rw [Function.update_eq_self]
      exact .refl _ _ _
    · intro place from_a inside
      omega
    · intro place behind within
      omega
  rw [wifiMacGetPos, if_neg (Nat.not_lt.mpr ordered)]
  exact posLoop_parted start

end Position

/-- `wifi_mac_chan_order`. The index -1, to the left of the table, is 0 here: there is nothing to
order in either case. -/
def wifiMacChanOrder (channels : Channels) (a b : Nat) : Channels :=
  if _less : a < b then
    let parted := wifiMacGetPos channels a b
    wifiMacChanOrder (wifiMacChanOrder parted.1 a (parted.2 - 1)) (parted.2 + 1) b
  else channels
termination_by b - a
decreasing_by
  all_goals
    have parted := wifiMacGetPos_parted channels (Nat.le_of_lt ‹a < b›)
    have lower := parted.lower
    have upper := parted.upper
    omega

theorem wifiMacChanOrder_short {channels : Channels} {a b : Nat} (short : b ≤ a) :
    wifiMacChanOrder channels a b = channels := by
  rw [wifiMacChanOrder, dif_neg (Nat.not_lt.mpr short)]

/-- The places from `a` to `b` are put in order, and the others are left alone. -/
theorem wifiMacChanOrder_sorted (channels : Channels) (a b : Nat) :
    Pivot.Shuffled a (b + 1) channels (wifiMacChanOrder channels a b) ∧
      Pivot.Sorted WifiChannel.chanPriNum a (b + 1) (wifiMacChanOrder channels a b) := by
  fun_induction wifiMacChanOrder channels a b with
  | case1 channels a b less parted left _ right =>
    have at_pos : Parted channels parted.1 a b parted.2 :=
      wifiMacGetPos_parted channels (Nat.le_of_lt less)
    obtain ⟨lower, upper, shuffled, below, above⟩ := at_pos
    have leftSide : Pivot.Shuffled a parted.2 parted.1
          (wifiMacChanOrder parted.1 a (parted.2 - 1)) ∧
        Pivot.Sorted WifiChannel.chanPriNum a parted.2
          (wifiMacChanOrder parted.1 a (parted.2 - 1)) := by
      rcases Nat.lt_or_eq_of_le lower with some_left | none_left
      · rwa [Nat.sub_add_cancel (show 1 ≤ parted.2 by omega)] at left
      · rw [wifiMacChanOrder_short (by omega)]
        exact ⟨.refl _ _ _, Pivot.sorted_of_short (by omega)⟩
    constructor
    · have sides := (leftSide.1.widen (Nat.le_refl a) (show parted.2 ≤ b + 1 by omega)).trans
        (right.1.widen (show a ≤ parted.2 + 1 by omega) (Nat.le_refl _))
      exact shuffled.trans sides
    · exact Pivot.sorted_of_parted below above leftSide.1 leftSide.2 right.1 right.2
  | case2 channels a b short =>
    exact ⟨.refl _ _ _, Pivot.sorted_of_short (by omega)⟩

end W522a.Country
