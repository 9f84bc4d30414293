import W522a.Mac.AmsduSplit

/-!
What the split of an A-MSDU does to its socket buffer, access by access: where it reads and writes,
which views it hands up, and when it gives the buffer itself away.
-/

namespace W522a.Mac

/-- What the split does, in order. -/
inductive WalkEvent where
  /-- A turn of the loop, with what is left of the A-MSDU. -/
  | round (left : Nat)
  | read (start count : Nat)
  | write (start count : Nat)
  /-- `__wifi_mac_deliver_data`, which consumes the buffer: the A-MSDU's own one, or a clone. -/
  | hand (subfrm : SkbView) (original : Bool)
  /-- `os_skb_free` of the A-MSDU's own buffer. -/
  | free
  deriving DecidableEq, Repr

/-- What `wifi_mac_amsdu_subframe_decap` reads and writes. -/
def decapEvents (skb : SkbView) : List WalkEvent :=
  .read skb.data etherHeaderLen ::
    match osSkbPull skb etherHeaderLen with
    | none => []
    | some llc =>
      .read (llc.data + 6) 2 ::
        match osSkbPull llc llcSnapframelen with
        | none => []
        | some payload => [.write (osSkbPush payload etherHeaderLen).data etherHeaderLen]

/-- The loop of `wifi_mac_amsdu_input`, with the release behind it. -/
def amsduWalk (alloc : RxAlloc) (turn : Nat) (buf : List UInt8) (skb : SkbView) : List WalkEvent :=
  if skb.len < etherHeaderLen then [.free]
  else
    .round skb.len :: .read (skb.data + 12) 2 ::
      if be16 buf (skb.data + 12) < llcSnapframelen then [.free]
      else
        let subfrmLen := be16 buf (skb.data + 12) + etherHeaderLen
        let (decapped, subfrm) := wifiMacAmsduSubframeDecap buf skb
        if skb.len = subfrmLen then decapEvents skb ++ [.hand subfrm true]
        else if skb.len < roundup subfrmLen 4 then [.free]
        else if !alloc.cloneOk turn then [.free]
        else
          decapEvents skb ++
            .hand (osSkbTrim subfrm (subfrmLen - llcSnapframelen)) false ::
              amsduWalk alloc (turn + 1) decapped
                ⟨skb.data + roundup subfrmLen 4, skb.len - roundup subfrmLen 4⟩
  termination_by skb.len
  decreasing_by
    simp only [roundup, etherHeaderLen, llcSnapframelen] at *
    omega

/-- `wifi_mac_amsdu_input`: what it does to the buffer of the A-MSDU. -/
def wifiMacAmsduWalk (alloc : RxAlloc) (buf : List UInt8) (skb : SkbView) : List WalkEvent :=
  if skb.len < etherHeaderLen then [.free]
  else amsduWalk alloc 0 buf ⟨skb.data + etherHeaderLen, skb.len - etherHeaderLen⟩

namespace WalkEvent

/-- Every byte of an access or of a view lies between two places. -/
def Within (low high : Nat) : WalkEvent → Prop
  | round _ | free => True
  | read start count | write start count => low ≤ start ∧ start + count ≤ high
  | hand subfrm _ => low ≤ subfrm.data ∧ subfrm.data + subfrm.len ≤ high

/-- The A-MSDU's own buffer goes to its next owner. -/
def releases : WalkEvent → Bool
  | hand _ original => original
  | free => true
  | _ => false

/-- What is left when a turn begins. -/
def left? : WalkEvent → Option Nat
  | round left => some left
  | _ => none

def view? : WalkEvent → Option SkbView
  | hand subfrm _ => some subfrm
  | _ => none

theorem Within.mono {low high below above : Nat} {event : WalkEvent}
    (inside : event.Within low high) (lower : below ≤ low) (higher : high ≤ above) :
    event.Within below above := by
  cases event with
  | round left => trivial
  | free => trivial
  | read start count => exact ⟨Nat.le_trans lower inside.1, Nat.le_trans inside.2 higher⟩
  | write start count => exact ⟨Nat.le_trans lower inside.1, Nat.le_trans inside.2 higher⟩
  | hand subfrm original => exact ⟨Nat.le_trans lower inside.1, Nat.le_trans inside.2 higher⟩

end WalkEvent

def handedViews (events : List WalkEvent) : List SkbView := events.filterMap WalkEvent.view?

/-- What is left of the A-MSDU as each turn begins. -/
def roundLengths (events : List WalkEvent) : List Nat := events.filterMap WalkEvent.left?

theorem decapEvents_eq {skb : SkbView} (long : 22 ≤ skb.len) :
    decapEvents skb =
      [.read skb.data 14, .read (skb.data + 20) 2, .write (skb.data + 8) 14] := by
  have first : ¬ skb.len < 14 := by omega
  have second : ¬ skb.len - 14 < 8 := by omega
  simp only [decapEvents, osSkbPull, etherHeaderLen, llcSnapframelen, if_neg first, if_neg second,
    osSkbPush]
  have start_eq : skb.data + 14 + 8 - 14 = skb.data + 8 := by omega
  rw [start_eq]

private theorem handedViews_append (first second : List WalkEvent) :
    handedViews (first ++ second) = handedViews first ++ handedViews second :=
  List.filterMap_append

private theorem handedViews_decapEvents (skb : SkbView) : handedViews (decapEvents skb) = [] := by
  rw [decapEvents]
  cases osSkbPull skb etherHeaderLen with
  | none => rfl
  | some llc =>
    dsimp only
    cases osSkbPull llc llcSnapframelen with
    | none => rfl
    | some payload => rfl

/-- What `__wifi_mac_deliver_data` batches of a view. -/
theorem wifiMacDeliverData_filter (skb : SkbView) (batchList : List SkbView) :
    wifiMacDeliverData skb batchList =
      batchList ++ [skb].filter fun subfrm => decide (etherHeaderLen ≤ subfrm.len) := by
  rw [wifiMacDeliverData]
  by_cases short : skb.len < etherHeaderLen
  · rw [if_pos short, List.filter_cons_of_neg (by simpa using short), List.filter_nil,
      List.append_nil]
  · rw [if_neg short, List.filter_cons_of_pos (by simpa using short), List.filter_nil]

/-- The loop of `wifi_mac_amsdu_input` batches the views that the walk hands up, but for those
shorter than a header. -/
theorem amsduLoop_walk (alloc : RxAlloc) (fuel turn : Nat) (state : AmsduState)
    (enough : state.skb.len ≤ fuel) :
    (amsduLoop alloc fuel turn state).amsduList = state.amsduList ++
      (handedViews (amsduWalk alloc turn state.buf state.skb)).filter
        fun subfrm => decide (etherHeaderLen ≤ subfrm.len) := by
  induction fuel generalizing turn state with
  | zero =>
    have short : state.skb.len < etherHeaderLen := by
      rw [Nat.le_zero.mp enough]
      decide
    rw [amsduLoop, amsduWalk, if_pos short]
    exact (List.append_nil _).symm
  | succ fuel ih =>
    rw [amsduLoop, amsduWalk]
    have stops : ∀ events, handedViews events = [] → state.amsduList = state.amsduList ++
        (handedViews events).filter fun subfrm => decide (etherHeaderLen ≤ subfrm.len) := by
      intro events nothing
      rw [nothing]
      exact (List.append_nil _).symm
    by_cases short : state.skb.len < etherHeaderLen
    · rw [if_pos short, if_pos short]
      exact stops _ rfl
    rw [if_neg short, if_neg short]
    by_cases small : be16 state.buf (state.skb.data + 12) < llcSnapframelen
    · rw [if_pos small, if_pos small]
      exact stops _ rfl
    rw [if_neg small, if_neg small]
    dsimp only
    split
    · show wifiMacDeliverData _ _ = _ ++ (handedViews (decapEvents _ ++ _)).filter _
      rw [handedViews_append, handedViews_decapEvents, wifiMacDeliverData_filter]
      rfl
    · split
      · exact stops _ rfl
      · rename_i last fits
        split
        · exact stops _ rfl
        · have pulled : osSkbPull state.skb (roundup (be16 state.buf (state.skb.data + 12) +
              etherHeaderLen) 4) = some ⟨state.skb.data + roundup (be16 state.buf
                (state.skb.data + 12) + etherHeaderLen) 4, state.skb.len - roundup (be16 state.buf
                  (state.skb.data + 12) + etherHeaderLen) 4⟩ := by
            rw [osSkbPull, if_neg fits]
          have least : 0 < roundup (be16 state.buf (state.skb.data + 12) + etherHeaderLen) 4 := by
            simp only [roundup, etherHeaderLen]
            omega
          rw [pulled, Option.getD_some, ih _ _ (by dsimp only; omega), wifiMacDeliverData_filter]
          show _ = _ ++ (handedViews (decapEvents _ ++ _ :: _)).filter _
          rw [handedViews_append, handedViews_decapEvents, List.append_assoc, ← List.filter_append]
          rfl

/-- One turn of the loop: it stops with the release, hands the buffer itself up, or hands a clone
up and goes on behind the padded subframe. -/
theorem amsduWalk_turn (alloc : RxAlloc) (turn : Nat) (buf : List UInt8) (skb : SkbView) :
    amsduWalk alloc turn buf skb = [.free] ∨
    (14 ≤ skb.len ∧
      amsduWalk alloc turn buf skb = [.round skb.len, .read (skb.data + 12) 2, .free]) ∨
    (22 ≤ skb.len ∧
      amsduWalk alloc turn buf skb = .round skb.len :: .read (skb.data + 12) 2 ::
        (decapEvents skb ++ [.hand ⟨skb.data + 8, skb.len - 8⟩ true])) ∨
    ∃ used length : Nat, 22 ≤ used ∧ used ≤ skb.len ∧ 8 + length ≤ used ∧
      amsduWalk alloc turn buf skb = .round skb.len :: .read (skb.data + 12) 2 ::
        (decapEvents skb ++ .hand ⟨skb.data + 8, length⟩ false ::
          amsduWalk alloc (turn + 1) (decapBuf buf skb.data)
            ⟨skb.data + used, skb.len - used⟩) := by
  rw [amsduWalk]
  by_cases short : skb.len < etherHeaderLen
  · rw [if_pos short]
    exact Or.inl rfl
  rw [if_neg short]
  obtain ⟨field, field_eq⟩ : ∃ field, field = be16 buf (skb.data + 12) := ⟨_, rfl⟩
  rw [← field_eq]
  simp only [etherHeaderLen, llcSnapframelen] at short ⊢
  by_cases small : field < 8
  · rw [if_pos small]
    exact Or.inr (Or.inl ⟨by omega, rfl⟩)
  rw [if_neg small]
  by_cases exactly : skb.len = field + 14
  · rw [if_pos exactly, subframeDecap_eq (by omega)]
    exact Or.inr (Or.inr (Or.inl ⟨by omega, rfl⟩))
  rw [if_neg exactly]
  have rounded : field + 14 ≤ roundup (field + 14) 4 := by
    simp only [roundup]
    omega
  by_cases padded : skb.len < roundup (field + 14) 4
  · rw [if_pos padded]
    exact Or.inr (Or.inl ⟨by omega, rfl⟩)
  rw [if_neg padded]
  cases cloned : alloc.cloneOk turn with
  | false => exact Or.inr (Or.inl ⟨by omega, by simp⟩)
  | true =>
    have longer : field + 14 < skb.len := by omega
    have trimmed := osSkbTrim_subfrm skb.data longer
    rw [subframeDecap_eq (by omega), if_neg (by simp)]
    refine Or.inr (Or.inr (Or.inr ⟨roundup (field + 14) 4, field + 6, by omega, by omega,
      by omega, ?_⟩))
    simp only [trimmed, decapBuf]

structure WalkSafe (start left : Nat) (events : List WalkEvent) : Prop where
  inside : ∀ event ∈ events, event.Within start (start + left)
  shrinking : (roundLengths events).Pairwise fun earlier later => later + 14 ≤ earlier
  bounded : ∀ length ∈ roundLengths events, 14 ≤ length ∧ length ≤ left
  disjoint : (handedViews events).Pairwise fun first second =>
    first.data + first.len ≤ second.data
  once : events.countP WalkEvent.releases = 1

namespace WalkSafe

variable {start left used length : Nat} {events : List WalkEvent}

theorem stopped : WalkSafe start left [.free] := by
  constructor <;> simp [roundLengths, handedViews, List.filterMap_cons, WalkEvent.Within,
    WalkEvent.left?, WalkEvent.view?, WalkEvent.releases]

private theorem refused (long : 14 ≤ left) :
    WalkSafe start left [.round left, .read (start + 12) 2, .free] := by
  constructor <;> simp [roundLengths, handedViews, List.filterMap_cons, WalkEvent.Within,
    WalkEvent.left?, WalkEvent.view?, WalkEvent.releases]
  all_goals omega

private theorem finished (long : 22 ≤ left) :
    WalkSafe start left (.round left :: .read (start + 12) 2 ::
      (decapEvents ⟨start, left⟩ ++ [.hand ⟨start + 8, left - 8⟩ true])) := by
  rw [decapEvents_eq long]
  constructor <;> simp [roundLengths, handedViews, List.filterMap_cons, WalkEvent.Within,
    WalkEvent.left?, WalkEvent.view?, WalkEvent.releases]
  all_goals omega

/-- A turn that hands a clone up, before a safe walk over what is behind the subframe. -/
theorem onward (rest : WalkSafe (start + used) (left - used) events) (least : 22 ≤ used)
    (most : used ≤ left) (fits : 8 + length ≤ used) :
    WalkSafe start left (.round left :: .read (start + 12) 2 ::
      (decapEvents ⟨start, left⟩ ++ .hand ⟨start + 8, length⟩ false :: events)) := by
  rw [decapEvents_eq (by simp only; omega)]
  have behind : ∀ view ∈ handedViews events, start + used ≤ view.data := by
    intro view found
    obtain ⟨event, member, is_view⟩ := List.mem_filterMap.mp found
    have place := rest.inside event member
    cases event with
    | hand subfrm original =>
      cases is_view
      exact place.1
    | round | read | write | free => cases is_view
  constructor
  case inside =>
    intro event member
    simp only [List.mem_cons, List.cons_append, List.nil_append] at member
    rcases member with rfl | rfl | rfl | rfl | rfl | rfl | later
    · trivial
    · exact ⟨by omega, by omega⟩
    · exact ⟨by omega, by omega⟩
    · exact ⟨by omega, by omega⟩
    · exact ⟨by omega, by omega⟩
    · exact ⟨by simp only; omega, by simp only; omega⟩
    · exact (rest.inside event later).mono (by omega) (by omega)
  case shrinking =>
    simp only [roundLengths, List.filterMap_cons, List.cons_append, List.nil_append,
      WalkEvent.left?, List.pairwise_cons]
    refine ⟨fun later found => ?_, rest.shrinking⟩
    have small := rest.bounded later found
    omega
  case bounded =>
    simp only [roundLengths, List.filterMap_cons, List.cons_append, List.nil_append,
      WalkEvent.left?, List.forall_mem_cons]
    refine ⟨⟨by omega, Nat.le_refl left⟩, fun later found => ?_⟩
    have small := rest.bounded later found
    omega
  case disjoint =>
    simp only [handedViews, List.filterMap_cons, List.cons_append, List.nil_append,
      WalkEvent.view?, List.pairwise_cons]
    refine ⟨fun later found => ?_, rest.disjoint⟩
    have place := behind later found
    omega
  case once =>
    have rest_once := rest.once
    simpa [WalkEvent.releases] using rest_once

end WalkSafe

private theorem amsduWalk_safe (alloc : RxAlloc) (turn : Nat) (buf : List UInt8) (skb : SkbView) :
    WalkSafe skb.data skb.len (amsduWalk alloc turn buf skb) := by
  induction left_eq : skb.len using Nat.strongRecOn generalizing turn buf skb with
  | ind left induction =>
    subst left_eq
    rcases amsduWalk_turn alloc turn buf skb with
      stopped | ⟨long, refused⟩ | ⟨long, finished⟩ | ⟨used, length, least, most, fits, onward⟩
    · rw [stopped]
      exact WalkSafe.stopped
    · rw [refused]
      exact WalkSafe.refused long
    · rw [finished]
      exact WalkSafe.finished long
    · rw [onward]
      have rest : WalkSafe (skb.data + used) (skb.len - used)
          (amsduWalk alloc (turn + 1) (decapBuf buf skb.data)
            ⟨skb.data + used, skb.len - used⟩) :=
        induction (skb.len - used) (by omega) (turn + 1) _ ⟨skb.data + used, skb.len - used⟩ rfl
      exact rest.onward least most fits

/-- The split of any bytes touches only the A-MSDU, takes a header off it at every turn, hands up
views that lie apart inside of it, and gives its buffer away once. -/
theorem amsdu_walk_safe (alloc : RxAlloc) (buf : List UInt8) (skb : SkbView) :
    let events := wifiMacAmsduWalk alloc buf skb
    (∀ event ∈ events, event.Within skb.data (skb.data + skb.len)) ∧
      ((roundLengths events).Pairwise fun earlier later => later + etherHeaderLen ≤ earlier) ∧
      (∀ left ∈ roundLengths events, etherHeaderLen ≤ left ∧ left ≤ skb.len) ∧
      ((handedViews events).Pairwise fun first second =>
        first.data + first.len ≤ second.data) ∧
      events.countP WalkEvent.releases = 1 := by
  dsimp only
  rw [wifiMacAmsduWalk]
  by_cases short : skb.len < etherHeaderLen
  · rw [if_pos short]
    have safe : WalkSafe skb.data skb.len [.free] := WalkSafe.stopped
    exact ⟨safe.inside, safe.shrinking, safe.bounded, safe.disjoint, safe.once⟩
  rw [if_neg short]
  have safe := amsduWalk_safe alloc 0 buf ⟨skb.data + etherHeaderLen, skb.len - etherHeaderLen⟩
  simp only [etherHeaderLen] at short safe ⊢
  refine ⟨fun event member => (safe.inside event member).mono (by omega) (by omega),
    safe.shrinking, fun left found => ?_, safe.disjoint, safe.once⟩
  have bound := safe.bounded left found
  omega

end W522a.Mac
