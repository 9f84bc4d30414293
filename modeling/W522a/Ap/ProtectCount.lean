import W522a.Ap.Protect

/-!
The stations that older rules protect, as four classes with a counter each: what a station that comes
or goes does to the counters, and to the modes that follow from them.
-/

namespace W522a.Ap

/-- The counters: stations without short slot time, non-ERP ones, those without HT and HT ones with
20 MHz. -/
inductive ProtCounter where
  | longslot
  | nonerp
  | nonHt
  | ht20
  deriving DecidableEq

def WifiMac.counter (mac : WifiMac) : ProtCounter → Nat
  | .longslot => mac.wmLongslotsta
  | .nonerp => mac.wmNonerpsta
  | .nonHt => mac.wmNonHtSta
  | .ht20 => mac.wmHt20Sta

/-- What a station is, associated or not. -/
def inClass (mode : Nat) (sta : ApSta) : ProtCounter → Bool
  | .longslot => !shortSlottime sta.staCapinfo
  | .nonerp => !wifiMacIserpRateset sta.staRates
  | .nonHt => nonHt mode sta
  | .ht20 => ht20 sta

/-- A counter is written when a station comes or goes: the first two in modes with 11g, the others
while the interface is up. -/
def tracked (mode : Nat) (mac : WifiMac) : ProtCounter → Bool
  | .longslot => wifinetInclude11g mode
  | .nonerp => wifinetInclude11g mode
  | .nonHt => mac.ifRunUp
  | .ht20 => mac.ifRunUp

/-- How much a station that comes or goes moves a counter. -/
def moves (mode : Nat) (mac : WifiMac) (sta : ApSta) (counter : ProtCounter) : Nat :=
  if tracked mode mac counter && inClass mode sta counter then 1 else 0

/-- The modes that follow from the counters: short slots, ERP protection and the protection of HT. -/
structure MacFlags (mode : Nat) (mac : WifiMac) : Prop where
  slot : mac.shslot = true ↔ mode ≠ 1 ∧ mac.capShslot = true ∧ mac.wmLongslotsta = 0
  erp : mac.useprot = true ↔ mac.protNone = false ∧ mac.wmNonerpsta ≠ 0
  ht : mac.wmHtProtSm = htProtMode mac

/-- What neither coming nor going changes. -/
structure SameRadio (next mac : WifiMac) : Prop where
  capShslot : next.capShslot = mac.capShslot
  protNone : next.protNone = mac.protNone
  ifRunUp : next.ifRunUp = mac.ifRunUp
  nonhtAp : next.nonhtAp = mac.nonhtAp
  wmNopened : next.wmNopened = mac.wmNopened

theorem moves_cases (mode : Nat) (mac : WifiMac) (sta : ApSta) (counter : ProtCounter) :
    moves mode mac sta counter = 0 ∨ moves mode mac sta counter = 1 := by
  unfold moves
  split
  · exact Or.inr rfl
  · exact Or.inl rfl

theorem inClass_of_moves {mode : Nat} {mac : WifiMac} {sta : ApSta} {counter : ProtCounter}
    (one : moves mode mac sta counter = 1) : inClass mode sta counter = true := by
  rw [moves] at one
  by_contra other
  rw [Bool.eq_false_iff.mpr other, Bool.and_false] at one
  cases one

/-- What `wifi_mac_sta_connect` does to the radio when a station comes. -/
def joinMac (mode : Nat) (mac : WifiMac) (sta : ApSta) : WifiMac :=
  wifiMacHtProt (if wifinetInclude11g mode then (wifiMac11gInitParam mac sta).1 else mac) mode sta
    .staConnect

/-- What `wifi_mac_sta_disconnect` does to it when a station goes. -/
def leaveMac (mode : Nat) (mac : WifiMac) (sta : ApSta) (quiet : Bool) : WifiMac :=
  wifiMacHtProt (if wifinetInclude11g mode then wifiMac11gRstParam mac sta quiet else mac) mode sta
    .staDisconnect

theorem include11g_ne (mode : Nat) (g : wifinetInclude11g mode = true) : mode ≠ 1 := by
  rintro rfl
  exact absurd g (by decide)

section Older

variable {mode : Nat} {mac : WifiMac} {sta : ApSta}

/-- The counters after the part of a join for 11g. -/
theorem initParam_counter (mode : Nat) (sta : ApSta) (few : ∀ counter, mac.counter counter < 65535) :
    (wifiMac11gInitParam mac sta).1.wmLongslotsta =
        mac.wmLongslotsta + (if inClass mode sta .longslot then 1 else 0) ∧
      (wifiMac11gInitParam mac sta).1.wmNonerpsta =
        mac.wmNonerpsta + (if inClass mode sta .nonerp then 1 else 0) ∧
      (wifiMac11gInitParam mac sta).1.wmNonHtSta = mac.wmNonHtSta ∧
      (wifiMac11gInitParam mac sta).1.wmHt20Sta = mac.wmHt20Sta ∧
      (wifiMac11gInitParam mac sta).1.wmHtProtSm = mac.wmHtProtSm ∧
      SameRadio (wifiMac11gInitParam mac sta).1 mac := by
  have fewLong : mac.wmLongslotsta < 65535 := few .longslot
  have fewNonerp : mac.wmNonerpsta < 65535 := few .nonerp
  have long : (mac.wmLongslotsta + 1) % 65536 = mac.wmLongslotsta + 1 :=
    Nat.mod_eq_of_lt (by omega)
  have nonerp : (mac.wmNonerpsta + 1) % 65536 = mac.wmNonerpsta + 1 :=
    Nat.mod_eq_of_lt (by omega)
  unfold wifiMac11gInitParam inClass
  cases shortSlottime sta.staCapinfo with
  | true =>
    cases wifiMacIserpRateset sta.staRates with
    | true => exact ⟨rfl, rfl, rfl, rfl, rfl, ⟨rfl, rfl, rfl, rfl, rfl⟩⟩
    | false =>
      cases shortPreamble sta.staCapinfo with
      | true => exact ⟨rfl, nonerp, rfl, rfl, rfl, ⟨rfl, rfl, rfl, rfl, rfl⟩⟩
      | false => exact ⟨rfl, nonerp, rfl, rfl, rfl, ⟨rfl, rfl, rfl, rfl, rfl⟩⟩
  | false =>
    cases wifiMacIserpRateset sta.staRates with
    | true => exact ⟨long, rfl, rfl, rfl, rfl, ⟨rfl, rfl, rfl, rfl, rfl⟩⟩
    | false =>
      cases shortPreamble sta.staCapinfo with
      | true => exact ⟨long, nonerp, rfl, rfl, rfl, ⟨rfl, rfl, rfl, rfl, rfl⟩⟩
      | false => exact ⟨long, nonerp, rfl, rfl, rfl, ⟨rfl, rfl, rfl, rfl, rfl⟩⟩

theorem initParam_flags (mode : Nat) (mac : WifiMac) (sta : ApSta) :
    (wifiMac11gInitParam mac sta).1.shslot = (mac.shslot && !inClass mode sta .longslot) ∧
      (wifiMac11gInitParam mac sta).1.useprot =
        (mac.useprot || inClass mode sta .nonerp && !mac.protNone) := by
  unfold wifiMac11gInitParam inClass
  cases shortSlottime sta.staCapinfo with
  | true =>
    cases wifiMacIserpRateset sta.staRates with
    | true => exact ⟨by simp, by simp⟩
    | false => cases shortPreamble sta.staCapinfo <;> exact ⟨by simp, by simp⟩
  | false =>
    cases wifiMacIserpRateset sta.staRates with
    | true => exact ⟨by simp, by simp⟩
    | false => cases shortPreamble sta.staCapinfo <;> exact ⟨by simp, by simp⟩

/-- The last of the stations that the mode of short slots or of ERP protection waits for. -/
def isLast (mode : Nat) (mac : WifiMac) (sta : ApSta) (counter : ProtCounter) : Bool :=
  inClass mode sta counter && mac.counter counter == 1

private theorem leaveLongslot_spec (some : 0 < mac.wmLongslotsta) :
    leaveLongslot mac = { mac with
      wmLongslotsta := mac.wmLongslotsta - 1
      shslot := mac.shslot || mac.wmLongslotsta == 1 && mac.capShslot } := by
  unfold leaveLongslot
  by_cases last : mac.wmLongslotsta = 1
  · simp [last]
  · have more : mac.wmLongslotsta - 1 ≠ 0 := by omega
    simp [last, more]

private theorem leaveNonerp_counter (quiet : Bool) (some : 0 < mac.wmNonerpsta) :
    (leaveNonerp mac quiet).wmNonerpsta = mac.wmNonerpsta - 1 ∧
      (leaveNonerp mac quiet).useprot =
        (mac.useprot && !(mac.wmNonerpsta == 1 && quiet)) ∧
      (leaveNonerp mac quiet).wmLongslotsta = mac.wmLongslotsta ∧
      (leaveNonerp mac quiet).wmNonHtSta = mac.wmNonHtSta ∧
      (leaveNonerp mac quiet).wmHt20Sta = mac.wmHt20Sta ∧
      (leaveNonerp mac quiet).wmHtProtSm = mac.wmHtProtSm ∧
      (leaveNonerp mac quiet).shslot = mac.shslot ∧
      SameRadio (leaveNonerp mac quiet) mac := by
  unfold leaveNonerp
  rw [if_neg (by omega)]
  by_cases last : mac.wmNonerpsta = 1
  · have none : mac.wmNonerpsta - 1 = 0 := by omega
    dsimp only
    rw [if_pos none]
    exact ⟨rfl, by simp [last], rfl, rfl, rfl, rfl, rfl, ⟨rfl, rfl, rfl, rfl, rfl⟩⟩
  · have more : mac.wmNonerpsta - 1 ≠ 0 := by omega
    dsimp only
    rw [if_neg more]
    exact ⟨rfl, by simp [last], rfl, rfl, rfl, rfl, rfl, ⟨rfl, rfl, rfl, rfl, rfl⟩⟩

/-- The counters after the part of a leave for 11g. -/
theorem rstParam_counter (quiet : Bool) (erp : sta.nodeErp = wifiMacIserpRateset sta.staRates)
    (long : inClass mode sta .longslot = true → 0 < mac.wmLongslotsta)
    (nonerp : inClass mode sta .nonerp = true → 0 < mac.wmNonerpsta) :
    (wifiMac11gRstParam mac sta quiet).wmLongslotsta =
        mac.wmLongslotsta - (if inClass mode sta .longslot then 1 else 0) ∧
      (wifiMac11gRstParam mac sta quiet).wmNonerpsta =
        mac.wmNonerpsta - (if inClass mode sta .nonerp then 1 else 0) ∧
      (wifiMac11gRstParam mac sta quiet).wmNonHtSta = mac.wmNonHtSta ∧
      (wifiMac11gRstParam mac sta quiet).wmHt20Sta = mac.wmHt20Sta ∧
      (wifiMac11gRstParam mac sta quiet).wmHtProtSm = mac.wmHtProtSm ∧
      SameRadio (wifiMac11gRstParam mac sta quiet) mac ∧
      (wifiMac11gRstParam mac sta quiet).shslot =
        (mac.shslot || isLast mode mac sta .longslot && mac.capShslot) ∧
      (wifiMac11gRstParam mac sta quiet).useprot =
        (mac.useprot && !(isLast mode mac sta .nonerp && quiet)) := by
  unfold wifiMac11gRstParam isLast
  unfold inClass at long nonerp ⊢
  rw [erp]
  cases slot : shortSlottime sta.staCapinfo with
  | true =>
    cases rates : wifiMacIserpRateset sta.staRates with
    | true => exact ⟨rfl, rfl, rfl, rfl, rfl, ⟨rfl, rfl, rfl, rfl, rfl⟩, by simp, by simp⟩
    | false =>
      rw [rates] at nonerp
      obtain ⟨count, prot, same, ht, ht20, mode, slot, radio⟩ :=
        leaveNonerp_counter quiet (nonerp rfl)
      exact ⟨same, count, ht, ht20, mode, radio, slot.trans (by simp), prot⟩
  | false =>
    rw [slot] at long
    have left := leaveLongslot_spec (long rfl)
    cases rates : wifiMacIserpRateset sta.staRates with
    | true =>
      simp only [left]
      exact ⟨rfl, rfl, rfl, rfl, rfl, ⟨rfl, rfl, rfl, rfl, rfl⟩, rfl, by simp⟩
    | false =>
      rw [rates] at nonerp
      have some : 0 < (leaveLongslot mac).wmNonerpsta := by
        rw [left]
        exact nonerp rfl
      obtain ⟨count, prot, same, ht, ht20, mode, slot, radio⟩ :=
        leaveNonerp_counter quiet some
      rw [left] at count prot same ht ht20 mode slot radio
      rw [left]
      exact ⟨same, count, ht, ht20, mode,
        ⟨radio.capShslot, radio.protNone, radio.ifRunUp, radio.nonhtAp, radio.wmNopened⟩, slot, prot⟩

end Older

theorem SameRadio.trans {last next mac : WifiMac} (two : SameRadio last next)
    (one : SameRadio next mac) : SameRadio last mac where
  capShslot := two.capShslot.trans one.capShslot
  protNone := two.protNone.trans one.protNone
  ifRunUp := two.ifRunUp.trans one.ifRunUp
  nonhtAp := two.nonhtAp.trans one.nonhtAp
  wmNopened := two.wmNopened.trans one.wmNopened

section Ht

variable {mode : Nat} {mac : WifiMac} {sta : ApSta}

/-- What a change of the operating mode leaves. -/
structure HtFrame (next mac : WifiMac) : Prop where
  longslot : next.wmLongslotsta = mac.wmLongslotsta
  nonerp : next.wmNonerpsta = mac.wmNonerpsta
  slot : next.shslot = mac.shslot
  prot : next.useprot = mac.useprot
  radio : SameRadio next mac
  mode : mac.wmHtProtSm = htProtMode mac → next.wmHtProtSm = htProtMode next

theorem htProt_frame (mode : Nat) (mac : WifiMac) (sta : ApSta) (flag : HtProtUpdate) :
    HtFrame (wifiMacHtProt mac mode sta flag) mac := by
  unfold wifiMacHtProt
  by_cases up : mac.ifRunUp = true
  · rw [if_neg (by simp [up])]
    dsimp only
    split <;> split <;> exact ⟨rfl, rfl, rfl, rfl, ⟨rfl, rfl, rfl, rfl, rfl⟩, fun _ => rfl⟩
  · rw [if_pos (by simpa using up)]
    exact ⟨rfl, rfl, rfl, rfl, ⟨rfl, rfl, rfl, rfl, rfl⟩, id⟩

/-- The counters of HT after a station came or went. -/
theorem htProt_counter (mode : Nat) (mac : WifiMac) (sta : ApSta) (flag : HtProtUpdate) :
    (wifiMacHtProt mac mode sta flag).wmNonHtSta =
        (if tracked mode mac .nonHt && inClass mode sta .nonHt then flag.count mac.wmNonHtSta
          else mac.wmNonHtSta) ∧
      (wifiMacHtProt mac mode sta flag).wmHt20Sta =
        (if tracked mode mac .ht20 && inClass mode sta .ht20 then flag.count mac.wmHt20Sta
          else mac.wmHt20Sta) := by
  unfold wifiMacHtProt tracked inClass
  cases mac.ifRunUp with
  | false => exact ⟨rfl, rfl⟩
  | true =>
    cases nonHt mode sta with
    | false => cases ht20 sta <;> exact ⟨rfl, rfl⟩
    | true => cases ht20 sta <;> exact ⟨rfl, rfl⟩

/-- What the part for 11g leaves. -/
structure OlderFrame (next mac : WifiMac) : Prop where
  nonHt : next.wmNonHtSta = mac.wmNonHtSta
  ht20 : next.wmHt20Sta = mac.wmHt20Sta
  mode : next.wmHtProtSm = mac.wmHtProtSm
  radio : SameRadio next mac

theorem OlderFrame.htProt {next : WifiMac} (frame : OlderFrame next mac)
    (before : mac.wmHtProtSm = htProtMode mac) : next.wmHtProtSm = htProtMode next := by
  rw [frame.mode, before, htProtMode, htProtMode, frame.nonHt, frame.radio.nonhtAp]

theorem SameRadio.refl (mac : WifiMac) : SameRadio mac mac := ⟨rfl, rfl, rfl, rfl, rfl⟩

private theorem olderJoin_spec (mode : Nat) (sta : ApSta)
    (few : ∀ counter, mac.counter counter < 65535)
    {next : WifiMac}
    (joins : next = if wifinetInclude11g mode then (wifiMac11gInitParam mac sta).1 else mac) :
    next.wmLongslotsta = mac.wmLongslotsta + moves mode mac sta .longslot ∧
      next.wmNonerpsta = mac.wmNonerpsta + moves mode mac sta .nonerp ∧
      next.shslot = (mac.shslot && moves mode mac sta .longslot == 0) ∧
      next.useprot = (mac.useprot || moves mode mac sta .nonerp == 1 && !mac.protNone) ∧
      OlderFrame next mac := by
  unfold moves tracked
  by_cases g : wifinetInclude11g mode = true
  · rw [if_pos g] at joins
    obtain ⟨long, nonerp, ht, ht20, prot, radio⟩ := initParam_counter mode sta few
    obtain ⟨slot, erp⟩ := initParam_flags mode mac sta
    rw [← joins] at long nonerp ht ht20 prot radio slot erp
    rw [g, Bool.true_and, Bool.true_and]
    refine ⟨long, nonerp, slot.trans ?_, erp.trans ?_, ⟨ht, ht20, prot, radio⟩⟩
    · cases inClass mode sta .longslot <;> rfl
    · cases inClass mode sta .nonerp <;> rfl
  · rw [if_neg g] at joins
    rw [show wifinetInclude11g mode = false by simpa using g, joins]
    exact ⟨rfl, rfl, by simp, by simp, ⟨rfl, rfl, rfl, SameRadio.refl mac⟩⟩

/-- A station that comes moves the counters of its classes, and the modes follow. -/
theorem joinMac_spec (mode : Nat) (mac : WifiMac) (sta : ApSta)
    (few : ∀ counter, mac.counter counter < 65535) :
    (∀ counter, (joinMac mode mac sta).counter counter =
      mac.counter counter + moves mode mac sta counter) ∧
    SameRadio (joinMac mode mac sta) mac ∧
    (MacFlags mode mac → MacFlags mode (joinMac mode mac sta)) := by
  obtain ⟨long, nonerp, slot, erp, older⟩ := olderJoin_spec mode sta few rfl
  have frame := htProt_frame mode (if wifinetInclude11g mode then (wifiMac11gInitParam mac sta).1
    else mac) sta .staConnect
  obtain ⟨ht, ht20⟩ := htProt_counter mode (if wifinetInclude11g mode then
    (wifiMac11gInitParam mac sta).1 else mac) sta .staConnect
  have fewHt : mac.wmNonHtSta < 65535 := few .nonHt
  have fewHt20 : mac.wmHt20Sta < 65535 := few .ht20
  refine ⟨fun counter => ?_, frame.radio.trans older.radio, fun flags => ⟨?_, ?_, ?_⟩⟩
  · cases counter with
    | longslot => exact frame.longslot.trans long
    | nonerp => exact frame.nonerp.trans nonerp
    | nonHt =>
      refine ht.trans ?_
      rw [tracked, older.radio.ifRunUp, older.nonHt, HtProtUpdate.count, moves, tracked]
      split
      · exact Nat.mod_eq_of_lt (by omega)
      · rfl
    | ht20 =>
      refine ht20.trans ?_
      rw [tracked, older.radio.ifRunUp, older.ht20, HtProtUpdate.count, moves, tracked]
      split
      · exact Nat.mod_eq_of_lt (by omega)
      · rfl
  · rw [joinMac, frame.slot, frame.radio.capShslot, frame.longslot, older.radio.capShslot, slot, long,
      Bool.and_eq_true, flags.slot, beq_iff_eq, Nat.add_eq_zero_iff, and_assoc, and_assoc]
  · rw [joinMac, frame.prot, frame.radio.protNone, frame.nonerp, older.radio.protNone, erp, nonerp,
      Bool.or_eq_true, flags.erp]
    rcases moves_cases mode mac sta .nonerp with same | one
    · rw [same]
      simp
    · rw [one]
      cases mac.protNone <;> simp
  · exact frame.mode (older.htProt flags.ht)

private theorem olderLeave_spec (mode : Nat) (sta : ApSta) (quiet : Bool)
    (erp : wifinetInclude11g mode = true → sta.nodeErp = wifiMacIserpRateset sta.staRates)
    (some : ∀ counter, moves mode mac sta counter = 1 → 0 < mac.counter counter)
    {next : WifiMac}
    (leaves : next =
      if wifinetInclude11g mode then wifiMac11gRstParam mac sta quiet else mac) :
    next.wmLongslotsta = mac.wmLongslotsta - moves mode mac sta .longslot ∧
      next.wmNonerpsta = mac.wmNonerpsta - moves mode mac sta .nonerp ∧
      next.shslot = (mac.shslot ||
        moves mode mac sta .longslot == 1 && mac.wmLongslotsta == 1 && mac.capShslot) ∧
      next.useprot = (mac.useprot &&
        !(moves mode mac sta .nonerp == 1 && mac.wmNonerpsta == 1 && quiet)) ∧
      OlderFrame next mac := by
  have someLong := some .longslot
  have someNonerp := some .nonerp
  unfold moves tracked at someLong someNonerp ⊢
  by_cases g : wifinetInclude11g mode = true
  · rw [if_pos g] at leaves
    rw [g, Bool.true_and] at someLong someNonerp ⊢
    obtain ⟨long, nonerp, ht, ht20, prot, radio, slot, use⟩ := rstParam_counter quiet (erp g)
      (fun here => someLong (if_pos here)) (fun here => someNonerp (if_pos here))
    rw [← leaves] at long nonerp ht ht20 prot radio slot use
    refine ⟨long, nonerp, slot.trans ?_, use.trans ?_, ⟨ht, ht20, prot, radio⟩⟩
    · unfold isLast
      cases inClass mode sta .longslot <;> rfl
    · unfold isLast
      cases inClass mode sta .nonerp <;> rfl
  · rw [if_neg g] at leaves
    rw [show wifinetInclude11g mode = false by simpa using g, leaves]
    exact ⟨rfl, rfl, by simp, by simp, ⟨rfl, rfl, rfl, SameRadio.refl mac⟩⟩

/-- A station that goes moves the counters of its classes, and the modes follow, unless it is the last
non-ERP station and foreign ones were heard. -/
theorem leaveMac_spec (quiet : Bool)
    (erp : wifinetInclude11g mode = true → sta.nodeErp = wifiMacIserpRateset sta.staRates)
    (some : ∀ counter, moves mode mac sta counter = 1 → 0 < mac.counter counter)
    (few : ∀ counter, mac.counter counter < 65535) :
    (∀ counter, (leaveMac mode mac sta quiet).counter counter =
      mac.counter counter - moves mode mac sta counter) ∧
    SameRadio (leaveMac mode mac sta quiet) mac ∧
    (MacFlags mode mac → (MacFlags mode (leaveMac mode mac sta quiet) ↔
      (moves mode mac sta .nonerp = 1 → mac.wmNonerpsta = 1 → mac.protNone = false →
        quiet = true))) := by
  obtain ⟨long, nonerp, slot, prot, older⟩ := olderLeave_spec mode sta quiet erp some rfl
  have frame := htProt_frame mode (if wifinetInclude11g mode then wifiMac11gRstParam mac sta quiet
    else mac) sta .staDisconnect
  obtain ⟨ht, ht20⟩ := htProt_counter mode (if wifinetInclude11g mode then
    wifiMac11gRstParam mac sta quiet else mac) sta .staDisconnect
  have fewHt : mac.wmNonHtSta < 65535 := few .nonHt
  have fewHt20 : mac.wmHt20Sta < 65535 := few .ht20
  refine ⟨fun counter => ?_, frame.radio.trans older.radio, fun flags => ?_⟩
  · cases counter with
    | longslot => exact frame.longslot.trans long
    | nonerp => exact frame.nonerp.trans nonerp
    | nonHt =>
      have someHt := some .nonHt
      refine ht.trans ?_
      rw [tracked, older.radio.ifRunUp, older.nonHt, HtProtUpdate.count]
      rw [moves, tracked] at someHt ⊢
      split
      · next here =>
        have positive : 0 < mac.wmNonHtSta := someHt (if_pos here)
        change (mac.wmNonHtSta + 65535) % 65536 = mac.wmNonHtSta - 1
        omega
      · rfl
    | ht20 =>
      have someHt20 := some .ht20
      refine ht20.trans ?_
      rw [tracked, older.radio.ifRunUp, older.ht20, HtProtUpdate.count]
      rw [moves, tracked] at someHt20 ⊢
      split
      · next here =>
        have positive : 0 < mac.wmHt20Sta := someHt20 (if_pos here)
        change (mac.wmHt20Sta + 65535) % 65536 = mac.wmHt20Sta - 1
        omega
      · rfl
  · have slots : (leaveMac mode mac sta quiet).shslot = true ↔ mode ≠ 1 ∧
        (leaveMac mode mac sta quiet).capShslot = true ∧
          (leaveMac mode mac sta quiet).wmLongslotsta = 0 := by
      rw [leaveMac, frame.slot, frame.radio.capShslot, frame.longslot, older.radio.capShslot, slot,
        long, Bool.or_eq_true, flags.slot]
      rcases moves_cases mode mac sta .longslot with same | one
      · rw [same]
        simp
      · have positive : 0 < mac.wmLongslotsta := some .longslot one
        have g : wifinetInclude11g mode = true := by
          rw [moves, tracked] at one
          by_contra other
          simp [other] at one
        have differ := include11g_ne mode g
        rw [one]
        simp only [beq_self_eq_true, Bool.true_and, Bool.and_eq_true, beq_iff_eq]
        constructor
        · rintro (⟨-, -, none⟩ | ⟨last, cap⟩)
          · omega
          · exact ⟨differ, cap, by omega⟩
        · rintro ⟨-, cap, last⟩
          exact Or.inr ⟨by omega, cap⟩
    have prots : ((leaveMac mode mac sta quiet).useprot = true ↔
        (leaveMac mode mac sta quiet).protNone = false ∧
          (leaveMac mode mac sta quiet).wmNonerpsta ≠ 0) ↔
        (moves mode mac sta .nonerp = 1 → mac.wmNonerpsta = 1 → mac.protNone = false →
          quiet = true) := by
      rw [leaveMac, frame.prot, frame.radio.protNone, frame.nonerp, older.radio.protNone, prot,
        nonerp, Bool.and_eq_true, flags.erp]
      rcases moves_cases mode mac sta .nonerp with same | one
      · rw [same]
        simp
      · have positive : 0 < mac.wmNonerpsta := some .nonerp one
        rw [one]
        by_cases last : mac.wmNonerpsta = 1
        · rw [last]
          cases mac.protNone <;> cases quiet <;> simp
        · have more : mac.wmNonerpsta - 1 ≠ 0 := by omega
          have many : mac.wmNonerpsta ≠ 0 := by omega
          simp [last, more, many]
    constructor
    · exact fun after => prots.mp after.erp
    · exact fun calm => ⟨slots, prots.mpr calm, frame.mode (older.htProt flags.ht)⟩

/-- What a station that goes does depends on four things of it. -/
theorem leaveMac_congr {old : ApSta} (quiet : Bool)
    (slot : wifinetInclude11g mode = true →
      shortSlottime sta.staCapinfo = shortSlottime old.staCapinfo)
    (erp : sta.nodeErp = old.nodeErp) (ht : sta.nodeHt = old.nodeHt)
    (chbw : sta.staChbw = old.staChbw) :
    leaveMac mode mac sta quiet = leaveMac mode mac old quiet := by
  have older : (if wifinetInclude11g mode then wifiMac11gRstParam mac sta quiet else mac) =
      if wifinetInclude11g mode then wifiMac11gRstParam mac old quiet else mac := by
    by_cases g : wifinetInclude11g mode = true
    · rw [if_pos g, if_pos g, wifiMac11gRstParam, wifiMac11gRstParam, slot g, erp]
    · rw [if_neg g, if_neg g]
  rw [leaveMac, leaveMac, older, wifiMacHtProt, wifiMacHtProt, nonHt, nonHt, ht20, ht20, ht, chbw]

/-- A change of the channel width asks for a new beacon, and changes nothing else. -/
theorem wifiMacChangeCbw_same (mode : Nat) (mac : WifiMac) (sta : ApSta) :
    (∀ counter, (wifiMacChangeCbw mac).counter counter = mac.counter counter) ∧
      SameRadio (wifiMacChangeCbw mac) mac ∧
      (MacFlags mode (wifiMacChangeCbw mac) ↔ MacFlags mode mac) ∧
      ∀ counter, moves mode (wifiMacChangeCbw mac) sta counter = moves mode mac sta counter := by
  unfold wifiMacChangeCbw
  split
  · exact ⟨fun _ => rfl, SameRadio.refl mac, Iff.rfl, fun _ => rfl⟩
  · refine ⟨fun counter => ?_, ⟨rfl, rfl, rfl, rfl, rfl⟩, ?_, fun counter => ?_⟩
    · cases counter <;> rfl
    · exact ⟨fun flags => ⟨flags.slot, flags.erp, flags.ht⟩,
        fun flags => ⟨flags.slot, flags.erp, flags.ht⟩⟩
    · cases counter <;> rfl

end Ht

end W522a.Ap
