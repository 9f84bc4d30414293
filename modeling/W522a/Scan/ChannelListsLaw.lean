import W522a.Scan.ChannelLists

/-!
When the lists of channels of a scan stay in their arrays: as long as the matching entries, three
times the channels to connect on, and the channels that a request matches are no more than the
arrays hold.
-/

namespace W522a.Scan

open Memory (Traced Safe emit)

/-! ### Appending to the list -/

def appendAll : SsChans → List WifiChannel → Traced Nat SsChans
  | ss, [] => pure ss
  | ss, c :: rest => do
    let ss ← ss.append c
    appendAll ss rest

section Appending

variable {ss : SsChans} {channels more : List WifiChannel} {c : WifiChannel} {bound : Nat}
  {pick : WifiChannel → Bool} {awareCnt : Nat}

private theorem list_append (short : ss.last + 1 < 65536) :
    (ss.append c).value.list = ss.list ++ [some c] := by
  have last : (ss.append c).value.last = ss.last + 1 := Nat.mod_eq_of_lt short
  rw [SsChans.list, last, List.range_succ, List.map_append, SsChans.list]
  congr 1
  · apply List.map_congr_left
    intro index inside
    exact Function.update_of_ne (Nat.ne_of_lt (List.mem_range.mp inside)) _ _
  · exact congrArg (fun cell => [cell]) (Function.update_self ..)

theorem appendAll_append :
    appendAll ss (channels ++ more) = appendAll ss channels >>= fun ss => appendAll ss more := by
  induction channels generalizing ss with
  | nil => rfl
  | cons c rest induction =>
    rw [List.cons_append, appendAll, appendAll, Memory.seq_assoc]
    congr 1
    funext ss
    exact induction

/-- What is appended comes behind the list, as long as the array holds it. -/
theorem appendAll_spec (room : ss.last + channels.length ≤ 256) :
    (appendAll ss channels).value.last = ss.last + channels.length ∧
      (appendAll ss channels).value.list = ss.list ++ channels.map some ∧
        Safe (· < 256) (appendAll ss channels) := by
  induction channels generalizing ss with
  | nil => exact ⟨rfl, (List.append_nil _).symm, Memory.safe_pure ss⟩
  | cons c rest induction =>
    rw [List.length_cons] at room
    have last : (ss.append c).value.last = ss.last + 1 := Nat.mod_eq_of_lt (by omega)
    have next : (ss.append c).value.last + rest.length ≤ 256 := by omega
    obtain ⟨ends, list, safe⟩ := induction next
    refine ⟨?_, ?_, ?_⟩
    · rw [appendAll, Memory.value_bind, ends, last, List.length_cons]
      omega
    · rw [appendAll, Memory.value_bind, list, list_append (by omega), List.append_assoc]
      rfl
    · rw [appendAll, Memory.safe_bind]
      refine ⟨?_, safe⟩
      intro index member
      cases List.mem_singleton.mp member
      omega

theorem not_safe_appendAll (inside : ss.last ≤ 256) (more : 256 < ss.last + channels.length) :
    ¬ Safe (· < 256) (appendAll ss channels) := by
  induction channels generalizing ss with
  | nil => exact absurd more (Nat.not_lt.mpr inside)
  | cons c rest induction =>
    rw [List.length_cons] at more
    rw [appendAll, Memory.safe_bind]
    intro ⟨here, later⟩
    have below : ss.last < 256 := here ss.last List.mem_cons_self
    have last : (ss.append c).value.last = ss.last + 1 := Nat.mod_eq_of_lt (by omega)
    exact induction (by omega) (by omega) later

def ChannelTable.taken : ChannelTable → ChannelTable
  | ⟨[], awareCnt⟩ => ⟨[], awareCnt⟩
  | ⟨c :: rest, awareCnt⟩ => ⟨(takeAware c awareCnt).1 :: rest, (takeAware c awareCnt).2⟩

theorem takeAware_few (few : awareCnt < 10) : takeAware c awareCnt = (c, awareCnt) :=
  if_neg (Nat.not_le.mpr few)

theorem takeAware_lt : (takeAware c awareCnt).2 < 10 := by
  unfold takeAware
  split <;> dsimp only <;> omega

private theorem tableLoop_few (few : awareCnt < 10) : tableLoop pick channels awareCnt ss =
    appendAll ss (channels.filter pick) >>= fun ss => pure (ss, ⟨channels, awareCnt⟩) := by
  induction channels generalizing ss with
  | nil => rfl
  | cons c rest induction =>
    rw [tableLoop, takeAware_few few]
    dsimp only
    cases picked : pick c with
    | true =>
      rw [if_pos rfl, List.filter_cons_of_pos picked, appendAll, Memory.seq_assoc]
      congr 1
      funext ss
      rw [induction, Memory.seq_assoc]
      rfl
    | false =>
      have passed : ¬ pick c = true := fun holds => Bool.false_ne_true (picked.symm.trans holds)
      rw [if_neg Bool.false_ne_true, Memory.pure_seq, List.filter_cons_of_neg passed, induction,
        Memory.seq_assoc]
      rfl

theorem tableLoop_eq (pick : WifiChannel → Bool) (ss : SsChans) (table : ChannelTable) :
    tableLoop pick table.channels table.awareCnt ss =
    appendAll ss (table.taken.channels.filter pick) >>= fun ss => pure (ss, table.taken) := by
  match table with
  | ⟨[], _⟩ => rfl
  | ⟨c :: rest, awareCnt⟩ =>
    have again : takeAware (takeAware c awareCnt).1 (takeAware c awareCnt).2 =
        takeAware c awareCnt := takeAware_few takeAware_lt
    have same : tableLoop pick (c :: rest) awareCnt ss =
        tableLoop pick ((takeAware c awareCnt).1 :: rest) (takeAware c awareCnt).2 ss := by
      rw [tableLoop, tableLoop, again]
    rw [same, tableLoop_few takeAware_lt]
    rfl

theorem taken_taken {table : ChannelTable} : table.taken.taken = table.taken := by
  match table with
  | ⟨[], _⟩ => rfl
  | ⟨c :: rest, awareCnt⟩ =>
    rw [ChannelTable.taken, ChannelTable.taken, takeAware_few takeAware_lt]

/-- The loop over a request appends, for one frequency after the other, the channels at it. -/
theorem userLoop_eq {band : CfgBand} {request : List Nat} {table : ChannelTable}
    (stable : table.taken = table) : userLoop band request table ss =
      appendAll ss (request.flatMap fun freq => table.channels.filter (userPick band freq)) >>=
        fun ss => pure (ss, table) := by
  induction request generalizing ss with
  | nil => rfl
  | cons freq rest induction =>
    rw [userLoop, tableLoop_eq, stable, List.flatMap_cons, appendAll_append, Memory.seq_assoc,
      Memory.seq_assoc]
    congr 1
    funext ss
    exact induction

end Appending

/-! ### The other loops -/

section Loops

variable {setup : ScanSetup} {ss : SsChans} {channels candidates : List WifiChannel}
  {c : WifiChannel} {i turns awareCnt index : Nat}

def simulatePick (setup : ScanSetup) (entry : WifiChannel × Nat) : Bool :=
  entry.1.chanBw = .width20 ∧ setup.wmCurchan ≠ some entry.2 ∧ inCfgBand setup.band entry.1

/-- The loop appends the first channel that it can take. -/
theorem simulateLoop_few (few : awareCnt < 10) : simulateLoop setup channels i awareCnt ss =
    appendAll ss (((channels.zipIdx i).find? (simulatePick setup)).toList.map Prod.fst) >>=
      fun ss => pure (ss, ⟨channels, awareCnt⟩) := by
  induction channels generalizing i with
  | nil => rfl
  | cons c rest induction =>
    rw [simulateLoop, takeAware_few few, List.zipIdx_cons]
    dsimp only
    by_cases picked : simulatePick setup (c, i) = true
    · rw [if_pos (of_decide_eq_true picked), List.find?_cons_of_pos picked]
      rfl
    · rw [if_neg fun holds => picked (decide_eq_true holds), List.find?_cons_of_neg picked,
        induction, Memory.seq_assoc]
      rfl

theorem simulateLoop_eq (setup : ScanSetup) (ss : SsChans) (table : ChannelTable) :
    simulateLoop setup table.channels 0 table.awareCnt ss =
      appendAll ss
        ((table.taken.channels.zipIdx.find? (simulatePick setup)).toList.map Prod.fst) >>=
        fun ss => pure (ss, table.taken) := by
  match table with
  | ⟨[], _⟩ => rfl
  | ⟨c :: rest, awareCnt⟩ =>
    have again : takeAware (takeAware c awareCnt).1 (takeAware c awareCnt).2 =
        takeAware c awareCnt := takeAware_few takeAware_lt
    have same : simulateLoop setup (c :: rest) 0 awareCnt ss =
        simulateLoop setup ((takeAware c awareCnt).1 :: rest) 0 (takeAware c awareCnt).2 ss := by
      rw [simulateLoop, simulateLoop, again]
    rw [same, simulateLoop_few takeAware_lt]
    rfl

@[simp] theorem cells_put {cell : Option WifiChannel} :
    (ss.put index cell).value.cells = Function.update ss.cells index cell := rfl

/-- What the loop over the candidates leaves. -/
theorem roamingLoop_spec (candidates : List WifiChannel) (i : Nat) (ss : SsChans) :
    (∀ write ∈ (roamingLoop candidates i ss).log, write < i + candidates.length) ∧
      (roamingLoop candidates i ss).value.last = ss.last ∧
        ∀ k, (roamingLoop candidates i ss).value.cells k =
          if i ≤ k ∧ k < i + candidates.length then candidates[k - i]? else ss.cells k := by
  induction candidates generalizing i ss with
  | nil =>
    refine ⟨fun write member => (nomatch member), rfl, fun k => ?_⟩
    rw [if_neg (by rw [List.length_nil]; omega)]
    rfl
  | cons c rest induction =>
    obtain ⟨writes, last, cells⟩ := induction (i + 1) (ss.put i (some c)).value
    rw [List.length_cons]
    refine ⟨?_, last, fun k => ?_⟩
    · intro write member
      cases List.mem_append.mp member with
      | inl here =>
        cases List.mem_singleton.mp here
        omega
      | inr later =>
        have bound := writes write later
        omega
    · rw [roamingLoop, Memory.value_bind, cells, cells_put]
      by_cases later : i + 1 ≤ k ∧ k < i + 1 + rest.length
      · have place : k - i = k - (i + 1) + 1 := by omega
        rw [if_pos later, if_pos (by omega), place, List.getElem?_cons_succ]
      · rw [if_neg later]
        by_cases here : k = i
        · rw [here, Function.update_self, if_pos (by omega), Nat.sub_self]
          rfl
        · rw [Function.update_of_ne here, if_neg (by omega)]

/-- What the loop over the channels to connect on leaves. -/
theorem connectLoop_spec (ss : SsChans) (ends : i + turns = setup.connNum) :
    (∀ write ∈ (connectLoop setup turns i ss).log, write < 3 * setup.connNum) ∧
      (0 < turns → 3 * setup.connNum - 1 ∈ (connectLoop setup turns i ss).log) ∧
        (connectLoop setup turns i ss).value.last = ss.last ∧
          ∀ k < 3 * setup.connNum, (connectLoop setup turns i ss).value.cells k =
            if i ≤ k % setup.connNum then setup.connChan (k % setup.connNum)
            else ss.cells k := by
  induction turns generalizing i ss with
  | zero =>
    refine ⟨fun write member => (nomatch member), fun some => (nomatch some), rfl, ?_⟩
    intro k inside
    have below : k % setup.connNum < setup.connNum := Nat.mod_lt k (by omega)
    rw [if_neg (by omega)]
    rfl
  | succ turns induction =>
    let n := setup.connNum
    let written := (((ss.put i (setup.connChan i)).value.put (i + n) (setup.connChan i)).value.put
      (i + n * 2) (setup.connChan i)).value
    have next : i + 1 + turns = setup.connNum := by omega
    obtain ⟨writes, top, last, cells⟩ := induction written next
    have log : (connectLoop setup (turns + 1) i ss).log =
        i :: (i + n) :: (i + n * 2) :: (connectLoop setup turns (i + 1) written).log := rfl
    have value : (connectLoop setup (turns + 1) i ss).value =
        (connectLoop setup turns (i + 1) written).value := rfl
    have size : n = setup.connNum := rfl
    refine ⟨?_, ?_, ?_, ?_⟩
    · intro write member
      rw [log] at member
      simp only [List.mem_cons] at member
      obtain here | here | here | later := member
      · omega
      · omega
      · omega
      · exact writes write later
    · intro _
      rw [log]
      by_cases final : turns = 0
      · have place : 3 * setup.connNum - 1 = i + n * 2 := by omega
        rw [place]
        exact List.mem_cons_of_mem _ (List.mem_cons_of_mem _ List.mem_cons_self)
      · exact List.mem_cons_of_mem _ (List.mem_cons_of_mem _ (List.mem_cons_of_mem _
          (top (Nat.pos_of_ne_zero final))))
    · rw [value, last]
      rfl
    · intro k inside
      rw [value, cells k inside]
      have parts := Nat.div_add_mod k setup.connNum
      have below : k % setup.connNum < setup.connNum := Nat.mod_lt k (by omega)
      have turn : k / setup.connNum < 3 := Nat.div_lt_of_lt_mul (by rw [Nat.mul_comm]; exact inside)
      have writtenCells : written.cells = Function.update (Function.update (Function.update ss.cells i
          (setup.connChan i)) (i + n) (setup.connChan i)) (i + n * 2) (setup.connChan i) := rfl
      by_cases later : i + 1 ≤ k % setup.connNum
      · rw [if_pos later, if_pos (by omega)]
      · rw [if_neg later, writtenCells]
        simp only [Function.update_apply]
        by_cases here : k % setup.connNum = i
        · have place : k = i ∨ k = i + n ∨ k = i + n * 2 := by
            generalize k / setup.connNum = quotient at parts turn
            match quotient, turn with
            | 0, _ => omega
            | 1, _ => omega
            | 2, _ => omega
          rw [here, if_pos (Nat.le_refl i)]
          split_ifs <;> first | rfl | omega
        · have away : ∀ turn, k ≠ i + n * turn := by
            intro turn place
            apply here
            rw [place, Nat.add_mul_mod_self_left, Nat.mod_eq_of_lt (by omega)]
          have zero := away 0
          have one := away 1
          have two := away 2
          rw [if_neg two, if_neg (by omega), if_neg (by omega), if_neg (by omega)]

end Loops

/-! ### When the lists stay in their arrays -/

/-- The entries that `wifi_mac_scan_get_match_node` is to put in its list: the matching ones, but
only the first one when a network is asked for by its address. -/
def listedEntries (vif : ScanVif) (table : List ScaninfoEntry) : List ScaninfoEntry :=
  if vif.vmFlags &&& wifinetFDesbssid ≠ 0 then (matching vif table).take 1 else matching vif table

/-- The list of the matching entries is right: nothing is written past `conn_chan`, and the list has
the channels of the listed entries in order. -/
structure MatchListRight (vif : ScanVif) (node : MatchNode) (table : List ScaninfoEntry) : Prop where
  safe : Safe (· < wifinetChanMax) (wifiMacScanGetMatchNode vif node table)
  list : (List.range (wifiMacScanGetMatchNode vif node table).value.num).map
      (wifiMacScanGetMatchNode vif node table).value.connChan =
    (listedEntries vif table).map fun se => some se.scaninfo.siChan

def setupChans (setup : ScanSetup) (channels : List WifiChannel) : List (Option WifiChannel) :=
  if setup.simulate then
    (channels.zipIdx.find? (simulatePick setup)).toList.map fun entry => some entry.1
  else if setup.beforeConnect then
    let conn := (List.range setup.connNum).map setup.connChan
    conn ++ conn ++ conn
  else if setup.roaming && !setup.roamingFullScan then setup.roamingCandidates.map some
  else if setup.chanSwitch then [some setup.vmSwitchchan]
  else (channels.filter (fullScanPick setup.band)).map some

/-- The list of a scan is right: nothing is written past `ss_chans`, the index behind the last
channel is at most its size, and the list has the channels of the scan in order. -/
structure SetupListRight (setup : ScanSetup) : Prop where
  safe : Safe (· < wifinetChanMax) (vmScanSetupChan setup)
  last : (vmScanSetupChan setup).value.ss.last ≤ wifinetChanMax
  list : (vmScanSetupChan setup).value.ss.list =
    setupChans setup (vmScanSetupChan setup).value.table.channels

/-- The channels that a request is to go through: for every frequency in order those of the table
at it. -/
def requestChans (band : CfgBand) (request : List Nat) (channels : List WifiChannel) :
    List WifiChannel :=
  request.flatMap fun freq => channels.filter (userPick band freq)

structure UserListRight (band : CfgBand) (request : List Nat) (table : ChannelTable)
    (ssChans : Nat → Option WifiChannel) : Prop where
  safe : Safe (· < wifinetChanMax) (vmScanUserSetChan band request table ssChans)
  last : (vmScanUserSetChan band request table ssChans).value.1.last ≤ wifinetChanMax
  list : (vmScanUserSetChan band request table ssChans).value.1.list =
    (requestChans band request
      (vmScanUserSetChan band request table ssChans).value.2.channels).map some

section Lists

variable {vif : ScanVif} {node : MatchNode} {table : List ScaninfoEntry} {se : ScaninfoEntry}
  {setup : ScanSetup}

/-- What the loop over the entries of the scan leaves. -/
theorem matchNodeLoop_spec (vif : ScanVif) (table : List ScaninfoEntry) (node : MatchNode) :
    (matchNodeLoop vif table node).log = List.range' node.num (listedEntries vif table).length ∧
      (matchNodeLoop vif table node).value.num = node.num + (listedEntries vif table).length ∧
        (List.range (matchNodeLoop vif table node).value.num).map
            (matchNodeLoop vif table node).value.connChan =
          (List.range node.num).map node.connChan ++
            (listedEntries vif table).map fun se => some se.scaninfo.siChan := by
  induction table generalizing node with
  | nil =>
    have empty : listedEntries vif [] = [] := by
      rw [listedEntries]
      split <;> rfl
    rw [empty]
    exact ⟨rfl, rfl, (List.append_nil _).symm⟩
  | cons se rest induction =>
    by_cases found : matchBss vif se = 0
    · let next : MatchNode :=
        { node with
          vmScanchanRssi := (se.seAvgrssi : Int) - 255
          connChan := Function.update node.connChan node.num (some se.scaninfo.siChan)
          num := node.num + 1
          da := se.scaninfo.siMacaddr
          bssid := se.scaninfo.siBssid
          ret := 1 }
      have cells : (List.range next.num).map next.connChan =
          (List.range node.num).map node.connChan ++ [some se.scaninfo.siChan] := by
        have num : next.num = node.num + 1 := rfl
        rw [num, List.range_succ, List.map_append]
        congr 1
        · apply List.map_congr_left
          intro index inside
          exact Function.update_of_ne (Nat.ne_of_lt (List.mem_range.mp inside)) _ _
        · exact congrArg (fun cell => [cell]) (Function.update_self ..)
      have matched : matching vif (se :: rest) = se :: matching vif rest :=
        List.filter_cons_of_pos (decide_eq_true found)
      by_cases asked : vif.vmFlags &&& wifinetFDesbssid ≠ 0
      · have listed : listedEntries vif (se :: rest) = [se] := by
          rw [listedEntries, if_pos asked, matched]
          rfl
        rw [matchNodeLoop, if_pos found, listed]
        dsimp only
        rw [if_pos asked]
        exact ⟨rfl, rfl, cells⟩
      · have listed : listedEntries vif (se :: rest) = se :: listedEntries vif rest := by
          rw [listedEntries, listedEntries, if_neg asked, if_neg asked, matched]
        have step : matchNodeLoop vif (se :: rest) node =
            emit node.num >>= fun _ => matchNodeLoop vif rest next := by
          rw [matchNodeLoop, if_pos found]
          dsimp only
          rw [if_neg asked]
        obtain ⟨log, num, list⟩ := induction next
        rw [step, listed, Memory.log_bind, Memory.value_bind, log, num, List.length_cons]
        refine ⟨rfl, ?_, ?_⟩
        · exact Nat.add_right_comm node.num 1 _
        · rw [← num, list, cells, List.append_assoc]
          rfl
    · have passed : matching vif (se :: rest) = matching vif rest :=
        List.filter_cons_of_neg fun holds => found (of_decide_eq_true holds)
      have listed : listedEntries vif (se :: rest) = listedEntries vif rest := by
        rw [listedEntries, listedEntries, passed]
      rw [matchNodeLoop, if_neg found, listed]
      exact induction _

theorem matchListRight_iff : MatchListRight vif node table ↔
    (listedEntries vif table).length ≤ wifinetChanMax := by
  obtain ⟨log, _, list⟩ := matchNodeLoop_spec vif table
    { node with num := 0, ret := 0, table := [] }
  change _ = List.range' 0 _ at log
  constructor
  · intro right
    have safe := right.safe
    rw [Safe, wifiMacScanGetMatchNode, log] at safe
    by_contra more
    have last := safe ((listedEntries vif table).length - 1) (List.mem_range'_1.mpr (by
      simp only [wifinetChanMax] at more
      omega))
    simp only [wifinetChanMax] at more last
    omega
  · intro few
    refine ⟨?_, list⟩
    rw [Safe, wifiMacScanGetMatchNode, log]
    intro index member
    have inside := List.mem_range'_1.mp member
    simp only [wifinetChanMax] at few ⊢
    omega

theorem connect_list (ss : SsChans) :
    (List.range (setup.connNum * 3)).map
        (connectLoop setup setup.connNum 0 ss).value.cells =
      (let conn := (List.range setup.connNum).map setup.connChan
      conn ++ conn ++ conn) := by
  obtain ⟨_, _, _, cells⟩ := connectLoop_spec ss (Nat.zero_add setup.connNum)
  have third : ∀ turn < 3, (List.range setup.connNum).map (fun k =>
      (connectLoop setup setup.connNum 0 ss).value.cells (setup.connNum * turn + k)) =
        (List.range setup.connNum).map setup.connChan := by
    intro turn low
    apply List.map_congr_left
    intro k inside
    have below := List.mem_range.mp inside
    have bound : setup.connNum * turn ≤ setup.connNum * 2 := Nat.mul_le_mul_left _ (by omega)
    rw [cells _ (by omega), Nat.mul_add_mod, Nat.mod_eq_of_lt below, if_pos (Nat.zero_le k)]
  have zero := third 0 (by decide)
  have one := third 1 (by decide)
  have two := third 2 (by decide)
  have parts : setup.connNum * 3 = setup.connNum + setup.connNum + setup.connNum := by omega
  simp only [Nat.mul_zero, Nat.mul_one, Nat.mul_two, Nat.zero_add] at zero one two
  rw [parts, List.range_add, List.range_add, List.map_append, List.map_append, List.map_map,
    List.map_map]
  dsimp only
  rw [← zero]
  congr 1
  · congr 1
    rw [zero]
    exact one
  · rw [zero]
    exact two

theorem appendAll_empty (ssChans : Nat → Option WifiChannel) {channels : List WifiChannel}
    (room : channels.length ≤ wifinetChanMax) :
    Safe (· < wifinetChanMax) (appendAll ⟨ssChans, 0⟩ channels) ∧
      (appendAll ⟨ssChans, 0⟩ channels).value.last ≤ wifinetChanMax ∧
        (appendAll ⟨ssChans, 0⟩ channels).value.list = channels.map some := by
  have start : (⟨ssChans, 0⟩ : SsChans).last + channels.length ≤ 256 := by
    rw [Nat.zero_add]
    exact room
  obtain ⟨last, list, safe⟩ := appendAll_spec start
  refine ⟨safe, ?_, list⟩
  rw [last]
  exact start

theorem setupListRight_simulate (simulate : setup.simulate = true) : SetupListRight setup := by
  let table : ChannelTable := ⟨setup.wmChannels, setup.chanAwareCnt⟩
  have program : vmScanSetupChan setup =
      appendAll ⟨setup.ssChans, 0⟩
        ((table.taken.channels.zipIdx.find? (simulatePick setup)).toList.map Prod.fst) >>=
      fun ss => pure { setup.outcome (ss, table.taken) with simulate := false } := by
    rw [vmScanSetupChan, if_pos simulate]
    dsimp only
    have loop := simulateLoop_eq setup ⟨setup.ssChans, 0⟩ table
    rw [loop, Memory.seq_assoc]
    rfl
  have few : ((table.taken.channels.zipIdx.find? (simulatePick setup)).toList.map
      Prod.fst).length ≤ wifinetChanMax := by
    rw [List.length_map]
    cases table.taken.channels.zipIdx.find? (simulatePick setup) with
    | none => exact Nat.zero_le _
    | some entry => exact Nat.succ_le_succ (Nat.zero_le _)
  obtain ⟨safe, last, list⟩ := appendAll_empty setup.ssChans few
  refine ⟨?_, ?_, ?_⟩
  · rw [program, Memory.safe_bind]
    exact ⟨safe, Memory.safe_pure _⟩
  · rw [program]
    exact last
  · rw [program]
    rw [setupChans, if_pos simulate]
    refine list.trans ?_
    rw [List.map_map]
    rfl

/-- A full scan goes through the channels of the table, of which there are less than the list
holds. -/
theorem setupListRight_full (simulate : setup.simulate = false)
    (beforeConnect : setup.beforeConnect = false)
    (roaming : (setup.roaming && !setup.roamingFullScan) = false)
    (chanSwitch : setup.chanSwitch = false) : SetupListRight setup := by
  let table : ChannelTable := ⟨setup.wmChannels, setup.chanAwareCnt⟩
  have program : vmScanSetupChan setup =
      appendAll ⟨setup.ssChans, 0⟩ (table.taken.channels.filter (fullScanPick setup.band)) >>=
      fun ss => pure { setup.outcome (ss, table.taken) with roamingCandidates := [] } := by
    rw [vmScanSetupChan, simulate, beforeConnect, roaming, chanSwitch]
    dsimp only
    have loop := tableLoop_eq (fullScanPick setup.band) ⟨setup.ssChans, 0⟩ table
    rw [if_neg Bool.false_ne_true, if_neg Bool.false_ne_true, if_neg Bool.false_ne_true,
      if_neg Bool.false_ne_true, loop, Memory.seq_assoc]
    rfl
  have size : table.taken.channels.length = setup.wmChannels.length := by
    change (ChannelTable.taken ⟨setup.wmChannels, setup.chanAwareCnt⟩).channels.length = _
    cases setup.wmChannels with
    | nil => rfl
    | cons c rest => rfl
  have few : (table.taken.channels.filter (fullScanPick setup.band)).length ≤ wifinetChanMax := by
    have fewer := List.length_filter_le (fullScanPick setup.band) table.taken.channels
    have admitted := setup.admitted
    omega
  obtain ⟨safe, last, list⟩ := appendAll_empty setup.ssChans few
  refine ⟨?_, ?_, ?_⟩
  · rw [program, Memory.safe_bind]
    exact ⟨safe, Memory.safe_pure _⟩
  · rw [program]
    exact last
  · rw [program, setupChans, simulate, beforeConnect, roaming, chanSwitch]
    exact list

/-- The candidates of the roaming fit the list. -/
theorem setupListRight_roaming (simulate : setup.simulate = false)
    (beforeConnect : setup.beforeConnect = false)
    (roaming : (setup.roaming && !setup.roamingFullScan) = true) : SetupListRight setup := by
  have few := setup.candidates_le
  simp only [roamingCandidateChanMax] at few
  have last : setup.roamingCandidates.length % 65536 = setup.roamingCandidates.length :=
    Nat.mod_eq_of_lt (by omega)
  have program : vmScanSetupChan setup =
      roamingLoop setup.roamingCandidates 0 ⟨setup.ssChans, setup.roamingCandidates.length⟩ >>=
      fun ss => pure (setup.outcome (ss, ⟨setup.wmChannels, setup.chanAwareCnt⟩)) := by
    rw [vmScanSetupChan, simulate, beforeConnect, roaming]
    dsimp only
    rw [if_neg Bool.false_ne_true, if_neg Bool.false_ne_true, if_pos rfl, last, List.take_length]
  obtain ⟨writes, same, cells⟩ := roamingLoop_spec setup.roamingCandidates 0
    ⟨setup.ssChans, setup.roamingCandidates.length⟩
  refine ⟨?_, ?_, ?_⟩
  · rw [program, Memory.safe_bind]
    refine ⟨?_, Memory.safe_pure _⟩
    intro write member
    have inside := writes write member
    simp only [wifinetChanMax]
    omega
  · rw [program]
    change (roamingLoop setup.roamingCandidates 0 _).value.last ≤ _
    rw [same]
    simp only [wifinetChanMax]
    omega
  · rw [program, setupChans, simulate, beforeConnect, roaming, if_neg Bool.false_ne_true,
      if_neg Bool.false_ne_true, if_pos rfl]
    change (List.range (roamingLoop setup.roamingCandidates 0 _).value.last).map
      (roamingLoop setup.roamingCandidates 0 _).value.cells = _
    rw [same]
    apply List.ext_getElem
    · rw [List.length_map, List.length_range, List.length_map]
    · intro k first second
      rw [List.length_map, List.length_range] at first
      change k < setup.roamingCandidates.length at first
      rw [List.getElem_map, List.getElem_map, List.getElem_range, cells,
        if_pos ⟨Nat.zero_le k, by omega⟩, Nat.sub_zero]
      exact List.getElem?_eq_getElem first

private theorem setupListRight_switch (simulate : setup.simulate = false)
    (beforeConnect : setup.beforeConnect = false)
    (roaming : (setup.roaming && !setup.roamingFullScan) = false)
    (chanSwitch : setup.chanSwitch = true) : SetupListRight setup := by
  have program : vmScanSetupChan setup =
      (SsChans.put ⟨setup.ssChans, 1⟩ 0 (some setup.vmSwitchchan)) >>=
      fun ss => pure (setup.outcome (ss, ⟨setup.wmChannels, setup.chanAwareCnt⟩)) := by
    rw [vmScanSetupChan, simulate, beforeConnect, roaming, chanSwitch]
    rfl
  refine ⟨?_, ?_, ?_⟩
  · rw [program, Memory.safe_bind]
    refine ⟨?_, Memory.safe_pure _⟩
    intro write member
    cases List.mem_singleton.mp member
    decide
  · rw [program]
    change 1 ≤ 256
    decide
  · rw [program, setupChans, simulate, beforeConnect, roaming, chanSwitch]
    rfl

theorem setupListRight_connect (simulate : setup.simulate = false)
    (beforeConnect : setup.beforeConnect = true) :
    SetupListRight setup ↔ 3 * setup.connNum ≤ wifinetChanMax := by
  let start : SsChans := ⟨setup.ssChans, setup.connNum * 3 % 2 ^ 32 % 65536⟩
  have program : vmScanSetupChan setup = connectLoop setup setup.connNum 0 start >>=
      fun ss => pure (setup.outcome (ss, ⟨setup.wmChannels, setup.chanAwareCnt⟩)) := by
    rw [vmScanSetupChan, simulate, beforeConnect]
    rfl
  obtain ⟨writes, top, last, _⟩ := connectLoop_spec start (Nat.zero_add setup.connNum)
  constructor
  · intro right
    have safe := right.safe
    rw [program, Memory.safe_bind] at safe
    by_contra more
    simp only [wifinetChanMax] at more
    have past := safe.1 _ (top (by omega))
    simp only [wifinetChanMax] at past
    omega
  · intro few
    simp only [wifinetChanMax] at few
    have whole : setup.connNum * 3 % 2 ^ 32 % 65536 = setup.connNum * 3 := by omega
    have size : start.last = setup.connNum * 3 := whole
    refine ⟨?_, ?_, ?_⟩
    · rw [program, Memory.safe_bind]
      refine ⟨?_, Memory.safe_pure _⟩
      intro write member
      have inside := writes write member
      simp only [wifinetChanMax]
      omega
    · rw [program]
      change (connectLoop setup setup.connNum 0 start).value.last ≤ 256
      rw [last, size]
      omega
    · rw [program, setupChans, simulate, beforeConnect, if_neg Bool.false_ne_true, if_pos rfl]
      change (List.range (connectLoop setup setup.connNum 0 start).value.last).map
        (connectLoop setup setup.connNum 0 start).value.cells = _
      rw [last, size, connect_list]

theorem setupListRight_iff : SetupListRight setup ↔
    (setup.simulate = false → setup.beforeConnect = true → 3 * setup.connNum ≤ wifinetChanMax) := by
  cases simulate : setup.simulate with
  | true => exact iff_of_true (setupListRight_simulate simulate) fun other => by cases other
  | false =>
    cases beforeConnect : setup.beforeConnect with
    | true =>
      rw [setupListRight_connect simulate beforeConnect]
      exact ⟨fun few _ _ => few, fun few => few rfl rfl⟩
    | false =>
      refine iff_of_true ?_ fun _ other => by cases other
      cases roaming : setup.roaming && !setup.roamingFullScan with
      | true => exact setupListRight_roaming simulate beforeConnect roaming
      | false =>
        cases chanSwitch : setup.chanSwitch with
        | true => exact setupListRight_switch simulate beforeConnect roaming chanSwitch
        | false => exact setupListRight_full simulate beforeConnect roaming chanSwitch

end Lists

section Requests

variable {band : CfgBand} {request : List Nat} {table : ChannelTable} {c : WifiChannel}
  {ssChans : Nat → Option WifiChannel}

private theorem userPick_clearAware (freq : Nat) :
    userPick band freq c.clearAware = userPick band freq c := by
  have flags : ∀ bit : Nat, c.clearAware.chanFlags &&& bit =
      c.chanFlags &&& ((0xffff - 0x1000) &&& bit) := fun bit => Nat.and_assoc _ _ _
  rw [userPick, userPick, inCfgBand, inCfgBand, WifiChannel.is2ghz, WifiChannel.is2ghz,
    WifiChannel.is5ghz, WifiChannel.is5ghz, flags, flags]
  rfl

private theorem length_requestChans_taken :
    (requestChans band request table.taken.channels).length =
    (requestChans band request table.channels).length := by
  rw [requestChans, requestChans, List.length_flatMap, List.length_flatMap]
  congr 1
  apply List.map_congr_left
  intro freq _
  match table with
  | ⟨[], _⟩ => rfl
  | ⟨c :: rest, awareCnt⟩ =>
    have same : userPick band freq (takeAware c awareCnt).1 = userPick band freq c := by
      rw [takeAware]
      split
      · exact userPick_clearAware freq
      · rfl
    rw [ChannelTable.taken, List.filter_cons, List.filter_cons, same]
    split <;> rfl

/-- The program of a request: the channels of the request are appended, by the table as it is left
behind. -/
theorem vmScanUserSetChan_eq (band : CfgBand) (request : List Nat) (table : ChannelTable)
    (ssChans : Nat → Option WifiChannel) :
    ∃ left : ChannelTable,
      requestChans band request left.channels = requestChans band request table.taken.channels ∧
        vmScanUserSetChan band request table ssChans =
          appendAll ⟨ssChans, 0⟩ (requestChans band request table.taken.channels) >>=
            fun ss => pure (ss, left) := by
  cases request with
  | nil => exact ⟨{ table with awareCnt := (table.awareCnt + 1) % 256 }, rfl, rfl⟩
  | cons freq rest =>
    refine ⟨{ table.taken with awareCnt := (table.taken.awareCnt + 1) % 256 }, rfl, ?_⟩
    have same : userLoop band (freq :: rest) table ⟨ssChans, 0⟩ =
        userLoop band (freq :: rest) table.taken ⟨ssChans, 0⟩ := by
      rw [userLoop, userLoop, tableLoop_eq, tableLoop_eq, taken_taken]
    rw [vmScanUserSetChan, same, userLoop_eq taken_taken, Memory.seq_assoc]
    rfl

theorem userListRight_iff : UserListRight band request table ssChans ↔
    (requestChans band request table.channels).length ≤ wifinetChanMax := by
  obtain ⟨left, chans, program⟩ := vmScanUserSetChan_eq band request table ssChans
  rw [← length_requestChans_taken]
  constructor
  · intro right
    have safe := right.safe
    rw [program, Memory.safe_bind] at safe
    by_contra more
    apply not_safe_appendAll (Nat.zero_le _) _ safe.1
    rw [Nat.zero_add]
    exact Nat.not_le.mp more
  · intro few
    obtain ⟨safe, last, list⟩ := appendAll_empty ssChans few
    refine ⟨?_, ?_, ?_⟩
    · rw [program, Memory.safe_bind]
      exact ⟨safe, Memory.safe_pure _⟩
    · rw [program]
      exact last
    · rw [program]
      refine list.trans ?_
      rw [← chans]
      rfl

end Requests

/-- The three lists of channels stay in their arrays, and are the channels that they are to be, just
when the matching entries (if no single one is asked for), three times the channels to connect on
and the channels that a request matches are no more than the arrays hold. -/
theorem channelLists_iff (vif : ScanVif) (node : MatchNode) (entries : List ScaninfoEntry)
    (setup : ScanSetup) (band : CfgBand) (request : List Nat) (table : ChannelTable)
    (ssChans : Nat → Option WifiChannel) :
    (MatchListRight vif node entries ↔
      vif.vmFlags &&& wifinetFDesbssid ≠ 0 ∨ (matching vif entries).length ≤ wifinetChanMax) ∧
    (SetupListRight setup ↔
      (setup.simulate = false → setup.beforeConnect = true →
        3 * setup.connNum ≤ wifinetChanMax)) ∧
    (UserListRight band request table ssChans ↔
      (request.map fun freq => table.channels.countP (userPick band freq)).sum ≤
        wifinetChanMax) := by
  refine ⟨?_, setupListRight_iff, ?_⟩
  · rw [matchListRight_iff, listedEntries]
    by_cases asked : vif.vmFlags &&& wifinetFDesbssid ≠ 0
    · rw [if_pos asked, List.length_take]
      refine iff_of_true ?_ (Or.inl asked)
      exact Nat.le_trans (Nat.min_le_left _ _) (by decide)
    · rw [if_neg asked]
      exact ⟨Or.inr, fun few => few.resolve_left asked⟩
  · rw [userListRight_iff, requestChans, List.length_flatMap]
    simp only [List.countP_eq_length_filter]

/-- A scan before a connect for which 86 networks have matched. -/
def crowdedSetup : ScanSetup where
  simulate := false
  beforeConnect := true
  roaming := false
  roamingFullScan := false
  chanSwitch := false
  band := .all
  wmChannels := []
  wmCurchan := none
  connChan := fun _ => some ⟨2437, 0x4000, 6, .width20⟩
  connNum := 86
  roamingCandidates := []
  vmSwitchchan := ⟨2437, 0x4000, 6, .width20⟩
  chanAwareCnt := 0
  ssChans := fun _ => none
  admitted := by decide
  candidates_le := by decide

def oneChannel : ChannelTable := ⟨[⟨2437, 0x4000, 6, .width20⟩], 0⟩

/-- The list of a scan for 86 matching networks, and that of a request that names one channel 257
times, run past their array. -/
theorem channelLists_overrun :
    ¬ SetupListRight crowdedSetup ∧
      ¬ UserListRight .all (List.replicate 257 2437) oneChannel fun _ => none := by
  constructor
  · intro right
    have few := (setupListRight_connect rfl rfl).mp right
    revert few
    decide
  · intro right
    have few := userListRight_iff.mp right
    rw [requestChans, List.flatMap_replicate, List.length_flatten, List.map_replicate,
      List.sum_replicate] at few
    revert few
    decide

end W522a.Scan
