import W522a.Lib.Run
import W522a.Scan.Receive

/-!
The reception of a beacon or a probe response stays in the arrays of the entry when the elements
with a structure of their own are no longer than it, and it leaves every entry linked or freed.
-/

namespace W522a.Scan

open Chained (Linked Unlinked)
open Ie (MgmtFrame ScanParam IeField)
open Memory (Traced Safe emit)

/-- The array holds an element with its two bytes of header. -/
def Holds (frame : MgmtFrame) (field : InfoField) (ie : Option Nat) : Prop :=
  ∀ frm, ie = some frm → frame.ieLen frm + 2 ≤ field.size

private theorem ieLen_le (frame : MgmtFrame) (frm : Nat) : frame.ieLen frm ≤ 255 := by
  have bound := (frame.byte (frm + 1)).toNat_lt
  rw [MgmtFrame.ieLen]
  omega

private theorem InfoField.two_le_size (field : InfoField) : 2 ≤ field.size := by
  cases field with
  | _ => decide

theorem holds_of_length {field : InfoField} (wide : field.size = scaninfoIeLength)
    (frame : MgmtFrame) (ie : Option Nat) : Holds frame field ie := by
  intro frm _
  have bound := ieLen_le frame frm
  rw [wide]
  exact Nat.add_le_of_le_sub (by decide) (Nat.le_trans bound (by decide))

section Writes

variable {frame : MgmtFrame} {scan : ScanParam} {field : InfoField} {ie : Option Nat}
  {info : WifiScanInfo}

@[simp] theorem inside_write {access : InfoWrite} {bytes : Nat → UInt8} :
    Safe InfoWrite.Within (write access bytes info) ↔ access.Within := by
  simp [write]

@[simp] theorem value_write {access : InfoWrite} {bytes : Nat → UInt8} :
    (write access bytes info).value = info.put access bytes := rfl

theorem inside_saveie :
    Safe InfoWrite.Within (saveie frame field ie info) ↔ Holds frame field ie := by
  cases ie with
  | none => simpa [saveie, Holds, InfoWrite.Within] using field.two_le_size
  | some frm => simp [saveie, Holds, InfoWrite.Within]

theorem inside_saveieSome :
    Safe InfoWrite.Within (saveieSome frame field ie info) ↔ Holds frame field ie := by
  cases ie with
  | none => simp [saveieSome, Holds]
  | some frm => exact inside_saveie

theorem saveie_siMacaddr : (saveie frame field ie info).value.siMacaddr = info.siMacaddr := by
  cases ie with
  | none => rfl
  | some frm => rfl

theorem saveieSome_siMacaddr :
    (saveieSome frame field ie info).value.siMacaddr = info.siMacaddr := by
  cases ie with
  | none => rfl
  | some frm => rfl

section Each

variable (save : InfoField → Option Nat → WifiScanInfo → Writer WifiScanInfo)

theorem inside_saveEach
    (law : ∀ field ie info, Safe InfoWrite.Within (save field ie info) ↔ Holds frame field ie)
    (fields : List (InfoField × IeField)) (info : WifiScanInfo) :
    Safe InfoWrite.Within (saveEach scan save fields info) ↔
      ∀ pair ∈ fields, Holds frame pair.1 (scan.ie pair.2) := by
  induction fields generalizing info with
  | nil => simp [saveEach]
  | cons pair rest each =>
    obtain ⟨field, ie⟩ := pair
    rw [saveEach, Memory.safe_bind, law, each]
    simp

theorem saveEach_siMacaddr
    (law : ∀ field ie info, (save field ie info).value.siMacaddr = info.siMacaddr)
    (fields : List (InfoField × IeField)) (info : WifiScanInfo) :
    (saveEach scan save fields info).value.siMacaddr = info.siMacaddr := by
  induction fields generalizing info with
  | nil => rfl
  | cons pair rest each =>
    obtain ⟨field, ie⟩ := pair
    rw [saveEach, Memory.value_bind, each, law]

end Each

private theorem inside_saveRates (frm : Nat) (sized : field.size = 2 + wifinetRateMaxsize) :
    Safe InfoWrite.Within (saveRates frame field frm info) := by
  have cut : min (frame.ieLen frm) wifinetRateMaxsize ≤ wifinetRateMaxsize := Nat.min_le_right _ _
  simp only [saveRates, Memory.safe_bind, inside_write, InfoWrite.Within, sized]
  exact ⟨by decide, by decide, Nat.add_le_add_left cut 2⟩

theorem inside_saveBothRates : Safe InfoWrite.Within (saveBothRates frame scan info) := by
  have clear : InfoWrite.Within ⟨.siExrates, 1, 1⟩ := by decide
  have rates : ∀ frm info, Safe InfoWrite.Within (saveRates frame .siRates frm info) :=
    fun frm info => inside_saveRates frm rfl
  have xrates : ∀ frm info, Safe InfoWrite.Within (saveRates frame .siExrates frm info) :=
    fun frm info => inside_saveRates frm rfl
  rw [saveBothRates]
  cases scan.ie .rates with
  | none =>
    cases scan.ie .xrates with
    | none => exact inside_write.mpr clear
    | some frm => exact xrates frm _
  | some frm =>
    cases scan.ie .xrates with
    | none => exact Memory.safe_bind.mpr ⟨rates frm _, inside_write.mpr clear⟩
    | some place => exact Memory.safe_bind.mpr ⟨rates frm _, xrates place _⟩

theorem saveBothRates_siMacaddr :
    (saveBothRates frame scan info).value.siMacaddr = info.siMacaddr := by
  rw [saveBothRates]
  cases scan.ie .rates with
  | none =>
    cases scan.ie .xrates with
    | none => rfl
    | some frm => rfl
  | some frm =>
    cases scan.ie .xrates with
    | none => rfl
    | some frm => rfl

/-- A copied ssid is no longer than its array allows. -/
def SsidHolds (frame : MgmtFrame) (ie : Option Nat) (info : WifiScanInfo) : Prop :=
  ∀ frm, ie = some frm → copiesSsid frame frm info = true → frame.ieLen frm ≤ wifinetNwidLen

theorem inside_saveSsid :
    Safe InfoWrite.Within (saveSsid frame ie info) ↔ SsidHolds frame ie info := by
  cases ie with
  | none => simp [saveSsid, SsidHolds]
  | some frm =>
    cases copied : copiesSsid frame frm info with
    | false => simp [saveSsid, SsidHolds, copied]
    | true =>
      have sized : 2 + frame.ieLen frm ≤ 2 + wifinetNwidLen ↔ frame.ieLen frm ≤ wifinetNwidLen :=
        Nat.add_le_add_iff_left
      simpa [saveSsid, SsidHolds, copied, InfoWrite.Within, InfoField.size] using sized

theorem saveSsid_siMacaddr : (saveSsid frame ie info).value.siMacaddr = info.siMacaddr := by
  cases ie with
  | none => rfl
  | some frm =>
    cases copied : copiesSsid frame frm info with
    | false => simp [saveSsid, copied]
    | true => simp [saveSsid, copied, WifiScanInfo.put]

end Writes

/-- Saving elements leaves an array that is for none of them. -/
theorem saveEach_array {frame : MgmtFrame} {scan : ScanParam} {field : InfoField}
    (fields : List (InfoField × IeField)) (apart : ∀ pair ∈ fields, pair.1 ≠ field)
    (info : WifiScanInfo) :
    (saveEach scan (saveieSome frame) fields info).value.array field = info.array field := by
  induction fields generalizing info with
  | nil => rfl
  | cons pair rest each =>
    obtain ⟨first, ie⟩ := pair
    have here : first ≠ field := apart _ List.mem_cons_self
    have later : ∀ pair ∈ rest, pair.1 ≠ field := fun pair listed =>
      apart pair (List.mem_cons_of_mem _ listed)
    rw [saveEach, Memory.value_bind, each later]
    cases scan.ie ie with
    | none => rfl
    | some frm =>
      have put : ∀ access : InfoWrite, access.field = first → ∀ bytes,
          (info.put access bytes).array field = info.array field := by
        intro access same bytes
        exact Function.update_of_ne (same ▸ here.symm) _ _
      exact put _ rfl _

section Entry

variable {env : ScanRxEnv} {frame : MgmtFrame} {scan : ScanParam} {chan : WifiChannel}
  {se : ScaninfoEntry} {info : WifiScanInfo}

/-- Every element of a frame that is recorded in an entry is no longer than its array allows. -/
structure ElementsHold (frame : MgmtFrame) (scan : ScanParam) (info : WifiScanInfo) : Prop where
  ssid : SsidHolds frame (scan.ie .ssid) info
  extCap : ∀ frm, scan.ie .extCap = some frm → frame.ieLen frm ≤ 8
  vhtCap : ∀ frm, scan.ie .vhtCap = some frm → frame.ieLen frm ≤ 12
  vhtOpt : ∀ frm, scan.ie .vhtOpt = some frm → frame.ieLen frm ≤ 5
  vhtTxPwr : ∀ frm, scan.ie .vhtTxPwr = some frm → frame.ieLen frm ≤ 5
  vhtChSw : ∀ frm, scan.ie .vhtChSw = some frm → frame.ieLen frm ≤ 96
  vhtExtBssLd : ∀ frm, scan.ie .vhtExtBssLd = some frm → frame.ieLen frm ≤ 6
  vhtQuietCh : ∀ frm, scan.ie .vhtQuietCh = some frm → frame.ieLen frm ≤ 7
  vhtOptMdNtf : ∀ frm, scan.ie .vhtOptMdNtf = some frm → frame.ieLen frm ≤ 1

theorem ElementsHold.congr {other : WifiScanInfo}
    (same : info.array .siSsid = other.array .siSsid) :
    ElementsHold frame scan info ↔ ElementsHold frame scan other := by
  have ssid : SsidHolds frame (scan.ie .ssid) info ↔ SsidHolds frame (scan.ie .ssid) other := by
    simp only [SsidHolds, copiesSsid, same]
  constructor
  · intro hold
    exact { hold with ssid := ssid.mp hold.ssid }
  · intro hold
    exact { hold with ssid := ssid.mpr hold.ssid }

private theorem holds_structIes :
    (∀ pair ∈ structIes, Holds frame pair.1 (scan.ie pair.2)) ∧
        SsidHolds frame (scan.ie .ssid) info ↔ ElementsHold frame scan info := by
  simp only [structIes, List.mem_cons, List.not_mem_nil, or_false, forall_eq_or_imp, forall_eq,
    Holds, InfoField.size]
  constructor
  · rintro ⟨⟨extCap, vhtCap, vhtOpt, vhtTxPwr, vhtChSw, vhtExtBssLd, vhtQuietCh, vhtOptMdNtf⟩, ssid⟩
    exact ⟨ssid, fun frm found => Nat.le_of_add_le_add_right (extCap frm found),
      fun frm found => Nat.le_of_add_le_add_right (vhtCap frm found),
      fun frm found => Nat.le_of_add_le_add_right (vhtOpt frm found),
      fun frm found => Nat.le_of_add_le_add_right (vhtTxPwr frm found),
      fun frm found => Nat.le_of_add_le_add_right (vhtChSw frm found),
      fun frm found => Nat.le_of_add_le_add_right (vhtExtBssLd frm found),
      fun frm found => Nat.le_of_add_le_add_right (vhtQuietCh frm found),
      fun frm found => Nat.le_of_add_le_add_right (vhtOptMdNtf frm found)⟩
  · intro hold
    refine ⟨⟨?_, ?_, ?_, ?_, ?_, ?_, ?_, ?_⟩, hold.ssid⟩
    · exact fun frm found => Nat.add_le_add_right (hold.extCap frm found) 2
    · exact fun frm found => Nat.add_le_add_right (hold.vhtCap frm found) 2
    · exact fun frm found => Nat.add_le_add_right (hold.vhtOpt frm found) 2
    · exact fun frm found => Nat.add_le_add_right (hold.vhtTxPwr frm found) 2
    · exact fun frm found => Nat.add_le_add_right (hold.vhtChSw frm found) 2
    · exact fun frm found => Nat.add_le_add_right (hold.vhtExtBssLd frm found) 2
    · exact fun frm found => Nat.add_le_add_right (hold.vhtQuietCh frm found) 2
    · exact fun frm found => Nat.add_le_add_right (hold.vhtOptMdNtf frm found) 2

private theorem holds_earlyIes : ∀ pair ∈ earlyIes, Holds frame pair.1 (scan.ie pair.2) := by
  intro pair listed
  have wide : ∀ pair ∈ earlyIes, pair.1.size = scaninfoIeLength := by decide
  exact holds_of_length (wide pair listed) frame _

private theorem holds_plainIes : ∀ pair ∈ plainIes, Holds frame pair.1 (scan.ie pair.2) := by
  intro pair listed
  have wide : ∀ pair ∈ plainIes, pair.1.size = scaninfoIeLength := by decide
  exact holds_of_length (wide pair listed) frame _

theorem inside_updateEntry :
    Safe InfoWrite.Within (updateEntry env frame scan chan se) ↔
      ElementsHold frame scan se.scaninfo := by
  have early : Safe InfoWrite.Within (saveEach scan (saveieSome frame) earlyIes se.scaninfo) ↔
      ∀ pair ∈ earlyIes, Holds frame pair.1 (scan.ie pair.2) :=
    inside_saveEach (saveieSome frame) (fun _ _ _ => inside_saveieSome) earlyIes se.scaninfo
  have plain : ∀ fields info, Safe InfoWrite.Within (saveEach scan (saveie frame) fields info) ↔
      ∀ pair ∈ fields, Holds frame pair.1 (scan.ie pair.2) :=
    inside_saveEach (saveie frame) fun _ _ _ => inside_saveie
  have kept : (saveEach scan (saveieSome frame) earlyIes se.scaninfo).value.array .siSsid =
      se.scaninfo.array .siSsid := saveEach_array earlyIes (by decide) se.scaninfo
  simp only [updateEntry, Memory.safe_bind, Memory.safe_pure, and_true, early, inside_saveSsid,
    inside_saveBothRates, true_and, inside_saveieSome, plain]
  rw [← ElementsHold.congr kept, ← holds_structIes]
  constructor
  · rintro ⟨_, copied, _, _, structs⟩
    exact ⟨structs, copied⟩
  · rintro ⟨structs, copied⟩
    exact ⟨holds_earlyIes, copied, holds_plainIes, holds_of_length rfl frame _, structs⟩

theorem updateEntry_siMacaddr :
    (updateEntry env frame scan chan se).value.scaninfo.siMacaddr = iAddr2 frame := by
  simp only [updateEntry, Memory.value_bind, Memory.value_pure, fixedInfo,
    saveEach_siMacaddr (saveie frame) (fun _ _ _ => saveie_siMacaddr), saveieSome_siMacaddr,
    saveBothRates_siMacaddr, saveSsid_siMacaddr]

end Entry

section Table

variable {env : ScanRxEnv} {frame : MgmtFrame} {scan : ScanParam} {table : ScaninfoTable}
  {chan : WifiChannel} {old : Bool} {oldse : Option Nat} {id : Nat} {se : ScaninfoEntry}

/-- Every entry in memory is once in the list and once in the chain of its address, and no list
holds an entry that is not in memory. -/
structure ScaninfoTable.Consistent (table : ScaninfoTable) : Prop where
  linked : ∀ id se, table.entry id = some se →
    Linked table.links id (staHash se.scaninfo.siMacaddr)
  unlinked : ∀ id, table.entry id = none → Unlinked table.links id

/-- Where an entry comes from: it is in memory with the sender's address, or it is new. -/
def EntryFor (frame : MgmtFrame) (table : ScaninfoTable) : Bool → Nat → Prop
  | true, id => ∃ se, table.entry id = some se ∧ se.scaninfo.siMacaddr = iAddr2 frame
  | false, id => table.entry id = none

private theorem EntryFor.stored (found : EntryFor frame table old id) :
    (table.entry id).isSome = old := by
  cases old with
  | false => rw [show table.entry id = none from found, Option.isSome_none]
  | true =>
    obtain ⟨se, known, _⟩ := found
    rw [known, Option.isSome_some]

theorem ScaninfoTable.Consistent.failEntry (consistent : table.Consistent)
    (stored : (table.entry id).isSome = old) : (Scan.failEntry old id table).Consistent := by
  have unlinked : Unlinked (Scan.failEntry old id table).links id := by
    cases old with
    | false => exact consistent.unlinked id (by simpa using stored)
    | true =>
      obtain ⟨se, known⟩ := Option.isSome_iff_exists.mp stored
      exact (consistent.linked id se known).unlink
  constructor
  · intro other se known
    by_cases same : other = id
    · subst same
      simp [Scan.failEntry, ScaninfoTable.set] at known
    · have before : table.entry other = some se := by
        simpa [Scan.failEntry, ScaninfoTable.set, same] using known
      have linked := consistent.linked other se before
      cases old with
      | false => exact linked
      | true => exact linked.unlink_other same
  · intro other missing
    by_cases same : other = id
    · exact same ▸ unlinked
    · have before : table.entry other = none := by
        simpa [Scan.failEntry, ScaninfoTable.set, same] using missing
      have apart := consistent.unlinked other before
      cases old with
      | false => exact apart
      | true => exact apart.unlink_other same

private theorem ScaninfoTable.Consistent.keepEntry (consistent : table.Consistent)
    (found : EntryFor frame table old id)
    (addressed : se.scaninfo.siMacaddr = iAddr2 frame) :
    (Scan.keepEntry env frame scan old id se table).Consistent := by
  have linked : Linked (Scan.keepEntry env frame scan old id se table).links id
      (staHash (iAddr2 frame)) := by
    cases old with
    | false => exact (consistent.unlinked id found).link
    | true =>
      obtain ⟨before, known, same⟩ := found
      exact same ▸ consistent.linked id before known
  constructor
  · intro other after known
    by_cases same : other = id
    · subst same
      have stored : se = after := by simpa [Scan.keepEntry, ScaninfoTable.set] using known
      exact stored ▸ addressed ▸ linked
    · have before : table.entry other = some after := by
        simpa [Scan.keepEntry, ScaninfoTable.set, same] using known
      have kept := consistent.linked other after before
      cases old with
      | false => exact kept.link_other same
      | true => exact kept
  · intro other missing
    by_cases same : other = id
    · subst same
      simp [Scan.keepEntry, ScaninfoTable.set] at missing
    · have before : table.entry other = none := by
        simpa [Scan.keepEntry, ScaninfoTable.set, same] using missing
      have apart := consistent.unlinked other before
      cases old with
      | false => exact apart.link_other same
      | true => exact apart

private theorem ScaninfoTable.Consistent.receiveEntry (consistent : table.Consistent)
    (found : EntryFor frame table old id) :
    (Scan.receiveEntry env frame scan chan old id se table).value.Consistent := by
  rw [Scan.receiveEntry, Memory.value_bind]
  generalize (saveRsn env frame scan { se.scaninfo with siFrameLen := scan.frameLen }).value = saved
  obtain ⟨err, info⟩ := saved
  dsimp only
  by_cases refused : err ≠ 0
  · rw [if_pos refused]
    exact consistent.failEntry found.stored
  · rw [if_neg refused]
    exact consistent.keepEntry found updateEntry_siMacaddr

/-- What the callers of `wifi_mac_scan_rx` and the allocator promise: an old entry has the sender's
address, and a new one was not in memory. -/
structure Promised (env : ScanRxEnv) (frame : MgmtFrame) (oldse : Option Nat)
    (table : ScaninfoTable) : Prop where
  old : ∀ id, oldse = some id → EntryFor frame table true id
  fresh : ∀ id, env.allocated = some id → EntryFor frame table false id

private theorem Promised.chosen (promised : Promised env frame oldse table)
    (chosen : chosenEntry env oldse = some (old, id)) : EntryFor frame table old id := by
  cases oldse with
  | some known =>
    cases chosen
    exact promised.old _ rfl
  | none =>
    cases allocated : env.allocated with
    | none =>
      rw [chosenEntry, allocated] at chosen
      cases chosen
    | some fresh =>
      rw [chosenEntry, allocated] at chosen
      cases chosen
      exact promised.fresh _ allocated

theorem ScaninfoTable.Consistent.wifiMacScanRx (consistent : table.Consistent)
    (promised : Promised env frame oldse table) :
    (Scan.wifiMacScanRx env frame scan oldse table).value.Consistent := by
  rw [Scan.wifiMacScanRx]
  cases env.discard with
  | true => exact consistent
  | false =>
    cases apChannel env frame scan with
    | none => exact consistent
    | some chan =>
      cases chosen : chosenEntry env oldse with
      | none => exact consistent
      | some choice =>
        obtain ⟨old, id⟩ := choice
        exact consistent.receiveEntry (promised.chosen chosen)

private theorem entryFor_of_senderEntries {listed : Nat × ScaninfoEntry}
    (member : listed ∈ senderEntries frame table) : EntryFor frame table true listed.1 := by
  obtain ⟨known, addressed⟩ := List.mem_filter.mp member
  obtain ⟨id, _, paired⟩ := List.mem_filterMap.mp known
  obtain ⟨se, stored, rfl⟩ := Option.map_eq_some_iff.mp paired
  exact ⟨se, stored, by simpa using addressed⟩

private theorem ScaninfoTable.Consistent.beaconToTable (consistent : table.Consistent)
    (fresh : ∀ id, env.allocated = some id → table.entry id = none) :
    (Scan.beaconToTable frame scan table env).value.Consistent := by
  rw [Scan.beaconToTable]
  cases (senderEntries frame table).isEmpty with
  | true => exact consistent.wifiMacScanRx ⟨fun id last => (by cases last), fresh⟩
  | false => exact consistent

private theorem ScaninfoTable.Consistent.responseToTable (consistent : table.Consistent)
    (connected : Bool)
    (fresh : ∀ id, env.allocated = some id → table.entry id = none) :
    (Scan.responseToTable frame scan table env connected).value.Consistent := by
  rw [Scan.responseToTable]
  generalize listing : ((scan.ie .ssid).elim [] fun frm =>
    (senderEntries frame table).filter fun listed => sameSsid frame frm listed.2) = known
  have sender : ∀ listed ∈ known, listed ∈ senderEntries frame table := by
    intro listed member
    rw [← listing] at member
    cases ssid : scan.ie .ssid with
    | none =>
      rw [ssid] at member
      cases member
    | some frm =>
      rw [ssid] at member
      exact (List.mem_filter.mp member).1
  cases connected && !known.isEmpty with
  | true => exact consistent
  | false =>
    refine consistent.wifiMacScanRx ⟨fun id last => ?_, fresh⟩
    obtain ⟨listed, ended, rfl⟩ := Option.map_eq_some_iff.mp last
    exact entryFor_of_senderEntries (sender listed (List.mem_of_getLast? ended))

private theorem ScaninfoTable.Consistent.freeEntries (consistent : table.Consistent)
    (chosen : Nat → Bool) : (Scan.freeEntries chosen table).Consistent := by
  have stored : ∀ id ∈ table.links.entries.filter chosen, (table.entry id).isSome = true := by
    intro id taken
    have listed := List.mem_of_mem_filter taken
    cases known : table.entry id with
    | none => exact absurd listed (List.count_eq_zero.mp (consistent.unlinked id known).unlisted)
    | some se => rfl
  have distinct : table.links.entries.Nodup := by
    apply List.nodup_iff_count_le_one.mpr
    intro id
    cases known : table.entry id with
    | none => exact (consistent.unlinked id known).unlisted ▸ Nat.zero_le 1
    | some se => exact Nat.le_of_eq (consistent.linked id se known).listed
  refine Machine.foldl_each (fun table id => (table.entry id).isSome = true) ?_
    (distinct.filter chosen) consistent stored
  intro table id consistent here
  refine ⟨consistent.failEntry here, fun other differ known => ?_⟩
  have kept : (Scan.failEntry true id table).entry other = table.entry other :=
    Function.update_of_ne differ _ _
  exact kept ▸ known

end Table

section Runs

inductive TableEvent where
  | beacon (env : ScanRxEnv) (frame : MgmtFrame) (scan : ScanParam)
  | response (env : ScanRxEnv) (frame : MgmtFrame) (scan : ScanParam) (connected : Bool)
  | free (chosen : Nat → Bool)

def TableEvent.write (table : ScaninfoTable) : TableEvent → Writer ScaninfoTable
  | .beacon env frame scan => beaconToTable frame scan table env
  | .response env frame scan connected => responseToTable frame scan table env connected
  | .free chosen => pure (freeEntries chosen table)

def ScaninfoTable.step (table : ScaninfoTable) (event : TableEvent) : ScaninfoTable :=
  (event.write table).value

/-- The allocator returns a new number. -/
def TableEvent.Fresh (table : ScaninfoTable) : TableEvent → Prop
  | .beacon env _ _ | .response env _ _ _ =>
    ∀ id, env.allocated = some id → table.entry id = none
  | .free _ => True

/-- The table of `wifi_mac_scan_attach`. -/
def ScaninfoTable.attached : ScaninfoTable := ⟨Chained.empty, fun _ => none, false⟩

private theorem ScaninfoTable.Consistent.step {table : ScaninfoTable} {event : TableEvent}
    (consistent : table.Consistent) (fresh : event.Fresh table) :
    (table.step event).Consistent := by
  cases event with
  | beacon env frame scan => exact consistent.beaconToTable fresh
  | response env frame scan connected => exact consistent.responseToTable connected fresh
  | free chosen => exact consistent.freeEntries chosen

/-- The table is consistent in every run whose writes stay in the arrays. -/
theorem run_consistent (events : List TableEvent)
    (met : Machine.Along ScaninfoTable.step (fun table event =>
      event.Fresh table ∧ Safe InfoWrite.Within (event.write table)) .attached events) :
    (Machine.run ScaninfoTable.step .attached events).Consistent := by
  have start : ScaninfoTable.attached.Consistent := ⟨nofun, fun id _ => Chained.unlinked_empty id⟩
  exact met.invariant (fun _ _ consistent met => consistent.step met.1) start

end Runs

section Law

variable {env : ScanRxEnv} {frame : MgmtFrame} {scan : ScanParam} {oldse : Option Nat}
  {table : ScaninfoTable} {chan : WifiChannel} {old : Bool} {id : Nat}

/-- The elements of the frame are recorded in an entry: there are a channel and an entry, and the
RSN element is not refused. -/
structure Recorded (env : ScanRxEnv) (frame : MgmtFrame) (scan : ScanParam) (oldse : Option Nat)
    (table : ScaninfoTable) (chan : WifiChannel) (old : Bool) (id : Nat) : Prop where
  heeded : env.discard = false
  channel : apChannel env frame scan = some chan
  chosen : chosenEntry env oldse = some (old, id)
  accepted : (saveRsn env frame scan
    { (startEntry chan old id table).scaninfo with siFrameLen := scan.frameLen }).value.1 = 0

private theorem safe_saveRsn (info : WifiScanInfo) :
    Safe InfoWrite.Within (saveRsn env frame scan info) := by
  rw [saveRsn]
  cases scan.ie .rsn with
  | none => exact Memory.safe_pure _
  | some frm =>
    have held : Holds frame .siRsnIe (some frm) := holds_of_length rfl frame (some frm)
    exact Memory.safe_bind.mpr ⟨inside_saveie.mpr held, Memory.safe_pure _⟩

private theorem saveRsn_siSsid (info : WifiScanInfo) :
    (saveRsn env frame scan info).value.2.array .siSsid = info.array .siSsid := by
  rw [saveRsn]
  cases scan.ie .rsn with
  | none => rfl
  | some frm =>
    rw [Memory.value_bind]
    dsimp only [Memory.value_pure]
    split
    · rfl
    · rfl

private theorem inside_receiveEntry {se : ScaninfoEntry} :
    Safe InfoWrite.Within (receiveEntry env frame scan chan old id se table) ↔
      ((saveRsn env frame scan { se.scaninfo with siFrameLen := scan.frameLen }).value.1 = 0 →
        ElementsHold frame scan se.scaninfo) := by
  have kept : (saveRsn env frame scan { se.scaninfo with
      siFrameLen := scan.frameLen }).value.2.array .siSsid = se.scaninfo.array .siSsid :=
    saveRsn_siSsid _
  rw [receiveEntry, Memory.safe_bind]
  refine (and_iff_right (safe_saveRsn _)).trans ?_
  generalize (saveRsn env frame scan { se.scaninfo with siFrameLen := scan.frameLen }).value = saved
    at kept
  obtain ⟨err, info⟩ := saved
  dsimp only at kept ⊢
  by_cases refused : err ≠ 0
  · simp [refused]
  · have accepted : err = 0 := not_not.mp refused
    rw [if_neg refused]
    simp only [Memory.safe_bind, Memory.safe_pure, and_true, inside_updateEntry, accepted,
      forall_const]
    exact ElementsHold.congr kept

/-- The writes stay in their arrays and the table stays consistent exactly when the elements that
are recorded are no longer than the arrays allow. -/
theorem scanRx_iff (env : ScanRxEnv) (frame : MgmtFrame) (scan : ScanParam) (oldse : Option Nat)
    (table : ScaninfoTable) (consistent : table.Consistent)
    (promised : Promised env frame oldse table) :
    (Safe InfoWrite.Within (wifiMacScanRx env frame scan oldse table) ∧
        (wifiMacScanRx env frame scan oldse table).value.Consistent) ↔
      ∀ chan old id, Recorded env frame scan oldse table chan old id →
        ElementsHold frame scan (startEntry chan old id table).scaninfo := by
  constructor
  · rintro ⟨inside, _⟩ chan old id recorded
    rw [wifiMacScanRx, recorded.heeded, recorded.channel, recorded.chosen] at inside
    exact inside_receiveEntry.mp inside recorded.accepted
  · intro hold
    refine ⟨?_, consistent.wifiMacScanRx promised⟩
    rw [wifiMacScanRx]
    cases heeded : env.discard with
    | true => exact Memory.safe_pure _
    | false =>
      cases channel : apChannel env frame scan with
      | none => exact Memory.safe_pure _
      | some chan =>
        cases chosen : chosenEntry env oldse with
        | none => exact Memory.safe_pure _
        | some choice =>
          obtain ⟨old, id⟩ := choice
          refine inside_receiveEntry.mpr fun accepted => ?_
          exact hold chan old id ⟨heeded, channel, chosen, accepted⟩

/-- A beacon with an ssid, a rate, a channel and extended capabilities of nine bytes. -/
def extCapBeacon : MgmtFrame where
  bytes :=
    [0x80, 0, 0, 0, 0xff, 0xff, 0xff, 0xff, 0xff, 0xff, 2, 0, 0, 0, 0, 1, 2, 0, 0, 0, 0, 1, 0, 0,
      0, 0, 0, 0, 0, 0, 0, 0, 0x64, 0, 1, 0,
      0, 1, 0x61, 1, 1, 0x82, 3, 1, 6, 127, 9, 4, 0, 0, 0, 0, 0, 0, 0x40, 1]

/-- What the walk over that beacon finds. -/
def extCapScan : ScanParam := (Ie.wifiMacPktParseElement 4 extCapBeacon).value.2

/-- A scan that hears on the sixth channel. -/
def hearing : ScanRxEnv where
  discard := false
  connect := false
  findChan _ _ _ := some ⟨2437, 0x4000, 6, .width20⟩
  allocated := some 1
  rssi := 40
  jiffies := 1000
  hz := 100
  ssSsid := []
  wraps := true

/-- A frame of the sender whose address ends so, without the extended capabilities. -/
def heardFrame (last : UInt8) : MgmtFrame :=
  ⟨(extCapBeacon.bytes.take 45).set 15 last⟩

def heardScan (last : UInt8) : ScanParam :=
  (Ie.wifiMacPktParseElement 4 (heardFrame last)).value.2

/-- A beacon, responses of its sender and of another one, and the first entry is freed. -/
def heardRun : List TableEvent :=
  [.beacon hearing (heardFrame 1) (heardScan 1),
    .response { hearing with allocated := some 2 } (heardFrame 1) (heardScan 1) false,
    .response { hearing with allocated := some 2 } (heardFrame 9) (heardScan 9) false,
    .free fun id => id == 1]

theorem run_consistent_heard :
    (Machine.run ScaninfoTable.step .attached heardRun).Consistent ∧
      (Machine.run ScaninfoTable.step .attached (heardRun.take 3)).links.entries = [1, 2] ∧
      (Machine.run ScaninfoTable.step .attached heardRun).links.entries = [2] := by
  refine ⟨run_consistent _ ⟨⟨fun _ _ => rfl, ?_⟩, ⟨?_, ?_⟩, ⟨?_, ?_⟩, ⟨trivial, ?_⟩, trivial⟩, ?_,
    ?_⟩
  · unfold Safe
    decide +kernel
  · rintro _ ⟨⟩
    decide +kernel
  · unfold Safe
    decide +kernel
  · rintro _ ⟨⟩
    decide +kernel
  · unfold Safe
    decide +kernel
  · exact Memory.safe_pure _
  · decide +kernel
  · decide +kernel

/-- A table with an entry of the beacon's sender. -/
def knownTable : ScaninfoTable where
  links := Chained.link 0 (staHash (iAddr2 extCapBeacon)) Chained.empty
  entry := Function.update (fun _ => none) 0 (some
    { clearedEntry ⟨2437, 0x4000, 6, .width20⟩ with
      scaninfo :=
        { (clearedEntry ⟨2437, 0x4000, 6, .width20⟩).scaninfo with
          siMacaddr := iAddr2 extCapBeacon } })
  getConnectAp := false

private theorem knownTable_consistent : knownTable.Consistent := by
  have fresh : Unlinked (Chained.empty : Chained.Table Nat (Fin staHashsize)) 0 :=
    Chained.unlinked_empty 0
  constructor
  · intro id se known
    by_cases first : id = 0
    · subst first
      cases known
      exact fresh.link
    · have missing : knownTable.entry id = none := by simp [knownTable, first]
      cases missing.symm.trans known
  · intro id missing
    by_cases first : id = 0
    · subst first
      cases missing
    · exact (Chained.unlinked_empty id).link_other first

theorem scanRx_iff_known :
    (Safe InfoWrite.Within (wifiMacScanRx hearing extCapBeacon extCapScan (some 0) knownTable) ∧
        (wifiMacScanRx hearing extCapBeacon extCapScan (some 0) knownTable).value.Consistent) ↔
      ∀ chan old id,
        Recorded hearing extCapBeacon extCapScan (some 0) knownTable chan old id →
          ElementsHold extCapBeacon extCapScan (startEntry chan old id knownTable).scaninfo :=
  scanRx_iff hearing extCapBeacon extCapScan (some 0) knownTable knownTable_consistent
    ⟨fun id same => by cases same; exact ⟨_, rfl, rfl⟩, fun id same => by cases same; rfl⟩

/-- The extended capabilities of nine bytes leave an array of ten. -/
theorem scanRx_overruns :
    ¬ ∀ env frame scan oldse table, (Ie.wifiMacPktParseElement 4 frame).value = (false, scan) →
      table.Consistent → Promised env frame oldse table →
        Safe InfoWrite.Within (wifiMacScanRx env frame scan oldse table) ∧
          (wifiMacScanRx env frame scan oldse table).value.Consistent := by
  intro law
  have start : ScaninfoTable.attached.Consistent := by
    refine ⟨fun id se known => ?_, fun id _ => Chained.unlinked_empty id⟩
    cases known
  obtain ⟨inside, _⟩ := law hearing extCapBeacon extCapScan none .attached rfl start
    ⟨fun id last => (by cases last), fun _ _ => rfl⟩
  have copied : ⟨.ieExtCap, 0, 11⟩ ∈
      (wifiMacScanRx hearing extCapBeacon extCapScan none .attached).log := by decide
  exact absurd (inside _ copied) (by decide)

end Law

end W522a.Scan
