import Mathlib.Data.List.Range
import W522a.Mac.ChanOrder

/-!
The Country element that is built from the ordered table. The channels of 2.4 GHz are described by
one triplet, of the lowest and of how many there are, so that a hole among them is filled; a pad
byte stands behind that triplet whatever the length.
-/

namespace W522a.Country

structure ChannelTable where
  wmChannels : Channels
  wmNchans : Nat
  numbered : ∀ index < wmNchans,
    0 < (wmChannels index).chanPriNum ∧ (wmChannels index).chanPriNum < 256

def ChannelTable.entries (table : ChannelTable) : List WifiChannel :=
  (List.range table.wmNchans).map table.wmChannels

def ChannelTable.ordered (table : ChannelTable) : Channels :=
  wifiMacChanOrder table.wmChannels 0 (table.wmNchans - 1)

theorem ChannelTable.ordered_shuffled (table : ChannelTable) :
    Pivot.Shuffled 0 table.wmNchans table.wmChannels table.ordered ∧
      Pivot.Sorted WifiChannel.chanPriNum 0 table.wmNchans table.ordered := by
  have sorted := wifiMacChanOrder_sorted table.wmChannels 0 (table.wmNchans - 1)
  rcases Nat.eq_zero_or_pos table.wmNchans with none | some
  · rw [ordered, wifiMacChanOrder_short (by omega)]
    exact ⟨.refl _ _ _, Pivot.sorted_of_short (by omega)⟩
  · rwa [Nat.sub_add_cancel some] at sorted

def ChannelTable.order (table : ChannelTable) : ChannelTable where
  wmChannels := table.ordered
  wmNchans := table.wmNchans
  numbered := by
    have all : Pivot.Each (fun c => 0 < c.chanPriNum ∧ c.chanPriNum < 256) 0 table.wmNchans
        table.wmChannels := fun index _ used => table.numbered index used
    intro index used
    exact table.ordered_shuffled.1.each all index (Nat.zero_le _) used

def WifiChannel.is2ghz (c : WifiChannel) : Bool := (c.chanFlags &&& 0x4000) != 0

def WifiChannel.is5ghz (c : WifiChannel) : Bool := (c.chanFlags &&& 0x8000) != 0

def WifiChannel.isDfs (c : WifiChannel) : Bool := (c.chanFlags &&& 0x2000) != 0

def byte (value : Int) : UInt8 := UInt8.ofNat (value % 256).toNat

/-- `wifi_mac_ie_country`. The bytes from `country_triplet` on go on behind the struct. -/
structure IeCountry where
  countryId : UInt8
  countryLen : UInt8
  countryStr : List UInt8
  countryTriplet : Nat → UInt8

abbrev tripletSize : Nat := 83 * 3

/-- The element while it is built, and `triplet_index`. -/
structure CountryWrite where
  ie : IeCountry
  tripletIndex : Nat

/-- `country_triplet[triplet_index++] = value` -/
def CountryWrite.put (write : CountryWrite) (value : UInt8) : CountryWrite where
  ie := { write.ie with
    countryTriplet := Function.update write.ie.countryTriplet write.tripletIndex value }
  tripletIndex := write.tripletIndex + 1

def CountryWrite.grow (write : CountryWrite) (count : UInt8) : CountryWrite :=
  { write with ie := { write.ie with countryLen := write.ie.countryLen + count } }

/-- The variables of the first loop of `wifi_mac_build_country_ie_2G_and_5G`. -/
structure Band2g where
  firstChannel : Int
  maxPower : Int
  channelNum : Int

/-- A turn of the first loop. -/
def band2gTurn (band : Band2g) (c : WifiChannel) : Band2g :=
  if c.is2ghz && c.chanBw == .width20 then
    let band :=
      if band.firstChannel = 0 then
        { band with firstChannel := c.chanPriNum, maxPower := c.chanMaxpower }
      else band
    let band :=
      if band.maxPower < c.chanMaxpower then { band with maxPower := c.chanMaxpower } else band
    { band with channelNum := band.channelNum + 1 }
  else band

/-- A turn of the second loop. -/
def band5gTurn (write : CountryWrite) (c : WifiChannel) : CountryWrite :=
  if c.is5ghz && c.chanBw == .width20 then
    if !c.isDfs then
      (((write.put (byte c.chanPriNum)).put 1).put (byte c.chanMaxpower)).grow 3
    else write
  else write

def wifiMacBuildCountryIe2gAnd5g (table : ChannelTable) (ie : IeCountry) : CountryWrite :=
  let band := table.entries.foldl band2gTurn ⟨0, 0, 0⟩
  let write : CountryWrite := ⟨ie, 0⟩
  let write :=
    if band.channelNum ≠ 0 then
      (((write.put (byte band.firstChannel)).put (byte band.channelNum)).put
        (byte band.maxPower)).grow 4
    else write
  table.entries.foldl band5gTurn write

/-- The element before its triplets, where `behind` lies behind the struct. -/
def countryStart (iso : UInt8 × UInt8) (behind : Nat → UInt8) : IeCountry where
  countryId := 7
  countryLen := 0 + 3
  countryStr := [iso.1, iso.2, 0x20]
  countryTriplet := fun place => if place < tripletSize then 0 else behind place

def wifiMacBuildCountryIe (iso : UInt8 × UInt8) (behind : Nat → UInt8) (table : ChannelTable) :
    CountryWrite :=
  wifiMacBuildCountryIe2gAnd5g table (countryStart iso behind)

/-- The bytes from the start of the struct on. -/
def IeCountry.bytes (ie : IeCountry) (count : Nat) : List UInt8 :=
  ([ie.countryId, ie.countryLen] ++ ie.countryStr ++
    (List.range (count - 5)).map ie.countryTriplet).take count

def wifiMacAddCountry (frm : List UInt8) (ie : IeCountry) : List UInt8 :=
  frm ++ ie.bytes (ie.countryLen.toNat + 2)

/-- What a receiver reads of the triplets: the channels of each, and no incomplete one. -/
def expandTriplets : List UInt8 → List Nat
  | first :: count :: _ :: rest => List.range' first.toNat count.toNat ++ expandTriplets rest
  | _ => []

/-- The triplets, with the pad, as far as the length byte says. -/
def IeCountry.body (ie : IeCountry) : List UInt8 :=
  (List.range (ie.countryLen.toNat - 3)).map ie.countryTriplet

def WifiChannel.plain2g (c : WifiChannel) : Bool := c.is2ghz && c.chanBw == .width20

/-- A 20 MHz channel of 5 GHz that is not for DFS. -/
def WifiChannel.plain5g (c : WifiChannel) : Bool :=
  (c.is5ghz && c.chanBw == .width20) && !c.isDfs

def numbers2g (entries : List WifiChannel) : List Nat :=
  (entries.filter WifiChannel.plain2g).map WifiChannel.chanPriNum

/-- The 20 MHz channels of 5 GHz that are not for DFS. -/
def open5g (entries : List WifiChannel) : List WifiChannel := entries.filter WifiChannel.plain5g

/-- The ordered table is a sorted permutation of the table, the element fits the struct, its length
is that of what was written and of one pad byte at most, its triplets are the channels, and
`wifi_mac_add_country` copies it. -/
structure CountryRight (iso : UInt8 × UInt8) (table : ChannelTable) (write : CountryWrite) :
    Prop where
  sorted : table.order.entries.Pairwise fun first second => first.chanPriNum ≤ second.chanPriNum
  perm : table.order.entries.Perm table.entries
  fits : write.tripletIndex ≤ tripletSize ∧ write.ie.countryLen.toNat + 2 ≤ 5 + tripletSize
  length : ∃ pad ≤ 1, write.ie.countryLen.toNat = 3 + write.tripletIndex + pad
  expanded : expandTriplets write.ie.body =
    numbers2g table.order.entries ++ (open5g table.order.entries).map WifiChannel.chanPriNum
  copied : ∀ frm, wifiMacAddCountry frm write.ie =
    frm ++ ([7, write.ie.countryLen, iso.1, iso.2, 0x20] ++ write.ie.body)

/-- The numbers at 2.4 GHz are consecutive, without a hole and without a repetition. -/
def Gapless (table : ChannelTable) : Prop :=
  ∃ first, (numbers2g table.entries).Perm
    (List.range' first (numbers2g table.entries).length)

/-- The bytes of all triplets, with the pad. -/
def bodySize (table : ChannelTable) : Nat :=
  (if numbers2g table.entries = [] then 0 else 4) + 3 * (open5g table.entries).length

section Band

variable {entries : List WifiChannel} {band : Band2g} {c : WifiChannel}

private theorem band2gTurn_chosen (chosen : c.plain2g = true) :
    (band2gTurn band c).channelNum = band.channelNum + 1 ∧
      (band2gTurn band c).firstChannel =
        if band.firstChannel = 0 then (c.chanPriNum : Int) else band.firstChannel := by
  rw [WifiChannel.plain2g] at chosen
  rw [band2gTurn, if_pos chosen]
  by_cases unset : band.firstChannel = 0
  · simp only [if_pos unset]
    split <;> exact ⟨rfl, rfl⟩
  · simp only [if_neg unset]
    split <;> exact ⟨rfl, rfl⟩

/-- The first loop counts the channels and keeps the first number. -/
theorem band2g_fold (positive : ∀ c ∈ entries, 0 < c.chanPriNum) :
    (entries.foldl band2gTurn band).channelNum = band.channelNum + (numbers2g entries).length ∧
      (entries.foldl band2gTurn band).firstChannel =
        if band.firstChannel = 0 then ((numbers2g entries).headD 0 : Int)
        else band.firstChannel := by
  induction entries generalizing band with
  | nil => simp [numbers2g]
  | cons c entries induction =>
    have later := @induction (band2gTurn band c) fun other listed => positive other (.tail _ listed)
    rw [List.foldl_cons, later.1, later.2]
    by_cases chosen : c.plain2g = true
    · have nonzero : (c.chanPriNum : Int) ≠ 0 := by
        have positive := positive c (.head _)
        omega
      have numbers : numbers2g (c :: entries) = c.chanPriNum :: numbers2g entries := by
        rw [numbers2g, List.filter_cons_of_pos chosen, List.map_cons, numbers2g]
      obtain ⟨counted, first⟩ := @band2gTurn_chosen band c chosen
      rw [counted, first, numbers, List.length_cons, List.headD_cons]
      constructor
      · omega
      · by_cases unset : band.firstChannel = 0
        · simp only [if_pos unset, if_neg nonzero]
        · simp only [if_neg unset]
    · have numbers : numbers2g (c :: entries) = numbers2g entries := by
        rw [numbers2g, List.filter_cons_of_neg chosen, numbers2g]
      have same : band2gTurn band c = band := if_neg chosen
      rw [numbers, same]
      exact ⟨rfl, rfl⟩

end Band

section Write

variable {start : IeCountry} {write : CountryWrite} {bytes : List UInt8} {length : Nat}

/-- So many bytes were written to the triplets, and the length byte was counted up to `length`. -/
structure Wrote (start : IeCountry) (write : CountryWrite) (bytes : List UInt8) (length : Nat) :
    Prop where
  index : write.tripletIndex = bytes.length
  placed : (List.range bytes.length).map write.ie.countryTriplet = bytes
  id : write.ie.countryId = start.countryId
  str : write.ie.countryStr = start.countryStr
  len : write.ie.countryLen = UInt8.ofNat length

theorem Wrote.put (wrote : Wrote start write bytes length) (value : UInt8) :
    Wrote start (write.put value) (bytes ++ [value]) length where
  index := by
    rw [List.length_append]
    exact congrArg (· + 1) wrote.index
  placed := by
    have kept : (List.range bytes.length).map (write.put value).ie.countryTriplet = bytes := by
      refine Eq.trans (List.map_congr_left fun place listed => ?_) wrote.placed
      refine Function.update_of_ne ?_ _ _
      rw [wrote.index]
      exact Nat.ne_of_lt (List.mem_range.mp listed)
    have new : (write.put value).ie.countryTriplet bytes.length = value := by
      rw [← wrote.index]
      exact Function.update_self _ _ _
    rw [List.length_append, List.length_singleton, List.range_succ, List.map_append, kept,
      List.map_singleton, new]
  id := wrote.id
  str := wrote.str
  len := wrote.len

theorem Wrote.grow (wrote : Wrote start write bytes length) (count : Nat) :
    Wrote start (write.grow (UInt8.ofNat count)) bytes (length + count) where
  index := wrote.index
  placed := wrote.placed
  id := wrote.id
  str := wrote.str
  len := by
    rw [UInt8.ofNat_add, ← wrote.len]
    rfl

def triplet5g (c : WifiChannel) : List UInt8 := [byte c.chanPriNum, 1, byte c.chanMaxpower]

/-- The second loop writes one triplet for each channel. -/
theorem Wrote.fold5g (entries : List WifiChannel) (wrote : Wrote start write bytes length) :
    Wrote start (entries.foldl band5gTurn write) (bytes ++ (open5g entries).flatMap triplet5g)
      (length + 3 * (open5g entries).length) := by
  induction entries generalizing write bytes length with
  | nil => simpa [open5g] using wrote
  | cons c entries induction =>
    rw [List.foldl_cons]
    by_cases chosen : c.plain5g = true
    · have channels : open5g (c :: entries) = c :: open5g entries := by
        rw [open5g, List.filter_cons_of_pos chosen, open5g]
      have turn : band5gTurn write c =
          (((write.put (byte c.chanPriNum)).put 1).put (byte c.chanMaxpower)).grow 3 := by
        obtain ⟨band, clear⟩ := Bool.and_eq_true_iff.mp chosen
        rw [band5gTurn, if_pos band, if_pos clear]
      have one := (((wrote.put (byte c.chanPriNum)).put 1).put (byte c.chanMaxpower)).grow 3
      have rest := induction one
      rw [channels, turn]
      simpa [triplet5g, Nat.mul_add, Nat.add_assoc, Nat.add_comm 3] using rest
    · have channels : open5g (c :: entries) = open5g entries := by
        rw [open5g, List.filter_cons_of_neg chosen, open5g]
      have turn : band5gTurn write c = write := by
        unfold band5gTurn
        split
        · rename_i band
          rw [if_neg]
          intro clear
          exact chosen (Bool.and_eq_true_iff.mpr ⟨band, clear⟩)
        · rfl
      rw [channels, turn]
      exact induction wrote

def triplet2g (entries : List WifiChannel) (power : UInt8) : List UInt8 :=
  match numbers2g entries with
  | [] => []
  | first :: rest => [byte first, byte (rest.length + 1 : Nat), power]

/-- The pad byte that is counted behind the triplet of 2.4 GHz. -/
def padSize (entries : List WifiChannel) : Nat := if numbers2g entries = [] then 0 else 1

variable {iso : UInt8 × UInt8} {behind : Nat → UInt8} {table : ChannelTable}

theorem ChannelTable.entry_numbered {c : WifiChannel} (listed : c ∈ table.entries) :
    0 < c.chanPriNum ∧ c.chanPriNum < 256 := by
  obtain ⟨index, used, rfl⟩ := List.mem_map.mp listed
  exact table.numbered index (List.mem_range.mp used)

/-- What is written, and what the length byte counts. -/
theorem built (iso : UInt8 × UInt8) (behind : Nat → UInt8) (table : ChannelTable) :
    ∃ power, Wrote (countryStart iso behind) (wifiMacBuildCountryIe iso behind table)
      (triplet2g table.entries power ++ (open5g table.entries).flatMap triplet5g)
      (3 + (triplet2g table.entries power).length + padSize table.entries +
        3 * (open5g table.entries).length) := by
  have positive : ∀ c ∈ table.entries, 0 < c.chanPriNum :=
    fun c listed => (ChannelTable.entry_numbered listed).1
  have empty : Wrote (countryStart iso behind) ⟨countryStart iso behind, 0⟩ [] 3 :=
    ⟨rfl, rfl, rfl, rfl, rfl⟩
  obtain ⟨counted, first⟩ := @band2g_fold table.entries ⟨0, 0, 0⟩ positive
  rw [if_pos rfl] at first
  rw [Int.zero_add] at counted
  refine ⟨byte (table.entries.foldl band2gTurn ⟨0, 0, 0⟩).maxPower, ?_⟩
  unfold wifiMacBuildCountryIe wifiMacBuildCountryIe2gAnd5g triplet2g padSize
  simp only [counted, first]
  cases numbers : numbers2g table.entries with
  | nil => exact empty.fold5g table.entries
  | cons lowest rest =>
    rw [if_pos (by simp; omega), if_neg (List.cons_ne_nil _ _)]
    have head := (((empty.put (byte lowest)).put (byte (rest.length + 1 : Nat))).put
      (byte (table.entries.foldl band2gTurn ⟨0, 0, 0⟩).maxPower)).grow 4
    exact head.fold5g table.entries

end Write

section Expand

variable {start : IeCountry} {write : CountryWrite} {bytes : List UInt8} {pad : Nat}
  {entries : List WifiChannel} {table : ChannelTable}

/-- As long as the length byte does not overflow, what it covers is what was written and the pad. -/
theorem Wrote.body (wrote : Wrote start write bytes (3 + bytes.length + pad))
    (small : 3 + bytes.length + pad < 256) :
    write.ie.countryLen.toNat = 3 + bytes.length + pad ∧
      ∃ tail, tail.length = pad ∧ write.ie.body = bytes ++ tail := by
  have len : write.ie.countryLen.toNat = 3 + bytes.length + pad := by
    rw [wrote.len, UInt8.toNat_ofNat']
    exact Nat.mod_eq_of_lt small
  have rest : 3 + bytes.length + pad - 3 = bytes.length + pad := by omega
  refine ⟨len, (List.range pad).map fun place => write.ie.countryTriplet (bytes.length + place),
    by simp, ?_⟩
  rw [IeCountry.body, len, rest, List.range_add, List.map_append, wrote.placed, List.map_map]
  rfl

theorem byte_toNat (value : Nat) : (byte value).toNat = value % 256 := by
  have nonneg : ((value : Int) % 256).toNat = value % 256 := by omega
  rw [byte, nonneg, UInt8.toNat_ofNat', Nat.mod_mod]

private theorem expand_short {tail : List UInt8} (short : tail.length ≤ 1) :
    expandTriplets tail = [] := by
  match tail with
  | [] => rfl
  | [_] => rfl

/-- Each triplet of a channel of 5 GHz is that channel. -/
theorem expand_triplets5g {tail : List UInt8} (short : tail.length ≤ 1)
    (small : ∀ c ∈ entries, c.chanPriNum < 256) :
    expandTriplets (entries.flatMap triplet5g ++ tail) =
      entries.map WifiChannel.chanPriNum := by
  induction entries with
  | nil => exact expand_short short
  | cons c entries induction =>
    have rest := induction fun other listed => small other (.tail _ listed)
    have number := Nat.mod_eq_of_lt (small c (.head _))
    show List.range' (byte c.chanPriNum).toNat 1 ++
      expandTriplets (entries.flatMap triplet5g ++ tail) = _
    rw [byte_toNat, number, rest]
    rfl

/-- What the triplet of 2.4 GHz stands for. -/
def filled2g (entries : List WifiChannel) : List Nat :=
  List.range' ((numbers2g entries).headD 0) ((numbers2g entries).length % 256)

theorem expand_built {tail : List UInt8} (power : UInt8) (short : tail.length ≤ 1)
    (small : ∀ c ∈ entries, c.chanPriNum < 256) :
    expandTriplets ((triplet2g entries power ++ (open5g entries).flatMap triplet5g) ++ tail) =
      filled2g entries ++ (open5g entries).map WifiChannel.chanPriNum := by
  have rest : expandTriplets ((open5g entries).flatMap triplet5g ++ tail) =
      (open5g entries).map WifiChannel.chanPriNum :=
    expand_triplets5g short fun c listed => small c (List.mem_filter.mp listed).1
  rw [List.append_assoc]
  unfold triplet2g filled2g
  cases numbers : numbers2g entries with
  | nil => exact rest
  | cons lowest others =>
    have lowestSmall : lowest < 256 := by
      have member : lowest ∈ numbers2g entries := numbers ▸ List.mem_cons_self
      obtain ⟨c, listed, rfl⟩ := List.mem_map.mp member
      exact small c (List.mem_filter.mp listed).1
    show List.range' (byte lowest).toNat (byte (others.length + 1 : Nat)).toNat ++
      expandTriplets ((open5g entries).flatMap triplet5g ++ tail) = _
    rw [byte_toNat, byte_toNat, Nat.mod_eq_of_lt lowestSmall, rest]
    rfl

/-- Sorted numbers are those that the triplet stands for exactly when they are consecutive. -/
theorem filled2g_iff
    (sorted : entries.Pairwise fun first second => first.chanPriNum ≤ second.chanPriNum)
    (positive : ∀ c ∈ entries, 0 < c.chanPriNum) (small : ∀ c ∈ entries, c.chanPriNum < 256) :
    filled2g entries = numbers2g entries ↔
      ∃ first, (numbers2g entries).Perm (List.range' first (numbers2g entries).length) := by
  constructor
  · intro filled
    have count : (numbers2g entries).length % 256 = (numbers2g entries).length := by
      simpa [filled2g] using congrArg List.length filled
    rw [filled2g, count] at filled
    exact ⟨_, .of_eq filled.symm⟩
  · rintro ⟨first, perm⟩
    have ascending : (numbers2g entries).Pairwise (· ≤ ·) := by
      rw [numbers2g, List.pairwise_map]
      exact sorted.sublist List.filter_sublist
    have consecutive : numbers2g entries = List.range' first (numbers2g entries).length :=
      perm.eq_of_pairwise (fun _ _ _ _ => Nat.le_antisymm) ascending List.pairwise_le_range'
    have numbered : ∀ number ∈ numbers2g entries, 0 < number ∧ number < 256 := by
      intro number listed
      obtain ⟨c, chosen, rfl⟩ := List.mem_map.mp listed
      have listed := (List.mem_filter.mp chosen).1
      exact ⟨positive c listed, small c listed⟩
    cases count : (numbers2g entries).length with
    | zero =>
      rw [List.length_eq_zero_iff.mp count, filled2g, count]
      rfl
    | succ more =>
      rw [count] at consecutive
      have low := numbered first (by rw [consecutive]; simp)
      have high := numbered (first + more) (by rw [consecutive]; simp)
      have head : (numbers2g entries).headD 0 = first := by rw [consecutive]; rfl
      rw [filled2g, count, head, Nat.mod_eq_of_lt (by omega)]
      exact consecutive.symm

end Expand

section Element

variable {iso : UInt8 × UInt8} {behind : Nat → UInt8} {table : ChannelTable}
  {write : CountryWrite} {bytes : List UInt8} {length : Nat}

/-- `wifi_mac_add_country` copies the whole of an element. -/
theorem Wrote.copied (wrote : Wrote (countryStart iso behind) write bytes length)
    (whole : 3 ≤ write.ie.countryLen.toNat) (frm : List UInt8) :
    wifiMacAddCountry frm write.ie =
      frm ++ ([7, write.ie.countryLen, iso.1, iso.2, 0x20] ++ write.ie.body) := by
  have rest : write.ie.countryLen.toNat + 2 - 5 = write.ie.countryLen.toNat - 3 := by omega
  rw [wifiMacAddCountry, IeCountry.bytes, IeCountry.body, wrote.id, wrote.str, rest,
    List.take_of_length_le]
  · rfl
  · simp [countryStart]
    omega

theorem ChannelTable.order_perm (table : ChannelTable) :
    table.order.entries.Perm table.entries :=
  table.ordered_shuffled.1.perm

theorem ChannelTable.order_sorted (table : ChannelTable) :
    table.order.entries.Pairwise fun first second => first.chanPriNum ≤ second.chanPriNum := by
  have sorted := table.ordered_shuffled.2.pairwise
  rw [List.pairwise_map] at sorted
  rw [entries, List.pairwise_map]
  exact sorted

theorem gapless_order (table : ChannelTable) :
    Gapless table ↔ filled2g table.order.entries = numbers2g table.order.entries := by
  have same : (numbers2g table.order.entries).Perm (numbers2g table.entries) :=
    (table.order_perm.filter _).map _
  have filled := filled2g_iff table.order_sorted
    (fun c listed => (ChannelTable.entry_numbered listed).1)
    (fun c listed => (ChannelTable.entry_numbered listed).2)
  rw [filled, Gapless, same.length_eq]
  exact exists_congr fun first => ⟨same.trans, same.symm.trans⟩

theorem length_triplets5g (entries : List WifiChannel) :
    (entries.flatMap triplet5g).length = 3 * entries.length := by
  induction entries with
  | nil => rfl
  | cons c entries induction =>
    rw [List.flatMap_cons, List.length_append, induction, List.length_cons]
    simp [triplet5g]
    omega

private theorem bodySize_order (table : ChannelTable) (power : UInt8) :
    (triplet2g table.order.entries power ++
        (open5g table.order.entries).flatMap triplet5g).length +
      padSize table.order.entries = bodySize table := by
  have same : (numbers2g table.order.entries).Perm (numbers2g table.entries) :=
    (table.order_perm.filter _).map _
  have count : (open5g table.order.entries).length = (open5g table.entries).length :=
    (table.order_perm.filter _).length_eq
  rw [List.length_append, length_triplets5g, count, bodySize, triplet2g, padSize]
  cases numbers : numbers2g table.order.entries with
  | nil =>
    rw [numbers] at same
    rw [if_pos rfl, if_pos same.symm.eq_nil]
    simp
  | cons lowest rest =>
    have some : numbers2g table.entries ≠ [] := by
      intro none
      rw [none, numbers] at same
      cases same.eq_nil
    rw [if_neg (List.cons_ne_nil _ _), if_neg some]
    simp only [List.length_cons, List.length_nil]
    omega

theorem padSize_le (entries : List WifiChannel) : padSize entries ≤ 1 := by
  unfold padSize
  split <;> omega

/-- What is written, and, as long as the length byte does not overflow, what it covers. -/
theorem built_order (iso : UInt8 × UInt8) (behind : Nat → UInt8) (table : ChannelTable) :
    (wifiMacBuildCountryIe iso behind table.order).tripletIndex +
        padSize table.order.entries = bodySize table ∧
      (bodySize table ≤ tripletSize + 1 →
        (wifiMacBuildCountryIe iso behind table.order).ie.countryLen.toNat =
            3 + bodySize table ∧
          expandTriplets (wifiMacBuildCountryIe iso behind table.order).ie.body =
            filled2g table.order.entries ++
              (open5g table.order.entries).map WifiChannel.chanPriNum) := by
  obtain ⟨power, wrote⟩ := built iso behind table.order
  have size := bodySize_order table power
  have counted : 3 + (triplet2g table.order.entries power).length +
      padSize table.order.entries + 3 * (open5g table.order.entries).length =
        3 + (triplet2g table.order.entries power ++
          (open5g table.order.entries).flatMap triplet5g).length +
            padSize table.order.entries := by
    rw [List.length_append, length_triplets5g]
    omega
  rw [counted] at wrote
  refine ⟨wrote.index ▸ size, fun small => ?_⟩
  simp only [tripletSize] at small
  obtain ⟨len, tail, short, body⟩ := wrote.body (by omega)
  refine ⟨by omega, ?_⟩
  rw [body]
  refine expand_built power (short ▸ padSize_le _) fun c listed => ?_
  exact (ChannelTable.entry_numbered listed).2

theorem CountryRight.holds_when
    (right : CountryRight iso table (wifiMacBuildCountryIe iso behind table.order)) :
    Gapless table ∧ bodySize table ≤ tripletSize := by
  obtain ⟨written, covered⟩ := built_order iso behind table
  have pad := padSize_le table.order.entries
  have index := right.fits.1
  obtain ⟨len, expanded⟩ := covered (by omega)
  constructor
  · rw [gapless_order]
    exact List.append_cancel_right (expanded.symm.trans right.expanded)
  · have whole := right.fits.2
    omega

private theorem countryRight_of (gapless : Gapless table) (fits : bodySize table ≤ tripletSize) :
    CountryRight iso table (wifiMacBuildCountryIe iso behind table.order) := by
  obtain ⟨power, wrote⟩ := built iso behind table.order
  obtain ⟨written, covered⟩ := built_order iso behind table
  obtain ⟨len, expanded⟩ := covered (by omega)
  refine ⟨table.order_sorted, table.order_perm, by omega, ?_, ?_, ?_⟩
  · exact ⟨padSize table.order.entries, padSize_le _, by omega⟩
  · rw [expanded, (gapless_order table).mp gapless]
  · exact wrote.copied (by omega)

/-- A pad of one byte behind the triplet of 2.4 GHz makes the length even only if the number of the
other triplets is odd. -/
theorem bodySize_odd (table : ChannelTable) :
    (3 + bodySize table) % 2 = 0 ↔ (open5g table.entries).length % 2 = 1 := by
  unfold bodySize
  split <;> omega

theorem country_right_iff (iso : UInt8 × UInt8) (behind : Nat → UInt8) (table : ChannelTable) :
    (CountryRight iso table (wifiMacBuildCountryIe iso behind table.order) ↔
      Gapless table ∧ bodySize table ≤ tripletSize) ∧
    (CountryRight iso table (wifiMacBuildCountryIe iso behind table.order) ∧
        (wifiMacBuildCountryIe iso behind table.order).ie.countryLen.toNat % 2 = 0 ↔
      Gapless table ∧ bodySize table ≤ tripletSize ∧ (open5g table.entries).length % 2 = 1) := by
  have right : CountryRight iso table (wifiMacBuildCountryIe iso behind table.order) ↔
      Gapless table ∧ bodySize table ≤ tripletSize :=
    ⟨CountryRight.holds_when, fun ⟨gapless, fits⟩ => countryRight_of gapless fits⟩
  refine ⟨right, ?_⟩
  rw [right, and_assoc]
  refine and_congr_right fun _ => and_congr_right fun fits => ?_
  have len := ((built_order iso behind table).2 (by omega)).1
  rw [len, bodySize_odd]

/-- The 20 MHz channels that are open in Japan: 1 to 14, and 36, 40, 44 and 48. -/
def japanTable : ChannelTable where
  wmChannels := fun index =>
    if index < 13 then ⟨2412 + 5 * index, 0x4000, 1 + index, 20, 0, .width20, 81⟩
    else if index = 13 then ⟨2484, 0x4000, 14, 20, 0, .width20, 82⟩
    else ⟨5180 + 20 * (index - 14), 0x8000, 36 + 4 * (index - 14), 20, 0, .width20, 115⟩
  wmNchans := 18
  numbered := by decide

example : 3 + bodySize japanTable = 19 := by decide

/-- The channels 1, 6 and 11 of 2.4 GHz. -/
def spreadTable : ChannelTable where
  wmChannels := fun index => ⟨2412 + 25 * index, 0x4000, 1 + 5 * index, 20, 0, .width20, 81⟩
  wmNchans := 3
  numbered := by decide

/-- The element says that there are the channels 1, 2 and 3. -/
theorem spread_channels_filled :
    ¬ CountryRight (0x44, 0x45) spreadTable
      (wifiMacBuildCountryIe (0x44, 0x45) (fun _ => 0) spreadTable.order) := by
  intro right
  obtain ⟨first, perm⟩ := right.holds_when.1
  rw [show numbers2g spreadTable.entries = [1, 6, 11] by decide] at perm
  have low := List.mem_range'_1.mp (perm.subset (a := 1) (by simp))
  have high := List.mem_range'_1.mp (perm.subset (a := 11) (by simp))
  simp only [List.length_cons, List.length_nil] at low high
  omega

end Element

end W522a.Country
