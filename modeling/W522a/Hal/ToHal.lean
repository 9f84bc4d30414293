import W522a.Hal.TxId
import W522a.Tx.Desc

/-!
A list of frames on its way to a transmit fifo. The frames are put in the fifo one by one; whether
their count is the one that the first of them names is looked at when the last one is reached.

The submission of a list is atomic when the first descriptor names the length of the list and every
frame has a place in the fifo.
-/

namespace W522a.Hal

open Tx (halCalcMpduPage)

@[simp] abbrev queueManage : Nat := 9

@[simp] abbrev queueNoQos : Nat := 8

/-- `struct wifi_mac_tx_info`, what decides and what the fifo keeps. -/
structure TxInfo where
  wnetVifId : Nat
  tidIndex : Nat
  queueId : Nat
  mpdulen : Nat
  bMgmt : Bool
  bQosdata : Bool
  bPsPoll : Bool
  bUapsd : Bool
  bAmpdu : Bool
  deriving DecidableEq, Repr

/-- `struct aml_driver_nsta`: its station, and whether that has an interface. -/
structure AmlDriverNsta where
  netNsta : Option Bool
  deriving DecidableEq, Repr

/-- `struct drv_txdesc`, known by its address; of the frame at `txdesc_ddraddr` there is the first
byte. -/
structure DrvTxdesc where
  address : Nat
  txinfo : Option TxInfo
  txdescSta : Option AmlDriverNsta
  txdescMpdu : Option Nat
  txdescPktnum : Int
  txdescAggrPageNum : Nat
  txdescDdraddr : Option UInt8
  txdescInHw : Bool
  deriving DecidableEq, Repr

/-- What a fill changes of `hal_private`: the fifos, the first frame of the last aggregate of each
queue, and `Tx_Send_num`. -/
structure HalQueues where
  txdsTristaFifo : Nat → SharedFifo FwTxdescFifo
  hiTxAgg : Nat → Option FwTxdescFifo
  txSendNum : Nat

/-- `struct drv_txlist` with the fifos behind it, and the caller's list. -/
structure Submission where
  hal : HalQueues
  txlistQnum : Nat
  txlistQcnt : Int
  txlistQ : List DrvTxdesc
  head : List DrvTxdesc

/-- The pointers that `drv_to_hal` checks: those to its structures, `hal_get_priv_cnt`, and the two
operations that fill. -/
structure ToHalEnv where
  attached : Bool
  halGetPrivCnt : Bool
  halFills : Bool
  deriving DecidableEq, Repr

def wifinetQosHasSeq (fc0 : UInt8) : Bool := fc0 &&& 0x8c == 0x88

def amlConvertTid (info : TxInfo) : Nat :=
  if info.bMgmt || info.bPsPoll || info.bUapsd then queueManage
  else if info.bQosdata then info.tidIndex
  else queueNoQos

def HalQueues.filled (hal : HalQueues) (queue : Nat) (fifo : SharedFifo FwTxdescFifo) : HalQueues :=
  { hal with
    txdsTristaFifo := Function.update hal.txdsTristaFifo queue fifo
    txSendNum := hal.txSendNum + 1 }

def halGetPrivCnt (hal : HalQueues) (queueId : Nat) : Nat :=
  coSharedFifoNbElt (hal.txdsTristaFifo queueId) .get

def amlTxHalBufferFull (env : ToHalEnv) (hal : HalQueues) (queueId : Nat) (txprivneed : Int) :
    Bool :=
  if !env.halGetPrivCnt || halNumTxQueues ≤ queueId then true
  else
    let txprivQspace := halGetPrivCnt hal queueId
    let txprivQspace := if 2 ≤ txprivQspace then txprivQspace - 1 else 0
    decide ((txprivQspace : Int) < txprivneed)

/-- `hal_fill_agg_start`: nothing without a buffer or a free element. -/
def halFillAggStart (queue : Nat) (skb : Option Nat) (elt : FwTxdescFifo) (hal : HalQueues) :
    HalQueues :=
  match skb with
  | none => hal
  | some _ =>
    match coSharedFifoGet (hal.txdsTristaFifo queue) .get 1 with
    | (none, _) => hal
    | (some ptr, fifo) =>
      { hal.filled queue (coSharedFifoPut (fifo.write ptr elt) .get 1) with
        hiTxAgg := Function.update hal.hiTxAgg queue (some elt) }

/-- `hal_fill_priv`: the descriptor of the first frame is copied. -/
def halFillPriv (queue : Nat) (skb : Option Nat) (callback mpdulen : Nat) (hal : HalQueues) :
    HalQueues :=
  match skb, hal.hiTxAgg queue with
  | some _, some first =>
    match coSharedFifoGet (hal.txdsTristaFifo queue) .get 1 with
    | (none, _) => hal
    | (some ptr, fifo) =>
      let elt := { first with callback := callback, pageNum := halCalcMpduPage mpdulen % 256 }
      hal.filled queue (coSharedFifoPut (fifo.write ptr elt) .get 1)
  | _, _ => hal

/-- `agg_content.MpduNum`, which has 16 bits. -/
def mpduNum (first : DrvTxdesc) : Int := first.txdescPktnum % 2 ^ 16

/-- The element of the first frame: `aml_prepare_agg_tx_priv_param` and `hal_tx_desc_build`. -/
def firstElt (first : DrvTxdesc) (info : TxInfo) : FwTxdescFifo where
  callback := first.address
  txqueueid := info.queueId
  vid := info.wnetVifId
  hostcallbackid := 0
  aggrNum := (mpduNum first).toNat % 256
  aggrPageNum := first.txdescAggrPageNum % 256
  pageNum := halCalcMpduPage info.mpdulen % 256
  tid := amlConvertTid info

/-- The loop of `drv_to_hal` behind the first frame: what it returns with the fifos, and nothing for
a descriptor without a `txinfo`, which it reads through all the same. -/
def fillRest (mpduNum : Int) (queue : Nat) :
    Nat → List DrvTxdesc → HalQueues → Option (Int × HalQueues)
  | _, [], hal => some (0, hal)
  | mpdunum, ptxdesc :: rest, hal =>
    match ptxdesc.txinfo with
    | none => none
    | some info =>
      if rest.isEmpty && decide ((mpdunum : Int) + 1 ≠ mpduNum) then some (-1, hal)
      else
        fillRest mpduNum queue (mpdunum + 1) rest
          (halFillPriv queue ptxdesc.txdescMpdu ptxdesc.address info.mpdulen hal)

/-- The checks of `drv_to_hal` before it fills: the first descriptor and its `txinfo` when they all
pass. -/
def checkHead (env : ToHalEnv) (state : Submission) : Option (DrvTxdesc × TxInfo) :=
  match state.head with
  | [] => none
  | first :: _ =>
    match first.txinfo, first.txdescSta, first.txdescMpdu with
    | some info, some nsta, some _ =>
      if !env.attached || nsta.netNsta != some true then none
      else if state.txlistQnum ≠ info.queueId then none
      else if amlTxHalBufferFull env state.hal state.txlistQnum first.txdescPktnum then none
      else if info.bAmpdu && !first.txdescDdraddr.any wifinetQosHasSeq then none
      else if !env.halFills then none
      else some (first, info)
    | _, _, _ => none

/-- The frames behind the first are put in the fifo, and the list goes over to the queue's. -/
def submitRest (state : Submission) (first : DrvTxdesc) (info : TxInfo) :
    Option (Int × Submission) :=
  let hal := halFillAggStart info.queueId first.txdescMpdu (firstElt first info) state.hal
  match fillRest (mpduNum first) info.queueId 1 state.head.tail hal with
  | none => none
  | some (ret, hal) =>
    if ret < 0 then some (ret, { state with hal := hal })
    else
      some (ret,
        { state with
          hal := hal
          txlistQcnt := state.txlistQcnt + first.txdescPktnum
          txlistQ := state.txlistQ ++
            state.head.map fun ptxdesc => { ptxdesc with txdescInHw := true }
          head := [] })

/-- `drv_to_hal`: what it returns and leaves behind, or nothing when it reads through a pointer that
is not set. -/
def drvToHal (env : ToHalEnv) (state : Submission) : Option (Int × Submission) :=
  match checkHead env state with
  | none => some (-1, state)
  | some (first, info) => submitRest state first info

section Fill

variable {hal : HalQueues} {queue start free : Nat} {set gap made : List FwTxdescFifo}

/-- The fifo of a queue with what it holds, and how many of its elements are free. -/
structure Room (hal : HalQueues) (queue start : Nat) (set gap made : List FwTxdescFifo)
    (free : Nat) : Prop where
  staged : (hal.txdsTristaFifo queue).Staged start set gap made
  free : coSharedFifoNbEltCont (hal.txdsTristaFifo queue) .get = free

/-- A free element is filled behind those made. -/
theorem Room.fill (room : Room hal queue start set gap made (free + 1)) :
    ∃ ptr fifo, coSharedFifoGet (hal.txdsTristaFifo queue) .get 1 = (some ptr, fifo) ∧
      ∀ elt agg, Room { hal.filled queue (coSharedFifoPut (fifo.write ptr elt) .get 1) with
        hiTxAgg := agg } queue start set gap (made ++ [elt]) free := by
  have count := room.staged.getCount
  have counted := room.free
  have below : set.length + gap.length + made.length + 1 < (hal.txdsTristaFifo queue).eltNbr := by
    omega
  have taken := SharedFifo.Staged.get_eq (Nat.lt_of_lt_of_eq (Nat.succ_pos free) counted.symm)
  refine ⟨_, _, taken, fun elt agg => ?_⟩
  have staged := room.staged.pass_get below elt
  constructor
  · simpa [HalQueues.filled] using staged
  · have later := staged.getCount
    simp only [HalQueues.filled, Function.update_self]
    rw [later, List.length_append, List.length_singleton]
    simp only [coSharedFifoPut, SharedFifo.setIn_eltNbr, SharedFifo.write_eltNbr,
      SharedFifo.setOut_eltNbr]
    omega

theorem Room.full (room : Room hal queue start set gap made 0) :
    coSharedFifoGet (hal.txdsTristaFifo queue) .get 1 = (none, hal.txdsTristaFifo queue) := by
  rw [coSharedFifoGet, room.free, if_pos Nat.zero_lt_one]

/-- The first frame of a list takes a free element. -/
theorem Room.fillAggStart (room : Room hal queue start set gap made (free + 1)) (skb : Nat)
    (elt : FwTxdescFifo) :
    Room (halFillAggStart queue (some skb) elt hal) queue start set gap (made ++ [elt]) free ∧
      (halFillAggStart queue (some skb) elt hal).hiTxAgg queue = some elt ∧
      (halFillAggStart queue (some skb) elt hal).txSendNum = hal.txSendNum + 1 := by
  obtain ⟨ptr, fifo, taken, later⟩ := room.fill
  rw [halFillAggStart, taken]
  exact ⟨later elt _, Function.update_self _ _ _, rfl⟩

theorem Room.fillAggStart_full (room : Room hal queue start set gap made 0) (skb : Option Nat)
    (elt : FwTxdescFifo) : halFillAggStart queue skb elt hal = hal := by
  cases skb with
  | none => rfl
  | some skb => rw [halFillAggStart, room.full]

private theorem Room.fillPriv (room : Room hal queue start set gap made (free + 1))
    (skb callback mpdulen : Nat) {first : FwTxdescFifo} (known : hal.hiTxAgg queue = some first) :
    ∃ elt, elt.callback = callback ∧
      Room (halFillPriv queue (some skb) callback mpdulen hal) queue start set gap (made ++ [elt])
        free ∧
      (halFillPriv queue (some skb) callback mpdulen hal).hiTxAgg = hal.hiTxAgg ∧
      (halFillPriv queue (some skb) callback mpdulen hal).txSendNum = hal.txSendNum + 1 := by
  obtain ⟨ptr, fifo, taken, later⟩ := room.fill
  simp only [halFillPriv, known, taken]
  exact ⟨_, rfl, later _ hal.hiTxAgg, rfl, rfl⟩

theorem Room.fillPriv_full (room : Room hal queue start set gap made 0) (skb : Option Nat)
    (callback mpdulen : Nat) : halFillPriv queue skb callback mpdulen hal = hal := by
  cases skb with
  | none => rfl
  | some skb =>
    cases known : hal.hiTxAgg queue with
    | none => simp only [halFillPriv, known]
    | some first => simp only [halFillPriv, known, room.full]

end Fill

section Rest

variable {hal : HalQueues} {queue start free : Nat} {set gap made : List FwTxdescFifo}

/-- The frames that find a place among `free` elements: those with a buffer, as long as there is
room. -/
def placed (free : Nat) (frames : List (DrvTxdesc × TxInfo)) : List DrvTxdesc :=
  ((frames.map Prod.fst).filter fun ptxdesc => ptxdesc.txdescMpdu.isSome).take free

/-- The loop of `drv_to_hal` without its check. -/
def fillAll (queue : Nat) (frames : List (DrvTxdesc × TxInfo)) (hal : HalQueues) : HalQueues :=
  frames.foldl (fun hal frame =>
    halFillPriv queue frame.1.txdescMpdu frame.1.address frame.2.mpdulen hal) hal

/-- What a loop over frames leaves: those that found a place are behind the ones made, and each is
counted. -/
structure FillsAll (hal after : HalQueues) (queue start : Nat) (set gap made : List FwTxdescFifo)
    (frames : List DrvTxdesc) : Prop where
  room : ∃ pushed free, Room after queue start set gap (made ++ pushed) free ∧
    pushed.map FwTxdescFifo.callback = frames.map DrvTxdesc.address
  counted : after.txSendNum = hal.txSendNum + frames.length

theorem fillAll_full (room : Room hal queue start set gap made 0)
    (frames : List (DrvTxdesc × TxInfo)) : fillAll queue frames hal = hal := by
  induction frames with
  | nil => rfl
  | cons frame rest fill =>
    rw [fillAll, List.foldl_cons, room.fillPriv_full, ← fillAll, fill]

theorem fillAll_fills (room : Room hal queue start set gap made free) {first : FwTxdescFifo}
    (known : hal.hiTxAgg queue = some first) (frames : List (DrvTxdesc × TxInfo)) :
    FillsAll hal (fillAll queue frames hal) queue start set gap made (placed free frames) := by
  induction frames generalizing hal made free with
  | nil =>
    have nothing : placed free [] = [] := List.take_nil
    rw [nothing]
    exact ⟨⟨[], free, (List.append_nil made).symm ▸ room, rfl⟩, rfl⟩
  | cons frame rest fill =>
    rw [fillAll, List.foldl_cons, ← fillAll]
    cases buffer : frame.1.txdescMpdu with
    | none =>
      have skipped : placed free (frame :: rest) = placed free rest := by
        rw [placed, List.map_cons, List.filter_cons_of_neg (by simp [buffer]), ← placed]
      rw [skipped]
      exact fill room known
    | some skb =>
      cases free with
      | zero =>
        have nothing : placed 0 (frame :: rest) = [] := List.take_zero
        rw [nothing, room.fillPriv_full, fillAll_full room]
        exact ⟨⟨[], 0, (List.append_nil made).symm ▸ room, rfl⟩, rfl⟩
      | succ free =>
        have taken : placed (free + 1) (frame :: rest) = frame.1 :: placed free rest := by
          rw [placed, List.map_cons, List.filter_cons_of_pos (by simp [buffer]),
            List.take_succ_cons, ← placed]
        obtain ⟨elt, named, later, agg, sent⟩ :=
          room.fillPriv skb frame.1.address frame.2.mpdulen known
        obtain ⟨⟨pushed, left, rooms, names⟩, counted⟩ := fill later (agg ▸ known)
        rw [taken]
        refine ⟨⟨elt :: pushed, left, ?_, ?_⟩, ?_⟩
        · rw [List.append_cons]
          exact rooms
        · rw [List.map_cons, List.map_cons, named, names]
        · rw [counted, sent, List.length_cons]
          omega

/-- The frames with what the loop reads through their `txinfo`, when each has one. -/
def informed : List DrvTxdesc → Option (List (DrvTxdesc × TxInfo))
  | [] => some []
  | ptxdesc :: rest =>
    match ptxdesc.txinfo, informed rest with
    | some info, some frames => some ((ptxdesc, info) :: frames)
    | _, _ => none

theorem map_fst_of_informed {frames : List DrvTxdesc} {known : List (DrvTxdesc × TxInfo)}
    (read : informed frames = some known) : known.map Prod.fst = frames := by
  induction frames generalizing known with
  | nil =>
    cases read
    rfl
  | cons ptxdesc rest names =>
    rw [informed] at read
    cases found : ptxdesc.txinfo with
    | none =>
      rw [found] at read
      cases read
    | some info =>
      cases later : informed rest with
      | none =>
        rw [found, later] at read
        cases read
      | some known' =>
        rw [found, later] at read
        cases read
        rw [List.map_cons, names later]

/-- The loop fills what it is given, or all but the last frame when their count is another one. -/
theorem fillRest_eq (mpduNum : Int) (mpdunum : Nat) (rest : List DrvTxdesc) (hal : HalQueues) :
    fillRest mpduNum queue mpdunum rest hal =
      (informed rest).map fun frames =>
        if rest ≠ [] ∧ ((mpdunum + rest.length : Nat) : Int) ≠ mpduNum then
          (-1, fillAll queue frames.dropLast hal)
        else (0, fillAll queue frames hal) := by
  induction rest generalizing mpdunum hal with
  | nil => rfl
  | cons ptxdesc rest fill =>
    rw [fillRest, informed]
    cases ptxdesc.txinfo with
    | none => rfl
    | some info =>
      cases rest with
      | nil =>
        by_cases other : (mpdunum : Int) + 1 ≠ mpduNum
        · simp [informed, fillAll, other]
        · simp [informed, fillAll, fillRest, other]
      | cons next rest =>
        have count : mpdunum + (ptxdesc :: next :: rest).length =
            mpdunum + 1 + (next :: rest).length := by
          simp only [List.length_cons]
          omega
        have goesOn : ((next :: rest).isEmpty && decide ((mpdunum : Int) + 1 ≠ mpduNum)) = false :=
          rfl
        rw [goesOn, count]
        refine (fill _ _).trans ?_
        cases read : informed (next :: rest) with
        | none => rfl
        | some frames =>
          have more : frames ≠ [] := by
            rintro rfl
            cases map_fst_of_informed read
          have init : ((ptxdesc, info) :: frames).dropLast = (ptxdesc, info) :: frames.dropLast :=
            List.dropLast_cons_of_ne_nil more
          simp only [Option.map_some, init, ne_eq, reduceCtorEq, not_false_eq_true, true_and]
          rfl

theorem informed_isSome_iff {frames : List DrvTxdesc} :
    (informed frames).isSome ↔ ∀ ptxdesc ∈ frames, ptxdesc.txinfo ≠ none := by
  induction frames with
  | nil => simp [informed]
  | cons ptxdesc rest read =>
    rw [informed, List.forall_mem_cons, ← read]
    cases ptxdesc.txinfo with
    | none => simp
    | some info =>
      cases informed rest with
      | none => simp
      | some frames => simp

/-- All frames find a place when there are enough and each has a buffer. -/
theorem placed_addresses_iff {frames : List (DrvTxdesc × TxInfo)} {rest : List DrvTxdesc}
    (names : frames.map Prod.fst = rest) :
    (placed free frames).map DrvTxdesc.address = rest.map DrvTxdesc.address ↔
      rest.length ≤ free ∧ ∀ ptxdesc ∈ rest, ptxdesc.txdescMpdu ≠ none := by
  rw [placed, names]
  constructor
  · intro same
    have count : min free (rest.filter fun ptxdesc => ptxdesc.txdescMpdu.isSome).length =
        rest.length := by
      simpa using congrArg List.length same
    have most := List.length_filter_le (fun ptxdesc : DrvTxdesc => ptxdesc.txdescMpdu.isSome) rest
    refine ⟨by omega, fun ptxdesc member => ?_⟩
    have whole : rest.filter (fun ptxdesc => ptxdesc.txdescMpdu.isSome) = rest :=
      List.filter_sublist.eq_of_length (by omega)
    have some := List.filter_eq_self.mp whole ptxdesc member
    exact Option.ne_none_iff_isSome.mpr some
  · rintro ⟨enough, buffers⟩
    have whole : rest.filter (fun ptxdesc => ptxdesc.txdescMpdu.isSome) = rest :=
      List.filter_eq_self.mpr fun ptxdesc member =>
        Option.ne_none_iff_isSome.mp (buffers ptxdesc member)
    rw [whole, List.take_of_length_le enough]

end Rest

def Submission.free (state : Submission) : Nat :=
  coSharedFifoNbEltCont (state.hal.txdsTristaFifo state.txlistQnum) .get

/-- The frames that wait in the fifo, by the addresses of their descriptors. -/
def Submission.waiting (state : Submission) : List Nat :=
  (state.hal.txdsTristaFifo state.txlistQnum).waiting.map FwTxdescFifo.callback

/-- A submission fails without a trace, or puts every frame of the list in the fifo, in order. -/
def Atomic (env : ToHalEnv) (state : Submission) : Prop :=
  ∃ ret after, drvToHal env state = some (ret, after) ∧
    (ret < 0 → after = state) ∧
    (0 ≤ ret → after.head = [] ∧
      after.waiting = state.waiting ++ state.head.map DrvTxdesc.address)

/-- The list is refused by the first checks, or each of its descriptors can be read and the first of
them names the length of the list, for which there is room; or it names another one, and no frame
gets in. -/
def Takes (env : ToHalEnv) (state : Submission) : Prop :=
  ∀ first info, checkHead env state = some (first, info) →
    (∀ ptxdesc ∈ state.head.tail, ptxdesc.txinfo ≠ none) ∧
      if state.head.tail ≠ [] ∧ (state.head.length : Int) ≠ mpduNum first then state.free = 0
      else state.head.length ≤ state.free ∧
        ∀ ptxdesc ∈ state.head.tail, ptxdesc.txdescMpdu ≠ none

section Law

variable {env : ToHalEnv} {state : Submission} {first : DrvTxdesc} {info : TxInfo}

structure Checked (env : ToHalEnv) (state : Submission) (first : DrvTxdesc) (info : TxInfo) :
    Prop where
  head : state.head = first :: state.head.tail
  txinfo : first.txinfo = some info
  buffer : ∃ skb, first.txdescMpdu = some skb
  queue : state.txlistQnum = info.queueId
  room : amlTxHalBufferFull env state.hal state.txlistQnum first.txdescPktnum = false

theorem checked_of_checkHead (passed : checkHead env state = some (first, info)) :
    Checked env state first info := by
  rw [checkHead] at passed
  cases listed : state.head with
  | nil =>
    rw [listed] at passed
    cases passed
  | cons head tail =>
    rw [listed] at passed
    cases known : head.txinfo with
    | none => simp [known] at passed
    | some found =>
      cases station : head.txdescSta with
      | none => simp [known, station] at passed
      | some nsta =>
        cases buffer : head.txdescMpdu with
        | none => simp [known, station, buffer] at passed
        | some skb =>
          simp only [known, station, buffer] at passed
          split_ifs at passed with detached queue full header fills
          cases passed
          exact ⟨by rw [listed, List.tail_cons], known, ⟨skb, buffer⟩, not_not.mp queue,
            by simpa using full⟩

private theorem Room.waiting {hal : HalQueues} {queue start free : Nat}
    {set gap made : List FwTxdescFifo}
    (room : Room hal queue start set gap made free) :
    (hal.txdsTristaFifo queue).waiting = set ++ made := by
  rw [SharedFifo.waiting, room.staged.stage_set, room.staged.stage_make]

variable {start : Nat} {set gap made : List FwTxdescFifo}

/-- What the fills of a checked list leave in the fifos. -/
def filledBy (first : DrvTxdesc) (info : TxInfo) (frames : List (DrvTxdesc × TxInfo))
    (hal : HalQueues) : HalQueues :=
  fillAll info.queueId frames
    (halFillAggStart info.queueId first.txdescMpdu (firstElt first info) hal)

private theorem drvToHal_checked (passed : checkHead env state = some (first, info)) :
    drvToHal env state = (informed state.head.tail).map fun frames =>
      if state.head.tail ≠ [] ∧ (state.head.length : Int) ≠ mpduNum first then
        (-1, { state with hal := filledBy first info frames.dropLast state.hal })
      else
        (0, { state with
          hal := filledBy first info frames state.hal
          txlistQcnt := state.txlistQcnt + first.txdescPktnum
          txlistQ := state.txlistQ ++
            state.head.map fun ptxdesc => { ptxdesc with txdescInHw := true }
          head := [] }) := by
  have head := (checked_of_checkHead passed).head
  have length : state.head.length = 1 + state.head.tail.length := by
    rw [head, List.length_cons, List.tail_cons, Nat.add_comm]
  rw [drvToHal, passed, length]
  simp only [submitRest, fillRest_eq]
  cases informed state.head.tail with
  | none => rfl
  | some frames =>
    by_cases other : state.head.tail ≠ [] ∧
        ((1 + state.head.tail.length : Nat) : Int) ≠ mpduNum first
    · simp only [Option.map_some, if_pos other]
      rfl
    · simp only [Option.map_some, if_neg other]
      rfl

theorem filledBy_full (room : Room state.hal info.queueId start set gap made 0)
    (frames : List (DrvTxdesc × TxInfo)) :
    filledBy first info frames state.hal = state.hal := by
  rw [filledBy, room.fillAggStart_full, fillAll_full room]

/-- With a free element the first frame is put in the fifo, and behind it what finds a place. -/
theorem filledBy_fills {free : Nat}
    (room : Room state.hal info.queueId start set gap made (free + 1))
    (buffer : ∃ skb, first.txdescMpdu = some skb) (frames : List (DrvTxdesc × TxInfo)) :
    FillsAll state.hal (filledBy first info frames state.hal) info.queueId start set gap made
      (first :: placed free frames) := by
  obtain ⟨skb, buffer⟩ := buffer
  obtain ⟨later, agg, sent⟩ := room.fillAggStart skb (firstElt first info)
  obtain ⟨⟨pushed, left, rooms, names⟩, counted⟩ := fillAll_fills later agg frames
  rw [filledBy, buffer]
  refine ⟨⟨firstElt first info :: pushed, left, ?_, ?_⟩, ?_⟩
  · rw [List.append_cons]
    exact rooms
  · rw [List.map_cons, List.map_cons, names]
    rfl
  · rw [counted, sent, List.length_cons]
    omega

/-- A fill leaves no trace only where there is no room. -/
theorem filledBy_eq_iff {free : Nat} (room : Room state.hal info.queueId start set gap made free)
    (buffer : ∃ skb, first.txdescMpdu = some skb) (frames : List (DrvTxdesc × TxInfo)) :
    filledBy first info frames state.hal = state.hal ↔ free = 0 := by
  cases free with
  | zero => exact iff_of_true (filledBy_full room frames) rfl
  | succ free =>
    refine iff_of_false ?_ (Nat.succ_ne_zero free)
    intro same
    have counted := (filledBy_fills room buffer frames).counted
    rw [same, List.length_cons] at counted
    omega

/-- Every frame is put in the fifo, in order, exactly when there is room and each has a buffer. -/
theorem filledBy_waiting_iff {free : Nat} {rest : List DrvTxdesc}
    {frames : List (DrvTxdesc × TxInfo)}
    (room : Room state.hal info.queueId start set gap made free)
    (buffer : ∃ skb, first.txdescMpdu = some skb) (names : frames.map Prod.fst = rest) :
    ((filledBy first info frames state.hal).txdsTristaFifo info.queueId).waiting.map
          FwTxdescFifo.callback =
        (state.hal.txdsTristaFifo info.queueId).waiting.map FwTxdescFifo.callback ++
          (first :: rest).map DrvTxdesc.address ↔
      (first :: rest).length ≤ free ∧ ∀ ptxdesc ∈ rest, ptxdesc.txdescMpdu ≠ none := by
  cases free with
  | zero =>
    rw [filledBy_full room frames]
    refine iff_of_false ?_ ?_
    · intro same
      cases List.self_eq_append_right.mp same
    · rintro ⟨enough, _⟩
      cases enough
  | succ free =>
    obtain ⟨⟨pushed, left, rooms, addresses⟩, _⟩ := filledBy_fills room buffer frames
    rw [rooms.waiting, room.waiting, ← List.append_assoc, List.map_append, addresses,
      List.append_cancel_left_eq, List.map_cons, List.map_cons, List.cons_eq_cons,
      placed_addresses_iff names, List.length_cons, Nat.add_le_add_iff_right]
    simp

/-- A submission is atomic exactly when the list is refused at once, or each descriptor can be read
and the first one names the length of a list that has room. -/
theorem drvToHal_atomic_iff (env : ToHalEnv) (state : Submission)
    (staged : ∃ start set gap made,
      (state.hal.txdsTristaFifo state.txlistQnum).Staged start set gap made) :
    Atomic env state ↔ Takes env state := by
  cases passed : checkHead env state with
  | none =>
    have refused : drvToHal env state = some (-1, state) := by rw [drvToHal, passed]
    constructor
    · intro _ first info checked
      cases passed.symm.trans checked
    · intro _
      exact ⟨-1, state, refused, fun _ => rfl, fun sent => absurd sent (by decide)⟩
  | some choice =>
    obtain ⟨first, info⟩ := choice
    have checked := checked_of_checkHead passed
    obtain ⟨start, set, gap, made, staged⟩ := staged
    have room : Room state.hal info.queueId start set gap made state.free := by
      rw [Submission.free, checked.queue]
      exact ⟨checked.queue ▸ staged, rfl⟩
    have single : Takes env state ↔ (∀ ptxdesc ∈ state.head.tail, ptxdesc.txinfo ≠ none) ∧
        if state.head.tail ≠ [] ∧ (state.head.length : Int) ≠ mpduNum first then state.free = 0
        else state.head.length ≤ state.free ∧
          ∀ ptxdesc ∈ state.head.tail, ptxdesc.txdescMpdu ≠ none := by
      constructor
      · intro takes
        exact takes first info passed
      · intro takes other found known
        cases passed.symm.trans known
        exact takes
    rw [single, Atomic, drvToHal_checked passed, ← informed_isSome_iff]
    cases read : informed state.head.tail with
    | none => simp
    | some frames =>
      have names := map_fst_of_informed read
      by_cases other : state.head.tail ≠ [] ∧ (state.head.length : Int) ≠ mpduNum first
      · have traceless := filledBy_eq_iff room checked.buffer frames.dropLast
        simp only [Option.map_some, if_pos other, Option.isSome_some, true_and, ← traceless]
        constructor
        · rintro ⟨ret, after, result, failed, _⟩
          cases result
          exact congrArg Submission.hal (failed (by decide))
        · intro same
          refine ⟨_, _, rfl, fun _ => ?_, fun sent => absurd sent (by decide)⟩
          rw [same]
      · have whole := filledBy_waiting_iff room checked.buffer names
        rw [← checked.head, ← checked.queue] at whole
        simp only [Option.map_some, if_neg other, Option.isSome_some, true_and, ← whole]
        constructor
        · rintro ⟨ret, after, result, _, sent⟩
          cases result
          exact (sent (by decide)).2
        · intro same
          exact ⟨_, _, rfl, fun failed => absurd failed (by decide), fun _ => ⟨rfl, same⟩⟩

end Law

section Runs

/-- A frame of the first queue for a station with an interface. -/
def plainDesc (address : Nat) (pktnum : Int) : DrvTxdesc where
  address := address
  txinfo := some ⟨0, 0, 0, 1500, false, true, false, false, false⟩
  txdescSta := some ⟨some true⟩
  txdescMpdu := some address
  txdescPktnum := pktnum
  txdescAggrPageNum := 4
  txdescDdraddr := some 0x88
  txdescInHw := false

/-- Two frames for empty fifos, where the first one names `pktnum`. -/
def pairOf (pktnum : Int) : Submission where
  hal := ⟨fun _ => coSharedFifoInit 80 fun _ => ⟨0, 0, 0, 0, 0, 0, 0, 0⟩, fun _ => none, 0⟩
  txlistQnum := 0
  txlistQcnt := 0
  txlistQ := []
  head := [plainDesc 1 pktnum, plainDesc 2 pktnum]

theorem pairOf_staged (pktnum : Int) : ∃ start set gap made,
    ((pairOf pktnum).hal.txdsTristaFifo (pairOf pktnum).txlistQnum).Staged start set gap made :=
  ⟨1, [], [], [], SharedFifo.init_staged _ (by decide)⟩

theorem drvToHal_atomic_iff_pair :
    Atomic ⟨true, true, true⟩ (pairOf 2) ↔ Takes ⟨true, true, true⟩ (pairOf 2) :=
  drvToHal_atomic_iff ⟨true, true, true⟩ (pairOf 2) (pairOf_staged 2)

/-- Two frames where the first one names one: it stays in the fifo, and the list fails. -/
theorem drvToHal_leaves_first :
    ¬ ∀ env state,
      (∃ start set gap made,
        (state.hal.txdsTristaFifo state.txlistQnum).Staged start set gap made) →
      Atomic env state := by
  intro law
  obtain ⟨ret, after, result, failed, _⟩ := law ⟨true, true, true⟩ (pairOf 1) (pairOf_staged 1)
  have returned : (drvToHal ⟨true, true, true⟩ (pairOf 1)).map Prod.fst = some (-1) := by decide
  have sent : (drvToHal ⟨true, true, true⟩ (pairOf 1)).map
      (fun done => done.2.hal.txSendNum) = some 1 := by decide
  rw [result] at returned sent
  have negative : ret = -1 := Option.some.inj returned
  have traceless := failed (by omega)
  rw [traceless] at sent
  cases sent

end Runs

end W522a.Hal
