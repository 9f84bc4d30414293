import Mathlib.Data.BitVec
import W522a.Lib.Rounding
import W522a.Hal.ScatReq

/-!
What a request through the bounce buffer transfers, whatever its packets and limits are.
-/

namespace W522a.Hal

open Memory (Traced Safe emit)

def ScatItem.bytes (item : ScatItem) : List UInt8 :=
  (List.range item.len.toNat).map (item.packet.getD fun _ => 0)

def ScatItem.padded (item : ScatItem) (size : Nat) : List UInt8 :=
  item.bytes ++ List.replicate (size - item.len.toNat) 0

/-- A length with all of its last block. -/
def wholeBlocks (blkSize len : Nat) : Nat := (len + (blkSize - 1)) / blkSize * blkSize

/-- What some events write to the card. -/
def sentData (log : List ScatEvent) : List UInt8 :=
  log.flatMap fun
    | .cmd53 cmd => if cmd.write then cmd.data else []
    | _ => []

/-- What some events copy to the packets, in their order. -/
def copied (log : List ScatEvent) : List (List UInt8) :=
  log.filterMap fun
    | .copyOut data => some data
    | _ => none

def ScatEvent.completes : ScatEvent → Bool
  | .callback _ => true
  | .freed => true
  | _ => false

def completions (log : List ScatEvent) : List ScatEvent := log.filter ScatEvent.completes

/-- The bytes of packets that lie behind each other, each in a room of its own. -/
def pieces (room : Nat → Nat) (data : Nat → UInt8) : Nat → List ScatItem → List (List UInt8)
  | _, [] => []
  | offset, item :: rest =>
    ((List.range item.len.toNat).map fun index => data (offset + index)) ::
      pieces room data (offset + room item.len.toNat) rest

def itemPages (items : List ScatItem) : Nat := (items.map fun item => item.pageNum.toNat).sum

/-- The packets that go into the next transfer, behind `ttlLen` bytes. -/
def packed (blkSize maxReqSize : Nat) : Nat → List ScatItem → List ScatItem
  | _, [] => []
  | ttlLen, item :: rest =>
    if maxReqSize ≤ ttlLen then []
    else if maxReqSize - ttlLen < align item.len.toNat blkSize then []
    else item :: packed blkSize maxReqSize (ttlLen + align item.len.toNat blkSize) rest

/-- No transfer has pages that take the offset round more than once. -/
def RoundOnce (blkSize maxReqSize : Nat) : Nat → List ScatItem → Nat → Prop
  | 0, _, _ => True
  | fuel + 1, items, offset =>
    let next := packed blkSize maxReqSize 0 items
    offset + itemPages next < 2 * txAddresstableNum ∧
      (items.drop next.length ≠ [] →
        RoundOnce blkSize maxReqSize fuel (items.drop next.length)
          ((offset + itemPages next) % txAddresstableNum))

/-- A write lies within the first bytes of the buffer. -/
def Inside (bound : Nat) : ScatEvent → Prop
  | .fill pos size => 0 ≤ pos ∧ pos + size ≤ bound
  | _ => True

/-- A CMD53 of whole blocks, of which there are 1 to 511. -/
structure Cmd53.Whole (cmd : Cmd53) (blkSize : Nat) : Prop where
  some : 0 < cmd.blocks
  most : cmd.blocks ≤ sdioMaxBlkCnt
  bytes : cmd.data.length = cmd.blocks * blkSize

variable {blkSize maxReqSize bounceSize total ttlLen fuel index addr len : Nat}
  {item : ScatItem} {items rest : List ScatItem} {packing : Packing} {func : SdioFunc}
  {transfer : MmcTransfer} {transfers : Nat → MmcTransfer}

section Align

private theorem align_lt (x a : Nat) : align x a < 2 ^ 32 := by
  rw [align]
  exact Nat.lt_of_le_of_lt Nat.and_le_left (Nat.mod_lt _ (by decide))

theorem align_eq (shift len : Nat) (positive : 0 < len) (grown : len ≤ align len (2 ^ shift)) :
    align len (2 ^ shift) = wholeBlocks (2 ^ shift) len := by
  have power : 0 < 2 ^ shift := Nat.two_pow_pos shift
  have below : align len (2 ^ shift) < 2 ^ 32 := align_lt len _
  rw [align] at grown below ⊢
  by_cases wide : 32 ≤ shift
  · have none : (2 ^ shift + (2 ^ 32 - 1)) % 2 ^ 32 = 2 ^ 32 - 1 := by
      obtain ⟨more, rfl⟩ := Nat.exists_eq_add_of_le wide
      rw [Nat.pow_add]
      omega
    rw [none, Nat.sub_self, Nat.and_zero] at grown
    omega
  · have narrow : 2 ^ shift < 2 ^ 32 := Nat.pow_lt_pow_right (by decide) (Nat.not_le.mp wide)
    have mask : (2 ^ shift + (2 ^ 32 - 1)) % 2 ^ 32 = 2 ^ shift - 1 := by omega
    have cleared : (len + (2 ^ shift - 1)) % 2 ^ 32 &&& (2 ^ 32 - 1 - (2 ^ shift - 1)) =
        (len + (2 ^ shift - 1)) % 2 ^ 32 / 2 ^ shift * 2 ^ shift :=
      Rounding.and_complement (Nat.mod_lt _ (by decide)) (by omega)
    rw [mask, cleared] at grown below ⊢
    have down := Nat.div_mul_le_self ((len + (2 ^ shift - 1)) % 2 ^ 32) (2 ^ shift)
    have fits : (len + (2 ^ shift - 1)) % 2 ^ 32 = len + (2 ^ shift - 1) := by omega
    rw [fits, wholeBlocks]

end Align

section Validate

/-- A packet that passed the checks. -/
structure Fits (blkSize maxReqSize : Nat) (item : ScatItem) : Prop where
  some : 0 < item.len.toNat
  grown : item.len.toNat ≤ align item.len.toNat blkSize
  most : align item.len.toNat blkSize ≤ maxReqSize

def alignedLen (blkSize : Nat) (items : List ScatItem) : Nat :=
  (items.map fun item => align item.len.toNat blkSize).sum

theorem validateItems_ok (within : total ≤ bounceSize)
    (valid : validateItems blkSize maxReqSize bounceSize total items = .ok ttlLen) :
    ttlLen = total + alignedLen blkSize items ∧ ttlLen ≤ bounceSize ∧
      ∀ item ∈ items, Fits blkSize maxReqSize item := by
  induction items generalizing total with
  | nil =>
    cases valid
    exact ⟨rfl, within, by simp⟩
  | cons item rest ih =>
    rw [validateItems] at valid
    split at valid
    · cases valid
    · rename_i known
      split at valid
      · cases valid
      · rename_i sized
        split at valid
        · cases valid
        · rename_i room
          obtain ⟨whole, inside, fits⟩ := ih (by omega) valid
          refine ⟨?_, inside, ?_⟩
          · rw [whole, alignedLen, alignedLen, List.map_cons, List.sum_cons, Nat.add_assoc]
          · intro other found
            rcases List.mem_cons.mp found with rfl | later
            · exact ⟨by omega, by omega, by omega⟩
            · exact fits other later

theorem validateItems_error {error : Int}
    (refused : validateItems blkSize maxReqSize bounceSize total items = .error error) :
    error ≠ 0 := by
  induction items generalizing total with
  | nil => cases refused
  | cons item rest ih =>
    rw [validateItems] at refused
    split at refused
    · cases refused
      decide
    · split at refused
      · cases refused
        decide
      · split at refused
        · cases refused
          decide
        · exact ih refused

end Validate

section Pack

theorem alignedLen_cons (blkSize : Nat) (item : ScatItem) (rest : List ScatItem) :
    alignedLen blkSize (item :: rest) =
      align item.len.toNat blkSize + alignedLen blkSize rest := by
  rw [alignedLen, List.map_cons, List.sum_cons]
  rfl

private theorem itemPages_cons (item : ScatItem) (rest : List ScatItem) :
    itemPages (item :: rest) = item.pageNum.toNat + itemPages rest := by
  rw [itemPages, List.map_cons, List.sum_cons]
  rfl

theorem packed_starts (ttlLen : Nat) (items : List ScatItem) :
    packed blkSize maxReqSize ttlLen items <+: items := by
  induction items generalizing ttlLen with
  | nil => exact List.prefix_rfl
  | cons item rest ih =>
    rw [packed]
    split
    · exact List.nil_prefix
    · split
      · exact List.nil_prefix
      · exact (List.prefix_cons_inj item).mpr (ih _)

theorem safe_emitIf {ok : ScatEvent → Prop} {condition : Bool} {event : ScatEvent}
    (allowed : ok event) : Safe ok (emitIf condition event) := by
  rw [emitIf]
  split
  · exact Memory.safe_emit.mpr allowed
  · exact Memory.safe_pure _

private theorem packItem_fills (item : ScatItem) (packing : Packing) :
    Safe (fun event => ∃ pos size, event = .fill pos size) (packItem blkSize item packing) := by
  rw [packItem]
  simp only [Memory.safe_bind, Memory.safe_pure, and_true]
  exact ⟨Memory.safe_emit.mpr ⟨_, _, rfl⟩, safe_emitIf ⟨_, _, rfl⟩⟩

theorem packItems_fills (items : List ScatItem) (packing : Packing) :
    Safe (fun event => ∃ pos size, event = .fill pos size)
      (packItems blkSize maxReqSize items packing) := by
  induction items generalizing packing with
  | nil => exact Memory.safe_pure _
  | cons item rest ih =>
    rw [packItems]
    split
    · exact Memory.safe_pure _
    · split
      · exact Memory.safe_pure _
      · rw [Memory.safe_bind]
        exact ⟨packItem_fills item packing, ih _⟩

/-- What the packing of a transfer returns. -/
structure Packs (blkSize maxReqSize : Nat) (items : List ScatItem) (packing : Packing)
    (left : List ScatItem) (next : Packing) : Prop where
  left : left = items.drop (packed blkSize maxReqSize packing.ttlLen items).length
  length : next.ttlLen =
    packing.ttlLen + alignedLen blkSize (packed blkSize maxReqSize packing.ttlLen items)
  pages : next.ttlPageNum =
    (packing.ttlPageNum + itemPages (packed blkSize maxReqSize packing.ttlLen items)) % 2 ^ 32

theorem packItems_packs (packing : Packing) (limit : maxReqSize < 2 ^ 32)
    (paged : packing.ttlPageNum < 2 ^ 32) (within : packing.ttlLen ≤ maxReqSize) :
    Packs blkSize maxReqSize items packing (packItems blkSize maxReqSize items packing).value.1
      (packItems blkSize maxReqSize items packing).value.2 := by
  induction items generalizing packing with
  | nil => exact ⟨rfl, rfl, (Nat.mod_eq_of_lt paged).symm⟩
  | cons item rest ih =>
    by_cases full : maxReqSize ≤ packing.ttlLen
    · have none : packed blkSize maxReqSize packing.ttlLen (item :: rest) = [] := by
        rw [packed, if_pos full]
      rw [packItems, if_pos full]
      refine ⟨?_, ?_, ?_⟩
      · rw [none]
        rfl
      · rw [none]
        rfl
      · rw [none]
        exact (Nat.mod_eq_of_lt paged).symm
    · by_cases large : maxReqSize - packing.ttlLen < align item.len.toNat blkSize
      · have none : packed blkSize maxReqSize packing.ttlLen (item :: rest) = [] := by
          rw [packed, if_neg full, if_pos large]
        rw [packItems, if_neg full, if_pos large]
        refine ⟨?_, ?_, ?_⟩
        · rw [none]
          rfl
        · rw [none]
          rfl
        · rw [none]
          exact (Nat.mod_eq_of_lt paged).symm
      · have sum : (packing.ttlLen + align item.len.toNat blkSize) % 2 ^ 32 =
            packing.ttlLen + align item.len.toNat blkSize := Nat.mod_eq_of_lt (by omega)
        have one : packed blkSize maxReqSize packing.ttlLen (item :: rest) =
            item :: packed blkSize maxReqSize
              (packing.ttlLen + align item.len.toNat blkSize) rest := by
          rw [packed, if_neg full, if_neg large]
        have longer : (packItem blkSize item packing).value.ttlLen =
            packing.ttlLen + align item.len.toNat blkSize := sum
        have paged : (packItem blkSize item packing).value.ttlPageNum =
            (packing.ttlPageNum + item.pageNum.toNat) % 2 ^ 32 := rfl
        obtain ⟨left, length, pages⟩ := ih (packItem blkSize item packing).value
          (Nat.mod_lt _ (by decide)) (by rw [longer]; omega)
        rw [longer] at left length pages
        rw [packItems, if_neg full, if_neg large]
        refine ⟨?_, ?_, ?_⟩
        · rw [one, List.length_cons, List.drop_succ_cons]
          exact left
        · rw [one, alignedLen_cons, ← Nat.add_assoc]
          exact length
        · rw [one, itemPages_cons, ← Nat.add_assoc, ← Nat.mod_add_mod, ← paged]
          exact pages

private theorem sizeT_small {size : BitVec 32} (small : size.toNat < 2 ^ 31) :
    sizeT size = size.toNat := by
  have positive : size.msb = false := by
    rw [BitVec.msb_eq_decide]
    exact decide_eq_false (Nat.not_le.mpr small)
  rw [sizeT, BitVec.signExtend_eq_setWidth_of_msb_false positive, BitVec.toNat_setWidth]
  omega

private theorem toInt_small {size : BitVec 32} (small : size.toNat < 2 ^ 31) :
    size.toInt = size.toNat := by
  rw [BitVec.toInt_eq_toNat_cond, if_pos (by omega)]

/-- Below 2 GiB, the sizes of a packet are what they are meant to be. -/
structure Sizes (blkSize : Nat) (item : ScatItem) : Prop where
  copy : sizeT item.len = item.len.toNat
  length : item.len.toInt = item.len.toNat
  rest : sizeT (BitVec.ofNat 32 (align item.len.toNat blkSize) - item.len) =
    align item.len.toNat blkSize - item.len.toNat
  pads : decide (item.len.toInt < (BitVec.ofNat 32 (align item.len.toNat blkSize)).toInt) =
    decide (item.len.toNat < align item.len.toNat blkSize)

theorem Fits.sizes (fits : Fits blkSize maxReqSize item) (small : maxReqSize < 2 ^ 31) :
    Sizes blkSize item := by
  obtain ⟨-, grown, most⟩ := fits
  have whole : (BitVec.ofNat 32 (align item.len.toNat blkSize)).toNat =
      align item.len.toNat blkSize := by
    rw [BitVec.toNat_ofNat]
    exact Nat.mod_eq_of_lt (by omega)
  have gap : (BitVec.ofNat 32 (align item.len.toNat blkSize) - item.len).toNat =
      align item.len.toNat blkSize - item.len.toNat := by
    rw [BitVec.toNat_sub, whole]
    omega
  have length : item.len.toInt = item.len.toNat := toInt_small (by omega)
  refine ⟨sizeT_small (by omega), length, ?_, ?_⟩
  · rw [sizeT_small (by omega), gap]
  · rw [length, toInt_small (by omega), whole]
    exact decide_eq_decide.mpr Int.ofNat_lt

/-- A packet is copied with its zeros behind what was packed before. -/
theorem packItem_padded (fits : Fits blkSize maxReqSize item) (small : maxReqSize < 2 ^ 31)
    (packing : Packing) :
    Flat.load (packItem blkSize item packing).value.bounceBuf 0
        (packing.bouncePos + align item.len.toNat blkSize) =
      Flat.load packing.bounceBuf 0 packing.bouncePos ++
        item.padded (align item.len.toNat blkSize) := by
  obtain ⟨copy, length, rest, pads⟩ := fits.sizes small
  have grown := fits.grown
  show Flat.load (if decide _ = true then _ else _) 0 _ = _
  rw [copy, rest, pads, length, Flat.load_add]
  by_cases short : item.len.toNat < align item.len.toNat blkSize
  · rw [if_pos (decide_eq_true short), Flat.load_fill_before (by omega),
      Flat.load_fill_before (by omega), Int.zero_add]
    congr 1
    have padded := Flat.load_fill_padded packing.bounceBuf packing.bouncePos item.len.toNat
      (align item.len.toNat blkSize - item.len.toNat) (item.packet.getD fun _ => 0) 0
    rwa [Nat.add_sub_of_le grown] at padded
  · have full : align item.len.toNat blkSize = item.len.toNat := by omega
    rw [if_neg (by simpa using short), Flat.load_fill_before (by omega), Int.zero_add, full,
      Flat.load_fill, ScatItem.padded, Nat.sub_self, List.replicate_zero, List.append_nil]
    rfl

/-- A packet is copied with its zeros within the room that it takes. -/
theorem packItem_inside (fits : Fits blkSize maxReqSize item) (small : maxReqSize < 2 ^ 31)
    (packing : Packing) :
    Safe (Inside (packing.bouncePos + align item.len.toNat blkSize))
      (packItem blkSize item packing) := by
  obtain ⟨copy, length, rest, pads⟩ := fits.sizes small
  have grown := fits.grown
  rw [packItem]
  simp only [Memory.safe_bind, Memory.safe_pure, and_true]
  refine ⟨Memory.safe_emit.mpr ?_, safe_emitIf ?_⟩
  · rw [Inside]
    omega
  · rw [Inside]
    omega

theorem Inside.mono {bound : Nat} (wider : bound ≤ total) {event : ScatEvent}
    (inside : Inside bound event) : Inside total event := by
  cases event with
  | fill pos size =>
    rw [Inside] at inside ⊢
    omega
  | cmd53 cmd => trivial
  | pageOffset offset => trivial
  | copyOut data => trivial
  | callback index => trivial
  | freed => trivial

/-- Below 2 GiB, packets are copied with their zeros behind each other, within the limit. -/
theorem packItems_padded (packing : Packing) (small : maxReqSize < 2 ^ 31)
    (within : packing.ttlLen ≤ maxReqSize) (aligned : packing.bouncePos = packing.ttlLen)
    (fits : ∀ item ∈ items, Fits blkSize maxReqSize item) :
    Safe (Inside maxReqSize) (packItems blkSize maxReqSize items packing) ∧
      Flat.load (packItems blkSize maxReqSize items packing).value.2.bounceBuf 0
          (packItems blkSize maxReqSize items packing).value.2.ttlLen =
        Flat.load packing.bounceBuf 0 packing.ttlLen ++
          (packed blkSize maxReqSize packing.ttlLen items).flatMap
            fun item => item.padded (align item.len.toNat blkSize) := by
  induction items generalizing packing with
  | nil => exact ⟨Memory.safe_pure _, (List.append_nil _).symm⟩
  | cons item rest ih =>
    rw [packItems, packed]
    by_cases full : maxReqSize ≤ packing.ttlLen
    · rw [if_pos full, if_pos full]
      exact ⟨Memory.safe_pure _, (List.append_nil _).symm⟩
    · rw [if_neg full, if_neg full]
      by_cases large : maxReqSize - packing.ttlLen < align item.len.toNat blkSize
      · rw [if_pos large, if_pos large]
        exact ⟨Memory.safe_pure _, (List.append_nil _).symm⟩
      · have first : Fits blkSize maxReqSize item := fits item List.mem_cons_self
        have longer : (packItem blkSize item packing).value.ttlLen =
            packing.ttlLen + align item.len.toNat blkSize := Nat.mod_eq_of_lt (by omega)
        have further : (packItem blkSize item packing).value.bouncePos =
            packing.bouncePos + align item.len.toNat blkSize := Nat.mod_eq_of_lt (by omega)
        obtain ⟨inside, bytes⟩ := ih (packItem blkSize item packing).value
          (by rw [longer]; omega) (by rw [longer, further, aligned])
          fun other found => fits other (List.mem_cons_of_mem _ found)
        have own := packItem_padded first small packing
        rw [aligned] at own
        rw [if_neg large, if_neg large, List.flatMap_cons, ← List.append_assoc, ← own]
        rw [longer] at bytes
        refine ⟨?_, bytes⟩
        rw [Memory.safe_bind]
        refine ⟨?_, inside⟩
        intro event found
        have near := packItem_inside first small packing event found
        exact near.mono (by omega)

end Pack

section Writes

/-- A transfer is refused, or issued as a CMD53 of whole blocks. -/
theorem cmd53_cases (func : SdioFunc) (addr len : Nat) (write : Bool) {buf : List UInt8}
    (transfer : MmcTransfer) (sized : buf.length = len) :
    ((amlSdioCmd53BufRw func addr len write buf transfer).log = [] ∧
        (amlSdioCmd53BufRw func addr len write buf transfer).value = einval) ∨
      ∃ cmd, (amlSdioCmd53BufRw func addr len write buf transfer).log =
          .cmd53 cmd :: (emitIf (!write) (.fill 0 len)).log ∧
        cmd.write = write ∧ cmd.data = buf ∧ cmd.Whole func.curBlksize := by
  rw [amlSdioCmd53BufRw]
  split
  · exact .inl ⟨rfl, rfl⟩
  · split
    · exact .inl ⟨rfl, rfl⟩
    · rename_i whole
      dsimp only
      split
      · exact .inl ⟨rfl, rfl⟩
      · rename_i counted
        obtain ⟨positive, divides⟩ := not_or.mp whole
        refine .inr ⟨⟨write, func.num % 8, addr % 2 ^ 17, len / func.curBlksize, buf⟩, ?_, rfl, rfl,
          ⟨Nat.pos_of_ne_zero (not_or.mp counted).1, Nat.not_lt.mp (not_or.mp counted).2, ?_⟩⟩
        · exact congrArg _ (List.append_nil _)
        · show buf.length = len / func.curBlksize * func.curBlksize
          rw [sized]
          exact (Nat.div_mul_cancel (Nat.dvd_of_mod_eq_zero (not_not.mp divides))).symm

/-- What a request may do before it is completed. -/
def Pending (blkSize : Nat) : ScatEvent → Prop
  | .cmd53 cmd => cmd.Whole blkSize
  | .callback _ => False
  | .freed => False
  | _ => True

/-- Of a transfer that writes, only the CMD53 is to be looked at. -/
theorem cmd53_safe {ok : ScatEvent → Prop} (func : SdioFunc) (addr len : Nat) {buf : List UInt8}
    (transfer : MmcTransfer) (sized : buf.length = len)
    (sends : ∀ cmd : Cmd53, cmd.write = true → cmd.Whole func.curBlksize → ok (.cmd53 cmd)) :
    Safe ok (amlSdioCmd53BufRw func addr len true buf transfer) := by
  intro event found
  rcases cmd53_cases func addr len true transfer sized with ⟨none, -⟩ | ⟨cmd, log, write, -, whole⟩
  · rw [none] at found
    cases found
  · rw [log] at found
    rw [List.mem_singleton.mp found]
    exact sends cmd write whole

/-- A turn of the writing loop ends without a transfer, with one that failed, or with one that went
through and the rest. -/
theorem scatWrites_turn (func : SdioFunc) (addr maxReqSize : Nat) (transfers : Nat → MmcTransfer)
    (fuel index : Nat) (item : ScatItem) (rest : List ScatItem) (bounceBuf : Int → UInt8)
    (result : Int) (offset : Nat) :
    let pack := packItems func.curBlksize maxReqSize (item :: rest) ⟨0, 0, 0, bounceBuf⟩
    let next := pack.value.2
    let sent := amlSdioCmd53BufRw func addr next.ttlLen true
      (Flat.load next.bounceBuf 0 next.ttlLen) (transfers index)
    let moved := circleAddition2 next.ttlPageNum offset txAddresstableNum
    let more := scatWrites func addr maxReqSize transfers fuel (index + 1) pack.value.1
      next.bounceBuf 0 moved
    let turn := scatWrites func addr maxReqSize transfers (fuel + 1) index (item :: rest) bounceBuf
      result offset
    (turn.log = pack.log ∧ turn.value = some (sdiohApiRcFail, offset)) ∨
      (sent.value ≠ 0 ∧ turn.log = pack.log ++ sent.log ∧
        turn.value = some (sent.value, offset)) ∨
      (sent.value = 0 ∧ turn.log = pack.log ++ (sent.log ++ .pageOffset moved :: more.log) ∧
        turn.value = more.value) := by
  intro pack next sent moved more turn
  have turned : turn = pack >>= fun packed =>
      if packed.2.ttlLen = 0 ∨ packed.2.ttlLen % func.curBlksize ≠ 0 then
        pure (some (sdiohApiRcFail, offset))
      else
        amlSdioCmd53BufRw func addr packed.2.ttlLen true
            (Flat.load packed.2.bounceBuf 0 packed.2.ttlLen) (transfers index) >>= fun result =>
          if result ≠ 0 then pure (some (result, offset))
          else
            emit (.pageOffset (circleAddition2 packed.2.ttlPageNum offset txAddresstableNum)) >>=
              fun _ => scatWrites func addr maxReqSize transfers fuel (index + 1) packed.1
                packed.2.bounceBuf result
                (circleAddition2 packed.2.ttlPageNum offset txAddresstableNum) := rfl
  rw [turned, Memory.log_bind, Memory.value_bind]
  by_cases uneven : next.ttlLen = 0 ∨ next.ttlLen % func.curBlksize ≠ 0
  · left
    rw [if_pos uneven]
    exact ⟨List.append_nil _, rfl⟩
  · right
    rw [if_neg uneven, Memory.log_bind, Memory.value_bind]
    by_cases accepted : sent.value = 0
    · right
      have same : more = scatWrites func addr maxReqSize transfers fuel (index + 1) pack.value.1
        next.bounceBuf sent.value moved := by rw [accepted]
      rw [if_neg (not_not.mpr accepted), same]
      exact ⟨accepted, rfl, rfl⟩
    · left
      rw [if_pos accepted]
      exact ⟨accepted, by rw [Memory.log_pure, List.append_nil], rfl⟩

/-- Of the writing loop, only the packing and the CMD53s are to be looked at. -/
theorem scatWrites_safe {ok : ScatEvent → Prop} {inv : List ScatItem → Prop}
    (packs : ∀ items bounceBuf, inv items →
      Safe ok (packItems func.curBlksize maxReqSize items ⟨0, 0, 0, bounceBuf⟩) ∧
        inv (packItems func.curBlksize maxReqSize items ⟨0, 0, 0, bounceBuf⟩).value.1)
    (sends : ∀ cmd : Cmd53, cmd.write = true → cmd.Whole func.curBlksize → ok (.cmd53 cmd))
    (moves : ∀ offset, ok (.pageOffset offset)) (start : inv items) (bounceBuf : Int → UInt8)
    (result : Int) (offset : Nat) :
    Safe ok
      (scatWrites func addr maxReqSize transfers fuel index items bounceBuf result offset) := by
  induction fuel generalizing index items bounceBuf result offset with
  | zero => exact Memory.safe_pure _
  | succ fuel ih =>
    cases items with
    | nil => exact Memory.safe_pure _
    | cons item rest =>
      obtain ⟨packing, kept⟩ := packs (item :: rest) bounceBuf start
      intro event found
      obtain ⟨log, -⟩ | ⟨-, log, -⟩ | ⟨-, log, -⟩ := scatWrites_turn func addr maxReqSize transfers
        fuel index item rest bounceBuf result offset
      · rw [log] at found
        exact packing event found
      · rw [log] at found
        rcases List.mem_append.mp found with copying | sending
        · exact packing event copying
        · exact cmd53_safe func addr _ _ Flat.length_load sends event sending
      · rw [log] at found
        rcases List.mem_append.mp found with copying | sending
        · exact packing event copying
        · rcases List.mem_append.mp sending with sending | later
          · exact cmd53_safe func addr _ _ Flat.length_load sends event sending
          · rcases List.mem_cons.mp later with rfl | later
            · exact moves _
            · exact ih kept _ _ _ event later

/-- Packets of which each fits a transfer, and a limit that is a 32-bit number. -/
structure Sendable (blkSize maxReqSize : Nat) (items : List ScatItem) : Prop where
  fits : ∀ item ∈ items, Fits blkSize maxReqSize item
  limit : maxReqSize < 2 ^ 32

theorem Sendable.drop (sendable : Sendable blkSize maxReqSize items) (count : Nat) :
    Sendable blkSize maxReqSize (items.drop count) :=
  ⟨fun item found => sendable.fits item (List.drop_subset _ _ found), sendable.limit⟩

private theorem packed_ne_nil (fits : Fits blkSize maxReqSize item) :
    packed blkSize maxReqSize 0 (item :: rest) ≠ [] := by
  obtain ⟨some, grown, most⟩ := fits
  rw [packed, if_neg (by omega), if_neg (by omega)]
  exact List.cons_ne_nil _ _

/-- What the packing of a transfer starts with and returns. -/
theorem Sendable.packs (sendable : Sendable blkSize maxReqSize items) (bounceBuf : Int → UInt8) :
    (packItems blkSize maxReqSize items ⟨0, 0, 0, bounceBuf⟩).value.1 =
        items.drop (packed blkSize maxReqSize 0 items).length ∧
      (packItems blkSize maxReqSize items ⟨0, 0, 0, bounceBuf⟩).value.2.ttlPageNum =
        itemPages (packed blkSize maxReqSize 0 items) % 2 ^ 32 := by
  obtain ⟨left, -, pages⟩ : Packs blkSize maxReqSize items ⟨0, 0, 0, bounceBuf⟩ _ _ :=
    packItems_packs _ sendable.limit (Nat.two_pow_pos 32) (Nat.zero_le _)
  rw [Nat.zero_add] at pages
  exact ⟨left, pages⟩

private theorem Sendable.shorter (sendable : Sendable blkSize maxReqSize (item :: rest))
    (enough : (item :: rest).length < fuel + 1) :
    ((item :: rest).drop (packed blkSize maxReqSize 0 (item :: rest)).length).length < fuel := by
  have full : packed blkSize maxReqSize 0 (item :: rest) ≠ [] :=
    packed_ne_nil (sendable.fits item List.mem_cons_self)
  have some := List.length_pos_iff.mpr full
  rw [List.length_drop]
  rw [List.length_cons] at enough ⊢
  omega

private theorem roundOnce_nil {offset : Nat} (inside : offset < txAddresstableNum) :
    RoundOnce blkSize maxReqSize fuel [] offset := by
  cases fuel with
  | zero => trivial
  | succ fuel => exact ⟨Nat.lt_of_lt_of_le inside (by decide), fun more => absurd rfl more⟩

theorem packed_split (items : List ScatItem) :
    packed blkSize maxReqSize 0 items ++
        items.drop (packed blkSize maxReqSize 0 items).length = items := by
  obtain ⟨rest, split⟩ : packed blkSize maxReqSize 0 items <+: items := packed_starts 0 items
  calc packed blkSize maxReqSize 0 items ++
        items.drop (packed blkSize maxReqSize 0 items).length
      = packed blkSize maxReqSize 0 items ++ (packed blkSize maxReqSize 0 items ++ rest).drop
          (packed blkSize maxReqSize 0 items).length := by rw [split]
    _ = items := by rw [List.drop_left, split]

private theorem itemPages_append (first second : List ScatItem) :
    itemPages (first ++ second) = itemPages first + itemPages second := by
  rw [itemPages, List.map_append, List.sum_append]
  rfl

/-- The loop ends, and moves the offset by the pages of its packets. -/
theorem scatWrites_ends (sendable : Sendable func.curBlksize maxReqSize items)
    (enough : items.length < fuel) (bounceBuf : Int → UInt8) (result : Int) (offset : Nat) :
    ∃ last next, (scatWrites func addr maxReqSize transfers fuel index items bounceBuf result
        offset).value = some (last, next) ∧
      (last = 0 → offset < txAddresstableNum →
        RoundOnce func.curBlksize maxReqSize fuel items offset →
        next = (offset + itemPages items) % txAddresstableNum) := by
  induction fuel generalizing index items bounceBuf result offset with
  | zero => exact absurd enough (Nat.not_lt_zero _)
  | succ fuel ih =>
    cases items with
    | nil =>
      refine ⟨result, offset, rfl, ?_⟩
      intro _ inside _
      exact (Nat.mod_eq_of_lt inside).symm
    | cons item rest =>
      obtain ⟨-, value⟩ | ⟨bad, -, value⟩ | ⟨-, -, value⟩ := scatWrites_turn func addr maxReqSize
        transfers fuel index item rest bounceBuf result offset
      · exact ⟨sdiohApiRcFail, offset, value, fun zero => absurd zero (by decide)⟩
      · exact ⟨_, offset, value, fun zero => absurd zero bad⟩
      · obtain ⟨left, pages⟩ := sendable.packs bounceBuf
        rw [left, pages] at value
        obtain ⟨last, next, ended, moved⟩ := ih (sendable.drop _) (sendable.shorter enough) _ _ _
        refine ⟨last, next, value.trans ended, ?_⟩
        intro zero inside once
        have rounded : RoundOnce func.curBlksize maxReqSize fuel
            ((item :: rest).drop (packed func.curBlksize maxReqSize 0 (item :: rest)).length)
            ((offset + itemPages (packed func.curBlksize maxReqSize 0 (item :: rest)))
              % txAddresstableNum) := by
          by_cases more :
              (item :: rest).drop (packed func.curBlksize maxReqSize 0 (item :: rest)).length = []
          · rw [more]
            exact roundOnce_nil (Nat.mod_lt _ (by decide))
          · exact once.2 more
        rw [circleAddition2_once once.1 (by decide)] at moved
        rw [moved zero (Nat.mod_lt _ (by decide)) rounded, Nat.mod_add_mod, Nat.add_assoc,
          ← itemPages_append, packed_split]

theorem sentData_append (first second : List ScatEvent) :
    sentData (first ++ second) = sentData first ++ sentData second := List.flatMap_append

private theorem sentData_fills {log : List ScatEvent} (fills : ∀ event ∈ log, ∃ pos size,
    event = .fill pos size) : sentData log = [] := by
  apply List.flatMap_eq_nil_iff.mpr
  intro event found
  obtain ⟨pos, size, rfl⟩ := fills event found
  rfl

private theorem cmd53_sent (func : SdioFunc) (addr len : Nat) {buf : List UInt8}
    (transfer : MmcTransfer)
    (sized : buf.length = len)
    (accepted : (amlSdioCmd53BufRw func addr len true buf transfer).value = 0) :
    sentData (amlSdioCmd53BufRw func addr len true buf transfer).log = buf := by
  rcases cmd53_cases func addr len true transfer sized with
    ⟨-, refused⟩ | ⟨cmd, log, write, data, -⟩
  · rw [accepted] at refused
    cases refused
  · rw [log, sentData, List.flatMap_cons]
    simp only [write, if_true, data]
    exact List.append_nil _

/-- The writing loop only copies to the buffer and sends whole blocks. -/
theorem scatWrites_pending (bounceBuf : Int → UInt8) (result : Int) (offset : Nat) :
    Safe (Pending func.curBlksize)
      (scatWrites func addr maxReqSize transfers fuel index items bounceBuf result offset) := by
  apply scatWrites_safe
  · intro items bounceBuf (_ : True)
    refine ⟨?_, trivial⟩
    intro event found
    obtain ⟨pos, size, rfl⟩ := packItems_fills _ _ event found
    trivial
  · intro cmd _ whole
    exact whole
  · intro offset
    trivial
  · trivial

/-- Below 2 GiB, the loop stays within its part of the buffer. -/
theorem scatWrites_inside (sendable : Sendable func.curBlksize maxReqSize items)
    (small : maxReqSize < 2 ^ 31) (bounceBuf : Int → UInt8) (result : Int) (offset : Nat) :
    Safe (Inside maxReqSize)
      (scatWrites func addr maxReqSize transfers fuel index items bounceBuf result offset) := by
  apply scatWrites_safe
  · intro items bounceBuf (sendable : Sendable func.curBlksize maxReqSize items)
    refine ⟨(packItems_padded _ small (Nat.zero_le _) rfl sendable.fits).1, ?_⟩
    rw [(sendable.packs bounceBuf).1]
    exact sendable.drop _
  · intro cmd _ _
    trivial
  · intro offset
    trivial
  · exact sendable

/-- Below 2 GiB, the loop sends every packet with its zeros if it succeeds. -/
theorem scatWrites_sent (sendable : Sendable func.curBlksize maxReqSize items)
    (small : maxReqSize < 2 ^ 31) (bounceBuf : Int → UInt8) (result : Int) (offset next : Nat)
    (done : (scatWrites func addr maxReqSize transfers fuel index items bounceBuf result
      offset).value = some (0, next)) :
    sentData (scatWrites func addr maxReqSize transfers fuel index items bounceBuf result
        offset).log =
      items.flatMap fun item => item.padded (align item.len.toNat func.curBlksize) := by
  induction fuel generalizing index items bounceBuf result offset with
  | zero => cases done
  | succ fuel ih =>
    cases items with
    | nil => rfl
    | cons item rest =>
      obtain ⟨-, value⟩ | ⟨bad, -, value⟩ | ⟨accepted, log, value⟩ := scatWrites_turn func addr
        maxReqSize transfers fuel index item rest bounceBuf result offset
      · rw [value] at done
        cases done
      · rw [value] at done
        exact absurd (congrArg Prod.fst (Option.some.inj done)) bad
      · obtain ⟨left, -⟩ := sendable.packs bounceBuf
        obtain ⟨-, bytes⟩ := packItems_padded (⟨0, 0, 0, bounceBuf⟩ : Packing) small
          (Nat.zero_le _) rfl sendable.fits
        have fills : Safe (fun event => ∃ pos size, event = .fill pos size)
            (packItems func.curBlksize maxReqSize (item :: rest) ⟨0, 0, 0, bounceBuf⟩) :=
          packItems_fills _ _
        rw [value, left] at done
        have more := ih (sendable.drop _) _ _ _ done
        rw [← left] at more
        rw [log, sentData_append, sentData_fills fills, sentData_append,
          cmd53_sent func addr _ _ Flat.length_load accepted, bytes, Flat.load_zero,
          List.nil_append, List.nil_append]
        refine (congrArg _ more).trans ?_
        rw [left, ← List.flatMap_append, packed_split]

end Writes

section Reads

theorem copied_append (first second : List ScatEvent) :
    copied (first ++ second) = copied first ++ copied second := List.filterMap_append

/-- Below 2 GiB, every packet gets the bytes at its own offset. -/
theorem copyPackets_copied {data : Nat → UInt8} {bounceBuf : Int → UInt8} {rxLen offset : Nat}
    (fits : ∀ item ∈ items, Fits blkSize maxReqSize item) (small : maxReqSize < 2 ^ 31)
    (within : offset + alignedLen blkSize items ≤ rxLen) :
    copied (copyPackets blkSize (Flat.fill bounceBuf 0 rxLen data) offset items).log =
      pieces (fun len => align len blkSize) data offset items := by
  induction items generalizing offset with
  | nil => rfl
  | cons item rest ih =>
    have first : Fits blkSize maxReqSize item := fits item List.mem_cons_self
    rw [alignedLen_cons] at within
    have grown := first.grown
    have behind : offset + align item.len.toNat blkSize + alignedLen blkSize rest ≤ rxLen := by
      omega
    have here : offset + item.len.toNat ≤ rxLen := by omega
    have others := ih (fun other found => fits other (List.mem_cons_of_mem _ found)) behind
    have own := Flat.load_fill_part bounceBuf 0 data here
    rw [Int.zero_add] at own
    rw [copyPackets, pieces, (first.sizes small).copy, own, ← others]
    rfl

private theorem copyPackets_copies (data : Int → UInt8) (offset : Nat) (items : List ScatItem) :
    Safe (fun event => ∃ bytes, event = .copyOut bytes)
      (copyPackets blkSize data offset items) := by
  induction items generalizing offset with
  | nil => exact Memory.safe_pure _
  | cons item rest ih =>
    rw [copyPackets, Memory.safe_bind]
    exact ⟨Memory.safe_emit.mpr ⟨_, rfl⟩, ih _⟩

variable {req : ScatReq} {rxLen : Nat} {bounceBuf : Int → UInt8}

/-- A read is refused, ends with a transfer that failed, or with one that went through and the
copies. -/
theorem scatRead_cases (func : SdioFunc) (req : ScatReq) (maxReqSize rxLen : Nat)
    (bounceBuf : Int → UInt8) (transfer : MmcTransfer) :
    let sent := amlSdioCmd53BufRw func req.addr rxLen false ((List.range rxLen).map transfer.data)
      transfer
    let copies := copyPackets func.curBlksize (Flat.fill bounceBuf 0 rxLen transfer.data) 0
      req.items
    let read := scatRead func req maxReqSize rxLen bounceBuf transfer
    (read.log = [] ∧ read.value = emsgsize) ∨
      (sent.value ≠ 0 ∧ read.log = .fill 0 rxLen :: sent.log ∧ read.value = sent.value) ∨
      (sent.value = 0 ∧ read.log = .fill 0 rxLen :: (sent.log ++ copies.log)) := by
  intro sent copies read
  have turned : read = if maxReqSize < rxLen then pure emsgsize
      else emit (.fill 0 rxLen) >>= fun _ => sent >>= fun result =>
        if result ≠ 0 then pure result else copies >>= fun _ => pure result := rfl
  rw [turned]
  by_cases large : maxReqSize < rxLen
  · left
    rw [if_pos large]
    exact ⟨rfl, rfl⟩
  · right
    rw [if_neg large]
    simp only [Memory.log_bind, Memory.value_bind, Memory.log_emit, List.singleton_append]
    by_cases accepted : sent.value = 0
    · right
      rw [if_neg (not_not.mpr accepted), Memory.log_bind, Memory.log_pure, List.append_nil]
      exact ⟨accepted, rfl⟩
    · left
      rw [if_pos accepted, Memory.log_pure, List.append_nil]
      exact ⟨accepted, rfl, rfl⟩

/-- Of a read, only the CMD53 and the writes to the buffer are to be looked at. -/
theorem scatRead_safe {ok : ScatEvent → Prop} (fills : ok (.fill 0 rxLen))
    (reads : ∀ cmd : Cmd53, cmd.Whole func.curBlksize → ok (.cmd53 cmd))
    (copies : ∀ bytes, ok (.copyOut bytes)) :
    Safe ok (scatRead func req maxReqSize rxLen bounceBuf transfer) := by
  have sized : ((List.range rxLen).map transfer.data).length = rxLen := by
    rw [List.length_map, List.length_range]
  have sends : Safe ok (amlSdioCmd53BufRw func req.addr rxLen false
      ((List.range rxLen).map transfer.data) transfer) := by
    intro event found
    rcases cmd53_cases func req.addr rxLen false transfer sized with
      ⟨none, -⟩ | ⟨cmd, log, -, -, whole⟩
    · rw [none] at found
      cases found
    · rw [log] at found
      rcases List.mem_cons.mp found with rfl | filled
      · exact reads cmd whole
      · rw [List.mem_singleton.mp filled]
        exact fills
  intro event found
  obtain ⟨log, -⟩ | ⟨-, log, -⟩ | ⟨-, log⟩ := scatRead_cases func req maxReqSize rxLen bounceBuf
    transfer
  · rw [log] at found
    cases found
  · rw [log] at found
    rcases List.mem_cons.mp found with rfl | sending
    · exact fills
    · exact sends event sending
  · rw [log] at found
    rcases List.mem_cons.mp found with rfl | later
    · exact fills
    · rcases List.mem_append.mp later with sending | copying
      · exact sends event sending
      · obtain ⟨bytes, rfl⟩ := copyPackets_copies _ _ _ event copying
        exact copies bytes

/-- Below 2 GiB, a read that succeeds gives every packet its bytes. -/
theorem scatRead_copied (fits : ∀ item ∈ req.items, Fits func.curBlksize maxReqSize item)
    (small : maxReqSize < 2 ^ 31) (whole : alignedLen func.curBlksize req.items ≤ rxLen)
    (done : (scatRead func req maxReqSize rxLen bounceBuf transfer).value = 0) :
    copied (scatRead func req maxReqSize rxLen bounceBuf transfer).log =
      pieces (fun len => align len func.curBlksize) transfer.data 0 req.items := by
  obtain ⟨-, value⟩ | ⟨bad, -, value⟩ | ⟨accepted, log⟩ := scatRead_cases func req maxReqSize rxLen
    bounceBuf transfer
  · rw [value] at done
    cases done
  · exact absurd (value.symm.trans done) bad
  · have sized : ((List.range rxLen).map transfer.data).length = rxLen := by
      rw [List.length_map, List.length_range]
    have all : 0 + alignedLen func.curBlksize req.items ≤ rxLen := by omega
    have none : copied (.fill 0 rxLen :: (amlSdioCmd53BufRw func req.addr rxLen false
        ((List.range rxLen).map transfer.data) transfer).log) = [] := by
      rcases cmd53_cases func req.addr rxLen false transfer sized with
        ⟨-, refused⟩ | ⟨cmd, sent, -, -, -⟩
      · rw [accepted] at refused
        cases refused
      · rw [sent]
        rfl
    rw [log, ← List.cons_append, copied_append, none]
    exact copyPackets_copied fits small all

end Reads

section Requests

variable {priv : SdioPriv} {req : ScatReq} {offset next : Nat}

def ScatReq.funcNum (req : ScatReq) : Nat := if req.hifWrite then 4 else 6

theorem scatMaxReqSize_le (priv : SdioPriv) (func : SdioFunc) :
    scatMaxReqSize priv func ≤ priv.bounceBufSize := by
  rw [scatMaxReqSize]
  split
  · exact Nat.le_refl _
  · rename_i fits
    exact Nat.not_lt.mp fits

/-- What is known of a request that passed the checks. -/
structure Carries (priv : SdioPriv) (req : ScatReq) (func : SdioFunc) (ttlLen : Nat) : Prop where
  known : priv.sdioFuncIf req.funcNum = some func
  sendable : Sendable func.curBlksize (scatMaxReqSize priv func) req.items
  whole : ttlLen = alignedLen func.curBlksize req.items
  within : ttlLen ≤ priv.bounceBufSize

private theorem validateScatReq_ok {func : SdioFunc}
    (known : priv.sdioFuncIf req.funcNum = some func)
    (valid : amlSdioValidateScatReq req func (scatMaxReqSize priv func) priv.bounceBufSize =
      .ok ttlLen) : Carries priv req func ttlLen := by
  rw [amlSdioValidateScatReq] at valid
  split at valid
  · cases valid
  · split at valid
    · cases valid
    · obtain ⟨whole, within, fits⟩ := validateItems_ok (Nat.zero_le _) valid
      rw [Nat.zero_add] at whole
      exact ⟨known, ⟨fits, Nat.lt_of_le_of_lt (scatMaxReqSize_le priv func) priv.sizeFits⟩, whole,
        within⟩

private theorem validateScatReq_error {func : SdioFunc} {error : Int}
    (refused : amlSdioValidateScatReq req func maxReqSize bounceSize = .error error) :
    error ≠ 0 := by
  rw [amlSdioValidateScatReq] at refused
  split at refused
  · cases refused
    decide
  · split at refused
    · cases refused
      decide
    · exact validateItems_error refused

/-- A request is refused without a trace, or passes the checks and is carried out. -/
theorem scatTransfer_cases (priv : SdioPriv) (req : ScatReq) (transfers : Nat → MmcTransfer)
    (offset : Nat) :
    (∃ error, error ≠ 0 ∧ scatTransfer priv req transfers offset = pure (some (error, offset))) ∨
      ∃ func ttlLen, Carries priv req func ttlLen ∧
        scatTransfer priv req transfers offset =
          if req.hifWrite then
            scatWrites func req.addr (scatMaxReqSize priv func) transfers (req.items.length + 1) 0
              req.items priv.bounceBuf 0 offset
          else
            scatRead func req (scatMaxReqSize priv func) ttlLen priv.bounceBuf (transfers 0) >>=
              fun result => pure (some (result, offset)) := by
  rw [scatTransfer]
  cases known : priv.sdioFuncIf (if req.hifWrite then 4 else 6) with
  | none => exact .inl ⟨enodev, by decide, rfl⟩
  | some func =>
    dsimp only
    split
    · exact .inl ⟨einval, by decide, rfl⟩
    · split
      · exact .inl ⟨enomem, by decide, rfl⟩
      · cases valid : amlSdioValidateScatReq req func (scatMaxReqSize priv func)
            priv.bounceBufSize with
        | error error => exact .inl ⟨error, validateScatReq_error valid, rfl⟩
        | ok ttlLen => exact .inr ⟨func, ttlLen, validateScatReq_ok known valid, rfl⟩

/-- How a request ought to be completed. -/
def ScatReq.completion (req : ScatReq) : List ScatEvent :=
  if req.hifAsynchronous then
    (if req.hasComplete then (List.range req.scatCount.toNat).map .callback else []) ++ [.freed]
  else []

/-- What holds of every request: it ends, its transfers have whole blocks, and it is completed once
if it is asynchronous. In a buffer below 2 GiB every write lies within it, and blocks of a power of
two carry the packets, each in room of its own. The offset moves by the pages of a request that
succeeds if no transfer takes it round more than once. -/
structure ScatReqRight (priv : SdioPriv) (req : ScatReq) (transfers : Nat → MmcTransfer)
    (offset : Nat) : Prop where
  ended : ∃ result next, (amlSdioScatReqRw (some priv) (some req) transfers offset).value =
    some (result, next)
  whole : ∀ cmd, .cmd53 cmd ∈ (amlSdioScatReqRw (some priv) (some req) transfers offset).log →
    ∃ func, priv.sdioFuncIf req.funcNum = some func ∧ cmd.Whole func.curBlksize
  completed : completions (amlSdioScatReqRw (some priv) (some req) transfers offset).log =
    req.completion
  inside : priv.bounceBufSize < 2 ^ 31 → Safe (Inside priv.bounceBufSize)
    (amlSdioScatReqRw (some priv) (some req) transfers offset)
  moved : ∀ func next, priv.sdioFuncIf 4 = some func → req.hifWrite = true →
    (amlSdioScatReqRw (some priv) (some req) transfers offset).value = some (0, next) →
    offset < txAddresstableNum →
    RoundOnce func.curBlksize (scatMaxReqSize priv func) (req.items.length + 1) req.items offset →
    next = (offset + itemPages req.items) % txAddresstableNum
  sent : ∀ func next shift, priv.sdioFuncIf 4 = some func → req.hifWrite = true →
    (amlSdioScatReqRw (some priv) (some req) transfers offset).value = some (0, next) →
    priv.bounceBufSize < 2 ^ 31 → func.curBlksize = 2 ^ shift →
    sentData (amlSdioScatReqRw (some priv) (some req) transfers offset).log =
      req.items.flatMap fun item => item.padded (wholeBlocks func.curBlksize item.len.toNat)
  received : ∀ func next shift, priv.sdioFuncIf 6 = some func → req.hifWrite = false →
    (amlSdioScatReqRw (some priv) (some req) transfers offset).value = some (0, next) →
    priv.bounceBufSize < 2 ^ 31 → func.curBlksize = 2 ^ shift →
    copied (amlSdioScatReqRw (some priv) (some req) transfers offset).log =
      pieces (wholeBlocks func.curBlksize) (transfers 0).data 0 req.items

private theorem scatFinish_log (req : ScatReq) : (scatFinish req).log = req.completion := by
  rw [scatFinish, ScatReq.completion]
  split
  · rw [amlSdioScatComplete, Memory.log_bind, scatCallbacks]
    split
    · rw [Memory.log_forM_emit]
      rfl
    · rfl
  · rfl

theorem completes_completion (req : ScatReq) :
    ∀ event ∈ req.completion, event.completes = true := by
  intro event found
  rw [ScatReq.completion] at found
  split at found
  · rcases List.mem_append.mp found with calls | last
    · split at calls
      · obtain ⟨index, -, rfl⟩ := List.mem_map.mp calls
        rfl
      · cases calls
    · rw [List.mem_singleton.mp last]
      rfl
  · cases found

/-- Only the completion completes a request, and does nothing else. -/
theorem completion_apart {log : List ScatEvent} (pending : ∀ event ∈ log, Pending blkSize event)
    (req : ScatReq) :
    completions (log ++ req.completion) = req.completion ∧
      sentData (log ++ req.completion) = sentData log ∧
      copied (log ++ req.completion) = copied log := by
  have finishing := completes_completion req
  refine ⟨?_, ?_, ?_⟩
  · have none : log.filter ScatEvent.completes = [] := by
      apply List.filter_eq_nil_iff.mpr
      intro event found
      have unfinished := pending event found
      cases event <;> first | exact Bool.false_ne_true | exact unfinished.elim
    rw [completions, List.filter_append, none, List.nil_append]
    exact List.filter_eq_self.mpr finishing
  · have none : sentData req.completion = [] := by
      apply List.flatMap_eq_nil_iff.mpr
      intro event found
      have closing := finishing event found
      cases event <;> first | rfl | cases closing
    rw [sentData_append, none, List.append_nil]
  · have none : copied req.completion = [] := by
      apply List.filterMap_eq_nil_iff.mpr
      intro event found
      have closing := finishing event found
      cases event <;> first | rfl | cases closing
    rw [copied_append, none, List.append_nil]

/-- The transfers, and behind them the completion. -/
theorem scatReqRw_eq (priv : SdioPriv) (req : ScatReq) (transfers : Nat → MmcTransfer)
    (offset : Nat) :
    (amlSdioScatReqRw (some priv) (some req) transfers offset).value =
        (scatTransfer priv req transfers offset).value ∧
      (amlSdioScatReqRw (some priv) (some req) transfers offset).log =
        (scatTransfer priv req transfers offset).log ++ req.completion := by
  refine ⟨rfl, ?_⟩
  rw [← scatFinish_log]
  show _ ++ (_ ++ []) = _
  rw [List.append_nil]

/-- What the transfers of a request do before it is completed. -/
structure Carried (priv : SdioPriv) (req : ScatReq) (transfers : Nat → MmcTransfer)
    (offset : Nat) : Prop where
  ended : ∃ result next, (scatTransfer priv req transfers offset).value = some (result, next)
  pending : ∃ blkSize, (∀ event ∈ (scatTransfer priv req transfers offset).log,
    Pending blkSize event) ∧
    ((scatTransfer priv req transfers offset).log = [] ∨
      ∃ func, priv.sdioFuncIf req.funcNum = some func ∧ blkSize = func.curBlksize)
  inside : priv.bounceBufSize < 2 ^ 31 → Safe (Inside priv.bounceBufSize)
    (scatTransfer priv req transfers offset)

theorem scatTransfer_carried (priv : SdioPriv) (req : ScatReq) (transfers : Nat → MmcTransfer)
    (offset : Nat) : Carried priv req transfers offset := by
  rcases scatTransfer_cases priv req transfers offset with
    ⟨error, -, refused⟩ | ⟨func, ttlLen, checked, carried⟩
  · refine ⟨⟨error, offset, by rw [refused]; rfl⟩, ⟨0, ?_, .inl (by rw [refused]; rfl)⟩, ?_⟩
    · rw [refused]
      exact Memory.safe_pure _
    · intro _
      rw [refused]
      exact Memory.safe_pure _
  · by_cases write : req.hifWrite = true
    · rw [if_pos write] at carried
      obtain ⟨last, next, value, -⟩ := scatWrites_ends checked.sendable (Nat.lt_succ_self _)
        priv.bounceBuf 0 offset
      refine ⟨⟨last, next, by rw [carried, value]⟩, ⟨func.curBlksize, ?_, ?_⟩, ?_⟩
      · rw [carried]
        exact scatWrites_pending _ _ _
      · exact .inr ⟨func, checked.known, rfl⟩
      · intro small
        have narrow := scatMaxReqSize_le priv func
        rw [carried]
        intro event found
        exact (scatWrites_inside checked.sendable (by omega) _ _ _ event found).mono narrow
    · rw [if_neg write] at carried
      refine ⟨⟨_, offset, by rw [carried]; rfl⟩, ⟨func.curBlksize, ?_, ?_⟩, ?_⟩
      · intro event found
        rw [carried, Memory.log_bind, Memory.log_pure, List.append_nil] at found
        refine scatRead_safe ?_ ?_ ?_ event found
        · trivial
        · exact fun cmd whole => whole
        · exact fun bytes => trivial
      · exact .inr ⟨func, checked.known, rfl⟩
      · intro _ event found
        rw [carried, Memory.log_bind, Memory.log_pure, List.append_nil] at found
        refine scatRead_safe ?_ ?_ ?_ event found
        · have within := checked.within
          rw [Inside]
          omega
        · exact fun cmd _ => trivial
        · exact fun bytes => trivial

theorem Carries.aligned {func : SdioFunc} {shift : Nat} (checked : Carries priv req func ttlLen)
    (power : func.curBlksize = 2 ^ shift) :
    ∀ item ∈ req.items,
      align item.len.toNat func.curBlksize = wholeBlocks func.curBlksize item.len.toNat := by
  intro item found
  obtain ⟨some, grown, -⟩ := checked.sendable.fits item found
  rw [power] at grown ⊢
  exact align_eq shift _ some grown

private theorem pieces_congr {room other : Nat → Nat} (data : Nat → UInt8) (offset : Nat)
    (same : ∀ item ∈ items, room item.len.toNat = other item.len.toNat) :
    pieces room data offset items = pieces other data offset items := by
  induction items generalizing offset with
  | nil => rfl
  | cons item rest ih =>
    rw [pieces, pieces, same item List.mem_cons_self,
      ih _ fun other found => same other (List.mem_cons_of_mem _ found)]

/-- A request that succeeds passed the checks, with the function that it is for. -/
theorem scatTransfer_done {func : SdioFunc} (known : priv.sdioFuncIf req.funcNum = some func)
    (done : (scatTransfer priv req transfers offset).value = some (0, next)) :
    ∃ ttlLen, Carries priv req func ttlLen ∧
      scatTransfer priv req transfers offset =
        if req.hifWrite then
          scatWrites func req.addr (scatMaxReqSize priv func) transfers (req.items.length + 1) 0
            req.items priv.bounceBuf 0 offset
        else
          scatRead func req (scatMaxReqSize priv func) ttlLen priv.bounceBuf (transfers 0) >>=
            fun result => pure (some (result, offset)) := by
  rcases scatTransfer_cases priv req transfers offset with
    ⟨error, bad, refused⟩ | ⟨other, ttlLen, checked, carried⟩
  · rw [refused] at done
    exact absurd (congrArg Prod.fst (Option.some.inj done)) bad
  · have same : other = func := Option.some.inj (checked.known.symm.trans known)
    subst same
    exact ⟨ttlLen, checked, carried⟩

/-- A write that succeeds moves the offset by its pages. -/
theorem write_moves {func : SdioFunc} (known : priv.sdioFuncIf 4 = some func)
    (write : req.hifWrite = true)
    (done : (scatTransfer priv req transfers offset).value = some (0, next))
    (inside : offset < txAddresstableNum)
    (once : RoundOnce func.curBlksize (scatMaxReqSize priv func) (req.items.length + 1) req.items
      offset) :
    next = (offset + itemPages req.items) % txAddresstableNum := by
  have own : priv.sdioFuncIf req.funcNum = some func := by rwa [ScatReq.funcNum, if_pos write]
  obtain ⟨ttlLen, checked, carried⟩ := scatTransfer_done own done
  rw [if_pos write] at carried
  obtain ⟨last, moved, value, pages⟩ := scatWrites_ends checked.sendable (Nat.lt_succ_self _)
    priv.bounceBuf 0 offset
  rw [carried, value] at done
  cases done
  exact pages rfl inside once

/-- A write that succeeds sends its packets, each with all of its last block. -/
theorem write_sends {func : SdioFunc} {shift : Nat} (known : priv.sdioFuncIf 4 = some func)
    (write : req.hifWrite = true)
    (done : (scatTransfer priv req transfers offset).value = some (0, next))
    (small : priv.bounceBufSize < 2 ^ 31) (power : func.curBlksize = 2 ^ shift) :
    sentData (scatTransfer priv req transfers offset).log =
      req.items.flatMap fun item => item.padded (wholeBlocks func.curBlksize item.len.toNat) := by
  have own : priv.sdioFuncIf req.funcNum = some func := by rwa [ScatReq.funcNum, if_pos write]
  obtain ⟨ttlLen, checked, carried⟩ := scatTransfer_done own done
  have narrow := scatMaxReqSize_le priv func
  rw [if_pos write] at carried
  rw [carried] at done ⊢
  rw [scatWrites_sent checked.sendable (by omega) _ _ _ _ done]
  apply List.flatMap_congr
  intro item found
  rw [checked.aligned power item found]

/-- A read that succeeds gives every packet the bytes from its own block on. -/
theorem read_receives {func : SdioFunc} {shift : Nat} (known : priv.sdioFuncIf 6 = some func)
    (read : req.hifWrite = false)
    (done : (scatTransfer priv req transfers offset).value = some (0, next))
    (small : priv.bounceBufSize < 2 ^ 31) (power : func.curBlksize = 2 ^ shift) :
    copied (scatTransfer priv req transfers offset).log =
      pieces (wholeBlocks func.curBlksize) (transfers 0).data 0 req.items := by
  have other : ¬ req.hifWrite = true := by simp [read]
  have own : priv.sdioFuncIf req.funcNum = some func := by rwa [ScatReq.funcNum, if_neg other]
  obtain ⟨ttlLen, checked, carried⟩ := scatTransfer_done own done
  have narrow := scatMaxReqSize_le priv func
  rw [if_neg other] at carried
  rw [carried] at done ⊢
  rw [Memory.log_bind, Memory.log_pure, List.append_nil,
    scatRead_copied checked.sendable.fits (by omega) (Nat.le_of_eq checked.whole.symm)
      (congrArg Prod.fst (Option.some.inj done))]
  exact pieces_congr _ _ (checked.aligned power)

/-- Every request ends, in transfers of whole blocks, and is completed as it ought to be; what is
sent and received is that of its packets under the conditions that the driver keeps. -/
theorem scat_req_right (priv : SdioPriv) (req : ScatReq) (transfers : Nat → MmcTransfer)
    (offset : Nat) : ScatReqRight priv req transfers offset := by
  have carried : Carried priv req transfers offset := scatTransfer_carried priv req transfers offset
  obtain ⟨blkSize, pending, own⟩ := carried.pending
  obtain ⟨value, log⟩ := scatReqRw_eq priv req transfers offset
  obtain ⟨completing, sending, copying⟩ := completion_apart pending req
  refine ⟨?_, ?_, ?_, ?_, ?_, ?_, ?_⟩
  · rw [value]
    exact carried.ended
  · intro cmd found
    rw [log] at found
    rcases List.mem_append.mp found with here | finishing
    · rcases own with none | ⟨func, known, same⟩
      · rw [none] at here
        cases here
      · exact ⟨func, known, same ▸ pending _ here⟩
    · exact absurd (completes_completion req _ finishing) Bool.false_ne_true
  · rw [log, completing]
  · intro small event found
    rw [log] at found
    rcases List.mem_append.mp found with here | finishing
    · exact carried.inside small event here
    · have closing := completes_completion req event finishing
      cases event with
      | fill pos size => cases closing
      | cmd53 cmd => trivial
      | pageOffset offset => trivial
      | copyOut data => trivial
      | callback index => trivial
      | freed => trivial
  · intro func next known write done inside once
    exact write_moves known write (value ▸ done) inside once
  · intro func next shift known write done small power
    rw [log, sending]
    exact write_sends known write (value ▸ done) small power
  · intro func next shift known read done small power
    rw [log, copying]
    exact read_receives known read (value ▸ done) small power

def plainPriv (blkSize bounceSize : Nat) (fits : bounceSize < 2 ^ 32) : SdioPriv where
  sdioFuncIf _ := some ⟨4, blkSize, 511, bounceSize⟩
  hasBounce := true
  bounceBufSize := bounceSize
  bounceBuf _ := 0
  sizeFits := fits

def plainWrite (packets : List (BitVec 32 × BitVec 32)) (few : packets.length ≤ 34) : ScatReq where
  addr := 0
  hifWrite := true
  hifAsynchronous := true
  hasComplete := true
  scatCount := packets.length
  scatList := (packets.map fun packet => ⟨packet.1, packet.2, some fun _ => 1⟩) ++
    List.replicate (34 - packets.length) ⟨0, 0, none⟩
  whole := by
    rw [List.length_append, List.length_map, List.length_replicate, sdioMaxSgEntries]
    omega

def allThrough : Nat → MmcTransfer := fun _ => ⟨0, 0, fun _ => 0⟩

/-- Two packets are sent in blocks of eight bytes, and read into. -/
example :
    let write := plainWrite [(5, 1), (9, 2)] (by decide)
    let sent := amlSdioScatReqRw (some (plainPriv 8 64 (by decide))) (some write) allThrough 7
    let read := amlSdioScatReqRw (some (plainPriv 8 64 (by decide)))
      (some { write with hifWrite := false }) (fun _ => ⟨0, 0, fun index => .ofNat index⟩) 7
    sent.value = some (0, 10) ∧
      sentData sent.log = [1, 1, 1, 1, 1, 0, 0, 0, 1, 1, 1, 1, 1, 1, 1, 1, 1, 0, 0, 0, 0, 0, 0, 0] ∧
      read.value = some (0, 7) ∧
      [.copyOut [0, 1, 2, 3, 4], .copyOut [8, 9, 10, 11, 12, 13, 14, 15, 16], .callback 0,
        .callback 1, .freed] <:+ read.log := by
  decide +kernel

/-- Blocks of 24 bytes let packets through that are not sent in room of their own blocks, 512 pages
take the offset round twice, and a length of 2 GiB is a huge one to `memcpy`. -/
theorem scat_req_departs :
    let uneven := amlSdioScatReqRw (some (plainPriv 24 4096 (by decide)))
      (some (plainWrite [(24, 1), (30, 1)] (by decide))) allThrough 0
    let round := amlSdioScatReqRw (some (plainPriv 8 4096 (by decide)))
      (some (plainWrite [(5, 512)] (by decide))) allThrough 0
    let huge := amlSdioScatReqRw (some (plainPriv (2 ^ 31) (2 ^ 31) (by decide)))
      (some (plainWrite [(2 ^ 31, 1)] (by decide))) allThrough 0
    (uneven.value = some (0, 2) ∧ sentData uneven.log ≠
        (plainWrite [(24, 1), (30, 1)] (by decide)).items.flatMap fun item =>
          item.padded (wholeBlocks 24 item.len.toNat)) ∧
      round.value = some (0, 256) ∧
      ScatEvent.fill 0 (2 ^ 64 - 2 ^ 31) ∈ huge.log := by
  decide +kernel

end Requests

end W522a.Hal
