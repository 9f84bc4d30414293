import Mathlib.Algebra.Group.Int.Defs
import Mathlib.Algebra.GroupWithZero.Nat
import W522a.Lib.Traced
import W522a.Lib.Run

/-!
The transfer of TX descriptors to the chip in scatter requests. `remain_mpdu_num` is what a request
leaves of its descriptors, and 0 between two calls since every descriptor fits one request.
-/

namespace W522a.Hal

open Memory (Traced emit)

@[simp] abbrev sgNumMax : Nat := 16

@[simp] abbrev sdioMaxBlkCnt : Nat := 511

@[simp] abbrev func4Blksize : Nat := 512

@[simp] abbrev txAddresstableNum : Nat := 256

def circleAddition2 (a b l : Nat) : Nat :=
  let sum := (a + b) % 2 ^ 32
  if sum < l then sum else sum - l

theorem circleAddition2_once {a b l : Nat} (once : b + a < 2 * l) (small : 2 * l < 2 ^ 32) :
    circleAddition2 (a % 2 ^ 32) b l = (b + a) % l := by
  have fits : (a % 2 ^ 32 + b) % 2 ^ 32 = b + a := by omega
  rw [circleAddition2, fits]
  split
  · rename_i below
    exact (Nat.mod_eq_of_lt below).symm
  · rename_i round
    rw [Nat.mod_eq_sub_mod (Nat.not_lt.mp round)]
    exact (Nat.mod_eq_of_lt (by omega)).symm

/-- The part of a TX descriptor that a scatter request needs: `HW_MPDU_LEN_GET` of its flags, and
`PageNum`. -/
structure TxDesc where
  mpduLen : Nat
  pageNum : Nat
  deriving DecidableEq

/-- The host. The block size of a function is at most 512, and `txdata` stands behind the other
fields of a descriptor. -/
structure ScatConf where
  curBlksize : Nat
  maxReqSize : Nat
  dataOffset : Nat
  blkFits : curBlksize ≤ func4Blksize
  behind : 0 < dataOffset

def ScatConf.maxSgSize (conf : ScatConf) : Nat :=
  min (conf.curBlksize * sdioMaxBlkCnt) conf.maxReqSize

/-- `sg_data_size`, aligned to whole blocks -/
def ScatConf.sgDataSize (conf : ScatConf) (desc : TxDesc) : Nat :=
  (desc.mpduLen + conf.dataOffset + (func4Blksize - 1)) / func4Blksize * func4Blksize

/-- The errors of a command and of its data, 0 for none. -/
structure Outcome where
  cmdError : Int
  dataError : Int
  deriving DecidableEq

/-- A request to the host, and how it went. -/
structure ScatRequest where
  sgList : List TxDesc
  blkcnt : Nat
  outcome : Outcome
  deriving DecidableEq

/-- The counters that outlive a call. -/
structure TxCounters where
  sendPageNum : Nat
  txPageOffset : Nat
  deriving DecidableEq

/-- The loop of `hi_sdio_setup_scat_data`: the descriptors that go into the request. -/
def scatEntries (conf : ScatConf) : Nat → List TxDesc → List TxDesc
  | _, [] => []
  | sgTotalLen, desc :: rest =>
    if conf.maxSgSize - sgTotalLen < conf.sgDataSize desc then []
    else desc :: scatEntries conf (sgTotalLen + conf.sgDataSize desc) rest

def ScatConf.blocks (conf : ScatConf) (descs : List TxDesc) : Nat :=
  (descs.map fun desc => conf.sgDataSize desc / func4Blksize).sum

def pages (descs : List TxDesc) : Nat := (descs.map TxDesc.pageNum).sum

/-- `hi_sdio_setup_scat_data`: the number of blocks and the entries. Without a descriptor it returns
-1, which is kept in an `unsigned int`. -/
def hiSdioSetupScatData (conf : ScatConf) (descs : List TxDesc) : Nat × List TxDesc :=
  if descs = [] then (2 ^ 32 - 1, [])
  else (conf.blocks (scatEntries conf 0 descs), scatEntries conf 0 descs)

/-- A request is tried again while its command fails and the counter `loop` is at most 4; `left` is
`5 - loop`. The result is what `aml_sdio_scat_rw` returns last, which is the error of the
command alone. -/
def scatTries (outcomes : Nat → Outcome) (sgList : List TxDesc) (blkcnt : Nat) :
    Nat → Nat → Traced ScatRequest (Int × Nat × Nat)
  | 0, index => do
    emit ⟨sgList, blkcnt, outcomes index⟩
    pure ((outcomes index).cmdError, index + 1, 0)
  | left + 1, index => do
    emit ⟨sgList, blkcnt, outcomes index⟩
    if (outcomes index).cmdError = 0 then pure (0, index + 1, left + 1)
    else scatTries outcomes sgList blkcnt left (index + 1)

/-- The descriptors of a call, each of which fits a request, and how its transfers go. -/
structure ScatCall (conf : ScatConf) where
  descs : List TxDesc
  outcomes : Nat → Outcome
  fits : ∀ desc ∈ descs, conf.sgDataSize desc ≤ conf.maxSgSize

/-- The loop of `hi_tx_frame`, over the descriptors that are left: its result and the counters, or
nothing if `fuel` turns are not enough. -/
def hiTxFrameLoop (conf : ScatConf) (outcomes : Nat → Outcome) :
    Nat → List TxDesc → Nat → Nat → TxCounters → Traced ScatRequest (Option (Int × TxCounters))
  | 0, _, _, _, _ => pure none
  | fuel + 1, descs, left, index, counters => do
    let (blkcnt, sgList) := hiSdioSetupScatData conf (descs.take sgNumMax)
    let counters :=
      { counters with sendPageNum := (counters.sendPageNum + pages sgList) % 2 ^ 32 }
    if blkcnt = 0 then pure (some (-1, counters))
    else
      let (ret, index, left) ← scatTries outcomes sgList blkcnt left index
      let counters : TxCounters :=
        if ret = 0 then
          { sendPageNum := 0
            txPageOffset :=
              circleAddition2 counters.sendPageNum counters.txPageOffset txAddresstableNum }
        else counters
      if descs.drop sgList.length = [] then pure (some (ret, counters))
      else hiTxFrameLoop conf outcomes fuel (descs.drop sgList.length) left index counters

def hiTxFrame {conf : ScatConf} (counters : TxCounters) (call : ScatCall conf) :
    Traced ScatRequest (Option (Int × TxCounters)) :=
  hiTxFrameLoop conf call.outcomes (max call.descs.length 1) call.descs 5 0 counters

def txFrameStep {conf : ScatConf} (counters : TxCounters) (call : ScatCall conf) : TxCounters :=
  ((hiTxFrame counters call).value.map Prod.snd).getD counters

end W522a.Hal
