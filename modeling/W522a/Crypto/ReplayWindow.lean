import W522a.Crypto.Pn
import W522a.Lib.PairWindow
import W522a.Lib.Run

/-!
The receive side of the packet numbers of one interface: a counter for each station and one for the
group, and one window for all stations and one for the group.
-/

namespace W522a.Crypto

@[simp] abbrev maxPnWindow : Nat := 62

/-- Half of `MAX_PN_WINDOW`, the places in one word of a window. -/
@[simp] abbrev pnHalf : Nat := maxPnWindow / 2

/-- `pn_window[type]` of an interface. -/
abbrev PnWindow := PairWindow.Words

/-- The loops of `hal_set_pn_win`: the lowest run of ones, or one if there is none. A word of 64
bits has its ones counted in at most 64 turns. -/
def countPnWin (pnWin : PnWindow) : Nat :=
  let offset := PairWindow.ones 64 pnWin.low
  let offset := if offset < maxPnWindow / 2 then offset else offset + PairWindow.ones 64 pnWin.high
  if offset = 0 then 1 else offset

/-- `hal_set_pn_win`: moves the window past its lowest run of ones, or by one, and says how far. -/
def halSetPnWin (pnWin : PnWindow) : Nat × PnWindow :=
  let offset := countPnWin pnWin
  if 0 < offset ∧ offset < maxPnWindow / 2 then
    let tmp := pnWin.high &&& (1 <<< offset - 1)
    (offset,
      { low := pnWin.low >>> offset ||| tmp <<< (maxPnWindow / 2 - offset)
        high := pnWin.high >>> offset })
  else if maxPnWindow / 2 ≤ offset ∧ offset < maxPnWindow then
    (offset, ⟨pnWin.high >>> (offset - maxPnWindow / 2), 0⟩)
  else (offset, ⟨0, 0⟩)

def halCheckDupPn (pnWin : PnWindow) (repcntDiff : Nat) : Nat :=
  if 0 < repcntDiff ∧ repcntDiff ≤ maxPnWindow / 2 then
    pnWin.low &&& 1 <<< (repcntDiff - 1)
  else if maxPnWindow / 2 < repcntDiff ∧ repcntDiff ≤ maxPnWindow then
    pnWin.high &&& 1 <<< (repcntDiff - maxPnWindow / 2 - 1)
  else 0

/-- The distance of two counters, in the 32 bits of `repcnt_diff`. -/
def repcntDiff (my rx : UInt64) : Nat := (rx - my).toNat % 2 ^ 32

/-- A counter with the window it goes with. -/
structure Replay where
  counter : Pn
  window : PnWindow
  deriving DecidableEq, Repr

/-- `hal_set_pn_win`, with the counter moved along. -/
def slideReplay (replay : Replay) : Replay :=
  let slid := halSetPnWin replay.window
  { counter := { replay.counter with word0 := replay.counter.word0 + UInt64.ofNat slid.1 }
    window := slid.2 }

/-- A distance is recorded in the window, and the window slid if it is the next one. -/
def placeReplay (diff : Nat) (replay : Replay) : Replay :=
  if 0 < diff ∧ diff ≤ maxPnWindow / 2 then
    let replay := { replay with
      window := { replay.window with low := replay.window.low ||| 1 <<< (diff - 1) } }
    if diff = 1 then slideReplay replay else replay
  else if maxPnWindow / 2 < diff ∧ diff ≤ maxPnWindow then
    { replay with
      window := { replay.window with
        high := replay.window.high ||| 1 <<< (diff - maxPnWindow / 2 - 1) } }
  else replay

/-- The end of the TKIP and CCMP case of `hal_chk_replay_cnt`: a number that is no duplicate is
recorded, after the window was slid once for one that is too far ahead. -/
def recordReplay (rx : UInt64) (replay : Replay) : Replay :=
  let diff := repcntDiff replay.counter.word0 rx
  if maxPnWindow < diff then
    let replay := slideReplay replay
    placeReplay (repcntDiff replay.counter.word0 rx) replay
  else placeReplay diff replay

/-- The first number is taken for the very next one. -/
def primeReplay (rx : UInt64) (replay : Replay) : Replay :=
  if replay.counter.word0 = 0 ∧ 0 < rx then
    { replay with counter := { replay.counter with word0 := rx - 1 } }
  else replay

/-- The TKIP and CCMP case of `hal_chk_replay_cnt`. -/
def chkReplayWindow (rxPn : Pn) (replay : Replay) : Bool × Replay :=
  if replay.counter.word0 < rxPn.word0 then
    let replay := primeReplay rxPn.word0 replay
    if replay.counter.word0 = rxPn.word0 - 1 ∧ replay.window.low = 0 ∧ replay.window.high = 0 then
      (true, { replay with counter := rxPn })
    else if halCheckDupPn replay.window (repcntDiff replay.counter.word0 rxPn.word0) ≠ 0 then
      (false, replay)
    else (true, recordReplay rxPn.word0 replay)
  else (false, replay)

/-- The WAPI case of `hal_chk_replay_cnt`. -/
def chkReplayWapi (rxPn : Pn) (replay : Replay) : Bool × Replay :=
  if halWpiChkPnIncrease rxPn replay.counter then (true, { replay with counter := rxPn })
  else (false, replay)

/-- `RxDecryptType`; the values that number no packets are one here. -/
inductive RxDecryptType where
  | tkip
  | ccmp
  | wapi
  | other
  deriving DecidableEq, Repr

/-- The switch of `hal_chk_replay_cnt`. -/
def chkReplay (decryptType : RxDecryptType) (rxPn : Pn) (replay : Replay) : Bool × Replay :=
  match decryptType with
  | .tkip | .ccmp => chkReplayWindow rxPn replay
  | .wapi => chkReplayWapi rxPn replay
  | .other => (true, replay)

/-- The counters `uRepCnt` and `mRepCnt` of one interface and its windows. -/
structure ReplayVif where
  uRepCnt : Nat → Pn
  mRepCnt : Pn
  ucastWindow : PnWindow
  mcastWindow : PnWindow

/-- Whom a frame comes from: a station, or anyone if it is for the group. -/
inductive PnSource where
  | station (staId : Nat)
  | group
  deriving DecidableEq, Repr

namespace ReplayVif

/-- The counter and the window that the frames of a source are checked with. -/
def replay (vif : ReplayVif) : PnSource → Replay
  | .station staId => ⟨vif.uRepCnt staId, vif.ucastWindow⟩
  | .group => ⟨vif.mRepCnt, vif.mcastWindow⟩

def put (vif : ReplayVif) (source : PnSource) (replay : Replay) : ReplayVif :=
  match source with
  | .station staId =>
    { vif with
      uRepCnt := Function.update vif.uRepCnt staId replay.counter
      ucastWindow := replay.window }
  | .group => { vif with mRepCnt := replay.counter, mcastWindow := replay.window }

end ReplayVif

/-- `hal_chk_replay_cnt`; `get_stationid` finds the stations of a list. -/
def halChkReplayCnt (stations : List Nat) (decryptType : RxDecryptType) (source : PnSource)
    (rxPn : Pn) (vif : ReplayVif) : Bool × ReplayVif :=
  match source with
  | .station staId =>
    if staId ∈ stations then
      let result := chkReplay decryptType rxPn (vif.replay source)
      (result.1, vif.put source result.2)
    else (false, vif)
  | .group =>
    let result := chkReplay decryptType rxPn (vif.replay source)
    (result.1, vif.put source result.2)

/-- A counter and a window at zero: `hal_urep_cnt_init` or `hal_mrep_cnt_init` with
`hal_pn_win_init`, as installing a key calls them. -/
def replayInit : Replay := ⟨⟨0, 0⟩, ⟨0, 0⟩⟩

/-- What happens on the interface: a frame arrives, or a key is installed for a source that is
known. -/
inductive ReplayEvent where
  | frame (source : PnSource) (rxPn : Pn)
  | setKey (source : PnSource)

/-- The ciphers that number their packets. -/
inductive PnCipher where
  | tkip
  | ccmp
  | wapi
  deriving DecidableEq, Repr

def PnCipher.decryptType : PnCipher → RxDecryptType
  | .tkip => .tkip
  | .ccmp => .ccmp
  | .wapi => .wapi

/-- The number of a packet: TKIP and CCMP have one word of it. -/
def pnNumber (cipher : PnCipher) (pn : Pn) : Nat :=
  match cipher with
  | .wapi => pn.value
  | _ => pn.word0.toNat

/-- An interface with the numbers accepted from each source since its key was installed. -/
structure ReplayState where
  vif : ReplayVif
  accepted : PnSource → List Nat

/-- The stations of an interface and the cipher in use on it. -/
structure ReplayEnv where
  stations : List Nat
  cipher : PnCipher

/-- `get_stationid` finds the source. -/
def ReplayEnv.Knows (env : ReplayEnv) : PnSource → Prop
  | .station staId => staId ∈ env.stations
  | .group => True

instance (env : ReplayEnv) : DecidablePred env.Knows
  | .station staId => inferInstanceAs (Decidable (staId ∈ env.stations))
  | .group => inferInstanceAs (Decidable True)

/-- `hal_chk_replay_cnt` on a frame of the interface. -/
def ReplayEnv.check (env : ReplayEnv) (source : PnSource) (rxPn : Pn) (vif : ReplayVif) :
    Bool × ReplayVif :=
  halChkReplayCnt env.stations env.cipher.decryptType source rxPn vif

def replayStep (env : ReplayEnv) (state : ReplayState) : ReplayEvent → ReplayState
  | .frame source rxPn =>
    let result := env.check source rxPn state.vif
    { vif := result.2
      accepted :=
        if result.1 then
          Function.update state.accepted source
            (pnNumber env.cipher rxPn :: state.accepted source)
        else state.accepted }
  | .setKey source =>
    if env.Knows source then
      { vif := state.vif.put source replayInit
        accepted := Function.update state.accepted source [] }
    else state

/-- The interface with all counters initialised. -/
def replayStart : ReplayState where
  vif := ⟨fun _ => ⟨0, 0⟩, ⟨0, 0⟩, ⟨0, 0⟩, ⟨0, 0⟩⟩
  accepted := fun _ => []

def replayBase (env : ReplayEnv) (state : ReplayState) (source : PnSource) : Nat :=
  pnNumber env.cipher (state.vif.replay source).counter

def Represents (base : Nat) (window : PnWindow) (accepted : List Nat) : Prop :=
  ∀ number, base < number →
    (number ∈ accepted ↔ PairWindow.holds pnHalf window (number - base - 1) = true)

/-- What a step is meant to keep: no number is accepted twice, a new one above the base is
accepted, and windows stand for what was accepted. -/
structure ReplayLaw (env : ReplayEnv) (state : ReplayState) (event : ReplayEvent) : Prop where
  once : ∀ source rxPn, event = .frame source rxPn →
    (env.check source rxPn state.vif).1 = true →
      pnNumber env.cipher rxPn ∉ state.accepted source
  admits : ∀ source rxPn, event = .frame source rxPn → env.Knows source →
    pnNumber env.cipher rxPn ∉ state.accepted source →
    replayBase env state source < pnNumber env.cipher rxPn →
      (env.check source rxPn state.vif).1 = true
  represents : ∀ source, env.Knows source →
    Represents (replayBase env (replayStep env state event) source)
      ((replayStep env state event).vif.replay source).window
      ((replayStep env state event).accepted source)

/-- No other source shares the window. -/
def Alone (env : ReplayEnv) : PnSource → Prop
  | .station staId => ∀ other ∈ env.stations, other = staId
  | .group => True

instance (env : ReplayEnv) : DecidablePred (Alone env)
  | .station staId => inferInstanceAs (Decidable (∀ other ∈ env.stations, other = staId))
  | .group => inferInstanceAs (Decidable True)

/-- The frames that the window can take: old ones, the first one, and those that are not too far
above the base, which is the very next one where stations share the window. -/
def ReplayOk (env : ReplayEnv) (state : ReplayState) : ReplayEvent → Prop
  | .setKey _ => True
  | .frame source rxPn =>
    env.cipher ≠ .wapi → env.Knows source →
      let base := replayBase env state source
      let number := pnNumber env.cipher rxPn
      number ≤ base ∨ base = 0 ∨
        if Alone env source then
          number ≤ base + maxPnWindow + countPnWin (state.vif.replay source).window
        else number = base + 1

end W522a.Crypto
