import W522a.Common

/-!
Transmit descriptors, the configuration and the station that the A-MPDU code reads, and the
limits it computes from them.
-/

namespace W522a.Tx

@[simp] abbrev wmeBaBmpSize : Nat := 64

@[simp] abbrev defaultTxampduSubMin : Nat := 1

@[simp] abbrev defaultTxampduSubMax : Nat := 64

@[simp] abbrev defaultVhtStaAmpduLimit : Nat := 8

@[simp] abbrev defaultTxampduLenMax : Nat := 65535

@[simp] abbrev staAmpduWeakLimit : Nat := 2

@[simp] abbrev staAmpduVeryWeakLimit : Nat := 2

@[simp] abbrev drvAggrDelimSz : Nat := 4

@[simp] abbrev drvAggrMinplen : Nat := 256

/-- What the A-MPDU code reads of `txdesc_rateinfo`. -/
structure RateInfo where
  trynum : Nat
  vendorRateCode : Nat
  useSampleRate : Bool
  cw40 : Bool
  sgi : Bool
  maxampdulen : Nat × Nat × Nat
  deriving DecidableEq, Repr

/-- `struct drv_txdesc` with the fields of its `txinfo`. One descriptor stands for one MPDU, so
`txdesc_queue_lastframe` is the descriptor itself. `attached` says that `txdesc_sta` is set, and
`bTcp` that the packet is TCP data outside of power save. -/
structure TxDesc where
  id : Nat
  seqnum : Nat
  packetlen : Nat
  mpdulen : Nat
  rateinfo : RateInfo
  rateValid : Bool
  bAmpdu : Bool
  bAggr : Bool
  b11n : Bool
  bNoack : Bool
  bNulldata : Bool
  bTcp : Bool
  attached : Bool
  pktnum : Nat
  agglen : Nat
  delimit : Nat
  aggrPageNum : Nat
  deriving DecidableEq, Repr

/-- A descriptor that is sent outside the aggregates. -/
abbrev NormalDesc : Type := { ptxdesc : TxDesc // ptxdesc.bAmpdu = false }

/-- `txdesc_sta` is cleared. -/
def TxDesc.orphan (ptxdesc : TxDesc) : TxDesc := { ptxdesc with attached := false }

/-- The same for a descriptor outside the aggregates. -/
def NormalDesc.orphan (ptxdesc : NormalDesc) : NormalDesc := ⟨ptxdesc.1.orphan, ptxdesc.2⟩

/-- An attached station with an interface. -/
structure TxSta where
  opmode : VmOpmode
  connected : Bool
  ht : Bool
  vht : Bool
  avgBcnRssi : Int
  wide : Bool

/-- The counters of `drv_stats` that the wait target depends on. -/
structure TxStats where
  swDrop : Nat
  endFail : Nat
  endAmpdu : Nat
  endNormal : Nat

/-- What the A-MPDU code reads of `drv_priv` and of the station. `lookupRate` is the rate control
behind `drv_lookup_rate`: the rates it chooses and the length it allows. -/
structure TxEnv where
  sta : Option TxSta
  mpdudensity : Nat
  now : Nat
  cfgAmpduSubframes : Nat
  cfgAmpduOneframe : Bool
  cfgAmpduackpolicy : Nat
  cfgApAmpduWaitTarget : Nat
  cfgApAmpduHt20Limit : Nat
  cfgApAmpduWideLimit : Nat
  cfgTxamsdu : Bool
  motherChannel : Bool
  stats : TxStats
  lookupRate : RateInfo → RateInfo × Nat

def drvTidIsHostap (env : TxEnv) : Bool :=
  match env.sta with
  | some sta => sta.opmode == .hostap
  | none => false

def drvCfgApAmpduWaitTarget (env : TxEnv) : Nat :=
  clampT env.cfgApAmpduWaitTarget defaultTxampduSubMin defaultTxampduSubMax

def drvCfgApAmpduLimit (env : TxEnv) (sta : TxSta) : Nat :=
  clampT (if sta.wide then env.cfgApAmpduWideLimit else env.cfgApAmpduHt20Limit)
    defaultTxampduSubMin defaultTxampduSubMax

def drvTxAmpduWaitTarget (env : TxEnv) (ampduSubframes : Nat) : Nat :=
  if ampduSubframes ≤ defaultTxampduSubMin then ampduSubframes
  else match env.sta with
    | none => ampduSubframes
    | some sta =>
      if sta.opmode = .hostap then
        let realFail := env.stats.endFail - env.stats.swDrop
        let txDone := env.stats.endAmpdu + env.stats.endNormal + env.stats.endFail
        let target :=
          if 256 < txDone ∧ txDone * 3 < realFail * 100 then 2 else drvCfgApAmpduWaitTarget env
        clampT target defaultTxampduSubMin ampduSubframes
      else
        let target :=
          if (sta.ht ∨ sta.vht) ∧ sta.avgBcnRssi ≤ -76 then staAmpduVeryWeakLimit
          else if (sta.ht ∨ sta.vht) ∧ sta.avgBcnRssi ≤ -70 then staAmpduWeakLimit
          else ampduSubframes
        clampT target defaultTxampduSubMin ampduSubframes

/-- The limit of `drv_tx_ampdu_subframe_limit` before the window is looked at. -/
def stationSubframeLimit (env : TxEnv) (sta : TxSta) (ampduSubframes : Nat) : Nat :=
  if sta.ht ∨ sta.vht then
    if sta.opmode = .hostap then drvCfgApAmpduLimit env sta
    else
      let limit :=
        if sta.avgBcnRssi ≤ -76 then staAmpduVeryWeakLimit
        else if sta.avgBcnRssi ≤ -70 then staAmpduWeakLimit
        else ampduSubframes
      if sta.vht ∧ defaultVhtStaAmpduLimit < limit then defaultVhtStaAmpduLimit else limit
  else ampduSubframes

def drvTxAmpduSubframeLimit (env : TxEnv) (bawSize ampduSubframes : Nat) : Nat :=
  if ampduSubframes ≤ defaultTxampduSubMin then ampduSubframes
  else match env.sta with
    | none => ampduSubframes
    | some sta =>
      let limit := stationSubframeLimit env sta ampduSubframes
      let limit := if 0 < bawSize ∧ bawSize < limit then bawSize else limit
      clampT limit defaultTxampduSubMin ampduSubframes

/-- The number of subframes an aggregate of a window may have. -/
def ampduSubframes (env : TxEnv) (bawSize : Nat) : Nat :=
  drvTxAmpduSubframeLimit env bawSize
    (clampT env.cfgAmpduSubframes defaultTxampduSubMin defaultTxampduSubMax)

theorem ampduSubframes_bounds (env : TxEnv) (bawSize : Nat) :
    1 ≤ ampduSubframes env bawSize ∧ ampduSubframes env bawSize ≤ defaultTxampduSubMax := by
  have ordered : defaultTxampduSubMin ≤ defaultTxampduSubMax := by decide
  obtain ⟨low, high⟩ : defaultTxampduSubMin ≤
      clampT env.cfgAmpduSubframes defaultTxampduSubMin defaultTxampduSubMax ∧ _ :=
    clampT_bounds ordered
  unfold ampduSubframes drvTxAmpduSubframeLimit
  split
  · exact ⟨low, high⟩
  · split
    · exact ⟨low, high⟩
    · obtain ⟨above, below⟩ := clampT_bounds low
      exact ⟨above, Nat.le_trans below high⟩

def padbytes (len : Nat) : Nat := (4 - len % 4) % 4

def drvAggrGetNdelim (len : Nat) : Nat :=
  (if len + drvAggrDelimSz < drvAggrMinplen then drvAggrMinplen - len - drvAggrDelimSz else 0) / 4

def bitsPerSymbol : List (Nat × Nat) :=
  [(26, 54), (52, 108), (78, 162), (104, 216), (156, 324), (208, 432), (234, 486), (260, 540),
    (52, 108), (104, 216), (156, 324), (208, 432), (312, 648), (416, 864), (468, 972), (520, 1080)]

def drvComputeNumDelims (env : TxEnv) (rateinfo : RateInfo) (packetlen : Nat) : Nat :=
  let ndelim := drvAggrGetNdelim packetlen
  if env.mpdudensity = 0 then ndelim
  else
    let nsymbols :=
      if rateinfo.sgi then (env.mpdudensity * 5 - 4) / 18 else env.mpdudensity / 4
    let nsymbols := if nsymbols = 0 then 1 else nsymbols
    match bitsPerSymbol[rateinfo.vendorRateCode % 16]? with
    | none => ndelim
    | some bits =>
      let nsymbits := if rateinfo.cw40 then bits.2 else bits.1
      let minlen := nsymbols * nsymbits / 8 % 65536
      if packetlen < minlen then max ((minlen - packetlen) / drvAggrDelimSz) ndelim else ndelim

@[simp] abbrev pageLen : Nat := 512

/-- `FW_TXDESC_DATAOFFSET`: a buffer info of 12 bytes, a vector of 28, an option of 20 and a
private part of 52 stand before the data of the first page. -/
@[simp] abbrev fwTxdescDataoffset : Nat := 12 + 28 + 20 + 52

def howmanypage (len page : Nat) : Nat := (len - 12 + (page - 12 - 1)) / (page - 12)

def halCalcMpduPage (mpdulen : Nat) : Nat := howmanypage (mpdulen + fwTxdescDataoffset) pageLen

theorem halCalcMpduPage_eq (mpdulen : Nat) : halCalcMpduPage mpdulen = (mpdulen + 599) / 500 := by
  simp only [halCalcMpduPage, howmanypage, fwTxdescDataoffset, pageLen]
  omega

end W522a.Tx
