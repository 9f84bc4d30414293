import W522a.Rx.Scoreboard
import W522a.Lib.Run
import W522a.Rx.Station
import W522a.Rx.Window
import W522a.Rx.Invariant
import W522a.Rx.Release
import W522a.Rx.Session
import W522a.Rx.Reachable
import W522a.Lib.Ascending
import W522a.Rx.Order
import W522a.Rx.Delivery
import W522a.Tx.Desc
import W522a.Tx.Scoreboard
import W522a.Tx.Build
import W522a.Lib.Greedy
import W522a.Tx.Aggregate
import W522a.Tx.Exchange
import W522a.Tx.Track
import W522a.Tx.Session
import W522a.Tx.Reachable
import W522a.Tx.Steps
import W522a.Tx.InWindow
import W522a.Lib.Bytes
import W522a.Mac.Amsdu
import W522a.Mac.AmsduSplit
import W522a.Mac.AmsduRoundTrip
import W522a.Mac.Defrag
import W522a.Mac.Reassembly
import W522a.Hal.SharedFifo
import W522a.Hal.TxId
import W522a.Hal.Flush
import W522a.Hal.FlushQueue
import W522a.Hal.FlushLaw
import W522a.Tx.Initiator
import W522a.Tx.InitiatorLaw
import W522a.Mac.Bip
import W522a.Mac.BipCheck
import W522a.Mac.Fragment
import W522a.Mac.FragmentRx
import W522a.Mac.FragmentTx
import W522a.Mac.FragmentLaw
import W522a.Mac.FragmentRoundTrip
import W522a.Hal.FifoLaw
import W522a.Tx.Numbers
import W522a.Tx.NumberLaw
import W522a.Tx.Live
import W522a.Tx.LiveLaw
import W522a.Lib.Slots
import W522a.Rx.Ownership
import W522a.Rx.OwnershipLaw
import W522a.Lib.RunQueue
import W522a.Tx.Counted
import W522a.Tx.Wakeup
import W522a.Tx.Pending
import W522a.Tx.Custody
import W522a.Tx.Store
import W522a.Tx.StoreLaw
import W522a.Lib.Replay
import W522a.Mac.BipReplay
import W522a.Ap.Tim
import W522a.Ap.TimLaw
import W522a.Tx.Pause
import W522a.Tx.PauseLaw
import W522a.Ap.Rsn
import W522a.Ap.RsnLaw
import W522a.Ap.Protect
import W522a.Ap.PowerSave
import W522a.Ap.Table
import W522a.Ap.AssocReq
import W522a.Ap.Machine
import W522a.Ap.Aid
import W522a.Ap.AidLaw
import W522a.Ap.Power
import W522a.Ap.PowerLaw
import W522a.Ap.ProtectCount
import W522a.Ap.ProtectTable
import W522a.Ap.ProtectLaw
import W522a.Recovery.StormLaw
import W522a.Crypto.ReplayLaw
import W522a.Crypto.PnLaw
import W522a.Mac.SaQueryLaw
import W522a.Ap.OwnIeLaw
import W522a.Tx.HandoverLaw
import W522a.Mac.StaTable
import W522a.Mac.StaTableLaw
import W522a.Mac.TxAmsduFrame
import W522a.Lib.Relay
import W522a.Mac.TxAmsduBooks
import W522a.Mac.TxAmsduSteps
import W522a.Mac.TxAmsduLaw
import W522a.Crypto.Pmksa
import W522a.Mac.AmsduWalk
import W522a.Ie.ChSwitch
import W522a.Ie.PeerRsn
import W522a.Ie.PeerRsnLaw
import W522a.Tx.AggrCount
import W522a.Rx.BarLaw
import W522a.Rx.SortTimerLaw
import W522a.Os.Timer
import W522a.Os.TimerLaw
import W522a.Hal.WorkFifo
import W522a.Hal.WorkQueue
import W522a.Hal.WorkInv
import W522a.Hal.WorkLaw
import W522a.Ie.Walk
import W522a.Lib.Tlv
import W522a.Ie.WalkLaw
import W522a.Ie.RsnReads
import W522a.Ie.Consumers
import W522a.Ie.Receive
import W522a.Ie.ConsumersLaw
import W522a.Ie.ReceiveLaw
import W522a.Lib.Selection
import W522a.Scan.BestNode
import W522a.Lib.Michael
import W522a.Crypto.Michael
import W522a.Crypto.MichaelLaw
import W522a.Lib.Tally
import W522a.Scan.Overlap
import W522a.Scan.ChannelLists
import W522a.Scan.ChannelListsLaw
import W522a.Lib.Chained
import W522a.Scan.Receive
import W522a.Scan.ReceiveLaw
import W522a.Hal.ToHal
import W522a.Tx.AggrBounds
import W522a.Lib.Batches
import W522a.Tx.Buffered
import W522a.Tx.BufferedLaw
import W522a.Tx.Uapsd
import W522a.Tx.UapsdLaw
import W522a.Crypto.AesCcm
import W522a.Crypto.Ccmp
import W522a.Mac.Pmf
import W522a.Mac.PmfLaw
import W522a.Mac.PmfRoundTrip
import W522a.Rx.InputAll
import W522a.Mac.PwrsaveState
import W522a.Lib.OnesSum
import W522a.Mac.FragmentChecksum
import W522a.Hal.Airtime
import W522a.Hal.AirtimeLaw
import W522a.Hal.LengthLimit
import W522a.Ap.VhtRates
import W522a.Mac.LegacyRates
import W522a.Mac.LegacyRatesLaw
import W522a.Hal.Scatter
import W522a.Hal.ScatterLaw
import W522a.Hal.ScatReq
import W522a.Hal.ScatReqLaw
import W522a.Hal.IrqTask
import W522a.Lib.Owing
import W522a.Hal.IrqTaskLaw
import W522a.Hal.CmdFifo
import W522a.Mac.Acl
import W522a.Lib.Pivot
import W522a.Mac.ChanOrder
import W522a.Mac.Country
import W522a.Ap.RejectLaw
import W522a.Hal.RxRing
import W522a.Hal.RxRingLaw
import W522a.Hal.RxFifo
import W522a.Lib.Podium
import W522a.Rate.MinstrelHt
