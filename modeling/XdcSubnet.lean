import XdcSubnet.Lib.ParentLinks
import XdcSubnet.Lib.ExceptState
import XdcSubnet.EngineV2.Types
import XdcSubnet.EngineV2.Config
import XdcSubnet.EngineV2.Engine
import XdcSubnet.EngineV2.Instance
import XdcSubnet.EngineV2.Utils
import XdcSubnet.EngineV2.Epoch
import XdcSubnet.EngineV2.Certificates
import XdcSubnet.EngineV2.Handlers
import XdcSubnet.EngineV2.Header
import XdcSubnet.EngineV2.Frame
import XdcSubnet.EngineV2.Voting
import XdcSubnet.EngineV2.Run
import XdcSubnet.EngineV2.VerifiedChain
import XdcSubnet.Network.Node
import XdcSubnet.Network.Protocol
import XdcSubnet.EngineV2.LeaderSchedule
import XdcSubnet.Lib.Journal
import XdcSubnet.Lib.WriteBack
import XdcSubnet.XDCx.TradingState
import XdcSubnet.XDCx.OrderBook
import XdcSubnet.XDCx.Revert
import XdcSubnet.XDCxLending.LendingState
import XdcSubnet.XDCxLending.LiquidationIndex
import XdcSubnet.Lib.Tally
import XdcSubnet.Hooks.Reward
import XdcSubnet.Hooks.Penalty
import XdcSubnet.XDCx.Settle
import XdcSubnet.Lib.CommonAncestor
import XdcSubnet.EngineV2.Forensics
import XdcSubnet.Lib.FloorPrice
import XdcSubnet.XDCx.TradeQuantity
import XdcSubnet.XDCxLending.LendQuantity
import XdcSubnet.Lib.Loop
import XdcSubnet.XDCx.Matching
import XdcSubnet.XDCx.MatchingSteps
import XdcSubnet.XDCx.Replay
import XdcSubnet.XDCx.BookInvariant
import XdcSubnet.XDCx.OrderListPass
import XdcSubnet.Lib.ExchangeSort
import XdcSubnet.EngineV2.ConfigIndex
import XdcSubnet.Lib.GoSlice
import XdcSubnet.EngineV2.SignersLists
import XdcSubnet.EngineV2.ForensicsQC
import XdcSubnet.XDCx.MatchingTermination
import XdcSubnet.Lib.BinaryHeap
import XdcSubnet.Lib.KeyedMap
import XdcSubnet.Core.OrderTxList
import XdcSubnet.Core.OrderTxRuns
import XdcSubnet.XDCxLending.Liquidation
import XdcSubnet.XDCxLending.TopUp
import XdcSubnet.XDCxLending.LiquidationLoop
import XdcSubnet.EngineV2.Advance
import XdcSubnet.Network.Advance
import XdcSubnet.XDCx.BookRestore
import XdcSubnet.XDCx.UndoWrites
import XdcSubnet.XDCx.RevertMatching
import XdcSubnet.XDCx.CommitRuns
import XdcSubnet.XDCx.CommitFuel
import XdcSubnet.Lib.SliceHeap
import XdcSubnet.Core.OrderTransaction
import XdcSubnet.XDCx.ProcessPending
