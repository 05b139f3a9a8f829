import CryptoArbBot.OrderBook.PriceMatching
import CryptoArbBot.OrderBook.SnapshotRetries
import CryptoArbBot.OrderBook.SequencePairing
import CryptoArbBot.OrderBook.AggregatorThreads
import CryptoArbBot.Dashboard.HeatMap
import CryptoArbBot.Server.PaperSession
import CryptoArbBot.Exchange.Submission
import CryptoArbBot.Execution.FillBooking
import CryptoArbBot.Execution.LastWord
import CryptoArbBot.Execution.CashBooking
import CryptoArbBot.Execution.BalanceGuard
import CryptoArbBot.Execution.PaperOverspend
import CryptoArbBot.Execution.PaperRecord
import CryptoArbBot.Execution.DetectedTrades
import CryptoArbBot.Backtest.UnrelatedPairs
import CryptoArbBot.Backtest.SimulatedBalances
import CryptoArbBot.Backtest.PricePriority
import CryptoArbBot.Backtest.DataDirectory
import CryptoArbBot.Backtest.EquityCurve
import CryptoArbBot.Persistence.TornAppend
import CryptoArbBot.Exchange.Acknowledged
import CryptoArbBot.Exchange.FillAmounts
import CryptoArbBot.Exchange.OrderTexts
import CryptoArbBot.Exchange.SignedGets
import CryptoArbBot.Exchange.GateioSignature
import CryptoArbBot.Exchange.WsShutdown
import CryptoArbBot.Exchange.FeedRuns
import CryptoArbBot.Exchange.Resubscription
import CryptoArbBot.Execution.TrackedInventory
import CryptoArbBot.Execution.DriftAlerts
import CryptoArbBot.Strategy.FeeRefresh
import CryptoArbBot.Strategy.CachedFees
import CryptoArbBot.Strategy.BestCandidate
import CryptoArbBot.Strategy.CappedSize
import CryptoArbBot.Strategy.SpreadBySize
import CryptoArbBot.Strategy.Exposure
import CryptoArbBot.Execution.RefreshedBalances
import CryptoArbBot.Strategy.AnsweredFees
import CryptoArbBot.Backtest.CurveTimes
import CryptoArbBot.Server.SingleProducer
import CryptoArbBot.Server.ManyProducers
import CryptoArbBot.Strategy.FeedOpportunities
import CryptoArbBot.Execution.RefreshThreads
