import SuiOptions.Lib.Execution
import SuiOptions.Lib.Ranges
import SuiOptions.Lib.Acyclic
import SuiOptions.Move.Runtime
import SuiOptions.Core.Strike
import SuiOptions.Core.Queue
import SuiOptions.Core.Ledger
import SuiOptions.Core.Partition
import SuiOptions.Core.Bucket
import SuiOptions.Core.CallInvariant
import SuiOptions.Core.CallExercise
import SuiOptions.Core.CallSolvency
import SuiOptions.Core.CallCleanup
import SuiOptions.Core.Conservation
import SuiOptions.Core.CallUnwind
import SuiOptions.Core.PutBucket
import SuiOptions.Core.PutInvariant
import SuiOptions.Core.PutSolvency
import SuiOptions.Core.PutChunks
import SuiOptions.Core.PutExercise
import SuiOptions.Core.PutConservation
import SuiOptions.Core.PutBacking
import SuiOptions.Core.Ingress
import SuiOptions.Core.PutCleanup
import SuiOptions.Lib.Text
import SuiOptions.Move.Types
import SuiOptions.Core.OptionCoin
import SuiOptions.Core.BucketRegistry
import SuiOptions.Core.Quote
import SuiOptions.Exchange.Order
import SuiOptions.Exchange.Registry
import SuiOptions.Exchange.BalanceManager
import SuiOptions.Exchange.Settlement
import SuiOptions.Exchange.Market
import SuiOptions.Lib.Sums
import SuiOptions.Lib.Offer
import SuiOptions.Exchange.Account
import SuiOptions.Exchange.FillEffects
import SuiOptions.Exchange.FillBound
import SuiOptions.Exchange.Attribution
import SuiOptions.Exchange.Authority
import SuiOptions.Exchange.Discharge
import SuiOptions.Exchange.Paths
import SuiOptions.Exchange.MatchPaths
import SuiOptions.Exchange.Legs
import SuiOptions.Orderbook.Engine
import SuiOptions.Orderbook.Shape
import SuiOptions.Orderbook.Matching
import SuiOptions.Orderbook.InFlight
import SuiOptions.Orderbook.Calls
import SuiOptions.Orderbook.Priority
import SuiOptions.Orderbook.Settlable
import SuiOptions.Orderbook.Mirror
import SuiOptions.Orderbook.Store
import SuiOptions.Orderbook.Restart
import SuiOptions.Lib.Table
import SuiOptions.Lib.ProRata
import SuiOptions.Vault.Capital
import SuiOptions.Vault.State
import SuiOptions.Vault.Deposit
import SuiOptions.Vault.Fulfillment
import SuiOptions.Vault.Lifecycle
import SuiOptions.Vault.World
import SuiOptions.Vault.Effects
import SuiOptions.Vault.Hurdle
import SuiOptions.Vault.Shares
import SuiOptions.Vault.Supply
import SuiOptions.Vault.Payments
import SuiOptions.Vault.Waterfall
import SuiOptions.Vault.Burns
import SuiOptions.Vault.Neutrality
import SuiOptions.Vault.Appraised
import SuiOptions.Vault.Redemption
import SuiOptions.Vault.Valuation
import SuiOptions.Vault.WrittenMarks
import SuiOptions.Vault.SharePrice
import SuiOptions.Vault.Equity
import SuiOptions.Vault.Frames
import SuiOptions.Vault.Reset
import SuiOptions.Vault.Lanes
import SuiOptions.Vault.Recapitalization
import SuiOptions.Vault.ReleaseLimit
import SuiOptions.Indexer.Buckets
import SuiOptions.Indexer.Restart
import SuiOptions.Orderbook.DeadOrders
import SuiOptions.Exchange.CanonicalType
import SuiOptions.Router.Resized
import SuiOptions.Exchange.Collection
import SuiOptions.Exchange.Encoding
import SuiOptions.EventIngestor.Credits
import SuiOptions.ProtocolTypes.ChainForm
import SuiOptions.ProtocolTypes.OptionCoinType
import SuiOptions.DeskCore.DoubleEntry
import SuiOptions.DeskCore.Backing
import SuiOptions.Orderbook.Crossing
import SuiOptions.Lib.WriteBehind
import SuiOptions.DeskCore.Book
import SuiOptions.DeskCore.Durable
import SuiOptions.DeskCore.Capacity
import SuiOptions.Lib.Pour
import SuiOptions.DeskCore.Covered
import SuiOptions.Lib.Ptb
import SuiOptions.DeepBook.Pool
import SuiOptions.SuiTx.Builder
import SuiOptions.SuiTx.Stranded
import SuiOptions.SuiTx.PutExercise
import SuiOptions.SuiTx.Chain
import SuiOptions.SuiTx.Routes
import SuiOptions.SuiTx.Funding
import SuiOptions.SuiTx.Outcome
import SuiOptions.SuiTx.Submission
import SuiOptions.SuiTx.Commit
