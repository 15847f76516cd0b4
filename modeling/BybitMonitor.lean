import BybitMonitor.Alerts.Acceptance
import BybitMonitor.Alerts.Atomicity
import BybitMonitor.Alerts.Booking
import BybitMonitor.Alerts.Bucket
import BybitMonitor.Alerts.Composition
import BybitMonitor.Alerts.Cycle
import BybitMonitor.Alerts.DedupeKeys
import BybitMonitor.Alerts.Dispatcher
import BybitMonitor.Alerts.Flush
import BybitMonitor.Alerts.Formatter
import BybitMonitor.Alerts.Hourly
import BybitMonitor.Alerts.Lifecycle
import BybitMonitor.Alerts.OutboxRun
import BybitMonitor.Alerts.Pace
import BybitMonitor.Alerts.Retries
import BybitMonitor.Alerts.Run
import BybitMonitor.Alerts.Service
import BybitMonitor.Alerts.ServiceRun
import BybitMonitor.Alerts.StateMachine
import BybitMonitor.Alerts.Supervision
import BybitMonitor.Alerts.Suppression
import BybitMonitor.Alerts.Totality
import BybitMonitor.Alerts.Transition
import BybitMonitor.Application
import BybitMonitor.Bybit.AckTimeout
import BybitMonitor.Bybit.Batching
import BybitMonitor.Bybit.Endpoints
import BybitMonitor.Bybit.Heartbeat
import BybitMonitor.Bybit.Normalizer
import BybitMonitor.Bybit.Pagination
import BybitMonitor.Bybit.Parsing
import BybitMonitor.Bybit.Reconciliation
import BybitMonitor.Bybit.Reconnect
import BybitMonitor.Bybit.Rest
import BybitMonitor.Bybit.ServerTopics
import BybitMonitor.Bybit.Stream
import BybitMonitor.Bybit.Subscriptions
import BybitMonitor.Bybit.SyncSubscriptions
import BybitMonitor.Bybit.Watchdog
import BybitMonitor.Bybit.WebSocket
import BybitMonitor.Config
import BybitMonitor.Coroutine
import BybitMonitor.Health.Container
import BybitMonitor.Health.Delivery
import BybitMonitor.Health.Grace
import BybitMonitor.Health.Monitor
import BybitMonitor.Health.Persisted
import BybitMonitor.Health.Verdict
import BybitMonitor.Logging
import BybitMonitor.Market.Aggregation
import BybitMonitor.Market.Anchor
import BybitMonitor.Market.Announcement
import BybitMonitor.Market.AnnouncementRun
import BybitMonitor.Market.Catalogue
import BybitMonitor.Market.Discovery
import BybitMonitor.Market.Evaluator
import BybitMonitor.Market.Interruption
import BybitMonitor.Market.Listing
import BybitMonitor.Market.ListingOutbox
import BybitMonitor.Market.ListingRun
import BybitMonitor.Market.PriceEngine
import BybitMonitor.Market.PriceFeed
import BybitMonitor.Market.Reconcile
import BybitMonitor.Market.Reference
import BybitMonitor.Market.Registry
import BybitMonitor.Market.Spacing
import BybitMonitor.Market.SpotHistory
import BybitMonitor.Market.Threshold
import BybitMonitor.Market.TradingReport
import BybitMonitor.MarketLoop
import BybitMonitor.Persistence.AlertState
import BybitMonitor.Persistence.Database
import BybitMonitor.Persistence.KeyValue
import BybitMonitor.Persistence.Migrations
import BybitMonitor.Persistence.OpenTransaction
import BybitMonitor.Persistence.Outbox
import BybitMonitor.Persistence.Ownership
import BybitMonitor.Persistence.Repository
import BybitMonitor.Persistence.Store
import BybitMonitor.Persistence.Worker
import BybitMonitor.Python.Decimal
import BybitMonitor.Python.Float
import BybitMonitor.Python.Number
import BybitMonitor.Python.Repr
import BybitMonitor.Python.Rounding
import BybitMonitor.Python.Serialize
import BybitMonitor.Python.Shortest
import BybitMonitor.Telegram.Client
import BybitMonitor.Telegram.Splitting
import BybitMonitor.ToMathlib.AsyncLock
import BybitMonitor.ToMathlib.CivilDate
import BybitMonitor.ToMathlib.Debounce
import BybitMonitor.ToMathlib.Dict
import BybitMonitor.ToMathlib.Exclusive
import BybitMonitor.ToMathlib.FieldText
import BybitMonitor.ToMathlib.JsonText
import BybitMonitor.ToMathlib.JsonValue
import BybitMonitor.ToMathlib.Links
import BybitMonitor.ToMathlib.Locality
import BybitMonitor.ToMathlib.Masking
import BybitMonitor.ToMathlib.Program
import BybitMonitor.ToMathlib.Regex
import BybitMonitor.ToMathlib.Retry
import BybitMonitor.ToMathlib.Rounding
import BybitMonitor.ToMathlib.Sampling
import BybitMonitor.ToMathlib.Sorting
import BybitMonitor.ToMathlib.Streak
import BybitMonitor.ToMathlib.Trace
