import Rovenue.Txn.Program
import Rovenue.Txn.Session
import Rovenue.Txn.Machine
import Rovenue.Txn.Guarantee
import Rovenue.Txn.Table
import Rovenue.Assets.AssetStore
import Rovenue.Assets.AssetRoutes
import Rovenue.Assets.Interference
import Rovenue.Assets.LiveObjects
import Rovenue.Assets.OrphanSweep
import Rovenue.Audit.AuditChain
import Rovenue.Audit.BundleVerifier
import Rovenue.Audit.AuditLog
import Rovenue.Audit.ChainDiscipline
import Rovenue.Audit.ChainedWrites
import Rovenue.Audit.ProofTrail
import Rovenue.Schema
import Rovenue.Subscribers
import Rovenue.Subscription.Status
import Rovenue.Access.AccessEngine
import Rovenue.Access.Sync
import Rovenue.Access.SyncRead
import Rovenue.Access.Ranking
import Rovenue.Ledger.CreditLedger
import Rovenue.Ledger.CreditEngine
import Rovenue.Ledger.WalletConservation
import Rovenue.Ledger.SubscriberTransfer
import Rovenue.Ledger.MergeConservation
import Rovenue.Ledger.MergeWindow
import Rovenue.Ledger.MergesApart
import Rovenue.Ledger.PurchaseCredits
import Rovenue.Ledger.GrantOnce
import Rovenue.Purchases.Repository
import Rovenue.Purchases.TransitionGuard
import Rovenue.Purchases.StatusPlan
import Rovenue.Workers.SweepPlan
import Rovenue.Stripe.StripeWebhook
import Rovenue.Stripe.SyncSubscription
import Rovenue.Stripe.SpeculativeTrial
import Rovenue.Stripe.EventOrder
import Rovenue.Apple.AppleWebhook
import Rovenue.Apple.NotificationPlan
import Rovenue.Apple.ReceiptVerify
import Rovenue.Workers.ScheduledActions
import Rovenue.Access.DirectRevoke
import Rovenue.Apple.StatusEdges
import Rovenue.Apple.ChainOrder
import Rovenue.Txn.OrderLimit
import Rovenue.Txn.InsertUnless
import Rovenue.Txn.Journal
import Rovenue.Webhooks.WebhookEvents
import Rovenue.Webhooks.CompletionFinal
import Rovenue.Outbox.TopicIsolation
import Rovenue.Webhooks.OutgoingWebhooks
import Rovenue.Webhooks.OneRowPerEvent
import Rovenue.Threads.System
import Rovenue.Webhooks.WebhookDelivery
import Rovenue.Webhooks.SingleDelivery
import Rovenue.Sdk.Error
import Rovenue.Sdk.IdentityManager
import Rovenue.Sdk.Entitlements
import Rovenue.Sdk.EntitlementMirror
import Rovenue.Sdk.EntitlementHistory
import Rovenue.Queues.Fifo
import Rovenue.Sdk.CacheStore
import Rovenue.Sdk.Telemetry
import Rovenue.Sdk.TelemetryIdentity
import Rovenue.Sdk.LogOutWindow
import Rovenue.Sdk.IdentityAgreement
import Rovenue.Sdk.HttpClient
import Rovenue.Sdk.PaywallQueue
import Rovenue.Sdk.PaywallOrder
import Rovenue.Sdk.PaywallDelivery
import Rovenue.Sdk.AttributeMap
import Rovenue.Sdk.AttributeSync
import Rovenue.Sdk.LastWriter
import Rovenue.Attributes.Validation
import Rovenue.Attributes.InTurn
import Rovenue.Sdk.AttributeDrops
import Rovenue.Google.GoogleWebhook
import Rovenue.Purchases.TerminalWrites
import Rovenue.Purchases.Absorbing
import Rovenue.Google.TokenRuns
import Rovenue.Google.OrderRevenue
import Rovenue.Google.OnePerOrder
import Rovenue.Experiments.Variants
import Rovenue.Experiments.FairPartition
import Rovenue.Sdk.CacheSchema
import Rovenue.Sdk.CrashedMigration
import Rovenue.Ledger.MergeEffect
import Rovenue.Ledger.Survivor
import Rovenue.Attributes.MeAttributes
import Rovenue.Experiments.Engine
import Rovenue.Experiments.Exclusion
import Rovenue.Revenue.RecordedOnce
import Rovenue.Funnel.Evaluator
import Rovenue.Funnel.Validator
import Rovenue.Funnel.Soundness
import Rovenue.Js.Json
import Rovenue.Paywall.Schema
import Rovenue.Paywall.Validate
import Rovenue.Paywall.Localization
import Rovenue.Paywall.MissingText
import Rovenue.Js.Flatten
import Rovenue.Paywall.Diff
import Rovenue.Paywall.Unseen
import Rovenue.Js.Paths
import Rovenue.Js.JsonText
import Rovenue.Js.Values
import Rovenue.Leaderboards.Cadence
import Rovenue.Leaderboards.SeasonScheduler
import Rovenue.Leaderboards.GaplessChain
import Rovenue.Leaderboards.SeasonChain
import Rovenue.Workers.AccessReconciliation
import Rovenue.Apple.DunningClock
import Rovenue.Middleware.AtMostOnce
import Rovenue.Locks.RedisLock
import Rovenue.Threads.Answers
import Rovenue.Middleware.RateLimit
import Rovenue.Middleware.InsuranceLimit
import Rovenue.Experiments.Targeting
import Rovenue.Notifications.EventCatalog
import Rovenue.Notifications.ProcessNotification
import Rovenue.Notifications.SentOnce
import Rovenue.Ledger.RenewalGrant
import Rovenue.Ledger.RenewalCredits
import Rovenue.Ledger.RenewalsInTurn
import Rovenue.Google.PlanChange
import Rovenue.Google.AnnouncedOnce
import Rovenue.Experiments.Lifecycle
import Rovenue.Experiments.LifecycleCallers
import Rovenue.Experiments.LifecycleKept
import Rovenue.Experiments.LifecycleRows
import Rovenue.Experiments.LifecycleActs
import Rovenue.Gdpr.DsarRequests
import Rovenue.Gdpr.Lease
import Rovenue.Gdpr.DsarActs
import Rovenue.Circuit.CircuitBreaker
import Rovenue.Circuit.ProbeAdmission
import Rovenue.Graph.Chain
import Rovenue.Graph.Unfolding
import Rovenue.Paywall.SizeGuard
import Rovenue.Experiments.ScheduleGraph
import Rovenue.Experiments.ScheduleAcyclic
import Rovenue.Paywall.TreeOpUndo
import Rovenue.Funnel.Judgement
import Rovenue.Webhooks.ReaperStops
import Rovenue.Notifications.SingleFlight
import Rovenue.Placements.Menu
import Rovenue.Apple.SharedChain
import Rovenue.Text.Comparison
import Rovenue.Text.Decimal
import Rovenue.Paywall.VersionOrder
import Rovenue.Import.Csv
import Rovenue.Subscription.ExportCsv
import Rovenue.Import.LineNumbers
import Rovenue.Text.Separated
import Rovenue.Import.Keys
import Rovenue.Calendar.Gregorian
import Rovenue.Funnel.RelativeDates
import Rovenue.Integrations.Deliver
import Rovenue.Integrations.TerminalRecord
import Rovenue.Sdk.FunnelClaim
import Rovenue.Experiments.RecordEvent
import Rovenue.Experiments.ConversionsKept
import Rovenue.Copilot.OwnPseudonyms
import Rovenue.Text.Scan
import Rovenue.Net.Literals
import Rovenue.Net.SsrfGuard
import Rovenue.Net.LiteralText
import Rovenue.Net.GuardReads
import Rovenue.Net.SpellingVerdict
import Rovenue.Net.Ranges
import Rovenue.Net.OneVerdict
import Rovenue.Logging.WordComplete
import Rovenue.Sdk.ExactExpiry
import Rovenue.Stripe.RefundSums
