import Skrynia.Lib.Tx
import Skrynia.Lib.Table
import Skrynia.Lib.Runs
import Skrynia.Lib.Rolling
import Skrynia.Lib.Held
import Skrynia.Lib.Cell
import Skrynia.Lib.Keyset
import Skrynia.Lib.Rekeyed
import Skrynia.Lib.DoubleEntry
import Skrynia.Domain.Uuid
import Skrynia.Domain.Money
import Skrynia.Domain.Enums
import Skrynia.Orders.Transitions
import Skrynia.Db.Schema
import Skrynia.Db.Balances
import Skrynia.Orders.OrderTransition
import Skrynia.Orders.Accounting
import Skrynia.Orders.Ledger
import Skrynia.Orders.Effects
import Skrynia.Orders.Routes
import Skrynia.Users.Wallet
import Skrynia.Users.Payout
import Skrynia.Market.System
import Skrynia.Market.Postings
import Skrynia.Market.Agreement
import Skrynia.Market.Backing
import Skrynia.Market.Timeline
import Skrynia.Disputes.Resolution
import Skrynia.Disputes.Saga
import Skrynia.Disputes.SingleOutcome
import Skrynia.Orders.Success
import Skrynia.Disputes.Resume
import Skrynia.Outbox.Worker
import Skrynia.Outbox.Delivery
import Skrynia.Idempotency.Transaction
import Skrynia.Idempotency.Calls
import Skrynia.Idempotency.ExactlyOnce
import Skrynia.Idempotency.Outcome
import Skrynia.Payments.Webhook
import Skrynia.Payments.Recorded
import Skrynia.Payments.Callbacks
import Skrynia.Payments.Funding
import Skrynia.Lib.Json
import Skrynia.Common.Pagination
import Skrynia.Orders.ListOrders
import Skrynia.Orders.ReadCache
import Skrynia.Marketplace.Cursor
import Skrynia.Marketplace.Products
import Skrynia.Marketplace.Pages
import Skrynia.Marketplace.Cache
import Skrynia.Storage.Objects
import Skrynia.Storage.System
import Skrynia.Storage.Bytes
import Skrynia.Storage.Lifecycle
import Skrynia.Storage.Quota
import Skrynia.Storage.Semaphores
import Skrynia.Auth.TwoFactor
import Skrynia.Auth.SecondFactor
import Skrynia.Auth.AcceptedCodes
import Skrynia.Auth.SingleUse
import Skrynia.Common.Text
import Skrynia.Users.Phone
import Skrynia.Catalog.Validation
import Skrynia.Marketplace.Lots
import Skrynia.Catalog.SchemaVersions
import Skrynia.Catalog.Consistency
import Skrynia.Catalog.PinnedLots
import Skrynia.Marketplace.StaffBlock
import Skrynia.Auth.Login
import Skrynia.Auth.Liveness
import Skrynia.Auth.Gate
import Skrynia.Auth.Resend
import Skrynia.Auth.ResendWindows
import Skrynia.Auth.ResendCalls
import Skrynia.Auth.ResendLimits
import Skrynia.Chat.WebSockets
import Skrynia.Chat.LiveConnections
import Skrynia.Lib.Query
import Skrynia.Marketplace.SearchDocuments
import Skrynia.Marketplace.SearchDrift
import Skrynia.Chat.Messages
import Skrynia.Chat.SentOnce
import Skrynia.Chat.Unread
import Skrynia.Realtime.Client
import Skrynia.Realtime.Link
import Skrynia.Realtime.Protocol
import Skrynia.Realtime.Rooms
import Skrynia.Lib.Rate
import Skrynia.Orders.Fees
import Skrynia.Lib.Decimal
import Skrynia.Common.MoneyText
import Skrynia.Frontend.Money
import Skrynia.Catalog.Conformance
import Skrynia.Marketplace.CamelKey
import Skrynia.Marketplace.ProductDto
import Skrynia.Marketplace.Relevance
import Skrynia.Lib.Offset
import Skrynia.Lib.Like
import Skrynia.Lib.Where
import Skrynia.Catalog.MetadataFilters
import Skrynia.Catalog.FilterTypes
import Skrynia.Lib.Interleaved
import Skrynia.Lib.Promises
import Skrynia.Frontend.RefreshLeases
import Skrynia.Frontend.PageLock
import Skrynia.Frontend.FifoLock
import Skrynia.Marketplace.MoneySorts
import Skrynia.Marketplace.CachedContent
import Skrynia.Marketplace.Recheck
import Skrynia.Auth.LoginSteps
import Skrynia.Lib.InsertionMap
import Skrynia.Realtime.EventBus
import Skrynia.Lib.BitGroups
import Skrynia.Auth.Base32
import Skrynia.Lib.Base64
import Skrynia.Lib.Aead
import Skrynia.Auth.TwoFactorCrypto
import Skrynia.Lib.Rounding
import Skrynia.Lib.Scientific
import Skrynia.Frontend.Currency
import Skrynia.Lib.Utf16
import Skrynia.Lib.JsTree
import Skrynia.Idempotency.PayloadHash
import Skrynia.Lib.Scrub
import Skrynia.Common.AuditRedact
import Skrynia.Lib.Regex
import Skrynia.Frontend.SentrySanitize
import Skrynia.Lib.Expiring
import Skrynia.Auth.RefreshFamilies
import Skrynia.Auth.FamilyFence
import Skrynia.Auth.RecordedSessions
import Skrynia.Auth.Logout
import Skrynia.Auth.Rotation
import Skrynia.Auth.AccountCommits
import Skrynia.Auth.ResetLinks
import Skrynia.Auth.LoginBound
import Skrynia.Auth.NewestLink
import Skrynia.Lib.Backlog
import Skrynia.Jobs.EscrowSweep
import Skrynia.Lib.Flags
import Skrynia.Frontend.LeaseSystem
import Skrynia.Frontend.LeaseHolders
import Skrynia.Frontend.LeaseRecords
import Skrynia.Frontend.LeaseExclusion
import Skrynia.Frontend.LeaseOrder
import Skrynia.Lib.Histories
import Skrynia.Auth.EmailChanges
import Skrynia.Lib.ForkJoin
import Skrynia.Outbox.Handlers
import Skrynia.Outbox.Intended
import Skrynia.Outbox.HandledOnce
