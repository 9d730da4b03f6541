/-
The PostgreSQL tables of the money core.

One structure a table, with the columns that some modelled statement
reads or writes; audit columns that nothing reads (`created_at`,
`updated_at`) and rendered texts are left out. A CHECK constraint is a
field of its row, so a row that violates it cannot be built and a
statement that would store one has to abort. A unique index is the key
of its `Table`.

# Natural keys

A wallet is unique per `(user_id, currency)`, a ledger account per
`code` and an entry per `idempotency_key`. References to them use these
keys where the schema has a surrogate uuid, and a ledger entry carries
its lines.
-/
import Skrynia.Domain.Money
import Skrynia.Lib.DoubleEntry
import Skrynia.Lib.Table
import Skrynia.Lib.Tx
import Skrynia.Orders.Transitions

namespace Skrynia

open Relational

/-- Milliseconds on the database clock. -/
abbrev Timestamp := Nat

/-- `users`. -/
structure User where
  id : Uuid
  role : Role
  isBanned : Bool

-- ================================================================ money

/-- `wallets`: both balances are not negative. -/
structure Wallet where
  userId : Uuid
  currency : Currency
  availableCents : MoneyCents
  escrowCents : MoneyCents
  available_nonneg : 0 ≤ availableCents.val
  escrow_nonneg : 0 ≤ escrowCents.val

/-- The unique key of a wallet. -/
abbrev WalletKey := Uuid × Currency

/-- The key of a row. -/
def Wallet.key (w : Wallet) : WalletKey := (w.userId, w.currency)

/-- A new wallet, both balances at their default. -/
def Wallet.opened (key : WalletKey) : Wallet where
  userId := key.1
  currency := key.2
  availableCents := .zero
  escrowCents := .zero
  available_nonneg := MoneyCents.zero_nonneg
  escrow_nonneg := MoneyCents.zero_nonneg

/-- A wallet is opened under its key. -/
@[simp] theorem Wallet.key_opened (key : WalletKey) :
    (Wallet.opened key).key = key := rfl

/-- `platform_wallets`. -/
structure PlatformWallet where
  currency : Currency
  revenueCents : MoneyCents
  revenue_nonneg : 0 ≤ revenueCents.val

/-- `wallet_topups.status`. -/
inductive TopupStatus where
  | pending
  | completed
  | failed
deriving DecidableEq

/-- `wallet_topups`. -/
structure WalletTopup where
  id : Uuid
  userId : Uuid
  amountCents : MoneyCents
  currency : Currency
  status : TopupStatus
  paymentProvider : Option String
  paymentReference : Option String
  completedAt : Option Timestamp
  amount_pos : 0 < amountCents.val

/-- `transactions.type`. -/
inductive TransactionType where
  | paymentCapture
  | escrowHold
  | escrowRelease
  | platformFee
  | refund
  | walletCredit
  | walletDebit
  | manualAdjustment
deriving DecidableEq

/-- The list in the CHECK of `transactions.type`. -/
def transactionTypes : List TransactionType :=
  [.paymentCapture, .escrowHold, .escrowRelease, .platformFee, .refund,
    .walletCredit, .walletDebit]

/-- `transactions.direction`. -/
inductive TransactionDirection where
  | credit
  | debit
  | neutral
deriving DecidableEq

/-- `transactions.status`. -/
inductive TransactionStatus where
  | pending
  | posted
  | voided
deriving DecidableEq

/-- A row of `transactions`, the participants' history. -/
structure Transaction where
  id : Uuid
  wallet : WalletKey
  orderId : Option Uuid
  type : TransactionType
  direction : TransactionDirection
  amountCents : MoneyCents
  status : TransactionStatus
  amount_nonneg : 0 ≤ amountCents.val

/-- `payouts.status`. -/
inductive PayoutStatus where
  | pending
  | processing
  | paid
  | rejected
deriving DecidableEq

/-- `payouts.provider`. -/
inductive PayoutProviderName where
  | manual
  | liqpay
deriving DecidableEq

/-- `payouts`. -/
structure Payout where
  id : Uuid
  userId : Uuid
  transactionId : Uuid
  amountCents : MoneyCents
  currency : Currency
  provider : PayoutProviderName
  status : PayoutStatus
  reference : Option String
  adminNote : Option String
  processedBy : Option Uuid
  processedAt : Option Timestamp
  amount_nonneg : 0 ≤ amountCents.val

-- =============================================================== ledger

/-- `ledger_accounts.account_type`. -/
inductive AccountType where
  | asset
  | liability
  | revenue
  | expense
  | equity
deriving DecidableEq

/-- `ledger_accounts`. -/
structure LedgerAccountRow where
  code : String
  name : String
  accountType : AccountType
  currency : Currency
  userId : Option Uuid

/-- `ledger_entries.entry_type`. -/
inductive LedgerEntryType where
  | paymentCapture
  | escrowRelease
  | refund
  | adjustment
deriving DecidableEq

/-- A row of `ledger_entries` with its `ledger_lines`; each line names
its account by code and is in the entry's currency. -/
structure LedgerEntry where
  idempotencyKey : String
  entryType : LedgerEntryType
  orderId : Option Uuid
  currency : Currency
  lines : List (DoubleEntry.Line String)

-- =============================================================== orders

/-- `products`, as far as orders read it. -/
structure Product where
  id : Uuid
  sellerId : Uuid
  priceCents : MoneyCents
  currency : Currency
  stock : Nat
  status : ProductStatus
  deliveryType : DeliveryType
  deliveryTemplate : Option String
  salesCount : Nat
  price_pos : 0 < priceCents.val

/-- `OrderRow`. -/
structure OrderRow where
  id : Uuid
  buyerId : Uuid
  sellerId : Uuid
  productId : Uuid
  quantity : Nat
  amountCents : MoneyCents
  feeCents : MoneyCents
  currency : Currency
  status : OrderStatus
  paymentProvider : Option String
  paymentReference : Option String
  deliveryNote : Option String
  autoReleaseAt : Option Timestamp
  paidAt : Option Timestamp
  deliveredAt : Option Timestamp
  completedAt : Option Timestamp
  amount_pos : 0 < amountCents.val
  fee_nonneg : 0 ≤ feeCents.val

/-- `metadata.transition` of a timeline row. -/
structure TransitionRecord where
  fromStatus : OrderStatus
  toStatus : OrderStatus
  reason : TransitionReason
  actor : Actor
deriving DecidableEq

/-- A row of `order_events`. `body` is set only where the caller passes a
raw text instead of the template's. -/
structure OrderEvent where
  orderId : Uuid
  actorId : Option Uuid
  type : String
  templateKey : String
  body : Option String
  provider : Option String
  transition : Option TransitionRecord
  resolution : Option (DisputeDecision × Uuid)
deriving DecidableEq

-- ======================================================= chat, disputes

/-- `conversations`, as far as orders read it. -/
structure Conversation where
  id : Uuid
  orderId : Uuid

/-- A system message: `messages` rows of kind `system`. -/
structure SystemMessage where
  id : Uuid
  conversationId : Uuid
  systemType : String
  bodyKey : String
  params : List (String × String)
  resolution : Option (DisputeDecision × Uuid)
deriving DecidableEq

/-- `disputes`. -/
structure Dispute where
  id : Uuid
  orderId : Uuid
  openedBy : Uuid
  reason : String
  status : DisputeStatus
  resolution : Option DisputeDecision
  resolutionDecision : Option DisputeDecision
  resolutionOperationId : Option Uuid
  resolvingStartedAt : Option Timestamp
  resolutionAttempts : Nat
  lastResolutionError : Option String
  adminId : Option Uuid
  adminNote : Option String
  resolvedAt : Option Timestamp

namespace Dispute

/-- A claim was taken and its data are all there. -/
def Claimed (d : Dispute) : Prop :=
  d.resolutionDecision.isSome ∧ d.resolutionOperationId.isSome
    ∧ d.resolvingStartedAt.isSome ∧ 0 < d.resolutionAttempts

/-- `disputes_resolution_state_check`. -/
def StateCheck (d : Dispute) : Prop :=
  d.status = .open
    ∨ (d.status = .resolving ∨ d.status = .resolutionFailed) ∧ d.Claimed
    ∨ d.status = .resolved ∧ d.Claimed
      ∧ d.resolution = d.resolutionDecision ∧ d.resolvedAt.isSome

instance (d : Dispute) : Decidable d.Claimed :=
  inferInstanceAs (Decidable (_ ∧ _ ∧ _ ∧ _))

instance (d : Dispute) : Decidable d.StateCheck :=
  inferInstanceAs (Decidable (_ ∨ _ ∧ _ ∨ _ ∧ _ ∧ _ ∧ _))

end Dispute

-- =============================================================== outbox

/-- The domain event types that the money core enqueues. -/
inductive DomainEventType where
  | orderCreated
  | orderPaid
  | orderCanceled
  | orderStarted
  | orderDelivered
  | orderCompleted
  | orderRefunded
  | disputeOpened
  | disputeResolved
deriving DecidableEq

/-- The texts of the types, as they are stored. -/
def DomainEventType.text : DomainEventType → String
  | orderCreated => "order.created"
  | orderPaid => "order.paid"
  | orderCanceled => "order.canceled"
  | orderStarted => "order.started"
  | orderDelivered => "order.delivered"
  | orderCompleted => "order.completed"
  | orderRefunded => "order.refunded"
  | disputeOpened => "dispute.opened"
  | disputeResolved => "dispute.resolved"

/-- The payload of an order or dispute event; a field that an event type
does not have is absent. -/
structure OutboxPayload where
  orderId : Uuid
  buyerId : Uuid
  sellerId : Uuid
  productId : Option Uuid
  systemMessageIds : List String
  conversationId : Option Uuid
  source : Option String
  actorId : Option ActorId
  disputeId : Option String
  decision : Option DisputeDecision
deriving DecidableEq

/-- A row of `domain_outbox`, as its producer inserts it. -/
structure OutboxEvent where
  eventKey : String
  eventType : DomainEventType
  aggregateType : String
  aggregateId : String
  payload : OutboxPayload
deriving DecidableEq

-- ========================================================= the database

/-- The table of wallets. -/
abbrev Wallets := Table Wallet.key

/-- All tables together. -/
structure Db where
  users : Table User.id
  wallets : Wallets
  platformWallets : Table PlatformWallet.currency
  walletTopups : Table WalletTopup.id
  transactions : Table Transaction.id
  payouts : Table Payout.id
  ledgerAccounts : Table LedgerAccountRow.code
  ledgerEntries : Table LedgerEntry.idempotencyKey
  products : Table Product.id
  orders : Table OrderRow.id
  orderEvents : List OrderEvent
  conversations : Table Conversation.orderId
  messages : Table SystemMessage.id
  disputes : Table Dispute.id
  domainOutbox : Table OutboxEvent.eventKey

/-- A database without rows. -/
def Db.empty : Db where
  users := .empty
  wallets := .empty
  platformWallets := .empty
  walletTopups := .empty
  transactions := .empty
  payouts := .empty
  ledgerAccounts := .empty
  ledgerEntries := .empty
  products := .empty
  orders := .empty
  orderEvents := []
  conversations := .empty
  messages := .empty
  disputes := .empty
  domainOutbox := .empty

-- ============================================================== updates

-- One function for each write of some statement. A chain of them stays
-- readable, and `simp` reads a column through it.

namespace Db

variable (db : Db)

/-- A user's row is written. -/
@[simp] def putUser (u : User) : Db := { db with users := db.users.set u }

/-- Insert a wallet on conflict do nothing. -/
@[simp] def openWallet (k : WalletKey) : Db :=
  { db with wallets := db.wallets.upsert (.opened k) }

/-- A wallet's row is written. -/
@[simp] def putWallet (w : Wallet) : Db :=
  { db with wallets := db.wallets.set w }

/-- A row of the platform is written. -/
@[simp] def putPlatformWallet (p : PlatformWallet) : Db :=
  { db with platformWallets := db.platformWallets.set p }

/-- The rows of the platform are replaced. -/
@[simp] def setPlatformWallets (t : Table PlatformWallet.currency) : Db :=
  { db with platformWallets := t }

/-- A top-up's row is written. -/
@[simp] def putTopup (t : WalletTopup) : Db :=
  { db with walletTopups := db.walletTopups.set t }

/-- The transactions are replaced. -/
@[simp] def setTransactions (t : Table Transaction.id) : Db :=
  { db with transactions := t }

/-- The payouts are replaced. -/
@[simp] def setPayouts (t : Table Payout.id) : Db := { db with payouts := t }

/-- A payout's row is written. -/
@[simp] def putPayout (p : Payout) : Db :=
  { db with payouts := db.payouts.set p }

/-- Ledger accounts and entries are replaced. -/
@[simp] def setLedger (accounts : Table LedgerAccountRow.code)
    (entries : Table LedgerEntry.idempotencyKey) : Db :=
  { db with ledgerAccounts := accounts, ledgerEntries := entries }

/-- The products are replaced. -/
@[simp] def setProducts (t : Table Product.id) : Db :=
  { db with products := t }

/-- A product's row is written. -/
@[simp] def putProduct (p : Product) : Db :=
  { db with products := db.products.set p }

/-- The orders are replaced. -/
@[simp] def setOrders (t : Table OrderRow.id) : Db := { db with orders := t }

/-- An order's row is written. -/
@[simp] def putOrder (o : OrderRow) : Db :=
  { db with orders := db.orders.set o }

/-- An event is added to the timelines. -/
@[simp] def addOrderEvent (e : OrderEvent) : Db :=
  { db with orderEvents := db.orderEvents ++ [e] }

/-- The conversations are replaced. -/
@[simp] def setConversations (t : Table Conversation.orderId) : Db :=
  { db with conversations := t }

/-- The messages are replaced. -/
@[simp] def setMessages (t : Table SystemMessage.id) : Db :=
  { db with messages := t }

/-- The disputes are replaced. -/
@[simp] def setDisputes (t : Table Dispute.id) : Db := { db with disputes := t }

/-- A dispute's row is written. -/
@[simp] def putDispute (d : Dispute) : Db :=
  { db with disputes := db.disputes.set d }

/-- Insert an outbox event on conflict do nothing. -/
@[simp] def addOutboxEvent (e : OutboxEvent) : Db :=
  { db with domainOutbox := db.domainOutbox.upsert e }

end Db

/-- The environment, within the bounds the configuration schema checks,
and the transaction types the database accepts. -/
structure Config where
  platformFeeBps : Nat
  autoReleaseHours : Nat
  transactionTypes : List TransactionType
  fee_bounds : 500 ≤ platformFeeBps ∧ platformFeeBps ≤ 1500
  hours_pos : 1 ≤ autoReleaseHours

/-- The configuration defaults. -/
def defaultConfig : Config where
  platformFeeBps := 1000
  autoReleaseHours := 72
  transactionTypes := transactionTypes
  fee_bounds := by decide
  hours_pos := by decide

/-- How a statement or a check ends a transaction. -/
inductive Failure where
  /-- `ApiError`, with its HTTP status. -/
  | api (status : Nat) (message : String)
  /-- Any other `Error`. -/
  | error (message : String)
  /-- PostgreSQL refused a statement. -/
  | violation (constraint : String)
deriving DecidableEq

/-- `badRequest`. -/
def badRequest (message : String) : Failure := .api 400 message

/-- `forbidden`. -/
def forbidden (message : String) : Failure := .api 403 message

/-- `notFound`. -/
def notFound (message : String) : Failure := .api 404 message

/-- `conflict`. -/
def conflict (message : String) : Failure := .api 409 message

/-- `serviceUnavailable`. -/
def serviceUnavailable (message : String) : Failure := .api 503 message

/-- A transaction body on the database. -/
abbrev DbTx (α : Type) := Tx Db Failure α

end Skrynia
