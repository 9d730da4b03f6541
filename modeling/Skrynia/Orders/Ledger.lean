/-
Escrow: capture, release and refund.

Each function is one serializable transaction. It locks the order, moves
the participants' balances by checked arithmetic, writes the history
rows, posts the ledger entry and takes the status transition. What comes
from outside the database (the clock, generated uuids, the payment
provider's answer) is an argument.

The cache evictions after COMMIT read and write nothing here.
-/
import Skrynia.Db.Balances
import Skrynia.Orders.Accounting
import Skrynia.Orders.OrderTransition

namespace Skrynia

open Relational

/-- The largest value of an integer column. -/
def int4Max : Nat := 2147483647

-- ==================================================== checked arithmetic

/-- `checkedBalanceAddition`. -/
def checkedBalanceAddition (current added : MoneyCents)
    (balanceName : String) : DbTx MoneyCents :=
  liftExcept (addMoneyCents current added) fun e =>
    match e with
    | .range => badRequest (balanceName ++ " exceeds the supported money range")
    | e => moneyError e

/-- `checkedBalanceSubtraction`. -/
def checkedBalanceSubtraction (current subtracted : MoneyCents)
    (insufficientMessage : String) : DbTx MoneyCents := do
  require (subtracted.val ≤ current.val) (badRequest insufficientMessage)
  liftExcept (subtractMoneyCents current subtracted) fun e =>
    match e with
    | .range => badRequest "Balance exceeds the supported money range"
    | e => moneyError e

-- =========================================================== small writes

/-- One row for `transactions`; the database checks type and sign. -/
def insertTransaction (cfg : Config) (id : Uuid) (wallet : WalletKey)
    (orderId : Option Uuid) (type : TransactionType)
    (direction : TransactionDirection) (amount : MoneyCents)
    (status : TransactionStatus) : DbTx Uuid := do
  require (type ∈ cfg.transactionTypes)
    (.violation "transactions_type_check")
  if h : 0 ≤ amount.val then do
    let table ← select fun db => db.transactions.insert?
      ⟨id, wallet, orderId, type, direction, amount, status, h⟩
    let table ← orThrow table (.violation "transactions_pkey")
    modify fun db => db.setTransactions table
    return id
  else throw (.violation "transactions_amount_cents_check")

/-- `createOrderSystemMessage`: the order's chat may not exist. -/
def createOrderSystemMessage (id orderId : Uuid)
    (systemType bodyKey : String) (params : List (String × String))
    (resolution : Option (DisputeDecision × Uuid)) : DbTx (Option Uuid) := do
  let conversation ← select fun db => db.conversations.find? orderId
  match conversation with
  | none => return none
  | some conversation => do
      let table ← select fun db => db.messages.insert?
        ⟨id, conversation.id, systemType, bodyKey, params, resolution⟩
      let table ← orThrow table (.violation "messages_pkey")
      modify fun db => db.setMessages table
      return some id

/-- `{ systemMessageIds: message ? [message.id] : [] }`. -/
def messageMetadata (message : Option Uuid) : TransitionMetadata :=
  { TransitionMetadata.none with
    systemMessageIds := .strs (message.toList.map Uuid.text) }

/-- The row with another stock. -/
def Product.withStock (product : Product) (stock : Nat) : Product :=
  { product with stock := stock }

/-- The row with another count of sales. -/
def Product.withSales (product : Product) (salesCount : Nat) : Product :=
  { product with salesCount := salesCount }

/-- `update products set stock = stock - …`. -/
def reserveStock (product : Product) (quantity : Nat) : DbTx Unit :=
  modify fun db =>
    db.putProduct (product.withStock (product.stock - quantity))

/-- `update products set sales_count = sales_count + …`. -/
def countSale (productId : Uuid) (quantity : Nat) : DbTx Unit := do
  let product ← select fun db => db.products.find? productId
  match product with
  | none => return ()
  | some product => do
      require (product.salesCount + quantity ≤ int4Max)
        (.violation "integer out of range")
      modify fun db =>
        db.putProduct (product.withSales (product.salesCount + quantity))

/-- The row with its payment columns written. -/
def OrderRow.withPayment (order : OrderRow) (fee : MoneyCents)
    (h : 0 ≤ fee.val) (provider reference : String)
    (deliveryNote : Option String) : OrderRow :=
  { order with
    feeCents := fee
    paymentProvider := some provider
    paymentReference := some reference
    deliveryNote := deliveryNote.or order.deliveryNote
    fee_nonneg := h }

/-- `update orders set fee_cents = …, payment_provider = …`. -/
def storePayment (order : OrderRow) (fee : MoneyCents)
    (provider reference : String) (deliveryNote : Option String) :
    DbTx Unit :=
  if h : 0 ≤ fee.val then
    modify fun db => db.putOrder
      (order.withPayment fee h provider reference deliveryNote)
  else throw (.violation "orders_fee_cents_check")

-- ================================================================ capture

/-- `PaymentProviderName`. -/
inductive PaymentProviderName where
  | mock
  | stripe
  | liqpay
  | fondy
  | monobank
  | manual
  | wayforpay
deriving DecidableEq

/-- What a provider has confirmed. -/
structure PaymentResult where
  provider : String
  reference : String

/-- What `lockEscrow` is called with. -/
structure LockEscrowInput where
  orderId : Uuid
  buyerId : Uuid
  providerName : PaymentProviderName
  /-- `options.actor`. -/
  actor : Option Actor
  /-- What `provider.capture` answers, `none` when it throws. -/
  capture : Option PaymentResult
  /-- Uuids the database generates, in the order of the inserts. -/
  captureId : Uuid
  holdId : Uuid
  messageId : Uuid

/-- Who pays, unless the caller says. -/
def LockEscrowInput.actorFor (input : LockEscrowInput) (order : OrderRow) :
    Actor :=
  input.actor.getD
    (if input.providerName = .mock then
      .service (.user order.buyerId) .testPayment
    else .user (.user order.buyerId) .buyer)

/-- The delivery template of an instant product, where it has one. -/
def Product.instantTemplate (product : Product) : Option String :=
  if product.deliveryType = .instant then
    product.deliveryTemplate.filter fun t => t ≠ ""
  else none

/-- The transition of a capture. -/
def captureTransitionInput (input : LockEscrowInput) (order : OrderRow)
    (product : Product) (payment : PaymentResult) (message : Option Uuid) :
    TransitionOrderInput where
  orderId := order.id
  toStatus := if product.instantTemplate.isSome then .delivered else .paid
  actor := input.actorFor order
  reason := .paymentCaptured
  expectedFrom := some [.pending]
  metadata :=
    { messageMetadata message with provider := .str payment.provider }

/-- `lockEscrow`: the payment is captured into the seller's escrow. -/
def lockEscrow (cfg : Config) (now : Timestamp) (input : LockEscrowInput) :
    DbTx OrderRow := do
  let order ← selectOrderForUpdate input.orderId
  require (order.buyerId = input.buyerId)
    (forbidden "Only the buyer can pay this order")
  require (order.status = .pending)
    (badRequest "Only pending orders can be paid")
  let product ← select fun db => db.products.find? order.productId
  let product ← orThrow (product.filter fun p => p.status = .active)
    (badRequest "Product is no longer available")
  require (order.quantity ≤ product.stock) (badRequest "Not enough stock")
  let sellerWalletId ← ensureWallet order.sellerId order.currency
  let buyerWalletId ← ensureWallet order.buyerId order.currency
  let sellerWallet ← selectWallet sellerWalletId
  let nextEscrowCents ← checkedBalanceAddition sellerWallet.escrowCents
    order.amountCents "Seller escrow balance"
  let feeCents ← liftExcept
    (platformFeeCents order.amountCents cfg.platformFeeBps) moneyError
  reserveStock product order.quantity
  let payment ← orThrow input.capture (.error "payment capture failed")
  setEscrow sellerWalletId nextEscrowCents
  let _ ← insertTransaction cfg input.captureId buyerWalletId order.id
    .paymentCapture .neutral order.amountCents .posted
  let _ ← insertTransaction cfg input.holdId sellerWalletId order.id
    .escrowHold .credit order.amountCents .posted
  recordPaymentCaptureLedger order.id order.sellerId order.amountCents
    order.currency
  storePayment order feeCents payment.provider payment.reference
    product.instantTemplate
  let message ← createOrderSystemMessage input.messageId order.id
    "payment_received" "system.paymentReceived" [] none
  transitionOrder cfg now
    (captureTransitionInput input order product payment message)

-- ================================================================ release

/-- Who released the escrow. -/
inductive ReleaseSource where
  | buyerConfirmed
  | auto
  | dispute
  | service
deriving DecidableEq

/-- `ReleaseEscrowOptions`, and the generated uuids. -/
structure ReleaseEscrowInput where
  orderId : Uuid
  adminId : Option ActorId
  source : Option ReleaseSource
  actorId : Option ActorId
  messageId : Uuid
  releaseId : Uuid
  feeId : Uuid

/-- An id text that JavaScript treats as true. -/
def ActorId.truthy? (id : Option ActorId) : Option ActorId :=
  id.filter fun id => id ≠ .named ""

/-- The source that is recorded, by default from whether there is an
admin. -/
def ReleaseEscrowInput.resolvedSource (input : ReleaseEscrowInput) :
    ReleaseSource :=
  input.source.getD
    (if (ActorId.truthy? input.adminId).isSome then .dispute else .service)

/-- Actor, reason and expected statuses of a release, by source. -/
def releaseTransition (input : ReleaseEscrowInput) (order : OrderRow) :
    Actor × TransitionReason × List OrderStatus :=
  match input.resolvedSource with
  | .buyerConfirmed =>
      (.user (input.actorId.getD (.user order.buyerId)) .buyer,
        .buyerConfirmed, [.delivered])
  | .auto =>
      (.service (.named "auto-release-worker") .autoRelease,
        .autoReleased, [.delivered])
  | .dispute =>
      (.user (input.adminId.getD (.named "")) .admin,
        .disputeReleased, [.disputed])
  | .service =>
      (.service (.named "escrow-service") .system,
        .serviceReleased, [.delivered, .disputed])

/-- The transition of a release. -/
def releaseTransitionInput (input : ReleaseEscrowInput) (order : OrderRow)
    (message : Option Uuid) : TransitionOrderInput where
  orderId := input.orderId
  toStatus := .completed
  actor := (releaseTransition input order).1
  reason := (releaseTransition input order).2.1
  expectedFrom := some (releaseTransition input order).2.2
  metadata := messageMetadata message

/-- The chat message of a release that no dispute resolution writes. -/
def releaseMessage (input : ReleaseEscrowInput) : DbTx (Option Uuid) :=
  match input.resolvedSource with
  | .buyerConfirmed =>
      createOrderSystemMessage input.messageId input.orderId
        "escrow_released" "system.escrowReleased" [] none
  | .auto =>
      createOrderSystemMessage input.messageId input.orderId
        "escrow_released" "system.fundsReleased" [] none
  | .dispute | .service => return none

/-- The platform's next revenue, where there is a fee to book. -/
def nextRevenue (currency : Currency) (fee : MoneyCents) :
    DbTx (Option MoneyCents) :=
  if 0 < fee.val then do
    let platformWallet ← select fun db => db.platformWallets.find? currency
    let platformWallet ← orThrow platformWallet
      (.error ("Platform wallet is missing for " ++ currency))
    let next ← checkedBalanceAddition platformWallet.revenueCents fee
      "Platform revenue balance"
    return some next
  else return none

/-- The platform's revenue, if there is a fee. -/
def storeRevenue (currency : Currency) : Option MoneyCents → DbTx Unit
  | some next => setRevenue currency next
  | none => return ()

/-- `releaseEscrow`: the seller gets the net amount, the platform the fee. -/
def releaseEscrow (cfg : Config) (now : Timestamp)
    (input : ReleaseEscrowInput) : DbTx OrderRow := do
  let order ← selectOrderForUpdate input.orderId
  require (canTransitionOrder order.status .completed)
    (badRequest "Only delivered or disputed orders can be released")
  let message ← releaseMessage input
  let updated ← transitionOrder cfg now
    (releaseTransitionInput input order message)
  let sellerWalletId ← ensureWallet order.sellerId order.currency
  let sellerWallet ← selectWallet sellerWalletId
  require (order.feeCents.val ≤ order.amountCents.val)
    (badRequest "Platform fee exceeds the order amount")
  let netCents ← liftExcept
    (subtractMoneyCents order.amountCents order.feeCents) moneyError
  let nextEscrowCents ← checkedBalanceSubtraction sellerWallet.escrowCents
    order.amountCents "Escrow balance is insufficient"
  let nextAvailableCents ← checkedBalanceAddition
    sellerWallet.availableCents netCents "Seller available balance"
  let nextRevenueCents ← nextRevenue order.currency order.feeCents
  -- one UPDATE statement with two columns
  setEscrow sellerWalletId nextEscrowCents
  setAvailable sellerWalletId nextAvailableCents
  storeRevenue order.currency nextRevenueCents
  let _ ← insertTransaction cfg input.releaseId sellerWalletId order.id
    .escrowRelease .credit netCents .posted
  let _ ← insertTransaction cfg input.feeId sellerWalletId order.id
    .platformFee .debit order.feeCents .posted
  recordEscrowReleaseLedger order.id order.sellerId order.amountCents
    order.feeCents order.currency
  countSale order.productId order.quantity
  return updated

-- ================================================================= refund

/-- What `refundEscrow` is called with. -/
structure RefundEscrowInput where
  orderId : Uuid
  adminId : Option ActorId
  debitId : Uuid
  creditId : Uuid

/-- Actor, reason and expected statuses of a refund. -/
def refundTransition (input : RefundEscrowInput) :
    Actor × TransitionReason × List OrderStatus :=
  match ActorId.truthy? input.adminId with
  | some adminId => (.user adminId .admin, .disputeRefunded, [.disputed])
  | none =>
      (.service (.named "escrow-service") .system, .serviceRefunded,
        [.paid, .inProgress, .delivered, .disputed])

/-- The transition of a refund. -/
def refundTransitionInput (input : RefundEscrowInput) :
    TransitionOrderInput where
  orderId := input.orderId
  toStatus := .refunded
  actor := (refundTransition input).1
  reason := (refundTransition input).2.1
  expectedFrom := some (refundTransition input).2.2
  metadata := .none

/-- `refundEscrow`: the amount goes back to the buyer. -/
def refundEscrow (cfg : Config) (now : Timestamp)
    (input : RefundEscrowInput) : DbTx OrderRow := do
  let order ← selectOrderForUpdate input.orderId
  require (canTransitionOrder order.status .refunded)
    (badRequest "Only escrowed orders can be refunded")
  let updated ← transitionOrder cfg now (refundTransitionInput input)
  let sellerWalletId ← ensureWallet order.sellerId order.currency
  let buyerWalletId ← ensureWallet order.buyerId order.currency
  let sellerWallet ← selectWallet sellerWalletId
  let buyerWallet ← selectWallet buyerWalletId
  let nextEscrowCents ← checkedBalanceSubtraction sellerWallet.escrowCents
    order.amountCents "Escrow balance is insufficient"
  let nextBuyerAvailableCents ← checkedBalanceAddition
    buyerWallet.availableCents order.amountCents "Buyer available balance"
  setEscrow sellerWalletId nextEscrowCents
  setAvailable buyerWalletId nextBuyerAvailableCents
  let _ ← insertTransaction cfg input.debitId sellerWalletId order.id
    .refund .debit order.amountCents .posted
  let _ ← insertTransaction cfg input.creditId buyerWalletId order.id
    .refund .credit order.amountCents .posted
  recordRefundLedger order.id order.sellerId order.buyerId
    order.amountCents order.currency
  return updated

end Skrynia
