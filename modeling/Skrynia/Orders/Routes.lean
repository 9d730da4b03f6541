/-
The order routes that move no money.

Creating an order, starting it, delivering it, opening a dispute and a
failed test payment. Each body is the transaction of one handler; the
confirm route and the auto-release sweep call `releaseEscrow`, the pay
route and the payment callbacks `lockEscrow`.

# What they do to an order

`Walked` is the one shape of all four that work on an existing order: an
edge of the graph, taken without touching a balance or the ledger.
-/
import Skrynia.Orders.Effects

namespace Skrynia

open Relational

-- ========================================================= a new order

/-- `createOrderSchema`, the caller, and the generated uuids. -/
structure CreateOrderInput where
  buyerId : Uuid
  productId : Uuid
  quantity : Nat
  orderId : Uuid
  conversationId : Uuid
  messageId : Uuid
  quantity_bounds : 1 ≤ quantity ∧ quantity ≤ 100

/-- The row as the defaults of the table fill it. -/
def CreateOrderInput.order (input : CreateOrderInput) (product : Product)
    (amount : MoneyCents) (h : 0 < amount.val) : OrderRow where
  id := input.orderId
  buyerId := input.buyerId
  sellerId := product.sellerId
  productId := product.id
  quantity := input.quantity
  amountCents := amount
  feeCents := .zero
  currency := product.currency
  status := .pending
  paymentProvider := none
  paymentReference := none
  deliveryNote := none
  autoReleaseAt := none
  paidAt := none
  deliveredAt := none
  completedAt := none
  amount_pos := h
  fee_nonneg := MoneyCents.zero_nonneg

/-- The order is inserted, if its amount is positive. -/
def insertOrder (input : CreateOrderInput) (product : Product)
    (amount : MoneyCents) : DbTx OrderRow :=
  if h : 0 < amount.val then do
    let table ← select fun db =>
      db.orders.insert? (input.order product amount h)
    let table ← orThrow table (.violation "orders_pkey")
    modify fun db => db.setOrders table
    return input.order product amount h
  else throw (.violation "orders_amount_cents_check")

/-- The conversation of an order, created on first use. -/
def getOrCreateOrderConversation (id : Uuid) (order : OrderRow) :
    DbTx Uuid := do
  require (order.buyerId ≠ order.sellerId)
    (badRequest "You cannot message yourself")
  modify fun db => db.setConversations (db.conversations.upsert ⟨id, order.id⟩)
  let row ← select fun db => db.conversations.find? order.id
  let row ← orThrow row (.error "conversation row is missing")
  return row.id

/-- A system message is inserted. -/
def createSystemMessage (id conversationId : Uuid)
    (systemType bodyKey : String) : DbTx Uuid := do
  let table ← select fun db => db.messages.insert?
    ⟨id, conversationId, systemType, bodyKey, [], none⟩
  let table ← orThrow table (.violation "messages_pkey")
  modify fun db => db.setMessages table
  return id

/-- The timeline row of a new order. -/
def orderCreatedEvent (order : OrderRow) : OrderEvent where
  orderId := order.id
  actorId := some order.buyerId
  type := "created"
  templateKey := "orderEvents.created"
  body := none
  provider := none
  transition := none
  resolution := none

/-- The event of a new order. -/
def orderCreatedOutbox (order : OrderRow) (conversationId messageId : Uuid) :
    OutboxEvent :=
  orderOutboxEvent .orderCreated order
    { orderId := order.id
      buyerId := order.buyerId
      sellerId := order.sellerId
      productId := some order.productId
      systemMessageIds := [messageId.text]
      conversationId := some conversationId
      source := none
      actorId := none
      disputeId := none
      decision := none }

/-- The product is on sale by a seller who is not banned. -/
def Available (db : Db) (product : Product) : Prop :=
  product.status = .active
    ∧ (db.users.find? product.sellerId).map User.isBanned = some false

instance (db : Db) (product : Product) : Decidable (Available db product) :=
  inferInstanceAs (Decidable (_ ∧ _))

/-- `POST /orders`, where the request is not a replay. -/
def createOrder (input : CreateOrderInput) : DbTx OrderRow := do
  let product ← select fun db =>
    (db.products.find? input.productId).filter fun p => Available db p
  let product ← orThrow product (notFound "Product is unavailable")
  require (product.sellerId ≠ input.buyerId)
    (badRequest "You cannot buy your own listing")
  require (input.quantity ≤ product.stock) (badRequest "Not enough stock")
  let amount ← liftExcept
    (bigintToMoneyCents (product.priceCents.val * input.quantity))
    fun _ => badRequest "Order amount is too large"
  let order ← insertOrder input product amount
  let conversationId ← getOrCreateOrderConversation input.conversationId order
  let messageId ← createSystemMessage input.messageId conversationId
    "order_created" "system.orderCreated"
  recordOrderEvent (orderCreatedEvent order)
  let _ ← enqueueDomainEvent (orderCreatedOutbox order conversationId messageId)
  return order

-- ================================================== the seller's routes

/-- A route call on one order by a signed-in user. -/
structure OrderRouteInput where
  orderId : Uuid
  userId : Uuid
  messageId : Uuid

/-- The transition of a seller's route. -/
def sellerTransitionInput (input : OrderRouteInput) (toStatus : OrderStatus)
    (reason : TransitionReason) (expectedFrom : List OrderStatus)
    (message : Option Uuid) : TransitionOrderInput where
  orderId := input.orderId
  toStatus := toStatus
  actor := .user (.user input.userId) .seller
  reason := reason
  expectedFrom := some expectedFrom
  metadata := messageMetadata message

/-- `POST /orders/:id/start`. -/
def startOrder (cfg : Config) (now : Timestamp) (input : OrderRouteInput) :
    DbTx OrderRow := do
  let order ← selectOrderForUpdate input.orderId
  require (order.sellerId = input.userId
      ∧ canTransitionOrder order.status .inProgress)
    (badRequest "Only the seller can start a paid order")
  let message ← createOrderSystemMessage input.messageId input.orderId
    "seller_started" "system.sellerStarted" [] none
  transitionOrder cfg now
    (sellerTransitionInput input .inProgress .sellerStarted [.paid] message)

/-- The row with the seller's note. -/
def OrderRow.withDeliveryNote (order : OrderRow) (note : String) :
    OrderRow :=
  { order with deliveryNote := some note }

/-- `POST /orders/:id/deliver`. -/
def deliverOrder (cfg : Config) (now : Timestamp) (input : OrderRouteInput)
    (deliveryNote : String) : DbTx OrderRow := do
  let order ← selectOrderForUpdate input.orderId
  require (order.sellerId = input.userId
      ∧ canTransitionOrder order.status .delivered)
    (badRequest "Only the seller can deliver an active escrowed order")
  modify fun db => db.putOrder (order.withDeliveryNote deliveryNote)
  let message ← createOrderSystemMessage input.messageId input.orderId
    "delivery_sent" "system.deliverySent" [] none
  transitionOrder cfg now
    (sellerTransitionInput input .delivered .sellerDelivered
      [.paid, .inProgress] message)

-- ===================================================== opening a dispute

/-- What opening a dispute is called with. -/
structure OpenDisputeInput where
  orderId : Uuid
  userId : Uuid
  reason : String
  disputeId : Uuid
  messageId : Uuid

/-- The row as the defaults of the table fill it. -/
def OpenDisputeInput.dispute (input : OpenDisputeInput) : Dispute where
  id := input.disputeId
  orderId := input.orderId
  openedBy := input.userId
  reason := input.reason
  status := .open
  resolution := none
  resolutionDecision := none
  resolutionOperationId := none
  resolvingStartedAt := none
  resolutionAttempts := 0
  lastResolutionError := none
  adminId := none
  adminNote := none
  resolvedAt := none

/-- The dispute of an order; there is at most one. -/
def Db.disputeOf (db : Db) (orderId : Uuid) : Option Dispute :=
  db.disputes.rows.find? fun d => d.orderId = orderId

/-- The dispute is inserted: an order has one at most. -/
def insertDispute (d : Dispute) : DbTx Unit := do
  let existing ← select fun db => db.disputeOf d.orderId
  require (existing.isNone) (.violation "disputes_order_id_key")
  let table ← select fun db => db.disputes.insert? d
  let table ← orThrow table (.violation "disputes_pkey")
  modify fun db => db.setDisputes table

/-- The transition that goes with it. -/
def disputeTransitionInput (input : OpenDisputeInput)
    (message : Option Uuid) : TransitionOrderInput where
  orderId := input.orderId
  toStatus := .disputed
  actor := .user (.user input.userId) .participant
  reason := .disputeOpened
  expectedFrom := some [.paid, .inProgress, .delivered]
  metadata :=
    { messageMetadata message with
      disputeId := .str input.disputeId.text
      disputeReason := .str input.reason }

/-- `POST /orders/:orderId/dispute`; a repeat answers with the dispute
that is there. -/
def openDispute (cfg : Config) (now : Timestamp) (input : OpenDisputeInput) :
    DbTx Dispute := do
  let order ← selectOrderForUpdate input.orderId
  require (order.buyerId = input.userId ∨ order.sellerId = input.userId)
    (forbidden "Forbidden")
  if order.status = .disputed then do
    let existing ← select fun db => db.disputeOf input.orderId
    orThrow existing (badRequest "Dispute state is inconsistent")
  else do
    require (canTransitionOrder order.status .disputed)
      (badRequest "Only active escrowed orders can be disputed")
    insertDispute input.dispute
    let message ← createOrderSystemMessage input.messageId input.orderId
      "dispute_opened" "system.disputeOpened" [("reason", input.reason)] none
    let _ ← transitionOrder cfg now (disputeTransitionInput input message)
    return input.dispute

-- ================================================== a failed test payment

/-- The transition of a failed test payment. -/
def testFailureTransitionInput (orderId buyerId : Uuid) :
    TransitionOrderInput where
  orderId := orderId
  toStatus := .canceled
  actor := .service (.user buyerId) .testPayment
  reason := .testPaymentFailed
  expectedFrom := some [.pending]
  metadata := .none

/-- `simulateTestPaymentFailure`. -/
def simulateTestPaymentFailure (cfg : Config) (now : Timestamp)
    (orderId buyerId : Uuid) : DbTx OrderRow := do
  let order ← selectOrderForUpdate orderId
  require (order.buyerId = buyerId)
    (forbidden "Only the buyer can simulate payment for this order")
  require (order.status = .pending)
    (badRequest "Only a pending order's payment can be simulated as failed")
  transitionOrder cfg now (testFailureTransitionInput orderId buyerId)

-- ====================================================== user management

/-- `PATCH /users/:id`; a field left out keeps its column. -/
def updateUser (userId : Uuid) (role : Option Role)
    (isBanned : Option Bool) : DbTx User := do
  let user ← select fun db => db.users.find? userId
  let user ← orThrow user (notFound "User not found")
  let updated : User :=
    { user with
      role := role.getD user.role
      isBanned := isBanned.getD user.isBanned }
  modify fun db => db.putUser updated
  return updated

-- ============================================ what a committed one did

/-- No balance, no posting and nothing that a posting's key names. -/
structure BooksKept (db db' : Db) : Prop where
  wallets : db'.wallets = db.wallets
  platformWallets : db'.platformWallets = db.platformWallets
  ledgerEntries : db'.ledgerEntries = db.ledgerEntries
  walletTopups : db'.walletTopups = db.walletTopups
  payouts : db'.payouts = db.payouts
  transactions : db'.transactions = db.transactions

/-- An existing order went along one edge, into or out of no escrow. -/
structure Walked (db db' : Db) (o o' : OrderRow) : Prop where
  edge : canTransitionOrder o.status o'.status
  unsettled : ¬ o'.status.Settled
  unpaid : o.status = .pending → o'.status = .canceled
  moved : OrderMoved db.orders db'.orders o o'
  fee_eq : o'.feeCents = o.feeCents
  books : BooksKept db db'
  users : db'.users = db.users
  history : HistoryGrew db db'

/-- One applied transition after writes that keep books and users. -/
theorem Applied.walked {cfg : Config} {now : Timestamp}
    {input : TransitionOrderInput} {db db₁ db' : Db} {o₀ o : OrderRow}
    {d : OrderEventDescriptor} {a : Option Uuid} {e : OutboxEvent}
    (happ : Applied cfg now input db₁ o d a e db')
    (hfind : db.orders.find? o₀.id = some o₀)
    (hrow : ∃ note, o = { o₀ with deliveryNote := note })
    (horders : ∀ o' : OrderRow, o'.id = o.id →
      db₁.orders.set o' = db.orders.set o')
    (hbooks : BooksKept db db₁) (husers : db₁.users = db.users)
    (hunsettled : ¬ input.toStatus.Settled)
    (hunpaid : o.status = .pending → input.toStatus = .canceled)
    (hhistory : HistoryGrew db db') :
    Walked db db' o₀ (o.transitioned cfg now input.toStatus) := by
  obtain ⟨note, rfl⟩ := hrow
  have hdb := happ.db_eq
  subst hdb
  exact ⟨happ.edge, hunsettled, hunpaid,
    ⟨hfind, rfl, rfl, rfl, rfl, rfl, horders _ rfl⟩, rfl,
    ⟨hbooks.wallets, hbooks.platformWallets, hbooks.ledgerEntries,
      hbooks.walletTopups, hbooks.payouts, hbooks.transactions⟩,
    husers, hhistory⟩

/-- An order that is started has walked an edge. -/
theorem startOrder_walked {cfg : Config} {now : Timestamp}
    {input : OrderRouteInput} {db db' : Db} {r : OrderRow}
    (h : Commits (startOrder cfg now input) db r db') :
    ∃ o, Walked db db' o r ∧ db'.disputes = db.disputes := by
  simp only [startOrder, commits_selectOrderForUpdate_bind,
    commits_require_bind, commits_createOrderSystemMessage_bind] at h
  obtain ⟨o, hfind, ⟨-, hedge⟩, m, t, hm, h⟩ := h
  obtain ⟨rfl, d, a, e, happ⟩ := applied_of_edge hfind hedge h
  have hid := Table.key_of_find? hfind
  rw [← hid] at hfind
  refine ⟨o, happ.walked hfind ⟨_, rfl⟩ (fun _ _ => rfl)
    ⟨rfl, rfl, rfl, rfl, rfl, rfl⟩ rfl
    (show ¬ OrderStatus.inProgress.Settled by decide) ?_
    (happ.historyGrew rfl hm.grew rfl), ?_⟩
  · intro hpending
    have hexpected := happ.expected [.paid] rfl
    rw [hpending] at hexpected
    simp at hexpected
  · rw [happ.db_eq]
    simp

/-- So has one that is delivered. -/
theorem deliverOrder_walked {cfg : Config} {now : Timestamp}
    {input : OrderRouteInput} {note : String} {db db' : Db} {r : OrderRow}
    (h : Commits (deliverOrder cfg now input note) db r db') :
    ∃ o, Walked db db' o r ∧ db'.disputes = db.disputes := by
  simp only [deliverOrder, commits_selectOrderForUpdate_bind,
    commits_require_bind, commits_modify_bind,
    commits_createOrderSystemMessage_bind] at h
  obtain ⟨o, hfind, ⟨-, hedge⟩, m, t, hm, h⟩ := h
  have hid := Table.key_of_find? hfind
  have hfind' : (db.orders.set (o.withDeliveryNote note)).find? input.orderId
      = some (o.withDeliveryNote note) := by
    rw [← hid] at hfind ⊢
    exact Table.find?_set_self hfind
  obtain ⟨rfl, d, a, e, happ⟩ := applied_of_edge hfind' hedge h
  rw [← hid] at hfind
  refine ⟨o, happ.walked hfind ⟨_, rfl⟩ ?_
    ⟨rfl, rfl, rfl, rfl, rfl, rfl⟩ rfl
    (show ¬ OrderStatus.delivered.Settled by decide) ?_
    (happ.historyGrew rfl hm.grew rfl), ?_⟩
  · intro o' ho'
    exact Table.set_set ho'
  · intro hpending
    have hexpected := happ.expected [.paid, .inProgress] rfl
    rw [hpending] at hexpected
    simp at hexpected
  · rw [happ.db_eq]
    simp

/-- A dispute is inserted if its order has none. -/
theorem commits_insertDispute_bind {α : Type} {d : Dispute}
    {g : Unit → DbTx α} {db db' : Db} {b : α} :
    Commits (insertDispute d >>= g) db b db'
      ↔ db.disputeOf d.orderId = none ∧ ∃ t,
        db.disputes.insert? d = some t
          ∧ Commits (g ()) (db.setDisputes t) b db' := by
  simp only [insertDispute, bind_assoc, commits_select_bind,
    commits_require_bind, commits_orThrow_bind, commits_modify_bind,
    Option.isNone_iff_eq_none]

/-- What a committed `openDispute` has done: nothing, or a new dispute
with its order. -/
inductive DisputeOpened (input : OpenDisputeInput) (db : Db) : Db → Prop where
  | repeated : DisputeOpened input db db
  | opened {db' : Db} {o o' : OrderRow} (order_eq : o.id = input.orderId)
      (disputed : o'.status = .disputed)
      (unique : db.disputeOf input.orderId = none)
      (inserted : db.disputes.insert? input.dispute = some db'.disputes)
      (walked : Walked db db' o o') : DisputeOpened input db db'

/-- A dispute that is opened has its order disputed. -/
theorem openDispute_opened {cfg : Config} {now : Timestamp}
    {input : OpenDisputeInput} {db db' : Db} {r : Dispute}
    (h : Commits (openDispute cfg now input) db r db') :
    DisputeOpened input db db' := by
  simp only [openDispute, commits_selectOrderForUpdate_bind,
    commits_require_bind, commits_ite, commits_select_bind,
    commits_orThrow] at h
  obtain ⟨o, hfind, -, ⟨-, -, rfl⟩ | ⟨-, hedge, h⟩⟩ := h
  · exact .repeated
  simp only [commits_insertDispute_bind,
    commits_createOrderSystemMessage_bind] at h
  obtain ⟨hunique, disputes, hinserted, m, t, hm, h⟩ := h
  simp only [commits_bind, commits_pure] at h
  obtain ⟨o', s, h, -, rfl⟩ := h
  obtain ⟨rfl, d, a, e, happ⟩ := applied_of_edge hfind hedge h
  have hid := Table.key_of_find? hfind
  rw [← hid] at hfind
  refine .opened hid (show (o.transitioned cfg now .disputed).status
    = .disputed from rfl) hunique ?_ (happ.walked hfind ⟨_, rfl⟩ (fun _ _ => rfl)
      ⟨rfl, rfl, rfl, rfl, rfl, rfl⟩ rfl
      (show ¬ OrderStatus.disputed.Settled by decide) ?_
      (happ.historyGrew rfl hm.grew rfl))
  · rw [happ.db_eq]
    exact hinserted
  · intro hpending
    have hexpected := happ.expected [.paid, .inProgress, .delivered] rfl
    rw [hpending] at hexpected
    simp at hexpected

/-- A failed test payment has canceled its order. -/
theorem simulateTestPaymentFailure_walked {cfg : Config} {now : Timestamp}
    {orderId buyerId : Uuid} {db db' : Db} {r : OrderRow}
    (h : Commits (simulateTestPaymentFailure cfg now orderId buyerId)
      db r db') :
    ∃ o, Walked db db' o r ∧ db'.disputes = db.disputes := by
  simp only [simulateTestPaymentFailure, commits_selectOrderForUpdate_bind,
    commits_require_bind] at h
  obtain ⟨o, hfind, -, hpending, h⟩ := h
  have hedge : canTransitionOrder o.status .canceled := by
    rw [hpending]
    decide
  obtain ⟨rfl, d, a, e, happ⟩ := applied_of_edge hfind hedge h
  have hid := Table.key_of_find? hfind
  rw [← hid] at hfind
  refine ⟨o, happ.walked hfind ⟨_, rfl⟩ (fun _ _ => rfl)
    ⟨rfl, rfl, rfl, rfl, rfl, rfl⟩ rfl
    (show ¬ OrderStatus.canceled.Settled by decide) (fun _ => rfl)
    (happ.historyGrew rfl (.refl _) rfl), ?_⟩
  rw [happ.db_eq]
  simp

-- ============================================================ a new order

/-- What a committed `createOrder` has done. -/
structure OrderCreated (db db' : Db) (o : OrderRow) : Prop where
  pending : o.status = .pending
  unpaid : o.feeCents.val = 0
  inserted : db.orders.insert? o = some db'.orders
  books : BooksKept db db'
  users : db'.users = db.users
  disputes : db'.disputes = db.disputes
  history : HistoryGrew db db'

/-- A new order is pending and unpaid, and no balance has moved. -/
theorem createOrder_created {input : CreateOrderInput} {db db' : Db}
    {r : OrderRow} (h : Commits (createOrder input) db r db') :
    OrderCreated db db' r := by
  simp only [createOrder, insertOrder, getOrCreateOrderConversation,
    createSystemMessage, bind_assoc, commits_select_bind,
    commits_orThrow_bind, commits_require_bind, commits_liftExcept_bind,
    commits_check_bind, commits_modify_bind, pure_bind,
    commits_recordOrderEvent_bind, commits_enqueueDomainEvent_bind,
    commits_pure] at h
  obtain ⟨product, -, -, -, amount, -, hamount, orders, horders, -, c, hc,
    messages, hmessages, rfl, rfl⟩ := h
  refine ⟨rfl, rfl, by simpa using horders, ⟨by simp, by simp, by simp,
    by simp, by simp, by simp⟩, by simp, by simp, ?_, ?_, ?_⟩
  · exact ⟨[_], by simp; rfl, by simp [orderCreatedEvent]⟩
  · exact ⟨_, (Table.insert?_eq_some.mp hmessages).2, by simp⟩
  · rcases Table.rows_upsert db.domainOutbox
        (orderCreatedOutbox (input.order product amount hamount) c.id
          input.messageId) with h | h
    · exact ⟨[], by simpa using h, by simp⟩
    · refine ⟨_, by simpa using h, ?_⟩
      intro e he
      rw [List.mem_singleton.mp he]
      exact ⟨⟨_, rfl⟩, fun h => by cases h⟩

-- ====================================================== user management

/-- What a committed `updateUser` has done. -/
structure UserUpdated (db db' : Db) : Prop where
  users : ∀ id, db.users.Has id → db'.users.Has id
  rest : ∃ t, db' = { db with users := t }

/-- A change of a user touches no other table, and removes nobody. -/
theorem updateUser_updated {userId : Uuid} {role : Option Role}
    {isBanned : Option Bool} {db db' : Db} {r : User}
    (h : Commits (updateUser userId role isBanned) db r db') :
    UserUpdated db db' := by
  simp only [updateUser, commits_select_bind, commits_orThrow_bind,
    commits_modify_bind, commits_pure] at h
  obtain ⟨user, hfind, rfl, rfl⟩ := h
  refine ⟨?_, _, rfl⟩
  intro id hhas
  exact Table.has_set.mpr hhas

end Skrynia
