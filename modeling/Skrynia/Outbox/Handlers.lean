/-
What a domain event sets off: the handlers of the outbox.

A handler stores notifications under keys made of the event, the recipient
and the type, sends each to the recipient's sockets and to the delivery
queue, empties caches and broadcasts to conversations and sessions. It
awaits one access after the other or several at once, and an access can
fail, with its effect or without. It has no transaction: what is done is
done when it fails.

# The programs

Each handler is a program of accesses (`HandlerOp`) under the source's
name, `Promise.all` being `Prog.all`. `perform` is what an access does to
the tables, the queue and the sockets (`Effects`). Cache, session and
storage accesses leave nothing that a later access reads, so they only
have their place in the programs.

An event carries its parsed payload; `rejected` is one that its schema
rejects. What a notification says is rendered by the translation function,
a parameter like SHA-256 and the clock format.

# History variables

`earlier` are the tables as they were, newest first; `jobs` and `published`
are the jobs added under an id and the events published, oldest first. No
access reads them.
-/
import Mathlib.Data.List.Pairwise
import Skrynia.Chat.Messages
import Skrynia.Lib.ForkJoin
import Skrynia.Lib.Utf16
import Skrynia.Orders.Ledger
import Skrynia.Outbox.Worker

namespace Skrynia

namespace OutboxHandlers

open Relational ForkJoin Utf16

-- ============================================================== payloads

/-- `baseOrderPayload`: what every event of an order carries. -/
structure BaseOrderPayload where
  orderId : Uuid
  buyerId : Uuid
  sellerId : Uuid
  productId : Uuid

/-- `order.created`, with the chat it opened. -/
structure OrderCreatedPayload extends BaseOrderPayload where
  conversationId : Uuid
  systemMessageIds : List Uuid

/-- The other events of an order, with the messages that were stored. -/
structure OrderTransitionPayload extends BaseOrderPayload where
  systemMessageIds : List Uuid

/-- `order.completed`, with who released the escrow. -/
structure OrderCompletedPayload extends OrderTransitionPayload where
  source : ReleaseSource

/-- `review.created`. -/
structure ReviewCreatedPayload where
  reviewId : Uuid
  orderId : Uuid
  sellerId : Uuid
  rating : Nat

/-- `dispute.opened`. -/
structure DisputeOpenedPayload extends BaseOrderPayload where
  disputeId : Uuid
  systemMessageIds : List Uuid

/-- `dispute.resolved`, with the decision. -/
structure DisputeResolvedPayload where
  disputeId : Uuid
  orderId : Uuid
  buyerId : Uuid
  sellerId : Uuid
  decision : DisputeDecision
  systemMessageIds : List Uuid

/-- `message.moderated`. -/
structure MessageModeratedPayload where
  messageId : Uuid
  conversationId : Uuid
  hidden : Bool

/-- Also `productBlockedPayload`. -/
structure ProductCacheContext where
  productId : Uuid
  sellerId : Uuid
  categoryId : Option Uuid
  gameId : Option Uuid
  sectionId : Option Uuid

/-- `user.warned`. -/
structure UserWarnedPayload where
  userId : Uuid
  reason : String

/-- `user.muted`; the time is a text. -/
structure UserMutedPayload where
  userId : Uuid
  reason : Option String
  mutedUntil : String

/-- The type of an event and its payload. -/
inductive EventPayload where
  | orderCreated (payload : OrderCreatedPayload)
  | orderPaid (payload : OrderTransitionPayload)
  | orderCanceled (payload : OrderTransitionPayload)
  | orderStarted (payload : OrderTransitionPayload)
  | orderDelivered (payload : OrderTransitionPayload)
  | orderCompleted (payload : OrderCompletedPayload)
  | orderRefunded (payload : OrderTransitionPayload)
  | reviewCreated (payload : ReviewCreatedPayload)
  | disputeOpened (payload : DisputeOpenedPayload)
  | disputeResolved (payload : DisputeResolvedPayload)
  | messageCreated (messageId : Uuid)
  | messageModerated (payload : MessageModeratedPayload)
  | productBlocked (payload : ProductCacheContext)
  | userBanned (userId : Uuid)
  | userWarned (payload : UserWarnedPayload)
  | userMuted (payload : UserMutedPayload)
  | storageDelete (storageObjectId : Uuid)
  | rejected

/-- What a producer enqueues. -/
structure DomainEvent where
  eventKey : String
  payload : EventPayload

-- ========================================================= notifications

/-- The types of the notifications that handlers create. -/
inductive NotificationType where
  | orderCreated
  | orderPaid
  | orderStarted
  | orderDelivered
  | orderAutoReleased
  | orderCompleted
  | reviewCreated
  | orderDisputed
  | disputeNewAdmin
  | disputeResolved
  | message
  | accountWarned
  | accountMuted
deriving DecidableEq

/-- The texts of the types, as they are stored. -/
def NotificationType.text : NotificationType → String
  | orderCreated => "order_created"
  | orderPaid => "order_paid"
  | orderStarted => "order_started"
  | orderDelivered => "order_delivered"
  | orderAutoReleased => "order_auto_released"
  | orderCompleted => "order_completed"
  | reviewCreated => "review_created"
  | orderDisputed => "order_disputed"
  | disputeNewAdmin => "dispute_new_admin"
  | disputeResolved => "dispute_resolved"
  | message => "message"
  | accountWarned => "account_warned"
  | accountMuted => "account_muted"

/-- A value of `TranslateParams`. -/
inductive TranslateParam where
  | text (units : JsString)
  | number (value : Nat)
deriving DecidableEq

/-- What a translation is given, by name. -/
abbrev TranslateParams := List (String × TranslateParam)

/-- `NotificationInput`: whom to tell, of what, and the keys or texts it is
rendered from. -/
structure NotificationInput where
  userId : Uuid
  type : NotificationType
  templateKey : Option String := none
  params : TranslateParams := []
  titleKey : Option String := none
  bodyKey : Option String := none
  title : Option String := none
  body : Option String := none
  orderId : Option Uuid := none
  productId : Option Uuid := none
  conversationId : Option Uuid := none

/-- The values of an insert into `notifications`; others store types of
their own. -/
structure NotificationValues where
  userId : Uuid
  type : String
  title : String
  body : Option String
  titleKey : Option String
  bodyKey : Option String
  params : TranslateParams
  orderId : Option Uuid
  productId : Option Uuid
  conversationId : Option Uuid
  eventKey : Option String
deriving DecidableEq

/-- A row of `notifications`. -/
structure NotificationRow where
  id : Uuid
  values : NotificationValues
  readAt : Option Timestamp
  createdAt : Timestamp
deriving DecidableEq

/-- The key of its event, if it has one. -/
def NotificationRow.eventKey (r : NotificationRow) : Option String :=
  r.values.eventKey

/-- The code that is not the handlers' own. -/
structure HandlerConfig where
  /-- `t` in the default locale. -/
  t : String → TranslateParams → String
  /-- The SHA-256 of a text in hex. -/
  sha256 : String → String
  /-- `new Date(text).toISOString()`. -/
  toISOString : String → String

variable (cfg : HandlerConfig)

namespace NotificationInput

variable (input : NotificationInput)

/-- The key of the title: its own, or that of the template. -/
def resolvedTitleKey : Option String :=
  input.titleKey.or (input.templateKey.map (· ++ ".title"))

/-- The key of the body. -/
def resolvedBodyKey : Option String :=
  input.bodyKey.or (input.templateKey.map (· ++ ".body"))

/-- The title in the default language. -/
def fallbackTitle : String :=
  match input.title, input.resolvedTitleKey with
  | some title, _ => title
  | none, some key => cfg.t key input.params
  | none, none => ""

/-- The body in the default language, if there is one. -/
def fallbackBody : Option String :=
  input.body.or (input.resolvedBodyKey.map fun key => cfg.t key input.params)

/-- What is inserted for a notification. -/
def values (eventKey : String) : NotificationValues where
  userId := input.userId
  type := input.type.text
  title := input.fallbackTitle cfg
  body := input.fallbackBody cfg
  titleKey := input.resolvedTitleKey
  bodyKey := input.resolvedBodyKey
  params := input.params
  orderId := input.orderId
  productId := input.productId
  conversationId := input.conversationId
  eventKey := some eventKey

end NotificationInput

/-- No half of a surrogate pair by itself. -/
def CodePoint.IsScalar : CodePoint → Prop
  | .scalar _ => True
  | .lone _ _ => False

instance : DecidablePred CodePoint.IsScalar := fun p =>
  match p with
  | .scalar _ => .isTrue trivial
  | .lone _ _ => .isFalse id

/-- A text without such a half can be stored. -/
def TranslateParam.WellFormed : TranslateParam → Prop
  | .text units => ∀ p ∈ codePoints units, CodePoint.IsScalar p
  | .number _ => True

instance : DecidablePred TranslateParam.WellFormed := fun p =>
  match p with
  | .text units =>
      inferInstanceAs (Decidable (∀ p ∈ codePoints units, CodePoint.IsScalar p))
  | .number _ => .isTrue trivial

/-- `params` is jsonb, which takes no half of a surrogate pair. -/
def NotificationValues.Storable (v : NotificationValues) : Prop :=
  ∀ p ∈ v.params, p.2.WellFormed

instance : DecidablePred NotificationValues.Storable := fun v =>
  inferInstanceAs (Decidable (∀ p ∈ v.params, p.2.WellFormed))

/-- The table `notifications`: ids are unique, and so are event keys where
there is one. -/
structure Notifications where
  rows : List NotificationRow
  ids : (rows.map NotificationRow.id).Nodup
  keys : (rows.filterMap NotificationRow.eventKey).Nodup

namespace Notifications

variable (n : Notifications)

/-- The row of an event key. -/
def find? (key : String) : Option NotificationRow :=
  n.rows.find? fun r => r.eventKey = some key

/-- Neither the id of the row nor its key is taken. -/
def Free (row : NotificationRow) : Prop :=
  row.id ∉ n.rows.map NotificationRow.id
    ∧ ∀ key ∈ row.eventKey, key ∉ n.rows.filterMap NotificationRow.eventKey

instance (row : NotificationRow) : Decidable (n.Free row) :=
  inferInstanceAs (Decidable (_ ∧ _))

/-- A free row keeps the ids apart. -/
theorem nodup_ids_append {row : NotificationRow} (h : n.Free row) :
    ((n.rows ++ [row]).map NotificationRow.id).Nodup := by
  rw [List.map_append, List.map_singleton, List.nodup_append]
  refine ⟨n.ids, List.nodup_singleton _, ?_⟩
  intro a ha b hb heq
  rw [List.mem_singleton] at hb
  rw [heq, hb] at ha
  exact h.1 ha

/-- And the keys. -/
theorem nodup_keys_append {row : NotificationRow} (h : n.Free row) :
    ((n.rows ++ [row]).filterMap NotificationRow.eventKey).Nodup := by
  rw [List.filterMap_append]
  cases hkey : row.eventKey with
  | none =>
      rw [List.filterMap_cons_none hkey, List.filterMap_nil, List.append_nil]
      exact n.keys
  | some key =>
      rw [List.filterMap_cons_some hkey, List.filterMap_nil, List.nodup_append]
      refine ⟨n.keys, List.nodup_singleton _, ?_⟩
      intro a ha b hb heq
      rw [List.mem_singleton] at hb
      rw [heq, hb] at ha
      exact h.2 key hkey ha

/-- A key has at most one row. -/
theorem eq_of_eventKey {row row' : NotificationRow} (hrow : row ∈ n.rows)
    (hrow' : row' ∈ n.rows) {key : String} (hkey : row.eventKey = some key)
    (hkey' : row'.eventKey = some key) : row = row' := by
  have hpairwise := List.pairwise_filterMap.mp n.keys
  have hsymm : Std.Symm fun a a' : NotificationRow => ∀ k, a.eventKey = some k →
      ∀ k', a'.eventKey = some k' → k ≠ k' :=
    ⟨fun a b hab k hk k' hk' heq => hab k' hk' k hk heq.symm⟩
  by_contra hne
  exact hpairwise.forall hrow hrow' hne key hkey key hkey' rfl

/-- A key selects one row. -/
theorem filter_eventKey {row : NotificationRow} (hrow : row ∈ n.rows)
    {key : String} (hkey : row.eventKey = some key) :
    (n.rows.filter fun r => r.eventKey = some key) = [row] := by
  rw [← filter_key_eq_singleton n.ids hrow]
  refine List.filter_congr fun r hr => ?_
  rw [decide_eq_decide]
  constructor
  · intro hr'
    rw [n.eq_of_eventKey hr hrow hr' hkey]
  · intro hid
    have heq : r = row := List.inj_on_of_nodup_map n.ids hr hrow hid
    rw [heq]
    exact hkey

/-- A free row is appended. -/
def append (row : NotificationRow) (h : n.Free row) : Notifications where
  rows := n.rows ++ [row]
  ids := n.nodup_ids_append h
  keys := n.nodup_keys_append h

/-- `set read_at = coalesce(read_at, now())` of a user's notifications, of
one or of all. -/
def readRow (userId : Uuid) (id : Option Uuid) (now : Timestamp)
    (r : NotificationRow) : NotificationRow :=
  if r.values.userId = userId ∧ ∀ i ∈ id, r.id = i then
    { r with readAt := r.readAt.or (some now) }
  else r

/-- Reading changes no id. -/
theorem id_readRow (userId : Uuid) (id : Option Uuid) (now : Timestamp)
    (r : NotificationRow) : (readRow userId id now r).id = r.id := by
  unfold readRow
  split <;> rfl

/-- Nor what was stored. -/
theorem values_readRow (userId : Uuid) (id : Option Uuid) (now : Timestamp)
    (r : NotificationRow) : (readRow userId id now r).values = r.values := by
  unfold readRow
  split <;> rfl

/-- Nor the key. -/
theorem eventKey_readRow (userId : Uuid) (id : Option Uuid) (now : Timestamp)
    (r : NotificationRow) :
    (readRow userId id now r).eventKey = r.eventKey :=
  congrArg NotificationValues.eventKey (values_readRow userId id now r)

/-- A user's notification is read, or all of them. -/
def markRead (userId : Uuid) (id : Option Uuid) (now : Timestamp) :
    Notifications where
  rows := n.rows.map (readRow userId id now)
  ids := by
    have hid : NotificationRow.id ∘ readRow userId id now = NotificationRow.id :=
      funext (id_readRow userId id now)
    rw [List.map_map, hid]
    exact n.ids
  keys := by
    have hkey : NotificationRow.eventKey ∘ readRow userId id now
        = NotificationRow.eventKey :=
      funext (eventKey_readRow userId id now)
    rw [List.filterMap_map, hkey]
    exact n.keys

end Notifications

/-- A job of the delivery queue. -/
structure DeliveryJob where
  jobId : String
  userId : Uuid
  subject : String
  body : Option String
  titleKey : Option String
  bodyKey : Option String
  params : TranslateParams
  notificationType : NotificationType
  orderId : Option Uuid
  conversationId : Option Uuid

/-- The id of the job of an event key. -/
def deliveryJobId (eventKey : String) : String :=
  "notification-" ++ cfg.sha256 eventKey

/-- The job that delivers a notification. -/
def deliveryJob (input : NotificationInput) (eventKey : String) : DeliveryJob
    where
  jobId := deliveryJobId cfg eventKey
  userId := input.userId
  subject := input.fallbackTitle cfg
  body := input.fallbackBody cfg
  titleKey := input.resolvedTitleKey
  bodyKey := input.resolvedBodyKey
  params := input.params
  notificationType := input.type
  orderId := input.orderId
  conversationId := input.conversationId

-- ============================================== the tables handlers read

/-- The columns of a user that handlers read. -/
structure StoredUser where
  id : Uuid
  role : Role
  displayName : String

/-- Those of a conversation. -/
structure StoredConversation where
  id : Uuid
  buyerId : Uuid
  sellerId : Uuid
  productId : Option Uuid
  orderId : Option Uuid

/-- Those of a message. -/
structure StoredMessage where
  id : Uuid
  conversationId : Uuid
  senderId : Option Uuid
  clientMessageId : Option Uuid
  body : String
  attachmentStorageObjectId : Option Uuid
  createdAt : Timestamp
  kind : String
  systemType : Option String
  /-- The JSON text. -/
  metadata : String
  hiddenAt : Option Timestamp

/-- Those of a product. -/
structure StoredProduct where
  id : Uuid
  sellerId : Uuid
  categoryId : Option Uuid
  gameId : Option Uuid
  sectionId : Option Uuid
  title : String

/-- The tables that handlers read. -/
structure HandlerTables where
  users : Table StoredUser.id
  conversations : Table StoredConversation.id
  messages : Table StoredMessage.id
  products : Table StoredProduct.id

/-- A row of the query of `loadMessage`. -/
structure LoadedMessage where
  id : Uuid
  conversationId : Uuid
  senderId : Option Uuid
  clientMessageId : Option Uuid
  senderDisplayName : String
  body : String
  attachmentUrl : Option String
  createdAt : Timestamp
  kind : String
  systemType : Option String
  metadata : String
  buyerId : Uuid
  sellerId : Uuid
  productId : Option Uuid
  orderId : Option Uuid
  productTitle : Option String

/-- `SYSTEM_SENDER_DISPLAY_NAME`. -/
def systemSenderDisplayName : String := "Система"

namespace HandlerTables

variable (db : HandlerTables)

/-- A message that is not hidden, with its conversation and its sender. -/
def loadMessage (messageId : Uuid) : Option LoadedMessage := do
  let m ← db.messages.find? messageId
  if m.hiddenAt.isSome then none
  let c ← db.conversations.find? m.conversationId
  let u := m.senderId.bind db.users.find?
  let p := c.productId.bind db.products.find?
  return {
    id := m.id
    conversationId := m.conversationId
    senderId := m.senderId
    clientMessageId := m.clientMessageId
    senderDisplayName :=
      (u.map StoredUser.displayName).getD systemSenderDisplayName
    body := m.body
    attachmentUrl := m.attachmentStorageObjectId.map privateMediaUrl
    createdAt := m.createdAt
    kind := m.kind
    systemType := m.systemType
    metadata := m.metadata
    buyerId := c.buyerId
    sellerId := c.sellerId
    productId := c.productId
    orderId := c.orderId
    productTitle := p.map StoredProduct.title }

/-- The conversation of a message, and whether it is hidden. -/
def loadMessageModerationState (messageId : Uuid) : Option (Uuid × Bool) :=
  (db.messages.find? messageId).map fun m => (m.conversationId, m.hiddenAt.isSome)

/-- The users with one of these roles. -/
def usersWithRole (roles : List Role) : List Uuid :=
  (db.users.rows.filter fun u => u.role ∈ roles).map StoredUser.id

/-- What the caches are told of a product. -/
def StoredProduct.context (p : StoredProduct) : ProductCacheContext where
  productId := p.id
  sellerId := p.sellerId
  categoryId := p.categoryId
  gameId := p.gameId
  sectionId := p.sectionId

/-- The same of a stored product. -/
def loadProduct (productId : Uuid) : Option ProductCacheContext :=
  (db.products.find? productId).map StoredProduct.context

/-- The same of all products of a seller. -/
def loadSellerProductCacheContexts (sellerId : Uuid) : List ProductCacheContext :=
  (db.products.rows.filter fun p => p.sellerId = sellerId).map
    StoredProduct.context

end HandlerTables

-- ============================================================== accesses

/-- What is sent to a user's sockets. -/
inductive UserEvent where
  | notification (row : NotificationRow)
  | order (type : String) (orderId : Uuid)
  | disputeResolved (orderId : Uuid) (decision : DisputeDecision)

/-- What is broadcast to a conversation. -/
inductive ConversationEvent where
  | message (message : LoadedMessage)
  | moderated (messageId conversationId : Uuid) (hidden : Bool)

/-- An event on the realtime bus, with its id where the caller gives one. -/
inductive Published where
  | user (userId : Uuid) (event : UserEvent) (eventId : Option Uuid)
  | conversation (conversationId : Uuid) (event : ConversationEvent)
      (eventId : Option Uuid)
  | userBanned (userId : Uuid) (eventId : Option Uuid)

/-- `OrderParticipantReadCacheInvalidation`. -/
structure OrderCaches where
  orderId : Uuid
  buyerId : Uuid
  sellerId : Uuid
  invalidateBuyerWallet : Bool := false
  invalidateSellerWallet : Bool := false

/-- The accesses of the handlers. -/
inductive HandlerOp where
  | insertNotification (values : NotificationValues)
  | findNotification (eventKey : String)
  | publish (event : Published)
  | enqueueJob (job : DeliveryJob)
  | usersWithRole (roles : List Role)
  | loadMessage (messageId : Uuid)
  | loadMessageModerationState (messageId : Uuid)
  | loadProduct (productId : Uuid)
  | loadSellerProductCacheContexts (sellerId : Uuid)
  | invalidateOrderCaches (caches : OrderCaches)
  | invalidateProductCaches (context : ProductCacheContext)
  | invalidateProductCacheBatch (contexts : List ProductCacheContext)
      (sellerIds : List Uuid)
  | revokeAllUserSessions (userId : Uuid)
  | deleteStorageObject (storageObjectId : Uuid)

/-- How `insert … on conflict (event_key) do nothing returning …` ends. -/
inductive Inserted where
  | created (row : NotificationRow)
  | conflict
  /-- The database refuses the row. -/
  | violation

/-- What each of them answers. -/
abbrev HandlerOp.Answer : HandlerOp → Type
  | insertNotification _ => Inserted
  | findNotification _ => Option NotificationRow
  | enqueueJob _ => Bool
  | usersWithRole _ => List Uuid
  | loadMessage _ => Option LoadedMessage
  | loadMessageModerationState _ => Option (Uuid × Bool)
  | loadProduct _ => Option ProductCacheContext
  | loadSellerProductCacheContexts _ => List ProductCacheContext
  | _ => Unit

/-- What the accesses work on, with its history. -/
structure Effects where
  tables : HandlerTables
  earlier : List HandlerTables
  notifications : Notifications
  jobs : List DeliveryJob
  published : List Published

/-- The id and the time of the database, and whether the queue is up. -/
structure Drawn where
  id : Uuid
  now : Timestamp
  queueUp : Bool

namespace Effects

variable (s : Effects)

/-- The tables up to now. -/
def seen : List HandlerTables := s.tables :: s.earlier

/-- The insert of a notification: a new row, a conflict, or a violated
constraint. -/
def insertNotification (values : NotificationValues) (drawn : Drawn) :
    Effects × Inserted :=
  let row : NotificationRow := ⟨drawn.id, values, none, drawn.now⟩
  if ¬ values.Storable then (s, .violation)
  else if ∃ key ∈ values.eventKey, (s.notifications.find? key).isSome then
    (s, .conflict)
  else if h : s.notifications.Free row then
    ({ s with notifications := s.notifications.append row h }, .created row)
  else (s, .violation)

/-- A job is added, unless the queue is down. -/
def enqueueJob (job : DeliveryJob) (drawn : Drawn) : Effects × Bool :=
  if drawn.queueUp then ({ s with jobs := s.jobs ++ [job] }, true)
  else (s, false)

/-- What an access does and answers. -/
def perform (drawn : Drawn) : (o : HandlerOp) → Effects × o.Answer
  | .insertNotification values => s.insertNotification values drawn
  | .findNotification key => (s, s.notifications.find? key)
  | .publish event => ({ s with published := s.published ++ [event] }, ())
  | .enqueueJob job => s.enqueueJob job drawn
  | .usersWithRole roles => (s, s.tables.usersWithRole roles)
  | .loadMessage id => (s, s.tables.loadMessage id)
  | .loadMessageModerationState id =>
      (s, s.tables.loadMessageModerationState id)
  | .loadProduct id => (s, s.tables.loadProduct id)
  | .loadSellerProductCacheContexts id =>
      (s, s.tables.loadSellerProductCacheContexts id)
  | .invalidateOrderCaches _ => (s, ())
  | .invalidateProductCaches _ => (s, ())
  | .invalidateProductCacheBatch _ _ => (s, ())
  | .revokeAllUserSessions _ => (s, ())
  | .deleteStorageObject _ => (s, ())

end Effects

/-- What the rest of the program does to what handlers see. Only handlers
give notifications an event key. -/
inductive OthersDo where
  | write (tables : HandlerTables)
  | notify (values : NotificationValues) (drawn : Drawn)
  | markRead (userId : Uuid) (id : Option Uuid) (now : Timestamp)

/-- What others may do in between. -/
def Effects.others (s : Effects) : OthersDo → Effects
  | .write tables => { s with tables := tables, earlier := s.seen }
  | .notify values drawn =>
      (s.insertNotification { values with eventKey := none } drawn).1
  | .markRead userId id now =>
      { s with notifications := s.notifications.markRead userId id now }

-- ====================================================== createNotification

/-- A program of accesses. -/
abbrev Handler := Prog HandlerOp HandlerOp.Answer

/-- `notifyOrderEvent`. -/
def notifyUser (userId : Uuid) (event : UserEvent) (eventId : Option Uuid) :
    Handler :=
  .perform (.publish (.user userId event eventId))

/-- `broadcastConversation`. -/
def broadcastConversation (conversationId : Uuid) (event : ConversationEvent)
    (eventId : Option Uuid) : Handler :=
  .perform (.publish (.conversation conversationId event eventId))

/-- `if (!job) throw …`. -/
def requireQueued (queued : Bool) : Handler :=
  if queued then .done else .failed

/-- Both legs of the delivery, of a row created or found. -/
def deliverNotification (input : NotificationInput) (eventKey : String)
    (row : NotificationRow) : Handler :=
  (notifyUser input.userId (.notification row) (some row.id)).andThen
    (.call (.enqueueJob (deliveryJob cfg input eventKey)) requireQueued)

/-- After a conflict: the row that is there is delivered. -/
def deliverReloaded (input : NotificationInput) (eventKey : String) :
    Option NotificationRow → Handler
  | some row => deliverNotification cfg input eventKey row
  | none => .failed

/-- A new row is delivered; after a conflict the row is looked up. -/
def deliverInserted (input : NotificationInput) (eventKey : String) :
    Inserted → Handler
  | .created row => deliverNotification cfg input eventKey row
  | .conflict =>
      .call (.findNotification eventKey) (deliverReloaded cfg input eventKey)
  | .violation => .failed

/-- With an event key, `requireDeliveryQueue` and
`requireRealtimeDelivery`. -/
def createNotification (input : NotificationInput) (eventKey : String) :
    Handler :=
  .call (.insertNotification (input.values cfg eventKey))
    (deliverInserted cfg input eventKey)

/-- The key of a notification: event, recipient and type. -/
def notificationEventKey (event : DomainEvent) (recipientId : Uuid)
    (type : NotificationType) : String :=
  event.eventKey ++ ":notification:" ++ recipientId.text ++ ":" ++ type.text

/-- `createOutboxNotification`. -/
def createOutboxNotification (event : DomainEvent) (input : NotificationInput) :
    Handler :=
  createNotification cfg input
    (notificationEventKey event input.userId input.type)

/-- The same notification for each of some users. -/
def createNotifications (event : DomainEvent) (inputs : List NotificationInput) :
    Handler :=
  .all (inputs.map (createOutboxNotification cfg event))

/-- `createAdminNotifications`: one for each user with a role. -/
def createAdminNotifications (event : DomainEvent)
    (input : Uuid → NotificationInput) (roles : List Role) : Handler :=
  .call (.usersWithRole roles) fun recipients =>
    createNotifications cfg event (recipients.map input)

-- ================================================================ handlers

/-- A stored message is broadcast, if it is there and not hidden. -/
def broadcastStoredMessage (messageId : Uuid) : Handler :=
  .call (.loadMessage messageId) fun message =>
    match message with
    | some message =>
        broadcastConversation message.conversationId (.message message) none
    | none => .done

/-- One after the other. -/
def broadcastStoredMessages (messageIds : List Uuid) : Handler :=
  .inTurn (messageIds.map broadcastStoredMessage)

/-- The product of an order, and its caches. -/
def invalidateProductOf (productId : Uuid) : Handler :=
  .call (.loadProduct productId) fun product =>
    match product with
    | some context => .perform (.invalidateProductCaches context)
    | none => .done

/-- An order's event to the sockets of a user. -/
def notifyAbout (type : String) (orderId : Uuid) (userId : Uuid) : Handler :=
  notifyUser userId (.order type orderId) none

/-- The caches of an order are emptied. -/
def orderCaches (payload : BaseOrderPayload)
    (invalidateBuyerWallet invalidateSellerWallet : Bool) : Handler :=
  .perform (.invalidateOrderCaches {
    orderId := payload.orderId
    buyerId := payload.buyerId
    sellerId := payload.sellerId
    invalidateBuyerWallet, invalidateSellerWallet })

/-- To the seller: a new order. -/
def orderCreatedNotification (payload : OrderCreatedPayload) :
    NotificationInput where
  userId := payload.sellerId
  type := .orderCreated
  templateKey := some "notifications.orderCreated"
  conversationId := some payload.conversationId
  orderId := some payload.orderId
  productId := some payload.productId

/-- `handleOrderCreated`. -/
def handleOrderCreated (event : DomainEvent) (payload : OrderCreatedPayload) :
    Handler :=
  .inTurn [
    createOutboxNotification cfg event (orderCreatedNotification payload),
    orderCaches payload.toBaseOrderPayload false false,
    broadcastStoredMessages payload.systemMessageIds]

/-- To either party: the order is paid. -/
def orderPaidNotification (payload : OrderTransitionPayload) (userId : Uuid)
    (templateKey : String) : NotificationInput where
  userId := userId
  type := .orderPaid
  templateKey := some templateKey
  orderId := some payload.orderId
  productId := some payload.productId

/-- `handleOrderPaid`. -/
def handleOrderPaid (event : DomainEvent) (payload : OrderTransitionPayload) :
    Handler :=
  .inTurn [
    createNotifications cfg event [
      orderPaidNotification payload payload.sellerId
        "notifications.orderPaidSeller",
      orderPaidNotification payload payload.buyerId
        "notifications.orderPaidBuyer"],
    orderCaches payload.toBaseOrderPayload true true,
    invalidateProductOf payload.productId,
    .all ([payload.sellerId, payload.buyerId].map
      (notifyAbout "order_paid" payload.orderId)),
    broadcastStoredMessages payload.systemMessageIds]

/-- `handleOrderCanceled`. -/
def handleOrderCanceled (payload : OrderTransitionPayload) : Handler :=
  .inTurn [
    orderCaches payload.toBaseOrderPayload false false,
    notifyAbout "order_canceled" payload.orderId payload.sellerId]

/-- The buyer is told that the order moved on. -/
def orderProgressNotification (payload : OrderTransitionPayload)
    (type : NotificationType) (templateKey : String) : NotificationInput where
  userId := payload.buyerId
  type := type
  templateKey := some templateKey
  orderId := some payload.orderId
  productId := some payload.productId

/-- What `handleOrderStarted` and `handleOrderDelivered` have in common. -/
def handleOrderProgress (event : DomainEvent) (payload : OrderTransitionPayload)
    (type : NotificationType) (templateKey : String) : Handler :=
  .inTurn [
    createOutboxNotification cfg event
      (orderProgressNotification payload type templateKey),
    orderCaches payload.toBaseOrderPayload false false,
    notifyAbout type.text payload.orderId payload.buyerId,
    broadcastStoredMessages payload.systemMessageIds]

/-- `handleOrderStarted`. -/
def handleOrderStarted (event : DomainEvent) (payload : OrderTransitionPayload) :
    Handler :=
  handleOrderProgress cfg event payload .orderStarted "notifications.orderStarted"

/-- `handleOrderDelivered`. -/
def handleOrderDelivered (event : DomainEvent)
    (payload : OrderTransitionPayload) : Handler :=
  handleOrderProgress cfg event payload .orderDelivered
    "notifications.orderDelivered"

/-- A notification about an order, with nothing but its id. -/
def orderNotification (type : NotificationType) (templateKey : String)
    (orderId userId : Uuid) : NotificationInput where
  userId := userId
  type := type
  templateKey := some templateKey
  orderId := some orderId

/-- To either party: the escrow was released by itself. -/
def autoReleasedNotification (payload : OrderCompletedPayload) :
    Uuid → NotificationInput :=
  orderNotification .orderAutoReleased "notifications.orderAutoReleased"
    payload.orderId

/-- To the seller: the order is completed. -/
def orderCompletedNotification (payload : OrderCompletedPayload) :
    NotificationInput :=
  orderNotification .orderCompleted "notifications.orderCompleted"
    payload.orderId payload.sellerId

/-- Whom the completion is told depends on its source. -/
def announceCompleted (event : DomainEvent) (payload : OrderCompletedPayload) :
    Handler :=
  match payload.source with
  | .auto => .inTurn [
      createNotifications cfg event
        ([payload.buyerId, payload.sellerId].map
          (autoReleasedNotification payload)),
      .all ([payload.buyerId, payload.sellerId].map
        (notifyAbout "order_auto_completed" payload.orderId))]
  | .dispute => .done
  | .buyerConfirmed | .service => .inTurn [
      createOutboxNotification cfg event (orderCompletedNotification payload),
      notifyAbout "order_completed" payload.orderId payload.sellerId]

/-- `handleOrderCompleted`. -/
def handleOrderCompleted (event : DomainEvent) (payload : OrderCompletedPayload) :
    Handler :=
  .inTurn [
    announceCompleted cfg event payload,
    orderCaches payload.toBaseOrderPayload false true,
    invalidateProductOf payload.productId,
    broadcastStoredMessages payload.systemMessageIds]

/-- `handleOrderRefunded`. -/
def handleOrderRefunded (payload : OrderTransitionPayload) : Handler :=
  .inTurn [
    orderCaches payload.toBaseOrderPayload true true,
    broadcastStoredMessages payload.systemMessageIds]

/-- To the seller: a review. -/
def reviewCreatedNotification (payload : ReviewCreatedPayload) :
    NotificationInput where
  userId := payload.sellerId
  type := .reviewCreated
  templateKey := some "notifications.reviewCreated"
  params := [("rating", .number payload.rating)]
  orderId := some payload.orderId

/-- `handleReviewCreated`. -/
def handleReviewCreated (event : DomainEvent) (payload : ReviewCreatedPayload) :
    Handler :=
  createOutboxNotification cfg event (reviewCreatedNotification payload)

/-- To either party: a dispute. -/
def disputedNotification (payload : DisputeOpenedPayload) :
    Uuid → NotificationInput :=
  orderNotification .orderDisputed "notifications.orderDisputed" payload.orderId

/-- To an admin: a new dispute. -/
def disputeAdminNotification (payload : DisputeOpenedPayload) :
    Uuid → NotificationInput :=
  orderNotification .disputeNewAdmin "notifications.disputeNewAdmin"
    payload.orderId

/-- `handleDisputeOpened`. -/
def handleDisputeOpened (event : DomainEvent) (payload : DisputeOpenedPayload) :
    Handler :=
  .inTurn [
    createNotifications cfg event
      ([payload.buyerId, payload.sellerId].map (disputedNotification payload)),
    createAdminNotifications cfg event (disputeAdminNotification payload) [.admin],
    orderCaches payload.toBaseOrderPayload false false,
    .all ([payload.buyerId, payload.sellerId].map
      (notifyAbout "order_disputed" payload.orderId)),
    broadcastStoredMessages payload.systemMessageIds]

/-- To either party: the decision. -/
def disputeResolvedNotification (payload : DisputeResolvedPayload)
    (userId : Uuid) : NotificationInput where
  userId := userId
  type := .disputeResolved
  titleKey := some "notifications.disputeResolved.title"
  bodyKey := some (match payload.decision with
    | .refund => "notifications.disputeResolved.bodyRefund"
    | .release => "notifications.disputeResolved.bodyRelease")
  orderId := some payload.orderId

/-- `handleDisputeResolved`. -/
def handleDisputeResolved (event : DomainEvent)
    (payload : DisputeResolvedPayload) : Handler :=
  .inTurn [
    createNotifications cfg event
      ([payload.buyerId, payload.sellerId].map
        (disputeResolvedNotification payload)),
    .perform (.invalidateOrderCaches {
      orderId := payload.orderId
      buyerId := payload.buyerId
      sellerId := payload.sellerId
      invalidateBuyerWallet := payload.decision = .refund
      invalidateSellerWallet := true }),
    .all ([payload.buyerId, payload.sellerId].map fun userId =>
      notifyUser userId (.disputeResolved payload.orderId payload.decision) none),
    broadcastStoredMessages payload.systemMessageIds]

/-- `String(message.body).slice(0, 120)` and the like. -/
def slice (text : String) (length : Nat) : JsString :=
  (ofString text).take length

/-- The template by what the conversation is about. -/
def messageTemplateKey (message : LoadedMessage) : String :=
  if message.orderId.isSome then "notifications.newMessageOrder"
  else if message.productId.isSome then "notifications.newMessageProduct"
  else "notifications.newMessageDirect"

/-- `senderId` is the message's own. -/
def messageNotification (message : LoadedMessage) (senderId : Uuid) :
    NotificationInput where
  userId :=
    if message.buyerId = senderId then message.sellerId else message.buyerId
  type := .message
  templateKey := some (messageTemplateKey message)
  params := [
    ("sender", .text (ofString message.senderDisplayName)),
    ("preview", .text (slice message.body 120)),
    ("productTitle", .text (ofString (message.productTitle.getD ""))),
    ("orderId", .text (match message.orderId with
      | some orderId => slice orderId.text 8
      | none => []))]
  conversationId := some message.conversationId
  productId := message.productId
  orderId := message.orderId

/-- A message that is gone or hidden or that the system sent is not told. -/
def handleMessageCreated (event : DomainEvent) (messageId : Uuid) : Handler :=
  .call (.loadMessage messageId) fun message =>
    match message with
    | some message =>
        match message.senderId with
        | some senderId => .inTurn [
            createOutboxNotification cfg event
              (messageNotification message senderId),
            broadcastConversation message.conversationId (.message message)
              (some message.id)]
        | none => .done
    | none => .done

/-- `handleMessageModerated`: what is stored is broadcast, not what the event
says. -/
def handleMessageModerated (eventId : Uuid) (payload : MessageModeratedPayload) :
    Handler :=
  .call (.loadMessageModerationState payload.messageId) fun current =>
    match current with
    | some (conversationId, hidden) =>
        broadcastConversation conversationId
          (.moderated payload.messageId conversationId hidden) (some eventId)
    | none => .done

/-- `handleProductBlocked`. -/
def handleProductBlocked (payload : ProductCacheContext) : Handler :=
  .perform (.invalidateProductCaches payload)

/-- `handleUserBanned`: the sessions of the user end first. -/
def handleUserBanned (eventId : Uuid) (userId : Uuid) : Handler :=
  .inTurn [
    .perform (.revokeAllUserSessions userId),
    .perform (.publish (.userBanned userId (some eventId))),
    .call (.loadSellerProductCacheContexts userId) fun products =>
      .perform (.invalidateProductCacheBatch products [userId])]

/-- To the user: a warning. -/
def userWarnedNotification (payload : UserWarnedPayload) : NotificationInput
    where
  userId := payload.userId
  type := .accountWarned
  titleKey := some "notifications.accountWarned.title"
  body := some payload.reason

/-- `handleUserWarned`. -/
def handleUserWarned (event : DomainEvent) (payload : UserWarnedPayload) :
    Handler :=
  createOutboxNotification cfg event (userWarnedNotification payload)

/-- `replace(part, other)`, of a part that is not empty. -/
def replace (part other : JsString) : JsString → JsString
  | [] => []
  | u :: rest =>
      if part.isPrefixOf (u :: rest) then other ++ (u :: rest).drop part.length
      else u :: replace part other rest

/-- `toISOString().slice(0, 16).replace("T", " ") + " UTC"`. -/
def mutedUntilText (mutedUntil : String) : JsString :=
  replace (ofString "T") (ofString " ") (slice (cfg.toISOString mutedUntil) 16)
    ++ ofString " UTC"

/-- An empty reason is none. -/
def userMutedNotification (payload : UserMutedPayload) : NotificationInput :=
  match payload.reason.filter (· ≠ "") with
  | some reason => {
      userId := payload.userId
      type := .accountMuted
      titleKey := some "notifications.accountMuted.title"
      body := some reason }
  | none => {
      userId := payload.userId
      type := .accountMuted
      titleKey := some "notifications.accountMuted.title"
      bodyKey := some "notifications.accountMuted.body"
      params := [("until", .text (mutedUntilText cfg payload.mutedUntil))] }

/-- `handleUserMuted`. -/
def handleUserMuted (event : DomainEvent) (payload : UserMutedPayload) : Handler :=
  createOutboxNotification cfg event (userMutedNotification cfg payload)

/-- `handleStorageDelete`. -/
def handleStorageDelete (storageObjectId : Uuid) : Handler :=
  .perform (.deleteStorageObject storageObjectId)

/-- What the event with this id sets off. -/
def handleDomainEvent (eventId : Uuid) (event : DomainEvent) : Handler :=
  match event.payload with
  | .orderCreated payload => handleOrderCreated cfg event payload
  | .orderPaid payload => handleOrderPaid cfg event payload
  | .orderCanceled payload => handleOrderCanceled payload
  | .orderStarted payload => handleOrderStarted cfg event payload
  | .orderDelivered payload => handleOrderDelivered cfg event payload
  | .orderCompleted payload => handleOrderCompleted cfg event payload
  | .orderRefunded payload => handleOrderRefunded payload
  | .reviewCreated payload => handleReviewCreated cfg event payload
  | .disputeOpened payload => handleDisputeOpened cfg event payload
  | .disputeResolved payload => handleDisputeResolved cfg event payload
  | .messageCreated messageId => handleMessageCreated cfg event messageId
  | .messageModerated payload => handleMessageModerated eventId payload
  | .productBlocked payload => handleProductBlocked payload
  | .userBanned userId => handleUserBanned eventId userId
  | .userWarned payload => handleUserWarned cfg event payload
  | .userMuted payload => handleUserMuted cfg event payload
  | .storageDelete storageObjectId => handleStorageDelete storageObjectId
  | .rejected => .failed

end OutboxHandlers

end Skrynia
