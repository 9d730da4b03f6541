/-
`transitionOrder`: the only writer of an existing order's status.

One call locks the order, returns early when it repeats a transition that
the timeline already has, and otherwise checks the caller's
`expectedFrom`, the graph and the actor, writes the status with the
lifecycle timestamps, and adds one timeline row and one outbox event.

# Its specification

`commits_transitionOrder` is the one inversion lemma: a call that commits
either changed nothing (`RepeatOf`) or did exactly what `Applied` lists,
guards included. Every later proof about transitions starts from it.
-/
import Skrynia.Db.Schema

namespace Skrynia

open Relational

-- =========================================================== the request

/-- A value under a key of the untyped metadata object. -/
inductive MetaValue where
  | undefined
  | str (value : String)
  | strs (values : List String)
  | other
deriving DecidableEq

/-- The metadata keys that a transition reads. -/
structure TransitionMetadata where
  provider : MetaValue
  disputeReason : MetaValue
  disputeId : MetaValue
  systemMessageIds : MetaValue
deriving DecidableEq

/-- `metadata ?? {}` when the caller passes none. -/
def TransitionMetadata.none : TransitionMetadata :=
  ⟨.undefined, .undefined, .undefined, .undefined⟩

/-- `TransitionOrderInput`. -/
structure TransitionOrderInput where
  orderId : Uuid
  toStatus : OrderStatus
  actor : Actor
  reason : TransitionReason
  expectedFrom : Option (List OrderStatus)
  metadata : TransitionMetadata
deriving DecidableEq

/-- `metadataString`: a non-empty string, or `undefined`. -/
def metadataString : MetaValue → Option String
  | .str value => if value = "" then none else some value
  | _ => none

/-- `metadataString` of a required key. -/
def requiredMetadataString (key : String) (v : MetaValue) :
    Except Failure String :=
  match metadataString v with
  | some value => .ok value
  | none =>
      .error (.error ("Order transition metadata." ++ key ++ " is required"))

/-- The ids of system messages in the metadata, if they are texts. -/
def systemMessageIds : MetaValue → Except Failure (List String)
  | .undefined => .ok []
  | .strs ids => .ok ids
  | _ => .error (.error
      "Order transition metadata.systemMessageIds must be a string array")

/-- What the timeline says of a transition. -/
structure OrderEventDescriptor where
  type : String
  templateKey : String
  body : Option String
  provider : Option String

/-- A descriptor that carries neither a raw body nor metadata. -/
def OrderEventDescriptor.plain (type templateKey : String) :
    OrderEventDescriptor :=
  ⟨type, templateKey, none, none⟩

/-- `eventDescriptor`, by the reason. -/
def eventDescriptor (input : TransitionOrderInput) :
    Except Failure OrderEventDescriptor :=
  match input.reason with
  | .paymentCaptured =>
      .ok ⟨"paid", "orderEvents.paid", none,
        metadataString input.metadata.provider⟩
  | .testPaymentFailed => .ok (.plain "canceled" "orderEvents.paymentFailed")
  | .sellerStarted => .ok (.plain "started" "orderEvents.started")
  | .sellerDelivered => .ok (.plain "delivered" "orderEvents.delivered")
  | .buyerConfirmed | .serviceReleased =>
      .ok (.plain "completed" "orderEvents.completed")
  | .autoReleased => .ok (.plain "auto_released" "orderEvents.autoReleased")
  | .disputeOpened => do
      let body ← requiredMetadataString "disputeReason"
        input.metadata.disputeReason
      return ⟨"disputed", "orderEvents.disputed", some body, none⟩
  | .disputeReleased => .ok (.plain "completed" "orderEvents.completed")
  | .disputeRefunded | .serviceRefunded =>
      .ok (.plain "refunded" "orderEvents.refunded")

-- ====================================================== the outbox event

/-- An event about the order itself: `<type>:<order id>`. -/
def orderOutboxEvent (eventType : DomainEventType) (order : OrderRow)
    (payload : OutboxPayload) : OutboxEvent where
  eventKey := eventType.text ++ ":" ++ order.id.text
  eventType := eventType
  aggregateType := "order"
  aggregateId := order.id.text
  payload := payload

/-- `source` in the payload of `order.completed`. -/
def completionSource : TransitionReason → String
  | .buyerConfirmed => "buyer_confirmed"
  | .autoReleased => "auto"
  | .disputeReleased => "dispute"
  | _ => "service"

/-- The acting user, where the actor is one. -/
def Actor.userId? : Actor → Option ActorId
  | .user id _ => some id
  | .service _ _ => none

/-- `outboxInput`: the event that is enqueued. -/
def outboxInput (order : OrderRow) (input : TransitionOrderInput) :
    Except Failure OutboxEvent := do
  let ids ← systemMessageIds input.metadata.systemMessageIds
  let basePayload : OutboxPayload :=
    { orderId := order.id
      buyerId := order.buyerId
      sellerId := order.sellerId
      productId := some order.productId
      systemMessageIds := ids
      conversationId := none
      source := none
      actorId := none
      disputeId := none
      decision := none }
  match input.reason with
  | .paymentCaptured => return orderOutboxEvent .orderPaid order basePayload
  | .testPaymentFailed =>
      return orderOutboxEvent .orderCanceled order basePayload
  | .sellerStarted => return orderOutboxEvent .orderStarted order basePayload
  | .sellerDelivered =>
      return orderOutboxEvent .orderDelivered order basePayload
  | .buyerConfirmed | .autoReleased | .disputeReleased | .serviceReleased =>
      return orderOutboxEvent .orderCompleted order
        { basePayload with
          source := some (completionSource input.reason)
          actorId := input.actor.userId? }
  | .disputeOpened => do
      let disputeId ← requiredMetadataString "disputeId"
        input.metadata.disputeId
      return {
        eventKey := DomainEventType.disputeOpened.text ++ ":" ++ disputeId
        eventType := .disputeOpened
        aggregateType := "dispute"
        aggregateId := disputeId
        payload := { basePayload with disputeId := some disputeId } }
  | .disputeRefunded | .serviceRefunded =>
      return orderOutboxEvent .orderRefunded order basePayload

-- ======================================================== the statements

/-- The order, locked. -/
def selectOrderForUpdate (orderId : Uuid) : DbTx OrderRow := do
  let row ← select fun db => db.orders.find? orderId
  orThrow row (notFound "Order not found")

/-- A uuid parameter; PostgreSQL refuses any other text. -/
def uuidParam : ActorId → Except Failure Uuid
  | .user id => .ok id
  | .named _ => .error (.violation "invalid input syntax for type uuid")

/-- `transitionActorId`, as the uuid column stores it. -/
def transitionActorId : Actor → Except Failure (Option Uuid)
  | .user id _ | .service id .testPayment => do
      let uid ← uuidParam id
      return some uid
  | .service _ _ => .ok none

/-- A row of the timeline is inserted. -/
def recordOrderEvent (e : OrderEvent) : DbTx Unit :=
  modify fun db => db.addOrderEvent e

/-- Insert on conflict do nothing, then the row that is there. -/
def enqueueDomainEvent (e : OutboxEvent) : DbTx OutboxEvent := do
  modify fun db => db.addOutboxEvent e
  let row ← select fun db => db.domainOutbox.find? e.eventKey
  orThrow row (.error ("Outbox event " ++ e.eventKey
    ++ " conflicted but could not be read"))

/-- The order's own ids that an actor of some role has to match. -/
def assertActorPermission (order : OrderRow) (actor : Actor)
    (reason : TransitionReason) (toStatus : OrderStatus) : DbTx Unit := do
  require (Permits reason actor.role toStatus)
    (forbidden "This actor cannot perform the requested order transition")
  match actor with
  | .user id .buyer =>
      require (id = .user order.buyerId)
        (forbidden "Only the buyer can perform this order transition")
  | .user id .seller =>
      require (id = .user order.sellerId)
        (forbidden "Only the seller can perform this order transition")
  | .user id .participant =>
      require (id = .user order.buyerId ∨ id = .user order.sellerId)
        (forbidden "Only an order participant can perform this transition")
  | .service id .testPayment =>
      require (id = .user order.buyerId)
        (forbidden "Only the buyer can simulate payment for this order")
  | .user id .admin => do
      let uid ← liftExcept (uuidParam id) fun e => e
      let role ← select fun db => (db.users.find? uid).map User.role
      require (role = some .admin)
        (forbidden "Only an admin can perform this order transition")
  | .service _ _ => return ()

/-- A timeline row of the order whose transition has this target, reason
and actor. -/
def OrderEvent.Repeats (e : OrderEvent) (order : OrderRow) (type : String)
    (input : TransitionOrderInput) : Prop :=
  e.orderId = order.id ∧ e.type = type
    ∧ (e.transition.map fun t => (t.toStatus, t.reason, t.actor))
      = some (input.toStatus, input.reason, input.actor)

instance (e : OrderEvent) (order : OrderRow) (type : String)
    (input : TransitionOrderInput) : Decidable (e.Repeats order type input) :=
  inferInstanceAs (Decidable (_ ∧ _ ∧ _))

/-- `isIdempotentRepeat`: the order is there already, and its timeline says
so. -/
def isIdempotentRepeat (order : OrderRow) (input : TransitionOrderInput) :
    DbTx Bool :=
  if order.status = input.toStatus then do
    let event ← liftExcept (eventDescriptor input) fun e => e
    select fun db =>
      decide (∃ e ∈ db.orderEvents, e.Repeats order event.type input)
  else return false

/-- The row after `update orders set status = …`. -/
def OrderRow.transitioned (order : OrderRow) (cfg : Config)
    (now : Timestamp) (toStatus : OrderStatus) : OrderRow :=
  { order with
    status := toStatus
    paidAt :=
      if order.status = .pending
          ∧ (toStatus = .paid ∨ toStatus = .delivered) then some now
      else order.paidAt
    deliveredAt :=
      if toStatus = .delivered then some now else order.deliveredAt
    completedAt :=
      if toStatus = .completed ∨ toStatus = .refunded then some now
      else order.completedAt
    autoReleaseAt :=
      if toStatus = .delivered then
        some (now + cfg.autoReleaseHours * 3600000)
      else order.autoReleaseAt }

/-- The timeline row of one applied transition. -/
def transitionEvent (order : OrderRow) (input : TransitionOrderInput)
    (descriptor : OrderEventDescriptor) (actorId : Option Uuid) :
    OrderEvent where
  orderId := order.id
  actorId := actorId
  type := descriptor.type
  templateKey := descriptor.templateKey
  body := descriptor.body
  provider := descriptor.provider
  transition := some ⟨order.status, input.toStatus, input.reason, input.actor⟩
  resolution := none

/-- `Order cannot transition from … to …`. -/
def cannotTransition (status toStatus : OrderStatus) : Failure :=
  badRequest ("Order cannot transition from " ++ status.text ++ " to "
    ++ toStatus.text)

/-- The caller's `expectedFrom`, where it passes one, has the status. -/
def ExpectedFrom (input : TransitionOrderInput) (status : OrderStatus) :
    Prop :=
  ∀ l ∈ input.expectedFrom, status ∈ l

instance (input : TransitionOrderInput) (status : OrderStatus) :
    Decidable (ExpectedFrom input status) :=
  inferInstanceAs (Decidable (∀ l ∈ input.expectedFrom, status ∈ l))

/-- The part of `transitionOrder` after the repeat check. -/
def applyTransition (cfg : Config) (now : Timestamp) (order : OrderRow)
    (input : TransitionOrderInput) : DbTx OrderRow := do
  require (ExpectedFrom input order.status)
    (cannotTransition order.status input.toStatus)
  require (canTransitionOrder order.status input.toStatus)
    (cannotTransition order.status input.toStatus)
  assertActorPermission order input.actor input.reason input.toStatus
  let nextOrder := order.transitioned cfg now input.toStatus
  modify fun db => db.putOrder nextOrder
  let descriptor ← liftExcept (eventDescriptor input) fun e => e
  let actorId ← liftExcept (transitionActorId input.actor) fun e => e
  recordOrderEvent (transitionEvent order input descriptor actorId)
  let event ← liftExcept (outboxInput nextOrder input) fun e => e
  let _ ← enqueueDomainEvent event
  return nextOrder

/-- `transitionOrder`. -/
def transitionOrder (cfg : Config) (now : Timestamp)
    (input : TransitionOrderInput) : DbTx OrderRow := do
  let order ← selectOrderForUpdate input.orderId
  let isRepeat ← isIdempotentRepeat order input
  if isRepeat then return order else applyTransition cfg now order input

-- ================================================== one statement a lemma

/-- An order that is selected is there. -/
theorem commits_selectOrderForUpdate {id : Uuid} {db db' : Db}
    {o : OrderRow} :
    Commits (selectOrderForUpdate id) db o db'
      ↔ db.orders.find? id = some o ∧ db' = db := by
  simp only [selectOrderForUpdate, commits_select_bind, commits_orThrow]

/-- And the rest goes on with it. -/
theorem commits_selectOrderForUpdate_bind {α : Type} {id : Uuid}
    {g : OrderRow → DbTx α} {db db' : Db} {b : α} :
    Commits (selectOrderForUpdate id >>= g) db b db'
      ↔ ∃ o, db.orders.find? id = some o ∧ Commits (g o) db b db' := by
  simp only [selectOrderForUpdate, bind_assoc, commits_select_bind,
    commits_orThrow_bind]

/-- An event is enqueued, or its key is taken. -/
theorem commits_enqueueDomainEvent_bind {α : Type} {e : OutboxEvent}
    {g : OutboxEvent → DbTx α} {db db' : Db} {b : α} :
    Commits (enqueueDomainEvent e >>= g) db b db'
      ↔ Commits (g ((db.domainOutbox.find? e.eventKey).getD e))
          (db.addOutboxEvent e) b db' := by
  simp [enqueueDomainEvent, bind_assoc, commits_modify_bind,
    commits_select_bind, commits_orThrow_bind, Db.addOutboxEvent,
    Table.find?_upsert]

/-- A row is added to the timeline. -/
theorem commits_recordOrderEvent_bind {α : Type} {e : OrderEvent}
    {g : Unit → DbTx α} {db db' : Db} {b : α} :
    Commits (recordOrderEvent e >>= g) db b db'
      ↔ Commits (g ()) (db.addOrderEvent e) b db' := by
  rw [recordOrderEvent, commits_modify_bind]

/-- The actor is who its role says, for this order. -/
def ActorMatches (users : Table User.id) (order : OrderRow) : Actor → Prop
  | .user id .buyer => id = .user order.buyerId
  | .user id .seller => id = .user order.sellerId
  | .user id .participant =>
      id = .user order.buyerId ∨ id = .user order.sellerId
  | .service id .testPayment => id = .user order.buyerId
  | .user id .admin =>
      ∃ uid, id = .user uid
        ∧ (users.find? uid).map User.role = some .admin
  | .service _ _ => True

/-- A parameter that is a uuid is a user's id. -/
theorem uuidParam_eq_ok {a : ActorId} {u : Uuid} :
    uuidParam a = .ok u ↔ a = .user u := by
  cases a <;> simp [uuidParam]

/-- An actor must be permitted the transition. -/
theorem commits_assertActorPermission {order : OrderRow} {actor : Actor}
    {reason : TransitionReason} {toStatus : OrderStatus} {db db' : Db}
    {x : Unit} :
    Commits (assertActorPermission order actor reason toStatus) db x db'
      ↔ Permits reason actor.role toStatus ∧ ActorMatches db.users order actor
        ∧ db' = db := by
  unfold assertActorPermission ActorMatches
  rw [commits_require_bind]
  refine and_congr_right fun _ => ?_
  rcases actor with ⟨id, role⟩ | ⟨id, role⟩ <;> cases role <;>
    simp only [commits_require, commits_pure, commits_liftExcept_bind,
      commits_select_bind, uuidParam_eq_ok, true_and]
  constructor
  · intro h
    obtain ⟨uid, rfl, hrole, rfl⟩ := h
    exact ⟨⟨uid, rfl, hrole⟩, rfl⟩
  · intro h
    obtain ⟨⟨uid, rfl, hrole⟩, rfl⟩ := h
    exact ⟨uid, rfl, hrole, rfl⟩

/-- And the rest goes on. -/
theorem commits_assertActorPermission_bind {α : Type} {order : OrderRow}
    {actor : Actor} {reason : TransitionReason} {toStatus : OrderStatus}
    {g : Unit → DbTx α} {db db' : Db} {b : α} :
    Commits (assertActorPermission order actor reason toStatus >>= g) db b db'
      ↔ Permits reason actor.role toStatus ∧ ActorMatches db.users order actor
        ∧ Commits (g ()) db b db' := by
  rw [commits_bind]
  simp only [commits_assertActorPermission, and_assoc, exists_and_left,
    exists_eq_left, Unique.exists_iff]

-- ==================================================== the specification

/-- The call repeats a transition that the order's timeline has, while
the order still has its status. -/
def RepeatOf (db : Db) (order : OrderRow) (input : TransitionOrderInput) :
    Prop :=
  order.status = input.toStatus ∧ ∃ d, eventDescriptor input = .ok d
    ∧ ∃ e ∈ db.orderEvents, e.Repeats order d.type input

/-- Everything an applied transition checks and writes. -/
structure Applied (cfg : Config) (now : Timestamp)
    (input : TransitionOrderInput) (db : Db) (order : OrderRow)
    (descriptor : OrderEventDescriptor) (actorId : Option Uuid)
    (event : OutboxEvent) (db' : Db) : Prop where
  expected : ExpectedFrom input order.status
  edge : canTransitionOrder order.status input.toStatus
  permits : Permits input.reason input.actor.role input.toStatus
  matchesActor : ActorMatches db.users order input.actor
  descriptor_eq : eventDescriptor input = .ok descriptor
  actorId_eq : transitionActorId input.actor = .ok actorId
  event_eq :
    outboxInput (order.transitioned cfg now input.toStatus) input = .ok event
  db_eq : db' = Db.addOutboxEvent
    (Db.addOrderEvent
      (db.putOrder (order.transitioned cfg now input.toStatus))
      (transitionEvent order input descriptor actorId))
    event

/-- What a transition writes, and when. -/
theorem commits_applyTransition {cfg : Config} {now : Timestamp}
    {input : TransitionOrderInput} {db db' : Db} {order r : OrderRow} :
    Commits (applyTransition cfg now order input) db r db'
      ↔ r = order.transitioned cfg now input.toStatus
        ∧ ∃ d a e, Applied cfg now input db order d a e db' := by
  simp only [applyTransition, commits_require_bind, commits_modify_bind,
    commits_liftExcept_bind, commits_assertActorPermission_bind,
    commits_recordOrderEvent_bind, commits_enqueueDomainEvent_bind,
    commits_pure]
  constructor
  · intro h
    obtain ⟨hexp, hedge, hperm, hact, d, hd, a, ha, e, he, rfl, rfl⟩ := h
    exact ⟨rfl, d, a, e, hexp, hedge, hperm, hact, hd, ha, he, rfl⟩
  · intro h
    obtain ⟨rfl, d, a, e, hexp, hedge, hperm, hact, hd, ha, he, rfl⟩ := h
    exact ⟨hexp, hedge, hperm, hact, d, hd, a, ha, e, he, rfl, rfl⟩

/-- The repeat check answers, where the descriptor can be formed. -/
theorem commits_isIdempotentRepeat {order : OrderRow}
    {input : TransitionOrderInput} {db db' : Db} {b : Bool} :
    Commits (isIdempotentRepeat order input) db b db'
      ↔ (b = true ↔ RepeatOf db order input) ∧ db' = db
        ∧ (order.status = input.toStatus →
          ∃ d, eventDescriptor input = .ok d) := by
  unfold isIdempotentRepeat RepeatOf
  rw [commits_ite]
  by_cases hs : order.status = input.toStatus
  · simp only [hs, true_and, not_true_eq_false, false_and, or_false,
      commits_liftExcept_bind, commits_select, true_imp_iff]
    constructor
    · intro h
      obtain ⟨d, hd, rfl, rfl⟩ := h
      refine ⟨?_, rfl, d, hd⟩
      rw [decide_eq_true_iff]
      constructor
      · intro h
        exact ⟨d, hd, h⟩
      · intro h'
        obtain ⟨d', hd', h⟩ := h'
        rw [hd] at hd'
        cases hd'
        exact h
    · intro h
      obtain ⟨hb, rfl, d, hd⟩ := h
      refine ⟨d, hd, ?_, rfl⟩
      rw [Bool.eq_iff_iff, hb, decide_eq_true_iff]
      constructor
      · intro h'
        obtain ⟨d', hd', h⟩ := h'
        rw [hd] at hd'
        cases hd'
        exact h
      · intro h
        exact ⟨d, hd, h⟩
  · simp [hs]

/-- When a call is a repeat. -/
theorem commits_isIdempotentRepeat_bind {α : Type} {order : OrderRow}
    {input : TransitionOrderInput} {g : Bool → DbTx α} {db db' : Db}
    {b : α} :
    Commits (isIdempotentRepeat order input >>= g) db b db'
      ↔ ∃ isRepeat, (isRepeat = true ↔ RepeatOf db order input)
        ∧ (order.status = input.toStatus →
          ∃ d, eventDescriptor input = .ok d)
        ∧ Commits (g isRepeat) db b db' := by
  rw [commits_bind]
  simp only [commits_isIdempotentRepeat]
  constructor
  · intro h
    obtain ⟨isRepeat, _, ⟨hb, rfl, hd⟩, hg⟩ := h
    exact ⟨isRepeat, hb, hd, hg⟩
  · intro h
    obtain ⟨isRepeat, hb, hd, hg⟩ := h
    exact ⟨isRepeat, db, ⟨hb, rfl, hd⟩, hg⟩

/-- A committing call changed nothing, or applied one transition. -/
theorem commits_transitionOrder {cfg : Config} {now : Timestamp}
    {input : TransitionOrderInput} {db db' : Db} {r : OrderRow} :
    Commits (transitionOrder cfg now input) db r db'
      ↔ ∃ order, db.orders.find? input.orderId = some order
        ∧ ((RepeatOf db order input ∧ r = order ∧ db' = db)
          ∨ (order.status ≠ input.toStatus
            ∧ r = order.transitioned cfg now input.toStatus
            ∧ ∃ d a e, Applied cfg now input db order d a e db')) := by
  simp only [transitionOrder, commits_selectOrderForUpdate_bind,
    commits_isIdempotentRepeat_bind, commits_ite, commits_pure,
    commits_applyTransition]
  constructor
  · intro h'
    obtain ⟨order, hfind, b, hb, -, h⟩ := h'
    refine ⟨order, hfind, ?_⟩
    rcases h with ⟨rfl, rfl, rfl⟩ | ⟨-, hr, d, a, e, h⟩
    · exact .inl ⟨hb.mp rfl, rfl, rfl⟩
    · refine .inr ⟨?_, hr, d, a, e, h⟩
      intro hs
      have hedge := h.edge
      rw [hs] at hedge
      exact not_self_transition hedge
  · intro h'
    rcases h' with ⟨order, hfind, ⟨hrep, rfl, rfl⟩ | ⟨hne, hr, h⟩⟩
    · refine ⟨_, hfind, true, by simp [hrep], ?_,
        .inl ⟨rfl, rfl, rfl⟩⟩
      intro _
      exact ⟨hrep.2.choose, hrep.2.choose_spec.1⟩
    · refine ⟨_, hfind, false, ?_, ?_,
        .inr ⟨Bool.false_ne_true, hr, h⟩⟩
      · simp only [Bool.false_eq_true, false_iff]
        intro hrep
        exact hne hrep.1
      · intro hs
        exact absurd hs hne

/-- A call on an order that has an edge to the target is no repeat. -/
theorem applied_of_edge {cfg : Config} {now : Timestamp}
    {input : TransitionOrderInput} {db db' : Db} {order r : OrderRow}
    (hfind : db.orders.find? input.orderId = some order)
    (hedge : canTransitionOrder order.status input.toStatus)
    (h : Commits (transitionOrder cfg now input) db r db') :
    r = order.transitioned cfg now input.toStatus
      ∧ ∃ d a e, Applied cfg now input db order d a e db' := by
  rw [commits_transitionOrder] at h
  obtain ⟨order', hfind', h⟩ := h
  rw [hfind] at hfind'
  cases hfind'
  rcases h with ⟨⟨hs, -⟩, -⟩ | ⟨-, hr, h⟩
  · rw [hs] at hedge
    exact absurd hedge not_self_transition
  · exact ⟨hr, h⟩

end Skrynia
