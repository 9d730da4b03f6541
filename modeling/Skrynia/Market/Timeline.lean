/-
The order timeline as a history.

Any sequence of `transitionOrder` calls, with whatever targets, actors,
reasons, expected statuses and metadata. Next to the database runs the
log of the edges taken, each with the key of its outbox event.

# Why no edge is taken twice

Every edge of the graph climbs in `rank`, so an order enters a status at
most once. A reason allows one target only, `payment_captured` apart,
which allows two; a key is made of the order and the reason's event
type, `dispute_opened` apart, where it is the caller's text. These two
are the only ways in which edges come to share a key (`SharesKey`).
-/
import Skrynia.Market.System

namespace Skrynia

open Relational Stepping

-- ============================================================ the history

/-- A call of `transitionOrder`. -/
structure TransitionCall where
  cfg : Config
  now : Timestamp
  input : TransitionOrderInput

/-- An edge that was taken, and the key of its outbox event. -/
structure Edge where
  orderId : Uuid
  record : TransitionRecord
  eventKey : String
deriving DecidableEq

/-- The database, and the edges taken so far. -/
structure History where
  db : Db
  edges : List Edge

/-- The edge from the order as it was to the row a call returns; a
repeat returns the row as it was. -/
def takenEdge (db : Db) (row : OrderRow) (input : TransitionOrderInput) :
    Option Edge := do
  let order ← db.orders.find? input.orderId
  let event ← (outboxInput row input).toOption
  if order.status = row.status then none
  else some ⟨order.id, ⟨order.status, row.status, input.reason, input.actor⟩,
    event.eventKey⟩

/-- One call. -/
def History.step (s : History) (c : TransitionCall) : History :=
  match (transitionOrder c.cfg c.now c.input).run s.db with
  | .ok (row, db) => ⟨db, s.edges ++ (takenEdge s.db row c.input).toList⟩
  | .error _ => s

/-- `metadata.transition` of an order's rows, in insertion order. -/
def Db.timeline (db : Db) (id : Uuid) : List TransitionRecord :=
  db.orderEvents.filterMap fun e => if e.orderId = id then e.transition else none

/-- The records lead from one status to another by edges of the graph. -/
def Path : OrderStatus → List TransitionRecord → OrderStatus → Prop
  | s, [], t => s = t
  | s, r :: l, t =>
      r.fromStatus = s ∧ canTransitionOrder s r.toStatus ∧ Path r.toStatus l t

/-- A path goes on along an edge. -/
theorem Path.snoc {s t : OrderStatus} {l : List TransitionRecord}
    {r : TransitionRecord} (h : Path s l t) (hr : r.fromStatus = t)
    (hedge : canTransitionOrder t r.toStatus) :
    Path s (l ++ [r]) r.toStatus := by
  induction l generalizing s with
  | nil =>
      obtain rfl : s = t := h
      exact ⟨hr, hedge, rfl⟩
  | cons r' l ih => exact ⟨h.1, h.2.1, ih h.2.2⟩

/-- What the timeline of an order says about its row. -/
structure OrderFaithful (l : List TransitionRecord) (o : OrderRow) :
    Prop where
  path : Path .pending l o.status
  permits : ∀ r ∈ l, Permits r.reason r.actor.role r.toStatus
  paidAt : o.paidAt.isSome ↔ ∃ r ∈ l, r.fromStatus = .pending
    ∧ (r.toStatus = .paid ∨ r.toStatus = .delivered)
  deliveredAt : o.deliveredAt.isSome ↔ ∃ r ∈ l, r.toStatus = .delivered
  autoReleaseAt : o.autoReleaseAt.isSome ↔ ∃ r ∈ l, r.toStatus = .delivered
  completedAt : o.completedAt.isSome
    ↔ o.status = .completed ∨ o.status = .refunded

/-- A second `payment_captured` edge of an order that was captured as
`paid`, or disputes opened on two orders under one dispute id. -/
def SharesKey (e e' : Edge) : Prop :=
  e.orderId = e'.orderId
      ∧ e.record.reason = .paymentCaptured ∧ e.record.toStatus = .paid
      ∧ e'.record.reason = .paymentCaptured ∧ e'.record.toStatus = .delivered
    ∨ e.orderId ≠ e'.orderId
      ∧ e.record.reason = .disputeOpened ∧ e'.record.reason = .disputeOpened

-- ================================================================== ranks

/-- How far an order has come. -/
def OrderStatus.rank : OrderStatus → Nat
  | pending => 0
  | paid => 1
  | inProgress => 2
  | delivered => 3
  | disputed => 4
  | completed | refunded | canceled => 5

/-- Every edge climbs. -/
theorem rank_lt_of_edge {s t : OrderStatus} (h : canTransitionOrder s t) :
    s.rank < t.rank := by
  revert h
  cases s <;> cases t <;> decide

/-- The event type of a reason. -/
def TransitionReason.eventType : TransitionReason → DomainEventType
  | paymentCaptured => .orderPaid
  | testPaymentFailed => .orderCanceled
  | sellerStarted => .orderStarted
  | sellerDelivered => .orderDelivered
  | buyerConfirmed | autoReleased | disputeReleased | serviceReleased =>
      .orderCompleted
  | disputeOpened => .disputeOpened
  | disputeRefunded | serviceRefunded => .orderRefunded

/-- The key of an edge, as its reason makes it. -/
def Edge.Keyed (e : Edge) : Prop :=
  ∃ aggregate, e.eventKey = e.record.reason.eventType.text ++ ":" ++ aggregate
    ∧ (e.record.reason ≠ .disputeOpened → aggregate = e.orderId.text)

/-- The key of an event is made of the order and the reason, or is the
caller's. -/
theorem outboxInput_eventKey {order : OrderRow} {input : TransitionOrderInput}
    {event : OutboxEvent} (h : outboxInput order input = .ok event) :
    event.eventType = input.reason.eventType
      ∧ ∃ aggregate, event.eventKey
          = input.reason.eventType.text ++ ":" ++ aggregate
        ∧ (input.reason ≠ .disputeOpened → aggregate = order.id.text) := by
  unfold outboxInput at h
  cases hids : systemMessageIds input.metadata.systemMessageIds with
  | error _ =>
      rw [hids] at h
      cases h
  | ok ids =>
      rw [hids] at h
      cases hreason : input.reason with
      | disputeOpened =>
          rw [hreason] at h
          cases hid : requiredMetadataString "disputeId"
              input.metadata.disputeId with
          | error _ =>
              rw [hid] at h
              cases h
          | ok disputeId =>
              rw [hid] at h
              cases h
              exact ⟨rfl, disputeId, rfl, fun hne => absurd rfl hne⟩
      | _ =>
          rw [hreason] at h
          cases h
          exact ⟨rfl, order.id.text, rfl, fun _ => rfl⟩

-- ======================================================= what a call does

/-- A call leaves everything as it was, or takes one edge. -/
inductive Taken (s : History) (c : TransitionCall) : History → Prop where
  | nothing : Taken s c s
  | edge {order : OrderRow} {d : OrderEventDescriptor} {a : Option Uuid}
      {e : OutboxEvent} {db : Db}
      (found : s.db.orders.find? order.id = some order)
      (applied : Applied c.cfg c.now c.input s.db order d a e db) :
      Taken s c ⟨db, s.edges ++ [⟨order.id, ⟨order.status, c.input.toStatus,
        c.input.reason, c.input.actor⟩, e.eventKey⟩]⟩

/-- A returned row in the status the order was in takes no edge. -/
theorem takenEdge_eq_none {db : Db} {row order : OrderRow}
    {input : TransitionOrderInput}
    (hfind : db.orders.find? input.orderId = some order)
    (hs : order.status = row.status) : takenEdge db row input = none := by
  simp only [takenEdge, hfind, Option.bind_eq_bind, Option.bind_some, hs,
    if_true]
  cases (outboxInput row input).toOption <;> rfl

/-- A call takes one edge or none. -/
theorem History.step_taken (s : History) (c : TransitionCall) :
    Taken s c (s.step c) := by
  unfold History.step
  split
  case h_2 => exact .nothing
  case h_1 row db hrun =>
    obtain ⟨order, hfind, ⟨-, rfl, rfl⟩ | ⟨hne, rfl, d, a, e, happ⟩⟩ :=
      commits_transitionOrder.mp hrun
    · rw [takenEdge_eq_none hfind rfl, Option.toList_none, List.append_nil]
      exact .nothing
    · have hedge : takenEdge s.db
          (order.transitioned c.cfg c.now c.input.toStatus) c.input
          = some ⟨order.id, ⟨order.status, c.input.toStatus, c.input.reason,
            c.input.actor⟩, e.eventKey⟩ := by
        simp only [takenEdge, hfind, happ.event_eq, Option.bind_eq_bind,
          Option.bind_some, Except.toOption]
        exact if_neg hne
      rw [hedge]
      have hid := Table.key_of_find? hfind
      rw [← hid] at hfind
      exact .edge hfind happ

/-- A call for the status that the order has changes nothing. -/
theorem History.step_of_same_status {s : History} {c : TransitionCall}
    {o : OrderRow} (hfind : s.db.orders.find? c.input.orderId = some o)
    (hs : o.status = c.input.toStatus) : s.step c = s := by
  unfold History.step
  split
  case h_2 => rfl
  case h_1 row db hrun =>
    obtain ⟨order, hfind', h⟩ := commits_transitionOrder.mp hrun
    rw [hfind] at hfind'
    cases hfind'
    rcases h with ⟨-, rfl, rfl⟩ | ⟨hne, -⟩
    · rw [takenEdge_eq_none hfind rfl, Option.toList_none, List.append_nil]
    · exact absurd hs hne

-- ========================================================== the invariant

/-- The edges of an order, in the order they were taken. -/
def edgesOf (edges : List Edge) (id : Uuid) : List TransitionRecord :=
  edges.filterMap fun e => if e.orderId = id then some e.record else none

/-- Timeline rows, order rows, edges and outbox tell one story. -/
structure Faithful (s : History) : Prop where
  orders : ∀ {id o}, s.db.orders.find? id = some o →
    OrderFaithful (s.db.timeline id) o
  logged : ∀ id, s.db.timeline id = edgesOf s.edges id
  reached : ∀ e ∈ s.edges, ∃ o, s.db.orders.find? e.orderId = some o
    ∧ e.record.toStatus.rank ≤ o.status.rank
  keyed : ∀ e ∈ s.edges, e.Keyed
  permits : ∀ e ∈ s.edges,
    Permits e.record.reason e.record.actor.role e.record.toStatus
  recorded : ∀ e ∈ s.edges, s.db.domainOutbox.Has e.eventKey
  outbox : ∀ row ∈ s.db.domainOutbox.rows, row.eventType ≠ .orderCreated →
    ∃ e ∈ s.edges, e.eventKey = row.eventKey
  shared : s.edges.Pairwise fun e e' =>
    e.eventKey = e'.eventKey → SharesKey e e'

/-- A database before any transition: its orders are pending, and its
outbox has only the events of their creation. -/
structure Untouched (db : Db) : Prop where
  orders : ∀ o ∈ db.orders.rows, o.status = .pending ∧ o.paidAt = none
    ∧ o.deliveredAt = none ∧ o.autoReleaseAt = none ∧ o.completedAt = none
  events : ∀ e ∈ db.orderEvents, e.transition = none
  outbox : ∀ row ∈ db.domainOutbox.rows, row.eventType = .orderCreated

/-- An order that was never touched has no timeline. -/
theorem Untouched.timeline_eq {db : Db} (h : Untouched db) (id : Uuid) :
    db.timeline id = [] := by
  refine List.filterMap_eq_nil_iff.mpr fun e he => ?_
  rw [h.events e he]
  exact ite_self none

/-- And so its timeline is faithful. -/
theorem Untouched.faithful {db : Db} (h : Untouched db) :
    Faithful ⟨db, []⟩ where
  orders := by
    intro id o hfind
    obtain ⟨hs, hp, hd, ha, hc⟩ := h.orders o (Table.mem_of_find? hfind)
    rw [h.timeline_eq]
    refine ⟨hs.symm, by simp, ?_, ?_, ?_, ?_⟩
    · simp [hp]
    · simp [hd]
    · simp [ha]
    · simp [hc, hs]
  logged := h.timeline_eq
  reached := by simp
  keyed := by simp
  permits := by simp
  recorded := by simp
  outbox := by
    intro row hrow hne
    exact absurd (h.outbox row hrow) hne
  shared := .nil

section Step

variable {cfg : Config} {now : Timestamp} {input : TransitionOrderInput}
  {db db' : Db} {o : OrderRow} {d : OrderEventDescriptor} {a : Option Uuid}
  {e : OutboxEvent}

/-- An applied transition adds its record to the one timeline. -/
theorem Applied.timeline_eq (h : Applied cfg now input db o d a e db')
    (id : Uuid) :
    db'.timeline id = db.timeline id ++ if o.id = id then
      [⟨o.status, input.toStatus, input.reason, input.actor⟩] else [] := by
  rw [h.db_eq]
  simp only [Db.timeline, Db.addOutboxEvent, Db.addOrderEvent, Db.putOrder,
    List.filterMap_append]
  congr 1
  by_cases hid : o.id = id <;> simp [transitionEvent, hid]

/-- A call changes the row of its own order. -/
theorem Applied.find?_eq (h : Applied cfg now input db o d a e db')
    (hfind : db.orders.find? o.id = some o) (id : Uuid) :
    db'.orders.find? id = if o.id = id then
      some (o.transitioned cfg now input.toStatus) else db.orders.find? id := by
  rw [h.db_eq]
  show (db.orders.set (o.transitioned cfg now input.toStatus)).find? id = _
  rw [Table.find?_set, show (o.transitioned cfg now input.toStatus).id = o.id
    from rfl]
  by_cases hid : o.id = id
  · subst hid
    rw [if_pos rfl, if_pos rfl, hfind]
    rfl
  · rw [if_neg hid, if_neg hid]

/-- One more record, one more status: the row follows. -/
theorem OrderFaithful.snoc {l : List TransitionRecord}
    (hl : OrderFaithful l o) (h : Applied cfg now input db o d a e db') :
    OrderFaithful
      (l ++ [⟨o.status, input.toStatus, input.reason, input.actor⟩])
      (o.transitioned cfg now input.toStatus) where
  path := hl.path.snoc rfl h.edge
  permits := by
    intro r hr
    rcases List.mem_append.mp hr with hr | hr
    · exact hl.permits r hr
    · rw [List.mem_singleton.mp hr]
      exact h.permits
  paidAt := by
    simp only [OrderRow.transitioned, List.mem_append, List.mem_singleton,
      or_and_right, exists_or, exists_eq_left, ← hl.paidAt]
    split
    · next hpaid => simp [hpaid]
    · next hpaid => simp [hpaid]
  deliveredAt := by
    simp only [OrderRow.transitioned, List.mem_append, List.mem_singleton,
      or_and_right, exists_or, exists_eq_left, ← hl.deliveredAt]
    split
    · next hto => simp [hto]
    · next hto => simp [hto]
  autoReleaseAt := by
    simp only [OrderRow.transitioned, List.mem_append, List.mem_singleton,
      or_and_right, exists_or, exists_eq_left, ← hl.autoReleaseAt]
    split
    · next hto => simp [hto]
    · next hto => simp [hto]
  completedAt := by
    have hopen : ¬ (o.status = .completed ∨ o.status = .refunded) :=
      fun hs => terminal_stuck hs h.edge
    have hnone : ¬ o.completedAt.isSome := fun hc =>
      hopen (hl.completedAt.mp hc)
    simp only [OrderRow.transitioned]
    split
    · next hto => simp [hto]
    · next hto => simpa [hto] using hnone

end Step

-- =============================================================== one step

/-- Where an event of a type may lead. -/
def DomainEventType.targets : DomainEventType → List OrderStatus
  | orderPaid => [.paid, .delivered]
  | orderCanceled => [.canceled]
  | orderStarted => [.inProgress]
  | orderDelivered => [.delivered]
  | orderCompleted => [.completed]
  | orderRefunded => [.refunded]
  | disputeOpened => [.disputed]
  | orderCreated | disputeResolved => []

/-- A reason that is permitted leads where its event type says. -/
theorem Permits.mem_targets {reason : TransitionReason} {role : ActorRole}
    {s : OrderStatus} (h : Permits reason role s) :
    s ∈ reason.eventType.targets := by
  have hs := h.1
  cases reason <;> exact hs

/-- Only a captured order goes on to a second target of its event. -/
theorem eq_captured_of_targets {reason : TransitionReason}
    {s t : OrderStatus} (hs : s ∈ reason.eventType.targets)
    (ht : t ∈ reason.eventType.targets) (hlt : s.rank < t.rank) :
    reason = .paymentCaptured ∧ s = .paid ∧ t = .delivered := by
  cases reason <;>
    simp only [TransitionReason.eventType, DomainEventType.targets,
      List.mem_cons, List.not_mem_nil, or_false] at hs ht
  case paymentCaptured =>
    rcases hs with rfl | rfl <;> rcases ht with rfl | rfl
    · exact absurd hlt (by decide)
    · exact ⟨rfl, rfl, rfl⟩
    · exact absurd hlt (by decide)
    · exact absurd hlt (by decide)
  all_goals
    subst hs ht
    exact absurd hlt (Nat.lt_irrefl _)

/-- One reason announces a payment. -/
theorem eq_captured_of_eventType {reason : TransitionReason}
    (h : reason.eventType = .orderPaid) : reason = .paymentCaptured := by
  cases reason <;> first | rfl | cases h

/-- And one a dispute. -/
theorem eq_disputeOpened_of_eventType {reason : TransitionReason}
    (h : reason.eventType = .disputeOpened) : reason = .disputeOpened := by
  cases reason <;> first | rfl | cases h

/-- Edges with one key, the second of them further on where they are of
one order. -/
theorem sharesKey_of_eventKey {e e' : Edge} (he : e.Keyed) (he' : e'.Keyed)
    (hp : Permits e.record.reason e.record.actor.role e.record.toStatus)
    (hp' : Permits e'.record.reason e'.record.actor.role e'.record.toStatus)
    (hrank : e.orderId = e'.orderId →
      e.record.toStatus.rank < e'.record.toStatus.rank)
    (hkey : e.eventKey = e'.eventKey) : SharesKey e e' := by
  obtain ⟨x, hx, hxid⟩ := he
  obtain ⟨y, hy, hyid⟩ := he'
  obtain ⟨htype, rfl⟩ := eventKey_injective (hx.symm.trans (hkey.trans hy))
  have hto := hp.mem_targets
  have hto' := hp'.mem_targets
  rw [← htype] at hto'
  by_cases hdispute : e.record.reason = .disputeOpened
  · have hdispute' : e'.record.reason = .disputeOpened := by
      refine eq_disputeOpened_of_eventType ?_
      rw [← htype, hdispute]
      rfl
    refine .inr ⟨?_, hdispute, hdispute'⟩
    intro hid
    have hcaptured := (eq_captured_of_targets hto hto' (hrank hid)).1
    rw [hdispute] at hcaptured
    cases hcaptured
  · have hdispute' : e'.record.reason ≠ .disputeOpened := by
      intro h
      refine hdispute (eq_disputeOpened_of_eventType ?_)
      rw [htype, h]
      rfl
    have hid : e.orderId = e'.orderId :=
      Uuid.text_injective ((hxid hdispute).symm.trans (hyid hdispute'))
    obtain ⟨hreason, hs, hs'⟩ := eq_captured_of_targets hto hto' (hrank hid)
    refine .inl ⟨hid, hreason, hs, ?_, hs'⟩
    refine eq_captured_of_eventType ?_
    rw [← htype, hreason]
    rfl

/-- A call keeps timelines faithful. A transition appends one event and
moves the order along the same edge, and what is refused or repeated
leaves both. -/
theorem Faithful.step {s : History} (h : Faithful s) (c : TransitionCall) :
    Faithful (s.step c) := by
  have htaken := s.step_taken c
  generalize s.step c = s' at htaken
  cases htaken with
  | nothing => exact h
  | @edge order d a e db found applied =>
  have hkeyed : Edge.Keyed ⟨order.id, ⟨order.status, c.input.toStatus,
      c.input.reason, c.input.actor⟩, e.eventKey⟩ :=
    (outboxInput_eventKey applied.event_eq).2
  have houtbox : db.domainOutbox = s.db.domainOutbox.upsert e := by
    rw [applied.db_eq]
    rfl
  refine ⟨?_, ?_, ?_, ?_, ?_, ?_, ?_, ?_⟩
  · intro id o hfind
    rw [applied.find?_eq found] at hfind
    rw [applied.timeline_eq]
    split at hfind
    · next hid =>
      cases hfind
      subst hid
      rw [if_pos rfl]
      exact (h.orders found).snoc applied
    · next hid =>
      rw [if_neg hid, List.append_nil]
      exact h.orders hfind
  · intro id
    rw [applied.timeline_eq, h.logged, edgesOf, edgesOf, List.filterMap_append]
    congr 1
    by_cases hid : order.id = id <;> simp [hid]
  · intro e' he'
    rw [applied.find?_eq found]
    rcases List.mem_append.mp he' with he' | he'
    · obtain ⟨o, ho, hrank⟩ := h.reached e' he'
      split
      · next hid =>
        rw [← hid, found] at ho
        cases ho
        refine ⟨_, rfl, ?_⟩
        exact le_trans hrank (Nat.le_of_lt (rank_lt_of_edge applied.edge))
      · exact ⟨o, ho, hrank⟩
    · rw [List.mem_singleton.mp he', if_pos rfl]
      exact ⟨_, rfl, Nat.le_refl _⟩
  · intro e' he'
    rcases List.mem_append.mp he' with he' | he'
    · exact h.keyed e' he'
    · rw [List.mem_singleton.mp he']
      exact hkeyed
  · intro e' he'
    rcases List.mem_append.mp he' with he' | he'
    · exact h.permits e' he'
    · rw [List.mem_singleton.mp he']
      exact applied.permits
  · intro e' he'
    rw [houtbox, Table.has_upsert]
    rcases List.mem_append.mp he' with he' | he'
    · exact .inl (h.recorded e' he')
    · rw [List.mem_singleton.mp he']
      exact .inr rfl
  · intro row hrow hne
    have hrow' : row ∈ s.db.domainOutbox.rows ∨ row = e := by
      rw [houtbox] at hrow
      rcases Table.rows_upsert s.db.domainOutbox e with hr | hr <;>
        rw [hr] at hrow
      · exact .inl hrow
      · rcases List.mem_append.mp hrow with hrow | hrow
        · exact .inl hrow
        · exact .inr (List.mem_singleton.mp hrow)
    rcases hrow' with hrow' | rfl
    · obtain ⟨e', he', hkey⟩ := h.outbox row hrow' hne
      exact ⟨e', List.mem_append_left _ he', hkey⟩
    · exact ⟨_, List.mem_append_right _ (List.mem_singleton.mpr rfl), rfl⟩
  · refine List.pairwise_append.mpr ⟨h.shared, List.pairwise_singleton _ _, ?_⟩
    intro e₁ he₁ e₂ he₂ hkey
    rw [List.mem_singleton.mp he₂] at hkey ⊢
    refine sharesKey_of_eventKey (h.keyed e₁ he₁) hkeyed (h.permits e₁ he₁)
      applied.permits ?_ hkey
    intro hid
    obtain ⟨o, ho, hrank⟩ := h.reached e₁ he₁
    rw [hid, found] at ho
    cases ho
    exact lt_of_le_of_lt hrank (rank_lt_of_edge applied.edge)

-- ============================================================== the runs

/-- So do any number of calls. -/
theorem Untouched.run {db : Db} (h : Untouched db)
    (calls : List TransitionCall) :
    Faithful (run History.step ⟨db, []⟩ calls) :=
  run_keeps (fun _ c hs => hs.step c) h.faithful calls

/-- After any sequence of calls every order's timeline is the path its
row went, each edge by an actor that the reason's policy allows; each
edge has one outbox event, and edges have one key only as `SharesKey`
says; and a call that repeats what the timeline has changes nothing. -/
theorem timeline_faithful {db : Db} (hdb : Untouched db)
    (calls : List TransitionCall) :
    (∀ id o, (run History.step ⟨db, []⟩ calls).db.orders.find? id = some o →
      OrderFaithful ((run History.step ⟨db, []⟩ calls).db.timeline id) o)
    ∧ (∀ id, (run History.step ⟨db, []⟩ calls).db.timeline id
        = edgesOf (run History.step ⟨db, []⟩ calls).edges id)
    ∧ (∀ e ∈ (run History.step ⟨db, []⟩ calls).edges,
        ((run History.step ⟨db, []⟩ calls).db.domainOutbox.rows.filter
          fun row => row.eventKey = e.eventKey).length = 1)
    ∧ (run History.step ⟨db, []⟩ calls).edges.Pairwise (fun e e' =>
        e.eventKey = e'.eventKey → SharesKey e e')
    ∧ ∀ c o r, (run History.step ⟨db, []⟩ calls).db.orders.find?
          c.input.orderId = some o → o.status = c.input.toStatus →
        r ∈ (run History.step ⟨db, []⟩ calls).db.timeline c.input.orderId →
        r.toStatus = c.input.toStatus → r.reason = c.input.reason →
        r.actor = c.input.actor →
        (run History.step ⟨db, []⟩ calls).step c
          = run History.step ⟨db, []⟩ calls := by
  have h := hdb.run calls
  refine ⟨fun _ _ hfind => h.orders hfind, h.logged, ?_, h.shared, ?_⟩
  · intro e he
    rw [Table.length_filter_key, if_pos (h.recorded e he)]
  · intro c o r hfind hs _ _ _ _
    exact History.step_of_same_status hfind hs

/-- There is one order. -/
theorem oneOrderDb_orders : oneOrderDb.orders.rows = [oneOrder] := by
  rfl

/-- It was never touched. -/
theorem oneOrderDb_untouched : Untouched oneOrderDb where
  orders := by
    intro o ho
    rw [oneOrderDb_orders] at ho
    rw [List.mem_singleton.mp ho]
    simp [oneOrder]
  events := by
    intro e he
    simp [oneOrderDb, Db.empty] at he
  outbox := by
    intro row hrow
    simp [oneOrderDb, Db.empty, Table.empty] at hrow

/-- The buyer captures a payment, and captures it again as delivered. -/
def capturedTwice : List TransitionCall :=
  [⟨defaultConfig, 1, ⟨⟨4⟩, .paid, .user (.user ⟨1⟩) .buyer,
      .paymentCaptured, none, .none⟩⟩,
   ⟨defaultConfig, 2, ⟨⟨4⟩, .delivered, .user (.user ⟨1⟩) .buyer,
      .paymentCaptured, none, .none⟩⟩]

/-- A payment is captured, and captured again as delivered, and the timeline
tells the row. -/
theorem timeline_faithful_captured :
    OrderFaithful
      ((run History.step ⟨oneOrderDb, []⟩ capturedTwice).db.timeline ⟨4⟩)
      (((run History.step ⟨oneOrderDb, []⟩ capturedTwice).db.orders.find?
        ⟨4⟩).getD oneOrder) :=
  (timeline_faithful oneOrderDb_untouched capturedTwice).1 ⟨4⟩ _ rfl

/-- Two edges, one key, one outbox event. -/
theorem capturedTwice_shares_key :
    ¬ (run History.step ⟨oneOrderDb, []⟩ capturedTwice).edges.Pairwise
        (fun e e' => e.eventKey ≠ e'.eventKey)
      ∧ (run History.step ⟨oneOrderDb, []⟩ capturedTwice).edges.length = 2
      ∧ (run History.step ⟨oneOrderDb, []⟩
          capturedTwice).db.domainOutbox.rows.length = 1 := by
  decide +kernel

end Skrynia
