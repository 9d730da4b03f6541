/-
The outbox with its handlers: each notification once.

Workers claim events and run their handlers, any number at once, also two
on one event when a lease has run out. A handler may stop at any access,
and what it has done stays. The event then is handled again, from the
start.

# The system

`HandlerSystem` joins the workers of the outbox, what handlers leave and
the executions under way. A worker's handler returns when the program of
its latest execution has ended; that it throws, and when, is left open.
Nothing ends an execution whose worker has given up on it: its remaining
branches may go on.

# What holds

Every execution is owed what its handler leads to (`Sound.owed`), and what
is stored, published and queued goes back to an event of the outbox
(`Content`). So a processed event was handled by an execution that has
ended, and its notifications are there, each once.
-/
import Skrynia.Outbox.Delivery
import Skrynia.Outbox.Intended

namespace Skrynia

open Relational Stepping ForkJoin

-- ======================================================= the outbox table

section OutboxTable

variable {E : Type} {eventKey : E → String} {maxAttempts : Nat}
  {s : OutboxSystem E}

/-- What a step makes of the table. -/
inductive TableStep (eventKey : E → String) (maxAttempts : Nat)
    (t : DomainOutbox E) (e : OutboxStep E) : DomainOutbox E → Prop where
  | same : TableStep eventKey maxAttempts t e t
  | enqueued {id : Uuid} {event : E} {now : Timestamp}
      (own : e = .enqueue id event now)
      (free : ∀ r ∈ t.rows, eventKey r.event ≠ eventKey event) :
      TableStep eventKey maxAttempts t e (t.upsert (.enqueued id event now))
  | claimed (c : ClaimInput) :
      TableStep eventKey maxAttempts t e (t.claimOutboxBatch maxAttempts c).2
  | updated (p : DomainOutboxEvent E → Prop) [DecidablePred p]
      (f : DomainOutboxEvent E → DomainOutboxEvent E)
      (hf : ∀ r, (f r).id = r.id) :
      TableStep eventKey maxAttempts t e (t.update p f hf)

/-- A step does one thing to the table. -/
theorem OutboxSystem.table_step (s : OutboxSystem E) (e : OutboxStep E) :
    TableStep eventKey maxAttempts s.table e
      (s.step eventKey maxAttempts e).table := by
  cases e with
  | enqueue id event now =>
      show TableStep eventKey maxAttempts s.table _
        (s.table.enqueueDomainEvent eventKey id event now)
      unfold DomainOutbox.enqueueDomainEvent
      split
      · exact .same
      · next hfree =>
        refine .enqueued rfl fun r hr hkey => hfree ?_
        rw [List.any_eq_true]
        exact ⟨r, hr, decide_eq_true hkey⟩
  | claim input fault =>
      show TableStep eventKey maxAttempts s.table _
        (s.claim maxAttempts input fault).table
      rcases s.claim_cases maxAttempts input fault with h | ⟨-, h | h⟩ <;> rw [h]
      · exact .same
      · exact .claimed input
      · exact .claimed input
  | handlerReturns worker id =>
      show TableStep eventKey maxAttempts s.table _
        (s.handlerReturns worker id).table
      unfold handlerReturns
      split <;> exact .same
  | handlerThrows worker id error =>
      show TableStep eventKey maxAttempts s.table _
        (s.handlerThrows worker id error).table
      unfold handlerThrows
      split <;> exact .same
  | heartbeat worker id now => exact .updated _ _ fun r => r.id_renewed now
  | markProcessed worker id now fault =>
      show TableStep eventKey maxAttempts s.table _
        (s.markProcessed worker id now fault).table
      unfold markProcessed
      split
      · dsimp only
        rw [table_setAttempt, table_setTable]
        split
        · exact .same
        · exact .updated _ _ fun r => r.id_done now
      · exact .same
  | markFailed worker id baseBackoffMs now fault =>
      show TableStep eventKey maxAttempts s.table _
        (s.markFailed maxAttempts worker id baseBackoffMs now fault).table
      unfold markFailed
      split
      · dsimp only
        rw [table_setAttempt, table_setTable]
        split
        · exact .same
        · exact .updated _ _ fun r => r.id_attemptFailed _ _ _ _
      · exact .same
  | retry eventIds limit now locked =>
      exact .updated _ _ fun r => r.id_retried now

/-- A row that a step adds was enqueued under a free key. -/
theorem TableStep.new {t t' : DomainOutbox E} {e : OutboxStep E}
    (h : TableStep eventKey maxAttempts t e t') {id : Uuid}
    {r : DomainOutboxEvent E} (hnone : t.find? id = none)
    (hfind : t'.find? id = some r) :
    ∀ x ∈ t.rows, eventKey x.event ≠ eventKey r.event := by
  cases h with
  | same =>
      rw [hnone] at hfind
      cases hfind
  | enqueued own free =>
      rw [Table.find?_upsert, hnone] at hfind
      split at hfind
      · cases hfind
        exact free
      · cases hfind
  | claimed c =>
      rw [DomainOutbox.find?_claimOutboxBatch_none hnone] at hfind
      cases hfind
  | updated p f hf =>
      rw [Table.find?_update, hnone] at hfind
      cases hfind

/-- At most one row is new. -/
theorem TableStep.one_new {t t' : DomainOutbox E} {e : OutboxStep E}
    (h : TableStep eventKey maxAttempts t e t') {i j : Uuid}
    {x y : DomainOutboxEvent E} (hi : t.find? i = none) (hj : t.find? j = none)
    (hx : t'.find? i = some x) (hy : t'.find? j = some y) : i = j := by
  cases h with
  | same =>
      rw [hi] at hx
      cases hx
  | enqueued own free =>
      rw [Table.find?_upsert, hi] at hx
      rw [Table.find?_upsert, hj] at hy
      split at hx
      · next heq =>
        split at hy
        · next heq' => exact heq.symm.trans heq'
        · cases hy
      · cases hx
  | claimed c =>
      rw [DomainOutbox.find?_claimOutboxBatch_none hi] at hx
      cases hx
  | updated p f hf =>
      rw [Table.find?_update, hi] at hx
      cases hx

/-- No two rows have one event key. -/
def DomainOutbox.Distinct (eventKey : E → String) (t : DomainOutbox E) : Prop :=
  ∀ r ∈ t.rows, ∀ r' ∈ t.rows, eventKey r.event = eventKey r'.event → r = r'

/-- And keeps event keys distinct. -/
theorem OutboxInv.distinct_step (h : OutboxInv maxAttempts s) (e : OutboxStep E)
    (hdistinct : s.table.Distinct eventKey) :
    (s.step eventKey maxAttempts e).table.Distinct eventKey := by
  have hstep : TableStep eventKey maxAttempts s.table e
      (s.step eventKey maxAttempts e).table :=
    s.table_step e
  -- Where a row comes from, by its id.
  have hfrom : ∀ r' ∈ (s.step eventKey maxAttempts e).table.rows,
      s.table.find? r'.id = none
        ∨ ∃ r ∈ s.table.rows, r.id = r'.id ∧ r.event = r'.event := by
    intro r' hr'
    cases hfind : s.table.find? r'.id with
    | none => exact .inl rfl
    | some r =>
        obtain ⟨r'', hafter, hrow⟩ :=
          OutboxSystem.row_step eventKey e h.named hfind
        rw [Table.find?_of_mem hr'] at hafter
        cases hafter
        exact .inr ⟨r, Table.mem_of_find? hfind, hrow.kept.1.symm,
          hrow.kept.2.symm⟩
  intro x hx y hy hkey
  refine Table.eq_of_key_eq hx hy ?_
  rcases hfrom x hx with hxnew | ⟨x', hx', hxid, hxevent⟩
  · rcases hfrom y hy with hynew | ⟨y', hy', hyid, hyevent⟩
    · exact hstep.one_new hxnew hynew (Table.find?_of_mem hx)
        (Table.find?_of_mem hy)
    · refine absurd ?_ (hstep.new hxnew (Table.find?_of_mem hx) y' hy')
      rw [hyevent, hkey]
  · rcases hfrom y hy with hynew | ⟨y', hy', hyid, hyevent⟩
    · refine absurd ?_ (hstep.new hynew (Table.find?_of_mem hy) x' hx')
      rw [hxevent, hkey]
    · have heq : x' = y' := by
        refine hdistinct x' hx' y' hy' ?_
        rw [hxevent, hyevent, hkey]
      rw [← hxid, ← hyid, heq]

/-- Only the end of a handler is recorded as one. -/
theorem OutboxSystem.returned_new (e : OutboxStep E) {id : Uuid}
    (hid : id ∈ (s.step eventKey maxAttempts e).returned) :
    id ∈ s.returned ∨ ∃ worker, e = .handlerReturns worker id := by
  cases e with
  | claim input fault =>
      change id ∈ (s.claim maxAttempts input fault).returned at hid
      rcases s.claim_cases maxAttempts input fault with h | ⟨-, h | h⟩ <;>
        rw [h] at hid <;> exact .inl hid
  | handlerReturns worker i =>
      change id ∈ (s.handlerReturns worker i).returned at hid
      unfold handlerReturns at hid
      split at hid
      · rcases List.mem_append.mp hid with hid | hid
        · exact .inl hid
        · rw [List.mem_singleton] at hid
          rw [hid]
          exact .inr ⟨worker, rfl⟩
      · exact .inl hid
  | handlerThrows worker i error =>
      change id ∈ (s.handlerThrows worker i error).returned at hid
      unfold handlerThrows at hid
      split at hid <;> exact .inl hid
  | markProcessed worker i now fault =>
      change id ∈ (s.markProcessed worker i now fault).returned at hid
      unfold markProcessed at hid
      split at hid <;> exact .inl hid
  | markFailed worker i baseBackoffMs now fault =>
      change id ∈ (s.markFailed maxAttempts worker i baseBackoffMs now
        fault).returned at hid
      unfold markFailed at hid
      split at hid <;> exact .inl hid
  | enqueue newId event now => exact .inl hid
  | heartbeat worker i now => exact .inl hid
  | retry eventIds limit now locked => exact .inl hid

end OutboxTable

namespace OutboxHandlers

-- ============================================================= the system

/-- A handler at work on an event as its claim returned it. -/
structure Execution where
  worker : String
  event : DomainOutboxEvent DomainEvent
  /-- The tables up to the claim, newest first. -/
  since : List HandlerTables
  program : Handler

/-- The outbox, what handlers leave, and the executions under way. -/
structure HandlerSystem where
  outbox : OutboxSystem DomainEvent
  effects : Effects
  /-- The latest first. -/
  executions : List Execution

/-- What may happen next. -/
inductive HandlerEvent where
  | outbox (e : OutboxStep DomainEvent)
  /-- The next access of an execution, in one of its branches. -/
  | proceed (n : Nat) (path : List Bool) (drawn : Drawn) (broken : Option Break)
  | others (d : OthersDo)

/-- Before any event. -/
def HandlerSystem.start (tables : HandlerTables) : HandlerSystem where
  outbox := .start
  effects := ⟨tables, [], ⟨[], List.nodup_nil, List.nodup_nil⟩, [], []⟩
  executions := []

namespace HandlerSystem

variable (cfg : HandlerConfig) (maxAttempts : Nat) (s : HandlerSystem)

/-- A step of the outbox. -/
def outboxStep (e : OutboxStep DomainEvent) : OutboxSystem DomainEvent :=
  s.outbox.step DomainEvent.eventKey maxAttempts e

/-- The worker's latest execution of the event has come to its end. -/
def Returns (worker : String) (id : Uuid) : Prop :=
  (s.executions.find? fun x => x.worker = worker ∧ x.event.id = id).any
    fun x => x.program.ended

instance (worker : String) (id : Uuid) : Decidable (s.Returns worker id) :=
  inferInstanceAs (Decidable (_ = true))

/-- The rows that a claim hands to its worker. -/
def received (c : ClaimInput) (fault : Option Fault) :
    List (DomainOutboxEvent DomainEvent) :=
  let batch := (s.outbox.table.claimOutboxBatch maxAttempts c).1
  if fault = none ∧ s.outbox.Sequential c.workerId batch then batch else []

/-- An execution begins at the start of its handler. -/
def begin (worker : String) (event : DomainOutboxEvent DomainEvent) : Execution
    where
  worker := worker
  event := event
  since := s.effects.seen
  program := handleDomainEvent cfg event.id event.event

/-- The next access of the execution at place `n`. -/
def proceed (n : Nat) (x : Execution) (path : List Bool) (drawn : Drawn)
    (broken : Option Break) : HandlerSystem :=
  let next := advance (fun s o => s.perform drawn o) s.effects x.program path
    broken
  { s with
    effects := next.1
    executions := s.executions.set n { x with program := next.2 } }

/-- One event. -/
def step : HandlerEvent → HandlerSystem
  | .outbox e =>
      match e with
      | .handlerReturns worker id =>
          if s.Returns worker id then
            { s with outbox := s.outboxStep maxAttempts e }
          else s
      | .claim input fault =>
          { s with
            outbox := s.outboxStep maxAttempts e
            executions := (s.received maxAttempts input fault).map
              (s.begin cfg input.workerId) ++ s.executions }
      | _ => { s with outbox := s.outboxStep maxAttempts e }
  | .proceed n path drawn broken =>
      match s.executions[n]? with
      | some x => s.proceed n x path drawn broken
      | none => s
  | .others d => { s with effects := s.effects.others d }

/-- Take some steps. -/
def play (tables : HandlerTables) (events : List HandlerEvent) :
    HandlerSystem :=
  run (fun s e => s.step cfg maxAttempts e) (start tables) events

/-- The event is in the outbox. -/
def Enqueued (id : Uuid) (event : DomainEvent) : Prop :=
  ∃ r ∈ s.outbox.table.rows, r.id = id ∧ r.event = event

end HandlerSystem

-- ============================================================ the content

/-- What is stored under a key was asked for by an event of the outbox. -/
def AskedFor (cfg : HandlerConfig) (enqueued : Uuid → DomainEvent → Prop)
    (s : Effects) (values : NotificationValues) : Prop :=
  ∃ id event, enqueued id event ∧ ∃ db ∈ s.seen,
    ∃ input ∈ intended cfg db event,
      values = input.values cfg (keyOf event input)

/-- What is published, under which id. -/
def Published.Sound (enqueued : Uuid → DomainEvent → Prop) (s : Effects) :
    Published → Prop
  | .user userId (.notification row) id =>
      id = some row.id ∧ userId = row.values.userId ∧ Stored row s
  | .user _ _ _ => True
  | .conversation _ (.message message) id => id = none ∨ id = some message.id
  | .conversation _ (.moderated messageId _ _) id =>
      ∃ eventId event, enqueued eventId event ∧ id = some eventId
        ∧ ∃ payload, event.payload = .messageModerated payload
          ∧ payload.messageId = messageId
  | .userBanned userId id =>
      ∃ eventId event, enqueued eventId event ∧ id = some eventId
        ∧ event.payload = .userBanned userId

/-- A job delivers a stored notification. -/
def DeliveryJob.Sound (cfg : HandlerConfig) (s : Effects) (job : DeliveryJob) :
    Prop :=
  ∃ row ∈ s.notifications.rows, ∃ key, row.eventKey = some key
    ∧ job.jobId = deliveryJobId cfg key ∧ job.userId = row.values.userId
    ∧ job.notificationType.text = row.values.type

/-- What is stored, published and queued goes back to an event of the
outbox. -/
structure Content (cfg : HandlerConfig) (enqueued : Uuid → DomainEvent → Prop)
    (s : Effects) : Prop where
  rows : ∀ row ∈ s.notifications.rows, row.eventKey ≠ none →
    AskedFor cfg enqueued s row.values
  published : ∀ e ∈ s.published, e.Sound enqueued s
  jobs : ∀ job ∈ s.jobs, job.Sound cfg s

section Content

variable {cfg : HandlerConfig} {enqueued enqueued' : Uuid → DomainEvent → Prop}
  {s s' : Effects} {eventId : Uuid} {event : DomainEvent}

/-- What was asked for stays so. -/
theorem AskedFor.later {values : NotificationValues}
    (henqueued : ∀ id event, enqueued id event → enqueued' id event)
    (hmay : May s s') (h : AskedFor cfg enqueued s values) :
    AskedFor cfg enqueued' s' values := by
  obtain ⟨id, event, hevent, db, hdb, input, hinput, heq⟩ := h
  exact ⟨id, event, henqueued id event hevent, db, hmay.seen.subset hdb, input,
    hinput, heq⟩

/-- What was published for a reason stays so. -/
theorem Published.Sound.later {e : Published}
    (henqueued : ∀ id event, enqueued id event → enqueued' id event)
    (hmay : May s s') (h : e.Sound enqueued s) : e.Sound enqueued' s' := by
  cases e with
  | user userId e id =>
      cases e with
      | notification row => exact ⟨h.1, h.2.1, h.2.2.later hmay⟩
      | order => trivial
      | disputeResolved => trivial
  | conversation conversationId e id =>
      cases e with
      | message => exact h
      | moderated messageId c hidden =>
          obtain ⟨eventId, event, hevent, h⟩ := h
          exact ⟨eventId, event, henqueued eventId event hevent, h⟩
  | userBanned userId id =>
      obtain ⟨eventId, event, hevent, h⟩ := h
      exact ⟨eventId, event, henqueued eventId event hevent, h⟩

/-- So does a job. -/
theorem DeliveryJob.Sound.later {job : DeliveryJob} (hmay : May s s')
    (h : job.Sound cfg s) : job.Sound cfg s' := by
  obtain ⟨row, hrow, key, hkey, hjob, huser, htype⟩ := h
  obtain ⟨row', hrow', -, hvalues⟩ := hmay.stored row hrow
  refine ⟨row', hrow', key, ?_, hjob, ?_, ?_⟩
  · unfold NotificationRow.eventKey
    rw [hvalues]
    exact hkey
  · rw [hvalues]
    exact huser
  · rw [hvalues]
    exact htype

/-- What is new has to be sound, the rest stays so. -/
theorem Content.later (h : Content cfg enqueued s)
    (henqueued : ∀ id event, enqueued id event → enqueued' id event)
    (hmay : May s s')
    (hrows : ∀ row ∈ s'.notifications.rows, row.eventKey ≠ none →
      (∃ old ∈ s.notifications.rows, old.values = row.values)
        ∨ AskedFor cfg enqueued' s' row.values)
    (hpublished : ∀ e ∈ s'.published, e ∈ s.published ∨ e.Sound enqueued' s')
    (hjobs : ∀ job ∈ s'.jobs, job ∈ s.jobs ∨ job.Sound cfg s') :
    Content cfg enqueued' s' where
  rows row hrow hkey := by
    rcases hrows row hrow hkey with ⟨old, hold, hvalues⟩ | hnew
    · have hold' : old.eventKey ≠ none := by
        unfold NotificationRow.eventKey
        rw [hvalues]
        exact hkey
      rw [← hvalues]
      exact (h.rows old hold hold').later henqueued hmay
    · exact hnew
  published e he := by
    rcases hpublished e he with he | hnew
    · exact (h.published e he).later henqueued hmay
    · exact hnew
  jobs job hjob := by
    rcases hjobs job hjob with hjob | hnew
    · exact (h.jobs job hjob).later hmay
    · exact hnew

/-- More events in the outbox. -/
theorem Content.mono (h : Content cfg enqueued s)
    (henqueued : ∀ id event, enqueued id event → enqueued' id event) :
    Content cfg enqueued' s :=
  h.later henqueued (.refl s) (fun row hrow _ => .inl ⟨row, hrow, rfl⟩)
    (fun _ he => .inl he) fun _ hjob => .inl hjob

/-- An insert stores what was asked for, or what has no key. -/
theorem Content.inserts {values : NotificationValues} {drawn : Drawn}
    {r : Effects × Inserted} (h : Content cfg enqueued s)
    (hr : Effects.Inserts s values drawn r) (hkeyed : values.Keyed)
    (hvalues : values.eventKey ≠ none → AskedFor cfg enqueued s values) :
    Content cfg enqueued r.1 := by
  have hmay := hr.may hkeyed
  cases hr with
  | created hfree =>
      refine h.later (fun _ _ h => h) hmay ?_ (fun _ he => .inl he)
        fun _ hjob => .inl hjob
      intro row hrow hkey
      rcases List.mem_append.mp hrow with hrow | hrow
      · exact .inl ⟨row, hrow, rfl⟩
      · rw [List.mem_singleton] at hrow
        rw [hrow] at hkey ⊢
        exact .inr ((hvalues hkey).later (fun _ _ h => h) hmay)
  | conflict => exact h
  | violation => exact h

/-- A permitted access stores for its event only. -/
theorem Content.perform (h : Content cfg enqueued s)
    (hevent : enqueued eventId event) (drawn : Drawn) (o : HandlerOp)
    (hok : Ok cfg eventId event s o) :
    Content cfg enqueued (s.perform drawn o).1 := by
  have hmay := may_perform drawn o hok
  cases o with
  | insertNotification values =>
      obtain ⟨db, hdb, input, hinput, hvalues⟩ := hok
      refine h.inserts (s.inserts values drawn) ?_ fun _ => ?_
      · rw [hvalues]
        exact keyed_values cfg event input
      · exact ⟨eventId, event, hevent, db, hdb, input, hinput, hvalues⟩
  | publish e =>
      refine h.later (fun _ _ h => h) hmay
        (fun row hrow _ => .inl ⟨row, hrow, rfl⟩) ?_ fun _ hjob => .inl hjob
      intro e' he'
      rcases List.mem_append.mp he' with he' | he'
      · exact .inl he'
      · rw [List.mem_singleton] at he'
        rw [he']
        refine .inr ?_
        cases e with
        | user userId e id =>
            cases e with
            | notification row => exact ⟨hok.1, hok.2.1, hok.2.2.later hmay⟩
            | order => trivial
            | disputeResolved => trivial
        | conversation conversationId e id =>
            cases e with
            | message => exact hok
            | moderated => exact ⟨eventId, event, hevent, hok⟩
        | userBanned => exact ⟨eventId, event, hevent, hok⟩
  | enqueueJob job =>
      refine h.later (fun _ _ h => h) hmay ?_ ?_ ?_
      · intro row hrow _
        change row ∈ (s.enqueueJob job drawn).1.notifications.rows at hrow
        unfold Effects.enqueueJob at hrow
        split at hrow <;> exact .inl ⟨row, hrow, rfl⟩
      · intro e he
        change e ∈ (s.enqueueJob job drawn).1.published at he
        unfold Effects.enqueueJob at he
        split at he <;> exact .inl he
      · intro job' hjob'
        have hnew : job.Sound cfg (s.enqueueJob job drawn).1 :=
          DeliveryJob.Sound.later hmay hok
        change job' ∈ (s.enqueueJob job drawn).1.jobs at hjob'
        unfold Effects.enqueueJob at hjob'
        split at hjob'
        · rcases List.mem_append.mp hjob' with hjob' | hjob'
          · exact .inl hjob'
          · rw [List.mem_singleton] at hjob'
            rw [hjob']
            exact .inr hnew
        · exact .inl hjob'
  | _ => exact h

/-- Others store no keyed notification. -/
theorem Content.others (h : Content cfg enqueued s) (d : OthersDo) :
    Content cfg enqueued (s.others d) := by
  have hmay := may_others s d
  cases d with
  | write tables =>
      exact h.later (fun _ _ h => h) hmay
        (fun row hrow _ => .inl ⟨row, hrow, rfl⟩) (fun _ he => .inl he)
        fun _ hjob => .inl hjob
  | notify values drawn =>
      refine h.inserts (s.inserts _ drawn) ?_ fun hkey => absurd rfl hkey
      intro key hkey
      cases hkey
  | markRead userId id now =>
      refine h.later (fun _ _ h => h) hmay ?_ (fun _ he => .inl he)
        fun _ hjob => .inl hjob
      intro row hrow _
      obtain ⟨old, hold, heq⟩ := List.mem_map.mp hrow
      refine .inl ⟨old, hold, ?_⟩
      rw [← heq]
      exact (Notifications.values_readRow userId id now old).symm

end Content

-- ========================================================== the invariant

section Invariant

variable {cfg : HandlerConfig} {maxAttempts : Nat} {s : HandlerSystem}

/-- What an execution is owed. -/
def Owed (cfg : HandlerConfig) (s : Effects) (x : Execution) : Prop :=
  At May (Ok cfg x.event.id x.event.event) Does s x.program
    (Handled cfg x.since x.event.event)

/-- What holds at all times: executions are owed what their handlers lead
to. -/
structure Sound (cfg : HandlerConfig) (maxAttempts : Nat) (s : HandlerSystem) :
    Prop where
  inv : OutboxInv maxAttempts s.outbox
  distinct : s.outbox.table.Distinct DomainEvent.eventKey
  keyed : AllKeyed s.effects
  content : Content cfg s.Enqueued s.effects
  owed : ∀ x ∈ s.executions, Owed cfg s.effects x
  enqueued : ∀ x ∈ s.executions, s.Enqueued x.event.id x.event.event
  returned : ∀ id ∈ s.outbox.returned,
    ∃ x ∈ s.executions, x.event.id = id ∧ x.program = .done

/-- Before any event there is no execution. -/
theorem start_sound (tables : HandlerTables) :
    Sound cfg maxAttempts (.start tables) where
  inv := .start
  distinct _ hr := absurd hr List.not_mem_nil
  keyed _ hrow := absurd hrow List.not_mem_nil
  content :=
    { rows := fun _ h => absurd h List.not_mem_nil
      published := fun _ h => absurd h List.not_mem_nil
      jobs := fun _ h => absurd h List.not_mem_nil }
  owed _ hx := absurd hx List.not_mem_nil
  enqueued _ hx := absurd hx List.not_mem_nil
  returned _ hid := absurd hid List.not_mem_nil

/-- An event stays in the outbox. -/
theorem Sound.enqueued_step (h : Sound cfg maxAttempts s)
    (e : OutboxStep DomainEvent) {id : Uuid} {event : DomainEvent}
    (hevent : s.Enqueued id event) :
    ∃ r ∈ (s.outboxStep maxAttempts e).table.rows, r.id = id ∧ r.event = event := by
  obtain ⟨r, hr, hid, hevent⟩ := hevent
  obtain ⟨r', hr', hrow⟩ := OutboxSystem.row_step DomainEvent.eventKey e
    h.inv.named (Table.find?_of_mem hr)
  exact ⟨r', Table.mem_of_find? hr', hrow.kept.1.trans hid,
    hrow.kept.2.trans hevent⟩

/-- A step of the outbox, with the executions it begins. -/
theorem Sound.outboxStep (h : Sound cfg maxAttempts s) (hmax : 0 < maxAttempts)
    (e : OutboxStep DomainEvent) (begun : List Execution)
    (howed : ∀ x ∈ begun, Owed cfg s.effects x)
    (henqueued : ∀ x ∈ begun, ∃ r ∈ (s.outboxStep maxAttempts e).table.rows,
      r.id = x.event.id ∧ r.event = x.event.event)
    (hreturned : ∀ worker id, e = .handlerReturns worker id →
      ∃ x ∈ s.executions, x.event.id = id ∧ x.program = .done) :
    Sound cfg maxAttempts
      { s with
        outbox := s.outboxStep maxAttempts e
        executions := begun ++ s.executions } where
  inv := h.inv.step hmax e
  distinct := h.inv.distinct_step e h.distinct
  keyed := h.keyed
  content := h.content.mono fun _ _ => h.enqueued_step e
  owed x hx := by
    rcases List.mem_append.mp hx with hx | hx
    · exact howed x hx
    · exact h.owed x hx
  enqueued x hx := by
    rcases List.mem_append.mp hx with hx | hx
    · exact henqueued x hx
    · exact h.enqueued_step e (h.enqueued x hx)
  returned id hid := by
    have hold : ∃ x ∈ s.executions, x.event.id = id ∧ x.program = .done := by
      rcases OutboxSystem.returned_new e hid with hid | ⟨worker, he⟩
      · exact h.returned id hid
      · exact hreturned worker id he
    obtain ⟨x, hx, hdone⟩ := hold
    exact ⟨x, List.mem_append_right _ hx, hdone⟩

/-- A claim begins executions of rows of its table. -/
theorem Sound.claim (h : Sound cfg maxAttempts s) (hmax : 0 < maxAttempts)
    (c : ClaimInput) (fault : Option Fault) :
    Sound cfg maxAttempts (s.step cfg maxAttempts (.outbox (.claim c fault))) := by
  refine h.outboxStep hmax (.claim c fault) _ ?_ ?_
    (fun _ _ he => by cases he)
  · intro x hx
    obtain ⟨r, -, heq⟩ := List.mem_map.mp hx
    rw [← heq]
    exact at_of_leads (leads_handleDomainEvent r.id r.event) stable_begun
      ⟨h.keyed, List.suffix_rfl⟩
  · intro x hx
    obtain ⟨r, hr, heq⟩ := List.mem_map.mp hx
    rw [← heq]
    unfold HandlerSystem.received at hr
    dsimp only at hr
    split at hr
    · next hreceived =>
      have htable : (s.outboxStep maxAttempts (.claim c fault)).table
          = (s.outbox.table.claimOutboxBatch maxAttempts c).2 := by
        show (s.outbox.claim maxAttempts c fault).table = _
        unfold OutboxSystem.claim
        dsimp only
        rw [hreceived.1, if_neg fun hidle => ?_, if_neg fun hlost => ?_]
        · rfl
        · cases hlost
        · rcases hidle with hidle | hidle
          · cases hidle
          · exact hidle hreceived.2
      rw [htable]
      exact ⟨r, Table.mem_of_find? (DomainOutbox.find?_of_claimed hr), rfl, rfl⟩
    · exact absurd hr List.not_mem_nil

/-- An access of an execution keeps all of it: what the handler does is
permitted by its own program (`At`), and what it does is recorded with the
event it is for. -/
theorem Sound.proceed (h : Sound cfg maxAttempts s) {n : Nat} {x : Execution}
    (hn : s.executions[n]? = some x) (path : List Bool) (drawn : Drawn)
    (broken : Option Break) :
    Sound cfg maxAttempts (s.proceed n x path drawn broken) := by
  have hx : x ∈ s.executions := List.mem_of_getElem? hn
  have howed := h.owed x hx
  -- All that the step does is permitted to the execution.
  have hmay : May s.effects (s.proceed n x path drawn broken).effects :=
    howed.performs (fun s' o => Effects.perform s' drawn o) (.refl s.effects)
      (fun o hok => may_perform drawn o hok) path broken
  have hcontent : Content cfg s.Enqueued
      (s.proceed n x path drawn broken).effects :=
    howed.performs (fun s' o => Effects.perform s' drawn o)
      (T := Content cfg s.Enqueued) h.content
      (fun o hok => h.content.perform (h.enqueued x hx) drawn o hok) path broken
  refine
    { inv := h.inv
      distinct := h.distinct
      keyed := hmay.keyed h.keyed
      content := hcontent
      owed := ?_
      enqueued := ?_
      returned := ?_ }
  · intro y hy
    rcases List.mem_or_eq_of_mem_set hy with hy | heq
    · exact (h.owed y hy).others stable_handled hmay
    · rw [heq]
      exact howed.advance (fun s' o => Effects.perform s' drawn o) May.refl
        (fun _ _ _ _ hok hdoes => may_of_does hok hdoes)
        (fun o => ⟨drawn, rfl⟩) path broken
  · intro y hy
    rcases List.mem_or_eq_of_mem_set hy with hy | heq
    · exact h.enqueued y hy
    · rw [heq]
      exact h.enqueued x hx
  · intro id hid
    obtain ⟨y, hy, hyid, hdone⟩ := h.returned id hid
    obtain ⟨m, hm⟩ := List.mem_iff_getElem?.mp hy
    by_cases hmn : m = n
    · -- An execution that has ended stays as it is.
      rw [hmn, hn] at hm
      cases hm
      refine ⟨{ x with program := (advance (fun s o => s.perform drawn o)
        s.effects x.program path broken).2 },
        List.mem_set (List.getElem?_eq_some_iff.mp hn).1 _, hyid, ?_⟩
      show (advance _ s.effects x.program path broken).2 = .done
      rw [hdone]
      rfl
    · refine ⟨y, ?_, hyid, hdone⟩
      refine List.mem_of_getElem? (i := m) ?_
      show (s.executions.set n _)[m]? = some y
      rw [List.getElem?_set_ne (Ne.symm hmn)]
      exact hm

/-- So does every event. -/
theorem Sound.step (h : Sound cfg maxAttempts s) (hmax : 0 < maxAttempts)
    (e : HandlerEvent) : Sound cfg maxAttempts (s.step cfg maxAttempts e) := by
  have hplain : ∀ e : OutboxStep DomainEvent,
      (∀ worker id, e = .handlerReturns worker id →
        ∃ x ∈ s.executions, x.event.id = id ∧ x.program = .done) →
      Sound cfg maxAttempts { s with outbox := s.outboxStep maxAttempts e } :=
    fun e he => h.outboxStep hmax e []
      (fun _ hx => absurd hx List.not_mem_nil)
      (fun _ hx => absurd hx List.not_mem_nil) he
  cases e with
  | outbox e =>
      cases e with
      | claim c fault => exact h.claim hmax c fault
      | handlerReturns worker id =>
          show Sound cfg maxAttempts (if s.Returns worker id then _ else s)
          split
          · next hreturns =>
            refine hplain _ fun worker' id' heq => ?_
            cases heq
            unfold HandlerSystem.Returns at hreturns
            obtain ⟨x, hx, hended⟩ := Option.any_eq_true _ _ |>.mp hreturns
            refine ⟨x, List.mem_of_find?_eq_some hx, ?_, Prog.ended_iff.mp hended⟩
            have hcurrent := List.find?_some hx
            rw [decide_eq_true_eq] at hcurrent
            exact hcurrent.2
          · exact h
      | enqueue id event now => exact hplain _ fun _ _ he => by cases he
      | handlerThrows worker id error => exact hplain _ fun _ _ he => by cases he
      | heartbeat worker id now => exact hplain _ fun _ _ he => by cases he
      | markProcessed worker id now fault =>
          exact hplain _ fun _ _ he => by cases he
      | markFailed worker id backoff now fault =>
          exact hplain _ fun _ _ he => by cases he
      | retry eventIds limit now locked =>
          exact hplain _ fun _ _ he => by cases he
  | proceed n path drawn broken =>
      show Sound cfg maxAttempts (match s.executions[n]? with
        | some x => s.proceed n x path drawn broken
        | none => s)
      split
      · next hn => exact h.proceed hn path drawn broken
      · exact h
  | others d =>
      have hmay := may_others s.effects d
      exact
        { inv := h.inv
          distinct := h.distinct
          keyed := hmay.keyed h.keyed
          content := h.content.others d
          owed := fun x hx => (h.owed x hx).others stable_handled hmay
          enqueued := h.enqueued
          returned := h.returned }

/-- All of it holds in every run. -/
theorem play_sound (hmax : 0 < maxAttempts) (tables : HandlerTables)
    (events : List HandlerEvent) :
    Sound cfg maxAttempts (.play cfg maxAttempts tables events) :=
  run_keeps (fun _ e hs => hs.step hmax e) (start_sound tables) events

end Invariant

-- ============================================================ in every run

/-- A notification that an event asks for is there, once, and delivered. -/
structure ToldOnce (cfg : HandlerConfig) (s : Effects) (event : DomainEvent)
    (input : NotificationInput) : Prop where
  stored : ∃ row,
    (s.notifications.rows.filter fun r => r.eventKey = some (keyOf event input))
      = [row]
    ∧ row.values.userId = input.userId ∧ row.values.type = input.type.text
    ∧ (∃ db ∈ s.seen, ∃ input' ∈ intended cfg db event,
      row.values = input'.values cfg (keyOf event input))
    ∧ ∃ shown : NotificationRow, shown.id = row.id ∧ shown.values = row.values
      ∧ .user input.userId (.notification shown) (some row.id) ∈ s.published
  queued : deliveryJob cfg input (keyOf event input) ∈ s.jobs

/-- A processed event has told each of its recipients once. -/
theorem Sound.toldOnce {cfg : HandlerConfig} {maxAttempts : Nat}
    {s : HandlerSystem} (h : Sound cfg maxAttempts s)
    {r : DomainOutboxEvent DomainEvent} (hr : r ∈ s.outbox.table.rows)
    {input : NotificationInput} (htold : Notified cfg r.event input s.effects) :
    ToldOnce cfg s.effects r.event input := by
  obtain ⟨row, hrow, hkey, hshown, hjob⟩ := htold
  obtain ⟨huser, htype⟩ := (h.keyed row hrow).same hkey
  refine ⟨⟨row, s.effects.notifications.filter_eventKey hrow hkey, huser, htype,
    ?_, hshown⟩, hjob⟩
  -- The row was asked for under its key, so by this event.
  obtain ⟨id, event, ⟨r', hr', -, hevent⟩, db, hdb, input', hinput', hvalues⟩ :=
    h.content.rows row hrow (by rw [hkey]; exact Option.some_ne_none _)
  have heq : keyOf event input' = keyOf r.event input := by
    unfold NotificationRow.eventKey at hkey
    rw [hvalues] at hkey
    exact Option.some.inj hkey
  have hsame : r' = r := by
    refine h.distinct r' hr' r hr ?_
    rw [hevent]
    exact (keyOf_inj heq).1
  rw [heq] at hvalues
  rw [← hevent, hsame] at hinput'
  exact ⟨db, hdb, input', hinput', hvalues⟩

/-- However often an event was handled before and beside, once it is
processed its notifications are there, each once. The run of the handler that
the mark followed made all of them, and every other run found them made, by
the unique key of the event. -/
theorem processed_told_once (cfg : HandlerConfig) {maxAttempts : Nat}
    (hmax : 0 < maxAttempts) (tables : HandlerTables)
    (events : List HandlerEvent) {r : DomainOutboxEvent DomainEvent}
    (hr : r ∈ (HandlerSystem.play cfg maxAttempts tables
      events).outbox.table.rows) (hs : r.status = .processed) :
    ∃ x ∈ (HandlerSystem.play cfg maxAttempts tables events).executions,
      x.event.id = r.id
      ∧ ∃ db, Since x.since db
          (HandlerSystem.play cfg maxAttempts tables events).effects
        ∧ ∀ input ∈ intended cfg db r.event,
          ToldOnce cfg (HandlerSystem.play cfg maxAttempts tables events).effects
            r.event input := by
  have h : Sound cfg maxAttempts
      (HandlerSystem.play cfg maxAttempts tables events) :=
    play_sound hmax tables events
  have hreturned := h.inv.processed (Table.find?_of_mem hr) hs
  obtain ⟨x, hx, hid, hdone⟩ := h.returned r.id hreturned
  -- An execution that has ended is owed what it leads to.
  have howed := h.owed x hx
  unfold Owed at howed
  rw [hdone] at howed
  obtain ⟨db, hdb, hall⟩ := howed
  obtain ⟨r', hr', hid', hevent⟩ := h.enqueued x hx
  have hsame : r' = r := Table.eq_of_key_eq hr' hr (hid'.trans hid)
  rw [hsame] at hevent
  refine ⟨x, hx, hid, db, hdb, fun input hinput => h.toldOnce hr ?_⟩
  rw [hevent] at hinput ⊢
  exact hall input hinput

/-- The services as they answer for the run below. -/
def warnedServices : HandlerConfig where
  t key _ :=
    if key = "notifications.accountWarned.title" then
      "Попередження від модератора"
    else key
  sha256 _ :=
    "656acff8136002457c703308af1e91fc43c3f84ea930a5e25f2a86ba979043cd"
  toISOString text := text

/-- Tables without rows. -/
def noTables : HandlerTables where
  users := .empty
  conversations := .empty
  messages := .empty
  products := .empty

/-- A worker loses its connection after the notification is published, and
another one handles the event again. -/
def warnedTwice : List HandlerEvent := [
  .outbox (.enqueue ⟨1⟩
    ⟨"user.warned:" ++ Uuid.text ⟨9⟩, .userWarned ⟨⟨7⟩, "spam"⟩⟩ 0),
  .outbox (.claim ⟨"A", 1, 100, 0, []⟩ none),
  .proceed 0 [] ⟨⟨100⟩, 1, true⟩ none,
  .proceed 0 [] ⟨⟨0⟩, 1, true⟩ (some .replyLost),
  .outbox (.claim ⟨"B", 1, 100, 1000, []⟩ none),
  .proceed 0 [] ⟨⟨101⟩, 1001, true⟩ none,
  .proceed 0 [] ⟨⟨0⟩, 1001, true⟩ none,
  .proceed 0 [] ⟨⟨0⟩, 1001, true⟩ none,
  .proceed 0 [] ⟨⟨0⟩, 1001, true⟩ none,
  .outbox (.handlerReturns "B" ⟨1⟩),
  .outbox (.markProcessed "B" ⟨1⟩ 1002 none)]

/-- A warning is handled twice, and its user told once. -/
theorem processed_told_once_warnedTwice :
    ∃ r ∈ (HandlerSystem.play warnedServices 3 noTables
      warnedTwice).outbox.table.rows, r.status = .processed
    ∧ ∃ x ∈ (HandlerSystem.play warnedServices 3 noTables
        warnedTwice).executions,
      x.event.id = r.id
      ∧ ∃ db, Since x.since db
          (HandlerSystem.play warnedServices 3 noTables warnedTwice).effects
        ∧ ∀ input ∈ intended warnedServices db r.event,
          ToldOnce warnedServices
            (HandlerSystem.play warnedServices 3 noTables warnedTwice).effects
            r.event input := by
  have hprocessed : ((HandlerSystem.play warnedServices 3 noTables
      warnedTwice).outbox.table.find? ⟨1⟩).map DomainOutboxEvent.status
      = some .processed := by
    decide +kernel
  obtain ⟨r, hfind, hs⟩ := Option.map_eq_some_iff.mp hprocessed
  have hr := Table.mem_of_find? hfind
  exact ⟨r, hr, hs, processed_told_once warnedServices (by decide) noTables
    warnedTwice hr hs⟩

/-- What is stored, published and queued in a state. -/
structure PublishedOnce (cfg : HandlerConfig) (s : HandlerSystem) : Prop where
  asked : ∀ row ∈ s.effects.notifications.rows, row.eventKey ≠ none →
    ∃ r ∈ s.outbox.table.rows, ∃ db ∈ s.effects.seen,
      ∃ input ∈ intended cfg db r.event,
        row.values = input.values cfg (keyOf r.event input)
  once : ∀ u row id u' row' id',
    .user u (.notification row) id ∈ s.effects.published →
    .user u' (.notification row') id' ∈ s.effects.published →
    row.eventKey ≠ none → row.eventKey = row'.eventKey →
    u = u' ∧ id = id' ∧ row.values = row'.values
  messages : ∀ c message id,
    .conversation c (.message message) id ∈ s.effects.published →
    id = none ∨ id = some message.id
  moderated : ∀ c messageId c' hidden id,
    .conversation c (.moderated messageId c' hidden) id ∈ s.effects.published →
    ∃ r ∈ s.outbox.table.rows, id = some r.id
      ∧ ∃ payload, r.event.payload = .messageModerated payload
        ∧ payload.messageId = messageId
  banned : ∀ u id, .userBanned u id ∈ s.effects.published →
    ∃ r ∈ s.outbox.table.rows, id = some r.id ∧ r.event.payload = .userBanned u
  queued : ∀ job ∈ s.effects.jobs, ∃ row ∈ s.effects.notifications.rows,
    ∃ key, row.eventKey = some key ∧ job.jobId = deliveryJobId cfg key
      ∧ job.userId = row.values.userId
      ∧ job.notificationType.text = row.values.type

/-- In every run handlers store, publish and queue nothing but what an event
of the outbox asks for, and repeat it under the same id. So whoever receives
a repeated effect can tell that it is one. -/
theorem published_once (cfg : HandlerConfig) {maxAttempts : Nat}
    (hmax : 0 < maxAttempts) (tables : HandlerTables)
    (events : List HandlerEvent) :
    PublishedOnce cfg (HandlerSystem.play cfg maxAttempts tables events) := by
  have h : Sound cfg maxAttempts
      (HandlerSystem.play cfg maxAttempts tables events) :=
    play_sound hmax tables events
  refine ⟨?_, ?_, ?_, ?_, ?_, h.content.jobs⟩
  · intro row hrow hkey
    obtain ⟨id, event, ⟨r, hr, -, hevent⟩, hasked⟩ :=
      h.content.rows row hrow hkey
    rw [← hevent] at hasked
    exact ⟨r, hr, hasked⟩
  · intro u row id u' row' id' he he' hkey heq
    obtain ⟨hid, hu, stored, hstored, hsid, hsvalues⟩ := h.content.published _ he
    obtain ⟨hid', hu', stored', hstored', hsid', hsvalues'⟩ :=
      h.content.published _ he'
    obtain ⟨key, hkey⟩ := Option.ne_none_iff_exists'.mp hkey
    have hsame : stored = stored' := by
      refine Notifications.eq_of_eventKey _ hstored hstored' (?_ : _ = some key)
        ?_
      · unfold NotificationRow.eventKey
        rw [hsvalues]
        exact hkey
      · unfold NotificationRow.eventKey
        rw [hsvalues']
        exact heq.symm.trans hkey
    have hvalues : row.values = row'.values := by
      rw [← hsvalues, ← hsvalues', hsame]
    refine ⟨?_, ?_, hvalues⟩
    · rw [hu, hu', hvalues]
    · rw [hid, hid', ← hsid, ← hsid', hsame]
  · intro c message id he
    exact h.content.published _ he
  · intro c messageId c' hidden id he
    obtain ⟨eventId, event, ⟨r, hr, hrid, hevent⟩, hid, hpayload⟩ :=
      h.content.published _ he
    rw [← hevent] at hpayload
    exact ⟨r, hr, hid.trans (congrArg some hrid.symm), hpayload⟩
  · intro u id he
    obtain ⟨eventId, event, ⟨r, hr, hrid, hevent⟩, hid, hpayload⟩ :=
      h.content.published _ he
    rw [← hevent] at hpayload
    exact ⟨r, hr, hid.trans (congrArg some hrid.symm), hpayload⟩

/-- And published once. -/
theorem published_once_warnedTwice : PublishedOnce warnedServices
    (HandlerSystem.play warnedServices 3 noTables warnedTwice) :=
  published_once warnedServices (by decide) noTables warnedTwice

end OutboxHandlers

end Skrynia
