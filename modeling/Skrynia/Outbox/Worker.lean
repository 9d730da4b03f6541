/-
The outbox: a queue in a table, and the workers that empty it.

Producers insert rows, workers claim a batch, run a handler on each event
and mark it processed or failed. A claim is a lease: the row names its
worker and the time, heartbeats renew the time, and a row whose lease
ran out may be claimed by another worker while the first one still runs
its handler.

# The system

Any number of workers, told apart by their ids. A step is one statement
or transaction, or the end of one handler; a worker that crashes or
stalls is one that the schedule does not name (again). Each statement
brings the time the database gives it, so nothing is assumed about
clocks, and an answer may be lost after the statement took effect.

# History variable

`returned` has the id of every event of which a handler invocation ended
normally. No step reads it.
-/
import Mathlib.Data.List.Sort
import Mathlib.Data.Prod.Lex
import Skrynia.Common.Text
import Skrynia.Db.Schema
import Skrynia.Lib.Runs

namespace Skrynia

open Relational Stepping

-- ================================================================= rows

/-- `domain_outbox.status`. -/
inductive DomainOutboxStatus where
  | pending
  | processing
  | processed
  | failed
deriving DecidableEq

/-- A row of `domain_outbox`; `event` stands for what its producer
inserted. -/
structure DomainOutboxEvent (E : Type) where
  id : Uuid
  event : E
  status : DomainOutboxStatus
  attempts : Nat
  availableAt : Timestamp
  lockedAt : Option Timestamp
  lockedBy : Option String
  processedAt : Option Timestamp
  lastError : Option String
  createdAt : Timestamp
  updatedAt : Timestamp

/-- The table, by its ids. -/
abbrev DomainOutbox (E : Type) := Table (DomainOutboxEvent.id (E := E))

/-- `LAST_ERROR_MAX_LENGTH` of the worker. -/
def outboxErrorMaxLength : Nat := 2000

/-- `MAX_BACKOFF_MS`. -/
def maxBackoffMs : Nat := 24 * 60 * 60 * 1000

/-- `errorMessage`. -/
def outboxErrorMessage (message : String) : String :=
  jsSlice outboxErrorMaxLength message

/-- The delay before the next attempt: doubled each time, with a bound. -/
def backoffMs (attempts baseBackoffMs : Nat) : Nat :=
  min (baseBackoffMs * 2 ^ (attempts - 1)) maxBackoffMs

variable {E : Type}

namespace DomainOutboxEvent

variable (r : DomainOutboxEvent E)

/-- A row as the insert leaves it. -/
def enqueued (id : Uuid) (event : E) (now : Timestamp) :
    DomainOutboxEvent E where
  id := id
  event := event
  status := .pending
  attempts := 0
  availableAt := now
  lockedAt := none
  lockedBy := none
  processedAt := none
  lastError := none
  createdAt := now
  updatedAt := now

/-- `domain_outbox_lock_bundle_check`. -/
def LockBundle : Prop :=
  r.status = .processing ∧ r.lockedAt.isSome ∧ r.lockedBy.isSome
    ∨ r.status ≠ .processing ∧ r.lockedAt = none ∧ r.lockedBy = none

/-- `domain_outbox_processed_bundle_check`. -/
def ProcessedBundle : Prop :=
  r.status = .processed ∧ r.processedAt.isSome
    ∨ r.status ≠ .processed ∧ r.processedAt = none

/-- `locked_at < now() - lockTimeoutMs`. -/
def LockExpired (lockTimeoutMs : Nat) (now : Timestamp) : Prop :=
  match r.lockedAt with
  | some t => t + lockTimeoutMs < now
  | none => False

instance (lockTimeoutMs : Nat) (now : Timestamp) :
    Decidable (r.LockExpired lockTimeoutMs now) := by
  unfold LockExpired
  cases r.lockedAt with
  | none => exact instDecidableFalse
  | some t => exact inferInstanceAs (Decidable (t + lockTimeoutMs < now))

/-- The worker's claim on the row is in force. -/
def HeldBy (worker : String) : Prop :=
  r.status = .processing ∧ r.lockedBy = some worker

instance (worker : String) : Decidable (r.HeldBy worker) :=
  inferInstanceAs (Decidable (_ ∧ _))

/-- What the SELECT of a claim selects. -/
def Claimable (maxAttempts lockTimeoutMs : Nat) (now : Timestamp) : Prop :=
  r.attempts < maxAttempts
    ∧ (r.status = .pending ∧ r.availableAt ≤ now
      ∨ r.status = .processing ∧ r.LockExpired lockTimeoutMs now)

instance (maxAttempts lockTimeoutMs : Nat) (now : Timestamp) :
    Decidable (r.Claimable maxAttempts lockTimeoutMs now) :=
  inferInstanceAs (Decidable (_ ∧ (_ ∨ _)))

/-- What the first UPDATE of a claim gives up. -/
def Exhausted (maxAttempts lockTimeoutMs : Nat) (now : Timestamp) : Prop :=
  r.status = .processing ∧ r.LockExpired lockTimeoutMs now
    ∧ maxAttempts ≤ r.attempts

instance (maxAttempts lockTimeoutMs : Nat) (now : Timestamp) :
    Decidable (r.Exhausted maxAttempts lockTimeoutMs now) :=
  inferInstanceAs (Decidable (_ ∧ _ ∧ _))

-- ------------------------------------------------------------ the updates

/-- The row of an exhausted claim, after the update that gives it up. -/
def givenUp (now : Timestamp) : DomainOutboxEvent E :=
  { r with
    status := .failed
    lockedAt := none
    lockedBy := none
    lastError := r.lastError.or
      (some "Worker lock expired after maximum attempts")
    updatedAt := now }

/-- The row after a claim. -/
def claimedBy (worker : String) (now : Timestamp) : DomainOutboxEvent E :=
  { r with
    status := .processing
    attempts := r.attempts + 1
    lockedAt := some now
    lockedBy := some worker
    processedAt := none
    updatedAt := now }

/-- The row after a heartbeat. -/
def renewed (now : Timestamp) : DomainOutboxEvent E :=
  { r with
    lockedAt := some now
    updatedAt := now }

/-- The row when its event was handled. -/
def done (now : Timestamp) : DomainOutboxEvent E :=
  { r with
    status := .processed
    lockedAt := none
    lockedBy := none
    processedAt := some now
    lastError := none
    updatedAt := now }

/-- After a failed attempt: given up, or available after a delay. -/
def attemptFailed (terminal : Bool) (delay : Nat) (error : String)
    (now : Timestamp) : DomainOutboxEvent E :=
  { r with
    status := if terminal then .failed else .pending
    availableAt := if terminal then r.availableAt else now + delay
    lockedAt := none
    lockedBy := none
    processedAt := none
    lastError := some (outboxErrorMessage error)
    updatedAt := now }

/-- The row when somebody asks for it again. -/
def retried (now : Timestamp) : DomainOutboxEvent E :=
  { r with
    status := .pending
    attempts := 0
    availableAt := now
    lockedAt := none
    lockedBy := none
    processedAt := none
    lastError := none
    updatedAt := now }

-- An update keeps the row's id.

/-- Giving up changes no id. -/
theorem id_givenUp (now : Timestamp) : (r.givenUp now).id = r.id := rfl

/-- Nor does a claim. -/
theorem id_claimedBy (worker : String) (now : Timestamp) :
    (r.claimedBy worker now).id = r.id := rfl

/-- Nor a heartbeat. -/
theorem id_renewed (now : Timestamp) : (r.renewed now).id = r.id := rfl

/-- Nor a mark. -/
theorem id_done (now : Timestamp) : (r.done now).id = r.id := rfl

/-- Nor a failed attempt. -/
theorem id_attemptFailed (terminal : Bool) (delay : Nat) (error : String)
    (now : Timestamp) :
    (r.attemptFailed terminal delay error now).id = r.id := rfl

/-- Nor a retry. -/
theorem id_retried (now : Timestamp) : (r.retried now).id = r.id := rfl

/-- `order by created_at, id`. -/
def age : Nat ×ₗ Nat := toLex (r.createdAt, r.id.bits.toNat)

/-- `order by available_at, created_at, id`. -/
def turn : Nat ×ₗ Nat ×ₗ Nat := toLex (r.availableAt, r.age)

/-- The order in which exhausted rows are given up. -/
def Older (r r' : DomainOutboxEvent E) : Prop := r.age ≤ r'.age

/-- The order in which rows are claimed. -/
def Before (r r' : DomainOutboxEvent E) : Prop := r.turn ≤ r'.turn

instance : DecidableRel (Older (E := E)) := fun r r' =>
  inferInstanceAs (Decidable (r.age ≤ r'.age))

instance : DecidableRel (Before (E := E)) := fun r r' =>
  inferInstanceAs (Decidable (r.turn ≤ r'.turn))

end DomainOutboxEvent

-- =========================================================== statements

/-- The input of `claimOutboxBatch` but for the attempts; `now` is the
database's time, and `locked` are the rows that other transactions hold
locks on at the time. -/
structure ClaimInput where
  workerId : String
  batchSize : Nat
  lockTimeoutMs : Nat
  now : Timestamp
  locked : List Uuid

namespace DomainOutbox

variable (t : DomainOutbox E)

/-- `enqueueDomainEvent`: insert, on conflict of the event key do nothing. -/
def enqueueDomainEvent (eventKey : E → String) (id : Uuid) (event : E)
    (now : Timestamp) : DomainOutbox E :=
  if t.rows.any fun r => eventKey r.event = eventKey event then t
  else t.upsert (.enqueued id event now)

/-- The first UPDATE of a claim. -/
def giveUp (maxAttempts : Nat) (c : ClaimInput) : DomainOutbox E :=
  t.update (fun r => r.Exhausted maxAttempts c.lockTimeoutMs c.now)
    (fun r => r.givenUp c.now) fun r => r.id_givenUp c.now

/-- The rows that a claim takes, `for update skip locked`. -/
def candidates (maxAttempts : Nat) (c : ClaimInput) :
    List (DomainOutboxEvent E) :=
  ((t.rows.filter fun r => r.Claimable maxAttempts c.lockTimeoutMs c.now
    ∧ r.id ∉ c.locked).insertionSort DomainOutboxEvent.Before).take c.batchSize

/-- The rows that a claim returns, and the table it leaves. -/
def claimOutboxBatch (maxAttempts : Nat) (c : ClaimInput) :
    List (DomainOutboxEvent E) × DomainOutbox E :=
  let kept := t.giveUp maxAttempts c
  let taken := kept.candidates maxAttempts c
  (taken.map fun r => r.claimedBy c.workerId c.now,
    kept.update (fun r => r.id ∈ taken.map DomainOutboxEvent.id)
      (fun r => r.claimedBy c.workerId c.now)
      fun r => r.id_claimedBy c.workerId c.now)

/-- An UPDATE of one row that the worker holds. -/
def updateHeld (worker : String) (id : Uuid)
    (f : DomainOutboxEvent E → DomainOutboxEvent E)
    (hf : ∀ r, (f r).id = r.id) : DomainOutbox E :=
  t.update (fun r => r.id = id ∧ r.HeldBy worker) f hf

/-- `rowCount = 1` of such an UPDATE. -/
def Holds (worker : String) (id : Uuid) : Prop :=
  (t.find? id).any fun r => r.HeldBy worker

instance (worker : String) (id : Uuid) : Decidable (t.Holds worker id) :=
  inferInstanceAs (Decidable (_ = true))

/-- `heartbeatEvent`: of a row that the worker holds. -/
def heartbeatEvent (worker : String) (id : Uuid) (now : Timestamp) :
    DomainOutbox E :=
  t.updateHeld worker id (fun r => r.renewed now) fun r => r.id_renewed now

/-- `markProcessed`: of a row that the worker holds. -/
def markProcessed (worker : String) (id : Uuid) (now : Timestamp) :
    DomainOutbox E :=
  t.updateHeld worker id (fun r => r.done now) fun r => r.id_done now

/-- `event` is the row as the claim returned it. -/
def markFailed (worker : String) (event : DomainOutboxEvent E)
    (error : String) (maxAttempts baseBackoffMs : Nat) (now : Timestamp) :
    DomainOutbox E :=
  t.updateHeld worker event.id
    (fun r => r.attemptFailed (decide (maxAttempts ≤ event.attempts))
      (backoffMs event.attempts baseBackoffMs) error now)
    fun r => r.id_attemptFailed _ _ _ _

/-- The rows that `retryFailedOutboxEvents` takes. -/
def failures (eventIds : Option (List Uuid)) (limit : Option Nat)
    (locked : List Uuid) : List (DomainOutboxEvent E) :=
  ((t.rows.filter fun r => r.status = .failed
    ∧ (∀ ids ∈ eventIds, ids = [] ∨ r.id ∈ ids)
    ∧ r.id ∉ locked).insertionSort DomainOutboxEvent.Older).take
      (min (max (limit.getD 100) 1) 500)

/-- `retryFailedOutboxEvents`. -/
def retryFailedOutboxEvents (eventIds : Option (List Uuid))
    (limit : Option Nat) (now : Timestamp) (locked : List Uuid) :
    DomainOutbox E :=
  t.update
    (fun r => r.id ∈ (t.failures eventIds limit locked).map
      DomainOutboxEvent.id)
    (fun r => r.retried now) fun r => r.id_retried now

-- ------------------------------------------------------ the producers' view

/-- The events of the outbox in a table of their keys, as the producers'
transactions see it. -/
def Shows {eventKey : E → String} (events : Table eventKey) : Prop :=
  events.rows = t.rows.map DomainOutboxEvent.event

/-- For a producer the insert is `upsert` on the events' keys: either adds
the event unless its key is taken. -/
theorem Shows.enqueueDomainEvent {t : DomainOutbox E}
    {eventKey : E → String} {events : Table eventKey} (h : t.Shows events) {id : Uuid} {event : E}
    (now : Timestamp) (hid : ¬ t.Has id) :
    (t.enqueueDomainEvent eventKey id event now).Shows (events.upsert event) := by
  unfold Shows DomainOutbox.enqueueDomainEvent
  have htaken : (t.rows.any fun r => eventKey r.event = eventKey event) = true
      ↔ events.Has (eventKey event) := by
    unfold Table.Has
    rw [h, List.any_eq_true]
    simp
  by_cases hhas : events.Has (eventKey event)
  · rw [if_pos (htaken.mpr hhas), Table.upsert_of_has hhas]
    exact h
  · rw [if_neg fun htrue => hhas (htaken.mp htrue),
      Table.rows_upsert_of_not_has hhas, Table.rows_upsert_of_not_has hid,
      List.map_append, h]
    rfl

/-- `enqueueDomainEvent` of an order's transaction. -/
theorem Shows.addOutboxEvent {t : DomainOutbox OutboxEvent} {db : Db}
    (h : t.Shows db.domainOutbox) {id : Uuid} (event : OutboxEvent)
    (now : Timestamp) (hid : ¬ t.Has id) :
    (t.enqueueDomainEvent OutboxEvent.eventKey id event now).Shows
      (db.addOutboxEvent event).domainOutbox :=
  h.enqueueDomainEvent now hid

end DomainOutbox

-- ============================================================== workers

/-- Where `processClaimedEvent` stands. -/
inductive AttemptPhase where
  | handling
  /-- `markProcessed` is next. -/
  | returned
  /-- `markFailed` is next. -/
  | failed (error : String)

/-- An event under way at a worker, as its claim returned it. -/
structure Attempt (E : Type) where
  event : DomainOutboxEvent E
  phase : AttemptPhase

/-- The table, and the attempts of the workers. -/
structure OutboxSystem (E : Type) where
  table : DomainOutbox E
  attempt : String → Uuid → Option (Attempt E)
  returned : List Uuid

/-- Before any event. -/
def OutboxSystem.start : OutboxSystem E := ⟨.empty, fun _ _ => none, []⟩

/-- What may happen next. -/
inductive OutboxStep (E : Type) where
  | enqueue (id : Uuid) (event : E) (now : Timestamp)
  | claim (input : ClaimInput) (fault : Option Fault)
  | handlerReturns (worker : String) (id : Uuid)
  | handlerThrows (worker : String) (id : Uuid) (error : String)
  | heartbeat (worker : String) (id : Uuid) (now : Timestamp)
  | markProcessed (worker : String) (id : Uuid) (now : Timestamp)
      (fault : Option Fault)
  | markFailed (worker : String) (id : Uuid) (baseBackoffMs : Nat)
      (now : Timestamp) (fault : Option Fault)
  | retry (eventIds : Option (List Uuid)) (limit : Option Nat)
      (now : Timestamp) (locked : List Uuid)

/-- The error of a mark that found the row no longer held. -/
def lockLost (id : Uuid) : String :=
  "Outbox lock was lost before event " ++ id.text ++ " completed"

namespace OutboxSystem

variable (s : OutboxSystem E)

/-- A worker's attempt goes on. -/
def setAttempt (worker : String) (id : Uuid) (a : Option (Attempt E)) :
    OutboxSystem E :=
  { s with
    attempt := fun w i =>
      if w = worker ∧ i = id then a else s.attempt w i }

/-- The table is replaced. -/
def setTable (t : DomainOutbox E) : OutboxSystem E := { s with table := t }

/-- The attempts that a worker starts with a batch. -/
def startAttempts (worker : String) (batch : List (DomainOutboxEvent E)) :
    OutboxSystem E :=
  { s with
    attempt := fun w i =>
      if w = worker then
        ((batch.find? fun r => r.id = i).map fun r => ⟨r, .handling⟩).or
          (s.attempt w i)
      else s.attempt w i }

/-- Nothing of the batch is under way at the worker: per event a worker
runs one attempt after the other. -/
def Sequential (worker : String) (batch : List (DomainOutboxEvent E)) :
    Prop :=
  ∀ r ∈ batch, s.attempt worker r.id = none

instance (worker : String) (batch : List (DomainOutboxEvent E)) :
    Decidable (s.Sequential worker batch) :=
  haveI : ∀ r : DomainOutboxEvent E, Decidable (s.attempt worker r.id = none) :=
    fun r => decidable_of_iff ((s.attempt worker r.id).isNone = true)
      Option.isNone_iff_eq_none
  inferInstanceAs (Decidable (∀ r ∈ batch, s.attempt worker r.id = none))

/-- A claim that was received starts its attempts; one whose answer is
lost leaves claimed rows that nobody works on. -/
def claim (maxAttempts : Nat) (c : ClaimInput) (fault : Option Fault) :
    OutboxSystem E :=
  let claimed := s.table.claimOutboxBatch maxAttempts c
  if fault = some .refused ∨ ¬ s.Sequential c.workerId claimed.1 then s
  else if fault = some .replyLost then s.setTable claimed.2
  else (s.setTable claimed.2).startAttempts c.workerId claimed.1

/-- The handler ends. -/
def handlerReturns (worker : String) (id : Uuid) : OutboxSystem E :=
  match s.attempt worker id with
  | some ⟨event, .handling⟩ =>
      { s.setAttempt worker id (some ⟨event, .returned⟩) with
        returned := s.returned ++ [id] }
  | _ => s

/-- A handler ends with an error. -/
def handlerThrows (worker : String) (id : Uuid) (error : String) :
    OutboxSystem E :=
  match s.attempt worker id with
  | some ⟨event, .handling⟩ =>
      s.setAttempt worker id (some ⟨event, .failed error⟩)
  | _ => s

/-- After `markProcessed`: the attempt is over, or it has failed. -/
def afterMark (worker : String) (id : Uuid) (fault : Option Fault)
    (event : DomainOutboxEvent E) : Option (Attempt E) :=
  match fault with
  | some _ => some ⟨event, .failed "Connection terminated"⟩
  | none =>
      if s.table.Holds worker id then none
      else some ⟨event, .failed (lockLost id)⟩

/-- `markProcessed` inside `try`: what it throws is handled like an
error of the handler. -/
def markProcessed (worker : String) (id : Uuid) (now : Timestamp)
    (fault : Option Fault) : OutboxSystem E :=
  match s.attempt worker id with
  | some ⟨event, .returned⟩ =>
      let t := if fault = some .refused then s.table
        else s.table.markProcessed worker id now
      (s.setTable t).setAttempt worker id (s.afterMark worker id fault event)
  | _ => s

/-- `markFailed` ends the attempt, whatever becomes of it. -/
def markFailed (maxAttempts : Nat) (worker : String) (id : Uuid)
    (baseBackoffMs : Nat) (now : Timestamp) (fault : Option Fault) :
    OutboxSystem E :=
  match s.attempt worker id with
  | some ⟨event, .failed error⟩ =>
      let t := if fault = some .refused then s.table
        else s.table.markFailed worker event error maxAttempts baseBackoffMs
          now
      (s.setTable t).setAttempt worker id none
  | _ => s

/-- A step that a worker is not at does nothing. -/
def step (eventKey : E → String) (maxAttempts : Nat) :
    OutboxStep E → OutboxSystem E
  | .enqueue id event now =>
      s.setTable (s.table.enqueueDomainEvent eventKey id event now)
  | .claim input fault => s.claim maxAttempts input fault
  | .handlerReturns worker id => s.handlerReturns worker id
  | .handlerThrows worker id error => s.handlerThrows worker id error
  | .heartbeat worker id now =>
      s.setTable (s.table.heartbeatEvent worker id now)
  | .markProcessed worker id now fault => s.markProcessed worker id now fault
  | .markFailed worker id baseBackoffMs now fault =>
      s.markFailed maxAttempts worker id baseBackoffMs now fault
  | .retry eventIds limit now locked =>
      s.setTable (s.table.retryFailedOutboxEvents eventIds limit now locked)

/-- Take some steps. -/
def play (eventKey : E → String) (maxAttempts : Nat)
    (steps : List (OutboxStep E)) : OutboxSystem E :=
  run (fun s e => s.step eventKey maxAttempts e) s steps

end OutboxSystem

end Skrynia
