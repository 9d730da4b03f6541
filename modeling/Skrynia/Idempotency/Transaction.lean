/-
Request idempotency: `runIdempotentTransaction` statement by statement.

A call is one READ COMMITTED transaction. It removes expired keys, claims
its own key by inserting a row, runs `execute`, writes the response into
the row and commits; where the key is taken it reads the row and replays
it. Any number of calls run at once.

# What others see

Rows become visible by COMMIT. Until then a call's insert and deletions
are known to others only by the locks they hold: an insert of a key waits
for the call that has it uncommitted, or that is about to remove it
(`Blocked`); the batch removal skips locked rows. A step that would have
to wait does nothing.

What `execute` wrote is kept with its call in `writes` until the end of
the transaction; COMMIT moves it to `effects`.

# History variable

`committed` has the row of every execution that committed, with its call.
No step reads it.
-/
import Mathlib.Data.List.Sort
import Skrynia.Db.Schema
import Skrynia.Lib.Held
import Skrynia.Lib.Runs

namespace Skrynia

open Relational Stepping

-- ================================================================== rows

/-- The status column of a key. -/
inductive IdempotencyStatus where
  | processing
  | completed
deriving DecidableEq

/-- `unique (user_id, scope, key)`. -/
structure IdempotencyKey where
  userId : Uuid
  scope : String
  key : Uuid
deriving DecidableEq

/-- A JSON value; `none` is JSON null. -/
abbrev JsonBody (B : Type) := Option B

/-- A row of `idempotency_keys`. -/
structure StoredIdempotencyRow (B : Type) where
  key : IdempotencyKey
  requestHash : String
  status : IdempotencyStatus
  responseStatus : Option Nat
  responseBody : Option (JsonBody B)
  resourceId : Option Uuid
  expiresAt : Timestamp
deriving DecidableEq

/-- The table: one row for each user, scope and key. -/
abbrev IdempotencyKeys (B : Type) :=
  Table (StoredIdempotencyRow.key (B := B))

/-- `DEFAULT_TTL_MS`. -/
def defaultTtlMs : Nat := 24 * 60 * 60 * 1000

/-- `EXPIRED_CLEANUP_BATCH_SIZE`. -/
def expiredCleanupBatchSize : Nat := 100

/-- What `execute` returns. -/
structure IdempotentResponse (A : Type) where
  statusCode : Nat
  body : A
  resourceId : Option Uuid
deriving DecidableEq

/-- The input of `runIdempotentTransaction`, but for `execute`. -/
structure IdempotentInput where
  key : IdempotencyKey
  requestHash : String
  ttlMs : Option Nat

/-- What a call answers: the response and whether it was replayed. -/
abbrev IdempotentAnswer (B : Type) :=
  Except Failure (IdempotentResponse (JsonBody B) × Bool)

/-- The 409 for a key that another request took. -/
def keyReused : Failure :=
  conflict "This idempotency key was already used with a different request"

/-- The 409 for a key whose request has no response yet. -/
def stillProcessing : Failure :=
  conflict "A request with this idempotency key is still processing"

namespace StoredIdempotencyRow

variable {B : Type} (r : StoredIdempotencyRow B)

/-- The row that a claim inserts. -/
def claimed (input : IdempotentInput) (clock : Timestamp) :
    StoredIdempotencyRow B where
  key := input.key
  requestHash := input.requestHash
  status := .processing
  responseStatus := none
  responseBody := none
  resourceId := none
  expiresAt := clock + input.ttlMs.getD defaultTtlMs

/-- The row with the response written into it. -/
def completedBy (response : IdempotentResponse (JsonBody B)) :
    StoredIdempotencyRow B :=
  { r with
    status := .completed
    responseStatus := some response.statusCode
    responseBody := some response.body
    resourceId := response.resourceId }

/-- What a call whose key is taken makes of the row. A null body reads
as no body. -/
def replay (requestHash : String) : IdempotentAnswer B :=
  if r.requestHash ≠ requestHash then .error keyReused
  else if r.status ≠ .completed then .error stillProcessing
  else match r.responseStatus, r.responseBody.join with
    | some statusCode, some body =>
        .ok (⟨statusCode, some body, r.resourceId⟩, true)
    | _, _ => .error stillProcessing

end StoredIdempotencyRow

-- ================================================================= calls

/-- The statement that a call runs next. -/
inductive IdempotentPhase (A B : Type) where
  | idle
  | cleanup (input : IdempotentInput) (now : Timestamp)
  | claim (input : IdempotentInput) (now : Timestamp)
  | execute (input : IdempotentInput)
  | complete (input : IdempotentInput) (executed : IdempotentResponse A)
  | lookup (input : IdempotentInput)
  /-- COMMIT, or ROLLBACK after an error. -/
  | finish (input : IdempotentInput) (answer : IdempotentAnswer B)
  | ended (input : IdempotentInput) (answer : IdempotentAnswer B)

/-- Committed rows and effects, what is uncommitted with the calls that
hold it, and where each call stands. -/
structure IdempotencySystem (A B E : Type) where
  rows : IdempotencyKeys B
  effects : Held E
  claims : Held (StoredIdempotencyRow B)
  deletions : Held IdempotencyKey
  writes : Held E
  phase : Nat → IdempotentPhase A B
  committed : Held (StoredIdempotencyRow B)

/-- The table as it is, and no calls. -/
def IdempotencySystem.start {A B E : Type} (rows : IdempotencyKeys B) :
    IdempotencySystem A B E where
  rows := rows
  effects := []
  claims := []
  deletions := []
  writes := []
  phase _ := .idle
  committed := []

/-- `execute` may write before it throws. -/
inductive IdempotencyEvent (A E : Type) where
  | begin_ (c : Nat) (input : IdempotentInput) (now : Timestamp)
  | cleanup (c : Nat)
  | claim (c : Nat) (clock : Timestamp)
  | executeReturns (c : Nat) (response : IdempotentResponse A)
      (written : List E)
  | executeThrows (c : Nat) (error : Failure) (written : List E)
  | complete (c : Nat)
  | lookup (c : Nat)
  | finish (c : Nat)

namespace IdempotencySystem

variable {A B E : Type} (s : IdempotencySystem A B E)

/-- Call `c` is now in phase `p`. -/
def setPhase (c : Nat) (p : IdempotentPhase A B) :
    IdempotencySystem A B E :=
  { s with phase := fun c' => if c' = c then p else s.phase c' }

/-- An insert of the key has to wait. -/
def Blocked (c : Nat) (k : IdempotencyKey) : Prop :=
  s.claims.ByOther c (fun r => r.key = k) ∨ s.deletions.ByOther c (· = k)

instance (c : Nat) (k : IdempotencyKey) : Decidable (s.Blocked c k) :=
  inferInstanceAs (Decidable (_ ∨ _))

/-- The committed row of the key as the call sees it: without what the
call itself is about to remove. -/
def visible (c : Nat) (k : IdempotencyKey) :
    Option (StoredIdempotencyRow B) :=
  (s.rows.find? k).filter fun _ => k ∉ s.deletions.of c

/-- The keys of the second DELETE: the first rows by expiry that nobody
has locked. -/
def expiredBatch (now : Timestamp) (locked : List IdempotencyKey) :
    List IdempotencyKey :=
  (((s.rows.rows.filter fun r => r.expiresAt ≤ now
    ∧ r.key ∉ locked).insertionSort fun r r' => r.expiresAt ≤ r'.expiresAt
      ).take expiredCleanupBatchSize).map StoredIdempotencyRow.key

/-- `cleanupExpiredKeys`. -/
def cleanupExpiredKeys (c : Nat) (input : IdempotentInput) (now : Timestamp) :
    IdempotencySystem A B E :=
  let own := if (s.rows.find? input.key).any fun r => r.expiresAt ≤ now
    then [input.key] else []
  if own ≠ [] ∧ s.deletions.ByOther c (· = input.key) then s
  else
    let batch := s.expiredBatch now (own ++ s.deletions.map Prod.snd)
    { s.setPhase c (.claim input now) with
      deletions := s.deletions.add c (own ++ batch) }

/-- The insert; `clock` is the process's time. -/
def claim (c : Nat) (input : IdempotentInput) (now clock : Timestamp) :
    IdempotencySystem A B E :=
  if clock + input.ttlMs.getD defaultTtlMs ≤ now then
    s.setPhase c
      (.finish input (.error (.violation "idempotency_keys_expiry_check")))
  else if s.Blocked c input.key then s
  else if (s.visible c input.key).isSome then s.setPhase c (.lookup input)
  else
    { s.setPhase c (.execute input) with
      claims := s.claims.add c [.claimed input clock] }

/-- What `execute` wrote. -/
def write (c : Nat) (written : List E) : IdempotencySystem A B E :=
  { s with writes := s.writes.add c written }

/-- The update of the claimed row; `normalizeResponseBody` gives the JSON
value of a body, if it has one. -/
def complete (normalizeResponseBody : A → Option (JsonBody B)) (c : Nat)
    (input : IdempotentInput) (executed : IdempotentResponse A) :
    IdempotencySystem A B E :=
  match normalizeResponseBody executed.body with
  | none => s.setPhase c (.finish input
      (.error (.error "Idempotent response body must be JSON serializable")))
  | some body =>
      let response : IdempotentResponse (JsonBody B) :=
        ⟨executed.statusCode, body, executed.resourceId⟩
      if (s.claims.of c).isEmpty then s.setPhase c (.finish input
        (.error (.error "Idempotency result could not be completed")))
      else if 100 ≤ response.statusCode ∧ response.statusCode ≤ 599 then
        { s.setPhase c (.finish input (.ok (response, false))) with
          claims := s.claims.update c fun r => r.completedBy response }
      else s.setPhase c (.finish input
        (.error (.violation "idempotency_keys_response_status_check")))

/-- The select after a conflict. -/
def lookup (c : Nat) (input : IdempotentInput) : IdempotencySystem A B E :=
  s.setPhase c (.finish input (match s.visible c input.key with
    | none => .error
        (.error "Idempotency key conflicted but could not be read")
    | some row => row.replay input.requestHash))

/-- Locks end with the transaction. -/
def release (c : Nat) : IdempotencySystem A B E :=
  { s with
    claims := s.claims.release c
    deletions := s.deletions.release c
    writes := s.writes.release c }

/-- COMMIT: what the call did becomes visible. -/
def commit (c : Nat) : IdempotencySystem A B E :=
  { s.release c with
    rows := (s.claims.of c).foldl Table.upsert
      (s.rows.delete fun r => r.key ∈ s.deletions.of c)
    effects := s.effects.add c (s.writes.of c)
    committed := s.committed.add c (s.claims.of c) }

/-- A call ends: an answer commits its transaction and a failure rolls it
back. -/
def finish (c : Nat) (input : IdempotentInput)
    (answer : IdempotentAnswer B) : IdempotencySystem A B E :=
  match answer with
  | .ok _ => (s.commit c).setPhase c (.ended input answer)
  | .error _ => (s.release c).setPhase c (.ended input answer)

/-- One statement of one call. -/
def step (normalizeResponseBody : A → Option (JsonBody B)) :
    IdempotencyEvent A E → IdempotencySystem A B E
  | .begin_ c input now =>
      match s.phase c with
      | .idle => s.setPhase c (.cleanup input now)
      | _ => s
  | .cleanup c =>
      match s.phase c with
      | .cleanup input now => s.cleanupExpiredKeys c input now
      | _ => s
  | .claim c clock =>
      match s.phase c with
      | .claim input now => s.claim c input now clock
      | _ => s
  | .executeReturns c response written =>
      match s.phase c with
      | .execute input =>
          (s.write c written).setPhase c (.complete input response)
      | _ => s
  | .executeThrows c error written =>
      match s.phase c with
      | .execute input =>
          (s.write c written).setPhase c (.finish input (.error error))
      | _ => s
  | .complete c =>
      match s.phase c with
      | .complete input executed =>
          s.complete normalizeResponseBody c input executed
      | _ => s
  | .lookup c =>
      match s.phase c with
      | .lookup input => s.lookup c input
      | _ => s
  | .finish c =>
      match s.phase c with
      | .finish input answer => s.finish c input answer
      | _ => s

end IdempotencySystem

end Skrynia
