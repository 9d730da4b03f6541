/-
Resolving a dispute: the four transactions of the saga.

`claimResolution` persists the decision and an operation id, the escrow
operation settles the order, `finalizeIfApplied` closes the dispute once
the order has its terminal status, and `markResolutionFailed` records
that an attempt broke off. No transaction encloses the four; each locks
the dispute with its order and checks again what it relies on.

# Reading them

One lemma a transaction (`commits_claimResolution`,
`commits_finalizeIfApplied`, `commits_markResolutionFailed`), each an
equivalence: what the rows were, and which branch wrote what.
-/
import Skrynia.Common.Text
import Skrynia.Orders.Routes

namespace Skrynia

open Relational

-- ============================================================== the rows

/-- A dispute row joined with its order. -/
structure ResolutionRow where
  dispute : Dispute
  orderStatus : OrderStatus
  buyerId : Uuid
  sellerId : Uuid

/-- What a claim has found and done. -/
structure ResolutionClaim where
  row : ResolutionRow
  shouldExecuteEscrow : Bool
  alreadyResolved : Bool

/-- The argument of `resolveDisputeResolution`, its default filled in. -/
structure ResolveInput where
  disputeId : Uuid
  decision : DisputeDecision
  adminId : Uuid
  adminNote : String
  expectedOperationId : Option Uuid
  allowStale : Bool

/-- `STALE_RESOLUTION_MS`. -/
def staleResolutionMs : Nat := 15 * 60 * 1000

/-- `LAST_ERROR_MAX_LENGTH`. -/
def lastErrorMaxLength : Nat := 1000

/-- The decision that a terminal status carries out. -/
def terminalDecision : OrderStatus → Option DisputeDecision
  | .refunded => some .refund
  | .completed => some .release
  | _ => none

/-- `error.message`; a refused statement is told by its constraint. -/
def Failure.message : Failure → String
  | .api _ message | .error message | .violation message => message

/-- `sanitizedError`: the message, cut to the column's length. -/
def sanitizedError (error : Failure) : String :=
  jsSlice lastErrorMaxLength error.message

-- ================================================================ checks

/-- `assertDecisionMatches`. -/
def assertDecisionMatches (persisted : Option DisputeDecision)
    (requested : DisputeDecision) : DbTx Unit :=
  match persisted with
  | none => return ()
  | some decision => require (decision = requested)
      (conflict ("Dispute resolution is already claimed for "
        ++ decision.text))

/-- `assertOperationMatches`. -/
def assertOperationMatches (persisted expected : Option Uuid) : DbTx Unit :=
  match expected with
  | none => return ()
  | some operationId => require (persisted = some operationId)
      (conflict "Dispute resolution operation changed")

/-- `assertOrderCanContinue`. -/
def assertOrderCanContinue (row : ResolutionRow)
    (decision : DisputeDecision) : DbTx Unit :=
  match terminalDecision row.orderStatus with
  | some applied => require (applied = decision)
      (conflict ("Order already has the opposite resolution: "
        ++ applied.text))
  | none => require (row.orderStatus = .disputed)
      (conflict ("Order cannot be resolved from status "
        ++ row.orderStatus.text))

/-- The join of a dispute with its order. -/
abbrev Dispute.row (d : Dispute) (o : OrderRow) : ResolutionRow :=
  ⟨d, o.status, o.buyerId, o.sellerId⟩

/-- `selectResolutionForUpdate`: the dispute with its order, both locked. -/
def selectResolutionForUpdate (disputeId : Uuid) : DbTx ResolutionRow := do
  let row ← select fun db => do
    let d ← db.disputes.find? disputeId
    let o ← db.orders.find? d.orderId
    return d.row o
  orThrow row (notFound "Dispute not found")

-- =============================================================== updates

namespace Dispute

/-- The first claim. -/
def claimed (d : Dispute) (input : ResolveInput) (now : Timestamp)
    (operationId : Uuid) : Dispute :=
  { d with
    status := .resolving
    resolutionDecision := some input.decision
    resolutionOperationId := some operationId
    adminId := some input.adminId
    adminNote := some input.adminNote
    resolvingStartedAt := some now
    resolutionAttempts := 1
    lastResolutionError := none }

/-- A later claim: of a failed attempt, or of one that went stale. -/
def reclaimed (d : Dispute) (now : Timestamp) : Dispute :=
  { d with
    status := .resolving
    resolvingStartedAt := some now
    resolutionAttempts := d.resolutionAttempts + 1
    lastResolutionError := none }

/-- The row of a resolved dispute. -/
def finalized (d : Dispute) (now : Timestamp) : Dispute :=
  { d with
    status := .resolved
    resolution := d.resolutionDecision
    resolvedAt := d.resolvedAt.or (some now)
    lastResolutionError := none }

/-- The row of a failed attempt. -/
def failed (d : Dispute) (error : Failure) : Dispute :=
  { d with
    status := .resolutionFailed
    lastResolutionError := some (sanitizedError error) }

/-- No other dispute has the operation id: what
`uq_disputes_resolution_operation` asks of a row. -/
def OperationFree (d : Dispute) (db : Db) : Prop :=
  ∀ d' ∈ db.disputes.rows, d'.id ≠ d.id →
    d'.resolutionOperationId = d.resolutionOperationId →
    d.resolutionOperationId = none

instance (d : Dispute) (db : Db) : Decidable (d.OperationFree db) :=
  inferInstanceAs (Decidable (∀ d' ∈ db.disputes.rows, _ → _ → _))

/-- What the table asks of a row. -/
structure Accepted (d : Dispute) (db : Db) : Prop where
  attempts : d.resolutionAttempts ≤ int4Max
  state : d.StateCheck
  operation : d.OperationFree db

end Dispute

/-- `update disputes set … where id = …`. -/
def updateDispute (d : Dispute) : DbTx Unit := do
  require (d.resolutionAttempts ≤ int4Max) (.violation "integer out of range")
  require d.StateCheck (.violation "disputes_resolution_state_check")
  let free ← select fun db => decide (d.OperationFree db)
  require (free = true) (.violation "uq_disputes_resolution_operation")
  modify fun db => db.putDispute d

-- ================================================================= claim

/-- A claim of this row, made now. -/
def claimOf (d : Dispute) (row : ResolutionRow) : ResolutionClaim where
  row := { row with dispute := d }
  shouldExecuteEscrow := (terminalDecision row.orderStatus).isNone
  alreadyResolved := false

/-- `operationId` is what `randomUUID()` draws, `now` the database's time
and `clock` the process's. -/
def claimResolution (input : ResolveInput) (now clock : Timestamp)
    (operationId : Uuid) : DbTx ResolutionClaim := do
  let row ← selectResolutionForUpdate input.disputeId
  assertDecisionMatches row.dispute.resolutionDecision input.decision
  assertOperationMatches row.dispute.resolutionOperationId
    input.expectedOperationId
  assertOrderCanContinue row input.decision
  match row.dispute.status with
  | .resolved => return ⟨row, false, true⟩
  | .open => do
      updateDispute (row.dispute.claimed input now operationId)
      return claimOf (row.dispute.claimed input now operationId) row
  | .resolutionFailed => do
      updateDispute (row.dispute.reclaimed now)
      return claimOf (row.dispute.reclaimed now) row
  | .resolving =>
      if terminalDecision row.orderStatus = some input.decision then
        return ⟨row, false, false⟩
      else do
        require (input.allowStale
            ∧ row.dispute.resolvingStartedAt.getD 0 + staleResolutionMs
              ≤ clock)
          (conflict "Dispute resolution is already in progress")
        updateDispute (row.dispute.reclaimed now)
        return claimOf (row.dispute.reclaimed now) row

-- ============================================================== finalize

/-- The timeline row of a resolution. -/
def disputeResolvedEvent (d : Dispute) (decision : DisputeDecision)
    (operationId : Uuid) : OrderEvent where
  orderId := d.orderId
  actorId := d.adminId
  type := "dispute_resolved"
  templateKey := "orderEvents.disputeResolved"
  body := d.adminNote
  provider := none
  transition := none
  resolution := some (decision, operationId)

/-- Type and text of the message on the outcome. -/
def outcomeMessage : DisputeDecision → String × String
  | .refund => ("refunded", "system.refunded")
  | .release => ("escrow_released", "system.fundsReleased")

/-- The event key of a resolution. -/
def disputeResolvedKey (disputeId operationId : Uuid) : String :=
  DomainEventType.disputeResolved.text ++ ":" ++ disputeId.text ++ ":"
    ++ operationId.text

/-- The event of a resolution. -/
def disputeResolvedOutbox (row : ResolutionRow) (decision : DisputeDecision)
    (operationId : Uuid) (messages : List Uuid) : OutboxEvent where
  eventKey := disputeResolvedKey row.dispute.id operationId
  eventType := .disputeResolved
  aggregateType := "dispute"
  aggregateId := row.dispute.id.text
  payload :=
    { orderId := row.dispute.orderId
      buyerId := row.buyerId
      sellerId := row.sellerId
      productId := none
      systemMessageIds := messages.map Uuid.text
      conversationId := none
      source := none
      actorId := none
      disputeId := some row.dispute.id.text
      decision := some decision }

/-- The rows that a resolution adds. -/
def recordResolution (row : ResolutionRow) (decision : DisputeDecision)
    (operationId resolutionId outcomeId : Uuid) : DbTx Unit := do
  recordOrderEvent (disputeResolvedEvent row.dispute decision operationId)
  let resolutionMessage ← createOrderSystemMessage resolutionId
    row.dispute.orderId "dispute_resolved" "system.disputeResolved"
    [("note", row.dispute.adminNote.getD "")] (some (decision, operationId))
  let outcome ← createOrderSystemMessage outcomeId row.dispute.orderId
    (outcomeMessage decision).1 (outcomeMessage decision).2 [] none
  let _ ← enqueueDomainEvent (disputeResolvedOutbox row decision operationId
    (resolutionMessage.toList ++ outcome.toList))
  return ()

/-- `none` when the order has not got there; otherwise the row, and
whether this call resolved it. -/
def finalizeIfApplied (disputeId : Uuid) (decision : DisputeDecision)
    (operationId : Uuid) (now : Timestamp) (resolutionId outcomeId : Uuid) :
    DbTx (Option (ResolutionRow × Bool)) := do
  let row ← selectResolutionForUpdate disputeId
  assertDecisionMatches row.dispute.resolutionDecision decision
  assertOperationMatches row.dispute.resolutionOperationId (some operationId)
  if row.dispute.status = .resolved then return some (row, false)
  else if terminalDecision row.orderStatus ≠ some decision then return none
  else do
    updateDispute (row.dispute.finalized now)
    let resolved := { row with dispute := row.dispute.finalized now }
    recordResolution resolved decision operationId resolutionId outcomeId
    return some (resolved, true)

/-- `markResolutionFailed`: of the operation that is still the dispute's. -/
def markResolutionFailed (disputeId operationId : Uuid) (error : Failure) :
    DbTx Unit := do
  let row ← select fun db => (db.disputes.find? disputeId).filter fun d =>
    d.resolutionOperationId = some operationId ∧ d.status = .resolving
  match row with
  | none => return ()
  | some d => updateDispute (d.failed error)

-- ================================================== one statement a lemma

/-- The persisted decision and operation admit the request. -/
structure Matching (d : Dispute) (decision : DisputeDecision)
    (expected : Option Uuid) : Prop where
  decision : ∀ persisted ∈ d.resolutionDecision, persisted = decision
  operation : ∀ e ∈ expected, d.resolutionOperationId = some e

/-- The order is under dispute, or got to where the decision leads. -/
def CanContinue (status : OrderStatus) (decision : DisputeDecision) : Prop :=
  status = .disputed ∨ terminalDecision status = some decision

section Sequence

variable {α : Type} {db db' : Db} {b : α}

/-- A decision must be the persisted one, if there is one. -/
theorem commits_assertDecisionMatches_bind
    {persisted : Option DisputeDecision} {requested : DisputeDecision}
    {g : Unit → DbTx α} :
    Commits (assertDecisionMatches persisted requested >>= g) db b db'
      ↔ (∀ p ∈ persisted, p = requested) ∧ Commits (g ()) db b db' := by
  unfold assertDecisionMatches
  cases persisted with
  | none => simp
  | some p => simp [commits_require_bind]

/-- An operation must be the persisted one, if one is expected. -/
theorem commits_assertOperationMatches_bind
    {persisted expected : Option Uuid} {g : Unit → DbTx α} :
    Commits (assertOperationMatches persisted expected >>= g) db b db'
      ↔ (∀ e ∈ expected, persisted = some e)
        ∧ Commits (g ()) db b db' := by
  unfold assertOperationMatches
  cases expected with
  | none => simp
  | some e => simp [commits_require_bind]

/-- An order must be disputed, or settled as decided. -/
theorem commits_assertOrderCanContinue_bind {row : ResolutionRow}
    {decision : DisputeDecision} {g : Unit → DbTx α} :
    Commits (assertOrderCanContinue row decision >>= g) db b db'
      ↔ CanContinue row.orderStatus decision
        ∧ Commits (g ()) db b db' := by
  unfold assertOrderCanContinue CanContinue
  cases h : terminalDecision row.orderStatus with
  | none => simp [commits_require_bind]
  | some applied =>
      have hne : row.orderStatus ≠ .disputed := by
        intro hs
        rw [hs] at h
        cases h
      simp [commits_require_bind, hne]

/-- The dispute is there, and so is its order. -/
theorem commits_selectResolutionForUpdate_bind {disputeId : Uuid}
    {g : ResolutionRow → DbTx α} :
    Commits (selectResolutionForUpdate disputeId >>= g) db b db'
      ↔ ∃ d o, db.disputes.find? disputeId = some d
        ∧ db.orders.find? d.orderId = some o
        ∧ Commits (g (d.row o)) db b db' := by
  simp only [selectResolutionForUpdate, bind_assoc, commits_select_bind,
    commits_orThrow_bind]
  constructor
  · intro h'
    obtain ⟨row, hrow, h⟩ := h'
    simp only [Option.bind_eq_bind, Option.bind_eq_some_iff, Option.pure_def,
      Option.some.injEq] at hrow
    obtain ⟨d, hd, o, ho, rfl⟩ := hrow
    exact ⟨d, o, hd, ho, h⟩
  · intro h'
    obtain ⟨d, o, hd, ho, h⟩ := h'
    refine ⟨d.row o, ?_, h⟩
    simp [hd, ho]

/-- A dispute's row is written if its checks hold. -/
theorem commits_updateDispute {d : Dispute} {x : Unit} :
    Commits (updateDispute d) db x db'
      ↔ d.Accepted db ∧ db' = db.putDispute d := by
  simp only [updateDispute, commits_require_bind, commits_select_bind,
    commits_modify, decide_eq_true_eq]
  constructor
  · intro h
    obtain ⟨ha, hs, ho, rfl⟩ := h
    exact ⟨⟨ha, hs, ho⟩, rfl⟩
  · intro h
    obtain ⟨⟨ha, hs, ho⟩, rfl⟩ := h
    exact ⟨ha, hs, ho, rfl⟩

/-- And the rest goes on. -/
theorem commits_updateDispute_bind {d : Dispute} {g : Unit → DbTx α} :
    Commits (updateDispute d >>= g) db b db'
      ↔ d.Accepted db ∧ Commits (g ()) (db.putDispute d) b db' := by
  rw [commits_bind]
  simp only [commits_updateDispute, and_assoc, exists_and_left,
    exists_eq_left, Unique.exists_iff]

end Sequence

-- ============================================================= the claim

/-- The branches of a claim of dispute `d` with order `o`. -/
inductive ClaimStep (input : ResolveInput) (now clock : Timestamp)
    (operationId : Uuid) (db : Db) (d : Dispute) (o : OrderRow) :
    ResolutionClaim → Db → Prop where
  | resolved (status : d.status = .resolved) :
      ClaimStep input now clock operationId db d o ⟨d.row o, false, true⟩ db
  | opened (status : d.status = .open)
      (accepted : (d.claimed input now operationId).Accepted db) :
      ClaimStep input now clock operationId db d o
        (claimOf (d.claimed input now operationId) (d.row o))
        (db.putDispute (d.claimed input now operationId))
  | retried
      (status : d.status = .resolutionFailed ∨ d.status = .resolving
        ∧ terminalDecision o.status ≠ some input.decision
        ∧ input.allowStale
        ∧ d.resolvingStartedAt.getD 0 + staleResolutionMs ≤ clock)
      (accepted : (d.reclaimed now).Accepted db) :
      ClaimStep input now clock operationId db d o
        (claimOf (d.reclaimed now) (d.row o))
        (db.putDispute (d.reclaimed now))
  | applied (status : d.status = .resolving)
      (terminal : terminalDecision o.status = some input.decision) :
      ClaimStep input now clock operationId db d o ⟨d.row o, false, false⟩ db

/-- What a claim has found, and what it has written in each case. -/
theorem commits_claimResolution {input : ResolveInput}
    {now clock : Timestamp} {operationId : Uuid} {db db' : Db}
    {claim : ResolutionClaim} :
    Commits (claimResolution input now clock operationId) db claim db'
      ↔ ∃ d o, db.disputes.find? input.disputeId = some d
        ∧ db.orders.find? d.orderId = some o
        ∧ Matching d input.decision input.expectedOperationId
        ∧ CanContinue o.status input.decision
        ∧ ClaimStep input now clock operationId db d o claim db' := by
  simp only [claimResolution, commits_selectResolutionForUpdate_bind,
    commits_assertDecisionMatches_bind, commits_assertOperationMatches_bind,
    commits_assertOrderCanContinue_bind]
  refine exists_congr fun d => exists_congr fun o => ?_
  refine and_congr_right fun _ => and_congr_right fun _ => ?_
  constructor
  · intro h'
    obtain ⟨hdecision, hoperation, hcontinue, h⟩ := h'
    refine ⟨⟨hdecision, hoperation⟩, hcontinue, ?_⟩
    cases hs : d.status with
    | «open» =>
        simp only [hs, commits_updateDispute_bind, commits_pure] at h
        obtain ⟨haccepted, rfl, rfl⟩ := h
        exact .opened hs haccepted
    | resolving =>
        simp only [hs, commits_ite, commits_require_bind,
          commits_updateDispute_bind, commits_pure] at h
        obtain ⟨hterminal, rfl, rfl⟩
          | ⟨hterminal, ⟨hallow, hstale⟩, haccepted, rfl, rfl⟩ := h
        · exact .applied hs hterminal
        · exact .retried (.inr ⟨hs, hterminal, hallow, hstale⟩) haccepted
    | resolved =>
        simp only [hs, commits_pure] at h
        obtain ⟨rfl, rfl⟩ := h
        exact .resolved hs
    | resolutionFailed =>
        simp only [hs, commits_updateDispute_bind, commits_pure] at h
        obtain ⟨haccepted, rfl, rfl⟩ := h
        exact .retried (.inl hs) haccepted
  · intro h'
    obtain ⟨hmatching, hcontinue, h⟩ := h'
    refine ⟨hmatching.decision, hmatching.operation, hcontinue, ?_⟩
    cases h with
    | resolved hs => simp only [hs, commits_pure, and_self]
    | opened hs haccepted =>
        simp only [hs, commits_updateDispute_bind, commits_pure, and_self,
          and_true]
        exact haccepted
    | retried hs haccepted =>
        obtain hs | ⟨hs, hterminal, hallow, hstale⟩ := hs
        · simp only [hs, commits_updateDispute_bind, commits_pure, and_self,
            and_true]
          exact haccepted
        · simp only [hs, commits_ite, commits_require_bind,
            commits_updateDispute_bind, commits_pure, and_self, and_true]
          exact .inr ⟨hterminal, ⟨hallow, hstale⟩, haccepted⟩
    | applied hs hterminal =>
        simp only [hs, commits_ite, commits_pure, and_self, and_true]
        exact .inl hterminal

-- ============================================================ the finish

/-- What a finalization adds to the history of its order. -/
def ResolutionRecorded (row : ResolutionRow) (decision : DisputeDecision)
    (operationId resolutionId outcomeId : Uuid) (db db' : Db) : Prop :=
  ∃ m₁ t₁ m₂ t₂,
    Messaged
      (db.addOrderEvent
        (disputeResolvedEvent row.dispute decision operationId))
      resolutionId row.dispute.orderId "dispute_resolved"
      "system.disputeResolved" [("note", row.dispute.adminNote.getD "")]
      (some (decision, operationId)) m₁ t₁
    ∧ Messaged
      (Db.setMessages
        (db.addOrderEvent
          (disputeResolvedEvent row.dispute decision operationId)) t₁)
      outcomeId row.dispute.orderId (outcomeMessage decision).1
      (outcomeMessage decision).2 [] none m₂ t₂
    ∧ db' = Db.addOutboxEvent
      (Db.setMessages
        (db.addOrderEvent
          (disputeResolvedEvent row.dispute decision operationId)) t₂)
      (disputeResolvedOutbox row decision operationId
        (m₁.toList ++ m₂.toList))

/-- The history rows of a resolution. -/
theorem commits_recordResolution {row : ResolutionRow}
    {decision : DisputeDecision} {operationId resolutionId outcomeId : Uuid}
    {db db' : Db} {x : Unit} :
    Commits (recordResolution row decision operationId resolutionId
        outcomeId) db x db'
      ↔ ResolutionRecorded row decision operationId resolutionId outcomeId
        db db' := by
  simp only [recordResolution, commits_recordOrderEvent_bind,
    commits_createOrderSystemMessage_bind, commits_enqueueDomainEvent_bind,
    commits_pure, true_and]
  constructor
  · intro h
    obtain ⟨m₁, t₁, h₁, m₂, t₂, h₂, rfl⟩ := h
    exact ⟨m₁, t₁, m₂, t₂, h₁, h₂, rfl⟩
  · intro h
    obtain ⟨m₁, t₁, m₂, t₂, h₁, h₂, rfl⟩ := h
    exact ⟨m₁, t₁, h₁, m₂, t₂, h₂, rfl⟩

/-- The branches of a finalization of dispute `d` with order `o`. -/
inductive FinalizeStep (decision : DisputeDecision) (operationId : Uuid)
    (now : Timestamp) (resolutionId outcomeId : Uuid) (db : Db)
    (d : Dispute) (o : OrderRow) :
    Option (ResolutionRow × Bool) → Db → Prop where
  | resolved (status : d.status = .resolved) :
      FinalizeStep decision operationId now resolutionId outcomeId db d o
        (some (d.row o, false)) db
  | notApplied (status : d.status ≠ .resolved)
      (terminal : terminalDecision o.status ≠ some decision) :
      FinalizeStep decision operationId now resolutionId outcomeId db d o
        none db
  | finalized {db' : Db} (status : d.status ≠ .resolved)
      (terminal : terminalDecision o.status = some decision)
      (accepted : (d.finalized now).Accepted db)
      (recorded : ResolutionRecorded ((d.finalized now).row o) decision
        operationId resolutionId outcomeId
        (db.putDispute (d.finalized now)) db') :
      FinalizeStep decision operationId now resolutionId outcomeId db d o
        (some ((d.finalized now).row o, true)) db'

/-- What a finalization has found, and what it has written in each case. -/
theorem commits_finalizeIfApplied {disputeId : Uuid}
    {decision : DisputeDecision} {operationId : Uuid} {now : Timestamp}
    {resolutionId outcomeId : Uuid} {db db' : Db}
    {r : Option (ResolutionRow × Bool)} :
    Commits (finalizeIfApplied disputeId decision operationId now
        resolutionId outcomeId) db r db'
      ↔ ∃ d o, db.disputes.find? disputeId = some d
        ∧ db.orders.find? d.orderId = some o
        ∧ Matching d decision (some operationId)
        ∧ FinalizeStep decision operationId now resolutionId outcomeId db d o
          r db' := by
  simp only [finalizeIfApplied, commits_selectResolutionForUpdate_bind,
    commits_assertDecisionMatches_bind, commits_assertOperationMatches_bind,
    commits_ite, commits_updateDispute_bind, commits_pure]
  refine exists_congr fun d => exists_congr fun o => ?_
  refine and_congr_right fun _ => and_congr_right fun _ => ?_
  constructor
  · rintro ⟨hdecision, hoperation, ⟨hs, rfl, rfl⟩ | ⟨hs, ⟨ht, rfl, rfl⟩
      | ⟨ht, haccepted, h⟩⟩⟩
    · exact ⟨⟨hdecision, hoperation⟩, .resolved hs⟩
    · exact ⟨⟨hdecision, hoperation⟩, .notApplied hs ht⟩
    · rw [commits_bind] at h
      simp only [commits_recordResolution, commits_pure] at h
      obtain ⟨-, s, hrecorded, rfl, rfl⟩ := h
      exact ⟨⟨hdecision, hoperation⟩,
        .finalized hs (not_not.mp ht) haccepted hrecorded⟩
  · intro h'
    obtain ⟨hmatching, h⟩ := h'
    refine ⟨hmatching.decision, hmatching.operation, ?_⟩
    cases h with
    | resolved hs => exact .inl ⟨hs, rfl, rfl⟩
    | notApplied hs ht => exact .inr ⟨hs, .inl ⟨ht, rfl, rfl⟩⟩
    | finalized hs ht haccepted hrecorded =>
        refine .inr ⟨hs, .inr ⟨not_not.mpr ht, haccepted, ?_⟩⟩
        rw [commits_bind]
        exact ⟨(), _, commits_recordResolution.mpr hrecorded,
          commits_pure.mpr ⟨rfl, rfl⟩⟩

-- =========================================================== the failure

/-- The branches of marking an attempt as failed. -/
inductive FailStep (disputeId operationId : Uuid) (error : Failure)
    (db : Db) : Db → Prop where
  | passed
      (other : ∀ d, db.disputes.find? disputeId = some d →
        d.resolutionOperationId = some operationId → d.status ≠ .resolving) :
      FailStep disputeId operationId error db db
  | failed {d : Dispute} (found : db.disputes.find? disputeId = some d)
      (operation : d.resolutionOperationId = some operationId)
      (status : d.status = .resolving)
      (accepted : (d.failed error).Accepted db) :
      FailStep disputeId operationId error db
        (db.putDispute (d.failed error))

/-- What is written of an attempt that broke off. -/
theorem commits_markResolutionFailed {disputeId operationId : Uuid}
    {error : Failure} {db db' : Db} {x : Unit} :
    Commits (markResolutionFailed disputeId operationId error) db x db'
      ↔ FailStep disputeId operationId error db db' := by
  simp only [markResolutionFailed, commits_select_bind]
  constructor
  · intro h
    split at h
    case h_1 hnone =>
      obtain ⟨-, rfl⟩ := commits_pure.mp h
      refine .passed ?_
      intro d hd hop hs
      rw [hd] at hnone
      simp [hop, hs] at hnone
    case h_2 d hd =>
      simp only [Option.filter_eq_some_iff, decide_eq_true_eq] at hd
      obtain ⟨hfind, hop, hs⟩ := hd
      obtain ⟨haccepted, rfl⟩ := commits_updateDispute.mp h
      exact .failed hfind hop hs haccepted
  · intro h
    cases h with
    | passed hother =>
        have hnone : ((db.disputes.find? disputeId).filter fun d =>
            decide (d.resolutionOperationId = some operationId
              ∧ d.status = .resolving)) = none := by
          rw [Option.filter_eq_none_iff]
          intro d hd hmatch
          obtain ⟨hop, hs⟩ := of_decide_eq_true hmatch
          exact hother d hd hop hs
        rw [hnone]
        exact commits_pure.mpr ⟨rfl, rfl⟩
    | @failed d hfind hop hs haccepted =>
        have hsome : ((db.disputes.find? disputeId).filter fun d =>
            decide (d.resolutionOperationId = some operationId
              ∧ d.status = .resolving)) = some d := by
          rw [hfind, Option.filter_some, if_pos (by simp [hop, hs])]
        rw [hsome]
        exact commits_updateDispute.mpr ⟨haccepted, rfl⟩

end Skrynia
