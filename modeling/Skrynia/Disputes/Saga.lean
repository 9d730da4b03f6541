/-
The dispute resolution saga as a concurrent system.

Any number of processes, each of them a caller of
`resolveDisputeResolution` or a run of `recoverStaleDisputeResolutions`,
over one database on which every other call of the money core happens
too. A process moves by one transaction at a time, so it may be
overtaken, or crash, between any two: a crashed process is one that the
schedule does not name again. A transaction may also fail for the caller
while its COMMIT took effect (`Fault.replyLost`).

# History variables

`settlements` has the order of every escrow operation that committed,
`resolutions` what every finalization that committed has written. No
step reads them.
-/
import Mathlib.Data.List.Sort
import Skrynia.Disputes.Resolution
import Skrynia.Market.System

namespace Skrynia

open Relational Stepping

-- ========================================================== transactions

/-- What a transaction ends with when its connection is lost. -/
def connectionLost : Failure := .error "Connection terminated"

/-- What the caller gets of a transaction, and what it left. -/
def reply {α : Type} (fault : Option Fault) (x : DbTx α) (db : Db) :
    Except Failure α × Db :=
  match fault with
  | none =>
      match x.run db with
      | .ok (a, db') => (.ok a, db')
      | .error e => (.error e, db)
  | some .refused => (.error connectionLost, db)
  | some .replyLost =>
      match x.run db with
      | .ok (_, db') => (.error connectionLost, db')
      | .error e => (.error e, db)

/-- What a transaction leaves when the connection breaks off so. -/
def committed {α : Type} (fault : Option Fault) (x : DbTx α) (db : Db) :
    Option (α × Db) :=
  if fault = some .refused then none else (x.run db).toOption

/-- What the outside answers a process during one step: the database's
time and the process's, drawn uuids, a fault. -/
structure Tick where
  cfg : Config
  now : Timestamp
  clock : Timestamp
  fault : Option Fault
  uuid₁ : Uuid
  uuid₂ : Uuid
  uuid₃ : Uuid

-- ================================================ resolveDisputeResolution

/-- What a caller is answered. -/
structure DisputeResolutionResult where
  dispute : ResolutionRow
  order : Option OrderRow
  newlyResolved : Bool
  escrowExecuted : Bool
  operationId : Uuid

/-- Where a call stands: the transaction it runs next. -/
inductive Phase where
  | claim
  | escrow (row : ResolutionRow) (operationId : Uuid)
  /-- `finalizeIfApplied` after the escrow operation threw. -/
  | rescue (operationId : Uuid) (error : Failure)
  | finalize (operationId : Uuid) (order : Option OrderRow)
  | markFailed (operationId : Uuid) (error : Failure)

/-- A call under way. -/
structure Resolver where
  input : ResolveInput
  phase : Phase

/-- After a transaction: the next one, or the end of the call. -/
inductive Progress where
  | next (phase : Phase)
  | ended (answer : Except Failure DisputeResolutionResult)

/-- What a claim leads to. -/
def afterClaim (claim : ResolutionClaim) : Progress :=
  match claim.row.dispute.resolutionOperationId with
  | none => .ended (.error
      (.error "Claimed dispute is missing a resolution operation ID"))
  | some operationId =>
      if claim.alreadyResolved then
        .ended (.ok ⟨claim.row, none, false, false, operationId⟩)
      else if claim.shouldExecuteEscrow then
        .next (.escrow claim.row operationId)
      else .next (.finalize operationId none)

/-- After a finalization; `error` is what the call throws where the order
has not got there. -/
def afterFinalize (operationId : Uuid) (order : Option OrderRow)
    (error : Failure) : Option (ResolutionRow × Bool) → Progress
  | some (row, newlyResolved) =>
      .ended (.ok ⟨row, order, newlyResolved, order.isSome, operationId⟩)
  | none => .next (.markFailed operationId error)

/-- `Escrow operation did not reach the expected terminal …`. -/
def notReached : Failure :=
  conflict "Escrow operation did not reach the expected terminal order status"

namespace Resolver

variable (r : Resolver) (t : Tick)

/-- The first transaction of a call. -/
def claim : DbTx ResolutionClaim :=
  claimResolution r.input t.now t.clock t.uuid₁

/-- The refund or the release, by the admin of the claim. -/
def escrowOperation (row : ResolutionRow) : DbTx OrderRow :=
  let adminId := ActorId.user (row.dispute.adminId.getD r.input.adminId)
  match r.input.decision with
  | .refund => refundEscrow t.cfg t.now
      ⟨row.dispute.orderId, some adminId, t.uuid₁, t.uuid₂⟩
  | .release => releaseEscrow t.cfg t.now
      ⟨row.dispute.orderId, some adminId, some .dispute, none, t.uuid₃,
        t.uuid₁, t.uuid₂⟩

/-- The one that closes the dispute. -/
def finalize (operationId : Uuid) :
    DbTx (Option (ResolutionRow × Bool)) :=
  finalizeIfApplied r.input.disputeId r.input.decision operationId t.now
    t.uuid₁ t.uuid₂

/-- The one that records a failure. -/
def markFailed (operationId : Uuid) (error : Failure) : DbTx Unit :=
  markResolutionFailed r.input.disputeId operationId error

/-- One transaction of the call. -/
def step (db : Db) : Progress × Db :=
  match r.phase with
  | .claim => (reply t.fault (r.claim t) db).map
      (fun
        | .ok claim => afterClaim claim
        | .error e => .ended (.error e)) id
  | .escrow row operationId =>
      (reply t.fault (r.escrowOperation t row) db).map
        (fun
        | .ok order => .next (.finalize operationId (some order))
        | .error e => .next (.rescue operationId e)) id
  | .rescue operationId error =>
      (reply t.fault (r.finalize t operationId) db).map
        (fun
        | .ok applied => afterFinalize operationId none error applied
        | .error e => .ended (.error e)) id
  | .finalize operationId order =>
      (reply t.fault (r.finalize t operationId) db).map
        (fun
        | .ok finalized => afterFinalize operationId order notReached finalized
        | .error e => .ended (.error e)) id
  | .markFailed operationId error =>
      (reply t.fault (r.markFailed operationId error) db).map
        (fun
        | .ok _ => .ended (.error error)
        | .error e => .ended (.error e)) id

end Resolver

-- =============================================================== processes

/-- A process: the disputes that its recovery run has still to visit, its
call under way, and how its calls ended. -/
structure Process where
  queue : List Uuid
  call : Option Resolver
  answers : List (Except Failure DisputeResolutionResult)

namespace Process

/-- A process without a call. -/
def idle : Process := ⟨[], none, []⟩

/-- Nothing under way and nothing to visit. -/
def Free (p : Process) : Prop := p.queue = [] ∧ p.call.isNone

instance (p : Process) : Decidable p.Free :=
  inferInstanceAs (Decidable (_ ∧ _))

/-- A process takes a call. -/
def start (p : Process) (input : ResolveInput) : Process :=
  { p with call := some ⟨input, .claim⟩ }

/-- What a transaction leads to. -/
def after (p : Process) (r : Resolver) : Progress → Process
  | .next phase => { p with call := some ⟨r.input, phase⟩ }
  | .ended answer => { p with call := none, answers := p.answers ++ [answer] }

end Process

/-- By start of the attempt, then by id. -/
def Dispute.Before (d d' : Dispute) : Prop :=
  d.resolvingStartedAt.getD 0 < d'.resolvingStartedAt.getD 0
    ∨ d.resolvingStartedAt.getD 0 = d'.resolvingStartedAt.getD 0
      ∧ d.id.bits.toNat ≤ d'.id.bits.toNat

instance : DecidableRel Dispute.Before := fun _ _ =>
  inferInstanceAs (Decidable (_ ∨ _ ∧ _))

/-- The first SELECT of `recoverStaleDisputeResolutions`. -/
def Db.staleDisputes (db : Db) (disputeId : Option Uuid) (now : Timestamp) :
    List Uuid :=
  (((db.disputes.rows.filter fun d => d.status = .resolving
    ∧ (d.resolvingStartedAt.any fun at_ => at_ + staleResolutionMs ≤ now)
    ∧ disputeId.all fun id => d.id = id).insertionSort
      Dispute.Before).take 25).map Dispute.id

/-- The second SELECT, and the call that its row leads to; `none` where
the dispute is skipped. -/
def Db.recovery (db : Db) (disputeId : Uuid) : Option ResolveInput := do
  let d ← (db.disputes.find? disputeId).filter fun d => d.status = .resolving
  let decision ← d.resolutionDecision
  let operationId ← d.resolutionOperationId
  let adminId ← d.adminId
  return {
    disputeId := disputeId
    decision := decision
    adminId := adminId
    adminNote := d.adminNote.getD "Recovered stale dispute resolution"
    expectedOperationId := some operationId
    allowStale := true }

/-- The next dispute of a recovery run. -/
def Process.visit (p : Process) (db : Db) (disputeId : Uuid)
    (rest : List Uuid) : Process :=
  { p with
    queue := rest
    call := (db.recovery disputeId).map fun input => ⟨input, .claim⟩ }

-- ============================================================== the system

/-- What a finalization has added to the history, and the order's chat at
the time. -/
structure Resolution where
  disputeId : Uuid
  chat : Option Conversation
  events : List OrderEvent
  messages : List SystemMessage
  outbox : List OutboxEvent

/-- The database, and where each process stands. -/
structure Saga where
  db : Db
  process : Nat → Process
  settlements : List Uuid
  resolutions : List Resolution

/-- Before any call. -/
def Saga.start (db : Db) : Saga := ⟨db, fun _ => .idle, [], []⟩

/-- What may happen next. -/
inductive Event where
  | resolve (p : Nat) (input : ResolveInput)
  | recover (p : Nat) (disputeId : Option Uuid) (now : Timestamp)
  | advance (p : Nat) (tick : Tick)
  | call (call : Call)

/-- The order that a call settles, if it settles one. -/
def Call.settles (call : Call) (db : Db) : List Uuid :=
  match call.op with
  | .releaseEscrow input =>
      if (committed none (releaseEscrow call.cfg call.now input) db).isSome
      then [input.orderId] else []
  | .refundEscrow input =>
      if (committed none (refundEscrow call.cfg call.now input) db).isSome
      then [input.orderId] else []
  | _ => []

/-- The order that a step of a resolution settles, if it settles one. -/
def Resolver.settles (r : Resolver) (t : Tick) (db : Db) : List Uuid :=
  match r.phase with
  | .escrow row _ =>
      if (committed t.fault (r.escrowOperation t row) db).isSome
      then [row.dispute.orderId] else []
  | _ => []

/-- Read off the states before and after. -/
def Resolution.between (disputeId : Uuid) (db db' : Db) : Resolution where
  disputeId := disputeId
  chat := do
    let d ← db.disputes.find? disputeId
    db.conversations.find? d.orderId
  events := db'.orderEvents.drop db.orderEvents.length
  messages := db'.messages.rows.drop db.messages.rows.length
  outbox := db'.domainOutbox.rows.drop db.domainOutbox.rows.length

/-- What a finalization that closed the dispute has written. -/
def resolutionOf (disputeId : Uuid) (db : Db) :
    Option (Option (ResolutionRow × Bool) × Db) → List Resolution
  | some (some (_, true), db') => [.between disputeId db db']
  | _ => []

/-- The resolution that a step finalizes, if it finalizes one. -/
def Resolver.resolves (r : Resolver) (t : Tick) (db : Db) :
    List Resolution :=
  match r.phase with
  | .rescue operationId _ | .finalize operationId _ =>
      resolutionOf r.input.disputeId db
        (committed t.fault (r.finalize t operationId) db)
  | _ => []

namespace Saga

variable (s : Saga)

/-- A process goes on. -/
def setProcess (p : Nat) (pr : Process) : Saga :=
  { s with process := fun q => if q = p then pr else s.process q }

/-- A process takes its next step. -/
def advance (p : Nat) (t : Tick) : Saga :=
  match (s.process p).call with
  | some r =>
      let answer := r.step t s.db
      { s.setProcess p ((s.process p).after r answer.1) with
        db := answer.2
        settlements := s.settlements ++ r.settles t s.db
        resolutions := s.resolutions ++ r.resolves t s.db }
  | none =>
      match (s.process p).queue with
      | [] => s
      | id :: rest => s.setProcess p ((s.process p).visit s.db id rest)

/-- One event. -/
def step : Event → Saga
  | .resolve p input =>
      if (s.process p).Free then s.setProcess p ((s.process p).start input)
      else s
  | .recover p disputeId now =>
      if (s.process p).Free then
        s.setProcess p
          { s.process p with queue := s.db.staleDisputes disputeId now }
      else s
  | .advance p t => s.advance p t
  | .call c =>
      { s with
        db := c.step s.db
        settlements := s.settlements ++ c.settles s.db }

end Saga

-- ============================================= what the other calls leave

/-- No call but these transactions writes the outcome of a dispute. -/
theorem Moved.history {drawn : Option String} {db db' : Db}
    (h : Moved drawn db db') : HistoryGrew db db' := by
  cases h with
  | idle => exact .of_eq rfl rfl rfl
  | created h => exact h.history
  | walked h _ => exact h.history
  | disputed h =>
      cases h with
      | repeated => exact .of_eq rfl rfl rfl
      | opened _ _ _ _ walked => exact walked.history
  | captured h => exact h.frame.history
  | released h => exact h.frame.history
  | refunded h => exact h.frame.history
  | toppedUp h =>
      cases h with
      | repeated _ _ => exact .of_eq rfl rfl rfl
      | credited _ _ _ _ _ frame => exact frame.history
  | withdrawn h => exact h.frame.history
  | adjusted h _ => exact h.frame.history
  | rejected h => exact h.frame.history
  | paid h =>
      rw [h.db_eq]
      exact .of_eq rfl rfl rfl
  | userUpdated h =>
      obtain ⟨_, rfl⟩ := h.rest
      exact .of_eq rfl rfl rfl

/-- A dispute that nobody has claimed yet. -/
structure Dispute.Unclaimed (d : Dispute) : Prop where
  status : d.status = .open
  decision : d.resolutionDecision = none
  operation : d.resolutionOperationId = none

/-- One step of the disputes by a call: none, or a new one, whose order
goes to `disputed`. -/
inductive DisputesStep (db db' : Db) : Prop where
  | same (h : db'.disputes = db.disputes)
  | opened {d : Dispute} {o o' : OrderRow} (unclaimed : d.Unclaimed)
      (order_eq : o.id = d.orderId) (disputed : o'.status = .disputed)
      (moved : OrderMoved db.orders db'.orders o o')
      (unique : db.disputeOf d.orderId = none)
      (inserted : db.disputes.insert? d = some db'.disputes)

/-- A call of the money core opens a dispute at most. -/
theorem Moved.disputes {drawn : Option String} {db db' : Db}
    (h : Moved drawn db db') : DisputesStep db db' := by
  cases h with
  | idle => exact .same rfl
  | created h => exact .same h.disputes
  | walked _ h => exact .same h
  | disputed h =>
      cases h with
      | repeated => exact .same rfl
      | opened order_eq disputed unique inserted walked =>
          exact .opened ⟨rfl, rfl, rfl⟩ order_eq disputed walked.moved unique
            inserted
  | captured h => exact .same h.frame.disputes
  | released h => exact .same h.frame.disputes
  | refunded h => exact .same h.frame.disputes
  | toppedUp h =>
      cases h with
      | repeated _ _ => exact .same rfl
      | credited _ _ _ _ _ frame => exact .same frame.disputes
  | withdrawn h => exact .same h.frame.disputes
  | adjusted h _ => exact .same h.frame.disputes
  | rejected h => exact .same h.frame.disputes
  | paid h =>
      rw [h.db_eq]
      exact .same rfl
  | userUpdated h =>
      obtain ⟨_, rfl⟩ := h.rest
      exact .same rfl

-- ===================================================== what a step can do

/-- What a step has done to the database, the order it settled, and the
resolution it finalized. -/
inductive Effect (db : Db) : Db → List Uuid → List Resolution → Prop where
  | moved {drawn : Option String} {db' : Db} (h : Moved drawn db db') :
      Effect db db' [] []
  | settled {drawn : Option String} {db' : Db} {o o' : OrderRow}
      (h : Moved drawn db db') (edge : canTransitionOrder o.status o'.status)
      (moved : OrderMoved db.orders db'.orders o o')
      (settled : o'.status.Settled) : Effect db db' [o.id] []
  | marked {d d' : Dispute} (found : db.disputes.find? d.id = some d)
      (id_eq : d'.id = d.id) (order_eq : d'.orderId = d.orderId)
      (unresolved : d.status ≠ .resolved)
      (status : d'.status = .resolving ∨ d'.status = .resolutionFailed)
      (kept : d.status = .open
        ∨ d'.resolutionDecision = d.resolutionDecision
          ∧ d'.resolutionOperationId = d.resolutionOperationId)
      (accepted : d'.Accepted db) : Effect db (db.putDispute d') [] []
  | finalized {d : Dispute} {o : OrderRow} {decision : DisputeDecision}
      {operationId resolutionId outcomeId : Uuid} {now : Timestamp} {db' : Db}
      (found : db.disputes.find? d.id = some d)
      (order : db.orders.find? d.orderId = some o)
      (matching : Matching d decision (some operationId))
      (unresolved : d.status ≠ .resolved)
      (terminal : terminalDecision o.status = some decision)
      (accepted : (d.finalized now).Accepted db)
      (recorded : ResolutionRecorded ((d.finalized now).row o) decision
        operationId resolutionId outcomeId
        (db.putDispute (d.finalized now)) db') :
      Effect db db' [] [.between d.id db db']

/-- A step that leaves the database alone. -/
theorem Effect.idle {db : Db} : Effect db db [] [] := by
  have hidle : Moved none db db := .idle
  exact .moved hidle

/-- The caller's answer aside, a transaction committed or did nothing. -/
theorem reply_cases {α : Type} (fault : Option Fault) (x : DbTx α) (db : Db) :
    (∃ a, committed fault x db = some (a, (reply fault x db).2)
        ∧ Commits x db a (reply fault x db).2)
      ∨ committed fault x db = none ∧ (reply fault x db).2 = db := by
  unfold committed reply Commits
  cases h : x.run db with
  | error e =>
      right
      cases fault with
      | none => simp [Except.toOption]
      | some f => cases f <;> simp [Except.toOption]
  | ok r =>
      cases fault with
      | none => exact .inl ⟨r.1, by simp [Except.toOption], by simp⟩
      | some f =>
          cases f with
          | refused => right; simp
          | replyLost => exact .inl ⟨r.1, by simp [Except.toOption], by simp⟩

/-- Seen from the other clients there is no difference to an attempt. -/
theorem attempt_eq_reply {α : Type} (x : DbTx α) (db : Db) :
    attempt x db = (reply none x db).2 := by
  unfold attempt reply
  cases x.run db <;> rfl

/-- A transaction that settles an order when it commits. -/
theorem effect_of_reply {α : Type} {fault : Option Fault} {x : DbTx α}
    {db : Db} {id : Uuid}
    (hx : ∀ a db', Commits x db a db' → Effect db db' [id] []) :
    Effect db (reply fault x db).2
      (if (committed fault x db).isSome then [id] else []) [] := by
  rcases reply_cases fault x db with ⟨a, hc, h⟩ | ⟨hc, h⟩
  · rw [hc]
    exact hx a _ h
  · rw [hc, h]
    exact .idle

/-- Claims and failures move a dispute between attempts. -/
theorem ClaimStep.effect {input : ResolveInput} {now clock : Timestamp}
    {operationId : Uuid} {db db' : Db} {d : Dispute} {o : OrderRow}
    {claim : ResolutionClaim}
    (hfind : db.disputes.find? input.disputeId = some d)
    (h : ClaimStep input now clock operationId db d o claim db') :
    Effect db db' [] [] := by
  have hid := Table.key_of_find? hfind
  rw [← hid] at hfind
  cases h with
  | resolved _ => exact .idle
  | opened hs haccepted =>
      exact .marked hfind rfl rfl (by rw [hs]; nofun) (.inl rfl) (.inl hs)
        haccepted
  | retried hs haccepted =>
      refine .marked hfind rfl rfl ?_ (.inl rfl) (.inr ⟨rfl, rfl⟩) haccepted
      rcases hs with hs | ⟨hs, -⟩ <;> rw [hs] <;> nofun
  | applied _ _ => exact .idle

/-- A recorded failure settles and resolves nothing. -/
theorem FailStep.effect {disputeId operationId : Uuid} {error : Failure}
    {db db' : Db} (h : FailStep disputeId operationId error db db') :
    Effect db db' [] [] := by
  cases h with
  | passed _ => exact .idle
  | failed hfind hop hs haccepted =>
      have hid := Table.key_of_find? hfind
      rw [← hid] at hfind
      exact .marked hfind rfl rfl (by rw [hs]; nofun) (.inr rfl)
        (.inr ⟨rfl, rfl⟩) haccepted

/-- A release settles its order. -/
theorem Released.effect {input : ReleaseEscrowInput} {db db' : Db}
    {o o' : OrderRow} (h : Released input db db' o o') :
    Effect db db' [input.orderId] [] := by
  rw [← h.order_eq]
  have hmoved : Moved none db db' := .released h
  refine .settled hmoved ?_ h.moved (.inl h.completed)
  rw [h.completed]
  exact h.edge

/-- So does a refund. -/
theorem Refunded.effect {input : RefundEscrowInput} {db db' : Db}
    {o o' : OrderRow} (h : Refunded input db db' o o') :
    Effect db db' [input.orderId] [] := by
  rw [← h.order_eq]
  have hmoved : Moved none db db' := .refunded h
  refine .settled hmoved ?_ h.moved (.inr h.refunded)
  rw [h.refunded]
  exact h.edge

/-- The escrow operation of a call settles the disputed order. -/
theorem Resolver.effect_of_escrow {r : Resolver} {t : Tick}
    {row : ResolutionRow} {db db' : Db} {o : OrderRow}
    (h : Commits (r.escrowOperation t row) db o db') :
    Effect db db' [row.dispute.orderId] [] := by
  unfold Resolver.escrowOperation at h
  split at h
  · obtain ⟨_, h⟩ := refundEscrow_refunded h
    exact h.effect
  · obtain ⟨_, h⟩ := releaseEscrow_released h
    exact h.effect

/-- The finalization resolves its dispute, or nothing. -/
theorem Resolver.effect_of_finalize {r : Resolver} {t : Tick}
    {operationId : Uuid} {db db' : Db} {a : Option (ResolutionRow × Bool)}
    (h : Commits (r.finalize t operationId) db a db') :
    Effect db db' [] (resolutionOf r.input.disputeId db (some (a, db'))) := by
  obtain ⟨d, o, hfind, horder, hmatching, hstep⟩ :=
    commits_finalizeIfApplied.mp h
  cases hstep with
  | resolved _ => exact .idle
  | notApplied _ _ => exact .idle
  | finalized hs ht haccepted hrecorded =>
      have hid := Table.key_of_find? hfind
      rw [← hid] at hfind ⊢
      exact .finalized hfind horder hmatching hs ht haccepted hrecorded

/-- One transaction of a call. -/
theorem Resolver.step_effect (r : Resolver) (t : Tick) (db : Db) :
    Effect db (r.step t db).2 (r.settles t db) (r.resolves t db) := by
  obtain ⟨input, phase⟩ := r
  cases phase with
  | claim =>
      rcases reply_cases t.fault (Resolver.claim ⟨input, .claim⟩ t) db
        with ⟨a, -, h⟩ | ⟨-, h⟩
      · obtain ⟨d, o, hfind, -, -, -, hstep⟩ := commits_claimResolution.mp h
        exact hstep.effect hfind
      · show Effect db (reply _ _ _).2 [] []
        rw [h]
        exact .idle
  | escrow row operationId =>
      exact effect_of_reply fun _ _ h => Resolver.effect_of_escrow h
  | rescue operationId error =>
      show Effect db (reply _ _ _).2 [] (resolutionOf _ _ _)
      rcases reply_cases t.fault (Resolver.finalize
        ⟨input, .rescue operationId error⟩ t operationId) db
        with ⟨a, hc, h⟩ | ⟨hc, h⟩
      · rw [hc]
        exact Resolver.effect_of_finalize h
      · rw [hc, h]
        exact .idle
  | finalize operationId order =>
      show Effect db (reply _ _ _).2 [] (resolutionOf _ _ _)
      rcases reply_cases t.fault (Resolver.finalize
        ⟨input, .finalize operationId order⟩ t operationId) db
        with ⟨a, hc, h⟩ | ⟨hc, h⟩
      · rw [hc]
        exact Resolver.effect_of_finalize h
      · rw [hc, h]
        exact .idle
  | markFailed operationId error =>
      show Effect db (reply _ _ _).2 [] []
      rcases reply_cases t.fault (Resolver.markFailed
        ⟨input, .markFailed operationId error⟩ operationId error) db
        with ⟨a, -, h⟩ | ⟨-, h⟩
      · exact (commits_markResolutionFailed.mp h).effect
      · rw [h]
        exact .idle

/-- One call of the rest of the money core. -/
theorem Call.step_effect (c : Call) (db : Db) :
    Effect db (c.step db) (c.settles db) [] := by
  obtain ⟨cfg, now, op⟩ := c
  cases op with
  | releaseEscrow input =>
      show Effect db (attempt (releaseEscrow cfg now input) db) _ []
      rw [attempt_eq_reply]
      refine effect_of_reply fun _ _ h => ?_
      obtain ⟨_, h⟩ := releaseEscrow_released h
      exact h.effect
  | refundEscrow input =>
      show Effect db (attempt (refundEscrow cfg now input) db) _ []
      rw [attempt_eq_reply]
      refine effect_of_reply fun _ _ h => ?_
      obtain ⟨_, h⟩ := refundEscrow_refunded h
      exact h.effect
  | _ => exact .moved (Call.moved db _)

/-- One step of the system. -/
theorem Saga.step_effect (s : Saga) (e : Event) :
    ∃ settled resolved, Effect s.db (s.step e).db settled resolved
      ∧ (s.step e).settlements = s.settlements ++ settled
      ∧ (s.step e).resolutions = s.resolutions ++ resolved := by
  have hidle : ∃ settled resolved, Effect s.db s.db settled resolved
      ∧ s.settlements = s.settlements ++ settled
      ∧ s.resolutions = s.resolutions ++ resolved :=
    ⟨[], [], .idle, (List.append_nil _).symm,
      (List.append_nil _).symm⟩
  cases e with
  | resolve p input =>
      by_cases hfree : (s.process p).Free
      · rw [show s.step (.resolve p input) = s.setProcess p _
          from if_pos hfree]
        exact hidle
      · rw [show s.step (.resolve p input) = s from if_neg hfree]
        exact hidle
  | recover p disputeId now =>
      by_cases hfree : (s.process p).Free
      · rw [show s.step (.recover p disputeId now) = s.setProcess p _
          from if_pos hfree]
        exact hidle
      · rw [show s.step (.recover p disputeId now) = s from if_neg hfree]
        exact hidle
  | advance p t =>
      show ∃ settled resolved, Effect s.db (s.advance p t).db settled resolved
        ∧ (s.advance p t).settlements = _ ∧ (s.advance p t).resolutions = _
      unfold Saga.advance
      split
      · exact ⟨_, _, Resolver.step_effect _ t s.db, rfl, rfl⟩
      · split
        · exact hidle
        · exact hidle
  | call c =>
      exact ⟨_, _, c.step_effect s.db, rfl, (List.append_nil _).symm⟩

end Skrynia
