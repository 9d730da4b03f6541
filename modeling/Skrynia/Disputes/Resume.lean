/-
When a claimed dispute can be finished.

A lone call of `resolveDisputeResolution` on a dispute whose attempt
failed or went stale settles the order and closes the dispute exactly
when the user that the first claim recorded as its admin still has the
role, and the columns that are written have room (`Resumable`). Whoever
calls, the escrow operation runs in the name of that user, and the order
transition looks up the user's role again; so a dispute that was claimed
by an admin who is demoted since stays unresolved for all callers
(`demoted_claimant_stuck`).

# Reading the proof

The call takes up to four transactions. Until the escrow operation
commits, no transaction of it writes an order (`PastEscrow`): where the
claim or the escrow operation is refused, the order stays disputed. Where
both commit, the finalization has nothing left to check.
-/
import Skrynia.Orders.Success
import Skrynia.Market.Backing
import Skrynia.Disputes.SingleOutcome

namespace Skrynia

open Relational Stepping

-- ========================================================= what orders hold

/-- The fee of an order in escrow is part of its amount. -/
def FeesBounded (t : Table OrderRow.id) : Prop :=
  ∀ {id o}, t.find? id = some o → o.status.Escrowed →
    o.feeCents.val ≤ o.amountCents.val

namespace FeesBounded

variable {t t' : Table OrderRow.id}

/-- A new order is not in escrow. -/
theorem inserted (h : FeesBounded t) {o : OrderRow}
    (hpending : o.status = .pending) (hinsert : t.insert? o = some t') :
    FeesBounded t' := by
  intro id x hfind hs
  rw [Table.find?_insert hinsert] at hfind
  split at hfind
  · cases hfind
    rw [hpending] at hs
    cases hs
  · exact h hfind hs

/-- An order that moves keeps its fee within its amount. -/
theorem moved (h : FeesBounded t) {o o' : OrderRow}
    (hmoved : OrderMoved t t' o o')
    (hfee : o'.status.Escrowed → o'.feeCents.val ≤ o'.amountCents.val) :
    FeesBounded t' := by
  intro id x hfind hs
  rw [hmoved.table_eq, Table.find?_set] at hfind
  by_cases hid : o'.id = id
  · rw [if_pos hid, ← hid, hmoved.id_eq, hmoved.found] at hfind
    cases hfind
    exact hfee hs
  · rw [if_neg hid] at hfind
    exact h hfind hs

/-- And so along a walk. -/
theorem walked {db db' : Db} {o o' : OrderRow} (h : FeesBounded db.orders)
    (hwalked : Walked db db' o o') : FeesBounded db'.orders := by
  refine h.moved hwalked.moved ?_
  intro hs
  rw [hwalked.fee_eq, hwalked.moved.amount_eq]
  rcases walked_statuses hwalked.edge hwalked.unsettled hwalked.unpaid with
    ⟨-, hs'⟩ | ⟨hs', -⟩
  · rw [hs'] at hs
    cases hs
  · exact h hwalked.moved.found hs'

end FeesBounded

/-- No operation puts an order into escrow whose fee exceeds its amount. -/
theorem Moved.feesBounded {drawn : Option String} {db db' : Db}
    (h : Moved drawn db db') (hdb : FeesBounded db.orders) :
    FeesBounded db'.orders := by
  cases h with
  | idle => exact hdb
  | created h => exact hdb.inserted h.pending h.inserted
  | walked h _ => exact hdb.walked h
  | disputed h =>
      cases h with
      | repeated => exact hdb
      | opened _ _ _ _ walked => exact hdb.walked walked
  | captured h => exact hdb.moved h.moved fun _ => h.fee_le
  | released h =>
      refine hdb.moved h.moved fun hs => ?_
      rw [h.completed] at hs
      cases hs
  | refunded h =>
      refine hdb.moved h.moved fun hs => ?_
      rw [h.refunded] at hs
      cases hs
  | toppedUp h =>
      cases h with
      | repeated _ _ => exact hdb
      | credited _ _ _ _ _ frame =>
          rw [frame.orders]
          exact hdb
  | withdrawn h =>
      rw [h.frame.orders]
      exact hdb
  | adjusted h _ =>
      rw [h.frame.orders]
      exact hdb
  | rejected h =>
      rw [h.frame.orders]
      exact hdb
  | paid h =>
      rw [h.db_eq]
      exact hdb
  | userUpdated h =>
      obtain ⟨_, rfl⟩ := h.rest
      exact hdb

/-- What an escrow operation relies on. -/
structure EscrowSound (db : Db) : Prop where
  backed : Backed db
  fees : FeesBounded db.orders

/-- It is about wallets and orders only. -/
theorem EscrowSound.congr {db db' : Db} (h : EscrowSound db)
    (hwallets : db'.wallets = db.wallets)
    (hplatform : db'.platformWallets = db.platformWallets)
    (horders : db'.orders = db.orders) : EscrowSound db' := by
  refine ⟨?_, ?_⟩
  · intro u c
    rw [Db.balance_congr hwallets hplatform, horders]
    exact h.backed u c
  · rw [horders]
    exact h.fees

/-- Resolutions write neither orders nor wallets of their own. -/
theorem EscrowSound.effect {db db' : Db} {settled : List Uuid}
    {resolved : List Resolution} (h : EscrowSound db)
    (heffect : Effect db db' settled resolved) : EscrowSound db' := by
  cases heffect with
  | moved hmoved => exact ⟨hmoved.backed h.backed, hmoved.feesBounded h.fees⟩
  | settled hmoved _ _ _ =>
      exact ⟨hmoved.backed h.backed, hmoved.feesBounded h.fees⟩
  | marked _ _ _ _ _ _ _ => exact h.congr rfl rfl rfl
  | finalized _ _ _ _ _ _ recorded =>
      obtain ⟨_, _, _, _, -, -, rfl⟩ := recorded
      exact h.congr (by simp) (by simp) (by simp)

/-- Escrow is covered in every run. -/
theorem EscrowSound.run {s : Saga} (h : EscrowSound s.db)
    (events : List Event) : EscrowSound (run Saga.step s events).db := by
  refine run_keeps (P := fun s : Saga => EscrowSound s.db) ?_ h events
  intro s e hs
  obtain ⟨_, _, heffect, -⟩ := s.step_effect e
  exact hs.effect heffect

/-- Before anything was paid. -/
theorem Opening.escrowSound {db : Db} (h : Opening db) (hp : AllPending db) :
    EscrowSound db := by
  refine ⟨h.backed hp, ?_⟩
  intro id o hfind hs
  rw [hp o (Table.mem_of_find? hfind)] at hs
  cases hs

/-- An order under dispute has its amount in escrow. -/
theorem EscrowSound.disputedOrder {db : Db} (h : EscrowSound db) {id : Uuid}
    {o : OrderRow} (hfind : db.orders.find? id = some o)
    (hs : o.status = .disputed) : DisputedOrder db id o := by
  have hescrowed : o.status.Escrowed := by
    rw [hs]
    trivial
  exact ⟨hfind, hs, h.fees hfind hescrowed, h.backed.covers hfind hescrowed⟩

-- ============================================================== a lone call

section Lone

variable {s : Saga} {p : Nat} {t : Tick} {r : Resolver}

/-- A process with a call under way runs its next transaction. -/
theorem Saga.advance_of_call (h : (s.process p).call = some r) :
    (s.advance p t).db = (r.step t s.db).2
      ∧ (s.advance p t).process p
        = (s.process p).after r (r.step t s.db).1 := by
  unfold Saga.advance
  rw [h]
  exact ⟨rfl, if_pos rfl⟩

/-- A process without a call does nothing. -/
theorem Saga.advance_of_free (h : (s.process p).Free) : s.advance p t = s := by
  obtain ⟨hqueue, hcall⟩ := h
  unfold Saga.advance
  rw [Option.isNone_iff_eq_none.mp hcall, hqueue]

/-- What a transaction of a call leaves, and answers, without a fault. -/
theorem reply_none_of_commits {α : Type} {x : DbTx α} {db db' : Db} {a : α}
    (h : Commits x db a db') : reply none x db = (.ok a, db') := by
  unfold reply
  rw [show x.run db = .ok (a, db') from h]

/-- A transaction that cannot succeed is answered with its error and leaves
nothing. -/
theorem reply_none_of_not_succeeds {α : Type} {x : DbTx α} {db : Db}
    (h : ¬ Succeeds x db) : ∃ e, reply none x db = (.error e, db) := by
  unfold reply
  cases hx : x.run db with
  | error e => exact ⟨e, rfl⟩
  | ok result => exact absurd ⟨result.1, result.2, hx⟩ h

/-- A phase after the escrow operation. -/
def Phase.PastEscrow : Phase → Prop
  | .claim | .escrow _ _ => False
  | .rescue _ _ | .finalize _ _ | .markFailed _ _ => True

/-- Nothing to visit, and the call under way has its escrow operation
behind it. -/
structure Process.PastEscrow (pr : Process) : Prop where
  queue : pr.queue = []
  call : ∀ {r}, pr.call = some r → r.phase.PastEscrow

/-- What a call answers does not add to the queue. -/
theorem Process.queue_after {pr : Process} {progress : Progress} :
    (pr.after r progress).queue = pr.queue := by
  cases progress <;> rfl

/-- A call that has ended has nothing before it. -/
theorem Process.pastEscrow_ended {pr : Process} (hqueue : pr.queue = [])
    (answer : Except Failure DisputeResolutionResult) :
    (pr.after r (.ended answer)).PastEscrow := by
  refine ⟨hqueue, ?_⟩
  intro r' hr'
  cases hr'

/-- After the finalization the call ends or records its failure. -/
theorem afterFinalize_pastEscrow {pr : Process} (hqueue : pr.queue = [])
    (operationId : Uuid) (order : Option OrderRow) (error : Failure)
    (answer : Except Failure (Option (ResolutionRow × Bool))) :
    (pr.after r (match answer with
      | .ok applied => afterFinalize operationId order error applied
      | .error e => .ended (.error e))).PastEscrow := by
  cases answer with
  | error e => exact Process.pastEscrow_ended hqueue _
  | ok applied =>
      cases applied with
      | none =>
          refine ⟨hqueue, ?_⟩
          intro r' hr'
          cases hr'
          trivial
      | some result => exact Process.pastEscrow_ended hqueue _

/-- From there on the call writes no order. -/
theorem finalize_orders {operationId : Uuid} {db : Db} :
    (reply t.fault (r.finalize t operationId) db).2.orders = db.orders := by
  rcases reply_cases t.fault (r.finalize t operationId) db with
    ⟨a, -, h⟩ | ⟨-, h⟩
  · obtain ⟨d, o, -, -, -, hstep⟩ := commits_finalizeIfApplied.mp h
    generalize (reply t.fault (r.finalize t operationId) db).2 = db' at hstep
    cases hstep with
    | resolved _ => rfl
    | notApplied _ _ => rfl
    | finalized _ _ _ recorded => exact recorded.tables.2
  · rw [h]

/-- A failure is recorded on the dispute only. -/
theorem markFailed_orders {operationId : Uuid} {error : Failure} {db : Db} :
    (reply t.fault (r.markFailed operationId error) db).2.orders
      = db.orders := by
  rcases reply_cases t.fault (r.markFailed operationId error) db with
    ⟨a, -, h⟩ | ⟨-, h⟩
  · have hstep := commits_markResolutionFailed.mp h
    generalize (reply t.fault (r.markFailed operationId error) db).2 = db'
      at hstep
    cases hstep with
    | passed _ => rfl
    | failed _ _ _ _ => rfl
  · rw [h]

/-- A call past its escrow operation leaves all orders as they are. -/
theorem Saga.advance_pastEscrow (h : (s.process p).PastEscrow) (t : Tick) :
    ((s.advance p t).process p).PastEscrow
      ∧ (s.advance p t).db.orders = s.db.orders := by
  cases hcall : (s.process p).call with
  | none =>
      have hfree : (s.process p).Free := ⟨h.queue, by rw [hcall]; rfl⟩
      rw [Saga.advance_of_free hfree]
      exact ⟨h, rfl⟩
  | some r =>
      obtain ⟨hdb, hprocess⟩ := Saga.advance_of_call (t := t) hcall
      have hphase := h.call hcall
      rw [hdb, hprocess]
      obtain ⟨input, phase⟩ := r
      cases phase with
      | claim => cases hphase
      | escrow _ _ => cases hphase
      | rescue operationId error =>
          exact ⟨afterFinalize_pastEscrow h.queue _ _ _ _, finalize_orders⟩
      | finalize operationId order =>
          exact ⟨afterFinalize_pastEscrow h.queue _ _ _ _, finalize_orders⟩
      | markFailed operationId error =>
          refine ⟨⟨Process.queue_after.trans h.queue, ?_⟩, markFailed_orders⟩
          intro r' hr'
          unfold Resolver.step at hr'
          dsimp only [Prod.map] at hr'
          split at hr' <;> cases hr'

end Lone

-- ================================================= the transactions, alone

/-- A claimed dispute whose attempt failed or went stale, its order still
disputed, and a call that repeats the persisted decision. -/
structure Interrupted (db : Db) (input : ResolveInput) (clock : Timestamp)
    (d : Dispute) (o : OrderRow) : Prop where
  found : db.disputes.find? input.disputeId = some d
  order : db.orders.find? d.orderId = some o
  status : d.status = .resolutionFailed ∨ d.status = .resolving
    ∧ d.resolvingStartedAt.getD 0 + staleResolutionMs ≤ clock
  disputed : o.status = .disputed
  decision : d.resolutionDecision = some input.decision
  operation : ∀ e ∈ input.expectedOperationId,
    d.resolutionOperationId = some e
  allowStale : input.allowStale = true

/-- The columns that the escrow operation of a decision writes can hold
the new values. -/
def EscrowRoom (db : Db) (o : OrderRow) : DisputeDecision → Prop
  | .refund => RefundRoom db o
  | .release => ReleaseRoom db o

/-- The user in whose name the order is settled is an admin now, and the
columns written have room. -/
structure Resumable (db : Db) (input : ResolveInput) (d : Dispute)
    (o : OrderRow) : Prop where
  admin : db.IsAdmin (d.adminId.getD input.adminId)
  attempts : d.resolutionAttempts + 1 ≤ int4Max
  room : EscrowRoom db o input.decision

/-- Room is about the other tables. -/
theorem escrowRoom_putDispute {db : Db} {d : Dispute} {o : OrderRow}
    {decision : DisputeDecision} :
    EscrowRoom (db.putDispute d) o decision ↔ EscrowRoom db o decision := by
  cases decision with
  | refund => exact Iff.rfl
  | release =>
      constructor
      · intro h
        exact ⟨h.available, h.platform, h.revenue, h.sales⟩
      · intro h
        exact ⟨h.available, h.platform, h.revenue, h.sales⟩

section Alone

variable {db db' : Db} {input : ResolveInput} {clock now : Timestamp}
  {d : Dispute} {o : OrderRow}

/-- A dispute whose attempt failed or went stale has been claimed. -/
theorem Interrupted.claimed (h : Interrupted db input clock d o)
    (hdb : DisputesSound db) : d.Claimed := by
  rcases hdb.state h.found with hs | ⟨-, hclaimed⟩ | ⟨hs, -⟩
  · rcases h.status with hs' | ⟨hs', -⟩ <;> rw [hs'] at hs <;> cases hs
  · exact hclaimed
  · rcases h.status with hs' | ⟨hs', -⟩ <;> rw [hs'] at hs <;> cases hs

/-- The operation id of a dispute in the table stays its own. -/
theorem DisputesSound.operationFree (h : DisputesSound db)
    (hfind : db.disputes.find? d.id = some d) {d' : Dispute}
    (hid : d'.id = d.id)
    (hop : d'.resolutionOperationId = d.resolutionOperationId) :
    d'.OperationFree db := by
  intro x hx hne heq
  rw [hid] at hne
  rw [hop] at heq ⊢
  exact h.operation hfind (Table.find?_of_mem hx) hne heq

/-- The claim has only the attempt counter to fear. -/
theorem Interrupted.claim_iff (h : Interrupted db input clock d o)
    (hdb : DisputesSound db) {operationId : Uuid} {claim : ResolutionClaim} :
    Commits (claimResolution input now clock operationId) db claim db'
      ↔ d.resolutionAttempts + 1 ≤ int4Max
        ∧ claim = claimOf (d.reclaimed now) (d.row o)
        ∧ db' = db.putDispute (d.reclaimed now) := by
  have hfind := h.found
  rw [← Table.key_of_find? h.found] at hfind
  have hterminal : terminalDecision o.status = none := by
    rw [h.disputed]
    rfl
  rw [commits_claimResolution]
  constructor
  · intro h
    obtain ⟨x, y, hx, hy, -, -, hstep⟩ := h
    rw [h.found] at hx
    cases hx
    rw [h.order] at hy
    cases hy
    cases hstep with
    | resolved hs =>
        rcases h.status with hs' | ⟨hs', -⟩ <;> rw [hs'] at hs <;> cases hs
    | opened hs _ =>
        rcases h.status with hs' | ⟨hs', -⟩ <;> rw [hs'] at hs <;> cases hs
    | retried _ haccepted => exact ⟨haccepted.attempts, rfl, rfl⟩
    | applied _ ht =>
        rw [hterminal] at ht
        cases ht
  · intro h
    obtain ⟨hattempts, rfl, rfl⟩ := h
    obtain ⟨hdecision, hoperation, -, hpos⟩ := h.claimed hdb
    refine ⟨d, o, h.found, h.order, ⟨?_, h.operation⟩, .inl h.disputed,
      .retried ?_ ⟨hattempts, ?_, ?_⟩⟩
    · intro persisted hp
      rw [h.decision] at hp
      cases hp
      rfl
    · rcases h.status with hs | ⟨hs, hstale⟩
      · exact .inl hs
      · exact .inr ⟨hs, by rw [hterminal]; nofun, h.allowStale, hstale⟩
    · exact .inr (.inl ⟨.inl rfl, hdecision, hoperation, rfl,
        Nat.succ_pos _⟩)
    · exact hdb.operationFree hfind rfl rfl

end Alone

/-- What the outside answers the steps of an undisturbed call: no fault,
ids that are new, and the transaction types that the release posts. -/
structure QuietTicks (db : Db) (t₁ t₂ t₃ t₄ : Tick) : Prop where
  faultless : ∀ t ∈ [t₁, t₂, t₃, t₄], t.fault = none
  types : t₂.cfg.transactionTypes = transactionTypes
  transaction₁ : ¬ db.transactions.Has t₂.uuid₁
  transaction₂ : ¬ db.transactions.Has t₂.uuid₂
  transactions : t₂.uuid₂ ≠ t₂.uuid₁
  message₁ : ¬ db.messages.Has t₃.uuid₁
  message₂ : ¬ db.messages.Has t₃.uuid₂
  messages : t₃.uuid₂ ≠ t₃.uuid₁

/-- A committed escrow operation of a resolution. -/
structure EscrowDone (decision : DisputeDecision) (db db' : Db)
    (o : OrderRow) : Prop where
  disputes : db'.disputes = db.disputes
  messages : db'.messages = db.messages
  order : ∃ o', db'.orders.find? o.id = some o'
    ∧ terminalDecision o'.status = some decision

section Operation

variable {r : Resolver} {t : Tick} {db db' : Db} {d : Dispute} {o : OrderRow}

/-- An escrow operation that commits has settled the order as decided. -/
theorem Resolver.escrowDone {a : OrderRow}
    (hfind : db.orders.find? d.orderId = some o)
    (h : Commits (r.escrowOperation t (d.row o)) db a db') :
    EscrowDone r.input.decision db db' o := by
  have hid := Table.key_of_find? hfind
  unfold Resolver.escrowOperation at h
  split at h
  · next hdecision =>
    obtain ⟨x, h⟩ := refundEscrow_refunded h
    have hx : x.id = o.id := h.order_eq.trans hid.symm
    refine ⟨h.frame.disputes, h.messages, a, ?_, ?_⟩
    · rw [← hx]
      exact h.moved.find?_eq
    · rw [h.refunded, hdecision]
      rfl
  · next hdecision =>
    obtain ⟨x, h⟩ := releaseEscrow_released h
    have hx : x.id = o.id := h.order_eq.trans hid.symm
    refine ⟨h.frame.disputes, h.messages rfl, a, ?_, ?_⟩
    · rw [← hx]
      exact h.moved.find?_eq
    · rw [h.completed, hdecision]
      rfl

/-- The escrow operation goes through exactly when the user of the claim
is an admin and there is room. -/
theorem Resolver.escrow_succeeds_iff (ho : DisputedOrder db d.orderId o)
    (htypes : t.cfg.transactionTypes = transactionTypes)
    (hfresh₁ : ¬ db.transactions.Has t.uuid₁)
    (hfresh₂ : ¬ db.transactions.Has t.uuid₂) (hne : t.uuid₂ ≠ t.uuid₁) :
    Succeeds (r.escrowOperation t (d.row o)) db
      ↔ db.IsAdmin (d.adminId.getD r.input.adminId)
        ∧ EscrowRoom db o r.input.decision := by
  unfold Resolver.escrowOperation EscrowRoom
  cases r.input.decision with
  | refund => exact commits_refundEscrow_iff ho rfl htypes hfresh₁ hfresh₂ hne
  | release =>
      exact commits_releaseEscrow_iff ho rfl rfl htypes hfresh₁ hfresh₂ hne

/-- A message with a new id is sent, or there is no chat. -/
theorem messaged_exists {id : Uuid} (orderId : Uuid) (systemType bodyKey : String)
    (params : List (String × String))
    (resolution : Option (DisputeDecision × Uuid))
    (hfresh : ¬ db.messages.Has id) :
    ∃ m t, Messaged db id orderId systemType bodyKey params resolution m t
      ∧ ∀ id', t.Has id' → db.messages.Has id' ∨ id' = id := by
  cases hchat : db.conversations.find? orderId with
  | none => exact ⟨none, _, .noChat hchat, fun _ h => .inl h⟩
  | some c =>
      cases hinsert : db.messages.insert?
          ⟨id, c.id, systemType, bodyKey, params, resolution⟩ with
      | none => exact absurd (Table.insert?_eq_none.mp hinsert) hfresh
      | some t =>
          exact ⟨some id, t, .sent hchat hinsert,
            fun _ h => (Table.has_insert hinsert).mp h⟩

/-- The messages of a resolution can be recorded under fresh ids. -/
theorem resolutionRecorded_exists {row : ResolutionRow}
    {decision : DisputeDecision} {operationId resolutionId outcomeId : Uuid}
    (hfresh₁ : ¬ db.messages.Has resolutionId)
    (hfresh₂ : ¬ db.messages.Has outcomeId) (hne : outcomeId ≠ resolutionId) :
    ∃ db', ResolutionRecorded row decision operationId resolutionId outcomeId
      db db' := by
  have hevent : ¬ (db.addOrderEvent (disputeResolvedEvent row.dispute decision
      operationId)).messages.Has resolutionId := hfresh₁
  obtain ⟨m₁, t₁, h₁, hhas⟩ := messaged_exists row.dispute.orderId
    "dispute_resolved" "system.disputeResolved"
    [("note", row.dispute.adminNote.getD "")] (some (decision, operationId))
    hevent
  have hsecond : ¬ t₁.Has outcomeId := by
    intro h
    rcases hhas _ h with h | h
    · exact hfresh₂ h
    · exact hne h
  obtain ⟨m₂, t₂, h₂, -⟩ := messaged_exists row.dispute.orderId
    (outcomeMessage decision).1 (outcomeMessage decision).2 [] none
    (show ¬ (Db.setMessages (db.addOrderEvent (disputeResolvedEvent
      row.dispute decision operationId)) t₁).messages.Has outcomeId
      from hsecond)
  exact ⟨_, m₁, t₁, m₂, t₂, h₁, h₂, rfl⟩

end Operation

-- ============================================================ the whole call

/-- A call by process `p` with nothing in between. -/
def loneCall (p : Nat) (input : ResolveInput) (t₁ t₂ t₃ t₄ : Tick) :
    List Event :=
  [.resolve p input, .advance p t₁, .advance p t₂, .advance p t₃,
    .advance p t₄]

/-- The dispute is resolved and its order went where the decision leads. -/
def Finished (db : Db) (input : ResolveInput) (d : Dispute) : Prop :=
  (db.disputes.find? input.disputeId).map Dispute.status = some .resolved
    ∧ (db.orders.find? d.orderId).map OrderRow.status
      = some input.decision.orderStatus

/-- The state of a call between its claim of `d` and the escrow operation. -/
structure Escrowing (s : Saga) (p : Nat) (input : ResolveInput) (d : Dispute)
    (o : OrderRow) (operationId : Uuid) : Prop where
  call : (s.process p).call = some ⟨input, .escrow (d.row o) operationId⟩
  queue : (s.process p).queue = []
  inv : SagaInv s
  sound : EscrowSound s.db
  found : s.db.disputes.find? input.disputeId = some d
  order : s.db.orders.find? d.orderId = some o
  disputed : o.status = .disputed
  claimed : d.Claimed
  status : d.status = .resolving
  decision : d.resolutionDecision = some input.decision
  operation : d.resolutionOperationId = some operationId
  attempts : d.resolutionAttempts ≤ int4Max

section Call

variable {s : Saga} {p : Nat} {input : ResolveInput} {d : Dispute}
  {o : OrderRow} {t₁ t₂ t₃ t₄ : Tick}

/-- With its order still disputed a dispute is not finished. -/
theorem not_finished {db : Db} (hfind : db.orders.find? d.orderId = some o)
    (hs : o.status = .disputed) : ¬ Finished db input d := by
  intro h
  obtain ⟨-, hstatus⟩ := h
  rw [hfind, Option.map_some, hs] at hstatus
  cases hdecision : input.decision <;> rw [hdecision] at hstatus <;>
    cases hstatus

/-- Where the claim is refused, nothing more happens. -/
theorem Interrupted.stops (h : Interrupted s.db input t₁.clock d o)
    (hinv : SagaInv s) (hcall : (s.process p).call = some ⟨input, .claim⟩)
    (hqueue : (s.process p).queue = []) (hfault : t₁.fault = none)
    (hattempts : ¬ d.resolutionAttempts + 1 ≤ int4Max) :
    ((s.advance p t₁).process p).PastEscrow
      ∧ (s.advance p t₁).db.orders = s.db.orders := by
  obtain ⟨hdb, hprocess⟩ := Saga.advance_of_call (t := t₁) hcall
  have hrefused : ¬ Succeeds (Resolver.claim ⟨input, .claim⟩ t₁) s.db := by
    intro h
    obtain ⟨claim, db', hclaim⟩ := h
    exact hattempts ((h.claim_iff hinv.disputes).mp hclaim).1
  obtain ⟨e, he⟩ := reply_none_of_not_succeeds hrefused
  have hstep : Resolver.step ⟨input, .claim⟩ t₁ s.db
      = (.ended (.error e), s.db) := by
    unfold Resolver.step
    rw [hfault]
    show Prod.map _ id (reply none _ s.db) = _
    rw [he]
    rfl
  rw [hdb, hprocess, hstep]
  exact ⟨Process.pastEscrow_ended hqueue _, rfl⟩

/-- The claim takes the dispute and goes on to the escrow operation. The row
was left failed or has gone stale, so neither its status nor another claimant
stands in the way. -/
theorem Interrupted.claims (h : Interrupted s.db input t₁.clock d o)
    (hinv : SagaInv s) (hescrow : EscrowSound s.db)
    (hcall : (s.process p).call = some ⟨input, .claim⟩)
    (hqueue : (s.process p).queue = []) (hfault : t₁.fault = none)
    (hattempts : d.resolutionAttempts + 1 ≤ int4Max) :
    (s.advance p t₁).db = s.db.putDispute (d.reclaimed t₁.now)
      ∧ ∃ operationId, Escrowing (s.advance p t₁) p input
        (d.reclaimed t₁.now) o operationId := by
  obtain ⟨hdb, hprocess⟩ := Saga.advance_of_call (t := t₁) hcall
  obtain ⟨hdecided, hoperated, -, -⟩ := h.claimed hinv.disputes
  obtain ⟨operationId, hoperation⟩ := Option.isSome_iff_exists.mp hoperated
  have hclaim : Commits (Resolver.claim ⟨input, .claim⟩ t₁) s.db
      (claimOf (d.reclaimed t₁.now) (d.row o))
      (s.db.putDispute (d.reclaimed t₁.now)) :=
    (h.claim_iff hinv.disputes).mpr ⟨hattempts, rfl, rfl⟩
  have hafter : afterClaim (claimOf (d.reclaimed t₁.now) (d.row o))
      = .next (.escrow ((d.reclaimed t₁.now).row o) operationId) := by
    simp [afterClaim, claimOf, Dispute.reclaimed, hoperation, h.disputed,
      terminalDecision]
  have hstep : Resolver.step ⟨input, .claim⟩ t₁ s.db
      = (.next (.escrow ((d.reclaimed t₁.now).row o) operationId),
        s.db.putDispute (d.reclaimed t₁.now)) := by
    unfold Resolver.step
    rw [hfault]
    show Prod.map _ id (reply none _ s.db) = _
    rw [reply_none_of_commits hclaim]
    exact congrArg (·, _) hafter
  have hdb₁ : (s.advance p t₁).db = s.db.putDispute (d.reclaimed t₁.now) := by
    rw [hdb, hstep]
  refine ⟨hdb₁, operationId, ?_⟩
  refine
    { call := ?_
      queue := ?_
      inv := hinv.step (.advance p t₁)
      sound := ?_
      found := ?_
      order := ?_
      disputed := h.disputed
      claimed := ⟨hdecided, hoperated, rfl, Nat.succ_pos _⟩
      status := rfl
      decision := h.decision
      operation := hoperation
      attempts := hattempts }
  · rw [hprocess, hstep]
    rfl
  · rw [hprocess, Process.queue_after]
    exact hqueue
  · rw [hdb₁]
    exact hescrow.congr rfl rfl rfl
  · have hid := Table.key_of_find? h.found
    have hfind := h.found
    rw [← hid] at hfind ⊢
    rw [hdb₁]
    exact Table.find?_set_self hfind
  · rw [hdb₁]
    exact h.order

/-- The escrow operation is refused, and the call only reports it. -/
theorem escrow_refused {row : ResolutionRow} {operationId : Uuid}
    (hcall : (s.process p).call = some ⟨input, .escrow row operationId⟩)
    (hqueue : (s.process p).queue = []) (hfault : t₂.fault = none)
    (hrefused : ¬ Succeeds (Resolver.escrowOperation
      ⟨input, .escrow row operationId⟩ t₂ row) s.db) :
    ((s.advance p t₂).process p).PastEscrow
      ∧ (s.advance p t₂).db.orders = s.db.orders := by
  obtain ⟨hdb, hprocess⟩ := Saga.advance_of_call (t := t₂) hcall
  obtain ⟨e, he⟩ := reply_none_of_not_succeeds hrefused
  have hstep : Resolver.step ⟨input, .escrow row operationId⟩ t₂ s.db
      = (.next (.rescue operationId e), s.db) := by
    unfold Resolver.step
    rw [hfault]
    show Prod.map _ id (reply none _ s.db) = _
    rw [he]
    rfl
  rw [hdb, hprocess, hstep]
  refine ⟨⟨hqueue, ?_⟩, rfl⟩
  intro r hr
  cases hr
  trivial

/-- The escrow operation goes through, and the call goes on to close the
dispute. -/
theorem escrow_committed {row : ResolutionRow} {operationId : Uuid}
    (hcall : (s.process p).call = some ⟨input, .escrow row operationId⟩)
    (hfault : t₂.fault = none) {a : OrderRow} {db' : Db}
    (h : Commits (Resolver.escrowOperation ⟨input, .escrow row operationId⟩
      t₂ row) s.db a db') :
    (s.advance p t₂).db = db'
      ∧ ((s.advance p t₂).process p).call
        = some ⟨input, .finalize operationId (some a)⟩
      ∧ ((s.advance p t₂).process p).queue = (s.process p).queue := by
  obtain ⟨hdb, hprocess⟩ := Saga.advance_of_call (t := t₂) hcall
  have hstep : Resolver.step ⟨input, .escrow row operationId⟩ t₂ s.db
      = (.next (.finalize operationId (some a)), db') := by
    unfold Resolver.step
    rw [hfault]
    show Prod.map _ id (reply none _ s.db) = _
    rw [reply_none_of_commits h]
    rfl
  rw [hdb, hprocess, hstep]
  exact ⟨rfl, rfl, rfl⟩

/-- The dispute is closed, and the call ends. -/
theorem finalize_committed {operationId : Uuid} {order : Option OrderRow}
    (hcall : (s.process p).call = some ⟨input, .finalize operationId order⟩)
    (hqueue : (s.process p).queue = []) (hfault : t₃.fault = none)
    {resolved : ResolutionRow × Bool} {db' : Db}
    (h : Commits (Resolver.finalize ⟨input, .finalize operationId order⟩ t₃
      operationId) s.db (some resolved) db') :
    (s.advance p t₃).db = db' ∧ ((s.advance p t₃).process p).Free := by
  obtain ⟨hdb, hprocess⟩ := Saga.advance_of_call (t := t₃) hcall
  have hstep : ∃ answer,
      Resolver.step ⟨input, .finalize operationId order⟩ t₃ s.db
        = (.ended answer, db') := by
    unfold Resolver.step
    rw [hfault]
    refine ⟨.ok ⟨resolved.1, order, resolved.2, order.isSome, operationId⟩, ?_⟩
    show Prod.map _ id (reply none _ s.db) = _
    rw [reply_none_of_commits h]
    rfl
  obtain ⟨answer, hanswer⟩ := hstep
  rw [hdb, hprocess, hanswer]
  exact ⟨rfl, hqueue, rfl⟩

/-- After its order was settled a claimed dispute can be closed. -/
theorem finalize_commits (t : Tick) {db : Db} {r : Resolver} {operationId : Uuid}
    {o' : OrderRow} (hdb : DisputesSound db)
    (hfind : db.disputes.find? r.input.disputeId = some d)
    (horder : db.orders.find? d.orderId = some o') (hclaimed : d.Claimed)
    (hstatus : d.status = .resolving)
    (hdecision : d.resolutionDecision = some r.input.decision)
    (hoperation : d.resolutionOperationId = some operationId)
    (hattempts : d.resolutionAttempts ≤ int4Max)
    (hterminal : terminalDecision o'.status = some r.input.decision)
    (hfresh₁ : ¬ db.messages.Has t.uuid₁)
    (hfresh₂ : ¬ db.messages.Has t.uuid₂) (hne : t.uuid₂ ≠ t.uuid₁) :
    ∃ row db', Commits (r.finalize t operationId) db (some (row, true)) db'
      ∧ db'.orders = db.orders
      ∧ db'.disputes = db.disputes.set (d.finalized t.now) := by
  have hid := Table.key_of_find? hfind
  have hrecords : ∃ db', ResolutionRecorded ((d.finalized t.now).row o')
      r.input.decision operationId t.uuid₁ t.uuid₂
      (db.putDispute (d.finalized t.now)) db' :=
    resolutionRecorded_exists hfresh₁ hfresh₂ hne
  obtain ⟨db', hrecorded⟩ := hrecords
  refine ⟨_, db', commits_finalizeIfApplied.mpr
    ⟨d, o', hfind, horder, ⟨?_, ?_⟩, .finalized ?_ hterminal
      ⟨hattempts, ?_, ?_⟩ hrecorded⟩, hrecorded.tables.2,
    hrecorded.tables.1⟩
  · intro persisted hp
    rw [hdecision] at hp
    cases hp
    rfl
  · intro e he
    cases he
    exact hoperation
  · rw [hstatus]
    nofun
  · refine .inr (.inr ⟨rfl, hclaimed, rfl, ?_⟩)
    show (d.resolvedAt.or (some t.now)).isSome = true
    cases d.resolvedAt <;> rfl
  · rw [← hid] at hfind
    exact hdb.operationFree hfind rfl rfl

/-- Two steps after the escrow operation was refused. -/
theorem not_finished_of_pastEscrow {s' : Saga}
    (hpast : (s'.process p).PastEscrow) (horders : s'.db.orders = s.db.orders)
    (hfind : s.db.orders.find? d.orderId = some o)
    (hs : o.status = .disputed) (t t' : Tick) :
    ¬ Finished ((s'.advance p t).advance p t').db input d := by
  obtain ⟨hpast₁, horders₁⟩ := Saga.advance_pastEscrow hpast t
  obtain ⟨-, horders₂⟩ := Saga.advance_pastEscrow hpast₁ t'
  refine not_finished ?_ hs
  rw [horders₂, horders₁, horders]
  exact hfind

/-- From the escrow operation on, all hangs on it. It needs its admin to be
an admin still and room for what it writes; then the finalization has nothing
left to refuse. -/
theorem Escrowing.finished_iff {operationId : Uuid}
    (h : Escrowing s p input d o operationId)
    (hticks : QuietTicks s.db t₁ t₂ t₃ t₄) :
    Finished (((s.advance p t₂).advance p t₃).advance p t₄).db input d
      ↔ s.db.IsAdmin (d.adminId.getD input.adminId)
        ∧ EscrowRoom s.db o input.decision := by
  rw [← Resolver.escrow_succeeds_iff
    (r := ⟨input, .escrow (d.row o) operationId⟩)
    (h.sound.disputedOrder h.order h.disputed) hticks.types
    hticks.transaction₁ hticks.transaction₂ hticks.transactions]
  have hfault : ∀ t ∈ [t₁, t₂, t₃, t₄], t.fault = none := hticks.faultless
  by_cases hsucceeds : Succeeds (Resolver.escrowOperation
    ⟨input, .escrow (d.row o) operationId⟩ t₂ (d.row o)) s.db
  case neg =>
    obtain ⟨hpast, horders⟩ := escrow_refused h.call h.queue
      (hfault t₂ (by simp)) hsucceeds
    exact iff_of_false (not_finished_of_pastEscrow hpast horders h.order
      h.disputed t₃ t₄) hsucceeds
  refine iff_of_true ?_ hsucceeds
  obtain ⟨a, db₂, hcommits⟩ := hsucceeds
  have hdone := Resolver.escrowDone h.order hcommits
  obtain ⟨o', horder', hterminal⟩ := hdone.order
  rw [Table.key_of_find? h.order] at horder'
  obtain ⟨hdb₂, hcall₂, hqueue₂⟩ :=
    escrow_committed h.call (hfault t₂ (by simp)) hcommits
  have hinv₂ : SagaInv (s.advance p t₂) := h.inv.step (.advance p t₂)
  rw [h.queue] at hqueue₂
  -- the order is settled; what is left is the dispute
  have hfinalize := finalize_commits t₃
    (r := ⟨input, .finalize operationId (some a)⟩) hinv₂.disputes
    (by rw [hdb₂, hdone.disputes]; exact h.found)
    (by rw [hdb₂]; exact horder') h.claimed h.status h.decision h.operation
    h.attempts hterminal (by rw [hdb₂, hdone.messages]; exact hticks.message₁)
    (by rw [hdb₂, hdone.messages]; exact hticks.message₂) hticks.messages
  obtain ⟨row, db₃, hcommits₃, horders₃, hdisputes₃⟩ := hfinalize
  obtain ⟨hdb₃, hfree₃⟩ := finalize_committed hcall₂ hqueue₂
    (hfault t₃ (by simp)) hcommits₃
  rw [Saga.advance_of_free hfree₃, hdb₃]
  refine ⟨?_, ?_⟩
  · have hid := Table.key_of_find? h.found
    have hfind := h.found
    rw [← hid] at hfind ⊢
    have hset : (s.db.disputes.set (d.finalized t₃.now)).find? d.id
        = some (d.finalized t₃.now) := Table.find?_set_self hfind
    rw [hdisputes₃, hdb₂, hdone.disputes, hset]
    rfl
  · rw [horders₃, hdb₂, horder', Option.map_some, eq_orderStatus hterminal]

/-- A lone call finishes an interrupted dispute just if it is resumable, in
any state that the invariants hold of. -/
theorem Interrupted.finished_iff (h : Interrupted s.db input t₁.clock d o)
    (hinv : SagaInv s) (hescrow : EscrowSound s.db)
    (hfree : (s.process p).Free) (hticks : QuietTicks s.db t₁ t₂ t₃ t₄) :
    Finished (run Saga.step s (loneCall p input t₁ t₂ t₃ t₄)).db input d
      ↔ Resumable s.db input d o := by
  -- the call starts
  have hstart : s.step (.resolve p input)
      = s.setProcess p ((s.process p).start input) := if_pos hfree
  have hrun : run Saga.step s (loneCall p input t₁ t₂ t₃ t₄)
      = ((((s.step (.resolve p input)).advance p t₁).advance p t₂).advance p
        t₃).advance p t₄ := rfl
  have hinv₀ := hinv.step (.resolve p input)
  rw [hrun]
  rw [hstart] at hinv₀ ⊢
  have hprocess : (s.setProcess p ((s.process p).start input)).process p
      = (s.process p).start input := if_pos rfl
  have hqueue : ((s.process p).start input).queue = [] := hfree.1
  rw [← hprocess] at hqueue
  have hcall : ((s.process p).start input).call = some ⟨input, .claim⟩ := rfl
  rw [← hprocess] at hcall
  have hdb : (s.setProcess p ((s.process p).start input)).db = s.db := rfl
  rw [← hdb] at h hescrow hticks ⊢
  clear hprocess hdb hrun hstart hinv hfree
  generalize s.setProcess p ((s.process p).start input) = s₀ at *
  by_cases hattempts : d.resolutionAttempts + 1 ≤ int4Max
  case neg =>
    obtain ⟨hpast, horders⟩ := h.stops hinv₀ hcall hqueue
      (hticks.faultless t₁ (by simp)) hattempts
    obtain ⟨hpast₂, horders₂⟩ := Saga.advance_pastEscrow hpast t₂
    refine iff_of_false (not_finished_of_pastEscrow hpast₂
      (horders₂.trans horders) h.order h.disputed t₃ t₄) ?_
    intro hresumable
    exact hattempts hresumable.attempts
  obtain ⟨hdb₁, operationId, hescrowing⟩ := h.claims hinv₀ hescrow hcall hqueue
    (hticks.faultless t₁ (by simp)) hattempts
  have hticks₁ : QuietTicks (s₀.advance p t₁).db t₁ t₂ t₃ t₄ := by
    rw [hdb₁]
    exact { hticks with }
  have hiff := hescrowing.finished_iff hticks₁
  rw [hdb₁] at hiff
  refine Iff.trans hiff ?_
  constructor
  · intro h
    obtain ⟨hadmin, hroom⟩ := h
    exact ⟨hadmin, hattempts, escrowRoom_putDispute.mp hroom⟩
  · intro hresumable
    exact ⟨hresumable.admin, escrowRoom_putDispute.mpr hresumable.room⟩

end Call

-- ============================================================= in every run

/-- In every reachable state: a lone call on a claimed dispute whose
attempt failed or went stale finishes it exactly when the user recorded
by the claim is an admin now and the columns written have room. -/
theorem claimed_dispute_finishes_iff {db : Db} (hdb : Opening db)
    (hpending : AllPending db) (hundisputed : Undisputed db)
    (events : List Event) {p : Nat}
    (hfree : ((run Saga.step (.start db) events).process p).Free)
    {input : ResolveInput} {d : Dispute} {o : OrderRow} {t₁ t₂ t₃ t₄ : Tick}
    (h : Interrupted (run Saga.step (.start db) events).db input t₁.clock d o)
    (hticks : QuietTicks (run Saga.step (.start db) events).db t₁ t₂ t₃ t₄) :
    Finished (run Saga.step (run Saga.step (.start db) events)
        (loneCall p input t₁ t₂ t₃ t₄)).db input d
      ↔ Resumable (run Saga.step (.start db) events).db input d o :=
  h.finished_iff (hundisputed.sagaInv.run events)
    ((hdb.escrowSound hpending : EscrowSound (Saga.start db).db).run events)
    hfree hticks

-- ====================================================== a claim by an admin

/-- The one order, with a second admin. -/
def twoAdminsDb : Db :=
  { oneOrderDb with users := oneOrderDb.users.upsert ⟨⟨8⟩, .admin, false⟩ }

/-- Its wallets and ledger agree. -/
theorem twoAdminsDb_opening : Opening twoAdminsDb :=
  { oneOrderDb_opening with
    payouts := { oneOrderDb_opening.payouts with } }

/-- Its order is pending. -/
theorem twoAdminsDb_allPending : AllPending twoAdminsDb :=
  oneOrderDb_allPending

/-- It has no dispute. -/
theorem twoAdminsDb_undisputed : Undisputed twoAdminsDb :=
  { oneOrderDb_undisputed with }

/-- The dispute is opened and claimed by admin 9; the connection fails
under the refund, and the attempt ends as failed. -/
def failedAttempt : List Event :=
  disputedCalls.map .call
    ++ [.resolve 0 ⟨⟨5⟩, .refund, ⟨9⟩, "not delivered", none, true⟩,
      .advance 0 (tickAt 10 20),
      .advance 0 { tickAt 11 30 with fault := some .refused },
      .advance 0 (tickAt 12 40), .advance 0 (tickAt 13 50)]

/-- Then admin 9 is demoted. -/
def demoted : List Event :=
  failedAttempt ++ [.call ⟨defaultConfig, 14, .updateUser ⟨9⟩ (some .user)
    none⟩]

/-- Admin 8 repeats the refund. -/
def retryInput : ResolveInput :=
  ⟨⟨5⟩, .refund, ⟨8⟩, "second attempt", none, true⟩

/-- The call, run to its end. -/
def retryCall : List Event :=
  loneCall 1 retryInput (tickAt 20 60) (tickAt 21 70) (tickAt 22 80)
    (tickAt 23 90)

/-- The ids that the call draws are new. -/
theorem retry_quiet (events : List Event)
    (h : ∀ id ∈ [⟨.ofNat 128 70⟩, ⟨.ofNat 128 71⟩],
      ¬ (run Saga.step (.start twoAdminsDb) events).db.transactions.Has id)
    (h' : ∀ id ∈ [⟨.ofNat 128 80⟩, ⟨.ofNat 128 81⟩],
      ¬ (run Saga.step (.start twoAdminsDb) events).db.messages.Has id) :
    QuietTicks (run Saga.step (.start twoAdminsDb) events).db (tickAt 20 60)
      (tickAt 21 70) (tickAt 22 80) (tickAt 23 90) where
  faultless := by
    intro t ht
    simp only [List.mem_cons, List.not_mem_nil, or_false] at ht
    rcases ht with rfl | rfl | rfl | rfl <;> rfl
  types := rfl
  transaction₁ := h _ (by simp [tickAt])
  transaction₂ := h _ (by simp [tickAt])
  transactions := by decide
  message₁ := h' _ (by simp [tickAt])
  message₂ := h' _ (by simp [tickAt])
  messages := by decide

/-- What there is to retry: the failed attempt of admin 9. -/
theorem retry_interrupted (db : Db)
    (hdispute : (db.disputes.find? ⟨5⟩).map (fun d => (d.status,
        d.resolutionDecision, d.orderId, d.adminId, d.resolutionAttempts))
      = some (.resolutionFailed, some .refund, ⟨4⟩, some ⟨9⟩, 1))
    (horder : (db.orders.find? ⟨4⟩).map (fun o => (o.status, o.buyerId,
        o.currency, o.amountCents.val)) = some (.disputed, ⟨1⟩, "UAH", 1000)) :
    ∃ d o, Interrupted db retryInput (tickAt 20 60).clock d o
      ∧ d.orderId = ⟨4⟩ ∧ d.adminId = some ⟨9⟩ ∧ d.resolutionAttempts = 1
      ∧ o.buyerId = ⟨1⟩ ∧ o.currency = "UAH" ∧ o.amountCents.val = 1000 := by
  obtain ⟨d, hd, hdispute⟩ := Option.map_eq_some_iff.mp hdispute
  obtain ⟨o, ho, horder⟩ := Option.map_eq_some_iff.mp horder
  simp only [Prod.mk.injEq] at hdispute horder
  obtain ⟨hstatus, hdecision, hid, hadmin, hattempts⟩ := hdispute
  obtain ⟨hdisputed, hbuyer, hcurrency, hamount⟩ := horder
  refine ⟨d, o, ⟨hd, ?_, .inl hstatus, hdisputed, hdecision, nofun, rfl⟩, hid,
    hadmin, hattempts, hbuyer, hcurrency, hamount⟩
  rw [hid]
  exact ho

/-- As long as admin 9 has the role, admin 8 finishes the dispute. -/
theorem claimed_dispute_finishes_retried :
    ∃ d, Finished (run Saga.step (run Saga.step (.start twoAdminsDb)
      failedAttempt) retryCall).db retryInput d := by
  obtain ⟨d, o, h, -, hadmin, hattempts, hbuyer, hcurrency, hamount⟩ :=
    retry_interrupted (run Saga.step (.start twoAdminsDb) failedAttempt).db
      (by decide +kernel) (by decide +kernel)
  have hfree : ((run Saga.step (.start twoAdminsDb) failedAttempt).process
      1).Free := by
    decide +kernel
  have hquiet := retry_quiet failedAttempt (by decide +kernel)
    (by decide +kernel)
  refine ⟨d, (claimed_dispute_finishes_iff twoAdminsDb_opening
    twoAdminsDb_allPending twoAdminsDb_undisputed failedAttempt hfree h
    hquiet).mpr ⟨?_, ?_, ?_⟩⟩
  · rw [hadmin]
    unfold Db.IsAdmin
    decide +kernel
  · rw [hattempts]
    decide
  · show RefundRoom _ o
    unfold RefundRoom
    rw [hbuyer, hcurrency, hamount]
    decide +kernel

/-- After the demotion admin 8 cannot finish what admin 9 has claimed. -/
theorem demoted_claimant_stuck :
    Opening twoAdminsDb ∧ AllPending twoAdminsDb ∧ Undisputed twoAdminsDb
      ∧ (run Saga.step (.start twoAdminsDb) demoted).db.IsAdmin
        retryInput.adminId
      ∧ QuietTicks (run Saga.step (.start twoAdminsDb) demoted).db
        (tickAt 20 60) (tickAt 21 70) (tickAt 22 80) (tickAt 23 90)
      ∧ ∃ d o, Interrupted (run Saga.step (.start twoAdminsDb) demoted).db
          retryInput (tickAt 20 60).clock d o
        ∧ ¬ Finished (run Saga.step (run Saga.step (.start twoAdminsDb)
          demoted) retryCall).db retryInput d := by
  obtain ⟨d, o, h, -⟩ := retry_interrupted
    (run Saga.step (.start twoAdminsDb) demoted).db
    (by decide +kernel) (by decide +kernel)
  have hquiet := retry_quiet demoted (by decide +kernel)
    (by decide +kernel)
  refine ⟨twoAdminsDb_opening, twoAdminsDb_allPending, twoAdminsDb_undisputed,
    ?_, hquiet, d, o, h, ?_⟩
  · unfold Db.IsAdmin
    decide +kernel
  · intro h
    obtain ⟨hstatus, -⟩ := h
    have hfailed : ((run Saga.step (run Saga.step (.start twoAdminsDb)
        demoted) retryCall).db.disputes.find? ⟨5⟩).map Dispute.status
        = some .resolutionFailed := by
      decide +kernel
    rw [show retryInput.disputeId = ⟨5⟩ from rfl, hfailed] at hstatus
    cases hstatus

end Skrynia
