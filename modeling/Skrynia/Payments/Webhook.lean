/-
Confirmed payments: the webhooks of LiqPay, Monobank and WayForPay.

Once a provider has confirmed a payment the three handlers do the same:
they look for an order with the reference, otherwise for a top-up, and
capture or complete it. `persistConfirmedWebhookOutcome` decides by the
class of the error whether the provider is told that all is well. Other
calls commit between the reads and the operation.

# Which refusals are final

`isTerminalWebhookOutcome` takes every 4xx for final.
`lockEscrow_terminal_iff` and `completeWalletTopup_terminal_iff` say for
which states that is an error that a pending order or top-up outlives.
-/
import Skrynia.Market.Postings
import Skrynia.Orders.Success

namespace Skrynia

open Relational Stepping

-- ============================================================== the errors

/-- `isTerminalWebhookOutcome`. -/
def Failure.IsTerminal : Failure → Prop
  | .api status _ => 400 ≤ status ∧ status < 500
  | .error _ | .violation _ => False

instance (e : Failure) : Decidable e.IsTerminal :=
  match e with
  | .api _ _ => inferInstanceAs (Decidable (_ ∧ _))
  | .error _ | .violation _ => inferInstanceAs (Decidable False)

/-- `persistConfirmedWebhookOutcome`: the database afterwards, and
whether the handler goes on to answer success. A broken connection is no
`ApiError`. -/
def persistConfirmedWebhookOutcome {α : Type} (operation : DbTx α)
    (fault : Option Fault) (db : Db) : Db × Bool :=
  match fault with
  | some .refused => (db, false)
  | some .replyLost => (attempt operation db, false)
  | none =>
      match operation.run db with
      | .ok (_, db') => (db', true)
      | .error e => (db, e.IsTerminal)

-- ============================================================ the webhooks

/-- The providers. -/
inductive ConfirmedWebhookProvider where
  | liqpay
  | monobank
  | wayforpay
deriving DecidableEq

/-- As the row of a payment names them. -/
def ConfirmedWebhookProvider.name :
    ConfirmedWebhookProvider → PaymentProviderName
  | .liqpay => .liqpay
  | .monobank => .monobank
  | .wayforpay => .wayforpay

/-- As a ledger or a timeline does. -/
def ConfirmedWebhookProvider.text : ConfirmedWebhookProvider → String
  | .liqpay => "liqpay"
  | .monobank => "monobank"
  | .wayforpay => "wayforpay"

/-- What the provider has confirmed. -/
inductive ConfirmedWebhook where
  | liqpay (orderId : Uuid) (paymentId : Option String)
  | monobank (reference : Uuid) (invoiceId : String)
  | wayforpay (orderReference : Uuid)
deriving DecidableEq

namespace ConfirmedWebhook

/-- Who has confirmed the payment. -/
def provider : ConfirmedWebhook → ConfirmedWebhookProvider
  | .liqpay _ _ => .liqpay
  | .monobank _ _ => .monobank
  | .wayforpay _ => .wayforpay

/-- The order or top-up that was paid for. -/
def subject : ConfirmedWebhook → Uuid
  | .liqpay orderId _ => orderId
  | .monobank reference _ => reference
  | .wayforpay orderReference => orderReference

/-- The external reference of the payment. -/
def reference : ConfirmedWebhook → String
  | .liqpay orderId paymentId => paymentId.getD orderId.text
  | .monobank _ invoiceId => invoiceId
  | .wayforpay orderReference => orderReference.text

/-- `capture` of the three providers: it wants a reference. -/
def capture (w : ConfirmedWebhook) : Option PaymentResult :=
  if w.reference = "" then none else some ⟨w.provider.text, w.reference⟩

/-- Who acts on the order. -/
def actor (w : ConfirmedWebhook) : Actor :=
  .service (.named w.provider.text) .paymentProvider

end ConfirmedWebhook

/-- What an operation draws: the clock, the configuration and ids. -/
structure WebhookDraw where
  cfg : Config
  now : Timestamp
  id₁ : Uuid
  id₂ : Uuid
  id₃ : Uuid

/-- What `lockEscrow` is called with. -/
def ConfirmedWebhook.lockEscrowInput (w : ConfirmedWebhook) (buyerId : Uuid)
    (draw : WebhookDraw) : LockEscrowInput where
  orderId := w.subject
  buyerId := buyerId
  providerName := w.provider.name
  actor := some w.actor
  capture := w.capture
  captureId := draw.id₁
  holdId := draw.id₂
  messageId := draw.id₃

/-- What `completeWalletTopup` is called with. -/
def ConfirmedWebhook.topupInput (w : ConfirmedWebhook) (draw : WebhookDraw) :
    CompleteTopupInput where
  topupId := w.subject
  provider := w.provider.text
  reference := w.reference
  transactionId := draw.id₁

-- ============================================================= the handlers

/-- What a payment turned out to be for. -/
inductive PaidSubject where
  | order
  | topup
deriving DecidableEq

/-- The statement that a handler runs next. -/
inductive DeliveryPhase where
  | idle
  | selectOrder (w : ConfirmedWebhook)
  | selectTopup (w : ConfirmedWebhook)
  | lockEscrow (w : ConfirmedWebhook) (buyerId : Uuid)
  | completeTopup (w : ConfirmedWebhook)
  /-- Answered: success, or an error that has the provider redeliver. -/
  | answered (w : ConfirmedWebhook) (subject : Option PaidSubject)
      (acknowledged : Bool)
deriving DecidableEq

/-- The database and the deliveries under way. -/
structure WebhookSystem where
  db : Db
  phase : Nat → DeliveryPhase

/-- Before any delivery. -/
def WebhookSystem.start (db : Db) : WebhookSystem := ⟨db, fun _ => .idle⟩

/-- A delivery begins or goes on, or another call commits. -/
inductive WebhookEvent where
  | deliver (d : Nat) (w : ConfirmedWebhook)
  | select (d : Nat)
  | persist (d : Nat) (draw : WebhookDraw) (fault : Option Fault)
  | call (call : Call)
  /-- A seller or a moderator rewrites a product. -/
  | editProduct (product : Product)

namespace WebhookSystem

variable (s : WebhookSystem)

/-- A delivery goes on. -/
def setPhase (d : Nat) (p : DeliveryPhase) : WebhookSystem :=
  { s with phase := fun d' => if d' = d then p else s.phase d' }

/-- One of the two reads of a handler. -/
def select (d : Nat) : WebhookSystem :=
  match s.phase d with
  | .selectOrder w =>
      match s.db.orders.find? w.subject with
      | some order => s.setPhase d (.lockEscrow w order.buyerId)
      | none => s.setPhase d (.selectTopup w)
  | .selectTopup w =>
      match s.db.walletTopups.find? w.subject with
      | some _ => s.setPhase d (.completeTopup w)
      | none => s.setPhase d (.answered w none true)
  | _ => s

/-- The operation, and the answer. -/
def persist (d : Nat) (draw : WebhookDraw) (fault : Option Fault) :
    WebhookSystem :=
  match s.phase d with
  | .lockEscrow w buyerId =>
      let outcome := persistConfirmedWebhookOutcome
        (Skrynia.lockEscrow draw.cfg draw.now
          (w.lockEscrowInput buyerId draw)) fault s.db
      { s.setPhase d (.answered w (some .order) outcome.2) with
        db := outcome.1 }
  | .completeTopup w =>
      let outcome := persistConfirmedWebhookOutcome
        (completeWalletTopup draw.cfg draw.now (w.topupInput draw)) fault s.db
      { s.setPhase d (.answered w (some .topup) outcome.2) with
        db := outcome.1 }
  | _ => s

/-- One event. -/
def step : WebhookEvent → WebhookSystem
  | .deliver d w =>
      match s.phase d with
      | .idle => s.setPhase d (.selectOrder w)
      | _ => s
  | .select d => s.select d
  | .persist d draw fault => s.persist d draw fault
  | .call call => { s with db := call.step s.db }
  | .editProduct product => { s with db := s.db.putProduct product }

/-- Take some steps. -/
def play (events : List WebhookEvent) : WebhookSystem :=
  run WebhookSystem.step s events

end WebhookSystem

-- ====================================================== statements that may fail

section Final

variable {α : Type} {e : Failure} (he : e.IsTerminal)

include he

/-- A violated constraint is no 4xx. -/
theorem Failure.IsTerminal.ne_violation (name : String) :
    e ≠ .violation name := by
  intro h
  rw [h] at he
  exact he

/-- Nor is any other error. -/
theorem Failure.IsTerminal.ne_error (message : String) :
    e ≠ .error message := by
  intro h
  rw [h] at he
  exact he

/-- Writing a balance in escrow fails with no 4xx. -/
theorem final_setEscrow {k : WalletKey} {m : MoneyCents} :
    Never e (setEscrow k m) := by
  refine never_bind (never_select _) fun row => ?_
  cases row with
  | none => exact never_pure _
  | some w => exact never_check (fun _ => never_modify _) (he.ne_violation _)

/-- Nor does writing an available one. -/
theorem final_setAvailable {k : WalletKey} {m : MoneyCents} :
    Never e (setAvailable k m) := by
  refine never_bind (never_select _) fun row => ?_
  cases row with
  | none => exact never_pure _
  | some w => exact never_check (fun _ => never_modify _) (he.ne_violation _)

/-- Nor the insert of a transaction. -/
theorem final_insertTransaction {cfg : Config} {id : Uuid}
    {wallet : WalletKey} {orderId : Option Uuid} {type : TransactionType}
    {direction : TransactionDirection} {amount : MoneyCents}
    {status : TransactionStatus} :
    Never e (insertTransaction cfg id wallet orderId type direction amount
      status) := by
  refine never_bind (never_require (he.ne_violation _)) fun _ => ?_
  refine never_check (fun _ => ?_) (he.ne_violation _)
  refine never_bind (never_select _) fun _ => ?_
  refine never_bind (never_orThrow (he.ne_violation _)) fun _ => ?_
  exact never_bind (never_modify _) fun _ => never_pure _

/-- Nor that of a message. -/
theorem final_createOrderSystemMessage {id orderId : Uuid}
    {systemType bodyKey : String} {params : List (String × String)}
    {resolution : Option (DisputeDecision × Uuid)} :
    Never e (createOrderSystemMessage id orderId systemType bodyKey params
      resolution) := by
  refine never_bind (never_select _) fun conversation => ?_
  cases conversation with
  | none => exact never_pure _
  | some conversation =>
      refine never_bind (never_select _) fun _ => ?_
      refine never_bind (never_orThrow (he.ne_violation _)) fun _ => ?_
      exact never_bind (never_modify _) fun _ => never_pure _

/-- A balanced entry of two lines is not refused. -/
theorem final_postLedgerEntry {input : LedgerEntryInput}
    (hlength : 2 ≤ input.lines.length) (hpos : 0 < input.debitTotal)
    (hbalanced : input.debitTotal = input.creditTotal) :
    Never e (postLedgerEntry input) := by
  intro db h
  simp only [postLedgerEntry, aborts_require_bind] at h
  rcases h with ⟨hshort, -⟩ | ⟨-, ⟨hunbalanced, -⟩ | ⟨-, h⟩⟩
  · exact hshort hlength
  · exact hunbalanced ⟨hpos, hbalanced⟩
  · rw [aborts_select_bind, aborts_ite] at h
    rcases h with ⟨-, h⟩ | ⟨-, h⟩
    · exact not_aborts_pure h
    · rw [aborts_orThrow_bind] at h
      rcases h with ⟨-, h⟩ | ⟨lines, -, h⟩
      · exact he.ne_violation _ h
      · rw [aborts_modify_bind] at h
        exact not_aborts_pure h

/-- Nor the posting of a capture, if its amount is positive. -/
theorem final_recordPaymentCaptureLedger {orderId sellerId : Uuid}
    {amount : MoneyCents} {c : Currency} (hpos : 0 < amount.val) :
    Never e (recordPaymentCaptureLedger orderId sellerId amount c) := by
  refine never_bind (final_postLedgerEntry he (Nat.le_refl 2) ?_ ?_)
    fun _ => never_pure _
  · simpa [LedgerEntryInput.debitTotal, paymentCaptureEntry, debitLine,
      creditLine] using hpos
  · simp [LedgerEntryInput.debitTotal, LedgerEntryInput.creditTotal,
      paymentCaptureEntry, debitLine, creditLine]

/-- Nor that of a top-up. -/
theorem final_recordWalletTopupLedger {topupId userId : Uuid}
    {amount : MoneyCents} {c : Currency} (hpos : 0 < amount.val) :
    Never e (recordWalletTopupLedger topupId userId amount c) := by
  refine never_bind (final_postLedgerEntry he (Nat.le_refl 2) ?_ ?_)
    fun _ => never_pure _
  · simpa [LedgerEntryInput.debitTotal, walletTopupEntry, debitLine,
      creditLine] using hpos
  · simp [LedgerEntryInput.debitTotal, LedgerEntryInput.creditTotal,
      walletTopupEntry, debitLine, creditLine]

/-- Nor the computation of the fee. -/
theorem final_platformFee {amount : MoneyCents} {bps : Nat} :
    Never e (liftExcept (platformFeeCents amount bps) moneyError :
      DbTx MoneyCents) := by
  refine never_liftExcept fun error _ => ?_
  cases error with
  | range => exact he.ne_error _
  | invalid message => exact he.ne_error _

end Final

-- ========================================================= the orders table

section Orders

variable {db db' : Db}

/-- Writing a balance in escrow touches no order. -/
theorem orders_of_setEscrow {k : WalletKey} {m : MoneyCents} {x : Unit}
    (h : Commits (setEscrow k m) db x db') : db'.orders = db.orders := by
  simp only [setEscrow, commits_select_bind] at h
  cases hw : db.wallets.find? k with
  | none =>
      rw [hw] at h
      rw [(commits_pure.mp h).2]
  | some w =>
      rw [hw] at h
      obtain ⟨hm, h⟩ := commits_check.mp h
      rw [commits_modify.mp h]
      rfl

/-- Nor does the insert of a transaction. -/
theorem orders_of_insertTransaction {cfg : Config} {id r : Uuid}
    {wallet : WalletKey} {orderId : Option Uuid} {type : TransactionType}
    {direction : TransactionDirection} {amount : MoneyCents}
    {status : TransactionStatus}
    (h : Commits (insertTransaction cfg id wallet orderId type direction
      amount status) db r db') : db'.orders = db.orders := by
  rw [← bind_pure (insertTransaction _ _ _ _ _ _ _ _),
    commits_insertTransaction_bind] at h
  obtain ⟨-, -, t, -, h⟩ := h
  rw [(commits_pure.mp h).2]
  rfl

/-- Nor the posting of a capture. -/
theorem orders_of_recordPaymentCaptureLedger {orderId sellerId : Uuid}
    {amount : MoneyCents} {c : Currency} {x : Unit}
    (h : Commits (recordPaymentCaptureLedger orderId sellerId amount c) db x
      db') : db'.orders = db.orders := by
  rw [recordPaymentCaptureLedger] at h
  obtain ⟨accounts, entries, -, hdb⟩ := posted_of_commits h
  rw [hdb]
  rfl

/-- Nor the insert of a message. -/
theorem orders_of_createOrderSystemMessage {id orderId : Uuid}
    {systemType bodyKey : String} {params : List (String × String)}
    {resolution : Option (DisputeDecision × Uuid)} {m : Option Uuid}
    (h : Commits (createOrderSystemMessage id orderId systemType bodyKey
      params resolution) db m db') : db'.orders = db.orders := by
  rw [← bind_pure (createOrderSystemMessage _ _ _ _ _ _),
    commits_createOrderSystemMessage_bind] at h
  obtain ⟨m', t, -, h⟩ := h
  rw [(commits_pure.mp h).2]
  rfl

end Orders

-- ================================================================= capture

section Capture

variable {cfg : Config} {now : Timestamp} {input : LockEscrowInput} {db : Db}

/-- The transition of a capture that a provider reports goes through. -/
theorem captureTransition_succeeds (cfg : Config) (now : Timestamp)
    (product : Product) (payment : PaymentResult) (message : Option Uuid)
    {o o' : OrderRow} {id : ActorId}
    (hactor : input.actor = some (.service id .paymentProvider))
    (hfind : db.orders.find? o.id = some o')
    (hpending : o'.status = .pending) :
    Succeeds (transitionOrder cfg now
      (captureTransitionInput input o product payment message)) db := by
  have htarget : (captureTransitionInput input o product payment
        message).toStatus = .paid
      ∨ (captureTransitionInput input o product payment message).toStatus
        = .delivered := by
    show (if _ then _ else _) = _ ∨ (if _ then _ else _) = _
    split
    · exact .inr rfl
    · exact .inl rfl
  have hrole : (captureTransitionInput input o product payment message).actor
      = .service id .paymentProvider := by
    show input.actorFor o = _
    unfold LockEscrowInput.actorFor
    rw [hactor]
    rfl
  have hedge : canTransitionOrder o'.status
      (captureTransitionInput input o product payment message).toStatus := by
    rw [hpending]
    rcases htarget with h | h <;> rw [h] <;> decide
  refine ⟨_, _, commits_transitionOrder.mpr ⟨o', hfind, .inr ⟨?_, rfl, _, none,
    _, ⟨?_, hedge, ?_, ?_, rfl, ?_, rfl, rfl⟩⟩⟩⟩
  · intro hs
    rw [hs] at hedge
    exact not_self_transition hedge
  · intro l hl
    cases hl
    rw [hpending]
    exact List.mem_singleton_self _
  · rw [hrole]
    show Permits .paymentCaptured _ _
    rcases htarget with h | h <;> rw [h] <;>
      simp [Permits, reasonPolicies, Actor.role]
  · rw [hrole]
    trivial
  · rw [hrole]
    rfl

/-- The order can be captured: its product is on sale and in stock, and
the seller's escrow has room. -/
structure Capturable (db : Db) (o : OrderRow) : Prop where
  product : ∃ product, db.products.find? o.productId = some product
    ∧ product.status = .active ∧ o.quantity ≤ product.stock
  room : db.balance (.escrow o.sellerId o.currency) + o.amountCents.val
    ≤ postgresBigintMax

/-- A sum of cents that has no room in the column. -/
theorem addMoneyCents_eq_range {l r : MoneyCents}
    (h : ¬ l.val + r.val ≤ postgresBigintMax) :
    addMoneyCents l r = .error .range := by
  refine bigintToMoneyCents_eq_error.mpr ⟨?_, rfl⟩
  intro hrange
  exact h hrange.2

/-- The last part of a capture does not fail for good. -/
theorem captureTail_retryable {o : OrderRow} {product : Product}
    {seller buyer : WalletKey} {next : MoneyCents} {e : Failure}
    (he : e.IsTerminal) {id : ActorId}
    (hactor : input.actor = some (.service id .paymentProvider))
    (hfind : db.orders.find? o.id = some o) (hpending : o.status = .pending) :
    ¬ Aborts (do
      let feeCents ← liftExcept
        (platformFeeCents o.amountCents cfg.platformFeeBps) moneyError
      reserveStock product o.quantity
      let payment ← orThrow input.capture (.error "payment capture failed")
      setEscrow seller next
      let _ ← insertTransaction cfg input.captureId buyer o.id
        .paymentCapture .neutral o.amountCents .posted
      let _ ← insertTransaction cfg input.holdId seller o.id
        .escrowHold .credit o.amountCents .posted
      recordPaymentCaptureLedger o.id o.sellerId o.amountCents o.currency
      storePayment o feeCents payment.provider payment.reference
        product.instantTemplate
      let message ← createOrderSystemMessage input.messageId o.id
        "payment_received" "system.paymentReceived" [] none
      transitionOrder cfg now
        (captureTransitionInput input o product payment message)) db e := by
  intro h
  obtain ⟨fee, db₁, h₁, h⟩ := (final_platformFee he).peel h
  rw [(commits_liftExcept.mp h₁).2, reserveStock, aborts_modify_bind] at h
  obtain ⟨payment, db₂, h₂, h⟩ := Never.peel
    (never_orThrow (he.ne_error _)) h
  rw [(commits_orThrow.mp h₂).2] at h
  obtain ⟨_, db₃, h₃, h⟩ := (final_setEscrow he).peel h
  obtain ⟨_, db₄, h₄, h⟩ := (final_insertTransaction he).peel h
  obtain ⟨_, db₅, h₅, h⟩ := (final_insertTransaction he).peel h
  obtain ⟨_, db₆, h₆, h⟩ :=
    (final_recordPaymentCaptureLedger he o.amount_pos).peel h
  have horders : db₆.orders = db.orders := by
    rw [orders_of_recordPaymentCaptureLedger h₆,
      orders_of_insertTransaction h₅, orders_of_insertTransaction h₄,
      orders_of_setEscrow h₃]
    rfl
  have hstore : Never e (storePayment o fee payment.provider payment.reference
      product.instantTemplate) :=
    never_check (fun _ => never_modify _) (he.ne_violation _)
  obtain ⟨_, db₇, h₇, h⟩ := hstore.peel h
  obtain ⟨hfee, h₇⟩ := commits_check.mp h₇
  obtain ⟨message, db₈, h₈, h⟩ := (final_createOrderSystemMessage he).peel h
  -- the row that the transition finds is the one just written
  have hpaid : db₈.orders.find? o.id = some (o.withPayment fee hfee
      payment.provider payment.reference product.instantTemplate) := by
    rw [orders_of_createOrderSystemMessage h₈, commits_modify.mp h₇]
    rw [← horders] at hfind
    exact Table.find?_set_self hfind
  obtain ⟨r, db', hcommits⟩ := captureTransition_succeeds cfg now product
    payment message hactor hpaid hpending
  exact hcommits.not_aborts h

/-- The seller's escrow is the only reason for a capture to be refused
once the product is reserved. -/
theorem escrowRoom_terminal_iff {α : Type} {seller buyer : Uuid} {c : Currency}
    {amount : MoneyCents} {g : WalletKey → WalletKey → MoneyCents → DbTx α}
    (hamount : 0 ≤ amount.val)
    (hg : ∀ next db' e, db'.orders = db.orders → e.IsTerminal →
      ¬ Aborts (g (seller, c) (buyer, c) next) db' e) :
    (∃ e, Aborts (do
      let sellerWalletId ← ensureWallet seller c
      let buyerWalletId ← ensureWallet buyer c
      let sellerWallet ← selectWallet sellerWalletId
      let next ← checkedBalanceAddition sellerWallet.escrowCents amount
        "Seller escrow balance"
      g sellerWalletId buyerWalletId next) db e ∧ e.IsTerminal)
      ↔ ¬ db.balance (.escrow seller c) + amount.val ≤ postgresBigintMax := by
  simp only [ensureWallet, bind_assoc, aborts_modify_bind, pure_bind]
  have horders : ((db.openWallet (seller, c)).openWallet (buyer, c)).orders
      = db.orders := rfl
  obtain ⟨w, hw⟩ : ∃ w, ((db.openWallet (seller, c)).openWallet
      (buyer, c)).wallets.find? (seller, c) = some w := by
    apply Table.has_iff.mp
    exact has_ensured (Table.has_upsert.mpr
      (.inr (Wallet.key_opened _).symm)) _
  have hescrow : db.balance (.escrow seller c) = w.escrowCents.val := by
    have hread := Wallets.escrowOf_of_find? hw
    simp only [Db.openWallet, Wallets.escrowOf_ensured] at hread
    exact hread
  generalize (db.openWallet (seller, c)).openWallet (buyer, c) = db₁ at hw horders ⊢
  simp only [selectWallet, bind_assoc, aborts_select_bind, hw,
    aborts_orThrow_bind, reduceCtorEq, false_and, false_or, Option.some.injEq,
    exists_eq_left', checkedBalanceAddition, aborts_liftExcept_bind]
  rw [hescrow]
  constructor
  · intro h hroom
    obtain ⟨e, h, he⟩ := h
    rcases h with ⟨error, herror, -⟩ | ⟨next, -, h⟩
    · have hnn := w.escrow_nonneg
      have hrange := (bigintToMoneyCents_eq_error.mp herror).1
      apply hrange
      unfold InBigintRange postgresBigintMin
      omega
    · exact hg next db₁ e horders he h
  · intro h
    exact ⟨_, .inl ⟨.range, addMoneyCents_eq_range h, rfl⟩, by decide⟩

/-- A capture that has the order's own buyer is refused with a 4xx just where
the order is not pending, or cannot be captured. The second is not final:
stock may come back. -/
theorem lockEscrow_terminal_iff (cfg : Config) (now : Timestamp)
    {o : OrderRow} {id : ActorId}
    (hactor : input.actor = some (.service id .paymentProvider))
    (hfind : db.orders.find? input.orderId = some o)
    (hbuyer : o.buyerId = input.buyerId) :
    (∃ e, Aborts (lockEscrow cfg now input) db e ∧ e.IsTerminal)
      ↔ ¬ (o.status = .pending ∧ Capturable db o) := by
  have hfound : db.orders.find? o.id = some o := by
    rw [Table.key_of_find? hfind]
    exact hfind
  unfold lockEscrow selectOrderForUpdate
  simp only [bind_assoc, aborts_select_bind, aborts_orThrow_bind, hfind,
    aborts_require_bind, reduceCtorEq, false_and, false_or,
    Option.some.injEq, exists_eq_left', not_true_eq_false, true_and, hbuyer]
  by_cases hpending : o.status = .pending
  swap
  · refine iff_of_true ⟨_, .inl ⟨hpending, rfl⟩, by decide⟩ ?_
    intro h
    exact hpending h.1
  simp only [hpending, not_true_eq_false, false_and, false_or, true_and]
  cases hactive : (db.products.find? o.productId).filter
      (fun p => p.status = .active) with
  | none =>
      refine iff_of_true ⟨_, .inl ⟨rfl, rfl⟩, by decide⟩ ?_
      intro h
      obtain ⟨product, hproduct, hstatus, -⟩ := h.product
      rw [hproduct, Option.filter_some, if_pos (by simpa using hstatus)]
        at hactive
      cases hactive
  | some product =>
      obtain ⟨hproduct, hstatus⟩ := Option.filter_eq_some_iff.mp hactive
      simp only [reduceCtorEq, false_and, false_or, Option.some.injEq,
        exists_eq_left']
      by_cases hstock : o.quantity ≤ product.stock
      · simp only [hstock, not_true_eq_false, false_and, false_or, true_and]
        refine (escrowRoom_terminal_iff (Int.le_of_lt o.amount_pos) ?_).trans ?_
        · intro next db' e horders he
          apply captureTail_retryable he hactor _ hpending
          rw [horders]
          exact hfound
        · refine not_congr ⟨fun hroom => ⟨⟨product, hproduct,
            by simpa using hstatus, hstock⟩, hroom⟩, fun h => h.room⟩
      · refine iff_of_true ⟨_, .inl ⟨hstock, rfl⟩, by decide⟩ ?_
        intro h
        obtain ⟨product', hproduct', -, hstock'⟩ := h.product
        rw [hproduct] at hproduct'
        cases hproduct'
        exact hstock hstock'

end Capture

-- ================================================================== top-up

/-- The user's balance has room for the top-up. -/
def Creditable (db : Db) (t : WalletTopup) : Prop :=
  db.balance (.available t.userId t.currency) + t.amountCents.val
    ≤ postgresBigintMax

/-- A completion ends with a 4xx just if the top-up is pending and the
balance of its user has no room for it. -/
theorem completeWalletTopup_terminal_iff (cfg : Config) (now : Timestamp)
    {input : CompleteTopupInput} {db : Db} {t : WalletTopup}
    (hfind : db.walletTopups.find? input.topupId = some t) :
    (∃ e, Aborts (completeWalletTopup cfg now input) db e ∧ e.IsTerminal)
      ↔ t.status = .pending ∧ ¬ Creditable db t := by
  simp only [completeWalletTopup, aborts_select_bind, aborts_orThrow_bind,
    hfind, reduceCtorEq, false_and, false_or, Option.some.injEq,
    exists_eq_left', aborts_ite, not_aborts_pure, and_false, not_not,
    ensureWallet, bind_assoc, aborts_modify_bind, pure_bind]
  obtain ⟨w, hw⟩ : ∃ w, (db.openWallet (t.userId, t.currency)).wallets.find?
      (t.userId, t.currency) = some w :=
    Table.has_iff.mp (Table.has_upsert.mpr (.inr (Wallet.key_opened _).symm))
  have havailable : db.balance (.available t.userId t.currency)
      = w.availableCents.val := by
    have hread := Wallets.availableOf_of_find? hw
    simp only [Db.openWallet, Wallets.availableOf_ensured] at hread
    exact hread
  unfold Creditable
  rw [havailable]
  generalize db.openWallet (t.userId, t.currency) = db₁ at hw ⊢
  simp only [selectWallet, bind_assoc, aborts_select_bind, hw,
    aborts_orThrow_bind, reduceCtorEq, false_and, false_or, Option.some.injEq,
    exists_eq_left', checkedWalletAddition, aborts_liftExcept_bind]
  constructor
  · intro h
    obtain ⟨e, ⟨hpending, h⟩, he⟩ := h
    refine ⟨hpending, ?_⟩
    intro hroom
    rcases h with ⟨error, herror, -⟩ | ⟨next, -, h⟩
    · have hnn := w.available_nonneg
      have hamount := t.amount_pos
      apply (bigintToMoneyCents_eq_error.mp herror).1
      unfold InBigintRange postgresBigintMin
      omega
    · obtain ⟨_, db₂, -, h⟩ := (final_setAvailable he).peel h
      obtain ⟨_, db₃, -, h⟩ := (final_insertTransaction he).peel h
      obtain ⟨_, db₄, -, h⟩ :=
        (final_recordWalletTopupLedger he t.amount_pos).peel h
      rw [aborts_modify_bind] at h
      exact not_aborts_pure h
  · intro h
    exact ⟨_, ⟨h.1, .inl ⟨.range, addMoneyCents_eq_range h.2, rfl⟩⟩, by decide⟩

end Skrynia
