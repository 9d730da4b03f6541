/-
What a committed escrow operation has done.

One theorem an operation, each an inversion: from COMMIT to the order
before and after, the balances, the ledger and the timeline. Nothing
after this module unfolds the three bodies again.

# Three relations

- `OrderMoved`: one order row was replaced by a row of the same order.
- `Booked`: every balance moved by the entry's net on its account, and
  the entry was recorded (or skipped, if its key was taken).
- `EscrowFrame`: what no escrow operation touches, and the tables that
  only grow.
-/
import Skrynia.Orders.Ledger

namespace Skrynia

open Relational DoubleEntry

-- ===================================================== small statements

section Sequence

variable {α : Type} {db db' : Db} {b : α}

/-- A transaction row is written if its id is new and its amount fits. -/
theorem commits_insertTransaction_bind {cfg : Config} {id : Uuid}
    {wallet : WalletKey} {orderId : Option Uuid} {type : TransactionType}
    {direction : TransactionDirection} {amount : MoneyCents}
    {status : TransactionStatus} {g : Uuid → DbTx α} :
    Commits (insertTransaction cfg id wallet orderId type direction amount
        status >>= g) db b db'
      ↔ type ∈ cfg.transactionTypes ∧ ∃ h : 0 ≤ amount.val, ∃ t,
        db.transactions.insert?
          ⟨id, wallet, orderId, type, direction, amount, status, h⟩ = some t
        ∧ Commits (g id) (db.setTransactions t) b db' := by
  simp only [insertTransaction, bind_assoc, commits_require_bind,
    commits_check_bind, commits_select_bind, commits_orThrow_bind,
    commits_modify_bind, pure_bind]

/-- A chat message went to the order's chat, or the order has none. -/
inductive Messaged (db : Db) (id orderId : Uuid)
    (systemType bodyKey : String) (params : List (String × String))
    (resolution : Option (DisputeDecision × Uuid)) :
    Option Uuid → Table SystemMessage.id → Prop where
  | noChat (absent : db.conversations.find? orderId = none) :
      Messaged db id orderId systemType bodyKey params resolution none
        db.messages
  | sent {c : Conversation} {t : Table SystemMessage.id}
      (chat : db.conversations.find? orderId = some c)
      (inserted : db.messages.insert?
        ⟨id, c.id, systemType, bodyKey, params, resolution⟩ = some t) :
      Messaged db id orderId systemType bodyKey params resolution (some id) t

/-- The chat messages after a statement that writes no outcome of a
dispute. -/
def ChatGrew (t t' : Table SystemMessage.id) : Prop :=
  ∃ ms, t'.rows = t.rows ++ ms ∧ ∀ m ∈ ms, m.resolution = none

/-- No message need be added. -/
theorem ChatGrew.refl (t : Table SystemMessage.id) : ChatGrew t t :=
  ⟨[], by simp, by simp⟩

/-- A message that is sent is added to the chat. -/
theorem Messaged.grew {id orderId : Uuid} {systemType bodyKey : String}
    {params : List (String × String)} {m : Option Uuid}
    {t : Table SystemMessage.id}
    (h : Messaged db id orderId systemType bodyKey params none m t) :
    ChatGrew db.messages t := by
  cases h with
  | noChat _ => exact .refl _
  | sent _ inserted =>
      exact ⟨_, (Table.insert?_eq_some.mp inserted).2, by simp⟩

/-- An order's chat gets its message, if the order has one. -/
theorem commits_createOrderSystemMessage_bind {id orderId : Uuid}
    {systemType bodyKey : String} {params : List (String × String)}
    {resolution : Option (DisputeDecision × Uuid)}
    {g : Option Uuid → DbTx α} :
    Commits (createOrderSystemMessage id orderId systemType bodyKey params
        resolution >>= g) db b db'
      ↔ ∃ m t, Messaged db id orderId systemType bodyKey params resolution m t
        ∧ Commits (g m) (db.setMessages t) b db' := by
  simp only [createOrderSystemMessage, bind_assoc, commits_select_bind]
  cases hc : db.conversations.find? orderId with
  | none =>
      simp only [pure_bind]
      constructor
      · intro h
        exact ⟨none, db.messages, .noChat hc, h⟩
      · intro h'
        obtain ⟨m, t, hm, h⟩ := h'
        cases hm with
        | noChat _ => exact h
        | sent chat _ =>
            rw [hc] at chat
            cases chat
  | some c =>
      simp only [bind_assoc, commits_select_bind, commits_orThrow_bind,
        commits_modify_bind, pure_bind]
      constructor
      · intro h'
        obtain ⟨t, ht, h⟩ := h'
        exact ⟨some id, t, .sent hc ht, h⟩
      · intro h'
        obtain ⟨m, t, hm, h⟩ := h'
        cases hm with
        | noChat hnone =>
            rw [hc] at hnone
            cases hnone
        | sent chat inserted =>
            rw [hc] at chat
            cases chat
            exact ⟨t, inserted, h⟩

/-- A balance grows if the sum fits. -/
theorem commits_checkedBalanceAddition_bind {current added : MoneyCents}
    {name : String} {g : MoneyCents → DbTx α} :
    Commits (checkedBalanceAddition current added name >>= g) db b db'
      ↔ ∃ m : MoneyCents, m.val = current.val + added.val
        ∧ Commits (g m) db b db' := by
  simp only [checkedBalanceAddition, commits_liftExcept_bind,
    addMoneyCents_eq_ok]

/-- A balance shrinks if it is large enough. -/
theorem commits_checkedBalanceSubtraction_bind
    {current subtracted : MoneyCents} {name : String}
    {g : MoneyCents → DbTx α} :
    Commits (checkedBalanceSubtraction current subtracted name >>= g) db b db'
      ↔ subtracted.val ≤ current.val
        ∧ ∃ m : MoneyCents, m.val = current.val - subtracted.val
        ∧ Commits (g m) db b db' := by
  simp only [checkedBalanceSubtraction, bind_assoc, commits_require_bind,
    commits_liftExcept_bind, subtractMoneyCents_eq_ok]

/-- Revenue is booked where there is a fee, if the platform has a wallet for
it and the sum fits. -/
theorem commits_nextRevenue_bind {c : Currency} {fee : MoneyCents}
    {g : Option MoneyCents → DbTx α} :
    Commits (nextRevenue c fee >>= g) db b db'
      ↔ ∃ r, (0 < fee.val ∧ (∃ p next, db.platformWallets.find? c = some p
            ∧ next.val = p.revenueCents.val + fee.val ∧ r = some next)
          ∨ ¬ 0 < fee.val ∧ r = none) ∧ Commits (g r) db b db' := by
  unfold nextRevenue
  split
  · next h =>
    simp only [bind_assoc, commits_select_bind, commits_orThrow_bind,
      commits_checkedBalanceAddition_bind, pure_bind, h, true_and,
      not_true_eq_false, false_and, or_false]
    constructor
    · intro h
      obtain ⟨p, hp, next, hnext, hg⟩ := h
      exact ⟨some next, ⟨p, next, hp, hnext, rfl⟩, hg⟩
    · intro h
      obtain ⟨_, ⟨p, next, hp, hnext, rfl⟩, hg⟩ := h
      exact ⟨p, hp, next, hnext, hg⟩
  · next h =>
    simp only [pure_bind, h, false_and, false_or, not_false_eq_true,
      true_and, exists_eq_left]

/-- The fee reaches the platform's balance; a zero fee writes nothing. -/
theorem commits_storeRevenue_bind {c : Currency} {fee : MoneyCents}
    {r : Option MoneyCents} {g : Unit → DbTx α} (hfee : 0 ≤ fee.val)
    (hr : 0 < fee.val ∧ (∃ p next, db.platformWallets.find? c = some p
          ∧ next.val = p.revenueCents.val + fee.val ∧ r = some next)
        ∨ ¬ 0 < fee.val ∧ r = none)
    (h : Commits (storeRevenue c r >>= g) db b db') :
    ∃ t, (∀ c', revenueOf t c' = revenueOf db.platformWallets c'
          + if c' = c then fee.val else 0)
      ∧ Commits (g ()) (db.setPlatformWallets t) b db' := by
  rcases hr with ⟨-, p, next, hp, hnext, rfl⟩ | ⟨hz, rfl⟩
  · obtain ⟨hnn, h⟩ := (commits_setRevenue_bind hp).mp h
    refine ⟨_, ?_, h⟩
    intro c'
    have hc := Table.key_of_find? hp
    rw [revenueOf_set (p.withRevenue next hnn) hp hc c']
    split
    · next he =>
      rw [he, revenueOf_of_find? hp]
      exact hnext
    · exact (Int.add_zero _).symm
  · simp only [storeRevenue, pure_bind] at h
    refine ⟨db.platformWallets, ?_, h⟩
    intro c'
    split <;> omega

/-- Only releases outside a dispute write a chat message. -/
theorem commits_releaseMessage {input : ReleaseEscrowInput}
    {m : Option Uuid} (h : Commits (releaseMessage input) db m db') :
    ∃ t, db' = db.setMessages t ∧ ChatGrew db.messages t
      ∧ (input.resolvedSource = .dispute → t = db.messages) := by
  have hsent : ∀ {bodyKey : String},
      Commits (createOrderSystemMessage input.messageId input.orderId
        "escrow_released" bodyKey [] none) db m db' →
      ∃ t, db' = db.setMessages t ∧ ChatGrew db.messages t := by
    intro bodyKey h
    rw [← bind_pure (createOrderSystemMessage _ _ _ _ _ _),
      commits_createOrderSystemMessage_bind] at h
    obtain ⟨m', t, hm, h⟩ := h
    exact ⟨t, (commits_pure.mp h).2, hm.grew⟩
  unfold releaseMessage at h
  cases hsource : input.resolvedSource with
  | buyerConfirmed =>
      rw [hsource] at h
      obtain ⟨t, hdb, hgrew⟩ := hsent h
      exact ⟨t, hdb, hgrew, nofun⟩
  | auto =>
      rw [hsource] at h
      obtain ⟨t, hdb, hgrew⟩ := hsent h
      exact ⟨t, hdb, hgrew, nofun⟩
  | dispute =>
      rw [hsource] at h
      exact ⟨db.messages, (commits_pure.mp h).2, .refl _, fun _ => rfl⟩
  | service =>
      rw [hsource] at h
      exact ⟨db.messages, (commits_pure.mp h).2, .refl _, nofun⟩

/-- The product, where it is there, has room for the sale. -/
def SalesRoom (db : Db) (productId : Uuid) (quantity : Nat) : Prop :=
  ∀ p, db.products.find? productId = some p →
    p.salesCount + quantity ≤ int4Max

/-- The sale is counted on its product, if that is there. -/
theorem commits_countSale {productId : Uuid} {quantity : Nat} {x : Unit}
    (h : Commits (countSale productId quantity) db x db') :
    SalesRoom db productId quantity ∧ ∃ t, db' = db.setProducts t := by
  simp only [countSale, commits_select_bind] at h
  split at h
  · next hnone =>
    refine ⟨?_, db.products, (commits_pure.mp h).2⟩
    intro p hp
    rw [hnone] at hp
    cases hp
  · next product hproduct =>
    simp only [commits_require_bind, commits_modify] at h
    refine ⟨?_, _, h.2⟩
    intro p hp
    rw [hproduct] at hp
    cases hp
    exact h.1

end Sequence

-- ============================================================= relations

/-- The account that mirrors a balance. -/
def Balance.account : Balance → LedgerAccount
  | .available u c => .userPayable c u
  | .escrow u c => .sellerEscrow c u
  | .revenue c => .platformRevenue c

namespace Balance

variable {b : Balance} {u : Uuid} {c : Currency}

/-- The account of an available balance. -/
@[simp] theorem userPayable_eq_account :
    .userPayable c u = b.account ↔ b = .available u c := by
  cases b <;> simp [account, eq_comm, and_comm]

/-- The account of a balance in escrow. -/
@[simp] theorem sellerEscrow_eq_account :
    .sellerEscrow c u = b.account ↔ b = .escrow u c := by
  cases b <;> simp [account, eq_comm, and_comm]

/-- The account of the platform's revenue. -/
@[simp] theorem platformRevenue_eq_account :
    .platformRevenue c = b.account ↔ b = .revenue c := by
  cases b <;> simp [account, eq_comm]

/-- No balance is kept for provider clearing. -/
@[simp] theorem providerClearing_ne_account :
    ¬ .providerClearing c = b.account := by
  cases b <;> simp [account]

/-- Nor for manual adjustments. -/
@[simp] theorem manualAdjustment_ne_account :
    ¬ .manualAdjustment c = b.account := by
  cases b <;> simp [account]

end Balance

/-- Balances are columns of two tables. -/
theorem Db.balance_congr {db db' : Db} (hw : db'.wallets = db.wallets)
    (hp : db'.platformWallets = db.platformWallets) (b : Balance) :
    db'.balance b = db.balance b := by
  cases b <;> simp [Db.balance, hw, hp]

/-- Escrow accounts are told apart by their wallets. -/
theorem sellerEscrow_eq_iff {c c' : Currency} {u u' : Uuid} :
    LedgerAccount.sellerEscrow c' u' = .sellerEscrow c u
      ↔ (u, c) = (u', c') := by
  simp only [LedgerAccount.sellerEscrow.injEq, Prod.mk.injEq]
  constructor <;> rintro ⟨rfl, rfl⟩ <;> exact ⟨rfl, rfl⟩

/-- So are payable accounts. -/
theorem userPayable_eq_iff {c c' : Currency} {u u' : Uuid} :
    LedgerAccount.userPayable c' u' = .userPayable c u
      ↔ (u, c) = (u', c') := by
  simp only [LedgerAccount.userPayable.injEq, Prod.mk.injEq]
  constructor <;> rintro ⟨rfl, rfl⟩ <;> exact ⟨rfl, rfl⟩

/-- Every balance moved by the net of one entry, and the entry was
recorded or its key was taken. -/
structure Booked (entry : LedgerEntryInput) (db db' : Db) : Prop where
  balance : ∀ b : Balance, db'.balance b = db.balance b + entry.net b.account
  recorded : Recorded entry db.ledgerEntries db'.ledgerEntries

/-- The row of one order was replaced; whose order it is, for how much
and in which currency, stays. -/
structure OrderMoved (t t' : Table OrderRow.id) (o o' : OrderRow) : Prop where
  found : t.find? o.id = some o
  id_eq : o'.id = o.id
  buyer_eq : o'.buyerId = o.buyerId
  seller_eq : o'.sellerId = o.sellerId
  currency_eq : o'.currency = o.currency
  amount_eq : o'.amountCents = o.amountCents
  table_eq : t' = t.set o'

-- =============================================================== history

/-- The key starts with the event's type. -/
def OutboxEvent.Keyed (e : OutboxEvent) : Prop :=
  ∃ aggregate, e.eventKey = e.eventType.text ++ ":" ++ aggregate

/-- A key determines its event type and what follows it. -/
theorem eventKey_injective {a b : DomainEventType} {x y : String}
    (h : a.text ++ ":" ++ x = b.text ++ ":" ++ y) : a = b ∧ x = y := by
  rw [String.append_assoc, String.append_assoc] at h
  have hab : a = b := by
    cases a <;> cases b <;> first
      | rfl
      | exact absurd h (append_ne_append (by decide) (by decide))
  subst hab
  exact ⟨rfl, (String.append_right_inj _).mp ((String.append_right_inj _).mp h)⟩

/-- Timeline rows, chat messages and outbox events are only added, and
none of the new ones is the outcome of a dispute. -/
structure HistoryGrew (db db' : Db) : Prop where
  events : ∃ es, db'.orderEvents = db.orderEvents ++ es
    ∧ ∀ e ∈ es, e.resolution = none
  messages : ChatGrew db.messages db'.messages
  outbox : ∃ es, db'.domainOutbox.rows = db.domainOutbox.rows ++ es
    ∧ ∀ e ∈ es, e.Keyed ∧ e.eventType ≠ .disputeResolved

/-- A history that is the same has grown by nothing. -/
theorem HistoryGrew.of_eq {db db' : Db}
    (he : db'.orderEvents = db.orderEvents)
    (hm : db'.messages = db.messages)
    (ho : db'.domainOutbox = db.domainOutbox) : HistoryGrew db db' :=
  ⟨⟨[], by simp [he], by simp⟩, by rw [hm]; exact .refl _,
    ⟨[], by simp [ho], by simp⟩⟩

/-- What touches other tables leaves the history's growth. -/
theorem HistoryGrew.congr {db db' db'' : Db} (h : HistoryGrew db db')
    (he : db''.orderEvents = db'.orderEvents) (hm : db''.messages = db'.messages)
    (ho : db''.domainOutbox = db'.domainOutbox) : HistoryGrew db db'' where
  events := by
    rw [he]
    exact h.events
  messages := by
    rw [hm]
    exact h.messages
  outbox := by
    rw [ho]
    exact h.outbox

/-- The event of a transition is keyed, and resolves no dispute. -/
theorem outboxInput_keyed {order : OrderRow} {input : TransitionOrderInput}
    {e : OutboxEvent} (h : outboxInput order input = .ok e) :
    e.Keyed ∧ e.eventType ≠ .disputeResolved := by
  unfold outboxInput at h
  cases hids : systemMessageIds input.metadata.systemMessageIds with
  | error _ =>
      rw [hids] at h
      cases h
  | ok ids =>
      rw [hids] at h
      cases hreason : input.reason with
      | disputeOpened =>
          rw [hreason] at h
          cases hid : requiredMetadataString "disputeId"
              input.metadata.disputeId with
          | error _ =>
              rw [hid] at h
              cases h
          | ok disputeId =>
              rw [hid] at h
              cases h
              exact ⟨⟨disputeId, rfl⟩, nofun⟩
      | _ =>
          rw [hreason] at h
          cases h
          exact ⟨⟨_, rfl⟩, nofun⟩

/-- What one applied transition and its chat message add. -/
theorem Applied.historyGrew {cfg : Config} {now : Timestamp}
    {input : TransitionOrderInput} {db db₁ db' : Db} {o : OrderRow}
    {d : OrderEventDescriptor} {a : Option Uuid} {e : OutboxEvent}
    (happ : Applied cfg now input db₁ o d a e db')
    (hevents : db₁.orderEvents = db.orderEvents)
    (hmessages : ChatGrew db.messages db₁.messages)
    (houtbox : db₁.domainOutbox = db.domainOutbox) : HistoryGrew db db' := by
  rw [happ.db_eq]
  refine ⟨⟨[transitionEvent o input d a], ?_, ?_⟩, ?_, ?_⟩
  · simp [hevents]
  · intro e' he'
    rw [List.mem_singleton.mp he']
    rfl
  · exact hmessages
  · have hkeyed := outboxInput_keyed happ.event_eq
    rcases Table.rows_upsert db.domainOutbox e with h | h
    · exact ⟨[], by simpa [houtbox] using h, by simp⟩
    · exact ⟨[e], by simpa [houtbox] using h, by simpa using hkeyed⟩

/-- What an escrow operation leaves alone; its history rows are added to
what is there. -/
structure EscrowFrame (db db' : Db) : Prop where
  users : db'.users = db.users
  conversations : db'.conversations = db.conversations
  walletTopups : db'.walletTopups = db.walletTopups
  payouts : db'.payouts = db.payouts
  disputes : db'.disputes = db.disputes
  transactions : ∀ id, db.transactions.Has id → db'.transactions.Has id
  history : HistoryGrew db db'

-- =============================================================== capture

/-- The timeline row and the outbox event of one transition of `o`. -/
structure TimelineGrew (db db' : Db) (o : OrderRow) (toStatus : OrderStatus)
    (reason : TransitionReason) (actor : Actor) : Prop where
  event : ∃ e : OrderEvent, db'.orderEvents = db.orderEvents ++ [e]
    ∧ e.orderId = o.id ∧ e.resolution = none
    ∧ e.transition = some ⟨o.status, toStatus, reason, actor⟩
  outbox : ∃ e, db'.domainOutbox = db.domainOutbox.upsert e

/-- What a committed `lockEscrow` has done to order `o`. -/
structure Captured (cfg : Config) (now : Timestamp)
    (input : LockEscrowInput) (db db' : Db) (o o' : OrderRow) : Prop where
  order_eq : o.id = input.orderId
  fromPending : o.status = .pending
  toEscrow : o'.status = .paid ∨ o'.status = .delivered
  fee_le : o'.feeCents.val ≤ o'.amountCents.val
  moved : OrderMoved db.orders db'.orders o o'
  booked : Booked
    (paymentCaptureEntry o.id o.sellerId o.amountCents o.currency) db db'
  frame : EscrowFrame db db'

/-- A payment that commits has captured its order: the statements of the
transaction are taken one after the other, and each says what it found and
what it wrote. -/
theorem lockEscrow_captured {cfg : Config} {now : Timestamp}
    {input : LockEscrowInput} {db db' : Db} {r : OrderRow}
    (h : Commits (lockEscrow cfg now input) db r db') :
    ∃ o, Captured cfg now input db db' o r := by
  simp only [lockEscrow, commits_selectOrderForUpdate_bind,
    commits_require_bind, commits_select_bind, commits_orThrow_bind,
    commits_ensureWallet_bind, commits_selectWallet_bind,
    commits_checkedBalanceAddition_bind, commits_liftExcept_bind,
    reserveStock, commits_modify_bind] at h
  obtain ⟨o, hfind, -, hpending, product, -, -, w, hw, next, hnext, fee,
    hfee, payment, -, h⟩ := h
  obtain ⟨hnonneg, h⟩ := (commits_setEscrow_bind (by exact hw)).mp h
  simp only [commits_insertTransaction_bind] at h
  obtain ⟨-, _, t₁, ht₁, -, _, t₂, ht₂, h⟩ := h
  rw [recordPaymentCaptureLedger, commits_bind] at h
  obtain ⟨_, s, hpost, h⟩ := h
  obtain ⟨accounts, entries, hrec, rfl⟩ := posted_of_commits hpost
  simp only [storePayment, commits_check_bind, commits_modify_bind,
    commits_createOrderSystemMessage_bind, commits_transitionOrder] at h
  obtain ⟨hfee₀, m, messages, hm, o₂, ho₂, h⟩ := h
  -- the row that `transitionOrder` locks is the one just written
  have ho₂' : o₂ = o.withPayment fee hfee₀ payment.provider
      payment.reference product.instantTemplate := by
    have hid : o.id = input.orderId := Table.key_of_find? hfind
    rw [← hid] at hfind
    exact Option.some.inj (ho₂.symm.trans (Table.find?_set_self hfind))
  subst ho₂'
  rcases h with ⟨⟨hs, -⟩, -⟩ | ⟨-, rfl, d, a, e, happ⟩
  · change o.status = _ at hs
    rw [hpending, captureTransitionInput] at hs
    split at hs <;> cases hs
  have hid := Table.key_of_find? hfind
  rw [← hid] at hfind
  refine ⟨o, hid, hpending, ?_, (platformFeeCents_le hfee).2,
    ⟨hfind, rfl, rfl, rfl, rfl, rfl, ?_⟩, ⟨?_, ?_⟩, ?_⟩
  · show (if _ then _ else _) = _ ∨ (if _ then _ else _) = _
    split
    · exact .inr rfl
    · exact .inl rfl
  · rw [happ.db_eq]
    exact Table.set_set rfl
  · intro b
    rw [happ.db_eq]
    have hescrow := Wallets.escrowOf_of_find? hw
    rw [net_paymentCaptureEntry]
    cases b with
    | available u c =>
        refine (Wallets.availableOf_withEscrow hw (u, c)).trans ?_
        simp [Balance.account, Db.openWallet, Db.balance]
    | escrow u c =>
        refine (Wallets.escrowOf_withEscrow hw (u, c)).trans ?_
        simp only [Db.openWallet, Wallets.escrowOf_ensured] at hescrow ⊢
        simp only [Balance.account, Db.balance, hnext, ← hescrow,
          sellerEscrow_eq_iff, reduceCtorEq, if_false, Int.sub_zero]
        split
        · next hk => rw [hk]
        · exact (Int.add_zero _).symm
    | revenue c =>
        simp [Balance.account, Db.balance]
  · rw [happ.db_eq]
    exact hrec
  · have hhistory : HistoryGrew db db' :=
      happ.historyGrew (by simp) (by simpa using hm.grew) (by simp)
    rw [happ.db_eq] at hhistory ⊢
    refine ⟨by simp, by simp, by simp, by simp, by simp, ?_, hhistory⟩
    intro id hhas
    exact (Table.has_insert ht₂).mpr (.inl ((Table.has_insert ht₁).mpr
      (.inl hhas)))

-- =============================================================== release

/-- What a committed `releaseEscrow` has done to order `o`. -/
structure Released (input : ReleaseEscrowInput) (db db' : Db)
    (o o' : OrderRow) : Prop where
  order_eq : o.id = input.orderId
  edge : canTransitionOrder o.status .completed
  expected : o.status ∈ (releaseTransition input o).2.2
  matchesActor : ActorMatches db.users o (releaseTransition input o).1
  completed : o'.status = .completed
  moved : OrderMoved db.orders db'.orders o o'
  fee_eq : o'.feeCents = o.feeCents
  fee_le : o.feeCents.val ≤ o.amountCents.val
  escrow_le : o.amountCents.val ≤ db.balance (.escrow o.sellerId o.currency)
  revenue : 0 < o.feeCents.val → db.platformWallets.Has o.currency
  sales : SalesRoom db o.productId o.quantity
  booked : ∃ netCents : MoneyCents,
    netCents.val = o.amountCents.val - o.feeCents.val ∧ Booked
      (escrowReleaseEntry o.id o.sellerId o.amountCents o.feeCents netCents
        o.currency) db db'
  timeline : TimelineGrew db db' o .completed
    (releaseTransition input o).2.1 (releaseTransition input o).1
  messages : input.resolvedSource = .dispute → db'.messages = db.messages
  frame : EscrowFrame db db'

/-- A release that commits has paid the seller and the platform: the fee and
the rest add up to what was held, and each has its wallet, its transaction
and its lines. -/
theorem releaseEscrow_released {cfg : Config} {now : Timestamp}
    {input : ReleaseEscrowInput} {db db' : Db} {r : OrderRow}
    (h : Commits (releaseEscrow cfg now input) db r db') :
    ∃ o, Released input db db' o r := by
  simp only [releaseEscrow, commits_selectOrderForUpdate_bind,
    commits_require_bind] at h
  obtain ⟨o, hfind, hedge, h⟩ := h
  rw [commits_bind] at h
  obtain ⟨m, s, hm, h⟩ := h
  obtain ⟨messages, rfl, hchat, hquiet⟩ := commits_releaseMessage hm
  rw [commits_bind] at h
  obtain ⟨o', s, ht, h⟩ := h
  obtain ⟨rfl, d, a, e, happ⟩ := applied_of_edge hfind hedge ht
  have hdb := happ.db_eq
  subst hdb
  simp only [commits_ensureWallet_bind, commits_selectWallet_bind,
    commits_require_bind, commits_liftExcept_bind,
    subtractMoneyCents_eq_ok, commits_checkedBalanceSubtraction_bind,
    commits_checkedBalanceAddition_bind, commits_nextRevenue_bind] at h
  obtain ⟨w, hw, hfee, netCents, hnet, hle, nextEscrow, hescrow,
    nextAvailable, havailable, nextRev, hrev, h⟩ := h
  obtain ⟨hnn₁, h⟩ := (commits_setEscrow_bind (by exact hw)).mp h
  obtain ⟨hnn₂, h⟩ :=
    (commits_setAvailable_bind (Wallets.find?_withEscrow hw)).mp h
  obtain ⟨revenues, hrevenues, h⟩ :=
    commits_storeRevenue_bind o.fee_nonneg (by exact hrev) h
  simp only [commits_insertTransaction_bind] at h
  obtain ⟨-, _, t₁, ht₁, -, _, t₂, ht₂, h⟩ := h
  simp only [commits_bind, commits_pure] at h
  obtain ⟨_, s, hpost, _, s', hsale, rfl, rfl⟩ := h
  obtain ⟨netCents', hnet', accounts, entries, hrec, rfl⟩ :=
    commits_recordEscrowReleaseLedger hpost
  obtain rfl : netCents' = netCents :=
    MoneyCents.ext (hnet'.trans hnet.symm)
  obtain ⟨hsales, products, rfl⟩ := commits_countSale hsale
  have hid := Table.key_of_find? hfind
  rw [← hid] at hfind
  have hE := Wallets.escrowOf_of_find? hw
  have hA := Wallets.availableOf_of_find? hw
  simp only [Db.openWallet, Db.addOutboxEvent, Db.addOrderEvent, Db.putOrder,
    Db.setMessages, Wallets.escrowOf_ensured, Wallets.availableOf_ensured]
    at hE hA
  refine ⟨o, hid, hedge, ?_, ?_, rfl, ⟨hfind, rfl, rfl, rfl, rfl, rfl, rfl⟩,
    rfl, hfee, ?_, ?_, ?_, ⟨netCents', hnet, ?_, ?_⟩, ⟨?_, ?_⟩, ?_, ?_⟩
  · exact happ.expected _ rfl
  · have hact := happ.matchesActor
    simp only [Db.setMessages] at hact
    exact hact
  · show _ ≤ Wallets.escrowOf db.wallets (o.sellerId, o.currency)
    rw [hE]
    exact hle
  · intro hpos
    rcases hrev with ⟨-, p, _, hp, -⟩ | ⟨hzero, -⟩
    · exact Table.has_iff.mpr ⟨p, hp⟩
    · exact absurd hpos hzero
  · simpa [SalesRoom] using hsales
  · intro b
    rw [net_escrowReleaseEntry o.fee_nonneg (by omega)]
    cases b with
    | available u c =>
        refine (Wallets.availableOf_withAvailable
          (Wallets.find?_withEscrow hw) (u, c)).trans ?_
        rw [Wallets.availableOf_withEscrow hw]
        simp only [Balance.account, Db.balance, userPayable_eq_iff,
          reduceCtorEq, if_false]
        split
        · next hk =>
          rw [hk, havailable, hA]
          omega
        · simp
    | escrow u c =>
        refine (Wallets.escrowOf_withAvailable
          (Wallets.find?_withEscrow hw) (u, c)).trans ?_
        rw [Wallets.escrowOf_withEscrow hw]
        simp only [Balance.account, Db.balance, sellerEscrow_eq_iff,
          reduceCtorEq, if_false]
        split
        · next hk =>
          rw [hk, hescrow, hE]
          omega
        · simp
    | revenue c =>
        simp only [Db.setProducts, Db.setLedger, Db.setTransactions,
          Db.setPlatformWallets, Db.balance, hrevenues]
        simp only [Balance.account, reduceCtorEq, if_false,
          LedgerAccount.platformRevenue.injEq, eq_comm]
        simp
  · simpa using hrec
  · exact ⟨transitionEvent o (releaseTransitionInput input o m) d a,
      by simp, rfl, rfl, rfl⟩
  · exact ⟨e, by simp⟩
  · intro hsource
    rw [← hquiet hsource]
    simp
  · refine ⟨by simp, by simp, by simp, by simp, by simp, ?_, ?_⟩
    · intro id hhas
      have hold : t₁.Has id := by
        rw [Table.has_insert ht₁]
        left
        simpa using hhas
      have hnew : t₂.Has id := by
        rw [Table.has_insert ht₂]
        left
        simpa using hold
      simpa using hnew
    · have hgrew : HistoryGrew db _ := happ.historyGrew rfl hchat rfl
      exact hgrew.congr (by simp) (by simp) (by simp)

-- ================================================================ refund

/-- What a committed `refundEscrow` has done to order `o`. -/
structure Refunded (input : RefundEscrowInput) (db db' : Db)
    (o o' : OrderRow) : Prop where
  order_eq : o.id = input.orderId
  edge : canTransitionOrder o.status .refunded
  expected : o.status ∈ (refundTransition input).2.2
  matchesActor : ActorMatches db.users o (refundTransition input).1
  refunded : o'.status = .refunded
  moved : OrderMoved db.orders db'.orders o o'
  fee_eq : o'.feeCents = o.feeCents
  escrow_le : o.amountCents.val ≤ db.balance (.escrow o.sellerId o.currency)
  booked : Booked
    (refundEntry o.id o.sellerId o.buyerId o.amountCents o.currency) db db'
  timeline : TimelineGrew db db' o .refunded (refundTransition input).2.1
    (refundTransition input).1
  messages : db'.messages = db.messages
  frame : EscrowFrame db db'

/-- A refund that commits has paid the buyer, from the seller's escrow to the
buyer's available balance, with the two transactions and the entry of the
order. -/
theorem refundEscrow_refunded {cfg : Config} {now : Timestamp}
    {input : RefundEscrowInput} {db db' : Db} {r : OrderRow}
    (h : Commits (refundEscrow cfg now input) db r db') :
    ∃ o, Refunded input db db' o r := by
  simp only [refundEscrow, commits_selectOrderForUpdate_bind,
    commits_require_bind] at h
  obtain ⟨o, hfind, hedge, h⟩ := h
  rw [commits_bind] at h
  obtain ⟨o', s, ht, h⟩ := h
  obtain ⟨rfl, d, a, e, happ⟩ := applied_of_edge hfind hedge ht
  have hdb := happ.db_eq
  subst hdb
  simp only [commits_ensureWallet_bind, commits_selectWallet_bind,
    commits_checkedBalanceSubtraction_bind,
    commits_checkedBalanceAddition_bind] at h
  obtain ⟨w, hw, v, hv, hle, nextEscrow, hescrow, nextAvailable,
    havailable, h⟩ := h
  obtain ⟨hnn₁, h⟩ := (commits_setEscrow_bind (by exact hw)).mp h
  -- buyer and seller may be one user with one wallet
  obtain ⟨v', hv'⟩ := Wallets.find?_after_withEscrow (w := w) (h := hnn₁) hv
  obtain ⟨hnn₂, h⟩ := (commits_setAvailable_bind (by exact hv')).mp h
  simp only [commits_insertTransaction_bind] at h
  obtain ⟨-, _, t₁, ht₁, -, _, t₂, ht₂, h⟩ := h
  simp only [commits_bind, commits_pure] at h
  obtain ⟨_, s, hpost, rfl, rfl⟩ := h
  obtain ⟨accounts, entries, hrec, rfl⟩ := posted_of_commits hpost
  have hid := Table.key_of_find? hfind
  rw [← hid] at hfind
  have hE := Wallets.escrowOf_of_find? hw
  have hA := Wallets.availableOf_of_find? hv
  simp only [Db.openWallet, Db.addOutboxEvent, Db.addOrderEvent, Db.putOrder,
    Wallets.escrowOf_ensured, Wallets.availableOf_ensured] at hE hA
  refine ⟨o, hid, hedge, ?_, happ.matchesActor, rfl,
    ⟨hfind, rfl, rfl, rfl, rfl, rfl, by simp⟩, rfl, ?_, ⟨?_, ?_⟩, ⟨?_, ?_⟩,
    by simp, ?_⟩
  · exact happ.expected _ rfl
  · show _ ≤ Wallets.escrowOf db.wallets (o.sellerId, o.currency)
    rw [hE]
    exact hle
  · intro b
    rw [net_refundEntry]
    cases b with
    | available u c =>
        refine (Wallets.availableOf_withAvailable hv' (u, c)).trans ?_
        rw [Wallets.availableOf_withEscrow hw]
        simp only [Balance.account, Db.balance, userPayable_eq_iff,
          reduceCtorEq, if_false]
        split
        · next hk =>
          rw [hk, havailable, hA]
          omega
        · simp
    | escrow u c =>
        refine (Wallets.escrowOf_withAvailable hv' (u, c)).trans ?_
        rw [Wallets.escrowOf_withEscrow hw]
        simp only [Balance.account, Db.balance, sellerEscrow_eq_iff,
          reduceCtorEq, if_false]
        split
        · next hk =>
          rw [hk, hescrow, hE]
          omega
        · simp
    | revenue c => simp [Balance.account, Db.balance]
  · simpa using hrec
  · exact ⟨transitionEvent o (refundTransitionInput input) d a, by simp,
      rfl, rfl, rfl⟩
  · exact ⟨e, by simp⟩
  · refine ⟨by simp, by simp, by simp, by simp, by simp, ?_, ?_⟩
    · intro id hhas
      have hold : t₁.Has id := by
        rw [Table.has_insert ht₁]
        left
        simpa using hhas
      have hnew : t₂.Has id := by
        rw [Table.has_insert ht₂]
        left
        simpa using hold
      simpa using hnew
    · have hgrew : HistoryGrew db _ := happ.historyGrew rfl (.refl _) rfl
      exact hgrew.congr (by simp) (by simp) (by simp)

end Skrynia
