/-
Escrow is backed by open orders.

A seller's escrow balance is one number for any number of orders. It is
always the sum of the amounts of the seller's orders in escrow, so no
order is paid out of another one's money and a release or a refund never
finds too little. The ledger tells the same story order by order: an
entry of an order's key is there exactly when the order's status calls
for it.
-/
import Mathlib.Algebra.Order.Ring.Int
import Skrynia.Market.Agreement

namespace Skrynia

open Relational DoubleEntry Stepping

-- ============================================================== the sums

/-- What an order holds in the escrow of a seller and currency. -/
def OrderRow.held (u : Uuid) (c : Currency) (o : OrderRow) : Int :=
  if o.sellerId = u ∧ o.currency = c ∧ o.status.Escrowed then
    o.amountCents.val
  else 0

/-- Every escrow balance is the sum of the open orders behind it. -/
def Backed (db : Db) : Prop :=
  ∀ u c, db.balance (.escrow u c) = db.orders.sum (OrderRow.held u c)

/-- An escrowed order holds its amount for its seller in its currency, and
nothing for anybody else. -/
theorem OrderRow.held_of_escrowed {o : OrderRow} (h : o.status.Escrowed)
    {u : Uuid} {c : Currency} :
    o.held u c
      = if .sellerEscrow o.currency o.sellerId = (Balance.escrow u c).account
        then o.amountCents.val else 0 := by
  simp only [OrderRow.held, h, and_true, Balance.account,
    LedgerAccount.sellerEscrow.injEq]
  by_cases hu : o.sellerId = u <;> by_cases hc : o.currency = c <;>
    simp [hu, hc]

/-- An order that is not escrowed holds nothing. -/
theorem OrderRow.held_of_not_escrowed {o : OrderRow}
    (h : ¬ o.status.Escrowed) {u : Uuid} {c : Currency} : o.held u c = 0 := by
  simp [OrderRow.held, h]

/-- What an order holds is never negative, as amounts are positive. -/
theorem OrderRow.held_nonneg (u : Uuid) (c : Currency) (o : OrderRow) :
    0 ≤ o.held u c := by
  unfold OrderRow.held
  split
  · exact Int.le_of_lt o.amount_pos
  · exact Int.le_refl 0

/-- The same order, still in escrow or still out of it. -/
theorem OrderMoved.held_eq {t t' : Table OrderRow.id} {o o' : OrderRow}
    (h : OrderMoved t t' o o') (hs : o'.status.Escrowed ↔ o.status.Escrowed)
    (u : Uuid) (c : Currency) : o'.held u c = o.held u c := by
  simp only [OrderRow.held, h.seller_eq, h.currency_eq, h.amount_eq, hs]

/-- When one order moves, what all orders hold changes by what this one
holds. -/
theorem OrderMoved.sum_held {t t' : Table OrderRow.id} {o o' : OrderRow}
    (h : OrderMoved t t' o o') (u : Uuid) (c : Currency) :
    t'.sum (OrderRow.held u c)
      = t.sum (OrderRow.held u c) + (o'.held u c - o.held u c) := by
  rw [h.table_eq]
  have hfound := h.found
  rw [← h.id_eq] at hfound
  exact Table.sum_set (OrderRow.held u c) hfound

section Steps

variable {db db' : Db} {o o' : OrderRow}

/-- A move along the graph outside of escrow moves no money, and the order
holds as much after as before. -/
theorem Walked.backed (h : Walked db db' o o') (hdb : Backed db) :
    Backed db' := by
  intro u c
  rw [Db.balance_congr h.books.wallets h.books.platformWallets,
    h.moved.sum_held, hdb]
  have hheld : o'.held u c = o.held u c := by
    refine h.moved.held_eq ?_ u c
    rcases walked_statuses h.edge h.unsettled h.unpaid with
      ⟨hs, hs'⟩ | ⟨hs, hs'⟩
    · rw [hs, hs']
      decide
    · exact iff_of_true hs' hs
  rw [hheld]
  omega

/-- A capture puts the amount into the seller's escrow as the order begins to
hold it. -/
theorem Captured.backed {cfg : Config} {now : Timestamp}
    {input : LockEscrowInput} (h : Captured cfg now input db db' o o')
    (hdb : Backed db) : Backed db' := by
  intro u c
  have hbefore : ¬ o.status.Escrowed := by
    rw [h.fromPending]
    decide
  rw [h.booked.balance, h.moved.sum_held, hdb, net_paymentCaptureEntry,
    OrderRow.held_of_escrowed h.escrowed,
    OrderRow.held_of_not_escrowed hbefore, h.moved.currency_eq,
    h.moved.seller_eq, h.moved.amount_eq]
  simp

/-- A release takes the amount out of the seller's escrow as the order stops
holding it. -/
theorem Released.backed {input : ReleaseEscrowInput}
    (h : Released input db db' o o') (hdb : Backed db) : Backed db' := by
  intro u c
  have hafter : ¬ o'.status.Escrowed := by
    rw [h.completed]
    decide
  obtain ⟨netCents, hnet, hbooked⟩ := h.booked
  have hfee := h.fee_le
  rw [hbooked.balance, h.moved.sum_held, hdb,
    net_escrowReleaseEntry o.fee_nonneg (by omega),
    OrderRow.held_of_escrowed (escrowed_of_settling h.edge (.inl rfl)),
    OrderRow.held_of_not_escrowed hafter]
  simp [Balance.account]

/-- So does a refund, to the buyer. -/
theorem Refunded.backed {input : RefundEscrowInput}
    (h : Refunded input db db' o o') (hdb : Backed db) : Backed db' := by
  intro u c
  have hafter : ¬ o'.status.Escrowed := by
    rw [h.refunded]
    decide
  rw [h.booked.balance, h.moved.sum_held, hdb, net_refundEntry,
    OrderRow.held_of_escrowed (escrowed_of_settling h.edge (.inr rfl)),
    OrderRow.held_of_not_escrowed hafter]
  simp [Balance.account]

/-- A posting on a user's available balance leaves escrow alone. -/
theorem Backed.of_booked {entry : LedgerEntryInput}
    (hdb : Backed db) (h : Booked entry db db')
    (horders : db'.orders = db.orders)
    (hnet : ∀ u c, entry.net (Balance.escrow u c).account = 0) :
    Backed db' := by
  intro u c
  rw [h.balance, hnet, horders, hdb]
  omega

end Steps

/-- Every committed operation keeps the escrow backed, by what it is: a
capture adds its amount to both sides, a release or a refund takes it from
both, and the rest touches neither. -/
theorem Moved.backed {drawn : Option String} {db db' : Db}
    (h : Moved drawn db db') (hdb : Backed db) : Backed db' := by
  cases h with
  | idle => exact hdb
  | created h =>
      intro u c
      have hpending : OrderRow.held u c _ = 0 :=
        OrderRow.held_of_not_escrowed (by rw [h.pending]; decide)
      rw [Db.balance_congr h.books.wallets h.books.platformWallets,
        Table.sum_insert (OrderRow.held u c) h.inserted, hdb, hpending]
      omega
  | walked h _ => exact h.backed hdb
  | disputed h =>
      cases h with
      | repeated => exact hdb
      | opened _ _ _ _ walked => exact walked.backed hdb
  | captured h => exact h.backed hdb
  | released h => exact h.backed hdb
  | refunded h => exact h.backed hdb
  | toppedUp h =>
      cases h with
      | repeated _ _ => exact hdb
      | credited _ _ _ _ booked frame =>
          refine hdb.of_booked booked frame.orders fun u c => ?_
          rw [net_walletTopupEntry]
          simp [Balance.account]
  | withdrawn h =>
      refine hdb.of_booked h.booked h.frame.orders fun u c => ?_
      rw [net_walletWithdrawalEntry]
      simp [Balance.account]
  | adjusted h _ =>
      obtain ⟨magnitude, hmagnitude, hbooked⟩ := h.booked
      refine hdb.of_booked hbooked h.frame.orders fun u c => ?_
      rw [net_manualAdjustmentEntry hmagnitude]
      simp [Balance.account]
  | rejected h =>
      refine hdb.of_booked h.booked h.frame.orders fun u c => ?_
      rw [net_walletWithdrawalReversalEntry]
      simp [Balance.account]
  | paid h =>
      rw [h.db_eq]
      exact hdb
  | userUpdated h =>
      obtain ⟨_, rfl⟩ := h.rest
      exact hdb

-- ======================================================== order by order

/-- The entries of one type that an order carries. -/
def Db.entriesOf (db : Db) (type : LedgerEntryType) (orderId : Uuid) :
    List LedgerEntry :=
  db.ledgerEntries.rows.filter fun e =>
    e.entryType = type ∧ e.orderId = some orderId

/-- Every entry is what its key says, and an order's entry is there when
it is due. -/
structure Ledgered (db : Db) : Prop where
  kind : ∀ e ∈ db.ledgerEntries.rows, ∃ k : LedgerKey,
    e.idempotencyKey = k.text ∧ e.entryType = k.entryType
      ∧ e.orderId = k.orderId
  due : ∀ k : LedgerKey, k.orderId.isSome →
    (db.ledgerEntries.Has k.text ↔ Due db k)

/-- What is due was brought about by an event. -/
theorem Due.spent {ds : List String} {db : Db} {k : LedgerKey}
    (h : Due db k) : Spent ds db k := by
  obtain ⟨id, hk, o, hfind, hstatus⟩ := h
  cases k <;> simp only [LedgerKey.orderId, Option.some.injEq,
    reduceCtorEq] at hk <;> subst hk
  · exact ⟨o, hfind, hstatus.1⟩
  · exact ⟨o, hfind, hstatus⟩
  · exact ⟨o, hfind, hstatus⟩

/-- A posting keeps the entries of the orders those that their states ask
for. -/
theorem Ledgered.step {db db' : Db} {drawn : Option String}
    (h : Ledgered db) (hposting : Posting drawn db db') : Ledgered db' := by
  cases hposting with
  | none _ entries due =>
      refine ⟨?_, ?_⟩
      · rw [entries]
        exact h.kind
      · intro k hk
        rw [entries, due]
        exact h.due k hk
  | @booked entry booked currency kind due unspent _ =>
      by_cases hfree : db.ledgerEntries.Has entry.idempotencyKey.text
      · -- only a key that no order has can be taken
        have hnone : entry.idempotencyKey.orderId = none := by
          by_contra hsome
          have hisSome := Option.isSome_iff_ne_none.mpr hsome
          exact unspent [] (by simp) ((h.due _ hisSome).mp hfree).spent
        have hsame : db'.ledgerEntries = db.ledgerEntries := by
          have hrecorded := booked.recorded
          generalize db'.ledgerEntries = entries at hrecorded
          cases hrecorded with
          | skipped _ => rfl
          | posted _ _ _ inserted =>
              exact absurd hfree (Table.insert?_eq_some.mp inserted).1
        refine ⟨?_, ?_⟩
        · rw [hsame]
          exact h.kind
        · intro k hk
          have hne : k ≠ entry.idempotencyKey := by
            intro heq
            subst heq
            simp [hnone] at hk
          rw [hsame, h.due k hk, due k hk]
          simp [hne]
      · obtain ⟨e, hinsert, hkey, htype, horder, -⟩ :=
          booked.inserted hfree currency
        refine ⟨?_, ?_⟩
        · rw [(Table.insert?_eq_some.mp hinsert).2]
          intro e' he'
          rcases List.mem_append.mp he' with he' | he'
          · exact h.kind e' he'
          · rw [List.mem_singleton.mp he']
            exact ⟨_, hkey, htype.trans kind.1, horder.trans kind.2⟩
        · intro k hk
          rw [Table.has_insert hinsert, h.due k hk, due k hk, hkey]
          refine or_congr_right ?_
          constructor
          · intro htext
            exact LedgerKey.text_injective htext
          · intro heq
            subst heq
            rfl

/-- The entries of a kind are the one of the key. -/
theorem Ledgered.length_entriesOf {db : Db} (h : Ledgered db)
    {k : LedgerKey} {id : Uuid} (hk : k.orderId = some id) :
    (db.entriesOf k.entryType id).length
      = if db.ledgerEntries.Has k.text then 1 else 0 := by
  rw [← Table.length_filter_key]
  refine congrArg List.length (List.filter_congr fun e he => ?_)
  obtain ⟨k', hkey, htype, horder⟩ := h.kind e he
  rw [hkey, htype, horder, decide_eq_decide]
  constructor
  · intro h
    obtain ⟨ht, ho⟩ := h
    cases k <;> cases k' <;>
      simp_all [LedgerKey.entryType, LedgerKey.orderId]
  · intro htext
    rw [LedgerKey.text_injective htext]
    exact ⟨rfl, hk⟩

-- ==================================================== the unreachable branch

/-- `Escrow balance is insufficient`. -/
def escrowInsufficient : Failure :=
  badRequest "Escrow balance is insufficient"

/-- Of all the messages with a prefix of their own only that of escrow can be
the insufficiency. -/
theorem escrowInsufficient_ne {p x : String}
    (h : ¬ p.toList <+: "Escrow balance is insufficient".toList) :
    escrowInsufficient ≠ badRequest (p ++ x) := by
  intro heq
  have htext : "Escrow balance is insufficient" = p ++ x := by
    simpa [escrowInsufficient, badRequest] using heq
  refine h ?_
  rw [htext, String.toList_append]
  exact List.prefix_append _ _

/-- A transition that the graph does not have fails with another message. -/
theorem escrowInsufficient_ne_cannotTransition
    {status toStatus : OrderStatus} :
    escrowInsufficient ≠ cannotTransition status toStatus := by
  unfold cannotTransition
  rw [String.append_assoc, String.append_assoc]
  exact escrowInsufficient_ne (by decide)

section Never

variable {cfg : Config} {now : Timestamp}

/-- Selecting the order fails only when it is not there. -/
theorem never_selectOrderForUpdate {id : Uuid} :
    Never escrowInsufficient (selectOrderForUpdate id) :=
  never_bind (never_select _) fun _ => never_orThrow (by decide)

-- The metadata of a transition fails with errors that are no `ApiError`.

/-- A missing metadata string is an error of its own kind. -/
theorem requiredMetadataString_error {key : String} {v : MetaValue}
    {e : Failure} (h : requiredMetadataString key v = .error e) :
    ∃ message, e = .error message := by
  unfold requiredMetadataString at h
  split at h
  · cases h
  · cases h
    exact ⟨_, rfl⟩

/-- So are system message ids that are none. -/
theorem systemMessageIds_error {v : MetaValue} {e : Failure}
    (h : systemMessageIds v = .error e) : ∃ message, e = .error message := by
  unfold systemMessageIds at h
  split at h <;> cases h
  exact ⟨_, rfl⟩

/-- Building the event fails only by its metadata. -/
theorem eventDescriptor_error {input : TransitionOrderInput} {e : Failure}
    (h : eventDescriptor input = .error e) : ∃ message, e = .error message := by
  unfold eventDescriptor at h
  split at h <;> try cases h
  cases hbody : requiredMetadataString "disputeReason"
      input.metadata.disputeReason with
  | error e' =>
      rw [hbody] at h
      cases h
      exact requiredMetadataString_error hbody
  | ok body =>
      rw [hbody] at h
      cases h

/-- So does building the outbox row. -/
theorem outboxInput_error {order : OrderRow} {input : TransitionOrderInput}
    {e : Failure} (h : outboxInput order input = .error e) :
    ∃ message, e = .error message := by
  unfold outboxInput at h
  cases hids : systemMessageIds input.metadata.systemMessageIds with
  | error e' =>
      rw [hids] at h
      cases h
      exact systemMessageIds_error hids
  | ok ids =>
      rw [hids] at h
      cases hreason : input.reason with
      | disputeOpened =>
          rw [hreason] at h
          cases hid : requiredMetadataString "disputeId"
              input.metadata.disputeId with
          | error e' =>
              rw [hid] at h
              cases h
              exact requiredMetadataString_error hid
          | ok disputeId =>
              rw [hid] at h
              cases h
      | _ =>
          rw [hreason] at h
          cases h

/-- A text that is no uuid is refused by the database, not by the escrow. -/
theorem uuidParam_error {id : ActorId} {e : Failure}
    (h : uuidParam id = .error e) : ∃ constraint, e = .violation constraint := by
  cases id <;> cases h
  exact ⟨_, rfl⟩

/-- The actor's id fails as a uuid only. -/
theorem transitionActorId_error {actor : Actor} {e : Failure}
    (h : transitionActorId actor = .error e) :
    ∃ constraint, e = .violation constraint := by
  unfold transitionActorId at h
  split at h <;> try cases h
  all_goals
    cases hid : uuidParam _ with
    | error e' =>
        rw [hid] at h
        cases h
        exact uuidParam_error hid
    | ok uid =>
        rw [hid] at h
        cases h

/-- A refused actor is told so. -/
theorem never_assertActorPermission {order : OrderRow} {actor : Actor}
    {reason : TransitionReason} {toStatus : OrderStatus} :
    Never escrowInsufficient
      (assertActorPermission order actor reason toStatus) := by
  refine never_bind (never_require (by decide)) fun _ => ?_
  rcases actor with ⟨id, role⟩ | ⟨id, role⟩ <;> cases role
  case user.admin =>
    refine never_bind (never_liftExcept fun e' he' => ?_) fun uid => ?_
    · obtain ⟨_, rfl⟩ := uuidParam_error he'
      nofun
    · exact never_bind (never_select _) fun _ => never_require (by decide)
  all_goals
    first
    | exact never_require (by decide)
    | exact never_pure _

/-- A transition of an order never ends with insufficient escrow. -/
theorem never_transitionOrder {input : TransitionOrderInput} :
    Never escrowInsufficient (transitionOrder cfg now input) := by
  refine never_bind never_selectOrderForUpdate fun order => ?_
  have hdescriptor : Never escrowInsufficient (liftExcept
      (eventDescriptor input) fun e => e : DbTx OrderEventDescriptor) := by
    refine never_liftExcept fun e he => ?_
    obtain ⟨_, rfl⟩ := eventDescriptor_error he
    nofun
  refine never_bind ?_ fun isRepeat => ?_
  · exact never_ite (never_bind hdescriptor fun _ => never_select _)
      (never_pure _)
  refine never_ite (never_pure _) ?_
  refine never_bind (never_require escrowInsufficient_ne_cannotTransition)
    fun _ => ?_
  refine never_bind (never_require escrowInsufficient_ne_cannotTransition)
    fun _ => ?_
  refine never_bind never_assertActorPermission fun _ => ?_
  refine never_bind (never_modify _) fun _ => ?_
  refine never_bind hdescriptor fun descriptor => ?_
  refine never_bind (never_liftExcept fun e he => ?_) fun actorId => ?_
  · obtain ⟨_, rfl⟩ := transitionActorId_error he
    nofun
  refine never_bind (never_modify _) fun _ => ?_
  refine never_bind (never_liftExcept fun e he => ?_) fun event => ?_
  · obtain ⟨_, rfl⟩ := outboxInput_error he
    nofun
  refine never_bind ?_ fun _ => never_pure _
  refine never_bind (never_modify _) fun _ => ?_
  exact never_bind (never_select _) fun _ => never_orThrow nofun

/-- Writing a system message does not look at wallets. -/
theorem never_createOrderSystemMessage {id orderId : Uuid}
    {systemType bodyKey : String} {params : List (String × String)}
    {resolution : Option (DisputeDecision × Uuid)} :
    Never escrowInsufficient (createOrderSystemMessage id orderId systemType
      bodyKey params resolution) := by
  refine never_bind (never_select _) fun conversation => ?_
  cases conversation with
  | none => exact never_pure _
  | some c =>
      refine never_bind (never_select _) fun _ => ?_
      refine never_bind (never_orThrow nofun) fun _ => ?_
      exact never_bind (never_modify _) fun _ => never_pure _

/-- Neither does the message of a release. -/
theorem never_releaseMessage {input : ReleaseEscrowInput} :
    Never escrowInsufficient (releaseMessage input) := by
  unfold releaseMessage
  split
  · exact never_createOrderSystemMessage
  · exact never_createOrderSystemMessage
  · exact never_pure _
  · exact never_pure _

/-- A wallet is opened with a zero balance. -/
theorem never_ensureWallet {u : Uuid} {c : Currency} :
    Never escrowInsufficient (ensureWallet u c) :=
  never_bind (never_modify _) fun _ => never_pure _

/-- Selecting a wallet fails only when it is not there. -/
theorem never_selectWallet {k : WalletKey} :
    Never escrowInsufficient (selectWallet k) :=
  never_bind (never_select _) fun _ => never_orThrow nofun

/-- An update of the available balance may violate its check, and nothing
else. -/
theorem never_setAvailable {k : WalletKey} {m : MoneyCents} :
    Never escrowInsufficient (setAvailable k m) := by
  refine never_bind (never_select _) fun row => ?_
  cases row with
  | none => exact never_pure _
  | some w => exact never_check (fun _ => never_modify _) nofun

/-- The same of the escrow balance: the amount was compared before. -/
theorem never_setEscrow {k : WalletKey} {m : MoneyCents} :
    Never escrowInsufficient (setEscrow k m) := by
  refine never_bind (never_select _) fun row => ?_
  cases row with
  | none => exact never_pure _
  | some w => exact never_check (fun _ => never_modify _) nofun

/-- A range error of the money functions is none of escrow. -/
theorem never_moneyError {α : Type} {x : Except MoneyError α} :
    Never escrowInsufficient (liftExcept x moneyError : DbTx α) := by
  refine never_liftExcept fun e _ => ?_
  cases e <;> nofun

/-- An addition names its own balance in its error. -/
theorem never_checkedBalanceAddition {current added : MoneyCents}
    {name : String}
    (h : ¬ name.toList <+: "Escrow balance is insufficient".toList) :
    Never escrowInsufficient (checkedBalanceAddition current added name) := by
  refine never_liftExcept fun e _ => ?_
  cases e with
  | range => exact escrowInsufficient_ne h
  | invalid _ => nofun

/-- The platform's revenue has errors of its own. -/
theorem never_nextRevenue {c : Currency} {fee : MoneyCents} :
    Never escrowInsufficient (nextRevenue c fee) := by
  refine never_ite ?_ (never_pure _)
  refine never_bind (never_select _) fun _ => ?_
  refine never_bind (never_orThrow nofun) fun _ => ?_
  exact never_bind (never_checkedBalanceAddition (by decide))
    fun _ => never_pure _

/-- Storing it has none. -/
theorem never_storeRevenue {c : Currency} {next : Option MoneyCents} :
    Never escrowInsufficient (storeRevenue c next) := by
  cases next with
  | none => exact never_pure _
  | some m =>
      refine never_bind (never_select _) fun row => ?_
      cases row with
      | none => exact never_pure _
      | some p => exact never_check (fun _ => never_modify _) nofun

/-- A transaction is refused for its type at most. -/
theorem never_insertTransaction {id : Uuid} {wallet : WalletKey}
    {orderId : Option Uuid} {type : TransactionType}
    {direction : TransactionDirection} {amount : MoneyCents}
    {status : TransactionStatus} :
    Never escrowInsufficient (insertTransaction cfg id wallet orderId type
      direction amount status) := by
  refine never_bind (never_require nofun) fun _ => ?_
  refine never_check (fun _ => ?_) nofun
  refine never_bind (never_select _) fun _ => ?_
  refine never_bind (never_orThrow nofun) fun _ => ?_
  exact never_bind (never_modify _) fun _ => never_pure _

/-- The ledger refuses entries that do not balance, by another message. -/
theorem never_postLedgerEntry {input : LedgerEntryInput} :
    Never escrowInsufficient (postLedgerEntry input) := by
  refine never_bind (never_require (by decide)) fun _ => ?_
  refine never_bind (never_require (by decide)) fun _ => ?_
  refine never_bind (never_select _) fun _ => ?_
  refine never_ite (never_pure _) ?_
  refine never_bind (never_orThrow nofun) fun _ => ?_
  exact never_bind (never_modify _) fun _ => never_pure _

/-- Counting the sale touches the product only. -/
theorem never_countSale {productId : Uuid} {quantity : Nat} :
    Never escrowInsufficient (countSale productId quantity) := by
  refine never_bind (never_select _) fun product => ?_
  cases product with
  | none => exact never_pure _
  | some p =>
      exact never_bind (never_require nofun) fun _ => never_modify _

/-- The one statement that can say so compares the seller's escrow. -/
theorem aborts_checkedBalanceSubtraction_bind {α : Type}
    {current subtracted : MoneyCents} {g : MoneyCents → DbTx α} {db : Db}
    (hg : ∀ m, Never escrowInsufficient (g m))
    (h : Aborts (checkedBalanceSubtraction current subtracted
      "Escrow balance is insufficient" >>= g) db escrowInsufficient) :
    current.val < subtracted.val := by
  simp only [checkedBalanceSubtraction, bind_assoc,
    aborts_require_bind] at h
  rcases h with ⟨hlt, -⟩ | ⟨-, h⟩
  · exact Int.not_le.mp hlt
  · exfalso
    refine never_bind (never_liftExcept fun e _ => ?_) hg _ h
    cases e with
    | range => decide
    | invalid _ => exact fun h => by cases h

end Never

/-- Escrow covers every order that is in it. -/
theorem Backed.covers {db : Db} (h : Backed db) {id : Uuid} {o : OrderRow}
    (hfind : db.orders.find? id = some o) (hs : o.status.Escrowed) :
    o.amountCents.val ≤ db.balance (.escrow o.sellerId o.currency) := by
  rw [h]
  have hle := Table.le_sum (OrderRow.held o.sellerId o.currency)
    (fun o' _ => OrderRow.held_nonneg _ _ o') (Table.mem_of_find? hfind)
  refine le_trans (le_of_eq ?_) hle
  rw [OrderRow.held_of_escrowed hs]
  simp [Balance.account]

/-- Where escrow is backed, a release never finds it insufficient: the order
itself holds its amount. -/
theorem Backed.not_aborts_releaseEscrow {db : Db} (hdb : Backed db)
    {cfg : Config} {now : Timestamp} {input : ReleaseEscrowInput} :
    ¬ Aborts (releaseEscrow cfg now input) db escrowInsufficient := by
  intro h
  unfold releaseEscrow at h
  obtain ⟨o, s, ho, h₁⟩ := never_selectOrderForUpdate.peel h
  obtain ⟨hfind, rfl⟩ := commits_selectOrderForUpdate.mp ho
  rcases aborts_require_bind.mp h₁ with ⟨-, he⟩ | ⟨hedge, h₂⟩
  · exact absurd he (by decide)
  obtain ⟨m, s, hm, h₃⟩ := never_releaseMessage.peel h₂
  obtain ⟨messages, rfl, -⟩ := commits_releaseMessage hm
  obtain ⟨o', s, ht, h₄⟩ := never_transitionOrder.peel h₃
  obtain ⟨rfl, d, a, e, happ⟩ := applied_of_edge hfind hedge ht
  obtain ⟨k, s, hk, h₅⟩ := never_ensureWallet.peel h₄
  simp only [ensureWallet, commits_modify_bind, commits_pure] at hk
  obtain ⟨rfl, rfl⟩ := hk
  obtain ⟨w, s, hw, h₆⟩ := never_selectWallet.peel h₅
  simp only [selectWallet, commits_select_bind, commits_orThrow] at hw
  obtain ⟨hw, rfl⟩ := hw
  rcases aborts_require_bind.mp h₆ with ⟨-, he⟩ | ⟨-, h₇⟩
  · exact absurd he (by decide)
  obtain ⟨netCents, s, -, h₈⟩ := never_moneyError.peel h₇
  have hlt := aborts_checkedBalanceSubtraction_bind ?_ h₈
  · have hcovers := hdb.covers hfind (escrowed_of_settling hedge (.inl rfl))
    have hE := Wallets.escrowOf_of_find? hw
    rw [happ.db_eq] at hE
    simp only [Db.openWallet, Db.addOutboxEvent, Db.addOrderEvent,
      Db.putOrder, Db.setMessages, Wallets.escrowOf_ensured] at hE
    simp only [Db.balance, hE] at hcovers
    omega
  intro nextEscrow
  refine never_bind (never_checkedBalanceAddition (by decide)) fun _ => ?_
  refine never_bind never_nextRevenue fun _ => ?_
  refine never_bind never_setEscrow fun _ => ?_
  refine never_bind never_setAvailable fun _ => ?_
  refine never_bind never_storeRevenue fun _ => ?_
  refine never_bind never_insertTransaction fun _ => ?_
  refine never_bind never_insertTransaction fun _ => ?_
  refine never_bind ?_ fun _ => ?_
  · refine never_bind never_moneyError fun _ => ?_
    exact never_bind never_postLedgerEntry fun _ => never_pure _
  exact never_bind never_countSale fun _ => never_pure _

/-- Nor does a refund. -/
theorem Backed.not_aborts_refundEscrow {db : Db} (hdb : Backed db)
    {cfg : Config} {now : Timestamp} {input : RefundEscrowInput} :
    ¬ Aborts (refundEscrow cfg now input) db escrowInsufficient := by
  intro h
  unfold refundEscrow at h
  obtain ⟨o, s, ho, h₁⟩ := never_selectOrderForUpdate.peel h
  obtain ⟨hfind, rfl⟩ := commits_selectOrderForUpdate.mp ho
  rcases aborts_require_bind.mp h₁ with ⟨-, he⟩ | ⟨hedge, h₂⟩
  · exact absurd he (by decide)
  obtain ⟨o', s, ht, h₃⟩ := never_transitionOrder.peel h₂
  obtain ⟨rfl, d, a, e, happ⟩ := applied_of_edge hfind hedge ht
  obtain ⟨k, s, hk, h₄⟩ := never_ensureWallet.peel h₃
  simp only [ensureWallet, commits_modify_bind, commits_pure] at hk
  obtain ⟨rfl, rfl⟩ := hk
  obtain ⟨k, s, hk, h₅⟩ := never_ensureWallet.peel h₄
  simp only [ensureWallet, commits_modify_bind, commits_pure] at hk
  obtain ⟨rfl, rfl⟩ := hk
  obtain ⟨w, s, hw, h₆⟩ := never_selectWallet.peel h₅
  simp only [selectWallet, commits_select_bind, commits_orThrow] at hw
  obtain ⟨hw, rfl⟩ := hw
  obtain ⟨v, s, hv, h₇⟩ := never_selectWallet.peel h₆
  simp only [selectWallet, commits_select_bind, commits_orThrow] at hv
  obtain ⟨hv, rfl⟩ := hv
  have hlt := aborts_checkedBalanceSubtraction_bind ?_ h₇
  · have hcovers := hdb.covers hfind (escrowed_of_settling hedge (.inr rfl))
    have hE := Wallets.escrowOf_of_find? hw
    rw [happ.db_eq] at hE
    simp only [Db.openWallet, Db.addOutboxEvent, Db.addOrderEvent,
      Db.putOrder, Wallets.escrowOf_ensured] at hE
    simp only [Db.balance, hE] at hcovers
    omega
  intro nextEscrow
  refine never_bind (never_checkedBalanceAddition (by decide)) fun _ => ?_
  refine never_bind never_setEscrow fun _ => ?_
  refine never_bind never_setAvailable fun _ => ?_
  refine never_bind never_insertTransaction fun _ => ?_
  refine never_bind never_insertTransaction fun _ => ?_
  refine never_bind ?_ fun _ => never_pure _
  exact never_bind never_postLedgerEntry fun _ => never_pure _

-- ============================================================== the runs

/-- No order has been paid yet. -/
def AllPending (db : Db) : Prop :=
  ∀ o ∈ db.orders.rows, o.status = .pending

/-- At the opening all orders are pending and all escrow balances zero. -/
theorem Opening.backed {db : Db} (h : Opening db) (hp : AllPending db) :
    Backed db := by
  intro u c
  rw [h.zero, Table.sum_eq_zero]
  intro o ho
  refine OrderRow.held_of_not_escrowed ?_
  rw [hp o ho]
  decide

/-- At the opening there are no entries, and pending orders ask for none. -/
theorem Opening.ledgered {db : Db} (h : Opening db) (hp : AllPending db) :
    Ledgered db := by
  refine ⟨?_, ?_⟩
  · rw [h.noEntries]
    simp
  · intro k hk
    refine iff_of_false ?_ ?_
    · unfold Table.Has
      rw [h.noEntries]
      simp
    · intro h
      obtain ⟨id, hid, o, hfind, hs⟩ := h
      have hpending := hp o (Table.mem_of_find? hfind)
      exact not_dueStatus (.inl hpending) hs

/-- What holds in every state that calls can reach. -/
structure MarketInv (db : Db) : Prop where
  backed : Backed db
  ledgered : Ledgered db
  payouts : PayoutsKeyed db

/-- Every call keeps the invariant, whether it commits or is rolled back. -/
theorem MarketInv.step {db : Db} (h : MarketInv db) (call : Call) :
    MarketInv (call.step db) :=
  have hmoved := call.moved db
  ⟨hmoved.backed h.backed, h.ledgered.step (hmoved.posting h.payouts),
    hmoved.payoutsKeyed h.payouts⟩

/-- Any sequence of calls keeps it. -/
theorem MarketInv.run {db : Db} (h : MarketInv db) (calls : List Call) :
    MarketInv (run Call.step db calls) :=
  run_keeps (fun _ call hdb => hdb.step call) h calls

/-- It holds at the opening. -/
theorem Opening.marketInv {db : Db} (h : Opening db) (hp : AllPending db) :
    MarketInv db :=
  ⟨h.backed hp, h.ledgered hp, h.payouts⟩

/-- The number of entries of one kind of an order, as its status has it: one
if it is due, none otherwise. -/
theorem Ledgered.length_eq {db : Db} (h : Ledgered db) {o : OrderRow}
    (ho : o ∈ db.orders.rows) {k : LedgerKey} (hk : k.orderId = some o.id)
    {due : Prop} [Decidable due] (hdue : k.DueStatus o.status ↔ due) :
    (db.entriesOf k.entryType o.id).length = if due then 1 else 0 := by
  rw [h.length_entriesOf hk]
  refine if_congr ?_ rfl rfl
  rw [← hdue, h.due k (by rw [hk]; rfl)]
  simp [Due, hk, OrderIs, Table.find?_of_mem ho]

/-- In every state that calls can reach from an opening database whose
orders are all pending, a seller's escrow is the sum of the seller's
open orders; no release or refund finds too little; and every order
carries exactly the entries that its status calls for. -/
theorem escrow_backed_by_open_orders {db : Db} (hdb : Opening db)
    (hpending : AllPending db) (calls : List Call) :
    (∀ u c, (run Call.step db calls).balance (.escrow u c)
      = (run Call.step db calls).orders.sum (OrderRow.held u c))
    ∧ (∀ cfg now input, ¬ Aborts (releaseEscrow cfg now input)
        (run Call.step db calls) escrowInsufficient)
    ∧ (∀ cfg now input, ¬ Aborts (refundEscrow cfg now input)
        (run Call.step db calls) escrowInsufficient)
    ∧ ∀ o ∈ (run Call.step db calls).orders.rows,
        ((run Call.step db calls).entriesOf .paymentCapture o.id).length
          = (if o.status ≠ .pending ∧ o.status ≠ .canceled then 1 else 0)
        ∧ ((run Call.step db calls).entriesOf .escrowRelease o.id).length
          = (if o.status = .completed then 1 else 0)
        ∧ ((run Call.step db calls).entriesOf .refund o.id).length
          = (if o.status = .refunded then 1 else 0) := by
  have hinv := (hdb.marketInv hpending).run calls
  refine ⟨hinv.backed, fun _ _ _ => hinv.backed.not_aborts_releaseEscrow,
    fun _ _ _ => hinv.backed.not_aborts_refundEscrow, ?_⟩
  intro o ho
  refine ⟨?_, ?_, ?_⟩
  · exact hinv.ledgered.length_eq ho (k := .paymentCapture o.id) rfl .rfl
  · exact hinv.ledgered.length_eq ho (k := .escrowRelease o.id) rfl .rfl
  · exact hinv.ledgered.length_eq ho (k := .refund o.id) rfl .rfl

/-- In the database of one order all orders are pending. -/
theorem oneOrderDb_allPending : AllPending oneOrderDb := by
  intro o ho
  rw [List.mem_singleton.mp ho]
  rfl

/-- After payment, delivery and a dispute the escrow of the seller is what
the order holds. -/
theorem escrow_backed_after_dispute :
    (run Call.step oneOrderDb disputedCalls).balance (.escrow ⟨2⟩ "UAH")
      = (run Call.step oneOrderDb disputedCalls).orders.sum
          (OrderRow.held ⟨2⟩ "UAH") :=
  (escrow_backed_by_open_orders oneOrderDb_opening oneOrderDb_allPending
    disputedCalls).1 ⟨2⟩ "UAH"

end Skrynia
