/-
When a dispute's escrow operation commits.

For a disputed order that its seller's escrow covers, the release and
the refund by an admin succeed exactly when the admin's current role is
still `admin` and the columns they write have room: everything else that
they check holds by then (`commits_releaseEscrow_iff`,
`commits_refundEscrow_iff`).

# Shape of the proofs

From left to right the room is read off `Released` and `Refunded`. From
right to left each statement is shown to go through, one after the
other; a ledger entry may be skipped but is never refused.
-/
import Skrynia.Orders.Effects

namespace Skrynia

open Relational

/-- The body commits, whatever it returns. -/
def Succeeds {α : Type} (x : DbTx α) (db : Db) : Prop :=
  ∃ a db', Commits x db a db'

/-- A body succeeds by its first statement and the rest of it. -/
theorem Succeeds.step {α : Type} {x y : DbTx α} {db db₁ : Db}
    (hy : Succeeds y db₁)
    (h : ∀ a db', Commits y db₁ a db' → Commits x db a db') :
    Succeeds x db := by
  obtain ⟨a, db', hcommits⟩ := hy
  exact ⟨a, db', h a db' hcommits⟩

-- ================================================================ balances

/-- An amount is within its column. -/
theorem MoneyCents.le_max (m : MoneyCents) : m.val ≤ postgresBigintMax :=
  m.inRange.2

/-- A balance is a column's value, or the zero of a missing row. -/
theorem Db.balance_range (db : Db) (b : Balance) :
    0 ≤ db.balance b ∧ db.balance b ≤ postgresBigintMax := by
  have hmax : (0 : Int) ≤ postgresBigintMax := by decide
  cases b with
  | available u c =>
      simp only [Db.balance, Wallets.availableOf]
      cases db.wallets.find? (u, c) with
      | none => exact ⟨Int.le_refl 0, hmax⟩
      | some w => exact ⟨w.available_nonneg, w.availableCents.le_max⟩
  | escrow u c =>
      simp only [Db.balance, Wallets.escrowOf]
      cases db.wallets.find? (u, c) with
      | none => exact ⟨Int.le_refl 0, hmax⟩
      | some w => exact ⟨w.escrow_nonneg, w.escrowCents.le_max⟩
  | revenue c =>
      simp only [Db.balance, revenueOf]
      cases db.platformWallets.find? c with
      | none => exact ⟨Int.le_refl 0, hmax⟩
      | some p => exact ⟨p.revenue_nonneg, p.revenueCents.le_max⟩

/-- Nonnegative cents up to the bigint maximum exist. -/
theorem MoneyCents.exists_of_le {v : Int} (h₀ : 0 ≤ v)
    (h : v ≤ postgresBigintMax) : ∃ m : MoneyCents, m.val = v := by
  refine ⟨⟨v, ?_, h⟩, rfl⟩
  unfold postgresBigintMin
  omega

-- =================================================== statements that go on

section Statements

variable {α : Type} {db : Db}

/-- The lines of a posting pass their check. -/
theorem lines_accepted {inputs : List LedgerLineInput}
    (h : ∀ l ∈ inputs, ∃ line, l.toLine = some line) :
    ∃ lines, inputs.mapM LedgerLineInput.toLine = some lines := by
  induction inputs with
  | nil => exact ⟨[], rfl⟩
  | cons l inputs ih =>
      obtain ⟨line, hline⟩ := h l List.mem_cons_self
      obtain ⟨lines, hlines⟩ :=
        ih fun l' hl' => h l' (List.mem_cons_of_mem _ hl')
      refine ⟨line :: lines, ?_⟩
      simp [List.mapM_cons, hline, hlines]

/-- A positive amount makes a debit line. -/
theorem toLine_debitLine {account : LedgerAccount} {name : String}
    {type : AccountType} {user : Option Uuid} {cents : MoneyCents}
    (h : 0 < cents.val) :
    ∃ line, (debitLine account name type user cents).toLine = some line := by
  unfold LedgerLineInput.toLine debitLine
  rw [dif_pos (.inl ⟨h, rfl⟩)]
  exact ⟨_, rfl⟩

/-- And a credit line. -/
theorem toLine_creditLine {account : LedgerAccount} {name : String}
    {type : AccountType} {user : Option Uuid} {cents : MoneyCents}
    (h : 0 < cents.val) :
    ∃ line, (creditLine account name type user cents).toLine = some line := by
  unfold LedgerLineInput.toLine creditLine
  rw [dif_pos (.inr ⟨h, rfl⟩)]
  exact ⟨_, rfl⟩

/-- A balanced entry is posted, or skipped. -/
theorem postLedgerEntry_bind_succeeds (input : LedgerEntryInput)
    {g : Unit → DbTx α} (hlength : 2 ≤ input.lines.length) (hpos : 0 < input.debitTotal)
    (hbalanced : input.debitTotal = input.creditTotal)
    (hlines : ∀ l ∈ input.lines, ∃ line, l.toLine = some line)
    (hg : ∀ accounts entries,
      Succeeds (g ()) (db.setLedger accounts entries)) :
    Succeeds ((postLedgerEntry input >>= fun _ => pure ()) >>= g) db := by
  obtain ⟨lines, hmap⟩ := lines_accepted hlines
  have hcommits : ∃ r db', Commits (postLedgerEntry input) db r db' := by
    by_cases htaken : db.ledgerEntries.Has input.idempotencyKey.text
    · refine ⟨none, db, ?_⟩
      simp only [postLedgerEntry, commits_require_bind, commits_select_bind,
        commits_ite, decide_eq_true_eq, commits_pure]
      exact ⟨hlength, ⟨hpos, hbalanced⟩, .inl ⟨htaken, trivial, trivial⟩⟩
    · refine ⟨some input.idempotencyKey, db.setLedger
        (input.lines.foldl (fun t l => l.ensureAccount input.currency t)
          db.ledgerAccounts)
        (db.ledgerEntries.upsert ⟨input.idempotencyKey.text,
          input.entryType, input.orderId, input.currency, lines⟩), ?_⟩
      simp only [postLedgerEntry, commits_require_bind, commits_select_bind,
        commits_ite, decide_eq_true_eq, commits_pure, commits_orThrow_bind,
        commits_modify_bind]
      exact ⟨hlength, ⟨hpos, hbalanced⟩,
        .inr ⟨htaken, lines, hmap, trivial, rfl⟩⟩
  obtain ⟨r, db', hr⟩ := hcommits
  obtain ⟨accounts, entries, -, rfl⟩ := commits_postLedgerEntry hr
  refine (hg accounts entries).step fun _ _ h => ?_
  rw [bind_assoc]
  exact commits_bind.mpr ⟨r, _, hr, by simpa only [pure_bind] using h⟩

/-- The ledger of a refund is written and the rest goes on. -/
theorem recordRefundLedger_bind_succeeds {orderId sellerId buyerId : Uuid}
    {amount : MoneyCents} {c : Currency} {g : Unit → DbTx α}
    (h : 0 < amount.val)
    (hg : ∀ accounts entries,
      Succeeds (g ()) (db.setLedger accounts entries)) :
    Succeeds (recordRefundLedger orderId sellerId buyerId amount c >>= g)
      db := by
  refine postLedgerEntry_bind_succeeds _ (Nat.le_refl 2) ?_ ?_ ?_ hg
  · simpa [LedgerEntryInput.debitTotal, refundEntry, debitLine, creditLine]
      using h
  · simp [LedgerEntryInput.debitTotal, LedgerEntryInput.creditTotal,
      refundEntry, debitLine, creditLine]
  · intro l hl
    rcases List.mem_cons.mp hl with rfl | hl
    · exact toLine_debitLine h
    · rw [List.mem_singleton.mp hl]
      exact toLine_creditLine h

/-- The amount is split between seller and platform, and one of the two
gets something. -/
theorem recordEscrowReleaseLedger_bind_succeeds {orderId sellerId : Uuid}
    {amount fee : MoneyCents} {c : Currency} {g : Unit → DbTx α}
    (h : 0 < amount.val) (hfee : 0 ≤ fee.val) (hle : fee.val ≤ amount.val)
    (hg : ∀ accounts entries,
      Succeeds (g ()) (db.setLedger accounts entries)) :
    Succeeds (recordEscrowReleaseLedger orderId sellerId amount fee c >>= g)
      db := by
  have hmax := amount.le_max
  obtain ⟨net, hnet⟩ := MoneyCents.exists_of_le
    (v := amount.val - fee.val) (by omega) (by omega)
  have hpost := postLedgerEntry_bind_succeeds
    (escrowReleaseEntry orderId sellerId amount fee net c)
    (by
      simp only [escrowReleaseEntry]
      split
      · simp
      · rw [if_pos (by omega)]
        simp)
    (by
      simp only [escrowReleaseEntry, LedgerEntryInput.debitTotal]
      split <;> split <;> simpa [debitLine, creditLine] using h)
    (by
      simp only [escrowReleaseEntry, LedgerEntryInput.debitTotal,
        LedgerEntryInput.creditTotal]
      split <;> split <;> simp [debitLine, creditLine] <;> omega)
    (by
      intro l hl
      simp only [escrowReleaseEntry, List.mem_append, List.mem_singleton]
        at hl
      rcases hl with rfl | hl | hl
      · exact toLine_debitLine h
      · split at hl
        · rw [List.mem_singleton.mp hl]
          exact toLine_creditLine (by assumption)
        · cases hl
      · split at hl
        · rw [List.mem_singleton.mp hl]
          exact toLine_creditLine (by assumption)
        · cases hl) hg
  unfold recordEscrowReleaseLedger
  rw [bind_assoc]
  exact hpost.step fun _ _ h => commits_liftExcept_bind.mpr
    ⟨net, subtractMoneyCents_eq_ok.mpr hnet, h⟩

/-- A sale is counted where there is room. -/
theorem countSale_bind_succeeds {productId : Uuid} {quantity : Nat}
    {g : Unit → DbTx α} (h : SalesRoom db productId quantity)
    (hg : ∀ t, Succeeds (g ()) (db.setProducts t)) :
    Succeeds (countSale productId quantity >>= g) db := by
  unfold countSale
  cases hp : db.products.find? productId with
  | none =>
      refine (hg db.products).step fun _ _ h' => ?_
      rw [bind_assoc, commits_select_bind, hp]
      simp only [pure_bind]
      exact h'
  | some p =>
      refine (hg (db.products.set (p.withSales
        (p.salesCount + quantity)))).step fun _ _ h' => ?_
      rw [bind_assoc, commits_select_bind, hp]
      simp only [bind_assoc, commits_require_bind, commits_modify_bind]
      exact ⟨h p hp, h'⟩

/-- A row with a fresh id is inserted. -/
theorem insertTransaction_bind_succeeds {cfg : Config} {id : Uuid}
    {wallet : WalletKey} {orderId : Option Uuid} {type : TransactionType}
    {direction : TransactionDirection} {amount : MoneyCents}
    {status : TransactionStatus} {g : Uuid → DbTx α}
    (htype : type ∈ cfg.transactionTypes) (hamount : 0 ≤ amount.val)
    (hfresh : ¬ db.transactions.Has id)
    (hg : ∀ t, (∀ id', t.Has id' ↔ db.transactions.Has id' ∨ id' = id) →
      Succeeds (g id) (db.setTransactions t)) :
    Succeeds (insertTransaction cfg id wallet orderId type direction amount
      status >>= g) db := by
  cases hinsert : db.transactions.insert?
      ⟨id, wallet, orderId, type, direction, amount, status, hamount⟩ with
  | none => exact absurd (Table.insert?_eq_none.mp hinsert) hfresh
  | some t =>
      exact (hg t fun id' => Table.has_insert hinsert).step
        fun _ _ h => commits_insertTransaction_bind.mpr
          ⟨htype, hamount, t, hinsert, h⟩

/-- The revenue of a fee can be read, and written to the row read. -/
theorem nextRevenue_exists {c : Currency} {fee : MoneyCents}
    (hrow : 0 < fee.val → db.platformWallets.Has c)
    (hroom : 0 < fee.val →
      db.balance (.revenue c) + fee.val ≤ postgresBigintMax) :
    ∃ next, 0 < fee.val ∧ (∃ p, ∃ r : MoneyCents,
          db.platformWallets.find? c = some p
            ∧ r.val = p.revenueCents.val + fee.val ∧ next = some r)
        ∨ ¬ 0 < fee.val ∧ next = none := by
  by_cases hpos : 0 < fee.val
  · obtain ⟨p, hp⟩ := Table.has_iff.mp (hrow hpos)
    have hsum := hroom hpos
    rw [show db.balance (.revenue c) = p.revenueCents.val from
      revenueOf_of_find? hp] at hsum
    have hnn := p.revenue_nonneg
    obtain ⟨r, hr⟩ := MoneyCents.exists_of_le
      (v := p.revenueCents.val + fee.val) (by omega) hsum
    exact ⟨some r, .inl ⟨hpos, p, r, hp, hr, rfl⟩⟩
  · exact ⟨none, .inr ⟨hpos, rfl⟩⟩

/-- The fee reaches the platform wallet if it fits. -/
theorem storeRevenue_bind_succeeds {c : Currency} {fee : MoneyCents}
    {next : Option MoneyCents} {g : Unit → DbTx α}
    (hnext : 0 < fee.val ∧ (∃ p, ∃ r : MoneyCents,
          db.platformWallets.find? c = some p
            ∧ r.val = p.revenueCents.val + fee.val ∧ next = some r)
        ∨ ¬ 0 < fee.val ∧ next = none)
    (hg : ∀ t, Succeeds (g ()) (db.setPlatformWallets t)) :
    Succeeds (storeRevenue c next >>= g) db := by
  rcases hnext with ⟨hpos, p, r, hp, hr, rfl⟩ | ⟨-, rfl⟩
  · have hnn := p.revenue_nonneg
    have hr₀ : 0 ≤ r.val := by omega
    exact (hg (db.platformWallets.set (p.withRevenue r hr₀))).step
      fun _ _ h => (commits_setRevenue_bind hp).mpr ⟨hr₀, h⟩
  · refine (hg db.platformWallets).step fun _ _ h => ?_
    simp only [storeRevenue, pure_bind]
    exact h

end Statements

-- ========================================================= the transition

/-- An admin resolves a disputed order. -/
theorem transitionOrder_succeeds (cfg : Config) (now : Timestamp)
    {input : TransitionOrderInput} {db : Db} {o : OrderRow} {a : Uuid}
    (hfind : db.orders.find? input.orderId = some o)
    (hdisputed : o.status = .disputed)
    (hexpected : input.expectedFrom = some [.disputed])
    (hactor : input.actor = .user (.user a) .admin)
    (hadmin : (db.users.find? a).map User.role = some .admin)
    (hreason : input.reason = .disputeReleased ∧ input.toStatus = .completed
      ∨ input.reason = .disputeRefunded ∧ input.toStatus = .refunded)
    (hids : ∃ ids, systemMessageIds input.metadata.systemMessageIds
      = .ok ids) :
    ∃ e d, Commits (transitionOrder cfg now input) db
      (o.transitioned cfg now input.toStatus)
      (Db.addOutboxEvent
        (Db.addOrderEvent
          (db.putOrder (o.transitioned cfg now input.toStatus)) d) e) := by
  obtain ⟨ids, hids⟩ := hids
  have hedge : canTransitionOrder o.status input.toStatus := by
    rw [hdisputed]
    rcases hreason with ⟨-, h⟩ | ⟨-, h⟩ <;> rw [h] <;> decide
  have hdescriptor : ∃ d, eventDescriptor input = .ok d := by
    unfold eventDescriptor
    rcases hreason with ⟨h, -⟩ | ⟨h, -⟩ <;> rw [h] <;> exact ⟨_, rfl⟩
  have hevent : ∃ e, outboxInput (o.transitioned cfg now input.toStatus) input
      = .ok e := by
    unfold outboxInput
    rw [hids]
    rcases hreason with ⟨h, -⟩ | ⟨h, -⟩ <;> rw [h] <;> exact ⟨_, rfl⟩
  obtain ⟨d, hd⟩ := hdescriptor
  obtain ⟨e, he⟩ := hevent
  refine ⟨e, transitionEvent o input d (some a), ?_⟩
  refine commits_transitionOrder.mpr ⟨o, hfind, .inr ⟨?_, rfl, d, some a, e,
    ⟨?_, hedge, ?_, ?_, hd, ?_, he, rfl⟩⟩⟩
  · intro hs
    rw [hs] at hedge
    exact not_self_transition hedge
  · rw [ExpectedFrom, hexpected, hdisputed]
    simp
  · rw [hactor]
    rcases hreason with ⟨h, h'⟩ | ⟨h, h'⟩ <;> rw [h, h']
    · exact show Permits .disputeReleased (.user .admin) .completed by decide
    · exact show Permits .disputeRefunded (.user .admin) .refunded by decide
  · rw [hactor]
    exact ⟨a, rfl, hadmin⟩
  · rw [hactor]
    rfl

-- =========================================================== both operations

/-- A disputed order, its fee within its amount, and its amount within
the seller's escrow. -/
structure DisputedOrder (db : Db) (id : Uuid) (o : OrderRow) : Prop where
  found : db.orders.find? id = some o
  disputed : o.status = .disputed
  fee_le : o.feeCents.val ≤ o.amountCents.val
  covered : o.amountCents.val ≤ db.balance (.escrow o.sellerId o.currency)

/-- The columns that a release writes can hold the new values. -/
structure ReleaseRoom (db : Db) (o : OrderRow) : Prop where
  available : db.balance (.available o.sellerId o.currency)
    + (o.amountCents.val - o.feeCents.val) ≤ postgresBigintMax
  platform : 0 < o.feeCents.val → db.platformWallets.Has o.currency
  revenue : 0 < o.feeCents.val →
    db.balance (.revenue o.currency) + o.feeCents.val ≤ postgresBigintMax
  sales : SalesRoom db o.productId o.quantity

/-- The column that a refund writes can hold the new value. -/
def RefundRoom (db : Db) (o : OrderRow) : Prop :=
  db.balance (.available o.buyerId o.currency) + o.amountCents.val
    ≤ postgresBigintMax

/-- The user's current role. -/
def Db.IsAdmin (db : Db) (userId : Uuid) : Prop :=
  (db.users.find? userId).map User.role = some .admin

/-- `ensureWallet` leaves a row with the balances there were. -/
theorem Wallets.ensured (t : Wallets) (k : WalletKey) :
    ∃ w, (t.upsert (.opened k)).find? k = some w
      ∧ escrowOf t k = w.escrowCents.val
      ∧ availableOf t k = w.availableCents.val := by
  refine ⟨_, find?_ensured, ?_, ?_⟩
  · rw [← escrowOf_ensured t k k]
    exact escrowOf_of_find? find?_ensured
  · rw [← availableOf_ensured t k k]
    exact availableOf_of_find? find?_ensured

section Operations

variable {cfg : Config} {now : Timestamp} {db : Db} {o : OrderRow} {a : Uuid}

/-- With room everywhere the release of a disputed order goes through. -/
theorem releaseEscrow_succeeds {input : ReleaseEscrowInput}
    (ho : DisputedOrder db input.orderId o)
    (hadminId : input.adminId = some (.user a))
    (hsource : input.source = some .dispute)
    (htypes : cfg.transactionTypes = transactionTypes)
    (hfresh₁ : ¬ db.transactions.Has input.releaseId)
    (hfresh₂ : ¬ db.transactions.Has input.feeId)
    (hne : input.feeId ≠ input.releaseId) (hadmin : db.IsAdmin a)
    (hroom : ReleaseRoom db o) :
    Succeeds (releaseEscrow cfg now input) db := by
  have hsource' : input.resolvedSource = .dispute := by
    simp [ReleaseEscrowInput.resolvedSource, hsource]
  obtain ⟨e, d, htransition⟩ := transitionOrder_succeeds cfg now
    (show db.orders.find? (releaseTransitionInput input o none).orderId
      = some o from ho.found)
    ho.disputed (by simp [releaseTransitionInput, releaseTransition, hsource'])
    (by simp [releaseTransitionInput, releaseTransition, hsource', hadminId])
    hadmin
    (.inl ⟨by simp [releaseTransitionInput, releaseTransition, hsource'], rfl⟩)
    ⟨[], rfl⟩
  obtain ⟨w, hw, hescrow, havailable⟩ :=
    Wallets.ensured db.wallets (o.sellerId, o.currency)
  have hcovered : o.amountCents.val ≤ w.escrowCents.val := by
    rw [← hescrow]
    exact ho.covered
  have hsum : w.availableCents.val + (o.amountCents.val - o.feeCents.val)
      ≤ postgresBigintMax := by
    rw [← havailable]
    exact hroom.available
  have hfee₀ := o.fee_nonneg
  have hamount := o.amount_pos
  have hle := ho.fee_le
  have hmax := o.amountCents.le_max
  have hmax' := w.escrowCents.le_max
  have hwnn := w.available_nonneg
  obtain ⟨net, hnet⟩ := MoneyCents.exists_of_le
    (v := o.amountCents.val - o.feeCents.val) (by omega) (by omega)
  obtain ⟨escrow, hescrow'⟩ := MoneyCents.exists_of_le
    (v := w.escrowCents.val - o.amountCents.val) (by omega) (by omega)
  obtain ⟨available, havailable'⟩ := MoneyCents.exists_of_le
    (v := w.availableCents.val + net.val) (by omega) (by omega)
  obtain ⟨next, hnext⟩ := nextRevenue_exists hroom.platform hroom.revenue
  -- the statements one by one
  unfold releaseEscrow
  refine .step ?_ fun _ _ h => commits_selectOrderForUpdate_bind.mpr
    ⟨o, ho.found, h⟩
  refine .step ?_ fun _ _ h => commits_require_bind.mpr ⟨?edge, h⟩
  case edge =>
    rw [ho.disputed]
    decide
  refine .step ?_ fun _ _ h => commits_bind.mpr ⟨none, db, ?message, h⟩
  case message => simp only [releaseMessage, hsource', commits_pure, and_self]
  refine .step ?_ fun _ _ h => commits_bind.mpr ⟨_, _, htransition, h⟩
  refine .step ?_ fun _ _ h => commits_ensureWallet_bind.mpr h
  refine .step ?_ fun _ _ h => commits_selectWallet_bind.mpr ⟨w, hw, h⟩
  refine .step ?_ fun _ _ h => commits_require_bind.mpr ⟨ho.fee_le, h⟩
  refine .step ?_ fun _ _ h => commits_liftExcept_bind.mpr
    ⟨net, subtractMoneyCents_eq_ok.mpr hnet, h⟩
  refine .step ?_ fun _ _ h => commits_checkedBalanceSubtraction_bind.mpr
    ⟨hcovered, escrow, hescrow', h⟩
  refine .step ?_ fun _ _ h => commits_checkedBalanceAddition_bind.mpr
    ⟨available, havailable', h⟩
  refine .step ?_ fun _ _ h => commits_nextRevenue_bind.mpr ⟨next, hnext, h⟩
  refine .step ?_ fun _ _ h => (commits_setEscrow_bind (by exact hw)).mpr
    ⟨by omega, h⟩
  refine .step ?_ fun _ _ h => (commits_setAvailable_bind
    (Wallets.find?_withEscrow hw)).mpr ⟨by omega, h⟩
  refine storeRevenue_bind_succeeds hnext fun _ => ?_
  refine insertTransaction_bind_succeeds (by rw [htypes]; decide) (by omega)
    hfresh₁ fun t ht => ?_
  refine insertTransaction_bind_succeeds (by rw [htypes]; decide) hfee₀ ?fresh
    fun _ _ => ?_
  case fresh =>
    show ¬ t.Has input.feeId
    rw [ht]
    exact not_or.mpr ⟨hfresh₂, hne⟩
  refine recordEscrowReleaseLedger_bind_succeeds hamount hfee₀ hle
    fun _ _ => ?_
  refine countSale_bind_succeeds ?sales fun _ => ?_
  case sales => simpa [SalesRoom] using hroom.sales
  exact ⟨_, _, commits_pure.mpr ⟨rfl, rfl⟩⟩

/-- With room everywhere the refund does. -/
theorem refundEscrow_succeeds {input : RefundEscrowInput}
    (ho : DisputedOrder db input.orderId o)
    (hadminId : input.adminId = some (.user a))
    (htypes : cfg.transactionTypes = transactionTypes)
    (hfresh₁ : ¬ db.transactions.Has input.debitId)
    (hfresh₂ : ¬ db.transactions.Has input.creditId)
    (hne : input.creditId ≠ input.debitId) (hadmin : db.IsAdmin a)
    (hroom : RefundRoom db o) : Succeeds (refundEscrow cfg now input) db := by
  have htruthy : ActorId.truthy? input.adminId = some (.user a) := by
    rw [hadminId]
    rfl
  obtain ⟨e, d, htransition⟩ := transitionOrder_succeeds cfg now
    (show db.orders.find? (refundTransitionInput input).orderId
      = some o from ho.found)
    ho.disputed (by simp [refundTransitionInput, refundTransition, htruthy])
    (by simp [refundTransitionInput, refundTransition, htruthy])
    hadmin
    (.inr ⟨by simp [refundTransitionInput, refundTransition, htruthy], rfl⟩)
    ⟨[], rfl⟩
  -- both rows are there after the two `ensureWallet`
  have hfirst := find?_ensured (t := db.wallets)
    (k := (o.sellerId, o.currency))
  obtain ⟨w, hw⟩ := Table.has_iff.mp (has_ensured
    (Table.has_iff.mpr ⟨_, hfirst⟩) (o.buyerId, o.currency))
  obtain ⟨v, hv, -, havailable⟩ := Wallets.ensured
    (db.wallets.upsert (.opened (o.sellerId, o.currency)))
    (o.buyerId, o.currency)
  have hescrow := Wallets.escrowOf_of_find? hw
  rw [Wallets.escrowOf_ensured, Wallets.escrowOf_ensured] at hescrow
  rw [Wallets.availableOf_ensured] at havailable
  have hcovered : o.amountCents.val ≤ w.escrowCents.val := by
    rw [← hescrow]
    exact ho.covered
  have hsum : v.availableCents.val + o.amountCents.val
      ≤ postgresBigintMax := by
    rw [← havailable]
    exact hroom
  have hamount := o.amount_pos
  have hmax := w.escrowCents.le_max
  have hvnn := v.available_nonneg
  obtain ⟨escrow, hescrow'⟩ := MoneyCents.exists_of_le
    (v := w.escrowCents.val - o.amountCents.val) (by omega) (by omega)
  obtain ⟨available, havailable'⟩ := MoneyCents.exists_of_le
    (v := v.availableCents.val + o.amountCents.val) (by omega) (by omega)
  have hescrow₀ : 0 ≤ escrow.val := by omega
  obtain ⟨v', hv'⟩ := Wallets.find?_after_withEscrow (w := w)
    (h := hescrow₀) hv
  -- the statements one by one
  unfold refundEscrow
  refine .step ?_ fun _ _ h => commits_selectOrderForUpdate_bind.mpr
    ⟨o, ho.found, h⟩
  refine .step ?_ fun _ _ h => commits_require_bind.mpr ⟨?edge, h⟩
  case edge =>
    rw [ho.disputed]
    decide
  refine .step ?_ fun _ _ h => commits_bind.mpr ⟨_, _, htransition, h⟩
  refine .step ?_ fun _ _ h => commits_ensureWallet_bind.mpr h
  refine .step ?_ fun _ _ h => commits_ensureWallet_bind.mpr h
  refine .step ?_ fun _ _ h => commits_selectWallet_bind.mpr ⟨w, hw, h⟩
  refine .step ?_ fun _ _ h => commits_selectWallet_bind.mpr ⟨v, hv, h⟩
  refine .step ?_ fun _ _ h => commits_checkedBalanceSubtraction_bind.mpr
    ⟨hcovered, escrow, hescrow', h⟩
  refine .step ?_ fun _ _ h => commits_checkedBalanceAddition_bind.mpr
    ⟨available, havailable', h⟩
  refine .step ?_ fun _ _ h => (commits_setEscrow_bind (by exact hw)).mpr
    ⟨hescrow₀, h⟩
  refine .step ?_ fun _ _ h => (commits_setAvailable_bind
    (by exact hv')).mpr ⟨by omega, h⟩
  refine insertTransaction_bind_succeeds (by rw [htypes]; decide) (by omega)
    hfresh₁ fun t ht => ?_
  refine insertTransaction_bind_succeeds (by rw [htypes]; decide) (by omega)
    ?fresh fun _ _ => ?_
  case fresh =>
    show ¬ t.Has input.creditId
    rw [ht]
    exact not_or.mpr ⟨hfresh₂, hne⟩
  refine recordRefundLedger_bind_succeeds hamount fun _ _ => ?_
  exact ⟨_, _, commits_pure.mpr ⟨rfl, rfl⟩⟩

-- ===================================================== exactly when they do

/-- The columns written hold what was booked. -/
theorem Booked.balance_le {entry : LedgerEntryInput} {db' : Db}
    (h : Booked entry db db') (b : Balance) :
    db.balance b + entry.net b.account ≤ postgresBigintMax := by
  rw [← h.balance b]
  exact (db'.balance_range b).2

/-- The release commits exactly where there is room for all it writes. -/
theorem commits_releaseEscrow_iff {input : ReleaseEscrowInput}
    (ho : DisputedOrder db input.orderId o)
    (hadminId : input.adminId = some (.user a))
    (hsource : input.source = some .dispute)
    (htypes : cfg.transactionTypes = transactionTypes)
    (hfresh₁ : ¬ db.transactions.Has input.releaseId)
    (hfresh₂ : ¬ db.transactions.Has input.feeId)
    (hne : input.feeId ≠ input.releaseId) :
    Succeeds (releaseEscrow cfg now input) db
      ↔ db.IsAdmin a ∧ ReleaseRoom db o := by
  constructor
  · intro h'
    obtain ⟨r, db', h⟩ := h'
    obtain ⟨o', h⟩ := releaseEscrow_released h
    have hfound := h.moved.found
    rw [h.order_eq, ho.found] at hfound
    cases hfound
    have hsource' : input.resolvedSource = .dispute := by
      simp [ReleaseEscrowInput.resolvedSource, hsource]
    have hactor := h.matchesActor
    simp only [releaseTransition, hsource', hadminId, Option.getD_some,
      ActorMatches] at hactor
    obtain ⟨_, huser, hadmin⟩ := hactor
    cases huser
    obtain ⟨net, hnet, hbooked⟩ := h.booked
    have hfee₀ := o.fee_nonneg
    have hle := ho.fee_le
    refine ⟨hadmin, ?_, h.revenue, ?_, h.sales⟩
    · have hmax := hbooked.balance_le (.available o.sellerId o.currency)
      rw [net_escrowReleaseEntry hfee₀ (by omega)] at hmax
      simp only [Balance.account, if_true, reduceCtorEq, if_false] at hmax
      omega
    · intro _
      have hmax := hbooked.balance_le (.revenue o.currency)
      rw [net_escrowReleaseEntry hfee₀ (by omega)] at hmax
      simp only [Balance.account, if_true, reduceCtorEq, if_false] at hmax
      omega
  · intro h
    obtain ⟨hadmin, hroom⟩ := h
    exact releaseEscrow_succeeds ho hadminId hsource htypes hfresh₁ hfresh₂
      hne hadmin hroom

/-- And so does the refund. -/
theorem commits_refundEscrow_iff {input : RefundEscrowInput}
    (ho : DisputedOrder db input.orderId o)
    (hadminId : input.adminId = some (.user a))
    (htypes : cfg.transactionTypes = transactionTypes)
    (hfresh₁ : ¬ db.transactions.Has input.debitId)
    (hfresh₂ : ¬ db.transactions.Has input.creditId)
    (hne : input.creditId ≠ input.debitId) :
    Succeeds (refundEscrow cfg now input) db
      ↔ db.IsAdmin a ∧ RefundRoom db o := by
  constructor
  · intro h'
    obtain ⟨r, db', h⟩ := h'
    obtain ⟨o', h⟩ := refundEscrow_refunded h
    have hfound := h.moved.found
    rw [h.order_eq, ho.found] at hfound
    cases hfound
    have htruthy : ActorId.truthy? input.adminId = some (.user a) := by
      rw [hadminId]
      rfl
    have hactor := h.matchesActor
    simp only [refundTransition, htruthy, ActorMatches] at hactor
    obtain ⟨_, huser, hadmin⟩ := hactor
    cases huser
    refine ⟨hadmin, ?_⟩
    have hmax := h.booked.balance_le (.available o.buyerId o.currency)
    rw [net_refundEntry] at hmax
    simp only [Balance.account, if_true, reduceCtorEq, if_false] at hmax
    unfold RefundRoom
    omega
  · intro h
    obtain ⟨hadmin, hroom⟩ := h
    exact refundEscrow_succeeds ho hadminId htypes hfresh₁ hfresh₂ hne hadmin
      hroom

end Operations

end Skrynia
