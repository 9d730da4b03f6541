/-
The double-entry ledger: accounts, idempotency keys, postings.

`postLedgerEntry` checks that an entry balances, inserts it on conflict
do nothing, and writes its lines. The `record…Ledger` functions are one
posting each; they differ in the key, the accounts and the amounts.

# Codes and keys

Accounts and entries are found by texts that embed ids. Two accounts
have one code only if they are one account (`code_injective`), and two
postings share a key only if they are the same posting
(`LedgerKey.text_injective`); currencies may be any text.
-/
import Skrynia.Db.Schema

namespace Skrynia

open Relational DoubleEntry

-- ============================================================== accounts

/-- The text of an account: its kind, its currency, and its user if it is
one's. -/
def accountCode (kind : String) (currency : Currency)
    (userId : Option Uuid) : String :=
  match userId with
  | some u => kind ++ (":" ++ currency ++ ":" ++ u.text)
  | none => kind ++ (":" ++ currency)

/-- The accounts that postings name. -/
inductive LedgerAccount where
  | providerClearing (currency : Currency)
  | sellerEscrow (currency : Currency) (sellerId : Uuid)
  | userPayable (currency : Currency) (userId : Uuid)
  | platformRevenue (currency : Currency)
  | manualAdjustment (currency : Currency)
deriving DecidableEq

/-- `ledgerAccountCodes`, and the equity account of adjustments. -/
def LedgerAccount.code : LedgerAccount → String
  | providerClearing c => accountCode "asset:provider-clearing" c none
  | sellerEscrow c u => accountCode "liability:seller-escrow" c (some u)
  | userPayable c u => accountCode "liability:user-payable" c (some u)
  | platformRevenue c => accountCode "revenue:platform-fee" c none
  | manualAdjustment c => accountCode "equity:manual-adjustment" c none

/-- The currency that an account is kept in. -/
def LedgerAccount.currency : LedgerAccount → Currency
  | providerClearing c => c
  | sellerEscrow c _ => c
  | userPayable c _ => c
  | platformRevenue c => c
  | manualAdjustment c => c

/-- A code with a user id determines both of its parts. -/
theorem accountCode_user_injective {kind c c' : String} {u u' : Uuid}
    (h : accountCode kind c (some u) = accountCode kind c' (some u')) :
    c = c' ∧ u = u' := by
  have hl := congrArg String.toList h
  simp only [accountCode, String.toList_append, Uuid.toList_text,
    List.append_assoc, List.append_cancel_left_eq] at hl
  -- the id is the last 36 characters, whatever the currency is
  rw [← List.append_assoc, ← List.append_assoc] at hl
  obtain ⟨hc, hu⟩ := List.append_inj' hl
    (by rw [Uuid.length_chars, Uuid.length_chars])
  refine ⟨String.ext ?_, Uuid.chars_injective hu⟩
  exact List.append_cancel_right hc

/-- A code without a user determines its currency. -/
theorem accountCode_injective {kind c c' : String}
    (h : accountCode kind c none = accountCode kind c' none) : c = c' := by
  have hl := congrArg String.toList h
  simp only [accountCode, String.toList_append,
    List.append_cancel_left_eq] at hl
  exact String.ext hl

/-- No two accounts share a code. -/
theorem LedgerAccount.code_injective {a b : LedgerAccount}
    (h : a.code = b.code) : a = b := by
  cases a with
  | providerClearing c =>
      cases b with
      | providerClearing c' => rw [accountCode_injective h]
      | _ => exact absurd h (append_ne_append (by decide) (by decide))
  | sellerEscrow c u =>
      cases b with
      | sellerEscrow c' u' =>
          obtain ⟨rfl, rfl⟩ := accountCode_user_injective h
          rfl
      | _ => exact absurd h (append_ne_append (by decide) (by decide))
  | userPayable c u =>
      cases b with
      | userPayable c' u' =>
          obtain ⟨rfl, rfl⟩ := accountCode_user_injective h
          rfl
      | _ => exact absurd h (append_ne_append (by decide) (by decide))
  | platformRevenue c =>
      cases b with
      | platformRevenue c' => rw [accountCode_injective h]
      | _ => exact absurd h (append_ne_append (by decide) (by decide))
  | manualAdjustment c =>
      cases b with
      | manualAdjustment c' => rw [accountCode_injective h]
      | _ => exact absurd h (append_ne_append (by decide) (by decide))

/-- Two accounts have one code only if they are one account. -/
@[simp] theorem LedgerAccount.code_inj {a b : LedgerAccount} :
    a.code = b.code ↔ a = b :=
  ⟨LedgerAccount.code_injective, fun h => h ▸ rfl⟩

-- ================================================================== keys

/-- What an idempotency key is the key of. -/
inductive LedgerKey where
  | paymentCapture (orderId : Uuid)
  | escrowRelease (orderId : Uuid)
  | refund (orderId : Uuid)
  | walletTopup (topupId : Uuid)
  | walletWithdrawal (transactionId : Uuid)
  | walletWithdrawalReversal (transactionId : Uuid)
  | manualAdjustment (adjustmentId : String)
deriving DecidableEq

/-- The idempotency keys of the postings. -/
def LedgerKey.text : LedgerKey → String
  | paymentCapture id => "order:" ++ (id.text ++ ":payment_capture")
  | escrowRelease id => "order:" ++ (id.text ++ ":escrow_release")
  | refund id => "order:" ++ (id.text ++ ":refund")
  | walletTopup id => "wallet_topup:" ++ id.text
  | walletWithdrawal id => "wallet_withdrawal:" ++ id.text
  | walletWithdrawalReversal id =>
      "wallet_withdrawal_reversal:" ++ id.text
  | manualAdjustment id => "manual_adjustment:" ++ id

/-- The order that a key names, if it is an order's. -/
def LedgerKey.orderId : LedgerKey → Option Uuid
  | paymentCapture id | escrowRelease id | refund id => some id
  | walletTopup _ | walletWithdrawal _ | walletWithdrawalReversal _
  | manualAdjustment _ => none

/-- The type of the entry under a key. -/
def LedgerKey.entryType : LedgerKey → LedgerEntryType
  | paymentCapture _ => .paymentCapture
  | escrowRelease _ => .escrowRelease
  | refund _ => .refund
  | walletTopup _ | walletWithdrawal _ | walletWithdrawalReversal _
  | manualAdjustment _ => .adjustment

/-- A key that ends in an id determines it. -/
theorem text_of_append {p : String} {u v : Uuid}
    (h : p ++ u.text = p ++ v.text) : u = v :=
  Uuid.text_injective (String.append_right_inj p |>.mp h)

/-- No two keys share a text: the prefixes of the kinds differ, and behind
one prefix the text of an id tells the id. -/
theorem LedgerKey.text_injective {k l : LedgerKey} (h : k.text = l.text) :
    k = l := by
  cases k with
  | paymentCapture id =>
      cases l with
      | paymentCapture id' => rw [(Uuid.append_injective h).1]
      | escrowRelease id' =>
          exact absurd (Uuid.append_injective h).2 (by decide)
      | refund id' => exact absurd (Uuid.append_injective h).2 (by decide)
      | _ => exact absurd h (append_ne_append (by decide) (by decide))
  | escrowRelease id =>
      cases l with
      | escrowRelease id' => rw [(Uuid.append_injective h).1]
      | paymentCapture id' =>
          exact absurd (Uuid.append_injective h).2 (by decide)
      | refund id' => exact absurd (Uuid.append_injective h).2 (by decide)
      | _ => exact absurd h (append_ne_append (by decide) (by decide))
  | refund id =>
      cases l with
      | refund id' => rw [(Uuid.append_injective h).1]
      | paymentCapture id' =>
          exact absurd (Uuid.append_injective h).2 (by decide)
      | escrowRelease id' =>
          exact absurd (Uuid.append_injective h).2 (by decide)
      | _ => exact absurd h (append_ne_append (by decide) (by decide))
  | walletTopup id =>
      cases l with
      | walletTopup id' => rw [text_of_append h]
      | _ => exact absurd h (append_ne_append (by decide) (by decide))
  | walletWithdrawal id =>
      cases l with
      | walletWithdrawal id' => rw [text_of_append h]
      | _ => exact absurd h (append_ne_append (by decide) (by decide))
  | walletWithdrawalReversal id =>
      cases l with
      | walletWithdrawalReversal id' => rw [text_of_append h]
      | _ => exact absurd h (append_ne_append (by decide) (by decide))
  | manualAdjustment id =>
      cases l with
      | manualAdjustment id' =>
          rw [(String.append_right_inj _).mp h]
      | _ => exact absurd h (append_ne_append (by decide) (by decide))

-- =============================================================== postings

/-- A line of a posting, with what its account is opened with. -/
structure LedgerLineInput where
  account : LedgerAccount
  accountName : String
  accountType : AccountType
  userId : Option Uuid
  debitCents : MoneyCents
  creditCents : MoneyCents

/-- What `postLedgerEntry` is called with. -/
structure LedgerEntryInput where
  idempotencyKey : LedgerKey
  entryType : LedgerEntryType
  orderId : Option Uuid
  currency : Currency
  lines : List LedgerLineInput

namespace LedgerLineInput

/-- The row for `ledger_lines`, where its CHECK lets it in. -/
def toLine (l : LedgerLineInput) : Option (Line String) :=
  if h : (0 < l.debitCents.val ∧ l.creditCents.val = 0)
      ∨ (0 < l.creditCents.val ∧ l.debitCents.val = 0) then
    some ⟨l.account.code, l.debitCents.val, l.creditCents.val, h⟩
  else none

/-- `ensureLedgerAccount`. -/
def ensureAccount (l : LedgerLineInput) (currency : Currency)
    (t : Table LedgerAccountRow.code) : Table LedgerAccountRow.code :=
  t.upsert ⟨l.account.code, l.accountName, l.accountType, currency,
    l.userId⟩

end LedgerLineInput

namespace LedgerEntryInput

/-- What the lines debit in all. -/
def debitTotal (input : LedgerEntryInput) : Int :=
  (input.lines.map fun l => l.debitCents.val).sum

/-- What they credit in all. -/
def creditTotal (input : LedgerEntryInput) : Int :=
  (input.lines.map fun l => l.creditCents.val).sum

/-- What the entry does to an account, read off the request. -/
def net (input : LedgerEntryInput) (a : LedgerAccount) : Int :=
  (input.lines.map fun l =>
    if l.account = a then l.creditCents.val - l.debitCents.val else 0).sum

end LedgerEntryInput

/-- Insert an entry with its lines; `none` when the key is taken. -/
def postLedgerEntry (input : LedgerEntryInput) :
    DbTx (Option LedgerKey) := do
  require (2 ≤ input.lines.length)
    (badRequest "Ledger entry must contain at least two lines")
  require (0 < input.debitTotal ∧ input.debitTotal = input.creditTotal)
    (badRequest "Ledger entry is not balanced")
  let taken ← select fun db =>
    decide (db.ledgerEntries.Has input.idempotencyKey.text)
  if taken then return none
  else do
    let lines ← orThrow (input.lines.mapM LedgerLineInput.toLine)
      (.violation "ledger_lines_check")
    modify fun db => db.setLedger
      (input.lines.foldl (fun t l => l.ensureAccount input.currency t)
        db.ledgerAccounts)
      (db.ledgerEntries.upsert
        ⟨input.idempotencyKey.text, input.entryType, input.orderId,
          input.currency, lines⟩)
    return some input.idempotencyKey

/-- A line with its amount on the debit side. -/
def debitLine (account : LedgerAccount) (accountName : String)
    (accountType : AccountType) (userId : Option Uuid) (cents : MoneyCents) :
    LedgerLineInput :=
  ⟨account, accountName, accountType, userId, cents, .zero⟩

/-- A line with its amount on the credit side. -/
def creditLine (account : LedgerAccount) (accountName : String)
    (accountType : AccountType) (userId : Option Uuid) (cents : MoneyCents) :
    LedgerLineInput :=
  ⟨account, accountName, accountType, userId, .zero, cents⟩

/-- The name of a clearing account. -/
def clearingName (currency : Currency) : String :=
  currency ++ " provider clearing"

/-- The name of a seller's escrow account. -/
def escrowName (currency : Currency) : String :=
  currency ++ " seller escrow liability"

/-- The name of a user's account. -/
def payableName (currency : Currency) : String :=
  currency ++ " user payable liability"

-- ==================================================== the seven postings

/-- A captured payment goes from the provider into the seller's escrow. -/
def paymentCaptureEntry (orderId sellerId : Uuid) (amount : MoneyCents)
    (currency : Currency) : LedgerEntryInput where
  idempotencyKey := .paymentCapture orderId
  entryType := .paymentCapture
  orderId := some orderId
  currency := currency
  lines :=
    [debitLine (.providerClearing currency) (clearingName currency) .asset
      none amount,
     creditLine (.sellerEscrow currency sellerId) (escrowName currency)
      .liability (some sellerId) amount]

/-- Zero amounts have no line. -/
def escrowReleaseEntry (orderId sellerId : Uuid)
    (amount fee netAmount : MoneyCents) (currency : Currency) :
    LedgerEntryInput where
  idempotencyKey := .escrowRelease orderId
  entryType := .escrowRelease
  orderId := some orderId
  currency := currency
  lines :=
    [debitLine (.sellerEscrow currency sellerId) (escrowName currency)
      .liability (some sellerId) amount]
    ++ ((if 0 < netAmount.val then
          [creditLine (.userPayable currency sellerId) (payableName currency)
            .liability (some sellerId) netAmount]
        else [])
      ++ if 0 < fee.val then
          [creditLine (.platformRevenue currency)
            (currency ++ " platform fee revenue") .revenue none fee]
        else [])

/-- A top-up goes from the provider to the user. -/
def walletTopupEntry (topupId userId : Uuid) (amount : MoneyCents)
    (currency : Currency) : LedgerEntryInput where
  idempotencyKey := .walletTopup topupId
  entryType := .adjustment
  orderId := none
  currency := currency
  lines :=
    [debitLine (.providerClearing currency) (clearingName currency) .asset
      none amount,
     creditLine (.userPayable currency userId) (payableName currency)
      .liability (some userId) amount]

/-- A withdrawal goes from the user to the provider. -/
def walletWithdrawalEntry (transactionId userId : Uuid)
    (amount : MoneyCents) (currency : Currency) : LedgerEntryInput where
  idempotencyKey := .walletWithdrawal transactionId
  entryType := .adjustment
  orderId := none
  currency := currency
  lines :=
    [debitLine (.userPayable currency userId) (payableName currency)
      .liability (some userId) amount,
     creditLine (.providerClearing currency) (clearingName currency) .asset
      none amount]

/-- Its reversal goes back. -/
def walletWithdrawalReversalEntry (transactionId userId : Uuid)
    (amount : MoneyCents) (currency : Currency) : LedgerEntryInput where
  idempotencyKey := .walletWithdrawalReversal transactionId
  entryType := .adjustment
  orderId := none
  currency := currency
  lines :=
    [debitLine (.providerClearing currency) (clearingName currency) .asset
      none amount,
     creditLine (.userPayable currency userId) (payableName currency)
      .liability (some userId) amount]

/-- `signedAmount ≥ 0` credits the user, otherwise debits. -/
def manualAdjustmentEntry (adjustmentId : String) (userId : Uuid)
    (amount magnitude : MoneyCents) (currency : Currency) :
    LedgerEntryInput where
  idempotencyKey := .manualAdjustment adjustmentId
  entryType := .adjustment
  orderId := none
  currency := currency
  lines :=
    let equityName := currency ++ " manual adjustment equity"
    if 0 ≤ amount.val then
      [debitLine (.manualAdjustment currency) equityName .equity none
        magnitude,
       creditLine (.userPayable currency userId) (payableName currency)
        .liability (some userId) magnitude]
    else
      [creditLine (.manualAdjustment currency) equityName .equity none
        magnitude,
       debitLine (.userPayable currency userId) (payableName currency)
        .liability (some userId) magnitude]

/-- A refund goes from the seller's escrow to the buyer. -/
def refundEntry (orderId sellerId buyerId : Uuid) (amount : MoneyCents)
    (currency : Currency) : LedgerEntryInput where
  idempotencyKey := .refund orderId
  entryType := .refund
  orderId := some orderId
  currency := currency
  lines :=
    [debitLine (.sellerEscrow currency sellerId) (escrowName currency)
      .liability (some sellerId) amount,
     creditLine (.userPayable currency buyerId) (payableName currency)
      .liability (some buyerId) amount]

/-- An amount out of range fails the transaction. -/
def moneyError : MoneyError → Failure
  | .range => .error "Money cents is outside PostgreSQL bigint range"
  | .invalid message => .error message

/-- `recordPaymentCaptureLedger`. -/
def recordPaymentCaptureLedger (orderId sellerId : Uuid)
    (amount : MoneyCents) (currency : Currency) : DbTx Unit := do
  let _ ← postLedgerEntry (paymentCaptureEntry orderId sellerId amount currency)

/-- `recordEscrowReleaseLedger`: the net amount is computed first. -/
def recordEscrowReleaseLedger (orderId sellerId : Uuid)
    (amount fee : MoneyCents) (currency : Currency) : DbTx Unit := do
  let netAmount ← liftExcept (subtractMoneyCents amount fee) moneyError
  let _ ← postLedgerEntry
    (escrowReleaseEntry orderId sellerId amount fee netAmount currency)

/-- `recordWalletTopupLedger`. -/
def recordWalletTopupLedger (topupId userId : Uuid) (amount : MoneyCents)
    (currency : Currency) : DbTx Unit := do
  let _ ← postLedgerEntry (walletTopupEntry topupId userId amount currency)

/-- `recordWalletWithdrawalLedger`. -/
def recordWalletWithdrawalLedger (transactionId userId : Uuid)
    (amount : MoneyCents) (currency : Currency) : DbTx Unit := do
  let _ ← postLedgerEntry
    (walletWithdrawalEntry transactionId userId amount currency)

/-- `recordWalletWithdrawalReversalLedger`. -/
def recordWalletWithdrawalReversalLedger (transactionId userId : Uuid)
    (amount : MoneyCents) (currency : Currency) : DbTx Unit := do
  let _ ← postLedgerEntry
    (walletWithdrawalReversalEntry transactionId userId amount currency)

/-- `recordManualAdjustmentLedger`: the lines have the magnitude, the sign
tells the side. -/
def recordManualAdjustmentLedger (adjustmentId : String) (userId : Uuid)
    (amount : MoneyCents) (currency : Currency) : DbTx Unit := do
  let magnitude ← liftExcept (absoluteMoneyCents amount) moneyError
  let _ ← postLedgerEntry
    (manualAdjustmentEntry adjustmentId userId amount magnitude currency)

/-- `recordRefundLedger`. -/
def recordRefundLedger (orderId sellerId buyerId : Uuid)
    (amount : MoneyCents) (currency : Currency) : DbTx Unit := do
  let _ ← postLedgerEntry
    (refundEntry orderId sellerId buyerId amount currency)

-- ================================================= what a posting does

/-- Every line is on an account of the entry's currency. -/
def LedgerEntryInput.OneCurrency (input : LedgerEntryInput) : Prop :=
  ∀ l ∈ input.lines, l.account.currency = input.currency

/-- The same of a row. -/
def LedgerEntry.OneCurrency (e : LedgerEntry) : Prop :=
  ∀ l ∈ e.lines, ∃ a : LedgerAccount,
    l.account = a.code ∧ a.currency = e.currency

/-- Lines that pass their check carry the request's accounts… -/
theorem accounts_of_toLine {inputs : List LedgerLineInput}
    {lines : List (Line String)}
    (h : inputs.mapM LedgerLineInput.toLine = some lines) :
    ∀ line ∈ lines, ∃ l ∈ inputs, line.account = l.account.code := by
  induction inputs generalizing lines with
  | nil =>
      simp only [List.mapM_nil, Option.pure_def, Option.some.injEq] at h
      subst h
      simp
  | cons l inputs ih =>
      simp only [List.mapM_cons, Option.pure_def, Option.bind_eq_bind,
        Option.bind_eq_some_iff, Option.some.injEq] at h
      obtain ⟨line, hline, rest, hrest, rfl⟩ := h
      intro line' hline'
      rcases List.mem_cons.mp hline' with rfl | hmem
      · refine ⟨l, List.mem_cons_self, ?_⟩
        unfold LedgerLineInput.toLine at hline
        split at hline
        · cases hline
          rfl
        · cases hline
      · obtain ⟨l', hl', hacc⟩ := ih hrest line' hmem
        exact ⟨l', List.mem_cons_of_mem _ hl', hacc⟩

/-- …and amounts. -/
theorem lines_of_toLine {inputs : List LedgerLineInput}
    {lines : List (Line String)}
    (h : inputs.mapM LedgerLineInput.toLine = some lines) :
    totalDebit lines = (inputs.map fun l => l.debitCents.val).sum
      ∧ totalCredit lines = (inputs.map fun l => l.creditCents.val).sum
      ∧ ∀ a : LedgerAccount, DoubleEntry.net lines a.code
          = (inputs.map fun l => if l.account = a then
              l.creditCents.val - l.debitCents.val else 0).sum := by
  induction inputs generalizing lines with
  | nil =>
      simp only [List.mapM_nil, Option.pure_def, Option.some.injEq] at h
      subst h
      exact ⟨rfl, rfl, fun _ => rfl⟩
  | cons l inputs ih =>
      simp only [List.mapM_cons, Option.pure_def, Option.bind_eq_bind,
        Option.bind_eq_some_iff, Option.some.injEq] at h
      obtain ⟨line, hline, rest, hrest, rfl⟩ := h
      obtain ⟨hd, hc, hn⟩ := ih hrest
      unfold LedgerLineInput.toLine at hline
      split at hline
      case isFalse => cases hline
      case isTrue =>
        cases hline
        unfold totalDebit totalCredit at *
        refine ⟨?_, ?_, ?_⟩
        · simp only [List.map_cons, List.sum_cons, hd]
        · simp only [List.map_cons, List.sum_cons, hc]
        · intro a
          simp only [net_cons, List.map_cons, List.sum_cons, hn,
            LedgerAccount.code_inj]

/-- The table of entries, each under its idempotency key. -/
abbrev LedgerEntries := Table LedgerEntry.idempotencyKey

/-- A posting left the entries alone because the key was taken, or
appended one balanced entry that does what was asked. -/
inductive Recorded (input : LedgerEntryInput) (t : LedgerEntries) :
    LedgerEntries → Prop where
  | skipped (taken : t.Has input.idempotencyKey.text) : Recorded input t t
  | posted {t' : LedgerEntries} {lines : List (Line String)}
      (balanced : DoubleEntry.Balanced lines)
      (net_eq : ∀ a : LedgerAccount,
        DoubleEntry.net lines a.code = input.net a)
      (accounts : ∀ line ∈ lines, ∃ l ∈ input.lines,
        line.account = l.account.code)
      (inserted : t.insert?
        ⟨input.idempotencyKey.text, input.entryType, input.orderId,
          input.currency, lines⟩ = some t') :
      Recorded input t t'

/-- A posting writes two tables and nothing else. -/
def Posted (input : LedgerEntryInput) (db db' : Db) : Prop :=
  ∃ accounts entries, Recorded input db.ledgerEntries entries
    ∧ db' = db.setLedger accounts entries

/-- A posting that commits was recorded, or found its key taken. -/
theorem commits_postLedgerEntry {input : LedgerEntryInput} {db db' : Db}
    {r : Option LedgerKey} (h : Commits (postLedgerEntry input) db r db') :
    Posted input db db' := by
  simp only [postLedgerEntry, commits_require_bind, commits_select_bind,
    commits_ite, decide_eq_true_eq, commits_pure, commits_orThrow_bind,
    commits_modify_bind] at h
  obtain ⟨-, ⟨hpos, hbal⟩, ⟨htaken, -, rfl⟩ | ⟨hfree, lines, hlines, -,
    rfl⟩⟩ := h
  · exact ⟨db'.ledgerAccounts, db'.ledgerEntries, .skipped htaken, rfl⟩
  · obtain ⟨hd, hc, hn⟩ := lines_of_toLine hlines
    have hbalanced : DoubleEntry.Balanced lines := by
      unfold DoubleEntry.Balanced
      rw [hd, hc]
      exact ⟨hbal, hpos⟩
    refine ⟨_, _, .posted hbalanced hn (accounts_of_toLine hlines) ?_, rfl⟩
    rw [Table.insert?_eq_some]
    exact ⟨hfree, Table.rows_upsert_of_not_has hfree⟩

section Records

variable {db db' : Db} {x : Unit}

/-- A posting whose answer the caller drops. -/
theorem posted_of_commits {input : LedgerEntryInput}
    (h : Commits (postLedgerEntry input >>= fun _ => pure ()) db x db') :
    Posted input db db' := by
  rw [commits_bind] at h
  obtain ⟨r, s, hpost, hpure⟩ := h
  obtain ⟨-, rfl⟩ := commits_pure.mp hpure
  exact commits_postLedgerEntry hpost

/-- A release is posted with the amount less the fee. -/
theorem commits_recordEscrowReleaseLedger {orderId sellerId : Uuid}
    {amount fee : MoneyCents} {c : Currency}
    (h : Commits (recordEscrowReleaseLedger orderId sellerId amount fee c)
      db x db') :
    ∃ netAmount, netAmount.val = amount.val - fee.val
      ∧ Posted (escrowReleaseEntry orderId sellerId amount fee netAmount c)
          db db' := by
  simp only [recordEscrowReleaseLedger, commits_liftExcept_bind] at h
  obtain ⟨netAmount, hnet, h⟩ := h
  exact ⟨netAmount, subtractMoneyCents_eq_ok.mp hnet, posted_of_commits h⟩

/-- An adjustment is posted with its magnitude. -/
theorem commits_recordManualAdjustmentLedger {id : String} {userId : Uuid}
    {amount : MoneyCents} {c : Currency}
    (h : Commits (recordManualAdjustmentLedger id userId amount c) db x db') :
    ∃ magnitude : MoneyCents, magnitude.val = amount.val.natAbs
      ∧ Posted (manualAdjustmentEntry id userId amount magnitude c) db db' := by
  simp only [recordManualAdjustmentLedger, commits_liftExcept_bind] at h
  obtain ⟨magnitude, hmag, h⟩ := h
  exact ⟨magnitude, absoluteMoneyCents_eq_ok.mp hmag, posted_of_commits h⟩

end Records

-- Each posting is in one currency.

section Currencies

variable {orderId userId sellerId buyerId : Uuid}
  {amount fee net : MoneyCents} {c : Currency}

/-- A capture names accounts of one currency. -/
theorem paymentCaptureEntry_oneCurrency :
    (paymentCaptureEntry orderId sellerId amount c).OneCurrency := by
  simp [LedgerEntryInput.OneCurrency, paymentCaptureEntry, debitLine,
    creditLine, LedgerAccount.currency]

/-- So does a release. -/
theorem escrowReleaseEntry_oneCurrency :
    (escrowReleaseEntry orderId sellerId amount fee net c).OneCurrency := by
  intro l hl
  simp only [escrowReleaseEntry, List.mem_append, List.mem_singleton] at hl
  rcases hl with rfl | hl | hl
  · rfl
  · split at hl
    · rw [List.mem_singleton.mp hl]
      rfl
    · cases hl
  · split at hl
    · rw [List.mem_singleton.mp hl]
      rfl
    · cases hl

/-- And a top-up. -/
theorem walletTopupEntry_oneCurrency :
    (walletTopupEntry orderId userId amount c).OneCurrency := by
  simp [LedgerEntryInput.OneCurrency, walletTopupEntry, debitLine,
    creditLine, LedgerAccount.currency]

/-- And a withdrawal. -/
theorem walletWithdrawalEntry_oneCurrency :
    (walletWithdrawalEntry orderId userId amount c).OneCurrency := by
  simp [LedgerEntryInput.OneCurrency, walletWithdrawalEntry, debitLine,
    creditLine, LedgerAccount.currency]

/-- And its reversal. -/
theorem walletWithdrawalReversalEntry_oneCurrency :
    (walletWithdrawalReversalEntry orderId userId amount c).OneCurrency := by
  simp [LedgerEntryInput.OneCurrency, walletWithdrawalReversalEntry,
    debitLine, creditLine, LedgerAccount.currency]

/-- And an adjustment. -/
theorem manualAdjustmentEntry_oneCurrency {id : String} :
    (manualAdjustmentEntry id userId amount net c).OneCurrency := by
  unfold LedgerEntryInput.OneCurrency manualAdjustmentEntry
  split <;> simp [debitLine, creditLine, LedgerAccount.currency]

/-- And a refund. -/
theorem refundEntry_oneCurrency :
    (refundEntry orderId sellerId buyerId amount c).OneCurrency := by
  simp [LedgerEntryInput.OneCurrency, refundEntry, debitLine, creditLine,
    LedgerAccount.currency]

end Currencies

-- The net of each posting on every account.

section Nets

variable {orderId userId sellerId buyerId : Uuid} {amount : MoneyCents}
  {c : Currency} {a : LedgerAccount}

/-- What a capture moves on each account. -/
theorem net_paymentCaptureEntry :
    (paymentCaptureEntry orderId sellerId amount c).net a
      = (if .sellerEscrow c sellerId = a then amount.val else 0)
        - (if .providerClearing c = a then amount.val else 0) := by
  simp only [LedgerEntryInput.net, paymentCaptureEntry, debitLine,
    creditLine, List.map_cons, List.map_nil, List.sum_cons, List.sum_nil,
    MoneyCents.val_zero]
  split <;> split <;> omega

/-- A credit line that is left out when it is zero. -/
theorem net_optionalCredit {account : LedgerAccount} {name : String}
    {type : AccountType} {user : Option Uuid} {cents : MoneyCents}
    (h : 0 ≤ cents.val) :
    ((if 0 < cents.val then [creditLine account name type user cents]
      else []).map fun l => if l.account = a then
        l.creditCents.val - l.debitCents.val else 0).sum
      = if account = a then cents.val else 0 := by
  split
  · simp [creditLine]
  · have hz : cents.val = 0 := by omega
    simp [hz]

/-- What a release moves. -/
theorem net_escrowReleaseEntry {fee netAmount : MoneyCents}
    (hfee : 0 ≤ fee.val) (hnet : 0 ≤ netAmount.val) :
    (escrowReleaseEntry orderId sellerId amount fee netAmount c).net a
      = (if .userPayable c sellerId = a then netAmount.val else 0)
        + (if .platformRevenue c = a then fee.val else 0)
        - (if .sellerEscrow c sellerId = a then amount.val else 0) := by
  simp only [LedgerEntryInput.net, escrowReleaseEntry, List.map_append,
    List.sum_append, net_optionalCredit hfee, net_optionalCredit hnet,
    debitLine, List.map_cons, List.map_nil, List.sum_cons, List.sum_nil,
    MoneyCents.val_zero]
  split <;> omega

/-- What a top-up moves. -/
theorem net_walletTopupEntry :
    (walletTopupEntry orderId userId amount c).net a
      = (if .userPayable c userId = a then amount.val else 0)
        - (if .providerClearing c = a then amount.val else 0) := by
  simp only [LedgerEntryInput.net, walletTopupEntry, debitLine,
    creditLine, List.map_cons, List.map_nil, List.sum_cons, List.sum_nil,
    MoneyCents.val_zero]
  split <;> split <;> omega

/-- What a withdrawal moves. -/
theorem net_walletWithdrawalEntry :
    (walletWithdrawalEntry orderId userId amount c).net a
      = (if .providerClearing c = a then amount.val else 0)
        - (if .userPayable c userId = a then amount.val else 0) := by
  simp only [LedgerEntryInput.net, walletWithdrawalEntry, debitLine,
    creditLine, List.map_cons, List.map_nil, List.sum_cons, List.sum_nil,
    MoneyCents.val_zero]
  split <;> split <;> omega

/-- What its reversal moves. -/
theorem net_walletWithdrawalReversalEntry :
    (walletWithdrawalReversalEntry orderId userId amount c).net a
      = (if .userPayable c userId = a then amount.val else 0)
        - (if .providerClearing c = a then amount.val else 0) := by
  simp only [LedgerEntryInput.net, walletWithdrawalReversalEntry, debitLine,
    creditLine, List.map_cons, List.map_nil, List.sum_cons, List.sum_nil,
    MoneyCents.val_zero]
  split <;> split <;> omega

/-- What an adjustment moves: its signed amount. -/
theorem net_manualAdjustmentEntry {id : String} {magnitude : MoneyCents}
    (h : magnitude.val = amount.val.natAbs) :
    (manualAdjustmentEntry id userId amount magnitude c).net a
      = (if .userPayable c userId = a then amount.val else 0)
        - (if .manualAdjustment c = a then amount.val else 0) := by
  simp only [LedgerEntryInput.net, manualAdjustmentEntry]
  split <;> simp only [debitLine, creditLine, List.map_cons, List.map_nil,
    List.sum_cons, List.sum_nil, MoneyCents.val_zero] <;>
    split <;> split <;> omega

/-- What a refund moves. -/
theorem net_refundEntry :
    (refundEntry orderId sellerId buyerId amount c).net a
      = (if .userPayable c buyerId = a then amount.val else 0)
        - (if .sellerEscrow c sellerId = a then amount.val else 0) := by
  simp only [LedgerEntryInput.net, refundEntry, debitLine, creditLine,
    List.map_cons, List.map_nil, List.sum_cons, List.sum_nil,
    MoneyCents.val_zero]
  split <;> split <;> omega

end Nets

end Skrynia
