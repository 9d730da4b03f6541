/-
Wallet operations: top-ups, withdrawals, manual adjustments, rejected
payouts.

Each is one serializable transaction on one user's available balance,
with its history row and its ledger entry. The inversions at the end say
what a committed one has done; like the escrow operations they are all a
`Booked` move, on other tables.

The notifications after COMMIT and the cache evictions are left out.
-/
import Skrynia.Orders.Effects

namespace Skrynia

open Relational

/-- `checkedWalletAddition`. -/
def checkedWalletAddition (current added : MoneyCents) : DbTx MoneyCents :=
  liftExcept (addMoneyCents current added) fun e =>
    match e with
    | .range => badRequest "Wallet balance exceeds the supported money range"
    | e => moneyError e

/-- `checkedWalletSubtraction`. -/
def checkedWalletSubtraction (current subtracted : MoneyCents) :
    DbTx MoneyCents :=
  liftExcept (subtractMoneyCents current subtracted) fun e =>
    match e with
    | .range => badRequest "Wallet balance exceeds the supported money range"
    | e => moneyError e

-- ================================================================ top-up

/-- What a completion is called with. -/
structure CompleteTopupInput where
  topupId : Uuid
  provider : String
  reference : String
  transactionId : Uuid

/-- The row after `update wallet_topups set status = 'completed', …`. -/
def WalletTopup.completed (topup : WalletTopup) (provider reference : String)
    (now : Timestamp) : WalletTopup :=
  { topup with
    status := .completed
    paymentProvider := some provider
    paymentReference := some reference
    completedAt := some now }

/-- `completeWalletTopup`. -/
def completeWalletTopup (cfg : Config) (now : Timestamp)
    (input : CompleteTopupInput) : DbTx WalletTopup := do
  let topup ← select fun db => db.walletTopups.find? input.topupId
  let topup ← orThrow topup (notFound "Wallet topup not found")
  if topup.status ≠ .pending then return topup
  else do
    let walletId ← ensureWallet topup.userId topup.currency
    let wallet ← selectWallet walletId
    let nextAvailableCents ←
      checkedWalletAddition wallet.availableCents topup.amountCents
    setAvailable walletId nextAvailableCents
    let _ ← insertTransaction cfg input.transactionId walletId none
      .walletCredit .credit topup.amountCents .posted
    recordWalletTopupLedger topup.id topup.userId topup.amountCents
      topup.currency
    let updated := topup.completed input.provider input.reference now
    modify fun db => db.putTopup updated
    return updated

-- ============================================================ withdrawal

/-- What a withdrawal is called with. -/
structure RequestWithdrawalInput where
  userId : Uuid
  amountCents : MoneyCents
  currency : Currency
  transactionId : Uuid
  payoutId : Uuid

/-- The row that a withdrawal inserts into `payouts`. -/
def RequestWithdrawalInput.payout (input : RequestWithdrawalInput)
    (h : 0 ≤ input.amountCents.val) : Payout where
  id := input.payoutId
  userId := input.userId
  transactionId := input.transactionId
  amountCents := input.amountCents
  currency := input.currency
  provider := .manual
  status := .pending
  reference := none
  adminNote := none
  processedBy := none
  processedAt := none
  amount_nonneg := h

/-- The payout of a withdrawal is inserted. -/
def insertPayout (input : RequestWithdrawalInput) : DbTx Payout :=
  if h : 0 ≤ input.amountCents.val then do
    let table ← select fun db => db.payouts.insert? (input.payout h)
    let table ← orThrow table (.violation "payouts_pkey")
    modify fun db => db.setPayouts table
    return input.payout h
  else throw (.violation "payouts_amount_cents_check")

/-- `requestWithdrawal`. -/
def requestWithdrawal (cfg : Config) (input : RequestWithdrawalInput) :
    DbTx Payout := do
  require (0 < input.amountCents.val)
    (badRequest "Withdrawal amount must be positive")
  let walletId ← ensureWallet input.userId input.currency
  let wallet ← selectWallet walletId
  require (input.amountCents.val ≤ wallet.availableCents.val)
    (badRequest "Insufficient balance")
  let nextAvailableCents ←
    checkedWalletSubtraction wallet.availableCents input.amountCents
  setAvailable walletId nextAvailableCents
  let transactionId ← insertTransaction cfg input.transactionId walletId none
    .walletDebit .debit input.amountCents .pending
  recordWalletWithdrawalLedger transactionId input.userId input.amountCents
    input.currency
  insertPayout input

-- ===================================================== manual adjustment

/-- What an adjustment is called with. -/
structure ManualAdjustmentInput where
  userId : Uuid
  amountCents : MoneyCents
  currency : Currency
  /-- What `nanoid()` draws. -/
  adjustmentId : String
  transactionId : Uuid

/-- `postManualAdjustment`. -/
def postManualAdjustment (cfg : Config) (input : ManualAdjustmentInput) :
    DbTx Uuid := do
  require (input.amountCents.val ≠ 0)
    (badRequest "Adjustment amount cannot be zero")
  let magnitude ← liftExcept (absoluteMoneyCents input.amountCents) fun e =>
    match e with
    | .range => badRequest
        "Adjustment amount magnitude exceeds the supported money range"
    | e => moneyError e
  let walletId ← ensureWallet input.userId input.currency
  let wallet ← selectWallet walletId
  require (input.amountCents.val < 0 →
      magnitude.val ≤ wallet.availableCents.val)
    (badRequest "Insufficient balance for a negative adjustment")
  let nextAvailableCents ←
    checkedWalletAddition wallet.availableCents input.amountCents
  setAvailable walletId nextAvailableCents
  let transactionId ← insertTransaction cfg input.transactionId walletId none
    .manualAdjustment
    (if 0 ≤ input.amountCents.val then .credit else .debit) magnitude .posted
  recordManualAdjustmentLedger input.adjustmentId input.userId
    input.amountCents input.currency
  return transactionId

-- ======================================================= rejected payout

/-- What a rejection is called with. -/
structure RejectPayoutInput where
  payoutId : Uuid
  adminId : Uuid
  reason : String
  transactionId : Uuid

/-- The row after `update payouts set status = 'rejected', …`. -/
def Payout.rejected (payout : Payout) (adminId : Uuid) (reason : String)
    (now : Timestamp) : Payout :=
  { payout with
    status := .rejected
    adminNote := some reason
    processedBy := some adminId
    processedAt := some now }

/-- `rejectPayout`: the amount goes back. -/
def rejectPayout (cfg : Config) (now : Timestamp)
    (input : RejectPayoutInput) : DbTx Payout := do
  let payout ← select fun db => db.payouts.find? input.payoutId
  let payout ← orThrow payout (notFound "Payout not found")
  require (payout.status = .pending)
    (badRequest "Only pending payouts can be rejected")
  let walletId ← ensureWallet payout.userId payout.currency
  let wallet ← selectWallet walletId
  let nextAvailableCents ←
    checkedWalletAddition wallet.availableCents payout.amountCents
  setAvailable walletId nextAvailableCents
  let _ ← insertTransaction cfg input.transactionId walletId none
    .walletCredit .credit payout.amountCents .posted
  recordWalletWithdrawalReversalLedger payout.transactionId payout.userId
    payout.amountCents payout.currency
  let updated := payout.rejected input.adminId input.reason now
  modify fun db => db.putPayout updated
  return updated

-- ============================================ what a committed one did

/-- What a wallet operation leaves alone; history rows are added. -/
structure WalletFrame (db db' : Db) : Prop where
  users : db'.users = db.users
  orders : db'.orders = db.orders
  disputes : db'.disputes = db.disputes
  transactions : ∀ id, db.transactions.Has id → db'.transactions.Has id
  history : HistoryGrew db db'

section Sequence

variable {α : Type} {db db' : Db} {b : α}

/-- A balance grows if the sum fits. -/
theorem commits_checkedWalletAddition_bind {current added : MoneyCents}
    {g : MoneyCents → DbTx α} :
    Commits (checkedWalletAddition current added >>= g) db b db'
      ↔ ∃ m : MoneyCents, m.val = current.val + added.val
        ∧ Commits (g m) db b db' := by
  simp only [checkedWalletAddition, commits_liftExcept_bind,
    addMoneyCents_eq_ok]

/-- A balance shrinks if it is large enough. -/
theorem commits_checkedWalletSubtraction_bind
    {current subtracted : MoneyCents} {g : MoneyCents → DbTx α} :
    Commits (checkedWalletSubtraction current subtracted >>= g) db b db'
      ↔ ∃ m : MoneyCents, m.val = current.val - subtracted.val
        ∧ Commits (g m) db b db' := by
  simp only [checkedWalletSubtraction, commits_liftExcept_bind,
    subtractMoneyCents_eq_ok]

end Sequence

/-- Moving one available balance, seen from every balance. -/
theorem balance_withAvailable {db : Db} {k : WalletKey} {w : Wallet}
    {m : MoneyCents} {h : 0 ≤ m.val} {delta : Int}
    (hw : (db.openWallet k).wallets.find? k = some w)
    (hm : m.val = w.availableCents.val + delta) (b : Balance) :
    ((db.openWallet k).putWallet (w.withAvailable m h)).balance b
      = db.balance b + if b = .available k.1 k.2 then delta else 0 := by
  have hA := Wallets.availableOf_of_find? hw
  simp only [Db.openWallet, Wallets.availableOf_ensured] at hA
  cases b with
  | available u c =>
      refine (Wallets.availableOf_withAvailable hw (u, c)).trans ?_
      simp only [Balance.available.injEq, Db.balance]
      by_cases hk : (u, c) = k
      · subst hk
        simp [hm, hA]
      · rw [if_neg hk, if_neg fun huc => hk (Prod.ext huc.1 huc.2)]
        simp
  | escrow u c =>
      refine (Wallets.escrowOf_withAvailable hw (u, c)).trans ?_
      simp [Db.balance]
  | revenue c => simp [Db.balance]

/-- What a committed `completeWalletTopup` has done: nothing to a top-up
that is not pending, otherwise one credit. -/
inductive ToppedUp (now : Timestamp) (input : CompleteTopupInput) (db : Db) :
    Db → Prop where
  | repeated {t : WalletTopup}
      (found : db.walletTopups.find? input.topupId = some t)
      (notPending : t.status ≠ .pending) : ToppedUp now input db db
  | credited {db' : Db} {t : WalletTopup}
      (found : db.walletTopups.find? input.topupId = some t)
      (pending : t.status = .pending)
      (topups : db'.walletTopups = db.walletTopups.set
        (t.completed input.provider input.reference now))
      (payouts : db'.payouts = db.payouts)
      (booked : Booked
        (walletTopupEntry t.id t.userId t.amountCents t.currency) db db')
      (frame : WalletFrame db db') : ToppedUp now input db db'

/-- A completion that commits has credited the user. -/
theorem completeWalletTopup_toppedUp {cfg : Config} {now : Timestamp}
    {input : CompleteTopupInput} {db db' : Db} {r : WalletTopup}
    (h : Commits (completeWalletTopup cfg now input) db r db') :
    ToppedUp now input db db' := by
  simp only [completeWalletTopup, commits_select_bind,
    commits_orThrow_bind, commits_ite, commits_pure,
    commits_ensureWallet_bind, commits_selectWallet_bind,
    commits_checkedWalletAddition_bind] at h
  obtain ⟨t, hfind, ⟨hstatus, -, rfl⟩ | ⟨hpending, w, hw, next, hnext, h⟩⟩
    := h
  · exact .repeated hfind hstatus
  rw [not_not] at hpending
  obtain ⟨hnn, h⟩ := (commits_setAvailable_bind hw).mp h
  simp only [commits_insertTransaction_bind] at h
  obtain ⟨-, _, t₁, ht₁, h⟩ := h
  rw [recordWalletTopupLedger, commits_bind] at h
  obtain ⟨_, s, hpost, h⟩ := h
  obtain ⟨accounts, entries, hrec, rfl⟩ := posted_of_commits hpost
  simp only [commits_modify_bind, commits_pure] at h
  obtain ⟨-, rfl⟩ := h
  refine .credited hfind hpending (by simp) (by simp) ⟨?_, ?_⟩ ?_
  · intro b
    have hbalance := balance_withAvailable (h := hnn) hw hnext b
    refine (Db.balance_congr ?_ ?_ b).trans (hbalance.trans ?_)
    · simp
    · simp
    rw [net_walletTopupEntry]
    simp
  · simpa using hrec
  · refine ⟨by simp, by simp, by simp, ?_,
      .of_eq (by simp) (by simp) (by simp)⟩
    intro id hhas
    exact (Table.has_insert ht₁).mpr (.inl hhas)

/-- What a committed `requestWithdrawal` has done. -/
structure Withdrawn (input : RequestWithdrawalInput) (db db' : Db) : Prop where
  positive : 0 < input.amountCents.val
  freshTransaction : ¬ db.transactions.Has input.transactionId
  transaction : db'.transactions.Has input.transactionId
  payouts : ∃ h, db.payouts.insert? (input.payout h) = some db'.payouts
  topups : db'.walletTopups = db.walletTopups
  booked : Booked (walletWithdrawalEntry input.transactionId input.userId
    input.amountCents input.currency) db db'
  frame : WalletFrame db db'

/-- A withdrawal that commits has debited the user, and left a payout. -/
theorem requestWithdrawal_withdrawn {cfg : Config}
    {input : RequestWithdrawalInput} {db db' : Db} {r : Payout}
    (h : Commits (requestWithdrawal cfg input) db r db') :
    Withdrawn input db db' := by
  simp only [requestWithdrawal, commits_require_bind,
    commits_ensureWallet_bind, commits_selectWallet_bind,
    commits_checkedWalletSubtraction_bind] at h
  obtain ⟨hpos, w, hw, -, next, hnext, h⟩ := h
  obtain ⟨hnn, h⟩ := (commits_setAvailable_bind hw).mp h
  simp only [commits_insertTransaction_bind] at h
  obtain ⟨-, _, t₁, ht₁, h⟩ := h
  rw [recordWalletWithdrawalLedger, commits_bind] at h
  obtain ⟨_, s, hpost, h⟩ := h
  obtain ⟨accounts, entries, hrec, rfl⟩ := posted_of_commits hpost
  simp only [insertPayout, commits_check, commits_select_bind,
    commits_orThrow_bind, commits_modify_bind, commits_pure] at h
  obtain ⟨hamount, payouts, hpayouts, -, rfl⟩ := h
  refine ⟨hpos, ?_, ?_, ⟨hamount, by simpa using hpayouts⟩, by simp,
    ⟨?_, ?_⟩, ?_⟩
  · exact (Table.insert?_eq_some.mp ht₁).1
  · exact (Table.has_insert ht₁).mpr (.inr rfl)
  · intro b
    rw [Int.sub_eq_add_neg] at hnext
    have hbalance := balance_withAvailable (h := hnn) hw hnext b
    refine (Db.balance_congr ?_ ?_ b).trans (hbalance.trans ?_)
    · simp
    · simp
    rw [net_walletWithdrawalEntry]
    simp only [Balance.providerClearing_ne_account,
      Balance.userPayable_eq_account, if_false]
    split <;> omega
  · simpa using hrec
  · refine ⟨by simp, by simp, by simp, ?_,
      .of_eq (by simp) (by simp) (by simp)⟩
    intro id hhas
    exact (Table.has_insert ht₁).mpr (.inl hhas)

/-- What a committed `postManualAdjustment` has done. -/
structure Adjusted (input : ManualAdjustmentInput) (db db' : Db) : Prop where
  payouts : db'.payouts = db.payouts
  topups : db'.walletTopups = db.walletTopups
  booked : ∃ magnitude : MoneyCents,
    magnitude.val = input.amountCents.val.natAbs ∧ Booked
      (manualAdjustmentEntry input.adjustmentId input.userId
        input.amountCents magnitude input.currency) db db'
  frame : WalletFrame db db'

/-- An adjustment that commits has moved the balance by its amount. -/
theorem postManualAdjustment_adjusted {cfg : Config}
    {input : ManualAdjustmentInput} {db db' : Db} {r : Uuid}
    (h : Commits (postManualAdjustment cfg input) db r db') :
    Adjusted input db db' := by
  simp only [postManualAdjustment, commits_require_bind,
    commits_liftExcept_bind, commits_ensureWallet_bind,
    commits_selectWallet_bind, commits_checkedWalletAddition_bind] at h
  obtain ⟨-, _, -, w, hw, -, next, hnext, h⟩ := h
  obtain ⟨hnn, h⟩ := (commits_setAvailable_bind hw).mp h
  simp only [commits_insertTransaction_bind] at h
  obtain ⟨-, _, t₁, ht₁, h⟩ := h
  rw [commits_bind] at h
  obtain ⟨_, s, hpost, h⟩ := h
  obtain ⟨magnitude, hmag, accounts, entries, hrec, rfl⟩ :=
    commits_recordManualAdjustmentLedger hpost
  obtain ⟨-, rfl⟩ := commits_pure.mp h
  refine ⟨by simp, by simp, ⟨magnitude, hmag, ?_, ?_⟩, ?_⟩
  · intro b
    have hbalance := balance_withAvailable (h := hnn) hw hnext b
    refine (Db.balance_congr ?_ ?_ b).trans (hbalance.trans ?_)
    · simp
    · simp
    rw [net_manualAdjustmentEntry hmag]
    simp
  · simpa using hrec
  · refine ⟨by simp, by simp, by simp, ?_,
      .of_eq (by simp) (by simp) (by simp)⟩
    intro id hhas
    exact (Table.has_insert ht₁).mpr (.inl hhas)

/-- What a committed `rejectPayout` has done. -/
structure PayoutRejected (now : Timestamp) (input : RejectPayoutInput)
    (db db' : Db) (p : Payout) : Prop where
  found : db.payouts.find? input.payoutId = some p
  pending : p.status = .pending
  payouts : db'.payouts
    = db.payouts.set (p.rejected input.adminId input.reason now)
  topups : db'.walletTopups = db.walletTopups
  booked : Booked (walletWithdrawalReversalEntry p.transactionId p.userId
    p.amountCents p.currency) db db'
  frame : WalletFrame db db'

/-- A rejection that commits has given the amount back. -/
theorem rejectPayout_rejected {cfg : Config} {now : Timestamp}
    {input : RejectPayoutInput} {db db' : Db} {r : Payout}
    (h : Commits (rejectPayout cfg now input) db r db') :
    ∃ p, PayoutRejected now input db db' p := by
  simp only [rejectPayout, commits_select_bind, commits_orThrow_bind,
    commits_require_bind, commits_ensureWallet_bind,
    commits_selectWallet_bind, commits_checkedWalletAddition_bind] at h
  obtain ⟨p, hfind, hpending, w, hw, next, hnext, h⟩ := h
  obtain ⟨hnn, h⟩ := (commits_setAvailable_bind hw).mp h
  simp only [commits_insertTransaction_bind] at h
  obtain ⟨-, _, t₁, ht₁, h⟩ := h
  rw [recordWalletWithdrawalReversalLedger, commits_bind] at h
  obtain ⟨_, s, hpost, h⟩ := h
  obtain ⟨accounts, entries, hrec, rfl⟩ := posted_of_commits hpost
  simp only [commits_modify_bind, commits_pure] at h
  obtain ⟨-, rfl⟩ := h
  refine ⟨p, hfind, hpending, by simp, by simp, ⟨?_, ?_⟩, ?_⟩
  · intro b
    have hbalance := balance_withAvailable (h := hnn) hw hnext b
    refine (Db.balance_congr ?_ ?_ b).trans (hbalance.trans ?_)
    · simp
    · simp
    rw [net_walletWithdrawalReversalEntry]
    simp
  · simpa using hrec
  · refine ⟨by simp, by simp, by simp, ?_,
      .of_eq (by simp) (by simp) (by simp)⟩
    intro id hhas
    exact (Table.has_insert ht₁).mpr (.inl hhas)

end Skrynia
