/-
Postings and what they stand for.

A step that moves a balance books one entry. Its key names an event: an
order was captured, a top-up was completed. `Spent` says that the event
of a key has happened; no step undoes one (`Moved.spent`), and a step
books only under a key that was not spent and now is
(`Moved.posting`). For the three keys of an order there is an exact
reading off its status, `Due`, which every step moves in line with what
it books.
-/
import Skrynia.Market.System

namespace Skrynia

open Relational DoubleEntry Stepping

-- ================================================ what happens to tables

/-- One step of the orders: an order is added, or takes an edge. -/
inductive OrdersStep (t t' : Table OrderRow.id) : Prop where
  | same (h : t' = t)
  | created {o : OrderRow} (pending : o.status = .pending)
      (inserted : t.insert? o = some t')
  | moved {o o' : OrderRow} (edge : canTransitionOrder o.status o'.status)
      (moved : OrderMoved t t' o o')

/-- Orders are added or walk along the table, one in each step. -/
theorem Moved.orders {drawn : Option String} {db db' : Db}
    (h : Moved drawn db db') : OrdersStep db.orders db'.orders := by
  cases h with
  | idle => exact .same rfl
  | created h => exact .created h.pending h.inserted
  | walked h _ => exact .moved h.edge h.moved
  | disputed h =>
      cases h with
      | repeated => exact .same rfl
      | opened _ _ _ _ walked => exact .moved walked.edge walked.moved
  | captured h =>
      refine .moved ?_ h.moved
      rw [h.fromPending]
      rcases h.toEscrow with hs | hs <;> rw [hs] <;> decide
  | released h =>
      refine .moved ?_ h.moved
      rw [h.completed]
      exact h.edge
  | refunded h =>
      refine .moved ?_ h.moved
      rw [h.refunded]
      exact h.edge
  | toppedUp h =>
      cases h with
      | repeated _ _ => exact .same rfl
      | credited _ _ _ _ _ frame => exact .same frame.orders
  | withdrawn h => exact .same h.frame.orders
  | adjusted h _ => exact .same h.frame.orders
  | rejected h => exact .same h.frame.orders
  | paid h => exact .same (by rw [h.db_eq]; rfl)
  | userUpdated h =>
      obtain ⟨_, rfl⟩ := h.rest
      exact .same rfl

/-- The order is there, with such a status. -/
def OrderIs (t : Table OrderRow.id) (id : Uuid) (P : OrderStatus → Prop) :
    Prop :=
  ∃ o, t.find? id = some o ∧ P o.status

/-- A property of statuses that edges keep, orders keep. -/
theorem OrdersStep.keeps {t t' : Table OrderRow.id} (h : OrdersStep t t')
    {P : OrderStatus → Prop}
    (hP : ∀ {s s'}, canTransitionOrder s s' → P s → P s') {id : Uuid}
    (ho : OrderIs t id P) : OrderIs t' id P := by
  obtain ⟨o, hfind, hs⟩ := ho
  cases h with
  | same h =>
      rw [h]
      exact ⟨o, hfind, hs⟩
  | created _ inserted =>
      refine ⟨o, ?_, hs⟩
      rw [Table.find?_insert inserted]
      split
      · next hid =>
        have hfree := (Table.insert?_eq_some.mp inserted).1
        rw [hid] at hfree
        exact absurd (Table.has_iff.mpr ⟨o, hfind⟩) hfree
      · exact hfind
  | moved edge moved =>
      next p p' =>
      unfold OrderIs
      rw [moved.table_eq, Table.find?_set]
      by_cases hid : p'.id = id
      · have hp : t.find? id = some p := by
          rw [← hid, moved.id_eq]
          exact moved.found
        rw [hp] at hfind
        cases hfind
        rw [if_pos hid, hp]
        exact ⟨p', rfl, hP edge hs⟩
      · rw [if_neg hid]
        exact ⟨o, hfind, hs⟩

/-- One step of the payouts: a pending one is added, or one is settled. -/
inductive PayoutsStep (db db' : Db) : Prop where
  | same (h : db'.payouts = db.payouts)
  | inserted {p : Payout} (fresh : ¬ db.transactions.Has p.transactionId)
      (recorded : db'.transactions.Has p.transactionId)
      (inserted : db.payouts.insert? p = some db'.payouts)
  | settled {p p' : Payout} (found : db.payouts.find? p.id = some p)
      (id_eq : p'.id = p.id)
      (transaction_eq : p'.transactionId = p.transactionId)
      (notPending : p'.status ≠ .pending)
      (table_eq : db'.payouts = db.payouts.set p')

/-- And so do payouts. -/
theorem Moved.payouts {drawn : Option String} {db db' : Db}
    (h : Moved drawn db db') : PayoutsStep db db' := by
  cases h with
  | idle => exact .same rfl
  | created h => exact .same h.books.payouts
  | walked h _ => exact .same h.books.payouts
  | disputed h =>
      cases h with
      | repeated => exact .same rfl
      | opened _ _ _ _ walked => exact .same walked.books.payouts
  | captured h => exact .same h.frame.payouts
  | released h => exact .same h.frame.payouts
  | refunded h => exact .same h.frame.payouts
  | toppedUp h =>
      cases h with
      | repeated _ _ => exact .same rfl
      | credited _ _ _ payouts _ _ => exact .same payouts
  | withdrawn h =>
      obtain ⟨hamount, hinserted⟩ := h.payouts
      exact .inserted h.freshTransaction h.transaction hinserted
  | adjusted h _ => exact .same h.payouts
  | rejected h =>
      have hid := Table.key_of_find? h.found
      have hfound := h.found
      rw [← hid] at hfound
      refine .settled hfound ?_ ?_ ?_ h.payouts
      · rfl
      · rfl
      · nofun
  | paid h =>
      refine .settled h.found h.id_eq h.transaction_eq ?_ ?_
      · rw [h.paid]
        nofun
      · rw [h.db_eq]
        rfl
  | userUpdated h =>
      obtain ⟨_, rfl⟩ := h.rest
      exact .same rfl

/-- The transactions that are there stay. -/
theorem Moved.transactions {drawn : Option String} {db db' : Db}
    (h : Moved drawn db db') {id : Uuid} (hid : db.transactions.Has id) :
    db'.transactions.Has id := by
  cases h with
  | idle => exact hid
  | created h => rwa [h.books.transactions]
  | walked h _ => rwa [h.books.transactions]
  | disputed h =>
      cases h with
      | repeated => exact hid
      | opened _ _ _ _ walked => rwa [walked.books.transactions]
  | captured h => exact h.frame.transactions id hid
  | released h => exact h.frame.transactions id hid
  | refunded h => exact h.frame.transactions id hid
  | toppedUp h =>
      cases h with
      | repeated _ _ => exact hid
      | credited _ _ _ _ _ frame => exact frame.transactions id hid
  | withdrawn h => exact h.frame.transactions id hid
  | adjusted h _ => exact h.frame.transactions id hid
  | rejected h => exact h.frame.transactions id hid
  | paid h =>
      rw [h.db_eq]
      exact hid
  | userUpdated h =>
      obtain ⟨_, rfl⟩ := h.rest
      exact hid

/-- One step of the top-ups: one of them may be completed. -/
theorem Moved.topups_step {drawn : Option String} {db db' : Db}
    (h : Moved drawn db db') :
    db'.walletTopups = db.walletTopups
      ∨ ∃ t, t.status ≠ .pending ∧ db'.walletTopups = db.walletTopups.set t := by
  cases h with
  | idle => exact .inl rfl
  | created h => exact .inl h.books.walletTopups
  | walked h _ => exact .inl h.books.walletTopups
  | disputed h =>
      cases h with
      | repeated => exact .inl rfl
      | opened _ _ _ _ walked => exact .inl walked.books.walletTopups
  | captured h => exact .inl h.frame.walletTopups
  | released h => exact .inl h.frame.walletTopups
  | refunded h => exact .inl h.frame.walletTopups
  | toppedUp h =>
      cases h with
      | repeated _ _ => exact .inl rfl
      | credited found pending topups _ _ _ =>
          refine .inr ⟨_, ?_, topups⟩
          show TopupStatus.completed ≠ .pending
          nofun
  | withdrawn h => exact .inl h.topups
  | adjusted h _ => exact .inl h.topups
  | rejected h => exact .inl h.topups
  | paid h => exact .inl (by rw [h.db_eq]; rfl)
  | userUpdated h =>
      obtain ⟨_, rfl⟩ := h.rest
      exact .inl rfl

/-- A top-up that is no longer pending stays so. -/
theorem Moved.topups {drawn : Option String} {db db' : Db}
    (h : Moved drawn db db') {id : Uuid}
    (ht : ∃ t, db.walletTopups.find? id = some t ∧ t.status ≠ .pending) :
    ∃ t, db'.walletTopups.find? id = some t ∧ t.status ≠ .pending := by
  obtain ⟨t, hfind, hstatus⟩ := ht
  rcases h.topups_step with hsame | ⟨t', hstatus', hset⟩
  · rw [hsame]
    exact ⟨t, hfind, hstatus⟩
  · rw [hset, Table.find?_set, hfind]
    split
    · exact ⟨t', rfl, hstatus'⟩
    · exact ⟨t, rfl, hstatus⟩

-- ============================================================ spent keys

/-- The event that a posting's key names has happened; `drawn` are the
adjustment ids drawn so far. -/
def Spent (drawn : List String) (db : Db) : LedgerKey → Prop
  | .paymentCapture id => OrderIs db.orders id fun s => s ≠ .pending
  | .escrowRelease id => OrderIs db.orders id fun s => s = .completed
  | .refund id => OrderIs db.orders id fun s => s = .refunded
  | .walletTopup id =>
      ∃ t, db.walletTopups.find? id = some t ∧ t.status ≠ .pending
  | .walletWithdrawal id => db.transactions.Has id
  | .walletWithdrawalReversal id =>
      ∃ i p, db.payouts.find? i = some p ∧ p.transactionId = id
        ∧ p.status ≠ .pending
  | .manualAdjustment id => id ∈ drawn

/-- A settled payout stays settled, with its transaction. -/
theorem PayoutsStep.keeps {db db' : Db} (h : PayoutsStep db db')
    {i tx : Uuid} {p : Payout} (hfind : db.payouts.find? i = some p)
    (htx : p.transactionId = tx) (hp : p.status ≠ .pending) :
    ∃ p', db'.payouts.find? i = some p' ∧ p'.transactionId = tx
      ∧ p'.status ≠ .pending := by
  cases h with
  | same h =>
      rw [h]
      exact ⟨p, hfind, htx, hp⟩
  | inserted _ _ inserted =>
      refine ⟨p, ?_, htx, hp⟩
      rw [Table.find?_insert inserted]
      split
      · next hid =>
        have hfree := (Table.insert?_eq_some.mp inserted).1
        rw [hid] at hfree
        exact absurd (Table.has_iff.mpr ⟨p, hfind⟩) hfree
      · exact hfind
  | settled found id_eq transaction_eq notPending table_eq =>
      next q q' =>
      rw [table_eq, Table.find?_set]
      by_cases hid : q'.id = i
      · have hq : db.payouts.find? i = some q := by
          rw [← hid, id_eq]
          exact found
        rw [if_pos hid, hq]
        rw [hq] at hfind
        cases hfind
        exact ⟨q', rfl, transaction_eq.trans htx, notPending⟩
      · rw [if_neg hid]
        exact ⟨p, hfind, htx, hp⟩

/-- No step undoes an event. -/
theorem Moved.spent {drawn : Option String} {db db' : Db}
    (h : Moved drawn db db') {ds : List String} {k : LedgerKey}
    (hk : Spent ds db k) : Spent (ds ++ drawn.toList) db' k := by
  cases k with
  | paymentCapture id =>
      refine h.orders.keeps (P := fun s => s ≠ .pending) ?_ hk
      intro s s' hedge _ heq
      subst heq
      exact not_to_pending hedge
  | escrowRelease id =>
      refine h.orders.keeps (P := fun s => s = .completed) ?_ hk
      intro s s' hedge heq
      subst heq
      exact absurd hedge (terminal_stuck (.inl rfl))
  | refund id =>
      refine h.orders.keeps (P := fun s => s = .refunded) ?_ hk
      intro s s' hedge heq
      subst heq
      exact absurd hedge (terminal_stuck (.inr rfl))
  | walletTopup id => exact h.topups hk
  | walletWithdrawal id => exact h.transactions hk
  | walletWithdrawalReversal id =>
      obtain ⟨i, p, hfind, htx, hp⟩ := hk
      obtain ⟨p', hp'⟩ := h.payouts.keeps hfind htx hp
      exact ⟨i, p', hp'⟩
  | manualAdjustment id => exact List.mem_append_left _ hk

/-- Payouts refer to recorded transactions, each to its own. -/
structure PayoutsKeyed (db : Db) : Prop where
  recorded : ∀ {i p}, db.payouts.find? i = some p →
    db.transactions.Has p.transactionId
  own : ∀ {i j p q}, db.payouts.find? i = some p →
    db.payouts.find? j = some q → p.transactionId = q.transactionId → i = j

/-- No two payouts come to share a transaction. -/
theorem Moved.payoutsKeyed {drawn : Option String} {db db' : Db}
    (h : Moved drawn db db') (hdb : PayoutsKeyed db) : PayoutsKeyed db' := by
  cases h.payouts with
  | same hsame =>
      refine ⟨?_, ?_⟩
      · intro i p hfind
        rw [hsame] at hfind
        exact h.transactions (hdb.recorded hfind)
      · intro i j p q hi hj
        rw [hsame] at hi hj
        exact hdb.own hi hj
  | inserted fresh recorded inserted =>
      next new =>
      have hfind : ∀ {i p}, db'.payouts.find? i = some p →
          new.id = i ∧ p = new ∨ db.payouts.find? i = some p := by
        intro i p hi
        rw [Table.find?_insert inserted] at hi
        split at hi
        · next hid =>
          cases hi
          exact .inl ⟨hid, rfl⟩
        · exact .inr hi
      refine ⟨?_, ?_⟩
      · intro i p hi
        rcases hfind hi with ⟨-, rfl⟩ | hi
        · exact recorded
        · exact h.transactions (hdb.recorded hi)
      · intro i j p q hi hj htx
        rcases hfind hi with ⟨hi, rfl⟩ | hi <;>
          rcases hfind hj with ⟨hj, rfl⟩ | hj
        · rw [← hi, ← hj]
        · rw [htx] at fresh
          exact absurd (hdb.recorded hj) fresh
        · rw [← htx] at fresh
          exact absurd (hdb.recorded hi) fresh
        · exact hdb.own hi hj htx
  | settled found id_eq transaction_eq notPending table_eq =>
      next old new =>
      -- every row has the transaction that a row had under its id before
      have hfind : ∀ {i p}, db'.payouts.find? i = some p →
          ∃ p₀, db.payouts.find? i = some p₀
            ∧ p₀.transactionId = p.transactionId := by
        intro i p hi
        rw [table_eq, Table.find?_set] at hi
        split at hi
        · next hid =>
          rw [id_eq] at hid
          rw [← hid, found] at hi ⊢
          cases hi
          exact ⟨old, rfl, transaction_eq.symm⟩
        · exact ⟨p, hi, rfl⟩
      refine ⟨?_, ?_⟩
      · intro i p hi
        obtain ⟨p₀, hp₀, htx⟩ := hfind hi
        rw [← htx]
        exact h.transactions (hdb.recorded hp₀)
      · intro i j p q hi hj htx
        obtain ⟨p₀, hp₀, hp⟩ := hfind hi
        obtain ⟨q₀, hq₀, hq⟩ := hfind hj
        exact hdb.own hp₀ hq₀ (hp.trans (htx.trans hq.symm))

-- =============================================================== postings

/-- The statuses in which an order's entry of this key is due. -/
def LedgerKey.DueStatus : LedgerKey → OrderStatus → Prop
  | paymentCapture _, s => s ≠ .pending ∧ s ≠ .canceled
  | escrowRelease _, s => s = .completed
  | refund _, s => s = .refunded
  | _, _ => False

/-- The order of the key is in a status that calls for the entry. -/
def Due (db : Db) (k : LedgerKey) : Prop :=
  ∃ id, k.orderId = some id ∧ OrderIs db.orders id k.DueStatus

/-- A step moves balances, ledger and what is due together, under a
fresh key. -/
inductive Posting (drawn : Option String) (db db' : Db) : Prop where
  | none (balance : ∀ b, db'.balance b = db.balance b)
      (entries : db'.ledgerEntries = db.ledgerEntries)
      (due : ∀ k, Due db' k ↔ Due db k)
  | booked {entry : LedgerEntryInput} (booked : Booked entry db db')
      (currency : entry.OneCurrency)
      (kind : entry.entryType = entry.idempotencyKey.entryType
        ∧ entry.orderId = entry.idempotencyKey.orderId)
      (due : ∀ k, k.orderId.isSome →
        (Due db' k ↔ Due db k ∨ k = entry.idempotencyKey))
      (unspent : ∀ ds, (∀ n ∈ drawn, n ∉ ds) →
        ¬ Spent ds db entry.idempotencyKey)
      (spent : ∀ ds, Spent (ds ++ drawn.toList) db' entry.idempotencyKey)

/-- A captured order is in escrow. -/
theorem Captured.escrowed {cfg : Config} {now : Timestamp}
    {input : LockEscrowInput} {db db' : Db} {o o' : OrderRow}
    (h : Captured cfg now input db db' o o') : o'.status.Escrowed := by
  rcases h.toEscrow with hs | hs <;> rw [hs] <;> decide

/-- The row of a moved order, before and after. -/
theorem OrderMoved.find?_eq {t t' : Table OrderRow.id} {o o' : OrderRow}
    (h : OrderMoved t t' o o') : t'.find? o.id = some o' := by
  rw [h.table_eq, ← h.id_eq]
  have hfound := h.found
  rw [← h.id_eq] at hfound
  exact Table.find?_set_self hfound

/-- Moving one order changes what is said of that order only. -/
theorem OrderMoved.orderIs {t t' : Table OrderRow.id} {o o' : OrderRow}
    (h : OrderMoved t t' o o') {id : Uuid} {P : OrderStatus → Prop} :
    OrderIs t' id P ↔ if id = o.id then P o'.status else OrderIs t id P := by
  unfold OrderIs
  by_cases hid : id = o.id
  · subst hid
    simp [h.find?_eq]
  · rw [if_neg hid, h.table_eq, Table.find?_set, h.id_eq,
      if_neg (Ne.symm hid)]

/-- What a moved order makes due. -/
theorem OrderMoved.due {db db' : Db} {o o' : OrderRow}
    (h : OrderMoved db.orders db'.orders o o') {p : LedgerKey → Prop}
    (hp : ∀ {k}, p k → k.orderId = some o.id)
    (hstatus : ∀ {k}, k.orderId = some o.id →
      (k.DueStatus o'.status ↔ k.DueStatus o.status ∨ p k)) (k : LedgerKey) :
    Due db' k ↔ Due db k ∨ p k := by
  unfold Due
  by_cases hk : k.orderId = some o.id
  · have hbefore : OrderIs db.orders o.id k.DueStatus
        ↔ k.DueStatus o.status := by
      simp [OrderIs, h.found]
    simp only [hk, Option.some.injEq, exists_eq_left', h.orderIs, if_true,
      hbefore, hstatus hk]
  · have hnot : ¬ p k := fun hpk => hk (hp hpk)
    simp only [hnot, or_false]
    refine exists_congr fun id => and_congr_right fun hid => ?_
    rw [h.orderIs, if_neg]
    intro heq
    subst heq
    exact hk hid

/-- What is due depends on the orders alone. -/
theorem due_congr {db db' : Db} (h : db'.orders = db.orders) (k : LedgerKey) :
    Due db' k ↔ Due db k := by
  unfold Due
  rw [h]

/-- A new order makes nothing due. -/
theorem due_insert {db db' : Db} {o : OrderRow} (hpending : o.status = .pending)
    (h : db.orders.insert? o = some db'.orders) (k : LedgerKey) :
    Due db' k ↔ Due db k := by
  unfold Due
  refine exists_congr fun id => and_congr_right fun hid => ?_
  unfold OrderIs
  rw [Table.find?_insert h]
  split
  · next hkey =>
    subst hkey
    have hnone : db.orders.find? o.id = none :=
      Table.find?_eq_none.mpr (Table.insert?_eq_some.mp h).1
    rw [hnone]
    simp only [Option.some.injEq, exists_eq_left', hpending, reduceCtorEq,
      false_and, exists_false, iff_false]
    cases k <;> simp [LedgerKey.DueStatus]
  · rfl

/-- An edge that no money takes cancels, or stays in escrow. -/
theorem walked_statuses {s s' : OrderStatus} (hedge : canTransitionOrder s s')
    (hunsettled : ¬ s'.Settled) (hunpaid : s = .pending → s' = .canceled) :
    s = .pending ∧ s' = .canceled ∨ s.Escrowed ∧ s'.Escrowed := by
  revert hedge hunsettled hunpaid
  cases s <;> cases s' <;> decide

/-- In escrow an order has its capture. -/
theorem dueStatus_escrowed {s : OrderStatus} (hs : s.Escrowed)
    {k : LedgerKey} : k.DueStatus s ↔ ∃ id, k = .paymentCapture id := by
  cases s <;> simp only [OrderStatus.Escrowed] at hs <;> cases k <;>
    simp [LedgerKey.DueStatus]

/-- An order that was never paid has nothing. -/
theorem not_dueStatus {s : OrderStatus} (hs : s = .pending ∨ s = .canceled)
    {k : LedgerKey} : ¬ k.DueStatus s := by
  rcases hs with rfl | rfl <;> cases k <;> simp [LedgerKey.DueStatus]

/-- A walk without money leaves what is due. -/
theorem Walked.due {db db' : Db} {o o' : OrderRow} (h : Walked db db' o o')
    (k : LedgerKey) : Due db' k ↔ Due db k := by
  have hstatus : ∀ {k : LedgerKey},
      k.DueStatus o'.status ↔ k.DueStatus o.status := by
    intro k
    rcases walked_statuses h.edge h.unsettled h.unpaid with
      ⟨hs, hs'⟩ | ⟨hs, hs'⟩
    · exact iff_of_false (not_dueStatus (.inr hs')) (not_dueStatus (.inl hs))
    · rw [dueStatus_escrowed hs, dueStatus_escrowed hs']
  have hdue := h.moved.due (p := fun _ => False) nofun
    (fun _ => by simpa using hstatus) k
  simpa using hdue

/-- And it posts nothing. -/
theorem Walked.posting {drawn : Option String} {db db' : Db}
    {o o' : OrderRow} (h : Walked db db' o o') : Posting drawn db db' :=
  .none (Db.balance_congr h.books.wallets h.books.platformWallets)
    h.books.ledgerEntries h.due

/-- The entry of a moved order, the only one that becomes due. -/
theorem OrderMoved.due_key {db db' : Db} {o o' : OrderRow}
    (h : OrderMoved db.orders db'.orders o o') {key : LedgerKey}
    (hkey : key.orderId = some o.id)
    (hstatus : ∀ {k}, k.orderId = some o.id →
      (k.DueStatus o'.status ↔ k.DueStatus o.status ∨ k = key))
    (k : LedgerKey) (_ : k.orderId.isSome) :
    Due db' k ↔ Due db k ∨ k = key :=
  h.due (p := fun k => k = key) (fun hk => hk ▸ hkey) hstatus k

/-- An entry that is of no order leaves what is due. -/
theorem due_of_frame {db db' : Db} (h : db'.orders = db.orders)
    {key : LedgerKey} (hkey : key.orderId = none) (k : LedgerKey)
    (hk : k.orderId.isSome) : Due db' k ↔ Due db k ∨ k = key := by
  have hne : k ≠ key := by
    intro heq
    subst heq
    simp [hkey] at hk
  simp [due_congr h, hne]

/-- A settled order has its capture, and one more entry. -/
theorem dueStatus_completed {s : OrderStatus} {id : Uuid} {k : LedgerKey}
    (hs : s.Escrowed) (hk : k.orderId = some id) :
    k.DueStatus .completed ↔ k.DueStatus s ∨ k = .escrowRelease id := by
  rw [dueStatus_escrowed hs]
  cases k <;> simp_all [LedgerKey.DueStatus, LedgerKey.orderId]

/-- A refunded order has its capture, and the entry of the refund. -/
theorem dueStatus_refunded {s : OrderStatus} {id : Uuid} {k : LedgerKey}
    (hs : s.Escrowed) (hk : k.orderId = some id) :
    k.DueStatus .refunded ↔ k.DueStatus s ∨ k = .refund id := by
  rw [dueStatus_escrowed hs]
  cases k <;> simp_all [LedgerKey.DueStatus, LedgerKey.orderId]

/-- Every step posts one entry at most, and just that one becomes due: a
capture, a release and a refund that of their order, a top-up, a withdrawal,
its reversal and an adjustment that of the payment. -/
theorem Moved.posting {drawn : Option String} {db db' : Db}
    (h : Moved drawn db db') (hdb : PayoutsKeyed db) :
    Posting drawn db db' := by
  cases h with
  | idle => exact .none (fun _ => rfl) rfl (fun _ => Iff.rfl)
  | created h =>
      exact .none (Db.balance_congr h.books.wallets h.books.platformWallets)
        h.books.ledgerEntries (due_insert h.pending h.inserted)
  | walked h _ => exact h.posting
  | disputed h =>
      cases h with
      | repeated => exact .none (fun _ => rfl) rfl (fun _ => Iff.rfl)
      | opened _ _ _ _ walked => exact walked.posting
  | captured h =>
      refine .booked h.booked paymentCaptureEntry_oneCurrency ⟨rfl, rfl⟩
        (h.moved.due_key rfl ?_) ?_ ?_
      · intro k hk
        rw [dueStatus_escrowed h.escrowed,
          iff_false_intro (not_dueStatus (.inl h.fromPending)), false_or]
        cases k <;> simp_all [LedgerKey.orderId, paymentCaptureEntry]
      · intro ds _ h
        obtain ⟨o, hfind, hs⟩ := h
        rw [h.moved.found] at hfind
        cases hfind
        exact hs h.fromPending
      · intro ds
        refine ⟨_, h.moved.find?_eq, ?_⟩
        rcases h.toEscrow with hs | hs <;> rw [hs] <;> exact fun h => by cases h
  | released h =>
      obtain ⟨netCents, -, hbooked⟩ := h.booked
      refine .booked hbooked escrowReleaseEntry_oneCurrency ⟨rfl, rfl⟩
        (h.moved.due_key rfl ?_) ?_ ?_
      · intro k hk
        have hescrowed := escrowed_of_settling h.edge (.inl rfl)
        rw [h.completed]
        exact dueStatus_completed hescrowed hk
      · intro ds _ h
        obtain ⟨o, hfind, hs⟩ := h
        rw [h.moved.found] at hfind
        cases hfind
        exact terminal_stuck (.inl hs) h.edge
      · intro ds
        exact ⟨_, h.moved.find?_eq, h.completed⟩
  | refunded h =>
      refine .booked h.booked refundEntry_oneCurrency ⟨rfl, rfl⟩
        (h.moved.due_key rfl ?_) ?_ ?_
      · intro k hk
        have hescrowed := escrowed_of_settling h.edge (.inr rfl)
        rw [h.refunded]
        exact dueStatus_refunded hescrowed hk
      · intro ds _ h
        obtain ⟨o, hfind, hs⟩ := h
        rw [h.moved.found] at hfind
        cases hfind
        exact terminal_stuck (.inr hs) h.edge
      · intro ds
        exact ⟨_, h.moved.find?_eq, h.refunded⟩
  | @toppedUp _ now input h =>
      cases h with
      | repeated _ _ => exact .none (fun _ => rfl) rfl (fun _ => Iff.rfl)
      | @credited _ t found pending topups _ booked frame =>
          have hid := Table.key_of_find? found
          rw [← hid] at found
          refine .booked booked walletTopupEntry_oneCurrency ⟨rfl, rfl⟩
            (due_of_frame frame.orders rfl) ?_ ?_
          · intro ds _ h
            obtain ⟨t', hfind, hs⟩ := h
            rw [show db.walletTopups.find? t.id = some t' from hfind]
              at found
            cases found
            exact hs pending
          · intro ds
            refine ⟨t.completed input.provider input.reference now, ?_,
              fun h => by cases h⟩
            show db'.walletTopups.find? t.id = _
            rw [topups]
            exact Table.find?_set_self found
  | withdrawn h =>
      refine .booked h.booked walletWithdrawalEntry_oneCurrency ⟨rfl, rfl⟩
        (due_of_frame h.frame.orders rfl) ?_ ?_
      · intro ds _ hspent
        exact h.freshTransaction hspent
      · intro ds
        exact h.transaction
  | adjusted h draws =>
      obtain ⟨magnitude, -, hbooked⟩ := h.booked
      refine .booked hbooked manualAdjustmentEntry_oneCurrency ⟨rfl, rfl⟩
        (due_of_frame h.frame.orders rfl) ?_ ?_
      · intro ds hds hspent
        exact hds _ draws hspent
      · intro ds
        rw [draws]
        exact List.mem_append_right _ (List.mem_singleton.mpr rfl)
  | rejected h =>
      next now input p =>
      have hfound := h.found
      have hid := Table.key_of_find? hfound
      rw [← hid] at hfound
      refine .booked h.booked walletWithdrawalReversalEntry_oneCurrency
        ⟨rfl, rfl⟩ (due_of_frame h.frame.orders rfl) ?_ ?_
      · intro ds _ h
        obtain ⟨i, q, hfind, htx, hs⟩ := h
        -- the payout of this transaction is the one that is rejected
        have hi := hdb.own hfind hfound htx
        rw [hi, hfound] at hfind
        cases hfind
        exact hs h.pending
      · intro ds
        refine ⟨p.id, p.rejected input.adminId input.reason now, ?_, rfl,
          fun h => by cases h⟩
        rw [h.payouts]
        exact Table.find?_set_self hfound
  | paid h =>
      rw [h.db_eq]
      exact .none (fun b => Db.balance_congr rfl rfl b) rfl
        (fun _ => Iff.rfl)
  | userUpdated h =>
      obtain ⟨_, rfl⟩ := h.rest
      exact .none (fun b => Db.balance_congr rfl rfl b) rfl
        (fun _ => Iff.rfl)

/-- What a booked entry adds, under a free key. -/
theorem Booked.inserted {entry : LedgerEntryInput} {db db' : Db}
    (h : Booked entry db db')
    (hfree : ¬ db.ledgerEntries.Has entry.idempotencyKey.text)
    (hcurrency : entry.OneCurrency) :
    ∃ e : LedgerEntry, db.ledgerEntries.insert? e = some db'.ledgerEntries
      ∧ e.idempotencyKey = entry.idempotencyKey.text
      ∧ e.entryType = entry.entryType ∧ e.orderId = entry.orderId
      ∧ DoubleEntry.Balanced e.lines ∧ e.OneCurrency
      ∧ ∀ a : LedgerAccount, net e.lines a.code = entry.net a := by
  have hrecorded := h.recorded
  generalize db'.ledgerEntries = entries at hrecorded
  cases hrecorded with
  | skipped taken => exact absurd taken hfree
  | posted balanced net_eq accounts inserted =>
      refine ⟨_, inserted, rfl, rfl, rfl, balanced, ?_, net_eq⟩
      intro line hline
      obtain ⟨l, hl, hcode⟩ := accounts line hline
      exact ⟨l.account, hcode, hcurrency l hl⟩

end Skrynia
