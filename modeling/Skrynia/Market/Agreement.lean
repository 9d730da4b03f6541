/-
Wallets and ledger agree.

The wallets and the ledger are written by different code. They stay in
agreement because every step that moves balances books one entry whose
nets are the moves, and because that entry is never skipped: an entry
that is there has a spent key, and a step's key is not spent.

# What is assumed

An opening database has no entries and only zero balances. A payout
refers to a transaction of its own, as the withdrawal that inserted it
made it; and `nanoid` does not draw one id twice.
-/
import Skrynia.Market.Postings

namespace Skrynia

open Relational DoubleEntry Stepping

-- ============================================================== agreement

/-- The lines of every entry. -/
def Db.journal (db : Db) : List (List (Line String)) :=
  db.ledgerEntries.rows.map LedgerEntry.lines

/-- A step that changes a balance adds an entry: none is skipped. -/
def NotSkipped (db db' : Db) : Prop :=
  (∀ b, db'.balance b = db.balance b)
    ∨ ∃ e, db.ledgerEntries.insert? e = some db'.ledgerEntries

/-- The invariant, with the ids drawn so far. -/
structure Reconciled (drawn : List String) (db : Db) : Prop where
  mirrors : Mirrors (fun b : Balance => b.account.code) db.balance db.journal
  balanced : ∀ e ∈ db.ledgerEntries.rows, DoubleEntry.Balanced e.lines ∧ e.OneCurrency
  spent : ∀ e ∈ db.ledgerEntries.rows, ∃ k : LedgerKey,
    e.idempotencyKey = k.text ∧ Spent drawn db k
  payouts : PayoutsKeyed db

/-- The database before the first posting. -/
structure Opening (db : Db) : Prop where
  noEntries : db.ledgerEntries.rows = []
  zero : ∀ b, db.balance b = 0
  payouts : PayoutsKeyed db

/-- A key that is not spent is free. -/
theorem Reconciled.free {drawn : List String} {db : Db}
    (h : Reconciled drawn db) {k : LedgerKey} (hk : ¬ Spent drawn db k) :
    ¬ db.ledgerEntries.Has k.text := by
  intro hhas
  obtain ⟨e, he, hkey⟩ := List.mem_map.mp hhas
  obtain ⟨k', hk', hspent⟩ := h.spent e he
  rw [LedgerKey.text_injective (hkey.symm.trans hk')] at hk
  exact hk hspent

/-- Every call keeps the books reconciled. -/
theorem Reconciled.step {drawn : List String} {db : Db} {call : Call}
    (h : Reconciled drawn db) (hfresh : ∀ n ∈ call.nanoid, n ∉ drawn) :
    Reconciled (drawn ++ call.nanoid.toList) (call.step db)
      ∧ NotSkipped db (call.step db) := by
  have hmoved := call.moved db
  have hpayouts := hmoved.payoutsKeyed h.payouts
  cases hmoved.posting h.payouts with
  | none balance entries _ =>
      refine ⟨⟨?_, ?_, ?_, hpayouts⟩, .inl balance⟩
      · intro b
        rw [balance, Db.journal, entries]
        exact h.mirrors b
      · rw [entries]
        exact h.balanced
      · rw [entries]
        intro e he
        obtain ⟨k, hk, hspent⟩ := h.spent e he
        exact ⟨k, hk, hmoved.spent hspent⟩
  | booked booked currency _ _ unspent spent =>
      have hfree := h.free (unspent drawn hfresh)
      obtain ⟨e, hinsert, hkey, -, -, hbalanced, hcurrency, hnet⟩ :=
        booked.inserted hfree currency
      have hrows := (Table.insert?_eq_some.mp hinsert).2
      refine ⟨⟨?_, ?_, ?_, hpayouts⟩, .inr ⟨e, hinsert⟩⟩
      · unfold Db.journal
        rw [hrows, List.map_append]
        refine Mirrors.post h.mirrors fun b => ?_
        rw [booked.balance, hnet]
      · rw [hrows]
        intro e' he'
        rcases List.mem_append.mp he' with he' | he'
        · exact h.balanced e' he'
        · rw [List.mem_singleton.mp he']
          exact ⟨hbalanced, hcurrency⟩
      · rw [hrows]
        intro e' he'
        rcases List.mem_append.mp he' with he' | he'
        · obtain ⟨k, hk, hspent⟩ := h.spent e' he'
          exact ⟨k, hk, hmoved.spent hspent⟩
        · rw [List.mem_singleton.mp he']
          exact ⟨_, hkey, spent drawn⟩

/-- And so does every run. -/
theorem Reconciled.run {drawn : List String} {db : Db}
    (h : Reconciled drawn db) (calls : List Call)
    (hfresh : (drawn ++ calls.filterMap Call.nanoid).Nodup) :
    Reconciled (drawn ++ calls.filterMap Call.nanoid)
      (run Call.step db calls) := by
  induction calls generalizing drawn db with
  | nil => simpa using h
  | cons call calls ih =>
      have hids : (call :: calls).filterMap Call.nanoid
          = call.nanoid.toList ++ calls.filterMap Call.nanoid := by
        cases hn : call.nanoid <;> simp [hn]
      rw [hids, ← List.append_assoc] at hfresh ⊢
      refine ih (h.step ?_).1 hfresh
      intro n hn hmem
      have hnodup := (List.nodup_append.mp hfresh).1
      exact (List.nodup_append.mp hnodup).2.2 n hmem n
        (Option.mem_toList.mpr hn) rfl

/-- The example starts without entries or balances. -/
theorem oneOrderDb_opening : Opening oneOrderDb where
  noEntries := rfl
  zero b := by
    cases b with
    | available u c => rfl
    | escrow u c => rfl
    | revenue c =>
        show revenueOf (Table.empty.upsert ⟨"UAH", .zero, _⟩) c = 0
        rw [revenueOf, Table.find?_upsert]
        split <;> rfl
  payouts := ⟨nofun, nofun⟩

end Skrynia
