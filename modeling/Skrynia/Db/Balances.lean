/-
Balances: the running numbers of the money core.

A user has an available and an escrow balance per currency, the platform
a revenue balance per currency. `Db.balance` reads them all as integers,
a missing row as zero, which is also what a new row starts from.

# Statements on wallets

`ensureWallet` opens a wallet or keeps the one that is there; no balance
moves. `setAvailable`, `setEscrow` and `setRevenue` overwrite one column
of one row, and abort where the column's CHECK would refuse. Each comes
with the equation for every balance after it, so that what an operation
does to the balances is read off without looking at a row.
-/
import Skrynia.Db.Schema

namespace Skrynia

open Relational

/-- What `Db.balance` is asked for. -/
inductive Balance where
  | available (userId : Uuid) (currency : Currency)
  | escrow (userId : Uuid) (currency : Currency)
  | revenue (currency : Currency)
deriving DecidableEq

namespace Wallets

/-- The available balance of a user in a currency. -/
def availableOf (t : Wallets) (k : WalletKey) : Int :=
  (t.find? k).elim 0 fun w => w.availableCents.val

/-- The balance in escrow. -/
def escrowOf (t : Wallets) (k : WalletKey) : Int :=
  (t.find? k).elim 0 fun w => w.escrowCents.val

end Wallets

/-- The platform's revenue in a currency. -/
def revenueOf (t : Table PlatformWallet.currency) (c : Currency) : Int :=
  (t.find? c).elim 0 fun p => p.revenueCents.val

/-- Every balance of the database. -/
def Db.balance (db : Db) : Balance → Int
  | .available u c => Wallets.availableOf db.wallets (u, c)
  | .escrow u c => Wallets.escrowOf db.wallets (u, c)
  | .revenue c => revenueOf db.platformWallets c

/-- The row with its available balance overwritten. -/
def Wallet.withAvailable (w : Wallet) (cents : MoneyCents)
    (h : 0 ≤ cents.val) : Wallet :=
  { w with availableCents := cents, available_nonneg := h }

/-- The row with its escrow balance overwritten. -/
def Wallet.withEscrow (w : Wallet) (cents : MoneyCents)
    (h : 0 ≤ cents.val) : Wallet :=
  { w with escrowCents := cents, escrow_nonneg := h }

/-- The row with another revenue. -/
def PlatformWallet.withRevenue (p : PlatformWallet) (cents : MoneyCents)
    (h : 0 ≤ cents.val) : PlatformWallet :=
  { p with revenueCents := cents, revenue_nonneg := h }

-- =========================================================== statements

/-- `ensureWallet`; the id it returns is the wallet's key. -/
def ensureWallet (userId : Uuid) (currency : Currency) : DbTx WalletKey := do
  modify fun db => db.openWallet (userId, currency)
  return (userId, currency)

/-- `select … from wallets where id = … for update`; the caller has just
ensured the row, and `rows[0].…` throws without one. -/
def selectWallet (k : WalletKey) : DbTx Wallet := do
  let row ← select fun db => db.wallets.find? k
  orThrow row (.error "wallet row is missing")

/-- `update wallets set available_cents = …`. -/
def setAvailable (k : WalletKey) (cents : MoneyCents) : DbTx Unit := do
  let row ← select fun db => db.wallets.find? k
  match row with
  | none => return ()
  | some w =>
      if h : 0 ≤ cents.val then
        modify fun db => db.putWallet (w.withAvailable cents h)
      else throw (.violation "wallets_available_cents_check")

/-- `update wallets set escrow_cents = …`. -/
def setEscrow (k : WalletKey) (cents : MoneyCents) : DbTx Unit := do
  let row ← select fun db => db.wallets.find? k
  match row with
  | none => return ()
  | some w =>
      if h : 0 ≤ cents.val then
        modify fun db => db.putWallet (w.withEscrow cents h)
      else throw (.violation "wallets_escrow_cents_check")

/-- `update platform_wallets set revenue_cents = …`. -/
def setRevenue (currency : Currency) (cents : MoneyCents) : DbTx Unit := do
  let row ← select fun db => db.platformWallets.find? currency
  match row with
  | none => return ()
  | some p =>
      if h : 0 ≤ cents.val then
        modify fun db => db.putPlatformWallet (p.withRevenue cents h)
      else throw (.violation "platform_wallets_revenue_cents_check")

-- ============================================================ the wallet

section Sequence

variable {α : Type} {db db' : Db} {b : α}

/-- A wallet is opened, or kept, and the rest goes on. -/
theorem commits_ensureWallet_bind {u : Uuid} {c : Currency}
    {g : WalletKey → DbTx α} :
    Commits (ensureWallet u c >>= g) db b db'
      ↔ Commits (g (u, c)) (db.openWallet (u, c)) b db' := by
  simp only [ensureWallet, bind_assoc, commits_modify_bind, pure_bind]

/-- A wallet that is selected is there. -/
theorem commits_selectWallet_bind {k : WalletKey} {g : Wallet → DbTx α} :
    Commits (selectWallet k >>= g) db b db'
      ↔ ∃ w, db.wallets.find? k = some w ∧ Commits (g w) db b db' := by
  simp only [selectWallet, bind_assoc, commits_select_bind,
    commits_orThrow_bind]

/-- The available balance is written if it is not negative. -/
theorem commits_setAvailable_bind {k : WalletKey} {m : MoneyCents}
    {w : Wallet} {g : Unit → DbTx α} (hw : db.wallets.find? k = some w) :
    Commits (setAvailable k m >>= g) db b db' ↔ ∃ h : 0 ≤ m.val,
      Commits (g ()) (db.putWallet (w.withAvailable m h)) b db' := by
  simp only [setAvailable, bind_assoc, commits_select_bind, hw,
    commits_check_bind, commits_modify_bind]

/-- So is the balance in escrow. -/
theorem commits_setEscrow_bind {k : WalletKey} {m : MoneyCents}
    {w : Wallet} {g : Unit → DbTx α} (hw : db.wallets.find? k = some w) :
    Commits (setEscrow k m >>= g) db b db' ↔ ∃ h : 0 ≤ m.val,
      Commits (g ()) (db.putWallet (w.withEscrow m h)) b db' := by
  simp only [setEscrow, bind_assoc, commits_select_bind, hw,
    commits_check_bind, commits_modify_bind]

/-- And the revenue. -/
theorem commits_setRevenue_bind {c : Currency} {m : MoneyCents}
    {p : PlatformWallet} {g : Unit → DbTx α}
    (hp : db.platformWallets.find? c = some p) :
    Commits (setRevenue c m >>= g) db b db' ↔ ∃ h : 0 ≤ m.val,
      Commits (g ()) (db.putPlatformWallet (p.withRevenue m h)) b db' := by
  simp only [setRevenue, bind_assoc, commits_select_bind, hp,
    commits_check_bind, commits_modify_bind]

end Sequence

/-- After `ensureWallet` the row is there. -/
theorem find?_ensured {t : Wallets} {k : WalletKey} :
    (t.upsert (.opened k)).find? k
      = some ((t.find? k).getD (.opened k)) := by
  rw [Table.find?_upsert, if_pos (Wallet.key_opened k)]

/-- A wallet that is there stays there. -/
theorem has_ensured {t : Wallets} {k : WalletKey} (h : t.Has k)
    (k' : WalletKey) :
    (t.upsert (.opened k')).Has k := by
  rw [Table.has_iff] at h ⊢
  obtain ⟨w, hw⟩ := h
  rw [Table.find?_upsert, hw]
  split <;> simp

namespace Wallets

/-- Opening a wallet moves no available balance. -/
@[simp] theorem availableOf_ensured (t : Wallets) (k k' : WalletKey) :
    availableOf (t.upsert (.opened k')) k = availableOf t k := by
  unfold availableOf
  rw [Table.find?_upsert]
  split
  · cases t.find? k <;> rfl
  · rfl

/-- Nor one in escrow. -/
@[simp] theorem escrowOf_ensured (t : Wallets) (k k' : WalletKey) :
    escrowOf (t.upsert (.opened k')) k = escrowOf t k := by
  unfold escrowOf
  rw [Table.find?_upsert]
  split
  · cases t.find? k <;> rfl
  · rfl

/-- The available balance is that of the row. -/
theorem availableOf_of_find? {t : Wallets} {k : WalletKey} {w : Wallet}
    (h : t.find? k = some w) : availableOf t k = w.availableCents.val := by
  simp [availableOf, h]

/-- So is the balance in escrow. -/
theorem escrowOf_of_find? {t : Wallets} {k : WalletKey} {w : Wallet}
    (h : t.find? k = some w) : escrowOf t k = w.escrowCents.val := by
  simp [escrowOf, h]

/-- Overwriting a row moves the two balances of that row only. -/
theorem availableOf_set {t : Wallets} {k : WalletKey} {w : Wallet}
    (w' : Wallet) (hw : t.find? k = some w) (hk : w'.key = k) (k' : WalletKey) :
    availableOf (t.set w') k'
      = if k' = k then w'.availableCents.val else availableOf t k' := by
  unfold availableOf
  rw [Table.find?_set, hk]
  by_cases h : k = k'
  · subst h
    simp [hw]
  · simp [h, Ne.symm h]

/-- A row that is written changes its own balance only. -/
theorem escrowOf_set {t : Wallets} {k : WalletKey} {w : Wallet}
    (w' : Wallet) (hw : t.find? k = some w) (hk : w'.key = k) (k' : WalletKey) :
    escrowOf (t.set w') k'
      = if k' = k then w'.escrowCents.val else escrowOf t k' := by
  unfold escrowOf
  rw [Table.find?_set, hk]
  by_cases h : k = k'
  · subst h
    simp [hw]
  · simp [h, Ne.symm h]

end Wallets

namespace Wallets

variable {t : Wallets} {k : WalletKey} {w : Wallet} {m : MoneyCents}
  {h : 0 ≤ m.val}

/-- A balance in escrow that is written is the new one. -/
theorem escrowOf_withEscrow (hw : t.find? k = some w) (k' : WalletKey) :
    escrowOf (t.set (w.withEscrow m h)) k'
      = if k' = k then m.val else escrowOf t k' := by
  have hk := Table.key_of_find? hw
  exact escrowOf_set (w.withEscrow m h) hw hk k'

/-- Available balances are not touched by it. -/
theorem availableOf_withEscrow (hw : t.find? k = some w) (k' : WalletKey) :
    availableOf (t.set (w.withEscrow m h)) k' = availableOf t k' := by
  have hk := Table.key_of_find? hw
  rw [availableOf_set (w.withEscrow m h) hw hk k']
  split
  · next he =>
    rw [he, availableOf_of_find? hw]
    rfl
  · rfl

/-- The row that `setEscrow` wrote is the one read next. -/
theorem find?_withEscrow (hw : t.find? k = some w) :
    (t.set (w.withEscrow m h)).find? k = some (w.withEscrow m h) := by
  have hk := Table.key_of_find? hw
  rw [← hk] at hw ⊢
  exact Table.find?_set_self hw

/-- Overwriting one wallet keeps every wallet in place. -/
theorem find?_after_withEscrow {k' : WalletKey} {v : Wallet}
    (hv : t.find? k' = some v) :
    ∃ v', (t.set (w.withEscrow m h)).find? k' = some v' := by
  rw [Table.find?_set, hv]
  split
  · exact ⟨_, rfl⟩
  · exact ⟨v, rfl⟩

/-- An available balance that is written is the new one. -/
theorem availableOf_withAvailable (hw : t.find? k = some w)
    (k' : WalletKey) :
    availableOf (t.set (w.withAvailable m h)) k'
      = if k' = k then m.val else availableOf t k' := by
  have hk := Table.key_of_find? hw
  exact availableOf_set (w.withAvailable m h) hw hk k'

/-- Balances in escrow are not touched by it. -/
theorem escrowOf_withAvailable (hw : t.find? k = some w) (k' : WalletKey) :
    escrowOf (t.set (w.withAvailable m h)) k' = escrowOf t k' := by
  have hk := Table.key_of_find? hw
  rw [escrowOf_set (w.withAvailable m h) hw hk k']
  split
  · next he =>
    rw [he, escrowOf_of_find? hw]
    rfl
  · rfl

end Wallets

/-- A row of the platform changes its own revenue only. -/
theorem revenueOf_set {t : Table PlatformWallet.currency} {c : Currency}
    {p : PlatformWallet} (p' : PlatformWallet) (hp : t.find? c = some p)
    (hc : p'.currency = c) (c' : Currency) :
    revenueOf (t.set p') c'
      = if c' = c then p'.revenueCents.val else revenueOf t c' := by
  unfold revenueOf
  rw [Table.find?_set, hc]
  by_cases h : c = c'
  · subst h
    simp [hp]
  · simp [h, Ne.symm h]

/-- The revenue is that of the row. -/
theorem revenueOf_of_find? {t : Table PlatformWallet.currency}
    {c : Currency} {p : PlatformWallet} (h : t.find? c = some p) :
    revenueOf t c = p.revenueCents.val := by
  simp [revenueOf, h]

end Skrynia
