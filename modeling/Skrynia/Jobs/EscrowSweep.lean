/-
The sweep that releases escrow when its time has come.

`processEscrowRelease` asks for 25 delivered orders whose release is due,
the oldest first, and releases them one after the other, each in a
transaction of its own. What fails is logged and stays due. The query
names no second column to order by, so orders of one time may come in any
order: what it answers is part of the event, and `Serves` says what it may
be.

# What one bad order can do

Alone it blocks nobody (`sweeps_release`): as long as fewer than 25 orders
ever fail, every other order is released in time. But what fails is asked
for again first, so 25 orders that always fail are each batch, and nothing
younger is released any more (`sweeps_starve`). An order with a fee and
without a platform wallet for its currency always fails.
-/
import Skrynia.Lib.Backlog
import Skrynia.Market.System

namespace Skrynia

open Relational Stepping Backlog

-- ================================================================= model

/-- A row of the query, with the column it is ordered by. -/
structure DueOrder where
  id : Uuid
  autoReleaseAt : Timestamp
deriving DecidableEq

/-- A sweep: its time, what the query answers, and for each release the
time and the ids it draws. -/
structure EscrowSweep where
  cfg : Config
  now : Timestamp
  rows : List DueOrder
  clock : Uuid → Timestamp
  messageId : Uuid → Uuid
  releaseId : Uuid → Uuid
  feeId : Uuid → Uuid

/-- `ESCROW_RELEASE_BATCH`: the limit of the query. -/
def escrowReleaseBatch : Nat := 25

/-- When the escrow of an order is due, if it waits for that. -/
def OrderRow.due? (o : OrderRow) : Option DueOrder :=
  if o.status = .delivered then o.autoReleaseAt.map (DueOrder.mk o.id)
  else none

/-- The delivered orders that are to be released at some time. -/
def Db.waiting (db : Db) : Finset DueOrder :=
  (db.orders.rows.filterMap OrderRow.due?).toFinset

namespace EscrowSweep

/-- `releaseEscrow(order.id, { source: "auto" })`. -/
def input (e : EscrowSweep) (id : Uuid) : ReleaseEscrowInput where
  orderId := id
  adminId := none
  source := some .auto
  actorId := none
  messageId := e.messageId id
  releaseId := e.releaseId id
  feeId := e.feeId id

/-- One release, in a transaction of its own. -/
def release (e : EscrowSweep) (db : Db) (row : DueOrder) : Db :=
  attempt (releaseEscrow e.cfg (e.clock row.id) (e.input row.id)) db

/-- The loop over the rows. -/
def step (db : Db) (e : EscrowSweep) : Db := e.rows.foldl e.release db

/-- The rows are an answer to the query. -/
abbrev Serves : Db → EscrowSweep → Prop :=
  Backlog.Serves Db.waiting DueOrder.autoReleaseAt now rows escrowReleaseBatch

end EscrowSweep

-- ================================================================ waiting

/-- A delivered order waits for its own time. -/
theorem OrderRow.due?_eq_some {o : OrderRow} {i : DueOrder} :
    o.due? = some i ↔ o.status = .delivered ∧ o.id = i.id
      ∧ o.autoReleaseAt = some i.autoReleaseAt := by
  unfold due?
  by_cases hstatus : o.status = .delivered
  · rw [if_pos hstatus, Option.map_eq_some_iff]
    constructor
    · intro h
      obtain ⟨t, ht, rfl⟩ := h
      exact ⟨hstatus, rfl, ht⟩
    · intro h
      obtain ⟨-, hid, ht⟩ := h
      refine ⟨i.autoReleaseAt, ht, ?_⟩
      rw [hid]
  · simp [hstatus]

/-- The orders that wait are the delivered ones with a time. -/
theorem Db.mem_waiting {db : Db} {i : DueOrder} :
    i ∈ db.waiting ↔ ∃ o, db.orders.find? i.id = some o
      ∧ o.status = .delivered ∧ o.autoReleaseAt = some i.autoReleaseAt := by
  unfold waiting
  rw [List.mem_toFinset, List.mem_filterMap]
  constructor
  · intro h
    obtain ⟨o, ho, hdue⟩ := h
    obtain ⟨hstatus, hid, ht⟩ := OrderRow.due?_eq_some.mp hdue
    exact ⟨o, Table.find?_eq_some.mpr ⟨ho, hid⟩, hstatus, ht⟩
  · intro h
    obtain ⟨o, ho, hstatus, ht⟩ := h
    obtain ⟨hmem, hid⟩ := Table.find?_eq_some.mp ho
    exact ⟨o, hmem, OrderRow.due?_eq_some.mpr ⟨hstatus, hid, ht⟩⟩

/-- The order of the id has been released. -/
def Db.Completed (db : Db) (id : Uuid) : Prop :=
  ∃ o, db.orders.find? id = some o ∧ o.status = .completed

-- ================================================================ release

section Release

variable {db db' : Db} {e : EscrowSweep} {id : Uuid}

/-- Revenue is stored in a wallet of the platform. -/
theorem commits_storeRevenue_has {α : Type} {c : Currency}
    {r : Option MoneyCents} {g : Unit → DbTx α} {b : α}
    (h : Commits (storeRevenue c r >>= g) db b db') :
    ∃ t, (∀ c', t.Has c' ↔ db.platformWallets.Has c')
      ∧ Commits (g ()) (db.setPlatformWallets t) b db' := by
  cases r with
  | none =>
      simp only [storeRevenue, pure_bind] at h
      exact ⟨db.platformWallets, fun _ => Iff.rfl, h⟩
  | some next =>
      simp only [storeRevenue, setRevenue, bind_assoc,
        commits_select_bind] at h
      split at h
      · rw [pure_bind] at h
        exact ⟨db.platformWallets, fun _ => Iff.rfl, h⟩
      · next p _ =>
          rw [commits_check_bind] at h
          obtain ⟨hnn, h⟩ := h
          rw [commits_modify_bind] at h
          exact ⟨_, fun _ => Table.has_set, h⟩

/-- Releases open no platform wallet. -/
theorem releaseEscrow_platformWallets {cfg : Config} {now : Timestamp}
    {input : ReleaseEscrowInput} {r : OrderRow}
    (h : Commits (releaseEscrow cfg now input) db r db') (c : Currency) :
    db'.platformWallets.Has c ↔ db.platformWallets.Has c := by
  simp only [releaseEscrow, commits_selectOrderForUpdate_bind,
    commits_require_bind] at h
  obtain ⟨o, hfind, hedge, h⟩ := h
  rw [commits_bind] at h
  obtain ⟨m, s, hm, h⟩ := h
  obtain ⟨messages, rfl, -, -⟩ := commits_releaseMessage hm
  rw [commits_bind] at h
  obtain ⟨o', s, ht, h⟩ := h
  obtain ⟨rfl, d, a, e, happ⟩ := applied_of_edge hfind hedge ht
  have hdb := happ.db_eq
  subst hdb
  simp only [commits_ensureWallet_bind, commits_selectWallet_bind,
    commits_require_bind, commits_liftExcept_bind,
    subtractMoneyCents_eq_ok, commits_checkedBalanceSubtraction_bind,
    commits_checkedBalanceAddition_bind, commits_nextRevenue_bind] at h
  obtain ⟨w, hw, hfee, netCents, hnet, hle, nextEscrow, hescrow,
    nextAvailable, havailable, nextRev, hrev, h⟩ := h
  obtain ⟨hnn₁, h⟩ := (commits_setEscrow_bind (by exact hw)).mp h
  obtain ⟨hnn₂, h⟩ :=
    (commits_setAvailable_bind (Wallets.find?_withEscrow hw)).mp h
  obtain ⟨t, hwallets, h⟩ := commits_storeRevenue_has h
  simp only [commits_insertTransaction_bind] at h
  obtain ⟨-, _, t₁, ht₁, -, _, t₂, ht₂, h⟩ := h
  simp only [commits_bind, commits_pure] at h
  obtain ⟨_, s, hpost, _, s', hsale, rfl, rfl⟩ := h
  obtain ⟨net, hnet', accounts, entries, hrec, rfl⟩ :=
    commits_recordEscrowReleaseLedger hpost
  obtain ⟨hsales, products, rfl⟩ := commits_countSale hsale
  exact hwallets c

/-- What one release can have done. -/
inductive Swept (db : Db) (row : DueOrder) (db' : Db) : Prop where
  | failed (h : db' = db)
  | released {o o' : OrderRow} (found : db.orders.find? row.id = some o)
      (delivered : o.status = .delivered)
      (revenue : 0 < o.feeCents.val → db.platformWallets.Has o.currency)
      (id : o'.id = row.id) (completed : o'.status = .completed)
      (orders : db'.orders = db.orders.set o')
      (platforms : ∀ c, db'.platformWallets.Has c ↔ db.platformWallets.Has c)

/-- A release completes its order, or changes nothing. -/
theorem EscrowSweep.release_swept (e : EscrowSweep) (db : Db)
    (row : DueOrder) : Swept db row (e.release db row) := by
  rcases attempt_cases (releaseEscrow e.cfg (e.clock row.id)
    (e.input row.id)) db with ⟨r, h⟩ | h
  · obtain ⟨o, ho⟩ := releaseEscrow_released h
    have hfound := ho.moved.found
    rw [ho.order_eq] at hfound
    exact .released hfound (List.mem_singleton.mp ho.expected) ho.revenue
      (ho.moved.id_eq.trans ho.order_eq) ho.completed ho.moved.table_eq
      (releaseEscrow_platformWallets h)
  · exact .failed h

/-- An order that no release can complete. -/
def Stuck (db : Db) (i : DueOrder) : Prop :=
  ∃ o, db.orders.find? i.id = some o ∧ o.status = .delivered
    ∧ o.autoReleaseAt = some i.autoReleaseAt ∧ 0 < o.feeCents.val
    ∧ ¬ db.platformWallets.Has o.currency

/-- An order that is stuck waits. -/
theorem Stuck.waiting {i : DueOrder} (h : Stuck db i) : i ∈ db.waiting := by
  obtain ⟨o, ho, hstatus, ht, -⟩ := h
  exact Db.mem_waiting.mpr ⟨o, ho, hstatus, ht⟩

namespace Swept

variable {row i : DueOrder}

/-- A release touches no other order. -/
theorem find?_of_ne (h : Swept db row db') (hid : id ≠ row.id) :
    db'.orders.find? id = db.orders.find? id := by
  cases h with
  | failed h => rw [h]
  | released _ _ _ hrow _ orders _ =>
      rw [orders, Table.find?_set_of_ne]
      rw [hrow]
      exact Ne.symm hid

/-- The others wait as before. -/
theorem waiting_of_ne (h : Swept db row db') (hid : i.id ≠ row.id) :
    i ∈ db'.waiting ↔ i ∈ db.waiting := by
  rw [Db.mem_waiting, Db.mem_waiting, h.find?_of_ne hid]

/-- The order of the row waits on, or it is completed. -/
theorem same_or_completed (h : Swept db row db') :
    db' = db ∨ db'.Completed row.id := by
  cases h with
  | failed h => exact Or.inl h
  | @released o o' found _ _ id completed orders _ =>
      right
      refine ⟨o', ?_, completed⟩
      rw [orders, ← id]
      rw [← id] at found
      exact Table.find?_set_self found

/-- A completed order does not wait any more. -/
theorem not_waiting_of_completed (h : db.Completed i.id) :
    i ∉ db.waiting := by
  intro hwaiting
  obtain ⟨o, ho, hcompleted⟩ := h
  obtain ⟨o', ho', hdelivered, -⟩ := Db.mem_waiting.mp hwaiting
  obtain rfl := Option.some.inj (ho.symm.trans ho')
  rw [hcompleted] at hdelivered
  cases hdelivered

/-- Nobody begins to wait. -/
theorem waiting_of_waiting (h : Swept db row db') (hi : i ∈ db'.waiting) :
    i ∈ db.waiting := by
  by_cases hid : i.id = row.id
  · rcases h.same_or_completed with hsame | hcompleted
    · rw [hsame] at hi
      exact hi
    · rw [← hid] at hcompleted
      exact absurd hi (not_waiting_of_completed hcompleted)
  · exact (h.waiting_of_ne hid).mp hi

/-- Once completed, an order is not released again. -/
theorem completed (h : Swept db row db') (hid : db.Completed id) :
    db'.Completed id := by
  by_cases hrow : id = row.id
  · rcases h.same_or_completed with hsame | hcompleted
    · rw [hsame]
      exact hid
    · rw [hrow]
      exact hcompleted
  · unfold Db.Completed
    rw [h.find?_of_ne hrow]
    exact hid

/-- Who waits goes on waiting, or is completed. -/
theorem waiting_or_completed (h : Swept db row db')
    (hi : i ∈ db.waiting ∨ db.Completed i.id) :
    i ∈ db'.waiting ∨ db'.Completed i.id := by
  rcases hi with hi | hi
  · by_cases hid : i.id = row.id
    · rcases h.same_or_completed with hsame | hcompleted
      · rw [hsame]
        exact Or.inl hi
      · rw [← hid] at hcompleted
        exact Or.inr hcompleted
    · exact Or.inl ((h.waiting_of_ne hid).mpr hi)
  · exact Or.inr (h.completed hi)

/-- What is stuck stays so. -/
theorem stuck (h : Swept db row db') (hi : Stuck db i) : Stuck db' i := by
  obtain ⟨o, ho, hstatus, ht, hfee, hplatform⟩ := hi
  cases h with
  | failed h =>
      rw [h]
      exact ⟨o, ho, hstatus, ht, hfee, hplatform⟩
  | @released x o' found delivered revenue id completed orders platforms =>
      have hne : i.id ≠ row.id := by
        intro heq
        rw [← heq, ho] at found
        obtain rfl := Option.some.inj found
        exact hplatform (revenue hfee)
      refine ⟨o, ?_, hstatus, ht, hfee, ?_⟩
      · rw [orders, Table.find?_set_of_ne]
        · exact ho
        · rw [id]
          exact Ne.symm hne
      · rw [platforms]
        exact hplatform

end Swept

end Release

-- ================================================================= sweeps

namespace EscrowSweep

variable {db : Db} {e : EscrowSweep} {i x : DueOrder}

/-- What each release keeps, a sweep keeps. -/
theorem step_keeps {P : Db → Prop}
    (h : ∀ db row db', Swept db row db' → P db → P db') (hdb : P db)
    (e : EscrowSweep) : P (step db e) :=
  run_keeps (fun db row hdb => h db row _ (e.release_swept db row) hdb) hdb
    e.rows

/-- No sweep makes an order wait. -/
theorem step_waiting_subset (db : Db) (e : EscrowSweep) :
    (step db e).waiting ⊆ db.waiting := by
  intro i hi
  by_contra hnot
  exact step_keeps (P := fun db => i ∉ db.waiting)
    (fun _ _ _ h hnot hi => hnot (h.waiting_of_waiting hi)) hnot e hi

/-- A sweep leaves the orders alone that are not in its rows. -/
theorem waiting_step_of_ne (hi : i ∈ db.waiting)
    (hrows : ∀ row ∈ e.rows, i.id ≠ row.id) : i ∈ (step db e).waiting := by
  have hloop : ∀ rows : List DueOrder, (∀ row ∈ rows, i.id ≠ row.id) →
      ∀ db : Db, i ∈ db.waiting → i ∈ (rows.foldl e.release db).waiting := by
    intro rows
    induction rows with
    | nil => exact fun _ _ hi => hi
    | cons row rows ih =>
        intro hne db hi
        apply ih fun row hrow => hne row (List.mem_cons_of_mem _ hrow)
        have hswept := e.release_swept db row
        exact (hswept.waiting_of_ne (hne row List.mem_cons_self)).mpr hi
  exact hloop e.rows hrows db hi

/-- An order waits for one time. -/
theorem eq_of_waiting (hi : i ∈ db.waiting) (hx : x ∈ db.waiting)
    (hid : i.id = x.id) : i = x := by
  obtain ⟨o, ho, -, ht⟩ := Db.mem_waiting.mp hi
  obtain ⟨o', ho', -, ht'⟩ := Db.mem_waiting.mp hx
  rw [hid, ho'] at ho
  obtain rfl := Option.some.inj ho
  obtain ⟨id, t⟩ := i
  obtain ⟨id', t'⟩ := x
  obtain rfl : id = id' := hid
  obtain rfl : t = t' := Option.some.inj (ht.symm.trans ht')
  rfl

/-- An order that the query left out waits on. -/
theorem Serves.leaves (h : Serves db e) (hi : i ∈ db.waiting)
    (hrows : i ∉ e.rows) : i ∈ (step db e).waiting := by
  apply waiting_step_of_ne hi
  intro row hrow hid
  have hwaiting : row ∈ db.waiting := (Finset.mem_filter.mp (h.mem row hrow)).1
  rw [← eq_of_waiting hi hwaiting hid] at hrow
  exact hrows hrow

/-- The orders that a sweep takes and does not complete. -/
def Fails (db : Db) (e : EscrowSweep) (i : DueOrder) : Prop :=
  i ∈ e.rows ∧ i ∈ (step db e).waiting

/-- Of the orders that are due all that never fail are released, by the
time the sweeps have had room for what is not younger. The `K` that fail
take their room in each sweep. -/
theorem sweeps_release (db : Db) (sweeps : List EscrowSweep)
    (K : Finset DueOrder) (x : DueOrder)
    (hserves : Along step Serves db sweeps)
    (hfails : Along step (fun db e => ∀ i, Fails db e i → i ∈ K) db sweeps)
    (hx : x ∈ db.waiting) (hxK : x ∉ K)
    (hdue : ∀ e ∈ sweeps, x.autoReleaseAt ≤ e.now)
    (hroom : (db.waiting.filter
        fun i => i.autoReleaseAt ≤ x.autoReleaseAt).card
      ≤ sweeps.length * (escrowReleaseBatch - K.card)) :
    (run step db sweeps).Completed x.id := by
  have hgone : x ∉ (run step db sweeps).waiting := by
    apply served step_waiting_subset hserves _ hdue hxK hroom
    exact along_imp (P := fun _ => True)
      (fun db e _ h i hi hwaiting => h i ⟨hi, hwaiting⟩)
      (fun _ _ _ _ => trivial) trivial hfails
  have hor := run_keeps
    (P := fun db : Db => x ∈ db.waiting ∨ db.Completed x.id)
    (fun db e h => step_keeps (fun _ _ _ hs => hs.waiting_or_completed) h e)
    (Or.inl hx) sweeps
  exact hor.resolve_left hgone

/-- Behind 25 older orders with a fee and without a platform wallet no order
is ever released by a sweep. Each batch consists of such orders, all of them
fail, and a failure leaves the order due (`Stuck`). -/
theorem sweeps_starve (db : Db) (sweeps : List EscrowSweep)
    (K : Finset DueOrder) (x : DueOrder)
    (hserves : Along step Serves db sweeps)
    (hK : escrowReleaseBatch ≤ K.card) (hstuck : ∀ i ∈ K, Stuck db i)
    (holder : ∀ i ∈ K, i.autoReleaseAt < x.autoReleaseAt)
    (hx : x ∈ db.waiting) : x ∈ (run step db sweeps).waiting := by
  have hstays : ∀ db e, Serves db e → (∀ i ∈ K, Stuck db i) →
      ∀ i ∈ K, Stuck (step db e) i := by
    intro db e _ h i hi
    exact step_keeps (fun _ _ _ hs => hs.stuck) (h i hi) e
  apply starved hserves _ _ (fun i hi => (hstuck i hi).waiting) hK holder hx
  · apply along_imp _ hstays hstuck hserves
    intro db e h hserved _ i hi
    exact (hstays db e hserved h i hi).waiting
  · apply along_imp _ hstays hstuck hserves
    intro db e _ hserved i hi hrows
    exact hserved.leaves hi hrows

/-- The order of `oneOrderDb`, paid and delivered. -/
def deliveredDb : Db := run Call.step oneOrderDb (disputedCalls.take 2)

/-- An order that can be released. -/
def deliveredOrder : DueOrder := ⟨⟨4⟩, 2 + defaultConfig.autoReleaseHours * 3600000⟩

/-- A delivered order in a currency that nobody has opened a platform
wallet for. -/
def stuckOrder (k : Nat) : OrderRow :=
  { oneOrder with
    id := ⟨100 + k⟩
    feeCents := ⟨50, by decide⟩
    currency := "EUR"
    status := .delivered
    autoReleaseAt := some k
    fee_nonneg := by decide }

/-- Orders that cannot, older than that one. -/
def stuckDue (k : Nat) : DueOrder := ⟨⟨100 + k⟩, k⟩

/-- So many stuck orders, all of them older than the delivered one. -/
def stuckDb (n : Nat) : Db :=
  ((List.range n).map stuckOrder).foldl
    (fun db o => db.setOrders (db.orders.upsert o)) deliveredDb

/-- A sweep that is given these rows. -/
def oneSweep (rows : List DueOrder) : EscrowSweep where
  cfg := defaultConfig
  now := deliveredOrder.autoReleaseAt
  rows := rows
  clock := fun _ => deliveredOrder.autoReleaseAt
  messageId := fun _ => ⟨21⟩
  releaseId := fun _ => ⟨22⟩
  feeId := fun _ => ⟨23⟩

/-- One stuck order in front of it does not keep the delivered order from
being released. -/
theorem sweeps_release_deliveredOrder :
    (run step (stuckDb 1)
      [oneSweep [stuckDue 0, deliveredOrder]]).Completed ⟨4⟩ := by
  have hwaiting : (stuckDb 1).waiting = {stuckDue 0, deliveredOrder} := by
    decide +kernel
  have hleft : (step (stuckDb 1) (oneSweep [stuckDue 0, deliveredOrder])).waiting
      = {stuckDue 0} := by decide +kernel
  apply sweeps_release (stuckDb 1) _ {stuckDue 0} deliveredOrder
  · refine ⟨?_, trivial⟩
    unfold Serves Backlog.Serves
    rw [hwaiting]
    constructor <;> decide +kernel
  · refine ⟨?_, trivial⟩
    intro i hi
    rw [← hleft]
    exact hi.2
  · rw [hwaiting]
    exact Finset.mem_insert_of_mem (Finset.mem_singleton_self _)
  · decide
  · intro e he
    obtain rfl := List.mem_singleton.mp he
    exact Nat.le_refl _
  · rw [hwaiting]
    decide +kernel

/-- Twenty-five of them. -/
def stuckRows : List DueOrder := (List.range 25).map stuckDue

/-- All of them wait, and the other one. -/
theorem stuckDb_waiting :
    (stuckDb 25).waiting = insert deliveredOrder stuckRows.toFinset := by
  decide +kernel

/-- And they are stuck. -/
theorem stuckDb_stuck (k : Nat) (hk : k < 25) : Stuck (stuckDb 25) (stuckDue k) := by
  have hrows : ∀ k < 25, ((stuckDb 25).orders.find? (stuckDue k).id).any
      (fun o => o.status = .delivered ∧ o.autoReleaseAt = some k
        ∧ 0 < o.feeCents.val ∧ o.currency = "EUR") := by decide +kernel
  obtain ⟨o, ho, hall⟩ := (Option.any_eq_true _ _).mp (hrows k hk)
  obtain ⟨hstatus, ht, hfee, hcurrency⟩ := of_decide_eq_true hall
  refine ⟨o, ho, hstatus, ht, hfee, ?_⟩
  rw [hcurrency]
  decide +kernel

/-- Behind 25 of them the same order is not released. -/
theorem sweeps_starve_lateOrder :
    deliveredOrder ∈ (run step (stuckDb 25) [oneSweep stuckRows]).waiting := by
  apply sweeps_starve (stuckDb 25) _ stuckRows.toFinset
  · refine ⟨?_, trivial⟩
    unfold Serves Backlog.Serves
    rw [stuckDb_waiting]
    constructor <;> decide +kernel
  · decide +kernel
  · intro i hi
    obtain ⟨k, hk, rfl⟩ := List.mem_map.mp (List.mem_toFinset.mp hi)
    exact stuckDb_stuck k (List.mem_range.mp hk)
  · intro i hi
    obtain ⟨k, hk, rfl⟩ := List.mem_map.mp (List.mem_toFinset.mp hi)
    have hlt := List.mem_range.mp hk
    show k < 2 + 72 * 3600000
    omega
  · rw [stuckDb_waiting]
    exact Finset.mem_insert_self _ _

end EscrowSweep

end Skrynia
