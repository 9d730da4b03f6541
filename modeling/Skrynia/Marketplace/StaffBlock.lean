/-
Who may bring a blocked product back.

The status of a product is written by the owner's routes and by the
administrators' one. A request is one step here: each of them writes the
status once, in one statement or under the row's lock. What the catalog
holds is told by the request, as the rows that its two queries return.

`heldByStaff` records what the staff said last: it is set when a moderator
or an administrator blocks a product, and cleared when one of them gives
it another status by any route.
-/
import Skrynia.Market.System
import Skrynia.Marketplace.Lots

namespace Skrynia

open Relational Stepping

-- ============================================================== requests

/-- The rows that the two catalog queries of a request return. -/
structure CatalogReads where
  chain : Option SectionChainRow
  schema : Option LotSchemaRow

/-- The body of `PATCH /admin/listings/:id`. -/
structure ListingPatch where
  status : Option ProductStatus
  isHot : Option Bool
  isRecommended : Option Bool

/-- The handler of `POST /products`, up to the INSERT. -/
def ProductInput.create (input : ProductInput) (upper : String → String)
    (id sellerId : Uuid) (reads : CatalogReads) : Except Failure Lot := do
  let categorization ← input.categorize reads.chain
  let validated ← input.validate categorization reads.schema
  input.insertRow upper id sellerId categorization validated

/-- What the handler of a PATCH validates. -/
def ProductPatch.validated (input : ProductPatch) (existing : Lot)
    (categorization : PatchCategorization) (reads : CatalogReads) :
    Except Failure (Option ValidatedMetadata) :=
  if input.validates then
    (input.validate existing categorization reads.schema).map some
  else .ok none

/-- The handler of `PATCH /products/:id`, up to the UPDATE. -/
def ProductPatch.edit (input : ProductPatch) (existing : Lot)
    (requester : Requester) (upper : String → String)
    (reads : CatalogReads) : Except Failure Lot := do
  input.authorize existing requester
  let categorization ← input.categorize existing reads.chain
  let validated ← input.validated existing categorization reads
  input.updateRow existing upper categorization validated

/-- Moderators and administrators. -/
def Requester.isStaff (requester : Requester) : Bool := requester.role != .user

-- ================================================================ system

/-- The database, the catalog columns of the lots, and what the staff said
last. -/
structure Shop where
  db : Db
  columns : Uuid → Option LotColumns
  heldByStaff : Uuid → Bool

/-- What may happen next. -/
inductive ShopEvent where
  | createProduct (seller : Requester) (input : ProductInput) (id : Uuid)
      (reads : CatalogReads) (upper : String → String)
  | patchProduct (requester : Requester) (lotId : Uuid)
      (input : ProductPatch) (reads : CatalogReads)
      (upper : String → String)
  | deleteProduct (requester : Requester) (lotId : Uuid)
  | patchListing (requester : Requester) (lotId : Uuid)
      (input : ListingPatch)
  | createOrder (input : CreateOrderInput)
  | lockEscrow (cfg : Config) (now : Timestamp) (input : LockEscrowInput)

namespace Shop

variable (s : Shop)

/-- Any rows, none of them held. -/
def opened (db : Db) (columns : Uuid → Option LotColumns) : Shop :=
  ⟨db, columns, fun _ => false⟩

/-- A lot with all its columns. -/
def lot? (lotId : Uuid) : Option Lot :=
  match s.db.products.find? lotId, s.columns lotId with
  | some product, some columns => some ⟨product, columns⟩
  | _, _ => none

/-- A status, given by somebody: the staff's word is recorded. -/
def spoken (requester : Requester) (lotId : Uuid)
    (status : Option ProductStatus) : Uuid → Bool :=
  match status with
  | none => s.heldByStaff
  | some status =>
      if requester.isStaff then
        Function.update s.heldByStaff lotId (status == .blocked)
      else s.heldByStaff

/-- POST /products. -/
def createProduct (seller : Requester) (input : ProductInput) (id : Uuid)
    (reads : CatalogReads) (upper : String → String) : Shop :=
  if seller.emailVerified = false then s
  else
    match input.create upper id seller.id reads with
    | .error _ => s
    | .ok lot =>
        match s.db.products.insert? lot.product with
        | none => s
        | some products =>
            { s with
              db := s.db.setProducts products
              columns := Function.update s.columns id (some lot.columns) }

/-- The row that a PATCH writes, if it is accepted. -/
def edited (requester : Requester) (lotId : Uuid) (input : ProductPatch)
    (reads : CatalogReads) (upper : String → String) : Option Lot :=
  match s.lot? lotId with
  | none => none
  | some existing =>
      if existing.product.status = .deleted then none
      else (input.edit existing requester upper reads).toOption

/-- The status before is neither read nor compared. -/
def patchProduct (requester : Requester) (lotId : Uuid)
    (input : ProductPatch) (reads : CatalogReads)
    (upper : String → String) : Shop :=
  match s.edited requester lotId input reads upper with
  | none => s
  | some lot =>
      { db := s.db.putProduct lot.product
        columns := Function.update s.columns lotId (some lot.columns)
        heldByStaff := s.spoken requester lotId
          (input.status.map Subtype.val) }

/-- DELETE /products/:id. -/
def deleteProduct (requester : Requester) (lotId : Uuid) : Shop :=
  match s.db.products.find? lotId with
  | none => s
  | some product =>
      if product.status = .deleted then s
      else if product.sellerId ≠ requester.id ∧ requester.role ≠ .admin then s
      else
        { s with
          db := s.db.putProduct { product with status := .deleted }
          heldByStaff := s.spoken requester lotId (some .deleted) }

/-- The flags are in columns that nothing here reads. -/
def patchListing (requester : Requester) (lotId : Uuid)
    (input : ListingPatch) : Shop :=
  if requester.isStaff = false then s
  else if requester.role ≠ .admin
      ∧ (input.isHot.isSome ∨ input.isRecommended.isSome) then s
  else
    match s.db.products.find? lotId with
    | none => s
    | some product =>
        { s with
          db := s.db.putProduct { product with
            status := input.status.getD product.status }
          heldByStaff := s.spoken requester lotId input.status }

/-- One event. -/
def step : ShopEvent → Shop
  | .createProduct seller input id reads upper =>
      s.createProduct seller input id reads upper
  | .patchProduct requester lotId input reads upper =>
      s.patchProduct requester lotId input reads upper
  | .deleteProduct requester lotId => s.deleteProduct requester lotId
  | .patchListing requester lotId input => s.patchListing requester lotId input
  | .createOrder input => { s with db := attempt (createOrder input) s.db }
  | .lockEscrow cfg now input =>
      { s with db := attempt (lockEscrow cfg now input) s.db }

-- ============================================================ properties

/-- What the staff blocked is not on sale, and no payment for it is
captured. -/
def Binding : Prop :=
  ∀ id, s.heldByStaff id = true →
    (∀ product, s.db.products.find? id = some product →
      product.status ≠ .active)
    ∧ ∀ cfg now input order db', Commits (lockEscrow cfg now input) s.db
        order db' → order.productId ≠ id

/-- No accepted request of somebody else activates what the staff
blocked. -/
def KeepsBlocks : ShopEvent → Prop
  | .patchProduct requester lotId input reads upper =>
      requester.isStaff = false → s.heldByStaff lotId = true →
        input.activates = true →
        s.edited requester lotId input reads upper = none
  | _ => True

end Shop

-- ==================================================== statuses over orders

/-- Orders change stocks, not statuses. -/
def StatusesKept (db db' : Db) : Prop :=
  ∀ id product', db'.products.find? id = some product' →
    ∃ product, db.products.find? id = some product
      ∧ product'.status = product.status

/-- Where the products are the same, so are their statuses. -/
theorem StatusesKept.of_same {db db' : Db}
    (h : db'.products = db.products) : StatusesKept db db' := by
  intro id product' hproduct'
  rw [h] at hproduct'
  exact ⟨product', hproduct', rfl⟩

/-- A new order leaves the products alone. -/
theorem createOrder_products {input : CreateOrderInput} {db db' : Db}
    {order : OrderRow} (h : Commits (createOrder input) db order db') :
    db'.products = db.products := by
  simp only [createOrder, insertOrder, getOrCreateOrderConversation,
    createSystemMessage, bind_assoc, commits_select_bind,
    commits_orThrow_bind, commits_require_bind, commits_liftExcept_bind,
    commits_check_bind, commits_modify_bind, pure_bind,
    commits_recordOrderEvent_bind, commits_enqueueDomainEvent_bind,
    commits_pure] at h
  obtain ⟨product, -, -, -, amount, -, hamount, orders, -, -, c, -,
    messages, -, -, rfl⟩ := h
  rfl

/-- And so their statuses, also where it fails. -/
theorem createOrder_statusesKept (input : CreateOrderInput) (db : Db) :
    StatusesKept db (attempt (createOrder input) db) := by
  rcases attempt_cases (createOrder input) db with ⟨order, h⟩ | hidle
  · exact .of_same (createOrder_products h)
  · rw [hidle]
    exact .of_same rfl

/-- The product that a capture is for, and what becomes of the products. -/
theorem lockEscrow_product {cfg : Config} {now : Timestamp}
    {input : LockEscrowInput} {db db' : Db} {order : OrderRow}
    (h : Commits (lockEscrow cfg now input) db order db') :
    ∃ product quantity, db.products.find? order.productId = some product
      ∧ product.status = .active
      ∧ db'.products = db.products.set (product.withStock quantity) := by
  simp only [lockEscrow, commits_selectOrderForUpdate_bind,
    commits_require_bind, commits_select_bind, commits_orThrow_bind,
    commits_ensureWallet_bind, commits_selectWallet_bind,
    commits_checkedBalanceAddition_bind, commits_liftExcept_bind,
    reserveStock, commits_modify_bind] at h
  obtain ⟨o, hfind, -, hpending, product, hproduct, -, w, hw, next, hnext, fee,
    hfee, payment, -, h⟩ := h
  obtain ⟨hnonneg, h⟩ := (commits_setEscrow_bind (by exact hw)).mp h
  simp only [commits_insertTransaction_bind] at h
  obtain ⟨-, _, t₁, ht₁, -, _, t₂, ht₂, h⟩ := h
  rw [recordPaymentCaptureLedger, commits_bind] at h
  obtain ⟨_, s, hpost, h⟩ := h
  obtain ⟨accounts, entries, hrec, rfl⟩ := posted_of_commits hpost
  simp only [storePayment, commits_check_bind, commits_modify_bind,
    commits_createOrderSystemMessage_bind, commits_transitionOrder] at h
  obtain ⟨hfee₀, m, messages, hm, o₂, ho₂, h⟩ := h
  have ho₂' : o₂ = o.withPayment fee hfee₀ payment.provider
      payment.reference product.instantTemplate := by
    have hid : o.id = input.orderId := Table.key_of_find? hfind
    rw [← hid] at hfind
    exact Option.some.inj (ho₂.symm.trans (Table.find?_set_self hfind))
  subst ho₂'
  obtain ⟨hproduct, hactive⟩ := Option.filter_eq_some_iff.mp hproduct
  rw [decide_eq_true_eq] at hactive
  rcases h with ⟨⟨hs, -⟩, -⟩ | ⟨-, rfl, d, a, e, happ⟩
  · change o.status = _ at hs
    rw [hpending, captureTransitionInput] at hs
    split at hs <;> cases hs
  refine ⟨product, product.stock - o.quantity, hproduct, hactive, ?_⟩
  rw [happ.db_eq]
  rfl

/-- A payment changes stocks, and no status. -/
theorem lockEscrow_statusesKept (cfg : Config) (now : Timestamp)
    (input : LockEscrowInput) (db : Db) :
    StatusesKept db (attempt (lockEscrow cfg now input) db) := by
  rcases attempt_cases (lockEscrow cfg now input) db with ⟨order, h⟩ | hidle
  · obtain ⟨product, quantity, hproduct, -, hproducts⟩ := lockEscrow_product h
    intro id product' hproduct'
    rw [hproducts] at hproduct'
    have hkey := Table.key_of_find? hproduct
    rcases Table.find?_set_eq_some.mp hproduct' with
      ⟨hid, -, rfl⟩ | ⟨-, hproduct'⟩
    · have hid : product.id = id := hid
      rw [← hkey, hid] at hproduct
      exact ⟨product, hproduct, rfl⟩
    · exact ⟨product', hproduct', rfl⟩
  · rw [hidle]
    exact .of_same rfl

/-- A new order removes no product. -/
theorem createOrder_keeps (input : CreateOrderInput) (db : Db) (id : Uuid)
    (h : db.products.Has id) :
    (attempt (createOrder input) db).products.Has id := by
  rcases attempt_cases (createOrder input) db with ⟨order, hcommits⟩ | hidle
  · rw [createOrder_products hcommits]
    exact h
  · rw [hidle]
    exact h

/-- Nor does a payment. -/
theorem lockEscrow_keeps (cfg : Config) (now : Timestamp)
    (input : LockEscrowInput) (db : Db) (id : Uuid)
    (h : db.products.Has id) :
    (attempt (lockEscrow cfg now input) db).products.Has id := by
  rcases attempt_cases (lockEscrow cfg now input) db with
    ⟨order, hcommits⟩ | hidle
  · obtain ⟨product, quantity, -, -, hproducts⟩ := lockEscrow_product hcommits
    rw [hproducts]
    exact Table.has_set.mpr h
  · rw [hidle]
    exact h

-- =============================================================== results

namespace Shop

variable {s : Shop}

/-- The part of `Binding` that statuses decide. -/
def Blocked (s : Shop) : Prop :=
  ∀ id, s.heldByStaff id = true → ∃ product,
    s.db.products.find? id = some product ∧ product.status ≠ .active

/-- Blocks bind where blocked products stay blocked. -/
theorem Blocked.binding (h : s.Blocked) : s.Binding := by
  intro id hheld
  obtain ⟨product, hproduct, hstatus⟩ := h id hheld
  refine ⟨?_, ?_⟩
  · intro product' hproduct'
    rw [← Option.some.inj (hproduct.symm.trans hproduct')]
    exact hstatus
  · intro cfg now input order db' hcommits hsame
    obtain ⟨captured, quantity, hcaptured, hactive, -⟩ :=
      lockEscrow_product hcommits
    rw [hsame, hproduct] at hcaptured
    rw [← Option.some.inj hcaptured] at hactive
    exact hstatus hactive

/-- What keeps the statuses keeps blocks. -/
theorem Blocked.of_statusesKept (h : s.Blocked) {db : Db}
    (hdb : StatusesKept s.db db)
    (hkept : ∀ id, s.db.products.Has id → db.products.Has id) :
    Blocked { s with db := db } := by
  intro id hheld
  obtain ⟨product, hproduct, hstatus⟩ := h id hheld
  obtain ⟨product', hproduct'⟩ :=
    Table.has_iff.mp (hkept id (Table.has_iff.mpr ⟨product, hproduct⟩))
  obtain ⟨before, hbefore, hsame⟩ := hdb id product' hproduct'
  refine ⟨product', hproduct', ?_⟩
  rw [hsame, ← Option.some.inj (hproduct.symm.trans hbefore)]
  exact hstatus

/-- A status written over one product, and what is recorded of it. -/
theorem Blocked.put (h : s.Blocked) {product : Product}
    {columns : Uuid → Option LotColumns} {held : Uuid → Bool}
    (hothers : ∀ id, id ≠ product.id → held id = s.heldByStaff id)
    (hthis : held product.id = true → s.db.products.Has product.id
      ∧ product.status ≠ .active) :
    Blocked ⟨s.db.putProduct product, columns, held⟩ := by
  intro id hheld
  by_cases hid : id = product.id
  · subst hid
    obtain ⟨hhas, hstatus⟩ := hthis hheld
    obtain ⟨old, hold⟩ := Table.has_iff.mp hhas
    exact ⟨product, Table.find?_set_self hold, hstatus⟩
  · have hheld : held id = true := hheld
    rw [hothers id hid] at hheld
    obtain ⟨other, hother, hstatus⟩ := h id hheld
    refine ⟨other, ?_, hstatus⟩
    exact (Table.find?_set_of_ne (Ne.symm hid)).trans hother

/-- What the staff said of another product stays. -/
theorem spoken_of_ne {requester : Requester} {lotId id : Uuid}
    {status : Option ProductStatus} (h : id ≠ lotId) :
    s.spoken requester lotId status id = s.heldByStaff id := by
  unfold spoken
  cases status with
  | none => rfl
  | some status =>
      cases requester.isStaff with
      | false => rfl
      | true => exact Function.update_of_ne h _ _

/-- What is held afterwards: a block by the staff, or what was held and was
not theirs to speak of. -/
theorem spoken_self {requester : Requester} {lotId : Uuid}
    {status : Option ProductStatus}
    (h : s.spoken requester lotId status lotId = true) :
    status = some .blocked ∨ (requester.isStaff = false ∨ status = none)
      ∧ s.heldByStaff lotId = true := by
  unfold spoken at h
  cases status with
  | none => exact Or.inr ⟨Or.inr rfl, h⟩
  | some status =>
      cases hstaff : requester.isStaff with
      | false =>
          rw [hstaff] at h
          exact Or.inr ⟨Or.inl rfl, h⟩
      | true =>
          rw [hstaff] at h
          dsimp only at h
          rw [if_pos rfl, Function.update_self, beq_iff_eq] at h
          exact Or.inl (congrArg some h)

/-- A lot is a row of `products`. -/
theorem lot?_eq_some {lotId : Uuid} {lot : Lot} (h : s.lot? lotId = some lot) :
    s.db.products.find? lotId = some lot.product := by
  unfold lot? at h
  split at h
  · next hproduct _ =>
      injection h with h
      rw [hproduct, ← h]
  · cases h

/-- What an accepted PATCH does to the row. -/
theorem edited_eq_some {requester : Requester} {lotId : Uuid}
    {input : ProductPatch} {reads : CatalogReads} {upper : String → String}
    {lot : Lot} (h : s.edited requester lotId input reads upper = some lot) :
    ∃ product, s.db.products.find? lotId = some product
      ∧ lot.product.id = lotId
      ∧ lot.product.status
        = (input.status.map Subtype.val).getD product.status := by
  unfold edited at h
  split at h
  · cases h
  · next existing hexisting =>
      split at h
      · cases h
      · have hproduct := lot?_eq_some hexisting
        unfold ProductPatch.edit at h
        cases hedit : (input.edit existing requester upper reads) with
        | error e =>
            unfold ProductPatch.edit at hedit
            rw [hedit] at h
            cases h
        | ok edited =>
            obtain ⟨_, -, hedit'⟩ := except_bind_eq_ok.mp hedit
            obtain ⟨categorization, -, hedit'⟩ := except_bind_eq_ok.mp hedit'
            obtain ⟨validated, -, hrow⟩ := except_bind_eq_ok.mp hedit'
            unfold ProductPatch.edit at hedit
            rw [hedit] at h
            have hlot : edited = lot := Option.some.inj h
            obtain ⟨hid, -, hstatus, -⟩ := ProductPatch.updateRow_eq_ok hrow
            rw [hlot] at hid hstatus
            exact ⟨existing.product, hproduct,
              hid.trans (Table.key_of_find? hproduct), hstatus⟩

/-- A PATCH by the owner that does not activate, or one by the staff. -/
theorem Blocked.patchProduct (h : s.Blocked) {requester : Requester}
    {lotId : Uuid} {input : ProductPatch} {reads : CatalogReads}
    {upper : String → String}
    (hkeeps : s.KeepsBlocks (.patchProduct requester lotId input reads upper)) :
    (s.patchProduct requester lotId input reads upper).Blocked := by
  unfold Shop.patchProduct
  cases hedited : s.edited requester lotId input reads upper with
  | none => exact h
  | some lot =>
      obtain ⟨product, hproduct, hid, hstatus⟩ := edited_eq_some hedited
      refine h.put ?_ ?_
      · intro id hne
        rw [hid] at hne
        exact spoken_of_ne hne
      · rw [hid]
        intro hheld
        refine ⟨Table.has_iff.mpr ⟨product, hproduct⟩, ?_⟩
        rcases spoken_self hheld with hblocked | ⟨hnot, hbefore⟩
        · rw [hstatus, hblocked]
          exact nofun
        · obtain ⟨old, hold, hinactive⟩ := h lotId hbefore
          rw [hproduct] at hold
          rw [← Option.some.inj hold] at hinactive
          rw [hstatus]
          cases hnew : input.status with
          | none => exact hinactive
          | some new =>
              rw [hnew] at hnot
              have howner : requester.isStaff = false := by
                rcases hnot with howner | hnone
                · exact howner
                · cases hnone
              intro hactive
              have hactivates : input.activates = true := by
                unfold ProductPatch.activates
                rw [hnew]
                exact beq_iff_eq.mpr hactive
              rw [hkeeps howner hbefore hactivates] at hedited
              cases hedited

/-- Every event but an owner's activation keeps blocks. The staff's own
events speak for the staff, a deletion is no activation, and other edits
leave the status. -/
theorem Blocked.step (h : s.Blocked) (e : ShopEvent)
    (hkeeps : s.KeepsBlocks e) : (s.step e).Blocked := by
  cases e with
  | createProduct seller input id reads upper =>
      rw [Shop.step, Shop.createProduct]
      split
      · exact h
      · split
        · exact h
        · next lot _ =>
            split
            · exact h
            · next products hproducts =>
                intro id' hheld
                obtain ⟨product, hproduct, hstatus⟩ := h id' hheld
                refine ⟨product, ?_, hstatus⟩
                rw [Table.insert?_eq_some] at hproducts
                exact Table.find?_eq_some.mpr
                  ⟨by
                    show product ∈ products.rows
                    rw [hproducts.2]
                    exact List.mem_append_left _ (Table.mem_of_find? hproduct),
                  Table.key_of_find? hproduct⟩
  | patchProduct requester lotId input reads upper =>
      exact h.patchProduct hkeeps
  | deleteProduct requester lotId =>
      rw [Shop.step, Shop.deleteProduct]
      split
      · exact h
      · next product hproduct =>
          have hid := Table.key_of_find? hproduct
          split
          · exact h
          · split
            · exact h
            · refine h.put ?_ ?_
              · intro id hne
                have hne : id ≠ product.id := hne
                rw [hid] at hne
                exact spoken_of_ne hne
              · intro _
                have hthis : s.db.products.find? product.id = some product := by
                  rw [hid]
                  exact hproduct
                exact ⟨Table.has_iff.mpr ⟨product, hthis⟩, fun h => by cases h⟩
  | patchListing requester lotId input =>
      rw [Shop.step, Shop.patchListing]
      split
      · exact h
      · next hstaff =>
          split
          · exact h
          · split
            · exact h
            · next product hproduct =>
                have hid : product.id = lotId := Table.key_of_find? hproduct
                refine h.put ?_ ?_
                · intro id hne
                  have hne : id ≠ product.id := hne
                  rw [hid] at hne
                  exact spoken_of_ne hne
                · intro hheld
                  have hheld : s.spoken requester lotId input.status product.id
                    = true := hheld
                  rw [hid] at hheld
                  have hthis : s.db.products.find? product.id
                      = some product := by
                    rw [hid]
                    exact hproduct
                  refine ⟨Table.has_iff.mpr ⟨product, hthis⟩, ?_⟩
                  rcases spoken_self hheld with hblocked | ⟨hnot, hbefore⟩
                  · show input.status.getD product.status ≠ .active
                    rw [hblocked]
                    exact fun h => by cases h
                  · rcases hnot with howner | hnone
                    · exact absurd howner hstaff
                    · obtain ⟨old, hold, hinactive⟩ := h lotId hbefore
                      rw [hproduct] at hold
                      show input.status.getD product.status ≠ .active
                      rw [hnone, Option.getD_none, Option.some.inj hold]
                      exact hinactive
  | createOrder input =>
      exact h.of_statusesKept (createOrder_statusesKept input s.db)
        (createOrder_keeps input s.db)
  | lockEscrow cfg now input =>
      exact h.of_statusesKept (lockEscrow_statusesKept cfg now input s.db)
        (lockEscrow_keeps cfg now input s.db)

/-- An accepted activation of a held product by somebody else leaves it
held, and on sale. -/
theorem not_binding_of_activated {requester : Requester} {lotId : Uuid}
    {input : ProductPatch} {reads : CatalogReads} {upper : String → String}
    (howner : requester.isStaff = false)
    (hheld : s.heldByStaff lotId = true) (hactivates : input.activates = true)
    {lot : Lot} (hedited : s.edited requester lotId input reads upper = some lot) :
    ¬ (s.step (.patchProduct requester lotId input reads upper)).Binding := by
  obtain ⟨product, hproduct, hid, hstatus⟩ := edited_eq_some hedited
  intro hbinding
  rw [Shop.step, Shop.patchProduct, hedited] at hbinding
  have hstill : s.spoken requester lotId (input.status.map Subtype.val) lotId
      = true := by
    unfold spoken
    rw [howner]
    cases input.status with
    | none => exact hheld
    | some new => exact hheld
  have hactive : lot.product.status = .active := by
    unfold ProductPatch.activates at hactivates
    cases hnew : input.status with
    | none =>
        rw [hnew] at hactivates
        cases hactivates
    | some new =>
        rw [hnew] at hactivates
        rw [hstatus, hnew]
        exact beq_iff_eq.mp hactivates
  refine (hbinding lotId hstill).1 lot.product ?_ hactive
  have hfound : s.db.products.find? lot.product.id = some product := by
    rw [hid]
    exact hproduct
  rw [← hid]
  exact Table.find?_set_self hfound

/-- At the start the staff has said nothing. -/
theorem blocked_opened (db : Db) (columns : Uuid → Option LotColumns) :
    (opened db columns).Blocked := by
  intro id hheld
  cases hheld

/-- A run in which blocks always bind has no such activation. -/
theorem along_of_binding {l : List ShopEvent}
    (h : ∀ l₁ l₂, l = l₁ ++ l₂ → (run step s l₁).Binding) :
    Along step KeepsBlocks s l := by
  induction l generalizing s with
  | nil => exact trivial
  | cons e l ih =>
      refine ⟨?_, ih ?_⟩
      · cases e with
        | patchProduct requester lotId input reads upper =>
            intro howner hheld hactivates
            by_contra haccepted
            obtain ⟨lot, hedited⟩ := Option.ne_none_iff_exists'.mp haccepted
            exact not_binding_of_activated howner hheld hactivates hedited
              (h [_] l rfl)
        | _ => trivial
      · intro l₁ l₂ hl
        exact h (e :: l₁) l₂ (congrArg (e :: ·) hl)

/-- A staff block is binding, throughout a run, just when no accepted PATCH
of somebody else activates a product that the staff has blocked. All other
routes keep it by themselves, so the condition is about that one request. -/
theorem staffBlock_binding_iff (db : Db) (columns : Uuid → Option LotColumns)
    (l : List ShopEvent) :
    (∀ l₁ l₂, l = l₁ ++ l₂ → (run step (opened db columns) l₁).Binding)
      ↔ Along step KeepsBlocks (opened db columns) l := by
  constructor
  · exact along_of_binding
  · intro hl l₁ l₂ hsplit
    rw [hsplit, along_append] at hl
    exact (run_keeps_along (fun s e hkeeps hs => hs.step e hkeeps) hl.1
      (blocked_opened db columns)).binding

-- ------------------------------------------------------- an owner's PATCH

/-- The staff blocks a product and its owner activates it. -/
def ownerActivates : List ShopEvent :=
  let activate : ProductPatch :=
    ⟨none, none, none, none, none, none, none, none, none, none, none, none,
      none, none, none, some ⟨.active, Or.inl rfl⟩⟩
  [.patchListing ⟨⟨9⟩, .moderator, true⟩ ⟨3⟩ ⟨some .blocked, none, none⟩,
    .patchProduct ⟨⟨2⟩, .user, true⟩ ⟨3⟩ activate ⟨none, none⟩ id]

/-- The catalog columns of a listing without a section. -/
def sectionless : LotColumns where
  categoryId := ⟨4⟩
  gameId := none
  sectionId := none
  title := "Gold rank"
  description := "A rank for one season."
  productType := .service
  oldPriceCents := none
  server := none
  platform := none
  metadata := fun _ => none
  schemaVersion := none
  pinned := rfl
  oldPrice_pos m hm := absurd hm (Option.not_mem_none m)

/-- The owner's PATCH brings a blocked product back. -/
theorem ownerActivates_not_binding :
    ¬ (∀ db columns l₁ l₂, ownerActivates = l₁ ++ l₂ →
      (run step (opened db columns) l₁).Binding) := by
  intro h
  have hbinding := h
    { Db.empty with products := Table.empty.upsert oneProduct }
    (fun _ => some sectionless) ownerActivates [] (List.append_nil _).symm
  have hactive : ((run step (opened
      { Db.empty with products := Table.empty.upsert oneProduct }
      (fun _ => some sectionless)) ownerActivates).db.products.find? ⟨3⟩).map
        Product.status = some .active := by decide
  obtain ⟨product, hproduct, hstatus⟩ := Option.map_eq_some_iff.mp hactive
  exact (hbinding ⟨3⟩ (by decide)).1 product hproduct hstatus

end Shop

end Skrynia
