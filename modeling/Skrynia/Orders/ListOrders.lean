/-
`GET /orders`, the list of a participant's orders.

The handler selects `limit` orders after the cursor, newest first. It
selects `o.created_at` itself, so its cursors are made of a `Date`: they
point at the start of the millisecond of the page's last order, and the
orders of that millisecond that are still to come are skipped.

The cache in front of the query, keyed by all parameters, is left out:
over a fixed set of orders it answers what the query would.
-/
import Skrynia.Common.Pagination

namespace Skrynia

open Relational Keyset

/-- The columns of a summary row that select, sort or page the list. -/
structure OrderSummaryRow where
  id : Uuid
  status : OrderStatus
  buyerId : Uuid
  sellerId : Uuid
  createdAt : Micros
deriving DecidableEq

/-- The key of the list: the time, then the id. -/
def OrderSummaryRow.key (o : OrderSummaryRow) : SortKey := sortKey o.createdAt o.id

/-- `req.query.role`. -/
inductive ListRole where
  | buyer
  | seller
  | all
deriving DecidableEq

/-- `req.user`. -/
structure Viewer where
  id : Uuid
  role : Role

/-- The filters of a request. -/
structure OrdersQuery where
  role : ListRole
  status : Option String

/-- Everything of the `where` but the cursor. -/
def OrdersQuery.Matches (viewer : Viewer) (query : OrdersQuery)
    (o : OrderSummaryRow) : Prop :=
  (viewer.role ≠ .admin ∨ query.role ≠ .all →
    match query.role with
    | .seller => o.sellerId = viewer.id
    | .buyer => o.buyerId = viewer.id
    | .all => o.buyerId = viewer.id ∨ o.sellerId = viewer.id)
  ∧ ∀ status ∈ query.status, status ≠ "" → o.status.text = status

instance (viewer : Viewer) (query : OrdersQuery) (o : OrderSummaryRow) :
    Decidable (query.Matches viewer o) :=
  haveI : Decidable (match query.role with
      | .seller => o.sellerId = viewer.id
      | .buyer => o.buyerId = viewer.id
      | .all => o.buyerId = viewer.id ∨ o.sellerId = viewer.id) :=
    match query.role with
    | .seller => inferInstanceAs (Decidable (o.sellerId = viewer.id))
    | .buyer => inferInstanceAs (Decidable (o.buyerId = viewer.id))
    | .all => inferInstanceAs (Decidable (o.buyerId = viewer.id ∨ o.sellerId = viewer.id))
  inferInstanceAs (Decidable (_ ∧ _))

/-- What the handler answers. -/
structure OrdersPayload where
  orders : List OrderSummaryRow
  nextCursor : Option CursorText
deriving DecidableEq

section Handler

variable (orders : Table OrderSummaryRow.id) (viewer : Viewer) (query : OrdersQuery)

/-- The query of the handler and its answer, once the page is parsed. -/
def listOrders (page : CursorPage) : OrdersPayload :=
  let rows := (orderBy OrderSummaryRow.key (orders.rows.filter fun o =>
    query.Matches viewer o ∧ keysetWhereClause page.cursor o.createdAt o.id)).take
      page.limit
  { orders := rows
    nextCursor := buildNextCursor (fun o => .ofDriver o.createdAt) (·.id) rows
      page.limit }

/-- `GET /orders`. -/
def getOrders (limit : Option Int) (cursor : Option CursorText) :
    Except Failure OrdersPayload := do
  let page ← parseCursorPage limit cursor 100
  return listOrders orders viewer query page

/-- One request of a client that follows `nextCursor` with `limit` orders
a page. -/
def ordersPage (limit : Nat) (cursor : Option CursorText) :
    Except Failure (List OrderSummaryRow) × Option CursorText :=
  match cursor.mapM decodeCursor with
  | .ok cursor =>
      let payload := listOrders orders viewer query ⟨limit, cursor⟩
      (.ok payload.orders, payload.nextCursor)
  | .error e => (.error e, none)

/-- The orders that a viewer's query asks for, newest first. -/
def matchingOrders : List OrderSummaryRow :=
  orderBy OrderSummaryRow.key (orders.rows.filter fun o => query.Matches viewer o)

/-- Following `nextCursor` ends and has yielded every matching order
exactly once, newest first. -/
def ReadsAllOrders (limit : Nat) : Prop :=
  ∃ (fuel : Nat) (pages : List (List OrderSummaryRow)),
    follow (ordersPage orders viewer query limit) fuel none
      = some (pages.map Except.ok)
    ∧ pages.flatten.Pairwise (fun o o' => o'.key < o.key)
    ∧ ∀ o, o ∈ pages.flatten ↔ o ∈ orders.rows ∧ query.Matches viewer o

/-- At every page boundary the next order is older than the millisecond of
the last order on the page, or from its very start and of a lower id. -/
def PagesBreakBetweenMillis (limit : Nat) : Prop :=
  ∀ i last next,
    (matchingOrders orders viewer query)[(i + 1) * limit - 1]? = some last →
    (matchingOrders orders viewer query)[(i + 1) * limit]? = some next →
    next.createdAt < last.createdAt / 1000 * 1000
      ∨ next.createdAt = last.createdAt / 1000 * 1000 ∧ next.id.bits < last.id.bits

end Handler

variable {orders : Table OrderSummaryRow.id} {viewer : Viewer} {query : OrdersQuery}
  {limit : Nat}

/-- Any accepted limit is a limit of `ordersPage`. -/
theorem getOrders_eq (hlimit : 1 ≤ limit) (hmax : (limit : Int) ≤ MAX_PAGE_LIMIT)
    (cursor : Option CursorText) :
    getOrders orders viewer query (some limit) cursor
      = (ordersPage orders viewer query limit cursor).1.map fun rows =>
          ⟨rows, (ordersPage orders viewer query limit cursor).2⟩ := by
  have hbounds : 1 ≤ (limit : Int) ∧ (limit : Int) ≤ MAX_PAGE_LIMIT :=
    ⟨by omega, hmax⟩
  rw [getOrders, parseCursorPage, ordersPage]
  simp only [if_pos hbounds, Int.toNat_natCast]
  cases hdecode : cursor.mapM decodeCursor with
  | error e => rfl
  | ok cursor => rfl

-- ========================================================= a keyset server

/-- The cursor behind an order. -/
def OrderSummaryRow.cursor (o : OrderSummaryRow) : DecodedCursor :=
  ⟨(CreatedAt.ofDriver o.createdAt).text, o.id⟩

/-- The orders that a cursor asks for. -/
def OrderSummaryRow.After (c : DecodedCursor) (o : OrderSummaryRow) : Prop :=
  o.key < c.bound

instance (c : DecodedCursor) : DecidablePred (OrderSummaryRow.After c) :=
  fun o => inferInstanceAs (Decidable (o.key < c.bound))

/-- Ids are unique, hence sort keys. -/
theorem nodup_keys (orders : Table OrderSummaryRow.id) (p : OrderSummaryRow → Bool) :
    ((orders.rows.filter p).map OrderSummaryRow.key).Nodup := by
  have hids := (List.pairwise_map.mp orders.unique).filter p
  refine List.pairwise_map.mpr (hids.imp ?_)
  intro o o' hne hkey
  exact hne (sortKey_injective hkey).2

/-- The condition on the cursor may be checked on the sorted list. -/
theorem listOrders_eq (cursor : Option DecodedCursor) :
    listOrders orders viewer query ⟨limit, cursor⟩
      = { orders := (fullPage (matchingOrders orders viewer query)
            OrderSummaryRow.After OrderSummaryRow.cursor limit cursor).1
          nextCursor := (fullPage (matchingOrders orders viewer query)
            OrderSummaryRow.After OrderSummaryRow.cursor limit cursor).2.map
              fun c => .fields c.createdAt c.id } := by
  have hrows : orderBy OrderSummaryRow.key (orders.rows.filter fun o =>
        query.Matches viewer o ∧ keysetWhereClause cursor o.createdAt o.id)
      = rest (matchingOrders orders viewer query) OrderSummaryRow.After cursor := by
    cases cursor with
    | none =>
        refine congrArg (orderBy _) (List.filter_congr ?_)
        intro o _
        exact decide_eq_decide.mpr (and_iff_left trivial)
    | some c =>
        rw [rest, matchingOrders, ← orderBy_filter (nodup_keys _ _), List.filter_filter]
        refine congrArg (orderBy _) (List.filter_congr ?_)
        intro o _
        rw [← Bool.decide_and, decide_eq_decide, and_comm]
        exact and_congr_left' (keysetWhereClause_some c o.createdAt o.id)
  rw [listOrders, hrows]
  rw [fullPage, buildNextCursor]
  congr 1
  split
  · rfl
  · rw [Option.map_map]
    rfl

/-- The handler's page is a full page of the matching orders. -/
theorem ordersPage_eq (orders : Table OrderSummaryRow.id) (viewer : Viewer)
    (query : OrdersQuery) (limit : Nat) (c : Option DecodedCursor) :
    ordersPage orders viewer query limit (c.map fun c => .fields c.createdAt c.id)
      = (Except.ok (fullPage (matchingOrders orders viewer query)
            OrderSummaryRow.After OrderSummaryRow.cursor limit c).1,
          (fullPage (matchingOrders orders viewer query)
            OrderSummaryRow.After OrderSummaryRow.cursor limit c).2.map
              fun c => .fields c.createdAt c.id) := by
  have hdecode : (c.map fun c => CursorText.fields c.createdAt c.id).mapM decodeCursor
      = .ok c := by
    cases c <;> rfl
  rw [ordersPage, hdecode]
  show (Except.ok (listOrders orders viewer query ⟨limit, c⟩).orders,
    (listOrders orders viewer query ⟨limit, c⟩).nextCursor) = _
  rw [listOrders_eq]

/-- Cursors go with the order of the list. -/
theorem ordered_matchingOrders (orders : Table OrderSummaryRow.id)
    (viewer : Viewer) (query : OrdersQuery) :
    Ordered OrderSummaryRow.After OrderSummaryRow.cursor
      (matchingOrders orders viewer query) := by
  refine ordered_orderBy (nodup_keys _ _) ?_
  intro o _
  rw [DecodedCursor.bound, OrderSummaryRow.key, sortKey, sortKey, Prod.Lex.toLex_le_toLex]
  rcases lt_or_eq_of_le (instant_ofDriver_le o.createdAt) with hlt | heq
  · exact Or.inl hlt
  · exact Or.inr ⟨heq, le_refl _⟩

/-- What the general boundary condition says of these cursors. -/
theorem boundaries_matchingOrders :
    Boundaries OrderSummaryRow.After OrderSummaryRow.cursor limit
        (matchingOrders orders viewer query)
      ↔ PagesBreakBetweenMillis orders viewer query limit := by
  refine forall₃_congr fun i last next => imp_congr_right fun _ => imp_congr_right fun _ => ?_
  rw [OrderSummaryRow.After, OrderSummaryRow.key, DecodedCursor.bound, sortKey, sortKey,
    Prod.Lex.toLex_lt_toLex]
  exact Iff.rfl

-- ============================================================== completeness

/-- Whatever the creation times: reading ends, in order and without
duplicates. -/
theorem follow_ordersPage (orders : Table OrderSummaryRow.id) (viewer : Viewer)
    (query : OrdersQuery) (hlimit : 1 ≤ limit) :
    ∃ (fuel : Nat) (pages : List (List OrderSummaryRow)),
      follow (ordersPage orders viewer query limit) fuel none
        = some (pages.map Except.ok)
      ∧ pages.flatten.Sublist (matchingOrders orders viewer query)
      ∧ (pages.flatten = matchingOrders orders viewer query
          ↔ PagesBreakBetweenMillis orders viewer query limit) := by
  obtain ⟨pages, hpages, hsub, hall⟩ :=
    follow_fullPage (ordered_matchingOrders orders viewer query) hlimit (Nat.lt_succ_self _)
  refine ⟨(matchingOrders orders viewer query).length + 1, pages, ?_, hsub,
    hall.trans boundaries_matchingOrders⟩
  have hmap := follow_map (ordersPage_eq orders viewer query limit)
    ((matchingOrders orders viewer query).length + 1) none
  rw [hpages] at hmap
  exact hmap

/-- The list descends. -/
theorem pairwise_matchingOrders :
    (matchingOrders orders viewer query).Pairwise fun o o' => o'.key < o.key :=
  orderBy_pairwise (nodup_keys _ _)

/-- It has the orders of the table that match. -/
theorem mem_matchingOrders {o : OrderSummaryRow} :
    o ∈ matchingOrders orders viewer query
      ↔ o ∈ orders.rows ∧ query.Matches viewer o := by
  rw [matchingOrders, mem_orderBy, List.mem_filter, decide_eq_true_iff]

/-- The list is complete just when no page ends inside a millisecond. A
cursor points at the start of its order's millisecond, so the later orders of
that millisecond come before it; everywhere else it separates the two pages,
and `follow_fullPage` does the rest. -/
theorem readsAllOrders_iff (orders : Table OrderSummaryRow.id) (viewer : Viewer)
    (query : OrdersQuery) {limit : Nat} (hlimit : 1 ≤ limit) :
    ReadsAllOrders orders viewer query limit
      ↔ PagesBreakBetweenMillis orders viewer query limit := by
  obtain ⟨fuel, pages, hpages, -, hall⟩ :=
    follow_ordersPage orders viewer query hlimit
  constructor
  · intro hreads
    obtain ⟨fuel', pages', hpages', hsorted, hmem⟩ := hreads
    have hagree : pages'.map Except.ok = pages.map Except.ok :=
      follow_agree hpages' hpages
    have hpages : pages' = pages :=
      List.map_injective_iff.mpr (fun _ _ => Except.ok.inj) hagree
    rw [← hall, ← hpages]
    refine eq_orderBy (nodup_keys _ _) hsorted ?_
    intro o
    rw [hmem, ← mem_matchingOrders, matchingOrders, mem_orderBy]
  · intro hbreaks
    refine ⟨fuel, pages, hpages, ?_, ?_⟩
    · rw [hall.mpr hbreaks]
      exact pairwise_matchingOrders
    · rw [hall.mpr hbreaks]
      intro o
      exact mem_matchingOrders

/-- Two ids. -/
theorem nodup_one_two : [(⟨1⟩ : Uuid), ⟨2⟩].Nodup := by decide

/-- Two orders of one buyer. -/
def twoOrders (createdAt createdAt' : Micros) : Table OrderSummaryRow.id where
  rows := [⟨⟨1⟩, .paid, ⟨10⟩, ⟨20⟩, createdAt⟩, ⟨⟨2⟩, .paid, ⟨10⟩, ⟨20⟩, createdAt'⟩]
  unique := nodup_one_two

/-- A second apart, both are read, one a page. -/
theorem spacedOrders_read :
    ReadsAllOrders (twoOrders 2000900 1000900) ⟨⟨10⟩, .user⟩ ⟨.buyer, none⟩ 1 := by
  refine (readsAllOrders_iff _ _ _ (Nat.le_refl 1)).mpr ?_
  have hmatching : matchingOrders (twoOrders 2000900 1000900) ⟨⟨10⟩, .user⟩ ⟨.buyer, none⟩
      = [⟨⟨1⟩, .paid, ⟨10⟩, ⟨20⟩, 2000900⟩, ⟨⟨2⟩, .paid, ⟨10⟩, ⟨20⟩, 1000900⟩] := by
    decide +kernel
  rw [PagesBreakBetweenMillis, hmatching]
  intro i last next hlast hnext
  cases i with
  | zero =>
      cases hlast
      cases hnext
      decide
  | succ i =>
      rw [Nat.mul_one] at hnext
      cases hnext

/-- In one millisecond, the second is lost. -/
theorem tiedOrders_lost :
    ¬ ReadsAllOrders (twoOrders 2000900 2000500) ⟨⟨10⟩, .user⟩ ⟨.buyer, none⟩ 1 := by
  intro hreads
  obtain ⟨fuel, pages, hpages, -, hmem⟩ := hreads
  have hrun : follow (ordersPage (twoOrders 2000900 2000500) ⟨⟨10⟩, .user⟩
      ⟨.buyer, none⟩ 1) 2 none
      = some ([[⟨⟨1⟩, .paid, ⟨10⟩, ⟨20⟩, 2000900⟩], []].map Except.ok) := by
    decide +kernel
  have hsecond := (hmem ⟨⟨2⟩, .paid, ⟨10⟩, ⟨20⟩, 2000500⟩).mpr (by decide)
  have hread : pages = [[⟨⟨1⟩, .paid, ⟨10⟩, ⟨20⟩, 2000900⟩], []] :=
    List.map_injective_iff.mpr (fun _ _ => Except.ok.inj) (follow_agree hpages hrun)
  rw [hread] at hsecond
  revert hsecond
  decide

end Skrynia
