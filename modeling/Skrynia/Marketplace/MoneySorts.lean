/-
The pages of the money sorts.

The sorts by price and by discount use offset pages, and their `order by`
names the money column only. Rows of equal price come in an order that
the database chooses anew for every request, so `orders` has a choice
for each page.

The pages are the matching products, each once, for every such choice
just when no page ends inside a group of equal prices
(`money_pages_iff`, by `Offset.pages_perm` and
`Offset.exists_repeated`). In the sort's order they always are.
-/
import Skrynia.Lib.Offset
import Skrynia.Marketplace.Pages

namespace Skrynia

open Relational Keyset

variable {F : Type}

/-- The value of `order by`, ascending. -/
def ProductRow.moneyKey (sort : SearchSort) (r : ProductRow F) : Int :=
  match sort with
  | .price_asc => r.product.priceCents
  | .price_desc => -r.product.priceCents
  | .discount =>
      -(r.product.oldPriceCents.getD r.product.priceCents - r.product.priceCents)
  | .newest | .rating | .sales => 0

/-- The pages up to the last one by `total`. -/
def lastPage (total limit : Nat) : Nat :=
  (total + limit - 1) / limit

/-- The rows of a money sort's query, in no order: its only query has the
join with favorites and media. -/
def moneyMatching (x : MarketplaceQueries F) (products : Table Listing.id)
    (input : MarketplaceSearchInput F) (computed : ComputedFilters) :
    List (ProductRow F) :=
  selectRows x input computed Listing.joinedRatings products.rows

section Requests

variable [LinearOrder F] (x : MarketplaceQueries F)
  (products : Table Listing.id) (input : MarketplaceSearchInput F)

/-- The request for a page, answered in the database's order for it. -/
def moneyPage (orders : Nat → List (ProductRow F) → List (ProductRow F))
    (page : Nat) : Except Failure (ProductsPayload F) :=
  getProducts { x with moneyOrder := fun _ => orders page } products
    { input with page := page }

/-- The products of page 1, 2, … up to the last, which the first page
tells. -/
def moneyListing (orders : Nat → List (ProductRow F) → List (ProductRow F)) :
    Except Failure (List (ProductRow F)) := do
  let first ← moneyPage x products input orders 1
  let payloads ← (List.range (lastPage first.total input.limit)).mapM fun p =>
    moneyPage x products input orders (p + 1)
  return payloads.flatMap ProductsPayload.products

/-- Every page is in an order that the `order by` allows. -/
def OrdersAllowed (matching : List (ProductRow F))
    (orders : Nat → List (ProductRow F) → List (ProductRow F)) : Prop :=
  ∀ page, Offset.Answer (ProductRow.moneyKey input.sort) matching
    (orders page matching)

/-- The listing is every matching product once, in the sort's order. -/
def PartitionsMatching (matching : List (ProductRow F))
    (orders : Nat → List (ProductRow F) → List (ProductRow F)) : Prop :=
  ∃ listed, moneyListing x products input orders = .ok listed
    ∧ listed.Perm matching
    ∧ listed.Pairwise fun r r' =>
        r.moneyKey input.sort ≤ r'.moneyKey input.sort

variable {x products input} {computed : ComputedFilters}

/-- The last page is far enough. -/
theorem length_le_lastPage (total : Nat) {limit : Nat} (h : 1 ≤ limit) :
    total ≤ lastPage total limit * limit := by
  unfold lastPage
  have hdiv := Nat.div_add_mod (total + limit - 1) limit
  have hmod := Nat.mod_lt (total + limit - 1) h
  rw [Nat.mul_comm] at hdiv
  omega

/-- The branch of a money sort, where no filter is refused. -/
theorem getProducts_money (hmode : input.cursorMode = none)
    (hcursor : input.cursor = none)
    (hcomputed : computeFilters x input = .ok computed) :
    getProducts x products input
      = .ok (offsetProducts x products input computed) := by
  unfold getProducts
  rw [hmode, hcursor, hcomputed]
  rfl

/-- A page is a window of the matching products in the order of its
request. -/
theorem moneyPage_eq {orders : Nat → List (ProductRow F) → List (ProductRow F)}
    (hmode : input.cursorMode = none) (hcursor : input.cursor = none)
    (hcomputed : computeFilters x input = .ok computed) (page : Nat) :
    moneyPage x products input orders page = .ok
      (offsetProducts { x with moneyOrder := fun _ => orders page } products
        { input with page := page } computed) :=
  getProducts_money hmode hcursor hcomputed

/-- Where no row fails the whole list comes through. -/
theorem mapM_ok {α β : Type} {f : α → Except Failure β} {g : α → β}
    (h : ∀ a, f a = .ok (g a)) (as : List α) :
    as.mapM f = .ok (as.map g) := by
  induction as with
  | nil => rfl
  | cons a as ih =>
      rw [List.mapM_cons, h, ih]
      rfl

/-- The listing is the offset pages of the answers: each request sorts the
same matching products by itself and shows its own window of them. -/
theorem moneyListing_eq
    {orders : Nat → List (ProductRow F) → List (ProductRow F)}
    (hmode : input.cursorMode = none) (hcursor : input.cursor = none)
    (hcomputed : computeFilters x input = .ok computed)
    (hlimit : 1 ≤ input.limit)
    (horders : OrdersAllowed input (moneyMatching x products input computed)
      orders) :
    moneyListing x products input orders = .ok
      (Offset.pages input.limit
        (lastPage (moneyMatching x products input computed).length
          input.limit)
        fun p => orders (p + 1)
          (moneyMatching x products input computed)) := by
  have htotal : lastPage (offsetProducts
        { x with moneyOrder := fun _ => orders 1 } products
        { input with page := 1 } computed).total input.limit
      = lastPage (moneyMatching x products input computed).length
          input.limit := by
    have hfirst : (offsetProducts
        { x with moneyOrder := fun _ => orders 1 } products
        { input with page := 1 } computed).total
        = if (Offset.page input.limit 0
            (orders 1 (moneyMatching x products input computed))).isEmpty
          then 0 else (moneyMatching x products input computed).length :=
      rfl
    rw [hfirst]
    split
    · next hempty =>
      -- an empty first page is an empty listing
      have hnil : moneyMatching x products input computed = [] := by
        rw [← List.length_eq_zero_iff, ← (horders 1).perm.length_eq]
        rw [List.isEmpty_iff, Offset.page, Nat.zero_mul, List.drop_zero,
          List.take_eq_nil_iff] at hempty
        rcases hempty with h | h
        · omega
        · rw [h, List.length_nil]
      rw [hnil]
      rfl
    · rfl
  unfold moneyListing
  rw [moneyPage_eq hmode hcursor hcomputed]
  show ((List.range (lastPage _ input.limit)).mapM (fun p =>
      moneyPage x products input orders (p + 1)) >>= fun payloads =>
    Except.ok (payloads.flatMap ProductsPayload.products)) = _
  rw [htotal, mapM_ok fun p => moneyPage_eq hmode hcursor hcomputed (p + 1)]
  show Except.ok _ = _
  rw [Offset.pages, List.flatMap_map]
  rfl

/-- A boundary inside a group of equal prices shows a product twice, for
some choice of the database. -/
theorem exists_repeated_listing (hmode : input.cursorMode = none)
    (hcursor : input.cursor = none)
    (hcomputed : computeFilters x input = .ok computed)
    (hlimit : 1 ≤ input.limit) {p : Nat} (hpos : 0 < p * input.limit)
    (hsplit : Offset.Splits (ProductRow.moneyKey input.sort)
      (moneyMatching x products input computed) (p * input.limit)) :
    ∃ orders, OrdersAllowed input (moneyMatching x products input computed)
        orders
      ∧ ∃ listed, moneyListing x products input orders = .ok listed
        ∧ ¬ listed.Nodup := by
  have hcount := length_le_lastPage
    (moneyMatching x products input computed).length hlimit
  obtain ⟨answers, hanswers, hrepeated⟩ :=
    Offset.exists_repeated hlimit hcount hpos hsplit
  -- requests count pages from one
  have horders : OrdersAllowed input
      (moneyMatching x products input computed)
      fun page _ => answers (page - 1) := fun page => hanswers (page - 1)
  exact ⟨_, horders, _, moneyListing_eq hmode hcursor hcomputed hlimit horders,
    hrepeated⟩

/-- Whatever order the database chooses for each page, the pages are every
matching product once, just when no page boundary falls inside a group of
equal prices or discounts. -/
theorem money_pages_iff {F : Type} [LinearOrder F]
    {x : MarketplaceQueries F} {products : Table Listing.id}
    {input : MarketplaceSearchInput F} {computed : ComputedFilters}
    (hmode : input.cursorMode = none) (hcursor : input.cursor = none)
    (hcomputed : computeFilters x input = .ok computed)
    (hlimit : 1 ≤ input.limit) :
    (∀ orders,
        OrdersAllowed input (moneyMatching x products input computed)
          orders →
        PartitionsMatching x products input
          (moneyMatching x products input computed) orders)
      ↔ ∀ p, 0 < p * input.limit →
        p * input.limit
          < (moneyMatching x products input computed).length →
        ¬ Offset.Splits (ProductRow.moneyKey input.sort)
          (moneyMatching x products input computed) (p * input.limit) := by
  have hnodup : (moneyMatching x products input computed).Nodup :=
    (nodup_ids x products input computed Listing.joinedRatings).of_map _
  have hcount := length_le_lastPage
    (moneyMatching x products input computed).length hlimit
  constructor
  · intro hall p hpos _ hsplit
    obtain ⟨orders, horders, listed, hlisted, hrepeated⟩ :=
      exists_repeated_listing hmode hcursor hcomputed hlimit hpos hsplit
    obtain ⟨listed', hlisted', hperm, -⟩ := hall orders horders
    rw [hlisted] at hlisted'
    cases hlisted'
    exact hrepeated (hperm.nodup_iff.mpr hnodup)
  · intro hsplit orders horders
    have hanswers := fun p => horders (p + 1)
    exact ⟨_, moneyListing_eq hmode hcursor hcomputed hlimit horders,
      Offset.pages_perm hanswers hcount hsplit,
      Offset.pages_sorted hanswers hcount⟩

end Requests

-- ------------------------------------------------------- two equal prices

/-- The cheapest first, `limit` a page. -/
def cheapest (limit : Nat) : MarketplaceSearchInput Nat :=
  { plainSearch "" with q := none, limit := limit, sort := .price_asc }

/-- A listing with its rating. -/
def plainRow (id : Uuid) : ProductRow Nat :=
  ⟨plainListing id, ⟨0, 0, 0⟩,
    plainQueries.float (averageRating (plainListing id).joinedRatings)⟩

/-- Both listings match. -/
theorem cheapest_matching (limit : Nat) :
    moneyMatching plainQueries twoListings (cheapest limit)
        ⟨fun _ => true, none, none⟩ = [plainRow ⟨1⟩, plainRow ⟨2⟩] := by
  rfl

/-- A listing of a higher price. -/
def dearListing (id : Uuid) : Listing :=
  { plainListing id with priceCents := 200 }

/-- Two listings of one price and one of another. -/
def threeListings : Table Listing.id where
  rows := [plainListing ⟨1⟩, plainListing ⟨2⟩, dearListing ⟨3⟩]
  unique := by
    have h : [(⟨1⟩ : Uuid), ⟨2⟩, ⟨3⟩].Nodup := by decide
    exact h

/-- The third product is dearer. -/
theorem cheapest_three :
    moneyMatching plainQueries threeListings (cheapest 2)
        ⟨fun _ => true, none, none⟩
      = [plainRow ⟨1⟩, plainRow ⟨2⟩,
          { plainRow ⟨3⟩ with product := dearListing ⟨3⟩ }] := by
  rfl

/-- The first request gets the two cheapest in one order, the others in
the other order. -/
def swapsTies (page : Nat) (rows : List (ProductRow Nat)) : List (ProductRow Nat) :=
  match page, rows with
  | 1, a :: b :: rows => b :: a :: rows
  | _, rows => rows

/-- Two pages with the boundary between two prices, and a tie that the
database orders anew for the second one. -/
theorem two_pages_partition :
    PartitionsMatching plainQueries threeListings (cheapest 2)
      (moneyMatching plainQueries threeListings (cheapest 2)
        ⟨fun _ => true, none, none⟩) swapsTies := by
  refine (money_pages_iff rfl rfl rfl (by decide)).mpr ?_ _ ?_
  · rw [cheapest_three]
    rintro p hpos hlast ⟨v, hlow, hhigh⟩
    have hpos : 0 < p * 2 := hpos
    have hlast : p * 2 < 3 := hlast
    obtain rfl : p = 1 := by omega
    -- the keys of the three rows
    have hlow : [100, 100, 200].countP (fun key : Int => decide (key < v)) < 2 :=
      hlow
    have hhigh : 2 < [100, 100, 200].countP fun key : Int => decide (key ≤ v) :=
      hhigh
    by_cases hv : 100 < v
    · simp only [List.countP_cons, List.countP_nil, hv, decide_true,
        ↓reduceIte] at hlow
      omega
    · have hdear : ¬ 200 ≤ v := by omega
      simp only [List.countP_cons, List.countP_nil, hdear, decide_false,
        Bool.false_eq_true, ↓reduceIte] at hhigh
      split at hhigh
      · omega
      · omega
  · intro page
    rw [cheapest_three]
    unfold swapsTies
    split
    · next hrows =>
        cases hrows
        exact ⟨List.Perm.swap .., by
          simp [cheapest, ProductRow.moneyKey, plainRow, plainListing, dearListing]⟩
    · exact ⟨List.Perm.refl _, by
        simp [cheapest, ProductRow.moneyKey, plainRow, plainListing, dearListing]⟩

/-- With one product a page, two products of one price may be the same
product twice. -/
theorem equal_prices_repeat :
    ¬ ∀ orders, OrdersAllowed (cheapest 1)
        (moneyMatching plainQueries twoListings (cheapest 1)
          ⟨fun _ => true, none, none⟩) orders →
      PartitionsMatching plainQueries twoListings (cheapest 1)
        (moneyMatching plainQueries twoListings (cheapest 1)
          ⟨fun _ => true, none, none⟩) orders := by
  intro hall
  have hsplit : Offset.Splits (ProductRow.moneyKey (cheapest 1).sort)
      (moneyMatching plainQueries twoListings (cheapest 1)
        ⟨fun _ => true, none, none⟩) (1 * (cheapest 1).limit) := by
    rw [cheapest_matching]
    exact ⟨100, by decide, by decide⟩
  obtain ⟨orders, horders, listed, hlisted, hrepeated⟩ :=
    exists_repeated_listing rfl rfl rfl (by decide) (by decide) hsplit
  obtain ⟨listed', hlisted', hperm, -⟩ := hall orders horders
  rw [hlisted] at hlisted'
  cases hlisted'
  rw [cheapest_matching] at hperm
  refine hrepeated (hperm.nodup_iff.mpr ?_)
  have hids : ([plainRow ⟨1⟩, plainRow ⟨2⟩].map (·.product.id)).Nodup := by
    decide
  exact hids.of_map _

end Skrynia
