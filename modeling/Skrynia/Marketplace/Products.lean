/-
`GET /products`, the marketplace listing.

A first query collects the keys of all matching products, picks the ids
of one page of them and one row more; a second one selects these products
with everything that is shown. Both sort by `stableOrderBy`. The seller's
rating is computed in each: in the second over the join with favorites
and media, where every review appears several times. The quotient is the
same there, but PostgreSQL takes the number of its decimal places from the
dividend and the divisor (`quotientScale`), so `averageRating` may differ.

The cache in front of the queries is left out: over a fixed set of
products it answers what they would.
-/
import Skrynia.Common.MoneyText
import Skrynia.Marketplace.Cursor
import Mathlib.Data.Nat.Log
import Mathlib.Data.Rat.Defs
import Mathlib.Algebra.BigOperators.Group.List.Basic
import Mathlib.Algebra.Order.Ring.Rat

namespace Skrynia

open Relational Keyset

/-- A row of `games` and its group. -/
structure CatalogItem where
  id : Uuid
  slug : String
  active : Bool
  groupActive : Bool
deriving DecidableEq

/-- A section of a game in the catalog. -/
structure CatalogSection where
  id : Uuid
  slug : String
  gameId : Uuid
  active : Bool
deriving DecidableEq

/-- A row of `products` with what the listing joins to it. -/
structure Listing where
  id : Uuid
  status : ProductStatus
  stock : Nat
  sellerBanned : Bool
  categorySlug : String
  game : Option CatalogItem
  «section» : Option CatalogSection
  server : Option String
  platform : Option String
  deliveryType : DeliveryType
  productType : ProductType
  isHot : Bool
  isRecommended : Bool
  priceCents : Int
  oldPriceCents : Option Int
  salesCount : Nat
  createdAt : Micros
  metadata : Json
  /-- `rating` of the seller's reviews. -/
  ratings : List Nat
  /-- The number of its rows in `product_favorites`. -/
  favorites : Nat
  /-- The number of its approved media. -/
  media : Nat

/-- A row of `search_matches`. -/
structure SearchMatch (F : Type) where
  relevanceTier : Nat
  similarity : F
  fullTextRank : F
deriving DecidableEq

/-- A selected product with the columns of the sorts. Without a search
term there are no search columns, and nothing reads them. -/
structure ProductRow (F : Type) where
  product : Listing
  searchMatch : SearchMatch F
  sellerRating : F

/-- What the handler calls. `F` is `float8`. -/
structure MarketplaceQueries (F : Type) where
  localeCompare : String → String → Bool
  sha256 : String → String
  /-- `numeric::float`. -/
  float : ℚ → F
  /-- The number that a parameter's text shows. -/
  numeric : JsonNumber → ℚ
  lower : String → String
  /-- The match of a search term and a product, if it is a candidate. -/
  searchMatches : String → Uuid → Option (SearchMatch F)
  /-- The clauses of `meta` under the active schema of a section. -/
  metadataFilter : Option Uuid → List (String × Json) → Except String (Json → Bool)
  /-- A choice of the database among the orders that a money sort allows. -/
  moneyOrder : SearchSort → List (ProductRow F) → List (ProductRow F)

-- ================================================================ ratings

/-- The weight of the first digit of a whole `numeric`, to base 10000. -/
def numericWeight (n : Nat) : Nat := Nat.log 10000 n

/-- The first digit of `n` in base 10000, as `numeric` stores it. -/
def numericFirstDigit (n : Nat) : Nat := n / 10000 ^ numericWeight n

/-- The decimal places of a quotient of whole numerics: as many as sixteen
significant digits need, by an estimate of the quotient's weight that takes
the first digits of both. -/
def quotientScale (a b : Nat) : Nat :=
  let weight : Int := numericWeight a - numericWeight b
    - if numericFirstDigit a ≤ numericFirstDigit b then 1 else 0
  (min 1000 (max 0 (16 - 4 * weight))).toNat

/-- `numeric / numeric`, rounded at its scale with halves up. -/
def numericQuotient (a b : Nat) : ℚ :=
  ((2 * a * 10 ^ quotientScale a b + b) / (2 * b) : Nat)
    / (10 ^ quotientScale a b : Nat)

/-- `coalesce(avg(r.rating), 0)`. -/
def averageRating (ratings : List Nat) : ℚ :=
  if ratings = [] then 0 else numericQuotient ratings.sum ratings.length

/-- `r.rating` in the rows of the second query's join: a left join has a
row also where nothing matches. -/
def Listing.joinedRatings (p : Listing) : List Nat :=
  p.ratings.flatMap fun r => List.replicate (Nat.max 1 p.favorites * Nat.max 1 p.media) r

section Average

variable {ratings : List Nat} {k : Nat}

/-- Each rating `k` times over sums to `k` times the sum. -/
theorem sum_flatMap_replicate (ratings : List Nat) (k : Nat) :
    (ratings.flatMap fun r => List.replicate k r).sum = k * ratings.sum := by
  induction ratings with
  | nil => rfl
  | cons r ratings ih =>
      rw [List.flatMap_cons, List.sum_append, ih, List.sum_replicate_nat, List.sum_cons,
        Nat.mul_add]

/-- And there are `k` times as many. -/
theorem length_flatMap_replicate (ratings : List Nat) (k : Nat) :
    (ratings.flatMap fun r => List.replicate k r).length = k * ratings.length := by
  induction ratings with
  | nil => rfl
  | cons r ratings ih =>
      rw [List.flatMap_cons, List.length_append, ih, List.length_replicate,
        List.length_cons, Nat.mul_succ, Nat.add_comm]

/-- Repeating every review repeats the sum and the count, but the quotient
may get another scale. -/
theorem averageRating_flatMap_replicate (hk : 1 ≤ k) (hne : ratings ≠ []) :
    averageRating (ratings.flatMap fun r => List.replicate k r)
      = numericQuotient (k * ratings.sum) (k * ratings.length) := by
  have hjoined : (ratings.flatMap fun r => List.replicate k r) ≠ [] := by
    rw [← List.length_pos_iff, length_flatMap_replicate]
    exact Nat.mul_pos hk (List.length_pos_iff.mpr hne)
  rw [averageRating, if_neg hjoined, sum_flatMap_replicate, length_flatMap_replicate]

end Average

/-- The mean of the second query, from the reviews and the number of rows
that each is joined to. -/
theorem Listing.averageRating_joinedRatings (p : Listing) (hne : p.ratings ≠ []) :
    averageRating p.joinedRatings
      = numericQuotient (Nat.max 1 p.favorites * Nat.max 1 p.media * p.ratings.sum)
          (Nat.max 1 p.favorites * Nat.max 1 p.media * p.ratings.length) :=
  averageRating_flatMap_replicate
    (Nat.mul_pos (Nat.le_max_left 1 p.favorites) (Nat.le_max_left 1 p.media)) hne

-- ================================================================ filters

/-- `publicProductEligibilitySql`. -/
def Listing.eligible (p : Listing) : Bool :=
  p.game.isNone && p.section.isNone
    || p.game.any fun g => g.active && g.groupActive
      && (p.section.isNone || p.section.any fun s => s.gameId = g.id && s.active)

section Queries

variable {F : Type} (x : MarketplaceQueries F)

/-- The filters of a request that are computed before the query. -/
structure ComputedFilters where
  metadata : Json → Bool
  min : Option Int
  max : Option Int

/-- The metadata conditions of the request; they may fail to build. -/
def metadataFilter (input : MarketplaceSearchInput F) : Except Failure (Json → Bool) :=
  match input.metadata with
  | none | some [] => .ok fun _ => true
  | some entries =>
      if input.sectionId = none then
        .error (badRequest "sectionId is required when filtering by meta")
      else (x.metadataFilter input.sectionId entries).mapError badRequest

/-- A bound of the price filter in cents. -/
def priceBound (bound : Option String) : Except Failure (Option Int) :=
  match bound with
  | none => .ok none
  | some s => (MoneyText.moneyColumn s).map fun cents => some cents.val

/-- The filters that can fail, in the order of the handler. -/
def computeFilters (input : MarketplaceSearchInput F) : Except Failure ComputedFilters := do
  let metadata ← metadataFilter x input
  let min ← priceBound input.min
  let max ← priceBound input.max
  return { metadata := metadata, min := min, max := max }

/-- A text filter; an empty one is none. -/
def given (filter : Option String) : Option String := filter.filter (· ≠ "")

/-- The `where` of both queries. -/
def whereClause (input : MarketplaceSearchInput F) (computed : ComputedFilters)
    (p : Listing) : Bool :=
  p.status = .active
  && 0 < p.stock
  && !p.sellerBanned
  && p.eligible
  && (given input.category).all (p.categorySlug = ·)
  && (given input.game).all (fun slug => p.game.any (·.slug = slug))
  && (given input.section).all (fun slug => p.section.any (·.slug = slug))
  && input.sectionId.all (fun id => p.section.any (·.id = id))
  && computed.metadata p.metadata
  && (given input.server).all (fun s => x.lower (p.server.getD "") = x.lower s)
  && (given input.platform).all (fun s => x.lower (p.platform.getD "") = x.lower s)
  && input.deliveryType.all (p.deliveryType = ·)
  && input.productType.all (p.productType = ·)
  && input.hot.all (p.isHot = ·)
  && input.recommended.all (p.isRecommended = ·)
  && computed.min.all (· ≤ p.priceCents)
  && computed.max.all (p.priceCents ≤ ·)
  && (input.discountOnly ≠ some true || p.oldPriceCents.any (p.priceCents < ·))

/-- The `having` over a mean of the reviews. -/
def havingClause (input : MarketplaceSearchInput F) (average : ℚ) : Bool :=
  input.minRating.all (x.numeric · ≤ average)

-- ================================================================ queries

/-- The row of `search_matches` that is joined to a product. -/
def joinedMatch (input : MarketplaceSearchInput F) (p : Listing) :
    Option (SearchMatch F) :=
  match input.q with
  | none => some ⟨0, x.float 0, x.float 0⟩
  | some q => x.searchMatches q p.id

/-- One group a product: `ratings` is what the query's joins make of the
reviews. -/
def selectRows (input : MarketplaceSearchInput F) (computed : ComputedFilters)
    (ratings : Listing → List Nat) (products : List Listing) : List (ProductRow F) :=
  (products.filter fun p => whereClause x input computed p
    && havingClause x input (averageRating (ratings p))).filterMap fun p =>
      (joinedMatch x input p).map fun m => ⟨p, m, x.float (averageRating (ratings p))⟩

/-- The keys of all matching products. -/
def marketplacePage (products : Table Listing.id) (input : MarketplaceSearchInput F)
    (computed : ComputedFilters) : List (ProductRow F) :=
  selectRows x input computed Listing.ratings products.rows

end Queries

section Sorts

variable {F : Type}

/-- The key of `newest`: the time, then the id. -/
def ProductRow.newestKey (r : ProductRow F) : SortKey :=
  sortKey r.product.createdAt r.product.id

/-- The key of `sales`: the number of sales, then as `newest`. -/
def ProductRow.salesKey (r : ProductRow F) : Nat ×ₗ SortKey :=
  toLex (r.product.salesCount, r.newestKey)

/-- The key of `rating`: the seller's rating, then as `newest`. -/
def ProductRow.ratingKey (r : ProductRow F) : F ×ₗ SortKey :=
  toLex (r.sellerRating, r.newestKey)

/-- The tier and the id ascend. -/
def ProductRow.searchKey (r : ProductRow F) :
    Natᵒᵈ ×ₗ F ×ₗ F ×ₗ Nat ×ₗ Int ×ₗ Natᵒᵈ :=
  toLex (OrderDual.toDual r.searchMatch.relevanceTier, toLex (r.searchMatch.similarity,
    toLex (r.searchMatch.fullTextRank, toLex (r.product.salesCount,
      toLex (r.product.createdAt, OrderDual.toDual r.product.id.bits.toNat)))))

variable [LinearOrder F]

/-- `order by`, of the queries with a cursor. -/
def stableOrderBy (mode : MarketplaceCursorMode) (rows : List (ProductRow F)) :
    List (ProductRow F) :=
  match mode with
  | .newest => orderBy ProductRow.newestKey rows
  | .sales => orderBy ProductRow.salesKey rows
  | .rating => orderBy ProductRow.ratingKey rows
  | .search => orderBy ProductRow.searchKey rows

/-- Strictly before, in the order of a mode. -/
def ProductRow.Before (mode : MarketplaceCursorMode) (r r' : ProductRow F) : Prop :=
  match mode with
  | .newest => r'.newestKey < r.newestKey
  | .sales => r'.salesKey < r.salesKey
  | .rating => r'.ratingKey < r.ratingKey
  | .search => r'.searchKey < r.searchKey

/-- `marketplaceCursorWhere`: the rows behind the cursor in its own order. -/
def marketplaceCursorWhere (cursor : Option (MarketplaceCursor F)) (r : ProductRow F) :
    Prop :=
  match cursor with
  | none => True
  | some (.newest base createdAt) => r.newestKey < sortKey createdAt base.id
  | some (.sales base salesCount createdAt) =>
      r.salesKey < toLex (salesCount, sortKey createdAt base.id)
  | some (.rating base sellerRating createdAt) =>
      r.ratingKey < toLex (sellerRating, sortKey createdAt base.id)
  | some (.search base relevanceTier similarity fullTextRank salesCount createdAt) =>
      relevanceTier < r.searchMatch.relevanceTier
      ∨ r.searchMatch.relevanceTier = relevanceTier
        ∧ r.searchMatch.similarity < similarity
      ∨ r.searchMatch.relevanceTier = relevanceTier
        ∧ r.searchMatch.similarity = similarity
        ∧ r.searchMatch.fullTextRank < fullTextRank
      ∨ r.searchMatch.relevanceTier = relevanceTier
        ∧ r.searchMatch.similarity = similarity
        ∧ r.searchMatch.fullTextRank = fullTextRank
        ∧ r.product.salesCount < salesCount
      ∨ r.searchMatch.relevanceTier = relevanceTier
        ∧ r.searchMatch.similarity = similarity
        ∧ r.searchMatch.fullTextRank = fullTextRank
        ∧ r.product.salesCount = salesCount
        ∧ r.product.createdAt < createdAt
      ∨ r.searchMatch.relevanceTier = relevanceTier
        ∧ r.searchMatch.similarity = similarity
        ∧ r.searchMatch.fullTextRank = fullTextRank
        ∧ r.product.salesCount = salesCount
        ∧ r.product.createdAt = createdAt
        ∧ base.id.bits < r.product.id.bits

instance (cursor : Option (MarketplaceCursor F)) :
    DecidablePred (marketplaceCursorWhere cursor) := fun r =>
  match cursor with
  | none => inferInstanceAs (Decidable True)
  | some (.newest ..) => inferInstanceAs (Decidable (r.newestKey < _))
  | some (.sales ..) => inferInstanceAs (Decidable (r.salesKey < _))
  | some (.rating ..) => inferInstanceAs (Decidable (r.ratingKey < _))
  | some (.search ..) => inferInstanceAs (Decidable (_ ∨ _ ∧ _ ∨ _ ∧ _ ∧ _
      ∨ _ ∧ _ ∧ _ ∧ _ ∨ _ ∧ _ ∧ _ ∧ _ ∧ _ ∨ _ ∧ _ ∧ _ ∧ _ ∧ _ ∧ _))

end Sorts

/-- `marketplaceNextCursor`: the sort columns of the last row of the page. -/
def marketplaceNextCursor {F : Type} (binding : String) (mode : MarketplaceCursorMode)
    (row : ProductRow F) : MarketplaceCursor F :=
  let base : MarketplaceCursorBase := { binding := binding, id := row.product.id }
  match mode with
  | .newest => .newest base row.product.createdAt
  | .sales => .sales base row.product.salesCount row.product.createdAt
  | .rating => .rating base row.sellerRating row.product.createdAt
  | .search => .search base row.searchMatch.relevanceTier row.searchMatch.similarity
      row.searchMatch.fullTextRank row.product.salesCount row.product.createdAt

-- ================================================================ handler

/-- The answer, its products before they are mapped to cards. -/
structure ProductsPayload (F : Type) where
  products : List (ProductRow F)
  page : Nat
  limit : Nat
  total : Nat
  nextCursor : Option (MarketplaceCursorText F)

section Handler

variable {F : Type} [LinearOrder F] (x : MarketplaceQueries F)
  (products : Table Listing.id)

/-- The binding of the request's own filters. -/
def MarketplaceSearchInput.binding (input : MarketplaceSearchInput F) : String :=
  marketplaceCursorBinding x.localeCompare x.sha256 input

/-- The branch of a cursor mode. -/
def cursorProducts (input : MarketplaceSearchInput F) (computed : ComputedFilters)
    (mode : MarketplaceCursorMode) (cursor : Option (MarketplaceCursor F)) :
    ProductsPayload F :=
  let keys := marketplacePage x products input computed
  let ids := ((stableOrderBy mode (keys.filter fun r =>
    marketplaceCursorWhere cursor r)).take (input.limit + 1)).map (·.product.id)
  let result := stableOrderBy mode (selectRows x input computed Listing.joinedRatings
    (products.rows.filter (·.id ∈ ids)))
  let pageRows := result.take input.limit
  { products := pageRows
    page := 1
    limit := input.limit
    total := if pageRows.isEmpty then 0 else keys.length
    nextCursor := if input.limit < result.length then
        pageRows.getLast?.map fun row =>
          .json (marketplaceNextCursor (input.binding x) mode row)
      else none }

/-- The branch of a money sort. -/
def offsetProducts (input : MarketplaceSearchInput F) (computed : ComputedFilters) :
    ProductsPayload F :=
  let matching := selectRows x input computed Listing.joinedRatings products.rows
  let pageRows := ((x.moneyOrder input.sort matching).drop
    ((input.page - 1) * input.limit)).take input.limit
  { products := pageRows
    page := input.page
    limit := input.limit
    total := if pageRows.isEmpty then 0 else matching.length
    nextCursor := none }

/-- The cursor of the request, if it has one, checked against the mode. -/
def decodeCursorOf (input : MarketplaceSearchInput F) (mode : MarketplaceCursorMode) :
    Except Failure (Option (MarketplaceCursor F)) :=
  match input.cursor with
  | none => .ok none
  | some raw => (decodeMarketplaceCursor x.localeCompare x.sha256 raw input mode).map some

/-- `GET /products`. -/
def getProducts (input : MarketplaceSearchInput F) : Except Failure (ProductsPayload F) :=
  match input.cursorMode with
  | none => do
      if input.cursor.isSome then
        throw (badRequest "Cursor pagination is not available for money-based sorts")
      let computed ← computeFilters x input
      return offsetProducts x products input computed
  | some mode => do
      if input.page ≠ 1 then
        throw (badRequest "Use nextCursor instead of page for this marketplace sort")
      let computed ← computeFilters x input
      let cursor ← decodeCursorOf x input mode
      return cursorProducts x products input computed mode cursor

end Handler

end Skrynia
