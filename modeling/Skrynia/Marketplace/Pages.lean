/-
Following the cursors of `GET /products`.

`Resumes` says what makes a mode's cursors right: the `where` that a
cursor adds asks for the rows of a smaller sort key than the row it was
made of. For the search that is the six-level comparison against the
separately written `order by` (`search_resumes`).

The second query selects the rows of a page again and gives each its
seller's rating anew (`ProductRow.rejoined`), so a page of the handler is
a page that is sorted again, with a row of look-ahead
(`cursorProducts_eq`), and `Keyset.follow_rekeyedPage` and
`Keyset.Reads.aligned` apply. The pages list all just when no product is
lost by the second rating and, in the order of that rating, every page is
parted from what is behind it (`Resumes.paginated_iff`). The other orders
do not look at it.
-/
import Mathlib.Data.Int.Log
import Mathlib.Data.Rat.Floor
import Skrynia.Lib.Rekeyed
import Skrynia.Marketplace.Products

namespace Skrynia

open Relational Keyset

variable {F : Type} {x : MarketplaceQueries F} {products : Table Listing.id}
  {input : MarketplaceSearchInput F} {computed : ComputedFilters}
  {mode : MarketplaceCursorMode} {binding : String}

-- ============================================================ selected rows

/-- The row as the second query has it. -/
def ProductRow.rejoined (x : MarketplaceQueries F) (r : ProductRow F) :
    ProductRow F :=
  { r with sellerRating := x.float (averageRating r.product.joinedRatings) }

/-- The second query's `having`. -/
def ProductRow.kept (x : MarketplaceQueries F) (input : MarketplaceSearchInput F)
    (r : ProductRow F) : Bool :=
  havingClause x input (averageRating r.product.joinedRatings)

/-- A selected row is of a listing that the query's clauses let through. -/
theorem product_of_mem_selectRows {ratings : Listing → List Nat}
    {rows : List Listing} {r : ProductRow F}
    (h : r ∈ selectRows x input computed ratings rows) :
    r.product ∈ rows
      ∧ havingClause x input (averageRating (ratings r.product)) = true
      ∧ r.sellerRating = x.float (averageRating (ratings r.product)) := by
  obtain ⟨p, hp, hr⟩ := List.mem_filterMap.mp h
  obtain ⟨m, -, rfl⟩ := Option.map_eq_some_iff.mp hr
  obtain ⟨hmem, hclauses⟩ := List.mem_filter.mp hp
  rw [Bool.and_eq_true] at hclauses
  exact ⟨hmem, hclauses.2, rfl⟩

/-- Of listings that the first query selects, the second one selects those
that its own `having` keeps. -/
theorem selectRows_rejoined {rows : List Listing}
    (h : ∀ p ∈ rows, havingClause x input (averageRating p.ratings) = true) :
    selectRows x input computed Listing.joinedRatings rows
      = ((selectRows x input computed Listing.ratings rows).filter
          (ProductRow.kept x input)).map (ProductRow.rejoined x) := by
  induction rows with
  | nil => rfl
  | cons p rows ih =>
      have hp := h p List.mem_cons_self
      have ih := ih fun p' hp' => h p' (List.mem_cons_of_mem _ hp')
      unfold selectRows at ih ⊢
      cases hwhere : whereClause x input computed p with
      | false => simpa [hwhere] using ih
      | true =>
          cases hmatch : joinedMatch x input p with
          | none =>
              cases hkept : havingClause x input (averageRating p.joinedRatings) with
              | false => simpa [hwhere, hp, hmatch, hkept] using ih
              | true => simpa [hwhere, hp, hmatch, hkept] using ih
          | some m =>
              cases hkept : havingClause x input (averageRating p.joinedRatings) with
              | false =>
                  simpa [hwhere, hp, hmatch, hkept, ProductRow.kept] using ih
              | true =>
                  simpa [hwhere, hp, hmatch, hkept, ProductRow.kept,
                    ProductRow.rejoined] using ih

/-- Selecting among fewer products. -/
theorem selectRows_filter (ratings : Listing → List Nat) (rows : List Listing)
    (keep : Listing → Bool) :
    selectRows x input computed ratings (rows.filter keep)
      = (selectRows x input computed ratings rows).filter
          fun r => keep r.product := by
  rw [selectRows, selectRows, List.filter_filterMap, List.filter_comm,
    List.filterMap_filter]
  refine List.filterMap_congr ?_
  intro p _
  cases joinedMatch x input p with
  | none => split <;> rfl
  | some m =>
      by_cases hp : keep p
      · rw [if_pos hp]
        exact (Option.filter_some_pos (by simpa using hp)).symm
      · rw [if_neg hp]
        exact (Option.filter_some_neg (by simpa using hp)).symm

/-- What a partial map keeps, seen through what it leaves as it is, is a
sublist. -/
theorem filterMap_map_sublist {α β γ : Type} {f : α → Option β} {g : β → γ} {h : α → γ}
    (hf : ∀ a b, f a = some b → g b = h a) (l : List α) :
    ((l.filterMap f).map g).Sublist (l.map h) := by
  induction l with
  | nil => exact List.Sublist.refl []
  | cons a l ih =>
      cases hfa : f a with
      | none =>
          rw [List.filterMap_cons_none hfa]
          exact ih.cons _
      | some b =>
          rw [List.filterMap_cons_some hfa, List.map_cons, List.map_cons, hf a b hfa]
          exact ih.cons_cons _

/-- At most one row a product. -/
theorem nodup_ids (x : MarketplaceQueries F) (products : Table Listing.id)
    (input : MarketplaceSearchInput F) (computed : ComputedFilters)
    (ratings : Listing → List Nat) :
    ((selectRows x input computed ratings products.rows).map
      (·.product.id)).Nodup := by
  have hids := (products.unique.sublist (List.filter_sublist.map Listing.id) :
    ((products.rows.filter fun p => whereClause x input computed p
      && havingClause x input (averageRating (ratings p))).map Listing.id).Nodup)
  refine hids.sublist (filterMap_map_sublist ?_ _)
  intro p r hr
  obtain ⟨m, -, rfl⟩ := Option.map_eq_some_iff.mp hr
  rfl

-- ========================================================== failing filters

/-- A metadata filter that is refused is a bad request. -/
theorem metadataFilter_error {e : Failure} (h : metadataFilter x input = .error e) :
    ∃ message, e = badRequest message := by
  unfold metadataFilter at h
  split at h
  · cases h
  · cases h
  · split at h
    · cases h
      exact ⟨_, rfl⟩
    · cases hf : x.metadataFilter input.sectionId ‹_› with
      | error message =>
          rw [hf] at h
          cases h
          exact ⟨message, rfl⟩
      | ok filter =>
          rw [hf] at h
          cases h

/-- So is a bound on prices. -/
theorem priceBound_error {bound : Option String} {e : Failure}
    (h : priceBound bound = .error e) : ∃ message, e = badRequest message := by
  cases bound with
  | none => cases h
  | some s =>
      rw [priceBound] at h
      cases hc : MoneyText.moneyColumn s with
      | error e =>
          rw [hc] at h
          cases h
          exact MoneyText.moneyColumn_error hc
      | ok cents =>
          rw [hc] at h
          cases h

/-- A filter that fails is a bad request. -/
theorem computeFilters_error {e : Failure} (h : computeFilters x input = .error e) :
    ∃ message, e = badRequest message := by
  rw [computeFilters] at h
  cases hmeta : metadataFilter x input with
  | error e' =>
      rw [hmeta] at h
      cases h
      exact metadataFilter_error hmeta
  | ok metadata =>
      cases hmin : priceBound input.min with
      | error e' =>
          rw [hmeta, hmin] at h
          cases h
          exact priceBound_error hmin
      | ok min =>
          cases hmax : priceBound input.max with
          | error e' =>
              rw [hmeta, hmin, hmax] at h
              cases h
              exact priceBound_error hmax
          | ok max =>
              rw [hmeta, hmin, hmax] at h
              cases h

-- ================================================================== sort keys

section Modes

variable [LinearOrder F]

/-- A sort key that goes with the order and the cursors of a mode. -/
structure Resumes (mode : MarketplaceCursorMode) {γ : Type} [LinearOrder γ]
    (key : ProductRow F → γ) : Prop where
  sorts : ∀ rows, stableOrderBy mode rows = orderBy key rows
  before : ∀ r r' : ProductRow F, r.Before mode r' ↔ key r' < key r
  resume : ∀ binding last r,
    marketplaceCursorWhere (some (marketplaceNextCursor binding mode last)) r
      ↔ key r < key last
  product : ∀ r r', key r = key r' → r.product.id = r'.product.id

/-- The cursors of the newest order. -/
theorem newest_resumes : Resumes (F := F) .newest ProductRow.newestKey where
  sorts _ := rfl
  before _ _ := Iff.rfl
  resume _ _ _ := Iff.rfl
  product _ _ h := (sortKey_injective h).2

/-- Those of the order by sales. -/
theorem sales_resumes : Resumes (F := F) .sales ProductRow.salesKey where
  sorts _ := rfl
  before _ _ := Iff.rfl
  resume _ _ _ := Iff.rfl
  product _ _ h := (sortKey_injective (Prod.ext_iff.mp (toLex.injective h)).2).2

/-- Those of the order by rating. -/
theorem rating_resumes : Resumes (F := F) .rating ProductRow.ratingKey where
  sorts _ := rfl
  before _ _ := Iff.rfl
  resume _ _ _ := Iff.rfl
  product _ _ h := (sortKey_injective (Prod.ext_iff.mp (toLex.injective h)).2).2

/-- The six levels of the search cursor are the successors in the six
levels of the `order by`. -/
theorem search_resumes : Resumes (F := F) .search ProductRow.searchKey where
  sorts _ := rfl
  before _ _ := Iff.rfl
  resume binding last r := by
    rw [ProductRow.searchKey, ProductRow.searchKey]
    simp only [Prod.Lex.toLex_lt_toLex, OrderDual.toDual_lt_toDual, OrderDual.toDual_inj]
    show (last.searchMatch.relevanceTier < r.searchMatch.relevanceTier ∨ _) ↔ _
    rw [← BitVec.lt_def]
    tauto
  product r r' h := by
    simp only [ProductRow.searchKey, toLex_inj, Prod.mk.injEq, OrderDual.toDual_inj] at h
    obtain ⟨-, -, -, -, -, hid⟩ := h
    have hkeys : sortKey 0 r.product.id = sortKey 0 r'.product.id :=
      congrArg (fun n => toLex ((0 : Int), n)) hid
    exact (sortKey_injective hkeys).2

variable {γ : Type} [LinearOrder γ] {key : ProductRow F → γ}

/-- Products with different ids have different sort keys. -/
theorem Resumes.nodup (h : Resumes mode key) {rows : List (ProductRow F)}
    (hids : (rows.map (·.product.id)).Nodup) : (rows.map key).Nodup := by
  refine List.pairwise_map.mpr ((List.pairwise_map.mp hids).imp ?_)
  intro r r' hne hkey
  exact hne (h.product r r' hkey)

/-- The second query's keys tell the products apart as well. -/
theorem Resumes.nodup_rejoined (h : Resumes mode key) (x : MarketplaceQueries F)
    {rows : List (ProductRow F)} (hids : (rows.map (·.product.id)).Nodup) :
    (rows.map fun r => key (r.rejoined x)).Nodup := by
  refine List.pairwise_map.mpr ((List.pairwise_map.mp hids).imp ?_)
  intro r r' hne hkey
  have hid := h.product _ _ hkey
  exact hne hid

/-- The rows that the first query leaves in front of its `limit`. -/
theorem Resumes.rest_eq (h : Resumes mode key) {rows : List (ProductRow F)}
    (hids : (rows.map (·.product.id)).Nodup) (c : Option (ProductRow F)) :
    stableOrderBy mode (rows.filter fun r => marketplaceCursorWhere
        (c.map fun last => marketplaceNextCursor binding mode (last.rejoined x)) r)
      = rest (stableOrderBy mode rows)
          (fun c r => key r < key (c.rejoined x)) c := by
  rw [h.sorts, h.sorts]
  cases c with
  | none =>
      show orderBy key (rows.filter fun r => True) = orderBy key rows
      rw [decide_true, List.filter_true]
  | some last =>
      rw [rest, ← orderBy_filter (h.nodup hids)]
      refine congrArg (orderBy key) (List.filter_congr ?_)
      intro r _
      exact decide_eq_decide.mpr (h.resume binding (last.rejoined x) r)

/-- The second query, on the rows that the first one takes. -/
theorem Resumes.reselect (h : Resumes mode key)
    {taken : List (ProductRow F)}
    (htaken : taken.Sublist
      (stableOrderBy mode (marketplacePage x products input computed))) :
    stableOrderBy mode (selectRows x input computed Listing.joinedRatings
        (products.rows.filter (·.id ∈ taken.map (·.product.id))))
      = (orderBy (fun r => key (r.rejoined x))
          (taken.filter (ProductRow.kept x input))).map
            (ProductRow.rejoined x) := by
  have hids := nodup_ids x products input computed Listing.ratings
  rw [h.sorts] at htaken
  have hmem : ∀ r ∈ taken, r ∈ marketplacePage x products input computed :=
    fun r hr => mem_orderBy.mp (htaken.subset hr)
  have htakenIds : (taken.map (·.product.id)).Nodup :=
    (((orderBy_perm key _).map (·.product.id)).nodup_iff.mpr hids).sublist
      (htaken.map (·.product.id))
  have hhaving : ∀ p ∈ products.rows.filter (·.id ∈ taken.map (·.product.id)),
      havingClause x input (averageRating p.ratings) = true := by
    intro p hp
    obtain ⟨hrow, hid⟩ := List.mem_filter.mp hp
    obtain ⟨r, hr, hid⟩ := List.mem_map.mp (of_decide_eq_true hid)
    obtain ⟨hproduct, hclause, -⟩ := product_of_mem_selectRows (hmem r hr)
    rwa [List.inj_on_of_nodup_map products.unique hproduct hrow hid] at hclause
  rw [selectRows_rejoined hhaving, selectRows_filter, ← marketplacePage, h.sorts,
    orderBy_map]
  refine congrArg (List.map _) (orderBy_congr ?_ ?_ ?_)
  · exact h.nodup_rejoined x (htakenIds.sublist
      (List.filter_sublist.map fun r : ProductRow F => r.product.id))
  · exact h.nodup_rejoined x (hids.sublist
      ((List.filter_sublist.trans List.filter_sublist).map
        fun r : ProductRow F => r.product.id))
  · intro r
    simp only [List.mem_filter, decide_eq_true_iff]
    refine and_congr_left fun _ => ?_
    constructor
    · intro hr
      obtain ⟨r', hr', hid⟩ := List.mem_map.mp hr.2
      rwa [← List.inj_on_of_nodup_map hids (hmem r' hr') hr.1 hid]
    · intro hr
      exact ⟨hmem r hr, List.mem_map_of_mem hr⟩

-- =================================================================== pages

/-- The rows of the marketplace in the order of a mode. -/
def sortedRows (x : MarketplaceQueries F) (products : Table Listing.id)
    (input : MarketplaceSearchInput F) (computed : ComputedFilters)
    (mode : MarketplaceCursorMode) : List (ProductRow F) :=
  stableOrderBy mode (marketplacePage x products input computed)

/-- The cursor behind a row, as the handler writes it. -/
def cursorText (x : MarketplaceQueries F) (input : MarketplaceSearchInput F)
    (mode : MarketplaceCursorMode) (row : ProductRow F) : MarketplaceCursorText F :=
  .json (marketplaceNextCursor (input.binding x) mode row)

/-- What the handler makes of a page and the row of its cursor. -/
def payloadOf (x : MarketplaceQueries F) (products : Table Listing.id)
    (input : MarketplaceSearchInput F) (computed : ComputedFilters)
    (mode : MarketplaceCursorMode)
    (page : List (ProductRow F) × Option (ProductRow F)) : ProductsPayload F where
  products := page.1.map (ProductRow.rejoined x)
  page := 1
  limit := input.limit
  total := if page.1.isEmpty then 0
    else (marketplacePage x products input computed).length
  nextCursor := page.2.map fun row => cursorText x input mode (row.rejoined x)

/-- A page of the handler is a page that is sorted again. -/
theorem cursorProducts_eq (h : Resumes mode key) (c : Option (ProductRow F)) :
    cursorProducts x products input computed mode (c.map fun last =>
        marketplaceNextCursor (input.binding x) mode (last.rejoined x))
      = payloadOf x products input computed mode
          (rekeyedPage (sortedRows x products input computed mode) key
            (fun r => key (r.rejoined x)) (ProductRow.kept x input) input.limit
            c) := by
  have hids : ((marketplacePage x products input computed).map
      (·.product.id)).Nodup := nodup_ids x products input computed Listing.ratings
  have hsub : ((rest (sortedRows x products input computed mode)
      (fun c r => key r < key (c.rejoined x)) c).take (input.limit + 1)).Sublist
        (sortedRows x products input computed mode) :=
    (List.take_sublist _ _).trans (rest_sublist _ _ c)
  unfold cursorProducts payloadOf rekeyedPage
  simp only
  rw [h.rest_eq hids c, ← sortedRows, h.reselect hsub]
  simp only [← List.map_take, List.length_map, List.isEmpty_map, List.getLast?_map]
  congr 1
  split
  · rw [Option.map_map]
    rfl
  · rfl

-- ================================================================= requests

/-- One request of a client that repeats `input` with the cursors it is
given. -/
def productsPage (x : MarketplaceQueries F) (products : Table Listing.id)
    (input : MarketplaceSearchInput F) (cursor : Option (MarketplaceCursorText F)) :
    Except Failure (ProductsPayload F) × Option (MarketplaceCursorText F) :=
  let answer := getProducts x products { input with cursor := cursor }
  (answer, match answer with
    | .ok payload => payload.nextCursor
    | .error _ => none)

/-- The answers `payloads` list the matching products completely, each
once, in the order of the mode; `total` is their number. -/
structure ListsAll (x : MarketplaceQueries F) (products : Table Listing.id)
    (input : MarketplaceSearchInput F) (computed : ComputedFilters)
    (mode : MarketplaceCursorMode) (payloads : List (ProductsPayload F)) : Prop where
  ordered : (payloads.flatMap (·.products)).Pairwise (ProductRow.Before mode)
  complete : ∀ r, r ∈ payloads.flatMap (·.products)
    ↔ r ∈ (marketplacePage x products input computed).map (ProductRow.rejoined x)
  full : ∀ payload ∈ payloads.dropLast, payload.products.length = input.limit
  total : ∀ payload ∈ payloads,
    payload.total = (marketplacePage x products input computed).length

omit [LinearOrder F] in
/-- A cursor is read as the row that it was made of. -/
theorem decodeCursorOf_cursorText (c : Option (ProductRow F)) :
    decodeCursorOf x { input with cursor := c.map (cursorText x input mode) } mode
      = .ok (c.map (marketplaceNextCursor (input.binding x) mode)) := by
  cases c with
  | none => rfl
  | some row =>
      have hdecode : decodeMarketplaceCursor x.localeCompare x.sha256
          (cursorText x input mode row)
          { input with cursor := (some row).map (cursorText x input mode) } mode
          = .ok (marketplaceNextCursor (input.binding x) mode row) := by
        refine decodeMarketplaceCursor_eq_ok.mpr ⟨rfl, ?_, ?_⟩
        · cases mode <;> rfl
        · cases mode <;> rfl
      show Except.map some (decodeMarketplaceCursor _ _ (cursorText x input mode row) _ mode)
        = _
      rw [hdecode]
      rfl

/-- With filters and a cursor that are accepted the handler answers a
page. -/
theorem getProducts_eq_ok {cursor : Option (MarketplaceCursor F)}
    (hmode : input.cursorMode = some mode) (hpage : input.page = 1)
    (hcomputed : computeFilters x input = .ok computed)
    (hcursor : decodeCursorOf x input mode = .ok cursor) :
    getProducts x products input
      = .ok (cursorProducts x products input computed mode cursor) := by
  rw [getProducts, hmode]
  simp only [hpage, hcomputed, hcursor]
  rfl

/-- The handler takes a cursor of its own making. -/
theorem getProducts_cursorText (hmode : input.cursorMode = some mode)
    (hpage : input.page = 1) (hcomputed : computeFilters x input = .ok computed)
    (c : Option (ProductRow F)) :
    getProducts x products { input with cursor := c.map (cursorText x input mode) }
      = .ok (cursorProducts x products input computed mode
          (c.map (marketplaceNextCursor (input.binding x) mode))) :=
  getProducts_eq_ok hmode hpage hcomputed (decodeCursorOf_cursorText c)

/-- That page is a page of the sorted rows, sorted again by the second
query. -/
theorem productsPage_eq (h : Resumes mode key) (hmode : input.cursorMode = some mode)
    (hpage : input.page = 1) (hcomputed : computeFilters x input = .ok computed)
    (c : Option (ProductRow F)) :
    productsPage x products input
        (c.map fun last => cursorText x input mode (last.rejoined x))
      = (.ok (payloadOf x products input computed mode
            (rekeyedPage (sortedRows x products input computed mode) key
              (fun r => key (r.rejoined x)) (ProductRow.kept x input) input.limit c)),
          (rekeyedPage (sortedRows x products input computed mode) key
            (fun r => key (r.rejoined x)) (ProductRow.kept x input) input.limit
              c).2.map fun last => cursorText x input mode (last.rejoined x)) := by
  have hcursor : getProducts x products { input with
      cursor := c.map fun last => cursorText x input mode (last.rejoined x) }
      = .ok (cursorProducts x products input computed mode (c.map fun last =>
          marketplaceNextCursor (input.binding x) mode (last.rejoined x))) := by
    have hrows : ∀ {κ : Type} (f : ProductRow F → κ),
        (c.map fun last => f (last.rejoined x))
          = (c.map (ProductRow.rejoined x)).map f := by
      intro κ f
      rw [Option.map_map]
      rfl
    rw [hrows (cursorText x input mode),
      hrows (marketplaceNextCursor (input.binding x) mode)]
    exact getProducts_cursorText hmode hpage hcomputed _
  unfold productsPage
  rw [hcursor, cursorProducts_eq h c]
  rfl

/-- The requests of a client, as the reading of pages. -/
theorem follow_productsPage_eq (h : Resumes mode key)
    (hmode : input.cursorMode = some mode) (hpage : input.page = 1)
    (hcomputed : computeFilters x input = .ok computed) (fuel : Nat) :
    follow (productsPage x products input) fuel none
      = (follow (fun c => (rekeyedPage (sortedRows x products input computed mode) key
            (fun r => key (r.rejoined x)) (ProductRow.kept x input) input.limit c,
          (rekeyedPage (sortedRows x products input computed mode) key
            (fun r => key (r.rejoined x)) (ProductRow.kept x input) input.limit
              c).2)) fuel none).map
          (List.map fun page =>
            Except.ok (payloadOf x products input computed mode page)) :=
  follow_map (productsPage_eq h hmode hpage hcomputed) fuel none

section Sorted

variable (h : Resumes mode key)
include h

/-- The first query's rows are sorted by their keys. -/
theorem Resumes.sorted (x : MarketplaceQueries F) (products : Table Listing.id)
    (input : MarketplaceSearchInput F) (computed : ComputedFilters) :
    (sortedRows x products input computed mode).Pairwise
      fun a b => key b < key a := by
  rw [sortedRows, h.sorts]
  exact orderBy_pairwise
    (h.nodup (nodup_ids x products input computed Listing.ratings))

/-- They are the products that match. -/
theorem Resumes.mem_sortedRows {r : ProductRow F} :
    r ∈ sortedRows x products input computed mode
      ↔ r ∈ marketplacePage x products input computed := by
  rw [sortedRows, h.sorts, mem_orderBy]

/-- As many of them. -/
theorem Resumes.length_sortedRows :
    (sortedRows x products input computed mode).length
      = (marketplacePage x products input computed).length := by
  rw [sortedRows, h.sorts, length_orderBy]

/-- Each once. -/
theorem Resumes.nodup_sortedRows (x : MarketplaceQueries F)
    (products : Table Listing.id) (input : MarketplaceSearchInput F)
    (computed : ComputedFilters) :
    ((sortedRows x products input computed mode).map (·.product.id)).Nodup := by
  rw [sortedRows, h.sorts]
  exact ((orderBy_perm key _).map (·.product.id)).nodup_iff.mpr
    (nodup_ids x products input computed Listing.ratings)

/-- Pages that read the sorted rows, as the handler shows them. -/
theorem Resumes.listsAll
    {answers : List (List (ProductRow F) × Option (ProductRow F))}
    (hreads : Reads (sortedRows x products input computed mode)
      (fun r => key (r.rejoined x)) input.limit (answers.map Prod.fst))
    (hne : sortedRows x products input computed mode ≠ [] →
      ∀ rows ∈ answers.map Prod.fst, rows ≠ []) :
    ListsAll x products input computed mode
      (answers.map (payloadOf x products input computed mode)) := by
  have hrows : (answers.map (payloadOf x products input computed mode)).flatMap
      (·.products) = (answers.map Prod.fst).flatten.map (ProductRow.rejoined x) := by
    rw [List.flatMap_def, List.map_map, List.map_flatten, List.map_map]
    rfl
  constructor
  · rw [hrows, List.pairwise_map]
    refine hreads.ordered.imp ?_
    intro r r' hlt
    exact (h.before _ _).mpr hlt
  · intro r
    rw [hrows, List.mem_map, List.mem_map]
    refine exists_congr fun a => and_congr_left fun _ => ?_
    rw [hreads.complete, h.mem_sortedRows]
  · intro payload hp
    rw [← List.map_dropLast] at hp
    obtain ⟨page, hpage, rfl⟩ := List.mem_map.mp hp
    show (page.1.map _).length = _
    rw [List.length_map]
    refine hreads.full page.1 ?_
    rw [← List.map_dropLast]
    exact List.mem_map_of_mem hpage
  · intro payload hp
    obtain ⟨page, hpage, rfl⟩ := List.mem_map.mp hp
    show (if page.1.isEmpty then 0 else _) = _
    by_cases hempty : sortedRows x products input computed mode = []
    · have hlen : (marketplacePage x products input computed).length = 0 := by
        rw [← h.length_sortedRows, hempty]
        rfl
      rw [hlen, ite_self]
    · have hpage' := hne hempty page.1 (List.mem_map_of_mem hpage)
      rw [if_neg (by simpa using hpage')]

/-- The pages behind a complete listing read the sorted rows. -/
theorem Resumes.reads
    {answers : List (List (ProductRow F) × Option (ProductRow F))}
    (hshown : ∀ r ∈ (answers.map Prod.fst).flatten,
      r ∈ sortedRows x products input computed mode)
    (hlists : ListsAll x products input computed mode
      (answers.map (payloadOf x products input computed mode))) :
    Reads (sortedRows x products input computed mode)
      (fun r => key (r.rejoined x)) input.limit (answers.map Prod.fst) := by
  have hrows : (answers.map (payloadOf x products input computed mode)).flatMap
      (·.products) = (answers.map Prod.fst).flatten.map (ProductRow.rejoined x) := by
    rw [List.flatMap_def, List.map_map, List.map_flatten, List.map_map]
    rfl
  have hordered := hlists.ordered
  have hcomplete := hlists.complete
  rw [hrows] at hordered hcomplete
  constructor
  · refine (List.pairwise_map.mp hordered).imp ?_
    intro r r' hlt
    exact (h.before _ _).mp hlt
  · intro r
    refine ⟨hshown r, ?_⟩
    intro hr
    have hmem := (hcomplete (r.rejoined x)).mpr
      (List.mem_map_of_mem (h.mem_sortedRows.mp hr))
    obtain ⟨r', hr', heq⟩ := List.mem_map.mp hmem
    -- the same product is the same row of the first query
    have hid : (r'.rejoined x).product.id = (r.rejoined x).product.id := by
      rw [heq]
    rwa [← List.inj_on_of_nodup_map
      (h.nodup_sortedRows x products input computed) (hshown r' hr') hr hid]
  · intro rows hp
    rw [← List.map_dropLast] at hp
    obtain ⟨page, hpage, rfl⟩ := List.mem_map.mp hp
    have hfull := hlists.full (payloadOf x products input computed mode page) (by
      rw [← List.map_dropLast]
      exact List.mem_map_of_mem hpage)
    exact (List.length_map _).symm.trans hfull

/-- In every mode the cursors list all just when the second query keeps
every row and, in its order, parts every page from what is behind it. -/
theorem Resumes.paginated_iff (hmode : input.cursorMode = some mode)
    (hpage : input.page = 1) (hcomputed : computeFilters x input = .ok computed)
    (hlimit : 1 ≤ input.limit) :
    (∃ (fuel : Nat) (payloads : List (ProductsPayload F)),
      follow (productsPage x products input) fuel none = some (payloads.map .ok)
      ∧ ListsAll x products input computed mode payloads)
    ↔ (∀ r ∈ marketplacePage x products input computed, r.kept x input = true)
      ∧ Aligned (sortedRows x products input computed mode) key
        (fun r => key (r.rejoined x)) input.limit := by
  have hsorted := h.sorted x products input computed
  have hkeys := h.nodup_rejoined x (h.nodup_sortedRows x products input computed)
  constructor
  · rintro ⟨fuel, payloads, hfollow, hlists⟩
    rw [follow_productsPage_eq h hmode hpage hcomputed] at hfollow
    obtain ⟨answers, hanswers, hpayloads⟩ := Option.map_eq_some_iff.mp hfollow
    obtain rfl : answers.map (payloadOf x products input computed mode)
        = payloads := by
      have hok : Function.Injective
          (Except.ok : ProductsPayload F → Except Failure (ProductsPayload F)) :=
        fun _ _ h => Except.ok.inj h
      refine List.map_injective_iff.mpr hok ?_
      rw [← hpayloads, List.map_map]
      rfl
    have hpages := follow_forget hanswers
    have hreads := h.reads (fun r hr => by
      obtain ⟨rows, hrows, hmem⟩ := List.mem_flatten.mp hr
      refine follow_forall (P := fun rows => ∀ r ∈ rows,
        r ∈ sortedRows x products input computed mode) ?_ hpages rows hrows r hmem
      intro c r hr
      exact (rest_sublist _ _ c).subset (mem_rekeyedPage hr).1) hlists
    obtain ⟨hkept, haligned⟩ := hreads.aligned hsorted hkeys hlimit hpages
    exact ⟨fun r hr => hkept r (h.mem_sortedRows.mpr hr), haligned⟩
  · rintro ⟨hkept, haligned⟩
    obtain ⟨pages, hpages, hreads, hne⟩ := follow_rekeyedPage
      (fun r hr => hkept r (h.mem_sortedRows.mp hr)) hsorted hkeys hlimit haligned
      (Nat.lt_succ_self _)
    obtain ⟨answers, hanswers, rfl⟩ := follow_keep hpages
    refine ⟨(sortedRows x products input computed mode).length + 1,
      answers.map (payloadOf x products input computed mode), ?_,
      h.listsAll hreads hne⟩
    rw [follow_productsPage_eq h hmode hpage hcomputed, hanswers, Option.map_some,
      List.map_map]
    rfl

end Sorted

/-- Only the order of the ratings looks at the rating. -/
theorem follow_productsPage_iff (hmode : input.cursorMode = some mode)
    (hpage : input.page = 1) (hcomputed : computeFilters x input = .ok computed)
    (hlimit : 1 ≤ input.limit) :
    (∃ (fuel : Nat) (payloads : List (ProductsPayload F)),
      follow (productsPage x products input) fuel none = some (payloads.map .ok)
      ∧ ListsAll x products input computed mode payloads)
    ↔ (∀ r ∈ marketplacePage x products input computed, r.kept x input = true)
      ∧ (mode = .rating →
        Aligned (sortedRows x products input computed .rating) ProductRow.ratingKey
          (fun r => (r.rejoined x).ratingKey) input.limit) := by
  cases mode with
  | rating =>
      rw [rating_resumes.paginated_iff hmode hpage hcomputed hlimit]
      exact and_congr_right fun _ => ⟨fun h _ => h, fun h => h rfl⟩
  | newest =>
      rw [newest_resumes.paginated_iff hmode hpage hcomputed hlimit]
      exact and_congr_right fun _ => ⟨nofun, fun _ =>
        aligned_self hlimit (newest_resumes.sorted x products input computed)⟩
  | sales =>
      rw [sales_resumes.paginated_iff hmode hpage hcomputed hlimit]
      exact and_congr_right fun _ => ⟨nofun, fun _ =>
        aligned_self hlimit (sales_resumes.sorted x products input computed)⟩
  | search =>
      rw [search_resumes.paginated_iff hmode hpage hcomputed hlimit]
      exact and_congr_right fun _ => ⟨nofun, fun _ =>
        aligned_self hlimit (search_resumes.sorted x products input computed)⟩

-- ========================================================== foreign cursors

/-- A cursor in an answer is of the request's mode and filters. -/
theorem nextCursor_getProducts {payload : ProductsPayload F}
    {raw : MarketplaceCursorText F} (h : getProducts x products input = .ok payload)
    (hnext : payload.nextCursor = some raw) :
    ∃ mode row, input.cursorMode = some mode
      ∧ raw = .json (marketplaceNextCursor (input.binding x) mode row) := by
  rw [getProducts] at h
  cases hmode : input.cursorMode with
  | none =>
      simp only [hmode] at h
      split at h
      · cases h
      cases hcomputed : computeFilters x input with
      | error e =>
          rw [hcomputed] at h
          cases h
      | ok computed =>
          rw [hcomputed] at h
          cases h
          cases hnext
  | some mode =>
      simp only [hmode] at h
      split at h
      · cases h
      cases hcomputed : computeFilters x input with
      | error e =>
          rw [hcomputed] at h
          cases h
      | ok computed =>
          cases hcursor : decodeCursorOf x input mode with
          | error e =>
              rw [hcomputed, hcursor] at h
              cases h
          | ok cursor =>
              rw [hcomputed, hcursor] at h
              cases h
              obtain ⟨hmore, hlast⟩ := Option.ite_none_right_eq_some.mp hnext
              obtain ⟨row, -, rfl⟩ := Option.map_eq_some_iff.mp hlast
              exact ⟨mode, row, rfl, rfl⟩

/-- A cursor that the decoder refuses is a bad request. -/
theorem getProducts_refused {message : String} (hmode : input.cursorMode = some mode)
    (hcursor : decodeCursorOf x input mode = .error (badRequest message)) :
    ∃ message, getProducts x products input = .error (badRequest message) := by
  rw [getProducts, hmode]
  by_cases hpage : input.page ≠ 1
  · simp only [if_pos hpage]
    exact ⟨_, rfl⟩
  · simp only [if_neg hpage]
    cases hcomputed : computeFilters x input with
    | error e =>
        obtain ⟨message, rfl⟩ := computeFilters_error hcomputed
        exact ⟨message, rfl⟩
    | ok computed =>
        rw [hcursor]
        exact ⟨message, rfl⟩

/-- A cursor of another mode or of other filters is refused with a 400: a
cursor carries its mode and the hash of its filters, and equal hashes mean
the same filters. -/
theorem getProducts_foreign_cursor (hsha : Function.Injective x.sha256)
    {input' : MarketplaceSearchInput F} {products' : Table Listing.id}
    {payload : ProductsPayload F} {raw : MarketplaceCursorText F}
    (h : getProducts x products input = .ok payload)
    (hnext : payload.nextCursor = some raw)
    (hother : input'.cursorMode ≠ input.cursorMode
      ∨ ¬ Json.Same input.filters input'.filters) :
    ∃ message, getProducts x products' { input' with cursor := some raw }
      = .error (badRequest message) := by
  obtain ⟨mode, row, hmode, rfl⟩ := nextCursor_getProducts h hnext
  cases hmode' : input'.cursorMode with
  | none =>
      have hnone : MarketplaceSearchInput.cursorMode { input' with
        cursor := some (.json (marketplaceNextCursor (input.binding x) mode row)) }
          = none := hmode'
      rw [getProducts, hnone]
      exact ⟨_, rfl⟩
  | some mode' =>
      have hforeign : (marketplaceNextCursor (input.binding x) mode row).mode ≠ mode'
          ∨ (marketplaceNextCursor (input.binding x) mode row).base.binding
            ≠ input'.binding x := by
        have hcursor : (marketplaceNextCursor (input.binding x) mode row).mode = mode
            ∧ (marketplaceNextCursor (input.binding x) mode row).base.binding
              = input.binding x := by
          cases mode <;> exact ⟨rfl, rfl⟩
        rw [hcursor.1, hcursor.2]
        rcases hother with hne | hne
        · refine Or.inl ?_
          intro heq
          rw [hmode, hmode', heq] at hne
          exact hne rfl
        · refine Or.inr ?_
          intro heq
          exact hne (binding_same hsha heq)
      have hrefused : decodeCursorOf x { input' with
          cursor := some (.json (marketplaceNextCursor (input.binding x) mode row)) } mode'
          = .error (badRequest
            "Pagination cursor does not match marketplace filters or sort") := by
        have hdecode : decodeMarketplaceCursor x.localeCompare x.sha256
            (.json (marketplaceNextCursor (input.binding x) mode row)) { input' with
              cursor := some (.json (marketplaceNextCursor (input.binding x) mode row)) }
            mode' = _ := decodeMarketplaceCursor_foreign hforeign
        rw [decodeCursorOf]
        exact congrArg (Except.map some) hdecode
      exact getProducts_refused hmode' hrefused

/-- Following `nextCursor` lists the matching products completely, just
when the second query keeps all of them and, under the order of the
ratings, its own rating parts every page from what is behind it. A cursor
is good for its own mode and filters only. -/
theorem products_paginated_iff (x : MarketplaceQueries F)
    (hsha : Function.Injective x.sha256) :
    (∀ (products : Table Listing.id) (input : MarketplaceSearchInput F)
        (computed : ComputedFilters) (mode : MarketplaceCursorMode),
      input.cursorMode = some mode → input.page = 1 →
      computeFilters x input = .ok computed → 1 ≤ input.limit →
      ((∃ (fuel : Nat) (payloads : List (ProductsPayload F)),
          follow (productsPage x products input) fuel none
            = some (payloads.map .ok)
          ∧ ListsAll x products input computed mode payloads)
        ↔ (∀ r ∈ marketplacePage x products input computed,
            r.kept x input = true)
          ∧ (mode = .rating →
            Aligned (sortedRows x products input computed .rating)
              ProductRow.ratingKey (fun r => (r.rejoined x).ratingKey)
              input.limit)))
    ∧ ∀ (products products' : Table Listing.id) (input input' : MarketplaceSearchInput F)
        (payload : ProductsPayload F) (raw : MarketplaceCursorText F),
      getProducts x products input = .ok payload → payload.nextCursor = some raw →
      input'.cursorMode ≠ input.cursorMode ∨ ¬ Json.Same input.filters input'.filters →
      ∃ message, getProducts x products' { input' with cursor := some raw }
        = .error (badRequest message) := by
  constructor
  · intro products input computed mode hmode hpage hcomputed hlimit
    exact follow_productsPage_iff hmode hpage hcomputed hlimit
  · intro products products' input input' payload raw h hnext hother
    exact getProducts_foreign_cursor hsha h hnext hother

/-- Where both means of every product are one `float8`, the pages are
parted. -/
theorem aligned_of_same_means (hlimit : 1 ≤ input.limit)
    (h : ∀ p ∈ products.rows, x.float (averageRating p.joinedRatings)
      = x.float (averageRating p.ratings)) :
    Aligned (sortedRows x products input computed .rating) ProductRow.ratingKey
      (fun r => (r.rejoined x).ratingKey) input.limit := by
  refine aligned_of_eq hlimit (rating_resumes.sorted x products input computed) ?_
  intro r hr
  obtain ⟨hproduct, -, hrating⟩ :=
    product_of_mem_selectRows (rating_resumes.mem_sortedRows.mp hr)
  have hsame : (r.rejoined x).sellerRating = r.sellerRating :=
    (h r.product hproduct).trans hrating.symm
  unfold ProductRow.ratingKey
  rw [hsame]
  rfl

end Modes

/-- Queries on whole numbers, with a search that ranks all products alike. -/
def plainQueries : MarketplaceQueries Nat where
  localeCompare left right := left ≤ right
  sha256 := id
  float q := q.num.toNat
  numeric _ := 0
  lower := String.toLower
  searchMatches _ _ := some ⟨2, 1, 1⟩
  metadataFilter _ _ := .ok fun _ => true
  moneyOrder _ rows := rows

/-- A listing without a game. -/
def plainListing (id : Uuid) : Listing where
  id := id
  status := .active
  stock := 1
  sellerBanned := false
  categorySlug := "keys"
  game := none
  «section» := none
  server := none
  platform := none
  deliveryType := .manual
  productType := .key
  isHot := false
  isRecommended := false
  priceCents := 100
  oldPriceCents := none
  salesCount := 0
  createdAt := 0
  metadata := .obj []
  ratings := [5, 4]
  favorites := 2
  media := 3

/-- A search for a text, one product a page. -/
def plainSearch {F : Type} (q : String) : MarketplaceSearchInput F where
  page := 1
  limit := 1
  cursor := none
  q := some q
  category := none
  game := none
  «section» := none
  sectionId := none
  metadata := none
  server := none
  platform := none
  deliveryType := none
  productType := none
  hot := none
  recommended := none
  min := none
  max := none
  minRating := none
  discountOnly := none
  sort := .newest

/-- Two of them. -/
def twoListings : Table Listing.id where
  rows := [plainListing ⟨1⟩, plainListing ⟨2⟩]
  unique := by
    have h : [(⟨1⟩ : Uuid), ⟨2⟩].Nodup := by decide
    exact h

/-- The order of the ratings, without a search term. -/
def bestRated {F : Type} : MarketplaceSearchInput F :=
  { plainSearch "" with q := none, sort := .rating }

/-- Two products that tie in all columns but the id, read page by page in
the order of the ratings, and the cursor between them in another search. -/
theorem tiedProducts_paginated :
    (∃ (fuel : Nat) (payloads : List (ProductsPayload Nat)),
      follow (productsPage plainQueries twoListings bestRated) fuel none
        = some (payloads.map .ok)
      ∧ ListsAll plainQueries twoListings bestRated ⟨fun _ => true, none, none⟩
          .rating payloads)
    ∧ ∃ message, getProducts plainQueries twoListings
      { (plainSearch "coins" : MarketplaceSearchInput Nat) with
        cursor := some (cursorText plainQueries (plainSearch "gold") .search
          ⟨plainListing ⟨1⟩, ⟨2, 1, 1⟩, 4⟩) } = .error (badRequest message) := by
  have h := products_paginated_iff plainQueries fun _ _ h => h
  constructor
  · refine (h.1 twoListings bestRated _ .rating rfl rfl rfl (Nat.le_refl 1)).mpr
      ⟨fun _ _ => rfl, fun _ => aligned_of_same_means (Nat.le_refl 1) ?_⟩
    intro p hp
    rcases List.mem_pair.mp hp with rfl | rfl
    · decide +kernel
    · decide +kernel
  refine h.2 twoListings twoListings (plainSearch "gold") (plainSearch "coins") _ _
    rfl ?_ (Or.inr ?_)
  · decide +kernel
  · intro hsame
    have hfilters : ∀ q, (plainSearch q : MarketplaceSearchInput Nat).filters
        = .obj [("q", .str q), ("sort", .str "newest")] := fun _ => rfl
    rw [hfilters, hfilters] at hsame
    cases hsame with
    | obj hp h =>
        cases h with
        | cons hq _ =>
            cases hq with
            | mk hv =>
                cases hv
                have hmem := hp.mem_iff.mpr List.mem_cons_self
                simp at hmem

-- --------------------------------------------------------- an endless list

/-- The nearest double of a number that is not negative, ties to even. -/
def float8 (q : ℚ) : ℚ :=
  let unit : ℚ := 2 ^ (Int.log 2 q - 52)
  let below := ⌊q / unit⌋
  let part := q / unit - below
  if part < 1 / 2 ∨ part = 1 / 2 ∧ below % 2 = 0 then below * unit
  else (below + 1) * unit

/-- The database with doubles as they are. -/
def float8Queries : MarketplaceQueries ℚ where
  localeCompare left right := left ≤ right
  sha256 := id
  float := float8
  numeric _ := 0
  lower := String.toLower
  searchMatches _ _ := none
  metadataFilter _ _ := .ok fun _ => true
  moneyOrder _ rows := rows

/-- A product of a seller with nine reviews, which 278 users marked and
which has four images. -/
def popularListing (id : Uuid) : Listing :=
  { plainListing id with
    ratings := [2, 2, 1, 1, 1, 1, 1, 1, 1]
    favorites := 278
    media := 4 }

/-- Two products of that kind. -/
def popularListings : Table Listing.id where
  rows := [popularListing ⟨1⟩, popularListing ⟨2⟩]
  unique := by
    have h : [(⟨1⟩ : Uuid), ⟨2⟩].Nodup := by decide
    exact h

/-- The second query's rating is the next double. -/
theorem popular_raised (id : Uuid) :
    float8 (averageRating (popularListing id).ratings)
      < float8 (averageRating (popularListing id).joinedRatings) := by
  rw [Listing.averageRating_joinedRatings _ (List.cons_ne_nil _ _)]
  show float8 (averageRating [2, 2, 1, 1, 1, 1, 1, 1, 1])
    < float8 (numericQuotient (1112 * 11) (1112 * 9))
  decide +kernel

/-- Both of them match. -/
theorem popular_matching :
    (marketplacePage float8Queries popularListings bestRated
      ⟨fun _ => true, none, none⟩).length = 2 := by
  rfl

/-- The cursor of the first page sorts before both products of one seller,
so the first page comes again and again. -/
theorem popular_listed_forever :
    ¬ ∃ (fuel : Nat) (payloads : List (ProductsPayload ℚ)),
      follow (productsPage float8Queries popularListings bestRated) fuel none
        = some (payloads.map .ok)
      ∧ ListsAll float8Queries popularListings bestRated
          ⟨fun _ => true, none, none⟩ .rating payloads := by
  rw [follow_productsPage_iff rfl rfl rfl (Nat.le_refl 1)]
  rintro ⟨-, haligned⟩
  obtain ⟨r, hr, hcursor⟩ := (haligned rfl 0 (by
    rw [rating_resumes.length_sortedRows, popular_matching]
    decide)).cursor
  have hrow := List.mem_of_mem_drop (List.mem_of_mem_take hr)
  obtain ⟨hproduct, -, hrating⟩ :=
    product_of_mem_selectRows (rating_resumes.mem_sortedRows.mp hrow)
  have hraised : r.sellerRating < (r.rejoined float8Queries).sellerRating := by
    rw [hrating]
    rcases List.mem_pair.mp hproduct with h | h
    · rw [ProductRow.rejoined, h]
      exact popular_raised ⟨1⟩
    · rw [ProductRow.rejoined, h]
      exact popular_raised ⟨2⟩
  refine absurd (hcursor r hr) (not_le.mpr ?_)
  exact Prod.Lex.toLex_lt_toLex.mpr (.inl hraised)

end Skrynia
