/-
The relevance of search results.

`searchMatches` is the query that `buildMarketplaceSearchCtes` writes:
candidates from seven selects, and a tier for each by a `case`. What
PostgreSQL computes with trigrams and vectors is a parameter
(`SearchFunctions`), and so are `unaccent` and `lower` (`TextSearch`).

`documentedTier` is the order that the search is documented to have: the
number of the first condition that holds, with the title prefix taken
literally. The two agree except where the `LIKE` pattern of the prefix
test reads a title differently (`documented_order_iff`): for queries
with a percent sign or a backslash.
-/
import Skrynia.Lib.Like
import Skrynia.Marketplace.Pages
import Skrynia.Marketplace.SearchDocuments

namespace Skrynia

open Relational Keyset Like

-- ================================================================= tables

/-- What PostgreSQL computes for a normalized query. -/
structure SearchFunctions (V F : Type) where
  /-- `term % query`. -/
  similar : String → String → Bool
  similarity : String → String → F
  /-- `0`. -/
  zero : F
  /-- `vector @@ plainto_tsquery('simple', query)`. -/
  fullText : V → String → Bool
  /-- `ts_rank_cd`, of the same two. -/
  fullTextRank : V → String → F

/-- A row of `marketplace_search_documents`. -/
structure SearchDocumentRow (V : Type) where
  productId : Uuid
  document : SearchDocument V

/-- A row of `marketplace_product_search_terms`. -/
structure SearchTermRow where
  productId : Uuid
  term : String

/-- The two tables that the search reads. -/
structure SearchTables (V : Type) where
  documents : Table (SearchDocumentRow.productId (V := V))
  terms : List SearchTermRow

section Query

variable {V F : Type} (fns : SearchFunctions V F)
  (tables : SearchTables V) (normalized : String)

-- ================================================================== query

/-- `trigram_matches`, the products. -/
def trigramMatches : List Uuid :=
  ((tables.terms.filter fun t => fns.similar t.term normalized).map
    SearchTermRow.productId).dedup

/-- `coalesce(trigram_matches.trigram_similarity, 0)`. -/
def trigramSimilarity [LinearOrder F] (productId : Uuid) : F :=
  (((tables.terms.filter fun t => fns.similar t.term normalized
      && t.productId = productId).map
    fun t => fns.similarity t.term normalized).max?).getD fns.zero

/-- A select over the documents. -/
def selectDocuments (p : SearchDocument V → Bool) : List Uuid :=
  (tables.documents.rows.filter fun row => p row.document).map
    SearchDocumentRow.productId

/-- The union of seven selects. -/
def searchCandidateIds : List Uuid :=
  (selectDocuments tables (fun d => d.normalizedTitle = normalized)
    ++ selectDocuments tables (fun d =>
      likePrefix normalized.toList d.normalizedTitle.toList)
    ++ selectDocuments tables (fun d =>
      normalized ∈ d.normalizedGameAliases)
    ++ selectDocuments tables (fun d => d.normalizedGameName = normalized)
    ++ selectDocuments tables (fun d =>
      normalized ∈ d.normalizedCategoryAliases)
    ++ trigramMatches fns tables normalized
    ++ selectDocuments tables (fun d =>
      fns.fullText d.documentVector normalized)).dedup

/-- The `case` of `search_matches`. -/
def relevanceTier (row : SearchDocumentRow V) : Nat :=
  if row.document.normalizedTitle = normalized then 1
  else if likePrefix normalized.toList row.document.normalizedTitle.toList then 2
  else if normalized ∈ row.document.normalizedGameAliases then 3
  else if row.document.normalizedGameName = normalized then 4
  else if row.productId ∈ trigramMatches fns tables normalized
      ∨ normalized ∈ row.document.normalizedCategoryAliases then 5
  else 6

/-- `search_matches`. -/
def searchMatches [LinearOrder F] : List (Uuid × SearchMatch F) :=
  (searchCandidateIds fns tables normalized).filterMap fun id =>
    (tables.documents.find? id).map fun row =>
      (id, { relevanceTier := relevanceTier fns tables normalized row
             similarity := trigramSimilarity fns tables normalized id
             fullTextRank :=
               fns.fullTextRank row.document.documentVector normalized })

/-- The queries of the listing, with this search. -/
def MarketplaceQueries.withSearch [LinearOrder F] (x : MarketplaceQueries F)
    (T : TextSearch V) : MarketplaceQueries F :=
  { x with searchMatches := fun q id =>
      ((Skrynia.searchMatches fns tables (T.normalize q)).find? fun m =>
        decide (m.1 = id)).map Prod.snd }

-- ========================================================== documentation

/-- The documented conditions, in their order. -/
def documentedConditions (row : SearchDocumentRow V) : List Bool :=
  [decide (row.document.normalizedTitle = normalized),
    decide (normalized.toList <+: row.document.normalizedTitle.toList),
    decide (normalized ∈ row.document.normalizedGameAliases),
    decide (row.document.normalizedGameName = normalized),
    decide (∃ t ∈ tables.terms, t.productId = row.productId
        ∧ fns.similar t.term normalized = true)
      || decide (normalized ∈ row.document.normalizedCategoryAliases),
    fns.fullText row.document.documentVector normalized]

/-- The number of the first condition that holds, if one does. -/
def documentedTier (row : SearchDocumentRow V) : Option Nat :=
  ((documentedConditions fns tables normalized row).findIdx? id).map (· + 1)

/-- That of a product. -/
def documentedTierOf (productId : Uuid) : Option Nat :=
  (tables.documents.find? productId).bind
    (documentedTier fns tables normalized)

end Query

/-- No product stands before one of a smaller tier. -/
def TiersAscend {F : Type} (tierOf : Uuid → Option Nat)
    (rows : List (ProductRow F)) : Prop :=
  rows.Pairwise fun r r' => ∀ d ∈ tierOf r.product.id,
    ∀ d' ∈ tierOf r'.product.id, d ≤ d'

/-- The search for `q` is the documented one. -/
structure DocumentedOrder {V F : Type} [LinearOrder F] (T : TextSearch V)
    (fns : SearchFunctions V F) (tables : SearchTables V)
    (x : MarketplaceQueries F) (q : String) : Prop where
  /-- A document's product matches just when a condition holds. -/
  membership : ∀ row ∈ tables.documents.rows,
    (∃ m, (row.productId, m) ∈ searchMatches fns tables (T.normalize q))
      ↔ (documentedTier fns tables (T.normalize q) row).isSome
  /-- Its tier is the number of the first that does. -/
  tier : ∀ row ∈ tables.documents.rows, ∀ m,
    (row.productId, m) ∈ searchMatches fns tables (T.normalize q) →
    documentedTier fns tables (T.normalize q) row = some m.relevanceTier
  /-- Nothing else matches. -/
  documents : ∀ id m, (id, m) ∈ searchMatches fns tables (T.normalize q) →
    tables.documents.Has id
  /-- A page of results has such products only, in this order. -/
  page : ∀ products input payload, input.q = some q →
    getProducts (x.withSearch fns tables T) products input = .ok payload →
    (∀ r ∈ payload.products,
      (documentedTierOf fns tables (T.normalize q) r.product.id).isSome)
    ∧ TiersAscend (documentedTierOf fns tables (T.normalize q))
        payload.products
  /-- So do all pages together. -/
  pages : ∀ products input computed payloads, input.q = some q →
    ListsAll (x.withSearch fns tables T) products input computed .search
      payloads →
    TiersAscend (documentedTierOf fns tables (T.normalize q))
      (payloads.flatMap ProductsPayload.products)

section Proofs

variable {V F : Type} {fns : SearchFunctions V F}
  {tables : SearchTables V} {normalized : String}
  {row : SearchDocumentRow V} {id : Uuid} {m : SearchMatch F}

-- ================================================================ matches

/-- A product is a trigram candidate through one of its terms. -/
theorem mem_trigramMatches : id ∈ trigramMatches fns tables normalized
    ↔ ∃ t ∈ tables.terms, t.productId = id
      ∧ fns.similar t.term normalized = true := by
  simp only [trigramMatches, List.mem_dedup, List.mem_map, List.mem_filter]
  constructor
  · intro h
    obtain ⟨t, ⟨ht, hsimilar⟩, hid⟩ := h
    exact ⟨t, ht, hid, hsimilar⟩
  · intro h
    obtain ⟨t, ht, hid, hsimilar⟩ := h
    exact ⟨t, ⟨ht, hsimilar⟩, hid⟩

/-- A select finds the product of a document by that document. -/
theorem mem_selectDocuments (hrow : row ∈ tables.documents.rows)
    {p : SearchDocument V → Bool} :
    row.productId ∈ selectDocuments tables p ↔ p row.document = true := by
  unfold selectDocuments
  rw [List.mem_map]
  constructor
  · intro h
    obtain ⟨row', hrow', hid⟩ := h
    obtain ⟨hmem, hp⟩ := List.mem_filter.mp hrow'
    rwa [Table.eq_of_key_eq hmem hrow hid] at hp
  · intro hp
    exact ⟨row, List.mem_filter.mpr ⟨hrow, hp⟩, rfl⟩

/-- Being a candidate, by the document. -/
theorem mem_searchCandidateIds (hrow : row ∈ tables.documents.rows) :
    row.productId ∈ searchCandidateIds fns tables normalized
      ↔ row.document.normalizedTitle = normalized
        ∨ likePrefix normalized.toList
            row.document.normalizedTitle.toList = true
        ∨ normalized ∈ row.document.normalizedGameAliases
        ∨ row.document.normalizedGameName = normalized
        ∨ (row.productId ∈ trigramMatches fns tables normalized
          ∨ normalized ∈ row.document.normalizedCategoryAliases)
        ∨ fns.fullText row.document.documentVector normalized = true := by
  unfold searchCandidateIds
  simp only [List.mem_dedup, List.mem_append, mem_selectDocuments hrow,
    decide_eq_true_eq]
  tauto

/-- What the query returns for a product. -/
theorem mem_searchMatches [LinearOrder F] : (id, m) ∈ searchMatches fns tables normalized
    ↔ id ∈ searchCandidateIds fns tables normalized
      ∧ ∃ row, tables.documents.find? id = some row
        ∧ m = { relevanceTier := relevanceTier fns tables normalized row
                similarity := trigramSimilarity fns tables normalized id
                fullTextRank :=
                  fns.fullTextRank row.document.documentVector normalized } := by
  simp only [searchMatches, List.mem_filterMap, Option.map_eq_some_iff,
    Prod.mk.injEq]
  constructor
  · intro h
    obtain ⟨id', hid, row, hrow, rfl, rfl⟩ := h
    exact ⟨hid, row, hrow, rfl⟩
  · intro h
    obtain ⟨hid, row, hrow, rfl⟩ := h
    exact ⟨id, hid, row, hrow, rfl, rfl⟩

-- ================================================================== tiers

/-- The pattern reads the title as the literal test does, or the title is
the query itself. -/
def ReadLiterally (normalized : String) (row : SearchDocumentRow V) : Prop :=
  row.document.normalizedTitle = normalized
    ∨ (likePrefix normalized.toList row.document.normalizedTitle.toList = true
      ↔ normalized.toList <+: row.document.normalizedTitle.toList)

/-- What the query makes of a document: its tier if it is a candidate. -/
theorem documentedTier_eq (h : ReadLiterally normalized row)
    (hrow : row ∈ tables.documents.rows) :
    documentedTier fns tables normalized row
      = if row.productId ∈ searchCandidateIds fns tables normalized then
          some (relevanceTier fns tables normalized row)
        else none := by
  have hcandidate : row.productId ∈ searchCandidateIds fns tables normalized
      ↔ _ := mem_searchCandidateIds hrow
  have htrigram : row.productId ∈ trigramMatches fns tables normalized ↔ _ :=
    mem_trigramMatches
  unfold documentedTier documentedConditions relevanceTier
  rw [if_congr hcandidate rfl rfl]
  simp only [← htrigram]
  by_cases htitle : row.document.normalizedTitle = normalized
  · simp [htitle, List.findIdx?_cons]
  · have hlike := h.resolve_left htitle
    by_cases hprefix : normalized.toList
        <+: row.document.normalizedTitle.toList
    · simp [htitle, hprefix, hlike.mpr hprefix, List.findIdx?_cons]
    · have hno : likePrefix normalized.toList
          row.document.normalizedTitle.toList = false := by
        rw [Bool.eq_false_iff]
        exact fun hyes => hprefix (hlike.mp hyes)
      by_cases halias : normalized ∈ row.document.normalizedGameAliases
      · simp [htitle, hprefix, hno, halias, List.findIdx?_cons]
      · by_cases hname : row.document.normalizedGameName = normalized
        · simp [htitle, hprefix, hno, halias, hname, List.findIdx?_cons]
        · by_cases hfifth : row.productId
              ∈ trigramMatches fns tables normalized
              ∨ normalized ∈ row.document.normalizedCategoryAliases
          · simp [htitle, hprefix, hno, halias, hname, hfifth,
              List.findIdx?_cons]
          · by_cases hfull : fns.fullText row.document.documentVector
                normalized = true
            · simp [htitle, hprefix, hno, halias, hname, hfifth, hfull,
                List.findIdx?_cons]
            · simp [htitle, hprefix, hno, halias, hname, hfifth, hfull,
                List.findIdx?_cons]

/-- A product with a document is matched if it is a candidate. -/
theorem mem_searchMatches_of_row [LinearOrder F]
    (hrow : row ∈ tables.documents.rows) :
    (∃ m, (row.productId, m) ∈ searchMatches fns tables normalized)
      ↔ row.productId ∈ searchCandidateIds fns tables normalized := by
  constructor
  · intro h
    obtain ⟨m, hm⟩ := h
    exact (mem_searchMatches.mp hm).1
  · intro hcandidate
    exact ⟨_, mem_searchMatches.mpr
      ⟨hcandidate, row, Table.find?_of_mem hrow, rfl⟩⟩

/-- Its tier as the query computes it. -/
theorem relevanceTier_of_mem [LinearOrder F]
    (hrow : row ∈ tables.documents.rows)
    (hm : (row.productId, m) ∈ searchMatches fns tables normalized) :
    m.relevanceTier = relevanceTier fns tables normalized row := by
  obtain ⟨-, row', hrow', rfl⟩ := mem_searchMatches.mp hm
  rw [Table.find?_of_mem hrow, Option.some.injEq] at hrow'
  rw [hrow']

/-- The second tier by the pattern, and by the prefix. -/
theorem relevanceTier_eq_two : relevanceTier fns tables normalized row = 2
    ↔ row.document.normalizedTitle ≠ normalized
      ∧ likePrefix normalized.toList row.document.normalizedTitle.toList
        = true := by
  unfold relevanceTier
  by_cases htitle : row.document.normalizedTitle = normalized
  · simp [htitle]
  · by_cases hlike : likePrefix normalized.toList
        row.document.normalizedTitle.toList = true
    · simp [htitle, hlike]
    · rw [if_neg htitle, if_neg hlike]
      constructor
      · intro htwo
        split_ifs at htwo <;> omega
      · intro h
        exact absurd h.2 hlike

/-- The second tier: the title starts with the query and is not equal to
it. -/
theorem documentedTier_eq_two :
    documentedTier fns tables normalized row = some 2
      ↔ row.document.normalizedTitle ≠ normalized
        ∧ normalized.toList <+: row.document.normalizedTitle.toList := by
  unfold documentedTier documentedConditions
  by_cases htitle : row.document.normalizedTitle = normalized
  · simp [htitle, List.findIdx?_cons]
  · by_cases hprefix : normalized.toList
        <+: row.document.normalizedTitle.toList
    · simp [htitle, hprefix, List.findIdx?_cons]
    · rw [List.findIdx?_cons, List.findIdx?_cons]
      simp [htitle, hprefix]

/-- A title that the pattern misreads is in the second tier of one order
only. -/
theorem readLiterally_of_tier [LinearOrder F]
    (hrow : row ∈ tables.documents.rows)
    (hmember : (∃ m, (row.productId, m) ∈ searchMatches fns tables normalized)
      ↔ (documentedTier fns tables normalized row).isSome)
    (htier : ∀ m, (row.productId, m) ∈ searchMatches fns tables normalized →
      documentedTier fns tables normalized row = some m.relevanceTier) :
    ReadLiterally normalized row := by
  by_cases htitle : row.document.normalizedTitle = normalized
  · exact Or.inl htitle
  refine Or.inr ⟨?_, ?_⟩
  · intro hlike
    have hcandidate : row.productId
        ∈ searchCandidateIds fns tables normalized :=
      (mem_searchCandidateIds hrow).mpr (Or.inr (Or.inl hlike))
    obtain ⟨m, hm⟩ := (mem_searchMatches_of_row hrow).mpr hcandidate
    have htwo := htier m hm
    rw [relevanceTier_of_mem hrow hm,
      relevanceTier_eq_two.mpr ⟨htitle, hlike⟩] at htwo
    exact (documentedTier_eq_two.mp htwo).2
  · intro hprefix
    have htwo : documentedTier fns tables normalized row = some 2 :=
      documentedTier_eq_two.mpr ⟨htitle, hprefix⟩
    obtain ⟨m, hm⟩ := hmember.mpr (by rw [htwo]; rfl)
    have hsame := htier m hm
    rw [htwo, relevanceTier_of_mem hrow hm, Option.some.injEq] at hsame
    exact (relevanceTier_eq_two.mp hsame.symm).2

end Proofs

-- ================================================================ listings

section Listings

variable {V F : Type} [LinearOrder F] {T : TextSearch V}
  {fns : SearchFunctions V F} {tables : SearchTables V}
  {x : MarketplaceQueries F} {products : Table Listing.id}
  {input : MarketplaceSearchInput F} {computed : ComputedFilters}
  {q : String}

/-- A selected row carries the match of its product. -/
theorem mem_searchMatches_of_selected (hq : input.q = some q)
    {ratings : Listing → List Nat} {rows : List Listing} {r : ProductRow F}
    (h : r ∈ selectRows (x.withSearch fns tables T) input computed ratings
      rows) :
    (r.product.id, r.searchMatch)
      ∈ searchMatches fns tables (T.normalize q) := by
  obtain ⟨p, -, hr⟩ := List.mem_filterMap.mp h
  obtain ⟨m, hm, rfl⟩ := Option.map_eq_some_iff.mp hr
  unfold joinedMatch at hm
  rw [hq] at hm
  obtain ⟨⟨id, m'⟩, hfind, rfl⟩ := Option.map_eq_some_iff.mp hm
  have hid : id = p.id := by
    simpa only [decide_eq_true_eq] using List.find?_some hfind
  rw [← hid]
  exact List.mem_of_find?_eq_some hfind

/-- The order of the search goes by the tiers first. -/
theorem relevanceTier_le_of_searchKey_le {r r' : ProductRow F}
    (h : r'.searchKey ≤ r.searchKey) :
    r.searchMatch.relevanceTier ≤ r'.searchMatch.relevanceTier :=
  Prod.Lex.monotone_fst _ _ h

omit [LinearOrder F] in
/-- Rows in order of their relevance come tier by tier. -/
theorem tiersAscend_of_pairwise {rows : List (ProductRow F)}
    {tierOf : Uuid → Option Nat}
    (htier : ∀ r ∈ rows, tierOf r.product.id
      = some r.searchMatch.relevanceTier)
    (hrows : rows.Pairwise fun r r' =>
      r.searchMatch.relevanceTier ≤ r'.searchMatch.relevanceTier) :
    TiersAscend tierOf rows := by
  refine hrows.imp_of_mem ?_
  intro r r' hr hr' hle d hd d' hd'
  rw [htier r hr, Option.mem_some_iff] at hd
  rw [htier r' hr', Option.mem_some_iff] at hd'
  omega

/-- With a search term the handler answers with the search order. -/
theorem getProducts_search {payload : ProductsPayload F}
    (hq : input.q = some q) (h : getProducts x products input = .ok payload) :
    ∃ computed cursor,
      payload = cursorProducts x products input computed .search cursor := by
  have hmode : input.cursorMode = some .search := by
    rw [MarketplaceSearchInput.cursorMode, hq]
    rfl
  rw [getProducts, hmode] at h
  simp only at h
  split at h
  · cases h
  cases hcomputed : computeFilters x input with
  | error e =>
      rw [hcomputed] at h
      cases h
  | ok computed =>
      cases hcursor : decodeCursorOf x input .search with
      | error e =>
          rw [hcomputed, hcursor] at h
          cases h
      | ok cursor =>
          rw [hcomputed, hcursor] at h
          cases h
          exact ⟨computed, cursor, rfl⟩

/-- Where the pattern reads every title literally, the search is the
documented one. -/
theorem DocumentedOrder.of_readLiterally
    (h : ∀ row ∈ tables.documents.rows, ReadLiterally (T.normalize q) row) :
    DocumentedOrder T fns tables x q := by
  have hdocument : ∀ id m,
      (id, m) ∈ searchMatches fns tables (T.normalize q) →
      documentedTierOf fns tables (T.normalize q) id
        = some m.relevanceTier := by
    intro id m hm
    obtain ⟨hcandidate, row, hfind, rfl⟩ := mem_searchMatches.mp hm
    have hrow := Table.mem_of_find? hfind
    rw [documentedTierOf, hfind, Option.bind_some,
      documentedTier_eq (h row hrow) hrow, Table.key_of_find? hfind,
      if_pos hcandidate]
  constructor
  · intro row hrow
    rw [mem_searchMatches_of_row hrow, documentedTier_eq (h row hrow) hrow]
    split <;> simp_all
  · intro row hrow m hm
    rw [documentedTier_eq (h row hrow) hrow,
      if_pos (mem_searchMatches.mp hm).1, relevanceTier_of_mem hrow hm]
  · intro id m hm
    obtain ⟨-, row, hfind, -⟩ := mem_searchMatches.mp hm
    exact Table.has_iff.mpr ⟨row, hfind⟩
  · intro products input payload hq hpayload
    obtain ⟨computed, cursor, rfl⟩ := getProducts_search hq hpayload
    have htier : ∀ r ∈ (cursorProducts (x.withSearch fns tables T) products
        input computed .search cursor).products,
        documentedTierOf fns tables (T.normalize q) r.product.id
          = some r.searchMatch.relevanceTier := by
      intro r hr
      have hselected := mem_orderBy.mp (List.mem_of_mem_take hr)
      exact hdocument _ _ (mem_searchMatches_of_selected hq hselected)
    refine ⟨?_, tiersAscend_of_pairwise htier ?_⟩
    · intro r hr
      rw [htier r hr]
      rfl
    · refine ((orderBy_pairwise_le ProductRow.searchKey _).sublist
        (List.take_sublist _ _)).imp ?_
      intro r r' hle
      exact relevanceTier_le_of_searchKey_le hle
  · intro products input computed payloads hq hall
    refine tiersAscend_of_pairwise ?_ (hall.ordered.imp ?_)
    · intro r hr
      -- the second query changes the rating only
      obtain ⟨first, hfirst, rfl⟩ := List.mem_map.mp ((hall.complete r).mp hr)
      have hfound := mem_searchMatches_of_selected hq hfirst
      exact hdocument _ _ hfound
    · intro r r' hlt
      exact relevanceTier_le_of_searchKey_le (le_of_lt hlt)

end Listings

-- ================================================================ queries

section Normalized

/-- Replacing runs leaves characters that pass, and spaces. -/
theorem mem_replaceRuns {p : Char → Bool} {inRun : Bool} {l : List Char}
    {c : Char} (h : c ∈ TextSearch.replaceRuns p inRun l) :
    c = ' ' ∨ c ∈ l ∧ p c = false := by
  induction l generalizing inRun with
  | nil => simp [TextSearch.replaceRuns] at h
  | cons d l ih =>
      rw [TextSearch.replaceRuns] at h
      have hrest : ∀ {inRun : Bool}, c ∈ TextSearch.replaceRuns p inRun l →
          c = ' ' ∨ c ∈ d :: l ∧ p c = false := by
        intro inRun hc
        rcases ih hc with hspace | ⟨hmem, hno⟩
        · exact Or.inl hspace
        · exact Or.inr ⟨List.mem_cons_of_mem d hmem, hno⟩
      by_cases hd : p d = true
      · rw [if_pos hd] at h
        split at h
        · exact hrest h
        · rcases List.mem_cons.mp h with hspace | hc
          · exact Or.inl hspace
          · exact hrest hc
      · rw [if_neg hd] at h
        rcases List.mem_cons.mp h with rfl | hc
        · exact Or.inr ⟨List.mem_cons_self, Bool.eq_false_iff.mpr hd⟩
        · exact hrest hc

/-- Trimming adds nothing. -/
theorem mem_of_mem_btrim {l : List Char} {c : Char}
    (h : c ∈ TextSearch.btrim l) : c ∈ l := by
  unfold TextSearch.btrim at h
  have hdrop := (List.dropWhile_suffix _).subset (List.mem_reverse.mp h)
  exact (List.dropWhile_suffix _).subset (List.mem_reverse.mp hdrop)

variable {V : Type} (T : TextSearch V) (q : String)

/-- Normalizing takes the underscores with the dashes. -/
theorem underscore_not_mem_normalize : '_' ∉ (T.normalize q).toList := by
  intro h
  unfold TextSearch.normalize at h
  rw [String.toList_ofList] at h
  rcases mem_replaceRuns (mem_of_mem_btrim h) with hspace | ⟨hmem, -⟩
  · exact absurd hspace (by decide)
  rcases mem_replaceRuns hmem with hspace | ⟨-, hdash⟩
  · exact absurd hspace (by decide)
  · exact absurd hdash (by decide)

/-- So only two characters are left that a pattern reads differently. -/
theorem readLiterally_of_plain
    (hany : '%' ∉ (T.normalize q).toList)
    (hescape : '\\' ∉ (T.normalize q).toList) (row : SearchDocumentRow V) :
    ReadLiterally (T.normalize q) row := by
  refine Or.inr (like_prefix_iff ?_)
  intro c hc
  refine ⟨?_, ?_, ?_⟩
  · intro heq
    subst heq
    exact hany hc
  · intro heq
    subst heq
    exact underscore_not_mem_normalize T q hc
  · intro heq
    subst heq
    exact hescape hc

end Normalized

/-- A document of a title alone. -/
def titleDocument {V : Type} (vector : V) (title : String) :
    SearchDocument V where
  normalizedTitle := title
  normalizedDescription := ""
  normalizedGameName := ""
  normalizedGameAliases := []
  normalizedCategoryName := ""
  normalizedCategoryAliases := []
  normalizedSectionName := ""
  normalizedProductType := ""
  normalizedServer := ""
  normalizedPlatform := ""
  documentText := title
  documentVector := vector

/-- One product with one title. -/
def titleTables {V : Type} (vector : V) (title : String) : SearchTables V where
  documents :=
    { rows := [⟨⟨1⟩, titleDocument vector title⟩]
      unique := List.nodup_singleton _ }
  terms := []

/-- The search has the documented order over given documents just when the
pattern of the query reads their titles literally, and over all documents
just when the query has neither a percent sign nor a backslash. -/
theorem documented_order_iff {V F : Type} [LinearOrder F] (T : TextSearch V)
    (fns : SearchFunctions V F) (x : MarketplaceQueries F) (q : String) :
    (∀ tables : SearchTables V, DocumentedOrder T fns tables x q
      ↔ ∀ row ∈ tables.documents.rows, ReadLiterally (T.normalize q) row)
    ∧ ((∀ tables : SearchTables V, DocumentedOrder T fns tables x q)
      ↔ '%' ∉ (T.normalize q).toList ∧ '\\' ∉ (T.normalize q).toList) := by
  have hiff : ∀ tables : SearchTables V, DocumentedOrder T fns tables x q
      ↔ ∀ row ∈ tables.documents.rows, ReadLiterally (T.normalize q) row := by
    intro tables
    constructor
    · intro h row hrow
      exact readLiterally_of_tier hrow (h.membership row hrow)
        (h.tier row hrow)
    · exact DocumentedOrder.of_readLiterally
  refine ⟨hiff, ?_, ?_⟩
  · intro h
    by_contra hspecial
    rw [not_and_or, not_not, not_not] at hspecial
    obtain ⟨title, hne, hlike, hprefix⟩ := exists_misread hspecial
    have hread := (hiff (titleTables (T.toTsvector "") (String.ofList title))).mp
      (h _) _ List.mem_cons_self
    have htitle : (titleDocument (T.toTsvector "")
        (String.ofList title)).normalizedTitle.toList = title :=
      String.toList_ofList
    rcases hread with heq | hread
    · refine hne ?_
      rw [← htitle]
      exact congrArg String.toList heq
    · rw [htitle] at hread
      exact hprefix (hread.mp hlike)
  · intro h tables
    exact (hiff tables).mpr fun row _ => readLiterally_of_plain T q h.1 h.2 row

-- ========================================================== a misread query

/-- Text without accents and upper-case letters. -/
def unaccentedText : TextSearch Unit where
  unaccent := id
  lower := id
  isSpace c := c = ' '
  toTsvector _ := ()
  setweight _ _ := ()
  append _ _ := ()
  collate a b := a ≤ b

/-- No term is similar to another, and no text holds a query. -/
def exactFunctions : SearchFunctions Unit Nat where
  similar term query := term = query
  similarity _ _ := 1
  zero := 0
  fullText _ _ := false
  fullTextRank _ _ := 0

/-- A search for "100%" finds "1000 gold" as if its title began so. -/
theorem percent_misread :
    searchMatches exactFunctions (titleTables () "1000 gold")
        (unaccentedText.normalize "100%") = [(⟨1⟩, ⟨2, 0, 0⟩)]
    ∧ documentedTierOf exactFunctions (titleTables () "1000 gold")
        (unaccentedText.normalize "100%") ⟨1⟩ = none
    ∧ ¬ DocumentedOrder unaccentedText exactFunctions
        (titleTables () "1000 gold") plainQueries "100%" := by
  have hmatches : searchMatches exactFunctions (titleTables () "1000 gold")
      (unaccentedText.normalize "100%") = [(⟨1⟩, ⟨2, 0, 0⟩)] := by
    decide +kernel
  have hnone : documentedTierOf exactFunctions (titleTables () "1000 gold")
      (unaccentedText.normalize "100%") ⟨1⟩ = none := by
    decide +kernel
  refine ⟨hmatches, hnone, ?_⟩
  intro h
  have hone : (⟨⟨1⟩, titleDocument () "1000 gold"⟩ : SearchDocumentRow Unit)
      ∈ (titleTables () "1000 gold").documents.rows :=
    List.mem_singleton_self _
  have hmember : ((⟨1⟩ : Uuid), (⟨2, 0, 0⟩ : SearchMatch Nat))
      ∈ searchMatches exactFunctions (titleTables () "1000 gold")
        (unaccentedText.normalize "100%") := by
    rw [hmatches]
    exact List.mem_singleton_self _
  have hsome : (documentedTier exactFunctions (titleTables () "1000 gold")
      (unaccentedText.normalize "100%")
      ⟨⟨1⟩, titleDocument () "1000 gold"⟩).isSome = true :=
    (h.membership _ hone).mp ⟨_, hmember⟩
  exact absurd hsome (by decide +kernel)

end Skrynia
