/-
The search documents, their refresh function and the triggers that call
it, under READ COMMITTED.

A transaction changes one source row: POST /products inserts a product,
PATCH /products/:id updates one, and an update of a game, a category or a
section is a statement of its own. The trigger runs in the same
transaction. That of a catalog row first selects the products that use
the row; the refresh then reads all of them from the snapshot of its one
statement and writes their documents, each of which waits for the lock of
the document row. Any step of another transaction may come between any
two of these.

Of a document row everything is there but `refreshed_at`.
-/
import Mathlib.Data.List.Dedup
import Skrynia.Domain.Uuid
import Skrynia.Lib.Query
import Skrynia.Lib.Runs

namespace Skrynia

open Querying Stepping

-- ================================================================= text

/-- What PostgreSQL does with text. -/
structure TextSearch (V : Type) where
  /-- `unaccent('unaccent', …)`. -/
  unaccent : String → String
  lower : String → String
  /-- The class `[[:space:]]`. -/
  isSpace : Char → Bool
  /-- `to_tsvector('simple', …)`. -/
  toTsvector : String → V
  setweight : V → Char → V
  append : V → V → V
  /-- The order of texts under the collation. -/
  collate : String → String → Bool

namespace TextSearch

/-- The class `[_‐‑‒–—―-]`. -/
def isDash (c : Char) : Bool :=
  c.toNat ∈ [95, 8208, 8209, 8210, 8211, 8212, 8213, 45]

/-- `regexp_replace(…, '[…]+', ' ', 'g')`: one space for each run. -/
def replaceRuns (p : Char → Bool) (inRun : Bool) : List Char → List Char
  | [] => []
  | c :: l =>
      if p c then
        if inRun then replaceRuns p true l else ' ' :: replaceRuns p true l
      else c :: replaceRuns p false l

/-- `btrim`: spaces at both ends. -/
def btrim (l : List Char) : List Char :=
  ((l.dropWhile (· = ' ')).reverse.dropWhile (· = ' ')).reverse

variable {V : Type} (T : TextSearch V)

/-- `marketplace_search_normalize`. -/
def normalize (input : String) : String :=
  String.ofList <| btrim <| replaceRuns T.isSpace false <|
    replaceRuns isDash false (T.lower (T.unaccent input)).toList

/-- `array_agg(alias_value order by alias_value)` of the distinct
normalized aliases that are not empty. -/
def normalizeAliases (aliases : List String) : List String :=
  ((aliases.map T.normalize).dedup.filter (· ≠ "")).mergeSort T.collate

end TextSearch

-- ============================================================== sources

/-- The columns of a product that its document reads, and the foreign
keys. -/
structure ProductSource where
  categoryId : Uuid
  gameId : Option Uuid
  sectionId : Option Uuid
  title : String
  description : String
  productType : String
  server : Option String
  platform : Option String

/-- Those of a game. -/
structure GameSource where
  name : String
  aliases : List String

/-- Those of a category. -/
structure CategorySource where
  name : String
  aliases : List String

/-- Those of a section. -/
structure SectionSource where
  name : String

/-- The key of a source row. -/
inductive SourceKey where
  | product (id : Uuid)
  | game (id : Uuid)
  | category (id : Uuid)
  | gameSection (id : Uuid)
deriving DecidableEq

/-- The columns of that row. -/
def SourceKey.Row : SourceKey → Type
  | .product _ => ProductSource
  | .game _ => GameSource
  | .category _ => CategorySource
  | .gameSection _ => SectionSource

/-- The four source tables. -/
abbrev Sources := Store SourceKey SourceKey.Row

/-- A row of `source`. -/
structure SearchSource where
  title : String
  description : String
  gameName : String
  gameAliases : List String
  categoryName : String
  categoryAliases : List String
  sectionName : String
  productType : String
  server : String
  platform : String

/-- A query over source rows. -/
abbrev SourceQuery := Query SourceKey SourceKey.Row

/-- `left join games`. -/
def withGame {β : Type} (gameId : Option Uuid)
    (next : Option GameSource → SourceQuery β) : SourceQuery β :=
  match gameId with
  | none => next none
  | some id => .read (.game id) next

/-- `left join game_sections`. -/
def withSection {β : Type} (sectionId : Option Uuid)
    (next : Option SectionSource → SourceQuery β) : SourceQuery β :=
  match sectionId with
  | none => next none
  | some id => .read (.gameSection id) next

/-- `source`, for one product. -/
def sourceQuery (productId : Uuid) : SourceQuery (Option SearchSource) :=
  .read (.product productId) fun
    | none => .done none
    | some (p : ProductSource) => .read (.category p.categoryId) fun
      | none => .done none
      | some (c : CategorySource) =>
          withGame p.gameId fun g => withSection p.sectionId fun gs =>
            .done <| some
              { title := p.title
                description := p.description
                gameName := (g.map GameSource.name).getD ""
                gameAliases := (g.map GameSource.aliases).getD []
                categoryName := c.name
                categoryAliases := c.aliases
                sectionName := (gs.map SectionSource.name).getD ""
                productType := p.productType
                server := p.server.getD ""
                platform := p.platform.getD "" }

-- ============================================================ documents

/-- A row of the search documents. -/
structure SearchDocument (V : Type) where
  normalizedTitle : String
  normalizedDescription : String
  normalizedGameName : String
  normalizedGameAliases : List String
  normalizedCategoryName : String
  normalizedCategoryAliases : List String
  normalizedSectionName : String
  normalizedProductType : String
  normalizedServer : String
  normalizedPlatform : String
  documentText : String
  documentVector : V

namespace TextSearch

variable {V : Type} (T : TextSearch V)

/-- `concat_ws(' ', …)`, and `array_to_string(…, ' ')`. -/
def joined (texts : List String) : String := " ".intercalate texts

/-- `setweight(to_tsvector('simple', …), …)`. -/
def weighted (text : String) (weight : Char) : V :=
  T.setweight (T.toTsvector text) weight

/-- `normalized` and `documents`. -/
def document (s : SearchSource) : SearchDocument V :=
  let title := T.normalize s.title
  let description := T.normalize s.description
  let gameName := T.normalize s.gameName
  let gameAliases := T.normalizeAliases s.gameAliases
  let categoryName := T.normalize s.categoryName
  let categoryAliases := T.normalizeAliases s.categoryAliases
  let sectionName := T.normalize s.sectionName
  let productType := T.normalize s.productType
  let server := T.normalize s.server
  let platform := T.normalize s.platform
  { normalizedTitle := title
    normalizedDescription := description
    normalizedGameName := gameName
    normalizedGameAliases := gameAliases
    normalizedCategoryName := categoryName
    normalizedCategoryAliases := categoryAliases
    normalizedSectionName := sectionName
    normalizedProductType := productType
    normalizedServer := server
    normalizedPlatform := platform
    documentText := T.normalize <| joined
      [title, description, gameName, joined gameAliases, categoryName,
        joined categoryAliases, sectionName, productType, server, platform]
    documentVector := T.append
      (T.append
        (T.append (T.weighted title 'A')
          (T.weighted (joined [gameName, joined gameAliases]) 'A'))
        (T.weighted description 'B'))
      (T.weighted (joined [categoryName, joined categoryAliases, sectionName,
        productType, server, platform]) 'C') }

/-- What the refresh function computes for a product, if it is there. -/
def refreshed (productId : Uuid) (sources : Sources) :
    Option (SearchDocument V) :=
  ((sourceQuery productId).eval sources).map T.document

end TextSearch

-- ============================================================== updates

/-- What an UPDATE of a product sets of the columns of its trigger. -/
structure ProductChanges where
  categoryId : Option Uuid
  gameId : Option (Option Uuid)
  sectionId : Option (Option Uuid)
  title : Option String
  description : Option String
  productType : Option String
  server : Option (Option String)
  platform : Option (Option String)

namespace ProductChanges

variable (c : ProductChanges)

/-- The trigger looks at the columns set, not at their values. -/
def fires : Bool :=
  c.categoryId.isSome || c.gameId.isSome || c.sectionId.isSome
    || c.title.isSome || c.description.isSome || c.productType.isSome
    || c.server.isSome || c.platform.isSome

/-- A product with the changes. -/
def apply (p : ProductSource) : ProductSource where
  categoryId := c.categoryId.getD p.categoryId
  gameId := c.gameId.getD p.gameId
  sectionId := c.sectionId.getD p.sectionId
  title := c.title.getD p.title
  description := c.description.getD p.description
  productType := c.productType.getD p.productType
  server := c.server.getD p.server
  platform := c.platform.getD p.platform

end ProductChanges

/-- The same of a game or a category. -/
structure NameChanges where
  name : Option String
  aliases : Option (List String)

/-- The trigger fires if one of these columns is set. -/
def NameChanges.fires (c : NameChanges) : Bool :=
  c.name.isSome || c.aliases.isSome

-- =============================================================== system

/-- `FOR SHARE`, or the lock of an update and of `FOR UPDATE`. -/
inductive RowLock where
  | share
  | update
deriving DecidableEq

/-- Where a transaction is with its statement. -/
inductive RefreshPhase where
  | started
  /-- The trigger of a catalog row selects the products that use it. -/
  | selecting (k : SourceKey)
  | refreshing
  /-- The documents that the refresh has yet to write; with none left the
  statement is done. -/
  | upserting (pending : List Uuid)

/-- A transaction, with what it has computed. -/
structure SearchTx (V : Type) where
  phase : RefreshPhase
  /-- The source row that it changed. -/
  write : Option (Σ k : SourceKey, k.Row)
  /-- `product_ids`. -/
  targets : List Uuid
  /-- `documents`, as the refresh read them. -/
  computed : Uuid → Option (SearchDocument V)
  /-- The number of commits before the snapshot of the refresh. -/
  refreshedAt : Nat

/-- A transaction before its statement. -/
def SearchTx.begun {V : Type} : SearchTx V where
  phase := .started
  write := none
  targets := []
  computed := fun _ => none
  refreshedAt := 0

/-- What a transaction sees: what is committed, and its own change. -/
def SearchTx.view {V : Type} (tx : SearchTx V) (sources : Sources) : Sources :=
  match tx.write with
  | none => sources
  | some ⟨k, row⟩ => Function.update sources k (some row)

/-- The committed rows, and the transactions under way. -/
structure SearchSystem (V : Type) where
  sources : Sources
  documents : Uuid → Option (SearchDocument V)
  /-- The ids of all products, also of those not committed. -/
  ids : List Uuid
  commits : Nat
  /-- The commit that changed a source row last. -/
  changedAt : SourceKey → Nat
  locks : SourceKey → List (Nat × RowLock)
  documentLock : Uuid → Option Nat
  txs : Nat → SearchTx V

/-- The statements, in any order between transactions. -/
inductive SearchEvent where
  | lock (t : Nat) (k : SourceKey) (mode : RowLock)
  | insertProduct (t : Nat) (id : Uuid) (row : ProductSource)
  | updateProduct (t : Nat) (id : Uuid) (changes : ProductChanges)
  | updateGame (t : Nat) (id : Uuid) (changes : NameChanges)
  | updateCategory (t : Nat) (id : Uuid) (changes : NameChanges)
  | updateSection (t : Nat) (id : Uuid) (name : Option String)
  | select (t : Nat)
  | refresh (t : Nat)
  | upsert (t : Nat) (productId : Uuid)
  | commit (t : Nat)
  | rollback (t : Nat)

/-- The columns by which a product uses a catalog row. -/
def SourceKey.usedBy (k : SourceKey) (p : ProductSource) : Bool :=
  match k with
  | .product _ => false
  | .game id => p.gameId = some id
  | .category id => p.categoryId = id
  | .gameSection id => p.sectionId = some id

namespace SearchSystem

variable {V : Type} (s : SearchSystem V)

/-- A transaction goes on. -/
def setTx (t : Nat) (tx : SearchTx V) : SearchSystem V :=
  { s with txs := Function.update s.txs t tx }

/-- No other transaction has a lock that conflicts. -/
def mayLock (t : Nat) (k : SourceKey) (mode : RowLock) : Bool :=
  (s.locks k).all fun h => h.1 = t || mode = .share && h.2 = .share

/-- A row lock is taken. -/
def lockRow (t : Nat) (k : SourceKey) (mode : RowLock) : SearchSystem V :=
  { s with locks := Function.update s.locks k ((t, mode) :: s.locks k) }

/-- The locks of a transaction end with it. -/
def release (t : Nat) : SearchSystem V :=
  { s.setTx t .begun with
    locks := fun k => (s.locks k).filter fun h => h.1 ≠ t
    documentLock := fun p =>
      if s.documentLock p = some t then none else s.documentLock p }

/-- The foreign keys of a product. -/
def referenced (row : ProductSource) : Bool :=
  (s.sources (.category row.categoryId)).isSome
    && row.gameId.all (fun id => (s.sources (.game id)).isSome)
    && row.sectionId.all (fun id => (s.sources (.gameSection id)).isSome)

/-- The row is changed, and the trigger is next. -/
def written (t : Nat) (k : SourceKey) (row : k.Row) (targets : List Uuid)
    (phase : RefreshPhase) : SearchSystem V :=
  (s.lockRow t k .update).setTx t
    { SearchTx.begun with
      phase := phase
      write := some ⟨k, row⟩
      targets := targets }

/-- An explicit row lock, before the change. -/
def lock (t : Nat) (k : SourceKey) (mode : RowLock) : SearchSystem V :=
  match (s.txs t).phase with
  | .started => if s.mayLock t k mode then s.lockRow t k mode else s
  | _ => s

/-- A product is inserted. -/
def insertProduct (t : Nat) (id : Uuid) (row : ProductSource) :
    SearchSystem V :=
  match (s.txs t).phase with
  | .started =>
      if id ∈ s.ids then s
      else if s.referenced row then
        { s.written t (.product id) row [id] .refreshing with
          ids := id :: s.ids }
      else s.release t
  | _ => s

/-- An update that waits for the row lock, or finds no row, has no effect
yet. -/
def updateRow (t : Nat) (k : SourceKey)
    (update : k.Row → SearchSystem V) : SearchSystem V :=
  match (s.txs t).phase, s.sources k with
  | .started, some row => if s.mayLock t k .update then update row else s
  | _, _ => s

/-- An update that sets no column of a trigger. -/
def untriggered (t : Nat) (k : SourceKey) : SearchSystem V :=
  (s.lockRow t k .update).setTx t
    { SearchTx.begun with phase := .upserting [] }

/-- A product is updated, and its trigger fires if it is to. -/
def updateProduct (t : Nat) (id : Uuid) (changes : ProductChanges) :
    SearchSystem V :=
  s.updateRow t (.product id) fun (row : ProductSource) =>
    if changes.fires then
      if s.referenced (changes.apply row) then
        s.written t (.product id) (changes.apply row) [id] .refreshing
      else s.release t
    else s.untriggered t (.product id)

/-- The update of a catalog row. -/
def updateCatalogRow (t : Nat) (k : SourceKey) (fires : Bool)
    (apply : k.Row → k.Row) : SearchSystem V :=
  s.updateRow t k fun row =>
    if fires then s.written t k (apply row) [] (.selecting k)
    else s.untriggered t k

/-- A game is updated. -/
def updateGame (t : Nat) (id : Uuid) (changes : NameChanges) :
    SearchSystem V :=
  s.updateCatalogRow t (.game id) changes.fires fun (g : GameSource) =>
    (⟨changes.name.getD g.name, changes.aliases.getD g.aliases⟩ : GameSource)

/-- A category is updated. -/
def updateCategory (t : Nat) (id : Uuid) (changes : NameChanges) :
    SearchSystem V :=
  s.updateCatalogRow t (.category id) changes.fires fun (c : CategorySource) =>
    (⟨changes.name.getD c.name, changes.aliases.getD c.aliases⟩ :
      CategorySource)

/-- A section is updated. -/
def updateSection (t : Nat) (id : Uuid) (name : Option String) :
    SearchSystem V :=
  s.updateCatalogRow t (.gameSection id) name.isSome
    fun (gs : SectionSource) => (⟨name.getD gs.name⟩ : SectionSource)

/-- `select array_agg(p.id) … where p.game_id = new.id`, and the like. -/
def selected (sources : Sources) (k : SourceKey) : List Uuid :=
  s.ids.filter fun p =>
    ((sources (.product p)).map fun (row : ProductSource) =>
      k.usedBy row).getD false

/-- The trigger of a catalog row selects the products that use it. -/
def select (t : Nat) : SearchSystem V :=
  let tx := s.txs t
  match tx.phase with
  | .selecting k =>
      let targets := s.selected (tx.view s.sources) k
      s.setTx t { tx with
        targets := targets
        phase := if targets = [] then .upserting [] else .refreshing }
  | _ => s

/-- The snapshot of the refresh. -/
def refresh (T : TextSearch V) (t : Nat) : SearchSystem V :=
  let tx := s.txs t
  match tx.phase with
  | .refreshing =>
      s.setTx t { tx with
        computed := fun p =>
          if p ∈ tx.targets then T.refreshed p (tx.view s.sources) else none
        refreshedAt := s.commits
        phase := .upserting tx.targets }
  | _ => s

/-- `on conflict (product_id) do update`, after the wait for the row. -/
def upsert (t : Nat) (productId : Uuid) : SearchSystem V :=
  let tx := s.txs t
  match tx.phase with
  | .upserting pending =>
      if productId ∈ pending
          ∧ ∀ u ∈ s.documentLock productId, u = t then
        { s.setTx t { tx with
            phase := .upserting (pending.filter (· ≠ productId)) } with
          documentLock := Function.update s.documentLock productId (some t) }
      else s
  | _ => s

/-- A transaction commits: its row and its documents are there at once. -/
def commitTx (t : Nat) : SearchSystem V :=
  let tx := s.txs t
  { s.release t with
    sources := tx.view s.sources
    documents := fun p => (tx.computed p).or (s.documents p)
    commits := s.commits + 1
    changedAt := fun k =>
      match tx.write with
      | none => s.changedAt k
      | some w => if k = w.1 then s.commits + 1 else s.changedAt k }

/-- The commit, when nothing is left to upsert. -/
def commit (t : Nat) : SearchSystem V :=
  match (s.txs t).phase with
  | .started => s.release t
  | .upserting [] => s.commitTx t
  | _ => s

/-- One event. -/
def step (T : TextSearch V) : SearchSystem V → SearchEvent → SearchSystem V
  | s, .lock t k mode => s.lock t k mode
  | s, .insertProduct t id row => s.insertProduct t id row
  | s, .updateProduct t id changes => s.updateProduct t id changes
  | s, .updateGame t id changes => s.updateGame t id changes
  | s, .updateCategory t id changes => s.updateCategory t id changes
  | s, .updateSection t id name => s.updateSection t id name
  | s, .select t => s.select t
  | s, .refresh t => s.refresh T t
  | s, .upsert t productId => s.upsert t productId
  | s, .commit t => s.commit t
  | s, .rollback t => s.release t

end SearchSystem

-- ============================================================== backfill

/-- The catalog and the products at the end of the migration. -/
structure MigratedCatalog where
  sources : Sources
  ids : List Uuid
  listed : ∀ p, (sources (.product p)).isSome → p ∈ ids
  categorized : ∀ p (row : ProductSource), sources (.product p) = some row →
    (sources (.category row.categoryId)).isSome

/-- The backfill has refreshed every product. -/
def MigratedCatalog.backfilled {V : Type} (T : TextSearch V)
    (catalog : MigratedCatalog) : SearchSystem V where
  sources := catalog.sources
  documents := fun p => T.refreshed p catalog.sources
  ids := catalog.ids
  commits := 0
  changedAt := fun _ => 0
  locks := fun _ => []
  documentLock := fun _ => none
  txs := fun _ => .begun

end Skrynia
