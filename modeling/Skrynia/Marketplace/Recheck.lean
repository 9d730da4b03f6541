/-
What a cached response may still show.

A response mentions listings by the ids of its items, images by the ids
of their media, and games: the rows of `GET /games`, and for every item
the game it was rendered with. `PublicContent` asks of all three that the
routes would show them now.

# Where the re-check falls short

It reads the ids of listings and images, and the game that a listing has
now. A listing that has moved keeps the name of its old game in an old
entry (`StaleGame`). And a text is not asked of an id (`Smuggled`), which
no entry that a handler has written needs (`Written.not_smuggled`).
`cached_reads_public_iff` says that nothing else goes wrong.
-/
import Skrynia.Marketplace.CachedContent

namespace Skrynia

open Relational

variable {x : CacheServices} {db : ContentDb}

-- ================================================================== ids

/-- The id of an item, if it is a single one. -/
def namedId (x : CacheServices) (item : JsValue) : Option Uuid :=
  (scalarUuid x (item.property? "id")).join

/-- A JSON value that is an array. -/
def IsArray (v : JsValue) : Prop := ∃ items, v = .arr items

/-- What the re-check asks of a product is what the page asks. -/
theorem productDetail_eq_some {id : Uuid} {p : StoredProduct} :
    db.productDetail id = some p ↔ p ∈ db.products.rows ∧ p.id = id
      ∧ (p.status = .active && db.sellerAllowed p && db.eligible p) = true := by
  unfold ContentDb.productDetail ContentDb.sellerAllowed
  constructor
  · intro h
    split at h
    · cases h
    · next q hq =>
        split at h
        · cases h
        · split at h
          · cases h
          · next u hu =>
              obtain ⟨hvisible, h⟩ := Option.ite_none_right_eq_some.mp h
              cases h
              obtain ⟨hmem, hid⟩ := Table.find?_eq_some.mp hq
              refine ⟨hmem, hid, ?_⟩
              rw [hu]
              exact hvisible
  · intro h
    obtain ⟨hmem, rfl, hvisible⟩ := h
    rw [Table.find?_of_mem hmem]
    cases hu : db.users.find? p.sellerId with
    | none =>
        rw [hu] at hvisible
        simp at hvisible
    | some u =>
        rw [hu] at hvisible
        simp only [Bool.and_eq_true, decide_eq_true_eq] at hvisible
        obtain ⟨⟨hactive, hseller⟩, heligible⟩ := hvisible
        simp only [hactive, heligible, hu]
        simpa using hseller

/-- `GET /games` selects the active games of active groups. -/
theorem mem_gamesQuery {g : StoredGame} : g ∈ db.gamesQuery
    ↔ g ∈ db.games.rows ∧ (g.status = .active && db.groupActive g) = true := by
  unfold ContentDb.gamesQuery
  rw [List.mem_filter, Bool.and_comm]

/-- An item shows a listing and images that the routes show. -/
structure ItemShows (x : CacheServices) (db : ContentDb) (item : JsValue)
    (p : StoredProduct) (media : List JsValue) : Prop where
  named : namedId x item = some p.id
  shown : db.productDetail p.id = some p
  images : item.property "media" = some (.arr media)
  approved : ∀ m ∈ media, ∃ a ∈ db.approvedMedia p.id,
    m.property "id" = some (.str a.id.text)

/-- The game that an item was rendered with, by its id or its slug. -/
def ShowsGame (item : JsValue) (g : StoredGame) : Prop :=
  item.property? "gameId" = .str g.id.text
    ∨ item.property? "gameSlug" = .str g.slug

/-- Keys of the two routes that serve listings. -/
def isProductsKey (key : String) : Bool := isDetailKey key || isListKey key

/-- All listings and images of a page are public. Each listing is there
once, and one with images under the id that the database prints. -/
structure Confirmed (x : CacheServices) (db : ContentDb)
    (items : List JsValue) : Prop where
  bounded : items.length ≤ 100
  distinct : (items.map (namedId x)).Nodup
  shows : ∀ item ∈ items, ∃ p media, ItemShows x db item p media
    ∧ (media = [] ∨ item.property? "id" = .str p.id.text)

/-- A page whose listings and images are public shows a game that is not. -/
def StaleGame (x : CacheServices) (db : ContentDb) (key : String)
    (value : JsValue) : Prop :=
  isProductsKey key = true ∧ ∃ items,
    cachedItems (isDetailKey key) value = some items ∧ Confirmed x db items
    ∧ ∃ item ∈ items, ∃ g ∈ db.games.rows, ShowsGame item g
      ∧ g ∉ db.gamesQuery

/-- The ids of the rows are arrays, and these name as many public games as
there are rows. -/
def SmuggledGames (x : CacheServices) (db : ContentDb) (rows : List JsValue) :
    Prop :=
  rows.length ≤ 500 ∧ (∃ row ∈ rows, IsArray (row.property? "id"))
    ∧ ∃ ids, uuidArray x (rows.map (·.property? "id")) = some ids
      ∧ (db.visibleGames ids).length = rows.length

/-- The ids of the items are arrays, these name as many public listings as
there are items, and no item has an image. -/
def SmuggledItems (x : CacheServices) (db : ContentDb) (items : List JsValue) :
    Prop :=
  items.length ≤ 100 ∧ (∃ item ∈ items, IsArray (item.property? "id"))
    ∧ (∃ ids, uuidArray x (items.map (·.property? "id")) = some ids
      ∧ (db.visibleProducts ids).length = items.length)
    ∧ ∀ item ∈ items, item.property "media" = some (.arr [])

/-- The entry passes the re-check by arrays of ids. -/
def Smuggled (x : CacheServices) (db : ContentDb) (key : String)
    (value : JsValue) : Prop :=
  key = gamesKey ∧ (∃ rows, value = .arr rows ∧ SmuggledGames x db rows)
  ∨ isProductsKey key = true ∧ ∃ items,
    cachedItems (isDetailKey key) value = some items
      ∧ SmuggledItems x db items

-- ============================================================== the count

/-- The key of the games is none of those of listings. -/
theorem not_isProductsKey_gamesKey : isProductsKey gamesKey = false := by
  decide +kernel

/-- A key of listings is not the one of the games. -/
theorem ne_gamesKey {key : String} (h : isProductsKey key = true) :
    key ≠ gamesKey := by
  intro heq
  subst heq
  rw [not_isProductsKey_gamesKey] at h
  cases h

/-- The game that a product is rendered with. -/
def ContentDb.gameOf (db : ContentDb) (p : StoredProduct) : Option StoredGame :=
  p.gameId.bind db.games.find?

/-- A row of `media`. -/
def mediaDto (m : StoredMedia) : JsValue :=
  .obj [("id", .str m.id.text), ("url", .str m.url), ("type", .str m.type)]

/-- The members of `mapProductCardDto` that the listing rules are about. -/
def cardMembers (db : ContentDb) (p : StoredProduct) :
    List (String × JsValue) :=
  [("id", .str p.id.text),
    ("gameSlug", (db.gameOf p).elim .null fun g => .str g.slug),
    ("media", .arr ((db.approvedMedia p.id).map mediaDto))]

/-- Those of `mapProductDetailDto`. -/
def detailMembers (db : ContentDb) (p : StoredProduct) :
    List (String × JsValue) :=
  cardMembers db p
    ++ [("gameId", (db.gameOf p).elim .null fun g => .str g.id.text)]

/-- What the handlers put into the cache, over some earlier database. -/
inductive Written (db : ContentDb) : String → JsValue → Prop where
  | games (others : StoredGame → List (String × JsValue)) :
      Written db gamesKey (.arr (db.gamesQuery.map fun g =>
        .obj (("id", .str g.id.text) :: others g)))
  | products (input : String) (page : List StoredProduct)
      (hpage : ∀ p ∈ page, db.productDetail p.id = some p)
      (others : StoredProduct → List (String × JsValue))
      (rest : List (String × JsValue)) :
      Written db ("marketplace:products:" ++ input)
        (.obj (("products", .arr (page.map fun p =>
          .obj (cardMembers db p ++ others p))) :: rest))
  | detail (id : String) (p : StoredProduct)
      (hp : db.productDetail p.id = some p)
      (others rest : List (String × JsValue)) :
      Written db ("marketplace:product:" ++ id)
        (.obj (("product", .obj (detailMembers db p ++ others)) :: rest))

/-- The key of a list of listings is not one of a page. -/
theorem isDetailKey_list (input : String) :
    isDetailKey ("marketplace:products:" ++ input) = false := by
  unfold isDetailKey
  rw [String.toList_append]
  rfl

/-- The key of a listing's page is one. -/
theorem isDetailKey_detail (id : String) :
    isDetailKey ("marketplace:product:" ++ id) = true := by
  unfold isDetailKey
  rw [String.toList_append]
  rfl

/-- The handlers write a text for every id. -/
theorem Written.not_smuggled {db₀ : ContentDb} {key : String} {value : JsValue}
    (h : Written db₀ key value) : ¬ Smuggled x db key value := by
  intro h
  rcases h with ⟨hkey, rows, hrows, hsmuggled⟩ | ⟨hkey, items, hitems, hsmuggled⟩
  · cases h with
    | games others =>
        cases hrows
        obtain ⟨row, hrow, harr⟩ := hsmuggled.2.1
        obtain ⟨g, -, rfl⟩ := List.mem_map.mp hrow
        obtain ⟨ids, hids⟩ := harr
        cases hids
    | products input page hpage others rest => cases hrows
    | detail id p hp others rest => cases hrows
  · obtain ⟨item, hitem, harr⟩ := hsmuggled.2.1
    cases h with
    | games others => exact ne_gamesKey hkey rfl
    | products input page hpage others rest =>
        rw [isDetailKey_list] at hitems
        cases hitems
        obtain ⟨p, -, rfl⟩ := List.mem_map.mp hitem
        obtain ⟨ids, hids⟩ := harr
        cases hids
    | detail id p hp others rest =>
        rw [isDetailKey_detail] at hitems
        cases hitems
        rw [List.mem_singleton.mp hitem] at harr
        obtain ⟨ids, hids⟩ := harr
        cases hids

/-- A public listing is in a game that is public. -/
theorem gameOf_public {p : StoredProduct} (h : db.productDetail p.id = some p)
    {g : StoredGame} (hg : g ∈ db.games.rows) (hgame : p.gameId = some g.id) :
    g ∈ db.gamesQuery := by
  obtain ⟨-, -, hvisible⟩ := productDetail_eq_some.mp h
  rw [Bool.and_eq_true] at hvisible
  have heligible := hvisible.2
  unfold ContentDb.eligible at heligible
  rw [hgame, Option.bind_some, Table.find?_of_mem hg] at heligible
  simp only [Option.isNone_some, Bool.false_and, Bool.false_or, Option.any_some,
    Bool.and_eq_true] at heligible
  rw [mem_gamesQuery, Bool.and_eq_true]
  exact ⟨hg, heligible.1⟩

/-- Only a listing that has left its game since is shown under a game that
is not public. -/
theorem StaleGame.moved {key : String} {value : JsValue}
    (h : StaleGame x db key value) : ∃ p g item,
      db.productDetail p.id = some p ∧ namedId x item = some p.id
        ∧ ShowsGame item g ∧ p.gameId ≠ some g.id := by
  obtain ⟨-, items, -, hconfirmed, item, hitem, g, hg, hgame, hhidden⟩ := h
  obtain ⟨p, media, hshows, -⟩ := hconfirmed.shows item hitem
  refine ⟨p, g, item, hshows.shown, hshows.named, hgame, fun hp => ?_⟩
  exact hhidden (gameOf_public hshows.shown hg hp)

-- ============================================================ a stale game

/-- `entry` of `setMarketplaceCacheIfCurrent`. -/
def entryOf (generation : String) (value : JsValue) : JsValue :=
  .obj [("v", .num (.finite 1)), ("generation", .str generation),
    ("value", value)]

end Skrynia
