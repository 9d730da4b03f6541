/-
What `readMarketplaceCache` returns.

Redis may hold an entry long after its invalidation was lost. So an entry
of the current generation is shown to the database first: as many games,
or listings, must be public as the entry has items, and every image that
an item shows must be an approved one of its listing.

# Ids

The ids of an entry are one parameter, a `uuid[]`. The driver writes an
array inside it as a nested one, and `= any(…)` looks into nested arrays
too (`uuidArray`). What the handlers write has a text for every id.

# The other side

`productDetail`, its approved media and `gamesQuery` are what the routes
show without the cache. `Marketplace/Recheck` compares the two.
-/
import Skrynia.Catalog.MetadataFilters
import Skrynia.Lib.Table
import Skrynia.Marketplace.Lots
import Skrynia.Marketplace.Products

namespace Skrynia

open Relational

-- =============================================================== database

/-- `product_media.status`. -/
inductive MediaStatus where
  | pending
  | approved
  | rejected
deriving DecidableEq

/-- A group, as far as it is read. -/
structure StoredGroup where
  id : Uuid
  status : CatalogStatus

/-- A game. -/
structure StoredGame where
  id : Uuid
  groupId : Uuid
  slug : String
  status : CatalogStatus

/-- A section. -/
structure StoredSection where
  id : Uuid
  gameId : Uuid
  status : CatalogStatus

/-- A seller. -/
structure StoredSeller where
  id : Uuid
  isBanned : Bool

/-- A product. -/
structure StoredProduct where
  id : Uuid
  sellerId : Uuid
  gameId : Option Uuid
  sectionId : Option Uuid
  status : ProductStatus

/-- An image. -/
structure StoredMedia where
  id : Uuid
  productId : Uuid
  url : String
  type : String
  status : MediaStatus

/-- The tables that the re-check reads. -/
structure ContentDb where
  groups : Table StoredGroup.id
  games : Table StoredGame.id
  sections : Table StoredSection.id
  users : Table StoredSeller.id
  products : Table StoredProduct.id
  media : Table StoredMedia.id

namespace ContentDb

variable (db : ContentDb)

/-- `join catalog_groups cg on cg.id = g.group_id and cg.status = 'active'`. -/
def groupActive (g : StoredGame) : Bool :=
  (db.groups.find? g.groupId).any (·.status = .active)

/-- `publicProductEligibilitySql`. -/
def eligible (p : StoredProduct) : Bool :=
  p.gameId.isNone && p.sectionId.isNone
    || (p.gameId.bind db.games.find?).any fun g =>
      g.status = .active && db.groupActive g
        && (p.sectionId.isNone
          || (p.sectionId.bind db.sections.find?).any fun s =>
            s.gameId = g.id && s.status = .active)

/-- A game as the listing joins it, with its group. -/
def catalogItem (g : StoredGame) : CatalogItem where
  id := g.id
  slug := g.slug
  active := g.status = .active
  groupActive := db.groupActive g

/-- A row of the listing shows the game and the section that a stored
product refers to; foreign keys have their rows. -/
structure ListedAs (p : StoredProduct) (l : Listing) : Prop where
  game : p.gameId = none ∧ l.game = none
    ∨ ∃ g, p.gameId.bind db.games.find? = some g ∧ l.game = some (db.catalogItem g)
  «section» : p.sectionId = none ∧ l.section = none
    ∨ ∃ s slug, p.sectionId.bind db.sections.find? = some s
      ∧ l.section = some ⟨s.id, slug, s.gameId, s.status = .active⟩

/-- The predicate on the listing's joined row is the one on the tables. -/
theorem ListedAs.eligible {db : ContentDb} {p : StoredProduct} {l : Listing}
    (h : db.ListedAs p l) : l.eligible = db.eligible p := by
  unfold Listing.eligible ContentDb.eligible
  rcases h.game with ⟨hp, hl⟩ | ⟨g, hp, hl⟩
  · rcases h.section with ⟨hps, hls⟩ | ⟨s, slug, hps, hls⟩
    · simp [hp, hl, hps, hls]
    · cases hid : p.sectionId with
      | none =>
          rw [hid] at hps
          cases hps
      | some id => simp [hp, hl, hls]
  · cases hgame : p.gameId with
    | none =>
        rw [hgame] at hp
        cases hp
    | some id =>
        rw [← hgame, hp, hl]
        rcases h.section with ⟨hps, hls⟩ | ⟨s, slug, hps, hls⟩
        · simp [hgame, hps, hls, catalogItem]
        · cases hid : p.sectionId with
          | none =>
              rw [hid] at hps
              cases hps
          | some sectionId =>
              rw [← hid, hps, hls]
              simp [hgame, hid, catalogItem]

-- ----------------------------------------------------------- the re-check

/-- The games of `where g.id = any($1::uuid[])` that are visible. -/
def visibleGames (ids : List (Option Uuid)) : List StoredGame :=
  db.games.rows.filter fun g =>
    some g.id ∈ ids && (g.status = .active && db.groupActive g)

/-- `join users u on u.id = p.seller_id`, `u.is_banned = false`. -/
def sellerAllowed (p : StoredProduct) : Bool :=
  (db.users.find? p.sellerId).any (!·.isBanned)

/-- The products of `where p.id = any($1::uuid[])` that are visible. -/
def visibleProducts (ids : List (Option Uuid)) : List StoredProduct :=
  db.products.rows.filter fun p =>
    some p.id ∈ ids
      && (p.status = .active && db.sellerAllowed p && db.eligible p)

/-- `left join product_media pm on pm.product_id = p.id and
pm.status = 'approved'`. -/
def approvedMedia (id : Uuid) : List StoredMedia :=
  db.media.rows.filter fun m => m.productId = id && m.status = .approved

/-- `GET /products/:id` without a viewer, past the cache: the product, or
`none` for a 404. The category is a foreign key. -/
def productDetail (id : Uuid) : Option StoredProduct :=
  match db.products.find? id with
  | none => none
  | some p =>
      if p.status = .deleted then none
      else
        match db.users.find? p.sellerId with
        | none => none
        | some u =>
            if p.status = .active && !u.isBanned && db.eligible p then some p
            else none

/-- The rows of `GET /games`, past the cache. -/
def gamesQuery : List StoredGame :=
  db.games.rows.filter fun g => db.groupActive g && g.status = .active

end ContentDb

-- ================================================================= values

namespace JsValue

/-- `value.name`; `none` is a TypeError. -/
def property (name : String) : JsValue → Option JsValue
  | undefined | null => none
  | obj members => some (memberOf name members)
  | _ => some .undefined

/-- `value?.name`. -/
def property? (name : String) (v : JsValue) : JsValue :=
  (v.property name).getD .undefined

end JsValue

/-- What the check calls. -/
structure CacheServices where
  /-- `JSON.parse`; `none` is a SyntaxError. -/
  parse : String → Option JsValue
  /-- The driver's text of a parameter that is not a string. -/
  print : JsValue → String

variable (x : CacheServices)

/-- An element of a `uuid[]` parameter that is no array. -/
def scalarUuid : JsValue → Option (Option Uuid)
  | .undefined | .null => some none
  | .arr _ => none
  | .str s => (Uuid.ofText s).map some
  | v => (Uuid.ofText (x.print v)).map some

/-- The dimensions of an array and its elements. -/
structure UuidArray where
  dims : List Nat
  elements : List (Option Uuid)

/-- Arrays as the elements of one: they must have the same dimensions. -/
def joinArrays : List UuidArray → Option UuidArray
  | [] => some ⟨[0], []⟩
  | a :: as =>
      if as.all (·.dims = a.dims) then
        some ⟨(as.length + 1) :: a.dims, (a :: as).flatMap (·.elements)⟩
      else none

mutual

/-- An element of the parameter: a text, or an array of elements. -/
def uuidElement : JsValue → Option UuidArray
  | .arr items => (uuidElements items).bind joinArrays
  | v => (scalarUuid x v).map fun e => ⟨[], [e]⟩

/-- All elements of an array. -/
def uuidElements : List JsValue → Option (List UuidArray)
  | [] => some []
  | v :: vs =>
      match uuidElement v, uuidElements vs with
      | some a, some as => some (a :: as)
      | _, _ => none

end

/-- `$1::uuid[]`: the elements, of up to six dimensions; `none` is an
error of the statement. -/
def uuidArray (items : List JsValue) : Option (List (Option Uuid)) :=
  ((uuidElements x items).bind joinArrays).bind fun a =>
    if a.dims.length ≤ 6 then some a.elements else none

-- ============================================================== the check

/-- `array.every`, over a predicate that may throw. -/
def every {α : Type} (p : α → Option Bool) : List α → Option Bool
  | [] => some true
  | a :: l =>
      match p a with
      | some true => every p l
      | result => result

/-- The key of `GET /games`. -/
def gamesKey : String := "marketplace:games"

/-- `key.startsWith("marketplace:product:")`. -/
def isDetailKey (key : String) : Bool :=
  "marketplace:product:".toList.isPrefixOf key.toList

/-- `key.startsWith("marketplace:products:")`. -/
def isListKey (key : String) : Bool :=
  "marketplace:products:".toList.isPrefixOf key.toList

/-- `items` of a payload, if it is an array. -/
def cachedItems (detail : Bool) (value : JsValue) : Option (List JsValue) :=
  if detail then some [value.property? "product"]
  else
    match value.property? "products" with
    | .arr items => some items
    | _ => none

end Skrynia
