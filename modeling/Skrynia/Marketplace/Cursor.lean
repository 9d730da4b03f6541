/-
The cursors of `GET /products`.

A cursor carries the sort columns of the last product of a page, its mode
and `binding`, a hash of the filters. `decodeMarketplaceCursor` refuses a
cursor of another mode or of other filters.

# The filters as a text

`stableJson` sorts the members of every object with `localeCompare`. The
hash is of that text, so what two equal bindings say about the filters is
`Json.same_of_write_eq`: they are the same up to the order of members.
-/
import Skrynia.Common.Pagination
import Skrynia.Lib.Json

namespace Skrynia

/-- What kind of goods a product is. -/
inductive ProductType where
  | account
  | key
  | topup
  | boosting
  | service
  | item
  | currency
deriving DecidableEq

/-- The type as the database spells it. -/
def ProductType.text : ProductType → String
  | account => "account"
  | key => "key"
  | topup => "topup"
  | boosting => "boosting"
  | service => "service"
  | item => "item"
  | currency => "currency"

/-- The delivery type as the database spells it. -/
def DeliveryType.text : DeliveryType → String
  | manual => "manual"
  | instant => "instant"

/-- The orders that `sort` offers. -/
inductive SearchSort where
  | newest
  | price_asc
  | price_desc
  | rating
  | sales
  | discount
deriving DecidableEq

/-- The sort as the query string spells it. -/
def SearchSort.text : SearchSort → String
  | newest => "newest"
  | price_asc => "price_asc"
  | price_desc => "price_desc"
  | rating => "rating"
  | sales => "sales"
  | discount => "discount"

/-- The sorts that a cursor can resume. -/
inductive MarketplaceCursorMode where
  | newest
  | sales
  | rating
  | search
deriving DecidableEq

/-- What every cursor carries. -/
structure MarketplaceCursorBase where
  binding : String
  id : Uuid
deriving DecidableEq

/-- A decoded cursor; timestamps and floats as the values their texts
show. -/
inductive MarketplaceCursor (F : Type) where
  | newest (base : MarketplaceCursorBase) (createdAt : Micros)
  | sales (base : MarketplaceCursorBase) (salesCount : Nat) (createdAt : Micros)
  | rating (base : MarketplaceCursorBase) (sellerRating : F) (createdAt : Micros)
  | search (base : MarketplaceCursorBase) (relevanceTier : Nat)
      (similarity fullTextRank : F) (salesCount : Nat) (createdAt : Micros)
deriving DecidableEq

namespace MarketplaceCursor

variable {F : Type}

/-- The mode of a cursor, its tag in the source. -/
def mode : MarketplaceCursor F → MarketplaceCursorMode
  | newest .. => .newest
  | sales .. => .sales
  | rating .. => .rating
  | search .. => .search

/-- The fields that cursors of every mode have. -/
def base : MarketplaceCursor F → MarketplaceCursorBase
  | newest base .. => base
  | sales base .. => base
  | rating base .. => base
  | search base .. => base

end MarketplaceCursor

/-- The `cursor` of a request, by what its base64url bytes say. -/
inductive MarketplaceCursorText (F : Type) where
  | json (cursor : MarketplaceCursor F)
  /-- No JSON, or none that the cursor schema accepts. -/
  | malformed
deriving DecidableEq

/-- A request for products, as `searchSchema` parses it. -/
structure MarketplaceSearchInput (F : Type) where
  page : Nat
  limit : Nat
  cursor : Option (MarketplaceCursorText F)
  q : Option String
  category : Option String
  game : Option String
  «section» : Option String
  sectionId : Option Uuid
  metadata : Option (List (String × Json))
  server : Option String
  platform : Option String
  deliveryType : Option DeliveryType
  productType : Option ProductType
  hot : Option Bool
  recommended : Option Bool
  min : Option String
  max : Option String
  minRating : Option JsonNumber
  discountOnly : Option Bool
  sort : SearchSort

namespace MarketplaceSearchInput

variable {F : Type}

/-- The request without `cursor`, `page` and `limit`. -/
def filters (input : MarketplaceSearchInput F) : Json :=
  .obj <| [
    ("q", input.q.map .str),
    ("category", input.category.map .str),
    ("game", input.game.map .str),
    ("section", input.section.map .str),
    ("sectionId", input.sectionId.map fun id => .str id.text),
    ("meta", input.metadata.map .obj),
    ("server", input.server.map .str),
    ("platform", input.platform.map .str),
    ("deliveryType", input.deliveryType.map fun t => .str t.text),
    ("productType", input.productType.map fun t => .str t.text),
    ("hot", input.hot.map .bool),
    ("recommended", input.recommended.map .bool),
    ("min", input.min.map .str),
    ("max", input.max.map .str),
    ("minRating", input.minRating.map .num),
    ("discountOnly", input.discountOnly.map .bool),
    ("sort", some (.str input.sort.text))].filterMap fun m => m.2.map (m.1, ·)

/-- `input.q` first: an empty `q` is refused by the schema. -/
def cursorMode (input : MarketplaceSearchInput F) : Option MarketplaceCursorMode :=
  if input.q.isSome then some .search
  else match input.sort with
    | .newest => some .newest
    | .sales => some .sales
    | .rating => some .rating
    | _ => none

end MarketplaceSearchInput

-- ================================================================ binding

section Binding

variable {F : Type} (localeCompare : String → String → Bool) (sha256 : String → String)

/-- Members sorted by `localeCompare` of their keys. -/
def sortMembers (members : List (String × List Char)) : List (String × List Char) :=
  members.insertionSort fun left right => localeCompare left.1 right.1

/-- `stableJson`: the text of a value, the members of each object in the
order of `localeCompare`. -/
def stableJson (value : Json) : String :=
  String.ofList (value.write (sortMembers localeCompare))

/-- `marketplaceCursorBinding`: the hash that ties a cursor to the filters it
was made under. -/
def marketplaceCursorBinding (input : MarketplaceSearchInput F) : String :=
  sha256 (stableJson localeCompare input.filters)

/-- `decodeMarketplaceCursor`: a malformed text is refused, and so is a
cursor of another mode or of other filters. -/
def decodeMarketplaceCursor (raw : MarketplaceCursorText F)
    (input : MarketplaceSearchInput F) (expectedMode : MarketplaceCursorMode) :
    Except Failure (MarketplaceCursor F) :=
  match raw with
  | .malformed => .error (badRequest "Invalid pagination cursor")
  | .json cursor =>
      if cursor.mode ≠ expectedMode
          ∨ cursor.base.binding ≠ marketplaceCursorBinding localeCompare sha256 input then
        .error (badRequest "Pagination cursor does not match marketplace filters or sort")
      else .ok cursor

variable {localeCompare sha256}

/-- Two values with one text differ in the order of members at most. -/
theorem stableJson_same {v w : Json}
    (h : stableJson localeCompare v = stableJson localeCompare w) : Json.Same v w :=
  Json.same_of_write_eq (fun l => List.perm_insertionSort _ l) (String.ofList_injective h)

/-- A collision-free hash binds the filters. -/
theorem binding_same (hsha : Function.Injective sha256)
    {input input' : MarketplaceSearchInput F}
    (h : marketplaceCursorBinding localeCompare sha256 input
      = marketplaceCursorBinding localeCompare sha256 input') :
    Json.Same input.filters input'.filters :=
  stableJson_same (hsha h)

/-- A cursor of another mode or of other filters is refused. -/
theorem decodeMarketplaceCursor_foreign {cursor : MarketplaceCursor F}
    {input : MarketplaceSearchInput F} {expectedMode : MarketplaceCursorMode}
    (h : cursor.mode ≠ expectedMode
      ∨ cursor.base.binding ≠ marketplaceCursorBinding localeCompare sha256 input) :
    decodeMarketplaceCursor localeCompare sha256 (.json cursor) input expectedMode
      = .error (badRequest
        "Pagination cursor does not match marketplace filters or sort") :=
  if_pos h

/-- What is accepted is the cursor in the text, of the expected mode and
binding. -/
theorem decodeMarketplaceCursor_eq_ok {raw : MarketplaceCursorText F}
    {input : MarketplaceSearchInput F} {expectedMode : MarketplaceCursorMode}
    {cursor : MarketplaceCursor F} :
    decodeMarketplaceCursor localeCompare sha256 raw input expectedMode = .ok cursor
      ↔ raw = .json cursor ∧ cursor.mode = expectedMode
        ∧ cursor.base.binding = marketplaceCursorBinding localeCompare sha256 input := by
  cases raw with
  | malformed =>
      constructor
      · intro h
        cases h
      · intro h
        cases h.1
  | json c =>
      rw [decodeMarketplaceCursor]
      split_ifs with hother
      · constructor
        · intro h
          cases h
        · intro h
          obtain ⟨hc, hmode, hbinding⟩ := h
          cases hc
          rcases hother with hne | hne
          · exact absurd hmode hne
          · exact absurd hbinding hne
      · rw [not_or, not_not, not_not] at hother
        constructor
        · intro h
          cases h
          exact ⟨rfl, hother⟩
        · intro h
          cases h.1
          rfl

end Binding

end Skrynia
