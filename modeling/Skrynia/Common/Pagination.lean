/-
The shared keyset cursor over `(created_at desc, id desc)`.

`encodeCursor` writes a timestamp text and an id, `decodeCursor` reads
them back and keeps the text as it is, and `keysetWhereClause` leaves the
comparison to PostgreSQL, in microseconds.

# Two kinds of text

A column selected as `created_at::text` shows all six digits of the
second; a value the driver parsed into a JavaScript `Date` has dropped
the last three, and `toISOString` prints what is left. `instant` is what
PostgreSQL reads from either.
-/
import Skrynia.Db.Schema
import Skrynia.Lib.Keyset
import Mathlib.Data.Prod.Lex
import Mathlib.Order.Lex

namespace Skrynia

/-- A `timestamptz`: microseconds since the epoch. -/
abbrev Micros := Int

/-- `Date | string`, the value of a timestamp column in a fetched row. -/
inductive CreatedAt where
  | date (ms : Int)
  | string (micros : Micros)
deriving DecidableEq

/-- What the driver makes of a selected `timestamptz`. -/
def CreatedAt.ofDriver (createdAt : Micros) : CreatedAt := .date (createdAt / 1000)

/-- A timestamp text, by the instant it shows. -/
inductive TimestampText where
  | iso (ms : Int)
  | postgres (micros : Micros)
deriving DecidableEq

/-- The microsecond that PostgreSQL reads from the text. -/
def TimestampText.instant : TimestampText → Micros
  | iso ms => ms * 1000
  | postgres micros => micros

/-- The text that `encodeCursor` writes for a row's timestamp. -/
def CreatedAt.text : CreatedAt → TimestampText
  | date ms => .iso ms
  | string micros => .postgres micros

/-- What a cursor says: a timestamp as text, and an id. -/
structure DecodedCursor where
  createdAt : TimestampText
  id : Uuid
deriving DecidableEq

/-- The `cursor` of a request, by what its base64url bytes say. -/
inductive CursorText where
  | fields (createdAt : TimestampText) (id : Uuid)
  /-- No separator, no date before it, or no uuid behind it. -/
  | malformed
deriving DecidableEq

/-- `encodeCursor`: both fields as a text. -/
def encodeCursor (createdAt : CreatedAt) (id : Uuid) : CursorText :=
  .fields createdAt.text id

/-- `decodeCursor`: the fields of the text, or a 400. -/
def decodeCursor : CursorText → Except Failure DecodedCursor
  | .fields createdAt id => .ok ⟨createdAt, id⟩
  | .malformed => .error (badRequest "Invalid pagination cursor")

/-- Decoding gives back the text of the timestamp and the id. -/
@[simp] theorem decodeCursor_encodeCursor (createdAt : CreatedAt) (id : Uuid) :
    decodeCursor (encodeCursor createdAt id) = .ok ⟨createdAt.text, id⟩ := rfl

/-- `MAX_PAGE_LIMIT`: no page is longer. -/
def MAX_PAGE_LIMIT : Int := 100

/-- The limit and the cursor of one request. -/
structure CursorPage where
  limit : Nat
  cursor : Option DecodedCursor

/-- `?limit=&cursor=`, the limit within bounds and the cursor decoded. -/
def parseCursorPage (limit : Option Int) (cursor : Option CursorText)
    (defaultLimit : Nat) : Except Failure CursorPage := do
  let limit ← match limit with
    | none => pure defaultLimit
    | some limit =>
        if 1 ≤ limit ∧ limit ≤ MAX_PAGE_LIMIT then pure limit.toNat
        else throw (badRequest "Validation failed")
  let cursor ← cursor.mapM decodeCursor
  return { limit := limit, cursor := cursor }

/-- A key of the shared sort, larger first. -/
abbrev SortKey := Int ×ₗ Nat

/-- The pair that `(created_at, id)` is compared as. -/
def sortKey (createdAt : Micros) (id : Uuid) : SortKey := toLex (createdAt, id.bits.toNat)

/-- The pair that a cursor stands for in the comparison. -/
def DecodedCursor.bound (cursor : DecodedCursor) : SortKey :=
  sortKey cursor.createdAt.instant cursor.id

/-- `(created_at, id) < ($1, $2)`; no condition without a cursor. -/
def keysetWhereClause : Option DecodedCursor → Micros → Uuid → Prop
  | none, _, _ => True
  | some c, createdAt, id => createdAt < c.createdAt.instant
      ∨ createdAt = c.createdAt.instant ∧ id.bits < c.id.bits

instance (cursor : Option DecodedCursor) (createdAt : Micros) (id : Uuid) :
    Decidable (keysetWhereClause cursor createdAt id) :=
  match cursor with
  | none => inferInstanceAs (Decidable True)
  | some c => inferInstanceAs (Decidable (_ < c.createdAt.instant ∨ _ ∧ _))

/-- The cursor behind the last row of a page of exactly `limit` rows. -/
def buildNextCursor {ρ : Type} (createdAt : ρ → CreatedAt) (id : ρ → Uuid)
    (rows : List ρ) (limit : Nat) : Option CursorText :=
  if rows.length < limit then none
  else rows.getLast?.map fun last => encodeCursor (createdAt last) (id last)

/-- The pair tells the time and the id. -/
theorem sortKey_injective {t t' : Micros} {u u' : Uuid}
    (h : sortKey t u = sortKey t' u') : t = t' ∧ u = u' := by
  have h' := Prod.ext_iff.mp (toLex.injective h)
  refine ⟨h'.1, ?_⟩
  cases u
  cases u'
  rw [Uuid.mk.injEq]
  exact BitVec.eq_of_toNat_eq h'.2

/-- The row comparison is the order of the keys. -/
theorem keysetWhereClause_some (c : DecodedCursor) (createdAt : Micros) (id : Uuid) :
    keysetWhereClause (some c) createdAt id ↔ sortKey createdAt id < c.bound := by
  rw [DecodedCursor.bound, sortKey, sortKey, Prod.Lex.toLex_lt_toLex]
  exact Iff.rfl

/-- A `Date` shows the instant of its row or an earlier one. -/
theorem instant_ofDriver_le (t : Micros) :
    (CreatedAt.ofDriver t).text.instant ≤ t := by
  exact Int.ediv_mul_le t (by decide)

end Skrynia
