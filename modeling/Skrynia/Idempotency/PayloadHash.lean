/-
The hash of a request's payload, under which its response is kept.

`canonicalize` rebuilds every object with its keys in order, and
`hashIdempotencyPayload` hashes the JSON text of what it builds. An object
is rebuilt by assignments to an empty one, so a member named `__proto__`
does not become a property: the assignment reaches the setter that every
object inherits. And a JSON text has no infinite numbers, which are
written as `null`; `JSON.parse` reads them from texts such as `1e999`.
`seen` takes both out of a payload, at every depth.

# What the hash says

`hash_eq_iff`: two payloads have one hash just where what is seen of them
is the same up to the order of members. So the hash tells two payloads
apart unless they differ only in what is not seen.

Numbers are taken by the text they are written as, the two zeros being
one number. Strings are lists of code units.
-/
import Mathlib.Data.List.Sort
import Skrynia.Lib.InsertionMap
import Skrynia.Lib.JsTree

namespace Skrynia

namespace PayloadHash

open Utf16 JsTree

-- ================================================================ payloads

/-- What stands at the leaves of a payload, strings apart. A number too large
for a double is read as an infinity. -/
inductive Scalar where
  | null
  | bool (b : Bool)
  | num (n : JsonNumber)
  | infinite (negative : Bool)
  deriving DecidableEq

/-- A JSON value in memory. -/
abbrev Payload := JsTree Scalar

/-- A value as `JSON.parse` gives it. -/
structure Parsed where
  value : Payload
  distinct : value.Distinct

-- ================================================= idempotency.service.ts

/-- `Array.prototype.sort` on strings. -/
def sortKeys (keys : List JsString) : List JsString :=
  keys.insertionSort (· ≤ ·)

/-- The key whose assignment reaches the inherited setter. -/
def protoKey : JsString := ofString "__proto__"

section Rebuild

variable {α β : Type*}

/-- `sorted[key] = value`: the inherited setter takes `__proto__`, and
makes no property. -/
def assign (sorted : InsertionMap JsString α) (key : JsString) (value : α) :
    InsertionMap JsString α :=
  if key = protoKey then sorted else sorted.set key value

/-- One turn of the loop; `record[key]` may be undefined. -/
def putMember (record : List (JsString × α)) (sorted : InsertionMap JsString α)
    (key : JsString) : InsertionMap JsString α :=
  match record.lookup key with
  | none => sorted
  | some value => assign sorted key value

/-- The loop over the sorted keys of a record. -/
def rebuild (record : List (JsString × α)) : List (JsString × α) :=
  ((sortKeys (record.map Prod.fst)).foldl (putMember record)
    InsertionMap.empty).entries

/-- The order in which an object's own properties are enumerated: array
indices first, by number, then the others as they were made. -/
def enumerate (members : List (JsString × α)) : List (JsString × α) :=
  (members.filter fun m => (arrayIndex m.1).isSome).insertionSort
      (fun m m' => (arrayIndex m.1).getD 0 ≤ (arrayIndex m'.1).getD 0)
    ++ members.filter fun m => (arrayIndex m.1).isNone

end Rebuild

namespace Payload

mutual

/-- `canonicalize`: every object is rebuilt with its keys in order, at every
depth. -/
def canonicalize : Payload → Payload
  | .prim a => .prim a
  | .str s => .str s
  | .arr items => .arr (canonicalizeItems items)
  | .obj members => .obj (rebuild (canonicalizeMembers members))

/-- `value.map(canonicalize)`. -/
def canonicalizeItems : List Payload → List Payload
  | [] => []
  | v :: items => canonicalize v :: canonicalizeItems items

/-- The values of an object's members, each made canonical. -/
def canonicalizeMembers : List (JsString × Payload) → List (JsString × Payload)
  | [] => []
  | (k, v) :: members => (k, canonicalize v) :: canonicalizeMembers members

end

end Payload

/-- An infinite number is written as `null`. -/
def Scalar.text : Scalar → List Char
  | .null => "null".toList
  | .bool b => (if b then "true" else "false").toList
  | .num n => n.text
  | .infinite _ => "null".toList

/-- One member in a JSON text, its value written already. -/
def member (m : JsString × List Char) : List Char := quote m.1 ++ ':' :: m.2

namespace Payload

mutual

/-- `JSON.stringify`. -/
def stringify : Payload → List Char
  | .prim a => a.text
  | .str s => quote s
  | .arr items => '[' :: (Json.commas (stringifyItems items) ++ [']'])
  | .obj members =>
      '\x7b' :: (Json.commas ((enumerate (stringifyMembers members)).map member)
        ++ ['}'])

/-- The texts of the items of an array. -/
def stringifyItems : List Payload → List (List Char)
  | [] => []
  | v :: items => stringify v :: stringifyItems items

/-- The texts of the values of an object, each under its key. -/
def stringifyMembers : List (JsString × Payload) → List (JsString × List Char)
  | [] => []
  | (k, v) :: members => (k, stringify v) :: stringifyMembers members

end

end Payload

/-- `sha256` is of the UTF-8 bytes of a text, in hexadecimal. -/
def hashIdempotencyPayload (sha256 : String → String) (payload : Payload) : String :=
  sha256 (String.ofList payload.canonicalize.stringify)

-- ============================================================ what is seen

/-- An infinite number is written as `null`. -/
def Scalar.seen : Scalar → Scalar
  | .infinite _ => .null
  | a => a

namespace Payload

mutual

/-- A payload without its members named `__proto__`, and with infinite
numbers read as `null`. -/
def seen : Payload → Payload
  | .prim a => .prim a.seen
  | .str s => .str s
  | .arr items => .arr (seenItems items)
  | .obj members => .obj (seenMembers members)

/-- What is seen of the items of an array. -/
def seenItems : List Payload → List Payload
  | [] => []
  | v :: items => seen v :: seenItems items

/-- What is seen of an object's members: `__proto__` is not. -/
def seenMembers : List (JsString × Payload) → List (JsString × Payload)
  | [] => []
  | (k, v) :: members =>
      if k = protoKey then seenMembers members else (k, seen v) :: seenMembers members

end

end Payload

-- ============================================================ rebuilt objects

section Rebuild

variable {α β : Type*} {record record' : List (JsString × α)} {k : JsString}

/-- The member that a key of a record comes to be. -/
def kept (record : List (JsString × α)) (k : JsString) : Option (JsString × α) :=
  if k = protoKey then none else (record.lookup k).map (k, ·)

/-- A member that is kept for a key has that key. -/
theorem kept_key {m : JsString × α} (h : m ∈ kept record k) : m.1 = k := by
  unfold kept at h
  split at h
  · cases h
  · obtain ⟨a, -, rfl⟩ := Option.map_eq_some_iff.mp h
    rfl

/-- A key under which nothing is kept adds no property. -/
theorem putMember_of_none {sorted : InsertionMap JsString α}
    (h : kept record k = none) : putMember record sorted k = sorted := by
  unfold kept at h
  unfold putMember assign
  cases hlookup : record.lookup k with
  | none => rfl
  | some value =>
      rw [hlookup] at h
      by_cases hproto : k = protoKey
      · exact if_pos hproto
      · rw [if_neg hproto] at h
        cases h

/-- A kept member becomes a property of the rebuilt object. -/
theorem putMember_of_some {sorted : InsertionMap JsString α} {m : JsString × α}
    (h : kept record k = some m) :
    putMember record sorted k = sorted.set k m.2 := by
  unfold kept at h
  split at h
  · cases h
  · next hproto =>
    obtain ⟨value, hlookup, rfl⟩ := Option.map_eq_some_iff.mp h
    unfold putMember
    rw [hlookup]
    exact if_neg hproto

/-- New keys are put behind those that are there, in their order. -/
theorem foldl_putMember {ks : List JsString} (hnodup : ks.Nodup)
    {sorted : InsertionMap JsString α} (hnew : ∀ k ∈ ks, k ∉ sorted.keys) :
    (ks.foldl (putMember record) sorted).entries
      = sorted.entries ++ ks.filterMap (kept record) := by
  induction ks generalizing sorted with
  | nil => simp
  | cons k ks ih =>
      obtain ⟨hk, hks⟩ := List.nodup_cons.mp hnodup
      rw [List.foldl_cons, List.filterMap_cons]
      cases hkept : kept record k with
      | none =>
          rw [putMember_of_none hkept]
          exact ih hks fun k' hk' => hnew k' (List.mem_cons_of_mem _ hk')
      | some m =>
          obtain rfl := kept_key hkept
          have hentries := InsertionMap.entries_set_of_new (a := m.2)
            (hnew m.1 List.mem_cons_self)
          have hnew' : ∀ k' ∈ ks, k' ∉ (sorted.set m.1 m.2).keys := by
            intro k' hk'
            unfold InsertionMap.keys
            rw [hentries, List.map_append, List.mem_append, not_or]
            refine ⟨hnew k' (List.mem_cons_of_mem _ hk'), ?_⟩
            rw [List.map_singleton, List.mem_singleton]
            intro heq
            exact hk (heq ▸ hk')
          rw [putMember_of_some hkept, ih hks hnew', hentries, List.append_assoc]
          rfl

/-- Sorting loses no key and adds none. -/
theorem sortKeys_perm (keys : List JsString) : (sortKeys keys).Perm keys :=
  List.perm_insertionSort _ _

/-- A rebuilt object has the kept members in the order of the sorted keys. -/
theorem rebuild_eq (hnodup : (record.map Prod.fst).Nodup) :
    rebuild record = (sortKeys (record.map Prod.fst)).filterMap (kept record) := by
  have hks := (sortKeys_perm (record.map Prod.fst)).nodup_iff.mpr hnodup
  exact foldl_putMember hks fun k _ hk => absurd hk List.not_mem_nil

/-- Values are moved, never read. -/
theorem rebuild_map (f : α → β) (hnodup : (record.map Prod.fst).Nodup) :
    rebuild (record.map fun m => (m.1, f m.2))
      = (rebuild record).map fun m => (m.1, f m.2) := by
  have hkeys : (record.map fun m => (m.1, f m.2)).map Prod.fst = record.map Prod.fst := by
    rw [List.map_map]
    rfl
  rw [rebuild_eq hnodup, rebuild_eq (hkeys ▸ hnodup), hkeys, List.map_filterMap]
  congr 1
  funext k
  unfold kept
  rw [lookup_map fun _ => f]
  split
  · rfl
  · rw [Option.map_map, Option.map_map]
    rfl

/-- Where keys differ, a member is what its key looks up. -/
theorem lookup_of_mem (hnodup : (record.map Prod.fst).Nodup) {m : JsString × α}
    (hm : m ∈ record) : record.lookup m.1 = some m.2 := by
  induction record with
  | nil => cases hm
  | cons m' record ih =>
      rw [List.map_cons, List.nodup_cons] at hnodup
      rcases List.mem_cons.mp hm with rfl | hm
      · exact List.lookup_cons_self
      · have hne : m.1 ≠ m'.1 := fun heq =>
          hnodup.1 (heq ▸ List.mem_map_of_mem hm)
        rw [List.lookup_cons, beq_false_of_ne hne]
        exact ih hnodup.2 hm

/-- Every member is there but the ones named `__proto__`. -/
theorem rebuild_perm (hnodup : (record.map Prod.fst).Nodup) :
    (rebuild record).Perm (record.filter fun m => m.1 ≠ protoKey) := by
  have hkept : record.filterMap (kept record ∘ Prod.fst)
      = record.filter fun m => m.1 ≠ protoKey := by
    rw [← List.filterMap_eq_filter]
    apply List.filterMap_congr
    intro m hm
    rw [Function.comp_apply, kept, lookup_of_mem hnodup hm]
    by_cases hproto : m.1 = protoKey <;> simp [hproto, Option.guard]
  have hperm := (sortKeys_perm (record.map Prod.fst)).filterMap (kept record)
  rwa [List.filterMap_map, hkept, ← rebuild_eq hnodup] at hperm

/-- The members that are there come by their names. -/
theorem rebuild_sorted (hnodup : (record.map Prod.fst).Nodup) :
    (rebuild record).Pairwise fun m m' => m.1 < m'.1 := by
  have hle : (sortKeys (record.map Prod.fst)).Pairwise (· ≤ ·) :=
    List.pairwise_insertionSort _ _
  have hlt : (sortKeys (record.map Prod.fst)).Pairwise (· < ·) := by
    have hne := (sortKeys_perm (record.map Prod.fst)).nodup_iff.mpr hnodup
    exact hle.imp₂ (fun _ _ hab hne => lt_of_le_of_ne hab hne) hne
  rw [rebuild_eq hnodup]
  refine List.Pairwise.filterMap _ ?_ hlt
  intro a b hab m hm m' hm'
  rwa [kept_key hm, kept_key hm']

/-- Records with the same members but for those named `__proto__` are
rebuilt as one. -/
theorem rebuild_congr (hnodup : (record.map Prod.fst).Nodup)
    (hnodup' : (record'.map Prod.fst).Nodup)
    (h : (record.filter fun m => m.1 ≠ protoKey).Perm
      (record'.filter fun m => m.1 ≠ protoKey)) :
    rebuild record = rebuild record' := by
  refine List.Perm.eq_of_pairwise ?_ (rebuild_sorted hnodup) (rebuild_sorted hnodup')
    ((rebuild_perm hnodup).trans (h.trans (rebuild_perm hnodup').symm))
  intro a b _ _ hab hba
  exact absurd hab (lt_asymm hba)

/-- An enumeration has the members of the object, in some order. -/
theorem enumerate_perm (members : List (JsString × α)) :
    (enumerate members).Perm members := by
  unfold enumerate
  refine ((List.perm_insertionSort _ _).append_right _).trans ?_
  have hnone : ∀ m : JsString × α, (arrayIndex m.1).isNone
      = !(arrayIndex m.1).isSome := by
    intro m
    cases arrayIndex m.1 <;> rfl
  simp only [hnone]
  exact List.filter_append_perm _ _

end Rebuild

-- ========================================================= texts and payloads

namespace Payload

variable {v w : Payload}

/-- The items of an array are made canonical one by one. -/
theorem canonicalizeItems_eq (items : List Payload) :
    canonicalizeItems items = items.map canonicalize := by
  induction items with
  | nil => rfl
  | cons v items ih => rw [canonicalizeItems, ih, List.map_cons]

/-- So are the values of an object. -/
theorem canonicalizeMembers_eq (members : List (JsString × Payload)) :
    canonicalizeMembers members = members.map fun m => (m.1, canonicalize m.2) := by
  induction members with
  | nil => rfl
  | cons m members ih => rw [canonicalizeMembers, ih, List.map_cons]

/-- The items of an array are written one by one. -/
theorem stringifyItems_eq (items : List Payload) :
    stringifyItems items = items.map stringify := by
  induction items with
  | nil => rfl
  | cons v items ih => rw [stringifyItems, ih, List.map_cons]

/-- So are the values of an object. -/
theorem stringifyMembers_eq (members : List (JsString × Payload)) :
    stringifyMembers members = members.map fun m => (m.1, stringify m.2) := by
  induction members with
  | nil => rfl
  | cons m members ih => rw [stringifyMembers, ih, List.map_cons]

/-- The items of an array are seen one by one. -/
theorem seenItems_eq (items : List Payload) : seenItems items = items.map seen := by
  induction items with
  | nil => rfl
  | cons v items ih => rw [seenItems, ih, List.map_cons]

/-- Of an object, the members other than `__proto__` are seen. -/
theorem seenMembers_eq (members : List (JsString × Payload)) :
    seenMembers members
      = (members.filter fun m => m.1 ≠ protoKey).map fun m => (m.1, seen m.2) := by
  induction members with
  | nil => rfl
  | cons m members ih =>
      rw [seenMembers, ih]
      by_cases hproto : m.1 = protoKey <;> simp [hproto]

/-- The text that is hashed. -/
def canonicalText (v : Payload) : List Char := v.canonicalize.stringify

/-- The texts of an object's members, in the order of the text. -/
def memberTexts (members : List (JsString × Payload)) : List (JsString × List Char) :=
  enumerate (rebuild (members.map fun m => (m.1, canonicalText m.2)))

/-- Distinct keys stay distinct when the values change. -/
theorem keys_map {members : List (JsString × Payload)}
    (hnodup : (members.map Prod.fst).Nodup) {α : Type*} (f : Payload → α) :
    ((members.map fun m => (m.1, f m.2)).map Prod.fst).Nodup := by
  rw [List.map_map]
  exact hnodup

/-- The canonical text of an array has the texts of its items. -/
theorem canonicalText_arr (items : List Payload) :
    canonicalText (.arr items)
      = '[' :: (Json.commas (items.map canonicalText) ++ [']']) := by
  rw [canonicalText, canonicalize, stringify, stringifyItems_eq,
    canonicalizeItems_eq, List.map_map]
  rfl

/-- The canonical text of an object has the texts of its members in the order
of their keys. -/
theorem canonicalText_obj {members : List (JsString × Payload)}
    (hnodup : (members.map Prod.fst).Nodup) :
    canonicalText (.obj members)
      = '\x7b' :: (Json.commas ((memberTexts members).map member) ++ ['}']) := by
  rw [canonicalText, canonicalize, stringify, stringifyMembers_eq,
    canonicalizeMembers_eq, ← rebuild_map stringify (keys_map hnodup canonicalize),
    List.map_map]
  rfl

/-- The texts of the members that are seen. -/
theorem memberTexts_perm {members : List (JsString × Payload)}
    (hnodup : (members.map Prod.fst).Nodup) :
    (memberTexts members).Perm
      ((members.filter fun m => m.1 ≠ protoKey).map
        fun m => (m.1, canonicalText m.2)) := by
  refine (enumerate_perm _).trans ((rebuild_perm (keys_map hnodup _)).trans ?_)
  rw [List.filter_map]
  rfl

end Payload

/-- The JSON value of a scalar's text. -/
def Scalar.json : Scalar → Json
  | .null => .null
  | .bool b => .bool b
  | .num n => .num n
  | .infinite _ => .null

/-- A scalar is written as its text. -/
theorem Scalar.write_json (a : Scalar) : Json.write id a.json = a.text := by
  cases a <;> rfl

/-- A text says what is seen of a scalar. -/
theorem Scalar.text_append_inj {a b : Scalar} {s t : List Char} (hs : Json.Ends s)
    (ht : Json.Ends t) (h : a.text ++ s = b.text ++ t) :
    a.seen = b.seen ∧ a.text = b.text ∧ s = t := by
  rw [← write_json, ← write_json] at h ⊢
  obtain ⟨hsame, htext, hst⟩ := Json.write_append_inj (fun _ => .refl _) a.json
    b.json s t hs ht h
  refine ⟨?_, htext, hst⟩
  cases a <;> cases b <;> cases hsame <;> rfl

/-- Scalars that look the same have one text. -/
theorem Scalar.text_of_seen_eq {a b : Scalar} (h : a.seen = b.seen) :
    a.text = b.text := by
  cases a <;> cases b <;> cases h <;> rfl

/-- A member can be read off the front when its value can. -/
theorem readable_member {m m' : JsString × List Char} (h : Json.Readable m.2 m'.2) :
    Json.Readable (member m) (member m') := by
  intro s t hs ht heq
  rw [member, member, List.append_assoc, List.append_assoc] at heq
  obtain ⟨hk, heq⟩ := quote_append_inj heq
  obtain ⟨hv, hst⟩ := h s t hs ht (List.tail_eq_of_cons_eq heq)
  exact ⟨congrArg member (Prod.ext hk hv), hst⟩

/-- A member's text tells its key and the text of its value. -/
theorem member_injective : Function.Injective member := by
  intro m m' h
  obtain ⟨hk, ht⟩ := quote_append_inj h
  exact Prod.ext hk (List.tail_eq_of_cons_eq ht)

namespace Payload

/-- The kind of a JSON value, with one kind for all scalars. -/
def kind : Payload → Nat
  | .prim _ => 0
  | .str _ => 1
  | .arr _ => 2
  | .obj _ => 3

/-- The first character tells the kind, and no text starts by closing. -/
theorem canonicalText_start (v : Payload) :
    ∃ c x, canonicalText v = c :: x ∧ Json.startKind c - 2 = v.kind ∧ c ≠ ']'
      ∧ c ≠ '\x7d' := by
  cases v with
  | prim a =>
      obtain ⟨c, x, htext, hkind, hc⟩ := Json.write_start id a.json
      have hlow : a.json.kind ≤ 2 := by cases a <;> simp [Scalar.json, Json.kind]
      rw [a.write_json] at htext
      exact ⟨c, x, htext, by simp only [kind]; omega, hc⟩
  | str s => exact ⟨'"', _, rfl, rfl, by decide⟩
  | arr items => exact ⟨'[', _, rfl, rfl, by decide⟩
  | obj members => exact ⟨'\x7b', _, rfl, rfl, by decide⟩

/-- A canonical text does not begin with a closing bracket. -/
theorem canonicalText_opens {close : Char} (hclose : close = ']' ∨ close = '\x7d')
    (v : Payload) : Json.Opens close (canonicalText v) := by
  obtain ⟨c, x, hv, -, hc, hc'⟩ := canonicalText_start v
  refine ⟨c, x, hv, ?_⟩
  rcases hclose with rfl | rfl
  · exact hc
  · exact hc'

/-- The first character of a text tells what kind of value is written. -/
theorem kind_eq {s t : List Char} (h : canonicalText v ++ s = canonicalText w ++ t) :
    v.kind = w.kind := by
  obtain ⟨c, x, hv, hkind, -⟩ := canonicalText_start v
  obtain ⟨d, y, hw, hkind', -⟩ := canonicalText_start w
  rw [hv, hw] at h
  rw [← hkind, ← hkind', (List.cons.inj h).1]

/-- The text of the one is told from that of the other at the front, or
the same is seen of the two. -/
def Told (v w : Payload) : Prop :=
  ∀ s t, Json.Ends s → Json.Ends t → canonicalText v ++ s = canonicalText w ++ t →
    Same v.seen w.seen ∧ canonicalText v = canonicalText w ∧ s = t

/-- Texts of values that are told apart can be read off a longer text. -/
theorem Told.readable (h : Told v w) :
    Json.Readable (canonicalText v) (canonicalText w) :=
  fun s t hs ht heq => (h s t hs ht heq).2

/-- Values with one text that are told apart look the same. -/
theorem Told.same (h : Told v w) (htext : canonicalText v = canonicalText w) :
    Same v.seen w.seen :=
  (h [] [] Json.ends_nil Json.ends_nil (congrArg (· ++ []) htext)).1

/-- Values of two kinds are told apart. -/
theorem told_of_kind_ne (hkind : v.kind ≠ w.kind) : Told v w := by
  intro s t _ _ h
  exact absurd (kind_eq h) hkind

/-- Two scalars are told apart by their texts. -/
theorem told_prim (a b : Scalar) : Told (.prim a) (.prim b) := by
  intro s t hs ht h
  obtain ⟨hseen, htext, hst⟩ := Scalar.text_append_inj hs ht h
  refine ⟨?_, htext, hst⟩
  rw [seen, seen, hseen]
  exact .prim b.seen

/-- So are two strings. -/
theorem told_str (a b : JsString) : Told (.str a) (.str b) := by
  intro s t _ _ h
  obtain ⟨rfl, hst⟩ := quote_append_inj h
  exact ⟨.str a, rfl, hst⟩

/-- So are two arrays whose items are. -/
theorem told_arr {items items' : List Payload}
    (h : ∀ a ∈ items, ∀ b ∈ items', Told a b) : Told (.arr items) (.arr items') := by
  intro s t _ _ heq
  rw [canonicalText_arr, canonicalText_arr, List.cons_append, List.cons_append,
    List.append_assoc, List.append_assoc] at heq
  have hread : ∀ x ∈ items.map canonicalText, ∀ y ∈ items'.map canonicalText,
      Json.Readable x y := by
    intro x hx y hy
    obtain ⟨a, ha, rfl⟩ := List.mem_map.mp hx
    obtain ⟨b, hb, rfl⟩ := List.mem_map.mp hy
    exact (h a ha b hb).readable
  have hopens : ∀ items : List Payload, ∀ x ∈ items.map canonicalText,
      Json.Opens ']' x := by
    intro items x hx
    obtain ⟨a, -, rfl⟩ := List.mem_map.mp hx
    exact canonicalText_opens (.inl rfl) a
  obtain ⟨htexts, hst⟩ := Json.commas_inj (.inl rfl) hread (hopens items)
    (hopens items') (List.tail_eq_of_cons_eq heq)
  refine ⟨?_, ?_, hst⟩
  · rw [seen, seen, seenItems_eq, seenItems_eq]
    refine .arr (List.forall₂_map_left_iff.mpr (List.forall₂_map_right_iff.mpr ?_))
    refine Json.forall₂_imp_mem (Json.forall₂_of_map_eq htexts) ?_
    intro a ha b hb hab
    exact (h a ha b hb).same hab
  · rw [canonicalText_arr, canonicalText_arr, htexts]

/-- The texts of the members come from those of the values. -/
theorem exists_of_mem_memberTexts {members : List (JsString × Payload)}
    (hnodup : (members.map Prod.fst).Nodup) {x : JsString × List Char}
    (hx : x ∈ memberTexts members) : ∃ m ∈ members, (m.1, canonicalText m.2) = x := by
  rw [(memberTexts_perm hnodup).mem_iff, List.mem_map] at hx
  obtain ⟨m, hm, rfl⟩ := hx
  exact ⟨m, List.mem_of_mem_filter hm, rfl⟩

/-- So are two objects whose values are, the keys of each being distinct. -/
theorem told_obj {members members' : List (JsString × Payload)}
    (hkeys : (members.map Prod.fst).Nodup) (hkeys' : (members'.map Prod.fst).Nodup)
    (h : ∀ a ∈ members, ∀ b ∈ members', Told a.2 b.2) :
    Told (.obj members) (.obj members') := by
  intro s t _ _ heq
  rw [canonicalText_obj hkeys, canonicalText_obj hkeys', List.cons_append,
    List.cons_append, List.append_assoc, List.append_assoc] at heq
  have hread : ∀ x ∈ (memberTexts members).map member,
      ∀ y ∈ (memberTexts members').map member, Json.Readable x y := by
    intro x hx y hy
    obtain ⟨m, hm, rfl⟩ := List.mem_map.mp hx
    obtain ⟨m', hm', rfl⟩ := List.mem_map.mp hy
    obtain ⟨a, ha, rfl⟩ := exists_of_mem_memberTexts hkeys hm
    obtain ⟨b, hb, rfl⟩ := exists_of_mem_memberTexts hkeys' hm'
    exact readable_member (h a ha b hb).readable
  have hopens : ∀ texts : List (JsString × List Char), ∀ x ∈ texts.map member,
      Json.Opens '\x7d' x := by
    intro texts x hx
    obtain ⟨m, -, rfl⟩ := List.mem_map.mp hx
    exact ⟨'"', _, rfl, by decide⟩
  obtain ⟨htexts, hst⟩ := Json.commas_inj (.inr rfl) hread (hopens _) (hopens _)
    (List.tail_eq_of_cons_eq heq)
  refine ⟨?_, ?_, hst⟩
  · have hseen := (memberTexts_perm hkeys).symm.trans
      (List.map_injective_iff.mpr member_injective htexts ▸ memberTexts_perm hkeys')
    obtain ⟨p, hp, hpairs⟩ := Json.forall₂_of_map_perm hseen
    rw [seen, seen, seenMembers_eq, seenMembers_eq]
    refine .obj (hp.map _) (List.forall₂_map_left_iff.mpr
      (List.forall₂_map_right_iff.mpr (Json.forall₂_imp_mem hpairs ?_)))
    intro a ha b hb hab
    obtain ⟨hk, htext⟩ := Prod.mk.inj hab
    have ha' := List.mem_of_mem_filter (hp.mem_iff.mpr ha)
    have hb' := List.mem_of_mem_filter hb
    rw [hk]
    exact .mk ((h a ha' b hb').same htext)
  · rw [canonicalText_obj hkeys, canonicalText_obj hkeys', htexts]

/-- A payload's text can be read off the front, and says what is seen of
the payload. -/
theorem told (v : Payload) : ∀ w, v.Distinct → w.Distinct → Told v w := by
  induction v using induct with
  | prim a =>
      intro w _ _
      cases w with
      | prim b => exact told_prim a b
      | _ => exact told_of_kind_ne (by simp [kind])
  | str a =>
      intro w _ _
      cases w with
      | str b => exact told_str a b
      | _ => exact told_of_kind_ne (by simp [kind])
  | arr items ih =>
      intro w hv hw
      cases w with
      | arr items' =>
          apply told_arr
          intro a ha b hb
          exact ih a ha b (hv.items a ha) (hw.items b hb)
      | _ => exact told_of_kind_ne (by simp [kind])
  | obj members ih =>
      intro w hv hw
      cases w with
      | obj members' =>
          apply told_obj hv.keys hw.keys
          intro a ha b hb
          exact ih a ha b.2 (hv.members a ha) (hw.members b hb)
      | _ => exact told_of_kind_ne (by simp [kind])

/-- What is seen of an object, by the members it is seen by. -/
theorem same_seen_obj {members members' : List (JsString × Payload)}
    (h : Same (seen (obj members)) (seen (obj members'))) :
    ∃ q, (members.filter fun m => m.1 ≠ protoKey).Perm q
      ∧ List.Forall₂ (fun m m' => m.1 = m'.1 ∧ Same m.2.seen m'.2.seen) q
        (members'.filter fun m => m.1 ≠ protoKey) := by
  rw [seen, seen, seenMembers_eq, seenMembers_eq] at h
  cases h with
  | obj hp hpairs =>
      obtain ⟨q, rfl, hq⟩ := (congrFun (congrFun (List.eq_map_comp_perm _) _) _).mpr
        hp.symm
      refine ⟨q, hq.symm, ?_⟩
      have hpairs := List.forall₂_map_left_iff.mp (List.forall₂_map_right_iff.mp hpairs)
      refine hpairs.imp fun m m' hmm => ?_
      generalize hx : (m.1, m.2.seen) = x at hmm
      generalize hy : (m'.1, m'.2.seen) = y at hmm
      cases hmm with
      | mk hsame =>
          obtain ⟨rfl, rfl⟩ := Prod.mk.inj hx
          obtain ⟨hk, rfl⟩ := Prod.mk.inj hy
          exact ⟨hk.symm, hsame⟩

/-- The text depends on what is seen, and not on the order of members. By
induction on the payload: the members of an object are sorted by name, and no
name comes twice. -/
theorem canonicalText_of_same_seen (v : Payload) :
    ∀ w, v.Distinct → w.Distinct → Same (seen v) (seen w) →
      canonicalText v = canonicalText w := by
  induction v using induct with
  | prim a =>
      intro w _ _ h
      cases w with
      | prim b =>
          rw [seen, seen] at h
          have hseen : a.seen = b.seen := by
            generalize a.seen = x at h
            generalize b.seen = y at h
            cases h
            rfl
          exact Scalar.text_of_seen_eq hseen
      | _ => cases h
  | str s =>
      intro w _ _ h
      cases w with
      | str s' =>
          cases h
          rfl
      | _ => cases h
  | arr items ih =>
      intro w hv hw h
      cases w with
      | arr items' =>
          have hv := hv.items
          have hw := hw.items
          rw [seen, seen, seenItems_eq, seenItems_eq] at h
          cases h with
          | arr h =>
              have hpairs := List.forall₂_map_left_iff.mp (List.forall₂_map_right_iff.mp h)
              have htexts : items.map canonicalText = items'.map canonicalText := by
                refine Json.map_eq_of_forall₂ (Json.forall₂_imp_mem hpairs ?_)
                intro a ha b hb hab
                exact ih a ha b (hv a ha) (hw b hb) hab
              rw [canonicalText_arr, canonicalText_arr, htexts]
      | _ => cases h
  | obj members ih =>
      intro w hv hw h
      cases w with
      | obj members' =>
          have hkeys := hv.keys
          have hkeys' := hw.keys
          have hv := hv.members
          have hw := hw.members
          obtain ⟨q, hq, hpairs⟩ := same_seen_obj h
          have htexts : q.map (fun m => (m.1, canonicalText m.2))
              = (members'.filter fun m => m.1 ≠ protoKey).map
                fun m => (m.1, canonicalText m.2) := by
            refine Json.map_eq_of_forall₂ (Json.forall₂_imp_mem hpairs ?_)
            intro a ha b hb hab
            obtain ⟨hk, hsame⟩ := hab
            have ha' := List.mem_of_mem_filter (hq.mem_iff.mpr ha)
            have hb' := List.mem_of_mem_filter hb
            exact Prod.ext hk (ih a ha' b.2 (hv a ha') (hw b hb') hsame)
          have hperm := hq.map fun m => (m.1, canonicalText m.2)
          rw [htexts] at hperm
          have hrebuilt : rebuild (members.map fun m => (m.1, canonicalText m.2))
              = rebuild (members'.map fun m => (m.1, canonicalText m.2)) := by
            apply rebuild_congr (keys_map hkeys _) (keys_map hkeys' _)
            rw [List.filter_map, List.filter_map]
            exact hperm
          rw [canonicalText_obj hkeys, canonicalText_obj hkeys', memberTexts, hrebuilt]
          rfl
      | _ => cases h

/-- Values that are the same look the same. -/
theorem same_seen (v : Payload) : ∀ w, Same v w → Same (seen v) (seen w) := by
  induction v using induct with
  | prim a =>
      intro w h
      cases h
      exact .prim a.seen
  | str s =>
      intro w h
      cases h
      exact .str s
  | arr items ih =>
      intro w h
      cases h with
      | arr h =>
          rw [seen, seen, seenItems_eq, seenItems_eq]
          refine .arr (List.forall₂_map_left_iff.mpr (List.forall₂_map_right_iff.mpr ?_))
          exact Json.forall₂_imp_mem h fun a ha b _ hab => ih a ha b hab
  | obj members ih =>
      intro w h
      cases h with
      | @obj _ p members' hp h =>
          rw [seen, seen, seenMembers_eq, seenMembers_eq]
          refine .obj ((hp.filter _).map _)
            (List.forall₂_map_left_iff.mpr (List.forall₂_map_right_iff.mpr ?_))
          have hpairs : List.Forall₂ (fun m m' : JsString × Payload =>
              m.1 = m'.1 ∧ Same m.2.seen m'.2.seen) p members' := by
            refine Json.forall₂_imp_mem h ?_
            intro a ha b _ hab
            cases hab with
            | mk hsame => exact ⟨rfl, ih _ (hp.mem_iff.mpr ha) _ hsame⟩
          have hkeep : Relator.LiftFun (fun m m' : JsString × Payload =>
                m.1 = m'.1 ∧ Same m.2.seen m'.2.seen) Iff
              (fun m => decide (m.1 ≠ protoKey) = true)
              (fun m => decide (m.1 ≠ protoKey) = true) := by
            intro m m' hmm
            simp only [hmm.1]
          refine (List.rel_filter hkeep hpairs).imp ?_
          intro a b hab
          rw [hab.1]
          exact .mk hab.2

end Payload

variable {sha256 : String → String}

/-- One hash, one payload, as far as it is seen. -/
theorem hash_eq_iff (hinj : Function.Injective sha256) (v w : Parsed) :
    hashIdempotencyPayload sha256 v.value = hashIdempotencyPayload sha256 w.value
      ↔ JsTree.Same v.value.seen w.value.seen := by
  constructor
  · intro h
    have htext : v.value.canonicalText = w.value.canonicalText :=
      String.ofList_injective (hinj h)
    exact (Payload.told v.value w.value v.distinct w.distinct).same htext
  · intro h
    have htext := Payload.canonicalText_of_same_seen v.value w.value v.distinct
      w.distinct h
    exact congrArg (fun text => sha256 (String.ofList text)) htext

/-- Payloads with nothing unseen are told apart by their hashes. -/
theorem hash_identifies (hinj : Function.Injective sha256) {v w : Parsed}
    (hv : v.value.seen = v.value) (hw : w.value.seen = w.value) :
    hashIdempotencyPayload sha256 v.value = hashIdempotencyPayload sha256 w.value
      ↔ JsTree.Same v.value w.value := by
  rw [hash_eq_iff hinj, hv, hw]

end PayloadHash

-- ================================================================= the result

open PayloadHash

/-- The hash identifies a payload unless another one differs from it only
in what is not seen: members named `__proto__`, and infinite numbers
against `null` and each other. -/
theorem payload_hash_identifies_iff {sha256 : String → String}
    (hinj : Function.Injective sha256) (v w : Parsed) :
    (hashIdempotencyPayload sha256 v.value = hashIdempotencyPayload sha256 w.value
        ↔ JsTree.Same v.value w.value)
      ↔ (JsTree.Same v.value.seen w.value.seen → JsTree.Same v.value w.value) := by
  rw [hash_eq_iff hinj]
  exact ⟨Iff.mp, fun h => ⟨h, Payload.same_seen v.value w.value⟩⟩

/-- `{"__proto__":1}`. -/
def protoPayload : Parsed where
  value := .obj [(protoKey, .prim (.num ⟨['1'], List.cons_ne_nil _ _,
    List.forall_mem_singleton.mpr (by decide)⟩))]
  distinct := .obj (List.nodup_singleton _) fun m hm => by
    rw [List.mem_singleton.mp hm]
    exact .prim _

/-- `{}`. -/
def emptyPayload : Parsed where
  value := .obj []
  distinct := .obj List.nodup_nil fun _ hm => absurd hm List.not_mem_nil

/-- The digest of `{}`, and some other text for every other text. -/
def recordedSha256 (text : String) : String :=
  if text = "{}" then
    "44136fa355b3678a1146ad16f7e8649e94fb4fc21fe77e8310c060f61caaff8a"
  else "-" ++ text

/-- The stand-in for the digest takes distinct texts to distinct hashes. -/
theorem recordedSha256_injective : Function.Injective recordedSha256 := by
  have hdash : ∀ {text : String} {digest : List Char},
      "-" ++ text = String.ofList digest → digest.head? = some '-' := by
    intro text digest h
    have hlist := congrArg String.toList h
    simp only [String.toList_append, String.toList_ofList] at hlist
    rw [← hlist]
    rfl
  have hne : ∀ text : String, "-" ++ text
      ≠ "44136fa355b3678a1146ad16f7e8649e94fb4fc21fe77e8310c060f61caaff8a" :=
    fun text h => absurd (hdash h) (by decide)
  intro a b h
  unfold recordedSha256 at h
  split at h
  · next ha =>
    split at h
    · next hb => rw [ha, hb]
    · exact absurd h.symm (hne b)
  · split at h
    · exact absurd h (hne a)
    · have := congrArg String.toList h
      rw [String.toList_append, String.toList_append] at this
      exact String.ext (List.append_cancel_left this)

/-- An object with a member `__proto__` and an empty one have the same hash
and are not the same payload. -/
theorem empty_against_proto :
    (hashIdempotencyPayload recordedSha256 emptyPayload.value
        = hashIdempotencyPayload recordedSha256 protoPayload.value
      ↔ JsTree.Same emptyPayload.value protoPayload.value)
      ↔ (JsTree.Same emptyPayload.value.seen protoPayload.value.seen →
          JsTree.Same emptyPayload.value protoPayload.value) :=
  payload_hash_identifies_iff recordedSha256_injective emptyPayload protoPayload

/-- A member that is lost, and an infinite number that is `null`. -/
theorem unlike_payloads_one_hash :
    ((∀ sha256, hashIdempotencyPayload sha256 protoPayload.value
        = hashIdempotencyPayload sha256 emptyPayload.value)
      ∧ ¬ JsTree.Same protoPayload.value emptyPayload.value)
    ∧ (∀ sha256, hashIdempotencyPayload sha256 (.prim (.infinite false))
        = hashIdempotencyPayload sha256 (.prim .null))
      ∧ ¬ JsTree.Same (.prim (Scalar.infinite false)) (.prim .null) := by
  refine ⟨⟨fun sha256 => ?_, fun h => ?_⟩, fun sha256 => rfl, fun h => by cases h⟩
  · have htext : protoPayload.value.canonicalize = emptyPayload.value.canonicalize := by
      rw [protoPayload, emptyPayload]
      rfl
    rw [hashIdempotencyPayload, htext]
    rfl
  · cases h with
    | obj hp hpairs =>
        cases hpairs
        exact absurd hp.length_eq (by decide)

end Skrynia
