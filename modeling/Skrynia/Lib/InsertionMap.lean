/-
Maps that remember the order in which their keys came, as JavaScript's
`Map` does.

A key that is set again keeps its place; one that is deleted and set
again goes to the end. A loop over the entries that deletes as it goes
is a recursion over them: deleting the first entry leaves the rest
(`entries_delete_head`).
-/
import Mathlib.Data.List.Nodup
import Mathlib.Tactic.Common

universe u v

/-- The entries in their order, each key once. -/
structure InsertionMap (κ : Type u) (α : Type v) where
  entries : List (κ × α)
  nodup : (entries.map Prod.fst).Nodup

namespace InsertionMap

variable {κ : Type u} {α : Type v}

/-- Maps with the same entries are the same. -/
@[ext] theorem ext {m m' : InsertionMap κ α} (h : m.entries = m'.entries) :
    m = m' := by
  cases m
  cases m'
  cases h
  rfl

/-- The map without entries. -/
def empty : InsertionMap κ α := ⟨[], List.nodup_nil⟩

/-- `size`. -/
def size (m : InsertionMap κ α) : Nat := m.entries.length

/-- `keys()`. -/
def keys (m : InsertionMap κ α) : List κ := m.entries.map Prod.fst

/-- One key, one value. -/
theorem eq_of_mem {m : InsertionMap κ α} {k : κ} {a b : α}
    (ha : (k, a) ∈ m.entries) (hb : (k, b) ∈ m.entries) : a = b :=
  congrArg Prod.snd (List.inj_on_of_nodup_map m.nodup ha hb rfl)

variable [DecidableEq κ]

/-- `get`. -/
def get (m : InsertionMap κ α) (k : κ) : Option α :=
  (m.entries.find? fun e => e.1 = k).map Prod.snd

/-- `has`. -/
def has (m : InsertionMap κ α) (k : κ) : Bool := (m.get k).isSome

/-- `delete`. -/
def delete (m : InsertionMap κ α) (k : κ) : InsertionMap κ α where
  entries := m.entries.filter fun e => e.1 ≠ k
  nodup := m.nodup.sublist (List.filter_sublist.map _)

/-- A new key goes to the end, another one keeps its place. -/
def set (m : InsertionMap κ α) (k : κ) (a : α) : InsertionMap κ α where
  entries :=
    if k ∈ m.keys then m.entries.map fun e => if e.1 = k then (k, a) else e
    else m.entries ++ [(k, a)]
  nodup := by
    split
    · rw [List.map_map]
      have hkeys : (Prod.fst ∘ fun e : κ × α => if e.1 = k then (k, a) else e)
          = Prod.fst := by
        funext e
        by_cases he : e.1 = k
        · simp [he]
        · simp [he]
      rw [hkeys]
      exact m.nodup
    · next hk =>
      rw [List.map_append, List.map_singleton]
      refine List.nodup_append.mpr ⟨m.nodup, List.nodup_singleton k, ?_⟩
      intro a ha b hb hab
      rw [List.mem_singleton.mp hb] at hab
      rw [hab] at ha
      exact hk ha

variable {m : InsertionMap κ α} {k k' : κ} {a b : α}

-- ============================================================== reading

/-- What a key gets is its entry. -/
theorem mem_of_get (h : m.get k = some a) : (k, a) ∈ m.entries := by
  obtain ⟨e, he, ha⟩ := Option.map_eq_some_iff.mp h
  have hk : e.1 = k := by simpa using List.find?_some he
  rw [← hk, ← ha]
  exact List.mem_of_find?_eq_some he

/-- A key that is not there gets nothing. -/
theorem get_eq_none : m.get k = none ↔ k ∉ m.keys := by
  unfold get keys
  rw [Option.map_eq_none_iff, List.find?_eq_none, List.mem_map, not_exists]
  refine forall_congr' fun e => ?_
  rw [decide_eq_true_eq, not_and]

/-- A key gets the value of its entry. -/
theorem get_eq_some : m.get k = some a ↔ (k, a) ∈ m.entries := by
  constructor
  · exact mem_of_get
  · intro h
    cases hget : m.get k with
    | none =>
        exact absurd (List.mem_map_of_mem (f := Prod.fst) h) (get_eq_none.mp hget)
    | some b => rw [eq_of_mem h (mem_of_get hget)]

/-- A map has the keys of its entries. -/
theorem has_iff : m.has k = true ↔ k ∈ m.keys := by
  unfold has
  rw [Option.isSome_iff_ne_none, Ne, get_eq_none, Decidable.not_not]

-- ============================================================== writing

/-- A new key goes to the end. -/
theorem entries_set_of_new (h : k ∉ m.keys) :
    (m.set k a).entries = m.entries ++ [(k, a)] :=
  if_neg h

/-- Deleting the first entry leaves the others. -/
theorem entries_delete_head {e : κ × α} {rest : List (κ × α)}
    (h : m.entries = e :: rest) : (m.delete e.1).entries = rest := by
  have hnodup := m.nodup
  rw [h, List.map_cons, List.nodup_cons] at hnodup
  show m.entries.filter _ = rest
  rw [h, List.filter_cons_of_neg (by simp)]
  apply List.filter_eq_self.mpr
  intro e' he'
  have hne : e'.1 ≠ e.1 := by
    intro heq
    apply hnodup.1
    rw [← heq]
    exact List.mem_map_of_mem he'
  simpa using hne

/-- Without its first entry a map is smaller by one. -/
theorem size_delete_head {e : κ × α} {rest : List (κ × α)}
    (h : m.entries = e :: rest) : (m.delete e.1).size + 1 = m.size := by
  unfold size
  rw [entries_delete_head h, h, List.length_cons]

end InsertionMap
