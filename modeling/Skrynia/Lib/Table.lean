/-
Tables with a unique key.

A `Table key` is a list of rows whose keys are pairwise distinct: the
constraint is a field, so a table that violates it cannot be built and
`find?` has at most one answer. Rows keep their insertion order.

# The writes

- `insert?` refuses a key that is taken (a unique violation);
- `set` replaces the row that has the new row's key, and is no write
  when there is none (an `update … where key = …` of a fetched row);
- `upsert` is `insert … on conflict do nothing`;
- `update` is an `update … where …` of any number of rows;
- `delete` is a `delete … where …`;
- `put` and `remove` write and delete the row of one key, as a map does.

Each has one equation for `find?`, and the first three one for `sum`, the
column aggregate. With those two a caller never looks at the row list.
-/
import Mathlib.Algebra.BigOperators.Group.List.Basic
import Mathlib.Algebra.Order.BigOperators.Group.List
import Mathlib.Data.List.Nodup
import Mathlib.Data.List.Perm.Subperm
import Mathlib.Tactic.Abel

namespace Relational

universe u v

/-- Where keys differ, a row is found by its key. -/
theorem filter_key_eq_singleton {α : Type u} {κ : Type v} [DecidableEq κ]
    {key : α → κ} {l : List α} (hl : (l.map key).Nodup) {a : α}
    (ha : a ∈ l) : (l.filter fun x => key x = key a) = [a] := by
  induction l with
  | nil => cases ha
  | cons x l ih =>
      rw [List.map_cons, List.nodup_cons] at hl
      obtain ⟨hx, hl⟩ := hl
      rcases List.mem_cons.mp ha with rfl | ha
      · rw [List.filter_cons_of_pos (by simp), List.filter_eq_nil_iff.mpr ?_]
        intro y hy hkey
        rw [decide_eq_true_eq] at hkey
        exact hx (hkey ▸ List.mem_map_of_mem hy)
      · rw [List.filter_cons_of_neg ?_, ih hl ha]
        rw [decide_eq_true_eq]
        intro hkey
        exact hx (hkey ▸ List.mem_map_of_mem ha)

/-- Rows under the unique constraint that no two share a key. -/
structure Table {ρ : Type u} {κ : Type v} (key : ρ → κ) where
  rows : List ρ
  unique : (rows.map key).Nodup

namespace Table

variable {ρ : Type u} {κ : Type v} {key : ρ → κ}

/-- The table without rows. -/
def empty : Table key := ⟨[], List.nodup_nil⟩

/-- Tables with the same rows are the same. -/
@[ext] theorem ext {t t' : Table key} (h : t.rows = t'.rows) : t = t' := by
  cases t
  cases t'
  cases h
  rfl

variable [DecidableEq κ]

/-- The row stored under `k`. -/
def find? (t : Table key) (k : κ) : Option ρ :=
  t.rows.find? fun r => decide (key r = k)

/-- Some row is stored under `k`. -/
def Has (t : Table key) (k : κ) : Prop := k ∈ t.rows.map key

instance (t : Table key) (k : κ) : Decidable (t.Has k) :=
  inferInstanceAs (Decidable (_ ∈ _))

/-- Append a row, unless its key is taken. -/
def insert? (t : Table key) (r : ρ) : Option (Table key) :=
  if h : key r ∈ t.rows.map key then none
  else some ⟨t.rows ++ [r], by
    rw [List.map_append, List.map_singleton]
    exact t.unique.append (List.nodup_singleton _) (by simpa using h)⟩

/-- Replace the row that has the key of `r`. -/
def set (t : Table key) (r : ρ) : Table key where
  rows := t.rows.map fun x => if key x = key r then r else x
  unique := by
    have h : (t.rows.map fun x => if key x = key r then r else x).map key
        = t.rows.map key := by
      rw [List.map_map]
      refine List.map_congr_left fun x _ => ?_
      show key (if key x = key r then r else x) = key x
      split
      · next hx => exact hx.symm
      · rfl
    rw [h]
    exact t.unique

/-- Append a row, or keep the table when its key is taken. -/
def upsert (t : Table key) (r : ρ) : Table key :=
  (t.insert? r).getD t

/-- Write the row under its key, new or not. -/
def put (t : Table key) (r : ρ) : Table key := (t.set r).upsert r

/-- Rewrite the rows that meet `p`, each under its own key. -/
def update (t : Table key) (p : ρ → Prop) [DecidablePred p] (f : ρ → ρ)
    (hf : ∀ r, key (f r) = key r) : Table key where
  rows := t.rows.map fun r => if p r then f r else r
  unique := by
    have h : (t.rows.map fun r => if p r then f r else r).map key
        = t.rows.map key := by
      rw [List.map_map]
      refine List.map_congr_left fun r _ => ?_
      show key (if p r then f r else r) = key r
      split
      · exact hf r
      · rfl
    rw [h]
    exact t.unique

/-- Remove the rows that meet `p`. -/
def delete (t : Table key) (p : ρ → Prop) [DecidablePred p] : Table key where
  rows := t.rows.filter fun r => ¬ p r
  unique := t.unique.sublist (List.filter_sublist.map key)

/-- Remove the row of a key. -/
def remove (t : Table key) (k : κ) : Table key :=
  t.delete fun r => key r = k

/-- The aggregate of one column. -/
def sum {M : Type*} [AddCommGroup M] (t : Table key) (f : ρ → M) : M :=
  (t.rows.map f).sum

-- =============================================================== lookup

omit [DecidableEq κ] in
/-- Two rows of one table with one key are one row. -/
theorem eq_of_key_eq {t : Table key} {r r' : ρ} (hr : r ∈ t.rows)
    (hr' : r' ∈ t.rows) (h : key r = key r') : r = r' :=
  List.inj_on_of_nodup_map t.unique hr hr' h

/-- A key finds the row that has it. -/
theorem find?_eq_some {t : Table key} {k : κ} {r : ρ} :
    t.find? k = some r ↔ r ∈ t.rows ∧ key r = k := by
  constructor
  · intro h
    exact ⟨List.mem_of_find?_eq_some h, by simpa using List.find?_some h⟩
  · intro h
    obtain ⟨hr, rfl⟩ := h
    cases h : t.find? (key r) with
    | none =>
        have := List.find?_eq_none.mp h r hr
        simp at this
    | some r' =>
        have hk : key r' = key r := by simpa using List.find?_some h
        rw [eq_of_key_eq (List.mem_of_find?_eq_some h) hr hk]

/-- A key finds nothing where the table does not have it. -/
theorem find?_eq_none {t : Table key} {k : κ} :
    t.find? k = none ↔ ¬ t.Has k := by
  simp [find?, Has]

/-- A row that is found has the key it was sought by. -/
theorem key_of_find? {t : Table key} {k : κ} {r : ρ}
    (h : t.find? k = some r) : key r = k :=
  (find?_eq_some.mp h).2

/-- A row that is found is in the table. -/
theorem mem_of_find? {t : Table key} {k : κ} {r : ρ}
    (h : t.find? k = some r) : r ∈ t.rows :=
  (find?_eq_some.mp h).1

/-- A row is found under its own key. -/
theorem find?_of_mem {t : Table key} {r : ρ} (h : r ∈ t.rows) :
    t.find? (key r) = some r :=
  find?_eq_some.mpr ⟨h, rfl⟩

/-- A table has a key where the key finds a row. -/
theorem has_iff {t : Table key} {k : κ} :
    t.Has k ↔ ∃ r, t.find? k = some r := by
  rw [← not_iff_not, ← find?_eq_none]
  cases t.find? k <;> simp

/-- A replacement keeps the order of the rows. -/
@[simp] theorem rows_set (t : Table key) (r : ρ) :
    (t.set r).rows = t.rows.map fun x => if key x = key r then r else x := rfl

/-- What `set` leaves under each key: its row where a row was, and
every other row as before. -/
theorem find?_set (t : Table key) (r : ρ) (k : κ) :
    (t.set r).find? k
      = if key r = k then (t.find? k).map fun _ => r else t.find? k := by
  unfold find?
  rw [rows_set, List.find?_map]
  by_cases hk : key r = k
  · subst hk
    rw [if_pos rfl]
    have hp : ((fun x => decide (key x = key r)) ∘ fun x => if key x = key r then r else x)
        = fun x => decide (key x = key r) := by
      funext x
      by_cases hx : key x = key r <;> simp [hx]
    rw [hp]
    cases h : t.rows.find? fun x => decide (key x = key r) with
    | none => rfl
    | some x =>
        have hx : key x = key r := by simpa using List.find?_some h
        simp [hx]
  · rw [if_neg hk]
    have hp : ((fun x => decide (key x = k)) ∘ fun x => if key x = key r then r else x)
        = fun x => decide (key x = k) := by
      funext x
      by_cases hx : key x = key r
      · have hxk : ¬ key x = k := fun h => hk (hx.symm.trans h)
        simp [hx, hk]
      · simp [hx]
    rw [hp]
    cases h : t.rows.find? fun x => decide (key x = k) with
    | none => rfl
    | some x =>
        have hx : key x = k := by simpa using List.find?_some h
        have hxr : ¬ key x = key r := fun h' => hk (h'.symm.trans hx)
        simp [hxr]

/-- Who replaces a row finds the new one. -/
theorem find?_set_self {t : Table key} {r old : ρ}
    (h : t.find? (key r) = some old) : (t.set r).find? (key r) = some r := by
  rw [find?_set, if_pos rfl, h]
  rfl

/-- The other rows stay as they were. -/
theorem find?_set_of_ne {t : Table key} {r : ρ} {k : κ} (h : key r ≠ k) :
    (t.set r).find? k = t.find? k := by
  rw [find?_set, if_neg h]

/-- A row after a `set`: the one written, or one that was there. -/
theorem find?_set_eq_some {t : Table key} {r x : ρ} {k : κ} :
    (t.set r).find? k = some x
      ↔ key r = k ∧ (∃ old, t.find? k = some old) ∧ x = r
        ∨ key r ≠ k ∧ t.find? k = some x := by
  rw [find?_set]
  by_cases hk : key r = k
  · rw [if_pos hk, Option.map_eq_some_iff]
    constructor
    · intro h
      obtain ⟨old, hold, rfl⟩ := h
      exact Or.inl ⟨hk, ⟨old, hold⟩, rfl⟩
    · intro h
      rcases h with ⟨-, ⟨old, hold⟩, rfl⟩ | ⟨hne, -⟩
      · exact ⟨old, hold, rfl⟩
      · exact absurd hk hne
  · rw [if_neg hk]
    constructor
    · intro h
      exact Or.inr ⟨hk, h⟩
    · intro h'
      rcases h' with ⟨hk', -⟩ | ⟨-, h⟩
      · exact absurd hk' hk
      · exact h

/-- Two writes under one key are the second. -/
theorem set_set {t : Table key} {r r' : ρ} (h : key r' = key r) :
    (t.set r).set r' = t.set r' := by
  refine Table.ext ?_
  rw [rows_set, rows_set, rows_set, List.map_map]
  refine List.map_congr_left fun x _ => ?_
  by_cases hx : key x = key r <;> simp [hx, h]

/-- A replacement neither adds nor removes a key. -/
theorem has_set {t : Table key} {r : ρ} {k : κ} :
    (t.set r).Has k ↔ t.Has k := by
  rw [has_iff, has_iff, find?_set]
  split
  · cases t.find? k <;> simp
  · rfl

-- =============================================================== update

section Update

variable {t : Table key} {p : ρ → Prop} [DecidablePred p] {f : ρ → ρ}
  {hf : ∀ r, key (f r) = key r}

/-- An update changes the row of a key where its condition holds. -/
theorem find?_update (k : κ) : (t.update p f hf).find? k
    = (t.find? k).map fun r => if p r then f r else r := by
  unfold find? update
  rw [List.find?_map]
  have hkey : ((fun r => decide (key r = k)) ∘ fun r => if p r then f r else r)
      = fun r => decide (key r = k) := by
    funext r
    show decide (key (if p r then f r else r) = k) = _
    by_cases hp : p r
    · rw [if_pos hp, hf]
    · rw [if_neg hp]
  rw [hkey]

end Update

-- =============================================================== delete

/-- A delete takes away the row of a key where its condition holds. -/
theorem find?_delete (t : Table key) (p : ρ → Prop) [DecidablePred p]
    (k : κ) : (t.delete p).find? k = (t.find? k).filter fun r => ¬ p r := by
  cases h : t.find? k with
  | none =>
      rw [Option.filter_none, find?_eq_none]
      intro hhas
      obtain ⟨r, hr, hk⟩ := List.mem_map.mp hhas
      have hmem : r ∈ t.rows := (List.mem_filter.mp hr).1
      rw [find?_eq_none] at h
      apply h
      exact List.mem_map.mpr ⟨r, hmem, hk⟩
  | some r =>
      obtain ⟨hmem, hk⟩ := find?_eq_some.mp h
      by_cases hp : p r
      · have hnone : (t.delete p).find? k = none := by
          rw [find?_eq_none]
          intro hhas
          obtain ⟨x, hx, hxk⟩ := List.mem_map.mp hhas
          obtain ⟨hxmem, hxp⟩ := List.mem_filter.mp hx
          have hxr : x = r := eq_of_key_eq hxmem hmem (hxk.trans hk.symm)
          rw [hxr] at hxp
          simp [hp] at hxp
        rw [hnone, Option.filter_some, if_neg]
        simpa using hp
      · have hsome : (t.delete p).find? k = some r :=
          find?_eq_some.mpr ⟨List.mem_filter.mpr ⟨hmem, by simp [hp]⟩, hk⟩
        rw [hsome, Option.filter_some, if_pos]
        simpa using hp

-- =============================================================== insert

/-- A key picks out at most one row. -/
theorem length_filter_key (t : Table key) (k : κ) :
    (t.rows.filter fun r => key r = k).length = if t.Has k then 1 else 0 := by
  have hcount : (t.rows.map key).count k
      = (t.rows.filter fun r => key r = k).length := by
    rw [List.count, List.countP_map, List.countP_eq_length_filter]
    rfl
  rw [← hcount]
  by_cases h : t.Has k
  · rw [if_pos h]
    exact List.count_eq_one_of_mem t.unique h
  · rw [if_neg h]
    exact List.count_eq_zero.mpr h

/-- An insert is refused where the key is taken. -/
theorem insert?_eq_none {t : Table key} {r : ρ} :
    t.insert? r = none ↔ t.Has (key r) := by
  unfold insert? Has
  split <;> simp [*]

/-- An insert of a new key appends its row. -/
theorem insert?_eq_some {t t' : Table key} {r : ρ} :
    t.insert? r = some t' ↔ ¬ t.Has (key r) ∧ t'.rows = t.rows ++ [r] := by
  unfold insert? Has
  split
  · next h => simp [h]
  · next h =>
    simp only [Option.some.injEq, h, not_false_eq_true, true_and]
    constructor
    · intro heq
      subst heq
      rfl
    · intro h'
      exact (Table.ext h').symm

/-- After an insert the new key finds the new row. -/
theorem find?_insert {t t' : Table key} {r : ρ} (h : t.insert? r = some t')
    (k : κ) :
    t'.find? k = if key r = k then some r else t.find? k := by
  obtain ⟨hfree, hrows⟩ := insert?_eq_some.mp h
  unfold find?
  rw [hrows, List.find?_append]
  by_cases hk : key r = k
  · subst hk
    have hnone : t.find? (key r) = none := find?_eq_none.mpr hfree
    unfold find? at hnone
    rw [hnone]
    simp
  · rw [if_neg hk]
    cases t.rows.find? fun x => decide (key x = k) <;> simp [hk]

/-- An insert adds one key. -/
theorem has_insert {t t' : Table key} {r : ρ} (h : t.insert? r = some t')
    {k : κ} : t'.Has k ↔ t.Has k ∨ k = key r := by
  unfold Has
  rw [(insert?_eq_some.mp h).2]
  simp

/-- On a conflict an upsert does nothing. -/
theorem upsert_of_has {t : Table key} {r : ρ} (h : t.Has (key r)) :
    t.upsert r = t := by
  unfold upsert
  rw [insert?_eq_none.mpr h]
  rfl

/-- Without a conflict an upsert appends its row. -/
theorem rows_upsert_of_not_has {t : Table key} {r : ρ}
    (h : ¬ t.Has (key r)) : (t.upsert r).rows = t.rows ++ [r] := by
  unfold upsert
  cases h' : t.insert? r with
  | none => exact absurd (insert?_eq_none.mp h') h
  | some t' => exact (insert?_eq_some.mp h').2

/-- Insert on conflict do nothing adds at most the one row. -/
theorem rows_upsert (t : Table key) (r : ρ) :
    (t.upsert r).rows = t.rows ∨ (t.upsert r).rows = t.rows ++ [r] := by
  by_cases h : t.Has (key r)
  · rw [upsert_of_has h]
    exact .inl rfl
  · exact .inr (rows_upsert_of_not_has h)

/-- `insert … on conflict do nothing`, read back. -/
theorem find?_upsert (t : Table key) (r : ρ) (k : κ) :
    (t.upsert r).find? k
      = if key r = k then some ((t.find? k).getD r) else t.find? k := by
  unfold upsert
  cases h : t.insert? r with
  | none =>
      obtain ⟨x, hx⟩ := has_iff.mp (insert?_eq_none.mp h)
      rw [Option.getD_none]
      split
      · next hk =>
        subst hk
        rw [hx]
        rfl
      · rfl
  | some t' =>
      have hnone := find?_eq_none.mpr (insert?_eq_some.mp h).1
      rw [Option.getD_some, find?_insert h]
      split
      · next hk =>
        subst hk
        rw [hnone]
        rfl
      · rfl

/-- After an upsert the key is there, whoever put it. -/
theorem has_upsert {t : Table key} {r : ρ} {k : κ} :
    (t.upsert r).Has k ↔ t.Has k ∨ k = key r := by
  rw [has_iff, has_iff, find?_upsert]
  split
  · next hk => simp [hk]
  · next hk => simp [Ne.symm hk]

-- ======================================================== put and remove

/-- After a put its key finds the new row. -/
theorem find?_put (t : Table key) (r : ρ) (k : κ) :
    (t.put r).find? k = if key r = k then some r else t.find? k := by
  unfold put
  rw [find?_upsert, find?_set]
  split
  · cases t.find? k with
    | none => rfl
    | some old => rfl
  · rfl

/-- After a removal its key finds nothing. -/
theorem find?_remove (t : Table key) (k k' : κ) :
    (t.remove k).find? k' = if k = k' then none else t.find? k' := by
  unfold remove
  rw [find?_delete]
  cases h : t.find? k' with
  | none => simp
  | some r =>
      have hr : key r = k' := key_of_find? h
      rw [Option.filter_some]
      by_cases hk : k = k'
      · simp [hr, hk]
      · have hrk : key r ≠ k := fun h' => hk (h'.symm.trans hr)
        simp [hk, hrk]

/-- A put adds its key, if it is new. -/
theorem has_put {t : Table key} {r : ρ} {k : κ} :
    (t.put r).Has k ↔ t.Has k ∨ k = key r := by
  rw [has_iff, has_iff, find?_put]
  split
  · next hk => simp [hk]
  · next hk => simp [Ne.symm hk]

/-- A removal takes one key away. -/
theorem has_remove {t : Table key} {k k' : κ} :
    (t.remove k).Has k' ↔ t.Has k' ∧ k' ≠ k := by
  rw [has_iff, has_iff, find?_remove]
  split
  · next hk => simp [hk]
  · next hk => simp [Ne.symm hk]

-- ============================================================ aggregates

section Sum

variable {M : Type*} [AddCommGroup M]

/-- Overwriting one row moves the aggregate by its difference. -/
theorem sum_set {t : Table key} {r old : ρ} (f : ρ → M)
    (h : t.find? (key r) = some old) :
    (t.set r).sum f = t.sum f + (f r - f old) := by
  obtain ⟨hmem, hkey⟩ := find?_eq_some.mp h
  have hnodup := t.unique
  unfold sum
  rw [rows_set]
  clear h
  -- the rows apart from `old` keep their key, so only its summand moves
  generalize t.rows = rows at hmem hnodup ⊢
  induction rows with
  | nil => simp at hmem
  | cons x l ih =>
      rw [List.map_cons, List.nodup_cons] at hnodup
      simp only [List.map_cons, List.sum_cons]
      rcases List.mem_cons.mp hmem with rfl | hmem'
      · have hrest : (l.map fun x => if key x = key r then r else x) = l := by
          conv_rhs => rw [← List.map_id l]
          refine List.map_congr_left fun y hy => ?_
          have hne : ¬ key y = key r := by
            intro hyr
            exact hnodup.1 (List.mem_map.mpr ⟨y, hy, hyr.trans hkey.symm⟩)
          simp [hne]
        rw [hrest, if_pos hkey]
        abel
      · have hne : ¬ key x = key r := by
          intro hxr
          exact hnodup.1 (List.mem_map.mpr ⟨old, hmem', hkey.trans hxr.symm⟩)
        rw [ih hmem' hnodup.2, if_neg hne]
        abel

/-- An insert adds its own row to the column's sum. -/
theorem sum_insert {t t' : Table key} {r : ρ} (f : ρ → M)
    (h : t.insert? r = some t') : t'.sum f = t.sum f + f r := by
  unfold sum
  rw [(insert?_eq_some.mp h).2]
  simp

omit [DecidableEq κ] in
/-- In an aggregate of nonnegative summands every row is covered. -/
theorem le_sum {N : Type*} [AddCommGroup N] [PartialOrder N]
    [IsOrderedAddMonoid N] {t : Table key} (f : ρ → N)
    (hf : ∀ r ∈ t.rows, 0 ≤ f r) {r : ρ} (hr : r ∈ t.rows) :
    f r ≤ t.sum f :=
  List.single_le_sum (by simpa using hf) _ (List.mem_map_of_mem hr)

omit [DecidableEq κ] in
/-- A column of zeros has the sum zero. -/
theorem sum_eq_zero {t : Table key} (f : ρ → M)
    (hf : ∀ r ∈ t.rows, f r = 0) : t.sum f = 0 :=
  List.sum_eq_zero (by simpa using hf)

end Sum

end Table

end Relational
