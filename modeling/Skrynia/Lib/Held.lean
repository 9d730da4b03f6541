/-
Things that belong to owners, such as the uncommitted writes and the locks
of concurrent transactions.

A `Held α` is a list of things, each with the number of its owner. `of`
reads one owner's things; each operation touches one owner and leaves
`of` every other owner as it is (`of_add_ne`, `of_release_ne`,
`of_update_ne`), so what is said through `of` needs no frame argument of
its own.
-/
import Mathlib.Data.List.Basic

namespace Relational

universe u

/-- Things, each with the number of its owner. -/
abbrev Held (α : Type u) := List (Nat × α)

namespace Held

variable {α : Type u} (l : Held α) (c : Nat)

/-- What the owner holds. -/
def of : List α := (l.filter fun x => x.1 = c).map Prod.snd

/-- The things that `c` comes to own. -/
def add (as : List α) : Held α := l ++ as.map fun a => (c, a)

/-- The owner lets go of everything. -/
def release : Held α := l.filter fun x => x.1 ≠ c

/-- Rewrite what the owner holds. -/
def update (f : α → α) : Held α :=
  l.map fun x => if x.1 = c then (c, f x.2) else x

/-- Somebody else holds a thing that meets `p`. -/
def ByOther (p : α → Prop) : Prop := ∃ x ∈ l, x.1 ≠ c ∧ p x.2

instance (p : α → Prop) [DecidablePred p] : Decidable (l.ByOther c p) :=
  inferInstanceAs (Decidable (∃ x ∈ l, _ ∧ _))

variable {l c} {c' : Nat} {a : α} {as : List α} {f : α → α} {p : α → Prop}

/-- What `c` owns. -/
theorem mem_of : a ∈ l.of c ↔ (c, a) ∈ l := by
  unfold of
  rw [List.mem_map]
  constructor
  · intro h
    obtain ⟨x, hx, ha⟩ := h
    obtain ⟨hmem, hc⟩ := List.mem_filter.mp hx
    rw [decide_eq_true_eq] at hc
    rw [← hc, ← ha]
    exact hmem
  · intro h
    exact ⟨(c, a), List.mem_filter.mpr ⟨h, by simp⟩, rfl⟩

/-- Somebody else owns a thing with `p`. -/
theorem byOther_iff : l.ByOther c p ↔ ∃ c', c' ≠ c ∧ ∃ a ∈ l.of c', p a := by
  constructor
  · intro h
    obtain ⟨x, hx, hne, hp⟩ := h
    exact ⟨x.1, hne, x.2, mem_of.mpr hx, hp⟩
  · intro h
    obtain ⟨c', hne, a, ha, hp⟩ := h
    exact ⟨(c', a), mem_of.mp ha, hne, hp⟩

/-- What is left when `c` lets go. -/
theorem mem_release {x : Nat × α} : x ∈ l.release c ↔ x ∈ l ∧ x.1 ≠ c := by
  unfold release
  rw [List.mem_filter, decide_eq_true_eq]

/-- What there is after `c` has taken more. -/
theorem mem_add {x : Nat × α} :
    x ∈ l.add c as ↔ x ∈ l ∨ x.1 = c ∧ x.2 ∈ as := by
  unfold add
  rw [List.mem_append, List.mem_map]
  apply or_congr_right
  constructor
  · intro h
    obtain ⟨a, ha, rfl⟩ := h
    exact ⟨rfl, ha⟩
  · intro h
    obtain ⟨rfl, ha⟩ := h
    exact ⟨x.2, ha, rfl⟩

/-- The new things come after the owner's others. -/
theorem of_add_self : (l.add c as).of c = l.of c ++ as := by
  unfold of add
  rw [List.filter_append, List.map_append]
  congr 1
  induction as with
  | nil => rfl
  | cons a as ih =>
      rw [List.map_cons, List.filter_cons_of_pos (by simp), List.map_cons, ih]

/-- No other owner notices. -/
theorem of_add_ne (h : c' ≠ c) : (l.add c as).of c' = l.of c' := by
  unfold of add
  rw [List.filter_append, List.map_append]
  have hnil : ((as.map fun a => (c, a)).filter fun x => x.1 = c') = [] := by
    rw [List.filter_eq_nil_iff]
    intro x hx
    obtain ⟨a, -, rfl⟩ := List.mem_map.mp hx
    simpa using Ne.symm h
  rw [hnil, List.map_nil, List.append_nil]

/-- Who lets go has nothing left. -/
theorem of_release_self : (l.release c).of c = [] := by
  unfold of release
  rw [List.filter_filter, List.map_eq_nil_iff, List.filter_eq_nil_iff]
  intro x _
  simp

/-- And nobody else loses anything. -/
theorem of_release_ne (h : c' ≠ c) : (l.release c).of c' = l.of c' := by
  unfold of release
  rw [List.filter_filter]
  congr 1
  apply List.filter_congr
  intro x _
  by_cases hx : x.1 = c'
  · simp [hx, h]
  · simp [hx]

/-- The owner's things are changed in place. -/
theorem of_update_self : (l.update c f).of c = (l.of c).map f := by
  unfold of update
  induction l with
  | nil => rfl
  | cons x l ih =>
      by_cases hx : x.1 = c
      · simp [hx, ih]
      · simp [hx, ih]

/-- Nobody else's are. -/
theorem of_update_ne (h : c' ≠ c) : (l.update c f).of c' = l.of c' := by
  unfold of update
  induction l with
  | nil => rfl
  | cons x l ih =>
      by_cases hx : x.1 = c
      · simp [hx, Ne.symm h, ih]
      · by_cases hx' : x.1 = c'
        · simp [hx', h, ih]
        · simp [hx, hx', ih]

end Held

end Relational
