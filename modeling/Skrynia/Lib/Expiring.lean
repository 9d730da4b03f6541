/-
Keys that expire.

A map has a deadline for each of its keys. From its deadline on a key
reads as one that was never there: as `gone`, which is `none` for a value
and the empty list for a set. A write sets the value and the deadline at
once, so what expires is never seen half-way.

What is left of a map is what the map has, as long as the deadline lasts
(`left_of_lt`), and nothing that the map does not have (`left_eq_some`,
`mem_left`).

# Sets

A set under one of the keys gets a member or loses some; what that leaves
of the membership in all of them is the last section.
-/
import Mathlib.Logic.Function.Basic
import Mathlib.Tactic.Common

namespace Expiring

universe u v

variable {κ : Type u} {α : Type v}

/-- What is left of a map. -/
def left (gone : α) (now : Nat) (deadline : κ → Nat) (m : κ → α) : κ → α :=
  fun k => if now < deadline k then m k else gone

variable {now : Nat} {deadline : κ → Nat} {k : κ}

/-- Before its deadline a key keeps its value. -/
theorem left_of_lt {gone : α} {m : κ → α} (h : now < deadline k) :
    left gone now deadline m k = m k :=
  if_pos h

/-- From its deadline on the value is gone. -/
theorem left_of_le {gone : α} {m : κ → α} (h : deadline k ≤ now) :
    left gone now deadline m k = gone :=
  if_neg (Nat.not_lt.mpr h)

/-- A value that is left was there and is not due. -/
theorem left_eq_some {m : κ → Option α} {a : α} :
    left none now deadline m k = some a ↔ now < deadline k ∧ m k = some a := by
  by_cases h : now < deadline k
  · rw [left_of_lt h]
    exact (and_iff_right h).symm
  · rw [left_of_le (Nat.not_lt.mp h)]
    exact ⟨nofun, fun h' => absurd h'.1 h⟩

/-- So is a member of a set that is left. -/
theorem mem_left {m : κ → List α} {a : α} :
    a ∈ left [] now deadline m k ↔ now < deadline k ∧ a ∈ m k := by
  by_cases h : now < deadline k
  · rw [left_of_lt h]
    exact (and_iff_right h).symm
  · rw [left_of_le (Nat.not_lt.mp h)]
    exact ⟨fun h' => absurd h' List.not_mem_nil, fun h' => absurd h'.1 h⟩

-- =================================================================== sets

section Sets

variable [DecidableEq κ] {m : κ → List α} {j : κ} {a b : α}

/-- Inserting somewhere removes nothing. -/
theorem mem_update_insert [DecidableEq α] (h : a ∈ m k) :
    a ∈ Function.update m j ((m j).insert b) k := by
  by_cases hk : k = j
  · subst hk
    rw [Function.update_self]
    exact List.mem_insert_of_mem h
  · rw [Function.update_of_ne hk]
    exact h

/-- What was inserted is there. -/
theorem mem_update_insert_self [DecidableEq α] :
    b ∈ Function.update m j ((m j).insert b) j := by
  rw [Function.update_self]
  exact List.mem_insert_self

/-- And it is all that is new. -/
theorem of_mem_update_insert [DecidableEq α]
    (h : a ∈ Function.update m j ((m j).insert b) k) :
    k = j ∧ a = b ∨ a ∈ m k := by
  by_cases hk : k = j
  · subst hk
    rw [Function.update_self] at h
    rcases List.mem_insert_iff.mp h with hab | hmem
    · exact Or.inl ⟨rfl, hab⟩
    · exact Or.inr hmem
  · rw [Function.update_of_ne hk] at h
    exact Or.inr h

/-- Erasing one member leaves the others. -/
theorem mem_update_erase [DecidableEq α] (h : a ∈ m k) (hab : a ≠ b) :
    a ∈ Function.update m j ((m j).erase b) k := by
  by_cases hk : k = j
  · subst hk
    rw [Function.update_self]
    exact (List.mem_erase_of_ne hab).mpr h
  · rw [Function.update_of_ne hk]
    exact h

/-- And adds none. -/
theorem of_mem_update_erase [DecidableEq α]
    (h : a ∈ Function.update m j ((m j).erase b) k) : a ∈ m k := by
  by_cases hk : k = j
  · subst hk
    rw [Function.update_self] at h
    exact List.mem_of_mem_erase h
  · rw [Function.update_of_ne hk] at h
    exact h

/-- Filtering one set leaves what passes. -/
theorem mem_update_filter {p : α → Bool} (h : a ∈ m k) (hp : p a = true) :
    a ∈ Function.update m j ((m j).filter p) k := by
  by_cases hk : k = j
  · subst hk
    rw [Function.update_self]
    exact List.mem_filter.mpr ⟨h, hp⟩
  · rw [Function.update_of_ne hk]
    exact h

/-- And adds none. -/
theorem of_mem_update_filter {p : α → Bool}
    (h : a ∈ Function.update m j ((m j).filter p) k) : a ∈ m k := by
  by_cases hk : k = j
  · subst hk
    rw [Function.update_self] at h
    exact (List.mem_filter.mp h).1
  · rw [Function.update_of_ne hk] at h
    exact h

end Sets

end Expiring
