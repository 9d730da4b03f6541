/-
Registries: a map from keys to the non-empty sets of what is registered
under them.

A set that becomes empty leaves the map with its key, so `entries` of a
key that is not there and of one whose last member left are the same. The
map itself stays inside; what an operation changes is read with
`mem_add_iff` and `mem_remove_iff`.
-/
import Mathlib.Data.Finset.Card
import Mathlib.Logic.Function.Basic

namespace Registering

universe u v

/-- A map from keys to sets, none of them empty. -/
structure Registry (κ : Type u) (α : Type v) where
  map : κ → Option (Finset α)
  filled : ∀ k s, map k = some s → s.Nonempty

namespace Registry

variable {κ : Type u} {α : Type v} [DecidableEq κ] [DecidableEq α]

/-- Nothing is registered. -/
def empty : Registry κ α := ⟨fun _ => none, nofun⟩

variable (r : Registry κ α)

/-- What is registered under a key. -/
def entries (k : κ) : Finset α := (r.map k).getD ∅

/-- Register `a` under `k`, which may be new. -/
def add (k : κ) (a : α) : Registry κ α where
  map := Function.update r.map k (some (insert a (r.entries k)))
  filled := by
    intro k' s hs
    by_cases hk : k' = k
    · subst hk
      rw [Function.update_self] at hs
      cases hs
      exact Finset.insert_nonempty _ _
    · rw [Function.update_of_ne hk] at hs
      exact r.filled k' s hs

/-- Take `a` away from `k`, and `k` away with its last member. -/
def remove (k : κ) (a : α) : Registry κ α where
  map := Function.update r.map k
    (if (r.entries k).erase a = ∅ then none
    else some ((r.entries k).erase a))
  filled := by
    intro k' s hs
    by_cases hk : k' = k
    · subst hk
      rw [Function.update_self] at hs
      split at hs
      · cases hs
      · next hne =>
          cases hs
          exact Finset.nonempty_iff_ne_empty.mpr hne
    · rw [Function.update_of_ne hk] at hs
      exact r.filled k' s hs

/-- Take `a` away from the key it is under, if there is one. -/
def leave (k : Option κ) (a : α) : Registry κ α :=
  match k with
  | none => r
  | some k => r.remove k a

omit [DecidableEq κ] [DecidableEq α] in
/-- No empty set remains. -/
theorem map_ne (k : κ) : r.map k ≠ some ∅ := by
  intro h
  exact Finset.not_nonempty_empty (r.filled k ∅ h)

variable {r} {k k' : κ} {a b : α}

/-- Adding touches one key. -/
theorem entries_add : (r.add k a).entries k'
    = if k' = k then insert a (r.entries k) else r.entries k' := by
  show (Function.update r.map k _ k').getD ∅ = _
  by_cases h : k' = k
  · subst h
    rw [if_pos rfl, Function.update_self]
    rfl
  · rw [if_neg h, Function.update_of_ne h]
    rfl

/-- So does removing. -/
theorem entries_remove : (r.remove k a).entries k'
    = if k' = k then (r.entries k).erase a else r.entries k' := by
  by_cases h : k' = k
  · subst h
    rw [if_pos rfl]
    show (Function.update r.map k' _ k').getD ∅ = _
    rw [Function.update_self]
    split
    · next hempty => rw [hempty]; rfl
    · rfl
  · rw [if_neg h]
    show (Function.update r.map k _ k').getD ∅ = _
    rw [Function.update_of_ne h]
    rfl

/-- What is registered after an addition. -/
theorem mem_add_iff :
    b ∈ (r.add k a).entries k' ↔ b ∈ r.entries k' ∨ k' = k ∧ b = a := by
  rw [entries_add]
  split
  · next h =>
      subst h
      rw [Finset.mem_insert]
      exact ⟨fun h => h.symm.imp_right fun hb => ⟨rfl, hb⟩,
        fun h => (h.imp_right And.right).symm⟩
  · next h => exact ⟨Or.inl, fun hb => hb.resolve_right fun hk => h hk.1⟩

/-- What is registered after a removal. -/
theorem mem_remove_iff :
    b ∈ (r.remove k a).entries k'
      ↔ b ∈ r.entries k' ∧ ¬ (k' = k ∧ b = a) := by
  rw [entries_remove]
  split
  · next h =>
      subst h
      rw [Finset.mem_erase]
      exact ⟨fun hb => ⟨hb.2, fun h => hb.1 h.2⟩,
        fun hb => ⟨fun h => hb.2 ⟨rfl, h⟩, hb.1⟩⟩
  · next h => exact ⟨fun hb => ⟨hb, fun hk => h hk.1⟩, And.left⟩

/-- What is registered after somebody has left where it was, if anywhere. -/
theorem mem_leave_iff {o : Option κ} :
    b ∈ (r.leave o a).entries k' ↔ b ∈ r.entries k' ∧ ¬ (o = some k' ∧ b = a) := by
  cases o with
  | none => exact ⟨fun hb => ⟨hb, nofun⟩, And.left⟩
  | some k =>
      refine mem_remove_iff.trans (and_congr_right fun _ => not_congr ?_)
      rw [Option.some_inj, eq_comm]

/-- A capacity that is checked before each registration is never
exceeded. -/
theorem card_entries_add_le {n : Nat} (h : ∀ k, (r.entries k).card ≤ n)
    (hk : (r.entries k).card < n) (k' : κ) :
    ((r.add k a).entries k').card ≤ n := by
  rw [entries_add]
  split
  · exact Nat.le_trans (Finset.card_insert_le _ _) hk
  · exact h k'

/-- No set grows by that. -/
theorem card_entries_leave_le {n : Nat} (h : ∀ k, (r.entries k).card ≤ n)
    (o : Option κ) (k' : κ) : ((r.leave o a).entries k').card ≤ n := by
  refine Nat.le_trans (Finset.card_le_card ?_) (h k')
  exact fun b hb => (mem_leave_iff.mp hb).1

end Registry

end Registering
