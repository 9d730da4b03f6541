/-
Values that one transaction at a time may change.

A `Cell α` is a value as committed and, while a transaction has it
locked, that transaction's own version. `acquire` takes the lock and
starts from the committed value, `edit` changes the version of the
transaction that has the lock, `publish` commits the version and
`discard` drops it.

# What holds of a cell

`Sound P R` says that the committed value and the version in progress
meet `P`, and that the version is `R`-later than the value. Since nobody
else can publish in between, the value that a `publish` leaves is
`R`-later than the one it replaces (`Sound.publish_later`).
-/
import Mathlib.Tactic.Common

namespace Relational

universe u

/-- A committed value, and the version of the transaction that has the
lock. -/
structure Cell (α : Type u) where
  value : α
  draft : Option (Nat × α)

namespace Cell

variable {α : Type u} (n : Nat) (f : α → α) (c : Cell α)

/-- A value that nobody has locked. -/
def settled (a : α) : Cell α := ⟨a, none⟩

/-- The version of the cell that the transaction sees. -/
def seen : α :=
  match c.draft with
  | some (m, v) => if m = n then v else c.value
  | none => c.value

/-- Take the lock, or `none` while another transaction has it. -/
def acquire : Option (Cell α) :=
  match c.draft with
  | some (m, _) => if m = n then some c else none
  | none => some { c with draft := some (n, c.value) }

/-- The holder of the lock changes its version. -/
def edit : Cell α :=
  match c.draft with
  | some (m, v) => if m = n then { c with draft := some (m, f v) } else c
  | none => c

/-- The holder commits its version. -/
def publish : Cell α :=
  match c.draft with
  | some (m, v) => if m = n then settled v else c
  | none => c

/-- The holder rolls back. -/
def discard : Cell α :=
  match c.draft with
  | some (m, _) => if m = n then settled c.value else c
  | none => c

/-- The committed value meets `P`, and so does the version in progress,
which is later. -/
structure Sound (P : α → Prop) (R : α → α → Prop) (c : Cell α) : Prop where
  value : P c.value
  draft : ∀ m v, c.draft = some (m, v) → P v ∧ R c.value v

variable {n f c} {P : α → Prop} {R : α → α → Prop}

/-- A cell that nobody holds is sound if its value is. -/
theorem sound_settled {a : α} (h : P a) : Sound P R (settled a) :=
  ⟨h, nofun⟩

/-- The holder sees its own version. -/
theorem seen_of_draft {v : α} (h : c.draft = some (n, v)) : c.seen n = v := by
  unfold seen
  rw [h]
  exact if_pos rfl

/-- The lock is the transaction's after `acquire`. -/
theorem draft_acquire {c' : Cell α} (h : c.acquire n = some c') :
    c'.draft = some (n, c'.seen n) ∧ c'.value = c.value := by
  unfold acquire at h
  split at h
  · next m v hdraft =>
      split at h
      · next hm =>
          cases h
          rw [hm] at hdraft
          exact ⟨hdraft.trans (by rw [seen_of_draft hdraft]), rfl⟩
      · cases h
  · cases h
    refine ⟨?_, rfl⟩
    rw [seen_of_draft rfl]

/-- Whoever looks sees the same after `acquire`. -/
theorem seen_acquire {c' : Cell α} (h : c.acquire n = some c') (m : Nat) :
    c'.seen m = c.seen m := by
  unfold acquire at h
  split at h
  · next k v hdraft =>
      split at h
      · cases h
        rfl
      · cases h
  · next hdraft =>
      cases h
      unfold seen
      rw [hdraft]
      dsimp only
      split <;> rfl

/-- An `edit` is seen by the transaction that has the lock. -/
theorem seen_edit_self {v : α} (h : c.draft = some (n, v)) :
    (c.edit n f).seen n = f (c.seen n) := by
  rw [seen_of_draft h, edit, h]
  dsimp only
  rw [if_pos rfl]
  exact seen_of_draft rfl

/-- Nobody else sees an `edit`. -/
theorem seen_edit_of_ne {m : Nat} (hm : m ≠ n) :
    (c.edit n f).seen m = c.seen m := by
  unfold edit
  split
  · next k v hdraft =>
      split
      · next hk =>
          unfold seen
          rw [hdraft, hk]
          dsimp only
          rw [if_neg hm.symm, if_neg hm.symm]
      · rfl
  · rfl

/-- Nobody else sees a `discard`. -/
theorem seen_discard_of_ne {m : Nat} (hm : m ≠ n) :
    (c.discard n).seen m = c.seen m := by
  unfold discard
  split
  · next k v hdraft =>
      split
      · next hk =>
          unfold seen
          rw [hdraft, hk]
          dsimp only
          rw [if_neg hm.symm]
          rfl
      · rfl
  · rfl

/-- What a transaction publishes is what it saw. -/
theorem value_publish : (c.publish n).value = c.seen n := by
  unfold publish seen
  split
  · split <;> rfl
  · rfl

namespace Sound

/-- Taking the lock keeps the cell sound. -/
theorem acquire (h : Sound P R c) (hrefl : ∀ a, R a a) {c' : Cell α}
    (hc : c.acquire n = some c') : Sound P R c' := by
  unfold Cell.acquire at hc
  split at hc
  · split at hc
    · cases hc
      exact h
    · cases hc
  · cases hc
    refine ⟨h.value, ?_⟩
    intro m v hdraft
    cases hdraft
    exact ⟨h.value, hrefl c.value⟩

/-- An edit that keeps `P` and moves by `R` keeps the cell sound. -/
theorem edit (h : Sound P R c) (htrans : ∀ {a b d}, R a b → R b d → R a d)
    (hf : ∀ v, c.draft = some (n, v) → P v → P (f v) ∧ R v (f v)) :
    Sound P R (c.edit n f) := by
  unfold Cell.edit
  split
  · next m v hdraft =>
      split
      · next hm =>
          rw [hm] at hdraft
          obtain ⟨hv, hlater⟩ := h.draft n v hdraft
          obtain ⟨hfv, hfl⟩ := hf v hdraft hv
          refine ⟨h.value, ?_⟩
          intro m' v' hdraft'
          cases hdraft'
          exact ⟨hfv, htrans hlater hfl⟩
      · exact h
  · exact h

/-- A commit keeps the cell sound. -/
theorem publish (h : Sound P R c) : Sound P R (c.publish n) := by
  unfold Cell.publish
  split
  · next m v hdraft =>
      split
      · exact sound_settled (h.draft m v hdraft).1
      · exact h
  · exact h

/-- So does a rollback. -/
theorem discard (h : Sound P R c) : Sound P R (c.discard n) := by
  unfold Cell.discard
  split
  · split
    · exact sound_settled h.value
    · exact h
  · exact h

/-- Whatever is seen meets `P`. -/
theorem seen (h : Sound P R c) (m : Nat) : P (c.seen m) := by
  unfold Cell.seen
  split
  · next k v hdraft =>
      split
      · exact (h.draft k v hdraft).1
      · exact h.value
  · exact h.value

/-- Whoever looks sees no earlier version after a `publish`. -/
theorem seen_publish (h : Sound P R c) (hrefl : ∀ a, R a a) (m : Nat) :
    R (c.seen m) ((c.publish n).seen m) := by
  unfold Cell.publish
  split
  · next k v hdraft =>
      split
      · have hpublished : (settled v).seen m = v := rfl
        have hlater := (h.draft k v hdraft).2
        rw [hpublished, Cell.seen, hdraft]
        dsimp only
        split
        · exact hrefl v
        · exact hlater
      · exact hrefl _
  · exact hrefl _

/-- No update is lost. -/
theorem publish_later (h : Sound P R c) (hrefl : ∀ a, R a a) :
    R c.value (c.publish n).value := by
  unfold Cell.publish
  split
  · next m v hdraft =>
      split
      · exact (h.draft m v hdraft).2
      · exact hrefl c.value
  · exact hrefl c.value

end Sound

/-- An edit does not show before the commit. -/
@[simp] theorem value_edit : (c.edit n f).value = c.value := by
  unfold edit
  split
  · split <;> rfl
  · rfl

/-- A rollback leaves the committed value. -/
@[simp] theorem value_discard : (c.discard n).value = c.value := by
  unfold discard
  split
  · split <;> rfl
  · rfl

end Cell

end Relational
