/-
Entries that come right after their cause.

A history is a list of entries, the newest one last. Some entries have a
cause, and nothing may have happened between the two: the cause is the
entry before. A history grows at its end, so it is enough to look at the
last entry whenever one is added (`preceded_snoc`).
-/
import Mathlib.Data.List.Basic
import Mathlib.Data.List.Induction
import Mathlib.Tactic.Common

namespace Histories

universe u

variable {α : Type u} {R : α → α → Prop} {needs : α → Prop} {l : List α}
  {e : α}

/-- Each entry that needs a cause comes right after one. -/
def Preceded (R : α → α → Prop) (needs : α → Prop) (l : List α) : Prop :=
  ∀ pre e post, l = pre ++ e :: post → needs e →
    ∃ pre' c, pre = pre' ++ [c] ∧ R c e

/-- An empty history asks for nothing. -/
theorem preceded_nil : Preceded R needs [] := by
  intro pre e post h
  cases pre <;> cases h

/-- A new event whose need was just met keeps it. -/
theorem preceded_snoc (hl : Preceded R needs l)
    (he : needs e → ∃ c, l.getLast? = some c ∧ R c e) :
    Preceded R needs (l ++ [e]) := by
  intro pre x post h hx
  rcases List.eq_nil_or_concat post with hpost | ⟨post', y, hpost⟩
  · subst hpost
    obtain ⟨hpre, heq⟩ := List.append_inj' h rfl
    obtain rfl := List.singleton_inj.mp heq
    obtain ⟨c, hlast, hc⟩ := he hx
    obtain ⟨pre', hpre'⟩ := List.getLast?_eq_some_iff.mp hlast
    exact ⟨pre', c, hpre.symm.trans hpre', hc⟩
  · subst hpost
    have hassoc : l ++ [e] = (pre ++ x :: post') ++ [y] := by
      rw [h]
      simp
    exact hl pre x post' (List.append_inj' hassoc rfl).1 hx

/-- Where a cause is the entry before, there are as many causes as effects:
`q` tells the causes of the entries that `p` tells. -/
theorem Preceded.countP_le {p q : α → Bool} (hl : Preceded R needs l)
    (hneeds : ∀ e, p e = true → needs e)
    (hcause : ∀ c e, R c e → p e = true → q c = true)
    (hapart : ∀ e, p e = true → q e = false) :
    l.countP p ≤ l.countP q := by
  -- A cause at the end has no effect yet.
  have hstrong : l.countP p + (if l.getLast?.any q then 1 else 0)
      ≤ l.countP q := by
    induction l using List.reverseRecOn with
    | nil => simp
    | append_singleton l e ih =>
        have hinit : Preceded R needs l := by
          intro pre x post h hx
          refine hl pre x (post ++ [e]) ?_ hx
          rw [h]
          simp
        have hle := ih hinit
        rw [List.getLast?_concat, List.countP_append, List.countP_append,
          List.countP_singleton, List.countP_singleton]
        by_cases hp : p e = true
        · obtain ⟨pre', c, hpre, hc⟩ := hl l e [] rfl (hneeds e hp)
          have hlast : l.getLast?.any q = true := by
            rw [hpre, List.getLast?_concat]
            exact hcause c e hc hp
          rw [if_pos hlast] at hle
          simp only [hp, hapart e hp, Option.any_some, if_true,
            Bool.false_eq_true, if_false]
          omega
        · simp only [hp, Option.any_some, Bool.false_eq_true, if_false]
          split at hle <;> omega
  omega

end Histories
