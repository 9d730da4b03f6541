/-
Raising a flag and then looking for others.

Parties share a state that changes in steps; its history is a list, the
present state last. A party that raises its flag notes the length of the
history, and later looks at all flags. A look is not one step: it reads
states from some place of the history on, and can miss a flag only if the
flag was down in one of them.

# The order of the flags

Of two flags that stay up, a look after the one that does not find the
other proves that the other one was raised later (`raised_later`). So two
parties cannot both have looked in vain (`not_both`): that is what keeps
two of them apart, whatever they wait for before they raise their flags.
-/
import Mathlib.Data.List.Basic
import Mathlib.Tactic.Common

namespace Flags

universe u

variable {σ : Type u} {history : List σ} {start start' : Nat} {st : σ}
  {P Q : σ → Prop}

/-- In every state from this place on. -/
def Throughout (history : List σ) (start : Nat) (P : σ → Prop) : Prop :=
  ∀ st ∈ history.drop start, P st

/-- What held from early on holds from later on. -/
theorem Throughout.later (h : Throughout history start P)
    (hstart : start ≤ start') : Throughout history start' P := by
  intro st hst
  refine h st ?_
  have hdrop : history.drop start'
      = (history.drop start).drop (start' - start) := by
    rw [List.drop_drop]
    congr 1
    omega
  rw [hdrop] at hst
  exact List.mem_of_mem_drop hst

/-- It goes on while what is added has it. -/
theorem Throughout.append (h : Throughout history start P)
    (hstart : start ≤ history.length) {passed : List σ}
    (hpassed : ∀ st ∈ passed, P st) :
    Throughout (history ++ passed) start P := by
  intro st hst
  rw [List.drop_append_of_le_length hstart] at hst
  rcases List.mem_append.mp hst with hst | hst
  · exact h st hst
  · exact hpassed st hst

/-- The present state alone. -/
theorem throughout_last (hlast : history.getLast? = some st) (hP : P st) :
    Throughout history (history.length - 1) P := by
  intro x hx
  obtain ⟨init, rfl⟩ := List.getLast?_eq_some_iff.mp hlast
  rw [List.length_append, List.length_singleton, Nat.add_sub_cancel,
    List.drop_left] at hx
  rw [List.mem_singleton.mp hx]
  exact hP

/-- It holds of a last state alone. -/
theorem throughout_snoc (hP : P st) :
    Throughout (history ++ [st]) history.length P := by
  intro x hx
  rw [List.drop_left] at hx
  rw [List.mem_singleton.mp hx]
  exact hP

/-- What held throughout holds now. -/
theorem Throughout.now (h : Throughout history start P)
    (hstart : start < history.length) (hlast : history.getLast? = some st) :
    P st := by
  refine h st ?_
  obtain ⟨init, rfl⟩ := List.getLast?_eq_some_iff.mp hlast
  rw [List.length_append, List.length_singleton] at hstart
  rw [List.drop_append_of_le_length (by omega)]
  exact List.mem_append_right _ (List.mem_singleton_self st)

-- ===================================================================== flags

variable {α : Type*} {since : α → Nat} {up : α → σ → Prop} {a b : α}

/-- A flag that a look has not found, although it has been up ever since
it was raised, was raised after the look began. -/
theorem raised_later (hup : Throughout history (since b) (up b))
    (hlook : since a ≤ start)
    (hmissed : since b ≤ start → ¬ Throughout history start (up b)) :
    since a < since b := by
  by_contra h
  have hstart : since b ≤ start := by omega
  exact hmissed hstart (hup.later hstart)

/-- Two flags cannot each have been raised before the other. -/
theorem not_both (hab : a ≠ b → since a < since b)
    (hba : b ≠ a → since b < since a) : a = b := by
  by_contra h
  have hfirst := hab h
  have hsecond := hba (Ne.symm h)
  omega

end Flags
