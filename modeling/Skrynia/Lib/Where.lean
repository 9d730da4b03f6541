/-
A `where` of several conjuncts.

A conjunct of a row is true, false or null, or its evaluation fails. A
row is selected when all conjuncts are true, and evaluation stops at the
first one that is not. The order of the conjuncts is up to the planner:
no order fails just when no conjunct does (`total_iff`).
-/
import Mathlib.Data.List.Basic
import Mathlib.Tactic.Common

namespace Where

variable {α ε : Type*} {eval : α → Except ε (Option Bool)}
  {conjuncts conjuncts' : List α}

/-- Whether a row is selected, in one order of evaluation. -/
def selects (eval : α → Except ε (Option Bool)) : List α → Except ε Bool
  | [] => .ok true
  | c :: cs =>
      match eval c with
      | .error e => .error e
      | .ok (some true) => selects eval cs
      | .ok _ => .ok false

/-- A row is selected if every conjunct is true. -/
theorem selects_eq_true : selects eval conjuncts = .ok true
    ↔ ∀ c ∈ conjuncts, eval c = .ok (some true) := by
  induction conjuncts with
  | nil => exact ⟨nofun, fun _ => rfl⟩
  | cons c cs ih =>
      rw [selects, List.forall_mem_cons]
      split
      · next e he => simp [he]
      · next he => simp [he, ih]
      · next v hne he =>
          constructor
          · intro h
            cases h
          · intro h
            obtain ⟨htrue, -⟩ := h
            rw [htrue] at he
            exact absurd (Except.ok.inj he).symm hne

/-- Where no conjunct fails the row is judged. -/
theorem selects_total (h : ∀ c ∈ conjuncts, ∃ v, eval c = .ok v) :
    ∃ b, selects eval conjuncts = .ok b := by
  induction conjuncts with
  | nil => exact ⟨true, rfl⟩
  | cons c cs ih =>
      obtain ⟨⟨v, hv⟩, hcs⟩ := List.forall_mem_cons.mp h
      rw [selects, hv]
      split
      · next he => cases he
      · exact ih hcs
      · exact ⟨false, rfl⟩

/-- An order that starts with a conjunct evaluates it. -/
theorem total_iff :
    (∀ cs, cs.Perm conjuncts → ∃ b, selects eval cs = .ok b)
      ↔ ∀ c ∈ conjuncts, ∃ v, eval c = .ok v := by
  constructor
  · intro h c hc
    obtain ⟨before, behind, rfl⟩ := List.append_of_mem hc
    obtain ⟨b, hb⟩ := h (c :: (before ++ behind)) List.perm_middle.symm
    rw [selects] at hb
    cases hv : eval c with
    | error e =>
        rw [hv] at hb
        cases hb
    | ok v => exact ⟨v, rfl⟩
  · intro h cs hcs
    exact selects_total fun c hc => h c (hcs.mem_iff.mp hc)

/-- What is selected does not depend on the order. -/
theorem selects_perm (h : conjuncts.Perm conjuncts') :
    selects eval conjuncts = .ok true ↔ selects eval conjuncts' = .ok true := by
  rw [selects_eq_true, selects_eq_true]
  exact forall_congr' fun c => imp_congr_left h.mem_iff

end Where
