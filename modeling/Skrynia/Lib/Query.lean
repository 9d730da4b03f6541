/-
Queries over a store of rows, and the rows that they read.

A query reads rows one after the other; which row is next may depend on
those before. So a join is a query whose keys are columns of rows already
read. Two stores that agree on the rows read from the one give the same
answer and have the same rows read (`eval_congr`, `reads_congr`): what is
derived by a query stays right until one of its rows changes.
-/
import Mathlib.Data.List.Basic

namespace Querying

universe u v w

/-- The rows that are there. -/
abbrev Store (κ : Type u) (Row : κ → Type v) := (k : κ) → Option (Row k)

/-- A program that reads rows and ends with an answer. -/
inductive Query (κ : Type u) (Row : κ → Type v) (β : Type w) where
  | done (b : β)
  | read (k : κ) (next : Option (Row k) → Query κ Row β)

namespace Query

variable {κ : Type u} {Row : κ → Type v} {β : Type w}

/-- The answer of the query on a store. -/
def eval (s : Store κ Row) : Query κ Row β → β
  | done b => b
  | read k next => (next (s k)).eval s

/-- The keys of the rows that a query reads, in order. -/
def reads (s : Store κ Row) : Query κ Row β → List κ
  | done _ => []
  | read k next => k :: (next (s k)).reads s

/-- Two stores with the same rows where the query reads the one. -/
theorem congr {s s' : Store κ Row} {q : Query κ Row β}
    (h : ∀ k ∈ q.reads s, s' k = s k) :
    q.eval s' = q.eval s ∧ q.reads s' = q.reads s := by
  induction q with
  | done b => exact ⟨rfl, rfl⟩
  | read k next ih =>
      have hk : s' k = s k := h k List.mem_cons_self
      have hnext := ih (s k) fun k' hk' => h k' (List.mem_cons_of_mem k hk')
      show (next (s' k)).eval s' = _ ∧ k :: (next (s' k)).reads s' = _
      rw [hk]
      exact ⟨hnext.1, congrArg (k :: ·) hnext.2⟩

/-- The answer depends on the rows read only. -/
theorem eval_congr {s s' : Store κ Row} {q : Query κ Row β}
    (h : ∀ k ∈ q.reads s, s' k = s k) : q.eval s' = q.eval s :=
  (congr h).1

/-- So does which rows these are. -/
theorem reads_congr {s s' : Store κ Row} {q : Query κ Row β}
    (h : ∀ k ∈ q.reads s, s' k = s k) : q.reads s' = q.reads s :=
  (congr h).2

end Query

end Querying
