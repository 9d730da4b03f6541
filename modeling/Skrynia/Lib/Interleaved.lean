/-
Programs of atomic operations on a state that others write.

A program asks one operation after the other and goes on with the answer.
Between two of its operations the state may be written any number of
times, and an operation may fail and end the program (`Run`). `log` is
what the program has asked so far, each time with the state that
answered, and `passed` are the states after the first one, up to the
last answer.

`Run.of_ask` is the one step of every proof about a run: some state that
the run passed through has answered, and the rest is a run from there.
-/
import Mathlib.Data.List.Basic
import Mathlib.Tactic.Common

namespace Interleaved

universe u v w

/-- Operations one after the other, each chosen by the answers before. -/
inductive Program {Op : Type u} (Answer : Op → Type v) (ρ : Type w) where
  | done (result : ρ)
  | ask (op : Op) (next : Answer op → Program Answer ρ)

section

variable {Op : Type u} {Answer : Op → Type v} {ρ : Type w} {σ : Type*}
  (answer : σ → (op : Op) → Answer op) (write : σ → σ → Prop) (failed : ρ)

/-- A run of a program while others write the state. -/
inductive Run : σ → Program Answer ρ → List (Op × σ) → List σ → ρ →
    List (Op × σ) → Prop where
  | done {s : σ} {result : ρ} {log : List (Op × σ)} :
      Run s (.done result) log [] result log
  | write {s s' : σ} {op : Op} {next : Answer op → Program Answer ρ}
      {log log' : List (Op × σ)} {passed : List σ} {result : ρ}
      (hwrite : write s s')
      (h : Run s' (.ask op next) log passed result log') :
      Run s (.ask op next) log (s' :: passed) result log'
  | ask {s : σ} {op : Op} {next : Answer op → Program Answer ρ}
      {log log' : List (Op × σ)} {passed : List σ} {result : ρ}
      (h : Run s (next (answer s op)) (log ++ [(op, s)]) passed result log') :
      Run s (.ask op next) log passed result log'
  | fail {s : σ} {op : Op} {next : Answer op → Program Answer ρ}
      {log : List (Op × σ)} :
      Run s (.ask op next) log [] failed log

variable {answer write failed} {s : σ} {log log' : List (Op × σ)}
  {passed : List σ} {result : ρ}

/-- A program that is done has asked nothing more. -/
theorem Run.of_done {r : ρ}
    (h : Run answer write failed s (.done r) log passed result log') :
    result = r ∧ log' = log := by
  cases h with
  | done => exact ⟨rfl, rfl⟩

/-- What comes after the next operation of a program. -/
theorem Run.of_ask {op : Op} {next : Answer op → Program Answer ρ}
    (h : Run answer write failed s (.ask op next) log passed result log')
    (hresult : result ≠ failed) :
    ∃ s' passed', s' :: passed' ⊆ s :: passed
      ∧ Run answer write failed s' (next (answer s' op)) (log ++ [(op, s')])
        passed' result log' := by
  generalize hp : Program.ask op next = p at h
  induction h with
  | done => cases hp
  | write hwrite _ ih =>
      obtain ⟨s', passed', hsub, hrun⟩ := ih hresult hp
      exact ⟨s', passed', List.subset_cons_of_subset _ hsub, hrun⟩
  | ask hrun =>
      cases hp
      exact ⟨_, _, List.Subset.refl _, hrun⟩
  | fail => exact absurd rfl hresult

end

end Interleaved
