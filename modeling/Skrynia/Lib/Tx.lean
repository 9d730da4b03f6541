/-
Transactions with rollback, over any store.

A body is a state-passing computation that may abort. `Commits` and
`Aborts` are its two ways to end; `attempt` is what the rest of the
system sees of one transaction: the new store after COMMIT, the old one
after ROLLBACK. Nothing between the two is visible, so a system whose
writers are all transactions moves by `attempt`s, and an invariant that
every committing body keeps holds along any serial order of attempts
(`attempt_keeps`).

# The peeling rules

`commits_bind` and `aborts_bind` take a `do` block apart statement by
statement. A spec lemma for a body starts with `simp only` on these
rules and its statements' own lemmas, and names what is left; no later
proof unfolds the body again.
-/
import Mathlib.Logic.Unique
import Mathlib.Tactic.Common

namespace Relational

universe u v

variable {σ : Type u} {ε : Type v} {α β : Type u}

/-- What a chain of fallible steps returns, peeled from the front. -/
theorem except_bind_eq_ok {ε : Type v} {α β : Type u} {x : Except ε α}
    {f : α → Except ε β} {b : β} :
    x >>= f = .ok b ↔ ∃ a, x = .ok a ∧ f a = .ok b := by
  cases x with
  | error e =>
      constructor
      · intro h
        cases h
      · intro h
        obtain ⟨a, ha, -⟩ := h
        cases ha
  | ok a =>
      constructor
      · intro h
        exact ⟨a, rfl, h⟩
      · intro h'
        obtain ⟨a', ha, h⟩ := h'
        cases ha
        exact h

/-- A check that throws. -/
theorem ite_error_eq_ok {ε α : Type*} {p : Prop} [Decidable p] {e : ε}
    {x : Except ε α} {a : α} :
    (if p then .error e else x) = .ok a ↔ ¬ p ∧ x = .ok a := by
  by_cases hp : p
  · simp [hp]
  · simp [hp]

/-- A transaction body over the store `σ`: it ends with a value and a
new store, or aborts with an `ε`. -/
abbrev Tx (σ : Type u) (ε : Type v) (α : Type u) := StateT σ (Except ε) α

/-- The body ran to its end: COMMIT. -/
def Commits (x : Tx σ ε α) (s : σ) (a : α) (s' : σ) : Prop :=
  x.run s = .ok (a, s')

/-- The body threw `e`: ROLLBACK. -/
def Aborts (x : Tx σ ε α) (s : σ) (e : ε) : Prop :=
  x.run s = .error e

/-- One attempt of a transaction, as the other clients see it: the
store it commits, or the store it started from. -/
def attempt (x : Tx σ ε α) (s : σ) : σ :=
  match x.run s with
  | .ok (_, s') => s'
  | .error _ => s

/-- How the connection under a transaction breaks off. -/
inductive Fault where
  /-- Before COMMIT. -/
  | refused
  /-- After COMMIT. -/
  | replyLost
deriving DecidableEq

/-- Abort with `e` unless `c` holds. -/
def require (c : Prop) [Decidable c] (e : ε) : Tx σ ε PUnit.{u + 1} :=
  if c then pure PUnit.unit else throw e

/-- A SELECT: read the store, write nothing. -/
def select (f : σ → α) : Tx σ ε α := do
  let s ← get
  return f s

/-- The value, or abort with `e` when there is none. -/
def orThrow (o : Option α) (e : ε) : Tx σ ε α :=
  match o with
  | some a => pure a
  | none => throw e

/-- Run a pure fallible computation, translating its error. -/
def liftExcept {ε' : Type*} (x : Except ε' α) (f : ε' → ε) : Tx σ ε α :=
  match x with
  | .ok a => pure a
  | .error e => throw (f e)

-- ===================================================== how a body ends

/-- A body ends in exactly one way. -/
theorem commits_or_aborts (x : Tx σ ε α) (s : σ) :
    (∃ a s', Commits x s a s') ∨ ∃ e, Aborts x s e := by
  unfold Commits Aborts
  cases h : x.run s with
  | ok r => exact .inl ⟨r.1, r.2, rfl⟩
  | error e => exact .inr ⟨e, rfl⟩

/-- A body ends in one way. -/
theorem Commits.not_aborts {x : Tx σ ε α} {s s' : σ} {a : α} {e : ε}
    (h : Commits x s a s') : ¬ Aborts x s e := by
  intro h'
  unfold Commits at h
  unfold Aborts at h'
  rw [h] at h'
  cases h'

/-- A body that commits is seen by its new store. -/
theorem Commits.attempt_eq {x : Tx σ ε α} {s s' : σ} {a : α}
    (h : Commits x s a s') : attempt x s = s' := by
  unfold Commits at h
  unfold attempt
  rw [h]

/-- A body that aborts is seen by nothing. -/
theorem Aborts.attempt_eq {x : Tx σ ε α} {s : σ} {e : ε}
    (h : Aborts x s e) : attempt x s = s := by
  unfold Aborts at h
  unfold attempt
  rw [h]

/-- What an attempt leaves: a committed store, or the old one. -/
theorem attempt_cases (x : Tx σ ε α) (s : σ) :
    (∃ a, Commits x s a (attempt x s)) ∨ attempt x s = s := by
  rcases commits_or_aborts x s with ⟨a, s', h⟩ | ⟨e, h⟩
  · exact .inl ⟨a, by rw [h.attempt_eq]; exact h⟩
  · exact .inr h.attempt_eq

-- ==================================================== the peeling rules

/-- A sequence commits when its first part does and the rest does on what
that leaves. -/
theorem commits_bind {x : Tx σ ε α} {f : α → Tx σ ε β} {s s'' : σ}
    {b : β} :
    Commits (x >>= f) s b s''
      ↔ ∃ a s', Commits x s a s' ∧ Commits (f a) s' b s'' := by
  unfold Commits
  rw [StateT.run_bind]
  cases x.run s with
  | error e => simp [bind, Except.bind]
  | ok r => simp [bind, Except.bind, Prod.ext_iff]

/-- A sequence aborts in its first part, or in the rest after the first part
has run. -/
theorem aborts_bind {x : Tx σ ε α} {f : α → Tx σ ε β} {s : σ} {e : ε} :
    Aborts (x >>= f) s e
      ↔ Aborts x s e ∨ ∃ a s', Commits x s a s' ∧ Aborts (f a) s' e := by
  unfold Commits Aborts
  rw [StateT.run_bind]
  cases x.run s with
  | error e => simp [bind, Except.bind]
  | ok r => simp [bind, Except.bind, Prod.ext_iff]

/-- A body that only returns commits and leaves the store. -/
@[simp] theorem commits_pure {a b : α} {s s' : σ} :
    Commits (pure a : Tx σ ε α) s b s' ↔ b = a ∧ s' = s := by
  show (Except.ok (a, s) : Except ε _) = .ok (b, s') ↔ _
  simp [eq_comm]

/-- It never aborts. -/
@[simp] theorem not_aborts_pure {a : α} {s : σ} {e : ε} :
    ¬ Aborts (pure a : Tx σ ε α) s e := by
  show ¬ (Except.ok (a, s) : Except ε _) = .error e
  simp

/-- Reading the whole store returns it. -/
@[simp] theorem commits_get {s s' a : σ} :
    Commits (get : Tx σ ε σ) s a s' ↔ a = s ∧ s' = s := by
  show (Except.ok (s, s) : Except ε _) = .ok (a, s') ↔ _
  simp [eq_comm]

/-- Reading does not fail. -/
@[simp] theorem not_aborts_get {s : σ} {e : ε} :
    ¬ Aborts (get : Tx σ ε σ) s e := by
  show ¬ (Except.ok (s, s) : Except ε _) = .error e
  simp

/-- Writing the whole store leaves what was written. -/
@[simp] theorem commits_set {t s s' : σ} {a : PUnit} :
    Commits (set t : Tx σ ε PUnit) s a s' ↔ s' = t := by
  show (Except.ok (PUnit.unit, t) : Except ε _) = .ok (a, s') ↔ _
  simp [eq_comm]

/-- Nor does writing. -/
@[simp] theorem not_aborts_set {t s : σ} {e : ε} :
    ¬ Aborts (set t : Tx σ ε PUnit) s e := by
  show ¬ (Except.ok (PUnit.unit, t) : Except ε _) = .error e
  simp

/-- An update leaves the updated store. -/
@[simp] theorem commits_modify {f : σ → σ} {s s' : σ} {a : PUnit} :
    Commits (modify f : Tx σ ε PUnit) s a s' ↔ s' = f s := by
  show (Except.ok (PUnit.unit, f s) : Except ε _) = .ok (a, s') ↔ _
  simp [eq_comm]

/-- Nor does a change. -/
@[simp] theorem not_aborts_modify {f : σ → σ} {s : σ} {e : ε} :
    ¬ Aborts (modify f : Tx σ ε PUnit) s e := by
  show ¬ (Except.ok (PUnit.unit, f s) : Except ε _) = .error e
  simp

/-- A `throw` never commits. -/
@[simp] theorem not_commits_throw {e : ε} {s s' : σ} {a : α} :
    ¬ Commits (throw e : Tx σ ε α) s a s' := by
  show ¬ (Except.error e : Except ε _) = .ok (a, s')
  simp

/-- It aborts with its error. -/
@[simp] theorem aborts_throw {e e' : ε} {s : σ} :
    Aborts (throw e : Tx σ ε α) s e' ↔ e' = e := by
  show (Except.error e : Except ε (α × σ)) = .error e' ↔ _
  simp [eq_comm]

/-- A check commits where its condition holds. -/
@[simp] theorem commits_require {c : Prop} [Decidable c] {e : ε}
    {s s' : σ} {a : PUnit} :
    Commits (require c e) s a s' ↔ c ∧ s' = s := by
  unfold require
  split <;> simp [*]

/-- It aborts with its error where the condition does not hold. -/
@[simp] theorem aborts_require {c : Prop} [Decidable c] {e e' : ε}
    {s : σ} :
    Aborts (require c e : Tx σ ε PUnit) s e' ↔ ¬ c ∧ e' = e := by
  unfold require
  split <;> simp [*]

/-- A query returns what it selects, and leaves the store. -/
@[simp] theorem commits_select {f : σ → α} {s s' : σ} {a : α} :
    Commits (select f : Tx σ ε α) s a s' ↔ a = f s ∧ s' = s := by
  show (Except.ok (f s, s) : Except ε _) = .ok (a, s') ↔ _
  simp [eq_comm]

/-- Nor does a query. -/
@[simp] theorem not_aborts_select {f : σ → α} {s : σ} {e : ε} :
    ¬ Aborts (select f : Tx σ ε α) s e := by
  show ¬ (Except.ok (f s, s) : Except ε _) = .error e
  simp

/-- A row that is there is returned. -/
@[simp] theorem commits_orThrow {o : Option α} {e : ε} {s s' : σ} {a : α} :
    Commits (orThrow o e) s a s' ↔ o = some a ∧ s' = s := by
  unfold orThrow
  cases o <;> simp [eq_comm]

/-- A missing row aborts with the error for it. -/
@[simp] theorem aborts_orThrow {o : Option α} {e e' : ε} {s : σ} :
    Aborts (orThrow o e : Tx σ ε α) s e' ↔ o = none ∧ e' = e := by
  unfold orThrow
  cases o <;> simp

/-- A pure computation that returns commits with its value. -/
@[simp] theorem commits_liftExcept {ε' : Type*} {x : Except ε' α}
    {f : ε' → ε} {s s' : σ} {a : α} :
    Commits (liftExcept x f) s a s' ↔ x = .ok a ∧ s' = s := by
  unfold liftExcept
  cases x <;> simp [eq_comm]

/-- One that fails aborts with its error, translated. -/
@[simp] theorem aborts_liftExcept {ε' : Type*} {x : Except ε' α}
    {f : ε' → ε} {s : σ} {e : ε} :
    Aborts (liftExcept x f : Tx σ ε α) s e ↔ ∃ e', x = .error e' ∧ e = f e' := by
  unfold liftExcept
  cases x <;> simp

-- A statement in front of the rest of a body.

section Sequence

variable {s s' : σ} {b : β} {e : ε}

/-- Peeling a query from the front: what follows runs on what it selected. -/
theorem commits_select_bind {f : σ → α} {g : α → Tx σ ε β} :
    Commits (select f >>= g) s b s' ↔ Commits (g (f s)) s b s' := by
  rw [commits_bind]
  simp

/-- A query never aborts, so what follows it does. -/
theorem aborts_select_bind {f : σ → α} {g : α → Tx σ ε β} :
    Aborts (select f >>= g) s e ↔ Aborts (g (f s)) s e := by
  rw [aborts_bind]
  simp

/-- Peeling a check: it holds, and the rest runs. -/
theorem commits_require_bind {c : Prop} [Decidable c] {e' : ε}
    {g : PUnit → Tx σ ε β} :
    Commits (require c e' >>= g) s b s' ↔ c ∧ Commits (g ⟨⟩) s b s' := by
  rw [commits_bind]
  simp [and_assoc, Unique.exists_iff]

/-- A check aborts, or it holds and the rest aborts. -/
theorem aborts_require_bind {c : Prop} [Decidable c] {e' : ε}
    {g : PUnit → Tx σ ε β} :
    Aborts (require c e' >>= g) s e
      ↔ ¬ c ∧ e = e' ∨ c ∧ Aborts (g ⟨⟩) s e := by
  rw [aborts_bind]
  simp [and_assoc, Unique.exists_iff]

/-- Peeling a lookup: the row is there, and the rest runs with it. -/
theorem commits_orThrow_bind {o : Option α} {e' : ε} {g : α → Tx σ ε β} :
    Commits (orThrow o e' >>= g) s b s'
      ↔ ∃ a, o = some a ∧ Commits (g a) s b s' := by
  rw [commits_bind]
  simp [and_assoc]

/-- The row is missing, or the rest aborts with it. -/
theorem aborts_orThrow_bind {o : Option α} {e' : ε} {g : α → Tx σ ε β} :
    Aborts (orThrow o e' >>= g) s e
      ↔ o = none ∧ e = e' ∨ ∃ a, o = some a ∧ Aborts (g a) s e := by
  rw [aborts_bind]
  simp [and_assoc]

/-- Peeling a pure computation: it returns, and the rest runs with its
value. -/
theorem commits_liftExcept_bind {ε' : Type*} {x : Except ε' α}
    {f : ε' → ε} {g : α → Tx σ ε β} :
    Commits (liftExcept x f >>= g) s b s'
      ↔ ∃ a, x = .ok a ∧ Commits (g a) s b s' := by
  rw [commits_bind]
  simp [and_assoc]

/-- It fails, or the rest aborts with its value. -/
theorem aborts_liftExcept_bind {ε' : Type*} {x : Except ε' α}
    {f : ε' → ε} {g : α → Tx σ ε β} :
    Aborts (liftExcept x f >>= g) s e
      ↔ (∃ e', x = .error e' ∧ e = f e')
        ∨ ∃ a, x = .ok a ∧ Aborts (g a) s e := by
  rw [aborts_bind]
  simp [and_assoc]

/-- A statement that needs a proof of its check. -/
theorem commits_check_bind {c : Prop} [Decidable c] {f : c → Tx σ ε α}
    {e' : ε} {g : α → Tx σ ε β} :
    Commits ((if h : c then f h else throw e') >>= g) s b s'
      ↔ ∃ h : c, Commits (f h >>= g) s b s' := by
  split
  · next h => exact ⟨fun hx => ⟨h, hx⟩, fun ⟨_, hx⟩ => hx⟩
  · next h =>
    rw [commits_bind]
    simp [h]

/-- Peeling an update: the rest runs on the updated store. -/
theorem commits_modify_bind {f : σ → σ} {g : PUnit → Tx σ ε β} :
    Commits (modify f >>= g) s b s' ↔ Commits (g ⟨⟩) (f s) b s' := by
  rw [commits_bind]
  simp [Unique.exists_iff]

/-- The same of an abort. -/
theorem aborts_modify_bind {f : σ → σ} {g : PUnit → Tx σ ε β} :
    Aborts (modify f >>= g) s e ↔ Aborts (g ⟨⟩) (f s) e := by
  rw [aborts_bind]
  simp [Unique.exists_iff]

end Sequence

/-- A body that checks a condition and branches, read at its result. -/
theorem commits_ite {c : Prop} [Decidable c] {x y : Tx σ ε α}
    {s s' : σ} {a : α} :
    Commits (if c then x else y) s a s'
      ↔ c ∧ Commits x s a s' ∨ ¬ c ∧ Commits y s a s' := by
  split <;> simp [*]

/-- A body that needs a proof of its check. -/
theorem commits_check {c : Prop} [Decidable c] {f : c → Tx σ ε α} {e : ε}
    {s s' : σ} {a : α} :
    Commits (if h : c then f h else throw e) s a s'
      ↔ ∃ h : c, Commits (f h) s a s' := by
  split
  · next h => exact ⟨fun hx => ⟨h, hx⟩, fun ⟨_, hx⟩ => hx⟩
  · next h => simp [h]

/-- A branch aborts in the arm that it takes. -/
theorem aborts_ite {c : Prop} [Decidable c] {x y : Tx σ ε α} {s : σ}
    {e : ε} :
    Aborts (if c then x else y) s e
      ↔ c ∧ Aborts x s e ∨ ¬ c ∧ Aborts y s e := by
  split <;> simp [*]

-- ================================================= errors that stay away

/-- Whatever the store, the body does not abort with `e`. -/
def Never (e : ε) (x : Tx σ ε α) : Prop := ∀ s, ¬ Aborts x s e

section Never

variable {e : ε}

/-- A sequence none of whose parts ends with `e` never does. -/
theorem never_bind {x : Tx σ ε α} {f : α → Tx σ ε β} (hx : Never e x)
    (hf : ∀ a, Never e (f a)) : Never e (x >>= f) := by
  intro s h
  rcases aborts_bind.mp h with h | ⟨a, s', -, h⟩
  · exact hx s h
  · exact hf a s' h

/-- A body whose first statement never aborts with `e` aborts with it
later, if at all. -/
theorem Never.peel {x : Tx σ ε α} {f : α → Tx σ ε β} {s : σ}
    (hx : Never e x) (h : Aborts (x >>= f) s e) :
    ∃ a s', Commits x s a s' ∧ Aborts (f a) s' e := by
  rcases aborts_bind.mp h with h | h
  · exact absurd h (hx s)
  · exact h

/-- A body that only returns has no error. -/
theorem never_pure (a : α) : Never e (pure a : Tx σ ε α) := by
  intro s h
  exact not_aborts_pure h

/-- Nor has a query. -/
theorem never_select (f : σ → α) : Never e (select f : Tx σ ε α) := by
  intro s h
  exact not_aborts_select h

/-- Nor has an update. -/
theorem never_modify (f : σ → σ) : Never e (modify f : Tx σ ε PUnit) := by
  intro s h
  exact not_aborts_modify h

/-- A `throw` of another error never ends with `e`. -/
theorem never_throw {e' : ε} (h : e ≠ e') :
    Never e (throw e' : Tx σ ε α) := by
  intro s hs
  exact h (aborts_throw.mp hs)

/-- A check with another error never does. -/
theorem never_require {c : Prop} [Decidable c] {e' : ε} (h : e ≠ e') :
    Never e (require c e' : Tx σ ε PUnit) := by
  intro s hs
  exact h (aborts_require.mp hs).2

/-- Nor does a lookup with another error. -/
theorem never_orThrow {o : Option α} {e' : ε} (h : e ≠ e') :
    Never e (orThrow o e' : Tx σ ε α) := by
  intro s hs
  exact h (aborts_orThrow.mp hs).2

/-- A computation none of whose errors becomes `e` never ends with it. -/
theorem never_liftExcept {ε' : Type*} {x : Except ε' α} {f : ε' → ε}
    (h : ∀ e', x = .error e' → e ≠ f e') :
    Never e (liftExcept x f : Tx σ ε α) := by
  intro s hs
  obtain ⟨e', hx, he⟩ := aborts_liftExcept.mp hs
  exact h e' hx he

/-- A branch is as good as both of its arms. -/
theorem never_ite {c : Prop} [Decidable c] {x y : Tx σ ε α}
    (hx : Never e x) (hy : Never e y) : Never e (if c then x else y) := by
  split
  · exact hx
  · exact hy

/-- The same of a branch whose condition the arm uses. -/
theorem never_check {c : Prop} [Decidable c] {f : c → Tx σ ε α} {e' : ε}
    (hf : ∀ h, Never e (f h)) (he : e ≠ e') :
    Never e (if h : c then f h else throw e') := by
  split
  · exact hf _
  · exact never_throw he

end Never

end Relational
