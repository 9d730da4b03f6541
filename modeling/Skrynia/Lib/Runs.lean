/-
Runs of a deterministic step function, over any state and any events.

A system is a total `step : σ → ι → σ`; nondeterminism (which client
moves, what a clock or a provider answers) is in the events. A schedule
is a list of events and `run` plays it. An event that is not enabled
leaves the state as it is, so every list is a schedule and a theorem
about `run` is a theorem about every interleaving.

# The induction rules

- `run_keeps`: what each step preserves, a run preserves.
- `run_relates`: a reflexive and transitive relation that each step
  respects holds between the two ends of a run.
- `Along`: a condition on the steps actually taken, for systems that are
  safe only while such a condition lasts (`run_keeps_along`,
  `along_imp`, `along_congr`, `prefixes_iff_along`).

A party's own state is a value of a function; what a step of one party
leaves of it is read with `update_cases`.
-/
import Mathlib.Logic.Function.Basic
import Mathlib.Tactic.Common

namespace Stepping

universe u v

variable {σ : Type u} {ι : Type v} (step : σ → ι → σ)

/-- Play a schedule. -/
def run (s : σ) (schedule : List ι) : σ := schedule.foldl step s

/-- Nothing happens in an empty run. -/
@[simp] theorem run_nil (s : σ) : run step s [] = s := rfl

/-- The first input first. -/
@[simp] theorem run_cons (s : σ) (i : ι) (l : List ι) :
    run step s (i :: l) = run step (step s i) l := rfl

/-- A run in two parts. -/
theorem run_append (s : σ) (l₁ l₂ : List ι) :
    run step s (l₁ ++ l₂) = run step (run step s l₁) l₂ :=
  List.foldl_append

/-- The last input last. -/
theorem run_snoc (s : σ) (l : List ι) (i : ι) :
    run step s (l ++ [i]) = step (run step s l) i := by
  rw [run_append]
  rfl

variable {step}

/-- What each step preserves, a run preserves. -/
theorem run_keeps {P : σ → Prop} (hstep : ∀ s i, P s → P (step s i))
    {s : σ} (hs : P s) (l : List ι) : P (run step s l) := by
  induction l generalizing s with
  | nil => exact hs
  | cons i l ih => exact ih (hstep s i hs)

/-- An order that each step climbs, a run climbs. -/
theorem run_relates {R : σ → σ → Prop} (hrefl : ∀ s, R s s)
    (htrans : ∀ {a b c}, R a b → R b c → R a c)
    (hstep : ∀ s i, R s (step s i)) (s : σ) (l : List ι) :
    R s (run step s l) := by
  induction l generalizing s with
  | nil => exact hrefl s
  | cons i l ih => exact htrans (hstep s i) (ih (step s i))

/-- The party that moved, or another one. -/
theorem update_cases {α : Type*} {β : Type*} [DecidableEq α] {f : α → β} {a x : α}
    {b y : β} (h : Function.update f a b x = y) :
    x = a ∧ b = y ∨ x ≠ a ∧ f x = y := by
  by_cases hx : x = a
  · rw [hx, Function.update_self] at h
    exact Or.inl ⟨hx, h⟩
  · rw [Function.update_of_ne hx] at h
    exact Or.inr ⟨hx, h⟩

-- ============================================= conditions on the steps

variable (step)

/-- Every step of the schedule meets `C` in the state it is taken in. -/
def Along (C : σ → ι → Prop) : σ → List ι → Prop
  | _, [] => True
  | s, i :: l => C s i ∧ Along C (step s i) l

instance decidableAlong (C : σ → ι → Prop) [∀ s i, Decidable (C s i)] :
    (s : σ) → (l : List ι) → Decidable (Along step C s l)
  | _, [] => isTrue trivial
  | s, i :: l =>
      have := decidableAlong C (step s i) l
      inferInstanceAs (Decidable (C s i ∧ Along step C (step s i) l))

variable {step}

/-- An empty run meets every condition. -/
@[simp] theorem along_nil {C : σ → ι → Prop} {s : σ} :
    Along step C s [] := trivial

/-- The condition holds at the first step and along the rest. -/
@[simp] theorem along_cons {C : σ → ι → Prop} {s : σ} {i : ι}
    {l : List ι} :
    Along step C s (i :: l) ↔ C s i ∧ Along step C (step s i) l := Iff.rfl

/-- Along two parts of a run. -/
theorem along_append {C : σ → ι → Prop} {s : σ} {l₁ l₂ : List ι} :
    Along step C s (l₁ ++ l₂)
      ↔ Along step C s l₁ ∧ Along step C (run step s l₁) l₂ := by
  induction l₁ generalizing s with
  | nil => simp
  | cons i l₁ ih =>
      rw [List.cons_append, along_cons, along_cons, ih, run_cons, and_assoc]

/-- A condition on the events alone. -/
theorem along_of_forall {C : ι → Prop} {l : List ι} (h : ∀ i ∈ l, C i)
    (s : σ) : Along step (fun _ i => C i) s l := by
  induction l generalizing s with
  | nil => trivial
  | cons i l ih =>
      refine ⟨h i List.mem_cons_self, ih (fun j hj => ?_) (step s i)⟩
      exact h j (List.mem_cons_of_mem i hj)

/-- Two conditions along one run. -/
theorem along_and {C D : σ → ι → Prop} {s : σ} {l : List ι} :
    Along step (fun s i => C s i ∧ D s i) s l
      ↔ Along step C s l ∧ Along step D s l := by
  induction l generalizing s with
  | nil => simp
  | cons i l ih =>
      rw [along_cons, along_cons, along_cons, ih]
      exact and_and_and_comm

/-- A condition that implies another one in the states that are met. -/
theorem along_imp {C D : σ → ι → Prop} {P : σ → Prop}
    (hD : ∀ s i, P s → C s i → D s i)
    (hP : ∀ s i, C s i → P s → P (step s i)) {s : σ} {l : List ι} (hs : P s)
    (hl : Along step C s l) : Along step D s l := by
  induction l generalizing s with
  | nil => trivial
  | cons i l ih => exact ⟨hD s i hs hl.1, ih (hP s i hl.1 hs) hl.2⟩

/-- What each conditioned step preserves, a conditioned run preserves. -/
theorem run_keeps_along {C : σ → ι → Prop} {P : σ → Prop}
    (hstep : ∀ s i, C s i → P s → P (step s i)) {s : σ} {l : List ι}
    (hl : Along step C s l) (hs : P s) : P (run step s l) := by
  induction l generalizing s with
  | nil => exact hs
  | cons i l ih => exact ih hl.2 (hstep s i hl.1 hs)

/-- Two conditions that agree as long as the first one has been met. -/
theorem along_congr {C D : σ → ι → Prop} {P : σ → Prop}
    (hCD : ∀ s i, P s → (C s i ↔ D s i))
    (hP : ∀ s i, C s i → P s → P (step s i)) {s : σ} {l : List ι}
    (hs : P s) : Along step C s l ↔ Along step D s l := by
  induction l generalizing s with
  | nil => simp
  | cons i l ih =>
      rw [along_cons, along_cons, ← hCD s i hs]
      exact and_congr_right fun hC => ih (hP s i hC hs)

/-- A law holds in every state of a run exactly when each step meets the
condition under which that step keeps it. -/
theorem prefixes_iff_along {C : σ → ι → Prop} {I P : σ → Prop}
    (hI : ∀ s i, I s → I (step s i))
    (hP : ∀ s i, I s → P s → (P (step s i) ↔ C s i)) {s : σ} {l : List ι}
    (hi : I s) (hp : P s) :
    (∀ l₁, l₁ <+: l → P (run step s l₁)) ↔ Along step C s l := by
  induction l generalizing s with
  | nil =>
      refine ⟨fun _ => trivial, fun _ l₁ hl₁ => ?_⟩
      rw [List.prefix_nil.mp hl₁]
      exact hp
  | cons i l ih =>
      constructor
      · intro h
        have hpi : P (step s i) := h [i] ⟨l, rfl⟩
        refine ⟨(hP s i hi hp).mp hpi, (ih (hI s i hi) hpi).mp ?_⟩
        intro l₁ hl₁
        exact h (i :: l₁) (List.cons_prefix_cons.mpr ⟨rfl, hl₁⟩)
      · intro h l₁ hl₁
        obtain ⟨hc, hl⟩ := h
        cases l₁ with
        | nil => exact hp
        | cons j l₁ =>
            obtain ⟨rfl, htail⟩ := List.cons_prefix_cons.mp hl₁
            exact (ih (hI s j hi) ((hP s j hi hp).mpr hc)).mpr hl l₁ htail

end Stepping
