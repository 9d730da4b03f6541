/-
Promises, their reactions and the queue of jobs.

A promise is settled once. Until then the reactions to it wait with it;
settling it puts them into the queue in the order they were attached, and
a reaction to a settled promise goes into the queue at once. The jobs of
the queue run one after the other, each with the outcome of its promise.

`Sound on` is what every use keeps when no job is attached twice: a job
is in one place only, and the outcome it is queued with is the outcome of
a promise that it was to react to (`on`).
-/
import Mathlib.Data.List.Nodup
import Mathlib.Logic.Function.Basic
import Mathlib.Tactic.Common

namespace Promises

universe u v

/-- `true` is fulfilled, `false` rejected. -/
structure Heap (κ : Type u) (J : Type v) where
  settled : κ → Option Bool
  reactions : κ → List J
  queue : List (J × Bool)

namespace Heap

variable {κ : Type u} {J : Type v} [DecidableEq κ]

/-- Settle a promise, unless it is. -/
def settle (h : Heap κ J) (k : κ) (outcome : Bool) : Heap κ J :=
  match h.settled k with
  | some _ => h
  | none =>
      { settled := Function.update h.settled k (some outcome)
        reactions := Function.update h.reactions k []
        queue := h.queue ++ (h.reactions k).map (·, outcome) }

/-- `then`. -/
def react (h : Heap κ J) (k : κ) (j : J) : Heap κ J :=
  match h.settled k with
  | some outcome => { h with queue := h.queue ++ [(j, outcome)] }
  | none =>
      { h with
        reactions := Function.update h.reactions k (h.reactions k ++ [j]) }

/-- The queue without its first job. -/
def pop (h : Heap κ J) : Heap κ J := { h with queue := h.queue.tail }

/-- The job has been attached and has not run. -/
def Pending (h : Heap κ J) (j : J) : Prop :=
  (∃ k, j ∈ h.reactions k) ∨ j ∈ h.queue.map Prod.fst

variable {h : Heap κ J} {k k' : κ} {j j' : J} {outcome : Bool}

/-- A promise that is settled stays as it is. -/
theorem settle_of_some {b : Bool} (hk : h.settled k = some b) :
    h.settle k outcome = h := by
  simp only [settle, hk]

/-- Settling puts the waiting reactions into the queue. -/
theorem settle_of_none (hk : h.settled k = none) : h.settle k outcome
    = { settled := Function.update h.settled k (some outcome)
        reactions := Function.update h.reactions k []
        queue := h.queue ++ (h.reactions k).map (·, outcome) } := by
  simp only [settle, hk]

/-- A reaction to a settled promise goes into the queue. -/
theorem react_of_some {b : Bool} (hk : h.settled k = some b) :
    h.react k j = { h with queue := h.queue ++ [(j, b)] } := by
  simp only [react, hk]

/-- Another one waits. -/
theorem react_of_none (hk : h.settled k = none) : h.react k j
    = { h with
        reactions := Function.update h.reactions k (h.reactions k ++ [j]) } := by
  simp only [react, hk]

-- =============================================================== outcomes

/-- Settling settles one promise, once. -/
theorem settled_settle : (h.settle k outcome).settled k'
    = if k' = k ∧ h.settled k = none then some outcome else h.settled k' := by
  cases hk : h.settled k with
  | some b =>
      rw [settle_of_some hk, if_neg]
      exact fun h => Option.some_ne_none b h.2
  | none =>
      rw [settle_of_none hk]
      show Function.update _ _ _ _ = _
      by_cases hkk : k' = k
      · rw [hkk, Function.update_self, if_pos ⟨rfl, rfl⟩]
      · rw [Function.update_of_ne hkk, if_neg fun h => hkk h.1]

/-- The others stay. -/
theorem settled_settle_of_ne (hne : k' ≠ k) :
    (h.settle k outcome).settled k' = h.settled k' := by
  rw [settled_settle, if_neg fun h => hne h.1]

/-- Once settled, always settled, with the same outcome. -/
theorem settled_settle_of_some {b : Bool} (hk : h.settled k' = some b) :
    (h.settle k outcome).settled k' = some b := by
  rw [settled_settle, if_neg]
  · exact hk
  · intro h
    obtain ⟨rfl, hnone⟩ := h
    rw [hnone] at hk
    cases hk

/-- An open promise is settled with its outcome. -/
theorem settled_settle_self (hk : h.settled k = none) :
    (h.settle k outcome).settled k = some outcome := by
  rw [settled_settle, if_pos ⟨rfl, hk⟩]

/-- A reaction settles nothing. -/
@[simp] theorem settled_react : (h.react k j).settled = h.settled := by
  unfold react
  split <;> rfl

-- ================================================================ pending

/-- Settling adds no job, and loses none. -/
@[simp] theorem pending_settle :
    (h.settle k outcome).Pending j ↔ h.Pending j := by
  cases hk : h.settled k with
  | some b => rw [settle_of_some hk]
  | none =>
      rw [settle_of_none hk]
      unfold Pending
      simp only [List.map_append, List.map_map, List.mem_append,
        Function.comp_def, List.map_id', Function.update_apply]
      constructor
      · intro h
        rcases h with ⟨k', hj⟩ | hj | hj
        · split at hj
          · cases hj
          · exact Or.inl ⟨k', hj⟩
        · exact Or.inr hj
        · exact Or.inl ⟨k, hj⟩
      · intro h
        rcases h with ⟨k', hj⟩ | hj
        · by_cases hkk : k' = k
          · rw [hkk] at hj
            exact Or.inr (Or.inr hj)
          · refine Or.inl ⟨k', ?_⟩
            rw [if_neg hkk]
            exact hj
        · exact Or.inr (Or.inl hj)

/-- A reaction adds its job. -/
@[simp] theorem pending_react :
    (h.react k j).Pending j' ↔ h.Pending j' ∨ j' = j := by
  cases hk : h.settled k with
  | some b =>
      rw [react_of_some hk]
      unfold Pending
      simp only [List.map_append, List.map_cons, List.map_nil, List.mem_append,
        List.mem_singleton]
      rw [or_assoc]
  | none =>
      rw [react_of_none hk]
      unfold Pending
      simp only [Function.update_apply]
      constructor
      · intro h
        rcases h with ⟨k', hj⟩ | hj
        · split at hj
          · rcases List.mem_append.mp hj with hj | hj
            · exact Or.inl (Or.inl ⟨k, hj⟩)
            · exact Or.inr (List.mem_singleton.mp hj)
          · exact Or.inl (Or.inl ⟨k', hj⟩)
        · exact Or.inl (Or.inr hj)
      · intro h
        rcases h with (⟨k', hj⟩ | hj) | rfl
        · refine Or.inl ⟨k', ?_⟩
          split
          · next hkk => exact List.mem_append_left _ (hkk ▸ hj)
          · exact hj
        · exact Or.inr hj
        · refine Or.inl ⟨k, ?_⟩
          rw [if_pos rfl]
          exact List.mem_append_right _ List.mem_cons_self

-- ======================================================= several promises

section Several

variable {α : Type*} {f : α → κ} {l : List α}

/-- Several promises may be settled with one outcome. -/
theorem settled_foldl_settle :
    (l.foldl (fun h a => h.settle (f a) outcome) h).settled k
      = if k ∈ l.map f ∧ h.settled k = none then some outcome
        else h.settled k := by
  induction l generalizing h with
  | nil => simp
  | cons a l ih =>
      rw [List.foldl_cons, ih, settled_settle, List.map_cons]
      by_cases hk : k = f a
      · cases hnone : h.settled (f a) with
        | none => simp [hk, hnone]
        | some b => simp [hk, hnone]
      · simp [hk]

/-- No job is added by that, and none lost. -/
theorem pending_foldl_settle :
    (l.foldl (fun h a => h.settle (f a) outcome) h).Pending j
      ↔ h.Pending j := by
  induction l generalizing h with
  | nil => exact Iff.rfl
  | cons a l ih => rw [List.foldl_cons, ih, pending_settle]

end Several

-- ============================================================== soundness

/-- Every job is in one place, and what it is queued with is the outcome
of a promise that it reacts to. -/
structure Sound (on : J → κ → Prop) (h : Heap κ J) : Prop where
  placed : ∀ k, ∀ j ∈ h.reactions k, on j k ∧ h.settled k = none
  queued : ∀ e ∈ h.queue, ∃ k, on e.1 k ∧ h.settled k = some e.2
  queue_nodup : (h.queue.map Prod.fst).Nodup
  reactions_nodup : ∀ k, (h.reactions k).Nodup
  one_promise : ∀ j k k', j ∈ h.reactions k → j ∈ h.reactions k' → k = k'
  apart : ∀ k, ∀ j ∈ h.reactions k, j ∉ h.queue.map Prod.fst

namespace Sound

variable {on : J → κ → Prop}

/-- Settling keeps every job in its place. -/
theorem settle (hs : Sound on h) : Sound on (h.settle k outcome) := by
  cases hk : h.settled k with
  | some b =>
      rw [settle_of_some hk]
      exact hs
  | none =>
      have hreactions : ∀ k', (h.settle k outcome).reactions k'
          = if k' = k then [] else h.reactions k' := by
        intro k'
        rw [settle_of_none hk]
        exact Function.update_apply _ _ _ _
      have hqueue : (h.settle k outcome).queue
          = h.queue ++ (h.reactions k).map (·, outcome) := by
        rw [settle_of_none hk]
      have hfirst : ((h.settle k outcome).queue).map Prod.fst
          = h.queue.map Prod.fst ++ h.reactions k := by
        rw [hqueue, List.map_append, List.map_map]
        simp [Function.comp_def]
      refine ⟨?_, ?_, ?_, ?_, ?_, ?_⟩
      · intro k' j hj
        rw [hreactions] at hj
        split at hj
        · cases hj
        · next hne =>
            rw [settled_settle_of_ne hne]
            exact hs.placed k' j hj
      · intro e he
        rw [hqueue, List.mem_append] at he
        rcases he with he | he
        · obtain ⟨k', hon, hsettled⟩ := hs.queued e he
          exact ⟨k', hon, settled_settle_of_some hsettled⟩
        · obtain ⟨j, hj, rfl⟩ := List.mem_map.mp he
          exact ⟨k, (hs.placed k j hj).1, settled_settle_self hk⟩
      · rw [hfirst]
        refine List.nodup_append.mpr ⟨hs.queue_nodup, hs.reactions_nodup k, ?_⟩
        intro j hj _ hj' heq
        subst heq
        exact hs.apart k j hj' hj
      · intro k'
        rw [hreactions]
        split
        · exact List.nodup_nil
        · exact hs.reactions_nodup k'
      · intro j k₁ k₂ h₁ h₂
        rw [hreactions] at h₁ h₂
        split at h₁
        · cases h₁
        split at h₂
        · cases h₂
        exact hs.one_promise j k₁ k₂ h₁ h₂
      · intro k' j hj
        rw [hreactions] at hj
        split at hj
        · cases hj
        · next hne =>
            rw [hfirst, List.mem_append]
            intro h
            rcases h with hq | hq
            · exact hs.apart k' j hj hq
            · exact hne (hs.one_promise j k' k hj hq)

/-- So does settling several. -/
theorem foldl_settle {α : Type*} {f : α → κ} {l : List α}
    (hs : Sound on h) :
    Sound on (l.foldl (fun h a => h.settle (f a) outcome) h) := by
  induction l generalizing h with
  | nil => exact hs
  | cons a l ih => exact ih hs.settle

/-- A job that is attached for the first time. -/
theorem react (hs : Sound on h) (hon : on j k) (hnew : ¬ h.Pending j) :
    Sound on (h.react k j) := by
  have hnowhere : ∀ k', j ∉ h.reactions k' :=
    fun k' hj => hnew (Or.inl ⟨k', hj⟩)
  have hunqueued : j ∉ h.queue.map Prod.fst := fun hj => hnew (Or.inr hj)
  cases hk : h.settled k with
  | some b =>
      rw [react_of_some hk]
      refine ⟨hs.placed, ?_, ?_, hs.reactions_nodup, hs.one_promise, ?_⟩
      · intro e he
        rcases List.mem_append.mp he with he | he
        · exact hs.queued e he
        · rw [List.mem_singleton.mp he]
          exact ⟨k, hon, hk⟩
      · rw [List.map_append]
        refine List.nodup_append.mpr ⟨hs.queue_nodup, List.nodup_singleton _, ?_⟩
        intro j' hj' _ hj heq
        subst heq
        rw [List.mem_singleton.mp hj] at hj'
        exact hunqueued hj'
      · intro k' j' hj' hq
        rw [List.map_append, List.mem_append] at hq
        rcases hq with hq | hq
        · exact hs.apart k' j' hj' hq
        · rw [List.mem_singleton.mp hq] at hj'
          exact hnowhere k' hj'
  | none =>
      have hreact := react_of_none (j := j) hk
      have hmem : ∀ {k' j'}, j' ∈ (h.react k j).reactions k' →
          j' ∈ h.reactions k' ∨ j' = j ∧ k' = k := by
        intro k' j' hj'
        rw [hreact] at hj'
        by_cases hkk : k' = k
        · rw [hkk] at hj' ⊢
          simp only [Function.update_self, List.mem_append,
            List.mem_singleton] at hj'
          exact hj'.imp_right fun h => ⟨h, rfl⟩
        · simp only [Function.update_of_ne hkk] at hj'
          exact Or.inl hj'
      refine ⟨?_, ?_, ?_, ?_, ?_, ?_⟩
      · intro k' j' hj'
        rw [settled_react]
        rcases hmem hj' with hj' | ⟨rfl, rfl⟩
        · exact hs.placed k' j' hj'
        · exact ⟨hon, hk⟩
      · rw [hreact]
        exact hs.queued
      · rw [hreact]
        exact hs.queue_nodup
      · intro k'
        rw [hreact]
        by_cases hkk : k' = k
        · rw [hkk]
          simp only [Function.update_self]
          refine List.nodup_append.mpr
            ⟨hs.reactions_nodup k, List.nodup_singleton _, ?_⟩
          intro j' hj' _ hj heq
          subst heq
          rw [List.mem_singleton.mp hj] at hj'
          exact hnowhere k hj'
        · simp only [Function.update_of_ne hkk]
          exact hs.reactions_nodup k'
      · intro j' k₁ k₂ h₁ h₂
        rcases hmem h₁ with hold₁ | ⟨rfl, rfl⟩
        · rcases hmem h₂ with hold₂ | ⟨rfl, rfl⟩
          · exact hs.one_promise j' k₁ k₂ hold₁ hold₂
          · exact absurd hold₁ (hnowhere k₁)
        · rcases hmem h₂ with hold₂ | ⟨-, rfl⟩
          · exact absurd hold₂ (hnowhere k₂)
          · rfl
      · intro k' j' hj'
        have hqueue : (h.react k j).queue = h.queue := by rw [hreact]
        rw [hqueue]
        rcases hmem hj' with hj' | ⟨rfl, -⟩
        · exact hs.apart k' j' hj'
        · exact hunqueued

variable {rest : List (J × Bool)}

omit [DecidableEq κ] in
/-- And taking the first job from the queue. -/
theorem pop (hs : Sound on h) : Sound on h.pop := by
  have hsub : h.queue.tail ⊆ h.queue := (List.tail_sublist _).subset
  refine ⟨hs.placed, fun e he => hs.queued e (hsub he), ?_,
    hs.reactions_nodup, hs.one_promise, ?_⟩
  · exact hs.queue_nodup.sublist ((List.tail_sublist _).map Prod.fst)
  · intro k j hj hq
    exact hs.apart k j hj (List.map_subset _ hsub hq)

omit [DecidableEq κ] in
/-- The job that runs is attached no more. -/
theorem pending_pop (hs : Sound on h) (hq : h.queue = (j, outcome) :: rest) :
    h.pop.Pending j' ↔ h.Pending j' ∧ j' ≠ j := by
  have hnodup := hs.queue_nodup
  unfold Pending
  unfold Heap.pop
  rw [hq] at hnodup ⊢
  rw [List.map_cons, List.nodup_cons] at hnodup
  simp only [List.tail_cons, List.map_cons, List.mem_cons]
  constructor
  · intro h
    rcases h with ⟨k, hj⟩ | hj
    · refine ⟨Or.inl ⟨k, hj⟩, ?_⟩
      intro heq
      subst heq
      refine hs.apart k j' hj ?_
      rw [hq]
      exact List.mem_cons_self
    · refine ⟨Or.inr (Or.inr hj), ?_⟩
      intro heq
      subst heq
      exact hnodup.1 hj
  · intro h
    rcases h with ⟨⟨k, hj⟩ | rfl | hj, hne⟩
    · exact Or.inl ⟨k, hj⟩
    · exact absurd rfl hne
    · exact Or.inr hj

omit [DecidableEq κ] in
/-- With an empty queue, a pending job waits for a promise. -/
theorem waits (hs : Sound on h) (hq : h.queue = []) (hj : h.Pending j) :
    ∃ k, on j k ∧ h.settled k = none := by
  rcases hj with ⟨k, hj⟩ | hj
  · exact ⟨k, hs.placed k j hj⟩
  · rw [hq] at hj
    cases hj

end Sound

end Heap

end Promises
