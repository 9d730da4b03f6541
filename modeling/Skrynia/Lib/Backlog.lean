/-
Taking the oldest first, a batch at a time.

A worker asks for the `b` oldest of what is due, tries each and asks
again. What fails stays where it was, as old as before, and is taken again
with the next batch.

# The laws

- `served`: while fewer than `b` items ever fail, each batch has room for
  others, and an item that does not fail is served in time. The bound
  counts the items that are not younger.
- `starved`: `b` older items that stay are every batch, and nothing
  younger is ever taken.
-/
import Mathlib.Data.Finset.Card
import Mathlib.Data.Finset.Dedup
import Skrynia.Lib.Runs

namespace Backlog

open Stepping

universe u v

variable {ι : Type u} {κ : Type v} [DecidableEq ι] [LinearOrder κ]

/-- An answer to `order by age limit b`. Items of one age come in any
order. -/
structure Oldest (age : ι → κ) (b : Nat) (due : Finset ι) (batch : List ι) :
    Prop where
  nodup : batch.Nodup
  mem : ∀ i ∈ batch, i ∈ due
  length : batch.length = min b due.card
  sorted : batch.Pairwise fun i j => age i ≤ age j
  oldest : ∀ i ∈ batch, ∀ j ∈ due, j ∉ batch → age i ≤ age j

variable {age : ι → κ} {b : Nat} {due : Finset ι} {batch : List ι} {x : ι}

/-- An item is left out only by a full batch. -/
theorem Oldest.length_eq (h : Oldest age b due batch) (hx : x ∈ due)
    (hx' : x ∉ batch) : batch.length = b := by
  have hcard : batch.toFinset.card = batch.length :=
    List.toFinset_card_of_nodup h.nodup
  have hlt : batch.toFinset.card < due.card := by
    apply Finset.card_lt_card
    refine ⟨fun i hi => h.mem i (List.mem_toFinset.mp hi), fun hsub => hx' ?_⟩
    exact List.mem_toFinset.mp (hsub hx)
  have hlength := h.length
  omega

variable {σ ε : Type*} (step : σ → ε → σ) (waiting : σ → Finset ι)
  (age : ι → κ) (now : ε → κ) (batch : ε → List ι) (b : Nat)

/-- The batch of the event is taken from what is due by its time. -/
def Serves (s : σ) (e : ε) : Prop :=
  Oldest age b ((waiting s).filter fun i => age i ≤ now e) (batch e)

/-- The items that are not younger. -/
def ahead (s : σ) (x : ι) : Finset ι :=
  (waiting s).filter fun i => age i ≤ age x

variable {step waiting age now batch b} {s : σ} {e : ε} {K : Finset ι}

/-- A batch that leaves an item out makes the queue before it shorter, by
all that do not fail. -/
theorem ahead_card_le (h : Serves waiting age now batch b s e)
    (hkept : waiting (step s e) ⊆ waiting s)
    (hK : ∀ i ∈ batch e, i ∈ waiting (step s e) → i ∈ K)
    (hx : x ∈ waiting s) (hnow : age x ≤ now e) (hx' : x ∉ batch e) :
    (ahead waiting age (step s e) x).card + (b - K.card)
      ≤ (ahead waiting age s x).card := by
  have hdue : x ∈ (waiting s).filter fun i => age i ≤ now e :=
    Finset.mem_filter.mpr ⟨hx, hnow⟩
  have hb : ((batch e).toFinset).card = b := by
    rw [List.toFinset_card_of_nodup h.nodup]
    exact h.length_eq hdue hx'
  have hbatch : (batch e).toFinset \ K ⊆ ahead waiting age s x := by
    intro i hi
    obtain ⟨hi, -⟩ := Finset.mem_sdiff.mp hi
    have hi := List.mem_toFinset.mp hi
    exact Finset.mem_filter.mpr ⟨(Finset.mem_filter.mp (h.mem i hi)).1,
      h.oldest i hi x hdue hx'⟩
  have hleft : ahead waiting age (step s e) x
      ⊆ ahead waiting age s x \ ((batch e).toFinset \ K) := by
    intro i hi
    obtain ⟨hi, hage⟩ := Finset.mem_filter.mp hi
    refine Finset.mem_sdiff.mpr ⟨Finset.mem_filter.mpr ⟨hkept hi, hage⟩, ?_⟩
    intro hgone
    obtain ⟨hmem, hnot⟩ := Finset.mem_sdiff.mp hgone
    exact hnot (hK i (List.mem_toFinset.mp hmem) hi)
  have hcard := Finset.card_le_card hleft
  rw [Finset.card_sdiff_of_subset hbatch] at hcard
  have hroom : b - K.card ≤ ((batch e).toFinset \ K).card := by
    have hle := Finset.le_card_sdiff K (batch e).toFinset
    omega
  have hle := Finset.card_le_card hbatch
  omega

omit [DecidableEq ι] [LinearOrder κ] in
theorem not_waiting_run (hkept : ∀ s e, waiting (step s e) ⊆ waiting s)
    (hx : x ∉ waiting s) (l : List ε) : x ∉ waiting (run step s l) :=
  run_keeps (P := fun s => x ∉ waiting s)
    (fun s e hs hmem => hs (hkept s e hmem)) hx l

/-- Unless it is among the `K` that fail, an item is served by the time the
batches have room for all that are not younger. -/
theorem served (hkept : ∀ s e, waiting (step s e) ⊆ waiting s) {l : List ε}
    (hserves : Along step (Serves waiting age now batch b) s l)
    (hK : Along step (fun s e => ∀ i ∈ batch e, i ∈ waiting (step s e) → i ∈ K)
      s l)
    (hnow : ∀ e ∈ l, age x ≤ now e) (hx : x ∉ K)
    (hlength : (ahead waiting age s x).card ≤ l.length * (b - K.card)) :
    x ∉ waiting (run step s l) := by
  induction l generalizing s with
  | nil =>
      intro hmem
      rw [List.length_nil, Nat.zero_mul, Nat.le_zero,
        Finset.card_eq_zero] at hlength
      have hahead : x ∈ ahead waiting age s x :=
        Finset.mem_filter.mpr ⟨hmem, le_refl _⟩
      rw [hlength] at hahead
      exact absurd hahead (Finset.notMem_empty x)
  | cons e l ih =>
      by_cases hwaiting : x ∈ waiting s
      · by_cases hbatch : x ∈ batch e
        · have hgone : x ∉ waiting (step s e) :=
            fun hmem => hx (hK.1 x hbatch hmem)
          exact not_waiting_run hkept hgone l
        · have hcard := ahead_card_le hserves.1 (hkept s e) hK.1 hwaiting
            (hnow e List.mem_cons_self) hbatch
          rw [List.length_cons, Nat.succ_mul] at hlength
          refine ih hserves.2 hK.2 (fun e he => hnow e ?_) (by omega)
          exact List.mem_cons_of_mem _ he
      · exact not_waiting_run hkept hwaiting (e :: l)

/-- A batch that is full of older items is full. -/
theorem not_mem_batch (h : Serves waiting age now batch b s e)
    (hK : K ⊆ waiting s) (hb : b ≤ K.card) (hage : ∀ i ∈ K, age i < age x) :
    x ∉ batch e := by
  intro hx
  have hdue := Finset.mem_filter.mp (h.mem x hx)
  have hcard : (batch e).toFinset.card ≤ b := by
    rw [List.toFinset_card_of_nodup h.nodup, h.length]
    exact Nat.min_le_left _ _
  -- The batch has `x` and so misses one of the `b` older items.
  have hmissed : ¬ K ⊆ (batch e).toFinset.erase x := by
    intro hsub
    have hle := Finset.card_le_card hsub
    rw [Finset.card_erase_of_mem (List.mem_toFinset.mpr hx)] at hle
    have hpos := Finset.card_pos.mpr ⟨x, List.mem_toFinset.mpr hx⟩
    omega
  apply hmissed
  intro i hi
  refine Finset.mem_erase.mpr ⟨fun heq => ?_, ?_⟩
  · have hlt := hage i hi
    rw [heq] at hlt
    exact lt_irrefl _ hlt
  · by_contra hnot
    have hi' : i ∈ (waiting s).filter fun i => age i ≤ now e :=
      Finset.mem_filter.mpr ⟨hK hi, le_of_lt (lt_of_lt_of_le (hage i hi) hdue.2)⟩
    have hle := h.oldest x hx i hi' (fun hmem => hnot (List.mem_toFinset.mpr hmem))
    exact absurd (hage i hi) (not_lt.mpr hle)

/-- Behind `b` older items that stay, an item is never taken. -/
theorem starved {l : List ε}
    (hserves : Along step (Serves waiting age now batch b) s l)
    (hstays : Along step (fun s e => K ⊆ waiting s → K ⊆ waiting (step s e)) s l)
    (hleave : Along step (fun s e => ∀ i ∈ waiting s, i ∉ batch e →
      i ∈ waiting (step s e)) s l)
    (hK : K ⊆ waiting s) (hb : b ≤ K.card) (hage : ∀ i ∈ K, age i < age x)
    (hx : x ∈ waiting s) : x ∈ waiting (run step s l) := by
  induction l generalizing s with
  | nil => exact hx
  | cons e l ih =>
      have hbatch : x ∉ batch e := not_mem_batch hserves.1 hK hb hage
      exact ih hserves.2 hstays.2 hleave.2 (hstays.1 hK)
        (hleave.1 x hx hbatch)

end Backlog
