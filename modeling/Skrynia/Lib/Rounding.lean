/-
Rounding to the nearest integer, halves away from zero.

`Rounds q n` is the rule and names no computation: no integer is nearer
to `q` than `n`, and of two that are equally near `n` is the one farther
from zero. It makes `n` unique, odd and monotone in `q`, and it holds
where `n` is within a half of `q` (`rounds_of_half`).

`divAway` computes it on integers, as the quotient of the absolute values
after half the divisor is added, under the sign of the true quotient.
-/
import Mathlib.Algebra.Order.Field.Basic
import Mathlib.Algebra.Order.Ring.Cast
import Mathlib.Tactic.Linarith
import Mathlib.Tactic.Ring

namespace Rounding

variable {K : Type*} [Field K] [LinearOrder K] {q q' : K} {n m : Int}

/-- No integer is nearer to `q`, and none as near is farther from zero. -/
structure Rounds (q : K) (n : Int) : Prop where
  nearest : ∀ m : Int, |(n : K) - q| ≤ |(m : K) - q|
  away : ∀ m : Int, |(m : K) - q| = |(n : K) - q| → |m| ≤ |n|

-- ================================================================ the rule

/-- Rounding away from zero is odd. -/
theorem Rounds.neg (h : Rounds q n) : Rounds (-q) (-n) := by
  have hdist : ∀ m : Int, |((-m : Int) : K) - -q| = |(m : K) - q| := by
    intro m
    rw [Int.cast_neg, neg_sub_neg, abs_sub_comm]
  refine ⟨fun m => ?_, fun m hm => ?_⟩
  · have := h.nearest (-m)
    rwa [← hdist n, ← hdist (-m), neg_neg] at this
  · have := h.away (-m) (by rw [← hdist n, ← hm, ← hdist (-m), neg_neg])
    rwa [abs_neg] at this ⊢

variable [IsStrictOrderedRing K]

/-- An integer is rounded to itself. -/
theorem rounds_intCast (n : Int) : Rounds (n : K) n := by
  refine ⟨fun m => ?_, fun m hm => ?_⟩
  · rw [sub_self, abs_zero]
    exact abs_nonneg _
  · rw [sub_self, abs_zero, abs_eq_zero, sub_eq_zero] at hm
    rw [Int.cast_injective hm]

/-- What is nearer to the larger of two integers is past their middle. -/
theorem middle_le {x y : K} (hxy : x < y) (h : |y - q| ≤ |x - q|) :
    x + y ≤ 2 * q := by
  by_contra hlt
  have hsq := sq_le_sq.mpr h
  nlinarith [hsq, hxy, not_le.mp hlt]

/-- Two integers out of order would have one value in their middle, with
both equally far from zero; but then that value is zero. -/
theorem Rounds.mono (hq : q ≤ q') (h : Rounds q n) (h' : Rounds q' m) :
    n ≤ m := by
  by_contra hlt
  have hnm : (m : K) < n := by exact_mod_cast not_le.mp hlt
  have hlow : (m : K) + n ≤ 2 * q := middle_le hnm (h.nearest m)
  have hhigh : (-(n : K)) + -m ≤ 2 * -q' :=
    middle_le (neg_lt_neg hnm) (by
      rw [neg_sub_neg, neg_sub_neg, abs_sub_comm q', abs_sub_comm q']
      exact h'.nearest n)
  have heq : q' = q := by linarith
  have hmid : (n : K) - q = -((m : K) - q) := by linarith
  subst heq
  have hdist : |(n : K) - q'| = |(m : K) - q'| := by rw [hmid, abs_neg]
  have habs : |m| = |n| := le_antisymm (h.away m hdist.symm) (h'.away n hdist)
  have hmn : m = -n := by
    have := abs_eq_abs.mp habs
    omega
  have hzero : q' = 0 := by
    rw [hmn, Int.cast_neg] at hmid
    linarith
  have hn : |(n : K)| ≤ 0 := by
    have := h.nearest 0
    rwa [hzero, sub_zero, Int.cast_zero, sub_zero, abs_zero] at this
  have : n = 0 := by exact_mod_cast abs_nonpos_iff.mp hn
  omega

/-- And it has one result. -/
theorem Rounds.unique (h : Rounds q n) (h' : Rounds q m) : n = m :=
  le_antisymm (h.mono le_rfl h') (h'.mono le_rfl h)

/-- The rule by distances: at most a half, and a half only on the far
side. -/
theorem rounds_of_half (hnear : |(n : K) - q| ≤ 1 / 2)
    (haway : |(n : K) - q| = 1 / 2 → |q| < |(n : K)|) : Rounds q n := by
  have hapart : ∀ m : Int, m ≠ n → (1 : K) ≤ |(m : K) - q| + |(n : K) - q| := by
    intro m hm
    have hone : (1 : K) ≤ |(m : K) - n| := by
      have : (1 : Int) ≤ |m - n| := Int.one_le_abs (sub_ne_zero.mpr hm)
      exact_mod_cast this
    have := abs_sub_le (m : K) q n
    rw [abs_sub_comm q (n : K)] at this
    linarith
  refine ⟨fun m => ?_, fun m hm => ?_⟩
  · by_cases hmn : m = n
    · rw [hmn]
    · have := hapart m hmn
      linarith
  · by_cases hmn : m = n
    · rw [hmn]
    -- both are exactly a half away, on the two sides of `q`
    · have hhalf : |(n : K) - q| = 1 / 2 := by
        have := hapart m hmn
        linarith
      have hfar := haway hhalf
      have hm' : (m : K) - q = -((n : K) - q) :=
        (abs_eq_abs.mp hm).resolve_left fun heq =>
          hmn (by exact_mod_cast sub_left_injective heq)
      rcases (abs_eq (by norm_num)).mp hhalf with hup | hdown
      · have hpred : m = n - 1 := by
          have : (m : K) = n - 1 := by linarith
          exact_mod_cast this
        have hpos : 0 < n := by
          by_contra hneg
          have hneg' : (n : K) ≤ 0 := by exact_mod_cast not_lt.mp hneg
          rw [abs_of_nonpos hneg'] at hfar
          have := neg_le_abs q
          linarith
        rw [hpred, abs_of_nonneg (by omega), abs_of_pos hpos]
        omega
      · have hsucc : m = n + 1 := by
          have : (m : K) = n + 1 := by linarith
          exact_mod_cast this
        have hneg : n < 0 := by
          by_contra hpos
          have hpos' : (0 : K) ≤ n := by exact_mod_cast not_lt.mp hpos
          rw [abs_of_nonneg hpos'] at hfar
          have := le_abs_self q
          linarith
        rw [hsucc, abs_of_nonpos (by omega), abs_of_neg hneg]
        omega

-- ========================================================= the computation

/-- Half the divisor, added before the division. -/
def divHalfUp (top bottom : Nat) : Nat :=
  (top + bottom / 2) / bottom

/-- Division with half up rounds a positive quotient. -/
theorem rounds_divHalfUp {top bottom : Nat} (hpos : 0 < bottom) :
    Rounds ((top : K) / bottom) (divHalfUp top bottom) := by
  have hle : divHalfUp top bottom * bottom ≤ top + bottom / 2 :=
    Nat.div_mul_le_self _ _
  have hlt : top + bottom / 2 < (divHalfUp top bottom + 1) * bottom :=
    (Nat.div_lt_iff_lt_mul hpos).mp (Nat.lt_succ_self _)
  rw [Nat.add_mul, Nat.one_mul] at hlt
  have hle' : 2 * (divHalfUp top bottom * bottom) ≤ 2 * top + bottom := by omega
  have hlt' : 2 * top < 2 * (divHalfUp top bottom * bottom) + bottom := by omega
  generalize divHalfUp top bottom = r at hle' hlt'
  have hb : (0 : K) < bottom := by exact_mod_cast hpos
  have hupper : (r : K) - top / bottom ≤ 1 / 2 := by
    rw [sub_le_iff_le_add', ← sub_le_iff_le_add, le_div_iff₀ hb]
    have : (2 : K) * (r * bottom) ≤ 2 * top + bottom := by exact_mod_cast hle'
    linarith
  have hlower : -(1 / 2) < (r : K) - top / bottom := by
    rw [lt_sub_iff_add_lt', ← lt_sub_iff_add_lt, div_lt_iff₀ hb]
    have : (2 : K) * top < 2 * (r * bottom) + bottom := by exact_mod_cast hlt'
    linarith
  have hquot : (0 : K) ≤ top / bottom := div_nonneg (Nat.cast_nonneg _) hb.le
  refine rounds_of_half (abs_le.mpr ⟨?_, ?_⟩) fun hhalf => ?_
  · rw [Int.cast_natCast]
    exact hlower.le
  · rw [Int.cast_natCast]
    exact hupper
  · rw [Int.cast_natCast] at hhalf ⊢
    rw [abs_of_nonneg hquot, abs_of_nonneg (Nat.cast_nonneg r)]
    rcases (abs_eq (by norm_num)).mp hhalf with hhalf | hhalf
    · linarith
    · linarith

/-- The quotient of the absolute values under the sign of the two. -/
def divAway (numerator denominator : Int) : Int :=
  let rounded : Int := divHalfUp numerator.natAbs denominator.natAbs
  if decide (numerator < 0) != decide (denominator < 0) then -rounded
  else rounded

/-- Division away from zero rounds every quotient. -/
theorem rounds_divAway {numerator denominator : Int} (hne : denominator ≠ 0) :
    Rounds ((numerator : K) / denominator) (divAway numerator denominator) := by
  have hrounds : Rounds ((numerator.natAbs : K) / (denominator.natAbs : K))
      (divHalfUp numerator.natAbs denominator.natAbs) :=
    rounds_divHalfUp (Int.natAbs_pos.mpr hne)
  have habs : ∀ x : Int, ((x.natAbs : Nat) : K) = |(x : K)| := fun x => by
    rw [Nat.cast_natAbs, Int.cast_abs]
  rw [habs, habs] at hrounds
  unfold divAway
  by_cases hn : numerator < 0 <;> by_cases hd : denominator < 0
  · have hn' : (numerator : K) < 0 := by exact_mod_cast hn
    have hd' : (denominator : K) < 0 := by exact_mod_cast hd
    rw [abs_of_neg hn', abs_of_neg hd', neg_div_neg_eq] at hrounds
    simpa [hn, hd] using hrounds
  · have hn' : (numerator : K) < 0 := by exact_mod_cast hn
    have hd' : (0 : K) ≤ denominator := by exact_mod_cast not_lt.mp hd
    rw [abs_of_neg hn', abs_of_nonneg hd', neg_div] at hrounds
    simpa [hn, hd] using hrounds.neg
  · have hn' : (0 : K) ≤ numerator := by exact_mod_cast not_lt.mp hn
    have hd' : (denominator : K) < 0 := by exact_mod_cast hd
    rw [abs_of_nonneg hn', abs_of_neg hd', div_neg] at hrounds
    simpa [hn, hd] using hrounds.neg
  · have hn' : (0 : K) ≤ numerator := by exact_mod_cast not_lt.mp hn
    have hd' : (0 : K) ≤ denominator := by exact_mod_cast not_lt.mp hd
    rw [abs_of_nonneg hn', abs_of_nonneg hd'] at hrounds
    simpa [hn, hd] using hrounds

end Rounding
