/-
Shares at a floored rate, over any denominator.

The share of an amount at rate `r` out of `n` is `x * r / n`, rounded
down. It grows with the amount and with the rate, and splitting an
amount loses at most one unit.
-/
import Mathlib.Tactic.Common

namespace Rate

/-- `x * r / n`, rounded down. -/
def share (n r x : Int) : Int :=
  x * r / n

variable {n r r' x y : Int}

/-- The floor, without a division. -/
theorem share_bounds (hn : 0 < n) :
    share n r x * n ≤ x * r ∧ x * r < (share n r x + 1) * n := by
  constructor
  · exact Int.ediv_mul_le _ (by omega)
  · exact Int.lt_ediv_add_one_mul_self _ hn

/-- More money, no smaller share. -/
theorem share_mono_amount (hn : 0 < n) (hr : 0 ≤ r) (h : x ≤ y) :
    share n r x ≤ share n r y := by
  apply Int.ediv_le_ediv hn
  exact Int.mul_le_mul_of_nonneg_right h hr

/-- A higher rate, no smaller share. -/
theorem share_mono_rate (hn : 0 < n) (hx : 0 ≤ x) (h : r ≤ r') :
    share n r x ≤ share n r' x := by
  apply Int.ediv_le_ediv hn
  exact Int.mul_le_mul_of_nonneg_left h hx

/-- Two shares never exceed the share of the sum, and miss it by at most
one: their two remainders make less than two denominators. -/
theorem share_add (hn : 0 < n) :
    share n r x + share n r y ≤ share n r (x + y)
      ∧ share n r (x + y) ≤ share n r x + share n r y + 1 := by
  obtain ⟨hx, hx'⟩ := share_bounds (r := r) (x := x) hn
  obtain ⟨hy, hy'⟩ := share_bounds (r := r) (x := y) hn
  have hsum : (x + y) * r = x * r + y * r := Int.add_mul x y r
  constructor
  · apply Int.le_ediv_of_mul_le hn
    rw [hsum, Int.add_mul]
    omega
  · have hlt : (x + y) * r < (share n r x + share n r y + 2) * n := by
      rw [hsum]
      have : (share n r x + share n r y + 2) * n
          = (share n r x + 1) * n + (share n r y + 1) * n := by
        rw [← Int.add_mul]
        congr 1
        omega
      omega
    have := Int.ediv_lt_of_lt_mul hn hlt
    unfold share at *
    omega

end Rate
