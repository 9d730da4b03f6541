/-
Integer cents, as PostgreSQL bigint columns hold them.

A `MoneyCents` carries its range, so an amount that a column could not
store cannot be built. The arithmetic is exact and checked: a result
outside the range throws `MoneyRangeError` and nothing wraps.

# Reading a result

Every operation has one equation, `… = .ok m ↔ m.val = …`. An amount
that was computed is therefore the integer sum, difference or floor it
stands for, and later proofs work on the integers.
-/
import Mathlib.Tactic.Common

namespace Skrynia

/-- The greatest amount of a bigint column. -/
def postgresBigintMax : Int := 9223372036854775807

/-- The least amount of a bigint column. -/
def postgresBigintMin : Int := -9223372036854775808

/-- What a bigint column can hold. -/
def InBigintRange (v : Int) : Prop :=
  postgresBigintMin ≤ v ∧ v ≤ postgresBigintMax

instance (v : Int) : Decidable (InBigintRange v) :=
  inferInstanceAs (Decidable (_ ∧ _))

/-- Canonical cents. -/
@[ext] structure MoneyCents where
  val : Int
  inRange : InBigintRange val
deriving DecidableEq

namespace MoneyCents

/-- No money. -/
def zero : MoneyCents := ⟨0, by decide⟩

/-- Zero is the integer zero. -/
@[simp] theorem val_zero : zero.val = 0 := rfl

/-- Zero is not negative. -/
theorem zero_nonneg : 0 ≤ zero.val := Int.le_refl 0

end MoneyCents

/-- How the money functions throw. -/
inductive MoneyError where
  /-- `MoneyRangeError`. -/
  | range
  /-- Any other `Error`, with its message. -/
  | invalid (message : String)
deriving DecidableEq

/-- `assertPostgresBigintRange`, on the way from a bigint to cents. -/
def bigintToMoneyCents (v : Int) : Except MoneyError MoneyCents :=
  if h : InBigintRange v then .ok ⟨v, h⟩ else .error .range

/-- `addMoneyCents`: the sum, if a column can hold it. -/
def addMoneyCents (left right : MoneyCents) :
    Except MoneyError MoneyCents :=
  bigintToMoneyCents (left.val + right.val)

/-- `subtractMoneyCents`: the difference, if a column can hold it. -/
def subtractMoneyCents (left right : MoneyCents) :
    Except MoneyError MoneyCents :=
  bigintToMoneyCents (left.val - right.val)

/-- The least bigint has no absolute value among the bigints. -/
def absoluteMoneyCents (value : MoneyCents) : Except MoneyError MoneyCents :=
  bigintToMoneyCents (if value.val < 0 then -value.val else value.val)

/-- `floor(amount * feeBps / 10000)`, in unbounded integers. -/
def platformFeeCents (amount : MoneyCents) (feeBps : Nat) :
    Except MoneyError MoneyCents :=
  if 10000 < feeBps then
    .error (.invalid "feeBps must be an integer between 0 and 10000")
  else if amount.val < 0 then
    .error (.invalid "amountCents must be non-negative")
  else
    bigintToMoneyCents (amount.val * feeBps / 10000)

-- ==================================================== reading a result

/-- An integer becomes the amount of its value. -/
theorem bigintToMoneyCents_eq_ok {v : Int} {m : MoneyCents} :
    bigintToMoneyCents v = .ok m ↔ m.val = v := by
  unfold bigintToMoneyCents
  constructor
  · intro h
    split at h
    · next hv =>
      cases h
      rfl
    · cases h
  · intro heq
    subst heq
    rw [dif_pos m.inRange]

/-- It fails exactly outside the range. -/
theorem bigintToMoneyCents_eq_error {v : Int} {e : MoneyError} :
    bigintToMoneyCents v = .error e ↔ ¬ InBigintRange v ∧ e = .range := by
  unfold bigintToMoneyCents
  split
  · next hv => simp [hv]
  · next hv => simp [hv, eq_comm]

/-- A sum that is returned is the sum of the integers. -/
theorem addMoneyCents_eq_ok {l r m : MoneyCents} :
    addMoneyCents l r = .ok m ↔ m.val = l.val + r.val :=
  bigintToMoneyCents_eq_ok

/-- A difference that is returned is the difference of the integers. -/
theorem subtractMoneyCents_eq_ok {l r m : MoneyCents} :
    subtractMoneyCents l r = .ok m ↔ m.val = l.val - r.val :=
  bigintToMoneyCents_eq_ok

/-- And an absolute value that of the integer. -/
theorem absoluteMoneyCents_eq_ok {v m : MoneyCents} :
    absoluteMoneyCents v = .ok m ↔ m.val = v.val.natAbs := by
  unfold absoluteMoneyCents
  rw [bigintToMoneyCents_eq_ok]
  split <;> omega

/-- The fee never exceeds the amount it is taken from. -/
theorem platformFeeCents_le {amount fee : MoneyCents} {bps : Nat}
    (h : platformFeeCents amount bps = .ok fee) :
    0 ≤ fee.val ∧ fee.val ≤ amount.val := by
  unfold platformFeeCents at h
  split at h
  · cases h
  next hbps =>
    split at h
    · cases h
    next hamount =>
      rw [bigintToMoneyCents_eq_ok] at h
      rw [h]
      have hle : amount.val * bps ≤ amount.val * 10000 :=
        Int.mul_le_mul_of_nonneg_left (by omega) (by omega)
      have hnn : 0 ≤ amount.val * (bps : Int) :=
        Int.mul_nonneg (by omega) (by omega)
      constructor <;> omega

/-- A nonnegative amount and a rate up to 100% always have a fee. -/
theorem platformFeeCents_ok {amount : MoneyCents} {bps : Nat}
    (hbps : bps ≤ 10000) (hamount : 0 ≤ amount.val) :
    ∃ fee, platformFeeCents amount bps = .ok fee := by
  have hle : amount.val * bps ≤ amount.val * 10000 :=
    Int.mul_le_mul_of_nonneg_left (by omega) hamount
  have hnn : 0 ≤ amount.val * (bps : Int) :=
    Int.mul_nonneg hamount (by omega)
  obtain ⟨hmin, hmax⟩ := amount.inRange
  have hrange : InBigintRange (amount.val * bps / 10000) := by
    unfold InBigintRange postgresBigintMin postgresBigintMax at *
    omega
  refine ⟨⟨_, hrange⟩, ?_⟩
  unfold platformFeeCents
  rw [if_neg (by omega), if_neg (by omega), bigintToMoneyCents_eq_ok]

end Skrynia
