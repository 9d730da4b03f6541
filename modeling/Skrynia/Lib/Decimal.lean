/-
Decimal numerals as texts.

A numeral is a nonempty list of decimal digits; leading zeros are
allowed. Its value is `Nat.ofDigitChars`, and the numeral that a number
prints as is `Nat.toDigits`. The two are inverse on canonical numerals,
those without a leading zero (`toDigits_value`).

Two matchers read larger texts. `matchFixed` is a numeral with at most
two digits after a separator, and `CanonicalInt` a canonical numeral
with an optional minus; the second are exactly the texts that integers
print as (`canonicalInt_iff`).
-/
import Mathlib.Algebra.Order.Field.Rat
import Mathlib.Data.List.Induction
import Mathlib.Data.List.TakeWhile
import Mathlib.Tactic.FieldSimp
import Mathlib.Tactic.Ring

namespace Decimal

/-- `\d+`. -/
def IsNumeral (cs : List Char) : Prop :=
  cs ≠ [] ∧ ∀ c ∈ cs, c.isDigit = true

/-- Whether a text is a numeral can be computed. -/
theorem isNumeral_iff (cs : List Char) :
    (!cs.isEmpty && cs.all Char.isDigit) = true ↔ IsNumeral cs := by
  rw [Bool.and_eq_true, Bool.not_eq_true', List.isEmpty_eq_false_iff,
    List.all_eq_true]
  exact Iff.rfl

instance (cs : List Char) : Decidable (IsNumeral cs) :=
  decidable_of_iff _ (isNumeral_iff cs)

/-- The number that a numeral stands for. -/
def value (cs : List Char) : Nat :=
  Nat.ofDigitChars 10 cs 0

variable {cs ds : List Char} {c : Char} {n : Nat}

-- ============================================================== numerals

/-- No digits stand for zero. -/
@[simp] theorem value_nil : value [] = 0 := rfl

/-- Digits that follow are the lower places. -/
theorem value_append :
    value (cs ++ ds) = value cs * 10 ^ ds.length + value ds := by
  unfold value
  rw [Nat.ofDigitChars_append, Nat.ofDigitChars_eq_ofDigitChars_zero]
  rw [Nat.mul_comm]

/-- A number is read back from its numeral. -/
@[simp] theorem value_toDigits : value (Nat.toDigits 10 n) = n :=
  Nat.ofDigitChars_ten_toDigits

/-- Leading zeros do not matter. -/
theorem value_leftpad {k : Nat} : value (cs.leftpad k '0') = value cs := by
  simp [List.leftpad, value, Nat.ofDigitChars_append]

/-- A zero that follows is a factor of ten. -/
theorem value_rightpad {k : Nat} :
    value (cs.rightpad k '0') = value cs * 10 ^ (k - cs.length) := by
  rw [List.rightpad, value_append, List.length_replicate]
  simp [value]

/-- A number prints as a numeral. -/
theorem isNumeral_toDigits : IsNumeral (Nat.toDigits 10 n) :=
  ⟨Nat.toDigits_ne_nil, fun _ h =>
    Nat.isDigit_of_mem_toDigits (by decide) (by decide) h⟩

/-- Leading zeros leave a numeral one. -/
theorem isNumeral_leftpad {k : Nat} (h : IsNumeral cs) :
    IsNumeral (cs.leftpad k '0') := by
  refine ⟨?_, fun c hc => ?_⟩
  · simp [List.leftpad, h.1]
  · rcases List.mem_append.mp hc with hc | hc
    · rw [List.eq_of_mem_replicate hc]
      rfl
    · exact h.2 c hc

/-- A digit is the character of its own value. -/
theorem digitChar_toNat (h : c.isDigit = true) :
    c.toNat - 48 < 10 ∧ Nat.digitChar (c.toNat - 48) = c := by
  have hrange := Char.isDigit_iff_toNat.mp h
  have hlt : c.toNat - 48 < 10 := by
    simp at hrange
    omega
  refine ⟨hlt, Char.toNat_inj.mp ?_⟩
  rw [Nat.toNat_digitChar_of_lt_ten hlt]
  simp at hrange
  omega

/-- The value of one digit. -/
theorem value_singleton : value [c] = c.toNat - 48 := by
  simp [value, Nat.ofDigitChars_cons]

-- ==================================================== canonical numerals

/-- `0`, or no leading zero. -/
def Canonical (cs : List Char) : Prop :=
  IsNumeral cs ∧ (cs = ['0'] ∨ cs.head? ≠ some '0')

instance (cs : List Char) : Decidable (Canonical cs) :=
  inferInstanceAs (Decidable (_ ∧ _))

/-- Only `0` is worth nothing. -/
theorem value_pos (hnum : IsNumeral cs) (hhead : cs.head? ≠ some '0') :
    0 < value cs := by
  cases cs with
  | nil => exact absurd rfl hnum.1
  | cons c cs =>
      have hc := (digitChar_toNat (hnum.2 c (by simp)))
      have hpos : 0 < c.toNat - 48 := by
        apply Nat.pos_of_ne_zero
        intro hz
        rw [hz] at hc
        exact hhead (by simp [← hc.2])
      have happend : value ([c] ++ cs) = value [c] * 10 ^ cs.length + value cs :=
        value_append
      rw [List.singleton_append] at happend
      rw [happend, value_singleton]
      have := Nat.mul_pos hpos (Nat.pow_pos (n := cs.length)
        (show 0 < 10 by decide))
      omega

/-- A canonical numeral is what its value prints as. Digits come off the
end, and what is left has the same first digit. -/
theorem toDigits_value_of_head (hnum : IsNumeral cs)
    (hhead : cs.head? ≠ some '0') : Nat.toDigits 10 (value cs) = cs := by
  induction cs using List.reverseRecOn with
  | nil => exact absurd rfl hnum.1
  | append_singleton cs c ih =>
      obtain ⟨hlt, hchar⟩ := digitChar_toNat (hnum.2 c (by simp))
      rw [value_append, value_singleton, List.length_singleton, Nat.pow_one]
      cases cs with
      | nil => rw [value_nil, Nat.zero_mul, Nat.zero_add,
          Nat.toDigits_of_lt_base hlt, hchar, List.nil_append]
      | cons d cs =>
          have hnum' : IsNumeral (d :: cs) :=
            ⟨by simp, fun e he => hnum.2 e (List.mem_append_left _ he)⟩
          have hpos := value_pos hnum' (by simpa using hhead)
          rw [Nat.mul_comm, ← Nat.toDigits_append_toDigits (by decide) hpos hlt,
            ih hnum' (by simpa using hhead), Nat.toDigits_of_lt_base hlt,
            hchar]

/-- A number above zero does not print with a leading zero. -/
theorem head_toDigits (h : 0 < n) :
    (Nat.toDigits 10 n).head? ≠ some '0' := by
  induction n using Nat.strongRecOn with
  | ind n ih =>
      by_cases hlt : n < 10
      · rw [Nat.toDigits_of_lt_base hlt]
        simp
        omega
      · rw [Nat.toDigits_of_base_le (by decide) (by omega)]
        have := ih (n / 10) (by omega) (by omega)
        rwa [List.head?_append_of_ne_nil _ Nat.toDigits_ne_nil]

/-- What a number prints as has no leading zero. -/
theorem canonical_toDigits : Canonical (Nat.toDigits 10 n) := by
  refine ⟨isNumeral_toDigits, ?_⟩
  rcases Nat.eq_zero_or_pos n with rfl | hpos
  · exact .inl rfl
  · exact .inr (head_toDigits hpos)

-- =============================================================== integers

/-- What an integer prints as. -/
def intDigits (x : Int) : List Char :=
  if x < 0 then '-' :: Nat.toDigits 10 x.natAbs
  else Nat.toDigits 10 x.natAbs

/-- An integer prints as its digits after its sign. -/
theorem toList_toString (x : Int) : (toString x).toList = intDigits x := by
  unfold intDigits
  rw [Int.toString_eq_repr, Int.repr_eq_if]
  by_cases hx : x < 0
  · have habs : (-x).toNat = x.natAbs := by omega
    rw [if_neg (by omega), if_pos hx, String.toList_append, Nat.toList_repr,
      habs]
    rfl
  · have habs : x.toNat = x.natAbs := by omega
    rw [if_pos (by omega), if_neg hx, Nat.toList_repr, habs]

/-- A numeral with an optional minus, read as `BigInt` reads it. -/
def intValue : List Char → Int
  | '-' :: cs => -(value cs : Int)
  | cs => value cs

/-- No digit is a minus sign. -/
theorem intValue_of_numeral (h : IsNumeral cs) : intValue cs = value cs := by
  unfold intValue
  split
  · next ds => exact absurd (h.2 '-' (by simp)) (by decide)
  · rfl

/-- And is read back from them. -/
@[simp] theorem intValue_intDigits (x : Int) : intValue (intDigits x) = x := by
  unfold intDigits
  split
  · rw [intValue, value_toDigits]
    omega
  · rw [intValue_of_numeral isNumeral_toDigits, value_toDigits]
    omega

/-- `-?\d+`. -/
def IsInteger : List Char → Prop
  | '-' :: cs => IsNumeral cs
  | cs => IsNumeral cs

/-- A text that does not begin with a minus is an integer if it is a
numeral. -/
theorem isInteger_cons_of_ne (hc : c ≠ '-') :
    IsInteger (c :: cs) ↔ IsNumeral (c :: cs) := by
  unfold IsInteger
  split
  · next heq => exact absurd (List.cons.inj heq).1 hc
  · exact Iff.rfl

instance : DecidablePred IsInteger
  | [] => inferInstanceAs (Decidable (IsNumeral []))
  | c :: cs =>
      if hc : c = '-' then
        decidable_of_iff (IsNumeral cs) (by rw [hc]; exact Iff.rfl)
      else decidable_of_iff _ (isInteger_cons_of_ne hc).symm

/-- `0`, or a numeral without leading zero after an optional minus. -/
def CanonicalInt : List Char → Prop
  | ['0'] => True
  | '-' :: cs => IsNumeral cs ∧ cs.head? ≠ some '0'
  | cs => IsNumeral cs ∧ cs.head? ≠ some '0'

instance : DecidablePred CanonicalInt := fun cs => by
  unfold CanonicalInt
  split <;> infer_instance

/-- The canonical texts are what the integers print as. -/
theorem canonicalInt_iff : CanonicalInt cs ↔ intDigits (intValue cs) = cs := by
  constructor
  · intro h
    unfold CanonicalInt at h
    split at h
    · decide
    · next cs =>
      have hpos := value_pos h.1 h.2
      rw [intValue, intDigits, if_pos (by omega)]
      congr 1
      rw [Int.natAbs_neg, Int.natAbs_natCast]
      exact toDigits_value_of_head h.1 h.2
    · rw [intValue_of_numeral h.1, intDigits, if_neg (by omega),
        Int.natAbs_natCast]
      exact toDigits_value_of_head h.1 h.2
  · intro h
    rw [← h]
    generalize intValue cs = x
    unfold intDigits
    by_cases hx : x < 0
    · rw [if_pos hx]
      exact ⟨isNumeral_toDigits, head_toDigits (by omega)⟩
    · rw [if_neg hx]
      obtain ⟨hnum, hzero | hhead⟩ := canonical_toDigits (n := x.natAbs)
      · rw [hzero]
        trivial
      · unfold CanonicalInt
        split
        · trivial
        · next ds heq =>
          rw [heq] at hnum
          exact absurd (hnum.2 '-' (by simp)) (by decide)
        · exact ⟨hnum, hhead⟩

/-- A canonical integer is one. -/
theorem isInteger_of_canonicalInt (h : CanonicalInt cs) : IsInteger cs := by
  rw [← canonicalInt_iff.mp h]
  unfold intDigits
  split
  · exact isNumeral_toDigits
  · have hnum := isNumeral_toDigits (n := (intValue cs).natAbs)
    unfold IsInteger
    split
    · next ds heq =>
      rw [heq] at hnum
      exact absurd (hnum.2 '-' (by simp)) (by decide)
    · exact hnum

-- ============================================================= fixed point

/-- A numeral, and the digits after a separator if there is one: at least
one and at most two. The groups of `(\d+)(?:sep(\d{1,2}))?`. -/
def matchFixed (sep : Char → Bool) (cs : List Char) :
    Option (List Char × List Char) :=
  let whole := cs.takeWhile Char.isDigit
  if whole = [] then none
  else match cs.dropWhile Char.isDigit with
    | [] => some (whole, [])
    | c :: fraction =>
        if sep c ∧ IsNumeral fraction ∧ fraction.length ≤ 2 then
          some (whole, fraction)
        else none

/-- A text of this form, by its two numerals. -/
inductive Fixed (sep : Char → Bool) :
    List Char → List Char → List Char → Prop where
  | whole {cs : List Char} (h : IsNumeral cs) : Fixed sep cs cs []
  | fraction {cs ds : List Char} {c : Char} (h : IsNumeral cs)
      (hc : sep c = true) (hd : IsNumeral ds) (hlen : ds.length ≤ 2) :
      Fixed sep (cs ++ c :: ds) cs ds

variable {sep : Char → Bool}

/-- The matcher finds the two parts of a numeral with a fraction, and accepts
nothing else. -/
theorem matchFixed_eq_some {w f : List Char}
    (hsep : ∀ c, sep c = true → c.isDigit = false) :
    matchFixed sep cs = some (w, f) ↔ Fixed sep cs w f := by
  constructor
  · intro h
    have happend := List.takeWhile_append_dropWhile
      (p := Char.isDigit) (l := cs)
    have hnum : cs.takeWhile Char.isDigit ≠ []
        → IsNumeral (cs.takeWhile Char.isDigit) := fun hne =>
      ⟨hne, fun c hc => List.mem_takeWhile_imp hc⟩
    unfold matchFixed at h
    simp only at h
    split at h
    · cases h
    · next hne =>
      split at h
      · next hdrop =>
        cases h
        rw [hdrop, List.append_nil] at happend
        have hw := hnum hne
        rw [happend] at hw ⊢
        exact .whole hw
      · next c ds hdrop =>
        split at h
        · next hcond =>
          cases h
          rw [hdrop] at happend
          have := Fixed.fraction (hnum hne) hcond.1 hcond.2.1 hcond.2.2
          rwa [happend] at this
        · cases h
  · intro h
    rcases h with ⟨hw⟩ | ⟨hw, hc, hd, hlen⟩
    · have htake : cs.takeWhile Char.isDigit = cs :=
        List.takeWhile_eq_self_iff.mpr hw.2
      have hdrop : cs.dropWhile Char.isDigit = [] :=
        List.dropWhile_eq_nil_iff.mpr hw.2
      simp [matchFixed, htake, hdrop, hw.1]
    · next c =>
      have htake : (w ++ c :: f).takeWhile Char.isDigit = w := by
        rw [List.takeWhile_append_of_pos hw.2, List.takeWhile_cons,
          hsep c hc]
        simp
      have hdrop : (w ++ c :: f).dropWhile Char.isDigit = c :: f := by
        rw [List.dropWhile_append_of_pos hw.2, List.dropWhile_cons,
          hsep c hc]
        simp
      simp [matchFixed, htake, hdrop, hw.1, hc, hd, hlen]

/-- The value of the two numerals. -/
def fixedValue (whole fraction : List Char) : ℚ :=
  value whole + value fraction / 10 ^ fraction.length

/-- The number of hundredths. -/
def hundredths (whole fraction : List Char) : Nat :=
  value whole * 100 + value (fraction.rightpad 2 '0')

/-- A number with two decimal places is a number of hundredths. -/
theorem hundredths_eq {whole fraction : List Char}
    (hlen : fraction.length ≤ 2) :
    (hundredths whole fraction : ℚ) = 100 * fixedValue whole fraction := by
  have hpow : (10 : ℚ) ^ (2 - fraction.length) * 10 ^ fraction.length
      = 100 := by
    rw [← pow_add]
    have : 2 - fraction.length + fraction.length = 2 := by omega
    rw [this]
    norm_num
  have hne : (10 : ℚ) ^ fraction.length ≠ 0 :=
    pow_ne_zero _ (by norm_num)
  unfold hundredths fixedValue
  rw [value_rightpad]
  push_cast
  rw [← hpow]
  field_simp

/-- Such a text starts with a digit. -/
theorem Fixed.head_isDigit {w f : List Char} (h : Fixed sep cs w f) :
    ∃ d ds, cs = d :: ds ∧ d.isDigit = true := by
  have hhead : ∀ ds : List Char, IsNumeral ds →
      ∃ d rest, ds = d :: rest ∧ d.isDigit = true := by
    intro ds hds
    cases ds with
    | nil => exact absurd rfl hds.1
    | cons d rest => exact ⟨d, rest, rfl, hds.2 d (by simp)⟩
  cases h with
  | whole hw => exact hhead _ hw
  | fraction hw _ _ _ =>
      obtain ⟨d, rest, rfl, hd⟩ := hhead _ hw
      exact ⟨d, _, rfl, hd⟩

/-- More separators accept more texts. -/
theorem Fixed.weaken {sep' : Char → Bool} {w f : List Char}
    (h : Fixed sep cs w f) (himp : ∀ d, sep d = true → sep' d = true) :
    Fixed sep' cs w f := by
  cases h with
  | whole hw => exact .whole hw
  | fraction hw hc hf hlen => exact .fraction hw (himp _ hc) hf hlen

/-- A fraction has two digits at most. -/
theorem Fixed.length_le {w f : List Char} (h : Fixed sep cs w f) :
    f.length ≤ 2 := by
  cases h with
  | whole => exact Nat.zero_le 2
  | fraction _ _ _ hlen => exact hlen

/-- A number of hundredths as whole part, separator and two digits. -/
def printFixed (c : Char) (n : Nat) : List Char :=
  Nat.toDigits 10 (n / 100)
    ++ c :: (Nat.toDigits 10 (n % 100)).leftpad 2 '0'

/-- What a hundred leaves over prints as two digits. -/
theorem length_leftpad_mod :
    ((Nat.toDigits 10 (n % 100)).leftpad 2 '0').length = 2 := by
  have : (Nat.toDigits 10 (n % 100)).length ≤ 2 :=
    (Nat.length_toDigits_le_iff (by decide) (by decide)).mpr
      (Nat.mod_lt n (by decide))
  rw [List.length_leftpad]
  omega

/-- What is printed has a fraction of two digits. -/
theorem fixed_printFixed (hc : sep c = true) :
    Fixed sep (printFixed c n) (Nat.toDigits 10 (n / 100))
      ((Nat.toDigits 10 (n % 100)).leftpad 2 '0') :=
  .fraction isNumeral_toDigits hc (isNumeral_leftpad isNumeral_toDigits)
    (Nat.le_of_eq length_leftpad_mod)

/-- What is printed reads back. -/
theorem hundredths_printFixed :
    hundredths (Nat.toDigits 10 (n / 100))
      ((Nat.toDigits 10 (n % 100)).leftpad 2 '0') = n := by
  unfold hundredths
  rw [value_rightpad, length_leftpad_mod, value_leftpad, value_toDigits,
    value_toDigits, Nat.sub_self, Nat.pow_zero, Nat.mul_one]
  omega

end Decimal
