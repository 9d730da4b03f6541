/-
Decimal numbers with a fraction and an exponent, as texts.

`matchScientific` is a matcher of
`^([+]?)(\d+)(?:\.(\d*))?(?:e([+-]?\d+))?$` without case, and `Scientific`
the grammar beside it: the two agree (`matchScientific_eq_some`), so a
text has one reading. `Match.value` is the number that the reading
writes.

A scaled integer is the digits of the whole part and the fraction, with
zeros behind them while the exponent exceeds the fraction, over a power
of ten while it does not (`scaled_eq_value`).
-/
import Mathlib.Tactic.NormNum
import Skrynia.Lib.Decimal

namespace Decimal

variable {cs ds rest : List Char} {c : Char}

-- =============================================================== exponents

/-- `[+-]?\d+`. -/
def IsExponent : List Char → Prop
  | '+' :: cs => IsNumeral cs
  | '-' :: cs => IsNumeral cs
  | cs => IsNumeral cs

/-- An exponent without its sign. -/
def dropSign : List Char → List Char
  | '+' :: cs => cs
  | '-' :: cs => cs
  | cs => cs

/-- Without its sign an exponent is a numeral. -/
theorem isNumeral_dropSign {cs : List Char} :
    IsNumeral (dropSign cs) ↔ IsExponent cs := by
  unfold dropSign IsExponent
  split <;> rfl

instance : DecidablePred IsExponent :=
  fun _ => decidable_of_iff _ isNumeral_dropSign

/-- `Number` of such a text. -/
def exponentValue : List Char → Int
  | '+' :: cs => value cs
  | '-' :: cs => -(value cs : Int)
  | cs => value cs

-- ================================================================= matches

/-- The groups of a match, and whether the optional ones took part. -/
structure Match where
  integer : List Char
  decimal : Option (List Char)
  exponent : Option (List Char)

/-- The groups are written one after the other, with their markers. -/
def Match.write (m : Match) (sign mark : List Char) : List Char :=
  sign ++ (m.integer ++ (m.decimal.elim [] ('.' :: ·)
    ++ m.exponent.elim [] (mark ++ ·)))

/-- The parts are digits where digits belong. -/
structure Match.WellFormed (m : Match) : Prop where
  integer : IsNumeral m.integer
  decimal : ∀ ds ∈ m.decimal, ∀ c ∈ ds, c.isDigit = true
  exponent : ∀ es ∈ m.exponent, IsExponent es

/-- The text is written by the groups, with or without a plus sign and
with either case of the exponent's mark. -/
def Scientific (cs : List Char) (m : Match) : Prop :=
  m.WellFormed ∧ ∃ sign ∈ [[], ['+']], ∃ mark ∈ [['e'], ['E']],
    cs = m.write sign mark

/-- The decimal number written: whole part and fraction, moved by the
exponent. -/
def Match.value (m : Match) : ℚ :=
  fixedValue m.integer (m.decimal.getD [])
    * 10 ^ exponentValue (m.exponent.getD ['0'])

-- ================================================================= matcher

/-- Skips a plus sign. -/
def dropPlus : List Char → List Char
  | '+' :: cs => cs
  | cs => cs

/-- `(?:\.(\d*))?`, and what is left. -/
def splitDecimal : List Char → Option (List Char) × List Char
  | '.' :: cs => (some (cs.takeWhile Char.isDigit), cs.dropWhile Char.isDigit)
  | cs => (none, cs)

/-- `(?:e([+-]?\d+))?$`: the group, or that nothing is left. -/
def matchExponent : List Char → Option (Option (List Char))
  | [] => some none
  | c :: cs =>
      if (c = 'e' ∨ c = 'E') ∧ IsExponent cs then some (some cs) else none

/-- The matcher: sign, whole part, fraction, exponent, end of text. -/
def matchScientific (cs : List Char) : Option Match :=
  let unsigned := dropPlus cs
  let integer := unsigned.takeWhile Char.isDigit
  if integer = [] then none
  else
    let (decimal, rest) := splitDecimal (unsigned.dropWhile Char.isDigit)
    (matchExponent rest).map fun exponent => ⟨integer, decimal, exponent⟩

/-- Digits that no digit follows are taken as they are. -/
theorem span_digits (hds : ∀ c ∈ ds, c.isDigit = true)
    (hrest : ∀ c ∈ rest.head?, c.isDigit = false) :
    (ds ++ rest).takeWhile Char.isDigit = ds
      ∧ (ds ++ rest).dropWhile Char.isDigit = rest := by
  have hstop : rest.takeWhile Char.isDigit = []
      ∧ rest.dropWhile Char.isDigit = rest := by
    cases rest with
    | nil => exact ⟨rfl, rfl⟩
    | cons c cs =>
        have hc := hrest c (by simp)
        simp [hc]
  rw [List.takeWhile_append_of_pos hds, List.dropWhile_append_of_pos hds,
    hstop.1, hstop.2, List.append_nil]
  exact ⟨rfl, rfl⟩

/-- Every text that is matched is an `e` with an exponent, or empty. -/
theorem matchExponent_eq_some {exponent : Option (List Char)} :
    matchExponent cs = some exponent
      ↔ (∀ es ∈ exponent, IsExponent es) ∧ ∃ mark ∈ [['e'], ['E']],
          cs = exponent.elim [] (mark ++ ·) := by
  constructor
  · intro h
    unfold matchExponent at h
    split at h
    · cases h
      exact ⟨by simp, ['e'], by simp, rfl⟩
    · next c es =>
      by_cases hcond : (c = 'e' ∨ c = 'E') ∧ IsExponent es
      · rw [if_pos hcond] at h
        cases h
        refine ⟨by simpa using hcond.2, [c], ?_, rfl⟩
        rcases hcond.1 with rfl | rfl <;> simp
      · rw [if_neg hcond] at h
        cases h
  · intro h
    obtain ⟨hes, mark, hmark, rfl⟩ := h
    cases exponent with
    | none => rfl
    | some es =>
        have hexp := hes es rfl
        simp only [List.mem_cons, List.not_mem_nil, or_false] at hmark
        rcases hmark with rfl | rfl <;> simp [matchExponent, hexp]

/-- What is left of the fraction starts with no digit, the point included. -/
theorem splitDecimal_eq {decimal : Option (List Char)}
    (hdecimal : ∀ ds ∈ decimal, ∀ c ∈ ds, c.isDigit = true)
    (hrest : ∀ c ∈ rest.head?, c.isDigit = false ∧ c ≠ '.') :
    splitDecimal (decimal.elim [] ('.' :: ·) ++ rest) = (decimal, rest) := by
  cases decimal with
  | none =>
      rw [Option.elim_none, List.nil_append]
      unfold splitDecimal
      split
      · next cs => exact absurd rfl (hrest '.' (by simp)).2
      · rfl
  | some ds =>
      have hspan := span_digits (hdecimal ds rfl) fun c hc => (hrest c hc).1
      rw [Option.elim_some, List.cons_append, splitDecimal, hspan.1, hspan.2]

/-- A fraction is made of digits. -/
theorem splitDecimal_digits :
    ∀ ds ∈ (splitDecimal cs).1, ∀ c ∈ ds, c.isDigit = true := by
  intro ds hds c hc
  unfold splitDecimal at hds
  split at hds
  · obtain rfl := Option.mem_some.mp hds
    exact List.mem_takeWhile_imp hc
  · cases hds

/-- Splitting off the fraction loses nothing. -/
theorem splitDecimal_write :
    (splitDecimal cs).1.elim [] ('.' :: ·) ++ (splitDecimal cs).2 = cs := by
  unfold splitDecimal
  split
  · next cs =>
    rw [Option.elim_some, List.cons_append, List.takeWhile_append_dropWhile]
  · rfl

/-- Nor does skipping the sign. -/
theorem dropPlus_write (cs : List Char) :
    ∃ sign ∈ [[], ['+']], cs = sign ++ dropPlus cs := by
  unfold dropPlus
  split
  · exact ⟨['+'], by simp, rfl⟩
  · exact ⟨[], by simp, rfl⟩

/-- No digit is a plus sign. -/
theorem dropPlus_eq (hds : IsNumeral ds) {sign : List Char}
    (hsign : sign ∈ [[], ['+']]) :
    dropPlus (sign ++ (ds ++ rest)) = ds ++ rest := by
  simp only [List.mem_cons, List.not_mem_nil, or_false] at hsign
  rcases hsign with rfl | rfl
  · cases ds with
    | nil => exact absurd rfl hds.1
    | cons d ds =>
        have hd := hds.2 d (by simp)
        rw [List.nil_append, List.cons_append]
        unfold dropPlus
        split
        · next heq =>
          rw [(List.cons.inj heq).1] at hd
          exact absurd hd (by decide)
        · rfl
  · rfl

/-- The matcher reads the grammar. -/
theorem matchScientific_eq_some {m : Match} :
    matchScientific cs = some m ↔ Scientific cs m := by
  constructor
  · intro h
    unfold matchScientific at h
    simp only at h
    split at h
    · cases h
    · next hne =>
      obtain ⟨exponent, hexp, rfl⟩ := Option.map_eq_some_iff.mp h
      obtain ⟨hes, mark, hmark, hrest⟩ := matchExponent_eq_some.mp hexp
      obtain ⟨sign, hsign, hcs⟩ := dropPlus_write cs
      refine ⟨⟨⟨hne, fun c hc => List.mem_takeWhile_imp hc⟩,
        splitDecimal_digits, hes⟩, sign, hsign, mark, hmark, ?_⟩
      calc cs
        _ = sign ++ dropPlus cs := hcs
        _ = sign ++ ((dropPlus cs).takeWhile Char.isDigit
              ++ (dropPlus cs).dropWhile Char.isDigit) := by
            rw [List.takeWhile_append_dropWhile]
        _ = _ := by
            rw [Match.write, ← hrest, splitDecimal_write]
  · intro h
    obtain ⟨⟨hint, hdec, hes⟩, sign, hsign, mark, hmark, rfl⟩ := h
    have hmarkHead : ∀ c ∈ mark.head?, c.isDigit = false ∧ c ≠ '.' := by
      simp only [List.mem_cons, List.not_mem_nil, or_false] at hmark
      rcases hmark with rfl | rfl <;> simp
    have htail : ∀ c ∈ (m.exponent.elim [] (mark ++ ·)).head?,
        c.isDigit = false ∧ c ≠ '.' := by
      cases m.exponent with
      | none => simp
      | some es =>
          simp only [List.mem_cons, List.not_mem_nil, or_false] at hmark
          rcases hmark with rfl | rfl <;> simp
    have hpoint : ∀ c ∈ (m.decimal.elim [] ('.' :: ·)
        ++ m.exponent.elim [] (mark ++ ·)).head?, c.isDigit = false := by
      cases hd : m.decimal with
      | none => exact fun c hc => (htail c (by simpa using hc)).1
      | some ds => simp
    have hspan := span_digits hint.2 hpoint
    have hexp := matchExponent_eq_some.mpr ⟨hes, mark, hmark, rfl⟩
    unfold matchScientific
    simp only [Match.write, dropPlus_eq hint hsign, hspan.1, hspan.2,
      splitDecimal_eq hdec htail, if_neg hint.1, hexp, Option.map_some]

-- ============================================================ scaled digits

/-- `replace(/^0+(?=\d)/, "")`: zeros in front go, the last digit stays. -/
def stripZeros (cs : List Char) : List Char :=
  match cs.dropWhile (· == '0') with
  | [] => ['0']
  | ds => ds

/-- Zeros in front do not count. -/
theorem value_dropWhile_zero (cs : List Char) :
    value (cs.dropWhile (· == '0')) = value cs := by
  induction cs with
  | nil => rfl
  | cons c cs ih =>
      rw [List.dropWhile_cons]
      split
      · next hc =>
        rw [beq_iff_eq.mp hc, ih]
        simp [value, Nat.ofDigitChars_cons]
      · rfl

/-- Stripping zeros keeps the value. -/
@[simp] theorem value_stripZeros : value (stripZeros cs) = value cs := by
  rw [← value_dropWhile_zero cs]
  unfold stripZeros
  split
  · next h => rw [h]; rfl
  · rfl

/-- The digits of both parts, with the exponent as zeros behind them or
as a power of ten under them, make the number written. -/
theorem scaled_eq_value (m : Match) {digits : List Char} {scale shift : Nat}
    (hdigits : value digits = value (m.integer ++ m.decimal.getD []))
    (hscale : (shift : Int) - scale
      = exponentValue (m.exponent.getD ['0']) - (m.decimal.getD []).length) :
    ((value (digits ++ List.replicate shift '0') : Nat) : ℚ) / 10 ^ scale
      = m.value := by
  have hten : (10 : ℚ) ≠ 0 := by norm_num
  have hzeros : value (List.replicate shift '0') = 0 := by
    have hpad : value (List.rightpad shift '0' []) = value [] * 10 ^ (shift - 0) :=
      value_rightpad
    simpa [List.rightpad] using hpad
  have hexp : exponentValue (m.exponent.getD ['0'])
      = (shift : Int) - scale + (m.decimal.getD []).length := by omega
  unfold Match.value fixedValue
  rw [value_append, List.length_replicate, hzeros, hdigits, value_append, hexp,
    zpow_add₀ hten, zpow_sub₀ hten, zpow_natCast, zpow_natCast, zpow_natCast]
  push_cast
  field_simp
  ring

end Decimal
