/-
Money on the wire: cents as canonical integer texts, and amounts as
decimal texts.

`Domain/Money` works on the integers; here are the texts that the
functions of `money.ts` take and return, and the two codecs of
`validation.ts` for decimal amounts. `addMoneyCents_text` and
`subtractMoneyCents_text` say that on texts of cents the two agree.
-/
import Skrynia.Common.Text
import Skrynia.Lib.Decimal
import Skrynia.Orders.Accounting

namespace Skrynia

/-- A JavaScript number: its value where it is integral, and how a
template literal prints it. -/
structure MoneyNumber where
  integer : Option Int
  text : String

/-- `Number.MAX_SAFE_INTEGER`. -/
def maxSafeInteger : Nat := 9007199254740991

/-- `Number.isSafeInteger`, with the integer. -/
def MoneyNumber.safeInteger (n : MoneyNumber) : Option Int :=
  n.integer.filter fun v => v.natAbs ≤ maxSafeInteger

/-- `bigint | string | number`. -/
inductive MoneyCentsInput where
  | bigint (value : Int)
  | text (value : String)
  | number (value : MoneyNumber)

namespace MoneyText

-- ============================================================== money.ts

/-- `assertPostgresBigintRange`. -/
def assertPostgresBigintRange (value : Int) : Except MoneyError Int :=
  if InBigintRange value then .ok value else .error .range

/-- The pattern is `^(?:0|-?[1-9]\d*)$`. -/
def parseMoneyCents (value : String) : Except MoneyError Int :=
  if Decimal.CanonicalInt value.toList then
    assertPostgresBigintRange (Decimal.intValue value.toList)
  else
    .error (.invalid ("Money cents must be a canonical integer string, got \""
      ++ value ++ "\""))

/-- `bigintToMoneyCents`: the canonical text of an amount. -/
def bigintToMoneyCents : MoneyCentsInput → Except MoneyError String
  | .number n =>
      match n.safeInteger with
      | none => .error (.invalid
          ("Money cents number must be a safe integer, got " ++ n.text))
      | some v => (assertPostgresBigintRange v).map toString
  | .bigint v => (assertPostgresBigintRange v).map toString
  | .text s => (parseMoneyCents s).map toString

/-- `parseMoneyCents(bigintToMoneyCents(…))`. -/
def centsOf (input : MoneyCentsInput) : Except MoneyError Int := do
  let text ← bigintToMoneyCents input
  parseMoneyCents text

/-- `addMoneyCents`. -/
def addMoneyCents (left right : MoneyCentsInput) :
    Except MoneyError String := do
  let l ← centsOf left
  let r ← centsOf right
  bigintToMoneyCents (.bigint (l + r))

/-- `subtractMoneyCents`. -/
def subtractMoneyCents (left right : MoneyCentsInput) :
    Except MoneyError String := do
  let l ← centsOf left
  let r ← centsOf right
  bigintToMoneyCents (.bigint (l - r))

-- ========================================================= validation.ts

/-- The first two parts of `split(".")`. -/
def splitAtDot (cs : List Char) : List Char × List Char :=
  (cs.takeWhile (· != '.'),
    ((cs.dropWhile (· != '.')).drop 1).takeWhile (· != '.'))

/-- `MONEY_PATTERN.test`: `^\d+(\.\d{1,2})?$`. -/
def moneyPattern (cs : List Char) : Bool :=
  (Decimal.matchFixed (· == '.') cs).isSome

/-- `moneyToCents`: a decimal amount, in cents. -/
def moneyToCents (value : String) : Except Failure String :=
  let trimmed := (jsTrim value).toList
  if moneyPattern trimmed then
    let parts := splitAtDot trimmed
    let cents := Decimal.hundredths parts.1 parts.2
    if postgresBigintMax < cents then
      .error (badRequest "Money amount too large")
    else (bigintToMoneyCents (.bigint cents)).mapError moneyError
  else .error (badRequest ("Invalid money amount: \"" ++ value ++ "\""))

/-- Sign, whole part, point and two digits. -/
def decimalText (value : Int) : String :=
  String.ofList ((if value < 0 then ['-'] else [])
    ++ Decimal.printFixed '.' value.natAbs)

/-- `centsToDecimalString`: cents, as a decimal amount. -/
def centsToDecimalString (cents : MoneyCentsInput) :
    Except MoneyError String := do
  let parsed ← centsOf cents
  return decimalText parsed

-- =================================================== canonical cents texts

variable {v x y c : Int} {s t : String} {l r : MoneyCentsInput}

/-- An amount in range is returned. -/
theorem assertPostgresBigintRange_eq_ok {w : Int} :
    assertPostgresBigintRange v = .ok w ↔ InBigintRange v ∧ w = v := by
  unfold assertPostgresBigintRange
  split
  · next h => simp [h, eq_comm]
  · next h => simp [h]

/-- Another is refused. -/
theorem assertPostgresBigintRange_eq_error {e : MoneyError} :
    assertPostgresBigintRange v = .error e ↔ ¬ InBigintRange v ∧ e = .range := by
  unfold assertPostgresBigintRange
  split
  · next h => simp [h]
  · next h => simp [h, eq_comm]

/-- What parses is a printed integer in range. -/
theorem parseMoneyCents_eq_ok :
    parseMoneyCents s = .ok v ↔ InBigintRange v ∧ s = toString v := by
  unfold parseMoneyCents
  constructor
  · intro h
    split at h
    · next hcanonical =>
      obtain ⟨hrange, rfl⟩ := assertPostgresBigintRange_eq_ok.mp h
      refine ⟨hrange, String.toList_inj.mp ?_⟩
      rw [Decimal.toList_toString, Decimal.canonicalInt_iff.mp hcanonical]
    · cases h
  · intro h
    obtain ⟨hrange, rfl⟩ := h
    rw [Decimal.toList_toString, Decimal.intValue_intDigits,
      if_pos (Decimal.canonicalInt_iff.mpr (by simp))]
    exact assertPostgresBigintRange_eq_ok.mpr ⟨hrange, rfl⟩

/-- The text of an amount in range is read as the amount. -/
@[simp] theorem parseMoneyCents_toString (h : InBigintRange v) :
    parseMoneyCents (toString v) = .ok v :=
  parseMoneyCents_eq_ok.mpr ⟨h, rfl⟩

/-- An amount in range is printed. -/
theorem bigintToMoneyCents_bigint (h : InBigintRange v) :
    bigintToMoneyCents (.bigint v) = .ok (toString v) := by
  rw [bigintToMoneyCents, assertPostgresBigintRange_eq_ok.mpr ⟨h, rfl⟩]
  rfl

/-- Another is refused. -/
theorem bigintToMoneyCents_bigint_range (h : ¬ InBigintRange v) :
    bigintToMoneyCents (.bigint v) = .error .range := by
  rw [bigintToMoneyCents, assertPostgresBigintRange_eq_error.mpr ⟨h, rfl⟩]
  rfl

/-- Whatever goes in, what comes out is a printed integer in range. -/
theorem bigintToMoneyCents_eq_ok (h : bigintToMoneyCents l = .ok t) :
    ∃ v, InBigintRange v ∧ t = toString v := by
  have key : ∀ x : Except MoneyError Int,
      (∀ w, x = .ok w → InBigintRange w) → x.map toString = .ok t →
      ∃ v, InBigintRange v ∧ t = toString v := by
    intro x hx h
    cases x with
    | error e => cases h
    | ok w =>
        cases h
        exact ⟨w, hx w rfl, rfl⟩
  have hassert : ∀ v w, assertPostgresBigintRange v = .ok w →
      InBigintRange w := by
    intro v w hw
    obtain ⟨hrange, rfl⟩ := assertPostgresBigintRange_eq_ok.mp hw
    exact hrange
  cases l with
  | bigint v => exact key _ (hassert v) h
  | text s => exact key _ (fun w hw => (parseMoneyCents_eq_ok.mp hw).1) h
  | number n =>
      simp only [bigintToMoneyCents] at h
      cases hn : n.safeInteger with
      | none =>
          rw [hn] at h
          cases h
      | some v =>
          rw [hn] at h
          exact key _ (hassert v) h

/-- An input that is read is printed as what it is read as. -/
theorem centsOf_eq_ok :
    centsOf l = .ok v ↔ bigintToMoneyCents l = .ok (toString v)
      ∧ InBigintRange v := by
  unfold centsOf
  cases h : bigintToMoneyCents l with
  | error e =>
      constructor
      · intro h
        cases h
      · intro h'
        obtain ⟨h, -⟩ := h'
        cases h
  | ok t =>
      obtain ⟨w, hw, rfl⟩ := bigintToMoneyCents_eq_ok h
      show parseMoneyCents (toString w) = .ok v ↔ _
      rw [parseMoneyCents_toString hw]
      constructor
      · intro h
        cases h
        exact ⟨rfl, hw⟩
      · intro h'
        obtain ⟨h, hv⟩ := h'
        have heq : toString w = toString v := Except.ok.inj h
        have := parseMoneyCents_toString hw
        rw [heq, parseMoneyCents_toString hv] at this
        exact this.symm

/-- An amount in range is itself. -/
theorem centsOf_bigint (h : InBigintRange v) : centsOf (.bigint v) = .ok v :=
  centsOf_eq_ok.mpr ⟨bigintToMoneyCents_bigint h, h⟩

-- ====================================================== exact arithmetic

/-- Amounts are added, if the sum is in range. -/
theorem addMoneyCents_eq (hl : centsOf l = .ok x) (hr : centsOf r = .ok y) :
    addMoneyCents l r
      = if InBigintRange (x + y) then .ok (toString (x + y))
        else .error .range := by
  unfold addMoneyCents
  rw [hl, hr]
  show bigintToMoneyCents (.bigint (x + y)) = _
  split
  · next h => exact bigintToMoneyCents_bigint h
  · next h => exact bigintToMoneyCents_bigint_range h

/-- Amounts are subtracted, if the difference is. -/
theorem subtractMoneyCents_eq (hl : centsOf l = .ok x)
    (hr : centsOf r = .ok y) :
    subtractMoneyCents l r
      = if InBigintRange (x - y) then .ok (toString (x - y))
        else .error .range := by
  unfold subtractMoneyCents
  rw [hl, hr]
  show bigintToMoneyCents (.bigint (x - y)) = _
  split
  · next h => exact bigintToMoneyCents_bigint h
  · next h => exact bigintToMoneyCents_bigint_range h

/-- The arithmetic on cents is that on their texts. -/
theorem addMoneyCents_text (m n : MoneyCents) :
    addMoneyCents (.bigint m.val) (.bigint n.val)
      = (Skrynia.addMoneyCents m n).map fun c => toString c.val := by
  rw [addMoneyCents_eq (centsOf_bigint m.inRange) (centsOf_bigint n.inRange)]
  unfold Skrynia.addMoneyCents Skrynia.bigintToMoneyCents
  by_cases h : InBigintRange (m.val + n.val)
  · rw [if_pos h, dif_pos h]
    rfl
  · rw [if_neg h, dif_neg h]
    rfl

/-- On texts of cents a subtraction is that of the integers. -/
theorem subtractMoneyCents_text (m n : MoneyCents) :
    subtractMoneyCents (.bigint m.val) (.bigint n.val)
      = (Skrynia.subtractMoneyCents m n).map fun c => toString c.val := by
  rw [subtractMoneyCents_eq (centsOf_bigint m.inRange)
    (centsOf_bigint n.inRange)]
  unfold Skrynia.subtractMoneyCents Skrynia.bigintToMoneyCents
  by_cases h : InBigintRange (m.val - n.val)
  · rw [if_pos h, dif_pos h]
    rfl
  · rw [if_neg h, dif_neg h]
    rfl

-- ======================================================= decimal amounts

/-- The separator is no digit. -/
theorem dot_not_digit (c : Char) (h : (c == '.') = true) :
    c.isDigit = false := by
  rw [beq_iff_eq.mp h]
  rfl

/-- The parts at the dot are the two numerals of the pattern. -/
theorem splitAtDot_of_fixed {cs w f : List Char}
    (h : Decimal.Fixed (· == '.') cs w f) : splitAtDot cs = (w, f) := by
  have hpart : ∀ ds : List Char, (∀ d ∈ ds, d.isDigit = true) →
      ∀ d ∈ ds, (d != '.') = true := by
    intro ds hds d hd
    rw [bne_iff_ne]
    intro heq
    subst heq
    exact absurd (hds _ hd) (by decide)
  have hall : ∀ ds : List Char, (∀ d ∈ ds, d.isDigit = true) →
      ds.takeWhile (· != '.') = ds ∧ ds.dropWhile (· != '.') = [] :=
    fun ds hds => ⟨List.takeWhile_eq_self_iff.mpr (hpart ds hds),
      List.dropWhile_eq_nil_iff.mpr (hpart ds hds)⟩
  unfold splitAtDot
  cases h with
  | whole hw =>
      rw [(hall _ hw.2).1, (hall _ hw.2).2]
      rfl
  | fraction hw hc hf _ =>
      rw [beq_iff_eq.mp hc, List.takeWhile_append_of_pos (hpart w hw.2),
        List.dropWhile_append_of_pos (hpart w hw.2)]
      simp [(hall f hf.2).1]

/-- Digits with an optional one- or two-digit fraction, and the value. -/
def DecimalAmount (sep : Char → Bool) (cs : List Char) (q : ℚ) : Prop :=
  ∃ w f, Decimal.Fixed sep cs w f ∧ q = Decimal.fixedValue w f

/-- A decimal amount is read as its hundredths, if they are in range. -/
theorem moneyToCents_of_fixed {w f : List Char}
    (h : Decimal.Fixed (· == '.') (jsTrim s).toList w f) :
    moneyToCents s
      = if postgresBigintMax < (Decimal.hundredths w f : Int) then
          .error (badRequest "Money amount too large")
        else .ok (toString (Decimal.hundredths w f : Int)) := by
  have hmatch := (Decimal.matchFixed_eq_some dot_not_digit).mpr h
  unfold moneyToCents moneyPattern
  simp only [hmatch, Option.isSome_some, if_true, splitAtDot_of_fixed h]
  split
  · rfl
  · next hle =>
    have hrange : InBigintRange (Decimal.hundredths w f : Int) := by
      unfold InBigintRange postgresBigintMin
      omega
    rw [bigintToMoneyCents_bigint hrange]
    rfl

/-- The backend reads the decimal amounts up to the bigint maximum. -/
theorem moneyToCents_eq_ok :
    moneyToCents s = .ok t ↔ ∃ q, DecimalAmount (· == '.') (jsTrim s).toList q
      ∧ ∃ c : Int, (c : ℚ) = 100 * q ∧ c ≤ postgresBigintMax
        ∧ t = toString c := by
  constructor
  · intro h
    cases hmatch : Decimal.matchFixed (· == '.') (jsTrim s).toList with
    | none =>
        simp [moneyToCents, moneyPattern, hmatch] at h
    | some p =>
        obtain ⟨w, f⟩ := p
        have hfixed := (Decimal.matchFixed_eq_some dot_not_digit).mp hmatch
        rw [moneyToCents_of_fixed hfixed] at h
        refine ⟨_, ⟨w, f, hfixed, rfl⟩, Decimal.hundredths w f, ?_, ?_⟩
        · exact_mod_cast Decimal.hundredths_eq hfixed.length_le
        · split at h
          · cases h
          · next hle =>
            exact ⟨by omega, (Except.ok.inj h).symm⟩
  · intro h
    obtain ⟨_, ⟨w, f, hfixed, rfl⟩, c, hc, hle, rfl⟩ := h
    have heq : (Decimal.hundredths w f : Int) = c := by
      rw [← Decimal.hundredths_eq hfixed.length_le] at hc
      exact_mod_cast hc.symm
    rw [moneyToCents_of_fixed hfixed, heq, if_neg (by omega)]

/-- A decimal amount is a text of cents, or a bad request: the range check
of the cents never throws. -/
theorem moneyToCents_cases (s : String) :
    (∃ c, InBigintRange c ∧ moneyToCents s = .ok (toString c))
      ∨ ∃ message, moneyToCents s = .error (badRequest message) := by
  cases hmatch : Decimal.matchFixed (· == '.') (jsTrim s).toList with
  | none =>
      refine Or.inr ⟨"Invalid money amount: \"" ++ s ++ "\"", ?_⟩
      simp only [moneyToCents, moneyPattern, hmatch]
      rfl
  | some p =>
      rw [moneyToCents_of_fixed
        ((Decimal.matchFixed_eq_some dot_not_digit).mp hmatch)]
      split
      · exact Or.inr ⟨_, rfl⟩
      · next hle =>
        refine Or.inl ⟨_, ?_, rfl⟩
        unfold InBigintRange postgresBigintMin
        omega

/-- What a `bigint` column or parameter takes from a decimal amount: the
integer that PostgreSQL reads from the text of `moneyToCents`. -/
def moneyColumn (value : String) : Except Failure MoneyCents := do
  let text ← moneyToCents value
  let cents ← (parseMoneyCents text).mapError moneyError
  (Skrynia.bigintToMoneyCents cents).mapError moneyError

/-- The text of a column's amount is read back. -/
theorem moneyColumn_of_ok {m : MoneyCents}
    (h : moneyToCents s = .ok (toString m.val)) : moneyColumn s = .ok m := by
  unfold moneyColumn
  rw [h]
  show (parseMoneyCents (toString m.val)).mapError moneyError >>= _ = _
  rw [parseMoneyCents_toString m.inRange]
  show (Skrynia.bigintToMoneyCents m.val).mapError moneyError = _
  rw [Skrynia.bigintToMoneyCents_eq_ok.mpr rfl]
  rfl

/-- An amount that is refused is refused for the column. -/
theorem moneyColumn_of_error {e : Failure} (h : moneyToCents s = .error e) :
    moneyColumn s = .error e := by
  unfold moneyColumn
  rw [h]
  rfl

/-- The column holds the cents of the text, all of which fit into it. -/
theorem moneyColumn_eq_ok {m : MoneyCents} :
    moneyColumn s = .ok m ↔ moneyToCents s = .ok (toString m.val) := by
  refine ⟨fun h => ?_, moneyColumn_of_ok⟩
  rcases moneyToCents_cases s with ⟨c, hc, hok⟩ | ⟨message, herror⟩
  · have hcolumn : moneyColumn s = .ok ⟨c, hc⟩ := moneyColumn_of_ok hok
    rw [h] at hcolumn
    cases hcolumn
    exact hok
  · rw [moneyColumn_of_error herror] at h
    cases h

/-- What the column does not take is a bad request. -/
theorem moneyColumn_error {e : Failure} (h : moneyColumn s = .error e) :
    ∃ message, e = badRequest message := by
  rcases moneyToCents_cases s with ⟨c, hc, hok⟩ | ⟨message, herror⟩
  · rw [moneyColumn_of_ok (m := ⟨c, hc⟩) hok] at h
    cases h
  · rw [moneyColumn_of_error herror] at h
    cases h
    exact ⟨message, rfl⟩

-- =========================================================== the printers

/-- A printed amount has no white space, and none to trim. -/
theorem decimalText_toList (v : Int) :
    (jsTrim (decimalText v)).toList
      = (if v < 0 then ['-'] else []) ++ Decimal.printFixed '.' v.natAbs := by
  have hspace : ∀ d : Char, d.isDigit = true ∨ d = '.' ∨ d = '-' →
      isJsSpace d = false := by
    intro d h
    rcases h with hd | rfl | rfl
    · have hrange := Char.isDigit_iff_toNat.mp hd
      simp at hrange
      unfold isJsSpace
      simp
      omega
    · rfl
    · rfl
  rw [jsTrim_of_forall, decimalText, String.toList_ofList]
  intro d hd
  apply hspace
  rw [decimalText, String.toList_ofList, List.mem_append] at hd
  rcases hd with hd | hd
  · split at hd
    · exact .inr (.inr (List.mem_singleton.mp hd))
    · cases hd
  · rcases List.mem_append.mp hd with hd | hd
    · exact .inl (Decimal.isNumeral_toDigits.2 d hd)
    · rcases List.mem_cons.mp hd with rfl | hd
      · exact .inr (.inl rfl)
      · exact .inl ((Decimal.isNumeral_leftpad
          Decimal.isNumeral_toDigits).2 d hd)

/-- What is printed has two decimal places. -/
theorem fixed_decimalText {sep : Char → Bool} (hdot : sep '.' = true)
    (h : 0 ≤ x) :
    Decimal.Fixed sep (jsTrim (decimalText x)).toList
      (Nat.toDigits 10 (x.natAbs / 100))
      ((Nat.toDigits 10 (x.natAbs % 100)).leftpad 2 '0') := by
  rw [decimalText_toList, if_neg (by omega), List.nil_append]
  exact Decimal.fixed_printFixed hdot

/-- Cents that are printed are read back. -/
theorem moneyToCents_decimalText (h : 0 ≤ c) (hmax : c ≤ postgresBigintMax) :
    moneyToCents (decimalText c) = .ok (toString c) := by
  rw [moneyToCents_of_fixed (fixed_decimalText rfl h),
    Decimal.hundredths_printFixed]
  have habs : (c.natAbs : Int) = c := by omega
  rw [habs, if_neg (by omega)]

end MoneyText

end Skrynia
