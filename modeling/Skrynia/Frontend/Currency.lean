/-
The browser's display currency: exchange rates read from texts, cents
converted at them, and the text that a price shows.

A rate is an exact decimal, an integer over a power of ten
(`ScaledRate.toUah`). `parseScaledRate` reads one from a text and answers
value zero where it does not, which leaves the rate that was there
(`parseCurrencyRates_skip`). `convertCents` divides once, in integers, and
is the rounding of the exact quotient of the two rates (`rounds_convert`).
`formatMoney` writes the integer it gets, and `centsShown` reads that
integer back from the text.

`Intl.NumberFormat` is not part of the sources. It is a parameter, and
`Intl.Exact` is what is used of it: an integer is formatted by its own
digits in order, whatever stands between them, and the decimal separator
has no digit.
-/
import Skrynia.Frontend.Money
import Skrynia.Lib.Rounding
import Skrynia.Lib.Scientific

namespace Skrynia

namespace Currency

-- ============================================================ currency.tsx

/-- `CurrencyCode`. -/
inductive CurrencyCode where
  | UAH
  | USD
  | EUR
  deriving DecidableEq

/-- `isCurrencyCode`, with the code. -/
def CurrencyCode.parse : String → Option CurrencyCode
  | "UAH" => some .UAH
  | "USD" => some .USD
  | "EUR" => some .EUR
  | _ => none

/-- `CURRENCY_SYMBOLS`. -/
def CurrencyCode.symbol : CurrencyCode → Char
  | .UAH => '₴'
  | .USD => '$'
  | .EUR => '€'

/-- `value / 10 ** scale` hryvnias for one unit of the currency. -/
structure ScaledRate where
  value : Int
  scale : Nat
  deriving DecidableEq

/-- A record with a rate for every code. -/
abbrev CurrencyRates := CurrencyCode → ScaledRate

/-- `number | string`: a number is finite or not, and has a text. -/
inductive RateInput where
  | number (isFinite : Bool) (text : String)
  | string (text : String)

/-- `String(input)`. -/
def RateInput.text : RateInput → String
  | .number _ text => text
  | .string text => text

/-- An entry of the response, by the two fields that are read. -/
structure CurrencyRate where
  code : String
  rateToUah : RateInput

/-- `MAX_RATE_TEXT_LENGTH`, in code units. -/
def maxRateTextLength : Nat := 96

/-- `MAX_RATE_DIGITS`: of the coefficient. -/
def maxRateDigits : Nat := 36

/-- `MAX_RATE_SCALE`. -/
def maxRateScale : Nat := 18

/-- `MAX_RATE_EXPONENT`. -/
def maxRateExponent : Nat := 36

/-- What a text that is no rate is read as. -/
def noRate : ScaledRate := ⟨0, 0⟩

/-- `defaultRates`: hryvnias are worth themselves. -/
def defaultRates : CurrencyRates
  | .UAH => ⟨1, 0⟩
  | .USD => noRate
  | .EUR => noRate

/-- The scale and the digits of a matched text, where both are within the
limits. -/
def scaleMatch (m : Decimal.Match) : ScaledRate :=
  let decimal := m.decimal.getD []
  let exponent := m.exponent.getD ['0']
  if maxRateDigits < m.integer.length + decimal.length ∨ 3 < exponent.length then
    noRate
  else
    let digits := Decimal.stripZeros (m.integer ++ decimal)
    let exponentNumber := Decimal.exponentValue exponent
    if maxSafeInteger < exponentNumber.natAbs
        ∨ maxRateExponent < exponentNumber.natAbs then noRate
    else
      let scale := (max 0 ((decimal.length : Int) - exponentNumber)).toNat
      let shift := (max 0 (exponentNumber - decimal.length)).toNat
      if maxRateScale < scale ∨ maxRateDigits < digits.length + shift then noRate
      else
        let value := Decimal.value (digits ++ List.replicate shift '0')
        if 0 < value then ⟨value, scale⟩ else noRate

/-- `parseScaledRate`: an exact positive decimal, or no rate. -/
def parseScaledRate (input : RateInput) : ScaledRate :=
  match input with
  | .number false _ => noRate
  | _ =>
      let text := jsTrim input.text
      if text = "" ∨ maxRateTextLength < utf16Length text then noRate
      else match Decimal.matchScientific text.toList with
        | none => noRate
        | some m => scaleMatch m

/-- One turn of the loop; an entry may be missing. -/
def readRate (next : CurrencyRates) (rate : Option CurrencyRate) :
    CurrencyRates :=
  match rate with
  | none => next
  | some rate =>
      match CurrencyCode.parse rate.code with
      | none => next
      | some code =>
          let parsed := parseScaledRate rate.rateToUah
          if 0 < parsed.value then Function.update next code parsed else next

/-- `parseCurrencyRates`: one entry after the other. -/
def parseCurrencyRates (rateDetails : List (Option CurrencyRate)) :
    CurrencyRates :=
  rateDetails.foldl readRate defaultRates

/-- Division by zero throws, as it does on `bigint`. -/
def roundDiv (numerator denominator : Int) : Except String Int :=
  let negative := decide (numerator < 0) != decide (denominator < 0)
  let top := if numerator < 0 then -numerator else numerator
  let bottom := if denominator < 0 then -denominator else denominator
  if bottom = 0 then .error "Division by zero"
  else
    let rounded := (top + bottom.tdiv 2).tdiv bottom
    .ok (if negative then -rounded else rounded)

/-- `convertCents`: without both rates the cents are taken as they are. -/
def convertCents (cents : MoneyCentsInput) (source target : CurrencyCode)
    (rates : CurrencyRates) : Except String Int :=
  let sourceRate := rates source
  let targetRate := rates target
  if sourceRate.value ≤ 0 ∨ targetRate.value ≤ 0 then
    Frontend.moneyCentsToBigInt cents
  else do
    let c ← Frontend.moneyCentsToBigInt cents
    roundDiv (c * sourceRate.value * 10 ^ targetRate.scale)
      (targetRate.value * 10 ^ sourceRate.scale)

/-- `canConvert`. -/
def canConvert (source target : CurrencyCode) (rates : CurrencyRates) : Bool :=
  source = target ∨ (0 < (rates source).value ∧ 0 < (rates target).value)

-- ======================================================== locale-format.ts

/-- The locales of `localeToIntl`. -/
inductive IntlLocale where
  | ukUA
  | ruRU
  | enUS

/-- `localeToIntl`, and the default locale's where there is none. -/
def resolveIntlLocale : String → IntlLocale
  | "ua" => .ukUA
  | "ru" => .ruRU
  | "en" => .enUS
  | _ => .ukUA

/-- A part of `formatToParts`. -/
structure NumberFormatPart where
  type : String
  value : String

/-- `Intl.NumberFormat`: `formatNumber` is of a `bigint` with
`maximumFractionDigits: 0`. -/
structure Intl where
  formatNumber : IntlLocale → Int → String
  formatNumberToParts : IntlLocale → ℚ → List NumberFormatPart

/-- `find((part) => part.type === "decimal")?.value ?? "."`. -/
def Intl.decimal (intl : Intl) (locale : IntlLocale) : String :=
  ((intl.formatNumberToParts locale 1.1).find? (·.type = "decimal")).elim "."
    NumberFormatPart.value

-- ================================================================ formatMoney

/-- What `formatMoney` is called with. -/
structure FormatInput where
  cents : MoneyCentsInput
  sourceCurrency : String
  displayCurrency : CurrencyCode
  rates : CurrencyRates
  locale : String

/-- A currency that is not known is taken for hryvnias. -/
def FormatInput.source (input : FormatInput) : CurrencyCode :=
  (CurrencyCode.parse input.sourceCurrency).getD .UAH

/-- Where there is no rate, the source's own currency is shown. -/
def FormatInput.effectiveDisplay (input : FormatInput) : CurrencyCode :=
  if canConvert input.source input.displayCurrency input.rates then
    input.displayCurrency
  else input.source

/-- The text of an amount that is settled. -/
def moneyText (intl : Intl) (locale : IntlLocale) (code : CurrencyCode)
    (converted : Int) : String :=
  let sign := if converted < 0 then "-" else ""
  let absolute := if converted < 0 then -converted else converted
  let whole := absolute.tdiv 100
  let fraction := (toString (absolute.tmod 100)).toList.leftpad 2 '0'
  sign ++ intl.formatNumber locale whole ++ intl.decimal locale
    ++ String.ofList (fraction ++ [' ', code.symbol])

/-- `formatMoney`. -/
def formatMoney (intl : Intl) (input : FormatInput) : Except String String := do
  let converted ←
    if input.source = input.effectiveDisplay then
      Frontend.moneyCentsToBigInt input.cents
    else
      convertCents input.cents input.source input.effectiveDisplay input.rates
  return moneyText intl (resolveIntlLocale input.locale) input.effectiveDisplay
    converted

-- ===================================================================== rates

variable {input : RateInput} {rates : CurrencyRates}
  {source target code : CurrencyCode}

/-- The exact rate. -/
def ScaledRate.toUah (rate : ScaledRate) : ℚ :=
  rate.value / 10 ^ rate.scale

/-- What a text was read as: nothing, or the decimal number written. -/
def ReadAs (text : List Char) (rate : ScaledRate) : Prop :=
  rate = noRate ∨ 0 < rate.value
    ∧ ∃ m, Decimal.Scientific text m ∧ rate.toUah = m.value

/-- A match is scaled to its value, or is no rate. -/
theorem scaleMatch_cases (m : Decimal.Match) :
    scaleMatch m = noRate
      ∨ 0 < (scaleMatch m).value ∧ (scaleMatch m).toUah = m.value := by
  unfold scaleMatch
  simp only
  split
  · exact .inl rfl
  split
  · exact .inl rfl
  split
  · exact .inl rfl
  split
  · next hpos =>
    refine .inr ⟨Int.natCast_pos.mpr hpos, ?_⟩
    simp only [ScaledRate.toUah, Int.cast_natCast]
    apply Decimal.scaled_eq_value m Decimal.value_stripZeros
    omega
  · exact .inl rfl

/-- A rate is read as the value of its text, if at all. -/
theorem parseScaledRate_cases (input : RateInput) :
    ReadAs (jsTrim input.text).toList (parseScaledRate input) := by
  unfold parseScaledRate
  split
  · exact .inl rfl
  · simp only
    split
    · exact .inl rfl
    · split
      · exact .inl rfl
      · next m hm =>
        refine (scaleMatch_cases m).imp id fun h => ⟨h.1, m, ?_, h.2⟩
        exact Decimal.matchScientific_eq_some.mp hm

/-- What an entry sets the rate of `code` to, if anything. -/
def rateFor (code : CurrencyCode) (rate : Option CurrencyRate) :
    Option ScaledRate := do
  let rate ← rate
  guard (CurrencyCode.parse rate.code = some code)
  let parsed := parseScaledRate rate.rateToUah
  guard (0 < parsed.value)
  return parsed

/-- An entry sets the rate of its own code, if it has one. -/
theorem readRate_apply (next : CurrencyRates) (rate : Option CurrencyRate)
    (code : CurrencyCode) :
    readRate next rate code = (rateFor code rate).getD (next code) := by
  cases rate with
  | none => rfl
  | some rate =>
      cases hcode : CurrencyCode.parse rate.code with
      | none => simp [readRate, rateFor, hcode, guard]
      | some c =>
          by_cases hpos : 0 < (parseScaledRate rate.rateToUah).value
          · by_cases hc : c = code
            · subst hc
              simp [readRate, rateFor, hcode, hpos, guard]
            · simp [readRate, rateFor, hcode, hpos, hc, guard,
                Function.update_of_ne (Ne.symm hc)]
          · by_cases hc : c = code <;>
              simp [readRate, rateFor, hcode, hpos, hc, guard]

/-- The last entry that sets a rate is the one that stays. -/
theorem parseCurrencyRates_apply (rateDetails : List (Option CurrencyRate))
    (code : CurrencyCode) :
    parseCurrencyRates rateDetails code
      = (rateDetails.filterMap (rateFor code)).getLast?.getD
          (defaultRates code) := by
  unfold parseCurrencyRates
  induction rateDetails using List.reverseRecOn with
  | nil => rfl
  | append_singleton rateDetails rate ih =>
      rw [List.foldl_append, List.foldl_cons, List.foldl_nil, readRate_apply, ih,
        List.filterMap_append, List.filterMap_cons, List.filterMap_nil]
      cases rateFor code rate <;> simp

/-- An entry whose rate was not read leaves every rate as it was. -/
theorem parseCurrencyRates_skip (before after : List (Option CurrencyRate))
    {rate : CurrencyRate} (h : (parseScaledRate rate.rateToUah).value = 0) :
    parseCurrencyRates (before ++ some rate :: after)
      = parseCurrencyRates (before ++ after) := by
  have hnone : ∀ code, rateFor code (some rate) = none := by
    intro code
    simp [rateFor, h, guard]
  funext code
  rw [parseCurrencyRates_apply, parseCurrencyRates_apply, List.filterMap_append,
    List.filterMap_append, List.filterMap_cons, hnone]

-- ================================================================ conversion

/-- The one division of a conversion. -/
def convert (rates : CurrencyRates) (source target : CurrencyCode) (c : Int) :
    Int :=
  Rounding.divAway (c * (rates source).value * 10 ^ (rates target).scale)
    ((rates target).value * 10 ^ (rates source).scale)

/-- Both currencies have a positive rate. -/
def Convertible (rates : CurrencyRates) (source target : CurrencyCode) : Prop :=
  0 < (rates source).value ∧ 0 < (rates target).value

instance : Decidable (Convertible rates source target) :=
  inferInstanceAs (Decidable (_ ∧ _))

/-- The magnitude of an integer. -/
theorem abs_natAbs (x : Int) : (if x < 0 then -x else x) = (x.natAbs : Int) := by
  split <;> omega

/-- The division rounds halves away from zero. -/
theorem roundDiv_eq {numerator denominator : Int} (h : denominator ≠ 0) :
    roundDiv numerator denominator
      = .ok (Rounding.divAway numerator denominator) := by
  have hne : (denominator.natAbs : Int) ≠ 0 := by omega
  have hdiv : ((numerator.natAbs : Int) + (denominator.natAbs : Int).tdiv 2).tdiv
        denominator.natAbs
      = (Rounding.divHalfUp numerator.natAbs denominator.natAbs : Nat) := by
    have hhalf : (denominator.natAbs : Int).tdiv 2 = denominator.natAbs / 2 :=
      Int.tdiv_eq_ediv_of_nonneg (by omega)
    rw [hhalf, Int.tdiv_eq_ediv_of_nonneg (by omega)]
    rfl
  unfold roundDiv
  simp only [abs_natAbs, if_neg hne, hdiv]
  rfl

/-- With both rates the cents are converted at them. -/
theorem convertCents_eq (h : Convertible rates source target)
    (cents : MoneyCentsInput) :
    convertCents cents source target rates
      = (Frontend.moneyCentsToBigInt cents).map (convert rates source target) := by
  have hne : (rates target).value * 10 ^ (rates source).scale ≠ 0 :=
    mul_ne_zero h.2.ne' (pow_ne_zero _ (by norm_num))
  unfold convertCents
  rw [if_neg (by simpa [Convertible] using h)]
  cases Frontend.moneyCentsToBigInt cents with
  | error e => rfl
  | ok c => exact roundDiv_eq hne

/-- The quotient that is rounded is the exact one of the two rates. -/
theorem rounds_convert (h : Convertible rates source target) (c : Int) :
    Rounding.Rounds (c * (rates source).toUah / (rates target).toUah)
      (convert rates source target c) := by
  have hpow : ∀ k : Nat, (10 : ℚ) ^ k ≠ 0 := fun k => pow_ne_zero k (by norm_num)
  have hvalue : ((rates target).value : ℚ) ≠ 0 := by exact_mod_cast h.2.ne'
  have hne : (rates target).value * 10 ^ (rates source).scale ≠ 0 :=
    mul_ne_zero h.2.ne' (pow_ne_zero _ (by norm_num))
  have hquotient : (c * (rates source).toUah / (rates target).toUah : ℚ)
      = ((c * (rates source).value * 10 ^ (rates target).scale : Int) : ℚ)
        / ((rates target).value * 10 ^ (rates source).scale : Int) := by
    have hs := hpow (rates source).scale
    have ht := hpow (rates target).scale
    unfold ScaledRate.toUah
    push_cast
    field_simp
  rw [hquotient]
  exact Rounding.rounds_divAway hne

/-- A negative amount is converted as its magnitude is. -/
theorem convert_neg (h : Convertible rates source target) (c : Int) :
    convert rates source target (-c) = -convert rates source target c := by
  have hneg := (rounds_convert h c).neg
  refine (rounds_convert h (-c)).unique ?_
  rwa [Int.cast_neg, neg_mul, neg_div]

/-- A larger amount is not converted to a smaller one. -/
theorem convert_mono (h : Convertible rates source target) {c d : Int} (hcd : c ≤ d) :
    convert rates source target c ≤ convert rates source target d := by
  have hrate : ∀ {code}, 0 < (rates code).value → (0 : ℚ) < (rates code).toUah := by
    intro code hpos
    have : (0 : ℚ) < (rates code).value := by exact_mod_cast hpos
    exact div_pos this (pow_pos (by norm_num) _)
  refine (rounds_convert h c).mono ?_ (rounds_convert h d)
  have hcd' : (c : ℚ) ≤ d := by exact_mod_cast hcd
  exact div_le_div_of_nonneg_right
    (mul_le_mul_of_nonneg_right hcd' (hrate h.1).le) (hrate h.2).le

/-- A currency is not converted to itself, and would not change if it
were. -/
theorem convert_self (h : Convertible rates code code) (c : Int) :
    convert rates code code c = c := by
  have hne : (rates code).toUah ≠ 0 := by
    have : ((rates code).value : ℚ) ≠ 0 := by exact_mod_cast h.1.ne'
    exact div_ne_zero this (pow_ne_zero _ (by norm_num))
  have hrounds := rounds_convert h c
  rw [mul_div_cancel_right₀ _ hne] at hrounds
  exact hrounds.unique (Rounding.rounds_intCast c)

-- ============================================================ printed amounts

/-- What is used of `Intl.NumberFormat`: an integer that is not negative
is formatted by its digits in order, with no minus sign, and a decimal
separator has no digit. -/
structure Intl.Exact (intl : Intl) : Prop where
  digits : ∀ locale (n : Nat),
    (intl.formatNumber locale n).toList.filter Char.isDigit = Nat.toDigits 10 n
  unsigned : ∀ locale (n : Nat), '-' ∉ (intl.formatNumber locale n).toList
  separator : ∀ locale, ∀ part ∈ intl.formatNumberToParts locale 1.1,
    part.type = "decimal" → part.value.toList.filter Char.isDigit = []

/-- The number of cents that a text shows, by its digits and its sign. -/
def centsShown (text : String) : Int :=
  let digits : Int := Decimal.value (text.toList.filter Char.isDigit)
  if text.toList.head? = some '-' then -digits else digits

/-- The parts of a printed amount: sign, whole part, separator, two
digits of fraction and the currency's symbol. -/
structure Prints (text : String) (code : CurrencyCode) (x : Int)
    (whole separator fraction : List Char) : Prop where
  layout : text.toList = (if x < 0 then ['-'] else []) ++ whole ++ separator
    ++ fraction ++ [' ', code.symbol]
  wholeDigits : whole.filter Char.isDigit = Nat.toDigits 10 (x.natAbs / 100)
  unsigned : '-' ∉ whole
  noDigit : separator.filter Char.isDigit = []
  digits : ∀ c ∈ fraction, c.isDigit = true
  two : fraction.length = 2
  hundredths : Decimal.value fraction = x.natAbs % 100

variable {intl : Intl} {locale : IntlLocale} {x c : Int} {text : String}
  {whole separator fraction : List Char}

/-- No currency symbol is a digit. -/
theorem symbol_not_digit (code : CurrencyCode) : code.symbol.isDigit = false := by
  cases code <;> rfl

/-- A printed amount is read back: its digits are the whole part's and
then the fraction's. -/
theorem Prints.centsShown_eq (h : Prints text code x whole separator fraction) :
    centsShown text = x := by
  have hdigits : text.toList.filter Char.isDigit
      = Nat.toDigits 10 (x.natAbs / 100) ++ fraction := by
    have hsign : (if x < 0 then ['-'] else []).filter Char.isDigit = [] := by
      split <;> rfl
    have hspace : Char.isDigit ' ' = false := rfl
    rw [h.layout]
    simp only [List.filter_append, hsign, h.wholeDigits, h.noDigit,
      List.filter_eq_self.mpr h.digits, List.filter_cons, List.filter_nil,
      symbol_not_digit, hspace, Bool.false_eq_true, if_false, List.nil_append,
      List.append_nil]
  have hvalue : Decimal.value (text.toList.filter Char.isDigit) = x.natAbs := by
    rw [hdigits, Decimal.value_append, Decimal.value_toDigits, h.two, h.hundredths]
    omega
  unfold centsShown
  simp only [hvalue]
  by_cases hx : x < 0
  · have hhead : text.toList.head? = some '-' := by
      rw [h.layout, if_pos hx]
      simp
    rw [if_pos hhead]
    omega
  · have hhead : text.toList.head? ≠ some '-' := by
      have hne : whole ≠ [] := by
        intro hnil
        have := h.wholeDigits
        rw [hnil] at this
        exact Nat.toDigits_ne_nil this.symm
      rw [h.layout, if_neg hx, List.nil_append, List.append_assoc,
        List.append_assoc, List.head?_append_of_ne_nil _ hne]
      exact fun hsome => h.unsigned (List.mem_of_mem_head? hsome)
    rw [if_neg hhead]
    omega

/-- The decimal separator has no digit. -/
theorem Intl.Exact.decimal (h : intl.Exact) (locale : IntlLocale) :
    (intl.decimal locale).toList.filter Char.isDigit = [] := by
  unfold Intl.decimal
  cases hfind : (intl.formatNumberToParts locale 1.1).find? (·.type = "decimal") with
  | none => decide
  | some part =>
      have htype : part.type = "decimal" := by simpa using List.find?_some hfind
      exact h.separator locale part (List.mem_of_find?_eq_some hfind) htype

/-- The text prints the integer: its whole part, a separator, and two
digits. -/
theorem moneyText_prints (h : intl.Exact) (locale : IntlLocale)
    (code : CurrencyCode) (x : Int) :
    ∃ whole separator fraction,
      Prints (moneyText intl locale code x) code x whole separator fraction := by
  have hwhole : (x.natAbs : Int).tdiv 100 = (x.natAbs / 100 : Nat) :=
    Int.tdiv_eq_ediv_of_nonneg (by omega)
  have hfraction : (toString ((x.natAbs : Int).tmod 100)).toList
      = Nat.toDigits 10 (x.natAbs % 100) := by
    have hmod : (x.natAbs : Int).tmod 100 = (x.natAbs % 100 : Nat) :=
      Int.tmod_eq_emod_of_nonneg (by omega)
    rw [hmod, Decimal.toList_toString, Decimal.intDigits, if_neg (by omega),
      Int.natAbs_natCast]
  refine ⟨(intl.formatNumber locale (x.natAbs / 100 : Nat)).toList,
    (intl.decimal locale).toList,
    (Nat.toDigits 10 (x.natAbs % 100)).leftpad 2 '0', ?_⟩
  exact {
    layout := by
      unfold moneyText
      simp only [abs_natAbs, hwhole, hfraction, String.toList_append,
        String.toList_ofList, List.append_assoc]
      split <;> simp
    wholeDigits := h.digits locale _
    unsigned := h.unsigned locale _
    noDigit := h.decimal locale
    digits := (Decimal.isNumeral_leftpad Decimal.isNumeral_toDigits).2
    two := Decimal.length_leftpad_mod
    hundredths := by rw [Decimal.value_leftpad, Decimal.value_toDigits] }

/-- A price can be shown in a currency that is its own or has a rate. -/
theorem canConvert_iff : canConvert source target rates = true
    ↔ source = target ∨ Convertible rates source target := by
  simp [canConvert, Convertible]

/-- Where both rates are there, the converted amount is shown. -/
theorem formatMoney_convertible {input : FormatInput}
    (h : Convertible input.rates input.source input.displayCurrency) :
    formatMoney intl input
      = (convertCents input.cents input.source input.displayCurrency
          input.rates).map
        (moneyText intl (resolveIntlLocale input.locale)
          input.displayCurrency) := by
  have hdisplay : input.effectiveDisplay = input.displayCurrency := by
    unfold FormatInput.effectiveDisplay
    rw [if_pos (canConvert_iff.mpr (.inr h))]
  have hconvert := convertCents_eq h input.cents
  unfold formatMoney
  rw [hdisplay, hconvert]
  by_cases hsame : input.source = input.displayCurrency
  · rw [if_pos hsame]
    rw [hsame] at h ⊢
    cases Frontend.moneyCentsToBigInt input.cents with
    | error e => rfl
    | ok c =>
        simp only [Except.map, convert_self h]
        rfl
  · rw [if_neg hsame]
    cases Frontend.moneyCentsToBigInt input.cents <;> rfl

/-- Where they are not, the amount itself is. -/
theorem formatMoney_source {input : FormatInput}
    (h : ¬ Convertible input.rates input.source input.displayCurrency) :
    formatMoney intl input
      = (Frontend.moneyCentsToBigInt input.cents).map
        (moneyText intl (resolveIntlLocale input.locale) input.source) := by
  have hdisplay : input.effectiveDisplay = input.source := by
    unfold FormatInput.effectiveDisplay
    by_cases hsame : input.source = input.displayCurrency
    · rw [← hsame, ite_self]
    · rw [if_neg fun hcan => (canConvert_iff.mp hcan).elim hsame h]
  unfold formatMoney
  rw [hdisplay, if_pos rfl]
  cases Frontend.moneyCentsToBigInt input.cents <;> rfl

/-- The amount and the currency that are to be shown for `c` cents. -/
def Shown (input : FormatInput) (c : Int) (code : CurrencyCode) (x : Int) :
    Prop :=
  if Convertible input.rates input.source input.displayCurrency then
    code = input.displayCurrency
      ∧ convertCents input.cents input.source input.displayCurrency input.rates
        = .ok x
  else code = input.source ∧ x = c

/-- A price that is shown is the cents given or their conversion, digit by
digit. -/
theorem formatMoney_prints (hintl : intl.Exact) {input : FormatInput}
    (hc : Frontend.moneyCentsToBigInt input.cents = .ok c) :
    ∃ code x text whole separator fraction, Shown input c code x
      ∧ formatMoney intl input = .ok text
      ∧ Prints text code x whole separator fraction := by
  by_cases h : Convertible input.rates input.source input.displayCurrency
  · have hconvert := convertCents_eq h input.cents
    rw [hc] at hconvert
    obtain ⟨whole, separator, fraction, hprints⟩ := moneyText_prints hintl
      (resolveIntlLocale input.locale) input.displayCurrency
      (convert input.rates input.source input.displayCurrency c)
    refine ⟨_, _, _, whole, separator, fraction, ?_, ?_, hprints⟩
    · rw [Shown, if_pos h]
      exact ⟨rfl, hconvert⟩
    · rw [formatMoney_convertible h, hconvert]
      rfl
  · obtain ⟨whole, separator, fraction, hprints⟩ := moneyText_prints hintl
      (resolveIntlLocale input.locale) input.source c
    refine ⟨_, _, _, whole, separator, fraction, ?_, ?_, hprints⟩
    · rw [Shown, if_neg h]
      exact ⟨rfl, rfl⟩
    · rw [formatMoney_source h, hc]
      rfl

-- ============================================================== the formatter

/-- Digits from the last to the first, with a separator after each three
that more digits follow. -/
def grouped (separator : Char) : List Char → List Char
  | c :: d :: e :: f :: cs => c :: d :: e :: separator :: grouped separator (f :: cs)
  | cs => cs

/-- Grouping adds no digit and loses none. -/
theorem filter_grouped {separator : Char} (hsep : separator.isDigit = false)
    {cs : List Char} (h : ∀ c ∈ cs, c.isDigit = true) :
    (grouped separator cs).filter Char.isDigit = cs := by
  fun_induction grouped separator cs with
  | case1 c d e f cs ih =>
      have htail := ih fun a ha => h a (by simp at ha ⊢; tauto)
      simp [h c, h d, h e, hsep, htail]
  | case2 cs => exact List.filter_eq_self.mpr h

/-- It adds separators only. -/
theorem mem_grouped {separator a : Char} {cs : List Char}
    (h : a ∈ grouped separator cs) : a ∈ cs ∨ a = separator := by
  fun_induction grouped separator cs with
  | case1 c d e f cs ih =>
      simp only [List.mem_cons] at h ih ⊢
      tauto
  | case2 cs => exact .inl h

/-- What browsers put between groups of digits. -/
def groupSeparator : IntlLocale → Char
  | .enUS => ','
  | _ => Char.ofNat 160

/-- What they put before the fraction. -/
def decimalSeparator : IntlLocale → String
  | .enUS => "."
  | _ => ","

/-- `Intl.NumberFormat` as browsers have it, at the values that are
formatted here. -/
def browserIntl : Intl where
  formatNumber locale x := String.ofList ((if x < 0 then ['-'] else [])
    ++ (grouped (groupSeparator locale) (Nat.toDigits 10 x.natAbs).reverse).reverse)
  formatNumberToParts locale _ := [⟨"integer", "1"⟩,
    ⟨"decimal", decimalSeparator locale⟩, ⟨"fraction", "1"⟩]

/-- Such a browser formats integers exactly. -/
theorem browserIntl_exact : browserIntl.Exact := by
  have hsep : ∀ locale, (groupSeparator locale).isDigit = false := by
    intro locale
    cases locale <;> decide
  have hformat : ∀ locale (n : Nat), (browserIntl.formatNumber locale n).toList
      = (grouped (groupSeparator locale) (Nat.toDigits 10 n).reverse).reverse := by
    intro locale n
    have hn : ¬ (n : Int) < 0 := by omega
    simp [browserIntl, hn]
  have hdigits : ∀ n : Nat, ∀ c ∈ (Nat.toDigits 10 n).reverse, c.isDigit = true :=
    fun n c hc => Decimal.isNumeral_toDigits.2 c (List.mem_reverse.mp hc)
  refine ⟨fun locale n => ?_, fun locale n hmem => ?_, fun locale part hpart htype => ?_⟩
  · rw [hformat, List.filter_reverse, filter_grouped (hsep locale) (hdigits n),
      List.reverse_reverse]
  · rw [hformat, List.mem_reverse] at hmem
    rcases mem_grouped hmem with hdigit | hsame
    · exact absurd (hdigits n _ hdigit) (by decide)
    · cases locale <;> exact absurd hsame (by decide)
  · simp only [browserIntl, List.mem_cons, List.not_mem_nil, or_false] at hpart
    rcases hpart with rfl | rfl | rfl
    · exact absurd htype (by decide)
    · cases locale <;> decide
    · exact absurd htype (by decide)

end Currency

-- ================================================================= the result

open Currency

/-- Rates are read exactly or not at all; amounts are converted at them to
the nearest integer, halves away from zero; and the text shows that
integer. -/
theorem displayed_conversion_rounded (intl : Intl) (hintl : intl.Exact) :
    (∀ input, ReadAs (jsTrim input.text).toList (parseScaledRate input))
      ∧ (∀ before after rate, (parseScaledRate rate.rateToUah).value = 0 →
          parseCurrencyRates (before ++ some rate :: after)
            = parseCurrencyRates (before ++ after))
      ∧ parseCurrencyRates [] = defaultRates
      ∧ (∀ rates source target, Convertible rates source target →
          ∃ conversion : Int → Int,
            (∀ cents, convertCents cents source target rates
              = (Frontend.moneyCentsToBigInt cents).map conversion)
            ∧ (∀ c : Int, Rounding.Rounds
                (c * (rates source).toUah / (rates target).toUah)
                (conversion c))
            ∧ (∀ c, conversion (-c) = -conversion c)
            ∧ ∀ c d, c ≤ d → conversion c ≤ conversion d)
      ∧ ∀ input c, Frontend.moneyCentsToBigInt input.cents = .ok c →
          ∃ code x text whole separator fraction, Currency.Shown input c code x
            ∧ formatMoney intl input = .ok text
            ∧ Prints text code x whole separator fraction
            ∧ centsShown text = x := by
  refine ⟨parseScaledRate_cases, fun before after rate => parseCurrencyRates_skip
    before after, rfl, fun rates source target h => ?_, fun input c hc => ?_⟩
  · exact ⟨convert rates source target, convertCents_eq h, rounds_convert h,
      convert_neg h, fun _ _ => convert_mono h⟩
  · obtain ⟨code, x, text, whole, separator, fraction, hshown, htext, hprints⟩ :=
      formatMoney_prints hintl hc
    exact ⟨code, x, text, whole, separator, fraction, hshown, htext, hprints,
      hprints.centsShown_eq⟩

/-- A debt of 1.01 at two to one is half a cent off. -/
def halfCent : FormatInput where
  cents := .text "-101"
  sourceCurrency := "USD"
  displayCurrency := .EUR
  rates := parseCurrencyRates [some ⟨"USD", .string "1e0"⟩,
    some ⟨"EUR", .string " +2.00 "⟩, some ⟨"EUR", .string "-3"⟩]
  locale := "ua"

/-- A negative amount is converted, rounded at a half, and shown with its
sign. -/
theorem half_cent_shown :
    formatMoney browserIntl halfCent = .ok "-0,51 €"
      ∧ ∃ code x text whole separator fraction, Currency.Shown halfCent (-101) code x
        ∧ formatMoney browserIntl halfCent = .ok text
        ∧ Prints text code x whole separator fraction ∧ centsShown text = x :=
  ⟨by decide +kernel,
    (displayed_conversion_rounded browserIntl browserIntl_exact).2.2.2.2 halfCent
      (-101) rfl⟩

end Skrynia
