/-
The browser's money functions: a second parser and a second printer of
decimal amounts, in unbounded integers.

`money_text_codecs` compares them with the backend's. The two printers
are one function on the cents that the backend has; the browser's parser
reads more texts (a sign, a comma), and where the backend reads a text
at all they read the same number.
-/
import Skrynia.Common.MoneyText

namespace Skrynia

namespace Frontend

-- ================================================================ money.ts

/-- `moneyCentsToBigInt`: the integer in any of the forms in which cents
arrive. -/
def moneyCentsToBigInt : MoneyCentsInput → Except String Int
  | .bigint v => .ok v
  | .number n =>
      match n.safeInteger with
      | none => .error "Money cents must be a safe integer"
      | some v => .ok v
  | .text s =>
      if Decimal.IsInteger s.toList then .ok (Decimal.intValue s.toList)
      else .error "Money cents must be an integer decimal string"

/-- `moneyCentsToMajorUnits`: the cents as a decimal text. -/
def moneyCentsToMajorUnits (cents : MoneyCentsInput) : Except String String := do
  let value ← moneyCentsToBigInt cents
  return MoneyText.decimalText value

/-- `[+-]?` and the rest. -/
def splitSign : List Char → Bool × List Char
  | '-' :: cs => (true, cs)
  | '+' :: cs => (false, cs)
  | cs => (false, cs)

/-- A point or a comma. -/
def isSeparator (c : Char) : Bool :=
  c == '.' || c == ','

/-- `majorUnitsToMoneyCents`: the browser's parser of a decimal amount. -/
def majorUnitsToMoneyCents (value : String) : Except String Int :=
  let (negative, unsigned) := splitSign (jsTrim value).toList
  match Decimal.matchFixed isSeparator unsigned with
  | none => .error "Money must have at most two decimal places"
  | some (whole, fraction) =>
      let cents : Int := Decimal.hundredths whole fraction
      .ok (if negative then -cents else cents)

end Frontend

open MoneyText Frontend

variable {s t : String} {x c : Int}

-- ============================================================ the browser

/-- A separator is no digit. -/
theorem isSeparator_not_digit (c : Char) (h : isSeparator c = true) :
    c.isDigit = false := by
  simp only [isSeparator, Bool.or_eq_true, beq_iff_eq] at h
  rcases h with rfl | rfl <;> rfl

/-- A text that starts with a digit has no sign to split off. -/
theorem splitSign_of_fixed {sep : Char → Bool} {cs w f : List Char}
    (h : Decimal.Fixed sep cs w f) : splitSign cs = (false, cs) := by
  obtain ⟨d, ds, rfl, hd⟩ := h.head_isDigit
  unfold splitSign
  split
  · next heq =>
    rw [(List.cons.inj heq).1] at hd
    exact absurd hd (by decide)
  · next heq =>
    rw [(List.cons.inj heq).1] at hd
    exact absurd hd (by decide)
  · rfl

/-- A sign and a fixed-point text are read as the number they spell. -/
theorem majorUnitsToMoneyCents_of_fixed {w f : List Char} {negative : Bool}
    {cs : List Char} (hsign : splitSign (jsTrim s).toList = (negative, cs))
    (h : Decimal.Fixed isSeparator cs w f) :
    majorUnitsToMoneyCents s = .ok
      (if negative then -(Decimal.hundredths w f : Int)
        else Decimal.hundredths w f) := by
  have hmatch := (Decimal.matchFixed_eq_some isSeparator_not_digit).mpr h
  unfold majorUnitsToMoneyCents
  simp only [hsign, hmatch]

/-- What the printer writes the parser reads back. -/
theorem majorUnitsToMoneyCents_decimalText (x : Int) :
    majorUnitsToMoneyCents (decimalText x) = .ok x := by
  have hdot : isSeparator '.' = true := rfl
  by_cases hx : x < 0
  · have hsign : splitSign (jsTrim (decimalText x)).toList
        = (true, Decimal.printFixed '.' x.natAbs) := by
      rw [decimalText_toList, if_pos hx, List.singleton_append, splitSign]
    rw [majorUnitsToMoneyCents_of_fixed hsign (Decimal.fixed_printFixed hdot),
      Decimal.hundredths_printFixed]
    have habs : -(x.natAbs : Int) = x := by omega
    simp only [if_true, habs]
  · have hfixed := fixed_decimalText hdot (Int.not_lt.mp hx)
    rw [majorUnitsToMoneyCents_of_fixed (splitSign_of_fixed hfixed) hfixed,
      Decimal.hundredths_printFixed]
    have habs : (x.natAbs : Int) = x := by omega
    simp only [Bool.false_eq_true, if_false, habs]

/-- Where the backend reads a text, the browser reads the same number. -/
theorem majorUnitsToMoneyCents_of_moneyToCents
    (h : MoneyText.moneyToCents s = .ok t) :
    ∃ c, majorUnitsToMoneyCents s = .ok c ∧ t = toString c := by
  obtain ⟨_, ⟨w, f, hfixed, rfl⟩, c, hc, -, rfl⟩ := moneyToCents_eq_ok.mp h
  have hfixed' : Decimal.Fixed isSeparator (jsTrim s).toList w f :=
    hfixed.weaken fun d hd => by simp [isSeparator, beq_iff_eq.mp hd]
  have heq : (Decimal.hundredths w f : Int) = c := by
    rw [← Decimal.hundredths_eq hfixed.length_le] at hc
    exact_mod_cast hc.symm
  refine ⟨c, ?_, rfl⟩
  rw [majorUnitsToMoneyCents_of_fixed (splitSign_of_fixed hfixed') hfixed',
    heq]
  rfl

/-- Cents that the backend has are read by the browser as they are. -/
theorem moneyCentsToBigInt_of_centsOf {input : MoneyCentsInput}
    (h : centsOf input = .ok c) : moneyCentsToBigInt input = .ok c := by
  obtain ⟨htext, hrange⟩ := centsOf_eq_ok.mp h
  cases input with
  | bigint v =>
      by_cases hv : InBigintRange v
      · rw [centsOf_bigint hv] at h
        cases h
        rfl
      · rw [bigintToMoneyCents_bigint_range hv] at htext
        cases htext
  | text t =>
      cases hparse : parseMoneyCents t with
      | error e =>
          rw [MoneyText.bigintToMoneyCents, hparse] at htext
          cases htext
      | ok v =>
          obtain ⟨hv, rfl⟩ := parseMoneyCents_eq_ok.mp hparse
          rw [MoneyText.bigintToMoneyCents, hparse] at htext
          have heq : toString v = toString c := Except.ok.inj htext
          rw [heq]
          have hcanonical : Decimal.CanonicalInt (toString c).toList := by
            rw [Decimal.canonicalInt_iff, Decimal.toList_toString,
              Decimal.intValue_intDigits]
          rw [moneyCentsToBigInt,
            if_pos (Decimal.isInteger_of_canonicalInt hcanonical),
            Decimal.toList_toString, Decimal.intValue_intDigits]
  | number n =>
      cases hn : n.safeInteger with
      | none =>
          simp only [MoneyText.bigintToMoneyCents, hn] at htext
          cases htext
      | some v =>
          have hv : centsOf (.bigint v) = .ok c := by
            have hsame : MoneyText.bigintToMoneyCents (.number n)
                = MoneyText.bigintToMoneyCents (.bigint v) := by
              simp only [MoneyText.bigintToMoneyCents, hn]
            rw [← h, centsOf, centsOf, hsame]
          by_cases hrange' : InBigintRange v
          · rw [centsOf_bigint hrange'] at hv
            cases hv
            simp only [moneyCentsToBigInt, hn]
          · rw [centsOf, bigintToMoneyCents_bigint_range hrange'] at hv
            cases hv

/-- Both printers of the browser write the text of the cents. -/
theorem centsToDecimalString_eq {input : MoneyCentsInput}
    (h : centsOf input = .ok c) :
    centsToDecimalString input = .ok (decimalText c)
      ∧ moneyCentsToMajorUnits input = .ok (decimalText c) := by
  unfold centsToDecimalString moneyCentsToMajorUnits
  rw [h, moneyCentsToBigInt_of_centsOf h]
  exact ⟨rfl, rfl⟩

-- ====================================================== the codecs agree

/-- Parsers and printers of both sides denote the same integers: what one
prints the other reads back, canonical texts and amounts correspond one to
one, and the checked operations are those of the integers with a range. -/
theorem money_text_codecs :
    -- the backend's parser
    (∀ s t, MoneyText.moneyToCents s = .ok t ↔
      ∃ q, DecimalAmount (· == '.') (jsTrim s).toList q
        ∧ ∃ c : Int, (c : ℚ) = 100 * q ∧ c ≤ postgresBigintMax
          ∧ t = toString c)
    -- what the inputs denote
    ∧ (∀ v, InBigintRange v → centsOf (.bigint v) = .ok v)
    ∧ (∀ x, moneyCentsToBigInt (.bigint x) = .ok x)
    -- the backend's round trip
    ∧ (∀ input c, centsOf input = .ok c → 0 ≤ c →
        ∃ t, centsToDecimalString input = .ok t
          ∧ MoneyText.moneyToCents t = .ok (toString c))
    -- the browser's round trip
    ∧ (∀ input x, moneyCentsToBigInt input = .ok x →
        ∃ t, moneyCentsToMajorUnits input = .ok t
          ∧ majorUnitsToMoneyCents t = .ok x)
    -- the two parsers and the two printers
    ∧ (∀ s x t, majorUnitsToMoneyCents s = .ok x → MoneyText.moneyToCents s = .ok t →
        t = toString x)
    ∧ (∀ input c, centsOf input = .ok c → 0 ≤ c →
        ∃ t, centsToDecimalString input = .ok t
          ∧ moneyCentsToMajorUnits input = .ok t)
    -- canonical texts
    ∧ (∀ v, InBigintRange v → ∃ t,
        MoneyText.bigintToMoneyCents (.bigint v) = .ok t
          ∧ parseMoneyCents t = .ok v)
    ∧ (∀ t v, parseMoneyCents t = .ok v → InBigintRange v
        ∧ MoneyText.bigintToMoneyCents (.bigint v) = .ok t)
    ∧ (∀ t, (∃ v, parseMoneyCents t = .ok v) ↔
        Decimal.CanonicalInt t.toList
          ∧ InBigintRange (Decimal.intValue t.toList))
    -- checked arithmetic
    ∧ ∀ l r x y, centsOf l = .ok x → centsOf r = .ok y →
        (MoneyText.addMoneyCents l r
          = if InBigintRange (x + y) then .ok (toString (x + y))
            else .error .range)
        ∧ MoneyText.subtractMoneyCents l r
          = if InBigintRange (x - y) then .ok (toString (x - y))
            else .error .range := by
  refine ⟨fun s t => moneyToCents_eq_ok, fun v => centsOf_bigint,
    fun x => rfl, ?_, ?_, ?_, ?_, ?_, ?_, ?_, ?_⟩
  · intro input c h hc
    have hmax := (centsOf_eq_ok.mp h).2.2
    exact ⟨_, (centsToDecimalString_eq h).1, moneyToCents_decimalText hc hmax⟩
  · intro input x h
    refine ⟨decimalText x, ?_, majorUnitsToMoneyCents_decimalText x⟩
    unfold moneyCentsToMajorUnits
    rw [h]
    rfl
  · intro s x t hx ht
    obtain ⟨c, hc, rfl⟩ := majorUnitsToMoneyCents_of_moneyToCents ht
    rw [hx] at hc
    cases hc
    rfl
  · intro input c h _
    exact ⟨_, centsToDecimalString_eq h⟩
  · intro v hv
    exact ⟨_, bigintToMoneyCents_bigint hv, parseMoneyCents_toString hv⟩
  · intro t v h
    obtain ⟨hv, rfl⟩ := parseMoneyCents_eq_ok.mp h
    exact ⟨hv, bigintToMoneyCents_bigint hv⟩
  · intro t
    constructor
    · intro h'
      obtain ⟨v, h⟩ := h'
      obtain ⟨hv, rfl⟩ := parseMoneyCents_eq_ok.mp h
      rw [Decimal.canonicalInt_iff, Decimal.toList_toString,
        Decimal.intValue_intDigits]
      exact ⟨rfl, hv⟩
    · intro h
      obtain ⟨hcanonical, hrange⟩ := h
      refine ⟨_, parseMoneyCents_eq_ok.mpr ⟨hrange, ?_⟩⟩
      rw [← String.toList_inj, Decimal.toList_toString,
        Decimal.canonicalInt_iff.mp hcanonical]
  · intro l r x y hl hr
    exact ⟨addMoneyCents_eq hl hr, subtractMoneyCents_eq hl hr⟩

end Skrynia
