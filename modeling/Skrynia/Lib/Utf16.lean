/-
Strings of UTF-16 code units, as JavaScript has them, and their quoted
JSON texts.

Such a string is any list of code units. Where a high surrogate is
followed by a low one the two are a character; a surrogate elsewhere is
alone (`codePoints`). A quoted text is always well formed: the lone
surrogates are escaped, the characters are escaped as in `Json`. The
code points give the code units back (`flatMap_units_codePoints`), so a
quoted string can be read off the front of a text (`quote_append_inj`).

The order of strings is that of their lists of code units, from the
first.
-/
import Mathlib.Data.Fin.Basic
import Mathlib.Data.List.Infix
import Mathlib.Data.List.Lex
import Mathlib.Order.Fin.Basic
import Skrynia.Lib.Decimal
import Skrynia.Lib.Json

namespace Utf16

/-- A UTF-16 code unit. -/
abbrev CodeUnit := Fin 65536

/-- A JavaScript string. -/
abbrev JsString := List CodeUnit

/-- The first half of a pair. -/
def IsHigh (u : CodeUnit) : Prop := 55296 ≤ u.val ∧ u.val < 56320

/-- The second half of a pair. -/
def IsLow (u : CodeUnit) : Prop := 56320 ≤ u.val ∧ u.val < 57344

/-- Either half. -/
def IsSurrogate (u : CodeUnit) : Prop := 55296 ≤ u.val ∧ u.val < 57344

instance : DecidablePred IsHigh := fun _ => inferInstanceAs (Decidable (_ ∧ _))
instance : DecidablePred IsLow := fun _ => inferInstanceAs (Decidable (_ ∧ _))
instance : DecidablePred IsSurrogate :=
  fun _ => inferInstanceAs (Decidable (_ ∧ _))

/-- A character, or a surrogate without its other half. -/
inductive CodePoint where
  | scalar (c : Char)
  | lone (u : CodeUnit) (h : IsSurrogate u)

/-- A code unit that is no half of a character. -/
def single (u : CodeUnit) : CodePoint :=
  if h : IsSurrogate u then .lone u h else .scalar (Char.ofNat u)

/-- The character of two surrogates. -/
def pair (high low : CodeUnit) : CodePoint :=
  .scalar (Char.ofNat (65536 + (high.val - 55296) * 1024 + (low.val - 56320)))

/-- The characters of a string, and the halves that stand alone. -/
def codePoints : JsString → List CodePoint
  | [] => []
  | [u] => [single u]
  | u :: v :: rest =>
      if IsHigh u ∧ IsLow v then pair u v :: codePoints rest
      else single u :: codePoints (v :: rest)

/-- The code units of a character: one in the basic plane, else two. -/
def charUnits (c : Char) : JsString :=
  if c.toNat < 65536 then [Fin.ofNat 65536 c.toNat]
  else [Fin.ofNat 65536 (55296 + (c.toNat - 65536) / 1024),
    Fin.ofNat 65536 (56320 + (c.toNat - 65536) % 1024)]

/-- The code units of a code point. -/
def CodePoint.units : CodePoint → JsString
  | .scalar c => charUnits c
  | .lone u _ => [u]

/-- A literal's code units. -/
def ofString (s : String) : JsString := s.toList.flatMap charUnits

/-- `includes`. -/
def includes (s part : JsString) : Bool := part <:+: s

/-- `endsWith`. -/
def endsWith (s part : JsString) : Bool := part <:+ s

-- ============================================================ code points

variable {s s' : JsString} {x y : List Char}

/-- A character's number is read back. -/
theorem toNat_ofNat {n : Nat} (h : n.isValidChar) : (Char.ofNat n).toNat = n := by
  unfold Char.ofNat
  rw [dif_pos h]
  rfl

/-- A unit that is no half of a pair is itself. -/
theorem units_single (u : CodeUnit) : (single u).units = [u] := by
  unfold single
  split
  · rfl
  · next h =>
    have hvalid : u.val.isValidChar := by
      unfold IsSurrogate at h
      unfold Nat.isValidChar
      omega
    have hlt := u.isLt
    rw [CodePoint.units, charUnits, toNat_ofNat hvalid, if_pos hlt]
    congr 1
    exact Fin.ext (Nat.mod_eq_of_lt hlt)

/-- A pair is its two halves. -/
theorem units_pair {u v : CodeUnit} (hu : IsHigh u) (hv : IsLow v) :
    (pair u v).units = [u, v] := by
  obtain ⟨hu, hu'⟩ := hu
  obtain ⟨hv, hv'⟩ := hv
  have hvalid : (65536 + (u.val - 55296) * 1024 + (v.val - 56320)).isValidChar := by
    unfold Nat.isValidChar
    omega
  have hhigh : Fin.ofNat 65536 (55296
      + (65536 + (u.val - 55296) * 1024 + (v.val - 56320) - 65536) / 1024) = u := by
    apply Fin.ext
    simp only [Fin.ofNat]
    omega
  have hlow : Fin.ofNat 65536 (56320
      + (65536 + (u.val - 55296) * 1024 + (v.val - 56320) - 65536) % 1024) = v := by
    apply Fin.ext
    simp only [Fin.ofNat]
    omega
  rw [pair, CodePoint.units, charUnits, toNat_ofNat hvalid,
    if_neg (by omega), hhigh, hlow]

/-- Nothing is lost in reading a string by code points. -/
theorem flatMap_units_codePoints (s : JsString) :
    (codePoints s).flatMap CodePoint.units = s := by
  fun_induction codePoints s with
  | case1 => rfl
  | case2 u => rw [List.flatMap_singleton, units_single]
  | case3 u v rest h ih =>
      rw [List.flatMap_cons, units_pair h.1 h.2, ih]
      rfl
  | case4 u v rest h ih =>
      rw [List.flatMap_cons, units_single, ih]
      rfl

/-- The code points tell the string. -/
theorem codePoints_injective : Function.Injective codePoints :=
  Function.LeftInverse.injective flatMap_units_codePoints

-- ============================================================ quoted texts

/-- Four hexadecimal digits. -/
def hex4 (n : Nat) : List Char :=
  [Nat.digitChar (n / 4096), Nat.digitChar (n / 256 % 16),
    Nat.digitChar (n / 16 % 16), Nat.digitChar (n % 16)]

/-- A code point as it stands in a text. -/
def escapePoint : CodePoint → List Char
  | .scalar c => Json.escape c
  | .lone u _ => '\\' :: 'u' :: hex4 u

/-- `QuoteJSONString`. -/
def quote (s : JsString) : List Char :=
  '"' :: ((codePoints s).flatMap escapePoint ++ ['"'])

/-- Four hexadecimal digits tell their number. -/
theorem hex4_inj {m n : Nat} (hm : m < 65536) (hn : n < 65536)
    (h : hex4 m = hex4 n) : m = n := by
  simp only [hex4, List.cons.injEq, and_true] at h
  obtain ⟨h₃, h₂, h₁, h₀⟩ := h
  have h₃ := Json.digitChar_inj (by omega) (by omega) h₃
  have h₂ := Json.digitChar_inj (by omega) (by omega) h₂
  have h₁ := Json.digitChar_inj (by omega) (by omega) h₁
  have h₀ := Json.digitChar_inj (by omega) (by omega) h₀
  omega

/-- The escape of a lone surrogate is not that of a character: no control
character has the code of a surrogate. -/
theorem escape_append_ne_lone {c : Char} {u : CodeUnit} (h : IsSurrogate u) :
    Json.escape c ++ x ≠ '\\' :: 'u' :: hex4 u ++ y := by
  intro heq
  rcases Json.escape_cases c with ⟨e, hc, hec⟩ | ⟨-, -, hec⟩ | ⟨-, hb, hec⟩ <;>
    rw [hec] at heq
  · simp only [List.cons_append, List.nil_append, List.cons.injEq, true_and] at heq
    exact Json.shortEscape_ne_u hc heq.1
  · simp only [hex4, List.cons_append, List.nil_append, List.cons.injEq, true_and]
      at heq
    obtain ⟨hu, hu'⟩ := h
    have hzero := Json.digitChar_inj (m := 0) (by omega) (by omega) heq.1
    omega
  · simp only [List.cons_append, List.nil_append, List.cons.injEq] at heq
    exact hb heq.1

/-- A code point can be read off the front of a text. -/
theorem escapePoint_append_inj {p q : CodePoint}
    (h : escapePoint p ++ x = escapePoint q ++ y) : p = q ∧ x = y := by
  cases p with
  | scalar c =>
      cases q with
      | scalar d =>
          obtain ⟨rfl, hxy⟩ := Json.escape_append_inj h
          exact ⟨rfl, hxy⟩
      | lone u hu => exact absurd h (escape_append_ne_lone hu)
  | lone u hu =>
      cases q with
      | scalar d => exact absurd h.symm (escape_append_ne_lone hu)
      | lone v hv =>
          obtain ⟨huv, hxy⟩ := List.append_inj h rfl
          obtain rfl := Fin.ext (hex4_inj u.isLt v.isLt
            (List.cons.inj (List.cons.inj huv).2).2)
          exact ⟨rfl, hxy⟩

/-- No escaped code point starts with a quote. -/
theorem escapePoint_append_ne_quote {p : CodePoint} : escapePoint p ++ x ≠ '"' :: y := by
  cases p with
  | scalar c => exact Json.escape_append_ne_quote
  | lone u hu =>
      intro h
      exact absurd (List.cons.inj h).1 (by decide)

/-- A quoted string can be read off the front. -/
theorem quote_append_inj (h : quote s ++ x = quote s' ++ y) : s = s' ∧ x = y := by
  rw [quote, quote, List.cons_append, List.cons_append, List.append_assoc,
    List.append_assoc] at h
  obtain ⟨hs, hxy⟩ := Json.flatMap_append_inj
    (fun _ _ _ _ => escapePoint_append_inj)
    (fun _ _ _ => escapePoint_append_ne_quote) (List.tail_eq_of_cons_eq h)
  exact ⟨codePoints_injective hs, hxy⟩

-- ========================================================== property names

/-- The array index that a property name is the canonical numeral of. -/
def arrayIndex (key : JsString) : Option Nat :=
  let digits := key.map fun u => Char.ofNat u
  if Decimal.Canonical digits ∧ Decimal.value digits < 4294967295 then
    some (Decimal.value digits)
  else none

end Utf16
