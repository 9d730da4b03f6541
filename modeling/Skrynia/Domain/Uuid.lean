/-
Row identifiers and their text.

PostgreSQL prints a uuid as 32 lower-case hex digits in five groups,
8-4-4-4-12. Several unique columns of the schema are texts built around
such an id (`order:<id>:refund`, `order.paid:<id>`), so what a key
collision means comes down to two facts about the rendering: all texts
have one length, and no two ids share a text.

# Injectivity

A digit is read off the value by a power of sixteen. Values that agree
on all 32 digits agree (`eq_of_digits`), and the groups are cut at fixed
offsets, so equal texts agree group by group.

# Reading

`ofText` reads more than is printed: digits of either case, dashes after
any two bytes or none, and braces. It reads what is printed
(`ofText_text`).
-/
import Mathlib.Algebra.Group.Nat.Defs
import Mathlib.Tactic.Common
import Mathlib.Data.Nat.Basic

namespace Skrynia

/-- A uuid: 128 bits. -/
structure Uuid where
  bits : BitVec 128
deriving DecidableEq

/-- Texts that start differently are different. -/
theorem append_ne_append {p q : List Char} {x y : String}
    (hp : ¬ p <+: q) (hq : ¬ q <+: p) :
    String.ofList p ++ x ≠ String.ofList q ++ y := by
  intro h
  have hl := congrArg String.toList h
  simp only [String.toList_append, String.toList_ofList] at hl
  have h₁ : p <+: p ++ x.toList := List.prefix_append _ _
  have h₂ : q <+: p ++ x.toList := by
    rw [hl]
    exact List.prefix_append _ _
  rcases List.prefix_or_prefix_of_prefix h₁ h₂ with h' | h'
  · exact hp h'
  · exact hq h'

namespace Uuid

/-- One lower-case hex digit. -/
def hexDigit (n : Nat) : Char :=
  Char.ofNat (if n < 10 then 48 + n else 87 + n)

/-- The `i`-th hex digit of the id, most significant first. -/
def digit (u : Uuid) (i : Nat) : Char :=
  hexDigit (u.bits.toNat / 16 ^ (31 - i) % 16)

/-- `n` consecutive digits from position `i` on. -/
def group (u : Uuid) (i n : Nat) : List Char :=
  (List.range' i n).map u.digit

/-- The characters of the text, groups separated by dashes. -/
def chars (u : Uuid) : List Char :=
  u.group 0 8 ++ '-' :: (u.group 8 4 ++ '-' :: (u.group 12 4
    ++ '-' :: (u.group 16 4 ++ '-' :: u.group 20 12)))

/-- `uuid::text`. -/
def text (u : Uuid) : String := String.ofList u.chars

-- ================================================== one length, one id

/-- A group has the length it is cut to. -/
@[simp] theorem length_group (u : Uuid) (i n : Nat) :
    (u.group i n).length = n := by
  simp [group]

/-- All texts have 36 characters. -/
theorem length_chars (u : Uuid) : u.chars.length = 36 := by
  simp [chars]

/-- The text is made of these characters. -/
theorem toList_text (u : Uuid) : u.text.toList = u.chars :=
  String.toList_ofList

/-- Sixteen digits, sixteen characters. -/
theorem hexDigit_injective {m n : Nat} (hm : m < 16) (hn : n < 16)
    (h : hexDigit m = hexDigit n) : m = n := by
  have hall : ∀ a b : Fin 16, hexDigit a = hexDigit b → a = b := by
    decide +kernel
  have := hall ⟨m, hm⟩ ⟨n, hn⟩ h
  simpa using this

/-- Numbers below `16 ^ k` that agree on their `k` digits are equal. -/
theorem eq_of_digits {k m n : Nat} (hm : m < 16 ^ k) (hn : n < 16 ^ k)
    (h : ∀ i < k, m / 16 ^ i % 16 = n / 16 ^ i % 16) : m = n := by
  induction k generalizing m n with
  | zero =>
      rw [Nat.pow_zero] at hm hn
      omega
  | succ k ih =>
      rw [Nat.pow_succ] at hm hn
      -- the last digit, and the quotients that carry the others
      have hlow : m % 16 = n % 16 := by simpa using h 0 (by omega)
      have hhigh : m / 16 = n / 16 := by
        refine ih (by omega) (by omega) fun i hi => ?_
        have := h (i + 1) (by omega)
        rwa [Nat.pow_succ', ← Nat.div_div_eq_div_mul,
          ← Nat.div_div_eq_div_mul] at this
      omega

/-- Equal groups have equal digits throughout. -/
theorem digit_eq_of_group {u v : Uuid} {i n j : Nat}
    (h : u.group i n = v.group i n) (hi : i ≤ j) (hj : j < i + n) :
    u.digit j = v.digit j :=
  List.map_inj_left.mp h j (List.mem_range'_1.mpr ⟨hi, hj⟩)

/-- No two ids share a text. -/
theorem chars_injective {u v : Uuid} (h : u.chars = v.chars) : u = v := by
  unfold chars at h
  obtain ⟨h₁, h⟩ := List.append_inj h (by simp)
  obtain ⟨h₂, h⟩ := List.append_inj (List.tail_eq_of_cons_eq h) (by simp)
  obtain ⟨h₃, h⟩ := List.append_inj (List.tail_eq_of_cons_eq h) (by simp)
  obtain ⟨h₄, h⟩ := List.append_inj (List.tail_eq_of_cons_eq h) (by simp)
  have h₅ := List.tail_eq_of_cons_eq h
  have hdigit : ∀ j < 32, u.digit j = v.digit j := by
    intro j hj
    rcases Nat.lt_or_ge j 8 with h8 | h8
    · exact digit_eq_of_group h₁ (by omega) (by omega)
    rcases Nat.lt_or_ge j 12 with h12 | h12
    · exact digit_eq_of_group h₂ (by omega) (by omega)
    rcases Nat.lt_or_ge j 16 with h16 | h16
    · exact digit_eq_of_group h₃ (by omega) (by omega)
    rcases Nat.lt_or_ge j 20 with h20 | h20
    · exact digit_eq_of_group h₄ (by omega) (by omega)
    · exact digit_eq_of_group h₅ (by omega) (by omega)
  have hvalue : u.bits.toNat = v.bits.toNat := by
    refine eq_of_digits (k := 32) u.bits.isLt v.bits.isLt fun i hi => ?_
    have := hdigit (31 - i) (by omega)
    unfold digit at this
    rw [show 31 - (31 - i) = i by omega] at this
    exact hexDigit_injective (Nat.mod_lt _ (by decide))
      (Nat.mod_lt _ (by decide)) this
  cases u
  cases v
  rw [Uuid.mk.injEq]
  exact BitVec.eq_of_toNat_eq hvalue

/-- No two ids print alike. -/
theorem text_injective {u v : Uuid} (h : u.text = v.text) : u = v := by
  refine chars_injective ?_
  rw [← toList_text, ← toList_text, h]

/-- A text that continues after an id determines both parts. -/
theorem append_injective {p s s' : String} {u v : Uuid}
    (h : p ++ (u.text ++ s) = p ++ (v.text ++ s')) : u = v ∧ s = s' := by
  have hl := congrArg String.toList h
  simp only [String.toList_append, toList_text,
    List.append_cancel_left_eq] at hl
  obtain ⟨hu, hs⟩ := List.append_inj hl (by rw [length_chars, length_chars])
  exact ⟨chars_injective hu, String.ext hs⟩

-- ================================================================ reading

/-- The value of a hex digit, of either case. -/
def hexValue (c : Char) : Option Nat :=
  if '0' ≤ c ∧ c ≤ '9' then some (c.toNat - 48)
  else if 'a' ≤ c ∧ c ≤ 'f' then some (c.toNat - 87)
  else if 'A' ≤ c ∧ c ≤ 'F' then some (c.toNat - 55)
  else none

/-- The last `n` of sixteen bytes, of two digits each; a dash may follow
every second one but the last. -/
def readBytes : Nat → List Char → Option (List Nat × List Char)
  | 0, cs => some ([], cs)
  | n + 1, a :: b :: cs =>
      match hexValue a, hexValue b with
      | some high, some low =>
          let rest := if cs.head? = some '-' ∧ n % 2 = 0 ∧ n ≠ 0 then cs.tail
            else cs
          match readBytes n rest with
          | some (digits, rest) => some (high :: low :: digits, rest)
          | none => none
      | _, _ => none
  | _ + 1, _ => none

/-- A uuid and what closes it. -/
def readUuid (cs close : List Char) : Option Uuid :=
  match readBytes 16 cs with
  | some (digits, rest) =>
      if rest = close then
        some ⟨BitVec.ofNat 128 (digits.foldl (fun n d => 16 * n + d) 0)⟩
      else none
  | none => none

/-- `text::uuid`. -/
def ofText (s : String) : Option Uuid :=
  match s.toList with
  | [] => none
  | c :: cs => if c = '{' then readUuid cs ['}'] else readUuid (c :: cs) []

end Uuid

end Skrynia
