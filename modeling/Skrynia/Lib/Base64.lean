/-
Base64 texts of bytes, and the reader of Node's buffers.

The reader is lenient: it takes the alphabet of URLs as well, skips what
is in neither alphabet, stops at the padding and drops the bits that are
left over, so many texts give the same bytes. What the printer gives for
them is one of those texts (`decode_encode`), and a reader that compares
its input with that one is strict.
-/
import Mathlib.Data.List.GetD
import Mathlib.Data.List.Nodup
import Skrynia.Common.Text
import Skrynia.Lib.BitGroups

namespace Base64

open BitGroups

/-- The alphabet of Base64. -/
def alphabet : List Char :=
  "ABCDEFGHIJKLMNOPQRSTUVWXYZabcdefghijklmnopqrstuvwxyz0123456789+/".toList

/-- The character of six bits. -/
def digit (n : Nat) : Char := alphabet.getD n 'A'

/-- The characters of some bytes, without padding. -/
def digits (b : List UInt8) : List Char := (spell 8 6 (b.map UInt8.toNat)).map digit

/-- The characters that fill the last four. -/
def padding (b : List UInt8) : Nat := (4 - (digits b).length % 4) % 4

/-- `toString("base64")`. -/
def encode (b : List UInt8) : String :=
  String.ofList (digits b ++ List.replicate (padding b) '=')

/-- The six bits of a character, of either alphabet. -/
def digitValue? (c : Char) : Option Nat :=
  if c = '-' then some 62
  else if c = '_' then some 63
  else alphabet.idxOf? c

/-- `Buffer.from(s, "base64")`. -/
def decode (s : String) : List UInt8 :=
  (groups 8
    (((s.toList.takeWhile (· ≠ '=')).filterMap digitValue?).flatMap (toBits 6))).map
    UInt8.ofNat

variable {b b' : List UInt8} {c : Char}

/-- The text of the alphabet, read once. -/
theorem alphabet_eq : alphabet =
    ['A', 'B', 'C', 'D', 'E', 'F', 'G', 'H', 'I', 'J', 'K', 'L', 'M', 'N',
      'O', 'P', 'Q', 'R', 'S', 'T', 'U', 'V', 'W', 'X', 'Y', 'Z', 'a', 'b',
      'c', 'd', 'e', 'f', 'g', 'h', 'i', 'j', 'k', 'l', 'm', 'n', 'o', 'p',
      'q', 'r', 's', 't', 'u', 'v', 'w', 'x', 'y', 'z', '0', '1', '2', '3',
      '4', '5', '6', '7', '8', '9', '+', '/'] :=
  String.toList_ofList

/-- No character is there twice. -/
theorem nodup_alphabet : alphabet.Nodup := by
  have hcodes : (alphabet.map Char.toNat).Nodup := by
    rw [alphabet_eq]
    decide +kernel
  exact List.Nodup.of_map _ hcodes

/-- What is printed is not of the alphabet of URLs alone. -/
theorem digit_ne_url : ∀ n < 64, digit n ≠ '-' ∧ digit n ≠ '_' := by
  unfold digit
  rw [alphabet_eq]
  decide +kernel

/-- A character that is printed is read back. -/
theorem digitValue?_digit : ∀ n < 64, digitValue? (digit n) = some n := by
  intro n hn
  have hlength : n < alphabet.length := by
    rw [alphabet_eq]
    exact hn
  obtain ⟨hminus, hline⟩ := digit_ne_url n hn
  unfold digitValue?
  rw [if_neg hminus, if_neg hline, digit, List.getD_eq_getElem _ _ hlength]
  rw [List.idxOf?_eq_some_iff]
  refine ⟨hlength, rfl, ?_⟩
  intro j hj heq
  have hsame := nodup_alphabet.getElem_inj_iff.mp heq
  omega

/-- And is no padding. -/
theorem digit_ne_padding : ∀ n < 64, digit n ≠ '=' := by
  unfold digit
  rw [alphabet_eq]
  decide +kernel

/-- And is ASCII. -/
theorem toNat_digit_lt : ∀ n < 64, (digit n).toNat < 128 := by
  unfold digit
  rw [alphabet_eq]
  decide +kernel

/-- What is printed is of the alphabet. -/
theorem exists_digit (hc : c ∈ digits b) : ∃ n < 64, digit n = c := by
  obtain ⟨n, hn, hc⟩ := List.mem_map.mp hc
  exact ⟨n, lt_of_mem_spell (by decide) hn, hc⟩

/-- A text is its characters and its padding. -/
theorem encode_toList :
    (encode b).toList = digits b ++ List.replicate (padding b) '=' :=
  String.toList_ofList

/-- Characters that are printed are read back. -/
theorem filterMap_map_digit {ns : List Nat} (hns : ∀ n ∈ ns, n < 64) :
    (ns.map digit).filterMap digitValue? = ns := by
  induction ns with
  | nil => rfl
  | cons n ns ih =>
      rw [List.map_cons, List.filterMap_cons_some (digitValue?_digit n (hns n (by simp))),
        ih fun m hm => hns m (List.mem_cons_of_mem _ hm)]

/-- The digits end where the padding starts. -/
theorem takeWhile_encode : (encode b).toList.takeWhile (· ≠ '=') = digits b := by
  have hdigits : ∀ c ∈ digits b, decide (c ≠ '=') = true := by
    intro c hc
    obtain ⟨n, hn, rfl⟩ := exists_digit hc
    exact decide_eq_true (digit_ne_padding n hn)
  rw [encode_toList, List.takeWhile_append_of_pos hdigits]
  cases padding b with
  | zero => simp
  | succ n => rw [List.replicate_succ, List.takeWhile_cons_of_neg (by decide), List.append_nil]

/-- Bytes that are printed are read back. -/
theorem decode_encode (b : List UInt8) : decode (encode b) = b := by
  have hbytes : ∀ n ∈ b.map UInt8.toNat, n < 2 ^ 8 := by
    intro n hn
    obtain ⟨byte, -, rfl⟩ := List.mem_map.mp hn
    exact byte.toNat_lt
  unfold decode
  rw [takeWhile_encode, digits, filterMap_map_digit fun n hn =>
    lt_of_mem_spell (by decide) hn, groups_spell (by decide) (by decide) hbytes, List.map_map]
  simp [Function.comp_def]

/-- Bytes of one text are the same. -/
theorem encode_inj (h : encode b = encode b') : b = b' := by
  rw [← decode_encode b, h, decode_encode]

/-- Every six bits make a character, and what is left another one. -/
theorem length_digits : (digits b).length = (8 * b.length + 5) / 6 := by
  unfold digits
  rw [List.length_map, length_spell (by decide), List.length_map]
  unfold missing
  rw [length_flatMap_toBits, List.length_map]
  omega

/-- One, two or no characters of padding, by the digits before them. -/
theorem padding_cases :
    (digits b).length % 4 = 0 ∧ padding b = 0
      ∨ (digits b).length % 4 = 2 ∧ padding b = 2
      ∨ (digits b).length % 4 = 3 ∧ padding b = 1 := by
  have hlen := length_digits (b := b)
  obtain h | h | h : (digits b).length % 4 = 0 ∨ (digits b).length % 4 = 2
      ∨ (digits b).length % 4 = 3 := by
    omega
  all_goals
    unfold padding
    rw [h]
    simp

/-- Nothing is printed of no bytes. -/
theorem encode_eq_empty : encode b = "" ↔ b = [] := by
  constructor
  · intro h
    rw [← decode_encode b, h]
    show (groups 8 []).map UInt8.ofNat = []
    rw [groups_of_lt (by decide), List.map_nil]
  · intro h
    rw [h, ← String.toList_inj, encode_toList]
    have hnil : digits [] = [] := List.eq_nil_of_length_eq_zero length_digits
    rw [padding, hnil]
    rfl

/-- Every three bytes make four code units, and what is left as many. -/
theorem utf16Length_encode :
    Skrynia.utf16Length (encode b) = 4 * ((b.length + 2) / 3) := by
  have hascii : ∀ c ∈ (encode b).toList, c.toNat < 65536 := by
    intro c hc
    rw [encode_toList] at hc
    rcases List.mem_append.mp hc with hc | hc
    · obtain ⟨n, hn, rfl⟩ := exists_digit hc
      have := toNat_digit_lt n hn
      omega
    · rw [List.eq_of_mem_replicate hc]
      decide
  have hlen := length_digits (b := b)
  rw [Skrynia.utf16Length_eq hascii, encode_toList, List.length_append,
    List.length_replicate]
  rcases padding_cases (b := b) with ⟨hmod, hpad⟩ | ⟨hmod, hpad⟩ | ⟨hmod, hpad⟩
  · omega
  · omega
  · omega

end Base64
