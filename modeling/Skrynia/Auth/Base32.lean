/-
The Base32 codec of authenticator secrets.

Both loops keep the bits they have read in a 32-bit accumulator that is
only ever shifted to the left, so its high bits are bits that were used
long ago, and after a few characters they fall off. What counts are the
low `bits` of it: they are what the stream of bits has left over when its
groups have been written (`Base32Encoder.Reads`, `Base32Decoder.Reads`).

The decoder encodes what it has read again, and that makes it strict: it
accepts a text exactly if it is what some bytes are spelt as, with the
padding of a multiple of eight or with none.
-/
import Skrynia.Common.Text
import Skrynia.Lib.BitGroups
import Skrynia.Lib.Tx

namespace Skrynia

open BitGroups Relational

/-- `BASE32_ALPHABET`. -/
def base32Alphabet : List Char := "ABCDEFGHIJKLMNOPQRSTUVWXYZ234567".toList

/-- `MAX_BASE32_SECRET_LENGTH`. -/
def maxBase32SecretLength : Nat := 4096

/-- `BASE32_ALPHABET[index]`. -/
def base32Char (index : Nat) : Char := base32Alphabet.getD index 'A'

/-- `BASE32_ALPHABET.indexOf(char)`. -/
def base32Index (char : Char) : Int :=
  match base32Alphabet.idxOf? char with
  | some index => index
  | none => -1

-- =============================================================== encoding

/-- The variables of the encoder's loop. -/
structure Base32Encoder where
  bits : Nat
  value : BitVec 32
  output : List Char

/-- The inner loop: while there are five bits. -/
def emitQuintets (bits : Nat) (value : BitVec 32) (output : List Char) :
    Nat × List Char :=
  if 5 ≤ bits then
    emitQuintets (bits - 5) value
      (output ++ [base32Char ((value >>> (bits - 5)) &&& 31).toNat])
  else (bits, output)
termination_by bits

/-- Before the first byte. -/
def Base32Encoder.start : Base32Encoder := ⟨0, 0, []⟩

/-- The body of its loop. -/
def Base32Encoder.next (s : Base32Encoder) (byte : UInt8) : Base32Encoder :=
  let value := s.value <<< 8 ||| byte.toBitVec.setWidth 32
  let (bits, output) := emitQuintets (s.bits + 8) value s.output
  { bits, value, output }

/-- `base32Encode`: what is left of the bits makes a last character. -/
def base32Encode (buffer : List UInt8) : String :=
  let s := buffer.foldl Base32Encoder.next .start
  String.ofList
    (if 0 < s.bits then
      s.output ++ [base32Char ((s.value <<< (5 - s.bits)) &&& 31).toNat]
    else s.output)

-- =============================================================== decoding

/-- The variables of the decoder's loop. -/
structure Base32Decoder where
  bits : Nat
  value : BitVec 32
  bytes : List UInt8

/-- Before the first character. -/
def Base32Decoder.start : Base32Decoder := ⟨0, 0, []⟩

/-- The body of its loop. -/
def Base32Decoder.next (s : Base32Decoder) (char : Char) : Base32Decoder :=
  let value := s.value <<< 5 ||| BitVec.ofInt 32 (base32Index char)
  let bits := s.bits + 5
  if 8 ≤ bits then
    { bits := bits - 8, value,
      bytes := s.bytes ++ [UInt8.ofNat ((value >>> (bits - 8)) &&& 255).toNat] }
  else { bits, value, bytes := s.bytes }

/-- `[A-Z2-7]`. -/
def isBase32Char (c : Char) : Bool :=
  ('A' ≤ c && c ≤ 'Z') || ('2' ≤ c && c ≤ '7')

/-- `/^[A-Z2-7]+={0,6}$/`. -/
def matchesBase32 (cs : List Char) : Bool :=
  let padding := cs.dropWhile isBase32Char
  !(cs.takeWhile isBase32Char).isEmpty && padding.all (· == '=')
    && padding.length ≤ 6

/-- `base32DecodeStrict`: the text must be the spelling of what it is read
as. -/
def base32DecodeStrict (input : String) : Except String (List UInt8) :=
  if utf16Length input = 0 ∨ maxBase32SecretLength < utf16Length input
      ∨ matchesBase32 input.toList = false then
    .error "TOTP secret must be canonical RFC 4648 Base32"
  else
    let paddingIndex := input.toList.idxOf? '='
    let unpadded := match paddingIndex with
      | none => input
      | some index => String.ofList (input.toList.take index)
    if paddingIndex ≠ none ∧ utf16Length input % 8 ≠ 0 then
      .error "TOTP secret must have valid RFC 4648 Base32 padding"
    else
      let decoded := (unpadded.toList.foldl Base32Decoder.next .start).bytes
      let canonicalUnpadded := base32Encode decoded
      if canonicalUnpadded ≠ unpadded then
        .error "TOTP secret must be canonical RFC 4648 Base32"
      else
        let expectedPadding := (8 - utf16Length canonicalUnpadded % 8) % 8
        if paddingIndex ≠ none
            ∧ canonicalUnpadded ++ String.ofList (List.replicate expectedPadding '=')
              ≠ input then
          .error "TOTP secret must have valid RFC 4648 Base32 padding"
        else .ok decoded

/-- How many padding characters RFC 4648 has after some bytes: by the
bytes that are left of the last group of five. -/
def base32Padding (b : List UInt8) : Nat :=
  match b.length % 5 with
  | 0 => 0
  | 1 => 6
  | 2 => 4
  | 3 => 3
  | _ => 1

/-- The spelling of some bytes, padded to a multiple of eight. -/
def base32Padded (b : List UInt8) : String :=
  base32Encode b ++ String.ofList (List.replicate (base32Padding b) '=')

-- ========================================================= the accumulator

section Accumulator

variable {value x : BitVec 32} {n w : Nat}

/-- Low bits that are shifted in come after the low bits that were there. -/
theorem toBits_shiftIn (hw : n + w ≤ 32) (hx : x.toNat < 2 ^ w) :
    toBits (n + w) (value <<< w ||| x).toNat
      = toBits n value.toNat ++ toBits w x.toNat := by
  rw [toBits_add]
  have hhigh : ∀ i, x.toNat.testBit (w + i) = false := by
    intro i
    apply Nat.testBit_lt_two_pow
    exact Nat.lt_of_lt_of_le hx (Nat.pow_le_pow_right (by decide) (Nat.le_add_right w i))
  congr 1
  · apply toBits_congr
    intro i hi
    have hlt : w + i < 32 := by omega
    rw [Nat.testBit_shiftRight, BitVec.testBit_toNat, BitVec.getLsbD_or,
      BitVec.getLsbD_shiftLeft, ← BitVec.testBit_toNat x, hhigh]
    simp [hlt, BitVec.testBit_toNat]
  · apply toBits_congr
    intro i hi
    rw [BitVec.testBit_toNat, BitVec.getLsbD_or, BitVec.getLsbD_shiftLeft]
    simp [hi, BitVec.testBit_toNat]

/-- The bits above some low bits, as a number of `k` bits. -/
theorem toBits_shiftOut {k : Nat} (hk : k ≤ n) :
    toBits n value.toNat = toBits k (value >>> (n - k)).toNat
      ++ toBits (n - k) value.toNat := by
  have hn : n = k + (n - k) := by omega
  rw [BitVec.toNat_ushiftRight, ← toBits_add, ← hn]

/-- The bits of zero. -/
theorem toBits_zero : toBits w 0 = List.replicate w false := by
  induction w with
  | zero => rfl
  | succ w ih => rw [toBits, ih, Nat.zero_testBit, List.replicate_succ]

end Accumulator

/-- A mask of five bits is a remainder. -/
theorem toNat_and_31 (v : BitVec 32) : (v &&& 31).toNat = v.toNat % 2 ^ 5 := by
  rw [BitVec.toNat_and]
  exact Nat.and_two_pow_sub_one_eq_mod v.toNat 5

/-- So is one of eight. -/
theorem toNat_and_255 (v : BitVec 32) : (v &&& 255).toNat = v.toNat % 2 ^ 8 := by
  rw [BitVec.toNat_and]
  exact Nat.and_two_pow_sub_one_eq_mod v.toNat 8

-- ============================================================== the encoder

section Encoder

/-- The inner loop writes the groups of the low bits and keeps the rest. -/
theorem emitQuintets_spec (n : Nat) (value : BitVec 32) (output : List Char) :
    (emitQuintets n value output).2
        = output ++ (groups 5 (toBits n value.toNat)).map base32Char
      ∧ toBits (emitQuintets n value output).1 value.toNat
        = rest 5 (toBits n value.toNat)
      ∧ (emitQuintets n value output).1 < 5 := by
  induction n using Nat.strongRecOn generalizing output with
  | ind n ih =>
      unfold emitQuintets
      by_cases hn : 5 ≤ n
      · rw [if_pos hn, toBits_shiftOut hn]
        obtain ⟨houtput, hrest, hlt⟩ := ih (n - 5) (by omega)
          (output ++ [base32Char ((value >>> (n - 5)) &&& 31).toNat])
        rw [groups_append_group (by decide) length_toBits,
          rest_append_group (by decide) length_toBits, ofBits_toBits, ← toNat_and_31]
        refine ⟨?_, hrest, hlt⟩
        rw [houtput, List.append_assoc, List.map_cons, List.singleton_append]
      · have hshort : (toBits n value.toNat).length < 5 := by
          rw [length_toBits]
          omega
        rw [if_neg hn, groups_of_lt hshort, rest_of_lt hshort, List.map_nil,
          List.append_nil]
        exact ⟨rfl, rfl, by omega⟩

/-- The state after a stream of bits. -/
structure Base32Encoder.Reads (s : Base32Encoder) (stream : List Bool) : Prop where
  output : s.output = (groups 5 stream).map base32Char
  pending : toBits s.bits s.value.toNat = rest 5 stream
  few : s.bits < 5

/-- A byte is read into the stream. -/
theorem Base32Encoder.Reads.next {s : Base32Encoder} {stream : List Bool}
    (h : s.Reads stream) (byte : UInt8) :
    (s.next byte).Reads (stream ++ toBits 8 byte.toNat) := by
  have hbyte : (byte.toBitVec.setWidth 32).toNat = byte.toNat := by
    rw [BitVec.toNat_setWidth]
    exact Nat.mod_eq_of_lt (Nat.lt_trans byte.toNat_lt (by decide))
  have hbits : toBits (s.bits + 8) (s.value <<< 8 ||| byte.toBitVec.setWidth 32).toNat
      = rest 5 stream ++ toBits 8 byte.toNat := by
    have hfew := h.few
    rw [toBits_shiftIn (by omega) (by rw [hbyte]; exact byte.toNat_lt), h.pending, hbyte]
  obtain ⟨houtput, hrest, hlt⟩ := emitQuintets_spec (s.bits + 8)
    (s.value <<< 8 ||| byte.toBitVec.setWidth 32) s.output
  rw [hbits] at houtput hrest
  constructor
  · rw [groups_append (by decide), List.map_append, ← h.output]
    exact houtput
  · rw [rest_append (by decide)]
    exact hrest
  · exact hlt

/-- Before the first byte the stream is empty. -/
theorem Base32Encoder.reads_start : Base32Encoder.start.Reads [] where
  output := by
    rw [groups_of_lt (by decide)]
    rfl
  pending := by
    rw [rest_of_lt (by decide)]
    rfl
  few := by decide

/-- Bytes are read one after the other. -/
theorem Base32Encoder.Reads.foldl {s : Base32Encoder} {stream : List Bool}
    (h : s.Reads stream) (b : List UInt8) :
    (b.foldl Base32Encoder.next s).Reads
      (stream ++ (b.map UInt8.toNat).flatMap (toBits 8)) := by
  induction b generalizing s stream with
  | nil =>
      rw [List.map_nil, List.flatMap_nil, List.append_nil]
      exact h
  | cons byte b ih =>
      rw [List.map_cons, List.flatMap_cons, ← List.append_assoc]
      exact ih (h.next byte)

/-- The bits that are left after the last byte are padded with zeros. -/
theorem base32Encode_toList (b : List UInt8) :
    (base32Encode b).toList = (spell 8 5 (b.map UInt8.toNat)).map base32Char := by
  have h := Base32Encoder.reads_start.foldl b
  rw [List.nil_append] at h
  unfold base32Encode spell
  generalize hs : b.foldl Base32Encoder.next .start = s at h
  generalize (b.map UInt8.toNat).flatMap (toBits 8) = stream at h
  have hfew := h.few
  have hlen : s.bits = stream.length % 5 := by
    rw [← length_rest (by decide), ← h.pending, length_toBits]
  rw [String.toList_ofList, groups_append (by decide), List.map_append, ← h.output,
    ← h.pending, missing, ← hlen]
  by_cases hpending : 0 < s.bits
  · have hsum : s.bits + (5 - s.bits) = 5 := by omega
    have hgroup : toBits (s.bits + (5 - s.bits)) (s.value <<< (5 - s.bits) ||| 0#32).toNat
        = toBits s.bits s.value.toNat ++ toBits (5 - s.bits) (0#32).toNat :=
      toBits_shiftIn (by omega) (Nat.two_pow_pos _)
    rw [hsum, BitVec.or_zero, BitVec.toNat_zero, toBits_zero] at hgroup
    have hone : groups 5 (toBits 5 (s.value <<< (5 - s.bits)).toNat)
        = [((s.value <<< (5 - s.bits)) &&& 31).toNat] := by
      rw [groups_group (by decide) length_toBits, ofBits_toBits, toNat_and_31]
    rw [if_pos hpending, Nat.mod_eq_of_lt (by omega), ← hgroup, hone, List.map_singleton]
  · have hzero : s.bits = 0 := by omega
    rw [if_neg hpending, hzero, Nat.sub_zero, Nat.mod_self]
    show s.output = s.output ++ (groups 5 []).map base32Char
    rw [groups_of_lt (by decide), List.map_nil, List.append_nil]

end Encoder

-- ============================================================== the decoder

section Decoder

/-- The text of the alphabet, read once. -/
theorem base32Alphabet_eq : base32Alphabet =
    ['A', 'B', 'C', 'D', 'E', 'F', 'G', 'H', 'I', 'J', 'K', 'L', 'M', 'N',
      'O', 'P', 'Q', 'R', 'S', 'T', 'U', 'V', 'W', 'X', 'Y', 'Z', '2', '3',
      '4', '5', '6', '7'] :=
  String.toList_ofList

/-- A character of the alphabet is found at its index. -/
theorem base32Index_base32Char : ∀ n < 32, base32Index (base32Char n) = n := by
  unfold base32Index base32Char
  rw [base32Alphabet_eq]
  decide +kernel

/-- What is written is of the alphabet. -/
theorem base32Char_isBase32Char : ∀ n < 32, isBase32Char (base32Char n) = true := by
  unfold base32Char
  rw [base32Alphabet_eq]
  decide +kernel

/-- The state after a stream of bits. -/
structure Base32Decoder.Reads (s : Base32Decoder) (stream : List Bool) : Prop where
  bytes : s.bytes = (groups 8 stream).map UInt8.ofNat
  pending : toBits s.bits s.value.toNat = rest 8 stream
  few : s.bits < 8

/-- A character is read into the stream. -/
theorem Base32Decoder.Reads.next {s : Base32Decoder} {stream : List Bool}
    (h : s.Reads stream) {n : Nat} (hn : n < 32) :
    (s.next (base32Char n)).Reads (stream ++ toBits 5 n) := by
  have hfew := h.few
  have hindex : (BitVec.ofInt 32 (base32Index (base32Char n))).toNat = n := by
    rw [base32Index_base32Char n hn, BitVec.toNat_ofInt]
    omega
  have hbits : toBits (s.bits + 5)
      (s.value <<< 5 ||| BitVec.ofInt 32 (base32Index (base32Char n))).toNat
      = rest 8 stream ++ toBits 5 n := by
    rw [toBits_shiftIn (by omega) (by rw [hindex]; exact hn), h.pending, hindex]
  unfold Base32Decoder.next
  generalize s.value <<< 5 ||| BitVec.ofInt 32 (base32Index (base32Char n)) = value at hbits
  simp only
  by_cases hfull : 8 ≤ s.bits + 5
  · rw [if_pos hfull]
    rw [toBits_shiftOut hfull] at hbits
    have hshort : (toBits (s.bits + 5 - 8) value.toNat).length < 8 := by
      rw [length_toBits]
      omega
    constructor
    · rw [groups_append (by decide), List.map_append, ← h.bytes, ← hbits,
        groups_append_group (by decide) length_toBits, groups_of_lt hshort, ofBits_toBits,
        ← toNat_and_255]
      rfl
    · rw [rest_append (by decide), ← hbits, rest_append_group (by decide) length_toBits,
        rest_of_lt hshort]
    · show s.bits + 5 - 8 < 8
      omega
  · rw [if_neg hfull]
    have hshort : (rest 8 stream ++ toBits 5 n).length < 8 := by
      rw [← hbits, length_toBits]
      omega
    constructor
    · rw [groups_append (by decide), groups_of_lt hshort, List.append_nil]
      exact h.bytes
    · rw [rest_append (by decide), rest_of_lt hshort]
      exact hbits
    · show s.bits + 5 < 8
      omega

/-- Before the first character the stream is empty. -/
theorem Base32Decoder.reads_start : Base32Decoder.start.Reads [] where
  bytes := by
    rw [groups_of_lt (by decide)]
    rfl
  pending := by
    rw [rest_of_lt (by decide)]
    rfl
  few := by decide

/-- Characters are read one after the other. -/
theorem Base32Decoder.Reads.foldl {s : Base32Decoder} {stream : List Bool}
    (h : s.Reads stream) {ns : List Nat} (hns : ∀ n ∈ ns, n < 32) :
    ((ns.map base32Char).foldl Base32Decoder.next s).Reads
      (stream ++ ns.flatMap (toBits 5)) := by
  induction ns generalizing s stream with
  | nil =>
      rw [List.flatMap_nil, List.append_nil]
      exact h
  | cons n ns ih =>
      rw [List.flatMap_cons, ← List.append_assoc]
      exact ih (h.next (hns n List.mem_cons_self))
        fun m hm => hns m (List.mem_cons_of_mem _ hm)

/-- The decoder reads what the encoder has written. -/
theorem decode_encode (b : List UInt8) :
    ((base32Encode b).toList.foldl Base32Decoder.next .start).bytes = b := by
  have hns : ∀ n ∈ spell 8 5 (b.map UInt8.toNat), n < 32 :=
    fun n hn => lt_of_mem_spell (by decide) hn
  have h := Base32Decoder.reads_start.foldl hns
  have hbytes : ∀ n ∈ b.map UInt8.toNat, n < 2 ^ 8 := by
    intro n hn
    obtain ⟨byte, -, rfl⟩ := List.mem_map.mp hn
    exact byte.toNat_lt
  rw [base32Encode_toList, h.bytes, List.nil_append,
    groups_spell (by decide) (by decide) hbytes, List.map_map]
  simp [Function.comp_def]

end Decoder

-- ================================================================= strictness

section Strict

variable {s : String} {b : List UInt8} {cs : List Char}

/-- Every character of an encoding is of the alphabet. -/
theorem isBase32Char_of_mem {c : Char} (hc : c ∈ (base32Encode b).toList) :
    isBase32Char c = true := by
  rw [base32Encode_toList] at hc
  obtain ⟨n, hn, rfl⟩ := List.mem_map.mp hc
  exact base32Char_isBase32Char n (lt_of_mem_spell (by decide) hn)

/-- Every five bits make a character, and what is left another one. -/
theorem length_base32Encode :
    (base32Encode b).toList.length = (8 * b.length + 4) / 5 := by
  rw [base32Encode_toList, List.length_map, length_spell (by decide), List.length_map]
  unfold missing
  rw [length_flatMap_toBits, List.length_map]
  omega

/-- Padding fills the last group of eight. -/
theorem length_add_base32Padding :
    ((base32Encode b).toList.length + base32Padding b) % 8 = 0 ∧ base32Padding b ≤ 6
      ∧ (8 - (base32Encode b).toList.length % 8) % 8 = base32Padding b := by
  rw [length_base32Encode]
  unfold base32Padding
  obtain h | h | h | h | h : b.length % 5 = 0 ∨ b.length % 5 = 1 ∨ b.length % 5 = 2
      ∨ b.length % 5 = 3 ∨ b.length % 5 = 4 := by
    omega
  all_goals
    simp only [h]
    omega

/-- A character of the alphabet is one code unit. -/
theorem toNat_lt_of_isBase32Char {c : Char} (h : isBase32Char c = true) :
    c.toNat < 65536 := by
  unfold isBase32Char at h
  simp only [Bool.or_eq_true, Bool.and_eq_true, decide_eq_true_eq] at h
  rcases h with ⟨-, h⟩ | ⟨-, h⟩
  · have : c.toNat ≤ 'Z'.toNat := h
    simp at this
    omega
  · have : c.toNat ≤ '7'.toNat := h
    simp at this
    omega

/-- Bytes are spelt by some characters. -/
theorem base32Encode_ne_nil (hb : b ≠ []) : (base32Encode b).toList ≠ [] := by
  intro hnil
  have hlen := length_base32Encode (b := b)
  have hpos := List.length_pos_iff.mpr hb
  rw [hnil, List.length_nil] at hlen
  omega

/-- A character is found where it stands first. -/
theorem idxOf?_append_cons {c : Char} {rest : List Char} (h : c ∉ cs) :
    (cs ++ c :: rest).idxOf? c = some cs.length := by
  induction cs with
  | nil => simp [List.idxOf?_cons]
  | cons d cs ih =>
      rw [List.mem_cons, not_or] at h
      have hdc : (d == c) = false := by simpa using Ne.symm h.1
      rw [List.cons_append, List.idxOf?_cons, hdc, ih h.2]
      rfl

/-- A spelling has as many code units as characters. -/
theorem utf16Length_base32Encode :
    utf16Length (base32Encode b) = (base32Encode b).toList.length :=
  utf16Length_eq fun _ hc => toNat_lt_of_isBase32Char (isBase32Char_of_mem hc)

/-- A spelling has no padding of its own. -/
theorem padding_not_mem_base32Encode : '=' ∉ (base32Encode b).toList := by
  intro hmem
  exact absurd (isBase32Char_of_mem hmem) (by decide)

section Padded

variable {n : Nat} (hlist : s.toList = (base32Encode b).toList ++ List.replicate n '=')
include hlist

/-- A padded spelling is longer by its padding. -/
theorem utf16Length_padded : utf16Length s = (base32Encode b).toList.length + n := by
  rw [utf16Length_eq, hlist, List.length_append, List.length_replicate]
  intro c hc
  rw [hlist] at hc
  rcases List.mem_append.mp hc with hc | hc
  · exact toNat_lt_of_isBase32Char (isBase32Char_of_mem hc)
  · rw [List.eq_of_mem_replicate hc]
    decide

/-- It has the form that the decoder asks for. -/
theorem matchesBase32_padded (hb : b ≠ []) (hn : n ≤ 6) :
    matchesBase32 s.toList = true := by
  have hdrop : s.toList.dropWhile isBase32Char = List.replicate n '=' := by
    rw [hlist, List.dropWhile_append_of_pos fun _ hc => isBase32Char_of_mem hc]
    cases n with
    | zero => rfl
    | succ n => rw [List.replicate_succ, List.dropWhile_cons_of_neg (by decide)]
  have htake : s.toList.takeWhile isBase32Char = (base32Encode b).toList := by
    have hsplit := List.takeWhile_append_dropWhile (p := isBase32Char) (l := s.toList)
    rw [hdrop, hlist] at hsplit
    rw [hlist]
    exact List.append_cancel_right hsplit
  have hempty : (base32Encode b).toList.isEmpty = false := by
    rw [List.isEmpty_eq_false_iff]
    exact base32Encode_ne_nil hb
  unfold matchesBase32
  rw [htake, hdrop, hempty]
  simp [hn]

end Padded

/-- An encoding, padded or not, is read up to the padding. The encoder leaves
less than a quintet behind and fills it with zeros, so after the last
character the decoder holds less than a byte, and that is zero. -/
theorem base32DecodeStrict_padded {n : Nat} (hb : b ≠ [])
    (hn : n = 0 ∨ n = base32Padding b)
    (hs : s = base32Encode b ++ String.ofList (List.replicate n '='))
    (hlen : utf16Length s ≤ maxBase32SecretLength) :
    base32DecodeStrict s = .ok b := by
  have hlist : s.toList = (base32Encode b).toList ++ List.replicate n '=' := by
    rw [hs, String.toList_append, String.toList_ofList]
  obtain ⟨hmod, hsix, hexpected⟩ := length_add_base32Padding (b := b)
  have hutf := utf16Length_padded hlist
  have hmatches : matchesBase32 s.toList = true := by
    apply matchesBase32_padded hlist hb
    rcases hn with rfl | rfl
    · decide
    · exact hsix
  have hpos : utf16Length s ≠ 0 := by
    have := List.length_pos_iff.mpr (base32Encode_ne_nil hb)
    omega
  have hguard : ¬ (utf16Length s = 0 ∨ maxBase32SecretLength < utf16Length s
      ∨ matchesBase32 s.toList = false) := by
    rw [hmatches]
    simp [hpos, hlen]
  unfold base32DecodeStrict
  rw [if_neg hguard]
  cases n with
  | zero =>
      have hsame : s = base32Encode b := by
        rw [← String.toList_inj, hlist]
        exact List.append_nil _
      have hnone : s.toList.idxOf? '=' = none := by
        rw [hsame]
        exact List.idxOf?_eq_none_iff.mpr padding_not_mem_base32Encode
      simp only [hnone]
      simp [hsame, decode_encode]
  | succ n =>
      have hn' : n + 1 = base32Padding b := by
        rcases hn with hn | hn
        · cases hn
        · exact hn
      have hsome : s.toList.idxOf? '=' = some (base32Encode b).toList.length := by
        rw [hlist, List.replicate_succ]
        exact idxOf?_append_cons padding_not_mem_base32Encode
      have htaken : String.ofList (s.toList.take (base32Encode b).toList.length)
          = base32Encode b := by
        rw [hlist, List.take_left' rfl, String.ofList_toList]
      have hwhole : utf16Length s % 8 = 0 := by
        rw [hutf, hn']
        exact hmod
      simp only [hsome, htaken, hwhole, decode_encode, utf16Length_base32Encode,
        hexpected, ← hn', ← hs]
      simp

/-- What is accepted is an encoding, padded or not. -/
theorem spelling_of_base32DecodeStrict (h : base32DecodeStrict s = .ok b) :
    utf16Length s ≤ maxBase32SecretLength ∧ b ≠ []
      ∧ (s = base32Encode b ∨ s = base32Padded b) := by
  unfold base32DecodeStrict at h
  rw [ite_error_eq_ok, not_or, not_or, Nat.not_lt] at h
  obtain ⟨⟨hpos, hlen, -⟩, h⟩ := h
  refine ⟨hlen, ?_⟩
  have hempty : ∀ t : String, utf16Length t = 0 → s ≠ t := by
    intro t ht hst
    rw [hst] at hpos
    exact hpos ht
  simp only [ite_error_eq_ok, Except.ok.injEq] at h
  obtain ⟨-, hcanonical, hpadding, rfl⟩ := h
  rw [not_not] at hcanonical
  cases hindex : s.toList.idxOf? '=' with
  | none =>
      simp only [hindex] at hcanonical ⊢
      refine ⟨fun hnil => ?_, Or.inl hcanonical.symm⟩
      rw [hnil] at hcanonical
      exact hempty _ rfl hcanonical.symm
  | some index =>
      simp only [hindex, ne_eq, reduceCtorEq, not_false_eq_true, true_and,
        not_not] at hpadding ⊢
      generalize ((String.ofList (s.toList.take index)).toList.foldl
        Base32Decoder.next .start).bytes = b at hpadding ⊢
      rw [utf16Length_base32Encode, length_add_base32Padding.2.2] at hpadding
      refine ⟨fun hnil => ?_, Or.inr hpadding.symm⟩
      rw [hnil] at hpadding
      exact hempty _ rfl hpadding.symm

end Strict

/-- Base32 is an exact codec: a secret is accepted as it is encoded, with the
padding of RFC 4648 or without, and in no other spelling. Encoder and decoder
keep up to a quintet or a byte in a 32-bit accumulator, and what it holds is
an invariant of each (`Base32Encoder.Reads`, `Base32Decoder.Reads`). -/
theorem base32_exact_codec :
    -- the round trip
    (∀ b : List UInt8, b ≠ [] → utf16Length (base32Encode b) ≤ maxBase32SecretLength →
      base32DecodeStrict (base32Encode b) = .ok b)
    -- the texts that are accepted
    ∧ (∀ s b, utf16Length s ≤ maxBase32SecretLength →
      (base32DecodeStrict s = .ok b
        ↔ b ≠ [] ∧ (s = base32Encode b ∨ s = base32Padded b)))
    -- the padding
    ∧ (∀ b : List UInt8, base32Padding b < 8
      ∧ (utf16Length (base32Encode b) + base32Padding b) % 8 = 0)
    -- at most two spellings, of any length
    ∧ ∀ s b, base32DecodeStrict s = .ok b → s = base32Encode b ∨ s = base32Padded b := by
  have hplain : ∀ b : List UInt8,
      base32Encode b = base32Encode b ++ String.ofList (List.replicate 0 '=') := by
    intro b
    rw [← String.toList_inj, String.toList_append, String.toList_ofList,
      List.replicate_zero, List.append_nil]
  refine ⟨?_, ?_, ?_, ?_⟩
  · intro b hb hlen
    exact base32DecodeStrict_padded hb (Or.inl rfl) (hplain b) hlen
  · intro s b hlen
    constructor
    · intro h
      exact (spelling_of_base32DecodeStrict h).2
    · intro h
      obtain ⟨hb, hs | hs⟩ := h
      · rw [hplain b] at hs
        exact base32DecodeStrict_padded hb (Or.inl rfl) hs hlen
      · exact base32DecodeStrict_padded hb (Or.inr rfl) hs hlen
  · intro b
    have hutf : utf16Length (base32Encode b) = (base32Encode b).toList.length :=
      utf16Length_eq fun c hc => toNat_lt_of_isBase32Char (isBase32Char_of_mem hc)
    obtain ⟨hmod, hsix, -⟩ := length_add_base32Padding (b := b)
    rw [hutf]
    exact ⟨by omega, hmod⟩
  · intro s b h
    exact (spelling_of_base32DecodeStrict h).2.2

end Skrynia
