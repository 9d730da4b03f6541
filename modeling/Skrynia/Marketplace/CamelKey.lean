/-
The camel case of a field key.

`camelKey` deletes an underscore before a letter or a digit and puts the
letter in upper case. An upper case letter remembers its underscore; a
digit does not. So two keys of the key pattern become equal just when
they are equal without the underscores that stand directly before a
digit (`camelKey_eq_iff`), as `a_1` and `a1` are.

# Shape of the proof

`uncamelChars` reads the underscores back from the upper case letters,
which gives the key without the forgotten ones (`joinDigits`); and the
camel case can be computed from that (`camelLetters`).
-/
import Skrynia.Catalog.Validation

namespace Skrynia

/-- The replacement of `/_([a-z0-9])/g`, from left to right. -/
def camelChars : List Char → List Char
  | [] => []
  | [c] => [c]
  | c :: d :: rest =>
      if c = '_' ∧ (d.isLower || d.isDigit) then
        d.toUpper :: camelChars rest
      else c :: camelChars (d :: rest)

/-- `camelKey`. -/
def camelKey (value : String) : String :=
  String.ofList (camelChars value.toList)

/-- The key without the underscores directly before a digit. -/
def joinDigits : List Char → List Char
  | [] => []
  | [c] => [c]
  | c :: d :: rest =>
      if c = '_' ∧ d.isDigit then d :: joinDigits rest
      else c :: joinDigits (d :: rest)

/-- The keys differ at most in underscores directly before a digit. -/
def SameLetters (key key' : String) : Prop :=
  joinDigits key.toList = joinDigits key'.toList

instance (key key' : String) : Decidable (SameLetters key key') :=
  inferInstanceAs (Decidable (_ = _))

-- ================================================================== letters

/-- The characters of the key pattern. -/
def IsKeyChar (c : Char) : Prop :=
  c.isLower = true ∨ c.isDigit = true ∨ c = '_'

/-- The lower case letters, by their numbers. -/
theorem isLower_iff_toNat {c : Char} :
    c.isLower = true ↔ 97 ≤ c.toNat ∧ c.toNat ≤ 122 := by
  change (decide (97 ≤ c.val) && decide (c.val ≤ 122)) = true ↔ _
  rw [Bool.and_eq_true, decide_eq_true_eq, decide_eq_true_eq]
  exact Iff.rfl

/-- The upper case letters. -/
theorem isUpper_iff_toNat {c : Char} :
    c.isUpper = true ↔ 65 ≤ c.toNat ∧ c.toNat ≤ 90 := by
  change decide (65 ≤ c.val ∧ c.val ≤ 90) = true ↔ _
  rw [decide_eq_true_eq]
  exact Iff.rfl

/-- A lower case letter is read back from its upper case. -/
theorem toUpper_of_isLower {c : Char} (h : c.isLower = true) :
    c.toUpper.isUpper = true ∧ c.toUpper.toLower = c := by
  have key : ∀ i : Fin 26, (Char.ofNat (97 + i)).toUpper.isUpper = true
      ∧ (Char.ofNat (97 + i)).toUpper.toLower = Char.ofNat (97 + i) := by
    decide
  rw [isLower_iff_toNat] at h
  have hc : Char.ofNat (97 + (c.toNat - 97)) = c := by
    rw [Nat.add_sub_cancel' h.1, Char.ofNat_toNat]
  have := key ⟨c.toNat - 97, by omega⟩
  rwa [hc] at this

/-- A digit has no upper case. -/
theorem toUpper_of_isDigit {c : Char} (h : c.isDigit = true) :
    c.toUpper = c := by
  have hrange := Char.isDigit_iff_toNat.mp h
  unfold Char.toUpper
  split
  · next hlower =>
    have h' : 97 ≤ c.toNat := hlower.1
    simp at hrange
    omega
  · rfl

/-- A key has no upper case letter. -/
theorem isUpper_of_isKeyChar {c : Char} (h : IsKeyChar c) :
    c.isUpper = false := by
  rw [Bool.eq_false_iff]
  intro hup
  rw [isUpper_iff_toNat] at hup
  rcases h with h | h | rfl
  · rw [isLower_iff_toNat] at h
    omega
  · have hrange := Char.isDigit_iff_toNat.mp h
    simp at hrange
    omega
  · exact absurd hup (by decide)

/-- A letter is no digit. -/
theorem not_digit_of_isLower {c : Char} (h : c.isLower = true) :
    c.isDigit = false := by
  rw [Bool.eq_false_iff]
  intro hd
  have hrange := Char.isDigit_iff_toNat.mp hd
  rw [isLower_iff_toNat] at h
  simp at hrange
  omega

-- ================================================================ reading back

/-- The underscores that the upper case letters remember. -/
def uncamelChars (cs : List Char) : List Char :=
  cs.flatMap fun c => if c.isUpper then ['_', c.toLower] else [c]

/-- A character of a key is read as itself. -/
theorem uncamelChars_cons_key {c : Char} {cs : List Char} (h : IsKeyChar c) :
    uncamelChars (c :: cs) = c :: uncamelChars cs := by
  simp [uncamelChars, isUpper_of_isKeyChar h]

/-- An upper case letter is read with its underscore. -/
theorem uncamelChars_cons_upper {c : Char} {cs : List Char}
    (h : c.isLower = true) :
    uncamelChars (c.toUpper :: cs) = '_' :: c :: uncamelChars cs := by
  simp [uncamelChars, toUpper_of_isLower h]

/-- Only underscores are forgotten. -/
theorem joinDigits_cons {c : Char} {cs : List Char} (h : c ≠ '_') :
    joinDigits (c :: cs) = c :: joinDigits cs := by
  cases cs with
  | nil => rfl
  | cons d cs => rw [joinDigits, if_neg fun h' => h h'.1]

/-- The camel case is read back, but for the forgotten underscores. -/
theorem uncamelChars_camelChars {cs : List Char}
    (h : ∀ c ∈ cs, IsKeyChar c) :
    uncamelChars (camelChars cs) = joinDigits cs := by
  induction cs using camelChars.induct with
  | case1 => rfl
  | case2 c => exact uncamelChars_cons_key (h c (by simp))
  | case3 c d rest hcond ih =>
      obtain ⟨rfl, hd⟩ := hcond
      have ih := ih fun e he => h e (by simp [he])
      rw [camelChars, if_pos ⟨rfl, hd⟩]
      by_cases hdigit : d.isDigit = true
      · rw [joinDigits, if_pos ⟨rfl, hdigit⟩, toUpper_of_isDigit hdigit,
          uncamelChars_cons_key (.inr (.inl hdigit)), ih]
      · have hlower : d.isLower = true := by simpa [hdigit] using hd
        have hne : d ≠ '_' := by
          intro heq
          subst heq
          exact absurd hlower (by decide)
        rw [joinDigits, if_neg fun h' => hdigit h'.2,
          uncamelChars_cons_upper hlower, joinDigits_cons hne, ih]
  | case4 c d rest hcond ih =>
      have ih := ih fun e he => h e (List.mem_cons_of_mem c he)
      rw [camelChars, if_neg hcond, joinDigits, if_neg, 
        uncamelChars_cons_key (h c (by simp)), ih]
      intro h
      obtain ⟨hc, hd⟩ := h
      exact hcond ⟨hc, by simp [hd]⟩

-- ============================================== what the digits forget

/-- The camel case of the letters only. -/
def camelLetters : List Char → List Char
  | [] => []
  | [c] => [c]
  | c :: d :: rest =>
      if c = '_' ∧ d.isLower then d.toUpper :: camelLetters rest
      else c :: camelLetters (d :: rest)

/-- A character that begins no word stays. -/
theorem camelLetters_cons {c : Char} {cs : List Char}
    (h : c = '_' → ∀ d rest, cs = d :: rest → d.isLower = false) :
    camelLetters (c :: cs) = c :: camelLetters cs := by
  cases cs with
  | nil => rfl
  | cons d rest =>
      rw [camelLetters, if_neg]
      intro h
      obtain ⟨hc, hd⟩ := h
      rw [h hc d rest rfl] at hd
      cases hd

/-- No letter follows where an underscore stood: a digit or another
underscore does. -/
theorem head_joinDigits {cs rest : List Char} {d : Char}
    (h : joinDigits ('_' :: cs) = d :: rest) : d.isLower = false := by
  cases cs with
  | nil =>
      cases h
      rfl
  | cons e cs =>
      rw [joinDigits] at h
      split at h
      · next he =>
        cases h
        rw [Bool.eq_false_iff]
        intro hlower
        rw [not_digit_of_isLower hlower] at he
        cases he.2
      · cases h
        rfl

/-- The camel case is that of the key without them. -/
theorem camelChars_eq {cs : List Char} (h : ∀ c ∈ cs, IsKeyChar c) :
    camelChars cs = camelLetters (joinDigits cs) := by
  induction cs using camelChars.induct with
  | case1 => rfl
  | case2 c => rfl
  | case3 c d rest hcond ih =>
      obtain ⟨rfl, hd⟩ := hcond
      have ih := ih fun e he => h e (by simp [he])
      rw [camelChars, if_pos ⟨rfl, hd⟩, ih]
      by_cases hdigit : d.isDigit = true
      · have hne : d ≠ '_' := by
          intro heq
          subst heq
          exact absurd hdigit (by decide)
        rw [joinDigits, if_pos ⟨rfl, hdigit⟩, toUpper_of_isDigit hdigit,
          camelLetters_cons fun h' => absurd h' hne]
      · have hlower : d.isLower = true := by simpa [hdigit] using hd
        have hne : d ≠ '_' := by
          intro heq
          subst heq
          exact absurd hlower (by decide)
        rw [joinDigits, if_neg fun h' => hdigit h'.2, joinDigits_cons hne,
          camelLetters, if_pos ⟨rfl, hlower⟩]
  | case4 c d rest hcond ih =>
      have ih := ih fun e he => h e (List.mem_cons_of_mem c he)
      rw [camelChars, if_neg hcond, joinDigits, if_neg, ih,
        camelLetters_cons]
      · intro heq' e rest' heq
        subst heq'
        have hd : d = '_' := by
          rcases h d (by simp) with hd | hd | hd
          · exact absurd ⟨rfl, by simp [hd]⟩ hcond
          · exact absurd ⟨rfl, by simp [hd]⟩ hcond
          · exact hd
        rw [hd] at heq
        exact head_joinDigits heq
      · intro h
        obtain ⟨hc, hd⟩ := h
        exact hcond ⟨hc, by simp [hd]⟩

-- ====================================================================== keys

/-- A key that is accepted has characters of keys only. -/
theorem isKeyChar_of_isFieldKey {key : String} (h : isFieldKey key = true) :
    ∀ c ∈ key.toList, IsKeyChar c := by
  unfold isFieldKey at h
  cases hkey : key.toList with
  | nil => exact nofun
  | cons first rest =>
      simp only [hkey, Bool.and_eq_true, List.all_eq_true, Bool.or_eq_true,
        beq_iff_eq] at h
      intro c hc
      rcases List.mem_cons.mp hc with rfl | hc
      · exact .inl h.1
      · rcases h.2 c hc with (hl | hd) | hu
        · exact .inl hl
        · exact .inr (.inl hd)
        · exact .inr (.inr hu)

/-- Two keys get one name when only underscores before digits tell them
apart. -/
theorem camelKey_eq_iff {key key' : String} (h : isFieldKey key = true)
    (h' : isFieldKey key' = true) :
    camelKey key = camelKey key' ↔ SameLetters key key' := by
  have hkey := isKeyChar_of_isFieldKey h
  have hkey' := isKeyChar_of_isFieldKey h'
  unfold camelKey SameLetters
  rw [String.ofList_inj]
  constructor
  · intro heq
    rw [← uncamelChars_camelChars hkey, ← uncamelChars_camelChars hkey', heq]
  · intro heq
    rw [camelChars_eq hkey, camelChars_eq hkey', heq]

end Skrynia
