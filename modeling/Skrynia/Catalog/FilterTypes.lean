/-
Filters of the active schema over the products of all versions.

A product that some version accepted stores, under each key, what a field
of that version allows. It is harmless under a filterable field of the
active version where the key has kept the kind of its values, and also
where a number or a flag is now a list (`harmless_of_kept`). Where it has
not, one old product is enough to make a request fail
(`textUnderNumber_fails`).
-/
import Skrynia.Catalog.MetadataFilters
import Skrynia.Lib.Decimal

namespace Skrynia

open Where

-- ================================================================== kinds

/-- The kind of the values that a field type allows. -/
inductive ValueKind where
  | number
  | flag
  | text
  | list
deriving DecidableEq

/-- The kind of values that a field of the type stores. -/
def CatalogFieldType.valueKind : CatalogFieldType → ValueKind
  | number => .number
  | boolean | checkbox => .flag
  | select | text | textarea => .text
  | multiselect => .list

/-- Values of the one type are not misread under the other. -/
def CatalogFieldType.KeptAs (old new : CatalogFieldType) : Prop :=
  old.valueKind = new.valueKind
    ∨ new.valueKind = .list ∧ old.valueKind ≠ .text

instance (old new : CatalogFieldType) : Decidable (old.KeptAs new) :=
  inferInstanceAs (Decidable (_ ∨ _ ∧ _))

/-- Every key that the active version filters has been kept. -/
def KeepsTypes (history : List PublishedSchema) (active : PublishedSchema) :
    Prop :=
  ∀ older ∈ history, ∀ g ∈ older.schema.fields, ∀ f ∈ active.schema.fields,
    f.filterable = true → g.key = f.key → g.type.KeptAs f.type

/-- Accepted under a version of the history. -/
def ValidatedUnder (history : List PublishedSchema) (m : Metadata) : Prop :=
  ∃ older ∈ history, ∃ raw,
    validateMetadataAgainstSchema older.schema.catalog raw = .ok m

section Kinds

variable {conv : TextConversions} {field : CatalogField} {value : JsValue}

/-- What a field's check lets through, by the kind of its type. -/
theorem kind_of_check (h : field.check value = .ok ()) :
    match field.type.valueKind with
    | .number => ∃ x, value = .num x
    | .flag => ∃ b, value = .bool b
    | .text => ∃ s, value = .str s
    | .list => ∃ items, value = .arr items := by
  unfold CatalogField.check at h
  cases htype : field.type with
  | number =>
      simp only [htype] at h
      cases value with
      | num x => exact ⟨x, rfl⟩
      | _ => cases h
  | boolean | checkbox =>
      simp only [htype] at h
      cases value with
      | bool b => exact ⟨b, rfl⟩
      | _ => cases h
  | select | text | textarea =>
      simp only [htype] at h
      cases value with
      | str s => exact ⟨s, rfl⟩
      | _ => cases h
  | multiselect =>
      simp only [htype] at h
      cases value with
      | arr items => exact ⟨items, rfl⟩
      | _ => cases h

/-- An accepted value is harmless under a type that keeps its kind. -/
theorem harmless_of_check {type : CatalogFieldType}
    (h : field.check value = .ok ()) (hkept : field.type.KeptAs type) :
    type.Harmless conv (some value.stored) := by
  have hkind := kind_of_check h
  unfold CatalogFieldType.KeptAs at hkept
  unfold CatalogFieldType.Harmless
  revert hkind hkept
  cases field.type.valueKind with
  | number =>
      intro hkept h
      obtain ⟨x, rfl⟩ := h
      cases type with
      | number =>
          cases x with
          | finite q => exact Or.inr ⟨q, rfl⟩
          | infinite negative => exact Or.inl rfl
      | multiselect =>
          cases x with
          | finite q => exact nofun
          | infinite negative => exact nofun
      | _ => exact absurd hkept (by decide)
  | flag =>
      intro hkept h
      obtain ⟨b, rfl⟩ := h
      cases type with
      | boolean | checkbox => exact Or.inr ⟨b, rfl⟩
      | multiselect => exact nofun
      | _ => exact absurd hkept (by decide)
  | text =>
      intro hkept h
      obtain ⟨s, rfl⟩ := h
      cases type with
      | select | text | textarea => exact Or.inr ⟨s, rfl⟩
      | _ => exact absurd hkept (by decide)
  | list =>
      intro hkept h
      obtain ⟨items, rfl⟩ := h
      cases type with
      | multiselect => exact nofun
      | _ => exact absurd hkept (by decide)

/-- A key with no value is harmless under every type. -/
theorem harmless_null (type : CatalogFieldType) :
    type.Harmless conv none := by
  unfold CatalogFieldType.Harmless
  cases type with
  | multiselect => exact nofun
  | _ => exact Or.inl rfl

end Kinds

/-- Where no key has changed, whatever a version accepted is harmless. -/
theorem harmless_of_kept {conv : TextConversions}
    {history : List PublishedSchema} {active : PublishedSchema} {m : Metadata}
    (hkept : KeepsTypes history active) (hm : ValidatedUnder history m)
    {f : FilterField} (hf : f ∈ active.schema.fields)
    (hfilterable : f.filterable = true) :
    f.type.Harmless conv (m.stored f.key) := by
  obtain ⟨older, holder, raw, hvalid⟩ := hm
  obtain ⟨haccepts, rfl⟩ := validateMetadataAgainstSchema_eq_ok.mp hvalid
  unfold Metadata.stored Metadata.cleaned
  by_cases hkey : (∃ g ∈ older.schema.catalog.fields, g.key = f.key)
      ∧ (raw.property f.key).isEmpty = false
  · obtain ⟨⟨g, hg, hgf⟩, hempty⟩ := hkey
    obtain ⟨g', hg', rfl⟩ := List.mem_map.mp hg
    have hcheck := haccepts _ hg
    unfold CatalogField.Accepts at hcheck
    rw [hgf, if_neg (by rw [hempty]; exact Bool.false_ne_true)] at hcheck
    rw [if_pos ⟨⟨_, hg, hgf⟩, hempty⟩, Option.map_some]
    exact harmless_of_check hcheck (hkept older holder g' hg' f hf hfilterable hgf)
  · rw [if_neg hkey]
    exact harmless_null f.type

/-- Filtering is right for a request just when it reads every product
right, and for all requests just when what the products store under the
filterable keys is harmless; it is, where no key has changed its type. -/
theorem filters_right_iff (conv : TextConversions) (active : PublishedSchema)
    (products : List Metadata) :
    (∀ metaQuery startParamIndex built,
      buildMetadataFilterClauses conv active.schema metaQuery startParamIndex
        = .ok built →
      (SelectsMatching conv active.schema products metaQuery startParamIndex
          built
        ↔ ∀ m ∈ products, ReadRight conv
          (givenFilters conv active.schema metaQuery) m.stored))
    ∧ ((∀ metaQuery startParamIndex built,
        buildMetadataFilterClauses conv active.schema metaQuery startParamIndex
          = .ok built →
        SelectsMatching conv active.schema products metaQuery startParamIndex
          built)
      ↔ ∀ m ∈ products, ∀ f ∈ active.schema.fields, f.filterable = true →
        f.type.Harmless conv (m.stored f.key))
    ∧ ∀ history : List PublishedSchema, KeepsTypes history active →
      (∀ m ∈ products, ValidatedUnder history m) →
      ∀ metaQuery startParamIndex built,
      buildMetadataFilterClauses conv active.schema metaQuery startParamIndex
        = .ok built →
      SelectsMatching conv active.schema products metaQuery startParamIndex
        built := by
  have hiff : (∀ metaQuery startParamIndex built,
        buildMetadataFilterClauses conv active.schema metaQuery startParamIndex
          = .ok built →
        SelectsMatching conv active.schema products metaQuery startParamIndex
          built)
      ↔ ∀ m ∈ products, ∀ f ∈ active.schema.fields, f.filterable = true →
        f.type.Harmless conv (m.stored f.key) := by
    constructor
    · intro h m hm f hf hfilterable
      refine harmless_of_readRight hf hfilterable ?_
      intro metaQuery built hbuilt
      exact (selectsMatching_iff hbuilt).mp (h metaQuery 0 built hbuilt) m hm
    · intro h metaQuery startParamIndex built hbuilt
      refine (selectsMatching_iff hbuilt).mpr ?_
      intro m hm
      have hreads : ∀ f ∈ givenFilters conv active.schema metaQuery,
          (∃ r, f.test.sql conv (m.stored f.key) = .ok r)
          ∧ (f.test.sql conv (m.stored f.key) = .ok (some true) →
            f.test.HasType (m.stored f.key)) := by
        intro f hf
        obtain ⟨field, hfield, rawValue, hfilterable, hkey, hraw, htest⟩ :=
          mem_givenFilters hf
        have hharmless := h m hm field hfield hfilterable
        rw [hkey] at hharmless
        exact hharmless.reads htest hraw
      refine ⟨fun f hf => (hreads f hf).1, ?_⟩
      intro hpass f hf
      exact (hreads f hf).2 (hpass f hf)
  refine ⟨fun metaQuery startParamIndex built hbuilt =>
    selectsMatching_iff hbuilt, hiff, ?_⟩
  intro history hkept hproducts
  refine hiff.mpr ?_
  intro m hm f hf hfilterable
  exact harmless_of_kept hkept (hproducts m hm) hf hfilterable

-- =========================================================== a changed type

section Fractions

open Decimal

/-- A whole number by its digits, another one as a fraction. -/
def fractionText (q : Rat) : List Char :=
  intDigits q.num ++ if q.den = 1 then [] else '/' :: Nat.toDigits 10 q.den

/-- Reads a fraction `a/b` or an integer back. -/
def readFraction (cs : List Char) : Option Rat :=
  if IsInteger (cs.takeWhile (· ≠ '/')) then
    match cs.dropWhile (· ≠ '/') with
    | [] => some (intValue (cs.takeWhile (· ≠ '/')))
    | _ :: den => some (intValue (cs.takeWhile (· ≠ '/')) / value den)
  else none

/-- An integer is printed as one. -/
theorem isInteger_intDigits (x : Int) : IsInteger (intDigits x) := by
  refine isInteger_of_canonicalInt (canonicalInt_iff.mpr ?_)
  rw [intValue_intDigits]

/-- Neither a digit nor a minus sign is a slash. -/
theorem ne_slash_of_mem_intDigits {x : Int} {c : Char}
    (h : c ∈ intDigits x) : c ≠ '/' := by
  have hdigits : ∀ n, c ∈ Nat.toDigits 10 n → c ≠ '/' := by
    intro n hmem heq
    subst heq
    exact absurd (isNumeral_toDigits.2 _ hmem) (by decide)
  unfold intDigits at h
  split at h
  · rcases List.mem_cons.mp h with rfl | hmem
    · decide
    · exact hdigits _ hmem
  · exact hdigits _ h

/-- A rational is read back as it was printed. -/
theorem readFraction_fractionText (q : Rat) :
    readFraction (fractionText q) = some q := by
  have hall : ∀ c ∈ intDigits q.num, (decide (c ≠ '/')) = true :=
    fun c hc => decide_eq_true (ne_slash_of_mem_intDigits hc)
  unfold fractionText readFraction
  by_cases hden : q.den = 1
  · rw [if_pos hden, List.append_nil, List.takeWhile_eq_self_iff.mpr hall,
      List.dropWhile_eq_nil_iff.mpr hall, if_pos (isInteger_intDigits _),
      intValue_intDigits]
    exact congrArg some (Rat.coe_int_num_of_den_eq_one hden)
  · rw [if_neg hden, List.takeWhile_append_of_pos hall,
      List.dropWhile_append_of_pos hall]
    simp [isInteger_intDigits, Rat.num_div_den]

end Fractions

/-- Conversions of whole numbers, fractions and the two flags. -/
def fractionConversions : TextConversions where
  number
    | .str s =>
        if s = "-Infinity" then some (.infinite true)
        else (readFraction s.toList).map .finite
    | _ => none
  numberText q := String.ofList (fractionText q)
  jsonText _ := "[]"
  numeric s := (readFraction s.toList).map fun q => .number (.finite q)
  boolean s :=
    if s = "true" then some true else if s = "false" then some false else none
  number_infinity := rfl
  numeric_numberText q := by
    rw [String.toList_ofList, readFraction_fractionText]
    rfl
  boolean_true := rfl
  boolean_false := rfl
  numberText_ne q := by
    intro hempty
    have hread := readFraction_fractionText q
    rw [show fractionText q = [] from by
      rw [← String.toList_ofList (l := fractionText q), hempty]
      rfl] at hread
    cases hread
  jsonText_ne _ := by decide

/-- A field `level`. -/
def levelField (type : CatalogFieldType) : FilterFieldInput where
  key := "level"
  label := "Level"
  type := type
  required := false
  options := none
  min := none
  max := none
  filterable := true

/-- A version in which `level` is a text. -/
def levelAsText : PublishedSchema where
  input := [levelField .text]
  accepted := ⟨_, rfl⟩

/-- A later version in which `level` is a number. -/
def levelAsNumber : PublishedSchema where
  input := [levelField .number]
  accepted := ⟨_, rfl⟩

/-- What a product of the first version may have stored. -/
def levelAbc : Metadata :=
  fun key => if key = "level" then some (.str "abc") else none

/-- `meta[level][min]=5`. -/
def levelFromFive : List (String × JsValue) :=
  [("level", .obj [("min", .str "5")])]

/-- One product of the time when the level was a text makes every request
for a least level fail. -/
theorem textUnderNumber_fails :
    ValidatedUnder [levelAsText, levelAsNumber] levelAbc
    ∧ ∃ built, buildMetadataFilterClauses fractionConversions
        levelAsNumber.schema levelFromFive 0 = .ok built
      ∧ selects (Clause.eval fractionConversions built.values levelAbc.stored)
        built.clauses = .error .invalidText
      ∧ ¬ SelectsMatching fractionConversions levelAsNumber.schema [levelAbc]
        levelFromFive 0 built := by
  have hvalid : validateMetadataAgainstSchema levelAsText.schema.catalog
      levelAbc = .ok (Function.update (fun _ => none) "level"
        (some (.str "abc"))) := rfl
  have hsame : Function.update (fun _ => none) "level" (some (.str "abc"))
      = levelAbc := by
    funext key
    rw [Function.update_apply]
    rfl
  have hbuilt : buildMetadataFilterClauses fractionConversions
      levelAsNumber.schema levelFromFive 0
        = .ok ⟨1, [⟨.atLeast, "level", 1⟩], [.num (.finite 5)]⟩ := by
    rfl
  have hfails : selects (Clause.eval fractionConversions
      [.num (.finite 5)] levelAbc.stored) [⟨.atLeast, "level", 1⟩]
        = .error .invalidText := by
    rfl
  refine ⟨⟨levelAsText, List.mem_cons_self, levelAbc, hsame ▸ hvalid⟩,
    _, hbuilt, hfails, ?_⟩
  intro h
  obtain ⟨b, hb⟩ := h.total [] rfl levelAbc List.mem_cons_self _
    (List.Perm.refl _)
  exact absurd (hfails.symm.trans hb) nofun

end Skrynia
