/-
What metadata a section schema accepts.

`Allows` says what a field asks of a value, type by type; it is written
from the meaning of a schema and compared with the `switch` of the
source (`accepts_iff_conforms`). Validation reads a member by
`rawMetadata[field.key]`, so what it judges is the member itself except
for the one key that every object inherits.

# The inherited key

A field may be called `constructor`. Where the member is absent, the
inherited function is read in its place and no field type allows it.
Where the member is there but empty it is dropped, and the same happens
when the result is validated again. Nothing else goes wrong:
`validates_exactly_iff`.
-/
import Mathlib.Algebra.Order.Ring.Rat
import Skrynia.Catalog.Validation

namespace Skrynia

-- ========================================================= what is allowed

/-- The member itself, and nothing inherited. -/
def Metadata.own (m : Metadata) (key : String) : JsValue :=
  (m key).getD .undefined

/-- The number is at least the bound, as `<` is false. -/
def JsNumber.AtLeast (bound : SchemaNumber) : JsNumber → Prop
  | finite q => bound.value ≤ q
  | infinite negative => negative = false

/-- The number is at most the bound, as `>` is false. -/
def JsNumber.AtMost (bound : SchemaNumber) : JsNumber → Prop
  | finite q => q ≤ bound.value
  | infinite negative => negative = true

/-- The value has the field's type, lies within the bounds and uses only
listed options. -/
def CatalogField.Allows (field : CatalogField) (value : JsValue) : Prop :=
  match field.type with
  | .number => ∃ x, value = .num x ∧ (∀ b ∈ field.min, x.AtLeast b)
      ∧ ∀ b ∈ field.max, x.AtMost b
  | .boolean | .checkbox => ∃ b, value = .bool b
  | .select => ∃ s ∈ field.options, value = .str s
  | .multiselect => ∃ items, value = .arr items
      ∧ ∀ item ∈ items, ∃ s ∈ field.options, item = .str s
  | .text | .textarea => ∃ s, value = .str s

/-- An empty value where none is required, or an allowed one. -/
def CatalogField.Conforms (field : CatalogField) (value : JsValue) : Prop :=
  if value.isEmpty then field.required = false else field.Allows value

/-- The metadata conforms to the schema, member by member. -/
def Metadata.ConformsTo (m : Metadata) (schema : CatalogSchema) : Prop :=
  ∀ f ∈ schema.fields, f.Conforms (m.own f.key)

-- =========================================================== the switch

/-- At least the bound is not below it. -/
theorem JsNumber.atLeast_iff {b : SchemaNumber} {x : JsNumber} :
    x.AtLeast b ↔ x.below b = false := by
  cases x with
  | finite q => simp [AtLeast, below]
  | infinite negative => rfl

/-- At most the bound is not above it. -/
theorem JsNumber.atMost_iff {b : SchemaNumber} {x : JsNumber} :
    x.AtMost b ↔ x.above b = false := by
  cases x with
  | finite q => simp [AtMost, above]
  | infinite negative => simp [AtMost, above]

/-- A check that refuses is passed if it does not apply and the rest
passes. -/
theorem refuse_eq_ok {c : Prop} [Decidable c] {e : Failure}
    {x : Except Failure Unit} :
    (if c then .error e else x) = .ok () ↔ ¬ c ∧ x = .ok () := by
  split
  · next h => exact ⟨nofun, fun h' => absurd h h'.1⟩
  · next h => exact ⟨fun hx => ⟨h, hx⟩, And.right⟩

/-- A check that allows is passed if it applies. -/
theorem allow_eq_ok {c : Prop} [Decidable c] {e : Failure} :
    (if c then .ok () else .error e : Except Failure Unit) = .ok () ↔ c := by
  split
  · next h => exact ⟨fun _ => h, fun _ => rfl⟩
  · next h => exact ⟨nofun, fun h' => absurd h' h⟩

/-- The `switch` lets through what the field allows. -/
theorem CatalogField.check_eq_ok {f : CatalogField} {v : JsValue} :
    f.check v = .ok () ↔ f.Allows v := by
  unfold CatalogField.check CatalogField.Allows
  cases f.type with
  | number =>
      cases v with
      | num x =>
          simp only [refuse_eq_ok, JsNumber.atLeast_iff, JsNumber.atMost_iff,
            Bool.not_eq_true, Option.any_eq_false, JsValue.num.injEq,
            exists_eq_left', and_true, Option.mem_def]
      | _ => exact ⟨nofun, fun ⟨_, hx, _⟩ => nomatch hx⟩
  | select =>
      cases v with
      | str s =>
          rw [allow_eq_ok]
          exact ⟨fun h => ⟨s, h, rfl⟩, fun ⟨t, ht, hs⟩ => by
            cases hs
            exact ht⟩
      | _ => exact ⟨nofun, fun ⟨_, _, hs⟩ => nomatch hs⟩
  | multiselect =>
      cases v with
      | arr items =>
          rw [allow_eq_ok, List.all_eq_true]
          simp only [JsValue.arr.injEq, exists_eq_left']
          refine forall₂_congr fun item _ => ?_
          cases item <;> simp
      | _ => exact ⟨nofun, fun ⟨_, hs, _⟩ => nomatch hs⟩
  | boolean =>
      cases v with
      | bool b => exact ⟨fun _ => ⟨b, rfl⟩, fun _ => rfl⟩
      | _ => exact ⟨nofun, fun ⟨_, hs⟩ => nomatch hs⟩
  | checkbox =>
      cases v with
      | bool b => exact ⟨fun _ => ⟨b, rfl⟩, fun _ => rfl⟩
      | _ => exact ⟨nofun, fun ⟨_, hs⟩ => nomatch hs⟩
  | text =>
      cases v with
      | str s => exact ⟨fun _ => ⟨s, rfl⟩, fun _ => rfl⟩
      | _ => exact ⟨nofun, fun ⟨_, hs⟩ => nomatch hs⟩
  | textarea =>
      cases v with
      | str s => exact ⟨fun _ => ⟨s, rfl⟩, fun _ => rfl⟩
      | _ => exact ⟨nofun, fun ⟨_, hs⟩ => nomatch hs⟩

/-- The `switch` accepts what the meaning of the type allows. -/
theorem CatalogField.accepts_iff_conforms {f : CatalogField} {v : JsValue} :
    f.Accepts v ↔ f.Conforms v := by
  unfold CatalogField.Accepts CatalogField.Conforms
  rw [check_eq_ok]

-- ==================================================== own and inherited

/-- A member is read as it is, unless it is the inherited one. -/
theorem Metadata.property_eq_own {m : Metadata} {key : String}
    (h : key = "constructor" → m key ≠ none) : m.property key = m.own key := by
  unfold Metadata.property Metadata.own
  cases hm : m key with
  | some v => rfl
  | none => rw [if_neg fun hkey => h hkey hm]; rfl

/-- Only the inherited member is not the object's own. -/
theorem Metadata.property_constructor {m : Metadata}
    (h : m "constructor" = none) : m.property "constructor" = .native := by
  unfold Metadata.property
  rw [h]
  rfl

variable {schema : CatalogSchema} {m m' clean : Metadata}

/-- Metadata that passes has its own member under every declared key that
is inherited. -/
theorem own_of_accepted
    (h : ∀ f ∈ schema.fields, f.Accepts (m.property f.key))
    {f : CatalogField} (hf : f ∈ schema.fields) :
    m.property f.key = m.own f.key := by
  apply Metadata.property_eq_own
  intro hkey hnone
  have hfield := h f hf
  rw [hkey] at hnone
  rw [hkey, Metadata.property_constructor hnone] at hfield
  exact f.not_accepts_native hfield

/-- Where every field accepts its member, the metadata conforms. -/
theorem conformsTo_of_accepted
    (h : ∀ f ∈ schema.fields, f.Accepts (m.property f.key)) :
    m.ConformsTo schema := by
  intro f hf
  rw [← own_of_accepted h hf, ← CatalogField.accepts_iff_conforms]
  exact h f hf

/-- What is kept of metadata that passes, by its own members. -/
theorem cleaned_of_accepted
    (h : ∀ f ∈ schema.fields, f.Accepts (m.property f.key)) (key : String) :
    m.cleaned schema.fields key
      = if (∃ f ∈ schema.fields, f.key = key)
          ∧ (m.own key).isEmpty = false then m key else none := by
  unfold Metadata.cleaned
  by_cases hkey : ∃ f ∈ schema.fields, f.key = key
  · obtain ⟨f, hf, rfl⟩ := hkey
    rw [own_of_accepted h hf]
    split
    · next hkept =>
      cases hm : m f.key with
      | some v => simp [Metadata.own, hm]
      | none =>
          have hempty : (m.own f.key).isEmpty = true := by
            simp [Metadata.own, hm, JsValue.isEmpty]
          rw [hempty] at hkept
          cases hkept.2
    · rfl
  · rw [if_neg fun h => hkey h.1, if_neg fun h => hkey h.1]

/-- The outcome depends on the declared members only. -/
theorem validate_congr (h : ∀ f ∈ schema.fields, m' f.key = m f.key) :
    validateMetadataAgainstSchema schema m'
      = validateMetadataAgainstSchema schema m := by
  unfold validateMetadataAgainstSchema
  have hstep : ∀ fields : List CatalogField,
      (∀ f ∈ fields, m' f.key = m f.key) → ∀ acc : Metadata,
      fields.foldlM (validateField m') acc
        = fields.foldlM (validateField m) acc := by
    intro fields
    induction fields with
    | nil => exact fun _ _ => rfl
    | cons f fields ih =>
        intro hall acc
        have hproperty : m'.property f.key = m.property f.key := by
          unfold Metadata.property
          rw [hall f List.mem_cons_self]
        have hone : validateField m' acc f = validateField m acc f := by
          unfold validateField
          rw [hproperty]
        rw [List.foldlM_cons, List.foldlM_cons, hone]
        refine congrArg _ (funext fun acc' => ?_)
        exact ih (fun g hg => hall g (List.mem_cons_of_mem f hg)) acc'
  exact hstep schema.fields h _

-- ================================================== exactly the conforming

/-- Validation of `m` accepts it just when it conforms, keeps exactly the
declared members that are not empty, accepts its own result unchanged,
and looks at nothing undeclared. -/
structure ValidatesExactly (schema : CatalogSchema) (m : Metadata) :
    Prop where
  accepts : (∃ clean, validateMetadataAgainstSchema schema m = .ok clean)
    ↔ m.ConformsTo schema
  result : ∀ clean, validateMetadataAgainstSchema schema m = .ok clean →
    ∀ key, clean key = if (∃ f ∈ schema.fields, f.key = key)
      ∧ (m.own key).isEmpty = false then m key else none
  again : ∀ clean, validateMetadataAgainstSchema schema m = .ok clean →
    validateMetadataAgainstSchema schema clean = .ok clean
  undeclared : ∀ m', (∀ f ∈ schema.fields, m' f.key = m f.key) →
    validateMetadataAgainstSchema schema m'
      = validateMetadataAgainstSchema schema m

/-- A field is called `constructor`, and the metadata has no value for
it. -/
def Metadata.LacksConstructor (m : Metadata) (schema : CatalogSchema) :
    Prop :=
  (∃ f ∈ schema.fields, f.key = "constructor")
    ∧ (m.own "constructor").isEmpty = true

/-- Metadata that conforms is accepted, unless the inherited function
stands in for a member. -/
theorem accepted_of_conformsTo (h : m.ConformsTo schema)
    (hown : ¬ m.LacksConstructor schema) :
    ∀ f ∈ schema.fields, f.Accepts (m.property f.key) := by
  intro f hf
  have hproperty : m.property f.key = m.own f.key := by
    apply Metadata.property_eq_own
    intro hkey hnone
    refine hown ⟨⟨f, hf, hkey⟩, ?_⟩
    rw [← hkey]
    simp [Metadata.own, hnone, JsValue.isEmpty]
  rw [hproperty, CatalogField.accepts_iff_conforms]
  exact h f hf

/-- The result is validated as it was, member by member: what a field accepts
is kept as it is and accepted again, and what is dropped was empty. -/
theorem revalidates
    (h : ∀ f ∈ schema.fields, f.Accepts (m.property f.key))
    (hown : ¬ m.LacksConstructor schema) :
    validateMetadataAgainstSchema schema (m.cleaned schema.fields)
      = .ok (m.cleaned schema.fields) := by
  have hkept := cleaned_of_accepted h
  have hsame : ∀ f ∈ schema.fields,
      (m.own f.key).isEmpty = false → m.cleaned schema.fields f.key = m f.key := by
    intro f hf hempty
    rw [hkept, if_pos ⟨⟨f, hf, rfl⟩, hempty⟩]
  have hgone : ∀ f ∈ schema.fields,
      (m.own f.key).isEmpty = true →
      (m.cleaned schema.fields).property f.key = .undefined := by
    intro f hf hempty
    have hnone : m.cleaned schema.fields f.key = none := by
      rw [hkept, if_neg]
      intro hcond
      rw [hempty] at hcond
      cases hcond.2
    have hkey : f.key ≠ "constructor" := by
      intro hkey
      exact hown ⟨⟨f, hf, hkey⟩, hkey ▸ hempty⟩
    unfold Metadata.property
    rw [hnone]
    exact if_neg hkey
  have hproperty : ∀ f ∈ schema.fields,
      (m.cleaned schema.fields).property f.key
        = if (m.own f.key).isEmpty then .undefined else m.own f.key := by
    intro f hf
    cases hempty : (m.own f.key).isEmpty with
    | true => exact hgone f hf hempty
    | false =>
        have hfound := own_of_accepted h hf
        unfold Metadata.property at hfound ⊢
        rw [hsame f hf hempty, hfound]
        rfl
  refine validateMetadataAgainstSchema_eq_ok.mpr ⟨?_, ?_⟩
  · intro f hf
    have hfield := h f hf
    rw [own_of_accepted h hf] at hfield
    rw [hproperty f hf]
    cases hempty : (m.own f.key).isEmpty with
    | true =>
        unfold CatalogField.Accepts at hfield ⊢
        rw [if_pos hempty] at hfield
        exact hfield
    | false => exact hfield
  · funext key
    by_cases hkey : ∃ f ∈ schema.fields, f.key = key
    · obtain ⟨f, hf, rfl⟩ := hkey
      have hex : ∃ g ∈ schema.fields, g.key = f.key := ⟨f, hf, rfl⟩
      cases hempty : (m.own f.key).isEmpty with
      | true =>
          have hundefined : JsValue.undefined.isEmpty = true := rfl
          simp [Metadata.cleaned, hproperty f hf, own_of_accepted h hf, hempty,
            hundefined]
      | false =>
          simp [Metadata.cleaned, hproperty f hf, own_of_accepted h hf, hempty]
    · simp [Metadata.cleaned, hkey]

/-- Validation is exact for metadata that does not conform, and for
metadata with a value wherever a field is called `constructor`. For what
is left, it refuses what the schema allows, because the member of that
name is inherited. -/
theorem validates_exactly_iff {schema : CatalogSchema} {m : Metadata} :
    ValidatesExactly schema m
      ↔ (m.ConformsTo schema → ¬ m.LacksConstructor schema) := by
  constructor
  · intro hexact hconforms hlacks
    obtain ⟨clean, hclean⟩ := hexact.accepts.mpr hconforms
    obtain ⟨haccepts, rfl⟩ := validateMetadataAgainstSchema_eq_ok.mp hclean
    obtain ⟨⟨f, hf, hkey⟩, hempty⟩ := hlacks
    -- the result has no such member, and is not accepted again
    have hagain := hexact.again _ hclean
    have hnone : m.cleaned schema.fields "constructor" = none := by
      rw [cleaned_of_accepted haccepts, if_neg]
      intro hcond
      rw [hempty] at hcond
      cases hcond.2
    have hfield := (validateMetadataAgainstSchema_eq_ok.mp hagain).1 f hf
    rw [hkey, Metadata.property_constructor hnone] at hfield
    exact f.not_accepts_native hfield
  · intro hown
    refine ⟨⟨?_, ?_⟩, ?_, ?_, fun m' => validate_congr⟩
    · intro h
      obtain ⟨clean, hclean⟩ := h
      exact conformsTo_of_accepted
        (validateMetadataAgainstSchema_eq_ok.mp hclean).1
    · intro hconforms
      exact ⟨_, validateMetadataAgainstSchema_eq_ok.mpr
        ⟨accepted_of_conformsTo hconforms (hown hconforms), rfl⟩⟩
    · intro clean hclean key
      obtain ⟨haccepts, rfl⟩ := validateMetadataAgainstSchema_eq_ok.mp hclean
      exact cleaned_of_accepted haccepts key
    · intro clean hclean
      obtain ⟨haccepts, rfl⟩ := validateMetadataAgainstSchema_eq_ok.mp hclean
      exact revalidates haccepts (hown (conformsTo_of_accepted haccepts))

/-- An optional text field that is called as every object's inherited
member. -/
def constructorField : CatalogFieldInput where
  key := "constructor"
  label := "Constructor"
  type := .text
  required := false
  options := none
  min := none
  max := none

/-- No members at all. -/
def noMetadata : Metadata := fun _ => none

/-- An empty object conforms to a schema of one optional field, and is
refused. -/
theorem inherited_member_refused :
    ∃ schema, parseCatalogSchema [constructorField] = .ok schema
      ∧ noMetadata.ConformsTo schema
      ∧ validateMetadataAgainstSchema schema noMetadata
        = .error (badRequest "Invalid metadata: constructor must be a string")
      ∧ ¬ ValidatesExactly schema noMetadata := by
  have hconforms : noMetadata.ConformsTo ⟨[constructorField.stored]⟩ := by
    intro f hf
    rw [List.mem_singleton.mp hf]
    rfl
  refine ⟨⟨[constructorField.stored]⟩, by decide +kernel, hconforms, rfl, ?_⟩
  intro hexact
  obtain ⟨clean, hclean⟩ := hexact.accepts.mpr hconforms
  cases hclean

end Skrynia
