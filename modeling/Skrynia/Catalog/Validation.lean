/-
Section schemas, and the metadata of listings under them.

`validateMetadataAgainstSchema` keeps the properties that the schema's
fields name and that are not empty, and refuses what a field does not
allow. Its result is what gets stored, as jsonb.

# Validating what was stored

A product is validated again on later edits, against the same schema and
from its stored metadata. That gives back what is stored, except for two
kinds of submissions (`Storable`, `revalidates_iff`):

- a number beyond the doubles, such as `1e999`, is read as infinite, which
  a number field accepts and jsonb stores as `null`;
- a field may be called `constructor`, the one key of the key pattern
  that every object inherits. An empty value of it is dropped, and then
  the inherited function is found in its place.
-/
import Mathlib.Data.List.Induction
import Mathlib.Data.Rat.Defs
import Mathlib.Logic.Function.Basic
import Skrynia.Db.Schema

namespace Skrynia

-- ================================================================ values

/-- A number that `JSON.parse` returns. -/
inductive JsNumber where
  | finite (q : Rat)
  | infinite (negative : Bool)
deriving DecidableEq

/-- What a property of an object may be. -/
inductive JsValue where
  | undefined
  | null
  | bool (b : Bool)
  | num (x : JsNumber)
  | str (s : String)
  | arr (items : List JsValue)
  | obj (members : List (String × JsValue))
  /-- A function. -/
  | native

/-- The own properties of an object. -/
abbrev Metadata := String → Option JsValue

/-- `metadata[key]`: keys of the key pattern are inherited from nowhere,
save one. -/
def Metadata.property (m : Metadata) (key : String) : JsValue :=
  match m key with
  | some v => v
  | none => if key = "constructor" then .native else .undefined

namespace JsValue

/-- `value === undefined || value === null || value === ""`. -/
def isEmpty : JsValue → Bool
  | undefined => true
  | null => true
  | str s => s == ""
  | _ => false

/-- A double that is not finite. -/
def isInfinite : JsValue → Bool
  | num (.infinite _) => true
  | _ => false

/-- The value that comes back from a jsonb column. -/
def stored : JsValue → JsValue
  | num (.infinite _) => null
  | v => v

end JsValue

/-- The metadata that comes back from a jsonb column. Below the top level
of validated metadata there are texts only. -/
def Metadata.stored (m : Metadata) : Metadata :=
  fun key => (m key).map JsValue.stored

-- =============================================================== schemas

/-- `CatalogFieldType`. -/
inductive CatalogFieldType where
  | text
  | textarea
  | number
  | select
  | multiselect
  | boolean
  | checkbox
deriving DecidableEq

/-- A bound of a stored schema: how it compares, and how a message prints
it. One that jsonb stored as `null` compares as zero. -/
structure SchemaNumber where
  value : Rat
  text : String
deriving DecidableEq

/-- A field, as it is stored. -/
structure CatalogField where
  key : String
  type : CatalogFieldType
  required : Bool
  options : List String
  min : Option SchemaNumber
  max : Option SchemaNumber
deriving DecidableEq

/-- A schema, as it is stored. -/
structure CatalogSchema where
  fields : List CatalogField
deriving DecidableEq

/-- A bound as it was submitted. -/
inductive BoundInput where
  | finite (bound : SchemaNumber)
  | infinite (negative : Bool)
deriving DecidableEq

namespace BoundInput

/-- `min > max`. -/
def exceeds : BoundInput → BoundInput → Bool
  | finite min, finite max => max.value < min.value
  | infinite negative, finite _ => !negative
  | finite _, infinite negative => negative
  | infinite negative, infinite negative' => !negative && negative'

/-- A bound as jsonb stores it. -/
def stored : BoundInput → SchemaNumber
  | finite bound => bound
  | infinite _ => ⟨0, "null"⟩

end BoundInput

/-- A field of a submitted schema. What only a page shows is left out. -/
structure CatalogFieldInput where
  key : String
  label : String
  type : CatalogFieldType
  required : Bool
  options : Option (List String)
  min : Option BoundInput
  max : Option BoundInput

/-- `KEY_PATTERN`. -/
def isFieldKey (key : String) : Bool :=
  match key.toList with
  | [] => false
  | first :: rest =>
      first.isLower && rest.all fun c => c.isLower || c.isDigit || c == '_'

namespace CatalogFieldInput

/-- The first issue of the shape. -/
def issue (field : CatalogFieldInput) : Option String :=
  if !isFieldKey field.key then
    some "must be lowercase latin letters, digits, and underscores, and not start with a digit"
  else if field.label.isEmpty || field.options.any (·.any String.isEmpty) then
    some "String must contain at least 1 character(s)"
  else none

/-- `key ? field "key" : "field"`. -/
def name (field : CatalogFieldInput) : String :=
  if field.key.isEmpty then "field" else "field \"" ++ field.key ++ "\""

/-- A field as it is stored. -/
def stored (field : CatalogFieldInput) : CatalogField where
  key := field.key
  type := field.type
  required := field.required
  options := field.options.getD []
  min := field.min.map BoundInput.stored
  max := field.max.map BoundInput.stored

end CatalogFieldInput

/-- The loop of `parseCatalogSchema`, after the keys seen so far. -/
def checkFields (seenKeys : List String) :
    List CatalogFieldInput → Except Failure Unit
  | [] => .ok ()
  | field :: fields =>
      if field.key ∈ seenKeys then
        .error (badRequest ("Invalid schema: field key \"" ++ field.key
          ++ "\" must be unique"))
      else if (field.type = .select ∨ field.type = .multiselect)
          ∧ (field.options.getD []).isEmpty then
        .error (badRequest ("Invalid schema: select field \"" ++ field.key
          ++ "\" must have options"))
      else if field.min.any fun min => field.max.any fun max =>
          min.exceeds max then
        .error (badRequest ("Invalid schema: field \"" ++ field.key
          ++ "\" min must not exceed max"))
      else checkFields (field.key :: seenKeys) fields

/-- The result is the schema as it is stored. -/
def parseCatalogSchema (fields : List CatalogFieldInput) :
    Except Failure CatalogSchema :=
  match fields.find? fun field => field.issue.isSome with
  | some field =>
      .error (badRequest ("Invalid schema: " ++ field.name ++ " "
        ++ field.issue.getD "is invalid"))
  | none =>
      match checkFields [] fields with
      | .error e => .error e
      | .ok () => .ok ⟨fields.map CatalogFieldInput.stored⟩

/-- Fields that are accepted have distinct keys. -/
theorem checkFields_nodup {seen : List String}
    {fields : List CatalogFieldInput} (h : checkFields seen fields = .ok ()) :
    (fields.map CatalogFieldInput.key).Nodup
      ∧ ∀ f ∈ fields, f.key ∉ seen := by
  induction fields generalizing seen with
  | nil => exact ⟨List.nodup_nil, List.forall_mem_nil _⟩
  | cons f fields ih =>
      unfold checkFields at h
      split at h
      · cases h
      next hfresh =>
        split at h
        · cases h
        split at h
        · cases h
        obtain ⟨hnodup, hseen⟩ := ih h
        refine ⟨List.nodup_cons.mpr ⟨?_, hnodup⟩, ?_⟩
        · intro hmem
          obtain ⟨g, hg, hkey⟩ := List.mem_map.mp hmem
          exact hseen g hg (hkey ▸ List.mem_cons_self)
        · intro g hg
          rcases List.mem_cons.mp hg with rfl | hg
          · exact hfresh
          · exact fun hmem => hseen g hg (List.mem_cons_of_mem f.key hmem)

/-- What an accepted schema is: its keys are keys and differ. -/
theorem parseCatalogSchema_eq_ok {fields : List CatalogFieldInput}
    {schema : CatalogSchema} (h : parseCatalogSchema fields = .ok schema) :
    (fields.map CatalogFieldInput.key).Nodup
      ∧ (∀ f ∈ fields, isFieldKey f.key = true)
      ∧ schema = ⟨fields.map CatalogFieldInput.stored⟩ := by
  unfold parseCatalogSchema at h
  split at h
  · cases h
  next hissue =>
    split at h
    · cases h
    next hcheck =>
      refine ⟨(checkFields_nodup hcheck).1, ?_, (Except.ok.inj h).symm⟩
      intro f hf
      have hnone := List.find?_eq_none.mp hissue f hf
      by_contra hbad
      refine hnone ?_
      unfold CatalogFieldInput.issue
      rw [if_pos (by simpa using hbad)]
      rfl

namespace JsNumber

/-- `x < bound`. -/
def below (bound : SchemaNumber) : JsNumber → Bool
  | finite q => q < bound.value
  | infinite negative => negative

/-- `x > bound`. -/
def above (bound : SchemaNumber) : JsNumber → Bool
  | finite q => bound.value < q
  | infinite negative => !negative

end JsNumber

namespace CatalogField

/-- What an invalid value is answered with. -/
def invalid (field : CatalogField) (rule : String) : Failure :=
  badRequest ("Invalid metadata: " ++ field.key ++ rule)

/-- The `switch` on the field's type, for a value that is not empty. -/
def check (field : CatalogField) (value : JsValue) : Except Failure Unit :=
  match field.type with
  | .number =>
      match value with
      | .num x =>
          if field.min.any x.below then
            .error (field.invalid (" must be at least "
              ++ (field.min.elim "" SchemaNumber.text)))
          else if field.max.any x.above then
            .error (field.invalid (" must be at most "
              ++ (field.max.elim "" SchemaNumber.text)))
          else .ok ()
      | _ => .error (field.invalid " must be a number")
  | .boolean | .checkbox =>
      match value with
      | .bool _ => .ok ()
      | _ => .error (field.invalid " must be a boolean")
  | .select =>
      match value with
      | .str s =>
          if s ∈ field.options then .ok ()
          else .error (field.invalid " must be one of the allowed options")
      | _ => .error (field.invalid " must be one of the allowed options")
  | .multiselect =>
      match value with
      | .arr items =>
          if items.all (fun item => match item with
              | .str s => s ∈ field.options
              | _ => false) then .ok ()
          else .error (field.invalid " must be an array of allowed options")
      | _ => .error (field.invalid " must be an array of allowed options")
  | .text | .textarea =>
      match value with
      | .str _ => .ok ()
      | _ => .error (field.invalid " must be a string")

end CatalogField

/-- One round of the loop. -/
def validateField (rawMetadata clean : Metadata) (field : CatalogField) :
    Except Failure Metadata :=
  let value := rawMetadata.property field.key
  if field.required && value.isEmpty then
    .error (field.invalid " is required")
  else if value.isEmpty then .ok clean
  else
    match field.check value with
    | .error e => .error e
    | .ok () => .ok (Function.update clean field.key (some value))

/-- `validateMetadataAgainstSchema`: one field after the other. -/
def validateMetadataAgainstSchema (schema : CatalogSchema)
    (rawMetadata : Metadata) : Except Failure Metadata :=
  schema.fields.foldlM (validateField rawMetadata) fun _ => none

-- ============================================================= the result

/-- The field allows the value. -/
def CatalogField.Accepts (field : CatalogField) (value : JsValue) : Prop :=
  if value.isEmpty then field.required = false else field.check value = .ok ()

/-- What is kept of the metadata: the named properties, unless empty. -/
def Metadata.cleaned (m : Metadata) (fields : List CatalogField) : Metadata :=
  fun key =>
    if (∃ f ∈ fields, f.key = key) ∧ (m.property key).isEmpty = false then
      some (m.property key)
    else none

/-- A field accepts its value, and keeps it unless it is empty. -/
theorem validateField_eq_ok {raw clean result : Metadata}
    {field : CatalogField} : validateField raw clean field = .ok result
      ↔ field.Accepts (raw.property field.key)
        ∧ result = if (raw.property field.key).isEmpty then clean
          else Function.update clean field.key (some (raw.property field.key)) := by
  unfold validateField CatalogField.Accepts
  generalize raw.property field.key = value
  cases hempty : value.isEmpty with
  | true =>
      cases field.required with
      | true => simp [hempty]
      | false =>
          simp only [hempty, Bool.false_and, Bool.false_eq_true,
            if_false, if_true, true_and, Except.ok.injEq]
          exact eq_comm
  | false =>
      cases hcheck : field.check value with
      | error e => simp [hempty, hcheck]
      | ok u =>
          simp only [hempty, hcheck, Bool.and_false, Bool.false_eq_true,
            if_false, true_and, Except.ok.injEq]
          exact eq_comm

/-- Without fields nothing is kept. -/
theorem Metadata.cleaned_nil (m : Metadata) : m.cleaned [] = fun _ => none := by
  funext key
  unfold Metadata.cleaned
  rw [if_neg]
  rintro ⟨⟨f, hf, -⟩, -⟩
  cases hf

/-- The next field, after what is kept for the others. -/
theorem Metadata.cleaned_snoc (m : Metadata) (fields : List CatalogField)
    (field : CatalogField) : m.cleaned (fields ++ [field])
      = if (m.property field.key).isEmpty then m.cleaned fields
        else Function.update (m.cleaned fields) field.key
          (some (m.property field.key)) := by
  funext key
  by_cases hkey : field.key = key
  · rw [← hkey]
    cases hempty : (m.property field.key).isEmpty with
    | true => simp [Metadata.cleaned, hempty]
    | false => simp [Metadata.cleaned, hempty]
  · have hsame : m.cleaned (fields ++ [field]) key = m.cleaned fields key := by
      simp [Metadata.cleaned, hkey]
    rw [hsame]
    split
    · rfl
    · rw [Function.update_of_ne (Ne.symm hkey)]

/-- All fields accept their values, and keep those that are not empty. -/
theorem foldlM_validateField_eq_ok {raw clean : Metadata}
    {fields : List CatalogField} :
    fields.foldlM (validateField raw) (fun _ => none) = .ok clean
      ↔ (∀ f ∈ fields, f.Accepts (raw.property f.key))
        ∧ clean = raw.cleaned fields := by
  induction fields using List.reverseRecOn generalizing clean with
  | nil =>
      rw [Metadata.cleaned_nil, List.foldlM_nil]
      constructor
      · intro h
        cases h
        exact ⟨List.forall_mem_nil _, rfl⟩
      · intro h
        obtain ⟨-, rfl⟩ := h
        rfl
  | append_singleton fields field ih =>
      rw [List.foldlM_append, Metadata.cleaned_snoc]
      simp only [List.foldlM_cons, List.foldlM_nil, bind_pure]
      constructor
      · intro h
        cases hfold : fields.foldlM (validateField raw) (fun _ => none) with
        | error e =>
            rw [hfold] at h
            cases h
        | ok before =>
            obtain ⟨hall, hbefore⟩ := ih.mp hfold
            rw [hfold] at h
            obtain ⟨hfield, hclean⟩ := validateField_eq_ok.mp h
            refine ⟨?_, hbefore ▸ hclean⟩
            intro f hf
            rcases List.mem_append.mp hf with hf | hf
            · exact hall f hf
            · rw [List.mem_singleton.mp hf]
              exact hfield
      · intro h
        obtain ⟨hall, hclean⟩ := h
        have hfold := ih.mpr
          ⟨fun f hf => hall f (List.mem_append_left _ hf), rfl⟩
        have hlast := validateField_eq_ok.mpr
          ⟨hall field (List.mem_append_right _ List.mem_cons_self), hclean⟩
        rw [hfold]
        exact hlast

/-- What a validation accepts and what it returns. -/
theorem validateMetadataAgainstSchema_eq_ok {schema : CatalogSchema}
    {raw clean : Metadata} :
    validateMetadataAgainstSchema schema raw = .ok clean
      ↔ (∀ f ∈ schema.fields, f.Accepts (raw.property f.key))
        ∧ clean = raw.cleaned schema.fields :=
  foldlM_validateField_eq_ok

-- ==================================================== validating it again

/-- The schema accepts the metadata and returns it unchanged. -/
def Metadata.Conforms (m : Metadata) (schema : CatalogSchema) : Prop :=
  validateMetadataAgainstSchema schema m = .ok m

/-- The two kinds of properties that are not found again as they were. -/
def Metadata.Storable (m : Metadata) (schema : CatalogSchema) : Prop :=
  ∀ f ∈ schema.fields, (m.property f.key).isInfinite = false
    ∧ (f.key = "constructor" → (m.property f.key).isEmpty = false)

instance (m : Metadata) (schema : CatalogSchema) :
    Decidable (m.Storable schema) :=
  inferInstanceAs (Decidable (∀ f ∈ _, _ ∧ (_ → _)))

/-- A value without an infinite number is stored as it is. -/
theorem JsValue.stored_eq {v : JsValue} (h : v.isInfinite = false) :
    v.stored = v := by
  cases v with
  | num x =>
      cases x with
      | finite q => rfl
      | infinite negative => cases h
  | _ => rfl

/-- Neither a number nor anything else refuses a function. -/
theorem CatalogField.not_accepts_native (f : CatalogField) :
    ¬ f.Accepts .native := by
  unfold CatalogField.Accepts CatalogField.check
  cases f.type <;> simp [JsValue.isEmpty]

/-- The property of the stored metadata under a field's key. -/
theorem Metadata.property_stored_cleaned {m : Metadata}
    {fields : List CatalogField} {f : CatalogField} (hf : f ∈ fields) :
    (m.cleaned fields).stored.property f.key
      = if (m.property f.key).isEmpty then
          (if f.key = "constructor" then .native else .undefined)
        else (m.property f.key).stored := by
  have hex : ∃ g ∈ fields, g.key = f.key := ⟨f, hf, rfl⟩
  cases hempty : (m.property f.key).isEmpty with
  | true =>
      have hnone : (m.cleaned fields).stored f.key = none := by
        simp [Metadata.stored, Metadata.cleaned, hempty]
      rw [Metadata.property, hnone]
      rfl
  | false =>
      have hsome : (m.cleaned fields).stored f.key
          = some (m.property f.key).stored := by
        simp [Metadata.stored, Metadata.cleaned, hempty, hex]
      rw [Metadata.property, hsome]
      rfl

/-- An accepted value that is infinite is stored as an empty one. -/
theorem JsValue.isEmpty_stored {v : JsValue} (h : v.isEmpty = false) :
    v.stored.isEmpty = v.isInfinite := by
  cases v with
  | num x => cases x <;> rfl
  | str s => exact h
  | undefined => cases h
  | null => cases h
  | bool b => rfl
  | arr items => rfl
  | obj members => rfl
  | native => rfl

/-- An empty value is no infinite number. -/
theorem JsValue.isInfinite_of_isEmpty {v : JsValue}
    (h : v.isEmpty = true) : v.isInfinite = false := by
  cases v with
  | num x => cases h
  | _ => rfl

/-- Storing validated metadata keeps it valid just when it is storable:
JSON turns an infinite number into `null`, and an empty value under the
key `constructor` is not stored, so the inherited property is found in its
place. -/
theorem revalidates_iff {schema : CatalogSchema} {raw clean : Metadata}
    (h : validateMetadataAgainstSchema schema raw = .ok clean) :
    clean.stored.Conforms schema ↔ raw.Storable schema := by
  obtain ⟨haccepts, rfl⟩ := validateMetadataAgainstSchema_eq_ok.mp h
  unfold Metadata.Conforms
  rw [validateMetadataAgainstSchema_eq_ok]
  constructor
  · intro h f hf
    obtain ⟨hagain, hsame⟩ := h
    have hproperty := Metadata.property_stored_cleaned (m := raw) hf
    have hfield := hagain f hf
    cases hempty : (raw.property f.key).isEmpty with
    | true =>
        refine ⟨JsValue.isInfinite_of_isEmpty hempty, ?_⟩
        intro hkey
        rw [hproperty, if_pos hempty, if_pos hkey] at hfield
        exact absurd hfield f.not_accepts_native
    | false =>
        rw [if_neg (by rw [hempty]; exact Bool.false_ne_true)] at hproperty
        refine ⟨?_, fun _ => rfl⟩
        -- a property that is there and empty would not come back
        have hback := congrFun hsame f.key
        have hsome : (raw.cleaned schema.fields).stored f.key
            = some (raw.property f.key).stored := by
          have hex : ∃ g ∈ schema.fields, g.key = f.key := ⟨f, hf, rfl⟩
          simp [Metadata.stored, Metadata.cleaned, hempty, hex]
        rw [hsome, Metadata.cleaned] at hback
        split at hback
        · next hkept =>
            rw [hproperty, JsValue.isEmpty_stored hempty] at hkept
            exact hkept.2
        · cases hback
  · intro hstorable
    have hproperty : ∀ f ∈ schema.fields,
        (raw.cleaned schema.fields).stored.property f.key
          = if (raw.property f.key).isEmpty then .undefined
            else raw.property f.key := by
      intro f hf
      obtain ⟨hfinite, hconstructor⟩ := hstorable f hf
      rw [Metadata.property_stored_cleaned hf, JsValue.stored_eq hfinite]
      split
      · next hempty =>
          rw [if_neg]
          intro hkey
          rw [hconstructor hkey] at hempty
          cases hempty
      · rfl
    refine ⟨?_, ?_⟩
    · intro f hf
      have hfield := haccepts f hf
      rw [hproperty f hf]
      split
      · next hempty =>
          unfold CatalogField.Accepts at hfield ⊢
          rw [if_pos hempty] at hfield
          exact hfield
      · exact hfield
    · funext key
      by_cases hex : ∃ f ∈ schema.fields, f.key = key
      · obtain ⟨f, hf, rfl⟩ := hex
        have hex : ∃ g ∈ schema.fields, g.key = f.key := ⟨f, hf, rfl⟩
        have hfinite := (hstorable f hf).1
        cases hempty : (raw.property f.key).isEmpty with
        | true =>
            have hundefined : JsValue.undefined.isEmpty = true := rfl
            simp [Metadata.stored, Metadata.cleaned, hproperty f hf, hempty,
              hundefined]
        | false =>
            simp [Metadata.stored, Metadata.cleaned, hproperty f hf, hempty,
              hex, JsValue.stored_eq hfinite]
      · simp [Metadata.stored, Metadata.cleaned, hex]

end Skrynia
