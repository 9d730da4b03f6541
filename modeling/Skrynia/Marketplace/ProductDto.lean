/-
The metadata of a listing in responses.

A detail page shows every declared member of the stored object, a card
the members that `showInCard` selects; both under the camel case of the
field's key. The names are collected in objects, where equal names
overwrite each other.

# When nothing is lost

`response_metadata_complete_iff` says for which schemas and stored objects a response has
one entry for every field that it should show, and nothing else. It goes
wrong in two ways: two declared keys have one name and one of them is
stored, or a card field is called `constructor` and the object has no
such member, so that the inherited function is shown.
-/
import Skrynia.Catalog.Conformance
import Skrynia.Marketplace.CamelKey

namespace Skrynia

-- =================================================================== rows

/-- A field of a stored schema, with what pages show of it. -/
structure SchemaFieldRow where
  field : CatalogField
  label : String
  placeholder : Option String
  helpText : Option String
  filterable : Bool
  showInCard : Bool
  sortOrder : SchemaNumber

/-- The key of the field. -/
abbrev SchemaFieldRow.key (row : SchemaFieldRow) : String := row.field.key

/-- A member that a card shows. -/
structure CardMetadataRow where
  key : String
  label : String
  value : JsValue

/-- The columns of a product row that its metadata is mapped from. -/
structure ProductMetadataRow where
  sectionId : Option Uuid
  schemaVersion : Option Nat
  metadata : Option Metadata

/-- A field as a detail page describes it. -/
structure MetadataFieldDto where
  key : String
  label : String
  type : CatalogFieldType
  required : Bool
  placeholder : Option String
  helpText : Option String
  options : List String
  min : Option SchemaNumber
  max : Option SchemaNumber
  filterable : Bool
  showInCard : Bool
  sortOrder : SchemaNumber

/-- `Object.fromEntries`: of equal names the last one stays. -/
def fromEntries (entries : List (String × JsValue)) : Metadata :=
  entries.foldl (fun m e => Function.update m e.1 (some e.2)) fun _ => none

-- ================================================================ mappers

/-- The schema of a row, `schemaByKey.get` for rows that name one. -/
def rowSchema (schemaByKey : Uuid → Nat → Option (List SchemaFieldRow))
    (row : ProductMetadataRow) : Option (List SchemaFieldRow) := do
  let sectionId ← row.sectionId
  let version ← row.schemaVersion
  if version = 0 then none else schemaByKey sectionId version

/-- The `cardMetadata` of one row. -/
def cardMetadataOf (fields : List SchemaFieldRow) (metadata : Option Metadata) :
    List CardMetadataRow :=
  let valueOf := fun key => metadata.elim .undefined (Metadata.property · key)
  ((fields.filter SchemaFieldRow.showInCard).map fun field =>
      ⟨field.key, field.label, valueOf field.key⟩).filter
    fun entry => !entry.value.isEmpty

/-- `attachCardMetadata`, for one row. -/
def attachCardMetadata
    (schemaByKey : Uuid → Nat → Option (List SchemaFieldRow))
    (row : ProductMetadataRow) : List CardMetadataRow :=
  match rowSchema schemaByKey row with
  | some fields => cardMetadataOf fields row.metadata
  | none => []

/-- `mapCardMetadata`: keys in camel case. -/
def mapCardMetadata (metadata : List CardMetadataRow) : List CardMetadataRow :=
  metadata.map fun item => ⟨camelKey item.key, item.label, item.value⟩

/-- The same as an object. -/
def mapCardMetadataRecord (metadata : List CardMetadataRow) : Metadata :=
  fromEntries ((mapCardMetadata metadata).map fun item =>
    (item.key, item.value))

/-- `mapMetadataFields`. -/
def mapMetadataFields (fields : List SchemaFieldRow) : List MetadataFieldDto :=
  fields.map fun row =>
    { key := camelKey row.key
      label := row.label
      type := row.field.type
      required := row.field.required
      placeholder := row.placeholder
      helpText := row.helpText
      options := row.field.options
      min := row.field.min
      max := row.field.max
      filterable := row.filterable
      showInCard := row.showInCard
      sortOrder := row.sortOrder }

/-- Members of the stored object itself; an empty allowlist shows
nothing. -/
def mapValidatedMetadata (metadata : Option Metadata)
    (fields : List SchemaFieldRow) : Metadata :=
  let source : Metadata := metadata.getD fun _ => none
  fromEntries (fields.filterMap fun field =>
    (source field.key).map fun value => (camelKey field.key, value))

/-- The metadata of `mapProductCardDto`. -/
structure CardMetadataDto where
  metadata : Metadata
  cardMetadata : List CardMetadataRow

/-- `mapProductCardDto`, as far as its metadata go. -/
def mapProductCardDto (cardMetadata : List CardMetadataRow) :
    CardMetadataDto where
  metadata := mapCardMetadataRecord cardMetadata
  cardMetadata := mapCardMetadata cardMetadata

/-- The metadata of `mapProductDetailDto`. -/
structure DetailMetadataDto where
  metadata : Metadata
  metadataFields : List MetadataFieldDto

/-- `mapProductDetailDto`, as far as its metadata go. -/
def mapProductDetailDto (metadata : Option Metadata)
    (metadataFields : List SchemaFieldRow) : DetailMetadataDto where
  metadata := mapValidatedMetadata metadata metadataFields
  metadataFields := mapMetadataFields metadataFields

-- ================================================================ objects

/-- What an object has under a key is one of its entries. -/
theorem mem_of_fromEntries {entries : List (String × JsValue)} {key : String}
    {v : JsValue} (h : fromEntries entries key = some v) :
    (key, v) ∈ entries := by
  induction entries using List.reverseRecOn with
  | nil => cases h
  | append_singleton entries e ih =>
      unfold fromEntries at h ih
      rw [List.foldl_append, List.foldl_cons, List.foldl_nil,
        Function.update_apply] at h
      split at h
      · next hkey =>
        cases h
        rw [hkey]
        simp
      · exact List.mem_append_left _ (ih h)

/-- An object has something under the key of every entry. -/
theorem fromEntries_ne_none {entries : List (String × JsValue)} {key : String}
    {v : JsValue} (h : (key, v) ∈ entries) : fromEntries entries key ≠ none := by
  induction entries using List.reverseRecOn with
  | nil => cases h
  | append_singleton entries e ih =>
      unfold fromEntries at ih ⊢
      rw [List.foldl_append, List.foldl_cons, List.foldl_nil,
        Function.update_apply]
      split
      · exact nofun
      · next hkey =>
        rcases List.mem_append.mp h with h | h
        · exact ih h
        · rw [← List.mem_singleton.mp h] at hkey
          exact absurd rfl hkey

/-- A name whose entries all have one value has this value. -/
theorem fromEntries_eq_some {entries : List (String × JsValue)} {key : String}
    {v : JsValue} (h : (key, v) ∈ entries)
    (hall : ∀ w, (key, w) ∈ entries → w = v) :
    fromEntries entries key = some v := by
  obtain ⟨w, hw⟩ := Option.ne_none_iff_exists'.mp (fromEntries_ne_none h)
  rw [hw, hall w (mem_of_fromEntries hw)]

-- ========================================================= accepted schemas

/-- The fields of a schema that `parseCatalogSchema` accepted. -/
def AcceptedFields (fields : List SchemaFieldRow) : Prop :=
  ∃ inputs schema, parseCatalogSchema inputs = .ok schema
    ∧ schema.fields = fields.map SchemaFieldRow.field

/-- Accepted fields have distinct keys of the accepted form. -/
theorem AcceptedFields.keys {fields : List SchemaFieldRow}
    (h : AcceptedFields fields) :
    (fields.map SchemaFieldRow.key).Nodup
      ∧ ∀ f ∈ fields, isFieldKey f.key = true := by
  obtain ⟨inputs, schema, hparse, hfields⟩ := h
  obtain ⟨hnodup, hkeys, rfl⟩ := parseCatalogSchema_eq_ok hparse
  have hsame : fields.map SchemaFieldRow.key
      = inputs.map CatalogFieldInput.key := by
    have := congrArg (List.map CatalogField.key) hfields
    simpa [CatalogFieldInput.stored, Function.comp_def] using this.symm
  refine ⟨hsame ▸ hnodup, ?_⟩
  intro f hf
  have hmem := List.mem_map_of_mem (f := SchemaFieldRow.key) hf
  rw [hsame] at hmem
  obtain ⟨input, hinput, hkey⟩ := List.mem_map.mp hmem
  rw [← hkey]
  exact hkeys input hinput

-- ============================================================ completeness

/-- The card shows the field: it is selected and has a value. -/
def Shown (m : Metadata) (f : SchemaFieldRow) : Prop :=
  f.showInCard = true ∧ (m.own f.key).isEmpty = false

instance (m : Metadata) : DecidablePred (Shown m) := fun _ =>
  inferInstanceAs (Decidable (_ ∧ _))

/-- One separate entry for everything that is to be shown, and nothing
else. -/
structure MetadataComplete (fields : List SchemaFieldRow) (m : Metadata)
    (cards : List CardMetadataRow) : Prop where
  /-- The key of a field leads to the field's own value. -/
  paired : ∀ f ∈ fields,
    (mapProductDetailDto (some m) fields).metadata (camelKey f.key) = m f.key
  detailSeparate : ∀ f ∈ fields, ∀ g ∈ fields, m f.key ≠ none →
    m g.key ≠ none → camelKey f.key = camelKey g.key → f.key = g.key
  detailOnly : ∀ name v,
    (mapProductDetailDto (some m) fields).metadata name = some v →
    ∃ f ∈ fields, camelKey f.key = name ∧ m f.key = some v
  card : (mapProductCardDto cards).cardMetadata
    = (fields.filter fun f => decide (Shown m f)).map fun f =>
        ⟨camelKey f.key, f.label, m.own f.key⟩
  cardSeparate : ∀ f ∈ fields, ∀ g ∈ fields, Shown m f → Shown m g →
    camelKey f.key = camelKey g.key → f.key = g.key
  cardRecord : ∀ f ∈ fields, Shown m f →
    (mapProductCardDto cards).metadata
      (camelKey f.key) = some (m.own f.key)
  cardRecordOnly : ∀ name v,
    (mapProductCardDto cards).metadata name
      = some v →
    ∃ f ∈ fields, Shown m f ∧ camelKey f.key = name ∧ m.own f.key = v

/-- No stored member shares its letters with another declared key. -/
def KeysApart (fields : List SchemaFieldRow) (m : Metadata) : Prop :=
  ∀ f ∈ fields, ∀ g ∈ fields, SameLetters f.key g.key → f.key ≠ g.key →
    m f.key = none

/-- A card field called `constructor` finds a member of the object. -/
def NothingInherited (fields : List SchemaFieldRow) (m : Metadata) : Prop :=
  ∀ f ∈ fields, f.showInCard = true → f.key = "constructor" →
    m f.key ≠ none

variable {fields : List SchemaFieldRow} {m : Metadata}

/-- A field that is shown is stored. -/
theorem Shown.stored {f : SchemaFieldRow} (h : Shown m f) :
    m f.key = some (m.own f.key) := by
  unfold Metadata.own
  cases hm : m f.key with
  | some v => rfl
  | none =>
      have hempty := h.2
      simp [Metadata.own, hm, JsValue.isEmpty] at hempty

/-- The entries of a detail page, by field. -/
theorem mem_detail_entries {name : String} {v : JsValue} :
    (name, v) ∈ (fields.filterMap fun f =>
        (m f.key).map fun value => (camelKey f.key, value))
      ↔ ∃ f ∈ fields, camelKey f.key = name ∧ m f.key = some v := by
  simp only [List.mem_filterMap, Option.map_eq_some_iff, Prod.mk.injEq]
  constructor
  · intro h
    obtain ⟨f, hf, w, hw, hname, rfl⟩ := h
    exact ⟨f, hf, hname, hw⟩
  · intro h
    obtain ⟨f, hf, hname, hv⟩ := h
    exact ⟨f, hf, v, hv, hname, rfl⟩

/-- Keys that are apart have different names. -/
theorem camelKey_inj (h : AcceptedFields fields) (hapart : KeysApart fields m)
    {f g : SchemaFieldRow} (hf : f ∈ fields) (hg : g ∈ fields)
    (hstored : m f.key ≠ none) (hname : camelKey f.key = camelKey g.key) :
    f.key = g.key := by
  by_contra hne
  have hkeys := h.keys.2
  exact hstored (hapart f hf g hg
    ((camelKey_eq_iff (hkeys f hf) (hkeys g hg)).mp hname) hne)

/-- A card shows the stored members of its fields, if nothing is
inherited. -/
theorem cardMetadataOf_eq (hown : NothingInherited fields m) :
    cardMetadataOf fields (some m)
      = (fields.filter fun f => decide (Shown m f)).map fun f =>
          ⟨f.key, f.label, m.own f.key⟩ := by
  have hvalue : ∀ f ∈ fields.filter SchemaFieldRow.showInCard,
      m.property f.key = m.own f.key := by
    intro f hf
    obtain ⟨hf, hshow⟩ := List.mem_filter.mp hf
    exact Metadata.property_eq_own (hown f hf hshow)
  unfold cardMetadataOf
  simp only [Option.elim_some]
  rw [List.map_congr_left (g := fun f : SchemaFieldRow =>
    (⟨f.key, f.label, m.own f.key⟩ : CardMetadataRow))
    fun f hf => by rw [hvalue f hf]]
  rw [List.filter_map, List.filter_filter]
  congr 1
  apply List.filter_congr
  intro f _
  rw [Bool.eq_iff_iff, decide_eq_true_iff]
  simp [Shown, and_comm]

/-- The response is complete just when the stored members have names of
their own and no card field is inherited. -/
theorem complete_iff (h : AcceptedFields fields) :
    MetadataComplete fields m (cardMetadataOf fields (some m))
      ↔ KeysApart fields m ∧ NothingInherited fields m := by
  have hkeys := h.keys.2
  constructor
  · intro hcomplete
    constructor
    · intro f hf g hg hletters hne
      have hname := (camelKey_eq_iff (hkeys f hf) (hkeys g hg)).mpr hletters
      have hfound := hcomplete.paired f hf
      have hsame : m f.key = m g.key := by
        rw [← hfound, hname, hcomplete.paired g hg]
      by_contra hstored
      exact hne (hcomplete.detailSeparate f hf g hg hstored
        (hsame ▸ hstored) hname)
    · intro f hf hshow hkey hnone
      -- the inherited function is in the record under this name
      have hentry : (camelKey f.key, JsValue.native)
          ∈ (mapCardMetadata (cardMetadataOf fields (some m))).map
            fun item => (item.key, item.value) := by
        have hnone' : m "constructor" = none := hkey ▸ hnone
        have hnative : m.property f.key = .native := by
          rw [hkey]
          exact Metadata.property_constructor hnone'
        refine List.mem_map.mpr ⟨⟨camelKey f.key, f.label, .native⟩, ?_, rfl⟩
        refine List.mem_map.mpr ⟨⟨f.key, f.label, .native⟩, ?_, rfl⟩
        refine List.mem_filter.mpr ⟨List.mem_map.mpr ⟨f, ?_, ?_⟩, rfl⟩
        · exact List.mem_filter.mpr ⟨hf, hshow⟩
        · simp only [Option.elim_some, hnative]
      obtain ⟨v, hv⟩ := Option.ne_none_iff_exists'.mp
        (fromEntries_ne_none hentry)
      obtain ⟨g, hg, hshown, hname, -⟩ := hcomplete.cardRecordOnly _ v hv
      have hsame : m g.key = m f.key := by
        rw [← hcomplete.paired g hg, hname, hcomplete.paired f hf]
      rw [hshown.stored, hnone] at hsame
      cases hsame
  · intro h
    obtain ⟨hapart, hown⟩ := h
    have hcard := cardMetadataOf_eq hown
    have hentries : (mapCardMetadata (cardMetadataOf fields (some m))).map
          (fun item => (item.key, item.value))
        = (fields.filter fun f => decide (Shown m f)).map fun f =>
            (camelKey f.key, m.own f.key) := by
      rw [hcard]
      simp [mapCardMetadata, Function.comp_def]
    have hmem : ∀ name v, (name, v) ∈ ((fields.filter fun f =>
          decide (Shown m f)).map fun f => (camelKey f.key, m.own f.key))
        ↔ ∃ f ∈ fields, Shown m f ∧ camelKey f.key = name
          ∧ m.own f.key = v := by
      intro name v
      simp [and_assoc]
    refine ⟨?_, ?_, ?_, ?_, ?_, ?_, ?_⟩
    · intro f hf
      show fromEntries (fields.filterMap fun f =>
        (m f.key).map fun value => (camelKey f.key, value)) _ = _
      cases hm : m f.key with
      | some v =>
          refine fromEntries_eq_some
            (mem_detail_entries.mpr ⟨f, hf, rfl, hm⟩) ?_
          intro w hw
          obtain ⟨g, hg, hname, hgw⟩ := mem_detail_entries.mp hw
          have hstored : m g.key ≠ none := by
            rw [hgw]
            exact nofun
          have hkey := camelKey_inj h hapart hg hf hstored hname
          rw [hkey, hm] at hgw
          exact (Option.some.inj hgw).symm
      | none =>
          by_contra hsome
          obtain ⟨w, hw⟩ := Option.ne_none_iff_exists'.mp hsome
          obtain ⟨g, hg, hname, hgw⟩ :=
            mem_detail_entries.mp (mem_of_fromEntries hw)
          have hstored : m g.key ≠ none := by
            rw [hgw]
            exact nofun
          have hkey := camelKey_inj h hapart hg hf hstored hname
          rw [hkey, hm] at hgw
          cases hgw
    · intro f hf g hg hstored _ hname
      exact camelKey_inj h hapart hf hg hstored hname
    · intro name v hv
      exact mem_detail_entries.mp (mem_of_fromEntries hv)
    · show mapCardMetadata _ = _
      rw [hcard]
      simp [mapCardMetadata, Function.comp_def]
    · intro f hf g hg hshown _ hname
      refine camelKey_inj h hapart hf hg ?_ hname
      rw [hshown.stored]
      exact nofun
    · intro f hf hshown
      show fromEntries _ _ = _
      rw [hentries]
      refine fromEntries_eq_some ((hmem _ _).mpr ⟨f, hf, hshown, rfl, rfl⟩) ?_
      intro w hw
      obtain ⟨g, hg, hgshown, hname, rfl⟩ := (hmem _ _).mp hw
      have hstored : m g.key ≠ none := by
        rw [hgshown.stored]
        exact nofun
      rw [camelKey_inj h hapart hg hf hstored hname]
    · intro name v hv
      have hv := mem_of_fromEntries hv
      rw [hentries] at hv
      exact (hmem name v).mp hv

/-- A row of a listing with a section shows the cards of its schema. -/
theorem attachCardMetadata_eq {schemaByKey : Uuid → Nat →
      Option (List SchemaFieldRow)} {row : ProductMetadataRow}
    (hschema : rowSchema schemaByKey row = some fields)
    (hm : row.metadata = some m) :
    attachCardMetadata schemaByKey row = cardMetadataOf fields (some m) := by
  unfold attachCardMetadata
  rw [hschema, hm]

/-- A response shows every field under a name of its own just when no
stored member shares its letters with another declared key and no card
field is inherited; and names are unique for every stored object just
when the keys differ in more than underscores before digits. -/
theorem response_metadata_complete_iff {fields : List SchemaFieldRow}
    {m : Metadata}
    {schemaByKey : Uuid → Nat → Option (List SchemaFieldRow)}
    {row : ProductMetadataRow} (h : AcceptedFields fields)
    (hschema : rowSchema schemaByKey row = some fields)
    (hm : row.metadata = some m) :
    (MetadataComplete fields m (attachCardMetadata schemaByKey row)
      ↔ KeysApart fields m ∧ NothingInherited fields m)
    ∧ ((∀ f ∈ fields, ∀ g ∈ fields, camelKey f.key = camelKey g.key →
          f.key = g.key)
      ↔ ∀ f ∈ fields, ∀ g ∈ fields, SameLetters f.key g.key →
          f.key = g.key) := by
  have hkeys := h.keys.2
  refine ⟨?_, ?_⟩
  · rw [attachCardMetadata_eq hschema hm]
    exact complete_iff h
  · refine forall₂_congr fun f hf => forall₂_congr fun g hg => ?_
    rw [camelKey_eq_iff (hkeys f hf) (hkeys g hg)]

-- ------------------------------------------------------- two keys, one name

/-- A text field, as it is submitted. -/
def textField (key : String) : CatalogFieldInput where
  key := key
  label := key
  type := .text
  required := false
  options := none
  min := none
  max := none

/-- And as its row. -/
def textFieldRow (key : String) : SchemaFieldRow where
  field := (textField key).stored
  label := key
  placeholder := none
  helpText := none
  filterable := false
  showInCard := true
  sortOrder := ⟨0, "0"⟩

/-- Two members that are texts. -/
def storedTexts (first second : String × String) : Metadata := fun key =>
  if key = first.1 then some (.str first.2)
  else if key = second.1 then some (.str second.2)
  else none

/-- A listing with these metadata. -/
def listedRow (m : Metadata) : ProductMetadataRow where
  sectionId := some ⟨1⟩
  schemaVersion := some 1
  metadata := some m

/-- Keys that differ in their letters are all shown. -/
theorem letters_apart_complete :
    MetadataComplete [textFieldRow "a_b", textFieldRow "a1"]
      (storedTexts ("a_b", "first") ("a1", "second"))
      (attachCardMetadata
        (fun _ _ => some [textFieldRow "a_b", textFieldRow "a1"])
        (listedRow (storedTexts ("a_b", "first") ("a1", "second")))) := by
  have haccepted : AcceptedFields [textFieldRow "a_b", textFieldRow "a1"] :=
    ⟨[textField "a_b", textField "a1"], _, rfl, rfl⟩
  refine (response_metadata_complete_iff haccepted rfl rfl).1.mpr ⟨?_, ?_⟩
  · intro f hf g hg hletters hne
    simp only [List.mem_cons, List.not_mem_nil, or_false] at hf hg
    rcases hf with rfl | rfl <;> rcases hg with rfl | rfl
    · exact absurd rfl hne
    · exact absurd hletters (by decide)
    · exact absurd hletters (by decide)
    · exact absurd rfl hne
  · intro f hf _ hkey
    simp only [List.mem_cons, List.not_mem_nil, or_false] at hf
    rcases hf with rfl | rfl <;> exact absurd hkey (by decide)

/-- A schema of two fields that camel case does not tell apart. -/
def collidingFields : List SchemaFieldRow :=
  [textFieldRow "a_1", textFieldRow "a1"]

/-- Two keys of one name. -/
def collidingMetadata : Metadata :=
  storedTexts ("a_1", "first") ("a1", "second")

/-- Both are accepted by the schema. -/
theorem conforms_colliding :
    collidingMetadata.Conforms ⟨collidingFields.map SchemaFieldRow.field⟩ := by
  refine validateMetadataAgainstSchema_eq_ok.mpr ⟨?_, ?_⟩
  · intro f hf
    simp only [collidingFields, List.map_cons, List.map_nil, List.mem_cons,
      List.not_mem_nil, or_false] at hf
    rcases hf with rfl | rfl <;> rfl
  · funext key
    by_cases hfirst : key = "a_1"
    · rw [hfirst]
      rfl
    · by_cases hsecond : key = "a1"
      · rw [hsecond]
        rfl
      · have hnone : collidingMetadata key = none := by
          simp [collidingMetadata, storedTexts, hfirst, hsecond]
        rw [hnone, Metadata.cleaned, if_neg]
        intro h
        obtain ⟨⟨f, hf, hkey⟩, -⟩ := h
        simp only [collidingFields, List.map_cons, List.map_nil,
          List.mem_cons, List.not_mem_nil, or_false] at hf
        rcases hf with rfl | rfl
        · exact hfirst hkey.symm
        · exact hsecond hkey.symm

/-- Both members are stored, and the detail page shows one entry. -/
theorem two_members_one_entry :
    AcceptedFields collidingFields
      ∧ collidingMetadata.Conforms ⟨collidingFields.map SchemaFieldRow.field⟩
      ∧ (mapProductDetailDto (some collidingMetadata) collidingFields).metadata
          (camelKey "a_1") = some (.str "second")
      ∧ ¬ MetadataComplete collidingFields collidingMetadata
          (attachCardMetadata (fun _ _ => some collidingFields)
            (listedRow collidingMetadata)) := by
  have hshown : (mapProductDetailDto (some collidingMetadata)
      collidingFields).metadata (camelKey "a_1") = some (.str "second") := rfl
  refine ⟨⟨[textField "a_1", textField "a1"], _, rfl, rfl⟩,
    conforms_colliding, hshown, ?_⟩
  intro hcomplete
  have hpaired := hcomplete.paired (textFieldRow "a_1")
    (by simp [collidingFields])
  have htext : some (JsValue.str "second") = some (JsValue.str "first") :=
    hpaired
  have := JsValue.str.inj (Option.some.inj htext)
  exact absurd this (by decide)

end Skrynia
