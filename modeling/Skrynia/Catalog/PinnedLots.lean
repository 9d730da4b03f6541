/-
Every run of the schema operations and the listing routes, and when its
lots stay valid.
-/
import Skrynia.Catalog.Consistency

namespace Skrynia

open Relational Stepping

-- ============================================================== metadata

/-- If the schema found accepts the metadata, they are stored as they are
understood. -/
def Metadata.StoredFaithfully (m : Metadata) (row : Option LotSchemaRow) :
    Prop :=
  ∀ schema ∈ row.bind LotSchemaRow.schema,
    (validateMetadataAgainstSchema schema m).isOk = true → m.Storable schema

instance (m : Metadata) (row : Option LotSchemaRow) :
    Decidable (m.StoredFaithfully row) :=
  inferInstanceAs (Decidable (∀ _ ∈ _, _ → _))

namespace CatalogDb

variable {db : CatalogDb} {sectionId : Uuid}

/-- A chain is found by its section. -/
theorem sectionId_of_sectionChain {row : SectionChainRow}
    (h : db.sectionChain sectionId = some row) : row.sectionId = sectionId := by
  obtain ⟨section', -, h⟩ := Option.bind_eq_some_iff.mp h
  obtain ⟨game, -, h⟩ := Option.bind_eq_some_iff.mp h
  obtain ⟨groupStatus, -, h⟩ := Option.bind_eq_some_iff.mp h
  injection h with h
  rw [← h]

/-- The schema that lots are validated against is an active version. -/
theorem active_of_lotSchema {schema : CatalogSchema} {version : Nat}
    (hschema : (db.lotSchema sectionId).bind LotSchemaRow.schema = some schema)
    (hversion : (db.lotSchema sectionId).bind LotSchemaRow.schemaVersion
      = some version) :
    ∃ r, db.schemaUnder sectionId version = some r ∧ r.status = .active
      ∧ r.schema = schema := by
  obtain ⟨row, hrow, hschema⟩ := Option.bind_eq_some_iff.mp hschema
  rw [hrow, Option.bind_some] at hversion
  obtain ⟨section', -, hrow⟩ := Option.bind_eq_some_iff.mp hrow
  injection hrow with hrow
  subst hrow
  obtain ⟨r, hr, hschema⟩ := Option.map_eq_some_iff.mp hschema
  obtain ⟨hr, hactive⟩ := Option.filter_eq_some_iff.mp hr
  rw [decide_eq_true_eq] at hactive
  have hversion : section'.currentSchemaVersion = some version := hversion
  unfold CatalogDb.currentSchema at hr
  rw [hversion] at hr
  exact ⟨r, hr, hactive, hschema⟩

/-- What a validation found, and what it made of the metadata. -/
theorem validated_active {validated : ValidatedMetadata} {version : Nat}
    {raw : Metadata} (h : validateLotMetadata (some sectionId) raw
      (db.lotSchema sectionId) = .ok validated)
    (hversion : validated.schemaVersion = some version) :
    ∃ r, db.schemaUnder sectionId version = some r ∧ r.status = .active
      ∧ (db.lotSchema sectionId).bind LotSchemaRow.schema = some r.schema
      ∧ validateMetadataAgainstSchema r.schema raw
        = .ok validated.metadata := by
  obtain ⟨schema, hschema, hrow, hvalid⟩ :=
    validateLotMetadata_eq_ok h hversion
  obtain ⟨r, hr, hactive, rfl⟩ := active_of_lotSchema hschema hrow
  exact ⟨r, hr, hactive, hschema, hvalid⟩

/-- Submitted metadata, stored faithfully, fit the schema they were
validated against. -/
theorem validFor_of_faithful {target : Option Uuid} {raw : Metadata}
    {validated : ValidatedMetadata}
    (h : validateLotMetadata target raw (target.bind db.lotSchema)
      = .ok validated)
    (hfaithful : raw.StoredFaithfully (target.bind db.lotSchema)) :
    db.ValidFor target validated := by
  intro sectionId version htarget hversion
  rw [htarget, Option.bind_some] at h hfaithful
  obtain ⟨r, hr, hactive, hschema, hvalid⟩ := validated_active h hversion
  have hstorable := hfaithful r.schema hschema (by rw [hvalid]; rfl)
  refine ⟨r, hr, ?_, (revalidates_iff hvalid).mpr hstorable,
    validated.metadata.stored_stored⟩
  rw [hactive]
  exact nofun

/-- Stored metadata that fit the version they are validated against stay
as they are. -/
theorem validFor_of_pinned {target : Option Uuid} {columns : LotColumns}
    {validated : ValidatedMetadata} (hlot : db.LotSound columns)
    (htarget : target = columns.sectionId)
    (hversion : target.isSome = true →
      columns.schemaVersion = validated.schemaVersion)
    (h : validateLotMetadata target columns.metadata
      (target.bind db.lotSchema) = .ok validated) :
    db.ValidFor target validated := by
  intro sectionId version hsection hvalidated
  rw [hsection, Option.bind_some] at h
  obtain ⟨r, hr, hactive, -, hvalid⟩ := validated_active h hvalidated
  have hpinned := hversion (by rw [hsection]; rfl)
  rw [hvalidated] at hpinned
  rw [hsection] at htarget
  obtain ⟨r', hr', hpublished, hconforms, hstored⟩ :=
    hlot sectionId version htarget.symm hpinned
  have hsame := Option.some.inj (hr.symm.trans hr')
  subst hsame
  have hmetadata := Except.ok.inj (hvalid.symm.trans hconforms)
  refine ⟨r, hr, hpublished, ?_, validated.metadata.stored_stored⟩
  rw [hmetadata, hstored]
  exact hconforms

end CatalogDb

namespace CatalogSystem

variable {s : CatalogSystem} {session : Nat} {drawn : Drawn}

/-- The chain that is locked is of the section that was found. -/
theorem sectionId_of_relocked {found row : SectionChainRow}
    (h : s.relocked found = some row) : row.sectionId = found.sectionId := by
  obtain ⟨latest, hlatest, h⟩ := Option.bind_eq_some_iff.mp h
  unfold SectionChainRow.relocked at h
  split at h
  · injection h with h
    have hlatest := CatalogDb.sectionId_of_sectionChain hlatest
    rw [← h]
    exact hlatest
  · cases h

-- ========================================================= POST /products

/-- A new listing is placed in a section that is locked. -/
theorem Sound.postCategorized (h : s.Sound) (request : PostRequest)
    (chain : Option SectionChainRow) (locked : ChainLock) :
    s.OutcomeSound session (s.postCategorized request chain locked) := by
  unfold CatalogSystem.postCategorized
  split
  · exact h.unchanged
  · exact .continues trivial nofun

/-- Finding the chain of a new listing changes nothing. -/
theorem Sound.postChain (h : s.Sound) (request : PostRequest) :
    s.OutcomeSound session (s.postChain request) := by
  unfold CatalogSystem.postChain
  split
  · exact h.unchanged
  · split
    · exact h.postCategorized request none none
    · split
      · exact h.unchanged
      · exact .continues trivial nofun

/-- The metadata of a new listing are validated against the section's active
version. -/
theorem Sound.postValidate (h : s.Sound) {request : PostRequest}
    {locked : ChainLock} {categorization : Categorization}
    (hfaithful : request.input.metadata.StoredFaithfully
      (categorization.sectionId.bind s.db.lotSchema)) :
    s.OutcomeSound session
      (s.postValidate request locked categorization) := by
  unfold CatalogSystem.postValidate
  split
  · exact h.unchanged
  · next hvalid =>
      exact .continues (CatalogDb.validFor_of_faithful
        (ProductInput.validate_eq_ok hvalid) hfaithful) nofun

/-- A new listing is written with what the validation found. -/
theorem Sound.postInsert (h : s.Sound) {request : PostRequest}
    {locked : ChainLock} {categorization : Categorization}
    {validated : ValidatedMetadata}
    (ht : TaskSound s.db (.postInsert request locked categorization validated)) :
    s.OutcomeSound session
      (s.postInsert drawn request locked categorization validated) := by
  unfold CatalogSystem.postInsert
  split
  · exact h.unchanged
  · next lot hlot =>
      obtain ⟨hsection, hversion, hmetadata⟩ :=
        ProductInput.insertRow_eq_ok hlot
      refine .continues ?_ nofun
      intro sectionId version hs hv
      rw [hsection] at hs
      rw [hversion] at hv
      rw [hmetadata]
      exact ht sectionId version hs hv

/-- Another lot may be written if it is sound itself. -/
theorem rowsSound_setLot {db : CatalogDb} (h : RowsSound db) {lot : Lot}
    (hlot : db.LotSound lot.columns) : RowsSound (db.setLot lot) := by
  refine ⟨h.published, h.sectioned, h.oneActive, h.current, ?_⟩
  intro id lot' hlot'
  rcases update_cases hlot' with ⟨-, hthis⟩ | ⟨-, hother⟩
  · rw [← Option.some.inj hthis]
    exact hlot
  · exact h.lots id lot' hother

/-- So may a call end by writing one. -/
theorem Sound.setLot (h : s.Sound) {lot : Lot}
    (hlot : s.db.LotSound lot.columns) :
    s.OutcomeSound session (.ends (s.db.setLot lot)) :=
  .ends (endSound_of_same (rowsSound_setLot h.rows hlot) rfl)

/-- A new listing is sound as it is committed. -/
theorem Sound.postCommit (h : s.Sound) {lot : Lot}
    (hlot : s.db.LotSound lot.columns) :
    s.OutcomeSound session (s.postCommit lot) := by
  unfold CatalogSystem.postCommit
  split
  · exact h.unchanged
  · exact h.setLot hlot

-- ==================================================== PATCH /products/:id

/-- An edit begins by reading its listing. -/
theorem Sound.patchSelect (h : s.Sound) (request : PatchRequest) :
    s.OutcomeSound session (s.patchSelect session request) := by
  unfold CatalogSystem.patchSelect
  split
  · exact .waits
  · split
    · exact h.unchanged
    · next existing hexisting =>
        split
        · exact h.unchanged
        · split
          · exact h.unchanged
          · next hauthorized =>
              exact .continues ⟨h.rows.lots _ _ hexisting,
                ProductPatch.authorize_eq_ok hauthorized⟩ nofun

/-- An edit goes on with the section that was asked for, or with the
listing's own. -/
theorem Sound.patchCategorized (h : s.Sound) {request : PatchRequest}
    {existing : Lot} (hpatch : PatchSound s.db request existing)
    {chain : Option SectionChainRow} (locked : ChainLock)
    (hchain : ∀ row ∈ chain,
      request.input.chainOf existing = some row.sectionId) :
    s.OutcomeSound session
      (s.patchCategorized request existing chain locked) := by
  unfold CatalogSystem.patchCategorized
  split
  · exact h.unchanged
  · next categorization hcategorize =>
      obtain ⟨hcategorization, hcurrent⟩ :=
        ProductPatch.categorize_eq_ok hcategorize
      have hsound : CategorizationSound request existing categorization :=
        ⟨ProductPatch.categorization_sectionId hchain hcategorization, hcurrent⟩
      split
      · next hvalidates => exact .continues ⟨hpatch, hsound, hvalidates⟩ nofun
      · next hvalidates =>
          refine .continues ⟨hpatch, hsound, ?_⟩ nofun
          apply ProductPatch.targetSectionId_of_unchanged
          intro hchanged
          unfold ProductPatch.validates at hvalidates
          rw [hpatch.authorized hchanged, Bool.true_or] at hvalidates
          exact hvalidates rfl

/-- Finding the chain of an edited listing changes nothing. -/
theorem Sound.patchChain (h : s.Sound) {request : PatchRequest}
    {existing : Lot} (hpatch : PatchSound s.db request existing) :
    s.OutcomeSound session (s.patchChain request existing) := by
  unfold CatalogSystem.patchChain
  split
  · refine h.patchCategorized hpatch none ?_
    intro row hrow
    cases hrow
  · next sectionId hof =>
      split
      · exact h.unchanged
      · next found hfound =>
          refine .continues ⟨hpatch, ?_⟩ nofun
          rw [hof, CatalogDb.sectionId_of_sectionChain hfound]

/-- The chain that an edit locks is the one it found. -/
theorem Sound.patchLock (h : s.Sound) {request : PatchRequest}
    {existing : Lot} {found : SectionChainRow}
    (ht : TaskSound s.db (.patchLock request existing found)) :
    s.OutcomeSound session (s.patchLock session request existing found) := by
  unfold CatalogSystem.patchLock
  split
  · exact .waits
  · refine h.patchCategorized ht.1 _ ?_
    intro row hrow
    rw [ht.2, sectionId_of_relocked hrow]

/-- An edit is validated against the active version of its section, if it
needs to be. -/
theorem Sound.patchValidate (h : s.Sound) {request : PatchRequest}
    {existing : Lot} {locked : ChainLock}
    {categorization : PatchCategorization}
    (ht : TaskSound s.db
      (.patchValidate request existing locked categorization))
    (hfaithful : request.input.metadata.isSome = true →
      (request.input.rawMetadata existing).StoredFaithfully
        ((request.input.targetSectionId existing).bind s.db.lotSchema)) :
    s.OutcomeSound session
      (s.patchValidate request existing locked categorization) := by
  obtain ⟨hpatch, hcategorization, hvalidates⟩ := ht
  unfold CatalogSystem.patchValidate
  split
  · exact h.unchanged
  · next validated hvalidate =>
      obtain ⟨hvalid, hversion⟩ := ProductPatch.validate_eq_ok hvalidate
      refine .continues ⟨hpatch, hcategorization, ?_⟩ nofun
      cases hmetadata : request.input.metadata with
      | some submitted =>
          rw [hmetadata] at hfaithful
          exact CatalogDb.validFor_of_faithful hvalid (hfaithful rfl)
      | none =>
          -- the stored metadata, under the version they were pinned to
          have hactivates : request.input.activates = true := by
            unfold ProductPatch.validates at hvalidates
            rw [hmetadata] at hvalidates
            exact hvalidates
          have hunchanged : ¬ request.input.sectionChanged existing = true := by
            intro hchanged
            have := hpatch.authorized hchanged
            rw [hmetadata] at this
            cases this
          have hraw : request.input.rawMetadata existing
              = existing.columns.metadata := by
            unfold ProductPatch.rawMetadata
            rw [hmetadata]
          rw [hraw] at hvalid
          refine CatalogDb.validFor_of_pinned hpatch.lot
            (ProductPatch.targetSectionId_of_unchanged hunchanged) ?_ hvalid
          intro htarget
          rw [hcategorization.current hactivates hmetadata htarget,
            hversion htarget]

/-- An edit that keeps section, version and metadata leaves the lot as sound
as it was. -/
theorem Sound.patchUpdate (h : s.Sound) {request : PatchRequest}
    {existing : Lot} {locked : ChainLock}
    {categorization : PatchCategorization}
    {validated : Option ValidatedMetadata}
    (ht : TaskSound s.db
      (.patchUpdate request existing locked categorization validated)) :
    s.OutcomeSound session
      (s.patchUpdate drawn request existing locked categorization
        validated) := by
  obtain ⟨hpatch, hcategorization, hvalid⟩ := ht
  unfold CatalogSystem.patchUpdate
  split
  · exact h.unchanged
  · next lot hlot =>
      obtain ⟨-, -, -, hsection, hversion, hmetadata⟩ :=
        ProductPatch.updateRow_eq_ok hlot
      rw [hcategorization.target] at hsection
      refine .continues ?_ nofun
      intro sectionId version hs hv
      rw [hsection] at hs
      rw [hversion] at hv
      rw [hmetadata]
      cases validated with
      | none =>
          have hunchanged : request.input.targetSectionId existing
            = existing.columns.sectionId := hvalid
          rw [hunchanged] at hs
          exact hpatch.lot sectionId version hs hv
      | some validated => exact hvalid sectionId version hs hv

-- ================================================================= steps

/-- The two things that a statement must not meet: a schema that is no
longer a draft when it is rewritten, and metadata that the database stores
as something else. -/
def TaskMeets (s : CatalogSystem) (session : Nat) : CatalogTask → Prop
  | .storeSchema schemaId _ =>
      ¬ s.SchemaHeld session schemaId →
        ∀ r ∈ s.db.schemas.rows, r.id = schemaId → r.status = .draft
  | .postValidate request _ categorization =>
      request.input.metadata.StoredFaithfully
        (categorization.sectionId.bind s.db.lotSchema)
  | .patchValidate request existing _ _ =>
      request.input.metadata.isSome = true →
        (request.input.rawMetadata existing).StoredFaithfully
          ((request.input.targetSectionId existing).bind s.db.lotSchema)
  | _ => True

/-- What a step must meet: the task that goes on does. -/
def Meets (s : CatalogSystem) : CatalogEvent → Prop
  | .advance session _ => ∀ t ∈ s.task session, s.TaskMeets session t
  | _ => True

instance (s : CatalogSystem) (session : Nat) (t : CatalogTask) :
    Decidable (s.TaskMeets session t) := by
  cases t <;> dsimp only [TaskMeets] <;> infer_instance

instance (s : CatalogSystem) (e : CatalogEvent) : Decidable (s.Meets e) := by
  cases e <;> dsimp only [Meets] <;> infer_instance

/-- The next access of any task keeps published versions and the soundness of
lots. -/
theorem Sound.outcome (h : s.Sound) {t : CatalogTask}
    (ht : s.task session = some t) (hmeets : s.TaskMeets session t) :
    s.OutcomeSound session (s.outcome session drawn t) := by
  have hsound := h.task ht
  cases t with
  | selectSection sectionId schema =>
      show s.OutcomeSound session (s.selectSection sectionId schema)
      unfold CatalogSystem.selectSection
      split
      · exact .continues trivial nofun
      · exact h.unchanged
  | selectMax sectionId schema => exact .continues trivial nofun
  | insertSchema sectionId schema version =>
      exact h.insertSchema sectionId schema version
  | selectDraft sectionId schemaId schema => exact h.selectDraft
  | storeSchema schemaId schema => exact h.storeSchema hmeets
  | selectTarget sectionId schemaId => exact h.selectTarget
  | selectPrevious sectionId schemaId => exact Sound.selectPrevious hsound
  | archivePrevious sectionId schemaId previous =>
      exact Sound.archivePrevious hsound
  | activate sectionId schemaId archived => exact h.activate hsound
  | repoint sectionId schemaId archived => exact h.repoint ht
  | commitPublish sectionId schemaId archived => exact .ends (h.publish ht drawn.now)
  | postChain request => exact h.postChain request
  | postLock request found =>
      show s.OutcomeSound session (s.postLock session request found)
      unfold CatalogSystem.postLock
      split
      · exact .waits
      · exact h.postCategorized request _ _
  | postValidate request locked categorization => exact h.postValidate hmeets
  | postInsert request locked categorization validated =>
      show s.OutcomeSound session
        (s.postInsert drawn request locked categorization validated)
      exact h.postInsert hsound
  | postCommit locked lot => exact h.postCommit hsound
  | patchSelect request => exact h.patchSelect request
  | patchChain request existing => exact h.patchChain hsound
  | patchLock request existing found => exact h.patchLock hsound
  | patchValidate request existing locked categorization =>
      exact h.patchValidate hsound hmeets
  | patchUpdate request existing locked categorization validated =>
      show s.OutcomeSound session
        (s.patchUpdate drawn request existing locked categorization validated)
      exact h.patchUpdate hsound
  | patchCommit existing locked lot => exact h.setLot hsound

/-- So does the task that goes on. -/
theorem Sound.advance (h : s.Sound) (hmeets : s.Meets (.advance session drawn)) :
    (s.advance session drawn).Sound
      ∧ s.db.Evolves (s.advance session drawn).db := by
  unfold CatalogSystem.advance
  cases ht : s.task session with
  | none => exact ⟨h, .refl s.db⟩
  | some t =>
      have hout : s.OutcomeSound session (s.outcome session drawn t) :=
        h.outcome ht (hmeets t ht)
      dsimp only
      cases houtcome : s.outcome session drawn t with
      | waits => exact ⟨h, .refl s.db⟩
      | continues t' =>
          rw [houtcome] at hout
          cases hout with
          | continues htask halone =>
              exact ⟨h.setTask htask halone, .refl s.db⟩
      | ends db =>
          rw [houtcome] at hout
          cases hout with
          | ends hrows =>
              exact ⟨h.ends hrows.rows hrows.evolves hrows.active,
                hrows.evolves⟩

/-- A section is written without its version. -/
theorem rowsSound_setSection {db : CatalogDb} (h : RowsSound db)
    {sectionId : Uuid} {row : SectionRow}
    (hkept : ∀ old, db.sections sectionId = some old →
      row.currentSchemaVersion = old.currentSchemaVersion) :
    RowsSound { db with
      sections := Function.update db.sections sectionId (some row) } := by
  refine ⟨h.published, ?_, h.oneActive, ?_, h.lots⟩
  · intro r hr
    show (Function.update db.sections sectionId (some row) r.sectionId).isSome
      = true
    by_cases hsection : r.sectionId = sectionId
    · rw [hsection, Function.update_self]
      rfl
    · rw [Function.update_of_ne hsection]
      exact h.sectioned r hr
  · intro r hr hactive
    show (Function.update db.sections sectionId (some row) r.sectionId).bind _
      = some r.version
    have hcurrent := h.current r hr hactive
    by_cases hsection : r.sectionId = sectionId
    · rw [hsection] at hcurrent ⊢
      obtain ⟨old, hold, hversion⟩ := Option.bind_eq_some_iff.mp hcurrent
      rw [Function.update_self, Option.bind_some, hkept old hold]
      exact hversion
    · rw [Function.update_of_ne hsection]
      exact hcurrent

/-- A task that begins has read and written nothing. -/
theorem Sound.request (h : s.Sound) {t : CatalogTask}
    (ht : TaskSound s.db t) (hinactive : t.activated = none) :
    (s.request session t).Sound := by
  unfold CatalogSystem.request
  split
  · exact h
  · refine h.setTask ht ?_
    intro sectionId hactivated
    rw [hinactive] at hactivated
    cases hactivated

/-- A task that begins leaves the database alone. -/
theorem request_db {t : CatalogTask} : (s.request session t).db = s.db := by
  unfold CatalogSystem.request
  split <;> rfl

/-- Every step that meets its condition keeps published versions and the
soundness of lots. -/
theorem Sound.step (h : s.Sound) (e : CatalogEvent) (hmeets : s.Meets e) :
    (s.step e).Sound ∧ s.db.Evolves (s.step e).db := by
  have hrequest : ∀ (session : Nat) (t : CatalogTask), TaskSound s.db t →
      t.activated = none → (s.request session t).Sound
        ∧ s.db.Evolves (s.request session t).db := by
    intro session t ht hinactive
    exact ⟨h.request ht hinactive, .of_same (by rw [request_db])⟩
  have hsame : ∀ db : CatalogDb, RowsSound db → db.schemas = s.db.schemas →
      Sound ⟨db, s.tasks⟩ ∧ s.db.Evolves db := by
    intro db hrows hdb
    exact ⟨h.of_same hrows hdb, .of_same hdb⟩
  cases e with
  | setGroup groupId status =>
      rw [CatalogSystem.step, CatalogSystem.setGroup]
      split
      · exact ⟨h, .refl s.db⟩
      · exact hsame _ ⟨h.rows.published, h.rows.sectioned, h.rows.oneActive,
          h.rows.current, h.rows.lots⟩ rfl
  | setGame gameId row =>
      rw [CatalogSystem.step, CatalogSystem.setGame]
      split
      · exact ⟨h, .refl s.db⟩
      · exact hsame _ ⟨h.rows.published, h.rows.sectioned, h.rows.oneActive,
          h.rows.current, h.rows.lots⟩ rfl
  | createSection sectionId row =>
      rw [CatalogSystem.step, CatalogSystem.createSection]
      split
      · exact ⟨h, .refl s.db⟩
      · next hnew =>
          refine hsame _ (rowsSound_setSection h.rows ?_) rfl
          intro old hold
          rw [hold] at hnew
          exact absurd rfl hnew
  | editSection sectionId row =>
      rw [CatalogSystem.step, CatalogSystem.editSection]
      split
      · exact ⟨h, .refl s.db⟩
      · next old hold =>
          split
          · exact ⟨h, .refl s.db⟩
          · refine hsame _ (rowsSound_setSection h.rows ?_) rfl
            intro old' hold'
            rw [Option.some.inj (hold.symm.trans hold')]
  | createSchemaVersion session sectionId schema =>
      exact hrequest session _ trivial rfl
  | updateSchemaVersion session sectionId schemaId schema =>
      exact hrequest session _ trivial rfl
  | publishSchemaVersion session sectionId schemaId =>
      exact hrequest session _ trivial rfl
  | post session request => exact hrequest session _ trivial rfl
  | patch session request => exact hrequest session _ trivial rfl
  | advance session drawn => exact h.advance hmeets
  | fail session =>
      refine ⟨h.ends h.rows (.refl s.db) ?_, .refl s.db⟩
      intro x _ _ sectionId _
      exact noNewActive_of_same rfl sectionId

/-- At the start there are no lots. -/
theorem sound_start : start.Sound where
  rows := {
    published := fun _ h => absurd h List.not_mem_nil
    sectioned := fun _ h => absurd h List.not_mem_nil
    oneActive := fun _ h => absurd h List.not_mem_nil
    current := fun _ h => absurd h List.not_mem_nil
    lots := fun _ _ h => absurd h.symm (Option.some_ne_none _) }
  tasks := fun _ h => absurd h List.not_mem_nil
  alone := fun _ h => absurd h List.not_mem_nil

/-- What every run keeps, besides what it makes of the rows. -/
theorem run_sound {s : CatalogSystem} (h : s.Sound) {l : List CatalogEvent}
    (hl : Along step Meets s l) :
    (run step s l).Sound ∧ s.db.Evolves (run step s l).db := by
  induction l generalizing s with
  | nil => exact ⟨h, .refl s.db⟩
  | cons e l ih =>
      obtain ⟨hstep, hevolves⟩ := h.step e hl.1
      obtain ⟨hrun, hrest⟩ := ih hstep hl.2
      exact ⟨hrun, hevolves.trans hrest⟩

end CatalogSystem

-- =============================================================== results

/-- One active version in a section, which is the current one, and valid
lots. -/
structure CatalogDb.Consistent (db : CatalogDb) : Prop where
  oneActive : ∀ r ∈ db.schemas.rows, ∀ r' ∈ db.schemas.rows,
    r.sectionId = r'.sectionId → r.status = .active → r'.status = .active →
    r = r'
  current : ∀ r ∈ db.schemas.rows, r.status = .active →
    ∃ row, db.sections r.sectionId = some row
      ∧ row.currentSchemaVersion = some r.version
  lots : ∀ id lot sectionId version, db.lots id = some lot →
    lot.columns.sectionId = some sectionId →
    lot.columns.schemaVersion = some version →
    ∃ r, db.schemaUnder sectionId version = some r
      ∧ lot.columns.metadata.Conforms r.schema

/-- Published versions are still there, with the schemas they had. -/
def CatalogDb.KeepsPublished (db db' : CatalogDb) : Prop :=
  ∀ r ∈ db.schemas.rows, r.publishedAt ≠ none →
    ∃ r' ∈ db'.schemas.rows, r'.id = r.id ∧ r'.sectionId = r.sectionId
      ∧ r'.version = r.version ∧ r'.schema = r.schema

/-- In a sound database every lot conforms to the version it is pinned to,
and a section has one active version. -/
theorem RowsSound.consistent {db : CatalogDb} (h : RowsSound db) :
    db.Consistent where
  oneActive r hr r' hr' hsection hactive hactive' :=
    Table.eq_of_key_eq hr hr' (h.oneActive r hr r' hr' hsection hactive hactive')
  current r hr hactive := Option.bind_eq_some_iff.mp (h.current r hr hactive)
  lots id lot sectionId version hlot hsection hversion := by
    obtain ⟨r, hr, -, hconforms, -⟩ :=
      h.lots id lot hlot sectionId version hsection hversion
    exact ⟨r, hr, hconforms⟩

/-- A published version keeps its number and its schema. -/
theorem RowsSound.keepsPublished {db db' : CatalogDb} (h : RowsSound db)
    (hdb : db.Evolves db') : db.KeepsPublished db' := by
  intro r hr hpublished
  obtain ⟨r', hr', hfollows⟩ := hdb.mem hr
  have hstatus : r.status ≠ .draft := by
    intro hdraft
    exact hpublished ((h.published r hr).mp hdraft)
  exact ⟨r', hr', hfollows.id, hfollows.sectionId, hfollows.version,
    hfollows.schema hstatus⟩

namespace CatalogSystem

/-- In a run in which every rewritten schema is still a draft and metadata
are stored as they are, the active versions are the current ones, published
schemas stay what they are and lots stay valid. -/
theorem catalog_consistent (l₁ l₂ : List CatalogEvent)
    (h : Along step Meets start (l₁ ++ l₂)) :
    (run step start (l₁ ++ l₂)).db.Consistent
      ∧ (run step start l₁).db.KeepsPublished
          (run step start (l₁ ++ l₂)).db := by
  obtain ⟨hfirst, hrest⟩ := along_append.mp h
  obtain ⟨hmiddle, -⟩ := run_sound sound_start hfirst
  obtain ⟨hend, hevolves⟩ := run_sound hmiddle hrest
  rw [run_append]
  exact ⟨hend.rows.consistent, hmiddle.rows.keepsPublished hevolves⟩

-- ---------------------------------------------------- a late update

/-- A section opens with a first schema and sells one lot under it. -/
def firstLot : List CatalogEvent :=
  let drawn : Drawn := ⟨⟨5⟩, 0, id⟩
  let rank : CatalogFieldInput := ⟨"rank", "Rank", .text, true, none, none, none⟩
  [.setGroup ⟨1⟩ .active, .setGame ⟨2⟩ ⟨⟨1⟩, .active⟩,
    .createSection ⟨3⟩ ⟨some ⟨4⟩, ⟨2⟩, .service, [.manual], .active, none⟩,
    .createSchemaVersion 0 ⟨3⟩ [rank], .advance 0 drawn, .advance 0 drawn,
    .advance 0 drawn]

/-- Another administrator is about to make the rank a number. -/
def editRank : List CatalogEvent :=
  let rank : CatalogFieldInput :=
    ⟨"rank", "Rank", .number, true, none, none, none⟩
  [.updateSchemaVersion 1 ⟨3⟩ ⟨5⟩ [rank], .advance 1 ⟨⟨0⟩, 0, id⟩]

/-- The schema is published and a lot is created. -/
def sellLot : List CatalogEvent :=
  let drawn : Drawn := ⟨⟨6⟩, 1, id⟩
  let input : ProductInput := {
    categoryId := none
    gameId := none
    sectionId := some ⟨3⟩
    title := ⟨"Gold rank", by decide⟩
    description := ⟨"A rank for one season.", by decide⟩
    price := "19.1"
    currency := ⟨"UAH", by decide⟩
    stock := 1
    deliveryType := .manual
    productType := none
    oldPrice := none
    server := none
    platform := none
    deliveryTemplate := none
    metadata := fun key => if key = "rank" then some (.str "gold") else none }
  [.publishSchemaVersion 0 ⟨3⟩ ⟨5⟩, .advance 0 drawn, .advance 0 drawn,
    .advance 0 drawn, .advance 0 drawn, .advance 0 drawn,
    .post 2 ⟨input, ⟨⟨7⟩, .user, true⟩⟩, .advance 2 drawn, .advance 2 drawn,
    .advance 2 drawn, .advance 2 drawn, .advance 2 drawn]

/-- A run that sells a lot meets the condition and leaves a consistent
catalog. -/
theorem catalog_consistent_firstLot :
    Along step Meets start (firstLot ++ sellLot)
      ∧ (run step start (firstLot ++ sellLot)).db.Consistent :=
  have h : Along step Meets start (firstLot ++ sellLot) := by decide
  ⟨h, (catalog_consistent firstLot sellLot h).1⟩

/-- The rank is made a number after the lot was created. -/
def lateUpdate : List CatalogEvent :=
  firstLot ++ editRank ++ sellLot ++ [.advance 1 ⟨⟨0⟩, 2, id⟩]

/-- An update that was under way when its draft was published breaks the lot
that was sold meanwhile. -/
theorem lateUpdate_inconsistent :
    ¬ (∀ l₁ l₂, (run step start (l₁ ++ l₂)).db.Consistent
      ∧ (run step start l₁).db.KeepsPublished
          (run step start (l₁ ++ l₂)).db) := by
  intro h
  obtain ⟨hconsistent, -⟩ := h lateUpdate []
  rw [List.append_nil] at hconsistent
  have hpinned : ((run step start lateUpdate).db.lots ⟨6⟩).map
      (fun lot => (lot.columns.sectionId, lot.columns.schemaVersion))
        = some (some ⟨3⟩, some 1) := by decide
  have hrefused : (((run step start lateUpdate).db.lots ⟨6⟩).bind fun lot =>
      ((run step start lateUpdate).db.schemaUnder ⟨3⟩ 1).map fun r =>
        (validateMetadataAgainstSchema r.schema lot.columns.metadata).isOk)
          = some false := by decide
  obtain ⟨lot, hlot, hcolumns⟩ := Option.map_eq_some_iff.mp hpinned
  obtain ⟨r, hr, hconforms⟩ := hconsistent.lots ⟨6⟩ lot ⟨3⟩ 1 hlot
    (congrArg Prod.fst hcolumns) (congrArg Prod.snd hcolumns)
  rw [hlot, Option.bind_some, hr, Option.map_some, hconforms] at hrefused
  cases hrefused

end CatalogSystem

end Skrynia
