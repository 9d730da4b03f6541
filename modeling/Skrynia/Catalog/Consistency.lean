/-
What holds of schema versions and lots in every run.

At most one publication is past its activation in a section, because a
second one waits for the entry in the partial unique index. So the active
version and the section's current version change together, whatever else
is under way (`TaskSound`, `Sound.alone`).

Lots stay valid as long as published schemas stay what they are. One
statement may rewrite a published schema: the UPDATE of
`updateSchemaVersion`, whose draft check was an earlier statement. And the
database may store other metadata than it was given. The two conditions
of `Meets` exclude just these.
-/
import Skrynia.Catalog.SchemaVersions

namespace Skrynia

open Relational Stepping

-- ========================================================= what is stored

/-- What was stored once is stored as itself. -/
theorem JsValue.stored_stored (v : JsValue) : v.stored.stored = v.stored := by
  cases v with
  | num x => cases x <;> rfl
  | _ => rfl

/-- The same of all metadata of a lot. -/
theorem Metadata.stored_stored (m : Metadata) :
    m.stored.stored = m.stored := by
  funext key
  unfold Metadata.stored
  cases m key with
  | none => rfl
  | some v => exact congrArg some v.stored_stored

-- ================================================== schema rows over time

/-- A later version of the row. -/
structure SchemaRow.Follows (r r' : SchemaRow) : Prop where
  id : r'.id = r.id
  sectionId : r'.sectionId = r.sectionId
  version : r'.version = r.version
  status : r.status ≠ .draft → r'.status ≠ .draft
  schema : r.status ≠ .draft → r'.schema = r.schema

/-- A row follows itself. -/
theorem SchemaRow.Follows.refl (r : SchemaRow) : r.Follows r :=
  ⟨rfl, rfl, rfl, fun h => h, fun _ => rfl⟩

/-- A later version of a later version is a later version. -/
theorem SchemaRow.Follows.trans {r r' r'' : SchemaRow} (h : r.Follows r')
    (h' : r'.Follows r'') : r.Follows r'' where
  id := h'.id.trans h.id
  sectionId := h'.sectionId.trans h.sectionId
  version := h'.version.trans h.version
  status hr := h'.status (h.status hr)
  schema hr := (h'.schema (h.status hr)).trans (h.schema hr)

namespace CatalogDb

/-- The same rows, each as it was or later, and new ones after them. -/
def Evolves (db db' : CatalogDb) : Prop :=
  ∃ f new, db'.schemas.rows = db.schemas.rows.map f ++ new
    ∧ ∀ r ∈ db.schemas.rows, r.Follows (f r)

variable {db db' db'' : CatalogDb}

/-- With the schemas unchanged the database has gone on. -/
theorem Evolves.of_same (h : db'.schemas = db.schemas) : db.Evolves db' := by
  refine ⟨id, [], ?_, ?_⟩
  · rw [h, List.map_id, List.append_nil]
  · intro r _
    exact .refl r

/-- A database has gone on from itself. -/
theorem Evolves.refl (db : CatalogDb) : db.Evolves db := .of_same rfl

/-- Going on twice is going on. -/
theorem Evolves.trans (h : db.Evolves db') (h' : db'.Evolves db'') :
    db.Evolves db'' := by
  obtain ⟨f, new, hrows, hf⟩ := h
  obtain ⟨g, new', hrows', hg⟩ := h'
  refine ⟨g ∘ f, new.map g ++ new', ?_, ?_⟩
  · rw [hrows', hrows, List.map_append, List.map_map, List.append_assoc]
  · intro r hr
    refine (hf r hr).trans (hg (f r) ?_)
    rw [hrows]
    exact List.mem_append_left _ (List.mem_map_of_mem hr)

/-- Every schema row is still there, in a later version. -/
theorem Evolves.mem (h : db.Evolves db') {r : SchemaRow}
    (hr : r ∈ db.schemas.rows) : ∃ r' ∈ db'.schemas.rows, r.Follows r' := by
  obtain ⟨f, new, hrows, hf⟩ := h
  refine ⟨f r, ?_, hf r hr⟩
  rw [hrows]
  exact List.mem_append_left _ (List.mem_map_of_mem hr)

/-- A search depends on the predicate at the members only. -/
theorem find?_congr_mem {α : Type*} {p q : α → Bool} {l : List α}
    (h : ∀ x ∈ l, p x = q x) : l.find? p = l.find? q := by
  induction l with
  | nil => rfl
  | cons x l ih =>
      rw [List.find?_cons, List.find?_cons, h x List.mem_cons_self,
        ih fun y hy => h y (List.mem_cons_of_mem x hy)]

/-- A search by what does not change finds the same row. -/
theorem Evolves.find (h : db.Evolves db') {p : SchemaRow → Bool}
    (hp : ∀ r r', r.Follows r' → p r' = p r) {r : SchemaRow}
    (hr : db.schemas.rows.find? p = some r) :
    ∃ r', db'.schemas.rows.find? p = some r' ∧ r.Follows r' := by
  obtain ⟨f, new, hrows, hf⟩ := h
  have hmem := List.mem_of_find?_eq_some hr
  refine ⟨f r, ?_, hf r hmem⟩
  have hmapped : (db.schemas.rows.map f).find? p = some (f r) := by
    rw [List.find?_map]
    have hsame : db.schemas.rows.find? (p ∘ f) = db.schemas.rows.find? p := by
      apply find?_congr_mem
      intro x hx
      exact hp x (f x) (hf x hx)
    rw [hsame, hr, Option.map_some]
  rw [hrows, List.find?_append, hmapped, Option.some_or]

/-- A version of a section is still found, in a later version of its row. -/
theorem Evolves.schemaUnder (h : db.Evolves db') {sectionId : Uuid}
    {version : Nat} {r : SchemaRow}
    (hr : db.schemaUnder sectionId version = some r) :
    ∃ r', db'.schemaUnder sectionId version = some r' ∧ r.Follows r' := by
  refine h.find ?_ hr
  intro r r' hfollows
  rw [hfollows.sectionId, hfollows.version]

/-- So is a row that is looked up by its id. -/
theorem Evolves.find? (h : db.Evolves db') {schemaId : Uuid} {r : SchemaRow}
    (hr : db.schemas.find? schemaId = some r) :
    ∃ r', db'.schemas.find? schemaId = some r' ∧ r.Follows r' := by
  refine h.find ?_ hr
  intro r r' hfollows
  rw [hfollows.id]

end CatalogDb

-- ================================================= what handlers rely on

namespace CatalogDb

variable (db : CatalogDb)

/-- The metadata fits the published schema under a section and version. -/
def Pins (sectionId : Uuid) (version : Nat) (m : Metadata) : Prop :=
  ∃ r, db.schemaUnder sectionId version = some r ∧ r.status ≠ .draft
    ∧ m.Conforms r.schema ∧ m.stored = m

/-- The columns agree with each other. -/
def LotSound (columns : LotColumns) : Prop :=
  ∀ sectionId version, columns.sectionId = some sectionId →
    columns.schemaVersion = some version →
    db.Pins sectionId version columns.metadata

/-- The schema row belongs to the section. -/
def Belongs (sectionId schemaId : Uuid) : Prop :=
  ∃ r, db.schemas.find? schemaId = some r ∧ r.sectionId = sectionId

/-- The schema row has been published. -/
def Published (schemaId : Uuid) : Prop :=
  ∃ r, db.schemas.find? schemaId = some r ∧ r.status ≠ .draft

/-- The only rows of the section that may be active. -/
def ActiveWithin (sectionId schemaId : Uuid) (archived : Option Uuid) : Prop :=
  ∀ r ∈ db.schemas.rows, r.sectionId = sectionId → r.status = .active →
    r.id = schemaId ∨ archived = some r.id

/-- What a validation was good for. -/
def ValidFor (sectionId : Option Uuid) (validated : ValidatedMetadata) :
    Prop :=
  ∀ s version, sectionId = some s → validated.schemaVersion = some version →
    db.Pins s version validated.metadata.stored

end CatalogDb

/-- What is known when a request is checked. -/
structure PatchSound (db : CatalogDb) (request : PatchRequest)
    (existing : Lot) : Prop where
  lot : db.LotSound existing.columns
  authorized : request.input.sectionChanged existing = true →
    request.input.metadata.isSome = true

/-- What a categorization is good for. -/
structure CategorizationSound (request : PatchRequest) (existing : Lot)
    (categorization : PatchCategorization) : Prop where
  target : categorization.sectionId.getD existing.columns.sectionId
    = request.input.targetSectionId existing
  current : request.input.activates = true → request.input.metadata = none →
    (request.input.targetSectionId existing).isSome = true →
    existing.columns.schemaVersion = categorization.activeSchemaVersion

/-- What is known before the statement of a task. -/
def TaskSound (db : CatalogDb) : CatalogTask → Prop
  | .selectPrevious sectionId schemaId => db.Belongs sectionId schemaId
  | .archivePrevious sectionId schemaId previous =>
      db.Belongs sectionId schemaId ∧ db.Published previous
  | .activate sectionId schemaId archived =>
      db.Belongs sectionId schemaId ∧ ∀ a ∈ archived, db.Published a
  | .repoint sectionId schemaId archived =>
      db.Belongs sectionId schemaId ∧ (∀ a ∈ archived, db.Published a)
        ∧ db.ActiveWithin sectionId schemaId archived
  | .commitPublish sectionId schemaId archived =>
      db.Belongs sectionId schemaId ∧ (∀ a ∈ archived, db.Published a)
        ∧ db.ActiveWithin sectionId schemaId archived
  | .postInsert _ _ categorization validated =>
      db.ValidFor categorization.sectionId validated
  | .postCommit _ lot => db.LotSound lot.columns
  | .patchChain request existing => PatchSound db request existing
  | .patchLock request existing found =>
      PatchSound db request existing
        ∧ request.input.chainOf existing = some found.sectionId
  | .patchValidate request existing _ categorization =>
      PatchSound db request existing
        ∧ CategorizationSound request existing categorization
        ∧ request.input.validates = true
  | .patchUpdate request existing _ categorization validated =>
      PatchSound db request existing
        ∧ CategorizationSound request existing categorization
        ∧ match validated with
          | none => request.input.targetSectionId existing
              = existing.columns.sectionId
          | some validated =>
              db.ValidFor (request.input.targetSectionId existing) validated
  | .patchCommit _ _ lot => db.LotSound lot.columns
  | _ => True

section Persistence

variable {db db' : CatalogDb}

/-- Metadata that is valid under its pinned version stays so, as published
schemas do not change. -/
theorem CatalogDb.Pins.evolves {sectionId : Uuid} {version : Nat}
    {m : Metadata} (h : db.Pins sectionId version m)
    (hdb : db.Evolves db') : db'.Pins sectionId version m := by
  obtain ⟨r, hr, hstatus, hconforms, hstored⟩ := h
  obtain ⟨r', hr', hfollows⟩ := hdb.schemaUnder hr
  refine ⟨r', hr', hfollows.status hstatus, ?_, hstored⟩
  rw [hfollows.schema hstatus]
  exact hconforms

/-- A lot stays sound. -/
theorem CatalogDb.LotSound.evolves {columns : LotColumns}
    (h : db.LotSound columns) (hdb : db.Evolves db') :
    db'.LotSound columns := by
  intro sectionId version hsection hversion
  exact (h sectionId version hsection hversion).evolves hdb

/-- What a request has validated stays valid while others go on. -/
theorem CatalogDb.ValidFor.evolves {sectionId : Option Uuid}
    {validated : ValidatedMetadata} (h : db.ValidFor sectionId validated)
    (hdb : db.Evolves db') : db'.ValidFor sectionId validated := by
  intro s version hsection hversion
  exact (h s version hsection hversion).evolves hdb

/-- A schema stays in its section. -/
theorem CatalogDb.Belongs.evolves {sectionId schemaId : Uuid}
    (h : db.Belongs sectionId schemaId) (hdb : db.Evolves db') :
    db'.Belongs sectionId schemaId := by
  obtain ⟨r, hr, hsection⟩ := h
  obtain ⟨r', hr', hfollows⟩ := hdb.find? hr
  exact ⟨r', hr', hfollows.sectionId.trans hsection⟩

/-- What is published stays published. -/
theorem CatalogDb.Published.evolves {schemaId : Uuid}
    (h : db.Published schemaId) (hdb : db.Evolves db') :
    db'.Published schemaId := by
  obtain ⟨r, hr, hstatus⟩ := h
  obtain ⟨r', hr', hfollows⟩ := hdb.find? hr
  exact ⟨r', hr', hfollows.status hstatus⟩

/-- What a PATCH has read of its lot stays true. -/
theorem PatchSound.evolves {request : PatchRequest} {existing : Lot}
    (h : PatchSound db request existing) (hdb : db.Evolves db') :
    PatchSound db' request existing :=
  ⟨h.lot.evolves hdb, h.authorized⟩

/-- Every active row of the section was active before. -/
def NoNewActive (db db' : CatalogDb) (sectionId : Uuid) : Prop :=
  ∀ r' ∈ db'.schemas.rows, r'.sectionId = sectionId → r'.status = .active →
    ∃ r ∈ db.schemas.rows, r.id = r'.id ∧ r.sectionId = sectionId
      ∧ r.status = .active

/-- The active versions of a section stay within two, if no new one has
become active. -/
theorem CatalogDb.ActiveWithin.evolves {sectionId schemaId : Uuid}
    {archived : Option Uuid}
    (h : db.ActiveWithin sectionId schemaId archived)
    (hactive : NoNewActive db db' sectionId) :
    db'.ActiveWithin sectionId schemaId archived := by
  intro r' hr' hsection hstatus
  obtain ⟨r, hr, hid, hsection, hstatus⟩ := hactive r' hr' hsection hstatus
  rw [← hid]
  exact h r hr hsection hstatus

/-- A task that is under way stays sound, if nobody else activates a version
in its section. -/
theorem TaskSound.evolves {t : CatalogTask} (h : TaskSound db t)
    (hdb : db.Evolves db')
    (hactive : ∀ sectionId, t.activated = some sectionId →
      NoNewActive db db' sectionId) : TaskSound db' t := by
  cases t with
  | selectPrevious sectionId schemaId =>
      exact CatalogDb.Belongs.evolves h hdb
  | archivePrevious sectionId schemaId previous =>
      exact ⟨h.1.evolves hdb, h.2.evolves hdb⟩
  | activate sectionId schemaId archived =>
      exact ⟨h.1.evolves hdb, fun a ha => (h.2 a ha).evolves hdb⟩
  | repoint sectionId schemaId archived =>
      obtain ⟨hbelongs, harchived, hwithin⟩ := h
      exact ⟨hbelongs.evolves hdb, fun a ha => (harchived a ha).evolves hdb,
        hwithin.evolves (hactive sectionId rfl)⟩
  | commitPublish sectionId schemaId archived =>
      obtain ⟨hbelongs, harchived, hwithin⟩ := h
      exact ⟨hbelongs.evolves hdb, fun a ha => (harchived a ha).evolves hdb,
        hwithin.evolves (hactive sectionId rfl)⟩
  | postInsert request locked categorization validated =>
      exact CatalogDb.ValidFor.evolves h hdb
  | postCommit locked lot => exact CatalogDb.LotSound.evolves h hdb
  | patchChain request existing => exact PatchSound.evolves h hdb
  | patchLock request existing found => exact ⟨h.1.evolves hdb, h.2⟩
  | patchValidate request existing locked categorization =>
      exact ⟨h.1.evolves hdb, h.2⟩
  | patchUpdate request existing locked categorization validated =>
      obtain ⟨hpatch, hcategorization, hvalid⟩ := h
      refine ⟨hpatch.evolves hdb, hcategorization, ?_⟩
      cases validated with
      | none => exact hvalid
      | some validated => exact CatalogDb.ValidFor.evolves hvalid hdb
  | patchCommit existing locked lot => exact CatalogDb.LotSound.evolves h hdb
  | _ => trivial

end Persistence

-- ============================================================ invariants

/-- What holds of the committed rows. -/
structure RowsSound (db : CatalogDb) : Prop where
  published : ∀ r ∈ db.schemas.rows, r.status = .draft ↔ r.publishedAt = none
  sectioned : ∀ r ∈ db.schemas.rows, (db.sections r.sectionId).isSome = true
  oneActive : ∀ r ∈ db.schemas.rows, ∀ r' ∈ db.schemas.rows,
    r.sectionId = r'.sectionId → r.status = .active → r'.status = .active →
    r.id = r'.id
  current : ∀ r ∈ db.schemas.rows, r.status = .active →
    (db.sections r.sectionId).bind SectionRow.currentSchemaVersion
      = some r.version
  lots : ∀ id lot, db.lots id = some lot → db.LotSound lot.columns

namespace CatalogSystem

/-- No other session has activated a version of the section. -/
def AloneIn (s : CatalogSystem) (session : Nat) (sectionId : Uuid) : Prop :=
  ∀ x ∈ s.tasks, x.1 ≠ session → x.2.activated ≠ some sectionId

/-- The rows are sound, every task is, and a task past its activation is
alone in its section. -/
structure Sound (s : CatalogSystem) : Prop where
  rows : RowsSound s.db
  tasks : ∀ x ∈ s.tasks, TaskSound s.db x.2
  alone : ∀ x ∈ s.tasks, ∀ sectionId, x.2.activated = some sectionId →
    s.AloneIn x.1 sectionId

variable {s : CatalogSystem} {session : Nat} {drawn : Drawn}

/-- A task of a session is among the tasks. -/
theorem mem_of_task {t : CatalogTask} (h : s.task session = some t) :
    (session, t) ∈ s.tasks :=
  Held.mem_of.mp (List.mem_of_head? h)

/-- The invariant of one task. -/
theorem Sound.task (h : s.Sound) {t : CatalogTask}
    (ht : s.task session = some t) : TaskSound s.db t :=
  h.tasks _ (mem_of_task ht)

/-- The next task of a session. -/
theorem Sound.setTask (h : s.Sound) {t : CatalogTask}
    (ht : TaskSound s.db t)
    (halone : ∀ sectionId, t.activated = some sectionId →
      s.AloneIn session sectionId) : (s.setTask session t).Sound := by
  have hmem : ∀ x ∈ (s.setTask session t).tasks,
      (x ∈ s.tasks ∧ x.1 ≠ session) ∨ x = (session, t) := by
    intro x hx
    rcases Held.mem_add.mp hx with hx | ⟨hsession, hx⟩
    · exact Or.inl (Held.mem_release.mp hx)
    · exact Or.inr (Prod.ext hsession (List.mem_singleton.mp hx))
  refine ⟨h.rows, ?_, ?_⟩
  · intro x hx
    rcases hmem x hx with ⟨hx, -⟩ | rfl
    · exact h.tasks x hx
    · exact ht
  · intro x hx sectionId hactivated y hy hne
    rcases hmem x hx with ⟨hx, hother⟩ | rfl
    · rcases hmem y hy with ⟨hy, -⟩ | rfl
      · exact h.alone x hx sectionId hactivated y hy hne
      · intro hmine
        exact halone sectionId hmine x hx hother hactivated
    · rcases hmem y hy with ⟨hy, -⟩ | rfl
      · exact halone sectionId hactivated y hy hne
      · exact absurd rfl hne

/-- The rows after a session has ended, with no task of it. -/
theorem Sound.ends (h : s.Sound) {db : CatalogDb} (hrows : RowsSound db)
    (hdb : s.db.Evolves db)
    (hactive : ∀ x ∈ s.tasks, x.1 ≠ session → ∀ sectionId,
      x.2.activated = some sectionId → NoNewActive s.db db sectionId) :
    Sound ⟨db, s.tasks.release session⟩ := by
  refine ⟨hrows, ?_, ?_⟩
  · intro x hx
    obtain ⟨hx, hne⟩ := Held.mem_release.mp hx
    exact (h.tasks x hx).evolves hdb (hactive x hx hne)
  · intro x hx sectionId hactivated y hy hne
    obtain ⟨hx, -⟩ := Held.mem_release.mp hx
    obtain ⟨hy, -⟩ := Held.mem_release.mp hy
    exact h.alone x hx sectionId hactivated y hy hne

/-- With the schemas unchanged none becomes active. -/
theorem noNewActive_of_same {db db' : CatalogDb}
    (h : db'.schemas = db.schemas) (sectionId : Uuid) :
    NoNewActive db db' sectionId := by
  intro r hr hsection hstatus
  rw [h] at hr
  exact ⟨r, hr, rfl, hsection, hstatus⟩

/-- Rows that the tasks do not read have changed. -/
theorem Sound.of_same (h : s.Sound) {db : CatalogDb} (hrows : RowsSound db)
    (hdb : db.schemas = s.db.schemas) : Sound ⟨db, s.tasks⟩ := by
  refine ⟨hrows, ?_, h.alone⟩
  intro x hx
  exact (h.tasks x hx).evolves (.of_same hdb) fun sectionId _ =>
    noNewActive_of_same hdb sectionId

/-- The rows that a handler leaves. -/
structure EndSound (s : CatalogSystem) (session : Nat) (db : CatalogDb) :
    Prop where
  rows : RowsSound db
  evolves : s.db.Evolves db
  active : ∀ x ∈ s.tasks, x.1 ≠ session → ∀ sectionId,
    x.2.activated = some sectionId → NoNewActive s.db db sectionId

/-- What a statement may lead to: it waits, the task goes on soundly, or it
ends with a sound database. -/
inductive OutcomeSound (s : CatalogSystem) (session : Nat) :
    CatalogOutcome → Prop
  | waits : s.OutcomeSound session .waits
  | continues {t : CatalogTask} (task : TaskSound s.db t)
      (alone : ∀ sectionId, t.activated = some sectionId →
        s.AloneIn session sectionId) : s.OutcomeSound session (.continues t)
  | ends {db : CatalogDb} (rows : s.EndSound session db) :
      s.OutcomeSound session (.ends db)

/-- A task may end without having changed anything. -/
theorem Sound.unchanged (h : s.Sound) : s.OutcomeSound session (.ends s.db) :=
  .ends ⟨h.rows, .refl s.db, fun _ _ _ sectionId _ =>
    noNewActive_of_same rfl sectionId⟩

/-- Schema rows stay as they are. -/
theorem endSound_of_same {db : CatalogDb} (hrows : RowsSound db)
    (hdb : db.schemas = s.db.schemas) : s.EndSound session db :=
  ⟨hrows, .of_same hdb, fun _ _ _ sectionId _ =>
    noNewActive_of_same hdb sectionId⟩

-- ============================================== createSchemaVersion

/-- A draft may be inserted: it is active nowhere and pinned by no lot. -/
theorem rowsSound_insertSchema {db db' : CatalogDb} {r : SchemaRow}
    (h : RowsSound db) (hdraft : r.status = .draft)
    (hunpublished : r.publishedAt = none) (hdb : db.insertSchema r = some db') :
    RowsSound db' ∧ db.Evolves db'
      ∧ db'.schemas.rows = db.schemas.rows ++ [r] := by
  unfold CatalogDb.insertSchema at hdb
  split at hdb
  · cases hdb
  · next hallowed =>
      obtain ⟨schemas, hinsert, rfl⟩ := Option.map_eq_some_iff.mp hdb
      obtain ⟨-, hrows⟩ := Table.insert?_eq_some.mp hinsert
      have hsection : (db.sections r.sectionId).isSome = true := by
        rw [Option.isSome_iff_ne_none]
        intro hnone
        exact hallowed (Or.inl (Option.isNone_iff_eq_none.mpr hnone))
      have hinactive : r.status ≠ .active := by
        rw [hdraft]
        exact nofun
      have hmem : ∀ x ∈ schemas.rows, x ∈ db.schemas.rows ∨ x = r := by
        intro x hx
        rw [hrows] at hx
        rcases List.mem_append.mp hx with hx | hx
        · exact Or.inl hx
        · exact Or.inr (List.mem_singleton.mp hx)
      have hold : db.Evolves { db with schemas := schemas } :=
        ⟨id, [r], by rw [List.map_id]; exact hrows, fun x _ => .refl x⟩
      refine ⟨⟨?_, ?_, ?_, ?_, ?_⟩, hold, hrows⟩
      · intro x hx
        rcases hmem x hx with hx | rfl
        · exact h.published x hx
        · exact iff_of_true hdraft hunpublished
      · intro x hx
        rcases hmem x hx with hx | rfl
        · exact h.sectioned x hx
        · exact hsection
      · intro x hx y hy hsame hxactive hyactive
        rcases hmem x hx with hx | rfl
        · rcases hmem y hy with hy | rfl
          · exact h.oneActive x hx y hy hsame hxactive hyactive
          · exact absurd hyactive hinactive
        · exact absurd hxactive hinactive
      · intro x hx hxactive
        rcases hmem x hx with hx | rfl
        · exact h.current x hx hxactive
        · exact absurd hxactive hinactive
      · intro id lot hlot
        exact (h.lots id lot hlot).evolves hold

/-- The insert of a draft, or its violation. -/
theorem Sound.insertSchema (h : s.Sound) (sectionId : Uuid)
    (schema : CatalogSchema) (version : Nat) :
    s.OutcomeSound session (s.insertSchema drawn sectionId schema version) := by
  unfold CatalogSystem.insertSchema
  cases hdb : s.db.insertSchema ⟨drawn.id, sectionId, version, schema, .draft,
      none⟩ with
  | none => exact h.unchanged
  | some db =>
      obtain ⟨hrows, hevolves, hnew⟩ :=
        rowsSound_insertSchema h.rows rfl rfl hdb
      refine .ends ⟨hrows, hevolves, ?_⟩
      · intro x _ _ sectionId _ r hr hsection hstatus
        rw [Option.getD_some, hnew] at hr
        rcases List.mem_append.mp hr with hr | hr
        · exact ⟨r, hr, rfl, hsection, hstatus⟩
        · rw [List.mem_singleton.mp hr] at hstatus
          cases hstatus

-- ============================================== updateSchemaVersion

/-- Each row, with another schema where it was the one meant. -/
theorem mem_setSchema {db : CatalogDb} {schemaId : Uuid}
    {schema : CatalogSchema} {r' : SchemaRow}
    (hr' : r' ∈ (db.setSchema schemaId schema).schemas.rows) :
    ∃ r ∈ db.schemas.rows, ∃ schema', r' = { r with schema := schema' } := by
  obtain ⟨r, hr, rfl⟩ := List.mem_map.mp hr'
  refine ⟨r, hr, ?_⟩
  split
  · exact ⟨schema, rfl⟩
  · exact ⟨r.schema, rfl⟩

/-- The schema of a draft may be rewritten. -/
theorem evolves_setSchema {db : CatalogDb} {schemaId : Uuid}
    {schema : CatalogSchema}
    (hdraft : ∀ r ∈ db.schemas.rows, r.id = schemaId → r.status = .draft) :
    db.Evolves (db.setSchema schemaId schema) := by
  refine ⟨_, [], (List.append_nil _).symm, ?_⟩
  intro r hr
  split
  · next hthis => exact ⟨rfl, rfl, rfl, fun h => h, fun h => absurd (hdraft r hr hthis) h⟩
  · exact .refl r

/-- A draft may be rewritten: nothing is pinned to it. -/
theorem Sound.storeSchema (h : s.Sound) {schemaId : Uuid}
    {schema : CatalogSchema} (hdraft : ¬ s.SchemaHeld session schemaId →
      ∀ r ∈ s.db.schemas.rows, r.id = schemaId → r.status = .draft) :
    s.OutcomeSound session (s.storeSchema session schemaId schema) := by
  unfold CatalogSystem.storeSchema
  split
  · exact .waits
  · next hfree =>
      have hevolves : s.db.Evolves (s.db.setSchema schemaId schema) :=
        evolves_setSchema (hdraft hfree)
      refine .ends ⟨⟨?_, ?_, ?_, ?_, ?_⟩, hevolves, ?_⟩
      · intro r' hr'
        obtain ⟨r, hr, _, rfl⟩ := mem_setSchema hr'
        exact h.rows.published r hr
      · intro r' hr'
        obtain ⟨r, hr, _, rfl⟩ := mem_setSchema hr'
        exact h.rows.sectioned r hr
      · intro x' hx' y' hy' hsame hxactive hyactive
        obtain ⟨x, hx, _, rfl⟩ := mem_setSchema hx'
        obtain ⟨y, hy, _, rfl⟩ := mem_setSchema hy'
        exact h.rows.oneActive x hx y hy hsame hxactive hyactive
      · intro r' hr' hactive
        obtain ⟨r, hr, _, rfl⟩ := mem_setSchema hr'
        exact h.rows.current r hr hactive
      · intro id lot hlot
        exact (h.rows.lots id lot hlot).evolves hevolves
      · intro x _ _ sectionId _ r' hr' hsame hactive
        obtain ⟨r, hr, _, rfl⟩ := mem_setSchema hr'
        exact ⟨r, hr, rfl, hsame, hactive⟩

/-- The row that is selected is that of the id, in the section. -/
theorem getSchemaRow_eq_some {sectionId schemaId : Uuid} {r : SchemaRow}
    (h : s.getSchemaRow sectionId schemaId = some r) :
    s.db.schemas.find? schemaId = some r ∧ r.sectionId = sectionId := by
  unfold getSchemaRow at h
  rw [Option.filter_eq_some_iff, decide_eq_true_eq] at h
  exact h

/-- An update begins by reading its draft. -/
theorem Sound.selectDraft (h : s.Sound) {sectionId schemaId : Uuid}
    {schema : List CatalogFieldInput} :
    s.OutcomeSound session (s.selectDraft sectionId schemaId schema) := by
  unfold CatalogSystem.selectDraft
  split
  · exact h.unchanged
  · split
    · exact h.unchanged
    · split
      · exact h.unchanged
      · exact .continues trivial nofun

-- ============================================= publishSchemaVersion

/-- A publication begins by reading its target. -/
theorem Sound.selectTarget (h : s.Sound) {sectionId schemaId : Uuid} :
    s.OutcomeSound session (s.selectTarget sectionId schemaId) := by
  unfold CatalogSystem.selectTarget
  split
  · exact h.unchanged
  · next r hr =>
      split
      · exact h.unchanged
      · exact .continues ⟨r, getSchemaRow_eq_some hr⟩ nofun

/-- Then it reads the version that is active now. -/
theorem Sound.selectPrevious {sectionId schemaId : Uuid}
    (ht : TaskSound s.db (.selectPrevious sectionId schemaId)) :
    s.OutcomeSound session (s.selectPrevious sectionId schemaId) := by
  unfold CatalogSystem.selectPrevious
  split
  · next r hr =>
      have hactive := List.find?_some hr
      rw [decide_eq_true_eq] at hactive
      refine .continues
        ⟨ht, r, Table.find?_of_mem (List.mem_of_find?_eq_some hr), ?_⟩ nofun
      rw [hactive.2]
      exact nofun
  · exact .continues ⟨ht, nofun⟩ nofun

/-- It archives that one. -/
theorem Sound.archivePrevious {sectionId schemaId previous : Uuid}
    (ht : TaskSound s.db (.archivePrevious sectionId schemaId previous)) :
    s.OutcomeSound session
      (s.archivePrevious session sectionId schemaId previous) := by
  unfold CatalogSystem.archivePrevious
  split
  · exact .waits
  · refine .continues ⟨ht.1, ?_⟩ nofun
    intro a ha
    rw [← Option.some.inj ha]
    exact ht.2

/-- An activation that went through is the only one, and what else was
active in the section is archived with it. -/
theorem Sound.activate (h : s.Sound) {sectionId schemaId : Uuid}
    {archived : Option Uuid}
    (ht : TaskSound s.db (.activate sectionId schemaId archived)) :
    s.OutcomeSound session (s.activate session sectionId schemaId archived) := by
  unfold CatalogSystem.activate
  split
  · exact .waits
  · next hfree =>
      split
      · exact h.unchanged
      · next hclear =>
          refine .continues ⟨ht.1, ht.2, ?_⟩ ?_
          · intro r hr hsection hactive
            by_contra hother
            rw [not_or] at hother
            exact hclear ⟨r, hr, hsection, hactive, hother⟩
          · intro section' hsection' x hx hne hactivated
            rw [← Option.some.inj hsection'] at hactivated
            exact hfree (Or.inr (Or.inl ⟨x, hx, hne, hactivated⟩))

/-- It repoints the section, past its activation and so alone. -/
theorem Sound.repoint (h : s.Sound) {sectionId schemaId : Uuid}
    {archived : Option Uuid}
    (htask : s.task session = some (.repoint sectionId schemaId archived)) :
    s.OutcomeSound session (s.repoint session sectionId schemaId archived) := by
  unfold CatalogSystem.repoint
  split
  · exact .waits
  · have ht := h.task htask
    exact .continues ht (h.alone _ (mem_of_task htask))

/-- A row after a publication. -/
theorem publishRow_cases (schemaId : Uuid) (archived : Option Uuid)
    (now : Timestamp) (r : SchemaRow) :
    (r.id = schemaId ∧ CatalogDb.publishRow schemaId archived now r
        = { r with
            status := .active
            publishedAt := some now })
      ∨ (archived = some r.id ∧ CatalogDb.publishRow schemaId archived now r
        = { r with status := .archived })
      ∨ (r.id ≠ schemaId ∧ archived ≠ some r.id
        ∧ CatalogDb.publishRow schemaId archived now r = r) := by
  unfold CatalogDb.publishRow
  split
  · next hid => exact Or.inl ⟨hid, rfl⟩
  · next hid =>
      split
      · next harchived => exact Or.inr (Or.inl ⟨harchived, rfl⟩)
      · next harchived => exact Or.inr (Or.inr ⟨hid, harchived, rfl⟩)

section Publish

variable {db : CatalogDb} {sectionId schemaId : Uuid}
  {archived : Option Uuid} {now : Timestamp}

/-- A publication rewrites the rows one by one. -/
theorem rows_publish : (db.publish sectionId schemaId archived now).schemas.rows
    = db.schemas.rows.map (CatalogDb.publishRow schemaId archived now) := by
  show List.map _ _ = _
  apply List.map_congr_left
  intro r _
  exact if_pos trivial

/-- Each row after it comes from a row before. -/
theorem mem_publish {r' : SchemaRow}
    (hr' : r' ∈ (db.publish sectionId schemaId archived now).schemas.rows) :
    ∃ r ∈ db.schemas.rows,
      CatalogDb.publishRow schemaId archived now r = r' := by
  rw [rows_publish] at hr'
  exact List.mem_map.mp hr'

/-- A publication is a step forward for every row. -/
theorem evolves_publish :
    db.Evolves (db.publish sectionId schemaId archived now) := by
  refine ⟨_, [], by rw [rows_publish, List.append_nil], ?_⟩
  intro r _
  rcases publishRow_cases schemaId archived now r with
    ⟨-, heq⟩ | ⟨-, heq⟩ | ⟨-, -, heq⟩
  · rw [heq]
    exact ⟨rfl, rfl, rfl, fun _ => nofun, fun _ => rfl⟩
  · rw [heq]
    exact ⟨rfl, rfl, rfl, fun _ => nofun, fun _ => rfl⟩
  · rw [heq]
    exact .refl r

/-- The rows that are active after a publication: the one meant, and those
of other sections. -/
theorem active_publish (hbelongs : db.Belongs sectionId schemaId)
    (hwithin : db.ActiveWithin sectionId schemaId archived) {r : SchemaRow}
    (hr : r ∈ db.schemas.rows)
    (hactive : (CatalogDb.publishRow schemaId archived now r).status = .active) :
    (r.id = schemaId ∧ r.sectionId = sectionId
        ∧ db.schemas.find? schemaId = some r)
      ∨ (r.sectionId ≠ sectionId ∧ r.status = .active
        ∧ CatalogDb.publishRow schemaId archived now r = r) := by
  rcases publishRow_cases schemaId archived now r with
    ⟨hid, -⟩ | ⟨-, heq⟩ | ⟨hid, harchived, heq⟩
  · obtain ⟨r₀, hr₀, hsection⟩ := hbelongs
    have hfind := Table.find?_of_mem hr
    rw [hid, hr₀] at hfind
    rw [Option.some.inj hfind] at hsection hr₀
    exact Or.inl ⟨hid, hsection, hr₀⟩
  · rw [heq] at hactive
    cases hactive
  · rw [heq] at hactive
    refine Or.inr ⟨?_, hactive, heq⟩
    intro hsection
    rcases hwithin r hr hsection hactive with h | h
    · exact hid h
    · exact harchived h

/-- No row changes its section. -/
theorem sectionId_publishRow (r : SchemaRow) :
    (CatalogDb.publishRow schemaId archived now r).sectionId = r.sectionId := by
  rcases publishRow_cases schemaId archived now r with
    ⟨-, heq⟩ | ⟨-, heq⟩ | ⟨-, -, heq⟩ <;> rw [heq]

/-- The section is repointed to the version that was published. -/
theorem sections_publish_self :
    (db.publish sectionId schemaId archived now).sections sectionId
      = (db.sections sectionId).map fun «section» =>
        { «section» with
          currentSchemaVersion := (db.schemas.find? schemaId).map
            SchemaRow.version } :=
  Function.update_self ..

/-- Other sections are left alone. -/
theorem sections_publish_of_ne {other : Uuid} (h : other ≠ sectionId) :
    (db.publish sectionId schemaId archived now).sections other
      = db.sections other :=
  Function.update_of_ne h ..

/-- After COMMIT the section has one active version and points to it. The
versions that were active before are among those it archives. -/
theorem rowsSound_publish (h : RowsSound db)
    (hbelongs : db.Belongs sectionId schemaId)
    (harchived : ∀ a ∈ archived, db.Published a)
    (hwithin : db.ActiveWithin sectionId schemaId archived) :
    RowsSound (db.publish sectionId schemaId archived now) := by
  refine ⟨?_, ?_, ?_, ?_, ?_⟩
  · intro r' hr'
    obtain ⟨r, hr, rfl⟩ := mem_publish hr'
    rcases publishRow_cases schemaId archived now r with
      ⟨-, heq⟩ | ⟨hthis, heq⟩ | ⟨-, -, heq⟩
    · rw [heq]
      exact iff_of_false nofun nofun
    · rw [heq]
      -- it was published before it was archived
      obtain ⟨r₀, hr₀, hstatus⟩ := harchived r.id hthis
      have hsame := Option.some.inj ((Table.find?_of_mem hr).symm.trans hr₀)
      rw [← hsame] at hstatus
      refine iff_of_false nofun ?_
      intro hunpublished
      exact hstatus ((h.published r hr).mpr hunpublished)
    · rw [heq]
      exact h.published r hr
  · intro r' hr'
    obtain ⟨r, hr, rfl⟩ := mem_publish hr'
    rw [sectionId_publishRow]
    have hbefore := h.sectioned r hr
    by_cases hsection : r.sectionId = sectionId
    · rw [hsection] at hbefore ⊢
      rw [sections_publish_self, Option.isSome_map]
      exact hbefore
    · rw [sections_publish_of_ne hsection]
      exact hbefore
  · intro x' hx' y' hy' hsame hxactive hyactive
    obtain ⟨x, hx, rfl⟩ := mem_publish hx'
    obtain ⟨y, hy, rfl⟩ := mem_publish hy'
    rw [sectionId_publishRow, sectionId_publishRow] at hsame
    rw [CatalogDb.id_publishRow, CatalogDb.id_publishRow]
    rcases active_publish hbelongs hwithin hx hxactive with
      ⟨hxid, hxsection, -⟩ | ⟨hxsection, hxbefore, -⟩
    · rcases active_publish hbelongs hwithin hy hyactive with
        ⟨hyid, -, -⟩ | ⟨hysection, -, -⟩
      · rw [hxid, hyid]
      · exact absurd (hsame.symm.trans hxsection) hysection
    · rcases active_publish hbelongs hwithin hy hyactive with
        ⟨-, hysection, -⟩ | ⟨-, hybefore, -⟩
      · exact absurd (hsame.trans hysection) hxsection
      · exact h.oneActive x hx y hy hsame hxbefore hybefore
  · intro r' hr' hactive
    obtain ⟨r, hr, rfl⟩ := mem_publish hr'
    rcases active_publish hbelongs hwithin hr hactive with
      ⟨hid, hsection, hfind⟩ | ⟨hsection, hbefore, heq⟩
    · have hsome := h.sectioned r hr
      rw [hsection] at hsome
      obtain ⟨row, hrow⟩ := Option.isSome_iff_exists.mp hsome
      have hversion : (CatalogDb.publishRow schemaId archived now r).version
          = r.version := by
        rcases publishRow_cases schemaId archived now r with
          ⟨-, heq⟩ | ⟨-, heq⟩ | ⟨-, -, heq⟩ <;> rw [heq]
      rw [sectionId_publishRow, hsection, hversion]
      rw [sections_publish_self, hrow, hfind]
      rfl
    · rw [heq, sections_publish_of_ne hsection]
      exact h.current r hr hbefore
  · intro id lot hlot
    exact (h.lots id lot hlot).evolves evolves_publish

end Publish

/-- The COMMIT of a publication, with the other tasks under way. -/
theorem Sound.publish (h : s.Sound) {sectionId schemaId : Uuid}
    {archived : Option Uuid} (htask : s.task session
      = some (.commitPublish sectionId schemaId archived)) (now : Timestamp) :
    s.EndSound session (s.db.publish sectionId schemaId archived now) := by
  obtain ⟨hbelongs, harchived, hwithin⟩ := h.task htask
  refine ⟨rowsSound_publish h.rows hbelongs harchived hwithin,
    evolves_publish, ?_⟩
  intro x hx hne section' hactivated r' hr' hsame hactive
  obtain ⟨r, hr, rfl⟩ := mem_publish hr'
  rcases active_publish hbelongs hwithin hr hactive with
    ⟨-, hsection, -⟩ | ⟨-, hbefore, heq⟩
  · -- the other session is past its activation in another section
    rw [sectionId_publishRow] at hsame
    refine absurd hactivated (h.alone _ (mem_of_task htask) section' ?_ x hx hne)
    rw [← hsame, hsection]
    rfl
  · rw [heq] at hsame ⊢
    exact ⟨r, hr, rfl, hsame, hbefore⟩

end CatalogSystem

end Skrynia
