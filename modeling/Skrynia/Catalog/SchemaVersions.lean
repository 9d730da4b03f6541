/-
Schema versions and the lots under them: the three administrative
operations and the two listing routes, statement by statement.

`createSchemaVersion` and `updateSchemaVersion` are single statements of
the pool, one after the other. `publishSchemaVersion` and the listing
routes are READ COMMITTED transactions: what they write is seen when they
commit, and until then the rows they wrote or locked are held, so that a
statement of somebody else that needs one of them waits.

# What is held

A publication holds the schema rows it updated and then its section. A
listing holds a share of its section, game and group from the selection
of the chain on; an edit holds the listing. The partial unique index on
the active versions makes a second activation in a section wait for the
first one.

A statement may fail for reasons that are not modelled (a deadlock, a
reference to another table, a lost connection); this is `fail`.
-/
import Skrynia.Lib.Held
import Skrynia.Lib.Runs
import Skrynia.Marketplace.Lots

namespace Skrynia

open Relational Stepping

-- ================================================================ tables

/-- `catalog_schemas`. -/
structure SchemaRow where
  id : Uuid
  sectionId : Uuid
  version : Nat
  schema : CatalogSchema
  status : CatalogSchemaStatus
  publishedAt : Option Timestamp

/-- A row of `game_sections`. -/
structure SectionRow where
  categoryId : Option Uuid
  gameId : Uuid
  productType : ProductType
  allowedDeliveryTypes : List DeliveryType
  status : CatalogStatus
  currentSchemaVersion : Option Nat

/-- A row of `games`. -/
structure GameRow where
  groupId : Uuid
  status : CatalogStatus

/-- The committed rows. -/
structure CatalogDb where
  groups : Uuid → Option CatalogStatus
  games : Uuid → Option GameRow
  sections : Uuid → Option SectionRow
  schemas : Table SchemaRow.id
  lots : Uuid → Option Lot

namespace CatalogDb

variable (db : CatalogDb)

/-- Before anything is stored. -/
def empty : CatalogDb where
  groups _ := none
  games _ := none
  sections _ := none
  schemas := .empty
  lots _ := none

/-- `getSchemaByVersion`'s row. -/
def schemaUnder (sectionId : Uuid) (version : Nat) : Option SchemaRow :=
  db.schemas.rows.find? fun r => r.sectionId = sectionId ∧ r.version = version

/-- The row of the current version. -/
def currentSchema (sectionId : Uuid) («section» : SectionRow) :
    Option SchemaRow :=
  «section».currentSchemaVersion.bind (db.schemaUnder sectionId)

/-- The join of `resolveActiveSectionChain`. -/
def sectionChain (sectionId : Uuid) : Option SectionChainRow := do
  let «section» ← db.sections sectionId
  let game ← db.games «section».gameId
  let groupStatus ← db.groups game.groupId
  return {
    sectionId := sectionId
    categoryId := «section».categoryId
    gameId := «section».gameId
    groupId := game.groupId
    productType := «section».productType
    allowedDeliveryTypes := «section».allowedDeliveryTypes
    sectionStatus := «section».status
    itemStatus := game.status
    groupStatus := groupStatus
    currentSchemaVersion := «section».currentSchemaVersion
    schemaStatus := (db.currentSchema sectionId «section»).map SchemaRow.status }

/-- The join of `validateLotMetadata`. -/
def lotSchema (sectionId : Uuid) : Option LotSchemaRow := do
  let «section» ← db.sections sectionId
  return {
    schemaVersion := «section».currentSchemaVersion
    schema := ((db.currentSchema sectionId «section»).filter
      fun r => r.status = .active).map SchemaRow.schema }

/-- The highest version. -/
def maxVersion (sectionId : Uuid) : Nat :=
  ((db.schemas.rows.filter fun r => r.sectionId = sectionId).map
    SchemaRow.version).foldl max 0

/-- The active version. -/
def activeSchema (sectionId : Uuid) : Option SchemaRow :=
  db.schemas.rows.find? fun r => r.sectionId = sectionId ∧ r.status = .active

/-- Insert a row, under both unique indexes, for a section that exists. -/
def insertSchema (r : SchemaRow) : Option CatalogDb :=
  if (db.sections r.sectionId).isNone
      ∨ (db.schemaUnder r.sectionId r.version).isSome then none
  else (db.schemas.insert? r).map fun schemas => { db with schemas := schemas }

/-- `set schema = $2`. -/
def setSchema (schemaId : Uuid) (schema : CatalogSchema) : CatalogDb :=
  { db with
    schemas := db.schemas.update (fun r => r.id = schemaId)
      (fun r => { r with schema := schema }) fun _ => rfl }

/-- What a publication does to a row of the section. -/
def publishRow (schemaId : Uuid) (archived : Option Uuid) (now : Timestamp)
    (r : SchemaRow) : SchemaRow :=
  if r.id = schemaId then
    { r with
      status := .active
      publishedAt := some now }
  else if archived = some r.id then
    { r with status := .archived }
  else r

/-- A publication changes no id. -/
theorem id_publishRow (schemaId : Uuid) (archived : Option Uuid)
    (now : Timestamp) (r : SchemaRow) :
    (publishRow schemaId archived now r).id = r.id := by
  unfold publishRow
  split
  · rfl
  · split <;> rfl

/-- The three updates of a publication. -/
def publish (sectionId schemaId : Uuid) (archived : Option Uuid)
    (now : Timestamp) : CatalogDb :=
  { db with
    schemas := db.schemas.update (fun _ => True)
      (publishRow schemaId archived now)
      (id_publishRow schemaId archived now)
    sections := Function.update db.sections sectionId
      ((db.sections sectionId).map fun «section» =>
        { «section» with
          currentSchemaVersion := (db.schemas.find? schemaId).map
            SchemaRow.version }) }

/-- A lot is written. -/
def setLot (lot : Lot) : CatalogDb :=
  { db with lots := Function.update db.lots lot.product.id (some lot) }

end CatalogDb

/-- A locking selection that waited: the locked rows are read again, the
schema, which is not locked, is the one that was found first. -/
def SectionChainRow.relocked (found latest : SectionChainRow) :
    Option SectionChainRow :=
  if latest.gameId = found.gameId ∧ latest.groupId = found.groupId then
    some {
      latest with
      schemaStatus :=
        if latest.currentSchemaVersion = found.currentSchemaVersion then
          found.schemaStatus
        else none }
  else none

-- ============================================================== handlers

/-- POST /products, as it is parsed. -/
structure PostRequest where
  input : ProductInput
  seller : Requester

/-- PATCH /products/:id, as it is parsed. -/
structure PatchRequest where
  lotId : Uuid
  input : ProductPatch
  requester : Requester

/-- The chain whose rows are locked. -/
abbrev ChainLock := Option ActiveSectionChain

/-- The next statement of a handler. -/
inductive CatalogTask where
  -- createSchemaVersion
  | selectSection (sectionId : Uuid) (schema : List CatalogFieldInput)
  | selectMax (sectionId : Uuid) (schema : CatalogSchema)
  | insertSchema (sectionId : Uuid) (schema : CatalogSchema) (version : Nat)
  -- updateSchemaVersion
  | selectDraft (sectionId schemaId : Uuid) (schema : List CatalogFieldInput)
  | storeSchema (schemaId : Uuid) (schema : CatalogSchema)
  -- publishSchemaVersion
  | selectTarget (sectionId schemaId : Uuid)
  | selectPrevious (sectionId schemaId : Uuid)
  | archivePrevious (sectionId schemaId previous : Uuid)
  | activate (sectionId schemaId : Uuid) (archived : Option Uuid)
  | repoint (sectionId schemaId : Uuid) (archived : Option Uuid)
  | commitPublish (sectionId schemaId : Uuid) (archived : Option Uuid)
  -- POST /products
  | postChain (request : PostRequest)
  | postLock (request : PostRequest) (found : SectionChainRow)
  | postValidate (request : PostRequest) (locked : ChainLock)
      (categorization : Categorization)
  | postInsert (request : PostRequest) (locked : ChainLock)
      (categorization : Categorization) (validated : ValidatedMetadata)
  | postCommit (locked : ChainLock) (lot : Lot)
  -- PATCH /products/:id
  | patchSelect (request : PatchRequest)
  | patchChain (request : PatchRequest) (existing : Lot)
  | patchLock (request : PatchRequest) (existing : Lot)
      (found : SectionChainRow)
  | patchValidate (request : PatchRequest) (existing : Lot)
      (locked : ChainLock) (categorization : PatchCategorization)
  | patchUpdate (request : PatchRequest) (existing : Lot)
      (locked : ChainLock) (categorization : PatchCategorization)
      (validated : Option ValidatedMetadata)
  | patchCommit (existing : Lot) (locked : ChainLock) (lot : Lot)

namespace CatalogTask

/-- The schema rows that the transaction has updated. -/
def heldSchemas : CatalogTask → List Uuid
  | activate _ _ archived => archived.toList
  | repoint _ schemaId archived => schemaId :: archived.toList
  | commitPublish _ schemaId archived => schemaId :: archived.toList
  | _ => []

/-- The section in which the transaction has activated a version. -/
def activated : CatalogTask → Option Uuid
  | repoint sectionId _ _ => some sectionId
  | commitPublish sectionId _ _ => some sectionId
  | _ => none

/-- The section that the transaction has updated. -/
def heldSection : CatalogTask → Option Uuid
  | commitPublish sectionId _ _ => some sectionId
  | _ => none

/-- The chain of which the transaction holds a share. -/
def lockedChain : CatalogTask → ChainLock
  | postValidate _ locked _ => locked
  | postInsert _ locked _ _ => locked
  | postCommit locked _ => locked
  | patchValidate _ _ locked _ => locked
  | patchUpdate _ _ locked _ _ => locked
  | patchCommit _ locked _ => locked
  | _ => none

/-- The listing that the transaction has locked. -/
def heldLot : CatalogTask → Option Uuid
  | patchChain request _ => some request.lotId
  | patchLock request _ _ => some request.lotId
  | patchValidate request _ _ _ => some request.lotId
  | patchUpdate request _ _ _ _ => some request.lotId
  | patchCommit existing _ _ => some existing.product.id
  | _ => none

/-- It shares the section. -/
def Shares (t : CatalogTask) (sectionId : Uuid) : Prop :=
  t.lockedChain.map ActiveSectionChain.sectionId = some sectionId

instance (t : CatalogTask) (sectionId : Uuid) : Decidable (t.Shares sectionId) :=
  inferInstanceAs (Decidable (_ = _))

end CatalogTask

/-- What a statement leads to. -/
inductive CatalogOutcome where
  /-- It waits for a row of somebody else. -/
  | waits
  | continues (task : CatalogTask)
  /-- The handler ends, and the rows are these. -/
  | ends (db : CatalogDb)

/-- The committed rows, and the operation that each session is in. -/
structure CatalogSystem where
  db : CatalogDb
  tasks : Held CatalogTask

/-- What is drawn or read off the clock for a statement. -/
structure Drawn where
  id : Uuid
  now : Timestamp
  upper : String → String

/-- What may happen next. -/
inductive CatalogEvent where
  -- catalog administration
  | setGroup (groupId : Uuid) (status : CatalogStatus)
  | setGame (gameId : Uuid) (row : GameRow)
  | createSection (sectionId : Uuid) (row : SectionRow)
  | editSection (sectionId : Uuid) (row : SectionRow)
  -- requests
  | createSchemaVersion (session : Nat) (sectionId : Uuid)
      (schema : List CatalogFieldInput)
  | updateSchemaVersion (session : Nat) (sectionId schemaId : Uuid)
      (schema : List CatalogFieldInput)
  | publishSchemaVersion (session : Nat) (sectionId schemaId : Uuid)
  | post (session : Nat) (request : PostRequest)
  | patch (session : Nat) (request : PatchRequest)
  /-- The session's next statement. -/
  | advance (session : Nat) (drawn : Drawn)
  /-- The session's handler fails, and its transaction is rolled back. -/
  | fail (session : Nat)

namespace CatalogSystem

variable (s : CatalogSystem) (session : Nat) (drawn : Drawn)

/-- Before anything is stored, and nobody is at work. -/
def start : CatalogSystem := ⟨.empty, []⟩

/-- The UPDATE of a schema row waits. -/
def SchemaHeld (schemaId : Uuid) : Prop :=
  s.tasks.ByOther session fun t => schemaId ∈ t.heldSchemas

instance (schemaId : Uuid) : Decidable (s.SchemaHeld session schemaId) :=
  inferInstanceAs (Decidable (Held.ByOther _ _ _))

-- ------------------------------------------------- schema administration

/-- `createSchemaVersion`: the section is looked up, and the fields are
parsed. -/
def selectSection (sectionId : Uuid) (schema : List CatalogFieldInput) :
    CatalogOutcome :=
  match s.db.sections sectionId, parseCatalogSchema schema with
  | some _, .ok schema => .continues (.selectMax sectionId schema)
  | _, _ => .ends s.db

/-- Its insert of a draft, under the next version. -/
def insertSchema (sectionId : Uuid) (schema : CatalogSchema)
    (version : Nat) : CatalogOutcome :=
  .ends ((s.db.insertSchema {
    id := drawn.id
    sectionId := sectionId
    version := version
    schema := schema
    status := .draft
    publishedAt := none }).getD s.db)

/-- The row of `getSchemaRow`. -/
def getSchemaRow (sectionId schemaId : Uuid) : Option SchemaRow :=
  (s.db.schemas.find? schemaId).filter fun r => r.sectionId = sectionId

/-- `updateSchemaVersion`: the draft is looked up. -/
def selectDraft (sectionId schemaId : Uuid)
    (schema : List CatalogFieldInput) : CatalogOutcome :=
  match s.getSchemaRow sectionId schemaId with
  | none => .ends s.db
  | some existing =>
      if existing.status ≠ .draft then .ends s.db
      else
        match parseCatalogSchema schema with
        | .error _ => .ends s.db
        | .ok schema => .continues (.storeSchema schemaId schema)

/-- The status is not looked at again. -/
def storeSchema (schemaId : Uuid) (schema : CatalogSchema) :
    CatalogOutcome :=
  if s.SchemaHeld session schemaId then .waits
  else .ends (s.db.setSchema schemaId schema)

/-- `publishSchemaVersion`: the version is looked up. -/
def selectTarget (sectionId schemaId : Uuid) : CatalogOutcome :=
  match s.getSchemaRow sectionId schemaId with
  | none => .ends s.db
  | some schemaRow =>
      if schemaRow.status = .active then .ends s.db
      else .continues (.selectPrevious sectionId schemaId)

/-- Then the one that is active. -/
def selectPrevious (sectionId schemaId : Uuid) : CatalogOutcome :=
  match s.db.activeSchema sectionId with
  | some previous =>
      .continues (.archivePrevious sectionId schemaId previous.id)
  | none => .continues (.activate sectionId schemaId none)

/-- Which is archived, unless its row is held. -/
def archivePrevious (sectionId schemaId previous : Uuid) : CatalogOutcome :=
  if s.SchemaHeld session previous then .waits
  else .continues (.activate sectionId schemaId (some previous))

/-- Another transaction holds the row, has activated a version of the
section, or is about to end the activity of one. -/
def ActivationWaits (sectionId schemaId : Uuid) : Prop :=
  s.SchemaHeld session schemaId
    ∨ s.tasks.ByOther session (fun t => t.activated = some sectionId)
    ∨ ∃ r ∈ s.db.schemas.rows, r.sectionId = sectionId ∧ r.status = .active
      ∧ s.SchemaHeld session r.id

instance (sectionId schemaId : Uuid) :
    Decidable (s.ActivationWaits session sectionId schemaId) :=
  inferInstanceAs (Decidable (_ ∨ _ ∨ ∃ r ∈ _, _ ∧ _ ∧ _))

/-- The new version of the row collides with an entry of the partial unique
index. -/
def ActivationViolates (sectionId schemaId : Uuid)
    (archived : Option Uuid) : Prop :=
  ∃ r ∈ s.db.schemas.rows, r.sectionId = sectionId ∧ r.status = .active
    ∧ r.id ≠ schemaId ∧ archived ≠ some r.id

instance (sectionId schemaId : Uuid) (archived : Option Uuid) :
    Decidable (s.ActivationViolates sectionId schemaId archived) :=
  inferInstanceAs (Decidable (∃ r ∈ _, _ ∧ _ ∧ _ ∧ _))

/-- Then the version is made active, unless somebody else is about to make
one. -/
def activate (sectionId schemaId : Uuid) (archived : Option Uuid) :
    CatalogOutcome :=
  if s.ActivationWaits session sectionId schemaId then .waits
  else if s.ActivationViolates sectionId schemaId archived then .ends s.db
  else .continues (.repoint sectionId schemaId archived)

/-- The UPDATE of a section waits. -/
def SectionHeld (sectionId : Uuid) : Prop :=
  s.tasks.ByOther session fun t =>
    t.heldSection = some sectionId ∨ t.Shares sectionId

instance (sectionId : Uuid) : Decidable (s.SectionHeld session sectionId) :=
  inferInstanceAs (Decidable (Held.ByOther _ _ _))

/-- And the section is pointed to it. -/
def repoint (sectionId schemaId : Uuid) (archived : Option Uuid) :
    CatalogOutcome :=
  if s.SectionHeld session sectionId then .waits
  else .continues (.commitPublish sectionId schemaId archived)

-- --------------------------------------------------------- POST /products

/-- `for share of gs, g, cg` waits for a publication. -/
def ChainHeld (sectionId : Uuid) : Prop :=
  s.tasks.ByOther session fun t => t.heldSection = some sectionId

instance (sectionId : Uuid) : Decidable (s.ChainHeld session sectionId) :=
  inferInstanceAs (Decidable (Held.ByOther _ _ _))

/-- The rows that the locking selection returns. -/
def relocked (found : SectionChainRow) : Option SectionChainRow :=
  (s.db.sectionChain found.sectionId).bind found.relocked

/-- The lock that comes with a chain. -/
def lockOf (chain : Option SectionChainRow) : ChainLock :=
  (resolveActiveSectionChain chain).toOption

/-- The new listing is placed, or refused. -/
def postCategorized (request : PostRequest)
    (chain : Option SectionChainRow) (locked : ChainLock) : CatalogOutcome :=
  match request.input.categorize chain with
  | .error _ => .ends s.db
  | .ok categorization =>
      .continues (.postValidate request locked categorization)

/-- POST /products: the chain of the section is found. -/
def postChain (request : PostRequest) : CatalogOutcome :=
  if request.seller.emailVerified = false then .ends s.db
  else
    match request.input.sectionId with
    | none => s.postCategorized request none none
    | some sectionId =>
        match s.db.sectionChain sectionId with
        | none => .ends s.db
        | some found => .continues (.postLock request found)

/-- The chain is locked, and read again. -/
def postLock (request : PostRequest) (found : SectionChainRow) :
    CatalogOutcome :=
  if s.ChainHeld session found.sectionId then .waits
  else s.postCategorized request (s.relocked found) (lockOf (s.relocked found))

/-- The metadata are validated. -/
def postValidate (request : PostRequest) (locked : ChainLock)
    (categorization : Categorization) : CatalogOutcome :=
  match request.input.validate categorization
      (categorization.sectionId.bind s.db.lotSchema) with
  | .error _ => .ends s.db
  | .ok validated =>
      .continues (.postInsert request locked categorization validated)

/-- The row is made up. -/
def postInsert (request : PostRequest) (locked : ChainLock)
    (categorization : Categorization) (validated : ValidatedMetadata) :
    CatalogOutcome :=
  match request.input.insertRow drawn.upper drawn.id request.seller.id
      categorization validated with
  | .error _ => .ends s.db
  | .ok lot => .continues (.postCommit locked lot)

/-- And inserted. -/
def postCommit (lot : Lot) : CatalogOutcome :=
  if (s.db.lots lot.product.id).isSome then .ends s.db
  else .ends (s.db.setLot lot)

-- ---------------------------------------------------- PATCH /products/:id

/-- Another session holds the lot. -/
def LotHeld (lotId : Uuid) : Prop :=
  s.tasks.ByOther session fun t => t.heldLot = some lotId

instance (lotId : Uuid) : Decidable (s.LotHeld session lotId) :=
  inferInstanceAs (Decidable (Held.ByOther _ _ _))

/-- PATCH /products/:id: the lot is selected and held. -/
def patchSelect (request : PatchRequest) : CatalogOutcome :=
  if s.LotHeld session request.lotId then .waits
  else
    match s.db.lots request.lotId with
    | none => .ends s.db
    | some existing =>
        if existing.product.status = .deleted then .ends s.db
        else
          match request.input.authorize existing request.requester with
          | .error _ => .ends s.db
          | .ok () => .continues (.patchChain request existing)

/-- The edited listing is placed, or refused. -/
def patchCategorized (request : PatchRequest) (existing : Lot)
    (chain : Option SectionChainRow) (locked : ChainLock) : CatalogOutcome :=
  match request.input.categorize existing chain with
  | .error _ => .ends s.db
  | .ok categorization =>
      if request.input.validates then
        .continues (.patchValidate request existing locked categorization)
      else
        .continues (.patchUpdate request existing locked categorization none)

/-- The chain of its section is found, if it needs one. -/
def patchChain (request : PatchRequest) (existing : Lot) : CatalogOutcome :=
  match request.input.chainOf existing with
  | none => s.patchCategorized request existing none none
  | some sectionId =>
      match s.db.sectionChain sectionId with
      | none => .ends s.db
      | some found => .continues (.patchLock request existing found)

/-- The chain is locked, and read again. -/
def patchLock (request : PatchRequest) (existing : Lot)
    (found : SectionChainRow) : CatalogOutcome :=
  if s.ChainHeld session found.sectionId then .waits
  else
    s.patchCategorized request existing (s.relocked found)
      (lockOf (s.relocked found))

/-- The metadata are validated, if they need to be. -/
def patchValidate (request : PatchRequest) (existing : Lot)
    (locked : ChainLock) (categorization : PatchCategorization) :
    CatalogOutcome :=
  match request.input.validate existing categorization
      ((request.input.targetSectionId existing).bind s.db.lotSchema) with
  | .error _ => .ends s.db
  | .ok validated =>
      .continues (.patchUpdate request existing locked categorization
        (some validated))

/-- The columns are made up, or refused. -/
def patchUpdate (request : PatchRequest) (existing : Lot)
    (locked : ChainLock) (categorization : PatchCategorization)
    (validated : Option ValidatedMetadata) : CatalogOutcome :=
  match request.input.updateRow existing drawn.upper categorization
      validated with
  | .error _ => .ends s.db
  | .ok lot => .continues (.patchCommit existing locked lot)

-- ================================================================= steps

/-- Run a statement. -/
def outcome : CatalogTask → CatalogOutcome
  | .selectSection sectionId schema => s.selectSection sectionId schema
  | .selectMax sectionId schema =>
      .continues (.insertSchema sectionId schema (s.db.maxVersion sectionId + 1))
  | .insertSchema sectionId schema version =>
      s.insertSchema drawn sectionId schema version
  | .selectDraft sectionId schemaId schema =>
      s.selectDraft sectionId schemaId schema
  | .storeSchema schemaId schema => s.storeSchema session schemaId schema
  | .selectTarget sectionId schemaId => s.selectTarget sectionId schemaId
  | .selectPrevious sectionId schemaId => s.selectPrevious sectionId schemaId
  | .archivePrevious sectionId schemaId previous =>
      s.archivePrevious session sectionId schemaId previous
  | .activate sectionId schemaId archived =>
      s.activate session sectionId schemaId archived
  | .repoint sectionId schemaId archived =>
      s.repoint session sectionId schemaId archived
  | .commitPublish sectionId schemaId archived =>
      .ends (s.db.publish sectionId schemaId archived drawn.now)
  | .postChain request => s.postChain request
  | .postLock request found => s.postLock session request found
  | .postValidate request locked categorization =>
      s.postValidate request locked categorization
  | .postInsert request locked categorization validated =>
      s.postInsert drawn request locked categorization validated
  | .postCommit _ lot => s.postCommit lot
  | .patchSelect request => s.patchSelect session request
  | .patchChain request existing => s.patchChain request existing
  | .patchLock request existing found =>
      s.patchLock session request existing found
  | .patchValidate request existing locked categorization =>
      s.patchValidate request existing locked categorization
  | .patchUpdate request existing locked categorization validated =>
      s.patchUpdate drawn request existing locked categorization validated
  | .patchCommit _ _ lot => .ends (s.db.setLot lot)

/-- What the session is about to do. -/
def task : Option CatalogTask := (s.tasks.of session).head?

/-- A session goes on with another task, and holds what that holds. -/
def setTask (t : CatalogTask) : CatalogSystem :=
  { s with tasks := (s.tasks.release session).add session [t] }

/-- A session starts a handler when it has none. -/
def request (t : CatalogTask) : CatalogSystem :=
  if (s.task session).isSome then s else s.setTask session t

/-- The next access of a session. -/
def advance : CatalogSystem :=
  match s.task session with
  | none => s
  | some t =>
      match s.outcome session drawn t with
      | .waits => s
      | .continues t' => s.setTask session t'
      | .ends db => ⟨db, s.tasks.release session⟩

/-- Somebody holds a share of a chain that `p` picks. -/
def ShareHeld (p : ActiveSectionChain → Bool) : Prop :=
  ∃ x ∈ s.tasks, x.2.lockedChain.any p = true

instance (p : ActiveSectionChain → Bool) : Decidable (s.ShareHeld p) :=
  inferInstanceAs (Decidable (∃ x ∈ _, _ = _))

/-- An UPDATE of the section from outside waits. -/
def SectionBusy (sectionId : Uuid) : Prop :=
  ∃ x ∈ s.tasks, x.2.heldSection = some sectionId ∨ x.2.Shares sectionId

instance (sectionId : Uuid) : Decidable (s.SectionBusy sectionId) :=
  inferInstanceAs (Decidable (∃ x ∈ _, _ ∨ _))

/-- An administrator sets a group, unless a listing holds it. -/
def setGroup (groupId : Uuid) (status : CatalogStatus) : CatalogSystem :=
  if s.ShareHeld fun chain => chain.groupId = groupId then s
  else
    { s with
      db.groups := Function.update s.db.groups groupId (some status) }

/-- The same of a game. -/
def setGame (gameId : Uuid) (row : GameRow) : CatalogSystem :=
  if s.ShareHeld fun chain => chain.gameId = gameId then s
  else { s with db.games := Function.update s.db.games gameId (some row) }

/-- A section's row is written. -/
def setSection (sectionId : Uuid) (row : SectionRow) : CatalogSystem :=
  { s with
    db.sections := Function.update s.db.sections sectionId (some row) }

/-- `createCatalogSection`: a new section has no schema yet. -/
def createSection (sectionId : Uuid) (row : SectionRow) : CatalogSystem :=
  if (s.db.sections sectionId).isSome then s
  else s.setSection sectionId { row with currentSchemaVersion := none }

/-- `updateCatalogSection` and the changes of status: they write neither the
game nor the version. -/
def editSection (sectionId : Uuid) (row : SectionRow) : CatalogSystem :=
  match s.db.sections sectionId with
  | none => s
  | some old =>
      if s.SectionBusy sectionId then s
      else
        s.setSection sectionId { row with
          gameId := old.gameId
          currentSchemaVersion := old.currentSchemaVersion }

/-- One event. -/
def step : CatalogEvent → CatalogSystem
  | .setGroup groupId status => s.setGroup groupId status
  | .setGame gameId row => s.setGame gameId row
  | .createSection sectionId row => s.createSection sectionId row
  | .editSection sectionId row => s.editSection sectionId row
  | .createSchemaVersion session sectionId schema =>
      s.request session (.selectSection sectionId schema)
  | .updateSchemaVersion session sectionId schemaId schema =>
      s.request session (.selectDraft sectionId schemaId schema)
  | .publishSchemaVersion session sectionId schemaId =>
      s.request session (.selectTarget sectionId schemaId)
  | .post session request => s.request session (.postChain request)
  | .patch session request => s.request session (.patchSelect request)
  | .advance session drawn => s.advance session drawn
  | .fail session => { s with tasks := s.tasks.release session }

end CatalogSystem

end Skrynia
