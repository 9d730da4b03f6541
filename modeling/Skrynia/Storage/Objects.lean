/-
Stored media: the rows of `storage_objects`, and what the statements of
the storage service do to them.

A row accounts for bytes at the storage provider. It is inserted as
`uploading` before anything is written, and keeps its owner's quota
charged until a delete handler has confirmed that the bytes are gone;
only `deleted` rows are free of charge. Deletions are events of the
outbox: `enqueueStorageDeletion` marks the row and leaves an event that a
worker turns into the physical deletion.

# What is charged

`usage` is the SELECT of the quota check. Its three numbers are sums over
the owner's rows, one summand a row, so an update that lowers each row's
summand lowers the sum.
-/
import Mathlib.Algebra.Order.Group.Nat
import Skrynia.Outbox.Worker

namespace Skrynia

open Relational

-- ================================================================= rows

/-- `storage_objects.purpose`. -/
inductive StoragePurpose where
  | avatar
  | productMedia
  | chatAttachment
  | catalogAsset
deriving DecidableEq

/-- The stored spelling. -/
def StoragePurpose.text : StoragePurpose → String
  | avatar => "avatar"
  | productMedia => "product_media"
  | chatAttachment => "chat_attachment"
  | catalogAsset => "catalog_asset"

/-- `storage_objects.storage_driver`. -/
inductive StorageDriver where
  | «local»
  | s3
deriving DecidableEq

/-- `storage_objects.status`. -/
inductive StorageObjectStatus where
  | uploading
  | temporary
  | attached
  | deleting
  | deleted
  | quarantined
deriving DecidableEq

/-- The statuses of the live counters. -/
def StorageObjectStatus.Charged (s : StorageObjectStatus) : Prop :=
  s = .uploading ∨ s = .temporary ∨ s = .attached ∨ s = .deleting

instance (s : StorageObjectStatus) : Decidable s.Charged :=
  inferInstanceAs (Decidable (_ ∨ _ ∨ _ ∨ _))

/-- Deletion has been asked for. -/
def StorageObjectStatus.Condemned (s : StorageObjectStatus) : Prop :=
  s = .deleting ∨ s = .deleted

instance (s : StorageObjectStatus) : Decidable s.Condemned :=
  inferInstanceAs (Decidable (_ ∨ _))

/-- A row of `storage_objects`. -/
structure StorageObject where
  id : Uuid
  ownerId : Uuid
  objectKey : String
  storageDriver : StorageDriver
  purpose : StoragePurpose
  mimeType : String
  sizeBytes : Nat
  width : Nat
  height : Nat
  status : StorageObjectStatus
  createdAt : Timestamp
  attachedAt : Option Timestamp
  deletedAt : Option Timestamp
deriving DecidableEq

/-- The table, by its ids. -/
abbrev StorageObjects := Table StorageObject.id

/-- Where the provider keeps the bytes of an object. -/
abbrev StorageLocation := StorageDriver × String

/-- `newObjectKey`; `nanoid` is what the generator returned. -/
def newObjectKey (ownerId : Uuid) (purpose : StoragePurpose)
    (nanoid : String) : String :=
  purpose.text ++ "/" ++ ownerId.text ++ "/" ++ nanoid ++ ".webp"

/-- What `processUploadedImage` returns; `bytes` is the buffer's length. -/
structure ProcessedImage where
  bytes : Nat
  mimeType : String
  width : Nat
  height : Nat

namespace StorageObject

variable (r : StorageObject)

/-- Where the bytes are. -/
def location : StorageLocation := (r.storageDriver, r.objectKey)

/-- A row as the reservation inserts it. -/
def reserved (id ownerId : Uuid) (purpose : StoragePurpose)
    (location : StorageLocation) (image : ProcessedImage)
    (now : Timestamp) : StorageObject where
  id := id
  ownerId := ownerId
  objectKey := location.2
  storageDriver := location.1
  purpose := purpose
  mimeType := image.mimeType
  sizeBytes := image.bytes
  width := image.width
  height := image.height
  status := .uploading
  createdAt := now
  attachedAt := none
  deletedAt := none

/-- The CHECK constraints on sizes. -/
def Sized : Prop := 0 < r.sizeBytes ∧ 0 < r.width ∧ 0 < r.height

instance : Decidable r.Sized := inferInstanceAs (Decidable (_ ∧ _ ∧ _))

-- ------------------------------------------------------------ the updates

/-- The row when its bytes are written. -/
def finalized : StorageObject := { r with status := .temporary }

/-- The row when it is attached. -/
def attach (now : Timestamp) : StorageObject :=
  { r with
    status := .attached
    attachedAt := some now }

/-- The row when its deletion is queued. -/
def condemn : StorageObject :=
  { r with
    status := .deleting
    deletedAt := none }

/-- The row when its bytes are gone. -/
def confirm (now : Timestamp) : StorageObject :=
  { r with
    status := .deleted
    deletedAt := some now }

/-- Two versions of a row: what no update touches. -/
def SameObject (r r' : StorageObject) : Prop :=
  r'.id = r.id ∧ r'.ownerId = r.ownerId ∧ r'.location = r.location
    ∧ r'.purpose = r.purpose ∧ r'.sizeBytes = r.sizeBytes
    ∧ r'.createdAt = r.createdAt

/-- A row is of its own object. -/
theorem SameObject.refl : r.SameObject r := ⟨rfl, rfl, rfl, rfl, rfl, rfl⟩

/-- And rows of one object are of it all along. -/
theorem SameObject.trans {r r' r'' : StorageObject} (h : r.SameObject r')
    (h' : r'.SameObject r'') : r.SameObject r'' := by
  obtain ⟨h₁, h₂, h₃, h₄, h₅, h₆⟩ := h
  obtain ⟨h₁', h₂', h₃', h₄', h₅', h₆'⟩ := h'
  exact ⟨h₁'.trans h₁, h₂'.trans h₂, h₃'.trans h₃, h₄'.trans h₄,
    h₅'.trans h₅, h₆'.trans h₆⟩

/-- Finalizing keeps the object. -/
theorem sameObject_finalized : r.SameObject r.finalized :=
  ⟨rfl, rfl, rfl, rfl, rfl, rfl⟩

/-- So does attaching. -/
theorem sameObject_attach (now : Timestamp) : r.SameObject (r.attach now) :=
  ⟨rfl, rfl, rfl, rfl, rfl, rfl⟩

/-- And condemning. -/
theorem sameObject_condemn : r.SameObject r.condemn :=
  ⟨rfl, rfl, rfl, rfl, rfl, rfl⟩

/-- And confirming. -/
theorem sameObject_confirm (now : Timestamp) :
    r.SameObject (r.confirm now) := ⟨rfl, rfl, rfl, rfl, rfl, rfl⟩

end StorageObject

-- ================================================================ quota

/-- The limits of the environment. -/
structure StorageEnv where
  dailyUploadBytesPerUser : Nat
  totalQuotaBytesPerUser : Nat
  maxObjectsPerPurpose : Nat

/-- `interval '24 hours'`. -/
def dayMs : Nat := 24 * 60 * 60 * 1000

/-- `quotaError`: a 400 with the code `storage_quota_exceeded`. -/
def quotaError (message : String) : Failure := badRequest message

namespace StorageObjects

variable (t : StorageObjects)

/-- `sum(size_bytes) filter (where status in …)`. -/
def totalBytes (ownerId : Uuid) : Nat :=
  (t.rows.map fun r =>
    if r.ownerId = ownerId ∧ r.status.Charged then r.sizeBytes else 0).sum

/-- `sum(size_bytes) filter (where created_at > now() - interval …)`. -/
def dailyBytes (ownerId : Uuid) (now : Timestamp) : Nat :=
  (t.rows.map fun r =>
    if r.ownerId = ownerId ∧ now < r.createdAt + dayMs then r.sizeBytes
    else 0).sum

/-- `count(*) filter (where purpose = $2 and status in …)`. -/
def purposeCount (ownerId : Uuid) (purpose : StoragePurpose) : Nat :=
  (t.rows.map fun r =>
    if r.ownerId = ownerId ∧ r.purpose = purpose ∧ r.status.Charged then 1
    else 0).sum

/-- `assertUploadQuota`: the bytes of the day first, then all bytes, then the
number of objects. -/
def assertUploadQuota (env : StorageEnv) (ownerId : Uuid)
    (purpose : StoragePurpose) (addBytes : Nat) (now : Timestamp) :
    Except Failure Unit :=
  if t.dailyBytes ownerId now + addBytes > env.dailyUploadBytesPerUser then
    .error (quotaError "Daily upload limit reached, try again tomorrow")
  else if t.totalBytes ownerId + addBytes > env.totalQuotaBytesPerUser then
    .error (quotaError "Storage quota exceeded, delete unused media first")
  else if t.purposeCount ownerId purpose ≥ env.maxObjectsPerPurpose then
    .error (quotaError "Too many stored objects of this type")
  else .ok ()

/-- The insert of a reservation, or a constraint violation. -/
def reserve? (r : StorageObject) : Option StorageObjects :=
  if r.Sized ∧ ∀ r' ∈ t.rows, r'.objectKey ≠ r.objectKey then t.insert? r
  else none

/-- What the check lets through is within every quota. -/
theorem assertUploadQuota_eq_ok {t : StorageObjects} {env : StorageEnv}
    {ownerId : Uuid} {purpose : StoragePurpose} {addBytes : Nat}
    {now : Timestamp} :
    t.assertUploadQuota env ownerId purpose addBytes now = .ok ()
      ↔ t.dailyBytes ownerId now + addBytes ≤ env.dailyUploadBytesPerUser
        ∧ t.totalBytes ownerId + addBytes ≤ env.totalQuotaBytesPerUser
        ∧ t.purposeCount ownerId purpose < env.maxObjectsPerPurpose := by
  unfold assertUploadQuota
  split
  · next h => simp [Nat.not_le.mpr h]
  · next h =>
      split
      · next h' => simp [Nat.not_le.mpr h']
      · next h' =>
          split
          · next h'' => simp [Nat.not_lt.mpr h'']
          · next h'' => simp [Nat.not_lt.mp h, Nat.not_lt.mp h', Nat.not_le.mp h'']

/-- A reservation inserts its row under a key that no other row has. -/
theorem reserve?_eq_some {t t' : StorageObjects} {r : StorageObject}
    (h : t.reserve? r = some t') :
    t.insert? r = some t' ∧ ∀ r' ∈ t.rows, r'.objectKey ≠ r.objectKey := by
  unfold reserve? at h
  split at h
  · next hc => exact ⟨h, hc.2⟩
  · cases h

/-- A row of a table, old or just reserved. -/
theorem mem_reserve? {t t' : StorageObjects} {r x : StorageObject}
    (h : t.reserve? r = some t') : x ∈ t'.rows ↔ x ∈ t.rows ∨ x = r := by
  rw [(Table.insert?_eq_some.mp (reserve?_eq_some h).1).2, List.mem_append,
    List.mem_singleton]

/-- A reservation adds its summand. -/
theorem sum_reserve? {t t' : StorageObjects} {r : StorageObject}
    (h : t.reserve? r = some t') (w : StorageObject → Nat) :
    (t'.rows.map w).sum = (t.rows.map w).sum + w r := by
  rw [(Table.insert?_eq_some.mp (reserve?_eq_some h).1).2, List.map_append,
    List.sum_append, List.map_singleton, List.sum_singleton]

/-- A sum over the rows does not grow where no row's summand does. -/
theorem sum_map_le {t t' : StorageObjects} {f : StorageObject → StorageObject}
    (h : t'.rows = t.rows.map f) (w : StorageObject → Nat)
    (hw : ∀ r ∈ t.rows, w (f r) ≤ w r) :
    (t'.rows.map w).sum ≤ (t.rows.map w).sum := by
  rw [h, List.map_map]
  exact List.sum_le_sum hw

/-- A later window has fewer rows. -/
theorem dailyBytes_le (t : StorageObjects) (ownerId : Uuid)
    {now now' : Timestamp} (h : now ≤ now') :
    t.dailyBytes ownerId now' ≤ t.dailyBytes ownerId now := by
  apply List.sum_le_sum
  intro r _
  by_cases hin : r.ownerId = ownerId ∧ now' < r.createdAt + dayMs
  · have hout : r.ownerId = ownerId ∧ now < r.createdAt + dayMs :=
      ⟨hin.1, Nat.lt_of_le_of_lt h hin.2⟩
    rw [if_pos hin, if_pos hout]
  · rw [if_neg hin]
    exact Nat.zero_le _

end StorageObjects

-- ============================================================ attachment

/-- The input of `attachStorageObject`. -/
structure AttachInput where
  uploadId : Uuid
  ownerId : Uuid
  purpose : StoragePurpose
deriving DecidableEq

/-- Why an upload cannot be attached. -/
inductive AttachError where
  | uploadNotFound
  | anotherUser
  | noLongerAvailable
  | purposeMismatch
deriving DecidableEq

/-- What the caller is told. -/
def AttachError.message : AttachError → String
  | uploadNotFound => "Upload not found"
  | anotherUser => "This upload belongs to another user"
  | noLongerAvailable => "Upload is no longer available for attachment"
  | purposeMismatch => "Upload purpose does not match this operation"

/-- The checks of `attachStorageObject` on the row it locked. -/
def checkAttachment (row : Option StorageObject) (input : AttachInput) :
    Except AttachError StorageObject :=
  match row with
  | none => .error .uploadNotFound
  | some r =>
      if r.ownerId ≠ input.ownerId then .error .anotherUser
      else if r.status ≠ .temporary then .error .noLongerAvailable
      else if r.purpose ≠ input.purpose then .error .purposeMismatch
      else .ok r

/-- An upload can be attached by its owner, for its purpose, while it is
temporary. -/
theorem checkAttachment_eq_ok {row : Option StorageObject}
    {input : AttachInput} {r : StorageObject} :
    checkAttachment row input = .ok r
      ↔ row = some r ∧ r.ownerId = input.ownerId ∧ r.status = .temporary
        ∧ r.purpose = input.purpose := by
  cases row with
  | none => simp [checkAttachment]
  | some r' =>
      rw [checkAttachment]
      by_cases howner : r'.ownerId = input.ownerId
      · by_cases hstatus : r'.status = .temporary
        · by_cases hpurpose : r'.purpose = input.purpose
          · simp only [howner, hstatus, hpurpose, ne_eq, not_true, if_false,
              Except.ok.injEq, Option.some.injEq]
            constructor
            · intro h
              exact ⟨h, h ▸ howner, h ▸ hstatus, h ▸ hpurpose⟩
            · exact fun h => h.1
          · simp only [howner, hstatus, hpurpose, ne_eq, not_true, if_false,
              not_false_eq_true, if_true, reduceCtorEq, false_iff,
              Option.some.injEq]
            intro h
            exact hpurpose (h.1 ▸ h.2.2.2)
        · simp only [howner, hstatus, ne_eq, not_true, if_false,
            not_false_eq_true, if_true, reduceCtorEq, false_iff,
            Option.some.injEq]
          intro h
          exact hstatus (h.1 ▸ h.2.2.1)
      · simp only [howner, ne_eq, not_false_eq_true, if_true, reduceCtorEq,
          false_iff, Option.some.injEq]
        intro h
        exact howner (h.1 ▸ h.2.1)

-- ============================================================== deletion

/-- The keys that deletion events are enqueued under. -/
inductive DeletionIntent where
  | object
  | uploadRecovery
deriving DecidableEq

/-- A `storage.delete` event of the outbox; its aggregate and its payload
are the object. -/
structure StorageDelete where
  storageObjectId : Uuid
  intent : DeletionIntent
deriving DecidableEq

/-- The key of a deletion's event. -/
def StorageDelete.eventKey (e : StorageDelete) : String :=
  "storage.delete:" ++ (e.storageObjectId.text ++ match e.intent with
    | .object => ""
    | .uploadRecovery => ":upload-recovery")

/-- `order by updated_at, id`. -/
def DomainOutboxEvent.staler (r r' : DomainOutboxEvent StorageDelete) :
    Prop :=
  toLex (r.updatedAt, r.id.bits.toNat)
    ≤ toLex (r'.updatedAt, r'.id.bits.toNat)

instance : DecidableRel DomainOutboxEvent.staler := fun r r' =>
  inferInstanceAs (Decidable (toLex (r.updatedAt, r.id.bits.toNat)
    ≤ toLex (r'.updatedAt, r'.id.bits.toNat)))

/-- The row that an UPDATE by id leaves pending again. -/
def reviveEvent (o : DomainOutbox StorageDelete) (id : Uuid)
    (now : Timestamp) : DomainOutbox StorageDelete :=
  o.update (fun r => r.id = id ∧ r.status = .failed)
    (fun r => r.retried now) fun r => r.id_retried now

/-- What `enqueueStorageDeletion` does to the outbox once the row is
marked: revive a failed event of the object, or enqueue one. -/
def deletionEvent (o : DomainOutbox StorageDelete) (e : StorageDelete)
    (eventId : Uuid) (now : Timestamp) : DomainOutbox StorageDelete :=
  match ((o.rows.filter fun r => r.event.storageObjectId = e.storageObjectId
      ∧ r.status = .failed).insertionSort DomainOutboxEvent.staler).head? with
  | some failedEvent => reviveEvent o failedEvent.id now
  | none =>
      let enqueued := o.enqueueDomainEvent StorageDelete.eventKey eventId e now
      match enqueued.rows.find? fun r => r.event = e with
      | some event => reviveEvent enqueued event.id now
      | none => enqueued

/-- `status in ('pending', 'processing')` for some deletion event of the
object. -/
def DeletionUnderWay (o : DomainOutbox StorageDelete) (id : Uuid) : Prop :=
  ∃ r ∈ o.rows, r.event.storageObjectId = id
    ∧ (r.status = .pending ∨ r.status = .processing)

instance (o : DomainOutbox StorageDelete) (id : Uuid) :
    Decidable (DeletionUnderWay o id) :=
  inferInstanceAs (Decidable (∃ r ∈ o.rows, _ ∧ (_ ∨ _)))

/-- `interval '1 hour'`. -/
def hourMs : Nat := 60 * 60 * 1000

/-- What the cleanup selects; `referenced` is whether a catalog page
refers to the object. -/
def StorageObject.Collectable (r : StorageObject) (olderThanHours : Nat)
    (now : Timestamp) (underWay referenced : Bool) : Prop :=
  (r.status = .uploading ∨ r.status = .temporary)
      ∧ r.createdAt + olderThanHours * hourMs < now
    ∨ r.status = .deleting ∧ underWay = false
    ∨ r.status = .attached ∧ r.purpose = .catalogAsset
      ∧ r.createdAt + olderThanHours * hourMs < now ∧ referenced = false

instance (r : StorageObject) (olderThanHours : Nat) (now : Timestamp)
    (underWay referenced : Bool) :
    Decidable (r.Collectable olderThanHours now underWay referenced) :=
  inferInstanceAs (Decidable (_ ∧ _ ∨ _ ∧ _ ∨ _ ∧ _ ∧ _ ∧ _))

namespace StorageObjects

variable (t : StorageObjects)

/-- An UPDATE of one row by its id, where the row meets `p`. -/
def updateRow (id : Uuid) (p : StorageObject → Prop) [DecidablePred p]
    (f : StorageObject → StorageObject) (hf : ∀ r, (f r).id = r.id) :
    StorageObjects :=
  t.update (fun r => r.id = id ∧ p r) f hf

/-- `rowCount = 1` of such an UPDATE. -/
def RowMeets (id : Uuid) (p : StorageObject → Prop) : Prop :=
  ∃ r ∈ t.rows, r.id = id ∧ p r

instance (id : Uuid) (p : StorageObject → Prop) [DecidablePred p] :
    Decidable (t.RowMeets id p) :=
  inferInstanceAs (Decidable (∃ r ∈ t.rows, _ ∧ _))

/-- `status != 'deleted' or $2`. -/
def Markable (reopenDeleted : Bool) (r : StorageObject) : Prop :=
  r.status ≠ .deleted ∨ reopenDeleted = true

instance (reopenDeleted : Bool) : DecidablePred (Markable reopenDeleted) :=
  fun _ => inferInstanceAs (Decidable (_ ∨ _))

/-- The UPDATE of `enqueueStorageDeletion`. -/
def markDeleting (id : Uuid) (reopenDeleted : Bool) : StorageObjects :=
  t.updateRow id (Markable reopenDeleted) StorageObject.condemn fun _ => rfl

/-- The UPDATE that ends an upload. -/
def finalize (id : Uuid) : StorageObjects :=
  t.updateRow id (fun r => r.status = .uploading) StorageObject.finalized
    fun _ => rfl

/-- The UPDATE of `deleteStorageObject`. -/
def markDeleted (id : Uuid) (now : Timestamp) : StorageObjects :=
  t.updateRow id (fun r => r.status ≠ .deleted) (fun r => r.confirm now)
    fun _ => rfl

end StorageObjects

end Skrynia
