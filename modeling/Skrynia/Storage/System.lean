/-
The storage system: uploads, the transactions of their users, the
cleanup, the delete handlers and the provider, step by step.

# The parties

An upload is a run of `createStorageUpload`, told apart by the id its row
gets. Its quota check and its insert are one transaction under the
owner's advisory lock, but two steps of it: everybody else moves in
between. The write is a step of the provider's own (`land`), taken while
the call is under way or any time after the call failed or its process
died.

A caller is a transaction that attaches uploads and enqueues deletions.
What it writes is a draft of the row until it commits; a row with a draft
is locked, and statements of others that would change it wait.

A delete handler reads the row, deletes the bytes and confirms, in three
steps. It runs inside an attempt of an outbox worker, so two handlers of
one object may be under way at once: of two events, or of one event whose
lease ran out.

# History variable

`attachments` has the input of every attachment that was committed. No
step reads it.
-/
import Skrynia.Storage.Objects

namespace Skrynia

open Relational Stepping

-- ============================================================== parties

/-- What the quota transaction of an upload knows; `began` is its
`now()`. -/
structure Reservation where
  ownerId : Uuid
  purpose : StoragePurpose
  image : ProcessedImage
  began : Timestamp

/-- Where `createStorageUpload` stands. -/
inductive UploadPhase where
  | idle
  /-- The first quota check has passed. -/
  | processing (ownerId : Uuid) (purpose : StoragePurpose)
  /-- The transaction waits for the advisory lock. -/
  | waiting (q : Reservation)
  | locked (q : Reservation)
  /-- The quota check under the lock has passed. -/
  | checked (q : Reservation)
  | writing
  | finalizing
  /-- In the `catch`: the deletion intent is next. -/
  | recovering

/-- The upload has a row and has not ended. -/
def UploadPhase.Running : UploadPhase → Prop
  | writing => True
  | finalizing => True
  | recovering => True
  | _ => False

instance (p : UploadPhase) : Decidable p.Running := by
  cases p with
  | idle => exact instDecidableFalse
  | processing => exact instDecidableFalse
  | waiting => exact instDecidableFalse
  | locked => exact instDecidableFalse
  | checked => exact instDecidableFalse
  | writing => exact instDecidableTrue
  | finalizing => exact instDecidableTrue
  | recovering => exact instDecidableTrue

/-- What an open transaction has written to a row, and locked it by. -/
structure RowDraft where
  tx : Nat
  attach : Option (AttachInput × Timestamp)
  deletes : Bool

/-- The row as the transaction sees it. -/
def RowDraft.apply (d : RowDraft) (r : StorageObject) : StorageObject :=
  let attached := match d.attach with
    | some (_, now) => r.attach now
    | none => r
  if d.deletes then attached.condemn else attached

/-- Where `deleteStorageObject` stands. -/
inductive HandlerPhase where
  | selecting
  /-- `deletePhysicalObject` is next, with the row that was read. -/
  | deleting (object : StorageObject)
  | confirming (id : Uuid)
  | finished

/-- The rows, the outbox, the provider, and all that is under way. -/
structure StorageSystem where
  rows : StorageObjects
  outbox : OutboxSystem StorageDelete
  provider : StorageLocation → Bool
  upload : Uuid → UploadPhase
  /-- A write that the provider may still carry out. -/
  landing : Uuid → Option StorageLocation
  /-- The advisory lock of an owner, and the upload that has it. -/
  quotaLock : Uuid → Option Uuid
  draft : Uuid → Option RowDraft
  handler : String → Uuid → HandlerPhase
  attachments : List AttachInput

/-- What may happen next. -/
inductive StorageStep where
  | precheck (id ownerId : Uuid) (purpose : StoragePurpose) (fileBytes : Nat)
      (now : Timestamp)
  | «begin» (id : Uuid) (image : ProcessedImage) (now : Timestamp)
  | lockQuota (id : Uuid)
  | checkQuota (id : Uuid)
  | reserve (id : Uuid) (driver : StorageDriver) (nanoid : String)
  | land (id : Uuid)
  | dropWrite (id : Uuid)
  | writeReturns (id : Uuid)
  | writeFails (id : Uuid)
  | finalize (id : Uuid) (fault : Option Fault)
  | recover (id eventId : Uuid) (now : Timestamp)
  /-- The process dies, or its deletion intent fails. -/
  | abandon (id : Uuid)
  | attach (tx : Nat) (input : AttachInput) (now : Timestamp)
  | enqueueDeletion (tx : Nat) (id : Uuid)
  | commit (tx : Nat) (eventId : Uuid → Uuid) (now : Timestamp)
  | rollback (tx : Nat)
  | cleanup (id : Uuid) (olderThanHours : Nat) (referenced : Bool)
      (eventId : Uuid) (now : Timestamp)
  | handlerSelect (worker : String) (eventId : Uuid)
  | handlerDelete (worker : String) (eventId : Uuid)
  | handlerConfirm (worker : String) (eventId : Uuid) (now : Timestamp)
  | outbox (step : OutboxStep StorageDelete)

namespace StorageSystem

variable (s : StorageSystem)

/-- Nothing stored, nothing under way. -/
def start : StorageSystem where
  rows := .empty
  outbox := .start
  provider := fun _ => false
  upload := fun _ => .idle
  landing := fun _ => none
  quotaLock := fun _ => none
  draft := fun _ => none
  handler := fun _ _ => .selecting
  attachments := []

/-- An upload goes on. -/
def setUpload (id : Uuid) (p : UploadPhase) : StorageSystem :=
  { s with upload := Function.update s.upload id p }

/-- A delete handler goes on. -/
def setHandler (worker : String) (eventId : Uuid) (p : HandlerPhase) :
    StorageSystem :=
  { s with
    handler := fun w i =>
      if w = worker ∧ i = eventId then p else s.handler w i }

/-- Some transaction has the row locked. -/
def Locked (id : Uuid) : Prop := (s.draft id).isSome

instance (id : Uuid) : Decidable (s.Locked id) :=
  inferInstanceAs (Decidable (_ = true))

-- ============================================================== uploads

/-- The quota transaction ends: its upload goes on as `p`. -/
def releaseQuota (id : Uuid) (q : Reservation) (p : UploadPhase) :
    StorageSystem :=
  { s.setUpload id p with
    quotaLock := Function.update s.quotaLock q.ownerId none }

/-- The quota is looked at before the file is processed. -/
def precheck (env : StorageEnv) (id ownerId : Uuid)
    (purpose : StoragePurpose) (fileBytes : Nat) (now : Timestamp) :
    StorageSystem :=
  match s.upload id,
      s.rows.assertUploadQuota env ownerId purpose fileBytes now with
  | .idle, .ok _ => s.setUpload id (.processing ownerId purpose)
  | _, _ => s

/-- `processUploadedImage` has returned; the transaction begins. -/
def «begin» (id : Uuid) (image : ProcessedImage) (now : Timestamp) :
    StorageSystem :=
  match s.upload id with
  | .processing ownerId purpose =>
      s.setUpload id (.waiting ⟨ownerId, purpose, image, now⟩)
  | _ => s

/-- `pg_advisory_xact_lock`: nothing happens while somebody has it. -/
def lockQuota (id : Uuid) : StorageSystem :=
  match s.upload id with
  | .waiting q =>
      if s.quotaLock q.ownerId = none then
        { s.setUpload id (.locked q) with
          quotaLock := Function.update s.quotaLock q.ownerId (some id) }
      else s
  | _ => s

/-- The quota is checked under the lock. -/
def checkQuota (env : StorageEnv) (id : Uuid) : StorageSystem :=
  match s.upload id with
  | .locked q =>
      match s.rows.assertUploadQuota env q.ownerId q.purpose q.image.bytes
          q.began with
      | .ok _ => s.setUpload id (.checked q)
      | .error _ => s.releaseQuota id q .idle
  | _ => s

/-- The insert, and COMMIT. -/
def reserve (id : Uuid) (driver : StorageDriver) (nanoid : String) :
    StorageSystem :=
  match s.upload id with
  | .checked q =>
      let location := (driver, newObjectKey q.ownerId q.purpose nanoid)
      match s.rows.reserve?
          (.reserved id q.ownerId q.purpose location q.image q.began) with
      | some rows =>
          { s.releaseQuota id q .writing with
            rows := rows
            landing := Function.update s.landing id (some location) }
      | none => s.releaseQuota id q .idle
  | _ => s

/-- The bytes appear. -/
def land (id : Uuid) : StorageSystem :=
  match s.landing id with
  | some location =>
      { s with
        provider := Function.update s.provider location true
        landing := Function.update s.landing id none }
  | none => s

/-- A write that nobody waits for any more will not be carried out. -/
def dropWrite (id : Uuid) : StorageSystem :=
  match s.upload id with
  | .writing => s
  | _ => { s with landing := Function.update s.landing id none }

/-- `writePhysicalObject` returns once its write has landed. -/
def writeReturns (id : Uuid) : StorageSystem :=
  match s.upload id, s.landing id with
  | .writing, none => s.setUpload id .finalizing
  | _, _ => s

/-- `writePhysicalObject` throws, whatever becomes of its write. -/
def writeFails (id : Uuid) : StorageSystem :=
  match s.upload id with
  | .writing => s.setUpload id .recovering
  | _ => s

/-- The UPDATE that makes the upload `temporary`; an error, and an UPDATE
that finds no row, end in the `catch`. -/
def finalize (id : Uuid) (fault : Option Fault) : StorageSystem :=
  match s.upload id with
  | .finalizing =>
      if s.Locked id then s
      else if fault = some .refused then s.setUpload id .recovering
      else
        { s with rows := s.rows.finalize id }.setUpload id
          (if fault = none ∧ s.rows.RowMeets id (fun r =>
              r.status = StorageObjectStatus.uploading) then .idle
            else .recovering)
  | _ => s

/-- `enqueueStorageDeletion` in a transaction of its own. -/
def enqueueStorageDeletion (id : Uuid) (reopenDeleted : Bool)
    (intent : DeletionIntent) (eventId : Uuid) (now : Timestamp) :
    StorageSystem :=
  if s.rows.RowMeets id (StorageObjects.Markable reopenDeleted) then
    { s with
      rows := s.rows.markDeleting id reopenDeleted
      outbox := s.outbox.setTable
        (deletionEvent s.outbox.table ⟨id, intent⟩ eventId now) }
  else s

/-- The intent of the `catch`. -/
def recover (id eventId : Uuid) (now : Timestamp) : StorageSystem :=
  match s.upload id with
  | .recovering =>
      if s.Locked id then s
      else
        (s.enqueueStorageDeletion id true .uploadRecovery eventId
          now).setUpload id .idle
  | _ => s

/-- The upload stops where it stands; an open transaction is rolled
back. -/
def abandon (id : Uuid) : StorageSystem :=
  match s.upload id with
  | .locked q => s.releaseQuota id q .idle
  | .checked q => s.releaseQuota id q .idle
  | _ => s.setUpload id .idle

-- ============================================================== callers

/-- The draft of a transaction. -/
def draftOf (tx : Nat) (id : Uuid) : Option RowDraft :=
  (s.draft id).filter fun d => d.tx = tx

/-- The row as the transaction sees it. -/
def seenBy (tx : Nat) (id : Uuid) : Option StorageObject :=
  (s.rows.find? id).map fun r =>
    match s.draftOf tx id with
    | some d => d.apply r
    | none => r

/-- Another transaction has the row locked. -/
def LockedByOther (tx : Nat) (id : Uuid) : Prop :=
  s.Locked id ∧ s.draftOf tx id = none

instance (tx : Nat) (id : Uuid) : Decidable (s.LockedByOther tx id) :=
  haveI : Decidable (s.draftOf tx id = none) :=
    decidable_of_iff ((s.draftOf tx id).isNone = true) Option.isNone_iff_eq_none
  inferInstanceAs (Decidable (_ ∧ _))

/-- A transaction drops its drafts. -/
def rollback (tx : Nat) : StorageSystem :=
  { s with draft := fun id => (s.draft id).filter fun d => d.tx ≠ tx }

/-- `attachStorageObject`; an error rolls its transaction back. -/
def attach (tx : Nat) (input : AttachInput) (now : Timestamp) :
    StorageSystem :=
  if s.LockedByOther tx input.uploadId then s
  else
    match checkAttachment (s.seenBy tx input.uploadId) input with
    | .ok _ =>
        { s with
          draft := Function.update s.draft input.uploadId
            (some ⟨tx, some (input, now), false⟩) }
    | .error _ => s.rollback tx

/-- `enqueueStorageDeletion` in a caller's transaction. -/
def enqueueDeletion (tx : Nat) (id : Uuid) : StorageSystem :=
  if s.LockedByOther tx id then s
  else
    match s.seenBy tx id with
    | some r =>
        if StorageObjects.Markable false r then
          { s with
            draft := Function.update s.draft id
              (some ⟨tx, (s.draftOf tx id).bind RowDraft.attach, true⟩) }
        else s
    | none => s

/-- The attachments that a transaction commits. -/
def attachedBy (tx : Nat) : List AttachInput :=
  s.rows.rows.filterMap fun r =>
    ((s.draftOf tx r.id).bind RowDraft.attach).map Prod.fst

/-- The objects that a transaction condemns. -/
def condemnedBy (tx : Nat) : List Uuid :=
  (s.rows.rows.map StorageObject.id).filter fun id =>
    (s.draftOf tx id).any RowDraft.deletes

/-- The rows that a transaction commits. -/
def draftedRow (tx : Nat) (r : StorageObject) : StorageObject :=
  match s.draftOf tx r.id with
  | some d => d.apply r
  | none => r

/-- A draft is of the row's own object. -/
theorem sameObject_apply (d : RowDraft) (r : StorageObject) :
    r.SameObject (d.apply r) := by
  cases d with
  | mk tx attach deletes =>
      cases attach with
      | none =>
          cases deletes with
          | false => exact StorageObject.SameObject.refl r
          | true => exact r.sameObject_condemn
      | some a =>
          cases deletes with
          | false => exact r.sameObject_attach a.2
          | true =>
              exact (r.sameObject_attach a.2).trans (r.attach a.2).sameObject_condemn

/-- So is what the transaction sees. -/
theorem sameObject_draftedRow (tx : Nat) (r : StorageObject) :
    r.SameObject (s.draftedRow tx r) := by
  unfold draftedRow
  split
  · exact sameObject_apply _ r
  · exact StorageObject.SameObject.refl r

/-- A draft attaches the row, condemns it, or leaves its status. -/
theorem status_apply (d : RowDraft) (r : StorageObject) :
    (d.apply r).status = .attached ∨ (d.apply r).status = .deleting
      ∨ (d.apply r).status = r.status := by
  cases d with
  | mk tx attach deletes =>
      cases deletes with
      | true => exact Or.inr (Or.inl rfl)
      | false =>
          cases attach with
          | none => exact Or.inr (Or.inr rfl)
          | some a => exact Or.inl rfl

/-- So does what the transaction sees. -/
theorem status_draftedRow (tx : Nat) (r : StorageObject) :
    (s.draftedRow tx r).status = .attached
      ∨ (s.draftedRow tx r).status = .deleting
      ∨ (s.draftedRow tx r).status = r.status := by
  unfold draftedRow
  split
  · exact status_apply _ r
  · exact Or.inr (Or.inr rfl)

/-- A transaction writes its drafts, and the events of its deletions. -/
def commit (tx : Nat) (eventId : Uuid → Uuid) (now : Timestamp) :
    StorageSystem :=
  { s.rollback tx with
    rows := s.rows.update (fun _ => True) (s.draftedRow tx)
      fun r => (s.sameObject_draftedRow tx r).1
    outbox := s.outbox.setTable ((s.condemnedBy tx).foldl
      (fun o id => deletionEvent o ⟨id, .object⟩ (eventId id) now)
      s.outbox.table)
    attachments := s.attachments ++ s.attachedBy tx }

-- ============================================================= deletion

/-- The transaction of the cleanup for one candidate. -/
def cleanup (id : Uuid) (olderThanHours : Nat) (referenced : Bool)
    (eventId : Uuid) (now : Timestamp) : StorageSystem :=
  if s.Locked id then s
  else
    match s.rows.find? id with
    | some r =>
        if r.Collectable olderThanHours now
            (DeletionUnderWay s.outbox.table id) referenced then
          s.enqueueStorageDeletion id false .object eventId now
        else s
    | none => s

/-- A delete handler reads the row. -/
def handlerSelect (worker : String) (eventId : Uuid) : StorageSystem :=
  match s.outbox.attempt worker eventId, s.handler worker eventId with
  | some ⟨event, .handling⟩, .selecting =>
      match s.rows.find? event.event.storageObjectId with
      | some object =>
          s.setHandler worker eventId
            (if object.status = .deleted then .finished else .deleting object)
      | none => s.setHandler worker eventId .finished
  | _, _ => s

/-- It deletes the bytes. -/
def handlerDelete (worker : String) (eventId : Uuid) : StorageSystem :=
  match s.handler worker eventId with
  | .deleting object =>
      { s.setHandler worker eventId (.confirming object.id) with
        provider := Function.update s.provider object.location false }
  | _ => s

/-- It confirms. -/
def handlerConfirm (worker : String) (eventId : Uuid) (now : Timestamp) :
    StorageSystem :=
  match s.handler worker eventId with
  | .confirming id =>
      if s.Locked id then s
      else
        { s.setHandler worker eventId .finished with
          rows := s.rows.markDeleted id now }
  | _ => s

/-- A step of the outbox. A handler returns when it has finished, and may
throw at any time; events are enqueued by the deletions only. -/
def outboxStep (maxAttempts : Nat) (e : OutboxStep StorageDelete) :
    StorageSystem :=
  let next := { s with
    outbox := s.outbox.step StorageDelete.eventKey maxAttempts e }
  match e with
  | .enqueue _ _ _ => s
  | .handlerReturns worker eventId =>
      match s.handler worker eventId with
      | .finished => next.setHandler worker eventId .selecting
      | _ => s
  | .handlerThrows worker eventId _ =>
      next.setHandler worker eventId .selecting
  | _ => next

/-- A step that a party is not at does nothing. -/
def step (env : StorageEnv) (maxAttempts : Nat) :
    StorageStep → StorageSystem
  | .precheck id ownerId purpose fileBytes now =>
      s.precheck env id ownerId purpose fileBytes now
  | .begin id image now => s.begin id image now
  | .lockQuota id => s.lockQuota id
  | .checkQuota id => s.checkQuota env id
  | .reserve id driver nanoid => s.reserve id driver nanoid
  | .land id => s.land id
  | .dropWrite id => s.dropWrite id
  | .writeReturns id => s.writeReturns id
  | .writeFails id => s.writeFails id
  | .finalize id fault => s.finalize id fault
  | .recover id eventId now => s.recover id eventId now
  | .abandon id => s.abandon id
  | .attach tx input now => s.attach tx input now
  | .enqueueDeletion tx id => s.enqueueDeletion tx id
  | .commit tx eventId now => s.commit tx eventId now
  | .rollback tx => s.rollback tx
  | .cleanup id olderThanHours referenced eventId now =>
      s.cleanup id olderThanHours referenced eventId now
  | .handlerSelect worker eventId => s.handlerSelect worker eventId
  | .handlerDelete worker eventId => s.handlerDelete worker eventId
  | .handlerConfirm worker eventId now =>
      s.handlerConfirm worker eventId now
  | .outbox e => s.outboxStep maxAttempts e

/-- Take some steps. -/
def play (env : StorageEnv) (maxAttempts : Nat) (steps : List StorageStep) :
    StorageSystem :=
  run (fun s e => s.step env maxAttempts e) s steps

end StorageSystem

end Skrynia
