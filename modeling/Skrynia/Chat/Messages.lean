/-
`sendMessageIdempotently`, any number of calls at once.

A call is checked, looks for a stored message of its client id, and sends
in a READ COMMITTED transaction: under an advisory lock it looks again,
attaches its upload, inserts the message unless the unique index has the
pair already, and enqueues the event. Each query is a step of its own, and
any step of another call may come between two of them. A step that has to
wait for a lock or for an uncommitted index entry has no effect yet.

The advisory lock is taken on the text of the client id, and the column is
a uuid: two spellings of one id take different locks.
-/
import Skrynia.Common.Text
import Skrynia.Lib.Runs
import Skrynia.Storage.Objects

namespace Skrynia

open Relational Stepping

-- ================================================================ values

/-- A text that PostgreSQL reads as a uuid, in either case. -/
structure UuidText where
  value : Uuid
  text : String
  canonical : ∀ u : Uuid, text = u.text → u = value

/-- The text of an id as the database prints it. -/
def Uuid.asText (u : Uuid) : UuidText where
  value := u
  text := u.text
  canonical _ h := (Uuid.text_injective h).symm

/-- What `sendMessageIdempotently` is called with. -/
structure SendMessageInput where
  conversationId : UuidText
  senderId : Uuid
  clientMessageId : UuidText
  body : String
  attachmentUploadId : Option UuidText

/-- `input.body.trim()`. -/
def SendMessageInput.trimmed (input : SendMessageInput) : String :=
  jsTrim input.body

/-- A row of `messages`. -/
structure ChatMessage where
  id : Uuid
  conversationId : Uuid
  senderId : Uuid
  clientMessageId : Option Uuid
  body : String
  attachmentUrl : Option String
  attachmentStorageObjectId : Option Uuid
  createdAt : Timestamp
deriving DecidableEq

/-- What `mapMessageDto` makes of a row that a call reads. -/
structure Message where
  id : Uuid
  conversationId : Uuid
  senderId : Uuid
  clientMessageId : Option Uuid
  senderDisplayName : String
  body : String
  attachmentUrl : Option String
  createdAt : Timestamp
deriving DecidableEq

/-- `buildPrivateMediaUrl`, and `buildOwnedPrivateMediaUrl` of an id. -/
def privateMediaUrl (storageObjectId : Uuid) : String :=
  "/api/storage/private/" ++ storageObjectId.text

/-- `mapMessageDto`: what is answered of a stored message. -/
def mapMessageDto (senderDisplayName : String) (row : ChatMessage) : Message
    where
  id := row.id
  conversationId := row.conversationId
  senderId := row.senderId
  clientMessageId := row.clientMessageId
  senderDisplayName := senderDisplayName
  body := row.body
  attachmentUrl := row.attachmentStorageObjectId.map privateMediaUrl
  createdAt := row.createdAt

/-- The message, and whether this call created it. -/
structure SendMessageResult where
  message : Message
  created : Bool
deriving DecidableEq

/-- An event of type `message.created`; its aggregate and its payload are
the message. -/
structure MessageCreated where
  eventKey : String
  messageId : Uuid
deriving DecidableEq

/-- The event of a message. -/
def messageCreated (messageId : Uuid) : MessageCreated where
  eventKey := "message.created:" ++ messageId.text
  messageId := messageId

-- ================================================================ checks

/-- The two participants. -/
structure ConversationParties where
  buyerId : Uuid
  sellerId : Uuid

/-- What a blocked sender is told. -/
def messagingBlocked : Failure := forbidden "You cannot message this user"

/-- What a muted sender is told. -/
def userMuted : Failure :=
  forbidden
    "Вы временно не можете отправлять сообщения — модератор ограничил доступ"

/-- `assertCanSendMessage`, given what its queries read. -/
def assertCanSendMessage (parties : Option ConversationParties)
    (muted blocked : Bool) (userId : Uuid) : Except Failure Unit :=
  match parties with
  | none => .error (notFound "Conversation not found")
  | some parties =>
      if parties.buyerId ≠ userId ∧ parties.sellerId ≠ userId then
        .error (forbidden "Forbidden")
      else if muted then .error userMuted
      else if blocked then .error messagingBlocked
      else .ok ()

/-- What is answered where the stored message has another content. -/
def clientMessageIdReused : Failure :=
  conflict "This client message ID was already used with different content"

/-- The content of a call is not that of a stored message. -/
def SendMessageInput.Differs (input : SendMessageInput)
    (existing : ChatMessage) : Prop :=
  existing.conversationId.text ≠ input.conversationId.text
    ∨ existing.body ≠ input.trimmed
    ∨ existing.attachmentStorageObjectId.map Uuid.text
      ≠ input.attachmentUploadId.map UuidText.text

instance (input : SendMessageInput) (existing : ChatMessage) :
    Decidable (input.Differs existing) :=
  inferInstanceAs (Decidable (_ ∨ _ ∨ _))

/-- `verifyMessageReplay`: the stored message, if the call is for it. -/
def verifyMessageReplay (senderDisplayName : String) (existing : ChatMessage)
    (input : SendMessageInput) : Except Failure SendMessageResult :=
  if input.Differs existing then .error clientMessageIdReused
  else .ok ⟨mapMessageDto senderDisplayName existing, false⟩

/-- The failure of an attachment, as it is answered. -/
def AttachError.failure (e : AttachError) : Failure :=
  match e with
  | .uploadNotFound => notFound e.message
  | .anotherUser => forbidden e.message
  | .noLongerAvailable => badRequest e.message
  | .purposeMismatch => badRequest e.message

-- =============================================================== system

/-- The query that a call runs next. -/
inductive SendPhase where
  | authorizing
  | finding
  | locking
  | findingLocked
  | attaching
  | inserting
  | findingConcurrent
  | enqueueing
  | committing (result : SendMessageResult)
  | returned (result : Except Failure SendMessageResult)

/-- A call, with what its transaction has not committed yet. -/
structure SendCall where
  input : SendMessageInput
  phase : SendPhase
  attached : Option StorageObject
  inserted : Option ChatMessage
  enqueued : Option MessageCreated

/-- The tables of a send. -/
structure ChatDb where
  messages : Table ChatMessage.id
  objects : StorageObjects
  outbox : Table MessageCreated.eventKey

/-- The committed tables, and the calls under way. -/
structure ChatSystem where
  db : ChatDb
  calls : Nat → Option SendCall
  /-- The transaction that has an advisory lock. -/
  advisoryLock : Int → Option Nat
  objectLock : Uuid → Option Nat
  /-- The transaction whose uncommitted row has an entry of
  `uq_messages_sender_client_message`. -/
  entry : Uuid × Uuid → Option Nat
  /-- What `gen_random_uuid` has returned. -/
  drawn : List Uuid

/-- Names of users, and the hash of advisory locks. -/
structure ChatConfig where
  displayName : Uuid → String
  /-- `hashtextextended(…, 0)`. -/
  hashText : String → Int

/-- The statements of the calls, in any order between calls. -/
inductive SendEvent where
  | call (c : Nat) (input : SendMessageInput)
  | authorized (c : Nat) (parties : Option ConversationParties)
      (muted blocked : Bool)
  | find (c : Nat)
  | lock (c : Nat)
  | findLocked (c : Nat)
  | attach (c : Nat) (now : Timestamp)
  | insert (c : Nat) (id : Uuid) (now : Timestamp)
  | findConcurrent (c : Nat)
  | enqueue (c : Nat)
  | commit (c : Nat)
  /-- A query fails, and with it the transaction. -/
  | fail (c : Nat) (message : String)

namespace ChatDb

variable (db : ChatDb)

/-- A row of the pair. -/
def IsFor (senderId clientMessageId : Uuid) (m : ChatMessage) : Prop :=
  m.senderId = senderId ∧ m.clientMessageId = some clientMessageId

instance (senderId clientMessageId : Uuid) :
    DecidablePred (IsFor senderId clientMessageId) :=
  fun _ => inferInstanceAs (Decidable (_ ∧ _))

/-- `findMessageByClientId`. -/
def findMessageByClientId (senderId clientMessageId : Uuid) :
    Option ChatMessage :=
  db.messages.rows.find? fun m => IsFor senderId clientMessageId m

/-- The stored message of a call's pair. -/
def stored (input : SendMessageInput) : Option ChatMessage :=
  db.findMessageByClientId input.senderId input.clientMessageId.value

/-- What a transaction leaves when it commits. -/
def apply (call : SendCall) : ChatDb where
  messages :=
    match call.inserted with
    | none => db.messages
    | some m => db.messages.upsert m
  objects :=
    match call.attached with
    | none => db.objects
    | some o => db.objects.set o
  outbox :=
    match call.enqueued with
    | none => db.outbox
    | some e => db.outbox.upsert e

end ChatDb

/-- What the transaction adds to the outbox is `enqueueDomainEvent` of the
event that the call enqueued. -/
theorem DomainOutbox.Shows.apply {t : DomainOutbox MessageCreated}
    {db : ChatDb} (h : t.Shows db.outbox) {call : SendCall}
    {event : MessageCreated} (hcall : call.enqueued = some event) {id : Uuid}
    (now : Timestamp) (hid : ¬ t.Has id) :
    (t.enqueueDomainEvent MessageCreated.eventKey id event now).Shows
      (db.apply call).outbox := by
  have houtbox : (db.apply call).outbox = db.outbox.upsert event := by
    unfold ChatDb.apply
    rw [hcall]
  rw [houtbox]
  exact h.enqueueDomainEvent now hid

/-- The row that a call inserts. -/
def SendCall.row (call : SendCall) (id : Uuid) (now : Timestamp) :
    ChatMessage where
  id := id
  conversationId := call.input.conversationId.value
  senderId := call.input.senderId
  clientMessageId := some call.input.clientMessageId.value
  body := call.input.trimmed
  attachmentUrl := call.attached.map fun o => privateMediaUrl o.id
  attachmentStorageObjectId := call.attached.map StorageObject.id
  createdAt := now

/-- `message:${input.senderId}:${input.clientMessageId}`. -/
def SendMessageInput.lockText (input : SendMessageInput) : String :=
  "message:" ++ input.senderId.text ++ ":" ++ input.clientMessageId.text

/-- The key of the unique index. -/
def SendMessageInput.pair (input : SendMessageInput) : Uuid × Uuid :=
  (input.senderId, input.clientMessageId.value)

namespace ChatSystem

variable (cfg : ChatConfig) (s : ChatSystem)

/-- A call goes on. -/
def setCall (c : Nat) (call : SendCall) : ChatSystem :=
  { s with calls := Function.update s.calls c (some call) }

/-- A call that is there and in a phase. -/
def withCall (c : Nat) (f : SendCall → ChatSystem) : ChatSystem :=
  match s.calls c with
  | none => s
  | some call => f call

/-- The call ends, with its transaction and the locks. -/
def endCall (c : Nat) (call : SendCall)
    (result : Except Failure SendMessageResult) : ChatSystem :=
  let released := fun holder : Option Nat => holder.filter (· ≠ c)
  { s.setCall c ⟨call.input, .returned result, none, none, none⟩ with
    advisoryLock := fun k => released (s.advisoryLock k)
    objectLock := fun u => released (s.objectLock u)
    entry := fun pair => released (s.entry pair) }

/-- Another transaction has it. -/
def heldByOther (c : Nat) (holder : Option Nat) : Bool :=
  holder.any (· ≠ c)

/-- A call begins. -/
def call (c : Nat) (input : SendMessageInput) : ChatSystem :=
  match s.calls c with
  | some _ => s
  | none =>
      if utf16Length input.trimmed < 1 ∨ 3000 < utf16Length input.trimmed then
        s.setCall c ⟨input, .returned (.error (badRequest "Invalid message")),
          none, none, none⟩
      else s.setCall c ⟨input, .authorizing, none, none, none⟩

/-- It is authorised, or refused. -/
def authorized (c : Nat) (parties : Option ConversationParties)
    (muted blocked : Bool) : ChatSystem :=
  s.withCall c fun call =>
    match call.phase with
    | .authorizing =>
        match assertCanSendMessage parties muted blocked call.input.senderId with
        | .error e => s.endCall c call (.error e)
        | .ok _ => s.setCall c { call with phase := .finding }
    | _ => s

/-- What a call makes of a message that it found. -/
def replay (c : Nat) (call : SendCall) (existing : ChatMessage) : ChatSystem :=
  match verifyMessageReplay (cfg.displayName existing.senderId) existing
      call.input with
  | .error e => s.endCall c call (.error e)
  | .ok result => s.setCall c { call with phase := .committing result }

/-- The first lookup; it is in no transaction. -/
def find (c : Nat) : ChatSystem :=
  s.withCall c fun call =>
    match call.phase with
    | .finding =>
        match s.db.stored call.input with
        | some existing =>
            s.endCall c call (verifyMessageReplay
              (cfg.displayName existing.senderId) existing call.input)
        | none => s.setCall c { call with phase := .locking }
    | _ => s

/-- The advisory lock, when it is free. -/
def lock (c : Nat) : ChatSystem :=
  s.withCall c fun call =>
    match call.phase with
    | .locking =>
        let key := cfg.hashText call.input.lockText
        if heldByOther c (s.advisoryLock key) then s
        else
          { s.setCall c { call with phase := .findingLocked } with
            advisoryLock := Function.update s.advisoryLock key (some c) }
    | _ => s

/-- The lookup under the lock. -/
def findLocked (c : Nat) : ChatSystem :=
  s.withCall c fun call =>
    match call.phase with
    | .findingLocked =>
        match s.db.stored call.input with
        | some existing => s.replay cfg c call existing
        | none =>
            s.setCall c { call with
              phase := if call.input.attachmentUploadId.isSome then .attaching
                else .inserting }
    | _ => s

/-- `attachStorageObject`: the row is locked, checked and updated. -/
def attach (c : Nat) (now : Timestamp) : ChatSystem :=
  s.withCall c fun call =>
    match call.phase, call.input.attachmentUploadId with
    | .attaching, some uploadId =>
        if heldByOther c (s.objectLock uploadId.value) then s
        else
          match checkAttachment (s.db.objects.find? uploadId.value)
              ⟨uploadId.value, call.input.senderId, .chatAttachment⟩ with
          | .error e => s.endCall c call (.error e.failure)
          | .ok o =>
              { s.setCall c { call with
                  phase := .inserting
                  attached := some
                    { o with status := .attached, attachedAt := some now } } with
                objectLock :=
                  Function.update s.objectLock uploadId.value (some c) }
    | _, _ => s

/-- `insert into messages … on conflict do nothing`. It waits for an
uncommitted row of the pair. -/
def insert (c : Nat) (id : Uuid) (now : Timestamp) : ChatSystem :=
  s.withCall c fun call =>
    match call.phase with
    | .inserting =>
        if id ∈ s.drawn ∨ heldByOther c (s.entry call.input.pair) then s
        else
          match s.db.stored call.input with
          | some _ => s.setCall c { call with phase := .findingConcurrent }
          | none =>
              { s.setCall c { call with
                  phase := .enqueueing
                  inserted := some (call.row id now) } with
                entry := Function.update s.entry call.input.pair (some c)
                drawn := id :: s.drawn }
    | _ => s

/-- The lookup after a conflict. -/
def findConcurrent (c : Nat) : ChatSystem :=
  s.withCall c fun call =>
    match call.phase with
    | .findingConcurrent =>
        match s.db.stored call.input with
        | some existing => s.replay cfg c call existing
        | none =>
            s.endCall c call
              (.error (.error "Message client ID conflicted but could not be read"))
    | _ => s

/-- `enqueueDomainEvent` on conflict do nothing. -/
def enqueue (c : Nat) : ChatSystem :=
  s.withCall c fun call =>
    match call.phase, call.inserted with
    | .enqueueing, some m =>
        s.setCall c { call with
          phase := .committing
            ⟨mapMessageDto (cfg.displayName m.senderId) m, true⟩
          enqueued := some (messageCreated m.id) }
    | _, _ => s

/-- The transaction commits, and the call returns. -/
def commitCall (c : Nat) (call : SendCall) (result : SendMessageResult) :
    ChatSystem :=
  { s.endCall c call (.ok result) with db := s.db.apply call }

/-- COMMIT. -/
def commit (c : Nat) : ChatSystem :=
  s.withCall c fun call =>
    match call.phase with
    | .committing result => s.commitCall c call result
    | _ => s

/-- A query fails, and its transaction is rolled back. A COMMIT that took
effect although its reply was lost is not among these: the call would fail
with its message stored. -/
def fail (c : Nat) (message : String) : ChatSystem :=
  s.withCall c fun call =>
    match call.phase with
    | .returned _ => s
    | _ => s.endCall c call (.error (.error message))

/-- One event. -/
def step : ChatSystem → SendEvent → ChatSystem
  | s, .call c input => s.call c input
  | s, .authorized c parties muted blocked =>
      s.authorized c parties muted blocked
  | s, .find c => s.find cfg c
  | s, .lock c => s.lock cfg c
  | s, .findLocked c => s.findLocked cfg c
  | s, .attach c now => s.attach c now
  | s, .insert c id now => s.insert c id now
  | s, .findConcurrent c => s.findConcurrent cfg c
  | s, .enqueue c => s.enqueue cfg c
  | s, .commit c => s.commit c
  | s, .fail c message => s.fail c message

/-- Before any call. -/
def started (db : ChatDb) : ChatSystem where
  db := db
  calls := fun _ => none
  advisoryLock := fun _ => none
  objectLock := fun _ => none
  entry := fun _ => none
  drawn := db.messages.rows.map ChatMessage.id

end ChatSystem

end Skrynia
