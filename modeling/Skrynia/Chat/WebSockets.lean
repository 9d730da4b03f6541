/-
WebSocket connections: their registries, and the handlers that keep them.

# The system

A handler runs from one `await` to the next without interruption, and any
others may run in between. What it waits for comes back as an event with
the answer: an authentication, a check of the session, an access to a
conversation. A connection has one handshake, a close handler and any
number of message handlers; revocations, the security sweep, slow clients
and the peer may start to close it at any time, and its close event comes
some time after that.

`findRevokedRealtimeClients` waits twice and may register a family after
each wait. That turn of a client is an event of its own
(`familyResolved`), from whichever handler or sweep it comes.
-/
import Skrynia.Common.Text
import Skrynia.Db.Schema
import Skrynia.Lib.Registry
import Skrynia.Lib.Runs

namespace Skrynia

open Registering Stepping

-- ============================================================== clients

/-- `readyState` of a connection. -/
inductive ReadyState where
  | connecting
  | «open»
  | closing
  | closed
deriving DecidableEq

/-- What `authenticateHandshake` returns. -/
structure SocketIdentity where
  userId : Uuid
  jti : String
  familyId : Option String
  sessionVersion : Nat
  emailVerified : Bool

/-- What a handshake waits for. -/
inductive Handshake where
  | authenticating
  | checkingSession
  | registeringPresence
  /-- The message listener is installed. -/
  | established
  | over
deriving DecidableEq

/-- What the cleanup of a connection waits for. -/
inductive Cleanup where
  | notStarted
  | awaitingPresence
  | unregistering
  | finished
deriving DecidableEq

/-- A socket with its fields, and the variables of its connection
handler. -/
structure Client where
  readyState : ReadyState
  userId : Option Uuid
  jti : Option String
  familyId : Option String
  sessionVersion : Option Nat
  emailVerified : Bool
  rooms : List Uuid
  sentAt : List Nat
  frameAt : List Nat
  joinAt : List Nat
  pendingHandlers : Nat
  closed : Bool
  mapsRegistered : Bool
  presencePending : Bool
  presenceRegistered : Bool
  handshake : Handshake
  cleanup : Cleanup

/-- A socket as the server gets it. -/
def Client.opened : Client where
  readyState := .open
  userId := none
  jti := none
  familyId := none
  sessionVersion := none
  emailVerified := false
  rooms := []
  sentAt := []
  frameAt := []
  joinAt := []
  pendingHandlers := 0
  closed := false
  mapsRegistered := false
  presencePending := false
  presenceRegistered := false
  handshake := .authenticating
  cleanup := .notStarted

namespace Client

variable (c : Client)

/-- `close()`. -/
def close : Client :=
  match c.readyState with
  | .connecting => { c with readyState := .closing }
  | .open => { c with readyState := .closing }
  | _ => c

/-- `now - ts < 60_000`. -/
def recent (now : Nat) (times : List Nat) : List Nat :=
  times.filter fun ts => now < ts + 60000

end Client

/-- The fields of an identity. -/
def SocketIdentity.fields (identity : SocketIdentity) (cl : Client) : Client :=
  { cl with
    userId := some identity.userId
    jti := some identity.jti
    familyId := identity.familyId
    sessionVersion := some identity.sessionVersion
    emailVerified := identity.emailVerified
    rooms := []
    mapsRegistered := true
    handshake := .checkingSession }

-- ============================================================= messages

/-- What a client may send. -/
inductive IncomingMessage where
  | join (conversationId : Uuid)
  | leave (conversationId : Uuid)
  | message (conversationId clientMessageId : Uuid)
      (body : { s : String // 1 ≤ utf16Length s ∧ utf16Length s ≤ 3000 })
      (attachmentUploadId : Option Uuid)

/-- What a message handler waits for. -/
inductive MessageTask where
  | checkingSession (msg : IncomingMessage)
  | verifyingUser (msg : IncomingMessage)
  | checkingAccess (conversationId : Uuid) (alreadyJoined : Bool)
  | sending

/-- What comes back to a waiting handler. -/
inductive Answer where
  | passed
  | refused
  /-- It threw. -/
  | failed
deriving DecidableEq

-- =============================================================== system

/-- The limits that are read. -/
structure WsConfig where
  maxFramesPerMin : Nat
  maxJoinsPerMin : Nat
  maxConcurrentHandlers : Nat
  maxRoomsPerConnection : Nat

/-- `MAX_CONNECTIONS_PER_USER`. -/
def maxConnectionsPerUser : Nat := 12

/-- The connections of an instance, its registries, and the messages being
handled. -/
structure WsServer where
  clients : Nat → Option Client
  byUser : Registry Uuid Nat
  byConversation : Registry Uuid Nat
  byJti : Registry String Nat
  byFamily : Registry String Nat
  /-- The message handlers under way, each with its client. -/
  tasks : Nat → Option (Nat × MessageTask)
  shuttingDown : Bool

/-- What may happen next. -/
inductive WsEvent where
  | connect (c : Nat) (originAllowed : Bool)
  | authenticated (c : Nat) (identity : Option SocketIdentity)
  | sessionChecked (c : Nat) (answer : Answer)
  | presenceRegistered (c : Nat) (done : Bool)
  /-- A frame, with its message unless it is malformed or invalid. -/
  | frame (c n : Nat) (now : Nat) (message : Option IncomingMessage)
  | messageSessionChecked (n : Nat) (answer : Answer)
  | userVerified (n : Nat) (now : Nat) (answer : Answer)
  | accessChecked (n : Nat) (answer : Answer)
  | sent (n : Nat)
  | familyResolved (c : Nat) (familyId : String)
  | sessionRevoked (jti : String)
  | familyRevoked (familyId : String)
  | userRevoked (userId : Uuid) (exceptSessionId : Option String)
  /-- The peer, a timeout, a slow client, the sweep or the shutdown. -/
  | closing (c : Nat)
  | closed (c : Nat)
  | cleanupContinues (c : Nat)
  | shutdown

namespace WsServer

variable (s : WsServer)

/-- Before any connection. -/
def started : WsServer where
  clients := fun _ => none
  byUser := .empty
  byConversation := .empty
  byJti := .empty
  byFamily := .empty
  tasks := fun _ => none
  shuttingDown := false

/-- A connection changes. -/
def setClient (c : Nat) (cl : Client) : WsServer :=
  { s with clients := Function.update s.clients c (some cl) }

/-- A client that is there. -/
def withClient (c : Nat) (f : Client → WsServer) : WsServer :=
  match s.clients c with
  | none => s
  | some cl => f cl

/-- The server begins to close a connection. -/
def closeClient (c : Nat) : WsServer :=
  s.withClient c fun cl => s.setClient c cl.close

/-- `registerClientFamily`. -/
def registerClientFamily (c : Nat) (familyId : String) : WsServer :=
  s.withClient c fun cl =>
    if cl.readyState ≠ .open ∧ cl.readyState ≠ .connecting then s
    else if cl.familyId = some familyId ∧ c ∈ s.byFamily.entries familyId then s
    else
      { s.setClient c { cl with familyId := some familyId } with
        byFamily := (s.byFamily.leave cl.familyId c).add familyId c }

/-- `joinConversation`: a room is entered. -/
def joinConversation (c : Nat) (conversationId : Uuid) : WsServer :=
  s.withClient c fun cl =>
    { s.setClient c { cl with rooms := cl.rooms.insert conversationId } with
      byConversation := s.byConversation.add conversationId c }

/-- `leaveConversation`: a room is left. -/
def leaveConversation (c : Nat) (conversationId : Uuid) : WsServer :=
  s.withClient c fun cl =>
    { s.setClient c
        { cl with rooms := cl.rooms.filter (· ≠ conversationId) } with
      byConversation := s.byConversation.remove conversationId c }

/-- `leaveAll`, the rooms apart. -/
def leaveMaps (c : Nat) (cl : Client) : WsServer :=
  { s with
    byUser := s.byUser.leave cl.userId c
    byJti := s.byJti.leave cl.jti c
    byFamily := s.byFamily.leave cl.familyId c }

/-- `leaveAll`: all rooms and registries. -/
def leaveAll (c : Nat) : WsServer :=
  s.withClient c fun cl =>
    cl.rooms.foldl (fun s room => s.leaveConversation c room)
      (s.leaveMaps c cl)

/-- `cleanupConnection`, up to its first `await`: only the first call does
anything. -/
def cleanupConnection (c : Nat) : WsServer :=
  s.withClient c fun cl =>
    if cl.cleanup ≠ .notStarted then s
    else
      let left := if cl.mapsRegistered then s.leaveAll c else s
      left.withClient c fun cl => left.setClient c { cl with
        mapsRegistered := false
        cleanup :=
          if cl.presencePending then .awaitingPresence
          else if cl.presenceRegistered then .unregistering
          else .finished }

-- ============================================================ handshakes

/-- The handler ends, and the socket is closed. -/
def endHandshake (c : Nat) : WsServer :=
  s.withClient c fun cl =>
    s.setClient c { cl with handshake := .over }.close

/-- A connection is accepted, or closed at once. -/
def connect (c : Nat) (originAllowed : Bool) : WsServer :=
  match s.clients c with
  | some _ => s
  | none =>
      if s.shuttingDown then
        s.setClient c { Client.opened with handshake := .over }.close
      else if originAllowed then s.setClient c .opened
      else s.setClient c { Client.opened with handshake := .over }.close

/-- `if (familyId) registerClientFamily(client, familyId)`. -/
def registerFamily (c : Nat) (familyId : Option String) : WsServer :=
  match familyId with
  | none => s
  | some familyId => s.registerClientFamily c familyId

/-- The maps are registered, by session, family and user. -/
def register (c : Nat) (cl : Client) (identity : SocketIdentity) : WsServer :=
  let registered := { s.setClient c (identity.fields cl) with
    byJti := s.byJti.add identity.jti c }
  let bound := registered.registerFamily c identity.familyId
  { bound with byUser := bound.byUser.add identity.userId c }

/-- The authentication comes back. -/
def authenticated (c : Nat) (identity : Option SocketIdentity) : WsServer :=
  s.withClient c fun cl =>
    if cl.handshake ≠ .authenticating then s
    else
      match identity with
      | none => s.endHandshake c
      | some identity =>
          if s.shuttingDown then s.endHandshake c
          else if cl.closed ∨ cl.readyState ≠ .open then
            s.setClient c { cl with handshake := .over }
          else if maxConnectionsPerUser
              ≤ (s.byUser.entries identity.userId).card then s.endHandshake c
          else s.register c cl identity

/-- The connection went away during its handshake. -/
def abandon (c : Nat) : WsServer :=
  (s.cleanupConnection c).withClient c fun cl =>
    (s.cleanupConnection c).setClient c { cl with handshake := .over }

/-- The check of the session comes back. -/
def sessionChecked (c : Nat) (answer : Answer) : WsServer :=
  s.withClient c fun cl =>
    if cl.handshake ≠ .checkingSession then s
    else if answer ≠ .passed then s.endHandshake c
    else if cl.closed ∨ cl.readyState ≠ .open then s.abandon c
    else s.setClient c { cl with
      handshake := .registeringPresence
      presencePending := true }

/-- The registration of the presence comes back. -/
def presenceRegistered (c : Nat) (done : Bool) : WsServer :=
  s.withClient c fun cl =>
    if cl.handshake ≠ .registeringPresence then s
    else
      let settled := s.setClient c { cl with
        presencePending := false
        presenceRegistered := done }
      if done = false ∨ s.shuttingDown then settled.endHandshake c
      else if cl.closed ∨ cl.readyState ≠ .open then settled.abandon c
      else settled.setClient c { cl with
        presencePending := false
        presenceRegistered := true
        handshake := .established }

/-- The cleanup goes on: the presence is known, and then it is taken
back. -/
def cleanupContinues (c : Nat) : WsServer :=
  s.withClient c fun cl =>
    match cl.cleanup with
    | .awaitingPresence =>
        if cl.presencePending then s
        else s.setClient c { cl with
          cleanup := if cl.presenceRegistered then .unregistering
            else .finished }
    | .unregistering =>
        s.setClient c { cl with
          presenceRegistered := false
          cleanup := .finished }
    | _ => s

-- ============================================================== messages

/-- The handling of a message goes on, or is over. -/
def setTask (n : Nat) (t : Option (Nat × MessageTask)) : WsServer :=
  { s with tasks := Function.update s.tasks n t }

/-- A message handler ends. -/
def finish (n c : Nat) : WsServer :=
  (s.setTask n none).withClient c fun cl =>
    (s.setTask n none).setClient c
      { cl with pendingHandlers := cl.pendingHandlers - 1 }

/-- The message listener: the frame budget, the backlog, and the first
check of a valid message. -/
def frame (cfg : WsConfig) (c n : Nat) (now : Nat)
    (message : Option IncomingMessage) : WsServer :=
  s.withClient c fun cl =>
    if cl.handshake ≠ .established ∨ cl.closed ∨ (s.tasks n).isSome then s
    else if s.shuttingDown then s.closeClient c
    else
      let frameAt := Client.recent now cl.frameAt ++ [now]
      let counted := s.setClient c { cl with frameAt := frameAt }
      if cfg.maxFramesPerMin * 2 < frameAt.length then counted.closeClient c
      else if cfg.maxFramesPerMin < frameAt.length then counted
      else if cfg.maxConcurrentHandlers ≤ cl.pendingHandlers then counted
      else
        match message with
        | none => counted
        | some msg =>
            (s.setClient c { cl with
              frameAt := frameAt
              pendingHandlers := cl.pendingHandlers + 1 }).setTask n
                (some (c, .checkingSession msg))

/-- The check of the session for a message comes back. -/
def messageSessionChecked (n : Nat) (answer : Answer) : WsServer :=
  match s.tasks n with
  | some (c, .checkingSession msg) =>
      match answer with
      | .passed => s.setTask n (some (c, .verifyingUser msg))
      | .refused => (s.closeClient c).finish n c
      | .failed =>
          if s.shuttingDown then s.finish n c
          else (s.closeClient c).finish n c
  | _ => s

/-- A join: its budget, and the access that it waits for. -/
def beginJoin (cfg : WsConfig) (n c : Nat) (cl : Client) (now : Nat)
    (conversationId : Uuid) : WsServer :=
  let alreadyJoined := decide (conversationId ∈ cl.rooms)
  let joinAt := Client.recent now cl.joinAt
  if alreadyJoined then
    s.setTask n (some (c, .checkingAccess conversationId true))
  else if cfg.maxJoinsPerMin ≤ joinAt.length then
    (s.setClient c { cl with joinAt := joinAt }).finish n c
  else
    (s.setClient c { cl with joinAt := joinAt ++ [now] }).setTask n
      (some (c, .checkingAccess conversationId false))

/-- A chat message: `isSpam`, and the send that it waits for. -/
def beginSend (n c : Nat) (cl : Client) (now : Nat) : WsServer :=
  let sentAt := Client.recent now cl.sentAt
  if cl.emailVerified = false then s.finish n c
  else if 15 ≤ sentAt.length then
    (s.setClient c { cl with sentAt := sentAt }).finish n c
  else
    (s.setClient c { cl with sentAt := sentAt ++ [now] }).setTask n
      (some (c, .sending))

/-- The check of the user for a message comes back. -/
def userVerified (cfg : WsConfig) (n : Nat) (now : Nat) (answer : Answer) :
    WsServer :=
  match s.tasks n with
  | some (c, .verifyingUser msg) =>
      if s.shuttingDown then s.finish n c
      else if answer ≠ .passed then (s.closeClient c).finish n c
      else
        match msg with
        | .join conversationId =>
            s.withClient c fun cl => s.beginJoin cfg n c cl now conversationId
        | .leave conversationId =>
            (s.leaveConversation c conversationId).finish n c
        | .message _ _ _ _ =>
            s.withClient c fun cl => s.beginSend n c cl now
  | _ => s

/-- The access to a conversation is known. -/
def accessChecked (cfg : WsConfig) (n : Nat) (answer : Answer) : WsServer :=
  match s.tasks n with
  | some (c, .checkingAccess conversationId alreadyJoined) =>
      if s.shuttingDown then s.finish n c
      else
        match answer with
        | .failed => s.finish n c
        | .refused =>
            if alreadyJoined then
              (s.leaveConversation c conversationId).finish n c
            else s.finish n c
        | .passed =>
            if alreadyJoined then s.finish n c
            else
              s.withClient c fun cl =>
                if cfg.maxRoomsPerConnection ≤ cl.rooms.length then s.finish n c
                else (s.joinConversation c conversationId).finish n c
  | _ => s

/-- The message is stored, or refused. -/
def sent (n : Nat) : WsServer :=
  match s.tasks n with
  | some (c, .sending) => s.finish n c
  | _ => s

-- =========================================================== revocations

/-- The sockets of a set, all closed. -/
def closeAll (clients : Finset Nat) (which : Client → Bool) : WsServer :=
  { s with
    clients := fun c =>
      (s.clients c).map fun cl =>
        if c ∈ clients ∧ which cl then cl.close else cl }

/-- The close event. -/
def closed (c : Nat) : WsServer :=
  s.withClient c fun cl =>
    if cl.closed then s
    else
      (s.setClient c { cl with
        readyState := .closed
        closed := true }).cleanupConnection c

/-- One event. -/
def step (cfg : WsConfig) : WsServer → WsEvent → WsServer
  | s, .connect c originAllowed => s.connect c originAllowed
  | s, .authenticated c identity => s.authenticated c identity
  | s, .sessionChecked c answer => s.sessionChecked c answer
  | s, .presenceRegistered c done => s.presenceRegistered c done
  | s, .frame c n now message => s.frame cfg c n now message
  | s, .messageSessionChecked n answer => s.messageSessionChecked n answer
  | s, .userVerified n now answer => s.userVerified cfg n now answer
  | s, .accessChecked n answer => s.accessChecked cfg n answer
  | s, .sent n => s.sent n
  | s, .familyResolved c familyId =>
      s.withClient c fun cl =>
        if cl.jti.isSome ∧ cl.userId.isSome then
          s.registerClientFamily c familyId
        else s
  | s, .sessionRevoked jti =>
      s.closeAll (s.byJti.entries jti) fun _ => true
  | s, .familyRevoked familyId =>
      s.closeAll (s.byFamily.entries familyId) fun _ => true
  | s, .userRevoked userId exceptSessionId =>
      s.closeAll (s.byUser.entries userId) fun cl =>
        cl.jti ≠ exceptSessionId
  | s, .closing c => s.closeClient c
  | s, .closed c => s.closed c
  | s, .cleanupContinues c => s.cleanupContinues c
  | s, .shutdown => { s with shuttingDown := true }

end WsServer

end Skrynia
