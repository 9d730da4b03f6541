/-
The browser's realtime client: one WebSocket for the whole page, its
reconnects, the rooms it joins and the messages that await their
acknowledgement.

# The state

The fields of `RealtimeClient` stand beside what the browser keeps for
it: the openings under way, the sockets they became, the timers, and the
promises and callbacks that its methods returned. An opening and its
socket have one number, and so have a call of `sendMessage`, its promise
and its acknowledgement timer.

# The events

Each event is one turn of the browser's loop: a call of a method, the
settling of an opening, an event of a socket, a timer. `openSocket` may
take any time, and every socket may do anything a WebSocket does. One
that is open throws nothing from `send`, so the `catch` blocks around it
have no turn. State and event listeners only look.

# History variables

`settlements` has every call of `resolve` and `reject`, newest first;
`sent` what a socket took, newest first; a leave callback knows whether
`stop` was called since its join. No step reads them.
-/
import Skrynia.Lib.Json
import Skrynia.Lib.Table
import Skrynia.Lib.Runs

namespace Skrynia

open Relational Stepping

-- =============================================================== messages

/-- `RealtimeMessageInput`. -/
structure RealtimeMessageInput where
  clientMessageId : String
  conversationId : String
  body : String
  attachmentUploadId : Option String
deriving DecidableEq

/-- What the client sends, before `JSON.stringify`. -/
inductive RealtimeFrame where
  | joinConversation (conversationId : String)
  | leaveConversation (conversationId : String)
  | message (input : RealtimeMessageInput)
deriving DecidableEq

/-- What `handleMessage` tells apart in the data of a message event. -/
inductive ServerMessage where
  | messageAck (clientMessageId : String) (message : Option Json)
  | messageError (clientMessageId : String) (message : Option String)
      (retryable : Bool) (code : Option String)
  /-- An event for the listeners, or no event at all. -/
  | other

-- ================================================================= errors

/-- `RealtimeMessageError`. -/
structure RealtimeMessageError where
  message : String
  retryable : Bool
  code : String
deriving DecidableEq

/-- `WebSocketTicketError`. -/
structure WebSocketTicketError where
  message : String
  status : Nat
  code : String
  retryable : Bool
  retryAfterMs : Option Nat
deriving DecidableEq

/-- What `openSocket` rejects with. -/
inductive OpeningError where
  | ticket (error : WebSocketTicketError)
  /-- Anything else, with its message if it is an `Error`. -/
  | other (message : Option String)
deriving DecidableEq

/-- Any error of an opening, as one of the ticket. -/
def OpeningError.normalized : OpeningError → WebSocketTicketError
  | ticket error => error
  | other message =>
      { message := message.getD "Could not open realtime connection"
        status := 0
        code := "websocket_network_error"
        retryable := true
        retryAfterMs := none }

/-- The error of a snapshot. -/
inductive RealtimeError where
  | message (error : RealtimeMessageError)
  | ticket (error : WebSocketTicketError)
deriving DecidableEq

/-- With this `stop` rejects what waits. -/
def sessionEnded : RealtimeMessageError :=
  ⟨"Realtime session ended", false, "session_ended"⟩

/-- With this `refreshAuthentication` does. -/
def authRefreshed : RealtimeMessageError :=
  ⟨"Connection refreshed before acknowledgement", true, "auth_refreshed"⟩

/-- With this a message is refused while no socket is open. -/
def notConnected : RealtimeMessageError :=
  ⟨"Realtime connection is not available", true, "not_connected"⟩

/-- With this a second message of one id is refused. -/
def duplicateClientMessageId : RealtimeMessageError :=
  ⟨"This message is already awaiting acknowledgement", false,
    "duplicate_client_message_id"⟩

/-- With this a message is given up. -/
def ackTimeout : RealtimeMessageError :=
  ⟨"Message acknowledgement timed out", true, "ack_timeout"⟩

/-- `TERMINAL_CLOSE_CODES`. -/
def terminalCloseCodes : List Nat := [1008, 4001, 4003]

/-- With this the close of the socket rejects what waits. -/
def connectionClosed (code : Nat) : RealtimeMessageError :=
  ⟨"Connection closed before acknowledgement",
    decide (code ∉ terminalCloseCodes), "connection_closed"⟩

/-- With this the server's rejection does. -/
def sessionRejected (reason : String) : RealtimeMessageError :=
  ⟨if reason = "" then "Realtime session rejected" else reason, false,
    "session_rejected"⟩

/-- The error of a `message_error`. -/
def messageFailed (message : Option String) (retryable : Bool)
    (code : Option String) : RealtimeMessageError :=
  ⟨message.getD "Message failed", retryable, code.getD "message_failed"⟩

-- ================================================================== state

/-- `RealtimeStatus`. -/
inductive RealtimeStatus where
  | idle
  | connecting
  | connected
  | waiting
  | stopped
deriving DecidableEq

/-- What the state listeners are shown. -/
structure RealtimeSnapshot where
  status : RealtimeStatus
  reconnectAttempt : Nat
  error : Option RealtimeError
deriving DecidableEq

/-- `readyState` of a WebSocket. -/
inductive SocketState where
  | connecting
  | opened
  | closing
  | closed
deriving DecidableEq

/-- A socket, with what the client did to it. -/
structure WebSocket where
  readyState : SocketState
  sent : List RealtimeFrame
  /-- The generation that the client's listeners were added under. -/
  listening : Option Nat
  /-- The arguments of `close`. -/
  closedWith : Option (Nat × String)

namespace WebSocket

/-- A socket that is closing or closed. -/
def Closed (w : WebSocket) : Prop :=
  w.readyState = .closing ∨ w.readyState = .closed

/-- `close(code, reason)`. -/
def close (code : Nat) (reason : String) (w : WebSocket) : WebSocket :=
  match w.readyState with
  | .closing => w
  | .closed => w
  | _ => { w with
      readyState := .closing
      closedWith := some (code, reason) }

end WebSocket

/-- An entry of `roomReferences`. -/
structure RoomReference where
  conversationId : String
  count : Nat

/-- `resolve`, `reject` and `timer` are those of the call `send`. -/
structure PendingMessage where
  clientMessageId : String
  send : Nat

/-- How the promise of a message may settle. -/
inductive Settlement where
  | resolved (message : Option Json)
  | rejected (error : RealtimeMessageError)

/-- The callback that `joinConversation` returned. -/
structure LeaveCallback where
  conversationId : String
  /-- It has not been called. -/
  active : Bool
  /-- `stop` has not been called since the join. -/
  sinceStop : Bool
deriving DecidableEq

/-- The options that are read. -/
structure RealtimeClientOptions where
  ackTimeoutMs : Nat
  /-- `onTerminalAuthenticationFailure` is there. -/
  revalidates : Bool

/-- The fields of the client. -/
structure RealtimeClient where
  roomReferences : Table RoomReference.conversationId
  pendingMessages : Table PendingMessage.clientMessageId
  socket : Option Nat
  reconnectTimer : Option Nat
  connectInFlight : Option Nat
  enabled : Bool
  terminal : Bool
  terminalAuthenticationRevalidationRequested : Bool
  visible : Bool
  online : Bool
  generation : Nat
  snapshot : RealtimeSnapshot

/-- What the browser keeps for it. -/
structure Browser where
  /-- How many times `openSocket` was called. -/
  opened : Nat
  /-- The openings that have not settled, with their generations. -/
  openings : Nat → Option Nat
  sockets : Nat → Option WebSocket
  /-- How many reconnect timers were set. -/
  timersSet : Nat
  /-- The armed reconnect timers, with their delays. -/
  reconnectTimers : Nat → Option Nat
  /-- How many times `sendMessage` was called. -/
  sends : Nat
  /-- The armed acknowledgement timers, with their messages and delays. -/
  ackTimers : Nat → Option (String × Nat)
  settlements : List (Nat × Settlement)
  /-- The callbacks of the joins, oldest first. -/
  callbacks : List LeaveCallback
  /-- How many times `onTerminalAuthenticationFailure` was called. -/
  revalidations : Nat

/-- The client in its browser. -/
structure RealtimeSystem extends RealtimeClient, Browser

namespace RealtimeSystem

/-- A new client. -/
def start : RealtimeSystem where
  roomReferences := .empty
  pendingMessages := .empty
  socket := none
  reconnectTimer := none
  connectInFlight := none
  enabled := false
  terminal := false
  terminalAuthenticationRevalidationRequested := false
  visible := true
  online := true
  generation := 0
  snapshot := ⟨.stopped, 0, none⟩
  opened := 0
  openings := fun _ => none
  sockets := fun _ => none
  timersSet := 0
  reconnectTimers := fun _ => none
  sends := 0
  ackTimers := fun _ => none
  settlements := []
  callbacks := []
  revalidations := 0

variable (o : RealtimeClientOptions) (s : RealtimeSystem)

-- ====================================================== small operations

/-- `updateSnapshot`. -/
def updateSnapshot (snapshot : RealtimeSnapshot) : RealtimeSystem :=
  { s with snapshot := snapshot }

/-- `clearReconnectTimer`. -/
def clearReconnectTimer : RealtimeSystem :=
  match s.reconnectTimer with
  | none => s
  | some timer => { s with
      reconnectTimers := Function.update s.reconnectTimers timer none
      reconnectTimer := none }

/-- A socket changes. -/
def updateSocket (id : Nat) (f : WebSocket → WebSocket) : RealtimeSystem :=
  { s with
    sockets := Function.update s.sockets id ((s.sockets id).map f) }

/-- `socket.close(code, reason)`, if there is a socket. -/
def closeSocket (socket : Option Nat) (code : Nat) (reason : String) :
    RealtimeSystem :=
  match socket with
  | none => s
  | some id => s.updateSocket id (WebSocket.close code reason)

/-- The `readyState` of the current socket. -/
def readyState : Option SocketState :=
  (s.socket.bind s.sockets).map WebSocket.readyState

/-- `send` of the current socket. Both callers have found it open, and a
WebSocket that is open throws nothing from `send`. -/
def send (frame : RealtimeFrame) : RealtimeSystem :=
  match s.socket with
  | none => s
  | some id => s.updateSocket id fun w => { w with sent := frame :: w.sent }

/-- `sendControl`: to an open socket only. -/
def sendControl (frame : RealtimeFrame) : RealtimeSystem :=
  if s.readyState ≠ some .opened then s else s.send frame

/-- The call of `openSocket` in `connect`. -/
def openSocket : RealtimeSystem :=
  { s with
    openings := Function.update s.openings s.opened (some s.generation)
    connectInFlight := some s.opened
    opened := s.opened + 1 }

/-- `setTimer` of a reconnect. -/
def setReconnectTimer (delay : Nat) : RealtimeSystem :=
  { s with
    reconnectTimers :=
      Function.update s.reconnectTimers s.timersSet (some delay)
    reconnectTimer := some s.timersSet
    timersSet := s.timersSet + 1 }

/-- The timer of a message is set, and the message waits. -/
def awaitAck (clientMessageId : String) (send : Nat) : RealtimeSystem :=
  { s with
    ackTimers := Function.update s.ackTimers send
      (some (clientMessageId, o.ackTimeoutMs))
    pendingMessages := s.pendingMessages.put ⟨clientMessageId, send⟩ }

/-- `roomReferences.set`. -/
def setReferences (conversationId : String) (count : Nat) :
    RealtimeSystem :=
  { s with roomReferences := s.roomReferences.put ⟨conversationId, count⟩ }

/-- `roomReferences.delete`. -/
def deleteReferences (conversationId : String) : RealtimeSystem :=
  { s with roomReferences := s.roomReferences.remove conversationId }

/-- The promise of this call settles. -/
def settle (send : Nat) (outcome : Settlement) : RealtimeSystem :=
  { s with settlements := (send, outcome) :: s.settlements }

/-- A message that waits is settled, and its timer cleared. -/
def settleMessage (clientMessageId : String) (outcome : Settlement) :
    RealtimeSystem :=
  match s.pendingMessages.find? clientMessageId with
  | none => s
  | some pending => { s with
      pendingMessages := s.pendingMessages.remove clientMessageId
      ackTimers := Function.update s.ackTimers pending.send none
      settlements := (pending.send, outcome) :: s.settlements }

/-- All that wait are rejected. -/
def rejectPending (error : RealtimeMessageError) : RealtimeSystem :=
  (s.pendingMessages.rows.map PendingMessage.clientMessageId).foldl
    (fun s id => s.settleMessage id (.rejected error)) s

/-- `requestTerminalAuthenticationRevalidation`: once, until a socket
opens. -/
def requestTerminalAuthenticationRevalidation : RealtimeSystem :=
  if s.terminalAuthenticationRevalidationRequested || !o.revalidates then s
  else { s with
    terminalAuthenticationRevalidationRequested := true
    revalidations := s.revalidations + 1 }

-- ============================================================= connection

/-- `connect` up to the `await`. An `openSocket` that throws is an opening
that is rejected at once. -/
def connect : RealtimeSystem :=
  if !s.enabled || s.terminal || !s.visible || !s.online
      || s.socket.isSome || s.connectInFlight.isSome then s
  else
    let s := s.clearReconnectTimer
    let s := s.updateSnapshot
      { s.snapshot with status := .connecting, error := none }
    s.openSocket

/-- A connection is opened if nothing is under way. -/
def connectIfWaiting : RealtimeSystem :=
  if s.enabled && !s.terminal && s.visible && s.online && s.socket.isNone
      && s.connectInFlight.isNone && s.reconnectTimer.isNone then s.connect
  else s

/-- `MAX_RECONNECT_DELAY_MS`. -/
def maxReconnectDelayMs : Nat := 30000

/-- `scheduleReconnect`. -/
def scheduleReconnect (delayOverride : Option Nat)
    (error : Option RealtimeError) : RealtimeSystem :=
  if !s.enabled || s.terminal then s
  else
    let nextAttempt := s.snapshot.reconnectAttempt + 1
    let delay := delayOverride.getD
      (min (1000 * 2 ^ (nextAttempt - 1)) maxReconnectDelayMs)
    (s.updateSnapshot ⟨.waiting, nextAttempt, error⟩).setReconnectTimer
      delay

/-- `handleConnectFailure`. -/
def handleConnectFailure (error : OpeningError) : RealtimeSystem :=
  let normalized := error.normalized
  if !normalized.retryable then
    let s := { s with terminal := true }
    let s := s.updateSnapshot ⟨.stopped, s.snapshot.reconnectAttempt,
      some (.ticket normalized)⟩
    if normalized.status = 401 ∨ normalized.status = 403 then
      s.requestTerminalAuthenticationRevalidation o
    else s
  else
    s.scheduleReconnect
      (if normalized.status = 429 then normalized.retryAfterMs else none)
      (some (.ticket normalized))

/-- `handleOpen`. -/
def handleOpen (socket generation : Nat) : RealtimeSystem :=
  if some socket ≠ s.socket ∨ generation ≠ s.generation then s
  else
    let s := { s with terminalAuthenticationRevalidationRequested := false }
    let s := s.updateSnapshot ⟨.connected, 0, none⟩
    (s.roomReferences.rows.map RoomReference.conversationId).foldl
      (fun s id => s.sendControl (.joinConversation id)) s

/-- `handleClose`. -/
def handleClose (socket generation code : Nat) (reason : String) :
    RealtimeSystem :=
  if some socket ≠ s.socket ∨ generation ≠ s.generation then s
  else
    let s := { s with socket := none }
    let s := s.rejectPending (connectionClosed code)
    if !s.enabled then s
    else if code ∈ terminalCloseCodes then
      let s := { s with terminal := true }
      let s := s.updateSnapshot ⟨.stopped, s.snapshot.reconnectAttempt,
        some (.message (sessionRejected reason))⟩
      s.requestTerminalAuthenticationRevalidation o
    else s.scheduleReconnect none none

/-- `handleMessage`. -/
def handleMessage : ServerMessage → RealtimeSystem
  | .messageAck id message => s.settleMessage id (.resolved message)
  | .messageError id message retryable code =>
      s.settleMessage id (.rejected (messageFailed message retryable code))
  | .other => s

/-- The `finally` block of `connect`. -/
def connectSettled (generation : Nat) : RealtimeSystem :=
  if generation = s.generation then { s with connectInFlight := none }
  else s

/-- The opening resolves to a socket. -/
def resolve (opening : Nat) (readyState : SocketState) : RealtimeSystem :=
  match s.openings opening with
  | none => s
  | some generation =>
      let s := { s with
        openings := Function.update s.openings opening none
        sockets := Function.update s.sockets opening
          (some ⟨readyState, [], none, none⟩) }
      let s :=
        if !s.enabled || decide (generation ≠ s.generation) then
          s.closeSocket (some opening) 1000 "Stale connection"
        else
          let s := { s with socket := some opening }
          let s := s.updateSocket opening fun w =>
            { w with listening := some generation }
          if readyState = .opened then s.handleOpen opening generation
          else s
      s.connectSettled generation

/-- The opening is rejected. -/
def reject (opening : Nat) (error : OpeningError) : RealtimeSystem :=
  match s.openings opening with
  | none => s
  | some generation =>
      let s := { s with
        openings := Function.update s.openings opening none }
      let s :=
        if s.enabled && decide (generation = s.generation) then
          s.handleConnectFailure o error
        else s
      s.connectSettled generation

-- ================================================================ methods

/-- `start`. -/
def begin : RealtimeSystem :=
  if s.enabled then s
  else
    let s := { s with
      enabled := true
      terminal := false
      terminalAuthenticationRevalidationRequested := false
      generation := s.generation + 1 }
    (s.updateSnapshot ⟨.idle, 0, none⟩).connect

/-- `roomReferences.clear()`. -/
def clearRooms : RealtimeSystem :=
  { s with
    roomReferences := .empty
    callbacks := s.callbacks.map fun k => { k with sinceStop := false } }

/-- `stop`. -/
def stop : RealtimeSystem :=
  if !s.enabled && decide (s.snapshot.status = .stopped) then
    s.clearRooms.rejectPending sessionEnded
  else
    let s := { s with
      enabled := false
      terminal := false
      terminalAuthenticationRevalidationRequested := false
      generation := s.generation + 1 }
    let s := s.clearReconnectTimer
    let socket := s.socket
    let s := { s with socket := none, connectInFlight := none }
    let s := s.clearRooms.rejectPending sessionEnded
    let s := s.closeSocket socket 1000 "Session ended"
    s.updateSnapshot ⟨.stopped, 0, none⟩

/-- `refreshAuthentication`. -/
def refreshAuthentication : RealtimeSystem :=
  if !s.enabled then s
  else
    let s := { s with terminal := false, generation := s.generation + 1 }
    let s := s.clearReconnectTimer
    let socket := s.socket
    let s := { s with socket := none, connectInFlight := none }
    let s := s.rejectPending authRefreshed
    let s := s.closeSocket socket 1000 "Authentication refreshed"
    (s.updateSnapshot ⟨.idle, 0, none⟩).connect

/-- `setVisible`. -/
def setVisible (visible : Bool) : RealtimeSystem :=
  let s := { s with visible := visible }
  if visible then s.connectIfWaiting else s

/-- `setOnline`. -/
def setOnline (online : Bool) : RealtimeSystem :=
  let s := { s with online := online }
  if online then s.connectIfWaiting else s

/-- `roomReferences.get(conversationId) ?? 0`. -/
def references (conversationId : String) : Nat :=
  ((s.roomReferences.find? conversationId).map RoomReference.count).getD 0

/-- The callback that `joinConversation` returns. -/
def addCallback (conversationId : String) : RealtimeSystem :=
  { s with callbacks := s.callbacks ++ [⟨conversationId, true, true⟩] }

/-- `joinConversation`, which returns the leave callback. -/
def joinConversation (conversationId : String) : RealtimeSystem :=
  let count := s.references conversationId
  let s := s.setReferences conversationId (count + 1)
  let s :=
    if count = 0 then s.sendControl (.joinConversation conversationId)
    else s
  s.addCallback conversationId

/-- What the callback does when it is first called. -/
def leaveConversation (conversationId : String) : RealtimeSystem :=
  let count := s.references conversationId
  if 1 < count then s.setReferences conversationId (count - 1)
  else
    (s.deleteReferences conversationId).sendControl
      (.leaveConversation conversationId)

/-- `active = false` in the closure of a callback. -/
def deactivate (join : Nat) (k : LeaveCallback) : RealtimeSystem :=
  { s with callbacks := s.callbacks.set join { k with active := false } }

/-- A call of the callback of the join with this number. -/
def leave (join : Nat) : RealtimeSystem :=
  match s.callbacks[join]? with
  | none => s
  | some k =>
      if !k.active then s
      else (s.deactivate join k).leaveConversation k.conversationId

/-- The frame of a message: an empty attachment id is left out. -/
def messageFrame (input : RealtimeMessageInput) : RealtimeFrame :=
  .message { input with
    attachmentUploadId := input.attachmentUploadId.filter (· ≠ "") }

/-- `sendMessage`. -/
def sendMessage (input : RealtimeMessageInput) : RealtimeSystem :=
  let n := s.sends
  let s := { s with sends := n + 1 }
  if s.readyState ≠ some .opened then s.settle n (.rejected notConnected)
  else if s.pendingMessages.Has input.clientMessageId then
    s.settle n (.rejected duplicateClientMessageId)
  else
    let s := s.awaitAck o input.clientMessageId n
    s.send (messageFrame input)

-- ================================================================= events

/-- A timer for the next connection. -/
def reconnectTimerFires (timer : Nat) : RealtimeSystem :=
  match s.reconnectTimers timer with
  | none => s
  | some _ =>
      { s with
        reconnectTimers := Function.update s.reconnectTimers timer none
        reconnectTimer := none }
        |>.connect

/-- The timer of a message. -/
def ackTimerFires (send : Nat) : RealtimeSystem :=
  match s.ackTimers send with
  | none => s
  | some (clientMessageId, _) =>
      { s with
        ackTimers := Function.update s.ackTimers send none
        pendingMessages := s.pendingMessages.remove clientMessageId }
        |>.settle send (.rejected ackTimeout)

/-- The connection of a socket is established. -/
def socketOpens (id : Nat) : RealtimeSystem :=
  match s.sockets id with
  | none => s
  | some w =>
      if w.readyState ≠ .connecting then s
      else
        let s := s.updateSocket id fun w => { w with readyState := .opened }
        match w.listening with
        | none => s
        | some generation => s.handleOpen id generation

/-- A message of a socket that is listened to. -/
def socketMessage (id : Nat) (message : ServerMessage) : RealtimeSystem :=
  match (s.sockets id).bind WebSocket.listening with
  | none => s
  | some _ => s.handleMessage message

/-- The close of a socket. -/
def socketCloses (id code : Nat) (reason : String) : RealtimeSystem :=
  match s.sockets id with
  | none => s
  | some w =>
      let s := s.updateSocket id fun w => { w with readyState := .closed }
      match w.listening with
      | none => s
      | some generation => s.handleClose o id generation code reason

/-- The events of the browser's loop. -/
inductive Event where
  | start
  | stop
  | refreshAuthentication
  | setVisible (visible : Bool)
  | setOnline (online : Bool)
  | joinConversation (conversationId : String)
  | leave (join : Nat)
  | sendMessage (input : RealtimeMessageInput)
  | resolve (opening : Nat) (readyState : SocketState)
  | reject (opening : Nat) (error : OpeningError)
  | socketOpens (id : Nat)
  | socketMessage (id : Nat) (message : ServerMessage)
  /-- The closing handshake has begun. -/
  | socketClosing (id : Nat)
  | socketCloses (id code : Nat) (reason : String)
  | reconnectTimer (timer : Nat)
  | ackTimer (send : Nat)

/-- One of them. -/
def step : Event → RealtimeSystem
  | .start => s.begin
  | .stop => s.stop
  | .refreshAuthentication => s.refreshAuthentication
  | .setVisible visible => s.setVisible visible
  | .setOnline online => s.setOnline online
  | .joinConversation conversationId => s.joinConversation conversationId
  | .leave join => s.leave join
  | .sendMessage input => s.sendMessage o input
  | .resolve opening readyState => s.resolve opening readyState
  | .reject opening error => s.reject o opening error
  | .socketOpens id => s.socketOpens id
  | .socketMessage id message => s.socketMessage id message
  | .socketClosing id => s.updateSocket id fun w =>
      if w.readyState = .closed then w else { w with readyState := .closing }
  | .socketCloses id code reason => s.socketCloses o id code reason
  | .reconnectTimer timer => s.reconnectTimerFires timer
  | .ackTimer send => s.ackTimerFires send

end RealtimeSystem

end Skrynia
