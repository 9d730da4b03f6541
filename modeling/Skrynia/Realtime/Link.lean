/-
The connection of the realtime client.

# The invariant

The client is `Linked`: an opening of this generation is the one in
flight, a socket that is not closed is the current one, an armed
reconnect timer is the one it remembers, and of these three it has at
most one at a time. Sends and snapshots leave the link alone
(`LinkKept`); what remains are the few operations that pass it on.

That a wanted connection is never given up (`Live`) needs less: whatever
ends one ends in `connect`, in `connectIfWaiting` or in
`scheduleReconnect`, and after these it is not given up.
-/
import Skrynia.Realtime.Client

namespace Skrynia

open Relational Stepping

namespace RealtimeSystem

variable {o : RealtimeClientOptions} {s s' s'' : RealtimeSystem}
  {last : Option Nat}

/-- Enabled, not terminal, visible and online. -/
def Wanted (s : RealtimeSystem) : Prop :=
  s.enabled = true ∧ s.terminal = false ∧ s.visible = true
    ∧ s.online = true

-- ============================================================== the link

/-- The state of the link, while the socket `last` is being closed. -/
structure LinkedBut (last : Option Nat) (s : RealtimeSystem) : Prop where
  current : ∀ id, s.socket = some id →
    ∃ w, s.sockets id = some w ∧ w.listening = some s.generation
  left : ∀ id w, s.sockets id = some w → s.socket ≠ some id →
    last ≠ some id → w.Closed
  openings : ∀ id generation, s.openings id = some generation →
    generation ≤ s.generation ∧ id < s.opened ∧ s.sockets id = none
  sockets : ∀ id w, s.sockets id = some w → id < s.opened
  inFlight : ∀ id, s.connectInFlight = some id
    ↔ s.openings id = some s.generation
  timer : ∀ t, s.reconnectTimer = some t ↔ s.reconnectTimers t ≠ none
  timersSet : ∀ t, s.reconnectTimers t ≠ none → t < s.timersSet
  /-- At most one of the three. -/
  alone : s.socket ≠ none →
    s.connectInFlight = none ∧ s.reconnectTimer = none
  opening : s.connectInFlight ≠ none → s.reconnectTimer = none
  off : s.enabled = false → s.socket = none ∧ s.connectInFlight = none
    ∧ s.reconnectTimer = none

/-- The link between two events, when no socket is in the middle of its
close. -/
abbrev Linked (s : RealtimeSystem) : Prop := LinkedBut none s

/-- After `close` a socket is closing or closed, whatever it was before. -/
theorem WebSocket.closed_close (code : Nat) (reason : String)
    (w : WebSocket) : (w.close code reason).Closed := by
  unfold WebSocket.close
  split
  · next h => exact Or.inl h
  · next h => exact Or.inr h
  · exact Or.inl rfl

/-- The connection is not given up. -/
def Live (s : RealtimeSystem) : Prop :=
  s.Wanted → s.socket ≠ none ∨ s.connectInFlight ≠ none
    ∨ s.reconnectTimer ≠ none

/-- A socket goes on, with the same listeners; once closed it stays so. -/
def SocketKept (w w' : WebSocket) : Prop :=
  w'.listening = w.listening ∧ (w.Closed → w'.Closed)

/-- Nothing has happened to the link but in its sockets. -/
structure LinkKept (s s' : RealtimeSystem) : Prop where
  enabled : s'.enabled = s.enabled
  terminal : s'.terminal = s.terminal
  visible : s'.visible = s.visible
  online : s'.online = s.online
  generation : s'.generation = s.generation
  socket : s'.socket = s.socket
  connectInFlight : s'.connectInFlight = s.connectInFlight
  reconnectTimer : s'.reconnectTimer = s.reconnectTimer
  reconnectTimers : s'.reconnectTimers = s.reconnectTimers
  timersSet : s'.timersSet = s.timersSet
  opened : s'.opened = s.opened
  openings : s'.openings = s.openings
  sockets : ∀ id, Option.Rel SocketKept (s.sockets id) (s'.sockets id)

/-- A socket that nothing happens to goes on. -/
theorem SocketKept.refl (w : WebSocket) : SocketKept w w := ⟨rfl, id⟩

/-- The same of a socket that may not be there. -/
theorem socketKept_rel_refl :
    ∀ w : Option WebSocket, Option.Rel SocketKept w w
  | none => .none
  | some w => .some (SocketKept.refl w)

namespace LinkKept

/-- A state keeps its own link. -/
theorem refl (s : RealtimeSystem) : LinkKept s s where
  enabled := rfl
  terminal := rfl
  visible := rfl
  online := rfl
  generation := rfl
  socket := rfl
  connectInFlight := rfl
  reconnectTimer := rfl
  reconnectTimers := rfl
  timersSet := rfl
  opened := rfl
  openings := rfl
  sockets _ := socketKept_rel_refl _

/-- Two operations that keep the link keep it one after the other. -/
theorem trans (h : LinkKept s s') (h' : LinkKept s' s'') :
    LinkKept s s'' where
  enabled := h'.enabled.trans h.enabled
  terminal := h'.terminal.trans h.terminal
  visible := h'.visible.trans h.visible
  online := h'.online.trans h.online
  generation := h'.generation.trans h.generation
  socket := h'.socket.trans h.socket
  connectInFlight := h'.connectInFlight.trans h.connectInFlight
  reconnectTimer := h'.reconnectTimer.trans h.reconnectTimer
  reconnectTimers := h'.reconnectTimers.trans h.reconnectTimers
  timersSet := h'.timersSet.trans h.timersSet
  opened := h'.opened.trans h.opened
  openings := h'.openings.trans h.openings
  sockets id := by
    have h₁ := h.sockets id
    have h₂ := h'.sockets id
    generalize s.sockets id = w at h₁
    generalize s'.sockets id = w' at h₁ h₂
    generalize s''.sockets id = w'' at h₂
    cases h₁ with
    | none =>
        cases h₂
        exact .none
    | some h₁ =>
        cases h₂ with
        | some h₂ =>
            exact .some ⟨h₂.1.trans h₁.1, fun hc => h₂.2 (h₁.2 hc)⟩

/-- The same fields, and the same sockets. -/
theorem of_sockets (h : LinkKept s s') (w : Nat → Option WebSocket)
    (hw : ∀ id, Option.Rel SocketKept (s.sockets id) (w id)) :
    LinkKept s { s' with sockets := w } :=
  { h with sockets := hw }

/-- The invariant speaks of the link only, and of sockets what goes on with
them. -/
theorem linked (h : LinkKept s s') (hs : LinkedBut last s) :
    LinkedBut last s' where
  current id hid := by
    rw [h.socket] at hid
    obtain ⟨w, hw, hlistening⟩ := hs.current id hid
    have hrel := h.sockets id
    rw [hw] at hrel
    generalize hw' : s'.sockets id = x at hrel
    cases hrel with
    | some hkept =>
        refine ⟨_, rfl, ?_⟩
        rw [hkept.1, h.generation]
        exact hlistening
  left id w' hw' hid hlast := by
    rw [h.socket] at hid
    have hrel := h.sockets id
    rw [hw'] at hrel
    generalize hw : s.sockets id = x at hrel
    cases hrel with
    | some hkept => exact hkept.2 (hs.left id _ hw hid hlast)
  openings id generation hid := by
    rw [h.openings] at hid
    obtain ⟨hle, hlt, hnone⟩ := hs.openings id generation hid
    have hrel := h.sockets id
    rw [hnone] at hrel
    generalize hw' : s'.sockets id = x at hrel
    cases hrel
    rw [h.generation, h.opened]
    exact ⟨hle, hlt, rfl⟩
  sockets id w' hw' := by
    have hrel := h.sockets id
    rw [hw'] at hrel
    generalize hw : s.sockets id = x at hrel
    cases hrel with
    | some hkept =>
        rw [h.opened]
        exact hs.sockets id _ hw
  inFlight id := by
    rw [h.connectInFlight, h.openings, h.generation]
    exact hs.inFlight id
  timer t := by
    rw [h.reconnectTimer, h.reconnectTimers]
    exact hs.timer t
  timersSet t := by
    rw [h.reconnectTimers, h.timersSet]
    exact hs.timersSet t
  alone := by
    rw [h.socket, h.connectInFlight, h.reconnectTimer]
    exact hs.alone
  opening := by
    rw [h.connectInFlight, h.reconnectTimer]
    exact hs.opening
  off := by
    rw [h.enabled, h.socket, h.connectInFlight, h.reconnectTimer]
    exact hs.off

/-- Whether the connection is given up is read off the link. -/
theorem live (h : LinkKept s s') (hs : Live s) : Live s' := by
  unfold Live Wanted at hs ⊢
  rw [h.enabled, h.terminal, h.visible, h.online, h.socket,
    h.connectInFlight, h.reconnectTimer]
  exact hs

/-- Both may end their opening. -/
theorem settled (h : LinkKept s s') :
    LinkKept { s with connectInFlight := none }
      { s' with connectInFlight := none } :=
  { h with connectInFlight := rfl }

/-- An update of one socket keeps the link if that socket goes on. -/
theorem updateSocket (id : Nat) {f : WebSocket → WebSocket}
    (hf : ∀ w, s.sockets id = some w → SocketKept w (f w)) :
    LinkKept s (s.updateSocket id f) := by
  refine (refl s).of_sockets _ fun id' => ?_
  by_cases hid : id' = id
  · subst hid
    rw [Function.update_self]
    cases hw : s.sockets id' with
    | none => exact .none
    | some w => exact .some (hf w hw)
  · rw [Function.update_of_ne hid]
    exact socketKept_rel_refl _

/-- A socket that is closed goes on as a closed one with its listeners. -/
theorem closeSocket (socket : Option Nat) (code : Nat) (reason : String) :
    LinkKept s (s.closeSocket socket code reason) := by
  cases socket with
  | none => exact refl s
  | some id =>
      refine updateSocket id fun w _ => ?_
      unfold WebSocket.close
      split
      · exact SocketKept.refl w
      · exact SocketKept.refl w
      · exact ⟨rfl, fun _ => Or.inl rfl⟩

/-- What a socket has taken is no part of the link. -/
theorem send (frame : RealtimeFrame) : LinkKept s (s.send frame) := by
  unfold RealtimeSystem.send
  split
  · exact refl s
  · next id _ => exact updateSocket id fun w _ => ⟨rfl, fun hc => hc⟩

/-- A control is at most a frame on the current socket. -/
theorem sendControl (frame : RealtimeFrame) :
    LinkKept s (s.sendControl frame) := by
  unfold RealtimeSystem.sendControl
  split
  · exact refl s
  · exact send frame

/-- The snapshot is for the listeners; the link does not read it. -/
theorem updateSnapshot (snapshot : RealtimeSnapshot) :
    LinkKept s (s.updateSnapshot snapshot) := { refl s with }

theorem clearRooms : LinkKept s s.clearRooms := { refl s with }

/-- Messages come and go beside the link. -/
theorem settleMessage (id : String) (outcome : Settlement) :
    LinkKept s (s.settleMessage id outcome) := by
  unfold RealtimeSystem.settleMessage
  split
  · exact refl s
  · exact { refl s with }

/-- So does a rejection of all of them. -/
theorem rejectPending (error : RealtimeMessageError) :
    LinkKept s (s.rejectPending error) :=
  run_relates refl trans (fun _ id => settleMessage id _) s _

/-- The session may be asked for again; what follows are events of their
own. -/
theorem requestRevalidation (o : RealtimeClientOptions) :
    LinkKept s (s.requestTerminalAuthenticationRevalidation o) := by
  unfold RealtimeSystem.requestTerminalAuthenticationRevalidation
  split
  · exact refl s
  · exact { refl s with }

/-- An open socket only sends: the link was made when the socket was
taken. -/
theorem handleOpen (socket generation : Nat) :
    LinkKept s (s.handleOpen socket generation) := by
  unfold RealtimeSystem.handleOpen
  split
  · exact refl s
  · have hfields : LinkKept s (RealtimeSystem.updateSnapshot
        { s with terminalAuthenticationRevalidationRequested := false }
        ⟨.connected, 0, none⟩) := { refl s with }
    exact hfields.trans
      (run_relates refl trans (fun _ id => sendControl _) _ _)

/-- A message of the server settles promises. -/
theorem handleMessage (message : ServerMessage) :
    LinkKept s (s.handleMessage message) := by
  cases message with
  | messageAck => exact settleMessage _ _
  | messageError => exact settleMessage _ _
  | other => exact refl s

/-- A join counts a room and may send a control. -/
theorem joinConversation (conversationId : String) :
    LinkKept s (s.joinConversation conversationId) := by
  unfold RealtimeSystem.joinConversation
  dsimp only
  have hset : LinkKept s (s.setReferences conversationId
      (s.references conversationId + 1)) := { refl s with }
  split
  · exact { hset.trans (sendControl _) with }
  · exact { hset with }

/-- A leave callback counts a room down and may send a control. -/
theorem leave (join : Nat) : LinkKept s (s.leave join) := by
  unfold RealtimeSystem.leave
  split
  · exact refl s
  · split
    · exact refl s
    · unfold RealtimeSystem.leaveConversation
      dsimp only
      split
      · exact { refl s with }
      · next k _ _ _ =>
          have hdelete : LinkKept s ((s.deactivate join k).deleteReferences
              k.conversationId) := { refl s with }
          exact hdelete.trans (sendControl _)

/-- A message is refused, or waits and goes out on the current socket. -/
theorem sendMessage (o : RealtimeClientOptions)
    (input : RealtimeMessageInput) : LinkKept s (s.sendMessage o input) := by
  unfold RealtimeSystem.sendMessage
  dsimp only
  split
  · exact { refl s with }
  · split
    · exact { refl s with }
    · have hawait : LinkKept s (awaitAck o { s with sends := s.sends + 1 }
          input.clientMessageId s.sends) := { refl s with }
      exact hawait.trans (send _)

/-- The timers of messages are not those of the link. -/
theorem ackTimerFires (n : Nat) : LinkKept s (s.ackTimerFires n) := by
  unfold RealtimeSystem.ackTimerFires
  split
  · exact refl s
  · exact { refl s with }

/-- The socket becomes open and keeps its listeners. -/
theorem socketOpens (id : Nat) : LinkKept s (s.socketOpens id) := by
  unfold RealtimeSystem.socketOpens
  split
  · exact refl s
  · next w hw =>
      split
      · exact refl s
      · next hconnecting =>
          have hopened : LinkKept s (s.updateSocket id fun w =>
              { w with readyState := .opened }) := by
            refine updateSocket id fun w' hw' => ⟨rfl, fun hclosed => ?_⟩
            cases Option.some.inj (hw.symm.trans hw')
            have hc : w.readyState = .connecting := of_not_not hconnecting
            obtain h | h := hclosed
            · cases hc.symm.trans h
            · cases hc.symm.trans h
          dsimp only
          split
          · exact hopened
          · exact hopened.trans (handleOpen _ _)

/-- A message of any socket, current or not, settles at most a promise. -/
theorem socketMessage (id : Nat) (message : ServerMessage) :
    LinkKept s (s.socketMessage id message) := by
  unfold RealtimeSystem.socketMessage
  split
  · exact refl s
  · exact handleMessage message

/-- A closing handshake closes a socket that the client may still have as its
current one. -/
theorem socketClosing (id : Nat) : LinkKept s (s.updateSocket id fun w =>
    if w.readyState = .closed then w
    else { w with readyState := .closing }) := by
  refine updateSocket id fun w _ => ?_
  split
  · exact SocketKept.refl w
  · exact ⟨rfl, fun _ => Or.inl rfl⟩

end LinkKept

-- ========================================================= passing it on

namespace LinkedBut

/-- A new client is off and has no link. -/
theorem start : Linked start where
  current _ h := by cases h
  left _ _ h := by cases h
  openings _ _ h := by cases h
  sockets _ _ h := by cases h
  inFlight _ := ⟨nofun, nofun⟩
  timer _ := ⟨nofun, fun h => absurd rfl h⟩
  timersSet _ h := absurd rfl h
  alone h := absurd rfl h
  opening h := absurd rfl h
  off _ := ⟨rfl, rfl, rfl⟩

/-- Afterwards the client remembers no reconnect timer. -/
theorem reconnectTimer_clear (s : RealtimeSystem) :
    s.clearReconnectTimer.reconnectTimer = none := by
  unfold RealtimeSystem.clearReconnectTimer
  split
  · next hnone => exact hnone
  · rfl

/-- The timer that the client remembers is the only one there is, so that
none is left. -/
theorem clearReconnectTimer (hs : LinkedBut last s) :
    LinkedBut last s.clearReconnectTimer := by
  unfold RealtimeSystem.clearReconnectTimer
  split
  · exact hs
  · next t ht =>
      refine { hs with
        timer := fun t' => ?_
        timersSet := fun t' ht' => ?_
        alone := fun h => ⟨(hs.alone h).1, rfl⟩
        opening := fun _ => rfl
        off := fun h => ⟨(hs.off h).1, (hs.off h).2.1, rfl⟩ }
      · show none = some t' ↔ Function.update s.reconnectTimers t none t' ≠ none
        by_cases h : t' = t
        · rw [h, Function.update_self]
          exact ⟨nofun, fun h => absurd rfl h⟩
        · rw [Function.update_of_ne h, ← hs.timer t', ht]
          exact ⟨nofun, fun h' => absurd (Option.some.inj h').symm h⟩
      · by_cases h : t' = t
        · rw [h] at ht'
          exact absurd (Function.update_self ..) ht'
        · refine hs.timersSet t' fun hnone => ht' ?_
          exact (Function.update_of_ne h ..).trans hnone

/-- An opening begins only where there is no socket, no other opening and no
timer. -/
theorem openSocket (hs : LinkedBut last s) (henabled : s.enabled = true)
    (hsocket : s.socket = none) (hinFlight : s.connectInFlight = none)
    (htimer : s.reconnectTimer = none) : LinkedBut last s.openSocket := by
  have hnew : s.sockets s.opened = none := by
    cases hw : s.sockets s.opened with
    | none => rfl
    | some w => exact absurd (hs.sockets _ w hw) (lt_irrefl _)
  refine { hs with
    openings := fun id generation hid => ?_
    sockets := fun id w hw => Nat.lt_succ_of_lt (hs.sockets id w hw)
    inFlight := fun id => ?_
    alone := fun h => absurd hsocket h
    opening := fun _ => htimer
    off := fun h => absurd (h.symm.trans henabled) Bool.false_ne_true }
  · obtain ⟨rfl, hg⟩ | ⟨hne, hid⟩ := update_cases hid
    · cases hg
      exact ⟨le_rfl, Nat.lt_succ_self _, hnew⟩
    · obtain ⟨hle, hlt, hnone⟩ := hs.openings id generation hid
      exact ⟨hle, Nat.lt_succ_of_lt hlt, hnone⟩
  · show some s.opened = some id
      ↔ Function.update s.openings s.opened (some s.generation) id
        = some s.generation
    by_cases h : id = s.opened
    · rw [h, Function.update_self]
      exact ⟨fun _ => rfl, fun _ => rfl⟩
    · rw [Function.update_of_ne h, ← hs.inFlight id, hinFlight]
      exact ⟨fun h' => absurd (Option.some.inj h').symm h, nofun⟩

/-- A timer is set only where there is no socket, no opening and no other
timer. -/
theorem setReconnectTimer (hs : LinkedBut last s)
    (henabled : s.enabled = true) (hsocket : s.socket = none)
    (hinFlight : s.connectInFlight = none)
    (htimer : s.reconnectTimer = none) (delay : Nat) :
    LinkedBut last (s.setReconnectTimer delay) := by
  refine { hs with
    timer := fun t => ?_
    timersSet := fun t ht => ?_
    alone := fun h => absurd hsocket h
    opening := fun h => absurd hinFlight h
    off := fun h => absurd (h.symm.trans henabled) Bool.false_ne_true }
  · show some s.timersSet = some t
      ↔ Function.update s.reconnectTimers s.timersSet (some delay) t ≠ none
    by_cases h : t = s.timersSet
    · rw [h, Function.update_self]
      exact ⟨nofun, fun _ => rfl⟩
    · rw [Function.update_of_ne h, ← hs.timer t, htimer]
      exact ⟨fun h' => absurd (Option.some.inj h').symm h, nofun⟩
  · by_cases h : t = s.timersSet
    · rw [h]
      exact Nat.lt_succ_self _
    · refine Nat.lt_succ_of_lt (hs.timersSet t fun hnone => ht ?_)
      exact (Function.update_of_ne h ..).trans hnone

/-- The last socket is closed. -/
theorem closeSocket (hs : LinkedBut last s) (code : Nat)
    (reason : String) : Linked (s.closeSocket last code reason) := by
  have hkept := (LinkKept.closeSocket (s := s) last code reason).linked hs
  refine { hkept with left := fun id w hw hid _ => ?_ }
  by_cases hlast : last = some id
  · subst hlast
    have hw' : Function.update s.sockets id
        ((s.sockets id).map (WebSocket.close code reason)) id = some w := hw
    rw [Function.update_self] at hw'
    obtain ⟨w₀, -, rfl⟩ := Option.map_eq_some_iff.mp hw'
    exact WebSocket.closed_close code reason w₀
  · exact hkept.left id w hw hid hlast

/-- The socket and the opening are given up; the socket is still to be
closed. -/
theorem withdraw (hs : Linked s) (htimer : s.reconnectTimer = none)
    (enabled terminal requested : Bool) {generation : Nat}
    (hgeneration : s.generation < generation) :
    LinkedBut s.socket { s with
      enabled := enabled
      terminal := terminal
      terminalAuthenticationRevalidationRequested := requested
      generation := generation
      socket := none
      connectInFlight := none } where
  current _ h := by cases h
  left id w hw _ hlast := hs.left id w hw hlast nofun
  openings id g hid := by
    obtain ⟨hle, hrest⟩ := hs.openings id g hid
    exact ⟨hle.trans hgeneration.le, hrest⟩
  sockets := hs.sockets
  inFlight id := by
    refine ⟨nofun, fun hid => ?_⟩
    exact absurd (hs.openings id _ hid).1 (Nat.not_le.mpr hgeneration)
  timer := hs.timer
  timersSet := hs.timersSet
  alone h := absurd rfl h
  opening _ := htimer
  off _ := ⟨rfl, rfl, htimer⟩

/-- There is no opening to give up. -/
theorem inFlight_none (hs : LinkedBut last s)
    (h : s.connectInFlight = none) :
    LinkedBut last { s with connectInFlight := none } := by
  have heq : { s with connectInFlight := none } = s := by
    cases s with
    | mk client browser =>
        cases client
        cases h
        rfl
  rw [heq]
  exact hs

end LinkedBut

-- =========================================================== connecting

/-- `connect` does nothing, and then there is a connection or none is wanted,
or it begins an opening. -/
theorem connect_cases (s : RealtimeSystem) :
    s.connect = s
      ∧ (s.Wanted → s.socket ≠ none ∨ s.connectInFlight ≠ none)
    ∨ s.Wanted ∧ s.socket = none ∧ s.connectInFlight = none
      ∧ s.connect = (s.clearReconnectTimer.updateSnapshot
          { s.clearReconnectTimer.snapshot with
            status := .connecting
            error := none }).openSocket := by
  unfold connect Wanted
  split
  · next h =>
      refine Or.inl ⟨rfl, ?_⟩
      intro h
      obtain ⟨henabled, hterminal, hvisible, honline⟩ := h
      simpa [henabled, hterminal, hvisible, honline, Option.isSome_iff_ne_none]
        using h
  · next h =>
      refine Or.inr ?_
      simp only [Bool.or_eq_true, Bool.not_eq_true', not_or,
        Bool.not_eq_false, Bool.not_eq_true, Option.isSome_eq_false_iff,
        Option.isNone_iff_eq_none] at h
      obtain ⟨⟨⟨⟨⟨henabled, hterminal⟩, hvisible⟩, honline⟩, hsocket⟩,
        hinFlight⟩ := h
      exact ⟨⟨henabled, hterminal, hvisible, honline⟩, hsocket, hinFlight,
        rfl⟩

/-- What clearing the timer leaves of the rest of the link. -/
theorem clearReconnectTimer_fields (s : RealtimeSystem) :
    s.clearReconnectTimer.generation = s.generation
      ∧ s.clearReconnectTimer.enabled = s.enabled
      ∧ s.clearReconnectTimer.socket = s.socket
      ∧ s.clearReconnectTimer.connectInFlight = s.connectInFlight := by
  unfold clearReconnectTimer
  split
  · exact ⟨rfl, rfl, rfl, rfl⟩
  · exact ⟨rfl, rfl, rfl, rfl⟩

/-- `connect` clears the timer before its opening, so that again there is one
of the three. -/
theorem LinkedBut.connect (hs : LinkedBut last s) :
    LinkedBut last s.connect := by
  obtain ⟨heq, -⟩ | ⟨hwanted, hsocket, hinFlight, heq⟩ := connect_cases s
  · rw [heq]
    exact hs
  · rw [heq]
    obtain ⟨-, hcenabled, hcsocket, hcinFlight⟩ :=
      clearReconnectTimer_fields s
    have hcleared := (LinkKept.updateSnapshot
      { s.clearReconnectTimer.snapshot with
        status := .connecting
        error := none }).linked hs.clearReconnectTimer
    exact hcleared.openSocket (hcenabled.trans hwanted.1)
      (hcsocket.trans hsocket) (hcinFlight.trans hinFlight)
      (reconnectTimer_clear s)

/-- After `connect` a wanted connection is there or under way. -/
theorem live_connect (s : RealtimeSystem) : Live s.connect := by
  obtain ⟨heq, hlive⟩ | ⟨-, -, -, heq⟩ := connect_cases s
  · rw [heq]
    intro hwanted
    exact (hlive hwanted).imp_right Or.inl
  · rw [heq]
    exact fun _ => Or.inr (Or.inl nofun)

/-- `connectIfWaiting` does nothing only where the connection is not given
up; otherwise it connects. -/
theorem connectIfWaiting_cases (s : RealtimeSystem) :
    s.connectIfWaiting = s ∧ Live s ∨ s.connectIfWaiting = s.connect := by
  unfold connectIfWaiting Live Wanted
  split
  · exact Or.inr rfl
  · next h =>
      refine Or.inl ⟨rfl, ?_⟩
      intro h
      obtain ⟨henabled, hterminal, hvisible, honline⟩ := h
      by_contra hnone
      simp only [ne_eq, not_or, not_not] at hnone
      obtain ⟨hsocket, hinFlight, htimer⟩ := hnone
      simp [henabled, hterminal, hvisible, honline, hsocket, hinFlight,
        htimer] at h

/-- It is `connect` or nothing. -/
theorem LinkedBut.connectIfWaiting (hs : LinkedBut last s) :
    LinkedBut last s.connectIfWaiting := by
  obtain ⟨heq, -⟩ | heq := connectIfWaiting_cases s
  · rw [heq]
    exact hs
  · rw [heq]
    exact hs.connect

/-- After it a wanted connection is not given up. -/
theorem live_connectIfWaiting (s : RealtimeSystem) :
    Live s.connectIfWaiting := by
  obtain ⟨heq, hlive⟩ | heq := connectIfWaiting_cases s
  · rw [heq]
    exact hlive
  · rw [heq]
    exact live_connect s

-- ========================================================= reconnecting

/-- Nothing of the link is left. -/
structure Free (s : RealtimeSystem) : Prop where
  socket : s.socket = none
  connectInFlight : s.connectInFlight = none
  reconnectTimer : s.reconnectTimer = none

/-- A reconnect is scheduled where the link is free. -/
theorem LinkedBut.scheduleReconnect (hs : LinkedBut last s) (hfree : Free s)
    (delay : Option Nat) (error : Option RealtimeError) :
    LinkedBut last (s.scheduleReconnect delay error) := by
  unfold RealtimeSystem.scheduleReconnect
  split
  · exact hs
  · next h =>
      simp only [Bool.or_eq_true, Bool.not_eq_true', not_or,
        Bool.not_eq_false, Bool.not_eq_true] at h
      have hsnapshot := (LinkKept.updateSnapshot
        ⟨.waiting, s.snapshot.reconnectAttempt + 1, error⟩).linked hs
      exact hsnapshot.setReconnectTimer h.1 hfree.socket
        hfree.connectInFlight hfree.reconnectTimer _

/-- After it a timer is armed, if a connection is wanted. -/
theorem live_scheduleReconnect (s : RealtimeSystem) (delay : Option Nat)
    (error : Option RealtimeError) : Live (s.scheduleReconnect delay error) := by
  unfold scheduleReconnect
  split
  · next h =>
      intro h
      obtain ⟨henabled, hterminal, -⟩ := h
      simp [henabled, hterminal] at h
  · exact fun _ => Or.inr (Or.inr nofun)

/-- A failure ends the session's connection for good or schedules the next
attempt. -/
theorem LinkedBut.handleConnectFailure (hs : LinkedBut last s)
    (hfree : Free s) (error : OpeningError) :
    LinkedBut last (s.handleConnectFailure o error) := by
  unfold RealtimeSystem.handleConnectFailure
  dsimp only
  split
  · have hterminal : LinkedBut last (updateSnapshot
        { s with terminal := true }
        ⟨.stopped, s.snapshot.reconnectAttempt,
          some (.ticket error.normalized)⟩) := { hs with }
    split
    · exact (LinkKept.requestRevalidation o).linked hterminal
    · exact hterminal
  · exact hs.scheduleReconnect hfree _ _

/-- An error that is not retryable makes the client terminal, and then no
connection is wanted. -/
theorem live_handleConnectFailure (s : RealtimeSystem)
    (error : OpeningError) : Live (s.handleConnectFailure o error) := by
  unfold handleConnectFailure
  dsimp only
  split
  · have hterminal : Live (updateSnapshot { s with terminal := true }
        ⟨.stopped, s.snapshot.reconnectAttempt,
          some (.ticket error.normalized)⟩) := by
      intro h
      obtain ⟨-, hfalse, -⟩ := h
      cases hfalse
    split
    · exact (LinkKept.requestRevalidation o).live hterminal
    · exact hterminal
  · exact live_scheduleReconnect s _ _

/-- The opening may be forgotten before its failure is handled. -/
theorem handleConnectFailure_settled (s : RealtimeSystem)
    (error : OpeningError) :
    { s.handleConnectFailure o error with connectInFlight := none }
      = handleConnectFailure o { s with connectInFlight := none } error := by
  unfold handleConnectFailure scheduleReconnect
    requestTerminalAuthenticationRevalidation
  dsimp only [updateSnapshot, setReconnectTimer]
  split
  · split
    · split
      · rfl
      · rfl
    · rfl
  · split
    · rfl
    · rfl

/-- A failure does not begin a new generation. -/
theorem generation_handleConnectFailure (s : RealtimeSystem)
    (error : OpeningError) :
    (s.handleConnectFailure o error).generation = s.generation := by
  unfold handleConnectFailure scheduleReconnect
    requestTerminalAuthenticationRevalidation
  dsimp only [updateSnapshot, setReconnectTimer]
  split
  · split
    · split
      · rfl
      · rfl
    · rfl
  · split
    · rfl
    · rfl

/-- The `finally` block may as well run before the failure is handled:
neither looks at what the other changes. -/
theorem connectSettled_handleConnectFailure (s : RealtimeSystem)
    (error : OpeningError) :
    (s.handleConnectFailure o error).connectSettled s.generation
      = handleConnectFailure o { s with connectInFlight := none } error := by
  unfold connectSettled
  rw [if_pos (generation_handleConnectFailure s error).symm,
    handleConnectFailure_settled]

-- ============================================================== openings

/-- An opening of an older generation is forgotten, and so is its
socket. -/
theorem LinkedBut.forget (hs : Linked s) {opening generation : Nat}
    (hopening : s.openings opening = some generation)
    (hstale : s.connectInFlight ≠ some opening) (w : Option WebSocket) :
    LinkedBut (some opening) { s with
      openings := Function.update s.openings opening none
      sockets := Function.update s.sockets opening w } := by
  obtain ⟨-, hlt, hnone⟩ := hs.openings opening generation hopening
  refine { hs with
    current := fun id hid => ?_
    left := fun id w' hw' hid hlast => ?_
    openings := fun id g hid => ?_
    sockets := fun id w' hw' => ?_
    inFlight := fun id => ?_ }
  · obtain ⟨w', hw', hlistening⟩ := hs.current id hid
    refine ⟨w', ?_, hlistening⟩
    have hne : id ≠ opening := by
      intro heq
      subst heq
      cases hnone.symm.trans hw'
    exact (Function.update_of_ne hne ..).trans hw'
  · obtain ⟨rfl, -⟩ | ⟨-, hw'⟩ := update_cases hw'
    · exact absurd rfl hlast
    · exact hs.left id w' hw' hid nofun
  · obtain ⟨-, hg⟩ | ⟨hne, hid⟩ := update_cases hid
    · cases hg
    · obtain ⟨hle, hlt', hnone'⟩ := hs.openings id g hid
      exact ⟨hle, hlt', (Function.update_of_ne hne ..).trans hnone'⟩
  · obtain ⟨rfl, -⟩ | ⟨-, hw'⟩ := update_cases hw'
    · exact hlt
    · exact hs.sockets id w' hw'
  · show s.connectInFlight = some id
      ↔ Function.update s.openings opening none id = some s.generation
    by_cases h : id = opening
    · rw [h, Function.update_self]
      exact ⟨fun h' => absurd h' hstale, nofun⟩
    · rw [Function.update_of_ne h]
      exact hs.inFlight id

/-- The opening in flight is no longer. -/
theorem LinkedBut.landed (hs : Linked s) {opening : Nat}
    (hinFlight : s.connectInFlight = some opening) :
    Linked { s with
        openings := Function.update s.openings opening none
        connectInFlight := none }
      ∧ Free { s with
        openings := Function.update s.openings opening none
        connectInFlight := none } := by
  have hsome : s.connectInFlight ≠ none := by
    rw [hinFlight]
    exact nofun
  have hsocket : s.socket = none := by
    by_contra h
    exact hsome (hs.alone h).1
  have htimer := hs.opening hsome
  refine ⟨{ hs with
    openings := fun id g hid => ?_
    inFlight := fun id => ?_
    alone := fun h => absurd hsocket h
    opening := fun h => absurd rfl h
    off := fun h => ⟨hsocket, rfl, htimer⟩ }, ⟨hsocket, rfl, htimer⟩⟩
  · obtain ⟨-, hg⟩ | ⟨-, hid⟩ := update_cases hid
    · cases hg
    · exact hs.openings id g hid
  · show none = some id
      ↔ Function.update s.openings opening none id = some s.generation
    by_cases h : id = opening
    · rw [h, Function.update_self]
      exact ⟨nofun, nofun⟩
    · rw [Function.update_of_ne h, ← hs.inFlight id, hinFlight]
      exact ⟨nofun, fun h' => absurd (Option.some.inj h').symm h⟩

/-- The socket of the opening that was in flight becomes the current
one. -/
theorem LinkedBut.take (hs : Linked s) (hfree : Free s)
    (henabled : s.enabled = true) {opening : Nat} (hlt : opening < s.opened)
    (hopening : s.openings opening = none) {w : WebSocket}
    (hlistening : w.listening = some s.generation) :
    Linked { s with
      sockets := Function.update s.sockets opening (some w)
      socket := some opening } := by
  refine { hs with
    current := fun id hid => ?_
    left := fun id w' hw' hid _ => ?_
    openings := fun id g hid => ?_
    sockets := fun id w' hw' => ?_
    alone := fun _ => ⟨hfree.connectInFlight, hfree.reconnectTimer⟩
    off := fun h => absurd (h.symm.trans henabled) Bool.false_ne_true }
  · cases hid
    exact ⟨w, Function.update_self .., hlistening⟩
  · obtain ⟨rfl, -⟩ | ⟨-, hw'⟩ := update_cases hw'
    · exact absurd rfl hid
    · refine hs.left id w' hw' ?_ nofun
      rw [hfree.socket]
      exact nofun
  · obtain ⟨hle, hlt', hnone⟩ := hs.openings id g hid
    have hne : id ≠ opening := by
      intro heq
      subst heq
      cases hopening.symm.trans hid
    exact ⟨hle, hlt', (Function.update_of_ne hne ..).trans hnone⟩
  · obtain ⟨rfl, -⟩ | ⟨-, hw'⟩ := update_cases hw'
    · exact hlt
    · exact hs.sockets id w' hw'

/-- The `finally` block clears an opening of this generation, which has
settled, and touches no other. -/
theorem LinkedBut.connectSettled (hs : Linked s) {generation : Nat}
    (h : generation = s.generation → s.connectInFlight = none) :
    Linked (s.connectSettled generation) := by
  unfold RealtimeSystem.connectSettled
  split
  · next hg => exact hs.inFlight_none (h hg)
  · exact hs

/-- An opening of another generation is not the one in flight. -/
theorem connectSettled_of_ne {generation : Nat}
    (h : generation ≠ s.generation) :
    s.connectSettled generation = s := if_neg h

/-- The opening has become a socket that is neither taken nor closed. -/
def arrived (s : RealtimeSystem) (opening : Nat) (readyState : SocketState) :
    RealtimeSystem :=
  { s with
    openings := Function.update s.openings opening none
    sockets := Function.update s.sockets opening
      (some ⟨readyState, [], none, none⟩) }

/-- The opening has become the current socket. -/
def taken (s : RealtimeSystem) (opening : Nat) (readyState : SocketState) :
    RealtimeSystem :=
  { s with
    openings := Function.update s.openings opening none
    sockets := Function.update s.sockets opening
      (some ⟨readyState, [], some s.generation, none⟩)
    socket := some opening }

/-- An opening that nobody waits for any more becomes a socket that is closed
at once. -/
theorem resolve_stale {opening generation : Nat} (readyState : SocketState)
    (hopening : s.openings opening = some generation)
    (hstale : s.enabled = true → generation ≠ s.generation) :
    s.resolve opening readyState
      = ((s.arrived opening readyState).closeSocket (some opening) 1000
          "Stale connection").connectSettled generation := by
  unfold resolve
  rw [hopening]
  dsimp only
  rw [if_pos]
  · rfl
  · cases henabled : s.enabled with
    | false => rfl
    | true => simpa using hstale henabled

/-- An opening of this generation becomes the current socket, and is told the
rooms if it is open already. -/
theorem resolve_current {opening : Nat} (readyState : SocketState)
    (hopening : s.openings opening = some s.generation)
    (henabled : s.enabled = true) :
    s.resolve opening readyState
      = (if readyState = .opened then
          (s.taken opening readyState).handleOpen opening s.generation
        else s.taken opening readyState).connectSettled s.generation := by
  have htaken : updateSocket
      { s.arrived opening readyState with socket := some opening } opening
      (fun w => { w with listening := some s.generation })
      = s.taken opening readyState := by
    unfold updateSocket arrived taken
    dsimp only
    rw [Function.update_self, Function.update_idem]
    rfl
  unfold resolve
  rw [hopening]
  dsimp only
  rw [if_neg (by simp [henabled])]
  rw [← htaken]
  rfl

/-- An opening that resolves is unknown, stale or current. -/
theorem resolve_cases (s : RealtimeSystem) (opening : Nat)
    (readyState : SocketState) :
    s.openings opening = none ∧ s.resolve opening readyState = s
      ∨ (∃ generation, s.openings opening = some generation
          ∧ (s.enabled = true → generation ≠ s.generation))
      ∨ s.openings opening = some s.generation ∧ s.enabled = true := by
  cases hopening : s.openings opening with
  | none =>
      refine Or.inl ⟨rfl, ?_⟩
      unfold resolve
      rw [hopening]
  | some generation =>
      by_cases hcurrent : s.enabled = true ∧ generation = s.generation
      · obtain ⟨henabled, rfl⟩ := hcurrent
        exact Or.inr (Or.inr ⟨rfl, henabled⟩)
      · refine Or.inr (Or.inl ⟨generation, rfl, fun henabled hg => ?_⟩)
        exact hcurrent ⟨henabled, hg⟩

namespace LinkedBut

/-- An opening of an older generation is not the one in flight. -/
theorem not_inFlight (hs : Linked s) {opening generation : Nat}
    (hopening : s.openings opening = some generation)
    (hstale : s.enabled = true → generation ≠ s.generation) :
    s.connectInFlight ≠ some opening := by
  intro h
  cases henabled : s.enabled with
  | false => cases h.symm.trans (hs.off henabled).2.1
  | true =>
      have hg := hopening.symm.trans ((hs.inFlight opening).mp h)
      exact hstale henabled (Option.some.inj hg)

/-- A stale opening of this generation has been withdrawn, so none is in
flight. -/
theorem settledStale (hs : Linked s) {generation : Nat}
    (hstale : s.enabled = true → generation ≠ s.generation)
    (hg : generation = s.generation) : s.connectInFlight = none := by
  cases henabled : s.enabled with
  | false => exact (hs.off henabled).2.1
  | true => exact absurd hg (hstale henabled)

/-- Of a stale opening a closed socket remains, of a current one the link's
socket. -/
theorem resolve (hs : Linked s) (opening : Nat) (readyState : SocketState) :
    Linked (s.resolve opening readyState) := by
  obtain ⟨-, heq⟩ | ⟨generation, hopening, hstale⟩ | ⟨hopening, henabled⟩ :=
    resolve_cases s opening readyState
  · rw [heq]
    exact hs
  · rw [resolve_stale readyState hopening hstale]
    have hforgotten := hs.forget hopening
      (hs.not_inFlight hopening hstale)
      (some ⟨readyState, [], none, none⟩)
    refine (hforgotten.closeSocket 1000 "Stale connection").connectSettled ?_
    intro hg
    exact hs.settledStale hstale hg
  · rw [resolve_current readyState hopening henabled]
    have hinFlight := (hs.inFlight opening).mpr hopening
    obtain ⟨hlanded, hfree⟩ := hs.landed hinFlight
    have htaken := hlanded.take hfree henabled
      (hs.openings opening _ hopening).2.1 (Function.update_self ..)
      (w := ⟨readyState, [], some s.generation, none⟩) rfl
    have hkept : LinkKept (s.taken opening readyState)
        (if readyState = .opened then
          (s.taken opening readyState).handleOpen opening s.generation
        else s.taken opening readyState) := by
      split
      · exact LinkKept.handleOpen _ _
      · exact LinkKept.refl _
    unfold RealtimeSystem.connectSettled
    rw [if_pos (show s.generation = _ from hkept.generation.symm)]
    exact hkept.settled.linked htaken

/-- A rejected opening leaves the link free for the next attempt. -/
theorem reject (hs : Linked s) (opening : Nat) (error : OpeningError) :
    Linked (s.reject o opening error) := by
  unfold RealtimeSystem.reject
  split
  · exact hs
  · next generation hopening =>
      dsimp only
      split
      · next h =>
          simp only [Bool.and_eq_true, decide_eq_true_eq] at h
          obtain ⟨-, rfl⟩ := h
          obtain ⟨hlanded, hfree⟩ :=
            hs.landed ((hs.inFlight opening).mpr hopening)
          have heq := connectSettled_handleConnectFailure (o := o)
            { s with openings := Function.update s.openings opening none }
            error
          exact (congrArg Linked heq).mpr
            (hlanded.handleConnectFailure hfree error)
      · next h =>
          have hstale : s.enabled = true → generation ≠ s.generation := by
            intro henabled heq
            subst heq
            simp [henabled] at h
          have hforgotten := hs.forget hopening
            (hs.not_inFlight hopening hstale) none
          have hsockets : Function.update s.sockets opening none
              = s.sockets := by
            rw [← (hs.openings opening _ hopening).2.2, Function.update_eq_self]
          rw [hsockets] at hforgotten
          have hlinked : Linked { s with
              openings := Function.update s.openings opening none } :=
            { hforgotten with
              left := fun id w hw hid _ => hs.left id w hw hid nofun }
          exact hlinked.connectSettled (hs.settledStale hstale)

end LinkedBut

/-- A settled opening does not show in what keeps a connection alive,
unless it was the one in flight. -/
theorem Live.connectSettled (hs : Live s) {generation : Nat}
    (h : generation = s.generation → s.connectInFlight = none) :
    Live (s.connectSettled generation) := by
  unfold RealtimeSystem.connectSettled
  split
  · next hg =>
      have hnone := h hg
      intro hwanted
      obtain hsocket | hinFlight | htimer := hs hwanted
      · exact Or.inl hsocket
      · exact absurd hnone hinFlight
      · exact Or.inr (Or.inr htimer)
  · exact hs

/-- The opening that resolves is replaced by its socket, or was not the one
the client waited for. -/
theorem Live.resolve (hs : Live s) (hlinked : Linked s) (opening : Nat)
    (readyState : SocketState) : Live (s.resolve opening readyState) := by
  obtain ⟨-, heq⟩ | ⟨generation, hopening, hstale⟩ | ⟨hopening, henabled⟩ :=
    resolve_cases s opening readyState
  · rw [heq]
    exact hs
  · rw [resolve_stale readyState hopening hstale]
    have harrived : Live (s.arrived opening readyState) := hs
    exact ((LinkKept.closeSocket (some opening) 1000
      "Stale connection").live harrived).connectSettled
        (hlinked.settledStale hstale)
  · rw [resolve_current readyState hopening henabled]
    have hkept : LinkKept (s.taken opening readyState)
        (if readyState = .opened then
          (s.taken opening readyState).handleOpen opening s.generation
        else s.taken opening readyState) := by
      split
      · exact LinkKept.handleOpen _ _
      · exact LinkKept.refl _
    unfold RealtimeSystem.connectSettled
    rw [if_pos (show s.generation = _ from hkept.generation.symm)]
    intro _
    refine Or.inl ?_
    show (if readyState = .opened then _ else _ : RealtimeSystem).socket ≠ none
    rw [hkept.socket]
    exact nofun

/-- The failure schedules a reconnect or ends the session. -/
theorem Live.reject (hs : Live s) (hlinked : Linked s) (opening : Nat)
    (error : OpeningError) : Live (s.reject o opening error) := by
  unfold RealtimeSystem.reject
  split
  · exact hs
  · next generation hopening =>
      dsimp only
      split
      · next h =>
          simp only [Bool.and_eq_true, decide_eq_true_eq] at h
          obtain ⟨-, rfl⟩ := h
          have heq := connectSettled_handleConnectFailure (o := o)
            { s with openings := Function.update s.openings opening none }
            error
          exact (congrArg Live heq).mpr (live_handleConnectFailure _ error)
      · next h =>
          have hstale : s.enabled = true → generation ≠ s.generation := by
            intro henabled heq
            subst heq
            simp [henabled] at h
          have hforgotten : Live { s with
              openings := Function.update s.openings opening none } := hs
          exact hforgotten.connectSettled (hlinked.settledStale hstale)

-- =============================================================== methods

/-- The timer may as well be cleared before the session's fields are set. -/
theorem reconnectTimer_clear_eq (enabled terminal requested : Bool)
    (generation : Nat) :
    clearReconnectTimer { s with
        enabled := enabled
        terminal := terminal
        terminalAuthenticationRevalidationRequested := requested
        generation := generation }
      = { s.clearReconnectTimer with
        enabled := enabled
        terminal := terminal
        terminalAuthenticationRevalidationRequested := requested
        generation := generation } := by
  unfold clearReconnectTimer
  dsimp only
  split
  · rfl
  · rfl

/-- `start` begins a generation under which nothing has been opened yet. -/
theorem LinkedBut.begin (hs : Linked s) : Linked s.begin := by
  unfold RealtimeSystem.begin
  split
  · exact hs
  · next h =>
      have hoff := hs.off (Bool.eq_false_iff.mpr h)
      have hnew : Linked { s with
          enabled := true
          terminal := false
          terminalAuthenticationRevalidationRequested := false
          generation := s.generation + 1 } := by
        have hwithdrawn := hs.withdraw hoff.2.2 true false false
          (Nat.lt_succ_self _)
        rw [hoff.1] at hwithdrawn
        -- There was neither a socket nor an opening to withdraw.
        cases s with
        | mk client browser =>
            cases client
            obtain ⟨hsocket, hinFlight, -⟩ := hoff
            cases hsocket
            cases hinFlight
            exact hwithdrawn
      exact ((LinkKept.updateSnapshot ⟨.idle, 0, none⟩).linked hnew).connect

/-- The next generation is above that of every opening. -/
theorem generation_clear (s : RealtimeSystem) :
    s.clearReconnectTimer.generation < s.generation + 1 := by
  rw [(clearReconnectTimer_fields s).1]
  exact Nat.lt_succ_self _

/-- `stop` withdraws the opening and closes the socket, under a new
generation. -/
theorem LinkedBut.stop (hs : Linked s) : Linked s.stop := by
  unfold RealtimeSystem.stop
  split
  · exact (LinkKept.clearRooms.trans (LinkKept.rejectPending _)).linked hs
  · dsimp only
    rw [reconnectTimer_clear_eq]
    have hwithdrawn := hs.clearReconnectTimer.withdraw
      (reconnectTimer_clear s) false false false (generation_clear s)
    have hrejected := (LinkKept.clearRooms.trans
      (LinkKept.rejectPending sessionEnded)).linked hwithdrawn
    exact (LinkKept.updateSnapshot _).linked
      (hrejected.closeSocket 1000 "Session ended")

/-- A refresh does what `stop` does and connects again. -/
theorem LinkedBut.refreshAuthentication (hs : Linked s) :
    Linked s.refreshAuthentication := by
  unfold RealtimeSystem.refreshAuthentication
  split
  · exact hs
  · dsimp only
    have hclear := reconnectTimer_clear_eq (s := s) s.enabled false
      s.terminalAuthenticationRevalidationRequested (s.generation + 1)
    rw [hclear]
    have hwithdrawn := hs.clearReconnectTimer.withdraw
      (reconnectTimer_clear s) s.enabled false
      s.terminalAuthenticationRevalidationRequested (generation_clear s)
    have hclosed := ((LinkKept.rejectPending authRefreshed).linked
      hwithdrawn).closeSocket 1000 "Authentication refreshed"
    exact ((LinkKept.updateSnapshot ⟨.idle, 0, none⟩).linked hclosed).connect

-- ================================================================ closes

/-- A socket that is not the current one closes, or one that is. -/
theorem socketCloses_cases (s : RealtimeSystem) (id code : Nat)
    (reason : String) :
    LinkKept s (s.socketCloses o id code reason)
      ∨ s.socket = some id
        ∧ s.socketCloses o id code reason
          = (s.updateSocket id fun w =>
              { w with readyState := .closed }).handleClose o id s.generation
                code reason := by
  have hclosed : LinkKept s
      (s.updateSocket id fun w => { w with readyState := .closed }) :=
    LinkKept.updateSocket id fun w _ => ⟨rfl, fun _ => Or.inr rfl⟩
  unfold socketCloses
  split
  · exact Or.inl (LinkKept.refl s)
  · next w hw =>
      dsimp only
      split
      · exact Or.inl hclosed
      · next generation hlistening =>
          by_cases h : s.socket = some id ∧ generation = s.generation
          · obtain ⟨hsocket, rfl⟩ := h
            exact Or.inr ⟨hsocket, rfl⟩
          · refine Or.inl ?_
            unfold handleClose
            rw [if_pos]
            · exact hclosed
            · by_cases hsocket : s.socket = some id
              · exact Or.inr fun hg => h ⟨hsocket, hg⟩
              · exact Or.inl fun hid => hsocket hid.symm

/-- The close of the current socket reaches `handleClose` under the client's
generation. -/
theorem socketCloses_current (hs : Linked s) {id : Nat}
    (hsocket : s.socket = some id) (code : Nat) (reason : String) :
    s.socketCloses o id code reason
      = (s.updateSocket id fun w =>
          { w with readyState := .closed }).handleClose o id s.generation
            code reason := by
  obtain ⟨w, hw, hlistening⟩ := hs.current id hsocket
  unfold socketCloses
  rw [hw]
  dsimp only
  rw [hlistening]

/-- What is left when the current socket has closed. -/
def disconnect (s : RealtimeSystem) (id code : Nat) : RealtimeSystem :=
  rejectPending
    { s.updateSocket id fun w => { w with readyState := .closed } with
      socket := none }
    (connectionClosed code)

/-- There the messages are rejected, and the client reconnects, ends or stays
off. -/
theorem handleClose_current {id : Nat} (hsocket : s.socket = some id)
    (code : Nat) (reason : String) :
    (s.updateSocket id fun w =>
        { w with readyState := .closed }).handleClose o id s.generation code
          reason
      = if !(s.disconnect id code).enabled then s.disconnect id code
        else if code ∈ terminalCloseCodes then
          requestTerminalAuthenticationRevalidation o (updateSnapshot
            { s.disconnect id code with terminal := true }
            ⟨.stopped, (s.disconnect id code).snapshot.reconnectAttempt,
              some (.message (sessionRejected reason))⟩)
        else (s.disconnect id code).scheduleReconnect none none := by
  unfold handleClose
  rw [if_neg]
  · rfl
  · intro h'
    rcases h' with h | h
    · exact h hsocket.symm
    · exact h rfl

/-- Without its socket the client is free for a reconnect. -/
theorem LinkedBut.disconnect (hs : Linked s) {id : Nat}
    (hsocket : s.socket = some id) (code : Nat) :
    Linked (s.disconnect id code) ∧ Free (s.disconnect id code) := by
  have hkept : LinkKept s
      (s.updateSocket id fun w => { w with readyState := .closed }) :=
    LinkKept.updateSocket id fun w _ => ⟨rfl, fun _ => Or.inr rfl⟩
  have hclosed := hkept.linked hs
  have hsome : s.socket ≠ none := by
    rw [hsocket]
    exact nofun
  obtain ⟨hinFlight, htimer⟩ := hs.alone hsome
  have hrejected := LinkKept.rejectPending (connectionClosed code)
    (s := { s.updateSocket id fun w => { w with readyState := .closed } with
      socket := none })
  refine ⟨hrejected.linked { hclosed with
    current := nofun
    left := fun id' w hw _ _ => ?_
    alone := fun h => absurd rfl h
    off := fun _ => ⟨rfl, hinFlight, htimer⟩ }, ⟨hrejected.socket,
      hrejected.connectInFlight.trans hinFlight,
      hrejected.reconnectTimer.trans htimer⟩⟩
  by_cases hid : id' = id
  · have hw' : Function.update s.sockets id ((s.sockets id).map
        fun w => { w with readyState := .closed }) id' = some w := hw
    rw [hid, Function.update_self] at hw'
    obtain ⟨w₀, -, rfl⟩ := Option.map_eq_some_iff.mp hw'
    exact Or.inr rfl
  · refine hclosed.left id' w hw ?_ nofun
    show s.socket ≠ some id'
    rw [hsocket]
    exact fun h => hid (Option.some.inj h).symm

/-- The close of the current socket frees the link; that of another one only
marks it. -/
theorem LinkedBut.socketCloses (hs : Linked s) (id code : Nat)
    (reason : String) : Linked (s.socketCloses o id code reason) := by
  obtain hkept | ⟨hsocket, heq⟩ := socketCloses_cases s id code reason
  · exact hkept.linked hs
  · obtain ⟨hlinked, hfree⟩ := hs.disconnect hsocket code
    rw [heq, handleClose_current hsocket]
    split
    · exact hlinked
    · split
      · have hterminal : Linked (updateSnapshot
            { s.disconnect id code with terminal := true }
            ⟨.stopped, (s.disconnect id code).snapshot.reconnectAttempt,
              some (.message (sessionRejected reason))⟩) :=
          { hlinked with }
        exact (LinkKept.requestRevalidation o).linked hterminal
      · exact hlinked.scheduleReconnect hfree _ _

/-- A close that is not terminal schedules a reconnect. -/
theorem Live.socketCloses (hs : Live s) (id code : Nat) (reason : String) :
    Live (s.socketCloses o id code reason) := by
  obtain hkept | ⟨hsocket, heq⟩ :=
    socketCloses_cases (o := o) s id code reason
  · exact hkept.live hs
  · rw [heq, handleClose_current hsocket]
    split
    · next h =>
        intro h
        obtain ⟨henabled, -⟩ := h
        simp [henabled] at h
    · split
      · have hterminal : Live (updateSnapshot
            { s.disconnect id code with terminal := true }
            ⟨.stopped, (s.disconnect id code).snapshot.reconnectAttempt,
              some (.message (sessionRejected reason))⟩) := by
          intro h
          obtain ⟨-, hfalse, -⟩ := h
          cases hfalse
        exact (LinkKept.requestRevalidation o).live hterminal
      · exact live_scheduleReconnect _ _ _

-- ============================================================= each step

/-- A timer that fires is the one remembered, and its turn connects. -/
theorem LinkedBut.reconnectTimerFires (hs : Linked s) (timer : Nat) :
    Linked (s.reconnectTimerFires timer) := by
  unfold RealtimeSystem.reconnectTimerFires
  split
  · exact hs
  · next delay hdelay =>
      have harmed : s.reconnectTimer = some timer := by
        rw [hs.timer, hdelay]
        exact nofun
      have hcleared := hs.clearReconnectTimer
      unfold RealtimeSystem.clearReconnectTimer at hcleared
      rw [harmed] at hcleared
      exact hcleared.connect

/-- After its turn a wanted connection is under way. -/
theorem live_reconnectTimerFires (hs : Live s) (timer : Nat) :
    Live (s.reconnectTimerFires timer) := by
  unfold reconnectTimerFires
  split
  · exact hs
  · exact live_connect _

/-- The link is in order after every event. -/
theorem LinkedBut.step (hs : Linked s) (e : Event) : Linked (s.step o e) := by
  cases e with
  | start => exact hs.begin
  | stop => exact hs.stop
  | refreshAuthentication => exact hs.refreshAuthentication
  | setVisible visible =>
      have hset : Linked { s with visible := visible } := { hs with }
      cases visible with
      | false => exact hset
      | true => exact hset.connectIfWaiting
  | setOnline online =>
      have hset : Linked { s with online := online } := { hs with }
      cases online with
      | false => exact hset
      | true => exact hset.connectIfWaiting
  | joinConversation id => exact (LinkKept.joinConversation id).linked hs
  | leave join => exact (LinkKept.leave join).linked hs
  | sendMessage input => exact (LinkKept.sendMessage o input).linked hs
  | resolve opening readyState => exact hs.resolve opening readyState
  | reject opening error => exact hs.reject opening error
  | socketOpens id => exact (LinkKept.socketOpens id).linked hs
  | socketMessage id message =>
      exact (LinkKept.socketMessage id message).linked hs
  | socketClosing id => exact (LinkKept.socketClosing id).linked hs
  | socketCloses id code reason => exact hs.socketCloses id code reason
  | reconnectTimer timer => exact hs.reconnectTimerFires timer
  | ackTimer send => exact (LinkKept.ackTimerFires send).linked hs

/-- No event gives a wanted connection up: a start, a drop and a failed
attempt each leave an attempt under way or a timer that begins one. -/
theorem Live.step (hs : Live s) (hlinked : Linked s) (e : Event) :
    Live (s.step o e) := by
  cases e with
  | start =>
      show Live s.begin
      unfold begin
      split
      · exact hs
      · exact live_connect _
  | stop =>
      have hoff : s.stop.enabled = false := by
        unfold RealtimeSystem.stop
        split
        · next h =>
            simp only [Bool.and_eq_true, Bool.not_eq_true',
              decide_eq_true_eq] at h
            exact (LinkKept.rejectPending sessionEnded).enabled.trans h.1
        · dsimp only
          rw [reconnectTimer_clear_eq]
          exact (LinkKept.closeSocket _ _ _).enabled.trans
            (LinkKept.rejectPending _).enabled
      intro h
      obtain ⟨hon, -⟩ := h
      exact absurd (hoff.symm.trans hon) Bool.false_ne_true
  | refreshAuthentication =>
      show Live s.refreshAuthentication
      unfold RealtimeSystem.refreshAuthentication
      split
      · exact hs
      · exact live_connect _
  | setVisible visible =>
      cases visible with
      | false =>
          intro h
          obtain ⟨-, -, hfalse, -⟩ := h
          cases hfalse
      | true => exact live_connectIfWaiting _
  | setOnline online =>
      cases online with
      | false =>
          intro h
          obtain ⟨-, -, -, hfalse⟩ := h
          cases hfalse
      | true => exact live_connectIfWaiting _
  | joinConversation id => exact (LinkKept.joinConversation id).live hs
  | leave join => exact (LinkKept.leave join).live hs
  | sendMessage input => exact (LinkKept.sendMessage o input).live hs
  | resolve opening readyState => exact hs.resolve hlinked opening readyState
  | reject opening error => exact hs.reject hlinked opening error
  | socketOpens id => exact (LinkKept.socketOpens id).live hs
  | socketMessage id message =>
      exact (LinkKept.socketMessage id message).live hs
  | socketClosing id => exact (LinkKept.socketClosing id).live hs
  | socketCloses id code reason => exact hs.socketCloses id code reason
  | reconnectTimer timer => exact live_reconnectTimerFires hs timer
  | ackTimer send => exact (LinkKept.ackTimerFires send).live hs

end RealtimeSystem

end Skrynia
