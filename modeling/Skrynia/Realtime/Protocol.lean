/-
The connection and send protocol of the realtime client, over any events.

# The argument

What becomes of the link is `Linked` and `Live`. A promise is settled
where its message leaves `pendingMessages`, and the message and its timer
come and go together (`Mailed`): so a promise is settled once, and is
settled or timed. Messages wait only while there is a socket
(`NoOrphans`), and whatever gives a socket up rejects them all.
-/
import Skrynia.Realtime.Link

namespace Skrynia

open Relational Stepping Table

namespace RealtimeSystem

variable {o : RealtimeClientOptions} {s s' s'' : RealtimeSystem}

-- ================================================================== laws

/-- `resolve` or `reject` of the promise was called. -/
def Settled (s : RealtimeSystem) (send : Nat) : Prop :=
  send ∈ s.settlements.map Prod.fst

/-- What the claim lists, in one state: the sockets and timers that are
there, and what becomes of each promise under the next event. -/
structure Protocol (o : RealtimeClientOptions) (s : RealtimeSystem) :
    Prop where
  oneSocket : ∀ id w, s.sockets id = some w → ¬ w.Closed →
    s.socket = some id
  staleClosed : ∀ opening generation readyState,
    s.openings opening = some generation → generation ≠ s.generation →
    (s.step o (.resolve opening readyState)).socket = s.socket
      ∧ ∃ w, (s.step o (.resolve opening readyState)).sockets opening
          = some w ∧ w.Closed
  notGivenUp : s.Wanted →
    s.socket ≠ none
      ∨ (∃ opening, s.connectInFlight = some opening
          ∧ s.openings opening = some s.generation)
      ∨ ∃ timer, s.reconnectTimer = some timer
          ∧ s.reconnectTimers timer ≠ none
  oneTimer : ∀ timer timer', s.reconnectTimers timer ≠ none →
    s.reconnectTimers timer' ≠ none → timer = timer'
  settledOnce : (s.settlements.map Prod.fst).Nodup
  pendingTimed : ∀ send < s.sends, s.Settled send ∨ s.ackTimers send ≠ none
  timedOut : ∀ send, s.ackTimers send ≠ none →
    (s.step o (.ackTimer send)).Settled send
  stopped : ∀ send < s.sends, (s.step o .stop).Settled send
  refreshed : ∀ send < s.sends,
    (s.step o .refreshAuthentication).Settled send
  disconnected : ∀ id code reason, s.socket = some id →
    ∀ send < s.sends, (s.step o (.socketCloses id code reason)).Settled send

-- ============================================================= the pending

/-- A message waits, and so do its promise and its timer. -/
structure Mailed (s : RealtimeSystem) : Prop where
  pending : ∀ m p, s.pendingMessages.find? m = some p →
    ∃ delay, s.ackTimers p.send = some (m, delay)
  armed : ∀ n m delay, s.ackTimers n = some (m, delay) →
    s.pendingMessages.find? m = some ⟨m, n⟩ ∧ ¬ s.Settled n ∧ n < s.sends
  settled : ∀ n, s.Settled n → n < s.sends
  once : (s.settlements.map Prod.fst).Nodup
  all : ∀ n < s.sends, s.Settled n ∨ s.ackTimers n ≠ none

/-- No message waits. -/
def Idle (s : RealtimeSystem) : Prop :=
  ∀ m, s.pendingMessages.find? m = none

/-- Messages wait only while there is a socket. -/
def NoOrphans (s : RealtimeSystem) : Prop := s.socket = none → s.Idle

/-- Messages and the current socket stay as they are. -/
structure MailKept (s s' : RealtimeSystem) : Prop where
  pendingMessages : s'.pendingMessages = s.pendingMessages
  ackTimers : s'.ackTimers = s.ackTimers
  settlements : s'.settlements = s.settlements
  sends : s'.sends = s.sends
  socket : s'.socket = s.socket

/-- And the rooms do. -/
structure Aside (s s' : RealtimeSystem) : Prop extends MailKept s s' where
  roomReferences : s'.roomReferences = s.roomReferences
  callbacks : s'.callbacks = s.callbacks

namespace Aside

/-- Nothing happens to messages, rooms or the socket in a state itself. -/
theorem refl (s : RealtimeSystem) : Aside s s where
  pendingMessages := rfl
  ackTimers := rfl
  settlements := rfl
  sends := rfl
  roomReferences := rfl
  callbacks := rfl
  socket := rfl

/-- Two operations that each stand aside do so together. -/
theorem trans (h : Aside s s') (h' : Aside s' s'') : Aside s s'' where
  pendingMessages := h'.pendingMessages.trans h.pendingMessages
  ackTimers := h'.ackTimers.trans h.ackTimers
  settlements := h'.settlements.trans h.settlements
  sends := h'.sends.trans h.sends
  roomReferences := h'.roomReferences.trans h.roomReferences
  callbacks := h'.callbacks.trans h.callbacks
  socket := h'.socket.trans h.socket

/-- The snapshot is not part of what is kept. -/
theorem updateSnapshot (snapshot : RealtimeSnapshot) :
    Aside s (s.updateSnapshot snapshot) := { refl s with }

/-- Closing a socket changes what the browser keeps of it; the client still
has its messages and rooms. -/
theorem closeSocket (socket : Option Nat) (code : Nat) (reason : String) :
    Aside s (s.closeSocket socket code reason) := by
  cases socket with
  | none => exact refl s
  | some id => exact { refl s with }

/-- A frame that a socket takes is recorded with the socket only. -/
theorem send (frame : RealtimeFrame) : Aside s (s.send frame) := by
  unfold RealtimeSystem.send
  split
  · exact refl s
  · exact { refl s with }

/-- A control is about the rooms, but it is sent after they have changed. -/
theorem sendControl (frame : RealtimeFrame) :
    Aside s (s.sendControl frame) := by
  unfold RealtimeSystem.sendControl
  split
  · exact refl s
  · exact send frame

/-- Asking for a revalidation of the session touches no message. -/
theorem requestRevalidation (o : RealtimeClientOptions) :
    Aside s (s.requestTerminalAuthenticationRevalidation o) := by
  unfold RealtimeSystem.requestTerminalAuthenticationRevalidation
  split
  · exact refl s
  · exact { refl s with }

/-- Nor is the reconnect timer. -/
theorem clearReconnectTimer : Aside s s.clearReconnectTimer := by
  unfold RealtimeSystem.clearReconnectTimer
  split
  · exact refl s
  · exact { refl s with }

/-- An opening that begins leaves what waits as it is: messages are kept over
reconnects until their timers fire. -/
theorem connect : Aside s s.connect := by
  obtain ⟨heq, -⟩ | ⟨-, -, -, heq⟩ := connect_cases s
  · rw [heq]
    exact refl s
  · rw [heq]
    exact { clearReconnectTimer with }

/-- A wakeup leaves what is kept. -/
theorem connectIfWaiting : Aside s s.connectIfWaiting := by
  obtain ⟨heq, -⟩ | heq := connectIfWaiting_cases s
  · rw [heq]
    exact refl s
  · rw [heq]
    exact connect

/-- Only the reconnect timer and the snapshot change. -/
theorem scheduleReconnect (delay : Option Nat)
    (error : Option RealtimeError) :
    Aside s (s.scheduleReconnect delay error) := by
  unfold RealtimeSystem.scheduleReconnect
  split
  · exact refl s
  · exact { refl s with }

/-- A failed opening rejects nothing: the messages were rejected with the
socket they were sent on. -/
theorem handleConnectFailure (error : OpeningError) :
    Aside s (s.handleConnectFailure o error) := by
  unfold RealtimeSystem.handleConnectFailure
  dsimp only
  split
  · split
    · exact { requestRevalidation o with }
    · exact { refl s with }
  · exact scheduleReconnect _ _

/-- An open socket is told the rooms, and no message is sent again. -/
theorem handleOpen (socket generation : Nat) :
    Aside s (s.handleOpen socket generation) := by
  unfold RealtimeSystem.handleOpen
  split
  · exact refl s
  · have hfields : Aside s (RealtimeSystem.updateSnapshot
        { s with terminalAuthenticationRevalidationRequested := false }
        ⟨.connected, 0, none⟩) := { refl s with }
    exact hfields.trans
      (run_relates refl trans (fun _ id => sendControl _) _ _)

/-- The `finally` block of `connect` clears the opening under way only. -/
theorem connectSettled (generation : Nat) :
    Aside s (s.connectSettled generation) := by
  unfold RealtimeSystem.connectSettled
  split
  · exact { refl s with }
  · exact refl s

/-- `start` begins a session with whatever waits from before, which `stop`
has emptied. -/
theorem begin : Aside s s.begin := by
  unfold RealtimeSystem.begin
  split
  · exact refl s
  · have hfields : Aside s (RealtimeSystem.updateSnapshot { s with
        enabled := true
        terminal := false
        terminalAuthenticationRevalidationRequested := false
        generation := s.generation + 1 } ⟨.idle, 0, none⟩) :=
      { refl s with }
    exact hfields.trans connect

/-- A rejected opening is a failure of the connection, not of a message. -/
theorem reject (opening : Nat) (error : OpeningError) :
    Aside s (s.reject o opening error) := by
  unfold RealtimeSystem.reject
  split
  · exact refl s
  · dsimp only
    have hfields : Aside s { s with
        openings := Function.update s.openings opening none } :=
      { refl s with }
    split
    · exact (hfields.trans (handleConnectFailure error)).trans
        (connectSettled _)
    · exact hfields.trans (connectSettled _)

/-- The timer's turn is an opening. -/
theorem reconnectTimerFires (timer : Nat) :
    Aside s (s.reconnectTimerFires timer) := by
  unfold RealtimeSystem.reconnectTimerFires
  split
  · exact refl s
  · have hfields : Aside s { s with
        reconnectTimers := Function.update s.reconnectTimers timer none
        reconnectTimer := none } := { refl s with }
    exact hfields.trans connect

/-- A socket that opens is told the rooms if it is the current one. -/
theorem socketOpens (id : Nat) : Aside s (s.socketOpens id) := by
  unfold RealtimeSystem.socketOpens
  split
  · exact refl s
  · split
    · exact refl s
    · dsimp only
      have hfields : Aside s (s.updateSocket id fun w =>
          { w with readyState := .opened }) := { refl s with }
      split
      · exact hfields
      · exact hfields.trans (handleOpen _ _)

/-- A page that shows again connects where it waited. -/
theorem setVisible (visible : Bool) : Aside s (s.setVisible visible) := by
  have hfields : Aside s { s with visible := visible } := { refl s with }
  cases visible with
  | false => exact hfields
  | true => exact hfields.trans connectIfWaiting

/-- A page that is online again connects where it waited. -/
theorem setOnline (online : Bool) : Aside s (s.setOnline online) := by
  have hfields : Aside s { s with online := online } := { refl s with }
  cases online with
  | false => exact hfields
  | true => exact hfields.trans connectIfWaiting

/-- An opening that resolves stands aside, or hands over its socket and then
stands aside. -/
theorem resolve (opening : Nat) (readyState : SocketState) :
    Aside s (s.resolve opening readyState)
      ∨ Aside { s with socket := some opening }
          (s.resolve opening readyState) := by
  obtain ⟨-, heq⟩ | ⟨generation, hopening, hstale⟩ | ⟨hopening, henabled⟩ :=
    resolve_cases s opening readyState
  · rw [heq]
    exact Or.inl (refl s)
  · rw [resolve_stale readyState hopening hstale]
    have harrived : Aside s (s.arrived opening readyState) :=
      { refl s with }
    exact Or.inl ((harrived.trans (closeSocket _ _ _)).trans
      (connectSettled _))
  · rw [resolve_current readyState hopening henabled]
    have htaken : Aside { s with socket := some opening }
        (s.taken opening readyState) :=
      { refl { s with socket := some opening } with }
    refine Or.inr (htaken.trans ?_)
    split
    · exact (handleOpen _ _).trans (connectSettled _)
    · exact connectSettled _

end Aside

-- ============================================================ settlements

namespace Mailed

/-- A new client has no promise yet. -/
theorem start : Mailed start where
  pending _ _ h := by cases h
  armed _ _ _ h := by cases h
  settled _ h := by cases h
  once := List.nodup_nil
  all _ h := absurd h (Nat.not_lt_zero _)

/-- `Mailed` reads four fields, and a state that agrees on them has it
too. -/
theorem congr (hs : Mailed s) (hpending : s'.pendingMessages = s.pendingMessages)
    (hack : s'.ackTimers = s.ackTimers)
    (hsettlements : s'.settlements = s.settlements)
    (hsends : s'.sends = s.sends) : Mailed s' := by
  have hsettled : ∀ n, s'.Settled n ↔ s.Settled n := by
    intro n
    unfold Settled
    rw [hsettlements]
  constructor
  · rw [hpending, hack]
    exact hs.pending
  · intro n
    rw [hpending, hack, hsettled, hsends]
    exact hs.armed n
  · intro n
    rw [hsettled, hsends]
    exact hs.settled n
  · rw [hsettlements]
    exact hs.once
  · intro n
    rw [hsends, hsettled, hack]
    exact hs.all n

/-- What keeps the messages keeps `Mailed`. -/
theorem kept (hs : Mailed s) (h : MailKept s s') : Mailed s' :=
  hs.congr h.pendingMessages h.ackTimers h.settlements h.sends

/-- What stands aside keeps `Mailed`. -/
theorem aside (hs : Mailed s) (h : Aside s s') : Mailed s' :=
  hs.kept h.toMailKept

/-- A waiting message goes, with its timer, and its promise settles. -/
theorem settles (hs : Mailed s) {m : String} {p : PendingMessage}
    (hp : s.pendingMessages.find? m = some p) (outcome : Settlement) :
    Mailed { s with
      pendingMessages := s.pendingMessages.remove m
      ackTimers := Function.update s.ackTimers p.send none
      settlements := (p.send, outcome) :: s.settlements } := by
  obtain ⟨delay, hdelay⟩ := hs.pending m p hp
  obtain ⟨-, hnew, hlt⟩ := hs.armed _ m delay hdelay
  constructor
  · intro m' p' hp'
    rw [find?_remove] at hp'
    split at hp'
    · cases hp'
    · next hm =>
        obtain ⟨delay', hdelay'⟩ := hs.pending m' p' hp'
        have hne : p'.send ≠ p.send := by
          intro heq
          rw [heq, hdelay] at hdelay'
          cases hdelay'
          exact hm rfl
        exact ⟨delay', (Function.update_of_ne hne ..).trans hdelay'⟩
  · intro n m' delay' h
    obtain ⟨-, hnone⟩ | ⟨hne, h⟩ := update_cases h
    · cases hnone
    · obtain ⟨hfound, hsettled, hn⟩ := hs.armed n m' delay' h
      have hm : m ≠ m' := by
        intro heq
        subst heq
        cases hp.symm.trans hfound
        exact hne rfl
      refine ⟨?_, ?_, hn⟩
      · rw [find?_remove, if_neg hm]
        exact hfound
      · intro hmem
        obtain heq | hmem := List.mem_cons.mp hmem
        · exact hne heq
        · exact hsettled hmem
  · intro n hmem
    obtain rfl | hmem := List.mem_cons.mp hmem
    · exact hlt
    · exact hs.settled n hmem
  · exact List.nodup_cons.mpr ⟨hnew, hs.once⟩
  · intro n hn
    by_cases hne : n = p.send
    · exact Or.inl (List.mem_cons.mpr (Or.inl hne))
    · refine (hs.all n hn).imp (fun h => List.mem_cons_of_mem _ h)
        fun h hnone => ?_
      exact h ((Function.update_of_ne hne ..).symm.trans hnone)

/-- A message that waits is settled: its promise is recorded once, since it
was not before, and its timer goes with it. -/
theorem settleMessage (hs : Mailed s) (m : String) (outcome : Settlement) :
    Mailed (s.settleMessage m outcome) := by
  unfold RealtimeSystem.settleMessage
  split
  · exact hs
  · next p hp => exact hs.settles hp outcome

/-- Rejecting all of them settles one after the other. -/
theorem rejectPending (hs : Mailed s) (error : RealtimeMessageError) :
    Mailed (s.rejectPending error) := by
  have hstep : ∀ s m, Mailed s →
      Mailed (s.settleMessage m (.rejected error)) :=
    fun s m hs => hs.settleMessage m _
  exact run_keeps hstep hs _

/-- A timer settles the promise it was armed for and removes its message. -/
theorem ackTimerFires (hs : Mailed s) (n : Nat) :
    Mailed (s.ackTimerFires n) := by
  unfold RealtimeSystem.ackTimerFires
  split
  · exact hs
  · next m delay harmed =>
      exact hs.settles (hs.armed n m delay harmed).1 (.rejected ackTimeout)

/-- A call of `sendMessage` that is refused at once. -/
theorem refused (hs : Mailed s) (outcome : Settlement) :
    Mailed (settle { s with sends := s.sends + 1 } s.sends outcome) := by
  constructor
  · exact hs.pending
  · intro n m delay h
    obtain ⟨hfound, hsettled, hn⟩ := hs.armed n m delay h
    refine ⟨hfound, fun hmem => ?_, Nat.lt_succ_of_lt hn⟩
    obtain heq | hmem := List.mem_cons.mp hmem
    · exact absurd heq hn.ne
    · exact hsettled hmem
  · intro n hmem
    obtain rfl | hmem := List.mem_cons.mp hmem
    · exact Nat.lt_succ_self _
    · exact Nat.lt_succ_of_lt (hs.settled n hmem)
  · refine List.nodup_cons.mpr ⟨fun hmem => ?_, hs.once⟩
    exact lt_irrefl _ (hs.settled s.sends hmem)
  · intro n hn
    obtain hlt | rfl := Nat.lt_succ_iff_lt_or_eq.mp hn
    · exact (hs.all n hlt).imp_left fun h => List.mem_cons_of_mem _ h
    · exact Or.inl (List.mem_cons_self ..)

/-- A message that waits from now on: its promise is a new one, and no other
message has its id. -/
theorem awaitAck (hs : Mailed s) {m : String}
    (hm : ¬ s.pendingMessages.Has m) :
    Mailed (RealtimeSystem.awaitAck o { s with sends := s.sends + 1 } m
      s.sends) := by
  have hnone := find?_eq_none.mpr hm
  constructor
  · intro m' p hp
    rw [show (RealtimeSystem.awaitAck o { s with sends := s.sends + 1 } m
      s.sends).pendingMessages = s.pendingMessages.put ⟨m, s.sends⟩ from rfl,
      find?_put] at hp
    split at hp
    · next heq =>
        cases hp
        exact ⟨o.ackTimeoutMs, heq ▸ Function.update_self ..⟩
    · obtain ⟨delay, hdelay⟩ := hs.pending m' p hp
      refine ⟨delay, (Function.update_of_ne ?_ ..).trans hdelay⟩
      exact (hs.armed _ m' delay hdelay).2.2.ne
  · intro n m' delay h
    show (s.pendingMessages.put ⟨m, s.sends⟩).find? m' = some ⟨m', n⟩
      ∧ ¬ s.Settled n ∧ n < s.sends + 1
    rw [find?_put]
    obtain ⟨rfl, heq⟩ | ⟨-, h⟩ := update_cases h
    · cases heq
      rw [if_pos rfl]
      exact ⟨rfl, fun hmem => lt_irrefl _ (hs.settled _ hmem),
        Nat.lt_succ_self _⟩
    · obtain ⟨hfound, hsettled, hn⟩ := hs.armed n m' delay h
      have hne : m ≠ m' := by
        intro heq
        subst heq
        cases hnone.symm.trans hfound
      rw [if_neg hne]
      exact ⟨hfound, hsettled, Nat.lt_succ_of_lt hn⟩
  · exact fun n hmem => Nat.lt_succ_of_lt (hs.settled n hmem)
  · exact hs.once
  · intro n hn
    obtain hlt | rfl := Nat.lt_succ_iff_lt_or_eq.mp hn
    · refine (hs.all n hlt).imp_right fun h hnone => h ?_
      exact (Function.update_of_ne hlt.ne ..).symm.trans hnone
    · refine Or.inr fun hnone => ?_
      cases (Function.update_self ..).symm.trans hnone

/-- A call of `sendMessage` settles its promise at once or arms its timer. -/
theorem sendMessage (hs : Mailed s) (input : RealtimeMessageInput) :
    Mailed (s.sendMessage o input) := by
  unfold RealtimeSystem.sendMessage
  dsimp only
  split
  · exact hs.refused _
  · split
    · exact hs.refused _
    · next hm =>
        have hawait := hs.awaitAck (o := o) hm
        exact hawait.aside (Aside.send _)

/-- When no message waits, every promise has settled. -/
theorem settled_of_idle (hs : Mailed s) (hidle : s.Idle) {n : Nat}
    (hn : n < s.sends) : s.Settled n := by
  obtain hsettled | htimer := hs.all n hn
  · exact hsettled
  · obtain ⟨⟨m, delay⟩, harmed⟩ := Option.ne_none_iff_exists'.mp htimer
    cases (hidle m).symm.trans (hs.armed n m delay harmed).1

end Mailed

-- ============================================================= rejections

/-- Settling a message removes it and no other one. -/
theorem find?_settleMessage (s : RealtimeSystem) (id m : String)
    (outcome : Settlement) :
    (s.settleMessage id outcome).pendingMessages.find? m
      = if id = m then none else s.pendingMessages.find? m := by
  unfold settleMessage
  split
  · next hnone =>
      split
      · next h =>
          rw [← h]
          exact hnone
      · rfl
  · exact find?_remove _ _ _

/-- Settling makes no new promise. -/
theorem sends_settleMessage (s : RealtimeSystem) (id : String)
    (outcome : Settlement) :
    (s.settleMessage id outcome).sends = s.sends := by
  unfold settleMessage
  split
  · rfl
  · rfl

/-- After rejecting all messages that waited none waits. -/
theorem idle_rejectPending (s : RealtimeSystem)
    (error : RealtimeMessageError) : (s.rejectPending error).Idle := by
  intro m
  -- The messages that wait are those whose turn is still to come.
  have hleft : ∀ (ids : List String) (s : RealtimeSystem),
      (∀ m, m ∉ ids → s.pendingMessages.find? m = none) →
      (ids.foldl (fun s id => s.settleMessage id (.rejected error))
        s).pendingMessages.find? m = none := by
    intro ids
    induction ids with
    | nil => exact fun s h => h m (List.not_mem_nil)
    | cons id ids ih =>
        intro s h
        refine ih _ fun m' hm' => ?_
        rw [find?_settleMessage]
        by_cases heq : id = m'
        · rw [if_pos heq]
        · rw [if_neg heq]
          refine h m' fun hmem => ?_
          obtain rfl | hmem := List.mem_cons.mp hmem
          · exact heq rfl
          · exact hm' hmem
  refine hleft _ s fun m' hm' => ?_
  exact find?_eq_none.mpr hm'

/-- Rejecting makes no new promise. -/
theorem sends_rejectPending (s : RealtimeSystem)
    (error : RealtimeMessageError) :
    (s.rejectPending error).sends = s.sends := by
  have hstep : ∀ (s' : RealtimeSystem) (m : String), s'.sends = s.sends →
      (s'.settleMessage m (.rejected error)).sends = s.sends :=
    fun s' m h => (sends_settleMessage s' m _).trans h
  exact run_keeps hstep rfl _

/-- Every message that waited was rejected. -/
structure Rejected (s s' : RealtimeSystem) : Prop where
  mailed : Mailed s → Mailed s'
  idle : s'.Idle
  sends : s'.sends = s.sends

/-- A state that differs from `s` in the link only and rejects what waits has
rejected all of `s`. -/
theorem Rejected.of {b : RealtimeSystem}
    (hpending : b.pendingMessages = s.pendingMessages)
    (hack : b.ackTimers = s.ackTimers)
    (hsettlements : b.settlements = s.settlements)
    (hsends : b.sends = s.sends) (error : RealtimeMessageError)
    (h : Aside (b.rejectPending error) s') : Rejected s s' where
  mailed hs :=
    ((hs.congr hpending hack hsettlements hsends).rejectPending error).aside h
  idle m := by
    rw [h.pendingMessages]
    exact idle_rejectPending b error m
  sends := h.sends.trans ((sends_rejectPending b error).trans hsends)

/-- Each promise that was made before is settled after the rejection: it was
before, or its message waited. -/
theorem Rejected.settled (h : Rejected s s') (hs : Mailed s) {n : Nat}
    (hn : n < s.sends) : s'.Settled n :=
  (h.mailed hs).settled_of_idle h.idle (h.sends ▸ hn)

/-- `stop` rejects all that waits, whether or not it was stopped before. -/
theorem rejected_stop (s : RealtimeSystem) : Rejected s s.stop := by
  unfold stop
  split
  · exact Rejected.of (b := s.clearRooms) rfl rfl rfl rfl _ (Aside.refl _)
  · dsimp only
    have hclear := Aside.clearReconnectTimer (s := { s with
      enabled := false
      terminal := false
      terminalAuthenticationRevalidationRequested := false
      generation := s.generation + 1 })
    refine Rejected.of (b := clearRooms { clearReconnectTimer _ with
        socket := none
        connectInFlight := none }) hclear.pendingMessages
      hclear.ackTimers hclear.settlements hclear.sends sessionEnded ?_
    exact (Aside.closeSocket _ _ _).trans (Aside.updateSnapshot _)

/-- `refreshAuthentication` of a started client rejects all that waits. -/
theorem rejected_refresh (henabled : s.enabled = true) :
    Rejected s s.refreshAuthentication := by
  unfold refreshAuthentication
  rw [if_neg (by simp [henabled])]
  dsimp only
  have hclear := Aside.clearReconnectTimer (s := { s with
    terminal := false
    generation := s.generation + 1 })
  refine Rejected.of hclear.pendingMessages hclear.ackTimers
    hclear.settlements hclear.sends authRefreshed (b := { clearReconnectTimer
      { s with terminal := false, generation := s.generation + 1 } with
      socket := none
      connectInFlight := none }) ?_
  exact ((Aside.closeSocket _ _ _).trans (Aside.updateSnapshot _)).trans
    Aside.connect

/-- The close of the current socket rejects all that was sent on it. -/
theorem rejected_socketCloses (hs : Linked s) {id : Nat}
    (hsocket : s.socket = some id) (code : Nat) (reason : String) :
    Rejected s (s.socketCloses o id code reason) := by
  rw [socketCloses_current hs hsocket, handleClose_current hsocket]
  refine Rejected.of (b := { s.updateSocket id fun w =>
    { w with readyState := .closed } with socket := none }) rfl rfl rfl rfl
    (connectionClosed code) ?_
  split
  · exact Aside.refl _
  · split
    · exact { Aside.requestRevalidation o with }
    · exact Aside.scheduleReconnect _ _

-- ============================================================== each step

/-- A join changes rooms, not messages. -/
theorem MailKept.joinConversation (id : String) :
    MailKept s (s.joinConversation id) := by
  unfold RealtimeSystem.joinConversation
  dsimp only
  split
  · exact { Aside.sendControl (.joinConversation id)
      (s := s.setReferences id (s.references id + 1)) with }
  · exact { Aside.refl s with }

/-- A leave callback changes rooms, not messages. -/
theorem MailKept.leave (join : Nat) : MailKept s (s.leave join) := by
  unfold RealtimeSystem.leave
  split
  · exact (Aside.refl s).toMailKept
  · split
    · exact (Aside.refl s).toMailKept
    · unfold RealtimeSystem.leaveConversation
      dsimp only
      split
      · exact { Aside.refl s with }
      · next k _ _ _ =>
          exact { Aside.sendControl (.leaveConversation k.conversationId)
            (s := (s.deactivate join k).deleteReferences k.conversationId)
            with }

/-- An acknowledgement or an error settles the message it names, if that
still waits. -/
theorem Mailed.socketMessage (hs : Mailed s) (id : Nat)
    (message : ServerMessage) : Mailed (s.socketMessage id message) := by
  unfold RealtimeSystem.socketMessage
  split
  · exact hs
  · cases message with
    | messageAck => exact hs.settleMessage _ _
    | messageError => exact hs.settleMessage _ _
    | other => exact hs

/-- A close rejects all that waits if the socket is current, and otherwise
only marks the socket. -/
theorem Mailed.socketCloses (hs : Mailed s) (hlinked : Linked s)
    (id code : Nat) (reason : String) :
    Mailed (s.socketCloses o id code reason) := by
  by_cases hsocket : s.socket = some id
  · exact (rejected_socketCloses hlinked hsocket code reason).mailed hs
  · have hclosed : Mailed (s.updateSocket id fun w =>
        { w with readyState := .closed }) := hs.congr rfl rfl rfl rfl
    unfold RealtimeSystem.socketCloses
    split
    · exact hs
    · dsimp only
      split
      · exact hclosed
      · unfold handleClose
        rw [if_pos (Or.inl fun h => hsocket h.symm)]
        exact hclosed

/-- Promises, messages and timers agree after every event. -/
theorem Mailed.step (hs : Mailed s) (hlinked : Linked s) (e : Event) :
    Mailed (s.step o e) := by
  cases e with
  | start => exact hs.aside Aside.begin
  | stop => exact (rejected_stop s).mailed hs
  | refreshAuthentication =>
      show Mailed s.refreshAuthentication
      cases henabled : s.enabled with
      | true => exact (rejected_refresh henabled).mailed hs
      | false =>
          unfold refreshAuthentication
          rw [if_pos (by simp [henabled])]
          exact hs
  | setVisible visible => exact hs.aside (Aside.setVisible visible)
  | setOnline online => exact hs.aside (Aside.setOnline online)
  | joinConversation id => exact hs.kept (MailKept.joinConversation id)
  | leave join => exact hs.kept (MailKept.leave join)
  | sendMessage input => exact hs.sendMessage input
  | resolve opening readyState =>
      obtain h | h := Aside.resolve (s := s) opening readyState
      · exact hs.aside h
      · exact hs.congr h.pendingMessages h.ackTimers h.settlements h.sends
  | reject opening error => exact hs.aside (Aside.reject opening error)
  | socketOpens id => exact hs.aside (Aside.socketOpens id)
  | socketMessage id message => exact hs.socketMessage id message
  | socketClosing id => exact hs.congr rfl rfl rfl rfl
  | socketCloses id code reason => exact hs.socketCloses hlinked id code reason
  | reconnectTimer timer => exact hs.aside (Aside.reconnectTimerFires timer)
  | ackTimer send => exact hs.ackTimerFires send

-- =============================================================== orphans

namespace NoOrphans

/-- With the messages and the socket unchanged nothing is orphaned. -/
theorem kept (hs : NoOrphans s) (h : MailKept s s') : NoOrphans s' := by
  intro hsocket m
  rw [h.pendingMessages]
  exact hs (h.socket.symm.trans hsocket) m

/-- What stands aside orphans nothing. -/
theorem aside (hs : NoOrphans s) (h : Aside s s') : NoOrphans s' :=
  hs.kept h.toMailKept

/-- The socket stays, and of the messages that wait none is new. -/
theorem fewer (hs : NoOrphans s) (hsocket : s'.socket = s.socket)
    (hfewer : ∀ m, s.pendingMessages.find? m = none →
      s'.pendingMessages.find? m = none) : NoOrphans s' := by
  intro hnone m
  exact hfewer m (hs (hsocket.symm.trans hnone) m)

/-- Settling removes messages only. -/
theorem settleMessage (hs : NoOrphans s) (id : String)
    (outcome : Settlement) : NoOrphans (s.settleMessage id outcome) := by
  refine hs.fewer (LinkKept.settleMessage id outcome).socket fun m hm => ?_
  rw [find?_settleMessage]
  split
  · rfl
  · exact hm

/-- A message begins to wait only on an open socket. -/
theorem sendMessage (hs : NoOrphans s) (input : RealtimeMessageInput) :
    NoOrphans (s.sendMessage o input) := by
  intro hnone
  rw [(LinkKept.sendMessage o input).socket] at hnone
  -- Without a socket the message is refused at once.
  have hstate : readyState { s with sends := s.sends + 1 } = none := by
    unfold readyState
    rw [hnone]
    rfl
  unfold RealtimeSystem.sendMessage
  dsimp only
  rw [if_pos (by rw [hstate]; exact nofun)]
  exact hs hnone

/-- The socket that closes takes its messages with it. -/
theorem socketCloses (hs : NoOrphans s) (hlinked : Linked s)
    (id code : Nat) (reason : String) :
    NoOrphans (s.socketCloses o id code reason) := by
  by_cases hsocket : s.socket = some id
  · exact fun _ => (rejected_socketCloses hlinked hsocket code reason).idle
  · unfold RealtimeSystem.socketCloses
    split
    · exact hs
    · dsimp only
      split
      · exact hs
      · unfold handleClose
        rw [if_pos (Or.inl fun h => hsocket h.symm)]
        exact hs

/-- A timer removes a message and leaves the socket. -/
theorem ackTimerFires (hs : NoOrphans s) (n : Nat) :
    NoOrphans (s.ackTimerFires n) := by
  refine hs.fewer (LinkKept.ackTimerFires n).socket fun m hm => ?_
  unfold RealtimeSystem.ackTimerFires
  split
  · exact hm
  · next id delay _ =>
      show (s.pendingMessages.remove id).find? m = none
      rw [find?_remove]
      split
      · rfl
      · exact hm

/-- No event leaves a message behind without a socket. -/
theorem step (hs : NoOrphans s) (hlinked : Linked s) (e : Event) :
    NoOrphans (s.step o e) := by
  cases e with
  | start => exact hs.aside Aside.begin
  | stop => exact fun _ => (rejected_stop s).idle
  | refreshAuthentication =>
      show NoOrphans s.refreshAuthentication
      cases henabled : s.enabled with
      | true => exact fun _ => (rejected_refresh henabled).idle
      | false =>
          unfold refreshAuthentication
          rw [if_pos (by simp [henabled])]
          exact hs
  | setVisible visible => exact hs.aside (Aside.setVisible visible)
  | setOnline online => exact hs.aside (Aside.setOnline online)
  | joinConversation id => exact hs.kept (MailKept.joinConversation id)
  | leave join => exact hs.kept (MailKept.leave join)
  | sendMessage input => exact hs.sendMessage input
  | resolve opening readyState =>
      obtain h | h := Aside.resolve (s := s) opening readyState
      · exact hs.aside h
      · intro hnone
        cases h.socket.symm.trans hnone
  | reject opening error => exact hs.aside (Aside.reject opening error)
  | socketOpens id => exact hs.aside (Aside.socketOpens id)
  | socketMessage id message =>
      show NoOrphans (s.socketMessage id message)
      unfold RealtimeSystem.socketMessage
      split
      · exact hs
      · cases message with
        | messageAck => exact hs.settleMessage _ _
        | messageError => exact hs.settleMessage _ _
        | other => exact hs
  | socketClosing id => exact hs
  | socketCloses id code reason => exact hs.socketCloses hlinked id code reason
  | reconnectTimer timer => exact hs.aside (Aside.reconnectTimerFires timer)
  | ackTimer send => exact hs.ackTimerFires send

end NoOrphans

/-- Everything that holds of a client in any state. -/
structure Sound (s : RealtimeSystem) : Prop where
  linked : Linked s
  live : Live s
  mailed : Mailed s
  noOrphans : NoOrphans s

/-- The invariants hold of a new client. -/
theorem Sound.start : Sound start where
  linked := LinkedBut.start
  live h := absurd h.1 Bool.false_ne_true
  mailed := Mailed.start
  noOrphans _ _ := rfl

/-- The invariants hold after every event; those of the messages need the one
of the link. -/
theorem Sound.step (hs : Sound s) (e : Event) : Sound (s.step o e) where
  linked := hs.linked.step e
  live := hs.live.step hs.linked e
  mailed := hs.mailed.step hs.linked e
  noOrphans := hs.noOrphans.step hs.linked e

-- ============================================================== the claim

/-- An opening of an older generation becomes a closed socket that the client
never takes. -/
theorem staleClosed {opening generation : Nat}
    (readyState : SocketState)
    (hopening : s.openings opening = some generation)
    (hstale : generation ≠ s.generation) :
    (s.resolve opening readyState).socket = s.socket
      ∧ ∃ w, (s.resolve opening readyState).sockets opening = some w
        ∧ w.Closed := by
  have heq := resolve_stale readyState hopening fun _ => hstale
  have hsockets : (s.resolve opening readyState).sockets opening
      = some (WebSocket.close 1000 "Stale connection"
          ⟨readyState, [], none, none⟩) := by
    rw [heq, connectSettled_of_ne (s := (s.arrived opening
      readyState).closeSocket (some opening) 1000 "Stale connection") hstale]
    show Function.update (Function.update s.sockets opening _) opening
      ((Function.update s.sockets opening _ opening).map _) opening = _
    rw [Function.update_self, Function.update_self]
    rfl
  refine ⟨?_, _, hsockets, ?_⟩
  · rw [heq]
    exact ((Aside.closeSocket (s := s.arrived opening readyState) _ _
      _).trans (Aside.connectSettled _)).socket
  · exact WebSocket.closed_close _ _ _

/-- A timer that fires settles its promise. -/
theorem timedOut {n : Nat}
    (hn : s.ackTimers n ≠ none) : (s.ackTimerFires n).Settled n := by
  obtain ⟨⟨m, delay⟩, harmed⟩ := Option.ne_none_iff_exists'.mp hn
  unfold ackTimerFires
  rw [harmed]
  exact List.mem_cons_self ..

/-- After a refresh of the authentication no earlier promise is open: a
started client rejects them, and one that is stopped has none. -/
theorem Sound.refreshed (hs : Sound s) {n : Nat} (hn : n < s.sends) :
    s.refreshAuthentication.Settled n := by
  cases henabled : s.enabled with
  | true => exact (rejected_refresh henabled).settled hs.mailed hn
  | false =>
      -- A stopped client has no socket, and so no message that waits.
      have hidle := hs.noOrphans (hs.linked.off henabled).1
      unfold refreshAuthentication
      rw [if_pos (by simp [henabled])]
      exact hs.mailed.settled_of_idle hidle hn

/-- Each law of the protocol from the invariant that carries it. -/
theorem Sound.protocol (hs : Sound s) : Protocol o s where
  oneSocket id w hw hopen := by
    by_contra hsocket
    exact hopen (hs.linked.left id w hw hsocket nofun)
  staleClosed _ _ readyState hopening hstale :=
    RealtimeSystem.staleClosed readyState hopening hstale
  notGivenUp hwanted := by
    obtain hsocket | hinFlight | htimer := hs.live hwanted
    · exact Or.inl hsocket
    · obtain ⟨opening, h⟩ := Option.ne_none_iff_exists'.mp hinFlight
      exact Or.inr (Or.inl ⟨opening, h, (hs.linked.inFlight opening).mp h⟩)
    · obtain ⟨timer, h⟩ := Option.ne_none_iff_exists'.mp htimer
      exact Or.inr (Or.inr ⟨timer, h, (hs.linked.timer timer).mp h⟩)
  oneTimer timer timer' h h' := by
    have hfirst := (hs.linked.timer timer).mpr h
    have hsecond := (hs.linked.timer timer').mpr h'
    exact Option.some.inj (hfirst.symm.trans hsecond)
  settledOnce := hs.mailed.once
  pendingTimed := hs.mailed.all
  timedOut _ hn := RealtimeSystem.timedOut hn
  stopped _ hn := (rejected_stop s).settled hs.mailed hn
  refreshed _ hn := hs.refreshed hn
  disconnected _ code reason hsocket _ hn :=
    (rejected_socketCloses hs.linked hsocket code reason).settled hs.mailed hn

/-- The connection and send protocol holds in every state of every run,
whatever the order of timers, frames, closes and calls of the page.
`protocol_step` has one case for each kind of event, and each of them is an
operation that stands aside or is about one part of the protocol. -/
theorem realtime_protocol (o : RealtimeClientOptions)
    (events : List Event) : Protocol o (run (step o) start events) := by
  have hstep : ∀ s e, Sound s → Sound (step o s e) := fun s e hs => hs.step e
  exact (run_keeps hstep Sound.start events).protocol

end RealtimeSystem

end Skrynia
