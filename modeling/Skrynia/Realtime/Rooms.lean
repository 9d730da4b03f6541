/-
The rooms of the realtime client follow its live joins, as long as no
leave callback comes too late.

# The argument

`roomReferences` counts the joins of a conversation whose callbacks have
not been called. `stop` drops every count, but a callback that was handed
out before still takes one reference when it is first called: it then
takes that of a later join. So the counts are those of the live joins in
exactly the runs in which no such call meets a live join (`InTime`).

What the server believes follows `roomReferences` in any run (`Served`):
a control goes out with each change while the socket is open, and all
joins when it opens.
-/
import Skrynia.Realtime.Protocol

namespace Skrynia

open Relational Stepping Table

/-- A join or a leave of the conversation. -/
def RealtimeFrame.controls (conversationId : String) : RealtimeFrame → Bool
  | joinConversation id => id = conversationId
  | leaveConversation id => id = conversationId
  | message _ => false

/-- The last control for the conversation was a join; `sent` is newest
first. -/
def JoinedAt (sent : List RealtimeFrame) (conversationId : String) : Prop :=
  sent.find? (RealtimeFrame.controls conversationId)
    = some (.joinConversation conversationId)

/-- A server that was told nothing has nobody in a room. -/
theorem joinedAt_nil (c : String) : ¬ JoinedAt [] c := nofun

/-- A join puts its room in and leaves the others as they were. -/
theorem joinedAt_join {sent : List RealtimeFrame} {id c : String} :
    JoinedAt (.joinConversation id :: sent) c ↔ c = id ∨ JoinedAt sent c := by
  unfold JoinedAt
  rw [List.find?_cons]
  by_cases h : id = c
  · subst h
    simp [RealtimeFrame.controls]
  · simp [RealtimeFrame.controls, h, Ne.symm h]

/-- A leave takes its room out and leaves the others as they were. -/
theorem joinedAt_leave {sent : List RealtimeFrame} {id c : String} :
    JoinedAt (.leaveConversation id :: sent) c ↔ JoinedAt sent c ∧ c ≠ id := by
  unfold JoinedAt
  rw [List.find?_cons]
  by_cases h : id = c
  · subst h
    simp [RealtimeFrame.controls]
  · simp [RealtimeFrame.controls, h, Ne.symm h]

/-- A message is no control. -/
theorem joinedAt_message {sent : List RealtimeFrame}
    {input : RealtimeMessageInput} {c : String} :
    JoinedAt (.message input :: sent) c ↔ JoinedAt sent c := Iff.rfl

/-- After joins alone the rooms are those that were joined. -/
theorem joinedAt_joins {ids : List String} {c : String} :
    JoinedAt (ids.map .joinConversation) c ↔ c ∈ ids := by
  induction ids with
  | nil => exact ⟨fun h => absurd h (joinedAt_nil c), fun h => by cases h⟩
  | cons id ids ih => rw [List.map_cons, joinedAt_join, ih, List.mem_cons]

namespace RealtimeSystem

variable {o : RealtimeClientOptions} {s s' s'' : RealtimeSystem}

-- ================================================================== laws

/-- The join of this callback is live. -/
def LeaveCallback.live (conversationId : String) (k : LeaveCallback) :
    Bool :=
  decide (k.conversationId = conversationId) && k.active && k.sinceStop

/-- How many joins of the conversation since the last stop have not been
left. -/
def joins (s : RealtimeSystem) (conversationId : String) : Nat :=
  s.callbacks.countP (LeaveCallback.live conversationId)

/-- Some join of the conversation since the last stop has not been
left. -/
def Joined (s : RealtimeSystem) (conversationId : String) : Prop :=
  ∃ k ∈ s.callbacks, k.conversationId = conversationId ∧ k.active = true
    ∧ k.sinceStop = true

/-- What the claim says of one state: the rooms of the client and those of
the server are the rooms with a live join. -/
structure FollowsJoins (s : RealtimeSystem) : Prop where
  rooms : ∀ c, s.roomReferences.Has c ↔ s.Joined c
  server : ∀ id w, s.socket = some id → s.sockets id = some w →
    w.readyState = .opened → ∀ c, JoinedAt w.sent c ↔ s.Joined c

/-- The references are those of the live joins. -/
def CountsJoins (s : RealtimeSystem) : Prop :=
  ∀ c, s.references c = s.joins c

/-- A callback from before the last stop is first called only while no
join of its conversation is live. -/
def InTime (s : RealtimeSystem) : Event → Prop
  | .leave join => ∀ k, s.callbacks[join]? = some k → k.active = true →
      k.sinceStop = false → ¬ s.Joined k.conversationId
  | _ => True

/-- A room has a live join when their number is not zero. -/
theorem joined_iff {c : String} : s.Joined c ↔ 0 < s.joins c := by
  unfold Joined joins
  rw [List.countP_pos_iff]
  simp only [LeaveCallback.live, Bool.and_eq_true, decide_eq_true_eq,
    and_assoc]

-- ============================================================= the counts

/-- No conversation has a reference that counts nothing. -/
def Positive (s : RealtimeSystem) : Prop :=
  ∀ c r, s.roomReferences.find? c = some r → 0 < r.count

/-- A room is there when its count is not zero: no row has the count zero. -/
theorem Positive.has_iff (hs : Positive s) {c : String} :
    s.roomReferences.Has c ↔ 0 < s.references c := by
  unfold references
  rw [Table.has_iff]
  cases hc : s.roomReferences.find? c with
  | none => exact ⟨nofun, fun h => absurd h (lt_irrefl 0)⟩
  | some r => exact ⟨fun _ => hs c r hc, fun _ => ⟨r, rfl⟩⟩

/-- Rooms and callbacks stay as they are. -/
structure RoomsKept (s s' : RealtimeSystem) : Prop where
  roomReferences : s'.roomReferences = s.roomReferences
  callbacks : s'.callbacks = s.callbacks

namespace RoomsKept

/-- A state keeps its own rooms. -/
theorem refl (s : RealtimeSystem) : RoomsKept s s := ⟨rfl, rfl⟩

/-- Two operations that keep the rooms keep them one after the other. -/
theorem trans (h : RoomsKept s s') (h' : RoomsKept s' s'') :
    RoomsKept s s'' :=
  ⟨h'.roomReferences.trans h.roomReferences, h'.callbacks.trans h.callbacks⟩

/-- What stands aside keeps the rooms. -/
theorem of (h : Aside s s') : RoomsKept s s' :=
  ⟨h.roomReferences, h.callbacks⟩

/-- Messages come and go beside the rooms. -/
theorem settleMessage (id : String) (outcome : Settlement) :
    RoomsKept s (s.settleMessage id outcome) := by
  unfold RealtimeSystem.settleMessage
  split
  · exact refl s
  · exact ⟨rfl, rfl⟩

/-- Rejections tell the server nothing. -/
theorem rejectPending (error : RealtimeMessageError) :
    RoomsKept s (s.rejectPending error) :=
  run_relates refl trans (fun _ id => settleMessage id _) s _

/-- A call of `sendMessage` counts no room. -/
theorem sendMessage (input : RealtimeMessageInput) :
    RoomsKept s (s.sendMessage o input) := by
  unfold RealtimeSystem.sendMessage
  dsimp only
  split
  · exact ⟨rfl, rfl⟩
  · split
    · exact ⟨rfl, rfl⟩
    · have hawait : RoomsKept s (awaitAck o { s with sends := s.sends + 1 }
          input.clientMessageId s.sends) := ⟨rfl, rfl⟩
      exact hawait.trans (of (Aside.send _))

/-- A message of the server counts no room. -/
theorem socketMessage (id : Nat) (message : ServerMessage) :
    RoomsKept s (s.socketMessage id message) := by
  unfold RealtimeSystem.socketMessage
  split
  · exact refl s
  · cases message with
    | messageAck => exact settleMessage _ _
    | messageError => exact settleMessage _ _
    | other => exact refl s

/-- A missing acknowledgement leaves the rooms. -/
theorem ackTimerFires (n : Nat) : RoomsKept s (s.ackTimerFires n) := by
  unfold RealtimeSystem.ackTimerFires
  split
  · exact refl s
  · exact ⟨rfl, rfl⟩

/-- A refresh keeps the rooms for the socket to come; only `stop` drops
them. -/
theorem refreshAuthentication : RoomsKept s s.refreshAuthentication := by
  unfold RealtimeSystem.refreshAuthentication
  split
  · exact refl s
  · dsimp only
    have hclear := Aside.clearReconnectTimer (s := { s with
      terminal := false
      generation := s.generation + 1 })
    have hbase : RoomsKept s { clearReconnectTimer
        { s with terminal := false, generation := s.generation + 1 } with
        socket := none
        connectInFlight := none } :=
      ⟨hclear.roomReferences, hclear.callbacks⟩
    refine (hbase.trans (rejectPending authRefreshed)).trans (of ?_)
    exact ((Aside.closeSocket _ _ _).trans (Aside.updateSnapshot _)).trans
      Aside.connect

/-- The socket that is taken is told the rooms, which stay as they are. -/
theorem resolve (opening : Nat) (readyState : SocketState) :
    RoomsKept s (s.resolve opening readyState) := by
  obtain h | h := Aside.resolve (s := s) opening readyState
  · exact of h
  · exact ⟨h.roomReferences, h.callbacks⟩

/-- A close keeps the rooms for the next socket. -/
theorem handleClose (socket generation code : Nat) (reason : String) :
    RoomsKept s (s.handleClose o socket generation code reason) := by
  unfold RealtimeSystem.handleClose
  split
  · exact refl s
  · dsimp only
    have hleft : RoomsKept s { s with socket := none } := ⟨rfl, rfl⟩
    have hrejected := hleft.trans (rejectPending (connectionClosed code))
    split
    · exact hrejected
    · split
      · refine hrejected.trans (of ?_)
        exact { Aside.requestRevalidation o with }
      · exact hrejected.trans (of (Aside.scheduleReconnect _ _))

/-- So does the close of any socket. -/
theorem socketCloses (id code : Nat) (reason : String) :
    RoomsKept s (s.socketCloses o id code reason) := by
  unfold RealtimeSystem.socketCloses
  split
  · exact refl s
  · dsimp only
    split
    · exact ⟨rfl, rfl⟩
    · have hclosed : RoomsKept s (s.updateSocket id fun w =>
          { w with readyState := .closed }) := ⟨rfl, rfl⟩
      exact hclosed.trans (handleClose _ _ _ _)

/-- Apart from dropping the rooms `stop` keeps them. -/
theorem stop : RoomsKept s.clearRooms s.stop := by
  unfold RealtimeSystem.stop
  split
  · exact rejectPending _
  · dsimp only
    have hclear := Aside.clearReconnectTimer (s := { s with
      enabled := false
      terminal := false
      terminalAuthenticationRevalidationRequested := false
      generation := s.generation + 1 })
    have hbase : RoomsKept s.clearRooms (clearRooms { clearReconnectTimer
        { s with
          enabled := false
          terminal := false
          terminalAuthenticationRevalidationRequested := false
          generation := s.generation + 1 } with
        socket := none
        connectInFlight := none }) :=
      ⟨rfl, congrArg (List.map _) hclear.callbacks⟩
    refine (hbase.trans (rejectPending sessionEnded)).trans (of ?_)
    exact (Aside.closeSocket _ _ _).trans (Aside.updateSnapshot _)

/-- The count of a room is read off the rooms. -/
theorem references (h : RoomsKept s s') (c : String) :
    s'.references c = s.references c := by
  unfold RealtimeSystem.references
  rw [h.roomReferences]

/-- The number of live joins is read off the callbacks. -/
theorem joins (h : RoomsKept s s') (c : String) :
    s'.joins c = s.joins c := by
  unfold RealtimeSystem.joins
  rw [h.callbacks]

/-- No row has the count zero, wherever the rooms are the same. -/
theorem positive (h : RoomsKept s s') (hs : Positive s) : Positive s' := by
  unfold Positive
  rw [h.roomReferences]
  exact hs

/-- The law is about rooms and callbacks alone. -/
theorem countsJoins (h : RoomsKept s s') :
    CountsJoins s' ↔ CountsJoins s := by
  unfold CountsJoins
  refine forall_congr' fun c => ?_
  rw [h.references, h.joins]

end RoomsKept

-- ====================================================== joins and leaves

/-- The count that was set, and the others as before. -/
theorem references_setReferences (s : RealtimeSystem) (id c : String)
    (count : Nat) :
    (s.setReferences id count).references c
      = if id = c then count else s.references c := by
  show (((s.roomReferences.put ⟨id, count⟩).find? c).map
    RoomReference.count).getD 0 = _
  rw [find?_put]
  by_cases h : id = c
  · rw [if_pos h, if_pos h]
    rfl
  · rw [if_neg h, if_neg h]
    rfl

/-- A room that was deleted counts zero. -/
theorem references_deleteReferences (s : RealtimeSystem) (id c : String) :
    (s.deleteReferences id).references c
      = if id = c then 0 else s.references c := by
  show (((s.roomReferences.remove id).find? c).map
    RoomReference.count).getD 0 = _
  rw [find?_remove]
  by_cases h : id = c
  · rw [if_pos h, if_pos h]
    rfl
  · rw [if_neg h, if_neg h]
    rfl

/-- A join adds one to its room. -/
theorem references_joinConversation (s : RealtimeSystem) (id c : String) :
    (s.joinConversation id).references c
      = if id = c then s.references id + 1 else s.references c := by
  rw [← references_setReferences]
  unfold joinConversation
  dsimp only
  split
  · exact (RoomsKept.of (Aside.sendControl _)).references c
  · rfl

/-- A join adds one live callback to its room. -/
theorem joins_joinConversation (s : RealtimeSystem) (id c : String) :
    (s.joinConversation id).joins c
      = if id = c then s.joins id + 1 else s.joins c := by
  have hcallbacks : (s.joinConversation id).callbacks
      = s.callbacks ++ [⟨id, true, true⟩] := by
    unfold joinConversation
    dsimp only
    split
    · exact congrArg (· ++ _) (Aside.sendControl _
        (s := s.setReferences id (s.references id + 1))).callbacks
    · rfl
  unfold joins
  rw [hcallbacks, List.countP_append, List.countP_singleton]
  by_cases h : id = c
  · subst h
    simp [LeaveCallback.live]
  · simp [LeaveCallback.live, h]

/-- A positive count may be set. -/
theorem positive_setReferences (hs : Positive s) (id : String)
    {count : Nat} (hcount : 0 < count) :
    Positive (s.setReferences id count) := by
  intro c r hr
  rw [show (s.setReferences id count).roomReferences
    = s.roomReferences.put ⟨id, count⟩ from rfl, find?_put] at hr
  split at hr
  · cases hr
    exact hcount
  · exact hs c r hr

/-- A join sets a count above zero. -/
theorem positive_joinConversation (hs : Positive s) (id : String) :
    Positive (s.joinConversation id) := by
  have hset := positive_setReferences hs id
    (Nat.succ_pos (s.references id))
  unfold joinConversation
  dsimp only
  split
  · exact (RoomsKept.of (Aside.sendControl _)).positive hset
  · exact hset

/-- A leave takes one from its room, and nothing where there is none. -/
theorem references_leaveConversation (s : RealtimeSystem) (id c : String) :
    (s.leaveConversation id).references c
      = if id = c then s.references id - 1 else s.references c := by
  unfold leaveConversation
  dsimp only
  split
  · exact references_setReferences s id c _
  · next h =>
      rw [(RoomsKept.of (Aside.sendControl _)).references,
        references_deleteReferences]
      split
      · omega
      · rfl

/-- A leave hands out no callback. -/
theorem callbacks_leaveConversation (s : RealtimeSystem) (id : String) :
    (s.leaveConversation id).callbacks = s.callbacks := by
  unfold leaveConversation
  dsimp only
  split
  · rfl
  · exact (Aside.sendControl _
      (s := s.deleteReferences id)).callbacks

/-- A leave deletes the row rather than setting the count zero. -/
theorem positive_leaveConversation (hs : Positive s) (id : String) :
    Positive (s.leaveConversation id) := by
  unfold leaveConversation
  dsimp only
  split
  · exact positive_setReferences hs id (by omega)
  · refine (RoomsKept.of (Aside.sendControl _)).positive ?_
    intro c r hr
    rw [show (s.deleteReferences id).roomReferences
      = s.roomReferences.remove id from rfl, find?_remove] at hr
    split at hr
    · cases hr
    · exact hs c r hr

/-- The first call of a callback, and every other event of it. -/
theorem leave_cases (s : RealtimeSystem) (join : Nat) :
    s.leave join = s
        ∧ (∀ k, s.callbacks[join]? = some k → k.active = false)
      ∨ ∃ k, s.callbacks[join]? = some k ∧ k.active = true
        ∧ s.leave join
          = (s.deactivate join k).leaveConversation k.conversationId := by
  unfold leave
  cases hk : s.callbacks[join]? with
  | none => exact Or.inl ⟨rfl, nofun⟩
  | some k =>
      cases hactive : k.active with
      | true => exact Or.inr ⟨k, rfl, hactive, by simp [hactive]⟩
      | false =>
          refine Or.inl ⟨by simp [hactive], fun k' hk' => ?_⟩
          cases hk'
          exact hactive

/-- A live join goes with the first call of its callback. -/
theorem joins_deactivate {join : Nat} {k : LeaveCallback}
    (hk : s.callbacks[join]? = some k) (hactive : k.active = true)
    (c : String) :
    (s.deactivate join k).joins c
      = s.joins c - if k.conversationId = c ∧ k.sinceStop = true then 1
        else 0 := by
  obtain ⟨hlt, hget⟩ := List.getElem?_eq_some_iff.mp hk
  show (s.callbacks.set join { k with active := false }).countP _ = _
  rw [List.countP_set hlt, hget]
  simp [LeaveCallback.live, hactive, joins]

/-- A callback keeps the counts right just when it is in time: a dead one
takes the reference of a live join. -/
theorem countsJoins_leave_iff (hs : CountsJoins s) (join : Nat) :
    CountsJoins (s.leave join) ↔ s.InTime (.leave join) := by
  obtain ⟨heq, hinactive⟩ | ⟨k, hk, hactive, heq⟩ := leave_cases s join
  · rw [heq]
    refine ⟨fun _ k hk hactive => ?_, fun _ => hs⟩
    cases (hinactive k hk).symm.trans hactive
  · rw [heq]
    have hreferences : ∀ c, ((s.deactivate join k).leaveConversation
        k.conversationId).references c
          = if k.conversationId = c then s.joins c - 1 else s.joins c := by
      intro c
      rw [references_leaveConversation]
      show (if _ then s.references k.conversationId - 1
        else s.references c) = _
      split
      · next h => rw [hs, h]
      · exact hs c
    have hjoins : ∀ c, ((s.deactivate join k).leaveConversation
        k.conversationId).joins c
          = s.joins c - if k.conversationId = c ∧ k.sinceStop = true then 1
            else 0 := by
      intro c
      rw [← joins_deactivate hk hactive]
      unfold joins
      rw [callbacks_leaveConversation]
    have hin : s.InTime (.leave join)
        ↔ (k.sinceStop = false → s.joins k.conversationId = 0) := by
      unfold InTime
      constructor
      · intro h hstale
        have hnone := h k hk hactive hstale
        rw [joined_iff] at hnone
        omega
      · intro h k' hk' _ hstale
        cases hk.symm.trans hk'
        rw [joined_iff, h hstale]
        exact lt_irrefl 0
    rw [hin]
    constructor
    · intro hafter hstale
      have hc := hafter k.conversationId
      rw [hreferences, hjoins, if_pos rfl, hstale] at hc
      simp only [Bool.false_eq_true, and_false, if_false] at hc
      omega
    · intro h c
      rw [hreferences, hjoins]
      by_cases hc : k.conversationId = c
      · subst hc
        cases hsince : k.sinceStop with
        | true => simp
        | false => simp [h hsince]
      · simp [hc]

/-- A join counts one reference and one callback. -/
theorem countsJoins_joinConversation (hs : CountsJoins s) (id : String) :
    CountsJoins (s.joinConversation id) := by
  intro c
  rw [references_joinConversation, joins_joinConversation, hs, hs]

/-- After `stop` there is no reference and no live callback. -/
theorem countsJoins_clearRooms (s : RealtimeSystem) :
    CountsJoins s.clearRooms := by
  intro c
  have hnone : s.clearRooms.joins c = 0 := by
    show (s.callbacks.map fun k => { k with sinceStop := false }).countP _ = 0
    rw [List.countP_eq_zero]
    intro k hk
    obtain ⟨k₀, -, rfl⟩ := List.mem_map.mp hk
    simp [LeaveCallback.live]
  rw [hnone]
  rfl

/-- Every event but these leaves rooms and callbacks alone. -/
theorem step_rooms (s : RealtimeSystem) (e : Event) :
    RoomsKept s (s.step o e) ∨ e = .stop ∨ (∃ id, e = .joinConversation id)
      ∨ ∃ join, e = .leave join := by
  cases e with
  | start => exact Or.inl (.of Aside.begin)
  | stop => exact Or.inr (Or.inl rfl)
  | refreshAuthentication => exact Or.inl .refreshAuthentication
  | setVisible visible => exact Or.inl (.of (Aside.setVisible visible))
  | setOnline online => exact Or.inl (.of (Aside.setOnline online))
  | joinConversation id => exact Or.inr (Or.inr (Or.inl ⟨id, rfl⟩))
  | leave join => exact Or.inr (Or.inr (Or.inr ⟨join, rfl⟩))
  | sendMessage input => exact Or.inl (.sendMessage input)
  | resolve opening readyState => exact Or.inl (.resolve opening readyState)
  | reject opening error => exact Or.inl (.of (Aside.reject opening error))
  | socketOpens id => exact Or.inl (.of (Aside.socketOpens id))
  | socketMessage id message => exact Or.inl (.socketMessage id message)
  | socketClosing id => exact Or.inl ⟨rfl, rfl⟩
  | socketCloses id code reason =>
      exact Or.inl (.socketCloses id code reason)
  | reconnectTimer timer =>
      exact Or.inl (.of (Aside.reconnectTimerFires timer))
  | ackTimer send => exact Or.inl (.ackTimerFires send)

/-- No event leaves a row with the count zero. -/
theorem Positive.step (hs : Positive s) (e : Event) :
    Positive (s.step o e) := by
  obtain h | rfl | ⟨id, rfl⟩ | ⟨join, rfl⟩ := step_rooms (o := o) s e
  · exact h.positive hs
  · exact RoomsKept.stop.positive nofun
  · exact positive_joinConversation hs id
  · show Positive (s.leave join)
    obtain ⟨heq, -⟩ | ⟨k, -, -, heq⟩ := leave_cases s join
    · rw [heq]
      exact hs
    · rw [heq]
      exact positive_leaveConversation (s := s.deactivate join k) hs _

/-- Of all events only a callback that comes late breaks the counts. -/
theorem countsJoins_step_iff (hs : CountsJoins s) (e : Event) :
    CountsJoins (s.step o e) ↔ s.InTime e := by
  obtain h | rfl | ⟨id, rfl⟩ | ⟨join, rfl⟩ := step_rooms (o := o) s e
  · cases e with
    | leave join => exact countsJoins_leave_iff hs join
    | _ => exact ⟨fun _ => trivial, fun _ => h.countsJoins.mpr hs⟩
  · exact ⟨fun _ => trivial,
      fun _ => RoomsKept.stop.countsJoins.mpr (countsJoins_clearRooms s)⟩
  · exact ⟨fun _ => trivial, fun _ => countsJoins_joinConversation hs id⟩
  · exact countsJoins_leave_iff hs join

-- ============================================================= the server

/-- What the server was told agrees with the rooms, once the socket is
open; before that it was told nothing. -/
structure Served (s : RealtimeSystem) : Prop where
  quiet : ∀ id w, s.sockets id = some w → w.readyState = .connecting →
    w.sent = []
  told : ∀ id w, s.socket = some id → s.sockets id = some w →
    w.readyState = .opened →
    ∀ c, JoinedAt w.sent c ↔ s.roomReferences.Has c

/-- A socket goes on and was told nothing new of a conversation. -/
def ToldNothing (w w' : WebSocket) : Prop :=
  (w'.readyState = .connecting → w.readyState = .connecting
      ∧ w'.sent = w.sent)
    ∧ (w'.readyState = .opened → w.readyState = .opened
      ∧ ∀ c, JoinedAt w'.sent c ↔ JoinedAt w.sent c)

/-- A socket that nothing happens to was told nothing. -/
theorem ToldNothing.refl (w : WebSocket) : ToldNothing w w :=
  ⟨fun h => ⟨h, rfl⟩, fun h => ⟨h, fun _ => Iff.rfl⟩⟩

/-- What a closed socket was told does not count. -/
theorem ToldNothing.of_closed {w w' : WebSocket} (h : w'.Closed) :
    ToldNothing w w' := by
  unfold ToldNothing
  obtain h | h := h
  · rw [h]
    exact ⟨nofun, nofun⟩
  · rw [h]
    exact ⟨nofun, nofun⟩

namespace Served

/-- The sockets that are left were told nothing, and the rooms and the
current socket are the same. -/
theorem kept (hs : Served s)
    (hrooms : s'.roomReferences = s.roomReferences)
    (hsocket : s'.socket = s.socket)
    (hsockets : ∀ id w', s'.sockets id = some w' →
      w'.Closed ∨ ∃ w, s.sockets id = some w ∧ ToldNothing w w') :
    Served s' where
  quiet id w' hw' hstate := by
    obtain hclosed | ⟨w, hw, htold⟩ := hsockets id w' hw'
    · have hquiet := (ToldNothing.of_closed hclosed (w := ⟨.opened, [],
        none, none⟩)).1 hstate
      cases hquiet.1
    · obtain ⟨hstate', hsent⟩ := htold.1 hstate
      rw [hsent]
      exact hs.quiet id w hw hstate'
  told id w' hid hw' hstate := by
    obtain hclosed | ⟨w, hw, htold⟩ := hsockets id w' hw'
    · have hopened := (ToldNothing.of_closed hclosed (w := ⟨.connecting, [],
        none, none⟩)).2 hstate
      cases hopened.1
    · obtain ⟨hstate', hjoined⟩ := htold.2 hstate
      intro c
      rw [hjoined, hrooms]
      exact hs.told id w (hsocket.symm.trans hid) hw hstate' c

/-- One socket was told nothing. -/
theorem updateSocket (hs : Served s) (id : Nat) {f : WebSocket → WebSocket}
    (hf : ∀ w, s.sockets id = some w → ToldNothing w (f w)) :
    Served (s.updateSocket id f) := by
  refine hs.kept rfl rfl fun id' w' hw' => ?_
  obtain ⟨rfl, hw'⟩ | ⟨-, hw'⟩ := update_cases hw'
  · obtain ⟨w, hw, rfl⟩ := Option.map_eq_some_iff.mp hw'
    exact Or.inr ⟨w, hw, hf w hw⟩
  · exact Or.inr ⟨w', hw', ToldNothing.refl w'⟩

/-- With rooms and sockets unchanged the server's rooms are right as
before. -/
theorem same (hs : Served s) (hrooms : s'.roomReferences = s.roomReferences)
    (hsocket : s'.socket = s.socket) (hsockets : s'.sockets = s.sockets) :
    Served s' := by
  refine hs.kept hrooms hsocket fun id w' hw' => ?_
  rw [hsockets] at hw'
  exact Or.inr ⟨w', hw', ToldNothing.refl w'⟩

/-- A closed socket owes the server nothing. -/
theorem closeSocket (hs : Served s) (socket : Option Nat) (code : Nat)
    (reason : String) : Served (s.closeSocket socket code reason) := by
  cases socket with
  | none => exact hs
  | some id =>
      exact hs.updateSocket id fun w _ =>
        ToldNothing.of_closed (WebSocket.closed_close code reason w)

end Served

/-- What a control does: the current socket takes it, or is not open. -/
theorem sendControl_cases {id : Nat} {w : WebSocket}
    (hsocket : s.socket = some id) (hw : s.sockets id = some w)
    (frame : RealtimeFrame) :
    ∃ w', (s.sendControl frame).sockets
        = Function.update s.sockets id (some w')
      ∧ (w.readyState ≠ .opened ∧ w' = w ∨ w.readyState = .opened
        ∧ w'.readyState = .opened ∧ w'.sent = frame :: w.sent) := by
  have hstate : s.readyState = some w.readyState := by
    unfold readyState
    rw [hsocket]
    show (s.sockets id).map _ = _
    rw [hw]
    rfl
  unfold sendControl
  by_cases hopened : w.readyState = .opened
  · rw [if_neg (by rw [hstate, hopened]; exact fun h => h rfl)]
    unfold send
    rw [hsocket]
    refine ⟨{ w with sent := frame :: w.sent }, ?_,
      Or.inr ⟨hopened, hopened, rfl⟩⟩
    show Function.update s.sockets id ((s.sockets id).map _) = _
    rw [hw]
    rfl
  · refine ⟨w, ?_, Or.inl ⟨hopened, rfl⟩⟩
    rw [if_pos (by rw [hstate]; exact fun h => hopened (Option.some.inj h))]
    rw [← hw, Function.update_eq_self]

/-- Without an open socket a control is dropped. -/
theorem sendControl_of_not_opened (h : s.readyState ≠ some .opened)
    (frame : RealtimeFrame) : s.sendControl frame = s := if_pos h

/-- Without a socket there is none that is open. -/
theorem readyState_of_none (hsocket : s.socket = none) :
    s.readyState ≠ some .opened := by
  unfold readyState
  rw [hsocket]
  exact nofun

/-- The joins of `handleOpen`: the current socket takes them all. -/
theorem sendJoins_cases {id : Nat} (ids : List String) {w : WebSocket}
    (hsocket : s.socket = some id) (hw : s.sockets id = some w)
    (hopened : w.readyState = .opened) :
    ∃ w', (ids.foldl (fun s c => s.sendControl (.joinConversation c))
        s).sockets = Function.update s.sockets id (some w')
      ∧ w'.readyState = .opened
      ∧ w'.sent = ids.reverse.map .joinConversation ++ w.sent := by
  induction ids generalizing s w with
  | nil =>
      refine ⟨w, ?_, hopened, rfl⟩
      rw [← hw, Function.update_eq_self]
      rfl
  | cons c ids ih =>
      obtain ⟨w₁, hsockets₁, hcontrol⟩ :=
        sendControl_cases hsocket hw (.joinConversation c)
      have hsocket₁ : (s.sendControl (.joinConversation c)).socket
          = some id := (Aside.sendControl _).socket.trans hsocket
      have hw₁ : (s.sendControl (.joinConversation c)).sockets id
          = some w₁ := by
        rw [hsockets₁]
        exact Function.update_self ..
      rw [List.foldl_cons]
      obtain ⟨hnot, -⟩ | ⟨-, hopened₁, hsent₁⟩ := hcontrol
      · exact absurd hopened hnot
      · obtain ⟨w', hsockets, hopened', hsent⟩ := ih hsocket₁ hw₁ hopened₁
        refine ⟨w', ?_, hopened', ?_⟩
        · rw [hsockets, hsockets₁, Function.update_idem]
        · rw [hsent, hsent₁, List.reverse_cons, List.map_append,
            List.append_assoc]
          rfl

/-- A fresh socket is told all rooms when it opens. -/
theorem served_handleOpen {id : Nat} {w : WebSocket}
    (hquiet : ∀ id' w', s.sockets id' = some w' →
      w'.readyState = .connecting → w'.sent = [])
    (hsocket : s.socket = some id) (hw : s.sockets id = some w)
    (hopened : w.readyState = .opened) (hsent : w.sent = []) :
    Served (s.handleOpen id s.generation) := by
  have haside := Aside.handleOpen (s := s) id s.generation
  have hend : ∃ w', (s.handleOpen id s.generation).sockets
        = Function.update s.sockets id (some w')
      ∧ w'.readyState = .opened
      ∧ w'.sent = (s.roomReferences.rows.map
          RoomReference.conversationId).reverse.map .joinConversation := by
    unfold handleOpen
    rw [if_neg (by rintro (h | h); exacts [h hsocket.symm, h rfl])]
    dsimp only
    obtain ⟨w', hsockets, hend⟩ := sendJoins_cases
      (s := updateSnapshot
        { s with terminalAuthenticationRevalidationRequested := false }
        ⟨.connected, 0, none⟩)
      (s.roomReferences.rows.map RoomReference.conversationId)
      hsocket hw hopened
    rw [hsent, List.append_nil] at hend
    exact ⟨w', hsockets, hend⟩
  obtain ⟨w', hsockets, hend⟩ := hend
  constructor
  · intro id' w₁ hw₁ hstate
    rw [hsockets] at hw₁
    obtain ⟨-, heq⟩ | ⟨-, hw₁⟩ := update_cases hw₁
    · cases heq
      cases hstate.symm.trans hend.1
    · exact hquiet id' w₁ hw₁ hstate
  · intro id' w₁ hid' hw₁ hstate c
    cases (haside.socket.trans hsocket).symm.trans hid'
    rw [hsockets, Function.update_self] at hw₁
    cases hw₁
    rw [haside.roomReferences]
    rw [hend.2, joinedAt_joins, List.mem_reverse]
    rfl

/-- A control goes out with the change of the rooms that it announces. -/
theorem Served.announce (hs : Served s) (hlinked : Linked s)
    (hsocket : s'.socket = s.socket) (hsockets : s'.sockets = s.sockets)
    (frame : RealtimeFrame)
    (hframe : ∀ sent, (∀ c, JoinedAt sent c ↔ s.roomReferences.Has c) →
      ∀ c, JoinedAt (frame :: sent) c ↔ s'.roomReferences.Has c) :
    Served (s'.sendControl frame) := by
  have haside := Aside.sendControl (s := s') frame
  have hquiet : ∀ id w, s'.sockets id = some w →
      w.readyState = .connecting → w.sent = [] := by
    rw [hsockets]
    exact hs.quiet
  cases hid : s'.socket with
  | none =>
      rw [sendControl_of_not_opened (readyState_of_none hid)]
      refine ⟨hquiet, fun id w hid' => ?_⟩
      cases hid.symm.trans hid'
  | some id =>
      have hid₀ := hsocket.symm.trans hid
      obtain ⟨w, hw, -⟩ := hlinked.current id hid₀
      have hw' : s'.sockets id = some w := (congrFun hsockets id).trans hw
      obtain ⟨w', hsockets', hcontrol⟩ := sendControl_cases hid hw' frame
      constructor
      · intro id₁ w₁ hw₁ hstate
        rw [hsockets'] at hw₁
        obtain ⟨rfl, heq⟩ | ⟨-, hw₁⟩ := update_cases hw₁
        · cases heq
          obtain ⟨-, rfl⟩ | ⟨-, hc, -⟩ := hcontrol
          · exact hquiet id₁ w' hw' hstate
          · cases hstate.symm.trans hc
        · exact hquiet id₁ w₁ hw₁ hstate
      · intro id₁ w₁ hid₁ hw₁ hstate c
        cases (haside.socket.trans hid).symm.trans hid₁
        rw [hsockets', Function.update_self] at hw₁
        cases hw₁
        rw [haside.roomReferences]
        obtain ⟨hnot, rfl⟩ | ⟨hopened, -, hsent⟩ := hcontrol
        · exact absurd hstate hnot
        · rw [hsent]
          exact hframe w.sent (hs.told id w hid₀ hw hopened) c

/-- A room with a count has a row. -/
theorem has_of_references {id : String} (h : s.references id ≠ 0) :
    s.roomReferences.Has id := by
  rw [Table.has_iff]
  cases hr : s.roomReferences.find? id with
  | none =>
      refine absurd ?_ h
      unfold references
      rw [hr]
      rfl
  | some r => exact ⟨r, rfl⟩

/-- Another count of a room that is there. -/
theorem Served.setReferences (hs : Served s) {id : String}
    (hold : s.roomReferences.Has id) (count : Nat) :
    Served (s.setReferences id count) := by
  have hhas : ∀ c, (s.setReferences id count).roomReferences.Has c
      ↔ s.roomReferences.Has c ∨ c = id := fun c => has_put
  refine ⟨hs.quiet, fun id' w hid' hw hstate c => ?_⟩
  refine (hs.told id' w hid' hw hstate c).trans
    (Iff.trans ⟨Or.inl, ?_⟩ (hhas c).symm)
  intro h'
  rcases h' with h | rfl
  · exact h
  · exact hold

/-- The first join of a room is announced, a further one changes only its
count. -/
theorem Served.joinConversation (hs : Served s) (hlinked : Linked s)
    (id : String) : Served (s.joinConversation id) := by
  unfold RealtimeSystem.joinConversation
  dsimp only
  split
  · have hframe : ∀ sent, (∀ c, JoinedAt sent c ↔ s.roomReferences.Has c) →
        ∀ c, JoinedAt (.joinConversation id :: sent) c
          ↔ (s.setReferences id (s.references id + 1)).roomReferences.Has c := by
      intro sent hsent c
      have hhas : (s.setReferences id (s.references id + 1)).roomReferences.Has c
          ↔ s.roomReferences.Has c ∨ c = id := has_put
      rw [joinedAt_join, hsent, hhas, or_comm]
    have hsocket : (s.setReferences id (s.references id + 1)).socket
        = s.socket := rfl
    have htold : Served ((s.setReferences id (s.references id + 1)
        ).sendControl (.joinConversation id)) :=
      hs.announce hlinked hsocket rfl _ hframe
    exact htold.same rfl rfl rfl
  · next hcount =>
      exact (hs.setReferences (has_of_references hcount) _).same rfl rfl rfl

/-- The last leave of a room is announced. -/
theorem Served.leaveConversation (hs : Served s) (hlinked : Linked s)
    (id : String) : Served (s.leaveConversation id) := by
  unfold RealtimeSystem.leaveConversation
  dsimp only
  split
  · next hcount =>
      exact hs.setReferences (has_of_references (by omega)) _
  · have hframe : ∀ sent, (∀ c, JoinedAt sent c ↔ s.roomReferences.Has c) →
        ∀ c, JoinedAt (.leaveConversation id :: sent) c
          ↔ (s.deleteReferences id).roomReferences.Has c := by
      intro sent hsent c
      rw [joinedAt_leave, hsent]
      exact has_remove.symm
    have hsocket : (s.deleteReferences id).socket = s.socket := rfl
    exact hs.announce hlinked hsocket rfl _ hframe

/-- A callback leaves its room once; what was called before does nothing. -/
theorem Served.leave (hs : Served s) (hlinked : Linked s) (join : Nat) :
    Served (s.leave join) := by
  obtain ⟨heq, -⟩ | ⟨k, -, -, heq⟩ := leave_cases s join
  · rw [heq]
    exact hs
  · rw [heq]
    have hdeactivated : Served (s.deactivate join k) :=
      hs.same rfl rfl rfl
    have hkept : LinkKept s (s.deactivate join k) := { LinkKept.refl s with }
    exact hdeactivated.leaveConversation (hkept.linked hlinked) _

-- ============================================= operations without frames

/-- The sockets are as before; so it is for each operation below, and none of
them tells a server anything. -/
theorem sockets_clearReconnectTimer (s : RealtimeSystem) :
    s.clearReconnectTimer.sockets = s.sockets := by
  unfold clearReconnectTimer
  split
  · rfl
  · rfl

/-- Connecting opens no socket yet. -/
theorem sockets_connect (s : RealtimeSystem) :
    s.connect.sockets = s.sockets := by
  obtain ⟨heq, -⟩ | ⟨-, -, -, heq⟩ := connect_cases s
  · rw [heq]
  · rw [heq]
    exact sockets_clearReconnectTimer s

/-- Nor does the wakeup of one who waits. -/
theorem sockets_connectIfWaiting (s : RealtimeSystem) :
    s.connectIfWaiting.sockets = s.sockets := by
  obtain ⟨heq, -⟩ | heq := connectIfWaiting_cases s
  · rw [heq]
  · rw [heq]
    exact sockets_connect s

/-- Nor asking for the session. -/
theorem sockets_requestRevalidation (s : RealtimeSystem) :
    (s.requestTerminalAuthenticationRevalidation o).sockets = s.sockets := by
  unfold requestTerminalAuthenticationRevalidation
  split
  · rfl
  · rfl

/-- Nor setting the timer. -/
theorem sockets_scheduleReconnect (s : RealtimeSystem) (delay : Option Nat)
    (error : Option RealtimeError) :
    (s.scheduleReconnect delay error).sockets = s.sockets := by
  unfold scheduleReconnect
  split
  · rfl
  · rfl

/-- Nor handling a failure. -/
theorem sockets_handleConnectFailure (s : RealtimeSystem)
    (error : OpeningError) :
    (s.handleConnectFailure o error).sockets = s.sockets := by
  unfold handleConnectFailure
  dsimp only
  split
  · split
    · exact sockets_requestRevalidation _
    · rfl
  · exact sockets_scheduleReconnect s _ _

/-- Nor the end of the attempt. -/
theorem sockets_connectSettled (s : RealtimeSystem) (generation : Nat) :
    (s.connectSettled generation).sockets = s.sockets := by
  unfold connectSettled
  split
  · rfl
  · rfl

/-- An answer to a message leaves the sockets. -/
theorem sockets_settleMessage (s : RealtimeSystem) (id : String)
    (outcome : Settlement) :
    (s.settleMessage id outcome).sockets = s.sockets := by
  unfold settleMessage
  split
  · rfl
  · rfl

/-- So does the rejection of all messages. -/
theorem sockets_rejectPending (s : RealtimeSystem)
    (error : RealtimeMessageError) :
    (s.rejectPending error).sockets = s.sockets := by
  have hstep : ∀ (s' : RealtimeSystem) (m : String),
      s'.sockets = s.sockets →
      (s'.settleMessage m (.rejected error)).sockets = s.sockets :=
    fun s' m h => (sockets_settleMessage s' m _).trans h
  exact run_keeps hstep rfl _

namespace Served

/-- Messages, rooms and sockets stay as they are. -/
theorem aside (hs : Served s) (h : Aside s s')
    (hsockets : s'.sockets = s.sockets) : Served s' :=
  hs.same h.roomReferences h.socket hsockets

/-- Without a current socket nobody is told anything. -/
theorem withdrawn (hs : Served s) (hnone : s'.socket = none)
    (hsockets : s'.sockets = s.sockets) : Served s' where
  quiet := by
    rw [hsockets]
    exact hs.quiet
  told id w hid := by
    cases hnone.symm.trans hid

/-- A new opening has no socket yet. -/
theorem connect (hs : Served s) : Served s.connect :=
  hs.aside Aside.connect (sockets_connect s)

/-- It is `connect` or nothing. -/
theorem connectIfWaiting (hs : Served s) : Served s.connectIfWaiting :=
  hs.aside Aside.connectIfWaiting (sockets_connectIfWaiting s)

/-- `start` opens a socket under a new generation. -/
theorem begin (hs : Served s) : Served s.begin := by
  unfold RealtimeSystem.begin
  split
  · exact hs
  · exact Served.connect (hs.same rfl rfl rfl)

/-- Rejecting messages keeps what the server has. -/
theorem rejectPending (hs : Served s) (error : RealtimeMessageError) :
    Served (s.rejectPending error) :=
  hs.same (RoomsKept.rejectPending error).roomReferences
    (LinkKept.rejectPending error).socket (sockets_rejectPending s error)

/-- The rooms may be dropped when there is no socket. -/
theorem clearRooms (hs : Served s) (hnone : s.socket = none) :
    Served s.clearRooms := hs.withdrawn hnone rfl

/-- `stop` drops the rooms with the socket. -/
theorem stop (hs : Served s) (hlinked : Linked s) : Served s.stop := by
  unfold RealtimeSystem.stop
  split
  · next h =>
      simp only [Bool.and_eq_true, Bool.not_eq_true',
        decide_eq_true_eq] at h
      exact (hs.clearRooms (hlinked.off h.1).1).rejectPending _
  · dsimp only
    have hbase : Served { clearReconnectTimer { s with
          enabled := false
          terminal := false
          terminalAuthenticationRevalidationRequested := false
          generation := s.generation + 1 } with
        socket := none
        connectInFlight := none } :=
      hs.withdrawn rfl (sockets_clearReconnectTimer _)
    have hclosed := ((hbase.clearRooms rfl).rejectPending
      sessionEnded).closeSocket (clearReconnectTimer { s with
          enabled := false
          terminal := false
          terminalAuthenticationRevalidationRequested := false
          generation := s.generation + 1 }).socket 1000 "Session ended"
    exact hclosed.aside (Aside.updateSnapshot _) rfl

/-- The socket that knows the rooms is closed, and the next one is told
them. -/
theorem refreshAuthentication (hs : Served s) :
    Served s.refreshAuthentication := by
  unfold RealtimeSystem.refreshAuthentication
  split
  · exact hs
  · dsimp only
    have hbase : Served { clearReconnectTimer
          { s with terminal := false, generation := s.generation + 1 } with
        socket := none
        connectInFlight := none } :=
      hs.withdrawn rfl (sockets_clearReconnectTimer _)
    have hclosed := (hbase.rejectPending authRefreshed).closeSocket
      (clearReconnectTimer
        { s with terminal := false, generation := s.generation + 1 }).socket
      1000 "Authentication refreshed"
    exact (hclosed.aside (Aside.updateSnapshot ⟨.idle, 0, none⟩) rfl).connect

/-- Visibility opens a socket or nothing. -/
theorem setVisible (hs : Served s) (visible : Bool) :
    Served (s.setVisible visible) := by
  have hset : Served { s with visible := visible } := hs.same rfl rfl rfl
  cases visible with
  | false => exact hset
  | true => exact hset.connectIfWaiting

/-- So does being online. -/
theorem setOnline (hs : Served s) (online : Bool) :
    Served (s.setOnline online) := by
  have hset : Served { s with online := online } := hs.same rfl rfl rfl
  cases online with
  | false => exact hset
  | true => exact hset.connectIfWaiting

/-- A settled promise tells the server nothing. -/
theorem settleMessage (hs : Served s) (id : String) (outcome : Settlement) :
    Served (s.settleMessage id outcome) :=
  hs.same (RoomsKept.settleMessage id outcome).roomReferences
    (LinkKept.settleMessage id outcome).socket
    (sockets_settleMessage s id outcome)

/-- A message tells the server nothing of its rooms. -/
theorem sendFrame (hs : Served s) (hopened : s.readyState = some .opened)
    (input : RealtimeMessageInput) : Served (s.send (.message input)) := by
  unfold RealtimeSystem.send
  cases hsocket : s.socket with
  | none => exact hs
  | some id =>
      refine hs.updateSocket id fun w hw => ?_
      have hstate : w.readyState = .opened := by
        unfold RealtimeSystem.readyState at hopened
        rw [hsocket] at hopened
        change (s.sockets id).map _ = _ at hopened
        rw [hw] at hopened
        exact Option.some.inj hopened
      refine ⟨fun hc => ?_, fun _ => ⟨hstate, fun _ => joinedAt_message⟩⟩
      cases hstate.symm.trans hc

/-- Of all that is sent only controls tell rooms. -/
theorem sendMessage (hs : Served s) (input : RealtimeMessageInput) :
    Served (s.sendMessage o input) := by
  unfold RealtimeSystem.sendMessage
  dsimp only
  split
  · exact hs.same rfl rfl rfl
  · next hopened =>
      split
      · exact hs.same rfl rfl rfl
      · have hawait : Served (awaitAck o { s with sends := s.sends + 1 }
            input.clientMessageId s.sends) := hs.same rfl rfl rfl
        exact hawait.sendFrame (of_not_not hopened) _

/-- A socket that has arrived is fresh: nothing was sent on it. -/
theorem arrived (hs : Served s) (hlinked : Linked s) {opening g : Nat}
    (hopening : s.openings opening = some g) (readyState : SocketState) :
    Served (s.arrived opening readyState) where
  quiet id w hw hstate := by
    obtain ⟨-, heq⟩ | ⟨-, hw⟩ := update_cases hw
    · cases heq
      rfl
    · exact hs.quiet id w hw hstate
  told id w hid hw hstate := by
    obtain ⟨rfl, -⟩ | ⟨-, hw⟩ := update_cases hw
    · -- The number of an opening is that of no socket yet.
      obtain ⟨w₀, hw₀, -⟩ := hlinked.current id hid
      cases (hlinked.openings id g hopening).2.2.symm.trans hw₀
    · exact hs.told id w hid hw hstate

/-- A stale socket is closed; the current one is told the rooms when it is
open. -/
theorem resolve (hs : Served s) (hlinked : Linked s) (opening : Nat)
    (readyState : SocketState) : Served (s.resolve opening readyState) := by
  obtain ⟨-, heq⟩ | ⟨generation, hopening, hstale⟩ | ⟨hopening, henabled⟩ :=
    resolve_cases s opening readyState
  · rw [heq]
    exact hs
  · rw [resolve_stale readyState hopening hstale]
    exact ((hs.arrived hlinked hopening readyState).closeSocket _ _ _).aside
      (Aside.connectSettled _) (sockets_connectSettled _ _)
  · rw [resolve_current readyState hopening henabled]
    have hquiet : ∀ id w, (s.taken opening readyState).sockets id = some w →
        w.readyState = .connecting → w.sent = [] := by
      intro id w hw hstate
      obtain ⟨-, heq⟩ | ⟨-, hw⟩ := update_cases hw
      · cases heq
        rfl
      · exact hs.quiet id w hw hstate
    have htaken : Served (if readyState = .opened then
        (s.taken opening readyState).handleOpen opening s.generation
        else s.taken opening readyState) := by
      split
      · next hopened =>
          exact served_handleOpen (s := s.taken opening readyState) hquiet rfl
            (Function.update_self ..) hopened rfl
      · next hnot =>
          refine ⟨hquiet, fun id w hid hw hstate => ?_⟩
          cases hid
          cases (Function.update_self ..).symm.trans hw
          exact absurd hstate hnot
    exact htaken.aside (Aside.connectSettled _) (sockets_connectSettled _ _)

/-- A rejected opening has no socket. -/
theorem reject (hs : Served s) (opening : Nat) (error : OpeningError) :
    Served (s.reject o opening error) := by
  refine hs.aside (Aside.reject opening error) ?_
  unfold RealtimeSystem.reject
  split
  · rfl
  · dsimp only
    rw [sockets_connectSettled]
    split
    · exact sockets_handleConnectFailure _ _
    · rfl

/-- The socket that opens is told all rooms if it is the current one. -/
theorem socketOpens (hs : Served s) (hlinked : Linked s) (id : Nat) :
    Served (s.socketOpens id) := by
  unfold RealtimeSystem.socketOpens
  cases hw : s.sockets id with
  | none => exact hs
  | some w =>
      dsimp only
      split
      · exact hs
      · next hconnecting =>
          have hsent := hs.quiet id w hw (of_not_not hconnecting)
          have hself : (s.updateSocket id fun w =>
              { w with readyState := .opened }).sockets id
              = some { w with readyState := .opened } := by
            show Function.update s.sockets id ((s.sockets id).map _) id = _
            rw [Function.update_self, hw]
            rfl
          have hquiet : ∀ id' w', (s.updateSocket id fun w =>
              { w with readyState := .opened }).sockets id' = some w' →
              w'.readyState = .connecting → w'.sent = [] := by
            intro id' w' hw' hstate
            obtain ⟨rfl, heq⟩ | ⟨-, hw'⟩ := update_cases hw'
            · obtain ⟨w₀, -, rfl⟩ := Option.map_eq_some_iff.mp heq
              cases hstate
            · exact hs.quiet id' w' hw' hstate
          by_cases hcurrent : s.socket = some id
          · obtain ⟨w₀, hw₀, hlistening⟩ := hlinked.current id hcurrent
            cases hw.symm.trans hw₀
            rw [hlistening]
            exact served_handleOpen (s := s.updateSocket id fun w =>
              { w with readyState := .opened }) hquiet hcurrent hself rfl hsent
          · have hother : Served (s.updateSocket id fun w =>
                { w with readyState := .opened }) := by
              refine ⟨hquiet, fun id' w' hid' hw' hstate => ?_⟩
              obtain ⟨rfl, -⟩ | ⟨-, hw'⟩ := update_cases hw'
              · exact absurd hid' hcurrent
              · exact hs.told id' w' hid' hw' hstate
            split
            · exact hother
            · unfold handleOpen
              rw [if_pos (Or.inl fun h => hcurrent h.symm)]
              exact hother

/-- What the server says changes nothing it was told. -/
theorem socketMessage (hs : Served s) (id : Nat) (message : ServerMessage) :
    Served (s.socketMessage id message) := by
  unfold RealtimeSystem.socketMessage
  split
  · exact hs
  · cases message with
    | messageAck => exact hs.settleMessage _ _
    | messageError => exact hs.settleMessage _ _
    | other => exact hs

/-- The socket that closes is no open one any more. -/
theorem socketCloses (hs : Served s) (hlinked : Linked s)
    (id code : Nat) (reason : String) :
    Served (s.socketCloses o id code reason) := by
  have hclosed : Served (s.updateSocket id fun w =>
      { w with readyState := .closed }) :=
    hs.updateSocket id fun w _ => ToldNothing.of_closed (Or.inr rfl)
  by_cases hsocket : s.socket = some id
  · rw [socketCloses_current hlinked hsocket, handleClose_current hsocket]
    have hleft : Served { s.updateSocket id fun w =>
        { w with readyState := .closed } with socket := none } :=
      hclosed.withdrawn rfl rfl
    have hrejected := hleft.rejectPending (connectionClosed code)
    split
    · exact hrejected
    · split
      · have hterminal : Served (updateSnapshot
            { s.disconnect id code with terminal := true }
            ⟨.stopped, (s.disconnect id code).snapshot.reconnectAttempt,
              some (.message (sessionRejected reason))⟩) :=
          hrejected.same rfl rfl rfl
        exact hterminal.aside (Aside.requestRevalidation o)
          (sockets_requestRevalidation _)
      · exact hrejected.aside (Aside.scheduleReconnect _ _)
          (sockets_scheduleReconnect _ _ _)
  · unfold RealtimeSystem.socketCloses
    split
    · exact hs
    · dsimp only
      split
      · exact hclosed
      · unfold handleClose
        rw [if_pos (Or.inl fun h => hsocket h.symm)]
        exact hclosed

/-- The timer opens a new socket. -/
theorem reconnectTimerFires (hs : Served s) (timer : Nat) :
    Served (s.reconnectTimerFires timer) := by
  unfold RealtimeSystem.reconnectTimerFires
  split
  · exact hs
  · exact Served.connect (hs.same rfl rfl rfl)

/-- A timer of a message tells the server nothing. -/
theorem ackTimerFires (hs : Served s) (n : Nat) :
    Served (s.ackTimerFires n) := by
  unfold RealtimeSystem.ackTimerFires
  split
  · exact hs
  · exact hs.same rfl rfl rfl

/-- In any run the server's rooms are those of the client. -/
theorem step (hs : Served s) (hlinked : Linked s) (e : Event) :
    Served (s.step o e) := by
  cases e with
  | start => exact hs.begin
  | stop => exact hs.stop hlinked
  | refreshAuthentication => exact hs.refreshAuthentication
  | setVisible visible => exact hs.setVisible visible
  | setOnline online => exact hs.setOnline online
  | joinConversation id => exact hs.joinConversation hlinked id
  | leave join => exact hs.leave hlinked join
  | sendMessage input => exact hs.sendMessage input
  | resolve opening readyState => exact hs.resolve hlinked opening readyState
  | reject opening error => exact hs.reject opening error
  | socketOpens id => exact hs.socketOpens hlinked id
  | socketMessage id message => exact hs.socketMessage id message
  | socketClosing id =>
      refine hs.updateSocket id fun w _ => ?_
      split
      · exact ToldNothing.refl w
      · exact ToldNothing.of_closed (Or.inl rfl)
  | socketCloses id code reason => exact hs.socketCloses hlinked id code reason
  | reconnectTimer timer => exact hs.reconnectTimerFires timer
  | ackTimer send => exact hs.ackTimerFires send

end Served

-- ============================================================== any run

/-- What holds of the rooms in any run. -/
structure RoomsSound (s : RealtimeSystem) : Prop where
  linked : Linked s
  positive : Positive s
  served : Served s

/-- A new client has no rooms and no socket. -/
theorem RoomsSound.start : RoomsSound start where
  linked := LinkedBut.start
  positive := nofun
  served := ⟨nofun, nofun⟩

/-- The invariants hold after every event, whether or not the counts are
right. -/
theorem RoomsSound.step (hs : RoomsSound s) (e : Event) :
    RoomsSound (s.step o e) where
  linked := hs.linked.step e
  positive := hs.positive.step e
  served := hs.served.step hs.linked e

/-- Where the counts are those of the live joins, so are the client's rooms
and the server's. -/
theorem RoomsSound.followsJoins (hs : RoomsSound s) (hcounts : CountsJoins s) :
    FollowsJoins s := by
  have hrooms : ∀ c, s.roomReferences.Has c ↔ s.Joined c := by
    intro c
    rw [hs.positive.has_iff, hcounts, joined_iff]
  refine ⟨hrooms, fun id w hid hw hstate c => ?_⟩
  rw [hs.served.told id w hid hw hstate, hrooms]

/-- A new client counts nothing. -/
theorem countsJoins_start : CountsJoins start := fun _ => rfl

/-- The references are those of the live joins in exactly the runs in which
no callback comes too late; and then `roomReferences`, and what the server
believes, are the conversations with a live join. -/
theorem rooms_follow_joins (o : RealtimeClientOptions)
    (events : List Event) :
    ((∀ before, before <+: events →
        CountsJoins (run (step o) start before))
      ↔ Along (step o) InTime start events)
    ∧ (Along (step o) InTime start events →
        ∀ before, before <+: events →
          FollowsJoins (run (step o) start before)) := by
  have hsound : ∀ s e, RoomsSound s → RoomsSound (step o s e) :=
    fun s e hs => hs.step e
  have hcounts : ∀ s e, RoomsSound s → CountsJoins s →
      (CountsJoins (step o s e) ↔ InTime s e) :=
    fun s e _ hs => countsJoins_step_iff hs e
  have hiff := prefixes_iff_along hsound hcounts RoomsSound.start
    countsJoins_start (l := events)
  refine ⟨hiff, fun halong before hbefore => ?_⟩
  exact (run_keeps hsound RoomsSound.start before).followsJoins
    (hiff.mpr halong before hbefore)

/-- A callback from before a stop takes the reference of the join after
it. -/
theorem late_leave_empties_room : ¬ ∀ (o : RealtimeClientOptions)
    (events : List Event), FollowsJoins (run (step o) start events) := by
  intro h
  have hrooms := (h ⟨15000, true⟩ [.start, .joinConversation "a", .stop,
    .start, .joinConversation "a", .leave 0]).rooms "a"
  have hjoined : (run (step ⟨15000, true⟩) start [.start,
      .joinConversation "a", .stop, .start, .joinConversation "a",
      .leave 0]).Joined "a" := by
    rw [joined_iff]
    decide
  exact absurd (hrooms.mpr hjoined) (by decide)

end RealtimeSystem

end Skrynia
