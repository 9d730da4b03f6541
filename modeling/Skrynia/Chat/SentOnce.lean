/-
Chat sends are exactly-once, in every run.

# The invariant

A transaction that has inserted its message holds the index entry of the
pair, so no other row of the pair can come to be before it ends
(`SendCall.Inserted`), and who attached an upload holds its row lock
(`SendCall.Attached`). A commit of such a call adds the message and its
event; every other call that succeeds has read a stored message
(`SendCall.Replays`), and stored messages stay.
-/
import Skrynia.Chat.Messages

namespace Skrynia

open Relational Stepping

-- =============================================================== content

/-- The conversation, the trimmed body and the attachment of a call are
those of a message. -/
def SendMessageInput.Matches (input : SendMessageInput) (m : ChatMessage) :
    Prop :=
  m.conversationId = input.conversationId.value
    ∧ m.body = input.trimmed
    ∧ m.attachmentStorageObjectId = input.attachmentUploadId.map UuidText.value

/-- A call that does not differ from a message in any compared field matches
it. -/
theorem SendMessageInput.matches_of_not_differs {input : SendMessageInput}
    {m : ChatMessage} (h : ¬ input.Differs m) : input.Matches m := by
  unfold SendMessageInput.Differs at h
  rw [not_or, not_or, not_not, not_not, not_not] at h
  obtain ⟨hconversation, hbody, hattachment⟩ := h
  refine ⟨input.conversationId.canonical _ hconversation.symm, hbody, ?_⟩
  cases hinput : input.attachmentUploadId with
  | none =>
      rw [hinput] at hattachment
      exact Option.map_eq_none_iff.mp hattachment
  | some u =>
      rw [hinput] at hattachment
      obtain ⟨id, hid, htext⟩ := Option.map_eq_some_iff.mp hattachment
      rw [hid, Option.map_some, u.canonical id htext.symm]

-- ================================================================ stored

namespace ChatDb

variable {db : ChatDb} {m m' : ChatMessage} {senderId clientMessageId : Uuid}
  {call : SendCall}

/-- A message that is found is stored, and is the one of its sender and
client id. -/
theorem findMessage_eq_some
    (h : db.findMessageByClientId senderId clientMessageId = some m) :
    m ∈ db.messages.rows ∧ IsFor senderId clientMessageId m := by
  have hfor := List.find?_some h
  rw [decide_eq_true_eq] at hfor
  exact ⟨List.mem_of_find?_eq_some h, hfor⟩

/-- Nothing is found where no stored message is of that sender and client
id. -/
theorem findMessage_eq_none :
    db.findMessageByClientId senderId clientMessageId = none
      ↔ ∀ m ∈ db.messages.rows, ¬ IsFor senderId clientMessageId m := by
  unfold findMessageByClientId
  rw [List.find?_eq_none]
  refine forall₂_congr fun m _ => ?_
  rw [decide_eq_true_eq]

/-- The database as its constraints and the calls leave it. -/
structure Consistent (db : ChatDb) : Prop where
  unique : ∀ m ∈ db.messages.rows, ∀ m' ∈ db.messages.rows,
    ∀ senderId clientMessageId, IsFor senderId clientMessageId m →
      IsFor senderId clientMessageId m' → m = m'
  announced : ∀ m ∈ db.messages.rows, m.clientMessageId.isSome →
    messageCreated m.id ∈ db.outbox.rows
  keys : ∀ e ∈ db.outbox.rows, e = messageCreated e.messageId
    ∧ db.messages.Has e.messageId
  attached : ∀ m ∈ db.messages.rows, ∀ u,
    m.attachmentStorageObjectId = some u → ∀ o, db.objects.find? u = some o →
      o.status ≠ .temporary

/-- The unique index leaves at most one message of a sender and a client
id. -/
theorem Consistent.length_le (h : db.Consistent) (senderId clientMessageId : Uuid) :
    (db.messages.rows.filter fun m =>
      IsFor senderId clientMessageId m).length ≤ 1 := by
  have hnodup : db.messages.rows.Nodup := List.Nodup.of_map _ db.messages.unique
  have hfilter := hnodup.filter fun m => decide (IsFor senderId clientMessageId m)
  rcases heq : db.messages.rows.filter fun m =>
      decide (IsFor senderId clientMessageId m) with _ | ⟨m, _ | ⟨m', l⟩⟩
  · exact Nat.zero_le _
  · exact Nat.le_refl _
  · exfalso
    have hmem : ∀ x ∈ m :: m' :: l, x ∈ db.messages.rows
        ∧ IsFor senderId clientMessageId x := by
      intro x hx
      rw [← heq, List.mem_filter, decide_eq_true_eq] at hx
      exact hx
    obtain ⟨hm, hfor⟩ := hmem m List.mem_cons_self
    obtain ⟨hm', hfor'⟩ := hmem m' (List.mem_cons_of_mem m List.mem_cons_self)
    rw [heq, h.unique m hm m' hm' _ _ hfor hfor'] at hfilter
    exact (List.nodup_cons.mp hfilter).1 List.mem_cons_self

/-- One event announces a message. -/
theorem Consistent.announced_once (h : db.Consistent)
    (hm : m ∈ db.messages.rows) (hclient : m.clientMessageId.isSome) :
    db.outbox.rows.filter (fun e => e.messageId = m.id)
      = [messageCreated m.id] := by
  have hkey := filter_key_eq_singleton db.outbox.unique
    (h.announced m hm hclient)
  rw [← hkey]
  apply List.filter_congr
  intro e he
  rw [decide_eq_decide]
  constructor
  · intro hid
    rw [(h.keys e he).1, hid]
  · intro hkey
    have heq := Table.eq_of_key_eq he (h.announced m hm hclient) hkey
    rw [heq]
    rfl

-- ============================================================ committed

/-- A row after those that are there. -/
theorem findMessage_append {rows : List ChatMessage}
    (hrows : db.messages.rows = rows ++ [m]) :
    db.findMessageByClientId senderId clientMessageId
      = (rows.find? fun x => IsFor senderId clientMessageId x).or
        (if IsFor senderId clientMessageId m then some m else none) := by
  unfold findMessageByClientId
  rw [hrows, List.find?_append, List.find?_singleton]
  congr 1
  by_cases hm : IsFor senderId clientMessageId m
  · rw [if_pos hm, if_pos (decide_eq_true hm)]
  · rw [if_neg hm, if_neg]
    rw [decide_eq_true_eq]
    exact hm

/-- A transaction that has written nothing commits nothing. -/
theorem apply_eq_self (h : call.attached = none ∧ call.inserted = none
    ∧ call.enqueued = none) : db.apply call = db := by
  unfold apply
  rw [h.1, h.2.1, h.2.2]

/-- The commit of an insert appends its message. -/
theorem rows_apply (hm : call.inserted = some m) (hfresh : ¬ db.messages.Has m.id) :
    (db.apply call).messages.rows = db.messages.rows ++ [m] := by
  unfold apply
  rw [hm]
  exact Table.rows_upsert_of_not_has hfresh

/-- No event has the key of a message that is not there. -/
theorem Consistent.outbox_apply (h : db.Consistent) {m : ChatMessage}
    (henqueued : call.enqueued = some (messageCreated m.id))
    (hfresh : ¬ db.messages.Has m.id) :
    (db.apply call).outbox.rows = db.outbox.rows ++ [messageCreated m.id] := by
  unfold apply
  rw [henqueued]
  apply Table.rows_upsert_of_not_has
  intro hhas
  obtain ⟨e, he, hkey⟩ := List.mem_map.mp hhas
  obtain ⟨heq, hmessage⟩ := h.keys e he
  rw [heq] at hkey
  have htext : "message.created:" ++ (e.messageId.text ++ "")
      = "message.created:" ++ (m.id.text ++ "") := by
    rw [String.append_empty, String.append_empty]
    exact hkey
  rw [(Uuid.append_injective htext).1] at hmessage
  exact hfresh hmessage

/-- The upload that a transaction attached, and no other. -/
theorem find?_objects_apply (hhas : ∀ o, call.attached = some o →
    ∃ old, db.objects.find? o.id = some old) (id : Uuid) :
    (∃ o, call.attached = some o ∧ o.id = id
        ∧ (db.apply call).objects.find? id = some o)
      ∨ call.attached.map StorageObject.id ≠ some id
        ∧ (db.apply call).objects.find? id = db.objects.find? id := by
  unfold apply
  cases ho : call.attached with
  | none => exact Or.inr ⟨nofun, rfl⟩
  | some o =>
      by_cases hid : o.id = id
      · left
        subst hid
        obtain ⟨old, hold⟩ := hhas o ho
        exact ⟨o, rfl, rfl, Table.find?_set_self hold⟩
      · right
        refine ⟨?_, Table.find?_set_of_ne hid⟩
        exact fun h => hid (Option.some.inj h)

end ChatDb

-- ================================================================= calls

namespace SendCall

variable (cfg : ChatConfig) (s : ChatSystem) (c : Nat) (call : SendCall)

/-- The call has changed nothing. -/
structure Clean : Prop where
  attached : call.attached = none
  inserted : call.inserted = none
  enqueued : call.enqueued = none

/-- The call holds the upload that it attached, if it has one. -/
structure Attached : Prop where
  upload : call.attached.map StorageObject.id
    = call.input.attachmentUploadId.map UuidText.value
  locked : ∀ o, call.attached = some o → s.objectLock o.id = some c
  temporary : ∀ o, call.attached = some o →
    ∃ old, s.db.objects.find? o.id = some old ∧ old.status = .temporary
  status : ∀ o, call.attached = some o → o.status = .attached

/-- The call holds the index entry of the row that it inserted. -/
structure Inserted (m : ChatMessage) : Prop where
  inserted : call.inserted = some m
  row : ∃ id now, m = call.row id now
  entry : s.entry call.input.pair = some c
  free : s.db.stored call.input = none
  fresh : ¬ s.db.messages.Has m.id
  drawn : m.id ∈ s.drawn

/-- The result is a stored message with the content of the call. -/
def Replays (result : SendMessageResult) : Prop :=
  ∃ m, s.db.stored call.input = some m ∧ call.input.Matches m
    ∧ result.message = mapMessageDto (cfg.displayName m.senderId) m

/-- What a call holds in a phase. -/
def HoldsIn : SendPhase → Prop
  | .authorizing | .finding | .locking | .findingLocked | .attaching =>
      call.Clean
  | .inserting | .findingConcurrent =>
      call.Attached s c ∧ call.inserted = none ∧ call.enqueued = none
  | .enqueueing =>
      call.Attached s c ∧ (∃ m, call.Inserted s c m) ∧ call.enqueued = none
  | .committing result =>
      call.Clean ∧ call.Replays cfg s result ∧ result.created = false
        ∨ call.Attached s c ∧ ∃ m, call.Inserted s c m
          ∧ call.enqueued = some (messageCreated m.id)
          ∧ result = ⟨mapMessageDto (cfg.displayName m.senderId) m, true⟩
  | .returned (.ok result) => call.Clean ∧ call.Replays cfg s result
  | .returned (.error _) => call.Clean

/-- What a call holds and has written, at the statement it is about to
run. -/
def Holds : Prop := call.HoldsIn cfg s c call.phase

end SendCall

/-- What a call holds, part by part. -/
theorem SendCall.Holds.imp {cfg : ChatConfig} {s s' : ChatSystem} {c : Nat}
    {call : SendCall} (h : call.Holds cfg s c)
    (hattached : call.Attached s c → call.Attached s' c)
    (hinserted : ∀ m, call.Inserted s c m → call.Inserted s' c m)
    (hreplays : ∀ r, call.Replays cfg s r → call.Replays cfg s' r) :
    call.Holds cfg s' c := by
  unfold SendCall.Holds at h ⊢
  generalize call.phase = phase at h ⊢
  cases phase with
  | inserting => exact ⟨hattached h.1, h.2⟩
  | findingConcurrent => exact ⟨hattached h.1, h.2⟩
  | enqueueing =>
      obtain ⟨ha, ⟨m, hm⟩, he⟩ := h
      exact ⟨hattached ha, ⟨m, hinserted m hm⟩, he⟩
  | committing result =>
      rcases h with ⟨hclean, hr, hcreated⟩ | ⟨ha, m, hm, he⟩
      · exact Or.inl ⟨hclean, hreplays _ hr, hcreated⟩
      · exact Or.inr ⟨hattached ha, m, hinserted m hm, he⟩
  | returned result =>
      cases result with
      | ok result => exact ⟨h.1, hreplays _ h.2⟩
      | error e => exact h
  | _ => exact h

namespace ChatSystem

/-- A call that has returned a result. -/
def Succeeded (s : ChatSystem) (c : Nat) (call : SendCall)
    (result : SendMessageResult) : Prop :=
  s.calls c = some call ∧ call.phase = .returned (.ok result)

/-- A call that has returned `created: true`. -/
def Creates (s : ChatSystem) (senderId clientMessageId : Uuid) (c : Nat) : Prop :=
  ∃ call result, s.Succeeded c call result ∧ result.created = true
    ∧ call.input.pair = (senderId, clientMessageId)

/-- What holds in every state; `db` is the database at the start. -/
structure Sound (cfg : ChatConfig) (db : ChatDb) (s : ChatSystem) : Prop where
  consistent : s.db.Consistent
  drawn : ∀ m ∈ s.db.messages.rows, m.id ∈ s.drawn
  call : ∀ c call, s.calls c = some call → call.Holds cfg s c
  ids : ∀ c d call call' m m', s.calls c = some call →
    s.calls d = some call' → call.inserted = some m →
      call'.inserted = some m' → m.id = m'.id → c = d
  kept : ∀ senderId clientMessageId m,
    db.findMessageByClientId senderId clientMessageId = some m →
      s.db.findMessageByClientId senderId clientMessageId = some m
  creator : ∀ senderId clientMessageId m,
    s.db.findMessageByClientId senderId clientMessageId = some m →
      db.findMessageByClientId senderId clientMessageId = some m
        ∨ ∃ c, s.Creates senderId clientMessageId c
  first : ∀ senderId clientMessageId c,
    s.Creates senderId clientMessageId c →
      db.findMessageByClientId senderId clientMessageId = none
  once : ∀ senderId clientMessageId c d, s.Creates senderId clientMessageId c →
    s.Creates senderId clientMessageId d → c = d
  objects : ∀ id, s.db.objects.find? id = db.objects.find? id
    ∨ ∃ c call result, s.Succeeded c call result ∧ result.created = true
      ∧ call.input.attachmentUploadId.map UuidText.value = some id

variable {cfg : ChatConfig} {db : ChatDb} {s s' : ChatSystem} {c d : Nat}
  {call call' : SendCall}

-- ============================================================ one call on

/-- What a call holds stays where its locks do. -/
theorem holds_of_kept (hdb : s'.db = s.db)
    (hobject : ∀ u, s.objectLock u = some c → s'.objectLock u = some c)
    (hentry : ∀ pair, s.entry pair = some c → s'.entry pair = some c)
    (hdrawn : ∀ id ∈ s.drawn, id ∈ s'.drawn) (h : call.Holds cfg s c) :
    call.Holds cfg s' c := by
  have hattached : call.Attached s c → call.Attached s' c := by
    intro h
    obtain ⟨hupload, hlocked, htemporary, hstatus⟩ := h
    refine ⟨hupload, fun o ho => hobject _ (hlocked o ho), ?_, hstatus⟩
    rw [hdb]
    exact htemporary
  have hinserted : ∀ m, call.Inserted s c m → call.Inserted s' c m := by
    intro m h
    obtain ⟨hsome, hrow, hlock, hfree, hfresh, hid⟩ := h
    refine ⟨hsome, hrow, hentry _ hlock, ?_, ?_, hdrawn _ hid⟩
    · rw [hdb]
      exact hfree
    · rw [hdb]
      exact hfresh
  have hreplays : ∀ r, call.Replays cfg s r → call.Replays cfg s' r := by
    unfold SendCall.Replays
    rw [hdb]
    exact fun _ => id
  exact h.imp hattached hinserted hreplays

/-- An uncommitted row is one that its call holds. -/
theorem inserted_of_holds {m : ChatMessage} (h : call.Holds cfg s c)
    (hm : call.inserted = some m) : call.Inserted s c m := by
  have hnone : call.inserted ≠ none := by
    rw [hm]
    exact nofun
  unfold SendCall.Holds at h
  generalize call.phase = phase at h
  cases phase with
  | inserting => exact absurd h.2.1 hnone
  | findingConcurrent => exact absurd h.2.1 hnone
  | enqueueing =>
      obtain ⟨-, ⟨m', hm'⟩, -⟩ := h
      cases hm.symm.trans hm'.inserted
      exact hm'
  | committing result =>
      rcases h with ⟨hclean, -⟩ | ⟨-, m', hm', -⟩
      · exact absurd hclean.inserted hnone
      · cases hm.symm.trans hm'.inserted
        exact hm'
  | returned result =>
      cases result with
      | ok result => exact absurd h.1.inserted hnone
      | error e => exact absurd (SendCall.Clean.inserted h) hnone
  | _ => exact absurd (SendCall.Clean.inserted h) hnone

/-- One call goes on, and commits nothing. Its own locks and entries may
change; those of the others stay, and with them what the others rely on. -/
theorem Sound.proceed (h : Sound cfg db s) (hdb : s'.db = s.db)
    (hcalls : s'.calls = Function.update s.calls c (some call'))
    (hobject : ∀ d, d ≠ c → ∀ u, s.objectLock u = some d →
      s'.objectLock u = some d)
    (hentry : ∀ d, d ≠ c → ∀ pair, s.entry pair = some d →
      s'.entry pair = some d)
    (hdrawn : ∀ id ∈ s.drawn, id ∈ s'.drawn) (hholds : call'.Holds cfg s' c)
    (hids : ∀ m, call'.inserted = some m → m.id ∉ s.drawn
      ∨ ∃ call, s.calls c = some call ∧ call.inserted = some m)
    (hrunning : ∀ call r, ¬ s.Succeeded c call r)
    (hcreated : ∀ r, call'.phase = .returned (.ok r) → r.created = false) :
    Sound cfg db s' := by
  have hother : ∀ {d : Nat}, d ≠ c → s'.calls d = s.calls d := by
    intro d hd
    rw [hcalls, Function.update_of_ne hd]
  have hself : s'.calls c = some call' := by
    rw [hcalls, Function.update_self]
  have hsucceeded : ∀ d x r, s.Succeeded d x r → s'.Succeeded d x r := by
    intro d x r h
    obtain ⟨hx, hphase⟩ := h
    have hd : d ≠ c := by
      intro heq
      subst heq
      exact hrunning x r ⟨hx, hphase⟩
    exact ⟨(hother hd).trans hx, hphase⟩
  have hback : ∀ d x r, s'.Succeeded d x r → r.created = true →
      s.Succeeded d x r := by
    intro d x r h htrue
    obtain ⟨hx, hphase⟩ := h
    by_cases hd : d = c
    · subst hd
      cases hself.symm.trans hx
      rw [hcreated r hphase] at htrue
      cases htrue
    · exact ⟨(hother hd).symm.trans hx, hphase⟩
  have hcreates : ∀ p q d, s'.Creates p q d ↔ s.Creates p q d := by
    intro p q d
    constructor
    · intro h
      obtain ⟨x, r, hx, htrue, hpair⟩ := h
      exact ⟨x, r, hback d x r hx htrue, htrue, hpair⟩
    · intro h
      obtain ⟨x, r, hx, htrue, hpair⟩ := h
      exact ⟨x, r, hsucceeded d x r hx, htrue, hpair⟩
  -- The row of this call is new, or it had it before.
  have hmine : ∀ d x m m', d ≠ c → s'.calls d = some x →
      x.inserted = some m → call'.inserted = some m' → m.id ≠ m'.id := by
    intro d x m m' hd hx hm hm' hid
    rw [hother hd] at hx
    have hdrawn := (inserted_of_holds (h.call d x hx) hm).drawn
    rcases hids m' hm' with hnew | ⟨y, hy, hym⟩
    · exact hnew (hid ▸ hdrawn)
    · exact hd (h.ids d c x y m m' hx hy hm hym hid)
  constructor
  · rw [hdb]
    exact h.consistent
  · rw [hdb]
    exact fun m hm => hdrawn _ (h.drawn m hm)
  · intro d x hx
    by_cases hd : d = c
    · subst hd
      cases hself.symm.trans hx
      exact hholds
    · rw [hother hd] at hx
      exact holds_of_kept hdb (hobject d hd) (hentry d hd) hdrawn (h.call d x hx)
  · intro d e x y m m' hx hy hm hm' hid
    by_cases hd : d = c
    · by_cases he : e = c
      · rw [hd, he]
      · subst hd
        cases hself.symm.trans hx
        exact absurd hid.symm (hmine e y m' m he hy hm' hm)
    · by_cases he : e = c
      · subst he
        cases hself.symm.trans hy
        exact absurd hid (hmine d x m m' hd hx hm hm')
      · rw [hother hd] at hx
        rw [hother he] at hy
        exact h.ids d e x y m m' hx hy hm hm' hid
  · rw [hdb]
    exact h.kept
  · intro p q m hm
    rw [hdb] at hm
    refine (h.creator p q m hm).imp_right ?_
    intro h
    obtain ⟨d, hd⟩ := h
    exact ⟨d, (hcreates p q d).mpr hd⟩
  · exact fun p q d hd => h.first p q d ((hcreates p q d).mp hd)
  · exact fun p q d e hd he =>
      h.once p q d e ((hcreates p q d).mp hd) ((hcreates p q e).mp he)
  · intro id
    rw [hdb]
    refine (h.objects id).imp_right ?_
    intro h
    obtain ⟨d, x, r, hx, htrue, hu⟩ := h
    exact ⟨d, x, r, hsucceeded d x r hx, htrue, hu⟩

/-- The locks of a call end with it. -/
theorem filter_ne_of_ne {holder : Option Nat} (hd : d ≠ c)
    (h : holder = some d) : holder.filter (· ≠ c) = some d := by
  rw [h, Option.filter_some, if_pos (decide_eq_true hd)]

/-- A call ends without a commit. -/
theorem Sound.endCall (h : Sound cfg db s) (hc : s.calls c = some call)
    (hrunning : ∀ r, call.phase ≠ .returned (.ok r))
    {result : Except Failure SendMessageResult}
    (hresult : ∀ r, result = .ok r →
      call.Replays cfg s r ∧ r.created = false) :
    Sound cfg db (s.endCall c call result) := by
  apply h.proceed (c := c)
  · rfl
  · rfl
  · exact fun d hd u hu => filter_ne_of_ne hd hu
  · exact fun d hd pair hp => filter_ne_of_ne hd hp
  · exact fun id hid => hid
  · cases result with
    | error e => exact ⟨rfl, rfl, rfl⟩
    | ok r => exact ⟨⟨rfl, rfl, rfl⟩, (hresult r rfl).1⟩
  · intro m hm
    cases hm
  · intro x r h
    obtain ⟨hx, hphase⟩ := h
    cases hc.symm.trans hx
    exact hrunning r hphase
  · intro r hr
    cases result with
    | error e => cases hr
    | ok r =>
        cases hr
        exact (hresult _ rfl).2

/-- A call goes to another phase. -/
theorem Sound.advance (h : Sound cfg db s) (hc : s.calls c = some call)
    (hrunning : ∀ r, call.phase ≠ .returned (.ok r)) {phase : SendPhase}
    (hphase : ∀ r, phase ≠ .returned (.ok r))
    (hholds : call.HoldsIn cfg s c phase) :
    Sound cfg db (s.setCall c { call with phase := phase }) := by
  apply h.proceed (c := c)
  · rfl
  · rfl
  · exact fun d _ u hu => hu
  · exact fun d _ pair hp => hp
  · exact fun id hid => hid
  · have hself : SendCall.Holds cfg s c { call with phase := phase } := by
      show SendCall.HoldsIn cfg s c { call with phase := phase } phase
      cases phase with
      | inserting =>
          obtain ⟨⟨hupload, hlocked, htemporary, hstatus⟩, hnone⟩ := hholds
          exact ⟨⟨hupload, hlocked, htemporary, hstatus⟩, hnone⟩
      | findingConcurrent =>
          obtain ⟨⟨hupload, hlocked, htemporary, hstatus⟩, hnone⟩ := hholds
          exact ⟨⟨hupload, hlocked, htemporary, hstatus⟩, hnone⟩
      | enqueueing =>
          obtain ⟨⟨hupload, hlocked, htemporary, hstatus⟩, ⟨m, hm⟩, hnone⟩ := hholds
          exact ⟨⟨hupload, hlocked, htemporary, hstatus⟩,
            ⟨m, hm.inserted, hm.row, hm.entry, hm.free, hm.fresh, hm.drawn⟩, hnone⟩
      | committing result =>
          rcases hholds with ⟨hclean, hr⟩ | ⟨ha, m, hm, he⟩
          · exact Or.inl ⟨⟨hclean.attached, hclean.inserted, hclean.enqueued⟩, hr⟩
          · exact Or.inr ⟨⟨ha.upload, ha.locked, ha.temporary, ha.status⟩, m,
              ⟨hm.inserted, hm.row, hm.entry, hm.free, hm.fresh, hm.drawn⟩, he⟩
      | returned result =>
          cases result with
          | ok r => exact absurd rfl (hphase r)
          | error e =>
              exact ⟨hholds.attached, hholds.inserted, hholds.enqueued⟩
      | _ => exact ⟨hholds.attached, hholds.inserted, hholds.enqueued⟩
    exact holds_of_kept (s := s) rfl (fun _ hu => hu) (fun _ hp => hp) (fun _ hid => hid)
      hself
  · exact fun m hm => Or.inr ⟨call, hc, hm⟩
  · intro x r h
    obtain ⟨hx, hx'⟩ := h
    cases hc.symm.trans hx
    exact hrunning r hx'
  · exact fun r hr => absurd hr (hphase r)

/-- A call that is there. -/
theorem Sound.withCall {f : SendCall → ChatSystem} (h : Sound cfg db s)
    (hf : ∀ call, s.calls c = some call → Sound cfg db (f call)) :
    Sound cfg db (s.withCall c f) := by
  unfold ChatSystem.withCall
  split
  · exact h
  · next call hc => exact hf call hc

-- ============================================================== the queries

/-- A call that begins holds nothing and has written nothing. -/
theorem Sound.begin (h : Sound cfg db s) (c : Nat) (input : SendMessageInput) :
    Sound cfg db (s.call c input) := by
  have hnew : ∀ phase : SendPhase, (∀ r, phase ≠ .returned (.ok r)) →
      SendCall.HoldsIn cfg s c ⟨input, phase, none, none, none⟩ phase →
        s.calls c = none → Sound cfg db (s.setCall c ⟨input, phase, none, none, none⟩) := by
    intro phase hphase hholds hc
    apply h.proceed (c := c)
    · rfl
    · rfl
    · exact fun d _ u hu => hu
    · exact fun d _ pair hp => hp
    · exact fun id hid => hid
    · have hself : SendCall.Holds cfg s c ⟨input, phase, none, none, none⟩ := hholds
      exact holds_of_kept (s := s) rfl (fun _ hu => hu) (fun _ hp => hp)
        (fun _ hid => hid) hself
    · intro m hm
      cases hm
    · intro x r h
      obtain ⟨hx, -⟩ := h
      rw [hc] at hx
      cases hx
    · exact fun r hr => absurd hr (hphase r)
  unfold ChatSystem.call
  split
  · exact h
  · next hc =>
      split
      · exact hnew _ nofun ⟨rfl, rfl, rfl⟩ hc
      · exact hnew _ nofun ⟨rfl, rfl, rfl⟩ hc

/-- An authorisation reads, and the transaction begins with nothing
written. -/
theorem Sound.authorized (h : Sound cfg db s) (c : Nat)
    (parties : Option ConversationParties) (muted blocked : Bool) :
    Sound cfg db (s.authorized c parties muted blocked) := by
  apply h.withCall
  intro call hc
  split
  · next hphase =>
      have hholds := h.call c call hc
      unfold SendCall.Holds at hholds
      rw [hphase] at hholds
      have hrunning : ∀ r, call.phase ≠ .returned (.ok r) := by
        rw [hphase]
        exact nofun
      split
      · exact h.endCall hc hrunning nofun
      · exact h.advance hc hrunning nofun hholds
  · exact h

/-- What a stored message answers to a call. -/
theorem replays_of_verify {m : ChatMessage} {r : SendMessageResult}
    (hm : s.db.stored call.input = some m)
    (hr : verifyMessageReplay (cfg.displayName m.senderId) m call.input = .ok r) :
    call.Replays cfg s r ∧ r.created = false := by
  unfold verifyMessageReplay at hr
  split at hr
  · cases hr
  · next hsame =>
      cases hr
      exact ⟨⟨m, hm, SendMessageInput.matches_of_not_differs hsame, rfl⟩, rfl⟩

/-- The first lookup ends a call whose message is stored, and lets another go
on. -/
theorem Sound.find (h : Sound cfg db s) (c : Nat) :
    Sound cfg db (s.find cfg c) := by
  apply h.withCall
  intro call hc
  split
  · next hphase =>
      have hholds := h.call c call hc
      unfold SendCall.Holds at hholds
      rw [hphase] at hholds
      have hrunning : ∀ r, call.phase ≠ .returned (.ok r) := by
        rw [hphase]
        exact nofun
      split
      · next m hm =>
          exact h.endCall hc hrunning fun r hr => replays_of_verify hm hr
      · exact h.advance hc hrunning nofun hholds
  · exact h

/-- A lock that is granted is the call's own until its transaction ends. -/
theorem Sound.lock (h : Sound cfg db s) (c : Nat) :
    Sound cfg db (s.lock cfg c) := by
  apply h.withCall
  intro call hc
  split
  · next hphase =>
      have hholds := h.call c call hc
      unfold SendCall.Holds at hholds
      rw [hphase] at hholds
      dsimp only
      split
      · exact h
      · apply h.proceed (c := c)
        · rfl
        · rfl
        · exact fun d _ u hu => hu
        · exact fun d _ pair hp => hp
        · exact fun id hid => hid
        · exact ⟨hholds.attached, hholds.inserted, hholds.enqueued⟩
        · exact fun m hm => Or.inr ⟨call, hc, hm⟩
        · intro x r h
          obtain ⟨hx, hx'⟩ := h
          cases hc.symm.trans hx
          rw [hphase] at hx'
          cases hx'
        · intro r hr
          cases hr
  · exact h

/-- A stored message with the upload that a call has attached: there is
none, as a stored message's upload is temporary no more. -/
theorem Sound.clean_of_matches (h : Sound cfg db s) {m : ChatMessage}
    (hattached : call.Attached s c)
    (hnone : call.inserted = none ∧ call.enqueued = none)
    (hm : s.db.stored call.input = some m) (hmatches : call.input.Matches m) :
    call.Clean := by
  refine ⟨?_, hnone.1, hnone.2⟩
  cases ho : call.attached with
  | none => rfl
  | some o =>
      exfalso
      obtain ⟨old, hold, htemporary⟩ := hattached.temporary o ho
      have hupload := hattached.upload
      rw [ho, ← hmatches.2.2, Option.map_some] at hupload
      exact h.consistent.attached m (ChatDb.findMessage_eq_some hm).1 o.id
        hupload.symm old hold htemporary

/-- A call that replays inside its transaction. -/
theorem Sound.replay (h : Sound cfg db s) (hc : s.calls c = some call)
    (hrunning : ∀ r, call.phase ≠ .returned (.ok r)) {m : ChatMessage}
    (hm : s.db.stored call.input = some m)
    (hclean : call.input.Matches m → call.Clean) :
    Sound cfg db (s.replay cfg c call m) := by
  unfold ChatSystem.replay
  split
  · exact h.endCall hc hrunning fun r hr => by cases hr
  · next r hr =>
      obtain ⟨hreplays, hfalse⟩ := replays_of_verify hm hr
      refine h.advance hc hrunning (fun _ hp => by cases hp) ?_
      refine Or.inl ⟨?_, hreplays, hfalse⟩
      obtain ⟨m', hm', hmatches, -⟩ := hreplays
      cases hm.symm.trans hm'
      exact hclean hmatches

/-- The lookup under the lock sees what was committed before the lock was
granted. -/
theorem Sound.findLocked (h : Sound cfg db s) (c : Nat) :
    Sound cfg db (s.findLocked cfg c) := by
  apply h.withCall
  intro call hc
  split
  · next hphase =>
      have hholds := h.call c call hc
      unfold SendCall.Holds at hholds
      rw [hphase] at hholds
      have hrunning : ∀ r, call.phase ≠ .returned (.ok r) := by
        rw [hphase]
        exact nofun
      split
      · next m hm => exact h.replay hc hrunning hm fun _ => hholds
      · have hclean : call.Clean := hholds
        apply h.advance hc hrunning
        · split
          · exact nofun
          · exact nofun
        · split
          · exact hholds
          · next hupload =>
              have hnone : ∀ o, call.attached ≠ some o := by
                intro o ho
                rw [hclean.attached] at ho
                cases ho
              refine ⟨⟨?_, fun o ho => absurd ho (hnone o),
                fun o ho => absurd ho (hnone o),
                fun o ho => absurd ho (hnone o)⟩,
                hclean.inserted, hclean.enqueued⟩
              rw [hclean.attached, Option.not_isSome_iff_eq_none.mp hupload]
              rfl
  · exact h

/-- A lock that nobody else has. -/
theorem ne_of_not_heldByOther {holder : Option Nat}
    (hfree : heldByOther c holder ≠ true) (hd : d ≠ c) : holder ≠ some d := by
  intro heq
  subst heq
  exact hfree (decide_eq_true hd)

/-- Attaching an upload takes the row lock of the upload, which is held until
the call ends. Whoever wants the same upload waits, and finds it attached. -/
theorem Sound.attach (h : Sound cfg db s) (c : Nat) (now : Timestamp) :
    Sound cfg db (s.attach c now) := by
  apply h.withCall
  intro call hc
  split
  · next uploadId hphase hupload =>
      have hclean := h.call c call hc
      unfold SendCall.Holds at hclean
      rw [hphase] at hclean
      have hrunning : ∀ r, call.phase ≠ .returned (.ok r) := by
        rw [hphase]
        exact nofun
      split
      · exact h
      · next hfree =>
          split
          · exact h.endCall hc hrunning fun r hr => by cases hr
          · next o ho =>
              obtain ⟨hrow, -, hstatus, -⟩ := checkAttachment_eq_ok.mp ho
              have hid : o.id = uploadId.value := Table.key_of_find? hrow
              apply h.proceed (c := c)
              · rfl
              · rfl
              · intro d hd u hu
                have hne : u ≠ uploadId.value := by
                  intro heq
                  subst heq
                  exact ne_of_not_heldByOther hfree hd hu
                exact (Function.update_of_ne hne _ _).trans hu
              · exact fun d _ pair hp => hp
              · exact fun id hid => hid
              · refine ⟨⟨?_, ?_, ?_, ?_⟩, hclean.inserted, hclean.enqueued⟩
                · show some o.id = call.input.attachmentUploadId.map _
                  rw [hupload, hid]
                  rfl
                · intro x h
                  cases h
                  show Function.update s.objectLock uploadId.value (some c) o.id
                    = some c
                  rw [hid]
                  exact Function.update_self _ _ _
                · intro x h
                  cases h
                  refine ⟨o, ?_, hstatus⟩
                  show s.db.objects.find? o.id = some o
                  rw [hid]
                  exact hrow
                · intro x h
                  cases h
                  rfl
              · exact fun m hm => Or.inr ⟨call, hc, hm⟩
              · intro x r h
                obtain ⟨hx, hx'⟩ := h
                cases hc.symm.trans hx
                exact hrunning r hx'
              · intro r hr
                cases hr
  · exact h

/-- An insert that goes through holds the index entry of its pair: a second
one for the same pair waits for it, and is refused when it has committed. -/
theorem Sound.insert (h : Sound cfg db s) (c : Nat) (id : Uuid)
    (now : Timestamp) : Sound cfg db (s.insert c id now) := by
  apply h.withCall
  intro call hc
  split
  · next hphase =>
      have hholds := h.call c call hc
      unfold SendCall.Holds at hholds
      rw [hphase] at hholds
      have hrunning : ∀ r, call.phase ≠ .returned (.ok r) := by
        rw [hphase]
        exact nofun
      split
      · exact h
      · next hready =>
          rw [not_or] at hready
          obtain ⟨hnew, hfree⟩ := hready
          split
          · exact h.advance hc hrunning nofun hholds
          · next hnone =>
              obtain ⟨ha, -, henqueued⟩ := hholds
              apply h.proceed (c := c)
              · rfl
              · rfl
              · exact fun d _ u hu => hu
              · intro d hd pair hp
                have hne : pair ≠ call.input.pair := by
                  intro heq
                  subst heq
                  exact ne_of_not_heldByOther hfree hd hp
                exact (Function.update_of_ne hne _ _).trans hp
              · exact fun id' hid => List.mem_cons_of_mem id hid
              · refine ⟨⟨ha.upload, ha.locked, ha.temporary, ha.status⟩,
                  ⟨call.row id now, rfl, ⟨id, now, rfl⟩,
                    Function.update_self _ _ _, hnone, ?_, List.mem_cons_self⟩,
                  henqueued⟩
                intro hhas
                obtain ⟨m, hm, hid⟩ := List.mem_map.mp hhas
                have hdrawn := h.drawn m hm
                rw [hid] at hdrawn
                exact hnew hdrawn
              · intro m h
                cases h
                exact Or.inl hnew
              · intro x r h
                obtain ⟨hx, hx'⟩ := h
                cases hc.symm.trans hx
                exact hrunning r hx'
              · intro r hr
                cases hr
  · exact h

/-- A call that met a conflict reads the row it conflicted with. -/
theorem Sound.findConcurrent (h : Sound cfg db s) (c : Nat) :
    Sound cfg db (s.findConcurrent cfg c) := by
  apply h.withCall
  intro call hc
  split
  · next hphase =>
      have hholds := h.call c call hc
      unfold SendCall.Holds at hholds
      rw [hphase] at hholds
      have hrunning : ∀ r, call.phase ≠ .returned (.ok r) := by
        rw [hphase]
        exact nofun
      split
      · next m hm =>
          apply h.replay hc hrunning hm
          exact fun hmatches => h.clean_of_matches hholds.1 hholds.2 hm hmatches
      · exact h.endCall hc hrunning fun r hr => by cases hr
  · exact h

/-- The event of a message is written with it. -/
theorem Sound.enqueue (h : Sound cfg db s) (c : Nat) :
    Sound cfg db (s.enqueue cfg c) := by
  apply h.withCall
  intro call hc
  split
  · next m hphase hm =>
      have hholds := h.call c call hc
      have hinserted := inserted_of_holds hholds hm
      unfold SendCall.Holds at hholds
      rw [hphase] at hholds
      obtain ⟨ha, -, -⟩ := hholds
      apply h.proceed (c := c)
      · rfl
      · rfl
      · exact fun d _ u hu => hu
      · exact fun d _ pair hp => hp
      · exact fun id hid => hid
      · refine Or.inr ⟨⟨ha.upload, ha.locked, ha.temporary, ha.status⟩, m,
          ⟨hm, hinserted.row, hinserted.entry, hinserted.free, hinserted.fresh,
            hinserted.drawn⟩, rfl, rfl⟩
      · exact fun m hm => Or.inr ⟨call, hc, hm⟩
      · intro x r h
        obtain ⟨hx, hx'⟩ := h
        cases hc.symm.trans hx
        rw [hphase] at hx'
        cases hx'
      · intro r hr
        cases hr
  · exact h

/-- A call that fails rolls back and lets go of everything. -/
theorem Sound.fail (h : Sound cfg db s) (c : Nat) (message : String) :
    Sound cfg db (s.fail c message) := by
  apply h.withCall
  intro call hc
  split
  · exact h
  · next hrunning =>
      apply h.endCall hc
      · exact fun r hr => hrunning _ hr
      · intro r hr
        cases hr

-- ================================================================= commit

/-- What the commit of a call that inserted its message relies on. -/
structure Ready (s : ChatSystem) (c : Nat) (call : SendCall)
    (m : ChatMessage) : Prop where
  here : s.calls c = some call
  attached : call.Attached s c
  inserted : call.Inserted s c m
  enqueued : call.enqueued = some (messageCreated m.id)

namespace Ready

variable {m : ChatMessage} {r : SendMessageResult}

/-- The message of a call that is ready to commit is the one of its own
pair. -/
theorem isFor (h : Ready s c call m) {p q : Uuid} :
    ChatDb.IsFor p q m ↔ call.input.pair = (p, q) := by
  obtain ⟨id, now, rfl⟩ := h.inserted.row
  unfold ChatDb.IsFor SendMessageInput.pair
  rw [Prod.mk.injEq]
  exact and_congr_right fun _ => Option.some_inj

/-- Its commit appends the message. -/
theorem rows (h : Ready s c call m) : (s.db.apply call).messages.rows
    = s.db.messages.rows ++ [m] :=
  ChatDb.rows_apply h.inserted.inserted h.inserted.fresh

/-- Stored messages stay, and the one of this call comes. -/
theorem findMessage (h : Ready s c call m) (p q : Uuid) :
    (s.db.apply call).findMessageByClientId p q
      = (s.db.findMessageByClientId p q).or
        (if call.input.pair = (p, q) then some m else none) := by
  rw [ChatDb.findMessage_append h.rows]
  congr 1
  by_cases hm : ChatDb.IsFor p q m
  · rw [if_pos hm, if_pos (h.isFor.mp hm)]
  · rw [if_neg hm, if_neg]
    exact fun hpair => hm (h.isFor.mpr hpair)

/-- What was found before the commit is found after it. -/
theorem findMessage_of_some (h : Ready s c call m) {p q : Uuid} {x : ChatMessage}
    (hx : s.db.findMessageByClientId p q = some x) :
    (s.db.apply call).findMessageByClientId p q = some x := by
  rw [h.findMessage, hx]
  rfl

/-- Before the commit the pair has no message. -/
theorem free (h : Ready s c call m) {p q : Uuid} (hpair : call.input.pair = (p, q)) :
    s.db.findMessageByClientId p q = none := by
  cases hpair
  exact h.inserted.free

/-- After the commit the call's own message is the stored one. -/
theorem stored (h : Ready s c call m) :
    (s.db.apply call).stored call.input = some m := by
  unfold ChatDb.stored
  rw [h.findMessage, h.free rfl]
  exact if_pos rfl

/-- The commit keeps the unique index. -/
theorem consistent (h : Ready s c call m) (hdb : s.db.Consistent) :
    (s.db.apply call).Consistent := by
  have houtbox := hdb.outbox_apply h.enqueued h.inserted.fresh
  have hhas : ∀ o, call.attached = some o →
      ∃ old, s.db.objects.find? o.id = some old := by
    intro o ho
    obtain ⟨old, hold, -⟩ := h.attached.temporary o ho
    exact ⟨old, hold⟩
  have hmem : ∀ x, x ∈ (s.db.apply call).messages.rows
      ↔ x ∈ s.db.messages.rows ∨ x = m := by
    intro x
    rw [h.rows, List.mem_append, List.mem_singleton]
  have halone : ∀ x ∈ s.db.messages.rows, ∀ p q, ChatDb.IsFor p q x →
      ¬ ChatDb.IsFor p q m := by
    intro x hx p q hfor hm
    exact ChatDb.findMessage_eq_none.mp (h.free (h.isFor.mp hm)) x hx hfor
  constructor
  · intro x hx y hy p q hxfor hyfor
    rcases (hmem x).mp hx with hx | rfl
    · rcases (hmem y).mp hy with hy | rfl
      · exact hdb.unique x hx y hy p q hxfor hyfor
      · exact absurd hyfor (halone x hx p q hxfor)
    · rcases (hmem y).mp hy with hy | rfl
      · exact absurd hxfor (halone y hy p q hyfor)
      · rfl
  · intro x hx hclient
    rw [houtbox]
    rcases (hmem x).mp hx with hx | rfl
    · exact List.mem_append_left _ (hdb.announced x hx hclient)
    · exact List.mem_append_right _ (List.mem_singleton_self _)
  · intro e he
    rw [houtbox, List.mem_append, List.mem_singleton] at he
    rcases he with he | rfl
    · obtain ⟨heq, hmessage⟩ := hdb.keys e he
      refine ⟨heq, ?_⟩
      obtain ⟨x, hx, hid⟩ := List.mem_map.mp hmessage
      exact List.mem_map.mpr ⟨x, (hmem x).mpr (Or.inl hx), hid⟩
    · exact ⟨rfl, List.mem_map.mpr ⟨m, (hmem m).mpr (Or.inr rfl), rfl⟩⟩
  · intro x hx u hu o ho
    rcases ChatDb.find?_objects_apply hhas u with ⟨o', ho', -, hfind⟩ | ⟨hne, hfind⟩
    · cases hfind.symm.trans ho
      rw [h.attached.status o ho']
      exact nofun
    · rw [hfind] at ho
      rcases (hmem x).mp hx with hx | rfl
      · exact hdb.attached x hx u hu o ho
      · obtain ⟨id, now, rfl⟩ := h.inserted.row
        exact absurd hu hne

/-- The upload that this call attached. -/
theorem findObject (h : Ready s c call m) (id : Uuid) :
    call.input.attachmentUploadId.map UuidText.value = some id
      ∨ call.attached.map StorageObject.id ≠ some id
        ∧ (s.db.apply call).objects.find? id = s.db.objects.find? id := by
  have hhas : ∀ o, call.attached = some o →
      ∃ old, s.db.objects.find? o.id = some old := by
    intro o ho
    obtain ⟨old, hold, -⟩ := h.attached.temporary o ho
    exact ⟨old, hold⟩
  rcases ChatDb.find?_objects_apply hhas id with ⟨o, ho, hid, -⟩ | hsame
  · left
    rw [← h.attached.upload, ho, ← hid]
    rfl
  · exact Or.inr hsame

/-- What another call holds when this one commits. -/
theorem holds (h : Ready s c call m)
    (hids : ∀ m', call'.inserted = some m' → m'.id ≠ m.id) (hd : d ≠ c)
    (hholds : call'.Holds cfg s d) :
    call'.Holds cfg (s.commitCall c call r) d := by
  have hattached : call'.Attached s d →
      call'.Attached (s.commitCall c call r) d := by
    intro h
    obtain ⟨hupload, hlocked, htemporary, hstatus⟩ := h
    refine ⟨hupload, fun o ho => filter_ne_of_ne hd (hlocked o ho), ?_, hstatus⟩
    intro o ho
    obtain ⟨old, hold, hold'⟩ := htemporary o ho
    refine ⟨old, ?_, hold'⟩
    rcases ChatDb.find?_objects_apply (fun x hx => by
        obtain ⟨y, hy, -⟩ := h.attached.temporary x hx
        exact ⟨y, hy⟩) o.id with ⟨x, hx, hid, -⟩ | ⟨-, hsame⟩
    · -- Both would have the lock of the row.
      have hlock := h.attached.locked x hx
      rw [hid, hlocked o ho] at hlock
      exact absurd (Option.some.inj hlock) hd
    · exact hsame.trans hold
  have hinserted : ∀ m', call'.Inserted s d m' →
      call'.Inserted (s.commitCall c call r) d m' := by
    intro m' h
    obtain ⟨hsome, hrow, hentry, hfree, hfresh, hdrawn⟩ := h
    refine ⟨hsome, hrow, filter_ne_of_ne hd hentry, ?_, ?_, hdrawn⟩
    · show (s.db.apply call).findMessageByClientId _ _ = none
      unfold ChatDb.stored at hfree
      rw [h.findMessage, hfree]
      refine if_neg ?_
      intro hpair
      have hlock := h.inserted.entry
      rw [hpair] at hlock
      exact hd (Option.some.inj (hentry.symm.trans hlock))
    · rintro hhas
      obtain ⟨x, hx, hid⟩ := List.mem_map.mp hhas
      have hx' : x ∈ (s.db.apply call).messages.rows := hx
      rw [h.rows, List.mem_append, List.mem_singleton] at hx'
      rcases hx' with hx' | rfl
      · exact hfresh (List.mem_map.mpr ⟨x, hx', hid⟩)
      · exact hids m' hsome hid.symm
  have hreplays : ∀ r', call'.Replays cfg s r' →
      call'.Replays cfg (s.commitCall c call r) r' := by
    intro r' h
    obtain ⟨x, hx, hr⟩ := h
    exact ⟨x, h.findMessage_of_some hx, hr⟩
  exact hholds.imp hattached hinserted hreplays

end Ready

/-- The commit of a message. The stored rows grow by it, the unique index is
kept because the call holds the entry of its pair, and the other calls keep
what they hold. -/
theorem Sound.commitMessage (h : Sound cfg db s) {m : ChatMessage}
    (hready : Ready s c call m)
    (hrunning : ∀ r, call.phase ≠ .returned (.ok r)) :
    Sound cfg db (s.commitCall c call
      ⟨mapMessageDto (cfg.displayName m.senderId) m, true⟩) := by
  generalize hr : (⟨mapMessageDto (cfg.displayName m.senderId) m, true⟩ :
    SendMessageResult) = r
  have hother : ∀ {d : Nat}, d ≠ c →
      (s.commitCall c call r).calls d = s.calls d := fun hd =>
    Function.update_of_ne hd _ _
  have hself : (s.commitCall c call r).calls c
      = some ⟨call.input, .returned (.ok r), none, none, none⟩ :=
    Function.update_self _ _ _
  have hne : ∀ {d x r'}, s.Succeeded d x r' → d ≠ c := by
    intro d x r' h heq
    obtain ⟨hx, hphase⟩ := h
    subst heq
    cases hready.here.symm.trans hx
    exact hrunning r' hphase
  have hsucceeded : ∀ {d x r'}, s.Succeeded d x r' →
      (s.commitCall c call r).Succeeded d x r' := by
    intro d x r' hx
    exact ⟨(hother (hne hx)).trans hx.1, hx.2⟩
  have hcreates : ∀ {p q d}, s.Creates p q d →
      (s.commitCall c call r).Creates p q d := by
    intro p q d h
    obtain ⟨x, r', hx, htrue⟩ := h
    exact ⟨x, r', hsucceeded hx, htrue⟩
  have hmine : (s.commitCall c call r).Succeeded c
      ⟨call.input, .returned (.ok r), none, none, none⟩ r := ⟨hself, rfl⟩
  have htrue : r.created = true := by
    rw [← hr]
  -- Who creates is this call, or created before.
  have hback : ∀ {p q d}, (s.commitCall c call r).Creates p q d →
      d = c ∧ call.input.pair = (p, q) ∨ d ≠ c ∧ s.Creates p q d := by
    intro p q d h
    obtain ⟨x, r', ⟨hx, hphase⟩, htrue', hpair⟩ := h
    by_cases hd : d = c
    · subst hd
      cases hself.symm.trans hx
      exact Or.inl ⟨rfl, hpair⟩
    · exact Or.inr ⟨hd, x, r', ⟨(hother hd).symm.trans hx, hphase⟩, htrue', hpair⟩
  -- Nobody has created a message of the pair.
  have hfirst : ∀ {p q d}, call.input.pair = (p, q) → ¬ s.Creates p q d := by
    intro p q d hpair h
    obtain ⟨x, r', ⟨hx, hphase⟩, -, hpair'⟩ := h
    have hholds := h.call d x hx
    unfold SendCall.Holds at hholds
    rw [hphase] at hholds
    obtain ⟨-, y, hy, -⟩ := hholds
    have hfree := hready.free hpair
    cases hpair'
    exact absurd (hy.symm.trans hfree) nofun
  have hcids : ∀ d x m', d ≠ c → s.calls d = some x → x.inserted = some m' →
      m'.id ≠ m.id := by
    intro d x m' hd hx hm' hid
    exact hd (h.ids d c x call m' m hx hready.here hm' hready.inserted.inserted hid)
  constructor
  · exact hready.consistent h.consistent
  · intro x hx
    have hx' : x ∈ (s.db.apply call).messages.rows := hx
    rw [hready.rows, List.mem_append, List.mem_singleton] at hx'
    rcases hx' with hx' | rfl
    · exact h.drawn x hx'
    · exact hready.inserted.drawn
  · intro d x hx
    by_cases hd : d = c
    · subst hd
      cases hself.symm.trans hx
      refine ⟨⟨rfl, rfl, rfl⟩, m, hready.stored, ?_, ?_⟩
      · obtain ⟨id, now, rfl⟩ := hready.inserted.row
        exact ⟨rfl, rfl, hready.attached.upload⟩
      · rw [← hr]
    · rw [hother hd] at hx
      exact hready.holds (fun m' hm' => hcids d x m' hd hx hm') hd (h.call d x hx)
  · intro d e x y m₁ m₂ hx hy hm₁ hm₂ hid
    have hd : d ≠ c := by
      intro heq
      subst heq
      cases hself.symm.trans hx
      cases hm₁
    have he : e ≠ c := by
      intro heq
      subst heq
      cases hself.symm.trans hy
      cases hm₂
    rw [hother hd] at hx
    rw [hother he] at hy
    exact h.ids d e x y m₁ m₂ hx hy hm₁ hm₂ hid
  · exact fun p q x hx => hready.findMessage_of_some (h.kept p q x hx)
  · intro p q x hx
    have hx' : (s.db.apply call).findMessageByClientId p q = some x := hx
    by_cases hpair : call.input.pair = (p, q)
    · exact Or.inr ⟨c, _, r, hmine, htrue, hpair⟩
    · rw [hready.findMessage, if_neg hpair, Option.or_none] at hx'
      refine (h.creator p q x hx').imp_right ?_
      intro h
      obtain ⟨d, hd⟩ := h
      exact ⟨d, hcreates hd⟩
  · intro p q d hd
    rcases hback hd with ⟨-, hpair⟩ | ⟨-, hd⟩
    · have hfree := hready.free hpair
      cases hkept : db.findMessageByClientId p q with
      | none => rfl
      | some x => exact absurd ((h.kept p q x hkept).symm.trans hfree) nofun
    · exact h.first p q d hd
  · intro p q d e hd he
    rcases hback hd with ⟨hd, hpair⟩ | ⟨-, hd'⟩
    · rcases hback he with ⟨he, -⟩ | ⟨-, he'⟩
      · rw [hd, he]
      · exact absurd he' (hfirst hpair)
    · rcases hback he with ⟨-, hpair⟩ | ⟨-, he'⟩
      · exact absurd hd' (hfirst hpair)
      · exact h.once p q d e hd' he'
  · intro id
    rcases hready.findObject id with hupload | ⟨-, hsame⟩
    · exact Or.inr ⟨c, _, r, hmine, htrue, hupload⟩
    · have hsame' : (s.commitCall c call r).db.objects.find? id
          = s.db.objects.find? id := hsame
      rw [hsame']
      refine (h.objects id).imp_right ?_
      intro h
      obtain ⟨d, x, r', hx, hx'⟩ := h
      exact ⟨d, x, r', hsucceeded hx, hx'⟩

/-- A commit makes the message and its event visible together, and ends the
call. -/
theorem Sound.commit (h : Sound cfg db s) (c : Nat) : Sound cfg db (s.commit c) := by
  apply h.withCall
  intro call hc
  split
  · next result hphase =>
      have hholds := h.call c call hc
      have hrunning : ∀ r, call.phase ≠ .returned (.ok r) := by
        rw [hphase]
        exact nofun
      unfold SendCall.Holds at hholds
      rw [hphase] at hholds
      rcases hholds with ⟨hclean, hreplays, hfalse⟩ | ⟨ha, m, hm, he, rfl⟩
      · have hsame : s.commitCall c call result = s.endCall c call (.ok result) := by
          unfold commitCall
          rw [ChatDb.apply_eq_self
            ⟨hclean.attached, hclean.inserted, hclean.enqueued⟩]
          rfl
        rw [hsame]
        apply h.endCall hc hrunning
        intro r h
        cases h
        exact ⟨hreplays, hfalse⟩
      · exact h.commitMessage ⟨hc, ha, hm, he⟩ hrunning
  · exact h

/-- Every statement of every call keeps what the calls hold and what is
stored in step. -/
theorem Sound.step (h : Sound cfg db s) (e : SendEvent) :
    Sound cfg db (ChatSystem.step cfg s e) := by
  cases e with
  | call c input => exact h.begin c input
  | authorized c parties muted blocked => exact h.authorized c parties muted blocked
  | find c => exact h.find c
  | lock c => exact h.lock c
  | findLocked c => exact h.findLocked c
  | attach c now => exact h.attach c now
  | insert c id now => exact h.insert c id now
  | findConcurrent c => exact h.findConcurrent c
  | enqueue c => exact h.enqueue c
  | commit c => exact h.commit c
  | fail c message => exact h.fail c message

/-- Before any call, what is stored is sound if the index holds. -/
theorem started_sound (cfg : ChatConfig) (hdb : db.Consistent) :
    Sound cfg db (started db) where
  consistent := hdb
  drawn m hm := List.mem_map_of_mem hm
  call c call h := by cases h
  ids c d call call' m m' h := by cases h
  kept _ _ _ := id
  creator _ _ _ := Or.inl
  first p q c := by
    intro h'
    obtain ⟨call, r, ⟨h, -⟩, -⟩ := h'
    cases h
  once p q c d := by
    intro h'
    obtain ⟨call, r, ⟨h, -⟩, -⟩ := h'
    cases h
  objects _ := Or.inl rfl

end ChatSystem

-- =========================================================== what follows

/-- The lookup that a call is about to make. -/
def SendPhase.lookUp (c : Nat) : SendPhase → Option SendEvent
  | .finding => some (.find c)
  | .findingLocked => some (.findLocked c)
  | .findingConcurrent => some (.findConcurrent c)
  | _ => none

namespace ChatSystem

variable {cfg : ChatConfig} {db : ChatDb} {s : ChatSystem} {c : Nat}
  {call : SendCall}

/-- A stored message with other content ends the call that finds it with a
conflict, at any of its three looks, and nothing is written. -/
theorem reused_of_lookUp {e : SendEvent} {m : ChatMessage}
    (hc : s.calls c = some call) (he : call.phase.lookUp c = some e)
    (hm : s.db.stored call.input = some m) (hdiffers : ¬ call.input.Matches m) :
    (step cfg s e).db = s.db
      ∧ ∃ call', (step cfg s e).calls c = some call'
        ∧ call'.phase = .returned (.error clientMessageIdReused) := by
  have hverify : verifyMessageReplay (cfg.displayName m.senderId) m call.input
      = .error clientMessageIdReused := by
    refine if_pos ?_
    by_contra hsame
    exact hdiffers (SendMessageInput.matches_of_not_differs hsame)
  have hend : (s.endCall c call (.error clientMessageIdReused)).db = s.db
      ∧ ∃ call', (s.endCall c call (.error clientMessageIdReused)).calls c
        = some call' ∧ call'.phase = .returned (.error clientMessageIdReused) :=
    ⟨rfl, _, Function.update_self _ _ _, rfl⟩
  cases hphase : call.phase with
  | finding =>
      rw [hphase] at he
      cases he
      have hstep : step cfg s (.find c)
          = s.endCall c call (.error clientMessageIdReused) := by
        show s.find cfg c = _
        unfold ChatSystem.find withCall
        simp only [hc, hphase, hm, hverify]
      rw [hstep]
      exact hend
  | findingLocked =>
      rw [hphase] at he
      cases he
      have hstep : step cfg s (.findLocked c)
          = s.endCall c call (.error clientMessageIdReused) := by
        show s.findLocked cfg c = _
        unfold ChatSystem.findLocked withCall
        simp only [hc, hphase, hm, replay, hverify]
      rw [hstep]
      exact hend
  | findingConcurrent =>
      rw [hphase] at he
      cases he
      have hstep : step cfg s (.findConcurrent c)
          = s.endCall c call (.error clientMessageIdReused) := by
        show s.findConcurrent cfg c = _
        unfold ChatSystem.findConcurrent withCall
        simp only [hc, hphase, hm, replay, hverify]
      rw [hstep]
      exact hend
  | _ =>
      rw [hphase] at he
      cases he

/-- A call that has written nothing replays inside its transaction, and the
commit leaves the database alone. -/
theorem commit_replay {m : ChatMessage} {r : SendMessageResult}
    (hclean : call.Clean)
    (hverify : verifyMessageReplay (cfg.displayName m.senderId) m call.input
      = .ok r) :
    ((s.replay cfg c call m).commit c).db = s.db
      ∧ ∃ call', ((s.replay cfg c call m).commit c).calls c = some call'
        ∧ call'.phase = .returned (.ok r) := by
  have hreplay : s.replay cfg c call m
      = s.setCall c { call with phase := .committing r } := by
    unfold replay
    rw [hverify]
  have hcall : (s.setCall c { call with phase := .committing r }).calls c
      = some { call with phase := .committing r } :=
    Function.update_self _ _ _
  rw [hreplay]
  unfold ChatSystem.commit withCall
  rw [hcall]
  exact ⟨ChatDb.apply_eq_self
    ⟨hclean.attached, hclean.inserted, hclean.enqueued⟩,
    _, Function.update_self _ _ _, rfl⟩

/-- A stored message with the same content ends the call that finds it. It
is what the call returns, as one that was not created, and nothing is
written; a lookup under the lock returns it by the commit. -/
theorem Sound.replayed_of_lookUp (h : Sound cfg db s) {e : SendEvent}
    {m : ChatMessage} (hc : s.calls c = some call)
    (he : call.phase.lookUp c = some e) (hm : s.db.stored call.input = some m)
    (hsame : ¬ call.input.Differs m) :
    (run (ChatSystem.step cfg) s [e, .commit c]).db = s.db
      ∧ ∃ call', (run (ChatSystem.step cfg) s [e, .commit c]).calls c = some call'
        ∧ call'.phase = .returned
          (.ok ⟨mapMessageDto (cfg.displayName m.senderId) m, false⟩) := by
  have hverify : verifyMessageReplay (cfg.displayName m.senderId) m call.input
      = .ok ⟨mapMessageDto (cfg.displayName m.senderId) m, false⟩ :=
    if_neg hsame
  have hholds := h.call c call hc
  unfold SendCall.Holds at hholds
  cases hphase : call.phase with
  | finding =>
      rw [hphase] at he
      cases he
      have hstep : s.find cfg c = s.endCall c call
          (.ok ⟨mapMessageDto (cfg.displayName m.senderId) m, false⟩) := by
        unfold ChatSystem.find ChatSystem.withCall
        simp only [hc, hphase, hm, hverify]
      show ((s.find cfg c).commit c).db = _ ∧ ∃ call',
        ((s.find cfg c).commit c).calls c = some call' ∧ _
      rw [hstep]
      -- the call has returned, and its commit does nothing
      have hended : (s.endCall c call
          (.ok ⟨mapMessageDto (cfg.displayName m.senderId) m, false⟩)).calls c
          = some _ := Function.update_self _ _ _
      unfold ChatSystem.commit ChatSystem.withCall
      rw [hended]
      exact ⟨rfl, _, hended, rfl⟩
  | findingLocked =>
      rw [hphase] at he hholds
      cases he
      have hstep : s.findLocked cfg c = s.replay cfg c call m := by
        unfold ChatSystem.findLocked ChatSystem.withCall
        simp only [hc, hphase, hm]
      show ((s.findLocked cfg c).commit c).db = _ ∧ ∃ call',
        ((s.findLocked cfg c).commit c).calls c = some call' ∧ _
      rw [hstep]
      exact commit_replay hholds hverify
  | findingConcurrent =>
      rw [hphase] at he hholds
      cases he
      have hstep : s.findConcurrent cfg c = s.replay cfg c call m := by
        unfold ChatSystem.findConcurrent ChatSystem.withCall
        simp only [hc, hphase, hm]
      show ((s.findConcurrent cfg c).commit c).db = _ ∧ ∃ call',
        ((s.findConcurrent cfg c).commit c).calls c = some call' ∧ _
      rw [hstep]
      exact commit_replay (h.clean_of_matches hholds.1 hholds.2 hm
        (SendMessageInput.matches_of_not_differs hsame)) hverify
  | _ =>
      rw [hphase] at he
      cases he

/-- No step but a commit changes the database. -/
theorem db_step (s : ChatSystem) (e : SendEvent) (he : ∀ c, e ≠ .commit c) :
    (step cfg s e).db = s.db := by
  have hcall : ∀ {c : Nat} {f : SendCall → ChatSystem},
      (∀ call, (f call).db = s.db) → (s.withCall c f).db = s.db := by
    intro c f hf
    unfold withCall
    split
    · rfl
    · exact hf _
  have hreplay : ∀ c call m, (s.replay cfg c call m).db = s.db := by
    intro c call m
    unfold replay
    split
    · rfl
    · rfl
  cases e with
  | call c input =>
      show (s.call c input).db = s.db
      unfold ChatSystem.call
      split
      · rfl
      · split
        · rfl
        · rfl
  | authorized c parties muted blocked =>
      apply hcall
      intro call
      split
      · split
        · rfl
        · rfl
      · rfl
  | find c =>
      apply hcall
      intro call
      split
      · split
        · rfl
        · rfl
      · rfl
  | lock c =>
      apply hcall
      intro call
      split
      · dsimp only
        split
        · rfl
        · rfl
      · rfl
  | findLocked c =>
      apply hcall
      intro call
      split
      · split
        · exact hreplay c call _
        · rfl
      · rfl
  | attach c now =>
      apply hcall
      intro call
      split
      · split
        · rfl
        · split
          · rfl
          · rfl
      · rfl
  | insert c id now =>
      apply hcall
      intro call
      split
      · split
        · rfl
        · split
          · rfl
          · rfl
      · rfl
  | findConcurrent c =>
      apply hcall
      intro call
      split
      · split
        · exact hreplay c call _
        · rfl
      · rfl
  | enqueue c =>
      apply hcall
      intro call
      split
      · rfl
      · rfl
  | commit c => exact absurd rfl (he c)
  | fail c message =>
      apply hcall
      intro call
      split
      · rfl
      · rfl

/-- A commit that changes the database is that of a call that creates. -/
theorem Sound.creates_of_commit (h : Sound cfg db s) (hdb : (s.commit c).db ≠ s.db) :
    ∃ call r, (s.commit c).Succeeded c call r ∧ r.created = true := by
  unfold ChatSystem.commit at hdb ⊢
  cases hc : s.calls c with
  | none =>
      simp only [ChatSystem.withCall, hc] at hdb
      exact absurd rfl hdb
  | some call =>
      simp only [ChatSystem.withCall, hc] at hdb ⊢
      cases hphase : call.phase with
      | committing result =>
          simp only [hphase] at hdb ⊢
          have hholds := h.call c call hc
          unfold SendCall.Holds at hholds
          rw [hphase] at hholds
          rcases hholds with ⟨hclean, -⟩ | ⟨-, m, -, -, rfl⟩
          · exact absurd (ChatDb.apply_eq_self
              ⟨hclean.attached, hclean.inserted, hclean.enqueued⟩) hdb
          · exact ⟨_, _, ⟨Function.update_self _ _ _, rfl⟩, rfl⟩
      | _ =>
          simp only [hphase] at hdb
          exact absurd rfl hdb

/-- What calls of `sendMessageIdempotently` do to a database `db`. -/
structure ExactlyOnce (cfg : ChatConfig) (db : ChatDb) (s : ChatSystem) :
    Prop where
  one : ∀ senderId clientMessageId, (s.db.messages.rows.filter fun m =>
    ChatDb.IsFor senderId clientMessageId m).length ≤ 1
  announced : ∀ m ∈ s.db.messages.rows, m.clientMessageId.isSome →
    (s.db.outbox.rows.filter fun e => e.messageId = m.id)
      = [messageCreated m.id]
  same : ∀ c call r, s.Succeeded c call r → ∃ m,
    s.db.stored call.input = some m ∧ call.input.Matches m
      ∧ r.message = mapMessageDto (cfg.displayName m.senderId) m
  created : ∀ senderId clientMessageId m,
    s.db.findMessageByClientId senderId clientMessageId = some m →
      db.findMessageByClientId senderId clientMessageId = none →
        ∃! c, s.Creates senderId clientMessageId c
  first : ∀ senderId clientMessageId c, s.Creates senderId clientMessageId c →
    db.findMessageByClientId senderId clientMessageId = none
  /-- Each of the three lookups. -/
  reused : ∀ c call e m, s.calls c = some call →
    call.phase.lookUp c = some e → s.db.stored call.input = some m →
      ¬ call.input.Matches m → (step cfg s e).db = s.db
        ∧ ∃ call', (step cfg s e).calls c = some call'
          ∧ call'.phase = .returned (.error clientMessageIdReused)
  changes : ∀ e, (step cfg s e).db ≠ s.db → ∃ c call r, e = .commit c
    ∧ (step cfg s e).Succeeded c call r ∧ r.created = true
  attached : ∀ id, s.db.objects.find? id = db.objects.find? id
    ∨ ∃ c call r, s.Succeeded c call r ∧ r.created = true
      ∧ call.input.attachmentUploadId.map UuidText.value = some id

/-- Sound states send every message exactly once. -/
theorem Sound.exactlyOnce (h : Sound cfg db s) : ExactlyOnce cfg db s where
  one := h.consistent.length_le
  announced m hm := h.consistent.announced_once hm
  same c call r hr := by
    have hholds := h.call c call hr.1
    unfold SendCall.Holds at hholds
    rw [hr.2] at hholds
    exact hholds.2
  created p q m hm hfirst := by
    rcases h.creator p q m hm with hold | ⟨c, hc⟩
    · exact absurd (hold.symm.trans hfirst) nofun
    · exact ⟨c, hc, fun d hd => h.once p q d c hd hc⟩
  first := h.first
  reused c call e m hc he hm hdiffers := reused_of_lookUp hc he hm hdiffers
  changes e he := by
    by_cases hcommit : ∃ c, e = .commit c
    · obtain ⟨c, rfl⟩ := hcommit
      obtain ⟨call, r, hr⟩ := h.creates_of_commit he
      exact ⟨c, call, r, rfl, hr⟩
    · exact absurd (db_step s e fun c hc => hcommit ⟨c, hc⟩) he
  attached := h.objects

/-- Any number of calls, each query a step of its own: a client id has one
message, announced once; whoever succeeds returns it, one call has created
it, and a call that fails or only reads has written nothing. -/
theorem sends_exactlyOnce (cfg : ChatConfig) (db : ChatDb) (hdb : db.Consistent)
    (events : List SendEvent) :
    ExactlyOnce cfg db (run (step cfg) (started db) events) := by
  have hstep : ∀ s e, Sound cfg db s → Sound cfg db (step cfg s e) :=
    fun _ e hs => hs.step e
  exact (run_keeps hstep (started_sound cfg hdb) events).exactlyOnce

-- ================================================================ examples

/-- A database without messages. -/
def noMessages : ChatDb := ⟨.empty, .empty, .empty⟩

/-- It satisfies the index. -/
theorem noMessages_consistent : noMessages.Consistent where
  unique _ hm := absurd hm List.not_mem_nil
  announced _ hm := absurd hm List.not_mem_nil
  keys _ he := absurd he List.not_mem_nil
  attached _ hm := absurd hm List.not_mem_nil

/-- Everybody has one name, and all pairs share one advisory lock. -/
def plainChat : ChatConfig := ⟨fun _ => "user", fun _ => 0⟩

/-- A message of one user to a conversation, always under one client id. -/
def greeting (conversationId : Uuid) : SendMessageInput :=
  ⟨conversationId.asText, ⟨1⟩, (⟨5⟩ : Uuid).asText, "hi", none⟩

/-- A call that sends it without being disturbed. -/
def sending (c : Nat) : List SendEvent :=
  [.call c (greeting ⟨2⟩), .authorized c (some ⟨⟨1⟩, ⟨3⟩⟩) false false, .find c,
    .lock c, .findLocked c, .insert c ⟨7⟩ 0, .enqueue c, .commit c]

/-- A run of one call sends its message once. -/
theorem sends_exactlyOnce_sending : ExactlyOnce plainChat noMessages
    (run (step plainChat) (started noMessages) (sending 0)) :=
  sends_exactlyOnce plainChat noMessages noMessages_consistent (sending 0)

/-- The client id is used again for a conversation of others: what the call
reports is that. -/
theorem reused_elsewhere_forbidden : ¬ ∀ (cfg : ChatConfig) (db : ChatDb)
    (events : List SendEvent) (c : Nat) (call : SendCall) (m : ChatMessage)
    (e : Failure), db.Consistent →
      (run (step cfg) (started db) events).calls c = some call →
      call.phase = .returned (.error e) →
      (run (step cfg) (started db) events).db.stored call.input = some m →
      ¬ call.input.Matches m → e = clientMessageIdReused := by
  intro h
  have hforbidden := h plainChat noMessages
    (sending 0 ++ [.call 1 (greeting ⟨4⟩),
      .authorized 1 (some ⟨⟨6⟩, ⟨3⟩⟩) false false])
    1 _ _ (forbidden "Forbidden") noMessages_consistent rfl rfl rfl
    (fun hmatches => absurd hmatches.1 (by decide))
  exact absurd hforbidden (by decide)

end ChatSystem

end Skrynia
