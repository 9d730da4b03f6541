/-
Unread counts: messages by the time their transaction began, reads by the
time they were marked.

# The gap

`created_at` is `now()`, the start of the sending transaction; its message
is seen when it commits. In between the transaction waits for the advisory
lock and for the row of its upload. A participant who marks the
conversation read in that time sets a later time than the message will
have, and the message is never counted. So every message is counted in
exactly the runs in which, at each commit, the transaction began after the
last read of whoever receives it.

# The system

`ChatSystem` sends; a call's transaction has a time once it has begun, and
its statements use that. Marking is one statement. `seen` is a history
variable: the messages that were committed when a participant last marked
the conversation.
-/
import Skrynia.Chat.SentOnce

namespace Skrynia

open Relational Stepping

/-- The columns of `conversations` that reading uses. -/
structure ConversationRow where
  id : Uuid
  buyerId : Uuid
  sellerId : Uuid
  buyerLastReadAt : Option Timestamp
  sellerLastReadAt : Option Timestamp

namespace ConversationRow

variable (k : ConversationRow) (userId : Uuid)

/-- A user of the conversation. -/
def Participant : Prop := k.buyerId = userId ∨ k.sellerId = userId

/-- `case when c.buyer_id = $2 then c.buyer_last_read_at else
c.seller_last_read_at end`, or `'epoch'`. -/
def lastReadAt : Timestamp :=
  (if k.buyerId = userId then k.buyerLastReadAt
    else k.sellerLastReadAt).getD 0

/-- The `set` of `markConversationRead`. -/
def markRead (now : Timestamp) : ConversationRow :=
  { k with
    buyerLastReadAt :=
      if k.buyerId = userId then some now else k.buyerLastReadAt
    sellerLastReadAt :=
      if k.sellerId = userId then some now else k.sellerLastReadAt }

/-- The messages that the join `unread` counts. -/
def unread (messages : List ChatMessage) : List ChatMessage :=
  messages.filter fun m => m.conversationId = k.id ∧ m.senderId ≠ userId
    ∧ k.lastReadAt userId < m.createdAt

/-- The `unreadCount` of `getUserConversationPage`. -/
def unreadCount (messages : List ChatMessage) : Nat :=
  (k.unread userId messages).length

end ConversationRow

/-- The sends, the conversations, and when each transaction began. -/
structure ReadSystem where
  chat : ChatSystem
  conversations : Table ConversationRow.id
  /-- When the transaction of a call began. -/
  began : Nat → Option Timestamp
  /-- By conversation and participant. -/
  seen : Uuid → Uuid → List ChatMessage

/-- What may happen next. -/
inductive ReadEvent where
  | send (e : SendEvent)
  /-- The `begin` of a call's transaction. -/
  | begin (c : Nat) (now : Timestamp)
  | getMessagePage (conversationId userId : Uuid)
  | markConversationRead (conversationId userId : Uuid) (now : Timestamp)

namespace ReadSystem

variable (cfg : ChatConfig) (s : ReadSystem)

/-- Before any send. -/
def started (db : ChatDb) (conversations : Table ConversationRow.id) :
    ReadSystem where
  chat := ChatSystem.started db
  conversations := conversations
  began := fun _ => none
  seen := fun _ _ => db.messages.rows

/-- The event with the time of the call's transaction; a transaction that
has not begun runs no statement. -/
def stamped : SendEvent → Option SendEvent
  | .lock c => (s.began c).map fun _ => .lock c
  | .attach c _ => (s.began c).map (.attach c)
  | .insert c id _ => (s.began c).map (.insert c id)
  | e => some e

/-- A statement of a send; within a transaction it has the transaction's
time. -/
def send (e : SendEvent) : ReadSystem :=
  match s.stamped e with
  | none => s
  | some e => { s with chat := ChatSystem.step cfg s.chat e }

/-- A transaction begins. -/
def begin (c : Nat) (now : Timestamp) : ReadSystem :=
  match s.began c with
  | some _ => s
  | none => { s with began := Function.update s.began c (some now) }

/-- `markConversationRead`: one statement. -/
def markConversationRead (conversationId userId : Uuid) (now : Timestamp) :
    ReadSystem :=
  { s with
    conversations := s.conversations.update (·.id = conversationId)
      (fun k => k.markRead userId now) (fun _ => rfl)
    seen := Function.update s.seen conversationId
      (Function.update (s.seen conversationId) userId
        s.chat.db.messages.rows) }

/-- One event. -/
def step : ReadSystem → ReadEvent → ReadSystem
  | s, .send e => s.send cfg e
  | s, .begin c now => s.begin c now
  | s, .getMessagePage _ _ => s
  | s, .markConversationRead conversationId userId now =>
      s.markConversationRead conversationId userId now

-- ================================================================== laws

/-- The messages of others that were not committed when a participant last
marked the conversation. -/
def unseen (k : ConversationRow) (userId : Uuid) : List ChatMessage :=
  s.chat.db.messages.rows.filter fun m => m.conversationId = k.id
    ∧ m.senderId ≠ userId ∧ m ∉ s.seen k.id userId

/-- Each unseen message is one of the unread ones. -/
def AllUnread : Prop :=
  ∀ k ∈ s.conversations.rows, ∀ userId, k.Participant userId →
    ∀ m ∈ s.chat.db.messages.rows, m.conversationId = k.id →
      m.senderId ≠ userId → m ∉ s.seen k.id userId →
      m ∈ k.unread userId s.chat.db.messages.rows

/-- For each participant every unseen message is counted: it is one of the
unread ones, and the count is no less than the number of the unseen. -/
def AllCounted : Prop :=
  ∀ k ∈ s.conversations.rows, ∀ userId, k.Participant userId →
    s.unseen k userId ⊆ k.unread userId s.chat.db.messages.rows
      ∧ (s.unseen k userId).length
        ≤ k.unreadCount userId s.chat.db.messages.rows

/-- The event commits a message that is not stored yet. -/
def Commits (e : ReadEvent) (m : ChatMessage) : Prop :=
  ∃ c call result, e = .send (.commit c) ∧ s.chat.calls c = some call
    ∧ call.phase = .committing result ∧ call.inserted = some m
    ∧ ¬ s.chat.db.messages.Has m.id

/-- A transaction that commits a message began after the last read of each
participant who receives it. -/
def BeganAfterReads (e : ReadEvent) : Prop :=
  ∀ m, s.Commits e m →
    ∀ k ∈ s.conversations.rows, m.conversationId = k.id →
      ∀ userId, k.Participant userId → m.senderId ≠ userId →
        k.lastReadAt userId < m.createdAt

-- =============================================================== commits

variable {cfg s}

/-- A commit applies what its call holds. -/
theorem db_commit (chat : ChatSystem) (c : Nat) :
    (chat.commit c).db = chat.db
        ∧ (∀ call result, chat.calls c = some call →
          call.phase ≠ .committing result)
      ∨ ∃ call result, chat.calls c = some call
        ∧ call.phase = .committing result
        ∧ (chat.commit c).db = chat.db.apply call := by
  unfold ChatSystem.commit ChatSystem.withCall
  cases hc : chat.calls c with
  | none => exact Or.inl ⟨rfl, fun _ _ hcall => nomatch hcall⟩
  | some call =>
      dsimp only
      cases hphase : call.phase with
      | committing result =>
          exact Or.inr ⟨call, result, rfl, hphase, rfl⟩
      | _ =>
          refine Or.inl ⟨rfl, fun call' result hcall hcommitting => ?_⟩
          cases hcall
          cases hphase.symm.trans hcommitting

/-- A commit adds the message that its call inserted, if any. -/
theorem rows_commit (chat : ChatSystem) (c : Nat) :
    (chat.commit c).db.messages.rows = chat.db.messages.rows
        ∧ (∀ call result m, chat.calls c = some call →
          call.phase = .committing result → call.inserted = some m →
          chat.db.messages.Has m.id)
      ∨ ∃ call result m, chat.calls c = some call
        ∧ call.phase = .committing result ∧ call.inserted = some m
        ∧ ¬ chat.db.messages.Has m.id
        ∧ (chat.commit c).db.messages.rows
          = chat.db.messages.rows ++ [m] := by
  obtain ⟨hdb, hno⟩ | ⟨call, result, hc, hphase, hdb⟩ := db_commit chat c
  · refine Or.inl ⟨by rw [hdb], fun call result m hc hphase _ => ?_⟩
    exact absurd hphase (hno call result hc)
  cases hinserted : call.inserted with
  | none =>
      refine Or.inl ⟨?_, fun call' _ m hcall _ hm => ?_⟩
      · rw [hdb]
        unfold ChatDb.apply
        rw [hinserted]
      · cases hc.symm.trans hcall
        cases hinserted.symm.trans hm
  | some m =>
      by_cases hhas : chat.db.messages.Has m.id
      · refine Or.inl ⟨?_, fun call' _ m' hcall _ hm => ?_⟩
        · rw [hdb]
          unfold ChatDb.apply
          rw [hinserted]
          exact congrArg Table.rows (Table.upsert_of_has hhas)
        · cases hc.symm.trans hcall
          cases hinserted.symm.trans hm
          exact hhas
      · refine Or.inr ⟨call, result, m, hc, hphase, hinserted, hhas, ?_⟩
        rw [hdb]
        exact ChatDb.rows_apply hinserted hhas

/-- The stored messages grow by what is committed. -/
theorem rows_step (cfg : ChatConfig) (s : ReadSystem) (e : ReadEvent) :
    (∀ m, ¬ s.Commits e m)
        ∧ (step cfg s e).chat.db.messages.rows = s.chat.db.messages.rows
      ∨ ∃ m, s.Commits e m ∧ (∃ c, e = .send (.commit c))
        ∧ (step cfg s e).chat.db.messages.rows
          = s.chat.db.messages.rows ++ [m] := by
  have hother : (∀ c, e ≠ .send (.commit c)) → ∀ m, ¬ s.Commits e m := by
    intro hne m h
    obtain ⟨c, call, result, he, -⟩ := h
    exact hne c he
  cases e with
  | send e =>
      by_cases hcommit : ∃ c, e = .commit c
      · obtain ⟨c, rfl⟩ := hcommit
        obtain ⟨hrows, hhas⟩ | ⟨call, result, m, hc, hphase, hm, hnew, hrows⟩ :=
          rows_commit s.chat c
        · refine Or.inl ⟨?_, hrows⟩
          intro m h
          obtain ⟨c', call, result, he, hc, hphase, hm, hnew⟩ := h
          cases he
          exact hnew (hhas call result m hc hphase hm)
        · exact Or.inr ⟨m, ⟨c, call, result, rfl, hc, hphase, hm, hnew⟩,
            ⟨c, rfl⟩, hrows⟩
      · refine Or.inl ⟨hother fun c he => hcommit ⟨c, by cases he; rfl⟩, ?_⟩
        show (s.send cfg e).chat.db.messages.rows = _
        unfold send
        cases hstamped : s.stamped e with
        | none => rfl
        | some e' =>
            have hne : ∀ c, e' ≠ .commit c := by
              intro c heq
              subst heq
              unfold stamped at hstamped
              split at hstamped
              · cases hb : s.began _ with
                | none => rw [hb] at hstamped; cases hstamped
                | some t => rw [hb] at hstamped; cases hstamped
              · cases hb : s.began _ with
                | none => rw [hb] at hstamped; cases hstamped
                | some t => rw [hb] at hstamped; cases hstamped
              · cases hb : s.began _ with
                | none => rw [hb] at hstamped; cases hstamped
                | some t => rw [hb] at hstamped; cases hstamped
              · cases hstamped
                exact hcommit ⟨c, rfl⟩
            exact congrArg (fun db : ChatDb => db.messages.rows)
              (ChatSystem.db_step s.chat e' hne)
  | begin c now =>
      refine Or.inl ⟨hother nofun, ?_⟩
      show (s.begin c now).chat.db.messages.rows = _
      unfold begin
      split
      · rfl
      · rfl
  | getMessagePage => exact Or.inl ⟨hother nofun, rfl⟩
  | markConversationRead => exact Or.inl ⟨hother nofun, rfl⟩

-- ============================================================= invariant

/-- What a participant has seen is stored. -/
def SeenStored (s : ReadSystem) : Prop :=
  ∀ conversationId userId, s.seen conversationId userId ⊆ s.chat.db.messages.rows

/-- Only a mark changes what is seen. -/
theorem seen_step (cfg : ChatConfig) (s : ReadSystem) (e : ReadEvent)
    (he : ∀ conversationId userId now,
      e ≠ .markConversationRead conversationId userId now) :
    (step cfg s e).seen = s.seen
      ∧ (step cfg s e).conversations = s.conversations := by
  cases e with
  | send e =>
      show (s.send cfg e).seen = _ ∧ (s.send cfg e).conversations = _
      unfold send
      split
      · exact ⟨rfl, rfl⟩
      · exact ⟨rfl, rfl⟩
  | begin c now =>
      show (s.begin c now).seen = _ ∧ (s.begin c now).conversations = _
      unfold begin
      split
      · exact ⟨rfl, rfl⟩
      · exact ⟨rfl, rfl⟩
  | getMessagePage => exact ⟨rfl, rfl⟩
  | markConversationRead conversationId userId now =>
      exact absurd rfl (he conversationId userId now)

/-- Messages stay. -/
theorem subset_step (cfg : ChatConfig) (s : ReadSystem) (e : ReadEvent) :
    s.chat.db.messages.rows ⊆ (step cfg s e).chat.db.messages.rows := by
  obtain ⟨-, hrows⟩ | ⟨m, -, -, hrows⟩ := rows_step cfg s e
  · rw [hrows]
    exact List.Subset.refl _
  · rw [hrows]
    exact List.subset_append_left _ _

/-- What a participant has seen after a mark. -/
theorem seen_markConversationRead (conversationId userId : Uuid)
    (now : Timestamp) (k u : Uuid) :
    (s.markConversationRead conversationId userId now).seen k u
      = if k = conversationId ∧ u = userId then s.chat.db.messages.rows
        else s.seen k u := by
  show Function.update s.seen conversationId _ k u = _
  by_cases hk : k = conversationId
  · subst hk
    rw [Function.update_self]
    by_cases hu : u = userId
    · subst hu
      rw [Function.update_self, if_pos ⟨rfl, rfl⟩]
    · rw [Function.update_of_ne hu, if_neg fun h => hu h.2]
  · rw [Function.update_of_ne hk, if_neg fun h => hk h.1]

/-- What was seen is stored. -/
theorem SeenStored.step (hs : s.SeenStored) (e : ReadEvent) :
    (step cfg s e).SeenStored := by
  intro k u
  by_cases hmark : ∃ conversationId userId now,
      e = .markConversationRead conversationId userId now
  · obtain ⟨conversationId, userId, now, rfl⟩ := hmark
    show (s.markConversationRead conversationId userId now).seen k u
      ⊆ s.chat.db.messages.rows
    rw [seen_markConversationRead]
    by_cases h : k = conversationId ∧ u = userId
    · rw [if_pos h]
      exact List.Subset.refl _
    · rw [if_neg h]
      exact hs k u
  · have hother : ∀ conversationId userId now,
        e ≠ .markConversationRead conversationId userId now := by
      intro conversationId userId now he
      exact hmark ⟨conversationId, userId, now, he⟩
    rw [(seen_step cfg s e hother).1]
    exact List.Subset.trans (hs k u) (subset_step cfg s e)

/-- What counts as seen at the start is stored. -/
theorem started_seenStored (db : ChatDb)
    (conversations : Table ConversationRow.id) :
    (started db conversations).SeenStored :=
  fun _ _ => List.Subset.refl _

/-- At the start every stored message counts as seen, so every unseen one is
unread. -/
theorem started_allUnread (db : ChatDb)
    (conversations : Table ConversationRow.id) :
    (started db conversations).AllUnread := by
  intro k _ userId _ m hm _ _ hseen
  exact absurd hm hseen

-- ================================================================= steps

/-- A message is unread if somebody else sent it after the last reading. -/
theorem mem_unread {k : ConversationRow} {userId : Uuid} {m : ChatMessage}
    {messages : List ChatMessage} : m ∈ k.unread userId messages
      ↔ m ∈ messages ∧ m.conversationId = k.id ∧ m.senderId ≠ userId
        ∧ k.lastReadAt userId < m.createdAt := by
  unfold ConversationRow.unread
  rw [List.mem_filter, decide_eq_true_eq]

/-- A mark leaves what others have read. -/
theorem lastReadAt_markRead {k : ConversationRow} {userId u : Uuid}
    (now : Timestamp) (hu : u ≠ userId) (hpart : k.Participant u) :
    (k.markRead userId now).lastReadAt u = k.lastReadAt u := by
  unfold ConversationRow.lastReadAt ConversationRow.markRead
  dsimp only
  by_cases hbuyer : k.buyerId = u
  · have hne : k.buyerId ≠ userId := by
      rw [hbuyer]
      exact hu
    rw [if_pos hbuyer, if_neg hne, if_pos hbuyer]
  · have hseller : k.sellerId = u := hpart.resolve_left hbuyer
    have hne : k.sellerId ≠ userId := by
      rw [hseller]
      exact hu
    rw [if_neg hbuyer, if_neg hne, if_neg hbuyer]

/-- Messages that are unread are in the count, each once. -/
theorem allCounted_iff : s.AllCounted ↔ s.AllUnread := by
  constructor
  · intro h k hk userId hpart m hm hconversation hsender hseen
    refine (h k hk userId hpart).1 (List.mem_filter.mpr ⟨hm, ?_⟩)
    exact decide_eq_true ⟨hconversation, hsender, hseen⟩
  · intro h k hk userId hpart
    have hunread : ∀ m ∈ s.chat.db.messages.rows,
        (m.conversationId = k.id ∧ m.senderId ≠ userId ∧ m ∉ s.seen k.id userId) →
          m.conversationId = k.id ∧ m.senderId ≠ userId
            ∧ k.lastReadAt userId < m.createdAt := by
      intro m hm hunseen
      obtain ⟨hconversation, hsender, hseen⟩ := hunseen
      exact (mem_unread.mp
        (h k hk userId hpart m hm hconversation hsender hseen)).2
    constructor
    · intro m hm
      obtain ⟨hstored, hunseen⟩ := List.mem_filter.mp hm
      exact mem_unread.mpr ⟨hstored, hunread m hstored (of_decide_eq_true hunseen)⟩
    · unfold unseen ConversationRow.unreadCount ConversationRow.unread
      rw [← List.countP_eq_length_filter, ← List.countP_eq_length_filter]
      refine List.countP_mono_left fun m hm hunseen => ?_
      exact decide_eq_true (hunread m hm (of_decide_eq_true hunseen))

/-- A mark keeps the law: for whoever marks, nothing is unseen. -/
theorem AllUnread.markConversationRead (hs : s.AllUnread)
    (conversationId userId : Uuid) (now : Timestamp) :
    (s.markConversationRead conversationId userId now).AllUnread := by
  intro k hk u hpart m hm hconversation hsender hseen
  rw [seen_markConversationRead] at hseen
  have hne : ¬ (k.id = conversationId ∧ u = userId) := by
    intro h
    rw [if_pos h] at hseen
    exact hseen hm
  rw [if_neg hne] at hseen
  obtain ⟨k₀, hk₀, hk'⟩ := List.mem_map.mp hk
  by_cases hid : k₀.id = conversationId
  · rw [if_pos hid] at hk'
    subst hk'
    have hu : u ≠ userId := fun hu => hne ⟨hid, hu⟩
    have hcounted := hs k₀ hk₀ u hpart m hm hconversation hsender hseen
    rw [mem_unread] at hcounted ⊢
    have hlast := lastReadAt_markRead now hu (k := k₀) hpart
    refine ⟨hm, hconversation, hsender, ?_⟩
    exact lt_of_eq_of_lt hlast hcounted.2.2.2
  · rw [if_neg hid] at hk'
    subst hk'
    exact hs k₀ hk₀ u hpart m hm hconversation hsender hseen

/-- The rows are those before with the message that is committed, so the step
keeps it just when that message is later than what its receiver has read. -/
theorem allUnread_step_iff (hseen : s.SeenStored) (hs : s.AllUnread)
    (e : ReadEvent) :
    (step cfg s e).AllUnread ↔ s.BeganAfterReads e := by
  obtain ⟨hno, hrows⟩ | ⟨m, hm, ⟨c, rfl⟩, hrows⟩ := rows_step cfg s e
  · refine iff_of_true ?_ fun m hm => absurd hm (hno m)
    by_cases hmark : ∃ conversationId userId now,
        e = .markConversationRead conversationId userId now
    · obtain ⟨conversationId, userId, now, rfl⟩ := hmark
      exact hs.markConversationRead conversationId userId now
    · have hother : ∀ conversationId userId now,
          e ≠ .markConversationRead conversationId userId now := by
        intro conversationId userId now he
        exact hmark ⟨conversationId, userId, now, he⟩
      obtain ⟨hsame, hconversations⟩ := seen_step cfg s e hother
      unfold AllUnread
      rw [hsame, hconversations, hrows]
      exact hs
  · obtain ⟨hsame, hconversations⟩ :=
      seen_step cfg s (.send (.commit c)) (fun _ _ _ => nofun)
    have hnew : m ∉ s.chat.db.messages.rows := by
      obtain ⟨-, -, -, -, -, -, -, hfresh⟩ := hm
      exact fun hmem => hfresh (List.mem_map.mpr ⟨m, hmem, rfl⟩)
    have hall : (step cfg s (.send (.commit c))).AllUnread
        ↔ ∀ k ∈ s.conversations.rows, m.conversationId = k.id →
          ∀ userId, k.Participant userId → m.senderId ≠ userId →
            k.lastReadAt userId < m.createdAt := by
      unfold AllUnread
      rw [hsame, hconversations, hrows]
      constructor
      · intro h k hk hconversation userId hpart hsender
        have hcounted := h k hk userId hpart m
          (List.mem_append_right _ (List.mem_singleton_self m))
          hconversation hsender fun hmem => hnew (hseen k.id userId hmem)
        exact (mem_unread.mp hcounted).2.2.2
      · intro h k hk userId hpart m' hm' hconversation hsender hunseen
        rw [mem_unread]
        refine ⟨hm', hconversation, hsender, ?_⟩
        obtain hold | hlast := List.mem_append.mp hm'
        · have hcounted := hs k hk userId hpart m' hold hconversation hsender
            hunseen
          exact (mem_unread.mp hcounted).2.2.2
        · cases List.mem_singleton.mp hlast
          exact h k hk hconversation userId hpart hsender
    rw [hall]
    constructor
    · intro h m' hm'
      have heq : m' = m := by
        obtain ⟨d, call, result, he, hc, -, hinserted, -⟩ := hm
        obtain ⟨d', call', result', he', hc', -, hinserted', -⟩ := hm'
        cases he
        cases he'
        cases hc.symm.trans hc'
        exact Option.some.inj (hinserted'.symm.trans hinserted)
      subst heq
      exact h
    · intro h
      exact h m hm

-- ================================================================== runs

/-- Every unseen message is counted throughout a run exactly when each
transaction that commits one began after its receivers' last reads. A message
has the time at which its transaction began, and that is what the count
compares. -/
theorem unread_counts_all_iff (cfg : ChatConfig) (db : ChatDb)
    (conversations : Table ConversationRow.id) (events : List ReadEvent) :
    (∀ before, before <+: events →
        (run (step cfg) (started db conversations) before).AllCounted)
      ↔ Along (step cfg) BeganAfterReads (started db conversations)
        events := by
  have hseen : ∀ s e, SeenStored s → SeenStored (step cfg s e) :=
    fun s e hs => hs.step e
  have hstep : ∀ s e, SeenStored s → AllUnread s →
      (AllUnread (step cfg s e) ↔ BeganAfterReads s e) :=
    fun s e hseen hs => allUnread_step_iff hseen hs e
  simp only [allCounted_iff]
  exact prefixes_iff_along hseen hstep (started_seenStored db conversations)
    (started_allUnread db conversations)

/-- A conversation of two users. -/
def oneConversation : Table ConversationRow.id :=
  ⟨[⟨⟨2⟩, ⟨1⟩, ⟨3⟩, none, none⟩], List.nodup_singleton _⟩

/-- The transaction begins at 1, the seller reads at 2, and then it
commits: the message is from 1. -/
def readWhileSending : List ReadEvent :=
  [.send (.call 0 (ChatSystem.greeting ⟨2⟩)),
    .send (.authorized 0 (some ⟨⟨1⟩, ⟨3⟩⟩) false false), .send (.find 0),
    .begin 0 1, .markConversationRead ⟨2⟩ ⟨3⟩ 2, .send (.lock 0),
    .send (.findLocked 0), .send (.insert 0 ⟨7⟩ 0), .send (.enqueue 0),
    .send (.commit 0)]

/-- A message that is read past while it is sent is never counted. -/
theorem read_while_sending_loses_message : ¬ ∀ (cfg : ChatConfig)
    (db : ChatDb) (conversations : Table ConversationRow.id)
    (events : List ReadEvent), db.Consistent →
      (run (step cfg) (started db conversations) events).AllCounted := by
  intro h
  have hall := h ChatSystem.plainChat ChatSystem.noMessages oneConversation
    readWhileSending ChatSystem.noMessages_consistent
  have hcounted := allCounted_iff.mp hall ⟨⟨2⟩, ⟨1⟩, ⟨3⟩, none, some 2⟩
    (List.mem_singleton_self _) ⟨3⟩ (Or.inr rfl) ⟨⟨7⟩, ⟨2⟩, ⟨1⟩, some ⟨5⟩, "hi", none, none, 1⟩
    (List.mem_singleton_self _) rfl (by decide) List.not_mem_nil
  exact absurd (mem_unread.mp hcounted).2.2.2 (by decide)

end ReadSystem

end Skrynia
