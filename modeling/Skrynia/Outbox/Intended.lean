/-
Whom an event is to be told, and that its handler tells them.

`intended` is what a handler is for: the notifications that an event asks
for, given the tables at one time. `Handled` says that they all were
stored, published and queued. Whatever fails before or runs beside it, a
handler that has ended has handled its event (`leads_handleDomainEvent`).

# The key

A key ends in the recipient and the type, neither of which it can be
misread with: a type has no colon and an id has one length
(`notificationKey_inj`). So an insert that finds its key taken finds its
own notification.

# What is permitted

A handler stores what is intended and nothing else (`Ok`); what it
publishes and queues belongs to a stored row.
-/
import Skrynia.Outbox.Handlers

namespace Skrynia

namespace OutboxHandlers

open Relational ForkJoin

variable (cfg : HandlerConfig)

-- ============================================================ the purpose

/-- Of a message: none if it is gone or hidden, or the system's own. -/
def messageNotifications (message : Option LoadedMessage) :
    List NotificationInput :=
  match message with
  | some message => message.senderId.toList.map (messageNotification message)
  | none => []

/-- The notifications that an event asks for. -/
def intended (db : HandlerTables) (event : DomainEvent) :
    List NotificationInput :=
  match event.payload with
  | .orderCreated payload => [orderCreatedNotification payload]
  | .orderPaid payload => [
      orderPaidNotification payload payload.sellerId
        "notifications.orderPaidSeller",
      orderPaidNotification payload payload.buyerId
        "notifications.orderPaidBuyer"]
  | .orderStarted payload => [
      orderProgressNotification payload .orderStarted
        "notifications.orderStarted"]
  | .orderDelivered payload => [
      orderProgressNotification payload .orderDelivered
        "notifications.orderDelivered"]
  | .orderCompleted payload =>
      match payload.source with
      | .auto => [payload.buyerId, payload.sellerId].map
          (autoReleasedNotification payload)
      | .dispute => []
      | .buyerConfirmed | .service => [orderCompletedNotification payload]
  | .reviewCreated payload => [reviewCreatedNotification payload]
  | .disputeOpened payload =>
      [payload.buyerId, payload.sellerId].map (disputedNotification payload)
        ++ (db.usersWithRole [.admin]).map (disputeAdminNotification payload)
  | .disputeResolved payload =>
      [payload.buyerId, payload.sellerId].map
        (disputeResolvedNotification payload)
  | .messageCreated messageId => messageNotifications (db.loadMessage messageId)
  | .userWarned payload => [userWarnedNotification payload]
  | .userMuted payload => [userMutedNotification cfg payload]
  | .orderCanceled _ | .orderRefunded _ | .messageModerated _
  | .productBlocked _ | .userBanned _ | .storageDelete _ | .rejected => []

/-- The key of a notification of an event. -/
def keyOf (event : DomainEvent) (input : NotificationInput) : String :=
  notificationEventKey event input.userId input.type

/-- The tables were these at some time since then. -/
def Since (since : List HandlerTables) (db : HandlerTables) (s : Effects) :
    Prop :=
  ∃ l, since <:+ db :: l ∧ db :: l <:+ s.seen

/-- A notification was stored, published under its id and queued. -/
def Notified (event : DomainEvent) (input : NotificationInput) (s : Effects) :
    Prop :=
  ∃ row ∈ s.notifications.rows, row.eventKey = some (keyOf event input)
    ∧ (∃ shown : NotificationRow, shown.id = row.id ∧ shown.values = row.values
      ∧ .user input.userId (.notification shown) (some row.id) ∈ s.published)
    ∧ deliveryJob cfg input (keyOf event input) ∈ s.jobs

/-- At some time since the handler began its tables asked for notifications,
all of which were delivered. -/
def Handled (since : List HandlerTables) (event : DomainEvent) (s : Effects) :
    Prop :=
  ∃ db, Since since db s ∧ ∀ input ∈ intended cfg db event,
    Notified cfg event input s

-- ================================================================ the key

/-- A character that is not in a list is not in its text. -/
theorem notMem_toList_ofList {c : Char} {l : List Char} (h : c ∉ l) :
    c ∉ (String.ofList l).toList := by
  rwa [String.toList_ofList]

/-- No notification type has a colon in its text. -/
theorem colon_notMem_text (type : NotificationType) :
    ':' ∉ type.text.toList := by
  cases type <;> exact notMem_toList_ofList (by decide)

/-- Types of one text are one type. -/
theorem NotificationType.text_injective {t t' : NotificationType}
    (h : t.text = t'.text) : t = t' := by
  cases t <;> cases t' <;> first
    | rfl
    | exact absurd (String.ofList_injective h) (by decide)

/-- Texts that end in a colon and a word are cut in one way. -/
theorem append_colon_inj {a b x y : List Char} (hx : ':' ∉ x) (hy : ':' ∉ y)
    (h : a ++ ':' :: x = b ++ ':' :: y) : a = b ∧ x = y := by
  have hcut : ∀ {a b x y : List Char} (c : List Char), ':' ∉ x →
      b = a ++ c → ':' :: x = c ++ ':' :: y → a = b ∧ x = y := by
    intro a b x y c hx hb hxy
    cases c with
    | nil =>
        rw [List.append_nil] at hb
        exact ⟨hb.symm, List.tail_eq_of_cons_eq hxy⟩
    | cons d ds =>
        refine absurd ?_ hx
        rw [List.tail_eq_of_cons_eq hxy]
        exact List.mem_append_right ds List.mem_cons_self
  rcases List.append_eq_append_iff.mp h with ⟨c, hb, hxy⟩ | ⟨c, ha, hyx⟩
  · exact hcut c hx hb hxy
  · obtain ⟨hab, hyx⟩ := hcut c hy ha hyx
    exact ⟨hab.symm, hyx.symm⟩

/-- The key of an event's key, a recipient and a type. -/
def keyText (eventKey : String) (userId : Uuid) (type : String) : String :=
  eventKey ++ ":notification:" ++ userId.text ++ ":" ++ type

/-- A key tells its event, its recipient and its type. -/
theorem notificationKey_inj {e e' : String} {u u' : Uuid}
    {t t' : NotificationType} (h : keyText e u t.text = keyText e' u' t'.text) :
    e = e' ∧ u = u' ∧ t = t' := by
  have hl := congrArg String.toList h
  unfold keyText at hl
  simp only [String.toList_append, show ":".toList = [':'] from rfl,
    List.append_assoc, List.singleton_append] at hl
  simp only [← List.append_assoc] at hl
  obtain ⟨hl, ht⟩ := append_colon_inj (colon_notMem_text t)
    (colon_notMem_text t') hl
  rw [Uuid.toList_text, Uuid.toList_text] at hl
  obtain ⟨hl, hu⟩ := List.append_inj' hl (by
    rw [Uuid.length_chars, Uuid.length_chars])
  refine ⟨?_, Uuid.chars_injective hu,
    NotificationType.text_injective (String.toList_injective ht)⟩
  exact String.toList_injective (List.append_cancel_right hl)

/-- A key names its event, its recipient and its type. -/
theorem keyOf_inj {event : DomainEvent} {input : NotificationInput} {e : String}
    {u : Uuid} {t : NotificationType} (h : keyOf event input = keyText e u t.text) :
    event.eventKey = e ∧ input.userId = u ∧ input.type = t :=
  notificationKey_inj h

/-- A stored key is one of its own recipient and type. -/
def NotificationValues.Keyed (v : NotificationValues) : Prop :=
  ∀ key ∈ v.eventKey, ∃ (e : String) (t : NotificationType),
    v.type = t.text ∧ key = keyText e v.userId t.text

/-- What a handler stores has a key that names it. -/
theorem keyed_values (event : DomainEvent) (input : NotificationInput) :
    (input.values cfg (keyOf event input)).Keyed := by
  intro key hkey
  cases hkey
  exact ⟨event.eventKey, input.type, rfl, rfl⟩

/-- A row under the key of a notification is for the same recipient and of
the same type. -/
theorem NotificationValues.Keyed.same {v : NotificationValues} (h : v.Keyed)
    {event : DomainEvent} {input : NotificationInput}
    (hkey : v.eventKey = some (keyOf event input)) :
    v.userId = input.userId ∧ v.type = input.type.text := by
  obtain ⟨e, t, htype, heq⟩ := h _ hkey
  obtain ⟨-, hu, ht⟩ := keyOf_inj heq
  exact ⟨hu.symm, by rw [htype, ht]⟩

-- ===================================================== what may happen

/-- The row is stored, but for the time it was read. -/
def Stored (row : NotificationRow) (s : Effects) : Prop :=
  ∃ row' ∈ s.notifications.rows, row'.id = row.id ∧ row'.values = row.values

/-- Every stored notification has a key that names it. -/
def AllKeyed (s : Effects) : Prop :=
  ∀ row ∈ s.notifications.rows, row.values.Keyed

/-- Nothing is taken back, and no foreign key is stored. -/
structure May (s s' : Effects) : Prop where
  stored : ∀ row ∈ s.notifications.rows, Stored row s'
  jobs : ∀ job ∈ s.jobs, job ∈ s'.jobs
  published : ∀ e ∈ s.published, e ∈ s'.published
  seen : s.seen <:+ s'.seen
  keyed : AllKeyed s → AllKeyed s'

/-- Nothing may happen. -/
theorem May.refl (s : Effects) : May s s where
  stored row hrow := ⟨row, hrow, rfl, rfl⟩
  jobs _ h := h
  published _ h := h
  seen := List.suffix_rfl
  keyed h := h

/-- What an access of the event's handler is permitted. -/
def Ok (eventId : Uuid) (event : DomainEvent) (s : Effects) : HandlerOp → Prop
  | .insertNotification values =>
      ∃ db ∈ s.seen, ∃ input ∈ intended cfg db event,
        values = input.values cfg (keyOf event input)
  | .publish (.user userId (.notification row) id) =>
      id = some row.id ∧ userId = row.values.userId ∧ Stored row s
  | .publish (.conversation _ (.message message) id) =>
      id = none ∨ id = some message.id
  | .publish (.conversation _ (.moderated messageId _ _) id) =>
      id = some eventId ∧ ∃ payload, event.payload = .messageModerated payload
        ∧ payload.messageId = messageId
  | .publish (.userBanned userId id) =>
      id = some eventId ∧ event.payload = .userBanned userId
  | .enqueueJob job =>
      ∃ row ∈ s.notifications.rows, ∃ key, row.eventKey = some key
        ∧ job.jobId = deliveryJobId cfg key ∧ job.userId = row.values.userId
        ∧ job.notificationType.text = row.values.type
  | _ => True

/-- What an access does, whatever the database and the queue answer. -/
def Does (s : Effects) (o : HandlerOp) (a : o.Answer) (s' : Effects) : Prop :=
  ∃ drawn, s.perform drawn o = (s', a)

namespace Effects

variable {s s' : Effects}

/-- What an insert does. -/
inductive Inserts (s : Effects) (values : NotificationValues) (drawn : Drawn) :
    Effects × Inserted → Prop where
  | created (h : s.notifications.Free ⟨drawn.id, values, none, drawn.now⟩) :
      Inserts s values drawn
        ({ s with
            notifications :=
              s.notifications.append ⟨drawn.id, values, none, drawn.now⟩ h },
          .created ⟨drawn.id, values, none, drawn.now⟩)
  | conflict : Inserts s values drawn (s, .conflict)
  | violation : Inserts s values drawn (s, .violation)

/-- An insert stores the row, or finds its key taken. -/
theorem inserts (s : Effects) (values : NotificationValues) (drawn : Drawn) :
    Inserts s values drawn (s.insertNotification values drawn) := by
  unfold insertNotification
  dsimp only
  split
  · exact .violation
  · split
    · exact .conflict
    · split
      · next h => exact .created h
      · exact .violation

/-- What is permitted to an insert keeps to the keys. -/
theorem Inserts.may {values : NotificationValues} {drawn : Drawn}
    {r : Effects × Inserted} (h : Inserts s values drawn r)
    (hkeyed : values.Keyed) : May s r.1 := by
  cases h with
  | created hfree =>
      refine ⟨?_, fun _ h => h, fun _ h => h, List.suffix_rfl, ?_⟩
      · intro row hrow
        exact ⟨row, List.mem_append_left _ hrow, rfl, rfl⟩
      · intro hall row hrow
        rcases List.mem_append.mp hrow with hrow | hrow
        · exact hall row hrow
        · rw [List.mem_singleton] at hrow
          rw [hrow]
          exact hkeyed
  | conflict => exact .refl s
  | violation => exact .refl s

/-- Something may be published. -/
theorem may_publish (s : Effects) (e : Published) :
    May s { s with published := s.published ++ [e] } where
  stored row hrow := ⟨row, hrow, rfl, rfl⟩
  jobs _ h := h
  published _ h := List.mem_append_left _ h
  seen := List.suffix_rfl
  keyed h := h

/-- A job may be queued. -/
theorem may_enqueueJob (s : Effects) (job : DeliveryJob) (drawn : Drawn) :
    May s (s.enqueueJob job drawn).1 := by
  unfold enqueueJob
  split
  · exact ⟨fun row hrow => ⟨row, hrow, rfl, rfl⟩,
      fun _ h => List.mem_append_left _ h, fun _ h => h, List.suffix_rfl,
      fun h => h⟩
  · exact .refl s

end Effects

variable {cfg} {eventId : Uuid} {event : DomainEvent} {s s' : Effects}

/-- What a permitted operation does is one of the things that may happen. -/
theorem may_perform (drawn : Drawn) (o : HandlerOp)
    (hok : Ok cfg eventId event s o) : May s (s.perform drawn o).1 := by
  cases o with
  | insertNotification values =>
      obtain ⟨db, -, input, -, hvalues⟩ := hok
      refine (s.inserts values drawn).may ?_
      rw [hvalues]
      exact keyed_values cfg event input
  | publish e => exact s.may_publish e
  | enqueueJob job => exact s.may_enqueueJob job drawn
  | _ => exact .refl s

/-- So it is however the operation's answer comes out. -/
theorem may_of_does {o : HandlerOp} {a : o.Answer}
    (hok : Ok cfg eventId event s o) (h : Does s o a s') : May s s' := by
  obtain ⟨drawn, h⟩ := h
  have := may_perform drawn o hok
  rw [h] at this
  exact this

/-- What others do may happen too. -/
theorem may_others (s : Effects) (d : OthersDo) : May s (s.others d) := by
  cases d with
  | write tables =>
      exact ⟨fun row hrow => ⟨row, hrow, rfl, rfl⟩, fun _ h => h, fun _ h => h,
        List.suffix_cons _ _, fun h => h⟩
  | notify values drawn =>
      refine (s.inserts _ drawn).may ?_
      intro key hkey
      cases hkey
  | markRead userId id now =>
      refine ⟨?_, fun _ h => h, fun _ h => h, List.suffix_rfl, ?_⟩
      · intro row hrow
        exact ⟨_, List.mem_map_of_mem hrow,
          Notifications.id_readRow userId id now row,
          Notifications.values_readRow userId id now row⟩
      · intro hall row hrow
        obtain ⟨old, hold, heq⟩ := List.mem_map.mp hrow
        rw [← heq, Notifications.values_readRow]
        exact hall old hold

-- ------------------------------------------------------------ what lasts

/-- A stored row stays, whatever happens. -/
theorem Stored.later {row : NotificationRow} (hmay : May s s')
    (h : Stored row s) : Stored row s' := by
  obtain ⟨row', hrow', hid, hvalues⟩ := h
  obtain ⟨row'', hrow'', hid', hvalues'⟩ := hmay.stored row' hrow'
  exact ⟨row'', hrow'', hid'.trans hid, hvalues'.trans hvalues⟩

/-- Who was told stays told. -/
theorem stable_notified (input : NotificationInput) :
    Stable May (Notified cfg event input) := by
  intro s s' hmay h
  obtain ⟨row, hrow, hkey, ⟨shown, hid, hvalues, hpublished⟩, hjob⟩ := h
  obtain ⟨row', hrow', hid', hvalues'⟩ := hmay.stored row hrow
  refine ⟨row', hrow', ?_, ⟨shown, hid.trans hid'.symm,
    hvalues.trans hvalues'.symm, ?_⟩, hmay.jobs _ hjob⟩
  · unfold NotificationRow.eventKey
    rw [hvalues']
    exact hkey
  · rw [hid']
    exact hmay.published _ hpublished

/-- The tables of an earlier time stay seen. -/
theorem Since.later {since : List HandlerTables} {db : HandlerTables}
    (hmay : May s s') (h : Since since db s) : Since since db s' := by
  obtain ⟨l, hsince, hl⟩ := h
  exact ⟨l, hsince, hl.trans hmay.seen⟩

/-- The tables at some time since are among those seen. -/
theorem Since.mem {since : List HandlerTables} {db : HandlerTables}
    (h : Since since db s) : db ∈ s.seen := by
  obtain ⟨l, -, hl⟩ := h
  exact hl.subset List.mem_cons_self

/-- An event that was handled stays handled. -/
theorem stable_handled {since : List HandlerTables} :
    Stable May (Handled cfg since event) := by
  intro s s' hmay h
  obtain ⟨db, hdb, hall⟩ := h
  exact ⟨db, hdb.later hmay,
    fun input hinput => stable_notified input s s' hmay (hall input hinput)⟩

-- ================================================================ programs

/-- What a running handler knows from the start. -/
def Begun (since : List HandlerTables) (s : Effects) : Prop :=
  AllKeyed s ∧ since <:+ s.seen

variable {since : List HandlerTables} {F : Effects → Prop}

/-- A handler that has begun has begun. -/
theorem stable_begun : Stable May (Begun since) :=
  fun _ _ hmay h => ⟨hmay.keyed h.1, h.2.trans hmay.seen⟩

/-- The tables of the moment. -/
theorem Begun.now (h : Begun since s) : Since since s.tables s :=
  ⟨s.earlier, h.2, List.suffix_rfl⟩

-- ------------------------------------------------------ one notification

/-- The row that an insert or a select gave back. -/
def Known (event : DomainEvent) (input : NotificationInput)
    (row : NotificationRow) (s : Effects) : Prop :=
  AllKeyed s ∧ row.eventKey = some (keyOf event input) ∧ Stored row s

/-- A row that is known to be stored stays known. -/
theorem stable_known {input : NotificationInput} {row : NotificationRow} :
    Stable May (Known event input row) :=
  fun _ _ hmay h => ⟨hmay.keyed h.1, h.2.1, h.2.2.later hmay⟩

/-- The row is the notification's own. -/
theorem Known.userId {input : NotificationInput} {row : NotificationRow}
    (h : Known event input row s) : row.values.userId = input.userId
      ∧ row.values.type = input.type.text := by
  obtain ⟨row', hrow', -, hvalues⟩ := h.2.2
  have hkeyed := h.1 row' hrow'
  rw [hvalues] at hkeyed
  exact hkeyed.same h.2.1

/-- A row that is stored is published and queued by the time its delivery
ends. -/
theorem leads_deliverNotification (input : NotificationInput)
    (row : NotificationRow) :
    Leads May (Ok cfg eventId event) Does (Known event input row)
      (deliverNotification cfg input (keyOf event input) row)
      (Notified cfg event input) := by
  -- After the publication.
  have hstable : Stable May fun s => Known event input row s
      ∧ .user input.userId (.notification row) (some row.id) ∈ s.published :=
    stable_and stable_known fun s s' hmay h => hmay.published _ h
  refine leads_andThen (leads_perform ?_ hstable ?_) ⟨?_, fun queued => ?_⟩
  · intro s h
    exact ⟨rfl, h.userId.1.symm, h.2.2⟩
  · intro s a s' h hdoes
    obtain ⟨drawn, hdoes⟩ := hdoes
    cases hdoes
    exact ⟨stable_known s _ (s.may_publish _) h,
      List.mem_append_right _ List.mem_cons_self⟩
  · intro s h
    obtain ⟨row', hrow', hid, hvalues⟩ := h.1.2.2
    refine ⟨row', hrow', keyOf event input, ?_, rfl, ?_, ?_⟩
    · unfold NotificationRow.eventKey
      rw [hvalues]
      exact h.1.2.1
    · rw [hvalues]
      exact h.1.userId.1.symm
    · rw [hvalues]
      exact h.1.userId.2.symm
  · cases queued with
    | false => exact ⟨fun _ => True, fun _ _ _ _ => trivial,
        fun _ _ _ _ => trivial, trivial⟩
    | true =>
        refine ⟨_, stable_notified input, ?_, fun s h => h⟩
        intro s s' h hdoes
        obtain ⟨drawn, hdoes⟩ := hdoes
        change s.enqueueJob _ drawn = _ at hdoes
        unfold Effects.enqueueJob at hdoes
        split at hdoes
        · cases hdoes
          obtain ⟨row', hrow', hid, hvalues⟩ := h.1.2.2
          refine ⟨row', hrow', ?_, ⟨row, hid.symm, hvalues.symm, ?_⟩,
            List.mem_append_right _ List.mem_cons_self⟩
          · unfold NotificationRow.eventKey
            rw [hvalues]
            exact h.1.2.1
          · rw [hid]
            exact h.2
        · cases hdoes

/-- A notification that is intended is stored and delivered. The insert does
nothing where the row is there already, and delivery is queued under an id
made of the event's key. -/
theorem leads_createOutboxNotification {input : NotificationInput}
    (hkeyed : ∀ s, F s → AllKeyed s)
    (hintended : ∀ s, F s → ∃ db ∈ s.seen, input ∈ intended cfg db event) :
    Leads May (Ok cfg eventId event) Does F
      (createOutboxNotification cfg event input) (Notified cfg event input) := by
  refine ⟨?_, fun inserted => ?_⟩
  · intro s hs
    obtain ⟨db, hdb, hinput⟩ := hintended s hs
    exact ⟨db, hdb, input, hinput, rfl⟩
  · cases inserted with
    | created row =>
        refine ⟨_, stable_known, ?_, leads_deliverNotification input row⟩
        intro s s' hs hdoes
        obtain ⟨drawn, hdoes⟩ := hdoes
        have hinserts := s.inserts (input.values cfg (keyOf event input)) drawn
        change s.insertNotification _ drawn = _ at hdoes
        have hkeyed' := (hinserts.may (keyed_values cfg event input)).keyed
          (hkeyed s hs)
        rw [show s.insertNotification (input.values cfg (keyOf event input)) drawn
          = _ from hdoes] at hinserts hkeyed'
        cases hinserts with
        | created hfree =>
            exact ⟨hkeyed', rfl,
              ⟨_, List.mem_append_right _ List.mem_cons_self, rfl, rfl⟩⟩
    | conflict =>
        refine ⟨AllKeyed, fun _ _ hmay h => hmay.keyed h, ?_, ?_⟩
        · intro s s' hs hdoes
          obtain ⟨drawn, hdoes⟩ := hdoes
          have hinserts := s.inserts (input.values cfg (keyOf event input)) drawn
          rw [show s.insertNotification (input.values cfg (keyOf event input))
            drawn = _ from hdoes] at hinserts
          cases hinserts with
          | conflict => exact hkeyed s hs
        · refine ⟨fun _ _ => trivial, fun found => ?_⟩
          cases found with
          | none => exact ⟨fun _ => True, fun _ _ _ _ => trivial,
              fun _ _ _ _ => trivial, trivial⟩
          | some row =>
              refine ⟨_, stable_known, ?_, leads_deliverNotification input row⟩
              intro s s' hs hdoes
              obtain ⟨drawn, hdoes⟩ := hdoes
              have hfind : s.notifications.find? (keyOf event input) = some row :=
                congrArg Prod.snd hdoes
              have hs' : s = s' := congrArg Prod.fst hdoes
              rw [← hs']
              have hkey := List.find?_some hfind
              rw [decide_eq_true_eq] at hkey
              exact ⟨hs, hkey, row, List.mem_of_find?_eq_some hfind, rfl, rfl⟩
    | violation => exact ⟨fun _ => True, fun _ _ _ _ => trivial,
        fun _ _ _ _ => trivial, trivial⟩

/-- So are all of a list, one after the other. -/
theorem leads_createNotifications {inputs : List NotificationInput}
    (hkeyed : ∀ s, F s → AllKeyed s)
    (hintended : ∀ input ∈ inputs, ∀ s, F s →
      ∃ db ∈ s.seen, input ∈ intended cfg db event) :
    Leads May (Ok cfg eventId event) Does F (createNotifications cfg event inputs)
      fun s => ∀ input ∈ inputs, Notified cfg event input s :=
  leads_all (fun input _ => stable_notified input) fun input hinput =>
    leads_createOutboxNotification hkeyed (hintended input hinput)

-- ------------------------------------------------------------- quiet rest

/-- An access that is permitted at any time. -/
def Quiet (eventId : Uuid) (event : DomainEvent) : HandlerOp → Prop
  | .insertNotification _ => False
  | .publish (.user _ (.notification _) _) => False
  | .publish (.conversation _ (.message message) id) =>
      id = none ∨ id = some message.id
  | .publish (.conversation _ (.moderated messageId _ _) id) =>
      id = some eventId ∧ ∃ payload, event.payload = .messageModerated payload
        ∧ payload.messageId = messageId
  | .publish (.userBanned userId id) =>
      id = some eventId ∧ event.payload = .userBanned userId
  | .enqueueJob _ => False
  | _ => True

/-- An operation that stores nothing is permitted. -/
theorem ok_of_quiet {o : HandlerOp} (h : Quiet eventId event o) :
    Ok cfg eventId event s o := by
  cases o with
  | insertNotification values => exact h.elim
  | publish e =>
      cases e with
      | user userId e id =>
          cases e with
          | notification row => exact h.elim
          | order => trivial
          | disputeResolved => trivial
      | conversation conversationId e id =>
          cases e with
          | message => exact h
          | moderated => exact h
      | userBanned => exact h
  | enqueueJob job => exact h.elim
  | _ => trivial

/-- A program of such operations keeps what is stable. -/
theorem leads_of_quiet {p : Handler} (hF : Stable May F)
    (hp : p.Only (Quiet eventId event)) :
    Leads May (Ok cfg eventId event) Does F p F :=
  leads_of_only (fun _ _ _ _ => may_of_does) (fun _ _ => ok_of_quiet) hF hp

/-- What is stable may be carried along. -/
theorem leads_keep {p : Handler} {Q : Effects → Prop} (hF : Stable May F)
    (h : Leads May (Ok cfg eventId event) Does F p Q) :
    Leads May (Ok cfg eventId event) Does F p fun s => Q s ∧ F s :=
  h.keep (fun _ _ _ _ hok hdoes => may_of_does hok hdoes) hF

/-- What was told stays told to the end of the handler. -/
theorem leads_inTurn {p : Handler} {rest : List Handler} {Q : Effects → Prop}
    (h : Leads May (Ok cfg eventId event) Does F p Q) (hQ : Stable May Q)
    (hrest : ∀ q ∈ rest, q.Only (Quiet eventId event)) :
    Leads May (Ok cfg eventId event) Does F (.inTurn (p :: rest)) Q :=
  leads_andThen h (leads_of_quiet hQ (only_inTurn hrest))

/-- Broadcasts of stored messages store nothing. -/
theorem quiet_broadcastStoredMessages (messageIds : List Uuid) :
    (broadcastStoredMessages messageIds).Only (Quiet eventId event) := by
  refine only_inTurn fun p hp => ?_
  obtain ⟨messageId, -, heq⟩ := List.mem_map.mp hp
  rw [← heq]
  refine ⟨trivial, fun message => ?_⟩
  cases message with
  | none => trivial
  | some message => exact ⟨.inl rfl, fun _ => trivial⟩

/-- Nor does the invalidation of a product. -/
theorem quiet_invalidateProductOf (productId : Uuid) :
    (invalidateProductOf productId).Only (Quiet eventId event) := by
  refine ⟨trivial, fun product => ?_⟩
  cases product with
  | none => trivial
  | some context => exact ⟨trivial, fun _ => trivial⟩

/-- Nor that of an order's caches. -/
theorem quiet_orderCaches (payload : BaseOrderPayload) (buyer seller : Bool) :
    (orderCaches payload buyer seller).Only (Quiet eventId event) :=
  ⟨trivial, fun _ => trivial⟩

/-- Nor a realtime event. -/
theorem quiet_notifyAbout (type : String) (orderId userId : Uuid) :
    (notifyAbout type orderId userId).Only (Quiet eventId event) :=
  ⟨trivial, fun _ => trivial⟩

/-- Running quiet programs side by side is quiet. -/
theorem quiet_all {p : Uuid → Handler} (h : ∀ u, (p u).Only (Quiet eventId event))
    (us : List Uuid) : (Prog.all (us.map p)).Only (Quiet eventId event) := by
  refine only_all fun q hq => ?_
  obtain ⟨u, -, heq⟩ := List.mem_map.mp hq
  rw [← heq]
  exact h u

-- ================================================================ handlers

/-- An event that asks for the same at any time. -/
theorem handled_of_all {inputs : List NotificationInput}
    (hsame : ∀ db, intended cfg db event = inputs)
    (h : (∀ input ∈ inputs, Notified cfg event input s) ∧ Begun since s) :
    Handled cfg since event s := by
  refine ⟨s.tables, h.2.now, ?_⟩
  rw [hsame]
  exact h.1

/-- A handler that always intends the same notifications handles its event by
creating them. -/
theorem leads_createAll {inputs : List NotificationInput}
    (hsame : ∀ db, intended cfg db event = inputs) :
    Leads May (Ok cfg eventId event) Does (Begun since)
      (createNotifications cfg event inputs) (Handled cfg since event) := by
  have h : Leads May (Ok cfg eventId event) Does (Begun since)
      (createNotifications cfg event inputs)
      fun s => ∀ input ∈ inputs, Notified cfg event input s := by
    refine leads_createNotifications (fun _ hs => hs.1) ?_
    intro input hinput s _
    refine ⟨s.tables, List.mem_cons_self, ?_⟩
    rw [hsame]
    exact hinput
  exact (leads_keep stable_begun h).consequence
    fun _ hs => handled_of_all hsame hs

/-- The same of one notification. -/
theorem leads_createOne {input : NotificationInput}
    (hsame : ∀ db, intended cfg db event = [input]) :
    Leads May (Ok cfg eventId event) Does (Begun since)
      (createOutboxNotification cfg event input) (Handled cfg since event) := by
  have h : Leads May (Ok cfg eventId event) Does (Begun since)
      (createOutboxNotification cfg event input) (Notified cfg event input) := by
    refine leads_createOutboxNotification (fun _ hs => hs.1) ?_
    intro s _
    refine ⟨s.tables, List.mem_cons_self, ?_⟩
    rw [hsame]
    exact List.mem_cons_self
  refine (leads_keep stable_begun h).consequence ?_
  intro s hs
  refine handled_of_all hsame ⟨?_, hs.2⟩
  intro input' hinput'
  rw [List.mem_singleton] at hinput'
  rw [hinput']
  exact hs.1

/-- An event that asks for nothing. -/
theorem leads_nothing {p : Handler} (hsame : ∀ db, intended cfg db event = [])
    (hp : p.Only (Quiet eventId event)) :
    Leads May (Ok cfg eventId event) Does (Begun since) p
      (Handled cfg since event) :=
  (leads_of_quiet stable_begun hp).consequence fun _ hs =>
    handled_of_all hsame ⟨fun _ h => absurd h List.not_mem_nil, hs⟩

/-- A completed order is announced to those it is intended for. -/
theorem leads_announceCompleted (eventKey : String)
    (payload : OrderCompletedPayload) :
    Leads May (Ok cfg eventId ⟨eventKey, .orderCompleted payload⟩) Does
      (Begun since)
      (announceCompleted cfg ⟨eventKey, .orderCompleted payload⟩ payload)
      (Handled cfg since ⟨eventKey, .orderCompleted payload⟩) := by
  obtain ⟨payload, source⟩ := payload
  cases source with
  | auto =>
      refine leads_inTurn (leads_createAll fun _ => rfl) stable_handled ?_
      intro q hq
      rw [List.mem_singleton] at hq
      rw [hq]
      exact quiet_all (quiet_notifyAbout _ _) _
  | dispute => exact leads_nothing (fun _ => rfl) trivial
  | buyerConfirmed =>
      refine leads_inTurn (leads_createOne fun _ => rfl) stable_handled ?_
      intro q hq
      rw [List.mem_singleton] at hq
      rw [hq]
      exact quiet_notifyAbout _ _ _
  | service =>
      refine leads_inTurn (leads_createOne fun _ => rfl) stable_handled ?_
      intro q hq
      rw [List.mem_singleton] at hq
      rw [hq]
      exact quiet_notifyAbout _ _ _

/-- An order's progress is told to the one who waits for it. -/
theorem leads_handleOrderProgress {payload : OrderTransitionPayload}
    {type : NotificationType} {templateKey : String}
    (hsame : ∀ db, intended cfg db event
      = [orderProgressNotification payload type templateKey]) :
    Leads May (Ok cfg eventId event) Does (Begun since)
      (handleOrderProgress cfg event payload type templateKey)
      (Handled cfg since event) := by
  refine leads_inTurn (leads_createOne hsame) stable_handled ?_
  intro q hq
  simp only [List.mem_cons, List.not_mem_nil, or_false] at hq
  rcases hq with heq | heq | heq <;> rw [heq]
  · exact quiet_orderCaches _ _ _
  · exact quiet_notifyAbout _ _ _
  · exact quiet_broadcastStoredMessages _

/-- The admins are those of one time after the handler was begun. -/
theorem leads_createAdminNotifications (eventKey : String)
    (payload : DisputeOpenedPayload) :
    Leads May (Ok cfg eventId ⟨eventKey, .disputeOpened payload⟩) Does
      (fun s => (∀ input ∈ [payload.buyerId, payload.sellerId].map
          (disputedNotification payload),
        Notified cfg ⟨eventKey, .disputeOpened payload⟩ input s)
        ∧ Begun since s)
      (createAdminNotifications cfg ⟨eventKey, .disputeOpened payload⟩
        (disputeAdminNotification payload) [.admin])
      (Handled cfg since ⟨eventKey, .disputeOpened payload⟩) := by
  refine ⟨fun _ _ => trivial, fun recipients => ?_⟩
  -- What the select of the admins leaves known.
  have hstable : Stable May fun s =>
      ((∀ input ∈ [payload.buyerId, payload.sellerId].map
          (disputedNotification payload),
        Notified cfg ⟨eventKey, .disputeOpened payload⟩ input s)
        ∧ Begun since s)
      ∧ ∃ db, Since since db s ∧ db.usersWithRole [.admin] = recipients := by
    refine stable_and (stable_and ?_ stable_begun) ?_
    · intro s s' hmay h input hinput
      exact stable_notified input s s' hmay (h input hinput)
    · intro s s' hmay h
      obtain ⟨db, hdb, hrecipients⟩ := h
      exact ⟨db, hdb.later hmay, hrecipients⟩
  refine ⟨_, hstable, ?_, ?_⟩
  · intro s s' hs hdoes
    obtain ⟨drawn, hdoes⟩ := hdoes
    cases hdoes
    exact ⟨hs, s.tables, hs.2.now, rfl⟩
  · refine (leads_keep hstable (leads_createNotifications ?_ ?_)).consequence ?_
    · exact fun _ hs => hs.1.2.1
    · intro input hinput s hs
      obtain ⟨-, db, hdb, hrecipients⟩ := hs
      refine ⟨db, hdb.mem, List.mem_append_right _ ?_⟩
      rw [hrecipients]
      exact hinput
    intro s hs
    obtain ⟨hadmins, ⟨hparties, -⟩, db, hdb, hrecipients⟩ := hs
    refine ⟨db, hdb, ?_⟩
    intro input hinput
    rcases List.mem_append.mp hinput with hinput | hinput
    · exact hparties input hinput
    · rw [hrecipients] at hinput
      exact hadmins input hinput

/-- A dispute is told to both parties and to the admins. -/
theorem leads_handleDisputeOpened (eventKey : String)
    (payload : DisputeOpenedPayload) :
    Leads May (Ok cfg eventId ⟨eventKey, .disputeOpened payload⟩) Does
      (Begun since)
      (handleDisputeOpened cfg ⟨eventKey, .disputeOpened payload⟩ payload)
      (Handled cfg since ⟨eventKey, .disputeOpened payload⟩) := by
  have hparties : Leads May (Ok cfg eventId ⟨eventKey, .disputeOpened payload⟩)
      Does (Begun since)
      (createNotifications cfg ⟨eventKey, .disputeOpened payload⟩
        ([payload.buyerId, payload.sellerId].map (disputedNotification payload)))
      fun s => ∀ input ∈ [payload.buyerId, payload.sellerId].map
          (disputedNotification payload),
        Notified cfg ⟨eventKey, .disputeOpened payload⟩ input s :=
    leads_createNotifications (fun _ hs => hs.1) fun input hinput s _ =>
      ⟨s.tables, List.mem_cons_self, List.mem_append_left _ hinput⟩
  refine leads_andThen (leads_keep stable_begun hparties)
    (leads_inTurn (leads_createAdminNotifications eventKey payload)
      stable_handled ?_)
  intro q hq
  simp only [List.mem_cons, List.not_mem_nil, or_false] at hq
  rcases hq with heq | heq | heq <;> rw [heq]
  · exact quiet_orderCaches _ _ _
  · exact quiet_all (quiet_notifyAbout _ _) _
  · exact quiet_broadcastStoredMessages _

/-- A message is told to the other participant, if it is still there. -/
theorem leads_handleMessageCreated (eventKey : String) (messageId : Uuid) :
    Leads May (Ok cfg eventId ⟨eventKey, .messageCreated messageId⟩) Does
      (Begun since)
      (handleMessageCreated cfg ⟨eventKey, .messageCreated messageId⟩ messageId)
      (Handled cfg since ⟨eventKey, .messageCreated messageId⟩) := by
  refine ⟨fun _ _ => trivial, fun found => ?_⟩
  have hstable : Stable May fun s => Begun since s
      ∧ ∃ db, Since since db s ∧ db.loadMessage messageId = found := by
    refine stable_and stable_begun ?_
    intro s s' hmay h
    obtain ⟨db, hdb, hfound⟩ := h
    exact ⟨db, hdb.later hmay, hfound⟩
  refine ⟨_, hstable, ?_, ?_⟩
  · intro s s' hs hdoes
    obtain ⟨drawn, hdoes⟩ := hdoes
    cases hdoes
    exact ⟨hs, s.tables, hs.now, rfl⟩
  · -- What the event asks for, given the message that was found.
    have hintended : ∀ {db}, db.loadMessage messageId = found →
        intended cfg db ⟨eventKey, .messageCreated messageId⟩
          = messageNotifications found := by
      intro db hfound
      show messageNotifications (db.loadMessage messageId) = _
      rw [hfound]
    have hnothing : messageNotifications found = [] →
        ∀ s, (Begun since s ∧ ∃ db, Since since db s
          ∧ db.loadMessage messageId = found) →
        Handled cfg since ⟨eventKey, .messageCreated messageId⟩ s := by
      intro hnone s hs
      obtain ⟨-, db, hdb, hfound⟩ := hs
      refine ⟨db, hdb, ?_⟩
      rw [hintended hfound, hnone]
      exact fun _ h => absurd h List.not_mem_nil
    cases found with
    | none => exact hnothing rfl
    | some message =>
        cases hsender : message.senderId with
        | none =>
            have hnone : messageNotifications (some message) = [] := by
              show message.senderId.toList.map _ = []
              rw [hsender]
              rfl
            simp only [hsender]
            exact hnothing hnone
        | some senderId =>
            have hone : messageNotifications (some message)
                = [messageNotification message senderId] := by
              show message.senderId.toList.map _ = _
              rw [hsender]
              rfl
            simp only [hsender]
            refine leads_inTurn
              ((leads_keep hstable (leads_createOutboxNotification ?_
                ?_)).consequence ?_) stable_handled ?_
            · exact fun _ hs => hs.1.1
            · intro s hs
              obtain ⟨-, db, hdb, hfound⟩ := hs
              refine ⟨db, hdb.mem, ?_⟩
              rw [hintended hfound, hone]
              exact List.mem_cons_self
            · intro s hs
              obtain ⟨htold, -, db, hdb, hfound⟩ := hs
              refine ⟨db, hdb, ?_⟩
              rw [hintended hfound, hone]
              intro input hinput
              rw [List.mem_singleton] at hinput
              rw [hinput]
              exact htold
            · intro q hq
              rw [List.mem_singleton] at hq
              rw [hq]
              exact ⟨.inr rfl, fun _ => trivial⟩

/-- A handler that has ended has handled its event: for each type of event,
its program leads to all that is intended for that type. -/
theorem leads_handleDomainEvent (eventId : Uuid) (event : DomainEvent) :
    Leads May (Ok cfg eventId event) Does (Begun since)
      (handleDomainEvent cfg eventId event) (Handled cfg since event) := by
  obtain ⟨eventKey, payload⟩ := event
  cases payload with
  | orderCreated payload =>
      refine leads_inTurn (leads_createOne fun _ => rfl) stable_handled ?_
      intro q hq
      simp only [List.mem_cons, List.not_mem_nil, or_false] at hq
      rcases hq with heq | heq <;> rw [heq]
      · exact quiet_orderCaches _ _ _
      · exact quiet_broadcastStoredMessages _
  | orderPaid payload =>
      refine leads_inTurn (leads_createAll fun _ => rfl) stable_handled ?_
      intro q hq
      simp only [List.mem_cons, List.not_mem_nil, or_false] at hq
      rcases hq with heq | heq | heq | heq <;> rw [heq]
      · exact quiet_orderCaches _ _ _
      · exact quiet_invalidateProductOf _
      · exact quiet_all (quiet_notifyAbout _ _) _
      · exact quiet_broadcastStoredMessages _
  | orderCanceled payload =>
      refine leads_nothing (fun _ => rfl) (only_inTurn fun q hq => ?_)
      simp only [List.mem_cons, List.not_mem_nil, or_false] at hq
      rcases hq with heq | heq <;> rw [heq]
      · exact quiet_orderCaches _ _ _
      · exact quiet_notifyAbout _ _ _
  | orderStarted payload => exact leads_handleOrderProgress fun _ => rfl
  | orderDelivered payload => exact leads_handleOrderProgress fun _ => rfl
  | orderCompleted payload =>
      refine leads_inTurn (leads_announceCompleted eventKey payload)
        stable_handled ?_
      intro q hq
      simp only [List.mem_cons, List.not_mem_nil, or_false] at hq
      rcases hq with heq | heq | heq <;> rw [heq]
      · exact quiet_orderCaches _ _ _
      · exact quiet_invalidateProductOf _
      · exact quiet_broadcastStoredMessages _
  | orderRefunded payload =>
      refine leads_nothing (fun _ => rfl) (only_inTurn fun q hq => ?_)
      simp only [List.mem_cons, List.not_mem_nil, or_false] at hq
      rcases hq with heq | heq <;> rw [heq]
      · exact quiet_orderCaches _ _ _
      · exact quiet_broadcastStoredMessages _
  | reviewCreated payload => exact leads_createOne fun _ => rfl
  | disputeOpened payload => exact leads_handleDisputeOpened eventKey payload
  | disputeResolved payload =>
      refine leads_inTurn (leads_createAll fun _ => rfl) stable_handled ?_
      intro q hq
      simp only [List.mem_cons, List.not_mem_nil, or_false] at hq
      rcases hq with heq | heq | heq <;> rw [heq]
      · exact ⟨trivial, fun _ => trivial⟩
      · exact quiet_all (p := fun userId => notifyUser userId
          (.disputeResolved payload.orderId payload.decision) none)
          (fun _ => ⟨trivial, fun _ => trivial⟩) _
      · exact quiet_broadcastStoredMessages _
  | messageCreated messageId => exact leads_handleMessageCreated eventKey messageId
  | messageModerated payload =>
      refine leads_nothing (fun _ => rfl) ⟨trivial, fun current => ?_⟩
      cases current with
      | none => trivial
      | some current => exact ⟨⟨rfl, payload, rfl, rfl⟩, fun _ => trivial⟩
  | productBlocked payload =>
      exact leads_nothing (fun _ => rfl) ⟨trivial, fun _ => trivial⟩
  | userBanned userId =>
      refine leads_nothing (fun _ => rfl) (only_inTurn fun q hq => ?_)
      simp only [List.mem_cons, List.not_mem_nil, or_false] at hq
      rcases hq with heq | heq | heq <;> rw [heq]
      · exact ⟨trivial, fun _ => trivial⟩
      · exact ⟨⟨rfl, rfl⟩, fun _ => trivial⟩
      · exact ⟨trivial, fun _ => ⟨trivial, fun _ => trivial⟩⟩
  | userWarned payload => exact leads_createOne fun _ => rfl
  | userMuted payload => exact leads_createOne fun _ => rfl
  | storageDelete storageObjectId =>
      exact leads_nothing (fun _ => rfl) ⟨trivial, fun _ => trivial⟩
  | rejected => trivial

end OutboxHandlers

end Skrynia
