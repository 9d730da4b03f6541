/-
One outcome for every dispute.

Whatever callers, recovery runs, crashes and other calls do, and in
whatever order: a claim is never changed, an order is settled once, and
a resolved dispute has the decision of its claim, an order that went
there, and one set of history rows.

# Two invariants

`DisputesSound` is about the dispute rows and their orders,
`HistorySound` about the rows that resolutions wrote. Neither looks at
where a process stands: each transaction checks under its locks what it
needs, so what a caller remembers does not matter. Both follow from
`Saga.step_effect`.
-/
import Skrynia.Disputes.Saga
import Skrynia.Market.Postings

namespace Skrynia

open Relational Stepping

-- ============================================================ dispute rows

/-- What holds of the disputes in every state. -/
structure DisputesSound (db : Db) : Prop where
  state : ∀ {id d}, db.disputes.find? id = some d → d.StateCheck
  unclaimed : ∀ {id d}, db.disputes.find? id = some d →
    d.status = .open → d.Unclaimed
  order : ∀ {id d}, db.disputes.find? id = some d →
    OrderIs db.orders d.orderId fun s => s = .disputed ∨ s.Settled
  unique : ∀ {id id' d d'}, db.disputes.find? id = some d →
    db.disputes.find? id' = some d' → d.orderId = d'.orderId → id = id'
  operation : ∀ {id id' d d'}, db.disputes.find? id = some d →
    db.disputes.find? id' = some d' → id' ≠ id →
    d'.resolutionOperationId = d.resolutionOperationId →
    d.resolutionOperationId = none
  outcome : ∀ {id d}, db.disputes.find? id = some d → d.status = .resolved →
    OrderIs db.orders d.orderId
      fun s => terminalDecision s = d.resolutionDecision

/-- An order that leaves its dispute is settled, and stays so. -/
theorem disputed_of_edge {s s' : OrderStatus} (h : canTransitionOrder s s')
    (hs : s = .disputed ∨ s.Settled) : s' = .disputed ∨ s'.Settled := by
  rcases hs with rfl | hs
  · revert h
    cases s' <;> decide
  · exact absurd h (terminal_stuck hs)

/-- An order that was settled one way stays settled that way. -/
theorem terminal_of_edge {s s' : OrderStatus} {decision : DisputeDecision}
    (h : canTransitionOrder s s') (hs : terminalDecision s = some decision) :
    terminalDecision s' = some decision := by
  have hsettled : s.Settled := by
    cases s <;> first
      | exact .inl rfl
      | exact .inr rfl
      | cases hs
  exact absurd h (terminal_stuck hsettled)

/-- A resolved dispute's row says what was decided. -/
theorem Dispute.StateCheck.resolved {d : Dispute} (h : d.StateCheck)
    (hs : d.status = .resolved) :
    d.resolution = d.resolutionDecision
      ∧ (∃ decision, d.resolutionDecision = some decision)
      ∧ ∃ operationId, d.resolutionOperationId = some operationId := by
  rcases h with h | ⟨h | h, -⟩ | ⟨-, hclaimed, hresolution, -⟩
  · rw [hs] at h
    cases h
  · rw [hs] at h
    cases h
  · rw [hs] at h
    cases h
  · exact ⟨hresolution, Option.isSome_iff_exists.mp hclaimed.1,
      Option.isSome_iff_exists.mp hclaimed.2.1⟩

namespace DisputesSound

variable {db db' : Db}

/-- Orders keep what disputes rely on. -/
theorem orders_keep (h : DisputesSound db)
    (horders : OrdersStep db.orders db'.orders) {id : Uuid} {d : Dispute}
    (hfind : db.disputes.find? id = some d) :
    (OrderIs db'.orders d.orderId fun s => s = .disputed ∨ s.Settled)
      ∧ (d.status = .resolved → OrderIs db'.orders d.orderId
        fun s => terminalDecision s = d.resolutionDecision) := by
  refine ⟨horders.keeps disputed_of_edge (h.order hfind), ?_⟩
  intro hs
  obtain ⟨-, ⟨decision, hdecision⟩, -⟩ := (h.state hfind).resolved hs
  have houtcome := h.outcome hfind hs
  rw [hdecision] at houtcome ⊢
  exact horders.keeps terminal_of_edge houtcome

/-- A call of the rest of the money core. -/
theorem moved {drawn : Option String} (h : DisputesSound db)
    (hmoved : Moved drawn db db') : DisputesSound db' := by
  have hkeep := fun {id d} => @orders_keep db db' h hmoved.orders id d
  cases hmoved.disputes with
  | same hd =>
      rw [← hd] at hkeep
      refine ⟨?_, ?_, fun hf => (hkeep hf).1, ?_, ?_, fun hf => (hkeep hf).2⟩
      all_goals rw [hd]
      · exact h.state
      · exact h.unclaimed
      · exact h.unique
      · exact h.operation
  | @opened new o o' hnew hid hdisputed hmovedOrder hunique hinserted =>
      have hfresh : ∀ {id d}, db.disputes.find? id = some d →
          d.orderId ≠ new.orderId := by
        intro id d hf heq
        have hnone := List.find?_eq_none.mp hunique d (Table.mem_of_find? hf)
        simp [heq] at hnone
      have hcases : ∀ {id d}, db'.disputes.find? id = some d →
          new.id = id ∧ d = new ∨ new.id ≠ id
            ∧ db.disputes.find? id = some d := by
        intro id d hf
        rw [Table.find?_insert hinserted] at hf
        split at hf
        · next hid =>
          cases hf
          exact .inl ⟨hid, rfl⟩
        · next hid => exact .inr ⟨hid, hf⟩
      refine ⟨?_, ?_, ?_, ?_, ?_, ?_⟩
      · intro id d hf
        rcases hcases hf with ⟨-, rfl⟩ | ⟨-, hf⟩
        · exact .inl hnew.status
        · exact h.state hf
      · intro id d hf hs
        rcases hcases hf with ⟨-, rfl⟩ | ⟨-, hf⟩
        · exact hnew
        · exact h.unclaimed hf hs
      · intro id d hf
        rcases hcases hf with ⟨-, rfl⟩ | ⟨-, hf⟩
        · rw [hmovedOrder.orderIs, if_pos hid.symm]
          exact .inl hdisputed
        · exact (hkeep hf).1
      · intro id id' d d' hf hf' heq
        rcases hcases hf with ⟨hid, rfl⟩ | ⟨-, hf⟩ <;>
          rcases hcases hf' with ⟨hid', rfl⟩ | ⟨-, hf'⟩
        · rw [← hid, ← hid']
        · exact absurd heq.symm (hfresh hf')
        · exact absurd heq (hfresh hf)
        · exact h.unique hf hf' heq
      · intro id id' d d' hf hf' hne heq
        rcases hcases hf with ⟨-, rfl⟩ | ⟨-, hf⟩
        · exact hnew.operation
        · rcases hcases hf' with ⟨-, rfl⟩ | ⟨-, hf'⟩
          · rw [← heq]
            exact hnew.operation
          · exact h.operation hf hf' hne heq
      · intro id d hf hs
        rcases hcases hf with ⟨-, rfl⟩ | ⟨-, hf⟩
        · rw [hnew.status] at hs
          cases hs
        · exact (hkeep hf).2 hs

/-- One row is overwritten by a row that the table accepts. -/
theorem put (h : DisputesSound db) {d d' : Dispute}
    (hfind : db.disputes.find? d.id = some d) (hid : d'.id = d.id)
    (horder : d'.orderId = d.orderId) (haccepted : d'.Accepted db)
    (hopen : d'.status ≠ .open)
    (houtcome : d'.status = .resolved → OrderIs db.orders d.orderId
      fun s => terminalDecision s = d'.resolutionDecision)
    (hdisputes : db'.disputes = db.disputes.set d')
    (horders : db'.orders = db.orders) : DisputesSound db' := by
  have hcases : ∀ {id x}, db'.disputes.find? id = some x →
      id = d.id ∧ x = d' ∨ id ≠ d.id ∧ db.disputes.find? id = some x := by
    intro id x hf
    rw [hdisputes, Table.find?_set, hid] at hf
    split at hf
    · next he =>
      rw [← he, hfind] at hf
      cases hf
      exact .inl ⟨he.symm, rfl⟩
    · next he => exact .inr ⟨Ne.symm he, hf⟩
  refine ⟨?_, ?_, ?_, ?_, ?_, ?_⟩
  · intro id x hf
    rcases hcases hf with ⟨-, rfl⟩ | ⟨-, hf⟩
    · exact haccepted.state
    · exact h.state hf
  · intro id x hf hs
    rcases hcases hf with ⟨-, rfl⟩ | ⟨-, hf⟩
    · exact absurd hs hopen
    · exact h.unclaimed hf hs
  · intro id x hf
    rw [horders]
    rcases hcases hf with ⟨-, rfl⟩ | ⟨-, hf⟩
    · rw [horder]
      exact h.order hfind
    · exact h.order hf
  · intro id id' x x' hf hf' heq
    rcases hcases hf with ⟨rfl, rfl⟩ | ⟨-, hf⟩ <;>
      rcases hcases hf' with ⟨rfl, rfl⟩ | ⟨-, hf'⟩
    · rfl
    · rw [horder] at heq
      exact h.unique hfind hf' heq
    · rw [horder] at heq
      exact h.unique hf hfind heq
    · exact h.unique hf hf' heq
  · intro id id' x x' hf hf' hne heq
    rcases hcases hf with ⟨rfl, rfl⟩ | ⟨-, hf⟩ <;>
      rcases hcases hf' with ⟨rfl, rfl⟩ | ⟨-, hf'⟩
    · exact absurd rfl hne
    · have hkey := Table.key_of_find? hf'
      refine haccepted.operation x' (Table.mem_of_find? hf') ?_ heq
      rw [hkey, hid]
      exact hne
    · have hkey := Table.key_of_find? hf
      rw [← heq]
      refine haccepted.operation x (Table.mem_of_find? hf) ?_ heq.symm
      rw [hkey, hid]
      exact hne.symm
    · exact h.operation hf hf' hne heq
  · intro id x hf hs
    rw [horders]
    rcases hcases hf with ⟨-, rfl⟩ | ⟨-, hf⟩
    · rw [horder]
      exact houtcome hs
    · exact h.outcome hf hs

end DisputesSound

/-- A finalization follows the claim. -/
theorem Matching.of_accepted {d : Dispute} {db : Db}
    {decision : DisputeDecision} {operationId : Uuid} {now : Timestamp}
    (h : Matching d decision (some operationId))
    (haccepted : (d.finalized now).Accepted db) :
    d.resolutionDecision = some decision
      ∧ d.resolutionOperationId = some operationId := by
  obtain ⟨-, ⟨persisted, hpersisted⟩, -⟩ := haccepted.state.resolved rfl
  have hd : d.resolutionDecision = some persisted := hpersisted
  refine ⟨?_, h.operation operationId rfl⟩
  rw [hd, h.decision persisted hd]

/-- A finalization touches no order, and no dispute but its own. -/
theorem ResolutionRecorded.tables {row : ResolutionRow}
    {decision : DisputeDecision} {operationId resolutionId outcomeId : Uuid}
    {db db' : Db}
    (h : ResolutionRecorded row decision operationId resolutionId outcomeId
      db db') :
    db'.disputes = db.disputes ∧ db'.orders = db.orders := by
  obtain ⟨m₁, t₁, m₂, t₂, -, -, rfl⟩ := h
  exact ⟨rfl, rfl⟩

/-- Every transaction keeps what holds of the disputes. -/
theorem DisputesSound.effect {db db' : Db} {settled : List Uuid}
    {resolved : List Resolution} (h : DisputesSound db)
    (heffect : Effect db db' settled resolved) : DisputesSound db' := by
  cases heffect with
  | moved hmoved => exact h.moved hmoved
  | settled hmoved _ _ _ => exact h.moved hmoved
  | marked found id_eq order_eq _ status _ accepted =>
      refine h.put found id_eq order_eq accepted ?_ ?_ rfl rfl
      · rcases status with hs | hs <;> rw [hs] <;> nofun
      · intro hs
        rcases status with hs' | hs' <;> rw [hs'] at hs <;> cases hs
  | @finalized d o decision _ _ _ now _ found order matching _ terminal
      accepted recorded =>
      obtain ⟨hdisputes, horders⟩ := recorded.tables
      have hid : (d.finalized now).id = d.id := rfl
      refine h.put found hid rfl accepted
        (show DisputeStatus.resolved ≠ .open by decide) ?_ hdisputes horders
      intro _
      exact ⟨_, order, terminal.trans (matching.of_accepted accepted).1.symm⟩

-- ============================================================ history rows

/-- The two chat messages of a resolution. -/
def resolutionMessages (d : Dispute) (decision : DisputeDecision)
    (operationId resolutionId outcomeId : Uuid) (chat : Conversation) :
    List SystemMessage :=
  [⟨resolutionId, chat.id, "dispute_resolved", "system.disputeResolved",
      [("note", d.adminNote.getD "")], some (decision, operationId)⟩,
   ⟨outcomeId, chat.id, (outcomeMessage decision).1,
      (outcomeMessage decision).2, [], none⟩]

/-- One timeline row, two messages if the order has a chat, one event. -/
structure Resolution.Complete (r : Resolution) (d : Dispute)
    (decision : DisputeDecision) (operationId : Uuid) : Prop where
  events : r.events = [disputeResolvedEvent d decision operationId]
  messages : ∃ resolutionId outcomeId, r.messages = r.chat.toList.flatMap
    (resolutionMessages d decision operationId resolutionId outcomeId)
  outbox : ∃ row : ResolutionRow, row.dispute = d ∧ r.outbox
    = [disputeResolvedOutbox row decision operationId
        (r.messages.map SystemMessage.id)]

/-- The rows that carry the outcome of a dispute are those the
resolutions wrote, each once. -/
structure HistorySound (db : Db) (rs : List Resolution) : Prop where
  events : (db.orderEvents.filter fun e => e.resolution.isSome)
    = rs.flatMap Resolution.events
  messages : (db.messages.rows.filter fun m => m.resolution.isSome)
    = rs.flatMap fun r => r.messages.filter fun m => m.resolution.isSome
  sent : ∀ r ∈ rs, ∀ m ∈ r.messages, m ∈ db.messages.rows
  outbox : (db.domainOutbox.rows.filter
      fun e => e.eventType = .disputeResolved)
    = rs.flatMap Resolution.outbox
  keyed : ∀ e ∈ db.domainOutbox.rows, e.Keyed
  nodup : (rs.map Resolution.disputeId).Nodup
  complete : ∀ r ∈ rs, ∃ d decision operationId,
    db.disputes.find? r.disputeId = some d ∧ d.status = .resolved
      ∧ d.resolutionDecision = some decision
      ∧ d.resolutionOperationId = some operationId
      ∧ r.Complete d decision operationId
  logged : ∀ {id d}, db.disputes.find? id = some d → d.status = .resolved →
    id ∈ rs.map Resolution.disputeId

/-- The key of a resolution names its dispute and its operation. -/
theorem disputeResolvedKey_eq (disputeId operationId : Uuid) :
    disputeResolvedKey disputeId operationId
      = DomainEventType.disputeResolved.text ++ ":"
        ++ (disputeId.text ++ (":" ++ operationId.text)) := by
  simp only [disputeResolvedKey, String.append_assoc]

/-- A resolution is announced under that key. -/
theorem disputeResolvedOutbox_eventKey {row : ResolutionRow}
    {decision : DisputeDecision} {operationId : Uuid} {ids : List Uuid} :
    (disputeResolvedOutbox row decision operationId ids).eventKey
      = disputeResolvedKey row.dispute.id operationId := rfl

namespace HistorySound

variable {db db' : Db} {rs : List Resolution}

/-- History grows by other rows, and resolved disputes stay. -/
theorem grew (h : HistorySound db rs) (hgrew : HistoryGrew db db')
    (hkeep : ∀ {id d}, db.disputes.find? id = some d → d.status = .resolved →
      db'.disputes.find? id = some d)
    (hback : ∀ {id d}, db'.disputes.find? id = some d → d.status = .resolved →
      db.disputes.find? id = some d) : HistorySound db' rs := by
  obtain ⟨es, hevents, hes⟩ := hgrew.events
  obtain ⟨ms, hmessages, hms⟩ := hgrew.messages
  obtain ⟨os, houtbox, hos⟩ := hgrew.outbox
  refine ⟨?_, ?_, ?_, ?_, ?_, h.nodup, ?_, ?_⟩
  · have hnil : (es.filter fun e => e.resolution.isSome) = [] := by
      refine List.filter_eq_nil_iff.mpr fun e he => ?_
      rw [hes e he]
      nofun
    rw [hevents, List.filter_append, hnil, List.append_nil, h.events]
  · have hnil : (ms.filter fun m => m.resolution.isSome) = [] := by
      refine List.filter_eq_nil_iff.mpr fun m hm => ?_
      rw [hms m hm]
      nofun
    rw [hmessages, List.filter_append, hnil, List.append_nil, h.messages]
  · intro r hr m hm
    rw [hmessages]
    exact List.mem_append_left _ (h.sent r hr m hm)
  · have hnil : (os.filter fun e => e.eventType = .disputeResolved) = [] := by
      refine List.filter_eq_nil_iff.mpr fun e he => ?_
      simp [(hos e he).2]
    rw [houtbox, List.filter_append, hnil, List.append_nil, h.outbox]
  · intro e he
    rw [houtbox] at he
    rcases List.mem_append.mp he with he | he
    · exact h.keyed e he
    · exact (hos e he).1
  · intro r hr
    obtain ⟨d, decision, operationId, hfind, hs, hrest⟩ := h.complete r hr
    exact ⟨d, decision, operationId, hkeep hfind hs, hs, hrest⟩
  · intro id d hfind hs
    exact h.logged (hback hfind hs) hs

/-- A call of the rest of the money core. -/
theorem moved {drawn : Option String} (h : HistorySound db rs)
    (hmoved : Moved drawn db db') : HistorySound db' rs := by
  cases hmoved.disputes with
  | same hd =>
      refine h.grew hmoved.history ?_ ?_
      · intro id d hf _
        rw [hd]
        exact hf
      · intro id d hf _
        rw [← hd]
        exact hf
  | @opened new o o' hnew _ _ _ _ hinserted =>
      have hfind := fun id => Table.find?_insert hinserted id
      have hfree := (Table.insert?_eq_some.mp hinserted).1
      refine h.grew hmoved.history ?_ ?_
      · intro id d hf _
        rw [hfind, if_neg ?_]
        · exact hf
        · intro heq
          subst heq
          exact hfree (Table.has_iff.mpr ⟨d, hf⟩)
      · intro id d hf hs
        rw [hfind] at hf
        split at hf
        · cases hf
          rw [hnew.status] at hs
          cases hs
        · exact hf

/-- A dispute that is not resolved gets another row that is not. -/
theorem marked (h : HistorySound db rs) {d d' : Dispute}
    (hfind : db.disputes.find? d.id = some d) (hid : d'.id = d.id)
    (hs : d.status ≠ .resolved) (hs' : d'.status ≠ .resolved) :
    HistorySound (db.putDispute d') rs := by
  refine h.grew (.of_eq rfl rfl rfl) ?_ ?_
  · intro id x hf hx
    show (db.disputes.set d').find? id = _
    rw [Table.find?_set, hid, if_neg ?_]
    · exact hf
    · intro heq
      subst heq
      rw [hfind] at hf
      cases hf
      exact hs hx
  · intro id x hf hx
    change (db.disputes.set d').find? id = _ at hf
    rw [Table.find?_set, hid] at hf
    split at hf
    · next he =>
      rw [← he, hfind] at hf
      cases hf
      exact absurd hx hs'
    · exact hf

/-- The key of a resolution event names the dispute. -/
theorem key_free (h : HistorySound db rs) {d : Dispute}
    (hfind : db.disputes.find? d.id = some d) (hs : d.status ≠ .resolved)
    (operationId : Uuid) :
    ¬ db.domainOutbox.Has (disputeResolvedKey d.id operationId) := by
  intro hhas
  obtain ⟨e, he⟩ := Table.has_iff.mp hhas
  have hkey : e.eventKey = _ := Table.key_of_find? he
  have hmem := Table.mem_of_find? he
  -- only a resolution has a key that starts so
  obtain ⟨aggregate, haggregate⟩ := h.keyed e hmem
  rw [hkey, disputeResolvedKey_eq] at haggregate
  have htype := (eventKey_injective haggregate).1
  have hfilter : e ∈ rs.flatMap Resolution.outbox := by
    rw [← h.outbox]
    exact List.mem_filter.mpr ⟨hmem, by simp [← htype]⟩
  obtain ⟨r, hr, her⟩ := List.mem_flatMap.mp hfilter
  obtain ⟨x, decision, op, hx, hxs, -, -, hcomplete⟩ := h.complete r hr
  obtain ⟨row, rfl, houtbox⟩ := hcomplete.outbox
  rw [houtbox] at her
  rw [List.mem_singleton.mp her, disputeResolvedOutbox_eventKey,
    disputeResolvedKey_eq, disputeResolvedKey_eq] at hkey
  have hids := (Uuid.append_injective hkey).1
  have hxid := Table.key_of_find? hx
  rw [← hxid, hids, hfind] at hx
  cases hx
  exact hs hxs

end HistorySound

/-- The two messages of a resolution, or none without a chat. -/
theorem messages_recorded {db : Db} {d : Dispute} {decision : DisputeDecision}
    {operationId resolutionId outcomeId : Uuid} {m₁ m₂ : Option Uuid}
    {t₁ t₂ : Table SystemMessage.id}
    (h₁ : Messaged db resolutionId d.orderId "dispute_resolved"
      "system.disputeResolved" [("note", d.adminNote.getD "")]
      (some (decision, operationId)) m₁ t₁)
    (h₂ : Messaged (db.setMessages t₁) outcomeId d.orderId
      (outcomeMessage decision).1 (outcomeMessage decision).2 [] none m₂ t₂) :
    ∃ ms, t₂.rows = db.messages.rows ++ ms
      ∧ ms = (db.conversations.find? d.orderId).toList.flatMap
        (resolutionMessages d decision operationId resolutionId outcomeId)
      ∧ m₁.toList ++ m₂.toList = ms.map SystemMessage.id := by
  cases h₁ with
  | noChat absent =>
      cases h₂ with
      | noChat _ =>
          refine ⟨[], (List.append_nil _).symm, ?_, rfl⟩
          rw [absent]
          rfl
      | sent chat _ =>
          rw [show db.conversations.find? d.orderId = _ from chat] at absent
          cases absent
  | @sent c _ chat inserted =>
      have hrows := (Table.insert?_eq_some.mp inserted).2
      cases h₂ with
      | noChat absent =>
          rw [show db.conversations.find? d.orderId = _ from absent] at chat
          cases chat
      | sent chat' inserted' =>
          rw [show db.conversations.find? d.orderId = _ from chat'] at chat
          cases chat
          have hrows' := (Table.insert?_eq_some.mp inserted').2
          refine ⟨resolutionMessages d decision operationId resolutionId
            outcomeId c, ?_, ?_, rfl⟩
          · rw [hrows']
            show t₁.rows ++ [_] = _
            rw [hrows, List.append_assoc]
            rfl
          · rw [show db.conversations.find? d.orderId = some c from chat']
            exact (List.append_nil _).symm

/-- A finalization adds exactly the rows of its resolution. -/
theorem ResolutionRecorded.added {d : Dispute} {o : OrderRow}
    {decision : DisputeDecision} {operationId resolutionId outcomeId : Uuid}
    {now : Timestamp} {db db' : Db}
    (h : ResolutionRecorded ((d.finalized now).row o) decision operationId
      resolutionId outcomeId (db.putDispute (d.finalized now)) db')
    (hfind : db.disputes.find? d.id = some d)
    (hfree : ¬ db.domainOutbox.Has (disputeResolvedKey d.id operationId)) :
    (db'.orderEvents
        = db.orderEvents ++ (Resolution.between d.id db db').events
      ∧ db'.messages.rows
        = db.messages.rows ++ (Resolution.between d.id db db').messages
      ∧ db'.domainOutbox.rows
        = db.domainOutbox.rows ++ (Resolution.between d.id db db').outbox)
    ∧ (Resolution.between d.id db db').Complete (d.finalized now) decision
        operationId := by
  obtain ⟨m₁, t₁, m₂, t₂, h₁, h₂, hdb⟩ := h
  obtain ⟨ms, hms, hchat, hids⟩ := messages_recorded h₁ h₂
  have hevents : db'.orderEvents = db.orderEvents
      ++ [disputeResolvedEvent (d.finalized now) decision operationId] := by
    rw [hdb]
    rfl
  have hmessages : db'.messages.rows = db.messages.rows ++ ms := by
    rw [hdb]
    exact hms
  have houtbox : db'.domainOutbox.rows = db.domainOutbox.rows
      ++ [disputeResolvedOutbox ((d.finalized now).row o) decision operationId
        (ms.map SystemMessage.id)] := by
    rw [hdb, hids]
    refine Table.rows_upsert_of_not_has ?_
    rw [disputeResolvedOutbox_eventKey]
    exact hfree
  have hbetween : Resolution.between d.id db db'
      = ⟨d.id, db.conversations.find? d.orderId,
        [disputeResolvedEvent (d.finalized now) decision operationId], ms,
        [disputeResolvedOutbox ((d.finalized now).row o) decision operationId
          (ms.map SystemMessage.id)]⟩ := by
    unfold Resolution.between
    rw [hevents, hmessages, houtbox, List.drop_left, List.drop_left,
      List.drop_left, hfind]
    rfl
  rw [hbetween]
  exact ⟨⟨hevents, hmessages, houtbox⟩, rfl,
    ⟨resolutionId, outcomeId, hchat⟩, ⟨(d.finalized now).row o, rfl, rfl⟩⟩

/-- A finalization writes one set of history rows for its operation. There
was none with this operation before, since the dispute was not resolved. -/
theorem HistorySound.finalized {db db' : Db} {rs : List Resolution}
    {d : Dispute} {o : OrderRow} {decision : DisputeDecision}
    {operationId resolutionId outcomeId : Uuid} {now : Timestamp}
    (h : HistorySound db rs) (hfind : db.disputes.find? d.id = some d)
    (hs : d.status ≠ .resolved)
    (hmatching : d.resolutionDecision = some decision
      ∧ d.resolutionOperationId = some operationId)
    (hrecorded : ResolutionRecorded ((d.finalized now).row o) decision
      operationId resolutionId outcomeId (db.putDispute (d.finalized now))
      db') : HistorySound db' (rs ++ [.between d.id db db']) := by
  obtain ⟨⟨hevents, hmessages, houtbox⟩, hcomplete⟩ :=
    hrecorded.added hfind (h.key_free hfind hs operationId)
  have hnew : d.id ∉ rs.map Resolution.disputeId := by
    intro hmem
    obtain ⟨r, hr, hid⟩ := List.mem_map.mp hmem
    obtain ⟨x, _, _, hx, hxs, -⟩ := h.complete r hr
    rw [hid, hfind] at hx
    cases hx
    exact hs hxs
  have hset : ∀ id, db'.disputes.find? id = if d.id = id then
      some (d.finalized now) else db.disputes.find? id := by
    intro id
    rw [hrecorded.tables.1]
    show (db.disputes.set (d.finalized now)).find? id = _
    rw [Table.find?_set, show (d.finalized now).id = d.id from rfl]
    by_cases hid : d.id = id
    · subst hid
      rw [if_pos rfl, if_pos rfl, hfind]
      rfl
    · rw [if_neg hid, if_neg hid]
  refine ⟨?_, ?_, ?_, ?_, ?_, ?_, ?_, ?_⟩
  · rw [hevents, List.filter_append, h.events, List.flatMap_append,
      List.flatMap_singleton, hcomplete.events]
    rfl
  · rw [hmessages, List.filter_append, h.messages, List.flatMap_append,
      List.flatMap_singleton]
  · intro r hr m hm
    rw [hmessages]
    rcases List.mem_append.mp hr with hr | hr
    · exact List.mem_append_left _ (h.sent r hr m hm)
    · rw [List.mem_singleton.mp hr] at hm
      exact List.mem_append_right _ hm
  · obtain ⟨row, -, hrow⟩ := hcomplete.outbox
    rw [houtbox, List.filter_append, h.outbox, List.flatMap_append,
      List.flatMap_singleton, hrow]
    rfl
  · intro e he
    rw [houtbox] at he
    rcases List.mem_append.mp he with he | he
    · exact h.keyed e he
    · obtain ⟨row, -, hrow⟩ := hcomplete.outbox
      rw [hrow] at he
      rw [List.mem_singleton.mp he]
      exact ⟨_, disputeResolvedKey_eq _ _⟩
  · rw [List.map_append]
    refine List.nodup_append.mpr ⟨h.nodup, List.nodup_singleton _, ?_⟩
    intro id hid _ hid' heq
    subst heq
    rw [List.map_singleton, List.mem_singleton] at hid'
    rw [hid'] at hid
    exact hnew hid
  · intro r hr
    rcases List.mem_append.mp hr with hr | hr
    · obtain ⟨x, dec, op, hx, hrest⟩ := h.complete r hr
      refine ⟨x, dec, op, ?_, hrest⟩
      rw [hset, if_neg ?_]
      · exact hx
      · intro he
        exact hnew (List.mem_map.mpr ⟨r, hr, he.symm⟩)
    · rw [List.mem_singleton.mp hr]
      refine ⟨d.finalized now, decision, operationId, ?_, rfl, hmatching.1,
        hmatching.2, hcomplete⟩
      rw [hset]
      exact if_pos rfl
  · intro id x hx hxs
    rw [List.map_append]
    rw [hset] at hx
    split at hx
    · next he =>
      exact List.mem_append_right _ (List.mem_singleton.mpr he.symm)
    · exact List.mem_append_left _ (h.logged hx hxs)

/-- Every transaction keeps what holds of the history rows. -/
theorem HistorySound.effect {db db' : Db} {settled : List Uuid}
    {rs resolved : List Resolution} (h : HistorySound db rs)
    (heffect : Effect db db' settled resolved) :
    HistorySound db' (rs ++ resolved) := by
  cases heffect with
  | moved hmoved =>
      rw [List.append_nil]
      exact h.moved hmoved
  | settled hmoved _ _ _ =>
      rw [List.append_nil]
      exact h.moved hmoved
  | marked found id_eq _ unresolved status _ _ =>
      rw [List.append_nil]
      refine h.marked found id_eq unresolved ?_
      rcases status with hs | hs <;> rw [hs] <;> nofun
  | finalized found _ matching unresolved _ accepted recorded =>
      exact h.finalized found unresolved (matching.of_accepted accepted)
        recorded

-- ============================================================= settlements

/-- A settled order is never settled again. -/
structure SettledOnce (db : Db) (ids : List Uuid) : Prop where
  nodup : ids.Nodup
  settled : ∀ id ∈ ids, OrderIs db.orders id OrderStatus.Settled

/-- Every transaction moves orders along their edges. -/
theorem Effect.orders {db db' : Db} {settled : List Uuid}
    {resolved : List Resolution} (h : Effect db db' settled resolved) :
    OrdersStep db.orders db'.orders := by
  cases h with
  | moved hmoved => exact hmoved.orders
  | settled hmoved _ _ _ => exact hmoved.orders
  | marked _ _ _ _ _ _ _ => exact .same rfl
  | finalized _ _ _ _ _ _ recorded => exact .same recorded.tables.2

/-- No transaction settles an order that was settled before. -/
theorem SettledOnce.effect {db db' : Db} {ids settled : List Uuid}
    {resolved : List Resolution} (h : SettledOnce db ids)
    (heffect : Effect db db' settled resolved) :
    SettledOnce db' (ids ++ settled) := by
  have hkeep : ∀ id ∈ ids, OrderIs db'.orders id OrderStatus.Settled := by
    intro id hid
    refine heffect.orders.keeps ?_ (h.settled id hid)
    intro s s' hedge hs
    exact absurd hedge (terminal_stuck hs)
  cases heffect with
  | moved _ =>
      rw [List.append_nil]
      exact ⟨h.nodup, hkeep⟩
  | @settled _ _ o o' _ edge moved settled =>
      refine ⟨List.nodup_append.mpr ⟨h.nodup, List.nodup_singleton _, ?_⟩, ?_⟩
      · intro id hid _ hid' heq
        subst heq
        rw [List.mem_singleton.mp hid'] at hid
        obtain ⟨x, hx, hs⟩ := h.settled _ hid
        rw [moved.found] at hx
        cases hx
        exact terminal_stuck hs edge
      · intro id hid
        rcases List.mem_append.mp hid with hid | hid
        · exact hkeep id hid
        · rw [List.mem_singleton.mp hid]
          exact ⟨o', moved.find?_eq, settled⟩
  | marked _ _ _ _ _ _ _ =>
      rw [List.append_nil]
      exact ⟨h.nodup, hkeep⟩
  | finalized _ _ _ _ _ _ _ =>
      rw [List.append_nil]
      exact ⟨h.nodup, hkeep⟩

-- ================================================================ the runs

/-- What holds in every state of the system. -/
structure SagaInv (s : Saga) : Prop where
  disputes : DisputesSound s.db
  history : HistorySound s.db s.resolutions
  settled : SettledOnce s.db s.settlements

/-- Every event keeps the invariants. -/
theorem SagaInv.step {s : Saga} (h : SagaInv s) (e : Event) :
    SagaInv (s.step e) := by
  obtain ⟨settled, resolved, heffect, hsettled, hresolved⟩ := s.step_effect e
  refine ⟨h.disputes.effect heffect, ?_, ?_⟩
  · rw [hresolved]
    exact h.history.effect heffect
  · rw [hsettled]
    exact h.settled.effect heffect

/-- So they hold in every run. -/
theorem SagaInv.run {s : Saga} (h : SagaInv s) (events : List Event) :
    SagaInv (run Saga.step s events) :=
  run_keeps (fun _ e hs => hs.step e) h events

/-- A database without disputes. -/
structure Undisputed (db : Db) : Prop where
  disputes : db.disputes.rows = []
  events : ∀ e ∈ db.orderEvents, e.resolution = none
  messages : ∀ m ∈ db.messages.rows, m.resolution = none
  outbox : ∀ e ∈ db.domainOutbox.rows,
    e.Keyed ∧ e.eventType ≠ .disputeResolved

/-- They hold where there is no dispute yet. -/
theorem Undisputed.sagaInv {db : Db} (h : Undisputed db) :
    SagaInv (.start db) := by
  have hnone : ∀ {id d}, ¬ db.disputes.find? id = some d := by
    intro id d hfind
    have hmem := Table.mem_of_find? hfind
    rw [h.disputes] at hmem
    cases hmem
  refine ⟨?_, ?_, ⟨List.nodup_nil, by simp [Saga.start]⟩⟩
  · refine ⟨?_, ?_, ?_, ?_, ?_, ?_⟩ <;> intros <;>
      exact absurd (by assumption) hnone
  · refine ⟨?_, ?_, ?_, ?_, ?_, List.nodup_nil, ?_, ?_⟩
    · refine List.filter_eq_nil_iff.mpr fun e he => ?_
      rw [h.events e he]
      nofun
    · refine List.filter_eq_nil_iff.mpr fun m hm => ?_
      rw [h.messages m hm]
      nofun
    · simp [Saga.start]
    · refine List.filter_eq_nil_iff.mpr fun e he => ?_
      simp [(h.outbox e he).2]
    · intro e he
      exact (h.outbox e he).1
    · simp [Saga.start]
    · intro id d hfind
      exact absurd hfind hnone

/-- How a dispute may look later. -/
structure Dispute.Continues (d d' : Dispute) : Prop where
  order : d'.orderId = d.orderId
  decision : ∀ decision, d.resolutionDecision = some decision →
    d'.resolutionDecision = some decision
  operation : ∀ operationId, d.resolutionOperationId = some operationId →
    d'.resolutionOperationId = some operationId
  resolved : d.status = .resolved → d' = d

/-- A dispute may stay as it is. -/
theorem Dispute.Continues.refl (d : Dispute) : d.Continues d :=
  ⟨rfl, fun _ h => h, fun _ h => h, fun _ => rfl⟩

/-- One step after the other. -/
theorem Dispute.Continues.trans {d d' d'' : Dispute} (h : d.Continues d')
    (h' : d'.Continues d'') : d.Continues d'' := by
  refine ⟨h'.order.trans h.order, ?_, ?_, ?_⟩
  · intro decision hd
    exact h'.decision decision (h.decision decision hd)
  · intro operationId hop
    exact h'.operation operationId (h.operation operationId hop)
  · intro hs
    have heq := h.resolved hs
    rw [← heq] at hs
    rw [h'.resolved hs, heq]

/-- Another row for a dispute that is not resolved. -/
theorem Dispute.Continues.of_put {db : Db} {d d' : Dispute}
    (h : d.Continues d') (hfind : db.disputes.find? d.id = some d)
    (hid : d'.id = d.id) {id : Uuid} {x : Dispute}
    (hx : db.disputes.find? id = some x) :
    ∃ x', (db.disputes.set d').find? id = some x' ∧ x.Continues x' := by
  rw [Table.find?_set, hid]
  by_cases he : d.id = id
  · subst he
    rw [hfind] at hx
    cases hx
    rw [if_pos rfl, hfind]
    exact ⟨d', rfl, h⟩
  · rw [if_neg he]
    exact ⟨x, hx, .refl x⟩

/-- A claim is never changed by a transaction. -/
theorem DisputesSound.continues {db db' : Db} {settled : List Uuid}
    {resolved : List Resolution} (h : DisputesSound db)
    (heffect : Effect db db' settled resolved) {id : Uuid} {x : Dispute}
    (hx : db.disputes.find? id = some x) :
    ∃ x', db'.disputes.find? id = some x' ∧ x.Continues x' := by
  have hmoved : ∀ {drawn}, Moved drawn db db' →
      ∃ x', db'.disputes.find? id = some x' ∧ x.Continues x' := by
    intro drawn hmoved
    refine ⟨x, ?_, .refl x⟩
    cases hmoved.disputes with
    | same hd =>
        rw [hd]
        exact hx
    | opened _ _ _ _ _ inserted =>
        rw [Table.find?_insert inserted, if_neg ?_]
        · exact hx
        · intro heq
          subst heq
          exact (Table.insert?_eq_some.mp inserted).1
            (Table.has_iff.mpr ⟨x, hx⟩)
  cases heffect with
  | moved h => exact hmoved h
  | settled h _ _ _ => exact hmoved h
  | @marked d d' found id_eq order_eq unresolved _ kept _ =>
      refine Dispute.Continues.of_put ⟨order_eq, ?_, ?_, ?_⟩ found id_eq hx
      · intro decision hd
        rcases kept with hs | ⟨hdecision, -⟩
        · rw [(h.unclaimed found hs).decision] at hd
          cases hd
        · rw [hdecision, hd]
      · intro operationId hop
        rcases kept with hs | ⟨-, hoperation⟩
        · rw [(h.unclaimed found hs).operation] at hop
          cases hop
        · rw [hoperation, hop]
      · intro hs
        exact absurd hs unresolved
  | @finalized d _ _ _ _ _ now _ found _ _ unresolved _ _ recorded =>
      rw [recorded.tables.1]
      show ∃ x', (db.disputes.set (d.finalized now)).find? id = some x' ∧ _
      have hcontinues : d.Continues (d.finalized now) :=
        ⟨rfl, fun _ h => h, fun _ h => h, fun hs => absurd hs unresolved⟩
      exact hcontinues.of_put found rfl hx

/-- Nor by a run. -/
theorem SagaInv.continues {s : Saga} (h : SagaInv s) (events : List Event)
    {id : Uuid} {d : Dispute} (hfind : s.db.disputes.find? id = some d) :
    ∃ d', (Stepping.run Saga.step s events).db.disputes.find? id = some d'
      ∧ d.Continues d' := by
  induction events generalizing s d with
  | nil => exact ⟨d, hfind, .refl d⟩
  | cons e events ih =>
      obtain ⟨_, _, heffect, -⟩ := s.step_effect e
      obtain ⟨d₁, hfind₁, hcont₁⟩ := h.disputes.continues heffect hfind
      obtain ⟨d₂, hfind₂, hcont₂⟩ := ih (h.step e) hfind₁
      exact ⟨d₂, hfind₂, hcont₁.trans hcont₂⟩

/-- The status that a decision leads an order to. -/
def DisputeDecision.orderStatus : DisputeDecision → OrderStatus
  | refund => .refunded
  | release => .completed

/-- A decision and the status it leads to name each other. -/
theorem eq_orderStatus {s : OrderStatus} {decision : DisputeDecision}
    (h : terminalDecision s = some decision) : s = decision.orderStatus := by
  cases s <;> cases h <;> rfl

/-- A dispute that is resolved in state `s`: one decision, an order that
went there, and every history row once. -/
structure ResolvedOnce (s : Saga) (d : Dispute) (decision : DisputeDecision)
    (operationId : Uuid) (r : Resolution) : Prop where
  decided : d.resolutionDecision = some decision
  operation : d.resolutionOperationId = some operationId
  resolution : d.resolution = some decision
  order : OrderIs s.db.orders d.orderId fun st => st = decision.orderStatus
  once : (s.resolutions.filter fun r' => r'.disputeId = d.id) = [r]
  complete : r.Complete d decision operationId
  events : ((s.db.orderEvents.filter fun e => e.resolution.isSome).filter
    fun e => e.orderId = d.orderId) = r.events
  messages : ((s.db.messages.rows.filter fun m => m.resolution.isSome).filter
      fun m => m.resolution.map Prod.snd = some operationId)
    = r.messages.filter fun m => m.resolution.isSome
  sent : ∀ m ∈ r.messages, m ∈ s.db.messages.rows
  outbox : ((s.db.domainOutbox.rows.filter
      fun e => e.eventType = .disputeResolved).filter
    fun e => e.aggregateId = d.id.text) = r.outbox

section Rows

variable {db : Db} {rs : List Resolution} {id : Uuid} {d : Dispute}

/-- Rows that are told apart by the dispute they belong to. -/
theorem filter_flatMap_resolutions {α : Type} {f : Resolution → List α}
    {p : α → Prop} [DecidablePred p] {r : Resolution}
    (hr : (rs.filter fun r' => r'.disputeId = id) = [r])
    (h : ∀ r' ∈ rs, ∀ x ∈ f r', (p x ↔ r'.disputeId = id)) :
    ((rs.flatMap f).filter fun x => p x) = f r := by
  have hfilter : ((rs.flatMap f).filter fun x => p x)
      = (rs.filter fun r' => r'.disputeId = id).flatMap f := by
    clear hr
    induction rs with
    | nil => rfl
    | cons r' rs ih =>
        have htail := ih fun r'' hr'' => h r'' (List.mem_cons_of_mem _ hr'')
        have hhead := h r' List.mem_cons_self
        rw [List.flatMap_cons, List.filter_append, htail]
        by_cases hid : r'.disputeId = id
        · rw [List.filter_cons_of_pos (by simpa using hid), List.flatMap_cons,
            List.filter_eq_self.mpr
              fun x hx => decide_eq_true ((hhead x hx).mpr hid)]
        · rw [List.filter_cons_of_neg (by simpa using hid),
            List.filter_eq_nil_iff.mpr
              fun x hx hp => hid ((hhead x hx).mp (of_decide_eq_true hp)),
            List.nil_append]
  rw [hfilter, hr, List.flatMap_singleton]

/-- What the record of a dispute says, and whose it is. -/
theorem HistorySound.record (h : HistorySound db rs) {r : Resolution}
    (hr : r ∈ rs) : ∃ d decision operationId,
      db.disputes.find? r.disputeId = some d ∧ d.id = r.disputeId
        ∧ d.resolutionDecision = some decision
        ∧ d.resolutionOperationId = some operationId
        ∧ r.Complete d decision operationId := by
  obtain ⟨d, decision, operationId, hfind, -, hrest⟩ := h.complete r hr
  exact ⟨d, decision, operationId, hfind, Table.key_of_find? hfind, hrest⟩

/-- The messages of a resolution with metadata carry its operation. -/
theorem Resolution.Complete.operation_of_mem {r : Resolution}
    {decision : DisputeDecision} {operationId : Uuid}
    (h : r.Complete d decision operationId) {m : SystemMessage}
    (hm : m ∈ r.messages) (hsome : m.resolution.isSome) :
    m.resolution = some (decision, operationId) := by
  obtain ⟨resolutionId, outcomeId, hmessages⟩ := h.messages
  rw [hmessages] at hm
  obtain ⟨c, -, hm⟩ := List.mem_flatMap.mp hm
  simp only [resolutionMessages, List.mem_cons, List.not_mem_nil,
    or_false] at hm
  rcases hm with rfl | rfl
  · rfl
  · cases hsome

end Rows

/-- A resolved dispute has one outcome, with one set of history rows: of its
decision, by the operation that the row names, and with the order in the
status that goes with it. -/
theorem SagaInv.resolvedOnce {s : Saga} (h : SagaInv s) {id : Uuid}
    {d : Dispute} (hfind : s.db.disputes.find? id = some d)
    (hs : d.status = .resolved) :
    ∃ decision operationId r, ResolvedOnce s d decision operationId r := by
  have hid := Table.key_of_find? hfind
  subst hid
  obtain ⟨r, hr, hrid⟩ := List.mem_map.mp (h.history.logged hfind hs)
  obtain ⟨x, decision, operationId, hx, -, hdecision, hoperation, hcomplete⟩ :=
    h.history.record hr
  rw [hrid, hfind] at hx
  cases hx
  have honce : (s.resolutions.filter fun r' => r'.disputeId = d.id) = [r] := by
    rw [← hrid]
    exact filter_key_eq_singleton h.history.nodup hr
  refine ⟨decision, operationId, r, hdecision, hoperation, ?_, ?_, honce,
    hcomplete, ?_, ?_, h.history.sent r hr, ?_⟩
  · rw [((h.disputes.state hfind).resolved hs).1, hdecision]
  · obtain ⟨o, ho, hterminal⟩ := h.disputes.outcome hfind hs
    rw [hdecision] at hterminal
    exact ⟨o, ho, eq_orderStatus hterminal⟩
  · rw [h.history.events]
    refine filter_flatMap_resolutions honce ?_
    intro r' hr' e he
    obtain ⟨x, _, _, hx, hxid, -, -, hcomplete'⟩ := h.history.record hr'
    rw [hcomplete'.events] at he
    rw [List.mem_singleton.mp he]
    simp only [disputeResolvedEvent]
    constructor
    · intro horder
      exact h.disputes.unique hx hfind horder
    · intro hid
      rw [hid, hfind] at hx
      cases hx
      rfl
  · rw [h.history.messages]
    refine filter_flatMap_resolutions honce ?_
    intro r' hr' m hm
    obtain ⟨hm, hsome⟩ := List.mem_filter.mp hm
    obtain ⟨x, _, op, hx, hxid, -, hop, hcomplete'⟩ := h.history.record hr'
    rw [hcomplete'.operation_of_mem hm hsome]
    simp only [Option.map_some, Option.some.injEq]
    constructor
    · intro heq
      subst heq
      by_contra hne
      have hnone := h.disputes.operation hfind hx hne (by rw [hop, hoperation])
      rw [hoperation] at hnone
      cases hnone
    · intro hid
      rw [hid, hfind] at hx
      cases hx
      rw [hoperation] at hop
      cases hop
      rfl
  · rw [h.history.outbox]
    refine filter_flatMap_resolutions honce ?_
    intro r' hr' e he
    obtain ⟨x, _, _, hx, hxid, -, -, hcomplete'⟩ := h.history.record hr'
    obtain ⟨row, hrow, houtbox⟩ := hcomplete'.outbox
    rw [houtbox] at he
    rw [List.mem_singleton.mp he]
    simp only [disputeResolvedOutbox, hrow]
    rw [← hxid]
    constructor
    · intro htext
      exact Uuid.text_injective htext
    · intro heq
      rw [heq]

/-- Whatever happens in whatever order: claims do not change, an order is
settled once, a resolved dispute stays resolved and has one outcome,
and no resolution is recorded for any other. -/
theorem dispute_single_outcome {db : Db} (hdb : Undisputed db)
    (events later : List Event) :
    (∀ id d, (run Saga.step (.start db) events).db.disputes.find? id = some d →
      ∃ d', (run Saga.step (run Saga.step (.start db) events)
          later).db.disputes.find? id = some d' ∧ d.Continues d')
    ∧ (run Saga.step (.start db) events).settlements.Nodup
    ∧ (∀ id d, (run Saga.step (.start db) events).db.disputes.find? id
        = some d → d.status = .resolved → ∃ decision operationId r,
          ResolvedOnce (run Saga.step (.start db) events) d decision
            operationId r)
    ∧ ∀ r ∈ (run Saga.step (.start db) events).resolutions, ∃ d,
        (run Saga.step (.start db) events).db.disputes.find? r.disputeId
          = some d ∧ d.status = .resolved := by
  have h := hdb.sagaInv.run events
  refine ⟨fun _ _ hfind => h.continues later hfind, h.settled.nodup,
    fun _ _ hfind hs => h.resolvedOnce hfind hs, ?_⟩
  intro r hr
  obtain ⟨d, _, _, hfind, hs, -⟩ := h.history.complete r hr
  exact ⟨d, hfind, hs⟩

/-- There is no dispute yet. -/
theorem oneOrderDb_undisputed : Undisputed oneOrderDb where
  disputes := rfl
  events := by
    intro e he
    simp [oneOrderDb, Db.empty] at he
  messages := by
    intro m hm
    simp [oneOrderDb, Db.empty, Table.empty] at hm
  outbox := by
    intro e he
    simp [oneOrderDb, Db.empty, Table.empty] at he

/-- A step at time `now` with three fresh uuids from `n` on. -/
def tickAt (now n : Nat) : Tick :=
  ⟨defaultConfig, now, now, none, ⟨.ofNat 128 n⟩, ⟨.ofNat 128 (n + 1)⟩,
    ⟨.ofNat 128 (n + 2)⟩⟩

/-- The admin refunds the buyer of the disputed order. -/
def refundedEvents : List Event :=
  disputedCalls.map .call
    ++ [.resolve 0 ⟨⟨5⟩, .refund, ⟨9⟩, "not delivered", none, true⟩,
      .advance 0 (tickAt 10 20), .advance 0 (tickAt 11 30),
      .advance 0 (tickAt 12 40)]

/-- A dispute is opened and refunded, and has one outcome. -/
theorem refunded_single_outcome :
    ∃ d, (run Saga.step (.start oneOrderDb) refundedEvents).db.disputes.find?
        ⟨5⟩ = some d
      ∧ ∃ decision operationId r, ResolvedOnce
        (run Saga.step (.start oneOrderDb) refundedEvents) d decision
        operationId r := by
  have hresolved : ((run Saga.step (.start oneOrderDb)
      refundedEvents).db.disputes.find? ⟨5⟩).map Dispute.status
      = some .resolved := by
    decide +kernel
  obtain ⟨d, hfind, hs⟩ := Option.map_eq_some_iff.mp hresolved
  exact ⟨d, hfind, (dispute_single_outcome oneOrderDb_undisputed
    refundedEvents []).2.2.1 _ d hfind hs⟩

end Skrynia
