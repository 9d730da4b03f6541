/-
When an acknowledged payment is recorded.

The provider is told success either because the operation committed or
because its error was a 4xx. The second is right for an order that was
captured before or has ended, and wrong for one that is still pending:
out of stock, a product off sale or a full balance may pass, the
payment's notification will not come again.

`confirmed_payment_recorded_iff` is exact: a run leaves no acknowledged
payment unrecorded just when every operation in it meets a pending order
that can be captured, or a top-up that can be credited.
-/
import Skrynia.Payments.Webhook

namespace Skrynia

open Relational Stepping

namespace WebhookSystem

variable {s : WebhookSystem} {e : WebhookEvent} {d : Nat}
  {w : ConfirmedWebhook}

/-- The order is no longer pending, respectively the top-up. -/
def PaymentRecorded (db : Db) (w : ConfirmedWebhook) : PaidSubject → Prop
  | .order => OrderIs db.orders w.subject fun status => status ≠ .pending
  | .topup => ∃ t, db.walletTopups.find? w.subject = some t
      ∧ t.status ≠ .pending

/-- No payment was acknowledged and dropped. -/
def AllRecorded (s : WebhookSystem) : Prop :=
  ∀ d w subject, s.phase d = .answered w (some subject) true →
    PaymentRecorded s.db w subject

/-- The operation that the step runs meets an order or top-up that is
not pending, or one that it can record. -/
def Recordable (s : WebhookSystem) : WebhookEvent → Prop
  | .persist d _ none =>
      match s.phase d with
      | .lockEscrow w _ => ∀ o, s.db.orders.find? w.subject = some o →
          o.status = .pending → Capturable s.db o
      | .completeTopup w => ∀ t, s.db.walletTopups.find? w.subject = some t →
          t.status = .pending → Creditable s.db t
      | _ => True
  | _ => True

/-- What a handler has read is still so. -/
def ReadBack (db : Db) : DeliveryPhase → Prop
  | .lockEscrow w buyerId =>
      ∃ o, db.orders.find? w.subject = some o ∧ o.buyerId = buyerId
  | .completeTopup w => ∃ t, db.walletTopups.find? w.subject = some t
  | _ => True

/-- It is so of every delivery. -/
def Sound (s : WebhookSystem) : Prop := ∀ d, ReadBack s.db (s.phase d)

-- ============================================================ the database

/-- One step of the database: a call, or nothing that concerns orders and
top-ups. -/
inductive DbStep (db db' : Db) : Prop where
  | moved (drawn : Option String) (h : Moved drawn db db')
  | kept (orders : db'.orders = db.orders)
      (topups : db'.walletTopups = db.walletTopups)

/-- A payment stays recorded. -/
theorem DbStep.recorded {db db' : Db} (h : DbStep db db')
    {subject : PaidSubject} (hr : PaymentRecorded db w subject) :
    PaymentRecorded db' w subject := by
  cases h with
  | moved drawn h =>
      cases subject with
      | order =>
          have ho : OrderIs db.orders w.subject fun status =>
            status ≠ .pending := hr
          refine h.orders.keeps ?_ ho
          intro status status' hedge _ hpending
          rw [hpending] at hedge
          exact not_to_pending hedge
      | topup => exact h.topups hr
  | kept orders topups =>
      cases subject with
      | order =>
          show OrderIs db'.orders w.subject fun status => status ≠ .pending
          rw [orders]
          exact hr
      | topup =>
          show ∃ t, db'.walletTopups.find? _ = _ ∧ _
          rw [topups]
          exact hr

/-- Orders keep their buyer. -/
theorem OrdersStep.buyer {t t' : Table OrderRow.id} (h : OrdersStep t t')
    {id : Uuid} {o : OrderRow} (hfind : t.find? id = some o) :
    ∃ o', t'.find? id = some o' ∧ o'.buyerId = o.buyerId := by
  cases h with
  | same h =>
      rw [h]
      exact ⟨o, hfind, rfl⟩
  | created _ inserted =>
      refine ⟨o, ?_, rfl⟩
      rw [Table.find?_insert inserted, if_neg]
      · exact hfind
      · intro hid
        apply (Table.insert?_eq_some.mp inserted).1
        rw [hid]
        exact Table.has_iff.mpr ⟨o, hfind⟩
  | @moved p p' _ moved =>
      rw [moved.table_eq, Table.find?_set, hfind]
      by_cases hid : p'.id = id
      · rw [if_pos hid]
        have hp : t.find? id = some p := by
          rw [← hid, moved.id_eq]
          exact moved.found
        rw [hfind] at hp
        cases hp
        exact ⟨p', rfl, moved.buyer_eq⟩
      · rw [if_neg hid]
        exact ⟨o, rfl, rfl⟩

/-- What was read stays true whatever is done next. -/
theorem DbStep.readBack {db db' : Db} (h : DbStep db db')
    {phase : DeliveryPhase} (hr : ReadBack db phase) :
    ReadBack db' phase := by
  cases phase with
  | lockEscrow w buyerId =>
      obtain ⟨o, hfind, hbuyer⟩ := hr
      cases h with
      | moved drawn h =>
          obtain ⟨o', hfind', hbuyer'⟩ := OrdersStep.buyer h.orders hfind
          exact ⟨o', hfind', hbuyer'.trans hbuyer⟩
      | kept orders topups =>
          refine ⟨o, ?_, hbuyer⟩
          rw [orders]
          exact hfind
  | completeTopup w =>
      obtain ⟨t, hfind⟩ := hr
      cases h with
      | moved drawn h =>
          rcases h.topups_step with hsame | ⟨t', -, hset⟩
          · refine ⟨t, ?_⟩
            rw [hsame]
            exact hfind
          · show ∃ t, db'.walletTopups.find? _ = some t
            rw [hset, Table.find?_set, hfind]
            split
            · exact ⟨t', rfl⟩
            · exact ⟨t, rfl⟩
      | kept orders topups =>
          refine ⟨t, ?_⟩
          rw [topups]
          exact hfind
  | _ => trivial

-- =========================================================== one operation

/-- The database after an operation: that of one attempt, or as before. -/
theorem persist_db {α : Type} (operation : DbTx α) (fault : Option Fault)
    (db : Db) :
    (persistConfirmedWebhookOutcome operation fault db).1
        = attempt operation db
      ∨ (persistConfirmedWebhookOutcome operation fault db).1 = db := by
  unfold persistConfirmedWebhookOutcome
  split
  · exact .inr rfl
  · exact .inl rfl
  · split
    · next r db' hrun =>
      refine .inl ?_
      unfold attempt
      rw [hrun]
    · exact .inr rfl

/-- The provider is told success when the operation committed, or failed
with a 4xx. -/
theorem persist_acknowledges {α : Type} {operation : DbTx α}
    {fault : Option Fault} {db : Db}
    (h : (persistConfirmedWebhookOutcome operation fault db).2 = true) :
    fault = none
      ∧ ((∃ r db', Commits operation db r db'
          ∧ (persistConfirmedWebhookOutcome operation fault db).1 = db')
        ∨ (∃ e, Aborts operation db e ∧ e.IsTerminal)
          ∧ (persistConfirmedWebhookOutcome operation fault db).1 = db) := by
  unfold persistConfirmedWebhookOutcome at h ⊢
  split at h
  · cases h
  · cases h
  · split at h
    · next r db' hrun => exact ⟨rfl, .inl ⟨r, db', hrun, rfl⟩⟩
    · next error hrun =>
      exact ⟨rfl, .inr ⟨⟨error, hrun, of_decide_eq_true h⟩, rfl⟩⟩

/-- A terminal error is acknowledged and nothing is written. -/
theorem persist_of_terminal {α : Type} {operation : DbTx α} {db : Db}
    (h : ∃ e, Aborts operation db e ∧ e.IsTerminal) :
    persistConfirmedWebhookOutcome operation none db = (db, true) := by
  obtain ⟨error, hrun, he⟩ := h
  unfold Aborts at hrun
  unfold persistConfirmedWebhookOutcome
  dsimp only
  rw [hrun]
  dsimp only
  rw [decide_eq_true he]

/-- A capture that is acknowledged has been recorded, unless it was
refused while the order could still be paid later. -/
theorem lockEscrow_recorded_iff (draw : WebhookDraw) (fault : Option Fault)
    {db : Db} {buyerId : Uuid} (hread : ReadBack db (.lockEscrow w buyerId)) :
    ((persistConfirmedWebhookOutcome (lockEscrow draw.cfg draw.now
        (w.lockEscrowInput buyerId draw)) fault db).2 = true →
      PaymentRecorded (persistConfirmedWebhookOutcome (lockEscrow draw.cfg
        draw.now (w.lockEscrowInput buyerId draw)) fault db).1 w .order)
      ↔ (fault = none → ∀ o, db.orders.find? w.subject = some o →
        o.status = .pending → Capturable db o) := by
  obtain ⟨o, hfind, hbuyer⟩ := hread
  have hactor : (w.lockEscrowInput buyerId draw).actor = some w.actor := rfl
  have hterminal := lockEscrow_terminal_iff draw.cfg draw.now hactor hfind
    hbuyer
  constructor
  · intro hrecorded hfault o' hfind' hpending
    rw [hfind] at hfind'
    cases hfind'
    subst hfault
    by_contra hcap
    rw [persist_of_terminal (hterminal.mpr fun h => hcap h.2)] at hrecorded
    obtain ⟨o', hfind', hstatus⟩ := hrecorded rfl
    rw [hfind] at hfind'
    cases hfind'
    exact hstatus hpending
  · intro hcap hack
    obtain ⟨hfault, hcommits | ⟨hrefused, hdb⟩⟩ := persist_acknowledges hack
    · obtain ⟨r, db', hcommits, hdb⟩ := hcommits
      rw [hdb]
      obtain ⟨o', hcaptured⟩ := lockEscrow_captured hcommits
      have hid : o'.id = w.subject := hcaptured.order_eq
      refine ⟨r, ?_, ?_⟩
      · rw [hcaptured.moved.table_eq, ← hid, ← hcaptured.moved.id_eq]
        have hfound := hcaptured.moved.found
        rw [← hcaptured.moved.id_eq] at hfound
        exact Table.find?_set_self hfound
      · rcases hcaptured.toEscrow with hs | hs <;> rw [hs] <;> nofun
    · rw [hdb]
      refine ⟨o, hfind, ?_⟩
      intro hpending
      exact hterminal.mp hrefused ⟨hpending, hcap hfault o hfind hpending⟩

/-- The top-up is recorded if it can be credited. -/
theorem completeWalletTopup_recorded_iff (draw : WebhookDraw)
    (fault : Option Fault) {db : Db} (hread : ReadBack db (.completeTopup w)) :
    ((persistConfirmedWebhookOutcome (completeWalletTopup draw.cfg draw.now
        (w.topupInput draw)) fault db).2 = true →
      PaymentRecorded (persistConfirmedWebhookOutcome (completeWalletTopup
        draw.cfg draw.now (w.topupInput draw)) fault db).1 w .topup)
      ↔ (fault = none → ∀ t, db.walletTopups.find? w.subject = some t →
        t.status = .pending → Creditable db t) := by
  obtain ⟨t, hfind⟩ := hread
  have hinput : db.walletTopups.find? (w.topupInput draw).topupId = some t :=
    hfind
  have hterminal := completeWalletTopup_terminal_iff draw.cfg draw.now hinput
  constructor
  · intro hrecorded hfault t' hfind' hpending
    rw [hfind] at hfind'
    cases hfind'
    subst hfault
    by_contra hroom
    rw [persist_of_terminal (hterminal.mpr ⟨hpending, hroom⟩)] at hrecorded
    obtain ⟨t', hfind', hstatus⟩ := hrecorded rfl
    rw [hfind] at hfind'
    cases hfind'
    exact hstatus hpending
  · intro hroom hack
    obtain ⟨hfault, hcommits | ⟨hrefused, hdb⟩⟩ := persist_acknowledges hack
    · obtain ⟨r, db', hcommits, hdb⟩ := hcommits
      rw [hdb]
      cases completeWalletTopup_toppedUp hcommits with
      | repeated found notPending => exact ⟨_, found, notPending⟩
      | @credited _ t' found pending topups =>
          refine ⟨t'.completed w.provider.text w.reference draw.now, ?_, ?_⟩
          · have hid : t'.id = w.subject := Table.key_of_find? found
            rw [topups, ← hid]
            rw [← hid] at hfind
            exact Table.find?_set_self hfind
          · show TopupStatus.completed ≠ .pending
            nofun
    · rw [hdb]
      refine ⟨t, hfind, ?_⟩
      intro hpending
      exact (hterminal.mp hrefused).2 (hroom hfault t hfind hpending)

-- ================================================================ one step

/-- The phase that was set. -/
@[simp] theorem phase_setPhase_self (p : DeliveryPhase) :
    (s.setPhase d p).phase d = p :=
  if_pos rfl

/-- The other deliveries keep theirs. -/
theorem phase_setPhase_of_ne {d' : Nat} (h : d' ≠ d) (p : DeliveryPhase) :
    (s.setPhase d p).phase d' = s.phase d' :=
  if_neg h

/-- Every event is a step of the database, or none. -/
theorem step_db (s : WebhookSystem) (e : WebhookEvent) :
    DbStep s.db (s.step e).db := by
  have hsame : DbStep s.db s.db := .kept rfl rfl
  cases e with
  | deliver d w =>
      unfold step
      dsimp only
      split
      · exact hsame
      · exact hsame
  | select d =>
      simp only [step, select]
      split
      · split <;> exact hsame
      · split <;> exact hsame
      · exact hsame
  | persist d draw fault =>
      simp only [step, persist]
      split
      · next w buyerId hphase =>
        rcases persist_db (lockEscrow draw.cfg draw.now
          (w.lockEscrowInput buyerId draw)) fault s.db with hdb | hdb
        · rw [hdb]
          exact .moved _ (Call.moved s.db ⟨draw.cfg, draw.now,
            .lockEscrow (w.lockEscrowInput buyerId draw)⟩)
        · rw [hdb]
          exact hsame
      · next w hphase =>
        rcases persist_db (completeWalletTopup draw.cfg draw.now
          (w.topupInput draw)) fault s.db with hdb | hdb
        · rw [hdb]
          exact .moved _ (Call.moved s.db ⟨draw.cfg, draw.now,
            .completeWalletTopup (w.topupInput draw)⟩)
        · rw [hdb]
          exact hsame
      · exact hsame
  | call call => exact .moved _ (Call.moved s.db call)
  | editProduct product => exact .kept rfl rfl

/-- Where a step takes a delivery. -/
inductive PhaseStep (s : WebhookSystem) (e : WebhookEvent)
    (s' : WebhookSystem) (d : Nat) : DeliveryPhase → Prop where
  | stays : PhaseStep s e s' d (s.phase d)
  | unanswered {p : DeliveryPhase} (db_eq : s'.db = s.db)
      (read : ReadBack s.db p)
      (unpaid : ∀ w subject, p ≠ .answered w (some subject) true) :
      PhaseStep s e s' d p
  | captured {w : ConfirmedWebhook} {buyerId : Uuid} {draw : WebhookDraw}
      {fault : Option Fault} (phase : s.phase d = .lockEscrow w buyerId)
      (event : e = .persist d draw fault)
      (db_eq : s'.db = (persistConfirmedWebhookOutcome (lockEscrow draw.cfg
        draw.now (w.lockEscrowInput buyerId draw)) fault s.db).1) :
      PhaseStep s e s' d (.answered w (some .order)
        (persistConfirmedWebhookOutcome (lockEscrow draw.cfg draw.now
          (w.lockEscrowInput buyerId draw)) fault s.db).2)
  | credited {w : ConfirmedWebhook} {draw : WebhookDraw}
      {fault : Option Fault} (phase : s.phase d = .completeTopup w)
      (event : e = .persist d draw fault)
      (db_eq : s'.db = (persistConfirmedWebhookOutcome (completeWalletTopup
        draw.cfg draw.now (w.topupInput draw)) fault s.db).1) :
      PhaseStep s e s' d (.answered w (some .topup)
        (persistConfirmedWebhookOutcome (completeWalletTopup draw.cfg
          draw.now (w.topupInput draw)) fault s.db).2)

/-- A step that changes the phase of `d`, seen at any delivery. -/
theorem PhaseStep.of_setPhase (p : DeliveryPhase) (db' : Db)
    (h : PhaseStep s e { s.setPhase d p with db := db' } d p) (d' : Nat) :
    PhaseStep s e { s.setPhase d p with db := db' } d'
      ((s.setPhase d p).phase d') := by
  by_cases hd : d' = d
  · rw [hd, phase_setPhase_self]
    exact h
  · rw [phase_setPhase_of_ne hd]
    exact .stays

/-- What an event can do to the phase of a delivery. -/
theorem step_phase (s : WebhookSystem) (e : WebhookEvent) (d : Nat) :
    PhaseStep s e (s.step e) d ((s.step e).phase d) := by
  cases e with
  | deliver d' w =>
      simp only [step]
      split
      · exact .of_setPhase (.selectOrder w) s.db
          (.unanswered rfl trivial (fun _ _ h => by cases h)) d
      · exact .stays
  | select d' =>
      simp only [step, select]
      split
      · next w hphase =>
        split
        · next order hfind =>
          exact .of_setPhase (.lockEscrow w order.buyerId) s.db
            (.unanswered rfl ⟨order, hfind, rfl⟩ (fun _ _ h => by cases h)) d
        · exact .of_setPhase (.selectTopup w) s.db
            (.unanswered rfl trivial (fun _ _ h => by cases h)) d
      · next w hphase =>
        split
        · next t hfind =>
          exact .of_setPhase (.completeTopup w) s.db
            (.unanswered rfl ⟨t, hfind⟩ (fun _ _ h => by cases h)) d
        · exact .of_setPhase (.answered w none true) s.db
            (.unanswered rfl trivial (fun _ _ h => by cases h)) d
      · exact .stays
  | persist d' draw fault =>
      simp only [step, persist]
      split
      · next w buyerId hphase =>
        exact .of_setPhase _ _ (.captured hphase rfl rfl) d
      · next w hphase =>
        exact .of_setPhase _ _ (.credited hphase rfl rfl) d
      · exact .stays
  | call call => exact .stays
  | editProduct product => exact .stays

/-- What was read stays so through every event. -/
theorem Sound.step (h : s.Sound) (e : WebhookEvent) : (s.step e).Sound := by
  intro d
  have hdb := step_db s e
  have hphase := step_phase s e d
  generalize (s.step e).phase d = p at hphase ⊢
  cases hphase with
  | stays => exact hdb.readBack (h d)
  | unanswered db_eq read => exact hdb.readBack read
  | captured => trivial
  | credited => trivial

/-- A step leaves every acknowledged payment recorded just when its
operation meets something that can be recorded. -/
theorem recordable_iff (hs : s.Sound) (hall : s.AllRecorded) :
    s.Recordable e ↔ (s.step e).AllRecorded := by
  constructor
  · intro hrec d w subject hanswered
    have hphase := step_phase s e d
    rw [hanswered] at hphase
    generalize hp : DeliveryPhase.answered w (some subject) true = p at hphase
    cases hphase with
    | stays => exact (step_db s e).recorded (hall d w subject hp.symm)
    | unanswered _ _ unpaid => exact absurd hp.symm (unpaid w subject)
    | captured phase event db_eq =>
        rw [DeliveryPhase.answered.injEq] at hp
        obtain ⟨rfl, hsubject, hack⟩ := hp
        rw [Option.some.inj hsubject, db_eq]
        have hread := hs d
        rw [phase] at hread
        refine (lockEscrow_recorded_iff _ _ hread).mpr ?_ hack.symm
        intro hfault
        subst event hfault
        simp only [Recordable, phase] at hrec
        exact hrec
    | credited phase event db_eq =>
        rw [DeliveryPhase.answered.injEq] at hp
        obtain ⟨rfl, hsubject, hack⟩ := hp
        rw [Option.some.inj hsubject, db_eq]
        have hread := hs d
        rw [phase] at hread
        refine (completeWalletTopup_recorded_iff _ _ hread).mpr ?_ hack.symm
        intro hfault
        subst event hfault
        simp only [Recordable, phase] at hrec
        exact hrec
  · intro hafter
    unfold Recordable
    split
    · next d draw =>
      have hread := hs d
      split
      · next w buyerId phase =>
        rw [phase] at hread
        refine (lockEscrow_recorded_iff draw none hread).mp ?_ rfl
        intro hack
        have hrecorded := hafter d w .order
        simp only [step, persist, phase] at hrecorded
        apply hrecorded
        rw [← hack]
        exact phase_setPhase_self _
      · next w phase =>
        rw [phase] at hread
        refine (completeWalletTopup_recorded_iff draw none hread).mp ?_ rfl
        intro hack
        have hrecorded := hafter d w .topup
        simp only [step, persist, phase] at hrecorded
        apply hrecorded
        rw [← hack]
        exact phase_setPhase_self _
      · trivial
    · trivial

-- ==================================================================== runs

/-- In a run of deliveries and other calls on any database, every state
reached has all acknowledged payments recorded, if and only if every
operation of the handlers meets an order or top-up that is not pending or
that it can record. -/
theorem confirmed_payment_recorded_iff (db : Db)
    (events : List WebhookEvent) :
    Along WebhookSystem.step Recordable (start db) events
      ↔ Along WebhookSystem.step (fun s e => (s.step e).AllRecorded)
        (start db) events := by
  let P (s : WebhookSystem) : Prop := s.Sound ∧ s.AllRecorded
  have hstart : P (start db) := ⟨fun _ => trivial, nofun⟩
  refine along_congr (P := P) ?_ ?_ hstart
  · intro s e h
    exact recordable_iff h.1 h.2
  · intro s e hrec h
    exact ⟨h.1.step e, (recordable_iff h.1 h.2).mp hrec⟩

/-- A confirmed payment of the order, whose product sells out before the
capture. -/
def soldOutPayment : List WebhookEvent :=
  [.deliver 0 (.liqpay ⟨4⟩ (some "pay_1")), .select 0,
    .editProduct { oneProduct with stock := 0 },
    .persist 0 ⟨defaultConfig, 1, ⟨11⟩, ⟨12⟩, ⟨13⟩⟩ none]

/-- The product is back in stock and the buyer pays a second time. -/
def secondPayment : List WebhookEvent :=
  [.editProduct oneProduct, .call ⟨defaultConfig, 2, .lockEscrow ⟨⟨4⟩, ⟨1⟩,
    .mock, none, some ⟨"mock", "mock_1"⟩, ⟨21⟩, ⟨22⟩, ⟨23⟩⟩⟩]

/-- The provider is told success, the order is pending, and it is payable
again as soon as there is stock. -/
theorem soldOutPayment_dropped :
    ((start oneOrderDb).play soldOutPayment).phase 0
        = .answered (.liqpay ⟨4⟩ (some "pay_1")) (some .order) true
      ∧ (((start oneOrderDb).play soldOutPayment).db.orders.find? ⟨4⟩).map
        OrderRow.status = some .pending
      ∧ (((start oneOrderDb).play
        (soldOutPayment ++ secondPayment)).db.orders.find? ⟨4⟩).map
          OrderRow.status = some .paid := by
  refine ⟨?_, ?_, ?_⟩ <;> decide +kernel

end WebhookSystem

end Skrynia
