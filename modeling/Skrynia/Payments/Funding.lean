/-
What callbacks capture, in every run.

# What holds

A delivery acts on a statement of the provider that has a final status and
names its order or top-up (`ActsOn`), and its operation moves that row from
`pending` once. So a payment funds one row, once, whatever else happens.

# What does not

No handler compares the amount and the currency that the provider confirms
with those of the row; the capture takes the row's. It is what was paid as
long as every statement that meets a payable row confirms the row's amount
(`ConfirmsDue`).
-/
import Skrynia.Payments.Callbacks
import Mathlib.Tactic.NormNum

namespace Skrynia

open Relational Stepping

-- ============================================================ the statement

/-- A delivery of `w` acts on the statement. -/
structure ActsOn (cfg : CallbackConfig) (made : ProviderStatement → Prop)
    (st : ProviderStatement) (w : ConfirmedWebhook) : Prop where
  made : made st
  final : st.Final
  names : cfg.uuidOf st.reference = some w.subject

/-- What a provider has signed, or answers for the payment that it was
asked about, it has stated. -/
def CallbackEvent.Authentic (cfg : CallbackConfig)
    (made : ProviderStatement → Prop) : CallbackEvent → Prop
  | .liqpayCallback _ (some body) =>
      verifyLiqpaySignature cfg body.data body.signature = .ok true →
        ∀ p, cfg.parseBase64 body.data = some p → made p.statement
  | .monobankCallback _ (some invoiceId) (.ok invoice) =>
      invoice.invoiceId = invoiceId ∧ made invoice.statement
  | .wayforpayCallback _ (some orderReference) (.ok status) =>
      status.orderReference = orderReference ∧ made status.statement
  | _ => True

/-- A provider takes a payment for one reference. -/
def OneReference (made : ProviderStatement → Prop) : Prop :=
  ∀ st st', made st → made st' → st.provider = st'.provider →
    st.paymentId = st'.paymentId → st.reference = st'.reference

section Handlers

variable {cfg : CallbackConfig} {made : ProviderStatement → Prop}
  {w : ConfirmedWebhook} {st : ProviderStatement} {d : Nat}

/-- A reference that is looked up names the subject of the webhook. -/
theorem lookUp_confirmed {reference : String} {f : Uuid → ConfirmedWebhook}
    {st' : ProviderStatement} (hf : ∀ id, (f id).subject = id)
    (h : cfg.lookUp reference f st' = .confirmed w st) :
    st = st' ∧ cfg.uuidOf reference = some w.subject := by
  unfold CallbackConfig.lookUp at h
  cases hid : cfg.uuidOf reference with
  | none =>
      rw [hid] at h
      cases h
  | some id =>
      rw [hid] at h
      cases h
      exact ⟨rfl, by rw [hf]⟩

/-- A LiqPay callback that is confirmed acts on the statement it carries. -/
theorem liqpayCallback_confirmed {body : Option LiqpayBody}
    (hauthentic : (CallbackEvent.liqpayCallback d body).Authentic cfg made)
    (h : liqpayCallback cfg body = .confirmed w st) : ActsOn cfg made st w := by
  cases body with
  | none => cases h
  | some body =>
      unfold liqpayCallback at h
      dsimp only at h
      cases hverified : verifyLiqpaySignature cfg body.data body.signature with
      | error e =>
          rw [hverified] at h
          cases h
      | ok verified =>
          rw [hverified] at h
          cases verified with
          | false => cases h
          | true =>
              cases hparsed : cfg.parseBase64 body.data with
              | none =>
                  rw [hparsed] at h
                  cases h
              | some callback =>
                  rw [hparsed] at h
                  dsimp only at h
                  split at h
                  · next hfinal =>
                    obtain ⟨rfl, hnames⟩ := lookUp_confirmed (fun _ => rfl) h
                    exact ⟨hauthentic hverified callback hparsed, hfinal, hnames⟩
                  · cases h

/-- A Monobank callback acts on what the provider answered. -/
theorem monobankCallback_confirmed {invoiceId : Option String}
    {reply : Except Failure MonobankInvoiceStatus}
    (hauthentic : (CallbackEvent.monobankCallback d invoiceId reply).Authentic
      cfg made)
    (h : monobankCallback cfg invoiceId reply = .confirmed w st) :
    ActsOn cfg made st w := by
  cases invoiceId with
  | none => cases h
  | some invoiceId =>
      cases reply with
      | error e => cases h
      | ok invoice =>
          unfold monobankCallback at h
          dsimp only at h
          split at h
          · cases h
          · next hsuccess =>
            obtain ⟨rfl, hnames⟩ := lookUp_confirmed (fun _ => rfl) h
            have hfinal : isMonobankSuccessStatus invoice.status = true :=
              Bool.eq_true_of_not_eq_false fun h => hsuccess (Or.inl h)
            exact ⟨hauthentic.2, hfinal, hnames⟩

/-- So does a WayForPay callback. -/
theorem wayforpayCallback_confirmed {orderReference : Option String}
    {reply : Except Failure WayforpayStatus}
    (hauthentic : (CallbackEvent.wayforpayCallback d orderReference
      reply).Authentic cfg made)
    (h : wayforpayCallback cfg orderReference reply = .confirmed w st) :
    ActsOn cfg made st w := by
  cases orderReference with
  | none => cases h
  | some orderReference =>
      cases reply with
      | error e => cases h
      | ok status =>
          unfold wayforpayCallback at h
          dsimp only at h
          split at h
          · next hfinal =>
            obtain ⟨rfl, hnames⟩ := lookUp_confirmed (fun _ => rfl) h
            refine ⟨hauthentic.2, hfinal, ?_⟩
            rw [show status.statement.reference = orderReference from
              hauthentic.1]
            exact hnames
          · cases h

end Handlers

-- ================================================================= rows

section Rows

variable {db db' : Db} {w : ConfirmedWebhook} {subject : PaidSubject}

open WebhookSystem

/-- The row is pending, and there is room to capture or to credit it. -/
def Payable (db : Db) (id : Uuid) : PaidSubject → Prop
  | .order => ∃ o, db.orders.find? id = some o ∧ o.status = .pending
      ∧ Capturable db o
  | .topup => ∃ t, db.walletTopups.find? id = some t ∧ t.status = .pending
      ∧ Creditable db t

/-- A row that can be paid has an amount due. -/
theorem Payable.due (h : Payable db w.subject subject) :
    ∃ amountCents currency,
      db.due subject w.subject = some (amountCents, currency) := by
  cases subject with
  | order =>
      obtain ⟨o, hfind, hpending, -⟩ := h
      refine ⟨o.amountCents, o.currency, ?_⟩
      show ((db.orders.find? w.subject).filter _).map _ = _
      rw [hfind, Option.filter_some, if_pos (decide_eq_true hpending)]
      rfl
  | topup =>
      obtain ⟨t, hfind, hpending, -⟩ := h
      refine ⟨t.amountCents, t.currency, ?_⟩
      show ((db.walletTopups.find? w.subject).filter _).map _ = _
      rw [hfind, Option.filter_some, if_pos (decide_eq_true hpending)]
      rfl

/-- What is recorded is not due. -/
theorem due_eq_none (h : PaymentRecorded db w subject) :
    db.due subject w.subject = none := by
  cases subject with
  | order =>
      obtain ⟨o, hfind, hstatus⟩ := h
      show ((db.orders.find? w.subject).filter _).map _ = _
      rw [hfind, Option.filter_some, if_neg (by simpa using hstatus)]
      rfl
  | topup =>
      obtain ⟨t, hfind, hstatus⟩ := h
      show ((db.walletTopups.find? w.subject).filter _).map _ = _
      rw [hfind, Option.filter_some, if_neg (by simpa using hstatus)]
      rfl

/-- A payable row has been moved from `pending`, and no row is new. -/
structure Records (db db' : Db) (w : ConfirmedWebhook)
    (subject : PaidSubject) : Prop where
  payable : Payable db w.subject subject
  recorded : PaymentRecorded db' w subject
  orders : ∀ id, db'.orders.Has id ↔ db.orders.Has id
  topups : ∀ id, db'.walletTopups.Has id ↔ db.walletTopups.Has id

/-- A capture that commits was of a payable order. -/
theorem lockEscrow_records {draw : WebhookDraw} {buyerId : Uuid} {r : OrderRow}
    (h : Commits (lockEscrow draw.cfg draw.now (w.lockEscrowInput buyerId draw))
      db r db') : Records db db' w .order := by
  have hread : ∃ o, db.orders.find? w.subject = some o
      ∧ o.buyerId = buyerId := by
    have h' := h
    unfold lockEscrow at h'
    rw [commits_selectOrderForUpdate_bind] at h'
    obtain ⟨o, hfind, h'⟩ := h'
    rw [commits_require_bind] at h'
    exact ⟨o, hfind, h'.1⟩
  obtain ⟨o, hfind, hbuyer⟩ := hread
  have hterminal := lockEscrow_terminal_iff draw.cfg draw.now
    (show (w.lockEscrowInput buyerId draw).actor = some w.actor from rfl)
    hfind hbuyer
  obtain ⟨o', hcaptured⟩ := lockEscrow_captured h
  constructor
  · by_contra hpayable
    have hrefused := hterminal.mpr fun hcap => hpayable ⟨o, hfind, hcap⟩
    obtain ⟨e, haborts, -⟩ := hrefused
    exact h.not_aborts haborts
  · have hid : o'.id = w.subject := hcaptured.order_eq
    refine ⟨r, ?_, ?_⟩
    · rw [hcaptured.moved.table_eq, ← hid, ← hcaptured.moved.id_eq]
      have hfound := hcaptured.moved.found
      rw [← hcaptured.moved.id_eq] at hfound
      exact Table.find?_set_self hfound
    · rcases hcaptured.toEscrow with hs | hs <;> rw [hs] <;> nofun
  · intro id
    rw [hcaptured.moved.table_eq, Table.has_set]
  · intro id
    rw [hcaptured.frame.walletTopups]

/-- A completion that commits was of a payable top-up, or of one that had
been completed, which it leaves. -/
theorem completeWalletTopup_records {draw : WebhookDraw} {r : WalletTopup}
    (h : Commits (completeWalletTopup draw.cfg draw.now (w.topupInput draw))
      db r db') :
    db' = db ∨ Records db db' w .topup := by
  cases completeWalletTopup_toppedUp h with
  | repeated found notPending => exact Or.inl rfl
  | @credited _ t found pending topups _ _ frame =>
      right
      have hterminal := completeWalletTopup_terminal_iff draw.cfg draw.now found
      constructor
      · refine ⟨t, found, pending, ?_⟩
        by_contra hroom
        obtain ⟨e, haborts, -⟩ := hterminal.mpr ⟨pending, hroom⟩
        exact h.not_aborts haborts
      · refine ⟨t.completed w.provider.text w.reference draw.now, ?_, ?_⟩
        · have hid : t.id = w.subject := Table.key_of_find? found
          have hfind : db.walletTopups.find? t.id = some t := by
            rw [hid]
            exact found
          rw [topups, ← hid]
          exact Table.find?_set_self hfind
        · show TopupStatus.completed ≠ .pending
          nofun
      · intro id
        rw [frame.orders]
      · intro id
        rw [topups, Table.has_set]

/-- An operation changes nothing, or it records the payment of a payable
row. -/
theorem persist_step (s : WebhookSystem) (d : Nat) (draw : WebhookDraw)
    (fault : Option Fault) :
    (s.step (.persist d draw fault)).db = s.db
      ∨ ∃ w subject, (s.phase d).operation = some (w, subject)
        ∧ Records s.db (s.step (.persist d draw fault)).db w subject := by
  show (s.persist d draw fault).db = s.db
    ∨ ∃ w subject, (s.phase d).operation = some (w, subject)
      ∧ Records s.db (s.persist d draw fault).db w subject
  unfold WebhookSystem.persist
  cases hphase : s.phase d with
  | lockEscrow w buyerId =>
      dsimp only
      rcases persist_db (lockEscrow draw.cfg draw.now
        (w.lockEscrowInput buyerId draw)) fault s.db with hdb | hdb
      · rw [hdb]
        unfold attempt
        split
        · next r db' hrun =>
          exact Or.inr ⟨w, .order, rfl, lockEscrow_records hrun⟩
        · exact Or.inl rfl
      · exact Or.inl hdb
  | completeTopup w =>
      dsimp only
      rcases persist_db (completeWalletTopup draw.cfg draw.now
        (w.topupInput draw)) fault s.db with hdb | hdb
      · rw [hdb]
        unfold attempt
        split
        · next r db' hrun =>
          rcases completeWalletTopup_records hrun with hsame | hpaid
          · exact Or.inl hsame
          · exact Or.inr ⟨w, .topup, rfl, hpaid⟩
        · exact Or.inl rfl
      · exact Or.inl hdb
  | _ => exact Or.inl rfl

end Rows

-- ================================================================== laws

/-- The delivery that a phase is of. -/
def DeliveryPhase.webhook : DeliveryPhase → Option ConfirmedWebhook
  | .idle => none
  | .selectOrder w | .selectTopup w | .lockEscrow w _ | .completeTopup w
  | .answered w _ _ => some w

/-- An event of a callback handler. -/
def CallbackEvent.OfHandler : CallbackEvent → Prop
  | .liqpayCallback _ _ | .monobankCallback _ _ _ | .wayforpayCallback _ _ _
  | .select _ | .persist _ _ _ => True
  | _ => False

namespace CallbackSystem

variable (cfg : CallbackConfig) (made : ProviderStatement → Prop)

/-- If a step of a handler changes the database, a provider has made a
final statement that names a pending order or top-up and confirms its
amount and currency, and that is no longer pending. -/
def CapturesPaid (s : CallbackSystem) (e : CallbackEvent) : Prop :=
  e.OfHandler → (step cfg s e).webhooks.db ≠ s.webhooks.db →
    ∃ st subject id amountCents currency, made st ∧ st.Final
      ∧ cfg.uuidOf st.reference = some id
      ∧ s.webhooks.db.due subject id = some (amountCents, currency)
      ∧ st.Confirms amountCents currency
      ∧ (step cfg s e).webhooks.db.due subject id = none

/-- No payment has funded two orders or top-ups, or one of them twice. -/
def FundsOnce (s : CallbackSystem) : Prop :=
  s.funded.Pairwise fun f g => ¬ (f.statement.provider = g.statement.provider
    ∧ f.statement.paymentId = g.statement.paymentId)

/-- The statement that an operation acts on confirms what is due, if the
row is payable. -/
def ConfirmsDue (s : CallbackSystem) : CallbackEvent → Prop
  | .persist d _ _ => ∀ st w subject amountCents currency,
      s.statement d = some st →
      (s.webhooks.phase d).operation = some (w, subject) →
      Payable s.webhooks.db w.subject subject →
      s.webhooks.db.due subject w.subject = some (amountCents, currency) →
      st.Confirms amountCents currency
  | _ => True

-- ============================================================= invariant

/-- What holds at all times: deliveries act on statements, and so did what
was funded. -/
structure Sound (s : CallbackSystem) : Prop where
  apart : s.webhooks.db.Apart
  acts : ∀ d w, (s.webhooks.phase d).webhook = some w →
    ∃ st, s.statement d = some st ∧ ActsOn cfg made st w
  funded : ∀ f ∈ s.funded, ActsOn cfg made f.statement f.webhook
    ∧ WebhookSystem.PaymentRecorded s.webhooks.db f.webhook f.subject
  once : s.funded.Pairwise fun f g =>
    ¬ (f.subject = g.subject ∧ f.webhook.subject = g.webhook.subject)

variable {cfg made} {s : CallbackSystem}

/-- The operation of a delivery is that of its webhook. -/
theorem webhook_of_operation {p : DeliveryPhase} {w : ConfirmedWebhook}
    {subject : PaidSubject} (h : p.operation = some (w, subject)) :
    p.webhook = some w := by
  cases p with
  | lockEscrow => cases h; rfl
  | completeTopup => cases h; rfl
  | _ => cases h

/-- The queries of a delivery are all of one payment. -/
theorem webhook_setPhase {s : WebhookSystem} {d : Nat} {p : DeliveryPhase}
    (h : p.webhook = (s.phase d).webhook) (d' : Nat) :
    ((s.setPhase d p).phase d').webhook = (s.phase d').webhook := by
  by_cases hd : d' = d
  · rw [hd, WebhookSystem.phase_setPhase_self, h]
  · rw [WebhookSystem.phase_setPhase_of_ne hd]

/-- Looking for the order leaves the webhooks as they are. -/
theorem webhook_select (s : WebhookSystem) (d d' : Nat) :
    ((s.step (.select d)).phase d').webhook = (s.phase d').webhook := by
  show ((s.select d).phase d').webhook = _
  unfold WebhookSystem.select
  split
  · next w hphase =>
    split
    · exact webhook_setPhase (by rw [hphase]; rfl) d'
    · exact webhook_setPhase (by rw [hphase]; rfl) d'
  · next w hphase =>
    split
    · exact webhook_setPhase (by rw [hphase]; rfl) d'
    · exact webhook_setPhase (by rw [hphase]; rfl) d'
  · rfl

/-- So does a transaction. -/
theorem webhook_persist (s : WebhookSystem) (d : Nat) (draw : WebhookDraw)
    (fault : Option Fault) (d' : Nat) :
    ((s.step (.persist d draw fault)).phase d').webhook
      = (s.phase d').webhook := by
  show ((s.persist d draw fault).phase d').webhook = _
  unfold WebhookSystem.persist
  split
  · next w buyerId hphase => exact webhook_setPhase (by rw [hphase]; rfl) d'
  · next w hphase => exact webhook_setPhase (by rw [hphase]; rfl) d'
  · rfl

/-- Looking for the order writes nothing. -/
theorem db_select (s : WebhookSystem) (d : Nat) :
    (s.step (.select d)).db = s.db := by
  show (s.select d).db = s.db
  unfold WebhookSystem.select
  split
  · split <;> rfl
  · split <;> rfl
  · rfl

-- =============================================================== one step

/-- Before any delivery nothing was funded. -/
theorem start_sound {db : Db} (h : db.Apart) : Sound cfg made (start db) where
  apart := h
  acts := nofun
  funded _ hf := absurd hf List.not_mem_nil
  once := List.Pairwise.nil

/-- The same deliveries over a database that has gone on. -/
theorem Sound.of_db (hs : Sound cfg made s) {webhooks : WebhookSystem}
    (hapart : webhooks.db.Apart)
    (hwebhook : ∀ d, (webhooks.phase d).webhook
      = (s.webhooks.phase d).webhook)
    (hrecorded : ∀ w subject,
      WebhookSystem.PaymentRecorded s.webhooks.db w subject →
      WebhookSystem.PaymentRecorded webhooks.db w subject) :
    Sound cfg made { s with webhooks := webhooks } where
  apart := hapart
  acts d w h := hs.acts d w ((hwebhook d).symm.trans h)
  funded f hf := ⟨(hs.funded f hf).1, hrecorded _ _ (hs.funded f hf).2⟩
  once := hs.once

/-- A handler that confirms acts on a statement. -/
theorem Sound.receive (hs : Sound cfg made s) (d : Nat)
    {outcome : CallbackOutcome}
    (h : ∀ w st, outcome = .confirmed w st → ActsOn cfg made st w) :
    Sound cfg made (s.receive d outcome) := by
  unfold CallbackSystem.receive
  split
  · next w st hidle =>
    have hdeliver : s.webhooks.step (.deliver d w)
        = s.webhooks.setPhase d (.selectOrder w) := by
      unfold WebhookSystem.step
      dsimp only
      rw [hidle]
    rw [hdeliver]
    constructor
    · exact hs.apart
    · intro d' w' hw'
      show ∃ st', Function.update s.statement d (some st) d' = some st' ∧ _
      by_cases hd : d' = d
      · subst hd
        rw [Function.update_self]
        have hsame : (DeliveryPhase.selectOrder w).webhook = some w' := by
          rw [← hw']
          exact congrArg DeliveryPhase.webhook
            (WebhookSystem.phase_setPhase_self _).symm
        cases hsame
        exact ⟨st, rfl, h w st rfl⟩
      · rw [Function.update_of_ne hd]
        apply hs.acts d' w'
        rw [← hw']
        exact congrArg DeliveryPhase.webhook
          (WebhookSystem.phase_setPhase_of_ne hd _).symm
    · exact hs.funded
    · exact hs.once
  · exact hs

/-- Another request that leaves what is recorded. -/
theorem Sound.change (hs : Sound cfg made s) {db : Db}
    (hrecorded : ∀ w subject,
      WebhookSystem.PaymentRecorded s.webhooks.db w subject →
      WebhookSystem.PaymentRecorded db w subject) :
    Sound cfg made (s.change db) := by
  unfold CallbackSystem.change
  split
  · next hapart => exact hs.of_db hapart (fun _ => rfl) hrecorded
  · exact hs

/-- A new top-up leaves recorded payments recorded. -/
theorem recorded_createWalletTopup {db : Db} {w : ConfirmedWebhook}
    {subject : PaidSubject} (id userId : Uuid) (amountCents : MoneyCents)
    (currency : Currency) (h : WebhookSystem.PaymentRecorded db w subject) :
    WebhookSystem.PaymentRecorded
      (createWalletTopup id userId amountCents currency db) w subject := by
  unfold createWalletTopup
  split
  · cases subject with
    | order => exact h
    | topup =>
        obtain ⟨t, hfind, hstatus⟩ := h
        refine ⟨t, ?_, hstatus⟩
        rw [Table.find?_upsert, hfind]
        split
        · rfl
        · rfl
  · exact h

/-- An operation keeps the invariant: it funds a row that no callback has
funded. -/
theorem Sound.persist (hs : Sound cfg made s) (d : Nat) (draw : WebhookDraw)
    (fault : Option Fault) : Sound cfg made (s.persist d draw fault) := by
  unfold CallbackSystem.persist
  dsimp only
  have hwebhook := webhook_persist s.webhooks d draw fault
  have hstep := WebhookSystem.step_db s.webhooks (.persist d draw fault)
  have hcases := persist_step s.webhooks d draw fault
  generalize s.webhooks.step (.persist d draw fault) = webhooks
    at hwebhook hstep hcases ⊢
  have hapart : webhooks.db.Apart := by
    rcases hcases with hdb | ⟨w, subject, -, hrecords⟩
    · rw [hdb]
      exact hs.apart
    · intro t ht hhas
      have htopup : s.webhooks.db.walletTopups.Has t.id :=
        (hrecords.topups t.id).mp (List.mem_map.mpr ⟨t, ht, rfl⟩)
      obtain ⟨t', ht', hid⟩ := List.mem_map.mp htopup
      apply hs.apart t' ht'
      rw [hid]
      exact (hrecords.orders t.id).mp hhas
  have hkept := hs.of_db hapart hwebhook fun w subject h => hstep.recorded h
  refine ⟨hapart, hkept.acts, ?_, ?_⟩
  · intro f hf
    rcases List.mem_append.mp hf with hnew | hold
    · unfold fundings at hnew
      split at hnew
      · next st w subject hst hoperation =>
        split at hnew
        · next hdue =>
          cases List.mem_singleton.mp hnew
          obtain ⟨st', hst', hacts⟩ :=
            hs.acts d w (webhook_of_operation hoperation)
          cases hst.symm.trans hst'
          refine ⟨hacts, ?_⟩
          -- the row is no longer due, so it is the one that was recorded
          rcases hcases with hdb | ⟨w', subject', hoperation', hrecords⟩
          · rw [hdb] at hdue
            rw [hdue.2] at hdue
            exact absurd hdue.1 nofun
          · cases hoperation.symm.trans hoperation'
            exact hrecords.recorded
        · exact absurd hnew List.not_mem_nil
      · exact absurd hnew List.not_mem_nil
    · exact hkept.funded f hold
  · refine List.pairwise_append.mpr ⟨?_, hs.once, ?_⟩
    · unfold fundings
      split
      · split
        · exact List.pairwise_singleton _ _
        · exact List.Pairwise.nil
      · exact List.Pairwise.nil
    · intro f hnew g hg hsame
      unfold fundings at hnew
      split at hnew
      · next st w subject hst hoperation =>
        split at hnew
        · next hdue =>
          cases List.mem_singleton.mp hnew
          have hpaid := due_eq_none (hs.funded g hg).2
          rw [← hsame.1, ← hsame.2] at hpaid
          have hdue' := hdue.1
          rw [hpaid] at hdue'
          exact absurd hdue' nofun
        · exact absurd hnew List.not_mem_nil
      · exact absurd hnew List.not_mem_nil

/-- Every event keeps all of it. -/
theorem Sound.step (hs : Sound cfg made s) (e : CallbackEvent)
    (he : e.Authentic cfg made) : Sound cfg made (step cfg s e) := by
  cases e with
  | liqpayCallback d body =>
      exact hs.receive d fun w st h => liqpayCallback_confirmed he h
  | monobankCallback d invoiceId reply =>
      exact hs.receive d fun w st h => monobankCallback_confirmed he h
  | wayforpayCallback d orderReference reply =>
      exact hs.receive d fun w st h => wayforpayCallback_confirmed he h
  | select d =>
      have hdb := db_select s.webhooks d
      refine hs.of_db ?_ (webhook_select s.webhooks d) fun w subject h => ?_
      · rw [hdb]
        exact hs.apart
      · rw [hdb]
        exact h
  | persist d draw fault => exact hs.persist d draw fault
  | createWalletTopup id userId amountCents currency =>
      exact hs.change fun w subject h =>
        recorded_createWalletTopup id userId amountCents currency h
  | call call =>
      exact hs.change fun w subject h =>
        (WebhookSystem.step_db s.webhooks (.call call)).recorded h
  | editProduct product =>
      exact hs.change fun w subject h =>
        (WebhookSystem.step_db s.webhooks (.editProduct product)).recorded h

/-- A step captures what was paid if its statement confirms what is due. -/
theorem Sound.capturesPaid (hs : Sound cfg made s) {e : CallbackEvent}
    (he : s.ConfirmsDue e) : CapturesPaid cfg made s e := by
  intro hhandler hchanged
  have hreceive : ∀ d outcome,
      (s.receive d outcome).webhooks.db = s.webhooks.db := by
    intro d outcome
    unfold CallbackSystem.receive
    split
    · next hidle =>
      show (s.webhooks.step (.deliver d _)).db = _
      unfold WebhookSystem.step
      dsimp only
      rw [hidle]
      rfl
    · rfl
  cases e with
  | liqpayCallback d body => exact absurd (hreceive d _) hchanged
  | monobankCallback d invoiceId reply => exact absurd (hreceive d _) hchanged
  | wayforpayCallback d orderReference reply =>
      exact absurd (hreceive d _) hchanged
  | select d => exact absurd (db_select s.webhooks d) hchanged
  | persist d draw fault =>
      rcases persist_step s.webhooks d draw fault with hsame | hrecords
      · exact absurd hsame hchanged
      obtain ⟨w, subject, hoperation, hrecords⟩ := hrecords
      obtain ⟨amountCents, currency, hdue⟩ := hrecords.payable.due
      obtain ⟨st, hst, hacts⟩ := hs.acts d w (webhook_of_operation hoperation)
      have hconfirms : st.Confirms amountCents currency :=
        he st w subject amountCents currency hst hoperation hrecords.payable
          hdue
      exact ⟨st, subject, w.subject, amountCents, currency, hacts.made,
        hacts.final, hacts.names, hdue, hconfirms,
        due_eq_none hrecords.recorded⟩
  | createWalletTopup => exact absurd hhandler id
  | call => exact absurd hhandler id
  | editProduct => exact absurd hhandler id

/-- One payment names one row, and ids are an order's or a top-up's. -/
theorem Sound.fundsOnce (hs : Sound cfg made s) (hone : OneReference made) :
    s.FundsOnce := by
  have hrow : ∀ f ∈ s.funded, f.subject = .order ∧
      s.webhooks.db.orders.Has f.webhook.subject ∨ f.subject = .topup ∧
      ∃ t ∈ s.webhooks.db.walletTopups.rows, t.id = f.webhook.subject := by
    intro f hf
    have hrecorded := (hs.funded f hf).2
    cases hsubject : f.subject with
    | order =>
        rw [hsubject] at hrecorded
        obtain ⟨o, hfind, -⟩ := hrecorded
        exact Or.inl ⟨rfl, Table.has_iff.mpr ⟨o, hfind⟩⟩
    | topup =>
        rw [hsubject] at hrecorded
        obtain ⟨t, hfind, -⟩ := hrecorded
        exact Or.inr ⟨rfl, t, Table.find?_eq_some.mp hfind⟩
  refine hs.once.imp_of_mem fun {f g} hf hg hdistinct hpayment => ?_
  have hreference := hone _ _ (hs.funded f hf).1.made (hs.funded g hg).1.made
    hpayment.1 hpayment.2
  have hf' := (hs.funded f hf).1.names
  have hg' := (hs.funded g hg).1.names
  rw [hreference] at hf'
  have hid : f.webhook.subject = g.webhook.subject :=
    Option.some.inj (hf'.symm.trans hg')
  rcases hrow f hf with ⟨hforder, hfhas⟩ | ⟨hftopup, t, ht, htid⟩
  · rcases hrow g hg with ⟨hgorder, -⟩ | ⟨-, t, ht, htid⟩
    · exact hdistinct ⟨hforder.trans hgorder.symm, hid⟩
    · apply hs.apart t ht
      rw [htid, ← hid]
      exact hfhas
  · rcases hrow g hg with ⟨-, hghas⟩ | ⟨hgtopup, -⟩
    · apply hs.apart t ht
      rw [htid, hid]
      exact hghas
    · exact hdistinct ⟨hftopup.trans hgtopup.symm, hid⟩

-- ==================================================================== runs

/-- What is captured was paid in every run in which the statements that
meet a payable row confirm what is due; and a payment funds one row once in
every run. -/
theorem callbacks_capture_what_was_paid (cfg : CallbackConfig)
    (made : ProviderStatement → Prop) (hone : OneReference made) (db : Db)
    (hapart : db.Apart) (events : List CallbackEvent)
    (hauthentic : ∀ e ∈ events, e.Authentic cfg made) :
    (Along (step cfg) ConfirmsDue (start db) events →
        Along (step cfg) (CapturesPaid cfg made) (start db) events)
      ∧ ∀ before, before <+: events →
        (run (step cfg) (start db) before).FundsOnce := by
  have hstep : ∀ s e, e.Authentic cfg made → Sound cfg made s →
      Sound cfg made (step cfg s e) := fun s e he hs => hs.step e he
  constructor
  · intro hconfirms
    have hboth := along_and.mpr ⟨along_of_forall hauthentic (start db), hconfirms⟩
    refine along_imp (fun s e hs h => ?_) (fun s e h hs => hstep s e h.1 hs)
      (start_sound hapart) hboth
    exact Sound.capturesPaid hs h.2
  · intro before hbefore
    have halong : Along (step cfg) (fun _ e => e.Authentic cfg made)
        (start db) before :=
      along_of_forall (fun e he => hauthentic e (hbefore.subset he)) (start db)
    exact (run_keeps_along hstep halong (start_sound hapart)).fundsOnce hone

-- ================================================================ examples

/-- A payment of one hryvnia for the order. -/
def oneHryvnia : LiqpayCallbackPayload where
  orderId := (⟨4⟩ : Uuid).text
  status := some "success"
  paymentId := some "77"
  amount := some 1
  currency := some "UAH"

/-- The JSON of `oneHryvnia` in base64. -/
def oneHryvniaData : String :=
  "eyJvcmRlcl9pZCI6IjAwMDAwMDAwLTAwMDAtMDAwMC0wMDAwLTAwMDAwMDAwMDAwNCIs"
    ++ "InN0YXR1cyI6InN1Y2Nlc3MiLCJwYXltZW50X2lkIjo3NywiYW1vdW50IjoxLCJjdXJy"
    ++ "ZW5jeSI6IlVBSCJ9"

/-- The digest and the JSON of this one text. -/
def oneHryvniaConfig : CallbackConfig where
  liqpayPublicKey := some "liqpay_public"
  liqpayPrivateKey := some "liqpay_key"
  sha1Base64 text :=
    if text = "liqpay_key" ++ oneHryvniaData ++ "liqpay_key" then
      "hPmDYmemu22fXpoLc2Q3hcsqlO0="
    else ""
  parseBase64 data := if data = oneHryvniaData then some oneHryvnia else none
  uuidOf text := if text = (⟨4⟩ : Uuid).text then some ⟨4⟩ else none

/-- The provider has stated that, and nothing else. -/
def oneHryvniaMade (st : ProviderStatement) : Prop := st = oneHryvnia.statement

/-- LiqPay confirms 1 hryvnia for the order of 10. -/
def underpaid : List CallbackEvent :=
  [.liqpayCallback 0 (some ⟨oneHryvniaData, "hPmDYmemu22fXpoLc2Q3hcsqlO0="⟩),
    .select 0, .persist 0 ⟨defaultConfig, 1, ⟨11⟩, ⟨12⟩, ⟨13⟩⟩ none]

/-- It is for one reference. -/
theorem oneHryvniaMade_oneReference : OneReference oneHryvniaMade := by
  intro st st' hst hst' _ _
  rw [hst, hst']

/-- No id is one of an order and of a top-up. -/
theorem oneOrderDb_apart : oneOrderDb.Apart :=
  fun _ ht => absurd ht List.not_mem_nil

/-- All that is delivered is authentic. -/
theorem underpaid_authentic : ∀ e ∈ underpaid,
    e.Authentic oneHryvniaConfig oneHryvniaMade := by
  intro e he
  simp only [underpaid, List.mem_cons, List.not_mem_nil, or_false] at he
  obtain rfl | rfl | rfl := he
  · intro _ p hp
    have hparsed : oneHryvniaConfig.parseBase64 oneHryvniaData
        = some oneHryvnia := by
      simp only [oneHryvniaConfig, if_true]
    cases hparsed.symm.trans hp
    rfl
  · trivial
  · trivial

/-- The order is worth more, and the capture takes all of it. -/
theorem callbacks_capture_what_was_paid_underpaid :
    (Along (step oneHryvniaConfig) ConfirmsDue (start oneOrderDb) underpaid →
        Along (step oneHryvniaConfig)
          (CapturesPaid oneHryvniaConfig oneHryvniaMade) (start oneOrderDb)
          underpaid)
      ∧ ∀ before, before <+: underpaid →
        (run (step oneHryvniaConfig) (start oneOrderDb) before).FundsOnce :=
  callbacks_capture_what_was_paid oneHryvniaConfig oneHryvniaMade
    oneHryvniaMade_oneReference oneOrderDb oneOrderDb_apart underpaid
    underpaid_authentic

/-- The captured order is one of 10 hryvnias. -/
theorem underpaid_order_captured : ¬ ∀ (cfg : CallbackConfig)
    (made : ProviderStatement → Prop) (db : Db) (events : List CallbackEvent),
    OneReference made → db.Apart → (∀ e ∈ events, e.Authentic cfg made) →
      Along (step cfg) (CapturesPaid cfg made) (start db) events := by
  intro h
  obtain ⟨-, -, hlast, -⟩ := h oneHryvniaConfig oneHryvniaMade oneOrderDb
    underpaid oneHryvniaMade_oneReference oneOrderDb_apart underpaid_authentic
  have hcaptures : CapturesPaid oneHryvniaConfig oneHryvniaMade
      (run (step oneHryvniaConfig) (start oneOrderDb) (underpaid.take 2))
      (.persist 0 ⟨defaultConfig, 1, ⟨11⟩, ⟨12⟩, ⟨13⟩⟩ none) := hlast
  have hdue : (run (step oneHryvniaConfig) (start oneOrderDb)
      (underpaid.take 2)).webhooks.db.due .order ⟨4⟩
        = some (⟨1000, by decide⟩, "UAH") := by
    decide +kernel
  have hnoTopup : (run (step oneHryvniaConfig) (start oneOrderDb)
      (underpaid.take 2)).webhooks.db.due .topup ⟨4⟩ = none := by
    decide +kernel
  have hpaid : (run (step oneHryvniaConfig) (start oneOrderDb)
      underpaid).webhooks.db.due .order ⟨4⟩ = none := by
    decide +kernel
  have hchanged : (run (step oneHryvniaConfig) (start oneOrderDb)
      underpaid).webhooks.db ≠ (run (step oneHryvniaConfig) (start oneOrderDb)
        (underpaid.take 2)).webhooks.db := by
    intro hsame
    rw [hsame, hdue] at hpaid
    cases hpaid
  obtain ⟨st, subject, id, amountCents, currency, hmade, -, hid, hrow,
    hconfirms, -⟩ := hcaptures trivial hchanged
  cases hmade
  have hfour : oneHryvniaConfig.uuidOf (⟨4⟩ : Uuid).text = some ⟨4⟩ := by
    simp only [oneHryvniaConfig, if_true]
  cases hfour.symm.trans hid
  have hamount : amountCents.val = 1000 := by
    cases subject with
    | order =>
        cases hdue.symm.trans hrow
        rfl
    | topup => cases hnoTopup.symm.trans hrow
  have hstated : some (100 * 1 : Rat) = some (amountCents.val : Rat) :=
    hconfirms.1
  rw [hamount] at hstated
  exact absurd hstated (by norm_num)

end CallbackSystem

end Skrynia
