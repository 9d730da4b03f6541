/-
The webhook handlers before the database: what a callback must carry to
count as a confirmed payment.

LiqPay signs its callback with the merchant's key. Monobank and WayForPay
only say which payment to look at, and the handler asks the provider. In
all three cases the handler ends up with one statement of the provider,
looks at its status and its reference, and goes on to the deliveries of
`WebhookSystem`.

# Parameters

`CallbackConfig` holds what is not in the repository: the digest under the
signature, base64 with `JSON.parse`, and PostgreSQL's reading of a uuid.
A statement has the amount and the currency that the provider confirms;
the handlers do not read them.
-/
import Skrynia.Payments.Recorded
import Mathlib.Data.Rat.Defs

namespace Skrynia

open Relational Stepping

-- ============================================================ statements

/-- What the handler reads of a LiqPay callback. -/
structure LiqpayCallbackPayload where
  orderId : String
  status : Option String
  /-- `String(payment_id)`. -/
  paymentId : Option String
  amount : Option Rat
  currency : Option String

/-- What Monobank answers. -/
structure MonobankInvoiceStatus where
  invoiceId : String
  status : String
  /-- In the smallest unit of the currency. -/
  amount : Int
  ccy : Nat
  reference : Option String

/-- The reply of the provider, which has more than the type says. -/
structure WayforpayStatus where
  orderReference : String
  transactionStatus : Option String
  amount : Option Rat
  currency : Option String

/-- What a provider says of one payment. -/
structure ProviderStatement where
  provider : ConfirmedWebhookProvider
  paymentId : String
  status : Option String
  reference : String
  amountCents : Option Rat
  currency : Option Currency
deriving DecidableEq

/-- `CURRENCY_NUMERIC_CODES`. -/
def currencyNumericCodes : List (Currency × Nat) :=
  [("UAH", 980), ("USD", 840), ("EUR", 978)]

/-- The callback, as a statement of the provider. -/
def LiqpayCallbackPayload.statement (p : LiqpayCallbackPayload) :
    ProviderStatement where
  provider := .liqpay
  paymentId := p.paymentId.getD p.orderId
  status := p.status
  reference := p.orderId
  amountCents := p.amount.map (100 * ·)
  currency := p.currency

/-- The answer, as a statement. -/
def MonobankInvoiceStatus.statement (i : MonobankInvoiceStatus) :
    ProviderStatement where
  provider := .monobank
  paymentId := i.invoiceId
  status := some i.status
  reference := i.reference.getD ""
  amountCents := some i.amount
  currency :=
    (currencyNumericCodes.find? fun entry => entry.2 = i.ccy).map Prod.fst

/-- The answer of WayForPay, as a statement. -/
def WayforpayStatus.statement (r : WayforpayStatus) : ProviderStatement where
  provider := .wayforpay
  paymentId := r.orderReference
  status := r.transactionStatus
  reference := r.orderReference
  amountCents := r.amount.map (100 * ·)
  currency := r.currency

/-- `SUCCESS_STATUSES` of LiqPay. -/
def liqpaySuccessStatuses : List String := ["success", "sandbox"]

/-- `isLiqpaySuccessStatus`. -/
def isLiqpaySuccessStatus (status : Option String) : Bool :=
  status.any (· ∈ liqpaySuccessStatuses)

/-- `isMonobankSuccessStatus`. -/
def isMonobankSuccessStatus (status : String) : Bool := status = "success"

/-- `isWayforpaySuccessStatus`. -/
def isWayforpaySuccessStatus (status : Option String) : Bool :=
  status = some "Approved"

namespace ProviderStatement

variable (st : ProviderStatement)

/-- The status is one of final success. -/
def Final : Prop :=
  match st.provider with
  | .liqpay => isLiqpaySuccessStatus st.status
  | .monobank => st.status.any isMonobankSuccessStatus
  | .wayforpay => isWayforpaySuccessStatus st.status

/-- The payment that is stated has this amount and currency. -/
def Confirms (amountCents : MoneyCents) (currency : Currency) : Prop :=
  st.amountCents = some (amountCents.val : Rat) ∧ st.currency = some currency

end ProviderStatement

-- ============================================================== handlers

/-- The keys, and what is not in the repository. -/
structure CallbackConfig where
  liqpayPublicKey : Option String
  liqpayPrivateKey : Option String
  /-- `createHash("sha1").update(…).digest("base64")`. -/
  sha1Base64 : String → String
  /-- `JSON.parse` of the decoded text, unless that throws. -/
  parseBase64 : String → Option LiqpayCallbackPayload
  /-- The uuid that PostgreSQL reads in a text. -/
  uuidOf : String → Option Uuid

/-- How a handler ends before it runs a query, or that it goes on. -/
inductive CallbackOutcome where
  | sent (status : Nat) (body : String)
  /-- `res.json(buildWayforpayAck(…))`. -/
  | acknowledged (orderReference : String)
  | thrown (e : Failure)
  | confirmed (w : ConfirmedWebhook) (st : ProviderStatement)

/-- The body of a LiqPay callback. -/
structure LiqpayBody where
  data : String
  signature : String

variable (cfg : CallbackConfig)

/-- `requireConfig` of LiqPay: the private key. -/
def CallbackConfig.requireLiqpay : Except Failure String :=
  match cfg.liqpayPublicKey, cfg.liqpayPrivateKey with
  | some _, some privateKey => .ok privateKey
  | _, _ => .error (badRequest "LiqPay is not configured on this server")

/-- `sign`: the data between two copies of the key. -/
def CallbackConfig.sign (privateKey data : String) : String :=
  cfg.sha1Base64 (privateKey ++ data ++ privateKey)

/-- `verifyLiqpaySignature`. -/
def verifyLiqpaySignature (data signature : String) : Except Failure Bool := do
  let privateKey ← cfg.requireLiqpay
  return cfg.sign privateKey data = signature

/-- The first query of a handler, by the id that it is given. -/
def CallbackConfig.lookUp (reference : String) (w : Uuid → ConfirmedWebhook)
    (st : ProviderStatement) : CallbackOutcome :=
  match cfg.uuidOf reference with
  | none =>
      .thrown (.error ("invalid input syntax for type uuid: \"" ++ reference
        ++ "\""))
  | some id => .confirmed (w id) st

/-- `POST /liqpay/callback`; a body that does not parse is `none`. -/
def liqpayCallback (body : Option LiqpayBody) : CallbackOutcome :=
  match body with
  | none => .sent 400 "Malformed callback"
  | some body =>
      match verifyLiqpaySignature cfg body.data body.signature with
      | .error e => .thrown e
      | .ok false => .sent 400 "Invalid signature"
      | .ok true =>
          match cfg.parseBase64 body.data with
          | none => .thrown (.error "Unexpected token")
          | some callback =>
              if isLiqpaySuccessStatus callback.status then
                cfg.lookUp callback.orderId
                  (fun id => .liqpay id
                    (some (callback.paymentId.getD callback.orderId)))
                  callback.statement
              else .sent 200 "ok"

/-- `POST /monobank/callback`, with what `getMonobankInvoiceStatus`
answers. -/
def monobankCallback (invoiceId : Option String)
    (reply : Except Failure MonobankInvoiceStatus) : CallbackOutcome :=
  match invoiceId with
  | none => .sent 400 "Malformed callback"
  | some _ =>
      match reply with
      | .error e => .thrown e
      | .ok invoice =>
          if isMonobankSuccessStatus invoice.status = false
              ∨ invoice.reference.getD "" = "" then .sent 200 "ok"
          else
            cfg.lookUp (invoice.reference.getD "")
              (fun id => .monobank id invoice.invoiceId) invoice.statement

/-- `POST /wayforpay/callback`, with what `getWayforpayStatus` answers; the
lookups are of the reference in the body. -/
def wayforpayCallback (orderReference : Option String)
    (reply : Except Failure WayforpayStatus) : CallbackOutcome :=
  match orderReference with
  | none => .sent 400 "Malformed callback"
  | some orderReference =>
      match reply with
      | .error e => .thrown e
      | .ok status =>
          if isWayforpaySuccessStatus status.transactionStatus then
            cfg.lookUp orderReference .wayforpay status.statement
          else .acknowledged orderReference

-- ================================================================ system

/-- An order or a top-up that a callback has moved from `pending`. -/
structure Funding where
  statement : ProviderStatement
  webhook : ConfirmedWebhook
  subject : PaidSubject
deriving DecidableEq

/-- The amount and the currency of a pending order or top-up. -/
def Db.due (db : Db) (subject : PaidSubject) (id : Uuid) :
    Option (MoneyCents × Currency) :=
  match subject with
  | .order =>
      ((db.orders.find? id).filter (·.status = .pending)).map
        fun o => (o.amountCents, o.currency)
  | .topup =>
      ((db.walletTopups.find? id).filter (·.status = .pending)).map
        fun t => (t.amountCents, t.currency)

/-- No id is an order's and a top-up's. -/
def Db.Apart (db : Db) : Prop :=
  ∀ t ∈ db.walletTopups.rows, ¬ db.orders.Has t.id

instance (db : Db) : Decidable db.Apart :=
  inferInstanceAs (Decidable (∀ t ∈ db.walletTopups.rows, _))

/-- `createWalletTopup`, with the id that is drawn; the amount is checked
by a constraint. -/
def createWalletTopup (id userId : Uuid) (amountCents : MoneyCents)
    (currency : Currency) (db : Db) : Db :=
  if h : 0 < amountCents.val then
    { db with
      walletTopups := db.walletTopups.upsert
        ⟨id, userId, amountCents, currency, .pending, none, none, none, h⟩ }
  else db

/-- The order or top-up that a delivery operates on next. -/
def DeliveryPhase.operation :
    DeliveryPhase → Option (ConfirmedWebhook × PaidSubject)
  | .lockEscrow w _ => some (w, .order)
  | .completeTopup w => some (w, .topup)
  | _ => none

/-- The deliveries, each with its statement, and what was funded. -/
structure CallbackSystem where
  webhooks : WebhookSystem
  /-- The statement that a delivery acts on. -/
  statement : Nat → Option ProviderStatement
  /-- What callbacks have funded, the latest first. -/
  funded : List Funding

/-- What may happen next. -/
inductive CallbackEvent where
  | liqpayCallback (d : Nat) (body : Option LiqpayBody)
  | monobankCallback (d : Nat) (invoiceId : Option String)
      (reply : Except Failure MonobankInvoiceStatus)
  | wayforpayCallback (d : Nat) (orderReference : Option String)
      (reply : Except Failure WayforpayStatus)
  | select (d : Nat)
  | persist (d : Nat) (draw : WebhookDraw) (fault : Option Fault)
  | createWalletTopup (id userId : Uuid) (amountCents : MoneyCents)
      (currency : Currency)
  | call (call : Call)
  | editProduct (product : Product)

namespace CallbackSystem

variable (s : CallbackSystem)

/-- Before any callback. -/
def start (db : Db) : CallbackSystem := ⟨.start db, fun _ => none, []⟩

/-- A callback comes in. -/
def receive (d : Nat) (outcome : CallbackOutcome) : CallbackSystem :=
  match s.webhooks.phase d, outcome with
  | .idle, .confirmed w st =>
      { s with
        webhooks := s.webhooks.step (.deliver d w)
        statement := Function.update s.statement d (some st) }
  | _, _ => s

/-- What the operation of a delivery has funded, if it leaves `db'`. -/
def fundings (d : Nat) (db' : Db) : List Funding :=
  match s.statement d, (s.webhooks.phase d).operation with
  | some st, some (w, subject) =>
      if (s.webhooks.db.due subject w.subject).isSome
          ∧ db'.due subject w.subject = none then [⟨st, w, subject⟩]
      else []
  | _, _ => []

/-- A delivery runs its operation; what commits is funded. -/
def persist (d : Nat) (draw : WebhookDraw) (fault : Option Fault) :
    CallbackSystem :=
  let webhooks := s.webhooks.step (.persist d draw fault)
  { s with
    webhooks := webhooks
    funded := s.fundings d webhooks.db ++ s.funded }

/-- Other requests; a random id that is drawn for a row is new. -/
def change (db : Db) : CallbackSystem :=
  if db.Apart then { s with webhooks := { s.webhooks with db := db } } else s

/-- One event. -/
def step : CallbackSystem → CallbackEvent → CallbackSystem
  | s, .liqpayCallback d body => s.receive d (liqpayCallback cfg body)
  | s, .monobankCallback d invoiceId reply =>
      s.receive d (monobankCallback cfg invoiceId reply)
  | s, .wayforpayCallback d orderReference reply =>
      s.receive d (wayforpayCallback cfg orderReference reply)
  | s, .select d => { s with webhooks := s.webhooks.step (.select d) }
  | s, .persist d draw fault => s.persist d draw fault
  | s, .createWalletTopup id userId amountCents currency =>
      s.change (createWalletTopup id userId amountCents currency s.webhooks.db)
  | s, .call call => s.change (s.webhooks.step (.call call)).db
  | s, .editProduct product =>
      s.change (s.webhooks.step (.editProduct product)).db

end CallbackSystem

end Skrynia
