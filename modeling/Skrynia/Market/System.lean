/-
The money core as one system.

Its state is the database, an event is one call of one of the functions
that write it, and a step is one attempt: the call commits whole or
leaves no trace. Serializable transactions run as in some serial order,
so the schedules of `run` are all the interleavings there are.

What a call draws or is told from outside (the clock, the configuration
of the process, generated ids, a provider's answer) is part of the
event.

# One inversion

`Call.moved` lists what a step can have done. Each invariant of the system
is one case analysis over it.
-/
import Skrynia.Lib.Runs
import Skrynia.Orders.Routes
import Skrynia.Users.Payout

namespace Skrynia

open Relational Stepping

/-- A call. -/
inductive Op where
  | createOrder (input : CreateOrderInput)
  | lockEscrow (input : LockEscrowInput)
  | releaseEscrow (input : ReleaseEscrowInput)
  | refundEscrow (input : RefundEscrowInput)
  | startOrder (input : OrderRouteInput)
  | deliverOrder (input : OrderRouteInput) (deliveryNote : String)
  | openDispute (input : OpenDisputeInput)
  | simulateTestPaymentFailure (orderId buyerId : Uuid)
  | completeWalletTopup (input : CompleteTopupInput)
  | requestWithdrawal (input : RequestWithdrawalInput)
  | postManualAdjustment (input : ManualAdjustmentInput)
  | rejectPayout (input : RejectPayoutInput)
  | updatePayoutPaid (payoutId : Uuid) (reference : String) (adminId : Uuid)
  | updateUser (userId : Uuid) (role : Option Role) (isBanned : Option Bool)

/-- A call, made by some process at some time. -/
structure Call where
  cfg : Config
  now : Timestamp
  op : Op

/-- One attempt of a call. -/
def Call.step (db : Db) (call : Call) : Db :=
  match call.op with
  | .createOrder input => attempt (createOrder input) db
  | .lockEscrow input => attempt (lockEscrow call.cfg call.now input) db
  | .releaseEscrow input => attempt (releaseEscrow call.cfg call.now input) db
  | .refundEscrow input => attempt (refundEscrow call.cfg call.now input) db
  | .startOrder input => attempt (startOrder call.cfg call.now input) db
  | .deliverOrder input deliveryNote =>
      attempt (deliverOrder call.cfg call.now input deliveryNote) db
  | .openDispute input => attempt (openDispute call.cfg call.now input) db
  | .simulateTestPaymentFailure orderId buyerId =>
      attempt (simulateTestPaymentFailure call.cfg call.now orderId buyerId) db
  | .completeWalletTopup input =>
      attempt (completeWalletTopup call.cfg call.now input) db
  | .requestWithdrawal input => attempt (requestWithdrawal call.cfg input) db
  | .postManualAdjustment input =>
      attempt (postManualAdjustment call.cfg input) db
  | .rejectPayout input => attempt (rejectPayout call.cfg call.now input) db
  | .updatePayoutPaid payoutId reference adminId =>
      attempt (updatePayoutPaid payoutId reference adminId call.now) db
  | .updateUser userId role isBanned =>
      attempt (updateUser userId role isBanned) db

/-- What `nanoid()` draws for the call, if it draws. -/
def Call.nanoid (call : Call) : Option String :=
  match call.op with
  | .postManualAdjustment input => some input.adjustmentId
  | _ => none

-- ======================================================= what a step does

/-- What the UPDATE of `completePayout` has done. -/
structure PayoutPaid (db db' : Db) (p p' : Payout) : Prop where
  found : db.payouts.find? p.id = some p
  id_eq : p'.id = p.id
  transaction_eq : p'.transactionId = p.transactionId
  paid : p'.status = .paid
  db_eq : db' = db.putPayout p'

/-- A payout that was marked paid carries its reference. -/
theorem updatePayoutPaid_paid {payoutId adminId : Uuid} {reference : String}
    {now : Timestamp} {db db' : Db} {r : Payout}
    (h : Commits (updatePayoutPaid payoutId reference adminId now) db r db') :
    ∃ p, PayoutPaid db db' p r := by
  simp only [updatePayoutPaid, commits_select_bind, commits_orThrow_bind,
    commits_modify_bind, commits_pure] at h
  obtain ⟨p, hfind, rfl, rfl⟩ := h
  have hid := Table.key_of_find? hfind
  rw [← hid] at hfind
  exact ⟨p, hfind, rfl, rfl, rfl, rfl⟩

/-- What one attempt can have done to the database. -/
inductive Moved (drawn : Option String) (db : Db) : Db → Prop where
  | idle : Moved drawn db db
  | created {db' : Db} {o : OrderRow} (h : OrderCreated db db' o) :
      Moved drawn db db'
  | walked {db' : Db} {o o' : OrderRow} (h : Walked db db' o o')
      (disputes : db'.disputes = db.disputes) : Moved drawn db db'
  | disputed {db' : Db} {input : OpenDisputeInput}
      (h : DisputeOpened input db db') : Moved drawn db db'
  | captured {db' : Db} {cfg : Config} {now : Timestamp}
      {input : LockEscrowInput} {o o' : OrderRow}
      (h : Captured cfg now input db db' o o') : Moved drawn db db'
  | released {db' : Db} {input : ReleaseEscrowInput} {o o' : OrderRow}
      (h : Released input db db' o o') : Moved drawn db db'
  | refunded {db' : Db} {input : RefundEscrowInput} {o o' : OrderRow}
      (h : Refunded input db db' o o') : Moved drawn db db'
  | toppedUp {db' : Db} {now : Timestamp} {input : CompleteTopupInput}
      (h : ToppedUp now input db db') : Moved drawn db db'
  | withdrawn {db' : Db} {input : RequestWithdrawalInput}
      (h : Withdrawn input db db') : Moved drawn db db'
  | adjusted {db' : Db} {input : ManualAdjustmentInput}
      (h : Adjusted input db db') (draws : drawn = some input.adjustmentId) :
      Moved drawn db db'
  | rejected {db' : Db} {now : Timestamp} {input : RejectPayoutInput}
      {p : Payout} (h : PayoutRejected now input db db' p) : Moved drawn db db'
  | paid {db' : Db} {p p' : Payout} (h : PayoutPaid db db' p p') :
      Moved drawn db db'
  | userUpdated {db' : Db} (h : UserUpdated db db') : Moved drawn db db'

/-- An attempt that committed, or nothing. -/
theorem Moved.of_attempt {α : Type} {x : DbTx α} {drawn : Option String}
    {db : Db} (h : ∀ r db', Commits x db r db' → Moved drawn db db') :
    Moved drawn db (attempt x db) := by
  rcases attempt_cases x db with ⟨r, hr⟩ | hidle
  · exact h r _ hr
  · rw [hidle]
    exact .idle

/-- What one attempt can have done to the database. -/
theorem Call.moved (db : Db) (call : Call) :
    Moved call.nanoid db (call.step db) := by
  obtain ⟨cfg, now, op⟩ := call
  cases op with
  | createOrder input =>
      exact .of_attempt fun _ _ h => .created (createOrder_created h)
  | lockEscrow input =>
      refine .of_attempt fun _ _ h => ?_
      obtain ⟨o, ho⟩ := lockEscrow_captured h
      exact .captured ho
  | releaseEscrow input =>
      refine .of_attempt fun _ _ h => ?_
      obtain ⟨o, ho⟩ := releaseEscrow_released h
      exact .released ho
  | refundEscrow input =>
      refine .of_attempt fun _ _ h => ?_
      obtain ⟨o, ho⟩ := refundEscrow_refunded h
      exact .refunded ho
  | startOrder input =>
      refine .of_attempt fun _ _ h => ?_
      obtain ⟨o, ho, hd⟩ := startOrder_walked h
      exact .walked ho hd
  | deliverOrder input note =>
      refine .of_attempt fun _ _ h => ?_
      obtain ⟨o, ho, hd⟩ := deliverOrder_walked h
      exact .walked ho hd
  | openDispute input =>
      exact .of_attempt fun _ _ h => .disputed (openDispute_opened h)
  | simulateTestPaymentFailure orderId buyerId =>
      refine .of_attempt fun _ _ h => ?_
      obtain ⟨o, ho, hd⟩ := simulateTestPaymentFailure_walked h
      exact .walked ho hd
  | completeWalletTopup input =>
      exact .of_attempt fun _ _ h => .toppedUp (completeWalletTopup_toppedUp h)
  | requestWithdrawal input =>
      exact .of_attempt fun _ _ h => .withdrawn (requestWithdrawal_withdrawn h)
  | postManualAdjustment input =>
      exact .of_attempt fun _ _ h =>
        .adjusted (postManualAdjustment_adjusted h) rfl
  | rejectPayout input =>
      refine .of_attempt fun _ _ h => ?_
      obtain ⟨p, hp⟩ := rejectPayout_rejected h
      exact .rejected hp
  | updatePayoutPaid payoutId reference adminId =>
      refine .of_attempt fun _ _ h => ?_
      obtain ⟨p, hp⟩ := updatePayoutPaid_paid h
      exact .paid hp
  | updateUser userId role isBanned =>
      exact .of_attempt fun _ _ h => .userUpdated (updateUser_updated h)

-- ============================================================= one order

/-- A manual product at 10.00. -/
def oneProduct : Product where
  id := ⟨3⟩
  sellerId := ⟨2⟩
  priceCents := ⟨1000, by decide⟩
  currency := "UAH"
  stock := 5
  status := .active
  deliveryType := .manual
  deliveryTemplate := none
  salesCount := 0
  price_pos := by decide

/-- A pending order of it. -/
def oneOrder : OrderRow where
  id := ⟨4⟩
  buyerId := ⟨1⟩
  sellerId := ⟨2⟩
  productId := ⟨3⟩
  quantity := 1
  amountCents := ⟨1000, by decide⟩
  feeCents := .zero
  currency := "UAH"
  status := .pending
  paymentProvider := none
  paymentReference := none
  deliveryNote := none
  autoReleaseAt := none
  paidAt := none
  deliveredAt := none
  completedAt := none
  amount_pos := by decide
  fee_nonneg := by decide

/-- A buyer, a seller and an admin. -/
def oneOrderDb : Db :=
  { Db.empty with
    users := ((Table.empty.upsert ⟨⟨1⟩, .user, false⟩).upsert
      ⟨⟨2⟩, .user, false⟩).upsert ⟨⟨9⟩, .admin, false⟩
    platformWallets := Table.empty.upsert ⟨"UAH", .zero,
      MoneyCents.zero_nonneg⟩
    products := Table.empty.upsert oneProduct
    orders := Table.empty.upsert oneOrder }

/-- The buyer pays, the seller delivers, the buyer opens a dispute. -/
def disputedCalls : List Call :=
  [⟨defaultConfig, 1, .lockEscrow ⟨⟨4⟩, ⟨1⟩, .mock, none,
      some ⟨"mock", "mock_1"⟩, ⟨11⟩, ⟨12⟩, ⟨13⟩⟩⟩,
   ⟨defaultConfig, 2, .deliverOrder ⟨⟨4⟩, ⟨2⟩, ⟨14⟩⟩ "key: 1234"⟩,
   ⟨defaultConfig, 3, .openDispute ⟨⟨4⟩, ⟨1⟩, "not as described", ⟨5⟩, ⟨15⟩⟩⟩]

end Skrynia
