/-
The order status graph and who may walk it.

`orderTransitions` lists the legal edges. A transition also names a
reason, and each reason has a policy: the statuses it may lead to and
the actor roles that may give it. Both tables are data; the function
that enforces them is `transitionOrder`.

# Shape of the graph

Every order starts `pending` and no edge leads back there
(`not_to_pending`); `completed`, `refunded` and `canceled` have no way
out (`terminal_stuck`). Escrow is held exactly in the four statuses
between payment and settlement.
-/
import Skrynia.Domain.Enums
import Skrynia.Domain.Uuid

namespace Skrynia

/-- `ORDER_TRANSITIONS`. -/
def orderTransitions : OrderStatus → List OrderStatus
  | .pending => [.paid, .delivered, .canceled]
  | .paid => [.inProgress, .delivered, .disputed, .refunded]
  | .inProgress => [.delivered, .disputed, .refunded]
  | .delivered => [.completed, .disputed, .refunded]
  | .disputed => [.completed, .refunded]
  | .completed => []
  | .refunded => []
  | .canceled => []

/-- `canTransitionOrder`: the edge is in the table. -/
def canTransitionOrder (status toStatus : OrderStatus) : Prop :=
  toStatus ∈ orderTransitions status

instance (status toStatus : OrderStatus) :
    Decidable (canTransitionOrder status toStatus) :=
  inferInstanceAs (Decidable (_ ∈ _))

namespace OrderStatus

/-- The order's amount sits in the seller's escrow. -/
def Escrowed : OrderStatus → Prop
  | paid | inProgress | delivered | disputed => True
  | pending | completed | refunded | canceled => False

instance : DecidablePred Escrowed := fun s => by
  cases s <;> unfold Escrowed <;> infer_instance

/-- The escrow was paid out, one way or the other. -/
def Settled (s : OrderStatus) : Prop := s = completed ∨ s = refunded

instance : DecidablePred Settled := fun _ =>
  inferInstanceAs (Decidable (_ ∨ _))

end OrderStatus

/-- No edge leads back to `pending`. -/
theorem not_to_pending {s : OrderStatus} :
    ¬ canTransitionOrder s .pending := by
  cases s <;> decide

/-- No edge leads from a status to itself. -/
theorem not_self_transition {s : OrderStatus} : ¬ canTransitionOrder s s := by
  cases s <;> decide

/-- A settled order has no edge left. -/
theorem terminal_stuck {s t : OrderStatus} (hs : s.Settled) :
    ¬ canTransitionOrder s t := by
  rcases hs with rfl | rfl <;> cases t <;> decide

/-- Only an order in escrow is settled. -/
theorem escrowed_of_settling {s t : OrderStatus}
    (h : canTransitionOrder s t) (ht : t.Settled) : s.Escrowed := by
  revert h ht
  cases s <;> cases t <;> decide

-- ====================================================== actors, reasons

/-- The roles of people in a transition. -/
inductive UserRole where
  | buyer
  | seller
  | participant
  | admin
deriving DecidableEq

/-- The roles of the platform's own jobs. -/
inductive ServiceRole where
  | paymentProvider
  | autoRelease
  | testPayment
  | system
deriving DecidableEq

/-- The id text of an actor: a user's uuid, or a service's name, which
is not a uuid. -/
inductive ActorId where
  | user (id : Uuid)
  | named (name : String)
deriving DecidableEq

/-- `OrderTransitionActor`. -/
inductive Actor where
  | user (id : ActorId) (role : UserRole)
  | service (id : ActorId) (role : ServiceRole)
deriving DecidableEq

/-- Who acts: a person or a job, in one of its roles. -/
inductive ActorRole where
  | user (role : UserRole)
  | service (role : ServiceRole)
deriving DecidableEq

namespace Actor

/-- The actor's id. -/
def id : Actor → ActorId
  | user id _ => id
  | service id _ => id

/-- The actor's role. -/
def role : Actor → ActorRole
  | user _ role => .user role
  | service _ role => .service role

end Actor

/-- `OrderTransitionReason`. -/
inductive TransitionReason where
  | paymentCaptured
  | testPaymentFailed
  | sellerStarted
  | sellerDelivered
  | buyerConfirmed
  | autoReleased
  | disputeOpened
  | disputeReleased
  | disputeRefunded
  | serviceReleased
  | serviceRefunded
deriving DecidableEq

/-- Where a reason may lead, and who may give it. -/
structure ReasonPolicy where
  toStatus : List OrderStatus
  roles : List ActorRole

/-- `REASON_POLICIES`. -/
def reasonPolicies : TransitionReason → ReasonPolicy
  | .paymentCaptured =>
      { toStatus := [.paid, .delivered]
        roles := [.user .buyer, .user .admin, .service .paymentProvider,
          .service .testPayment] }
  | .testPaymentFailed =>
      { toStatus := [.canceled], roles := [.service .testPayment] }
  | .sellerStarted => { toStatus := [.inProgress], roles := [.user .seller] }
  | .sellerDelivered => { toStatus := [.delivered], roles := [.user .seller] }
  | .buyerConfirmed => { toStatus := [.completed], roles := [.user .buyer] }
  | .autoReleased =>
      { toStatus := [.completed], roles := [.service .autoRelease] }
  | .disputeOpened => { toStatus := [.disputed], roles := [.user .participant] }
  | .disputeReleased => { toStatus := [.completed], roles := [.user .admin] }
  | .disputeRefunded => { toStatus := [.refunded], roles := [.user .admin] }
  | .serviceReleased => { toStatus := [.completed], roles := [.service .system] }
  | .serviceRefunded => { toStatus := [.refunded], roles := [.service .system] }

/-- The reason's policy allows the role to take an order there. -/
def Permits (reason : TransitionReason) (role : ActorRole)
    (toStatus : OrderStatus) : Prop :=
  toStatus ∈ (reasonPolicies reason).toStatus ∧ role ∈ (reasonPolicies reason).roles

instance (reason : TransitionReason) (role : ActorRole)
    (toStatus : OrderStatus) : Decidable (Permits reason role toStatus) :=
  inferInstanceAs (Decidable (_ ∧ _))

end Skrynia
