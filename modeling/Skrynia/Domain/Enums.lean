/-
The lifecycle vocabularies of the marketplace.

Each type lists one CHECK-constrained column's values. `text` is the
stored spelling where some message or key prints it.
-/
import Mathlib.Tactic.Common

namespace Skrynia

/-- `orders.status`. -/
inductive OrderStatus where
  | pending
  | paid
  | inProgress
  | delivered
  | disputed
  | completed
  | refunded
  | canceled
deriving DecidableEq

namespace OrderStatus

/-- The stored spelling. -/
def text : OrderStatus → String
  | pending => "pending"
  | paid => "paid"
  | inProgress => "in_progress"
  | delivered => "delivered"
  | disputed => "disputed"
  | completed => "completed"
  | refunded => "refunded"
  | canceled => "canceled"

end OrderStatus

/-- `products.status`. -/
inductive ProductStatus where
  | active
  | paused
  | blocked
  | deleted
deriving DecidableEq

/-- `products.delivery_type`. -/
inductive DeliveryType where
  | manual
  | instant
deriving DecidableEq

/-- `disputes.status`. -/
inductive DisputeStatus where
  | «open»
  | resolving
  | resolved
  | resolutionFailed
deriving DecidableEq

/-- `disputes.resolution_decision`. -/
inductive DisputeDecision where
  | refund
  | release
deriving DecidableEq

/-- The stored spelling. -/
def DisputeDecision.text : DisputeDecision → String
  | refund => "refund"
  | release => "release"

/-- `users.role`. -/
inductive Role where
  | user
  | moderator
  | admin
deriving DecidableEq

/-- Currencies are free text in every table. -/
abbrev Currency := String

end Skrynia
