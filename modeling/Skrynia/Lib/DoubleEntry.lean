/-
Double-entry books, over any accounts.

A line moves an amount on one side of one account; an entry is a list of
lines; a journal is a list of entries. The net of an account is what its
credits exceed its debits by.

# Mirrored balances

A system that also keeps running balances (one number per account,
written by other code than the journal) agrees with its books when every
watched balance is the net of its account. `Mirrors` states that, and
`Mirrors.post` is its only step rule: post an entry and move the balances
by the entry's net. Nothing else about either side matters.
-/
import Mathlib.Algebra.Ring.Int.Defs
import Mathlib.Algebra.BigOperators.Group.List.Basic
import Mathlib.Tactic.Common

namespace DoubleEntry

universe u

variable {α : Type u}

/-- One side of one account moves by a positive amount. -/
structure Line (α : Type u) where
  account : α
  debit : Int
  credit : Int
  oneSided : (0 < debit ∧ credit = 0) ∨ (0 < credit ∧ debit = 0)

/-- All that the lines debit. -/
def totalDebit (lines : List (Line α)) : Int := (lines.map Line.debit).sum

/-- All that they credit. -/
def totalCredit (lines : List (Line α)) : Int := (lines.map Line.credit).sum

/-- Equal positive totals on both sides. -/
def Balanced (lines : List (Line α)) : Prop :=
  totalDebit lines = totalCredit lines ∧ 0 < totalDebit lines

instance (lines : List (Line α)) : Decidable (Balanced lines) :=
  inferInstanceAs (Decidable (_ ∧ _))

variable [DecidableEq α]

/-- Credits minus debits of one account in one entry. -/
def net (lines : List (Line α)) (a : α) : Int :=
  (lines.map fun l => if l.account = a then l.credit - l.debit else 0).sum

/-- Credits minus debits of one account over a journal. -/
def journalNet (journal : List (List (Line α))) (a : α) : Int :=
  (journal.map fun lines => net lines a).sum

/-- No lines, no net. -/
@[simp] theorem net_nil (a : α) : net ([] : List (Line α)) a = 0 := rfl

/-- A line counts for its own account. -/
@[simp] theorem net_cons (l : Line α) (lines : List (Line α)) (a : α) :
    net (l :: lines) a
      = (if l.account = a then l.credit - l.debit else 0) + net lines a := by
  simp [net]

/-- Two journals add up. -/
@[simp] theorem journalNet_append (j₁ j₂ : List (List (Line α))) (a : α) :
    journalNet (j₁ ++ j₂) a = journalNet j₁ a + journalNet j₂ a := by
  simp [journalNet]

/-- One entry counts as its lines. -/
@[simp] theorem journalNet_singleton (lines : List (Line α)) (a : α) :
    journalNet [lines] a = net lines a := by
  simp [journalNet]

-- ===================================================== mirrored balances

/-- Every watched balance is the net of its account. -/
def Mirrors {β : Type*} (code : β → α) (balance : β → Int)
    (journal : List (List (Line α))) : Prop :=
  ∀ b, balance b = journalNet journal (code b)

/-- Where all balances are zero an empty journal agrees. -/
theorem Mirrors.empty {β : Type*} {code : β → α} {balance : β → Int}
    (h : ∀ b, balance b = 0) :
    Mirrors code balance ([] : List (List (Line α))) :=
  h

/-- Balances that move by an entry's net stay mirrored when the entry is
posted. -/
theorem Mirrors.post {β : Type*} {code : β → α} {balance balance' : β → Int}
    {journal : List (List (Line α))} {lines : List (Line α)}
    (h : Mirrors code balance journal)
    (hmove : ∀ b, balance' b = balance b + net lines (code b)) :
    Mirrors code balance' (journal ++ [lines]) := by
  intro b
  rw [hmove b, h b, journalNet_append, journalNet_singleton]

end DoubleEntry
