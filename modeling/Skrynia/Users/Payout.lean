/-
Completing and rejecting payouts, interleaved.

`completePayout` is three steps on the pool: a SELECT, a call of the
payout provider, an UPDATE. The SELECT says `for update`, but outside a
transaction the lock is gone when it returns; the UPDATE does not look
at the status again. `rejectPayout` is one serializable transaction. A
schedule interleaves any number of calls of both, and a caller that
stops between two steps is one that is not scheduled again.

# What holds

The two are exclusive as long as no call acts on a stale row: whenever a
call asks the provider or writes `paid`, the row is still pending, and
no second call holds a payment that it has not written yet
(`Undisturbed`). Nothing in the code sees to that.
-/
import Mathlib.Logic.Function.Basic
import Skrynia.Lib.Runs
import Skrynia.Users.Wallet

namespace Skrynia

open Relational Stepping

-- ============================================================= the steps

/-- What `completePayout` is called with. -/
structure CompletePayoutInput where
  payoutId : Uuid
  adminId : Uuid
  adminReference : String

/-- `provider.payout`: the reference under which the money was sent. -/
def PayoutProviderName.payout (provider : PayoutProviderName)
    (adminReference : String) : Except Failure String :=
  match provider with
  | .manual =>
      if adminReference = "" then .error (.error
        "Manual payout requires an admin-supplied bank transaction reference")
      else .ok adminReference
  | .liqpay =>
      .error (.error "LiqPay payout integration is not implemented yet")

/-- The first statement of `completePayout`, with its checks. -/
def selectPendingPayout (payoutId : Uuid) : DbTx Payout := do
  let payout ← select fun db => db.payouts.find? payoutId
  let payout ← orThrow payout (notFound "Payout not found")
  require (payout.status = .pending)
    (badRequest "Only pending payouts can be completed")
  return payout

/-- The row after `update payouts set status = 'paid', …`. -/
def Payout.paid (payout : Payout) (reference : String) (adminId : Uuid)
    (now : Timestamp) : Payout :=
  { payout with
    status := .paid
    reference := some reference
    processedBy := some adminId
    processedAt := some now }

/-- The last statement of `completePayout`: whatever the row says. -/
def updatePayoutPaid (payoutId : Uuid) (reference : String) (adminId : Uuid)
    (now : Timestamp) : DbTx Payout := do
  let payout ← select fun db => db.payouts.find? payoutId
  let payout ← orThrow payout
    (.error "Cannot read properties of undefined")
  modify fun db => db.putPayout (payout.paid reference adminId now)
  return payout.paid reference adminId now

-- ============================================================ the system

/-- Where a `completePayout` call stands. -/
inductive CompleteCall where
  | idle
  | selected (input : CompletePayoutInput) (payout : Payout)
  | accepted (input : CompletePayoutInput) (payout : Payout)
      (reference : String)
  | done (payoutId : Uuid)
  | failed

/-- What the outside sees. -/
inductive PayoutEvent where
  /-- The provider was asked to pay. -/
  | asked (payoutId : Uuid)
  /-- The provider paid. -/
  | accepted (payoutId : Uuid)
  /-- A rejection committed. -/
  | rejected (payoutId : Uuid)
deriving DecidableEq

/-- The database, the calls under way, and what they did. -/
structure PayoutDesk where
  db : Db
  calls : Nat → CompleteCall
  log : List PayoutEvent

/-- What may happen next. -/
inductive PayoutStep where
  | select (call : Nat) (input : CompletePayoutInput)
  | askProvider (call : Nat)
  | update (call : Nat) (now : Timestamp)
  | reject (cfg : Config) (now : Timestamp) (input : RejectPayoutInput)

namespace PayoutDesk

/-- A call goes on. -/
def setCall (s : PayoutDesk) (call : Nat) (c : CompleteCall) : PayoutDesk :=
  { s with calls := Function.update s.calls call c }

/-- It is where it has gone. -/
@[simp] theorem calls_setCall_self (s : PayoutDesk) (call : Nat)
    (c : CompleteCall) : (s.setCall call c).calls call = c :=
  Function.update_self ..

/-- The others stay. -/
theorem calls_setCall_of_ne {s : PayoutDesk} {call other : Nat}
    {c : CompleteCall} (h : other ≠ call) :
    (s.setCall call c).calls other = s.calls other :=
  Function.update_of_ne h ..

/-- Going on does nothing yet. -/
@[simp] theorem log_setCall (s : PayoutDesk) (call : Nat)
    (c : CompleteCall) : (s.setCall call c).log = s.log := rfl

/-- A step of a call that is not there to take it does nothing. -/
def step (s : PayoutDesk) : PayoutStep → PayoutDesk
  | .select call input =>
      match s.calls call with
      | .idle =>
          match (selectPendingPayout input.payoutId).run s.db with
          | .ok (payout, _) => s.setCall call (.selected input payout)
          | .error _ => s.setCall call .failed
      | _ => s
  | .askProvider call =>
      match s.calls call with
      | .selected input payout =>
          match payout.provider.payout input.adminReference with
          | .ok reference =>
              { s.setCall call (.accepted input payout reference) with
                log := s.log ++ [.asked payout.id, .accepted payout.id] }
          | .error _ =>
              { s.setCall call .failed with log := s.log ++ [.asked payout.id] }
      | _ => s
  | .update call now =>
      match s.calls call with
      | .accepted input payout reference =>
          match (updatePayoutPaid payout.id reference input.adminId now).run
              s.db with
          | .ok (_, db) => { s.setCall call (.done payout.id) with db := db }
          | .error _ => s.setCall call .failed
      | _ => s
  | .reject cfg now input =>
      match (rejectPayout cfg now input).run s.db with
      | .ok (_, db) =>
          { s with db := db, log := s.log ++ [.rejected input.payoutId] }
      | .error _ => s

/-- No call is under way. -/
def opening (db : Db) : PayoutDesk := ⟨db, fun _ => .idle, []⟩

/-- The row shows this status. -/
def Shows (s : PayoutDesk) (p : Uuid) (status : PayoutStatus) : Prop :=
  (s.db.payouts.find? p).map Payout.status = some status

instance (s : PayoutDesk) (p : Uuid) (status : PayoutStatus) :
    Decidable (s.Shows p status) :=
  inferInstanceAs (Decidable (_ = _))

end PayoutDesk

/-- After a rejection the provider is not asked to pay. -/
def NotAskedAfterRejection (log : List PayoutEvent) (p : Uuid) : Prop :=
  log.Pairwise fun earlier later =>
    earlier = .rejected p → later ≠ .asked p

/-- A payout that was rejected in the run was not completed in it, its
row showed `paid` at no time, and the provider was not asked for it
afterwards; and the provider paid at most once. -/
structure Exclusive (db : Db) (schedule : List PayoutStep) (p : Uuid) :
    Prop where
  notCompleted : .rejected p ∈ (run PayoutDesk.step (.opening db) schedule).log →
    ∀ call, (run PayoutDesk.step (.opening db) schedule).calls call ≠ .done p
  neverPaid : .rejected p ∈ (run PayoutDesk.step (.opening db) schedule).log →
    ∀ pre, pre <+: schedule →
      ¬ (run PayoutDesk.step (.opening db) pre).Shows p .paid
  notAsked : NotAskedAfterRejection
    (run PayoutDesk.step (.opening db) schedule).log p
  paidOnce :
    (run PayoutDesk.step (.opening db) schedule).log.count (.accepted p) ≤ 1

/-- The call holds a payment of `p` that it has not written yet. -/
def CompleteCall.Holds (c : CompleteCall) (p : Uuid) : Prop :=
  ∃ input payout reference, c = .accepted input payout reference
    ∧ payout.id = p

/-- The call acts on a row that is as its SELECT saw it, and no other
call holds a payment of it. -/
def Undisturbed (s : PayoutDesk) : PayoutStep → Prop
  | .askProvider call => ∀ input payout,
      s.calls call = .selected input payout →
        s.Shows payout.id .pending
          ∧ ∀ other, ¬ (s.calls other).Holds payout.id
  | .update call _ => ∀ input payout reference,
      s.calls call = .accepted input payout reference →
        s.Shows payout.id .pending
  | .select _ _ => True
  | .reject _ _ _ => True

-- ======================================================= what a step does

section Steps

variable {s : PayoutDesk} {p : Uuid}

/-- Overwriting a row changes what it shows, and no other row. -/
theorem PayoutDesk.shows_set {t : PayoutDesk} {old : Payout}
    (row : Payout) (hold : s.db.payouts.find? row.id = some old)
    (ht : t.db.payouts = s.db.payouts.set row) {status : PayoutStatus} :
    t.Shows p status
      ↔ if p = row.id then row.status = status else s.Shows p status := by
  unfold PayoutDesk.Shows
  rw [ht, Table.find?_set]
  by_cases hp : row.id = p
  · subst hp
    simp [hold]
  · rw [if_neg hp, if_neg (Ne.symm hp)]

/-- A row shows one status. -/
theorem PayoutDesk.Shows.unique {a b : PayoutStatus} (ha : s.Shows p a)
    (hb : s.Shows p b) : a = b :=
  Option.some.inj (ha.symm.trans hb)

/-- A call takes up the row as it is. -/
theorem PayoutDesk.step_select (call : Nat) (input : CompletePayoutInput) :
    s.step (.select call input) = s
      ∨ ∃ c, (∀ p, ¬ c.Holds p ∧ c ≠ .done p)
        ∧ s.calls call = .idle
        ∧ s.step (.select call input) = s.setCall call c := by
  simp only [PayoutDesk.step]
  split
  · next hidle =>
    right
    split
    · exact ⟨_, fun p => by simp [CompleteCall.Holds], hidle, rfl⟩
    · exact ⟨_, fun p => by simp [CompleteCall.Holds], hidle, rfl⟩
  · exact .inl rfl

/-- A call asks the provider, which pays or refuses. -/
theorem PayoutDesk.step_askProvider (call : Nat) :
    s.step (.askProvider call) = s
      ∨ ∃ input payout, s.calls call = .selected input payout
        ∧ ((∃ reference, s.step (.askProvider call)
            = { s.setCall call (.accepted input payout reference) with
                log := s.log ++ [.asked payout.id, .accepted payout.id] })
          ∨ s.step (.askProvider call)
            = { s.setCall call .failed with
                log := s.log ++ [.asked payout.id] }) := by
  cases hc : s.calls call with
  | selected input payout =>
      refine .inr ⟨input, payout, rfl, ?_⟩
      simp only [PayoutDesk.step, hc]
      split
      · exact .inl ⟨_, rfl⟩
      · exact .inr rfl
  | _ => exact .inl (by simp [PayoutDesk.step, hc])

/-- A call writes `paid` over whatever the row says. -/
theorem PayoutDesk.step_update (call : Nat) (now : Timestamp) :
    s.step (.update call now) = s
      ∨ ∃ input payout reference,
        s.calls call = .accepted input payout reference
        ∧ (s.step (.update call now) = s.setCall call .failed
            ∧ s.db.payouts.find? payout.id = none
          ∨ ∃ old, s.db.payouts.find? payout.id = some old
            ∧ s.step (.update call now)
              = { s.setCall call (.done payout.id) with
                  db := s.db.putPayout
                    (old.paid reference input.adminId now) }) := by
  cases hc : s.calls call with
  | accepted input payout reference =>
      refine .inr ⟨input, payout, reference, rfl, ?_⟩
      cases hfind : s.db.payouts.find? payout.id with
      | none =>
          left
          refine ⟨?_, rfl⟩
          have habort : Aborts (updatePayoutPaid payout.id reference
              input.adminId now) s.db
              (.error "Cannot read properties of undefined") := by
            simp [updatePayoutPaid, aborts_select_bind, aborts_orThrow_bind,
              hfind]
          unfold Aborts at habort
          simp only [PayoutDesk.step, hc, habort]
      | some old =>
          right
          refine ⟨old, rfl, ?_⟩
          have hcommit : Commits (updatePayoutPaid payout.id reference
              input.adminId now) s.db (old.paid reference input.adminId now)
              (s.db.putPayout (old.paid reference input.adminId now)) := by
            simp only [updatePayoutPaid, commits_select_bind,
              commits_orThrow_bind, commits_modify_bind, commits_pure, hfind]
            exact ⟨old, rfl, rfl, rfl⟩
          unfold Commits at hcommit
          simp only [PayoutDesk.step, hc, hcommit]
  | _ => exact .inl (by simp [PayoutDesk.step, hc])

/-- A rejection commits from a pending row, or nothing happens. -/
theorem PayoutDesk.step_reject (cfg : Config) (now : Timestamp)
    (input : RejectPayoutInput) :
    s.step (.reject cfg now input) = s
      ∨ ∃ db q, PayoutRejected now input s.db db q
        ∧ s.step (.reject cfg now input)
          = { s with db := db, log := s.log ++ [.rejected input.payoutId] } := by
  simp only [PayoutDesk.step]
  split
  · next r db hrun =>
    obtain ⟨q, hq⟩ := rejectPayout_rejected (h := hrun)
    exact .inr ⟨db, q, hq, rfl⟩
  · exact .inl rfl

end Steps

-- ========================================================== the invariant

/-- What the run so far has left of one payout. -/
structure PayoutInv (p : Uuid) (s : PayoutDesk) : Prop where
  rejectedShown : .rejected p ∈ s.log → s.Shows p .rejected
  doneShown : ∀ call, s.calls call = .done p → s.Shows p .paid
  notAsked : NotAskedAfterRejection s.log p
  paidOnce : s.log.count (.accepted p) ≤ 1
  acceptedHeld : .accepted p ∈ s.log →
    ¬ s.Shows p .pending ∨ ∃ call, (s.calls call).Holds p

/-- At the opening nothing was done. -/
theorem PayoutInv.opening (db : Db) (p : Uuid) :
    PayoutInv p (.opening db) where
  rejectedShown := nofun
  doneShown := nofun
  notAsked := .nil
  paidOnce := by simp [PayoutDesk.opening]
  acceptedHeld := nofun

/-- A payout whose rejection is not in the log may still be asked for. -/
theorem NotAskedAfterRejection.append {log l : List PayoutEvent} {p : Uuid}
    (h : NotAskedAfterRejection log p)
    (hlog : .rejected p ∈ log → .asked p ∉ l)
    (hl : .rejected p ∉ l) : NotAskedAfterRejection (log ++ l) p := by
  refine List.pairwise_append.mpr ⟨h, ?_, ?_⟩
  · refine List.pairwise_of_forall_mem_list ?_
    intro e he e' _ heq
    subst heq
    exact absurd he hl
  · intro e he e' he' heq heq'
    subst heq
    subst heq'
    exact hlog he he'

/-- The last event is a rejection: nothing was asked after it yet. -/
theorem NotAskedAfterRejection.snoc_rejected {log : List PayoutEvent}
    {p q : Uuid} (h : NotAskedAfterRejection log p) :
    NotAskedAfterRejection (log ++ [.rejected q]) p := by
  refine List.pairwise_append.mpr ⟨h, List.pairwise_singleton _ _, ?_⟩
  rintro e - e' he' -
  rw [List.mem_singleton.mp he']
  nofun

section Keeps

variable {s : PayoutDesk} {p : Uuid}

/-- Giving a call another place keeps what does not look at it. -/
theorem PayoutInv.setCall (hinv : PayoutInv p s) (call : Nat)
    {c : CompleteCall} (hdone : c = .done p → s.Shows p .paid)
    (hholds : (s.calls call).Holds p → ¬ s.Shows p .pending ∨ c.Holds p) :
    PayoutInv p (s.setCall call c) where
  rejectedShown := hinv.rejectedShown
  doneShown := by
    intro other hother
    by_cases ho : other = call
    · subst ho
      rw [PayoutDesk.calls_setCall_self] at hother
      exact hdone hother
    · rw [PayoutDesk.calls_setCall_of_ne ho] at hother
      exact hinv.doneShown other hother
  notAsked := hinv.notAsked
  paidOnce := hinv.paidOnce
  acceptedHeld := by
    intro haccepted
    rcases hinv.acceptedHeld haccepted with h | ⟨other, hother⟩
    · exact .inl h
    by_cases ho : other = call
    · subst ho
      rcases hholds hother with h | h
      · exact .inl h
      · refine .inr ⟨other, ?_⟩
        rw [PayoutDesk.calls_setCall_self]
        exact h
    · refine .inr ⟨other, ?_⟩
      rw [PayoutDesk.calls_setCall_of_ne ho]
      exact hother

/-- A SELECT reads. -/
theorem PayoutInv.select (hinv : PayoutInv p s) (call : Nat)
    (input : CompletePayoutInput) :
    PayoutInv p (s.step (.select call input)) := by
  rcases PayoutDesk.step_select call input with h | ⟨c, hc, hidle, h⟩
  · rw [h]
    exact hinv
  rw [h]
  refine hinv.setCall call (fun hd => absurd hd (hc p).2) ?_
  rw [hidle]
  intro hholds
  obtain ⟨_, _, _, hcall, -⟩ := hholds
  cases hcall

/-- The condition at the provider's call rules out an earlier rejection
and an earlier payment. -/
theorem PayoutInv.askProvider (hinv : PayoutInv p s) (call : Nat)
    (hu : Undisturbed s (.askProvider call)) :
    PayoutInv p (s.step (.askProvider call)) := by
  rcases PayoutDesk.step_askProvider call with h | ⟨input, payout, hcall, h⟩
  · rw [h]
    exact hinv
  obtain ⟨hpending, hfree⟩ := hu input payout hcall
  have hnot : payout.id = p → .rejected p ∉ s.log := by
    intro heq hrej
    subst heq
    cases (hinv.rejectedShown hrej).unique hpending
  have hnone : payout.id = p → .accepted p ∉ s.log := by
    intro heq hacc
    subst heq
    rcases hinv.acceptedHeld hacc with hn | ⟨other, hother⟩
    · exact hn hpending
    · exact hfree other hother
  have hselected : ¬ (s.calls call).Holds p := by
    rw [hcall]
    intro h'
    obtain ⟨_, _, _, h, -⟩ := h'
    cases h
  rcases h with ⟨reference, h⟩ | h
  · have hset := hinv.setCall call
      (c := .accepted input payout reference) nofun
      (fun hh => absurd hh hselected)
    rw [h]
    refine ⟨?_, hset.doneShown, ?_, ?_, ?_⟩
    · intro hrej
      exact hinv.rejectedShown (by simpa using hrej)
    · refine hinv.notAsked.append ?_ (by simp)
      intro hrej hasked
      refine hnot ?_ hrej
      simpa [eq_comm] using hasked
    · rw [List.count_append]
      by_cases hp : payout.id = p
      · rw [List.count_eq_zero.mpr (hnone hp)]
        simp [hp]
      · simpa [hp] using hinv.paidOnce
    · intro hacc
      by_cases hp : payout.id = p
      · refine .inr ⟨call, ?_⟩
        show ((s.setCall call _).calls call).Holds p
        rw [PayoutDesk.calls_setCall_self]
        exact ⟨_, _, _, rfl, hp⟩
      · refine hset.acceptedHeld ?_
        rw [PayoutDesk.log_setCall]
        simpa [Ne.symm hp] using hacc
  · have hset := hinv.setCall call (c := .failed) nofun
      (fun hh => absurd hh hselected)
    rw [h]
    refine ⟨?_, hset.doneShown, ?_, ?_, ?_⟩
    · intro hrej
      exact hinv.rejectedShown (by simpa using hrej)
    · refine hinv.notAsked.append ?_ (by simp)
      intro hrej hasked
      refine hnot ?_ hrej
      simpa [eq_comm] using hasked
    · simpa using hinv.paidOnce
    · intro hacc
      refine hset.acceptedHeld ?_
      rw [PayoutDesk.log_setCall]
      simpa using hacc

/-- The condition at the write rules out that a rejection is lost: the row is
still as the call had read it, so it was not rejected in between. -/
theorem PayoutInv.update (hinv : PayoutInv p s) (call : Nat)
    (now : Timestamp) (hu : Undisturbed s (.update call now)) :
    PayoutInv p (s.step (.update call now)) := by
  rcases PayoutDesk.step_update call now with h |
    ⟨input, payout, reference, hcall, ⟨h, hnone⟩ | ⟨old, hold, h⟩⟩
  · rw [h]
    exact hinv
  · rw [h]
    refine hinv.setCall call nofun ?_
    rintro hholds
    rw [hcall] at hholds
    obtain ⟨_, _, _, hc, rfl⟩ := hholds
    cases hc
    refine .inl ?_
    rw [PayoutDesk.Shows, hnone]
    nofun
  have hpending := hu input payout reference hcall
  have hid : old.id = payout.id := Table.key_of_find? hold
  have hshows : ∀ {status}, (s.step (.update call now)).Shows p status
      ↔ if p = payout.id then PayoutStatus.paid = status
        else s.Shows p status := by
    intro status
    rw [h, ← hid]
    rw [← hid] at hold
    exact PayoutDesk.shows_set (old.paid reference input.adminId now)
      hold rfl
  refine ⟨?_, ?_, ?_, ?_, ?_⟩
  · intro hrej
    rw [h] at hrej
    have hrejected := hinv.rejectedShown hrej
    rw [hshows]
    split
    · next hp =>
      subst hp
      cases hrejected.unique hpending
    · exact hrejected
  · intro other hother
    rw [hshows]
    split
    · rfl
    · next hp =>
      rw [h] at hother
      by_cases ho : other = call
      · subst ho
        have hdone : CompleteCall.done payout.id = .done p := by
          rw [← PayoutDesk.calls_setCall_self s other (.done payout.id)]
          exact hother
        cases hdone
        exact absurd rfl hp
      · refine hinv.doneShown other ?_
        rw [← PayoutDesk.calls_setCall_of_ne ho]
        exact hother
  · rw [h]
    exact hinv.notAsked
  · rw [h]
    exact hinv.paidOnce
  · intro hacc
    rw [hshows]
    split
    · exact .inl nofun
    · next hp =>
      rw [h] at hacc ⊢
      rcases hinv.acceptedHeld hacc with hn | ⟨other, hother⟩
      · exact .inl hn
      · refine .inr ⟨other, ?_⟩
        have ho : other ≠ call := by
          intro heq
          subst heq
          rw [hcall] at hother
          obtain ⟨_, _, _, hc, rfl⟩ := hother
          cases hc
          exact hp rfl
        show ((s.setCall call _).calls other).Holds p
        rw [PayoutDesk.calls_setCall_of_ne ho]
        exact hother

/-- A rejection of a pending payout is the only thing done to it. -/
theorem PayoutInv.reject (hinv : PayoutInv p s) (cfg : Config)
    (now : Timestamp) (input : RejectPayoutInput) :
    PayoutInv p (s.step (.reject cfg now input)) := by
  rcases PayoutDesk.step_reject cfg now input with h | ⟨db, q, hq, h⟩
  · rw [h]
    exact hinv
  have hid : q.id = input.payoutId := Table.key_of_find? hq.found
  have hshows : ∀ {status}, (s.step (.reject cfg now input)).Shows p status
      ↔ if p = q.id then PayoutStatus.rejected = status
        else s.Shows p status := by
    intro status
    have hold := hq.found
    rw [← hid] at hold
    rw [h]
    exact PayoutDesk.shows_set
      (q.rejected input.adminId input.reason now) hold hq.payouts
  have hpending : s.Shows q.id .pending := by
    rw [PayoutDesk.Shows, hid, hq.found, Option.map_some, hq.pending]
  refine ⟨?_, ?_, ?_, ?_, ?_⟩
  · intro hrej
    rw [hshows]
    split
    · rfl
    · next hp =>
      rw [h] at hrej
      refine hinv.rejectedShown ?_
      rw [← hid] at hrej
      simpa [hp] using hrej
  · intro call hcall
    rw [h] at hcall
    have hpaid := hinv.doneShown call hcall
    rw [hshows]
    split
    · next hp =>
      subst hp
      cases hpaid.unique hpending
    · exact hpaid
  · rw [h]
    exact hinv.notAsked.snoc_rejected
  · rw [h]
    simpa using hinv.paidOnce
  · intro hacc
    rw [hshows]
    split
    · exact .inl nofun
    · rw [h] at hacc ⊢
      exact hinv.acceptedHeld (by simpa using hacc)

/-- An undisturbed step keeps payments and rejections exclusive. -/
theorem PayoutInv.step (i : PayoutStep) (hu : Undisturbed s i)
    (hinv : PayoutInv p s) : PayoutInv p (s.step i) := by
  cases i with
  | select call input => exact hinv.select call input
  | askProvider call => exact hinv.askProvider call hu
  | update call now => exact hinv.update call now hu
  | reject cfg now input => exact hinv.reject cfg now input

/-- A row that shows `paid` stays so. -/
theorem PayoutDesk.paid_stays (i : PayoutStep) (hpaid : s.Shows p .paid)
    : (s.step i).Shows p .paid := by
  cases i with
  | select call input =>
      rcases PayoutDesk.step_select call input with h | ⟨c, -, -, h⟩
      · rw [h]
        exact hpaid
      · rw [h]
        exact hpaid
  | askProvider call =>
      rcases PayoutDesk.step_askProvider call with
        h | ⟨input, payout, -, ⟨reference, h⟩ | h⟩ <;>
      · rw [h]
        exact hpaid
  | update call now =>
      rcases PayoutDesk.step_update call now with h |
        ⟨input, payout, reference, hcall, ⟨h, -⟩ | ⟨old, hold, h⟩⟩
      · rw [h]
        exact hpaid
      · rw [h]
        exact hpaid
      have hid : old.id = payout.id := Table.key_of_find? hold
      rw [← hid] at hold
      rw [h]
      refine (PayoutDesk.shows_set (old.paid reference input.adminId now)
        hold rfl).mpr ?_
      split
      · rfl
      · exact hpaid
  | reject cfg now input =>
      rcases PayoutDesk.step_reject cfg now input with h | ⟨db, q, hq, h⟩
      · rw [h]
        exact hpaid
      have hid : q.id = input.payoutId := Table.key_of_find? hq.found
      have hold := hq.found
      rw [← hid] at hold
      rw [h]
      refine (PayoutDesk.shows_set
        (q.rejected input.adminId input.reason now) hold hq.payouts).mpr ?_
      split
      · next hp =>
        have hpending : s.Shows p .pending := by
          rw [hp, PayoutDesk.Shows]
          exact hold ▸ congrArg some hq.pending
        cases hpaid.unique hpending
      · exact hpaid

end Keeps

-- ============================================================ one payout

/-- A pending payout of 100 cents. -/
def onePayout : Payout where
  id := ⟨1⟩
  userId := ⟨2⟩
  transactionId := ⟨3⟩
  amountCents := ⟨100, by decide⟩
  currency := "UAH"
  provider := .manual
  status := .pending
  reference := none
  adminNote := none
  processedBy := none
  processedAt := none
  amount_nonneg := by decide

/-- A database with one pending payout. -/
def onePayoutDb : Db := { Db.empty with payouts := Table.empty.upsert onePayout }

-- ============================================================== the runs

/-- So does an undisturbed run. -/
theorem PayoutInv.run {db : Db} {p : Uuid} {schedule : List PayoutStep}
    (h : Along PayoutDesk.step Undisturbed (.opening db) schedule) :
    PayoutInv p (run PayoutDesk.step (.opening db) schedule) :=
  run_keeps_along (fun _ i hu hinv => hinv.step i hu) h (.opening db p)

/-- While no call acts on a stale row, completions and rejections of a payout
exclude each other: what was rejected is not completed, shows `paid` at no
time and is not asked of the provider again, and the provider pays at most
once. `PayoutInv` is what every undisturbed step keeps. -/
theorem payouts_exclusive (db : Db) (schedule : List PayoutStep) (p : Uuid)
    (h : Along PayoutDesk.step Undisturbed (.opening db) schedule) :
    Exclusive db schedule p := by
  have hinv := PayoutInv.run (p := p) h
  refine ⟨?_, ?_, hinv.notAsked, hinv.paidOnce⟩
  · intro hrej call hdone
    cases (hinv.rejectedShown hrej).unique (hinv.doneShown call hdone)
  · intro hrej pre h hpaid
    obtain ⟨post, rfl⟩ := h
    rw [run_append] at hrej hinv
    have hstays := run_keeps (P := fun s : PayoutDesk => s.Shows p .paid)
      (fun _ i hpaid => PayoutDesk.paid_stays i hpaid) hpaid post
    cases (hinv.rejectedShown hrej).unique hstays

/-- A payout is completed, and a late rejection is refused. -/
def servedSchedule : List PayoutStep :=
  [.select 0 ⟨⟨1⟩, ⟨4⟩, "bank-1"⟩, .askProvider 0, .update 0 0,
   .reject defaultConfig 0 ⟨⟨1⟩, ⟨5⟩, "wrong iban", ⟨6⟩⟩]

/-- One call alone pays the payout. -/
theorem payouts_exclusive_served :
    Exclusive onePayoutDb servedSchedule ⟨1⟩ := by
  have hselect : (PayoutDesk.opening onePayoutDb).step
      (.select 0 ⟨⟨1⟩, ⟨4⟩, "bank-1"⟩)
      = (PayoutDesk.opening onePayoutDb).setCall 0
          (.selected ⟨⟨1⟩, ⟨4⟩, "bank-1"⟩ onePayout) := rfl
  refine payouts_exclusive onePayoutDb servedSchedule ⟨1⟩
    ⟨trivial, ?_, ?_, trivial, trivial⟩
  · rw [hselect]
    intro input payout hcall
    rw [PayoutDesk.calls_setCall_self] at hcall
    cases hcall
    refine ⟨by decide +kernel, ?_⟩
    intro other h
    obtain ⟨_, _, _, hother, -⟩ := h
    by_cases ho : other = 0
    · subst ho
      rw [PayoutDesk.calls_setCall_self] at hother
      cases hother
    · rw [PayoutDesk.calls_setCall_of_ne ho] at hother
      cases hother
  · rintro input payout reference hcall
    have hid : CompleteCall.accepted ⟨⟨1⟩, ⟨4⟩, "bank-1"⟩ onePayout "bank-1"
        = .accepted input payout reference := hcall
    cases hid
    decide +kernel

/-- One admin completes, another rejects in between: the row is stale
when the provider is asked. -/
def staleSchedule : List PayoutStep :=
  [.select 0 ⟨⟨1⟩, ⟨4⟩, "bank-1"⟩,
   .reject defaultConfig 0 ⟨⟨1⟩, ⟨5⟩, "wrong iban", ⟨6⟩⟩,
   .askProvider 0,
   .update 0 0]

/-- A payout is paid on a stale row, and rejected too. -/
theorem staleSchedule_not_exclusive :
    ¬ Exclusive onePayoutDb staleSchedule ⟨1⟩ := by
  intro h
  have hrej : PayoutEvent.rejected ⟨1⟩
      ∈ (run PayoutDesk.step (.opening onePayoutDb) staleSchedule).log := by
    decide +kernel
  refine h.neverPaid hrej staleSchedule (List.prefix_refl _) ?_
  decide +kernel

end Skrynia
