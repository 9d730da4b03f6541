/-
What the outbox guarantees in every run.

Workers may overtake one another, stall past their lease and come back:
a late mark or heartbeat is without effect, no row is lost or counted
beyond its attempts, a processed event was handled and stays processed,
and no row gets stuck.

# One inversion

`OutboxSystem.row_step` says what a step can do to a row (`RowStep`) and
`OutboxSystem.attempt_step` what it can do to an attempt. The invariant
is one case analysis over each. Its key clause is `snapshot`: while a
worker holds a row, the attempt counter it remembers is the row's, so a
worker that marks its attempt as failed knows whether it was the last
one.
-/
import Skrynia.Outbox.Worker

namespace Skrynia

open Relational Stepping

variable {E : Type}

-- ============================================================ sound rows

namespace DomainOutboxEvent

/-- What holds of a row at any time. -/
structure Sound (maxAttempts : Nat) (r : DomainOutboxEvent E) : Prop where
  attempts : r.attempts ≤ maxAttempts
  lock : r.LockBundle
  processed : r.ProcessedBundle
  retries : r.status = .pending → r.attempts < maxAttempts

variable {maxAttempts : Nat} {r : DomainOutboxEvent E} {now : Timestamp}

/-- A row begins without attempts. -/
theorem sound_enqueued (hmax : 0 < maxAttempts) (id : Uuid) (event : E) :
    (enqueued id event now).Sound maxAttempts where
  attempts := Nat.zero_le _
  lock := .inr ⟨nofun, rfl, rfl⟩
  processed := .inr ⟨nofun, rfl⟩
  retries _ := hmax

/-- A row that is not processed has no time of it. -/
theorem Sound.processedAt (h : r.Sound maxAttempts)
    (hs : r.status ≠ .processed) : r.processedAt = none := by
  rcases h.processed with ⟨hs', -⟩ | ⟨-, hnone⟩
  · exact absurd hs' hs
  · exact hnone

/-- A row that is given up has no worker any more. -/
theorem Sound.givenUp (h : r.Sound maxAttempts)
    (hs : r.status = .processing) : (r.givenUp now).Sound maxAttempts where
  attempts := h.attempts
  lock := .inr ⟨nofun, rfl, rfl⟩
  processed := by
    refine .inr ⟨nofun, ?_⟩
    apply h.processedAt
    rw [hs]
    nofun
  retries := nofun

/-- A claim counts one attempt, within the bound. -/
theorem Sound.claimedBy (hattempts : r.attempts < maxAttempts)
    (worker : String) : (r.claimedBy worker now).Sound maxAttempts where
  attempts := hattempts
  lock := .inl ⟨rfl, rfl, rfl⟩
  processed := .inr ⟨nofun, rfl⟩
  retries := nofun

/-- A heartbeat moves the lease of a worker that holds the row. -/
theorem Sound.renewed (h : r.Sound maxAttempts) {worker : String}
    (hheld : r.HeldBy worker) : (r.renewed now).Sound maxAttempts where
  attempts := h.attempts
  lock := by
    refine .inl ⟨hheld.1, rfl, ?_⟩
    show r.lockedBy.isSome = true
    rw [hheld.2]
    rfl
  processed := h.processed
  retries := h.retries

/-- A row that is done has the time of it and no worker. -/
theorem Sound.done (h : r.Sound maxAttempts) :
    (r.done now).Sound maxAttempts where
  attempts := h.attempts
  lock := .inr ⟨nofun, rfl, rfl⟩
  processed := .inl ⟨rfl, rfl⟩
  retries := nofun

/-- The attempt is given up when it was the last one. -/
theorem Sound.attemptFailed (h : r.Sound maxAttempts) {terminal : Bool}
    {delay : Nat} {error : String}
    (hlast : terminal = false → r.attempts < maxAttempts) :
    (r.attemptFailed terminal delay error now).Sound maxAttempts where
  attempts := h.attempts
  lock := by
    refine .inr ⟨?_, rfl, rfl⟩
    cases terminal <;> nofun
  processed := by
    refine .inr ⟨?_, rfl⟩
    cases terminal <;> nofun
  retries := by
    intro hs
    cases terminal with
    | true => cases hs
    | false => exact hlast rfl

/-- A row that is retried by hand begins again. -/
theorem Sound.retried (hmax : 0 < maxAttempts) :
    (r.retried now).Sound maxAttempts where
  attempts := Nat.zero_le _
  lock := .inr ⟨nofun, rfl, rfl⟩
  processed := .inr ⟨nofun, rfl⟩
  retries _ := hmax

/-- A row that waits can be claimed from some time on, and a row under
way can be claimed or given up once its lease ran out. -/
def Reachable (maxAttempts : Nat) (r : DomainOutboxEvent E) : Prop :=
  match r.status with
  | .processed | .failed => True
  | .pending => ∀ now lockTimeoutMs, r.availableAt ≤ now →
      r.Claimable maxAttempts lockTimeoutMs now
  | .processing => ∃ t, r.lockedAt = some t ∧ ∀ now lockTimeoutMs,
      t + lockTimeoutMs < now → r.Claimable maxAttempts lockTimeoutMs now
        ∨ r.Exhausted maxAttempts lockTimeoutMs now

/-- The states of a row are those that the worker means it to have. -/
theorem Sound.reachable (h : r.Sound maxAttempts) :
    r.Reachable maxAttempts := by
  unfold Reachable
  cases hs : r.status with
  | processed => trivial
  | failed => trivial
  | pending =>
      intro now lockTimeoutMs havailable
      exact ⟨h.retries hs, .inl ⟨hs, havailable⟩⟩
  | processing =>
      rcases h.lock with ⟨-, hlocked, -⟩ | ⟨hne, -⟩
      · obtain ⟨t, ht⟩ := Option.isSome_iff_exists.mp hlocked
        refine ⟨t, ht, ?_⟩
        intro now lockTimeoutMs hlt
        have hexpired : r.LockExpired lockTimeoutMs now := by
          unfold LockExpired
          rw [ht]
          exact hlt
        by_cases hattempts : r.attempts < maxAttempts
        · exact .inl ⟨hattempts, .inr ⟨hs, hexpired⟩⟩
        · exact .inr ⟨hs, hexpired, Nat.le_of_not_lt hattempts⟩
      · exact absurd hs hne

end DomainOutboxEvent

-- ============================================================ statements

namespace DomainOutbox

variable {t : DomainOutbox E} {id : Uuid} {r : DomainOutboxEvent E}
  {maxAttempts : Nat} {c : ClaimInput} {worker : String}

/-- The candidates of a claim are claimable rows that nobody has locked. -/
theorem mem_candidates (h : r ∈ t.candidates maxAttempts c) :
    r ∈ t.rows ∧ r.Claimable maxAttempts c.lockTimeoutMs c.now
      ∧ r.id ∉ c.locked := by
  have hmem := List.mem_of_mem_take h
  rw [List.mem_insertionSort, List.mem_filter, decide_eq_true_eq] at hmem
  exact hmem

/-- What a claim makes of a row: it is given up, taken, or left. -/
inductive ClaimedRow (maxAttempts : Nat) (c : ClaimInput)
    (t : DomainOutbox E) (r : DomainOutboxEvent E) :
    DomainOutboxEvent E → Prop where
  | givenUp (exhausted : r.Exhausted maxAttempts c.lockTimeoutMs c.now) :
      ClaimedRow maxAttempts c t r (r.givenUp c.now)
  | taken (claimable : r.Claimable maxAttempts c.lockTimeoutMs c.now)
      (returned : r.claimedBy c.workerId c.now
        ∈ (t.claimOutboxBatch maxAttempts c).1)
      (only : ∀ y ∈ (t.claimOutboxBatch maxAttempts c).1, y.id = r.id →
        y = r.claimedBy c.workerId c.now) :
      ClaimedRow maxAttempts c t r (r.claimedBy c.workerId c.now)
  | left (lives : ¬ r.Exhausted maxAttempts c.lockTimeoutMs c.now)
      (notTaken : r ∉ (t.giveUp maxAttempts c).candidates maxAttempts c) :
      ClaimedRow maxAttempts c t r r

/-- After a claim a row is given up, claimed, or as it was with the reason
for it. -/
theorem find?_claimOutboxBatch (maxAttempts : Nat) (c : ClaimInput)
    (hfind : t.find? id = some r) :
    ∃ r', (t.claimOutboxBatch maxAttempts c).2.find? id = some r'
      ∧ ClaimedRow maxAttempts c t r r' := by
  -- the row after the first UPDATE
  have hkept : (t.giveUp maxAttempts c).find? id
      = some (if r.Exhausted maxAttempts c.lockTimeoutMs c.now
        then r.givenUp c.now else r) := by
    unfold giveUp
    rw [Table.find?_update, hfind, Option.map_some]
  have hclaimed : (t.claimOutboxBatch maxAttempts c).2.find? id
      = ((t.giveUp maxAttempts c).find? id).map fun r =>
        if r.id ∈ ((t.giveUp maxAttempts c).candidates maxAttempts c).map
          DomainOutboxEvent.id then r.claimedBy c.workerId c.now else r := by
    unfold claimOutboxBatch
    rw [Table.find?_update]
  rw [hkept, Option.map_some] at hclaimed
  refine ⟨_, hclaimed, ?_⟩
  by_cases hexhausted : r.Exhausted maxAttempts c.lockTimeoutMs c.now
  · rw [if_pos hexhausted] at hkept ⊢
    rw [if_neg ?_]
    · exact .givenUp hexhausted
    · -- a row given up is failed, so it is no candidate
      intro htaken
      obtain ⟨y, hy, hyid⟩ := List.mem_map.mp htaken
      obtain ⟨hmem, hclaimable, -⟩ := mem_candidates hy
      have heq : y = r.givenUp c.now :=
        Table.eq_of_key_eq hmem (Table.mem_of_find? hkept) hyid
      rw [heq] at hclaimable
      rcases hclaimable.2 with ⟨hs, -⟩ | ⟨hs, -⟩ <;> cases hs
  · rw [if_neg hexhausted] at hkept ⊢
    by_cases htaken : r ∈ (t.giveUp maxAttempts c).candidates maxAttempts c
    · rw [if_pos (List.mem_map.mpr ⟨r, htaken, rfl⟩)]
      refine .taken (mem_candidates htaken).2.1
        (List.mem_map.mpr ⟨r, htaken, rfl⟩) ?_
      intro y hy hyid
      obtain ⟨x, hx, rfl⟩ := List.mem_map.mp hy
      rw [Table.eq_of_key_eq (mem_candidates hx).1
        (mem_candidates htaken).1 hyid]
    · rw [if_neg ?_]
      · exact .left hexhausted htaken
      · intro hid
        obtain ⟨y, hy, hyid⟩ := List.mem_map.mp hid
        have heq : y = r := Table.eq_of_key_eq (mem_candidates hy).1
          (Table.mem_of_find? hkept) hyid
        rw [heq] at hy
        exact htaken hy

/-- What a claim returns is what the table holds then. -/
theorem find?_of_claimed (h : r ∈ (t.claimOutboxBatch maxAttempts c).1) :
    (t.claimOutboxBatch maxAttempts c).2.find? r.id = some r := by
  obtain ⟨x, hx, rfl⟩ := List.mem_map.mp h
  have hkept := Table.find?_of_mem (mem_candidates hx).1
  unfold claimOutboxBatch
  rw [DomainOutboxEvent.id_claimedBy, Table.find?_update, hkept,
    Option.map_some, if_pos (List.mem_map.mpr ⟨x, hx, rfl⟩)]

/-- A claim makes no row. -/
theorem find?_claimOutboxBatch_none (hfind : t.find? id = none) :
    (t.claimOutboxBatch maxAttempts c).2.find? id = none := by
  unfold claimOutboxBatch giveUp
  simp only [Table.find?_update, hfind, Option.map_none]

/-- An UPDATE of a held row changes no other. -/
theorem find?_updateHeld {f : DomainOutboxEvent E → DomainOutboxEvent E}
    {hf : ∀ r, (f r).id = r.id} {id' : Uuid} :
    (t.updateHeld worker id f hf).find? id'
      = (t.find? id').map fun r => if id' = id ∧ r.HeldBy worker then f r
        else r := by
  unfold updateHeld
  rw [Table.find?_update]
  cases hfind : t.find? id' with
  | none => rfl
  | some x =>
      have hx : x.id = id' := Table.key_of_find? hfind
      rw [Option.map_some, Option.map_some, hx]

end DomainOutbox

-- ================================================== what a step can do

/-- What becomes of a row in a step from `s` to `s'`. -/
inductive RowStep (maxAttempts : Nat) (s s' : OutboxSystem E)
    (r : DomainOutboxEvent E) : DomainOutboxEvent E → Prop where
  | same : RowStep maxAttempts s s' r r
  | givenUp {now : Timestamp} (status : r.status = .processing) :
      RowStep maxAttempts s s' r (r.givenUp now)
  | claimed {worker : String} {now : Timestamp}
      (attempts : r.attempts < maxAttempts)
      (waiting : r.status = .pending ∨ r.status = .processing)
      (own : ∀ a, s'.attempt worker r.id = some a →
        a.event = r.claimedBy worker now) :
      RowStep maxAttempts s s' r (r.claimedBy worker now)
  | renewed {worker : String} {now : Timestamp} (held : r.HeldBy worker) :
      RowStep maxAttempts s s' r (r.renewed now)
  | done {worker : String} {event : DomainOutboxEvent E} {now : Timestamp}
      (held : r.HeldBy worker)
      (attempt : s.attempt worker r.id = some ⟨event, .returned⟩) :
      RowStep maxAttempts s s' r (r.done now)
  | failed {worker error : String} {event : DomainOutboxEvent E}
      {delay : Nat} {now : Timestamp} (held : r.HeldBy worker)
      (attempt : s.attempt worker r.id = some ⟨event, .failed error⟩) :
      RowStep maxAttempts s s' r (r.attemptFailed
        (decide (maxAttempts ≤ event.attempts)) delay error now)
  | retried {now : Timestamp} (status : r.status = .failed) :
      RowStep maxAttempts s s' r (r.retried now)

/-- What becomes of an attempt, and where a new one comes from. -/
inductive AttemptStep (s s' : OutboxSystem E) (worker : String) (id : Uuid) :
    Attempt E → Prop where
  | moved {a a' : Attempt E} (before : s.attempt worker id = some a)
      (event_eq : a'.event = a.event)
      (returned : a'.phase = .returned →
        a.phase = .returned ∨ id ∈ s'.returned) :
      AttemptStep s s' worker id a'
  | started {r : DomainOutboxEvent E} (found : s'.table.find? id = some r) :
      AttemptStep s s' worker id ⟨r, .handling⟩

namespace OutboxSystem

variable {eventKey : E → String} {maxAttempts : Nat} {s : OutboxSystem E}

/-- The table is what was set. -/
@[simp] theorem table_setTable (t : DomainOutbox E) :
    (s.setTable t).table = t := rfl

/-- A worker's attempt is no part of the table. -/
@[simp] theorem table_setAttempt (w : String) (i : Uuid)
    (a : Option (Attempt E)) : (s.setAttempt w i a).table = s.table := rfl

/-- It is the attempt of that worker on that row only. -/
theorem attempt_setAttempt (w w' : String) (i i' : Uuid)
    (a : Option (Attempt E)) : (s.setAttempt w i a).attempt w' i'
      = if w' = w ∧ i' = i then a else s.attempt w' i' := rfl

/-- A worker has an attempt on each row of its batch. -/
theorem attempt_startAttempts (w w' : String) (i : Uuid)
    (batch : List (DomainOutboxEvent E)) :
    (s.startAttempts w batch).attempt w' i
      = if w' = w then
          ((batch.find? fun r => r.id = i).map fun r => ⟨r, .handling⟩).or
            (s.attempt w' i)
        else s.attempt w' i := by
  unfold startAttempts
  by_cases hw : w' = w
  · subst hw
    rfl
  · rfl

/-- Steps that write no row. -/
theorem row_same {s' : OutboxSystem E} (htable : s'.table = s.table)
    {id : Uuid} {r : DomainOutboxEvent E} (hfind : s.table.find? id = some r) :
    ∃ r', s'.table.find? id = some r' ∧ RowStep maxAttempts s s' r r' := by
  refine ⟨r, ?_, .same⟩
  rw [htable]
  exact hfind

/-- A batch starts an attempt of each of its rows. -/
theorem attempt_of_batch {worker : String} {id : Uuid}
    {batch : List (DomainOutboxEvent E)} {x : DomainOutboxEvent E}
    (hx : x ∈ batch) (hid : x.id = id) :
    ∃ y ∈ batch, y.id = id ∧ (s.startAttempts worker batch).attempt worker id
      = some ⟨y, .handling⟩ := by
  rw [attempt_startAttempts, if_pos rfl]
  cases hfind : batch.find? fun r => decide (r.id = id) with
  | none =>
      have hne := List.find?_eq_none.mp hfind x hx
      simp [hid] at hne
  | some y =>
      refine ⟨y, List.mem_of_find?_eq_some hfind, ?_, rfl⟩
      simpa using List.find?_some hfind

section Claim

variable {c : ClaimInput} {fault : Option Fault}

/-- A claim did nothing, or its batch was free and is taken. -/
theorem claim_cases (s : OutboxSystem E) (maxAttempts : Nat)
    (c : ClaimInput) (fault : Option Fault) :
    s.claim maxAttempts c fault = s
      ∨ s.Sequential c.workerId (s.table.claimOutboxBatch maxAttempts c).1
        ∧ (s.claim maxAttempts c fault
            = s.setTable (s.table.claimOutboxBatch maxAttempts c).2
          ∨ s.claim maxAttempts c fault
            = (s.setTable
              (s.table.claimOutboxBatch maxAttempts c).2).startAttempts
                c.workerId (s.table.claimOutboxBatch maxAttempts c).1) := by
  unfold claim
  by_cases hidle : fault = some .refused ∨ ¬ s.Sequential c.workerId
    (s.table.claimOutboxBatch maxAttempts c).1
  · exact .inl (if_pos hidle)
  · obtain ⟨-, hsequential⟩ := not_or.mp hidle
    refine .inr ⟨not_not.mp hsequential, ?_⟩
    dsimp only
    rw [if_neg hidle]
    by_cases hlost : fault = some .replyLost
    · exact .inl (if_pos hlost)
    · exact .inr (if_neg hlost)

/-- What a claim does to a row is one of its steps. -/
theorem row_claim {id : Uuid} {r : DomainOutboxEvent E}
    (hfind : s.table.find? id = some r) :
    ∃ r', (s.claim maxAttempts c fault).table.find? id = some r'
      ∧ RowStep maxAttempts s (s.claim maxAttempts c fault) r r' := by
  have hid : r.id = id := Table.key_of_find? hfind
  rcases s.claim_cases maxAttempts c fault with
    h | ⟨hsequential, h⟩
  · exact row_same (congrArg table h) hfind
  · obtain ⟨r', hr', hcases⟩ := DomainOutbox.find?_claimOutboxBatch
      maxAttempts c hfind
    have htable : (s.claim maxAttempts c fault).table
        = (s.table.claimOutboxBatch maxAttempts c).2 := by
      rcases h with h | h <;> rw [h] <;> rfl
    refine ⟨r', by rw [htable]; exact hr', ?_⟩
    cases hcases with
    | givenUp hexhausted => exact .givenUp hexhausted.1
    | taken hclaimable hreturned honly =>
        refine .claimed hclaimable.1 ?_ ?_
        · rcases hclaimable.2 with ⟨hs, -⟩ | ⟨hs, -⟩
          · exact .inl hs
          · exact .inr hs
        · intro a ha
          rcases h with h | h
          · -- the answer was lost: nobody works on the row
            have hnone : s.attempt c.workerId r.id = none :=
              hsequential (r.claimedBy c.workerId c.now) hreturned
            rw [h] at ha
            have hsome : s.attempt c.workerId r.id = some a := ha
            rw [hnone] at hsome
            cases hsome
          · rw [h] at ha
            obtain ⟨y, hy, hyid, hattempt⟩ := attempt_of_batch
              (s := s.setTable (s.table.claimOutboxBatch maxAttempts c).2)
              hreturned (r.id_claimedBy c.workerId c.now)
            rw [hattempt] at ha
            cases ha
            exact honly y hy hyid
    | left _ _ => exact .same

end Claim

/-- A statement on a row that a worker holds. -/
theorem row_updateHeld {s' : OutboxSystem E} {worker : String} {id id' : Uuid}
    {g : DomainOutboxEvent E → DomainOutboxEvent E}
    (hg : ∀ r, (g r).id = r.id)
    (htable : s'.table = s.table.updateHeld worker id' g hg)
    {r : DomainOutboxEvent E} (hfind : s.table.find? id = some r)
    (hstep : r.id = id' → r.HeldBy worker →
      RowStep maxAttempts s s' r (g r)) :
    ∃ r', s'.table.find? id = some r' ∧ RowStep maxAttempts s s' r r' := by
  have hid : r.id = id := Table.key_of_find? hfind
  rw [htable, DomainOutbox.find?_updateHeld, hfind, Option.map_some]
  refine ⟨_, rfl, ?_⟩
  by_cases hheld : id = id' ∧ r.HeldBy worker
  · rw [if_pos hheld]
    exact hstep (hid.trans hheld.1) hheld.2
  · rw [if_neg hheld]
    exact .same

/-- What a step does to a row that is there. Each step of the system is
one statement, and each statement updates the rows that its WHERE clause
selects. -/
theorem row_step (eventKey : E → String) (e : OutboxStep E)
    (hnamed : ∀ {worker id a}, s.attempt worker id = some a →
      a.event.id = id) {id : Uuid} {r : DomainOutboxEvent E}
    (hfind : s.table.find? id = some r) :
    ∃ r', (s.step eventKey maxAttempts e).table.find? id = some r'
      ∧ RowStep maxAttempts s (s.step eventKey maxAttempts e) r r' := by
  have hid : r.id = id := Table.key_of_find? hfind
  cases e with
  | enqueue newId event now =>
      refine ⟨r, ?_, .same⟩
      show (s.table.enqueueDomainEvent eventKey newId event now).find? id = _
      unfold DomainOutbox.enqueueDomainEvent
      split
      · exact hfind
      · rw [Table.find?_upsert, hfind]
        split <;> rfl
  | claim input fault => exact row_claim hfind
  | handlerReturns worker id' =>
      apply row_same _ hfind
      show (s.handlerReturns worker id').table = s.table
      unfold handlerReturns
      split <;> rfl
  | handlerThrows worker id' error =>
      apply row_same _ hfind
      show (s.handlerThrows worker id' error).table = s.table
      unfold handlerThrows
      split <;> rfl
  | heartbeat worker id' now =>
      refine row_updateHeld (fun r => r.id_renewed now) rfl hfind ?_
      intro _ hheld
      exact .renewed hheld
  | markProcessed worker id' now fault =>
      show ∃ r', (s.markProcessed worker id' now fault).table.find? id
        = some r' ∧ RowStep _ _ (s.markProcessed worker id' now fault) r r'
      unfold markProcessed
      split
      · next event ha =>
        by_cases hrefused : fault = some .refused
        · exact row_same (if_pos hrefused) hfind
        · refine row_updateHeld (fun r => r.id_done now) (if_neg hrefused)
            hfind ?_
          intro heq hheld
          subst heq
          exact .done hheld ha
      · exact row_same rfl hfind
  | markFailed worker id' baseBackoffMs now fault =>
      show ∃ r', (s.markFailed maxAttempts worker id' baseBackoffMs now
          fault).table.find? id = some r'
        ∧ RowStep _ _ (s.markFailed maxAttempts worker id' baseBackoffMs now
          fault) r r'
      unfold markFailed
      split
      · next event error ha =>
        by_cases hrefused : fault = some .refused
        · exact row_same (if_pos hrefused) hfind
        · refine row_updateHeld (fun r => r.id_attemptFailed _ _ _ _)
            (if_neg hrefused) hfind ?_
          intro hevent hheld
          rw [← hnamed ha] at ha
          rw [← hevent] at ha
          exact .failed hheld ha
      · exact row_same rfl hfind
  | retry eventIds limit now locked =>
      show ∃ r', (s.table.retryFailedOutboxEvents eventIds limit now
        locked).find? id = some r' ∧ _
      unfold DomainOutbox.retryFailedOutboxEvents
      rw [Table.find?_update, hfind, Option.map_some]
      refine ⟨_, rfl, ?_⟩
      split
      · next hmem =>
        obtain ⟨x, hx, hxid⟩ := List.mem_map.mp hmem
        have hxmem := List.mem_of_mem_take hx
        rw [List.mem_insertionSort, List.mem_filter, decide_eq_true_eq]
          at hxmem
        have hxr : x = r :=
          Table.eq_of_key_eq hxmem.1 (Table.mem_of_find? hfind) hxid
        subst hxr
        exact .retried hxmem.2.1
      · exact .same

/-- A row that is new was just enqueued. -/
theorem row_new (e : OutboxStep E) {id : Uuid} {r : DomainOutboxEvent E}
    (hnone : s.table.find? id = none)
    (hfind : (s.step eventKey maxAttempts e).table.find? id = some r) :
    ∃ event now, r = .enqueued id event now := by
  have hsame : ∀ {t : DomainOutbox E}, t = s.table →
      ¬ t.find? id = some r := by
    intro t heq h
    subst heq
    rw [hnone] at h
    cases h
  have hheld : ∀ {worker id' g} (hg : ∀ r, (g r).id = r.id),
      ¬ (s.table.updateHeld worker id' g hg).find? id = some r := by
    intro worker id' g hg h
    rw [DomainOutbox.find?_updateHeld, hnone] at h
    cases h
  cases e with
  | enqueue newId event now =>
      change (s.table.enqueueDomainEvent eventKey newId event now).find? id
        = _ at hfind
      unfold DomainOutbox.enqueueDomainEvent at hfind
      split at hfind
      · exact absurd hfind (hsame rfl)
      · rw [Table.find?_upsert, hnone] at hfind
        split at hfind
        · next hid =>
          cases hfind
          exact ⟨event, now, by rw [← hid]; rfl⟩
        · cases hfind
  | claim input fault =>
      rcases s.claim_cases maxAttempts input fault with h | ⟨-, h | h⟩
      · exact absurd hfind (hsame (congrArg table h))
      · change (s.claim maxAttempts input fault).table.find? id = _ at hfind
        rw [h, table_setTable,
          DomainOutbox.find?_claimOutboxBatch_none hnone] at hfind
        cases hfind
      · change (s.claim maxAttempts input fault).table.find? id = _ at hfind
        rw [h] at hfind
        change (s.table.claimOutboxBatch maxAttempts input).2.find? id = _
          at hfind
        rw [DomainOutbox.find?_claimOutboxBatch_none hnone] at hfind
        cases hfind
  | handlerReturns worker id' =>
      change (s.handlerReturns worker id').table.find? id = _ at hfind
      unfold handlerReturns at hfind
      split at hfind <;> exact absurd hfind (hsame rfl)
  | handlerThrows worker id' error =>
      change (s.handlerThrows worker id' error).table.find? id = _ at hfind
      unfold handlerThrows at hfind
      split at hfind <;> exact absurd hfind (hsame rfl)
  | heartbeat worker id' now =>
      exact absurd hfind (hheld fun r => r.id_renewed now)
  | markProcessed worker id' now fault =>
      change (s.markProcessed worker id' now fault).table.find? id = _ at hfind
      unfold markProcessed at hfind
      split at hfind
      · by_cases hrefused : fault = some .refused
        · exact absurd hfind (hsame (if_pos hrefused))
        · dsimp only at hfind
          rw [table_setAttempt, table_setTable, if_neg hrefused] at hfind
          exact absurd hfind (hheld fun r => r.id_done now)
      · exact absurd hfind (hsame rfl)
  | markFailed worker id' baseBackoffMs now fault =>
      change (s.markFailed maxAttempts worker id' baseBackoffMs now
        fault).table.find? id = _ at hfind
      unfold markFailed at hfind
      split at hfind
      · by_cases hrefused : fault = some .refused
        · exact absurd hfind (hsame (if_pos hrefused))
        · dsimp only at hfind
          rw [table_setAttempt, table_setTable, if_neg hrefused] at hfind
          exact absurd hfind (hheld fun r => r.id_attemptFailed _ _ _ _)
      · exact absurd hfind (hsame rfl)
  | retry eventIds limit now locked =>
      change (s.table.retryFailedOutboxEvents eventIds limit now
        locked).find? id = _ at hfind
      unfold DomainOutbox.retryFailedOutboxEvents at hfind
      rw [Table.find?_update, hnone] at hfind
      cases hfind

/-- What a step does to the attempts: a claim starts those of the rows it
returns, and every other step moves one attempt of one worker. -/
theorem attempt_step (e : OutboxStep E) {worker : String} {id : Uuid}
    {a : Attempt E}
    (ha : (s.step eventKey maxAttempts e).attempt worker id = some a) :
    AttemptStep s (s.step eventKey maxAttempts e) worker id a := by
  have hkept : ∀ {s' : OutboxSystem E}, s.attempt worker id = some a →
      AttemptStep s s' worker id a := by
    intro s' h
    exact .moved h rfl .inl
  -- the attempt of one worker at one event gets another phase
  have hset : ∀ {s' : OutboxSystem E} {w i b b'}, s.attempt w i = some b →
      (s.setAttempt w i b').attempt worker id = some a →
      (∀ a', b' = some a' → a'.event = b.event ∧ (a'.phase = .returned →
        b.phase = .returned ∨ i ∈ s'.returned)) →
      AttemptStep s s' worker id a := by
    intro s' w i b b' hb h hb'
    rw [attempt_setAttempt] at h
    split at h
    · next heq =>
      obtain ⟨rfl, rfl⟩ := heq
      obtain ⟨hevent, hreturned⟩ := hb' a h
      exact .moved hb hevent hreturned
    · exact hkept h
  cases e with
  | enqueue newId event now => exact hkept ha
  | claim input fault =>
      show AttemptStep s (s.claim maxAttempts input fault) worker id a
      change (s.claim maxAttempts input fault).attempt worker id = _ at ha
      rcases s.claim_cases maxAttempts input fault with h | ⟨-, h | h⟩
      · rw [h] at ha
        exact hkept ha
      · rw [h] at ha
        exact hkept ha
      · rw [h, attempt_startAttempts] at ha
        split at ha
        · rw [Option.or_eq_some_iff] at ha
          rcases ha with ha | ⟨-, ha⟩
          · obtain ⟨r, hr, rfl⟩ := Option.map_eq_some_iff.mp ha
            have hid : r.id = id := by simpa using List.find?_some hr
            refine .started ?_
            rw [h, ← hid]
            exact DomainOutbox.find?_of_claimed (List.mem_of_find?_eq_some hr)
          · exact hkept ha
        · exact hkept ha
  | handlerReturns w i =>
      show AttemptStep s (s.handlerReturns w i) worker id a
      change (s.handlerReturns w i).attempt worker id = _ at ha
      unfold handlerReturns at ha ⊢
      split at ha
      · next event hb =>
        refine hset hb ha ?_
        intro a' h
        cases h
        exact ⟨rfl, fun _ => .inr (List.mem_append_right _ (by simp))⟩
      · exact hkept ha
  | handlerThrows w i error =>
      show AttemptStep s (s.handlerThrows w i error) worker id a
      change (s.handlerThrows w i error).attempt worker id = _ at ha
      unfold handlerThrows at ha ⊢
      split at ha
      · next event hb =>
        refine hset hb ha ?_
        intro a' h
        cases h
        exact ⟨rfl, nofun⟩
      · exact hkept ha
  | heartbeat w i now => exact hkept ha
  | markProcessed w i now fault =>
      show AttemptStep s (s.markProcessed w i now fault) worker id a
      change (s.markProcessed w i now fault).attempt worker id = _ at ha
      unfold markProcessed at ha ⊢
      split at ha
      · next event hb =>
        refine hset hb ha ?_
        intro a' ha'
        unfold afterMark at ha'
        split at ha'
        · cases ha'
          exact ⟨rfl, nofun⟩
        · split at ha'
          · cases ha'
          · cases ha'
            exact ⟨rfl, nofun⟩
      · exact hkept ha
  | markFailed w i baseBackoffMs now fault =>
      show AttemptStep s (s.markFailed maxAttempts w i baseBackoffMs now
        fault) worker id a
      change (s.markFailed maxAttempts w i baseBackoffMs now fault).attempt
        worker id = _ at ha
      unfold markFailed at ha ⊢
      split at ha
      · next event error hb => exact hset hb ha nofun
      · exact hkept ha
  | retry eventIds limit now locked => exact hkept ha

/-- What was handled once was handled. -/
theorem returned_step (e : OutboxStep E) :
    s.returned ⊆ (s.step eventKey maxAttempts e).returned := by
  intro id hid
  cases e with
  | claim input fault =>
      show id ∈ (s.claim maxAttempts input fault).returned
      rcases s.claim_cases maxAttempts input fault with h | ⟨-, h | h⟩ <;>
        rw [h] <;> exact hid
  | handlerReturns w i =>
      show id ∈ (s.handlerReturns w i).returned
      unfold handlerReturns
      split
      · exact List.mem_append_left _ hid
      · exact hid
  | handlerThrows w i error =>
      show id ∈ (s.handlerThrows w i error).returned
      unfold handlerThrows
      split <;> exact hid
  | markProcessed w i now fault =>
      show id ∈ (s.markProcessed w i now fault).returned
      unfold markProcessed
      split <;> exact hid
  | markFailed w i baseBackoffMs now fault =>
      show id ∈ (s.markFailed maxAttempts w i baseBackoffMs now fault).returned
      unfold markFailed
      split <;> exact hid
  | enqueue newId event now => exact hid
  | heartbeat w i now => exact hid
  | retry eventIds limit now locked => exact hid

end OutboxSystem

-- ========================================================== the invariant

/-- What holds in every state. -/
structure OutboxInv (maxAttempts : Nat) (s : OutboxSystem E) : Prop where
  sound : ∀ {id r}, s.table.find? id = some r → r.Sound maxAttempts
  named : ∀ {worker id a}, s.attempt worker id = some a → a.event.id = id
  snapshot : ∀ {worker id a r}, s.attempt worker id = some a →
    s.table.find? id = some r → r.HeldBy worker →
    r.attempts = a.event.attempts
  returned : ∀ {worker id a}, s.attempt worker id = some a →
    a.phase = .returned → id ∈ s.returned
  processed : ∀ {id r}, s.table.find? id = some r →
    r.status = .processed → id ∈ s.returned

namespace RowStep

variable {maxAttempts : Nat} {s s' : OutboxSystem E}
  {r r' : DomainOutboxEvent E}

/-- A row keeps its id and its event. -/
theorem kept (h : RowStep maxAttempts s s' r r') :
    r'.id = r.id ∧ r'.event = r.event := by
  cases h <;> exact ⟨rfl, rfl⟩

/-- A processed row is final. -/
theorem final (h : RowStep maxAttempts s s' r r')
    (hs : r.status = .processed) : r' = r := by
  have hfree : ∀ {worker}, ¬ r.HeldBy worker := by
    intro worker hheld
    rw [hheld.1] at hs
    cases hs
  cases h with
  | same => rfl
  | givenUp status =>
      rw [status] at hs
      cases hs
  | claimed _ waiting _ =>
      rcases waiting with h | h <;> rw [h] at hs <;> cases hs
  | renewed held => exact absurd held hfree
  | done held _ => exact absurd held hfree
  | failed held _ => exact absurd held hfree
  | retried status =>
      rw [status] at hs
      cases hs

/-- Who holds a row has held it, or has just claimed it. -/
theorem heldBy (h : RowStep maxAttempts s s' r r') {worker : String}
    (hheld : r'.HeldBy worker) :
    r.HeldBy worker ∧ r'.attempts = r.attempts
      ∨ ∀ a, s'.attempt worker r.id = some a → a.event = r' := by
  obtain ⟨hstatus, hworker⟩ := hheld
  cases h with
  | same => exact .inl ⟨⟨hstatus, hworker⟩, rfl⟩
  | givenUp _ => cases hstatus
  | claimed _ _ own =>
      cases hworker
      exact .inr own
  | renewed held =>
      have hlocked : r.lockedBy = some worker := hworker
      exact .inl ⟨⟨held.1, hlocked⟩, rfl⟩
  | done _ _ => cases hstatus
  | @failed _ _ event _ _ _ _ =>
      unfold DomainOutboxEvent.attemptFailed at hstatus
      dsimp only at hstatus
      split at hstatus <;> cases hstatus
  | retried _ => cases hstatus

/-- A step keeps a row sound. -/
theorem sound (h : RowStep maxAttempts s s' r r') (hmax : 0 < maxAttempts)
    (hr : r.Sound maxAttempts)
    (hsnapshot : ∀ {worker a}, s.attempt worker r.id = some a →
      r.HeldBy worker → r.attempts = a.event.attempts) :
    r'.Sound maxAttempts := by
  cases h with
  | same => exact hr
  | givenUp status => exact hr.givenUp status
  | claimed attempts _ _ => exact .claimedBy attempts _
  | renewed held => exact hr.renewed held
  | done _ _ => exact hr.done
  | failed held attempt =>
      refine hr.attemptFailed ?_
      intro hlast
      rw [hsnapshot attempt held]
      exact Nat.lt_of_not_le (of_decide_eq_false hlast)
  | retried _ => exact .retried hmax

/-- A row becomes processed by a worker whose handler returned. -/
theorem processed (h : RowStep maxAttempts s s' r r')
    (hs : r'.status = .processed) :
    r.status = .processed ∨ ∃ worker event,
      s.attempt worker r.id = some ⟨event, .returned⟩ := by
  cases h with
  | same => exact .inl hs
  | givenUp _ => cases hs
  | claimed _ _ _ => cases hs
  | renewed _ => exact .inl hs
  | done _ attempt => exact .inr ⟨_, _, attempt⟩
  | failed _ _ =>
      unfold DomainOutboxEvent.attemptFailed at hs
      dsimp only at hs
      split at hs <;> cases hs
  | retried _ => cases hs

end RowStep

namespace OutboxInv

variable {eventKey : E → String} {maxAttempts : Nat} {s : OutboxSystem E}

/-- An empty outbox satisfies the invariant. -/
theorem start : OutboxInv maxAttempts (.start : OutboxSystem E) where
  sound := nofun
  named := nofun
  snapshot := nofun
  returned := nofun
  processed := nofun

/-- Where a row of the state after a step comes from. -/
theorem row_of_step (h : OutboxInv maxAttempts s) (e : OutboxStep E)
    {id : Uuid} {r' : DomainOutboxEvent E}
    (hfind : (s.step eventKey maxAttempts e).table.find? id = some r') :
    (∃ event now, r' = .enqueued id event now)
      ∨ ∃ r, s.table.find? id = some r ∧ r.id = id
        ∧ RowStep maxAttempts s (s.step eventKey maxAttempts e) r r' := by
  cases hbefore : s.table.find? id with
  | none => exact .inl (OutboxSystem.row_new e hbefore hfind)
  | some r =>
      obtain ⟨r'', hafter, hstep⟩ :=
        OutboxSystem.row_step eventKey e h.named hbefore
      rw [hfind] at hafter
      cases hafter
      exact .inr ⟨r, rfl, Table.key_of_find? hbefore, hstep⟩

/-- Every step keeps it. -/
theorem step (h : OutboxInv maxAttempts s) (hmax : 0 < maxAttempts)
    (e : OutboxStep E) :
    OutboxInv maxAttempts (s.step eventKey maxAttempts e) := by
  refine ⟨?_, ?_, ?_, ?_, ?_⟩
  · intro id r' hfind
    rcases h.row_of_step e hfind with ⟨event, now, rfl⟩ | ⟨r, hr, hid, hstep⟩
    · exact DomainOutboxEvent.sound_enqueued hmax id event
    · apply hstep.sound hmax (h.sound hr)
      intro worker a ha hheld
      rw [hid] at ha
      exact h.snapshot ha hr hheld
  · intro worker id a ha
    cases OutboxSystem.attempt_step e ha with
    | moved before event_eq _ =>
        rw [event_eq]
        exact h.named before
    | started found => exact Table.key_of_find? found
  · intro worker id a r' ha hfind hheld
    rcases h.row_of_step e hfind with ⟨event, now, rfl⟩ | ⟨r, hr, hid, hstep⟩
    · cases hheld.1
    · rcases hstep.heldBy hheld with ⟨hbefore, hattempts⟩ | hown
      · cases OutboxSystem.attempt_step e ha with
        | moved before event_eq _ =>
            rw [hattempts, event_eq]
            exact h.snapshot before hr hbefore
        | started found =>
            rw [hfind] at found
            cases found
            rfl
      · rw [hid] at hown
        rw [hown a ha]
  · intro worker id a ha hphase
    cases OutboxSystem.attempt_step e ha with
    | moved before _ returned =>
        rcases returned hphase with hphase' | hid
        · exact OutboxSystem.returned_step e (h.returned before hphase')
        · exact hid
    | started _ => cases hphase
  · intro id r' hfind hs
    rcases h.row_of_step e hfind with ⟨event, now, rfl⟩ | ⟨r, hr, hid, hstep⟩
    · cases hs
    · apply OutboxSystem.returned_step e
      rcases hstep.processed hs with hs' | ⟨worker, event, ha⟩
      · exact h.processed hr hs'
      · rw [hid] at ha
        exact h.returned ha rfl

/-- A row stays, with its event, and for good once it is processed. -/
theorem later (h : OutboxInv maxAttempts s) (hmax : 0 < maxAttempts)
    (steps : List (OutboxStep E)) {id : Uuid} {r : DomainOutboxEvent E}
    (hfind : s.table.find? id = some r) :
    ∃ r', (s.play eventKey maxAttempts steps).table.find? id
        = some r'
      ∧ r'.event = r.event ∧ (r.status = .processed → r' = r) := by
  induction steps generalizing s r with
  | nil => exact ⟨r, hfind, rfl, fun _ => rfl⟩
  | cons e steps ih =>
      obtain ⟨r₁, hr₁, hstep⟩ :=
        OutboxSystem.row_step eventKey e h.named hfind
      obtain ⟨r₂, hr₂, hevent, hfinal⟩ := ih (h.step hmax e) hr₁
      refine ⟨r₂, hr₂, hevent.trans hstep.kept.2, ?_⟩
      intro hs
      have heq := hstep.final hs
      rw [heq] at hfinal
      exact hfinal hs

/-- And so does every run. -/
theorem run (h : OutboxInv maxAttempts s) (hmax : 0 < maxAttempts)
    (steps : List (OutboxStep E)) :
    OutboxInv maxAttempts
      (s.play eventKey maxAttempts steps) :=
  run_keeps (fun _ e hs => hs.step hmax e) h steps

end OutboxInv

-- ============================================================== next claim

namespace DomainOutboxEvent

instance : Std.Total (Before (E := E)) :=
  ⟨fun r r' => le_total r.turn r'.turn⟩

instance : IsTrans (DomainOutboxEvent E) Before :=
  ⟨fun _ _ _ h h' => le_trans (α := Nat ×ₗ Nat ×ₗ Nat) h h'⟩

end DomainOutboxEvent

namespace DomainOutbox

variable {t : DomainOutbox E} {id : Uuid} {r : DomainOutboxEvent E}
  {maxAttempts : Nat}

/-- A candidate that is not taken stands behind a full batch. -/
theorem overtaken {c : ClaimInput} (hmem : r ∈ t.rows)
    (hclaimable : r.Claimable maxAttempts c.lockTimeoutMs c.now)
    (hunlocked : r.id ∉ c.locked) (hnot : r ∉ t.candidates maxAttempts c) :
    (t.candidates maxAttempts c).length = c.batchSize
      ∧ ∀ x ∈ t.candidates maxAttempts c, x.Before r := by
  unfold candidates at hnot ⊢
  generalize hl : ((t.rows.filter fun r => r.Claimable maxAttempts
    c.lockTimeoutMs c.now ∧ r.id ∉ c.locked).insertionSort
      DomainOutboxEvent.Before) = l at hnot ⊢
  have hr : r ∈ l := by
    rw [← hl, List.mem_insertionSort, List.mem_filter, decide_eq_true_eq]
    exact ⟨hmem, hclaimable, hunlocked⟩
  have hsorted : l.Pairwise DomainOutboxEvent.Before := by
    rw [← hl]
    exact List.pairwise_insertionSort _ _
  rw [← List.take_append_drop c.batchSize l] at hr hsorted
  rcases List.mem_append.mp hr with hr | hr
  · exact absurd hr hnot
  · refine ⟨?_, ?_⟩
    · rw [List.length_take, Nat.min_eq_left]
      have hlt := List.length_pos_of_mem hr
      rw [List.length_drop] at hlt
      omega
    · intro x hx
      exact (List.pairwise_append.mp hsorted).2.2 x hx r hr

/-- The next claim gives up every row whose lease ran out on its last
attempt, however many rows there are: the first UPDATE has no LIMIT. -/
theorem claim_givesUp (c : ClaimInput) (hfind : t.find? id = some r)
    (hexhausted : r.Exhausted maxAttempts c.lockTimeoutMs c.now) :
    (t.claimOutboxBatch maxAttempts c).2.find? id
      = some (r.givenUp c.now) := by
  obtain ⟨r', hr', hcases⟩ := find?_claimOutboxBatch maxAttempts c hfind
  cases hcases with
  | givenUp _ => exact hr'
  | taken hclaimable _ _ =>
      exact absurd hclaimable.1 (Nat.not_lt.mpr hexhausted.2.2)
  | left hlives _ => exact absurd hexhausted hlives

/-- The next claim takes a row that has attempts left, unless another
transaction locks the row or a full batch of rows before it is taken. -/
theorem claim_takes (c : ClaimInput) (hfind : t.find? id = some r)
    (hclaimable : r.Claimable maxAttempts c.lockTimeoutMs c.now) :
    (t.claimOutboxBatch maxAttempts c).2.find? id
        = some (r.claimedBy c.workerId c.now)
      ∨ id ∈ c.locked
      ∨ (t.claimOutboxBatch maxAttempts c).1.length = c.batchSize
        ∧ ∀ x ∈ (t.claimOutboxBatch maxAttempts c).1, x.Before r := by
  have hid : r.id = id := Table.key_of_find? hfind
  obtain ⟨r', hr', hcases⟩ := find?_claimOutboxBatch maxAttempts c hfind
  cases hcases with
  | givenUp hexhausted =>
      exact absurd hclaimable.1 (Nat.not_lt.mpr hexhausted.2.2)
  | taken _ _ _ => exact .inl hr'
  | left hlives hnot =>
      by_cases hlocked : id ∈ c.locked
      · exact .inr (.inl hlocked)
      · have hkept : (t.giveUp maxAttempts c).find? id = some r := by
          unfold giveUp
          rw [Table.find?_update, hfind, Option.map_some, if_neg hlives]
        rw [← hid] at hlocked
        obtain ⟨hlength, hbefore⟩ := overtaken (Table.mem_of_find? hkept)
          hclaimable hlocked hnot
        refine .inr (.inr ⟨?_, ?_⟩)
        · unfold claimOutboxBatch
          rw [List.length_map]
          exact hlength
        · intro x hx
          obtain ⟨y, hy, rfl⟩ := List.mem_map.mp hx
          exact hbefore y hy

end DomainOutbox

-- ============================================================ in every run

/-- The worker that marks or renews in a step. -/
def OutboxStep.marker : OutboxStep E → Option String
  | .heartbeat worker _ _ | .markProcessed worker _ _ _
  | .markFailed worker _ _ _ _ => some worker
  | _ => none

/-- A late mark or heartbeat is without effect. -/
theorem OutboxSystem.mark_frame {eventKey : E → String} {maxAttempts : Nat}
    (s : OutboxSystem E) {e : OutboxStep E} {worker : String}
    (he : e.marker = some worker) {id : Uuid} {r : DomainOutboxEvent E}
    (hfind : s.table.find? id = some r) (hnot : ¬ r.HeldBy worker) :
    (s.step eventKey maxAttempts e).table.find? id = some r := by
  have hframe : ∀ {id' g} (hg : ∀ r, (g r).id = r.id),
      (s.table.updateHeld worker id' g hg).find? id = some r := by
    intro id' g hg
    rw [DomainOutbox.find?_updateHeld, hfind, Option.map_some,
      if_neg fun h => hnot h.2]
  cases e with
  | heartbeat w i now =>
      cases he
      exact hframe fun r => r.id_renewed now
  | markProcessed w i now fault =>
      cases he
      show (s.markProcessed worker i now fault).table.find? id = _
      unfold markProcessed
      split
      · dsimp only
        rw [table_setAttempt, table_setTable]
        split
        · exact hfind
        · exact hframe fun r => r.id_done now
      · exact hfind
  | markFailed w i baseBackoffMs now fault =>
      cases he
      show (s.markFailed maxAttempts worker i baseBackoffMs now
        fault).table.find? id = _
      unfold markFailed
      split
      · dsimp only
        rw [table_setAttempt, table_setTable]
        split
        · exact hfind
        · exact hframe fun r => r.id_attemptFailed _ _ _ _
      · exact hfind
  | _ => cases he

/-- What the outbox guarantees in a state. -/
structure OutboxSafe (eventKey : E → String) (maxAttempts : Nat)
    (s : OutboxSystem E) : Prop where
  attempts : ∀ r ∈ s.table.rows, r.attempts ≤ maxAttempts
  locked : ∀ r ∈ s.table.rows,
    r.status = .processing ↔ r.lockedAt.isSome ∧ r.lockedBy.isSome
  processed : ∀ r ∈ s.table.rows,
    r.status = .processed ↔ r.processedAt.isSome
  handled : ∀ r ∈ s.table.rows, r.status = .processed → r.id ∈ s.returned
  retries : ∀ r ∈ s.table.rows,
    r.status = .pending → r.attempts < maxAttempts
  reachable : ∀ r ∈ s.table.rows, r.Reachable maxAttempts
  marks : ∀ e worker, e.marker = some worker → ∀ id r,
    s.table.find? id = some r → ¬ r.HeldBy worker →
      (s.step eventKey maxAttempts e).table.find? id = some r
  /-- A row past its timeout with no attempt left is failed by the next
  claim. -/
  givesUp : ∀ c id r, s.table.find? id = some r →
    r.Exhausted maxAttempts c.lockTimeoutMs c.now →
      (s.table.claimOutboxBatch maxAttempts c).2.find? id
        = some (r.givenUp c.now)
  /-- One with attempts left, or one that waits, is taken by it, with the
  two exceptions. -/
  takes : ∀ c id r, s.table.find? id = some r →
    r.Claimable maxAttempts c.lockTimeoutMs c.now →
      (s.table.claimOutboxBatch maxAttempts c).2.find? id
          = some (r.claimedBy c.workerId c.now)
        ∨ id ∈ c.locked
        ∨ (s.table.claimOutboxBatch maxAttempts c).1.length = c.batchSize
          ∧ ∀ x ∈ (s.table.claimOutboxBatch maxAttempts c).1, x.Before r
  later : ∀ steps id r, s.table.find? id = some r →
    ∃ r', (s.play eventKey maxAttempts steps).table.find? id
        = some r'
      ∧ r'.event = r.event ∧ (r.status = .processed → r' = r)

/-- In every state that workers, producers and retries can reach from an
empty outbox, in whatever order they take their steps, the table is well
formed, marks take effect for holders only, nothing leaves `processed` or
disappears, and every row that is neither processed nor failed comes to be
claimed or given up. -/
theorem outbox_safe (eventKey : E → String) {maxAttempts : Nat}
    (hmax : 0 < maxAttempts) (steps : List (OutboxStep E)) :
    OutboxSafe eventKey maxAttempts
      (OutboxSystem.start.play eventKey maxAttempts steps) := by
  have h : OutboxInv maxAttempts
      (OutboxSystem.start.play eventKey maxAttempts steps) :=
    OutboxInv.start.run hmax steps
  have hsound := fun r hr => h.sound (Table.find?_of_mem (r := r) hr)
  refine
    { attempts := fun r hr => (hsound r hr).attempts
      locked := ?_
      processed := ?_
      handled := fun r hr => h.processed (Table.find?_of_mem hr)
      retries := fun r hr => (hsound r hr).retries
      reachable := fun r hr => (hsound r hr).reachable
      marks := fun _ _ he _ _ hfind => OutboxSystem.mark_frame _ he hfind
      givesUp := fun c _ _ hfind => DomainOutbox.claim_givesUp c hfind
      takes := fun c _ _ hfind => DomainOutbox.claim_takes c hfind
      later := fun steps _ _ hfind => h.later hmax steps hfind }
  · intro r hr
    rcases (hsound r hr).lock with ⟨hs, hlocked⟩ | ⟨hs, hnone, -⟩
    · exact iff_of_true hs hlocked
    · refine iff_of_false hs ?_
      rw [hnone]
      nofun
  · intro r hr
    rcases (hsound r hr).processed with ⟨hs, hat⟩ | ⟨hs, hnone⟩
    · exact iff_of_true hs hat
    · refine iff_of_false hs ?_
      rw [hnone]
      nofun

/-- Two events, claimed by a worker that then stalls. -/
def stalledBatch : List (OutboxStep String) :=
  [.enqueue ⟨1⟩ "a" 0, .enqueue ⟨2⟩ "b" 0, .claim ⟨"A", 2, 100, 0, []⟩ none]

/-- A run in which the stalled worker's rows are claimed again, at first
one of the two, and the last claim finds that one expired on its last
attempt and the other one with an attempt left. -/
def stalledRun : List (OutboxStep String) :=
  stalledBatch ++ [.claim ⟨"B", 1, 100, 1000, []⟩ none,
    .markProcessed "A" ⟨1⟩ 1500 none, .claim ⟨"C", 2, 100, 2000, []⟩ none]

/-- Two workers of which one stalls: an expired claim is taken over, an
exhausted row is given up, and the late mark is without effect. -/
theorem outbox_safe_stalled : OutboxSafe id 2
      (OutboxSystem.start.play id 2 stalledRun)
    ∧ (OutboxSystem.start.play id 2 stalledRun).table.rows.map
        (fun r => (r.id, r.status, r.attempts, r.lockedBy))
      = [(⟨1⟩, .failed, 2, none), (⟨2⟩, .processing, 2, some "C")] :=
  ⟨outbox_safe id (by decide) stalledRun, by decide +kernel⟩

/-- A claim takes no more than its batch: the second of two rows whose
lease ran out is left by the next claim. -/
theorem stalled_left_by_small_batch :
    ∃ r, (OutboxSystem.start.play id 3 stalledBatch).table.find? ⟨2⟩ = some r
      ∧ r.status = .processing ∧ r.LockExpired 100 1000
      ∧ ((OutboxSystem.start.play id 3
        (stalledBatch ++ [.claim ⟨"B", 1, 100, 1000, []⟩
          none])).table.find? ⟨2⟩).map (fun r => (r.status, r.lockedBy,
            r.lockedAt)) = some (.processing, some "A", some 0) := by
  have hrow : ((OutboxSystem.start.play id 3 stalledBatch).table.find?
      ⟨2⟩).map (fun r => (r.status, r.lockedAt))
      = some (.processing, some 0) := by
    decide +kernel
  obtain ⟨r, hr, hfields⟩ := Option.map_eq_some_iff.mp hrow
  simp only [Prod.mk.injEq] at hfields
  refine ⟨r, hr, hfields.1, ?_, by decide +kernel⟩
  unfold DomainOutboxEvent.LockExpired
  rw [hfields.2]
  decide

end Skrynia
