/-
What one step of an idempotent call does.

`IdempotencySystem.call` is what belongs to one call, and `Moved` says
what a step does to the call that takes it and to the committed rows.
Every other call stays as it is (`step_moves`).
-/
import Skrynia.Idempotency.Transaction

namespace Skrynia

open Relational Stepping

variable {A B E : Type}

-- ================================================================== rows

namespace StoredIdempotencyRow

variable {r : StoredIdempotencyRow B} {input : IdempotentInput}
  {response : IdempotentResponse (JsonBody B)}

/-- The row was inserted by a call with this input. -/
structure For (r : StoredIdempotencyRow B) (input : IdempotentInput) :
    Prop where
  key : r.key = input.key
  requestHash : r.requestHash = input.requestHash

/-- The row has this response. -/
structure Stores (r : StoredIdempotencyRow B)
    (response : IdempotentResponse (JsonBody B)) : Prop where
  status : r.status = .completed
  responseStatus : r.responseStatus = some response.statusCode
  responseBody : r.responseBody = some response.body
  resourceId : r.resourceId = response.resourceId

/-- A row that is claimed is for its input. -/
theorem claimed_for (clock : Timestamp) :
    (claimed input clock : StoredIdempotencyRow B).For input :=
  ⟨rfl, rfl⟩

/-- It stays so when it is completed. -/
theorem For.completedBy (h : r.For input) :
    (r.completedBy response).For input :=
  ⟨h.key, h.requestHash⟩

/-- A completed row has its response. -/
theorem completedBy_stores : (r.completedBy response).Stores response :=
  ⟨rfl, rfl, rfl, rfl⟩

/-- A row has one response. -/
theorem Stores.unique {response' : IdempotentResponse (JsonBody B)}
    (h : r.Stores response) (h' : r.Stores response') :
    response = response' := by
  obtain ⟨statusCode, body, resourceId⟩ := response
  obtain ⟨statusCode', body', resourceId'⟩ := response'
  have hstatus := Option.some.inj
    (h.responseStatus.symm.trans h'.responseStatus)
  have hbody := Option.some.inj (h.responseBody.symm.trans h'.responseBody)
  have hresource := h.resourceId.symm.trans h'.resourceId
  rw [IdempotentResponse.mk.injEq]
  exact ⟨hstatus, hbody, hresource⟩

/-- A row with another hash is not replayed. -/
theorem replay_of_ne {requestHash : String} (h : r.requestHash ≠ requestHash) :
    r.replay requestHash = .error keyReused := by
  unfold replay
  rw [if_pos h]

/-- What is replayed is what the row stores. -/
theorem stores_of_replay {requestHash : String} {replayed : Bool}
    (h : r.replay requestHash = .ok (response, replayed)) :
    r.requestHash = requestHash ∧ r.Stores response ∧ replayed = true := by
  unfold replay at h
  split at h
  · cases h
  · next hhash =>
    split at h
    · cases h
    · next hstatus =>
      split at h
      · next statusCode body hcode hbody =>
        cases h
        obtain ⟨b, hb, hsome⟩ := Option.bind_eq_some_iff.mp hbody
        rw [id_eq] at hsome
        refine ⟨not_not.mp hhash, ⟨not_not.mp hstatus, hcode, ?_, rfl⟩, rfl⟩
        rw [hb, hsome]
      · cases h

end StoredIdempotencyRow

-- ================================================================= calls

/-- What belongs to one call. -/
structure IdempotentCall (A B E : Type) where
  phase : IdempotentPhase A B
  claims : List (StoredIdempotencyRow B)
  deletions : List IdempotencyKey
  writes : List E
  committed : List (StoredIdempotencyRow B)
  effects : List E

namespace IdempotencySystem

variable (s : IdempotencySystem A B E) (c : Nat)

/-- What belongs to one call. -/
def call : IdempotentCall A B E where
  phase := s.phase c
  claims := s.claims.of c
  deletions := s.deletions.of c
  writes := s.writes.of c
  committed := s.committed.of c
  effects := s.effects.of c

/-- What a step does to the committed rows and to the call that takes
it. -/
inductive Moved (e : IdempotencyEvent A E)
    (normalizeResponseBody : A → Option (JsonBody B)) :
    IdempotencyKeys B → IdempotentCall A B E → Prop
  | stays : Moved e normalizeResponseBody s.rows (s.call c)
  | begins (input : IdempotentInput) (now : Timestamp)
      (hphase : s.phase c = .idle) :
      Moved e normalizeResponseBody s.rows
        { s.call c with phase := .cleanup input now }
  | cleans (input : IdempotentInput) (now : Timestamp)
      (keys : List IdempotencyKey) (he : e = .cleanup c)
      (hphase : s.phase c = .cleanup input now)
      (hexpired : ∀ k ∈ keys, ∃ r, s.rows.find? k = some r
        ∧ r.expiresAt ≤ now)
      (hfree : ∀ k ∈ keys, ¬ s.deletions.ByOther c (· = k))
      (hown : ∀ r, s.rows.find? input.key = some r → r.expiresAt ≤ now →
        input.key ∈ keys) :
      Moved e normalizeResponseBody s.rows
        { s.call c with
          phase := .claim input now
          deletions := s.deletions.of c ++ keys }
  | refused (input : IdempotentInput) (now clock : Timestamp)
      (he : e = .claim c clock) (hphase : s.phase c = .claim input now)
      (hpast : clock + input.ttlMs.getD defaultTtlMs ≤ now) :
      Moved e normalizeResponseBody s.rows
        { s.call c with
          phase := .finish input
            (.error (.violation "idempotency_keys_expiry_check")) }
  | conflicts (input : IdempotentInput) (now : Timestamp)
      (row : StoredIdempotencyRow B) (hphase : s.phase c = .claim input now)
      (hrow : s.rows.find? input.key = some row)
      (hkept : input.key ∉ s.deletions.of c) :
      Moved e normalizeResponseBody s.rows
        { s.call c with phase := .lookup input }
  | claims (input : IdempotentInput) (now clock : Timestamp)
      (hphase : s.phase c = .claim input now)
      (hfree : ¬ s.Blocked c input.key)
      (hremoved : ∀ r, s.rows.find? input.key = some r →
        input.key ∈ s.deletions.of c) :
      Moved e normalizeResponseBody s.rows
        { s.call c with
          phase := .execute input
          claims := s.claims.of c ++ [.claimed input clock] }
  | returns (input : IdempotentInput) (response : IdempotentResponse A)
      (written : List E) (hphase : s.phase c = .execute input) :
      Moved e normalizeResponseBody s.rows
        { s.call c with
          phase := .complete input response
          writes := s.writes.of c ++ written }
  | throws (input : IdempotentInput) (error : Failure) (written : List E)
      (hphase : s.phase c = .execute input) :
      Moved e normalizeResponseBody s.rows
        { s.call c with
          phase := .finish input (.error error)
          writes := s.writes.of c ++ written }
  | completes (input : IdempotentInput) (executed : IdempotentResponse A)
      (body : JsonBody B) (hphase : s.phase c = .complete input executed)
      (hbody : normalizeResponseBody executed.body = some body) :
      Moved e normalizeResponseBody s.rows
        { s.call c with
          phase := .finish input (.ok
            (⟨executed.statusCode, body, executed.resourceId⟩, false))
          claims := (s.claims.of c).map fun r => r.completedBy
            ⟨executed.statusCode, body, executed.resourceId⟩ }
  | spoils (input : IdempotentInput) (executed : IdempotentResponse A)
      (error : Failure) (hphase : s.phase c = .complete input executed) :
      Moved e normalizeResponseBody s.rows
        { s.call c with phase := .finish input (.error error) }
  | replays (input : IdempotentInput) (row : StoredIdempotencyRow B)
      (hphase : s.phase c = .lookup input)
      (hrow : s.rows.find? input.key = some row) :
      Moved e normalizeResponseBody s.rows
        { s.call c with phase := .finish input (row.replay input.requestHash) }
  | misses (input : IdempotentInput) (hphase : s.phase c = .lookup input)
      (hnone : ∀ r, s.rows.find? input.key = some r →
        input.key ∈ s.deletions.of c) :
      Moved e normalizeResponseBody s.rows
        { s.call c with
          phase := .finish input (.error
            (.error "Idempotency key conflicted but could not be read")) }
  | commits (input : IdempotentInput)
      (answer : IdempotentResponse (JsonBody B) × Bool)
      (hphase : s.phase c = .finish input (.ok answer)) :
      Moved e normalizeResponseBody
        ((s.claims.of c).foldl Table.upsert
          (s.rows.delete fun r => r.key ∈ s.deletions.of c))
        ⟨.ended input (.ok answer), [], [], [],
          s.committed.of c ++ s.claims.of c, s.effects.of c ++ s.writes.of c⟩
  | rollsBack (input : IdempotentInput) (error : Failure)
      (hphase : s.phase c = .finish input (.error error)) :
      Moved e normalizeResponseBody s.rows
        ⟨.ended input (.error error), [], [], [], s.committed.of c,
          s.effects.of c⟩

end IdempotencySystem

/-- The call that takes the step. -/
def IdempotencyEvent.caller : IdempotencyEvent A E → Nat
  | .begin_ c _ _ | .cleanup c | .claim c _ | .executeReturns c _ _
  | .executeThrows c _ _ | .complete c | .lookup c | .finish c => c

namespace IdempotencySystem

variable {s : IdempotencySystem A B E} {c : Nat} {e : IdempotencyEvent A E}
  {normalizeResponseBody : A → Option (JsonBody B)}

/-- One step: what it does to its own call, and the frame. -/
structure Moves (e : IdempotencyEvent A E)
    (normalizeResponseBody : A → Option (JsonBody B))
    (s : IdempotencySystem A B E) (c : Nat) (s' : IdempotencySystem A B E) :
    Prop where
  own : s.Moved c e normalizeResponseBody s'.rows (s'.call c)
  frame : ∀ c', c' ≠ c → s'.call c' = s.call c'

/-- A call may stay as it is. -/
theorem Moves.stays : Moves e normalizeResponseBody s c s where
  own := .stays
  frame _ _ := rfl

/-- A call is in the phase that was set. -/
@[simp] theorem phase_setPhase_self (p : IdempotentPhase A B) :
    (s.setPhase c p).phase c = p :=
  if_pos rfl

/-- And holds what it held. -/
theorem call_setPhase_self (p : IdempotentPhase A B) :
    (s.setPhase c p).call c = { s.call c with phase := p } := by
  show IdempotentCall.mk ((s.setPhase c p).phase c) _ _ _ _ _ = _
  rw [phase_setPhase_self]
  rfl

/-- The other calls stay as they are. -/
theorem call_setPhase_of_ne {c' : Nat} (h : c' ≠ c)
    (p : IdempotentPhase A B) : (s.setPhase c p).call c' = s.call c' := by
  have hphase : (s.setPhase c p).phase c' = s.phase c' := if_neg h
  show IdempotentCall.mk ((s.setPhase c p).phase c') _ _ _ _ _ = _
  rw [hphase]
  rfl

/-- Steps that only change the phase. -/
theorem Moves.setPhase {p : IdempotentPhase A B}
    (h : s.Moved c e normalizeResponseBody s.rows { s.call c with phase := p }) :
    Moves e normalizeResponseBody s c (s.setPhase c p) where
  own := by
    rw [call_setPhase_self]
    exact h
  frame c' hne := call_setPhase_of_ne hne p

/-- A cleanup selects rows that have expired and that nobody has locked. -/
theorem expired_of_mem_expiredBatch {now : Timestamp}
    {locked : List IdempotencyKey} {k : IdempotencyKey}
    (h : k ∈ s.expiredBatch now locked) :
    k ∉ locked ∧ ∃ r, s.rows.find? k = some r ∧ r.expiresAt ≤ now := by
  unfold expiredBatch at h
  obtain ⟨r, hr, rfl⟩ := List.mem_map.mp h
  have hr := (List.mem_insertionSort _).mp (List.mem_of_mem_take hr)
  obtain ⟨hmem, hexpired⟩ := List.mem_filter.mp hr
  rw [decide_eq_true_eq] at hexpired
  exact ⟨hexpired.2, r, Table.find?_of_mem hmem, hexpired.1⟩

/-- The cleanup takes expired rows: its own key, for which it waits while
another call removes it, and a batch of others, of which it skips the locked
ones. -/
theorem cleanupExpiredKeys_moves {input : IdempotentInput} {now : Timestamp}
    (hphase : s.phase c = .cleanup input now) :
    Moves (.cleanup c) normalizeResponseBody s c
      (s.cleanupExpiredKeys c input now) := by
  unfold cleanupExpiredKeys
  extract_lets own
  split
  · exact .stays
  · rename_i batch _ hfree
    have hown : ∀ k ∈ own, k = input.key
        ∧ ∃ r, s.rows.find? k = some r ∧ r.expiresAt ≤ now := by
      intro k hk
      simp only [own] at hk
      split at hk
      · next hany =>
        rw [List.mem_singleton] at hk
        rw [hk]
        obtain ⟨r, hr, hexpired⟩ := Option.any_eq_true _ _ |>.mp hany
        exact ⟨rfl, r, hr, of_decide_eq_true hexpired⟩
      · cases hk
    refine ⟨?_, ?_⟩
    · have hcall : IdempotencySystem.call
          { s.setPhase c (.claim input now) with
            deletions := s.deletions.add c (own ++ batch) } c
          = { s.call c with
              phase := .claim input now
              deletions := s.deletions.of c ++ (own ++ batch) } := by
        show IdempotentCall.mk ((s.setPhase c _).phase c) _
          ((s.deletions.add c _).of c) _ _ _ = _
        rw [phase_setPhase_self, Held.of_add_self]
        rfl
      rw [hcall]
      refine .cleans input now (own ++ batch) rfl hphase ?_ ?_ ?_
      · intro k hk
        rcases List.mem_append.mp hk with hk | hk
        · exact (hown k hk).2
        · exact (expired_of_mem_expiredBatch hk).2
      · intro k hk hother
        rcases List.mem_append.mp hk with hk | hk
        · apply hfree
          rw [(hown k hk).1] at hother
          exact ⟨List.ne_nil_of_mem hk, hother⟩
        · obtain ⟨x, hx, -, hxk⟩ := hother
          apply (expired_of_mem_expiredBatch hk).1
          rw [← hxk]
          exact List.mem_append_right _ (List.mem_map_of_mem hx)
      · intro r hr hexpired
        apply List.mem_append_left
        simp only [own]
        rw [hr, if_pos]
        · exact List.mem_singleton_self _
        · simpa using hexpired
    · intro c' hne
      show IdempotentCall.mk ((s.setPhase c _).phase c') _
        ((s.deletions.add c _).of c') _ _ _ = _
      rw [Held.of_add_ne hne]
      exact call_setPhase_of_ne hne _

/-- What `visible` hides is about to be removed by the call itself. -/
theorem visible_eq_some {k : IdempotencyKey} {row : StoredIdempotencyRow B} :
    s.visible c k = some row
      ↔ s.rows.find? k = some row ∧ k ∉ s.deletions.of c := by
  unfold visible
  rw [Option.filter_eq_some_iff, decide_eq_true_eq]

/-- A call sees the committed rows that it has not deleted itself. -/
theorem visible_eq_none {k : IdempotencyKey} : s.visible c k = none
    ↔ ∀ r, s.rows.find? k = some r → k ∈ s.deletions.of c := by
  rw [Option.eq_none_iff_forall_ne_some]
  refine forall_congr' fun r => ?_
  rw [Ne, visible_eq_some, not_and, not_not]

/-- A claim inserts its row, waits, or finds the key taken. -/
theorem claim_moves {input : IdempotentInput} {now : Timestamp}
    (hphase : s.phase c = .claim input now) (clock : Timestamp) :
    Moves (.claim c clock) normalizeResponseBody s c
      (s.claim c input now clock) := by
  unfold claim
  split
  · next hpast => exact .setPhase (.refused input now clock rfl hphase hpast)
  · split
    · exact .stays
    · next hfree =>
      cases hrow : s.visible c input.key with
      | some row =>
          obtain ⟨hrow, hkept⟩ := visible_eq_some.mp hrow
          exact .setPhase (.conflicts input now row hphase hrow hkept)
      | none =>
          rw [if_neg (by simp)]
          refine ⟨?_, ?_⟩
          · have hcall : IdempotencySystem.call
                { s.setPhase c (.execute input) with
                  claims := s.claims.add c [.claimed input clock] } c
                = { s.call c with
                    phase := .execute input
                    claims := s.claims.of c ++ [.claimed input clock] } := by
              show IdempotentCall.mk ((s.setPhase c _).phase c)
                ((s.claims.add c _).of c) _ _ _ _ = _
              rw [phase_setPhase_self, Held.of_add_self]
              rfl
            rw [hcall]
            exact .claims input now clock hphase hfree
              (visible_eq_none.mp hrow)
          · intro c' hne
            show IdempotentCall.mk ((s.setPhase c _).phase c')
              ((s.claims.add c _).of c') _ _ _ _ = _
            rw [Held.of_add_ne hne]
            exact call_setPhase_of_ne hne _

/-- `execute` wrote something and the phase changes. -/
theorem Moves.write {p : IdempotentPhase A B} {written : List E}
    (h : s.Moved c e normalizeResponseBody s.rows
      { s.call c with phase := p, writes := s.writes.of c ++ written }) :
    Moves e normalizeResponseBody s c ((s.write c written).setPhase c p) where
  own := by
    rw [call_setPhase_self]
    have hwrites : (s.write c written).writes.of c = s.writes.of c ++ written :=
      Held.of_add_self
    show s.Moved c _ _ s.rows (IdempotentCall.mk p _ _
      ((s.write c written).writes.of c) _ _)
    rw [hwrites]
    exact h
  frame c' hne := by
    rw [call_setPhase_of_ne hne]
    show IdempotentCall.mk _ _ _ ((s.writes.add c written).of c') _ _ = _
    rw [Held.of_add_ne hne]
    rfl

/-- A completion stores the response in the call's own row. -/
theorem complete_moves {input : IdempotentInput}
    {executed : IdempotentResponse A}
    (hphase : s.phase c = .complete input executed) :
    Moves e normalizeResponseBody s c
      (s.complete normalizeResponseBody c input executed) := by
  unfold complete
  split
  · exact .setPhase (.spoils input executed _ hphase)
  · next body hbody =>
    extract_lets response
    split
    · exact .setPhase (.spoils input executed _ hphase)
    · split
      · refine ⟨?_, ?_⟩
        · have hcall : IdempotencySystem.call
              { s.setPhase c (.finish input (.ok (response, false))) with
                claims := s.claims.update c fun r => r.completedBy response } c
              = { s.call c with
                  phase := .finish input (.ok (response, false))
                  claims := (s.claims.of c).map fun r =>
                    r.completedBy response } := by
            show IdempotentCall.mk ((s.setPhase c _).phase c)
              ((s.claims.update c fun r => r.completedBy response).of c)
              _ _ _ _ = _
            rw [phase_setPhase_self, Held.of_update_self]
            rfl
          rw [hcall]
          exact .completes input executed body hphase hbody
        · intro c' hne
          show IdempotentCall.mk ((s.setPhase c _).phase c')
            ((s.claims.update c fun r => r.completedBy response).of c')
            _ _ _ _ = _
          rw [Held.of_update_ne hne]
          exact call_setPhase_of_ne hne _
      · exact .setPhase (.spoils input executed _ hphase)

/-- A lookup answers with the row that it finds. -/
theorem lookup_moves {input : IdempotentInput}
    (hphase : s.phase c = .lookup input) :
    Moves e normalizeResponseBody s c (s.lookup c input) := by
  unfold lookup
  cases hrow : s.visible c input.key with
  | none =>
      exact .setPhase (.misses input hphase (visible_eq_none.mp hrow))
  | some row =>
      exact .setPhase (.replays input row hphase (visible_eq_some.mp hrow).1)

/-- Who ends a transaction lets go of its own locks only. -/
theorem call_release_of_ne {c' : Nat} (h : c' ≠ c) :
    (s.release c).call c' = s.call c' := by
  show IdempotentCall.mk _ ((s.claims.release c).of c')
    ((s.deletions.release c).of c') ((s.writes.release c).of c') _ _ = _
  rw [Held.of_release_ne h, Held.of_release_ne h, Held.of_release_ne h]
  rfl

/-- A transaction commits all that it holds, or nothing. -/
theorem finish_moves {input : IdempotentInput} {answer : IdempotentAnswer B}
    (hphase : s.phase c = .finish input answer) :
    Moves e normalizeResponseBody s c (s.finish c input answer) := by
  cases answer with
  | error error =>
      refine ⟨?_, ?_⟩
      · show s.Moved c _ _ s.rows (((s.release c).setPhase c _).call c)
        rw [call_setPhase_self]
        show s.Moved c _ _ s.rows (IdempotentCall.mk _ ((s.claims.release c).of c)
          ((s.deletions.release c).of c) ((s.writes.release c).of c) _ _)
        rw [Held.of_release_self, Held.of_release_self, Held.of_release_self]
        exact .rollsBack input error hphase
      · intro c' hne
        show ((s.release c).setPhase c _).call c' = _
        rw [call_setPhase_of_ne hne, call_release_of_ne hne]
  | ok answer =>
      refine ⟨?_, ?_⟩
      · show s.Moved c _ _ _ (((s.commit c).setPhase c _).call c)
        rw [call_setPhase_self]
        show s.Moved c _ _ _ (IdempotentCall.mk _ ((s.claims.release c).of c)
          ((s.deletions.release c).of c) ((s.writes.release c).of c)
          ((s.committed.add c _).of c) ((s.effects.add c _).of c))
        rw [Held.of_release_self, Held.of_release_self, Held.of_release_self,
          Held.of_add_self, Held.of_add_self]
        exact .commits input answer hphase
      · intro c' hne
        show ((s.commit c).setPhase c _).call c' = _
        rw [call_setPhase_of_ne hne]
        show IdempotentCall.mk _ ((s.claims.release c).of c')
          ((s.deletions.release c).of c') ((s.writes.release c).of c')
          ((s.committed.add c _).of c') ((s.effects.add c _).of c') = _
        rw [Held.of_release_ne hne, Held.of_release_ne hne,
          Held.of_release_ne hne, Held.of_add_ne hne, Held.of_add_ne hne]
        rfl

/-- Each event is such a step of its own call. -/
theorem step_moves (normalizeResponseBody : A → Option (JsonBody B))
    (s : IdempotencySystem A B E) (e : IdempotencyEvent A E) :
    Moves e normalizeResponseBody s e.caller
      (s.step normalizeResponseBody e) := by
  cases e with
  | begin_ c input now =>
      simp only [step]
      split
      · next hphase => exact .setPhase (.begins input now hphase)
      · exact .stays
  | cleanup c =>
      simp only [step]
      split
      · next hphase => exact cleanupExpiredKeys_moves hphase
      · exact .stays
  | claim c clock =>
      simp only [step]
      split
      · next hphase => exact claim_moves hphase clock
      · exact .stays
  | executeReturns c response written =>
      simp only [step]
      split
      · next input hphase =>
        exact .write (.returns input response written hphase)
      · exact .stays
  | executeThrows c error written =>
      simp only [step]
      split
      · next input hphase =>
        exact .write (.throws input error written hphase)
      · exact .stays
  | complete c =>
      simp only [step]
      split
      · next hphase => exact complete_moves hphase
      · exact .stays
  | lookup c =>
      simp only [step]
      split
      · next hphase => exact lookup_moves hphase
      · exact .stays
  | finish c =>
      simp only [step]
      split
      · next hphase => exact finish_moves hphase
      · exact .stays

end IdempotencySystem

end Skrynia
