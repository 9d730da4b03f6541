/-
At most one execution per idempotency key, in every run.

Any number of calls run at once. While a key's row has not expired, one
execution under the key commits, the calls that succeed all answer with
its response, and calls with another request are turned away. A call that
fails leaves nothing behind, so that a retry may execute.

# The invariants

Each is one case analysis over `Moved`:

- `IdempotentCall.Holds`: what a call holds in each phase;
- `Exclusive`: no two calls hold one key, and who inserts a key is about
  to remove the row that has it;
- `Period`: once an execution under the key has committed, nobody can
  remove its row or insert another, and every call that reads finds it.
-/
import Skrynia.Idempotency.Calls

namespace Skrynia

open Relational Stepping

variable {A B E : Type}

-- ============================================================== one call

namespace IdempotentCall

/-- The call has inserted and written nothing. -/
structure Fresh (v : IdempotentCall A B E) : Prop where
  claims : v.claims = []
  writes : v.writes = []
  committed : v.committed = []
  effects : v.effects = []

/-- The call holds the row that it inserted. -/
structure Claimed (v : IdempotentCall A B E) (input : IdempotentInput)
    (row : StoredIdempotencyRow B) : Prop where
  claims : v.claims = [row]
  row : row.For input
  committed : v.committed = []
  effects : v.effects = []

/-- The call has committed its one row and holds nothing. -/
structure Committed (v : IdempotentCall A B E) (input : IdempotentInput)
    (row : StoredIdempotencyRow B) : Prop where
  claims : v.claims = []
  writes : v.writes = []
  committed : v.committed = [row]
  row : row.For input

/-- What a call holds in a phase. -/
def Holds (v : IdempotentCall A B E) : IdempotentPhase A B → Prop
  | .idle | .cleanup _ _ | .claim _ _ | .lookup _ => v.Fresh
  | .execute input => ∃ row, v.Claimed input row ∧ v.writes = []
  | .complete input _ => ∃ row, v.Claimed input row
  | .finish input (.ok (response, false)) =>
      ∃ row, v.Claimed input row ∧ row.Stores response
  | .finish _ (.ok (_, true)) => v.Fresh
  | .finish input (.error _) => v.Fresh ∨ ∃ row, v.Claimed input row
  | .ended input (.ok (response, false)) =>
      ∃ row, v.Committed input row ∧ row.Stores response
  | .ended _ _ => v.Fresh

end IdempotentCall

namespace IdempotencySystem

variable {s : IdempotencySystem A B E} {c : Nat} {e : IdempotencyEvent A E}
  {normalizeResponseBody : A → Option (JsonBody B)}
  {rows : IdempotencyKeys B} {v : IdempotentCall A B E}

/-- Every call holds what its phase allows. -/
def Sound (s : IdempotencySystem A B E) : Prop :=
  ∀ c, (s.call c).Holds (s.phase c)

/-- A call holds what its phase says after each of its steps: the claim of
its key from the insert on, and its effects from the end of `execute`. -/
theorem Moved.holds (hm : s.Moved c e normalizeResponseBody rows v)
    (h : (s.call c).Holds (s.phase c)) : v.Holds v.phase := by
  cases hm with
  | stays => exact h
  | begins input now hphase =>
      rw [hphase] at h
      exact ⟨h.claims, h.writes, h.committed, h.effects⟩
  | cleans input now keys he hphase =>
      rw [hphase] at h
      exact ⟨h.claims, h.writes, h.committed, h.effects⟩
  | refused input now clock he hphase =>
      rw [hphase] at h
      exact .inl ⟨h.claims, h.writes, h.committed, h.effects⟩
  | conflicts input now row hphase =>
      rw [hphase] at h
      exact ⟨h.claims, h.writes, h.committed, h.effects⟩
  | claims input now clock hphase =>
      rw [hphase] at h
      have hclaims : s.claims.of c = [] := h.claims
      refine ⟨.claimed input clock, ⟨?_, StoredIdempotencyRow.claimed_for clock,
        h.committed, h.effects⟩, h.writes⟩
      show s.claims.of c ++ [_] = _
      rw [hclaims]
      rfl
  | returns input response written hphase =>
      rw [hphase] at h
      obtain ⟨row, hrow, -⟩ := h
      exact ⟨row, hrow.claims, hrow.row, hrow.committed, hrow.effects⟩
  | throws input error written hphase =>
      rw [hphase] at h
      obtain ⟨row, hrow, -⟩ := h
      exact .inr ⟨row, hrow.claims, hrow.row, hrow.committed, hrow.effects⟩
  | completes input executed body hphase =>
      rw [hphase] at h
      obtain ⟨row, hrow⟩ := h
      have hclaims : s.claims.of c = [row] := hrow.claims
      refine ⟨row.completedBy ⟨executed.statusCode, body,
        executed.resourceId⟩, ⟨?_, hrow.row.completedBy, hrow.committed,
          hrow.effects⟩, StoredIdempotencyRow.completedBy_stores⟩
      show (s.claims.of c).map _ = _
      rw [hclaims]
      rfl
  | spoils input executed error hphase =>
      rw [hphase] at h
      obtain ⟨row, hrow⟩ := h
      exact .inr ⟨row, hrow.claims, hrow.row, hrow.committed, hrow.effects⟩
  | replays input row hphase =>
      rw [hphase] at h
      have hfresh : ({ s.call c with
          phase := .finish input (row.replay input.requestHash)
            } : IdempotentCall A B E).Fresh :=
        ⟨h.claims, h.writes, h.committed, h.effects⟩
      cases hanswer : row.replay input.requestHash with
      | error error =>
          rw [hanswer] at hfresh
          exact .inl hfresh
      | ok answer =>
          obtain ⟨response, replayed⟩ := answer
          obtain ⟨-, -, rfl⟩ := StoredIdempotencyRow.stores_of_replay hanswer
          rw [hanswer] at hfresh
          exact hfresh
  | misses input hphase =>
      rw [hphase] at h
      exact .inl ⟨h.claims, h.writes, h.committed, h.effects⟩
  | commits input answer hphase =>
      rw [hphase] at h
      obtain ⟨response, replayed⟩ := answer
      cases replayed with
      | false =>
          obtain ⟨row, hrow, hstores⟩ := h
          have hclaims : s.claims.of c = [row] := hrow.claims
          have hcommitted : s.committed.of c = [] := hrow.committed
          refine ⟨row, ⟨rfl, rfl, ?_, hrow.row⟩, hstores⟩
          show s.committed.of c ++ s.claims.of c = _
          rw [hclaims, hcommitted]
          rfl
      | true =>
          have hclaims : s.claims.of c = [] := h.claims
          have hwrites : s.writes.of c = [] := h.writes
          have hcommitted : s.committed.of c = [] := h.committed
          have heffects : s.effects.of c = [] := h.effects
          refine ⟨rfl, rfl, ?_, ?_⟩
          · show s.committed.of c ++ s.claims.of c = _
            rw [hclaims, hcommitted]
            rfl
          · show s.effects.of c ++ s.writes.of c = _
            rw [hwrites, heffects]
            rfl
  | rollsBack input error hphase =>
      rw [hphase] at h
      rcases h with h | ⟨row, h⟩
      · exact ⟨rfl, rfl, h.committed, h.effects⟩
      · exact ⟨rfl, rfl, h.committed, h.effects⟩

/-- So all calls hold what their phases say. -/
theorem Moves.sound {s' : IdempotencySystem A B E}
    (hm : Moves e normalizeResponseBody s c s') (h : s.Sound) :
    s'.Sound := by
  intro c'
  by_cases hc : c' = c
  · rw [hc]
    exact hm.own.holds (h c)
  · have hcall := hm.frame c' hc
    have hphase : s'.phase c' = s.phase c' :=
      congrArg IdempotentCall.phase hcall
    rw [hcall, hphase]
    exact h c'

/-- At the start nobody holds anything. -/
theorem sound_start (rows : IdempotencyKeys B) :
    (start rows : IdempotencySystem A B E).Sound :=
  fun _ => ⟨rfl, rfl, rfl, rfl⟩

-- ============================================ what a step does to a key

/-- A row after a commit was there before, or the call has inserted it. -/
theorem find?_foldl_upsert {t : IdempotencyKeys B}
    {l : List (StoredIdempotencyRow B)} {k : IdempotencyKey}
    {r : StoredIdempotencyRow B}
    (h : (l.foldl Table.upsert t).find? k = some r) :
    t.find? k = some r ∨ r ∈ l ∧ r.key = k := by
  induction l generalizing t with
  | nil => exact .inl h
  | cons x l ih =>
      rcases ih h with hfind | ⟨hmem, hk⟩
      · rw [Table.find?_upsert] at hfind
        split at hfind
        · next hx =>
          cases hold : t.find? k with
          | some r' =>
              rw [hold] at hfind
              exact .inl hfind
          | none =>
              rw [hold] at hfind
              cases hfind
              exact .inr ⟨List.mem_cons_self, hx⟩
        · exact .inl hfind
      · exact .inr ⟨List.mem_cons_of_mem _ hmem, hk⟩

/-- Rows of other keys do not change what a key finds. -/
theorem find?_foldl_upsert_of_ne {t : IdempotencyKeys B}
    {l : List (StoredIdempotencyRow B)} {k : IdempotencyKey}
    (h : ∀ r ∈ l, r.key ≠ k) :
    (l.foldl Table.upsert t).find? k = t.find? k := by
  induction l generalizing t with
  | nil => rfl
  | cons x l ih =>
      rw [List.foldl_cons, ih fun r hr => h r (List.mem_cons_of_mem _ hr),
        Table.find?_upsert, if_neg (h x List.mem_cons_self)]

/-- A row that is there after a step was there before, or was committed by
it. -/
theorem Moved.row (hm : s.Moved c e normalizeResponseBody rows v)
    {k : IdempotencyKey} {r : StoredIdempotencyRow B}
    (h : rows.find? k = some r) :
    s.rows.find? k = some r
      ∨ r ∈ v.committed ∧ r ∈ s.claims.of c ∧ r.key = k := by
  cases hm with
  | commits input answer hphase =>
      rcases find?_foldl_upsert h with hfind | ⟨hmem, hk⟩
      · rw [Table.find?_delete, Option.filter_eq_some_iff] at hfind
        exact .inl hfind.1
      · exact .inr ⟨List.mem_append_right _ hmem, hmem, hk⟩
  | _ => exact .inl h

/-- A key that the call neither removes nor inserts. -/
theorem Moved.find?_of_kept
    (hm : s.Moved c e normalizeResponseBody rows v) {k : IdempotencyKey}
    (hkept : k ∉ s.deletions.of c) (hclaims : ∀ r ∈ s.claims.of c, r.key ≠ k) :
    rows.find? k = s.rows.find? k := by
  cases hm with
  | commits input answer hphase =>
      rw [find?_foldl_upsert_of_ne hclaims, Table.find?_delete]
      cases hfind : s.rows.find? k with
      | none => rfl
      | some r =>
          rw [Option.filter_some, if_pos]
          rw [Table.key_of_find? hfind]
          simpa using hkept
  | _ => rfl

/-- A row that the call holds after the step. -/
theorem Moved.claim (hm : s.Moved c e normalizeResponseBody rows v)
    {r : StoredIdempotencyRow B} (h : r ∈ v.claims) :
    rows = s.rows ∧ (∀ k ∈ s.deletions.of c, k ∈ v.deletions)
      ∧ ((∃ r₀ ∈ s.claims.of c, r₀.key = r.key)
        ∨ ¬ s.Blocked c r.key ∧ ∀ r', s.rows.find? r.key = some r' →
          r.key ∈ s.deletions.of c) := by
  cases hm with
  | cleans input now keys =>
      exact ⟨rfl, fun k hk => List.mem_append_left _ hk, .inl ⟨r, h, rfl⟩⟩
  | claims input now clock hphase hfree hremoved =>
      refine ⟨rfl, fun _ hk => hk, ?_⟩
      rcases List.mem_append.mp h with h | h
      · exact .inl ⟨r, h, rfl⟩
      · rw [List.mem_singleton.mp h]
        exact .inr ⟨hfree, hremoved⟩
  | completes input executed body =>
      obtain ⟨r₀, hr₀, rfl⟩ := List.mem_map.mp h
      exact ⟨rfl, fun _ hk => hk, .inl ⟨r₀, hr₀, rfl⟩⟩
  | commits input answer => cases h
  | rollsBack input error => cases h
  | _ => exact ⟨rfl, fun _ hk => hk, .inl ⟨r, h, rfl⟩⟩

/-- A key that the call is about to remove after the step. -/
theorem Moved.deletion (hm : s.Moved c e normalizeResponseBody rows v)
    {k : IdempotencyKey} (h : k ∈ v.deletions) :
    k ∈ s.deletions.of c
      ∨ ¬ s.deletions.ByOther c (· = k) ∧ e = .cleanup c
        ∧ ∃ input now, s.phase c = .cleanup input now
          ∧ ∃ r, s.rows.find? k = some r ∧ r.expiresAt ≤ now := by
  cases hm with
  | cleans input now keys he hphase hexpired hfree =>
      rcases List.mem_append.mp h with h | h
      · exact .inl h
      · exact .inr ⟨hfree k h, he, input, now, hphase, hexpired k h⟩
  | commits input answer => cases h
  | rollsBack input error => cases h
  | _ => exact .inl h

/-- What a step commits are the rows that its call held. -/
theorem Moved.committed (hm : s.Moved c e normalizeResponseBody rows v) :
    (∀ r ∈ s.committed.of c, r ∈ v.committed)
      ∧ ∀ r ∈ v.committed, r ∈ s.committed.of c
        ∨ r ∈ s.claims.of c ∧ v.claims = [] ∧ v.deletions = []
          ∧ (∃ input answer, s.phase c = .finish input (.ok answer))
          ∧ rows = (s.claims.of c).foldl Table.upsert
            (s.rows.delete fun r => r.key ∈ s.deletions.of c) := by
  cases hm with
  | commits input answer hphase =>
      refine ⟨fun r hr => List.mem_append_left _ hr, ?_⟩
      intro r hr
      rcases List.mem_append.mp hr with hr | hr
      · exact .inl hr
      · exact .inr ⟨hr, rfl, rfl, ⟨input, answer, hphase⟩, rfl⟩
  | _ => exact ⟨fun _ hr => hr, fun _ hr => .inl hr⟩

-- ============================================================ exclusion

/-- No two calls hold one key. -/
structure Exclusive (s : IdempotencySystem A B E) : Prop where
  claims : ∀ {c c' r r'}, r ∈ s.claims.of c → r' ∈ s.claims.of c' →
    r.key = r'.key → c = c'
  deletions : ∀ {c c' k}, k ∈ s.deletions.of c → k ∈ s.deletions.of c' →
    c = c'
  locked : ∀ {c c' r}, r ∈ s.claims.of c → r.key ∈ s.deletions.of c' →
    c = c'
  removed : ∀ {c r r'}, r ∈ s.claims.of c → s.rows.find? r.key = some r' →
    r.key ∈ s.deletions.of c

/-- At the start nobody holds a key. -/
theorem exclusive_start (rows : IdempotencyKeys B) :
    (start rows : IdempotencySystem A B E).Exclusive where
  claims h := nomatch h
  deletions h := nomatch h
  locked h := nomatch h
  removed h := nomatch h

/-- A key that another call has inserted is blocked. -/
theorem Blocked.of_claim {c' : Nat} {r : StoredIdempotencyRow B}
    (hne : c' ≠ c) (h : r ∈ s.claims.of c') : s.Blocked c r.key :=
  .inl (Held.byOther_iff.mpr ⟨c', hne, r, h, rfl⟩)

/-- So is a key that another call is deleting. -/
theorem Blocked.of_deletion {c' : Nat} {k : IdempotencyKey}
    (hne : c' ≠ c) (h : k ∈ s.deletions.of c') : s.Blocked c k :=
  .inr (Held.byOther_iff.mpr ⟨c', hne, k, h, rfl⟩)

section Step

variable {s' : IdempotencySystem A B E}
  (hm : Moves e normalizeResponseBody s c s')

include hm

/-- A step leaves the insertions of the other calls alone. -/
theorem Moves.claims_of_ne {c' : Nat} (h : c' ≠ c) :
    s'.claims.of c' = s.claims.of c' :=
  congrArg IdempotentCall.claims (hm.frame c' h)

/-- And their deletions. -/
theorem Moves.deletions_of_ne {c' : Nat} (h : c' ≠ c) :
    s'.deletions.of c' = s.deletions.of c' :=
  congrArg IdempotentCall.deletions (hm.frame c' h)

/-- And what they have committed. -/
theorem Moves.committed_of_ne {c' : Nat} (h : c' ≠ c) :
    s'.committed.of c' = s.committed.of c' :=
  congrArg IdempotentCall.committed (hm.frame c' h)

/-- A claim after the step, and what another call's claim was before. -/
theorem Moves.claims_ne (h : s.Exclusive) {c' : Nat}
    {r r' : StoredIdempotencyRow B} (hc : c' ≠ c) (hr : r ∈ s'.claims.of c)
    (hr' : r' ∈ s'.claims.of c') : r.key ≠ r'.key := by
  intro hkey
  rw [hm.claims_of_ne hc] at hr'
  rcases (hm.own.claim hr).2.2 with ⟨r₀, hr₀, hkey₀⟩ | ⟨hfree, -⟩
  · exact hc (h.claims hr' hr₀ (hkey₀.trans hkey).symm)
  · apply hfree
    rw [hkey]
    exact .of_claim hc hr'

/-- No two calls delete one key. -/
theorem Moves.deletions_ne (h : s.Exclusive) {c' : Nat} {k : IdempotencyKey}
    (hc : c' ≠ c) (hk : k ∈ s'.deletions.of c) :
    k ∉ s'.deletions.of c' := by
  intro hk'
  rw [hm.deletions_of_ne hc] at hk'
  rcases hm.own.deletion hk with hk | ⟨hfree, -⟩
  · exact hc (h.deletions hk' hk)
  · exact hfree (Held.byOther_iff.mpr ⟨c', hc, k, hk', rfl⟩)

/-- A step takes a key only where nobody else has it. An insert that would
collide with an uncommitted one waits, and so does one whose row is about to
be removed. -/
theorem Moves.exclusive (h : s.Exclusive) : s'.Exclusive where
  claims := by
    intro c₁ c₂ r r' hr hr' hkey
    by_cases h₁ : c₁ = c
    · by_cases h₂ : c₂ = c
      · rw [h₁, h₂]
      · subst h₁
        exact absurd hkey (hm.claims_ne h h₂ hr hr')
    · by_cases h₂ : c₂ = c
      · subst h₂
        exact absurd hkey.symm (hm.claims_ne h h₁ hr' hr)
      · rw [hm.claims_of_ne h₁] at hr
        rw [hm.claims_of_ne h₂] at hr'
        exact h.claims hr hr' hkey
  deletions := by
    intro c₁ c₂ k hk hk'
    by_cases h₁ : c₁ = c
    · by_cases h₂ : c₂ = c
      · rw [h₁, h₂]
      · subst h₁
        exact absurd hk' (hm.deletions_ne h h₂ hk)
    · by_cases h₂ : c₂ = c
      · subst h₂
        exact absurd hk (hm.deletions_ne h h₁ hk')
      · rw [hm.deletions_of_ne h₁] at hk
        rw [hm.deletions_of_ne h₂] at hk'
        exact h.deletions hk hk'
  locked := by
    intro c₁ c₂ r hr hk
    by_cases h₁ : c₁ = c
    · by_cases h₂ : c₂ = c
      · rw [h₁, h₂]
      · subst h₁
        rw [hm.deletions_of_ne h₂] at hk
        rcases (hm.own.claim hr).2.2 with ⟨r₀, hr₀, hkey⟩ | ⟨hfree, -⟩
        · rw [← hkey] at hk
          exact h.locked hr₀ hk
        · exact absurd (.of_deletion h₂ hk) hfree
    · rw [hm.claims_of_ne h₁] at hr
      by_cases h₂ : c₂ = c
      · subst h₂
        rcases hm.own.deletion hk with hk | ⟨hfree, -, -, -, -, r', hr', -⟩
        · exact h.locked hr hk
        -- a row that is about to be replaced is locked by the claim
        · have hlocked := h.removed hr hr'
          exact (hfree (Held.byOther_iff.mpr
            ⟨c₁, h₁, r.key, hlocked, rfl⟩)).elim
      · rw [hm.deletions_of_ne h₂] at hk
        exact h.locked hr hk
  removed := by
    intro c₁ r r' hr hfind
    by_cases h₁ : c₁ = c
    · subst h₁
      obtain ⟨hrows, hkept, hclaim⟩ := hm.own.claim hr
      rw [hrows] at hfind
      rcases hclaim with ⟨r₀, hr₀, hkey⟩ | ⟨-, hremoved⟩
      · rw [← hkey] at hfind ⊢
        exact hkept _ (h.removed hr₀ hfind)
      · exact hkept _ (hremoved r' hfind)
    · rw [hm.claims_of_ne h₁] at hr
      rw [hm.deletions_of_ne h₁]
      rcases hm.own.row hfind with hfind | ⟨-, hclaim, hkey⟩
      · exact h.removed hr hfind
      · exact absurd (h.claims hr hclaim hkey.symm) h₁

end Step

-- =============================================================== a period

/-- An execution under the key has committed. -/
def Done (s : IdempotencySystem A B E) (k : IdempotencyKey) : Prop :=
  ∃ c, ∃ r ∈ s.committed.of c, r.key = k

/-- The step is taken before the stored expiry of the key: its row, when
an execution of the run has committed it, is not expired, and any older
row is; and no claim stores an expiry that has passed. -/
def InPeriod (k : IdempotencyKey) (s : IdempotencySystem A B E) :
    IdempotencyEvent A E → Prop
  | .cleanup c =>
      match s.phase c with
      | .cleanup _ now => ∀ r ∈ s.rows.find? k,
          (now < r.expiresAt ↔ r ∈ s.committed.map Prod.snd)
      | _ => True
  | .claim c clock =>
      match s.phase c with
      | .claim input now =>
          input.key = k → now < clock + input.ttlMs.getD defaultTtlMs
      | _ => True
  | _ => True

/-- What a call under the key knows in its phase. -/
def Known (s : IdempotencySystem A B E) (k : IdempotencyKey)
    (v : IdempotentCall A B E) : Prop :=
  match v.phase with
  | .claim input _ => input.key = k →
      s.Done k ∨ ∀ r, s.rows.find? k = some r → k ∈ v.deletions
  | .lookup input => input.key = k → s.Done k
  | .finish input (.error error) => input.key = k → v.claims ≠ []
      ∨ ∃ c, ∃ r ∈ s.committed.of c, r.key = k
        ∧ r.replay input.requestHash = .error error
  | .finish input (.ok (response, true))
  | .ended input (.ok (response, true)) => input.key = k →
      ∃ c, ∃ r ∈ s.committed.of c, r.For input ∧ r.Stores response
  | _ => True

/-- Before the stored expiry of the key. -/
structure Period (k : IdempotencyKey) (s : IdempotencySystem A B E) :
    Prop where
  stored : ∀ {c r}, r ∈ s.committed.of c → r.key = k →
    s.rows.find? k = some r ∧ (∀ c', k ∉ s.deletions.of c')
      ∧ ∀ c', ∀ r' ∈ s.claims.of c', r'.key ≠ k
  once : ∀ {c c' r r'}, r ∈ s.committed.of c → r' ∈ s.committed.of c' →
    r.key = k → r'.key = k → c = c'
  known : ∀ c, s.Known k (s.call c)

variable {k : IdempotencyKey}

/-- At the start nothing is committed. -/
theorem period_start (rows : IdempotencyKeys B) :
    (start rows : IdempotencySystem A B E).Period k where
  stored h := nomatch h
  once h := nomatch h
  known _ := trivial

/-- Rows that the run has committed under the key do not expire. -/
theorem InPeriod.live {c' : Nat} {input : IdempotentInput} {now : Timestamp}
    {r : StoredIdempotencyRow B} (hin : s.InPeriod k (.cleanup c))
    (hphase : s.phase c = .cleanup input now)
    (hfind : s.rows.find? k = some r) (h : r ∈ s.committed.of c') :
    now < r.expiresAt := by
  simp only [InPeriod, hphase] at hin
  exact (hin r hfind).mpr (List.mem_map.mpr ⟨(c', r), Held.mem_of.mp h, rfl⟩)

/-- A row that has not expired was committed by the run. -/
theorem InPeriod.done {input : IdempotentInput} {now : Timestamp}
    {r : StoredIdempotencyRow B} (hin : s.InPeriod k (.cleanup c))
    (hphase : s.phase c = .cleanup input now)
    (hfind : s.rows.find? k = some r) (h : now < r.expiresAt) : s.Done k := by
  simp only [InPeriod, hphase] at hin
  obtain ⟨x, hx, rfl⟩ := List.mem_map.mp ((hin r hfind).mp h)
  exact ⟨x.1, x.2, Held.mem_of.mpr hx, Table.key_of_find? hfind⟩

section Step

variable {s' : IdempotencySystem A B E}
  (hm : Moves e normalizeResponseBody s c s')

include hm

/-- What is committed stays. -/
theorem Moves.committed_mono {c' : Nat} {r : StoredIdempotencyRow B}
    (h : r ∈ s.committed.of c') : r ∈ s'.committed.of c' := by
  by_cases hc : c' = c
  · rw [hc] at h ⊢
    exact hm.own.committed.1 r h
  · rw [hm.committed_of_ne hc]
    exact h

/-- A key that is done stays done. -/
theorem Moves.done_mono (h : s.Done k) : s'.Done k := by
  obtain ⟨c', r, hr, hkey⟩ := h
  exact ⟨c', r, hm.committed_mono hr, hkey⟩

/-- A newly committed row was held by the call that commits. -/
theorem Moves.committed_cases {c' : Nat} {r : StoredIdempotencyRow B}
    (h : r ∈ s'.committed.of c') :
    r ∈ s.committed.of c'
      ∨ c' = c ∧ r ∈ s.claims.of c ∧ s'.claims.of c = []
        ∧ s'.deletions.of c = []
        ∧ (∃ input answer, s.phase c = .finish input (.ok answer))
        ∧ s'.rows = (s.claims.of c).foldl Table.upsert
          (s.rows.delete fun r => r.key ∈ s.deletions.of c) := by
  by_cases hc : c' = c
  · rw [hc] at h ⊢
    rcases hm.own.committed.2 r h with hr | hr
    · exact .inl hr
    · exact .inr ⟨rfl, hr⟩
  · rw [hm.committed_of_ne hc] at h
    exact .inl h

omit hm in
/-- A row that the step makes the one of its key. -/
theorem Moves.stored_of_commit (hs : s.Sound) (hex : s.Exclusive)
    {r : StoredIdempotencyRow B} (hr : r ∈ s.claims.of c)
    (hphase : ∃ input answer, s.phase c = .finish input (.ok answer))
    (hrows : s'.rows = (s.claims.of c).foldl Table.upsert
      (s.rows.delete fun r => r.key ∈ s.deletions.of c)) :
    s'.rows.find? r.key = some r := by
  obtain ⟨input, ⟨response, replayed⟩, hphase⟩ := hphase
  have hholds := hs c
  rw [hphase] at hholds
  cases replayed with
  | true =>
      have hclaims : s.claims.of c = [] := hholds.claims
      rw [hclaims] at hr
      cases hr
  | false =>
      obtain ⟨row, hrow, -⟩ := hholds
      have hclaims : s.claims.of c = [row] := hrow.claims
      rw [hclaims, List.mem_singleton] at hr
      rw [hr] at *
      have hremoved : (s.rows.delete fun r =>
          r.key ∈ s.deletions.of c).find? row.key = none := by
        rw [Table.find?_delete]
        cases hfind : s.rows.find? row.key with
        | none => rfl
        | some r' =>
            have hmem : row ∈ s.claims.of c := by
              rw [hclaims]
              exact List.mem_singleton_self row
            have hlocked := hex.removed hmem hfind
            rw [Option.filter_some, if_neg]
            rw [Table.key_of_find? hfind]
            simpa using hlocked
      rw [hrows, hclaims, List.foldl_cons, List.foldl_nil, Table.find?_upsert,
        if_pos rfl, hremoved, Option.getD_none]

/-- What is committed within the period is what its key finds, and nobody is
about to change it. -/
theorem Moves.stored (hs : s.Sound) (hex : s.Exclusive) (h : s.Period k)
    (hin : s.InPeriod k e) {c' : Nat} {r : StoredIdempotencyRow B}
    (hr : r ∈ s'.committed.of c') (hk : r.key = k) :
    s'.rows.find? k = some r ∧ (∀ c', k ∉ s'.deletions.of c')
      ∧ ∀ c', ∀ r' ∈ s'.claims.of c', r'.key ≠ k := by
  rcases hm.committed_cases hr with hr | ⟨-, hr, hclaims, hdel, hphase, hrows⟩
  · obtain ⟨hfind, hkept, hfree⟩ := h.stored hr hk
    refine ⟨?_, ?_, ?_⟩
    · rw [hm.own.find?_of_kept (hkept c) (hfree c)]
      exact hfind
    · intro c₁ hmem
      by_cases h₁ : c₁ = c
      · subst h₁
        rcases hm.own.deletion hmem with
          hold | ⟨-, rfl, input, now, hphase, r', hfind', hexpired⟩
        · exact hkept _ hold
        · rw [hfind] at hfind'
          cases hfind'
          exact absurd hexpired (Nat.not_le.mpr (hin.live hphase hfind hr))
      · rw [hm.deletions_of_ne h₁] at hmem
        exact hkept _ hmem
    · intro c₁ r' hr' hkey
      by_cases h₁ : c₁ = c
      · subst h₁
        rcases (hm.own.claim hr').2.2 with ⟨r₀, hr₀, hkey₀⟩ | ⟨-, hremoved⟩
        · exact hfree _ r₀ hr₀ (hkey₀.trans hkey)
        · rw [hkey] at hremoved
          exact hkept _ (hremoved r hfind)
      · rw [hm.claims_of_ne h₁] at hr'
        exact hfree _ r' hr' hkey
  · subst hk
    refine ⟨Moves.stored_of_commit hs hex hr hphase hrows, ?_, ?_⟩
    · intro c₁ hmem
      by_cases h₁ : c₁ = c
      · rw [h₁, hdel] at hmem
        cases hmem
      · rw [hm.deletions_of_ne h₁] at hmem
        exact h₁ (hex.locked hr hmem).symm
    · intro c₁ r' hr' hkey
      by_cases h₁ : c₁ = c
      · rw [h₁, hclaims] at hr'
        cases hr'
      · rw [hm.claims_of_ne h₁] at hr'
        exact h₁ (hex.claims hr' hr hkey)

/-- A key is committed by one call. -/
theorem Moves.once (h : s.Period k) {c₁ c₂ : Nat}
    {r r' : StoredIdempotencyRow B} (hr : r ∈ s'.committed.of c₁)
    (hr' : r' ∈ s'.committed.of c₂) (hk : r.key = k) (hk' : r'.key = k) :
    c₁ = c₂ := by
  rcases hm.committed_cases hr with hr | ⟨h₁, hr, -⟩
  · rcases hm.committed_cases hr' with hr' | ⟨h₂, hr', -⟩
    · exact h.once hr hr' hk hk'
    · exact absurd hk' ((h.stored hr hk).2.2 c r' hr')
  · rcases hm.committed_cases hr' with hr' | ⟨h₂, hr', -⟩
    · exact absurd hk ((h.stored hr' hk').2.2 c r hr)
    · rw [h₁, h₂]

/-- What a call knows stays true. -/
theorem Moves.known_mono (h : s.Known k v) : s'.Known k v := by
  unfold Known at h ⊢
  split
  · next input now hphase =>
    rw [hphase] at h
    intro hkey
    rcases h hkey with hdone | hremoved
    · exact .inl (hm.done_mono hdone)
    · by_cases hdone : s'.Done k
      · exact .inl hdone
      · refine .inr fun r hr => ?_
        rcases hm.own.row hr with hr | ⟨hr, -, hk⟩
        · exact hremoved r hr
        · exact absurd ⟨c, r, hr, hk⟩ hdone
  · next input hphase =>
    rw [hphase] at h
    intro hkey
    exact hm.done_mono (h hkey)
  · next input error hphase =>
    rw [hphase] at h
    intro hkey
    rcases h hkey with hclaims | ⟨c₁, r, hr, hk, hreplay⟩
    · exact .inl hclaims
    · exact .inr ⟨c₁, r, hm.committed_mono hr, hk, hreplay⟩
  · next input response hphase =>
    rw [hphase] at h
    intro hkey
    obtain ⟨c₁, r, hr, hstores⟩ := h hkey
    exact ⟨c₁, r, hm.committed_mono hr, hstores⟩
  · next input response hphase =>
    rw [hphase] at h
    intro hkey
    obtain ⟨c₁, r, hr, hstores⟩ := h hkey
    exact ⟨c₁, r, hm.committed_mono hr, hstores⟩
  · trivial

/-- What the call learns by its own step. Within the period a row that it
finds is the one that was committed, and a key that it finds free was never
done or is one that it removes. -/
theorem Moves.known_own (hs : s.Sound) (h : s.Period k)
    (hin : s.InPeriod k e) : s'.Known k (s'.call c) := by
  have hholds := hs c
  have hknown : ∀ p, s.phase c = p → s.Known k { s.call c with phase := p } := by
    intro p hp
    rw [← hp]
    exact h.known c
  have hmono : ∀ v : IdempotentCall A B E, s.Known k v → s'.Known k v :=
    fun _ => hm.known_mono
  have hrowdone : s.Done k → ∃ c', ∃ r ∈ s.committed.of c', r.key = k
      ∧ s.rows.find? k = some r ∧ k ∉ s.deletions.of c := by
    intro hdone
    obtain ⟨c', r, hr, hk⟩ := hdone
    obtain ⟨hfind, hkept, -⟩ := h.stored hr hk
    exact ⟨c', r, hr, hk, hfind, hkept c⟩
  have hown := hm.own
  generalize s'.call c = v at hown ⊢
  generalize s'.rows = rows at hown
  cases hown with
  | stays => exact hmono _ (h.known c)
  | begins input now hphase => trivial
  | cleans input now keys he hphase hexpired hfree hown =>
      subst he
      refine hmono _ ?_
      intro hkey
      rw [hkey] at hown
      by_cases hdone : s.Done k
      · exact .inl hdone
      · refine .inr fun r hr => List.mem_append_right _ (hown r hr ?_)
        rcases Nat.lt_or_ge now r.expiresAt with hlive | hpast
        · exact absurd (hin.done hphase hr hlive) hdone
        · exact hpast
  | refused input now clock he hphase hpast =>
      subst he
      intro hkey
      simp only [InPeriod, hphase] at hin
      exact absurd hpast (Nat.not_le.mpr (hin hkey))
  | conflicts input now row hphase hrow hkept =>
      refine hmono _ ?_
      intro hkey
      rcases hknown _ hphase hkey with hdone | hremoved
      · exact hdone
      · rw [hkey] at hrow hkept
        exact absurd (hremoved row hrow) hkept
  | claims input now clock hphase => trivial
  | returns input response written hphase => trivial
  | throws input error written hphase =>
      intro _
      rw [hphase] at hholds
      obtain ⟨row, hrow, -⟩ := hholds
      have hclaims : s.claims.of c = [row] := hrow.claims
      refine .inl ?_
      show s.claims.of c ≠ []
      rw [hclaims]
      nofun
  | completes input executed body hphase => trivial
  | spoils input executed error hphase =>
      intro _
      rw [hphase] at hholds
      obtain ⟨row, hrow⟩ := hholds
      have hclaims : s.claims.of c = [row] := hrow.claims
      refine .inl ?_
      show s.claims.of c ≠ []
      rw [hclaims]
      nofun
  | replays input row hphase hrow =>
      refine hmono _ ?_
      have hread : input.key = k → ∃ c', row ∈ s.committed.of c'
          ∧ row.key = k := by
        intro hkey
        obtain ⟨c', r, hr, hk, hfind, -⟩ := hrowdone (hknown _ hphase hkey)
        rw [hkey, hfind] at hrow
        cases hrow
        exact ⟨c', hr, hk⟩
      cases hanswer : row.replay input.requestHash with
      | error error =>
          intro hkey
          obtain ⟨c', hr, hk⟩ := hread hkey
          exact .inr ⟨c', row, hr, hk, hanswer⟩
      | ok answer =>
          obtain ⟨response, replayed⟩ := answer
          obtain ⟨hhash, hstores, rfl⟩ :=
            StoredIdempotencyRow.stores_of_replay hanswer
          intro hkey
          obtain ⟨c', hr, hk⟩ := hread hkey
          exact ⟨c', row, hr, ⟨hk.trans hkey.symm, hhash⟩, hstores⟩
  | misses input hphase hnone =>
      intro hkey
      obtain ⟨c', r, -, -, hfind, hkept⟩ := hrowdone (hknown _ hphase hkey)
      rw [hkey] at hnone
      exact absurd (hnone r hfind) hkept
  | commits input answer hphase =>
      obtain ⟨response, replayed⟩ := answer
      cases replayed with
      | false => trivial
      | true => exact hmono _ (hknown _ hphase)
  | rollsBack input error hphase => trivial

/-- Within the period every step keeps all this. -/
theorem Moves.period (hs : s.Sound) (hex : s.Exclusive) (h : s.Period k)
    (hin : s.InPeriod k e) : s'.Period k where
  stored := hm.stored hs hex h hin
  once := hm.once h
  known := by
    intro c'
    by_cases hc : c' = c
    · rw [hc]
      exact hm.known_own hs h hin
    · rw [hm.frame c' hc]
      exact hm.known_mono (h.known c')

end Step

-- ================================================================== runs

/-- Take some steps. -/
def play (normalizeResponseBody : A → Option (JsonBody B))
    (s : IdempotencySystem A B E) (events : List (IdempotencyEvent A E)) :
    IdempotencySystem A B E :=
  run (fun s e => s.step normalizeResponseBody e) s events

/-- All steps are taken before the stored expiry of the key. -/
abbrev WithinPeriod (normalizeResponseBody : A → Option (JsonBody B))
    (k : IdempotencyKey) (s : IdempotencySystem A B E)
    (events : List (IdempotencyEvent A E)) : Prop :=
  Along (fun s e => s.step normalizeResponseBody e) (InPeriod k) s events

/-- What holds in every state of a period. -/
structure Inv (k : IdempotencyKey) (s : IdempotencySystem A B E) : Prop where
  sound : s.Sound
  exclusive : s.Exclusive
  period : s.Period k

/-- The invariants hold at the start. -/
theorem Inv.start (rows : IdempotencyKeys B) :
    Inv k (start rows : IdempotencySystem A B E) :=
  ⟨sound_start rows, exclusive_start rows, period_start rows⟩

/-- They hold after a step within the period. -/
theorem Inv.step (h : Inv k s) (hin : s.InPeriod k e) :
    Inv k (s.step normalizeResponseBody e) :=
  have hm := step_moves normalizeResponseBody s e
  ⟨hm.sound h.sound, hm.exclusive h.exclusive,
    hm.period h.sound h.exclusive h.period hin⟩

/-- And so after any run within it. -/
theorem Inv.play (h : Inv k s) {events : List (IdempotencyEvent A E)}
    (hin : s.WithinPeriod normalizeResponseBody k events) :
    Inv k (s.play normalizeResponseBody events) :=
  run_keeps_along (fun _ _ hstep hinv => hinv.step hstep) hin h

-- =============================================================== answers

/-- A committed row is the answer of its call. -/
theorem Sound.answered (h : s.Sound) {r : StoredIdempotencyRow B}
    (hr : r ∈ s.committed.of c) :
    ∃ input response, s.phase c = .ended input (.ok (response, false))
      ∧ r.For input ∧ r.Stores response := by
  have hholds := h c
  have hnil : s.committed.of c = [] → False := by
    intro hnil
    rw [hnil] at hr
    cases hr
  cases hphase : s.phase c with
  | ended input answer =>
      rw [hphase] at hholds
      match answer, hholds with
      | .error _, hholds => exact (hnil hholds.committed).elim
      | .ok (_, true), hholds => exact (hnil hholds.committed).elim
      | .ok (response, false), ⟨row, hrow, hstores⟩ =>
          have hcommitted : s.committed.of c = [row] := hrow.committed
          rw [hcommitted, List.mem_singleton] at hr
          rw [hr]
          exact ⟨input, response, rfl, hrow.row, hstores⟩
  | execute input =>
      rw [hphase] at hholds
      obtain ⟨row, hrow, -⟩ := hholds
      exact (hnil hrow.committed).elim
  | complete input executed =>
      rw [hphase] at hholds
      obtain ⟨row, hrow⟩ := hholds
      exact (hnil hrow.committed).elim
  | finish input answer =>
      rw [hphase] at hholds
      match answer, hholds with
      | .error _, .inl hholds => exact (hnil hholds.committed).elim
      | .error _, .inr ⟨row, hrow⟩ => exact (hnil hrow.committed).elim
      | .ok (_, true), hholds => exact (hnil hholds.committed).elim
      | .ok (_, false), ⟨row, hrow, _⟩ => exact (hnil hrow.committed).elim
  | _ =>
      rw [hphase] at hholds
      exact (hnil hholds.committed).elim

/-- The call under the key answered with the response. -/
def Succeeded (s : IdempotencySystem A B E) (k : IdempotencyKey) (c : Nat)
    (response : IdempotentResponse (JsonBody B)) (replayed : Bool) : Prop :=
  ∃ input, input.key = k ∧ s.phase c = .ended input (.ok (response, replayed))

/-- A call that succeeds has the response of an execution that committed. -/
theorem Inv.committed_of_succeeded (h : Inv k s) {replayed : Bool}
    {response : IdempotentResponse (JsonBody B)}
    (hc : s.Succeeded k c response replayed) :
    ∃ c', ∃ r ∈ s.committed.of c', r.key = k ∧ r.Stores response
      ∧ (replayed = false → c' = c) := by
  obtain ⟨input, hkey, hphase⟩ := hc
  cases replayed with
  | false =>
      have hholds := h.sound c
      rw [hphase] at hholds
      obtain ⟨row, hrow, hstores⟩ := hholds
      have hcommitted : s.committed.of c = [row] := hrow.committed
      refine ⟨c, row, ?_, hrow.row.key.trans hkey, hstores, fun _ => rfl⟩
      rw [hcommitted]
      exact List.mem_singleton_self row
  | true =>
      have hknown := h.period.known c
      have hphase' : (s.call c).phase = _ := hphase
      unfold Known at hknown
      rw [hphase'] at hknown
      obtain ⟨c', r, hr, hfor, hstores⟩ := hknown hkey
      exact ⟨c', r, hr, hfor.key.trans hkey, hstores, nofun⟩

/-- A call with another request than the committed one is turned away. -/
theorem Inv.reused (h : Inv k s) {c₀ : Nat} {r₀ : StoredIdempotencyRow B}
    (hr₀ : r₀ ∈ s.committed.of c₀) (hk₀ : r₀.key = k)
    {input : IdempotentInput} {answer : IdempotentAnswer B}
    (hphase : s.phase c = .finish input answer) (hkey : input.key = k)
    (hne : input.requestHash ≠ r₀.requestHash) :
    answer = .error keyReused := by
  obtain ⟨hfind, -, hfree⟩ := h.period.stored hr₀ hk₀
  have hholds := h.sound c
  have hknown := h.period.known c
  have hphase' : (s.call c).phase = _ := hphase
  have hunclaimed : ∀ row, ¬ (s.call c).Claimed input row := by
    intro row hrow
    have hclaims : s.claims.of c = [row] := hrow.claims
    have hmem : row ∈ s.claims.of c := by
      rw [hclaims]
      exact List.mem_singleton_self row
    exact hfree c row hmem (hrow.row.key.trans hkey)
  have honly : ∀ c' r, r ∈ s.committed.of c' → r.key = k → r = r₀ := by
    intro c' r hr hk
    have hfind' := (h.period.stored hr hk).1
    rw [hfind] at hfind'
    exact (Option.some.inj hfind').symm
  rw [hphase] at hholds
  unfold Known at hknown
  rw [hphase'] at hknown
  match answer, hholds, hknown with
  | .ok (response, false), ⟨row, hrow, _⟩, _ => exact absurd hrow (hunclaimed row)
  | .ok (response, true), _, hknown =>
      obtain ⟨c', r, hr, hfor, -⟩ := hknown hkey
      rw [honly c' r hr (hfor.key.trans hkey)] at hfor
      exact absurd hfor.requestHash.symm hne
  | .error error, hholds, hknown =>
      rcases hknown hkey with hclaims | ⟨c', r, hr, hk, hreplay⟩
      · rcases hholds with hfresh | ⟨row, hrow⟩
        · exact absurd hfresh.claims hclaims
        · exact absurd hrow (hunclaimed row)
      · rw [honly c' r hr hk] at hreplay
        rw [StoredIdempotencyRow.replay_of_ne (Ne.symm hne)] at hreplay
        exact hreplay.symm

/-- A call that ends had its answer when it finished. -/
theorem Moved.ended (hm : s.Moved c e normalizeResponseBody rows v)
    {input : IdempotentInput} {answer : IdempotentAnswer B}
    (h : v.phase = .ended input answer) :
    s.phase c = .ended input answer ∨ s.phase c = .finish input answer := by
  cases hm with
  | stays => exact .inl h
  | commits input' answer' hphase =>
      cases h
      exact .inr hphase
  | rollsBack input' error hphase =>
      cases h
      exact .inr hphase
  | _ => cases h

/-- Calls that have not ended when an execution commits. -/
theorem Inv.reused_run (h : Inv k s) {c₀ : Nat}
    {r₀ : StoredIdempotencyRow B} (hr₀ : r₀ ∈ s.committed.of c₀)
    (hk₀ : r₀.key = k) (hopen : ∀ input answer, s.phase c ≠ .ended input answer)
    {events : List (IdempotencyEvent A E)}
    (hin : s.WithinPeriod normalizeResponseBody k events)
    {input : IdempotentInput} {answer : IdempotentAnswer B}
    (hphase : (s.play normalizeResponseBody events).phase c
      = .ended input answer) (hkey : input.key = k)
    (hne : input.requestHash ≠ r₀.requestHash) :
    answer = .error keyReused := by
  let P (s' : IdempotencySystem A B E) : Prop := Inv k s'
    ∧ r₀ ∈ s'.committed.of c₀ ∧ ∀ input answer,
      s'.phase c = .ended input answer → input.key = k →
        input.requestHash ≠ r₀.requestHash → answer = .error keyReused
  have hstart : P s :=
    ⟨h, hr₀, fun input answer hended => absurd hended (hopen input answer)⟩
  have hrun : P (s.play normalizeResponseBody events) := by
    refine run_keeps_along ?_ hin hstart
    intro s' e hstep hs'
    obtain ⟨hinv, hr₀, hended⟩ := hs'
    have hm := step_moves normalizeResponseBody s' e
    refine ⟨hinv.step hstep, hm.committed_mono hr₀, ?_⟩
    intro input answer hphase hkey hne
    by_cases hc : c = e.caller
    · rw [hc] at hphase hended
      rcases hm.own.ended hphase with hphase | hphase
      · exact hended input answer hphase hkey hne
      · exact hinv.reused hr₀ hk₀ hphase hkey hne
    · have hframe : _ = s'.phase c :=
        congrArg IdempotentCall.phase (hm.frame c hc)
      exact hended input answer (hframe.symm.trans hphase) hkey hne
  exact hrun.2.2 input answer hphase hkey hne

end IdempotencySystem

end Skrynia
