/-
The outcome of all calls under one idempotency key.

`runIdempotentTransaction_exactly_once` puts together what holds of the
calls that have ended. A call that failed left nothing; as long as no
execution has committed, a call that nobody stands in the way of executes
(`Inv.retry`).
-/
import Skrynia.Idempotency.ExactlyOnce

namespace Skrynia

open Relational Stepping

variable {A B E : Type}

namespace IdempotencySystem

variable {s : IdempotencySystem A B E} {c : Nat} {e : IdempotencyEvent A E}
  {k : IdempotencyKey} {normalizeResponseBody : A → Option (JsonBody B)}

-- ================================================================ retries

/-- No other call holds the key. -/
structure Free (s : IdempotencySystem A B E) (c : Nat) (k : IdempotencyKey) :
    Prop where
  claims : ∀ c', c' ≠ c → ∀ r ∈ s.claims.of c', r.key ≠ k
  deletions : ∀ c', c' ≠ c → k ∉ s.deletions.of c'

/-- Nobody else is about to remove the key. -/
theorem Free.not_byOther (h : s.Free c k) :
    ¬ s.deletions.ByOther c (· = k) := by
  intro hother
  obtain ⟨c', hne, k', hk', rfl⟩ := Held.byOther_iff.mp hother
  exact h.deletions c' hne hk'

/-- So its insert does not wait. -/
theorem Free.not_blocked (h : s.Free c k) : ¬ s.Blocked c k := by
  intro hblocked
  rcases hblocked with hclaim | hdeletion
  · obtain ⟨c', hne, r, hr, hk⟩ := Held.byOther_iff.mp hclaim
    exact h.claims c' hne r hr hk
  · exact h.not_byOther hdeletion

/-- No execution under the key has committed and no other call holds the
key. -/
structure Undisturbed (s : IdempotencySystem A B E) (c : Nat)
    (k : IdempotencyKey) : Prop where
  inv : Inv k s
  free : s.Free c k
  done : ¬ s.Done k

/-- The steps of the call itself get nobody into its way. -/
theorem Undisturbed.step (h : s.Undisturbed e.caller k)
    (hphase : ∀ input answer, s.phase e.caller ≠ .finish input answer)
    (hin : s.InPeriod k e) :
    (s.step normalizeResponseBody e).Undisturbed e.caller k where
  inv := h.inv.step hin
  free := by
    have hm := step_moves normalizeResponseBody s e
    constructor
    · intro c' hne
      rw [hm.claims_of_ne hne]
      exact h.free.claims c' hne
    · intro c' hne
      rw [hm.deletions_of_ne hne]
      exact h.free.deletions c' hne
  done := by
    intro hdone
    obtain ⟨c', r, hr, hk⟩ := hdone
    rcases (step_moves normalizeResponseBody s e).committed_cases hr with
      hr | ⟨-, -, -, -, ⟨_, _, hfinish⟩, -⟩
    · exact h.done ⟨c', r, hr, hk⟩
    · exact hphase _ _ hfinish

/-- The steps of one undisturbed call. -/
def soleCall (c : Nat) (input : IdempotentInput) (now clock : Timestamp)
    (response : IdempotentResponse A) (written : List E) :
    List (IdempotencyEvent A E) :=
  [.begin_ c input now, .cleanup c, .claim c clock,
    .executeReturns c response written, .complete c, .finish c]

/-- The call has answered with the response of its own execution, and
what that wrote is committed. -/
def Executed (s : IdempotencySystem A B E) (c : Nat) (input : IdempotentInput)
    (response : IdempotentResponse (JsonBody B)) (written : List E) : Prop :=
  s.phase c = .ended input (.ok (response, false))
    ∧ s.effects.of c = written

section Retry

variable {input : IdempotentInput} {now clock : Timestamp}
  {response : IdempotentResponse A} {body : JsonBody B} {written : List E}
  (hbody : normalizeResponseBody response.body = some body)
  (hstatus : 100 ≤ response.statusCode ∧ response.statusCode ≤ 599)

include hbody hstatus

/-- So does one that may execute already. -/
theorem Sound.executes (h : s.Sound) (hphase : s.phase c = .execute input) :
    (s.play normalizeResponseBody [.executeReturns c response written,
      .complete c, .finish c]).Executed c input
        ⟨response.statusCode, body, response.resourceId⟩ written := by
  have hholds := h c
  rw [hphase] at hholds
  obtain ⟨row, hrow, hwrites⟩ := hholds
  have hclaims : s.claims.of c = [row] := hrow.claims
  have hwrites : s.writes.of c = [] := hwrites
  have heffects : s.effects.of c = [] := hrow.effects
  have hreturns : s.step normalizeResponseBody
      (.executeReturns c response written)
        = (s.write c written).setPhase c (.complete input response) := by
    simp only [IdempotencySystem.step, hphase]
  unfold IdempotencySystem.play
  rw [run_cons, run_cons, run_cons, run_nil, hreturns]
  generalize hs₁ : (s.write c written).setPhase c
    (.complete input response) = s₁
  have hphase₁ : s₁.phase c = .complete input response := by
    rw [← hs₁]
    exact phase_setPhase_self _
  have hclaims₁ : s₁.claims.of c = [row] := by
    rw [← hs₁]
    exact hclaims
  have hwrites₁ : s₁.writes.of c = written := by
    rw [← hs₁]
    show (s.writes.add c written).of c = written
    rw [Held.of_add_self, hwrites, List.nil_append]
  have heffects₁ : s₁.effects.of c = [] := by
    rw [← hs₁]
    exact heffects
  have hcomplete : ∃ s₂, s₁.step normalizeResponseBody (.complete c) = s₂
      ∧ s₂.phase c = .finish input (.ok
        (⟨response.statusCode, body, response.resourceId⟩, false))
      ∧ s₂.writes = s₁.writes ∧ s₂.effects = s₁.effects := by
    refine ⟨_, rfl, ?_⟩
    simp only [IdempotencySystem.step, hphase₁, complete, hbody]
    rw [hclaims₁, if_neg (by simp), if_pos hstatus]
    exact ⟨phase_setPhase_self _, rfl, rfl⟩
  obtain ⟨s₂, hs₂, hphase₂, hwrites₂, heffects₂⟩ := hcomplete
  rw [hs₂]
  simp only [IdempotencySystem.step, hphase₂]
  refine ⟨phase_setPhase_self _, ?_⟩
  show (s₂.effects.add c (s₂.writes.of c)).of c = written
  rw [Held.of_add_self, hwrites₂, heffects₂, hwrites₁, heffects₁,
    List.nil_append]

/-- A call that finds the key free executes. -/
theorem Undisturbed.claims (h : s.Undisturbed c input.key)
    (hphase : s.phase c = .claim input now)
    (hin : s.InPeriod input.key (.claim c clock)) :
    (s.play normalizeResponseBody [.claim c clock,
      .executeReturns c response written, .complete c, .finish c]).Executed c
        input ⟨response.statusCode, body, response.resourceId⟩ written := by
  have hclaim : (s.step normalizeResponseBody (.claim c clock)).phase c
      = .execute input := by
    have hknown := h.inv.period.known c
    have hphase' : (s.call c).phase = _ := hphase
    unfold Known at hknown
    rw [hphase'] at hknown
    have hremoved := (hknown rfl).resolve_left h.done
    simp only [InPeriod, hphase] at hin
    simp only [IdempotencySystem.step, hphase, claim]
    rw [if_neg (Nat.not_le.mpr (hin trivial)), if_neg h.free.not_blocked,
      visible_eq_none.mpr hremoved, if_neg (by simp)]
    exact phase_setPhase_self _
  exact ((step_moves normalizeResponseBody s (.claim c clock)).sound
    h.inv.sound).executes hbody hstatus hclaim

/-- An undisturbed call that begins with its cleanup executes to the end. -/
theorem Undisturbed.cleans (h : s.Undisturbed c input.key)
    (hphase : s.phase c = .cleanup input now)
    (hin : s.WithinPeriod normalizeResponseBody input.key
      [.cleanup c, .claim c clock]) :
    (s.play normalizeResponseBody [.cleanup c, .claim c clock,
      .executeReturns c response written, .complete c, .finish c]).Executed c
        input ⟨response.statusCode, body, response.resourceId⟩ written := by
  have hcleanup : (s.step normalizeResponseBody (.cleanup c)).phase c
      = .claim input now := by
    simp only [IdempotencySystem.step, hphase, cleanupExpiredKeys]
    rw [if_neg fun hother => h.free.not_byOther hother.2]
    exact phase_setPhase_self _
  have hnext : (s.step normalizeResponseBody (.cleanup c)).Undisturbed c
      input.key :=
    h.step (fun _ _ hfinish => by cases hphase.symm.trans hfinish) hin.1
  exact hnext.claims hbody hstatus hcleanup hin.2.1

/-- A call under a key without committed execution executes, when no
other call holds the key. -/
theorem Undisturbed.retry (h : s.Undisturbed c input.key)
    (hphase : s.phase c = .idle)
    (hin : s.WithinPeriod normalizeResponseBody input.key
      [.begin_ c input now, .cleanup c, .claim c clock]) :
    (s.play normalizeResponseBody
      (soleCall c input now clock response written)).Executed c input
        ⟨response.statusCode, body, response.resourceId⟩ written := by
  have hbegin : (s.step normalizeResponseBody (.begin_ c input now)).phase c
      = .cleanup input now := by
    simp only [IdempotencySystem.step, hphase]
    exact phase_setPhase_self _
  have hnext : (s.step normalizeResponseBody
      (.begin_ c input now)).Undisturbed c input.key :=
    h.step (fun _ _ hfinish => by cases hphase.symm.trans hfinish) hin.1
  exact hnext.cleans hbody hstatus hbegin hin.2

end Retry

-- ============================================================== the result

/-- Where the rows come from. -/
def From (rows₀ : IdempotencyKeys B) (s : IdempotencySystem A B E) : Prop :=
  ∀ r ∈ s.rows.rows, r ∈ rows₀.rows ∨ ∃ c, r ∈ s.committed.of c

/-- The first table and what was committed explain the rows. -/
theorem From.step {rows₀ : IdempotencyKeys B} (h : s.From rows₀) :
    (s.step normalizeResponseBody e).From rows₀ := by
  intro r hr
  have hm := step_moves normalizeResponseBody s e
  rcases hm.own.row (Table.find?_of_mem hr) with hold | ⟨hcommitted, -⟩
  · rcases h r (Table.mem_of_find? hold) with hr₀ | ⟨c, hc⟩
    · exact .inl hr₀
    · exact .inr ⟨c, hm.committed_mono hc⟩
  · exact .inr ⟨e.caller, hcommitted⟩

/-- A call that has not succeeded has no effects. -/
theorem Sound.effects_eq_nil (h : s.Sound)
    (hphase : ∀ input response, s.phase c ≠ .ended input (.ok (response, false))) :
    s.effects.of c = [] := by
  have hholds := h c
  cases hp : s.phase c with
  | ended input answer =>
      rw [hp] at hholds
      match answer, hholds, hp with
      | .error _, hholds, _ => exact hholds.effects
      | .ok (_, true), hholds, _ => exact hholds.effects
      | .ok (response, false), _, hp => exact absurd hp (hphase input response)
  | execute input =>
      rw [hp] at hholds
      obtain ⟨row, hrow, -⟩ := hholds
      exact hrow.effects
  | complete input executed =>
      rw [hp] at hholds
      obtain ⟨row, hrow⟩ := hholds
      exact hrow.effects
  | finish input answer =>
      rw [hp] at hholds
      match answer, hholds with
      | .error _, .inl hholds => exact hholds.effects
      | .error _, .inr ⟨row, hrow⟩ => exact hrow.effects
      | .ok (_, true), hholds => exact hholds.effects
      | .ok (_, false), ⟨row, hrow, _⟩ => exact hrow.effects
  | _ =>
      rw [hp] at hholds
      exact hholds.effects

/-- What `runIdempotentTransaction` guarantees for one key. -/
structure ExactlyOnce (normalizeResponseBody : A → Option (JsonBody B))
    (k : IdempotencyKey) (rows₀ : IdempotencyKeys B)
    (s : IdempotencySystem A B E) : Prop where
  /-- Only calls that answer for themselves have effects, -/
  effects : ∀ c, s.effects.of c ≠ [] → ∃ input response,
    s.phase c = .ended input (.ok (response, false))
  /-- there is at most one of them under the key, -/
  once : ∀ c c' response response', s.Succeeded k c response false →
    s.Succeeded k c' response' false → c = c'
  /-- and every call that succeeds gives its answer. -/
  same : ∀ c response replayed, s.Succeeded k c response replayed →
    ∃ c₀, s.Succeeded k c₀ response false
  request : ∀ c c' input input' response response' replayed replayed',
    s.phase c = .ended input (.ok (response, replayed)) →
    s.phase c' = .ended input' (.ok (response', replayed')) →
    input.key = k → input'.key = k → input.requestHash = input'.requestHash
  /-- A call with another request that ends after the execution. -/
  reused : ∀ c₀ input₀ response,
    s.phase c₀ = .ended input₀ (.ok (response, false)) → input₀.key = k →
    ∀ c, (∀ input answer, s.phase c ≠ .ended input answer) →
    ∀ events, s.WithinPeriod normalizeResponseBody k events →
    ∀ input answer, (s.play normalizeResponseBody events).phase c
      = .ended input answer →
    input.key = k → input.requestHash ≠ input₀.requestHash →
      answer = .error keyReused
        ∧ (s.play normalizeResponseBody events).effects.of c = []
  failed : ∀ c input error, s.phase c = .ended input (.error error) →
    s.effects.of c = [] ∧ s.writes.of c = [] ∧ s.claims.of c = []
  /-- Every key row is old or that of a call that succeeded. -/
  rows : ∀ r ∈ s.rows.rows, r ∈ rows₀.rows ∨ ∃ c input response,
    s.phase c = .ended input (.ok (response, false)) ∧ r.For input
      ∧ r.Stores response
  retry : (∀ c response, ¬ s.Succeeded k c response false) →
    ∀ c, s.phase c = .idle → s.Free c k →
    ∀ input now clock response body written, input.key = k →
    normalizeResponseBody response.body = some body →
    100 ≤ response.statusCode ∧ response.statusCode ≤ 599 →
    s.WithinPeriod normalizeResponseBody k
      [.begin_ c input now, .cleanup c, .claim c clock] →
    (s.play normalizeResponseBody
      (soleCall c input now clock response written)).Executed c input
        ⟨response.statusCode, body, response.resourceId⟩ written

/-- The calls that succeed under the key have inserted its row, or read
it. -/
theorem Inv.row_of_ended (h : Inv k s) {input : IdempotentInput}
    {response : IdempotentResponse (JsonBody B)} {replayed : Bool}
    (hphase : s.phase c = .ended input (.ok (response, replayed)))
    (hkey : input.key = k) :
    ∃ r, s.rows.find? k = some r ∧ r.For input := by
  cases replayed with
  | false =>
      have hholds := h.sound c
      rw [hphase] at hholds
      obtain ⟨row, hrow, -⟩ := hholds
      have hmem : row ∈ s.committed.of c := by
        have hcommitted : s.committed.of c = [row] := hrow.committed
        rw [hcommitted]
        exact List.mem_singleton_self row
      exact ⟨row, (h.period.stored hmem (hrow.row.key.trans hkey)).1, hrow.row⟩
  | true =>
      have hknown := h.period.known c
      have hphase' : (s.call c).phase = _ := hphase
      unfold Known at hknown
      rw [hphase'] at hknown
      obtain ⟨c', r, hr, hfor, -⟩ := hknown hkey
      exact ⟨r, (h.period.stored hr (hfor.key.trans hkey)).1, hfor⟩

/-- A commit belongs to a call that succeeded. -/
theorem Inv.succeeded_of_committed (h : Inv k s) {r : StoredIdempotencyRow B}
    {response : IdempotentResponse (JsonBody B)} (hr : r ∈ s.committed.of c)
    (hk : r.key = k) (hstores : r.Stores response) :
    s.Succeeded k c response false := by
  obtain ⟨input, response', hphase, hfor, hstores'⟩ := h.sound.answered hr
  rw [hstores.unique hstores']
  exact ⟨input, hfor.key.symm.trans hk, hphase⟩

/-- The invariant gives every part of the outcome: one set of effects and one
answer for the hash that came first, a conflict for every other, and nothing
left of what failed. -/
theorem Inv.exactlyOnce (h : Inv k s) {rows₀ : IdempotencyKeys B}
    (hrows : s.From rows₀) : ExactlyOnce normalizeResponseBody k rows₀ s where
  effects := by
    intro c heffects
    by_contra hphase
    push Not at hphase
    exact heffects (h.sound.effects_eq_nil hphase)
  once := by
    intro c c' response response' hc hc'
    obtain ⟨c₁, r, hr, hk, -, heq⟩ := h.committed_of_succeeded hc
    obtain ⟨c₂, r', hr', hk', -, heq'⟩ := h.committed_of_succeeded hc'
    rw [← heq rfl, ← heq' rfl]
    exact h.period.once hr hr' hk hk'
  same := by
    intro c response replayed hc
    obtain ⟨c₀, r, hr, hk, hstores, -⟩ := h.committed_of_succeeded hc
    exact ⟨c₀, h.succeeded_of_committed hr hk hstores⟩
  request := by
    intro c c' input input' response response' replayed replayed' hphase hphase'
      hkey hkey'
    obtain ⟨r, hfind, hfor⟩ := h.row_of_ended hphase hkey
    obtain ⟨r', hfind', hfor'⟩ := h.row_of_ended hphase' hkey'
    rw [hfind] at hfind'
    cases hfind'
    exact hfor.requestHash.symm.trans hfor'.requestHash
  reused := by
    intro c₀ input₀ response hphase₀ hkey₀ c hopen events hin input answer
      hphase hkey hne
    obtain ⟨r, hfind, hfor⟩ := h.row_of_ended hphase₀ hkey₀
    obtain ⟨c₁, r₁, hr₁, hk₁, -, -⟩ :=
      h.committed_of_succeeded ⟨input₀, hkey₀, hphase₀⟩
    have hr : r₁ = r := by
      have hfind₁ := (h.period.stored hr₁ hk₁).1
      rw [hfind] at hfind₁
      exact (Option.some.inj hfind₁).symm
    rw [hr] at hr₁
    have hanswer : answer = .error keyReused := by
      apply h.reused_run hr₁ (hfor.key.trans hkey₀) hopen hin hphase hkey
      rw [hfor.requestHash]
      exact hne
    refine ⟨hanswer, ?_⟩
    apply (h.play hin).sound.effects_eq_nil
    intro input' response' hphase'
    rw [hphase, hanswer] at hphase'
    cases hphase'
  failed := by
    intro c input error hphase
    have hholds := h.sound c
    rw [hphase] at hholds
    exact ⟨hholds.effects, hholds.writes, hholds.claims⟩
  rows := by
    intro r hr
    rcases hrows r hr with hold | ⟨c, hc⟩
    · exact .inl hold
    · obtain ⟨input, response, hphase, hfor, hstores⟩ := h.sound.answered hc
      exact .inr ⟨c, input, response, hphase, hfor, hstores⟩
  retry := by
    intro hnone c hphase hfree input now clock response body written hkey hbody
      hstatus hin
    subst hkey
    refine Undisturbed.retry hbody hstatus ⟨h, hfree, ?_⟩ hphase hin
    intro hdone
    obtain ⟨c', r, hr, hk⟩ := hdone
    obtain ⟨input', response', hphase', hfor, -⟩ := h.sound.answered hr
    exact hnone c' response' ⟨input', hfor.key.symm.trans hk, hphase'⟩

/-- For every user, scope and key, any number of calls with any requests
and outcomes of `execute`, in whatever order they take their steps before
the stored expiry. -/
theorem runIdempotentTransaction_exactly_once
    (normalizeResponseBody : A → Option (JsonBody B)) (k : IdempotencyKey)
    (rows : IdempotencyKeys B) (events : List (IdempotencyEvent A E))
    (hin : (start rows : IdempotencySystem A B E).WithinPeriod
      normalizeResponseBody k events) :
    ExactlyOnce normalizeResponseBody k rows
      ((start rows : IdempotencySystem A B E).play normalizeResponseBody
        events) := by
  apply ((Inv.start rows).play hin).exactlyOnce
  exact run_keeps (fun _ _ hfrom => hfrom.step) (fun r hr => .inl hr) events

instance [DecidableEq B] (k : IdempotencyKey) (s : IdempotencySystem A B E)
    (e : IdempotencyEvent A E) : Decidable (s.InPeriod k e) := by
  unfold InPeriod
  split
  · split <;> infer_instance
  · split <;> infer_instance
  · infer_instance

/-- The key of the runs. -/
def orderKey : IdempotencyKey := ⟨⟨1⟩, "orders:create", ⟨2⟩⟩

/-- A first call that fails while the others wait, then one that
executes, one that replays it and one with another request. -/
def contendedKey : List (IdempotencyEvent String String) :=
  [.begin_ 0 ⟨orderKey, "a", none⟩ 10, .begin_ 1 ⟨orderKey, "a", none⟩ 11,
    .begin_ 2 ⟨orderKey, "b", none⟩ 12, .begin_ 3 ⟨orderKey, "a", none⟩ 13,
    .cleanup 0, .cleanup 1, .claim 0 10, .claim 1 11,
    .executeThrows 0 (conflict "Out of stock") ["reserve"], .finish 0,
    .cleanup 2, .cleanup 3, .claim 1 14, .claim 2 14,
    .executeReturns 1 ⟨201, "order", some ⟨3⟩⟩ ["order"], .complete 1,
    .claim 3 15, .finish 1, .claim 2 16, .claim 3 16, .lookup 3, .lookup 2,
    .finish 3, .finish 2]

/-- Two calls contend for one key, and one of them executes. -/
theorem runIdempotentTransaction_exactly_once_contended :
    ExactlyOnce (fun body => some (some body)) orderKey Table.empty
        ((start Table.empty : IdempotencySystem String String String).play
          (fun body => some (some body)) contendedKey)
      ∧ ((start Table.empty : IdempotencySystem String String String).play
        (fun body => some (some body)) contendedKey).effects
          = [(1, "order")] :=
  ⟨runIdempotentTransaction_exactly_once _ orderKey _ contendedKey
    (by decide +kernel), by decide +kernel⟩

end IdempotencySystem

end Skrynia
