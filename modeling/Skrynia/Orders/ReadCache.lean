/-
The read cache of the order routes.

`GET /orders/:id` and `GET /orders` answer from Redis, or read the
database, store the payload and answer with it. A mutation commits and
then sweeps the keys of its order and its two participants. Unlike the
marketplace cache there is no generation: `cacheSet` stores whatever the
handler has read, however long ago.

# The sweep

`cacheDelPrefixesStrict` iterates with SCAN. What Redis promises of it is
that a key present from the start of the iteration to its end is
returned: `pending` are the keys that were there at the start and have not
been gone since, and the sweep ends only when none is left. A key that is
stored meanwhile may survive.

# Database time

`commits` counts the commits and `finishes` the sweeps that have ended.
A payload remembers the commits when its first database read began, a
request the sweeps when it looked into the cache.
-/
import Skrynia.Lib.Runs
import Skrynia.Orders.ListOrders

namespace Skrynia

open Stepping

/-- What `invalidateOrderParticipantReadCaches` is given. -/
structure OrderReadInvalidation where
  orderId : Uuid
  buyerId : Uuid
  sellerId : Uuid
deriving DecidableEq

/-- The cache keys of the two handlers. -/
inductive OrderReadKey where
  /-- `order:<id>:<user>:<role>`. -/
  | detail (orderId userId : Uuid) (role : Role)
  /-- `orders:<user>:<role>:<status>:<limit>:<cursor>`. -/
  | list (userId : Uuid) (role : ListRole) (status : Option String) (limit : Nat)
      (cursor : Option CursorText)
deriving DecidableEq

/-- The key has one of `readPrefixes`. -/
def OrderReadInvalidation.Covers (input : OrderReadInvalidation) : OrderReadKey → Prop
  | .detail orderId _ _ => orderId = input.orderId
  | .list userId .. => userId = input.buyerId ∨ userId = input.sellerId

instance (input : OrderReadInvalidation) : DecidablePred input.Covers := fun key =>
  match key with
  | .detail orderId _ _ => inferInstanceAs (Decidable (orderId = input.orderId))
  | .list userId .. =>
      inferInstanceAs (Decidable (userId = input.buyerId ∨ userId = input.sellerId))

/-- What a handler has read, and how many commits there were when it
began. -/
structure OrderPayload (V : Type) where
  value : V
  readAt : Nat
deriving DecidableEq

/-- Where a request is. -/
inductive OrderReadPhase (V : Type) where
  | idle
  | missed (key : OrderReadKey) (since : Nat)
  /-- The first database read has begun. -/
  | loading (key : OrderReadKey) (since readAt : Nat)
  /-- The payload is about to be stored. -/
  | loaded (key : OrderReadKey) (since : Nat) (payload : OrderPayload V)
  /-- The payload, from the cache or the database, is about to be sent. -/
  | answering (key : OrderReadKey) (since : Nat) (payload : OrderPayload V)
  | responded (key : OrderReadKey) (payload : OrderPayload V) (finishes : Nat)
deriving DecidableEq

/-- Where a mutation is. -/
inductive OrderMutationPhase where
  | idle
  | committed (input : OrderReadInvalidation) (commit : Nat)
  | sweeping (input : OrderReadInvalidation) (commit : Nat) (pending : List OrderReadKey)
  | finished (input : OrderReadInvalidation) (commit finish : Nat)
deriving DecidableEq

/-- A key is gone from the cache. -/
def OrderMutationPhase.without (key : OrderReadKey) :
    OrderMutationPhase → OrderMutationPhase
  | .sweeping input commit pending => .sweeping input commit (pending.filter (· ≠ key))
  | phase => phase

/-- Any number of requests and mutations. -/
structure OrderReadSystem (V : Type) where
  cache : List (OrderReadKey × OrderPayload V)
  commits : Nat
  finishes : Nat
  requests : Nat → OrderReadPhase V
  mutations : Nat → OrderMutationPhase

/-- What may happen next. -/
inductive OrderReadEvent (V : Type) where
  | cacheGet (request : Nat) (key : OrderReadKey)
  | query (request : Nat)
  | compute (request : Nat) (value : V)
  | cacheSet (request : Nat)
  | respond (request : Nat)
  | commit (mutation : Nat) (input : OrderReadInvalidation)
  /-- The sweep's SCAN starts. -/
  | scan (mutation : Nat)
  /-- It returned a key, which is deleted. -/
  | del (mutation : Nat) (key : OrderReadKey)
  | finish (mutation : Nat)
  | expire (key : OrderReadKey)

namespace OrderReadSystem

variable {V : Type}

/-- Before any request. -/
def initial : OrderReadSystem V where
  cache := []
  commits := 0
  finishes := 0
  requests _ := .idle
  mutations _ := .idle

/-- What the cache has under a key. -/
def lookup (s : OrderReadSystem V) (key : OrderReadKey) : Option (OrderPayload V) :=
  (s.cache.find? fun x => x.1 = key).map Prod.snd

/-- A request goes on. -/
def setRequest (s : OrderReadSystem V) (request : Nat) (phase : OrderReadPhase V) :
    OrderReadSystem V :=
  { s with requests := Function.update s.requests request phase }

/-- A mutation goes on. -/
def setMutation (s : OrderReadSystem V) (mutation : Nat) (phase : OrderMutationPhase) :
    OrderReadSystem V :=
  { s with mutations := Function.update s.mutations mutation phase }

/-- A payload is stored under its key. -/
def store (s : OrderReadSystem V) (key : OrderReadKey) (payload : OrderPayload V) :
    OrderReadSystem V :=
  { s with cache := (key, payload) :: s.cache.filter fun x => x.1 ≠ key }

/-- A key is gone, also for the sweeps under way. -/
def remove (s : OrderReadSystem V) (key : OrderReadKey) : OrderReadSystem V :=
  { s with
    cache := s.cache.filter fun x => x.1 ≠ key
    mutations := fun m => (s.mutations m).without key }

/-- One event. -/
def step (s : OrderReadSystem V) : OrderReadEvent V → OrderReadSystem V
  | .cacheGet request key =>
      match s.requests request, s.lookup key with
      | .idle, some payload => s.setRequest request (.answering key s.finishes payload)
      | .idle, none => s.setRequest request (.missed key s.finishes)
      | _, _ => s
  | .query request =>
      match s.requests request with
      | .missed key since => s.setRequest request (.loading key since s.commits)
      | _ => s
  | .compute request value =>
      match s.requests request with
      | .loading key since readAt =>
          s.setRequest request (.loaded key since { value := value, readAt := readAt })
      | _ => s
  | .cacheSet request =>
      match s.requests request with
      | .loaded key since payload =>
          (s.store key payload).setRequest request (.answering key since payload)
      | _ => s
  | .respond request =>
      match s.requests request with
      | .answering key _ payload =>
          s.setRequest request (.responded key payload s.finishes)
      | _ => s
  | .commit mutation input =>
      match s.mutations mutation with
      | .idle => { s.setMutation mutation (.committed input (s.commits + 1)) with
          commits := s.commits + 1 }
      | _ => s
  | .scan mutation =>
      match s.mutations mutation with
      | .committed input commit => s.setMutation mutation (.sweeping input commit
          ((s.cache.map Prod.fst).filter fun key => input.Covers key))
      | _ => s
  | .del mutation key =>
      match s.mutations mutation with
      | .sweeping input _ _ => if input.Covers key then s.remove key else s
      | _ => s
  | .finish mutation =>
      match s.mutations mutation with
      | .sweeping input commit [] =>
          { s.setMutation mutation (.finished input commit (s.finishes + 1)) with
            finishes := s.finishes + 1 }
      | _ => s
  | .expire key => s.remove key

/-- Any number of them. -/
def play (s : OrderReadSystem V) (schedule : List (OrderReadEvent V)) :
    OrderReadSystem V :=
  run step s schedule

-- ============================================================== the property

/-- The sweep will not delete the key any more. -/
def Passed (key : OrderReadKey) : OrderMutationPhase → Prop
  | .finished .. => True
  | .sweeping _ _ pending => key ∉ pending
  | _ => False

/-- The mutation changed an order behind the key after `readAt`. -/
def Outdates (key : OrderReadKey) (readAt : Nat) : OrderMutationPhase → Prop
  | .idle => False
  | .committed input commit | .sweeping input commit _ | .finished input commit _ =>
      input.Covers key ∧ readAt < commit

/-- No handler stores a payload that a sweep of its key has already come
too early for, and no request is under way from before the end of a sweep
till after it with a payload from before the commit. -/
def Timely (s : OrderReadSystem V) : OrderReadEvent V → Prop
  | .cacheSet request => ∀ key since payload,
      s.requests request = .loaded key since payload →
        ∀ m, Outdates key payload.readAt (s.mutations m) → ¬ Passed key (s.mutations m)
  | .respond request => ∀ key since payload,
      s.requests request = .answering key since payload →
        ∀ m input commit finish, s.mutations m = .finished input commit finish →
          since < finish → ¬ Outdates key payload.readAt (s.mutations m)
  | _ => True

-- ================================================================= invariant

/-- The commit of a mutation. -/
def commitOf : OrderMutationPhase → Option Nat
  | .idle => none
  | .committed _ commit | .sweeping _ commit _ | .finished _ commit _ => some commit

/-- What was read at `readAt` reflects the sweeps up to `since`. -/
def Reflects (s : OrderReadSystem V) (key : OrderReadKey) (since readAt : Nat) : Prop :=
  since ≤ s.finishes ∧ ∀ m input commit finish,
    s.mutations m = .finished input commit finish →
      finish ≤ since → input.Covers key → commit ≤ readAt

/-- What holds of a request at each access. -/
def RequestClean (s : OrderReadSystem V) : OrderReadPhase V → Prop
  | .idle => True
  | .missed _ since => since ≤ s.finishes
  | .loading key since readAt => s.Reflects key since readAt
  | .loaded key since payload | .answering key since payload =>
      s.Reflects key since payload.readAt
  | .responded key payload finishes => s.Reflects key finishes payload.readAt

/-- No payload in the cache is older than a sweep that has passed it. -/
structure Clean (s : OrderReadSystem V) : Prop where
  cache : ∀ x ∈ s.cache, ∀ m, Outdates x.1 x.2.readAt (s.mutations m) →
    ¬ Passed x.1 (s.mutations m)
  requests : ∀ r, s.RequestClean (s.requests r)
  commits : ∀ m c, commitOf (s.mutations m) = some c → c ≤ s.commits

variable {s s' : OrderReadSystem V} {key : OrderReadKey} {since readAt : Nat}

/-- Later sweeps end later. -/
theorem Reflects.later (h : s.Reflects key since readAt)
    (hfinishes : s.finishes ≤ s'.finishes)
    (hfinished : ∀ m input commit finish, s'.mutations m = .finished input commit finish →
      s.mutations m = .finished input commit finish ∨ s.finishes < finish) :
    s'.Reflects key since readAt := by
  refine ⟨Nat.le_trans h.1 hfinishes, ?_⟩
  intro m input commit finish hm hle hcovers
  rcases hfinished m input commit finish hm with hold | hnew
  · exact h.2 m input commit finish hold hle hcovers
  · exact absurd (Nat.le_trans hle h.1) (Nat.not_le.mpr hnew)

/-- It stays so as more sweeps end. -/
theorem RequestClean.later {phase : OrderReadPhase V} (h : s.RequestClean phase)
    (hfinishes : s.finishes ≤ s'.finishes)
    (hfinished : ∀ m input commit finish, s'.mutations m = .finished input commit finish →
      s.mutations m = .finished input commit finish ∨ s.finishes < finish) :
    s'.RequestClean phase := by
  cases phase with
  | idle => trivial
  | missed key since => exact Nat.le_trans h hfinishes
  | loading key since readAt => exact Reflects.later h hfinishes hfinished
  | loaded key since payload => exact Reflects.later h hfinishes hfinished
  | answering key since payload => exact Reflects.later h hfinishes hfinished
  | responded key payload finishes => exact Reflects.later h hfinishes hfinished

/-- A request moves on. -/
theorem Clean.setRequest (h : s.Clean) {request : Nat} {phase : OrderReadPhase V}
    (hphase : s.RequestClean phase) : (s.setRequest request phase).Clean where
  cache := h.cache
  requests r := by
    rcases update_cases (Eq.refl ((s.setRequest request phase).requests r)) with
      ⟨-, hnew⟩ | ⟨-, hold⟩
    · rw [← hnew]
      exact hphase
    · rw [← hold]
      exact h.requests r
  commits := h.commits

/-- A mutation moves on; when it finishes, it is the last so far. -/
theorem Clean.setMutation (h : s.Clean) {mutation : Nat} {phase : OrderMutationPhase}
    {commits finishes : Nat} (hcommits : s.commits ≤ commits)
    (hfinishes : s.finishes ≤ finishes)
    (hcache : ∀ x ∈ s.cache, Outdates x.1 x.2.readAt phase → ¬ Passed x.1 phase)
    (hcommit : ∀ c, commitOf phase = some c → c ≤ commits)
    (hfinish : ∀ input c n, phase = .finished input c n → s.finishes < n) :
    Clean { s.setMutation mutation phase with commits := commits, finishes := finishes } where
  cache x hx m hout := by
    rcases update_cases (Eq.refl ((s.setMutation mutation phase).mutations m)) with
      ⟨-, hnew⟩ | ⟨-, hold⟩
    · change Outdates _ _ ((s.setMutation mutation phase).mutations m) at hout
      show ¬ Passed _ ((s.setMutation mutation phase).mutations m)
      rw [← hnew] at hout ⊢
      exact hcache x hx hout
    · change Outdates _ _ ((s.setMutation mutation phase).mutations m) at hout
      show ¬ Passed _ ((s.setMutation mutation phase).mutations m)
      rw [← hold] at hout ⊢
      exact h.cache x hx m hout
  requests r := by
    refine (h.requests r).later hfinishes ?_
    intro m input commit finish hm
    rcases update_cases hm with ⟨-, hnew⟩ | ⟨-, hold⟩
    · exact Or.inr (hfinish input commit finish hnew)
    · exact Or.inl hold
  commits m c hm := by
    rcases update_cases (Eq.refl ((s.setMutation mutation phase).mutations m)) with
      ⟨-, hnew⟩ | ⟨-, hold⟩
    · change commitOf ((s.setMutation mutation phase).mutations m) = some c at hm
      rw [← hnew] at hm
      exact hcommit c hm
    · change commitOf ((s.setMutation mutation phase).mutations m) = some c at hm
      rw [← hold] at hm
      exact Nat.le_trans (h.commits m c hm) hcommits

/-- A sweep that has passed a key outdates what it did. -/
theorem outdates_without {key' : OrderReadKey} {phase : OrderMutationPhase} :
    Outdates key readAt (phase.without key') ↔ Outdates key readAt phase := by
  cases phase <;> exact Iff.rfl

/-- And has passed the other keys that it had. -/
theorem passed_without {key' : OrderReadKey} {phase : OrderMutationPhase}
    (h : key ≠ key') : Passed key (phase.without key') ↔ Passed key phase := by
  cases phase with
  | sweeping input commit pending =>
      show key ∉ pending.filter (· ≠ key') ↔ key ∉ pending
      rw [List.mem_filter, decide_eq_true_iff]
      exact not_congr (and_iff_left h)
  | _ => exact Iff.rfl

/-- A key that is gone outdates nothing. -/
theorem Clean.remove (h : s.Clean) (key : OrderReadKey) : (s.remove key).Clean where
  cache x hx m := by
    obtain ⟨hx, hkey⟩ := List.mem_filter.mp hx
    rw [decide_eq_true_iff] at hkey
    show Outdates _ _ ((s.mutations m).without key) → ¬ Passed _ ((s.mutations m).without key)
    rw [outdates_without, passed_without hkey]
    exact h.cache x hx m
  requests r := by
    refine (h.requests r).later (Nat.le_refl _) ?_
    intro m input commit finish hm
    refine Or.inl ?_
    change (s.mutations m).without key = _ at hm
    cases hphase : s.mutations m with
    | sweeping input' commit' pending =>
        rw [hphase] at hm
        cases hm
    | _ =>
        rw [hphase] at hm
        exact hm
  commits m c hm := by
    refine h.commits m c ?_
    change commitOf ((s.mutations m).without key) = some c at hm
    cases hphase : s.mutations m <;> rw [hphase] at hm <;> exact hm

/-- A payload may be stored if no sweep that outdates it has passed its
key. -/
theorem Clean.store (h : s.Clean) {payload : OrderPayload V}
    (hfresh : ∀ m, Outdates key payload.readAt (s.mutations m) →
      ¬ Passed key (s.mutations m)) : (s.store key payload).Clean where
  cache x hx m hout := by
    rcases List.mem_cons.mp hx with rfl | hx
    · exact hfresh m hout
    · exact h.cache x (List.mem_filter.mp hx).1 m hout
  requests := h.requests
  commits := h.commits

/-- A cached payload reflects the sweeps that have ended. -/
theorem Clean.lookup (h : s.Clean) {payload : OrderPayload V}
    (hlookup : s.lookup key = some payload) : s.Reflects key s.finishes payload.readAt := by
  refine ⟨Nat.le_refl _, ?_⟩
  intro m input commit finish hm _ hcovers
  obtain ⟨x, hx, rfl⟩ := Option.map_eq_some_iff.mp hlookup
  have hkey := List.find?_some hx
  rw [decide_eq_true_iff] at hkey
  have hcache := h.cache x (List.mem_of_find?_eq_some hx) m
  rw [hm, hkey] at hcache
  by_contra hlt
  exact hcache ⟨hcovers, Nat.not_le.mp hlt⟩ trivial

/-- A timely event keeps all of it: what is stored was read after the commits
that are already swept, and a sweep takes what was read before. -/
theorem Clean.step (h : s.Clean) {e : OrderReadEvent V} (ht : s.Timely e) :
    (s.step e).Clean := by
  cases e with
  | cacheGet request key =>
      rw [OrderReadSystem.step]
      split
      · next hlookup => exact h.setRequest (h.lookup hlookup)
      · exact h.setRequest (Nat.le_refl _)
      · exact h
  | query request =>
      rw [OrderReadSystem.step]
      split
      · next key since hphase =>
          have hrequest := h.requests request
          rw [hphase] at hrequest
          refine h.setRequest ⟨hrequest, ?_⟩
          intro m input commit finish hm _ _
          refine h.commits m commit ?_
          rw [hm]
          rfl
      · exact h
  | compute request value =>
      rw [OrderReadSystem.step]
      split
      · next key since readAt hphase =>
          have hrequest := h.requests request
          rw [hphase] at hrequest
          exact h.setRequest hrequest
      · exact h
  | cacheSet request =>
      rw [OrderReadSystem.step]
      split
      · next key since payload hphase =>
          have hrequest := h.requests request
          rw [hphase] at hrequest
          have hstored : (s.store key payload).Clean :=
            h.store (ht key since payload hphase)
          exact hstored.setRequest hrequest
      · exact h
  | respond request =>
      rw [OrderReadSystem.step]
      split
      · next key since payload hphase =>
          have hrequest := h.requests request
          rw [hphase] at hrequest
          refine h.setRequest ⟨Nat.le_refl _, ?_⟩
          intro m input commit finish hm _ hcovers
          by_cases hle : finish ≤ since
          · exact hrequest.2 m input commit finish hm hle hcovers
          · have hlate := ht key since payload hphase m input commit finish hm
              (Nat.not_le.mp hle)
            rw [hm] at hlate
            by_contra hlt
            exact hlate ⟨hcovers, Nat.not_le.mp hlt⟩
      · exact h
  | commit mutation input =>
      rw [OrderReadSystem.step]
      split
      · refine h.setMutation (Nat.le_succ _) (Nat.le_refl _) ?_ ?_ ?_
        · intro _ _ _ hpassed
          exact hpassed
        · intro c hc
          cases hc
          exact Nat.le_refl _
        · intro _ _ _ hphase
          cases hphase
      · exact h
  | scan mutation =>
      rw [OrderReadSystem.step]
      split
      · next input commit hphase =>
          refine h.setMutation (Nat.le_refl _) (Nat.le_refl _) ?_ ?_ ?_
          · intro x hx hout hpassed
            refine hpassed (List.mem_filter.mpr ⟨List.mem_map_of_mem hx, ?_⟩)
            exact decide_eq_true hout.1
          · intro c hc
            refine h.commits mutation c ?_
            rw [hphase]
            exact hc
          · intro _ _ _ hphase
            cases hphase
      · exact h
  | del mutation key =>
      rw [OrderReadSystem.step]
      split
      · split
        · exact h.remove key
        · exact h
      · exact h
  | finish mutation =>
      rw [OrderReadSystem.step]
      split
      · next input commit hphase =>
          refine h.setMutation (Nat.le_refl _) (Nat.le_succ _) ?_ ?_ ?_
          · intro x hx hout
            -- nothing is pending: no outdated key was left
            have hcache := h.cache x hx mutation
            rw [hphase] at hcache
            exact absurd (List.not_mem_nil) (hcache hout)
          · intro c hc
            refine h.commits mutation c ?_
            rw [hphase]
            exact hc
          · intro input' c n hfinished
            cases hfinished
            exact Nat.lt_succ_self _
      · exact h
  | expire key => exact h.remove key

end OrderReadSystem

end Skrynia
