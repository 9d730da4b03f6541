/-
The tabs that wait for a refresh lease.

`acquireRefreshLease` is a bakery over Web Storage: a tab publishes that it
is choosing, takes a ticket above all it has read, and waits until no other
lease is before its own. Then it publishes that it is holding and looks
twice for another holder. An operation runs in between `acquired` and the
release; its lease is renewed by a heartbeat. A tab whose storage cannot be
used runs its operation without a lease.

# Steps

Every tab has a key of its own that no other tab writes, so what a tab does
with its own key is one step. A scan of all keys is not: it starts, other
tabs write, and it ends with leases that were there at some time in
between (`Sound`). All that ends an attempt early (a scan without an
answer, a write that throws, a time-out, an abort) is `giveUp`.

# What is assumed

Every tab has a clock of its own, and none of them goes back: a tick adds
no negative time. `newCoordinationId` never returns an id twice, so an
`acquire` that draws a generation of before is no step of the system.

`step_turn` is all that a step can be, `Frame` what it leaves of the other
tabs.
-/
import Mathlib.Algebra.Order.Ring.Rat
import Mathlib.Tactic.Linarith
import Skrynia.Frontend.RefreshLeases
import Skrynia.Lib.Runs

namespace Skrynia

namespace Frontend

open Stepping

-- ================================================================= leases

/-- What `newCoordinationId` gives is never empty. -/
abbrev CoordinationId := {id : String // id ≠ ""}

/-- A lease as its tab writes it. -/
structure Claim where
  ownerId : CoordinationId
  acquiredAt : Rat
  expiresAt : Rat
  generation : CoordinationId
  choosing : Bool
  holding : Bool
  ticket : Nat
deriving DecidableEq

namespace Claim

/-- `sameRefreshLease`. -/
def Same (left right : Claim) : Prop :=
  left.ownerId = right.ownerId ∧ left.generation = right.generation

instance (left right : Claim) : Decidable (Same left right) :=
  inferInstanceAs (Decidable (_ ∧ _))

/-- `leasePrecedes`. -/
def Precedes (left right : Claim) : Prop :=
  if left.ticket ≠ right.ticket then left.ticket < right.ticket
  else if left.ownerId ≠ right.ownerId then
    utf16Units left.ownerId < utf16Units right.ownerId
  else utf16Units left.generation < utf16Units right.generation

instance (left right : Claim) : Decidable (Precedes left right) := by
  unfold Precedes
  infer_instance

/-- What a tab waits for. -/
def Blocks (lease : Claim) (observedAt : Rat) (candidate : Claim) : Prop :=
  ¬ lease.Same candidate ∧ observedAt < lease.expiresAt
    ∧ (lease.holding = true ∨ lease.choosing = true
      ∨ lease.Precedes candidate)

instance (lease : Claim) (observedAt : Rat) (candidate : Claim) :
    Decidable (Blocks lease observedAt candidate) :=
  inferInstanceAs (Decidable (_ ∧ _ ∧ _))

/-- Another holder. -/
def Competes (lease : Claim) (confirmedAt : Rat) (candidate : Claim) : Prop :=
  ¬ lease.Same candidate ∧ lease.holding = true
    ∧ confirmedAt < lease.expiresAt

instance (lease : Claim) (confirmedAt : Rat) (candidate : Claim) :
    Decidable (Competes lease confirmedAt candidate) :=
  inferInstanceAs (Decidable (_ ∧ _ ∧ _))

/-- The members of `JSON.stringify(lease)`. -/
def members (lease : Claim) : List (String × JsValue) :=
  [("ownerId", .str lease.ownerId),
    ("acquiredAt", .num (.finite lease.acquiredAt)),
    ("expiresAt", .num (.finite lease.expiresAt)),
    ("generation", .str lease.generation),
    ("choosing", .bool lease.choosing), ("holding", .bool lease.holding),
    ("ticket", .num (.finite lease.ticket))]

end Claim

/-- `REFRESH_LEASE_TTL_MS`: half a minute. -/
def refreshLeaseTtlMs : Rat := 30000

/-- `Number.MAX_SAFE_INTEGER`. -/
def maxTicket : Nat := 9007199254740991

-- =================================================================== tabs

/-- What the next scan of a tab is for. -/
inductive Round where
  | initial
  | contend (conflictFreeScans : Nat)
  | confirm (confirmationScan : Nat)
deriving DecidableEq

/-- What is under the key of each tab. -/
abbrev Claims := CoordinationId → Option Claim

/-- Where a tab is. -/
inductive TabPhase where
  | idle
  /-- The operation runs, storage was not available. -/
  | unleased
  | waiting (candidate : Claim) (next : Round)
  /-- Since which storage of the log, and since when. -/
  | scanning (candidate : Claim) (next : Round) (start : Nat)
      (startedAt : Rat)
  | operating (candidate : Claim)
deriving DecidableEq

namespace TabPhase

/-- The lease that the tab has published last. -/
def candidate : TabPhase → Option Claim
  | idle | unleased => none
  | waiting candidate _ => some candidate
  | scanning candidate _ _ _ => some candidate
  | operating candidate => some candidate

/-- The tab has published that it is holding. -/
def holds : TabPhase → Bool
  | waiting _ (.confirm _) | scanning _ (.confirm _) _ _ => true
  | operating _ => true
  | _ => false

end TabPhase

/-- The storage that the tabs share, and where each of them is. -/
structure LeaseSystem where
  /-- `coordinationEpochClock` of each tab. -/
  clock : CoordinationId → Rat
  stored : Claims
  /-- Every storage so far, the present one last. -/
  log : List Claims
  phase : CoordinationId → TabPhase
  /-- The generations drawn so far. -/
  generations : List CoordinationId
  /-- Releases that wait for the expiry, and until when. -/
  delayed : List (Claim × Rat)
  /-- Where in the log a tab has last published that it is holding. -/
  since : CoordinationId → Nat

/-- What may happen next, in one of the tabs. -/
inductive LeaseEvent where
  | tick (n : CoordinationId) (milliseconds : Rat)
  /-- `acquireRefreshLease`, up to the first scan: whether the tab's own key
  can be read, removed and written. -/
  | acquire (n generation : CoordinationId)
      (readable removable writable : Bool)
  | scan (n : CoordinationId)
  | scanned (n : CoordinationId) (leases : List Claim)
  /-- The attempt ends; storage may not be available any more. -/
  | giveUp (n : CoordinationId) (available : Bool)
  /-- The heartbeat. -/
  | renew (n : CoordinationId)
  /-- The operation of a tab has settled. -/
  | settle (n : CoordinationId) (aborted available : Bool)
  /-- A timer of `releaseRefreshLeaseAfterExpiry`. -/
  | timer (lease : Claim) (due : Rat) (available : Bool)

/-- The tab whose key and phase an event is about. -/
def LeaseEvent.tab : LeaseEvent → CoordinationId
  | tick n _ | acquire n _ _ _ _ | scan n | scanned n _ | giveUp n _ | renew n
  | settle n _ _ => n
  | timer lease _ _ => lease.ownerId

-- ================================================================= system

namespace LeaseSystem

/-- Before any tab has begun, with an empty storage. -/
def opening (clock : CoordinationId → Rat) : LeaseSystem where
  clock := clock
  stored := fun _ => none
  log := [fun _ => none]
  phase := fun _ => .idle
  generations := []
  delayed := []
  since := fun _ => 0

variable (s : LeaseSystem)

/-- A tab goes on. -/
def goto (n : CoordinationId) (p : TabPhase) : LeaseSystem :=
  { s with phase := Function.update s.phase n p }

/-- One operation on the key of a tab. -/
def write (n : CoordinationId) (claim : Option Claim) : LeaseSystem :=
  { s with
    stored := Function.update s.stored n claim
    log := s.log ++ [Function.update s.stored n claim] }

/-- The stored lease of the owner is this attempt's. -/
def Stores (lease : Claim) : Prop :=
  ∃ l ∈ s.stored lease.ownerId, l.Same lease

instance (lease : Claim) : Decidable (s.Stores lease) :=
  inferInstanceAs (Decidable (∃ l ∈ s.stored lease.ownerId, _))

/-- `releaseRefreshLease`. -/
def release (lease : Claim) (available : Bool) : LeaseSystem :=
  if available = true ∧ s.Stores lease then s.write lease.ownerId none
  else s

/-- A lease of the tab itself that may still be in use. -/
def Uncertain (n : CoordinationId) : Prop :=
  ∃ l ∈ s.stored n, s.clock n < l.expiresAt

instance (n : CoordinationId) : Decidable (s.Uncertain n) :=
  inferInstanceAs (Decidable (∃ l ∈ s.stored n, _))

/-- An expired lease of the tab itself is removed, unless that throws. -/
def clear (n : CoordinationId) (removable : Bool) : LeaseSystem :=
  if removable = true ∧ (s.stored n).isSome = true then s.write n none else s

/-- The first lease of an attempt. -/
def choice (n generation : CoordinationId) : Claim where
  ownerId := n
  acquiredAt := s.clock n
  expiresAt := s.clock n + refreshLeaseTtlMs
  generation := generation
  choosing := true
  holding := false
  ticket := 0

/-- A tab publishes that it is choosing, under a new generation. -/
def choose (n generation : CoordinationId) : LeaseSystem :=
  let candidate := s.choice n generation
  ({ s.write n (some candidate) with
    generations := generation :: s.generations }).goto n
      (.waiting candidate .initial)

/-- `acquireRefreshLease`, up to its first scan. -/
def acquire (n generation : CoordinationId)
    (readable removable writable : Bool) : LeaseSystem :=
  if readable = false then s.goto n .unleased
  else if s.Uncertain n then s
  else if writable = false then (s.clear n removable).goto n .unleased
  -- the generations that are drawn are new ones
  else if generation ∈ s.generations then s
  else (s.clear n removable).choose n generation

/-- What a scan gives was there while it went on. -/
def Sound (start : Nat) (leases : List Claim) : Prop :=
  ∀ lease ∈ leases, ∃ st ∈ s.log.drop start, st lease.ownerId = some lease

instance (start : Nat) (leases : List Claim) :
    Decidable (s.Sound start leases) :=
  inferInstanceAs (Decidable (∀ lease ∈ leases, _))

/-- The next ticket. -/
def takeTicket (n : CoordinationId) (candidate : Claim)
    (leases : List Claim) : LeaseSystem :=
  let maximumTicket := (leases.filter fun l => s.clock n < l.expiresAt).foldl
    (fun maximum l => max maximum l.ticket) 0
  if maxTicket ≤ maximumTicket then (s.release candidate true).goto n .idle
  else
    let candidate := { candidate with
      expiresAt := s.clock n + refreshLeaseTtlMs
      choosing := false
      holding := false
      ticket := maximumTicket + 1 }
    (s.write n (some candidate)).goto n (.waiting candidate (.contend 0))

/-- Publish that the tab is holding. -/
def hold (n : CoordinationId) (candidate : Claim) : LeaseSystem :=
  let candidate := { candidate with holding := true }
  ({ s.write n (some candidate) with
    since := Function.update s.since n s.log.length }).goto n
      (.waiting candidate (.confirm 0))

/-- One turn of the loop. -/
def contend (n : CoordinationId) (candidate : Claim)
    (conflictFreeScans : Nat) (leases : List Claim) : LeaseSystem :=
  if (leases.find? fun l => l.Same candidate).all
      fun l => l.expiresAt ≤ s.clock n then
    (s.release candidate true).goto n .idle
  else if ∃ l ∈ leases, l.Blocks (s.clock n) candidate then
    s.goto n (.waiting candidate (.contend 0))
  else if conflictFreeScans + 1 < 2 then
    s.goto n (.waiting candidate (.contend (conflictFreeScans + 1)))
  else s.hold n candidate

/-- One look for another holder. -/
def confirm (n : CoordinationId) (candidate : Claim)
    (confirmationScan : Nat) (leases : List Claim) : LeaseSystem :=
  if ¬ ∃ l ∈ leases, l.Same candidate ∧ l.holding = true
      ∧ s.clock n < l.expiresAt then
    (s.release candidate true).goto n .idle
  else if ∃ l ∈ leases, l.Competes (s.clock n) candidate then
    let candidate := { candidate with holding := false }
    (s.write n (some candidate)).goto n (.waiting candidate (.contend 0))
  else if confirmationScan + 1 < 2 then
    s.goto n (.waiting candidate (.confirm (confirmationScan + 1)))
  else s.goto n (.operating candidate)

/-- What a tab makes of its scan. -/
def conclude (n : CoordinationId) (candidate : Claim) (leases : List Claim) :
    Round → LeaseSystem
  | .initial => s.takeTicket n candidate leases
  | .contend k => s.contend n candidate k leases
  | .confirm k => s.confirm n candidate k leases

/-- `renew`, while the operation goes on. -/
def heartbeat (n : CoordinationId) (candidate : Claim) : LeaseSystem :=
  match s.stored n with
  | some l =>
      if l.Same candidate ∧ s.clock n < l.expiresAt then
        s.write n (some { l with
          expiresAt := s.clock n + refreshLeaseTtlMs })
      else s
  | none => s

/-- `releaseRefreshLeaseAfterExpiry`. -/
def releaseAfterExpiry (n : CoordinationId) (candidate : Claim)
    (available : Bool) : LeaseSystem :=
  match s.stored n with
  | some l =>
      if available = true ∧ l.Same candidate then
        { s with
          delayed := s.delayed
            ++ [(candidate, max (s.clock n) l.expiresAt + 1)] }
      else s
  | none => s

/-- One event. -/
def step (s : LeaseSystem) : LeaseEvent → LeaseSystem
  | .tick n milliseconds =>
      if 0 ≤ milliseconds then
        { s with
          clock := Function.update s.clock n (s.clock n + milliseconds) }
      else s
  | .acquire n generation readable removable writable =>
      match s.phase n with
      | .idle => s.acquire n generation readable removable writable
      | _ => s
  | .scan n =>
      match s.phase n with
      | .waiting candidate next =>
          s.goto n (.scanning candidate next (s.log.length - 1) (s.clock n))
      | _ => s
  | .scanned n leases =>
      match s.phase n with
      | .scanning candidate next start _ =>
          if s.Sound start leases then s.conclude n candidate leases next
          else s
      | _ => s
  | .giveUp n available =>
      match s.phase n with
      | .waiting candidate _ | .scanning candidate _ _ _ =>
          (s.release candidate available).goto n .idle
      | _ => s
  | .renew n =>
      match s.phase n with
      | .operating candidate => s.heartbeat n candidate
      | _ => s
  | .settle n aborted available =>
      match s.phase n with
      | .unleased => s.goto n .idle
      | .operating candidate =>
          if aborted = true then
            (s.releaseAfterExpiry n candidate available).goto n .idle
          else (s.release candidate available).goto n .idle
      | _ => s
  | .timer lease due available =>
      if (lease, due) ∈ s.delayed ∧ due ≤ s.clock lease.ownerId then
        { s.release lease available with
          delayed := s.delayed.erase (lease, due) }
      else s

-- =================================================================== turns

/-- All that a step can be, with the tab whose key and phase it is about. -/
inductive Turn (s : LeaseSystem) :
    LeaseEvent → CoordinationId → LeaseSystem → Prop where
  | stay (e : LeaseEvent) (n : CoordinationId) : Turn s e n s
  | tick {n : CoordinationId} {milliseconds : Rat}
      (hms : 0 ≤ milliseconds) :
      Turn s (.tick n milliseconds) n { s with
        clock := Function.update s.clock n (s.clock n + milliseconds) }
  | acquire {n : CoordinationId} (generation : CoordinationId)
      (readable removable writable : Bool) (hphase : s.phase n = .idle) :
      Turn s (.acquire n generation readable removable writable) n
        (s.acquire n generation readable removable writable)
  | scan {n : CoordinationId} {candidate : Claim} {next : Round}
      (hphase : s.phase n = .waiting candidate next) :
      Turn s (.scan n) n (s.goto n
        (.scanning candidate next (s.log.length - 1) (s.clock n)))
  | conclude {n : CoordinationId} {candidate : Claim} {next : Round}
      {start : Nat} {startedAt : Rat} {leases : List Claim}
      (hphase : s.phase n = .scanning candidate next start startedAt)
      (hsound : s.Sound start leases) :
      Turn s (.scanned n leases) n (s.conclude n candidate leases next)
  | renew {n : CoordinationId} {candidate : Claim}
      (hphase : s.phase n = .operating candidate) :
      Turn s (.renew n) n (s.heartbeat n candidate)
  | close {n : CoordinationId} {e : LeaseEvent}
      (hphase : s.phase n = .unleased) : Turn s e n (s.goto n .idle)
  | giveUp {n : CoordinationId} {candidate : Claim} {e : LeaseEvent}
      (available : Bool) (hc : candidate ∈ (s.phase n).candidate) :
      Turn s e n ((s.release candidate available).goto n .idle)
  | fence {n : CoordinationId} {candidate : Claim} {e : LeaseEvent}
      (available : Bool) (hc : candidate ∈ (s.phase n).candidate) :
      Turn s e n ((s.releaseAfterExpiry n candidate available).goto n .idle)
  | timer {lease : Claim} {due : Rat} {available : Bool}
      (hdue : (lease, due) ∈ s.delayed) :
      Turn s (.timer lease due available) lease.ownerId
        { s.release lease available with
          delayed := s.delayed.erase (lease, due) }

/-- Each event is a turn of its own tab. -/
theorem step_turn (s : LeaseSystem) (e : LeaseEvent) :
    s.Turn e e.tab (s.step e) := by
  cases e with
  | tick n milliseconds =>
      unfold step
      dsimp only
      split
      · exact .tick ‹_›
      · exact .stay _ n
  | acquire n generation readable removable writable =>
      unfold step
      dsimp only
      split
      · exact .acquire generation readable removable writable ‹_›
      · exact .stay _ n
  | scan n =>
      unfold step
      dsimp only
      split
      · exact .scan ‹_›
      · exact .stay _ n
  | scanned n leases =>
      unfold step
      dsimp only
      split
      · split
        · exact .conclude ‹_› ‹_›
        · exact .stay _ n
      · exact .stay _ n
  | giveUp n available =>
      show s.Turn _ n _
      unfold step
      dsimp only
      split
      · rename_i hphase
        exact .giveUp available (by rw [hphase]; rfl)
      · rename_i hphase
        exact .giveUp available (by rw [hphase]; rfl)
      · exact .stay _ n
  | renew n =>
      unfold step
      dsimp only
      split
      · exact .renew ‹_›
      · exact .stay _ n
  | settle n aborted available =>
      show s.Turn _ n _
      unfold step
      dsimp only
      split
      · exact .close ‹_›
      · rename_i hphase
        split
        · exact .fence available (by rw [hphase]; rfl)
        · exact .giveUp available (by rw [hphase]; rfl)
      · exact .stay _ n
  | timer lease due available =>
      unfold step
      dsimp only
      split
      · rename_i hdue
        exact .timer hdue.1
      · exact .stay _ _

-- ================================================================== frames

/-- What a step of one tab leaves of the others. -/
structure Frame (n : CoordinationId) (s s' : LeaseSystem) : Prop where
  phase : ∀ m, m ≠ n → s'.phase m = s.phase m
  stored : ∀ m, m ≠ n → s'.stored m = s.stored m
  since : ∀ m, m ≠ n → s'.since m = s.since m
  clock : ∀ m, s.clock m ≤ s'.clock m
  log : ∃ passed, s'.log = s.log ++ passed
    ∧ ∀ st ∈ passed, ∀ m, m ≠ n → st m = s.stored m
  last : s.log.getLast? = some s.stored →
    s'.log.getLast? = some s'.stored
  generations : s.generations ⊆ s'.generations
  delayed : ∀ d ∈ s'.delayed, d ∈ s.delayed
    ∨ d.1.ownerId = n ∧ d.1.generation ∈ s.generations

variable {s} {s' s'' : LeaseSystem} {n : CoordinationId} {c : Claim}

namespace Frame

/-- Nothing has changed. -/
theorem refl (n : CoordinationId) (s : LeaseSystem) : Frame n s s where
  phase := fun _ _ => rfl
  stored := fun _ _ => rfl
  since := fun _ _ => rfl
  clock := fun _ => le_refl _
  log := ⟨[], (List.append_nil _).symm, List.forall_mem_nil _⟩
  last := id
  generations := List.Subset.refl _
  delayed := fun _ hd => Or.inl hd

/-- A tab may go on. -/
theorem goto (h : Frame n s s') (p : TabPhase) : Frame n s (s'.goto n p) where
  phase := by
    intro m hm
    rw [← h.phase m hm]
    exact Function.update_of_ne hm _ _
  stored := h.stored
  since := h.since
  clock := h.clock
  log := h.log
  last := h.last
  generations := h.generations
  delayed := h.delayed

/-- It may write its own key. -/
theorem write (h : Frame n s s') (claim : Option Claim) :
    Frame n s (s'.write n claim) where
  phase := h.phase
  stored := by
    intro m hm
    rw [← h.stored m hm]
    exact Function.update_of_ne hm _ _
  since := h.since
  clock := h.clock
  log := by
    obtain ⟨passed, hlog, hpassed⟩ := h.log
    refine ⟨passed ++ [Function.update s'.stored n claim], ?_, ?_⟩
    · show s'.log ++ _ = _
      rw [hlog, List.append_assoc]
    · intro st hst m hm
      rcases List.mem_append.mp hst with hst | hst
      · exact hpassed st hst m hm
      · rw [List.mem_singleton.mp hst, Function.update_of_ne hm, h.stored m hm]
  last := fun _ => List.getLast?_concat
  generations := h.generations
  delayed := h.delayed

/-- It may release a lease of its own. -/
theorem release (h : Frame n s s') (hc : c.ownerId = n) (available : Bool) :
    Frame n s (s'.release c available) := by
  unfold LeaseSystem.release
  split
  · rw [hc]
    exact h.write none
  · exact h

/-- It may remove an expired lease of its own. -/
theorem clear (h : Frame n s s') (removable : Bool) :
    Frame n s (s'.clear n removable) := by
  unfold LeaseSystem.clear
  split
  · exact h.write none
  · exact h

/-- It may begin to choose. -/
theorem choose (h : Frame n s s') (generation : CoordinationId) :
    Frame n s (s'.choose n generation) := by
  obtain ⟨hphase, hstored, hsince, hclock, hlog, hlast, hgenerations,
    hdelayed⟩ :=
    (h.write (some (s'.choice n generation))).goto
      (.waiting (s'.choice n generation) .initial)
  exact ⟨hphase, hstored, hsince, hclock, hlog, hlast,
    fun g hg => List.mem_cons_of_mem _ (hgenerations hg), hdelayed⟩

/-- It may date its flag. -/
theorem mark (h : Frame n s s') (i : Nat) :
    Frame n s { s' with since := Function.update s'.since n i } where
  phase := h.phase
  stored := h.stored
  since := by
    intro m hm
    rw [← h.since m hm]
    exact Function.update_of_ne hm _ _
  clock := h.clock
  log := h.log
  last := h.last
  generations := h.generations
  delayed := h.delayed

/-- So an acquisition is within the frame. -/
theorem acquire (n generation : CoordinationId)
    (readable removable writable : Bool) :
    Frame n s (s.acquire n generation readable removable writable) := by
  unfold LeaseSystem.acquire
  split
  · exact (refl n s).goto _
  · split
    · exact refl n s
    · split
      · exact ((refl n s).clear removable).goto _
      · split
        · exact refl n s
        · exact ((refl n s).clear removable).choose generation

/-- So is a ticket that is taken. -/
theorem takeTicket (hc : c.ownerId = n) (leases : List Claim) :
    Frame n s (s.takeTicket n c leases) := by
  unfold LeaseSystem.takeTicket
  dsimp only
  split
  · exact ((refl n s).release hc true).goto _
  · exact ((refl n s).write _).goto _

/-- And a look at who is before. -/
theorem contend (hc : c.ownerId = n) (k : Nat) (leases : List Claim) :
    Frame n s (s.contend n c k leases) := by
  unfold LeaseSystem.contend
  split
  · exact ((refl n s).release hc true).goto _
  · split
    · exact (refl n s).goto _
    · split
      · exact (refl n s).goto _
      · exact (((refl n s).write _).mark _).goto _

/-- And one for another holder. -/
theorem confirm (hc : c.ownerId = n) (k : Nat) (leases : List Claim) :
    Frame n s (s.confirm n c k leases) := by
  unfold LeaseSystem.confirm
  split
  · exact ((refl n s).release hc true).goto _
  · dsimp only
    split
    · exact ((refl n s).write _).goto _
    · split <;> exact (refl n s).goto _

/-- And the end of any scan. -/
theorem conclude (hc : c.ownerId = n) (leases : List Claim) (next : Round) :
    Frame n s (s.conclude n c leases next) := by
  cases next with
  | initial => exact takeTicket hc leases
  | contend k => exact contend hc k leases
  | confirm k => exact confirm hc k leases

/-- And a heartbeat. -/
theorem heartbeat (n : CoordinationId) (c : Claim) :
    Frame n s (s.heartbeat n c) := by
  unfold LeaseSystem.heartbeat
  split
  · split
    · exact (refl n s).write _
    · exact refl n s
  · exact refl n s

/-- And a release that waits for the lease to expire. -/
theorem releaseAfterExpiry (hc : c.ownerId = n)
    (hdrawn : c.generation ∈ s.generations) (available : Bool) :
    Frame n s (s.releaseAfterExpiry n c available) := by
  unfold LeaseSystem.releaseAfterExpiry
  split
  · split
    · obtain ⟨hphase, hstored, hsince, hclock, hlog, hlast, hgenerations, -⟩ :=
        refl n s
      refine ⟨hphase, hstored, hsince, hclock, hlog, hlast, hgenerations, ?_⟩
      intro d hd
      rcases List.mem_append.mp hd with hd | hd
      · exact Or.inl hd
      · rw [List.mem_singleton.mp hd]
        exact Or.inr ⟨hc, hdrawn⟩
    · exact refl n s
  · exact refl n s

/-- And one that has waited. -/
theorem timer (lease : Claim) (due : Rat) (available : Bool) :
    Frame lease.ownerId s { s.release lease available with
      delayed := s.delayed.erase (lease, due) } := by
  obtain ⟨hphase, hstored, hsince, hclock, hlog, hlast, hgenerations, -⟩ :=
    (refl lease.ownerId s).release rfl available
  exact ⟨hphase, hstored, hsince, hclock, hlog, hlast,
    hgenerations, fun d hd => Or.inl (List.mem_of_mem_erase hd)⟩

end Frame

end LeaseSystem

end Frontend

end Skrynia
