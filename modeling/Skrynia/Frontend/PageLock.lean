/-
The lock of one page, a chain of promises.

Every call of `runWithLocalPageLock` puts a promise of its own at the end
of the chain, its tail, and waits for the tail before it: through
`rejectWhenAborted`, if the caller has a signal, and `rejectAfter`. A
caller whose wait fails passes the opening of the tail before it on to
its own.

An event is a call, an abort, a timer, the settling of an operation or
one job of the promise queue (`Promises`), so that anything may come
between any two jobs. A timer fires only when the queue is empty.

# When a caller still waits

Three jobs lead from an open tail to the operation behind it, two without
a signal. The first of the three takes the listener off the signal. An
abort until then keeps the operation from running (`lock_is_fifo`); one
after it is the operation's own matter (`late_abort_runs`).
-/
import Skrynia.Lib.Promises
import Skrynia.Lib.Runs

namespace Skrynia

namespace Frontend

open Promises Stepping

-- ================================================================== state

/-- The promises that there are. -/
inductive PromiseId where
  /-- The tail behind the first calls; `tail 0` is `Promise.resolve()`. -/
  | tail (calls : Nat)
  /-- The promise of `rejectWhenAborted`. -/
  | wait (call : Nat)
  /-- That of `rejectAfter`. -/
  | bounded (call : Nat)
  | operation (call : Nat)
deriving DecidableEq

/-- What runs when a promise is settled. -/
inductive LockJob where
  /-- The reaction in `rejectWhenAborted`. -/
  | signalled (call : Nat)
  /-- The reaction in `rejectAfter`, to the tail before the call itself if
  there is no signal. -/
  | bounded (call : Nat) (direct : Bool)
  /-- Behind `await rejectAfter(…)`. -/
  | resumed (call : Nat)
  /-- Behind `await operation()`. -/
  | finished (call : Nat)
  /-- `previous.then(release, release)`. -/
  | forwarded (call : Nat)
deriving DecidableEq

/-- Where a call is. -/
inductive LockPc where
  | idle
  | waiting
  | operating
  | left
  | abandoned
deriving DecidableEq

/-- The page: its promises, its calls, and the timers and listeners that are
out. -/
structure PageLock where
  promises : Heap PromiseId LockJob
  /-- The number of calls; the last tail is theirs. -/
  calls : Nat
  signal : Nat → Option Nat
  aborted : Nat → Bool
  /-- `handleAbort` is registered. -/
  listening : Nat → Bool
  timer : Nat → Bool
  pc : Nat → LockPc
  /-- The operations that were called, in order. -/
  started : List Nat

/-- What may happen next. -/
inductive LockEvent where
  | call (signal : Option Nat)
  | abort (signal : Nat)
  /-- The timer of a call. -/
  | timeout (call : Nat)
  /-- An operation settles its promise. -/
  | settle (call : Nat) (outcome : Bool)
  /-- The next job; an operation that it calls may throw. -/
  | job (throws : Bool)

namespace PageLock

/-- Before the first call; the first tail is settled. -/
def initial : PageLock where
  promises :=
    { settled := fun p => if p = .tail 0 then some true else none
      reactions := fun _ => []
      queue := [] }
  calls := 0
  signal _ := none
  aborted _ := false
  listening _ := false
  timer _ := false
  pc _ := .idle
  started := []

-- =================================================================== steps

/-- `rejectWhenAborted(previous, callerSignal)` and the reaction of
`rejectAfter` to what it returns. -/
def awaitPrevious (s : PageLock) (i : Nat) (signal : Option Nat) :
    Heap PromiseId LockJob :=
  match signal with
  | none => s.promises.react (.tail i) (.bounded i true)
  | some σ =>
      if s.aborted σ then
        (s.promises.settle (.wait i) false).react (.wait i) (.bounded i false)
      else
        (s.promises.react (.tail i) (.signalled i)).react (.wait i)
          (.bounded i false)

/-- A call up to its `await`. -/
def call (s : PageLock) (signal : Option Nat) : PageLock :=
  { s with
    calls := s.calls + 1
    signal := Function.update s.signal s.calls signal
    listening := Function.update s.listening s.calls
      (signal.any fun σ => !s.aborted σ)
    timer := Function.update s.timer s.calls true
    pc := Function.update s.pc s.calls .waiting
    promises := (s.awaitPrevious s.calls signal).react (.bounded s.calls)
      (.resumed s.calls) }

/-- The calls whose `handleAbort` a signal runs. -/
def listeners (s : PageLock) (σ : Nat) : List Nat :=
  (List.range s.calls).filter fun i => s.listening i && s.signal i = some σ

/-- A signal is aborted, once: its listeners are called. -/
def abort (s : PageLock) (σ : Nat) : PageLock :=
  if s.aborted σ then s
  else
    { s with
      aborted := Function.update s.aborted σ true
      listening := fun i => s.listening i && s.signal i ≠ some σ
      promises := (s.listeners σ).foldl
        (fun h i => h.settle (.wait i) false) s.promises }

/-- A timer fires, the queue being empty. -/
def timeout (s : PageLock) (i : Nat) : PageLock :=
  if s.timer i && s.promises.queue.isEmpty then
    { s with
      timer := Function.update s.timer i false
      promises := s.promises.settle (.bounded i) false }
  else s

/-- An operation settles its promise. -/
def settle (s : PageLock) (i : Nat) (outcome : Bool) : PageLock :=
  if s.pc i = .operating then
    { s with promises := s.promises.settle (.operation i) outcome }
  else s

/-- `release()`. -/
def release (s : PageLock) (i : Nat) : PageLock :=
  { s with promises := s.promises.settle (.tail (i + 1)) true }

/-- Behind `await rejectAfter(…)`: the operation, or `finally`. -/
def resume (s : PageLock) (i : Nat) (granted throws : Bool) : PageLock :=
  if granted then
    if throws then
      { s with
        pc := Function.update s.pc i .left
        started := s.started ++ [i]
        promises := (s.promises.settle (.operation i) false).settle
          (.tail (i + 1)) true }
    else
      { s with
        pc := Function.update s.pc i .operating
        started := s.started ++ [i]
        promises := s.promises.react (.operation i) (.finished i) }
  else
    { s with
      pc := Function.update s.pc i .abandoned
      promises := s.promises.react (.tail i) (.forwarded i) }

/-- The first job of the queue. -/
def runJob (s : PageLock) (job : LockJob) (outcome throws : Bool) :
    PageLock :=
  match job with
  | .signalled i =>
      { s with
        listening := Function.update s.listening i false
        promises := s.promises.settle (.wait i) outcome }
  | .bounded i _ =>
      { s with
        timer := Function.update s.timer i false
        promises := s.promises.settle (.bounded i) outcome }
  | .resumed i => s.resume i outcome throws
  | .finished i =>
      { s with
        pc := Function.update s.pc i .left
        promises := s.promises.settle (.tail (i + 1)) true }
  | .forwarded i => s.release i

/-- One event. -/
def step (s : PageLock) : LockEvent → PageLock
  | .call signal => s.call signal
  | .abort σ => s.abort σ
  | .timeout i => s.timeout i
  | .settle i outcome => s.settle i outcome
  | .job throws =>
      match s.promises.queue with
      | [] => s
      | (job, outcome) :: _ =>
          { s with promises := s.promises.pop }.runJob job outcome throws

-- ============================================================= the claims

/-- An operation that was called and has not settled. -/
def Running (s : PageLock) (i : Nat) : Prop :=
  i ∈ s.started ∧ s.promises.settled (.operation i) = none

/-- The wait of a call fails with this event: its timer fires, or its
signal aborts while it listens or has aborted before the call. -/
def TurnedAway (s : PageLock) (i : Nat) : LockEvent → Prop
  | .timeout j => j = i ∧ s.timer i = true ∧ s.promises.queue = []
  | .abort σ => s.signal i = some σ ∧ s.listening i = true
      ∧ s.aborted σ = false
  | .call signal => i = s.calls ∧ signal.any s.aborted = true
  | _ => False

/-- The lock is free: a call starts its operation after a few jobs,
without a timer. -/
def Free (s : PageLock) : Prop :=
  ∀ signal : Option Nat, signal.all (fun σ => !s.aborted σ) = true →
    (run step s [.call signal, .job false, .job false, .job false]).started
      = s.started ++ [s.calls]

end PageLock

-- ================================================================ calls

/-- The call that a job is of. -/
def LockJob.call : LockJob → Nat
  | signalled i | bounded i _ | resumed i | finished i | forwarded i => i

/-- The promise that a job reacts to. -/
def LockJob.on : LockJob → PromiseId → Prop
  | signalled i, p => p = .tail i
  | bounded i direct, p => p = if direct then .tail i else .wait i
  | resumed i, p => p = .bounded i
  | finished i, p => p = .operation i
  | forwarded i, p => p = .tail i

/-- The promises that a call has made. -/
def PromiseId.OwnedBy (i : Nat) : PromiseId → Prop
  | tail calls => calls = i + 1
  | wait call => call = i
  | bounded call => call = i
  | operation call => call = i

namespace PageLock

variable {s s' : PageLock} {i n : Nat}

/-- The tail before a call is open. -/
def Open (s : PageLock) (i : Nat) : Prop :=
  s.promises.settled (.tail i) = some true

/-- What a call has left behind where it is. -/
def AtPc (s : PageLock) (i : Nat) : Prop :=
  match s.pc i with
  | .idle => s.calls ≤ i ∧ ∀ p, p.OwnedBy i → s.promises.settled p = none
  | .waiting => i < s.calls
      ∧ s.promises.settled (.tail (i + 1)) = none
      ∧ s.promises.Pending (.resumed i)
      ∧ (s.promises.settled (.bounded i) = none →
        s.promises.Pending (.bounded i (s.signal i).isNone)
        ∧ (s.signal i ≠ none → s.promises.settled (.wait i) = none →
          s.promises.Pending (.signalled i)))
  | .operating => i < s.calls
      ∧ s.promises.settled (.tail (i + 1)) = none
      ∧ s.promises.settled (.bounded i) = some true
      ∧ s.promises.Pending (.finished i)
  | .left => i < s.calls
      ∧ s.promises.settled (.tail (i + 1)) = some true
      ∧ s.promises.settled (.bounded i) = some true
      ∧ s.promises.settled (.operation i) ≠ none
  | .abandoned => i < s.calls
      ∧ s.promises.settled (.bounded i) = some false
      ∧ (s.promises.settled (.tail (i + 1)) = none
          ∧ s.promises.Pending (.forwarded i)
        ∨ s.promises.settled (.tail (i + 1)) = some true ∧ s.Open i)

/-- A call is granted through the chain only. -/
structure CallInv (s : PageLock) (i : Nat) : Prop where
  wait : s.promises.settled (.wait i) = some true → s.Open i
  bounded : s.promises.settled (.bounded i) = some true → s.Open i
    ∧ (s.signal i ≠ none → s.promises.settled (.wait i) = some true)
  listening : s.listening i = true → s.promises.settled (.wait i) = none
  timer : s.timer i = true → s.promises.settled (.bounded i) = none
  called : s.pc i = .idle → s.listening i = false ∧ s.timer i = false
  started : i ∈ s.started ↔ s.pc i = .operating ∨ s.pc i = .left
  at_pc : s.AtPc i

/-- A job that has not run is one that its call still waits for. -/
def JobInv (s : PageLock) : LockJob → Prop
  | .signalled i => i < s.calls
  | .bounded i direct => i < s.calls ∧ direct = (s.signal i).isNone
  | .resumed i => s.pc i = .waiting
  | .finished i => s.pc i = .operating
  | .forwarded i => s.pc i = .abandoned

/-- What holds at all times: every call and every job is where it should be,
and operations start in the order of the calls. -/
structure Inv (s : PageLock) : Prop where
  sound : s.promises.Sound LockJob.on
  first : s.Open 0
  calls : ∀ i, s.CallInv i
  jobs : ∀ j, s.promises.Pending j → s.JobInv j
  ordered : s.started.Pairwise (· < ·)

-- ================================================================== frames

/-- The step is of one call: what the others have is as it was, but for
tails that have opened. -/
structure Touches (s s' : PageLock) (n : Nat) : Prop where
  pc : ∀ i, i ≠ n → s'.pc i = s.pc i
  signal : ∀ i, i ≠ n → s'.signal i = s.signal i
  listening : ∀ i, i ≠ n → s'.listening i = s.listening i
  timer : ∀ i, i ≠ n → s'.timer i = s.timer i
  calls : ∀ i, i ≠ n → (i < s'.calls ↔ i < s.calls)
  started : ∀ i, i ≠ n → (i ∈ s'.started ↔ i ∈ s.started)
  settled : ∀ p, ¬ p.OwnedBy n → s'.promises.settled p = s.promises.settled p
  kept : ∀ p b, s.promises.settled p = some b → s'.promises.settled p = some b
  pending : ∀ j, j.call ≠ n →
    (s'.promises.Pending j ↔ s.promises.Pending j)

/-- What one call does leaves the others where they are. -/
theorem Touches.callInv (h : Touches s s' n) (hi : i ≠ n)
    (hc : s.CallInv i) : s'.CallInv i := by
  have howned : ∀ p : PromiseId, p.OwnedBy i →
      s'.promises.settled p = s.promises.settled p := by
    intro p hp
    refine h.settled p ?_
    intro hn
    cases p with
    | tail calls =>
        unfold PromiseId.OwnedBy at hp hn
        omega
    | wait call => exact hi (hp.symm.trans hn)
    | bounded call => exact hi (hp.symm.trans hn)
    | operation call => exact hi (hp.symm.trans hn)
  have hwait := howned (.wait i) rfl
  have hbounded := howned (.bounded i) rfl
  have hoperation := howned (.operation i) rfl
  have htail := howned (.tail (i + 1)) rfl
  have hopen : s.Open i → s'.Open i := h.kept _ true
  obtain ⟨hcwait, hcbounded, hclistening, hctimer, hccalled, hcstarted,
    hcpc⟩ := hc
  refine ⟨?_, ?_, ?_, ?_, ?_, ?_, ?_⟩
  · rw [hwait]
    exact fun hw => hopen (hcwait hw)
  · rw [hbounded, hwait, h.signal i hi]
    exact fun hb => (hcbounded hb).imp_left hopen
  · rw [h.listening i hi, hwait]
    exact hclistening
  · rw [h.timer i hi, hbounded]
    exact hctimer
  · rw [h.pc i hi, h.listening i hi, h.timer i hi]
    exact hccalled
  · rw [h.started i hi, h.pc i hi]
    exact hcstarted
  · unfold AtPc at hcpc ⊢
    rw [h.pc i hi]
    cases hpc : s.pc i with
    | idle =>
        rw [hpc] at hcpc
        refine ⟨?_, fun p hp => (howned p hp).trans (hcpc.2 p hp)⟩
        have := h.calls i hi
        omega
    | waiting =>
        simp only [hpc] at hcpc ⊢
        rw [h.calls i hi, htail, hbounded, hwait, h.signal i hi,
          h.pending (.resumed i) hi, h.pending (.bounded i _) hi,
          h.pending (.signalled i) hi]
        exact hcpc
    | operating =>
        simp only [hpc] at hcpc ⊢
        rw [h.calls i hi, htail, hbounded, h.pending (.finished i) hi]
        exact hcpc
    | left =>
        simp only [hpc] at hcpc ⊢
        rw [h.calls i hi, htail, hbounded, hoperation]
        exact hcpc
    | abandoned =>
        simp only [hpc] at hcpc ⊢
        rw [h.calls i hi, htail, hbounded, h.pending (.forwarded i) hi]
        exact ⟨hcpc.1, hcpc.2.1, hcpc.2.2.imp_right (And.imp_right hopen)⟩

/-- And their jobs. -/
theorem Touches.jobInv (h : Touches s s' n) {j : LockJob} (hj : j.call ≠ n)
    (hjob : s.JobInv j) : s'.JobInv j := by
  cases j with
  | signalled i => exact (h.calls i hj).mpr hjob
  | bounded i direct =>
      refine ⟨(h.calls i hj).mpr hjob.1, ?_⟩
      rw [h.signal i hj]
      exact hjob.2
  | resumed i => exact (h.pc i hj).trans hjob
  | finished i => exact (h.pc i hj).trans hjob
  | forwarded i => exact (h.pc i hj).trans hjob

/-- The invariant after a step of one call, by what the step does to that
call. -/
theorem Inv.of_touches (hs : s.Inv) (h : Touches s s' n)
    (hsound : s'.promises.Sound LockJob.on) (hcall : s'.CallInv n)
    (hjobs : ∀ j : LockJob, j.call = n → s'.promises.Pending j → s'.JobInv j)
    (hordered : s'.started.Pairwise (· < ·)) : s'.Inv := by
  refine ⟨hsound, h.kept _ true hs.first, ?_, ?_, hordered⟩
  · intro i
    by_cases hi : i = n
    · rw [hi]
      exact hcall
    · exact h.callInv hi (hs.calls i)
  · intro j hj
    by_cases hn : j.call = n
    · exact hjobs j hn hj
    · exact h.jobInv hn (hs.jobs j ((h.pending j hn).mp hj))

-- =================================================================== tails

/-- A call that has begun is one of those counted. -/
theorem CallInv.lt_calls (hc : s.CallInv i) (h : s.pc i ≠ .idle) :
    i < s.calls := by
  have hat := hc.at_pc
  unfold AtPc at hat
  split at hat
  · next hidle => exact absurd hidle h
  · exact hat.1
  · exact hat.1
  · exact hat.1
  · exact hat.1

/-- A call that is not there yet has settled nothing. -/
theorem Inv.fresh (hs : s.Inv) (h : s.calls ≤ i) :
    s.pc i = .idle ∧ ∀ p : PromiseId, p.OwnedBy i →
      s.promises.settled p = none := by
  have hidle : s.pc i = .idle := by
    by_contra hne
    have := (hs.calls i).lt_calls hne
    omega
  have hat := (hs.calls i).at_pc
  unfold AtPc at hat
  rw [hidle] at hat
  exact ⟨hidle, hat.2⟩

/-- No job of it is there either. -/
theorem Inv.not_pending (hs : s.Inv) {j : LockJob} (h : s.calls ≤ j.call) :
    ¬ s.promises.Pending j := by
  intro hj
  have hjob := hs.jobs j hj
  have hidle := (hs.fresh h).1
  cases j with
  | signalled i => exact Nat.not_lt.mpr h hjob
  | bounded i direct => exact Nat.not_lt.mpr h hjob.1
  | resumed i => exact absurd (hidle.symm.trans hjob) (by decide)
  | finished i => exact absurd (hidle.symm.trans hjob) (by decide)
  | forwarded i => exact absurd (hidle.symm.trans hjob) (by decide)

/-- A tail that is open has its call behind it, and the tail before it is
open. -/
theorem Inv.open_prev (hs : s.Inv) {b : Bool}
    (h : s.promises.settled (.tail (i + 1)) = some b) :
    b = true ∧ s.Open i ∧ (s.pc i = .left ∨ s.pc i = .abandoned) := by
  have hc := hs.calls i
  have hat := hc.at_pc
  unfold AtPc at hat
  cases hpc : s.pc i with
  | idle =>
      rw [hpc] at hat
      rw [hat.2 (.tail (i + 1)) rfl] at h
      cases h
  | waiting =>
      rw [hpc] at hat
      rw [hat.2.1] at h
      cases h
  | operating =>
      rw [hpc] at hat
      rw [hat.2.1] at h
      cases h
  | left =>
      rw [hpc] at hat
      rw [hat.2.1] at h
      exact ⟨(Option.some.inj h).symm, (hc.bounded hat.2.2.1).1, Or.inl rfl⟩
  | abandoned =>
      rw [hpc] at hat
      rcases hat.2.2 with ⟨hnone, -⟩ | ⟨hopen, hprev⟩
      · rw [hnone] at h
        cases h
      · rw [hopen] at h
        exact ⟨(Option.some.inj h).symm, hprev, Or.inr rfl⟩

/-- Tails are opened, never rejected. -/
theorem Inv.open_of_settled (hs : s.Inv) {b : Bool}
    (h : s.promises.settled (.tail i) = some b) : b = true := by
  cases i with
  | zero =>
      have hfirst := hs.first
      unfold Open at hfirst
      rw [hfirst] at h
      exact (Option.some.inj h).symm
  | succ i => exact (hs.open_prev h).1

/-- Behind an open tail all earlier tails are open. -/
theorem Inv.open_of_le (hs : s.Inv) {m : Nat} (hle : m ≤ i) (h : s.Open i) :
    s.Open m := by
  induction i with
  | zero =>
      rw [Nat.le_zero.mp hle]
      exact h
  | succ i ih =>
      rcases Nat.lt_or_ge i m with hlt | hge
      · rw [show m = i + 1 by omega]
        exact h
      · exact ih hge (hs.open_prev h).2.1

/-- An operation that was called was granted the open tail. -/
theorem Inv.open_of_started (hs : s.Inv) (h : i ∈ s.started) :
    s.promises.settled (.bounded i) = some true ∧ s.Open i := by
  have hc := hs.calls i
  have hat := hc.at_pc
  unfold AtPc at hat
  have hbounded : s.promises.settled (.bounded i) = some true := by
    rcases hc.started.mp h with hpc | hpc
    · rw [hpc] at hat
      exact hat.2.2.1
    · rw [hpc] at hat
      exact hat.2.2.1
  exact ⟨hbounded, (hc.bounded hbounded).1⟩

/-- Calls that still wait come after all that were called. -/
theorem Inv.started_lt (hs : s.Inv) (hpc : s.pc i = .waiting) :
    ∀ m ∈ s.started, m < i := by
  intro m hm
  by_contra hge
  have hne : m ≠ i := by
    intro heq
    subst heq
    have := (hs.calls m).started.mp hm
    rw [hpc] at this
    simp at this
  have hopen := hs.open_of_le (by omega : i + 1 ≤ m) (hs.open_of_started hm).2
  have hleft := (hs.open_prev hopen).2.2
  rw [hpc] at hleft
  simp at hleft

-- =================================================================== steps

/-- Settling a promise of a call leaves those of the others. -/
theorem settled_frame {h : Heap PromiseId LockJob} {k : PromiseId} {b : Bool}
    (hk : k.OwnedBy n) (p : PromiseId) (hp : ¬ p.OwnedBy n) :
    (h.settle k b).settled p = h.settled p := by
  refine Heap.settled_settle_of_ne ?_
  intro heq
  subst heq
  exact hp hk

/-- The promise of `rejectAfter` is settled, by its timer or by its
reaction. -/
theorem Inv.settle_bounded (hs : s.Inv) (hn : n < s.calls)
    {h : Heap PromiseId LockJob} (hsound : h.Sound LockJob.on)
    (hsettled : h.settled = s.promises.settled)
    (hpending : ∀ j, (∀ direct, j ≠ .bounded n direct) →
      (h.Pending j ↔ s.promises.Pending j))
    (hless : ∀ j, h.Pending j → s.promises.Pending j) {b : Bool}
    (hgranted : b = true → s.Open n
      ∧ (s.signal n ≠ none → s.promises.settled (.wait n) = some true)) :
    Inv { s with
      timer := Function.update s.timer n false
      promises := h.settle (.bounded n) b } := by
  have hc := hs.calls n
  have hother : ∀ p, p ≠ .bounded n →
      (h.settle (.bounded n) b).settled p = s.promises.settled p := by
    intro p hp
    rw [Heap.settled_settle_of_ne hp, hsettled]
  have hset : ∃ b', (h.settle (.bounded n) b).settled (.bounded n) = some b'
      ∧ (b' = true → s.Open n
        ∧ (s.signal n ≠ none → s.promises.settled (.wait n) = some true))
      ∧ (∀ c, s.promises.settled (.bounded n) = some c → b' = c) := by
    cases hb : s.promises.settled (.bounded n) with
    | none =>
        refine ⟨b, Heap.settled_settle_self (hsettled ▸ hb), hgranted, nofun⟩
    | some c =>
        refine ⟨c, Heap.settled_settle_of_some (hsettled ▸ hb), ?_, ?_⟩
        · intro heq
          subst heq
          exact hc.bounded hb
        · exact fun c' hc' => Option.some.inj hc'
  obtain ⟨b', hb', hgrant, hsame⟩ := hset
  refine hs.of_touches (n := n) ?_ hsound.settle ?_ ?_ hs.ordered
  · exact {
      pc := fun _ _ => rfl
      signal := fun _ _ => rfl
      listening := fun _ _ => rfl
      timer := fun _ hi => Function.update_of_ne hi _ _
      calls := fun _ _ => Iff.rfl
      started := fun _ _ => Iff.rfl
      settled := fun p hp => by
        refine hother p ?_
        intro heq
        subst heq
        exact hp rfl
      kept := fun p c hp => Heap.settled_settle_of_some (hsettled ▸ hp)
      pending := fun j hj => by
        rw [Heap.pending_settle]
        refine hpending j ?_
        intro direct heq
        subst heq
        exact hj rfl }
  · have hwait := hother (.wait n) (by simp)
    have htail := hother (.tail (n + 1)) (by simp)
    have hoperation := hother (.operation n) (by simp)
    have hopen : s.Open n → (h.settle (.bounded n) b).settled (.tail n)
        = some true := fun ho => (hother (.tail n) (by simp)).trans ho
    refine ⟨?_, ?_, ?_, ?_, ?_, hc.started, ?_⟩
    · intro hw
      exact hopen (hc.wait (hwait ▸ hw))
    · intro hw
      obtain ⟨ho, hs'⟩ := hgrant (Option.some.inj (hb'.symm.trans hw))
      exact ⟨hopen ho, fun hsig => hwait.trans (hs' hsig)⟩
    · intro hl
      exact hwait.trans (hc.listening hl)
    · intro ht
      simp only [Function.update_self] at ht
      cases ht
    · intro hidle
      exact ⟨(hc.called hidle).1, Function.update_self _ _ _⟩
    · have hat := hc.at_pc
      unfold AtPc at hat ⊢
      cases hpc : s.pc n with
      | idle =>
          rw [hpc] at hat
          exact absurd hat.1 (by omega)
      | waiting =>
          simp only [hpc] at hat ⊢
          refine ⟨hat.1, htail.trans hat.2.1, ?_, ?_⟩
          · rw [Heap.pending_settle, hpending (.resumed n) fun _ => by simp]
            exact hat.2.2.1
          · intro hnone
            rw [hb'] at hnone
            cases hnone
      | operating =>
          simp only [hpc] at hat ⊢
          refine ⟨hat.1, htail.trans hat.2.1, ?_, ?_⟩
          · rw [hb', hsame true hat.2.2.1]
          · rw [Heap.pending_settle, hpending (.finished n) fun _ => by simp]
            exact hat.2.2.2
      | left =>
          simp only [hpc] at hat ⊢
          refine ⟨hat.1, htail.trans hat.2.1, ?_, ?_⟩
          · rw [hb', hsame true hat.2.2.1]
          · rw [hoperation]
            exact hat.2.2.2
      | abandoned =>
          simp only [hpc] at hat ⊢
          refine ⟨hat.1, ?_, ?_⟩
          · rw [hb', hsame false hat.2.1]
          · rw [htail, Heap.pending_settle,
              hpending (.forwarded n) fun _ => by simp]
            exact hat.2.2.imp_right (And.imp_right hopen)
  · intro j _ hj
    exact hs.jobs j (hless j (Heap.pending_settle.mp hj))

/-- A timer keeps all of it. -/
theorem Inv.timeout (hs : s.Inv) (n : Nat) : (s.timeout n).Inv := by
  unfold PageLock.timeout
  split
  case isFalse => exact hs
  case isTrue htimer =>
    obtain ⟨htimer, -⟩ := Bool.and_eq_true_iff.mp htimer
    have hc := hs.calls n
    refine hs.settle_bounded (hc.lt_calls ?_) hs.sound rfl
      (fun _ _ => Iff.rfl) (fun _ hj => hj) nofun
    intro hidle
    rw [(hc.called hidle).2] at htimer
    cases htimer

/-- The job of the queue's front is taken out. -/
structure Taken (s : PageLock) (h : Heap PromiseId LockJob) (job : LockJob)
    (outcome : Bool) : Prop where
  settled : h.settled = s.promises.settled
  pending : ∀ j, h.Pending j ↔ s.promises.Pending j ∧ j ≠ job
  sound : h.Sound LockJob.on
  held : s.JobInv job
  source : ∃ p, job.on p ∧ s.promises.settled p = some outcome

/-- The first job is taken from the queue. -/
theorem Inv.taken (hs : s.Inv) {job : LockJob} {outcome : Bool}
    {rest : List (LockJob × Bool)}
    (hq : s.promises.queue = (job, outcome) :: rest) :
    Taken s s.promises.pop job outcome where
  settled := rfl
  pending _ := hs.sound.pending_pop hq
  sound := hs.sound.pop
  held := hs.jobs job (Or.inr (by rw [hq]; exact List.mem_cons_self))
  source := hs.sound.queued (job, outcome) (by rw [hq]; exact List.mem_cons_self)

section Jobs

variable {h : Heap PromiseId LockJob} {outcome : Bool}

/-- Jobs of other calls are not touched. -/
theorem Taken.pending_other {job : LockJob} (ht : Taken s h job outcome)
    (hjob : job.call = n) (j : LockJob) (hj : j.call ≠ n) :
    h.Pending j ↔ s.promises.Pending j := by
  rw [ht.pending]
  refine and_iff_left ?_
  intro heq
  subst heq
  exact hj hjob

/-- The job of a bounded wait that is settled takes the timer away. -/
theorem Inv.bounded_job (hs : s.Inv) {direct : Bool}
    (ht : Taken s h (.bounded n direct) outcome) :
    Inv { s with
      timer := Function.update s.timer n false
      promises := h.settle (.bounded n) outcome } := by
  obtain ⟨hn, hdirect⟩ := ht.held
  refine hs.settle_bounded hn ht.sound ht.settled ?_
    (fun j hj => ((ht.pending j).mp hj).1) ?_
  · intro j hj
    rw [ht.pending]
    exact and_iff_left (hj direct)
  · intro heq
    subst heq
    obtain ⟨p, hon, hp⟩ := ht.source
    cases hsignal : s.signal n with
    | none =>
        rw [hsignal] at hdirect
        rw [hdirect] at hon
        rw [show p = .tail n from hon] at hp
        exact ⟨hp, fun hne => absurd rfl hne⟩
    | some σ =>
        rw [hsignal] at hdirect
        rw [hdirect] at hon
        rw [show p = .wait n from hon] at hp
        exact ⟨(hs.calls n).wait hp, fun _ => hp⟩

/-- The job of a wait with a signal takes the listener off first, then the
wait settles as the tail did; so a later abort finds nobody listening. -/
theorem Inv.signalled_job (hs : s.Inv)
    (ht : Taken s h (.signalled n) outcome) :
    Inv { s with
      listening := Function.update s.listening n false
      promises := h.settle (.wait n) outcome } := by
  have hc := hs.calls n
  have hopen : s.Open n := by
    obtain ⟨p, rfl, hp⟩ := ht.source
    rwa [hs.open_of_settled hp] at hp
  have hother : ∀ p, p ≠ .wait n →
      (h.settle (.wait n) outcome).settled p = s.promises.settled p := by
    intro p hp
    rw [Heap.settled_settle_of_ne hp, ht.settled]
  have hkept : ∀ p b, s.promises.settled p = some b →
      (h.settle (.wait n) outcome).settled p = some b :=
    fun p b hp => Heap.settled_settle_of_some (ht.settled ▸ hp)
  have hopen' := hkept (.tail n) true hopen
  refine hs.of_touches (n := n) ?_ ht.sound.settle ?_ ?_ hs.ordered
  · exact {
      pc := fun _ _ => rfl
      signal := fun _ _ => rfl
      listening := fun _ hi => Function.update_of_ne hi _ _
      timer := fun _ _ => rfl
      calls := fun _ _ => Iff.rfl
      started := fun _ _ => Iff.rfl
      settled := fun p hp => by
        refine hother p ?_
        intro heq
        subst heq
        exact hp rfl
      kept := hkept
      pending := fun j hj => by
        rw [Heap.pending_settle]
        exact ht.pending_other rfl j hj }
  · have hbounded := hother (.bounded n) (by simp)
    have htail := hother (.tail (n + 1)) (by simp)
    have hoperation := hother (.operation n) (by simp)
    have hpending : ∀ j, j ≠ .signalled n →
        ((h.settle (.wait n) outcome).Pending j ↔ s.promises.Pending j) := by
      intro j hj
      rw [Heap.pending_settle, ht.pending]
      exact and_iff_left hj
    refine ⟨fun _ => hopen', ?_, ?_, ?_, ?_, hc.started, ?_⟩
    · intro hb
      obtain ⟨-, hw⟩ := hc.bounded (hbounded ▸ hb)
      exact ⟨hopen', fun hsig => hkept _ _ (hw hsig)⟩
    · intro hl
      simp only [Function.update_self] at hl
      cases hl
    · intro htimer
      exact hbounded.trans (hc.timer htimer)
    · intro hidle
      exact ⟨Function.update_self _ _ _, (hc.called hidle).2⟩
    · have hat := hc.at_pc
      unfold AtPc at hat ⊢
      cases hpc : s.pc n with
      | idle =>
          rw [hpc] at hat
          have hlt : n < s.calls := ht.held
          exact absurd hat.1 (by omega)
      | waiting =>
          simp only [hpc] at hat ⊢
          rw [htail, hbounded, hpending (.resumed n) (by simp),
            hpending (.bounded n _) (by simp)]
          refine ⟨hat.1, hat.2.1, hat.2.2.1, fun hb => ⟨(hat.2.2.2 hb).1, ?_⟩⟩
          -- the promise of the wait is settled
          intro _ hw
          cases hwas : s.promises.settled (.wait n) with
          | none =>
              rw [Heap.settled_settle_self (ht.settled ▸ hwas)] at hw
              cases hw
          | some b =>
              rw [hkept _ _ hwas] at hw
              cases hw
      | operating =>
          simp only [hpc] at hat ⊢
          rw [htail, hbounded, hpending (.finished n) (by simp)]
          exact hat
      | left =>
          simp only [hpc] at hat ⊢
          rw [htail, hbounded, hoperation]
          exact hat
      | abandoned =>
          simp only [hpc] at hat ⊢
          rw [htail, hbounded, hpending (.forwarded n) (by simp)]
          exact ⟨hat.1, hat.2.1, hat.2.2.imp_right (And.imp_right fun _ => hopen')⟩
  · intro j _ hj
    exact hs.jobs j ((ht.pending j).mp (Heap.pending_settle.mp hj)).1

/-- A call that is over opens the tail that it leaves behind. Nothing changes
for the others but that the call after it has its turn. -/
theorem Inv.opens (hs : s.Inv) (hsound : h.Sound LockJob.on)
    (hopen : s.Open n) (hn : n < s.calls) {pc : LockPc} {started : List Nat}
    (hordered : started.Pairwise (· < ·))
    (hstarted : ∀ i, i ≠ n → (i ∈ started ↔ i ∈ s.started))
    (hsettled : ∀ p, p ≠ .operation n → h.settled p = s.promises.settled p)
    (hkept : ∀ p b, s.promises.settled p = some b → h.settled p = some b)
    (hpending : ∀ j : LockJob, j.call ≠ n →
      (h.Pending j ↔ s.promises.Pending j))
    (hjobs : ∀ j : LockJob, j.call = n → h.Pending j →
      s.promises.Pending j ∧ j ≠ .resumed n ∧ j ≠ .finished n)
    (hpc : pc = .left ∧ n ∈ started ∧ h.settled (.operation n) ≠ none
        ∧ s.promises.settled (.bounded n) = some true
        ∧ s.pc n ≠ .abandoned
      ∨ pc = .abandoned ∧ n ∉ started ∧ s.pc n = .abandoned
        ∧ s.promises.settled (.bounded n) = some false)
    (hnext : s.promises.settled (.tail (n + 1)) ≠ some false) :
    Inv { s with
      pc := Function.update s.pc n pc
      started := started
      promises := h.settle (.tail (n + 1)) true } := by
  have hc := hs.calls n
  have hother : ∀ p, p ≠ .tail (n + 1) → p ≠ .operation n →
      (h.settle (.tail (n + 1)) true).settled p = s.promises.settled p := by
    intro p hp hp'
    rw [Heap.settled_settle_of_ne hp, hsettled p hp']
  have hkept' : ∀ p b, s.promises.settled p = some b →
      (h.settle (.tail (n + 1)) true).settled p = some b :=
    fun p b hp => Heap.settled_settle_of_some (hkept p b hp)
  have htail : (h.settle (.tail (n + 1)) true).settled (.tail (n + 1))
      = some true := by
    cases hwas : s.promises.settled (.tail (n + 1)) with
    | none =>
        refine Heap.settled_settle_self ?_
        rw [hsettled _ (by simp), hwas]
    | some b =>
        cases b with
        | true => exact hkept' _ _ hwas
        | false => exact absurd hwas hnext
  refine hs.of_touches (n := n) ?_ hsound.settle ?_ ?_ hordered
  · exact {
      pc := fun _ hi => Function.update_of_ne hi _ _
      signal := fun _ _ => rfl
      listening := fun _ _ => rfl
      timer := fun _ _ => rfl
      calls := fun _ _ => Iff.rfl
      started := hstarted
      settled := fun p hp => by
        refine hother p ?_ ?_
        · intro heq
          subst heq
          exact hp rfl
        · intro heq
          subst heq
          exact hp rfl
      kept := hkept'
      pending := fun j hj => by
        rw [Heap.pending_settle]
        exact hpending j hj }
  · have hwait := hother (.wait n) (by simp) (by simp)
    have hbounded := hother (.bounded n) (by simp) (by simp)
    have hopen' := hkept' (.tail n) true hopen
    refine ⟨fun _ => hopen', ?_, ?_, ?_, ?_, ?_, ?_⟩
    · intro hb
      refine ⟨hopen', fun hsig => hwait.trans ?_⟩
      exact (hc.bounded (hbounded ▸ hb)).2 hsig
    · exact fun hl => hwait.trans (hc.listening hl)
    · exact fun htimer => hbounded.trans (hc.timer htimer)
    · intro hidle
      simp only [Function.update_self] at hidle
      rcases hpc with ⟨rfl, -⟩ | ⟨rfl, -⟩ <;> cases hidle
    · simp only [Function.update_self]
      rcases hpc with ⟨rfl, hmem, -⟩ | ⟨rfl, hmem, -⟩
      · exact iff_of_true hmem (Or.inr rfl)
      · exact iff_of_false hmem (by simp)
    · unfold AtPc
      simp only [Function.update_self]
      rcases hpc with ⟨rfl, -, hoperation, hgranted, -⟩ | ⟨rfl, -, -, hrefused⟩
      · refine ⟨hn, htail, hbounded.trans hgranted, ?_⟩
        rw [Heap.settled_settle_of_ne (by simp)]
        exact hoperation
      · exact ⟨hn, hbounded.trans hrefused, Or.inr ⟨htail, hopen'⟩⟩
  · intro j hj hpend
    obtain ⟨hold, hresumed, hfinished⟩ := hjobs j hj
      (Heap.pending_settle.mp hpend)
    have hjob := hs.jobs j hold
    cases j with
    | signalled i => exact hjob
    | bounded i direct => exact hjob
    | resumed i =>
        obtain rfl : i = n := hj
        exact absurd rfl hresumed
    | finished i =>
        obtain rfl : i = n := hj
        exact absurd rfl hfinished
    | forwarded i =>
        obtain rfl : i = n := hj
        rcases hpc with ⟨-, -, -, -, hne⟩ | ⟨rfl, -⟩
        · exact absurd hjob hne
        · exact Function.update_self _ _ _

/-- After its operation a call opens its own tail. -/
theorem Inv.finished_job (hs : s.Inv) (ht : Taken s h (.finished n) outcome) :
    Inv { s with
      pc := Function.update s.pc n .left
      promises := h.settle (.tail (n + 1)) true } := by
  have hc := hs.calls n
  have hpc : s.pc n = .operating := ht.held
  have hstarted := hc.started.mpr (Or.inl hpc)
  obtain ⟨hgranted, hopen⟩ := hs.open_of_started hstarted
  have hat := hc.at_pc
  unfold AtPc at hat
  simp only [hpc] at hat
  refine hs.opens ht.sound hopen hat.1 hs.ordered (fun _ _ => Iff.rfl)
    (fun p _ => congrFun ht.settled p) (fun p b hp => ht.settled ▸ hp)
    (ht.pending_other rfl) ?_ (Or.inl ⟨rfl, hstarted, ?_, hgranted, ?_⟩) ?_
  · intro j hj hpend
    obtain ⟨hold, hne⟩ := (ht.pending j).mp hpend
    refine ⟨hold, ?_, hne⟩
    intro heq
    subst heq
    have hwaiting := hs.jobs _ hold
    exact absurd (hpc.symm.trans hwaiting) (by decide)
  · obtain ⟨p, rfl, hp⟩ := ht.source
    rw [ht.settled, hp]
    exact Option.some_ne_none _
  · rw [hpc]
    decide
  · rw [hat.2.1]
    exact nofun

/-- A call that gave up passes the opening on. -/
theorem Inv.forwarded_job (hs : s.Inv)
    (ht : Taken s h (.forwarded n) outcome) :
    Inv { s with promises := h.settle (.tail (n + 1)) true } := by
  have hc := hs.calls n
  have hpc : s.pc n = .abandoned := ht.held
  have hopen : s.Open n := by
    obtain ⟨p, rfl, hp⟩ := ht.source
    rwa [hs.open_of_settled hp] at hp
  have hat := hc.at_pc
  unfold AtPc at hat
  simp only [hpc] at hat
  have hnot : n ∉ s.started := by
    rw [hc.started, hpc]
    decide
  have hkeep : s.pc = Function.update s.pc n .abandoned := by
    rw [← hpc, Function.update_eq_self]
  rw [show ({ s with promises := h.settle (.tail (n + 1)) true } : PageLock)
    = { s with
        pc := Function.update s.pc n .abandoned
        started := s.started
        promises := h.settle (.tail (n + 1)) true } by rw [← hkeep]]
  refine hs.opens ht.sound hopen hat.1 hs.ordered (fun _ _ => Iff.rfl)
    (fun p _ => congrFun ht.settled p) (fun p b hp => ht.settled ▸ hp)
    (ht.pending_other rfl) ?_ (Or.inr ⟨rfl, hnot, hpc, hat.2.1⟩) ?_
  · intro j hj hpend
    obtain ⟨hold, -⟩ := (ht.pending j).mp hpend
    have hjob := hs.jobs j hold
    refine ⟨hold, ?_, ?_⟩
    · intro heq
      subst heq
      exact absurd (hpc.symm.trans hjob) (by decide)
    · intro heq
      subst heq
      exact absurd (hpc.symm.trans hjob) (by decide)
  · intro hfalse
    exact Bool.false_ne_true (hs.open_prev hfalse).1

/-- The operations keep the order of the calls. -/
theorem Inv.ordered_snoc (hs : s.Inv) (hpc : s.pc n = .waiting) :
    (s.started ++ [n]).Pairwise (· < ·) := by
  refine List.pairwise_append.mpr ⟨hs.ordered, List.pairwise_singleton _ _, ?_⟩
  intro m hm i hi
  rw [List.mem_singleton.mp hi]
  exact hs.started_lt hpc m hm

/-- After the last job of its wait a call attaches one more, and goes on or
gives up. -/
theorem Inv.attaches (hs : s.Inv) (ht : Taken s h (.resumed n) outcome)
    {pc : LockPc} {started : List Nat} {k : PromiseId} {j : LockJob}
    (hordered : started.Pairwise (· < ·))
    (hstarted : ∀ i, i ≠ n → (i ∈ started ↔ i ∈ s.started))
    (hon : j.on k)
    (hpc : pc = .operating ∧ n ∈ started ∧ outcome = true ∧ j = .finished n
      ∨ pc = .abandoned ∧ n ∉ started ∧ outcome = false ∧ j = .forwarded n) :
    Inv { s with
      pc := Function.update s.pc n pc
      started := started
      promises := h.react k j } := by
  have hc := hs.calls n
  have hwaiting : s.pc n = .waiting := ht.held
  have hbounded : s.promises.settled (.bounded n) = some outcome := by
    obtain ⟨p, rfl, hp⟩ := ht.source
    exact hp
  have hat := hc.at_pc
  unfold AtPc at hat
  simp only [hwaiting] at hat
  have hcall : j.call = n := by
    rcases hpc with ⟨-, -, -, rfl⟩ | ⟨-, -, -, rfl⟩ <;> rfl
  have hnew : ¬ h.Pending j := by
    intro hpend
    have hjob := hs.jobs j ((ht.pending j).mp hpend).1
    rcases hpc with ⟨-, -, -, rfl⟩ | ⟨-, -, -, rfl⟩
    · exact absurd (hwaiting.symm.trans hjob) (by decide)
    · exact absurd (hwaiting.symm.trans hjob) (by decide)
  have hsettled : (h.react k j).settled = s.promises.settled := by
    rw [Heap.settled_react, ht.settled]
  refine hs.of_touches (n := n) ?_ (ht.sound.react hon hnew) ?_ ?_ hordered
  · exact {
      pc := fun _ hi => Function.update_of_ne hi _ _
      signal := fun _ _ => rfl
      listening := fun _ _ => rfl
      timer := fun _ _ => rfl
      calls := fun _ _ => Iff.rfl
      started := hstarted
      settled := fun p _ => congrFun hsettled p
      kept := fun p b hp => by rw [hsettled]; exact hp
      pending := fun j' hj' => by
        rw [Heap.pending_react, ht.pending_other rfl j' hj']
        refine or_iff_left ?_
        intro heq
        subst heq
        exact hj' hcall }
  · refine ⟨?_, ?_, ?_, ?_, ?_, ?_, ?_⟩
    · unfold Open
      rw [hsettled]
      exact hc.wait
    · unfold Open
      rw [hsettled]
      exact hc.bounded
    · rw [hsettled]
      exact hc.listening
    · rw [hsettled]
      exact hc.timer
    · intro hidle
      simp only [Function.update_self] at hidle
      rcases hpc with ⟨rfl, -⟩ | ⟨rfl, -⟩ <;> cases hidle
    · simp only [Function.update_self]
      rcases hpc with ⟨rfl, hmem, -⟩ | ⟨rfl, hmem, -⟩
      · exact iff_of_true hmem (Or.inl rfl)
      · exact iff_of_false hmem (by simp)
    · unfold AtPc
      simp only [Function.update_self]
      rcases hpc with ⟨rfl, -, rfl, rfl⟩ | ⟨rfl, -, rfl, rfl⟩
      · refine ⟨hat.1, ?_, ?_, Heap.pending_react.mpr (Or.inr rfl)⟩
        · rw [hsettled]
          exact hat.2.1
        · rw [hsettled]
          exact hbounded
      · refine ⟨hat.1, ?_, Or.inl ⟨?_, Heap.pending_react.mpr (Or.inr rfl)⟩⟩
        · rw [hsettled]
          exact hbounded
        · rw [hsettled]
          exact hat.2.1
  · intro j' hj' hpend
    rcases Heap.pending_react.mp hpend with hold | rfl
    · obtain ⟨hold, hne⟩ := (ht.pending j').mp hold
      have hjob := hs.jobs j' hold
      cases j' with
      | signalled i => exact hjob
      | bounded i direct => exact hjob
      | resumed i =>
          obtain rfl : i = n := hj'
          exact absurd rfl hne
      | finished i =>
          obtain rfl : i = n := hj'
          exact absurd (hwaiting.symm.trans hjob) (by decide)
      | forwarded i =>
          obtain rfl : i = n := hj'
          exact absurd (hwaiting.symm.trans hjob) (by decide)
    · rcases hpc with ⟨rfl, -, -, rfl⟩ | ⟨rfl, -, -, rfl⟩
      · exact Function.update_self _ _ _
      · exact Function.update_self _ _ _

/-- One more call changes nothing about another. -/
theorem mem_snoc_of_ne {l : List Nat} (i : Nat) (hi : i ≠ n) :
    i ∈ l ++ [n] ↔ i ∈ l := by
  rw [List.mem_append, List.mem_singleton]
  exact or_iff_left hi

/-- A call whose wait is over starts its operation, or gives up. -/
theorem Inv.resumed_job (hs : s.Inv) (ht : Taken s h (.resumed n) outcome)
    (throws : Bool) :
    (({ s with promises := h } : PageLock).resume n outcome throws).Inv := by
  have hwaiting : s.pc n = .waiting := ht.held
  have hmem : n ∈ s.started ++ [n] :=
    List.mem_append_right _ List.mem_cons_self
  unfold PageLock.resume
  cases outcome with
  | false =>
      have hnot : n ∉ s.started := by
        rw [(hs.calls n).started, hwaiting]
        decide
      exact hs.attaches ht hs.ordered (fun _ _ => Iff.rfl) rfl
        (Or.inr ⟨rfl, hnot, rfl, rfl⟩)
  | true =>
      cases throws with
      | false =>
          exact hs.attaches ht (hs.ordered_snoc hwaiting) mem_snoc_of_ne rfl
            (Or.inl ⟨rfl, hmem, rfl, rfl⟩)
      | true =>
          have hc := hs.calls n
          have hgranted : s.promises.settled (.bounded n) = some true := by
            obtain ⟨p, rfl, hp⟩ := ht.source
            exact hp
          have hat := hc.at_pc
          unfold AtPc at hat
          simp only [hwaiting] at hat
          refine hs.opens ht.sound.settle (hc.bounded hgranted).1 hat.1
            (hs.ordered_snoc hwaiting) mem_snoc_of_ne ?_ ?_ ?_ ?_
            (Or.inl ⟨rfl, hmem, ?_, hgranted, ?_⟩) ?_
          · intro p hp
            rw [Heap.settled_settle_of_ne hp, ht.settled]
          · exact fun p b hp => Heap.settled_settle_of_some (ht.settled ▸ hp)
          · intro j hj
            rw [Heap.pending_settle]
            exact ht.pending_other rfl j hj
          · intro j hj hpend
            obtain ⟨hold, hne⟩ := (ht.pending j).mp (Heap.pending_settle.mp hpend)
            refine ⟨hold, hne, ?_⟩
            intro heq
            subst heq
            exact absurd (hwaiting.symm.trans (hs.jobs _ hold)) (by decide)
          · rw [Heap.settled_settle]
            split
            · exact Option.some_ne_none _
            · next hwas =>
                intro hnone
                exact hwas ⟨rfl, hnone⟩
          · rw [hwaiting]
            decide
          · rw [hat.2.1]
            exact nofun

end Jobs

/-- Every job keeps all of it. -/
theorem Inv.job (hs : s.Inv) (throws : Bool) : (step s (.job throws)).Inv := by
  show Inv (match s.promises.queue with
    | [] => s
    | (job, outcome) :: _ =>
        { s with promises := s.promises.pop }.runJob job outcome throws)
  split
  · exact hs
  · next job outcome rest hq =>
      have ht := hs.taken hq
      cases job with
      | signalled i => exact hs.signalled_job ht
      | bounded i direct => exact hs.bounded_job ht
      | resumed i => exact hs.resumed_job ht throws
      | finished i => exact hs.finished_job ht
      | forwarded i => exact hs.forwarded_job ht

/-- An operation that settles its promise. -/
theorem Inv.settle (hs : s.Inv) (n : Nat) (outcome : Bool) :
    (s.settle n outcome).Inv := by
  unfold PageLock.settle
  split
  case isFalse => exact hs
  case isTrue hpc =>
    have hc := hs.calls n
    have hat := hc.at_pc
    unfold AtPc at hat
    simp only [hpc] at hat
    have hother : ∀ p, p ≠ .operation n →
        (s.promises.settle (.operation n) outcome).settled p
          = s.promises.settled p := fun p hp => Heap.settled_settle_of_ne hp
    have hwait := hother (.wait n) (by simp)
    have hbounded := hother (.bounded n) (by simp)
    have hopen := hother (.tail n) (by simp)
    refine hs.of_touches (n := n) ?_ hs.sound.settle ?_ ?_ hs.ordered
    · exact {
        pc := fun _ _ => rfl
        signal := fun _ _ => rfl
        listening := fun _ _ => rfl
        timer := fun _ _ => rfl
        calls := fun _ _ => Iff.rfl
        started := fun _ _ => Iff.rfl
        settled := settled_frame rfl
        kept := fun _ _ => Heap.settled_settle_of_some
        pending := fun _ _ => Heap.pending_settle }
    · refine ⟨?_, ?_, ?_, ?_, hc.called, hc.started, ?_⟩
      · unfold Open
        rw [hwait, hopen]
        exact hc.wait
      · unfold Open
        rw [hwait, hbounded, hopen]
        exact hc.bounded
      · rw [hwait]
        exact hc.listening
      · rw [hbounded]
        exact hc.timer
      · unfold AtPc
        simp only [hpc]
        rw [hother (.tail (n + 1)) (by simp), hbounded, Heap.pending_settle]
        exact hat
    · intro j _ hj
      exact hs.jobs j (Heap.pending_settle.mp hj)

/-- An abort rejects the waits that still listen to its signal, and only
these: a call whose wait is settled listens no more. -/
theorem Inv.abort (hs : s.Inv) (σ : Nat) : (s.abort σ).Inv := by
  unfold PageLock.abort
  split
  case isTrue => exact hs
  case isFalse =>
    have hsettled : ∀ p, ((s.listeners σ).foldl
        (fun h i => h.settle (.wait i) false) s.promises).settled p
        = if p ∈ (s.listeners σ).map PromiseId.wait
            ∧ s.promises.settled p = none then some false
          else s.promises.settled p := fun p => Heap.settled_foldl_settle
    have hother : ∀ p, (∀ i, p ≠ .wait i) → ((s.listeners σ).foldl
        (fun h i => h.settle (.wait i) false) s.promises).settled p
        = s.promises.settled p := by
      intro p hp
      rw [hsettled, if_neg]
      intro h
      obtain ⟨hmem, -⟩ := h
      obtain ⟨i, -, rfl⟩ := List.mem_map.mp hmem
      exact hp i rfl
    have hkept : ∀ p b, s.promises.settled p = some b → ((s.listeners σ).foldl
        (fun h i => h.settle (.wait i) false) s.promises).settled p
        = some b := by
      intro p b hp
      rw [hsettled, if_neg]
      · exact hp
      · intro h
        obtain ⟨-, hnone⟩ := h
        rw [hnone] at hp
        cases hp
    refine ⟨hs.sound.foldl_settle, hkept _ _ hs.first, ?_, ?_, hs.ordered⟩
    · intro i
      have hc := hs.calls i
      have hbounded := hother (.bounded i) (by simp)
      have htail := hother (.tail (i + 1)) (by simp)
      have hopen := hother (.tail i) (by simp)
      have hoperation := hother (.operation i) (by simp)
      -- a wait that has just failed was not granted
      have hwait : ((s.listeners σ).foldl (fun h i => h.settle (.wait i) false)
          s.promises).settled (.wait i) = some true →
          s.promises.settled (.wait i) = some true := by
        intro hw
        rw [hsettled] at hw
        split at hw
        · cases hw
        · exact hw
      refine ⟨?_, ?_, ?_, ?_, ?_, hc.started, ?_⟩
      · intro hw
        unfold Open
        rw [hopen]
        exact hc.wait (hwait hw)
      · intro hb
        obtain ⟨ho, hw⟩ := hc.bounded (hbounded ▸ hb)
        exact ⟨hopen.trans ho, fun hsig => hkept _ _ (hw hsig)⟩
      · intro hl
        obtain ⟨hlistening, hσ⟩ := Bool.and_eq_true_iff.mp hl
        have hnone := hc.listening hlistening
        rw [hsettled, if_neg]
        · exact hnone
        · intro h
          obtain ⟨hmem, -⟩ := h
          obtain ⟨i', hi', heq⟩ := List.mem_map.mp hmem
          obtain rfl : i' = i := PromiseId.wait.inj heq
          have hin := (List.mem_filter.mp hi').2
          simp_all
      · intro ht
        exact hbounded.trans (hc.timer ht)
      · intro hidle
        refine ⟨?_, (hc.called hidle).2⟩
        simp [(hc.called hidle).1]
      · have hat := hc.at_pc
        unfold AtPc at hat ⊢
        cases hpc : s.pc i with
        | idle =>
            simp only [hpc] at hat ⊢
            refine ⟨hat.1, ?_⟩
            intro p hp
            rw [hsettled, if_neg]
            · exact hat.2 p hp
            · intro h
              obtain ⟨hmem, -⟩ := h
              obtain ⟨i', hi', rfl⟩ := List.mem_map.mp hmem
              obtain rfl : i' = i := hp
              have hlt := List.mem_range.mp (List.mem_filter.mp hi').1
              omega
        | waiting =>
            simp only [hpc] at hat ⊢
            rw [htail, hbounded]
            simp only [Heap.pending_foldl_settle]
            refine ⟨hat.1, hat.2.1, hat.2.2.1, fun hb => ?_⟩
            refine ⟨(hat.2.2.2 hb).1, fun hsig hw => ?_⟩
            refine (hat.2.2.2 hb).2 hsig ?_
            rw [hsettled] at hw
            split at hw
            · cases hw
            · exact hw
        | operating =>
            simp only [hpc] at hat ⊢
            rw [htail, hbounded, Heap.pending_foldl_settle]
            exact hat
        | left =>
            simp only [hpc] at hat ⊢
            rw [htail, hbounded, hoperation]
            exact hat
        | abandoned =>
            simp only [hpc] at hat ⊢
            unfold Open
            rw [htail, hbounded, hopen, Heap.pending_foldl_settle]
            exact hat
    · intro j hj
      exact hs.jobs j (Heap.pending_foldl_settle.mp hj)

/-- What a new call attaches to: the tail before it, or a promise of its
own. -/
structure Awaits (s : PageLock) (signal : Option Nat)
    (h : Heap PromiseId LockJob) : Prop where
  sound : h.Sound LockJob.on
  settled : ∀ p, p ≠ .wait s.calls → h.settled p = s.promises.settled p
  wait : h.settled (.wait s.calls)
    = if signal.any s.aborted then some false else none
  pending : ∀ j, h.Pending j ↔ s.promises.Pending j
    ∨ j = .bounded s.calls signal.isNone
    ∨ j = .signalled s.calls ∧ signal.any (fun σ => !s.aborted σ) = true

/-- A new call waits for the tail before it. -/
theorem Inv.awaitPrevious (hs : s.Inv) (signal : Option Nat) :
    Awaits s signal (s.awaitPrevious s.calls signal) := by
  have hwait := (hs.fresh (Nat.le_refl s.calls)).2 (.wait s.calls) rfl
  have hnew : ∀ j : LockJob, j.call = s.calls → ¬ s.promises.Pending j :=
    fun j hj => hs.not_pending (Nat.le_of_eq hj.symm)
  unfold PageLock.awaitPrevious
  cases signal with
  | none =>
      refine ⟨hs.sound.react rfl (hnew _ rfl), ?_, ?_, ?_⟩
      · intro p _
        rw [Heap.settled_react]
      · rw [Heap.settled_react, hwait]
        rfl
      · intro j
        rw [Heap.pending_react]
        simp
  | some σ =>
      cases haborted : s.aborted σ with
      | true =>
          simp only [haborted, if_true]
          refine ⟨hs.sound.settle.react rfl ?_, ?_, ?_, ?_⟩
          · rw [Heap.pending_settle]
            exact hnew _ rfl
          · intro p hp
            rw [Heap.settled_react, Heap.settled_settle_of_ne hp]
          · rw [Heap.settled_react, Heap.settled_settle_self hwait]
            simp [haborted]
          · intro j
            rw [Heap.pending_react, Heap.pending_settle]
            simp [haborted]
      | false =>
          simp only [haborted, Bool.false_eq_true, if_false]
          have hon : LockJob.on (.signalled s.calls) (.tail s.calls) := rfl
          refine ⟨(hs.sound.react hon (hnew _ rfl)).react rfl ?_, ?_, ?_, ?_⟩
          · rw [Heap.pending_react]
            intro h
            rcases h with hold | hsame
            · exact hnew (.bounded s.calls false) rfl hold
            · cases hsame
          · intro p _
            rw [Heap.settled_react, Heap.settled_react]
          · rw [Heap.settled_react, Heap.settled_react, hwait]
            simp [haborted]
          · intro j
            rw [Heap.pending_react, Heap.pending_react]
            simp only [haborted, Option.isNone_some, Option.any_some,
              Bool.not_false, and_true]
            tauto

/-- A new call keeps all of it. Its wait is on the tail of the call before
it, and no job of the new call is pending yet but those that it attaches. -/
theorem Inv.call (hs : s.Inv) (signal : Option Nat) : (s.call signal).Inv := by
  have ha := hs.awaitPrevious signal
  obtain ⟨hidle, hnone⟩ := hs.fresh (Nat.le_refl s.calls)
  have hc := hs.calls s.calls
  have hnew : ∀ j : LockJob, j.call = s.calls → ¬ s.promises.Pending j :=
    fun j hj => hs.not_pending (Nat.le_of_eq hj.symm)
  have hsettled : ∀ p, p ≠ .wait s.calls →
      (s.call signal).promises.settled p = s.promises.settled p := by
    intro p hp
    show ((s.awaitPrevious s.calls signal).react _ _).settled p = _
    rw [Heap.settled_react, ha.settled p hp]
  have hwait : (s.call signal).promises.settled (.wait s.calls)
      = if signal.any s.aborted then some false else none := by
    show ((s.awaitPrevious s.calls signal).react _ _).settled _ = _
    rw [Heap.settled_react, ha.wait]
  have hpending : ∀ j, (s.call signal).promises.Pending j
      ↔ s.promises.Pending j ∨ j = .bounded s.calls signal.isNone
        ∨ j = .signalled s.calls
          ∧ signal.any (fun σ => !s.aborted σ) = true
        ∨ j = .resumed s.calls := by
    intro j
    show ((s.awaitPrevious s.calls signal).react _ _).Pending j ↔ _
    rw [Heap.pending_react, ha.pending]
    tauto
  have hsame : (s.call signal).signal s.calls = signal :=
    Function.update_self _ _ _
  have hpc : (s.call signal).pc s.calls = .waiting := Function.update_self _ _ _
  have hbounded := (hsettled (.bounded s.calls) (by simp)).trans
    (hnone (.bounded s.calls) rfl)
  refine hs.of_touches (n := s.calls) ?_ ?_ ?_ ?_ hs.ordered
  · exact {
      pc := fun _ hi => Function.update_of_ne hi _ _
      signal := fun _ hi => Function.update_of_ne hi _ _
      listening := fun _ hi => Function.update_of_ne hi _ _
      timer := fun _ hi => Function.update_of_ne hi _ _
      calls := fun i hi => by
        show i < s.calls + 1 ↔ i < s.calls
        omega
      started := fun _ _ => Iff.rfl
      settled := fun p hp => by
        refine hsettled p ?_
        intro heq
        subst heq
        exact hp rfl
      kept := fun p b hp => by
        rw [hsettled p]
        · exact hp
        · intro heq
          subst heq
          rw [hnone (.wait s.calls) rfl] at hp
          cases hp
      pending := fun j hj => by
        rw [hpending]
        refine or_iff_left ?_
        rintro (rfl | ⟨rfl, -⟩ | rfl) <;> exact hj rfl }
  · refine ha.sound.react rfl ?_
    rw [ha.pending]
    intro h
    rcases h with hold | hsame | ⟨hsame, -⟩
    · exact hnew (.resumed s.calls) rfl hold
    · cases hsame
    · cases hsame
  · refine ⟨?_, ?_, ?_, ?_, ?_, ?_, ?_⟩
    · intro hw
      rw [hwait] at hw
      split at hw <;> cases hw
    · intro hb
      rw [hbounded] at hb
      cases hb
    · intro hl
      rw [hwait, if_neg]
      have hl' : signal.any (fun σ => !s.aborted σ) = true := by
        rwa [show (s.call signal).listening s.calls
          = signal.any (fun σ => !s.aborted σ) from
            Function.update_self _ _ _] at hl
      cases signal with
      | none => simp
      | some σ => simpa using hl'
    · exact fun _ => hbounded
    · intro hi
      rw [hpc] at hi
      cases hi
    · rw [hpc]
      refine iff_of_false ?_ (by simp)
      show s.calls ∉ s.started
      rw [hc.started, hidle]
      decide
    · unfold AtPc
      simp only [hpc]
      refine ⟨Nat.lt_succ_self _, ?_, ?_, fun _ => ⟨?_, ?_⟩⟩
      · exact (hsettled (.tail (s.calls + 1)) (by simp)).trans
          (hnone (.tail (s.calls + 1)) rfl)
      · rw [hpending]
        exact Or.inr (Or.inr (Or.inr rfl))
      · rw [hpending, hsame]
        exact Or.inr (Or.inl rfl)
      · intro hsig hw
        rw [hsame] at hsig
        rw [hpending]
        refine Or.inr (Or.inr (Or.inl ⟨rfl, ?_⟩))
        rw [hwait] at hw
        obtain ⟨σ, rfl⟩ := Option.ne_none_iff_exists'.mp hsig
        cases haborted : s.aborted σ with
        | true => simp [haborted] at hw
        | false => simp [haborted]
  · intro j hj hpend
    rcases (hpending j).mp hpend with hold | rfl | ⟨rfl, -⟩ | rfl
    · exact absurd hold (hnew j hj)
    · exact ⟨Nat.lt_succ_self _, congrArg Option.isNone hsame.symm⟩
    · exact Nat.lt_succ_self _
    · exact hpc

/-- Every event keeps all of it. -/
theorem Inv.step (hs : s.Inv) (e : LockEvent) : (step s e).Inv := by
  cases e with
  | call signal => exact hs.call signal
  | abort σ => exact hs.abort σ
  | timeout i => exact hs.timeout i
  | settle i outcome => exact hs.settle i outcome
  | job throws => exact hs.job throws

/-- At the beginning there is no call. -/
theorem initial_inv : initial.Inv := by
  have hpending : ∀ j, ¬ initial.promises.Pending j := by
    intro j h
    rcases h with ⟨k, hj⟩ | hj
    · cases hj
    · cases hj
  refine ⟨?_, rfl, ?_, fun j hj => absurd hj (hpending j), List.Pairwise.nil⟩
  · refine ⟨?_, ?_, List.nodup_nil, fun _ => List.nodup_nil, ?_, ?_⟩
    · intro k j hj
      cases hj
    · intro e he
      cases he
    · intro j k k' hj
      cases hj
    · intro k j hj
      cases hj
  · intro i
    refine ⟨?_, ?_, nofun, nofun, fun _ => ⟨rfl, rfl⟩, ?_, Nat.zero_le i, ?_⟩
    · intro hw
      exact absurd hw (by simp [initial])
    · intro hb
      exact absurd hb (by simp [initial])
    · refine iff_of_false List.not_mem_nil ?_
      simp [initial]
    · intro p hp
      show (if p = .tail 0 then some true else none) = none
      rw [if_neg]
      intro heq
      subst heq
      exact absurd hp (by simp [PromiseId.OwnedBy])

/-- All of it holds in every run. -/
theorem run_inv (events : List LockEvent) :
    (run PageLock.step initial events).Inv :=
  run_keeps (fun _ e hs => hs.step e) initial_inv events

end PageLock

end Frontend

end Skrynia
