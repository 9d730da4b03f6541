/-
The concurrency limiters of the storage service, microtask by microtask.

# The gap

When a wrapped function ends, one step gives its slot back and resumes
the first waiter. The waiter goes on in a later microtask and takes the
slot without looking at `active` again. A call that comes in between
finds a free slot and takes it too, so `limit` is kept only if no waiter
goes on while `limit` functions execute.

A resumed waiter of `StorageReadSemaphore` does look at its signal again.
If that was aborted in between it throws, and the next waiter is not
resumed in its place: when nothing executes any more, nobody will be.

# The events

A wrapped function executes until its `finally` block, which is one step
with the end of the function. Calls are numbered as they come, and
promise continuations run in any order.
-/
import Skrynia.Db.Schema
import Skrynia.Lib.Runs

namespace Skrynia

open Stepping

-- ============================================================ semaphores

/-- `STORAGE_MAX_CONCURRENT_…` and `STORAGE_…_QUEUE_LIMIT`. -/
structure SemaphoreLimits where
  limit : Nat
  queueLimit : Nat
  limit_pos : 0 < limit

/-- A call that waits. -/
structure Waiter where
  call : Nat
  /-- The `AbortSignal`, told apart by a number. -/
  signal : Option Nat
deriving DecidableEq

/-- The fields of both classes. -/
structure Semaphore where
  active : Nat
  waiting : List Waiter
deriving DecidableEq

/-- Whether a call starts or has to wait. -/
inductive Admission where
  | started
  | queued
deriving DecidableEq

namespace Semaphore

/-- A slot is taken. -/
def claim (s : Semaphore) : Semaphore := { s with active := s.active + 1 }

/-- `run` up to its first suspension. -/
def enter (o : SemaphoreLimits) (busy : String) (w : Waiter)
    (s : Semaphore) : Except Failure (Semaphore × Admission) :=
  if o.limit ≤ s.active then
    if o.queueLimit ≤ s.waiting.length then
      .error (serviceUnavailable busy)
    else .ok ({ s with waiting := s.waiting ++ [w] }, .queued)
  else .ok (s.claim, .started)

/-- The `finally` block, with the waiter that it resumes. -/
def release (s : Semaphore) : Semaphore × Option Waiter :=
  (⟨s.active - 1, s.waiting.tail⟩, s.waiting.head?)

/-- The listeners of a signal, each of which takes its waiter away. -/
def cancel (signal : Nat) (s : Semaphore) : Semaphore :=
  { s with waiting := s.waiting.filter (·.signal ≠ some signal) }

end Semaphore

/-- The refusal of a call whose signal is aborted. -/
def mediaCancelled : Failure :=
  serviceUnavailable "Media request was cancelled"

namespace StorageReadSemaphore

/-- `StorageReadSemaphore.run`, up to its wait. -/
def run (o : SemaphoreLimits) (w : Waiter) (aborted : Bool)
    (s : Semaphore) : Except Failure (Semaphore × Admission) :=
  if aborted then .error mediaCancelled
  else s.enter o "Media service is busy, try again shortly" w

/-- From the end of the wait to the call of the wrapped function. -/
def proceed (aborted : Bool) (s : Semaphore) : Except Failure Semaphore :=
  if aborted then .error mediaCancelled else .ok s.claim

end StorageReadSemaphore

namespace ProcessingSemaphore

/-- `ProcessingSemaphore.run`, up to its wait. -/
def run (o : SemaphoreLimits) (call : Nat) (s : Semaphore) :
    Except Failure (Semaphore × Admission) :=
  s.enter o "Image processing is busy, try again shortly" ⟨call, none⟩

/-- A resumed waiter takes its slot. -/
def proceed (s : Semaphore) : Semaphore := s.claim

end ProcessingSemaphore

-- ============================================================ the system

/-- The two classes. -/
inductive SemaphoreClass where
  | storageRead
  | processing
deriving DecidableEq

/-- One limiter, and its calls. -/
structure LimiterSystem where
  semaphore : Semaphore
  /-- How many calls of `run` there were. -/
  calls : Nat
  /-- Resumed waiters that have not gone on. -/
  resumed : List Waiter
  /-- The calls whose wrapped function executes. -/
  executing : List Nat
  /-- The aborted signals. -/
  aborted : List Nat
  /-- What calls of `run` threw of their own. -/
  failed : List (Nat × Failure)
deriving DecidableEq

/-- What may happen next. -/
inductive LimiterEvent where
  | run (signal : Option Nat)
  /-- The wrapped function of a call completes or fails. -/
  | settle (call : Nat)
  | abort (signal : Nat)
  /-- The continuation of a resumed waiter. -/
  | proceed (call : Nat)

namespace LimiterSystem

/-- Before any call. -/
def start : LimiterSystem := ⟨⟨0, []⟩, 0, [], [], [], []⟩

variable (c : SemaphoreClass) (o : SemaphoreLimits) (s : LimiterSystem)

/-- `signal.aborted` of a waiter. -/
def isAborted (w : Waiter) : Bool :=
  match w.signal with
  | some signal => signal ∈ s.aborted
  | none => false

/-- What becomes of a call: it fails, waits or executes. -/
def enter (w : Waiter) :
    Except Failure (Semaphore × Admission) → LimiterSystem
  | .error f => { s with failed := (w.call, f) :: s.failed }
  | .ok (semaphore, .queued) => { s with semaphore := semaphore }
  | .ok (semaphore, .started) =>
      { s with
        semaphore := semaphore
        executing := w.call :: s.executing }

/-- A call of `run`; `ProcessingSemaphore` takes no signal. -/
def runCall (signal : Option Nat) : LimiterSystem :=
  let s' := { s with calls := s.calls + 1 }
  match c with
  | .storageRead =>
      let w : Waiter := ⟨s.calls, signal⟩
      s'.enter w
        (StorageReadSemaphore.run o w (s.isAborted w) s.semaphore)
  | .processing =>
      s'.enter ⟨s.calls, none⟩
        (ProcessingSemaphore.run o s.calls s.semaphore)

/-- A function ends: its slot is given back, and the first waiter resumed. -/
def settle (call : Nat) : LimiterSystem :=
  if call ∈ s.executing then
    { s with
      semaphore := s.semaphore.release.1
      executing := s.executing.erase call
      resumed := s.resumed ++ s.semaphore.release.2.toList }
  else s

/-- A signal is aborted: those that wait with it leave the queue and fail. -/
def abort (signal : Nat) : LimiterSystem :=
  let cancelled := s.semaphore.waiting.filter (·.signal = some signal)
  { s with
    aborted := signal :: s.aborted
    semaphore := s.semaphore.cancel signal
    failed := cancelled.map (fun w => (w.call, mediaCancelled)) ++ s.failed }

/-- What a resumed waiter does with the semaphore. -/
def proceedWith (w : Waiter) : Except Failure Semaphore :=
  match c with
  | .storageRead =>
      StorageReadSemaphore.proceed (s.isAborted w) s.semaphore
  | .processing => .ok (ProcessingSemaphore.proceed s.semaphore)

/-- The resumed waiter of a call. -/
def resumedWaiter (call : Nat) : Option Waiter :=
  s.resumed.find? (·.call = call)

/-- It goes on: it executes, or fails. -/
def proceed (call : Nat) : LimiterSystem :=
  match s.resumedWaiter call with
  | none => s
  | some w =>
      let s' := { s with resumed := s.resumed.erase w }
      match s.proceedWith c w with
      | .error f => { s' with failed := (w.call, f) :: s.failed }
      | .ok semaphore =>
          { s' with
            semaphore := semaphore
            executing := w.call :: s.executing }

/-- One event. -/
def step : LimiterEvent → LimiterSystem
  | .run signal => s.runCall c o signal
  | .settle call => s.settle call
  | .abort signal => s.abort signal
  | .proceed call => s.proceed c call

-- ================================================================== laws

/-- The bounds of a limiter, and no lost wakeup. -/
structure Bounded : Prop where
  executing : s.executing.length ≤ o.limit
  waiting : s.semaphore.waiting.length ≤ o.queueLimit
  noneLost : s.executing = [] → s.resumed = [] → s.semaphore.waiting = []

/-- A resumed waiter that throws: its signal was aborted before it went
on. -/
def Throws (w : Waiter) : Prop := c = .storageRead ∧ s.isAborted w

/-- A waiter that goes on finds the slot that it was resumed for; and one
that throws is not the last hope of those who wait. -/
def HandsOver : LimiterEvent → Prop
  | .proceed call => ∀ w, s.resumedWaiter call = some w →
      (¬ s.Throws c w → s.executing.length < o.limit)
        ∧ (s.Throws c w → s.executing = [] → s.resumed = [w] →
            s.semaphore.waiting = [])
  | _ => True

-- ============================================================== invariant

variable {c o s}

/-- `active` counts the wrapped functions. -/
def Counted (s : LimiterSystem) : Prop :=
  s.semaphore.active = s.executing.length

/-- A resumed waiter is among those resumed. -/
theorem mem_resumed {call : Nat} {w : Waiter}
    (h : s.resumedWaiter call = some w) : w ∈ s.resumed :=
  List.mem_of_find?_eq_some h

/-- A resumed waiter throws or takes a slot. -/
theorem proceedWith_cases (w : Waiter) :
    s.Throws c w ∧ s.proceedWith c w = .error mediaCancelled
      ∨ ¬ s.Throws c w ∧ s.proceedWith c w = .ok s.semaphore.claim := by
  unfold Throws proceedWith
  cases c with
  | processing => exact Or.inr ⟨by simp, rfl⟩
  | storageRead =>
      unfold StorageReadSemaphore.proceed
      by_cases h : s.isAborted w = true
      · exact Or.inl ⟨⟨rfl, h⟩, if_pos h⟩
      · exact Or.inr ⟨fun ht => h ht.2, if_neg h⟩

/-- What a call of `run` does to the system. -/
inductive Ran (o : SemaphoreLimits) (s : LimiterSystem) (w : Waiter) :
    LimiterSystem → Prop
  | rejected (f : Failure) : Ran o s w
      { s with calls := s.calls + 1, failed := (w.call, f) :: s.failed }
  | queued (hfull : o.limit ≤ s.semaphore.active)
      (hroom : s.semaphore.waiting.length < o.queueLimit) : Ran o s w
      { s with
        calls := s.calls + 1
        semaphore :=
          { s.semaphore with waiting := s.semaphore.waiting ++ [w] } }
  | started (hfree : s.semaphore.active < o.limit) : Ran o s w
      { s with
        calls := s.calls + 1
        semaphore := s.semaphore.claim
        executing := w.call :: s.executing }

/-- What `run` may do to the limiter. -/
theorem ran_enter (busy : String) (w : Waiter) :
    Ran o s w ({ s with calls := s.calls + 1 }.enter w
      (s.semaphore.enter o busy w)) := by
  unfold Semaphore.enter
  by_cases hfull : o.limit ≤ s.semaphore.active
  · rw [if_pos hfull]
    by_cases hqueue : o.queueLimit ≤ s.semaphore.waiting.length
    · rw [if_pos hqueue]
      exact .rejected _
    · rw [if_neg hqueue]
      exact .queued hfull (by omega)
  · rw [if_neg hfull]
    exact .started (by omega)

/-- A call of `run` does that. -/
theorem ran_runCall (signal : Option Nat) :
    ∃ w, Ran o s w (s.runCall c o signal) := by
  cases c with
  | processing => exact ⟨_, ran_enter _ _⟩
  | storageRead =>
      refine ⟨⟨s.calls, signal⟩, ?_⟩
      unfold runCall StorageReadSemaphore.run
      by_cases h : s.isAborted ⟨s.calls, signal⟩ = true
      · simp only [h, if_true]
        exact .rejected _
      · simp only [h]
        exact ran_enter _ _

/-- At the start no slot is taken. -/
theorem Counted.start : Counted start := rfl

/-- As many slots are taken as functions execute. -/
theorem Counted.step (h : Counted s) (e : LimiterEvent) :
    Counted (s.step c o e) := by
  cases e with
  | run signal =>
      show Counted (s.runCall c o signal)
      obtain ⟨w, hran⟩ := ran_runCall (c := c) (o := o) (s := s) signal
      generalize s.runCall c o signal = s' at hran
      cases hran with
      | rejected f => exact h
      | queued => exact h
      | started => exact congrArg (· + 1) h
  | settle call =>
      show Counted (s.settle call)
      unfold LimiterSystem.settle
      split
      · next hmem =>
          show s.semaphore.active - 1 = (s.executing.erase call).length
          rw [List.length_erase_of_mem hmem, ← h]
      · exact h
  | abort signal => exact h
  | proceed call =>
      show Counted (s.proceed c call)
      unfold LimiterSystem.proceed
      split
      · exact h
      · next w hw =>
          obtain ⟨-, hp⟩ | ⟨-, hp⟩ := proceedWith_cases (c := c) (s := s) w
          · simp only [hp]
            exact h
          · simp only [hp]
            exact congrArg (· + 1) h

-- ============================================================== the steps

/-- At the start nothing executes. -/
theorem Bounded.start : Bounded o start where
  executing := Nat.zero_le _
  waiting := Nat.zero_le _
  noneLost _ _ := rfl

/-- A call starts only where there is a free slot. -/
theorem Bounded.runCall (hc : Counted s) (h : Bounded o s)
    (signal : Option Nat) : Bounded o (s.runCall c o signal) := by
  obtain ⟨w, hran⟩ := ran_runCall (c := c) (o := o) (s := s) signal
  generalize s.runCall c o signal = s' at hran
  cases hran with
  | rejected f => exact ⟨h.executing, h.waiting, h.noneLost⟩
  | queued hfull hroom =>
      refine ⟨h.executing, ?_, fun hnone => ?_⟩
      · show (s.semaphore.waiting ++ [w]).length ≤ o.queueLimit
        rw [List.length_append, List.length_singleton]
        omega
      · -- A full semaphore has a function under way.
        have hactive : s.semaphore.active = 0 := by
          rw [hc, hnone, List.length_nil]
        have := o.limit_pos
        omega
  | started hfree =>
      refine ⟨?_, h.waiting, fun hnone => by cases hnone⟩
      show s.executing.length + 1 ≤ o.limit
      rw [← hc]
      omega

/-- The end of a function frees one. -/
theorem Bounded.settle (h : Bounded o s) (call : Nat) :
    Bounded o (s.settle call) := by
  unfold LimiterSystem.settle
  split
  · refine ⟨?_, ?_, fun _ hnone => ?_⟩
    · exact (List.length_erase_le).trans h.executing
    · show s.semaphore.waiting.tail.length ≤ o.queueLimit
      rw [List.length_tail]
      have := h.waiting
      omega
    · -- Nobody was resumed, so nobody waited.
      have hhead := (List.append_eq_nil_iff.mp hnone).2
      cases hw : s.semaphore.waiting with
      | nil =>
          show s.semaphore.waiting.tail = []
          rw [hw]
          rfl
      | cons w ws =>
          have hnext : s.semaphore.release.2 = some w := by
            show s.semaphore.waiting.head? = some w
            rw [hw]
            rfl
          rw [hnext] at hhead
          cases hhead
  · exact h

/-- An abort starts nothing. -/
theorem Bounded.abort (h : Bounded o s) (signal : Nat) :
    Bounded o (s.abort signal) where
  executing := h.executing
  waiting := (List.length_filter_le _ _).trans h.waiting
  noneLost hexecuting hresumed := by
    show s.semaphore.waiting.filter _ = []
    rw [h.noneLost hexecuting hresumed]
    rfl

/-- Without its one element a list is empty. -/
theorem erase_eq_nil {w : Waiter} {l : List Waiter} (hw : w ∈ l) :
    l.erase w = [] ↔ l = [w] := by
  constructor
  · intro h
    have hlength := List.length_erase_of_mem hw
    rw [h, List.length_nil] at hlength
    have hpos := List.length_pos_of_mem hw
    obtain ⟨x, rfl⟩ := List.length_eq_one_iff.mp (by omega : l.length = 1)
    rw [List.mem_singleton.mp hw]
  · intro heq
    subst heq
    exact List.erase_cons_head w []

/-- What it takes for a resumed waiter to go on within the bounds. -/
theorem handsOver_iff {call : Nat} {w : Waiter}
    (h : s.resumedWaiter call = some w) :
    s.HandsOver c o (.proceed call)
      ↔ (¬ s.Throws c w → s.executing.length < o.limit)
        ∧ (s.Throws c w → s.executing = [] → s.resumed = [w] →
            s.semaphore.waiting = []) := by
  refine ⟨fun hkept => hkept w h, fun hw w' hw' => ?_⟩
  cases Option.some.inj (h.symm.trans hw')
  exact hw

/-- A waiter goes on within the bounds exactly when it was handed a slot
that is still free, or throws while others are under way. -/
theorem bounded_proceed_iff (h : Bounded o s) (call : Nat) :
    Bounded o (s.proceed c call) ↔ s.HandsOver c o (.proceed call) := by
  unfold LimiterSystem.proceed
  split
  · next hnone =>
      refine ⟨fun _ w hw => ?_, fun _ => h⟩
      rw [hnone] at hw
      cases hw
  · next w hfound =>
      rw [handsOver_iff hfound]
      have hw := mem_resumed hfound
      obtain ⟨hthrows, hp⟩ | ⟨hgoes, hp⟩ :=
        proceedWith_cases (c := c) (s := s) w
      · simp only [hp]
        constructor
        · intro hafter
          refine ⟨fun hno => absurd hthrows hno, fun _ hnone hlast => ?_⟩
          exact hafter.noneLost hnone ((erase_eq_nil hw).mpr hlast)
        · intro h
          obtain ⟨-, hkept⟩ := h
          refine ⟨h.executing, h.waiting, fun hnone hlast => ?_⟩
          exact hkept hthrows hnone ((erase_eq_nil hw).mp hlast)
      · simp only [hp]
        constructor
        · intro hafter
          exact ⟨fun _ => hafter.executing, fun hyes => absurd hyes hgoes⟩
        · intro h
          obtain ⟨hfree, -⟩ := h
          exact ⟨hfree hgoes, h.waiting, fun hnone => by cases hnone⟩

/-- A step keeps within the bounds exactly when it hands over. -/
theorem bounded_step_iff (hc : Counted s) (h : Bounded o s)
    (e : LimiterEvent) :
    Bounded o (s.step c o e) ↔ s.HandsOver c o e := by
  cases e with
  | run signal => exact ⟨fun _ => trivial, fun _ => h.runCall hc signal⟩
  | settle call => exact ⟨fun _ => trivial, fun _ => h.settle call⟩
  | abort signal => exact ⟨fun _ => trivial, fun _ => h.abort signal⟩
  | proceed call => exact bounded_proceed_iff h call

-- =============================================================== any run

/-- The limiters keep their bounds, and lose no wakeup, in exactly the runs
in which no resumed waiter goes on while `limit` functions execute, and
none throws as the only one left to resume the others. -/
theorem limiters_bounded_iff (c : SemaphoreClass) (o : SemaphoreLimits)
    (events : List LimiterEvent) :
    (∀ before, before <+: events →
        Bounded o (run (step c o) start before))
      ↔ Along (step c o) (HandsOver c o) start events := by
  have hcounted : ∀ s e, Counted s → Counted (step c o s e) :=
    fun s e hc => hc.step e
  have hbounded : ∀ s e, Counted s → Bounded o s →
      (Bounded o (step c o s e) ↔ HandsOver c o s e) :=
    fun s e hc h => bounded_step_iff hc h e
  exact prefixes_iff_along hcounted hbounded Counted.start Bounded.start

/-- A call takes the slot that a waiter was resumed for, and the waiter
takes another. -/
theorem overtaken_waiter_exceeds_limit :
    ¬ ∀ (c : SemaphoreClass) (o : SemaphoreLimits)
      (events : List LimiterEvent),
      Bounded o (run (step c o) start events) := by
  intro h
  have hbound := (h .processing ⟨1, 1, Nat.one_pos⟩
    [.run none, .run none, .settle 0, .run none, .proceed 1]).executing
  exact absurd hbound (by decide)

/-- A signal is aborted between the resumption of its waiter and the
continuation: the next one waits for nobody. -/
example : ¬ Bounded ⟨1, 2, Nat.one_pos⟩
    (run (step .storageRead ⟨1, 2, Nat.one_pos⟩) start
      [.run none, .run (some 0), .run none, .settle 0, .abort 0,
        .proceed 1]) := by
  intro h
  exact absurd (h.noneLost rfl rfl) (by decide)

end LimiterSystem

end Skrynia
