/-
What the lock of one page is for: it is fair, exclusive and never lost.

- `Running` of one operation at a time (`Inv.running_unique`), since a
  call behind a running one waits for a tail that is not open.
- A call that was turned away stays so (`Refused`): its promises are
  settled, and settled promises do not change (`Grows`).
- Nothing waits for ever: with an empty queue and no operation under way
  every tail is open (`Inv.open_calls`), abandoned calls included, and
  the next call is granted by three jobs (`Inv.free`).
-/
import Skrynia.Frontend.PageLock

namespace Skrynia

namespace Frontend

open Promises Stepping

namespace PageLock

variable {s s' s'' : PageLock} {i j : Nat}

-- ============================================================== exclusion

/-- Behind the tail of an operation that another one has passed, nothing
runs. -/
theorem Inv.settled_of_lt (hs : s.Inv) (hi : i ∈ s.started)
    (hj : j ∈ s.started) (hlt : i < j) :
    s.promises.settled (.operation i) ≠ none := by
  have hopen : s.Open (i + 1) := hs.open_of_le hlt (hs.open_of_started hj).2
  have hpc := (hs.open_prev hopen).2.2
  have hat := (hs.calls i).at_pc
  unfold AtPc at hat
  rcases (hs.calls i).started.mp hi with hi | hi
  · rw [hi] at hpc
    rcases hpc with hpc | hpc <;> cases hpc
  · rw [hi] at hat
    exact hat.2.2.2

/-- One operation runs at a time. -/
theorem Inv.running_unique (hs : s.Inv) (hi : s.Running i)
    (hj : s.Running j) : i = j := by
  rcases Nat.lt_trichotomy i j with hlt | heq | hgt
  · exact absurd hi.2 (hs.settled_of_lt hi.1 hj.1 hlt)
  · exact heq
  · exact absurd hj.2 (hs.settled_of_lt hj.1 hi.1 hgt)

-- ================================================================ refusal

/-- What no step takes back. -/
structure Grows (s s' : PageLock) : Prop where
  calls : s.calls ≤ s'.calls
  signal : ∀ i, i < s.calls → s'.signal i = s.signal i
  settled : ∀ p b, s.promises.settled p = some b →
    s'.promises.settled p = some b

/-- Nothing happened. -/
theorem Grows.refl (s : PageLock) : Grows s s :=
  ⟨Nat.le_refl _, fun _ _ => rfl, fun _ _ h => h⟩

/-- One growth after the other. -/
theorem Grows.trans (h : Grows s s') (h' : Grows s' s'') : Grows s s'' where
  calls := Nat.le_trans h.calls h'.calls
  signal i hi := (h'.signal i (Nat.lt_of_lt_of_le hi h.calls)).trans
    (h.signal i hi)
  settled p b hp := h'.settled p b (h.settled p b hp)

/-- A step that calls nothing only settles promises. -/
theorem Grows.of_settled (hcalls : s'.calls = s.calls)
    (hsignal : s'.signal = s.signal)
    (hsettled : ∀ p b, s.promises.settled p = some b →
      s'.promises.settled p = some b) : Grows s s' where
  calls := Nat.le_of_eq hcalls.symm
  signal i _ := congrFun hsignal i
  settled := hsettled

/-- A call is added behind the others. -/
theorem grows_call (s : PageLock) (signal : Option Nat) :
    Grows s (s.call signal) := by
  refine ⟨Nat.le_succ _, ?_, ?_⟩
  · intro i hi
    exact Function.update_of_ne (Nat.ne_of_lt hi) _ _
  · intro p b hp
    show ((s.awaitPrevious s.calls signal).react _ _).settled p = some b
    rw [Heap.settled_react]
    unfold PageLock.awaitPrevious
    split
    · rw [Heap.settled_react]
      exact hp
    · split
      · rw [Heap.settled_react]
        exact Heap.settled_settle_of_some hp
      · rw [Heap.settled_react, Heap.settled_react]
        exact hp

/-- An abort takes nothing back. -/
theorem grows_abort (s : PageLock) (σ : Nat) : Grows s (s.abort σ) := by
  unfold PageLock.abort
  split
  · exact Grows.refl s
  · refine Grows.of_settled rfl rfl ?_
    intro p b hp
    show ((s.listeners σ).foldl _ s.promises).settled p = some b
    rw [Heap.settled_foldl_settle, if_neg]
    · exact hp
    · intro h
      obtain ⟨-, hnone⟩ := h
      rw [hnone] at hp
      cases hp

/-- A job settles its own promise. -/
theorem grows_runJob (s : PageLock) (job : LockJob) (outcome throws : Bool) :
    Grows s (s.runJob job outcome throws) := by
  cases job with
  | signalled i =>
      exact Grows.of_settled rfl rfl fun _ _ => Heap.settled_settle_of_some
  | bounded i direct =>
      exact Grows.of_settled rfl rfl fun _ _ => Heap.settled_settle_of_some
  | finished i =>
      exact Grows.of_settled rfl rfl fun _ _ => Heap.settled_settle_of_some
  | forwarded i =>
      exact Grows.of_settled rfl rfl fun _ _ => Heap.settled_settle_of_some
  | resumed i =>
      show Grows s (s.resume i outcome throws)
      unfold PageLock.resume
      split
      · split
        · exact Grows.of_settled rfl rfl fun _ _ hp =>
            Heap.settled_settle_of_some (Heap.settled_settle_of_some hp)
        · refine Grows.of_settled rfl rfl fun _ _ hp => ?_
          show (s.promises.react _ _).settled _ = _
          rw [Heap.settled_react]
          exact hp
      · refine Grows.of_settled rfl rfl fun _ _ hp => ?_
        show (s.promises.react _ _).settled _ = _
        rw [Heap.settled_react]
        exact hp

/-- Every event only adds. -/
theorem grows_step (s : PageLock) (e : LockEvent) : Grows s (step s e) := by
  cases e with
  | call signal => exact grows_call s signal
  | abort σ => exact grows_abort s σ
  | timeout i =>
      show Grows s (s.timeout i)
      unfold PageLock.timeout
      split
      · exact Grows.of_settled rfl rfl fun _ _ => Heap.settled_settle_of_some
      · exact Grows.refl s
  | settle i outcome =>
      show Grows s (s.settle i outcome)
      unfold PageLock.settle
      split
      · exact Grows.of_settled rfl rfl fun _ _ => Heap.settled_settle_of_some
      · exact Grows.refl s
  | job throws =>
      rw [step]
      split
      · exact Grows.refl s
      · next job outcome rest hq =>
          refine Grows.trans ?_ (grows_runJob _ job outcome throws)
          exact Grows.of_settled rfl rfl fun _ _ hp => hp

/-- And so does every run. -/
theorem grows_run (s : PageLock) (events : List LockEvent) :
    Grows s (run step s events) :=
  run_relates Grows.refl Grows.trans grows_step s events

/-- The wait of a call has failed. -/
def Refused (s : PageLock) (i : Nat) : Prop :=
  i < s.calls ∧ (s.promises.settled (.bounded i) = some false
    ∨ s.signal i ≠ none ∧ s.promises.settled (.wait i) = some false)

/-- Who was refused stays refused. -/
theorem Refused.grows (hi : s.Refused i) (h : Grows s s') : s'.Refused i := by
  refine ⟨Nat.lt_of_lt_of_le hi.1 h.calls, ?_⟩
  rw [h.signal i hi.1]
  rcases hi.2 with hbounded | ⟨hsignal, hwait⟩
  · exact Or.inl (h.settled _ _ hbounded)
  · exact Or.inr ⟨hsignal, h.settled _ _ hwait⟩

/-- Its operation is not called: it would have been granted the tail. -/
theorem Refused.not_started (hi : s.Refused i) (hs : s.Inv) :
    i ∉ s.started := by
  intro hstarted
  have hgranted := (hs.open_of_started hstarted).1
  rcases hi.2 with hbounded | ⟨hsignal, hwait⟩
  · rw [hgranted] at hbounded
    cases hbounded
  · have hpassed := ((hs.calls i).bounded hgranted).2 hsignal
    rw [hpassed] at hwait
    cases hwait

/-- A call that is turned away is refused by that very step. -/
theorem Inv.refused_of_turnedAway (hs : s.Inv) {e : LockEvent}
    (h : s.TurnedAway i e) : (PageLock.step s e).Refused i := by
  have hc := hs.calls i
  cases e with
  | call signal =>
      obtain ⟨rfl, haborted⟩ := h
      have hwait := (hs.awaitPrevious signal).wait
      rw [if_pos haborted] at hwait
      refine ⟨Nat.lt_succ_self _, Or.inr ⟨?_, ?_⟩⟩
      · show Function.update s.signal s.calls signal s.calls ≠ none
        rw [Function.update_self]
        intro heq
        subst heq
        cases haborted
      · show ((s.awaitPrevious s.calls signal).react _ _).settled _ = _
        rw [Heap.settled_react]
        exact hwait
  | abort σ =>
      obtain ⟨hsignal, hlistening, haborted⟩ := h
      have hcalled : i < s.calls := by
        refine hc.lt_calls fun hidle => ?_
        rw [(hc.called hidle).1] at hlistening
        cases hlistening
      have hmem : PromiseId.wait i ∈ (s.listeners σ).map PromiseId.wait := by
        refine List.mem_map_of_mem (List.mem_filter.mpr ⟨?_, ?_⟩)
        · exact List.mem_range.mpr hcalled
        · simp [hlistening, hsignal]
      show (s.abort σ).Refused i
      unfold PageLock.abort
      rw [if_neg (by simp [haborted])]
      refine ⟨hcalled, Or.inr ⟨?_, ?_⟩⟩
      · show s.signal i ≠ none
        rw [hsignal]
        exact Option.some_ne_none σ
      · show ((s.listeners σ).foldl _ s.promises).settled _ = _
        rw [Heap.settled_foldl_settle, if_pos]
        exact ⟨hmem, hc.listening hlistening⟩
  | timeout j =>
      obtain ⟨rfl, htimer, hq⟩ := h
      have hcalled : j < s.calls := by
        refine hc.lt_calls fun hidle => ?_
        rw [(hc.called hidle).2] at htimer
        cases htimer
      show (s.timeout j).Refused j
      unfold PageLock.timeout
      rw [if_pos (by simp [htimer, hq])]
      exact ⟨hcalled, Or.inl (Heap.settled_settle_self (hc.timer htimer))⟩
  | settle j outcome => exact h.elim
  | job throws => exact h.elim

-- =============================================================== progress

/-- With nothing left to run, a call that found its tail open has passed
it on. -/
theorem Inv.open_succ (hs : s.Inv) (hq : s.promises.queue = [])
    (hdone : ∀ i ∈ s.started, s.promises.settled (.operation i) ≠ none)
    (hi : i < s.calls) (hopen : s.Open i) : s.Open (i + 1) := by
  have hc := hs.calls i
  have hat := hc.at_pc
  have htail : s.promises.settled (.tail i) ≠ none := by
    rw [show s.promises.settled (.tail i) = some true from hopen]
    exact Option.some_ne_none true
  unfold AtPc at hat
  cases hpc : s.pc i with
  | idle =>
      rw [hpc] at hat
      exact absurd hi (Nat.not_lt.mpr hat.1)
  | waiting =>
      -- back along the chain of reactions to the tail, which is open
      rw [hpc] at hat
      obtain ⟨-, -, hresumed, hchain⟩ := hat
      obtain ⟨-, rfl, hbounded⟩ := hs.sound.waits hq hresumed
      obtain ⟨hreacts, hsignalled⟩ := hchain hbounded
      obtain ⟨p, hp, hnone⟩ := hs.sound.waits hq hreacts
      cases hsignal : s.signal i with
      | none =>
          rw [hsignal] at hp
          rw [show p = .tail i from hp] at hnone
          exact absurd hnone htail
      | some σ =>
          rw [hsignal] at hp
          rw [show p = .wait i from hp] at hnone
          have hreacts' := hsignalled (hsignal ▸ Option.some_ne_none σ) hnone
          obtain ⟨-, rfl, hprev⟩ := hs.sound.waits hq hreacts'
          exact absurd hprev htail
  | operating =>
      rw [hpc] at hat
      obtain ⟨-, rfl, hnone⟩ := hs.sound.waits hq hat.2.2.2
      exact absurd hnone (hdone i (hc.started.mpr (Or.inl hpc)))
  | left =>
      rw [hpc] at hat
      exact hat.2.1
  | abandoned =>
      rw [hpc] at hat
      rcases hat.2.2 with ⟨-, hforwarded⟩ | ⟨hnext, -⟩
      · obtain ⟨-, rfl, hnone⟩ := hs.sound.waits hq hforwarded
        exact absurd hnone htail
      · exact hnext

/-- With nothing queued and no operation under way every tail is open. -/
theorem Inv.open_calls (hs : s.Inv) (hq : s.promises.queue = [])
    (hdone : ∀ i ∈ s.started, s.promises.settled (.operation i) ≠ none) :
    s.Open s.calls := by
  have hall : ∀ i, i ≤ s.calls → s.Open i := by
    intro i hi
    induction i with
    | zero => exact hs.first
    | succ i ih => exact hs.open_succ hq hdone hi (ih (Nat.le_of_succ_le hi))
  exact hall s.calls (Nat.le_refl _)

-- ------------------------------------------------------------ the next call

/-- No reaction waits with a promise of the next call. -/
theorem Inv.reactions_new (hs : s.Inv) {p : PromiseId}
    (hp : p = .wait s.calls ∨ p = .bounded s.calls) :
    s.promises.reactions p = [] := by
  refine List.eq_nil_iff_forall_not_mem.mpr fun j hj => ?_
  have hon := (hs.sound.placed p j hj).1
  refine hs.not_pending (j := j) ?_ (Or.inl ⟨p, hj⟩)
  cases j with
  | bounded i direct =>
      rcases hp with rfl | rfl
      · cases direct with
        | true => cases hon
        | false =>
            cases hon
            exact Nat.le_refl _
      · cases direct <;> cases hon
  | resumed i =>
      rcases hp with rfl | rfl <;> cases hon
      exact Nat.le_refl _
  | signalled i => rcases hp with rfl | rfl <;> cases hon
  | finished i => rcases hp with rfl | rfl <;> cases hon
  | forwarded i => rcases hp with rfl | rfl <;> cases hon

/-- The next call finds its tail open: the reactions of its wait are the
only jobs, and the last of them calls the operation. -/
theorem Inv.free (hs : s.Inv) (hq : s.promises.queue = [])
    (hopen : s.Open s.calls) : s.Free := by
  have hfresh := (hs.fresh (Nat.le_refl s.calls)).2
  have hwait := hfresh (.wait s.calls) rfl
  have hbounded := hfresh (.bounded s.calls) rfl
  have hoperation := hfresh (.operation s.calls) rfl
  have hrwait := hs.reactions_new (Or.inl rfl)
  have hrbounded := hs.reactions_new (Or.inr rfl)
  have htail : s.promises.settled (.tail s.calls) = some true := hopen
  intro signal hsignal
  cases signal with
  | none =>
      simp [run, PageLock.step, PageLock.call, PageLock.awaitPrevious,
        PageLock.runJob, PageLock.resume, Heap.react, Heap.settle, Heap.pop,
        htail, hq, hbounded, hrbounded, hoperation]
  | some σ =>
      have haborted : s.aborted σ = false := by simpa using hsignal
      simp [run, PageLock.step, PageLock.call, PageLock.awaitPrevious,
        PageLock.runJob, PageLock.resume, Heap.react, Heap.settle, Heap.pop,
        htail, hq, hwait, hrwait, hbounded, hrbounded, haborted]

-- =================================================================== runs

/-- A call that is turned away at any moment of a run never runs its
operation. -/
theorem refused_never_runs {before after : List LockEvent} {e : LockEvent}
    (h : (run PageLock.step initial before).TurnedAway i e) :
    i ∉ (run PageLock.step initial (before ++ e :: after)).started := by
  have hrefused := (run_inv before).refused_of_turnedAway h
  rw [← run_snoc PageLock.step] at hrefused
  have hlast := hrefused.grows (grows_run _ after)
  rw [← run_append, List.append_assoc] at hlast
  exact hlast.not_started (run_inv _)

/-- Any sequence of calls, aborts, timers, operations and jobs leaves the
lock a fair one: one operation at a time, in the order of the calls, none
of a caller that was turned away, and the lock is free as soon as no
operation is under way. -/
theorem lock_is_fifo (events : List LockEvent) :
    (∀ i j, (run PageLock.step initial events).Running i →
      (run PageLock.step initial events).Running j → i = j)
    ∧ (run PageLock.step initial events).started.Pairwise (· < ·)
    ∧ (∀ before e after i, events = before ++ e :: after →
      (run PageLock.step initial before).TurnedAway i e →
        i ∉ (run PageLock.step initial events).started)
    ∧ ((run PageLock.step initial events).promises.queue = [] →
      (∀ i ∈ (run PageLock.step initial events).started,
        (run PageLock.step initial events).promises.settled (.operation i)
          ≠ none) →
        (run PageLock.step initial events).Free) := by
  have hinv := run_inv events
  refine ⟨fun i j => hinv.running_unique, hinv.ordered, ?_, ?_⟩
  · intro before e after i heq hturned
    subst heq
    exact refused_never_runs hturned
  · intro hq hdone
    exact hinv.free hq (hinv.open_calls hq hdone)

/-- The predecessor's operation has ended and its tail has been handed on:
the second call still waits, its signal aborts, and its operation runs. -/
theorem late_abort_runs : ¬ ∀ before after σ i,
    (run PageLock.step initial before).pc i = .waiting →
    (run PageLock.step initial before).signal i = some σ →
    i ∉ (run PageLock.step initial
      (before ++ LockEvent.abort σ :: after)).started := by
  intro h
  exact h [.call none, .job false, .job false, .call (some 0), .settle 0 true,
    .job false, .job false] [.job false, .job false] 0 1 rfl rfl (by decide)

end PageLock

end Frontend

end Skrynia
