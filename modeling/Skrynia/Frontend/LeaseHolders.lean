/-
What a tab has under its key.

A tab removes its lease in a `finally`, or by a timer long after the
attempt that wrote it. The generation of the lease decides whether it is
still that attempt's. So whoever waits, scans or operates finds its own
lease in its key, with the flag it has published last (`claim_kept`): an
abandoned attempt never takes away the lease of the one after it.
-/
import Skrynia.Frontend.LeaseSystem

namespace Skrynia

namespace Frontend

open Stepping

namespace LeaseSystem

variable {s s' : LeaseSystem} {n : CoordinationId} {c : Claim}

-- =================================================================== owned

/-- The tab finds its own lease in its key, and no release that waits is
for it. -/
structure Owns (s : LeaseSystem) (n : CoordinationId) (c : Claim) :
    Prop where
  owner : c.ownerId = n
  flag : c.holding = (s.phase n).holds
  drawn : c.generation ∈ s.generations
  stored : ∃ l ∈ s.stored n, l.Same c ∧ l.holding = c.holding
  late : ∀ d ∈ s.delayed, d.1.ownerId = n → d.1.generation ≠ c.generation

/-- What holds at all times: whoever has a candidate finds it in the storage,
and late releases are of drawn generations. -/
structure Owned (s : LeaseSystem) : Prop where
  tab : ∀ n, ∀ c ∈ (s.phase n).candidate, s.Owns n c
  drawn : ∀ d ∈ s.delayed, d.1.generation ∈ s.generations

/-- At the opening nobody has a candidate. -/
theorem owned_opening (clock : CoordinationId → Rat) :
    (opening clock).Owned where
  tab := by
    intro n c hc
    cases hc
  drawn := List.forall_mem_nil _

/-- Only the tab that moved has to be looked at. -/
theorem Owned.frame (h : s.Owned) (hframe : Frame n s s')
    (hn : ∀ c ∈ (s'.phase n).candidate, s'.Owns n c) : s'.Owned where
  tab := by
    intro m c hc
    by_cases hm : m = n
    · rw [hm] at hc ⊢
      exact hn c hc
    · rw [hframe.phase m hm] at hc
      obtain ⟨howner, hflag, hdrawn, hstored, hlate⟩ := h.tab m c hc
      refine ⟨howner, ?_, hframe.generations hdrawn, ?_, ?_⟩
      · rw [hframe.phase m hm, hflag]
      · rw [hframe.stored m hm]
        exact hstored
      · intro d hd hdm
        rcases hframe.delayed d hd with hd | hd
        · exact hlate d hd hdm
        · exact absurd (hdm.symm.trans hd.1) hm
  drawn := by
    intro d hd
    rcases hframe.delayed d hd with hd | hd
    · exact hframe.generations (h.drawn d hd)
    · exact hframe.generations hd.2

/-- A tab without a candidate owns nothing. -/
theorem Owned.leave (h : s.Owned) (hframe : Frame n s s') {p : TabPhase}
    (hp : p.candidate = none) : (s'.goto n p).Owned := by
  refine h.frame (hframe.goto p) ?_
  intro c hc
  rw [show (s'.goto n p).phase n = p from Function.update_self _ _ _, hp] at hc
  cases hc

/-- On with the same lease. -/
theorem Owned.goto (h : s.Owned) {p : TabPhase}
    (hp : p.candidate = (s.phase n).candidate)
    (hflag : p.holds = (s.phase n).holds) : (s.goto n p).Owned := by
  have hphase : (s.goto n p).phase n = p := Function.update_self _ _ _
  refine h.frame ((Frame.refl n s).goto p) ?_
  intro c hc
  rw [hphase, hp] at hc
  obtain ⟨howner, hc', hdrawn, hstored, hlate⟩ := h.tab n c hc
  refine ⟨howner, ?_, hdrawn, hstored, hlate⟩
  rw [hphase, hflag, hc']

/-- On with a lease that has just been written. -/
theorem Owned.publish (h : s.Owned) (hc : c ∈ (s.phase n).candidate)
    {c' : Claim} (hsame : c'.Same c) {p : TabPhase}
    (hp : p.candidate = some c') (hflag : c'.holding = p.holds) :
    ((s.write n (some c')).goto n p).Owned := by
  have hphase : ((s.write n (some c')).goto n p).phase n = p :=
    Function.update_self _ _ _
  obtain ⟨howner, -, hdrawn, -, hlate⟩ := h.tab n c hc
  refine h.frame (((Frame.refl n s).write _).goto p) ?_
  intro x hx
  rw [hphase, hp] at hx
  obtain rfl := Option.some_injective _ hx
  refine ⟨hsame.1.trans howner, ?_, ?_, ⟨c', ?_, ⟨rfl, rfl⟩, rfl⟩, ?_⟩
  · rw [hphase, hflag]
  · rw [hsame.2]
    exact hdrawn
  · exact Function.update_self _ _ _
  · intro d hd hdn
    rw [hsame.2]
    exact hlate d hd hdn

/-- Where a tab has published its flag says nothing of its lease. -/
theorem Owned.mark (h : s.Owned) (since : CoordinationId → Nat) :
    ({ s with since := since }).Owned where
  tab := by
    intro m c hc
    obtain ⟨howner, hflag, hdrawn, hstored, hlate⟩ := h.tab m c hc
    exact ⟨howner, hflag, hdrawn, hstored, hlate⟩
  drawn := h.drawn

/-- A tab that begins to choose finds what it has written. -/
theorem Owned.choose (h : s.Owned) {generation : CoordinationId}
    (removable : Bool)
    (hfresh : generation ∉ s.generations) :
    ((s.clear n removable).choose n generation).Owned := by
  have hdelayed : (s.clear n removable).delayed = s.delayed := by
    unfold LeaseSystem.clear
    split <;> rfl
  have hphase : ((s.clear n removable).choose n generation).phase n
      = .waiting ((s.clear n removable).choice n generation) .initial :=
    Function.update_self _ _ _
  refine h.frame (((Frame.refl n s).clear removable).choose generation) ?_
  intro c hc
  rw [hphase] at hc
  obtain rfl := Option.some_injective _ hc
  refine ⟨rfl, ?_, List.mem_cons_self, ⟨_, ?_, ⟨rfl, rfl⟩, rfl⟩, ?_⟩
  · rw [hphase]
    rfl
  · exact Function.update_self _ _ _
  · intro d hd _ heq
    refine hfresh ?_
    rw [show generation = d.1.generation from heq.symm]
    refine h.drawn d ?_
    rw [← hdelayed]
    exact hd

-- ===================================================================== steps

/-- So does one that takes a ticket. -/
theorem Owned.takeTicket (h : s.Owned) (hc : c ∈ (s.phase n).candidate)
    (leases : List Claim) : (s.takeTicket n c leases).Owned := by
  unfold LeaseSystem.takeTicket
  dsimp only
  split
  · exact h.leave ((Frame.refl n s).release (h.tab n c hc).owner true) rfl
  · refine h.publish hc ⟨?_, ?_⟩ ?_ ?_ <;> rfl

/-- And one that raises its flag. -/
theorem Owned.hold (h : s.Owned) (hc : c ∈ (s.phase n).candidate) :
    (s.hold n c).Owned := by
  have hpublish : ((s.write n (some { c with holding := true })).goto n
      (.waiting { c with holding := true } (.confirm 0))).Owned := by
    refine h.publish hc ⟨?_, ?_⟩ ?_ ?_ <;> rfl
  exact hpublish.mark _

/-- And one that looks who is before it. -/
theorem Owned.contend (h : s.Owned) {k start : Nat} {startedAt : Rat}
    (hphase : s.phase n = .scanning c (.contend k) start startedAt)
    (leases : List Claim) : (s.contend n c k leases).Owned := by
  have hc : c ∈ (s.phase n).candidate := by rw [hphase]; rfl
  have hwait : ∀ k', (s.goto n (.waiting c (.contend k'))).Owned := by
    intro k'
    refine h.goto ?_ ?_ <;> rw [hphase] <;> rfl
  unfold LeaseSystem.contend
  split
  · exact h.leave ((Frame.refl n s).release (h.tab n c hc).owner true) rfl
  · split
    · exact hwait 0
    · split
      · exact hwait (k + 1)
      · exact h.hold hc

/-- And one that looks for another holder. -/
theorem Owned.confirm (h : s.Owned) {k start : Nat} {startedAt : Rat}
    (hphase : s.phase n = .scanning c (.confirm k) start startedAt)
    (leases : List Claim) : (s.confirm n c k leases).Owned := by
  have hc : c ∈ (s.phase n).candidate := by rw [hphase]; rfl
  unfold LeaseSystem.confirm
  split
  · exact h.leave ((Frame.refl n s).release (h.tab n c hc).owner true) rfl
  · dsimp only
    split
    · refine h.publish hc ⟨?_, ?_⟩ ?_ ?_ <;> rfl
    · split
      · refine h.goto ?_ ?_ <;> rw [hphase] <;> rfl
      · refine h.goto ?_ ?_ <;> rw [hphase] <;> rfl

/-- And one that begins anew. -/
theorem Owned.acquire (h : s.Owned) (generation : CoordinationId)
    (readable removable writable : Bool) :
    (s.acquire n generation readable removable writable).Owned := by
  unfold LeaseSystem.acquire
  split
  · exact h.leave (Frame.refl n s) rfl
  · split
    · exact h
    · split
      · exact h.leave ((Frame.refl n s).clear removable) rfl
      · split
        · exact h
        · exact h.choose removable ‹_›

/-- A heartbeat renews the tab's own lease. -/
theorem Owned.heartbeat (h : s.Owned) (hphase : s.phase n = .operating c) :
    (s.heartbeat n c).Owned := by
  have hc : c ∈ (s.phase n).candidate := by rw [hphase]; rfl
  obtain ⟨howner, hflag, hdrawn, ⟨l, hl, hsame, hholding⟩, hlate⟩ := h.tab n c hc
  unfold LeaseSystem.heartbeat
  rw [show s.stored n = some l from hl]
  dsimp only
  split
  · refine h.frame ((Frame.refl n s).write _) ?_
    intro x hx
    rw [show (s.write n _).phase n = s.phase n from rfl, hphase] at hx
    obtain rfl := Option.some_injective _ hx
    exact ⟨howner, hflag, hdrawn, ⟨_, Function.update_self _ _ _, hsame, hholding⟩,
      hlate⟩
  · exact h

/-- A release that waits is of a drawn generation. -/
theorem Owned.releaseAfterExpiry (h : s.Owned)
    (hc : c ∈ (s.phase n).candidate) (available : Bool) :
    ((s.releaseAfterExpiry n c available).goto n .idle).Owned :=
  h.leave (Frame.releaseAfterExpiry (h.tab n c hc).owner
    (h.tab n c hc).drawn available) rfl

/-- A timer finds the lease of a later attempt, and leaves it. -/
theorem Owned.timer (h : s.Owned) {lease : Claim} {due : Rat}
    (hlate : (lease, due) ∈ s.delayed) (available : Bool) :
    ({ s.release lease available with
      delayed := s.delayed.erase (lease, due) }).Owned := by
  have hphase : (s.release lease available).phase = s.phase := by
    unfold LeaseSystem.release
    split <;> rfl
  refine h.frame (Frame.timer lease due available) ?_
  intro c hc
  have hc' : c ∈ (s.phase lease.ownerId).candidate := by
    rw [← hphase]
    exact hc
  obtain ⟨howner, hflag, hdrawn, ⟨l, hl, hsame, hholding⟩, hother⟩ :=
    h.tab _ c hc'
  have hkept : s.release lease available = s := by
    refine if_neg ?_
    intro hrelease
    obtain ⟨l', hl', hsame'⟩ := hrelease.2
    obtain rfl := Option.some_injective _ (hl'.symm.trans hl)
    exact hother _ hlate rfl (hsame'.2.symm.trans hsame.2)
  rw [hkept]
  refine ⟨howner, hflag, hdrawn, ⟨l, hl, hsame, hholding⟩, ?_⟩
  exact fun d hd => hother d (List.mem_of_mem_erase hd)

/-- The end of a scan keeps all of it. -/
theorem Owned.conclude (h : s.Owned) {next : Round} {start : Nat}
    {startedAt : Rat} (hphase : s.phase n = .scanning c next start startedAt)
    (leases : List Claim) : (s.conclude n c leases next).Owned := by
  cases next with
  | initial => exact h.takeTicket (by rw [hphase]; rfl) leases
  | contend k => exact h.contend hphase leases
  | confirm k => exact h.confirm hphase leases

/-- So does every turn. -/
theorem Owned.turn (h : s.Owned) {e : LeaseEvent} (hturn : s.Turn e n s') :
    s'.Owned := by
  cases hturn with
  | stay => exact h
  | tick hms =>
      refine ⟨?_, h.drawn⟩
      intro m c hc
      obtain ⟨howner, hflag, hdrawn, hstored, hlate⟩ := h.tab m c hc
      exact ⟨howner, hflag, hdrawn, hstored, hlate⟩
  | acquire generation readable removable writable hphase =>
      exact h.acquire generation readable removable writable
  | scan hphase =>
      rename_i c next
      refine h.goto ?_ ?_
      · rw [hphase]
        rfl
      · rw [hphase]
        cases next <;> rfl
  | conclude hphase hsound => exact h.conclude hphase _
  | renew hphase => exact h.heartbeat hphase
  | close hphase => exact h.leave (Frame.refl n s) rfl
  | giveUp available hc =>
      exact h.leave ((Frame.refl n s).release (h.tab n _ hc).owner available) rfl
  | fence available hc => exact h.releaseAfterExpiry hc available
  | timer hdue => exact h.timer hdue _

/-- And every schedule. -/
theorem owned_run (clock : CoordinationId → Rat) (schedule : List LeaseEvent) :
    (run step (opening clock) schedule).Owned := by
  refine run_keeps (fun s e h => ?_) (owned_opening clock) schedule
  exact h.turn (s.step_turn e)

/-- A turn touches the keys of its own tab only. -/
theorem Owned.frame_turn (h : s.Owned) {e : LeaseEvent}
    (hturn : s.Turn e n s') : Frame n s s' := by
  cases hturn with
  | stay => exact Frame.refl n s
  | tick hms =>
      obtain ⟨hphase, hstored, hsince, -, hlog, hlast, hgenerations,
    hdelayed⟩ :=
        Frame.refl n s
      refine ⟨hphase, hstored, hsince, ?_, hlog, hlast, hgenerations,
    hdelayed⟩
      intro m
      by_cases hm : m = n
      · rw [hm]
        show s.clock n ≤ Function.update s.clock n _ n
        rw [Function.update_self]
        linarith
      · exact le_of_eq (Function.update_of_ne hm _ _).symm
  | acquire generation readable removable writable hphase =>
      exact Frame.acquire n generation readable removable writable
  | scan hphase => exact (Frame.refl n s).goto _
  | conclude hphase hsound =>
      exact Frame.conclude (h.tab n _ (by rw [hphase]; rfl)).owner _ _
  | renew hphase => exact Frame.heartbeat n _
  | close hphase => exact (Frame.refl n s).goto _
  | giveUp available hc =>
      exact ((Frame.refl n s).release (h.tab n _ hc).owner available).goto _
  | fence available hc =>
      exact (Frame.releaseAfterExpiry (h.tab n _ hc).owner (h.tab n _ hc).drawn
        available).goto _
  | timer hdue => exact Frame.timer _ _ _

-- =================================================================== the key

/-- In every run, whoever waits, scans or operates has the lease of this
attempt in its key, with the flag it has published. A tab writes its own key
only, so the steps of the others leave it (`Frame`). -/
theorem claim_kept (clock : CoordinationId → Rat) (schedule : List LeaseEvent)
    (n : CoordinationId) (c : Claim)
    (hc : ((run step (opening clock) schedule).phase n).candidate = some c) :
    c.ownerId = n ∧ ∃ l, (run step (opening clock) schedule).stored n = some l
      ∧ l.Same c
      ∧ l.holding = ((run step (opening clock) schedule).phase n).holds := by
  obtain ⟨howner, hflag, -, ⟨l, hl, hsame, hholding⟩, -⟩ :=
    (owned_run clock schedule).tab n c hc
  exact ⟨howner, l, hl, hsame, hholding.trans hflag⟩

/-- A tab. -/
def tabA : CoordinationId := ⟨"a", by decide⟩

/-- Another one. -/
def tabB : CoordinationId := ⟨"b", by decide⟩

/-- The generation of a first attempt. -/
def firstTry : CoordinationId := ⟨"g1", by decide⟩

/-- And of a second one. -/
def secondTry : CoordinationId := ⟨"g2", by decide⟩

/-- A lease of the first tab. -/
def leaseA (generation : CoordinationId) (acquiredAt : Rat)
    (choosing holding : Bool) (ticket : Nat) : Claim where
  ownerId := tabA
  acquiredAt := acquiredAt
  expiresAt := acquiredAt + refreshLeaseTtlMs
  generation := generation
  choosing := choosing
  holding := holding
  ticket := ticket

/-- The tab is alone and gets its lease. -/
def aloneA (generation : CoordinationId) (acquiredAt : Rat) :
    List LeaseEvent :=
  let waiting := leaseA generation acquiredAt false false 1
  let held := leaseA generation acquiredAt false true 1
  [.acquire tabA generation true true true,
    .scan tabA, .scanned tabA [leaseA generation acquiredAt true false 0],
    .scan tabA, .scanned tabA [waiting], .scan tabA, .scanned tabA [waiting],
    .scan tabA, .scanned tabA [held], .scan tabA, .scanned tabA [held]]

/-- The operation is aborted, its lease expires, and the timer that was to
release it comes after the next attempt has begun. -/
def lateTimer : List LeaseEvent :=
  aloneA firstTry 0 ++ [.settle tabA true true, .tick tabA 30001]
    ++ aloneA secondTry 30001
    ++ [.timer (leaseA firstTry 0 false true 1) 30001 true]

/-- A late timer of the first attempt leaves the lease of the second one. -/
theorem claim_kept_lateTimer :
    tabA = tabA
      ∧ ∃ l, (run step (opening fun _ => 0) lateTimer).stored tabA = some l
        ∧ l.Same (leaseA secondTry 30001 false true 1)
        ∧ l.holding
          = ((run step (opening fun _ => 0) lateTimer).phase tabA).holds :=
  claim_kept (fun _ => 0) lateTimer tabA
    (leaseA secondTry 30001 false true 1) (by decide +kernel)

end LeaseSystem

end Frontend

end Skrynia
