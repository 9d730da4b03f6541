/-
At most one tab operates on a refresh lease.

The tickets order those that wait, but it is the scans after the holding
flag that keep two tabs apart: the flag of a tab stays up while it looks
for another holder, so of two tabs the one that published its flag later
has met the other one (`one_holder`). The second of the two confirmation
scans is not needed for that.

# Timing

A look compares the expiry that it has read, and takes an expired lease
for none. So a holder is safe from it only while its lease outlives the
look (`Lives`): the heartbeat keeps up with it, and no operation goes on
after its heartbeat has stopped. The clocks of the tabs need not agree
otherwise. And a scan has to meet each key that stays (`Complete`), which
the enumeration of Web Storage does where it is left undisturbed
(`steady_lease_found_iff`).
-/
import Skrynia.Frontend.LeaseHolders
import Skrynia.Lib.Flags

namespace Skrynia

namespace Frontend

open Stepping Flags

namespace TabPhase

/-- The tab looks for another holder. -/
def looks : TabPhase → Bool
  | scanning _ (.confirm _) _ _ => true
  | _ => false

/-- It has not found one. -/
def passed : TabPhase → Bool
  | waiting _ (.confirm (_ + 1)) | scanning _ (.confirm (_ + 1)) _ _ => true
  | operating _ => true
  | _ => false

/-- A tab that has passed has its flag up. -/
theorem holds_of_passed {p : TabPhase} (h : p.passed = true) :
    p.holds = true := by
  unfold passed at h
  split at h
  · rfl
  · rfl
  · rfl
  · cases h

end TabPhase

namespace LeaseSystem

variable {s s' : LeaseSystem} {n m : CoordinationId} {c : Claim}
  {slack : Rat} {tabs : List CoordinationId}

/-- The key of a tab has a lease with the flag. -/
def Up (n : CoordinationId) (st : Claims) : Prop :=
  ∃ l, st n = some l ∧ l.ownerId = n ∧ l.holding = true

/-- The lease under the key runs for longer. -/
def Outlives (n : CoordinationId) (time : Rat) (st : Claims) : Prop :=
  ∀ l ∈ st n, time < l.expiresAt

instance (n : CoordinationId) (time : Rat) (st : Claims) :
    Decidable (Outlives n time st) :=
  inferInstanceAs (Decidable (∀ l ∈ st n, _))

-- ==================================================================== timing

section Timing

-- The tabs that there are.
variable (tabs : List CoordinationId)

/-- No lease of a holder is about to expire while a tab looks. -/
def Lives (slack : Rat) (s : LeaseSystem) : Prop :=
  ∀ n ∈ tabs, (s.phase n).holds = true → ∀ m ∈ tabs,
    (s.phase m).looks = true → Outlives n (s.clock m + slack) s.stored

instance (s : LeaseSystem) : Decidable (Lives tabs slack s) :=
  inferInstanceAs (Decidable (∀ n ∈ tabs, _))

/-- Each key that is there all the time is met. -/
def Complete (s : LeaseSystem) (start : Nat) (leases : List Claim) : Prop :=
  ∀ n ∈ tabs, Throughout s.log start (fun st => (st n).isSome = true) →
    ∃ l ∈ leases, l.ownerId = n

instance (s : LeaseSystem) (start : Nat) (leases : List Claim) :
    Decidable (Complete tabs s start leases) :=
  inferInstanceAs (Decidable (∀ n ∈ tabs,
    (∀ st ∈ s.log.drop start, (st n).isSome = true) → _))

/-- A look of this tab is over in time and has met each key. -/
def LookedIn (slack : Rat) (s : LeaseSystem) (n : CoordinationId)
    (leases : List Claim) : TabPhase → Prop
  | .scanning _ (.confirm _) start startedAt =>
      s.clock n ≤ startedAt + slack ∧ Complete tabs s start leases
  | _ => True

instance (s : LeaseSystem) (n : CoordinationId) (leases : List Claim) :
    (p : TabPhase) → Decidable (LookedIn tabs slack s n leases p)
  | .scanning _ (.confirm _) _ _ => inferInstanceAs (Decidable (_ ∧ _))
  | .scanning _ (.contend _) _ _ => isTrue trivial
  | .scanning _ .initial _ _ => isTrue trivial
  | .waiting _ _ => isTrue trivial
  | .idle => isTrue trivial
  | .unleased => isTrue trivial
  | .operating _ => isTrue trivial

/-- If a look ends here, it is over in time and has met each key. -/
def Looked (slack : Rat) (s : LeaseSystem) : LeaseEvent → Prop
  | .scanned n leases => LookedIn tabs slack s n leases (s.phase n)
  | _ => True

instance (s : LeaseSystem) :
    (e : LeaseEvent) → Decidable (Looked tabs slack s e)
  | .scanned n leases =>
      inferInstanceAs (Decidable (LookedIn tabs slack s n leases (s.phase n)))
  | .tick _ _ => isTrue trivial
  | .acquire _ _ _ _ _ => isTrue trivial
  | .scan _ => isTrue trivial
  | .giveUp _ _ => isTrue trivial
  | .renew _ => isTrue trivial
  | .settle _ _ _ => isTrue trivial
  | .timer _ _ _ => isTrue trivial

/-- A step of one of the tabs, in time. -/
def Prompt (slack : Rat) (s : LeaseSystem) (e : LeaseEvent) : Prop :=
  e.tab ∈ tabs ∧ Lives tabs slack (s.step e) ∧ Looked tabs slack s e

instance (s : LeaseSystem) (e : LeaseEvent) :
    Decidable (Prompt tabs slack s e) :=
  inferInstanceAs (Decidable (_ ∧ _ ∧ _))

/-- No other tab does anything. -/
def Known (s : LeaseSystem) : Prop := ∀ n, n ∉ tabs → s.phase n = .idle

end Timing

-- =================================================================== own turns

/-- What a turn makes of the tab it is about, as to its flag. -/
inductive Own (s : LeaseSystem) (e : LeaseEvent) (n : CoordinationId)
    (s' : LeaseSystem) : Prop where
  | keeps (hphase : s'.phase n = s.phase n) (hsince : s'.since n = s.since n)
      (hlog : s'.log = s.log ∨ s'.log = s.log ++ [s'.stored])
  | lowers (hholds : (s'.phase n).holds = false)
  | raises {c : Claim} (hphase : s'.phase n = .waiting c (.confirm 0))
      (hsince : s'.since n = s.log.length)
      (hlog : s'.log = s.log ++ [s'.stored])
  | looks {c : Claim} {k : Nat} (hphase : s.phase n = .waiting c (.confirm k))
      (hs' : s' = s.goto n
        (.scanning c (.confirm k) (s.log.length - 1) (s.clock n)))
  | passes {c : Claim} {k start : Nat} {startedAt : Rat} {leases : List Claim}
      {p : TabPhase} (he : e = .scanned n leases)
      (hphase : s.phase n = .scanning c (.confirm k) start startedAt)
      (hsound : s.Sound start leases)
      (hfound : ¬ ∃ l ∈ leases, l.Competes (s.clock n) c)
      (hp : p.looks = false) (hs' : s' = s.goto n p)

/-- A tab is where it has gone. -/
theorem phase_goto (p : TabPhase) : (s.goto n p).phase n = p :=
  Function.update_self _ _ _

/-- A tab may go wherever its flag is down. -/
theorem Own.of_goto {e : LeaseEvent} {p : TabPhase} (hp : p.holds = false) :
    Own s e n (s'.goto n p) := by
  refine .lowers ?_
  rw [phase_goto, hp]

/-- To take a ticket it writes its key without the flag. -/
theorem own_takeTicket (e : LeaseEvent) (leases : List Claim) :
    Own s e n (s.takeTicket n c leases) := by
  unfold LeaseSystem.takeTicket
  dsimp only
  split
  · exact .of_goto rfl
  · exact .of_goto rfl

/-- In contention it waits, gives up, or raises its flag. -/
theorem own_contend (e : LeaseEvent) (k : Nat) (leases : List Claim) :
    Own s e n (s.contend n c k leases) := by
  unfold LeaseSystem.contend
  split
  · exact .of_goto rfl
  · split
    · exact .of_goto rfl
    · split
      · exact .of_goto rfl
      · exact .raises (phase_goto _) (Function.update_self _ _ _) rfl

/-- A look that found no holder goes on, another lowers the flag. -/
theorem own_confirm {k start : Nat} {startedAt : Rat} {leases : List Claim}
    (hphase : s.phase n = .scanning c (.confirm k) start startedAt)
    (hsound : s.Sound start leases) :
    Own s (.scanned n leases) n (s.confirm n c k leases) := by
  unfold LeaseSystem.confirm
  split
  · exact .of_goto rfl
  · dsimp only
    split
    · exact .of_goto rfl
    · split
      · exact .passes rfl hphase hsound ‹_› rfl rfl
      · exact .passes rfl hphase hsound ‹_› rfl rfl

/-- A tab that begins has its flag down. -/
theorem own_acquire (e : LeaseEvent) (generation : CoordinationId)
    (readable removable writable : Bool) :
    Own s e n (s.acquire n generation readable removable writable) := by
  unfold LeaseSystem.acquire
  split
  · exact .of_goto rfl
  · split
    · exact .keeps rfl rfl (Or.inl rfl)
    · split
      · exact .of_goto rfl
      · split
        · exact .keeps rfl rfl (Or.inl rfl)
        · exact .of_goto rfl

/-- A heartbeat keeps the flag as it is. -/
theorem own_heartbeat (e : LeaseEvent) :
    Own s e n (s.heartbeat n c) := by
  unfold LeaseSystem.heartbeat
  split
  · split
    · exact .keeps rfl rfl (Or.inr rfl)
    · exact .keeps rfl rfl (Or.inl rfl)
  · exact .keeps rfl rfl (Or.inl rfl)

/-- Those are all the ways in which a tab's own state changes. -/
theorem Turn.own {e : LeaseEvent} (h : s.Turn e n s') : Own s e n s' := by
  cases h with
  | stay => exact .keeps rfl rfl (Or.inl rfl)
  | tick hms => exact .keeps rfl rfl (Or.inl rfl)
  | acquire generation readable removable writable hphase =>
      exact own_acquire _ generation readable removable writable
  | scan hphase =>
      rename_i c next
      cases next with
      | initial => exact .of_goto rfl
      | contend k => exact .of_goto rfl
      | confirm k => exact .looks hphase rfl
  | conclude hphase hsound =>
      rename_i c next start startedAt leases
      cases next with
      | initial => exact own_takeTicket _ leases
      | contend k => exact own_contend _ k leases
      | confirm k => exact own_confirm hphase hsound
  | renew hphase => exact own_heartbeat _
  | close hphase => exact .of_goto rfl
  | giveUp available hc => exact .of_goto rfl
  | fence available hc => exact .of_goto rfl
  | timer hdue =>
      unfold LeaseSystem.release
      split
      · exact .keeps rfl rfl (Or.inr rfl)
      · exact .keeps rfl rfl (Or.inl rfl)

-- ================================================================== invariant

/-- Flags have been up since they were raised, looks see the leases of
earlier flags outlive them, and of two flags only the later may have
passed. -/
structure Apart (slack : Rat) (s : LeaseSystem) : Prop where
  last : s.log.getLast? = some s.stored
  raised : ∀ n, (s.phase n).holds = true →
    s.since n < s.log.length ∧ Throughout s.log (s.since n) (Up n)
  looking : ∀ n c k start startedAt,
    s.phase n = .scanning c (.confirm k) start startedAt →
    s.since n ≤ start ∧ start < s.log.length ∧ startedAt ≤ s.clock n
      ∧ ∀ m, (s.phase m).holds = true → s.since m ≤ start →
        Throughout s.log start (Outlives m (startedAt + slack))
  passed : ∀ n, (s.phase n).passed = true → ∀ m, m ≠ n →
    (s.phase m).holds = true → s.since n < s.since m

/-- At the opening no tab has a flag. -/
theorem apart_opening (slack : Rat) (clock : CoordinationId → Rat) :
    (opening clock).Apart slack where
  last := rfl
  raised := by
    intro n hn
    cases hn
  looking := by
    intro n c k start startedAt hn
    cases hn
  passed := by
    intro n hn
    cases hn

/-- The flag of a tab is as it was, and so is its key where others wrote. -/
structure Stays (s s' : LeaseSystem) (m : CoordinationId) : Prop where
  holds : (s.phase m).holds = true
  since : s'.since m = s.since m
  log : ∃ passed, s'.log = s.log ++ passed
    ∧ ∀ st ∈ passed, st m = s'.stored m

/-- The tab has just raised its flag. -/
structure Rises (s s' : LeaseSystem) (m : CoordinationId) : Prop where
  phase : ∃ c, s'.phase m = .waiting c (.confirm 0)
  since : s'.since m = s.log.length
  log : s'.log = s.log ++ [s'.stored]

section Turns

variable {e : LeaseEvent}

/-- A flag that is up was up before, or was just raised. -/
theorem stays_or_rises (hframe : Frame n s s') (hown : Own s e n s')
    (hm : (s'.phase m).holds = true) : Stays s s' m ∨ Rises s s' m := by
  by_cases hmn : m = n
  · subst hmn
    cases hown with
    | keeps hphase hsince hlog =>
        refine Or.inl ⟨by rw [← hphase, hm], hsince, ?_⟩
        rcases hlog with hlog | hlog
        · exact ⟨[], by rw [hlog, List.append_nil], List.forall_mem_nil _⟩
        · refine ⟨[s'.stored], hlog, ?_⟩
          intro st hst
          rw [List.mem_singleton.mp hst]
    | lowers hholds => exact absurd (hholds.symm.trans hm) Bool.false_ne_true
    | raises hphase hsince hlog => exact Or.inr ⟨⟨_, hphase⟩, hsince, hlog⟩
    | looks hphase hs' =>
        subst hs'
        refine Or.inl ⟨by rw [hphase]; rfl, rfl, [], ?_, List.forall_mem_nil _⟩
        exact (List.append_nil _).symm
    | passes he hphase hsound hfound hp hs' =>
        subst hs'
        refine Or.inl ⟨by rw [hphase]; rfl, rfl, [], ?_, List.forall_mem_nil _⟩
        exact (List.append_nil _).symm
  · obtain ⟨passed, hlog, hpassed⟩ := hframe.log
    refine Or.inl ⟨?_, hframe.since m hmn, passed, hlog, ?_⟩
    · rw [← hframe.phase m hmn, hm]
    · intro st hst
      rw [hpassed st hst m hmn, hframe.stored m hmn]

/-- Whoever looks has looked before, or has just begun. -/
theorem looking_cases (hframe : Frame n s s') (hown : Own s e n s')
    {k start : Nat} {startedAt : Rat}
    (hm : s'.phase m = .scanning c (.confirm k) start startedAt) :
    s.phase m = .scanning c (.confirm k) start startedAt
      ∨ (s.phase m).holds = true ∧ start = s'.log.length - 1
        ∧ startedAt = s'.clock m := by
  by_cases hmn : m = n
  · subst hmn
    cases hown with
    | keeps hphase hsince hlog => exact Or.inl (hphase.symm.trans hm)
    | lowers hholds =>
        rw [hm] at hholds
        cases hholds
    | raises hphase hsince hlog =>
        rw [hphase] at hm
        cases hm
    | looks hphase hs' =>
        subst hs'
        rw [phase_goto] at hm
        cases hm
        refine Or.inr ⟨?_, rfl, rfl⟩
        rw [hphase]
        rfl
    | passes he hphase hsound hfound hp hs' =>
        subst hs'
        rw [phase_goto] at hm
        rw [hm] at hp
        cases hp
  · exact Or.inl ((hframe.phase m hmn).symm.trans hm)

/-- A look that has found no other holder. -/
def Unseen (s : LeaseSystem) (e : LeaseEvent) (m : CoordinationId) : Prop :=
  ∃ c k start startedAt leases, e = .scanned m leases
    ∧ s.phase m = .scanning c (.confirm k) start startedAt
    ∧ s.Sound start leases ∧ ¬ ∃ l ∈ leases, l.Competes (s.clock m) c

/-- A tab that has passed had done so before, or has just found no other
holder. -/
theorem passed_cases (hframe : Frame n s s') (hown : Own s e n s')
    (hm : (s'.phase m).passed = true) :
    (s.phase m).passed = true ∨ m = n ∧ Unseen s e m := by
  by_cases hmn : m = n
  · subst hmn
    cases hown with
    | keeps hphase hsince hlog => exact Or.inl (by rw [← hphase, hm])
    | lowers hholds =>
        rw [TabPhase.holds_of_passed hm] at hholds
        cases hholds
    | raises hphase hsince hlog =>
        rw [hphase] at hm
        cases hm
    | looks hphase hs' =>
        rename_i c k
        subst hs'
        rw [phase_goto] at hm
        rw [hphase]
        cases k with
        | zero => cases hm
        | succ k => exact Or.inl rfl
    | passes he hphase hsound hfound hp hs' =>
        exact Or.inr ⟨rfl, _, _, _, _, _, he, hphase, hsound, hfound⟩
  · exact Or.inl (by rw [← hframe.phase m hmn, hm])

end Turns

/-- A tab with a flag is one of those there are. -/
theorem Known.mem {s : LeaseSystem} (h : Known tabs s)
    (hm : (s.phase m).holds = true) : m ∈ tabs := by
  by_contra hout
  rw [h m hout] at hm
  cases hm

/-- Only known tabs take steps. -/
theorem Known.frame (h : Known tabs s) (hframe : Frame n s s')
    (hn : n ∈ tabs) : Known tabs s' := by
  intro m hm
  have hne : m ≠ n := fun heq => hm (heq ▸ hn)
  rw [hframe.phase m hne]
  exact h m hm

/-- A tab with its flag up finds it in its key. -/
theorem Owned.up (h : s.Owned) (hm : (s.phase m).holds = true) :
    Up m s.stored := by
  have hcandidate : ∃ c, (s.phase m).candidate = some c := by
    cases hphase : s.phase m with
    | idle =>
        rw [hphase] at hm
        cases hm
    | unleased =>
        rw [hphase] at hm
        cases hm
    | waiting c next => exact ⟨c, rfl⟩
    | scanning c next start startedAt => exact ⟨c, rfl⟩
    | operating c => exact ⟨c, rfl⟩
  obtain ⟨c, hc⟩ := hcandidate
  obtain ⟨howner, hflag, -, ⟨l, hl, hsame, hholding⟩, -⟩ := h.tab m c hc
  exact ⟨l, hl, hsame.1.trans howner, by rw [hholding, hflag, hm]⟩

/-- Whether a flag is up depends on its key only. -/
theorem Up.congr {st st' : Claims} (h : st m = st' m) (hup : Up m st') :
    Up m st := by
  unfold Up
  rw [h]
  exact hup

/-- A lease that outlives a moment outlives every earlier one. -/
theorem Outlives.mono {st st' : Claims} {time time' : Rat}
    (h : Outlives m time' st') (hst : st m = st' m) (htime : time ≤ time') :
    Outlives m time st := by
  intro l hl
  rw [hst] at hl
  exact lt_of_le_of_lt htime (h l hl)

section Step

variable {e : LeaseEvent}

/-- After a step a flag has still been up since it was raised. -/
theorem Apart.step_raised (h : s.Apart slack) (howned : s'.Owned)
    (hframe : Frame n s s') (hown : Own s e n s')
    (hm : (s'.phase m).holds = true) :
    s'.since m < s'.log.length ∧ Throughout s'.log (s'.since m) (Up m) := by
  have hup : Up m s'.stored := howned.up hm
  rcases stays_or_rises hframe hown hm with hstays | hrises
  · obtain ⟨hholds, hsince, passed, hlog, hpassed⟩ := hstays
    obtain ⟨hlength, hraised⟩ := h.raised m hholds
    rw [hsince, hlog, List.length_append]
    refine ⟨by omega, hraised.append hlength.le ?_⟩
    exact fun st hst => hup.congr (hpassed st hst)
  · rw [hrises.since, hrises.log, List.length_append, List.length_singleton]
    exact ⟨by omega, throughout_snoc hup⟩

/-- After a step a look still sees earlier leases outlive it. -/
theorem Apart.step_looking (h : s.Apart slack) (hlives : Lives tabs slack s')
    (hknown : Known tabs s') (hframe : Frame n s s') (hown : Own s e n s') {k start : Nat}
    {startedAt : Rat} (hlast : s'.log.getLast? = some s'.stored)
    (hraised : s'.since m < s'.log.length)
    (hm : s'.phase m = .scanning c (.confirm k) start startedAt) :
    s'.since m ≤ start ∧ start < s'.log.length ∧ startedAt ≤ s'.clock m
      ∧ ∀ a, (s'.phase a).holds = true → s'.since a ≤ start →
        Throughout s'.log start (Outlives a (startedAt + slack)) := by
  have hlooks : (s'.phase m).looks = true := by rw [hm]; rfl
  have hnow : ∀ a, (s'.phase a).holds = true →
      Outlives a (s'.clock m + slack) s'.stored := by
    intro a ha
    exact hlives a (hknown.mem ha) ha m (hknown.mem (by rw [hm]; rfl)) hlooks
  rcases looking_cases hframe hown hm with hbefore | ⟨-, rfl, rfl⟩
  · obtain ⟨hsince, hstart, hclock, houtlives⟩ :=
      h.looking m c k start startedAt hbefore
    have hclock' : startedAt ≤ s'.clock m := le_trans hclock (hframe.clock m)
    obtain ⟨passed, hlog, -⟩ := hframe.log
    have hstart' : start < s'.log.length := by
      rw [hlog, List.length_append]
      omega
    refine ⟨?_, hstart', hclock', ?_⟩
    · rcases stays_or_rises hframe hown (by rw [hm]; rfl) with hstays | hrises
      · rw [hstays.since]
        exact hsince
      · obtain ⟨c', hphase⟩ := hrises.phase
        rw [hm] at hphase
        cases hphase
    · intro a ha hsincea
      rcases stays_or_rises hframe hown ha with hstays | hrises
      · obtain ⟨hholds, hsame, passed', hlog', hpassed⟩ := hstays
        rw [hsame] at hsincea
        rw [hlog']
        refine (houtlives a hholds hsincea).append hstart.le ?_
        intro st hst
        exact (hnow a ha).mono (hpassed st hst) (by linarith)
      · rw [hrises.since] at hsincea
        omega
  · refine ⟨by omega, by omega, le_rfl, ?_⟩
    intro a ha _
    exact throughout_last hlast (hnow a ha)

/-- A look in vain, in time, was after all flags that it might have
found. -/
theorem Apart.first (h : s.Apart slack) (howned : s.Owned)
    (hknown : Known tabs s) (hlooked : Looked tabs slack s e) (hunseen : Unseen s e n) (hmn : m ≠ n)
    (hm : (s.phase m).holds = true) : s.since n < s.since m := by
  obtain ⟨c, k, start, startedAt, leases, rfl, hphase, hsound, hfound⟩ := hunseen
  obtain ⟨hsince, hstart, hclock, houtlives⟩ :=
    h.looking n c k start startedAt hphase
  have hinTime : s.clock n ≤ startedAt + slack
      ∧ Complete tabs s start leases := by
    have hin : LookedIn tabs slack s n leases (s.phase n) := hlooked
    rw [hphase] at hin
    exact hin
  refine raised_later (h.raised m hm).2 hsince ?_
  intro hsincem hup
  obtain ⟨l, hl, howner⟩ := hinTime.2 m (hknown.mem hm) fun st hst => by
    obtain ⟨x, hx, -⟩ := hup st hst
    rw [hx]
    rfl
  obtain ⟨st, hst, hread⟩ := hsound l hl
  rw [howner] at hread
  obtain ⟨x, hx, -, hholding⟩ := hup st hst
  obtain rfl := Option.some_injective _ (hx.symm.trans hread)
  have hlive := houtlives m hm hsincem st hst x hread
  have hc : c ∈ (s.phase n).candidate := by rw [hphase]; rfl
  refine hfound ⟨x, hl, ?_, hholding, lt_of_le_of_lt hinTime.1 hlive⟩
  intro hsame
  exact hmn (howner.symm.trans (hsame.1.trans (howned.tab n c hc).owner))

/-- After a step only the latest of the flags may have passed. -/
theorem Apart.step_passed (h : s.Apart slack) (howned : s.Owned)
    (hknown : Known tabs s) (hlooked : Looked tabs slack s e) (hframe : Frame n s s')
    (hown : Own s e n s') {a : CoordinationId}
    (ha : (s'.phase a).passed = true) (hma : m ≠ a)
    (hm : (s'.phase m).holds = true) : s'.since a < s'.since m := by
  have hkept : s'.since a = s.since a ∧ (s.phase a).holds = true := by
    rcases stays_or_rises hframe hown (TabPhase.holds_of_passed ha)
      with hstays | hrises
    · exact ⟨hstays.since, hstays.holds⟩
    · obtain ⟨c, hphase⟩ := hrises.phase
      rw [hphase] at ha
      cases ha
  rw [hkept.1]
  rcases stays_or_rises hframe hown hm with hstays | hrises
  · rw [hstays.since]
    rcases passed_cases hframe hown ha with hpassed | ⟨rfl, hunseen⟩
    · exact h.passed a hpassed m hma hstays.holds
    · exact h.first howned hknown hlooked hunseen hma hstays.holds
  · rw [hrises.since]
    exact (h.raised a hkept.2).1

/-- A prompt step keeps all of it. -/
theorem Apart.turn (h : s.Apart slack) (howned : s.Owned)
    (hknown : Known tabs s) (hknown' : Known tabs s') (hturn : s.Turn e n s')
    (hlives : Lives tabs slack s') (hlooked : Looked tabs slack s e) :
    s'.Apart slack := by
  have hframe := howned.frame_turn hturn
  have howned' := howned.turn hturn
  have hown := hturn.own
  have hlast := hframe.last h.last
  refine ⟨hlast, fun m hm => h.step_raised howned' hframe hown hm, ?_, ?_⟩
  · intro m c k start startedAt hm
    have hholds : (s'.phase m).holds = true := by rw [hm]; rfl
    exact h.step_looking hlives hknown' hframe hown hlast
      (h.step_raised howned' hframe hown hholds).1 hm
  · intro a ha m hma hm
    exact h.step_passed howned hknown hlooked hframe hown ha hma hm

end Step

/-- So does every prompt schedule. -/
theorem apart_run {clock : CoordinationId → Rat} {schedule : List LeaseEvent}
    (hprompt : Along step (Prompt tabs slack) (opening clock) schedule) :
    (run step (opening clock) schedule).Apart slack := by
  have hall : (run step (opening clock) schedule).Owned
      ∧ Known tabs (run step (opening clock) schedule)
      ∧ (run step (opening clock) schedule).Apart slack := by
    refine run_keeps_along (P := fun s : LeaseSystem =>
      s.Owned ∧ Known tabs s ∧ s.Apart slack) (fun s e hs h => ?_) hprompt
      ⟨owned_opening clock, fun _ _ => rfl, apart_opening slack clock⟩
    obtain ⟨howned, hknown, hapart⟩ := h
    obtain ⟨htab, hlives, hlooked⟩ := hs
    have hturn := s.step_turn e
    have hknown' := hknown.frame (howned.frame_turn hturn) htab
    exact ⟨howned.turn hturn, hknown',
      hapart.turn howned hknown hknown' hturn hlives hlooked⟩
  exact hall.2.2

/-- The tabs whose operation runs on a lease. -/
def operators (s : LeaseSystem) : Set CoordinationId :=
  {n | ∃ c, s.phase n = .operating c}

/-- While no lease of a holder expires under a look, and looks meet each key
that stays, no two tabs operate on a lease. Each of two holders would have
looked after the other one had published that it holds, and one of them
published first. -/
theorem one_holder (tabs : List CoordinationId) (slack : Rat)
    (clock : CoordinationId → Rat) (schedule : List LeaseEvent)
    (hprompt : Along step (Prompt tabs slack) (opening clock) schedule) :
    (run step (opening clock) schedule).operators.Subsingleton := by
  have h := apart_run hprompt
  intro n hn m hm
  obtain ⟨c, hn⟩ := hn
  obtain ⟨c', hm⟩ := hm
  have hheld : ∀ {a : CoordinationId} {x : Claim},
      (run step (opening clock) schedule).phase a = .operating x →
      ((run step (opening clock) schedule).phase a).passed = true
        ∧ ((run step (opening clock) schedule).phase a).holds = true := by
    intro a x ha
    rw [ha]
    exact ⟨rfl, rfl⟩
  have hfirst : n ≠ m → _ :=
    fun hnm => h.passed n (hheld hn).1 m (Ne.symm hnm) (hheld hm).2
  have hsecond : m ≠ n → _ :=
    fun hmn => h.passed m (hheld hm).1 n (Ne.symm hmn) (hheld hn).2
  exact not_both hfirst hsecond

/-- A lease of the other tab. -/
def leaseB (choosing holding : Bool) : Claim where
  ownerId := tabB
  acquiredAt := 0
  expiresAt := refreshLeaseTtlMs
  generation := firstTry
  choosing := choosing
  holding := holding
  ticket := if choosing then 0 else 2

/-- The other tab waits for the first, whose heartbeat comes while it
scans, and then gets the lease. -/
def twoTabs : List LeaseEvent :=
  let heldA := leaseA secondTry 0 false true 1
  aloneA secondTry 0 ++
    [.acquire tabB firstTry true true true,
      .scan tabB, .scanned tabB [heldA, leaseB true false],
      .scan tabB, .tick tabA 5000, .renew tabA, .tick tabB 1,
      .scanned tabB [heldA, leaseB false false],
      .settle tabA false true,
      .scan tabB, .scanned tabB [leaseB false false],
      .scan tabB, .scanned tabB [leaseB false false],
      .scan tabB, .scanned tabB [leaseB false true],
      .scan tabB, .scanned tabB [leaseB false true]]

/-- Two tabs compete promptly, and at most one operates. -/
theorem one_holder_twoTabs :
    (run step (opening fun _ => 0) twoTabs).operators.Subsingleton :=
  one_holder [tabA, tabB] 100 (fun _ => 0) twoTabs (by decide +kernel)

example : (run step (opening fun _ => 0) twoTabs).phase tabB
    = .operating (leaseB false true) := by
  decide +kernel

end LeaseSystem

end Frontend

end Skrynia
