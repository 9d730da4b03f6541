/-
The leases that tabs write, as records in the storage.

A tab reads the leases of all tabs through `isRefreshLease`, which takes a
record only if its times, its ticket and its flags make sense. A record
that it did not take would be no lease to anyone: a holder could not be
seen. All that tabs write is taken, and read as it was written
(`written_leases_read`).

# Why

The flags follow the phase of the tab: it is choosing until it has its
ticket, and holding only after. The clock of a tab does not go back, so
that an expiry is after the acquisition each time it is set. A ticket is
above all tickets read, and not taken from the last safe integer on.
-/
import Skrynia.Frontend.LeaseHolders

namespace Skrynia

namespace Frontend

open Stepping

namespace Claim

/-- What `isRefreshLease` asks of a record. -/
def Valid (l : Claim) : Prop :=
  l.acquiredAt < l.expiresAt ∧ l.ticket ≤ maxTicket
    ∧ (l.choosing = true ∨ 0 < l.ticket)
    ∧ ¬ (l.choosing = true ∧ l.holding = true)

/-- Tickets are safe integers. -/
theorem isSafeInteger_natCast {k : Nat} (hk : k ≤ maxTicket) :
    isSafeInteger (k : Rat) = true := by
  unfold isSafeInteger maxSafeInteger
  have hcast : (k : Rat) ≤ 9007199254740991 := by
    exact_mod_cast hk
  have hnonneg : (0 : Rat) ≤ k := Nat.cast_nonneg k
  have hlow : (-9007199254740991 : Rat) ≤ k := by linarith
  simp [hcast, hlow]

/-- The lease in the record. -/
def lease (l : Claim) (h : l.Valid) : RefreshLease where
  ownerId := l.ownerId
  acquiredAt := l.acquiredAt
  expiresAt := l.expiresAt
  generation := l.generation
  choosing := l.choosing
  holding := l.holding
  ticket := l.ticket
  valid := by
    obtain ⟨htimes, hticket, hchosen, hflags⟩ := h
    refine ⟨l.ownerId.2, l.generation.2, htimes, isSafeInteger_natCast hticket,
      Nat.cast_nonneg _, ?_, hflags⟩
    exact hchosen.imp_right fun h => Nat.cast_pos.mpr h

/-- A valid lease is read as it was written. -/
theorem isRefreshLease_members {l : Claim} (h : l.Valid) :
    isRefreshLease l.members = some (l.lease h) :=
  dif_pos (l.lease h).valid

end Claim

/-- The tab has no ticket yet. -/
def TabPhase.chooses : TabPhase → Bool
  | waiting _ .initial | scanning _ .initial _ _ => true
  | _ => false

namespace LeaseSystem

variable {s s' : LeaseSystem} {n : CoordinationId} {c : Claim}

/-- A record of this tab, up to this time. -/
structure Fits (n : CoordinationId) (now : Rat) (l : Claim) : Prop where
  owner : l.ownerId = n
  acquired : l.acquiredAt ≤ now
  valid : l.Valid

/-- What holds at all times: what is stored or published fits the clock of
its tab. -/
structure Written (s : LeaseSystem) : Prop where
  stored : ∀ n, ∀ l ∈ s.stored n, Fits n (s.clock n) l
  tab : ∀ n, ∀ c ∈ (s.phase n).candidate,
    Fits n (s.clock n) c ∧ c.choosing = (s.phase n).chooses

/-- At the opening nothing is stored. -/
theorem written_opening (clock : CoordinationId → Rat) :
    (opening clock).Written where
  stored := by
    intro n l hl
    cases hl
  tab := by
    intro n c hc
    cases hc

/-- What fits goes on fitting. -/
theorem Fits.mono {now now' : Rat} {l : Claim} (h : Fits n now l)
    (hnow : now ≤ now') : Fits n now' l :=
  ⟨h.owner, le_trans h.acquired hnow, h.valid⟩

/-- Only the tab that moved has to be looked at. -/
theorem Written.frame (h : s.Written) (hframe : Frame n s s')
    (hstored : ∀ l ∈ s'.stored n, Fits n (s'.clock n) l)
    (htab : ∀ c ∈ (s'.phase n).candidate,
      Fits n (s'.clock n) c ∧ c.choosing = (s'.phase n).chooses) :
    s'.Written where
  stored := by
    intro m l hl
    by_cases hm : m = n
    · rw [hm] at hl ⊢
      exact hstored l hl
    · rw [hframe.stored m hm] at hl
      exact (h.stored m l hl).mono (hframe.clock m)
  tab := by
    intro m c hc
    by_cases hm : m = n
    · rw [hm] at hc ⊢
      exact htab c hc
    · rw [hframe.phase m hm] at hc ⊢
      obtain ⟨hfits, hchoosing⟩ := h.tab m c hc
      exact ⟨hfits.mono (hframe.clock m), hchoosing⟩

/-- The attempt is over. -/
theorem Written.leave (h : s.Written) (hframe : Frame n s s')
    (hstored : ∀ l ∈ s'.stored n, l ∈ s.stored n) {p : TabPhase}
    (hp : p.candidate = none) : (s'.goto n p).Written := by
  refine h.frame (hframe.goto p) ?_ ?_
  · intro l hl
    exact (h.stored n l (hstored l hl)).mono (hframe.clock n)
  · intro c hc
    rw [show (s'.goto n p).phase n = p from Function.update_self _ _ _, hp] at hc
    cases hc

/-- On with the same lease. -/
theorem Written.goto (h : s.Written) {p : TabPhase}
    (hp : p.candidate = (s.phase n).candidate)
    (hchooses : p.chooses = (s.phase n).chooses) : (s.goto n p).Written := by
  have hphase : (s.goto n p).phase n = p := Function.update_self _ _ _
  refine h.frame ((Frame.refl n s).goto p) (h.stored n) ?_
  intro c hc
  rw [hphase, hp] at hc
  rw [hphase, hchooses]
  exact h.tab n c hc

/-- On with a lease that has just been written. -/
theorem Written.publish (h : s.Written) (hc : Fits n (s.clock n) c)
    {p : TabPhase} (hp : p.candidate = some c)
    (hchoosing : c.choosing = p.chooses) :
    ((s.write n (some c)).goto n p).Written := by
  have hphase : ((s.write n (some c)).goto n p).phase n = p :=
    Function.update_self _ _ _
  refine h.frame (((Frame.refl n s).write _).goto p) ?_ ?_
  · intro l hl
    rw [show ((s.write n (some c)).goto n p).stored n = some c from
      Function.update_self _ _ _] at hl
    obtain rfl := Option.some_injective _ hl
    exact hc
  · intro x hx
    rw [hphase, hp] at hx
    obtain rfl := Option.some_injective _ hx
    rw [hphase]
    exact ⟨hc, hchoosing⟩

-- ===================================================================== steps

/-- A release writes nothing new. -/
theorem stored_release {l : Claim} {available : Bool}
    (hl : l ∈ (s.release c available).stored n) : l ∈ s.stored n := by
  unfold LeaseSystem.release at hl
  split at hl
  · by_cases hn : n = c.ownerId
    · rw [hn, show (s.write c.ownerId none).stored c.ownerId = none from
        Function.update_self _ _ _] at hl
      cases hl
    · rw [show (s.write c.ownerId none).stored n = s.stored n from
        Function.update_of_ne hn _ _] at hl
      exact hl
  · exact hl

/-- Who gives up writes nothing new. -/
theorem Written.giveUp (h : s.Written) (hc : c ∈ (s.phase n).candidate)
    (available : Bool) : ((s.release c available).goto n .idle).Written :=
  h.leave ((Frame.refl n s).release (h.tab n c hc).1.owner available)
    (fun _ hl => stored_release hl) rfl

/-- A ticket fits. -/
theorem Written.takeTicket (h : s.Written) (hc : c ∈ (s.phase n).candidate)
    (leases : List Claim) : (s.takeTicket n c leases).Written := by
  unfold LeaseSystem.takeTicket
  dsimp only
  split
  · exact h.giveUp hc true
  · obtain ⟨howner, hacquired, -⟩ := (h.tab n c hc).1
    refine h.publish ?_ ?_ ?_
    · refine ⟨howner, hacquired, ?_, ?_, Or.inr ?_, ?_⟩
      · show c.acquiredAt < s.clock n + refreshLeaseTtlMs
        unfold refreshLeaseTtlMs
        linarith
      · show _ + 1 ≤ maxTicket
        omega
      · exact Nat.succ_pos _
      · intro hflags
        cases hflags.1
    · rfl
    · rfl

/-- A raised flag fits. -/
theorem Written.contend (h : s.Written) {k start : Nat} {startedAt : Rat}
    (hphase : s.phase n = .scanning c (.contend k) start startedAt)
    (leases : List Claim) : (s.contend n c k leases).Written := by
  have hc : c ∈ (s.phase n).candidate := by rw [hphase]; rfl
  obtain ⟨⟨howner, hacquired, htimes, hticket, hchosen, -⟩, hchoosing⟩ :=
    h.tab n c hc
  rw [hphase] at hchoosing
  have hwait : ∀ k', (s.goto n (.waiting c (.contend k'))).Written := by
    intro k'
    refine h.goto ?_ ?_ <;> rw [hphase] <;> rfl
  unfold LeaseSystem.contend
  split
  · exact h.giveUp hc true
  · split
    · exact hwait 0
    · split
      · exact hwait (k + 1)
      · have hfits : Fits n (s.clock n) { c with holding := true } := by
          refine ⟨howner, hacquired, htimes, hticket, hchosen, ?_⟩
          intro hflags
          exact absurd (hchoosing.symm.trans hflags.1) Bool.false_ne_true
        have hpublish : ((s.write n (some { c with holding := true })).goto n
            (.waiting { c with holding := true } (.confirm 0))).Written :=
          h.publish hfits rfl hchoosing
        exact ⟨hpublish.stored, hpublish.tab⟩

/-- A lowered flag fits. -/
theorem Written.confirm (h : s.Written) {k start : Nat} {startedAt : Rat}
    (hphase : s.phase n = .scanning c (.confirm k) start startedAt)
    (leases : List Claim) : (s.confirm n c k leases).Written := by
  have hc : c ∈ (s.phase n).candidate := by rw [hphase]; rfl
  obtain ⟨⟨howner, hacquired, htimes, hticket, hchosen, -⟩, hchoosing⟩ :=
    h.tab n c hc
  rw [hphase] at hchoosing
  unfold LeaseSystem.confirm
  split
  · exact h.giveUp hc true
  · dsimp only
    split
    · refine h.publish ?_ ?_ ?_
      · refine ⟨howner, hacquired, htimes, hticket, hchosen, ?_⟩
        intro hflags
        cases hflags.2
      · rfl
      · exact hchoosing
    · split
      · refine h.goto ?_ ?_ <;> rw [hphase] <;> rfl
      · refine h.goto ?_ ?_ <;> rw [hphase] <;> rfl

/-- The first lease of an attempt fits. -/
theorem Written.acquire (h : s.Written) (hidle : s.phase n = .idle)
    (generation : CoordinationId) (readable removable writable : Bool) :
    (s.acquire n generation readable removable writable).Written := by
  have hclear : ∀ l ∈ (s.clear n removable).stored n, l ∈ s.stored n := by
    intro l hl
    unfold LeaseSystem.clear at hl
    split at hl
    · rw [show (s.write n none).stored n = none from
        Function.update_self _ _ _] at hl
      cases hl
    · exact hl
  unfold LeaseSystem.acquire
  split
  · exact h.leave (Frame.refl n s) (fun _ hl => hl) rfl
  · split
    · exact h
    · split
      · exact h.leave ((Frame.refl n s).clear removable) hclear rfl
      · split
        · exact h
        · have hcleared : (s.clear n removable).Written := by
            refine h.frame ((Frame.refl n s).clear removable) ?_ ?_
            · intro l hl
              exact (h.stored n l (hclear l hl)).mono
                (((Frame.refl n s).clear removable).clock n)
            · intro c hc
              have hphase : (s.clear n removable).phase n = s.phase n := by
                unfold LeaseSystem.clear
                split <;> rfl
              rw [hphase, hidle] at hc
              cases hc
          have hpublish := hcleared.publish
            (c := (s.clear n removable).choice n generation)
            (p := .waiting ((s.clear n removable).choice n generation) .initial)
            ⟨rfl, le_rfl, ?_, Nat.zero_le _, Or.inl rfl, ?_⟩ rfl rfl
          · exact ⟨hpublish.stored, hpublish.tab⟩
          · show (s.clear n removable).clock n < (s.clear n removable).clock n + refreshLeaseTtlMs
            unfold refreshLeaseTtlMs
            linarith
          · intro hflags
            cases hflags.2

/-- A heartbeat moves the expiry, and that fits. -/
theorem Written.heartbeat (h : s.Written) (c : Claim) :
    (s.heartbeat n c).Written := by
  unfold LeaseSystem.heartbeat
  split
  · rename_i l hl
    split
    · obtain ⟨howner, hacquired, -, hvalid⟩ := h.stored n l hl
      refine h.frame ((Frame.refl n s).write _) ?_ (h.tab n)
      intro x hx
      rw [show (s.write n _).stored n = _ from Function.update_self _ _ _] at hx
      obtain rfl := Option.some_injective _ hx
      refine ⟨howner, hacquired, ?_, hvalid⟩
      show l.acquiredAt < s.clock n + refreshLeaseTtlMs
      unfold refreshLeaseTtlMs
      linarith
    · exact h
  · exact h

/-- Every turn keeps all of it. A tab writes to its own key only, and what it
writes is its claim, whose flag follows the phase and whose times fit its
clock. -/
theorem Written.turn (h : s.Written) (howned : s.Owned) {e : LeaseEvent}
    (hturn : s.Turn e n s') : s'.Written := by
  have hframe := howned.frame_turn hturn
  cases hturn with
  | stay => exact h
  | tick hms =>
      refine h.frame hframe ?_ ?_
      · intro l hl
        exact (h.stored n l hl).mono (hframe.clock n)
      · intro c hc
        exact ⟨(h.tab n c hc).1.mono (hframe.clock n), (h.tab n c hc).2⟩
  | acquire generation readable removable writable hphase =>
      exact h.acquire hphase generation readable removable writable
  | scan hphase =>
      rename_i c next
      refine h.goto ?_ ?_
      · rw [hphase]
        rfl
      · rw [hphase]
        cases next <;> rfl
  | conclude hphase hsound =>
      rename_i c next start startedAt leases
      cases next with
      | initial => exact h.takeTicket (by rw [hphase]; rfl) leases
      | contend k => exact h.contend hphase leases
      | confirm k => exact h.confirm hphase leases
  | renew hphase => exact h.heartbeat _
  | close hphase => exact h.leave (Frame.refl n s) (fun _ hl => hl) rfl
  | giveUp available hc => exact h.giveUp hc available
  | fence available hc =>
      rename_i c
      refine h.leave (Frame.releaseAfterExpiry (howned.tab n _ hc).owner
        (howned.tab n _ hc).drawn available) ?_ rfl
      intro l hl
      unfold LeaseSystem.releaseAfterExpiry at hl
      split at hl
      · split at hl <;> exact hl
      · exact hl
  | timer hdue =>
      rename_i lease due available
      refine h.frame hframe ?_ ?_
      · intro l hl
        exact (h.stored _ l (stored_release hl)).mono (hframe.clock _)
      · intro c hc
        have hkept : (s.release lease available).phase = s.phase
            ∧ (s.release lease available).clock = s.clock := by
          unfold LeaseSystem.release
          split <;> exact ⟨rfl, rfl⟩
        show Fits _ ((s.release lease available).clock _) c
          ∧ c.choosing = ((s.release lease available).phase _).chooses
        rw [hkept.1, hkept.2]
        refine h.tab _ c ?_
        rw [← hkept.1]
        exact hc

/-- So does every schedule. -/
theorem written_run (clock : CoordinationId → Rat)
    (schedule : List LeaseEvent) :
    (run step (opening clock) schedule).Written := by
  have hboth : (run step (opening clock) schedule).Owned
      ∧ (run step (opening clock) schedule).Written := by
    refine run_keeps (P := fun s : LeaseSystem => s.Owned ∧ s.Written) (fun s e h => ?_)
      ⟨owned_opening clock, written_opening clock⟩ schedule
    exact ⟨h.1.turn (s.step_turn e), h.2.turn h.1 (s.step_turn e)⟩
  exact hboth.2

/-- In every run, each item is a lease of the tab of its key that
`isRefreshLease` takes, and reads as it was written. So no tab's lease is
passed over as malformed by the scans of the others. -/
theorem written_leases_read (clock : CoordinationId → Rat)
    (schedule : List LeaseEvent) (n : CoordinationId) (l : Claim)
    (hl : (run step (opening clock) schedule).stored n = some l) :
    l.ownerId = n ∧ ∃ h : l.Valid,
      isRefreshLease l.members = some (l.lease h) := by
  obtain ⟨howner, -, hvalid⟩ := (written_run clock schedule).stored n l hl
  exact ⟨howner, hvalid, Claim.isRefreshLease_members hvalid⟩

/-- The lease of a second attempt is read as it was written. -/
theorem written_leases_read_lateTimer :
    tabA = tabA ∧ ∃ h : (leaseA secondTry 30001 false true 1).Valid,
      isRefreshLease (leaseA secondTry 30001 false true 1).members
        = some ((leaseA secondTry 30001 false true 1).lease h) :=
  written_leases_read (fun _ => 0) lateTimer tabA
    (leaseA secondTry 30001 false true 1) (by decide +kernel)

end LeaseSystem

end Frontend

end Skrynia
