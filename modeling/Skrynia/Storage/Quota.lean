/-
The quota of an owner, with any number of uploads under way.

An upload that has passed its check under the owner's advisory lock knows
that its bytes fit, and they fit until its insert (`Fits.step`): no other
reservation of that owner can be made in between, and all other moves
charge the owner no more than before, except one. A recovery may reopen a
`deleted` row, and does so only when its upload lost its reservation.

The first check of an upload, made before the lock is taken, promises
nothing and is used for nothing.
-/
import Skrynia.Storage.Lifecycle

namespace Skrynia

open Relational Stepping

namespace StorageSystem

variable {s : StorageSystem} {env : StorageEnv} {maxAttempts : Nat}

-- ============================================================== the lock

/-- The reservation of an upload between the advisory lock and the end of
its transaction. -/
def reserving : UploadPhase → Option Reservation
  | .locked q => some q
  | .checked q => some q
  | _ => none

/-- What a step does to the uploads and the advisory locks. -/
inductive PhaseMove (env : StorageEnv) (s s' : StorageSystem) : Prop
  | stays (hupload : s'.upload = s.upload)
      (hlock : s'.quotaLock = s.quotaLock)
  | moves (id : Uuid) (p : UploadPhase) (hp : reserving p = none)
      (hupload : s'.upload = Function.update s.upload id p)
      (hlock : s'.quotaLock = s.quotaLock)
  | locks (id : Uuid) (q : Reservation) (hfree : s.quotaLock q.ownerId = none)
      (hupload : s'.upload = Function.update s.upload id (.locked q))
      (hlock : s'.quotaLock
        = Function.update s.quotaLock q.ownerId (some id))
  | checks (id : Uuid) (q : Reservation) (hphase : s.upload id = .locked q)
      (hok : s.rows.assertUploadQuota env q.ownerId q.purpose q.image.bytes
        q.began = .ok ())
      (hupload : s'.upload = Function.update s.upload id (.checked q))
      (hlock : s'.quotaLock = s.quotaLock)
  | releases (id : Uuid) (q : Reservation) (p : UploadPhase)
      (hphase : reserving (s.upload id) = some q) (hp : reserving p = none)
      (hupload : s'.upload = Function.update s.upload id p)
      (hlock : s'.quotaLock = Function.update s.quotaLock q.ownerId none)

/-- What an event can do to the phases of calls and objects. -/
theorem step_phases (env : StorageEnv) (maxAttempts : Nat) (e : StorageStep) :
    PhaseMove env s (s.step env maxAttempts e) := by
  cases e with
  | precheck id ownerId purpose fileBytes now =>
      rw [step, precheck]
      split
      · exact .moves id _ rfl rfl rfl
      · exact .stays rfl rfl
  | «begin» id image now =>
      rw [step, StorageSystem.begin]
      split
      · exact .moves id _ rfl rfl rfl
      · exact .stays rfl rfl
  | lockQuota id =>
      rw [step, lockQuota]
      split
      · next q _ =>
          split
          · next hfree => exact .locks id q hfree rfl rfl
          · exact .stays rfl rfl
      · exact .stays rfl rfl
  | checkQuota id =>
      rw [step, checkQuota]
      split
      · next q hphase =>
          split
          · next hok => exact .checks id q hphase hok rfl rfl
          · exact .releases id q .idle (hphase ▸ rfl) rfl rfl rfl
      · exact .stays rfl rfl
  | reserve id driver nanoid =>
      rw [step, StorageSystem.reserve]
      split
      · next q hphase =>
          dsimp only
          split
          · exact .releases id q .writing (hphase ▸ rfl) rfl rfl rfl
          · exact .releases id q .idle (hphase ▸ rfl) rfl rfl rfl
      · exact .stays rfl rfl
  | land id =>
      rw [step, land]
      split <;> exact .stays rfl rfl
  | dropWrite id =>
      rw [step, dropWrite]
      split <;> exact .stays rfl rfl
  | writeReturns id =>
      rw [step, writeReturns]
      split
      · exact .moves id _ rfl rfl rfl
      · exact .stays rfl rfl
  | writeFails id =>
      rw [step, writeFails]
      split
      · exact .moves id _ rfl rfl rfl
      · exact .stays rfl rfl
  | finalize id fault =>
      rw [step, finalize]
      split
      · split
        · exact .stays rfl rfl
        · split
          · exact .moves id _ rfl rfl rfl
          · split
            · exact .moves id .idle rfl rfl rfl
            · exact .moves id .recovering rfl rfl rfl
      · exact .stays rfl rfl
  | recover id eventId now =>
      rw [step, recover]
      split
      · split
        · exact .stays rfl rfl
        · unfold enqueueStorageDeletion
          split
          · exact .moves id _ rfl rfl rfl
          · exact .moves id _ rfl rfl rfl
      · exact .stays rfl rfl
  | abandon id =>
      rw [step, abandon]
      split
      · next q hphase =>
          exact .releases id q .idle (hphase ▸ rfl) rfl rfl rfl
      · next q hphase =>
          exact .releases id q .idle (hphase ▸ rfl) rfl rfl rfl
      · exact .moves id .idle rfl rfl rfl
  | attach tx input now =>
      rw [step, StorageSystem.attach]
      split
      · exact .stays rfl rfl
      · split <;> exact .stays rfl rfl
  | enqueueDeletion tx id =>
      rw [step, enqueueDeletion]
      split
      · exact .stays rfl rfl
      · split
        · split <;> exact .stays rfl rfl
        · exact .stays rfl rfl
  | commit tx eventId now => exact .stays rfl rfl
  | rollback tx => exact .stays rfl rfl
  | cleanup id olderThanHours referenced eventId now =>
      rw [step, cleanup]
      split
      · exact .stays rfl rfl
      · split
        · split
          · unfold enqueueStorageDeletion
            split <;> exact .stays rfl rfl
          · exact .stays rfl rfl
        · exact .stays rfl rfl
  | handlerSelect worker eventId =>
      rw [step, handlerSelect]
      split
      · split <;> exact .stays rfl rfl
      · exact .stays rfl rfl
  | handlerDelete worker eventId =>
      rw [step, handlerDelete]
      split <;> exact .stays rfl rfl
  | handlerConfirm worker eventId now =>
      rw [step, handlerConfirm]
      split
      · split <;> exact .stays rfl rfl
      · exact .stays rfl rfl
  | outbox e =>
      cases e with
      | handlerReturns worker eventId =>
          rw [step, outboxStep]
          split <;> exact .stays rfl rfl
      | _ => exact .stays rfl rfl

/-- An upload that is reserving has its owner's lock. -/
def LockHeld (s : StorageSystem) : Prop :=
  ∀ id q, reserving (s.upload id) = some q → s.quotaLock q.ownerId = some id

/-- Who is past the lock of a user still has it: the lock is given back only
by the call that has it, when it leaves that part. -/
theorem LockHeld.step (h : s.LockHeld) (e : StorageStep) :
    (s.step env maxAttempts e).LockHeld := by
  intro id q hq
  cases s.step_phases env maxAttempts e with
  | stays hupload hlock =>
      rw [hupload] at hq
      rw [hlock]
      exact h id q hq
  | moves id' p hp hupload hlock =>
      rw [hupload] at hq
      rw [hlock]
      by_cases hid : id = id'
      · rw [hid, Function.update_self, hp] at hq
        cases hq
      · rw [Function.update_of_ne hid] at hq
        exact h id q hq
  | locks id' q' hfree hupload hlock =>
      rw [hupload] at hq
      rw [hlock]
      by_cases hid : id = id'
      · rw [hid, Function.update_self] at hq
        cases hq
        rw [Function.update_self, hid]
      · rw [Function.update_of_ne hid] at hq
        have howner : q.ownerId ≠ q'.ownerId := by
          intro heq
          have hheld := h id q hq
          rw [heq, hfree] at hheld
          cases hheld
        rw [Function.update_of_ne howner]
        exact h id q hq
  | checks id' q' hphase _ hupload hlock =>
      rw [hupload] at hq
      rw [hlock]
      by_cases hid : id = id'
      · rw [hid, Function.update_self] at hq
        cases hq
        rw [hid]
        exact h id' q (hphase ▸ rfl)
      · rw [Function.update_of_ne hid] at hq
        exact h id q hq
  | releases id' q' p hphase hp hupload hlock =>
      rw [hupload] at hq
      rw [hlock]
      by_cases hid : id = id'
      · rw [hid, Function.update_self, hp] at hq
        cases hq
      · rw [Function.update_of_ne hid] at hq
        have howner : q.ownerId ≠ q'.ownerId := by
          intro heq
          have hheld := h id q hq
          rw [heq, h id' q' hphase] at hheld
          exact hid (Option.some.inj hheld).symm
        rw [Function.update_of_ne howner]
        exact h id q hq

/-- An upload that is checked was checked before, or is so now. -/
theorem checked_step {e : StorageStep} {id : Uuid} {q : Reservation}
    (h : (s.step env maxAttempts e).upload id = .checked q) :
    s.upload id = .checked q
      ∨ s.rows.assertUploadQuota env q.ownerId q.purpose q.image.bytes q.began
        = .ok () := by
  cases s.step_phases env maxAttempts e with
  | stays hupload _ =>
      rw [hupload] at h
      exact Or.inl h
  | moves id' p hp hupload _ =>
      rw [hupload] at h
      obtain ⟨-, hp'⟩ | ⟨-, h⟩ := update_cases h
      · rw [hp'] at hp
        cases hp
      · exact Or.inl h
  | locks id' q' _ hupload _ =>
      rw [hupload] at h
      obtain ⟨-, hp'⟩ | ⟨-, h⟩ := update_cases h
      · cases hp'
      · exact Or.inl h
  | checks id' q' _ hok hupload _ =>
      rw [hupload] at h
      obtain ⟨-, hp'⟩ | ⟨-, h⟩ := update_cases h
      · cases hp'
        exact Or.inr hok
      · exact Or.inl h
  | releases id' q' p _ hp hupload _ =>
      rw [hupload] at h
      obtain ⟨-, hp'⟩ | ⟨-, h⟩ := update_cases h
      · rw [hp'] at hp
        cases hp
      · exact Or.inl h

-- ============================================================= the quota

/-- No upload that still runs has lost its row to a deletion. -/
def NoneLost (s : StorageSystem) : Prop :=
  ∀ r ∈ s.rows.rows, (s.upload r.id).Running → ¬ r.status.Condemned

instance (s : StorageSystem) : Decidable s.NoneLost :=
  inferInstanceAs (Decidable (∀ r ∈ s.rows.rows, _ → ¬ _))

/-- The check of a checked upload would pass again. -/
def Fits (env : StorageEnv) (s : StorageSystem) : Prop :=
  ∀ id q, s.upload id = .checked q →
    s.rows.assertUploadQuota env q.ownerId q.purpose q.image.bytes q.began
      = .ok ()

/-- Where nothing is reserved or reopened, what fitted still fits: a row that
moves on counts for the same bytes or for none. -/
theorem Rewrites.fits {s' : StorageSystem} {f : StorageObject → StorageObject}
    (hf : Rewrites s s' f) (hlegal : s.Legal) (hlost : s.NoneLost)
    {ownerId : Uuid} {purpose : StoragePurpose} {addBytes : Nat}
    {now : Timestamp}
    (h : s.rows.assertUploadQuota env ownerId purpose addBytes now = .ok ()) :
    s'.rows.assertUploadQuota env ownerId purpose addBytes now = .ok () := by
  have hcharged : ∀ r ∈ s.rows.rows, (f r).status.Charged →
      r.status.Charged := by
    intro r hr
    apply StorageObject.Moves.charged (hlegal.live r hr)
    intro hdeleted
    rcases hf.reopens r hr hdeleted with hstays | hrun
    · exact hstays
    · exact absurd (Or.inr hdeleted) (hlost r hr hrun)
  have hdaily : s'.rows.dailyBytes ownerId now
      ≤ s.rows.dailyBytes ownerId now := by
    apply StorageObjects.sum_map_le hf.rows
    intro r hr
    obtain ⟨-, howner, -, -, hsize, hcreated⟩ := (hf.moves r hr).same
    rw [howner, hsize, hcreated]
  have htotal : s'.rows.totalBytes ownerId ≤ s.rows.totalBytes ownerId := by
    apply StorageObjects.sum_map_le hf.rows
    intro r hr
    obtain ⟨-, howner, -, -, hsize, -⟩ := (hf.moves r hr).same
    rw [howner, hsize]
    by_cases hin : r.ownerId = ownerId ∧ (f r).status.Charged
    · rw [if_pos hin, if_pos ⟨hin.1, hcharged r hr hin.2⟩]
    · rw [if_neg hin]
      exact Nat.zero_le _
  have hcount : s'.rows.purposeCount ownerId purpose
      ≤ s.rows.purposeCount ownerId purpose := by
    apply StorageObjects.sum_map_le hf.rows
    intro r hr
    obtain ⟨-, howner, -, hpurpose, -, -⟩ := (hf.moves r hr).same
    rw [howner, hpurpose]
    by_cases hin : r.ownerId = ownerId ∧ r.purpose = purpose
        ∧ (f r).status.Charged
    · rw [if_pos hin, if_pos ⟨hin.1, hin.2.1, hcharged r hr hin.2.2⟩]
    · rw [if_neg hin]
      exact Nat.zero_le _
  obtain ⟨h₁, h₂, h₃⟩ := StorageObjects.assertUploadQuota_eq_ok.mp h
  exact StorageObjects.assertUploadQuota_eq_ok.mpr
    ⟨Nat.le_trans (Nat.add_le_add_right hdaily _) h₁,
      Nat.le_trans (Nat.add_le_add_right htotal _) h₂,
      Nat.lt_of_le_of_lt hcount h₃⟩

/-- Another owner's reservation charges nothing to this one. -/
theorem fits_reserve {t t' : StorageObjects} {r : StorageObject}
    (hrows : t.reserve? r = some t') {ownerId : Uuid}
    (howner : r.ownerId ≠ ownerId) {purpose : StoragePurpose} {addBytes : Nat}
    {now : Timestamp}
    (h : t.assertUploadQuota env ownerId purpose addBytes now = .ok ()) :
    t'.assertUploadQuota env ownerId purpose addBytes now = .ok () := by
  have hdaily : t'.dailyBytes ownerId now = t.dailyBytes ownerId now := by
    unfold StorageObjects.dailyBytes
    rw [StorageObjects.sum_reserve? hrows, if_neg fun h => howner h.1,
      Nat.add_zero]
  have htotal : t'.totalBytes ownerId = t.totalBytes ownerId := by
    unfold StorageObjects.totalBytes
    rw [StorageObjects.sum_reserve? hrows, if_neg fun h => howner h.1,
      Nat.add_zero]
  have hcount : t'.purposeCount ownerId purpose
      = t.purposeCount ownerId purpose := by
    unfold StorageObjects.purposeCount
    rw [StorageObjects.sum_reserve? hrows, if_neg fun h => howner h.1,
      Nat.add_zero]
  rw [StorageObjects.assertUploadQuota_eq_ok] at h ⊢
  rw [hdaily, htotal, hcount]
  exact h

/-- While no lock is lost, a check that was passed under the lock still
holds. -/
theorem Fits.step (h : s.Fits env) (hlegal : s.Legal) (hlock : s.LockHeld)
    (hlost : s.NoneLost) (e : StorageStep) :
    (s.step env maxAttempts e).Fits env := by
  intro id q hq
  have hok : s.rows.assertUploadQuota env q.ownerId q.purpose q.image.bytes
      q.began = .ok () := by
    rcases checked_step hq with hold | hnew
    · exact h id q hold
    · exact hnew
  rcases step_rows hlegal.drafted env maxAttempts e with ⟨f, hf⟩ | hreserve
  · exact hf.fits hlegal hlost hok
  · obtain ⟨id', q', location, rows, hphase, hrows, heq⟩ := hreserve
    rw [heq] at hq ⊢
    refine fits_reserve hrows ?_ hok
    -- the two would hold one lock
    obtain ⟨-, hwriting⟩ | ⟨hid, hold⟩ := update_cases hq
    · cases hwriting
    · intro howner
      have hheld := hlock id q (hold ▸ rfl)
      rw [← show q'.ownerId = q.ownerId from howner,
        hlock id' q' (hphase ▸ rfl)] at hheld
      exact hid (Option.some.inj hheld).symm

/-- The owner's charges at the time `now`. -/
def WithinQuota (env : StorageEnv) (s : StorageSystem) (ownerId : Uuid)
    (purpose : StoragePurpose) (now : Timestamp) : Prop :=
  s.rows.totalBytes ownerId ≤ env.totalQuotaBytesPerUser
    ∧ s.rows.dailyBytes ownerId now ≤ env.dailyUploadBytesPerUser
    ∧ s.rows.purposeCount ownerId purpose ≤ env.maxObjectsPerPurpose

/-- A step that commits a reservation leaves its owner within quota. -/
theorem Fits.reserve (h : s.Fits env) {id : Uuid} {q : Reservation}
    {driver : StorageDriver} {nanoid : String}
    (hchecked : s.upload id = .checked q)
    (hcommitted : (s.reserve id driver nanoid).upload id = .writing)
    {now : Timestamp} (hnow : q.began ≤ now) :
    (s.reserve id driver nanoid).WithinQuota env q.ownerId q.purpose now := by
  obtain ⟨h₁, h₂, h₃⟩ :=
    StorageObjects.assertUploadQuota_eq_ok.mp (h id q hchecked)
  rw [StorageSystem.reserve, hchecked] at hcommitted ⊢
  dsimp only at hcommitted ⊢
  split at hcommitted
  · next rows hrows =>
      refine ⟨?_, ?_, ?_⟩
      · show rows.totalBytes q.ownerId ≤ _
        unfold StorageObjects.totalBytes
        rw [StorageObjects.sum_reserve? hrows, if_pos ⟨rfl, Or.inl rfl⟩]
        exact h₂
      · apply Nat.le_trans (rows.dailyBytes_le q.ownerId hnow)
        unfold StorageObjects.dailyBytes
        rw [StorageObjects.sum_reserve? hrows]
        apply Nat.le_trans (Nat.add_le_add_left _ _) h₁
        split
        · exact Nat.le_refl _
        · exact Nat.zero_le _
      · show rows.purposeCount q.ownerId q.purpose ≤ _
        unfold StorageObjects.purposeCount
        rw [StorageObjects.sum_reserve? hrows, if_pos ⟨rfl, rfl, Or.inl rfl⟩]
        exact h₃
  · cases (Function.update_self ..).symm.trans hcommitted

/-- At the start nobody is past a lock. -/
theorem lockHeld_start : start.LockHeld := by
  intro id q hq
  cases hq

/-- Nor past a check. -/
theorem fits_start : start.Fits env := by
  intro id q hq
  cases hq

/-- So it holds along every run in which no lock is lost. -/
theorem fits_play {schedule : List StorageStep}
    (h : Along (fun s e => s.step env maxAttempts e) (fun s _ => s.NoneLost)
      start schedule) :
    (start.play env maxAttempts schedule).Fits env := by
  have hkeeps : ((start.play env maxAttempts schedule).Legal
      ∧ (start.play env maxAttempts schedule).LockHeld)
      ∧ (start.play env maxAttempts schedule).Fits env := by
    refine run_keeps_along (P := fun s => (s.Legal ∧ s.LockHeld) ∧ s.Fits env)
      ?_ h ⟨⟨legal_start, lockHeld_start⟩, fits_start⟩
    intro s e hlost hs
    exact ⟨⟨hs.1.1.step, hs.1.2.step e⟩,
      hs.2.step hs.1.1 hs.1.2 hlost e⟩
  exact hkeeps.2

-- ========================================================== the whole life

/-- What a row is attached from. -/
def AttachesTemporary (s s' : StorageSystem) : Prop :=
  ∀ r' ∈ s'.rows.rows, r'.status = .attached →
    ∃ r ∈ s.rows.rows, r.id = r'.id
      ∧ (r.status = .attached ∨ r.status = .temporary)

/-- What is to be deleted stays so. -/
def KeepsCondemned (s s' : StorageSystem) : Prop :=
  ∀ r ∈ s.rows.rows, r.status.Condemned →
    ∃ r' ∈ s'.rows.rows, r'.id = r.id ∧ r'.status.Condemned

/-- Only a temporary object is attached. -/
theorem Legal.attachesTemporary (h : s.Legal) (e : StorageStep) :
    s.AttachesTemporary (s.step env maxAttempts e) := by
  intro r' hr' hattached
  rcases step_rows h.drafted env maxAttempts e with ⟨f, hf⟩ | hreserve
  · rw [hf.rows] at hr'
    obtain ⟨r, hr, rfl⟩ := List.mem_map.mp hr'
    have hmoves := hf.moves r hr
    exact ⟨r, hr, hmoves.same.1.symm, hmoves.attached hattached⟩
  · obtain ⟨id, q, location, rows, -, hrows, heq⟩ := hreserve
    rw [heq] at hr'
    rcases (StorageObjects.mem_reserve? hrows).mp hr' with hr | rfl
    · exact ⟨r', hr, rfl, Or.inl hattached⟩
    · cases hattached

/-- An object that is to be deleted stays so. -/
theorem Legal.keepsCondemned (h : s.Legal) (e : StorageStep) :
    s.KeepsCondemned (s.step env maxAttempts e) := by
  intro r hr hcondemned
  rcases step_rows h.drafted env maxAttempts e with ⟨f, hf⟩ | hreserve
  · have hmoves := hf.moves r hr
    refine ⟨f r, ?_, hmoves.same.1, hmoves.condemned hcondemned⟩
    rw [hf.rows]
    exact List.mem_map_of_mem hr
  · obtain ⟨id, q, location, rows, -, hrows, heq⟩ := hreserve
    refine ⟨r, ?_, rfl, hcondemned⟩
    rw [heq]
    exact (StorageObjects.mem_reserve? hrows).mpr (Or.inl hr)

/-- And it does in every later run. -/
theorem Legal.keepsCondemned_play (h : s.Legal) (later : List StorageStep) :
    s.KeepsCondemned (s.play env maxAttempts later) := by
  have hkeeps : (s.play env maxAttempts later).Legal
      ∧ s.KeepsCondemned (s.play env maxAttempts later) := by
    refine run_keeps (P := fun s' => s'.Legal ∧ s.KeepsCondemned s') ?_
      ⟨h, fun r hr hcondemned => ⟨r, hr, rfl, hcondemned⟩⟩ later
    intro s' e hs'
    refine ⟨hs'.1.step, ?_⟩
    intro r hr hcondemned
    obtain ⟨r', hr', hid, hcondemned'⟩ := hs'.2 r hr hcondemned
    obtain ⟨r'', hr'', hid', hcondemned''⟩ :=
      hs'.1.keepsCondemned e r' hr' hcondemned'
    exact ⟨r'', hr'', hid'.trans hid, hcondemned''⟩
  exact hkeeps.2

/-- In every run: an object is attached at most once, by its owner and
for its purpose, and from `temporary`; one to be deleted is never
attachable again; and while no upload has lost its reservation, a
committed reservation leaves its owner within quota, whoever else
uploads. -/
theorem storageObjects_lifecycle (env : StorageEnv) (maxAttempts : Nat)
    (schedule : List StorageStep) :
    let s := start.play env maxAttempts schedule
    s.Recorded
      ∧ (∀ e, s.AttachesTemporary (s.step env maxAttempts e))
      ∧ (∀ later, s.KeepsCondemned (s.play env maxAttempts later))
      ∧ (Along (fun s e => s.step env maxAttempts e) (fun s _ => s.NoneLost)
          start schedule →
        ∀ id q driver nanoid now, s.upload id = .checked q →
          (s.step env maxAttempts (.reserve id driver nanoid)).upload id
            = .writing →
          q.began ≤ now →
          (s.step env maxAttempts (.reserve id driver nanoid)).WithinQuota env
            q.ownerId q.purpose now) := by
  have hlegal : (start.play env maxAttempts schedule).Legal :=
    legal_play schedule
  refine ⟨hlegal.recorded, fun e => hlegal.attachesTemporary e,
    fun later => hlegal.keepsCondemned_play later, ?_⟩
  intro halong id q driver nanoid now hchecked hcommitted hnow
  exact (fits_play halong).reserve hchecked hcommitted hnow

/-- Two uploads of one owner: the second waits for the lock of the
first. -/
def twoUploads : List StorageStep :=
  [.precheck ⟨1⟩ ⟨7⟩ .avatar 600 0, .precheck ⟨2⟩ ⟨7⟩ .avatar 400 0,
    .begin ⟨1⟩ ⟨600, "image/webp", 1, 1⟩ 1,
    .begin ⟨2⟩ ⟨400, "image/webp", 1, 1⟩ 1,
    .lockQuota ⟨1⟩, .lockQuota ⟨2⟩, .checkQuota ⟨1⟩, .reserve ⟨1⟩ .s3 "k",
    .lockQuota ⟨2⟩, .checkQuota ⟨2⟩]

/-- Two uploads that fill the quota together stay within it. -/
theorem twoUploads_withinQuota :
    ((start.play ⟨1000, 1000, 10⟩ 5 twoUploads).step ⟨1000, 1000, 10⟩ 5
      (.reserve ⟨2⟩ .s3 "l")).WithinQuota ⟨1000, 1000, 10⟩ ⟨7⟩ .avatar 2 :=
  (storageObjects_lifecycle ⟨1000, 1000, 10⟩ 5 twoUploads).2.2.2
    (by decide +kernel)
    ⟨2⟩ ⟨⟨7⟩, .avatar, ⟨400, "image/webp", 1, 1⟩, 1⟩ .s3 "l" 2 rfl rfl
    (by decide +kernel)

end StorageSystem

end Skrynia
