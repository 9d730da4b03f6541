/-
Bytes at the provider and the rows that account for them.

A delete handler deletes the bytes and confirms in two steps, and a write
may land between them, after everything the handler will look at. The
upload that made the write finds its reservation gone and reopens the
deletion, but when its intent commits before the late handler confirms,
the confirmation covers the intent up: the handler of the intent's event
reads `deleted` and returns. Likewise when an upload dies, or its write
lands, while the row is `deleted` and nobody is left to reopen it.

# The condition

`Recoverable` names the three moves: a confirmation over bytes whose
upload has ended, the end of an upload over bytes whose row is `deleted`,
and a landing on a `deleted` row whose upload has ended. A run without
them keeps its books (`Accounted.step`), and a step that is one of them
does not (`accounted_step_iff`).
-/
import Skrynia.Storage.System

namespace Skrynia

open Relational Stepping

-- =========================================================== the account

/-- Every byte is filed under a row, and a row that is `deleted` has
bytes only while its upload runs. -/
structure Accounted (rows : StorageObjects)
    (provider : StorageLocation → Bool)
    (landing : Uuid → Option StorageLocation) (running : Uuid → Prop) :
    Prop where
  keys : ∀ r ∈ rows.rows, ∀ r' ∈ rows.rows, r.objectKey = r'.objectKey → r = r'
  landing : ∀ id location, landing id = some location →
    ∃ r ∈ rows.rows, r.id = id ∧ r.location = location
  stored : ∀ location, provider location = true →
    ∃ r ∈ rows.rows, r.location = location
  live : ∀ r ∈ rows.rows, r.status ≠ .quarantined
  safe : ∀ r ∈ rows.rows, provider r.location = true → r.status = .deleted →
    running r.id

namespace Accounted

variable {rows : StorageObjects} {provider : StorageLocation → Bool}
  {landing : Uuid → Option StorageLocation} {running running' : Uuid → Prop}

/-- An upload that holds a row starts to run, or another one stops. -/
theorem changeRunning (h : Accounted rows provider landing running)
    (hrun : ∀ r ∈ rows.rows, provider r.location = true →
      r.status = .deleted → running r.id → running' r.id) :
    Accounted rows provider landing running' :=
  { h with
    safe := fun r hr hbytes hstatus =>
      hrun r hr hbytes hstatus (h.safe r hr hbytes hstatus) }

/-- Rows are rewritten in place. -/
theorem rewrite {rows' : StorageObjects} {f : StorageObject → StorageObject}
    (h : Accounted rows provider landing running)
    (hrows : rows'.rows = rows.rows.map f)
    (hsame : ∀ r : StorageObject, r.SameObject (f r))
    (hlive : ∀ r ∈ rows.rows, (f r).status ≠ .quarantined)
    (hsafe : ∀ r ∈ rows.rows, provider r.location = true →
      (f r).status = .deleted → running r.id) :
    Accounted rows' provider landing running := by
  have hfiled : ∀ r ∈ rows.rows, f r ∈ rows'.rows := by
    intro r hr
    rw [hrows]
    exact List.mem_map_of_mem hr
  have hfrom : ∀ r' ∈ rows'.rows, ∃ r ∈ rows.rows, f r = r' := by
    intro r' hr'
    rw [hrows] at hr'
    exact List.mem_map.mp hr'
  constructor
  · intro r₁ hr₁ r₂ hr₂ hkey
    obtain ⟨r, hr, rfl⟩ := hfrom r₁ hr₁
    obtain ⟨r', hr', rfl⟩ := hfrom r₂ hr₂
    have hkeys : r.objectKey = r'.objectKey :=
      (congrArg Prod.snd (hsame r).2.2.1).symm.trans
        (hkey.trans (congrArg Prod.snd (hsame r').2.2.1))
    rw [h.keys r hr r' hr' hkeys]
  · intro id location hl
    obtain ⟨r, hr, hid, hloc⟩ := h.landing id location hl
    exact ⟨f r, hfiled r hr, (hsame r).1.trans hid, (hsame r).2.2.1.trans hloc⟩
  · intro location hl
    obtain ⟨r, hr, hloc⟩ := h.stored location hl
    exact ⟨f r, hfiled r hr, (hsame r).2.2.1.trans hloc⟩
  · intro r' hr'
    obtain ⟨r, hr, rfl⟩ := hfrom r' hr'
    exact hlive r hr
  · intro r' hr' hbytes hstatus
    obtain ⟨r, hr, rfl⟩ := hfrom r' hr'
    rw [(hsame r).2.2.1] at hbytes
    rw [(hsame r).1]
    exact hsafe r hr hbytes hstatus

/-- One row is rewritten, by an UPDATE with a condition. -/
theorem updateRow (h : Accounted rows provider landing running) (id : Uuid)
    (p : StorageObject → Prop) [DecidablePred p]
    (f : StorageObject → StorageObject) (hf : ∀ r, (f r).id = r.id)
    (hsame : ∀ r : StorageObject, r.SameObject (f r))
    (hlive : ∀ r, (f r).status ≠ .quarantined)
    (hsafe : ∀ r ∈ rows.rows, r.id = id → provider r.location = true →
      (f r).status = .deleted → running id) :
    Accounted (rows.updateRow id p f hf) provider landing running := by
  apply h.rewrite rfl
  · intro r
    split
    · exact hsame r
    · exact StorageObject.SameObject.refl r
  · intro r hr
    split
    · exact hlive r
    · exact h.live r hr
  · intro r hr hbytes
    split
    · next hp =>
        intro hstatus
        rw [hp.1]
        exact hsafe r hr hp.1 hbytes hstatus
    · exact h.safe r hr hbytes

/-- A row is condemned: nothing becomes `deleted`. -/
theorem markDeleting (h : Accounted rows provider landing running)
    (id : Uuid) (reopenDeleted : Bool) :
    Accounted (rows.markDeleting id reopenDeleted) provider landing running := by
  refine h.updateRow id _ _ _ StorageObject.sameObject_condemn ?_ ?_
  · intro r hstatus
    cases hstatus
  · intro r _ _ _ hstatus
    cases hstatus

/-- An upload that is finalized has its bytes accounted for. -/
theorem finalize (h : Accounted rows provider landing running) (id : Uuid) :
    Accounted (rows.finalize id) provider landing running := by
  refine h.updateRow id _ _ _ StorageObject.sameObject_finalized ?_ ?_
  · intro r hstatus
    cases hstatus
  · intro r _ _ _ hstatus
    cases hstatus

/-- A row may be marked if its bytes are gone. -/
theorem markDeleted (h : Accounted rows provider landing running) (id : Uuid)
    (now : Timestamp)
    (hrun : ∀ r ∈ rows.rows, r.id = id → provider r.location = true →
      running id) :
    Accounted (rows.markDeleted id now) provider landing running := by
  refine h.updateRow id _ _ _ (fun r => r.sameObject_confirm now) ?_ ?_
  · intro r hstatus
    cases hstatus
  · intro r hr hid hbytes _
    exact hrun r hr hid hbytes

/-- A new row, and its write ahead. -/
theorem reserve {rows' : StorageObjects} {r : StorageObject}
    (h : Accounted rows provider landing running)
    (hrows : rows.reserve? r = some rows') (hstatus : r.status = .uploading) :
    Accounted rows' provider (Function.update landing r.id (some r.location))
      running := by
  obtain ⟨hinsert, hkey⟩ := StorageObjects.reserve?_eq_some hrows
  have hmem : ∀ x, x ∈ rows'.rows ↔ x ∈ rows.rows ∨ x = r := by
    intro x
    rw [(Table.insert?_eq_some.mp hinsert).2, List.mem_append,
      List.mem_singleton]
  constructor
  · intro x hx y hy hxy
    rcases (hmem x).mp hx with hx | hx
    · rcases (hmem y).mp hy with hy | hy
      · exact h.keys x hx y hy hxy
      · exact absurd (hxy.trans (congrArg _ hy)) (hkey x hx)
    · rcases (hmem y).mp hy with hy | hy
      · exact absurd (hxy.symm.trans (congrArg _ hx)) (hkey y hy)
      · rw [hx, hy]
  · intro id location hl
    obtain ⟨hid, hloc⟩ | ⟨-, hl⟩ := update_cases hl
    · exact ⟨r, (hmem r).mpr (Or.inr rfl), hid.symm, Option.some.inj hloc⟩
    · obtain ⟨x, hx, hx'⟩ := h.landing id location hl
      exact ⟨x, (hmem x).mpr (Or.inl hx), hx'⟩
  · intro location hl
    obtain ⟨x, hx, hloc⟩ := h.stored location hl
    exact ⟨x, (hmem x).mpr (Or.inl hx), hloc⟩
  · intro x hx
    rcases (hmem x).mp hx with hx | hx
    · exact h.live x hx
    · rw [hx, hstatus]
      exact fun h => by cases h
  · intro x hx hbytes hdeleted
    rcases (hmem x).mp hx with hx | hx
    · exact h.safe x hx hbytes hdeleted
    · rw [hx, hstatus] at hdeleted
      cases hdeleted

/-- The bytes of an upload appear. -/
theorem land (h : Accounted rows provider landing running) {id : Uuid}
    {location : StorageLocation} (hl : landing id = some location)
    (hrun : ∀ r ∈ rows.rows, r.id = id → r.status = .deleted → running id) :
    Accounted rows (Function.update provider location true)
      (Function.update landing id none) running := by
  obtain ⟨r, hr, hid, hloc⟩ := h.landing id location hl
  refine { h with landing := ?_, stored := ?_, safe := ?_ }
  · intro id' location' hl'
    obtain ⟨-, hnone⟩ | ⟨-, hl'⟩ := update_cases hl'
    · cases hnone
    · exact h.landing id' location' hl'
  · intro location' hbytes
    obtain ⟨hsame, -⟩ | ⟨-, hbytes⟩ := update_cases hbytes
    · exact ⟨r, hr, hloc.trans hsame.symm⟩
    · exact h.stored location' hbytes
  · intro r' hr' hbytes hstatus
    obtain ⟨hsame, -⟩ | ⟨-, hbytes⟩ := update_cases hbytes
    · -- keys are unique: it is the upload's own row
      have heq : r' = r := h.keys r' hr' r hr
        (congrArg Prod.snd (hsame.trans hloc.symm))
      rw [heq, hid]
      exact hrun r hr hid (heq ▸ hstatus)
    · exact h.safe r' hr' hbytes hstatus

/-- A write that will not land any more leaves no bytes. -/
theorem dropWrite (h : Accounted rows provider landing running) (id : Uuid) :
    Accounted rows provider (Function.update landing id none) running := by
  refine { h with landing := ?_ }
  intro id' location hl
  obtain ⟨-, hnone⟩ | ⟨-, hl⟩ := update_cases hl
  · cases hnone
  · exact h.landing id' location hl

/-- Bytes disappear. -/
theorem deletePhysicalObject (h : Accounted rows provider landing running)
    (location : StorageLocation) :
    Accounted rows (Function.update provider location false) landing
      running := by
  have hless : ∀ l, Function.update provider location false l = true →
      provider l = true := by
    intro l hl
    obtain ⟨-, hfalse⟩ | ⟨-, hl⟩ := update_cases hl
    · cases hfalse
    · exact hl
  exact { h with
    stored := fun l hl => h.stored l (hless l hl)
    safe := fun r hr hbytes hstatus => h.safe r hr (hless _ hbytes) hstatus }

end Accounted

-- ============================================================ each step

namespace StorageSystem

variable {s : StorageSystem}

/-- The bytes of the object are at the provider. -/
def Stored (s : StorageSystem) (id : Uuid) : Prop :=
  ∃ r ∈ s.rows.rows, r.id = id ∧ s.provider r.location = true

instance (id : Uuid) : Decidable (s.Stored id) :=
  inferInstanceAs (Decidable (∃ r ∈ s.rows.rows, _ ∧ _))

/-- They are, and the row is `deleted`. -/
def Unaccounted (s : StorageSystem) (id : Uuid) : Prop :=
  ∃ r ∈ s.rows.rows, r.id = id ∧ s.provider r.location = true
    ∧ r.status = .deleted

instance (id : Uuid) : Decidable (s.Unaccounted id) :=
  inferInstanceAs (Decidable (∃ r ∈ s.rows.rows, _ ∧ _ ∧ _))

/-- Where the handler stands, it covers up nothing. -/
def Confirmable (s : StorageSystem) : HandlerPhase → Prop
  | .confirming id =>
      s.Locked id ∨ ¬ s.Stored id ∨ (s.upload id).Running
  | _ => True

instance (p : HandlerPhase) : Decidable (s.Confirmable p) := by
  cases p with
  | confirming id => exact inferInstanceAs (Decidable (_ ∨ ¬ _ ∨ _))
  | selecting => exact instDecidableTrue
  | deleting object => exact instDecidableTrue
  | finished => exact instDecidableTrue

/-- The step leaves somebody to delete the bytes of each object. -/
def Recoverable (s : StorageSystem) : StorageStep → Prop
  | .handlerConfirm worker eventId _ =>
      s.Confirmable (s.handler worker eventId)
  | .abandon id => ¬ (s.upload id).Running ∨ ¬ s.Unaccounted id
  | .land id =>
      (s.landing id).isNone ∨ (s.upload id).Running
        ∨ ¬ s.rows.RowMeets id fun r => r.status = .deleted
  | _ => True

instance (e : StorageStep) : Decidable (s.Recoverable e) := by
  cases e with
  | handlerConfirm worker eventId now =>
      exact inferInstanceAs (Decidable (s.Confirmable _))
  | abandon id => exact inferInstanceAs (Decidable (¬ _ ∨ ¬ _))
  | land id => exact inferInstanceAs (Decidable (_ ∨ _ ∨ ¬ _))
  | _ => exact instDecidableTrue

/-- The books of the system. -/
def KeepsAccount (s : StorageSystem) : Prop :=
  Accounted s.rows s.provider s.landing fun id => (s.upload id).Running

/-- An upload moves on, and does not end. -/
theorem KeepsAccount.setUpload (h : s.KeepsAccount) {id : Uuid}
    {p : UploadPhase} (hp : (s.upload id).Running → p.Running) :
    (s.setUpload id p).KeepsAccount := by
  apply Accounted.changeRunning h
  intro r _ _ _ hrun
  show (Function.update s.upload id p r.id).Running
  by_cases hid : r.id = id
  · rw [hid, Function.update_self]
    exact hp (hid ▸ hrun)
  · rw [Function.update_of_ne hid]
    exact hrun

/-- An upload moves that has no row. -/
theorem KeepsAccount.prepare (h : s.KeepsAccount) {id : Uuid}
    {p q : UploadPhase} (hphase : s.upload id = q) (hq : ¬ q.Running) :
    (s.setUpload id p).KeepsAccount :=
  h.setUpload fun hrun => absurd (hphase ▸ hrun) hq

/-- An upload ends whose bytes, if any, are accounted for. -/
theorem KeepsAccount.endUpload (h : s.KeepsAccount) {id : Uuid}
    {p : UploadPhase} (hid : ¬ s.Unaccounted id) :
    (s.setUpload id p).KeepsAccount := by
  apply Accounted.changeRunning h
  intro r hr hbytes hstatus hrun
  show (Function.update s.upload id p r.id).Running
  rw [Function.update_of_ne]
  · exact hrun
  · intro heq
    exact hid ⟨r, hr, heq, hbytes, hstatus⟩

/-- A deletion that is queued loses no bytes. -/
theorem KeepsAccount.enqueueStorageDeletion (h : s.KeepsAccount) (id : Uuid)
    (reopenDeleted : Bool) (intent : DeletionIntent) (eventId : Uuid)
    (now : Timestamp) :
    (s.enqueueStorageDeletion id reopenDeleted intent eventId
      now).KeepsAccount := by
  unfold StorageSystem.enqueueStorageDeletion
  split
  · exact Accounted.markDeleting h id reopenDeleted
  · exact h

/-- After an upload's intent its row is not `deleted`. -/
theorem not_unaccounted_recovered (id eventId : Uuid)
    (intent : DeletionIntent) (now : Timestamp) :
    ¬ (s.enqueueStorageDeletion id true intent eventId now).Unaccounted id := by
  intro h
  obtain ⟨r', hr', hid, -, hstatus⟩ := h
  unfold StorageSystem.enqueueStorageDeletion at hr'
  split at hr'
  · obtain ⟨r, -, rfl⟩ := List.mem_map.mp hr'
    by_cases hr : r.id = id
    · rw [if_pos ⟨hr, Or.inr rfl⟩] at hstatus
      cases hstatus
    · rw [if_neg fun h => hr h.1] at hid
      exact hr hid
  · next hmeets => exact hmeets ⟨r', hr', hid, Or.inr rfl⟩

/-- After the UPDATE of the upload's own end its row is not `deleted`. -/
theorem not_unaccounted_finalized {id : Uuid}
    (hfound : s.rows.RowMeets id fun r => r.status = .uploading) :
    ¬ ({ s with rows := s.rows.finalize id } : StorageSystem).Unaccounted id := by
  intro h
  obtain ⟨r', hr', hid, -, hstatus⟩ := h
  obtain ⟨r, hr, rfl⟩ := List.mem_map.mp hr'
  obtain ⟨x, hx, hxid, hxstatus⟩ := hfound
  by_cases hmeets : r.id = id ∧ r.status = .uploading
  · rw [if_pos hmeets] at hstatus
    cases hstatus
  · rw [if_neg hmeets] at hid
    have heq : r = x := Table.eq_of_key_eq hr hx (hid.trans hxid.symm)
    exact hmeets ⟨hid, heq ▸ hxstatus⟩

/-- Nor does a commit. -/
theorem KeepsAccount.commit (h : s.KeepsAccount) (tx : Nat)
    (eventId : Uuid → Uuid) (now : Timestamp) :
    (s.commit tx eventId now).KeepsAccount := by
  apply Accounted.rewrite h (List.map_congr_left fun r _ => if_pos trivial)
    (s.sameObject_draftedRow tx)
  · intro r hr hstatus
    rcases status_draftedRow s tx r with h' | h' | h'
    · cases h'.symm.trans hstatus
    · cases h'.symm.trans hstatus
    · exact h.live r hr (h'.symm.trans hstatus)
  · intro r hr hbytes hstatus
    rcases status_draftedRow s tx r with h' | h' | h'
    · cases h'.symm.trans hstatus
    · cases h'.symm.trans hstatus
    · exact h.safe r hr hbytes (h'.symm.trans hstatus)

/-- The rows, the provider and the uploads decide the account. -/
theorem KeepsAccount.outboxStep (h : s.KeepsAccount) (maxAttempts : Nat)
    (e : OutboxStep StorageDelete) :
    (s.outboxStep maxAttempts e).KeepsAccount := by
  cases e with
  | handlerReturns worker eventId =>
      rw [StorageSystem.outboxStep]
      split
      · exact h
      · exact h
  | _ => exact h

/-- Nor does any recoverable step. By the kinds of steps: bytes come with a
row that is charged for them, and a row is let go only after its bytes. -/
theorem KeepsAccount.step (h : s.KeepsAccount) {env : StorageEnv}
    {maxAttempts : Nat} {e : StorageStep} (he : s.Recoverable e) :
    (s.step env maxAttempts e).KeepsAccount := by
  cases e with
  | precheck id ownerId purpose fileBytes now =>
      rw [StorageSystem.step, StorageSystem.precheck]
      split
      · next hidle _ => exact h.prepare hidle not_false
      · exact h
  | «begin» id image now =>
      rw [StorageSystem.step, StorageSystem.begin]
      split
      · next hphase => exact h.prepare hphase not_false
      · exact h
  | lockQuota id =>
      rw [StorageSystem.step, StorageSystem.lockQuota]
      split
      · next hphase =>
          split
          · exact h.prepare hphase not_false
          · exact h
      · exact h
  | checkQuota id =>
      rw [StorageSystem.step, StorageSystem.checkQuota]
      split
      · next hphase =>
          split
          · exact h.prepare hphase not_false
          · exact h.prepare hphase not_false
      · exact h
  | reserve id driver nanoid =>
      rw [StorageSystem.step, StorageSystem.reserve]
      split
      · next hphase =>
          dsimp only
          split
          · next rows hrows =>
              exact Accounted.reserve
                (h.prepare (p := .writing) hphase not_false) hrows rfl
          · exact h.prepare hphase not_false
      · exact h
  | land id =>
      rw [StorageSystem.step, StorageSystem.land]
      split
      · next location hl =>
          apply Accounted.land h hl
          intro r hr hid hstatus
          rcases he with hnone | hrun | hfree
          · rw [hl] at hnone
            exact absurd hnone nofun
          · exact hrun
          · exact absurd ⟨r, hr, hid, hstatus⟩ hfree
      · exact h
  | dropWrite id =>
      rw [StorageSystem.step, StorageSystem.dropWrite]
      split
      · exact h
      · exact Accounted.dropWrite h id
  | writeReturns id =>
      rw [StorageSystem.step, StorageSystem.writeReturns]
      split
      · exact h.setUpload fun _ => trivial
      · exact h
  | writeFails id =>
      rw [StorageSystem.step, StorageSystem.writeFails]
      split
      · exact h.setUpload fun _ => trivial
      · exact h
  | finalize id fault =>
      rw [StorageSystem.step, StorageSystem.finalize]
      split
      · split
        · exact h
        · split
          · exact h.setUpload fun _ => trivial
          · split
            · next hfound =>
                -- the UPDATE took effect: the upload may end
                exact KeepsAccount.endUpload
                  (s := { s with rows := s.rows.finalize id })
                  (Accounted.finalize h id) (not_unaccounted_finalized hfound.2)
            · exact KeepsAccount.setUpload
                (s := { s with rows := s.rows.finalize id })
                (Accounted.finalize h id) fun _ => trivial
      · exact h
  | recover id eventId now =>
      rw [StorageSystem.step, StorageSystem.recover]
      split
      · split
        · exact h
        · exact (h.enqueueStorageDeletion id true _ eventId now).endUpload
            (not_unaccounted_recovered id eventId _ now)
      · exact h
  | abandon id =>
      have hend : ∀ p, (s.setUpload id p).KeepsAccount := by
        intro p
        rcases he with hidle | hfree
        · exact h.setUpload fun hrun => absurd hrun hidle
        · exact h.endUpload hfree
      rw [StorageSystem.step, StorageSystem.abandon]
      split
      · exact hend .idle
      · exact hend .idle
      · exact hend .idle
  | attach tx input now =>
      rw [StorageSystem.step, StorageSystem.attach]
      split
      · exact h
      · split
        · exact h
        · exact h
  | enqueueDeletion tx id =>
      rw [StorageSystem.step, StorageSystem.enqueueDeletion]
      split
      · exact h
      · split
        · split
          · exact h
          · exact h
        · exact h
  | commit tx eventId now => exact h.commit tx eventId now
  | rollback tx => exact h
  | cleanup id olderThanHours referenced eventId now =>
      rw [StorageSystem.step, StorageSystem.cleanup]
      split
      · exact h
      · split
        · split
          · exact h.enqueueStorageDeletion id false _ eventId now
          · exact h
        · exact h
  | handlerSelect worker eventId =>
      rw [StorageSystem.step, StorageSystem.handlerSelect]
      split
      · split
        · exact h
        · exact h
      · exact h
  | handlerDelete worker eventId =>
      rw [StorageSystem.step, StorageSystem.handlerDelete]
      split
      · exact Accounted.deletePhysicalObject h _
      · exact h
  | handlerConfirm worker eventId now =>
      rw [StorageSystem.step, StorageSystem.handlerConfirm]
      split
      · next id hphase =>
          split
          · exact h
          · next hfree =>
              apply Accounted.markDeleted h
              intro r hr hid hbytes
              rw [Recoverable, hphase] at he
              rcases he with hlocked | hstored | hrun
              · exact absurd hlocked hfree
              · exact absurd ⟨r, hr, hid, hbytes⟩ hstored
              · exact hrun
      · exact h
  | outbox e => exact h.outboxStep maxAttempts e

/-- Only these three moves lose track of bytes. -/
theorem KeepsAccount.step_iff (h : s.KeepsAccount) {env : StorageEnv}
    {maxAttempts : Nat} {e : StorageStep} :
    (s.step env maxAttempts e).KeepsAccount ↔ s.Recoverable e := by
  refine ⟨?_, h.step⟩
  intro h'
  by_contra hlost
  cases e with
  | land id =>
      rw [Recoverable, not_or, not_or, not_not] at hlost
      obtain ⟨hlanding, hrun, r, hr, hid, hstatus⟩ := hlost
      cases hl : s.landing id with
      | none => exact hlanding (hl ▸ rfl)
      | some location =>
          have hstep : s.step env maxAttempts (.land id)
              = { s with
                  provider := Function.update s.provider location true
                  landing := Function.update s.landing id none } := by
            rw [StorageSystem.step, StorageSystem.land, hl]
          rw [hstep] at h'
          obtain ⟨x, hx, hxid, hloc⟩ := h.landing id location hl
          have heq : r = x := Table.eq_of_key_eq hr hx (hid.trans hxid.symm)
          have hbytes :
              Function.update s.provider location true r.location = true := by
            rw [heq, hloc, Function.update_self]
          exact hrun (hid ▸ h'.safe r hr hbytes hstatus)
  | abandon id =>
      rw [Recoverable, not_or, not_not, not_not] at hlost
      obtain ⟨-, r, hr, hid, hbytes, hstatus⟩ := hlost
      have hidle : ((s.step env maxAttempts (.abandon id)).upload id) = .idle := by
        rw [StorageSystem.step, StorageSystem.abandon]
        split
        · exact Function.update_self ..
        · exact Function.update_self ..
        · exact Function.update_self ..
      have hkept : r ∈ (s.step env maxAttempts (.abandon id)).rows.rows
          ∧ (s.step env maxAttempts (.abandon id)).provider r.location = true := by
        rw [StorageSystem.step, StorageSystem.abandon]
        split
        · exact ⟨hr, hbytes⟩
        · exact ⟨hr, hbytes⟩
        · exact ⟨hr, hbytes⟩
      have hrun := h'.safe r hkept.1 hkept.2 hstatus
      rw [hid, hidle] at hrun
      exact hrun
  | handlerConfirm worker eventId now =>
      rw [Recoverable] at hlost
      cases hphase : s.handler worker eventId with
      | confirming id =>
          rw [hphase, Confirmable, not_or, not_or, not_not] at hlost
          obtain ⟨hfree, ⟨r, hr, hid, hbytes⟩, hrun⟩ := hlost
          have hstep : s.step env maxAttempts (.handlerConfirm worker eventId now)
              = { s.setHandler worker eventId .finished with
                  rows := s.rows.markDeleted id now } := by
            rw [StorageSystem.step, StorageSystem.handlerConfirm, hphase]
            exact if_neg hfree
          rw [hstep] at h'
          by_cases hstatus : r.status = .deleted
          · exact hrun (hid ▸ h.safe r hr hbytes hstatus)
          · have hconfirmed : r.confirm now ∈ (s.rows.markDeleted id now).rows :=
              List.mem_map.mpr ⟨r, hr, if_pos ⟨hid, hstatus⟩⟩
            exact hrun (hid ▸ h'.safe (r.confirm now) hconfirmed hbytes rfl)
      | selecting => exact hlost (hphase ▸ trivial)
      | deleting object => exact hlost (hphase ▸ trivial)
      | finished => exact hlost (hphase ▸ trivial)
  | _ => exact hlost trivial

/-- At the start there are no bytes. -/
theorem keepsAccount_start : start.KeepsAccount := by
  have hrows : start.rows.rows = [] := rfl
  constructor
  · rw [hrows]
    simp
  · intro id location hlanding
    cases hlanding
  · intro location hstored
    cases hstored
  · rw [hrows]
    simp
  · rw [hrows]
    simp

-- ================================================================== runs

/-- No upload of an object is in flight, neither the call nor its
write. -/
def Quiet (s : StorageSystem) : Prop :=
  ∀ r ∈ s.rows.rows, ¬ (s.upload r.id).Running ∧ (s.landing r.id).isNone

instance (s : StorageSystem) : Decidable s.Quiet :=
  inferInstanceAs (Decidable (∀ r ∈ s.rows.rows, ¬ _ ∧ _))

/-- Every `storage.delete` event has been processed. -/
def Drained (s : StorageSystem) : Prop :=
  ∀ e ∈ s.outbox.table.rows, e.status = .processed

instance (s : StorageSystem) : Decidable s.Drained :=
  inferInstanceAs (Decidable (∀ e ∈ s.outbox.table.rows, _))

/-- A `deleted` object has no bytes at the provider. -/
def NoOrphans (s : StorageSystem) : Prop :=
  ∀ r ∈ s.rows.rows, r.status = .deleted → s.provider r.location = false

instance (s : StorageSystem) : Decidable s.NoOrphans :=
  inferInstanceAs (Decidable (∀ r ∈ s.rows.rows, _ → _))

/-- All bytes are charged to a row, or a deletion of them is not yet
processed. -/
def BytesCovered (s : StorageSystem) : Prop :=
  ∀ location, s.provider location = true →
    ∃ r ∈ s.rows.rows, r.location = location
      ∧ (r.status.Charged ∨ ∃ e ∈ s.outbox.table.rows,
          e.event.storageObjectId = r.id ∧ e.status ≠ .processed)

/-- When all is quiet a deleted object has no bytes. -/
theorem KeepsAccount.noOrphans (h : s.KeepsAccount) (hq : s.Quiet) :
    s.NoOrphans := by
  intro r hr hstatus
  by_contra hbytes
  rw [Bool.not_eq_false] at hbytes
  exact (hq r hr).1 (h.safe r hr hbytes hstatus)

/-- And all bytes in storage are charged to a row. -/
theorem KeepsAccount.bytesCovered (h : s.KeepsAccount) (hq : s.Quiet) :
    s.BytesCovered := by
  intro location hbytes
  obtain ⟨r, hr, hloc⟩ := h.stored location hbytes
  refine ⟨r, hr, hloc, Or.inl ?_⟩
  rw [← hloc] at hbytes
  have hlive := h.live r hr
  have hsafe := h.safe r hr hbytes
  unfold StorageObjectStatus.Charged
  cases hstatus : r.status with
  | uploading => exact Or.inl rfl
  | temporary => exact Or.inr (Or.inl rfl)
  | attached => exact Or.inr (Or.inr (Or.inl rfl))
  | deleting => exact Or.inr (Or.inr (Or.inr rfl))
  | deleted => exact absurd (hsafe hstatus) (hq r hr).1
  | quarantined => exact absurd hstatus hlive

/-- What the storage promises of its states. -/
def Accountable (s : StorageSystem) : Prop :=
  (s.Quiet → s.Drained → s.NoOrphans) ∧ (s.Quiet → s.BytesCovered)

variable {env : StorageEnv} {maxAttempts : Nat} {schedule : List StorageStep}

/-- In a run whose steps are recoverable no bytes are orphaned: at rest,
whatever storage has is the object of a row that is not deleted, and a
deleted row has none. The condition is about the row before the step,
`KeepsAccount` what one step keeps. -/
theorem recoverable_accountable
    (h : Along (fun s e => s.step env maxAttempts e) Recoverable start schedule) :
    (start.play env maxAttempts schedule).Accountable := by
  have haccount : (start.play env maxAttempts schedule).KeepsAccount :=
    run_keeps_along (fun _ _ he hs => hs.step he) h keepsAccount_start
  exact ⟨fun hq _ => haccount.noOrphans hq, haccount.bytesCovered⟩

-- =========================================================== two late writes

/-- Quotas that suffice. -/
def mediaEnv : StorageEnv := ⟨1000, 1000, 10⟩

/-- The object of the runs. -/
def mediaId : Uuid := ⟨1⟩

/-- The ids of the two deletion events. -/
def cleanupEvent : Uuid := ⟨100⟩

/-- The event of its recovery. -/
def recoveryEvent : Uuid := ⟨101⟩

/-- A claim after its time. -/
def mediaClaim (workerId : String) : ClaimInput :=
  ⟨workerId, 10, 60000, hourMs + 1, []⟩

/-- A write that is slow: the cleanup condemns its row, and a handler is
about to delete nothing. -/
def slowWrite : List StorageStep :=
  [.precheck mediaId ⟨7⟩ .avatar 10 0,
    .begin mediaId ⟨10, "image/webp", 1, 1⟩ 0,
    .lockQuota mediaId, .checkQuota mediaId, .reserve mediaId .s3 "k",
    .cleanup mediaId 1 false cleanupEvent (hourMs + 1),
    .outbox (.claim (mediaClaim "a") none), .handlerSelect "a" cleanupEvent,
    .handlerDelete "a" cleanupEvent]

/-- The write lands, and its upload reopens the deletion. -/
def lateRecovery : List StorageStep :=
  [.land mediaId, .writeReturns mediaId, .finalize mediaId none,
    .recover mediaId recoveryEvent (hourMs + 1)]

/-- The first handler ends. -/
def confirmed : List StorageStep :=
  [.handlerConfirm "a" cleanupEvent (hourMs + 1),
    .outbox (.handlerReturns "a" cleanupEvent),
    .outbox (.markProcessed "a" cleanupEvent (hourMs + 1) none)]

/-- The handler of the recovery event. -/
def recovered : List StorageStep :=
  [.outbox (.claim (mediaClaim "b") none), .handlerSelect "b" recoveryEvent,
    .handlerDelete "b" recoveryEvent,
    .handlerConfirm "b" recoveryEvent (hourMs + 1),
    .outbox (.handlerReturns "b" recoveryEvent),
    .outbox (.markProcessed "b" recoveryEvent (hourMs + 1) none)]

/-- The write lands after the confirmation. -/
theorem lateWrite_accountable :
    (start.play mediaEnv 5
      (slowWrite ++ confirmed ++ lateRecovery ++ recovered)).Accountable :=
  recoverable_accountable (by decide +kernel)

/-- The write lands, and is recovered, before the confirmation. -/
theorem coveredUp_orphaned :
    ¬ (start.play mediaEnv 5
      (slowWrite ++ lateRecovery ++ confirmed ++ recovered)).Accountable := by
  intro h
  exact absurd (h.1 (by decide) (by decide)) (by decide)

end StorageSystem

end Skrynia
