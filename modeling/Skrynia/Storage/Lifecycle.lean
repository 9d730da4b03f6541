/-
The life of a stored object.

`Moves` lists what a step may do to a row, `step_rows` says that every
step either moves each row so or inserts the row of a reservation. The
lifecycle is read off the list: nothing leads back from `deleting` or
`deleted`, and only a `temporary` row is attached.

# Attachments

An attachment is committed some time after its checks were made. What the
checks found is kept by the row's lock (`RowDraft.Of`): a row with a
draft is moved by nobody but the draft's own transaction.

Only the recovery of an upload leaves `deleted`, for `deleting`, and only
while that upload runs.
-/
import Skrynia.Storage.System

namespace Skrynia

open Relational Stepping

-- ================================================================ moves

/-- What a step may make of a row. -/
inductive StorageObject.Moves (r : StorageObject) : StorageObject → Prop
  | stays : r.Moves r
  | finalizes (h : r.status = .uploading) : r.Moves r.finalized
  | attaches (now : Timestamp) (h : r.status = .temporary) :
      r.Moves (r.attach now)
  | condemns (h : r.status ≠ .deleted) : r.Moves r.condemn
  | attachesCondemned (now : Timestamp) (h : r.status = .temporary) :
      r.Moves (r.attach now).condemn
  | confirms (now : Timestamp) (h : r.status ≠ .deleted) :
      r.Moves (r.confirm now)
  | reopens (h : r.status = .deleted) : r.Moves r.condemn

namespace StorageObject.Moves

variable {r r' : StorageObject}

/-- A row stays the row of its object. -/
theorem same (h : r.Moves r') : r.SameObject r' := by
  cases h with
  | stays => exact .refl r
  | finalizes => exact r.sameObject_finalized
  | attaches now => exact r.sameObject_attach now
  | condemns => exact r.sameObject_condemn
  | attachesCondemned now =>
      exact (r.sameObject_attach now).trans (r.attach now).sameObject_condemn
  | confirms now => exact r.sameObject_confirm now
  | reopens => exact r.sameObject_condemn

/-- What is condemned stays so. -/
theorem condemned (h : r.Moves r') (hr : r.status.Condemned) :
    r'.status.Condemned := by
  cases h with
  | stays => exact hr
  | finalizes h => exact absurd (h ▸ hr) (by decide)
  | attaches now h => exact absurd (h ▸ hr) (by decide)
  | condemns => exact Or.inl rfl
  | attachesCondemned => exact Or.inl rfl
  | confirms => exact Or.inr rfl
  | reopens => exact Or.inl rfl

/-- An attachment is not undone but by deletion. -/
theorem past (h : r.Moves r')
    (hr : r.status = .attached ∨ r.status.Condemned) :
    r'.status = .attached ∨ r'.status.Condemned := by
  rcases hr with hr | hr
  · cases h with
    | stays => exact Or.inl hr
    | finalizes h => cases h.symm.trans hr
    | attaches now h => exact Or.inl rfl
    | condemns => exact Or.inr (Or.inl rfl)
    | attachesCondemned => exact Or.inr (Or.inl rfl)
    | confirms => exact Or.inr (Or.inr rfl)
    | reopens => exact Or.inr (Or.inl rfl)
  · exact Or.inr (h.condemned hr)

/-- Only a temporary row is attached. -/
theorem attached (h : r.Moves r') (hr' : r'.status = .attached) :
    r.status = .attached ∨ r.status = .temporary := by
  cases h with
  | stays => exact Or.inl hr'
  | finalizes => cases hr'
  | attaches now h => exact Or.inr h
  | condemns => cases hr'
  | attachesCondemned => cases hr'
  | confirms => cases hr'
  | reopens => cases hr'

/-- No row is put into quarantine. -/
theorem live (h : r.Moves r') (hr : r.status ≠ .quarantined) :
    r'.status ≠ .quarantined := by
  cases h with
  | stays => exact hr
  | finalizes => exact nofun
  | attaches => exact nofun
  | condemns => exact nofun
  | attachesCondemned => exact nofun
  | confirms => exact nofun
  | reopens => exact nofun

/-- Only a reopened row is charged anew. -/
theorem charged (hr : r.status ≠ .quarantined)
    (hopen : r.status = .deleted → r'.status = .deleted)
    (hr' : r'.status.Charged) : r.status.Charged := by
  have hcharged : r.status ≠ .deleted → r.status.Charged := by
    intro hne
    unfold StorageObjectStatus.Charged
    cases hstatus : r.status with
    | deleted => exact absurd hstatus hne
    | quarantined => exact absurd hstatus hr
    | _ => decide
  by_cases hdeleted : r.status = .deleted
  · rw [hopen hdeleted] at hr'
    exact absurd hr' (by decide)
  · exact hcharged hdeleted

end StorageObject.Moves

-- =============================================================== drafts

/-- What the checks of a draft's transaction found in the row. -/
structure RowDraft.Of (d : RowDraft) (r : StorageObject) : Prop where
  attach : ∀ a, d.attach = some a → checkAttachment (some r) a.1 = .ok r
    ∧ a.1.uploadId = r.id
  deletes : d.deletes = true → r.status ≠ .deleted

/-- What a draft will write is one of these moves. -/
theorem RowDraft.Of.moves {d : RowDraft} {r : StorageObject} (h : d.Of r) :
    r.Moves (d.apply r) := by
  cases d with
  | mk tx attach deletes =>
      cases attach with
      | none =>
          cases deletes with
          | false => exact .stays
          | true => exact .condemns (h.deletes rfl)
      | some a =>
          have htemporary : r.status = .temporary :=
            (checkAttachment_eq_ok.mp (h.attach a rfl).1).2.2.1
          cases deletes with
          | false => exact .attaches a.2 htemporary
          | true => exact .attachesCondemned a.2 htemporary

/-- A row that its transaction still sees as temporary has no write in
the draft. -/
theorem RowDraft.apply_temporary {d : RowDraft} {r : StorageObject}
    (h : (d.apply r).status = .temporary) : d.apply r = r := by
  cases d with
  | mk tx attach deletes =>
      cases deletes with
      | true => cases h
      | false =>
          cases attach with
          | none => rfl
          | some a => cases h

/-- Nor has one that it sees as deleted. -/
theorem RowDraft.Of.apply_deleted {d : RowDraft} {r : StorageObject}
    (h : d.Of r) (hr : r.status = .deleted) :
    (d.apply r).status = .deleted := by
  cases d with
  | mk tx attach deletes =>
      cases deletes with
      | true => exact absurd hr (h.deletes rfl)
      | false =>
          cases attach with
          | none => exact hr
          | some a =>
              have htemporary := (checkAttachment_eq_ok.mp (h.attach a rfl).1).2.2.1
              exact absurd (hr.symm.trans htemporary) nofun

/-- A row becomes attached by the draft's attachment. -/
theorem RowDraft.apply_attached (d : RowDraft) {r : StorageObject}
    (h : (d.apply r).status = .attached) :
    r.status = .attached ∨ ∃ a, d.attach = some a := by
  cases d with
  | mk tx attach deletes =>
      cases attach with
      | none =>
          cases deletes with
          | true => cases h
          | false => exact Or.inl h
      | some a => exact Or.inr ⟨a, rfl⟩

namespace StorageSystem

variable {s : StorageSystem}

/-- Every draft is of a row. -/
def Drafted (s : StorageSystem) : Prop :=
  ∀ id d, s.draft id = some d → ∃ r ∈ s.rows.rows, r.id = id ∧ d.Of r

/-- A transaction has the drafts that are its own. -/
theorem draftOf_eq_some {tx : Nat} {id : Uuid} {d : RowDraft} :
    s.draftOf tx id = some d ↔ s.draft id = some d ∧ d.tx = tx := by
  unfold draftOf
  rw [Option.filter_eq_some_iff, decide_eq_true_iff]

/-- A draft is of the row as it is. -/
theorem Drafted.of (h : s.Drafted) {r : StorageObject}
    (hr : r ∈ s.rows.rows) {d : RowDraft} (hd : s.draft r.id = some d) :
    d.Of r := by
  obtain ⟨x, hx, hid, hof⟩ := h r.id d hd
  rw [← Table.eq_of_key_eq hx hr hid]
  exact hof

/-- What a transaction sees of a row is one of its moves. -/
theorem Drafted.moves_draftedRow (h : s.Drafted) (tx : Nat)
    {r : StorageObject} (hr : r ∈ s.rows.rows) :
    r.Moves (s.draftedRow tx r) := by
  unfold draftedRow
  split
  · next d hd => exact (h.of hr (draftOf_eq_some.mp hd).1).moves
  · exact .stays

-- ================================================================= steps

/-- What a step that reserves nothing does to the rows: each moves, a row
that is locked after the step has stayed, only the recovery of a running
upload reopens one, and an attachment is recorded. -/
structure Rewrites (s s' : StorageSystem)
    (f : StorageObject → StorageObject) : Prop where
  rows : s'.rows.rows = s.rows.rows.map f
  moves : ∀ r ∈ s.rows.rows, r.Moves (f r)
  stays : ∀ r ∈ s.rows.rows, s'.Locked r.id → f r = r
  reopens : ∀ r ∈ s.rows.rows, r.status = .deleted →
    (f r).status = .deleted ∨ (s.upload r.id).Running
  attaches : ∀ r ∈ s.rows.rows, (f r).status = .attached →
    r.status = .attached ∨ ∃ a ∈ s'.attachments, a.uploadId = r.id

/-- A step that leaves the rows alone. -/
theorem rewrites_id {s' : StorageSystem} (h : s'.rows = s.rows) :
    Rewrites s s' fun r => r where
  rows := by rw [h, List.map_id']
  moves := fun _ _ => .stays
  stays := fun _ _ _ => rfl
  reopens := fun _ _ hstatus => Or.inl hstatus
  attaches := fun _ _ hstatus => Or.inl hstatus

/-- An UPDATE of one row that nobody has locked. -/
theorem rewrites_updateRow {s' : StorageSystem} {id : Uuid}
    {p : StorageObject → Prop} [DecidablePred p]
    {f : StorageObject → StorageObject}
    (hrows : s'.rows.rows
      = s.rows.rows.map fun r => if r.id = id ∧ p r then f r else r)
    (hfree : ¬ s'.Locked id)
    (hmoves : ∀ r ∈ s.rows.rows, r.id = id → p r → r.Moves (f r))
    (hopen : ∀ r ∈ s.rows.rows, r.id = id → p r → r.status = .deleted →
      (s.upload id).Running)
    (hattach : ∀ r, (f r).status ≠ .attached) :
    Rewrites s s' fun r => if r.id = id ∧ p r then f r else r where
  rows := hrows
  moves := by
    intro r hr
    split
    · next h => exact hmoves r hr h.1 h.2
    · exact .stays
  stays := by
    intro r _ hlocked
    rw [if_neg]
    intro h
    exact hfree (h.1 ▸ hlocked)
  reopens := by
    intro r hr hstatus
    by_cases h : r.id = id ∧ p r
    · exact Or.inr (h.1 ▸ hopen r hr h.1 h.2 hstatus)
    · rw [if_neg h]
      exact Or.inl hstatus
  attaches := by
    intro r _
    split
    · exact fun hstatus => absurd hstatus (hattach r)
    · exact Or.inl

/-- The insert of a checked reservation. -/
def Reserves (s s' : StorageSystem) : Prop :=
  ∃ id q location rows, s.upload id = .checked q
    ∧ s.rows.reserve?
        (.reserved id q.ownerId q.purpose location q.image q.began) = some rows
    ∧ s' = { s.releaseQuota id q .writing with
        rows := rows
        landing := Function.update s.landing id (some location) }

/-- The UPDATE of a deletion asked for. -/
theorem rewrites_enqueueStorageDeletion {id eventId : Uuid}
    {reopenDeleted : Bool} {intent : DeletionIntent} {now : Timestamp}
    (hfree : ¬ s.Locked id)
    (hopen : reopenDeleted = true → (s.upload id).Running) :
    ∃ f, Rewrites s
      (s.enqueueStorageDeletion id reopenDeleted intent eventId now) f := by
  unfold enqueueStorageDeletion
  split
  · refine ⟨_, rewrites_updateRow rfl hfree ?_ ?_ nofun⟩
    · intro r _ _ _
      by_cases hdeleted : r.status = .deleted
      · exact .reopens hdeleted
      · exact .condemns hdeleted
    · intro r _ _ hp hdeleted
      rcases hp with hp | hp
      · exact absurd hdeleted hp
      · exact hopen hp
  · exact ⟨_, rewrites_id rfl⟩

/-- The same rows and uploads, and no new lock. -/
theorem Rewrites.setUpload {s' : StorageSystem}
    {f : StorageObject → StorageObject} (h : Rewrites s s' f) (id : Uuid)
    (p : UploadPhase) : Rewrites s (s'.setUpload id p) f :=
  ⟨h.rows, h.moves, h.stays, h.reopens, h.attaches⟩

/-- A transaction's drafts become the rows. -/
theorem rewrites_commit (h : s.Drafted) (tx : Nat) (eventId : Uuid → Uuid)
    (now : Timestamp) :
    Rewrites s (s.commit tx eventId now) (s.draftedRow tx) := by
  refine ⟨?_, ?_, ?_, ?_, ?_⟩
  · exact List.map_congr_left fun r _ => if_pos trivial
  · exact fun r hr => h.moves_draftedRow tx hr
  · intro r _ hlocked
    -- what is still locked was drafted by another transaction
    obtain ⟨d, hd⟩ := Option.isSome_iff_exists.mp hlocked
    obtain ⟨hd, htx⟩ := Option.filter_eq_some_iff.mp hd
    have hnone : s.draftOf tx r.id = none := by
      rw [draftOf, hd, Option.filter_some_neg]
      simpa using htx
    rw [draftedRow, hnone]
  · intro r hr hdeleted
    refine Or.inl ?_
    unfold draftedRow
    split
    · next d hd =>
        exact (h.of hr (draftOf_eq_some.mp hd).1).apply_deleted hdeleted
    · exact hdeleted
  · intro r hr hattached
    unfold draftedRow at hattached
    split at hattached
    · next d hd =>
        rcases d.apply_attached hattached with hsame | ⟨a, ha⟩
        · exact Or.inl hsame
        · obtain ⟨-, hid⟩ := (h.of hr (draftOf_eq_some.mp hd).1).attach a ha
          refine Or.inr ⟨a.1, List.mem_append_right _ ?_, hid⟩
          refine List.mem_filterMap.mpr ⟨r, hr, ?_⟩
          rw [hd, Option.bind_some, ha]
          rfl
    · exact Or.inl hattached

/-- A step moves every row so, or reserves a new one. One case for each kind
of step, and in each the rows are updated by one statement. -/
theorem step_rows (h : s.Drafted) (env : StorageEnv) (maxAttempts : Nat)
    (e : StorageStep) :
    (∃ f, Rewrites s (s.step env maxAttempts e) f)
      ∨ Reserves s (s.step env maxAttempts e) := by
  cases e with
  | precheck id ownerId purpose fileBytes now =>
      rw [step, precheck]
      split
      · exact Or.inl ⟨_, rewrites_id rfl⟩
      · exact Or.inl ⟨_, rewrites_id rfl⟩
  | «begin» id image now =>
      rw [step, StorageSystem.begin]
      split
      · exact Or.inl ⟨_, rewrites_id rfl⟩
      · exact Or.inl ⟨_, rewrites_id rfl⟩
  | lockQuota id =>
      rw [step, lockQuota]
      split
      · split
        · exact Or.inl ⟨_, rewrites_id rfl⟩
        · exact Or.inl ⟨_, rewrites_id rfl⟩
      · exact Or.inl ⟨_, rewrites_id rfl⟩
  | checkQuota id =>
      rw [step, checkQuota]
      split
      · split
        · exact Or.inl ⟨_, rewrites_id rfl⟩
        · exact Or.inl ⟨_, rewrites_id rfl⟩
      · exact Or.inl ⟨_, rewrites_id rfl⟩
  | reserve id driver nanoid =>
      rw [step, reserve]
      split
      · next q hphase =>
          dsimp only
          split
          · next rows hrows =>
              exact Or.inr ⟨id, q, _, rows, hphase, hrows, rfl⟩
          · exact Or.inl ⟨_, rewrites_id rfl⟩
      · exact Or.inl ⟨_, rewrites_id rfl⟩
  | land id =>
      rw [step, land]
      split
      · exact Or.inl ⟨_, rewrites_id rfl⟩
      · exact Or.inl ⟨_, rewrites_id rfl⟩
  | dropWrite id =>
      rw [step, dropWrite]
      split
      · exact Or.inl ⟨_, rewrites_id rfl⟩
      · exact Or.inl ⟨_, rewrites_id rfl⟩
  | writeReturns id =>
      rw [step, writeReturns]
      split
      · exact Or.inl ⟨_, rewrites_id rfl⟩
      · exact Or.inl ⟨_, rewrites_id rfl⟩
  | writeFails id =>
      rw [step, writeFails]
      split
      · exact Or.inl ⟨_, rewrites_id rfl⟩
      · exact Or.inl ⟨_, rewrites_id rfl⟩
  | finalize id fault =>
      rw [step, finalize]
      split
      · split
        · exact Or.inl ⟨_, rewrites_id rfl⟩
        · next hfree =>
            split
            · exact Or.inl ⟨_, rewrites_id rfl⟩
            · refine Or.inl ⟨_, rewrites_updateRow rfl hfree ?_ ?_
                fun _ h => by cases h⟩
              · exact fun r _ _ hp => .finalizes hp
              · intro r _ _ hp hdeleted
                cases hp.symm.trans hdeleted
      · exact Or.inl ⟨_, rewrites_id rfl⟩
  | recover id eventId now =>
      rw [step, recover]
      split
      · next hphase =>
          split
          · exact Or.inl ⟨_, rewrites_id rfl⟩
          · next hfree =>
              obtain ⟨f, hf⟩ := s.rewrites_enqueueStorageDeletion hfree
                (fun _ => hphase ▸ trivial)
              exact Or.inl ⟨f, hf.setUpload id .idle⟩
      · exact Or.inl ⟨_, rewrites_id rfl⟩
  | abandon id =>
      rw [step, abandon]
      split
      · exact Or.inl ⟨_, rewrites_id rfl⟩
      · exact Or.inl ⟨_, rewrites_id rfl⟩
      · exact Or.inl ⟨_, rewrites_id rfl⟩
  | attach tx input now =>
      rw [step, StorageSystem.attach]
      split
      · exact Or.inl ⟨_, rewrites_id rfl⟩
      · split
        · exact Or.inl ⟨_, rewrites_id rfl⟩
        · exact Or.inl ⟨_, rewrites_id rfl⟩
  | enqueueDeletion tx id =>
      rw [step, enqueueDeletion]
      split
      · exact Or.inl ⟨_, rewrites_id rfl⟩
      · split
        · split
          · exact Or.inl ⟨_, rewrites_id rfl⟩
          · exact Or.inl ⟨_, rewrites_id rfl⟩
        · exact Or.inl ⟨_, rewrites_id rfl⟩
  | commit tx eventId now =>
      exact Or.inl ⟨_, rewrites_commit h tx eventId now⟩
  | rollback tx => exact Or.inl ⟨_, rewrites_id rfl⟩
  | cleanup id olderThanHours referenced eventId now =>
      rw [step, cleanup]
      split
      · exact Or.inl ⟨_, rewrites_id rfl⟩
      · next hfree =>
          split
          · split
            · exact Or.inl (s.rewrites_enqueueStorageDeletion hfree
                fun h => by cases h)
            · exact Or.inl ⟨_, rewrites_id rfl⟩
          · exact Or.inl ⟨_, rewrites_id rfl⟩
  | handlerSelect worker eventId =>
      rw [step, handlerSelect]
      split
      · split
        · exact Or.inl ⟨_, rewrites_id rfl⟩
        · exact Or.inl ⟨_, rewrites_id rfl⟩
      · exact Or.inl ⟨_, rewrites_id rfl⟩
  | handlerDelete worker eventId =>
      rw [step, handlerDelete]
      split
      · exact Or.inl ⟨_, rewrites_id rfl⟩
      · exact Or.inl ⟨_, rewrites_id rfl⟩
  | handlerConfirm worker eventId now =>
      rw [step, handlerConfirm]
      split
      · split
        · exact Or.inl ⟨_, rewrites_id rfl⟩
        · next hfree =>
            refine Or.inl ⟨_, rewrites_updateRow rfl hfree ?_ ?_
              fun _ h => by cases h⟩
            · exact fun r _ _ hp => .confirms now hp
            · exact fun r _ _ hp hdeleted => absurd hdeleted hp
      · exact Or.inl ⟨_, rewrites_id rfl⟩
  | outbox e =>
      cases e with
      | handlerReturns worker eventId =>
          rw [step, outboxStep]
          split
          · exact Or.inl ⟨_, rewrites_id rfl⟩
          · exact Or.inl ⟨_, rewrites_id rfl⟩
      | _ => exact Or.inl ⟨_, rewrites_id rfl⟩

-- =============================================================== callers

/-- The steps of callers' transactions. -/
def ByCaller : StorageStep → Prop
  | .attach _ _ _ => True
  | .enqueueDeletion _ _ => True
  | .commit _ _ _ => True
  | .rollback _ => True
  | _ => False

/-- A deletion that is queued leaves the callers as they are. -/
theorem enqueueStorageDeletion_callers (id : Uuid) (reopenDeleted : Bool)
    (intent : DeletionIntent) (eventId : Uuid) (now : Timestamp) :
    (s.enqueueStorageDeletion id reopenDeleted intent eventId now).draft
        = s.draft
      ∧ (s.enqueueStorageDeletion id reopenDeleted intent eventId
          now).attachments = s.attachments := by
  unfold enqueueStorageDeletion
  split
  · exact ⟨rfl, rfl⟩
  · exact ⟨rfl, rfl⟩

/-- Nobody else drafts or commits an attachment. -/
theorem step_callers {env : StorageEnv} {maxAttempts : Nat} {e : StorageStep}
    (he : ¬ ByCaller e) :
    (s.step env maxAttempts e).draft = s.draft
      ∧ (s.step env maxAttempts e).attachments = s.attachments := by
  cases e with
  | precheck id ownerId purpose fileBytes now =>
      rw [step, precheck]
      split <;> exact ⟨rfl, rfl⟩
  | «begin» id image now =>
      rw [step, StorageSystem.begin]
      split <;> exact ⟨rfl, rfl⟩
  | lockQuota id =>
      rw [step, lockQuota]
      split
      · split <;> exact ⟨rfl, rfl⟩
      · exact ⟨rfl, rfl⟩
  | checkQuota id =>
      rw [step, checkQuota]
      split
      · split <;> exact ⟨rfl, rfl⟩
      · exact ⟨rfl, rfl⟩
  | reserve id driver nanoid =>
      rw [step, reserve]
      split
      · dsimp only
        split <;> exact ⟨rfl, rfl⟩
      · exact ⟨rfl, rfl⟩
  | land id =>
      rw [step, land]
      split <;> exact ⟨rfl, rfl⟩
  | dropWrite id =>
      rw [step, dropWrite]
      split <;> exact ⟨rfl, rfl⟩
  | writeReturns id =>
      rw [step, writeReturns]
      split <;> exact ⟨rfl, rfl⟩
  | writeFails id =>
      rw [step, writeFails]
      split <;> exact ⟨rfl, rfl⟩
  | finalize id fault =>
      rw [step, finalize]
      split
      · split
        · exact ⟨rfl, rfl⟩
        · split <;> exact ⟨rfl, rfl⟩
      · exact ⟨rfl, rfl⟩
  | recover id eventId now =>
      rw [step, recover]
      split
      · split
        · exact ⟨rfl, rfl⟩
        · exact s.enqueueStorageDeletion_callers id true _ eventId now
      · exact ⟨rfl, rfl⟩
  | abandon id =>
      rw [step, abandon]
      split <;> exact ⟨rfl, rfl⟩
  | attach tx input now => exact absurd trivial he
  | enqueueDeletion tx id => exact absurd trivial he
  | commit tx eventId now => exact absurd trivial he
  | rollback tx => exact absurd trivial he
  | cleanup id olderThanHours referenced eventId now =>
      rw [step, cleanup]
      split
      · exact ⟨rfl, rfl⟩
      · split
        · split
          · exact s.enqueueStorageDeletion_callers id false _ eventId now
          · exact ⟨rfl, rfl⟩
        · exact ⟨rfl, rfl⟩
  | handlerSelect worker eventId =>
      rw [step, handlerSelect]
      split
      · split <;> exact ⟨rfl, rfl⟩
      · exact ⟨rfl, rfl⟩
  | handlerDelete worker eventId =>
      rw [step, handlerDelete]
      split <;> exact ⟨rfl, rfl⟩
  | handlerConfirm worker eventId now =>
      rw [step, handlerConfirm]
      split
      · split <;> exact ⟨rfl, rfl⟩
      · exact ⟨rfl, rfl⟩
  | outbox e =>
      cases e with
      | handlerReturns worker eventId =>
          rw [step, outboxStep]
          split <;> exact ⟨rfl, rfl⟩
      | _ => exact ⟨rfl, rfl⟩

/-- The attachments that a step commits. -/
theorem step_attachments (env : StorageEnv) (maxAttempts : Nat)
    (e : StorageStep) :
    (s.step env maxAttempts e).attachments = s.attachments
      ∨ ∃ tx eventId now, e = .commit tx eventId now := by
  by_cases he : ByCaller e
  · cases e with
    | attach tx input now =>
        rw [step, StorageSystem.attach]
        split
        · exact Or.inl rfl
        · split <;> exact Or.inl rfl
    | enqueueDeletion tx id =>
        rw [step, enqueueDeletion]
        split
        · exact Or.inl rfl
        · split
          · split <;> exact Or.inl rfl
          · exact Or.inl rfl
    | commit tx eventId now => exact Or.inr ⟨tx, eventId, now, rfl⟩
    | rollback tx => exact Or.inl rfl
    | _ => exact he.elim
  · exact Or.inl (step_callers he).2

/-- The drafts after a step are of rows before it. -/
theorem Drafted.draft_step (h : s.Drafted) {env : StorageEnv}
    {maxAttempts : Nat} {e : StorageStep} {id : Uuid} {d : RowDraft}
    (hd : (s.step env maxAttempts e).draft id = some d) :
    ∃ r ∈ s.rows.rows, r.id = id ∧ d.Of r := by
  by_cases he : ByCaller e
  swap
  · exact h id d ((step_callers he).1 ▸ hd)
  cases e with
  | attach tx input now =>
      rw [step, StorageSystem.attach] at hd
      split at hd
      · exact h id d hd
      · split at hd
        · next r hchecked =>
            obtain ⟨hid, hnew⟩ | ⟨-, hold⟩ := update_cases hd
            · obtain ⟨hseen, howner, hstatus, hpurpose⟩ :=
                checkAttachment_eq_ok.mp hchecked
              obtain ⟨x, hx, hview⟩ := Option.map_eq_some_iff.mp hseen
              -- the transaction has written nothing to a temporary row
              have heq : r = x := by
                rw [← hview] at hstatus ⊢
                split
                · next d' hd' =>
                    rw [hd'] at hstatus
                    exact RowDraft.apply_temporary hstatus
                · rfl
              obtain ⟨hmem, hkey⟩ := Table.find?_eq_some.mp hx
              rw [← Option.some.inj hnew]
              refine ⟨x, hmem, hkey.trans hid.symm, ?_, nofun⟩
              intro a ha
              rw [← Option.some.inj ha]
              refine ⟨checkAttachment_eq_ok.mpr ?_, hkey.symm⟩
              rw [← heq]
              exact ⟨rfl, howner, hstatus, hpurpose⟩
            · exact h id d hold
        · exact h id d (Option.filter_eq_some_iff.mp hd).1
  | enqueueDeletion tx id' =>
      rw [step, enqueueDeletion] at hd
      split at hd
      · exact h id d hd
      · split at hd
        · next r hseen =>
            split at hd
            · next hmarkable =>
                obtain ⟨hid, hnew⟩ | ⟨-, hold⟩ := update_cases hd
                · obtain ⟨x, hx, hview⟩ := Option.map_eq_some_iff.mp hseen
                  obtain ⟨hmem, hkey⟩ := Table.find?_eq_some.mp hx
                  rw [← Option.some.inj hnew]
                  refine ⟨x, hmem, hkey.trans hid.symm, ?_, ?_⟩
                  · intro a ha
                    obtain ⟨d', hd', ha⟩ := Option.bind_eq_some_iff.mp ha
                    rw [← hkey] at hd'
                    exact (h.of hmem (draftOf_eq_some.mp hd').1).attach a ha
                  · intro _ hdeleted
                    rcases hmarkable with hne | hreopen
                    · rw [← hview] at hne
                      split at hne
                      · next d' hd' =>
                          rw [← hkey] at hd'
                          exact hne ((h.of hmem
                            (draftOf_eq_some.mp hd').1).apply_deleted hdeleted)
                      · exact hne hdeleted
                    · cases hreopen
                · exact h id d hold
            · exact h id d hd
        · exact h id d hd
  | commit tx eventId now => exact h id d (Option.filter_eq_some_iff.mp hd).1
  | rollback tx => exact h id d (Option.filter_eq_some_iff.mp hd).1
  | _ => exact he.elim

/-- Drafts stay those of the rows as they are. -/
theorem Drafted.step (h : s.Drafted) {env : StorageEnv} {maxAttempts : Nat}
    {e : StorageStep} : (s.step env maxAttempts e).Drafted := by
  intro id d hd
  obtain ⟨r, hr, hid, hof⟩ := h.draft_step hd
  rcases step_rows h env maxAttempts e with ⟨f, hf⟩ | hreserve
  · have hstays : f r = r :=
      hf.stays r hr (Option.isSome_iff_exists.mpr ⟨d, hid ▸ hd⟩)
    refine ⟨r, ?_, hid, hof⟩
    rw [hf.rows, ← hstays]
    exact List.mem_map_of_mem hr
  · obtain ⟨id', q, location, rows, -, hrows, heq⟩ := hreserve
    refine ⟨r, ?_, hid, hof⟩
    rw [heq]
    exact (StorageObjects.mem_reserve? hrows).mpr (Or.inl hr)

-- ============================================================ the record

/-- Each committed attachment is the only one of its object, by the owner
and for the purpose of the row; and no row is attached without one. -/
structure Recorded (s : StorageSystem) : Prop where
  once : (s.attachments.map AttachInput.uploadId).Nodup
  found : ∀ a ∈ s.attachments, ∃ r ∈ s.rows.rows, r.id = a.uploadId
    ∧ r.ownerId = a.ownerId ∧ r.purpose = a.purpose
    ∧ (r.status = .attached ∨ r.status.Condemned)
  every : ∀ r ∈ s.rows.rows, r.status = .attached →
    ∃ a ∈ s.attachments, a.uploadId = r.id

/-- What a commit records was found under the lock. -/
theorem Drafted.mem_attachedBy (h : s.Drafted) {tx : Nat} {a : AttachInput}
    (ha : a ∈ s.attachedBy tx) :
    ∃ r ∈ s.rows.rows, r.id = a.uploadId ∧ r.ownerId = a.ownerId
      ∧ r.purpose = a.purpose ∧ r.status = .temporary
      ∧ ((s.draftedRow tx r).status = .attached
        ∨ (s.draftedRow tx r).status.Condemned) := by
  obtain ⟨r, hr, hmap⟩ := List.mem_filterMap.mp ha
  obtain ⟨b, hbind, rfl⟩ := Option.map_eq_some_iff.mp hmap
  obtain ⟨d, hd, hb⟩ := Option.bind_eq_some_iff.mp hbind
  obtain ⟨hchecked, hid⟩ := (h.of hr (draftOf_eq_some.mp hd).1).attach b hb
  obtain ⟨-, howner, hstatus, hpurpose⟩ := checkAttachment_eq_ok.mp hchecked
  refine ⟨r, hr, hid.symm, howner, hpurpose, hstatus, ?_⟩
  unfold draftedRow
  rw [hd]
  cases d with
  | mk tx' attach deletes =>
      cases hb
      cases deletes with
      | false => exact Or.inl rfl
      | true => exact Or.inr (Or.inl rfl)

/-- A commit attaches each object at most once. -/
theorem Drafted.nodup_attachedBy (h : s.Drafted) (tx : Nat) :
    ((s.attachedBy tx).map AttachInput.uploadId).Nodup := by
  have hsub : ∀ l : List StorageObject, (∀ r ∈ l, r ∈ s.rows.rows) →
      ((l.filterMap fun r => ((s.draftOf tx r.id).bind RowDraft.attach).map
        Prod.fst).map AttachInput.uploadId).Sublist
        (l.map StorageObject.id) := by
    intro l hl
    induction l with
    | nil => exact List.Sublist.slnil
    | cons r l ih =>
        have ih := ih fun x hx => hl x (List.mem_cons_of_mem _ hx)
        cases hbind : (s.draftOf tx r.id).bind RowDraft.attach with
        | none =>
            rw [List.filterMap_cons_none (by rw [hbind]; rfl)]
            exact ih.cons _
        | some b =>
            obtain ⟨d, hd, hb⟩ := Option.bind_eq_some_iff.mp hbind
            have hof := h.of (hl r List.mem_cons_self) (draftOf_eq_some.mp hd).1
            rw [List.filterMap_cons_some (by rw [hbind]; rfl), List.map_cons,
              List.map_cons, (hof.attach b hb).2]
            exact ih.cons_cons _
  exact s.rows.unique.sublist (hsub _ fun _ hr => hr)

/-- A commit records the attachments that it makes. -/
theorem Recorded.commit (h : s.Recorded) (hd : s.Drafted) (tx : Nat)
    (eventId : Uuid → Uuid) (now : Timestamp) :
    (s.commit tx eventId now).Recorded := by
  have hf := rewrites_commit hd tx eventId now
  constructor
  · show ((s.attachments ++ s.attachedBy tx).map AttachInput.uploadId).Nodup
    rw [List.map_append]
    refine h.once.append (hd.nodup_attachedBy tx) ?_
    intro id hold hnew
    obtain ⟨a, ha, rfl⟩ := List.mem_map.mp hold
    obtain ⟨b, hb, hab⟩ := List.mem_map.mp hnew
    -- the row was past `temporary` when it was attached before
    obtain ⟨r, hr, hid, -, -, hpast⟩ := h.found a ha
    obtain ⟨r', hr', hid', -, -, htemporary, -⟩ := hd.mem_attachedBy hb
    have heq : r = r' := Table.eq_of_key_eq hr hr' (hid.trans (hab.symm.trans hid'.symm))
    rw [heq, htemporary] at hpast
    exact absurd hpast (by decide)
  · intro a ha
    rcases List.mem_append.mp ha with ha | ha
    · obtain ⟨r, hr, hid, howner, hpurpose, hpast⟩ := h.found a ha
      have hmoves := hf.moves r hr
      refine ⟨_, ?_, hmoves.same.1.trans hid, hmoves.same.2.1.trans howner,
        hmoves.same.2.2.2.1.trans hpurpose, hmoves.past hpast⟩
      rw [hf.rows]
      exact List.mem_map_of_mem hr
    · obtain ⟨r, hr, hid, howner, hpurpose, -, hpast⟩ := hd.mem_attachedBy ha
      have hmoves := hf.moves r hr
      refine ⟨_, ?_, hmoves.same.1.trans hid, hmoves.same.2.1.trans howner,
        hmoves.same.2.2.2.1.trans hpurpose, hpast⟩
      rw [hf.rows]
      exact List.mem_map_of_mem hr
  · intro r' hr' hattached
    rw [hf.rows] at hr'
    obtain ⟨r, hr, rfl⟩ := List.mem_map.mp hr'
    rw [(hf.moves r hr).same.1]
    rcases hf.attaches r hr hattached with hr | ha
    · obtain ⟨a, ha, hid⟩ := h.every r ‹_› hr
      exact ⟨a, List.mem_append_left _ ha, hid⟩
    · exact ha

/-- A step that commits no attachment. -/
theorem Recorded.rewrite (h : s.Recorded) {s' : StorageSystem}
    {f : StorageObject → StorageObject} (hf : Rewrites s s' f)
    (hsame : s'.attachments = s.attachments) : s'.Recorded := by
  constructor
  · rw [hsame]
    exact h.once
  · intro a ha
    rw [hsame] at ha
    obtain ⟨r, hr, hid, howner, hpurpose, hpast⟩ := h.found a ha
    have hmoves := hf.moves r hr
    refine ⟨f r, ?_, hmoves.same.1.trans hid, hmoves.same.2.1.trans howner,
      hmoves.same.2.2.2.1.trans hpurpose, hmoves.past hpast⟩
    rw [hf.rows]
    exact List.mem_map_of_mem hr
  · intro r' hr' hattached
    rw [hf.rows] at hr'
    obtain ⟨r, hr, rfl⟩ := List.mem_map.mp hr'
    rw [(hf.moves r hr).same.1]
    rcases hf.attaches r hr hattached with hold | ha
    · rw [hsame]
      exact h.every r hr hold
    · exact ha

/-- A reservation attaches nothing. -/
theorem Recorded.reserve (h : s.Recorded) {s' : StorageSystem}
    (hs' : Reserves s s') : s'.Recorded := by
  obtain ⟨id, q, location, rows, -, hrows, rfl⟩ := hs'
  refine ⟨h.once, ?_, ?_⟩
  · intro a ha
    obtain ⟨r, hr, hfound⟩ := h.found a ha
    exact ⟨r, (StorageObjects.mem_reserve? hrows).mpr (Or.inl hr), hfound⟩
  · intro r hr hattached
    rcases (StorageObjects.mem_reserve? hrows).mp hr with hr | rfl
    · exact h.every r hr hattached
    · cases hattached

/-- What every run keeps. -/
structure Legal (s : StorageSystem) : Prop where
  drafted : s.Drafted
  recorded : s.Recorded
  live : ∀ r ∈ s.rows.rows, r.status ≠ .quarantined

/-- At the start there are no rows. -/
theorem legal_start : start.Legal := by
  have hrows : start.rows.rows = [] := rfl
  have hattachments : start.attachments = [] := rfl
  refine ⟨nofun, ⟨?_, ?_, ?_⟩, ?_⟩
  · rw [hattachments]
    exact List.nodup_nil
  · rw [hattachments]
    simp
  · rw [hrows]
    simp
  · rw [hrows]
    simp

variable {env : StorageEnv} {maxAttempts : Nat}

/-- Every step keeps the lifecycle. -/
theorem Legal.step (h : s.Legal) {e : StorageStep} :
    (s.step env maxAttempts e).Legal := by
  refine ⟨h.drafted.step, ?_, ?_⟩
  · rcases s.step_attachments env maxAttempts e with hsame | hcommit
    · rcases step_rows h.drafted env maxAttempts e with ⟨f, hf⟩ | hreserve
      · exact h.recorded.rewrite hf hsame
      · exact h.recorded.reserve hreserve
    · obtain ⟨tx, eventId, now, rfl⟩ := hcommit
      exact h.recorded.commit h.drafted tx eventId now
  · intro r' hr'
    rcases step_rows h.drafted env maxAttempts e with ⟨f, hf⟩ | hreserve
    · rw [hf.rows] at hr'
      obtain ⟨r, hr, rfl⟩ := List.mem_map.mp hr'
      exact (hf.moves r hr).live (h.live r hr)
    · obtain ⟨id, q, location, rows, -, hrows, heq⟩ := hreserve
      rw [heq] at hr'
      rcases (StorageObjects.mem_reserve? hrows).mp hr' with hr | rfl
      · exact h.live r' hr
      · exact nofun

/-- And so does every schedule. -/
theorem legal_play (schedule : List StorageStep) :
    (start.play env maxAttempts schedule).Legal :=
  run_keeps (fun _ _ h => h.step) legal_start schedule

end StorageSystem

end Skrynia
