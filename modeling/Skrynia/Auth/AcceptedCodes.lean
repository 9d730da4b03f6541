/-
What a statement of a two-factor transaction stores when it accepts a
code, and when the histories get it.

# Acceptance

`consumeTwoFactorCode` is the statements of `SecurityPhase.Consumes`.
Whatever they read, the transaction leaves them behind an accepted code
(`SecurityPhase.Passed`) only in the step that appends the code to the
history of the row that it locks (`advance_stores`): the counter that
the code was matched with, or the backup code that it compared to. A
confirmation appends its counter with the secret that it activates
(`advance_confirms`, `advance_activates`).

# Publication

A verification commits `true` only behind an accepted code, and a login
is redeemed only behind that COMMIT (`advance_verifying`), which publishes
the histories as the transaction sees them (`advance_publishes`).
-/
import Skrynia.Auth.SecondFactor

namespace Skrynia

open Relational

-- ================================================================ phases

/-- The statements of `consumeTwoFactorCode`, from the lock on the
authenticator to the guarded UPDATE of a backup code. -/
def SecurityPhase.Consumes : SecurityPhase → Prop
  | .selectMethod _ | .matchCode _ | .selectBackupCodes _
  | .consumeBackupCode _ => True
  | _ => False

/-- Where an accepted code leads: a verification commits its success, a
re-authenticated request goes on with its own statements. -/
def SecurityPhase.Passed : SecurityPhase → Prop
  | .commit accepted => accepted = true
  | .write => True
  | _ => False

/-- Where a verification can be: it has no statements besides those of
`consumeTwoFactorCode`, and a login goes on with its token. -/
def SecurityPhase.Verifies : SecurityPhase → Prop
  | .selectUser | .write | .replaceCodes _ | .deleteMethod => False
  | _ => True

namespace TwoFactorSystem

/-- What `consumeTwoFactorCode` stores in the step from `s` to `s'` that
accepts a code in transaction `n`, in the version that `n` has locked. -/
inductive Stores (crypto : SecondFactorCrypto) (now : Timestamp) (n : Nat)
    (t : SecurityTx) (s s' : TwoFactorSystem) : Prop where
  /-- The counter of the active secret that has the code. -/
  | totp {code secret : String} {counter : Nat}
      (phase : t.phase = .matchCode code)
      (active : ((s.method t.userId).seen n).activeSecret = some secret)
      (matched : matchTotpCounter crypto secret code now = some counter)
      (stored : ((s'.method t.userId).seen n).log
        = ((s.method t.userId).seen n).log ++ [.accepted counter])
  /-- A backup code that was unused until then. -/
  | backup {id : Nat} (phase : t.phase = .consumeBackupCode id)
      (unused : ((s.codes t.userId).seen n).Unused id)
      (stored : ((s'.codes t.userId).seen n).log
        = ((s.codes t.userId).seen n).log ++ [.accepted id])

section Statements

variable {s s' : TwoFactorSystem} {n : Nat} {t t' : SecurityTx}
  {p : SecurityPhase} {crypto : SecondFactorCrypto}
  {verifyPassword : String → String → Bool} {now : Timestamp}
  {hashes : List String}

/-- A transaction is where it has gone. -/
theorem tx_goto (h : (s.goto n t p).tx n = some t') :
    t' = { t with phase := p } := by
  unfold goto setTx at h
  dsimp only at h
  rw [Function.update_self] at h
  exact (Option.some.inj h).symm

/-- One that is rolled back is over. -/
theorem tx_rollback : (s.rollback n t).tx n = none := by
  unfold rollback setTx
  exact Function.update_self _ _ _

/-- A refused code leaves a verification that commits `false`, or no
transaction at all. -/
theorem tx_refuse (h : (s.refuse n t).tx n = some t') :
    t'.phase = .commit false := by
  unfold refuse at h
  split at h
  · rw [tx_goto h]
  · rw [tx_rollback] at h
    cases h

/-- A refused code is not accepted. -/
theorem not_passed_refuse (h : (s.refuse n t).tx n = some t') :
    ¬ t'.phase.Passed := by
  rw [tx_refuse h]
  exact Bool.false_ne_true

/-- Nor is one that is still looked at. -/
theorem not_passed_goto (h : (s.goto n t p).tx n = some t')
    (hp : ¬ p.Passed) : ¬ t'.phase.Passed := by
  rw [tx_goto h]
  exact hp

/-- An acceptance that is passed on leaves the authenticators. -/
@[simp] theorem method_accepted : (s.accepted n t).method = s.method := by
  unfold accepted
  split <;> rfl

/-- And the backup codes. -/
@[simp] theorem codes_accepted : (s.accepted n t).codes = s.codes := by
  unfold accepted
  split <;> rfl

/-- A statement on the authenticator waits, or has its lock. -/
theorem updateMethod_cases (s : TwoFactorSystem) (n : Nat) (t : SecurityTx)
    (f : MethodVersion → MethodVersion)
    (next : TwoFactorSystem → TwoFactorSystem) :
    s.updateMethod n t f next = s
      ∨ ∃ c, (s.method t.userId).acquire n = some c
        ∧ s.updateMethod n t f next
          = next (s.setMethod t.userId (c.edit n f)) := by
  unfold updateMethod
  cases hc : (s.method t.userId).acquire n with
  | none => exact .inl rfl
  | some c => exact .inr ⟨c, rfl, rfl⟩

/-- An update of backup codes waits for the lock, or is made. -/
theorem updateCodes_cases (s : TwoFactorSystem) (n : Nat) (t : SecurityTx)
    (f : CodesVersion → CodesVersion)
    (next : TwoFactorSystem → TwoFactorSystem) :
    s.updateCodes n t f next = s
      ∨ ∃ c, (s.codes t.userId).acquire n = some c
        ∧ s.updateCodes n t f next
          = next (s.setCodes t.userId (c.edit n f)) := by
  unfold updateCodes
  cases hc : (s.codes t.userId).acquire n with
  | none => exact .inl rfl
  | some c => exact .inr ⟨c, rfl, rfl⟩

/-- A change of an authenticator leaves the transactions. -/
theorem tx_setMethod {u : Uuid} {c : Cell MethodVersion} :
    (s.setMethod u c).tx n = s.tx n := rfl

/-- The transaction sees its own UPDATE. -/
theorem seen_setMethod {u : Uuid} {c : Cell MethodVersion}
    {f : MethodVersion → MethodVersion}
    (hc : (s.method u).acquire n = some c) :
    ((s.setMethod u (c.edit n f)).method u).seen n
      = f ((s.method u).seen n) := by
  unfold setMethod
  dsimp only
  rw [Function.update_self, Cell.seen_edit_self (Cell.draft_acquire hc).1,
    Cell.seen_acquire hc n]

/-- A transaction sees what it has written. -/
theorem seen_setCodes {u : Uuid} {c : Cell CodesVersion}
    {f : CodesVersion → CodesVersion}
    (hc : (s.codes u).acquire n = some c) :
    ((s.setCodes u (c.edit n f)).codes u).seen n
      = f ((s.codes u).seen n) := by
  unfold setCodes
  dsimp only
  rw [Function.update_self, Cell.seen_edit_self (Cell.draft_acquire hc).1,
    Cell.seen_acquire hc n]

-- ============================================================ acceptance

/-- A counter that is accepted is stored. -/
theorem matchCode_stores {code : String} (ht : s.tx n = some t)
    (hphase : t.phase = .matchCode code)
    (ht' : (s.matchCode crypto n t code now).tx n = some t')
    (hpassed : t'.phase.Passed) :
    Stores crypto now n t s (s.matchCode crypto n t code now) := by
  unfold matchCode at ht' ⊢
  dsimp only at ht' ⊢
  split at ht'
  · exact absurd hpassed (not_passed_refuse ht')
  · next secret hactive =>
      split at ht'
      · next counter hmatched =>
          split at ht'
          · next hadvances =>
              rw [if_pos hadvances]
              rcases updateMethod_cases s n t (fun v => v.accept counter)
                  (fun s => s.accepted n t) with hwait | ⟨c, hc, heq⟩
              · -- the UPDATE waits for the lock, and so does the phase
                rw [hwait] at ht'
                cases ht.symm.trans ht'
                rw [hphase] at hpassed
                exact hpassed.elim
              · rw [heq]
                refine .totp hphase hactive hmatched ?_
                rw [method_accepted, seen_setMethod hc]
                rfl
          · exact absurd hpassed (not_passed_refuse ht')
      · split at ht'
        · exact absurd hpassed (not_passed_goto ht' id)
        · exact absurd hpassed (not_passed_refuse ht')

/-- So is a backup code. -/
theorem consumeBackupCode_stores {id : Nat} (ht : s.tx n = some t)
    (hphase : t.phase = .consumeBackupCode id)
    (ht' : (s.consumeBackupCode n t id now).tx n = some t')
    (hpassed : t'.phase.Passed) :
    Stores crypto now n t s (s.consumeBackupCode n t id now) := by
  unfold consumeBackupCode at ht' ⊢
  split at ht'
  · next hunused =>
      rw [if_pos hunused]
      rcases updateCodes_cases s n t (fun v => v.accept id now)
          (fun s => s.accepted n t) with hwait | ⟨c, hc, heq⟩
      · rw [hwait] at ht'
        cases ht.symm.trans ht'
        rw [hphase] at hpassed
        exact hpassed.elim
      · rw [heq]
        refine .backup hphase hunused ?_
        rw [codes_accepted, seen_setCodes hc]
        rfl
  · exact absurd hpassed (not_passed_refuse ht')

/-- The backup code that is consumed is one that compares. -/
theorem advance_compares {code : String} {id : Nat} (ht : s.tx n = some t)
    (hphase : t.phase = .selectBackupCodes code)
    (ht' : (s.advance crypto verifyPassword n now hashes).tx n = some t')
    (hphase' : t'.phase = .consumeBackupCode id) :
    ∃ r ∈ ((s.codes t.userId).seen n).rows, r.id = id ∧ r.usedAt.isNone
      ∧ crypto.compare code r.codeHash = true := by
  unfold advance at ht'
  rw [ht] at ht'
  dsimp only at ht'
  rw [hphase] at ht'
  dsimp only [selectBackupCodes] at ht'
  split at ht'
  · next r hfind =>
      rw [tx_goto ht'] at hphase'
      cases hphase'
      have hr := List.find?_some hfind
      rw [Bool.and_eq_true] at hr
      exact ⟨r, List.mem_of_find?_eq_some hfind, rfl, hr.1, hr.2⟩
  · rw [tx_refuse ht'] at hphase'
    cases hphase'

/-- Every step that accepts a code appends it to the history. -/
theorem advance_stores (ht : s.tx n = some t) (hconsumes : t.phase.Consumes)
    (ht' : (s.advance crypto verifyPassword n now hashes).tx n = some t')
    (hpassed : t'.phase.Passed) :
    Stores crypto now n t s
      (s.advance crypto verifyPassword n now hashes) := by
  unfold advance at ht' ⊢
  rw [ht] at ht' ⊢
  dsimp only at ht' ⊢
  cases hphase : t.phase with
  | selectMethod code =>
      rw [hphase] at ht'
      exfalso
      dsimp only [lockMethod] at ht'
      split at ht'
      · exact not_passed_refuse ht' hpassed
      · rcases updateMethod_cases s n t id
            (fun s => s.goto n t (.matchCode code)) with hwait | ⟨c, -, heq⟩
        · rw [hwait] at ht'
          cases ht.symm.trans ht'
          rw [hphase] at hpassed
          exact hpassed
        · rw [heq] at ht'
          exact not_passed_goto ht' id hpassed
  | matchCode code =>
      rw [hphase] at ht'
      exact matchCode_stores ht hphase ht' hpassed
  | selectBackupCodes code =>
      rw [hphase] at ht'
      exfalso
      dsimp only [selectBackupCodes] at ht'
      split at ht'
      · exact not_passed_goto ht' id hpassed
      · exact not_passed_refuse ht' hpassed
  | consumeBackupCode id =>
      rw [hphase] at ht'
      exact consumeBackupCode_stores ht hphase ht' hpassed
  | selectUser | write | replaceCodes _ | deleteMethod | commit _ | redeem _
  | issue _ =>
      rw [hphase] at hconsumes
      exact hconsumes.elim

/-- What a confirmation does with the row it locked: it rolls back, clears
a pending secret that is expired, or goes on with a counter of it. -/
theorem confirmPending_cases {P : TwoFactorSystem → Prop} {code : String}
    (hrollback : P (s.rollback n t))
    (hexpired : P (s.updateMethod n t MethodVersion.clearPending
      fun s => s.goto n t (.commit false)))
    (hmatched : ∀ r secret counter,
      ((s.method t.userId).seen n).row = some r →
      r.pendingSecret = some secret →
      matchTotpCounter crypto secret code now = some counter →
      P (s.goto n t (.replaceCodes (some (secret, counter))))) :
    P (s.confirmPending crypto n t code now) := by
  unfold confirmPending
  split
  · exact hrollback
  · next secret since hpending =>
      split
      · exact hexpired
      · split
        · exact hrollback
        · next counter hcounter =>
            obtain ⟨r, hr, hpending⟩ := Option.bind_eq_some_iff.mp hpending
            obtain ⟨x, hx, hpair⟩ := Option.bind_eq_some_iff.mp hpending
            obtain ⟨y, -, hsame⟩ := Option.map_eq_some_iff.mp hpair
            cases hsame
            exact hmatched r secret counter hr hx hcounter

/-- A confirmation that goes on has found the code by the pending secret of
the row it locked. -/
theorem confirmPending_confirms {secret code : String} {counter : Nat}
    (hwaits : s.tx n ≠ some t')
    (hphase' : t'.phase = .replaceCodes (some (secret, counter))) :
    (s.confirmPending crypto n t code now).tx n = some t' →
    ∃ r, ((s.method t.userId).seen n).row = some r
      ∧ r.pendingSecret = some secret
      ∧ matchTotpCounter crypto secret code now = some counter := by
  refine confirmPending_cases (P := fun s' => s'.tx n = some t' → _)
    ?_ ?_ ?_
  · intro ht'
    rw [tx_rollback] at ht'
    cases ht'
  · intro ht'
    rcases updateMethod_cases s n t MethodVersion.clearPending
        (fun s => s.goto n t (.commit false)) with hwait | ⟨c, -, heq⟩
    · rw [hwait] at ht'
      exact absurd ht' hwaits
    · rw [heq] at ht'
      rw [tx_goto ht'] at hphase'
      cases hphase'
  · intro r found counter' hr hsecret hcounter ht'
    rw [tx_goto ht'] at hphase'
    cases hphase'
    exact ⟨r, hr, hsecret, hcounter⟩

/-- A confirmation goes on with a counter of the pending secret that has
the code. -/
theorem advance_confirms {secret : String} {counter : Nat}
    (ht : s.tx n = some t) (hphase : t.phase = .write)
    (ht' : (s.advance crypto verifyPassword n now hashes).tx n = some t')
    (hphase' : t'.phase = .replaceCodes (some (secret, counter))) :
    ∃ code r, t.request = .confirm code
      ∧ ((s.method t.userId).seen n).row = some r
      ∧ r.pendingSecret = some secret
      ∧ matchTotpCounter crypto secret code now = some counter := by
  unfold advance at ht'
  rw [ht] at ht'
  dsimp only at ht'
  rw [hphase] at ht'
  dsimp only [write] at ht'
  -- a transaction that waits is still in its first statement
  have hwaits : s.tx n ≠ some t' := by
    intro hsame
    cases ht.symm.trans hsame
    rw [hphase] at hphase'
    cases hphase'
  have hgoto : ∀ {s : TwoFactorSystem} {p : SecurityPhase},
      (s.goto n t p).tx n = some t' →
      p = .replaceCodes (some (secret, counter)) := by
    intro s p h
    rw [tx_goto h] at hphase'
    exact hphase'
  have hrollback : ∀ {s : TwoFactorSystem},
      (s.rollback n t).tx n ≠ some t' := by
    intro s h
    rw [tx_rollback] at h
    cases h
  have hupdate : ∀ {s : TwoFactorSystem} {f : MethodVersion → MethodVersion}
      {p : SecurityPhase}, s.tx n ≠ some t' →
      (s.updateMethod n t f fun s => s.goto n t p).tx n = some t' →
      p = .replaceCodes (some (secret, counter)) := by
    intro s f p hs h
    rcases updateMethod_cases s n t f (fun s => s.goto n t p) with
      hwait | ⟨c, -, heq⟩
    · rw [hwait] at h
      exact absurd h hs
    · rw [heq] at h
      exact hgoto h
  split at ht'
  · cases hupdate hwaits ht'
  · next code hrequest =>
      unfold lockMethod at ht'
      split at ht'
      · exact absurd ht' hrollback
      · rcases updateMethod_cases s n t id
            (fun s => s.confirmPending crypto n t code now) with
          hwait | ⟨c, hc, heq⟩
        · rw [hwait] at ht'
          exact absurd ht' hwaits
        · rw [heq] at ht'
          have hconfirms := confirmPending_confirms
            (tx_setMethod.trans_ne hwaits) hphase' ht'
          rw [seen_setMethod hc] at hconfirms
          obtain ⟨r, hr, hsecret, hmatched⟩ := hconfirms
          exact ⟨code, r, hrequest, hr, hsecret, hmatched⟩
  · unfold lockMethod at ht'
    split at ht'
    · exact absurd ht' hrollback
    · rcases updateMethod_cases s n t id (fun s =>
          if ((s.method t.userId).seen n).activeSecret.isSome then
            s.goto n t (.replaceCodes none)
          else s.rollback n t) with hwait | ⟨c, -, heq⟩
      · rw [hwait] at ht'
        exact absurd ht' hwaits
      · rw [heq] at ht'
        split at ht'
        · cases hgoto ht'
        · exact absurd ht' hrollback
  · rcases updateCodes_cases s n t (fun v => v.regenerate [])
        (fun s => s.goto n t .deleteMethod) with hwait | ⟨c, -, heq⟩
    · rw [hwait] at ht'
      exact absurd ht' hwaits
    · rw [heq] at ht'
      cases hgoto ht'
  · unfold lockMethod at ht'
    split at ht'
    · exact absurd ht' hrollback
    · rcases updateMethod_cases s n t id (fun s =>
          s.updateMethod n t MethodVersion.migrate
            fun s => s.goto n t (.commit true)) with hwait | ⟨c, -, heq⟩
      · rw [hwait] at ht'
        exact absurd ht' hwaits
      · rw [heq] at ht'
        have hnext := hupdate (tx_setMethod.trans_ne hwaits) ht'
        cases hnext
  · exact absurd ht' hrollback

/-- The counter of a confirmation is stored with the secret. -/
theorem advance_activates {secret : String} {counter : Nat}
    (ht : s.tx n = some t)
    (hphase : t.phase = .replaceCodes (some (secret, counter)))
    (ht' : (s.advance crypto verifyPassword n now hashes).tx n = some t')
    (hphase' : t'.phase = .commit true) :
    (((s.advance crypto verifyPassword n now hashes).method
        t.userId).seen n).log
      = ((s.method t.userId).seen n).log ++ [.activated (some counter)] := by
  unfold advance at ht' ⊢
  rw [ht] at ht' ⊢
  dsimp only at ht' ⊢
  rw [hphase] at ht' ⊢
  dsimp only [replaceCodes] at ht' ⊢
  have hwaits : s.tx n ≠ some t' := by
    intro hsame
    cases ht.symm.trans hsame
    rw [hphase] at hphase'
    cases hphase'
  rcases updateCodes_cases s n t (fun v => v.regenerate hashes) (fun s =>
      s.updateMethod n t (fun v => v.confirm secret counter now) fun s =>
        (s.updateUser n t fun u =>
          { u with twoFactorEnabled := true }.bumpSessionVersion).goto n t
            (.commit true)) with hwait | ⟨c, -, heq⟩
  · rw [hwait] at ht'
    exact absurd ht' hwaits
  · rw [heq] at ht' ⊢
    rcases updateMethod_cases (s.setCodes t.userId
        (c.edit n fun v => v.regenerate hashes)) n t
        (fun v => v.confirm secret counter now) (fun s =>
          (s.updateUser n t fun u =>
            { u with twoFactorEnabled := true }.bumpSessionVersion).goto n t
              (.commit true)) with hwait | ⟨d, hd, heq⟩
    · rw [hwait] at ht'
      exact absurd ht' hwaits
    · rw [heq]
      show ((((s.setCodes t.userId _).setMethod t.userId _).method
        t.userId).seen n).log = _
      rw [seen_setMethod hd]
      rfl

-- ========================================================= verifications

/-- A verification that moves on: still one, and not further than an
accepted code or its COMMIT allows. -/
structure Verifying (t t' : SecurityTx) : Prop where
  request : t'.request = t.request
  phase : t'.phase.Verifies
  committing : t'.phase = .commit true → t.phase.Consumes
  redeeming : ∀ token, t'.phase = .redeem token → t.phase = .commit true

/-- A verification that waits is a verification. -/
theorem verifying_wait (hconsumes : t.phase.Consumes)
    (hverifies : t.phase.Verifies) : Verifying t t where
  request := rfl
  phase := hverifies
  committing _ := hconsumes
  redeeming token h := by
    rw [h] at hconsumes
    exact hconsumes.elim

/-- From a statement of `consumeTwoFactorCode` to anything but a token. -/
theorem verifying_goto (hconsumes : t.phase.Consumes)
    (h : (s'.goto n t p).tx n = some t') (hp : p.Verifies)
    (hnot : ∀ token, p ≠ .redeem token) : Verifying t t' := by
  rw [tx_goto h]
  exact ⟨rfl, hp, fun _ => hconsumes, fun token h => absurd h (hnot token)⟩

section Verify

variable {code : String} {login : Option PendingToken}

/-- A refused one commits no acceptance. -/
theorem verifying_refuse (hrequest : t.request = .verify code login)
    (hconsumes : t.phase.Consumes)
    (h : (s'.refuse n t).tx n = some t') : Verifying t t' := by
  unfold refuse at h
  rw [hrequest] at h
  exact verifying_goto hconsumes h trivial nofun

/-- One behind an accepted code commits it. -/
theorem verifying_accepted (hrequest : t.request = .verify code login)
    (hconsumes : t.phase.Consumes)
    (h : (s'.accepted n t).tx n = some t') : Verifying t t' := by
  unfold accepted at h
  rw [hrequest] at h
  exact verifying_goto hconsumes h trivial nofun

/-- A verification goes on after its COMMIT only when it is a login whose code
was accepted, and then to its pending token. -/
theorem tx_commit_verify {accepted : Bool}
    (hrequest : t.request = .verify code login)
    (h : (s.commit n t accepted).tx n = some t') :
    ∃ token, login = some token ∧ accepted = true
      ∧ t' = { t with phase := .redeem token } := by
  unfold TwoFactorSystem.commit setTx at h
  dsimp only at h
  rw [Function.update_self, hrequest] at h
  cases login with
  | none => cases h
  | some token =>
      cases accepted with
      | false => cases h
      | true =>
          have hnext := (Option.some.inj h).symm
          rw [← hrequest] at hnext
          exact ⟨token, rfl, rfl, hnext⟩

/-- One statement of a verification, phase by phase: it waits, refuses, goes
on, or accepts, and it comes to COMMIT with an accepted code only from the
statement that has stored that code. -/
theorem advance_verifying (ht : s.tx n = some t)
    (hrequest : t.request = .verify code login)
    (hverifies : t.phase.Verifies)
    (ht' : (s.advance crypto verifyPassword n now hashes).tx n = some t') :
    Verifying t t' := by
  unfold advance at ht'
  rw [ht] at ht'
  dsimp only at ht'
  have hconsumed : t.phase.Consumes → s.tx n = some t' → Verifying t t' := by
    intro hconsumes hsame
    cases ht.symm.trans hsame
    exact verifying_wait hconsumes hverifies
  cases hphase : t.phase with
  | selectUser | write | replaceCodes _ | deleteMethod =>
      rw [hphase] at hverifies
      exact hverifies.elim
  | selectMethod found =>
      have hconsumes : t.phase.Consumes := by
        rw [hphase]
        trivial
      rw [hphase] at ht'
      dsimp only [lockMethod] at ht'
      split at ht'
      · exact verifying_refuse hrequest hconsumes ht'
      · rcases updateMethod_cases s n t id
            (fun s => s.goto n t (.matchCode found)) with hwait | ⟨c, -, heq⟩
        · rw [hwait] at ht'
          exact hconsumed hconsumes ht'
        · rw [heq] at ht'
          exact verifying_goto hconsumes ht' trivial nofun
  | matchCode found =>
      have hconsumes : t.phase.Consumes := by
        rw [hphase]
        trivial
      rw [hphase] at ht'
      dsimp only [matchCode] at ht'
      split at ht'
      · exact verifying_refuse hrequest hconsumes ht'
      · split at ht'
        · next counter _ =>
            split at ht'
            · rcases updateMethod_cases s n t (fun v => v.accept counter)
                  (fun s => s.accepted n t) with hwait | ⟨c, -, heq⟩
              · rw [hwait] at ht'
                exact hconsumed hconsumes ht'
              · rw [heq] at ht'
                exact verifying_accepted hrequest hconsumes ht'
            · exact verifying_refuse hrequest hconsumes ht'
        · split at ht'
          · exact verifying_goto hconsumes ht' trivial nofun
          · exact verifying_refuse hrequest hconsumes ht'
  | selectBackupCodes found =>
      have hconsumes : t.phase.Consumes := by
        rw [hphase]
        trivial
      rw [hphase] at ht'
      dsimp only [selectBackupCodes] at ht'
      split at ht'
      · exact verifying_goto hconsumes ht' trivial nofun
      · exact verifying_refuse hrequest hconsumes ht'
  | consumeBackupCode id =>
      have hconsumes : t.phase.Consumes := by
        rw [hphase]
        trivial
      rw [hphase] at ht'
      dsimp only [consumeBackupCode] at ht'
      split at ht'
      · rcases updateCodes_cases s n t (fun v => v.accept id now)
            (fun s => s.accepted n t) with hwait | ⟨c, -, heq⟩
        · rw [hwait] at ht'
          exact hconsumed hconsumes ht'
        · rw [heq] at ht'
          exact verifying_accepted hrequest hconsumes ht'
      · exact verifying_refuse hrequest hconsumes ht'
  | commit accepted =>
      rw [hphase] at ht'
      obtain ⟨token, -, haccepted, rfl⟩ := tx_commit_verify hrequest ht'
      refine ⟨rfl, trivial, nofun, fun _ _ => ?_⟩
      rw [hphase, haccepted]
  | redeem token =>
      rw [hphase] at ht'
      dsimp only [redeem] at ht'
      split at ht'
      · rw [tx_goto ht']
        exact ⟨rfl, trivial, nofun, nofun⟩
      · unfold setTx at ht'
        dsimp only at ht'
        rw [Function.update_self] at ht'
        cases ht'
  | issue token =>
      rw [hphase] at ht'
      have htx : (s.issue n t token).tx n = none := by
        unfold TwoFactorSystem.issue setTx
        split <;> exact Function.update_self _ _ _
      rw [htx] at ht'
      cases ht'

end Verify

-- =========================================================== publication

/-- COMMIT publishes the histories that the transaction sees. -/
theorem advance_publishes {accepted : Bool} (ht : s.tx n = some t)
    (hphase : t.phase = .commit accepted) :
    ((s.advance crypto verifyPassword n now hashes).method t.userId).value
        = (s.method t.userId).seen n
      ∧ ((s.advance crypto verifyPassword n now hashes).codes t.userId).value
        = (s.codes t.userId).seen n := by
  unfold advance
  rw [ht]
  dsimp only
  rw [hphase]
  constructor
  · show (Function.update s.method t.userId _ t.userId).value = _
    rw [Function.update_self, Cell.value_publish]
  · show (Function.update s.codes t.userId _ t.userId).value = _
    rw [Function.update_self, Cell.value_publish]

end Statements

end TwoFactorSystem

end Skrynia
