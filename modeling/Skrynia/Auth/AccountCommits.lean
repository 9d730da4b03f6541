/-
What a transaction leaves of an account.

The transactions of `AccountCommit` are many, and what is said of them
elsewhere is little: which row gets a new session version, and what stays
as it was where none is given. `AccountCommit.apply_rows` says this once
for all of them; a password, a second factor or a ban never changes
without a new version, and neither does an email without a new
generation.
-/
import Skrynia.Auth.LoginSteps

namespace Skrynia

open Relational Stepping Handler

namespace AccountRow

/-- The password and the email are the same, or one of them has a new
generation. -/
inductive Later (r r' : AccountRow) : Prop where
  | same (password : r'.passwordGeneration = r.passwordGeneration)
      (email : r'.emailGeneration = r.emailGeneration)
      (text : r'.email = r.email)
  | password (h : r.passwordGeneration < r'.passwordGeneration)
      (email : r.emailGeneration ≤ r'.emailGeneration)
  | email (h : r.emailGeneration < r'.emailGeneration)
      (password : r.passwordGeneration ≤ r'.passwordGeneration)

/-- Credentials may stay the same. -/
theorem Later.refl (r : AccountRow) : Later r r := .same rfl rfl rfl

namespace Later

variable {r r' r'' : AccountRow}

/-- Generations of a password never fall. -/
theorem password_le (h : Later r r') :
    r.passwordGeneration ≤ r'.passwordGeneration := by
  cases h with
  | same password => exact Nat.le_of_eq password.symm
  | password h => exact Nat.le_of_lt h
  | email _ password => exact password

/-- Nor do those of an email. -/
theorem email_le (h : Later r r') :
    r.emailGeneration ≤ r'.emailGeneration := by
  cases h with
  | same _ email => exact Nat.le_of_eq email.symm
  | password _ email => exact email
  | email h => exact Nat.le_of_lt h

end Later

/-- From `r` to `r'`, with a new session version or without. -/
structure Steps (r r' : AccountRow) : Prop where
  id : r'.id = r.id
  version : r.security.sessionVersion ≤ r'.security.sessionVersion
  same : r'.security.sessionVersion = r.security.sessionVersion →
    r'.security.passwordHash = r.security.passwordHash
      ∧ r'.security.twoFactorEnabled = r.security.twoFactorEnabled
      ∧ (r'.security.isBanned = true → r.security.isBanned = true)
  later : Later r r'

/-- A row may stay as it is. -/
theorem Steps.refl (r : AccountRow) : Steps r r :=
  ⟨rfl, Nat.le_refl _, fun _ => ⟨rfl, rfl, fun h => h⟩, .refl r⟩

/-- A new session version may come with anything. -/
theorem steps_of_lt {r r' : AccountRow} (hid : r'.id = r.id)
    (hversion : r.security.sessionVersion < r'.security.sessionVersion)
    (hlater : Later r r') : Steps r r' :=
  ⟨hid, Nat.le_of_lt hversion, fun h => by omega, hlater⟩

end AccountRow

namespace AuthSystem

variable {s s' s'' : AuthSystem}

/-- The rows and Redis are as they were. -/
structure FactorsOnly (s s' : AuthSystem) : Prop where
  users : s'.users = s.users
  store : s'.store = s.store

/-- Every row is there in `s'`, and only those in `S` have got a new
session version. Redis is as it was. -/
structure RowsStep (S : Uuid → Prop) (s s' : AuthSystem) : Prop where
  store : s'.store = s.store
  row : ∀ u r, s.row? u = some r → ∃ r', s'.row? u = some r' ∧ r.Steps r'
    ∧ (r.security.sessionVersion < r'.security.sessionVersion ↔ S u)

/-- What touches second factors only changes no account. -/
theorem rowsStep_of_factors {S : Uuid → Prop} (h : FactorsOnly s s')
    (hS : ∀ u, ¬ S u) : RowsStep S s s' where
  store := h.store
  row u r hr := by
    refine ⟨r, ?_, .refl r, iff_of_false (lt_irrefl _) (hS u)⟩
    unfold row? at hr ⊢
    rw [h.users]
    exact hr

/-- An update changes the row of its user, in a step. -/
theorem rowsStep_updateUser (userId : Uuid) {f : AccountRow → AccountRow}
    {hf : ∀ r, (f r).id = r.id} {S : Uuid → Prop}
    (hsteps : ∀ r, s.row? userId = some r → r.Steps (f r)
      ∧ (r.security.sessionVersion < (f r).security.sessionVersion ↔ S userId))
    (hS : ∀ u, S u → u = userId) :
    RowsStep S s (s.updateUser userId f hf) where
  store := rfl
  row u r hr := by
    rw [row?_updateUser, hr, Option.map_some]
    have hid : r.id = u := Table.key_of_find? hr
    refine ⟨_, rfl, ?_⟩
    split
    · next heq =>
        obtain rfl : u = userId := hid.symm.trans heq
        exact hsteps r hr
    · next hne =>
        refine ⟨.refl r, iff_of_false (lt_irrefl _) fun h => hne ?_⟩
        exact hid.trans (hS u h)

/-- A new user changes the row of nobody. -/
theorem rowsStep_insertUser {S : Uuid → Prop} {row : AccountRow}
    {x : AccountRow × AuthSystem} (h : s.insertUser row = .ok x)
    (hS : ∀ u, ¬ S u) : RowsStep S s x.2 := by
  unfold insertUser at h
  split at h
  · cases h
  · split at h
    · cases h
    · next users hinsert =>
        cases h
        refine ⟨rfl, fun u r hr => ?_⟩
        refine ⟨r, ?_, .refl r, iff_of_false (lt_irrefl _) (hS u)⟩
        show users.find? u = some r
        rw [Table.find?_insert hinsert, if_neg]
        · exact hr
        · intro heq
          subst heq
          exact (Table.insert?_eq_some.mp hinsert).1
            (Table.has_iff.mpr ⟨r, hr⟩)

/-- One after another that has left the versions as they were. -/
theorem RowsStep.after {S : Uuid → Prop}
    (h : FactorsOnly s s') (h' : RowsStep S s' s'') :
    RowsStep S s s'' where
  store := h'.store.trans h.store
  row u r hr := by
    apply h'.row u r
    unfold row? at hr ⊢
    rw [h.users]
    exact hr

/-- Who has a new version is asked of users that there are. -/
theorem RowsStep.congr {S T : Uuid → Prop} (h : RowsStep S s s')
    (hST : ∀ u, (∃ r, s.row? u = some r) → (S u ↔ T u)) : RowsStep T s s' where
  store := h.store
  row u r hr := by
    obtain ⟨r', hr', hsteps, hiff⟩ := h.row u r hr
    exact ⟨r', hr', hsteps, hiff.trans (hST u ⟨r, hr⟩)⟩

/-- A new session version of one row, and whatever else has none of its
own. -/
theorem rowsStep_bumped {S : Uuid → Prop} (h : FactorsOnly s s')
    (userId : Uuid) {f : AccountRow → AccountRow} {hf : ∀ r, (f r).id = r.id}
    (hS : ∀ u, S u ↔ u = userId)
    (hversion : ∀ r : AccountRow,
      r.security.sessionVersion < (f r).security.sessionVersion)
    (hlater : ∀ r : AccountRow, r.Later (f r)) :
    RowsStep S s (s'.updateUser userId f hf) :=
  .after h (rowsStep_updateUser userId
    (fun r _ => ⟨AccountRow.steps_of_lt (hf r) (hversion r) (hlater r),
      iff_of_true (hversion r) ((hS userId).mpr rfl)⟩)
    fun u hu => (hS u).mp hu)

/-- Two updates of a user are one. -/
theorem updateUser_updateUser (userId : Uuid) {f g : AccountRow → AccountRow}
    {hf : ∀ r, (f r).id = r.id} {hg : ∀ r, (g r).id = r.id} (u : Uuid) :
    ((s.updateUser userId f hf).updateUser userId g hg).row? u
      = (s.updateUser userId (fun r => g (f r))
          fun r => (hg (f r)).trans (hf r)).row? u := by
  rw [row?_updateUser, row?_updateUser, row?_updateUser, Option.map_map]
  congr 1
  funext r
  by_cases hr : r.id = userId
  · simp [hr, hf]
  · simp [hr]

/-- What leaves the rows as they are may follow. -/
theorem RowsStep.of_row {S : Uuid → Prop} (h : RowsStep S s s')
    (hstore : s''.store = s'.store) (hrow : ∀ u, s''.row? u = s'.row? u) :
    RowsStep S s s'' where
  store := hstore.trans h.store
  row u r hr := by
    rw [hrow]
    exact h.row u r hr

-- ========================================================== transactions

variable {crypto : AuthCrypto} {a : Ambient} {userId : Uuid}

/-- The use of a code touches second factors only. -/
theorem consumeTwoFactorCode_factors (code : String) (t : Timestamp) :
    FactorsOnly s (s.consumeTwoFactorCode crypto userId code t).2 := by
  unfold consumeTwoFactorCode
  split
  · exact ⟨rfl, rfl⟩
  · split
    · split
      · exact ⟨rfl, rfl⟩
      · exact ⟨rfl, rfl⟩
    · dsimp only
      split
      · exact ⟨rfl, rfl⟩
      · split
        · exact ⟨rfl, rfl⟩
        · exact ⟨rfl, rfl⟩

/-- So does a reauthentication. -/
theorem reauthenticate_factors {row : AccountRow}
    {input : TwoFactorReauthentication} {t : Timestamp}
    (h : s.reauthenticate crypto row input t = .ok s') : FactorsOnly s s' := by
  unfold reauthenticate at h
  split at h
  · cases h
  · split at h
    · cases h
      exact ⟨rfl, rfl⟩
    · split at h
      · cases h
        exact consumeTwoFactorCode_factors _ _
      · cases h
    · cases h

/-- And the setup of a second factor. -/
theorem setupTwoFactor_factors {input : TwoFactorReauthentication}
    {x : Unit × AuthSystem}
    (h : s.setupTwoFactor crypto a userId input = .ok x) :
    FactorsOnly s x.2 := by
  obtain ⟨row, -, h⟩ := except_bind_eq_ok.mp h
  obtain ⟨s₁, hs₁, h⟩ := except_bind_eq_ok.mp h
  cases h
  have hfactors : FactorsOnly s s₁ := by
    unfold confirmReplacement at hs₁
    split at hs₁
    · exact reauthenticate_factors hs₁
    · cases hs₁
      exact ⟨rfl, rfl⟩
  exact ⟨hfactors.users, hfactors.store⟩

/-- What a confirmation or a disabling writes to the row. -/
theorem rowsStep_setTwoFactor {S : Uuid → Prop} (h : FactorsOnly s s')
    (hS : ∀ u, S u ↔ u = userId) (enabled : Bool) :
    RowsStep S s ((s'.updateUser userId (fun r => { r with
      security := { r.security with twoFactorEnabled := enabled } })
        fun _ => rfl).bumpSessionVersion userId) := by
  have hbumped : RowsStep S s (s'.updateUser userId
      (fun r => ({ r with security := { r.security with
        twoFactorEnabled := enabled } } : AccountRow).bumpSessionVersion)
      fun _ => rfl) :=
    rowsStep_bumped h userId hS (fun r => Nat.lt_succ_self _)
      fun r => .same rfl rfl rfl
  apply hbumped.of_row
  · rfl
  · exact updateUser_updateUser userId

/-- A second factor that is switched on comes with a new session version. -/
theorem confirmTwoFactor_rows {code : String} {x : Bool × AuthSystem}
    (h : s.confirmTwoFactor crypto a userId code = .ok x) :
    RowsStep (fun u => x.1 = false ∧ u = userId) s x.2 := by
  obtain ⟨row, -, h⟩ := except_bind_eq_ok.mp h
  split at h
  · cases h
  · split at h
    · cases h
      exact rowsStep_of_factors ⟨rfl, rfl⟩ fun u => by simp
    · split at h
      · cases h
      · cases h
        apply rowsStep_setTwoFactor
        · exact ⟨rfl, rfl⟩
        · simp

/-- So do new backup codes. -/
theorem regenerateBackupCodes_rows {input : TwoFactorReauthentication}
    {x : Unit × AuthSystem}
    (h : s.regenerateBackupCodes crypto a userId input = .ok x) :
    RowsStep (fun u => u = userId) s x.2 := by
  obtain ⟨row, -, h⟩ := except_bind_eq_ok.mp h
  split at h
  · cases h
  · obtain ⟨s₁, hs₁, h⟩ := except_bind_eq_ok.mp h
    have hfactors : FactorsOnly s s₁ := reauthenticate_factors hs₁
    split at h
    · cases h
    · cases h
      apply rowsStep_bumped (f := AccountRow.bumpSessionVersion)
      · exact ⟨hfactors.users, hfactors.store⟩
      · exact fun u => Iff.rfl
      · exact fun r => Nat.lt_succ_self _
      · exact fun r => .same rfl rfl rfl

/-- And a second factor that is switched off. -/
theorem disableTwoFactor_rows {input : TwoFactorReauthentication}
    {x : Unit × AuthSystem}
    (h : s.disableTwoFactor crypto a userId input = .ok x) :
    RowsStep (fun u => u = userId) s x.2 := by
  obtain ⟨row, -, h⟩ := except_bind_eq_ok.mp h
  split at h
  · cases h
  · obtain ⟨s₁, hs₁, h⟩ := except_bind_eq_ok.mp h
    have hfactors : FactorsOnly s s₁ := reauthenticate_factors hs₁
    cases h
    apply rowsStep_setTwoFactor
    · exact ⟨hfactors.users, hfactors.store⟩
    · exact fun u => Iff.rfl

/-- A password that is written comes with a new version, and a new
generation. -/
theorem writePassword_rows (row : AccountRow) (guard : AccountRow → Prop)
    [DecidablePred guard] (passwordHash : String) :
    RowsStep (fun u => (s.writePassword row guard passwordHash).1 = true
      ∧ u = row.id) s (s.writePassword row guard passwordHash).2 := by
  unfold writePassword
  split
  · apply rowsStep_bumped
    · exact ⟨rfl, rfl⟩
    · simp
    · exact fun r => Nat.lt_succ_self _
    · exact fun r => .password (Nat.lt_succ_self _) (Nat.le_refl _)
  · exact rowsStep_of_factors ⟨rfl, rfl⟩ fun u => by simp

/-- A login by Telegram changes the profile of its user only. -/
theorem upsertTelegram_rows {S : Uuid → Prop} {id : Uuid}
    {input : TelegramPayload} {x : AccountRow × AuthSystem}
    (h : s.upsertTelegram id input = .ok x) (hS : ∀ u, ¬ S u) :
    RowsStep S s x.2 := by
  unfold upsertTelegram at h
  dsimp only at h
  split at h
  · next r _ =>
      cases h
      apply rowsStep_updateUser r.id
      · intro r' _
        exact ⟨⟨rfl, Nat.le_refl _, fun _ => ⟨rfl, rfl, fun h => h⟩,
          .same rfl rfl rfl⟩, iff_of_false (lt_irrefl _) (hS r.id)⟩
      · exact fun u h => absurd h (hS u)
  · exact rowsStep_insertUser h hS

/-- A ban or another role comes with a new version. -/
theorem patched_steps (role : Option Role) (isBanned : Option Bool)
    (r : AccountRow) : r.Steps (r.patched role isBanned)
      ∧ (r.security.sessionVersion
          < (r.patched role isBanned).security.sessionVersion
        ↔ r.Revoking role isBanned) := by
  unfold AccountRow.patched AccountRow.Revoking
  dsimp only
  split
  · next h =>
      exact ⟨AccountRow.steps_of_lt rfl (Nat.lt_succ_self _)
        (.same rfl rfl rfl), iff_of_true (Nat.lt_succ_self _) h⟩
  · next h =>
      refine ⟨⟨rfl, Nat.le_refl _, fun _ => ⟨rfl, rfl, fun hbanned => ?_⟩,
        .same rfl rfl rfl⟩, iff_of_false (lt_irrefl _) h⟩
      cases isBanned with
      | none => exact hbanned
      | some b =>
          cases hr : r.security.isBanned with
          | true => rfl
          | false => exact absurd (Or.inl ⟨congrArg some hbanned, hr⟩) h

end AuthSystem

open AuthSystem

variable {crypto : AuthCrypto} {s : AuthSystem}

/-- A transaction that reports a user has given a new session version to
that user's row and no other; one that reports none, to no row. -/
theorem AccountCommit.apply_rows (c : AccountCommit) :
    RowsStep (fun u => (c.apply crypto s).1 = some u) s
      (c.apply crypto s).2 := by
  have hcommitted : ∀ {α : Type} {x : Except Failure (α × AuthSystem)},
      (∀ y, x = .ok y →
        RowsStep (fun u => (none : Option Uuid) = some u) s y.2) →
      RowsStep (fun u => (none : Option Uuid) = some u) s (s.committed x) := by
    intro α x hx
    cases x with
    | ok y => exact hx y rfl
    | error e => exact rowsStep_of_factors ⟨rfl, rfl⟩ nofun
  have hown : ∀ {userId : Uuid} {s' : AuthSystem},
      RowsStep (fun u => u = userId) s s' →
      RowsStep (fun u => (s.row? userId).map AccountRow.id = some u) s s' := by
    intro userId s' h
    refine h.congr fun u hu => ?_
    constructor
    · intro heq
      subst heq
      obtain ⟨r, hr⟩ := hu
      rw [hr]
      exact congrArg some (Table.key_of_find? hr)
    · intro hmap
      obtain ⟨r, hr, hid⟩ := Option.map_eq_some_iff.mp hmap
      exact hid.symm.trans (Table.key_of_find? hr)
  have hwritten : ∀ {b : Bool} {u v : Uuid},
      b = true ∧ u = v ↔ (if b then some v else none) = some u := by
    intro b u v
    cases b with
    | false => simp
    | true => simpa using eq_comm
  cases c with
  | register row => exact hcommitted fun y hy => rowsStep_insertUser hy nofun
  | telegram id input =>
      exact hcommitted fun y hy => upsertTelegram_rows hy nofun
  | passwordReset reset passwordHash =>
      dsimp only [apply]
      split
      · exact rowsStep_of_factors ⟨rfl, rfl⟩ nofun
      · exact (writePassword_rows _ _ _).congr fun _ _ => hwritten
  | changePassword password passwordHash =>
      dsimp only [apply]
      split
      · exact rowsStep_of_factors ⟨rfl, rfl⟩ nofun
      · exact (writePassword_rows _ _ _).congr fun _ _ => hwritten
  | logoutAll userId =>
      exact hown (rowsStep_bumped ⟨rfl, rfl⟩ userId (fun u => Iff.rfl)
        (f := AccountRow.bumpSessionVersion) (fun r => Nat.lt_succ_self _)
        fun r => .same rfl rfl rfl)
  | setupTwoFactor userId input a =>
      exact hcommitted fun y hy =>
        rowsStep_of_factors (setupTwoFactor_factors hy) nofun
  | confirmTwoFactor userId code a =>
      dsimp only [apply]
      split
      · next h =>
          exact (confirmTwoFactor_rows h).congr fun _ _ => by simp [eq_comm]
      · next h => exact (confirmTwoFactor_rows h).congr fun _ _ => by simp
      · exact rowsStep_of_factors ⟨rfl, rfl⟩ nofun
  | regenerateBackupCodes userId input a =>
      dsimp only [apply]
      split
      · next h =>
          exact (regenerateBackupCodes_rows h).congr fun _ _ => by
            simp [eq_comm]
      · exact rowsStep_of_factors ⟨rfl, rfl⟩ nofun
  | disableTwoFactor userId input a =>
      dsimp only [apply]
      split
      · next h =>
          exact (disableTwoFactor_rows h).congr fun _ _ => by simp [eq_comm]
      · exact rowsStep_of_factors ⟨rfl, rfl⟩ nofun
  | confirmEmailChange userId pendingEmail now =>
      apply hown
      apply rowsStep_bumped
      · exact ⟨rfl, rfl⟩
      · exact fun u => Iff.rfl
      · exact fun r => Nat.lt_succ_self _
      · exact fun r => .email (Nat.lt_succ_self _) (Nat.le_refl _)
  | patchUser userId role isBanned =>
      dsimp only [apply]
      apply rowsStep_updateUser userId
      · intro r hr
        obtain ⟨hsteps, hiff⟩ := patched_steps role isBanned r
        refine ⟨hsteps, hiff.trans ?_⟩
        rw [hr]
        by_cases hrev : r.Revoking role isBanned
        · simp [hrev]
        · simp [hrev]
      · intro u hu
        split at hu
        · exact (Option.some.inj hu).symm
        · cases hu

end Skrynia
