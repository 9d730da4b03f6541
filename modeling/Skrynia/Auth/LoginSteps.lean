/-
The requests that issue sessions, one access at a time.

`Auth/Login` answers a request before the next one begins. Here requests
take turns: each holds what it has read so far (`LoginPhase`) and makes
its next access in a step of its own, and between two steps anything may
commit that changes an account (`AccountCommit`). A step is the piece of
the handler up to its next access; left alone, the pieces of a login are
the handler (`login_alone`).

# What a session rests on

`Basis` says what let a request in: a password, compared with the hash
of a row it has read; the pending token that such a login was given; or
a refresh record. `changes` has the users whose security state has
changed, in the order of the commits, and a moment is a length of it.
-/
import Skrynia.Auth.Gate

namespace Skrynia

open Relational Stepping Handler

-- ============================================================== commits

/-- The transactions on an account. Those that a request prepares (a
hash, what it has read before) have that as arguments. -/
inductive AccountCommit where
  | register (row : AccountRow)
  | telegram (id : Uuid) (input : TelegramPayload)
  /-- POST /password/reset. -/
  | passwordReset (reset : PasswordResetTokenRecord) (passwordHash : String)
  /-- POST /me/password. -/
  | changePassword (password : AccountRow) (passwordHash : String)
  | logoutAll (userId : Uuid)
  | setupTwoFactor (userId : Uuid) (input : TwoFactorReauthentication)
      (a : Ambient)
  | confirmTwoFactor (userId : Uuid) (code : String) (a : Ambient)
  | regenerateBackupCodes (userId : Uuid) (input : TwoFactorReauthentication)
      (a : Ambient)
  | disableTwoFactor (userId : Uuid) (input : TwoFactorReauthentication)
      (a : Ambient)
  | confirmEmailChange (userId : Uuid) (pendingEmail : String)
      (now : Timestamp)
  /-- PATCH /admin/users/:id. -/
  | patchUser (userId : Uuid) (role : Option Role) (isBanned : Option Bool)

namespace AuthSystem

variable (s : AuthSystem)

/-- The UPDATE of `confirmEmailChange`, once its checks are passed. -/
def changeEmail (userId : Uuid) (pendingEmail : String) (now : Timestamp) :
    AuthSystem :=
  s.updateUser userId (fun r => { r with
    email := pendingEmail
    emailVerifiedAt := some now
    emailGeneration := r.emailGeneration + 1
    security := r.security.bumpSessionVersion }) fun _ => rfl

/-- What a refused transaction leaves is what was there. -/
def committed {α : Type} (x : Except Failure (α × AuthSystem)) : AuthSystem :=
  match x with
  | .ok (_, s') => s'
  | .error _ => s

end AuthSystem

/-- The row gets a new session version, of a ban or another role. -/
def AccountRow.Revoking (role : Option Role) (isBanned : Option Bool)
    (r : AccountRow) : Prop :=
  (isBanned = some true ∧ r.security.isBanned = false)
    ∨ ∃ x ∈ role, x ≠ r.role

instance (role : Option Role) (isBanned : Option Bool) (r : AccountRow) :
    Decidable (r.Revoking role isBanned) :=
  inferInstanceAs (Decidable (_ ∨ _))

/-- The user whose security state the commit has changed, and the state
after it. -/
def AccountCommit.apply (crypto : AuthCrypto) (s : AuthSystem) :
    AccountCommit → Option Uuid × AuthSystem
  | .register row => (none, s.committed (s.insertUser row))
  | .telegram id input => (none, s.committed (s.upsertTelegram id input))
  | .passwordReset reset passwordHash =>
      match s.row? reset.userId with
      | none => (none, s)
      | some row =>
          let written := s.writePassword row (fun r =>
            r.passwordGeneration = reset.passwordGeneration
              ∧ r.emailGeneration = reset.emailGeneration
              ∧ crypto.lower r.email = reset.expectedEmail) passwordHash
          (if written.1 then some row.id else none, written.2)
  | .changePassword password passwordHash =>
      match s.row? password.id with
      | none => (none, s)
      | some row =>
          let written := s.writePassword row (fun r =>
            r.passwordGeneration = password.passwordGeneration
              ∧ r.security.passwordHash = password.security.passwordHash)
                passwordHash
          (if written.1 then some row.id else none, written.2)
  | .logoutAll userId =>
      ((s.row? userId).map AccountRow.id, s.bumpSessionVersion userId)
  | .setupTwoFactor userId input a =>
      (none, s.committed (s.setupTwoFactor crypto a userId input))
  | .confirmTwoFactor userId code a =>
      match s.confirmTwoFactor crypto a userId code with
      | .ok (false, s') => (some userId, s')
      | .ok (true, s') => (none, s')
      | .error _ => (none, s)
  | .regenerateBackupCodes userId input a =>
      match s.regenerateBackupCodes crypto a userId input with
      | .ok (_, s') => (some userId, s')
      | .error _ => (none, s)
  | .disableTwoFactor userId input a =>
      match s.disableTwoFactor crypto a userId input with
      | .ok (_, s') => (some userId, s')
      | .error _ => (none, s)
  | .confirmEmailChange userId pendingEmail now =>
      ((s.row? userId).map AccountRow.id,
        s.changeEmail userId pendingEmail now)
  | .patchUser userId role isBanned =>
      (if (s.row? userId).any fun r => r.Revoking role isBanned then some userId
        else none,
        s.updateUser userId (AccountRow.patched role isBanned)
          (AccountRow.patched_id role isBanned))

-- =============================================================== phases

/-- Where a request is between two of its accesses, and what it has. -/
inductive LoginPhase where
  | idle
  | verifyPassword (row : Option AccountRow) (password : String)
  | issuePending (row : AccountRow)
  | migrateSecrets (token : PendingJwt) (row : AccountRow) (code : String)
  | consumeCode (token : PendingJwt) (row : AccountRow) (code : String)
  | consumePending (token : PendingJwt) (row : AccountRow)
  | prepare (user : AuthUser) (expectedSessionVersion : Option Nat)
  | issue (user : AuthUser) (session : SessionCredentials)
  | refreshUser (tokenHash : String) (record : RefreshRecord)
      (accessToken : Option AccessToken)
  | prepareRotation (tokenHash : String) (record : RefreshRecord)
      (row : AccountRow) (accessToken : Option AccessToken)
  | rotate (user : AuthUser) (i : Rotation) (attempts : Nat)
  | answered (answer : Except Failure AuthResponse)

/-- A password is compared with the hash of a row. -/
structure PasswordCheck where
  row : AccountRow
  /-- When the row was read. -/
  time : Nat

/-- What let a request in. -/
inductive Basis where
  | password (check : PasswordCheck)
  | secondFactor (token : PendingJwt)
  | refresh (record : RefreshRecord)

/-- Credentials that a request has drawn and signed. -/
structure DrawnSession where
  request : Nat
  userId : Uuid
  session : SessionCredentials
  /-- When the session version was read. -/
  time : Nat

/-- The record that is stored under the hash of its refresh token. -/
def DrawnSession.record (d : DrawnSession) : RefreshRecord :=
  SessionStore.record d.userId d.session

/-- The accounts, where each request is, and what was signed for it. -/
structure LoginSystem where
  auth : AuthSystem
  phase : Nat → LoginPhase
  basis : Nat → Option Basis
  /-- The pending tokens, with the password check each was given for. -/
  vouched : List (PendingJwt × PasswordCheck)
  drawn : List DrawnSession
  changes : List Uuid

/-- A row that a login has found, and what it compares. -/
def checkPassword (crypto : AuthCrypto) (row : Option AccountRow)
    (password : String) : AuthHandler AccountRow := do
  let row ← orThrow (row.filter fun r =>
      r.security.passwordHash.any (crypto.verifyPassword password))
    (badRequest "Invalid email or password")
  require (row.security.isBanned = false) (forbidden "Account is banned")
  return row

/-- What `rotateRefreshSession` hands to its script. -/
def rotationOf (cfg : AuthConfig) (a : Ambient) (row : AccountRow)
    (tokenHash : String) (record : RefreshRecord)
    (session : SessionCredentials) (previous : Option AccessToken) :
    Rotation where
  userId := row.id
  familyId := record.familyId.getD tokenHash
  oldRefreshHash := tokenHash
  expectedRefreshRecord := record
  session := session
  now := a.seconds
  sessionExpiresAt := session.accessToken.expiresAt
  rotationEnabled := cfg.refreshRotationEnabled
  previousSessionId := (previous.filter fun t =>
    t.userId == row.id && t.familyId.isNone).map AccessToken.jti

namespace LoginSystem

variable (s : LoginSystem)

/-- Before any request. -/
def opening (users : Table AccountRow.id)
    (accounts : Uuid → SecurityOpening) : LoginSystem where
  auth := .opening users accounts
  phase := fun _ => .idle
  basis := fun _ => none
  vouched := []
  drawn := []
  changes := []

/-- A request goes on to its next access. -/
def goto (n : Nat) (p : LoginPhase) : LoginSystem :=
  { s with phase := Function.update s.phase n p }

/-- What let a request in is noted. -/
def restOn (n : Nat) (b : Option Basis) : LoginSystem :=
  { s with basis := Function.update s.basis n b }

/-- The pending token stands for the password of the request. -/
def vouch (n : Nat) (token : PendingJwt) : LoginSystem :=
  match s.basis n with
  | some (.password check) =>
      { s with vouched := s.vouched ++ [(token, check)] }
  | _ => s

/-- A session is signed for a request. -/
def draw (n : Nat) (userId : Uuid) (session : SessionCredentials) :
    LoginSystem :=
  { s with drawn := s.drawn ++ [⟨n, userId, session, s.changes.length⟩] }

/-- One access of a request, and where the request goes from there. -/
def perform {α : Type} (n : Nat) (x : AuthHandler α)
    (next : α → LoginSystem → LoginSystem) : LoginSystem :=
  match x s.auth with
  | (.ok v, auth) => next v { s with auth := auth }
  | (.error e, auth) => { s with auth := auth }.goto n (.answered (.error e))

/-- The answer of the rotation script, or another attempt. -/
def rotateStep (n : Nat) (a : Ambient) (user : AuthUser) (i : Rotation)
    (attempts : Nat) : LoginSystem :=
  match evalRotation a 0 i s.auth with
  | (.ok .committed, auth) =>
      { s with auth := auth }.goto n (.answered (.ok (.signedIn user i.session)))
  | (.ok .rejected, auth) =>
      { s with auth := auth }.goto n (.answered (.error refreshInvalid))
  | (.ok .capacityExceeded, auth) =>
      { s with auth := auth }.goto n (.answered (.error sessionsDown))
  | (.error e, auth) =>
      { s with auth := auth }.goto n (match attempts with
        | 0 => .answered (.error e)
        | attempts + 1 => .rotate user i attempts)

variable (crypto : AuthCrypto) (cfg : AuthConfig)

/-- The next access of a request. -/
def proceed (n : Nat) (a : Ambient) : LoginSystem :=
  match s.phase n with
  | .idle => s
  | .verifyPassword row password =>
      s.perform n (checkPassword crypto row password) fun row s => s.goto n
        (if row.security.twoFactorEnabled then .issuePending row
          else .prepare row.user none)
  | .issuePending row =>
      s.perform n
        (issueTwoFactorPendingToken a 0 row.id row.security.sessionVersion)
        fun token s => (s.vouch n token).goto n
          (.answered (.ok (.twoFactorRequired token)))
  | .migrateSecrets token row code =>
      s.perform n (write (a.fault 0) databaseDown fun s =>
        s.migrateLegacy token.identity.userId) fun _ s =>
          s.goto n (.consumeCode token row code)
  | .consumeCode token row code =>
      s.perform n (do
        let valid ← access (a.fault 0) databaseDown fun s => .ok
          (s.consumeTwoFactorCode crypto token.identity.userId code a.now)
        require (valid = true) (badRequest "Invalid two-factor code"))
        fun _ s => s.goto n (.consumePending token row)
  | .consumePending token row =>
      s.perform n (do
        let consumed ← consumeTwoFactorPendingToken a 0 token.identity.jti
        require (consumed = true)
          (badRequest "Two-factor session has expired, log in again"))
        fun _ s => s.goto n
          (.prepare row.user (some token.identity.sessionVersion))
  | .prepare user expectedSessionVersion =>
      s.perform n (prepareSessionCredentials crypto cfg a 0 user.id user.role
        expectedSessionVersion none) fun session s =>
          (s.draw n user.id session).goto n (.issue user session)
  | .issue user session =>
      s.perform n (write (a.fault 0) sessionsDown fun s => s.setStore
        (s.store.issue user.id session session.accessToken.expiresAt))
        fun _ s => s.goto n (.answered (.ok (.signedIn user session)))
  | .refreshUser tokenHash record accessToken =>
      s.perform n (do
        let row ← read (a.fault 0) databaseDown fun s => s.row? record.userId
        let row ← orThrow row (unauthorized "Account is unavailable")
        require (row.security.isBanned = false) (forbidden "Account is banned")
        require (record.sessionVersion = row.security.sessionVersion)
          refreshInvalid
        return row) fun row s =>
          s.goto n (.prepareRotation tokenHash record row accessToken)
  | .prepareRotation tokenHash record row accessToken =>
      s.perform n (do
        let session ← prepareSessionCredentials crypto cfg a 0 row.id row.role
          (some row.security.sessionVersion)
          (some (record.familyId.getD tokenHash))
        let previous ← read none databaseDown fun s =>
          accessToken.filter fun t => t ∈ s.signed
        return rotationOf cfg a row tokenHash record session previous)
        fun i s => (s.draw n row.id i.session).goto n (.rotate row.user i 1)
  | .rotate user i attempts => s.rotateStep n a user i attempts
  | .answered _ => s

end LoginSystem

-- =============================================================== events

/-- What may happen next. -/
inductive LoginEvent where
  | login (n : Nat) (email password : String) (a : Ambient)
  | twoFactorVerify (n : Nat) (twoFactorToken : PendingJwt) (code : String)
      (a : Ambient)
  | refresh (n : Nat) (refreshToken : String)
      (accessToken : Option AccessToken) (a : Ambient)
  /-- The `issueSession` of another route. -/
  | issueSession (n : Nat) (user : AuthUser)
  | proceed (n : Nat) (a : Ambient)
  | commit (c : AccountCommit)
  | revokeAll (userId : Uuid)
  | withdraw (w : Withdrawal)

/-- The accesses from the `k`-th on. -/
def Ambient.drop (a : Ambient) (k : Nat) : Ambient :=
  { a with fault := fun j => a.fault (k + j) }

namespace LoginSystem

variable (crypto : AuthCrypto) (cfg : AuthConfig)

/-- A request begins with its first access. -/
def step (s : LoginSystem) : LoginEvent → LoginSystem
  | .login n email password a =>
      match s.phase n with
      | .idle =>
          s.perform n (read (a.fault 0) databaseDown fun s =>
            s.users.rows.find? fun r => r.email = crypto.lower email)
            fun row s => (s.restOn n (row.map fun r =>
              .password ⟨r, s.changes.length⟩)).goto n
                (.verifyPassword row password)
      | _ => s
  | .twoFactorVerify n token code a =>
      match s.phase n with
      | .idle =>
          s.perform n (do
            let signed ← read none databaseDown fun s =>
              decide (token ∈ s.signedPending)
            require (signed ∧ a.seconds < token.expiresAt)
              (badRequest "Two-factor session has expired, log in again")
            let row ← read (a.fault 0) databaseDown fun s =>
              s.row? token.identity.userId
            let row ← orThrow row (badRequest "Account not found")
            require (row.security.isBanned = false)
              (forbidden "Account is banned")
            require (row.security.sessionVersion
                = token.identity.sessionVersion)
              (badRequest "Two-factor session has expired, log in again")
            return row) fun row s =>
              (s.restOn n (some (.secondFactor token))).goto n
                (.migrateSecrets token row code)
      | _ => s
  | .refresh n refreshToken accessToken a =>
      match s.phase n with
      | .idle =>
          s.perform n (do
            let record ← read (a.fault 0) sessionsDown fun s =>
              s.store.refresh (crypto.hashRefreshToken refreshToken)
            orThrow record refreshInvalid) fun record s =>
              (s.restOn n (some (.refresh record))).goto n (.refreshUser
                (crypto.hashRefreshToken refreshToken) record accessToken)
      | _ => s
  | .issueSession n user =>
      match s.phase n with
      | .idle => s.goto n (.prepare user none)
      | _ => s
  | .proceed n a => s.proceed crypto cfg n a
  | .commit c =>
      { s with
        auth := (c.apply crypto s.auth).2
        changes := s.changes ++ (c.apply crypto s.auth).1.toList }
  | .revokeAll userId =>
      { s with auth := s.auth.setStore (s.auth.store.revokeAll userId) }
  | .withdraw w => { s with auth := s.auth.withdraw w }

-- ============================================================ statements

variable (s : LoginSystem)

/-- The password check that a request goes back to. -/
inductive RestsOn : Nat → PasswordCheck → Prop where
  | password {n : Nat} {c : PasswordCheck}
      (basis : s.basis n = some (.password c)) : RestsOn n c
  | secondFactor {n : Nat} {token : PendingJwt} {c : PasswordCheck}
      (basis : s.basis n = some (.secondFactor token))
      (vouched : (token, c) ∈ s.vouched) : RestsOn n c
  | refresh {n : Nat} {d : DrawnSession} {c : PasswordCheck}
      (basis : s.basis n = some (.refresh d.record)) (drawn : d ∈ s.drawn)
      (h : RestsOn d.request c) : RestsOn n c

/-- The user's security state has changed from one moment to another. -/
def ChangedBetween (userId : Uuid) (time time' : Nat) : Prop :=
  userId ∈ (s.changes.take time').drop time

/-- The security state of the user has changed since a moment. -/
def ChangedSince (userId : Uuid) (time : Nat) : Prop :=
  userId ∈ s.changes.drop time

/-- The session has the version that came with the password hash, so no
later change leaves it accepted. -/
structure Bound (c : PasswordCheck) (d : DrawnSession) : Prop where
  version : d.session.sessionVersion = c.row.security.sessionVersion
  access : s.ChangedSince c.row.id c.time → ∀ (a : Ambient) (user : AuthUser),
    (authenticate a (some d.session.accessToken) s.auth).1 ≠ .ok user
  refresh : s.ChangedSince c.row.id c.time →
    ∀ (crypto : AuthCrypto) (cfg : AuthConfig) (a : Ambient)
      (refreshToken : String) (accessToken : Option AccessToken)
      (response : AuthResponse),
      s.auth.store.refresh (crypto.hashRefreshToken refreshToken)
        = some d.record →
      (Skrynia.refresh crypto cfg a (some refreshToken) accessToken
        s.auth).1 ≠ .ok response

-- ================================================================= alone

section Alone

variable {crypto : AuthCrypto} {cfg : AuthConfig} {s : LoginSystem} {n : Nat}
  {a : Ambient}

/-- The request is answered, and the stores are left, as by the handler. -/
structure Answers (s : LoginSystem) (n : Nat)
    (x : Except Failure AuthResponse × AuthSystem) : Prop where
  phase : s.phase n = .answered x.1
  auth : s.auth = x.2

/-- Nothing but the request `n` goes on. -/
abbrev alone (crypto : AuthCrypto) (cfg : AuthConfig) (s : LoginSystem)
    (n : Nat) (as : List Ambient) : LoginSystem :=
  run (step crypto cfg) s (as.map (.proceed n))

/-- A request that has answered makes no access. -/
theorem alone_answered {answer : Except Failure AuthResponse}
    (h : s.phase n = .answered answer) (as : List Ambient) :
    alone crypto cfg s n as = s := by
  induction as with
  | nil => rfl
  | cons a as ih =>
      have hstep : s.step crypto cfg (.proceed n a) = s := by
        show s.proceed crypto cfg n a = s
        unfold proceed
        rw [h]
      unfold alone
      rw [List.map_cons, run_cons, hstep]
      exact ih

/-- A request is where it has gone. -/
theorem phase_goto (s : LoginSystem) (n : Nat) (p : LoginPhase) :
    (s.goto n p).phase n = p := Function.update_self _ _ _

/-- The first access, and then the others. -/
theorem answers_perform {α : Type} {x : AuthHandler α}
    {next : α → LoginSystem → LoginSystem} {f : α → AuthHandler AuthResponse}
    {as : List Ambient}
    (h : ∀ v auth, Answers (alone crypto cfg (next v { s with auth := auth })
      n as) n (f v auth)) :
    Answers (alone crypto cfg (s.perform n x next) n as) n
      ((x >>= f) s.auth) := by
  unfold perform
  split
  · next v auth hx =>
      rw [bind_of_ok hx]
      exact h v auth
  · next e auth hx =>
      rw [alone_answered (phase_goto _ _ _), bind_of_error hx]
      exact ⟨phase_goto _ _ _, rfl⟩

/-- One access after the other. -/
theorem alone_cons (a : Ambient) (as : List Ambient) :
    alone crypto cfg s n (a :: as)
      = alone crypto cfg (s.proceed crypto cfg n a) n as := rfl

/-- What is left of a request that issues a session. -/
theorem issue_alone {user : AuthUser} {session : SessionCredentials}
    (h : s.phase n = .issue user session) (as : List Ambient) :
    Answers (alone crypto cfg s n (a :: as)) n
      ((do
        write (a.fault 0) sessionsDown fun s => s.setStore
          (s.store.issue user.id session session.accessToken.expiresAt)
        return .signedIn user session : AuthHandler AuthResponse) s.auth) := by
  rw [alone_cons]
  unfold proceed
  rw [h]
  apply answers_perform
  intro _ auth
  rw [alone_answered (phase_goto _ _ _)]
  exact ⟨phase_goto _ _ _, rfl⟩

/-- `issueSession`, and the answer. -/
theorem prepare_alone {user : AuthUser} {expected : Option Nat}
    (h : s.phase n = .prepare user expected) (as : List Ambient) :
    Answers (alone crypto cfg s n (a :: a.drop 1 :: as)) n
      ((do
        let session ← issueSession crypto cfg a 0 user.id user.role expected
        return .signedIn user session : AuthHandler AuthResponse) s.auth) := by
  rw [alone_cons]
  unfold proceed
  rw [h]
  unfold issueSession
  rw [bind_bind]
  apply answers_perform
  intro session auth
  rw [bind_bind]
  exact issue_alone (phase_goto _ _ _) as

/-- What is left of one that asks for a second factor. -/
theorem issuePending_alone {row : AccountRow}
    (h : s.phase n = .issuePending row) (as : List Ambient) :
    Answers (alone crypto cfg s n (a :: as)) n
      ((do
        let token ← issueTwoFactorPendingToken a 0 row.id
          row.security.sessionVersion
        return .twoFactorRequired token : AuthHandler AuthResponse)
          s.auth) := by
  rw [alone_cons]
  unfold proceed
  rw [h]
  apply answers_perform
  intro token auth
  rw [alone_answered (phase_goto _ _ _)]
  refine ⟨phase_goto _ _ _, ?_⟩
  show (LoginSystem.vouch _ n token).auth = auth
  unfold vouch
  split
  · rfl
  · rfl

/-- A wrong password ends the request. -/
theorem checkPassword_bind (row : Option AccountRow) (password : String)
    (f : AccountRow → AuthHandler AuthResponse) :
    checkPassword crypto row password >>= f = (do
      let row ← orThrow (row.filter fun r =>
          r.security.passwordHash.any (crypto.verifyPassword password))
        (badRequest "Invalid email or password")
      require (row.security.isBanned = false) (forbidden "Account is banned")
      f row) := by
  unfold checkPassword
  simp only [bind_bind, return_bind]

/-- What is left of a login once the row is read. -/
theorem verifyPassword_alone {row : Option AccountRow} {password : String}
    (h : s.phase n = .verifyPassword row password) :
    Answers (alone crypto cfg s n [a, a.drop 1, a.drop 2]) n
      ((checkPassword crypto row password >>= fun row =>
        if row.security.twoFactorEnabled then do
          let token ← issueTwoFactorPendingToken a 1 row.id
            row.security.sessionVersion
          return .twoFactorRequired token
        else do
          let session ← issueSession crypto cfg a 1 row.id row.role none
          return .signedIn row.user session) s.auth) := by
  rw [alone_cons]
  unfold proceed
  rw [h]
  apply answers_perform
  intro r auth
  by_cases hfactor : r.security.twoFactorEnabled = true
  · simp only [hfactor, if_true]
    exact issuePending_alone (phase_goto _ _ _) _
  · simp only [hfactor]
    exact prepare_alone (phase_goto _ _ _) []

/-- Left alone, the pieces of a login are the handler. -/
theorem login_alone (s : LoginSystem) (n : Nat) (email password : String)
    (a : Ambient) (hidle : s.phase n = .idle) :
    Answers (alone crypto cfg (s.step crypto cfg (.login n email password a))
      n [a, a.drop 1, a.drop 2]) n (login crypto cfg a email password s.auth) := by
  dsimp only [step]
  rw [hidle]
  apply answers_perform
  intro row auth
  rw [← checkPassword_bind]
  exact verifyPassword_alone (phase_goto _ _ _)

end Alone

end LoginSystem

end Skrynia
