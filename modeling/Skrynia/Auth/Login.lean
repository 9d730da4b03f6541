/-
The routes that issue sessions, renew them or change what they rest on.

A request is answered before the next one begins. Each of its accesses to
PostgreSQL or Redis may break off (`Ambient.fault`), before or after the
store has done its part; a parsed body is taken as given, and so is what
the server draws at random.
-/
import Skrynia.Auth.Sessions
import Skrynia.Common.Text
import Skrynia.Lib.Handler
import Skrynia.Lib.Runs

namespace Skrynia

open Relational Stepping

/-- `unauthorized`. -/
def unauthorized (message : String) : Failure := .api 401 message

-- ============================================================== requests

/-- What Telegram signs. -/
structure TelegramPayload where
  id : String
  firstName : Option String
  lastName : Option String
  username : Option String
  photoUrl : Option String
  /-- In seconds, if `Number(auth_date)` is finite. -/
  authDate : Option Int
  hash : String

/-- What the routes take from cryptography and from the database's locale. -/
structure AuthCrypto extends SecondFactorCrypto where
  verifyPassword : String → String → Bool
  hashRefreshToken : String → String
  hashToken : String → String
  lower : String → String
  /-- The hash is the one of the other fields, under the bot's token. -/
  telegramSigned : TelegramPayload → Bool

/-- The settings that are read. -/
structure AuthConfig where
  accessTokenTtlMin : Nat
  refreshRotationEnabled : Bool
  telegramBotToken : Bool

/-- What a request finds and draws. -/
structure Ambient where
  /-- In milliseconds. -/
  now : Nat
  /-- How each of its accesses goes. -/
  fault : Nat → Option Fault
  userId : Uuid
  passwordHash : String
  jti : String
  refreshToken : String
  csrfToken : String
  pendingJti : Nat
  resetToken : Nat → String
  secret : String
  backupCodeHashes : List String

/-- The routes, each with what it is given. -/
inductive AuthRequest where
  | register (email displayName : String)
  | login (email password : String)
  | twoFactorVerify (twoFactorToken : PendingJwt) (code : String)
  | telegram (input : TelegramPayload)
  | refresh (refreshToken : Option String) (accessToken : Option AccessToken)
  | passwordForgot (email : String)
  | passwordReset (token : String)
  | changePassword (accessToken : Option AccessToken)
      (currentPassword : String)
  | twoFactorSetup (accessToken : Option AccessToken)
      (reauthentication : TwoFactorReauthentication)
  | twoFactorEnable (accessToken : Option AccessToken) (code : String)
  | twoFactorDisable (accessToken : Option AccessToken)
      (reauthentication : TwoFactorReauthentication)
  | regenerateBackupCodes (accessToken : Option AccessToken)
      (reauthentication : TwoFactorReauthentication)

/-- What they answer with. -/
inductive AuthResponse where
  | signedIn (user : AuthUser) (session : SessionCredentials)
  | twoFactorRequired (twoFactorToken : PendingJwt)
  | twoFactorSecret (secret : String)
  | rotated (session : SessionCredentials)
  | done

/-- A handler of these routes. -/
abbrev AuthHandler (α : Type) := Handler AuthSystem Failure α

open Handler

/-- What a query ends with when its connection breaks off. -/
def databaseDown : Failure := .error "Connection terminated unexpectedly"

/-- What an access to the session store ends with. -/
def sessionsDown : Failure :=
  serviceUnavailable "Sessions are unavailable right now, try again shortly"

-- ============================================================== accounts

namespace AuthSystem

variable (s : AuthSystem)

/-- A user's row is updated. -/
def updateUser (userId : Uuid) (f : AccountRow → AccountRow)
    (hf : ∀ r, (f r).id = r.id) : AuthSystem :=
  { s with users := s.users.update (fun r => r.id = userId) f hf }

/-- A user gets a new session version. -/
def bumpSessionVersion (userId : Uuid) : AuthSystem :=
  s.updateUser userId AccountRow.bumpSessionVersion fun _ => rfl

/-- `insert into users`, under the unique emails. -/
def insertUser (row : AccountRow) : Except Failure (AccountRow × AuthSystem) :=
  if ∃ r ∈ s.users.rows, r.email = row.email then
    .error (.violation "users_email_key")
  else
    match s.users.insert? row with
    | none => .error (.violation "users_pkey")
    | some users => .ok (row, { s with users := users })

/-- The upsert of a Telegram login. -/
def upsertTelegram (id : Uuid) (input : TelegramPayload) :
    Except Failure (AccountRow × AuthSystem) :=
  let displayName := (input.username.or input.firstName).getD input.id
  match s.users.rows.find? fun r => r.telegramId = some input.id with
  | some r =>
      .ok ({ r with displayName := displayName },
        s.updateUser r.id (fun r => { r with displayName := displayName })
          fun _ => rfl)
  | none =>
      s.insertUser (.inserted id ("tg_" ++ input.id ++ "@telegram.local") none
        displayName (some input.id))

/-- The authenticator of a user, with its history. -/
def setMethod (userId : Uuid) (v : MethodVersion) : AuthSystem :=
  { s with method := Function.update s.method userId v }

/-- The backup codes of a user, with their history. -/
def setCodes (userId : Uuid) (v : CodesVersion) : AuthSystem :=
  { s with codes := Function.update s.codes userId v }

-- ========================================================= second factors

/-- `migrateLegacyTwoFactorSecrets`, of one user. -/
def migrateLegacy (userId : Uuid) : AuthSystem :=
  s.setMethod userId (s.method userId).migrate

/-- `consumeTwoFactorCode`. -/
def consumeTwoFactorCode (crypto : AuthCrypto) (userId : Uuid)
    (code : String) (now : Timestamp) : Bool × AuthSystem :=
  match (s.method userId).activeSecret with
  | none => (false, s)
  | some secret =>
      match matchTotpCounter crypto.toSecondFactorCrypto secret code now with
      | some counter =>
          if (s.method userId).Advances counter then
            (true, s.setMethod userId ((s.method userId).accept counter))
          else (false, s)
      | none =>
          let normalizedCode := crypto.normalize code
          if ¬ isBackupCode normalizedCode then (false, s)
          else
            match (s.codes userId).rows.find? fun r =>
                r.usedAt.isNone && crypto.compare normalizedCode r.codeHash with
            | none => (false, s)
            | some r =>
                (true, s.setCodes userId ((s.codes userId).accept r.id now))

/-- `requireReauthentication`, with what a code changes. -/
def reauthenticate (crypto : AuthCrypto) (row : AccountRow)
    (input : TwoFactorReauthentication) (now : Timestamp) :
    Except Failure AuthSystem :=
  if input.currentPassword = none ∧ input.totpCode = none then
    .error (badRequest
      "Confirm this action with your current password or authenticator code")
  else
    match requireReauthentication crypto.verifyPassword row.security input with
    | .passed => .ok s
    | .consume code =>
        if (s.consumeTwoFactorCode crypto row.id code now).1 then
          .ok (s.consumeTwoFactorCode crypto row.id code now).2
        else
          .error (badRequest
            "Current password or authenticator code is incorrect")
    | .refused =>
        .error (badRequest
          "Current password or authenticator code is incorrect")

/-- `selectUserForSecurityAction`. -/
def securityRow (userId : Uuid) : Except Failure AccountRow :=
  match s.row? userId with
  | none => .error (badRequest "Account not found")
  | some row => .ok row

/-- An enabled second factor is replaced only after a confirmation. -/
def confirmReplacement (crypto : AuthCrypto) (row : AccountRow)
    (input : TwoFactorReauthentication) (now : Timestamp) :
    Except Failure AuthSystem :=
  if row.security.twoFactorEnabled then s.reauthenticate crypto row input now
  else .ok s

/-- The transaction of `setupTwoFactor`. -/
def setupTwoFactor (crypto : AuthCrypto) (a : Ambient) (userId : Uuid)
    (input : TwoFactorReauthentication) : Except Failure (Unit × AuthSystem) := do
  let row ← s.securityRow userId
  let s' ← s.confirmReplacement crypto row input a.now
  return ((), s'.setMethod userId
    ((s'.method userId).setPending a.secret a.now))

/-- The transaction of `confirmTwoFactor`: the setup had expired, or the
second factor is on. -/
def confirmTwoFactor (crypto : AuthCrypto) (a : Ambient) (userId : Uuid)
    (code : String) : Except Failure (Bool × AuthSystem) := do
  let _ ← s.securityRow userId
  match (s.method userId).row.bind fun r =>
      r.pendingSecret.bind fun secret =>
        r.pendingCreatedAt.map fun since => (secret, since) with
  | none => .error (badRequest "Start 2FA setup first")
  | some (secret, since) =>
      if since + pendingSecretTtlMs < a.now then
        return (true, s.setMethod userId (s.method userId).clearPending)
      else
        match matchTotpCounter crypto.toSecondFactorCrypto secret code
            a.now with
        | none => .error (badRequest "Invalid code")
        | some counter =>
            return (false, (((s.setCodes userId
              ((s.codes userId).regenerate a.backupCodeHashes)).setMethod
                userId ((s.method userId).confirm secret counter a.now)
              ).updateUser userId (fun r => { r with
                security := { r.security with twoFactorEnabled := true } })
                  fun _ => rfl).bumpSessionVersion userId)

/-- The transaction of `regenerateTwoFactorBackupCodes`. -/
def regenerateBackupCodes (crypto : AuthCrypto) (a : Ambient)
    (userId : Uuid) (input : TwoFactorReauthentication) :
    Except Failure (Unit × AuthSystem) := do
  let row ← s.securityRow userId
  if row.security.twoFactorEnabled = false then
    .error (badRequest "Two-factor authentication is not enabled")
  else
    let s' ← s.reauthenticate crypto row input a.now
    if (s'.method userId).activeSecret.isNone then
      .error (badRequest "Two-factor authentication is not configured")
    else
      return ((), (s'.setCodes userId ((s'.codes userId).regenerate
        a.backupCodeHashes)).bumpSessionVersion userId)

/-- The transaction of `disableTwoFactor`. -/
def disableTwoFactor (crypto : AuthCrypto) (a : Ambient) (userId : Uuid)
    (input : TwoFactorReauthentication) : Except Failure (Unit × AuthSystem) := do
  let row ← s.securityRow userId
  if row.security.twoFactorEnabled = false then
    .error (badRequest "Two-factor authentication is not enabled")
  else
    let s' ← s.reauthenticate crypto row input a.now
    return ((), (((s'.setCodes userId ((s'.codes userId).regenerate
      [])).setMethod userId (s'.method userId).remove).updateUser userId
        (fun r => { r with
          security := { r.security with twoFactorEnabled := false } })
            fun _ => rfl).bumpSessionVersion userId)

-- ============================================================= passwords

/-- The guarded UPDATE of a new password. -/
def writePassword (row : AccountRow) (guard : AccountRow → Prop)
    [DecidablePred guard] (passwordHash : String) : Bool × AuthSystem :=
  if guard row then
    (true, s.updateUser row.id (fun r => { r with
      security := { r.security with
        passwordHash := some passwordHash
        sessionVersion := r.security.sessionVersion + 1 }
      passwordGeneration := r.passwordGeneration + 1 }) fun _ => rfl)
  else (false, s)

/-- The epoch of a new reset token: the row after the UPDATE. -/
def openReset (crypto : AuthCrypto) (expected : AccountRow) :
    Except Failure (AccountRow × AuthSystem) :=
  let expectedEmail := crypto.lower (jsTrim expected.email)
  match (s.row? expected.id).filter fun r =>
      crypto.lower r.email = expectedEmail with
  | none => .error (badRequest "Account is unavailable")
  | some r =>
      .ok ({ r with passwordGeneration := r.passwordGeneration + 1 },
        s.updateUser r.id (fun r => { r with
          passwordGeneration := r.passwordGeneration + 1 }) fun _ => rfl)

end AuthSystem

-- ============================================================== sessions

section Handlers

variable (crypto : AuthCrypto) (cfg : AuthConfig) (a : Ambient)

/-- In seconds. -/
def Ambient.seconds : Nat := a.now / 1000

/-- The credentials that are drawn for a user. -/
def drawCredentials (userId : Uuid) (role : Role) (sessionVersion : Nat)
    (familyId : Option String) : SessionCredentials where
  accessToken := {
    userId := userId
    role := role
    jti := a.jti
    sessionVersion := some sessionVersion
    familyId := some (familyId.getD (crypto.hashRefreshToken a.refreshToken))
    expiresAt := a.seconds + cfg.accessTokenTtlMin * 60 }
  refreshToken := a.refreshToken
  csrfToken := a.csrfToken
  jti := a.jti
  sessionVersion := sessionVersion
  familyId := familyId.getD (crypto.hashRefreshToken a.refreshToken)
  refreshHash := crypto.hashRefreshToken a.refreshToken

/-- `k` is the first of the accesses it makes. -/
def prepareSessionCredentials (k : Nat) (userId : Uuid) (role : Role)
    (expectedSessionVersion : Option Nat) (familyId : Option String) :
    AuthHandler SessionCredentials := do
  let row ← read (a.fault k) databaseDown fun s => s.row? userId
  let row ← orThrow row (unauthorized "Account is unavailable")
  require (∀ v ∈ expectedSessionVersion, v = row.security.sessionVersion)
    (unauthorized "Authentication state changed, log in again")
  let session := drawCredentials crypto cfg a userId role
    row.security.sessionVersion familyId
  locally fun s => { s with signed := s.signed ++ [session.accessToken] }
  return session

/-- `issueSession`: prepared first, then stored. -/
def issueSession (k : Nat) (userId : Uuid) (role : Role)
    (expectedSessionVersion : Option Nat) :
    AuthHandler SessionCredentials := do
  let session ← prepareSessionCredentials crypto cfg a k userId role
    expectedSessionVersion none
  write (a.fault (k + 1)) sessionsDown fun s =>
    s.setStore (s.store.issue userId session session.accessToken.expiresAt)
  return session

/-- One evaluation of the rotation script. -/
def evalRotation (k : Nat) (i : Rotation) : AuthHandler RotationReply :=
  access (a.fault k) sessionsDown fun s =>
    .ok ((s.store.rotate i).1, s.setStore (s.store.rotate i).2)

/-- `rotateRefreshSession`: the new session takes the place of the old one,
or nothing is stored. -/
def rotateRefreshSession (k : Nat) (user : AccountRow) (familyId : String)
    (oldRefreshHash : String) (expectedRefreshRecord : RefreshRecord)
    (previousAccessToken : Option AccessToken) :
    AuthHandler (Option SessionCredentials) := do
  let session ← prepareSessionCredentials crypto cfg a k user.id user.role
    (some user.security.sessionVersion) (some familyId)
  -- The signature is checked, the expiry is not.
  let previous ← read none databaseDown fun s =>
    previousAccessToken.filter fun t => t ∈ s.signed
  let i : Rotation := {
    userId := user.id
    familyId := familyId
    oldRefreshHash := oldRefreshHash
    expectedRefreshRecord := expectedRefreshRecord
    session := session
    now := a.seconds
    sessionExpiresAt := session.accessToken.expiresAt
    rotationEnabled := cfg.refreshRotationEnabled
    previousSessionId := (previous.filter fun t =>
      t.userId == user.id && t.familyId.isNone).map AccessToken.jti }
  let reply ← orElse (evalRotation a (k + 1) i) (evalRotation a (k + 2) i)
  match reply with
  | .committed => return some session
  | .rejected => return none
  | .capacityExceeded => throw sessionsDown

/-- What fails is only logged. -/
def revokeAllUserSessions (k : Nat) (userId : Uuid) : AuthHandler PUnit :=
  orElse
    (write (a.fault k) sessionsDown fun s =>
      s.setStore (s.store.revokeAll userId))
    (pure PUnit.unit)

/-- All sessions of the user end, and one new begins. -/
def rotateSecuritySession (k : Nat) (user : AuthUser) :
    AuthHandler SessionCredentials := do
  revokeAllUserSessions a k user.id
  issueSession crypto cfg a (k + 1) user.id user.role none

/-- `isSessionRevoked`. -/
def sessionRevoked (t : AccessToken) (s : AuthSystem) : Bool :=
  (s.store.session t.jti).isNone || s.store.sessionRevoked t.jti
    || t.familyId.any fun f => s.store.family f != some ⟨true, t.userId⟩

/-- Uses two accesses. -/
def authenticate (token : Option AccessToken) : AuthHandler AuthUser := do
  let token ← orThrow token (unauthorized "Missing access token")
  let signed ← read none databaseDown fun s => decide (token ∈ s.signed)
  require (signed ∧ a.seconds < token.expiresAt)
    (unauthorized "Invalid access token")
  let revoked ← read (a.fault 0)
    (serviceUnavailable "Session verification is temporarily unavailable")
    fun s => sessionRevoked token s
  require (revoked = false) (unauthorized "Session expired")
  let row ← read (a.fault 1) (unauthorized "Invalid access token")
    fun s => s.row? token.userId
  let row ← orThrow row (unauthorized "Invalid access token")
  require (row.security.isBanned = false) (forbidden "Account is banned")
  require (token.sessionVersion.getD 1 = row.security.sessionVersion)
    (unauthorized "Session expired")
  return row.user

-- ================================================================ routes

/-- POST /auth/register. -/
def register (email displayName : String) : AuthHandler AuthResponse := do
  let row ← access (a.fault 0) databaseDown fun s =>
    s.insertUser (.inserted a.userId (crypto.lower email)
      (some a.passwordHash) displayName none)
  let session ← issueSession crypto cfg a 1 row.id row.role none
  return .signedIn row.user session

/-- `issueTwoFactorPendingToken`. -/
def issueTwoFactorPendingToken (k : Nat) (userId : Uuid)
    (sessionVersion : Nat) : AuthHandler PendingJwt := do
  write (a.fault k) (serviceUnavailable
    "Authentication is unavailable right now, try again shortly") fun s =>
      s.setStore { s.store with
        pending := Function.update s.store.pending a.pendingJti true }
  let token : PendingJwt :=
    ⟨⟨a.pendingJti, userId, sessionVersion⟩, a.seconds + 5 * 60⟩
  locally fun s => { s with signedPending := s.signedPending ++ [token] }
  return token

/-- POST /auth/login. -/
def login (email password : String) : AuthHandler AuthResponse := do
  let row ← read (a.fault 0) databaseDown fun s =>
    s.users.rows.find? fun r => r.email = crypto.lower email
  let row ← orThrow (row.filter fun r =>
      r.security.passwordHash.any (crypto.verifyPassword password))
    (badRequest "Invalid email or password")
  require (row.security.isBanned = false) (forbidden "Account is banned")
  if row.security.twoFactorEnabled then do
    let token ← issueTwoFactorPendingToken a 1 row.id
      row.security.sessionVersion
    return .twoFactorRequired token
  else do
    let session ← issueSession crypto cfg a 1 row.id row.role none
    return .signedIn row.user session

/-- Uses two accesses. -/
def verifyTwoFactorCode (k : Nat) (userId : Uuid) (code : String) :
    AuthHandler Bool := do
  write (a.fault k) databaseDown fun s => s.migrateLegacy userId
  access (a.fault (k + 1)) databaseDown fun s =>
    .ok (s.consumeTwoFactorCode crypto userId code a.now)

/-- `consumeTwoFactorPendingToken`: whether the token was still there. -/
def consumeTwoFactorPendingToken (k : Nat) (jti : Nat) : AuthHandler Bool :=
  access (a.fault k) (serviceUnavailable
    "Authentication is unavailable right now, try again shortly") fun s =>
      .ok (s.store.pending jti, s.setStore (s.store.consumePending jti))

/-- POST /auth/2fa/verify. -/
def twoFactorVerify (token : PendingJwt) (code : String) :
    AuthHandler AuthResponse := do
  let signed ← read none databaseDown fun s => decide (token ∈ s.signedPending)
  require (signed ∧ a.seconds < token.expiresAt)
    (badRequest "Two-factor session has expired, log in again")
  let row ← read (a.fault 0) databaseDown fun s =>
    s.row? token.identity.userId
  let row ← orThrow row (badRequest "Account not found")
  require (row.security.isBanned = false) (forbidden "Account is banned")
  require (row.security.sessionVersion = token.identity.sessionVersion)
    (badRequest "Two-factor session has expired, log in again")
  let valid ← verifyTwoFactorCode crypto a 1 token.identity.userId code
  require (valid = true) (badRequest "Invalid two-factor code")
  let consumed ← consumeTwoFactorPendingToken a 3 token.identity.jti
  require (consumed = true)
    (badRequest "Two-factor session has expired, log in again")
  let session ← issueSession crypto cfg a 4 row.id row.role
    (some token.identity.sessionVersion)
  return .signedIn row.user session

/-- `MAX_AUTH_AGE_SECONDS`: a day. -/
def maxAuthAgeSeconds : Nat := 24 * 60 * 60

/-- `verifyTelegramAuth`. -/
def verifyTelegramAuth (input : TelegramPayload) : Except Failure Unit :=
  if cfg.telegramBotToken = false then
    .error (badRequest "Telegram login is not configured on this server")
  else if crypto.telegramSigned input = false then
    .error (badRequest "Invalid Telegram login signature")
  else
    let ageMs := input.authDate.map fun authDate =>
      (a.now : Int) - authDate * 1000
    if ageMs.any fun (age : Int) =>
        age ≤ maxAuthAgeSeconds * 1000 ∧ (-60 : Int) * 1000 ≤ age then .ok ()
    else .error (badRequest "Telegram login data has expired")

/-- POST /auth/telegram. -/
def telegram (input : TelegramPayload) : AuthHandler AuthResponse :=
  match verifyTelegramAuth crypto cfg a input with
  | .error e => throw e
  | .ok () => do
      let row ← access (a.fault 0) databaseDown fun s =>
        s.upsertTelegram a.userId input
      let session ← issueSession crypto cfg a 1 row.id row.role none
      return .signedIn row.user session

/-- What every refused refresh is answered with. -/
def refreshInvalid : Failure :=
  unauthorized "Refresh token is invalid or expired"

/-- POST /auth/refresh. -/
def refresh (refreshToken : Option String)
    (accessToken : Option AccessToken) : AuthHandler AuthResponse := do
  let refreshToken ← orThrow refreshToken
    (unauthorized "Missing refresh token")
  let tokenHash := crypto.hashRefreshToken refreshToken
  let record ← read (a.fault 0) sessionsDown fun s =>
    s.store.refresh tokenHash
  let record ← orThrow record refreshInvalid
  let row ← read (a.fault 1) databaseDown fun s => s.row? record.userId
  let row ← orThrow row (unauthorized "Account is unavailable")
  require (row.security.isBanned = false) (forbidden "Account is banned")
  require (record.sessionVersion = row.security.sessionVersion) refreshInvalid
  let session ← rotateRefreshSession crypto cfg a 2 row
    (record.familyId.getD tokenHash) tokenHash record accessToken
  let session ← orThrow session refreshInvalid
  return .signedIn row.user session

-- ============================================================= passwords

/-- `issuePasswordResetToken`, once the epoch is committed: attempt `n` of
two. -/
def storeResetToken (record : PasswordResetTokenRecord) (n : Nat) :
    AuthHandler Int :=
  access (a.fault (2 + n)) sessionsDown fun s =>
    .ok ((s.store.issueReset record (crypto.hashToken (a.resetToken n))).1,
      s.setStore
        (s.store.issueReset record (crypto.hashToken (a.resetToken n))).2)

/-- The answer is the same whether or not the account exists, and whether
or not the token was stored. -/
def passwordForgot (email : String) : AuthHandler AuthResponse := do
  let row ← read (a.fault 0) databaseDown fun s =>
    s.users.rows.find? fun r => r.email = crypto.lower email
  match row with
  | none => return .done
  | some row =>
      orElse (do
        let row ← access (a.fault 1) databaseDown fun s =>
          s.openReset crypto row
        let record : PasswordResetTokenRecord := {
          userId := row.id
          expectedEmail := crypto.lower (jsTrim row.email)
          emailGeneration := row.emailGeneration
          passwordGeneration := row.passwordGeneration
          expiresAt := a.now + 60 * 60 * 1000 }
        -- The identity is read again after this; no other request has
        -- changed it.
        let stored ← storeResetToken crypto a record 0
        if stored = 0 then
          let _ ← storeResetToken crypto a record 1
          return .done
        else return .done)
        (pure .done)

/-- What every refused reset is answered with. -/
def resetInvalid : Failure :=
  badRequest "Reset link is invalid or expired"

/-- POST /auth/password/reset. -/
def passwordReset (token : String) : AuthHandler AuthResponse := do
  let reset ← access (a.fault 0) (serviceUnavailable
    "Security links are temporarily unavailable") fun s =>
      .ok ((s.store.consumeReset (crypto.hashToken token) a.now).1,
        s.setStore (s.store.consumeReset (crypto.hashToken token) a.now).2)
  let reset ← orThrow reset resetInvalid
  let updated ← access (a.fault 1) databaseDown fun s =>
    match s.row? reset.userId with
    | none => .ok (false, s)
    | some row =>
        .ok (s.writePassword row (fun r =>
          r.passwordGeneration = reset.passwordGeneration
            ∧ r.emailGeneration = reset.emailGeneration
            ∧ crypto.lower r.email = reset.expectedEmail) a.passwordHash)
  require (updated = true) resetInvalid
  revokeAllUserSessions a 2 reset.userId
  return .done

/-- The route `/me/password`: the current password is checked first. -/
def changePassword (accessToken : Option AccessToken)
    (currentPassword : String) : AuthHandler AuthResponse := do
  let user ← authenticate a accessToken
  let row ← read (a.fault 2) databaseDown fun s => s.row? user.id
  let row ← orThrow (row.filter fun r => r.security.passwordHash.isSome)
    (badRequest "Password login is not enabled for this account")
  require (row.security.passwordHash.any
    (crypto.verifyPassword currentPassword))
    (badRequest "Current password is incorrect")
  let updated ← access (a.fault 3) databaseDown fun s =>
    match s.row? user.id with
    | none => .ok (false, s)
    | some current =>
        .ok (s.writePassword current (fun r =>
          r.passwordGeneration = row.passwordGeneration
            ∧ r.security.passwordHash = row.security.passwordHash)
              a.passwordHash)
  require (updated = true) (badRequest "Current password is incorrect")
  let session ← rotateSecuritySession crypto cfg a 4 user
  return .rotated session

-- ========================================================= second factors

/-- The route `/me/2fa/setup`. -/
def twoFactorSetup (accessToken : Option AccessToken)
    (reauthentication : TwoFactorReauthentication) :
    AuthHandler AuthResponse := do
  let user ← authenticate a accessToken
  write (a.fault 2) databaseDown fun s => s.migrateLegacy user.id
  access (a.fault 3) databaseDown fun s =>
    s.setupTwoFactor crypto a user.id reauthentication
  return .twoFactorSecret a.secret

/-- The route `/me/2fa/enable`. -/
def twoFactorEnable (accessToken : Option AccessToken) (code : String) :
    AuthHandler AuthResponse := do
  let user ← authenticate a accessToken
  write (a.fault 2) databaseDown fun s => s.migrateLegacy user.id
  let expired ← access (a.fault 3) databaseDown fun s =>
    s.confirmTwoFactor crypto a user.id code
  require (expired = false)
    (badRequest "Two-factor setup expired; start setup again")
  -- `createNotification`
  write (a.fault 4) databaseDown id
  let session ← rotateSecuritySession crypto cfg a 5 user
  return .rotated session

/-- The route `/me/2fa/disable`. -/
def twoFactorDisable (accessToken : Option AccessToken)
    (reauthentication : TwoFactorReauthentication) :
    AuthHandler AuthResponse := do
  let user ← authenticate a accessToken
  write (a.fault 2) databaseDown fun s => s.migrateLegacy user.id
  access (a.fault 3) databaseDown fun s =>
    s.disableTwoFactor crypto a user.id reauthentication
  write (a.fault 4) databaseDown id
  let session ← rotateSecuritySession crypto cfg a 5 user
  return .rotated session

/-- The route `/me/2fa/backup-codes/regenerate`. -/
def regenerateBackupCodes (accessToken : Option AccessToken)
    (reauthentication : TwoFactorReauthentication) :
    AuthHandler AuthResponse := do
  let user ← authenticate a accessToken
  write (a.fault 2) databaseDown fun s => s.migrateLegacy user.id
  access (a.fault 3) databaseDown fun s =>
    s.regenerateBackupCodes crypto a user.id reauthentication
  let session ← rotateSecuritySession crypto cfg a 4 user
  return .rotated session

/-- The handler of each route. -/
def handle : AuthRequest → AuthHandler AuthResponse
  | .register email displayName => register crypto cfg a email displayName
  | .login email password => login crypto cfg a email password
  | .twoFactorVerify token code => twoFactorVerify crypto cfg a token code
  | .telegram input => telegram crypto cfg a input
  | .refresh refreshToken accessToken =>
      refresh crypto cfg a refreshToken accessToken
  | .passwordForgot email => passwordForgot crypto a email
  | .passwordReset token => passwordReset crypto a token
  | .changePassword accessToken currentPassword =>
      changePassword crypto cfg a accessToken currentPassword
  | .twoFactorSetup accessToken reauthentication =>
      twoFactorSetup crypto a accessToken reauthentication
  | .twoFactorEnable accessToken code =>
      twoFactorEnable crypto cfg a accessToken code
  | .twoFactorDisable accessToken reauthentication =>
      twoFactorDisable crypto cfg a accessToken reauthentication
  | .regenerateBackupCodes accessToken reauthentication =>
      regenerateBackupCodes crypto cfg a accessToken reauthentication

end Handlers

-- ================================================================ events

/-- A request, or what else happens to accounts and sessions. -/
inductive AuthEvent where
  | request (r : AuthRequest) (a : Ambient)
  /-- PATCH /admin/users/:id. -/
  | patchUser (userId : Uuid) (role : Option Role) (isBanned : Option Bool)
  /-- After a ban, or a new role. -/
  | revokeAll (userId : Uuid)
  | withdraw (w : Withdrawal)

/-- A ban, or another role, is a new session version. -/
def AccountRow.patched (role : Option Role) (isBanned : Option Bool)
    (r : AccountRow) : AccountRow :=
  let patched := { r with
    role := role.getD r.role
    security := { r.security with
      isBanned := isBanned.getD r.security.isBanned } }
  if (isBanned = some true ∧ r.security.isBanned = false)
      ∨ ∃ x ∈ role, x ≠ r.role then
    patched.bumpSessionVersion
  else patched

/-- A patch changes no id. -/
theorem AccountRow.patched_id (role : Option Role) (isBanned : Option Bool)
    (r : AccountRow) : (r.patched role isBanned).id = r.id := by
  unfold AccountRow.patched
  dsimp only
  split
  · rfl
  · rfl

/-- One event. -/
def AuthSystem.step (crypto : AuthCrypto) (cfg : AuthConfig)
    (s : AuthSystem) : AuthEvent → AuthSystem
  | .request r a => (handle crypto cfg a r s).2
  | .patchUser userId role isBanned =>
      s.updateUser userId (AccountRow.patched role isBanned)
        (AccountRow.patched_id role isBanned)
  | .revokeAll userId => s.setStore (s.store.revokeAll userId)
  | .withdraw w => s.withdraw w

end Skrynia
