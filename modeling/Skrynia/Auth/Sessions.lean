/-
Accounts, and the sessions that Redis knows of them.

# Families

A login starts a family: a refresh token and an access token, which each
rotation renews under the same family id. Redis has a key for every access
session, one for every refresh token and one fence for every family; an
access token itself is signed and carries its session, its family and the
session version of the user's row. A credential is worth something as long
as all of these agree (`AccessLive`, `RefreshLive`).

A refresh record stands for the text that is stored, as
`parseRefreshRecord` reads it. Keys vanish when their time is up; that is
an event of its own (`Withdrawal`), and no operation here looks at a TTL.
-/
import Skrynia.Auth.TwoFactor
import Skrynia.Auth.SecondFactor
import Skrynia.Lib.Table

namespace Skrynia

open Relational

-- ============================================================== accounts

/-- The columns of `users` that authentication reads and writes. -/
structure AccountRow where
  id : Uuid
  email : String
  displayName : String
  role : Role
  telegramId : Option String
  emailVerifiedAt : Option Timestamp
  security : UserSecurity
  emailGeneration : Nat
  passwordGeneration : Nat

/-- The user of a response, and of a request that is authenticated. -/
structure AuthUser where
  id : Uuid
  email : String
  displayName : String
  role : Role
  emailVerified : Bool

namespace AccountRow

variable (r : AccountRow)

/-- What is told of a user. -/
def user : AuthUser where
  id := r.id
  email := r.email
  displayName := r.displayName
  role := r.role
  emailVerified := r.emailVerifiedAt.isSome || r.telegramId.isSome

/-- A row with the defaults of the schema. -/
def inserted (id : Uuid) (email : String) (passwordHash : Option String)
    (displayName : String) (telegramId : Option String) : AccountRow where
  id := id
  email := email
  displayName := displayName
  role := .user
  telegramId := telegramId
  emailVerifiedAt := none
  security := {
    passwordHash := passwordHash
    twoFactorEnabled := false
    sessionVersion := 1
    isBanned := false }
  emailGeneration := 1
  passwordGeneration := 1

/-- The row with a new session version. -/
def bumpSessionVersion : AccountRow :=
  { r with security := r.security.bumpSessionVersion }

end AccountRow

-- =========================================================== credentials

/-- What an access token says, under the server's signature. Tokens from
before the rollout of either have no session version or no family. -/
structure AccessToken where
  userId : Uuid
  role : Role
  jti : String
  sessionVersion : Option Nat
  familyId : Option String
  expiresAt : Nat
deriving DecidableEq

/-- What Redis has of a refresh token. -/
structure RefreshRecord where
  userId : Uuid
  sessionVersion : Nat
  familyId : Option String
deriving DecidableEq

/-- The fence of a family. -/
structure FamilyRecord where
  active : Bool
  userId : Uuid
deriving DecidableEq

/-- What is drawn for a session. -/
structure SessionCredentials where
  accessToken : AccessToken
  refreshToken : String
  csrfToken : String
  jti : String
  sessionVersion : Nat
  familyId : String
  refreshHash : String

/-- The pending token of a login, and when it expires. -/
structure PendingJwt where
  identity : PendingToken
  expiresAt : Nat
deriving DecidableEq

/-- What Redis has of a reset link. -/
structure PasswordResetTokenRecord where
  userId : Uuid
  expectedEmail : String
  emailGeneration : Nat
  passwordGeneration : Nat
  expiresAt : Nat
deriving DecidableEq

-- ================================================================= redis

/-- The keys of Redis, by what follows their prefix. -/
structure SessionStore where
  session : String → Option Uuid
  sessionRevoked : String → Bool
  refresh : String → Option RefreshRecord
  family : String → Option FamilyRecord
  familyFor : String → Option String
  /-- A sorted set, with its scores. -/
  familySessions : String → List (String × Nat)
  familyTokens : String → List String
  /-- `session_family:`. -/
  sessionFamily : String → Option String
  userSessions : Uuid → List String
  userRefresh : Uuid → List String
  userFamilies : Uuid → List String
  rotationReceipt : String → Option String
  /-- `2fa_pending:`. -/
  pending : Nat → Bool
  passwordReset : String → Option PasswordResetTokenRecord
  /-- The generation and the token hash. -/
  passwordResetActive : Uuid → Option (Nat × String)

/-- `MAX_REFRESH_FAMILY_SESSIONS`. -/
def maxRefreshFamilySessions : Nat := 512

/-- `ZADD`: a member has one score. -/
def zadd (set : List (String × Nat)) (member : String) (score : Nat) :
    List (String × Nat) :=
  set.filter (fun x => x.1 ≠ member) ++ [(member, score)]

/-- What `rotateRefreshSession` hands to its script. -/
structure Rotation where
  userId : Uuid
  familyId : String
  oldRefreshHash : String
  expectedRefreshRecord : RefreshRecord
  session : SessionCredentials
  now : Nat
  sessionExpiresAt : Nat
  rotationEnabled : Bool
  /-- The session of an access token from before the families. -/
  previousSessionId : Option String

/-- What the script of a rotation answers. -/
inductive RotationReply where
  | rejected
  | committed
  | capacityExceeded
deriving DecidableEq

namespace SessionStore

variable (st : SessionStore)

/-- A store without keys. -/
def empty : SessionStore where
  session := fun _ => none
  sessionRevoked := fun _ => false
  refresh := fun _ => none
  family := fun _ => none
  familyFor := fun _ => none
  familySessions := fun _ => []
  familyTokens := fun _ => []
  sessionFamily := fun _ => none
  userSessions := fun _ => []
  userRefresh := fun _ => []
  userFamilies := fun _ => []
  rotationReceipt := fun _ => none
  pending := fun _ => false
  passwordReset := fun _ => none
  passwordResetActive := fun _ => none

/-- The record of a refresh token of a session. -/
def record (userId : Uuid) (session : SessionCredentials) : RefreshRecord :=
  ⟨userId, session.sessionVersion, some session.familyId⟩

/-- The MULTI of `issueSession`. -/
def issue (userId : Uuid) (session : SessionCredentials)
    (sessionExpiresAt : Nat) : SessionStore :=
  { st with
    session := Function.update st.session session.jti (some userId)
    refresh := Function.update st.refresh session.refreshHash
      (some (record userId session))
    family := Function.update st.family session.familyId
      (some ⟨true, userId⟩)
    familyFor := Function.update st.familyFor session.refreshHash
      (some session.familyId)
    familySessions := Function.update st.familySessions session.familyId
      (zadd (st.familySessions session.familyId) session.jti
        sessionExpiresAt)
    familyTokens := Function.update st.familyTokens session.familyId
      ((st.familyTokens session.familyId).insert session.refreshHash)
    userSessions := Function.update st.userSessions userId
      ((st.userSessions userId).insert session.jti)
    userRefresh := Function.update st.userRefresh userId
      ((st.userRefresh userId).insert session.refreshHash)
    userFamilies := Function.update st.userFamilies userId
      ((st.userFamilies userId).insert session.familyId) }

/-- `family.s == "active" and family.u == userId`. -/
def activeFor (record : FamilyRecord) (userId : Uuid) : Bool :=
  record.active && record.userId == userId

/-- A second attempt: the first one committed just these credentials. -/
def rotated (i : Rotation) : Bool :=
  st.rotationReceipt i.oldRefreshHash == some i.session.refreshHash
    && (st.family i.familyId).any (fun record => activeFor record i.userId)
    && st.refresh i.session.refreshHash == some (record i.userId i.session)
    && st.session i.session.jti == some i.userId

/-- The sessions of the family that are over leave its index. -/
def pruned (i : Rotation) : SessionStore :=
  let expired := (st.familySessions i.familyId).filter fun x => x.2 ≤ i.now
  { st with
    familySessions := Function.update st.familySessions i.familyId
      ((st.familySessions i.familyId).filter fun x => i.now < x.2)
    userSessions := Function.update st.userSessions i.userId
      ((st.userSessions i.userId).filter fun jti =>
        ¬ expired.any fun x => x.1 = jti) }

/-- How many sessions the index would have. -/
def projectedSessionCount (i : Rotation) : Nat :=
  let index := st.familySessions i.familyId
  let absent := fun jti => if index.any (fun x => x.1 = jti) then 0 else 1
  index.length + absent i.session.jti
    + (i.previousSessionId.map absent).getD 0

/-- An access session from before the families gets one. -/
def bridged (i : Rotation) : SessionStore :=
  match i.previousSessionId with
  | none => st
  | some jti =>
      { st with
        familySessions := Function.update st.familySessions i.familyId
          (zadd (st.familySessions i.familyId) jti i.sessionExpiresAt)
        userSessions := Function.update st.userSessions i.userId
          ((st.userSessions i.userId).insert jti)
        sessionFamily := Function.update st.sessionFamily jti
          (some i.familyId) }

/-- The presented token is used up. -/
def usedUp (i : Rotation) : SessionStore :=
  if i.rotationEnabled then
    { st with
      refresh := Function.update st.refresh i.oldRefreshHash none
      familyTokens := Function.update st.familyTokens i.familyId
        ((st.familyTokens i.familyId).erase i.oldRefreshHash)
      userRefresh := Function.update st.userRefresh i.userId
        ((st.userRefresh i.userId).erase i.oldRefreshHash) }
  else st

/-- The writes of the rotation. -/
def renewed (i : Rotation) : SessionStore :=
  { (({ st.issue i.userId i.session i.sessionExpiresAt with
        familyFor := Function.update st.familyFor i.oldRefreshHash
          (some i.familyId) } : SessionStore).bridged i).usedUp i with
    rotationReceipt := Function.update st.rotationReceipt i.oldRefreshHash
      (some i.session.refreshHash) }

/-- `ROTATE_REFRESH_SESSION_SCRIPT`. -/
def rotate (i : Rotation) : RotationReply × SessionStore :=
  if st.refresh i.oldRefreshHash ≠ some i.expectedRefreshRecord then
    (if st.rotated i then .committed else .rejected, st)
  else if (st.family i.familyId).any
      fun record => ¬ activeFor record i.userId then (.rejected, st)
  else if maxRefreshFamilySessions < (st.pruned i).projectedSessionCount i then
    (.capacityExceeded, st.pruned i)
  else (.committed, (st.pruned i).renewed i)

/-- `REVOKE_ALL_USER_SESSIONS_SCRIPT`, without an exception. -/
def revokeAll (userId : Uuid) : SessionStore :=
  { st with
    session := fun jti =>
      if jti ∈ st.userSessions userId then none else st.session jti
    refresh := fun hash =>
      if hash ∈ st.userRefresh userId then none else st.refresh hash
    family := fun f =>
      if f ∈ st.userFamilies userId then some ⟨false, userId⟩
      else st.family f
    familySessions := fun f =>
      if f ∈ st.userFamilies userId then [] else st.familySessions f
    familyTokens := fun f =>
      if f ∈ st.userFamilies userId then [] else st.familyTokens f
    userSessions := Function.update st.userSessions userId []
    userRefresh := Function.update st.userRefresh userId []
    userFamilies := Function.update st.userFamilies userId [] }

/-- GETDEL of a pending token. -/
def consumePending (jti : Nat) : SessionStore :=
  { st with pending := Function.update st.pending jti false }

/-- `ISSUE_PASSWORD_RESET_SCRIPT`, of a record under a token hash. -/
def issueReset (record : PasswordResetTokenRecord) (tokenHash : String) :
    Int × SessionStore :=
  if (st.passwordReset tokenHash).isSome then (0, st)
  else if (st.passwordResetActive record.userId).any
      fun previous => record.passwordGeneration ≤ previous.1 then (-1, st)
  else
    (1, { st with
      passwordReset := fun hash =>
        if hash = tokenHash then some record
        else if (st.passwordResetActive record.userId).any
            fun previous => previous.2 = hash then none
        else st.passwordReset hash
      passwordResetActive := Function.update st.passwordResetActive
        record.userId (some (record.passwordGeneration, tokenHash)) })

/-- `CONSUME_PASSWORD_RESET_SCRIPT`. -/
def consumeReset (tokenHash : String) (now : Nat) :
    Option PasswordResetTokenRecord × SessionStore :=
  match st.passwordReset tokenHash with
  | none => (none, st)
  | some record =>
      let isActive := (st.passwordResetActive record.userId
        == some (record.passwordGeneration, tokenHash) : Bool)
      let used := { st with
        passwordReset := Function.update st.passwordReset tokenHash none }
      let released := { used with
        passwordResetActive := Function.update st.passwordResetActive
          record.userId none }
      if record.expiresAt ≤ now then
        (none, if isActive then released else used)
      else if ¬ isActive then (none, used)
      else (some record, released)

end SessionStore

-- ================================================================ system

/-- The tables, the store, and the tokens that were signed. -/
structure AuthSystem where
  users : Table AccountRow.id
  method : Uuid → MethodVersion
  codes : Uuid → CodesVersion
  store : SessionStore
  /-- The access tokens and pending tokens signed so far. -/
  signed : List AccessToken
  signedPending : List PendingJwt

/-- Credentials that somebody gives up or that expire: a logout, the end
of a TTL. -/
structure Withdrawal where
  sessions : List String
  tombstones : List String
  refresh : List String
  families : List String
  pending : List Nat

namespace AuthSystem

variable (s : AuthSystem)

/-- The store changes. -/
def setStore (st : SessionStore) : AuthSystem := { s with store := st }

/-- The row of a user. -/
def row? (userId : Uuid) : Option AccountRow := s.users.find? userId

/-- Any accounts, and no session yet. -/
def opening (users : Table AccountRow.id)
    (accounts : Uuid → SecurityOpening) : AuthSystem where
  users := users
  method := fun u => .opening (accounts u).method
  codes := fun u => .opening (accounts u).codes
  store := .empty
  signed := []
  signedPending := []

/-- The version in the credential is the one of the user's row. -/
def Current (userId : Uuid) (version : Nat) : Prop :=
  ∃ r, s.row? userId = some r ∧ r.security.sessionVersion = version

/-- The middleware's checks of an access token, the ban apart. -/
structure AccessLive (now : Nat) (t : AccessToken) : Prop where
  signed : t ∈ s.signed
  unexpired : now < t.expiresAt
  session : (s.store.session t.jti).isSome
  unrevoked : s.store.sessionRevoked t.jti = false
  family : ∀ f, t.familyId = some f →
    s.store.family f = some ⟨true, t.userId⟩
  current : s.Current t.userId (t.sessionVersion.getD 1)

/-- The checks of a refresh, the ban apart. -/
structure RefreshLive (hash : String) (r : RefreshRecord) : Prop where
  stored : s.store.refresh hash = some r
  family : ∀ x, s.store.family (r.familyId.getD hash) = some x →
    x = ⟨true, r.userId⟩
  current : s.Current r.userId r.sessionVersion

/-- A family of a user with which one may act or refresh. -/
def FamilyLive (now : Nat) (f : String) (userId : Uuid) : Prop :=
  (∃ t, s.AccessLive now t ∧ t.userId = userId ∧ t.familyId = some f)
    ∨ ∃ hash r, s.RefreshLive hash r ∧ r.userId = userId
      ∧ r.familyId.getD hash = f

/-- Some access token of the session is accepted. -/
def SessionLive (now : Nat) (jti : String) (userId : Uuid) : Prop :=
  ∃ t, s.AccessLive now t ∧ t.userId = userId ∧ t.jti = jti

/-- Keys vanish. -/
def withdraw (w : Withdrawal) : AuthSystem :=
  s.setStore { s.store with
    session := fun jti =>
      if jti ∈ w.sessions then none else s.store.session jti
    sessionRevoked := fun jti =>
      jti ∈ w.tombstones || s.store.sessionRevoked jti
    refresh := fun hash =>
      if hash ∈ w.refresh then none else s.store.refresh hash
    family := fun f =>
      if f ∈ w.families then
        (s.store.family f).map fun record => { record with active := false }
      else s.store.family f
    pending := fun jti => jti ∉ w.pending && s.store.pending jti }

end AuthSystem

end Skrynia
