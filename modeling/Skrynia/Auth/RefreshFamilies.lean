/-
Refresh families, with the deadlines of their keys.

`Auth/Sessions` has the keys of Redis and what the scripts do to them.
Here every key also has the time it lives until (`Deadlines`), and a
script first loses what is over (`collect`): a fence that has expired no
longer fences anything. The logout is here, with the receipts it leaves.

# Time

One clock in seconds, for Redis and the server. A rotation carries the
time at which it was prepared, which may be long ago when the script
evaluates it; its script is evaluated again when no answer came.

# The system

Everybody who holds a token may refresh with it or log out, at any time
and in any order; what the server draws at random is new (`Draws`).
-/
import Skrynia.Auth.LoginSteps
import Skrynia.Lib.Expiring
import Mathlib.Tactic.MkIffOfInductiveProp

namespace Skrynia

open Expiring Stepping

-- =================================================================== keys

/-- A logout receipt: the family that is revoked, and its user. -/
structure LogoutReceipt where
  userId : Uuid
  familyId : String
deriving DecidableEq

/-- The keys of Redis, with the receipts of logouts. -/
structure FamilyStore extends SessionStore where
  logoutReceipt : String → Option LogoutReceipt

/-- Until when there is each of the keys. -/
structure Deadlines where
  session : String → Nat
  sessionRevoked : String → Nat
  refresh : String → Nat
  family : String → Nat
  familyFor : String → Nat
  familySessions : String → Nat
  familyTokens : String → Nat
  sessionFamily : String → Nat
  userSessions : Uuid → Nat
  userRefresh : Uuid → Nat
  userFamilies : Uuid → Nat
  rotationReceipt : String → Nat
  logoutReceipt : String → Nat

/-- The environment admits no shorter ones. -/
structure SessionTtls where
  accessTokenTtlMin : Nat
  refreshTokenTtlDays : Nat
  one_le_access : 1 ≤ accessTokenTtlMin
  one_le_refresh : 1 ≤ refreshTokenTtlDays

namespace SessionTtls

variable (ttls : SessionTtls)

/-- How long an access token lives, in seconds. -/
def access : Nat := ttls.accessTokenTtlMin * 60

/-- How long a refresh token lives, in seconds. -/
def refresh : Nat := ttls.refreshTokenTtlDays * 24 * 60 * 60

end SessionTtls

/-- `REFRESH_FAMILY_ALIAS_TTL_SECONDS`. -/
def refreshFamilyAliasTtlSeconds : Nat := 5 * 60

/-- `REFRESH_ROTATION_RECEIPT_TTL_SECONDS`. -/
def refreshRotationReceiptTtlSeconds : Nat := 5 * 60

/-- `LOGOUT_RECEIPT_TTL_SECONDS`: eight days. -/
def logoutReceiptTtlSeconds : Nat := 8 * 24 * 60 * 60

/-- The keys, with the times they live until. -/
structure TimedStore where
  keys : FamilyStore
  deadline : Deadlines

/-- `isSessionRevoked`. -/
def SessionStore.isSessionRevoked (st : SessionStore) (t : AccessToken) : Bool :=
  (st.session t.jti).isNone || st.sessionRevoked t.jti
    || t.familyId.any fun f => st.family f != some ⟨true, t.userId⟩

/-- What the script of a logout has done so far. -/
structure Revocation where
  store : TimedStore
  revokedSessions : List String
  revokedFamilyIds : List String

namespace TimedStore

variable (ttls : SessionTtls) (now : Nat) (st : TimedStore)

/-- The keys whose time is not up. -/
def collect : TimedStore where
  deadline := st.deadline
  keys := { st.keys with
    session := left none now st.deadline.session st.keys.session
    sessionRevoked :=
      left false now st.deadline.sessionRevoked st.keys.sessionRevoked
    refresh := left none now st.deadline.refresh st.keys.refresh
    family := left none now st.deadline.family st.keys.family
    familyFor := left none now st.deadline.familyFor st.keys.familyFor
    familySessions :=
      left [] now st.deadline.familySessions st.keys.familySessions
    familyTokens := left [] now st.deadline.familyTokens st.keys.familyTokens
    sessionFamily :=
      left none now st.deadline.sessionFamily st.keys.sessionFamily
    userSessions := left [] now st.deadline.userSessions st.keys.userSessions
    userRefresh := left [] now st.deadline.userRefresh st.keys.userRefresh
    userFamilies := left [] now st.deadline.userFamilies st.keys.userFamilies
    rotationReceipt :=
      left none now st.deadline.rotationReceipt st.keys.rotationReceipt
    logoutReceipt :=
      left none now st.deadline.logoutReceipt st.keys.logoutReceipt }

/-- The keys of a session that it has in common with a rotation. -/
def extended (userId : Uuid) (session : SessionCredentials) : Deadlines :=
  let d := st.deadline
  { d with
    session := Function.update d.session session.jti (now + ttls.access)
    refresh :=
      Function.update d.refresh session.refreshHash (now + ttls.refresh)
    family := Function.update d.family session.familyId (now + ttls.refresh)
    familySessions :=
      Function.update d.familySessions session.familyId (now + ttls.refresh)
    familyTokens :=
      Function.update d.familyTokens session.familyId (now + ttls.refresh)
    userSessions :=
      Function.update d.userSessions userId (now + ttls.refresh)
    userRefresh := Function.update d.userRefresh userId (now + ttls.refresh)
    userFamilies :=
      Function.update d.userFamilies userId (now + ttls.refresh) }

/-- The MULTI of `issueSession`. -/
def issue (userId : Uuid) (session : SessionCredentials)
    (sessionExpiresAt : Nat) : TimedStore :=
  let st := st.collect now
  { keys := { st.keys with
      toSessionStore := st.keys.toSessionStore.issue userId session
        sessionExpiresAt }
    deadline := { st.extended ttls now userId session with
      familyFor := Function.update st.deadline.familyFor session.refreshHash
        (now + refreshFamilyAliasTtlSeconds) } }

/-- The deadlines after a rotation. -/
def rotationDeadlines (i : Rotation) : Deadlines :=
  let d := st.extended ttls now i.userId i.session
  { d with
    familyFor := Function.update d.familyFor i.oldRefreshHash
      (now + refreshFamilyAliasTtlSeconds)
    sessionFamily :=
      match i.previousSessionId with
      | none => d.sessionFamily
      | some jti => Function.update d.sessionFamily jti (now + ttls.access)
    rotationReceipt := Function.update d.rotationReceipt i.oldRefreshHash
      (now + refreshRotationReceiptTtlSeconds) }

/-- `ROTATE_REFRESH_SESSION_SCRIPT`. -/
def rotate (i : Rotation) : RotationReply × TimedStore :=
  let st := st.collect now
  let reply := (st.keys.toSessionStore.rotate i).1
  let renews := reply = .committed
    ∧ st.keys.refresh i.oldRefreshHash = some i.expectedRefreshRecord
  (reply, {
    keys := { st.keys with
      toSessionStore := (st.keys.toSessionStore.rotate i).2 }
    deadline :=
      if renews then st.rotationDeadlines ttls now i else st.deadline })

/-- `REVOKE_ALL_USER_SESSIONS_SCRIPT`, without an exception. -/
def revokeAll (userId : Uuid) : TimedStore :=
  let st := st.collect now
  { keys := { st.keys with
      toSessionStore := st.keys.toSessionStore.revokeAll userId }
    deadline := { st.deadline with
      family := fun f =>
        if f ∈ st.keys.userFamilies userId then now + ttls.refresh
        else st.deadline.family f } }

-- ================================================================= logout

/-- The sessions of a family that may still be alive. -/
def liveSessions (familyId : String) : List String :=
  ((st.keys.familySessions familyId).filter fun x => now ≤ x.2).map Prod.fst

/-- The writes of `revokeFamily`, for the user of the family. -/
def fence (familyId : String) (userId : Uuid) : TimedStore :=
  let sessionIds := st.liveSessions now familyId
  let tokenHashes := st.keys.familyTokens familyId
  { keys := { st.keys with
      family := Function.update st.keys.family familyId (some ⟨false, userId⟩)
      session := fun jti =>
        if jti ∈ sessionIds then none else st.keys.session jti
      sessionRevoked := fun jti =>
        jti ∈ sessionIds || st.keys.sessionRevoked jti
      userSessions := Function.update st.keys.userSessions userId
        ((st.keys.userSessions userId).filter fun jti => jti ∉ sessionIds)
      familySessions := Function.update st.keys.familySessions familyId []
      logoutReceipt := fun hash =>
        if hash ∈ tokenHashes then some ⟨userId, familyId⟩
        else st.keys.logoutReceipt hash
      refresh := fun hash =>
        if hash ∈ tokenHashes then none else st.keys.refresh hash
      userRefresh := Function.update st.keys.userRefresh userId
        ((st.keys.userRefresh userId).filter fun hash => hash ∉ tokenHashes)
      familyTokens := Function.update st.keys.familyTokens familyId []
      userFamilies := Function.update st.keys.userFamilies userId
        ((st.keys.userFamilies userId).filter fun f => f ≠ familyId) }
    deadline := { st.deadline with
      family := Function.update st.deadline.family familyId
        (now + ttls.refresh)
      sessionRevoked := fun jti =>
        if jti ∈ sessionIds then now + ttls.refresh
        else st.deadline.sessionRevoked jti
      logoutReceipt := fun hash =>
        if hash ∈ tokenHashes then now + logoutReceiptTtlSeconds
        else st.deadline.logoutReceipt hash } }

/-- The user of a family: as its record says, or else the fallback. -/
def familyUser (familyId : String) (fallbackUserId : Option Uuid) :
    Option Uuid :=
  ((st.keys.family familyId).map FamilyRecord.userId).or fallbackUserId

/-- The presented refresh token is gone, and its user's index of it. -/
def dropRefresh (refreshHash : String) (refreshUserId : Option Uuid) :
    TimedStore :=
  { st with keys := { st.keys with
      refresh := Function.update st.keys.refresh refreshHash none
      userRefresh :=
        match refreshUserId with
        | none => st.keys.userRefresh
        | some userId => Function.update st.keys.userRefresh userId
            ((st.keys.userRefresh userId).filter
              fun hash => hash ≠ refreshHash) } }

/-- A logout leaves its receipt. -/
def writeReceipt (refreshHash : String) (receipt : LogoutReceipt) :
    TimedStore where
  keys := { st.keys with
    logoutReceipt := Function.update st.keys.logoutReceipt refreshHash
      (some receipt) }
  deadline := { st.deadline with
    logoutReceipt := Function.update st.deadline.logoutReceipt refreshHash
      (now + logoutReceiptTtlSeconds) }

/-- The session of the presented access token is gone. -/
def dropSession (sessionId : String) (userId : Uuid) : TimedStore where
  keys := { st.keys with
    session := Function.update st.keys.session sessionId none
    sessionRevoked := Function.update st.keys.sessionRevoked sessionId true
    userSessions := Function.update st.keys.userSessions userId
      ((st.keys.userSessions userId).filter fun jti => jti ≠ sessionId) }
  deadline := { st.deadline with
    sessionRevoked := Function.update st.deadline.sessionRevoked sessionId
      (now + ttls.refresh) }

end TimedStore

/-- What an access token says at a logout. -/
structure LogoutAccessIdentity where
  userId : Uuid
  sessionId : String
  familyId : Option String
  mayRevokeFamily : Bool

/-- Of a signed token, also when it has expired. -/
def parseAccessSessionForLogout (signed : List AccessToken) (now : Nat)
    (token : Option AccessToken) : Option LogoutAccessIdentity :=
  (token.filter fun t => t ∈ signed).map fun t =>
    { userId := t.userId
      sessionId := t.jti
      familyId := t.familyId
      mayRevokeFamily := now < t.expiresAt }

namespace Revocation

variable (ttls : SessionTtls) (now : Nat)

/-- A session is noted as revoked, once. -/
def rememberSession (sessionId : String) (r : Revocation) : Revocation :=
  { r with
    revokedSessions :=
      if sessionId ∈ r.revokedSessions then r.revokedSessions
      else r.revokedSessions ++ [sessionId] }

/-- The user of the family, if there is one. -/
def revokeFamily (familyId : String) (fallbackUserId : Option Uuid)
    (r : Revocation) : Option Uuid × Revocation :=
  let user := r.store.familyUser familyId fallbackUserId
  if familyId ∈ r.revokedFamilyIds then (user, r)
  else
    let r := { r with revokedFamilyIds := r.revokedFamilyIds ++ [familyId] }
    match user with
    | none => (none, r)
    | some userId =>
        let sessionIds := r.store.liveSessions now familyId
        let remembered := sessionIds.foldl (fun r jti => rememberSession jti r) r
        (some userId, { remembered with
          store := r.store.fence ttls now familyId userId })

/-- The family of a presented refresh token, and its user. -/
def refreshIdentity (refreshHash : String) (st : TimedStore) :
    Option String × Option Uuid :=
  let record := st.keys.refresh refreshHash
  let receipt := st.keys.logoutReceipt refreshHash
  let refreshUserId := (record.map RefreshRecord.userId).or
    (receipt.map LogoutReceipt.userId)
  let familyId := ((st.keys.familyFor refreshHash).or
    (record.bind RefreshRecord.familyId)).or
      (receipt.map LogoutReceipt.familyId)
  (familyId.or (refreshUserId.map fun _ => refreshHash), refreshUserId)

/-- What happens to the presented refresh token. -/
def revokeRefresh (refreshHash : String) (r : Revocation) : Revocation :=
  let identity := refreshIdentity refreshHash r.store
  let revoked : Option Uuid × Revocation :=
    match identity.1 with
    | none => (none, r)
    | some familyId => revokeFamily ttls now familyId identity.2 r
  let receipted :=
    match identity.1, revoked.1 with
    | some familyId, some userId =>
        revoked.2.store.writeReceipt now refreshHash ⟨userId, familyId⟩
    | _, _ => revoked.2.store
  { revoked.2 with store := receipted.dropRefresh refreshHash identity.2 }

/-- The family of the presented access token, while the token lasts. -/
def revokeAccessFamily (access : Option LogoutAccessIdentity)
    (r : Revocation) : Revocation :=
  match access.bind fun x => if x.mayRevokeFamily then x.familyId else none with
  | none => r
  | some familyId => (r.revokeFamily ttls now familyId (access.map (·.userId))).2

/-- The session of an access token is deleted, and noted as revoked. -/
def revokeAccess (identity : LogoutAccessIdentity) (r : Revocation) :
    Revocation :=
  rememberSession identity.sessionId { r with
    store := r.store.dropSession ttls now identity.sessionId identity.userId }

end Revocation

/-- `REVOKE_PRESENTED_SESSION_SCRIPT`. -/
def TimedStore.revokePresented (ttls : SessionTtls) (now : Nat)
    (access : Option LogoutAccessIdentity) (refreshHash : Option String)
    (st : TimedStore) : Revocation :=
  let r := (⟨st.collect now, [], []⟩ : Revocation).revokeAccessFamily ttls now
    access
  let r := refreshHash.elim r fun hash => r.revokeRefresh ttls now hash
  access.elim r fun identity => r.revokeAccess ttls now identity

-- ================================================================= system

/-- The store, the clock, and what is out: tokens, readings and rotations on
their way. -/
structure FamilySystem where
  store : TimedStore
  now : Nat
  /-- The access tokens signed so far. -/
  signed : List AccessToken
  /-- The hashes of the refresh tokens drawn so far. -/
  hashes : List String
  /-- The refresh records that requests have read. -/
  lookups : List (String × RefreshRecord)
  /-- The rotations that their script has been evaluated for. -/
  rotations : List Rotation
  /-- The presented tokens that a session was returned for. -/
  replaced : List (String × SessionCredentials)

/-- The settings that are read. -/
structure SessionConfig where
  ttls : SessionTtls
  refreshRotationEnabled : Bool

/-- What Redis has when the families are introduced, and the access tokens
that are out. -/
structure Rollout (ttls : SessionTtls) where
  now : Nat
  session : String → Option Uuid
  /-- A user and a session version. -/
  refresh : String → Option (Uuid × Nat)
  userSessions : Uuid → List String
  userRefresh : Uuid → List String
  deadline : Deadlines
  signed : List AccessToken
  hashes : List String
  signed_familyId : ∀ t ∈ signed, t.familyId = none
  mem_hashes : ∀ hash x, refresh hash = some x → hash ∈ hashes
  deadline_le : ∀ hash, deadline.refresh hash ≤ now + ttls.refresh

/-- The keys found when families are introduced. -/
def Rollout.keys {ttls : SessionTtls} (o : Rollout ttls) : FamilyStore :=
  { SessionStore.empty with
    session := o.session
    refresh := fun hash => (o.refresh hash).map fun x => ⟨x.1, x.2, none⟩
    userSessions := o.userSessions
    userRefresh := o.userRefresh
    logoutReceipt := fun _ => none }

/-- What may happen next. -/
inductive FamilyEvent where
  | tick (seconds : Nat)
  | issue (userId : Uuid) (session : SessionCredentials)
  | lookup (refreshHash : String)
  /-- The first evaluation of a rotation's script. -/
  | rotate (i : Rotation)
  /-- Another one, of the `n`-th rotation. -/
  | retry (n : Nat)
  | logout (accessToken : Option AccessToken) (refreshHash : Option String)
  | revokeAll (userId : Uuid)

namespace FamilySystem

variable (cfg : SessionConfig) (s : FamilySystem)

/-- At that moment. -/
def opening (o : Rollout cfg.ttls) : FamilySystem where
  store := ⟨o.keys, o.deadline⟩
  now := o.now
  signed := o.signed
  hashes := o.hashes
  lookups := []
  rotations := []
  replaced := []

/-- New credentials of a user: the hash and the session are in nobody's
hands, and the access token is the one that is signed. -/
@[mk_iff]
structure Draws (userId : Uuid) (session : SessionCredentials)
    (sessionExpiresAt : Nat) : Prop where
  hash : session.refreshHash ∉ s.hashes
  jti : ∀ t ∈ s.signed, t.jti ≠ session.jti
  token_userId : session.accessToken.userId = userId
  token_jti : session.accessToken.jti = session.jti
  token_familyId : session.accessToken.familyId = some session.familyId
  token_expiresAt : session.accessToken.expiresAt ≤ sessionExpiresAt

instance (userId : Uuid) (session : SessionCredentials)
    (sessionExpiresAt : Nat) :
    Decidable (s.Draws userId session sessionExpiresAt) :=
  decidable_of_iff _ (draws_iff s userId session sessionExpiresAt).symm

/-- What /auth/refresh hands to the script, having read the record. -/
@[mk_iff]
structure Prepares (i : Rotation) : Prop where
  lookup : (i.oldRefreshHash, i.expectedRefreshRecord) ∈ s.lookups
  draws : s.Draws i.userId i.session i.sessionExpiresAt
  userId : i.userId = i.expectedRefreshRecord.userId
  sessionVersion :
    i.session.sessionVersion = i.expectedRefreshRecord.sessionVersion
  familyId : i.familyId
    = i.expectedRefreshRecord.familyId.getD i.oldRefreshHash
  session_familyId : i.session.familyId = i.familyId
  now : i.now ≤ s.now
  sessionExpiresAt : i.sessionExpiresAt = i.now + cfg.ttls.access
  rotationEnabled : i.rotationEnabled = cfg.refreshRotationEnabled
  previous_signed : ∀ jti ∈ i.previousSessionId, ∃ t ∈ s.signed, t.jti = jti
  previous : ∀ t ∈ s.signed, i.previousSessionId = some t.jti →
    t.userId = i.userId ∧ t.familyId = none
      ∧ t.expiresAt ≤ i.sessionExpiresAt

instance (i : Rotation) : Decidable (s.Prepares cfg i) :=
  decidable_of_iff _ (prepares_iff cfg s i).symm

/-- The script of a rotation is evaluated. -/
def evaluate (i : Rotation) : FamilySystem :=
  let answer := s.store.rotate cfg.ttls s.now i
  { s with
    store := answer.2
    replaced :=
      if answer.1 = .committed then
        s.replaced ++ [(i.oldRefreshHash, i.session)]
      else s.replaced }

/-- The tokens of a session are drawn. -/
def sign (session : SessionCredentials) : FamilySystem :=
  { s with
    signed := s.signed ++ [session.accessToken]
    hashes := s.hashes ++ [session.refreshHash] }

/-- The script of a logout, with what it returns. -/
def revocation (accessToken : Option AccessToken)
    (refreshHash : Option String) : Revocation :=
  s.store.revokePresented cfg.ttls s.now
    (parseAccessSessionForLogout s.signed s.now accessToken) refreshHash

/-- One event. -/
def step : FamilyEvent → FamilySystem
  | .tick seconds => { s with now := s.now + seconds }
  | .issue userId session =>
      if s.Draws userId session (s.now + cfg.ttls.access)
          ∧ session.familyId = session.refreshHash then
        { s.sign session with
          store := s.store.issue cfg.ttls s.now userId session
            (s.now + cfg.ttls.access) }
      else s
  | .lookup refreshHash =>
      match (s.store.collect s.now).keys.refresh refreshHash with
      | none => s
      | some record =>
          { s with lookups := s.lookups ++ [(refreshHash, record)] }
  | .rotate i =>
      if s.Prepares cfg i then
        ({ s.sign i.session with
          rotations := s.rotations ++ [i] } : FamilySystem).evaluate cfg i
      else s
  | .retry n =>
      match s.rotations[n]? with
      | none => s
      | some i => s.evaluate cfg i
  | .logout accessToken refreshHash =>
      { s with store := (s.revocation cfg accessToken refreshHash).store }
  | .revokeAll userId =>
      { s with store := s.store.revokeAll cfg.ttls s.now userId }

/-- The keys of now. -/
def current : SessionStore := (s.store.collect s.now).keys.toSessionStore

end FamilySystem

end Skrynia
