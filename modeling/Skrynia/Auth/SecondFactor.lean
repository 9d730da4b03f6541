/-
The two-factor transactions, statement by statement, and the logins that
their acceptances lead to.

# The system

Three cells a user: the user's row, the authenticator and the backup
codes. A transaction locks a cell with the statement that reads it FOR
UPDATE or writes it, and publishes at COMMIT. Any number of transactions
of any users are under way; one that waits for a lock does not move, and
any one may abort (a deadlock, an error, a crash).

A login holds a pending token, which Redis knows as long as it is neither
redeemed nor expired. Only an accepted code leads to the redemption, and
only a redemption to a session.

# The argument

Each statement keeps what the cell it writes promises
(`MethodVersion.Sound`, `CodesVersion.Sound`) and only adds to its
history, so the published versions have the promise and lose no entry
(`Kept`). A token counts once among what Redis has, what a login is about
to use, and the sessions (`TokensOnce`).
-/
import Skrynia.Auth.TwoFactor
import Skrynia.Lib.Cell
import Skrynia.Lib.Runs

namespace Skrynia

open Relational Stepping

-- ============================================================== requests

/-- The columns of a user that second factors are about. -/
structure UserSecurity where
  passwordHash : Option String
  twoFactorEnabled : Bool
  sessionVersion : Nat
  isBanned : Bool

/-- The row with a new session version. -/
def UserSecurity.bumpSessionVersion (u : UserSecurity) : UserSecurity :=
  { u with sessionVersion := u.sessionVersion + 1 }

/-- An absent text is `none`, and so is an empty one. -/
structure TwoFactorReauthentication where
  currentPassword : Option String
  totpCode : Option String

/-- The identity in a pending token. -/
structure PendingToken where
  jti : Nat
  userId : Uuid
  sessionVersion : Nat
deriving DecidableEq

/-- The transactions. -/
inductive SecurityRequest where
  /-- `verifyTwoFactorCode`, of a login with its token or of a step-up. -/
  | verify (code : String) (login : Option PendingToken)
  | setup (secret : String) (reauthentication : TwoFactorReauthentication)
  | confirm (code : String)
  | regenerate (reauthentication : TwoFactorReauthentication)
  | disable (reauthentication : TwoFactorReauthentication)
  /-- `migrateLegacyTwoFactorSecrets`, which runs before the others. -/
  | migrate

/-- What is next. -/
inductive SecurityPhase where
  | selectUser
  /-- `consumeTwoFactorCode` begins. -/
  | selectMethod (code : String)
  | matchCode (code : String)
  | selectBackupCodes (code : String)
  | consumeBackupCode (id : Nat)
  /-- The first statement of the request's own. -/
  | write
  /-- `createBackupCodes`, after a confirmation with what it matched. -/
  | replaceCodes (confirmed : Option (String × Nat))
  | deleteMethod
  | commit (accepted : Bool)
  /-- `consumeTwoFactorPendingToken`. -/
  | redeem (token : PendingToken)
  /-- `issueSession`. -/
  | issue (token : PendingToken)

/-- A transaction under way. -/
structure SecurityTx where
  userId : Uuid
  request : SecurityRequest
  phase : SecurityPhase

/-- How `requireReauthentication` goes on. -/
inductive ReauthenticationOutcome where
  | passed
  | consume (code : String)
  | refused

/-- `requireReauthentication`: by the password, or by a code. -/
def requireReauthentication (verifyPassword : String → String → Bool)
    (user : UserSecurity) (input : TwoFactorReauthentication) :
    ReauthenticationOutcome :=
  if (input.currentPassword.any fun password =>
      user.passwordHash.any (verifyPassword password)) then .passed
  else
    match input.totpCode with
    | some code => if user.twoFactorEnabled then .consume code else .refused
    | none => .refused

-- ================================================================ system

/-- The cells of all users, the transactions, and the tokens of logins. -/
structure TwoFactorSystem where
  user : Uuid → Cell UserSecurity
  method : Uuid → Cell MethodVersion
  codes : Uuid → Cell CodesVersion
  tx : Nat → Option SecurityTx
  /-- The tokens signed so far, told apart by their position. -/
  tokens : List PendingToken
  /-- The keys `2fa_pending:<jti>` in Redis. -/
  pending : Nat → Bool
  /-- The token of every session issued for one. -/
  sessions : List Nat

/-- What may happen next. -/
inductive TwoFactorStep where
  /-- A login with a password, of a user with a second factor. -/
  | issuePending (userId : Uuid)
  | expire (jti : Nat)
  | start (n : Nat) (userId : Uuid) (request : SecurityRequest)
  | advance (n : Nat) (now : Timestamp) (hashes : List String)
  | abort (n : Nat)
  /-- Another transaction on the user's row: a new password, a ban, a
  session version. -/
  | changeUser (userId : Uuid) (passwordHash : Option String)
      (sessionVersion : Nat) (isBanned : Bool)

/-- What a user starts with. -/
structure SecurityOpening where
  user : UserSecurity
  method : Option TwoFactorMethod
  codes : List (String × Option Timestamp)

namespace TwoFactorSystem

variable (s : TwoFactorSystem)

/-- What is found in the tables at the start. -/
def opening (accounts : Uuid → SecurityOpening) : TwoFactorSystem where
  user := fun u => .settled (accounts u).user
  method := fun u => .settled (.opening (accounts u).method)
  codes := fun u => .settled (.opening (accounts u).codes)
  tx := fun _ => none
  tokens := []
  pending := fun _ => false
  sessions := []

/-- A transaction goes on, or is over. -/
def setTx (n : Nat) (t : Option SecurityTx) : TwoFactorSystem :=
  { s with tx := Function.update s.tx n t }

/-- A user's row changes. -/
def setUser (u : Uuid) (c : Cell UserSecurity) : TwoFactorSystem :=
  { s with user := Function.update s.user u c }

/-- An authenticator changes. -/
def setMethod (u : Uuid) (c : Cell MethodVersion) : TwoFactorSystem :=
  { s with method := Function.update s.method u c }

/-- A set of backup codes changes. -/
def setCodes (u : Uuid) (c : Cell CodesVersion) : TwoFactorSystem :=
  { s with codes := Function.update s.codes u c }

/-- Rolled back: the drafts are gone. -/
def rollback (n : Nat) (t : SecurityTx) : TwoFactorSystem :=
  (((s.setUser t.userId ((s.user t.userId).discard n)).setMethod t.userId
    ((s.method t.userId).discard n)).setCodes t.userId
      ((s.codes t.userId).discard n)).setTx n none

/-- A transaction goes on to another statement. -/
def goto (n : Nat) (t : SecurityTx) (p : SecurityPhase) : TwoFactorSystem :=
  s.setTx n (some { t with phase := p })

/-- A code was refused: `verifyTwoFactorCode` returns `false`, a
re-authentication throws. -/
def refuse (n : Nat) (t : SecurityTx) : TwoFactorSystem :=
  match t.request with
  | .verify _ _ => s.goto n t (.commit false)
  | _ => s.rollback n t

/-- A code was accepted. -/
def accepted (n : Nat) (t : SecurityTx) : TwoFactorSystem :=
  match t.request with
  | .verify _ _ => s.goto n t (.commit true)
  | _ => s.goto n t .write

/-- `selectUserForSecurityAction`, and what follows from the row. -/
def selectUser (verifyPassword : String → String → Bool) (n : Nat)
    (t : SecurityTx) : TwoFactorSystem :=
  match (s.user t.userId).acquire n with
  | none => s
  | some c =>
      let locked := s.setUser t.userId c
      let reauthenticated := fun reauthentication =>
        match requireReauthentication verifyPassword (c.seen n)
            reauthentication with
        | .passed => locked.goto n t .write
        | .consume code => locked.goto n t (.selectMethod code)
        | .refused => locked.rollback n t
      match t.request with
      | .setup _ reauthentication =>
          if (c.seen n).twoFactorEnabled then reauthenticated reauthentication
          else locked.goto n t .write
      | .regenerate reauthentication =>
          if (c.seen n).twoFactorEnabled then reauthenticated reauthentication
          else locked.rollback n t
      | .disable reauthentication =>
          if (c.seen n).twoFactorEnabled then reauthenticated reauthentication
          else locked.rollback n t
      | _ => locked.goto n t .write

/-- A statement that changes the authenticator, which it locks; it waits
while another transaction has it. -/
def updateMethod (n : Nat) (t : SecurityTx) (f : MethodVersion → MethodVersion)
    (next : TwoFactorSystem → TwoFactorSystem) : TwoFactorSystem :=
  match (s.method t.userId).acquire n with
  | none => s
  | some c => next (s.setMethod t.userId (c.edit n f))

/-- One that changes the backup codes. -/
def updateCodes (n : Nat) (t : SecurityTx) (f : CodesVersion → CodesVersion)
    (next : TwoFactorSystem → TwoFactorSystem) : TwoFactorSystem :=
  match (s.codes t.userId).acquire n with
  | none => s
  | some c => next (s.setCodes t.userId (c.edit n f))

/-- `select … for update` of the authenticator: a row that is not there
is not locked. -/
def lockMethod (n : Nat) (t : SecurityTx)
    (missing found : TwoFactorSystem → TwoFactorSystem) : TwoFactorSystem :=
  if (s.method t.userId).value.row.isNone then missing s
  else s.updateMethod n t id found

/-- The counter of a TOTP code is accepted, or it is no TOTP code. -/
def matchCode (crypto : SecondFactorCrypto) (n : Nat) (t : SecurityTx)
    (code : String) (now : Timestamp) : TwoFactorSystem :=
  let method := (s.method t.userId).seen n
  match method.activeSecret with
  | none => s.refuse n t
  | some secret =>
      match matchTotpCounter crypto secret code now with
      | some counter =>
          if method.Advances counter then
            s.updateMethod n t (fun v => v.accept counter)
              fun s => s.accepted n t
          else s.refuse n t
      | none =>
          if isBackupCode (crypto.normalize code) then
            s.goto n t (.selectBackupCodes (crypto.normalize code))
          else s.refuse n t

/-- The unused codes, and the first that compares. -/
def selectBackupCodes (crypto : SecondFactorCrypto) (n : Nat)
    (t : SecurityTx) (code : String) : TwoFactorSystem :=
  match ((s.codes t.userId).seen n).rows.find? fun r =>
      r.usedAt.isNone && crypto.compare code r.codeHash with
  | some r => s.goto n t (.consumeBackupCode r.id)
  | none => s.refuse n t

/-- A code is used, if it has not been meanwhile. -/
def consumeBackupCode (n : Nat) (t : SecurityTx) (id : Nat)
    (now : Timestamp) : TwoFactorSystem :=
  if ((s.codes t.userId).seen n).Unused id then
    s.updateCodes n t (fun v => v.accept id now) fun s => s.accepted n t
  else s.refuse n t

/-- The statements of the confirmation on the row it locked. -/
def confirmPending (crypto : SecondFactorCrypto) (n : Nat) (t : SecurityTx)
    (code : String) (now : Timestamp) : TwoFactorSystem :=
  match ((s.method t.userId).seen n).row.bind fun r =>
      r.pendingSecret.bind fun secret =>
        r.pendingCreatedAt.map fun since => (secret, since) with
  | none => s.rollback n t
  | some (secret, since) =>
      if since + pendingSecretTtlMs < now then
        s.updateMethod n t MethodVersion.clearPending
          fun s => s.goto n t (.commit false)
      else
        match matchTotpCounter crypto secret code now with
        | none => s.rollback n t
        | some counter => s.goto n t (.replaceCodes (some (secret, counter)))

/-- The statement that writes, by the request. -/
def write (crypto : SecondFactorCrypto) (n : Nat) (t : SecurityTx)
    (now : Timestamp) : TwoFactorSystem :=
  match t.request with
  | .setup secret _ =>
      s.updateMethod n t (fun v => v.setPending secret now)
        fun s => s.goto n t (.commit true)
  | .confirm code =>
      s.lockMethod n t (fun s => s.rollback n t)
        fun s => s.confirmPending crypto n t code now
  | .regenerate _ =>
      s.lockMethod n t (fun s => s.rollback n t) fun s =>
        if ((s.method t.userId).seen n).activeSecret.isSome then
          s.goto n t (.replaceCodes none)
        else s.rollback n t
  | .disable _ =>
      s.updateCodes n t (fun v => v.regenerate [])
        fun s => s.goto n t .deleteMethod
  | .migrate =>
      s.lockMethod n t (fun s => s.rollback n t) fun s =>
        s.updateMethod n t MethodVersion.migrate
          fun s => s.goto n t (.commit true)
  | .verify _ _ => s.rollback n t

/-- The row of the user, which the transaction has locked. -/
def updateUser (n : Nat) (t : SecurityTx)
    (f : UserSecurity → UserSecurity) : TwoFactorSystem :=
  s.setUser t.userId ((s.user t.userId).edit n f)

/-- New backup codes, and what a confirmation changes besides. -/
def replaceCodes (n : Nat) (t : SecurityTx)
    (confirmed : Option (String × Nat)) (now : Timestamp)
    (hashes : List String) : TwoFactorSystem :=
  s.updateCodes n t (fun v => v.regenerate hashes) fun s =>
    match confirmed with
    | some (secret, counter) =>
        s.updateMethod n t (fun v => v.confirm secret counter now) fun s =>
          (s.updateUser n t fun u =>
            { u with twoFactorEnabled := true }.bumpSessionVersion).goto n t
              (.commit true)
    | none =>
        (s.updateUser n t UserSecurity.bumpSessionVersion).goto n t
          (.commit true)

/-- The authenticator is deleted, and the user's row changed. -/
def deleteMethod (n : Nat) (t : SecurityTx) : TwoFactorSystem :=
  s.updateMethod n t MethodVersion.remove fun s =>
    (s.updateUser n t fun u =>
      { u with twoFactorEnabled := false }.bumpSessionVersion).goto n t
        (.commit true)

/-- COMMIT; an accepted login goes on with its token. -/
def commit (n : Nat) (t : SecurityTx) (accepted : Bool) : TwoFactorSystem :=
  (((s.setUser t.userId ((s.user t.userId).publish n)).setMethod t.userId
    ((s.method t.userId).publish n)).setCodes t.userId
      ((s.codes t.userId).publish n)).setTx n
        (match t.request with
        | .verify _ (some token) =>
            if accepted then some { t with phase := .redeem token } else none
        | _ => none)

/-- GETDEL. -/
def redeem (n : Nat) (t : SecurityTx) (token : PendingToken) :
    TwoFactorSystem :=
  if s.pending token.jti then
    { s.goto n t (.issue token) with
      pending := Function.update s.pending token.jti false }
  else s.setTx n none

/-- The session, unless the user's session version has moved on. -/
def issue (n : Nat) (t : SecurityTx) (token : PendingToken) :
    TwoFactorSystem :=
  if (s.user t.userId).value.sessionVersion = token.sessionVersion then
    { s.setTx n none with sessions := s.sessions ++ [token.jti] }
  else s.setTx n none

/-- The next statement of a transaction. -/
def advance (crypto : SecondFactorCrypto)
    (verifyPassword : String → String → Bool) (n : Nat) (now : Timestamp)
    (hashes : List String) : TwoFactorSystem :=
  match s.tx n with
  | none => s
  | some t =>
      match t.phase with
      | .selectUser => s.selectUser verifyPassword n t
      | .selectMethod code =>
          s.lockMethod n t (fun s => s.refuse n t)
            fun s => s.goto n t (.matchCode code)
      | .matchCode code => s.matchCode crypto n t code now
      | .selectBackupCodes code => s.selectBackupCodes crypto n t code
      | .consumeBackupCode id => s.consumeBackupCode n t id now
      | .write => s.write crypto n t now
      | .replaceCodes confirmed => s.replaceCodes n t confirmed now hashes
      | .deleteMethod => s.deleteMethod n t
      | .commit accepted => s.commit n t accepted
      | .redeem token => s.redeem n t token
      | .issue token => s.issue n t token

/-- The first phase of a request. -/
def firstPhase : SecurityRequest → SecurityPhase
  | .verify code _ => .selectMethod code
  | .migrate => .write
  | _ => .selectUser

/-- A login presents a signed token of an unbanned user whose session
version it carries. -/
def Admits (userId : Uuid) : SecurityRequest → Prop
  | .verify _ (some token) =>
      token ∈ s.tokens ∧ token.userId = userId
        ∧ (s.user userId).value.sessionVersion = token.sessionVersion
        ∧ (s.user userId).value.isBanned = false
  | _ => True

instance (userId : Uuid) (request : SecurityRequest) :
    Decidable (s.Admits userId request) := by
  unfold Admits
  split
  · exact inferInstanceAs (Decidable (_ ∧ _ ∧ _ ∧ _))
  · exact instDecidableTrue

/-- A transaction begins. -/
def start (n : Nat) (userId : Uuid) (request : SecurityRequest) :
    TwoFactorSystem :=
  if (s.tx n).isNone ∧ s.Admits userId request then
    s.setTx n (some ⟨userId, request, firstPhase request⟩)
  else s

/-- A login that is to give a code gets its token. -/
def issuePending (userId : Uuid) : TwoFactorSystem :=
  if (s.user userId).value.twoFactorEnabled then
    { s with
      tokens := s.tokens ++ [⟨s.tokens.length, userId,
        (s.user userId).value.sessionVersion⟩]
      pending := Function.update s.pending s.tokens.length true }
  else s

/-- Other routes change a user's row. -/
def changeUser (userId : Uuid) (passwordHash : Option String)
    (sessionVersion : Nat) (isBanned : Bool) : TwoFactorSystem :=
  match (s.user userId).draft with
  | some _ => s
  | none =>
      s.setUser userId (.settled {
        (s.user userId).value with
        passwordHash := passwordHash
        sessionVersion := sessionVersion
        isBanned := isBanned })

/-- One event. -/
def step (crypto : SecondFactorCrypto)
    (verifyPassword : String → String → Bool) :
    TwoFactorStep → TwoFactorSystem
  | .issuePending userId => s.issuePending userId
  | .expire jti => { s with pending := Function.update s.pending jti false }
  | .start n userId request => s.start n userId request
  | .advance n now hashes => s.advance crypto verifyPassword n now hashes
  | .abort n =>
      match s.tx n with
      | some t => s.rollback n t
      | none => s
  | .changeUser userId passwordHash sessionVersion isBanned =>
      s.changeUser userId passwordHash sessionVersion isBanned

/-- Take some steps. -/
def play (crypto : SecondFactorCrypto)
    (verifyPassword : String → String → Bool) (steps : List TwoFactorStep) :
    TwoFactorSystem :=
  run (fun s e => s.step crypto verifyPassword e) s steps

end TwoFactorSystem

end Skrynia
