/-
A change of the email of an account, one access at a time.

A request writes its row in one transaction, has the link mailed to the
new address and a warning to the old one, and then marks the row as
delivered, or deletes it. The link is confirmed in another transaction
that finds the owner of the row first and reads the row again under the
locks. Between two accesses anything may happen to the account
(`AccountCommit`) and other requests run.

# History

`history` has what happened to the identity of a user, in the order of the
commits: a change that was requested, a new session version (`revoked`),
and a change that was made.

# The argument

A user has one row, and a request replaces it. A row names the session
version of its request, and versions never fall: as long as it is the
user's, the request is the last entry of the history (`Backed`). A row is
marked only when the mail service has taken the link for its own address.
So a change that is made follows its own request with nothing in between,
and whoever made it had the link that was sent to the new address
(`change_follows_request`).
-/
import Skrynia.Auth.AccountCommits
import Skrynia.Lib.Histories

namespace Skrynia

open Relational Stepping Histories

-- ================================================================= model

/-- A row of `email_change_requests`: one for each user at most. -/
structure EmailChangeRow where
  id : Uuid
  userId : Uuid
  pendingEmail : String
  tokenHash : String
  requestedSessionVersion : Nat
  expiresAt : Timestamp
  deliveryConfirmed : Bool

/-- What a request for a change comes with. -/
structure EmailChangeInput where
  userId : Uuid
  sessionVersion : Nat
  pendingEmail : String

/-- What can happen to the identity of a user. -/
inductive EmailEntry where
  | requested (tokenHash pendingEmail : String) (time : Timestamp)
  | revoked
  | changed (tokenHash email : String) (time : Timestamp)
deriving DecidableEq

/-- What a request and a confirmation answer. -/
inductive EmailChangeAnswer where
  | pending (pendingEmail : String) (pendingEmailExpiresAt : Timestamp)
      (debugConfirmation : Bool)
  | activated (userId : Uuid) (email : String)

/-- Where a call is between two of its accesses. -/
inductive EmailChangePhase where
  | idle
  | opening (input : EmailChangeInput) (tokenHash : String) (time : Timestamp)
  | mailing (row : EmailChangeRow)
  /-- The delivery has failed. -/
  | withdrawing (row : EmailChangeRow)
  | marking (row : EmailChangeRow) (simulatedDelivery : Bool)
  | identifying (tokenHash : String) (time : Timestamp)
  | activating (userId : Uuid) (tokenHash : String) (time : Timestamp)
  | revoking (userId : Uuid) (email : String)
  | answered (answer : Except Failure EmailChangeAnswer)

/-- The accounts, the requests, and where each call stands. -/
structure EmailChangeSystem where
  auth : AuthSystem
  now : Timestamp
  requests : Table EmailChangeRow.userId
  phase : Nat → EmailChangePhase
  /-- The tokens drawn so far, each with the address it is for. -/
  issued : List (String × String)
  /-- The links that the mail service has taken, each with its address. -/
  mailed : List (String × String)
  history : Uuid → List EmailEntry

/-- What may happen next: time passes, a call begins, or one goes on. -/
inductive EmailChangeEvent where
  | tick (milliseconds : Nat)
  /-- `requestEmailChange`, its step-up token consumed. -/
  | request (n : Nat) (input : EmailChangeInput) (tokenHash : String)
  | confirm (n : Nat) (tokenHash : String)
  /-- The next access of a call to the database. -/
  | proceed (n : Nat) (id : Uuid) (fault : Option Fault)
  /-- The mail service takes the link. -/
  | mail (n : Nat)
  /-- What `sendEmail` has answered for the two messages; `none` if it has
  thrown. -/
  | delivered (n : Nat) (confirmation alert : Option Bool)
  | commit (c : AccountCommit)

/-- `EMAIL_CHANGE_TTL_MS`: a day. -/
def emailChangeTtlMs : Nat := 24 * 60 * 60 * 1000

namespace EmailChangeSystem

section Model

-- `production` is that of `NODE_ENV`.
variable (crypto : AuthCrypto) (production : Bool) (s : EmailChangeSystem)

/-- Before any request. -/
def opening (auth : AuthSystem) (now : Timestamp) : EmailChangeSystem where
  auth := auth
  now := now
  requests := Table.empty
  phase := fun _ => .idle
  issued := []
  mailed := []
  history := fun _ => []

/-- A call goes on to its next access. -/
def goto (n : Nat) (p : EmailChangePhase) : EmailChangeSystem :=
  { s with phase := Function.update s.phase n p }

/-- An entry is added to the history of a user. -/
def log (userId : Uuid) (entry : EmailEntry) : EmailChangeSystem :=
  { s with
    history := Function.update s.history userId
      (s.history userId ++ [entry]) }

/-- What a call does and where it goes from there, unless the access
breaks off. -/
def perform (n : Nat) (fault : Option Fault)
    (done : EmailChangeSystem × EmailChangePhase) : EmailChangeSystem :=
  let broken := EmailChangePhase.answered (.error (.error "connection lost"))
  match fault with
  | none => done.1.goto n done.2
  | some .refused => s.goto n broken
  | some .replyLost => done.1.goto n broken

/-- A row whose request is not usable any more. -/
def Stale (time : Timestamp) (x : EmailChangeRow) : Prop :=
  x.expiresAt ≤ time
    ∨ ∃ owner ∈ s.auth.row? x.userId,
      owner.security.sessionVersion ≠ x.requestedSessionVersion

instance (time : Timestamp) (x : EmailChangeRow) :
    Decidable (s.Stale time x) :=
  inferInstanceAs (Decidable (_ ∨ ∃ owner ∈ s.auth.row? x.userId, _))

/-- Another account has the address. -/
def Taken (email : String) (userId : Uuid) : Prop :=
  ∃ r ∈ s.auth.users.rows, crypto.lower r.email = email ∧ r.id ≠ userId

instance (email : String) (userId : Uuid) :
    Decidable (s.Taken crypto email userId) :=
  inferInstanceAs (Decidable (∃ r ∈ s.auth.users.rows, _))

/-- The row of a request, in place of the user's last one. -/
def insertRequest (row : EmailChangeRow) (time : Timestamp) :
    Option (Table EmailChangeRow.userId) :=
  let reclaimed := s.requests.delete fun x =>
    x.pendingEmail = row.pendingEmail ∧ s.Stale time x
  let replaced := reclaimed.delete fun x => x.userId = row.userId
  if ∃ x ∈ replaced.rows, x.id = row.id ∨ x.tokenHash = row.tokenHash
      ∨ crypto.lower x.pendingEmail = crypto.lower row.pendingEmail then none
  else replaced.insert? row

/-- The transaction of a request. -/
def openRequest (input : EmailChangeInput) (tokenHash : String)
    (time : Timestamp) (id : Uuid) :
    EmailChangeSystem × EmailChangePhase :=
  let pendingEmail := crypto.lower (jsTrim input.pendingEmail)
  let fail := fun f => (s, EmailChangePhase.answered (.error f))
  match s.auth.row? input.userId with
  | none => fail (unauthorized "Authentication state changed, log in again")
  | some user =>
      if user.security.sessionVersion ≠ input.sessionVersion then
        fail (unauthorized "Authentication state changed, log in again")
      else if crypto.lower user.email = pendingEmail then
        fail (badRequest
          "The new email must be different from the current email")
      else if s.Taken crypto pendingEmail input.userId then
        fail (conflict "Email is already used")
      else
        let row : EmailChangeRow := {
          id := id
          userId := input.userId
          pendingEmail := pendingEmail
          tokenHash := tokenHash
          requestedSessionVersion := input.sessionVersion
          expiresAt := time + emailChangeTtlMs
          deliveryConfirmed := false }
        match s.insertRequest crypto row time with
        | none => fail (conflict "Email already has a pending change")
        | some requests =>
            (({ s with requests := requests } : EmailChangeSystem).log
                input.userId (.requested tokenHash pendingEmail time),
              .mailing row)

/-- What `requestEmailChange` makes of the two deliveries. -/
def afterDelivery (row : EmailChangeRow)
    (confirmation alert : Option Bool) : EmailChangePhase :=
  let simulatedDelivery := !production && confirmation == some false
    && alert == some false
  if confirmation = some true ∧ alert = some true then .marking row false
  else if simulatedDelivery then .marking row true
  else .withdrawing row

/-- The DELETE after a delivery that has failed. -/
def withdraw (row : EmailChangeRow) : EmailChangeSystem × EmailChangePhase :=
  ({ s with requests := s.requests.delete fun x =>
      x.id = row.id ∧ x.deliveryConfirmed = false },
    .answered (.error (serviceUnavailable
      "Email change could not be delivered, try again shortly")))

/-- The row is still the one of this request, and not marked. -/
def Unmarked (row x : EmailChangeRow) : Prop :=
  x.id = row.id ∧ x.tokenHash = row.tokenHash ∧ x.deliveryConfirmed = false

instance (row x : EmailChangeRow) : Decidable (Unmarked row x) :=
  inferInstanceAs (Decidable (_ ∧ _ ∧ _))

/-- The UPDATE after a delivery. -/
def mark (row : EmailChangeRow) (simulatedDelivery : Bool) :
    EmailChangeSystem × EmailChangePhase :=
  if ∃ x ∈ s.requests.rows, Unmarked row x then
    ({ s with
        requests := s.requests.update (Unmarked row)
          (fun x => { x with deliveryConfirmed := true }) fun _ => rfl },
      .answered (.ok (.pending row.pendingEmail row.expiresAt
        simulatedDelivery)))
  else
    (s, .answered (.error (serviceUnavailable
      "Email change request was superseded, try again")))

/-- The owner of a token, without a lock. -/
def identify (tokenHash : String) (time : Timestamp) :
    EmailChangeSystem × EmailChangePhase :=
  (s, match s.requests.rows.find? fun x => x.tokenHash = tokenHash with
    | none => .answered (.error
        (badRequest "Email change token is invalid or expired"))
    | some x => .activating x.userId tokenHash time)

/-- The transaction of a confirmation, under its locks. -/
def activate (userId : Uuid) (tokenHash : String) (time : Timestamp) :
    EmailChangeSystem × EmailChangePhase :=
  let fail := fun f => (s, EmailChangePhase.answered (.error f))
  match s.auth.row? userId, s.requests.rows.find? fun x =>
      x.tokenHash = tokenHash ∧ x.userId = userId with
  | some user, some request =>
      if request.deliveryConfirmed = true ∧ time < request.expiresAt
          ∧ request.requestedSessionVersion = user.security.sessionVersion
        then
        if s.Taken crypto request.pendingEmail userId then
          fail (conflict "Email is already used")
        else
          (({ s with
              auth := s.auth.changeEmail userId request.pendingEmail s.now
              requests := s.requests.delete fun x =>
                x.userId = userId ∧ x.tokenHash = tokenHash } :
              EmailChangeSystem).log userId
                (.changed tokenHash request.pendingEmail time),
            .revoking userId request.pendingEmail)
      else fail (badRequest "Email change token is invalid or expired")
  | _, _ => fail (badRequest "Email change token is invalid or expired")

/-- The next access of a call. -/
def proceed (n : Nat) (id : Uuid) (fault : Option Fault) :
    EmailChangeSystem :=
  match s.phase n with
  | .opening input tokenHash time =>
      s.perform n fault (s.openRequest crypto input tokenHash time id)
  | .withdrawing row => s.perform n fault (s.withdraw row)
  | .marking row simulatedDelivery =>
      s.perform n fault (s.mark row simulatedDelivery)
  | .identifying tokenHash time =>
      s.perform n fault (s.identify tokenHash time)
  | .activating userId tokenHash time =>
      s.perform n fault (s.activate crypto userId tokenHash time)
  | .revoking userId email =>
      s.perform n fault ({ s with
        auth := s.auth.setStore (s.auth.store.revokeAll userId) },
        .answered (.ok (.activated userId email)))
  | _ => s

/-- Another transaction on accounts. -/
def commit (c : AccountCommit) : EmailChangeSystem :=
  let done := c.apply crypto s.auth
  let s' := { s with auth := done.2 }
  match done.1 with
  | none => s'
  | some userId => s'.log userId .revoked

/-- Whether a commit is the confirmation of a change, which this module runs
itself. -/
def AccountCommit.isEmailChange : AccountCommit → Bool
  | .confirmEmailChange _ _ _ => true
  | _ => false

/-- One event. -/
def step (s : EmailChangeSystem) : EmailChangeEvent → EmailChangeSystem
  | .tick milliseconds => { s with now := s.now + milliseconds }
  | .request n input tokenHash =>
      match s.phase n with
      | .idle =>
          -- A token that is drawn is new.
          if tokenHash ∈ s.issued.map Prod.fst then s
          else
            ({ s with issued := s.issued
                ++ [(tokenHash, crypto.lower (jsTrim input.pendingEmail))] } :
              EmailChangeSystem).goto n (.opening input tokenHash s.now)
      | _ => s
  | .confirm n tokenHash =>
      match s.phase n with
      | .idle => s.goto n (.identifying tokenHash s.now)
      | _ => s
  | .proceed n id fault => s.proceed crypto n id fault
  | .mail n =>
      match s.phase n with
      | .mailing row =>
          { s with mailed := s.mailed ++ [(row.tokenHash, row.pendingEmail)] }
      | _ => s
  | .delivered n confirmation alert =>
      match s.phase n with
      | .mailing row =>
          if confirmation = some true
              ∧ (row.tokenHash, row.pendingEmail) ∉ s.mailed then s
          else s.goto n (afterDelivery production row confirmation alert)
      | _ => s
  | .commit c =>
      -- The one on the other side of this boundary is `activate`.
      if AccountCommit.isEmailChange c then s else s.commit crypto c

end Model

-- ================================================================ histories

/-- The request that a change was made for, within its time. -/
inductive Causes : EmailEntry → EmailEntry → Prop where
  | intro {tokenHash email : String} {requested confirmed : Timestamp}
      (h : confirmed < requested + emailChangeTtlMs) :
      Causes (.requested tokenHash email requested)
        (.changed tokenHash email confirmed)

/-- Whether an entry is a change that was made. -/
def IsChange : EmailEntry → Prop
  | .changed _ _ _ => True
  | _ => False

/-- Each change comes right after its own request. -/
abbrev Follows (l : List EmailEntry) : Prop := Preceded Causes IsChange l

-- ================================================================ invariant

section Invariant

variable {crypto : AuthCrypto} {production : Bool}
  {s s' : EmailChangeSystem} {n : Nat} {p : EmailChangePhase}
  {x : EmailChangeRow}

/-- As long as the session version of the request is the user's, the
request is the last entry. -/
def Backed (s : EmailChangeSystem) (x : EmailChangeRow) : Prop :=
  ∃ r, s.auth.row? x.userId = some r
    ∧ x.requestedSessionVersion ≤ r.security.sessionVersion
    ∧ (r.security.sessionVersion = x.requestedSessionVersion →
      ∃ time, (s.history x.userId).getLast?
          = some (.requested x.tokenHash x.pendingEmail time)
        ∧ x.expiresAt = time + emailChangeTtlMs)

/-- The link of a token went to this address, or there is no mail service. -/
def Sent (production : Bool) (s : EmailChangeSystem)
    (tokenHash email : String) : Prop :=
  production = true → (tokenHash, email) ∈ s.mailed

/-- What holds of a row: its request is the last of the history, its token
was drawn for its address, and a mark says that the link was sent there. -/
structure RowSound (production : Bool) (s : EmailChangeSystem)
    (x : EmailChangeRow) : Prop where
  backed : Backed s x
  issued : (x.tokenHash, x.pendingEmail) ∈ s.issued
  sent : x.deliveryConfirmed = true →
    Sent production s x.tokenHash x.pendingEmail

/-- What holds of a call at each access: its token was drawn for the address
it is about. -/
def PhaseSound (crypto : AuthCrypto) (production : Bool)
    (s : EmailChangeSystem) : EmailChangePhase → Prop
  | .opening input tokenHash _ =>
      (tokenHash, crypto.lower (jsTrim input.pendingEmail)) ∈ s.issued
  | .mailing row => (row.tokenHash, row.pendingEmail) ∈ s.issued
  | .marking row _ => (row.tokenHash, row.pendingEmail) ∈ s.issued
      ∧ Sent production s row.tokenHash row.pendingEmail
  | _ => True

/-- More tokens may be drawn meanwhile. -/
theorem PhaseSound.issued (h : PhaseSound crypto production s p)
    {link : String × String} :
    PhaseSound crypto production { s with issued := s.issued ++ [link] } p := by
  cases p with
  | opening input tokenHash time => exact List.mem_append_left _ h
  | mailing row => exact List.mem_append_left _ h
  | marking row simulatedDelivery =>
      exact ⟨List.mem_append_left _ h.1, h.2⟩
  | idle => exact trivial
  | withdrawing row => exact trivial
  | identifying tokenHash time => exact trivial
  | activating userId tokenHash time => exact trivial
  | revoking userId email => exact trivial
  | answered answer => exact trivial

/-- More links may be mailed meanwhile. -/
theorem PhaseSound.mailed (h : PhaseSound crypto production s p)
    {link : String × String} :
    PhaseSound crypto production { s with mailed := s.mailed ++ [link] } p := by
  cases p with
  | opening input tokenHash time => exact h
  | mailing row => exact h
  | marking row simulatedDelivery =>
      exact ⟨h.1, fun hp => List.mem_append_left _ (h.2 hp)⟩
  | idle => exact trivial
  | withdrawing row => exact trivial
  | identifying tokenHash time => exact trivial
  | activating userId tokenHash time => exact trivial
  | revoking userId email => exact trivial
  | answered answer => exact trivial

/-- What holds at all times. -/
structure Sound (crypto : AuthCrypto) (production : Bool)
    (s : EmailChangeSystem) : Prop where
  rows : ∀ x ∈ s.requests.rows, RowSound production s x
  phases : ∀ n, PhaseSound crypto production s (s.phase n)
  tokens : (s.issued.map Prod.fst).Nodup
  follows : ∀ u, Follows (s.history u)
  sent : ∀ u tokenHash email time,
    EmailEntry.changed tokenHash email time ∈ s.history u →
      Sent production s tokenHash email

/-- Before any request there is nothing to hold. -/
theorem opening_sound (auth : AuthSystem) (now : Timestamp) :
    Sound crypto production (opening auth now) where
  rows := by
    intro x hx
    cases hx
  phases _ := trivial
  tokens := List.nodup_nil
  follows _ := preceded_nil
  sent := by
    intro u tokenHash email time h
    cases h

/-- A call may go on where what holds of its next access holds. -/
theorem Sound.goto (h : Sound crypto production s)
    (hp : PhaseSound crypto production s p) :
    Sound crypto production (s.goto n p) where
  rows x hx := by
    obtain ⟨hbacked, hissued, hsent⟩ := h.rows x hx
    exact ⟨hbacked, hissued, hsent⟩
  phases m := by
    show PhaseSound crypto production s (Function.update s.phase n p m)
    by_cases hm : m = n
    · subst hm
      rw [Function.update_self]
      exact hp
    · rw [Function.update_of_ne hm]
      exact h.phases m
  tokens := h.tokens
  follows := h.follows
  sent := h.sent

/-- An access that keeps the invariant. -/
def Accesses (crypto : AuthCrypto) (production : Bool)
    (done : EmailChangeSystem × EmailChangePhase) : Prop :=
  Sound crypto production done.1 ∧ PhaseSound crypto production done.1 done.2

/-- An access keeps the invariant, whether it commits, fails or loses its
reply. -/
theorem Sound.perform (h : Sound crypto production s)
    {done : EmailChangeSystem × EmailChangePhase}
    (hdone : Accesses crypto production done) (fault : Option Fault) :
    Sound crypto production (s.perform n fault done) := by
  rcases fault with _ | _ | _
  · exact hdone.1.goto hdone.2
  · exact h.goto trivial
  · exact hdone.1.goto trivial

/-- A row that differs from one that was there in its mark at most. -/
structure Remains (production : Bool) (s : EmailChangeSystem)
    (x y : EmailChangeRow) : Prop where
  userId : y.userId = x.userId
  pendingEmail : y.pendingEmail = x.pendingEmail
  tokenHash : y.tokenHash = x.tokenHash
  requestedSessionVersion :
    y.requestedSessionVersion = x.requestedSessionVersion
  expiresAt : y.expiresAt = x.expiresAt
  sent : y.deliveryConfirmed = true → x.deliveryConfirmed = true
    ∨ Sent production s x.tokenHash x.pendingEmail

/-- Rows are taken away or marked, and the sessions in Redis change. -/
theorem Sound.of_rows (h : Sound crypto production s)
    (auth : AuthSystem) (requests : Table EmailChangeRow.userId)
    (husers : auth.users = s.auth.users)
    (hrows : ∀ y ∈ requests.rows, ∃ x ∈ s.requests.rows,
      Remains production s x y) :
    Sound crypto production { s with auth := auth, requests := requests } where
  rows y hy := by
    obtain ⟨x, hx, huserId, hemail, htoken, hversion, hexpires, hsent⟩ :=
      hrows y hy
    obtain ⟨hbacked, hissued, hmailed⟩ := h.rows x hx
    refine ⟨?_, ?_, ?_⟩
    · unfold Backed AuthSystem.row? at hbacked ⊢
      rw [huserId, hemail, htoken, hversion, hexpires, husers]
      exact hbacked
    · rw [htoken, hemail]
      exact hissued
    · intro hconfirmed
      rw [htoken, hemail]
      exact (hsent hconfirmed).elim hmailed id
  phases := h.phases
  tokens := h.tokens
  follows := h.follows
  sent := h.sent

/-- A row that is not touched remains what it was. -/
theorem Remains.refl (production : Bool) (s : EmailChangeSystem)
    (x : EmailChangeRow) : Remains production s x x :=
  ⟨rfl, rfl, rfl, rfl, rfl, Or.inl⟩

/-- Rows may be deleted. -/
theorem Sound.of_delete (h : Sound crypto production s)
    (q : EmailChangeRow → Prop) [DecidablePred q] :
    Sound crypto production { s with requests := s.requests.delete q } := by
  refine h.of_rows s.auth (s.requests.delete q) rfl ?_
  intro y hy
  exact ⟨y, (List.mem_filter.mp hy).1, .refl production s y⟩

-- ================================================================= accesses

/-- A request whose mail was refused deletes its row. -/
theorem withdraw_accesses (h : Sound crypto production s)
    (row : EmailChangeRow) : Accesses crypto production (s.withdraw row) :=
  ⟨h.of_delete _, trivial⟩

/-- Finding the owner of a token reads only. -/
theorem identify_accesses (h : Sound crypto production s)
    (tokenHash : String) (time : Timestamp) :
    Accesses crypto production (s.identify tokenHash time) := by
  refine ⟨h, ?_⟩
  unfold identify
  dsimp only
  split <;> exact trivial

/-- Whoever has the token of a row is for the same address. -/
theorem Sound.email_of_token (h : Sound crypto production s)
    {tokenHash email email' : String} (hissued : (tokenHash, email) ∈ s.issued)
    (hissued' : (tokenHash, email') ∈ s.issued) : email = email' := by
  have heq := List.inj_on_of_nodup_map h.tokens hissued hissued' rfl
  exact (Prod.mk.inj heq).2

/-- A row is marked when the link is on its way to its own address. -/
theorem mark_accesses (h : Sound crypto production s) {row : EmailChangeRow}
    (hissued : (row.tokenHash, row.pendingEmail) ∈ s.issued)
    (hsent : Sent production s row.tokenHash row.pendingEmail)
    (simulatedDelivery : Bool) :
    Accesses crypto production (s.mark row simulatedDelivery) := by
  unfold mark
  split
  · refine ⟨?_, trivial⟩
    refine h.of_rows s.auth _ rfl ?_
    intro y hy
    obtain ⟨x, hx, hxy⟩ := List.mem_map.mp hy
    refine ⟨x, hx, ?_⟩
    by_cases hunmarked : Unmarked row x
    · rw [if_pos hunmarked] at hxy
      subst hxy
      refine ⟨rfl, rfl, rfl, rfl, rfl, fun _ => Or.inr ?_⟩
      have hx' := (h.rows x hx).issued
      rw [hunmarked.2.1] at hx' ⊢
      rw [h.email_of_token hx' hissued]
      exact hsent
    · rw [if_neg hunmarked] at hxy
      subst hxy
      exact .refl production s x
  · exact ⟨h, trivial⟩

/-- The rows that a request leaves are its own and those of others. -/
theorem insertRequest_rows {row : EmailChangeRow} {time : Timestamp}
    {requests : Table EmailChangeRow.userId}
    (hinsert : s.insertRequest crypto row time = some requests)
    (hx : x ∈ requests.rows) :
    x = row ∨ x ∈ s.requests.rows ∧ x.userId ≠ row.userId := by
  unfold insertRequest at hinsert
  dsimp only at hinsert
  split at hinsert
  · cases hinsert
  · rw [(Table.insert?_eq_some.mp hinsert).2] at hx
    rcases List.mem_append.mp hx with hx | hx
    · obtain ⟨hx, hother⟩ := List.mem_filter.mp hx
      refine Or.inr ⟨(List.mem_filter.mp hx).1, ?_⟩
      exact of_decide_eq_true hother
    · exact Or.inl (List.mem_singleton.mp hx)

/-- A row of another user, and an entry of this one. -/
theorem Backed.of_other (h : Backed s x) {u : Uuid} (hu : x.userId ≠ u)
    (hrow : s'.auth.row? x.userId = s.auth.row? x.userId)
    {entry : EmailEntry}
    (hhistory : s'.history
      = Function.update s.history u (s.history u ++ [entry])) :
    Backed s' x := by
  obtain ⟨r, hr, hle, hlast⟩ := h
  refine ⟨r, hrow.trans hr, hle, ?_⟩
  rw [hhistory, Function.update_of_ne hu]
  exact hlast

/-- The entry of a user, and what has to be known of it. -/
theorem follows_update {u : Uuid} {entry : EmailEntry}
    (h : ∀ v, Follows (s.history v))
    (hentry : IsChange entry →
      ∃ c, (s.history u).getLast? = some c ∧ Causes c entry) (v : Uuid) :
    Follows (Function.update s.history u (s.history u ++ [entry]) v) := by
  by_cases hv : v = u
  · subst hv
    rw [Function.update_self]
    exact preceded_snoc (h v) hentry
  · rw [Function.update_of_ne hv]
    exact h v

/-- What is in the history of a user was there before, or was just added. -/
theorem mem_history_update {u v : Uuid} {entry e : EmailEntry}
    (h : e ∈ Function.update s.history u (s.history u ++ [entry]) v) :
    e ∈ s.history v ∨ v = u ∧ e = entry := by
  by_cases hv : v = u
  · subst hv
    rw [Function.update_self] at h
    rcases List.mem_append.mp h with h | h
    · exact Or.inl h
    · exact Or.inr ⟨rfl, List.mem_singleton.mp h⟩
  · rw [Function.update_of_ne hv] at h
    exact Or.inl h

/-- A request replaces the user's row and is logged with it. -/
theorem openRequest_accesses (h : Sound crypto production s)
    {input : EmailChangeInput} {tokenHash : String}
    (hissued : (tokenHash, crypto.lower (jsTrim input.pendingEmail))
      ∈ s.issued) (time : Timestamp) (id : Uuid) :
    Accesses crypto production
      (s.openRequest crypto input tokenHash time id) := by
  unfold openRequest
  dsimp only
  split
  · exact ⟨h, trivial⟩
  · next user huser =>
      split
      · exact ⟨h, trivial⟩
      · next hversion =>
          rw [not_not] at hversion
          split
          · exact ⟨h, trivial⟩
          · split
            · exact ⟨h, trivial⟩
            · split
              · exact ⟨h, trivial⟩
              · next requests hinsert =>
                  refine ⟨?_, hissued⟩
                  constructor
                  · intro x hx
                    rcases insertRequest_rows hinsert hx with hnew | ⟨hold, hother⟩
                    · subst hnew
                      refine ⟨⟨user, huser, hversion.ge, fun _ => ?_⟩, hissued,
                        fun hconfirmed => ?_⟩
                      · refine ⟨time, ?_, rfl⟩
                        show (Function.update s.history _ _ _).getLast? = _
                        rw [Function.update_self, List.getLast?_concat]
                      · cases hconfirmed
                    · obtain ⟨hbacked, hissuedx, hsent⟩ := h.rows x hold
                      exact ⟨hbacked.of_other hother rfl rfl, hissuedx, hsent⟩
                  · exact h.phases
                  · exact h.tokens
                  · exact follows_update h.follows fun hchange => hchange.elim
                  · intro u t e time' hmem
                    rcases mem_history_update hmem with hmem | ⟨-, heq⟩
                    · exact h.sent u t e time' hmem
                    · cases heq

/-- A confirmation finds the request of its token at the end of the history,
and logs the change behind it. -/
theorem activate_accesses (h : Sound crypto production s) (userId : Uuid)
    (tokenHash : String) (time : Timestamp) :
    Accesses crypto production (s.activate crypto userId tokenHash time) := by
  unfold activate
  dsimp only
  split
  · next user request huser hrequest =>
      have hmem := List.mem_of_find?_eq_some hrequest
      obtain ⟨htoken, howner⟩ : request.tokenHash = tokenHash
          ∧ request.userId = userId := by
        simpa using List.find?_some hrequest
      split
      · next hgood =>
          obtain ⟨hconfirmed, htime, hversion⟩ := hgood
          split
          · exact ⟨h, trivial⟩
          · refine ⟨?_, trivial⟩
            obtain ⟨hbacked, hissued, hsent⟩ := h.rows request hmem
            obtain ⟨r, hr, hle, hlast⟩ := hbacked
            rw [howner, huser] at hr
            obtain rfl := Option.some.inj hr
            obtain ⟨requested, hlast, hexpires⟩ := hlast hversion.symm
            rw [howner, htoken] at hlast
            constructor
            · intro x hx
              obtain ⟨hx, hkept⟩ := List.mem_filter.mp hx
              have hother : x.userId ≠ userId := by
                intro heq
                obtain rfl : x = request :=
                  Table.eq_of_key_eq hx hmem (heq.trans howner.symm)
                exact of_decide_eq_true hkept ⟨howner, htoken⟩
              obtain ⟨hbackedx, hissuedx, hsentx⟩ := h.rows x hx
              refine ⟨hbackedx.of_other hother ?_ rfl, hissuedx, hsentx⟩
              show (s.auth.updateUser userId _ _).row? x.userId = _
              rw [AuthSystem.row?_updateUser]
              cases hxr : s.auth.row? x.userId with
              | none => rfl
              | some xr =>
                  rw [Option.map_some, if_neg]
                  rw [Table.key_of_find? hxr]
                  exact hother
            · exact h.phases
            · exact h.tokens
            · refine follows_update h.follows fun _ => ⟨_, hlast, .intro ?_⟩
              rw [← hexpires]
              exact htime
            · intro u t e time' hchange
              rcases mem_history_update hchange with hchange | ⟨-, heq⟩
              · exact h.sent u t e time' hchange
              · cases heq
                rw [← htoken]
                exact hsent hconfirmed
      · exact ⟨h, trivial⟩
  · exact ⟨h, trivial⟩

/-- The next access of any call keeps the invariant. -/
theorem proceed_sound (h : Sound crypto production s) (n : Nat) (id : Uuid)
    (fault : Option Fault) :
    Sound crypto production (s.proceed crypto n id fault) := by
  have hphase := h.phases n
  unfold proceed
  split
  · next input tokenHash time hn =>
      rw [hn] at hphase
      exact h.perform (openRequest_accesses h hphase time id) fault
  · exact h.perform (withdraw_accesses h _) fault
  · next row simulatedDelivery hn =>
      rw [hn] at hphase
      exact h.perform (mark_accesses h hphase.1 hphase.2 simulatedDelivery) fault
  · exact h.perform (identify_accesses h _ _) fault
  · exact h.perform (activate_accesses h _ _ _) fault
  · next userId email hn =>
      have hrevoked := h.of_rows
        (s.auth.setStore (s.auth.store.revokeAll userId)) s.requests rfl
        fun y hy => ⟨y, hy, .refl production s y⟩
      have hanswered : Accesses crypto production ({ s with
          auth := s.auth.setStore (s.auth.store.revokeAll userId) },
          .answered (.ok (.activated userId email))) := ⟨hrevoked, trivial⟩
      exact h.perform hanswered fault
  · exact h

/-- Another transaction gives the user a new session version, or leaves
what the request has seen of it. -/
theorem commit_sound (h : Sound crypto production s) (c : AccountCommit) :
    Sound crypto production (s.commit crypto c) := by
  have hrows : AuthSystem.RowsStep _ s.auth (c.apply crypto s.auth).2 :=
    c.apply_rows
  have hbacked : ∀ x ∈ s.requests.rows, ∃ r',
      (c.apply crypto s.auth).2.row? x.userId = some r'
      ∧ x.requestedSessionVersion ≤ r'.security.sessionVersion
      ∧ (r'.security.sessionVersion = x.requestedSessionVersion →
        (c.apply crypto s.auth).1 ≠ some x.userId
          ∧ ∃ time, (s.history x.userId).getLast?
              = some (.requested x.tokenHash x.pendingEmail time)
            ∧ x.expiresAt = time + emailChangeTtlMs) := by
    intro x hx
    obtain ⟨r, hr, hle, hlast⟩ := (h.rows x hx).backed
    obtain ⟨r', hr', hsteps, hversion⟩ := hrows.row _ r hr
    have hgrows := hsteps.version
    refine ⟨r', hr', by omega, fun heq => ⟨?_, hlast (by omega)⟩⟩
    intro huser
    have hlt := hversion.mpr huser
    omega
  unfold commit
  dsimp only
  split
  · constructor
    · intro x hx
      obtain ⟨r', hr', hle, hlast⟩ := hbacked x hx
      obtain ⟨-, hissued, hsent⟩ := h.rows x hx
      exact ⟨⟨r', hr', hle, fun heq => (hlast heq).2⟩, hissued, hsent⟩
    · exact h.phases
    · exact h.tokens
    · exact h.follows
    · exact h.sent
  · next userId huser =>
      constructor
      · intro x hx
        obtain ⟨r', hr', hle, hlast⟩ := hbacked x hx
        obtain ⟨-, hissued, hsent⟩ := h.rows x hx
        refine ⟨⟨r', hr', hle, fun heq => ?_⟩, hissued, hsent⟩
        obtain ⟨hne, hlast⟩ := hlast heq
        have hother : x.userId ≠ userId := by
          intro hu
          rw [hu] at hne
          exact hne huser
        show ∃ time, (Function.update s.history userId _ x.userId).getLast? = _ ∧ _
        rw [Function.update_of_ne hother]
        exact hlast
      · exact h.phases
      · exact h.tokens
      · exact follows_update h.follows fun hchange => hchange.elim
      · intro u t e time hmem
        rcases mem_history_update hmem with hmem | ⟨-, heq⟩
        · exact h.sent u t e time hmem
        · cases heq

/-- So does every event. What a call does between two accesses is `Accesses`;
the rest is an account that somebody else changes, a mail that is delivered,
or time. -/
theorem step_sound (h : Sound crypto production s) (e : EmailChangeEvent) :
    Sound crypto production (s.step crypto production e) := by
  cases e with
  | tick milliseconds =>
      refine ⟨fun x hx => ?_, h.phases, h.tokens, h.follows, h.sent⟩
      obtain ⟨hbacked, hissued, hsent⟩ := h.rows x hx
      exact ⟨hbacked, hissued, hsent⟩
  | request n input tokenHash =>
      dsimp only [step]
      split
      · split
        · exact h
        · next hnew =>
            have hmore : Sound crypto production { s with
                issued := s.issued
                  ++ [(tokenHash, crypto.lower (jsTrim input.pendingEmail))] } := by
              constructor
              · intro x hx
                obtain ⟨hbacked, hissued, hsent⟩ := h.rows x hx
                exact ⟨hbacked, List.mem_append_left _ hissued, hsent⟩
              · intro m
                exact (h.phases m).issued
              · rw [List.map_append, List.map_singleton]
                exact h.tokens.append (List.nodup_singleton _) (by simpa using hnew)
              · exact h.follows
              · exact h.sent
            exact hmore.goto (List.mem_append_right _ (List.mem_singleton_self _))
      · exact h
  | confirm n tokenHash =>
      dsimp only [step]
      split
      · exact h.goto trivial
      · exact h
  | proceed n id fault => exact proceed_sound h n id fault
  | mail n =>
      dsimp only [step]
      split
      · next row _ =>
          constructor
          · intro x hx
            obtain ⟨hbacked, hissued, hsent⟩ := h.rows x hx
            exact ⟨hbacked, hissued, fun hc hp =>
              List.mem_append_left _ (hsent hc hp)⟩
          · intro m
            exact (h.phases m).mailed
          · exact h.tokens
          · exact h.follows
          · exact fun u t e time hmem hp =>
              List.mem_append_left _ (h.sent u t e time hmem hp)
      · exact h
  | delivered n confirmation alert =>
      dsimp only [step]
      split
      · next row hn =>
          have hissued := h.phases n
          rw [hn] at hissued
          split
          · exact h
          · next hmailed =>
              refine h.goto ?_
              unfold afterDelivery
              dsimp only
              split
              · next hdelivered =>
                  refine ⟨hissued, fun _ => ?_⟩
                  by_contra hnot
                  exact hmailed ⟨hdelivered.1, hnot⟩
              · split
                · next hsimulated =>
                    refine ⟨hissued, fun hp => ?_⟩
                    rw [hp] at hsimulated
                    cases hsimulated
                · exact trivial
      · exact h
  | commit c =>
      dsimp only [step]
      split
      · exact h
      · exact commit_sound h c

-- =================================================================== tokens

/-- Whether an entry is the request that drew a token. -/
def IsRequestOf (tokenHash : String) : EmailEntry → Bool
  | .requested drawn _ _ => drawn == tokenHash
  | _ => false

/-- Whether an entry is a change made with a token. -/
def IsChangeOf (tokenHash : String) : EmailEntry → Bool
  | .changed drawn _ _ => drawn == tokenHash
  | _ => false

/-- How often a token was the one of a user's request. -/
def requestsOf (s : EmailChangeSystem) (u : Uuid) (tokenHash : String) : Nat :=
  (s.history u).countP (IsRequestOf tokenHash)

/-- How often a token has changed the email of a user. -/
def changesOf (s : EmailChangeSystem) (u : Uuid) (tokenHash : String) : Nat :=
  (s.history u).countP (IsChangeOf tokenHash)

/-- The call is about to open a request with this token. -/
def Opens (p : EmailChangePhase) (tokenHash : String) : Prop :=
  ∃ input time, p = .opening input tokenHash time

/-- A token is drawn for one request. -/
structure Drawn (s : EmailChangeSystem) : Prop where
  issued : ∀ u y, 0 < s.requestsOf u y → y ∈ s.issued.map Prod.fst
  opens : ∀ n y, Opens (s.phase n) y →
    y ∈ s.issued.map Prod.fst ∧ ∀ u, s.requestsOf u y = 0
  apart : ∀ n m y, Opens (s.phase n) y → Opens (s.phase m) y → n = m
  once : ∀ u y, s.requestsOf u y ≤ 1
  own : ∀ u v y, 0 < s.requestsOf u y → 0 < s.requestsOf v y → u = v

/-- Before any request no token is drawn. -/
theorem opening_drawn (auth : AuthSystem) (now : Timestamp) :
    Drawn (opening auth now) where
  issued u y h := absurd h (Nat.lt_irrefl 0)
  opens n y h := by
    obtain ⟨input, time, h⟩ := h
    cases h
  apart n m y h := by
    obtain ⟨input, time, h⟩ := h
    cases h
  once u y := Nat.zero_le 1
  own u v y h := absurd h (Nat.lt_irrefl 0)

/-- A call that has answered opens no request. -/
theorem not_opens_answered (answer : Except Failure EmailChangeAnswer)
    (y : String) : ¬ Opens (.answered answer) y := by
  intro h
  obtain ⟨input, time, h⟩ := h
  cases h

/-- No request is opened, and no call is about to that was not before. -/
theorem Drawn.quiet (h : Drawn s)
    (hcount : ∀ u y, s'.requestsOf u y = s.requestsOf u y)
    (hopens : ∀ n y, Opens (s'.phase n) y → Opens (s.phase n) y)
    (hissued : s'.issued = s.issued) : Drawn s' := by
  constructor
  · intro u y hy
    rw [hissued]
    exact h.issued u y (by rw [← hcount u y]; exact hy)
  · intro n y hy
    rw [hissued]
    obtain ⟨hin, hnone⟩ := h.opens n y (hopens n y hy)
    exact ⟨hin, fun u => (hcount u y).trans (hnone u)⟩
  · exact fun n m y hn hm => h.apart n m y (hopens n y hn) (hopens m y hm)
  · intro u y
    rw [hcount u y]
    exact h.once u y
  · intro u v y hu hv
    rw [hcount u y] at hu
    rw [hcount v y] at hv
    exact h.own u v y hu hv

/-- A call that moves on to something else leaves the requests to be opened
as they were. -/
theorem opens_update {phase : Nat → EmailChangePhase} {m : Nat} {y : String}
    (hp : ∀ y, ¬ Opens p y) (h : Opens (Function.update phase n p m) y) :
    Opens (phase m) y ∧ m ≠ n := by
  by_cases hm : m = n
  · subst hm
    rw [Function.update_self] at h
    exact absurd h (hp y)
  · rw [Function.update_of_ne hm] at h
    exact ⟨h, hm⟩

/-- So it keeps tokens apart. -/
theorem Drawn.goto (h : Drawn s) (hp : ∀ y, ¬ Opens p y) :
    Drawn (s.goto n p) :=
  h.quiet (fun _ _ => rfl) (fun _ _ hm => (opens_update hp hm).1) rfl

/-- An entry adds one to the requests of a token if it is one. -/
theorem requestsOf_log {u v : Uuid} {entry : EmailEntry} {y : String} :
    (s.log u entry).requestsOf v y = s.requestsOf v y
      + if v = u ∧ IsRequestOf y entry = true then 1 else 0 := by
  show (Function.update s.history u (s.history u ++ [entry]) v).countP _ = _
  by_cases hv : v = u
  · subst hv
    rw [Function.update_self, List.countP_append, List.countP_singleton]
    simp [requestsOf]
  · rw [Function.update_of_ne hv]
    simp [requestsOf, hv]

/-- An access that opens no request. -/
structure Calm (s : EmailChangeSystem)
    (done : EmailChangeSystem × EmailChangePhase) : Prop where
  count : ∀ u y, done.1.requestsOf u y = s.requestsOf u y
  phase : done.1.phase = s.phase
  issued : done.1.issued = s.issued
  next : ∀ y, ¬ Opens done.2 y

/-- An access that opens no request keeps tokens apart. -/
theorem Drawn.calm (h : Drawn s)
    {done : EmailChangeSystem × EmailChangePhase} (hdone : Calm s done)
    (fault : Option Fault) : Drawn (s.perform n fault done) := by
  have hleft : Drawn done.1 := by
    refine h.quiet hdone.count ?_ hdone.issued
    intro m y hm
    rw [← hdone.phase]
    exact hm
  rcases fault with _ | _ | _
  · exact hleft.goto hdone.next
  · exact h.goto (not_opens_answered _)
  · exact hleft.goto (not_opens_answered _)

/-- An answer, or whatever else is no request to come. -/
theorem calm_of_same {done : EmailChangeSystem × EmailChangePhase}
    (hhistory : done.1.history = s.history)
    (hphase : done.1.phase = s.phase) (hissued : done.1.issued = s.issued)
    (hnext : ∀ y, ¬ Opens done.2 y) : Calm s done := by
  refine ⟨fun u y => ?_, hphase, hissued, hnext⟩
  unfold requestsOf
  rw [hhistory]

/-- The request of a call is opened with its token, or it is refused. -/
theorem openRequest_cases (input : EmailChangeInput) (tokenHash : String)
    (time : Timestamp) (id : Uuid) :
    Calm s (s.openRequest crypto input tokenHash time id)
      ∨ ∃ requests u email row,
        s.openRequest crypto input tokenHash time id
          = (({ s with requests := requests } : EmailChangeSystem).log u
              (.requested tokenHash email time), .mailing row) := by
  have hrefused : ∀ f, Calm s (s, .answered (.error f)) :=
    fun f => calm_of_same rfl rfl rfl (not_opens_answered _)
  unfold openRequest
  dsimp only
  split
  · exact Or.inl (hrefused _)
  · split
    · exact Or.inl (hrefused _)
    · split
      · exact Or.inl (hrefused _)
      · split
        · exact Or.inl (hrefused _)
        · split
          · exact Or.inl (hrefused _)
          · exact Or.inr ⟨_, _, _, _, rfl⟩

/-- A call opens its request, and its token is used up. -/
theorem Drawn.opened (h : Drawn s) {tokenHash email : String}
    {time : Timestamp} {u : Uuid} {requests : Table EmailChangeRow.userId}
    (hopens : Opens (s.phase n) tokenHash) (hp : ∀ y, ¬ Opens p y) :
    Drawn ((({ s with requests := requests } : EmailChangeSystem).log u
      (.requested tokenHash email time)).goto n p) := by
  obtain ⟨hin, hnone⟩ := h.opens n tokenHash hopens
  have hcount : ∀ v y, ((({ s with requests := requests } :
      EmailChangeSystem).log u (.requested tokenHash email time)).goto n
        p).requestsOf v y
      = s.requestsOf v y + if v = u ∧ tokenHash = y then 1 else 0 := by
    intro v y
    refine requestsOf_log.trans ?_
    simp only [IsRequestOf, beq_iff_eq]
    rfl
  constructor
  · intro v y hy
    rw [hcount] at hy
    split at hy
    · next heq =>
        rw [← heq.2]
        exact hin
    · exact h.issued v y hy
  · intro m y hm
    obtain ⟨hm, hmn⟩ := opens_update hp hm
    obtain ⟨hiny, hnoney⟩ := h.opens m y hm
    refine ⟨hiny, fun v => ?_⟩
    have hne : tokenHash ≠ y := by
      intro heq
      subst heq
      exact hmn (h.apart m n tokenHash hm hopens)
    rw [hcount, hnoney v, if_neg fun heq => hne heq.2]
  · intro m m' y hm hm'
    exact h.apart m m' y (opens_update hp hm).1 (opens_update hp hm').1
  · intro v y
    rw [hcount]
    have honce := h.once v y
    split
    · next heq =>
        rw [← heq.2, hnone v]
    · omega
  · intro v w y hv hw
    rw [hcount] at hv hw
    by_cases hy : tokenHash = y
    · subst hy
      rw [hnone] at hv hw
      simp only [and_true, Nat.zero_add] at hv hw
      split at hv
      · next hvu =>
          split at hw
          · next hwu => exact hvu.trans hwu.symm
          · exact absurd hw (Nat.lt_irrefl 0)
      · exact absurd hv (Nat.lt_irrefl 0)
    · rw [if_neg fun heq => hy heq.2] at hv hw
      exact h.own v w y hv hw

/-- Marking opens no request. -/
theorem mark_calm (row : EmailChangeRow) (simulatedDelivery : Bool) :
    Calm s (s.mark row simulatedDelivery) := by
  unfold mark
  split
  · exact calm_of_same rfl rfl rfl (not_opens_answered _)
  · exact calm_of_same rfl rfl rfl (not_opens_answered _)

/-- Nor does finding the owner of a token. -/
theorem identify_calm (tokenHash : String) (time : Timestamp) :
    Calm s (s.identify tokenHash time) := by
  refine calm_of_same rfl rfl rfl ?_
  unfold identify
  intro y hy
  obtain ⟨input, time', hy⟩ := hy
  dsimp only at hy
  split at hy <;> cases hy

/-- Nor does making the change. -/
theorem activate_calm (userId : Uuid) (tokenHash : String)
    (time : Timestamp) :
    Calm s (s.activate crypto userId tokenHash time) := by
  have hrefused : ∀ f, Calm s (s, .answered (.error f)) :=
    fun f => calm_of_same rfl rfl rfl (not_opens_answered _)
  unfold activate
  dsimp only
  split
  · split
    · split
      · exact hrefused _
      · refine ⟨?_, rfl, rfl, ?_⟩
        · intro u y
          refine requestsOf_log.trans ?_
          simp only [IsRequestOf, Bool.false_eq_true, and_false, if_false]
          rfl
        · intro y hy
          obtain ⟨input, time', hy⟩ := hy
          cases hy
    · exact hrefused _
  · exact hrefused _

/-- The next access of any call keeps tokens apart. -/
theorem proceed_drawn (h : Drawn s) (n : Nat) (id : Uuid)
    (fault : Option Fault) : Drawn (s.proceed crypto n id fault) := by
  unfold proceed
  split
  · next input tokenHash time hn =>
      have hopens : Opens (s.phase n) tokenHash := ⟨input, time, hn⟩
      rcases openRequest_cases input tokenHash time id with hcalm | hopened
      · exact h.calm hcalm fault
      · obtain ⟨requests, u, email, row, heq⟩ := hopened
        rw [heq]
        have hmailing : ∀ y, ¬ Opens (.mailing row) y := by
          intro y hy
          obtain ⟨input', time', hy⟩ := hy
          cases hy
        rcases fault with _ | _ | _
        · exact h.opened hopens hmailing
        · exact h.goto (not_opens_answered _)
        · exact h.opened hopens (not_opens_answered _)
  · exact h.calm (calm_of_same rfl rfl rfl (not_opens_answered _)) fault
  · exact h.calm (mark_calm _ _) fault
  · exact h.calm (identify_calm _ _) fault
  · exact h.calm (activate_calm _ _ _) fault
  · exact h.calm (calm_of_same rfl rfl rfl (not_opens_answered _)) fault
  · exact h

/-- A token that was not drawn before. -/
theorem Drawn.drawn (h : Drawn s) {input : EmailChangeInput}
    {tokenHash email : String} {time : Timestamp}
    (hnew : tokenHash ∉ s.issued.map Prod.fst) :
    Drawn (({ s with issued := s.issued ++ [(tokenHash, email)] } :
      EmailChangeSystem).goto n (.opening input tokenHash time)) := by
  have hmore : ∀ y, y ∈ s.issued.map Prod.fst →
      y ∈ (s.issued ++ [(tokenHash, email)]).map Prod.fst := by
    intro y hy
    rw [List.map_append]
    exact List.mem_append_left _ hy
  have hopens : ∀ m y, Opens (Function.update s.phase n
      (.opening input tokenHash time) m) y →
      m = n ∧ y = tokenHash ∨ Opens (s.phase m) y := by
    intro m y hm
    by_cases hmn : m = n
    · subst hmn
      rw [Function.update_self] at hm
      obtain ⟨input', time', hm⟩ := hm
      cases hm
      exact Or.inl ⟨rfl, rfl⟩
    · rw [Function.update_of_ne hmn] at hm
      exact Or.inr hm
  constructor
  · exact fun u y hy => hmore y (h.issued u y hy)
  · intro m y hm
    rcases hopens m y hm with ⟨-, rfl⟩ | hm
    · refine ⟨?_, fun u => ?_⟩
      · show _ ∈ (s.issued ++ [(y, email)]).map Prod.fst
        rw [List.map_append]
        exact List.mem_append_right _ (List.mem_singleton_self _)
      · by_contra hne
        exact hnew (h.issued u y (Nat.pos_of_ne_zero hne))
    · exact ⟨hmore y (h.opens m y hm).1, (h.opens m y hm).2⟩
  · intro m m' y hm hm'
    rcases hopens m y hm with ⟨hmn, hy⟩ | hold
    · rcases hopens m' y hm' with ⟨hmn', -⟩ | hold'
      · exact hmn.trans hmn'.symm
      · rw [hy] at hold'
        exact absurd (h.opens m' tokenHash hold').1 hnew
    · rcases hopens m' y hm' with ⟨-, hy⟩ | hold'
      · rw [hy] at hold
        exact absurd (h.opens m tokenHash hold).1 hnew
      · exact h.apart m m' y hold hold'
  · exact h.once
  · exact h.own

/-- So does every event: a new request draws a new token, its transaction
uses the token up, and nothing else is about tokens. -/
theorem step_drawn (h : Drawn s) (e : EmailChangeEvent) :
    Drawn (s.step crypto production e) := by
  cases e with
  | tick milliseconds => exact h.quiet (fun _ _ => rfl) (fun _ _ => id) rfl
  | request n input tokenHash =>
      dsimp only [step]
      split
      · split
        · exact h
        · next hnew => exact h.drawn hnew
      · exact h
  | confirm n tokenHash =>
      dsimp only [step]
      split
      · refine h.goto ?_
        intro y hy
        obtain ⟨input, time, hy⟩ := hy
        cases hy
      · exact h
  | proceed n id fault => exact proceed_drawn h n id fault
  | mail n =>
      dsimp only [step]
      split
      · exact h.quiet (fun _ _ => rfl) (fun _ _ => id) rfl
      · exact h
  | delivered n confirmation alert =>
      dsimp only [step]
      split
      · split
        · exact h
        · refine h.goto ?_
          unfold afterDelivery
          intro y hy
          obtain ⟨input, time, hy⟩ := hy
          dsimp only at hy
          split at hy
          · cases hy
          · split at hy <;> cases hy
      · exact h
  | commit c =>
      dsimp only [step]
      split
      · exact h
      · unfold commit
        dsimp only
        split
        · exact h.quiet (fun _ _ => rfl) (fun _ _ => id) rfl
        · refine h.quiet ?_ (fun _ _ => id) rfl
          intro u y
          refine requestsOf_log.trans ?_
          simp only [IsRequestOf, Bool.false_eq_true, and_false, if_false]
          rfl

/-- As many changes as requests with a token. -/
theorem Sound.changesOf_le (h : Sound crypto production s) (u : Uuid)
    (y : String) : s.changesOf u y ≤ s.requestsOf u y := by
  refine (h.follows u).countP_le ?_ ?_ ?_
  · intro e he
    cases e with
    | changed => exact trivial
    | requested => cases he
    | revoked => cases he
  · intro c e hc he
    cases hc
    exact he
  · intro e he
    cases e with
    | changed => rfl
    | requested => cases he
    | revoked => cases he

end Invariant

-- ================================================================== results

/-- Whatever calls and transactions interleave, a change of an email comes
right after the user's own request for this address, within its time, with
no other request, no new session version and no other change in between,
and in production its link was sent to that address. -/
theorem change_follows_request (crypto : AuthCrypto) (production : Bool)
    (auth : AuthSystem) (now : Timestamp) (events : List EmailChangeEvent)
    (userId : Uuid) (pre post : List EmailEntry) (tokenHash email : String)
    (time : Timestamp)
    (h : (run (step crypto production) (opening auth now) events).history
      userId = pre ++ .changed tokenHash email time :: post) :
    ∃ pre' requested, pre = pre' ++ [.requested tokenHash email requested]
      ∧ time < requested + emailChangeTtlMs
      ∧ (production = true → (tokenHash, email)
        ∈ (run (step crypto production) (opening auth now) events).mailed) := by
  have hsound := run_keeps (P := Sound crypto production)
    (fun s e hs => step_sound hs e) (opening_sound auth now) events
  obtain ⟨pre', c, hpre, hc⟩ :=
    hsound.follows userId pre (.changed tokenHash email time) post h trivial
  cases hc with
  | intro htime =>
      refine ⟨pre', _, hpre, htime, ?_⟩
      refine hsound.sent userId tokenHash email time ?_
      rw [h]
      exact List.mem_append_right _ List.mem_cons_self

/-- A seller with an address. -/
def seller : AccountRow where
  id := ⟨1⟩
  email := "seller@skrynia.store"
  displayName := "Seller"
  role := .user
  telegramId := none
  emailVerifiedAt := none
  security := ⟨some "hash", false, 1, false⟩
  emailGeneration := 1
  passwordGeneration := 1

/-- Accounts before any request for a link. -/
def noAccounts : AuthSystem :=
  .opening Table.empty fun _ => ⟨⟨none, false, 1, false⟩, none, []⟩

/-- The seller asks for another address and confirms it. -/
def requestAndConfirm : List EmailChangeEvent :=
  [.commit (.register seller),
    .request 0 ⟨⟨1⟩, 1, " shop@skrynia.store "⟩ "link", .proceed 0 ⟨7⟩ none,
    .mail 0, .delivered 0 (some true) (some true), .proceed 0 ⟨0⟩ none,
    .confirm 1 "link", .tick 5, .proceed 1 ⟨0⟩ none, .proceed 1 ⟨0⟩ none]

/-- A seller who asks for a change and follows the link has made it, the
request right before. -/
theorem change_follows_request_seller :
    (run (step AuthSystem.openCrypto true) (opening noAccounts 0)
        requestAndConfirm).history ⟨1⟩
      = [.requested "link" "shop@skrynia.store" 0]
        ++ [.changed "link" "shop@skrynia.store" 0]
    ∧ ∃ (pre' : List EmailEntry) (requested : Timestamp),
      [.requested "link" "shop@skrynia.store" 0]
        = pre' ++ [.requested "link" "shop@skrynia.store" requested]
      ∧ 0 < requested + emailChangeTtlMs
      ∧ (true = true → ("link", "shop@skrynia.store")
        ∈ (run (step AuthSystem.openCrypto true) (opening noAccounts 0)
          requestAndConfirm).mailed) :=
  have h : (run (step AuthSystem.openCrypto true) (opening noAccounts 0)
      requestAndConfirm).history ⟨1⟩
      = [.requested "link" "shop@skrynia.store" 0]
        ++ [.changed "link" "shop@skrynia.store" 0] := by
    decide +kernel
  ⟨h, change_follows_request AuthSystem.openCrypto true noAccounts 0
    requestAndConfirm ⟨1⟩ _ [] "link" "shop@skrynia.store" 0 h⟩

/-- No token changes an email twice, of one account or of two. A token is
drawn for one request (`Drawn`), and a change follows a request with its own
token, so there are no more changes than requests with it. -/
theorem token_changes_once (crypto : AuthCrypto) (production : Bool)
    (auth : AuthSystem) (now : Timestamp) (events : List EmailChangeEvent)
    (tokenHash : String) (u v : Uuid) :
    (run (step crypto production) (opening auth now) events).changesOf u
        tokenHash ≤ 1
      ∧ (0 < (run (step crypto production) (opening auth now)
          events).changesOf u tokenHash →
        0 < (run (step crypto production) (opening auth now)
          events).changesOf v tokenHash → u = v) := by
  have hsound := run_keeps (P := Sound crypto production)
    (fun s e hs => step_sound hs e) (opening_sound auth now) events
  have hdrawn : Drawn (run (step crypto production) (opening auth now) events) :=
    run_keeps (P := Drawn) (fun s e hs => step_drawn hs e)
      (opening_drawn auth now) events
  refine ⟨le_trans (hsound.changesOf_le u tokenHash) (hdrawn.once u tokenHash),
    fun hu hv => hdrawn.own u v tokenHash ?_ ?_⟩
  · exact lt_of_lt_of_le hu (hsound.changesOf_le u tokenHash)
  · exact lt_of_lt_of_le hv (hsound.changesOf_le v tokenHash)

end EmailChangeSystem

end Skrynia
