/-
What a login session is bound to.

A login compares a password with the hash of a row that it has read, and
signs a session later. The session has the version that the row has at
that moment, so whether a change in between is noticed depends on the way
it was signed: after a second factor and at a refresh the version is
compared with the one that was read, after a password alone it is not.

# The law

`login_bound_iff`: all sessions that go back to a password check are bound
to it just when no session was signed for it, without a second factor,
after a change of the account. A bound session is of no use after a
change, and until then the account is the one that was checked
(`accepted_unchanged`).

# The invariant

A moment is a length of `changes`. `Dated` compares the row of a check
with the present one, and the versions differ just when the user is among
the changes since. What a request holds names the check it comes from
(`Holds`), and so does what was drawn (`Rests`).
-/
import Skrynia.Auth.AccountCommits

namespace Skrynia

open Relational Stepping Handler

namespace AccountRow

variable {r r' r'' : AccountRow}

/-- Later credentials stay later. -/
theorem Later.trans (h : Later r r') (h' : Later r' r'') : Later r r'' := by
  have hpassword := h'.password_le
  have hemail := h'.email_le
  cases h with
  | password hlt hle => exact .password (by omega) (by omega)
  | email hlt hle => exact .email (by omega) (by omega)
  | same password email text =>
      cases h' with
      | same password' email' text' =>
          exact .same (password'.trans password) (email'.trans email)
            (text'.trans text)
      | password hlt hle => exact .password (by omega) (by omega)
      | email hlt hle => exact .email (by omega) (by omega)

/-- A row may change in several steps. -/
theorem Steps.trans (h : r.Steps r') (h' : r'.Steps r'') : r.Steps r'' where
  id := h'.id.trans h.id
  version := Nat.le_trans h.version h'.version
  same heq := by
    have hversion := h.version
    have hversion' := h'.version
    obtain ⟨hhash, hfactor, hban⟩ := h.same (by omega)
    obtain ⟨hhash', hfactor', hban'⟩ := h'.same (by omega)
    exact ⟨hhash'.trans hhash, hfactor'.trans hfactor,
      fun hbanned => hban (hban' hbanned)⟩
  later := h.later.trans h'.later

end AccountRow

-- ================================================================ requests

/-- A refresh that is answered has found the version of its record in the
row. -/
theorem refresh_ends {crypto : AuthCrypto} {cfg : AuthConfig} {a : Ambient}
    (refreshToken : String) (accessToken : Option AccessToken)
    (s : AuthSystem) :
    Ends (refresh crypto cfg a (some refreshToken) accessToken) s
      (fun _ _ => ∃ record,
        s.store.refresh (crypto.hashRefreshToken refreshToken) = some record
          ∧ s.Current record.userId record.sessionVersion)
      (fun _ => True) := by
  apply Ends.bind (Q := fun token s' => s = s' ∧ token = refreshToken)
  · exact .orThrow trivial fun token ht => ⟨rfl, (Option.some.inj ht).symm⟩
  intro token _ h
  obtain ⟨rfl, rfl⟩ := h
  apply Ends.bind (Q := fun record s' =>
    s = s' ∧ record = s.store.refresh (crypto.hashRefreshToken token))
  · exact .read trivial ⟨rfl, rfl⟩
  intro record _ h
  obtain ⟨rfl, rfl⟩ := h
  apply Ends.bind (Q := fun record s' => s = s'
    ∧ s.store.refresh (crypto.hashRefreshToken token) = some record)
  · exact .orThrow trivial fun record hrecord => ⟨rfl, hrecord⟩
  intro record _ h
  obtain ⟨rfl, hrecord⟩ := h
  apply Ends.bind (Q := fun row s' => s = s' ∧ row = s.row? record.userId)
  · exact .read trivial ⟨rfl, rfl⟩
  intro row _ h
  obtain ⟨rfl, rfl⟩ := h
  apply Ends.bind (Q := fun row s' => s = s' ∧ s.row? record.userId = some row)
  · exact .orThrow trivial fun row hrow => ⟨rfl, hrow⟩
  intro row _ h
  obtain ⟨rfl, hrow⟩ := h
  apply Ends.bind (Q := fun _ s' => s = s')
  · exact .require trivial fun _ => rfl
  intro _ _ h
  obtain rfl := h
  apply Ends.bind (Q := fun _ s' =>
    s = s' ∧ record.sessionVersion = row.security.sessionVersion)
  · exact .require trivial fun hversion => ⟨rfl, hversion⟩
  intro _ _ h
  obtain ⟨rfl, hversion⟩ := h
  unfold Ends
  split
  · exact ⟨record, hrecord, row, hrow, hversion.symm⟩
  · trivial

namespace LoginSystem

-- =============================================================== invariant

variable {crypto : AuthCrypto} {cfg : AuthConfig} {s t : LoginSystem}
  {n : Nat} {c : PasswordCheck} {d : DrawnSession}

/-- The row of the check has come to be the present one, with a new
version just if the user is among the changes since. -/
structure Dated (s : LoginSystem) (c : PasswordCheck) : Prop where
  time : c.time ≤ s.changes.length
  row : ∃ r, s.auth.row? c.row.id = some r ∧ c.row.Steps r
    ∧ (c.row.security.sessionVersion < r.security.sessionVersion
      ↔ s.ChangedSince c.row.id c.time)

/-- What a request holds is what its basis has let it have. -/
def Holds : Option Basis → LoginPhase → Prop
  | b, .idle => b = none
  | b, .verifyPassword row _ => ∀ r ∈ row, ∃ time,
      b = some (.password ⟨r, time⟩)
  | b, .issuePending row => ∃ time, b = some (.password ⟨row, time⟩)
  | b, .migrateSecrets token row _ =>
      b = some (.secondFactor token) ∧ row.id = token.identity.userId
  | b, .consumeCode token row _ =>
      b = some (.secondFactor token) ∧ row.id = token.identity.userId
  | b, .consumePending token row =>
      b = some (.secondFactor token) ∧ row.id = token.identity.userId
  | b, .prepare user expected => b = none
      ∨ (∃ c, b = some (.password c) ∧ user.id = c.row.id)
      ∨ ∃ token, b = some (.secondFactor token)
        ∧ user.id = token.identity.userId
        ∧ expected = some token.identity.sessionVersion
  | b, .refreshUser _ record _ => b = some (.refresh record)
  | b, .prepareRotation _ record row _ => b = some (.refresh record)
      ∧ row.id = record.userId
      ∧ row.security.sessionVersion = record.sessionVersion
  | _, _ => True

/-- What was drawn for a request names what its basis names. -/
def Rests (s : LoginSystem) (d : DrawnSession) : Option Basis → Prop
  | none => True
  | some (.password c) => d.userId = c.row.id
      ∧ c.row.security.sessionVersion ≤ d.session.sessionVersion
      ∧ (c.row.security.sessionVersion < d.session.sessionVersion
        ↔ s.ChangedBetween c.row.id c.time d.time)
  | some (.secondFactor token) => d.userId = token.identity.userId
      ∧ d.session.sessionVersion = token.identity.sessionVersion
  | some (.refresh record) => d.userId = record.userId
      ∧ d.session.sessionVersion = record.sessionVersion

/-- What holds of a session that was drawn: its request has begun, and its
token names its user and its version. -/
structure Drawn (s : LoginSystem) (d : DrawnSession) : Prop where
  started : s.phase d.request ≠ .idle
  time : d.time ≤ s.changes.length
  userId : d.session.accessToken.userId = d.userId
  version : d.session.accessToken.sessionVersion
    = some d.session.sessionVersion
  rests : Rests s d (s.basis d.request)

/-- What holds at all times: requests rest on their basis, and checks are
dated. -/
structure Followed (s : LoginSystem) : Prop where
  holds : ∀ n, Holds (s.basis n) (s.phase n)
  dated : ∀ n c, s.basis n = some (.password c) → Dated s c
  vouched : ∀ x ∈ s.vouched, x.1.identity.userId = x.2.row.id
    ∧ x.1.identity.sessionVersion = x.2.row.security.sessionVersion
    ∧ Dated s x.2
  drawn : ∀ d ∈ s.drawn, Drawn s d

/-- At the opening no request has begun. -/
theorem opening_followed (users : Table AccountRow.id)
    (accounts : Uuid → SecurityOpening) : Followed (opening users accounts) where
  holds _ := rfl
  dated n c hn := by cases hn
  vouched x hx := by cases hx
  drawn d hd := by cases hd

-- ================================================================= moments

/-- The accounts and the changes are as they were. -/
structure SameAccounts (s t : LoginSystem) : Prop where
  users : t.auth.users = s.auth.users
  changes : t.changes = s.changes

/-- What leaves the accounts alone leaves checks dated. -/
theorem Dated.of_same (h : Dated s c) (hst : SameAccounts s t) : Dated t c where
  time := by
    rw [hst.changes]
    exact h.time
  row := by
    unfold AuthSystem.row? ChangedSince
    rw [hst.users, hst.changes]
    exact h.row

/-- Later changes are not between two earlier moments. -/
theorem changedBetween_append {l : List Uuid} {u : Uuid} {time time' : Nat}
    (hchanges : t.changes = s.changes ++ l) (htime : time' ≤ s.changes.length) :
    t.ChangedBetween u time time' ↔ s.ChangedBetween u time time' := by
  unfold ChangedBetween
  rw [hchanges, List.take_append_of_le_length htime]

/-- Changes after a session was drawn do not matter to it. -/
theorem Rests.append {l : List Uuid} {b : Option Basis}
    (hchanges : t.changes = s.changes ++ l) (htime : d.time ≤ s.changes.length)
    (h : Rests s d b) : Rests t d b := by
  match b, h with
  | none, _ => exact trivial
  | some (.password c), h =>
      obtain ⟨huser, hle, hiff⟩ := h
      exact ⟨huser, hle, hiff.trans (changedBetween_append hchanges htime).symm⟩
  | some (.secondFactor token), h => exact h
  | some (.refresh record), h => exact h

/-- A transaction on an account is a moment of its own. -/
theorem Dated.commit (h : Dated s c) (commit : AccountCommit) :
    Dated (s.step crypto cfg (.commit commit)) c := by
  obtain ⟨r, hr, hsteps, hiff⟩ := h.row
  have hrows : AuthSystem.RowsStep _ s.auth (commit.apply crypto s.auth).2 :=
    commit.apply_rows
  obtain ⟨r', hr', hsteps', hiff'⟩ := hrows.row _ r hr
  have htime := h.time
  constructor
  · change c.time ≤ (s.changes ++ _).length
    rw [List.length_append]
    omega
  · refine ⟨r', hr', hsteps.trans hsteps', ?_⟩
    have hversion := hsteps.version
    have hversion' := hsteps'.version
    have hor : c.row.security.sessionVersion < r'.security.sessionVersion
        ↔ c.row.security.sessionVersion < r.security.sessionVersion
          ∨ r.security.sessionVersion < r'.security.sessionVersion := by
      omega
    change _ ↔ c.row.id ∈ (s.changes
      ++ (commit.apply crypto s.auth).1.toList).drop c.time
    rw [List.drop_append_of_le_length htime, List.mem_append,
      Option.mem_toList, hor, hiff, hiff']
    rfl

-- =================================================================== parts

/-- What touches neither accounts nor requests keeps all of it. -/
theorem Followed.of_same (h : Followed s) (hst : SameAccounts s t)
    (hphase : t.phase = s.phase) (hbasis : t.basis = s.basis)
    (hvouched : t.vouched = s.vouched) (hdrawn : t.drawn = s.drawn) :
    Followed t where
  holds n := by
    rw [hphase, hbasis]
    exact h.holds n
  dated n c hn := by
    rw [hbasis] at hn
    exact (h.dated n c hn).of_same hst
  vouched x hx := by
    rw [hvouched] at hx
    obtain ⟨huser, hversion, hdated⟩ := h.vouched x hx
    exact ⟨huser, hversion, hdated.of_same hst⟩
  drawn d hd := by
    rw [hdrawn] at hd
    have hd := h.drawn d hd
    have hchanges : t.changes = s.changes ++ [] := by
      rw [hst.changes, List.append_nil]
    constructor
    · rw [hphase]
      exact hd.started
    · rw [hst.changes]
      exact hd.time
    · exact hd.userId
    · exact hd.version
    · rw [hbasis]
      exact hd.rests.append hchanges hd.time

/-- Other accounts and other stores, with the accounts as they were. -/
theorem Followed.setAuth (h : Followed s) {auth : AuthSystem}
    (husers : auth.users = s.auth.users) :
    Followed { s with auth := auth } :=
  h.of_same ⟨husers, rfl⟩ rfl rfl rfl rfl

/-- A request may go on with what its basis lets it hold. -/
theorem Followed.goto (h : Followed s) {p : LoginPhase}
    (hp : Holds (s.basis n) p) (hidle : p ≠ .idle) : Followed (s.goto n p) where
  holds m := by
    change Holds (s.basis m) (Function.update s.phase n p m)
    by_cases hmn : m = n
    · subst hmn
      rw [Function.update_self]
      exact hp
    · rw [Function.update_of_ne hmn]
      exact h.holds m
  dated m c hm := (h.dated m c hm).of_same ⟨rfl, rfl⟩
  vouched x hx := by
    obtain ⟨huser, hversion, hdated⟩ := h.vouched x hx
    exact ⟨huser, hversion, hdated.of_same ⟨rfl, rfl⟩⟩
  drawn d hd := by
    have hd := h.drawn d hd
    refine ⟨?_, hd.time, hd.userId, hd.version, ?_⟩
    · change Function.update s.phase n p d.request ≠ .idle
      by_cases hmn : d.request = n
      · rw [hmn, Function.update_self]
        exact hidle
      · rw [Function.update_of_ne hmn]
        exact hd.started
    · exact hd.rests.append (List.append_nil _).symm hd.time

/-- A request begins, on a basis of its own. -/
theorem Followed.begin (h : Followed s) {p : LoginPhase} {b : Option Basis}
    (hidle : s.phase n = .idle) (hp : Holds b p)
    (hb : ∀ c, b = some (.password c) → Dated s c) :
    Followed ((s.restOn n b).goto n p) where
  holds m := by
    change Holds (Function.update s.basis n b m) (Function.update s.phase n p m)
    by_cases hmn : m = n
    · subst hmn
      rw [Function.update_self, Function.update_self]
      exact hp
    · rw [Function.update_of_ne hmn, Function.update_of_ne hmn]
      exact h.holds m
  dated m c hm := by
    rcases update_cases hm with ⟨-, hm⟩ | ⟨-, hm⟩
    · exact (hb c hm).of_same ⟨rfl, rfl⟩
    · exact (h.dated m c hm).of_same ⟨rfl, rfl⟩
  vouched x hx := by
    obtain ⟨huser, hversion, hdated⟩ := h.vouched x hx
    exact ⟨huser, hversion, hdated.of_same ⟨rfl, rfl⟩⟩
  drawn d hd := by
    have hd := h.drawn d hd
    -- Nothing has been drawn for a request that is idle.
    have hne : d.request ≠ n := by
      intro heq
      apply hd.started
      rw [heq]
      exact hidle
    refine ⟨?_, hd.time, hd.userId, hd.version, ?_⟩
    · change Function.update s.phase n p d.request ≠ .idle
      rw [Function.update_of_ne hne]
      exact hd.started
    · change Rests _ d (Function.update s.basis n b d.request)
      rw [Function.update_of_ne hne]
      exact hd.rests.append (List.append_nil _).symm hd.time

/-- A session may be drawn for the user and the version that the basis
names. -/
theorem Followed.draw (h : Followed s) {userId : Uuid}
    {session : SessionCredentials} (hphase : s.phase n ≠ .idle)
    (huser : session.accessToken.userId = userId)
    (hversion : session.accessToken.sessionVersion
      = some session.sessionVersion)
    (hrests : Rests s ⟨n, userId, session, s.changes.length⟩ (s.basis n)) :
    Followed (s.draw n userId session) where
  holds := h.holds
  dated m c hm := (h.dated m c hm).of_same ⟨rfl, rfl⟩
  vouched x hx := by
    obtain ⟨huser, hversion, hdated⟩ := h.vouched x hx
    exact ⟨huser, hversion, hdated.of_same ⟨rfl, rfl⟩⟩
  drawn d hd := by
    rcases List.mem_append.mp hd with hd | hd
    · have hd := h.drawn d hd
      exact ⟨hd.started, hd.time, hd.userId, hd.version,
        hd.rests.append (List.append_nil _).symm hd.time⟩
    · obtain rfl := List.mem_singleton.mp hd
      exact ⟨hphase, Nat.le_refl _, huser, hversion,
        hrests.append (List.append_nil _).symm (Nat.le_refl _)⟩

/-- A pending token is given for the row that was checked. -/
theorem Followed.vouch (h : Followed s) {token : PendingJwt} {row : AccountRow}
    {time : Nat} (hbasis : s.basis n = some (.password ⟨row, time⟩))
    (huser : token.identity.userId = row.id)
    (hversion : token.identity.sessionVersion = row.security.sessionVersion) :
    Followed (s.vouch n token) := by
  have hvouch : s.vouch n token
      = { s with vouched := s.vouched ++ [(token, ⟨row, time⟩)] } := by
    unfold LoginSystem.vouch
    rw [hbasis]
  rw [hvouch]
  exact
    { holds := h.holds
      dated := fun m c hm => (h.dated m c hm).of_same ⟨rfl, rfl⟩
      vouched := fun x hx => by
        rcases List.mem_append.mp hx with hx | hx
        · obtain ⟨huser, hversion, hdated⟩ := h.vouched x hx
          exact ⟨huser, hversion, hdated.of_same ⟨rfl, rfl⟩⟩
        · obtain rfl := List.mem_singleton.mp hx
          exact ⟨huser, hversion, (h.dated n _ hbasis).of_same ⟨rfl, rfl⟩⟩
      drawn := fun d hd => by
        have hd := h.drawn d hd
        exact ⟨hd.started, hd.time, hd.userId, hd.version,
          hd.rests.append (List.append_nil _).symm hd.time⟩ }

-- ================================================================ accesses

/-- The access leaves the accounts as they were, and `Q` holds of what it
returns. -/
def Access {α : Type} (s : AuthSystem) (x : AuthHandler α) (Q : α → Prop) :
    Prop :=
  Ends x s (fun v s' => s'.users = s.users ∧ Q v)
    (fun s' => s'.users = s.users)

/-- A piece of a handler keeps all of it, if what it returns does. -/
theorem Followed.perform (h : Followed s) {α : Type} {x : AuthHandler α}
    {next : α → LoginSystem → LoginSystem} {Q : α → Prop}
    (hx : Access s.auth x Q)
    (hnext : ∀ v auth, auth.users = s.auth.users → Q v →
      Followed (next v { s with auth := auth })) :
    Followed (s.perform n x next) := by
  unfold Access Ends at hx
  unfold LoginSystem.perform
  split at hx
  · next v auth heq =>
      rw [heq]
      exact hnext v auth hx.1 hx.2
  · next e auth heq =>
      rw [heq]
      exact (h.setAuth hx).goto trivial nofun

/-- Every step of a request leaves it in another phase. -/
theorem Followed.performGoto (h : Followed s) {α : Type} {x : AuthHandler α}
    {p : α → LoginPhase} {Q : α → Prop} (hx : Access s.auth x Q)
    (hp : ∀ v, Q v → Holds (s.basis n) (p v) ∧ p v ≠ .idle) :
    Followed (s.perform n x fun v s => s.goto n (p v)) := by
  apply h.perform hx
  intro v auth husers hv
  exact (h.setAuth husers).goto (hp v hv).1 (hp v hv).2

/-- A password is checked against the row that was read. -/
theorem checkPassword_access (row : Option AccountRow) (password : String)
    (auth : AuthSystem) :
    Access auth (checkPassword crypto row password) fun r => row = some r := by
  apply Ends.bind (Q := fun r s' => s'.users = auth.users ∧ row = some r)
  · refine .orThrow rfl ?_
    intro r hr
    exact ⟨rfl, (Option.filter_eq_some_iff.mp hr).1⟩
  intro r s' hr
  apply Ends.bind (Q := fun _ s' => s'.users = auth.users)
  · exact .require hr.1 fun _ => hr.1
  intro _ _ husers
  exact ⟨husers, hr.2⟩

/-- A pending token names the user and the version of the row. -/
theorem issuePending_access {a : Ambient} {k : Nat} (userId : Uuid)
    (sessionVersion : Nat) (auth : AuthSystem) :
    Access auth (issueTwoFactorPendingToken a k userId sessionVersion)
      fun token => token.identity.userId = userId
        ∧ token.identity.sessionVersion = sessionVersion := by
  apply Ends.bind (Q := fun _ s' => s'.users = auth.users)
  · exact .write rfl ⟨rfl, rfl⟩
  intro _ _ husers
  exact ⟨husers, rfl, rfl⟩

/-- A session names its user, and the version expected of it or that of the
row. -/
theorem prepare_access {a : Ambient} {k : Nat} (userId : Uuid) (role : Role)
    (expected : Option Nat) (familyId : Option String) (auth : AuthSystem) :
    Access auth (prepareSessionCredentials crypto cfg a k userId role expected
      familyId) fun session => ∃ row, auth.row? userId = some row
        ∧ (∀ v ∈ expected, v = row.security.sessionVersion)
        ∧ session.accessToken.userId = userId
        ∧ session.accessToken.sessionVersion = some session.sessionVersion
        ∧ session.sessionVersion = row.security.sessionVersion := by
  apply (AuthSystem.prepareSessionCredentials_ends k userId role expected familyId
    auth).mono
  · intro session s' hs
    obtain ⟨row, hrow, hexpected, rfl, rfl⟩ := hs
    exact ⟨rfl, row, hrow, hexpected, rfl, rfl, rfl⟩
  · intro s' hs
    rw [hs]

-- =================================================================== steps

/-- A session that is drawn has the present version of its row. -/
theorem Followed.drawPresent (h : Followed s) {auth : AuthSystem}
    (husers : auth.users = s.auth.users) {session : SessionCredentials}
    {row : AccountRow} {userId : Uuid} {p : LoginPhase}
    (hphase : s.phase n ≠ .idle) (hrow : s.auth.row? userId = some row)
    (huser : session.accessToken.userId = userId)
    (hsession : session.accessToken.sessionVersion
      = some session.sessionVersion)
    (hversion : session.sessionVersion = row.security.sessionVersion)
    (hnamed : ∀ b, s.basis n = some b → match b with
      | .password c => userId = c.row.id
      | .secondFactor token => userId = token.identity.userId
        ∧ session.sessionVersion = token.identity.sessionVersion
      | .refresh record => userId = record.userId
        ∧ session.sessionVersion = record.sessionVersion)
    (hp : Holds (s.basis n) p) (hp' : p ≠ .idle) :
    Followed ((({ s with auth := auth } : LoginSystem).draw n userId
      session).goto n p) := by
  refine ((h.setAuth husers).draw hphase huser hsession ?_).goto hp hp'
  change Rests _ _ (s.basis n)
  match hb : s.basis n, hnamed with
  | none, _ => exact trivial
  | some (.secondFactor token), hnamed => exact hnamed _ rfl
  | some (.refresh record), hnamed => exact hnamed _ rfl
  | some (.password c), hnamed =>
      have hid : userId = c.row.id := hnamed _ rfl
      obtain ⟨r, hr, hsteps, hiff⟩ := (h.dated n c hb).row
      rw [← hid, hrow] at hr
      obtain rfl := Option.some.inj hr
      refine ⟨hid, ?_, ?_⟩
      · rw [hversion]
        exact hsteps.version
      · rw [hversion]
        refine hiff.trans ?_
        unfold ChangedSince ChangedBetween
        rw [List.take_length]

/-- A row is found by its id. -/
theorem row?_id {auth : AuthSystem} {u : Uuid} {r : AccountRow}
    (h : auth.row? u = some r) : r.id = u := Table.key_of_find? h

/-- A rotation signs for the user and version of its record. -/
theorem rotateStep_followed (h : Followed s) (n : Nat) (a : Ambient)
    (user : AuthUser) (i : Rotation) (attempts : Nat) :
    Followed (s.rotateStep n a user i attempts) := by
  have hx : Access s.auth (evalRotation a 0 i) fun _ => True := by
    refine .access rfl ?_
    intro reply s' hs'
    obtain ⟨rfl, rfl⟩ := Prod.mk.inj (Except.ok.inj hs')
    exact ⟨⟨rfl, trivial⟩, rfl⟩
  unfold Access Ends at hx
  unfold rotateStep
  split
  · next auth heq =>
      rw [heq] at hx
      exact (h.setAuth hx.1).goto trivial nofun
  · next auth heq =>
      rw [heq] at hx
      exact (h.setAuth hx.1).goto trivial nofun
  · next auth heq =>
      rw [heq] at hx
      exact (h.setAuth hx.1).goto trivial nofun
  · next e auth heq =>
      rw [heq] at hx
      cases attempts with
      | zero => exact (h.setAuth hx).goto trivial nofun
      | succ attempts => exact (h.setAuth hx).goto trivial nofun

/-- The next access of any request keeps all of it. A read adds to what the
request rests on, a commit to the changes of an account, and a draw is dated
by the row that was read last. -/
theorem proceed_followed (h : Followed s) (n : Nat) (a : Ambient) :
    Followed (s.proceed crypto cfg n a) := by
  have hn := h.holds n
  unfold proceed
  split
  · exact h
  · next row password hphase =>
      rw [hphase] at hn
      apply h.performGoto (checkPassword_access row password s.auth)
      intro r hr
      obtain ⟨time, hb⟩ := hn r hr
      split
      · exact ⟨⟨time, hb⟩, nofun⟩
      · exact ⟨Or.inr (Or.inl ⟨_, hb, rfl⟩), nofun⟩
  · next row hphase =>
      rw [hphase] at hn
      obtain ⟨time, hb⟩ := hn
      apply h.perform (issuePending_access row.id row.security.sessionVersion
        s.auth)
      intro token auth husers htoken
      exact ((h.setAuth husers).vouch hb htoken.1 htoken.2).goto trivial nofun
  · next token row code hphase =>
      rw [hphase] at hn
      apply h.performGoto (Q := fun _ => True)
      · exact Ends.write rfl ⟨⟨rfl, trivial⟩, rfl⟩
      · exact fun _ _ => ⟨hn, nofun⟩
  · next token row code hphase =>
      rw [hphase] at hn
      apply h.performGoto (Q := fun _ => True)
      · apply Ends.bind (Q := fun _ s' => s'.users = s.auth.users)
        · refine .access rfl ?_
          intro valid s' hs'
          obtain ⟨rfl, rfl⟩ := Prod.mk.inj (Except.ok.inj hs')
          have hfactors : AuthSystem.FactorsOnly s.auth
              (s.auth.consumeTwoFactorCode crypto token.identity.userId code
                a.now).2 := AuthSystem.consumeTwoFactorCode_factors code a.now
          exact ⟨hfactors.users, hfactors.users⟩
        · intro valid s' husers
          exact .require husers fun _ => ⟨husers, trivial⟩
      · exact fun _ _ => ⟨hn, nofun⟩
  · next token row hphase =>
      rw [hphase] at hn
      apply h.performGoto (Q := fun _ => True)
      · apply Ends.bind (Q := fun _ s' => s'.users = s.auth.users)
        · refine .access rfl ?_
          intro consumed s' hs'
          obtain ⟨rfl, rfl⟩ := Prod.mk.inj (Except.ok.inj hs')
          exact ⟨rfl, rfl⟩
        · intro consumed s' husers
          exact .require husers fun _ => ⟨husers, trivial⟩
      · exact fun _ _ => ⟨Or.inr (Or.inr ⟨token, hn.1, hn.2, rfl⟩), nofun⟩
  · next user expected hphase =>
      rw [hphase] at hn
      apply h.perform (prepare_access user.id user.role expected none s.auth)
      intro session auth husers hsession
      obtain ⟨row, hrow, hexpected, huser, hsigned, hversion⟩ := hsession
      refine h.drawPresent husers ?_ hrow huser hsigned hversion ?_ trivial
        nofun
      · rw [hphase]
        exact nofun
      · intro b hb
        rcases hn with hnone | ⟨c, hc, hid⟩ | ⟨token, htoken, hid, hsome⟩
        · rw [hnone] at hb
          cases hb
        · obtain rfl := Option.some.inj (hc.symm.trans hb)
          exact hid
        · obtain rfl := Option.some.inj (htoken.symm.trans hb)
          refine ⟨hid, hversion.trans ?_⟩
          exact (hexpected _ hsome).symm
  · next user session hphase =>
      apply h.performGoto (Q := fun _ => True)
      · exact Ends.write rfl ⟨⟨rfl, trivial⟩, rfl⟩
      · exact fun _ _ => ⟨trivial, nofun⟩
  · next tokenHash record accessToken hphase =>
      rw [hphase] at hn
      apply h.performGoto (Q := fun row => row.id = record.userId
        ∧ row.security.sessionVersion = record.sessionVersion)
      · apply Ends.bind (Q := fun row s' => s'.users = s.auth.users
          ∧ row = s.auth.row? record.userId)
        · exact .read rfl ⟨rfl, rfl⟩
        intro row s' hs'
        obtain ⟨husers, rfl⟩ := hs'
        apply Ends.bind (Q := fun row s' => s'.users = s.auth.users
          ∧ row.id = record.userId)
        · exact .orThrow husers fun row hrow => ⟨husers, row?_id hrow⟩
        intro row s' hs'
        apply Ends.bind (Q := fun _ s' => s'.users = s.auth.users)
        · exact .require hs'.1 fun _ => hs'.1
        intro _ s'' husers
        apply Ends.bind (Q := fun _ s' => s'.users = s.auth.users
          ∧ record.sessionVersion = row.security.sessionVersion)
        · exact .require husers fun hversion => ⟨husers, hversion⟩
        intro _ s₃ hs₃
        exact ⟨hs₃.1, hs'.2, hs₃.2.symm⟩
      · exact fun row hrow => ⟨⟨hn, hrow⟩, nofun⟩
  · next tokenHash record row accessToken hphase =>
      rw [hphase] at hn
      obtain ⟨hb, hid, hversion⟩ := hn
      apply h.perform (Q := fun i => ∃ r, s.auth.row? row.id = some r
        ∧ r.security.sessionVersion = row.security.sessionVersion
        ∧ i.session.accessToken.userId = row.id
        ∧ i.session.accessToken.sessionVersion = some i.session.sessionVersion
        ∧ i.session.sessionVersion = r.security.sessionVersion)
      · apply Ends.bind (prepare_access row.id row.role
          (some row.security.sessionVersion)
          (some (record.familyId.getD tokenHash)) s.auth)
        intro session s' hs'
        obtain ⟨husers, r, hr, hexpected, huser, hsigned, hdrawn⟩ := hs'
        apply Ends.bind (Q := fun _ s' => s'.users = s.auth.users)
        · exact .read husers husers
        intro previous s'' husers'
        exact ⟨husers', r, hr, (hexpected _ rfl).symm, huser, hsigned, hdrawn⟩
      · intro i auth husers hi
        obtain ⟨r, hr, hsame, huser, hsigned, hdrawn⟩ := hi
        refine h.drawPresent husers ?_ hr huser hsigned hdrawn ?_ trivial nofun
        · rw [hphase]
          exact nofun
        · intro b hb'
          obtain rfl := Option.some.inj (hb.symm.trans hb')
          exact ⟨hid, (hdrawn.trans hsame).trans hversion⟩
  · next user i attempts hphase => exact rotateStep_followed h n a user i attempts
  · exact h

/-- What else commits on an account is among the changes. -/
theorem commit_followed (h : Followed s) (commit : AccountCommit) :
    Followed (s.step crypto cfg (.commit commit)) where
  holds := h.holds
  dated n c hn := (h.dated n c hn).commit commit
  vouched x hx := by
    obtain ⟨huser, hversion, hdated⟩ := h.vouched x hx
    exact ⟨huser, hversion, hdated.commit commit⟩
  drawn d hd := by
    have hd := h.drawn d hd
    have htime := hd.time
    refine ⟨hd.started, ?_, hd.userId, hd.version, hd.rests.append rfl htime⟩
    change d.time ≤ (s.changes ++ _).length
    rw [List.length_append]
    omega

/-- The row that a login has read is the present one. -/
theorem dated_of_row {r : AccountRow} (hr : s.auth.row? r.id = some r) :
    Dated s ⟨r, s.changes.length⟩ where
  time := Nat.le_refl _
  row := by
    refine ⟨r, hr, .refl r, iff_of_false (lt_irrefl _) ?_⟩
    unfold ChangedSince
    rw [List.drop_length]
    exact List.not_mem_nil

/-- Every event keeps all of it. -/
theorem step_followed (h : Followed s) (e : LoginEvent) :
    Followed (s.step crypto cfg e) := by
  cases e with
  | login n email password a =>
      dsimp only [step]
      split
      · next hidle =>
          apply h.perform (Q := fun row =>
            ∀ r, row = some r → s.auth.row? r.id = some r)
          · refine Ends.read rfl ⟨rfl, ?_⟩
            intro r hr
            exact Table.find?_eq_some.mpr ⟨List.mem_of_find?_eq_some hr, rfl⟩
          · intro row auth husers hrow
            apply (h.setAuth husers).begin hidle
            · intro r hr
              obtain rfl := Option.mem_def.mp hr
              exact ⟨_, rfl⟩
            · intro c hc
              obtain ⟨r, rfl, hcheck⟩ := Option.map_eq_some_iff.mp hc
              obtain rfl := Basis.password.inj hcheck
              refine (dated_of_row (hrow r rfl)).of_same ⟨?_, rfl⟩
              exact husers
      · exact h
  | twoFactorVerify n token code a =>
      dsimp only [step]
      split
      · next hidle =>
          apply h.perform (Q := fun row => row.id = token.identity.userId)
          · apply Ends.bind (Q := fun _ s' => s'.users = s.auth.users)
            · exact .read rfl rfl
            intro signed s' husers
            apply Ends.bind (Q := fun _ s' => s'.users = s.auth.users)
            · exact .require husers fun _ => husers
            intro _ s'' husers
            apply Ends.bind (Q := fun row s' => s'.users = s.auth.users
              ∧ row = s''.row? token.identity.userId)
            · exact .read husers ⟨husers, rfl⟩
            intro row s₃ hs₃
            obtain ⟨husers, rfl⟩ := hs₃
            apply Ends.bind (Q := fun row s' => s'.users = s.auth.users
              ∧ row.id = token.identity.userId)
            · exact .orThrow husers fun row hrow => ⟨husers, row?_id hrow⟩
            intro row s₄ hs₄
            apply Ends.bind (Q := fun _ s' => s'.users = s.auth.users)
            · exact .require hs₄.1 fun _ => hs₄.1
            intro _ s₅ husers
            apply Ends.bind (Q := fun _ s' => s'.users = s.auth.users)
            · exact .require husers fun _ => husers
            intro _ s₆ husers
            exact ⟨husers, hs₄.2⟩
          · intro row auth husers hrow
            exact (h.setAuth husers).begin hidle ⟨rfl, hrow⟩ nofun
      · exact h
  | refresh n refreshToken accessToken a =>
      dsimp only [step]
      split
      · next hidle =>
          apply h.perform (Q := fun _ => True)
          · apply Ends.bind (Q := fun _ s' => s'.users = s.auth.users)
            · exact .read rfl rfl
            intro record s' husers
            exact .orThrow husers fun _ _ => ⟨husers, trivial⟩
          · intro record auth husers _
            exact (h.setAuth husers).begin hidle rfl nofun
      · exact h
  | issueSession n user =>
      dsimp only [step]
      split
      · next hidle =>
          have hn := h.holds n
          rw [hidle] at hn
          exact h.goto (Or.inl hn) nofun
      · exact h
  | proceed n a => exact proceed_followed h n a
  | commit commit => exact commit_followed h commit
  | revokeAll userId => exact h.setAuth rfl
  | withdraw w => exact h.setAuth rfl

-- ================================================================= sessions

/-- Signed for the check without a second factor, after a change. -/
def Slips (s : LoginSystem) (c : PasswordCheck) (d : DrawnSession) : Prop :=
  s.basis d.request = some (.password c)
    ∧ s.ChangedBetween c.row.id c.time d.time

/-- A check that some session goes back to is dated. -/
theorem Followed.restsOn_dated (h : Followed s) (hn : s.RestsOn n c) :
    Dated s c := by
  induction hn with
  | password basis => exact h.dated _ _ basis
  | secondFactor _ vouched => exact (h.vouched _ vouched).2.2
  | refresh _ _ _ ih => exact ih

/-- Whatever goes back to a check has the version of its row, unless a
session for it has slipped. -/
theorem Followed.version_eq (h : Followed s)
    (hslips : ∀ d ∈ s.drawn, ¬ s.Slips c d) (hn : s.RestsOn n c) :
    ∀ d ∈ s.drawn, d.request = n → d.userId = c.row.id
      ∧ d.session.sessionVersion = c.row.security.sessionVersion := by
  induction hn with
  | @password n c basis =>
      intro d hd hrequest
      rw [← hrequest] at basis
      have hrests := (h.drawn d hd).rests
      rw [basis] at hrests
      obtain ⟨huser, hle, hiff⟩ := hrests
      have hnot : ¬ s.ChangedBetween c.row.id c.time d.time :=
        fun hchanged => hslips d hd ⟨basis, hchanged⟩
      have hnlt := mt hiff.mp hnot
      exact ⟨huser, by omega⟩
  | @secondFactor n token c basis vouched =>
      intro d hd hrequest
      rw [← hrequest] at basis
      have hrests := (h.drawn d hd).rests
      rw [basis] at hrests
      obtain ⟨huser, hversion, -⟩ := h.vouched _ vouched
      exact ⟨hrests.1.trans huser, hrests.2.trans hversion⟩
  | @refresh n d' c basis drawn _ ih =>
      intro d hd hrequest
      rw [← hrequest] at basis
      have hrests := (h.drawn d hd).rests
      rw [basis] at hrests
      obtain ⟨huser, hversion⟩ := ih hslips d' drawn rfl
      exact ⟨hrests.1.trans huser, hrests.2.trans hversion⟩

/-- A version that was left behind is not the one of the row. -/
theorem Dated.not_current (h : Dated s c)
    (hchanged : s.ChangedSince c.row.id c.time) :
    ¬ s.auth.Current c.row.id c.row.security.sessionVersion := by
  intro hcurrent
  obtain ⟨r, hr, hversion⟩ := hcurrent
  obtain ⟨r', hr', -, hiff⟩ := h.row
  obtain rfl := Option.some.inj (hr.symm.trans hr')
  have hlt := hiff.mpr hchanged
  omega

/-- Who authenticates with a session has its version in the row. -/
theorem Drawn.current_of_authenticate (hd : Drawn s d) {a : Ambient}
    {user : AuthUser}
    (h : (authenticate a (some d.session.accessToken) s.auth).1 = .ok user) :
    s.auth.Current d.userId d.session.sessionVersion := by
  obtain ⟨-, t, row, ht, -, hlive, -⟩ :=
    (AuthSystem.authenticate_ends _ s.auth).of_ok h
  obtain rfl := Option.some.inj ht
  have hcurrent := hlive.current
  rw [hd.userId, hd.version, Option.getD_some] at hcurrent
  exact hcurrent

/-- Without a slip every session that goes back to a check is bound to it. -/
theorem Followed.bound (h : Followed s)
    (hslips : ∀ d ∈ s.drawn, ¬ s.Slips c d) (hd : d ∈ s.drawn)
    (hrests : s.RestsOn d.request c) : s.Bound c d := by
  obtain ⟨huser, hversion⟩ := h.version_eq hslips hrests d hd rfl
  have hdated : Dated s c := h.restsOn_dated hrests
  have hdrawn : Drawn s d := h.drawn d hd
  refine ⟨hversion, ?_, ?_⟩
  · intro hchanged a user hok
    have hcurrent := hdrawn.current_of_authenticate hok
    rw [huser, hversion] at hcurrent
    exact hdated.not_current hchanged hcurrent
  · intro hchanged crypto cfg a refreshToken accessToken response hstored hok
    obtain ⟨record, hrecord, hcurrent⟩ :=
      (refresh_ends refreshToken accessToken s.auth).of_ok hok
    obtain rfl := Option.some.inj (hrecord.symm.trans hstored)
    change s.auth.Current d.userId d.session.sessionVersion at hcurrent
    rw [huser, hversion] at hcurrent
    exact hdated.not_current hchanged hcurrent

/-- A session that slipped has another version. -/
theorem Followed.not_bound (h : Followed s) (hd : d ∈ s.drawn)
    (hslips : s.Slips c d) : ¬ s.Bound c d := by
  intro hbound
  have hrests := (h.drawn d hd).rests
  rw [hslips.1] at hrests
  obtain ⟨-, -, hiff⟩ := hrests
  have hlt := hiff.mpr hslips.2
  have hversion := hbound.version
  omega

/-- All of it holds in every run. -/
theorem run_followed (users : Table AccountRow.id)
    (accounts : Uuid → SecurityOpening) (events : List LoginEvent) :
    Followed (run (step crypto cfg) (opening users accounts) events) :=
  run_keeps (P := Followed) (fun _ e hs => step_followed hs e)
    (opening_followed users accounts) events

/-- In every interleaving of logins, refreshes and changes of accounts,
the sessions that go back to a password check are all bound to it just
when none slipped: one signed for the password alone, with a change
committed since the password hash was read. -/
theorem login_bound_iff (crypto : AuthCrypto) (cfg : AuthConfig)
    (users : Table AccountRow.id) (accounts : Uuid → SecurityOpening)
    (events : List LoginEvent) (c : PasswordCheck) :
    let s := run (step crypto cfg) (opening users accounts) events
    (∀ d ∈ s.drawn, s.RestsOn d.request c → s.Bound c d)
      ↔ ∀ d ∈ s.drawn, ¬ s.Slips c d := by
  intro s
  have h : Followed s := run_followed users accounts events
  constructor
  · intro hbound d hd hslips
    exact h.not_bound hd hslips (hbound d hd (.password hslips.1))
  · intro hslips d hd hrests
    exact h.bound hslips hd hrests

/-- Whoever is let in by a session that goes back to a password check has the
password and the second factor that were checked: between the check and the
commit that draws the session, nothing that raises the version of either was
committed. -/
theorem accepted_unchanged (crypto : AuthCrypto) (cfg : AuthConfig)
    (users : Table AccountRow.id) (accounts : Uuid → SecurityOpening)
    (events : List LoginEvent) (c : PasswordCheck) (d : DrawnSession)
    (a : Ambient) (user : AuthUser) :
    let s := run (step crypto cfg) (opening users accounts) events
    (∀ d ∈ s.drawn, ¬ s.Slips c d) → d ∈ s.drawn → s.RestsOn d.request c →
    (authenticate a (some d.session.accessToken) s.auth).1 = .ok user →
    ∃ r, s.auth.row? c.row.id = some r
      ∧ r.security.passwordHash = c.row.security.passwordHash
      ∧ r.security.twoFactorEnabled = c.row.security.twoFactorEnabled := by
  intro s hslips hd hrests hok
  have h : Followed s := run_followed users accounts events
  obtain ⟨huser, hversion⟩ := h.version_eq hslips hrests d hd rfl
  obtain ⟨r, hr, hsteps, -⟩ := (h.restsOn_dated hrests).row
  have hcurrent := (h.drawn d hd).current_of_authenticate hok
  rw [huser, hversion] at hcurrent
  obtain ⟨r', hr', hsame⟩ := hcurrent
  obtain rfl := Option.some.inj (hr'.symm.trans hr)
  obtain ⟨hhash, hfactor, -⟩ := hsteps.same hsame
  exact ⟨r', hr, hhash, hfactor⟩

/-- A shopper with a password. -/
def shopper : AccountRow where
  id := ⟨1⟩
  email := "shopper@skrynia.store"
  displayName := "Shopper"
  role := .user
  telegramId := none
  emailVerifiedAt := none
  security := ⟨some "secret", false, 1, false⟩
  emailGeneration := 1
  passwordGeneration := 1

/-- A login with the password, one access after the other. -/
def passwordLogin : List LoginEvent :=
  [.commit (.register shopper),
    .login 0 "shopper@skrynia.store" "secret" (AuthSystem.calm "jti"),
    .proceed 0 (AuthSystem.calm "jti"), .proceed 0 (AuthSystem.calm "jti"),
    .proceed 0 (AuthSystem.calm "jti")]

/-- A shop before anybody has registered. -/
def shop : LoginSystem :=
  opening Table.empty fun _ => ⟨⟨none, false, 1, false⟩, none, []⟩

/-- The shopper signs in, and the account is the one whose password was
checked. -/
theorem accepted_unchanged_shopper :
    ∃ r, (run (step AuthSystem.openCrypto AuthSystem.openConfig) shop
        passwordLogin).auth.row? ⟨1⟩ = some r
      ∧ r.security.passwordHash = some "secret"
      ∧ r.security.twoFactorEnabled = false := by
  apply accepted_unchanged AuthSystem.openCrypto AuthSystem.openConfig
    Table.empty (fun _ => ⟨⟨none, false, 1, false⟩, none, []⟩) passwordLogin
    ⟨shopper, 0⟩
    ⟨0, ⟨1⟩, drawCredentials AuthSystem.openCrypto AuthSystem.openConfig
      (AuthSystem.calm "jti") ⟨1⟩ .user 1 none, 0⟩ (AuthSystem.calm "jti")
    shopper.user
  · intro d hd hslips
    obtain rfl := List.mem_singleton.mp hd
    exact absurd hslips.2 List.not_mem_nil
  · exact List.mem_singleton.mpr rfl
  · exact .password rfl
  · rfl

end LoginSystem

end Skrynia
