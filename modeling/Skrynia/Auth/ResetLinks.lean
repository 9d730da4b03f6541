/-
Password reset links, one access at a time.

A request for a link commits a new generation of the password first, then
stores the token under it, then reads the account again and takes the
token back if it is not the account's any more. A reset takes the token,
hashes the new password and writes it, if the account is still the one
that the token was issued for. Between two accesses of a request anything
may happen to the account (`AccountCommit`) and other requests run.

# History

`history` has what happened to the password and the email of a user, in
the order of the commits: a link that was requested, a reset, or anything
else that is a new generation of either (`changed`).

# The argument

A record is only as good as the generations it names. Generations never
fall, so a record that names those of the row is the one of the last
entry of the history (`Backed`): a reset that is written follows its own
request with nothing in between.
-/
import Skrynia.Auth.AccountCommits

namespace Skrynia

open Relational Stepping

-- ================================================================= model

/-- `CANCEL_PASSWORD_RESET_ISSUE_SCRIPT`. -/
def SessionStore.cancelReset (st : SessionStore)
    (record : PasswordResetTokenRecord) (tokenHash : String) : SessionStore :=
  { st with
    passwordReset := Function.update st.passwordReset tokenHash none
    passwordResetActive :=
      if st.passwordResetActive record.userId
          = some (record.passwordGeneration, tokenHash) then
        Function.update st.passwordResetActive record.userId none
      else st.passwordResetActive }

/-- `normalizeEmail`. -/
def normalizeEmail (crypto : AuthCrypto) (email : String) : String :=
  crypto.lower (jsTrim email)

/-- What can happen to the credentials of a user. -/
inductive CredentialEntry where
  | requested (passwordGeneration : Nat)
  | reset (passwordGeneration : Nat)
  | changed
deriving DecidableEq

/-- Where a request is between two of its accesses. -/
inductive ResetPhase where
  | idle
  | openReset (row : AccountRow)
  | store (record : PasswordResetTokenRecord) (attempt : Nat)
  | recheck (record : PasswordResetTokenRecord) (tokenHash : String)
  | cancel (record : PasswordResetTokenRecord) (tokenHash : String)
  /-- The link is on its way to the address. -/
  | sent (record : PasswordResetTokenRecord) (tokenHash : String)
  | hashing (record : PasswordResetTokenRecord)
  | revoke (userId : Uuid)
  | ended (written : Bool)

/-- The accounts, and where each request stands. -/
structure ResetSystem where
  auth : AuthSystem
  now : Timestamp
  phase : Nat → ResetPhase
  /-- The tokens stored so far, with their records. -/
  links : List (String × PasswordResetTokenRecord)
  /-- The hashes of the tokens that were presented. -/
  presented : List String
  history : Uuid → List CredentialEntry

/-- What may happen next. -/
inductive ResetEvent where
  | tick (milliseconds : Nat)
  /-- POST /password/forgot. -/
  | forgot (n : Nat) (email : String)
  /-- POST /password/reset, with a token of this hash. -/
  | reset (n : Nat) (tokenHash : String) (fault : Option Fault)
  /-- The next access of a request, with what it draws or has hashed. -/
  | proceed (n : Nat) (drawn : String) (fault : Option Fault)
  | commit (c : AccountCommit)
  /-- The time of a token is up, and the one of a user's active token. -/
  | expireToken (tokenHash : String)
  | expireActive (userId : Uuid)

/-- `PASSWORD_RESET_TTL_MS`: an hour. -/
def passwordResetTtlMs : Nat := 60 * 60 * 1000

/-- The record that a request will store or act on. -/
def ResetPhase.record : ResetPhase → Option PasswordResetTokenRecord
  | .store record _ => some record
  | .hashing record => some record
  | _ => none

namespace ResetSystem

variable (crypto : AuthCrypto) (s : ResetSystem)

/-- Any accounts, and no token yet. -/
def opening (auth : AuthSystem) (now : Timestamp) : ResetSystem where
  auth := auth.setStore { auth.store with
    passwordReset := fun _ => none
    passwordResetActive := fun _ => none }
  now := now
  phase := fun _ => .idle
  links := []
  presented := []
  history := fun _ => []

/-- A request goes on to its next access. -/
def goto (n : Nat) (p : ResetPhase) : ResetSystem :=
  { s with phase := Function.update s.phase n p }

/-- An entry is added to the history of a user. -/
def log (userId : Uuid) (entry : CredentialEntry) : ResetSystem :=
  { s with
    history := Function.update s.history userId
      (s.history userId ++ [entry]) }

/-- What a request does and where it goes from there, unless the access
breaks off. -/
def perform (n : Nat) (fault : Option Fault)
    (done : ResetSystem × ResetPhase) : ResetSystem :=
  match fault with
  | none => done.1.goto n done.2
  | some .refused => s.goto n (.ended false)
  | some .replyLost => done.1.goto n (.ended false)

/-- The new generation, and the record of the token to come. -/
def openReset (row : AccountRow) : ResetSystem × ResetPhase :=
  match s.auth.openReset crypto row with
  | .error _ => (s, .ended false)
  | .ok (row, auth) =>
      ((({ s with auth := auth } : ResetSystem).log row.id
          (.requested row.passwordGeneration)),
        .store {
          userId := row.id
          expectedEmail := normalizeEmail crypto row.email
          emailGeneration := row.emailGeneration
          passwordGeneration := row.passwordGeneration
          expiresAt := s.now + passwordResetTtlMs } 0)

/-- `issuePasswordResetToken`: the script stores the token unless a newer
link is active. -/
def store (record : PasswordResetTokenRecord) (attempt : Nat)
    (tokenHash : String) : ResetSystem × ResetPhase :=
  let answer := s.auth.store.issueReset record tokenHash
  let s' := { s with auth := s.auth.setStore answer.2 }
  if answer.1 = 1 then
    ({ s' with links := s.links ++ [(tokenHash, record)] },
      .recheck record tokenHash)
  else if answer.1 = -1 ∨ attempt ≠ 0 then (s', .ended false)
  else (s', .store record (attempt + 1))

/-- The account is still the one that the token was issued for. -/
def Current (record : PasswordResetTokenRecord) (r : AccountRow) : Prop :=
  normalizeEmail crypto r.email = record.expectedEmail
    ∧ r.emailGeneration = record.emailGeneration
    ∧ r.passwordGeneration = record.passwordGeneration

instance (record : PasswordResetTokenRecord) (r : AccountRow) :
    Decidable (Current crypto record r) :=
  inferInstanceAs (Decidable (_ ∧ _ ∧ _))

/-- The account is read again once the token is stored. -/
def recheck (record : PasswordResetTokenRecord) (tokenHash : String) :
    ResetSystem × ResetPhase :=
  (s, if ∃ r ∈ s.auth.row? record.userId, Current crypto record r then
      .sent record tokenHash
    else .cancel record tokenHash)

/-- The token is taken back. -/
def cancel (record : PasswordResetTokenRecord) (tokenHash : String) :
    ResetSystem × ResetPhase :=
  ({ s with
    auth := s.auth.setStore (s.auth.store.cancelReset record tokenHash) },
    .ended false)

/-- The token is used up, also when its record is not good. -/
def consume (tokenHash : String) : ResetSystem × ResetPhase :=
  let answer := s.auth.store.consumeReset tokenHash s.now
  ({ s with
      auth := s.auth.setStore answer.2
      presented := s.presented ++ [tokenHash] },
    match answer.1 with
    | none => .ended false
    | some record =>
        if normalizeEmail crypto record.expectedEmail = record.expectedEmail
        then .hashing record
        else .ended false)

/-- The guarded UPDATE. -/
def writePassword (record : PasswordResetTokenRecord) (passwordHash : String) :
    ResetSystem × ResetPhase :=
  match s.auth.row? record.userId with
  | none => (s, .ended false)
  | some row =>
      let written := s.auth.writePassword row (fun r =>
        r.passwordGeneration = record.passwordGeneration
          ∧ r.emailGeneration = record.emailGeneration
          ∧ crypto.lower r.email = record.expectedEmail) passwordHash
      let s' := { s with auth := written.2 }
      if written.1 then
        (s'.log record.userId (.reset record.passwordGeneration),
          .revoke record.userId)
      else (s', .ended false)

/-- The next access of a request. -/
def proceed (n : Nat) (drawn : String) (fault : Option Fault) : ResetSystem :=
  match s.phase n with
  | .openReset row => s.perform n fault (s.openReset crypto row)
  | .store record attempt =>
      -- A token that is drawn is new.
      if drawn ∈ s.links.map Prod.fst ∨ drawn ∈ s.presented then s
      else s.perform n fault (s.store record attempt drawn)
  | .recheck record tokenHash =>
      s.perform n fault (s.recheck crypto record tokenHash)
  | .cancel record tokenHash => s.perform n fault (s.cancel record tokenHash)
  | .hashing record => s.perform n fault (s.writePassword crypto record drawn)
  | .revoke userId =>
      -- What fails is only logged.
      let revoked := { s with
        auth := s.auth.setStore (s.auth.store.revokeAll userId) }
      (if fault = some .refused then s else revoked).goto n (.ended true)
  | _ => s

/-- What is compared of an account to see whether it has changed. -/
def credential (auth : AuthSystem) (userId : Uuid) :
    Option (Nat × Nat × String) :=
  (auth.row? userId).map fun r =>
    (r.passwordGeneration, r.emailGeneration, r.email)

/-- Another transaction on an account. -/
def commit (c : AccountCommit) : ResetSystem :=
  let auth := (c.apply crypto s.auth).2
  { s with
    auth := auth
    history := fun u =>
      if credential auth u = credential s.auth u then s.history u
      else s.history u ++ [.changed] }

/-- Whether a commit is a reset, which this module runs itself. -/
def AccountCommit.isPasswordReset : AccountCommit → Bool
  | .passwordReset _ _ => true
  | _ => false

/-- The token has been stored, and is over. -/
def Expired (tokenHash : String) : Prop :=
  ∃ x ∈ s.links, x.1 = tokenHash ∧ x.2.expiresAt ≤ s.now

instance (tokenHash : String) : Decidable (s.Expired tokenHash) :=
  inferInstanceAs (Decidable (∃ x ∈ s.links, _))

/-- One event. -/
def step (s : ResetSystem) : ResetEvent → ResetSystem
  | .tick milliseconds => { s with now := s.now + milliseconds }
  | .forgot n email =>
      match s.phase n with
      | .idle =>
          match s.auth.users.rows.find? fun r => r.email = crypto.lower email with
          | none => s.goto n (.ended false)
          | some row => s.goto n (.openReset row)
      | _ => s
  | .reset n tokenHash fault =>
      match s.phase n with
      | .idle => s.perform n fault (s.consume crypto tokenHash)
      | _ => s
  | .proceed n drawn fault => s.proceed crypto n drawn fault
  | .commit c =>
      -- The one on the other side of this boundary is `writePassword`.
      if AccountCommit.isPasswordReset c then s else s.commit crypto c
  | .expireToken tokenHash =>
      if s.Expired tokenHash then
        { s with auth := s.auth.setStore { s.auth.store with
          passwordReset :=
            Function.update s.auth.store.passwordReset tokenHash none } }
      else s
  | .expireActive userId =>
      match s.auth.store.passwordResetActive userId with
      | none => s
      | some active =>
          if s.Expired active.2 then
            { s with auth := s.auth.setStore { s.auth.store with
              passwordResetActive := Function.update
                s.auth.store.passwordResetActive userId none } }
          else s

-- =============================================================== histories

/-- Each reset comes right after the request for its own link. -/
def Follows (l : List CredentialEntry) : Prop :=
  ∀ pre g post, l = pre ++ .reset g :: post →
    ∃ pre', pre = pre' ++ [.requested g]

/-- Nothing has happened yet. -/
theorem follows_nil : Follows [] := by
  intro pre g post h
  cases pre <;> cases h

/-- An entry follows the last one; a reset follows its own request. -/
theorem follows_snoc {l : List CredentialEntry} {e : CredentialEntry}
    (hl : Follows l)
    (he : ∀ g, e = .reset g → l.getLast? = some (.requested g)) :
    Follows (l ++ [e]) := by
  intro pre g post h
  rcases List.eq_nil_or_concat post with rfl | ⟨post', x, rfl⟩
  · obtain ⟨rfl, heq⟩ := List.append_inj' h rfl
    obtain ⟨pre', hpre⟩ :=
      List.getLast?_eq_some_iff.mp (he g (List.singleton_inj.mp heq))
    exact ⟨pre', hpre⟩
  · have hassoc : l ++ [e] = (pre ++ .reset g :: post') ++ [x] := by
      rw [h]
      simp
    exact hl pre g post' (List.append_inj' hassoc rfl).1

-- =============================================================== invariant

/-- A record that is stored, or that a request has. -/
def Known (s : ResetSystem) (ρ : PasswordResetTokenRecord) : Prop :=
  (∃ h, s.auth.store.passwordReset h = some ρ)
    ∨ ∃ n, (s.phase n).record = some ρ

/-- If the generations of the record are the ones of the row, its request
is the last entry. -/
def Backed (s : ResetSystem) (ρ : PasswordResetTokenRecord) : Prop :=
  ∃ r, s.auth.row? ρ.userId = some r
    ∧ ρ.passwordGeneration ≤ r.passwordGeneration
    ∧ ρ.emailGeneration ≤ r.emailGeneration
    ∧ (r.passwordGeneration = ρ.passwordGeneration →
      r.emailGeneration = ρ.emailGeneration →
      (s.history ρ.userId).getLast? = some (.requested ρ.passwordGeneration))

/-- What holds at all times: records are backed, and resets follow their
requests. -/
structure Sound (s : ResetSystem) : Prop where
  backed : ∀ ρ, Known s ρ → Backed s ρ
  follows : ∀ u, Follows (s.history u)

variable {crypto : AuthCrypto} {s t : ResetSystem}
  {ρ : PasswordResetTokenRecord} {n : Nat} {p : ResetPhase}

/-- Before any request there is no record. -/
theorem opening_sound (auth : AuthSystem) (now : Timestamp) :
    Sound (opening auth now) where
  backed ρ h := by
    rcases h with ⟨h, hh⟩ | ⟨n, hn⟩
    · cases hh
    · cases hn
  follows _ := follows_nil

/-- A request may go on with a record that is backed. -/
theorem Sound.goto (h : Sound t) (hp : ∀ ρ, p.record = some ρ → Backed t ρ) :
    Sound (t.goto n p) where
  backed ρ hρ := by
    rcases hρ with hstored | ⟨m, hm⟩
    · exact h.backed ρ (Or.inl hstored)
    · by_cases hmn : m = n
      · subst hmn
        change (Function.update t.phase m p m).record = some ρ at hm
        rw [Function.update_self] at hm
        exact hp ρ hm
      · change (Function.update t.phase n p m).record = some ρ at hm
        rw [Function.update_of_ne hmn] at hm
        exact h.backed ρ (Or.inr ⟨m, hm⟩)
  follows := h.follows

/-- An access that keeps the invariant, and goes on with a record that is
backed. -/
def Accesses (x : ResetSystem × ResetPhase) : Prop :=
  Sound x.1 ∧ ∀ ρ, x.2.record = some ρ → Backed x.1 ρ

/-- An access keeps all of it, whether it commits, fails or loses its
reply. -/
theorem Sound.perform (h : Sound s) {x : ResetSystem × ResetPhase}
    (hx : Accesses x) (fault : Option Fault) : Sound (s.perform n fault x) := by
  rcases fault with _ | _ | _
  · exact hx.1.goto hx.2
  · exact h.goto nofun
  · exact hx.1.goto nofun

/-- The accounts and the history are as they were, and no record is new. -/
theorem Sound.of_same (h : Sound s) (husers : t.auth.users = s.auth.users)
    (hhistory : t.history = s.history) (hphase : t.phase = s.phase)
    (hstored : ∀ y ρ, t.auth.store.passwordReset y = some ρ → Known s ρ) :
    Sound t where
  backed ρ hρ := by
    have hknown : Known s ρ := by
      rcases hρ with ⟨y, hy⟩ | ⟨m, hm⟩
      · exact hstored y ρ hy
      · rw [hphase] at hm
        exact Or.inr ⟨m, hm⟩
    unfold Backed AuthSystem.row?
    rw [husers, hhistory]
    exact h.backed ρ hknown
  follows u := by
    rw [hhistory]
    exact h.follows u

/-- What leaves accounts and histories alone leaves records backed. -/
theorem backed_of_same (husers : t.auth.users = s.auth.users)
    (hhistory : t.history = s.history) (h : Backed s ρ) : Backed t ρ := by
  unfold Backed AuthSystem.row?
  rw [husers, hhistory]
  exact h

-- ================================================================ accesses

/-- A new generation of the password of one user, and the entry for it. -/
theorem Sound.entered (h : Sound s) {u : Uuid} {r : AccountRow}
    {f : AccountRow → AccountRow} {hf : ∀ r, (f r).id = r.id}
    {entry : CredentialEntry} (hr : s.auth.row? u = some r)
    (hpassword : (f r).passwordGeneration = r.passwordGeneration + 1)
    (hemail : (f r).emailGeneration = r.emailGeneration)
    (hentry : ∀ g, entry = .reset g →
      (s.history u).getLast? = some (.requested g)) :
    Sound (({ s with auth := s.auth.updateUser u f hf } : ResetSystem).log u
      entry) where
  backed ρ hρ := by
    obtain ⟨x, hx, hle, hle', hlast⟩ := h.backed ρ hρ
    by_cases hu : ρ.userId = u
    · subst hu
      obtain rfl : x = r := Option.some.inj (hx.symm.trans hr)
      refine ⟨f x, ?_, by omega, by omega, fun heq => by omega⟩
      change (s.auth.updateUser ρ.userId f hf).row? ρ.userId = _
      rw [AuthSystem.row?_updateUser, hx, Option.map_some,
        if_pos (Table.key_of_find? hx)]
    · refine ⟨x, ?_, hle, hle', ?_⟩
      · change (s.auth.updateUser u f hf).row? ρ.userId = _
        rw [AuthSystem.row?_updateUser, hx, Option.map_some, if_neg]
        rw [Table.key_of_find? hx]
        exact hu
      · change _ → _ → (Function.update s.history u _ ρ.userId).getLast? = _
        rw [Function.update_of_ne hu]
        exact hlast
  follows v := by
    change Follows (Function.update s.history u _ v)
    by_cases hv : v = u
    · subst hv
      rw [Function.update_self]
      exact follows_snoc (h.follows v) hentry
    · rw [Function.update_of_ne hv]
      exact h.follows v

/-- A request writes its generation and its entry at once. -/
theorem openReset_accesses (h : Sound s) (row : AccountRow) :
    Accesses (s.openReset crypto row) := by
  unfold openReset AuthSystem.openReset
  dsimp only
  split
  · exact ⟨h, nofun⟩
  · next x auth hopen =>
      split at hopen
      · cases hopen
      · next r hr =>
          obtain ⟨hr, -⟩ := Option.filter_eq_some_iff.mp hr
          have hid : r.id = row.id := Table.key_of_find? hr
          rw [← hid] at hr
          obtain ⟨rfl, rfl⟩ := Prod.mk.inj (Except.ok.inj hopen)
          have hsound : Sound (({ s with
              auth := s.auth.updateUser r.id (fun r => { r with
                passwordGeneration := r.passwordGeneration + 1 }) fun _ => rfl }
              : ResetSystem).log r.id (.requested (r.passwordGeneration + 1))) :=
            h.entered hr rfl rfl nofun
          refine ⟨hsound, fun ρ hρ => ?_⟩
          obtain rfl := Option.some.inj hρ
          refine ⟨{ r with passwordGeneration := r.passwordGeneration + 1 }, ?_,
            Nat.le_refl _, Nat.le_refl _, fun _ _ => ?_⟩
          · change (s.auth.updateUser r.id _ _).row? r.id = _
            rw [AuthSystem.row?_updateUser, hr, Option.map_some, if_pos rfl]
          · change (Function.update s.history r.id _ r.id).getLast? = _
            rw [Function.update_self, List.getLast?_concat]

/-- The script stores a record that the request has. -/
theorem store_accesses (h : Sound s) {record : PasswordResetTokenRecord}
    (hrecord : Known s record) (attempt : Nat) (tokenHash : String) :
    Accesses (s.store record attempt tokenHash) := by
  have hstored : ∀ y ρ, (s.auth.store.issueReset record
      tokenHash).2.passwordReset y = some ρ → Known s ρ := by
    intro y ρ hy
    unfold SessionStore.issueReset at hy
    split at hy
    · exact Or.inl ⟨y, hy⟩
    · split at hy
      · exact Or.inl ⟨y, hy⟩
      · dsimp only at hy
        split at hy
        · obtain rfl := Option.some.inj hy
          exact hrecord
        · split at hy
          · cases hy
          · exact Or.inl ⟨y, hy⟩
  have hs' : Sound { s with
      auth := s.auth.setStore
        (s.auth.store.issueReset record tokenHash).2 } :=
    h.of_same rfl rfl rfl hstored
  unfold store
  dsimp only
  split
  · exact ⟨⟨hs'.backed, hs'.follows⟩, nofun⟩
  · split
    · exact ⟨hs', nofun⟩
    · refine ⟨hs', fun ρ hρ => ?_⟩
      obtain rfl := Option.some.inj hρ
      exact backed_of_same rfl rfl (h.backed _ hrecord)

/-- The second reading only reads. -/
theorem recheck_accesses (h : Sound s) (record : PasswordResetTokenRecord)
    (tokenHash : String) : Accesses (s.recheck crypto record tokenHash) := by
  refine ⟨h, ?_⟩
  unfold recheck
  dsimp only
  split
  · exact nofun
  · exact nofun

/-- Taking a token back forgets its record. -/
theorem cancel_accesses (h : Sound s) (record : PasswordResetTokenRecord)
    (tokenHash : String) : Accesses (s.cancel record tokenHash) := by
  refine ⟨h.of_same rfl rfl rfl fun y ρ hy => ?_, nofun⟩
  rcases update_cases hy with ⟨-, hy⟩ | ⟨-, hy⟩
  · cases hy
  · exact Or.inl ⟨y, hy⟩

/-- A token that is consumed is gone, and nothing else comes. -/
theorem consumeReset_eq_some {st : SessionStore} {tokenHash y : String}
    {now : Nat} (hy : (st.consumeReset tokenHash now).2.passwordReset y
      = some ρ) : y ≠ tokenHash ∧ st.passwordReset y = some ρ := by
  unfold SessionStore.consumeReset at hy
  split at hy
  · next hnone =>
      refine ⟨?_, hy⟩
      intro heq
      rw [heq, hnone] at hy
      cases hy
  · next record hsome =>
      have hupdate : Function.update st.passwordReset tokenHash none y
          = some ρ := by
        dsimp only at hy
        split at hy
        · split at hy <;> exact hy
        · split at hy <;> exact hy
      rcases update_cases hupdate with ⟨-, hy⟩ | hy
      · cases hy
      · exact hy

/-- The record that the script answers with was stored under the token. -/
theorem consumeReset_fst {st : SessionStore} {tokenHash : String}
    {now : Nat} (h : (st.consumeReset tokenHash now).1 = some ρ) :
    st.passwordReset tokenHash = some ρ := by
  unfold SessionStore.consumeReset at h
  split at h
  · cases h
  · next record hsome =>
      dsimp only at h
      split at h
      · cases h
      · split at h
        · cases h
        · rw [hsome]
          exact h

/-- A link that is presented leads to its own record. -/
theorem consume_accesses (h : Sound s) (tokenHash : String) :
    Accesses (s.consume crypto tokenHash) := by
  constructor
  · exact h.of_same rfl rfl rfl fun y ρ hy =>
      Or.inl ⟨y, (consumeReset_eq_some hy).2⟩
  · intro ρ hρ
    unfold consume at hρ
    dsimp only at hρ
    split at hρ
    · cases hρ
    · next record hrecord =>
        split at hρ
        · obtain rfl := Option.some.inj hρ
          exact backed_of_same rfl rfl
            (h.backed _ (Or.inl ⟨tokenHash, consumeReset_fst hrecord⟩))
        · cases hρ

/-- A password is written if the account is still that of the record. -/
theorem writePassword_accesses (h : Sound s)
    {record : PasswordResetTokenRecord} (hrecord : Known s record)
    (passwordHash : String) :
    Accesses (s.writePassword crypto record passwordHash) := by
  unfold writePassword
  split
  · refine ⟨h, ?_⟩
    intro ρ hρ
    cases hρ
  · next row hrow =>
      have hid : row.id = record.userId := Table.key_of_find? hrow
      unfold AuthSystem.writePassword
      split
      · next hguard =>
          obtain ⟨hpassword, hemail, -⟩ := hguard
          obtain ⟨r, hr, -, -, hlast⟩ := h.backed record hrecord
          obtain rfl : r = row := Option.some.inj (hr.symm.trans hrow)
          dsimp only
          rw [if_pos rfl, hid]
          constructor
          · apply h.entered hrow rfl rfl
            intro g hg
            cases hg
            exact hlast hpassword hemail
          · intro ρ hρ
            cases hρ
      · dsimp only
        rw [if_neg Bool.false_ne_true]
        refine ⟨⟨h.backed, h.follows⟩, ?_⟩
        intro ρ hρ
        cases hρ

-- =================================================================== steps

/-- The next access of any request keeps all of it. -/
theorem proceed_sound (h : Sound s) (n : Nat) (drawn : String)
    (fault : Option Fault) : Sound (s.proceed crypto n drawn fault) := by
  unfold proceed
  split
  · next row _ => exact h.perform (openReset_accesses h row) fault
  · next record attempt hphase =>
      split
      · exact h
      · refine h.perform (store_accesses h (Or.inr ⟨n, ?_⟩) attempt drawn) fault
        rw [hphase]
        rfl
  · next record tokenHash _ =>
      exact h.perform (recheck_accesses h record tokenHash) fault
  · next record tokenHash _ =>
      exact h.perform (cancel_accesses h record tokenHash) fault
  · next record hphase =>
      refine h.perform (writePassword_accesses h (Or.inr ⟨n, ?_⟩) drawn) fault
      rw [hphase]
      rfl
  · next userId _ =>
      apply Sound.goto
      · split
        · exact h
        · exact h.of_same rfl rfl rfl fun y ρ hy => Or.inl ⟨y, hy⟩
      · exact nofun
  · exact h

/-- Another transaction leaves a record behind, or the account as it was. -/
theorem commit_sound (h : Sound s) (c : AccountCommit) :
    Sound (s.commit crypto c) where
  backed ρ hρ := by
    have hrows : AuthSystem.RowsStep _ s.auth (c.apply crypto s.auth).2 := c.apply_rows
    have hknown : Known s ρ := by
      rcases hρ with ⟨y, hy⟩ | hphase
      · rw [show (s.commit crypto c).auth.store = s.auth.store from
          hrows.store] at hy
        exact Or.inl ⟨y, hy⟩
      · exact Or.inr hphase
    obtain ⟨r, hr, hle, hle', hlast⟩ := h.backed ρ hknown
    obtain ⟨r', hr', hsteps, -⟩ := hrows.row _ r hr
    have hpassword := hsteps.later.password_le
    have hemail := hsteps.later.email_le
    refine ⟨r', hr', by omega, by omega, fun heq heq' => ?_⟩
    change (if credential (c.apply crypto s.auth).2 ρ.userId
        = credential s.auth ρ.userId then s.history ρ.userId
      else s.history ρ.userId ++ [.changed]).getLast? = _
    cases hsteps.later with
    | same hp he ht =>
        rw [if_pos]
        · exact hlast (hp.symm.trans heq) (he.symm.trans heq')
        · unfold credential
          rw [hr, hr', Option.map_some, Option.map_some, hp, he, ht]
    | password hlt => omega
    | email hlt => omega
  follows u := by
    change Follows (if _ then _ else _)
    split
    · exact h.follows u
    · exact follows_snoc (h.follows u) nofun

/-- So does every event. -/
theorem step_sound (h : Sound s) (e : ResetEvent) : Sound (s.step crypto e) := by
  cases e with
  | tick milliseconds => exact ⟨h.backed, h.follows⟩
  | forgot n email =>
      dsimp only [step]
      split
      · split
        · exact h.goto nofun
        · exact h.goto nofun
      · exact h
  | reset n tokenHash fault =>
      dsimp only [step]
      split
      · exact h.perform (consume_accesses h tokenHash) fault
      · exact h
  | proceed n drawn fault => exact proceed_sound h n drawn fault
  | commit c =>
      dsimp only [step]
      split
      · exact h
      · exact commit_sound h c
  | expireToken tokenHash =>
      dsimp only [step]
      split
      · refine h.of_same rfl rfl rfl fun y ρ hy => ?_
        rcases update_cases hy with ⟨-, hy⟩ | ⟨-, hy⟩
        · cases hy
        · exact Or.inl ⟨y, hy⟩
      · exact h
  | expireActive userId =>
      dsimp only [step]
      split
      · exact h
      · split
        · exact h.of_same rfl rfl rfl fun y ρ hy => Or.inl ⟨y, hy⟩
        · exact h

/-- Whatever requests and transactions interleave, a reset that is written
follows its own request with no other request, no reset and no change of
the password or the email in between: only the newest link works, only
once, and only for the account it was sent for. -/
theorem reset_follows_request (crypto : AuthCrypto) (auth : AuthSystem)
    (now : Timestamp) (events : List ResetEvent) (userId : Uuid)
    (pre post : List CredentialEntry) (generation : Nat)
    (h : (run (step crypto) (opening auth now) events).history userId
      = pre ++ .reset generation :: post) :
    ∃ pre', pre = pre' ++ [.requested generation] :=
  (run_keeps (P := Sound) (fun _ e hs => step_sound hs e)
    (opening_sound auth now) events).follows userId pre generation post h

/-- A seller who has forgotten the password. -/
def owner : AccountRow where
  id := ⟨1⟩
  email := "seller@skrynia.store"
  displayName := "Seller"
  role := .user
  telegramId := none
  emailVerifiedAt := none
  security := ⟨some "old", false, 1, false⟩
  emailGeneration := 1
  passwordGeneration := 1

/-- A shop before anybody has registered. -/
def noAccounts : AuthSystem :=
  .opening Table.empty fun _ => ⟨⟨none, false, 1, false⟩, none, []⟩

/-- The owner asks for a link and uses it. -/
def requestAndReset : List ResetEvent :=
  [.commit (.register owner), .forgot 0 "seller@skrynia.store",
    .proceed 0 "" none, .proceed 0 "link" none, .proceed 0 "" none,
    .reset 1 "link" none, .proceed 1 "new" none]

/-- The owner's reset follows the request right before it. -/
theorem reset_follows_request_owner :
    (run (step AuthSystem.openCrypto) (opening noAccounts 0)
      requestAndReset).history ⟨1⟩ = [.changed, .requested 2] ++ [.reset 2]
    ∧ ∃ pre' : List CredentialEntry,
      [.changed, .requested 2] = pre' ++ [.requested 2] :=
  have h : (run (step AuthSystem.openCrypto) (opening noAccounts 0)
      requestAndReset).history ⟨1⟩ = [.changed, .requested 2] ++ [.reset 2] := by
    decide +kernel
  ⟨h, reset_follows_request AuthSystem.openCrypto noAccounts 0 requestAndReset
    ⟨1⟩ _ [] 2 h⟩

end ResetSystem

end Skrynia
