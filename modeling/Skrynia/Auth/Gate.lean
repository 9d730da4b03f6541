/-
Second factors and bans, at every door.

# The gate

A request may bring a family to life for a user with a second factor only
after a code of that user, or on behalf of a session of that user that is
live already; and no session at all for a banned user (`Gated`).

# The argument

Every route that issues a session does so once, for one user, and after
its own checks of that user's row (`gated_of_issues`). The row is not
changed from there on. One route looks at neither the ban nor the second
factor: a login through Telegram.
-/
import Skrynia.Auth.Liveness

namespace Skrynia

open Relational Stepping Handler

/-- The access token that a request is authenticated by. -/
def AuthRequest.accessToken : AuthRequest → Option AccessToken
  | .changePassword token _ => token
  | .twoFactorSetup token _ => token
  | .twoFactorEnable token _ => token
  | .twoFactorDisable token _ => token
  | .regenerateBackupCodes token _ => token
  | _ => none

namespace AuthSystem

/-- Between `s` and `s'`, a code of the user was accepted. -/
def Consumed (s s' : AuthSystem) (u : Uuid) : Prop :=
  (∃ past counter, (s.method u).log <+: past
      ∧ (s'.method u).log = past ++ [.accepted counter])
    ∨ ∃ past id, (s.codes u).log <+: past
      ∧ (s'.codes u).log = past ++ [.accepted id]

/-- What entitles a request to a session of a user with a second factor. -/
def Passes (s : AuthSystem) (r : AuthRequest) (a : Ambient) (s' : AuthSystem)
    (u : Uuid) : Prop :=
  (∃ token code, r = .twoFactorVerify token code ∧ token.identity.userId = u
      ∧ Consumed s s' u)
    ∨ ∃ t, r.accessToken = some t ∧ t.userId = u ∧ s.AccessLive a.seconds t

/-- A request that leads from `s` to `s'` respects the gate. -/
structure Gated (s : AuthSystem) (r : AuthRequest) (a : Ambient)
    (s' : AuthSystem) : Prop where
  secondFactor : ∀ u f row, s'.row? u = some row →
    row.security.twoFactorEnabled = true → s'.FamilyLive a.seconds f u →
      s.FamilyLive a.seconds f u ∨ Passes s r a s' u
  ban : ∀ u row, s'.row? u = some row → row.security.isBanned = true →
    (∀ f, s'.FamilyLive a.seconds f u → s.FamilyLive a.seconds f u)
      ∧ ∀ jti, s'.SessionLive a.seconds jti u → s.SessionLive a.seconds jti u

/-- Sessions of one user at most. -/
abbrev OpensFor (now : Nat) (u : Uuid) (s s' : AuthSystem) : Prop :=
  Opens now (fun v _ => v = u) (fun v => v = u) s s'

/-- The end of a request that respects the gate. -/
def GatedEnd (s : AuthSystem) (r : AuthRequest) (a : Ambient)
    (s' : AuthSystem) : Prop := s'.Sound ∧ Gated s r a s'

variable {s s' mid : AuthSystem} {r : AuthRequest} {a : Ambient} {u : Uuid}

/-- A request that leaves all families and sessions as they were has brought
nothing to life. -/
theorem gated_of_settles (h : Settles a.seconds s s') : GatedEnd s r a s' := by
  refine ⟨h.sound, ?_, ?_⟩
  · intro u f row _ _ hf
    exact Or.inl ((h.family u f hf).resolve_right id)
  · intro u row _ _
    exact ⟨fun f hf => (h.family u f hf).resolve_right id,
      fun jti hj => (h.session u jti hj).resolve_right id⟩

/-- A request that opens families and sessions for one user is gated if that
user's row passes at the end. -/
theorem gated_of_opensFor {v : Uuid} (h : OpensFor a.seconds v s s')
    (hv : ∀ row, s'.row? v = some row → row.security.isBanned = false
      ∧ (row.security.twoFactorEnabled = true → Passes s r a s' v)) :
    GatedEnd s r a s' := by
  refine ⟨h.sound, ?_, ?_⟩
  · intro u f row hrow htwo hf
    rcases h.family u f hf with hf | rfl
    · exact Or.inl hf
    · exact Or.inr ((hv row hrow).2 htwo)
  · intro u row hrow hban
    have hne : u ≠ v := by
      intro heq
      subst heq
      exact absurd hban (by rw [(hv row hrow).1]; exact Bool.false_ne_true)
    exact ⟨fun f hf => (h.family u f hf).resolve_right hne,
      fun jti hj => (h.session u jti hj).resolve_right hne⟩

-- ============================================================== sessions

section Handlers

variable {crypto : AuthCrypto} {cfg : AuthConfig}

/-- No session was ever given the drawn id. -/
def Fresh (a : Ambient) (s : AuthSystem) : Prop :=
  ∀ t ∈ s.signed, t.jti ≠ a.jti

/-- Credentials are signed for a user's row with the expected session
version, or nothing is changed. -/
theorem prepareSessionCredentials_ends (k : Nat) (userId : Uuid) (role : Role)
    (expected : Option Nat) (familyId : Option String) (s : AuthSystem) :
    Ends (prepareSessionCredentials crypto cfg a k userId role expected
        familyId) s
      (fun session s' => ∃ row, s.row? userId = some row
        ∧ (∀ v ∈ expected, v = row.security.sessionVersion)
        ∧ session = drawCredentials crypto cfg a userId role
          row.security.sessionVersion familyId
        ∧ s' = { s with signed := s.signed ++ [session.accessToken] })
      (fun s' => s = s') := by
  apply Ends.bind (Q := fun row s' => row = s.row? userId ∧ s = s')
  · exact .read rfl ⟨rfl, rfl⟩
  intro row _ h
  obtain ⟨rfl, rfl⟩ := h
  apply Ends.bind (Q := fun row s' => s.row? userId = some row ∧ s = s')
  · exact .orThrow rfl fun row hrow => ⟨hrow, rfl⟩
  intro row _ h
  obtain ⟨hrow, rfl⟩ := h
  apply Ends.bind (Q := fun _ s' =>
    (∀ v ∈ expected, v = row.security.sessionVersion) ∧ s = s')
  · exact .require rfl fun h => ⟨h, rfl⟩
  intro _ _ h
  obtain ⟨hexpected, rfl⟩ := h
  exact ⟨row, hrow, hexpected, rfl, rfl⟩

/-- The rows and the factors are as they were. -/
structure Issues (now : Nat) (u : Uuid) (s s' : AuthSystem) : Prop where
  opens : OpensFor now u s s'
  users : s'.users = s.users
  method : s'.method = s.method
  codes : s'.codes = s.codes

/-- The signature of drawn credentials, and then their keys. -/
theorem issues_drawn (now : Nat) (hs : s.Sound) (hfresh : Fresh a s)
    {userId : Uuid} {role : Role} {row : AccountRow}
    (hrow : s.row? userId = some row) (familyId : Option String)
    {session : SessionCredentials}
    (hsession : session = drawCredentials crypto cfg a userId role
      row.security.sessionVersion familyId) :
    Opens now (fun u f => u = userId ∧ f = session.familyId)
        (fun u => u = userId) s
        { s with signed := s.signed ++ [session.accessToken] }
      ∧ ∀ x st', x.Sound → x.users = s.users →
        x.signed = s.signed ++ [session.accessToken] →
        SessionStore.Grants (some (SessionStore.granted userId session))
          x.store st' →
        Opens now (fun u f => u = userId ∧ f = session.familyId)
          (fun u => u = userId) x (x.setStore st') := by
  subst hsession
  constructor
  · have hopens : Opens now _ _ s _ := opens_sign hs
      (t := (drawCredentials crypto cfg a userId role
        row.security.sessionVersion familyId).accessToken) ⟨row, hrow, rfl⟩
    apply hopens.mono
    · intro u f h
      obtain ⟨rfl, hf⟩ := h
      exact Or.inr ⟨rfl, (Option.some.inj hf).symm⟩
    · exact fun _ hu => hu
  · intro x st' hx husers hsigned hgrants
    have hopens : Opens now _ _ x (x.setStore st') := opens_setStore hx hgrants
      (by
        rintro g hg t ht hjti
        cases hg
        rw [hsigned] at ht
        rcases List.mem_append.mp ht with ht | ht
        · exact absurd hjti (hfresh t ht)
        · cases List.mem_singleton.mp ht
          exact ⟨rfl, rfl⟩)
      (by
        rintro g hg
        cases hg
        refine ⟨row, ?_, rfl⟩
        unfold row? at hrow ⊢
        rw [husers]
        exact hrow)
    apply hopens.mono
    · intro u f h
      obtain ⟨g, hg, rfl, rfl⟩ := h
      cases hg
      exact Or.inr ⟨rfl, rfl⟩
    · intro u h
      obtain ⟨g, hg, rfl⟩ := h
      cases hg
      rfl

/-- A session is issued for one user, or the request ends with what it
found. -/
theorem issueSession_ends {now : Nat} (k : Nat) (userId : Uuid) (role : Role)
    (expected : Option Nat) (hs : s.Sound) (hfresh : Fresh a s) :
    Ends (issueSession crypto cfg a k userId role expected) s
      (fun _ s' => Issues now userId s s') (Issues now userId s) := by
  have hrefl : Issues now userId s s := ⟨.refl hs, rfl, rfl, rfl⟩
  apply Ends.bind
  · apply (prepareSessionCredentials_ends k userId role expected none s).mono
    · exact fun _ _ h => h
    · intro _ heq
      subst heq
      exact hrefl
  intro session _ h
  obtain ⟨row, hrow, -, hsession, rfl⟩ := h
  obtain ⟨hsign, hstore⟩ := issues_drawn now hs hfresh hrow none hsession
  have hfor : ∀ {x y : AuthSystem}, Opens now
      (fun u f => u = userId ∧ f = session.familyId) (fun u => u = userId) x y →
        OpensFor now userId x y := by
    intro x y h
    exact h.mono (fun u f hF => Or.inr hF.1) fun _ hu => hu
  have hissued := hstore { s with signed := s.signed ++ [session.accessToken] }
    (s.store.issue userId session session.accessToken.expiresAt) hsign.sound
    rfl rfl (SessionStore.issue_grants _ _ _ _)
  apply Ends.bind (Q := fun _ s' => Issues now userId s s')
  · apply Ends.write
    · exact ⟨hfor hsign, rfl, rfl, rfl⟩
    · have hboth : Issues now userId s
          ({ s with signed := s.signed ++ [session.accessToken] }.setStore
            (s.store.issue userId session session.accessToken.expiresAt)) :=
        ⟨(hfor hsign).trans (hfor hissued), rfl, rfl, rfl⟩
      exact ⟨hboth, hboth⟩
  intro _ s' h
  exact h

/-- A revocation ends sessions and begins none. -/
theorem revokeAllUserSessions_ends {now : Nat} (k : Nat) (userId : Uuid)
    (hs : s.Sound) :
    Ends (revokeAllUserSessions a k userId) s
      (fun _ s' => Keeps now s s') (Keeps now s) := by
  have hrevoked : Keeps now s (s.setStore (s.store.revokeAll userId)) :=
    keeps_setStore hs (SessionStore.revokeAll_grants _ _ _)
  apply Ends.orElse (Keeps now s)
  · exact .write (.refl hs) ⟨hrevoked, hrevoked⟩
  · exact fun _ h => h

-- ======================================================= authentication

/-- The middleware let the user pass. -/
def Authenticated (s : AuthSystem) (a : Ambient)
    (token : Option AccessToken) (user : AuthUser) : Prop :=
  ∃ t row, token = some t ∧ t.userId = user.id ∧ s.AccessLive a.seconds t
    ∧ s.row? user.id = some row ∧ row.security.isBanned = false

/-- Authentication only looks; the user it returns has a live session. It
reads the keys of the session first and the row after it, so the version in
the token is that of the row. -/
theorem authenticate_ends (token : Option AccessToken) (s : AuthSystem) :
    Ends (authenticate a token) s
      (fun user s' => s = s' ∧ Authenticated s a token user)
      (fun s' => s = s') := by
  apply Ends.bind (Q := fun t s' => s = s' ∧ token = some t)
  · exact .orThrow rfl fun t ht => ⟨rfl, ht⟩
  intro t _ h
  obtain ⟨rfl, rfl⟩ := h
  apply Ends.bind (Q := fun signed s' =>
    s = s' ∧ signed = decide (t ∈ s.signed))
  · exact .read rfl ⟨rfl, rfl⟩
  intro signed _ h
  obtain ⟨rfl, rfl⟩ := h
  apply Ends.bind (Q := fun _ s' =>
    s = s' ∧ t ∈ s.signed ∧ a.seconds < t.expiresAt)
  · exact .require rfl fun h => ⟨rfl, of_decide_eq_true h.1, h.2⟩
  intro _ _ h
  obtain ⟨rfl, hsigned, hunexpired⟩ := h
  apply Ends.bind (Q := fun revoked s' =>
    s = s' ∧ revoked = sessionRevoked t s)
  · exact .read rfl ⟨rfl, rfl⟩
  intro revoked _ h
  obtain ⟨rfl, rfl⟩ := h
  apply Ends.bind (Q := fun _ s' => s = s' ∧ sessionRevoked t s = false)
  · exact .require rfl fun h => ⟨rfl, h⟩
  intro _ _ h
  obtain ⟨rfl, hrevoked⟩ := h
  apply Ends.bind (Q := fun row s' => s = s' ∧ row = s.row? t.userId)
  · exact .read rfl ⟨rfl, rfl⟩
  intro row _ h
  obtain ⟨rfl, rfl⟩ := h
  apply Ends.bind (Q := fun row s' => s = s' ∧ s.row? t.userId = some row)
  · exact .orThrow rfl fun row hrow => ⟨rfl, hrow⟩
  intro row _ h
  obtain ⟨rfl, hrow⟩ := h
  apply Ends.bind (Q := fun _ s' => s = s' ∧ row.security.isBanned = false)
  · exact .require rfl fun h => ⟨rfl, h⟩
  intro _ _ h
  obtain ⟨rfl, hban⟩ := h
  apply Ends.bind (Q := fun _ s' =>
    s = s' ∧ t.sessionVersion.getD 1 = row.security.sessionVersion)
  · exact .require rfl fun h => ⟨rfl, h⟩
  intro _ _ h
  obtain ⟨rfl, hversion⟩ := h
  have hid : row.id = t.userId := Table.key_of_find? hrow
  simp only [sessionRevoked, Bool.or_eq_false_iff, Option.any_eq_false,
    Option.isNone_eq_false_iff] at hrevoked
  obtain ⟨⟨hsession, hunrevoked⟩, hfamily⟩ := hrevoked
  refine ⟨rfl, t, row, rfl, hid.symm, ?_, ?_, hban⟩
  · refine ⟨hsigned, hunexpired, hsession, hunrevoked, ?_, row, hrow,
      hversion.symm⟩
    intro f hf
    simpa using hfamily f hf
  · rw [← hid] at hrow
    exact hrow

/-- An access of an authenticated request, before its session. -/
theorem access_keeps {α : Type} {fault : Option Fault} {down : Failure}
    {f : AuthSystem → Except Failure (α × AuthSystem)}
    (hk : Keeps a.seconds s mid)
    (hf : ∀ b s', f mid = .ok (b, s') → Keeps a.seconds mid s') :
    Ends (access fault down f) mid (fun _ s' => Keeps a.seconds s s')
      (GatedEnd s r a) := by
  apply Ends.access
  · exact gated_of_settles hk.settles
  · intro b s' h
    have hk' := hk.trans (hf b s' h)
    exact ⟨hk', gated_of_settles hk'.settles⟩

/-- A session that is issued on behalf of a live session of the same user is
gated. -/
theorem gated_of_authenticated {user : AuthUser}
    (hauth : Authenticated s a r.accessToken user)
    (hk : Keeps a.seconds s mid) (hi : Issues a.seconds user.id mid s') :
    GatedEnd s r a s' := by
  obtain ⟨t, row, ht, huser, hlive, hrow, hban⟩ := hauth
  apply gated_of_opensFor
  · exact (Opens.of_settles hk.settles).trans hi.opens
  · intro row' hrow'
    unfold row? at hrow'
    rw [hi.users] at hrow'
    obtain ⟨row₀, hrow₀, hsame⟩ := hk.banned user.id row' hrow'
    cases hrow.symm.trans hrow₀
    exact ⟨hsame.trans hban, fun _ => Or.inr ⟨t, ht, huser, hlive⟩⟩

/-- The rotation after a change of the second factor issues for the user who
asked for it. -/
theorem rotateSecuritySession_gated {user : AuthUser} (k : Nat)
    (hauth : Authenticated s a r.accessToken user) (hfresh : Fresh a s)
    (hk : Keeps a.seconds s mid) :
    Ends (rotateSecuritySession crypto cfg a k user) mid
      (fun _ => GatedEnd s r a) (GatedEnd s r a) := by
  apply Ends.bind (Q := fun _ s' => Keeps a.seconds s s')
  · apply (revokeAllUserSessions_ends k user.id hk.settles.sound).mono
    · exact fun _ _ h => hk.trans h
    · exact fun _ h => gated_of_settles (hk.trans h).settles
  intro _ x hx
  have hfresh' : Fresh a x := by
    intro t ht
    rw [hx.signed] at ht
    exact hfresh t ht
  apply (issueSession_ends (k + 1) user.id user.role none hx.settles.sound
    hfresh').mono
  · exact fun _ _ h => gated_of_authenticated hauth hx h
  · exact fun _ h => gated_of_authenticated hauth hx h

/-- What an authenticated route starts with. -/
theorem authenticated_bind {α : Type} (r : AuthRequest)
    {token : Option AccessToken} {f : AuthUser → AuthHandler α}
    (hs : s.Sound) (htoken : r.accessToken = token)
    (hf : ∀ user, Authenticated s a r.accessToken user →
      Ends (f user) s (fun _ => GatedEnd s r a) (GatedEnd s r a)) :
    Ends (authenticate a token >>= f) s (fun _ => GatedEnd s r a)
      (GatedEnd s r a) := by
  subst htoken
  apply Ends.bind (Q := fun user s' =>
    s = s' ∧ Authenticated s a r.accessToken user)
  · apply (authenticate_ends r.accessToken s).mono
    · exact fun _ _ h => h
    · intro _ heq
      subst heq
      exact gated_of_settles (.refl hs)
  · intro user _ h
    obtain ⟨rfl, hauth⟩ := h
    exact hf user hauth

-- ========================================================= second factors

variable {now : Nat}

/-- The migration of an old secret touches no session. -/
theorem migrateLegacy_keeps (hs : s.Sound) (userId : Uuid) :
    Keeps now s (s.migrateLegacy userId) :=
  keeps_of_same hs rfl rfl rfl

/-- Checking a code writes the method and the backup codes, and no
session. -/
theorem consumeTwoFactorCode_keeps (hs : s.Sound) (userId : Uuid)
    (code : String) (t : Timestamp) :
    Keeps now s (s.consumeTwoFactorCode crypto userId code t).2 := by
  unfold consumeTwoFactorCode
  split
  · exact .refl hs
  · split
    · split
      · exact keeps_of_same hs rfl rfl rfl
      · exact .refl hs
    · dsimp only
      split
      · exact .refl hs
      · split
        · exact .refl hs
        · exact keeps_of_same hs rfl rfl rfl

/-- A reauthentication checks a password or a code, and issues nothing. -/
theorem reauthenticate_keeps (hs : s.Sound) {row : AccountRow}
    {input : TwoFactorReauthentication} {t : Timestamp}
    (h : s.reauthenticate crypto row input t = .ok s') : Keeps now s s' := by
  unfold reauthenticate at h
  split at h
  · cases h
  · split at h
    · cases h
      exact .refl hs
    · split at h
      · cases h
        exact consumeTwoFactorCode_keeps hs _ _ _
      · cases h
    · cases h

/-- A setup stores a pending secret. -/
theorem setupTwoFactor_keeps (hs : s.Sound) {userId : Uuid}
    {input : TwoFactorReauthentication} {x : Unit × AuthSystem}
    (h : s.setupTwoFactor crypto a userId input = .ok x) :
    Keeps now s x.2 := by
  obtain ⟨row, -, h⟩ := except_bind_eq_ok.mp h
  obtain ⟨s₁, hs₁, h⟩ := except_bind_eq_ok.mp h
  cases h
  have hk : Keeps now s s₁ := by
    unfold confirmReplacement at hs₁
    split at hs₁
    · exact reauthenticate_keeps hs hs₁
    · cases hs₁
      exact .refl hs
  exact hk.trans (keeps_of_same hk.settles.sound rfl rfl rfl)

/-- What a confirmation or a disabling writes. -/
theorem keeps_setTwoFactor (hs : s.Sound) (userId : Uuid) (v : CodesVersion)
    (w : MethodVersion) (enabled : Bool) :
    Keeps now s ((((s.setCodes userId v).setMethod userId w).updateUser userId
      (fun r => { r with
        security := { r.security with twoFactorEnabled := enabled } })
          fun _ => rfl).bumpSessionVersion userId) := by
  have hfactors : Keeps now s ((s.setCodes userId v).setMethod userId w) :=
    keeps_of_same hs rfl rfl rfl
  have henabled := hfactors.trans (keeps_updateUser hfactors.settles.sound
    userId (f := fun r => { r with
      security := { r.security with twoFactorEnabled := enabled } })
    (fun _ => rfl) (fun _ => Nat.le_refl _) fun _ => rfl)
  exact henabled.trans
    (keeps_bumpSessionVersion henabled.settles.sound userId)

/-- A confirmation enables the second factor and revokes; what is issued
comes later. -/
theorem confirmTwoFactor_keeps (hs : s.Sound) {userId : Uuid}
    {code : String} {x : Bool × AuthSystem}
    (h : s.confirmTwoFactor crypto a userId code = .ok x) :
    Keeps now s x.2 := by
  obtain ⟨row, -, h⟩ := except_bind_eq_ok.mp h
  split at h
  · cases h
  · split at h
    · cases h
      exact keeps_of_same hs rfl rfl rfl
    · split at h
      · cases h
      · cases h
        exact keeps_setTwoFactor hs userId _ _ true

/-- New backup codes open no session. -/
theorem regenerateBackupCodes_keeps (hs : s.Sound) {userId : Uuid}
    {input : TwoFactorReauthentication} {x : Unit × AuthSystem}
    (h : s.regenerateBackupCodes crypto a userId input = .ok x) :
    Keeps now s x.2 := by
  obtain ⟨row, -, h⟩ := except_bind_eq_ok.mp h
  split at h
  · cases h
  · obtain ⟨s₁, hs₁, h⟩ := except_bind_eq_ok.mp h
    have hk : Keeps now s s₁ := reauthenticate_keeps hs hs₁
    split at h
    · cases h
    · cases h
      have hcodes : ∀ v, Keeps now s₁ (s₁.setCodes userId v) :=
        fun v => keeps_of_same hk.settles.sound rfl rfl rfl
      exact (hk.trans (hcodes _)).trans
        (keeps_bumpSessionVersion (hcodes _).settles.sound userId)

/-- Neither does disabling the second factor. -/
theorem disableTwoFactor_keeps (hs : s.Sound) {userId : Uuid}
    {input : TwoFactorReauthentication} {x : Unit × AuthSystem}
    (h : s.disableTwoFactor crypto a userId input = .ok x) :
    Keeps now s x.2 := by
  obtain ⟨row, -, h⟩ := except_bind_eq_ok.mp h
  split at h
  · cases h
  · obtain ⟨s₁, hs₁, h⟩ := except_bind_eq_ok.mp h
    cases h
    have hk : Keeps now s s₁ := reauthenticate_keeps hs hs₁
    exact hk.trans (keeps_setTwoFactor hk.settles.sound userId _ _ false)

/-- A password is written under a guard on the row, and the version rises
with it. -/
theorem writePassword_keeps (hs : s.Sound) (row : AccountRow)
    (guard : AccountRow → Prop) [DecidablePred guard] (passwordHash : String) :
    Keeps now s (s.writePassword row guard passwordHash).2 := by
  unfold writePassword
  split
  · exact keeps_updateUser hs row.id
      (f := fun r => { r with
        security := { r.security with
          passwordHash := some passwordHash
          sessionVersion := r.security.sessionVersion + 1 }
        passwordGeneration := r.passwordGeneration + 1 })
      (fun _ => rfl) (fun _ => Nat.le_succ _) fun _ => rfl
  · exact .refl hs

-- ==================================================== the four factor routes

/-- A setup is for a user who is signed in, and issues nothing. -/
theorem twoFactorSetup_gated (hs : s.Sound) (token : Option AccessToken)
    (input : TwoFactorReauthentication) :
    Ends (twoFactorSetup crypto a token input) s
      (fun _ => GatedEnd s (.twoFactorSetup token input) a)
      (GatedEnd s (.twoFactorSetup token input) a) := by
  apply authenticated_bind (.twoFactorSetup token input) hs rfl
  intro user _
  apply Ends.bind
  · apply access_keeps (.refl hs)
    intro b s' h
    cases h
    exact migrateLegacy_keeps hs user.id
  intro _ s₁ h₁
  apply Ends.bind
  · apply access_keeps h₁
    exact fun b s' h => setupTwoFactor_keeps h₁.settles.sound h
  intro _ s₂ h₂
  exact gated_of_settles h₂.settles

/-- Enabling issues for the signed-in user whose code was confirmed. -/
theorem twoFactorEnable_gated (hs : s.Sound) (hfresh : Fresh a s)
    (token : Option AccessToken) (code : String) :
    Ends (twoFactorEnable crypto cfg a token code) s
      (fun _ => GatedEnd s (.twoFactorEnable token code) a)
      (GatedEnd s (.twoFactorEnable token code) a) := by
  apply authenticated_bind (.twoFactorEnable token code) hs rfl
  intro user hauth
  apply Ends.bind
  · apply access_keeps (.refl hs)
    intro b s' h
    cases h
    exact migrateLegacy_keeps hs user.id
  intro _ s₁ h₁
  apply Ends.bind
  · apply access_keeps h₁
    exact fun b s' h => confirmTwoFactor_keeps h₁.settles.sound h
  intro expired s₂ h₂
  apply Ends.bind (Q := fun _ s' => Keeps a.seconds s s')
  · exact .require (gated_of_settles h₂.settles) fun _ => h₂
  intro _ s₃ h₃
  apply Ends.bind
  · apply access_keeps h₃
    intro b s' h
    cases h
    exact .refl h₃.settles.sound
  intro _ s₄ h₄
  apply Ends.bind (rotateSecuritySession_gated 5 hauth hfresh h₄)
  exact fun _ _ h => h

/-- Disabling issues for the signed-in user. -/
theorem twoFactorDisable_gated (hs : s.Sound) (hfresh : Fresh a s)
    (token : Option AccessToken) (input : TwoFactorReauthentication) :
    Ends (twoFactorDisable crypto cfg a token input) s
      (fun _ => GatedEnd s (.twoFactorDisable token input) a)
      (GatedEnd s (.twoFactorDisable token input) a) := by
  apply authenticated_bind (.twoFactorDisable token input) hs rfl
  intro user hauth
  apply Ends.bind
  · apply access_keeps (.refl hs)
    intro b s' h
    cases h
    exact migrateLegacy_keeps hs user.id
  intro _ s₁ h₁
  apply Ends.bind
  · apply access_keeps h₁
    exact fun b s' h => disableTwoFactor_keeps h₁.settles.sound h
  intro _ s₂ h₂
  apply Ends.bind
  · apply access_keeps h₂
    intro b s' h
    cases h
    exact .refl h₂.settles.sound
  intro _ s₃ h₃
  apply Ends.bind (rotateSecuritySession_gated 5 hauth hfresh h₃)
  exact fun _ _ h => h

/-- Regenerating issues for the signed-in user. -/
theorem regenerateBackupCodes_gated (hs : s.Sound) (hfresh : Fresh a s)
    (token : Option AccessToken) (input : TwoFactorReauthentication) :
    Ends (Skrynia.regenerateBackupCodes crypto cfg a token input) s
      (fun _ => GatedEnd s (.regenerateBackupCodes token input) a)
      (GatedEnd s (.regenerateBackupCodes token input) a) := by
  apply authenticated_bind (.regenerateBackupCodes token input) hs rfl
  intro user hauth
  apply Ends.bind
  · apply access_keeps (.refl hs)
    intro b s' h
    cases h
    exact migrateLegacy_keeps hs user.id
  intro _ s₁ h₁
  apply Ends.bind
  · apply access_keeps h₁
    exact fun b s' h => regenerateBackupCodes_keeps h₁.settles.sound h
  intro _ s₂ h₂
  apply Ends.bind (rotateSecuritySession_gated 4 hauth hfresh h₂)
  exact fun _ _ h => h

-- ============================================================= passwords

/-- A change of the password issues for the signed-in user. -/
theorem changePassword_gated (hs : s.Sound) (hfresh : Fresh a s)
    (token : Option AccessToken) (password : String) :
    Ends (changePassword crypto cfg a token password) s
      (fun _ => GatedEnd s (.changePassword token password) a)
      (GatedEnd s (.changePassword token password) a) := by
  have hrefl : GatedEnd s (.changePassword token password) a s :=
    gated_of_settles (.refl hs)
  apply authenticated_bind (.changePassword token password) hs rfl
  intro user hauth
  apply Ends.bind (Q := fun _ s' => s = s')
  · exact .read hrefl rfl
  intro row _ heq
  subst heq
  apply Ends.bind (Q := fun _ s' => s = s')
  · exact .orThrow hrefl fun _ _ => rfl
  intro row _ heq
  subst heq
  apply Ends.bind (Q := fun _ s' => s = s')
  · exact .require hrefl fun _ => rfl
  intro _ _ heq
  subst heq
  apply Ends.bind
  · apply access_keeps (.refl hs)
    intro b s' h
    split at h
    · cases h
      exact .refl hs
    · obtain rfl : _ = s' := congrArg Prod.snd (Except.ok.inj h)
      exact writePassword_keeps hs _ _ _
  intro updated s₁ h₁
  apply Ends.bind (Q := fun _ s' => Keeps a.seconds s s')
  · exact .require (gated_of_settles h₁.settles) fun _ => h₁
  intro _ s₂ h₂
  apply Ends.bind (rotateSecuritySession_gated 4 hauth hfresh h₂)
  exact fun _ _ h => h

/-- A reset revokes and issues nothing. -/
theorem passwordReset_gated (hs : s.Sound) (token : String) :
    Ends (passwordReset crypto a token) s
      (fun _ => GatedEnd s (.passwordReset token) a)
      (GatedEnd s (.passwordReset token) a) := by
  apply Ends.bind
  · apply access_keeps (.refl hs)
    intro b s' h
    cases h
    exact keeps_setStore hs (SessionStore.consumeReset_grants _ _ _ _)
  intro reset s₁ h₁
  apply Ends.bind (Q := fun _ s' => Keeps a.seconds s s')
  · exact .orThrow (gated_of_settles h₁.settles) fun _ _ => h₁
  intro reset s₂ h₂
  apply Ends.bind
  · apply access_keeps h₂
    intro b s' h
    split at h
    · cases h
      exact .refl h₂.settles.sound
    · obtain rfl : _ = s' := congrArg Prod.snd (Except.ok.inj h)
      exact writePassword_keeps h₂.settles.sound _ _ _
  intro updated s₃ h₃
  apply Ends.bind (Q := fun _ s' => Keeps a.seconds s s')
  · exact .require (gated_of_settles h₃.settles) fun _ => h₃
  intro _ s₄ h₄
  apply Ends.bind (Q := fun _ s' => Keeps a.seconds s s')
  · apply (revokeAllUserSessions_ends 2 reset.userId h₄.settles.sound).mono
    · exact fun _ _ h => h₄.trans h
    · exact fun _ h => gated_of_settles (h₄.trans h).settles
  intro _ s₅ h₅
  exact gated_of_settles h₅.settles

/-- A reset token is stored beside the sessions. -/
theorem storeResetToken_keeps (record : PasswordResetTokenRecord) (n : Nat)
    (hk : Keeps a.seconds s mid) :
    Ends (storeResetToken crypto a record n) mid
      (fun _ s' => Keeps a.seconds s s') (Keeps a.seconds s) := by
  apply Ends.access hk
  intro b s' h
  cases h
  have hk' := hk.trans (keeps_setStore hk.settles.sound
    (SessionStore.issueReset_grants mid.store none record
      (crypto.hashToken (a.resetToken n))))
  exact ⟨hk', hk'⟩

/-- So is the transaction that opens a reset. -/
theorem openReset_keeps (hs : s.Sound) {expected : AccountRow}
    {x : AccountRow × AuthSystem}
    (h : s.openReset crypto expected = .ok x) : Keeps now s x.2 := by
  unfold openReset at h
  dsimp only at h
  split at h
  · cases h
  · next r _ =>
      cases h
      exact keeps_updateUser hs r.id
        (f := fun r => { r with
          passwordGeneration := r.passwordGeneration + 1 })
        (fun _ => rfl) (fun _ => Nat.le_refl _) fun _ => rfl

/-- Asking for a reset issues nothing. -/
theorem passwordForgot_gated (hs : s.Sound) (email : String) :
    Ends (passwordForgot crypto a email) s
      (fun _ => GatedEnd s (.passwordForgot email) a)
      (GatedEnd s (.passwordForgot email) a) := by
  apply Ends.bind (Q := fun _ s' => s = s')
  · exact .read (gated_of_settles (.refl hs)) rfl
  intro row _ heq
  subst heq
  cases row with
  | none => exact Ends.pure (gated_of_settles (.refl hs))
  | some row =>
      -- Whatever the issue does, the answer is the same.
      apply Ends.orElse (Keeps a.seconds s)
      · apply Ends.bind (Q := fun _ s' => Keeps a.seconds s s')
        · apply Ends.access (.refl hs)
          intro b s' h
          exact ⟨openReset_keeps hs h, openReset_keeps hs h⟩
        intro row s₁ h₁
        apply Ends.bind
        · exact storeResetToken_keeps _ 0 h₁
        intro stored s₂ h₂
        split
        · apply Ends.bind
          · exact storeResetToken_keeps _ 1 h₂
          intro _ s₃ h₃
          exact gated_of_settles h₃.settles
        · exact gated_of_settles h₂.settles
      · exact fun s' h => gated_of_settles h.settles

-- ================================================================ logins

/-- The user of the session was neither banned nor had a second factor. -/
theorem gated_of_plain {v : Uuid} (hsettles : Settles a.seconds s mid)
    (hi : Issues a.seconds v mid s')
    (hplain : ∀ row, mid.row? v = some row → row.security.isBanned = false
      ∧ row.security.twoFactorEnabled = false) : GatedEnd s r a s' := by
  apply gated_of_opensFor
  · exact (Opens.of_settles hsettles).trans hi.opens
  · intro row hrow
    unfold row? at hrow
    rw [hi.users] at hrow
    obtain ⟨hban, htwo⟩ := hplain row hrow
    refine ⟨hban, fun h => ?_⟩
    rw [htwo] at h
    cases h

/-- A registration issues for a row that was created in it, without a second
factor and without a ban. -/
theorem register_gated (hs : s.Sound) (hfresh : Fresh a s)
    (email displayName : String) :
    Ends (register crypto cfg a email displayName) s
      (fun _ => GatedEnd s (.register email displayName) a)
      (GatedEnd s (.register email displayName) a) := by
  apply Ends.bind (Q := fun row s' => Settles a.seconds s s'
    ∧ s'.signed = s.signed ∧ s'.row? row.id = some row
    ∧ row.security.isBanned = false
    ∧ row.security.twoFactorEnabled = false)
  · apply Ends.access (gated_of_settles (.refl hs))
    intro row s' h
    obtain ⟨hsettles, hsigned, hrow, hfind⟩ := settles_insertUser hs h
    change row = _ at hrow
    subst hrow
    exact ⟨⟨hsettles, hsigned, hfind, rfl, rfl⟩, gated_of_settles hsettles⟩
  intro row mid h
  obtain ⟨hsettles, hsigned, hfind, hban, htwo⟩ := h
  have hfresh' : Fresh a mid := by
    intro t ht
    rw [hsigned] at ht
    exact hfresh t ht
  have hplain : ∀ row', mid.row? row.id = some row' →
      row'.security.isBanned = false
        ∧ row'.security.twoFactorEnabled = false := by
    intro row' hrow'
    cases hfind.symm.trans hrow'
    exact ⟨hban, htwo⟩
  apply Ends.bind (Q := fun _ =>
    GatedEnd s (.register email displayName) a)
  · apply (issueSession_ends 1 row.id row.role none hsettles.sound
      hfresh').mono
    · exact fun _ _ h => gated_of_plain hsettles h hplain
    · exact fun _ h => gated_of_plain hsettles h hplain
  exact fun _ _ h => h

/-- A pending token is no session. -/
theorem issueTwoFactorPendingToken_keeps (hs : s.Sound) (k : Nat)
    (userId : Uuid) (version : Nat) :
    Ends (issueTwoFactorPendingToken a k userId version) s
      (fun _ s' => Keeps now s s') (Keeps now s) := by
  have hpending : Keeps now s (s.setStore { s.store with
      pending := Function.update s.store.pending a.pendingJti true }) :=
    keeps_setStore hs (.of_same rfl rfl rfl rfl)
  apply Ends.bind (Q := fun _ s' => Keeps now s s')
  · exact .write (.refl hs) ⟨hpending, hpending⟩
  intro _ s₁ h₁
  exact h₁.trans (keeps_of_same h₁.settles.sound rfl rfl rfl)

/-- A login checks the ban, and without a second factor it issues; with one
it returns a pending token. -/
theorem login_gated (hs : s.Sound) (hfresh : Fresh a s)
    (email password : String) :
    Ends (login crypto cfg a email password) s
      (fun _ => GatedEnd s (.login email password) a)
      (GatedEnd s (.login email password) a) := by
  have hrefl : GatedEnd s (.login email password) a s :=
    gated_of_settles (.refl hs)
  apply Ends.bind (Q := fun row s' => s = s'
    ∧ ∀ x, row = some x → s.row? x.id = some x)
  · refine .read hrefl ⟨rfl, ?_⟩
    intro x hx
    exact Table.find?_of_mem (List.mem_of_find?_eq_some hx)
  intro row _ h
  obtain ⟨rfl, hrow⟩ := h
  apply Ends.bind (Q := fun row s' => s = s' ∧ s.row? row.id = some row)
  · refine .orThrow hrefl fun x hx => ⟨rfl, ?_⟩
    exact hrow x (Option.filter_eq_some_iff.mp hx).1
  intro row _ h
  obtain ⟨rfl, hfind⟩ := h
  apply Ends.bind (Q := fun _ s' => s = s' ∧ row.security.isBanned = false)
  · exact .require hrefl fun h => ⟨rfl, h⟩
  intro _ _ h
  obtain ⟨rfl, hban⟩ := h
  split
  · apply Ends.bind (Q := fun _ s' => Keeps a.seconds s s')
    · apply (issueTwoFactorPendingToken_keeps hs 1 row.id
        row.security.sessionVersion).mono
      · exact fun _ _ h => h
      · exact fun _ h => gated_of_settles h.settles
    exact fun _ _ h => gated_of_settles h.settles
  · next htwo =>
      have hplain : ∀ row', s.row? row.id = some row' →
          row'.security.isBanned = false
            ∧ row'.security.twoFactorEnabled = false := by
        intro row' hrow'
        cases hfind.symm.trans hrow'
        exact ⟨hban, Bool.not_eq_true _ ▸ htwo⟩
      apply Ends.bind (Q := fun _ => GatedEnd s (.login email password) a)
      · apply (issueSession_ends 1 row.id row.role none hs hfresh).mono
        · exact fun _ _ h => gated_of_plain (.refl hs) h hplain
        · exact fun _ h => gated_of_plain (.refl hs) h hplain
      exact fun _ _ h => h

/-- That a code was consumed is read off the method and the codes. -/
theorem Consumed.congr (h : Consumed s mid u) (hm : s'.method = mid.method)
    (hc : s'.codes = mid.codes) : Consumed s s' u := by
  unfold Consumed
  rw [hm, hc]
  exact h

/-- The version that was written. -/
theorem method_setMethod (s : AuthSystem) (u : Uuid) (v : MethodVersion) :
    (s.setMethod u v).method u = v := Function.update_self _ _ _

/-- And the codes. -/
theorem codes_setCodes (s : AuthSystem) (u : Uuid) (v : CodesVersion) :
    (s.setCodes u v).codes u = v := Function.update_self _ _ _

/-- A code that counts is in the history. -/
theorem consumeTwoFactorCode_consumed {userId : Uuid} {code : String}
    {t : Timestamp}
    (h : (s.consumeTwoFactorCode crypto userId code t).1 = true) :
    Consumed s (s.consumeTwoFactorCode crypto userId code t).2 userId := by
  unfold consumeTwoFactorCode at h ⊢
  split at h
  · cases h
  · split at h
    · split at h
      · next counter _ hadvances =>
          left
          refine ⟨_, counter, List.prefix_refl _, ?_⟩
          rw [if_pos hadvances, method_setMethod]
          rfl
      · cases h
    · dsimp only at h ⊢
      split at h
      · cases h
      · next hcode =>
          split at h
          · cases h
          · next r _ =>
              right
              refine ⟨_, r.id, List.prefix_refl _, ?_⟩
              rw [if_neg hcode, codes_setCodes]
              rfl

/-- The migration of a method keeps its log of accepted codes. -/
theorem migrate_log (v : MethodVersion) : v.log <+: v.migrate.log := by
  unfold MethodVersion.migrate
  split
  · exact List.prefix_refl _
  · split
    · exact List.prefix_refl _
    · split
      · exact List.prefix_append _ _
      · exact List.prefix_refl _

/-- A code that is valid was accepted in between, and recorded so. -/
theorem verifyTwoFactorCode_ends (hs : s.Sound) (k : Nat) (userId : Uuid)
    (code : String) :
    Ends (verifyTwoFactorCode crypto a k userId code) s
      (fun valid s' => Keeps a.seconds s s'
        ∧ (valid = true → Consumed s s' userId))
      (GatedEnd s r a) := by
  apply Ends.bind (Q := fun _ s' => s' = s.migrateLegacy userId)
  · apply Ends.write
    · exact gated_of_settles (.refl hs)
    · exact ⟨rfl, gated_of_settles (migrateLegacy_keeps hs userId).settles⟩
  intro _ _ heq
  subst heq
  have hk : Keeps a.seconds s (s.migrateLegacy userId) :=
    migrateLegacy_keeps hs userId
  apply Ends.access
  · exact gated_of_settles hk.settles
  intro valid s' h
  obtain ⟨hvalid, rfl⟩ := Prod.mk.inj (Except.ok.inj h)
  have hcode : Keeps a.seconds (s.migrateLegacy userId)
      ((s.migrateLegacy userId).consumeTwoFactorCode crypto userId code
        a.now).2 := consumeTwoFactorCode_keeps hk.settles.sound userId code a.now
  have hk' := hk.trans hcode
  refine ⟨⟨hk', ?_⟩, gated_of_settles hk'.settles⟩
  intro heq
  subst heq
  rcases consumeTwoFactorCode_consumed hvalid with ⟨past, counter, hpast, hlog⟩
    | ⟨past, id, hpast, hlog⟩
  · refine Or.inl ⟨past, counter, ?_, hlog⟩
    refine List.IsPrefix.trans (migrate_log _) ?_
    rw [migrateLegacy, method_setMethod] at hpast
    exact hpast
  · exact Or.inr ⟨past, id, hpast, hlog⟩

/-- The second step of a login issues after a code of that user: the pending
token names the user, and it is taken out of the store only after the code
was accepted. -/
theorem twoFactorVerify_gated (hs : s.Sound) (hfresh : Fresh a s)
    (token : PendingJwt) (code : String) :
    Ends (twoFactorVerify crypto cfg a token code) s
      (fun _ => GatedEnd s (.twoFactorVerify token code) a)
      (GatedEnd s (.twoFactorVerify token code) a) := by
  have hrefl : GatedEnd s (.twoFactorVerify token code) a s :=
    gated_of_settles (.refl hs)
  apply Ends.bind (Q := fun _ s' => s = s')
  · exact .read hrefl rfl
  intro signed _ heq
  subst heq
  apply Ends.bind (Q := fun _ s' => s = s')
  · exact .require hrefl fun _ => rfl
  intro _ _ heq
  subst heq
  apply Ends.bind (Q := fun row s' =>
    s = s' ∧ row = s.row? token.identity.userId)
  · exact .read hrefl ⟨rfl, rfl⟩
  intro row _ h
  obtain ⟨rfl, rfl⟩ := h
  apply Ends.bind (Q := fun row s' =>
    s = s' ∧ s.row? token.identity.userId = some row)
  · exact .orThrow hrefl fun row hrow => ⟨rfl, hrow⟩
  intro row _ h
  obtain ⟨rfl, hrow⟩ := h
  apply Ends.bind (Q := fun _ s' => s = s' ∧ row.security.isBanned = false)
  · exact .require hrefl fun h => ⟨rfl, h⟩
  intro _ _ h
  obtain ⟨rfl, hban⟩ := h
  apply Ends.bind (Q := fun _ s' => s = s')
  · exact .require hrefl fun _ => rfl
  intro _ _ heq
  subst heq
  apply Ends.bind
  · exact verifyTwoFactorCode_ends hs 1 token.identity.userId code
  intro valid s₁ h
  obtain ⟨h₁, hvalid⟩ := h
  apply Ends.bind (Q := fun _ s' => s₁ = s' ∧ valid = true)
  · exact .require (gated_of_settles h₁.settles) fun h => ⟨rfl, h⟩
  intro _ _ h
  obtain ⟨rfl, rfl⟩ := h
  have hconsumed := hvalid rfl
  apply Ends.bind (Q := fun _ s' => Keeps a.seconds s s'
    ∧ Consumed s s' token.identity.userId)
  · apply Ends.access (gated_of_settles h₁.settles)
    intro b s' h
    cases h
    have hpending : Keeps a.seconds s₁
        (s₁.setStore (s₁.store.consumePending token.identity.jti)) :=
      keeps_setStore h₁.settles.sound (.of_same rfl rfl rfl rfl)
    have h₂ := h₁.trans hpending
    exact ⟨⟨h₂, hconsumed.congr rfl rfl⟩, gated_of_settles h₂.settles⟩
  intro consumed s₂ h
  obtain ⟨h₂, hconsumed₂⟩ := h
  apply Ends.bind (Q := fun _ s' => s₂ = s')
  · exact .require (gated_of_settles h₂.settles) fun _ => rfl
  intro _ _ heq
  subst heq
  have hid : row.id = token.identity.userId := Table.key_of_find? hrow
  have hfresh' : Fresh a s₂ := by
    intro t ht
    rw [h₂.signed] at ht
    exact hfresh t ht
  have hissued : ∀ s', Issues a.seconds row.id s₂ s' →
      GatedEnd s (.twoFactorVerify token code) a s' := by
    intro s' hi
    apply gated_of_opensFor
    · exact (Opens.of_settles h₂.settles).trans hi.opens
    · intro row' hrow'
      unfold row? at hrow'
      rw [hi.users] at hrow'
      obtain ⟨row₀, hrow₀, hsame⟩ := h₂.banned row.id row' hrow'
      rw [hid] at hrow₀
      cases hrow.symm.trans hrow₀
      refine ⟨hsame.trans hban, fun _ => Or.inl ⟨token, code, rfl, ?_⟩⟩
      exact ⟨hid.symm, hid ▸ hconsumed₂.congr hi.method hi.codes⟩
  apply Ends.bind (Q := fun _ =>
    GatedEnd s (.twoFactorVerify token code) a)
  · apply (issueSession_ends 4 row.id row.role _ h₂.settles.sound hfresh').mono
    · exact fun _ s' h => hissued s' h
    · exact fun s' h => hissued s' h
  exact fun _ _ h => h

-- ============================================================== telegram

/-- Whoever has the Telegram id is neither banned nor has a second
factor. -/
def Plain (s : AuthSystem) (telegramId : String) : Prop :=
  ∀ row ∈ s.users.rows, row.telegramId = some telegramId →
    row.security.isBanned = false ∧ row.security.twoFactorEnabled = false

/-- A Telegram account without second factor and ban is created or updated,
and no session is touched. -/
theorem upsertTelegram_settles (now : Nat) (hs : s.Sound) {id : Uuid}
    {input : TelegramPayload} {x : AccountRow × AuthSystem}
    (h : s.upsertTelegram id input = .ok x) (hplain : Plain s input.id) :
    Settles now s x.2 ∧ x.2.signed = s.signed
      ∧ ∀ row, x.2.row? x.1.id = some row → row.security.isBanned = false
        ∧ row.security.twoFactorEnabled = false := by
  unfold upsertTelegram at h
  dsimp only at h
  split at h
  · next r hfound =>
      cases h
      have hmem := List.mem_of_find?_eq_some hfound
      have htelegram : r.telegramId = some input.id := by
        simpa using List.find?_some hfound
      have hrow : s.row? r.id = some r := Table.find?_of_mem hmem
      have hkeeps : Keeps now s _ := keeps_updateUser hs r.id
        (f := fun r => { r with
          displayName := (input.username.or input.firstName).getD input.id })
        (fun _ => rfl) (fun _ => Nat.le_refl _) fun _ => rfl
      refine ⟨hkeeps.settles, rfl, ?_⟩
      intro row hrow'
      rw [row?_updateUser, hrow] at hrow'
      cases hrow'
      dsimp only
      rw [if_pos rfl]
      exact hplain r hmem htelegram
  · obtain ⟨hsettles, hsigned, hrow, hfind⟩ := settles_insertUser hs h
    refine ⟨hsettles, hsigned, ?_⟩
    intro row hrow'
    rw [hrow] at hrow'
    cases hfind.symm.trans hrow'
    exact ⟨rfl, rfl⟩

/-- A login through Telegram is gated if its account needs no gate, as the
route looks at neither. -/
theorem telegram_gated (hs : s.Sound) (hfresh : Fresh a s)
    (input : TelegramPayload)
    (hplain : verifyTelegramAuth crypto cfg a input = .ok () →
      Plain s input.id) :
    Ends (telegram crypto cfg a input) s
      (fun _ => GatedEnd s (.telegram input) a)
      (GatedEnd s (.telegram input) a) := by
  unfold telegram
  split
  · exact gated_of_settles (.refl hs)
  · next hvalid =>
      apply Ends.bind (Q := fun row s' => Settles a.seconds s s'
        ∧ s'.signed = s.signed ∧ ∀ row', s'.row? row.id = some row' →
          row'.security.isBanned = false
            ∧ row'.security.twoFactorEnabled = false)
      · apply Ends.access (gated_of_settles (.refl hs))
        intro row s' h
        have hupsert := upsertTelegram_settles a.seconds hs h (hplain hvalid)
        exact ⟨hupsert, gated_of_settles hupsert.1⟩
      intro row mid h
      obtain ⟨hsettles, hsigned, hrow⟩ := h
      have hfresh' : Fresh a mid := by
        intro t ht
        rw [hsigned] at ht
        exact hfresh t ht
      apply Ends.bind (Q := fun _ => GatedEnd s (.telegram input) a)
      · apply (issueSession_ends 1 row.id row.role none hsettles.sound
          hfresh').mono
        · exact fun _ _ h => gated_of_plain hsettles h hrow
        · exact fun _ h => gated_of_plain hsettles h hrow
      exact fun _ _ h => h

-- =============================================================== refresh

/-- The fence of a family lets nobody of this user pass. -/
def Fenced (st : SessionStore) (f : String) (userId : Uuid) : Prop :=
  ∃ x, st.family f = some x ∧ x ≠ ⟨true, userId⟩

/-- A fence is not torn down by a rotation. -/
theorem rotate_fenced {st : SessionStore} {i : Rotation}
    (h : Fenced st i.familyId i.userId) : (st.rotate i).2 = st := by
  obtain ⟨x, hx, hne⟩ := h
  unfold SessionStore.rotate
  split
  · rfl
  · rw [if_pos]
    rw [hx, Option.any_some, decide_eq_true_eq]
    intro hactive
    apply hne
    rw [SessionStore.activeFor, Bool.and_eq_true, beq_iff_eq] at hactive
    obtain ⟨active, v⟩ := x
    obtain ⟨rfl, rfl⟩ := hactive
    rfl

/-- What a refresh leaves: at most new sessions of the family, and these
only if its fence is open. -/
structure Renews (now : Nat) (u : Uuid) (f : String)
    (s s' : AuthSystem) : Prop where
  opens : Opens now (fun v g => v = u ∧ g = f) (fun v => v = u) s s'
  users : s'.users = s.users
  fenced : Fenced s.store f u → s'.store = s.store

/-- The rotation of a refresh token issues for the token's user or ends the
family. -/
theorem rotateRefreshSession_ends (hs : s.Sound) (hfresh : Fresh a s) (k : Nat)
    (user : AccountRow) (f hash : String) (record : RefreshRecord)
    (previous : Option AccessToken) :
    Ends (rotateRefreshSession crypto cfg a k user f hash record previous) s
      (fun _ s' => Renews now user.id f s s') (Renews now user.id f s) := by
  have hrefl : Renews now user.id f s s := ⟨.refl hs, rfl, fun _ => rfl⟩
  apply Ends.bind
  · apply (prepareSessionCredentials_ends k user.id user.role _ (some f) s).mono
    · exact fun _ _ h => h
    · intro _ heq
      subst heq
      exact hrefl
  intro session _ h
  obtain ⟨row, hrow, -, hsession, rfl⟩ := h
  obtain ⟨hsign, hstore⟩ := issues_drawn now hs hfresh hrow (some f) hsession
  have hfamily : session.familyId = f := by rw [hsession]; rfl
  rw [hfamily] at hsign hstore
  -- Where the script may run, any number of times.
  let Signed := fun x : AuthSystem => Renews now user.id f s x
    ∧ x.signed = s.signed ++ [session.accessToken]
  have hsigned : Signed { s with signed := s.signed ++ [session.accessToken] } :=
    ⟨⟨hsign, rfl, fun _ => rfl⟩, rfl⟩
  apply Ends.bind (Q := fun _ => Signed)
  · exact .read hsigned.1 hsigned
  intro previous' s₁ h₁
  have heval : ∀ {x : AuthSystem} (k : Nat) (i : Rotation), i.userId = user.id →
      i.session = session → i.familyId = f → Signed x →
        Ends (evalRotation a k i) x (fun _ => Signed) Signed := by
    intro x k i huser hsess hfam hx
    apply Ends.access hx
    intro b s' h
    cases h
    have hgrants := x.store.rotate_grants i
    rw [huser, hsess] at hgrants
    have hrotated : Signed (x.setStore (x.store.rotate i).2) := by
      refine ⟨⟨?_, hx.1.users, ?_⟩, hx.2⟩
      · exact hx.1.opens.trans
          (hstore x _ hx.1.opens.sound hx.1.users hx.2 hgrants)
      · intro hfence
        have hsame := hx.1.fenced hfence
        show (x.store.rotate i).2 = s.store
        rw [rotate_fenced, hsame]
        rw [hsame, huser, hfam]
        exact hfence
    exact ⟨hrotated, hrotated⟩
  apply Ends.bind (Q := fun _ => Signed)
  · apply Ends.orElse Signed
    · exact heval (k + 1) _ rfl rfl rfl h₁
    · intro s' h'
      apply (heval (k + 2) _ rfl rfl rfl h').mono
      · exact fun _ _ h => h
      · exact fun _ h => h.1
  intro reply s₂ h₂
  split
  · exact h₂.1
  · exact h₂.1
  · exact h₂.1

/-- A refresh is on behalf of the family that its token belongs to. Its own
record, or the receipt of an earlier rotation, names the user, and the row is
read again for the version and the ban. -/
theorem refresh_gated (hs : s.Sound) (hfresh : Fresh a s)
    (refreshToken : Option String) (accessToken : Option AccessToken) :
    Ends (refresh crypto cfg a refreshToken accessToken) s
      (fun _ => GatedEnd s (.refresh refreshToken accessToken) a)
      (GatedEnd s (.refresh refreshToken accessToken) a) := by
  have hrefl : GatedEnd s (.refresh refreshToken accessToken) a s :=
    gated_of_settles (.refl hs)
  apply Ends.bind (Q := fun _ s' => s = s')
  · exact .orThrow hrefl fun _ _ => rfl
  intro token _ heq
  subst heq
  apply Ends.bind (Q := fun record s' =>
    s = s' ∧ record = s.store.refresh (crypto.hashRefreshToken token))
  · exact .read hrefl ⟨rfl, rfl⟩
  intro record _ h
  obtain ⟨rfl, rfl⟩ := h
  apply Ends.bind (Q := fun record s' =>
    s = s' ∧ s.store.refresh (crypto.hashRefreshToken token) = some record)
  · exact .orThrow hrefl fun record h => ⟨rfl, h⟩
  intro record _ h
  obtain ⟨rfl, hstored⟩ := h
  apply Ends.bind (Q := fun row s' => s = s' ∧ row = s.row? record.userId)
  · exact .read hrefl ⟨rfl, rfl⟩
  intro row _ h
  obtain ⟨rfl, rfl⟩ := h
  apply Ends.bind (Q := fun row s' => s = s' ∧ s.row? record.userId = some row)
  · exact .orThrow hrefl fun row h => ⟨rfl, h⟩
  intro row _ h
  obtain ⟨rfl, hrow⟩ := h
  apply Ends.bind (Q := fun _ s' => s = s' ∧ row.security.isBanned = false)
  · exact .require hrefl fun h => ⟨rfl, h⟩
  intro _ _ h
  obtain ⟨rfl, hban⟩ := h
  apply Ends.bind (Q := fun _ s' =>
    s = s' ∧ record.sessionVersion = row.security.sessionVersion)
  · exact .require hrefl fun h => ⟨rfl, h⟩
  intro _ _ h
  obtain ⟨rfl, hversion⟩ := h
  have hid : row.id = record.userId := Table.key_of_find? hrow
  have hgated : ∀ s', Renews a.seconds row.id
      (record.familyId.getD (crypto.hashRefreshToken token)) s s' →
        GatedEnd s (.refresh refreshToken accessToken) a s' := by
    intro s' h
    -- An open fence means that the presented token keeps the family alive.
    have hopens : Opens a.seconds (fun _ _ => False) (fun v => v = row.id)
        s s' := by
      refine ⟨h.opens.sound, ?_, h.opens.session⟩
      intro u f hf
      rcases h.opens.family u f hf with hlive | ⟨rfl, rfl⟩
      · exact Or.inl hlive
      · by_cases hfence : Fenced s.store
            (record.familyId.getD (crypto.hashRefreshToken token)) row.id
        · obtain ⟨x, hx, hne⟩ := hfence
          rw [← h.fenced ⟨x, hx, hne⟩] at hx
          rcases hf with ⟨t, ht, hu, hfid⟩ | ⟨hash', r, hr, hu, hfid⟩
          · have hactive := ht.family _ hfid
            rw [hu] at hactive
            exact absurd (Option.some.inj (hx.symm.trans hactive)) hne
          · rw [← hfid] at hx
            have hactive := hr.family x hx
            rw [hu] at hactive
            exact absurd hactive hne
        · refine Or.inl (Or.inr ⟨_, record, ⟨hstored, ?_, ?_⟩, hid.symm, rfl⟩)
          · intro x hx
            by_contra hne
            rw [← hid] at hne
            exact hfence ⟨x, hx, hne⟩
          · exact ⟨row, hrow, hversion.symm⟩
    refine ⟨hopens.sound, ?_, ?_⟩
    · intro u f _ _ _ hf
      exact Or.inl ((hopens.family u f hf).resolve_right id)
    · intro u row' hrow' hbanned
      refine ⟨fun f hf => (hopens.family u f hf).resolve_right id, ?_⟩
      intro jti hj
      rcases hopens.session u jti hj with hlive | rfl
      · exact hlive
      · unfold row? at hrow' hrow
        rw [h.users, hid, hrow] at hrow'
        cases hrow'
        rw [hban] at hbanned
        cases hbanned
  apply Ends.bind (Q := fun _ =>
    GatedEnd s (.refresh refreshToken accessToken) a)
  · apply (rotateRefreshSession_ends hs hfresh 2 row _ _ record
      accessToken).mono
    · exact fun _ s' h => hgated s' h
    · exact fun s' h => hgated s' h
  intro session s' h
  apply Ends.bind (Q := fun _ =>
    GatedEnd s (.refresh refreshToken accessToken) a)
  · exact .orThrow h fun _ _ => h
  exact fun _ _ h => h

-- =================================================================== gate

/-- Every route, in one line each. -/
theorem handle_gated (hs : s.Sound) (hfresh : Fresh a s) (r : AuthRequest)
    (hplain : ∀ input, r = .telegram input →
      verifyTelegramAuth crypto cfg a input = .ok () → Plain s input.id) :
    Ends (handle crypto cfg a r) s (fun _ => GatedEnd s r a)
      (GatedEnd s r a) := by
  cases r with
  | register email displayName => exact register_gated hs hfresh email displayName
  | login email password => exact login_gated hs hfresh email password
  | twoFactorVerify token code => exact twoFactorVerify_gated hs hfresh token code
  | telegram input => exact telegram_gated hs hfresh input (hplain input rfl)
  | refresh refreshToken accessToken =>
      exact refresh_gated hs hfresh refreshToken accessToken
  | passwordForgot email => exact passwordForgot_gated hs email
  | passwordReset token => exact passwordReset_gated hs token
  | changePassword token password =>
      exact changePassword_gated hs hfresh token password
  | twoFactorSetup token input => exact twoFactorSetup_gated hs token input
  | twoFactorEnable token code => exact twoFactorEnable_gated hs hfresh token code
  | twoFactorDisable token input =>
      exact twoFactorDisable_gated hs hfresh token input
  | regenerateBackupCodes token input =>
      exact regenerateBackupCodes_gated hs hfresh token input

/-- An administrator's change of a role or a ban keeps the store sound. -/
theorem patchUser_sound (hs : s.Sound) (userId : Uuid) (role : Option Role)
    (isBanned : Option Bool) :
    (s.updateUser userId (AccountRow.patched role isBanned)
      (AccountRow.patched_id role isBanned)).Sound := by
  have hversion : ∀ r : AccountRow, r.security.sessionVersion
      ≤ (r.patched role isBanned).security.sessionVersion := by
    intro r
    unfold AccountRow.patched
    dsimp only
    split
    · exact Nat.le_succ _
    · exact Nat.le_refl _
  have hsettles : Settles 0 s (s.updateUser userId
      (AccountRow.patched role isBanned)
      (AccountRow.patched_id role isBanned)) := by
    refine settles_rows hs rfl rfl ?_
    intro u row hrow
    rw [row?_updateUser, hrow]
    refine ⟨_, rfl, ?_⟩
    dsimp only
    split
    · exact hversion row
    · exact Nat.le_refl _
  exact hsettles.sound

/-- What is withdrawn by other parts of the system only removes sessions. -/
theorem withdraw_grants (s : AuthSystem) (w : Withdrawal) :
    SessionStore.Grants none s.store (s.withdraw w).store where
  session jti h := by
    dsimp only [withdraw, setStore] at h
    split at h
    · cases h
    · exact Or.inl h
  revoked jti h := by
    dsimp only [withdraw, setStore]
    rw [h, Bool.or_true]
  refresh hash r h := by
    dsimp only [withdraw, setStore] at h
    split at h
    · cases h
    · exact Or.inl h
  family f := by
    dsimp only [withdraw, setStore]
    split
    · cases s.store.family f with
      | none => exact Or.inl rfl
      | some x => exact Or.inr (Or.inl ⟨x.userId, rfl⟩)
    · exact Or.inl rfl

end Handlers

section Runs

variable (crypto : AuthCrypto) (cfg : AuthConfig)

/-- A request draws an id that was never drawn before. -/
def DrawsFresh (s : AuthSystem) (e : AuthEvent) : Prop :=
  ∀ r a, e = .request r a → Fresh a s

/-- No login through Telegram is for an account that is banned or has a
second factor. -/
def Spares (s : AuthSystem) (e : AuthEvent) : Prop :=
  ∀ input a, e = .request (.telegram input) a →
    verifyTelegramAuth crypto cfg a input = .ok () → Plain s input.id

/-- A request respects the gate. -/
def Meets (s : AuthSystem) (e : AuthEvent) : Prop :=
  ∀ r a, e = .request r a → Gated s r a (s.step crypto cfg e)

variable {crypto cfg}

/-- What the handler's ends promise, of the state it leaves. -/
theorem handle_gatedEnd {s : AuthSystem} {a : Ambient} {r : AuthRequest}
    (hs : s.Sound) (hfresh : Fresh a s)
    (hplain : ∀ input, r = .telegram input →
      verifyTelegramAuth crypto cfg a input = .ok () → Plain s input.id) :
    GatedEnd s r a (handle crypto cfg a r s).2 := by
  have h := handle_gated hs hfresh r hplain
  unfold Ends at h
  split at h
  · next heq =>
      rw [heq]
      exact h
  · next heq =>
      rw [heq]
      exact h

/-- Every event keeps the state sound, if what it draws is new and no
unguarded Telegram login happens. -/
theorem step_sound {s : AuthSystem} (hs : s.Sound) {e : AuthEvent}
    (hfresh : DrawsFresh s e) (hspares : Spares crypto cfg s e) :
    (s.step crypto cfg e).Sound := by
  cases e with
  | request r a =>
      refine (handle_gatedEnd hs (hfresh r a rfl) ?_).1
      intro input heq
      subst heq
      exact hspares input a rfl
  | patchUser userId role isBanned => exact patchUser_sound hs userId role isBanned
  | revokeAll userId =>
      have hsettles : Settles 0 s (s.setStore (s.store.revokeAll userId)) :=
        settles_setStore hs (SessionStore.revokeAll_grants _ _ _)
      exact hsettles.sound
  | withdraw w =>
      have hsettles : Settles 0 s (s.withdraw w) :=
        settles_setStore hs (withdraw_grants s w)
      exact hsettles.sound

/-- Every such event is gated. -/
theorem step_meets {s : AuthSystem} (hs : s.Sound) {e : AuthEvent}
    (hfresh : DrawsFresh s e) (hspares : Spares crypto cfg s e) :
    Meets crypto cfg s e := by
  intro r a heq
  subst heq
  refine (handle_gatedEnd hs (hfresh r a rfl) ?_).2
  intro input heq
  subst heq
  exact hspares input a rfl

/-- In every run of requests, revocations and role changes in which no
Telegram login opens a session for a banned account or one with a second
factor, every request that brings a family to life has passed the second
factor, or acts for a live session of the same user, and no banned user gets
a session. -/
theorem twoFactor_and_ban_gate (crypto : AuthCrypto) (cfg : AuthConfig)
    (users : Table AccountRow.id) (accounts : Uuid → SecurityOpening)
    (schedule : List AuthEvent)
    (hfresh : Along (step crypto cfg) DrawsFresh (opening users accounts)
      schedule)
    (hspares : Along (step crypto cfg) (Spares crypto cfg)
      (opening users accounts) schedule) :
    Along (step crypto cfg) (Meets crypto cfg) (opening users accounts)
      schedule := by
  have hs := opening_sound users accounts
  generalize opening users accounts = s at hs hfresh hspares ⊢
  induction schedule generalizing s with
  | nil => exact trivial
  | cons e schedule ih =>
      refine ⟨step_meets hs hfresh.1 hspares.1, ?_⟩
      exact ih _ (step_sound hs hfresh.1 hspares.1) hfresh.2 hspares.2

end Runs

-- ===================================================== a way past the gate

/-- Hashes are texts themselves, and every code is `000000`. -/
def openCrypto : AuthCrypto where
  hotp := fun _ => some fun _ => "000000"
  compare := fun text hash => text == hash
  normalize := id
  verifyPassword := fun password hash => password == hash
  hashRefreshToken := id
  hashToken := id
  lower := id
  telegramSigned := fun _ => true

/-- Short-lived access tokens, and a bot token that is configured. -/
def openConfig : AuthConfig where
  accessTokenTtlMin := 15
  refreshRotationEnabled := true
  telegramBotToken := true

/-- Nothing fails, and `name` is drawn. -/
def calm (name : String) : Ambient where
  now := 60000
  fault := fun _ => none
  userId := ⟨1⟩
  passwordHash := ""
  jti := name
  refreshToken := name
  csrfToken := name
  pendingJti := 0
  resetToken := fun _ => name
  secret := "secret"
  backupCodeHashes := []

/-- A Telegram login of the account 42. -/
def telegramLogin : TelegramPayload where
  id := "42"
  firstName := none
  lastName := none
  username := none
  photoUrl := none
  authDate := some 60
  hash := ""

/-- The access token of the session `name`. -/
def cookie (name : String) (version : Nat) : AccessToken where
  userId := ⟨1⟩
  role := .user
  jti := name
  sessionVersion := some version
  familyId := some name
  expiresAt := 960

/-- An account comes about through Telegram and enables a second factor. -/
def secondFactorSetup : List AuthEvent :=
  [.request (.telegram telegramLogin) (calm "first"),
    .request (.twoFactorSetup (some (cookie "first" 1)) ⟨none, none⟩)
      (calm "unused"),
    .request (.twoFactorEnable (some (cookie "first" 1)) "000000")
      (calm "second")]

/-- A system without users. -/
def nobody : AuthSystem :=
  opening Table.empty fun _ => ⟨⟨none, false, 1, false⟩, none, []⟩

/-- A registration, a setup, its confirmation and a login with a code pass
the gate. -/
theorem gate_of_secondFactorSetup :
    Along (step openCrypto openConfig) (Meets openCrypto openConfig) nobody
      secondFactorSetup := by
  apply twoFactor_and_ban_gate
  · refine ⟨?_, ?_, ?_, trivial⟩
    · intro _ _ h
      cases h
      exact fun t ht => absurd ht List.not_mem_nil
    · intro _ _ h
      cases h
      unfold Fresh
      decide
    · intro _ _ h
      cases h
      unfold Fresh
      decide
  · refine ⟨?_, ?_, ?_, trivial⟩
    · intro _ _ h _ row hrow
      cases h
      exact absurd hrow List.not_mem_nil
    · intro _ _ h
      cases h
    · intro _ _ h
      cases h

/-- The state after that, with a user who has a second factor. -/
def guarded : AuthSystem :=
  run (step openCrypto openConfig) nobody secondFactorSetup

/-- No token of the third family was signed. -/
theorem guarded_signed : ∀ t ∈ guarded.signed, t.familyId ≠ some "third" := by
  decide

/-- The one refresh token left is of the second family. -/
theorem guarded_refresh {hash : String} {r : RefreshRecord}
    (h : guarded.store.refresh hash = some r) :
    r.familyId = some "second" := by
  have h' : Function.update (fun hash => if hash ∈ ["first"] then none else
      Function.update (fun _ => none) "first"
        (some ⟨⟨1⟩, 1, some "first"⟩) hash) "second"
      (some ⟨⟨1⟩, 2, some "second"⟩) hash = some r := h
  rcases update_cases h' with ⟨-, hr⟩ | ⟨-, hr⟩
  · cases hr
    rfl
  · split at hr
    · cases hr
    · next hne =>
        rcases update_cases hr with ⟨rfl, -⟩ | ⟨-, hr⟩
        · exact absurd List.mem_cons_self hne
        · cases hr

/-- No code is asked for: a user who has a second factor and a Telegram
account is signed in by a signed payload alone. -/
theorem telegram_not_gated : ¬ ∀ schedule,
    Along (step openCrypto openConfig) DrawsFresh nobody schedule →
      Along (step openCrypto openConfig) (Meets openCrypto openConfig) nobody
        schedule := by
  intro hall
  have hfresh : Along (step openCrypto openConfig) DrawsFresh nobody
      (secondFactorSetup ++ [.request (.telegram telegramLogin)
        (calm "third")]) := by
    refine ⟨?_, ?_, ?_, ?_, trivial⟩
    · intro _ _ h
      cases h
      exact fun t ht => absurd ht List.not_mem_nil
    · intro _ _ h
      cases h
      unfold Fresh
      decide
    · intro _ _ h
      cases h
      unfold Fresh
      decide
    · intro _ _ h
      cases h
      unfold Fresh
      decide
  have hgated := (along_append.mp (hall _ hfresh)).2.1 _ _ rfl
  have hlive : (guarded.step openCrypto openConfig
      (.request (.telegram telegramLogin) (calm "third"))).FamilyLive 60
        "third" ⟨1⟩ := by
    refine Or.inl ⟨cookie "third" 2, ⟨?_, ?_, ?_, ?_, ?_, ?_⟩, rfl, rfl⟩
    · decide
    · decide
    · rfl
    · rfl
    · intro f hf
      cases hf
      rfl
    · exact ⟨_, rfl, rfl⟩
  rcases hgated.secondFactor ⟨1⟩ "third" _ rfl rfl hlive with hold | hpass
  · rcases hold with ⟨t, ht, -, hf⟩ | ⟨hash, r, hr, -, hf⟩
    · exact guarded_signed t ht.signed hf
    · rw [guarded_refresh hr.stored] at hf
      change "second" = "third" at hf
      exact absurd hf (by decide)
  · rcases hpass with ⟨_, _, hr, -⟩ | ⟨_, ht, -⟩
    · cases hr
    · cases ht

end AuthSystem

end Skrynia
