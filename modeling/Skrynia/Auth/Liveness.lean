/-
Which sessions an access to the stores can bring to life.

# The argument

A credential works while its key, the fence of its family and the version
of its user's row agree. No operation makes these agree for a credential
that is already out, as versions only grow (`Sound` has them behind the
rows): what was dead stays dead. So new sessions come from the operations
that grant one, and only for the user they grant it to (`Grants`,
`Opens`).
-/
import Skrynia.Auth.Login

namespace Skrynia

open Relational Stepping

/-- The session that an operation grants. -/
structure Grant where
  userId : Uuid
  familyId : String
  jti : String
  sessionVersion : Nat

namespace SessionStore

/-- From `st` to `st'`, nothing comes to life but a grant. -/
structure Grants (grant : Option Grant) (st st' : SessionStore) : Prop where
  session : ∀ jti, (st'.session jti).isSome →
    (st.session jti).isSome ∨ ∃ g ∈ grant, jti = g.jti
  revoked : ∀ jti, st.sessionRevoked jti = true → st'.sessionRevoked jti = true
  refresh : ∀ hash r, st'.refresh hash = some r → st.refresh hash = some r
    ∨ ∃ g ∈ grant, r = ⟨g.userId, g.sessionVersion, some g.familyId⟩
  family : ∀ f, st'.family f = st.family f
    ∨ (∃ u, st'.family f = some ⟨false, u⟩)
    ∨ ∃ g ∈ grant, f = g.familyId ∧ st'.family f = some ⟨true, g.userId⟩

namespace Grants

variable {grant : Option Grant} {st st' st'' : SessionStore}

/-- Where nothing happens, nothing comes to life. -/
theorem refl (grant : Option Grant) (st : SessionStore) :
    Grants grant st st where
  session _ h := Or.inl h
  revoked _ h := h
  refresh _ _ h := Or.inl h
  family _ := Or.inl rfl

/-- One step after the other. -/
theorem trans (h : Grants grant st st') (h' : Grants grant st' st'') :
    Grants grant st st'' where
  session jti hjti := by
    rcases h'.session jti hjti with hjti | hg
    · exact h.session jti hjti
    · exact Or.inr hg
  revoked jti hjti := h'.revoked jti (h.revoked jti hjti)
  refresh hash r hr := by
    rcases h'.refresh hash r hr with hr | hg
    · exact h.refresh hash r hr
    · exact Or.inr hg
  family f := by
    rcases h'.family f with hf | hf | hf
    · rw [hf]
      exact h.family f
    · exact Or.inr (Or.inl hf)
    · exact Or.inr (Or.inr hf)

/-- The four kinds of keys are as they were. -/
theorem of_same (hs : st'.session = st.session)
    (hv : st'.sessionRevoked = st.sessionRevoked)
    (hr : st'.refresh = st.refresh) (hf : st'.family = st.family) :
    Grants grant st st' where
  session jti h := by
    rw [hs] at h
    exact Or.inl h
  revoked jti h := by
    rw [hv]
    exact h
  refresh hash r h := by
    rw [hr] at h
    exact Or.inl h
  family f := by
    rw [hf]
    exact Or.inl rfl

end Grants

variable (st : SessionStore)

/-- Revoking all sessions of a user brings none to life. -/
theorem revokeAll_grants (grant : Option Grant) (userId : Uuid) :
    Grants grant st (st.revokeAll userId) where
  session jti h := by
    dsimp only [revokeAll] at h
    split at h
    · cases h
    · exact Or.inl h
  revoked _ h := h
  refresh hash r h := by
    dsimp only [revokeAll] at h
    split at h
    · cases h
    · exact Or.inl h
  family f := by
    dsimp only [revokeAll]
    split
    · exact Or.inr (Or.inl ⟨userId, rfl⟩)
    · exact Or.inl rfl

/-- Nor does the use of a reset link. -/
theorem consumeReset_grants (grant : Option Grant) (tokenHash : String)
    (now : Nat) : Grants grant st (st.consumeReset tokenHash now).2 := by
  unfold consumeReset
  split
  · exact .refl grant st
  · dsimp only
    split
    · split
      · exact .of_same rfl rfl rfl rfl
      · exact .of_same rfl rfl rfl rfl
    · split
      · exact .of_same rfl rfl rfl rfl
      · exact .of_same rfl rfl rfl rfl

/-- Nor does the storing of one. -/
theorem issueReset_grants (grant : Option Grant)
    (record : PasswordResetTokenRecord) (tokenHash : String) :
    Grants grant st (st.issueReset record tokenHash).2 := by
  unfold issueReset
  split
  · exact .refl grant st
  · split
    · exact .refl grant st
    · exact .of_same rfl rfl rfl rfl

/-- The grant in the credentials of a session. -/
def granted (userId : Uuid) (session : SessionCredentials) : Grant where
  userId := userId
  familyId := session.familyId
  jti := session.jti
  sessionVersion := session.sessionVersion

/-- Issuing brings the issued session to life, and no other. -/
theorem issue_grants (userId : Uuid) (session : SessionCredentials)
    (sessionExpiresAt : Nat) :
    Grants (some (granted userId session)) st
      (st.issue userId session sessionExpiresAt) where
  session jti h := by
    obtain ⟨v, hv⟩ := Option.isSome_iff_exists.mp h
    rcases update_cases hv with ⟨rfl, -⟩ | ⟨-, hv⟩
    · exact Or.inr ⟨_, rfl, rfl⟩
    · exact Or.inl (Option.isSome_iff_exists.mpr ⟨v, hv⟩)
  revoked _ h := h
  refresh hash r h := by
    rcases update_cases h with ⟨-, hr⟩ | ⟨-, hr⟩
    · cases hr
      exact Or.inr ⟨_, rfl, rfl⟩
    · exact Or.inl hr
  family f := by
    by_cases hf : f = session.familyId
    · refine Or.inr (Or.inr ⟨_, rfl, hf, ?_⟩)
      rw [hf]
      exact Function.update_self _ _ _
    · exact Or.inl (Function.update_of_ne hf _ _)

/-- A refresh token that is gone. -/
theorem usedUp_grants (grant : Option Grant) (i : Rotation) :
    Grants grant st (st.usedUp i) := by
  unfold usedUp
  split
  · constructor
    · intro jti h
      exact Or.inl h
    · intro jti h
      exact h
    · intro hash r h
      rcases update_cases h with ⟨-, hr⟩ | ⟨-, hr⟩
      · cases hr
      · exact Or.inl hr
    · intro f
      exact Or.inl rfl
  · exact .refl grant st

/-- Writing the index of an old token brings nothing to life. -/
theorem bridged_grants (grant : Option Grant) (i : Rotation) :
    Grants grant st (st.bridged i) := by
  unfold bridged
  split
  · exact .refl grant st
  · exact .of_same rfl rfl rfl rfl

/-- A rotation brings the session to life that it was prepared with. -/
theorem renewed_grants (i : Rotation) :
    Grants (some (granted i.userId i.session)) st (st.renewed i) := by
  have hissue := st.issue_grants i.userId i.session i.sessionExpiresAt
  have haliased : Grants (some (granted i.userId i.session)) st
      { st.issue i.userId i.session i.sessionExpiresAt with
        familyFor := Function.update st.familyFor i.oldRefreshHash
          (some i.familyId) } :=
    hissue.trans (.of_same rfl rfl rfl rfl)
  refine ((haliased.trans (bridged_grants _ _ i)).trans
    (usedUp_grants _ _ i)).trans ?_
  exact .of_same rfl rfl rfl rfl

/-- So does its script, if it is not refused. -/
theorem rotate_grants (i : Rotation) :
    Grants (some (granted i.userId i.session)) st (st.rotate i).2 := by
  have hpruned : Grants (some (granted i.userId i.session)) st
      (st.pruned i) := .of_same rfl rfl rfl rfl
  unfold rotate
  split
  · exact .refl _ st
  · split
    · exact .refl _ st
    · split
      · exact hpruned
      · exact hpruned.trans (renewed_grants _ i)

end SessionStore

-- ================================================================ states

namespace AuthSystem

/-- No credential is ahead of its user's row. -/
structure Sound (s : AuthSystem) : Prop where
  signed : ∀ t ∈ s.signed, ∃ row, s.row? t.userId = some row
    ∧ t.sessionVersion.getD 1 ≤ row.security.sessionVersion
  refresh : ∀ hash r, s.store.refresh hash = some r →
    ∃ row, s.row? r.userId = some row
      ∧ r.sessionVersion ≤ row.security.sessionVersion

/-- At the opening no session is signed. -/
theorem opening_sound (users : Table AccountRow.id)
    (accounts : Uuid → SecurityOpening) : (opening users accounts).Sound where
  signed t ht := absurd ht List.not_mem_nil
  refresh hash r hr := by cases hr

/-- From `s` to `s'`, only families in `F` and sessions of users in `S`
come to life. -/
structure Opens (now : Nat) (F : Uuid → String → Prop) (S : Uuid → Prop)
    (s s' : AuthSystem) : Prop where
  sound : s'.Sound
  family : ∀ u f, s'.FamilyLive now f u → s.FamilyLive now f u ∨ F u f
  session : ∀ u jti, s'.SessionLive now jti u → s.SessionLive now jti u ∨ S u

/-- Nothing comes to life. -/
abbrev Settles (now : Nat) (s s' : AuthSystem) : Prop :=
  Opens now (fun _ _ => False) (fun _ => False) s s'

variable {now : Nat} {F G : Uuid → String → Prop} {S T : Uuid → Prop}
  {s s' s'' : AuthSystem}

namespace Opens

/-- Nothing was opened. -/
theorem refl (hs : s.Sound) : Opens now F S s s where
  sound := hs
  family _ _ h := Or.inl h
  session _ _ h := Or.inl h

/-- One after the other. -/
theorem trans (h : Opens now F S s s') (h' : Opens now F S s' s'') :
    Opens now F S s s'' where
  sound := h'.sound
  family u f hf := by
    rcases h'.family u f hf with hf | hF
    · exact h.family u f hf
    · exact Or.inr hF
  session u jti hj := by
    rcases h'.session u jti hj with hj | hS
    · exact h.session u jti hj
    · exact Or.inr hS

/-- More may be allowed, and what lived before need not be. -/
theorem mono (h : Opens now F S s s')
    (hF : ∀ u f, F u f → s.FamilyLive now f u ∨ G u f)
    (hS : ∀ u, S u → T u) : Opens now G T s s' where
  sound := h.sound
  family u f hf := by
    rcases h.family u f hf with hf | hf
    · exact Or.inl hf
    · exact hF u f hf
  session u jti hj := by
    rcases h.session u jti hj with hj | hj
    · exact Or.inl hj
    · exact Or.inr (hS u hj)

/-- What brings nothing to life opens no session. -/
theorem of_settles (h : Settles now s s') : Opens now F S s s' :=
  h.mono (fun _ _ hF => hF.elim) fun _ hS => hS.elim

/-- It is enough to look at the credentials. -/
theorem of_credentials (hs : s'.Sound)
    (haccess : ∀ t, s'.AccessLive now t → s.AccessLive now t
      ∨ S t.userId ∧ ∀ f, t.familyId = some f → F t.userId f)
    (hrefresh : ∀ hash r, s'.RefreshLive hash r → s.RefreshLive hash r
      ∨ F r.userId (r.familyId.getD hash)) : Opens now F S s s' where
  sound := hs
  family u f hf := by
    rcases hf with ⟨t, ht, rfl, hf⟩ | ⟨hash, r, hr, rfl, rfl⟩
    · rcases haccess t ht with ht | ⟨-, hF⟩
      · exact Or.inl (Or.inl ⟨t, ht, rfl, hf⟩)
      · exact Or.inr (hF f hf)
    · rcases hrefresh hash r hr with hr | hF
      · exact Or.inl (Or.inr ⟨hash, r, hr, rfl, rfl⟩)
      · exact Or.inr hF
  session u jti hj := by
    obtain ⟨t, ht, rfl, rfl⟩ := hj
    rcases haccess t ht with ht | ⟨hS, -⟩
    · exact Or.inl ⟨t, ht, rfl, rfl⟩
    · exact Or.inr hS

end Opens

/-- A change of the keys. -/
theorem opens_setStore {grant : Option Grant} {st' : SessionStore}
    (hs : s.Sound) (h : SessionStore.Grants grant s.store st')
    (hown : ∀ g ∈ grant, ∀ t ∈ s.signed, t.jti = g.jti →
      t.userId = g.userId ∧ t.familyId = some g.familyId)
    (hversion : ∀ g ∈ grant, s.Current g.userId g.sessionVersion) :
    Opens now (fun u f => ∃ g ∈ grant, g.userId = u ∧ g.familyId = f)
      (fun u => ∃ g ∈ grant, g.userId = u) s (s.setStore st') := by
  have hsound : (s.setStore st').Sound := by
    constructor
    · exact hs.signed
    · intro hash r hr
      rcases h.refresh hash r hr with hr | ⟨g, hg, rfl⟩
      · exact hs.refresh hash r hr
      · obtain ⟨row, hrow, hv⟩ := hversion g hg
        exact ⟨row, hrow, Nat.le_of_eq hv.symm⟩
  apply Opens.of_credentials hsound
  · intro t ht
    rcases h.session t.jti ht.session with hsession | ⟨g, hg, hjti⟩
    · by_cases hfamily : ∀ f, t.familyId = some f →
          s.store.family f = some ⟨true, t.userId⟩
      · left
        refine ⟨ht.signed, ht.unexpired, hsession, ?_, hfamily, ht.current⟩
        cases hrevoked : s.store.sessionRevoked t.jti with
        | false => rfl
        | true => exact ht.unrevoked.symm.trans (h.revoked _ hrevoked) |>.symm
      · push Not at hfamily
        obtain ⟨f, hf, hne⟩ := hfamily
        have hactive := ht.family f hf
        rcases h.family f with hsame | ⟨u, hgone⟩ | ⟨g, hg, rfl, hnew⟩
        · exact absurd (hsame.symm.trans hactive) hne
        · cases hactive.symm.trans hgone
        · right
          have hu : g.userId = t.userId := congrArg FamilyRecord.userId
            (Option.some.inj (hnew.symm.trans hactive))
          refine ⟨⟨g, hg, hu⟩, ?_⟩
          intro f' hf'
          exact ⟨g, hg, hu, Option.some.inj (hf.symm.trans hf')⟩
    · right
      obtain ⟨hu, hf⟩ := hown g hg t ht.signed hjti
      refine ⟨⟨g, hg, hu.symm⟩, ?_⟩
      intro f' hf'
      cases hf.symm.trans hf'
      exact ⟨g, hg, hu.symm, rfl⟩
  · intro hash r hr
    rcases h.refresh hash r hr.stored with hstored | ⟨g, hg, rfl⟩
    · by_cases hfamily : ∀ x, s.store.family (r.familyId.getD hash) = some x →
          x = ⟨true, r.userId⟩
      · exact Or.inl ⟨hstored, hfamily, hr.current⟩
      · push Not at hfamily
        obtain ⟨x, hx, hne⟩ := hfamily
        rcases h.family (r.familyId.getD hash) with hsame | ⟨u, hgone⟩
          | ⟨g, hg, hf, hnew⟩
        · exact absurd (hr.family x (hsame.trans hx)) hne
        · cases hr.family _ hgone
        · right
          have hu : g.userId = r.userId :=
            congrArg FamilyRecord.userId (hr.family _ hnew)
          exact ⟨g, hg, hu, hf.symm⟩
    · exact Or.inr ⟨g, hg, rfl, rfl⟩

/-- A write to the store that brings nothing to life settles. -/
theorem settles_setStore {st' : SessionStore} (hs : s.Sound)
    (h : SessionStore.Grants none s.store st') :
    Settles now s (s.setStore st') := by
  have hopens : Opens now _ _ s (s.setStore st') :=
    opens_setStore hs h nofun nofun
  apply hopens.mono
  · intro u f h
    obtain ⟨g, hg, -⟩ := h
    cases hg
  · intro u h
    obtain ⟨g, hg, -⟩ := h
    cases hg

/-- A state with the same rows, keys and signatures. -/
theorem settles_of_same (hs : s.Sound) (hu : s'.users = s.users)
    (hst : s'.store = s.store) (hsigned : s'.signed = s.signed) :
    Settles now s s' := by
  have hrow : ∀ u, s'.row? u = s.row? u := by
    intro u
    unfold row?
    rw [hu]
  have hcurrent : ∀ u v, s'.Current u v → s.Current u v := by
    intro u v h
    obtain ⟨row, hr, hv⟩ := h
    exact ⟨row, (hrow u).symm.trans hr, hv⟩
  apply Opens.of_credentials
  · constructor
    · intro t ht
      rw [hrow]
      rw [hsigned] at ht
      exact hs.signed t ht
    · intro hash r hr
      rw [hrow]
      rw [hst] at hr
      exact hs.refresh hash r hr
  · intro t h
    obtain ⟨h₁, h₂, h₃, h₄, h₅, h₆⟩ := h
    rw [hsigned] at h₁
    rw [hst] at h₃ h₄ h₅
    exact Or.inl ⟨h₁, h₂, h₃, h₄, h₅, hcurrent _ _ h₆⟩
  · intro hash r h
    obtain ⟨h₁, h₂, h₃⟩ := h
    rw [hst] at h₁ h₂
    exact Or.inl ⟨h₁, h₂, hcurrent _ _ h₃⟩

/-- A new signature. -/
theorem opens_sign (hs : s.Sound) {t : AccessToken}
    (hversion : s.Current t.userId (t.sessionVersion.getD 1)) :
    Opens now (fun u f => u = t.userId ∧ t.familyId = some f)
      (fun u => u = t.userId) s { s with signed := s.signed ++ [t] } := by
  apply Opens.of_credentials
  · constructor
    · intro x hx
      rcases List.mem_append.mp hx with hx | hx
      · exact hs.signed x hx
      · cases List.mem_singleton.mp hx
        obtain ⟨row, hrow, hv⟩ := hversion
        exact ⟨row, hrow, Nat.le_of_eq hv.symm⟩
    · exact hs.refresh
  · intro x hx
    rcases List.mem_append.mp hx.signed with hmem | hmem
    · exact Or.inl ⟨hmem, hx.unexpired, hx.session, hx.unrevoked, hx.family,
        hx.current⟩
    · cases List.mem_singleton.mp hmem
      exact Or.inr ⟨rfl, fun f hf => ⟨rfl, hf⟩⟩
  · intro hash r hr
    exact Or.inl ⟨hr.stored, hr.family, hr.current⟩

/-- Rows whose versions do not fall. -/
theorem settles_rows (hs : s.Sound) (hst : s'.store = s.store)
    (hsigned : s'.signed = s.signed)
    (hrow : ∀ u row, s.row? u = some row → ∃ row', s'.row? u = some row'
      ∧ row.security.sessionVersion ≤ row'.security.sessionVersion) :
    Settles now s s' := by
  -- A credential is at most at its row's version before, so at exactly it.
  have hcurrent : ∀ u v, (∃ row, s.row? u = some row
      ∧ v ≤ row.security.sessionVersion) → s'.Current u v → s.Current u v := by
    intro u v h h'
    obtain ⟨row, hr, hle⟩ := h
    obtain ⟨row', hr', rfl⟩ := h'
    obtain ⟨x, hx, hgrow⟩ := hrow u row hr
    cases hx.symm.trans hr'
    exact ⟨row, hr, Nat.le_antisymm hgrow hle⟩
  have hbehind : ∀ u v, (∃ row, s.row? u = some row
      ∧ v ≤ row.security.sessionVersion) → ∃ row, s'.row? u = some row
        ∧ v ≤ row.security.sessionVersion := by
    intro u v h
    obtain ⟨row, hr, hle⟩ := h
    obtain ⟨x, hx, hgrow⟩ := hrow u row hr
    exact ⟨x, hx, Nat.le_trans hle hgrow⟩
  apply Opens.of_credentials
  · constructor
    · intro t ht
      rw [hsigned] at ht
      exact hbehind _ _ (hs.signed t ht)
    · intro hash r hr
      rw [hst] at hr
      exact hbehind _ _ (hs.refresh hash r hr)
  · intro t h
    obtain ⟨h₁, h₂, h₃, h₄, h₅, h₆⟩ := h
    rw [hsigned] at h₁
    rw [hst] at h₃ h₄ h₅
    exact Or.inl ⟨h₁, h₂, h₃, h₄, h₅, hcurrent _ _ (hs.signed t h₁) h₆⟩
  · intro hash r h
    obtain ⟨h₁, h₂, h₃⟩ := h
    rw [hst] at h₁ h₂
    exact Or.inl ⟨h₁, h₂, hcurrent _ _ (hs.refresh hash r h₁) h₃⟩

-- ============================================================ the users

/-- What a step leaves of a row, as far as the gate reads it. -/
structure Keeps (now : Nat) (s s' : AuthSystem) : Prop where
  settles : Settles now s s'
  signed : s'.signed = s.signed
  banned : ∀ u row', s'.row? u = some row' → ∃ row, s.row? u = some row
    ∧ row'.security.isBanned = row.security.isBanned

/-- Where nothing happens, everything is kept. -/
theorem Keeps.refl (hs : s.Sound) : Keeps now s s where
  settles := .refl hs
  signed := rfl
  banned _ row h := ⟨row, h, rfl⟩

/-- One step after the other. -/
theorem Keeps.trans (h : Keeps now s s') (h' : Keeps now s' s'') :
    Keeps now s s'' where
  settles := h.settles.trans h'.settles
  signed := h'.signed.trans h.signed
  banned u row'' hr := by
    obtain ⟨row', hr', hb'⟩ := h'.banned u row'' hr
    obtain ⟨row, hr, hb⟩ := h.banned u row' hr'
    exact ⟨row, hr, hb'.trans hb⟩

/-- Other parts of the state may change. -/
theorem keeps_of_same (hs : s.Sound) (hu : s'.users = s.users)
    (hst : s'.store = s.store) (hsigned : s'.signed = s.signed) :
    Keeps now s s' where
  settles := settles_of_same hs hu hst hsigned
  signed := hsigned
  banned u row h := by
    unfold row? at h ⊢
    rw [hu] at h
    exact ⟨row, h, rfl⟩

/-- A write to the store that brings nothing to life keeps the accounts. -/
theorem keeps_setStore {st' : SessionStore} (hs : s.Sound)
    (h : SessionStore.Grants none s.store st') :
    Keeps now s (s.setStore st') where
  settles := settles_setStore hs h
  signed := rfl
  banned _ row hrow := ⟨row, hrow, rfl⟩

/-- An update changes the row of its user. -/
theorem row?_updateUser {userId u : Uuid} {f : AccountRow → AccountRow}
    {hf : ∀ r, (f r).id = r.id} :
    (s.updateUser userId f hf).row? u
      = (s.row? u).map fun r => if r.id = userId then f r else r := by
  show (s.users.update _ f hf).find? u = _
  exact Table.find?_update u

/-- A row may change if its version does not fall, and grows where a
credential does. -/
theorem keeps_updateUser (hs : s.Sound) (userId : Uuid)
    {f : AccountRow → AccountRow} (hf : ∀ r, (f r).id = r.id)
    (hversion : ∀ r,
      r.security.sessionVersion ≤ (f r).security.sessionVersion)
    (hbanned : ∀ r, (f r).security.isBanned = r.security.isBanned) :
    Keeps now s (s.updateUser userId f hf) where
  settles := by
    refine settles_rows hs ?_ ?_ ?_
    · rfl
    · rfl
    · intro u row hrow
      rw [row?_updateUser, hrow]
      refine ⟨_, rfl, ?_⟩
      dsimp only
      split
      · exact hversion row
      · exact Nat.le_refl _
  signed := rfl
  banned u row' hrow' := by
    rw [row?_updateUser] at hrow'
    obtain ⟨row, hrow, rfl⟩ := Option.map_eq_some_iff.mp hrow'
    refine ⟨row, hrow, ?_⟩
    split
    · exact hbanned row
    · rfl

/-- A new session version kills sessions and opens none. -/
theorem keeps_bumpSessionVersion (hs : s.Sound) (userId : Uuid) :
    Keeps now s (s.bumpSessionVersion userId) :=
  keeps_updateUser hs userId (f := AccountRow.bumpSessionVersion)
    (fun _ => rfl) (fun _ => Nat.le_succ _) fun _ => rfl

/-- A new row: an unbanned account without a second factor. -/
theorem settles_insertUser (hs : s.Sound) {row : AccountRow}
    {r : AccountRow × AuthSystem} (h : s.insertUser row = .ok r) :
    Settles now s r.2 ∧ r.2.signed = s.signed ∧ r.1 = row
      ∧ r.2.row? row.id = some row := by
  unfold insertUser at h
  split at h
  · cases h
  · split at h
    · cases h
    · next users hinsert =>
        cases h
        have hfind := Table.find?_insert hinsert
        have hfresh := (Table.insert?_eq_some.mp hinsert).1
        refine ⟨settles_rows hs ?_ ?_ ?_, rfl, rfl, ?_⟩
        · rfl
        · rfl
        · intro u old hold
          refine ⟨old, ?_, Nat.le_refl _⟩
          show users.find? u = some old
          rw [hfind, if_neg, ← hold]
          · rfl
          · intro heq
            apply hfresh
            rw [Table.has_iff]
            subst heq
            exact ⟨old, hold⟩
        · show users.find? row.id = some row
          rw [hfind, if_pos rfl]

end AuthSystem

end Skrynia
