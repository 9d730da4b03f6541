/-
Logouts, in every run of the refresh families.

# The argument

- `Traced`: the index of every family is complete, and what is out (a
  record that a request has read, a rotation on its way, an access token)
  says the same of a token's family and of its user as the lineage.
- `revokePresented_revokes`: the script of a logout fences the families
  that the presented credentials name.
- A fenced family stays fenced (`run_fenced`), and a fenced family has no
  credential that is accepted (`dead_of_fenced`).
- The sessions that the family had recorded are deleted, or all their
  tokens have expired, and neither ends again (`run_ended`).
-/
import Skrynia.Auth.RecordedSessions

namespace Skrynia

open Expiring Stepping

variable {ttls : SessionTtls} {l : Lineage} {now : Nat}
  {hashes : List String} {st : TimedStore}

-- ============================================================== the script

/-- A rotation in a fenced family is refused, and writes nothing but what has
expired. -/
theorem Fenced.refuses {f : String} (h : Fenced hashes f st)
    (ttls : SessionTtls) (now : Nat) {i : Rotation}
    (hi : i.familyId = f)
    (hfamily : i.familyId
      = i.expectedRefreshRecord.familyId.getD i.oldRefreshHash) :
    (st.rotate ttls now i).1 ≠ .committed
      ∧ (st.rotate ttls now i).2 = st.collect now := by
  have hc := h.collect now
  have hfree : (st.collect now).keys.refresh i.oldRefreshHash
        = some i.expectedRefreshRecord →
      ¬ ∀ x ∈ (st.collect now).keys.family i.familyId,
        SessionStore.activeFor x i.userId = true := by
    intro hrecord hactive
    have hnone : i.expectedRefreshRecord.familyId = none := by
      cases hg : i.expectedRefreshRecord.familyId with
      | none => rfl
      | some g =>
          rw [hg] at hfamily
          have hgf : g = f := hfamily.symm.trans hi
          rw [hgf] at hg
          exact absurd hg (hc.refresh _ _ hrecord)
    have hold : i.oldRefreshHash = f := by
      rw [hnone] at hfamily
      exact hfamily.symm.trans hi
    rw [hold] at hrecord
    obtain ⟨hsome, -⟩ := hc.legacy _ hrecord hnone
    obtain ⟨x, hx⟩ := Option.isSome_iff_exists.mp hsome
    have hx' := hactive x (by rw [hi]; exact hx)
    rw [SessionStore.activeFor, hc.fence x hx] at hx'
    cases hx'
  have hrotates := rotate_rotates ttls now st i
  generalize st.rotate ttls now i = answer at hrotates ⊢
  cases hrotates with
  | refused reply hreply =>
      refine ⟨fun hcommitted => ?_, rfl⟩
      have hrotated := hreply hcommitted
      cases hx : (st.collect now).keys.family i.familyId with
      | none => simp [SessionStore.rotated, hx] at hrotated
      | some x =>
          rw [hi] at hx
          have hinactive := hc.fence x hx
          rw [← hi] at hx
          simp [SessionStore.rotated, SessionStore.activeFor, hx, hinactive]
            at hrotated
  | full hrecord hactive _ => exact absurd hactive (hfree hrecord)
  | renewed hrecord hactive _ => exact absurd hactive (hfree hrecord)

/-- Remembering sessions revokes no family. -/
theorem revokedFamilyIds_remember (sessionIds : List String) (r : Revocation) :
    (sessionIds.foldl (fun r jti => r.rememberSession jti)
      r).revokedFamilyIds = r.revokedFamilyIds := by
  induction sessionIds generalizing r with
  | nil => rfl
  | cons jti sessionIds ih => exact ih (r.rememberSession jti)

/-- From `r` to `r'`, the script only takes credentials away, and the
families that it has revoked are fenced, with no session left. -/
structure Revokes (ttls : SessionTtls) (l : Lineage) (now : Nat)
    (hashes : List String) (r r' : Revocation) : Prop where
  shrinks : Shrinks ttls l now hashes r.store r'.store
  revoked : r.revokedFamilyIds ⊆ r'.revokedFamilyIds
  fenced : ∀ f ∈ r'.revokedFamilyIds, Fenced hashes f r'.store
  empties : Empties now r r'

section

variable {r r' r'' : Revocation} {f : String}

/-- One script after the other. -/
theorem Revokes.trans (h : Revokes ttls l now hashes r r')
    (h' : Revokes ttls l now hashes r' r'') :
    Revokes ttls l now hashes r r'' where
  shrinks := h.shrinks.trans h'.shrinks
  revoked := List.Subset.trans h.revoked h'.revoked
  fenced := h'.fenced
  empties := h.empties.trans h'.empties h'.revoked

/-- A script that has not started yet has fenced what it has revoked. -/
theorem Revokes.refl
    (hr : ∀ g ∈ r.revokedFamilyIds, Fenced hashes g r.store) :
    Revokes ttls l now hashes r r where
  shrinks := .refl _
  revoked := List.Subset.refl _
  fenced := hr
  empties := .refl r

/-- Writes that leave the sessions of the families alone. -/
theorem Revokes.store (h : Revokes ttls l now hashes r r')
    (hst : Indexed ttls l now hashes r.store) {st' : TimedStore}
    (hs : Shrinks ttls l now hashes r'.store st')
    (hsession : ∀ jti, r'.store.keys.session jti = none →
      st'.keys.session jti = none)
    (hrecorded : st'.keys.familySessions = r'.store.keys.familySessions) :
    Revokes ttls l now hashes r { r' with store := st' } where
  shrinks := h.shrinks.trans hs
  revoked := h.revoked
  fenced f hf := (h.fenced f hf).shrink (hst.shrink h.shrinks) hs
  empties := h.empties.trans (.of_familySessions hsession hrecorded rfl)
    (List.Subset.refl _)

/-- The user that the index has for a family is the one of its lineage. -/
theorem familyUser_eq (hst : Indexed ttls l now hashes st) {u : Option Uuid}
    (hu : ∀ v ∈ u, l.user f = v) {v : Uuid} (h : st.familyUser f u = some v) :
    l.user f = v := by
  unfold TimedStore.familyUser at h
  cases hx : st.keys.family f with
  | none =>
      rw [hx] at h
      exact hu v h
  | some x =>
      rw [hx] at h
      obtain rfl : x.userId = v := Option.some.inj h
      exact (hst.family f x hx).2.1

/-- The store is the one before, or has the fence. -/
theorem revokeFamily_revokes (hst : Indexed ttls l now hashes r.store)
    (hr : ∀ g ∈ r.revokedFamilyIds, Fenced hashes g r.store)
    {u : Option Uuid} (hf : f ∈ hashes) (hu : ∀ v ∈ u, l.user f = v)
    (hsome : (r.store.familyUser f u).isSome) :
    ∃ r', r.revokeFamily ttls now f u = (some (l.user f), r')
      ∧ Revokes ttls l now hashes r r' ∧ f ∈ r'.revokedFamilyIds
      ∧ (r'.store = r.store
        ∨ r'.store = r.store.fence ttls now f (l.user f)) := by
  obtain ⟨v, hv⟩ := Option.isSome_iff_exists.mp hsome
  have hlv := familyUser_eq hst hu hv
  unfold Revocation.revokeFamily
  dsimp only
  split
  · next hmem =>
      rw [hv, hlv]
      exact ⟨r, rfl, .refl hr, hmem, Or.inl rfl⟩
  · have hshrinks : Shrinks ttls l now hashes r.store
        (r.store.fence ttls now f v) := fence_shrinks hst hf hlv
    rw [hv, hlv]
    refine ⟨_, rfl, ⟨hshrinks, ?_, ?_, ?_⟩, ?_, Or.inr rfl⟩
    · dsimp only
      rw [revokedFamilyIds_remember]
      exact List.subset_append_left _ _
    · intro g hg
      dsimp only at hg
      rw [revokedFamilyIds_remember] at hg
      rcases List.mem_append.mp hg with hg | hg
      · exact (hr g hg).shrink hst hshrinks
      · rw [List.mem_singleton.mp hg]
        exact fence_fenced hst hf hlv
    · exact fence_empties ttls now rfl (revokedFamilyIds_remember _ _)
    · dsimp only
      rw [revokedFamilyIds_remember]
      exact List.mem_append_right _ List.mem_cons_self

end

/-- The record, the alias and the receipt of a token agree: whichever of the
three a logout finds first, the family and the user that it reads are those
of the token. -/
theorem refreshIdentity_home (hst : Indexed ttls l now hashes st)
    {h f : String} {u : Option Uuid}
    (hid : Revocation.refreshIdentity h st = (some f, u)) :
    f = l.home h ∧ f ∈ hashes ∧ h ∈ hashes ∧ (∀ v ∈ u, l.user f = v)
      ∧ (st.familyUser f u).isSome := by
  have hfamilyFor := hst.familyFor h
  have hrefresh := hst.refresh h
  have hreceipt := hst.receipt h
  unfold Revocation.refreshIdentity at hid
  obtain ⟨hf, rfl⟩ := Prod.mk.inj hid
  cases halias : st.keys.familyFor h with
  | some g =>
      rw [halias] at hf
      obtain rfl : g = f := Option.some.inj hf
      obtain ⟨hmem, rfl, hsome, -⟩ := hfamilyFor g halias
      obtain ⟨x, hx⟩ := Option.isSome_iff_exists.mp hsome
      obtain ⟨hhome, -, -⟩ := hst.family _ x hx
      refine ⟨rfl, hhome, hmem, ?_, ?_⟩
      · intro v hv
        cases hrecord : st.keys.refresh h with
        | some r =>
            rw [hrecord] at hv
            obtain ⟨-, -, -, huser, -⟩ := hrefresh r hrecord
            exact huser.trans (Option.some.inj hv)
        | none =>
            rw [hrecord] at hv
            obtain ⟨y, hy, rfl⟩ := Option.map_eq_some_iff.mp hv
            exact (hreceipt y hy).2.2.2
      · rw [TimedStore.familyUser, hx]
        rfl
  | none =>
      cases hrecord : st.keys.refresh h with
      | some r =>
          obtain ⟨hmem, hhome, hhomes, huser, -⟩ := hrefresh r hrecord
          have hfh : f = l.home h := by
            rw [halias, hrecord] at hf
            cases hrf : r.familyId with
            | some g =>
                rw [hrf] at hhome
                simp only [Option.none_or, Option.bind_some, hrf,
                  Option.some_or] at hf
                exact (Option.some.inj hf).symm.trans hhome
            | none =>
                rw [hrf] at hhome
                cases hy : st.keys.logoutReceipt h with
                | some y =>
                    simp only [hrf, hy, Option.none_or, Option.bind_some,
                      Option.map_some, Option.some_or] at hf
                    obtain ⟨-, hyh, -, -⟩ := hreceipt y hy
                    exact (Option.some.inj hf).symm.trans hyh
                | none =>
                    simp only [hrf, hy, Option.none_or, Option.bind_some,
                      Option.map_none, Option.map_some, Option.some_or] at hf
                    exact (Option.some.inj hf).symm.trans hhome
          subst hfh
          refine ⟨rfl, hhomes, hmem, ?_, ?_⟩
          · intro v hv
            exact huser.trans (Option.some.inj hv)
          · unfold TimedStore.familyUser
            cases st.keys.family (l.home h) <;> rfl
      | none =>
          cases hy : st.keys.logoutReceipt h with
          | some y =>
              rw [halias, hrecord, hy] at hf
              obtain ⟨hmem, hyh, hhomes, huser⟩ := hreceipt y hy
              obtain rfl : y.familyId = f := Option.some.inj hf
              rw [hyh]
              refine ⟨rfl, hhomes, hmem, ?_, ?_⟩
              · intro v hv
                exact huser.trans (Option.some.inj hv)
              · unfold TimedStore.familyUser
                cases st.keys.family (l.home h) <;> rfl
          | none =>
              rw [halias, hrecord, hy] at hf
              cases hf

/-- The token is one of the family, or was until a moment ago. -/
def Names (st : TimedStore) (h f : String) : Prop :=
  (∃ r, st.keys.refresh h = some r ∧ r.familyId.getD h = f)
    ∨ st.keys.familyFor h = some f

section

variable {h f g : String}

/-- A family that a refresh token names is the one it was issued in. -/
theorem Names.home (hn : Names st h f) (hst : Indexed ttls l now hashes st) :
    f = l.home h := by
  rcases hn with ⟨r, hr, rfl⟩ | hf
  · exact (hst.refresh h r hr).2.1
  · exact (hst.familyFor h f hf).2.1

/-- The script finds the family that a refresh token names. -/
theorem Names.identity (hn : Names st h f)
    (hst : Indexed ttls l now hashes st) :
    (Revocation.refreshIdentity h st).1 = some f := by
  have hsome : (Revocation.refreshIdentity h st).1.isSome := by
    unfold Revocation.refreshIdentity
    rcases hn with ⟨r, hr, -⟩ | hf
    · simp [hr]
    · simp [hf]
  obtain ⟨g, hg⟩ := Option.isSome_iff_exists.mp hsome
  obtain ⟨hhome, -⟩ := refreshIdentity_home hst
    (Prod.ext hg rfl : Revocation.refreshIdentity h st = (some g, _))
  rw [hg, hhome, hn.home hst]

/-- The fence of another family takes no token of this one. -/
theorem Names.fence (hn : Names st h f) (hst : Indexed ttls l now hashes st)
    (hg : g ≠ f) (u : Uuid) : Names (st.fence ttls now g u) h f := by
  rcases hn with ⟨r, hr, hrf⟩ | hf
  · have hnot : h ∉ st.keys.familyTokens g := by
      intro hmem
      have hhome := Names.home (Or.inl ⟨r, hr, hrf⟩) hst
      exact hg ((hst.tokens g h hmem).2.symm.trans hhome.symm)
    exact Or.inl ⟨r, (if_neg hnot).trans hr, hrf⟩
  · exact Or.inr hf

end

section

variable {r : Revocation}

/-- A refresh token that is presented revokes its family. -/
theorem revokeRefresh_revokes (hst : Indexed ttls l now hashes r.store)
    (hr : ∀ g ∈ r.revokedFamilyIds, Fenced hashes g r.store) (h : String) :
    Revokes ttls l now hashes r (r.revokeRefresh ttls now h)
      ∧ ∀ f, (Revocation.refreshIdentity h r.store).1 = some f →
        f ∈ (r.revokeRefresh ttls now h).revokedFamilyIds := by
  unfold Revocation.revokeRefresh
  generalize hid : Revocation.refreshIdentity h r.store = identity
  obtain ⟨family, u⟩ := identity
  have hrefl : Revokes ttls l now hashes r r := .refl hr
  cases family with
  | none =>
      exact ⟨hrefl.store hst (dropRefresh_shrinks h u) (fun _ hjti => hjti)
        rfl, nofun⟩
  | some f =>
      obtain ⟨rfl, hf, hh, hu, hsome⟩ := refreshIdentity_home hst hid
      obtain ⟨r', hrevoked, hrevokes, hmem, -⟩ :=
        revokeFamily_revokes hst hr hf hu hsome
      dsimp only
      rw [hrevoked]
      have hreceipt := hrevokes.store hst (writeReceipt_shrinks
        (x := ⟨l.user (l.home h), l.home h⟩) ⟨hh, rfl, hf, rfl⟩)
        (fun _ hjti => hjti) rfl
      refine ⟨hreceipt.store hst (dropRefresh_shrinks h u)
        (fun _ hjti => hjti) rfl, fun f hf => ?_⟩
      obtain rfl := Option.some.inj hf
      exact hmem

/-- The session of an access token is deleted, which revokes no family. -/
theorem revokeAccess_revokes (hst : Indexed ttls l now hashes r.store)
    (hr : ∀ g ∈ r.revokedFamilyIds, Fenced hashes g r.store)
    (identity : LogoutAccessIdentity) :
    Revokes ttls l now hashes r (r.revokeAccess ttls now identity) := by
  have hsession : ∀ jti, r.store.keys.session jti = none →
      (r.store.dropSession ttls now identity.sessionId
        identity.userId).keys.session jti = none := by
    intro jti hjti
    change Function.update r.store.keys.session _ none jti = none
    rw [Function.update_apply]
    split
    · rfl
    · exact hjti
  have hdropped := (Revokes.refl hr).store hst (dropSession_shrinks
    identity.sessionId identity.userId) hsession rfl
  have hempties := hdropped.empties
  exact ⟨hdropped.shrinks, hdropped.revoked, hdropped.fenced,
    hempties.session, hempties.recorded, hempties.kept, hempties.ended⟩

end

/-- What the first part of the script leaves: the family of the presented
access token is fenced, and the refresh token is still found. -/
theorem revokeAccessFamily_revokes (hst : Indexed ttls l now hashes st)
    {access : Option LogoutAccessIdentity}
    (haccess : ∀ x ∈ access, ∀ f, x.familyId = some f →
      f ∈ hashes ∧ l.user f = x.userId) :
    ∃ r, (⟨st, [], []⟩ : Revocation).revokeAccessFamily ttls now access = r
      ∧ Revokes ttls l now hashes ⟨st, [], []⟩ r
      ∧ (∀ x ∈ access, ∀ f, x.mayRevokeFamily = true → x.familyId = some f →
        f ∈ r.revokedFamilyIds)
      ∧ ∀ h f, Names st h f → f ∉ r.revokedFamilyIds → Names r.store h f := by
  have hnone : ∀ g ∈ (⟨st, [], []⟩ : Revocation).revokedFamilyIds,
      Fenced hashes g st := fun _ hg => absurd hg List.not_mem_nil
  refine ⟨_, rfl, ?_⟩
  unfold Revocation.revokeAccessFamily
  split
  · next hfamily =>
      refine ⟨.refl hnone, fun x hx f hmay hxf => ?_,
        fun h f hn _ => hn⟩
      rw [Option.mem_def.mp hx] at hfamily
      simp [hmay, hxf] at hfamily
  · next f hfamily =>
      obtain ⟨x, hx, hxf⟩ := Option.bind_eq_some_iff.mp hfamily
      obtain ⟨hmay, hxf⟩ := (Option.ite_none_right_eq_some).mp hxf
      obtain ⟨hf, huser⟩ := haccess x hx f hxf
      have hsome : (st.familyUser f (access.map (·.userId))).isSome := by
        rw [hx]
        unfold TimedStore.familyUser
        cases st.keys.family f <;> rfl
      have hfallback : ∀ v ∈ access.map (·.userId), l.user f = v := by
        intro v hv
        rw [hx] at hv
        exact huser.trans (Option.some.inj hv)
      obtain ⟨r, hr, hrevokes, hmem, hstore⟩ := revokeFamily_revokes
        (r := ⟨st, [], []⟩) hst hnone hf hfallback hsome
      rw [hr]
      refine ⟨hrevokes, fun y hy g _ hyg => ?_, fun h y hn hnot => ?_⟩
      · obtain rfl : x = y := Option.some.inj (hx.symm.trans hy)
        obtain rfl : f = g := Option.some.inj (hxf.symm.trans hyg)
        exact hmem
      · have hne : f ≠ y := by
          intro hfy
          subst hfy
          exact hnot hmem
        rcases hstore with hstore | hstore
        · rw [hstore]
          exact hn
        · rw [hstore]
          exact hn.fence hst hne _

/-- The script of a logout only takes credentials away, and it revokes the
families that the presented ones name. -/
theorem revokePresented_revokes
    (hst : Indexed ttls l now hashes (st.collect now))
    {access : Option LogoutAccessIdentity}
    (haccess : ∀ x ∈ access, ∀ f, x.familyId = some f →
      f ∈ hashes ∧ l.user f = x.userId)
    (refreshHash : Option String) :
    Revokes ttls l now hashes ⟨st.collect now, [], []⟩
        (st.revokePresented ttls now access refreshHash)
      ∧ ∀ f, (∃ x ∈ access, x.mayRevokeFamily = true ∧ x.familyId = some f)
          ∨ (∃ h ∈ refreshHash, Names (st.collect now) h f) →
        f ∈ (st.revokePresented ttls now access
          refreshHash).revokedFamilyIds := by
  obtain ⟨r, hr, hrevokes, hfamily, hnames⟩ :=
    revokeAccessFamily_revokes hst haccess
  have hst' := hst.shrink hrevokes.shrinks
  have hrefresh : ∃ r', (refreshHash.elim r fun hash =>
        r.revokeRefresh ttls now hash) = r'
      ∧ Revokes ttls l now hashes r r'
      ∧ ∀ f, (∃ h ∈ refreshHash, Names (st.collect now) h f) →
        f ∈ r'.revokedFamilyIds := by
    refine ⟨_, rfl, ?_⟩
    cases refreshHash with
    | none => exact ⟨.refl hrevokes.fenced, nofun⟩
    | some h =>
        obtain ⟨hrevoked, hidentity⟩ :=
          revokeRefresh_revokes hst' hrevokes.fenced h
        refine ⟨hrevoked, fun f hf => ?_⟩
        obtain ⟨y, hy, hn⟩ := hf
        obtain rfl := Option.some.inj hy
        by_cases hmem : f ∈ r.revokedFamilyIds
        · exact hrevoked.revoked hmem
        · exact hidentity f ((hnames h f hn hmem).identity hst')
  obtain ⟨r', hr', hrevokes', hnames'⟩ := hrefresh
  have haccess' : ∃ r'', st.revokePresented ttls now access refreshHash = r''
      ∧ Revokes ttls l now hashes r' r'' := by
    refine ⟨_, rfl, ?_⟩
    unfold TimedStore.revokePresented
    dsimp only
    rw [hr, hr']
    cases access with
    | none => exact .refl hrevokes'.fenced
    | some identity =>
        exact revokeAccess_revokes (hst'.shrink hrevokes'.shrinks)
          hrevokes'.fenced identity
  obtain ⟨r'', hr'', hrevokes''⟩ := haccess'
  rw [hr'']
  have hall := hrevokes'.trans hrevokes''
  refine ⟨hrevokes.trans hall, fun f hf => ?_⟩
  rcases hf with ⟨x, hx, hmay, hxf⟩ | hf
  · exact hall.revoked (hfamily x hx f hmay hxf)
  · exact hrevokes''.revoked (hnames' f hf)

-- ================================================================= system

/-- What a rotation says agrees with the lineage. -/
structure Belongs (l : Lineage) (hashes : List String) (i : Rotation) :
    Prop where
  familyId : i.familyId
    = i.expectedRefreshRecord.familyId.getD i.oldRefreshHash
  session_familyId : i.session.familyId = i.familyId
  new_mem : i.session.refreshHash ∈ hashes
  home_new : l.home i.session.refreshHash = i.familyId
  old_mem : i.oldRefreshHash ∈ hashes
  home_old : l.home i.oldRefreshHash = i.familyId
  family_mem : i.familyId ∈ hashes
  user : l.user i.familyId = i.userId

/-- A rotation belongs where more tokens have been drawn. -/
theorem Belongs.mono {l' : Lineage} {hashes' : List String} {i : Rotation}
    (h : Belongs l hashes i) (hsub : hashes ⊆ hashes')
    (hagree : Lineage.Agree hashes l l') : Belongs l' hashes' i where
  familyId := h.familyId
  session_familyId := h.session_familyId
  new_mem := hsub h.new_mem
  home_new := (hagree.home _ h.new_mem).trans h.home_new
  old_mem := hsub h.old_mem
  home_old := (hagree.home _ h.old_mem).trans h.home_old
  family_mem := hsub h.family_mem
  user := (hagree.user _ h.family_mem).trans h.user

namespace FamilySystem

variable {cfg : SessionConfig} {s : FamilySystem}

/-- The index is complete, and what is out agrees with the lineage. -/
structure Traced (cfg : SessionConfig) (l : Lineage) (s : FamilySystem) :
    Prop where
  indexed : Indexed cfg.ttls l s.now s.hashes s.store
  lookups : ∀ x ∈ s.lookups, x.1 ∈ s.hashes
    ∧ x.2.familyId.getD x.1 = l.home x.1 ∧ l.home x.1 ∈ s.hashes
    ∧ l.user (l.home x.1) = x.2.userId
  rotations : ∀ i ∈ s.rotations, Belongs l s.hashes i
  signed : ∀ t ∈ s.signed, ∀ f, t.familyId = some f →
    f ∈ s.hashes ∧ l.user f = t.userId

/-- At the opening every old token is a family of its own. -/
theorem opening_traced (o : Rollout cfg.ttls) :
    ∃ l, Traced cfg l (opening cfg o) := by
  refine ⟨⟨id, fun hash => ((o.refresh hash).map Prod.fst).getD ⟨0⟩⟩, ?_⟩
  constructor
  · constructor
    · intro h r hr
      obtain ⟨x, hx, rfl⟩ := Option.map_eq_some_iff.mp hr
      refine ⟨o.mem_hashes h x hx, rfl, o.mem_hashes h x hx, ?_,
        o.deadline_le h⟩
      change ((o.refresh h).map Prod.fst).getD _ = x.1
      rw [hx]
      rfl
    · intro h r f hr hf
      obtain ⟨x, -, rfl⟩ := Option.map_eq_some_iff.mp hr
      cases hf
    · exact fun _ _ hf => absurd hf List.not_mem_nil
    · exact nofun
    · exact nofun
    · exact fun _ _ hh => absurd hh List.not_mem_nil
    · exact nofun
  · exact fun _ hx => absurd hx List.not_mem_nil
  · exact fun _ hi => absurd hi List.not_mem_nil
  · intro t ht f hf
    rw [o.signed_familyId t ht] at hf
    cases hf

/-- One evaluation of a rotation's script. -/
theorem evaluate_indexed (hs : Indexed cfg.ttls l s.now s.hashes s.store)
    {i : Rotation} (hi : Belongs l s.hashes i) :
    Indexed cfg.ttls l s.now s.hashes (s.store.rotate cfg.ttls s.now i).2
      ∧ ∀ f, Fenced s.hashes f s.store →
        Fenced s.hashes f (s.store.rotate cfg.ttls s.now i).2 := by
  have hc := hs.collect
  by_cases hfamily : Fenced s.hashes i.familyId s.store
  · obtain ⟨-, hstore⟩ := hfamily.refuses cfg.ttls s.now rfl hi.familyId
    rw [hstore]
    exact ⟨hc, fun f hf => hf.collect s.now⟩
  · have hrotates := rotate_rotates cfg.ttls s.now s.store i
    generalize s.store.rotate cfg.ttls s.now i = answer at hrotates ⊢
    cases hrotates with
    | refused => exact ⟨hc, fun f hf => hf.collect s.now⟩
    | full =>
        have hpruned := pruned_shrinks cfg.ttls l s.now s.hashes
          (s.store.collect s.now) i
        exact ⟨hc.shrink hpruned, fun f hf => (hf.collect s.now).shrink hc hpruned⟩
    | renewed =>
        have hextends := renewed_extends cfg.ttls s.now s.store i
          hi.session_familyId
        refine ⟨hc.extend hextends hi.new_mem hi.home_new hi.old_mem
          hi.home_old hi.family_mem hi.user, fun f hf => ?_⟩
        refine (hf.collect s.now).extend hextends fun hfi => hfamily ?_
        rw [← hfi]
        exact hf

/-- The script of a rotation keeps the index complete. -/
theorem evaluate_traced (hs : Traced cfg l s) {i : Rotation}
    (hi : Belongs l s.hashes i) : Traced cfg l (s.evaluate cfg i) :=
  ⟨(evaluate_indexed hs.indexed hi).1, hs.lookups, hs.rotations, hs.signed⟩

/-- Credentials that are signed, of the family `f` of a user. -/
theorem sign_traced (hs : Traced cfg l s) {u : Uuid}
    {session : SessionCredentials} {expiresAt : Nat}
    (hdraws : s.Draws u session expiresAt)
    (hf : session.familyId = session.refreshHash
      ∨ session.familyId ∈ s.hashes ∧ l.user session.familyId = u) :
    ∃ l', Lineage.Agree s.hashes l l'
      ∧ Traced cfg l' (s.sign session)
      ∧ l'.home session.refreshHash = session.familyId
      ∧ session.familyId ∈ (s.sign session).hashes
      ∧ l'.user session.familyId = u := by
  have hagree := Lineage.draw_agree hdraws.hash (l := l) session.familyId u
  have hsub : s.hashes ⊆ (s.sign session).hashes :=
    List.subset_append_left _ _
  have huser : session.familyId ∈ (s.sign session).hashes
      ∧ (l.draw session.refreshHash session.familyId u).user session.familyId
        = u := by
    rcases hf with hf | ⟨hmem, hu⟩
    · rw [hf]
      exact ⟨List.mem_append_right _ List.mem_cons_self,
        Function.update_self _ _ _⟩
    · exact ⟨hsub hmem, (hagree.user _ hmem).trans hu⟩
  refine ⟨l.draw session.refreshHash session.familyId u, hagree, ?_,
    Function.update_self _ _ _, huser⟩
  constructor
  · exact hs.indexed.mono hsub hagree
  · intro x hx
    obtain ⟨hmem, hhome, hhomes, hu⟩ := hs.lookups x hx
    rw [hagree.home _ hmem, hagree.user _ hhomes]
    exact ⟨hsub hmem, hhome, hsub hhomes, hu⟩
  · intro i hi
    exact (hs.rotations i hi).mono hsub hagree
  · intro t ht f htf
    rcases List.mem_append.mp ht with ht | ht
    · obtain ⟨hmem, hu⟩ := hs.signed t ht f htf
      exact ⟨hsub hmem, (hagree.user f hmem).trans hu⟩
    · rw [List.mem_singleton.mp ht] at htf ⊢
      obtain rfl : session.familyId = f :=
        Option.some.inj (hdraws.token_familyId.symm.trans htf)
      exact ⟨huser.1, huser.2.trans hdraws.token_userId.symm⟩

/-- A rotation that is prepared goes on with a token of its family. -/
theorem prepared_traced (hs : Traced cfg l s) {i : Rotation}
    (hi : s.Prepares cfg i) :
    ∃ l', Traced cfg l' { s.sign i.session with
        rotations := s.rotations ++ [i] }
      ∧ Belongs l' (s.sign i.session).hashes i := by
  obtain ⟨hold, hhomeOld, hhomes, huserOld⟩ := hs.lookups _ hi.lookup
  have hfamily : i.familyId = l.home i.oldRefreshHash :=
    hi.familyId.trans hhomeOld
  have hfam : i.familyId ∈ s.hashes := by
    rw [hfamily]
    exact hhomes
  have huser : l.user i.familyId = i.userId := by
    rw [hfamily, hi.userId]
    exact huserOld
  obtain ⟨l', hagree, hsigned, hhome, -, -⟩ := sign_traced hs hi.draws (Or.inr (by
    rw [hi.session_familyId]
    exact ⟨hfam, huser⟩))
  have hsub : s.hashes ⊆ (s.sign i.session).hashes :=
    List.subset_append_left _ _
  have hbelongs : Belongs l' (s.sign i.session).hashes i := by
    constructor
    · exact hi.familyId
    · exact hi.session_familyId
    · exact List.mem_append_right _ List.mem_cons_self
    · exact hhome.trans hi.session_familyId
    · exact hsub hold
    · exact (hagree.home _ hold).trans hfamily.symm
    · exact hsub hfam
    · exact (hagree.user _ hfam).trans huser
  refine ⟨l', ⟨hsigned.indexed, hsigned.lookups, fun j hj => ?_,
    hsigned.signed⟩, hbelongs⟩
  rcases List.mem_append.mp hj with hj | hj
  · exact hsigned.rotations j hj
  · rw [List.mem_singleton.mp hj]
    exact hbelongs

/-- A family that an access token names at logout is the one it was signed
for. -/
theorem identity_signed (hs : Traced cfg l s) (accessToken : Option AccessToken) :
    ∀ x ∈ parseAccessSessionForLogout s.signed s.now accessToken,
      ∀ f, x.familyId = some f → f ∈ s.hashes ∧ l.user f = x.userId := by
  intro x hx f hf
  obtain ⟨t, ht, rfl⟩ := Option.map_eq_some_iff.mp hx
  obtain ⟨-, hsigned⟩ := Option.filter_eq_some_iff.mp ht
  exact hs.signed t (of_decide_eq_true hsigned) f hf

/-- A step goes on with the lineage, and what is fenced stays fenced. Only an
issue and a rotation extend the lineage, and a rotation of a fenced family is
refused by the script. -/
theorem step_traced (hs : Traced cfg l s) (e : FamilyEvent) :
    ∃ l', Traced cfg l' (s.step cfg e)
      ∧ ∀ f, Fenced s.hashes f s.store →
        Fenced (s.step cfg e).hashes f (s.step cfg e).store := by
  cases e with
  | tick seconds =>
      refine ⟨l, ?_, fun f hf => hf⟩
      exact ⟨hs.indexed.later seconds, hs.lookups, hs.rotations, hs.signed⟩
  | issue userId session =>
      dsimp only [step]
      split
      · next hguard =>
          obtain ⟨hdraws, hfamily⟩ := hguard
          obtain ⟨l', -, hsigned, hhome, hmem, huser⟩ :=
            sign_traced hs hdraws (Or.inl hfamily)
          have hextends := issue_extends cfg.ttls s.now s.store userId session
            (s.now + cfg.ttls.access)
          have hnew : session.refreshHash ∈ (s.sign session).hashes :=
            List.mem_append_right _ List.mem_cons_self
          refine ⟨l', ⟨hsigned.indexed.collect.extend hextends hnew hhome hnew
            hhome hmem huser, hsigned.lookups, hsigned.rotations,
            hsigned.signed⟩, fun f hf => ?_⟩
          have hne : f ≠ session.familyId := by
            intro heq
            apply hdraws.hash
            rw [← hfamily, ← heq]
            exact hf.known
          exact ((hf.mono (List.subset_append_left _ _)).collect
            s.now).extend hextends hne
      · exact ⟨l, hs, fun f hf => hf⟩
  | lookup refreshHash =>
      dsimp only [step]
      split
      · exact ⟨l, hs, fun f hf => hf⟩
      · next record hrecord =>
          refine ⟨l, ⟨hs.indexed, fun x hx => ?_, hs.rotations, hs.signed⟩,
            fun f hf => hf⟩
          rcases List.mem_append.mp hx with hx | hx
          · exact hs.lookups x hx
          · obtain ⟨hmem, hhome, hhomes, huser, -⟩ :=
              hs.indexed.collect.refresh refreshHash record hrecord
            rw [List.mem_singleton.mp hx]
            exact ⟨hmem, hhome, hhomes, huser⟩
  | rotate i =>
      dsimp only [step]
      split
      · next hprepares =>
          obtain ⟨l', hnext, hbelongs⟩ := prepared_traced hs hprepares
          exact ⟨l', evaluate_traced hnext hbelongs, fun f hf =>
            (evaluate_indexed hnext.indexed hbelongs).2 f
              (hf.mono (List.subset_append_left _ _))⟩
      · exact ⟨l, hs, fun f hf => hf⟩
  | retry n =>
      dsimp only [step]
      split
      · exact ⟨l, hs, fun f hf => hf⟩
      · next i hi =>
          have hbelongs := hs.rotations i (List.mem_of_getElem? hi)
          exact ⟨l, evaluate_traced hs hbelongs,
            (evaluate_indexed hs.indexed hbelongs).2⟩
  | logout accessToken refreshHash =>
      obtain ⟨hrevokes, -⟩ := revokePresented_revokes hs.indexed.collect
        (identity_signed hs accessToken) refreshHash
      have hshrinks := hrevokes.shrinks
      exact ⟨l, ⟨hs.indexed.collect.shrink hshrinks, hs.lookups, hs.rotations,
        hs.signed⟩, fun f hf => (hf.collect s.now).shrink hs.indexed.collect hshrinks⟩
  | revokeAll userId =>
      have hshrinks := revokeAll_shrinks hs.indexed.collect userId
      exact ⟨l, ⟨hs.indexed.collect.shrink hshrinks, hs.lookups, hs.rotations,
        hs.signed⟩, fun f hf => (hf.collect s.now).shrink hs.indexed.collect hshrinks⟩

/-- The index stays complete in every run. -/
theorem run_traced (hs : ∃ l, Traced cfg l s) (events : List FamilyEvent) :
    ∃ l, Traced cfg l (run (step cfg) s events) := by
  apply run_keeps (P := fun s => ∃ l, Traced cfg l s) ?_ hs
  intro s e hs
  obtain ⟨l, hs⟩ := hs
  obtain ⟨l', hs', -⟩ := step_traced hs e
  exact ⟨l', hs'⟩

/-- Once fenced, a family is fenced in every later state. -/
theorem run_fenced {f : String} (hs : ∃ l, Traced cfg l s)
    (hf : Fenced s.hashes f s.store) (events : List FamilyEvent) :
    Fenced (run (step cfg) s events).hashes f
      (run (step cfg) s events).store := by
  have hkeeps : ∀ s e,
      (∃ l, Traced cfg l s) ∧ Fenced s.hashes f s.store →
      (∃ l, Traced cfg l (s.step cfg e))
        ∧ Fenced (s.step cfg e).hashes f (s.step cfg e).store := by
    intro s e hs
    obtain ⟨⟨l, hs⟩, hf⟩ := hs
    obtain ⟨l', hs', hfenced⟩ := step_traced hs e
    exact ⟨⟨l', hs'⟩, hfenced f hf⟩
  exact (run_keeps hkeeps ⟨hs, hf⟩ events).2

-- ================================================================ sessions

/-- A rotation has drawn its session, and the sessions that it records are
the family's. -/
structure Claimed (signed : List AccessToken) (i : Rotation) : Prop where
  token_signed : i.session.accessToken ∈ signed
  token_jti : i.session.accessToken.jti = i.session.jti
  token_familyId : i.session.accessToken.familyId = some i.familyId
  records : ∀ jti, i.Records jti →
    Claims signed jti i.familyId i.sessionExpiresAt

/-- What a family has recorded is the family's, and so is what a rotation
may yet record. -/
structure Recorded (s : FamilySystem) : Prop where
  sessions : ∀ f, ∀ x ∈ s.store.keys.familySessions f,
    Claims s.signed x.1 f x.2
  rotations : ∀ i ∈ s.rotations, Claimed s.signed i

/-- One more signed token changes nothing for a rotation on its way. -/
theorem Claimed.sign {i : Rotation} (h : Claimed s.signed i) {u : Uuid}
    {session : SessionCredentials} {expiresAt : Nat}
    (hdraws : s.Draws u session expiresAt) :
    Claimed (s.sign session).signed i where
  token_signed := List.mem_append_left _ h.token_signed
  token_jti := h.token_jti
  token_familyId := h.token_familyId
  records jti hjti := (h.records jti hjti).sign fun t ht =>
    hdraws.token_jti ▸ hdraws.jti t ht

/-- A token of a new session. -/
theorem Recorded.sign (h : Recorded s) {u : Uuid}
    {session : SessionCredentials} {expiresAt : Nat}
    (hdraws : s.Draws u session expiresAt) : Recorded (s.sign session) where
  sessions f x hx := (h.sessions f x hx).sign fun t ht =>
    hdraws.token_jti ▸ hdraws.jti t ht
  rotations i hi := (h.rotations i hi).sign hdraws

/-- Fewer records are as good. -/
theorem Recorded.shrink (h : Recorded s) {st : TimedStore}
    (hrecorded : ∀ f, st.keys.familySessions f
      ⊆ s.store.keys.familySessions f) :
    Recorded { s with store := st } where
  sessions f x hx := h.sessions f x (hrecorded f hx)
  rotations := h.rotations

/-- A rotation that is prepared has drawn its session, and read the other
one from a signed token without a family. -/
theorem Prepares.claimed {i : Rotation} (hi : s.Prepares cfg i) :
    Claimed (s.sign i.session).signed i := by
  have hdraws := hi.draws
  constructor
  · exact List.mem_append_right _ List.mem_cons_self
  · exact hdraws.token_jti
  · rw [hdraws.token_familyId, hi.session_familyId]
  · intro jti hjti
    rcases hjti with rfl | hprevious
    · rw [← hi.session_familyId]
      exact .of_draws hdraws
    · have hclaims : Claims s.signed jti i.familyId i.sessionExpiresAt := by
        constructor
        · exact hi.previous_signed jti hprevious
        · intro t ht hjti g hg
          obtain ⟨-, hnone, -⟩ := hi.previous t ht (hjti ▸ hprevious)
          rw [hnone] at hg
          cases hg
        · intro t ht hjti
          obtain ⟨-, -, hexpires⟩ := hi.previous t ht (hjti ▸ hprevious)
          exact hexpires
      exact hclaims.sign fun t ht => hdraws.token_jti ▸ hdraws.jti t ht

/-- The script of a rotation records sessions of its own family only. -/
theorem evaluate_recorded (h : Recorded s) {i : Rotation}
    (hi : i ∈ s.rotations) (hfamily : i.session.familyId = i.familyId) :
    Recorded (s.evaluate cfg i) where
  sessions f x hx := by
    rcases rotate_familySessions cfg.ttls s.now s.store i hfamily hx with
      hx | ⟨rfl, hexpires, hrecords⟩
    · exact h.sessions f x hx
    · rw [hexpires]
      exact (h.rotations i hi).records x.1 hrecords
  rotations := h.rotations

/-- A step records sessions of the family only: an issue and a rotation add
the session that they sign, under its own family, and all other scripts only
take entries away. -/
theorem step_recorded (h : Recorded s) (hs : Traced cfg l s)
    (e : FamilyEvent) : Recorded (s.step cfg e) := by
  cases e with
  | tick seconds => exact ⟨h.sessions, h.rotations⟩
  | issue userId session =>
      dsimp only [step]
      split
      · next hguard =>
          obtain ⟨hdraws, -⟩ := hguard
          have hsigned := h.sign hdraws
          refine ⟨fun f x hx => ?_, hsigned.rotations⟩
          rcases of_mem_update_zadd hx with hx | ⟨rfl, rfl⟩
          · exact hsigned.sessions f x
              (of_mem_collect_familySessions s.now s.store hx)
          · exact .of_draws hdraws
      · exact h
  | lookup refreshHash =>
      dsimp only [step]
      split
      · exact h
      · exact ⟨h.sessions, h.rotations⟩
  | rotate i =>
      dsimp only [step]
      split
      · next hprepares =>
          have hsigned := h.sign hprepares.draws
          have hnext : Recorded ({ s.sign i.session with
              rotations := s.rotations ++ [i] } : FamilySystem) := by
            refine ⟨hsigned.sessions, fun j hj => ?_⟩
            rcases List.mem_append.mp hj with hj | hj
            · exact hsigned.rotations j hj
            · rw [List.mem_singleton.mp hj]
              exact hprepares.claimed
          exact evaluate_recorded hnext
            (List.mem_append_right s.rotations List.mem_cons_self)
            hprepares.session_familyId
      · exact h
  | retry n =>
      dsimp only [step]
      split
      · exact h
      · next i hi =>
          have hmem := List.mem_of_getElem? hi
          exact evaluate_recorded h hmem (hs.rotations i hmem).session_familyId
  | logout accessToken refreshHash =>
      obtain ⟨hrevokes, -⟩ := revokePresented_revokes hs.indexed.collect
        (identity_signed hs accessToken) refreshHash
      exact h.shrink fun f x hx => of_mem_collect_familySessions s.now s.store
        (hrevokes.empties.recorded f hx)
  | revokeAll userId =>
      refine h.shrink fun f x hx => ?_
      change x ∈ if f ∈ (s.store.collect s.now).keys.userFamilies userId
        then [] else (s.store.collect s.now).keys.familySessions f at hx
      split at hx
      · cases hx
      · exact of_mem_collect_familySessions s.now s.store hx

/-- The session is the family's, and it is deleted or all of its tokens
have expired. -/
structure Ended (s : FamilySystem) (f jti : String) (score : Nat) : Prop where
  claims : Claims s.signed jti f score
  lapsed : s.store.keys.session jti = none ∨ score ≤ s.now

/-- A session that is over stays over as long as nothing writes it. -/
theorem Ended.store {f jti : String} {score : Nat}
    (h : Ended s f jti score) {st : TimedStore}
    (hsession : s.store.keys.session jti = none →
      st.keys.session jti = none) :
    Ended { s with store := st } f jti score where
  claims := h.claims
  lapsed := h.lapsed.imp_left hsession

/-- A rotation does not bring back a session that has ended, if it is refused
where it would write it. -/
theorem Ended.evaluate {f jti : String} {score : Nat}
    (h : Ended s f jti score) {i : Rotation}
    (hrefuses : jti = i.session.jti →
      (s.store.rotate cfg.ttls s.now i).2 = s.store.collect s.now) :
    Ended (s.evaluate cfg i) f jti score where
  claims := h.claims
  lapsed := h.lapsed.imp_left fun hnone =>
    rotate_session_none cfg.ttls s.now s.store i hnone hrefuses

/-- Nobody draws a session that is out. -/
theorem Ended.sign {f jti : String} {score : Nat} (h : Ended s f jti score)
    {u : Uuid} {session : SessionCredentials} {expiresAt : Nat}
    (hdraws : s.Draws u session expiresAt) :
    jti ≠ session.jti ∧ Ended (s.sign session) f jti score := by
  obtain ⟨t, ht, rfl⟩ := h.claims.some_signed
  refine ⟨hdraws.jti t ht, h.claims.sign fun x hx => ?_, h.lapsed⟩
  rw [hdraws.token_jti]
  exact hdraws.jti x hx

/-- A session that a fenced family had recorded does not come back. New
sessions have new identifiers, and no script writes one for a family that is
fenced. -/
theorem step_ended {f jti : String} {score : Nat} (h : Ended s f jti score)
    (hs : Traced cfg l s) (hrecorded : Recorded s)
    (hfenced : Fenced s.hashes f s.store) (e : FamilyEvent) :
    Ended (s.step cfg e) f jti score := by
  cases e with
  | tick seconds =>
      exact ⟨h.claims, h.lapsed.imp_right fun hle => hle.trans
        (Nat.le_add_right _ _)⟩
  | issue userId session =>
      dsimp only [step]
      split
      · next hguard =>
          obtain ⟨hne, hsigned⟩ := h.sign hguard.1
          refine hsigned.store fun hnone => ?_
          change Function.update (s.store.collect s.now).keys.session
            session.jti (some userId) jti = none
          rw [Function.update_of_ne hne]
          exact collect_session_none s.now s.store hnone
      · exact h
  | lookup refreshHash =>
      dsimp only [step]
      split
      · exact h
      · exact ⟨h.claims, h.lapsed⟩
  | rotate i =>
      dsimp only [step]
      split
      · next hprepares =>
          obtain ⟨hne, hsigned⟩ := h.sign hprepares.draws
          have hnext : Ended ({ s.sign i.session with
              rotations := s.rotations ++ [i] } : FamilySystem) f jti score :=
            ⟨hsigned.claims, hsigned.lapsed⟩
          exact hnext.evaluate fun heq => absurd heq hne
      · exact h
  | retry n =>
      dsimp only [step]
      split
      · exact h
      · next i hi =>
          have hmem := List.mem_of_getElem? hi
          have hclaimed := hrecorded.rotations i hmem
          -- a rotation that has drawn the session is one of the family
          refine h.evaluate fun heq => ?_
          have hif : i.familyId = f := h.claims.family _ hclaimed.token_signed
            (hclaimed.token_jti.trans heq.symm) _ hclaimed.token_familyId
          exact (hfenced.refuses cfg.ttls s.now hif
            (hs.rotations i hmem).familyId).2
  | logout accessToken refreshHash =>
      obtain ⟨hrevokes, -⟩ := revokePresented_revokes hs.indexed.collect
        (identity_signed hs accessToken) refreshHash
      exact h.store fun hnone => hrevokes.empties.session jti
        (collect_session_none s.now s.store hnone)
  | revokeAll userId =>
      refine h.store fun hnone => ?_
      change (if jti ∈ _ then none
        else (s.store.collect s.now).keys.session jti) = none
      split
      · rfl
      · exact collect_session_none s.now s.store hnone

/-- What a family has recorded is its own in every run. -/
theorem run_recorded (hs : ∃ l, Traced cfg l s) (h : Recorded s)
    (events : List FamilyEvent) : Recorded (run (step cfg) s events) := by
  have hkeeps : ∀ s e, (∃ l, Traced cfg l s) ∧ Recorded s →
      (∃ l, Traced cfg l (s.step cfg e)) ∧ Recorded (s.step cfg e) := by
    intro s e hs
    obtain ⟨⟨l, hs⟩, h⟩ := hs
    obtain ⟨l', hs', -⟩ := step_traced hs e
    exact ⟨⟨l', hs'⟩, step_recorded h hs e⟩
  exact (run_keeps hkeeps ⟨hs, h⟩ events).2

/-- A session that has ended in a fenced family never begins again. -/
theorem run_ended {f jti : String} {score : Nat}
    (hs : ∃ l, Traced cfg l s) (hrecorded : Recorded s)
    (hfenced : Fenced s.hashes f s.store) (h : Ended s f jti score)
    (events : List FamilyEvent) :
    Ended (run (step cfg) s events) f jti score := by
  have hkeeps : ∀ s e,
      ((∃ l, Traced cfg l s) ∧ Recorded s) ∧ Fenced s.hashes f s.store
        ∧ Ended s f jti score →
      ((∃ l, Traced cfg l (s.step cfg e)) ∧ Recorded (s.step cfg e))
        ∧ Fenced (s.step cfg e).hashes f (s.step cfg e).store
        ∧ Ended (s.step cfg e) f jti score := by
    intro s e hs
    obtain ⟨⟨⟨l, hs⟩, hrecorded⟩, hfenced, h⟩ := hs
    obtain ⟨l', hs', hstays⟩ := step_traced hs e
    exact ⟨⟨⟨l', hs'⟩, step_recorded hrecorded hs e⟩, hstays f hfenced,
      step_ended h hs hrecorded hfenced e⟩
  exact (run_keeps hkeeps ⟨⟨hs, hrecorded⟩, hfenced, h⟩ events).2.2

-- ================================================================= results

/-- The families that presented credentials name: the one of an access
token that lasts, the one of a refresh token, or the one that the refresh
token was replaced in a moment ago. -/
inductive Presents (s : FamilySystem) (accessToken : Option AccessToken)
    (refreshHash : Option String) : String → Prop where
  | access {t : AccessToken} {f : String} (h : accessToken = some t)
      (signed : t ∈ s.signed) (unexpired : s.now < t.expiresAt)
      (family : t.familyId = some f) : Presents s accessToken refreshHash f
  | refresh {hash : String} {r : RefreshRecord} (h : refreshHash = some hash)
      (stored : s.current.refresh hash = some r) :
      Presents s accessToken refreshHash (r.familyId.getD hash)
  | replaced {hash f : String} (h : refreshHash = some hash)
      (moved : s.current.familyFor hash = some f) :
      Presents s accessToken refreshHash f

/-- No access token of the family is accepted, no refresh token of it is
stored, and no rotation of it returns a session. A token from before the
families may be left of the family that it has become, under the fence. -/
structure Dead (cfg : SessionConfig) (s : FamilySystem) (f : String) :
    Prop where
  access : ∀ t, t.familyId = some f → s.current.isSessionRevoked t = true
  stored : ∀ hash r, s.current.refresh hash = some r →
    r.familyId.getD hash = f →
    r.familyId = none ∧ ∃ u, s.current.family f = some ⟨false, u⟩
  refresh : ∀ i : Rotation, i.familyId = f →
    i.familyId = i.expectedRefreshRecord.familyId.getD i.oldRefreshHash →
    (s.store.rotate cfg.ttls s.now i).1 ≠ .committed

/-- A fenced family has no credential that is accepted. -/
theorem dead_of_fenced {f : String} (h : Fenced s.hashes f s.store) :
    s.Dead cfg f where
  access t ht := by
    unfold SessionStore.isSessionRevoked
    rw [ht]
    have hfamily : s.current.family f ≠ some ⟨true, t.userId⟩ := by
      intro hx
      have hinactive := (h.collect s.now).fence _ hx
      cases hinactive
    simp [hfamily]
  stored hash r hr hf := by
    have hc := h.collect s.now
    have hnone : r.familyId = none := by
      cases hg : r.familyId with
      | none => rfl
      | some g =>
          rw [hg] at hf
          obtain rfl : g = f := hf
          exact absurd hg (hc.refresh hash r hr)
    rw [hnone] at hf
    obtain rfl : hash = f := hf
    obtain ⟨hsome, -⟩ := hc.legacy r hr hnone
    obtain ⟨⟨active, u⟩, hx⟩ := Option.isSome_iff_exists.mp hsome
    obtain rfl : active = false := hc.fence _ hx
    exact ⟨hnone, u, hx⟩
  refresh i hi hfamily := (h.refuses cfg.ttls s.now hi hfamily).1

/-- The script of a logout revokes the families that are presented. -/
theorem presents_revoked (hs : Traced cfg l s)
    {accessToken : Option AccessToken} {refreshHash : Option String}
    {f : String} (h : s.Presents accessToken refreshHash f) :
    f ∈ (s.revocation cfg accessToken refreshHash).revokedFamilyIds := by
  obtain ⟨-, hrevoked⟩ := revokePresented_revokes hs.indexed.collect
    (identity_signed hs accessToken) refreshHash
  apply hrevoked
  cases h with
  | @access t _ h signed unexpired family =>
      left
      refine ⟨⟨t.userId, t.jti, t.familyId, decide (s.now < t.expiresAt)⟩, ?_,
        decide_eq_true unexpired, family⟩
      rw [h]
      simp [parseAccessSessionForLogout, signed]
  | refresh h stored => exact Or.inr ⟨_, h, Or.inl ⟨_, stored, rfl⟩⟩
  | replaced h moved => exact Or.inr ⟨_, h, Or.inr moved⟩

/-- A logout fences the families it presents a credential of. -/
theorem presents_fenced (hs : Traced cfg l s) {accessToken : Option AccessToken}
    {refreshHash : Option String} {f : String}
    (h : s.Presents accessToken refreshHash f) :
    Fenced (s.step cfg (.logout accessToken refreshHash)).hashes f
      (s.step cfg (.logout accessToken refreshHash)).store := by
  obtain ⟨hrevokes, -⟩ := revokePresented_revokes hs.indexed.collect
    (identity_signed hs accessToken) refreshHash
  exact hrevokes.fenced f (presents_revoked hs h)

/-- The family has the session in its record. -/
def Holding (s : FamilySystem) (f jti : String) : Prop :=
  ∃ score, (jti, score) ∈ s.current.familySessions f

/-- The middleware's checks of an access token, the account's apart. -/
structure Accepts (s : FamilySystem) (t : AccessToken) : Prop where
  signed : t ∈ s.signed
  unexpired : s.now < t.expiresAt
  unrevoked : s.current.isSessionRevoked t = false

/-- No access token of a session that has ended is accepted. -/
theorem Ended.rejects {f jti : String} {score : Nat}
    (h : Ended s f jti score) {t : AccessToken} (ht : t.jti = jti) :
    ¬ s.Accepts t := by
  rintro ⟨hsigned, hunexpired, hunrevoked⟩
  rcases h.lapsed with hnone | hscore
  · have hgone : s.current.session t.jti = none := by
      rw [ht]
      exact collect_session_none s.now s.store hnone
    simp [SessionStore.isSessionRevoked, hgone] at hunrevoked
  · have hexpires := h.claims.expiresAt t hsigned ht
    omega

/-- A logout ends the sessions that a presented family has recorded. -/
theorem logout_ended (hs : Traced cfg l s) (hrecorded : Recorded s)
    {accessToken : Option AccessToken} {refreshHash : Option String}
    {f jti : String} (h : s.Presents accessToken refreshHash f) {score : Nat}
    (hjti : (jti, score) ∈ s.current.familySessions f) :
    Ended (s.step cfg (.logout accessToken refreshHash)) f jti score where
  claims := hrecorded.sessions f _
    (of_mem_collect_familySessions s.now s.store hjti)
  lapsed := by
    by_cases hscore : s.now ≤ score
    · left
      obtain ⟨hrevokes, -⟩ := revokePresented_revokes hs.indexed.collect
        (identity_signed hs accessToken) refreshHash
      rcases hrevokes.empties.ended f (presents_revoked hs h) with
        hnone | hended
      · cases hnone
      · apply hended jti
        exact List.mem_map.mpr ⟨(jti, score), List.mem_filter.mpr
          ⟨hjti, decide_eq_true hscore⟩, rfl⟩
    · exact Or.inr (Nat.le_of_not_le hscore)

/-- At the opening no family has recorded a session. -/
theorem opening_recorded (o : Rollout cfg.ttls) :
    Recorded (opening cfg o) where
  sessions _ _ hx := absurd hx List.not_mem_nil
  rotations _ hi := absurd hi List.not_mem_nil

/-- Whatever happened before and happens after it, in any interleaving
with refreshes on their way, a logout is the end of every family that the
presented credentials name, and of the sessions that the family had
recorded. -/
theorem logout_final (cfg : SessionConfig) (o : Rollout cfg.ttls)
    (before after : List FamilyEvent) (accessToken : Option AccessToken)
    (refreshHash : Option String) (f : String)
    (h : (run (step cfg) (opening cfg o) before).Presents accessToken
      refreshHash f) :
    (run (step cfg) (opening cfg o)
        (before ++ .logout accessToken refreshHash :: after)).Dead cfg f
      ∧ ∀ t : AccessToken,
        (run (step cfg) (opening cfg o) before).Holding f t.jti →
        ¬ (run (step cfg) (opening cfg o)
          (before ++ .logout accessToken refreshHash :: after)).Accepts t := by
  have htraced := run_traced (opening_traced o) before
  have hrecorded := run_recorded (opening_traced o) (opening_recorded o) before
  obtain ⟨l, hs⟩ := htraced
  obtain ⟨l', hs', -⟩ := step_traced hs (.logout accessToken refreshHash)
  have hfenced := presents_fenced hs h
  rw [run_append, run_cons]
  refine ⟨dead_of_fenced (run_fenced ⟨l', hs'⟩ hfenced after),
    fun t ht => ?_⟩
  obtain ⟨score, hscore⟩ := ht
  have hended := run_ended ⟨l', hs'⟩ (step_recorded hrecorded hs _) hfenced
    (logout_ended hs hrecorded h hscore) after
  exact hended.rejects rfl

/-- The user has a family with which one may act or refresh. -/
inductive Holds (s : FamilySystem) (userId : Uuid) (f : String) : Prop where
  | active (h : s.current.family f = some ⟨true, userId⟩)
  | refresh {hash : String} {r : RefreshRecord}
      (stored : s.current.refresh hash = some r) (user : r.userId = userId)
      (family : r.familyId = some f)

/-- The revocation of all sessions of a user ends every family that the user
has, for good: no later refresh returns credentials of it, and no access
token that belongs to it is accepted, in any run that follows. -/
theorem revokeAll_final (cfg : SessionConfig) (o : Rollout cfg.ttls)
    (before after : List FamilyEvent) (userId : Uuid) (f : String)
    (h : (run (step cfg) (opening cfg o) before).Holds userId f) :
    (run (step cfg) (opening cfg o)
      (before ++ .revokeAll userId :: after)).Dead cfg f := by
  have htraced := run_traced (opening_traced o) before
  obtain ⟨l, hs⟩ := htraced
  obtain ⟨l', hs', -⟩ := step_traced hs (.revokeAll userId)
  have hc := hs.indexed.collect
  have hmem : f ∈ ((run (step cfg) (opening cfg o) before).store.collect
      (run (step cfg) (opening cfg o) before).now).keys.userFamilies userId := by
    cases h with
    | active h => exact ((hc.family f _ h).2.2.listed rfl).1
    | refresh stored user family =>
        subst user
        exact (hc.listed _ _ f stored family).userFamilies
  rw [run_append, run_cons]
  exact dead_of_fenced (run_fenced ⟨l', hs'⟩ (revokeAll_fenced hc hmem) after)

-- --------------------------------------------------------------- an instance

/-- A login of a user, with the refresh token `h`. -/
def signedIn : SessionCredentials where
  accessToken := ⟨⟨1⟩, .user, "j", some 1, some "h", 900⟩
  refreshToken := "t"
  csrfToken := "c"
  jti := "j"
  sessionVersion := 1
  familyId := "h"
  refreshHash := "h"

/-- Access for fifteen units, refresh for ninety, and rotation switched
on. -/
def defaultConfig : SessionConfig where
  ttls := ⟨15, 90, by decide, by decide⟩
  refreshRotationEnabled := true

/-- A rollout that finds nothing in the store. -/
def emptyRollout : Rollout defaultConfig.ttls where
  now := 0
  session := fun _ => none
  refresh := fun _ => none
  userSessions := fun _ => []
  userRefresh := fun _ => []
  deadline := {
    session := fun _ => 0
    sessionRevoked := fun _ => 0
    refresh := fun _ => 0
    family := fun _ => 0
    familyFor := fun _ => 0
    familySessions := fun _ => 0
    familyTokens := fun _ => 0
    sessionFamily := fun _ => 0
    userSessions := fun _ => 0
    userRefresh := fun _ => 0
    userFamilies := fun _ => 0
    rotationReceipt := fun _ => 0
    logoutReceipt := fun _ => 0 }
  signed := []
  hashes := []
  signed_familyId := fun _ ht => absurd ht List.not_mem_nil
  mem_hashes := nofun
  deadline_le := fun _ => Nat.zero_le _

/-- An access token from before the families. -/
def oldToken : AccessToken := ⟨⟨1⟩, .user, "old", none, none, 600⟩

/-- A user who was signed in when the families were introduced. -/
def oldRollout : Rollout defaultConfig.ttls :=
  { emptyRollout with
    session := fun jti => if jti = "old" then some ⟨1⟩ else none
    refresh := fun hash => if hash = "h" then some (⟨1⟩, 1) else none
    deadline := { emptyRollout.deadline with
      session := fun _ => 900
      refresh := fun _ => 900 }
    signed := [oldToken]
    hashes := ["h"]
    signed_familyId := by
      intro t ht
      rw [List.mem_singleton.mp ht]
      rfl
    mem_hashes := by
      intro hash x hx
      obtain ⟨rfl, -⟩ := Option.ite_none_right_eq_some.mp hx
      exact List.mem_cons_self
    deadline_le := by
      have hle : 900 ≤ 0 + defaultConfig.ttls.refresh := by decide
      exact fun _ => hle }

/-- The user's first refresh, which takes the old session over. -/
def takesOver : Rotation where
  userId := ⟨1⟩
  familyId := "h"
  oldRefreshHash := "h"
  expectedRefreshRecord := ⟨⟨1⟩, 1, none⟩
  session := { signedIn with refreshHash := "h2" }
  now := 0
  sessionExpiresAt := 900
  rotationEnabled := true
  previousSessionId := some "old"

/-- An old token is taken over, logged out with the new one, and the family
is dead ever after. -/
theorem logout_final_takenOver :
    (run (step defaultConfig) (opening defaultConfig oldRollout)
        ([.lookup "h", .rotate takesOver]
          ++ .logout none (some "h2") :: [.retry 0, .tick 5])).Dead
        defaultConfig "h"
      ∧ ¬ (run (step defaultConfig) (opening defaultConfig oldRollout)
        ([.lookup "h", .rotate takesOver]
          ++ .logout none (some "h2") :: [.retry 0, .tick 5])).Accepts
        oldToken := by
  have hrotated : (run (step defaultConfig) (opening defaultConfig oldRollout)
      [.lookup "h", .rotate takesOver]).current.refresh "h2"
        = some ⟨⟨1⟩, 1, some "h"⟩ := by rfl
  obtain ⟨hdead, hrejects⟩ := logout_final defaultConfig oldRollout
    [.lookup "h", .rotate takesOver] [.retry 0, .tick 5] none (some "h2") "h"
    (.refresh rfl hrotated)
  exact ⟨hdead, hrejects oldToken ⟨900, by decide⟩⟩

/-- After all sessions of a user were revoked, the family that was signed in
is dead. -/
theorem revokeAll_final_signedIn :
    (run (step defaultConfig) (opening defaultConfig emptyRollout)
      ([.issue ⟨1⟩ signedIn] ++ .revokeAll ⟨1⟩ :: [.tick 5])).Dead
        defaultConfig "h" :=
  revokeAll_final defaultConfig emptyRollout [.issue ⟨1⟩ signedIn] [.tick 5]
    ⟨1⟩ "h" (.active (by rfl))

end FamilySystem

end Skrynia
