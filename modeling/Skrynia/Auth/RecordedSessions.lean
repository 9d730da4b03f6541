/-
The access sessions that a family has recorded.

# What a record is good for

A family has the session of every access token that was signed for it, and
those from before the families that a rotation has taken over, each with a
score that no token of the session outlives (`Claims`). A script that
fences the family deletes the sessions that may still last (`Empties`);
the tokens of the others have expired by then.

# Once deleted

A session is written by the request that has drawn it, and by a rotation
that is evaluated again. The first does not draw what is signed, and the
second belongs to the family that has the record: a fence is in its way
(`Ended`).
-/
import Skrynia.Auth.FamilyFence

namespace Skrynia

open Expiring Stepping

-- ============================================================== signatures

/-- Whose a session is: there are tokens of it, none of them of another
family than `f`, and none of them lasts longer than the score. -/
structure Claims (signed : List AccessToken) (jti f : String) (score : Nat) :
    Prop where
  some_signed : ∃ t ∈ signed, t.jti = jti
  family : ∀ t ∈ signed, t.jti = jti → ∀ g ∈ t.familyId, g = f
  expiresAt : ∀ t ∈ signed, t.jti = jti → t.expiresAt ≤ score

namespace Claims

variable {signed : List AccessToken} {jti f : String} {score : Nat}

/-- A token of a new session changes nothing about the others. -/
theorem sign (h : Claims signed jti f score) {t : AccessToken}
    (hnew : ∀ x ∈ signed, x.jti ≠ t.jti) :
    Claims (signed ++ [t]) jti f score := by
  have hold : ∀ x ∈ signed ++ [t], x.jti = jti → x ∈ signed := by
    intro x hx hjti
    rcases List.mem_append.mp hx with hx | hx
    · exact hx
    · obtain ⟨y, hy, hyj⟩ := h.some_signed
      rw [List.mem_singleton.mp hx] at hjti
      exact absurd (hyj.trans hjti.symm) (hnew y hy)
  constructor
  · obtain ⟨y, hy, hyj⟩ := h.some_signed
    exact ⟨y, List.mem_append_left _ hy, hyj⟩
  · exact fun x hx hjti => h.family x (hold x hx hjti) hjti
  · exact fun x hx hjti => h.expiresAt x (hold x hx hjti) hjti

/-- The session of a token that is drawn now. -/
theorem of_draws {s : FamilySystem} {u : Uuid} {session : SessionCredentials}
    {expiresAt : Nat} (h : s.Draws u session expiresAt) :
    Claims (s.sign session).signed session.jti session.familyId expiresAt := by
  have honly : ∀ t ∈ (s.sign session).signed, t.jti = session.jti →
      t = session.accessToken := by
    intro t ht hjti
    rcases List.mem_append.mp ht with ht | ht
    · exact absurd hjti (h.jti t ht)
    · exact List.mem_singleton.mp ht
  constructor
  · exact ⟨_, List.mem_append_right _ List.mem_cons_self, h.token_jti⟩
  · intro t ht hjti g hg
    rw [honly t ht hjti, h.token_familyId] at hg
    exact (Option.some.inj hg).symm
  · intro t ht hjti
    rw [honly t ht hjti]
    exact h.token_expiresAt

end Claims

-- ============================================================= the scripts

section Sessions

variable (st : SessionStore) (i : Rotation)

/-- The bridge touches no session. -/
@[simp] theorem SessionStore.bridged_session :
    (st.bridged i).session = st.session := by
  unfold SessionStore.bridged
  split <;> rfl

/-- Nor does using up the old token. -/
@[simp] theorem SessionStore.usedUp_session :
    (st.usedUp i).session = st.session := by
  unfold SessionStore.usedUp
  split <;> rfl

/-- Nor does that touch the sets of families. -/
@[simp] theorem SessionStore.usedUp_familySessions :
    (st.usedUp i).familySessions = st.familySessions := by
  unfold SessionStore.usedUp
  split <;> rfl

/-- Of the sessions, a rotation writes the one that it has drawn. -/
@[simp] theorem SessionStore.renewed_session : (st.renewed i).session
    = Function.update st.session i.session.jti (some i.userId) := by
  change (SessionStore.usedUp _ i).session = _
  rw [usedUp_session, bridged_session]
  rfl

/-- A member of the set was there or is the one that was added. -/
theorem of_mem_zadd {set : List (String × Nat)} {member : String}
    {score : Nat} {x : String × Nat} (h : x ∈ zadd set member score) :
    x ∈ set ∨ x = (member, score) := by
  rcases List.mem_append.mp h with h | h
  · exact Or.inl (List.mem_of_mem_filter h)
  · exact Or.inr (List.mem_singleton.mp h)

/-- What a set of sessions has got, where one of the sets got a member. -/
theorem of_mem_update_zadd {sets : String → List (String × Nat)}
    {f g member : String} {score : Nat} {x : String × Nat}
    (h : x ∈ Function.update sets f (zadd (sets f) member score) g) :
    x ∈ sets g ∨ g = f ∧ x = (member, score) := by
  by_cases hg : g = f
  · subst hg
    rw [Function.update_self] at h
    exact (of_mem_zadd h).imp_right fun hx => ⟨rfl, hx⟩
  · rw [Function.update_of_ne hg] at h
    exact Or.inl h

/-- The bridge records only in the family of the rotation. -/
theorem SessionStore.of_mem_bridged_familySessions {g : String}
    {x : String × Nat} (h : x ∈ (st.bridged i).familySessions g) :
    x ∈ st.familySessions g
      ∨ g = i.familyId ∧ ∃ jti ∈ i.previousSessionId,
        x = (jti, i.sessionExpiresAt) := by
  unfold SessionStore.bridged at h
  split at h
  · exact Or.inl h
  · next jti hprevious =>
      rcases of_mem_update_zadd h with h | ⟨hg, hx⟩
      · exact Or.inl h
      · exact Or.inr ⟨hg, jti, hprevious, hx⟩

/-- A session that a rotation records: the one it has drawn, or the one of
the presented token. -/
def Rotation.Records (jti : String) : Prop :=
  jti = i.session.jti ∨ jti ∈ i.previousSessionId

/-- So does the new session. -/
theorem SessionStore.of_mem_renewed_familySessions
    (hfamily : i.session.familyId = i.familyId) {g : String}
    {x : String × Nat} (h : x ∈ (st.renewed i).familySessions g) :
    x ∈ st.familySessions g
      ∨ g = i.familyId ∧ x.2 = i.sessionExpiresAt ∧ i.Records x.1 := by
  change x ∈ (SessionStore.usedUp _ i).familySessions g at h
  rw [usedUp_familySessions] at h
  rcases of_mem_bridged_familySessions _ _ h with h | ⟨hg, jti, hjti, rfl⟩
  · rcases of_mem_update_zadd h with h | ⟨hg, rfl⟩
    · exact Or.inl h
    · exact Or.inr ⟨hg.trans hfamily, rfl, Or.inl rfl⟩
  · exact Or.inr ⟨hg, rfl, Or.inr hjti⟩

/-- The sessions that are over leave the record, and no other comes. -/
theorem SessionStore.of_mem_pruned_familySessions {g : String}
    {x : String × Nat} (h : x ∈ (st.pruned i).familySessions g) :
    x ∈ st.familySessions g := by
  change x ∈ Function.update st.familySessions i.familyId _ g at h
  by_cases hg : g = i.familyId
  · subst hg
    rw [Function.update_self] at h
    exact List.mem_of_mem_filter h
  · rw [Function.update_of_ne hg] at h
    exact h

end Sessions

section

variable (ttls : SessionTtls) (now : Nat) (st : TimedStore) (i : Rotation)

/-- Expiry adds no member. -/
theorem of_mem_collect_familySessions {f : String} {x : String × Nat}
    (h : x ∈ (st.collect now).keys.familySessions f) :
    x ∈ st.keys.familySessions f :=
  (mem_left.mp h).2

/-- Nor a session. -/
theorem collect_session_none {jti : String}
    (h : st.keys.session jti = none) :
    (st.collect now).keys.session jti = none := by
  change left none now st.deadline.session st.keys.session jti = none
  unfold left
  split
  · exact h
  · rfl

/-- What an evaluation of a rotation's script records. -/
theorem rotate_familySessions (hfamily : i.session.familyId = i.familyId)
    {f : String} {x : String × Nat}
    (h : x ∈ (st.rotate ttls now i).2.keys.familySessions f) :
    x ∈ st.keys.familySessions f
      ∨ f = i.familyId ∧ x.2 = i.sessionExpiresAt ∧ i.Records x.1 := by
  have hrotates := rotate_rotates ttls now st i
  generalize st.rotate ttls now i = answer at h hrotates
  cases hrotates with
  | refused => exact Or.inl (of_mem_collect_familySessions now st h)
  | full =>
      exact Or.inl (of_mem_collect_familySessions now st
        (SessionStore.of_mem_pruned_familySessions _ i h))
  | renewed =>
      rcases SessionStore.of_mem_renewed_familySessions _ i hfamily h with
        h | h
      · exact Or.inl (of_mem_collect_familySessions now st
          (SessionStore.of_mem_pruned_familySessions _ i h))
      · exact Or.inr h

/-- The script writes no session but the one that the rotation has drawn,
and that one only if it does not refuse. -/
theorem rotate_session_none {jti : String} (h : st.keys.session jti = none)
    (hne : jti = i.session.jti →
      (st.rotate ttls now i).2 = st.collect now) :
    (st.rotate ttls now i).2.keys.session jti = none := by
  have hcollect := collect_session_none now st h
  by_cases hjti : jti = i.session.jti
  · rw [hne hjti]
    exact hcollect
  · have hrotates := rotate_rotates ttls now st i
    generalize st.rotate ttls now i = answer at hrotates ⊢
    cases hrotates with
    | refused => exact hcollect
    | full => exact hcollect
    | renewed =>
        change (SessionStore.renewed _ i).session jti = none
        rw [SessionStore.renewed_session, Function.update_of_ne hjti]
        exact hcollect

end

-- ================================================================= fencing

/-- From `r` to `r'`, no session comes to be, none is recorded, and a
family that is revoked in between loses the sessions that it had recorded
and that may last. -/
structure Empties (now : Nat) (r r' : Revocation) : Prop where
  session : ∀ jti, r.store.keys.session jti = none →
    r'.store.keys.session jti = none
  recorded : ∀ f, r'.store.keys.familySessions f
    ⊆ r.store.keys.familySessions f
  kept : ∀ f, f ∉ r'.revokedFamilyIds →
    r'.store.keys.familySessions f = r.store.keys.familySessions f
  ended : ∀ f ∈ r'.revokedFamilyIds, f ∈ r.revokedFamilyIds
    ∨ ∀ jti ∈ r.store.liveSessions now f, r'.store.keys.session jti = none

namespace Empties

variable {now : Nat} {r r' r'' : Revocation}

/-- Nothing to empty. -/
theorem refl (r : Revocation) : Empties now r r where
  session _ h := h
  recorded _ := List.Subset.refl _
  kept _ _ := rfl
  ended _ hf := Or.inl hf

/-- One emptying after the other. -/
theorem trans (h : Empties now r r') (h' : Empties now r' r'')
    (hrevoked : r'.revokedFamilyIds ⊆ r''.revokedFamilyIds) :
    Empties now r r'' where
  session jti hjti := h'.session jti (h.session jti hjti)
  recorded f := List.Subset.trans (h'.recorded f) (h.recorded f)
  kept f hf := (h'.kept f hf).trans (h.kept f fun hmem => hf (hrevoked hmem))
  ended f hf := by
    by_cases hmem : f ∈ r'.revokedFamilyIds
    · refine (h.ended f hmem).imp_right fun hended jti hjti => ?_
      exact h'.session jti (hended jti hjti)
    · rcases h'.ended f hf with hf' | hended
      · exact absurd hf' hmem
      · refine Or.inr fun jti hjti => hended jti ?_
        unfold TimedStore.liveSessions at hjti ⊢
        rw [h.kept f hmem]
        exact hjti

/-- The record of no family is touched, and no family revoked. -/
theorem of_familySessions
    (hsession : ∀ jti, r.store.keys.session jti = none →
      r'.store.keys.session jti = none)
    (hrecorded : r'.store.keys.familySessions = r.store.keys.familySessions)
    (hrevoked : r'.revokedFamilyIds = r.revokedFamilyIds) :
    Empties now r r' where
  session := hsession
  recorded f := by
    rw [hrecorded]
    exact List.Subset.refl _
  kept f _ := by rw [hrecorded]
  ended f hf := by
    rw [hrevoked] at hf
    exact Or.inl hf

end Empties

/-- The writes of `revokeFamily`. -/
theorem fence_empties (ttls : SessionTtls) (now : Nat) {r r' : Revocation}
    {f : String} {u : Uuid} (hstore : r'.store = r.store.fence ttls now f u)
    (hrevoked : r'.revokedFamilyIds = r.revokedFamilyIds ++ [f]) :
    Empties now r r' := by
  constructor
  · intro jti hjti
    rw [hstore]
    dsimp only [TimedStore.fence]
    split
    · rfl
    · exact hjti
  · intro g x hx
    rw [hstore] at hx
    change x ∈ Function.update r.store.keys.familySessions f [] g at hx
    by_cases hg : g = f
    · subst hg
      rw [Function.update_self] at hx
      cases hx
    · rw [Function.update_of_ne hg] at hx
      exact hx
  · intro g hg
    rw [hstore]
    refine Function.update_of_ne (fun hgf => hg ?_) _ _
    rw [hrevoked, hgf]
    exact List.mem_append_right _ List.mem_cons_self
  · intro g hg
    rw [hrevoked] at hg
    rcases List.mem_append.mp hg with hg | hg
    · exact Or.inl hg
    · refine Or.inr fun jti hjti => ?_
      rw [List.mem_singleton.mp hg] at hjti
      rw [hstore]
      exact if_pos hjti

end Skrynia
