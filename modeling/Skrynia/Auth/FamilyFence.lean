/-
A logout is final, whatever refresh is on its way.

# What the fence rests on

A logout finds the credentials of a family by the family's own keys, and
those have deadlines too. `Indexed` says that they are enough: the index
of a family has every refresh token of the family for as long as that
token lives, and so have the two indices of its user. Neither the home of
a token nor the user of a family ever changes (`Lineage`); what is new in
a step is drawn in that step.

# Once dead

`Fenced f` is what a logout leaves of a family: no refresh token but
perhaps one from before the families, and that one under a fence that
lasts as long as it does. A rotation of the family is refused in such a
state, and nothing else brings a token of it back, so it stays fenced
when the fence itself has expired (`Fenced.extend`).
-/
import Skrynia.Auth.RefreshFamilies

namespace Skrynia

open Expiring Stepping

/-- The family that a refresh token was drawn for, and the user that a
family was started by. -/
structure Lineage where
  home : String → String
  user : String → Uuid

-- ========================================================== what is stored

namespace SessionStore

variable (st : SessionStore) (i : Rotation) {h f : String} {u : Uuid}
  {r : RefreshRecord}

section Bridged

/-- The bridge from a token of before the families writes family keys only,
and leaves the refresh tokens. -/
@[simp] theorem bridged_refresh : (st.bridged i).refresh = st.refresh := by
  unfold bridged
  split <;> rfl

/-- The bridge keeps the family records. -/
@[simp] theorem bridged_family : (st.bridged i).family = st.family := by
  unfold bridged
  split <;> rfl

/-- And which family a token is of. -/
@[simp] theorem bridged_familyFor :
    (st.bridged i).familyFor = st.familyFor := by
  unfold bridged
  split <;> rfl

/-- It indexes the old token by its user, not by the family. -/
@[simp] theorem bridged_familyTokens :
    (st.bridged i).familyTokens = st.familyTokens := by
  unfold bridged
  split <;> rfl

/-- And the user's tokens. -/
@[simp] theorem bridged_userRefresh :
    (st.bridged i).userRefresh = st.userRefresh := by
  unfold bridged
  split <;> rfl

/-- And the user's families. -/
@[simp] theorem bridged_userFamilies :
    (st.bridged i).userFamilies = st.userFamilies := by
  unfold bridged
  split <;> rfl

end Bridged

/-- A token that is left is not the one that is used up. -/
def Spared (h : String) : Prop :=
  i.rotationEnabled = true → h ≠ i.oldRefreshHash

/-- The old token is gone, and no other one. -/
theorem usedUp_refresh : (st.usedUp i).refresh h = some r
    ↔ st.refresh h = some r ∧ Spared i h := by
  unfold usedUp Spared
  split
  · next henabled =>
      by_cases hh : h = i.oldRefreshHash
      · simp [hh, henabled]
      · simp [hh]
  · next henabled => simp [henabled]

/-- In the family's index the old token alone is removed. -/
theorem mem_usedUp_familyTokens (hmem : h ∈ st.familyTokens f)
    (hspared : Spared i h) : h ∈ (st.usedUp i).familyTokens f := by
  unfold usedUp
  split
  · next henabled => exact mem_update_erase hmem (hspared henabled)
  · exact hmem

/-- Nothing new is in the index then. -/
theorem of_mem_usedUp_familyTokens (hmem : h ∈ (st.usedUp i).familyTokens f) :
    h ∈ st.familyTokens f := by
  unfold usedUp at hmem
  split at hmem
  · exact of_mem_update_erase hmem
  · exact hmem

/-- In the user's index too the old token alone is removed. -/
theorem mem_usedUp_userRefresh (hmem : h ∈ st.userRefresh u)
    (hspared : Spared i h) : h ∈ (st.usedUp i).userRefresh u := by
  unfold usedUp
  split
  · next henabled => exact mem_update_erase hmem (hspared henabled)
  · exact hmem

/-- Using up the old token keeps the family records. -/
@[simp] theorem usedUp_family : (st.usedUp i).family = st.family := by
  unfold usedUp
  split <;> rfl

/-- And which family a token is of. -/
@[simp] theorem usedUp_familyFor :
    (st.usedUp i).familyFor = st.familyFor := by
  unfold usedUp
  split <;> rfl

/-- And the user's families. -/
@[simp] theorem usedUp_userFamilies :
    (st.usedUp i).userFamilies = st.userFamilies := by
  unfold usedUp
  split <;> rfl

/-- A rotation stores the new token and removes the old one. -/
theorem renewed_refresh : (st.renewed i).refresh h = some r
    ↔ Function.update st.refresh i.session.refreshHash
        (some (record i.userId i.session)) h = some r ∧ Spared i h := by
  change (SessionStore.usedUp _ i).refresh h = some r ↔ _
  rw [usedUp_refresh, bridged_refresh]
  rfl

/-- It writes the family of the new session as active. -/
@[simp] theorem renewed_family : (st.renewed i).family
    = Function.update st.family i.session.familyId (some ⟨true, i.userId⟩) := by
  change (SessionStore.usedUp _ i).family = _
  rw [usedUp_family, bridged_family]
  rfl

/-- The old token becomes an alias of its family. -/
@[simp] theorem renewed_familyFor : (st.renewed i).familyFor
    = Function.update st.familyFor i.oldRefreshHash (some i.familyId) := by
  change (SessionStore.usedUp _ i).familyFor = _
  rw [usedUp_familyFor, bridged_familyFor]

/-- The new token's family is recorded with the user. -/
@[simp] theorem renewed_userFamilies : (st.renewed i).userFamilies
    = Function.update st.userFamilies i.userId
        ((st.userFamilies i.userId).insert i.session.familyId) := by
  change (SessionStore.usedUp _ i).userFamilies = _
  rw [usedUp_userFamilies, bridged_userFamilies]
  rfl

/-- The new token joins the family's index, and what was there stays but for
the old one. -/
theorem mem_renewed_familyTokens (hmem : h ∈ Function.update st.familyTokens
      i.session.familyId ((st.familyTokens i.session.familyId).insert
        i.session.refreshHash) f)
    (hspared : Spared i h) : h ∈ (st.renewed i).familyTokens f := by
  change h ∈ (SessionStore.usedUp _ i).familyTokens f
  apply mem_usedUp_familyTokens _ _ _ hspared
  rw [bridged_familyTokens]
  exact hmem

/-- Nothing else joins it. -/
theorem of_mem_renewed_familyTokens
    (hmem : h ∈ (st.renewed i).familyTokens f) :
    h ∈ Function.update st.familyTokens i.session.familyId
      ((st.familyTokens i.session.familyId).insert i.session.refreshHash) f := by
  change h ∈ (SessionStore.usedUp _ i).familyTokens f at hmem
  have hbridged := of_mem_usedUp_familyTokens _ _ hmem
  rw [bridged_familyTokens] at hbridged
  exact hbridged

/-- The user's index gets the new token and keeps the others. -/
theorem mem_renewed_userRefresh (hmem : h ∈ Function.update st.userRefresh
      i.userId ((st.userRefresh i.userId).insert i.session.refreshHash) u)
    (hspared : Spared i h) : h ∈ (st.renewed i).userRefresh u := by
  change h ∈ (SessionStore.usedUp _ i).userRefresh u
  apply mem_usedUp_userRefresh _ _ _ hspared
  rw [bridged_userRefresh]
  exact hmem

end SessionStore

-- ================================================================= indices

/-- The indices have a refresh token for as long as it lives. -/
structure Listed (st : TimedStore) (h : String) (u : Uuid) (f : String) :
    Prop where
  tokens : h ∈ st.keys.familyTokens f
  tokens_deadline : st.deadline.refresh h ≤ st.deadline.familyTokens f
  userRefresh : h ∈ st.keys.userRefresh u
  userRefresh_deadline : st.deadline.refresh h ≤ st.deadline.userRefresh u
  userFamilies : f ∈ st.keys.userFamilies u
  userFamilies_deadline : st.deadline.refresh h ≤ st.deadline.userFamilies u

/-- A family's fence, and where it is found. -/
structure Kept (ttls : SessionTtls) (now : Nat) (st : TimedStore)
    (f : String) (x : FamilyRecord) : Prop where
  deadline : st.deadline.family f ≤ now + ttls.refresh
  listed : x.active = true → f ∈ st.keys.userFamilies x.userId
    ∧ st.deadline.family f ≤ st.deadline.userFamilies x.userId

/-- The keys of a store agree with the lineage, and every refresh token is in
the indices of its family and of its user for as long as it lives. -/
structure Indexed (ttls : SessionTtls) (l : Lineage) (now : Nat)
    (hashes : List String) (st : TimedStore) : Prop where
  refresh : ∀ h r, st.keys.refresh h = some r →
    h ∈ hashes ∧ r.familyId.getD h = l.home h ∧ l.home h ∈ hashes
      ∧ l.user (l.home h) = r.userId
      ∧ st.deadline.refresh h ≤ now + ttls.refresh
  listed : ∀ h r f, st.keys.refresh h = some r → r.familyId = some f →
    Listed st h r.userId f
  families : ∀ u, ∀ f ∈ st.keys.userFamilies u, f ∈ hashes ∧ l.user f = u
  family : ∀ f x, st.keys.family f = some x →
    f ∈ hashes ∧ l.user f = x.userId ∧ Kept ttls now st f x
  familyFor : ∀ h f, st.keys.familyFor h = some f →
    h ∈ hashes ∧ f = l.home h ∧ (st.keys.family f).isSome
      ∧ st.deadline.familyFor h ≤ st.deadline.family f
  tokens : ∀ f, ∀ h ∈ st.keys.familyTokens f, h ∈ hashes ∧ l.home h = f
  receipt : ∀ h x, st.keys.logoutReceipt h = some x →
    h ∈ hashes ∧ x.familyId = l.home h ∧ l.home h ∈ hashes
      ∧ l.user (l.home h) = x.userId

namespace Indexed

variable {ttls : SessionTtls} {l : Lineage} {now : Nat}
  {hashes : List String} {st : TimedStore}

/-- Time passes, and nothing is stored under a longer deadline than
before. -/
theorem later (hst : Indexed ttls l now hashes st) (seconds : Nat) :
    Indexed ttls l (now + seconds) hashes st where
  refresh h r hr := by
    obtain ⟨hmem, hhome, hhomes, huser, hdeadline⟩ := hst.refresh h r hr
    exact ⟨hmem, hhome, hhomes, huser, by omega⟩
  listed := hst.listed
  families := hst.families
  family f x hx := by
    obtain ⟨hmem, huser, hkept⟩ := hst.family f x hx
    refine ⟨hmem, huser, ?_, hkept.listed⟩
    have hdeadline := hkept.deadline
    omega
  familyFor := hst.familyFor
  tokens := hst.tokens
  receipt := hst.receipt

/-- What has expired took nothing with it that a living key needs. -/
theorem collect (hst : Indexed ttls l now hashes st) :
    Indexed ttls l now hashes (st.collect now) where
  refresh h r hr := hst.refresh h r (left_eq_some.mp hr).2
  listed h r f hr hf := by
    obtain ⟨hlt, hr⟩ := left_eq_some.mp hr
    have hlisted := hst.listed h r f hr hf
    constructor
    · exact mem_left.mpr ⟨hlt.trans_le hlisted.tokens_deadline, hlisted.tokens⟩
    · exact hlisted.tokens_deadline
    · exact mem_left.mpr
        ⟨hlt.trans_le hlisted.userRefresh_deadline, hlisted.userRefresh⟩
    · exact hlisted.userRefresh_deadline
    · exact mem_left.mpr
        ⟨hlt.trans_le hlisted.userFamilies_deadline, hlisted.userFamilies⟩
    · exact hlisted.userFamilies_deadline
  families u f hf := hst.families u f (mem_left.mp hf).2
  family f x hx := by
    obtain ⟨hlt, hx⟩ := left_eq_some.mp hx
    obtain ⟨hmem, huser, hkept⟩ := hst.family f x hx
    refine ⟨hmem, huser, hkept.deadline, fun hactive => ?_⟩
    obtain ⟨hlisted, hdeadline⟩ := hkept.listed hactive
    exact ⟨mem_left.mpr ⟨hlt.trans_le hdeadline, hlisted⟩, hdeadline⟩
  familyFor h f hf := by
    obtain ⟨hlt, hf⟩ := left_eq_some.mp hf
    obtain ⟨hmem, hhome, hfamily, hdeadline⟩ := hst.familyFor h f hf
    refine ⟨hmem, hhome, ?_, hdeadline⟩
    change (left none now st.deadline.family st.keys.family f).isSome
    rw [left_of_lt (hlt.trans_le hdeadline)]
    exact hfamily
  tokens f h hh := hst.tokens f h (mem_left.mp hh).2
  receipt h x hx := hst.receipt h x (left_eq_some.mp hx).2

end Indexed

-- ============================================================= new tokens

/-- A token `x` is drawn for the family `f` of a user. -/
def Lineage.draw (l : Lineage) (x f : String) (u : Uuid) : Lineage where
  home := Function.update l.home x f
  user := Function.update l.user x u

/-- Two lineages that say the same of the tokens so far. -/
structure Lineage.Agree (hashes : List String) (l l' : Lineage) : Prop where
  home : ∀ h ∈ hashes, l'.home h = l.home h
  user : ∀ h ∈ hashes, l'.user h = l.user h

/-- Drawing a new token changes the lineage of no token drawn before. -/
theorem Lineage.draw_agree {l : Lineage} {hashes : List String} {x : String}
    (hx : x ∉ hashes) (f : String) (u : Uuid) :
    Lineage.Agree hashes l (l.draw x f u) where
  home _ hh := Function.update_of_ne (ne_of_mem_of_not_mem hh hx) _ _
  user _ hh := Function.update_of_ne (ne_of_mem_of_not_mem hh hx) _ _

/-- From `st` to `st'`, a user's family `f` has got the token `x`, in the
place of those that are not spared; `a` is the token with the alias. -/
structure Extends (ttls : SessionTtls) (now : Nat) (u : Uuid) (f x a : String)
    (spared : String → Prop) (st st' : TimedStore) : Prop where
  refresh : ∀ h r, st'.keys.refresh h = some r → spared h
    ∧ (h = x ∧ r.userId = u ∧ r.familyId = some f
      ∨ h ≠ x ∧ st.keys.refresh h = some r)
  tokens : ∀ h g, spared h → (g = f ∧ h = x ∨ h ∈ st.keys.familyTokens g) →
    h ∈ st'.keys.familyTokens g
  of_tokens : ∀ g, ∀ h ∈ st'.keys.familyTokens g,
    g = f ∧ h = x ∨ h ∈ st.keys.familyTokens g
  userRefresh : ∀ h v, spared h → (v = u ∧ h = x ∨ h ∈ st.keys.userRefresh v) →
    h ∈ st'.keys.userRefresh v
  userFamilies : st'.keys.userFamilies = Function.update st.keys.userFamilies u
    ((st.keys.userFamilies u).insert f)
  family : st'.keys.family
    = Function.update st.keys.family f (some ⟨true, u⟩)
  familyFor : st'.keys.familyFor
    = Function.update st.keys.familyFor a (some f)
  familyFor_deadline : st'.deadline.familyFor
    = Function.update st.deadline.familyFor a
        (now + refreshFamilyAliasTtlSeconds)
  refresh_deadline : st'.deadline.refresh
    = Function.update st.deadline.refresh x (now + ttls.refresh)
  tokens_deadline : st'.deadline.familyTokens
    = Function.update st.deadline.familyTokens f (now + ttls.refresh)
  userRefresh_deadline : st'.deadline.userRefresh
    = Function.update st.deadline.userRefresh u (now + ttls.refresh)
  userFamilies_deadline : st'.deadline.userFamilies
    = Function.update st.deadline.userFamilies u (now + ttls.refresh)
  family_deadline : st'.deadline.family
    = Function.update st.deadline.family f (now + ttls.refresh)
  logoutReceipt : st'.keys.logoutReceipt = st.keys.logoutReceipt

namespace Indexed

variable {ttls : SessionTtls} {l l' : Lineage} {now : Nat}
  {hashes hashes' : List String} {st st' : TimedStore}

/-- More tokens, and a lineage that agrees on the ones so far. -/
theorem mono (hst : Indexed ttls l now hashes st) (hsub : hashes ⊆ hashes')
    (hagree : Lineage.Agree hashes l l') :
    Indexed ttls l' now hashes' st where
  refresh h r hr := by
    obtain ⟨hmem, hhome, hhomes, huser, hdeadline⟩ := hst.refresh h r hr
    have hh : l'.home h = l.home h := hagree.home h hmem
    refine ⟨hsub hmem, ?_, ?_, ?_, hdeadline⟩
    · rw [hh]
      exact hhome
    · rw [hh]
      exact hsub hhomes
    · rw [hh, hagree.user _ hhomes]
      exact huser
  listed := hst.listed
  families u f hf := by
    obtain ⟨hmem, huser⟩ := hst.families u f hf
    refine ⟨hsub hmem, ?_⟩
    rw [hagree.user f hmem]
    exact huser
  family f x hx := by
    obtain ⟨hmem, huser, hkept⟩ := hst.family f x hx
    refine ⟨hsub hmem, ?_, hkept⟩
    rw [hagree.user f hmem]
    exact huser
  familyFor h f hf := by
    obtain ⟨hmem, hhome, hfamily, hdeadline⟩ := hst.familyFor h f hf
    refine ⟨hsub hmem, ?_, hfamily, hdeadline⟩
    rw [hagree.home h hmem]
    exact hhome
  tokens f h hh := by
    obtain ⟨hmem, hhome⟩ := hst.tokens f h hh
    refine ⟨hsub hmem, ?_⟩
    rw [hagree.home h hmem]
    exact hhome
  receipt h x hx := by
    obtain ⟨hmem, hhome, hhomes, huser⟩ := hst.receipt h x hx
    rw [hagree.home h hmem, hagree.user _ hhomes]
    exact ⟨hsub hmem, hhome, hsub hhomes, huser⟩

/-- A deadline that is renewed is not an earlier one. -/
theorem le_renewed {κ : Type*} [DecidableEq κ] {d : κ → Nat} {k j : κ}
    {b t : Nat} (hb : b ≤ d k) (ht : b ≤ t) : b ≤ Function.update d j t k := by
  by_cases hk : k = j
  · subst hk
    rw [Function.update_self]
    exact ht
  · rw [Function.update_of_ne hk]
    exact hb

/-- An alias lives no longer than a refresh token. -/
theorem refreshFamilyAlias_le (ttls : SessionTtls) :
    refreshFamilyAliasTtlSeconds ≤ ttls.refresh := by
  have hdays := ttls.one_le_refresh
  unfold refreshFamilyAliasTtlSeconds SessionTtls.refresh
  omega

/-- A store that is extended by one token of a known family is indexed
again. -/
theorem extend (hst : Indexed ttls l now hashes st) {u : Uuid}
    {f x a : String} {spared : String → Prop}
    (h : Extends ttls now u f x a spared st st') (hx : x ∈ hashes)
    (hxf : l.home x = f) (ha : a ∈ hashes) (haf : l.home a = f)
    (hf : f ∈ hashes) (hu : l.user f = u) :
    Indexed ttls l now hashes st' := by
  have hlater : ∀ y r, y ≠ x → st.keys.refresh y = some r →
      st'.deadline.refresh y = st.deadline.refresh y
        ∧ st.deadline.refresh y ≤ now + ttls.refresh := by
    intro y r hy hr
    rw [h.refresh_deadline, Function.update_of_ne hy]
    obtain ⟨-, -, -, -, hdeadline⟩ := hst.refresh y r hr
    exact ⟨rfl, hdeadline⟩
  have hnew : st'.deadline.refresh x = now + ttls.refresh := by
    rw [h.refresh_deadline, Function.update_self]
  constructor
  · intro y r hr
    obtain ⟨-, ⟨rfl, rfl, hrf⟩ | ⟨hy, hr⟩⟩ := h.refresh y r hr
    · refine ⟨hx, ?_, ?_, ?_, Nat.le_of_eq hnew⟩
      · rw [hrf, hxf]
        rfl
      · rw [hxf]
        exact hf
      · rw [hxf]
        exact hu
    · obtain ⟨hmem, hhome, hhomes, huser, -⟩ := hst.refresh y r hr
      obtain ⟨heq, hle⟩ := hlater y r hy hr
      refine ⟨hmem, hhome, hhomes, huser, ?_⟩
      rw [heq]
      exact hle
  · intro y r g hr hg
    obtain ⟨hspared, ⟨rfl, rfl, hrf⟩ | ⟨hy, hr⟩⟩ := h.refresh y r hr
    · obtain rfl : f = g := Option.some.inj (hrf.symm.trans hg)
      constructor
      · exact h.tokens y f hspared (Or.inl ⟨rfl, rfl⟩)
      · rw [hnew, h.tokens_deadline, Function.update_self]
      · exact h.userRefresh y r.userId hspared (Or.inl ⟨rfl, rfl⟩)
      · rw [hnew, h.userRefresh_deadline, Function.update_self]
      · rw [h.userFamilies]
        exact mem_update_insert_self
      · rw [hnew, h.userFamilies_deadline, Function.update_self]
    · obtain ⟨heq, hle⟩ := hlater y r hy hr
      have hlisted := hst.listed y r g hr hg
      constructor
      · exact h.tokens y g hspared (Or.inr hlisted.tokens)
      · rw [heq, h.tokens_deadline]
        exact le_renewed hlisted.tokens_deadline hle
      · exact h.userRefresh y r.userId hspared (Or.inr hlisted.userRefresh)
      · rw [heq, h.userRefresh_deadline]
        exact le_renewed hlisted.userRefresh_deadline hle
      · rw [h.userFamilies]
        exact mem_update_insert hlisted.userFamilies
      · rw [heq, h.userFamilies_deadline]
        exact le_renewed hlisted.userFamilies_deadline hle
  · intro v g hg
    rw [h.userFamilies] at hg
    rcases of_mem_update_insert hg with ⟨rfl, rfl⟩ | hg
    · exact ⟨hf, hu⟩
    · exact hst.families v g hg
  · intro g y hy
    rw [h.family] at hy
    rcases update_cases hy with ⟨rfl, hfresh⟩ | ⟨hg, hy⟩
    · obtain rfl := Option.some.inj hfresh
      refine ⟨hf, hu, ?_, fun _ => ⟨?_, ?_⟩⟩
      · rw [h.family_deadline, Function.update_self]
      · rw [h.userFamilies]
        exact mem_update_insert_self
      · rw [h.family_deadline, Function.update_self, h.userFamilies_deadline,
          Function.update_self]
    · obtain ⟨hmem, huser, hkept⟩ := hst.family g y hy
      refine ⟨hmem, huser, ?_, fun hactive => ?_⟩
      · rw [h.family_deadline, Function.update_of_ne hg]
        exact hkept.deadline
      · obtain ⟨hlisted, hdeadline⟩ := hkept.listed hactive
        refine ⟨?_, ?_⟩
        · rw [h.userFamilies]
          exact mem_update_insert hlisted
        · rw [h.family_deadline, Function.update_of_ne hg,
            h.userFamilies_deadline]
          exact le_renewed hdeadline hkept.deadline
  · intro b g hb
    rw [h.familyFor] at hb
    rw [h.familyFor_deadline, h.family_deadline, h.family]
    rcases update_cases hb with ⟨rfl, hfresh⟩ | ⟨hba, hb⟩
    · obtain rfl := Option.some.inj hfresh
      have hle := refreshFamilyAlias_le ttls
      rw [Function.update_self, Function.update_self, Function.update_self]
      exact ⟨ha, haf.symm, rfl, by omega⟩
    · obtain ⟨hmem, hhome, hg, hle⟩ := hst.familyFor b g hb
      obtain ⟨y, hy⟩ := Option.isSome_iff_exists.mp hg
      obtain ⟨-, -, hkept⟩ := hst.family g y hy
      rw [Function.update_of_ne hba]
      refine ⟨hmem, hhome, ?_, le_renewed hle (hle.trans hkept.deadline)⟩
      rw [Function.update_apply]
      split
      · rfl
      · exact hg
  · intro g y hy
    rcases h.of_tokens g y hy with ⟨rfl, rfl⟩ | hy
    · exact ⟨hx, hxf⟩
    · exact hst.tokens g y hy
  · intro b y hb
    rw [h.logoutReceipt] at hb
    exact hst.receipt b y hb

end Indexed

-- ============================================================ revocations

/-- From `st` to `st'`, credentials are only taken away, and what is
fenced is fenced in full. -/
structure Shrinks (ttls : SessionTtls) (l : Lineage) (now : Nat)
    (hashes : List String) (st st' : TimedStore) : Prop where
  refresh : ∀ h r, st'.keys.refresh h = some r → st.keys.refresh h = some r
  refresh_deadline : st'.deadline.refresh = st.deadline.refresh
  listed : ∀ h r f, st'.keys.refresh h = some r → r.familyId = some f →
    Listed st h r.userId f → Listed st' h r.userId f
  tokens : ∀ f, st'.keys.familyTokens f ⊆ st.keys.familyTokens f
  families : ∀ u, st'.keys.userFamilies u ⊆ st.keys.userFamilies u
  families_deadline : st'.deadline.userFamilies = st.deadline.userFamilies
  family : ∀ f, st'.keys.family f = st.keys.family f
      ∧ st'.deadline.family f = st.deadline.family f
    ∨ f ∈ hashes ∧ st'.keys.family f = some ⟨false, l.user f⟩
      ∧ st'.deadline.family f = now + ttls.refresh
  active : ∀ f u, st'.keys.family f = some ⟨true, u⟩ →
    f ∈ st.keys.userFamilies u → f ∈ st'.keys.userFamilies u
  familyFor : st'.keys.familyFor = st.keys.familyFor
  familyFor_deadline : st'.deadline.familyFor = st.deadline.familyFor
  receipt : ∀ h x, st'.keys.logoutReceipt h = some x →
    st.keys.logoutReceipt h = some x
      ∨ h ∈ hashes ∧ x.familyId = l.home h ∧ l.home h ∈ hashes
        ∧ l.user (l.home h) = x.userId
  rotationReceipt : st'.keys.rotationReceipt = st.keys.rotationReceipt

section Shrinking

variable {ttls : SessionTtls} {l : Lineage} {now : Nat}
  {hashes : List String} {st st' st'' : TimedStore}

/-- A store that loses tokens, or whose families end, is indexed as
before. -/
theorem Indexed.shrink (hst : Indexed ttls l now hashes st)
    (h : Shrinks ttls l now hashes st st') :
    Indexed ttls l now hashes st' where
  refresh y r hr := by
    rw [h.refresh_deadline]
    exact hst.refresh y r (h.refresh y r hr)
  listed y r f hr hf :=
    h.listed y r f hr hf (hst.listed y r f (h.refresh y r hr) hf)
  families u f hf := hst.families u f (h.families u hf)
  family f x hx := by
    rcases h.family f with ⟨hsame, hdeadline⟩ | ⟨hmem, hfenced, hdeadline⟩
    · have hx' := hx
      rw [hsame] at hx'
      obtain ⟨hmem, huser, hkept⟩ := hst.family f x hx'
      refine ⟨hmem, huser, ?_, fun hactive => ?_⟩
      · rw [hdeadline]
        exact hkept.deadline
      · obtain ⟨hlisted, hle⟩ := hkept.listed hactive
        rw [hdeadline, h.families_deadline]
        refine ⟨h.active f x.userId ?_ hlisted, hle⟩
        rw [hx, ← hactive]
    · rw [hfenced] at hx
      obtain rfl := Option.some.inj hx
      exact ⟨hmem, rfl, Nat.le_of_eq hdeadline, nofun⟩
  familyFor y f hf := by
    rw [h.familyFor] at hf
    rw [h.familyFor_deadline]
    obtain ⟨hmem, hhome, hisSome, hle⟩ := hst.familyFor y f hf
    refine ⟨hmem, hhome, ?_⟩
    rcases h.family f with ⟨hsame, hdeadline⟩ | ⟨-, hfenced, hdeadline⟩
    · rw [hsame, hdeadline]
      exact ⟨hisSome, hle⟩
    · rw [hfenced, hdeadline]
      obtain ⟨x, hx⟩ := Option.isSome_iff_exists.mp hisSome
      obtain ⟨-, -, hkept⟩ := hst.family f x hx
      exact ⟨rfl, hle.trans hkept.deadline⟩
  tokens f y hy := hst.tokens f y (h.tokens f hy)
  receipt y x hx := by
    rcases h.receipt y x hx with hx | hx
    · exact hst.receipt y x hx
    · exact hx

/-- A family's credentials are found by its keys: every token and every
record of it is among those that a fence deletes, so what is left of the
store has nothing of the family. -/
theorem fence_shrinks (hst : Indexed ttls l now hashes st) {f : String}
    {u : Uuid} (hf : f ∈ hashes) (hu : l.user f = u) :
    Shrinks ttls l now hashes st (st.fence ttls now f u) := by
  have hother : ∀ h r, (st.fence ttls now f u).keys.refresh h = some r →
      h ∉ st.keys.familyTokens f ∧ st.keys.refresh h = some r := by
    intro h r hr
    dsimp only [TimedStore.fence] at hr
    split at hr
    · cases hr
    · next hnot => exact ⟨hnot, hr⟩
  constructor
  · intro h r hr
    exact (hother h r hr).2
  · rfl
  · intro h r g hr _ hlisted
    obtain ⟨hnot, -⟩ := hother h r hr
    have hg : g ≠ f := by
      intro hg
      subst hg
      exact hnot hlisted.tokens
    constructor
    · change h ∈ Function.update st.keys.familyTokens f [] g
      rw [Function.update_of_ne hg]
      exact hlisted.tokens
    · exact hlisted.tokens_deadline
    · exact mem_update_filter hlisted.userRefresh (decide_eq_true hnot)
    · exact hlisted.userRefresh_deadline
    · exact mem_update_filter hlisted.userFamilies (decide_eq_true hg)
    · exact hlisted.userFamilies_deadline
  · intro g h hh
    change h ∈ Function.update st.keys.familyTokens f [] g at hh
    by_cases hg : g = f
    · subst hg
      rw [Function.update_self] at hh
      cases hh
    · rw [Function.update_of_ne hg] at hh
      exact hh
  · intro v g hg
    exact of_mem_update_filter hg
  · rfl
  · intro g
    by_cases hg : g = f
    · subst hg
      refine Or.inr ⟨hf, ?_, Function.update_self _ _ _⟩
      rw [hu]
      exact Function.update_self _ _ _
    · exact Or.inl ⟨Function.update_of_ne hg _ _, Function.update_of_ne hg _ _⟩
  · intro g v hg hmem
    have hgf : g ≠ f := by
      intro hgf
      subst hgf
      have hfenced : (st.fence ttls now g u).keys.family g
          = some ⟨false, u⟩ := Function.update_self _ _ _
      rw [hfenced] at hg
      cases hg
    exact mem_update_filter hmem (decide_eq_true hgf)
  · rfl
  · rfl
  · intro h x hx
    dsimp only [TimedStore.fence] at hx
    split at hx
    · next hh =>
        obtain rfl := Option.some.inj hx
        obtain ⟨hmem, rfl⟩ := hst.tokens f h hh
        exact Or.inr ⟨hmem, rfl, hf, hu⟩
    · exact Or.inl hx
  · rfl

/-- A revocation of all sessions adds no token and revives no family. It
deletes the user's tokens one by one and fences the user's families, and each
of these is such a step. -/
theorem revokeAll_shrinks (hst : Indexed ttls l now hashes (st.collect now))
    (u : Uuid) : Shrinks ttls l now hashes (st.collect now)
      (st.revokeAll ttls now u) := by
  have hother : ∀ h r, (st.revokeAll ttls now u).keys.refresh h = some r →
      h ∉ (st.collect now).keys.userRefresh u
        ∧ (st.collect now).keys.refresh h = some r := by
    intro h r hr
    dsimp only [TimedStore.revokeAll, SessionStore.revokeAll] at hr
    split at hr
    · cases hr
    · next hnot => exact ⟨hnot, hr⟩
  constructor
  · intro h r hr
    exact (hother h r hr).2
  · rfl
  · intro h r g hr hg hlisted
    obtain ⟨hnot, hr⟩ := hother h r hr
    have hru : r.userId ≠ u := by
      intro hru
      subst hru
      exact hnot hlisted.userRefresh
    have hgu : g ∉ (st.collect now).keys.userFamilies u := by
      intro hmem
      obtain ⟨-, hhome, -, huser, -⟩ := hst.refresh h r hr
      rw [hg] at hhome
      obtain rfl : g = l.home h := hhome
      exact hru (huser.symm.trans (hst.families u _ hmem).2)
    constructor
    · change h ∈ if g ∈ (st.collect now).keys.userFamilies u then []
        else (st.collect now).keys.familyTokens g
      rw [if_neg hgu]
      exact hlisted.tokens
    · exact hlisted.tokens_deadline
    · change h ∈ Function.update (st.collect now).keys.userRefresh u []
        r.userId
      rw [Function.update_of_ne hru]
      exact hlisted.userRefresh
    · exact hlisted.userRefresh_deadline
    · change g ∈ Function.update (st.collect now).keys.userFamilies u []
        r.userId
      rw [Function.update_of_ne hru]
      exact hlisted.userFamilies
    · exact hlisted.userFamilies_deadline
  · intro g h hh
    change h ∈ if g ∈ (st.collect now).keys.userFamilies u then []
      else (st.collect now).keys.familyTokens g at hh
    split at hh
    · cases hh
    · exact hh
  · intro v g hg
    change g ∈ Function.update (st.collect now).keys.userFamilies u [] v at hg
    by_cases hv : v = u
    · subst hv
      rw [Function.update_self] at hg
      cases hg
    · rw [Function.update_of_ne hv] at hg
      exact hg
  · rfl
  · intro f
    by_cases hf : f ∈ (st.collect now).keys.userFamilies u
    · obtain ⟨hmem, huser⟩ := hst.families u f hf
      refine Or.inr ⟨hmem, ?_, if_pos hf⟩
      rw [huser]
      exact if_pos hf
    · exact Or.inl ⟨if_neg hf, if_neg hf⟩
  · intro f v hfam hmem
    have hv : v ≠ u := by
      intro hv
      subst hv
      have hfenced : (st.revokeAll ttls now v).keys.family f
          = some ⟨false, v⟩ := if_pos hmem
      rw [hfenced] at hfam
      cases hfam
    change f ∈ Function.update (st.collect now).keys.userFamilies u [] v
    rw [Function.update_of_ne hv]
    exact hmem
  · rfl
  · rfl
  · intro h x hx
    exact Or.inl hx
  · rfl

/-- A store shrinks to itself. -/
theorem Shrinks.refl (st : TimedStore) : Shrinks ttls l now hashes st st where
  refresh _ _ hr := hr
  refresh_deadline := rfl
  listed _ _ _ _ _ hlisted := hlisted
  tokens _ _ hh := hh
  families _ _ hf := hf
  families_deadline := rfl
  family _ := Or.inl ⟨rfl, rfl⟩
  active _ _ _ hmem := hmem
  familyFor := rfl
  familyFor_deadline := rfl
  receipt _ _ hx := Or.inl hx
  rotationReceipt := rfl

/-- What shrinks twice shrinks. -/
theorem Shrinks.trans (h : Shrinks ttls l now hashes st st')
    (h' : Shrinks ttls l now hashes st' st'') :
    Shrinks ttls l now hashes st st'' where
  refresh y r hr := h.refresh y r (h'.refresh y r hr)
  refresh_deadline := h'.refresh_deadline.trans h.refresh_deadline
  listed y r f hr hf hlisted :=
    h'.listed y r f hr hf (h.listed y r f (h'.refresh y r hr) hf hlisted)
  tokens f := List.Subset.trans (h'.tokens f) (h.tokens f)
  families u := List.Subset.trans (h'.families u) (h.families u)
  families_deadline := h'.families_deadline.trans h.families_deadline
  family f := by
    rcases h'.family f with ⟨hsame, hdeadline⟩ | hfenced
    · rw [hsame, hdeadline]
      exact h.family f
    · exact Or.inr hfenced
  active f u hf hmem := by
    have hf' : st'.keys.family f = some ⟨true, u⟩ := by
      rcases h'.family f with ⟨hsame, -⟩ | ⟨-, hfenced, -⟩
      · exact hsame.symm.trans hf
      · rw [hfenced] at hf
        cases hf
    exact h'.active f u hf (h.active f u hf' hmem)
  familyFor := h'.familyFor.trans h.familyFor
  familyFor_deadline := h'.familyFor_deadline.trans h.familyFor_deadline
  receipt y x hx := by
    rcases h'.receipt y x hx with hx | hx
    · exact h.receipt y x hx
    · exact Or.inr hx
  rotationReceipt := h'.rotationReceipt.trans h.rotationReceipt

/-- A refresh token is dropped. -/
theorem dropRefresh_shrinks (h : String) (u : Option Uuid) :
    Shrinks ttls l now hashes st (st.dropRefresh h u) := by
  have hother : ∀ y r, (st.dropRefresh h u).keys.refresh y = some r →
      y ≠ h ∧ st.keys.refresh y = some r := by
    intro y r hr
    rcases update_cases hr with ⟨-, hr⟩ | hr
    · cases hr
    · exact hr
  have huserRefresh : ∀ y v, y ≠ h → y ∈ st.keys.userRefresh v →
      y ∈ (st.dropRefresh h u).keys.userRefresh v := by
    intro y v hy hmem
    cases u with
    | none => exact hmem
    | some u => exact mem_update_filter hmem (decide_eq_true hy)
  constructor
  · intro y r hr
    exact (hother y r hr).2
  · rfl
  · intro y r f hr _ hlisted
    exact { hlisted with
      userRefresh := huserRefresh y _ (hother y r hr).1 hlisted.userRefresh }
  · exact fun _ _ hh => hh
  · exact fun _ _ hf => hf
  · rfl
  · exact fun _ => Or.inl ⟨rfl, rfl⟩
  · exact fun _ _ _ hmem => hmem
  · rfl
  · rfl
  · exact fun _ _ hx => Or.inl hx
  · rfl

/-- A logout leaves a receipt, which names a family of the lineage. -/
theorem writeReceipt_shrinks {h : String} {x : LogoutReceipt}
    (hx : h ∈ hashes ∧ x.familyId = l.home h ∧ l.home h ∈ hashes
      ∧ l.user (l.home h) = x.userId) :
    Shrinks ttls l now hashes st (st.writeReceipt now h x) :=
  { Shrinks.refl st with
    receipt := by
      intro y z hz
      rcases update_cases hz with ⟨rfl, hfresh⟩ | ⟨-, hz⟩
      · obtain rfl := Option.some.inj hfresh
        exact Or.inr hx
      · exact Or.inl hz
    listed := fun _ _ _ _ _ hlisted => { hlisted with } }

/-- A session and its indices are dropped. -/
theorem dropSession_shrinks (jti : String) (u : Uuid) :
    Shrinks ttls l now hashes st (st.dropSession ttls now jti u) :=
  { Shrinks.refl st with
    listed := fun _ _ _ _ _ hlisted => { hlisted with } }

/-- Before a rotation the old token's bookkeeping is cleaned. -/
theorem pruned_shrinks (ttls : SessionTtls) (l : Lineage) (now : Nat)
    (hashes : List String) (st : TimedStore) (i : Rotation) :
    Shrinks ttls l now hashes st { st with keys := { st.keys with
        toSessionStore := st.keys.toSessionStore.pruned i } } :=
  { Shrinks.refl st with
    listed := fun _ _ _ _ _ hlisted => { hlisted with } }

end Shrinking

-- ================================================================== fenced

/-- No refresh token of the family is left, but perhaps one from before
the families, and that one as long as its fence. -/
structure Fenced (hashes : List String) (f : String) (st : TimedStore) :
    Prop where
  known : f ∈ hashes
  fence : ∀ x, st.keys.family f = some x → x.active = false
  refresh : ∀ h r, st.keys.refresh h = some r → r.familyId ≠ some f
  legacy : ∀ r, st.keys.refresh f = some r → r.familyId = none →
    (st.keys.family f).isSome ∧ st.deadline.refresh f ≤ st.deadline.family f

namespace Fenced

variable {ttls : SessionTtls} {l : Lineage} {now : Nat}
  {hashes hashes' : List String} {st st' : TimedStore} {f : String}

/-- What was drawn since does not matter to a fence. -/
theorem mono (h : Fenced hashes f st) (hsub : hashes ⊆ hashes') :
    Fenced hashes' f st :=
  { h with known := hsub h.known }

/-- Keys that expire do not matter either: a fence lasts as long as what it
guards. -/
theorem collect (h : Fenced hashes f st) (now : Nat) :
    Fenced hashes f (st.collect now) where
  known := h.known
  fence x hx := h.fence x (left_eq_some.mp hx).2
  refresh y r hr := h.refresh y r (left_eq_some.mp hr).2
  legacy r hr hrf := by
    obtain ⟨hlt, hr⟩ := left_eq_some.mp hr
    obtain ⟨hsome, hle⟩ := h.legacy r hr hrf
    refine ⟨?_, hle⟩
    change (left none now st.deadline.family st.keys.family f).isSome
    rw [left_of_lt (hlt.trans_le hle)]
    exact hsome

/-- A fenced family stays fenced while the store shrinks. -/
theorem shrink (h : Fenced hashes f st) (hst : Indexed ttls l now hashes st)
    (hs : Shrinks ttls l now hashes st st') : Fenced hashes f st' where
  known := h.known
  fence x hx := by
    rcases hs.family f with ⟨hsame, -⟩ | ⟨-, hfenced, -⟩
    · rw [hsame] at hx
      exact h.fence x hx
    · rw [hfenced] at hx
      cases hx
      rfl
  refresh y r hr := h.refresh y r (hs.refresh y r hr)
  legacy r hr hrf := by
    have hr' := hs.refresh f r hr
    rw [hs.refresh_deadline]
    rcases hs.family f with ⟨hsame, hdeadline⟩ | ⟨-, hfenced, hdeadline⟩
    · rw [hsame, hdeadline]
      exact h.legacy r hr' hrf
    · rw [hfenced, hdeadline]
      obtain ⟨-, -, -, -, hle⟩ := hst.refresh f r hr'
      exact ⟨rfl, hle⟩

/-- A token of another family. -/
theorem extend (h : Fenced hashes f st) {u : Uuid} {g x a : String}
    {spared : String → Prop} (he : Extends ttls now u g x a spared st st')
    (hg : f ≠ g) : Fenced hashes f st' where
  known := h.known
  fence y hy := by
    rw [he.family, Function.update_of_ne hg] at hy
    exact h.fence y hy
  refresh y r hr := by
    obtain ⟨-, ⟨-, -, hrg⟩ | ⟨-, hr⟩⟩ := he.refresh y r hr
    · rw [hrg]
      exact fun heq => hg (Option.some.inj heq).symm
    · exact h.refresh y r hr
  legacy r hr hrf := by
    obtain ⟨-, ⟨-, -, hrg⟩ | ⟨hne, hr⟩⟩ := he.refresh f r hr
    · rw [hrg] at hrf
      cases hrf
    · rw [he.family, he.refresh_deadline, he.family_deadline,
        Function.update_of_ne hg, Function.update_of_ne hne,
        Function.update_of_ne hg]
      exact h.legacy r hr hrf

end Fenced

section

variable {ttls : SessionTtls} {l : Lineage} {now : Nat}
  {hashes : List String} {st : TimedStore}

/-- A family whose fence is written now, with its index complete. -/
theorem fenced_of_shrinks {st' : TimedStore} {f : String}
    (hst : Indexed ttls l now hashes st)
    (hs : Shrinks ttls l now hashes st st') (hf : f ∈ hashes)
    (hfence : st'.keys.family f = some ⟨false, l.user f⟩)
    (hdeadline : st'.deadline.family f = now + ttls.refresh)
    (hrefresh : ∀ h r, st'.keys.refresh h = some r → r.familyId ≠ some f) :
    Fenced hashes f st' where
  known := hf
  fence x hx := by
    rw [hfence] at hx
    cases hx
    rfl
  refresh := hrefresh
  legacy r hr _ := by
    obtain ⟨-, -, -, -, hle⟩ := hst.refresh f r (hs.refresh f r hr)
    rw [hfence, hdeadline, hs.refresh_deadline]
    exact ⟨rfl, hle⟩

/-- A logout's fence leaves the family fenced. -/
theorem fence_fenced (hst : Indexed ttls l now hashes st) {f : String}
    {u : Uuid} (hf : f ∈ hashes) (hu : l.user f = u) :
    Fenced hashes f (st.fence ttls now f u) := by
  apply fenced_of_shrinks hst (fence_shrinks hst hf hu) hf
  · rw [hu]
    exact Function.update_self _ _ _
  · exact Function.update_self _ _ _
  · intro h r hr hrf
    dsimp only [TimedStore.fence] at hr
    split at hr
    · cases hr
    · next hnot => exact hnot (hst.listed h r f hr hrf).tokens

/-- A revocation of all sessions fences every family in the user's index. -/
theorem revokeAll_fenced (hst : Indexed ttls l now hashes (st.collect now))
    {f : String} {u : Uuid} (hf : f ∈ (st.collect now).keys.userFamilies u) :
    Fenced hashes f (st.revokeAll ttls now u) := by
  obtain ⟨hmem, huser⟩ := hst.families u f hf
  apply fenced_of_shrinks hst (revokeAll_shrinks hst u) hmem
  · rw [huser]
    exact if_pos hf
  · exact if_pos hf
  · intro h r hr hrf
    have hr' := (revokeAll_shrinks hst u).refresh h r hr
    have hru : r.userId = u := by
      obtain ⟨-, hhome, -, hru, -⟩ := hst.refresh h r hr'
      rw [hrf] at hhome
      obtain rfl : f = l.home h := hhome
      exact hru.symm.trans huser
    subst hru
    have hgone : (st.revokeAll ttls now r.userId).keys.refresh h = none :=
      if_pos (hst.listed h r f hr' hrf).userRefresh
    rw [hgone] at hr
    cases hr

end

-- ============================================================ the scripts

/-- A login extends the store by one token of a new family. -/
theorem issue_extends (ttls : SessionTtls) (now : Nat) (st : TimedStore)
    (u : Uuid) (session : SessionCredentials)
    (sessionExpiresAt : Nat) :
    Extends ttls now u session.familyId session.refreshHash session.refreshHash
      (fun _ => True) (st.collect now)
      (st.issue ttls now u session sessionExpiresAt) where
  refresh h r hr := by
    refine ⟨trivial, ?_⟩
    rcases update_cases hr with ⟨hh, hr⟩ | hr
    · obtain rfl := Option.some.inj hr
      exact Or.inl ⟨hh, rfl, rfl⟩
    · exact Or.inr hr
  tokens h g _ hmem := by
    rcases hmem with ⟨rfl, rfl⟩ | hmem
    · exact mem_update_insert_self
    · exact mem_update_insert hmem
  of_tokens _ _ hh := of_mem_update_insert hh
  userRefresh h v _ hmem := by
    rcases hmem with ⟨rfl, rfl⟩ | hmem
    · exact mem_update_insert_self
    · exact mem_update_insert hmem
  userFamilies := rfl
  family := rfl
  familyFor := rfl
  familyFor_deadline := rfl
  refresh_deadline := rfl
  tokens_deadline := rfl
  userRefresh_deadline := rfl
  userFamilies_deadline := rfl
  family_deadline := rfl
  logoutReceipt := rfl

/-- What an evaluation of the rotation script does: nothing that matters
here, or it finds the presented record, its family free, and renews. -/
inductive Rotates (ttls : SessionTtls) (now : Nat) (st : TimedStore)
    (i : Rotation) : RotationReply × TimedStore → Prop where
  | refused (reply : RotationReply)
      (h : reply = .committed → (st.collect now).keys.rotated i = true) :
      Rotates ttls now st i (reply, st.collect now)
  | full :
      (st.collect now).keys.refresh i.oldRefreshHash
        = some i.expectedRefreshRecord →
      (∀ x ∈ (st.collect now).keys.family i.familyId,
        SessionStore.activeFor x i.userId = true) →
      maxRefreshFamilySessions < ((st.collect now).keys.toSessionStore.pruned
        i).projectedSessionCount i →
      Rotates ttls now st i (.capacityExceeded, { st.collect now with
        keys := { (st.collect now).keys with
          toSessionStore := (st.collect now).keys.toSessionStore.pruned i } })
  | renewed :
      (st.collect now).keys.refresh i.oldRefreshHash
        = some i.expectedRefreshRecord →
      (∀ x ∈ (st.collect now).keys.family i.familyId,
        SessionStore.activeFor x i.userId = true) →
      ((st.collect now).keys.toSessionStore.pruned i).projectedSessionCount i
        ≤ maxRefreshFamilySessions →
      Rotates ttls now st i (.committed,
        { keys := { (st.collect now).keys with
            toSessionStore :=
              ((st.collect now).keys.toSessionStore.pruned i).renewed i }
          deadline := (st.collect now).rotationDeadlines ttls now i })

/-- The rotation script: refused, a receipt of reuse, or one new token for
the old one. -/
theorem rotate_rotates (ttls : SessionTtls) (now : Nat) (st : TimedStore)
    (i : Rotation) :
    Rotates ttls now st i (st.rotate ttls now i) := by
  have hunfold : st.rotate ttls now i
      = (((st.collect now).keys.toSessionStore.rotate i).1, {
        keys := { (st.collect now).keys with
          toSessionStore := ((st.collect now).keys.toSessionStore.rotate i).2 }
        deadline :=
          if ((st.collect now).keys.toSessionStore.rotate i).1 = .committed
              ∧ (st.collect now).keys.refresh i.oldRefreshHash
                = some i.expectedRefreshRecord then
            (st.collect now).rotationDeadlines ttls now i
          else (st.collect now).deadline }) := rfl
  rw [hunfold]
  by_cases hrecord : (st.collect now).keys.refresh i.oldRefreshHash
      = some i.expectedRefreshRecord
  · have hactive : ¬ ((st.collect now).keys.family i.familyId).any
          (fun record => ¬ SessionStore.activeFor record i.userId) →
        ∀ x ∈ (st.collect now).keys.family i.familyId,
          SessionStore.activeFor x i.userId = true := by
      intro hfree x hx
      cases hactive : SessionStore.activeFor x i.userId with
      | true => rfl
      | false =>
          rw [Option.mem_def.mp hx] at hfree
          simp [hactive] at hfree
    by_cases hfree : ((st.collect now).keys.family i.familyId).any
        fun record => ¬ SessionStore.activeFor record i.userId
    · have hrotate : (st.collect now).keys.toSessionStore.rotate i
          = (.rejected, (st.collect now).keys.toSessionStore) := by
        unfold SessionStore.rotate
        rw [if_neg (not_not.mpr hrecord), if_pos hfree]
      rw [hrotate, if_neg (fun h => nomatch h.1)]
      exact .refused .rejected nofun
    · by_cases hroom : maxRefreshFamilySessions
          < ((st.collect now).keys.toSessionStore.pruned
            i).projectedSessionCount i
      · have hrotate : (st.collect now).keys.toSessionStore.rotate i
            = (.capacityExceeded,
              (st.collect now).keys.toSessionStore.pruned i) := by
          unfold SessionStore.rotate
          rw [if_neg (not_not.mpr hrecord), if_neg hfree, if_pos hroom]
        rw [hrotate, if_neg (fun h => nomatch h.1)]
        exact .full hrecord (hactive hfree) hroom
      · have hrotate : (st.collect now).keys.toSessionStore.rotate i
            = (.committed,
              ((st.collect now).keys.toSessionStore.pruned i).renewed i) := by
          unfold SessionStore.rotate
          rw [if_neg (not_not.mpr hrecord), if_neg hfree, if_neg hroom]
        rw [hrotate, if_pos ⟨rfl, hrecord⟩]
        exact .renewed hrecord (hactive hfree) (Nat.not_lt.mp hroom)
  · have hrotate : (st.collect now).keys.toSessionStore.rotate i
        = (if (st.collect now).keys.rotated i then .committed else .rejected,
          (st.collect now).keys.toSessionStore) := by
      unfold SessionStore.rotate
      rw [if_pos hrecord]
    rw [hrotate]
    simp only [hrecord, and_false, if_false]
    refine .refused _ fun h => ?_
    by_contra hnot
    rw [if_neg hnot] at h
    cases h

/-- A rotation that succeeds extends the family by its new token. -/
theorem renewed_extends (ttls : SessionTtls) (now : Nat) (st : TimedStore)
    (i : Rotation) (hfamily : i.session.familyId = i.familyId) :
    Extends ttls now i.userId i.familyId i.session.refreshHash i.oldRefreshHash
      (SessionStore.Spared i) (st.collect now)
      { keys := { (st.collect now).keys with
          toSessionStore :=
            ((st.collect now).keys.toSessionStore.pruned i).renewed i }
        deadline := (st.collect now).rotationDeadlines ttls now i } where
  refresh h r hr := by
    obtain ⟨hr, hspared⟩ := (SessionStore.renewed_refresh _ i).mp hr
    refine ⟨hspared, ?_⟩
    rcases update_cases hr with ⟨hh, hr⟩ | hr
    · obtain rfl := Option.some.inj hr
      refine Or.inl ⟨hh, rfl, ?_⟩
      rw [← hfamily]
      rfl
    · exact Or.inr hr
  tokens h g hspared hmem := by
    apply SessionStore.mem_renewed_familyTokens _ _ _ hspared
    rw [hfamily]
    rcases hmem with ⟨rfl, rfl⟩ | hmem
    · exact mem_update_insert_self
    · exact mem_update_insert hmem
  of_tokens g h hh := by
    rw [← hfamily]
    exact of_mem_update_insert (SessionStore.of_mem_renewed_familyTokens
      ((st.collect now).keys.toSessionStore.pruned i) i hh)
  userRefresh h v hspared hmem := by
    apply SessionStore.mem_renewed_userRefresh _ _ _ hspared
    rcases hmem with ⟨rfl, rfl⟩ | hmem
    · exact mem_update_insert_self
    · exact mem_update_insert hmem
  userFamilies := by
    rw [← hfamily]
    exact SessionStore.renewed_userFamilies _ i
  family := by
    rw [← hfamily]
    exact SessionStore.renewed_family _ i
  familyFor := SessionStore.renewed_familyFor _ i
  familyFor_deadline := rfl
  refresh_deadline := rfl
  tokens_deadline := by
    rw [← hfamily]
    rfl
  userRefresh_deadline := rfl
  userFamilies_deadline := rfl
  family_deadline := by
    rw [← hfamily]
    rfl
  logoutReceipt := rfl

end Skrynia
