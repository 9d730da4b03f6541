/-
A refresh token is replaced once, however many requests present it.

# The argument

While rotation is on, the commit that returns a session takes the
presented token with it, and a token that is gone never comes back:
whatever a script writes is a token that its own rotation drew, and an
evaluation that has committed finds its presented token gone. So a second
answer for one presented token can only be the receipt of the first
(`Once.gone`, `Once.receipt`), and a family never has two tokens
(`Once.single`).
-/
import Skrynia.Auth.Logout

namespace Skrynia

open Expiring Stepping

namespace FamilySystem

variable {cfg : SessionConfig} {l : Lineage} {s : FamilySystem}

/-- While rotation is on: distinct draws, spent tokens gone, one token a
family. -/
structure Once (s : FamilySystem) : Prop where
  enabled : ∀ i ∈ s.rotations, i.rotationEnabled = true
  distinct : ∀ i ∈ s.rotations, ∀ j ∈ s.rotations,
    i.session.refreshHash = j.session.refreshHash → i = j
  origin : ∀ x ∈ s.replaced, ∃ i ∈ s.rotations,
    x = (i.oldRefreshHash, i.session)
  gone : ∀ x ∈ s.replaced, s.store.keys.refresh x.1 = none
  receipt : ∀ h y, s.store.keys.rotationReceipt h = some y →
    ∃ x ∈ s.replaced, x.1 = h ∧ x.2.refreshHash = y
  unborn : ∀ i ∈ s.rotations, (i.oldRefreshHash, i.session) ∈ s.replaced
    ∨ s.store.keys.refresh i.session.refreshHash = none
      ∧ ∀ x ∈ s.replaced, x.1 ≠ i.session.refreshHash
  replaced : ∀ x ∈ s.replaced, ∀ y ∈ s.replaced, x.1 = y.1 → x = y
  single : ∀ h r h' r', s.store.keys.refresh h = some r →
    s.store.keys.refresh h' = some r' →
    r.familyId.getD h = r'.familyId.getD h' → h = h'

namespace Once

/-- Tokens only go, and nothing else that is looked at changes. -/
theorem shrink (h : Once s) {st' : TimedStore}
    (hrefresh : ∀ y r, st'.keys.refresh y = some r →
      s.store.keys.refresh y = some r)
    (hreceipt : ∀ y x, st'.keys.rotationReceipt y = some x →
      s.store.keys.rotationReceipt y = some x) :
    Once { s with store := st' } where
  enabled := h.enabled
  distinct := h.distinct
  origin := h.origin
  gone x hx := by
    have hgone := h.gone x hx
    refine Option.eq_none_iff_forall_ne_some.mpr fun r hr => ?_
    rw [hrefresh _ _ hr] at hgone
    cases hgone
  receipt y x hx := h.receipt y x (hreceipt y x hx)
  unborn i hi := by
    rcases h.unborn i hi with hmem | ⟨hnone, hne⟩
    · exact Or.inl hmem
    · refine Or.inr ⟨?_, hne⟩
      refine Option.eq_none_iff_forall_ne_some.mpr fun r hr => ?_
      rw [hrefresh _ _ hr] at hnone
      cases hnone
  replaced := h.replaced
  single y r y' r' hr hr' hf :=
    h.single y r y' r' (hrefresh y r hr) (hrefresh y' r' hr') hf

/-- Expiry takes tokens away and brings none back. -/
theorem collect (h : Once s) :
    Once { s with store := s.store.collect s.now } :=
  h.shrink (fun _ _ hr => (left_eq_some.mp hr).2)
    fun _ _ hx => (left_eq_some.mp hx).2

/-- A token `x` of a new family. -/
theorem issue (h : Once s) (hs : Traced cfg l s) {u : Uuid}
    {session : SessionCredentials} {expiresAt : Nat}
    (hdraws : s.Draws u session expiresAt)
    (hfamily : session.familyId = session.refreshHash) :
    Once { s.sign session with
      store := s.store.issue cfg.ttls s.now u session expiresAt } := by
  have hc := h.collect
  have hrefresh : ∀ y r,
      (s.store.issue cfg.ttls s.now u session expiresAt).keys.refresh y
        = some r →
      y = session.refreshHash ∧ r.familyId = some session.familyId
        ∨ (s.store.collect s.now).keys.refresh y = some r := by
    intro y r hr
    rcases update_cases hr with ⟨hy, hr⟩ | ⟨-, hr⟩
    · obtain rfl := Option.some.inj hr
      exact Or.inl ⟨hy, rfl⟩
    · exact Or.inr hr
  have hstays : ∀ y ∈ s.hashes, (s.store.collect s.now).keys.refresh y = none →
      (s.store.issue cfg.ttls s.now u session expiresAt).keys.refresh y
        = none := by
    intro y hy hnone
    refine Option.eq_none_iff_forall_ne_some.mpr fun r hr => ?_
    rcases hrefresh y r hr with ⟨rfl, -⟩ | hr
    · exact hdraws.hash hy
    · rw [hnone] at hr
      cases hr
  constructor
  · exact h.enabled
  · exact h.distinct
  · exact h.origin
  · intro x hx
    obtain ⟨i, hi, rfl⟩ := h.origin x hx
    exact hstays _ (hs.rotations i hi).old_mem (hc.gone _ hx)
  · exact hc.receipt
  · intro i hi
    rcases hc.unborn i hi with hmem | ⟨hnone, hne⟩
    · exact Or.inl hmem
    · exact Or.inr ⟨hstays _ (hs.rotations i hi).new_mem hnone, hne⟩
  · exact h.replaced
  · intro y r y' r' hr hr' hf
    have hnew : ∀ z t, (s.store.collect s.now).keys.refresh z = some t →
        t.familyId.getD z ≠ session.refreshHash := by
      intro z t ht heq
      obtain ⟨-, hhome, hhomes, -⟩ := hs.indexed.collect.refresh z t ht
      apply hdraws.hash
      rw [← heq, hhome]
      exact hhomes
    rcases hrefresh y r hr with ⟨rfl, hrf⟩ | hr
    · rcases hrefresh y' r' hr' with ⟨rfl, -⟩ | hr'
      · rfl
      · rw [hrf, hfamily] at hf
        exact absurd hf.symm (hnew y' r' hr')
    · rcases hrefresh y' r' hr' with ⟨rfl, hrf'⟩ | hr'
      · rw [hrf', hfamily] at hf
        exact absurd hf (hnew y r hr)
      · exact hc.single y r y' r' hr hr' hf

/-- The answer of an evaluation that has changed nothing here. -/
theorem answered (h : Once s) {st' : TimedStore} (h' : Once { s with store := st' })
    {i : Rotation} {reply : RotationReply}
    (hreply : reply = .committed → (i.oldRefreshHash, i.session) ∈ s.replaced) :
    Once { s with
      store := st'
      replaced := if reply = .committed then
          s.replaced ++ [(i.oldRefreshHash, i.session)]
        else s.replaced } := by
  by_cases hcommitted : reply = .committed
  · have hmem : ∀ x, x ∈ s.replaced ++ [(i.oldRefreshHash, i.session)]
        ↔ x ∈ s.replaced := by
      intro x
      rw [List.mem_append, List.mem_singleton, or_iff_left_iff_imp]
      intro hx
      rw [hx]
      exact hreply hcommitted
    rw [if_pos hcommitted]
    constructor
    · exact h.enabled
    · exact h.distinct
    · exact fun x hx => h.origin x ((hmem x).mp hx)
    · exact fun x hx => h'.gone x ((hmem x).mp hx)
    · intro y z hz
      obtain ⟨x, hx, hxy⟩ := h'.receipt y z hz
      exact ⟨x, (hmem x).mpr hx, hxy⟩
    · intro j hj
      rcases h'.unborn j hj with hj | ⟨hnone, hne⟩
      · exact Or.inl ((hmem _).mpr hj)
      · exact Or.inr ⟨hnone, fun x hx => hne x ((hmem x).mp hx)⟩
    · exact fun x hx y hy => h.replaced x ((hmem x).mp hx) y ((hmem y).mp hy)
    · exact h'.single
  · rw [if_neg hcommitted]
    exact h'

/-- The commit of a rotation. -/
theorem renew (h : Once s) {i : Rotation} (hi : i ∈ s.rotations)
    (hb : Belongs l s.hashes i) {st' : TimedStore}
    (hrecord : s.store.keys.refresh i.oldRefreshHash
      = some i.expectedRefreshRecord)
    (hrefresh : ∀ y r, st'.keys.refresh y = some r → y ≠ i.oldRefreshHash
      ∧ (y = i.session.refreshHash ∧ r.familyId = some i.familyId
        ∨ y ≠ i.session.refreshHash ∧ s.store.keys.refresh y = some r))
    (hreceipt : st'.keys.rotationReceipt = Function.update
      s.store.keys.rotationReceipt i.oldRefreshHash
      (some i.session.refreshHash)) :
    Once { s with
      store := st'
      replaced := s.replaced ++ [(i.oldRefreshHash, i.session)] } := by
  have hfirst : ∀ x ∈ s.replaced, x.1 ≠ i.oldRefreshHash := by
    intro x hx heq
    have hgone := h.gone x hx
    rw [heq, hrecord] at hgone
    cases hgone
  have hunborn : ∀ x ∈ s.replaced, x.1 ≠ i.session.refreshHash := by
    rcases h.unborn i hi with hmem | ⟨-, hne⟩
    · exact absurd rfl (hfirst _ hmem)
    · exact hne
  have hstays : ∀ y, y ≠ i.session.refreshHash →
      s.store.keys.refresh y = none → st'.keys.refresh y = none := by
    intro y hy hnone
    refine Option.eq_none_iff_forall_ne_some.mpr fun r hr => ?_
    obtain ⟨-, ⟨heq, -⟩ | ⟨-, hr⟩⟩ := hrefresh y r hr
    · exact hy heq
    · rw [hnone] at hr
      cases hr
  constructor
  · exact h.enabled
  · exact h.distinct
  · intro x hx
    rcases List.mem_append.mp hx with hx | hx
    · exact h.origin x hx
    · exact ⟨i, hi, List.mem_singleton.mp hx⟩
  · intro x hx
    rcases List.mem_append.mp hx with hx | hx
    · exact hstays _ (hunborn x hx) (h.gone x hx)
    · rw [List.mem_singleton.mp hx]
      refine Option.eq_none_iff_forall_ne_some.mpr fun r hr => ?_
      exact (hrefresh _ r hr).1 rfl
  · intro y z hz
    rw [hreceipt] at hz
    rcases update_cases hz with ⟨hy, hz⟩ | ⟨-, hz⟩
    · refine ⟨_, List.mem_append_right _ List.mem_cons_self, hy.symm, ?_⟩
      exact Option.some.inj hz
    · obtain ⟨x, hx, hxy⟩ := h.receipt y z hz
      exact ⟨x, List.mem_append_left _ hx, hxy⟩
  · intro j hj
    by_cases hji : j = i
    · rw [hji]
      exact Or.inl (List.mem_append_right _ List.mem_cons_self)
    · have hnew : j.session.refreshHash ≠ i.session.refreshHash :=
        fun heq => hji (h.distinct j hj i hi heq)
      rcases h.unborn j hj with hmem | ⟨hnone, hne⟩
      · exact Or.inl (List.mem_append_left _ hmem)
      · refine Or.inr ⟨hstays _ hnew hnone, fun x hx => ?_⟩
        rcases List.mem_append.mp hx with hx | hx
        · exact hne x hx
        · rw [List.mem_singleton.mp hx]
          intro heq
          rw [← heq, hrecord] at hnone
          cases hnone
  · intro x hx y hy hxy
    rcases List.mem_append.mp hx with hx | hx
    · rcases List.mem_append.mp hy with hy | hy
      · exact h.replaced x hx y hy hxy
      · rw [List.mem_singleton.mp hy] at hxy
        exact absurd hxy (hfirst x hx)
    · rcases List.mem_append.mp hy with hy | hy
      · rw [List.mem_singleton.mp hx] at hxy
        exact absurd hxy.symm (hfirst y hy)
      · rw [List.mem_singleton.mp hx, List.mem_singleton.mp hy]
  · -- A token of the family that stays would be the presented one.
    have hother : ∀ y r, y ≠ i.oldRefreshHash →
        s.store.keys.refresh y = some r → r.familyId.getD y ≠ i.familyId := by
      intro y r hy hr heq
      rw [hb.familyId] at heq
      exact hy (h.single y r _ _ hr hrecord heq)
    intro y r y' r' hr hr' hf
    obtain ⟨hy, ⟨rfl, hrf⟩ | ⟨-, hr⟩⟩ := hrefresh y r hr
    · obtain ⟨hy', ⟨rfl, -⟩ | ⟨-, hr'⟩⟩ := hrefresh y' r' hr'
      · rfl
      · rw [hrf] at hf
        exact absurd hf.symm (hother y' r' hy' hr')
    · obtain ⟨hy', ⟨rfl, hrf'⟩ | ⟨-, hr'⟩⟩ := hrefresh y' r' hr'
      · rw [hrf'] at hf
        exact absurd hf (hother y r hy hr)
      · exact h.single y r y' r' hr hr' hf

/-- The script keeps all of it, whoever it answers. -/
theorem evaluate (h : Once s) {i : Rotation} (hi : i ∈ s.rotations)
    (hb : Belongs l s.hashes i) : Once (s.evaluate cfg i) := by
  have hc := h.collect
  have hrotates := rotate_rotates cfg.ttls s.now s.store i
  unfold FamilySystem.evaluate
  generalize s.store.rotate cfg.ttls s.now i = answer at hrotates ⊢
  cases hrotates with
  | refused reply hreply =>
      apply h.answered hc
      intro hcommitted
      have hreceipt : (s.store.collect s.now).keys.rotationReceipt
          i.oldRefreshHash = some i.session.refreshHash := by
        have hrotated := hreply hcommitted
        unfold SessionStore.rotated at hrotated
        simp only [Bool.and_eq_true, beq_iff_eq] at hrotated
        exact hrotated.1.1.1
      obtain ⟨x, hx, hold, hnew⟩ := hc.receipt _ _ hreceipt
      obtain ⟨j, hj, rfl⟩ := h.origin x hx
      obtain rfl := h.distinct j hj i hi hnew
      exact hx
  | full =>
      dsimp only
      rw [if_neg (by decide)]
      exact hc.shrink (fun _ _ hr => hr) fun _ _ hx => hx
  | renewed hrecord =>
      apply hc.renew hi hb hrecord
      · intro y r hr
        obtain ⟨hspared, hcases⟩ := (renewed_extends cfg.ttls s.now
          s.store i hb.session_familyId).refresh y r hr
        refine ⟨hspared (h.enabled i hi), ?_⟩
        rcases hcases with ⟨hy, -, hrf⟩ | hcases
        · exact Or.inl ⟨hy, hrf⟩
        · exact Or.inr hcases
      · rfl

/-- A rotation that is new has drawn a new token. -/
theorem sign (h : Once s) (hs : Traced cfg l s) {i : Rotation}
    (hi : s.Prepares cfg i) (hcfg : cfg.refreshRotationEnabled = true) :
    Once { s.sign i.session with rotations := s.rotations ++ [i] } where
  enabled j hj := by
    rcases List.mem_append.mp hj with hj | hj
    · exact h.enabled j hj
    · rw [List.mem_singleton.mp hj, hi.rotationEnabled, hcfg]
  distinct j hj k hk heq := by
    have hnew : ∀ j ∈ s.rotations,
        j.session.refreshHash ≠ i.session.refreshHash := by
      intro j hj heq
      apply hi.draws.hash
      rw [← heq]
      exact (hs.rotations j hj).new_mem
    rcases List.mem_append.mp hj with hj | hj
    · rcases List.mem_append.mp hk with hk | hk
      · exact h.distinct j hj k hk heq
      · rw [List.mem_singleton.mp hk] at heq
        exact absurd heq (hnew j hj)
    · rcases List.mem_append.mp hk with hk | hk
      · rw [List.mem_singleton.mp hj] at heq
        exact absurd heq.symm (hnew k hk)
      · rw [List.mem_singleton.mp hj, List.mem_singleton.mp hk]
  origin x hx := by
    obtain ⟨j, hj, hxj⟩ := h.origin x hx
    exact ⟨j, List.mem_append_left _ hj, hxj⟩
  gone := h.gone
  receipt := h.receipt
  unborn j hj := by
    rcases List.mem_append.mp hj with hj | hj
    · exact h.unborn j hj
    · rw [List.mem_singleton.mp hj]
      refine Or.inr ⟨?_, fun x hx heq => ?_⟩
      · refine Option.eq_none_iff_forall_ne_some.mpr fun r hr => ?_
        exact hi.draws.hash (hs.indexed.refresh _ r hr).1
      · obtain ⟨k, hk, rfl⟩ := h.origin x hx
        apply hi.draws.hash
        rw [← heq]
        exact (hs.rotations k hk).old_mem
  replaced := h.replaced
  single := h.single

end Once

/-- At the start nothing has been rotated. -/
theorem opening_once (o : Rollout cfg.ttls) : Once (opening cfg o) where
  enabled _ hi := absurd hi List.not_mem_nil
  distinct _ hi := absurd hi List.not_mem_nil
  origin _ hx := absurd hx List.not_mem_nil
  gone _ hx := absurd hx List.not_mem_nil
  receipt := nofun
  unborn _ hi := absurd hi List.not_mem_nil
  replaced _ hx := absurd hx List.not_mem_nil
  single h r h' r' hr hr' hf := by
    obtain ⟨x, -, rfl⟩ := Option.map_eq_some_iff.mp hr
    obtain ⟨x', -, rfl⟩ := Option.map_eq_some_iff.mp hr'
    exact hf

/-- Every event keeps it. -/
theorem step_once (hcfg : cfg.refreshRotationEnabled = true)
    (hs : Traced cfg l s) (h : Once s) (e : FamilyEvent) :
    Once (s.step cfg e) := by
  have hshrink : ∀ st', Shrinks cfg.ttls l s.now s.hashes
      (s.store.collect s.now) st' → Once { s with store := st' } := by
    intro st' hst'
    refine h.collect.shrink hst'.refresh fun y x hx => ?_
    rw [hst'.rotationReceipt] at hx
    exact hx
  cases e with
  | tick seconds => exact { h with }
  | issue userId session =>
      dsimp only [step]
      split
      · next hguard => exact h.issue hs hguard.1 hguard.2
      · exact h
  | lookup refreshHash =>
      dsimp only [step]
      split
      · exact h
      · exact { h with }
  | rotate i =>
      dsimp only [step]
      split
      · next hprepares =>
          have hsigned := h.sign hs hprepares hcfg
          obtain ⟨l', hs', hbelongs⟩ := prepared_traced hs hprepares
          exact hsigned.evaluate (List.mem_append_right _ List.mem_cons_self)
            hbelongs
      · exact h
  | retry n =>
      dsimp only [step]
      split
      · exact h
      · next i hi =>
          have hmem := List.mem_of_getElem? hi
          exact h.evaluate hmem (hs.rotations i hmem)
  | logout accessToken refreshHash =>
      exact hshrink _ (revokePresented_revokes hs.indexed.collect
        (identity_signed hs accessToken) refreshHash).1.shrinks
  | revokeAll userId =>
      exact hshrink _ (revokeAll_shrinks hs.indexed.collect userId)

/-- No two sessions are returned for one presented refresh token, a token
that was replaced is gone, and a family has at most one token. -/
structure ReplacedOnce (s : FamilySystem) : Prop where
  session : ∀ x ∈ s.replaced, ∀ y ∈ s.replaced, x.1 = y.1 → x = y
  gone : ∀ x ∈ s.replaced, s.current.refresh x.1 = none
  single : ∀ h r h' r', s.current.refresh h = some r →
    s.current.refresh h' = some r' →
    r.familyId.getD h = r'.familyId.getD h' → h = h'

/-- While rotation is on, a refresh token is replaced once, in every
interleaving of refreshes, evaluations that are repeated, and logouts: all
sessions returned for it are one session. `Once` is what every event
keeps. -/
theorem refreshToken_replaced_once (cfg : SessionConfig)
    (hcfg : cfg.refreshRotationEnabled = true) (o : Rollout cfg.ttls)
    (events : List FamilyEvent) :
    ReplacedOnce (run (step cfg) (opening cfg o) events) := by
  have hkeeps : ∀ s e, (∃ l, Traced cfg l s) ∧ Once s →
      (∃ l, Traced cfg l (s.step cfg e)) ∧ Once (s.step cfg e) := by
    intro s e hs
    obtain ⟨⟨l, hs⟩, h⟩ := hs
    obtain ⟨l', hs', -⟩ := step_traced hs e
    exact ⟨⟨l', hs'⟩, step_once hcfg hs h e⟩
  obtain ⟨-, honce⟩ := run_keeps hkeeps ⟨opening_traced o, opening_once o⟩ events
  exact ⟨honce.replaced, honce.collect.gone, honce.collect.single⟩

/-- The refresh of that login, which draws the token `x`. -/
def renewal (x : String) : Rotation where
  userId := ⟨1⟩
  familyId := "h"
  oldRefreshHash := "h"
  expectedRefreshRecord := ⟨⟨1⟩, 1, some "h"⟩
  session := {
    accessToken := ⟨⟨1⟩, .user, x, some 1, some "h", 900⟩
    refreshToken := x
    csrfToken := x
    jti := x
    sessionVersion := 1
    familyId := "h"
    refreshHash := x }
  now := 0
  sessionExpiresAt := 900
  rotationEnabled := true
  previousSessionId := none

/-- Two tabs refresh with one token. -/
def twoTabs : List FamilyEvent :=
  [.issue ⟨1⟩ signedIn, .lookup "h", .rotate (renewal "a"),
    .rotate (renewal "b"), .retry 0]

/-- Two tabs present one token: it is replaced once. -/
theorem refreshToken_replaced_once_twoTabs :
    ReplacedOnce (run (step defaultConfig)
      (opening defaultConfig emptyRollout) twoTabs) :=
  refreshToken_replaced_once defaultConfig rfl emptyRollout twoTabs

-- The first tab has the session, and a repeated evaluation tells it so.
example : ((run (step defaultConfig) (opening defaultConfig emptyRollout)
    twoTabs).replaced.map fun x => (x.1, x.2.refreshHash))
    = [("h", "a"), ("h", "a")] := by
  decide

end FamilySystem

end Skrynia
