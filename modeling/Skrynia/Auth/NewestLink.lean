/-
The newest password reset link works.

`Auth/ResetLinks` says that no other link does. Here the other direction:
as long as its request is the last entry of the user's history, a link
that was stored resets the password when it is presented, before its time
is up. No request that is late, no cancellation, no link of another
request and none that is presented takes it away.

# The argument

A generation has one request, and so at most one link (`unique`). The
entry of a user's active link ranks by generation, and none ranks above
the last one. A request that takes its token back has found an account
whose credentials are not the ones of its record any more, and since
generations never fall they never are again (`later`).
-/
import Skrynia.Auth.ResetLinks

namespace Skrynia

open Relational Stepping

namespace ResetSystem

variable {crypto : AuthCrypto} {s t : ResetSystem} {n : Nat}
  {ρ σ : PasswordResetTokenRecord}

-- =============================================================== invariant

/-- Nothing has happened to the credentials since the request. -/
def Newest (s : ResetSystem) (ρ : PasswordResetTokenRecord) : Prop :=
  (s.history ρ.userId).getLast? = some (.requested ρ.passwordGeneration)

/-- The records that requests have, and those of the links. -/
def Issued (s : ResetSystem) (ρ : PasswordResetTokenRecord) : Prop :=
  (∃ n, (s.phase n).record = some ρ) ∨ ∃ h, (h, ρ) ∈ s.links

/-- Two records of the same account and generation. -/
def SameRequest (ρ σ : PasswordResetTokenRecord) : Prop :=
  ρ.userId = σ.userId ∧ ρ.passwordGeneration = σ.passwordGeneration

/-- The account is the one of the record, if that is the newest. -/
def Matches (crypto : AuthCrypto) (s : ResetSystem)
    (ρ : PasswordResetTokenRecord) : Prop :=
  ∃ r, s.auth.row? ρ.userId = some r
    ∧ ρ.passwordGeneration ≤ r.passwordGeneration
    ∧ (Newest s ρ → Current crypto ρ r)

/-- A link is stored, and is the user's active one. -/
structure Held (s : ResetSystem) (x : String × PasswordResetTokenRecord) :
    Prop where
  stored : s.auth.store.passwordReset x.1 = some x.2
  active : s.auth.store.passwordResetActive x.2.userId
    = some (x.2.passwordGeneration, x.1)

/-- What holds at all times: records match accounts, requests and links of
one generation are one, and newest links are held. -/
structure Tidy (crypto : AuthCrypto) (s : ResetSystem) : Prop where
  row : ∀ ρ, Issued s ρ → Matches crypto s ρ
  apart : ∀ n m ρ σ a b, s.phase n = .store ρ a → s.phase m = .store σ b →
    SameRequest ρ σ → n = m
  unstored : ∀ n ρ a, s.phase n = .store ρ a →
    ∀ x ∈ s.links, ¬ SameRequest ρ x.2
  unique : ∀ x ∈ s.links, ∀ y ∈ s.links, SameRequest x.2 y.2 → x = y
  /-- A token is drawn once. -/
  drawn : ∀ x ∈ s.links, ∀ y ∈ s.links, x.1 = y.1 → x = y
  stored : ∀ h ρ, s.auth.store.passwordReset h = some ρ → (h, ρ) ∈ s.links
  active : ∀ u g h, s.auth.store.passwordResetActive u = some (g, h) →
    ∃ ρ, (h, ρ) ∈ s.links ∧ ρ.userId = u ∧ ρ.passwordGeneration = g
  rechecked : ∀ n ρ h, s.phase n = .recheck ρ h → (h, ρ) ∈ s.links
  canceled : ∀ n ρ h, s.phase n = .cancel ρ h →
    (h, ρ) ∈ s.links ∧ ¬ Newest s ρ
  held : ∀ x ∈ s.links, Newest s x.2 → x.1 ∉ s.presented →
    s.now < x.2.expiresAt → Held s x

/-- Before any request there is nothing to hold. -/
theorem opening_tidy (auth : AuthSystem) (now : Timestamp) :
    Tidy crypto (opening auth now) where
  row ρ h := by
    rcases h with ⟨n, hn⟩ | ⟨h, hh⟩
    · cases hn
    · cases hh
  apart := nofun
  unstored := nofun
  unique := nofun
  drawn := nofun
  stored := nofun
  active := nofun
  rechecked := nofun
  canceled := nofun
  held := nofun

-- ================================================================== phases

/-- What the phase that a request goes to has to meet. -/
structure Admits (crypto : AuthCrypto) (s : ResetSystem) (n : Nat)
    (p : ResetPhase) : Prop where
  row : ∀ ρ, p.record = some ρ → Matches crypto s ρ
  apart : ∀ ρ a, p = .store ρ a → ∀ m σ b, m ≠ n → s.phase m = .store σ b →
    ¬ SameRequest ρ σ
  unstored : ∀ ρ a, p = .store ρ a → ∀ x ∈ s.links, ¬ SameRequest ρ x.2
  rechecked : ∀ ρ h, p = .recheck ρ h → (h, ρ) ∈ s.links
  canceled : ∀ ρ h, p = .cancel ρ h → (h, ρ) ∈ s.links ∧ ¬ Newest s ρ

/-- Of one request either way. -/
theorem SameRequest.symm (h : SameRequest ρ σ) : SameRequest σ ρ :=
  ⟨h.1.symm, h.2.symm⟩

/-- A phase is that of the call that has moved, or was there before. -/
theorem phase_goto {p q : ResetPhase} {m : Nat}
    (h : (s.goto n p).phase m = q) : m = n ∧ p = q ∨ m ≠ n ∧ s.phase m = q :=
  update_cases h

/-- Only the last move of a call counts. -/
theorem goto_goto (p q : ResetPhase) : (s.goto n p).goto n q = s.goto n q := by
  unfold goto
  rw [Function.update_idem]

/-- A record in a phase is that of the phase moved to, or was there
before. -/
theorem issued_goto {p : ResetPhase} (h : Issued (s.goto n p) ρ) :
    p.record = some ρ ∨ Issued s ρ := by
  rcases h with ⟨m, hm⟩ | hlink
  · rcases phase_goto rfl with ⟨-, hp⟩ | ⟨-, hp⟩
    · rw [← hp] at hm
      exact Or.inl hm
    · rw [← hp] at hm
      exact Or.inr (Or.inl ⟨m, hm⟩)
  · exact Or.inr (Or.inr hlink)

/-- A call may move to a phase that admits it. -/
theorem Tidy.goto {p : ResetPhase} (h : Tidy crypto s)
    (hp : Admits crypto s n p) : Tidy crypto (s.goto n p) where
  row ρ hρ := by
    rcases issued_goto hρ with hnew | hold
    · exact hp.row ρ hnew
    · exact h.row ρ hold
  apart m m' ρ σ a b hm hm' hsame := by
    rcases phase_goto hm with ⟨hn, hpm⟩ | ⟨hne, hold⟩
    · rcases phase_goto hm' with ⟨hn', -⟩ | ⟨hne', hold'⟩
      · rw [hn, hn']
      · exact absurd hsame (hp.apart ρ a hpm m' σ b hne' hold')
    · rcases phase_goto hm' with ⟨-, hpm'⟩ | ⟨-, hold'⟩
      · exact absurd hsame.symm (hp.apart σ b hpm' m ρ a hne hold)
      · exact h.apart m m' ρ σ a b hold hold' hsame
  unstored m ρ a hm := by
    rcases phase_goto hm with ⟨-, hpm⟩ | ⟨-, hm⟩
    · exact hp.unstored ρ a hpm
    · exact h.unstored m ρ a hm
  unique := h.unique
  drawn := h.drawn
  stored := h.stored
  active := h.active
  rechecked m ρ x hm := by
    rcases phase_goto hm with ⟨-, hpm⟩ | ⟨-, hm⟩
    · exact hp.rechecked ρ x hpm
    · exact h.rechecked m ρ x hm
  canceled m ρ x hm := by
    rcases phase_goto hm with ⟨-, hpm⟩ | ⟨-, hm⟩
    · exact hp.canceled ρ x hpm
    · exact h.canceled m ρ x hm
  held x hx hnewest hpresented hnow :=
    have hheld := h.held x hx hnewest hpresented hnow
    ⟨hheld.stored, hheld.active⟩

/-- A phase without a record or a token. -/
inductive Settled : ResetPhase → Prop where
  | idle : Settled .idle
  | openReset (row : AccountRow) : Settled (.openReset row)
  | sent (record : PasswordResetTokenRecord) (tokenHash : String) :
      Settled (.sent record tokenHash)
  | revoke (userId : Uuid) : Settled (.revoke userId)
  | ended (written : Bool) : Settled (.ended written)

/-- A phase without a record or a token asks for nothing. -/
theorem Settled.admits {p : ResetPhase} (hp : Settled p) :
    Admits crypto s n p := by
  cases hp <;> exact ⟨nofun, nofun, nofun, nofun, nofun⟩

/-- An access of a request that keeps the invariant, wherever the request
is left by it. -/
structure Access (crypto : AuthCrypto) (n : Nat)
    (x : ResetSystem × ResetPhase) : Prop where
  tidy : Tidy crypto (x.1.goto n (.ended false))
  admits : Admits crypto (x.1.goto n (.ended false)) n x.2

/-- An access keeps the invariant, whether it commits, fails or loses its
reply. -/
theorem Tidy.perform (h : Tidy crypto s) {x : ResetSystem × ResetPhase}
    (hx : Access crypto n x) (fault : Option Fault) :
    Tidy crypto (s.perform n fault x) := by
  rcases fault with _ | _ | _
  · have hgoto := hx.tidy.goto hx.admits
    rw [goto_goto] at hgoto
    exact hgoto
  · exact h.goto (Settled.ended false).admits
  · exact hx.tidy

-- =================================================================== store

/-- Only keys are gone, of the tokens in `gone`. -/
structure Releases (gone : String → Prop) (st st' : SessionStore) : Prop where
  stored : ∀ x ρ, st'.passwordReset x = some ρ → st.passwordReset x = some ρ
  kept : ∀ x ρ, ¬ gone x → st.passwordReset x = some ρ →
    st'.passwordReset x = some ρ
  active : ∀ u a, st'.passwordResetActive u = some a →
    st.passwordResetActive u = some a
  keptActive : ∀ u a, ¬ gone a.2 → st.passwordResetActive u = some a →
    st'.passwordResetActive u = some a

/-- Nothing need be gone. -/
theorem Releases.refl (gone : String → Prop) (st : SessionStore) :
    Releases gone st st :=
  ⟨fun _ _ h => h, fun _ _ _ h => h, fun _ _ h => h, fun _ _ _ h => h⟩

/-- A key of one token. -/
theorem Releases.update (st : SessionStore) (y : String) :
    Releases (· = y) st { st with
      passwordReset := Function.update st.passwordReset y none } where
  stored x ρ h := by
    rcases update_cases h with ⟨-, h⟩ | ⟨-, h⟩
    · cases h
    · exact h
  kept x ρ hx h := by
    change Function.update st.passwordReset y none x = some ρ
    rw [Function.update_of_ne hx]
    exact h
  active _ _ h := h
  keptActive _ _ _ h := h

/-- The active entry of a link that is gone may be removed. -/
theorem Releases.updateActive {gone : String → Prop} {st st' : SessionStore}
    (h : Releases gone st st') {u : Uuid} {a : Nat × String}
    (hu : st.passwordResetActive u = some a) (ha : gone a.2) :
    Releases gone st { st' with
      passwordResetActive :=
        Function.update st'.passwordResetActive u none } where
  stored := h.stored
  kept := h.kept
  active v b hb := by
    rcases update_cases hb with ⟨-, hb⟩ | ⟨-, hb⟩
    · cases hb
    · exact h.active v b hb
  keptActive v b hgone hb := by
    change Function.update st'.passwordResetActive u none v = some b
    rw [Function.update_of_ne]
    · exact h.keptActive v b hgone hb
    · intro hv
      rw [hv, hu] at hb
      exact hgone (Option.some.inj hb ▸ ha)

/-- The script that consumes a link removes the keys of that link only. -/
theorem consumeReset_releases (st : SessionStore) (y : String) (now : Nat) :
    Releases (· = y) st (st.consumeReset y now).2 := by
  unfold SessionStore.consumeReset
  split
  · exact Releases.refl _ st
  · next record hrecord =>
      have hused := Releases.update st y
      by_cases hactive : st.passwordResetActive record.userId
          = some (record.passwordGeneration, y)
      · have hreleased := hused.updateActive hactive rfl
        simp only [hactive, beq_self_eq_true, if_true, not_true_eq_false,
          if_false]
        split
        · exact hreleased
        · exact hreleased
      · simp only [beq_eq_false_iff_ne.mpr hactive, Bool.false_eq_true,
          if_false, not_false_eq_true, if_true]
        split
        · exact hused
        · exact hused

/-- So does the one that takes a link back. -/
theorem cancelReset_releases (st : SessionStore)
    (record : PasswordResetTokenRecord) (y : String) :
    Releases (· = y) st (st.cancelReset record y) := by
  unfold SessionStore.cancelReset
  split
  · next hactive => exact (Releases.update st y).updateActive hactive rfl
  · exact Releases.update st y

/-- Keys of a link that was presented, or is not the newest, may go. For
the newest link the key must be left until it is presented or its time is
over. -/
theorem Tidy.releases (h : Tidy crypto s) {gone : String → Prop}
    (hreleases : Releases gone s.auth.store t.auth.store)
    (husers : t.auth.users = s.auth.users) (hhistory : t.history = s.history)
    (hphase : t.phase = s.phase) (hlinks : t.links = s.links)
    (hpresented : ∀ x, x ∉ t.presented → x ∉ s.presented)
    (hnow : s.now ≤ t.now)
    (hspent : ∀ x ∈ s.links, gone x.1 → Newest s x.2 → x.1 ∉ t.presented →
      x.2.expiresAt ≤ t.now) : Tidy crypto t where
  row ρ hρ := by
    unfold Issued at hρ
    rw [hphase, hlinks] at hρ
    unfold Matches Newest AuthSystem.row?
    rw [husers, hhistory]
    exact h.row ρ hρ
  apart := by
    rw [hphase]
    exact h.apart
  unstored := by
    rw [hphase, hlinks]
    exact h.unstored
  unique := by
    rw [hlinks]
    exact h.unique
  drawn := by
    rw [hlinks]
    exact h.drawn
  stored y ρ hy := by
    rw [hlinks]
    exact h.stored y ρ (hreleases.stored y ρ hy)
  active u g y hy := by
    rw [hlinks]
    exact h.active u g y (hreleases.active u _ hy)
  rechecked := by
    rw [hphase, hlinks]
    exact h.rechecked
  canceled := by
    unfold Newest
    rw [hphase, hlinks, hhistory]
    exact h.canceled
  held x hx hnewest hnew hlive := by
    rw [hlinks] at hx
    unfold Newest at hnewest
    rw [hhistory] at hnewest
    have hheld : Held s x := h.held x hx hnewest (hpresented x.1 hnew)
      (Nat.lt_of_le_of_lt hnow hlive)
    have hkept : ¬ gone x.1 := by
      intro hgone
      exact absurd hlive (Nat.not_lt.mpr (hspent x hx hgone hnewest hnew))
    exact ⟨hreleases.kept _ _ hkept hheld.stored,
      hreleases.keptActive _ _ hkept hheld.active⟩

/-- No key is gone. -/
theorem Tidy.kept (h : Tidy crypto s)
    (hreleases : Releases (fun _ => False) s.auth.store t.auth.store)
    (husers : t.auth.users = s.auth.users) (hhistory : t.history = s.history)
    (hphase : t.phase = s.phase) (hlinks : t.links = s.links)
    (hpresented : t.presented = s.presented) (hnow : s.now ≤ t.now) :
    Tidy crypto t := by
  refine h.releases hreleases husers hhistory hphase hlinks ?_ hnow ?_
  · rw [hpresented]
    exact fun _ hx => hx
  · intro _ _ hgone
    exact hgone.elim

/-- Nothing but a phase. -/
theorem Tidy.settle (h : Tidy crypto s) (n : Nat) :
    Tidy crypto (s.goto n (.ended false)) :=
  h.goto (Settled.ended false).admits

-- ================================================================ accesses

/-- A new generation of the password of one user, and the entry for it. -/
theorem Tidy.entered (h : Tidy crypto s) {u : Uuid} {r : AccountRow}
    {f : AccountRow → AccountRow} {hf : ∀ r, (f r).id = r.id}
    {entry : CredentialEntry} (hr : s.auth.row? u = some r)
    (hgeneration : (f r).passwordGeneration = r.passwordGeneration + 1)
    (hentry : ∀ g ≤ r.passwordGeneration, entry ≠ .requested g) :
    Tidy crypto (({ s with
      auth := s.auth.updateUser u f hf } : ResetSystem).log u entry) := by
  have hnewest : ∀ ρ, Issued s ρ → Newest (({ s with
      auth := s.auth.updateUser u f hf } : ResetSystem).log u entry) ρ →
      ρ.userId ≠ u ∧ Newest s ρ := by
    intro ρ hρ hnew
    change (Function.update s.history u _ ρ.userId).getLast? = _ at hnew
    by_cases hu : ρ.userId = u
    · obtain ⟨x, hx, hle, -⟩ := h.row ρ hρ
      rw [hu, hr] at hx
      obtain rfl := Option.some.inj hx
      rw [hu, Function.update_self, List.getLast?_concat] at hnew
      exact absurd (Option.some.inj hnew) (hentry _ hle)
    · rw [Function.update_of_ne hu] at hnew
      exact ⟨hu, hnew⟩
  exact
    { row := fun ρ hρ => by
        obtain ⟨x, hx, hle, hcurrent⟩ := h.row ρ hρ
        by_cases hu : ρ.userId = u
        · have hxr : x = r := Option.some.inj (hx.symm.trans (hu ▸ hr))
          subst hxr
          refine ⟨f x, ?_, by omega, fun hnew =>
            absurd hu (hnewest ρ hρ hnew).1⟩
          change (s.auth.updateUser u f hf).row? ρ.userId = _
          rw [AuthSystem.row?_updateUser, hx, Option.map_some,
            if_pos ((Table.key_of_find? hx).trans hu)]
        · refine ⟨x, ?_, hle, fun hnew => hcurrent (hnewest ρ hρ hnew).2⟩
          change (s.auth.updateUser u f hf).row? ρ.userId = _
          rw [AuthSystem.row?_updateUser, hx, Option.map_some, if_neg]
          rw [Table.key_of_find? hx]
          exact hu
      apart := h.apart
      unstored := h.unstored
      unique := h.unique
      drawn := h.drawn
      stored := h.stored
      active := h.active
      rechecked := h.rechecked
      canceled := fun m ρ y hm => by
        obtain ⟨hlink, hnot⟩ := h.canceled m ρ y hm
        exact ⟨hlink, fun hnew => hnot (hnewest ρ (Or.inr ⟨y, hlink⟩) hnew).2⟩
      held := fun x hx hnew hpresented hnow =>
        have hheld := h.held x hx (hnewest x.2 (Or.inr ⟨x.1, hx⟩) hnew).2
          hpresented hnow
        ⟨hheld.stored, hheld.active⟩ }

/-- The accounts and the history are the ones of another state. -/
theorem Matches.of_same (husers : t.auth.users = s.auth.users)
    (hhistory : t.history = s.history) (h : Matches crypto s ρ) :
    Matches crypto t ρ := by
  unfold Matches Newest AuthSystem.row?
  rw [husers, hhistory]
  exact h

/-- A request writes its generation and its entry of the history at once, so
its record is that of the newest entry until something else is written. -/
theorem openReset_access (h : Tidy crypto s) (n : Nat) (row : AccountRow) :
    Access crypto n (s.openReset crypto row) := by
  unfold openReset AuthSystem.openReset
  dsimp only
  split
  · exact ⟨h.settle n, (Settled.ended false).admits⟩
  · next x auth hopen =>
      split at hopen
      · cases hopen
      · next r hr =>
          obtain ⟨hr, -⟩ := Option.filter_eq_some_iff.mp hr
          have hid : r.id = row.id := Table.key_of_find? hr
          rw [← hid] at hr
          obtain ⟨rfl, rfl⟩ := Prod.mk.inj (Except.ok.inj hopen)
          have hentered : Tidy crypto (({ s.goto n (.ended false) with
              auth := s.auth.updateUser r.id (fun r => { r with
                passwordGeneration := r.passwordGeneration + 1 }) fun _ => rfl }
              : ResetSystem).log r.id
                (.requested (r.passwordGeneration + 1))) := by
            apply (h.settle n).entered hr rfl
            intro g hg heq
            obtain rfl := CredentialEntry.requested.inj heq
            omega
          -- No record has this generation yet.
          have hnew : ∀ σ, Issued s σ → r.id = σ.userId →
              r.passwordGeneration + 1 ≠ σ.passwordGeneration := by
            intro σ hσ hu heq
            obtain ⟨x, hx, hle, -⟩ := h.row σ hσ
            rw [← hu, hr] at hx
            obtain rfl := Option.some.inj hx
            omega
          refine ⟨hentered, ?_, ?_, ?_, nofun, nofun⟩
          · intro ρ hρ
            obtain rfl := Option.some.inj hρ
            refine ⟨{ r with passwordGeneration := r.passwordGeneration + 1 },
              ?_, Nat.le_refl _, fun _ => ⟨rfl, rfl, rfl⟩⟩
            change (s.auth.updateUser r.id _ _).row? r.id = _
            rw [AuthSystem.row?_updateUser, hr, Option.map_some, if_pos rfl]
          · intro ρ a hρ m σ b hmn hm hsame
            cases hρ
            have hold : s.phase m = .store σ b := by
              rcases update_cases hm with ⟨hn, -⟩ | ⟨-, hold⟩
              · exact absurd hn hmn
              · exact hold
            exact hnew σ (Or.inl ⟨m, by rw [hold]; rfl⟩) hsame.1 hsame.2
          · intro ρ a hρ x hx hsame
            cases hρ
            exact hnew x.2 (Or.inr ⟨x.1, hx⟩) hsame.1 hsame.2

/-- A request whose account has changed goes on to cancel its link. -/
theorem recheck_access (h : Tidy crypto s) {record : PasswordResetTokenRecord}
    {tokenHash : String} (hphase : s.phase n = .recheck record tokenHash) :
    Access crypto n (s.recheck crypto record tokenHash) := by
  have hlink : (tokenHash, record) ∈ s.links :=
    h.rechecked n record tokenHash hphase
  refine ⟨h.settle n, ?_⟩
  unfold recheck
  dsimp only
  split
  · exact (Settled.sent record tokenHash).admits
  · next hstale =>
      refine ⟨nofun, nofun, nofun, nofun, ?_⟩
      intro ρ x hρ
      cases hρ
      refine ⟨hlink, fun hnewest => hstale ?_⟩
      obtain ⟨r, hr, -, hcurrent⟩ := h.row record (Or.inr ⟨tokenHash, hlink⟩)
      exact ⟨r, hr, hcurrent hnewest⟩

/-- It takes back a link that is not the newest any more. -/
theorem cancel_access (h : Tidy crypto s) {record : PasswordResetTokenRecord}
    {tokenHash : String} (hphase : s.phase n = .cancel record tokenHash) :
    Access crypto n (s.cancel record tokenHash) := by
  obtain ⟨hlink, hstale⟩ := h.canceled n record tokenHash hphase
  refine ⟨?_, (Settled.ended false).admits⟩
  refine (h.settle n).releases
    (cancelReset_releases s.auth.store record tokenHash)
    rfl rfl rfl rfl (fun _ hx => hx) (Nat.le_refl _) ?_
  intro x hx hgone hnewest
  rw [h.drawn x hx _ hlink hgone] at hnewest
  exact absurd hnewest hstale

/-- A link that is presented is consumed, and counts as presented. -/
theorem consume_access (h : Tidy crypto s) (n : Nat) (tokenHash : String) :
    Access crypto n (s.consume crypto tokenHash) := by
  constructor
  · refine (h.settle n).releases
      (consumeReset_releases s.auth.store tokenHash s.now) rfl rfl rfl rfl
      ?_ ?_ ?_
    · exact fun x hx hmem => hx (List.mem_append_left _ hmem)
    · exact Nat.le_refl _
    · intro x _ hgone _ hnew
      exact absurd (List.mem_append_right _ (List.mem_singleton.mpr hgone)) hnew
  · unfold consume
    dsimp only
    split
    · exact (Settled.ended false).admits
    · next record hrecord =>
        split
        · refine ⟨?_, nofun, nofun, nofun, nofun⟩
          intro ρ hρ
          obtain rfl := Option.some.inj hρ
          have hlink : (tokenHash, record) ∈ s.links :=
            h.stored tokenHash record (consumeReset_fst hrecord)
          exact (h.row record (Or.inr ⟨tokenHash, hlink⟩)).of_same rfl rfl
        · exact (Settled.ended false).admits

/-- A reset that is written is an entry of its own. -/
theorem writePassword_access (h : Tidy crypto s) (n : Nat)
    (record : PasswordResetTokenRecord) (passwordHash : String) :
    Access crypto n (s.writePassword crypto record passwordHash) := by
  unfold writePassword
  split
  · exact ⟨h.settle n, (Settled.ended false).admits⟩
  · next row hrow =>
      have hid : row.id = record.userId := Table.key_of_find? hrow
      unfold AuthSystem.writePassword
      split
      · dsimp only
        rw [if_pos rfl, hid]
        constructor
        · exact (h.settle n).entered (s := s.goto n (.ended false)) hrow rfl
            fun g _ hg => CredentialEntry.noConfusion hg
        · exact (Settled.revoke record.userId).admits
      · dsimp only
        rw [if_neg Bool.false_ne_true]
        exact ⟨h.settle n, (Settled.ended false).admits⟩

/-- A link of a request that has none yet, under a token that is new and
above the active one. -/
theorem Tidy.linked (h : Tidy crypto s) {y : String} (hmatches : Matches crypto s ρ)
    (hapart : ∀ m σ b, s.phase m = .store σ b → ¬ SameRequest ρ σ)
    (hunstored : ∀ x ∈ s.links, ¬ SameRequest ρ x.2)
    (hnew : ∀ x ∈ s.links, x.1 ≠ y)
    (hrank : ∀ a, s.auth.store.passwordResetActive ρ.userId = some a →
      a.1 < ρ.passwordGeneration)
    (hauth : t.auth = s.auth.setStore { s.auth.store with
      passwordReset := fun hash =>
        if hash = y then some ρ
        else if (s.auth.store.passwordResetActive ρ.userId).any
            fun previous => previous.2 = hash then none
        else s.auth.store.passwordReset hash
      passwordResetActive := Function.update s.auth.store.passwordResetActive
        ρ.userId (some (ρ.passwordGeneration, y)) })
    (hlinks : t.links = s.links ++ [(y, ρ)]) (hphase : t.phase = s.phase)
    (hhistory : t.history = s.history) (hpresented : t.presented = s.presented)
    (hnow : t.now = s.now) : Tidy crypto t := by
  have hmem : ∀ x, x ∈ t.links ↔ x ∈ s.links ∨ x = (y, ρ) := by
    intro x
    rw [hlinks, List.mem_append, List.mem_singleton]
  have hstore : t.auth.store.passwordReset = fun hash =>
      if hash = y then some ρ
      else if (s.auth.store.passwordResetActive ρ.userId).any
          fun previous => previous.2 = hash then none
      else s.auth.store.passwordReset hash := by
    rw [hauth]
    rfl
  have hactive : t.auth.store.passwordResetActive
      = Function.update s.auth.store.passwordResetActive ρ.userId
        (some (ρ.passwordGeneration, y)) := by
    rw [hauth]
    rfl
  have hnewest : ∀ σ, Newest t σ → Newest s σ := by
    intro σ
    unfold Newest
    rw [hhistory]
    exact id
  exact
    { row := fun σ hσ => by
        refine Matches.of_same (s := s) (by rw [hauth]; rfl) hhistory ?_
        rcases hσ with ⟨m, hm⟩ | ⟨x, hx⟩
        · rw [hphase] at hm
          exact h.row σ (Or.inl ⟨m, hm⟩)
        · rcases (hmem _).mp hx with hx | hx
          · exact h.row σ (Or.inr ⟨x, hx⟩)
          · obtain ⟨-, rfl⟩ := Prod.mk.inj hx
            exact hmatches
      apart := by
        rw [hphase]
        exact h.apart
      unstored := fun m σ b hm x hx => by
        rw [hphase] at hm
        rcases (hmem x).mp hx with hx | rfl
        · exact h.unstored m σ b hm x hx
        · exact fun hsame => hapart m σ b hm hsame.symm
      unique := fun x hx z hz hsame => by
        rcases (hmem x).mp hx with hx | rfl
        · rcases (hmem z).mp hz with hz | rfl
          · exact h.unique x hx z hz hsame
          · exact absurd hsame.symm (hunstored x hx)
        · rcases (hmem z).mp hz with hz | rfl
          · exact absurd hsame (hunstored z hz)
          · rfl
      drawn := fun x hx z hz heq => by
        rcases (hmem x).mp hx with hx | rfl
        · rcases (hmem z).mp hz with hz | rfl
          · exact h.drawn x hx z hz heq
          · exact absurd heq (hnew x hx)
        · rcases (hmem z).mp hz with hz | rfl
          · exact absurd heq.symm (hnew z hz)
          · rfl
      stored := fun z σ hz => by
        rw [hstore] at hz
        dsimp only at hz
        rw [hmem]
        split at hz
        · next hzy =>
            obtain rfl := Option.some.inj hz
            exact Or.inr (by rw [hzy])
        · split at hz
          · cases hz
          · exact Or.inl (h.stored z σ hz)
      active := fun u g z hz => by
        rw [hactive] at hz
        rcases update_cases hz with ⟨hu, hz⟩ | ⟨-, hz⟩
        · obtain ⟨hg, hzy⟩ := Prod.mk.inj (Option.some.inj hz)
          exact ⟨ρ, (hmem _).mpr (Or.inr (by rw [hzy])), hu.symm, hg⟩
        · obtain ⟨σ, hσ, hu, hg⟩ := h.active u g z hz
          exact ⟨σ, (hmem _).mpr (Or.inl hσ), hu, hg⟩
      rechecked := fun m σ z hm => by
        rw [hphase] at hm
        exact (hmem _).mpr (Or.inl (h.rechecked m σ z hm))
      canceled := fun m σ z hm => by
        rw [hphase] at hm
        obtain ⟨hlink, hstale⟩ := h.canceled m σ z hm
        exact ⟨(hmem _).mpr (Or.inl hlink), fun hnew => hstale (hnewest σ hnew)⟩
      held := fun x hx hnew' hfresh hlive => by
        rcases (hmem x).mp hx with hx | rfl
        · rw [hpresented] at hfresh
          rw [hnow] at hlive
          have hheld : Held s x := h.held x hx (hnewest _ hnew') hfresh hlive
          -- Nothing newer than this link can come to be stored.
          have hother : ρ.userId ≠ x.2.userId := by
            intro hu
            obtain ⟨r, hr, hle, -⟩ := hmatches
            obtain ⟨r', hr', -, hcurrent⟩ := h.row x.2 (Or.inr ⟨x.1, hx⟩)
            have hgeneration := (hcurrent (hnewest _ hnew')).2.2
            have hlt := hrank _ (hu ▸ hheld.active)
            rw [hu, hr'] at hr
            obtain rfl := Option.some.inj hr
            dsimp only at hlt
            omega
          constructor
          · rw [hstore]
            dsimp only
            rw [if_neg (hnew x hx), if_neg]
            · exact hheld.stored
            · intro hany
              obtain ⟨a, ha, hax⟩ := (Option.any_eq_true _ _).mp hany
              obtain ⟨σ, hσ, hu, -⟩ := h.active ρ.userId a.1 a.2 ha
              obtain rfl := h.drawn _ hσ x hx (of_decide_eq_true hax)
              exact hother hu.symm
          · rw [hactive, Function.update_of_ne (Ne.symm hother)]
            exact hheld.active
        · constructor
          · rw [hstore]
            exact if_pos rfl
          · rw [hactive]
            exact Function.update_self _ _ _ }

/-- A link is stored unless a newer one is active. The generation in the
record decides which one is newer, so of two requests on their way the later
one prevails in either order. -/
theorem store_access (h : Tidy crypto s) {record : PasswordResetTokenRecord}
    {attempt : Nat} {y : String} (hphase : s.phase n = .store record attempt)
    (hnew : ∀ x ∈ s.links, x.1 ≠ y) :
    Access crypto n (s.store record attempt y) := by
  have hmatches : Matches crypto s record :=
    h.row record (Or.inl ⟨n, by rw [hphase]; rfl⟩)
  have hapart : ∀ m σ b, m ≠ n → s.phase m = .store σ b →
      ¬ SameRequest record σ := by
    intro m σ b hmn hm hsame
    exact hmn (h.apart n m record σ attempt b hphase hm hsame).symm
  -- Another attempt, with the store as it was.
  have hagain : ∀ k, Access crypto n
      ({ s with auth := s.auth.setStore s.auth.store }, .store record k) := by
    intro k
    refine ⟨h.settle n, ?_, ?_, ?_, nofun, nofun⟩
    · intro ρ hρ
      obtain rfl := Option.some.inj hρ
      exact hmatches
    · intro ρ a hρ m σ b hmn hm
      cases hρ
      rcases update_cases hm with ⟨hn, -⟩ | ⟨-, hold⟩
      · exact absurd hn hmn
      · exact hapart m σ b hmn hold
    · intro ρ a hρ
      cases hρ
      exact h.unstored n record attempt hphase
  have hend : Access crypto n
      ({ s with auth := s.auth.setStore s.auth.store }, .ended false) :=
    ⟨h.settle n, (Settled.ended false).admits⟩
  unfold store SessionStore.issueReset
  by_cases htaken : (s.auth.store.passwordReset y).isSome = true
  · simp only [if_pos htaken]
    rw [if_neg (by decide)]
    split
    · exact hend
    · exact hagain _
  · by_cases hrank : (s.auth.store.passwordResetActive record.userId).any
        (fun previous => decide (record.passwordGeneration ≤ previous.1)) = true
    · simp only [if_neg htaken, if_pos hrank]
      exact hend
    · simp only [if_neg htaken, if_neg hrank]
      rw [if_pos trivial]
      constructor
      · refine (h.settle n).linked (ρ := record) (y := y) hmatches ?_ ?_ hnew
          ?_ rfl rfl rfl rfl rfl rfl
        · intro m σ b hm
          rcases update_cases hm with ⟨-, hb⟩ | ⟨hmn, hold⟩
          · cases hb
          · exact hapart m σ b hmn hold
        · exact h.unstored n record attempt hphase
        · intro a ha
          by_contra hle
          apply hrank
          rw [Option.any_eq_true]
          exact ⟨a, ha, decide_eq_true (Nat.le_of_not_lt hle)⟩
      · refine ⟨nofun, nofun, nofun, ?_, nofun⟩
        intro ρ x hρ
        cases hρ
        exact List.mem_append_right _ List.mem_cons_self

-- =================================================================== steps

/-- The next access of any call keeps the invariant. -/
theorem proceed_tidy (h : Tidy crypto s) (n : Nat) (drawn : String)
    (fault : Option Fault) : Tidy crypto (s.proceed crypto n drawn fault) := by
  unfold proceed
  split
  · next row _ => exact h.perform (openReset_access h n row) fault
  · next record attempt hphase =>
      split
      · exact h
      · next hdrawn =>
          apply h.perform (store_access h hphase _) fault
          intro x hx heq
          exact hdrawn (Or.inl (heq ▸ List.mem_map_of_mem hx))
  · next record tokenHash hphase => exact h.perform (recheck_access h hphase) fault
  · next record tokenHash hphase => exact h.perform (cancel_access h hphase) fault
  · next record _ =>
      exact h.perform (writePassword_access h n record drawn) fault
  · next userId _ =>
      apply Tidy.goto
      · split
        · exact h
        · refine h.kept ?_ rfl rfl rfl rfl rfl (Nat.le_refl _)
          exact ⟨fun _ _ hx => hx, fun _ _ _ hx => hx, fun _ _ hx => hx,
            fun _ _ _ hx => hx⟩
      · exact (Settled.ended true).admits
  · exact h

/-- An account whose credentials are untouched has its record still. -/
theorem credential_eq {auth auth' : AuthSystem} {u : Uuid} {r : AccountRow}
    (hr : auth.row? u = some r) (h : credential auth' u = credential auth u) :
    ∃ r', auth'.row? u = some r'
      ∧ r'.passwordGeneration = r.passwordGeneration
      ∧ r'.emailGeneration = r.emailGeneration ∧ r'.email = r.email := by
  unfold credential at h
  rw [hr, Option.map_some] at h
  obtain ⟨r', hr', heq⟩ := Option.map_eq_some_iff.mp h
  obtain ⟨hpassword, heq⟩ := Prod.mk.inj heq
  obtain ⟨hemail, haddress⟩ := Prod.mk.inj heq
  exact ⟨r', hr', hpassword, hemail, haddress⟩

/-- A transaction after which the request is still the newest has left the
credentials as they were. -/
theorem commit_newest {c : AccountCommit} (h : Newest (s.commit crypto c) ρ) :
    Newest s ρ ∧ credential (c.apply crypto s.auth).2 ρ.userId
      = credential s.auth ρ.userId := by
  change (if credential (c.apply crypto s.auth).2 ρ.userId
      = credential s.auth ρ.userId then s.history ρ.userId
    else s.history ρ.userId ++ [.changed]).getLast? = _ at h
  split at h
  · next heq => exact ⟨h, heq⟩
  · rw [List.getLast?_concat] at h
    cases h

/-- What else commits on an account keeps the invariant: a change of
credentials is logged. -/
theorem commit_tidy (h : Tidy crypto s) (c : AccountCommit) :
    Tidy crypto (s.commit crypto c) := by
  have hrows : AuthSystem.RowsStep _ s.auth (c.apply crypto s.auth).2 :=
    c.apply_rows
  have hstore : (s.commit crypto c).auth.store = s.auth.store := hrows.store
  exact
    { row := fun ρ hρ => by
        obtain ⟨r, hr, hle, hcurrent⟩ := h.row ρ hρ
        obtain ⟨r', hr', hsteps, -⟩ := hrows.row _ r hr
        refine ⟨r', hr', ?_, fun hnew => ?_⟩
        · have hpassword := hsteps.later.password_le
          omega
        · obtain ⟨hold, heq⟩ := commit_newest hnew
          obtain ⟨x, hx, hpassword, hemail, haddress⟩ := credential_eq hr heq
          obtain rfl : x = r' := Option.some.inj (hx.symm.trans hr')
          obtain ⟨hnormal, hemail', hpassword'⟩ := hcurrent hold
          unfold Current
          rw [haddress, hemail, hpassword]
          exact ⟨hnormal, hemail', hpassword'⟩
      apart := h.apart
      unstored := h.unstored
      unique := h.unique
      drawn := h.drawn
      stored := fun y ρ hy => by
        rw [hstore] at hy
        exact h.stored y ρ hy
      active := fun u g y hy => by
        rw [hstore] at hy
        exact h.active u g y hy
      rechecked := h.rechecked
      canceled := fun m ρ y hm => by
        obtain ⟨hlink, hstale⟩ := h.canceled m ρ y hm
        exact ⟨hlink, fun hnew => hstale (commit_newest hnew).1⟩
      held := fun x hx hnew hpresented hnow => by
        have hheld := h.held x hx (commit_newest hnew).1 hpresented hnow
        constructor
        · rw [hstore]
          exact hheld.stored
        · rw [hstore]
          exact hheld.active }

/-- So does every event. -/
theorem step_tidy (h : Tidy crypto s) (e : ResetEvent) :
    Tidy crypto (s.step crypto e) := by
  cases e with
  | tick milliseconds =>
      exact h.kept (Releases.refl _ _) rfl rfl rfl rfl rfl (Nat.le_add_right _ _)
  | forgot n email =>
      dsimp only [step]
      split
      · split
        · exact h.settle n
        · next row _ => exact h.goto (Settled.openReset row).admits
      · exact h
  | reset n tokenHash fault =>
      dsimp only [step]
      split
      · exact h.perform (consume_access h n tokenHash) fault
      · exact h
  | proceed n drawn fault => exact proceed_tidy h n drawn fault
  | commit c =>
      dsimp only [step]
      split
      · exact h
      · exact commit_tidy h c
  | expireToken tokenHash =>
      dsimp only [step]
      split
      · next hexpired =>
          obtain ⟨x, hx, rfl, hover⟩ := hexpired
          refine h.releases (Releases.update s.auth.store x.1) rfl rfl rfl rfl
            (fun _ hx => hx) (Nat.le_refl _) ?_
          intro z hz hgone _ _
          rw [h.drawn z hz x hx hgone]
          exact hover
      · exact h
  | expireActive userId =>
      dsimp only [step]
      split
      · exact h
      · next active hactive =>
          split
          · next hexpired =>
              obtain ⟨x, hx, heq, hover⟩ := hexpired
              refine h.releases ((Releases.refl (· = active.2) _).updateActive
                hactive rfl) rfl rfl rfl rfl (fun _ hx => hx) (Nat.le_refl _) ?_
              intro z hz hgone _ _
              rw [h.drawn z hz x hx (hgone.trans heq.symm)]
              exact hover
          · exact h

-- ==================================================================== link

/-- The address in the row is a normal form. -/
def NormalEmail (crypto : AuthCrypto) (s : ResetSystem) (userId : Uuid) :
    Prop :=
  ∀ r, s.auth.row? userId = some r → normalizeEmail crypto r.email = r.email

/-- What the newest link of a user does. -/
structure Works (crypto : AuthCrypto) (s : ResetSystem) : Prop where
  /-- Presented for the first time and in time, it lets a request go on. -/
  consume : ∀ tokenHash ρ, (tokenHash, ρ) ∈ s.links → Newest s ρ →
    tokenHash ∉ s.presented → s.now < ρ.expiresAt →
    NormalEmail crypto s ρ.userId →
    (s.consume crypto tokenHash).2 = .hashing ρ
  /-- What the request writes in the end is written. -/
  write : ∀ n ρ passwordHash, s.phase n = .hashing ρ → Newest s ρ →
    NormalEmail crypto s ρ.userId →
    let s' := s.proceed crypto n passwordHash none
    s'.history ρ.userId = s.history ρ.userId ++ [.reset ρ.passwordGeneration]
      ∧ ∃ r r', s.auth.row? ρ.userId = some r
        ∧ s'.auth.row? ρ.userId = some r'
        ∧ r'.security.passwordHash = some passwordHash
        ∧ r'.security.sessionVersion = r.security.sessionVersion + 1

/-- The row that is matched, with an address in normal form. -/
theorem Matches.normal (h : Matches crypto s ρ) (hnewest : Newest s ρ)
    (hnormal : NormalEmail crypto s ρ.userId) :
    ∃ r, s.auth.row? ρ.userId = some r
      ∧ r.passwordGeneration = ρ.passwordGeneration
      ∧ r.emailGeneration = ρ.emailGeneration
      ∧ r.email = ρ.expectedEmail
      ∧ normalizeEmail crypto ρ.expectedEmail = ρ.expectedEmail := by
  obtain ⟨r, hr, -, hcurrent⟩ := h
  obtain ⟨hexpected, hemail, hpassword⟩ := hcurrent hnewest
  have haddress : r.email = ρ.expectedEmail := by
    rw [← hexpected]
    exact (hnormal r hr).symm
  refine ⟨r, hr, hpassword, hemail, haddress, ?_⟩
  rw [← haddress]
  exact hnormal r hr

/-- The newest link is found, is current, and leads to the new password: the
script finds its record and the active one equal, and the row still has the
generations that the record names. -/
theorem Tidy.works (h : Tidy crypto s)
    (hlower : ∀ x, crypto.lower (crypto.lower x) = crypto.lower x) :
    Works crypto s where
  consume tokenHash ρ hlink hnewest hnew hlive hnormal := by
    obtain ⟨-, -, -, -, -, hexpected⟩ :=
      (h.row ρ (Or.inr ⟨tokenHash, hlink⟩)).normal hnewest hnormal
    have hheld : Held s (tokenHash, ρ) := h.held _ hlink hnewest hnew hlive
    have hstored : s.auth.store.passwordReset tokenHash = some ρ := hheld.stored
    have hactive : s.auth.store.passwordResetActive ρ.userId
        = some (ρ.passwordGeneration, tokenHash) := hheld.active
    unfold consume SessionStore.consumeReset
    rw [hstored]
    dsimp only
    rw [hactive, beq_self_eq_true, if_neg (Nat.not_le.mpr hlive),
      if_neg (fun hnot => hnot rfl)]
    exact if_pos hexpected
  write n ρ passwordHash hphase hnewest hnormal := by
    obtain ⟨r, hr, hpassword, hemail, haddress, -⟩ :=
      (h.row ρ (Or.inl ⟨n, by rw [hphase]; rfl⟩)).normal hnewest hnormal
    have hid : r.id = ρ.userId := Table.key_of_find? hr
    have hlowered : crypto.lower r.email = ρ.expectedEmail := by
      rw [← haddress, ← hnormal r hr]
      exact hlower _
    have hwrite : s.writePassword crypto ρ passwordHash
        = ((({ s with auth := s.auth.updateUser r.id (fun r => { r with
            security := { r.security with
              passwordHash := some passwordHash
              sessionVersion := r.security.sessionVersion + 1 }
            passwordGeneration := r.passwordGeneration + 1 }) fun _ => rfl }
            : ResetSystem).log ρ.userId (.reset ρ.passwordGeneration)),
          .revoke ρ.userId) := by
      unfold writePassword AuthSystem.writePassword
      rw [hr]
      dsimp only
      have hguard : r.passwordGeneration = ρ.passwordGeneration
          ∧ r.emailGeneration = ρ.emailGeneration
          ∧ crypto.lower r.email = ρ.expectedEmail :=
        ⟨hpassword, hemail, hlowered⟩
      simp only [if_pos hguard, if_true]
    have hproceed : s.proceed crypto n passwordHash none
        = s.perform n none (s.writePassword crypto ρ passwordHash) := by
      unfold proceed
      rw [hphase]
    rw [hproceed, hwrite]
    refine ⟨Function.update_self _ _ _, r, { r with
      security := { r.security with
        passwordHash := some passwordHash
        sessionVersion := r.security.sessionVersion + 1 }
      passwordGeneration := r.passwordGeneration + 1 }, hr, ?_, rfl, rfl⟩
    change (s.auth.updateUser r.id _ _).row? ρ.userId = _
    rw [AuthSystem.row?_updateUser, hr, Option.map_some, if_pos rfl]

/-- In every state that requests and transactions lead to, the newest link
of a user works: presented for the first time and in time it lets a reset
go on, and that reset writes the new password. Older requests that are
still on their way cannot take it back, since each of them removes no key
but its own. -/
theorem newest_link_works (crypto : AuthCrypto)
    (hlower : ∀ x, crypto.lower (crypto.lower x) = crypto.lower x)
    (auth : AuthSystem) (now : Timestamp) (events : List ResetEvent) :
    Works crypto (run (step crypto) (opening auth now) events) :=
  (run_keeps (P := Tidy crypto) (fun _ e hs => step_tidy hs e)
    (opening_tidy auth now) events).works hlower

/-- The link that the owner is sent. -/
def ownersLink : PasswordResetTokenRecord where
  userId := ⟨1⟩
  expectedEmail := "seller@skrynia.store"
  emailGeneration := 1
  passwordGeneration := 2
  expiresAt := passwordResetTtlMs

/-- The owner's newest link is accepted. -/
theorem newest_link_works_owner :
    ((run (step AuthSystem.openCrypto) (opening noAccounts 0)
      (requestAndReset.take 5)).consume AuthSystem.openCrypto "link").2
      = .hashing ownersLink :=
  (newest_link_works AuthSystem.openCrypto (fun _ => rfl) noAccounts 0
    (requestAndReset.take 5)).consume "link" ownersLink (by decide +kernel)
    (by unfold Newest; decide +kernel) (by decide +kernel)
    (by decide +kernel) (by
      intro r hr
      have howner : some { owner with passwordGeneration := 2 } = some r := hr
      obtain rfl := Option.some.inj howner
      decide)

end ResetSystem

end Skrynia
