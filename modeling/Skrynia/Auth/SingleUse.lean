/-
Second factors are single use, under every schedule of the transactions.

# The argument

- `Proceeds n t s s'`: what a statement of a transaction leaves: every
  cell sound, every published history extended, the tokens as they were,
  and the other transactions where they were. `Live` is the same of a
  transaction that was not rolled back. One lemma a primitive, then one a
  statement.
- `TokensOnce`: a token counts once among what Redis has, what a login is
  about to use, and the sessions.
- `AcceptancesStored`: a code is accepted in the step that appends it, no
  later step takes the entry from the transaction, and COMMIT publishes
  it. So the histories that are said to be without repetition are those
  of all codes that were accepted.
- `secondFactors_singleUse` reads these off after a run.
-/
import Skrynia.Auth.AcceptedCodes

namespace Skrynia

open Relational Stepping

-- ============================================================== promises

/-- What a history recorded stays recorded. -/
def MethodVersion.Later (v v' : MethodVersion) : Prop := v.log <+: v'.log

/-- The same of the backup codes that were accepted. -/
def CodesVersion.Later (v v' : CodesVersion) : Prop := v.log <+: v'.log

/-- A history extends itself. -/
theorem MethodVersion.Later.refl (v : MethodVersion) : v.Later v :=
  List.prefix_refl _

/-- Extending a history twice extends it. -/
theorem MethodVersion.Later.trans {v v' v'' : MethodVersion}
    (h : v.Later v') (h' : v'.Later v'') : v.Later v'' :=
  List.IsPrefix.trans h h'

/-- A history extends itself. -/
theorem CodesVersion.Later.refl (v : CodesVersion) : v.Later v :=
  List.prefix_refl _

/-- Extending a history twice extends it. -/
theorem CodesVersion.Later.trans {v v' v'' : CodesVersion}
    (h : v.Later v') (h' : v'.Later v'') : v.Later v'' :=
  List.IsPrefix.trans h h'

/-- Every version of a method, published or uncommitted, is sound and extends
the published one. -/
abbrev SoundMethod (c : Cell MethodVersion) : Prop :=
  c.Sound MethodVersion.Sound MethodVersion.Later

/-- The same of the backup codes. -/
abbrev SoundCodes (c : Cell CodesVersion) : Prop :=
  c.Sound CodesVersion.Sound CodesVersion.Later

namespace TwoFactorSystem

section Writes

variable (s : TwoFactorSystem) (u v : Uuid) (n m : Nat)

/-- A transaction is where it was put, and the others where they were. -/
theorem tx_setTx (t : Option SecurityTx) :
    (s.setTx n t).tx m = if m = n then t else s.tx m :=
  Function.update_apply _ _ _ _

/-- One user's method is written, and no other. -/
theorem method_setMethod (c : Cell MethodVersion) :
    (s.setMethod u c).method v = if v = u then c else s.method v :=
  Function.update_apply _ _ _ _

/-- One user's codes are written, and no others. -/
theorem codes_setCodes (c : Cell CodesVersion) :
    (s.setCodes u c).codes v = if v = u then c else s.codes v :=
  Function.update_apply _ _ _ _

end Writes

/-- The token that a transaction is about to turn into a session. -/
def issuing (s : TwoFactorSystem) (n : Nat) : Option Nat :=
  (s.tx n).bind fun t =>
    match t.phase with
    | .issue token => some token.jti
    | _ => none

/-- The histories that transaction `m` sees lose nothing from `s` to `s'`:
its own drafts where it has the lock, else what is committed. -/
def Keeps (s s' : TwoFactorSystem) (m : Nat) : Prop :=
  ∀ u, ((s.method u).seen m).Later ((s'.method u).seen m)
    ∧ ((s.codes u).seen m).Later ((s'.codes u).seen m)

/-- What transaction `n`, which is `t`, does from `s` to `s'`: the cells are sound and
their histories only grew, no token moved, and every other transaction is
where it was, with what it saw. -/
structure Proceeds (n : Nat) (t : SecurityTx) (s s' : TwoFactorSystem) :
    Prop where
  method : ∀ u, SoundMethod (s'.method u)
  methodLater : ∀ u, (s.method u).value.Later (s'.method u).value
  codes : ∀ u, SoundCodes (s'.codes u)
  codesLater : ∀ u, (s.codes u).value.Later (s'.codes u).value
  tokens : s'.tokens = s.tokens
  pending : s'.pending = s.pending
  sessions : s'.sessions = s.sessions
  issuing : ∀ m, s'.issuing m = s.issuing m ∨ s'.issuing m = none
  request : ∀ t', s'.tx n = some t' →
    s.tx n = some t' ∨ t'.request = t.request
  others : ∀ m, m ≠ n → s'.tx m = s.tx m
  kept : ∀ m, m ≠ n → Keeps s s' m
  own : s'.tx n = none ∨ Keeps s s' n

/-- The same of a transaction that is not rolled back: it still has its
drafts. -/
structure Live (n : Nat) (t : SecurityTx) (s s' : TwoFactorSystem) : Prop
    extends Proceeds n t s s' where
  mine : Keeps s s' n

/-- A state keeps its own transaction. -/
theorem Keeps.refl (s : TwoFactorSystem) (m : Nat) : Keeps s s m :=
  fun _ => ⟨.refl _, .refl _⟩

/-- Not about to issue a session. -/
def Quiet (t : Option SecurityTx) : Prop :=
  ∀ t' ∈ t, ∀ token, t'.phase ≠ .issue token

/-- A transaction that is not about to issue has no token in hand. -/
theorem issuing_of_quiet {s : TwoFactorSystem} {n : Nat}
    (h : Quiet (s.tx n)) : s.issuing n = none := by
  unfold issuing
  cases ht : s.tx n with
  | none => rfl
  | some t =>
      rw [Option.bind_some]
      split
      · next token hphase => exact absurd hphase (h t ht token)
      · rfl

namespace Live

variable {s s' : TwoFactorSystem} {n : Nat} {t : SecurityTx}

/-- Nothing has happened in a sound state yet. -/
theorem refl (n : Nat) (t : SecurityTx) (hmethod : ∀ u, SoundMethod (s.method u))
    (hcodes : ∀ u, SoundCodes (s.codes u)) : Live n t s s where
  method := hmethod
  methodLater := fun _ => .refl _
  codes := hcodes
  codesLater := fun _ => .refl _
  tokens := rfl
  pending := rfl
  sessions := rfl
  issuing := fun _ => Or.inl rfl
  request := fun _ => Or.inl
  others := fun _ _ => rfl
  kept := fun m _ => .refl s m
  own := Or.inr (.refl s n)
  mine := .refl s n

-- ----------------------------------------------------------- primitives

/-- The transaction goes on to another phase of the same request. -/
theorem setTx (h : Live n t s s') {t' : Option SecurityTx} (ht : Quiet t')
    (hrequest : ∀ t'' ∈ t', t''.request = t.request) :
    Live n t s (s'.setTx n t') where
  method := h.method
  methodLater := h.methodLater
  codes := h.codes
  codesLater := h.codesLater
  tokens := h.tokens
  pending := h.pending
  sessions := h.sessions
  issuing := by
    intro m
    by_cases hm : m = n
    · right
      apply issuing_of_quiet
      rw [tx_setTx, if_pos hm]
      exact ht
    · have hother : (s'.setTx n t').issuing m = s'.issuing m := by
        unfold TwoFactorSystem.issuing
        rw [tx_setTx, if_neg hm]
      rw [hother]
      exact h.issuing m
  request := by
    intro t'' ht''
    rw [tx_setTx, if_pos rfl] at ht''
    exact Or.inr (hrequest t'' ht'')
  others := by
    intro m hm
    rw [tx_setTx, if_neg hm]
    exact h.others m hm
  kept := h.kept
  own := Or.inr h.mine
  mine := h.mine

/-- A user's row has no history. -/
theorem setUser (h : Live n t s s') (u : Uuid) (c : Cell UserSecurity) :
    Live n t s (s'.setUser u c) :=
  { h with own := Or.inr h.mine }

/-- A new authenticator cell in which nobody sees less than before. -/
theorem setMethod (h : Live n t s s') {u : Uuid} {c : Cell MethodVersion}
    (hc : SoundMethod c) (hlater : (s'.method u).value.Later c.value)
    (hseen : ∀ m, ((s'.method u).seen m).Later (c.seen m)) :
    Live n t s (s'.setMethod u c) := by
  have hkeeps : ∀ m, Keeps s s' m → Keeps s (s'.setMethod u c) m := by
    intro m hm v
    refine ⟨?_, (hm v).2⟩
    rw [method_setMethod]
    split
    · next hv =>
        rw [hv]
        exact (hm u).1.trans (hseen m)
    · exact (hm v).1
  exact {
    method := by
      intro v
      rw [method_setMethod]
      split
      · exact hc
      · exact h.method v
    methodLater := by
      intro v
      rw [method_setMethod]
      split
      · next hv =>
          rw [hv]
          exact (h.methodLater u).trans hlater
      · exact h.methodLater v
    codes := h.codes
    codesLater := h.codesLater
    tokens := h.tokens
    pending := h.pending
    sessions := h.sessions
    issuing := h.issuing
    request := h.request
    others := h.others
    kept := fun m hm => hkeeps m (h.kept m hm)
    own := Or.inr (hkeeps n h.mine)
    mine := hkeeps n h.mine }

/-- The codes are written with a cell that is sound, and whose histories
extend the old ones. -/
theorem setCodes (h : Live n t s s') {u : Uuid} {c : Cell CodesVersion}
    (hc : SoundCodes c) (hlater : (s'.codes u).value.Later c.value)
    (hseen : ∀ m, ((s'.codes u).seen m).Later (c.seen m)) :
    Live n t s (s'.setCodes u c) := by
  have hkeeps : ∀ m, Keeps s s' m → Keeps s (s'.setCodes u c) m := by
    intro m hm v
    refine ⟨(hm v).1, ?_⟩
    rw [codes_setCodes]
    split
    · next hv =>
        rw [hv]
        exact (hm u).2.trans (hseen m)
    · exact (hm v).2
  exact {
    method := h.method
    methodLater := h.methodLater
    codes := by
      intro v
      rw [codes_setCodes]
      split
      · exact hc
      · exact h.codes v
    codesLater := by
      intro v
      rw [codes_setCodes]
      split
      · next hv =>
          rw [hv]
          exact (h.codesLater u).trans hlater
      · exact h.codesLater v
    tokens := h.tokens
    pending := h.pending
    sessions := h.sessions
    issuing := h.issuing
    request := h.request
    others := h.others
    kept := fun m hm => hkeeps m (h.kept m hm)
    own := Or.inr (hkeeps n h.mine)
    mine := hkeeps n h.mine }

/-- The transaction goes on, and not to the issue of a session. -/
theorem goto (h : Live n t s s') {p : SecurityPhase}
    (hp : ∀ token, p ≠ .issue token) : Proceeds n t s (s'.goto n t p) := by
  apply (h.setTx _ _).toProceeds
  · intro t' ht'
    cases ht'
    exact hp
  · intro t' ht'
    cases ht'
    rfl

/-- A rollback takes its drafts along, which nobody else saw: the published
versions are as they were, and no other transaction is touched. -/
theorem rollback (h : Live n t s s') : Proceeds n t s (s'.rollback n t) where
  method := by
    intro v
    show SoundMethod ((s'.setMethod t.userId _).method v)
    rw [method_setMethod]
    split
    · exact (h.method t.userId).discard
    · exact h.method v
  methodLater := by
    intro v
    show (s.method v).value.Later ((s'.setMethod t.userId _).method v).value
    rw [method_setMethod]
    split
    · next hv =>
        rw [hv, Cell.value_discard]
        exact h.methodLater t.userId
    · exact h.methodLater v
  codes := by
    intro v
    show SoundCodes ((s'.setCodes t.userId _).codes v)
    rw [codes_setCodes]
    split
    · exact (h.codes t.userId).discard
    · exact h.codes v
  codesLater := by
    intro v
    show (s.codes v).value.Later ((s'.setCodes t.userId _).codes v).value
    rw [codes_setCodes]
    split
    · next hv =>
        rw [hv, Cell.value_discard]
        exact h.codesLater t.userId
    · exact h.codesLater v
  tokens := h.tokens
  pending := h.pending
  sessions := h.sessions
  issuing := by
    have hnone : Live n t s (s'.setTx n none) := by
      apply h.setTx
      · intro t' ht'
        cases ht'
      · intro t' ht'
        cases ht'
    exact hnone.issuing
  request := by
    intro t' ht'
    rw [tx_rollback] at ht'
    cases ht'
  others := by
    intro m hm
    show (s'.setTx n none).tx m = s.tx m
    rw [tx_setTx, if_neg hm]
    exact h.others m hm
  kept := by
    intro m hm v
    constructor
    · show ((s.method v).seen m).Later
        (((s'.setMethod t.userId _).method v).seen m)
      rw [method_setMethod]
      split
      · next hv =>
          rw [hv, Cell.seen_discard_of_ne hm]
          exact (h.kept m hm t.userId).1
      · exact (h.kept m hm v).1
    · show ((s.codes v).seen m).Later
        (((s'.setCodes t.userId _).codes v).seen m)
      rw [codes_setCodes]
      split
      · next hv =>
          rw [hv, Cell.seen_discard_of_ne hm]
          exact (h.kept m hm t.userId).2
      · exact (h.kept m hm v).2
  own := Or.inl tx_rollback

/-- A refusal ends the transaction or asks again. -/
theorem refuse (h : Live n t s s') : Proceeds n t s (s'.refuse n t) := by
  unfold TwoFactorSystem.refuse
  split
  · exact h.goto nofun
  · exact h.rollback

/-- An acceptance goes on to COMMIT. -/
theorem accepted (h : Live n t s s') : Proceeds n t s (s'.accepted n t) := by
  unfold TwoFactorSystem.accepted
  split
  · exact h.goto nofun
  · exact h.goto nofun

/-- A statement that keeps the promise of the row it sees. -/
theorem updateMethod (h : Live n t s s')
    {f : MethodVersion → MethodVersion}
    {next : TwoFactorSystem → TwoFactorSystem}
    (hf : (((s'.method t.userId).seen n).Sound →
      (f ((s'.method t.userId).seen n)).Sound
        ∧ ((s'.method t.userId).seen n).Later
          (f ((s'.method t.userId).seen n))))
    (hnext : ∀ s'', Live n t s s'' → Proceeds n t s (next s'')) :
    Proceeds n t s (s'.updateMethod n t f next) := by
  rcases updateMethod_cases s' n t f next with hwait | ⟨c, hc, heq⟩
  · rw [hwait]
    exact h.toProceeds
  · rw [heq]
    apply hnext
    have hsound := (h.method t.userId).acquire MethodVersion.Later.refl hc
    obtain ⟨hdraft, hvalue⟩ := Cell.draft_acquire hc
    have hseen := Cell.seen_acquire hc
    obtain ⟨-, hlater⟩ := hf ((h.method t.userId).seen n)
    apply setMethod h
    · apply hsound.edit .trans
      intro v hv
      rw [hdraft, hseen] at hv
      cases hv
      exact hf
    · rw [Cell.value_edit, hvalue]
      exact .refl _
    · intro m
      by_cases hm : m = n
      · rw [hm, Cell.seen_edit_self hdraft, hseen]
        exact hlater
      · rw [Cell.seen_edit_of_ne hm, hseen]
        exact .refl _

/-- An update of the codes waits for their lock, or extends the history that
the transaction sees. -/
theorem updateCodes (h : Live n t s s')
    {f : CodesVersion → CodesVersion}
    {next : TwoFactorSystem → TwoFactorSystem}
    (hf : (((s'.codes t.userId).seen n).Sound →
      (f ((s'.codes t.userId).seen n)).Sound
        ∧ ((s'.codes t.userId).seen n).Later
          (f ((s'.codes t.userId).seen n))))
    (hnext : ∀ s'', Live n t s s'' → Proceeds n t s (next s'')) :
    Proceeds n t s (s'.updateCodes n t f next) := by
  rcases updateCodes_cases s' n t f next with hwait | ⟨c, hc, heq⟩
  · rw [hwait]
    exact h.toProceeds
  · rw [heq]
    apply hnext
    have hsound := (h.codes t.userId).acquire CodesVersion.Later.refl hc
    obtain ⟨hdraft, hvalue⟩ := Cell.draft_acquire hc
    have hseen := Cell.seen_acquire hc
    obtain ⟨-, hlater⟩ := hf ((h.codes t.userId).seen n)
    apply setCodes h
    · apply hsound.edit .trans
      intro v hv
      rw [hdraft, hseen] at hv
      cases hv
      exact hf
    · rw [Cell.value_edit, hvalue]
      exact .refl _
    · intro m
      by_cases hm : m = n
      · rw [hm, Cell.seen_edit_self hdraft, hseen]
        exact hlater
      · rw [Cell.seen_edit_of_ne hm, hseen]
        exact .refl _

/-- A lock of the method waits, finds it missing or finds it. -/
theorem lockMethod (h : Live n t s s')
    {missing found : TwoFactorSystem → TwoFactorSystem}
    (hmissing : ∀ s'', Live n t s s'' → Proceeds n t s (missing s''))
    (hfound : ∀ s'', Live n t s s'' → Proceeds n t s (found s'')) :
    Proceeds n t s (s'.lockMethod n t missing found) := by
  unfold TwoFactorSystem.lockMethod
  split
  · exact hmissing s' h
  · apply h.updateMethod _ hfound
    intro hsound
    exact ⟨hsound, .refl _⟩

-- ----------------------------------------------------------- statements

/-- The first statement checks the password. -/
theorem selectUser (h : Live n t s s')
    (verifyPassword : String → String → Bool) :
    Proceeds n t s (s'.selectUser verifyPassword n t) := by
  unfold TwoFactorSystem.selectUser
  split
  · exact h.toProceeds
  · next c _ =>
      have hlocked := h.setUser t.userId c
      dsimp only
      split
      · split
        · split
          · exact hlocked.goto nofun
          · exact hlocked.goto nofun
          · exact hlocked.rollback
        · exact hlocked.goto nofun
      · split
        · split
          · exact hlocked.goto nofun
          · exact hlocked.goto nofun
          · exact hlocked.rollback
        · exact hlocked.rollback
      · split
        · split
          · exact hlocked.goto nofun
          · exact hlocked.goto nofun
          · exact hlocked.rollback
        · exact hlocked.rollback
      · exact hlocked.goto nofun

/-- A code that matches is appended where its counter is above the last
one. -/
theorem matchCode (h : Live n t s s') (crypto : SecondFactorCrypto)
    (code : String) (now : Timestamp) :
    Proceeds n t s (s'.matchCode crypto n t code now) := by
  unfold TwoFactorSystem.matchCode
  dsimp only
  split
  · exact h.refuse
  · next secret hactive =>
      split
      · next counter _ =>
          split
          · next hadvances =>
              apply h.updateMethod
              · intro hsound
                exact ⟨hsound.accept hactive hadvances,
                  List.prefix_append _ _⟩
              · exact fun s'' h'' => h''.accepted
          · exact h.refuse
      · split
        · exact h.goto nofun
        · exact h.refuse

/-- Looking for a backup code writes nothing. -/
theorem selectBackupCodes (h : Live n t s s') (crypto : SecondFactorCrypto)
    (code : String) : Proceeds n t s (s'.selectBackupCodes crypto n t code) := by
  unfold TwoFactorSystem.selectBackupCodes
  split
  · exact h.goto nofun
  · exact h.refuse

/-- A backup code that is unused is marked, and appended. -/
theorem consumeBackupCode (h : Live n t s s') (id : Nat) (now : Timestamp) :
    Proceeds n t s (s'.consumeBackupCode n t id now) := by
  unfold TwoFactorSystem.consumeBackupCode
  split
  · next hunused =>
      apply h.updateCodes
      · intro hsound
        exact ⟨hsound.accept hunused now, List.prefix_append _ _⟩
      · exact fun s'' h'' => h''.accepted
  · exact h.refuse

/-- A confirmation appends the code of the pending secret. -/
theorem confirmPending (h : Live n t s s') (crypto : SecondFactorCrypto)
    (code : String) (now : Timestamp) :
    Proceeds n t s (s'.confirmPending crypto n t code now) := by
  unfold TwoFactorSystem.confirmPending
  split
  · exact h.rollback
  · split
    · apply h.updateMethod
      · intro hsound
        exact ⟨hsound.clearPending, .refl _⟩
      · exact fun s'' h'' => h''.goto nofun
    · split
      · exact h.rollback
      · exact h.goto nofun

/-- The migration of a method keeps what was accepted. -/
theorem later_migrate (v : MethodVersion) : v.Later v.migrate := by
  unfold MethodVersion.Later MethodVersion.migrate
  split
  · exact List.prefix_refl _
  · split
    · exact List.prefix_refl _
    · split
      · exact List.prefix_append _ _
      · exact List.prefix_refl _

/-- A setup replaces the pending secret. -/
theorem write (h : Live n t s s') (crypto : SecondFactorCrypto)
    (now : Timestamp) : Proceeds n t s (s'.write crypto n t now) := by
  unfold TwoFactorSystem.write
  split
  · next secret _ _ =>
      apply h.updateMethod
      · intro hsound
        exact ⟨hsound.setPending secret now, .refl _⟩
      · exact fun s'' h'' => h''.goto nofun
  · next code _ =>
      apply h.lockMethod
      · exact fun s'' h'' => h''.rollback
      · exact fun s'' h'' => h''.confirmPending crypto code now
  · apply h.lockMethod
    · exact fun s'' h'' => h''.rollback
    · intro s'' h''
      split
      · exact h''.goto nofun
      · exact h''.rollback
  · apply h.updateCodes
    · intro hsound
      exact ⟨hsound.regenerate [], List.prefix_append _ _⟩
    · exact fun s'' h'' => h''.goto nofun
  · apply h.lockMethod
    · exact fun s'' h'' => h''.rollback
    · intro s'' h''
      apply h''.updateMethod
      · intro hsound
        exact ⟨hsound.migrate, later_migrate _⟩
      · exact fun s'' h'' => h''.goto nofun
  · exact h.rollback

/-- New codes come after the old ones are gone; the history stays. -/
theorem replaceCodes (h : Live n t s s')
    (confirmed : Option (String × Nat)) (now : Timestamp)
    (hashes : List String) :
    Proceeds n t s (s'.replaceCodes n t confirmed now hashes) := by
  unfold TwoFactorSystem.replaceCodes
  apply h.updateCodes
  · intro hsound
    exact ⟨hsound.regenerate hashes, List.prefix_append _ _⟩
  · intro s'' h''
    split
    · next secret counter =>
        apply h''.updateMethod
        · intro hsound
          exact ⟨hsound.confirm secret counter now, List.prefix_append _ _⟩
        · exact fun s'' h'' => (h''.setUser _ _).goto nofun
    · exact (h''.setUser _ _).goto nofun

/-- The method is removed, and its history stays. -/
theorem deleteMethod (h : Live n t s s') :
    Proceeds n t s (s'.deleteMethod n t) := by
  unfold TwoFactorSystem.deleteMethod
  apply h.updateMethod
  · intro hsound
    exact ⟨hsound.remove, List.prefix_append _ _⟩
  · exact fun s'' h'' => (h''.setUser _ _).goto nofun

/-- COMMIT publishes what the transaction saw. -/
theorem commit (h : Live n t s s') (accepted : Bool) :
    Proceeds n t s (s'.commit n t accepted) := by
  unfold TwoFactorSystem.commit
  apply (setTx _ _ _).toProceeds
  · have hmethod := h.method t.userId
    have hcodes := h.codes t.userId
    apply setCodes
    · apply setMethod (h.setUser _ _)
      · exact hmethod.publish
      · exact hmethod.publish_later MethodVersion.Later.refl
      · exact hmethod.seen_publish MethodVersion.Later.refl
    · exact hcodes.publish
    · exact hcodes.publish_later CodesVersion.Later.refl
    · exact hcodes.seen_publish CodesVersion.Later.refl
  · split
    · split
      · intro t' ht'
        cases ht'
        exact fun _ h => by cases h
      · exact fun _ h => by cases h
    · exact fun _ h => by cases h
  · split
    · split
      · intro t' ht'
        cases ht'
        rfl
      · exact fun _ h => by cases h
    · exact fun _ h => by cases h

end Live

/-- Whoever is still under way after a statement has kept what it saw. -/
theorem Proceeds.keeps {s s' : TwoFactorSystem} {n m : Nat} {t t' : SecurityTx}
    (h : Proceeds n t s s') (ht' : s'.tx m = some t') : Keeps s s' m := by
  by_cases hm : m = n
  · subst hm
    rcases h.own with hnone | hkeeps
    · rw [hnone] at ht'
      cases ht'
    · exact hkeeps
  · exact h.kept m hm

-- ================================================================ tokens

/-- A token is in Redis, with one login, or in one session. -/
structure TokensOnce (s : TwoFactorSystem) : Prop where
  pending : ∀ j, s.pending j = true →
    j < s.tokens.length ∧ j ∉ s.sessions ∧ ∀ n, s.issuing n ≠ some j
  issuing : ∀ n j, s.issuing n = some j →
    j < s.tokens.length ∧ j ∉ s.sessions
  oneLogin : ∀ n n' j, s.issuing n = some j → s.issuing n' = some j → n = n'
  sessions : s.sessions.Nodup
  issued : ∀ j ∈ s.sessions, j < s.tokens.length

namespace TokensOnce

variable {s s' : TwoFactorSystem} {n : Nat} {t : SecurityTx}
  {token : PendingToken}

/-- Fewer keys, and logins that gave up. -/
theorem of_fewer (h : TokensOnce s) (htokens : s'.tokens = s.tokens)
    (hsessions : s'.sessions = s.sessions)
    (hpending : ∀ j, s'.pending j = true → s.pending j = true)
    (hissuing : ∀ m, s'.issuing m = s.issuing m ∨ s'.issuing m = none) :
    TokensOnce s' := by
  have hwas : ∀ m j, s'.issuing m = some j → s.issuing m = some j := by
    intro m j hj
    rcases hissuing m with hsame | hnone
    · exact hsame.symm.trans hj
    · rw [hnone] at hj
      cases hj
  constructor
  · intro j hj
    rw [htokens, hsessions]
    obtain ⟨hlt, hfresh, hfree⟩ := h.pending j (hpending j hj)
    exact ⟨hlt, hfresh, fun m hm => hfree m (hwas m j hm)⟩
  · intro m j hj
    rw [htokens, hsessions]
    exact h.issuing m j (hwas m j hj)
  · intro m m' j hj hj'
    exact h.oneLogin m m' j (hwas m j hj) (hwas m' j hj')
  · rw [hsessions]
    exact h.sessions
  · rw [hsessions, htokens]
    exact h.issued

/-- A step that moves no token counts each one as before. -/
theorem of_proceeds (h : TokensOnce s) (hs : Proceeds n t s s') :
    TokensOnce s' := by
  apply h.of_fewer hs.tokens hs.sessions _ hs.issuing
  rw [hs.pending]
  exact fun j hj => hj

/-- What another transaction is about to issue is left alone. -/
theorem issuing_setTx (s : TwoFactorSystem) (n m : Nat)
    (t : Option SecurityTx) :
    (s.setTx n t).issuing m
      = if m = n then (s.setTx n t).issuing n else s.issuing m := by
  by_cases hm : m = n
  · rw [if_pos hm, hm]
  · rw [if_neg hm]
    unfold TwoFactorSystem.issuing
    rw [tx_setTx, if_neg hm]

/-- A transaction on its way to a session has its token in hand. -/
theorem issuing_goto (s : TwoFactorSystem) (n : Nat) (t : SecurityTx)
    (token : PendingToken) :
    (s.goto n t (.issue token)).issuing n = some token.jti := by
  unfold TwoFactorSystem.issuing goto
  rw [tx_setTx, if_pos rfl]
  rfl

/-- A login that ends without a session. -/
theorem leave (h : TokensOnce s) : TokensOnce (s.setTx n none) := by
  refine of_fewer h ?_ ?_ ?_ ?_
  · rfl
  · rfl
  · exact fun _ hj => hj
  · intro m
    rw [issuing_setTx]
    split
    · right
      unfold TwoFactorSystem.issuing
      rw [tx_setTx, if_pos rfl]
      rfl
    · exact Or.inl rfl

/-- GETDEL gives the token to one login. -/
theorem redeem (h : TokensOnce s) : TokensOnce (s.redeem n t token) := by
  unfold TwoFactorSystem.redeem
  split
  · next hheld =>
      obtain ⟨hlt, hfresh, hfree⟩ := h.pending token.jti hheld
      have hissuing : ∀ m j, (s.goto n t (.issue token)).issuing m = some j →
          m = n ∧ j = token.jti ∨ s.issuing m = some j := by
        intro m j hj
        by_cases hm : m = n
        · rw [hm, issuing_goto] at hj
          exact Or.inl ⟨hm, (Option.some.inj hj).symm⟩
        · rw [goto, issuing_setTx, if_neg hm] at hj
          exact Or.inr hj
      constructor
      · intro j hj
        replace hj : Function.update s.pending token.jti false j = true := hj
        rw [Function.update_apply] at hj
        split at hj
        · cases hj
        · next hne =>
            obtain ⟨hltj, hfreshj, hfreej⟩ := h.pending j hj
            refine ⟨hltj, hfreshj, ?_⟩
            intro m hm
            rcases hissuing m j hm with ⟨-, heq⟩ | hold
            · exact hne heq
            · exact hfreej m hold
      · intro m j hj
        rcases hissuing m j hj with ⟨-, rfl⟩ | hold
        · exact ⟨hlt, hfresh⟩
        · exact h.issuing m j hold
      · intro m m' j hj hj'
        rcases hissuing m j hj with ⟨rfl, rfl⟩ | hold
        · rcases hissuing m' _ hj' with ⟨rfl, -⟩ | hold'
          · rfl
          · exact absurd hold' (hfree m')
        · rcases hissuing m' j hj' with ⟨rfl, rfl⟩ | hold'
          · exact absurd hold (hfree m)
          · exact h.oneLogin m m' j hold hold'
      · exact h.sessions
      · exact h.issued
  · exact h.leave

/-- The login that has the token uses it up. -/
theorem issue (h : TokensOnce s) (hmine : s.issuing n = some token.jti) :
    TokensOnce (s.issue n t token) := by
  obtain ⟨hlt, hfresh⟩ := h.issuing n token.jti hmine
  unfold TwoFactorSystem.issue
  split
  · have hissuing : ∀ m j, (s.setTx n none).issuing m = some j →
        m ≠ n ∧ s.issuing m = some j := by
      intro m j hj
      rw [issuing_setTx] at hj
      split at hj
      · unfold TwoFactorSystem.issuing at hj
        rw [tx_setTx, if_pos rfl] at hj
        cases hj
      · next hm => exact ⟨hm, hj⟩
    constructor
    · intro j hj
      obtain ⟨hltj, hfreshj, hfreej⟩ := h.pending j hj
      refine ⟨hltj, ?_, ?_⟩
      · intro hmem
        rcases List.mem_append.mp hmem with hmem | hmem
        · exact hfreshj hmem
        · rw [List.mem_singleton.mp hmem] at hfreej
          exact hfreej n hmine
      · exact fun m hm => hfreej m (hissuing m j hm).2
    · intro m j hj
      obtain ⟨hne, hold⟩ := hissuing m j hj
      obtain ⟨hltj, hfreshj⟩ := h.issuing m j hold
      refine ⟨hltj, ?_⟩
      intro hmem
      rcases List.mem_append.mp hmem with hmem | hmem
      · exact hfreshj hmem
      · rw [List.mem_singleton.mp hmem] at hold
        exact hne (h.oneLogin m n _ hold hmine)
    · intro m m' j hj hj'
      exact h.oneLogin m m' j (hissuing m j hj).2 (hissuing m' j hj').2
    · apply List.nodup_append.mpr
      refine ⟨h.sessions, List.nodup_singleton _, ?_⟩
      intro a ha b hb heq
      rw [List.mem_singleton.mp hb] at heq
      exact hfresh (heq ▸ ha)
    · intro j hj
      rcases List.mem_append.mp hj with hj | hj
      · exact h.issued j hj
      · rw [List.mem_singleton.mp hj]
        exact hlt
  · exact h.leave

/-- A new token is like no other. -/
theorem issuePending (h : TokensOnce s) (userId : Uuid) :
    TokensOnce (s.issuePending userId) := by
  unfold TwoFactorSystem.issuePending
  split
  · have hlonger : ∀ j, j < s.tokens.length →
        j < (s.tokens ++ [(⟨s.tokens.length, userId,
          (s.user userId).value.sessionVersion⟩ : PendingToken)]).length := by
      intro j hj
      rw [List.length_append]
      exact Nat.lt_add_right _ hj
    constructor
    · intro j hj
      replace hj : Function.update s.pending s.tokens.length true j = true :=
        hj
      rw [Function.update_apply] at hj
      split at hj
      · next hnew =>
          rw [hnew]
          refine ⟨?_, ?_, ?_⟩
          · rw [List.length_append]
            exact Nat.lt_succ_self _
          · exact fun hmem => absurd (h.issued _ hmem) (Nat.lt_irrefl _)
          · exact fun m hm => absurd (h.issuing m _ hm).1 (Nat.lt_irrefl _)
      · obtain ⟨hlt, hfresh, hfree⟩ := h.pending j hj
        exact ⟨hlonger j hlt, hfresh, hfree⟩
    · intro m j hj
      obtain ⟨hlt, hfresh⟩ := h.issuing m j hj
      exact ⟨hlonger j hlt, hfresh⟩
    · exact h.oneLogin
    · exact h.sessions
    · exact fun j hj => hlonger j (h.issued j hj)
  · exact h

/-- A token that expires counts no more. -/
theorem expire (h : TokensOnce s) (jti : Nat) :
    TokensOnce { s with pending := Function.update s.pending jti false } := by
  refine of_fewer h ?_ ?_ ?_ ?_
  · rfl
  · rfl
  · intro j hj
    replace hj : Function.update s.pending jti false j = true := hj
    rw [Function.update_apply] at hj
    split at hj
    · cases hj
    · exact hj
  · exact fun _ => Or.inl rfl

end TokensOnce

-- ================================================================== runs

/-- What holds in every state that is reached from `past`. -/
structure SingleUse (past s : TwoFactorSystem) : Prop where
  method : ∀ u, SoundMethod (s.method u)
  methodLater : ∀ u, (past.method u).value.Later (s.method u).value
  codes : ∀ u, SoundCodes (s.codes u)
  codesLater : ∀ u, (past.codes u).value.Later (s.codes u).value
  tokens : TokensOnce s

namespace SingleUse

variable {past s s' : TwoFactorSystem} {n : Nat} {t : SecurityTx}

/-- At the opening nothing was accepted. -/
theorem opening (accounts : Uuid → SecurityOpening) :
    SingleUse (opening accounts) (opening accounts) where
  method := fun _ => Cell.sound_settled (.opening _)
  methodLater := fun _ => .refl _
  codes := fun _ => Cell.sound_settled (.opening _)
  codesLater := fun _ => .refl _
  tokens :=
    { pending := nofun
      issuing := nofun
      oneLogin := nofun
      sessions := List.nodup_nil
      issued := nofun }

/-- From now on. -/
theorem again (h : SingleUse past s) : SingleUse s s where
  method := h.method
  methodLater := fun _ => .refl _
  codes := h.codes
  codesLater := fun _ => .refl _
  tokens := h.tokens

/-- A statement's step keeps the whole invariant. -/
theorem proceeds (h : SingleUse past s) {n : Nat} {t : SecurityTx}
    (hs : Proceeds n t s s') :
    SingleUse past s' where
  method := hs.method
  methodLater := fun u => (h.methodLater u).trans (hs.methodLater u)
  codes := hs.codes
  codesLater := fun u => (h.codesLater u).trans (hs.codesLater u)
  tokens := h.tokens.of_proceeds hs

/-- A step that leaves the cells alone. -/
theorem of_tokens (h : SingleUse past s) (hmethod : s'.method = s.method)
    (hcodes : s'.codes = s.codes) (htokens : TokensOnce s') :
    SingleUse past s' where
  method := hmethod ▸ h.method
  methodLater := hmethod ▸ h.methodLater
  codes := hcodes ▸ h.codes
  codesLater := hcodes ▸ h.codesLater
  tokens := htokens

/-- A transaction that is not there takes no step. -/
theorem advance_idle (ht : s.tx n = none) (crypto : SecondFactorCrypto)
    (verifyPassword : String → String → Bool) (now : Timestamp)
    (hashes : List String) :
    s.advance crypto verifyPassword n now hashes = s := by
  unfold TwoFactorSystem.advance
  rw [ht]

/-- A step of transaction `n`: a statement, or one of a login that has
its token. -/
theorem advance_cases (h : SingleUse past s) (ht : s.tx n = some t)
    (crypto : SecondFactorCrypto) (verifyPassword : String → String → Bool)
    (now : Timestamp) (hashes : List String) :
    Proceeds n t s (s.advance crypto verifyPassword n now hashes)
      ∨ ∃ token,
        s.advance crypto verifyPassword n now hashes = s.redeem n t token
          ∨ t.phase = .issue token
            ∧ s.advance crypto verifyPassword n now hashes
              = s.issue n t token := by
  have hrefl : Live n t s s := .refl n t h.method h.codes
  unfold TwoFactorSystem.advance
  rw [ht]
  dsimp only
  split
  · exact .inl (hrefl.selectUser verifyPassword)
  · next code _ =>
      left
      apply hrefl.lockMethod
      · exact fun s'' h'' => h''.refuse
      · exact fun s'' h'' => h''.goto nofun
  · next code _ => exact .inl (hrefl.matchCode crypto code now)
  · next code _ => exact .inl (hrefl.selectBackupCodes crypto code)
  · next id _ => exact .inl (hrefl.consumeBackupCode id now)
  · exact .inl (hrefl.write crypto now)
  · next confirmed _ => exact .inl (hrefl.replaceCodes confirmed now hashes)
  · exact .inl hrefl.deleteMethod
  · next accepted _ => exact .inl (hrefl.commit accepted)
  · next token _ => exact .inr ⟨token, .inl rfl⟩
  · next token hphase => exact .inr ⟨token, .inr ⟨hphase, rfl⟩⟩

/-- One statement, whichever phase it is in. -/
theorem advance (h : SingleUse past s) (crypto : SecondFactorCrypto)
    (verifyPassword : String → String → Bool) (n : Nat) (now : Timestamp)
    (hashes : List String) :
    SingleUse past (s.advance crypto verifyPassword n now hashes) := by
  cases ht : s.tx n with
  | none =>
      rw [advance_idle ht]
      exact h
  | some t =>
      rcases h.advance_cases ht crypto verifyPassword now hashes with
        hs | ⟨token, heq | ⟨hphase, heq⟩⟩
      · exact h.proceeds hs
      · rw [heq]
        refine h.of_tokens ?_ ?_ h.tokens.redeem
        · unfold TwoFactorSystem.redeem
          split <;> rfl
        · unfold TwoFactorSystem.redeem
          split <;> rfl
      · rw [heq]
        refine h.of_tokens ?_ ?_ (h.tokens.issue ?_)
        · unfold TwoFactorSystem.issue
          split <;> rfl
        · unfold TwoFactorSystem.issue
          split <;> rfl
        · unfold TwoFactorSystem.issuing
          rw [ht, Option.bind_some, hphase]

/-- A new transaction starts with nothing accepted. -/
theorem start (h : SingleUse past s) (n : Nat) (userId : Uuid)
    (request : SecurityRequest) :
    SingleUse past (s.start n userId request) := by
  unfold TwoFactorSystem.start
  split
  · have hrefl : Live n ⟨userId, request, firstPhase request⟩ s s :=
      .refl n _ h.method h.codes
    apply h.proceeds (n := n)
    apply (hrefl.setTx _ _).toProceeds
    · intro t ht
      cases ht
      intro token
      cases request with
      | verify code login => exact nofun
      | setup secret reauthentication => exact nofun
      | confirm code => exact nofun
      | regenerate reauthentication => exact nofun
      | disable reauthentication => exact nofun
      | migrate => exact nofun
    · intro t ht
      cases ht
      rfl
  · exact h

/-- One step of any transaction. -/
theorem step (h : SingleUse past s) (crypto : SecondFactorCrypto)
    (verifyPassword : String → String → Bool) (e : TwoFactorStep) :
    SingleUse past (s.step crypto verifyPassword e) := by
  cases e with
  | issuePending userId =>
      rw [TwoFactorSystem.step]
      refine h.of_tokens ?_ ?_ (h.tokens.issuePending userId)
      · unfold TwoFactorSystem.issuePending
        split <;> rfl
      · unfold TwoFactorSystem.issuePending
        split <;> rfl
  | expire jti => exact h.of_tokens rfl rfl (h.tokens.expire jti)
  | start n userId request => exact h.start n userId request
  | advance n now hashes =>
      exact h.advance crypto verifyPassword n now hashes
  | abort n =>
      rw [TwoFactorSystem.step]
      split
      · next t _ => exact h.proceeds (Live.refl n t h.method h.codes).rollback
      · exact h
  | changeUser userId passwordHash sessionVersion isBanned =>
      rw [TwoFactorSystem.step, changeUser]
      split
      · exact h
      · exact h.of_tokens rfl rfl (h.tokens.of_fewer rfl rfl
          (fun _ hj => hj) fun _ => Or.inl rfl)

/-- Any number of them. -/
theorem play (h : SingleUse past s) (crypto : SecondFactorCrypto)
    (verifyPassword : String → String → Bool) (steps : List TwoFactorStep) :
    SingleUse past (s.play crypto verifyPassword steps) :=
  run_keeps (fun _ e hs => hs.step crypto verifyPassword e) h steps

end SingleUse

-- ========================================================== acceptances

/-- What a transaction that accepts a code owes to the histories, whatever
it does next. -/
structure AcceptancesStored (crypto : SecondFactorCrypto)
    (verifyPassword : String → String → Bool) (s : TwoFactorSystem) :
    Prop where
  /-- The step that accepts a code appends it to the history that the
  transaction has locked. -/
  stores : ∀ n now hashes t t', s.tx n = some t → t.phase.Consumes →
    (s.advance crypto verifyPassword n now hashes).tx n = some t' →
    t'.phase.Passed →
      Stores crypto now n t s (s.advance crypto verifyPassword n now hashes)
  /-- A backup code is consumed that compares to what was presented. -/
  compares : ∀ n now hashes t t' code id, s.tx n = some t →
    t.phase = .selectBackupCodes code →
    (s.advance crypto verifyPassword n now hashes).tx n = some t' →
    t'.phase = .consumeBackupCode id →
      ∃ r ∈ ((s.codes t.userId).seen n).rows, r.id = id ∧ r.usedAt.isNone
        ∧ crypto.compare code r.codeHash = true
  /-- A confirmation goes on with a counter of the pending secret. -/
  confirms : ∀ n now hashes t t' secret counter, s.tx n = some t →
    t.phase = .write →
    (s.advance crypto verifyPassword n now hashes).tx n = some t' →
    t'.phase = .replaceCodes (some (secret, counter)) →
      ∃ code r, t.request = .confirm code
        ∧ ((s.method t.userId).seen n).row = some r
        ∧ r.pendingSecret = some secret
        ∧ matchTotpCounter crypto secret code now = some counter
  /-- That counter is stored with the secret. -/
  activates : ∀ n now hashes t t' secret counter, s.tx n = some t →
    t.phase = .replaceCodes (some (secret, counter)) →
    (s.advance crypto verifyPassword n now hashes).tx n = some t' →
    t'.phase = .commit true →
      (((s.advance crypto verifyPassword n now hashes).method
          t.userId).seen n).log
        = ((s.method t.userId).seen n).log ++ [.activated (some counter)]
  /-- A verification succeeds, and a login is redeemed, behind an accepted
  code only. -/
  verifies : ∀ n now hashes t t' code login, s.tx n = some t →
    t.request = .verify code login →
    (s.advance crypto verifyPassword n now hashes).tx n = some t' →
      (t'.phase = .commit true → t.phase.Consumes)
      ∧ ∀ token, t'.phase = .redeem token → t.phase = .commit true
  /-- No step takes an entry from a transaction that is still under way. -/
  keeps : ∀ e n t', (s.step crypto verifyPassword e).tx n = some t' →
    Keeps s (s.step crypto verifyPassword e) n
  /-- COMMIT publishes what the transaction sees. -/
  publishes : ∀ n now hashes t accepted, s.tx n = some t →
    t.phase = .commit accepted →
      ((s.advance crypto verifyPassword n now hashes).method
          t.userId).value = (s.method t.userId).seen n
        ∧ ((s.advance crypto verifyPassword n now hashes).codes
          t.userId).value = (s.codes t.userId).seen n

/-- The verifications under way are where a verification can be. -/
def Verifications (s : TwoFactorSystem) : Prop :=
  ∀ n t code login, s.tx n = some t → t.request = .verify code login →
    t.phase.Verifies

section Acceptances

variable {past s s' : TwoFactorSystem} {crypto : SecondFactorCrypto}
  {verifyPassword : String → String → Bool} {n m : Nat} {t' : SecurityTx}

/-- A login with its token has no statement, and changes no cell. -/
theorem tx_issue_ne {t : SecurityTx} {token : PendingToken} (hm : m ≠ n) :
    (s.issue n t token).tx m = s.tx m := by
  unfold TwoFactorSystem.issue
  split
  · exact (tx_setTx s n m none).trans (if_neg hm)
  · exact (tx_setTx s n m none).trans (if_neg hm)

/-- A redemption leaves the other transactions. -/
theorem tx_redeem_ne {t : SecurityTx} {token : PendingToken} (hm : m ≠ n) :
    (s.redeem n t token).tx m = s.tx m := by
  unfold TwoFactorSystem.redeem
  split
  · exact (tx_setTx s n m _).trans (if_neg hm)
  · exact (tx_setTx s n m none).trans (if_neg hm)

/-- A step of transaction `n` leaves the others where they are. -/
theorem SingleUse.advance_others (h : SingleUse past s) {now : Timestamp}
    {hashes : List String} (hm : m ≠ n) :
    (s.advance crypto verifyPassword n now hashes).tx m = s.tx m := by
  cases ht : s.tx n with
  | none => rw [SingleUse.advance_idle ht]
  | some t =>
      rcases h.advance_cases ht crypto verifyPassword now hashes with
        hs | ⟨token, heq | ⟨-, heq⟩⟩
      · exact hs.others m hm
      · rw [heq]
        exact tx_redeem_ne hm
      · rw [heq]
        exact tx_issue_ne hm

/-- A transaction keeps what it sees while another one advances. -/
theorem SingleUse.advance_keeps (h : SingleUse past s) {now : Timestamp}
    {hashes : List String}
    (ht' : (s.advance crypto verifyPassword n now hashes).tx m = some t') :
    Keeps s (s.advance crypto verifyPassword n now hashes) m := by
  cases ht : s.tx n with
  | none =>
      rw [SingleUse.advance_idle ht]
      exact .refl s m
  | some t =>
      rcases h.advance_cases ht crypto verifyPassword now hashes with
        hs | ⟨token, heq | ⟨-, heq⟩⟩
      · exact hs.keeps ht'
      · rw [heq]
        unfold TwoFactorSystem.redeem
        split <;> exact .refl s m
      · rw [heq]
        unfold TwoFactorSystem.issue
        split <;> exact .refl s m

/-- A transaction keeps its request. -/
theorem SingleUse.advance_request (h : SingleUse past s) {now : Timestamp}
    {hashes : List String} {t : SecurityTx} (ht : s.tx n = some t)
    (ht' : (s.advance crypto verifyPassword n now hashes).tx n = some t') :
    t'.request = t.request := by
  rcases h.advance_cases ht crypto verifyPassword now hashes with
    hs | ⟨token, heq | ⟨-, heq⟩⟩
  · rcases hs.request t' ht' with hsame | hrequest
    · cases ht.symm.trans hsame
      rfl
    · exact hrequest
  · rw [heq] at ht'
    unfold TwoFactorSystem.redeem at ht'
    split at ht'
    · rw [tx_goto ht']
    · rw [tx_setTx, if_pos rfl] at ht'
      cases ht'
  · rw [heq] at ht'
    unfold TwoFactorSystem.issue at ht'
    split at ht'
    · exact absurd ((tx_setTx s n n none).symm.trans ht')
        (by rw [if_pos rfl]; nofun)
    · rw [tx_setTx, if_pos rfl] at ht'
      cases ht'

/-- And while anything else happens. -/
theorem SingleUse.step_keeps (h : SingleUse past s) (e : TwoFactorStep)
    (ht' : (s.step crypto verifyPassword e).tx n = some t') :
    Keeps s (s.step crypto verifyPassword e) n := by
  cases e with
  | issuePending userId =>
      rw [TwoFactorSystem.step]
      unfold TwoFactorSystem.issuePending
      split <;> exact .refl s n
  | expire jti => exact .refl s n
  | start k userId request =>
      rw [TwoFactorSystem.step]
      unfold TwoFactorSystem.start
      split <;> exact .refl s n
  | advance k now hashes => exact h.advance_keeps ht'
  | abort k =>
      rw [TwoFactorSystem.step] at ht' ⊢
      split at ht'
      · exact (Live.refl k _ h.method h.codes).rollback.keeps ht'
      · exact .refl s n
  | changeUser userId passwordHash sessionVersion isBanned =>
      rw [TwoFactorSystem.step, changeUser]
      split <;> exact .refl s n

/-- At the opening no transaction is a verification. -/
theorem verifications_opening (accounts : Uuid → SecurityOpening) :
    (opening accounts).Verifications := by
  intro n t code login ht
  cases ht

/-- The only step that is not the transaction's own is its start. -/
theorem SingleUse.verifications_step (h : SingleUse past s)
    (hs : s.Verifications) (e : TwoFactorStep) :
    (s.step crypto verifyPassword e).Verifications := by
  intro n t code login ht hrequest
  cases e with
  | issuePending userId =>
      rw [TwoFactorSystem.step] at ht
      unfold TwoFactorSystem.issuePending at ht
      split at ht <;> exact hs n t code login ht hrequest
  | expire jti => exact hs n t code login ht hrequest
  | start k userId request =>
      rw [TwoFactorSystem.step] at ht
      unfold TwoFactorSystem.start at ht
      split at ht
      · rw [tx_setTx] at ht
        split at ht
        · cases ht
          dsimp only at hrequest ⊢
          rw [hrequest]
          trivial
        · exact hs n t code login ht hrequest
      · exact hs n t code login ht hrequest
  | advance k now hashes =>
      by_cases hk : n = k
      · subst hk
        rw [TwoFactorSystem.step] at ht
        cases hold : s.tx n with
        | none =>
            rw [SingleUse.advance_idle hold] at ht
            cases hold.symm.trans ht
        | some t₀ =>
            -- the request of a transaction never changes
            have hsame := h.advance_request hold ht
            rw [hsame] at hrequest
            exact (advance_verifying hold hrequest
              (hs n t₀ code login hold hrequest) ht).phase
      · rw [TwoFactorSystem.step, h.advance_others hk] at ht
        exact hs n t code login ht hrequest
  | abort k =>
      rw [TwoFactorSystem.step] at ht
      split at ht
      · by_cases hk : n = k
        · subst hk
          rw [tx_rollback] at ht
          cases ht
        · rw [(Live.refl k _ h.method h.codes).rollback.others n hk] at ht
          exact hs n t code login ht hrequest
      · exact hs n t code login ht hrequest
  | changeUser userId passwordHash sessionVersion isBanned =>
      rw [TwoFactorSystem.step, changeUser] at ht
      split at ht <;> exact hs n t code login ht hrequest

end Acceptances

/-- Under every schedule: the counters accepted for a secret ascend, and
the row has the last; a backup code was accepted once at most, and while
it was of the latest codes; nothing of this history is lost later on; a
pending token gave one session at most; and every code that is accepted
is in this history with the COMMIT of the transaction. -/
theorem secondFactors_singleUse (crypto : SecondFactorCrypto)
    (verifyPassword : String → String → Bool)
    (accounts : Uuid → SecurityOpening) (steps later : List TwoFactorStep) :
    let s := (opening accounts).play crypto verifyPassword steps
    let s' := s.play crypto verifyPassword later
    (∀ u,
      (∀ past, past <+: (s.method u).value.log →
        (counters past).Pairwise (· < ·))
      ∧ (∀ r, (s.method u).value.row = some r → r.activeSecret.isSome →
          r.lastAcceptedCounter = (counters (s.method u).value.log).getLast?)
      ∧ (s.method u).value.log <+: (s'.method u).value.log
      ∧ (acceptedCodes (s.codes u).value.log).Nodup
      ∧ (∀ past id rest, (s.codes u).value.log = past ++ .accepted id :: rest →
          id ∈ latestCodes past)
      ∧ (s.codes u).value.log <+: (s'.codes u).value.log)
    ∧ s.sessions.Nodup
    ∧ s.AcceptancesStored crypto verifyPassword := by
  intro s s'
  have hkeeps : ∀ s e, SingleUse (opening accounts) s ∧ s.Verifications →
      SingleUse (opening accounts) (s.step crypto verifyPassword e)
        ∧ (s.step crypto verifyPassword e).Verifications :=
    fun s e hs => ⟨hs.1.step crypto verifyPassword e,
      hs.1.verifications_step hs.2 e⟩
  have hrun : SingleUse (opening accounts) s ∧ s.Verifications :=
    run_keeps hkeeps
      ⟨SingleUse.opening accounts, verifications_opening accounts⟩ steps
  obtain ⟨h, hverifications⟩ := hrun
  have h' : SingleUse s s' := h.again.play crypto verifyPassword later
  refine ⟨?_, h.tokens.sessions, ?_⟩
  · intro u
    have hmethod := (h.method u).value
    have hcodes := (h.codes u).value
    exact ⟨hmethod.ascending, hmethod.last, h'.methodLater u, hcodes.once,
      hcodes.current, h'.codesLater u⟩
  · constructor
    · intro n now hashes t t' ht hconsumes ht' hpassed
      exact advance_stores ht hconsumes ht' hpassed
    · intro n now hashes t t' code id ht hphase ht' hphase'
      exact advance_compares ht hphase ht' hphase'
    · intro n now hashes t t' secret counter ht hphase ht' hphase'
      exact advance_confirms ht hphase ht' hphase'
    · intro n now hashes t t' secret counter ht hphase ht' hphase'
      exact advance_activates ht hphase ht' hphase'
    · intro n now hashes t t' code login ht hrequest ht'
      have hverifying := advance_verifying ht hrequest
        (hverifications n t code login ht hrequest) ht'
      exact ⟨hverifying.committing, hverifying.redeeming⟩
    · intro e n t' ht'
      exact h.step_keeps e ht'
    · intro n now hashes t accepted ht hphase
      exact advance_publishes ht hphase

end TwoFactorSystem

end Skrynia
