/-
Second factors: the rows of an account's authenticator and its backup
codes, and what the statements of the two-factor service do to them.

A secret bundle is represented by the secret it decrypts to. What the
service takes from cryptography (the code of a counter, the comparison
with a hash) is a parameter, and nothing is assumed of it.

# Histories

Both kinds of rows come with the history of what was accepted, written
along with them: `CounterEvent` for the authenticator, `CodeEvent` for the
backup codes. No statement reads a history.

- `MethodVersion.Sound`: the counters accepted since an activation, the
  activating one included, ascend, and the row has the greatest.
- `CodesVersion.Sound`: no code was accepted twice, and each only while
  it was of the latest generation.
-/
import Mathlib.Data.List.Infix
import Skrynia.Db.Schema

namespace Skrynia

-- ================================================================= codes

/-- What the service takes from cryptography. -/
structure SecondFactorCrypto where
  /-- `base32DecodeStrict` and `hotpAt`: the code of each counter. -/
  hotp : String → Option (Nat → String)
  /-- `bcrypt.compare`, of a text and a hash. -/
  compare : String → String → Bool
  /-- `trim().toUpperCase()`. -/
  normalize : String → String

/-- `/^\d{6}$/`. -/
def isTotpCode (code : String) : Bool :=
  code.toList.length == 6 && code.toList.all Char.isDigit

/-- `[A-F0-9]`. -/
def isCodeDigit (c : Char) : Bool :=
  c.isDigit || ('A' ≤ c && c ≤ 'F')

/-- `/^[A-F0-9]{4}-[A-F0-9]{4}$/`. -/
def isBackupCode (code : String) : Bool :=
  match code.toList with
  | [a, b, c, d, e, f, g, h, i] =>
      e == '-' && [a, b, c, d, f, g, h, i].all isCodeDigit
  | _ => false

/-- `TOTP_PERIOD_SECONDS`. -/
def totpPeriodSeconds : Nat := 30

/-- The first of the current, the last and the next counter that has the
code. -/
def matchTotpCounter (crypto : SecondFactorCrypto) (secret code : String)
    (atTimeMs : Nat) : Option Nat :=
  if ¬ isTotpCode code then none
  else
    match crypto.hotp secret with
    | none => none
    | some hotpAt =>
        let currentCounter := atTimeMs / 1000 / totpPeriodSeconds
        [0, -1, 1].foldl (fun matchedCounter (offset : Int) =>
          let candidateCounter := (currentCounter : Int) + offset
          if candidateCounter < 0 then matchedCounter
          else if hotpAt candidateCounter.toNat = code
              ∧ matchedCounter = none then
            some candidateCounter.toNat
          else matchedCounter) none

-- ========================================================= authenticator

/-- The authenticator of an account, as far as it is read. -/
structure TwoFactorMethod where
  legacySecret : Option String
  confirmedAt : Option Timestamp
  createdAt : Timestamp
  activeSecret : Option String
  lastAcceptedCounter : Option Nat
  pendingSecret : Option String
  pendingCreatedAt : Option Timestamp

/-- What can happen to an authenticator. -/
inductive CounterEvent where
  /-- A secret became the active one, with the counter it starts from. -/
  | activated (counter : Option Nat)
  | accepted (counter : Nat)
  | removed

/-- The counters accepted since the last activation. -/
def counters (log : List CounterEvent) : List Nat :=
  log.foldl (fun l e => match e with
    | .activated counter => counter.toList
    | .accepted counter => l ++ [counter]
    | .removed => []) []

/-- The row of `user_2fa_methods`, with its history. -/
structure MethodVersion where
  row : Option TwoFactorMethod
  log : List CounterEvent

/-- `PENDING_SECRET_TTL_MS`: twenty minutes. -/
def pendingSecretTtlMs : Nat := 20 * 60 * 1000

namespace MethodVersion

variable (v : MethodVersion)

/-- `activeSecretFromRow`. -/
def activeSecret : Option String := v.row.bind TwoFactorMethod.activeSecret

/-- The WHERE of the replay guard. -/
def Advances (counter : Nat) : Prop :=
  ∀ r, v.row = some r → ∀ last, r.lastAcceptedCounter = some last →
    last < counter

instance (counter : Nat) : Decidable (v.Advances counter) :=
  match h : v.row with
  | none => isTrue (by rw [Advances, h]; exact nofun)
  | some r =>
      match h' : r.lastAcceptedCounter with
      | none => isTrue (by
          intro r' hr' last hlast
          rw [h] at hr'
          cases hr'
          rw [h'] at hlast
          cases hlast)
      | some last => decidable_of_iff (last < counter) (by
          constructor
          · intro hlt r' hr' last' hlast
            rw [h] at hr'
            cases hr'
            rw [h'] at hlast
            cases hlast
            exact hlt
          · exact fun hall => hall r h last h')

/-- A TOTP code is accepted. -/
def accept (counter : Nat) : MethodVersion where
  row := v.row.map fun r => { r with lastAcceptedCounter := some counter }
  log := v.log ++ [.accepted counter]

/-- The upsert of a new pending secret. -/
def setPending (secret : String) (now : Timestamp) : MethodVersion where
  row := some {
    (v.row.getD ⟨none, none, now, none, none, none, none⟩) with
    pendingSecret := some secret
    pendingCreatedAt := some now }
  log := v.log

/-- A secret that waits for its confirmation is dropped. -/
def clearPending : MethodVersion where
  row := v.row.map fun r =>
    { r with
      pendingSecret := none
      pendingCreatedAt := none }
  log := v.log

/-- The pending secret becomes the active one. -/
def confirm (secret : String) (counter : Nat) (now : Timestamp) :
    MethodVersion where
  row := v.row.map fun r =>
    { r with
      legacySecret := none
      activeSecret := some secret
      lastAcceptedCounter := some counter
      pendingSecret := none
      pendingCreatedAt := none
      confirmedAt := some now }
  log := v.log ++ [.activated (some counter)]

/-- `migrateLegacyBatch`, for one user: a confirmed secret of the previous
schema becomes active, another one pending. -/
def migrate : MethodVersion :=
  match v.row with
  | none => v
  | some r =>
      match r.legacySecret with
      | none => v
      | some secret =>
          if r.confirmedAt.isSome then
            { row := some {
                r with
                legacySecret := none
                activeSecret := some secret }
              log := v.log ++ [.activated r.lastAcceptedCounter] }
          else
            { row := some {
                r with
                legacySecret := none
                pendingSecret := some secret
                pendingCreatedAt := some r.createdAt }
              log := v.log }

/-- The authenticator is removed. -/
def remove : MethodVersion where
  row := none
  log := v.log ++ [.removed]

/-- The version a history starts from. -/
def opening (row : Option TwoFactorMethod) : MethodVersion where
  row := row
  log := [.activated (row.bind TwoFactorMethod.lastAcceptedCounter)]

/-- The counters accepted since an activation ascend, and the row has the
greatest. -/
structure Sound (v : MethodVersion) : Prop where
  ascending : ∀ past, past <+: v.log → (counters past).Pairwise (· < ·)
  last : ∀ r, v.row = some r → r.activeSecret.isSome →
    r.lastAcceptedCounter = (counters v.log).getLast?

end MethodVersion

/-- An activation begins the counters anew, an acceptance adds one. -/
theorem counters_snoc (log : List CounterEvent) (e : CounterEvent) :
    counters (log ++ [e]) = match e with
      | .activated counter => counter.toList
      | .accepted counter => counters log ++ [counter]
      | .removed => [] := by
  unfold counters
  rw [List.foldl_append]
  rfl

/-- A history that ascended ascends with one more event. -/
theorem ascending_snoc {l : List CounterEvent} {e : CounterEvent}
    (h : ∀ past, past <+: l → (counters past).Pairwise (· < ·))
    (he : (counters (l ++ [e])).Pairwise (· < ·)) :
    ∀ past, past <+: l ++ [e] → (counters past).Pairwise (· < ·) := by
  intro past hpast
  rcases List.prefix_concat_iff.mp hpast with rfl | hpast
  · exact he
  · exact h past hpast

/-- One counter is in order. -/
theorem pairwise_toList (counter : Option Nat) :
    counter.toList.Pairwise (· < ·) := by
  cases counter with
  | none => exact List.Pairwise.nil
  | some c => exact List.pairwise_singleton _ c

/-- It is the last one. -/
theorem getLast?_toList (counter : Option Nat) :
    counter.toList.getLast? = counter := by
  cases counter with
  | none => rfl
  | some c => rfl

/-- The last of an ascending list is its greatest. -/
theorem lt_of_getLast? {l : List Nat} (h : l.Pairwise (· < ·)) {c : Nat}
    (hlast : ∀ last, l.getLast? = some last → last < c) :
    (l ++ [c]).Pairwise (· < ·) := by
  rw [List.pairwise_append]
  refine ⟨h, List.pairwise_singleton _ c, ?_⟩
  intro a ha b hb
  rw [List.mem_singleton] at hb
  rw [hb]
  have hne := List.ne_nil_of_mem ha
  have hmax := hlast _ (List.getLast?_eq_some_getLast hne)
  by_cases heq : a = l.getLast hne
  · rw [heq]
    exact hmax
  · have hdrop : a ∈ l.dropLast := by
      rw [← List.dropLast_append_getLast hne] at ha
      rcases List.mem_append.mp ha with ha | ha
      · exact ha
      · exact absurd (List.mem_singleton.mp ha) heq
    rw [← List.dropLast_append_getLast hne, List.pairwise_append] at h
    have hlt := h.2.2 a hdrop _ List.mem_cons_self
    exact Nat.lt_trans hlt hmax

namespace MethodVersion.Sound

variable {v : MethodVersion}

/-- An authenticator begins with the counter of its row. -/
theorem opening (row : Option TwoFactorMethod) :
    (MethodVersion.opening row).Sound := by
  have hcounters : counters (MethodVersion.opening row).log
      = (row.bind TwoFactorMethod.lastAcceptedCounter).toList := rfl
  constructor
  · apply ascending_snoc (l := [])
    · intro past hpast
      rw [List.prefix_nil.mp hpast]
      exact List.Pairwise.nil
    · exact pairwise_toList _
  · intro r hr _
    rw [hcounters, getLast?_toList]
    rw [show row = some r from hr]
    rfl

/-- A counter that is accepted is greater than all before. -/
theorem accept (h : v.Sound) {counter : Nat} {secret : String}
    (hactive : v.activeSecret = some secret) (hadvances : v.Advances counter) :
    (v.accept counter).Sound := by
  obtain ⟨r, hr, hsecret⟩ := Option.bind_eq_some_iff.mp hactive
  have hlast := h.last r hr (by rw [hsecret]; rfl)
  have hcounters : counters (v.accept counter).log
      = counters v.log ++ [counter] := counters_snoc _ _
  constructor
  · apply ascending_snoc h.ascending
    rw [counters_snoc]
    apply lt_of_getLast? (h.ascending v.log (List.prefix_refl _))
    intro last hl
    exact hadvances r hr last (hlast.trans hl)
  · intro r' hr' _
    obtain ⟨x, -, rfl⟩ := Option.map_eq_some_iff.mp hr'
    rw [hcounters, List.getLast?_concat]

/-- A version with the same active secret and history. -/
theorem of_same {v' : MethodVersion} (h : v.Sound) (hlog : v'.log = v.log)
    (hrow : ∀ r', v'.row = some r' → r'.activeSecret.isSome →
      ∃ r, v.row = some r ∧ r.activeSecret.isSome
        ∧ r'.lastAcceptedCounter = r.lastAcceptedCounter) : v'.Sound := by
  constructor
  · rw [hlog]
    exact h.ascending
  · intro r' hr' hactive
    obtain ⟨r, hr, hactive, hsame⟩ := hrow r' hr' hactive
    rw [hsame, hlog]
    exact h.last r hr hactive

/-- A secret that waits accepts nothing. -/
theorem setPending (h : v.Sound) (secret : String) (now : Timestamp) :
    (v.setPending secret now).Sound := by
  refine of_same h ?_ ?_
  · rfl
  · intro r' hr' hactive
    cases hr'
    cases hrow : v.row with
    | none =>
        rw [hrow] at hactive
        cases hactive
    | some r =>
        rw [hrow] at hactive
        exact ⟨r, rfl, hactive, rfl⟩

/-- Dropping it accepts nothing either. -/
theorem clearPending (h : v.Sound) : v.clearPending.Sound := by
  refine of_same h ?_ ?_
  · rfl
  · intro r' hr' hactive
    obtain ⟨r, hr, rfl⟩ := Option.map_eq_some_iff.mp hr'
    exact ⟨r, hr, hactive, rfl⟩

/-- A confirmation begins the counters anew. -/
theorem confirm (h : v.Sound) (secret : String) (counter : Nat)
    (now : Timestamp) : (v.confirm secret counter now).Sound := by
  have hcounters : counters (v.confirm secret counter now).log = [counter] :=
    counters_snoc _ _
  constructor
  · apply ascending_snoc h.ascending
    rw [counters_snoc]
    exact pairwise_toList _
  · intro r' hr' _
    obtain ⟨r, -, rfl⟩ := Option.map_eq_some_iff.mp hr'
    rw [hcounters]
    rfl

/-- A legacy secret is moved with its counter. -/
theorem migrate (h : v.Sound) : v.migrate.Sound := by
  unfold MethodVersion.migrate
  split
  · exact h
  · next r hr =>
      split
      · exact h
      · split
        · constructor
          · apply ascending_snoc h.ascending
            rw [counters_snoc]
            exact pairwise_toList _
          · intro r' hr' _
            cases hr'
            rw [counters_snoc]
            exact (getLast?_toList _).symm
        · refine of_same h ?_ ?_
          · rfl
          · intro r' hr' hactive
            cases hr'
            exact ⟨r, hr, hactive, rfl⟩

/-- A removal begins the counters anew. -/
theorem remove (h : v.Sound) : v.remove.Sound := by
  constructor
  · apply ascending_snoc h.ascending
    rw [counters_snoc]
    exact List.Pairwise.nil
  · intro r hr
    cases hr

end MethodVersion.Sound

-- ========================================================== backup codes

/-- A backup code, as its hash. -/
structure BackupCode where
  id : Nat
  codeHash : String
  usedAt : Option Timestamp

/-- What can happen to the backup codes. -/
inductive CodeEvent where
  /-- The codes of a regeneration or confirmation, or none of a
  disabling. -/
  | generated (ids : List Nat)
  | accepted (id : Nat)

/-- The codes that were generated last. -/
def latestCodes (log : List CodeEvent) : List Nat :=
  log.foldl (fun l e => match e with
    | .generated ids => ids
    | .accepted _ => l) []

/-- The codes that were accepted, in order. -/
def acceptedCodes (log : List CodeEvent) : List Nat :=
  log.filterMap fun e => match e with
    | .generated _ => none
    | .accepted id => some id

/-- The rows of `user_2fa_backup_codes` of a user, with their history.
Ids are drawn in order, and so never twice. -/
structure CodesVersion where
  rows : List BackupCode
  next : Nat
  log : List CodeEvent

namespace CodesVersion

variable (v : CodesVersion)

/-- The guarded UPDATE finds the row. -/
def Unused (id : Nat) : Prop := ∃ r ∈ v.rows, r.id = id ∧ r.usedAt.isNone

instance (id : Nat) : Decidable (v.Unused id) :=
  inferInstanceAs (Decidable (∃ r ∈ v.rows, _ ∧ _))

/-- A backup code is accepted. -/
def accept (id : Nat) (now : Timestamp) : CodesVersion where
  rows := v.rows.map fun r =>
    if r.id = id ∧ r.usedAt.isNone then { r with usedAt := some now } else r
  next := v.next
  log := v.log ++ [.accepted id]

/-- The insert of new rows, in place of all that were there. -/
def regenerate (hashes : List String) : CodesVersion where
  rows := (hashes.zipIdx v.next).map fun x => ⟨x.2, x.1, none⟩
  next := v.next + hashes.length
  log := v.log ++ [.generated (List.range' v.next hashes.length)]

/-- The version a history starts from. -/
def opening (codes : List (String × Option Timestamp)) : CodesVersion where
  rows := codes.zipIdx.map fun x => ⟨x.2, x.1.1, x.1.2⟩
  next := codes.length
  log := [.generated (List.range codes.length)]

/-- No code was accepted twice, and each while it was of the latest
generation. -/
structure Sound (v : CodesVersion) : Prop where
  once : (acceptedCodes v.log).Nodup
  current : ∀ past id rest, v.log = past ++ .accepted id :: rest →
    id ∈ latestCodes past
  unused : ∀ r ∈ v.rows, r.usedAt.isNone →
    r.id ∈ latestCodes v.log ∧ r.id ∉ acceptedCodes v.log
  bounded : ∀ r ∈ v.rows, r.id < v.next
  drawn : ∀ id ∈ acceptedCodes v.log, id < v.next

end CodesVersion

/-- A new generation replaces the codes, an acceptance does not. -/
theorem latestCodes_snoc (log : List CodeEvent) (e : CodeEvent) :
    latestCodes (log ++ [e]) = match e with
      | .generated ids => ids
      | .accepted _ => latestCodes log := by
  unfold latestCodes
  rw [List.foldl_append]
  rfl

/-- An acceptance adds its code. -/
theorem acceptedCodes_accepted (log : List CodeEvent) (id : Nat) :
    acceptedCodes (log ++ [.accepted id]) = acceptedCodes log ++ [id] := by
  unfold acceptedCodes
  rw [List.filterMap_append]
  rfl

/-- A new generation adds none. -/
theorem acceptedCodes_generated (log : List CodeEvent) (ids : List Nat) :
    acceptedCodes (log ++ [.generated ids]) = acceptedCodes log := by
  unfold acceptedCodes
  rw [List.filterMap_append]
  exact List.append_nil _

/-- An acceptance in a history with one more event. -/
theorem current_snoc {l : List CodeEvent} {e : CodeEvent}
    (h : ∀ past id rest, l = past ++ .accepted id :: rest →
      id ∈ latestCodes past)
    (he : ∀ id, e = .accepted id → id ∈ latestCodes l) :
    ∀ past id rest, l ++ [e] = past ++ .accepted id :: rest →
      id ∈ latestCodes past := by
  intro past id rest heq
  rcases List.eq_nil_or_concat rest with rfl | ⟨rest', e', rfl⟩
  · obtain ⟨hlog, hlast⟩ := List.append_inj' heq rfl
    rw [← hlog]
    exact he id (List.head_eq_of_cons_eq hlast)
  · rw [List.concat_eq_append, ← List.cons_append, ← List.append_assoc] at heq
    exact h past id rest' (List.append_inj' heq rfl).1

namespace CodesVersion.Sound

variable {v : CodesVersion}

/-- The codes at the opening are the first generation. -/
theorem opening (codes : List (String × Option Timestamp)) :
    (CodesVersion.opening codes).Sound := by
  have hbound : ∀ r ∈ (CodesVersion.opening codes).rows, r.id < codes.length := by
    intro r hr
    obtain ⟨x, hx, rfl⟩ := List.mem_map.mp hr
    exact (List.mem_zipIdx' hx).1
  refine ⟨List.nodup_nil, ?_, ?_, hbound, nofun⟩
  · apply current_snoc (l := [])
    · intro past id rest h
      exact absurd h.symm (List.append_ne_nil_of_right_ne_nil _ (List.cons_ne_nil _ _))
    · exact nofun
  · intro r hr _
    exact ⟨List.mem_range.mpr (hbound r hr), List.not_mem_nil⟩

/-- A code that is accepted was unused, and of the latest generation. -/
theorem accept (h : v.Sound) {id : Nat} (hunused : v.Unused id)
    (now : Timestamp) : (v.accept id now).Sound := by
  obtain ⟨r, hr, rfl, hnone⟩ := hunused
  obtain ⟨hlatest, hfresh⟩ := h.unused r hr hnone
  have haccepted : acceptedCodes (v.accept r.id now).log
      = acceptedCodes v.log ++ [r.id] := acceptedCodes_accepted _ _
  constructor
  · rw [haccepted]
    exact List.nodup_append.mpr ⟨h.once, List.nodup_singleton _, by
      intro a ha b hb
      rw [List.mem_singleton] at hb
      rw [hb]
      exact fun heq => hfresh (heq ▸ ha)⟩
  · apply current_snoc h.current
    intro id hid
    cases hid
    exact hlatest
  · intro x hx hxnone
    obtain ⟨y, hy, rfl⟩ := List.mem_map.mp hx
    by_cases hmatch : y.id = r.id ∧ y.usedAt.isNone
    · rw [if_pos hmatch] at hxnone
      cases hxnone
    · rw [if_neg hmatch] at hxnone ⊢
      obtain ⟨hyl, hyf⟩ := h.unused y hy hxnone
      refine ⟨?_, ?_⟩
      · rw [CodesVersion.accept, latestCodes_snoc]
        exact hyl
      · rw [haccepted, List.mem_append, List.mem_singleton]
        intro hmem
        rcases hmem with hmem | heq
        · exact hyf hmem
        · exact hmatch ⟨heq, hxnone⟩
  · intro x hx
    obtain ⟨y, hy, rfl⟩ := List.mem_map.mp hx
    split
    · exact h.bounded y hy
    · exact h.bounded y hy
  · intro id hid
    rw [haccepted, List.mem_append, List.mem_singleton] at hid
    rcases hid with hid | rfl
    · exact h.drawn id hid
    · exact h.bounded r hr

/-- New codes were never accepted. -/
theorem regenerate (h : v.Sound) (hashes : List String) :
    (v.regenerate hashes).Sound := by
  have haccepted : acceptedCodes (v.regenerate hashes).log
      = acceptedCodes v.log := acceptedCodes_generated _ _
  have hrange : ∀ r ∈ (v.regenerate hashes).rows,
      v.next ≤ r.id ∧ r.id < v.next + hashes.length := by
    intro r hr
    obtain ⟨x, hx, rfl⟩ := List.mem_map.mp hr
    obtain ⟨hle, hlt, -⟩ := List.mem_zipIdx hx
    exact ⟨hle, hlt⟩
  constructor
  · rw [haccepted]
    exact h.once
  · apply current_snoc h.current
    exact nofun
  · intro r hr _
    obtain ⟨hle, hlt⟩ := hrange r hr
    refine ⟨?_, ?_⟩
    · rw [CodesVersion.regenerate, latestCodes_snoc]
      exact List.mem_range'_1.mpr ⟨hle, hlt⟩
    · rw [haccepted]
      intro hmem
      exact absurd (h.drawn r.id hmem) (Nat.not_lt.mpr hle)
  · exact fun r hr => (hrange r hr).2
  · intro id hid
    rw [haccepted] at hid
    exact Nat.lt_of_lt_of_le (h.drawn id hid) (Nat.le_add_right _ _)

end CodesVersion.Sound

end Skrynia
