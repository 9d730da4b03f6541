/-
Redaction of what is persisted to the audit log, and of what the backend
sends to its log.

A member is redacted by its name: in lower case it is one of a list, or it
has one of the high-risk fragments in it. Everything else is kept, down to
the depth limit. `toLowerCase` is the language's own and may be any
function here.
-/
import Skrynia.Lib.Scrub

universe u

namespace Skrynia

namespace AuditRedact

open Utf16

variable {P : Type u}

-- ========================================================= audit-redact.ts

section Redact

variable (toLowerCase : JsString → JsString)

/-- `exactSensitiveKeys`: the names that are redacted as they are. -/
def exactSensitiveKeys : List JsString :=
  ["password", "currentPassword", "newPassword", "repeatPassword", "token",
    "accessToken", "refreshToken", "csrfToken", "secret", "ticket", "code", "otp",
    "totp", "backupCode", "backupCodes", "deliveryNote", "deliveryTemplate",
    "accountNumber", "iban", "cardNumber", "destination", "privateKey", "apiKey",
    "authorization", "cookie", "body", "message", "note"].map fun key =>
      toLowerCase (ofString key)

/-- `sensitiveKeyFragments`: a name that contains one of them is redacted. -/
def sensitiveKeyFragments : List JsString :=
  ["password", "token", "secret", "ticket", "code", "otp", "iban", "card"].map ofString

/-- `isSensitiveKey`: by the name in lower case, in the list or with a
fragment. -/
def isSensitiveKey (key : JsString) : Bool :=
  let lower := toLowerCase key
  lower ∈ exactSensitiveKeys toLowerCase
    || sensitiveKeyFragments.any fun fragment => includes lower fragment

/-- No string is rewritten; a member under a sensitive key is. -/
def auditRules : Scrub P where
  limit := 8
  truncated := ofString "[truncated]"
  onString s := s
  onMember key _ :=
    if isSensitiveKey toLowerCase key then some (.str (ofString "[redacted]")) else none

/-- `redactSensitive`: the value with the members of sensitive names
redacted. -/
def redactSensitive (value : JsTree P) (depth : Nat) : JsTree P :=
  (auditRules toLowerCase).walk depth value

-- ============================================================== what is kept

/-- The value and all that is in it are nested no deeper than the limit,
and nothing in it is under a sensitive key. -/
inductive Clean : Nat → JsTree P → Prop where
  | prim {depth : Nat} (p : P) : Clean depth (.prim p)
  | str {depth : Nat} (s : JsString) : Clean depth (.str s)
  | arr {depth : Nat} {items : List (JsTree P)} (hdepth : depth ≤ 8)
      (h : ∀ v ∈ items, Clean (depth + 1) v) : Clean depth (.arr items)
  | obj {depth : Nat} {members : List (JsString × JsTree P)} (hdepth : depth ≤ 8)
      (hkeys : ∀ m ∈ members, isSensitiveKey toLowerCase m.1 = false)
      (h : ∀ m ∈ members, Clean (depth + 1) m.2) : Clean depth (.obj members)

/-- Two values that differ only under sensitive keys. -/
def AlikeButSecrets (v v' : JsTree P) : Prop :=
  Scrub.AlikeBut (fun key _ _ => isSensitiveKey toLowerCase key = true) v v'

end Redact

variable {toLowerCase : JsString → JsString} {key : JsString} {v v' x : JsTree P}
  {path : List Scrub.Step}

/-- A member is left to the walk unless its name is sensitive. -/
theorem onMember_eq_none :
    (auditRules toLowerCase).onMember key v = none
      ↔ isSensitiveKey toLowerCase key = false := by
  simp [auditRules]

/-- What a sensitive member holds does not show. -/
theorem blind : (auditRules toLowerCase : Scrub P).Blind
    fun key _ _ => isSensitiveKey toLowerCase key = true where
  differ h := ⟨_, if_pos h, if_pos h⟩
  alike _ _ := rfl

/-- The rules do nothing more to what they leave behind. -/
theorem settles : (auditRules toLowerCase : Scrub P).Settles where
  onString _ := rfl
  truncated := rfl
  put h := h
  passed h _ := h

/-- A value without sensitive names is left as it is. -/
theorem untouched_of_clean {depth : Nat} (h : Clean toLowerCase depth x) :
    (auditRules toLowerCase).Untouched depth x := by
  induction h with
  | prim p => exact .prim p
  | str s => exact .str rfl
  | arr hdepth _ ih => exact .arr hdepth ih
  | obj hdepth hkeys _ ih =>
      exact .obj hdepth (fun m hm => onMember_eq_none.mpr (hkeys m hm)) ih

/-- What is under sensitive keys does not show. -/
theorem redactSensitive_alike (h : AlikeButSecrets toLowerCase v v') (depth : Nat) :
    redactSensitive toLowerCase v depth = redactSensitive toLowerCase v' depth :=
  Scrub.walk_eq_of_alikeBut blind v v' depth h

/-- Redacting twice is redacting once. -/
theorem redactSensitive_redactSensitive (v : JsTree P) (depth : Nat) :
    redactSensitive toLowerCase (redactSensitive toLowerCase v depth) depth
      = redactSensitive toLowerCase v depth :=
  Scrub.walk_walk settles v depth

/-- A value that is under no sensitive key, and in no array or object
beyond the limit, stays at its place. -/
theorem redactSensitive_keeps
    (hpath : ∀ key, Scrub.Step.key key ∈ path → isSensitiveKey toLowerCase key = false)
    (hdepth : path.length ≤ 9) (hx : Scrub.valueAt v path = some x)
    (hclean : Clean toLowerCase path.length x) :
    Scrub.valueAt (redactSensitive toLowerCase v 0) path = some x := by
  have hpasses : (auditRules toLowerCase : Scrub P).Passes path :=
    fun key hkey _ => onMember_eq_none.mpr (hpath key hkey)
  have hlimit : 0 + path.length ≤ (auditRules toLowerCase : Scrub P).limit + 1 := by
    rw [Nat.zero_add]
    exact hdepth
  rw [redactSensitive, Scrub.valueAt_walk hpasses hlimit hx, Nat.zero_add,
    Scrub.walk_of_untouched _ _ (untouched_of_clean hclean)]

end AuditRedact

end Skrynia
