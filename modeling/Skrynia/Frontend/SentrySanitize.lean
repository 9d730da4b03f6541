/-
What the browser sends to its error tracker, sanitized.

`sanitizeValue` rewrites every string of an event, puts a mark under
sensitive keys, and takes the query and the fragment off the URLs under
URL keys; `sanitizeSentryEvent` then cuts the request and the user down to
a few fields. The patterns are the ones of the source, over code units;
those without regard to case have both cases in their classes.

# Two runs

`AlikeEvents` relates events that differ only in what is to stay hidden.
A member that differs is rewritten to one value in both, or is in a part
of the request or of the user that is cut off, so the two sanitized events
are one (`sanitizeSentryEvent_alike`). `redaction_noninterfering` says it
of this path and of the backend's.
-/
import Mathlib.Data.List.ReduceOption
import Skrynia.Common.AuditRedact
import Skrynia.Common.Text
import Skrynia.Lib.Regex

universe u

namespace Skrynia

namespace SentrySanitize

open Utf16 Regex

-- ================================================================= patterns

/-- A regular expression over code units. -/
abbrev Pattern := Regex CodeUnit

/-- The lower case of an ASCII letter. -/
def lowerCode (n : Nat) : Nat :=
  if 65 ≤ n ∧ n ≤ 90 then n + 32 else n

/-- `\d`. -/
def isDigit (u : CodeUnit) : Bool := 48 ≤ u.val ∧ u.val ≤ 57

/-- `[A-Z]`, without regard to case. -/
def isLetter (u : CodeUnit) : Bool :=
  97 ≤ lowerCode u.val ∧ lowerCode u.val ≤ 122

/-- `[0-9a-f]`, in either case. -/
def isHex (u : CodeUnit) : Bool :=
  isDigit u ∨ (97 ≤ lowerCode u.val ∧ lowerCode u.val ≤ 102)

/-- `\s`. -/
def isSpace (u : CodeUnit) : Bool := isJsSpace (Char.ofNat u)

/-- `\w`, for `\b`. -/
def isWord (u : CodeUnit) : Bool :=
  isDigit u || isLetter u || u ∈ ofString "_"

/-- Digits, letters of either case, and some other characters. -/
def alnum (others : String) : Pattern :=
  .cls fun u => isDigit u || isLetter u || u ∈ ofString others

/-- A class of characters. -/
def oneOf (chars : String) : Pattern := .cls fun u => u ∈ ofString chars

/-- All characters but these. -/
def noneOf (chars : String) : Pattern := .cls fun u => u ∉ ofString chars

/-- All characters but these and white space. -/
def noneOfOrSpace (chars : String) : Pattern :=
  .cls fun u => u ∉ ofString chars && !isSpace u

/-- One digit. -/
def digit : Pattern := .cls isDigit

/-- One letter, in either case. -/
def letter : Pattern := .cls isLetter

/-- One hexadecimal digit, in either case. -/
def hex : Pattern := .cls isHex

/-- One white space. -/
def space : Pattern := .cls isSpace

/-- The empty text. -/
def empty : Pattern := .rep 0 (some 0) (.cls fun _ => false)

/-- One after the other. -/
def seqs (rs : List Pattern) : Pattern := rs.foldr .seq empty

/-- A text in either case. -/
def text (s : String) : Pattern :=
  seqs ((ofString s).map fun c => .cls fun u => lowerCode u.val = lowerCode c.val)

/-- The first alternative that matches. -/
def anyOf (rs : List Pattern) : Pattern :=
  rs.foldr .alt (.cls fun _ => false)

/-- Any number of times. -/
def star (r : Pattern) : Pattern := .rep 0 none r

/-- At least once. -/
def plus (r : Pattern) : Pattern := .rep 1 none r

/-- Once or not at all. -/
def optional (r : Pattern) : Pattern := .rep 0 (some 1) r

/-- So many times. -/
def times (n : Nat) (r : Pattern) : Pattern := .rep n (some n) r

/-- At least and at most so many times. -/
def between (least most : Nat) (r : Pattern) : Pattern := .rep least (some most) r

/-- At least so many times. -/
def atLeast (least : Nat) (r : Pattern) : Pattern := .rep least none r

-- ======================================================= sentry-sanitize.ts

/-- `URL_FIELDS`. -/
def urlFields : List JsString :=
  ["url", "uri", "path", "from", "to"].map ofString

/-- `SAFE_REQUEST_HEADERS`. -/
def safeRequestHeaders : List JsString :=
  ["content-type", "x-request-id", "x-trace-id"].map ofString

/-- `(?:https?|wss?):\/\/`. -/
def scheme : Pattern :=
  seqs [anyOf [seqs [text "http", optional (text "s")],
    seqs [text "ws", optional (text "s")]], text "://"]

/-- `URL_IN_TEXT`. -/
def urlInText : Pattern := seqs [.border, scheme, plus (noneOfOrSpace "<>\"'")]

/-- `EMAIL_IN_TEXT`. -/
def emailInText : Pattern :=
  seqs [.border, plus (alnum "._%+-"), text "@", plus (alnum ".-"), text ".",
    atLeast 2 letter, .border]

/-- `PHONE_IN_TEXT`. -/
def phoneInText : Pattern :=
  seqs [text "+", between 7 14 (seqs [digit,
    optional (.cls fun u => isSpace u || u ∈ ofString "().-")]), digit]

/-- `IBAN_IN_TEXT`. -/
def ibanInText : Pattern :=
  seqs [.border, times 2 letter, times 2 digit, between 11 30 (alnum ""), .border]

/-- `LONG_DIGIT_SEQUENCE`. -/
def longDigitSequence : Pattern :=
  seqs [.border, digit, between 12 18 (seqs [optional (oneOf " -"), digit]), .border]

/-- `BEARER_IN_TEXT`. -/
def bearerInText : Pattern :=
  seqs [.border, text "Bearer", plus space, plus (alnum "._~+/=-")]

/-- `JWT_IN_TEXT`. -/
def jwtInText : Pattern :=
  seqs [.border, text "eyJ", plus (alnum "_-"), text ".", plus (alnum "_-"), text ".",
    plus (alnum "_-"), .border]

/-- `SECRET_ASSIGNMENT_IN_TEXT`. -/
def secretAssignmentInText : Pattern :=
  seqs [
    .group (seqs [.border,
      anyOf [
        text "authorization",
        seqs [star (alnum "_-"), anyOf [text "password", text "secret", text "token",
          text "cookie", text "ticket",
          seqs [text "api", optional (oneOf "_-"), text "key"],
          seqs [text "access", optional (oneOf "_-"), text "key"],
          seqs [text "private", optional (oneOf "_-"), text "key"],
          text "credential", text "jwt", text "session"]],
        seqs [anyOf [text "otp", text "totp", text "verification", text "reset",
          text "recovery"], star (alnum "_-"), text "code"]],
      .border, star space, oneOf ":=", star space]),
    anyOf [
      seqs [text "\"", star (noneOf "\""), text "\""],
      seqs [text "'", star (noneOf "'"), text "'"],
      plus (noneOfOrSpace ",;")]]

/-- `SENSITIVE_PATH_SEGMENT`. -/
def sensitivePathSegment : Pattern :=
  seqs [
    .group (seqs [text "/", anyOf [
      seqs [text "reset", optional (text "-password")],
      seqs [text "verify", optional (text "-email")],
      text "verification", text "invite", text "token", text "ticket", text "auth",
      text "callback",
      seqs [text "user", optional (text "s")],
      seqs [text "seller", optional (text "s")],
      seqs [text "profile", optional (text "s")],
      seqs [text "session", optional (text "s")]]]),
    plus (seqs [text "/", plus (noneOfOrSpace "/?#")])]

/-- `USERINFO_IN_URL`. -/
def userinfoInUrl : Pattern :=
  seqs [.group scheme, plus (noneOfOrSpace "/@"), text "@"]

/-- `(?=\/|$)`. -/
def segmentEnd : Pattern := .ahead (.alt (text "/") .atEnd)

/-- `UUID_PATH_SEGMENT`. -/
def uuidPathSegment : Pattern :=
  seqs [text "/", times 8 hex, text "-", times 4 hex, text "-", oneOf "12345",
    times 3 hex, text "-", oneOf "89abAB", times 3 hex, text "-", times 12 hex,
    segmentEnd]

/-- `OPAQUE_PATH_SEGMENT`. -/
def opaquePathSegment : Pattern :=
  seqs [text "/", atLeast 20 (alnum "_-"), segmentEnd]

/-- `replace` with `$1` and a text. -/
def replaceWith (r : Pattern) (mark : String) (value : JsString) : JsString :=
  replaceAll isWord r (fun _ group => group ++ ofString mark) value

/-- `indexOf`, where the character is there. -/
def indexOf (value : JsString) (c : Char) : Option Nat :=
  value.findIdx? (· ∈ charUnits c)

/-- `Math.min` of the indexes that there are. -/
def earlier (queryIndex fragmentIndex : Option Nat) : Option Nat :=
  [queryIndex, fragmentIndex].reduceOption.min?

/-- The URL up to the first `?` or `#`. -/
def withoutQueryOrFragment (value : JsString) : JsString :=
  match earlier (indexOf value '?') (indexOf value '#') with
  | none => value
  | some index => value.take index

/-- `stripUrlDetails`. -/
def stripUrlDetails (value : JsString) : JsString :=
  replaceWith opaquePathSegment "/[redacted]"
    (replaceWith uuidPathSegment "/[redacted-id]"
      (replaceWith sensitivePathSegment "/[redacted]"
        (replaceWith userinfoInUrl "[redacted]@" (withoutQueryOrFragment value))))

/-- `sanitizeString`: one pattern after the other. -/
def sanitizeString (value : JsString) : JsString :=
  replaceWith longDigitSequence "[redacted-number]"
    (replaceWith ibanInText "[redacted-iban]"
      (replaceWith phoneInText "[redacted-phone]"
        (replaceWith emailInText "[redacted-email]"
          (replaceWith secretAssignmentInText "[redacted]"
            (replaceWith jwtInText "[redacted-jwt]"
              (replaceWith bearerInText "Bearer [redacted]"
                (replaceAll isWord urlInText (fun url _ => stripUrlDetails url)
                  value)))))))

/-- `(?:backup|recovery|reset|verification|totp|otp)code(?:s)?$`; what it is
tried on is in lower case. -/
def codeKey : Pattern :=
  seqs [anyOf [text "backup", text "recovery", text "reset", text "verification",
    text "totp", text "otp"], text "code", optional (text "s"), .atEnd]

section Sanitize

variable (toLowerCase : JsString → JsString)

/-- `toLowerCase().replace(/[^a-z0-9]/g, "")`. -/
def normalizedKey (key : JsString) : JsString :=
  (toLowerCase key).filter fun u => isDigit u || (97 ≤ u.val && u.val ≤ 122)

/-- `isSensitiveKey`. -/
def isSensitiveKey (key : JsString) : Bool :=
  let normalized := normalizedKey toLowerCase key
  normalized = ofString "authorization"
    || normalized = ofString "email"
    || normalized = ofString "phone"
    || normalized = ofString "iban"
    || includes normalized (ofString "apikey")
    || includes normalized (ofString "accesskey")
    || includes normalized (ofString "privatekey")
    || includes normalized (ofString "credential")
    || includes normalized (ofString "jwt")
    || includes normalized (ofString "session")
    || endsWith normalized (ofString "ticket")
    || normalized = ofString "cardnumber"
    || includes normalized (ofString "password")
    || includes normalized (ofString "secret")
    || includes normalized (ofString "token")
    || includes normalized (ofString "cookie")
    || test isWord codeKey normalized

/-- `URL_FIELDS.has(key.toLowerCase())`. -/
def isUrlField (key : JsString) : Bool := urlFields.contains (toLowerCase key)

variable {P : Type u}

/-- What is done to strings and members, and how deep. -/
def sentryRules : Scrub P where
  limit := 8
  truncated := ofString "[truncated]"
  onString := sanitizeString
  onMember key item :=
    if isSensitiveKey toLowerCase key then some (.str (ofString "[redacted]"))
    else
      match item with
      | .str s =>
          if isUrlField toLowerCase key then
            some (.str (sanitizeString (stripUrlDetails s)))
          else none
      | _ => none

/-- `sanitizeValue`. -/
def sanitizeValue (value : JsTree P) (depth : Nat) : JsTree P :=
  (sentryRules toLowerCase).walk depth value

-- ------------------------------------------------------------------ events

-- Whether another primitive value counts as true.
variable (truthy : P → Bool)

/-- Whether `if (value)` takes its branch. -/
def isTruthy : JsTree P → Bool
  | .prim p => truthy p
  | .str s => !s.isEmpty
  | _ => true

/-- `value[name]`, for names that no built-in object has. -/
def property (value : JsTree P) (name : String) : Option (JsTree P) :=
  match value with
  | .obj members => members.lookup (ofString name)
  | _ => none

/-- `Object.entries`. -/
def entries : JsTree P → List (JsString × JsTree P)
  | .prim _ => []
  | .str s => s.zipIdx.map fun (u, i) => (ofString (toString i), .str [u])
  | .arr items => items.zipIdx.map fun (v, i) => (ofString (toString i), v)
  | .obj members => members

/-- The URL of a request, stripped. -/
def urlPart : Option (JsTree P) → List (JsString × JsTree P)
  | some (.str s) => [(ofString "url", .str (stripUrlDetails s))]
  | _ => []

/-- The method of a request. -/
def methodPart : Option (JsTree P) → List (JsString × JsTree P)
  | some (.str s) => [(ofString "method", .str s)]
  | _ => []

/-- A header that is kept. -/
def isSafeHeader (key : JsString) : Bool :=
  safeRequestHeaders.contains (toLowerCase key)

/-- The headers of a request that are kept. -/
def headersPart : Option (JsTree P) → List (JsString × JsTree P)
  | none => []
  | some headers =>
      if isTruthy truthy headers then
        [(ofString "headers",
          .obj ((entries headers).filter fun m => isSafeHeader toLowerCase m.1))]
      else []

/-- What is left of a request. -/
def cutRequest (request : JsTree P) : JsTree P :=
  .obj (urlPart (property request "url") ++ methodPart (property request "method")
    ++ headersPart toLowerCase truthy (property request "headers"))

/-- The other values have no `replace`, or no `indexOf`. -/
def cutTransaction : JsTree P → Except String (JsTree P)
  | .str s => .ok (.str (stripUrlDetails s))
  | _ => .error "TypeError"

/-- A field of the user that is kept. -/
def isUserField (key : JsString) : Bool :=
  key = ofString "id" || key = ofString "segment"

/-- `typeof value === "string"`. -/
def isString : JsTree P → Bool
  | .str _ => true
  | _ => false

/-- What is left of the user. -/
def cutUser (user : JsTree P) : JsTree P :=
  .obj ((entries user).filter fun m => isUserField m.1 && isString m.2)

/-- `if (event[name]) event[name] = cut(event[name])`, of one member: an
object has one of a name. -/
def cutMember (name : String) (cut : JsTree P → JsTree P)
    (m : JsString × JsTree P) : JsString × JsTree P :=
  if m.1 = ofString name ∧ isTruthy truthy m.2 then (m.1, cut m.2) else m

/-- A name of a transaction is stripped as a URL is. -/
def transactionMember (m : JsString × JsTree P) :
    Except String (JsString × JsTree P) :=
  if m.1 = ofString "transaction" ∧ isTruthy truthy m.2 then do
    let value ← cutTransaction m.2
    return (m.1, value)
  else return m

/-- An event is an object, by its members. -/
def sanitizeSentryEvent (event : List (JsString × JsTree P)) :
    Except String (List (JsString × JsTree P)) := do
  let sanitizedEvent := entries (sanitizeValue toLowerCase (.obj event) 0)
  let withRequest := sanitizedEvent.map
    (cutMember truthy "request" (cutRequest toLowerCase truthy))
  let withTransaction ← withRequest.mapM (transactionMember truthy)
  return withTransaction.map (cutMember truthy "user" cutUser)

end Sanitize

-- =================================================================== URLs

/-- The part of a URL before its query and its fragment. -/
def beforeDetails (value : JsString) : JsString :=
  value.takeWhile fun u => u ∉ charUnits '?' && u ∉ charUnits '#'

/-- Nothing is earlier than the first position. -/
theorem earlier_zero_left (j : Option Nat) : earlier (some 0) j = some 0 := by
  cases j <;> simp [earlier, List.min?]

/-- On either side. -/
theorem earlier_zero_right (i : Option Nat) : earlier i (some 0) = some 0 := by
  cases i <;> simp [earlier, List.min?]

/-- One character further on. -/
theorem earlier_succ (i j : Option Nat) :
    earlier (i.map (· + 1)) (j.map (· + 1)) = (earlier i j).map (· + 1) := by
  cases i <;> cases j <;> simp [earlier, List.min?]

/-- The earlier of the two indexes ends the part before both. -/
theorem withoutQueryOrFragment_eq (value : JsString) :
    withoutQueryOrFragment value = beforeDetails value := by
  unfold withoutQueryOrFragment beforeDetails indexOf
  induction value with
  | nil => rfl
  | cons u value ih =>
      rw [List.findIdx?_cons, List.findIdx?_cons]
      by_cases hquery : u ∈ charUnits '?'
      · simp [hquery, earlier_zero_left]
      · by_cases hfragment : u ∈ charUnits '#'
        · simp [hquery, hfragment, earlier_zero_right]
        · simp only [hquery, hfragment, decide_false, Bool.false_eq_true, if_false,
            earlier_succ, List.takeWhile_cons, Bool.and_self, ← ih]
          cases earlier (value.findIdx? (· ∈ charUnits '?'))
              (value.findIdx? (· ∈ charUnits '#')) <;> rfl

/-- What is cut off a URL does not show in what is left. -/
theorem stripUrlDetails_congr {s s' : JsString}
    (h : beforeDetails s = beforeDetails s') :
    stripUrlDetails s = stripUrlDetails s' := by
  rw [stripUrlDetails, stripUrlDetails, withoutQueryOrFragment_eq,
    withoutQueryOrFragment_eq, h]

-- ============================================================== alike events

section Alike

variable {P : Type u} (toLowerCase : JsString → JsString)

/-- A member may differ under a sensitive key, and a URL under a URL key
in its query and its fragment. -/
def MayDiffer (key : JsString) (v v' : JsTree P) : Prop :=
  isSensitiveKey toLowerCase key = true
    ∨ isUrlField toLowerCase key = true
      ∧ ∃ s s', v = .str s ∧ v' = .str s' ∧ beforeDetails s = beforeDetails s'

/-- Members that may differ under sensitive keys and in the parts of a URL
that are cut. -/
abbrev AlikeMembers (m m' : List (JsString × JsTree P)) : Prop :=
  List.Forall₂ (Scrub.AlikeMember (MayDiffer toLowerCase)) m m'

/-- A field of the request that is not cut off. -/
def isRequestField (key : JsString) : Bool :=
  key ≠ ofString "data" && key ≠ ofString "cookies" && key ≠ ofString "query_string"

/-- Members of two requests: headers may differ in other than the allowed
ones. -/
inductive AlikeRequestMember : JsString × JsTree P → JsString × JsTree P → Prop where
  | headers {h h' : List (JsString × JsTree P)}
      (halike : AlikeMembers toLowerCase (h.filter fun m => isSafeHeader toLowerCase m.1)
        (h'.filter fun m => isSafeHeader toLowerCase m.1)) :
      AlikeRequestMember (ofString "headers", .obj h) (ofString "headers", .obj h')
  | other {a b : JsString × JsTree P}
      (h : Scrub.AlikeMember (MayDiffer toLowerCase) a b) : AlikeRequestMember a b

/-- Members of two events: a request may differ in the fields that are
not sent, a user in other than the two that are. -/
inductive AlikeEventMember : JsString × JsTree P → JsString × JsTree P → Prop where
  | request {m m' : List (JsString × JsTree P)}
      (h : List.Forall₂ (AlikeRequestMember toLowerCase)
        (m.filter fun m => isRequestField m.1) (m'.filter fun m => isRequestField m.1)) :
      AlikeEventMember (ofString "request", .obj m) (ofString "request", .obj m')
  | user {m m' : List (JsString × JsTree P)}
      (h : AlikeMembers toLowerCase (m.filter fun m => isUserField m.1)
        (m'.filter fun m => isUserField m.1)) :
      AlikeEventMember (ofString "user", .obj m) (ofString "user", .obj m')
  | other {a b : JsString × JsTree P}
      (h : Scrub.AlikeMember (MayDiffer toLowerCase) a b) : AlikeEventMember a b

/-- Events that differ only in what is to stay hidden. -/
def AlikeEvents (event event' : List (JsString × JsTree P)) : Prop :=
  List.Forall₂ (AlikeEventMember toLowerCase) event event'

end Alike

variable {P : Type u} {toLowerCase : JsString → JsString} {truthy : P → Bool}
  {members members' : List (JsString × JsTree P)}

/-- A sensitive key gets the mark. -/
theorem onMember_of_sensitive {key : JsString} (v : JsTree P)
    (h : isSensitiveKey toLowerCase key = true) :
    (sentryRules toLowerCase).onMember key v
      = some (.str (ofString "[redacted]")) :=
  if_pos h

/-- A URL key gets its URL without query and fragment. -/
theorem onMember_url {key s : JsString} (h : isSensitiveKey toLowerCase key ≠ true)
    (hurl : isUrlField toLowerCase key = true) :
    (sentryRules toLowerCase : Scrub P).onMember key (.str s)
      = some (.str (sanitizeString (stripUrlDetails s))) := by
  simp [sentryRules, h, hurl]

/-- The rules do not see where members may differ. -/
theorem blind : (sentryRules toLowerCase : Scrub P).Blind (MayDiffer toLowerCase) where
  differ {key v v'} h := by
    by_cases hsensitive : isSensitiveKey toLowerCase key = true
    · exact ⟨_, onMember_of_sensitive v hsensitive, onMember_of_sensitive v' hsensitive⟩
    · obtain ⟨hurl, s, s', rfl, rfl, hbefore⟩ := h.resolve_left hsensitive
      refine ⟨_, onMember_url hsensitive hurl, ?_⟩
      rw [onMember_url hsensitive hurl, stripUrlDetails_congr hbefore]
  alike {v v'} h key := by
    cases h <;> rfl

/-- An object under another key is rewritten inside. -/
theorem member_obj {key : JsString} (h : isSensitiveKey toLowerCase key ≠ true)
    {depth : Nat} (hdepth : depth ≤ 8) (members : List (JsString × JsTree P)) :
    (sentryRules toLowerCase).member depth key (.obj members)
      = .obj ((sentryRules toLowerCase).walkMembers (depth + 1) members) := by
  have hnone : (sentryRules toLowerCase).onMember key (.obj members) = none := by
    simp [sentryRules, h]
  have hlimit : depth ≤ (sentryRules toLowerCase : Scrub P).limit := hdepth
  rw [Scrub.member, hnone, Option.getD_none, Scrub.walk_obj hlimit, Scrub.walkMembers_eq]

/-- A sensitive member is rewritten to the mark. -/
theorem member_of_sensitive {key : JsString} (h : isSensitiveKey toLowerCase key = true)
    (depth : Nat) (v : JsTree P) :
    (sentryRules toLowerCase).member depth key v = .str (ofString "[redacted]") := by
  rw [Scrub.member, onMember_of_sensitive v h, Option.getD_some]

-- ============================================================== the two runs

/-- Only names are looked at in choosing members. -/
theorem filter_walkMembers (keep : JsString → Bool) (depth : Nat)
    (members : List (JsString × JsTree P)) :
    ((sentryRules toLowerCase).walkMembers depth members).filter (fun m => keep m.1)
      = (sentryRules toLowerCase).walkMembers depth
          (members.filter fun m => keep m.1) := by
  rw [Scrub.walkMembers_eq, Scrub.walkMembers_eq, List.filter_map]
  rfl

/-- A key that is kept finds what it found. -/
theorem lookup_filter {keep : JsString → Bool} {key : JsString} (h : keep key = true)
    (members : List (JsString × JsTree P)) :
    (members.filter fun m => keep m.1).lookup key = members.lookup key := by
  induction members with
  | nil => rfl
  | cons m members ih =>
      by_cases hkey : key = m.1
      · rw [List.filter_cons_of_pos (by rw [← hkey]; exact h), List.lookup_cons,
          List.lookup_cons, beq_iff_eq.mpr hkey]
      · rw [List.filter_cons]
        split
        · rw [List.lookup_cons, List.lookup_cons, ih]
        · rw [List.lookup_cons, beq_false_of_ne hkey, ih]

/-- Members of two sanitized requests: equal, or headers of which the same
is sent. -/
def SentAlike (toLowerCase : JsString → JsString) (truthy : P → Bool)
    (a b : JsString × JsTree P) : Prop :=
  a = b ∨ a.1 = ofString "headers" ∧ b.1 = ofString "headers"
    ∧ headersPart toLowerCase truthy (some a.2)
      = headersPart toLowerCase truthy (some b.2)

/-- Alike members of a request are sent alike. -/
theorem sentAlike_of_alikeRequestMember {a b : JsString × JsTree P}
    (h : AlikeRequestMember toLowerCase a b) :
    SentAlike toLowerCase truthy
      (a.1, (sentryRules toLowerCase).member 2 a.1 a.2)
      (b.1, (sentryRules toLowerCase).member 2 b.1 b.2) := by
  cases h with
  | other h => exact .inl (blind.pair_eq h 2)
  | headers halike =>
      by_cases hsensitive : isSensitiveKey toLowerCase (ofString "headers") = true
      · left
        rw [member_of_sensitive hsensitive, member_of_sensitive hsensitive]
      · refine .inr ⟨rfl, rfl, ?_⟩
        have hsafe := Scrub.walkMembers_eq_of_alike blind halike 3
        rw [← filter_walkMembers, ← filter_walkMembers] at hsafe
        rw [member_obj hsensitive (by omega), member_obj hsensitive (by omega)]
        simp only [headersPart, isTruthy, entries, hsafe]

/-- So they are one to every key that is read. -/
theorem lookup_of_sentAlike (h : List.Forall₂ (SentAlike toLowerCase truthy) members
      members') (key : JsString) :
    members.lookup key = members'.lookup key
      ∨ key = ofString "headers"
        ∧ headersPart toLowerCase truthy (members.lookup key)
          = headersPart toLowerCase truthy (members'.lookup key) := by
  induction h with
  | nil => exact .inl rfl
  | @cons a b members members' hab _ ih =>
      have hkeys : a.1 = b.1 := by
        rcases hab with rfl | ⟨ha, hb, -⟩
        · rfl
        · rw [ha, hb]
      rw [List.lookup_cons, List.lookup_cons, ← hkeys]
      by_cases hkey : key = a.1
      · rw [beq_iff_eq.mpr hkey]
        rcases hab with rfl | ⟨ha, -, hparts⟩
        · exact .inl rfl
        · exact .inr ⟨hkey.trans ha, hparts⟩
      · rw [beq_false_of_ne hkey]
        exact ih

/-- What is left of alike requests is one request. -/
theorem cutRequest_eq (h : List.Forall₂ (AlikeRequestMember toLowerCase)
      (members.filter fun m => isRequestField m.1)
      (members'.filter fun m => isRequestField m.1)) :
    cutRequest toLowerCase truthy
        (.obj ((sentryRules toLowerCase).walkMembers 2 members))
      = cutRequest toLowerCase truthy
        (.obj ((sentryRules toLowerCase).walkMembers 2 members')) := by
  have hsent : List.Forall₂ (SentAlike toLowerCase truthy)
      ((sentryRules toLowerCase).walkMembers 2
        (members.filter fun m => isRequestField m.1))
      ((sentryRules toLowerCase).walkMembers 2
        (members'.filter fun m => isRequestField m.1)) := by
    rw [Scrub.walkMembers_eq, Scrub.walkMembers_eq]
    refine List.forall₂_map_left_iff.mpr (List.forall₂_map_right_iff.mpr ?_)
    exact h.imp fun a b hab => sentAlike_of_alikeRequestMember hab
  have hread : ∀ name : String, isRequestField (ofString name) = true →
      ∀ members : List (JsString × JsTree P),
      property (.obj ((sentryRules toLowerCase).walkMembers 2 members)) name
        = ((sentryRules toLowerCase).walkMembers 2
          (members.filter fun m => isRequestField m.1)).lookup (ofString name) := by
    intro name hname members
    rw [← filter_walkMembers, lookup_filter hname]
    rfl
  have hurl := (lookup_of_sentAlike hsent (ofString "url")).resolve_right
    fun hheaders => absurd hheaders.1 (by decide)
  have hmethod := (lookup_of_sentAlike hsent (ofString "method")).resolve_right
    fun hheaders => absurd hheaders.1 (by decide)
  have hheaders : headersPart toLowerCase truthy _ = headersPart toLowerCase truthy _ :=
    (lookup_of_sentAlike hsent (ofString "headers")).elim
      (fun heq => congrArg _ heq) And.right
  rw [cutRequest, cutRequest]
  simp only [hread "url" (by decide), hread "method" (by decide),
    hread "headers" (by decide), hurl, hmethod, hheaders]

/-- What is left of alike users is one user. -/
theorem cutUser_eq (h : AlikeMembers toLowerCase
      (members.filter fun m => isUserField m.1)
      (members'.filter fun m => isUserField m.1)) :
    cutUser (.obj ((sentryRules toLowerCase).walkMembers 2 members))
      = cutUser (.obj ((sentryRules toLowerCase).walkMembers 2 members')) := by
  have hfields := Scrub.walkMembers_eq_of_alike blind h 2
  rw [← filter_walkMembers, ← filter_walkMembers] at hfields
  have hcut : ∀ members : List (JsString × JsTree P),
      (members.filter fun m => isUserField m.1 && isString m.2)
        = (members.filter fun m => isUserField m.1).filter fun m => isString m.2 := by
    intro members
    rw [List.filter_filter]
    exact List.filter_congr fun m _ => Bool.and_comm _ _
  rw [cutUser, cutUser, entries, entries, hcut, hcut, hfields]

/-- Members of two events whose requests are cut: equal, or users that are
cut to one. -/
def UserAlike (a b : JsString × JsTree P) : Prop :=
  a = b ∨ ∃ m m', a = (ofString "user", .obj m) ∧ b = (ofString "user", .obj m')
    ∧ cutUser (.obj m) = cutUser (.obj m')

/-- Alike members of an event are alike once the request is cut. -/
theorem userAlike_of_alikeEventMember {a b : JsString × JsTree P}
    (h : AlikeEventMember toLowerCase a b) :
    UserAlike
      (cutMember truthy "request" (cutRequest toLowerCase truthy)
        (a.1, (sentryRules toLowerCase).member 1 a.1 a.2))
      (cutMember truthy "request" (cutRequest toLowerCase truthy)
        (b.1, (sentryRules toLowerCase).member 1 b.1 b.2)) := by
  cases h with
  | other h => exact .inl (congrArg _ (blind.pair_eq h 1))
  | request h =>
      left
      by_cases hsensitive : isSensitiveKey toLowerCase (ofString "request") = true
      · rw [member_of_sensitive hsensitive, member_of_sensitive hsensitive]
      · rw [member_obj hsensitive (by omega), member_obj hsensitive (by omega),
          cutMember, cutMember, if_pos ⟨rfl, rfl⟩, if_pos ⟨rfl, rfl⟩]
        exact congrArg (Prod.mk _) (cutRequest_eq h)
  | user h =>
      by_cases hsensitive : isSensitiveKey toLowerCase (ofString "user") = true
      · left
        rw [member_of_sensitive hsensitive, member_of_sensitive hsensitive]
      · have hname : ofString "user" ≠ ofString "request" := by decide
        rw [member_obj hsensitive (by omega), member_obj hsensitive (by omega),
          cutMember, cutMember, if_neg fun hcut => hname hcut.1,
          if_neg fun hcut => hname hcut.1]
        exact .inr ⟨_, _, rfl, rfl, cutUser_eq h⟩

/-- A user passes the transaction's turn, and is cut after it. -/
theorem cut_of_userAlike {a b : JsString × JsTree P} (h : UserAlike a b) :
    (transactionMember truthy a).map (cutMember truthy "user" cutUser)
      = (transactionMember truthy b).map (cutMember truthy "user" cutUser) := by
  rcases h with rfl | ⟨m, m', rfl, rfl, hcut⟩
  · rfl
  · have hname : ofString "user" ≠ ofString "transaction" := by decide
    rw [transactionMember, transactionMember, if_neg fun hturn => hname hturn.1,
      if_neg fun hturn => hname hturn.1]
    simp only [pure, Except.pure, Except.map]
    rw [cutMember, cutMember, if_pos ⟨rfl, rfl⟩, if_pos ⟨rfl, rfl⟩, hcut]

/-- Two turns over a list, of which only the first can fail, are one. -/
theorem map_mapM {ε α β γ : Type*} (f : α → Except ε β) (g : β → γ) (l : List α) :
    (l.mapM f).map (List.map g) = l.mapM fun a => (f a).map g := by
  induction l with
  | nil => rfl
  | cons a l ih =>
      rw [List.mapM_cons, List.mapM_cons, ← ih]
      cases f a with
      | error e => rfl
      | ok b => cases l.mapM f <;> rfl

/-- A loop over members that fare the same comes out the same. -/
theorem mapM_eq_of_forall₂ {ε α β : Type*} {f : α → Except ε β} {l l' : List α}
    (h : List.Forall₂ (fun a b => f a = f b) l l') : l.mapM f = l'.mapM f := by
  induction h with
  | nil => rfl
  | cons hab _ ih => rw [List.mapM_cons, List.mapM_cons, hab, ih]

/-- The members of an event are rewritten one level below the event. -/
theorem entries_sanitizeValue (event : List (JsString × JsTree P)) :
    entries (sanitizeValue toLowerCase (.obj event) 0)
      = (sentryRules toLowerCase).walkMembers 1 event := by
  rw [sanitizeValue, Scrub.walk_obj (Nat.zero_le _), Scrub.walkMembers_eq]
  rfl

/-- What is to stay hidden in an event does not show in what is sent. -/
theorem sanitizeSentryEvent_alike {event event' : List (JsString × JsTree P)}
    (h : AlikeEvents toLowerCase event event') :
    sanitizeSentryEvent toLowerCase truthy event
      = sanitizeSentryEvent toLowerCase truthy event' := by
  have heq : ∀ event : List (JsString × JsTree P),
      sanitizeSentryEvent toLowerCase truthy event
        = (((sentryRules toLowerCase).walkMembers 1 event).map
            (cutMember truthy "request" (cutRequest toLowerCase truthy))).mapM
          fun m => (transactionMember truthy m).map (cutMember truthy "user" cutUser) := by
    intro event
    rw [← map_mapM, sanitizeSentryEvent, entries_sanitizeValue]
    generalize List.mapM (m := Except String) _ _ = result
    cases result <;> rfl
  rw [heq, heq, Scrub.walkMembers_eq, Scrub.walkMembers_eq, List.map_map, List.map_map]
  apply mapM_eq_of_forall₂
  refine List.forall₂_map_left_iff.mpr (List.forall₂_map_right_iff.mpr ?_)
  exact h.imp fun a b hab => cut_of_userAlike (userAlike_of_alikeEventMember hab)

end SentrySanitize

-- ================================================================= the result

open Utf16 SentrySanitize AuditRedact

/-- On both paths two values that differ only in what is to stay hidden
come out as one; what the backend has redacted stays as it is, and what it
need not redact stays where it is. -/
theorem redaction_noninterfering {P : Type u} (toLowerCase : JsString → JsString)
    (truthy : P → Bool) :
    (∀ v v' : JsTree P, AlikeButSecrets toLowerCase v v' →
        redactSensitive toLowerCase v 0 = redactSensitive toLowerCase v' 0)
      ∧ (∀ v : JsTree P,
          redactSensitive toLowerCase (redactSensitive toLowerCase v 0) 0
            = redactSensitive toLowerCase v 0)
      ∧ (∀ (v x : JsTree P) (path : List Scrub.Step),
          (∀ key, Scrub.Step.key key ∈ path →
            AuditRedact.isSensitiveKey toLowerCase key = false) →
          path.length ≤ 9 → Scrub.valueAt v path = some x →
          Clean toLowerCase path.length x →
          Scrub.valueAt (redactSensitive toLowerCase v 0) path = some x)
      ∧ ∀ event event' : List (JsString × JsTree P),
          AlikeEvents toLowerCase event event' →
          sanitizeSentryEvent toLowerCase truthy event
            = sanitizeSentryEvent toLowerCase truthy event' :=
  ⟨fun _ _ h => redactSensitive_alike h 0, fun v => redactSensitive_redactSensitive v 0,
    fun _ _ _ => redactSensitive_keeps, fun _ _ => sanitizeSentryEvent_alike⟩

/-- A failed login: a URL with a ticket, the body, and who it was. -/
def failedLogin (ticket password email : String) : List (JsString × JsTree Bool) :=
  [(ofString "request", .obj [
      (ofString "url", .str (ofString ("https://keepgame.test/login?ticket=" ++ ticket))),
      (ofString "data", .str (ofString password))]),
    (ofString "user", .obj [
      (ofString "id", .str (ofString "user-1")),
      (ofString "email", .str (ofString email))])]

/-- What is recorded of a login, with the secret in it. -/
def loginRecord (password : String) : JsTree Bool :=
  .obj [(ofString "id", .str (ofString "user-1")),
    (ofString "password", .str (ofString password))]

/-- `toLowerCase` on the ASCII letters. -/
def asciiLower : JsString → JsString :=
  List.map fun u => ⟨lowerCode u % 65536, Nat.mod_lt _ (by decide)⟩

/-- Two logins that differ in their secrets: the records become one, keep
the id and stay as they are, and what is sent of them is one event. -/
theorem failed_login_sent :
    redactSensitive asciiLower (loginRecord "swordfish") 0
        = redactSensitive asciiLower (loginRecord "letmein") 0
      ∧ redactSensitive asciiLower
          (redactSensitive asciiLower (loginRecord "swordfish") 0) 0
        = redactSensitive asciiLower (loginRecord "swordfish") 0
      ∧ Scrub.valueAt (redactSensitive asciiLower (loginRecord "swordfish") 0)
          [.key (ofString "id")] = some (.str (ofString "user-1"))
      ∧ sanitizeSentryEvent asciiLower id (failedLogin "a1" "swordfish" "x@one.test")
        = sanitizeSentryEvent asciiLower id
            (failedLogin "b2b2" "letmein" "y@two.test") := by
  obtain ⟨halike, htwice, hkeeps, hsent⟩ := redaction_noninterfering asciiLower id
  refine ⟨halike _ _ ?_, htwice _, ?_, hsent _ _ ?_⟩
  · refine .obj (.cons (.alike (.str _)) (.cons (.differ ?_) .nil))
    decide +kernel
  · refine hkeeps _ _ [.key (ofString "id")] ?_ (by decide) rfl (.str _)
    intro key hkey
    cases List.mem_singleton.mp hkey
    decide +kernel
  · refine .cons (.request ?_) (.cons (.user ?_) .nil)
    · refine .cons (.other (.differ (.inr ⟨?_, _, _, rfl, rfl, ?_⟩))) .nil
      · decide
      · decide
    · exact .cons (.alike (.str _)) .nil

end Skrynia
