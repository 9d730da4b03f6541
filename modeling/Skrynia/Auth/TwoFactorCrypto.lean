/-
Encryption of stored second-factor secrets, with versioned keys.

An envelope names the version of its key; that version and the user id
are its associated data. A keyring holds the current key and the
previous ones, each under its own version, so during a rotation an
instance reads what others write as long as it has their key.

# What an envelope is bound to

The cipher is ideal (`Aead.Cipher.Ideal`). What is left to the code is
that nothing else passes for the five inputs of a decryption: the
associated data tells user id and version apart
(`additionalAuthenticatedData_inj`), and a text is accepted as Base64
only if it is the one that its bytes are printed as
(`decodeBase64Strict_eq_ok`). User ids are uuids and texts without lone
surrogates, as secrets are.
-/
import Skrynia.Common.Text
import Skrynia.Domain.Uuid
import Skrynia.Lib.Aead
import Skrynia.Lib.Base64
import Skrynia.Lib.Decimal
import Skrynia.Lib.InsertionMap
import Skrynia.Lib.Json
import Skrynia.Lib.Tx

namespace Skrynia

open Relational

/-- A buffer of Node. -/
abbrev Buffer := List UInt8

/-- A number as a key version: an integral one, or any other by how it
prints. -/
inductive KeyVersion where
  | integer (v : Int)
  | other (text : String)
deriving DecidableEq

/-- What a template literal prints. -/
def KeyVersion.text : KeyVersion → String
  | .integer v => toString v
  | .other text => text

/-- A key with its version. -/
structure TwoFactorEncryptionKey where
  keyHex : String
  version : KeyVersion

/-- The configured previous keys, which need not be an array. -/
inductive PreviousKeys where
  | undefined
  | array (entries : List TwoFactorEncryptionKey)
  | other

/-- The current key, and the previous ones. -/
structure TwoFactorEncryptionConfig extends TwoFactorEncryptionKey where
  previousKeys : PreviousKeys

/-- An envelope. -/
structure EncryptedTwoFactorSecret where
  ciphertext : String
  iv : String
  authTag : String
  version : KeyVersion
deriving DecidableEq

/-- A secret, and whether its envelope is of an older key. -/
structure DecryptedTwoFactorSecret where
  secret : String
  needsRotation : Bool

/-- The cipher, with its tag. -/
abbrev GcmEncryption := Aead.Encryption Buffer Buffer Buffer Buffer

/-- `IV_BYTES`. -/
def ivBytes : Nat := 12

/-- `AUTH_TAG_BYTES`. -/
def authTagBytes : Nat := 16

/-- `MAX_ENCODED_CIPHERTEXT_LENGTH`. -/
def maxEncodedCiphertextLength : Nat := 8192

/-- AES-256-GCM with tags of full length. -/
structure AesGcm extends Aead.Cipher Buffer Buffer Buffer Buffer Buffer Buffer where
  tag_length : ∀ e, (tag e).length = authTagBytes

/-- What `randomBytes(IV_BYTES)` gives. -/
abbrev GcmIv := { iv : Buffer // iv.length = ivBytes }

-- ================================================================= keyring

/-- A safe integer from 1 on. -/
def isKeyVersion : KeyVersion → Bool
  | .integer v => 1 ≤ v && v ≤ 9007199254740991
  | .other _ => false

/-- `assertKeyVersion`. -/
def assertKeyVersion (version : KeyVersion) : Except String Unit :=
  if isKeyVersion version = false then
    .error "TWO_FACTOR_ENCRYPTION_KEY_VERSION must be a positive integer"
  else .ok ()

/-- `Buffer.from(s, "hex")`, up to the first pair that is no byte. -/
def bufferFromHex : List Char → Buffer
  | a :: b :: rest =>
      match Uuid.hexValue a, Uuid.hexValue b with
      | some high, some low => UInt8.ofNat (16 * high + low) :: bufferFromHex rest
      | _, _ => []
  | _ => []

/-- `/^[a-fA-F0-9]{64}$/`. -/
def matchesKeyHex (cs : List Char) : Bool :=
  cs.length == 64 && cs.all fun c => (Uuid.hexValue c).isSome

/-- `encryptionKey`: 64 hexadecimal digits. -/
def encryptionKey (entry : TwoFactorEncryptionKey) : Except String Buffer := do
  assertKeyVersion entry.version
  if matchesKeyHex entry.keyHex.toList = false then
    .error "TWO_FACTOR_ENCRYPTION_KEY must be 64 hexadecimal characters"
  else
    let key := bufferFromHex entry.keyHex.toList
    if key.length ≠ 32 then
      .error "TWO_FACTOR_ENCRYPTION_KEY must decode to exactly 32 bytes"
    else .ok key

/-- The keys by their versions. -/
abbrev Keyring := InsertionMap KeyVersion Buffer

/-- The current key, then the previous ones. -/
def TwoFactorEncryptionConfig.entries (config : TwoFactorEncryptionConfig) :
    List TwoFactorEncryptionKey :=
  config.toTwoFactorEncryptionKey :: match config.previousKeys with
    | .array entries => entries
    | _ => []

/-- One more key, under a version of its own. -/
def addKey (keyring : Keyring) (entry : TwoFactorEncryptionKey) :
    Except String Keyring :=
  if keyring.has entry.version = true then
    .error ("Duplicate two-factor encryption key version: " ++ entry.version.text)
  else do
    let key ← encryptionKey entry
    return keyring.set entry.version key

/-- `encryptionKeyring`: the current key first. -/
def encryptionKeyring (config : TwoFactorEncryptionConfig) : Except String Keyring :=
  match config.previousKeys with
  | .other => .error "TWO_FACTOR_ENCRYPTION_PREVIOUS_KEYS must be an array"
  | _ => config.entries.foldlM addKey .empty

-- ================================================================ envelopes

/-- `Buffer.from(s, "utf8")`. -/
def bufferFromUtf8 (s : String) : Buffer := s.toUTF8.data.toList

/-- `toString("utf8")`; `lossy` is what it makes of bytes that are no
UTF-8. -/
def bufferToUtf8 (lossy : Buffer → String) (b : Buffer) : String :=
  match String.fromUTF8? ⟨b.toArray⟩ with
  | some s => s
  | none => lossy b

/-- `additionalAuthenticatedData`: user id and version. -/
def additionalAuthenticatedData (userId : String) (version : KeyVersion) :
    Except String Buffer :=
  if userId = "" then .error "Two-factor secret user id must not be empty"
  else .ok (bufferFromUtf8 ("skrynia:2fa:" ++ userId ++ ":v" ++ version.text))

/-- What the decoder is told besides. -/
structure Base64Options where
  exactBytes : Option Nat
  maxEncodedLength : Option Nat

/-- `[A-Za-z0-9+/]`. -/
def isBase64Char (c : Char) : Bool := c.isAlphanum || c == '+' || c == '/'

/-- `/^(?:[A-Za-z0-9+/]{4})*(?:[A-Za-z0-9+/]{2}==|[A-Za-z0-9+/]{3}=)?$/`. -/
def matchesBase64 (cs : List Char) : Bool :=
  let digits := cs.takeWhile isBase64Char
  let padding := cs.dropWhile isBase64Char
  padding.all (· == '=')
    && [(0, 0), (2, 2), (3, 1)].contains (digits.length % 4, padding.length)

/-- `decodeBase64Strict`: the text must be what its bytes are printed as. -/
def decodeBase64Strict (value field : String) (options : Base64Options) :
    Except String Buffer :=
  if value = "" ∨ options.maxEncodedLength.any (· < utf16Length value) = true
      ∨ matchesBase64 value.toList = false then
    .error ("Malformed two-factor " ++ field)
  else
    let decoded := Base64.decode value
    if Base64.encode decoded ≠ value
        ∨ options.exactBytes.any (decoded.length != ·) = true then
      .error ("Malformed two-factor " ++ field)
    else .ok decoded

/-- The envelope, and the encryption that the cipher has made. -/
def encryptTwoFactorSecretWithConfig (gcm : AesGcm) (iv : GcmIv) (secret userId : String)
    (config : TwoFactorEncryptionConfig) :
    Except String (EncryptedTwoFactorSecret × GcmEncryption) := do
  let keyring ← encryptionKeyring config
  match keyring.get config.version with
  | none => .error "Current two-factor encryption key is unavailable"
  | some key =>
      let aad ← additionalAuthenticatedData userId config.version
      let e : GcmEncryption := ⟨key, iv.1, aad, bufferFromUtf8 secret⟩
      .ok ({ ciphertext := Base64.encode (gcm.ciphertext e), iv := Base64.encode iv.1,
             authTag := Base64.encode (gcm.tag e), version := config.version }, e)

section Decrypt

variable (gcm : AesGcm) (log : List GcmEncryption) (lossy : Buffer → String)

/-- `decryptTwoFactorSecretWithConfigForRotation`. -/
def decryptTwoFactorSecretWithConfigForRotation (encrypted : EncryptedTwoFactorSecret)
    (userId : String) (config : TwoFactorEncryptionConfig) :
    Except String DecryptedTwoFactorSecret := do
  assertKeyVersion encrypted.version
  let keyring ← encryptionKeyring config
  match keyring.get encrypted.version with
  | none => .error ("Unsupported two-factor encryption key version: "
      ++ encrypted.version.text)
  | some key =>
      let iv ← decodeBase64Strict encrypted.iv "IV" ⟨some ivBytes, none⟩
      let authTag ← decodeBase64Strict encrypted.authTag "authentication tag"
        ⟨some authTagBytes, none⟩
      let ciphertext ← decodeBase64Strict encrypted.ciphertext "ciphertext"
        ⟨none, some maxEncodedCiphertextLength⟩
      let aad ← additionalAuthenticatedData userId encrypted.version
      match gcm.decrypt log key iv aad ciphertext authTag with
      | none => .error "Unsupported state or unable to authenticate data"
      | some plaintext =>
          .ok { secret := bufferToUtf8 lossy plaintext,
                needsRotation := encrypted.version != config.version }

/-- `decryptTwoFactorSecretWithConfig`. -/
def decryptTwoFactorSecretWithConfig (encrypted : EncryptedTwoFactorSecret)
    (userId : String) (config : TwoFactorEncryptionConfig) : Except String String := do
  let decrypted ←
    decryptTwoFactorSecretWithConfigForRotation gcm log lossy encrypted userId config
  return decrypted.secret

end Decrypt

-- ============================================================== the keyring

section Keyring

variable {config : TwoFactorEncryptionConfig} {entry : TwoFactorEncryptionKey}
  {keyring keyring' : Keyring} {version : KeyVersion} {key : Buffer}

/-- A version is accepted if it is a positive integer. -/
theorem assertKeyVersion_eq_ok : assertKeyVersion version = .ok () ↔ isKeyVersion version = true := by
  unfold assertKeyVersion
  rw [ite_error_eq_ok]
  simp

/-- A key that is accepted has a version and is the bytes of its digits. -/
theorem encryptionKey_eq_ok (h : encryptionKey entry = .ok key) :
    isKeyVersion entry.version = true ∧ bufferFromHex entry.keyHex.toList = key := by
  unfold encryptionKey at h
  rw [except_bind_eq_ok] at h
  obtain ⟨_, hversion, h⟩ := h
  simp only [ite_error_eq_ok, Except.ok.injEq] at h
  exact ⟨assertKeyVersion_eq_ok.mp hversion, h.2.2⟩

/-- An entry of the configuration as it stands in the keyring. -/
def TwoFactorEncryptionKey.held (entry : TwoFactorEncryptionKey) : KeyVersion × Buffer :=
  (entry.version, bufferFromHex entry.keyHex.toList)

/-- A key that is added is the last of the ring. -/
theorem addKey_eq_ok (h : addKey keyring entry = .ok keyring') :
    keyring'.entries = keyring.entries ++ [entry.held]
      ∧ isKeyVersion entry.version = true := by
  unfold addKey at h
  rw [ite_error_eq_ok, except_bind_eq_ok] at h
  obtain ⟨hnew, key, hkey, h⟩ := h
  obtain ⟨hversion, rfl⟩ := encryptionKey_eq_ok hkey
  cases h
  rw [InsertionMap.has_iff] at hnew
  exact ⟨InsertionMap.entries_set_of_new hnew, hversion⟩

/-- So are all of a list, in their order. -/
theorem foldlM_addKey_eq_ok {entries : List TwoFactorEncryptionKey}
    (h : entries.foldlM addKey keyring = .ok keyring') :
    keyring'.entries = keyring.entries ++ entries.map (·.held)
      ∧ ∀ entry ∈ entries, isKeyVersion entry.version = true := by
  induction entries generalizing keyring with
  | nil =>
      cases h
      simp
  | cons entry entries ih =>
      rw [List.foldlM_cons, except_bind_eq_ok] at h
      obtain ⟨next, hadd, h⟩ := h
      obtain ⟨hentries, hversion⟩ := addKey_eq_ok hadd
      obtain ⟨hrest, hversions⟩ := ih h
      constructor
      · rw [hrest, hentries, List.append_assoc]
        rfl
      · intro e he
        rcases List.mem_cons.mp he with rfl | he
        · exact hversion
        · exact hversions e he

/-- A keyring is its configuration, entry by entry. -/
theorem encryptionKeyring_eq_ok (h : encryptionKeyring config = .ok keyring) :
    keyring.entries = config.entries.map (·.held)
      ∧ ∀ entry ∈ config.entries, isKeyVersion entry.version = true := by
  unfold encryptionKeyring at h
  split at h
  · cases h
  · exact foldlM_addKey_eq_ok h

/-- The configuration has this key under this version, as its current or
a previous one. -/
def TwoFactorEncryptionConfig.Holds (config : TwoFactorEncryptionConfig)
    (version : KeyVersion) (key : Buffer) : Prop :=
  ∃ entry ∈ config.entries, entry.version = version
    ∧ bufferFromHex entry.keyHex.toList = key

/-- A version finds the key that was configured for it. -/
theorem get_eq_some_iff_holds (h : encryptionKeyring config = .ok keyring) :
    keyring.get version = some key ↔ config.Holds version key := by
  rw [InsertionMap.get_eq_some, (encryptionKeyring_eq_ok h).1, List.mem_map]
  refine exists_congr fun entry => and_congr_right fun _ => ?_
  rw [TwoFactorEncryptionKey.held, Prod.mk.injEq]

/-- The current key is always there. -/
theorem get_current (h : encryptionKeyring config = .ok keyring) :
    keyring.get config.version = some (bufferFromHex config.keyHex.toList) :=
  (get_eq_some_iff_holds h).mpr ⟨config.toTwoFactorEncryptionKey, List.mem_cons_self, rfl, rfl⟩

/-- The current version is a positive integer. -/
theorem isKeyVersion_current (h : encryptionKeyring config = .ok keyring) :
    isKeyVersion config.version = true :=
  (encryptionKeyring_eq_ok h).2 config.toTwoFactorEncryptionKey List.mem_cons_self

/-- Two entries of one version are not accepted. -/
theorem nodup_versions (h : encryptionKeyring config = .ok keyring) :
    (config.entries.map (·.version)).Nodup := by
  have hnodup := keyring.nodup
  rw [(encryptionKeyring_eq_ok h).1, List.map_map] at hnodup
  exact hnodup

end Keyring

-- ========================================================= associated data

section Texts

variable {s t userId userId' : String} {version version' : KeyVersion}

/-- Texts of the same bytes are one text. -/
theorem bufferFromUtf8_inj (h : bufferFromUtf8 s = bufferFromUtf8 t) : s = t := by
  unfold bufferFromUtf8 at h
  apply String.toByteArray_inj.mp
  apply ByteArray.ext
  exact Array.toList_inj.mp h

/-- The bytes of a text are read as the text. -/
theorem bufferToUtf8_bufferFromUtf8 (lossy : Buffer → String) (s : String) :
    bufferToUtf8 lossy (bufferFromUtf8 s) = s := by
  have hsome : String.fromUTF8? ⟨(bufferFromUtf8 s).toArray⟩ = some s := by
    unfold bufferFromUtf8 String.fromUTF8?
    have hbytes : (⟨s.toUTF8.data.toList.toArray⟩ : ByteArray) = s.toByteArray := by
      rw [Array.toArray_toList]
      rfl
    rw [hbytes, dif_pos s.isValidUTF8]
    rfl
  unfold bufferToUtf8
  rw [hsome]

/-- A key version prints as digits, and only it prints so. -/
theorem isDigit_of_mem_text (h : isKeyVersion version = true) :
    ∀ c ∈ version.text.toList, c.isDigit = true := by
  cases version with
  | other text => simp [isKeyVersion] at h
  | integer v =>
      intro c hc
      have hv : 1 ≤ v := by
        simp [isKeyVersion] at h
        exact h.1
      rw [KeyVersion.text, Decimal.toList_toString, Decimal.intDigits,
        if_neg (by omega)] at hc
      exact Decimal.isNumeral_toDigits.2 c hc

/-- Versions of one text are one version. -/
theorem text_inj (h : isKeyVersion version = true) (h' : isKeyVersion version' = true)
    (htext : version.text = version'.text) : version = version' := by
  cases version with
  | other text => simp [isKeyVersion] at h
  | integer v =>
      cases version' with
      | other text => simp [isKeyVersion] at h'
      | integer v' =>
          have hdigits := congrArg String.toList htext
          rw [KeyVersion.text, KeyVersion.text, Decimal.toList_toString,
            Decimal.toList_toString] at hdigits
          rw [← Decimal.intValue_intDigits v, hdigits, Decimal.intValue_intDigits]

/-- The last colon is before the version, whatever the user id is. -/
theorem additionalAuthenticatedData_inj (h : isKeyVersion version = true)
    (h' : isKeyVersion version' = true) {aad : Buffer}
    (haad : additionalAuthenticatedData userId version = .ok aad)
    (haad' : additionalAuthenticatedData userId' version' = .ok aad) :
    userId = userId' ∧ version = version' := by
  unfold additionalAuthenticatedData at haad haad'
  rw [ite_error_eq_ok, Except.ok.injEq] at haad haad'
  have htext := bufferFromUtf8_inj (haad.2.trans haad'.2.symm)
  have hlist := congrArg (fun s => s.toList.reverse) htext
  simp only [String.toList_append, List.reverse_append, List.append_assoc] at hlist
  have hstop : ∀ (x : List Char), ∀ c ∈ (":v".toList.reverse ++ x).head?,
      ¬ c.isDigit = true := by
    intro x c hc
    cases hc
    decide
  have hversion : ∀ version : KeyVersion, isKeyVersion version = true →
      ∀ c ∈ version.text.toList.reverse, c.isDigit = true := by
    intro version h c hc
    exact isDigit_of_mem_text h c (List.mem_reverse.mp hc)
  obtain ⟨hversions, hrest⟩ := Json.digits_inj (hversion version h) (hversion version' h')
    (hstop _) (hstop _) hlist
  have hids := List.append_cancel_right (List.append_cancel_left hrest)
  constructor
  · exact String.toList_inj.mp (List.reverse_injective hids)
  · exact text_inj h h' (String.toList_inj.mp (List.reverse_injective hversions))

end Texts

-- ================================================================= Base64

/-- What is printed is of the alphabet. -/
theorem isBase64Char_digit : ∀ n < 64, isBase64Char (Base64.digit n) = true := by
  unfold Base64.digit
  rw [Base64.alphabet_eq]
  decide +kernel

/-- And has the form that the decoder asks for. -/
theorem matchesBase64_encode (b : Buffer) : matchesBase64 (Base64.encode b).toList = true := by
  have hdigits : ∀ c ∈ Base64.digits b, isBase64Char c = true := by
    intro c hc
    obtain ⟨n, hn, rfl⟩ := Base64.exists_digit hc
    exact isBase64Char_digit n hn
  have hnil : ∀ n, (List.replicate n '=').takeWhile isBase64Char = []
      ∧ (List.replicate n '=').dropWhile isBase64Char = List.replicate n '=' := by
    intro n
    cases n with
    | zero => exact ⟨rfl, rfl⟩
    | succ n =>
        rw [List.replicate_succ, List.takeWhile_cons_of_neg (by decide),
          List.dropWhile_cons_of_neg (by decide)]
        exact ⟨rfl, rfl⟩
  simp only [matchesBase64]
  rw [Base64.encode_toList, List.takeWhile_append_of_pos hdigits,
    List.dropWhile_append_of_pos hdigits, (hnil _).1, (hnil _).2, List.append_nil,
    List.length_replicate]
  rcases Base64.padding_cases (b := b) with ⟨hmod, hpad⟩ | ⟨hmod, hpad⟩ | ⟨hmod, hpad⟩
  · rw [hmod, hpad]
    decide
  · rw [hmod, hpad]
    decide
  · rw [hmod, hpad]
    decide

/-- Only the text that some bytes are printed as is accepted. -/
theorem decodeBase64Strict_eq_ok {value field : String} {options : Base64Options}
    {b : Buffer} : decodeBase64Strict value field options = .ok b
      ↔ value = Base64.encode b ∧ b ≠ []
        ∧ (∀ n ∈ options.maxEncodedLength, utf16Length value ≤ n)
        ∧ ∀ n ∈ options.exactBytes, b.length = n := by
  unfold decodeBase64Strict
  simp only [ite_error_eq_ok, Except.ok.injEq, not_or, Option.any_eq_true,
    decide_eq_true_eq, bne_iff_ne, ne_eq, not_not, not_exists, not_and, Nat.not_lt]
  constructor
  · intro h
    obtain ⟨⟨hempty, hmax, -⟩, ⟨hcanonical, hexact⟩, rfl⟩ := h
    refine ⟨hcanonical.symm, fun hnil => ?_, hmax, hexact⟩
    rw [hnil] at hcanonical
    exact hempty (hcanonical.symm.trans (Base64.encode_eq_empty.mpr rfl))
  · intro h
    obtain ⟨rfl, hb, hmax, hexact⟩ := h
    rw [Base64.decode_encode, matchesBase64_encode]
    refine ⟨⟨fun hempty => hb (Base64.encode_eq_empty.mp hempty), hmax, by simp⟩,
      ⟨rfl, hexact⟩, rfl⟩

-- =============================================================== envelopes

section Envelopes

variable {gcm : AesGcm} {log : List GcmEncryption} {lossy : Buffer → String}
  {encrypted : EncryptedTwoFactorSecret} {userId secret : String}
  {config : TwoFactorEncryptionConfig} {decrypted : DecryptedTwoFactorSecret}

/-- The text of what the cipher has made. -/
structure EnvelopeOf (gcm : AesGcm) (e : GcmEncryption)
    (encrypted : EncryptedTwoFactorSecret) : Prop where
  ciphertext : encrypted.ciphertext = Base64.encode (gcm.ciphertext e)
  iv : encrypted.iv = Base64.encode e.iv
  authTag : encrypted.authTag = Base64.encode (gcm.tag e)

/-- What decrypts is an envelope of the log, bound to the user and to a
key that is held under its version. -/
theorem exists_of_decrypt
    (h : decryptTwoFactorSecretWithConfigForRotation gcm log lossy encrypted userId config
      = .ok decrypted) :
    isKeyVersion encrypted.version = true
      ∧ ∃ e ∈ log, EnvelopeOf gcm e encrypted
        ∧ config.Holds encrypted.version e.key
        ∧ additionalAuthenticatedData userId encrypted.version = .ok e.aad
        ∧ decrypted = ⟨bufferToUtf8 lossy e.plaintext,
          encrypted.version != config.version⟩ := by
  unfold decryptTwoFactorSecretWithConfigForRotation at h
  simp only [except_bind_eq_ok] at h
  obtain ⟨_, hversion, keyring, hkeyring, h⟩ := h
  cases hget : keyring.get encrypted.version with
  | none =>
      rw [hget] at h
      cases h
  | some key =>
      simp only [hget, except_bind_eq_ok, decodeBase64Strict_eq_ok] at h
      obtain ⟨iv, ⟨hiv, -⟩, tag, ⟨htag, -⟩, ciphertext, ⟨hciphertext, -⟩, aad, haad, h⟩ := h
      cases hdecrypt : gcm.decrypt log key iv aad ciphertext tag with
      | none =>
          rw [hdecrypt] at h
          cases h
      | some plaintext =>
          rw [hdecrypt] at h
          cases h
          obtain ⟨e, he, rfl, rfl, rfl, rfl, rfl, rfl⟩ :=
            Aead.Cipher.exists_of_decrypt hdecrypt
          exact ⟨assertKeyVersion_eq_ok.mp hversion, e, he, ⟨hciphertext, hiv, htag⟩,
            (get_eq_some_iff_holds hkeyring).mp hget, haad, rfl⟩

/-- An envelope of the log decrypts for its user where its key is held. -/
theorem decrypt_of_mem (hideal : gcm.Ideal log) {e : GcmEncryption} (he : e ∈ log)
    (henvelope : EnvelopeOf gcm e encrypted) (hiv : e.iv.length = ivBytes)
    (hne : gcm.ciphertext e ≠ [])
    (hlen : utf16Length encrypted.ciphertext ≤ maxEncodedCiphertextLength)
    (hversion : isKeyVersion encrypted.version = true) {keyring : Keyring}
    (hkeyring : encryptionKeyring config = .ok keyring)
    (hholds : config.Holds encrypted.version e.key)
    (haad : additionalAuthenticatedData userId encrypted.version = .ok e.aad) :
    decryptTwoFactorSecretWithConfigForRotation gcm log lossy encrypted userId config
      = .ok ⟨bufferToUtf8 lossy e.plaintext, encrypted.version != config.version⟩ := by
  have hget := (get_eq_some_iff_holds hkeyring).mpr hholds
  have hivBytes : e.iv ≠ [] := by
    intro hnil
    rw [hnil] at hiv
    cases hiv
  have htagBytes : gcm.tag e ≠ [] := by
    intro hnil
    have htag := gcm.tag_length e
    rw [hnil] at htag
    cases htag
  have hdecrypt := Aead.Cipher.decrypt_of_mem hideal he
  unfold decryptTwoFactorSecretWithConfigForRotation
  simp only [except_bind_eq_ok]
  refine ⟨(), assertKeyVersion_eq_ok.mpr hversion, keyring, hkeyring, ?_⟩
  simp only [hget, except_bind_eq_ok, decodeBase64Strict_eq_ok]
  refine ⟨e.iv, ⟨henvelope.iv, hivBytes, by simp, by simpa using hiv⟩,
    gcm.tag e, ⟨henvelope.authTag, htagBytes, by simp, by simpa using gcm.tag_length e⟩,
    gcm.ciphertext e, ⟨henvelope.ciphertext, hne, by simpa using hlen, by simp⟩,
    e.aad, haad, ?_⟩
  rw [hdecrypt]

variable (gcm secret) in
/-- Encryption with an accepted configuration does not fail. -/
theorem encrypt_eq_ok (iv : GcmIv) {keyring : Keyring}
    (hkeyring : encryptionKeyring config = .ok keyring) (huser : userId ≠ "") :
    ∃ envelope e,
      encryptTwoFactorSecretWithConfig gcm iv secret userId config = .ok (envelope, e)
        ∧ EnvelopeOf gcm e envelope ∧ envelope.version = config.version
        ∧ e.iv = iv.1 ∧ e.key = bufferFromHex config.keyHex.toList
        ∧ e.plaintext = bufferFromUtf8 secret
        ∧ additionalAuthenticatedData userId config.version = .ok e.aad := by
  obtain ⟨aad, haad⟩ : ∃ aad, additionalAuthenticatedData userId config.version = .ok aad :=
    ⟨_, if_neg huser⟩
  let e : GcmEncryption :=
    ⟨bufferFromHex config.keyHex.toList, iv.1, aad, bufferFromUtf8 secret⟩
  refine ⟨⟨Base64.encode (gcm.ciphertext e), Base64.encode iv.1,
    Base64.encode (gcm.tag e), config.version⟩, e, ?_, ⟨rfl, rfl, rfl⟩, rfl, rfl, rfl, rfl, haad⟩
  unfold encryptTwoFactorSecretWithConfig
  rw [except_bind_eq_ok]
  refine ⟨keyring, hkeyring, ?_⟩
  simp only [get_current hkeyring, haad]
  rfl

/-- What encryption gives is an envelope of the current key, for the user. -/
theorem envelope_of_encrypt {iv : GcmIv} {envelope : EncryptedTwoFactorSecret}
    {e : GcmEncryption}
    (h : encryptTwoFactorSecretWithConfig gcm iv secret userId config
      = .ok (envelope, e)) :
    EnvelopeOf gcm e envelope ∧ isKeyVersion envelope.version = true
      ∧ additionalAuthenticatedData userId envelope.version = .ok e.aad := by
  have hsplit := h
  unfold encryptTwoFactorSecretWithConfig at hsplit
  rw [except_bind_eq_ok] at hsplit
  obtain ⟨keyring, hkeyring, hsplit⟩ := hsplit
  have huser : userId ≠ "" := by
    intro hempty
    simp [get_current hkeyring, additionalAuthenticatedData, hempty,
      except_bind_eq_ok] at hsplit
  obtain ⟨envelope', e', h', henvelope, hversion, -, -, -, haad⟩ :=
    encrypt_eq_ok gcm secret iv hkeyring huser
  rw [h] at h'
  cases h'
  rw [hversion]
  exact ⟨henvelope, isKeyVersion_current hkeyring, haad⟩

/-- An envelope keeps what tells it apart only as a whole. -/
theorem eq_of_decrypt (hideal : gcm.Ideal log) {iv : GcmIv}
    {envelope changed : EncryptedTwoFactorSecret} {e : GcmEncryption}
    (hencrypt : encryptTwoFactorSecretWithConfig gcm iv secret userId config
      = .ok (envelope, e)) (he : e ∈ log)
    (hkept : changed.iv = envelope.iv ∨ changed.authTag = envelope.authTag)
    {userId' : String} {config' : TwoFactorEncryptionConfig}
    (h : decryptTwoFactorSecretWithConfigForRotation gcm log lossy changed userId' config'
      = .ok decrypted) : changed = envelope := by
  obtain ⟨henvelope, hversion, haad⟩ := envelope_of_encrypt hencrypt
  obtain ⟨hversion', e', he', hchanged, -, haad', -⟩ := exists_of_decrypt h
  have hsame : e' = e := by
    apply hideal e' he' e he
    rw [hchanged.iv, henvelope.iv, hchanged.authTag, henvelope.authTag] at hkept
    exact hkept.imp Base64.encode_inj Base64.encode_inj
  subst hsame
  have hversions := (additionalAuthenticatedData_inj hversion hversion' haad haad').2
  cases changed
  cases envelope
  simp only [EncryptedTwoFactorSecret.mk.injEq]
  exact ⟨hchanged.ciphertext.trans henvelope.ciphertext.symm,
    hchanged.iv.trans henvelope.iv.symm, hchanged.authTag.trans henvelope.authTag.symm,
    hversions.symm⟩

end Envelopes

/-- Stored secrets survive a rotation of the keys and are bound to their
user. The log has the encryptions that the cipher has made; the user's id is
in the authenticated data, so an envelope opens for its own user, under the
key of its version, and for nobody else, and a changed one does not open. -/
theorem twoFactorSecrets_bound (gcm : AesGcm) (log : List GcmEncryption)
    (lossy : Buffer → String) (hideal : gcm.Ideal log) :
    -- who can read an envelope
    (∀ (secret userId userId' : String) (config config' : TwoFactorEncryptionConfig)
      (iv : GcmIv) (keyring keyring' : Keyring),
      encryptionKeyring config = .ok keyring → encryptionKeyring config' = .ok keyring' →
      userId ≠ "" → userId' ≠ "" →
      ∃ envelope e,
        encryptTwoFactorSecretWithConfig gcm iv secret userId config = .ok (envelope, e)
        ∧ (e ∈ log → envelope.ciphertext ≠ "" →
          utf16Length envelope.ciphertext ≤ maxEncodedCiphertextLength →
          ((∃ decrypted, decryptTwoFactorSecretWithConfigForRotation gcm log lossy
              envelope userId' config' = .ok decrypted)
            ↔ userId = userId' ∧ config'.Holds envelope.version
              (bufferFromHex config.keyHex.toList))
          ∧ ∀ decrypted, decryptTwoFactorSecretWithConfigForRotation gcm log lossy
              envelope userId' config' = .ok decrypted →
            decrypted.secret = secret
              ∧ (decrypted.needsRotation = true ↔ envelope.version ≠ config'.version)))
    -- a changed envelope
    ∧ (∀ (secret userId : String) (config : TwoFactorEncryptionConfig) (iv : GcmIv)
      envelope e,
      encryptTwoFactorSecretWithConfig gcm iv secret userId config = .ok (envelope, e) →
      e ∈ log → ∀ (changed : EncryptedTwoFactorSecret) (userId' : String)
        (config' : TwoFactorEncryptionConfig) decrypted, changed ≠ envelope →
        changed.iv = envelope.iv ∨ changed.authTag = envelope.authTag →
        decryptTwoFactorSecretWithConfigForRotation gcm log lossy changed userId' config'
          ≠ .ok decrypted)
    -- what decrypts was printed so
    ∧ (∀ (encrypted : EncryptedTwoFactorSecret) (userId : String)
      (config : TwoFactorEncryptionConfig) decrypted,
      decryptTwoFactorSecretWithConfigForRotation gcm log lossy encrypted userId config
        = .ok decrypted → ∃ e ∈ log, EnvelopeOf gcm e encrypted)
    -- one key for a version
    ∧ ∀ config : TwoFactorEncryptionConfig, ¬ (config.entries.map (·.version)).Nodup →
      ∀ keyring, encryptionKeyring config ≠ .ok keyring := by
  refine ⟨?_, ?_, ?_, ?_⟩
  · intro secret userId userId' config config' iv keyring keyring' hkeyring hkeyring' huser huser'
    obtain ⟨envelope, e, hencrypt, henvelope, hversion, hiv, hkey, hplain, haad⟩ :=
      encrypt_eq_ok gcm secret iv hkeyring huser
    refine ⟨envelope, e, hencrypt, fun he hne hlen => ⟨⟨?_, ?_⟩, ?_⟩⟩
    · intro h
      obtain ⟨decrypted, h⟩ := h
      obtain ⟨hversion', e', he', hread, hholds, haad', -⟩ := exists_of_decrypt h
      have hsame : e' = e := by
        apply hideal e' he' e he
        left
        exact Base64.encode_inj (hread.iv.symm.trans henvelope.iv)
      subst hsame
      rw [hversion] at haad' hversion'
      exact ⟨(additionalAuthenticatedData_inj hversion' hversion' haad haad').1,
        hkey ▸ hholds⟩
    · intro h
      obtain ⟨rfl, hholds⟩ := h
      have hbytes : gcm.ciphertext e ≠ [] := by
        intro hnil
        rw [henvelope.ciphertext, hnil] at hne
        exact hne (Base64.encode_eq_empty.mpr rfl)
      refine ⟨_, decrypt_of_mem hideal he henvelope (by rw [hiv]; exact iv.2) hbytes hlen
        ?_ hkeyring' (hkey ▸ hholds) ?_⟩
      · rw [hversion]
        exact isKeyVersion_current hkeyring
      · rw [hversion]
        exact haad
    · intro decrypted h
      obtain ⟨-, e', he', hread, -, -, rfl⟩ := exists_of_decrypt h
      have hsame : e' = e := by
        apply hideal e' he' e he
        left
        exact Base64.encode_inj (hread.iv.symm.trans henvelope.iv)
      subst hsame
      rw [hplain, bufferToUtf8_bufferFromUtf8]
      exact ⟨rfl, by simp⟩
  · intro secret userId config iv envelope e hencrypt he changed userId' config' decrypted
      hne hkept h
    exact hne (eq_of_decrypt hideal hencrypt he hkept h)
  · intro encrypted userId config decrypted h
    obtain ⟨-, e, he, henvelope, -⟩ := exists_of_decrypt h
    exact ⟨e, he, henvelope⟩
  · intro config hdup keyring h
    exact hdup (nodup_versions h)

/-- What AES-256-GCM gives for the secret of `rotated_secret_read`: its
key is 32 bytes 17, its nonce counts from 0. -/
def recordedGcm : AesGcm where
  ciphertext _ := [89, 161, 229, 68, 34, 144, 113, 164, 81, 240, 131, 212, 247, 255, 175, 118]
  tag _ := [221, 76, 10, 76, 149, 126, 0, 11, 245, 110, 160, 121, 61, 56, 235, 89]
  tag_length _ := rfl

/-- The key before a rotation. -/
def oldTwoFactorKey : TwoFactorEncryptionKey :=
  ⟨"1111111111111111111111111111111111111111111111111111111111111111", .integer 1⟩

/-- The key after it. -/
def newTwoFactorKey : TwoFactorEncryptionKey :=
  ⟨"2222222222222222222222222222222222222222222222222222222222222222", .integer 2⟩

/-- Its bytes. -/
theorem encryptionKey_old :
    encryptionKey oldTwoFactorKey = .ok (List.replicate 32 17) := by
  have hhex : oldTwoFactorKey.keyHex.toList = List.replicate 64 '1' :=
    String.toList_ofList
  unfold encryptionKey
  rw [hhex]
  rfl

/-- And those of the new one. -/
theorem encryptionKey_new :
    encryptionKey newTwoFactorKey = .ok (List.replicate 32 34) := by
  have hhex : newTwoFactorKey.keyHex.toList = List.replicate 64 '2' :=
    String.toList_ofList
  unfold encryptionKey
  rw [hhex]
  rfl

/-- After a rotation the secret is still read, and marked. -/
theorem rotated_secret_read :
    ∃ envelope e, encryptTwoFactorSecretWithConfig recordedGcm
        ⟨[0, 1, 2, 3, 4, 5, 6, 7, 8, 9, 10, 11], rfl⟩ "JBSWY3DPEHPK3PXP"
        "a8ef557d-83f7-4bbf-837d-f6ba410ffc95" ⟨oldTwoFactorKey, .undefined⟩
          = .ok (envelope, e)
      ∧ ∃ decrypted, decryptTwoFactorSecretWithConfigForRotation recordedGcm [e]
          (fun _ => "") envelope "a8ef557d-83f7-4bbf-837d-f6ba410ffc95"
          ⟨newTwoFactorKey, .array [oldTwoFactorKey]⟩ = .ok decrypted
        ∧ decrypted.secret = "JBSWY3DPEHPK3PXP" ∧ decrypted.needsRotation = true := by
  obtain ⟨old, hold⟩ : ∃ keyring, encryptionKeyring ⟨oldTwoFactorKey, .undefined⟩
      = .ok keyring := by
    unfold encryptionKeyring TwoFactorEncryptionConfig.entries
    simp only [List.foldlM_cons, addKey, encryptionKey_old]
    exact ⟨_, rfl⟩
  obtain ⟨new, hnew⟩ : ∃ keyring, encryptionKeyring ⟨newTwoFactorKey, .array [oldTwoFactorKey]⟩
      = .ok keyring := by
    unfold encryptionKeyring TwoFactorEncryptionConfig.entries
    simp only [List.foldlM_cons, addKey, encryptionKey_old, encryptionKey_new]
    exact ⟨_, rfl⟩
  have huser : "a8ef557d-83f7-4bbf-837d-f6ba410ffc95" ≠ "" := by decide
  obtain ⟨envelope, e, hencrypt, henvelope, hversion, -⟩ :=
    encrypt_eq_ok recordedGcm "JBSWY3DPEHPK3PXP"
      ⟨[0, 1, 2, 3, 4, 5, 6, 7, 8, 9, 10, 11], rfl⟩ hold huser
  have hideal : recordedGcm.Ideal [e] := by
    intro a ha b hb _
    rw [List.mem_singleton.mp ha, List.mem_singleton.mp hb]
  obtain ⟨envelope', e', hencrypt', hread⟩ :=
    (twoFactorSecrets_bound recordedGcm [e] (fun _ => "") hideal).1 "JBSWY3DPEHPK3PXP"
      "a8ef557d-83f7-4bbf-837d-f6ba410ffc95" "a8ef557d-83f7-4bbf-837d-f6ba410ffc95"
      ⟨oldTwoFactorKey, .undefined⟩ ⟨newTwoFactorKey, .array [oldTwoFactorKey]⟩
      ⟨[0, 1, 2, 3, 4, 5, 6, 7, 8, 9, 10, 11], rfl⟩ old new hold hnew huser
      huser
  rw [hencrypt] at hencrypt'
  cases hencrypt'
  have hne : envelope.ciphertext ≠ "" := by
    rw [henvelope.ciphertext, Ne, Base64.encode_eq_empty]
    exact List.cons_ne_nil _ _
  have hlen : utf16Length envelope.ciphertext ≤ maxEncodedCiphertextLength := by
    rw [henvelope.ciphertext, Base64.utf16Length_encode]
    show 4 * ((16 + 2) / 3) ≤ 8192
    decide
  obtain ⟨hiff, hgives⟩ := hread List.mem_cons_self hne hlen
  obtain ⟨decrypted, hdecrypted⟩ := hiff.mpr
    ⟨rfl, oldTwoFactorKey, by simp [TwoFactorEncryptionConfig.entries], hversion.symm, rfl⟩
  obtain ⟨hsecret, hrotation⟩ := hgives decrypted hdecrypted
  refine ⟨envelope, e, hencrypt, decrypted, hdecrypted, hsecret, hrotation.mpr ?_⟩
  rw [hversion]
  decide

end Skrynia
