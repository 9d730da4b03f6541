/-
Authenticated encryption with associated data, idealised.

What an encryption gives is a function of its four inputs. Decryption is
relative to the log of the encryptions that were made: it gives a
plaintext exactly if key, nonce, associated data, ciphertext and tag are
those of one of them. In an ideal log no two encryptions share a nonce or
a tag (`Ideal`); the nonce or the tag of a sealed message then tells the
encryption it is from.
-/
import Mathlib.Tactic.Common

universe u

namespace Aead

/-- The inputs of one encryption. -/
structure Encryption (κ ν α π : Type u) where
  key : κ
  iv : ν
  aad : α
  plaintext : π

/-- What an encryption gives: a ciphertext and a tag. -/
structure Cipher (κ ν α π γ τ : Type u) where
  ciphertext : Encryption κ ν α π → γ
  tag : Encryption κ ν α π → τ

variable {κ ν α π γ τ : Type u}

namespace Cipher

/-- No two encryptions share a nonce or a tag. -/
def Ideal (cipher : Cipher κ ν α π γ τ) (log : List (Encryption κ ν α π)) : Prop :=
  ∀ e ∈ log, ∀ e' ∈ log, e.iv = e'.iv ∨ cipher.tag e = cipher.tag e' → e = e'

variable [DecidableEq κ] [DecidableEq ν] [DecidableEq α] [DecidableEq γ] [DecidableEq τ]

/-- The plaintext of the logged encryption that all four inputs and the tag
point to. -/
def decrypt (cipher : Cipher κ ν α π γ τ) (log : List (Encryption κ ν α π)) (key : κ)
    (iv : ν) (aad : α) (ciphertext : γ) (tag : τ) : Option π :=
  (log.find? fun e => e.key = key ∧ e.iv = iv ∧ e.aad = aad
    ∧ cipher.ciphertext e = ciphertext ∧ cipher.tag e = tag).map (·.plaintext)

variable {cipher : Cipher κ ν α π γ τ} {log : List (Encryption κ ν α π)}
  {key : κ} {iv : ν} {aad : α} {ciphertext : γ} {tag : τ} {plaintext : π}

/-- What decrypts was encrypted. -/
theorem exists_of_decrypt
    (h : cipher.decrypt log key iv aad ciphertext tag = some plaintext) :
    ∃ e ∈ log, e.key = key ∧ e.iv = iv ∧ e.aad = aad
      ∧ cipher.ciphertext e = ciphertext ∧ cipher.tag e = tag
      ∧ e.plaintext = plaintext := by
  obtain ⟨e, he, hplain⟩ := Option.map_eq_some_iff.mp h
  have hfields := List.find?_some he
  rw [decide_eq_true_eq] at hfields
  obtain ⟨hkey, hiv, haad, hciphertext, htag⟩ := hfields
  exact ⟨e, List.mem_of_find?_eq_some he, hkey, hiv, haad, hciphertext, htag, hplain⟩

/-- What was encrypted decrypts. -/
theorem decrypt_of_mem (hideal : cipher.Ideal log) {e : Encryption κ ν α π}
    (he : e ∈ log) :
    cipher.decrypt log e.key e.iv e.aad (cipher.ciphertext e) (cipher.tag e)
      = some e.plaintext := by
  cases h : cipher.decrypt log e.key e.iv e.aad (cipher.ciphertext e) (cipher.tag e) with
  | none =>
      unfold decrypt at h
      rw [Option.map_eq_none_iff, List.find?_eq_none] at h
      exact absurd (h e he) (by simp)
  | some plaintext =>
      obtain ⟨e', he', -, hiv, -, -, -, hplain⟩ := exists_of_decrypt h
      rw [← hplain, hideal e' he' e he (Or.inl hiv)]

end Cipher

end Aead
