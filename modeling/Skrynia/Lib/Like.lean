/-
`LIKE` patterns, and the prefix test `text like prefix || '%'`.

A pattern is a text in which `%` stands for any text, `_` for one
character, and a backslash takes the meaning from what follows it. So the
test is the literal one for prefixes without these three characters
(`like_prefix_iff`). For a prefix with a `%` or a backslash it never is:
`sample` is a text that the pattern accepts and that does not start with
the prefix (`exists_misread`).
-/
import Mathlib.Data.List.Infix
import Mathlib.Tactic.Common

namespace Like

/-- What a pattern is made of. -/
inductive Token where
  | any
  | one
  | char (c : Char)
  /-- An escape at the end, which is an error of the statement. -/
  | malformed
deriving DecidableEq

/-- The tokens of a pattern, after an escape or not. -/
def tokens : Bool → List Char → List Token
  | false, [] => []
  | true, [] => [.malformed]
  | true, c :: p => .char c :: tokens false p
  | false, c :: p =>
      if c = '\\' then tokens true p
      else (if c = '%' then .any else if c = '_' then .one else .char c)
        :: tokens false p

/-- The text matches the whole pattern. -/
def accepts : List Token → List Char → Bool
  | [], t => t.isEmpty
  | .any :: p, t => t.tails.any (accepts p)
  | .one :: p, t =>
      match t with
      | [] => false
      | _ :: t => accepts p t
  | .char c :: p, t =>
      match t with
      | [] => false
      | d :: t => c = d && accepts p t
  | .malformed :: _, _ => false

/-- `text like pattern`. -/
def like (pattern text : List Char) : Bool :=
  accepts (tokens false pattern) text

/-- `text like prefix || '%'`. -/
def likePrefix (start text : List Char) : Bool :=
  like (start ++ ['%']) text

variable {start text : List Char}

/-- A final `%` takes what is left. -/
theorem accepts_any_nil : accepts [.any] text = true := by
  rw [accepts, List.any_eq_true]
  exact ⟨[], (List.mem_tails [] text).mpr (List.nil_suffix), rfl⟩

/-- Without special characters it is the literal test. -/
theorem like_prefix_iff
    (h : ∀ c ∈ start, c ≠ '%' ∧ c ≠ '_' ∧ c ≠ '\\') :
    likePrefix start text = true ↔ start <+: text := by
  unfold likePrefix like
  induction start generalizing text with
  | nil =>
      rw [List.nil_append]
      exact ⟨fun _ => List.nil_prefix, fun _ => accepts_any_nil⟩
  | cons c start ih =>
      obtain ⟨hany, hone, hescape⟩ := h c List.mem_cons_self
      rw [List.cons_append, tokens, if_neg hescape, if_neg hany, if_neg hone]
      cases text with
      | nil => simp [accepts]
      | cons d text =>
          rw [accepts, List.cons_prefix_cons, Bool.and_eq_true, decide_eq_true_eq,
            ih fun e he => h e (List.mem_cons_of_mem c he)]

-- ======================================================== a misread prefix

/-- A text that the pattern of a prefix accepts: nothing for each `%`, and
what is escaped without its escape. -/
def sample : Bool → List Char → List Char
  | false, [] => []
  | true, [] => ['%']
  | true, c :: start => c :: sample false start
  | false, c :: start =>
      if c = '\\' then sample true start
      else if c = '%' then sample false start
      else c :: sample false start

/-- The pattern accepts its sample. -/
theorem accepts_sample (escaped : Bool) :
    accepts (tokens escaped (start ++ ['%'])) (sample escaped start)
      = true := by
  induction start generalizing escaped with
  | nil =>
      cases escaped with
      | false => exact accepts_any_nil
      | true => rfl
  | cons c start ih =>
      cases escaped with
      | true =>
          rw [List.cons_append, tokens, sample, accepts]
          simp [ih]
      | false =>
          rw [List.cons_append, tokens, sample]
          by_cases hescape : c = '\\'
          · rw [if_pos hescape, if_pos hescape]
            exact ih true
          · rw [if_neg hescape, if_neg hescape]
            by_cases hany : c = '%'
            · rw [if_pos hany, if_pos hany, accepts, List.any_eq_true]
              exact ⟨_, (List.mem_tails _ _).mpr (List.suffix_refl _),
                ih false⟩
            · rw [if_neg hany, if_neg hany]
              by_cases hone : c = '_'
              · rw [if_pos hone, accepts]
                exact ih false
              · rw [if_neg hone, accepts]
                simp [ih]

/-- The sample is no longer than the prefix, or by one escape. -/
theorem length_sample (start : List Char) (escaped : Bool) :
    (sample escaped start).length
      ≤ start.length + if escaped then 1 else 0 := by
  induction start generalizing escaped with
  | nil => cases escaped <;> simp [sample]
  | cons c start ih =>
      have hfalse := ih false
      have htrue := ih true
      simp only [Bool.false_eq_true, if_false, if_true] at hfalse htrue
      cases escaped with
      | true =>
          simp only [sample, List.length_cons, if_true]
          omega
      | false =>
          rw [sample]
          simp only [List.length_cons, Bool.false_eq_true, if_false]
          split
          · omega
          split
          · omega
          · rw [List.length_cons]
            omega

/-- The sample is another text wherever something is special. -/
theorem sample_ne (h : '%' ∈ start ∨ '\\' ∈ start) :
    sample false start ≠ start := by
  induction start with
  | nil => simp at h
  | cons c start ih =>
      have hlen := length_sample start false
      simp only [Bool.false_eq_true, if_false] at hlen
      rw [sample]
      by_cases hescape : c = '\\'
      · rw [if_pos hescape, hescape]
        cases start with
        | nil => decide
        | cons d start =>
            intro heq
            have := congrArg List.length heq
            have hrest := length_sample start false
            simp only [sample, List.length_cons, Bool.false_eq_true, if_false]
              at this hrest
            omega
      · rw [if_neg hescape]
        by_cases hany : c = '%'
        · rw [if_pos hany]
          intro heq
          have := congrArg List.length heq
          rw [List.length_cons] at this
          omega
        · rw [if_neg hany]
          intro heq
          refine ih ?_ (List.cons.inj heq).2
          simpa [Ne.symm hany, Ne.symm hescape] using h

/-- A prefix with a `%` or a backslash is misread for some other text. -/
theorem exists_misread (h : '%' ∈ start ∨ '\\' ∈ start) :
    ∃ text, text ≠ start ∧ likePrefix start text = true
      ∧ ¬ start <+: text := by
  have hlen := length_sample start false
  simp only [Bool.false_eq_true, if_false, Nat.add_zero] at hlen
  refine ⟨sample false start, sample_ne h, accepts_sample false, ?_⟩
  intro hpre
  exact sample_ne h (hpre.eq_of_length_le hlen).symm

end Like
