/-
Regular expressions as ECMAScript matches them, by backtracking.

A pattern is matched at a place in a text, and `ends` lists the places
where a match can end in the order in which a backtracking matcher tries them:
the left arm of an alternative first, and of a repetition the longest run.
The first of them is the match. A repetition beyond its least number goes
on only while it takes something, so it has no more turns than the text
has characters.

`replaceAll` is `String.prototype.replace` with a global pattern: the text
is read from the left, and what is replaced is not read again. A match
ends at a place in the same text (`text_of_mem_ends`), so one that takes
something leaves less of it.

The alphabet is any type. A pattern without regard to case is one whose
classes have both cases of each letter.
-/
import Mathlib.Data.List.Basic
import Mathlib.Data.List.Flatten

universe u

/-- Patterns with at most one numbered group, and greedy repetitions. -/
inductive Regex (α : Type u) where
  | cls (p : α → Bool)
  | seq (r s : Regex α)
  | alt (r s : Regex α)
  | rep (least : Nat) (most : Option Nat) (r : Regex α)
  | group (r : Regex α)
  | ahead (r : Regex α)
  | border
  | atEnd

namespace Regex

variable {α : Type u}

/-- A place in a text, with what stands before it from the right, and the
text of the group. -/
structure Place (α : Type u) where
  before : List α
  after : List α
  captured : List α

/-- The whole text around the place. -/
def Place.text (s : Place α) : List α := s.before.reverse ++ s.after

/-- What was passed on the way from `s` to `t`. -/
def passed (s t : Place α) : List α :=
  (t.before.take (t.before.length - s.before.length)).reverse

-- ================================================================= matching

section Matches

-- The characters of a word, for `\b`.
variable (isWord : α → Bool)

/-- Exactly `least` turns, then up to `more` that each take something. -/
def repeated (step : Place α → List (Place α)) : Nat → Nat → Place α →
    List (Place α)
  | 0, 0, s => [s]
  | 0, more + 1, s =>
      ((step s).filter fun t => t.after.length < s.after.length).flatMap
        (repeated step 0 more) ++ [s]
  | least + 1, more, s => (step s).flatMap (repeated step least more)

/-- `\b`: a word character on one side only. -/
def atBorder (s : Place α) : Bool :=
  (s.before.head?.any isWord) != (s.after.head?.any isWord)

/-- The places where a match can end, the preferred ones first. -/
def ends : Regex α → Place α → List (Place α)
  | .cls p, s =>
      match s.after with
      | [] => []
      | c :: after => if p c then [{ s with before := c :: s.before, after := after }] else []
  | .seq q r, s => (ends q s).flatMap (ends r)
  | .alt q r, s => ends q s ++ ends r s
  | .rep least most r, s =>
      repeated (ends r) least
        (match most with
          | none => s.after.length
          | some most => most - least) s
  | .group r, s => (ends r s).map fun t => { t with captured := passed s t }
  | .ahead r, s => if (ends r s).isEmpty then [] else [s]
  | .border, s => if atBorder isWord s then [s] else []
  | .atEnd, s => if s.after.isEmpty then [s] else []

variable {isWord}

/-- A repetition stays in its text. -/
theorem text_of_mem_repeated {step : Place α → List (Place α)}
    (hstep : ∀ s, ∀ t ∈ step s, t.text = s.text) :
    ∀ least more s, ∀ t ∈ repeated step least more s, t.text = s.text := by
  intro least more s
  fun_induction repeated step least more s with
  | case1 s =>
      intro t ht
      rw [List.mem_singleton.mp ht]
  | case2 more s ih =>
      intro t ht
      rcases List.mem_append.mp ht with ht | ht
      · obtain ⟨s', hs', ht⟩ := List.mem_flatMap.mp ht
        rw [ih s' t ht, hstep s s' (List.mem_filter.mp hs').1]
      · rw [List.mem_singleton.mp ht]
  | case3 least more s ih =>
      intro t ht
      obtain ⟨s', hs', ht⟩ := List.mem_flatMap.mp ht
      rw [ih s' t ht, hstep s s' hs']

/-- A match ends in the text it begins in. -/
theorem text_of_mem_ends (r : Regex α) :
    ∀ s, ∀ t ∈ r.ends isWord s, t.text = s.text := by
  induction r with
  | cls p =>
      intro s t ht
      unfold ends at ht
      split at ht
      · cases ht
      · next c after hafter =>
        split at ht
        · rw [List.mem_singleton.mp ht, Place.text, Place.text, hafter]
          simp
        · cases ht
  | seq q r ihq ihr =>
      intro s t ht
      obtain ⟨s', hs', ht⟩ := List.mem_flatMap.mp ht
      rw [ihr s' t ht, ihq s s' hs']
  | alt q r ihq ihr =>
      intro s t ht
      rcases List.mem_append.mp ht with ht | ht
      · exact ihq s t ht
      · exact ihr s t ht
  | rep least most r ih =>
      intro s t ht
      exact text_of_mem_repeated ih _ _ s t ht
  | group r ih =>
      intro s t ht
      obtain ⟨t', ht', rfl⟩ := List.mem_map.mp ht
      exact ih s t' ht'
  | ahead r ih =>
      intro s t ht
      unfold ends at ht
      split at ht
      · cases ht
      · rw [List.mem_singleton.mp ht]
  | border =>
      intro s t ht
      unfold ends at ht
      split at ht
      · rw [List.mem_singleton.mp ht]
      · cases ht
  | atEnd =>
      intro s t ht
      unfold ends at ht
      split at ht
      · rw [List.mem_singleton.mp ht]
      · cases ht

/-- A match that takes something leaves less of the text. -/
theorem after_lt_of_passed {r : Regex α} {s t : Place α} (ht : t ∈ r.ends isWord s)
    (hpassed : passed s t ≠ []) : t.after.length < s.after.length := by
  have htext := congrArg List.length (text_of_mem_ends r s t ht)
  have hlonger : t.before.length - s.before.length ≠ 0 := by
    intro hzero
    apply hpassed
    rw [passed, hzero]
    rfl
  simp only [Place.text, List.length_append, List.length_reverse] at htext
  omega

end Matches

-- =============================================================== replacing

/-- `test`, from a place on. -/
def testFrom (isWord : α → Bool) (r : Regex α) (before : List α) :
    List α → Bool
  | [] => !(r.ends isWord ⟨before, [], []⟩).isEmpty
  | c :: after =>
      !(r.ends isWord ⟨before, c :: after, []⟩).isEmpty
        || testFrom isWord r (c :: before) after

/-- `RegExp.prototype.test`: the pattern matches somewhere. -/
def test (isWord : α → Bool) (r : Regex α) (text : List α) : Bool :=
  testFrom isWord r [] text

/-- The rest of a text with every match replaced. What takes the place of
a match is made from its text and its group's. -/
def replaceFrom (isWord : α → Bool) (r : Regex α)
    (replacement : List α → List α → List α) (before after : List α) : List α :=
  match _hends : r.ends isWord ⟨before, after, []⟩ with
  | [] =>
      match after with
      | [] => []
      | c :: rest => c :: replaceFrom isWord r replacement (c :: before) rest
  | t :: _ =>
      if _hpassed : passed ⟨before, after, []⟩ t ≠ [] then
        replacement (passed ⟨before, after, []⟩ t) t.captured
          ++ replaceFrom isWord r replacement t.before t.after
      else
        -- an empty match is passed by one character
        match after with
        | [] => replacement [] t.captured
        | c :: rest =>
            replacement [] t.captured
              ++ c :: replaceFrom isWord r replacement (c :: before) rest
termination_by after.length
decreasing_by
  · simp
  · exact after_lt_of_passed (by rw [_hends]; exact List.mem_cons_self) _hpassed
  · simp

/-- `String.prototype.replace` with a global pattern. -/
def replaceAll (isWord : α → Bool) (r : Regex α)
    (replacement : List α → List α → List α) (text : List α) : List α :=
  replaceFrom isWord r replacement [] text

end Regex
