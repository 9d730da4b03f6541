/-
JavaScript strings, where the source depends on how they differ from
lists of characters.
-/
import Mathlib.Algebra.GroupWithZero.Nat
import Mathlib.Tactic.Common

namespace Skrynia

/-- `length`: a character outside the basic plane takes two units. -/
def utf16Length (s : String) : Nat :=
  (s.toList.map fun c => if c.toNat < 65536 then 1 else 2).sum

/-- A text of the basic plane is as long as it has characters. -/
theorem utf16Length_eq {s : String} (h : ∀ c ∈ s.toList, c.toNat < 65536) :
    utf16Length s = s.toList.length := by
  unfold utf16Length
  generalize s.toList = cs at h
  induction cs with
  | nil => rfl
  | cons c cs ih =>
      rw [List.map_cons, List.sum_cons, if_pos (h c List.mem_cons_self),
        ih fun d hd => h d (List.mem_cons_of_mem _ hd), List.length_cons, Nat.add_comm]

/-- The characters in front of the `n`-th code unit. Where that cuts a
character in two, the half that is left becomes U+FFFD in UTF-8. -/
def takeUnits : Nat → List Char → List Char
  | 0, _ | _ + 1, [] => []
  | n + 1, c :: cs =>
      if c.toNat < 65536 then c :: takeUnits n cs
      else
        match n with
        | 0 => ['\uFFFD']
        | n + 1 => c :: takeUnits n cs

/-- `slice(0, n)`, as the database stores it. -/
def jsSlice (n : Nat) (s : String) : String :=
  String.ofList (takeUnits n s.toList)

/-- White space and line terminators of ECMAScript. -/
def isJsSpace (c : Char) : Bool :=
  c.toNat ∈ [9, 10, 11, 12, 13, 32, 160, 5760, 8192, 8193, 8194, 8195, 8196,
    8197, 8198, 8199, 8200, 8201, 8202, 8232, 8233, 8239, 8287, 12288, 65279]

/-- `trim()`. -/
def jsTrim (s : String) : String :=
  String.ofList ((s.toList.dropWhile isJsSpace).reverse.dropWhile
    isJsSpace).reverse

/-- There is nothing to trim from a text without white space. -/
theorem jsTrim_of_forall {s : String}
    (h : ∀ c ∈ s.toList, isJsSpace c = false) : jsTrim s = s := by
  have hdrop : ∀ cs : List Char, (∀ c ∈ cs, isJsSpace c = false) →
      cs.dropWhile isJsSpace = cs := by
    intro cs hcs
    cases cs with
    | nil => rfl
    | cons c cs => rw [List.dropWhile_cons, hcs c (by simp)]; rfl
  unfold jsTrim
  rw [hdrop _ h, hdrop _ fun c hc => h c (List.mem_reverse.mp hc),
    List.reverse_reverse, String.ofList_toList]

end Skrynia
