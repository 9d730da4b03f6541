/-
Offset pages over an order with ties.

A query sorts its rows by a key and returns a window of them. Where rows
compare equal the answer may order them in any way, and in another way
on the next request. `pages` puts the windows together, each cut out of
an answer of its own.

# What the pages make together

The keys of the pages are always the sorted keys (`map_key_pages`). The
rows are the rows of the query for every choice of answers just when no
boundary between two pages falls inside a group of equal keys: at any
other boundary every answer puts the same rows before it (`pages_perm`),
and at such a one the two rows next to it can change places between two
requests (`exists_repeated`).
-/
import Mathlib.Data.List.Perm.Basic
import Mathlib.Data.List.Sort
import Mathlib.Data.List.TakeWhile
import Mathlib.Tactic.Common

namespace Offset

universe u v

variable {α : Type u} {κ : Type v} [LinearOrder κ] (key : α → κ)

/-- One answer: the rows, smallest key first. -/
structure Answer (rows l : List α) : Prop where
  perm : l.Perm rows
  sorted : l.Pairwise fun a b => key a ≤ key b

/-- `limit … offset p * limit`. -/
def page (limit p : Nat) (l : List α) : List α :=
  (l.drop (p * limit)).take limit

/-- The first `count` pages, each from its own answer. -/
def pages (limit count : Nat) (answers : Nat → List α) : List α :=
  (List.range count).flatMap fun p => page limit p (answers p)

/-- The first `k` rows end inside a group of equal keys. -/
def Splits (rows : List α) (k : Nat) : Prop :=
  ∃ v, rows.countP (fun a => decide (key a < v)) < k
    ∧ k < rows.countP fun a => decide (key a ≤ v)

variable {key} {rows l l' : List α} {limit count p k : Nat}
  {answers : Nat → List α}

-- =============================================================== one answer

/-- Some order is always allowed. -/
theorem exists_answer (key : α → κ) (rows : List α) :
    ∃ l, Answer key rows l := by
  have : Std.Total fun a b : α => key a ≤ key b :=
    ⟨fun a b => le_total (key a) (key b)⟩
  have : IsTrans α fun a b : α => key a ≤ key b := ⟨fun _ _ _ h h' => h.trans h'⟩
  exact ⟨_, List.perm_insertionSort _ rows, List.pairwise_insertionSort _ rows⟩

/-- The keys come in one order only. -/
theorem Answer.map_key (h : Answer key rows l) (h' : Answer key rows l') :
    l.map key = l'.map key := by
  refine ((h.perm.trans h'.perm.symm).map key).eq_of_pairwise ?_
    (List.pairwise_map.mpr h.sorted) (List.pairwise_map.mpr h'.sorted)
  intro a b _ _ hab hba
  exact le_antisymm hab hba

/-- Smaller keys stand in front. -/
theorem filter_lt_eq_takeWhile {v : κ}
    (h : l.Pairwise fun a b => key a ≤ key b) :
    l.filter (fun a => decide (key a < v))
      = l.takeWhile fun a => decide (key a < v) := by
  induction l with
  | nil => rfl
  | cons a l ih =>
      obtain ⟨ha, hl⟩ := List.pairwise_cons.mp h
      by_cases hlt : key a < v
      · simp [hlt, ih hl]
      · have hnone : l.filter (fun a => decide (key a < v)) = [] := by
          rw [List.filter_eq_nil_iff]
          intro b hb
          simpa using (not_lt.mp hlt).trans (ha b hb)
        simp [hlt, hnone]

/-- In front of a boundary that splits no group stand exactly the rows
with smaller keys than the row behind it. -/
theorem Answer.take_eq_filter (h : Answer key rows l)
    {v : κ} (hk : k < l.length) (hv : key l[k] = v)
    (hsplit : ¬ Splits key rows k) :
    l.take k = l.filter fun a => decide (key a < v) := by
  have hcount : ∀ q : α → Bool, rows.countP q = l.countP q := fun q =>
    (h.perm.countP_eq q).symm
  have hsplit' : ¬ (l.countP (fun a => decide (key a < v)) < k
      ∧ k < l.countP fun a => decide (key a ≤ v)) := by
    intro hboth
    rw [← hcount, ← hcount] at hboth
    exact hsplit ⟨_, hboth⟩
  -- the first `k + 1` rows have keys up to the one behind the boundary
  have hle : k < l.countP fun a => decide (key a ≤ v) := by
    have hfront : (l.take (k + 1)).countP
        (fun a => decide (key a ≤ v)) = k + 1 := by
      rw [List.countP_eq_length.mpr, List.length_take]
      · omega
      · intro a ha
        obtain ⟨i, hi, rfl⟩ := List.mem_iff_getElem.mp ha
        rw [List.length_take] at hi
        rw [List.getElem_take]
        rcases Nat.lt_or_ge i k with hik | hik
        · rw [← hv]
          simpa using List.pairwise_iff_getElem.mp h.sorted i k _ hk hik
        · have : i = k := by omega
          subst this
          simp [hv]
    have := List.Sublist.countP_le (p := fun a => decide (key a ≤ v))
      (List.take_sublist (k + 1) l)
    omega
  have hge : k ≤ l.countP fun a => decide (key a < v) := by
    by_contra hlt
    exact hsplit' ⟨by omega, hle⟩
  rw [filter_lt_eq_takeWhile h.sorted]
  rw [List.countP_eq_length_filter, filter_lt_eq_takeWhile h.sorted] at hge
  have hpre := List.takeWhile_prefix (l := l)
    (fun a => decide (key a < v))
  have hlen : (l.takeWhile fun a => decide (key a < v)).length = k := by
    refine le_antisymm ?_ hge
    -- the row behind the boundary is not smaller than itself
    by_contra hlong
    have hmem : l[k] ∈ l.takeWhile fun a => decide (key a < v) := by
      have hlt : k < (l.takeWhile fun a =>
          decide (key a < v)).length := by omega
      have hmem := List.getElem_mem hlt
      rwa [hpre.getElem hlt] at hmem
    have hsmall := List.mem_takeWhile_imp hmem
    rw [hv] at hsmall
    simp at hsmall
  have htake := List.prefix_iff_eq_take.mp hpre
  rw [hlen] at htake
  exact htake.symm

/-- All answers put the same rows in front of such a boundary. -/
theorem Answer.take_perm (h : Answer key rows l) (h' : Answer key rows l')
    (hsplit : 0 < k → k < rows.length → ¬ Splits key rows k) :
    (l.take k).Perm (l'.take k) := by
  have hlen := h.perm.length_eq
  have hlen' := h'.perm.length_eq
  rcases Nat.eq_zero_or_pos k with rfl | hpos
  · simp
  · by_cases hk : k < rows.length
    · have hkl : k < l.length := by omega
      have hkl' : k < l'.length := by omega
      have hkey : key l[k] = key l'[k] := by
        have hget : (l.map key)[k]? = (l'.map key)[k]? := by
          rw [h.map_key h']
        simpa [hkl, hkl'] using hget
      rw [h.take_eq_filter (by omega) hkey (hsplit hpos hk),
        h'.take_eq_filter (by omega) rfl (hsplit hpos hk)]
      exact (h.perm.trans h'.perm.symm).filter _
    · rw [List.take_of_length_le (by omega), List.take_of_length_le (by omega)]
      exact h.perm.trans h'.perm.symm

-- ================================================================== pages

/-- One page more is one page appended. -/
theorem take_succ_page :
    l.take ((p + 1) * limit) = l.take (p * limit) ++ page limit p l := by
  rw [page, Nat.add_mul, Nat.one_mul, List.take_add]

/-- The pages of one answer are its beginning. -/
theorem pages_const : pages limit count (fun _ => l) = l.take (count * limit) := by
  induction count with
  | zero => simp [pages]
  | succ count ih =>
      unfold pages at ih ⊢
      rw [List.range_succ, List.flatMap_append, ih, take_succ_page]
      simp

omit [LinearOrder κ] in
/-- A page of the keys is the keys of the page. -/
theorem page_map (f : α → κ) : (page limit p l).map f = page limit p (l.map f) := by
  simp [page, List.map_take, List.map_drop]

/-- The keys of the pages are the sorted keys. -/
theorem map_key_pages (h : ∀ p, Answer key rows (answers p))
    (hl : Answer key rows l) (hcount : rows.length ≤ count * limit) :
    (pages limit count answers).map key = l.map key := by
  have hpages : (pages limit count answers).map key
      = pages limit count fun _ => l.map key := by
    unfold pages
    rw [List.map_flatMap]
    congr 1
    funext p
    rw [page_map, (h p).map_key hl]
  rw [hpages, pages_const, List.take_of_length_le]
  rw [List.length_map, hl.perm.length_eq]
  exact hcount

/-- The pages in sequence are sorted. -/
theorem pages_sorted (h : ∀ p, Answer key rows (answers p))
    (hcount : rows.length ≤ count * limit) :
    (pages limit count answers).Pairwise fun a b => key a ≤ key b := by
  obtain ⟨l, hl⟩ := exists_answer key rows
  have hsorted := List.pairwise_map.mpr hl.sorted
  rw [← map_key_pages h hl hcount] at hsorted
  exact List.pairwise_map.mp hsorted

/-- Without a split group the pages are the rows, whatever the answers. -/
theorem pages_perm (h : ∀ p, Answer key rows (answers p))
    (hcount : rows.length ≤ count * limit)
    (hsplit : ∀ p, 0 < p * limit → p * limit < rows.length →
      ¬ Splits key rows (p * limit)) :
    (pages limit count answers).Perm rows := by
  obtain ⟨l, hl⟩ := exists_answer key rows
  have hpage : ∀ p, (page limit p (answers p)).Perm (page limit p l) := by
    intro p
    have hfront := (h p).take_perm hl (hsplit p)
    have hnext := (h p).take_perm hl (hsplit (p + 1))
    rw [take_succ_page, take_succ_page] at hnext
    exact (List.perm_append_left_iff _).mp
      ((hfront.symm.append_right _).trans hnext)
  have hall : (pages limit count answers).Perm (pages limit count fun _ => l) := by
    unfold pages
    exact List.Perm.flatMap_left _ fun p _ => hpage p
  rw [pages_const, List.take_of_length_le (by rw [hl.perm.length_eq]; exact hcount)]
    at hall
  exact hall.trans hl.perm

-- ======================================================== a split group

/-- The rows on both sides of such a boundary have one key, in whatever
order the rows are listed: the number of rows below the key does not
depend on it. -/
theorem Answer.tie_at (h : Answer key rows l) (hsplit : Splits key rows k) :
    ∃ before x y after, l = before ++ x :: y :: after
      ∧ before.length + 1 = k ∧ key x = key y := by
  obtain ⟨v, hlt, hle⟩ := hsplit
  rw [← h.perm.countP_eq] at hlt hle
  have hlen : k < l.length := by
    have := List.countP_le_length (l := l) (p := fun a => decide (key a ≤ v))
    omega
  have hpos : 0 < k := by omega
  have hupto : ∀ i (hi : i < l.length), i ≤ k → key l[i] ≤ v := by
    intro i hi hik
    by_contra hgt
    -- then all keys from there on are larger
    have hback : (l.drop i).countP (fun a => decide (key a ≤ v)) = 0 := by
      rw [List.countP_eq_zero]
      intro a ha
      obtain ⟨j, hj, rfl⟩ := List.mem_iff_getElem.mp ha
      rw [List.getElem_drop]
      rcases Nat.eq_zero_or_pos j with rfl | hj'
      · simpa using not_le.mp hgt
      · have hmono := List.pairwise_iff_getElem.mp h.sorted i (i + j) hi
          (by rw [List.length_drop] at hj; omega) (by omega)
        simpa using lt_of_lt_of_le (not_le.mp hgt) hmono
    have hsum : l.countP (fun a => decide (key a ≤ v))
        = (l.take i).countP (fun a => decide (key a ≤ v)) := by
      conv_lhs => rw [← List.take_append_drop i l]
      rw [List.countP_append, hback, Nat.add_zero]
    have := List.countP_le_length (l := l.take i)
      (p := fun a => decide (key a ≤ v))
    rw [List.length_take] at this
    omega
  have hfrom : ∀ i (hi : i < l.length), k ≤ i + 1 → v ≤ key l[i] := by
    intro i hi hik
    by_contra hsmall
    have hfront : (l.take (i + 1)).countP (fun a => decide (key a < v))
        = i + 1 := by
      rw [List.countP_eq_length.mpr, List.length_take]
      · omega
      · intro a ha
        obtain ⟨j, hj, rfl⟩ := List.mem_iff_getElem.mp ha
        rw [List.length_take] at hj
        rw [List.getElem_take]
        rcases Nat.lt_or_ge j i with hji | hji
        · have hmono :=
            List.pairwise_iff_getElem.mp h.sorted j i (by omega) hi hji
          simpa using lt_of_le_of_lt hmono (not_le.mp hsmall)
        · have : j = i := by omega
          subst this
          simpa using not_le.mp hsmall
    have := List.Sublist.countP_le (p := fun a => decide (key a < v))
      (List.take_sublist (i + 1) l)
    omega
  have hx : k - 1 < l.length := by omega
  refine ⟨l.take (k - 1), l[k - 1], l[k], l.drop (k + 1), ?_, ?_, ?_⟩
  · have hk : k - 1 + 1 = k := by omega
    conv_lhs => rw [← List.take_append_drop (k - 1) l]
    rw [List.drop_eq_getElem_cons hx]
    congr 2
    simp only [hk]
    rw [List.drop_eq_getElem_cons hlen]
  · rw [List.length_take]
    omega
  · exact le_antisymm
      ((hupto _ hx (by omega)).trans (hfrom _ hlen (by omega)))
      ((hupto _ hlen (by omega)).trans (hfrom _ hx (by omega)))

/-- Two rows of one key may change places. -/
theorem Answer.swap {before after : List α} {x y : α}
    (h : Answer key rows (before ++ x :: y :: after)) (hxy : key x = key y) :
    Answer key rows (before ++ y :: x :: after) := by
  refine ⟨((List.Perm.swap x y after).append_left before).trans h.perm, ?_⟩
  have hkeys : (before ++ y :: x :: after).map key
      = (before ++ x :: y :: after).map key := by
    simp [hxy]
  have hsorted := List.pairwise_map.mpr h.sorted
  rw [← hkeys] at hsorted
  exact List.pairwise_map.mp hsorted

/-- A boundary inside a group lets one row appear on both its pages: the next
request may swap the two rows that the boundary parts. -/
theorem exists_repeated (hlimit : 1 ≤ limit)
    (hcount : rows.length ≤ count * limit) (hpos : 0 < p * limit)
    (hsplit : Splits key rows (p * limit)) :
    ∃ answers, (∀ q, Answer key rows (answers q))
      ∧ ¬ (pages limit count answers).Nodup := by
  obtain ⟨l, hl⟩ := exists_answer key rows
  obtain ⟨before, x, y, after, rfl, hbefore, hxy⟩ := hl.tie_at hsplit
  have hl' := hl.swap hxy
  refine ⟨fun q => if q < p then before ++ x :: y :: after
    else before ++ y :: x :: after, ?_, ?_⟩
  · intro q
    dsimp only
    split
    · exact hl
    · exact hl'
  · have hp : 0 < p := Nat.pos_of_mul_pos_right hpos
    have hlast : p < count := by
      by_contra hge
      have hmul := Nat.mul_le_mul_right limit (Nat.not_lt.mp hge)
      have := hl.perm.length_eq
      simp at this
      omega
    -- `x` ends the page before the boundary and starts the one after it
    have hprev : x ∈ page limit (p - 1) (before ++ x :: y :: after) := by
      have hmul : p * limit = (p - 1) * limit + limit := by
        conv_lhs => rw [show p = p - 1 + 1 by omega]
        rw [Nat.add_mul, Nat.one_mul]
      unfold page
      rw [List.drop_append_of_le_length (by omega)]
      rw [List.take_append, List.mem_append]
      right
      have hroom : limit - (before.drop ((p - 1) * limit)).length = 1 := by
        rw [List.length_drop]
        omega
      rw [hroom]
      simp
    have hnext : x ∈ page limit p (before ++ y :: x :: after) := by
      unfold page
      have hdrop : (before ++ y :: x :: after).drop (p * limit)
          = x :: after := by
        rw [← hbefore, List.drop_append]
        simp
      rw [hdrop]
      cases limit with
      | zero => omega
      | succ limit => simp
    intro hnodup
    have hlists := List.nodup_flatMap.mp hnodup
    have hdisjoint := List.pairwise_iff_getElem.mp hlists.2 (p - 1) p
      (by simp; omega) (by simpa using hlast) (by omega)
    simp only [List.getElem_range, Function.onFun] at hdisjoint
    rw [if_pos (show p - 1 < p by omega), if_neg (Nat.lt_irrefl p)] at hdisjoint
    exact hdisjoint hprev hnext

end Offset
