/-
Rolling windows: how many times of a list fall into any interval of one
length, and how far apart they are.

A list has the latest time first. What a further time does to the two laws
is decided by the times that are still `recent` when it comes
(`rated_cons_iff`) and by the latest of them (`spaced_cons_iff`).

# Fixed windows

A counter that begins anew at `opened` admits `limit` times, however many
there were just before. The law survives it when the times before are
`Clear` of the window: the latest of them is over when the last time of
the window may come, the second latest when the last but one may, and so
on (`rated_cons_of_clear`). Otherwise times at the least distance, a
`paced` list, exceed the limit (`not_rated_paced`).
-/
import Mathlib.Tactic.Common
import Mathlib.Data.List.Basic

namespace Rolling

variable {width limit gap now : Nat} {times : List Nat}

/-- The times in the half-open interval from `t` on. -/
def within (width t : Nat) (times : List Nat) : List Nat :=
  times.filter fun a => t ≤ a ∧ a < t + width

/-- The times less than `width` before `now`. -/
def recent (width now : Nat) (times : List Nat) : List Nat :=
  times.filter fun a => now < a + width

/-- Every interval has at most `limit` of the times. -/
def Rated (width limit : Nat) (times : List Nat) : Prop :=
  ∀ t, (within width t times).length ≤ limit

/-- Any two of the times are at least `gap` apart. -/
def Spaced (gap : Nat) (times : List Nat) : Prop :=
  times.Pairwise fun later earlier => earlier + gap ≤ later

/-- The times before a window leave room for `limit` times in it, which
come no closer than `gap`. -/
def Clear (width gap limit opened : Nat) (times : List Nat) : Prop :=
  ∀ i < limit, ∀ a, times[i]? = some a →
    a + width ≤ opened + gap * (limit - 1 - i)

/-- So many times from `opened` on, at the least distance. -/
def paced (gap opened : Nat) : Nat → List Nat
  | 0 => []
  | n + 1 => (opened + gap * n) :: paced gap opened n

/-- No times, no rate. -/
theorem rated_nil : Rated width limit [] := fun _ => Nat.zero_le _

/-- Nor anything to space. -/
theorem spaced_nil : Spaced gap [] := List.Pairwise.nil

/-- A new time keeps the gap to each one before. -/
theorem spaced_cons_iff : Spaced gap (now :: times)
    ↔ (∀ a ∈ times, a + gap ≤ now) ∧ Spaced gap times :=
  List.pairwise_cons

/-- An interval with `now` in it has no time that is not recent. -/
theorem within_sublist {t : Nat} (h : now < t + width) :
    (within width t times).length ≤ (recent width now times).length := by
  apply List.Sublist.length_le
  apply List.monotone_filter_right
  intro a ha
  rw [decide_eq_true_eq] at ha ⊢
  omega

/-- The interval that ends just after `now` has the recent times. -/
theorem within_of_recent (hle : ∀ a ∈ times, a ≤ now) :
    within width (now + 1 - width) times = recent width now times := by
  apply List.filter_congr
  intro a ha
  have := hle a ha
  rw [decide_eq_decide]
  omega

/-- One more time is within the limit if fewer are recent. -/
theorem rated_cons_iff (hle : ∀ a ∈ times, a ≤ now) (hwidth : 0 < width)
    (h : Rated width limit times) :
    Rated width limit (now :: times)
      ↔ (recent width now times).length < limit := by
  constructor
  · intro hall
    have hinterval := hall (now + 1 - width)
    unfold within at hinterval
    have hnow : now + 1 - width ≤ now ∧ now < now + 1 - width + width := by omega
    rw [List.filter_cons, if_pos (decide_eq_true hnow)] at hinterval
    rw [← within_of_recent hle]
    exact hinterval
  · intro hrecent t
    unfold within
    by_cases hnow : t ≤ now ∧ now < t + width
    · rw [List.filter_cons, if_pos (decide_eq_true hnow), List.length_cons]
      exact Nat.lt_of_le_of_lt (within_sublist hnow.2) hrecent
    · rw [List.filter_cons, if_neg (by rw [decide_eq_true_eq]; exact hnow)]
      exact h t

-- =========================================================== fixed windows

/-- The latest times come first. -/
theorem Spaced.sorted (h : Spaced gap times) :
    times.Pairwise fun later earlier => earlier ≤ later :=
  h.imp fun hle => Nat.le_trans (Nat.le_add_right _ _) hle

/-- If the `n`-th time is over, so are those before it. -/
theorem length_recent_le {n : Nat}
    (hsorted : times.Pairwise fun later earlier => earlier ≤ later)
    (h : ∀ a, times[n]? = some a → a + width ≤ now) :
    (recent width now times).length ≤ n := by
  induction times generalizing n with
  | nil => exact Nat.zero_le n
  | cons a times ih =>
      obtain ⟨hall, hrest⟩ := List.pairwise_cons.mp hsorted
      cases n with
      | zero =>
          have hover : a + width ≤ now := h a rfl
          have hnone : recent width now (a :: times) = [] := by
            refine List.filter_eq_nil_iff.mpr fun x hx => ?_
            rw [decide_eq_true_eq]
            rcases List.mem_cons.mp hx with rfl | hx
            · omega
            · have := hall x hx
              omega
          rw [hnone]
          exact Nat.le_refl 0
      | succ n =>
          have hle := ih hrest (n := n) fun x hx => h x hx
          unfold recent at hle ⊢
          rw [List.filter_cons]
          split
          · exact Nat.succ_le_succ hle
          · exact Nat.le_succ_of_le hle

/-- Spaced times of a window are as far in it as there are of them. -/
theorem Spaced.opened_le {opened : Nat} {own : List Nat}
    (h : Spaced gap (now :: own)) (hown : ∀ a ∈ own, opened ≤ a)
    (hopened : opened ≤ now) : opened + gap * own.length ≤ now := by
  induction own generalizing now with
  | nil => exact hopened
  | cons a own ih =>
      obtain ⟨hall, hrest⟩ := spaced_cons_iff.mp h
      have hle := ih hrest (fun x hx => hown x (List.mem_cons_of_mem _ hx))
        (hown a List.mem_cons_self)
      have hgap := hall a List.mem_cons_self
      rw [List.length_cons, Nat.mul_succ]
      omega

/-- A window that the times before are clear of may take one more, as long
as it has not had its number. -/
theorem rated_cons_of_clear {opened : Nat} {own old : List Nat}
    (hspaced : Spaced gap (now :: (own ++ old))) (hlt : own.length < limit)
    (hown : ∀ a ∈ own, opened ≤ a) (hopened : opened ≤ now)
    (hclear : Clear width gap limit opened old) (hwidth : 0 < width)
    (hrated : Rated width limit (own ++ old)) :
    Rated width limit (now :: (own ++ old)) := by
  obtain ⟨hall, hrest⟩ := spaced_cons_iff.mp hspaced
  have hpast : ∀ a ∈ own ++ old, a ≤ now := fun a ha =>
    Nat.le_trans (Nat.le_add_right _ _) (hall a ha)
  have hfar : opened + gap * own.length ≤ now := by
    refine Spaced.opened_le (hspaced.sublist ?_) hown hopened
    exact (List.sublist_append_left own old).cons_cons now
  have hold : (recent width now old).length ≤ limit - 1 - own.length := by
    have holdSpaced : Spaced gap old :=
      hrest.sublist (List.sublist_append_right own old)
    refine length_recent_le holdSpaced.sorted fun a ha => ?_
    have hover := hclear _ (by omega) a ha
    have hindex : limit - 1 - (limit - 1 - own.length) = own.length := by omega
    rw [hindex] at hover
    exact Nat.le_trans hover hfar
  have hownle : (recent width now own).length ≤ own.length :=
    List.length_filter_le _ _
  rw [rated_cons_iff hpast hwidth hrated]
  unfold recent at hold hownle ⊢
  rw [List.filter_append, List.length_append]
  omega

/-- There are `n` times. -/
theorem length_paced (gap opened n : Nat) : (paced gap opened n).length = n := by
  induction n with
  | zero => rfl
  | succ n ih => exact congrArg Nat.succ ih

/-- All within `n` gaps from the opening. -/
theorem mem_paced {opened n a : Nat} (h : a ∈ paced gap opened n) :
    opened ≤ a ∧ a + gap ≤ opened + gap * n := by
  induction n with
  | zero => cases h
  | succ n ih =>
      rw [Nat.mul_succ]
      rcases List.mem_cons.mp h with rfl | h
      · omega
      · have := ih h
        omega

/-- If the times before are not clear of the window, it has more times in
it than the limit, at the least distance. -/
theorem not_rated_paced {opened : Nat}
    (hsorted : times.Pairwise fun later earlier => earlier ≤ later)
    (hpast : ∀ a ∈ times, a ≤ opened)
    (h : ¬ Clear width gap limit opened times) :
    ∃ n < limit, ¬ Rated width limit (paced gap opened (n + 1) ++ times) := by
  unfold Clear at h
  push Not at h
  obtain ⟨i, hi, a, ha, hlt⟩ := h
  refine ⟨limit - 1 - i, by omega, fun hrated => ?_⟩
  have hinterval := hrated a
  obtain ⟨hilt, rfl⟩ := List.getElem?_eq_some_iff.mp ha
  have hale : times[i] ≤ opened := hpast _ (List.getElem_mem hilt)
  have hpaced : within width times[i] (paced gap opened (limit - 1 - i + 1))
      = paced gap opened (limit - 1 - i + 1) := by
    refine List.filter_eq_self.mpr fun x hx => ?_
    obtain ⟨hle, hfar⟩ := mem_paced hx
    rw [Nat.mul_succ] at hfar
    rw [decide_eq_true_eq]
    omega
  have htaken : within width times[i] (times.take (i + 1))
      = times.take (i + 1) := by
    refine List.filter_eq_self.mpr fun x hx => ?_
    obtain ⟨j, hj, rfl⟩ := List.mem_take_iff_getElem.mp hx
    have hji : times[i] ≤ times[j] := by
      rcases Nat.lt_or_ge j i with hlt | hge
      · exact List.pairwise_iff_getElem.mp hsorted j i (by omega) hilt hlt
      · obtain rfl : j = i := by omega
        exact Nat.le_refl _
    have hpast' := hpast times[j] (List.getElem_mem _)
    rw [decide_eq_true_eq]
    omega
  have hsub : (within width times[i] (times.take (i + 1))).length
      ≤ (within width times[i] times).length :=
    ((List.take_sublist (i + 1) times).filter _).length_le
  rw [htaken, List.length_take] at hsub
  unfold within at hinterval hpaced hsub
  rw [List.filter_append, hpaced, List.length_append, length_paced] at hinterval
  omega

end Rolling
