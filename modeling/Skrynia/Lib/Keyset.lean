/-
Keyset pagination.

A sorted list is read page by page. Each page ends with a cursor made of
its last row, and the next request asks for the rows that come `after`
it. The client follows the cursors until there is none (`follow`).

The server fetches exactly `limit` rows and hands out a cursor whenever
the page is full (`fullPage`).

# When the reading is complete

`Ordered` says that `after` goes with the order and that no cursor comes
before its own row. Then no row is read twice, and rows are lost only at
the page boundaries (`follow_fullPage`): the reading is complete just
when at each boundary the next row comes after the cursor.

# Sort keys

Lists come from `orderBy`, the rows in descending order of a key in a
linear order (an ascending column is a component of the dual order). With
distinct keys the sort commutes with a filter (`orderBy_filter`), so a
condition on the cursor may be checked before it. A cursor that stands
for a bound on the keys is `Ordered` when the bound is at most its row's
key (`ordered_orderBy`).
-/
import Mathlib.Data.List.Sort
import Mathlib.Order.Lattice

namespace Keyset

universe u v w

variable {α : Type u} {κ : Type v} {ρ : Type w}

/-- Read pages until there is no cursor; `none` when the fuel runs out. -/
def follow (page : Option κ → ρ × Option κ) :
    Nat → Option κ → Option (List ρ)
  | 0, _ => none
  | fuel + 1, c =>
      match (page c).2 with
      | none => some [(page c).1]
      | some next => (follow page fuel (some next)).map
          fun pages => (page c).1 :: pages

/-- More fuel reads the same pages. -/
theorem follow_agree {page : Option κ → ρ × Option κ} {fuel fuel' : Nat}
    {c : Option κ} {pages pages' : List ρ} (h : follow page fuel c = some pages)
    (h' : follow page fuel' c = some pages') : pages = pages' := by
  induction fuel generalizing fuel' c pages pages' with
  | zero => cases h
  | succ fuel ih =>
      cases fuel' with
      | zero => cases h'
      | succ fuel' =>
          rw [follow] at h h'
          cases hnext : (page c).2 with
          | none =>
              rw [hnext] at h h'
              exact Option.some.inj (h.symm.trans h')
          | some next =>
              rw [hnext] at h h'
              obtain ⟨tail, htail, rfl⟩ := Option.map_eq_some_iff.mp h
              obtain ⟨tail', htail', rfl⟩ := Option.map_eq_some_iff.mp h'
              rw [ih htail htail']

/-- Pages and cursors under other names. -/
theorem follow_map {κ' : Type*} {ρ' : Type*} {p : Option κ → ρ × Option κ}
    {q : Option κ' → ρ' × Option κ'} {f : κ → κ'} {g : ρ → ρ'}
    (h : ∀ c, q (c.map f) = (g (p c).1, (p c).2.map f))
    (fuel : Nat) (c : Option κ) :
    follow q fuel (c.map f) = (follow p fuel c).map (List.map g) := by
  induction fuel generalizing c with
  | zero => rfl
  | succ fuel ih =>
      rw [follow, follow, h c]
      cases hnext : (p c).2 with
      | none => rfl
      | some next =>
          show Option.map _ (follow q fuel (Option.map f (some next))) = _
          rw [ih, Option.map_map, Option.map_map]
          rfl

/-- A reading that keeps the cursors, with the cursors taken off. -/
theorem follow_eq_keep (page : Option κ → ρ × Option κ) (fuel : Nat)
    (c : Option κ) :
    follow page fuel c
      = (follow (fun c => (page c, (page c).2)) fuel c).map
          (List.map Prod.fst) := by
  have hmap : ∀ c, page (c.map id) = ((page c).1, (page c).2.map id) := by
    intro c
    rw [Option.map_id_fun, id_eq, id_eq]
  have hkeep := follow_map (f := id) (g := Prod.fst)
    (p := fun c => (page c, (page c).2)) hmap fuel c
  rwa [Option.map_id_fun, id_eq] at hkeep

/-- The same reading, each page kept with its cursor. -/
theorem follow_keep {page : Option κ → ρ × Option κ} {fuel : Nat} {c : Option κ}
    {pages : List ρ} (h : follow page fuel c = some pages) :
    ∃ answers, follow (fun c => (page c, (page c).2)) fuel c = some answers
      ∧ answers.map Prod.fst = pages := by
  rw [follow_eq_keep] at h
  exact Option.map_eq_some_iff.mp h

/-- The pages of a reading that keeps their cursors. -/
theorem follow_forget {page : Option κ → ρ × Option κ} {fuel : Nat} {c : Option κ}
    {answers : List (ρ × Option κ)}
    (h : follow (fun c => (page c, (page c).2)) fuel c = some answers) :
    follow page fuel c = some (answers.map Prod.fst) := by
  rw [follow_eq_keep, h]
  rfl

section Server

variable (L : List α) (after : κ → α → Prop) [∀ c, DecidablePred (after c)]
  (cursorOf : α → κ) (limit : Nat)

/-- The rows that a request asks for. -/
def rest : Option κ → List α
  | none => L
  | some c => L.filter fun a => after c a

/-- A page with a cursor whenever it is full. -/
def fullPage (c : Option κ) : List α × Option κ :=
  let rows := (rest L after c).take limit
  (rows, if rows.length < limit then none else rows.getLast?.map cursorOf)

end Server

section Order

variable (after : κ → α → Prop) (cursorOf : α → κ)

/-- The cursors go with the order of the list. -/
structure Ordered (L : List α) : Prop where
  closed : L.Pairwise fun a b => ∀ c, after c a → after c b
  strict : L.Pairwise fun a b => ¬ after (cursorOf b) a
  irrefl : ∀ a ∈ L, ¬ after (cursorOf a) a

/-- At each page boundary the next row comes after the cursor. -/
def Boundaries (limit : Nat) (L : List α) : Prop :=
  ∀ i a b, L[(i + 1) * limit - 1]? = some a → L[(i + 1) * limit]? = some b →
    after (cursorOf a) b

end Order

variable {after : κ → α → Prop} {cursorOf : α → κ} {L : List α} {limit : Nat}

-- ============================================================== one cursor

/-- What is left of an ordered list is ordered. -/
theorem Ordered.of_suffix {M : List α} (h : Ordered after cursorOf L)
    (hM : M <:+ L) : Ordered after cursorOf M where
  closed := h.closed.sublist hM.sublist
  strict := h.strict.sublist hM.sublist
  irrefl a ha := h.irrefl a (hM.mem ha)

section Filter

variable [∀ c, DecidablePred (after c)]

/-- A cursor leaves out a first part of the list. -/
theorem filter_after_suffix
    (h : L.Pairwise fun a b => ∀ c, after c a → after c b) (c : κ) :
    (L.filter fun a => after c a) <:+ L := by
  induction L with
  | nil => exact List.suffix_refl []
  | cons a L ih =>
      rw [List.pairwise_cons] at h
      by_cases ha : after c a
      · have hall : ∀ b ∈ L, decide (after c b) = true :=
          fun b hb => decide_eq_true (h.1 b hb c ha)
        have hkept : ((a :: L).filter fun b => after c b) = a :: L := by
          rw [List.filter_cons_of_pos (by simpa using ha),
            List.filter_eq_self.mpr hall]
        exact ⟨[], hkept⟩
      · rw [List.filter_cons_of_neg (by simpa using ha)]
        exact (ih h.2).trans (List.suffix_cons a L)

/-- The cursor of a row leaves out the row and all before it. -/
theorem Ordered.filter_after {xs ys : List α} {a : α}
    (h : Ordered after cursorOf (xs ++ a :: ys)) :
    ((xs ++ a :: ys).filter fun b => after (cursorOf a) b)
      = ys.filter fun b => after (cursorOf a) b := by
  have hbefore : ∀ x ∈ xs, ¬ after (cursorOf a) x := by
    intro x hx
    exact (List.pairwise_append.mp h.strict).2.2 x hx a List.mem_cons_self
  have hself : ¬ after (cursorOf a) a :=
    h.irrefl a (List.mem_append_right _ List.mem_cons_self)
  rw [List.filter_append, List.filter_cons_of_neg (by simpa using hself),
    List.filter_eq_nil_iff.mpr, List.nil_append]
  intro x hx
  simpa using hbefore x hx

/-- With all rows after the first one's cursor nothing is left out. -/
theorem filter_after_eq_self {a : α} {ys : List α}
    (hclosed : ys.Pairwise fun a b => ∀ c, after c a → after c b)
    (h : ∀ b, ys[0]? = some b → after (cursorOf a) b) :
    (ys.filter fun b => after (cursorOf a) b) = ys := by
  cases ys with
  | nil => rfl
  | cons y ys =>
      rw [List.pairwise_cons] at hclosed
      have hy := h y rfl
      rw [List.filter_eq_self]
      intro b hb
      rcases List.mem_cons.mp hb with rfl | hb
      · exact decide_eq_true hy
      · exact decide_eq_true (hclosed.1 b hb _ hy)

end Filter

/-- The boundaries of a list, one page at a time. -/
theorem boundaries_iff {xs ys : List α} {a : α}
    (hlimit : xs.length + 1 = limit) :
    Boundaries after cursorOf limit (xs ++ a :: ys)
      ↔ (∀ b, ys[0]? = some b → after (cursorOf a) b)
        ∧ Boundaries after cursorOf limit ys := by
  have hlast : (xs ++ a :: ys)[limit - 1]? = some a := by
    rw [← hlimit, Nat.add_sub_cancel, List.getElem?_append_right (Nat.le_refl _),
      Nat.sub_self]
    rfl
  have hshift : ∀ j, (xs ++ a :: ys)[limit + j]? = ys[j]? := by
    intro j
    rw [List.getElem?_append_right (by omega)]
    have hj : limit + j - xs.length = j + 1 := by omega
    rw [hj, List.getElem?_cons_succ]
  constructor
  · intro h
    refine ⟨?_, ?_⟩
    · intro b hb
      refine h 0 a b ?_ ?_
      · rw [Nat.zero_add, Nat.one_mul]
        exact hlast
      · rw [Nat.zero_add, Nat.one_mul]
        exact (hshift 0).trans hb
    · intro i x b hx hb
      refine h (i + 1) x b ?_ ?_
      · have hi : (i + 1 + 1) * limit - 1 = limit + ((i + 1) * limit - 1) := by
          have hpos : 0 < (i + 1) * limit :=
            Nat.mul_pos (Nat.succ_pos i) (by omega)
          rw [Nat.add_mul (i + 1), Nat.one_mul]
          omega
        rw [hi, hshift]
        exact hx
      · have hi : (i + 1 + 1) * limit = limit + (i + 1) * limit := by
          rw [Nat.add_mul (i + 1), Nat.one_mul, Nat.add_comm]
        rw [hi, hshift]
        exact hb
  · intro h i x b hx hb
    obtain ⟨hhead, htail⟩ := h
    cases i with
    | zero =>
        rw [Nat.zero_add, Nat.one_mul] at hx hb
        rw [hlast] at hx
        cases hx
        exact hhead b ((hshift 0).symm.trans hb)
    | succ i =>
        refine htail i x b ?_ ?_
        · have hi : (i + 1 + 1) * limit - 1
              = limit + ((i + 1) * limit - 1) := by
            have hpos : 0 < (i + 1) * limit :=
              Nat.mul_pos (Nat.succ_pos i) (by omega)
            rw [Nat.add_mul (i + 1), Nat.one_mul]
            omega
          rw [hi, hshift] at hx
          exact hx
        · have hi : (i + 1 + 1) * limit = limit + (i + 1) * limit := by
            rw [Nat.add_mul (i + 1), Nat.one_mul, Nat.add_comm]
          rw [hi, hshift] at hb
          exact hb

-- ============================================================== all cursors

section Follow

variable [∀ c, DecidablePred (after c)]

omit [∀ c, DecidablePred (after c)] in
/-- A list without a full page has no boundary. -/
theorem boundaries_of_short (h : L.length < limit) :
    Boundaries after cursorOf limit L := by
  intro i a b _ hb
  have hi : limit ≤ (i + 1) * limit := Nat.le_mul_of_pos_left limit (Nat.succ_pos i)
  rw [List.getElem?_eq_none (by omega)] at hb
  cases hb

/-- A full page, its last row and the rows that remain. -/
theorem exists_page {M : List α} (hlimit : 1 ≤ limit) (h : limit ≤ M.length) :
    ∃ xs a ys, M = xs ++ a :: ys ∧ xs.length + 1 = limit := by
  have hpos : limit - 1 < M.length := by omega
  refine ⟨M.take (limit - 1), M[limit - 1], M.drop limit, ?_, ?_⟩
  · have hdrop := List.drop_eq_getElem_cons hpos
    rw [Nat.sub_add_cancel hlimit] at hdrop
    rw [← hdrop, List.take_append_drop]
  · rw [List.length_take]
    omega

/-- What a cursor asks for, when its row is in the list. -/
theorem Ordered.rest_cursor {xs ys : List α} {a : α}
    (h : Ordered after cursorOf L) (hM : xs ++ a :: ys <:+ L) :
    rest L after (some (cursorOf a)) = ys.filter fun b => after (cursorOf a) b := by
  obtain ⟨before, rfl⟩ := hM
  have hsplit : before ++ (xs ++ a :: ys) = (before ++ xs) ++ a :: ys :=
    (List.append_assoc before xs (a :: ys)).symm
  rw [hsplit] at h ⊢
  exact h.filter_after

/-- One page of `fullPage`, when it is full. -/
theorem fullPage_cons {xs ys : List α} {a : α} {c : Option κ}
    (hrest : rest L after c = xs ++ a :: ys) (hlimit : xs.length + 1 = limit) :
    fullPage L after cursorOf limit c = (xs ++ [a], some (cursorOf a)) := by
  have hrows : (xs ++ a :: ys).take limit = xs ++ [a] := by
    rw [List.take_append, List.take_of_length_le (by omega), ← hlimit,
      Nat.add_sub_cancel_left]
    rfl
  have hfull : ¬ (xs ++ [a]).length < limit := by
    rw [List.length_append, List.length_singleton]
    omega
  rw [fullPage, hrest, hrows]
  show (_, if (xs ++ [a]).length < limit then none else _) = _
  rw [if_neg hfull, List.getLast?_concat]
  rfl

/-- One page of `fullPage`, when it is the last. -/
theorem fullPage_short {M : List α} {c : Option κ}
    (hrest : rest L after c = M) (h : M.length < limit) :
    fullPage L after cursorOf limit c = (M, none) := by
  rw [fullPage, hrest, List.take_of_length_le (by omega)]
  show (_, if M.length < limit then none else _) = _
  rw [if_pos h]

/-- Read from anywhere with full pages, what remains is read, less what the
boundaries lose. -/
theorem follow_fullPage_from (hL : Ordered after cursorOf L)
    (hlimit : 1 ≤ limit) {fuel : Nat} :
    ∀ {c : Option κ} {M : List α}, rest L after c = M → M <:+ L →
      M.length < fuel →
      ∃ pages, follow (fullPage L after cursorOf limit) fuel c = some pages
        ∧ pages.flatten.Sublist M
        ∧ (pages.flatten = M ↔ Boundaries after cursorOf limit M) := by
  induction fuel with
  | zero =>
      intro c M _ _ hfuel
      exact absurd hfuel (Nat.not_lt_zero _)
  | succ fuel ih =>
      intro c M hrest hM hfuel
      by_cases hshort : M.length < limit
      · refine ⟨[M], ?_, ?_, ?_⟩
        · rw [follow, fullPage_short hrest hshort]
        · rw [List.flatten_cons, List.flatten_nil, List.append_nil]
        · rw [List.flatten_cons, List.flatten_nil, List.append_nil]
          exact iff_of_true rfl (boundaries_of_short hshort)
      obtain ⟨xs, a, ys, rfl, hxs⟩ := exists_page hlimit (Nat.not_lt.mp hshort)
      have hM' : ys <:+ L :=
        ((List.suffix_cons a ys).trans (List.suffix_append xs _)).trans hM
      have hys := hL.of_suffix hM'
      -- The next request loses a first part of `ys`.
      have hlost : (ys.filter fun b => after (cursorOf a) b) <:+ ys :=
        filter_after_suffix hys.closed _
      have hless : (ys.filter fun b => after (cursorOf a) b).length < fuel := by
        have := hlost.length_le
        rw [List.length_append, List.length_cons] at hfuel
        omega
      obtain ⟨pages, hpages, hsub, hall⟩ :=
        ih (hL.rest_cursor hM) (hlost.trans hM') hless
      refine ⟨(xs ++ [a]) :: pages, ?_, ?_, ?_⟩
      · rw [follow, fullPage_cons hrest hxs]
        show Option.map _ (follow _ fuel (some (cursorOf a))) = _
        rw [hpages]
        rfl
      · rw [List.flatten_cons, List.append_assoc, List.singleton_append]
        exact ((hsub.trans hlost.sublist).cons_cons a).append_left xs
      · rw [List.flatten_cons, List.append_assoc, List.singleton_append,
          boundaries_iff hxs, List.append_cancel_left_eq, List.cons.injEq]
        constructor
        · intro h
          obtain ⟨-, hflat⟩ := h
          have hlen := hsub.length_le
          rw [hflat] at hlen
          have hkept : (ys.filter fun b => after (cursorOf a) b) = ys :=
            hlost.sublist.eq_of_length_le hlen
          rw [hkept] at hall
          refine ⟨?_, hall.mp hflat⟩
          intro b hb
          have hmem : b ∈ ys.filter fun b => after (cursorOf a) b := by
            rw [hkept]
            exact List.mem_of_getElem? hb
          exact of_decide_eq_true (List.mem_filter.mp hmem).2
        · intro h
          have hkept := filter_after_eq_self hys.closed h.1
          rw [hkept] at hall
          exact ⟨rfl, hall.mpr h.2⟩

/-- Reading with `fullPage` ends, reads no row twice, and misses none just
when the boundaries hold. -/
theorem follow_fullPage (hL : Ordered after cursorOf L) (hlimit : 1 ≤ limit)
    {fuel : Nat} (hfuel : L.length < fuel) :
    ∃ pages, follow (fullPage L after cursorOf limit) fuel none = some pages
      ∧ pages.flatten.Sublist L
      ∧ (pages.flatten = L ↔ Boundaries after cursorOf limit L) :=
  follow_fullPage_from hL hlimit rfl (List.suffix_refl L) hfuel

end Follow

-- ============================================================== sort keys

section Keys

variable {γ : Type w} [LinearOrder γ] {key : α → γ} {rows : List α}

/-- The rows, largest key first. -/
def orderBy (key : α → γ) (rows : List α) : List α :=
  rows.insertionSort fun a b => key b ≤ key a

/-- Sorting loses no row and adds none. -/
theorem orderBy_perm (key : α → γ) (rows : List α) : (orderBy key rows).Perm rows :=
  List.perm_insertionSort _ rows

/-- The rows are the same. -/
@[simp] theorem mem_orderBy {a : α} : a ∈ orderBy key rows ↔ a ∈ rows :=
  (orderBy_perm key rows).mem_iff

/-- There are as many. -/
@[simp] theorem length_orderBy : (orderBy key rows).length = rows.length :=
  (orderBy_perm key rows).length_eq

/-- The keys descend. -/
theorem orderBy_pairwise_le (key : α → γ) (rows : List α) :
    (orderBy key rows).Pairwise fun a b => key b ≤ key a := by
  have : Std.Total fun a b : α => key b ≤ key a :=
    ⟨fun a b => le_total (key b) (key a)⟩
  have : IsTrans α fun a b : α => key b ≤ key a := ⟨fun _ _ _ h h' => h'.trans h⟩
  exact List.pairwise_insertionSort _ rows

/-- Distinct keys are strictly ordered. -/
theorem orderBy_pairwise (h : (rows.map key).Nodup) :
    (orderBy key rows).Pairwise fun a b => key b < key a := by
  have hne : (orderBy key rows).Pairwise fun a b => key a ≠ key b :=
    List.pairwise_map.mp (((orderBy_perm key rows).map key).nodup_iff.mpr h)
  refine ((orderBy_pairwise_le key rows).and hne).imp ?_
  intro a b hab
  exact lt_of_le_of_ne hab.1 (Ne.symm hab.2)

/-- With distinct keys, sorting and filtering commute. -/
theorem orderBy_filter (h : (rows.map key).Nodup) (p : α → Bool) :
    orderBy key (rows.filter p) = (orderBy key rows).filter p := by
  have hperm : (orderBy key (rows.filter p)).Perm ((orderBy key rows).filter p) :=
    (orderBy_perm key _).trans ((orderBy_perm key rows).filter p).symm
  refine hperm.eq_of_pairwise ?_ (orderBy_pairwise_le key _)
    ((orderBy_pairwise_le key rows).filter p)
  intro a b ha hb hab hba
  have ha' : a ∈ rows := (List.mem_filter.mp (mem_orderBy.mp ha)).1
  have hb' : b ∈ rows := mem_orderBy.mp (List.mem_filter.mp hb).1
  exact List.inj_on_of_nodup_map h ha' hb' (le_antisymm hba hab)

/-- The rows have one strictly descending order. -/
theorem eq_orderBy {l : List α} (h : (rows.map key).Nodup)
    (hl : l.Pairwise fun a b => key b < key a) (hmem : ∀ a, a ∈ l ↔ a ∈ rows) :
    l = orderBy key rows := by
  have hnodup : ∀ {l : List α}, (l.Pairwise fun a b => key b < key a) → l.Nodup := by
    intro l hl
    refine hl.imp ?_
    intro a b hab heq
    rw [heq] at hab
    exact lt_irrefl _ hab
  have hperm : l.Perm (orderBy key rows) := by
    refine (List.perm_ext_iff_of_nodup (hnodup hl) (hnodup (orderBy_pairwise h))).mpr ?_
    intro a
    rw [hmem, mem_orderBy]
  refine hperm.eq_of_pairwise ?_ hl (orderBy_pairwise h)
  intro a b _ _ hab hba
  exact absurd hab hba.asymm

/-- The order goes by the rows, not by their places. -/
theorem orderBy_congr {rows' : List α} (h : (rows.map key).Nodup)
    (h' : (rows'.map key).Nodup) (hmem : ∀ a, a ∈ rows' ↔ a ∈ rows) :
    orderBy key rows' = orderBy key rows := by
  refine eq_orderBy h (orderBy_pairwise h') ?_
  intro a
  rw [mem_orderBy, hmem]

/-- Sorting images is sorting by the image's key. -/
theorem orderBy_map {β : Type*} (f : β → α) (l : List β) :
    orderBy key (l.map f) = (orderBy (fun b => key (f b)) l).map f :=
  (List.map_insertionSort _ _ f l fun _ _ _ _ => Iff.rfl).symm

/-- A cursor bounds the keys of the rows it asks for. -/
theorem ordered_orderBy {bound : κ → γ} (h : (rows.map key).Nodup)
    (hbound : ∀ a ∈ rows, bound (cursorOf a) ≤ key a) :
    Ordered (fun c a => key a < bound c) cursorOf (orderBy key rows) where
  closed := by
    refine (orderBy_pairwise h).imp ?_
    intro a b hab c ha
    exact hab.trans ha
  strict := by
    refine (orderBy_pairwise h).imp_of_mem ?_
    intro a b _ hb hab hlt
    exact absurd (hlt.trans_le (hbound b (mem_orderBy.mp hb))) hab.asymm
  irrefl a ha hlt := absurd (hlt.trans_le (hbound a (mem_orderBy.mp ha))) (lt_irrefl _)

end Keys

end Keyset
