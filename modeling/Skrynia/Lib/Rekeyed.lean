/-
Keyset pages that are sorted again.

A first query sorts the rows by `key` and takes those of one page, and one
row more, from behind the cursor; a second one selects these rows once
more and sorts them by `key'`, the same key computed in another way. The
page and its cursor come from the second query, so the cursor is the
`key'` of a row and is compared with `key`.

# When the reading is complete

No row may get lost in the second query. And each page, in the order of
the first one, has to be parted from the rows behind it: by both keys, and
by the cursor between them (`Parted`, `Aligned`). Then every page is its
own part of the list and the next cursor asks for all that remains
(`follow_rekeyedPage`).

Nothing less will do (`Reads.aligned`). The rows behind a cursor are a
last part of the list. A row of the page that is among them is among the
first of the next page, which shows it a second time, unless it is left
over as the row more; but then it sorts behind that page, and it was shown
in front. So the cursor parts the rows shown from those that remain.
-/
import Skrynia.Lib.Keyset

namespace Keyset

universe u v w

section Server

variable {α : Type u} {γ : Type w} [LinearOrder γ] (L : List α)
  (key key' : α → γ) (keep : α → Bool) (limit : Nat)

/-- One page of the rows that the second query keeps: both queries ask
for one row more, which decides whether there is a cursor. -/
def rekeyedPage (c : Option α) : List α × Option α :=
  let taken := (rest L (fun c a => key a < key' c) c).take (limit + 1)
  let rows := orderBy key' (taken.filter keep)
  (rows.take limit,
    if limit < rows.length then (rows.take limit).getLast? else none)

/-- The pages list the rows of `L`, each once, in the order of the second
query, and all but the last are full. -/
structure Reads (pages : List (List α)) : Prop where
  ordered : pages.flatten.Pairwise fun a b => key' b < key' a
  complete : ∀ a, a ∈ pages.flatten ↔ a ∈ L
  full : ∀ rows ∈ pages.dropLast, rows.length = limit

/-- The rows `B` come after the page `A` by both keys, and the first query
finds no row of `A` behind the cursor of `A`. -/
structure Parted (A B : List α) : Prop where
  later : ∀ a ∈ A, ∀ b ∈ B, key b < key' a
  after : ∀ a ∈ A, ∀ b ∈ B, key' b < key' a
  cursor : ∃ a ∈ A, ∀ a' ∈ A, key' a ≤ key a'

/-- Every page is parted from what is behind it. -/
def Aligned : Prop :=
  ∀ i, (i + 1) * limit < L.length →
    Parted key key' ((L.drop (i * limit)).take limit)
      (L.drop ((i + 1) * limit))

end Server

section Follow

variable {α : Type u} {κ : Type v} {ρ : Type w} {page : Option κ → ρ × Option κ}
  {fuel : Nat} {c : Option κ} {pages : List ρ}

/-- A reading is its first page and the reading behind its cursor. -/
theorem follow_cases (h : follow page fuel c = some pages) :
    (page c).2 = none ∧ pages = [(page c).1]
      ∨ ∃ fuel' next tail, fuel = fuel' + 1 ∧ (page c).2 = some next
        ∧ follow page fuel' (some next) = some tail
        ∧ pages = (page c).1 :: tail := by
  cases fuel with
  | zero => cases h
  | succ fuel =>
      rw [follow] at h
      cases hnext : (page c).2 with
      | none =>
          rw [hnext] at h
          exact .inl ⟨rfl, (Option.some.inj h).symm⟩
      | some next =>
          rw [hnext] at h
          obtain ⟨tail, htail, rfl⟩ := Option.map_eq_some_iff.mp h
          exact .inr ⟨fuel, next, tail, rfl, rfl, htail, rfl⟩

/-- What every page is, the pages of a reading are. -/
theorem follow_forall {P : ρ → Prop} (hpage : ∀ c, P (page c).1) :
    ∀ {fuel : Nat} {c : Option κ} {pages : List ρ},
      follow page fuel c = some pages → ∀ p ∈ pages, P p := by
  intro fuel
  induction fuel with
  | zero =>
      intro c pages h
      cases h
  | succ fuel ih =>
      intro c pages h p hp
      rcases follow_cases h with ⟨-, rfl⟩ | ⟨fuel', next, tail, hfuel, -, htail, rfl⟩
      · rw [List.mem_singleton.mp hp]
        exact hpage c
      · cases hfuel
        rcases List.mem_cons.mp hp with rfl | hp
        · exact hpage c
        · exact ih htail p hp

end Follow

section Lists

variable {α : Type u}

/-- What is among the first of a list is among the first of a part of it
that is left. -/
theorem mem_take_of_suffix {M M' : List α} {n : Nat} {a : α} (hM : M.Nodup)
    (hsuffix : M' <:+ M) (htake : a ∈ M.take n) (ha : a ∈ M') :
    a ∈ M'.take n := by
  obtain ⟨before, rfl⟩ := hsuffix
  have hbefore : a ∉ before := by
    intro hmem
    exact (List.nodup_append.mp hM).2.2 a hmem a ha rfl
  rw [List.take_append, List.mem_append] at htake
  rcases htake with htake | htake
  · exact absurd (List.mem_of_mem_take htake) hbefore
  · exact (List.take_prefix_take_left (Nat.sub_le n before.length)).mem htake

end Lists

variable {α : Type u} {γ : Type w} [LinearOrder γ] {L M : List α}
  {key key' : α → γ} {keep : α → Bool} {limit : Nat}

-- ================================================================= parts

/-- A list without a second page. -/
theorem aligned_of_short (h : M.length ≤ limit) : Aligned M key key' limit := by
  intro i hi
  have hpage : limit ≤ (i + 1) * limit :=
    Nat.le_mul_of_pos_left limit (Nat.succ_pos i)
  omega

/-- The parts of a list, one page at a time. -/
theorem aligned_iff (h : limit < M.length) :
    Aligned M key key' limit
      ↔ Parted key key' (M.take limit) (M.drop limit)
        ∧ Aligned (M.drop limit) key key' limit := by
  have hshift : ∀ i, (M.drop limit).drop (i * limit) = M.drop ((i + 1) * limit) := by
    intro i
    rw [List.drop_drop, Nat.add_mul, Nat.one_mul, Nat.add_comm]
  constructor
  · intro hM
    constructor
    · have hfirst := hM 0 (by rwa [Nat.zero_add, Nat.one_mul])
      rwa [Nat.zero_mul, List.drop_zero, Nat.zero_add, Nat.one_mul] at hfirst
    · intro i hi
      rw [hshift, hshift]
      refine hM (i + 1) ?_
      rw [List.length_drop] at hi
      rw [Nat.add_mul (i + 1), Nat.one_mul]
      omega
  · rintro ⟨hfirst, hrest⟩ i hi
    cases i with
    | zero =>
        rwa [Nat.zero_mul, List.drop_zero, Nat.zero_add, Nat.one_mul]
    | succ i =>
        rw [← hshift, ← hshift]
        refine hrest i ?_
        rw [Nat.add_mul (i + 1), Nat.one_mul] at hi
        rw [List.length_drop]
        omega

/-- A sorted list is aligned with itself. -/
theorem aligned_self (hlimit : 1 ≤ limit)
    (hL : L.Pairwise fun a b => key b < key a) : Aligned L key key limit := by
  intro i hi
  have hsplit : L.drop (i * limit)
      = (L.drop (i * limit)).take limit ++ L.drop ((i + 1) * limit) := by
    rw [Nat.add_mul, Nat.one_mul, ← List.drop_drop, List.take_append_drop]
  have hsorted := hL.sublist (List.drop_sublist (i * limit) L)
  rw [hsplit] at hsorted
  obtain ⟨hpage, -, hbehind⟩ := List.pairwise_append.mp hsorted
  refine ⟨hbehind, hbehind, ?_⟩
  rcases List.eq_nil_or_concat' ((L.drop (i * limit)).take limit) with
    hnil | ⟨xs, a, hxs⟩
  · have hlength := congrArg List.length hnil
    rw [Nat.add_mul, Nat.one_mul] at hi
    rw [List.length_take, List.length_drop, List.length_nil] at hlength
    omega
  · rw [hxs] at hpage ⊢
    refine ⟨a, by simp, ?_⟩
    intro a' ha'
    rcases List.mem_append.mp ha' with ha' | ha'
    · exact ((List.pairwise_append.mp hpage).2.2 a' ha' a
        (List.mem_singleton_self a)).le
    · rw [List.mem_singleton.mp ha']

/-- With the same keys in both queries every page is parted. -/
theorem aligned_of_eq (hlimit : 1 ≤ limit)
    (hL : L.Pairwise fun a b => key b < key a) (h : ∀ a ∈ L, key' a = key a) :
    Aligned L key key' limit := by
  intro i hi
  obtain ⟨hlater, -, a, ha, hcursor⟩ := aligned_self hlimit hL i hi
  have hpage : ∀ a ∈ (L.drop (i * limit)).take limit, key' a = key a :=
    fun a ha => h a (List.mem_of_mem_drop (List.mem_of_mem_take ha))
  have hbehind : ∀ b ∈ L.drop ((i + 1) * limit), key' b = key b :=
    fun b hb => h b (List.mem_of_mem_drop hb)
  refine ⟨?_, ?_, a, ha, ?_⟩
  · intro a ha b hb
    rw [hpage a ha]
    exact hlater a ha b hb
  · intro a ha b hb
    rw [hpage a ha, hbehind b hb]
    exact hlater a ha b hb
  · intro a' ha'
    rw [hpage a ha]
    exact hcursor a' ha'

-- ================================================================= pages

/-- A page shows rows from behind the cursor, which the second query
keeps. -/
theorem mem_rekeyedPage {c : Option α} {a : α}
    (h : a ∈ (rekeyedPage L key key' keep limit c).1) :
    a ∈ rest L (fun c a => key a < key' c) c ∧ keep a := by
  have hrow := mem_orderBy.mp (List.mem_of_mem_take h)
  obtain ⟨htaken, hkeep⟩ := List.mem_filter.mp hrow
  exact ⟨List.mem_of_mem_take htaken, hkeep⟩

/-- What comes after a cursor is part of the list. -/
theorem rest_sublist (key key' : α → γ) (c : Option α) :
    (rest L (fun c a => key a < key' c) c).Sublist L := by
  cases c with
  | none => exact List.Sublist.refl _
  | some c => exact List.filter_sublist

/-- The page when the second query keeps all rows. -/
theorem rekeyedPage_kept (hkeep : ∀ a ∈ L, keep a) {c : Option α}
    (hrest : rest L (fun c a => key a < key' c) c = M) :
    rekeyedPage L key key' keep limit c
      = ((orderBy key' (M.take (limit + 1))).take limit,
          if limit < M.length then
            ((orderBy key' (M.take (limit + 1))).take limit).getLast?
          else none) := by
  have hall : ∀ a ∈ M.take (limit + 1), keep a := by
    intro a ha
    refine hkeep a ((rest_sublist key key' c).subset ?_)
    rw [hrest]
    exact List.mem_of_mem_take ha
  have hmore : limit < (orderBy key' (M.take (limit + 1))).length
      ↔ limit < M.length := by
    rw [length_orderBy, List.length_take]
    omega
  rw [rekeyedPage, hrest, List.filter_eq_self.mpr hall]
  simp only [hmore]

/-- The only page. -/
theorem rekeyedPage_short (hkeep : ∀ a ∈ L, keep a) {c : Option α}
    (hrest : rest L (fun c a => key a < key' c) c = M)
    (h : M.length ≤ limit) :
    rekeyedPage L key key' keep limit c = (orderBy key' M, none) := by
  rw [rekeyedPage_kept hkeep hrest, if_neg (Nat.not_lt.mpr h),
    List.take_of_length_le (Nat.le_succ_of_le h), List.take_of_length_le]
  rwa [length_orderBy]

/-- A page with a cursor, which stands for its last row; behind it is the
row more. -/
theorem rekeyedPage_more (hkeep : ∀ a ∈ L, keep a) (hlimit : 1 ≤ limit)
    {c : Option α} (hrest : rest L (fun c a => key a < key' c) c = M)
    (h : limit < M.length) :
    ∃ xs m x, orderBy key' (M.take (limit + 1)) = xs ++ [m] ++ [x]
      ∧ xs.length + 1 = limit
      ∧ rekeyedPage L key key' keep limit c = (xs ++ [m], some m) := by
  have hlength : (orderBy key' (M.take (limit + 1))).length = limit + 1 := by
    rw [length_orderBy, List.length_take]
    omega
  rcases List.eq_nil_or_concat' (orderBy key' (M.take (limit + 1))) with
    hnil | ⟨ys, x, hys⟩
  · rw [hnil] at hlength
    cases hlength
  rcases List.eq_nil_or_concat' ys with rfl | ⟨xs, m, rfl⟩
  · rw [hys, List.length_append, List.length_singleton] at hlength
    simp at hlength
    omega
  · have hxs : xs.length + 1 = limit := by
      rw [hys] at hlength
      simpa using hlength
    have htake : (xs ++ [m] ++ [x]).take limit = xs ++ [m] := by
      rw [List.take_append_of_le_length (by simp [hxs]), List.take_of_length_le]
      rw [List.length_append, List.length_singleton, hxs]
    refine ⟨xs, m, x, hys, hxs, ?_⟩
    rw [rekeyedPage_kept hkeep hrest, if_pos h, hys, htake, List.getLast?_concat]

/-- The cursor is the smallest of its page. -/
theorem last_le {xs : List α} {m : α}
    (h : (xs ++ [m]).Pairwise fun a b : α => key' b < key' a) :
    ∀ a ∈ xs ++ [m], key' m ≤ key' a := by
  intro a ha
  rcases List.mem_append.mp ha with ha | ha
  · exact ((List.pairwise_append.mp h).2.2 a ha m
      (List.mem_singleton_self m)).le
  · rw [List.mem_singleton.mp ha]

-- ======================================================== aligned, so read

/-- The second query leaves a parted page together, and the row more
behind it. -/
theorem orderBy_take_of_parted (hkey' : (M.map key').Nodup)
    (h : limit < M.length)
    (hparted : Parted key key' (M.take limit) (M.drop limit)) :
    orderBy key' (M.take (limit + 1))
      = orderBy key' (M.take limit) ++ [M[limit]] := by
  have hsplit : M.take (limit + 1) = M.take limit ++ [M[limit]] :=
    List.take_succ_eq_append_getElem h
  have hnext : M[limit] ∈ M.drop limit := by
    rw [List.drop_eq_getElem_cons h]
    exact List.mem_cons_self
  refine (eq_orderBy ?_ ?_ ?_).symm
  · exact hkey'.sublist ((List.take_sublist _ M).map key')
  · rw [List.pairwise_append]
    refine ⟨orderBy_pairwise
      (hkey'.sublist ((List.take_sublist _ M).map key')),
      List.pairwise_singleton _ _, ?_⟩
    intro a ha b hb
    rw [List.mem_singleton.mp hb]
    exact hparted.after a (mem_orderBy.mp ha) _ hnext
  · intro a
    rw [hsplit, List.mem_append, List.mem_append, mem_orderBy]

/-- Behind the cursor of a parted page is what remains. -/
theorem rest_of_parted (hL : L.Pairwise fun a b => key b < key a)
    {A B : List α} (hM : A ++ B <:+ L) {m : α} (hm : m ∈ A)
    (hpage : ∀ a ∈ A, key' m ≤ key a) (hbehind : ∀ b ∈ B, key b < key' m) :
    rest L (fun c a => key a < key' c) (some m) = B := by
  obtain ⟨before, rfl⟩ := hM
  have hbefore : (before.filter fun a => key a < key' m) = [] := by
    refine List.filter_eq_nil_iff.mpr ?_
    intro a ha
    have hlt := (List.pairwise_append.mp hL).2.2 a ha m
      (List.mem_append_left B hm)
    simpa using (hpage m hm).trans hlt.le
  have hA : (A.filter fun a => key a < key' m) = [] := by
    refine List.filter_eq_nil_iff.mpr ?_
    intro a ha
    simpa using hpage a ha
  have hB : (B.filter fun a => key a < key' m) = B := by
    refine List.filter_eq_self.mpr ?_
    intro b hb
    simpa using hbehind b hb
  rw [rest, List.filter_append, List.filter_append, hbefore, hA, hB,
    List.nil_append, List.nil_append]

/-- From any place on, pages whose keys agree at the boundaries read all that
is left. -/
theorem follow_rekeyedPage_from (hkeep : ∀ a ∈ L, keep a)
    (hL : L.Pairwise fun a b => key b < key a) (hkey' : (L.map key').Nodup)
    (hlimit : 1 ≤ limit) {fuel : Nat} :
    ∀ {c : Option α} {M : List α},
      rest L (fun c a => key a < key' c) c = M → M <:+ L →
      Aligned M key key' limit → M.length < fuel →
      ∃ pages, follow (rekeyedPage L key key' keep limit) fuel c = some pages
        ∧ Reads M key' limit pages
        ∧ (M ≠ [] → ∀ rows ∈ pages, rows ≠ []) := by
  induction fuel with
  | zero =>
      intro c M _ _ _ hfuel
      exact absurd hfuel (Nat.not_lt_zero _)
  | succ fuel ih =>
      intro c M hrest hM haligned hfuel
      have hnodup : (M.map key').Nodup := hkey'.sublist (hM.sublist.map key')
      by_cases hshort : M.length ≤ limit
      · have hflat : [orderBy key' M].flatten = orderBy key' M := by
          rw [List.flatten_cons, List.flatten_nil, List.append_nil]
        refine ⟨[orderBy key' M], ?_, ⟨?_, ?_, ?_⟩, ?_⟩
        · rw [follow, rekeyedPage_short hkeep hrest hshort]
        · rw [hflat]
          exact orderBy_pairwise hnodup
        · intro a
          rw [hflat, mem_orderBy]
        · intro rows hrows
          cases hrows
        · intro hne rows hrows hnil
          rw [List.mem_singleton.mp hrows] at hnil
          have hlength : (orderBy key' M).length = M.length := length_orderBy
          rw [hnil] at hlength
          exact hne (List.eq_nil_of_length_eq_zero hlength.symm)
      have hmore := Nat.not_le.mp hshort
      obtain ⟨hparted, hbehind⟩ := (aligned_iff hmore).mp haligned
      obtain ⟨xs, m, x, hrows, hxs, hpage⟩ :=
        rekeyedPage_more hkeep hlimit hrest hmore
      have hfirst : xs ++ [m] = orderBy key' (M.take limit) := by
        rw [orderBy_take_of_parted hnodup hmore hparted] at hrows
        exact (List.append_inj_left' hrows rfl).symm
      have hsorted : (xs ++ [m]).Pairwise fun a b => key' b < key' a := by
        rw [hfirst]
        exact orderBy_pairwise
          (hnodup.sublist ((List.take_sublist _ M).map key'))
      have hmem : ∀ a, a ∈ xs ++ [m] ↔ a ∈ M.take limit := by
        intro a
        rw [hfirst, mem_orderBy]
      have hm := (hmem m).mp (List.mem_append_right xs List.mem_cons_self)
      obtain ⟨a, ha, hcursor⟩ := hparted.cursor
      have hnext : rest L (fun c a => key a < key' c) (some m)
          = M.drop limit := by
        refine rest_of_parted hL ?_ hm ?_ (hparted.later m hm)
        · rwa [List.take_append_drop]
        · intro a' ha'
          exact (last_le hsorted a ((hmem a).mpr ha)).trans (hcursor a' ha')
      have hless : (M.drop limit).length < fuel := by
        rw [List.length_drop]
        omega
      obtain ⟨pages, hpages, hreads, hne⟩ :=
        ih hnext ((List.drop_suffix limit M).trans hM) hbehind hless
      refine ⟨(xs ++ [m]) :: pages, ?_, ⟨?_, ?_, ?_⟩, ?_⟩
      · rw [follow, hpage]
        show Option.map _ (follow _ fuel (some m)) = _
        rw [hpages]
        rfl
      · rw [List.flatten_cons, List.pairwise_append]
        refine ⟨hsorted, hreads.ordered, ?_⟩
        intro a ha b hb
        exact hparted.after a ((hmem a).mp ha) b ((hreads.complete b).mp hb)
      · intro a
        rw [List.flatten_cons, List.mem_append, hreads.complete, hmem,
          ← List.mem_append, List.take_append_drop]
      · intro rows hrows
        cases pages with
        | nil => cases hrows
        | cons p pages =>
            rw [List.dropLast_cons_cons] at hrows
            rcases List.mem_cons.mp hrows with rfl | hrows
            · rw [List.length_append, List.length_singleton]
              exact hxs
            · exact hreads.full rows hrows
      · intro _ rows hrows
        rcases List.mem_cons.mp hrows with rfl | hrows
        · exact List.append_ne_nil_of_right_ne_nil xs (List.cons_ne_nil m [])
        · refine hne ?_ rows hrows
          exact List.ne_nil_of_length_pos (by rw [List.length_drop]; omega)

/-- Where every page is parted from what is behind it, the reading ends
and lists the rows in the order of the second query, no page empty unless
the list is. -/
theorem follow_rekeyedPage (hkeep : ∀ a ∈ L, keep a)
    (hL : L.Pairwise fun a b => key b < key a) (hkey' : (L.map key').Nodup)
    (hlimit : 1 ≤ limit) (haligned : Aligned L key key' limit) {fuel : Nat}
    (hfuel : L.length < fuel) :
    ∃ pages, follow (rekeyedPage L key key' keep limit) fuel none = some pages
      ∧ Reads L key' limit pages
      ∧ (L ≠ [] → ∀ rows ∈ pages, rows ≠ []) :=
  follow_rekeyedPage_from hkeep hL hkey' hlimit rfl (List.suffix_refl L)
    haligned hfuel

-- ========================================================= read, so aligned

/-- The cursor of a page is a row of it. -/
theorem cursor_mem {c : Option α} {m : α}
    (h : (rekeyedPage L key key' keep limit c).2 = some m) :
    m ∈ (rekeyedPage L key key' keep limit c).1 :=
  List.mem_of_getLast? (Option.ite_none_right_eq_some.mp h).2

/-- All that a reading shows behind a cursor comes after the cursor. -/
theorem key_lt_of_follow {fuel : Nat} :
    ∀ {m : α} {pages : List (List α)},
      follow (rekeyedPage L key key' keep limit) fuel (some m) = some pages →
      (pages.flatten.Pairwise fun a b => key' b < key' a) →
      (∀ a ∈ pages.flatten, key' a < key' m) →
      ∀ a ∈ pages.flatten, key a < key' m := by
  induction fuel with
  | zero =>
      intro m pages h
      cases h
  | succ fuel ih =>
      intro m pages h hsorted hbehind a ha
      have hpage : ∀ a ∈ (rekeyedPage L key key' keep limit (some m)).1,
          key a < key' m := by
        intro a ha
        have hrow := (mem_rekeyedPage ha).1
        rw [rest, List.mem_filter] at hrow
        exact of_decide_eq_true hrow.2
      rcases follow_cases h with ⟨-, rfl⟩ | ⟨fuel', next, tail, hfuel, hnext, htail, rfl⟩
      · rw [List.flatten_cons, List.flatten_nil, List.append_nil] at ha
        exact hpage a ha
      · cases hfuel
        rw [List.flatten_cons] at hsorted hbehind ha
        obtain ⟨-, hrest, hcross⟩ := List.pairwise_append.mp hsorted
        rcases List.mem_append.mp ha with ha | ha
        · exact hpage a ha
        · have hlt := ih htail hrest (hcross next (cursor_mem hnext)) a ha
          exact hlt.trans (hbehind next
            (List.mem_append_left _ (cursor_mem hnext)))

/-- A row that the next page takes is shown there, or is the row more and
sorts behind that page: it was not shown before. -/
theorem not_taken_again (hkeep : ∀ a ∈ L, keep a) (hkey' : (L.map key').Nodup)
    (hlimit : 1 ≤ limit) {fuel : Nat} {c : Option α} {pages : List (List α)}
    (h : follow (rekeyedPage L key key' keep limit) fuel c = some pages)
    {a : α}
    (ha : a ∈ (rest L (fun c a => key a < key' c) c).take (limit + 1))
    (hbefore : ∀ r ∈ pages.flatten, key' r < key' a) : False := by
  have hpage : ∀ r ∈ (rekeyedPage L key key' keep limit c).1,
      key' r < key' a := by
    intro r hr
    refine hbefore r ?_
    rcases follow_cases h with ⟨-, rfl⟩ | ⟨_, _, tail, -, -, -, rfl⟩
    · rw [List.flatten_cons]
      exact List.mem_append_left _ hr
    · rw [List.flatten_cons]
      exact List.mem_append_left _ hr
  have htaken : a ∈ orderBy key'
      ((rest L (fun c a => key a < key' c) c).take (limit + 1)) :=
    mem_orderBy.mpr ha
  by_cases hshort : (rest L (fun c a => key a < key' c) c).length ≤ limit
  · rw [rekeyedPage_short hkeep rfl hshort] at hpage
    rw [List.take_of_length_le (Nat.le_succ_of_le hshort)] at htaken
    exact lt_irrefl _ (hpage a htaken)
  · obtain ⟨xs, m, x, hrows, -, hfirst⟩ :=
      rekeyedPage_more hkeep hlimit rfl (Nat.not_le.mp hshort)
    rw [hfirst] at hpage
    rw [hrows] at htaken
    rcases List.mem_append.mp htaken with htaken | htaken
    · exact lt_irrefl _ (hpage a htaken)
    · have hsorted : (xs ++ [m] ++ [x]).Pairwise
          fun a b => key' b < key' a := by
        rw [← hrows]
        exact orderBy_pairwise (hkey'.sublist
          (((List.take_sublist _ _).trans (rest_sublist key key' c)).map key'))
      have hm : m ∈ xs ++ [m] := List.mem_append_right xs List.mem_cons_self
      have hlt := (List.pairwise_append.mp hsorted).2.2 m hm a htaken
      exact hlt.asymm (hpage m hm)

/-- Rows in strictly descending order are distinct. -/
theorem nodup_of_descending {M : List α}
    (h : M.Pairwise fun a b => key b < key a) : M.Nodup := by
  refine h.imp ?_
  intro a b hab heq
  rw [heq] at hab
  exact lt_irrefl _ hab

/-- What is left of `M` when `m` becomes the cursor, where `M` was asked for
with a cursor in front of `m`. -/
theorem rest_next {c : Option α} {M : List α} {m : α}
    (hrest : rest L (fun c a => key a < key' c) c = M)
    (hm : ∀ b, c = some b → key' m < key' b) :
    rest L (fun c a => key a < key' c) (some m)
      = M.filter fun a => key a < key' m := by
  cases c with
  | none =>
      rw [← hrest]
      rfl
  | some b =>
      rw [← hrest, rest, rest, List.filter_filter]
      refine List.filter_congr ?_
      intro a _
      have hiff : (key a < key' m ∧ key a < key' b) ↔ key a < key' m :=
        ⟨And.left, fun hlt => ⟨hlt, hlt.trans (hm b rfl)⟩⟩
      simp only [← Bool.decide_and, hiff]

/-- A list whose rows with `p` are a last part of it, and a page of the
others, each once: the page is the first part, in some order. -/
theorem cut_of_page {M shown : List α} {p : α → Prop} [DecidablePred p]
    (hM : M.Nodup) (hsuffix : (M.filter fun a => p a) <:+ M)
    (hshown : shown.Nodup) (hmem : ∀ a, a ∈ shown ↔ a ∈ M ∧ ¬ p a) :
    (∀ a, a ∈ M.take shown.length ↔ a ∈ shown)
      ∧ M.drop shown.length = M.filter fun a => p a := by
  obtain ⟨Q, hQ⟩ := hsuffix
  have hapart := hM
  rw [← hQ] at hapart
  obtain ⟨hnodup, -, hdisjoint⟩ := List.nodup_append.mp hapart
  have hQmem : ∀ a, a ∈ Q ↔ a ∈ shown := by
    intro a
    rw [hmem]
    constructor
    · intro ha
      have haM : a ∈ M := by
        rw [← hQ]
        exact List.mem_append_left _ ha
      refine ⟨haM, fun hp => hdisjoint a ha a ?_ rfl⟩
      exact List.mem_filter.mpr ⟨haM, decide_eq_true hp⟩
    · rintro ⟨haM, hp⟩
      rw [← hQ] at haM
      rcases List.mem_append.mp haM with hin | hin
      · exact hin
      · exact absurd (of_decide_eq_true (List.mem_filter.mp hin).2) hp
  have hlength : Q.length = shown.length :=
    ((List.perm_ext_iff_of_nodup hnodup hshown).mpr hQmem).length_eq
  have htake : M.take shown.length = Q := by
    conv_lhs => rw [← hQ]
    exact List.take_left' hlength
  have hdrop : M.drop shown.length = M.filter fun a => p a := by
    conv_lhs => rw [← hQ]
    exact List.drop_left' hlength
  rw [htake]
  exact ⟨hQmem, hdrop⟩

/-- And if all that is left is read in order, the keys agree at the
boundaries. -/
theorem aligned_of_follow (hkeep : ∀ a ∈ L, keep a)
    (hL : L.Pairwise fun a b => key b < key a) (hkey' : (L.map key').Nodup)
    (hlimit : 1 ≤ limit) {fuel : Nat} :
    ∀ {c : Option α} {M : List α} {pages : List (List α)},
      rest L (fun c a => key a < key' c) c = M → M <:+ L →
      follow (rekeyedPage L key key' keep limit) fuel c = some pages →
      (pages.flatten.Pairwise fun a b => key' b < key' a) →
      (∀ a ∈ M, a ∈ pages.flatten) →
      (∀ b, c = some b → ∀ a ∈ pages.flatten, key' a < key' b) →
      Aligned M key key' limit := by
  induction fuel with
  | zero =>
      intro c M pages _ _ h
      cases h
  | succ fuel ih =>
      intro c M pages hrest hM h hsorted hshown hbehind
      by_cases hshort : M.length ≤ limit
      · exact aligned_of_short hshort
      have hmore := Nat.not_le.mp hshort
      obtain ⟨xs, m, x, hrows, hxs, hpage⟩ :=
        rekeyedPage_more hkeep hlimit hrest hmore
      rcases follow_cases h with ⟨hnone, -⟩ | ⟨fuel', next, tail, hfuel, hnext, htail, hpages⟩
      · rw [hpage] at hnone
        cases hnone
      cases hfuel
      rw [hpage] at hnext hpages
      cases hnext
      subst hpages
      rw [List.flatten_cons] at hsorted hshown hbehind
      obtain ⟨hpageSorted, htailSorted, hcross⟩ :=
        List.pairwise_append.mp hsorted
      have hm : m ∈ xs ++ [m] := List.mem_append_right xs List.mem_cons_self
      have htailKey := key_lt_of_follow htail htailSorted (hcross m hm)
      have hMsorted := hL.sublist hM.sublist
      have hMnodup : M.Nodup := nodup_of_descending hMsorted
      -- what the next request asks for is a last part of `M`
      have hnextRest := rest_next hrest
        (fun b hb => hbehind b hb m (List.mem_append_left _ hm))
      have hsuffix : (M.filter fun a => key a < key' m) <:+ M :=
        filter_after_suffix (hMsorted.imp fun hab _ ha => hab.trans ha) m
      have hpageTaken : ∀ a ∈ xs ++ [m], a ∈ M.take (limit + 1) := by
        intro a ha
        have hrow : a ∈ orderBy key' (M.take (limit + 1)) := by
          rw [hrows]
          exact List.mem_append_left _ ha
        exact mem_orderBy.mp hrow
      -- no row of the page is in it
      have hfirst : ∀ a ∈ xs ++ [m], key' m ≤ key a := by
        intro a ha
        by_contra hlt
        have htaken := hpageTaken a ha
        refine not_taken_again hkeep hkey' hlimit htail (a := a) ?_
          (hcross a ha)
        rw [hnextRest]
        refine mem_take_of_suffix hMnodup hsuffix htaken ?_
        rw [List.mem_filter]
        exact ⟨List.mem_of_mem_take htaken,
          decide_eq_true (not_le.mp hlt)⟩
      have hpageMem : ∀ a, a ∈ xs ++ [m] ↔ a ∈ M ∧ ¬ key a < key' m := by
        intro a
        constructor
        · intro ha
          exact ⟨List.mem_of_mem_take (hpageTaken a ha),
            not_lt.mpr (hfirst a ha)⟩
        · rintro ⟨haM, hnot⟩
          rcases List.mem_append.mp (hshown a haM) with hin | hin
          · exact hin
          · exact absurd (htailKey a hin) hnot
      have hlength : (xs ++ [m]).length = limit := by
        rw [List.length_append, List.length_singleton, hxs]
      obtain ⟨htake, hdrop⟩ := cut_of_page hMnodup hsuffix
        (nodup_of_descending hpageSorted) hpageMem
      rw [hlength] at htake hdrop
      have hbehindKey : ∀ b ∈ M.drop limit, key b < key' m := by
        intro b hb
        rw [hdrop] at hb
        exact of_decide_eq_true (List.mem_filter.mp hb).2
      have hbehindShown : ∀ b ∈ M.drop limit, b ∈ tail.flatten := by
        intro b hb
        rcases List.mem_append.mp (hshown b (List.mem_of_mem_drop hb))
          with hin | hin
        · exact absurd (hbehindKey b hb) (not_lt.mpr (hfirst b hin))
        · exact hin
      refine (aligned_iff hmore).mpr ⟨⟨?_, ?_, ?_⟩, ?_⟩
      · intro a ha b hb
        exact (hbehindKey b hb).trans_le
          (last_le hpageSorted a ((htake a).mp ha))
      · intro a ha b hb
        exact hcross a ((htake a).mp ha) b (hbehindShown b hb)
      · refine ⟨m, (htake m).mpr hm, ?_⟩
        intro a' ha'
        exact hfirst a' ((htake a').mp ha')
      · refine ih (hnextRest.trans hdrop.symm)
          ((List.drop_suffix limit M).trans hM) htail htailSorted
          hbehindShown ?_
        intro b hb
        cases hb
        exact hcross m hm

/-- A reading that lists the rows, in whatever number of requests, loses
none in the second query and cuts the list into parted pages. -/
theorem Reads.aligned {pages : List (List α)} (hreads : Reads L key' limit pages)
    (hL : L.Pairwise fun a b => key b < key a) (hkey' : (L.map key').Nodup)
    (hlimit : 1 ≤ limit) {fuel : Nat}
    (h : follow (rekeyedPage L key key' keep limit) fuel none = some pages) :
    (∀ a ∈ L, keep a) ∧ Aligned L key key' limit := by
  have hkeep : ∀ a ∈ L, keep a := by
    intro a ha
    obtain ⟨rows, hrows, hmem⟩ := List.mem_flatten.mp ((hreads.complete a).mpr ha)
    exact follow_forall (P := fun rows => ∀ a ∈ rows, keep a)
      (fun _ _ ha => (mem_rekeyedPage ha).2) h rows hrows a hmem
  refine ⟨hkeep, aligned_of_follow hkeep hL hkey' hlimit rfl
    (List.suffix_refl L) h hreads.ordered
    (fun a ha => (hreads.complete a).mpr ha) nofun⟩

end Keyset
