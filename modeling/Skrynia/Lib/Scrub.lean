/-
Rewriting nested values for a log, down to a depth.

`walk` goes through arrays and objects. It rewrites every string, asks of
every member whether something else is to stand in its place, and puts a
text in the place of an array or an object beyond the depth that it goes
to.

# What the rewritten value depends on

`AlikeBut may` relates values that differ only under members, and there
only as `may` says. Where the rules give the two one member the rewritten
values are equal (`walk_eq_of_alikeBut`). A value that is already
rewritten stays (`walk_walk`), and what no rule touches is kept at its
place (`at_walk`, `walk_of_untouched`).
-/
import Skrynia.Lib.JsTree

universe u

open Utf16

/-- How values are rewritten: strings, members by name and value, and
what is nested deeper than `limit`. -/
structure Scrub (P : Type u) where
  limit : Nat
  truncated : JsString
  onString : JsString → JsString
  onMember : JsString → JsTree P → Option (JsTree P)

namespace Scrub

variable {P : Type u}

section Walk

variable (rules : Scrub P)

mutual

/-- A value, rewritten from a depth on. -/
def walk : Nat → JsTree P → JsTree P
  | _, .prim p => .prim p
  | _, .str s => .str (rules.onString s)
  | depth, .arr items =>
      if rules.limit < depth then .str rules.truncated
      else .arr (walkItems (depth + 1) items)
  | depth, .obj members =>
      if rules.limit < depth then .str rules.truncated
      else .obj (walkMembers (depth + 1) members)

/-- The items of an array, rewritten. -/
def walkItems : Nat → List (JsTree P) → List (JsTree P)
  | _, [] => []
  | depth, v :: items => walk depth v :: walkItems depth items

/-- The members of an object, rewritten or replaced. -/
def walkMembers : Nat → List (JsString × JsTree P) → List (JsString × JsTree P)
  | _, [] => []
  | depth, (k, v) :: members =>
      (k, (rules.onMember k v).getD (walk depth v)) :: walkMembers depth members

end

end Walk

variable {rules : Scrub P} {depth : Nat} {v v' x : JsTree P} {k : JsString}
  {items : List (JsTree P)} {members : List (JsString × JsTree P)}

/-- What stands in a member's place. -/
def member (rules : Scrub P) (depth : Nat) (k : JsString) (v : JsTree P) : JsTree P :=
  (rules.onMember k v).getD (rules.walk depth v)

/-- Items are rewritten one by one. -/
theorem walkItems_eq : rules.walkItems depth items = items.map (rules.walk depth) := by
  induction items with
  | nil => rfl
  | cons v items ih => rw [walkItems, ih, List.map_cons]

/-- So are members. -/
theorem walkMembers_eq : rules.walkMembers depth members
    = members.map fun m => (m.1, rules.member depth m.1 m.2) := by
  induction members with
  | nil => rfl
  | cons m members ih =>
      rw [walkMembers, ih, List.map_cons]
      rfl

/-- An array within the depth. -/
theorem walk_arr (h : depth ≤ rules.limit) :
    rules.walk depth (.arr items) = .arr (items.map (rules.walk (depth + 1))) := by
  rw [walk, if_neg (by omega), walkItems_eq]

/-- An object within the depth. -/
theorem walk_obj (h : depth ≤ rules.limit) :
    rules.walk depth (.obj members)
      = .obj (members.map fun m => (m.1, rules.member (depth + 1) m.1 m.2)) := by
  rw [walk, if_neg (by omega), walkMembers_eq]

/-- An array beyond it. -/
theorem walk_arr_deep (h : ¬ depth ≤ rules.limit) :
    rules.walk depth (.arr items) = .str rules.truncated := by
  rw [walk, if_pos (by omega)]

/-- An object beyond it. -/
theorem walk_obj_deep (h : ¬ depth ≤ rules.limit) :
    rules.walk depth (.obj members) = .str rules.truncated := by
  rw [walk, if_pos (by omega)]

-- ============================================================ alike values

mutual

/-- Equal but for members, which may differ as `may` says. -/
inductive AlikeBut (may : JsString → JsTree P → JsTree P → Prop) :
    JsTree P → JsTree P → Prop where
  | prim (p : P) : AlikeBut may (.prim p) (.prim p)
  | str (s : JsString) : AlikeBut may (.str s) (.str s)
  | arr {l l' : List (JsTree P)} (h : List.Forall₂ (AlikeBut may) l l') :
      AlikeBut may (.arr l) (.arr l')
  | obj {m m' : List (JsString × JsTree P)}
      (h : List.Forall₂ (AlikeMember may) m m') : AlikeBut may (.obj m) (.obj m')

/-- Members of one key that may differ, or have alike values. -/
inductive AlikeMember (may : JsString → JsTree P → JsTree P → Prop) :
    JsString × JsTree P → JsString × JsTree P → Prop where
  | differ {k : JsString} {v v' : JsTree P} (h : may k v v') :
      AlikeMember may (k, v) (k, v')
  | alike {k : JsString} {v v' : JsTree P} (h : AlikeBut may v v') :
      AlikeMember may (k, v) (k, v')

end

/-- The rules give members that may differ one value, and do not look
into a value. -/
structure Blind (rules : Scrub P) (may : JsString → JsTree P → JsTree P → Prop) :
    Prop where
  differ : ∀ {k v v'}, may k v v' →
    ∃ w, rules.onMember k v = some w ∧ rules.onMember k v' = some w
  alike : ∀ {v v'}, AlikeBut may v v' → ∀ k, rules.onMember k v = rules.onMember k v'

variable {may : JsString → JsTree P → JsTree P → Prop}

/-- Where members may differ the rules see no difference. -/
theorem Blind.member_eq (hblind : rules.Blind may) (h : may k v v') :
    rules.member depth k v = rules.member depth k v' := by
  obtain ⟨w, hw, hw'⟩ := hblind.differ h
  rw [member, member, hw, hw']
  rfl

/-- Values that differ only where the rules do not look are rewritten to
one value. -/
theorem walk_eq_of_alikeBut (hblind : rules.Blind may) (v : JsTree P) :
    ∀ v' depth, AlikeBut may v v' → rules.walk depth v = rules.walk depth v' := by
  induction v using JsTree.induct with
  | prim p =>
      intro v' depth h
      cases h
      rfl
  | str s =>
      intro v' depth h
      cases h
      rfl
  | arr items ih =>
      intro v' depth h
      cases h with
      | arr h =>
          by_cases hdepth : depth ≤ rules.limit
          · rw [walk_arr hdepth, walk_arr hdepth]
            refine congrArg JsTree.arr (Json.map_eq_of_forall₂ (Json.forall₂_imp_mem h ?_))
            intro a ha b _ hab
            exact ih a ha b (depth + 1) hab
          · rw [walk_arr_deep hdepth, walk_arr_deep hdepth]
  | obj members ih =>
      intro v' depth h
      cases h with
      | obj h =>
          by_cases hdepth : depth ≤ rules.limit
          · rw [walk_obj hdepth, walk_obj hdepth]
            refine congrArg JsTree.obj (Json.map_eq_of_forall₂ (Json.forall₂_imp_mem h ?_))
            intro a ha b _ hab
            cases hab with
            | differ hmay => rw [hblind.member_eq hmay]
            | alike hab =>
                rw [member, member, hblind.alike hab, ih _ ha _ (depth + 1) hab]
          · rw [walk_obj_deep hdepth, walk_obj_deep hdepth]

/-- Members that are alike become one. -/
theorem Blind.pair_eq (hblind : rules.Blind may) {a b : JsString × JsTree P}
    (h : AlikeMember may a b) (depth : Nat) :
    (a.1, rules.member depth a.1 a.2) = (b.1, rules.member depth b.1 b.2) := by
  cases h with
  | differ hmay => rw [hblind.member_eq hmay]
  | alike h => rw [member, member, hblind.alike h, walk_eq_of_alikeBut hblind _ _ depth h]

/-- Alike members are rewritten to one list. -/
theorem walkMembers_eq_of_alike (hblind : rules.Blind may)
    {members members' : List (JsString × JsTree P)}
    (h : List.Forall₂ (AlikeMember may) members members') (depth : Nat) :
    rules.walkMembers depth members = rules.walkMembers depth members' := by
  rw [walkMembers_eq, walkMembers_eq]
  exact Json.map_eq_of_forall₂ (h.imp fun a b hab => hblind.pair_eq hab depth)

-- ======================================================== rewritten values

/-- What the rules make, they leave as it is. -/
structure Settles (rules : Scrub P) : Prop where
  onString : ∀ s, rules.onString (rules.onString s) = rules.onString s
  truncated : rules.onString rules.truncated = rules.truncated
  put : ∀ {k v w}, rules.onMember k v = some w → rules.onMember k w = some w
  passed : ∀ {k v}, rules.onMember k v = none →
    ∀ depth, rules.onMember k (rules.walk depth v) = none

/-- A rewritten value is not rewritten again. -/
theorem walk_walk (h : rules.Settles) (v : JsTree P) :
    ∀ depth, rules.walk depth (rules.walk depth v) = rules.walk depth v := by
  induction v using JsTree.induct with
  | prim p =>
      intro depth
      rfl
  | str s =>
      intro depth
      rw [walk, walk, h.onString]
  | arr items ih =>
      intro depth
      by_cases hdepth : depth ≤ rules.limit
      · rw [walk_arr hdepth, walk_arr hdepth, List.map_map]
        refine congrArg JsTree.arr (List.map_congr_left fun v hv => ?_)
        exact ih v hv (depth + 1)
      · rw [walk_arr_deep hdepth, walk, h.truncated]
  | obj members ih =>
      intro depth
      by_cases hdepth : depth ≤ rules.limit
      · rw [walk_obj hdepth, walk_obj hdepth, List.map_map]
        refine congrArg JsTree.obj (List.map_congr_left fun m hm => ?_)
        refine Prod.ext rfl ?_
        simp only [Function.comp_apply, member]
        cases hput : rules.onMember m.1 m.2 with
        | some w =>
            rw [Option.getD_some, h.put hput]
            rfl
        | none =>
            rw [Option.getD_none, h.passed hput]
            exact ih m hm (depth + 1)
      · rw [walk_obj_deep hdepth, walk, h.truncated]

-- ============================================================= kept values

/-- A step from a value to one in it. -/
inductive Step where
  | key (k : JsString)
  | index (i : Nat)

/-- What is at one step inside a value. -/
def child : JsTree P → Step → Option (JsTree P)
  | .obj members, .key k => members.lookup k
  | .arr items, .index i => items[i]?
  | _, _ => none

/-- The value at a place, by the steps that lead to it. -/
def valueAt : JsTree P → List Step → Option (JsTree P)
  | v, [] => some v
  | v, step :: path => (child v step).bind fun w => valueAt w path

/-- A place that is under no member the rules put something for. -/
def Passes (rules : Scrub P) (path : List Step) : Prop :=
  ∀ k, Step.key k ∈ path → ∀ v, rules.onMember k v = none

/-- The value at such a place stays there, rewritten on its own, if every
array and object that it is in is within the limit. -/
theorem valueAt_walk {path : List Step} (hpath : rules.Passes path)
    (hdepth : depth + path.length ≤ rules.limit + 1) (hx : valueAt v path = some x) :
    valueAt (rules.walk depth v) path = some (rules.walk (depth + path.length) x) := by
  induction path generalizing depth v with
  | nil =>
      cases hx
      rfl
  | cons step path ih =>
      obtain ⟨w, hw, hx⟩ := Option.bind_eq_some_iff.mp hx
      rw [List.length_cons] at hdepth
      have hlimit : depth ≤ rules.limit := by omega
      have htail : valueAt (rules.walk (depth + 1) w) path
          = some (rules.walk (depth + 1 + path.length) x) :=
        ih (fun k hk => hpath k (List.mem_cons_of_mem _ hk)) (by omega) hx
      have hlength : depth + (path.length + 1) = depth + 1 + path.length := by omega
      rw [List.length_cons, hlength, valueAt, ← htail]
      suffices hchild : child (rules.walk depth v) step = some (rules.walk (depth + 1) w) by
        rw [hchild, Option.bind_some]
      cases v with
      | prim p => cases hw
      | str s => cases hw
      | arr items =>
          cases step with
          | key k => cases hw
          | index i =>
              rw [walk_arr hlimit, child, List.getElem?_map]
              exact congrArg (Option.map _) hw
      | obj members =>
          cases step with
          | index i => cases hw
          | key k =>
              have hkey := hpath k List.mem_cons_self
              rw [walk_obj hlimit, child, JsTree.lookup_map]
              have hw : members.lookup k = some w := hw
              rw [hw, Option.map_some, member, hkey, Option.getD_none]

/-- No rule touches the value or anything in it. -/
inductive Untouched (rules : Scrub P) : Nat → JsTree P → Prop where
  | prim {depth : Nat} (p : P) : Untouched rules depth (.prim p)
  | str {depth : Nat} {s : JsString} (h : rules.onString s = s) :
      Untouched rules depth (.str s)
  | arr {depth : Nat} {items : List (JsTree P)} (hdepth : depth ≤ rules.limit)
      (h : ∀ v ∈ items, Untouched rules (depth + 1) v) :
      Untouched rules depth (.arr items)
  | obj {depth : Nat} {members : List (JsString × JsTree P)}
      (hdepth : depth ≤ rules.limit)
      (hput : ∀ m ∈ members, rules.onMember m.1 m.2 = none)
      (h : ∀ m ∈ members, Untouched rules (depth + 1) m.2) :
      Untouched rules depth (.obj members)

/-- What no rule touches stays. -/
theorem walk_of_untouched (v : JsTree P) :
    ∀ depth, rules.Untouched depth v → rules.walk depth v = v := by
  induction v using JsTree.induct with
  | prim p =>
      intro depth h
      rfl
  | str s =>
      intro depth h
      cases h with
      | str h => rw [walk, h]
  | arr items ih =>
      intro depth h
      cases h with
      | arr hdepth h =>
          rw [walk_arr hdepth]
          refine congrArg JsTree.arr ((List.map_congr_left ?_).trans (List.map_id _))
          intro v hv
          exact ih v hv (depth + 1) (h v hv)
  | obj members ih =>
      intro depth h
      cases h with
      | obj hdepth hput h =>
          rw [walk_obj hdepth]
          refine congrArg JsTree.obj ((List.map_congr_left ?_).trans (List.map_id _))
          intro m hm
          refine Prod.ext rfl ?_
          simp only [member]
          rw [hput m hm, Option.getD_none]
          exact ih m hm (depth + 1) (h m hm)

end Scrub
