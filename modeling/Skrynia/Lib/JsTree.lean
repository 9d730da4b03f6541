/-
Nested JavaScript values: strings, arrays, and objects by their own
properties in order, over any type of other primitive values.

`Same` is equality up to the order of properties at any depth. An object
has one property of a name; `Distinct` says so of every object in a
value. Proofs go by `induct`, over the items and members of a value by
membership.
-/
import Skrynia.Lib.Utf16

universe u

open Utf16

/-- A value: a primitive one, a string, an array or an object. -/
inductive JsTree (P : Type u) where
  | prim (p : P)
  | str (s : JsString)
  | arr (items : List (JsTree P))
  | obj (members : List (JsString × JsTree P))

namespace JsTree

variable {P : Type u}

mutual

/-- Equal up to the order of object members. -/
inductive Same : JsTree P → JsTree P → Prop where
  | prim (p : P) : Same (.prim p) (.prim p)
  | str (s : JsString) : Same (.str s) (.str s)
  | arr {l l' : List (JsTree P)} (h : List.Forall₂ Same l l') :
      Same (.arr l) (.arr l')
  | obj {m p m' : List (JsString × JsTree P)} (hp : m.Perm p)
      (h : List.Forall₂ SameMember p m') : Same (.obj m) (.obj m')

/-- Members of one name, equal up to order within. -/
inductive SameMember : JsString × JsTree P → JsString × JsTree P → Prop where
  | mk {k : JsString} {v v' : JsTree P} (h : Same v v') : SameMember (k, v) (k, v')

end

/-- No object has two properties of one name. -/
inductive Distinct : JsTree P → Prop where
  | prim (p : P) : Distinct (.prim p)
  | str (s : JsString) : Distinct (.str s)
  | arr {items : List (JsTree P)} (h : ∀ v ∈ items, Distinct v) :
      Distinct (.arr items)
  | obj {members : List (JsString × JsTree P)}
      (hnodup : (members.map Prod.fst).Nodup) (h : ∀ m ∈ members, Distinct m.2) :
      Distinct (.obj members)

/-- Induction over the values, items and members by membership. -/
theorem induct {motive : JsTree P → Prop} (prim : ∀ p, motive (.prim p))
    (str : ∀ s, motive (.str s))
    (arr : ∀ items, (∀ v ∈ items, motive v) → motive (.arr items))
    (obj : ∀ members, (∀ m ∈ members, motive m.2) → motive (.obj members)) :
    ∀ v, motive v := by
  refine @JsTree.rec P motive (fun items => ∀ v ∈ items, motive v)
    (fun members => ∀ m ∈ members, motive m.2) (fun m => motive m.2)
    prim str arr obj ?_ ?_ ?_ ?_ ?_
  · intro v hv
    cases hv
  · intro v items hv hitems w hw
    rcases List.mem_cons.mp hw with rfl | hw
    · exact hv
    · exact hitems w hw
  · intro m hm
    cases hm
  · intro m members hm hmembers w hw
    rcases List.mem_cons.mp hw with rfl | hw
    · exact hm
    · exact hmembers w hw
  · intro _ _ hv
    exact hv

/-- A property is read by its name, whatever is done with the values. -/
theorem lookup_map {α β : Type*} (f : JsString → α → β) (members : List (JsString × α))
    (k : JsString) :
    (members.map fun m => (m.1, f m.1 m.2)).lookup k = (members.lookup k).map (f k) := by
  induction members with
  | nil => rfl
  | cons m members ih =>
      rw [List.map_cons, List.lookup_cons, List.lookup_cons, ih]
      split
      · next h => rw [beq_iff_eq.mp h, Option.map_some]
      · rfl

/-- The items of an array are distinct in themselves. -/
theorem Distinct.items {items : List (JsTree P)}
    (h : (JsTree.arr items).Distinct) : ∀ v ∈ items, v.Distinct := by
  cases h
  assumption

/-- An object has no name twice. -/
theorem Distinct.keys {members : List (JsString × JsTree P)}
    (h : (JsTree.obj members).Distinct) : (members.map Prod.fst).Nodup := by
  cases h
  assumption

/-- Its members are distinct in themselves. -/
theorem Distinct.members {members : List (JsString × JsTree P)}
    (h : (JsTree.obj members).Distinct) : ∀ m ∈ members, m.2.Distinct := by
  cases h
  assumption

end JsTree
