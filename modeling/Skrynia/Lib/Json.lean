/-
JSON values and their texts.

`write arrange` is a serialiser that puts the members of every object in
an order of its own, `arrange`, and its items and members in brackets
with commas between. Escaped strings and bracketed lists can be read off
the front of a text, whatever follows; a number only where something that
cannot continue it follows (`Ends`).

# What a text says

Two values with one text are the `Same`: equal up to the order of object
members at any depth (`same_of_write_eq`). Whether the text depends on
that order is up to `arrange`.
-/
import Mathlib.Data.List.Forall2
import Mathlib.Data.List.Flatten
import Mathlib.Data.List.Perm.Basic
import Mathlib.Tactic.Common

/-- The text of a number: no character of it can follow a value. -/
structure JsonNumber where
  text : List Char
  nonempty : text ≠ []
  digits : ∀ c ∈ text, c ∈ "0123456789+-.e".toList
deriving DecidableEq

/-- A JSON value. An object is the list of its members. -/
inductive Json where
  | null
  | bool (b : Bool)
  | num (n : JsonNumber)
  | str (s : String)
  | arr (items : List Json)
  | obj (members : List (String × Json))

namespace Json

mutual

/-- Equal up to the order of object members. -/
inductive Same : Json → Json → Prop where
  | null : Same .null .null
  | bool (b : Bool) : Same (.bool b) (.bool b)
  | num (n : JsonNumber) : Same (.num n) (.num n)
  | str (s : String) : Same (.str s) (.str s)
  | arr {l l' : List Json} (h : List.Forall₂ Same l l') : Same (.arr l) (.arr l')
  | obj {m p m' : List (String × Json)} (hp : m.Perm p)
      (h : List.Forall₂ SameMember p m') : Same (.obj m) (.obj m')

/-- Members of one key and the same value. -/
inductive SameMember : String × Json → String × Json → Prop where
  | mk {k : String} {v v' : Json} (h : Same v v') : SameMember (k, v) (k, v')

end

/-- Induction over the values, items and members by membership. -/
theorem induct {motive : Json → Prop} (null : motive .null)
    (bool : ∀ b, motive (.bool b)) (num : ∀ n, motive (.num n))
    (str : ∀ s, motive (.str s))
    (arr : ∀ items, (∀ v ∈ items, motive v) → motive (.arr items))
    (obj : ∀ members, (∀ m ∈ members, motive m.2) → motive (.obj members)) :
    ∀ v, motive v := by
  refine @Json.rec motive (fun items => ∀ v ∈ items, motive v)
    (fun members => ∀ m ∈ members, motive m.2) (fun m => motive m.2)
    null bool num str arr obj ?_ ?_ ?_ ?_ ?_
  · intro v hv
    cases hv
  · intro v items hv hitems w hw
    rcases List.mem_cons.mp hw with rfl | hw
    · exact hv
    · exact hitems w hw
  · intro m hm
    cases hm
  · intro m members hm hmembers w hw
    rcases List.mem_cons.mp hw with rfl | hw
    · exact hm
    · exact hmembers w hw
  · intro _ _ hv
    exact hv

-- ============================================================== strings

/-- The characters that a backslash and a letter stand for. -/
def shortEscape (c : Char) : Option Char :=
  if c = '"' then some '"'
  else if c = '\\' then some '\\'
  else if c = '\n' then some 'n'
  else if c = '\r' then some 'r'
  else if c = '\t' then some 't'
  else if c = Char.ofNat 8 then some 'b'
  else if c = Char.ofNat 12 then some 'f'
  else none

/-- A character as it stands in a text. -/
def escape (c : Char) : List Char :=
  match shortEscape c with
  | some e => ['\\', e]
  | none =>
      if c.toNat < 32 then
        ['\\', 'u', '0', '0', Nat.digitChar (c.toNat / 16), Nat.digitChar (c.toNat % 16)]
      else [c]

/-- A string as it stands in a text. -/
def quote (s : String) : List Char :=
  '"' :: (s.toList.flatMap escape ++ ['"'])

/-- No short escape is that of a code unit. -/
theorem shortEscape_ne_u {c e : Char} (h : shortEscape c = some e) : e ≠ 'u' := by
  unfold shortEscape at h
  split_ifs at h <;> cases h <;> decide

/-- Back from the letter to the character. -/
def unescape (e : Char) : Char :=
  if e = 'n' then '\n'
  else if e = 'r' then '\r'
  else if e = 't' then '\t'
  else if e = 'b' then Char.ofNat 8
  else if e = 'f' then Char.ofNat 12
  else e

/-- A short escape is read back. -/
theorem unescape_shortEscape {c e : Char} (h : shortEscape c = some e) :
    unescape e = c := by
  unfold shortEscape at h
  split_ifs at h <;> cases h <;> subst_vars <;> decide

/-- And tells its character. -/
theorem shortEscape_inj {c d e : Char} (hc : shortEscape c = some e)
    (hd : shortEscape d = some e) : c = d :=
  (unescape_shortEscape hc).symm.trans (unescape_shortEscape hd)

/-- How an escaped character starts. -/
theorem escape_cases (c : Char) :
    (∃ e, shortEscape c = some e ∧ escape c = ['\\', e])
    ∨ (shortEscape c = none ∧ c.toNat < 32 ∧ escape c
        = ['\\', 'u', '0', '0', Nat.digitChar (c.toNat / 16), Nat.digitChar (c.toNat % 16)])
    ∨ (c ≠ '"' ∧ c ≠ '\\' ∧ escape c = [c]) := by
  cases h : shortEscape c with
  | some e =>
      refine Or.inl ⟨e, rfl, ?_⟩
      rw [escape, h]
  | none =>
      by_cases hlt : c.toNat < 32
      · refine Or.inr (Or.inl ⟨rfl, hlt, ?_⟩)
        rw [escape, h]
        exact if_pos hlt
      · refine Or.inr (Or.inr ⟨?_, ?_, ?_⟩)
        · intro hc
          rw [hc] at h
          cases h
        · intro hc
          rw [hc] at h
          cases h
        · rw [escape, h]
          exact if_neg hlt

/-- A hexadecimal digit tells its number. -/
theorem digitChar_inj {m n : Nat} (hm : m < 16) (hn : n < 16)
    (h : Nat.digitChar m = Nat.digitChar n) : m = n := by
  have hall : ∀ a b : Fin 16, Nat.digitChar a = Nat.digitChar b → a = b := by
    decide +kernel
  exact Fin.mk.inj (hall ⟨m, hm⟩ ⟨n, hn⟩ h)

/-- Escaped characters can be read off the front. -/
theorem escape_append_inj {c d : Char} {x y : List Char}
    (h : escape c ++ x = escape d ++ y) : c = d ∧ x = y := by
  rcases escape_cases c with ⟨e, hc, hec⟩ | ⟨hc, hlt, hec⟩ | ⟨hq, hb, hec⟩ <;>
    rcases escape_cases d with ⟨f, hd, hed⟩ | ⟨hd, hlt', hed⟩ | ⟨hq', hb', hed⟩ <;>
    rw [hec, hed] at h
  · simp only [List.cons_append, List.nil_append, List.cons.injEq, true_and] at h
    obtain ⟨rfl, hxy⟩ := h
    exact ⟨shortEscape_inj hc hd, hxy⟩
  · simp only [List.cons_append, List.nil_append, List.cons.injEq, true_and] at h
    exact absurd h.1 (shortEscape_ne_u hc)
  · simp only [List.cons_append, List.nil_append, List.cons.injEq] at h
    exact absurd h.1.symm hb'
  · simp only [List.cons_append, List.nil_append, List.cons.injEq, true_and] at h
    exact absurd h.1.symm (shortEscape_ne_u hd)
  · simp only [List.cons_append, List.nil_append, List.cons.injEq, true_and] at h
    obtain ⟨hhigh, hlow, hxy⟩ := h
    have hhigh := digitChar_inj (by omega) (by omega) hhigh
    have hlow := digitChar_inj (Nat.mod_lt _ (by decide)) (Nat.mod_lt _ (by decide)) hlow
    exact ⟨Char.toNat_inj.mp (by omega), hxy⟩
  · simp only [List.cons_append, List.nil_append, List.cons.injEq] at h
    exact absurd h.1.symm hb'
  · simp only [List.cons_append, List.nil_append, List.cons.injEq] at h
    exact absurd h.1 hb
  · simp only [List.cons_append, List.nil_append, List.cons.injEq] at h
    exact absurd h.1 hb
  · simp only [List.cons_append, List.nil_append, List.cons.injEq] at h
    exact h

/-- No escaped character starts with a quote. -/
theorem escape_append_ne_quote {c : Char} {x y : List Char} :
    escape c ++ x ≠ '"' :: y := by
  intro h
  rcases escape_cases c with ⟨e, -, hec⟩ | ⟨-, -, hec⟩ | ⟨hq, -, hec⟩ <;> rw [hec] at h
  · simp at h
  · simp at h
  · simp only [List.cons_append, List.nil_append, List.cons.injEq] at h
    exact hq h.1

/-- Codes that can each be read off the front, and that `close` does not
start, can be read off up to it. -/
theorem flatMap_append_inj {α : Type*} {code : α → List Char} {close : Char}
    (hcode : ∀ a b x y, code a ++ x = code b ++ y → a = b ∧ x = y)
    (hclose : ∀ a x y, code a ++ x ≠ close :: y) {as bs : List α} {s t : List Char}
    (h : as.flatMap code ++ close :: s = bs.flatMap code ++ close :: t) :
    as = bs ∧ s = t := by
  induction as generalizing bs with
  | nil =>
      cases bs with
      | nil => exact ⟨rfl, List.tail_eq_of_cons_eq h⟩
      | cons b bs =>
          rw [List.flatMap_cons, List.append_assoc] at h
          exact absurd h.symm (hclose b _ _)
  | cons a as ih =>
      cases bs with
      | nil =>
          rw [List.flatMap_cons, List.append_assoc] at h
          exact absurd h (hclose a _ _)
      | cons b bs =>
          rw [List.flatMap_cons, List.flatMap_cons, List.append_assoc,
            List.append_assoc] at h
          obtain ⟨hab, htail⟩ := hcode _ _ _ _ h
          obtain ⟨hbs, hst⟩ := ih htail
          rw [hab, hbs]
          exact ⟨rfl, hst⟩

/-- A quoted string can be read off the front. -/
theorem quote_append_inj {s s' : String} {x y : List Char}
    (h : quote s ++ x = quote s' ++ y) : s = s' ∧ x = y := by
  rw [quote, quote, List.cons_append, List.cons_append, List.append_assoc,
    List.append_assoc] at h
  obtain ⟨hs, hxy⟩ := flatMap_append_inj (fun _ _ _ _ => escape_append_inj)
    (fun _ _ _ => escape_append_ne_quote) (List.tail_eq_of_cons_eq h)
  exact ⟨String.ext hs, hxy⟩

-- ============================================================ bracketed lists

/-- What may follow a value inside a text. -/
def Ends (s : List Char) : Prop := ∀ c ∈ s.head?, c = ',' ∨ c = ']' ∨ c = '}'

/-- The end of a text ends a number. -/
theorem ends_nil : Ends [] := by
  intro c hc
  cases hc

/-- Two texts that agree with what follows agree. -/
def Readable (x y : List Char) : Prop :=
  ∀ s t, Ends s → Ends t → x ++ s = y ++ t → x = y ∧ s = t

/-- Texts with commas between. -/
def commas (texts : List (List Char)) : List Char := [','].intercalate texts

/-- What follows the first of some texts in brackets. -/
def following (texts : List (List Char)) (close : Char) (s : List Char) : List Char :=
  match texts with
  | [] => close :: s
  | _ :: _ => ',' :: (commas texts ++ close :: s)

/-- The first of a list stands in front of what follows it. -/
theorem commas_cons (x : List Char) (texts : List (List Char)) (close : Char)
    (s : List Char) :
    commas (x :: texts) ++ close :: s = x ++ following texts close s := by
  cases texts with
  | nil =>
      show [','].intercalate [x] ++ _ = _
      rw [List.intercalate_singleton]
      rfl
  | cons y texts =>
      show [','].intercalate (x :: y :: texts) ++ _ = _
      rw [List.intercalate_cons_cons, List.append_assoc, List.append_assoc]
      rfl

/-- What follows an item ends a number. -/
theorem ends_following {texts : List (List Char)} {close : Char} {s : List Char}
    (hclose : close = ']' ∨ close = '}') : Ends (following texts close s) := by
  intro c hc
  cases texts with
  | nil =>
      cases hc
      exact Or.inr hclose
  | cons y texts =>
      cases hc
      exact Or.inl rfl

/-- A text that does not start with the closing bracket. -/
def Opens (close : Char) (x : List Char) : Prop := ∃ c x', x = c :: x' ∧ c ≠ close

/-- A text that opens does not close. -/
theorem Opens.append_ne {close : Char} {x u s : List Char} (h : Opens close x) :
    x ++ u ≠ close :: s := by
  obtain ⟨c, x', rfl, hc⟩ := h
  intro heq
  exact hc (List.cons.inj heq).1

/-- A bracketed list can be read off the front, item by item. -/
theorem commas_inj {close : Char} (hclose : close = ']' ∨ close = '}')
    {xs ys : List (List Char)} {s t : List Char}
    (hread : ∀ x ∈ xs, ∀ y ∈ ys, Readable x y)
    (hxs : ∀ x ∈ xs, Opens close x) (hys : ∀ y ∈ ys, Opens close y)
    (h : commas xs ++ close :: s = commas ys ++ close :: t) : xs = ys ∧ s = t := by
  induction xs generalizing ys with
  | nil =>
      cases ys with
      | nil => exact ⟨rfl, List.tail_eq_of_cons_eq h⟩
      | cons y ys =>
          rw [commas_cons] at h
          exact absurd h.symm (hys y List.mem_cons_self).append_ne
  | cons x xs ih =>
      cases ys with
      | nil =>
          rw [commas_cons] at h
          exact absurd h (hxs x List.mem_cons_self).append_ne
      | cons y ys =>
          rw [commas_cons, commas_cons] at h
          obtain ⟨hxy, h⟩ := hread x List.mem_cons_self y List.mem_cons_self _ _
            (ends_following hclose) (ends_following hclose) h
          have hrest : commas xs ++ close :: s = commas ys ++ close :: t → xs = ys ∧ s = t :=
            ih (fun x hx y hy => hread x (List.mem_cons_of_mem _ hx) y
              (List.mem_cons_of_mem _ hy)) (fun x hx => hxs x (List.mem_cons_of_mem _ hx))
              (fun y hy => hys y (List.mem_cons_of_mem _ hy))
          have hcomma : close ≠ ',' := by
            rcases hclose with rfl | rfl <;> decide
          have htails : commas xs ++ close :: s = commas ys ++ close :: t := by
            cases xs with
            | nil =>
                cases ys with
                | nil => exact h
                | cons y' ys => exact absurd (List.cons.inj h).1 hcomma
            | cons x' xs =>
                cases ys with
                | nil => exact absurd (List.cons.inj h).1.symm hcomma
                | cons y' ys => exact List.tail_eq_of_cons_eq h
          obtain ⟨hxs, hst⟩ := hrest htails
          rw [hxy, hxs]
          exact ⟨rfl, hst⟩

-- ================================================================ the text

section Write

-- How a serialiser orders the members of an object.
variable (arrange : List (String × List Char) → List (String × List Char))

/-- A member, its value already written. -/
def member (m : String × List Char) : List Char := quote m.1 ++ ':' :: m.2

mutual

/-- The text of a value. -/
def write : Json → List Char
  | null => "null".toList
  | bool b => (if b then "true" else "false").toList
  | num n => n.text
  | str s => quote s
  | arr items => '[' :: (commas (writeItems items) ++ [']'])
  | obj members => '\x7b' :: (commas ((arrange (writeMembers members)).map member) ++ ['}'])

/-- The texts of the items of an array. -/
def writeItems : List Json → List (List Char)
  | [] => []
  | v :: items => write v :: writeItems items

/-- The texts of the values of an object. -/
def writeMembers : List (String × Json) → List (String × List Char)
  | [] => []
  | (k, v) :: members => (k, write v) :: writeMembers members

end

variable {arrange}

/-- Items are written one by one. -/
theorem writeItems_eq (items : List Json) :
    writeItems arrange items = items.map (write arrange) := by
  induction items with
  | nil => rfl
  | cons v items ih => rw [writeItems, ih, List.map_cons]

/-- So are the values of an object. -/
theorem writeMembers_eq (members : List (String × Json)) :
    writeMembers arrange members = members.map fun m => (m.1, write arrange m.2) := by
  induction members with
  | nil => rfl
  | cons m members ih => rw [writeMembers, ih, List.map_cons]

/-- The kind of value that a text starts. -/
def startKind (c : Char) : Nat :=
  if c = 'n' then 0
  else if c = 't' ∨ c = 'f' then 1
  else if c = '"' then 3
  else if c = '[' then 4
  else if c = '\x7b' then 5
  else 2

/-- What kind of value it is. -/
def kind : Json → Nat
  | null => 0
  | bool _ => 1
  | num _ => 2
  | str _ => 3
  | arr _ => 4
  | obj _ => 5

/-- The first character tells the kind, and no text starts by closing. -/
theorem write_start (arrange : List (String × List Char) → List (String × List Char))
    (v : Json) :
    ∃ c x, write arrange v = c :: x ∧ startKind c = v.kind ∧ c ≠ ']' ∧ c ≠ '\x7d' := by
  cases v with
  | null => exact ⟨'n', _, rfl, by decide⟩
  | bool b =>
      cases b
      · exact ⟨'f', _, rfl, by decide⟩
      · exact ⟨'t', _, rfl, by decide⟩
  | num n =>
      obtain ⟨c, x, hx⟩ := List.exists_cons_of_ne_nil n.nonempty
      have hall : ("0123456789+-.e".toList.all fun c =>
          decide (startKind c = 2 ∧ c ≠ ']' ∧ c ≠ '\x7d')) = true := by decide
      have hc : c ∈ "0123456789+-.e".toList := by
        apply n.digits c
        rw [hx]
        exact List.mem_cons_self
      exact ⟨c, x, hx, of_decide_eq_true (List.all_eq_true.mp hall c hc)⟩
  | str s => exact ⟨'"', _, rfl, rfl, by decide⟩
  | arr items => exact ⟨'[', _, rfl, rfl, by decide⟩
  | obj members => exact ⟨'\x7b', _, rfl, rfl, by decide⟩

/-- The first character of a text tells what kind of value is written. -/
theorem kind_eq {v w : Json} {s t : List Char}
    (h : write arrange v ++ s = write arrange w ++ t) : v.kind = w.kind := by
  obtain ⟨c, x, hv, hkind, -⟩ := write_start arrange v
  obtain ⟨d, y, hw, hkind', -⟩ := write_start arrange w
  rw [hv, hw] at h
  rw [← hkind, ← hkind', (List.cons.inj h).1]

/-- Digits can be read off the front, up to the end of the number. -/
theorem digits_inj {p : Char → Prop} {x y s t : List Char} (hx : ∀ c ∈ x, p c)
    (hy : ∀ c ∈ y, p c) (hs : ∀ c ∈ s.head?, ¬ p c) (ht : ∀ c ∈ t.head?, ¬ p c)
    (h : x ++ s = y ++ t) : x = y ∧ s = t := by
  induction x generalizing y with
  | nil =>
      cases y with
      | nil => exact ⟨rfl, h⟩
      | cons d y =>
          have hs' : s = d :: (y ++ t) := h
          rw [hs'] at hs
          exact absurd (hy d List.mem_cons_self) (hs d rfl)
  | cons c x ih =>
      cases y with
      | nil =>
          have ht' : t = c :: (x ++ s) := h.symm
          rw [ht'] at ht
          exact absurd (hx c List.mem_cons_self) (ht c rfl)
      | cons d y =>
          obtain ⟨hcd, h⟩ := List.cons.inj h
          obtain ⟨hxy, hst⟩ := ih (fun c hc => hx c (List.mem_cons_of_mem _ hc))
            (fun c hc => hy c (List.mem_cons_of_mem _ hc)) h
          rw [hcd, hxy]
          exact ⟨rfl, hst⟩

/-- What ends a number does not continue it. -/
theorem Ends.not_digit {s : List Char} (h : Ends s) :
    ∀ c ∈ s.head?, c ∉ "0123456789+-.e".toList := by
  intro c hc
  rcases h c hc with rfl | rfl | rfl <;> decide

/-- The text of a value does not begin with a closing bracket. -/
theorem write_opens {close : Char} (hclose : close = ']' ∨ close = '\x7d') (v : Json) :
    Opens close (write arrange v) := by
  obtain ⟨c, x, hv, -, hc, hc'⟩ := write_start arrange v
  refine ⟨c, x, hv, ?_⟩
  rcases hclose with rfl | rfl
  · exact hc
  · exact hc'

/-- A member's text tells its key and the text of its value. -/
theorem member_injective {m m' : String × List Char} (h : member m = member m') :
    m = m' := by
  obtain ⟨hk, ht⟩ := quote_append_inj h
  exact Prod.ext hk (List.tail_eq_of_cons_eq ht)

/-- A member can be read off the front when its value can. -/
theorem readable_member {m m' : String × List Char} (h : Readable m.2 m'.2) :
    Readable (member m) (member m') := by
  intro s t hs ht heq
  rw [member, member, List.append_assoc, List.append_assoc] at heq
  obtain ⟨hk, heq⟩ := quote_append_inj heq
  obtain ⟨hv, hst⟩ := h s t hs ht (List.tail_eq_of_cons_eq heq)
  exact ⟨congrArg member (Prod.ext hk hv), hst⟩

/-- Lists with one image correspond, item by item. -/
theorem forall₂_of_map_eq {α β γ : Type*} {f : α → γ} {g : β → γ} {l : List α}
    {l' : List β} (h : l.map f = l'.map g) : List.Forall₂ (fun a b => f a = g b) l l' := by
  have heq : List.Forall₂ Eq (l.map f) (l'.map g) := by
    rw [List.forall₂_eq_eq_eq]
    exact h
  exact List.forall₂_map_right_iff.mp (List.forall₂_map_left_iff.mp heq)

/-- Lists that correspond item by item have one image. -/
theorem map_eq_of_forall₂ {α β γ : Type*} {f : α → γ} {g : β → γ} {l : List α}
    {l' : List β} (h : List.Forall₂ (fun a b => f a = g b) l l') :
    l.map f = l'.map g := by
  have heq := List.forall₂_map_left_iff.mpr (List.forall₂_map_right_iff.mpr h)
  rwa [List.forall₂_eq_eq_eq] at heq

/-- Items that correspond are items of the two lists. -/
theorem forall₂_imp_mem {α β : Type*} {R S : α → β → Prop} {l : List α} {l' : List β}
    (h : List.Forall₂ R l l') (himp : ∀ a ∈ l, ∀ b ∈ l', R a b → S a b) :
    List.Forall₂ S l l' := by
  induction h with
  | nil => exact .nil
  | cons hab _ ih =>
      refine .cons (himp _ List.mem_cons_self _ List.mem_cons_self hab) (ih ?_)
      intro a ha b hb
      exact himp a (List.mem_cons_of_mem _ ha) b (List.mem_cons_of_mem _ hb)

/-- Lists whose images are permutations correspond after a permutation. -/
theorem forall₂_of_map_perm {α γ : Type*} {f : α → γ} {l l' : List α}
    (h : (l.map f).Perm (l'.map f)) :
    ∃ p, l.Perm p ∧ List.Forall₂ (fun a b => f a = f b) p l' := by
  have hmap : List.Forall₂ (fun a x => f a = x) l (l.map f) :=
    List.forall₂_map_right_iff.mpr (List.forall₂_same.mpr fun _ _ => rfl)
  have hcomp : Relation.Comp (List.Forall₂ fun a x => f a = x) List.Perm l (l'.map f) :=
    ⟨l.map f, hmap, h⟩
  rw [List.forall₂_comp_perm_eq_perm_comp_forall₂] at hcomp
  obtain ⟨p, hp, hpl⟩ := hcomp
  exact ⟨p, hp, List.forall₂_map_right_iff.mp hpl⟩

/-- A value can be read off the front, up to the order of its members. By
induction on the value: the first character tells its kind, and every kind
has its own end. -/
theorem write_append_inj (harrange : ∀ l, (arrange l).Perm l) (v : Json) :
    ∀ w s t, Ends s → Ends t → write arrange v ++ s = write arrange w ++ t →
      Same v w ∧ write arrange v = write arrange w ∧ s = t := by
  induction v using induct with
  | null =>
      intro w s t _ _ h
      have hkind := kind_eq h
      cases w with
      | null => exact ⟨.null, rfl, List.append_cancel_left h⟩
      | _ => cases hkind
  | bool b =>
      intro w s t _ _ h
      have hkind := kind_eq h
      cases w with
      | bool b' =>
          by_cases hb : b = b'
          · subst hb
            exact ⟨.bool b, rfl, List.append_cancel_left h⟩
          · cases b <;> cases b' <;> simp [write] at h hb
      | _ => cases hkind
  | num n =>
      intro w s t hs ht h
      have hkind := kind_eq h
      cases w with
      | num n' =>
          obtain ⟨htext, hst⟩ :=
            digits_inj n.digits n'.digits hs.not_digit ht.not_digit h
          have hn : n = n' := by
            cases n
            cases n'
            cases htext
            rfl
          rw [hn]
          exact ⟨.num n', rfl, hst⟩
      | _ => cases hkind
  | str a =>
      intro w s t _ _ h
      have hkind := kind_eq h
      cases w with
      | str b =>
          obtain ⟨rfl, hst⟩ := quote_append_inj h
          exact ⟨.str a, rfl, hst⟩
      | _ => cases hkind
  | arr items ih =>
      intro w s t _ _ h
      have hkind := kind_eq h
      cases w with
      | arr items' =>
          rw [write, write, List.cons_append, List.cons_append, List.append_assoc,
            List.append_assoc] at h
          have hread : ∀ x ∈ writeItems arrange items, ∀ y ∈ writeItems arrange items',
              Readable x y := by
            intro x hx y hy
            rw [writeItems_eq] at hx hy
            obtain ⟨a, ha, rfl⟩ := List.mem_map.mp hx
            obtain ⟨b, -, rfl⟩ := List.mem_map.mp hy
            exact fun s t hs ht heq => (ih a ha b s t hs ht heq).2
          have hopens : ∀ items : List Json, ∀ x ∈ writeItems arrange items,
              Opens ']' x := by
            intro items x hx
            rw [writeItems_eq] at hx
            obtain ⟨a, -, rfl⟩ := List.mem_map.mp hx
            exact write_opens (Or.inl rfl) a
          obtain ⟨htexts, hst⟩ := commas_inj (Or.inl rfl) hread (hopens items)
            (hopens items') (List.tail_eq_of_cons_eq h)
          refine ⟨.arr ?_, ?_, hst⟩
          · rw [writeItems_eq, writeItems_eq] at htexts
            have hpairs := (List.forall₂_and_left items items').mpr
              ⟨ih, forall₂_of_map_eq htexts⟩
            refine hpairs.imp ?_
            intro a b hab
            exact (hab.1 b [] [] ends_nil ends_nil (by rw [hab.2])).1
          · rw [write, write, htexts]
      | _ => cases hkind
  | obj members ih =>
      intro w s t _ _ h
      have hkind := kind_eq h
      cases w with
      | obj members' =>
          rw [write, write, List.cons_append, List.cons_append, List.append_assoc,
            List.append_assoc] at h
          -- The texts of the members come from those of the values.
          have hmem : ∀ (members : List (String × Json)) m,
              m ∈ arrange (writeMembers arrange members) →
              ∃ a ∈ members, (a.1, write arrange a.2) = m := by
            intro members m hm
            rw [(harrange _).mem_iff, writeMembers_eq] at hm
            exact List.mem_map.mp hm
          have hread : ∀ x ∈ (arrange (writeMembers arrange members)).map member,
              ∀ y ∈ (arrange (writeMembers arrange members')).map member,
              Readable x y := by
            intro x hx y hy
            obtain ⟨m, hm, rfl⟩ := List.mem_map.mp hx
            obtain ⟨m', hm', rfl⟩ := List.mem_map.mp hy
            obtain ⟨a, ha, rfl⟩ := hmem members m hm
            obtain ⟨b, -, rfl⟩ := hmem members' m' hm'
            apply readable_member
            exact fun s t hs ht heq => (ih a ha b.2 s t hs ht heq).2
          have hopens : ∀ members : List (String × List Char),
              ∀ x ∈ members.map member, Opens '\x7d' x := by
            intro members x hx
            obtain ⟨m, -, rfl⟩ := List.mem_map.mp hx
            exact ⟨'"', _, rfl, by decide⟩
          obtain ⟨htexts, hst⟩ := commas_inj (Or.inr rfl) hread (hopens _) (hopens _)
            (List.tail_eq_of_cons_eq h)
          refine ⟨?_, ?_, hst⟩
          · have harranged := List.map_injective_iff.mpr
              (fun _ _ => member_injective) htexts
            have hperm := (harrange (writeMembers arrange members)).symm.trans
              (harranged ▸ harrange (writeMembers arrange members'))
            rw [writeMembers_eq, writeMembers_eq] at hperm
            obtain ⟨p, hp, hpairs⟩ := forall₂_of_map_perm hperm
            refine .obj hp ?_
            have hih : ∀ m ∈ p, _ := fun m hm => ih m (hp.mem_iff.mpr hm)
            refine ((List.forall₂_and_left p members').mpr ⟨hih, hpairs⟩).imp ?_
            intro a b hab
            obtain ⟨ha, heq⟩ := hab
            obtain ⟨k, v⟩ := a
            obtain ⟨k', v'⟩ := b
            obtain ⟨rfl, hv⟩ := Prod.mk.inj heq
            exact .mk (ha v' [] [] ends_nil ends_nil (by rw [hv])).1
          · rw [write, write, htexts]
      | _ => cases hkind

/-- One text, one value, up to the order of object members. -/
theorem same_of_write_eq (harrange : ∀ l, (arrange l).Perm l) {v w : Json}
    (h : write arrange v = write arrange w) : Same v w :=
  (write_append_inj harrange v w [] [] ends_nil ends_nil (by rw [h])).1

end Write

end Json
