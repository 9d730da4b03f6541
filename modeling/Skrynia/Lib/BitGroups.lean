/-
Numbers of one width written as numbers of another, over one stream of
bits.

`toBits w n` are the low `w` bits of `n`, the highest first; `groups k`
reads a stream of bits as numbers of `k` bits, and leaves the `rest`.
Spelling numbers of `w` bits in numbers of `k` bits pads the stream with
zeros (`spell`). Reading it back needs no padding: with `k ≤ w` the zeros
are too few for one more number (`groups_spell`).
-/
import Mathlib.Data.List.Basic
import Mathlib.Tactic.Common
import Mathlib.Tactic.Ring

namespace BitGroups

-- ================================================================== bits

/-- The low `w` bits of a number, the highest first. -/
def toBits : Nat → Nat → List Bool
  | 0, _ => []
  | w + 1, n => n.testBit w :: toBits w n

/-- The number with these bits. -/
def ofBits (l : List Bool) : Nat := l.foldl (fun n b => 2 * n + b.toNat) 0

variable {w k m n a b : Nat} {l l' : List Bool} {x : Bool}

/-- There are as many as asked for. -/
@[simp] theorem length_toBits : (toBits w n).length = w := by
  induction w with
  | zero => rfl
  | succ w ih => rw [toBits, List.length_cons, ih]

/-- Numbers that agree on their low bits have the same ones. -/
theorem toBits_congr (h : ∀ i < w, m.testBit i = n.testBit i) :
    toBits w m = toBits w n := by
  induction w with
  | zero => rfl
  | succ w ih =>
      rw [toBits, toBits, h w (by omega), ih fun i hi => h i (by omega)]

/-- The high bits, then the low ones. -/
theorem toBits_add : toBits (a + b) n = toBits a (n >>> b) ++ toBits b n := by
  induction a with
  | zero => rw [Nat.zero_add, toBits, List.nil_append]
  | succ a ih =>
      rw [Nat.succ_add, toBits, toBits, ih, Nat.testBit_shiftRight, Nat.add_comm b a,
        List.cons_append]

/-- Bits that follow a number are its lower places. -/
theorem foldl_ofBits (n : Nat) :
    l.foldl (fun n b => 2 * n + b.toNat) n = n * 2 ^ l.length + ofBits l := by
  induction l generalizing n with
  | nil => simp [ofBits]
  | cons b l ih =>
      unfold ofBits
      rw [List.foldl_cons, List.foldl_cons, ih, ih (2 * 0 + b.toNat), List.length_cons]
      ring

/-- The first bit is the highest place. -/
theorem ofBits_cons : ofBits (x :: l) = x.toNat * 2 ^ l.length + ofBits l := by
  rw [ofBits, List.foldl_cons, foldl_ofBits, Nat.mul_zero, Nat.zero_add]

/-- A number has no more places than bits. -/
theorem ofBits_lt : ofBits l < 2 ^ l.length := by
  induction l with
  | nil => decide
  | cons b l ih =>
      rw [ofBits_cons, List.length_cons, Nat.pow_succ]
      have hb := b.toNat_le
      have := Nat.mul_le_mul_right (2 ^ l.length) hb
      omega

/-- The low bits of a number are its remainder. -/
theorem ofBits_toBits : ofBits (toBits w n) = n % 2 ^ w := by
  induction w with
  | zero => rw [toBits, Nat.pow_zero, Nat.mod_one]; rfl
  | succ w ih =>
      have hbit : (n.testBit w).toNat = n / 2 ^ w % 2 := by
        rw [Nat.testBit_eq_decide_div_mod_eq]
        by_cases h : n / 2 ^ w % 2 = 1
        · simp [h]
        · have hzero : n / 2 ^ w % 2 = 0 := by omega
          simp [hzero]
      rw [toBits, ofBits_cons, length_toBits, ih, hbit, Nat.pow_succ, Nat.mod_mul,
        Nat.add_comm, Nat.mul_comm]

/-- A number that fits is read back. -/
theorem ofBits_toBits_of_lt (h : n < 2 ^ w) : ofBits (toBits w n) = n := by
  rw [ofBits_toBits, Nat.mod_eq_of_lt h]

/-- And so are bits. -/
theorem toBits_ofBits (h : l.length = w) : toBits w (ofBits l) = l := by
  induction l generalizing w with
  | nil =>
      subst h
      rfl
  | cons x l ih =>
      subst h
      have hlt : ofBits l < 2 ^ l.length := ofBits_lt
      have hlow : toBits l.length (ofBits (x :: l)) = toBits l.length (ofBits l) := by
        apply toBits_congr
        intro i hi
        rw [ofBits_cons, Nat.mul_comm, Nat.testBit_two_pow_mul_add _ hlt, if_pos hi]
      rw [List.length_cons, toBits, hlow, ih rfl, ofBits_cons, Nat.mul_comm,
        Nat.testBit_two_pow_mul_add _ hlt, if_neg (Nat.lt_irrefl _), Nat.sub_self]
      cases x <;> rfl

-- ================================================================ groups

/-- The numbers of `k` bits in a stream. -/
def groups (k : Nat) (l : List Bool) : List Nat :=
  if 0 < k ∧ k ≤ l.length then ofBits (l.take k) :: groups k (l.drop k) else []
termination_by l.length
decreasing_by
  rw [List.length_drop]
  omega

/-- The bits that are left over. -/
def rest (k : Nat) (l : List Bool) : List Bool :=
  if 0 < k ∧ k ≤ l.length then rest k (l.drop k) else l
termination_by l.length
decreasing_by
  rw [List.length_drop]
  omega

/-- Too few bits make no number. -/
theorem groups_of_lt (h : l.length < k) : groups k l = [] := by
  unfold groups
  rw [if_neg (by omega)]

/-- They are all left over. -/
theorem rest_of_lt (h : l.length < k) : rest k l = l := by
  unfold rest
  rw [if_neg (by omega)]

variable (hk : 0 < k)
include hk

/-- The first group of bits is the first number. -/
theorem groups_append_group (h : l.length = k) :
    groups k (l ++ l') = ofBits l :: groups k l' := by
  rw [groups, if_pos (by rw [List.length_append]; omega), List.take_left' h,
    List.drop_left' h]

/-- One group of bits is one number. -/
theorem groups_group (h : l.length = k) : groups k l = [ofBits l] := by
  have hgroups : groups k (l ++ []) = ofBits l :: groups k [] :=
    groups_append_group hk h
  rwa [List.append_nil, groups_of_lt (l := []) hk] at hgroups

/-- A whole group leaves nothing over. -/
theorem rest_append_group (h : l.length = k) : rest k (l ++ l') = rest k l' := by
  rw [rest, if_pos (by rw [List.length_append]; omega), List.drop_left' h]

/-- Less than a group is left over. -/
theorem length_rest_lt : (rest k l).length < k := by
  induction hn : l.length using Nat.strongRecOn generalizing l with
  | ind n ih =>
      subst hn
      by_cases h : k ≤ l.length
      · rw [rest, if_pos ⟨hk, h⟩]
        exact ih _ (by rw [List.length_drop]; omega) rfl
      · rw [rest_of_lt (by omega)]
        omega

/-- A stream can be read in two parts. -/
theorem groups_append : groups k (l ++ l') = groups k l ++ groups k (rest k l ++ l') := by
  induction hn : l.length using Nat.strongRecOn generalizing l with
  | ind n ih =>
      subst hn
      by_cases h : k ≤ l.length
      · have htake : (l.take k).length = k := List.length_take_of_le h
        have hdrop : (l.drop k).length < l.length := by
          rw [List.length_drop]
          omega
        rw [← List.take_append_drop k l, List.append_assoc, groups_append_group hk htake,
          groups_append_group hk htake, rest_append_group hk htake, ih _ hdrop rfl,
          List.cons_append]
      · rw [groups_of_lt (Nat.lt_of_not_le h), rest_of_lt (Nat.lt_of_not_le h),
          List.nil_append]

/-- What is left over is read together with what follows. -/
theorem rest_append : rest k (l ++ l') = rest k (rest k l ++ l') := by
  induction hn : l.length using Nat.strongRecOn generalizing l with
  | ind n ih =>
      subst hn
      by_cases h : k ≤ l.length
      · have htake : (l.take k).length = k := List.length_take_of_le h
        have hdrop : (l.drop k).length < l.length := by
          rw [List.length_drop]
          omega
        rw [← List.take_append_drop k l, List.append_assoc, rest_append_group hk htake,
          rest_append_group hk htake, ih _ hdrop rfl]
      · rw [rest_of_lt (Nat.lt_of_not_le h)]

/-- A stream is its numbers and what is left. -/
theorem flatMap_toBits_groups : (groups k l).flatMap (toBits k) ++ rest k l = l := by
  induction hn : l.length using Nat.strongRecOn generalizing l with
  | ind n ih =>
      subst hn
      by_cases h : k ≤ l.length
      · have htake : (l.take k).length = k := List.length_take_of_le h
        have hdrop : (l.drop k).length < l.length := by
          rw [List.length_drop]
          omega
        conv_rhs => rw [← List.take_append_drop k l, ← ih _ hdrop rfl]
        conv_lhs => rw [← List.take_append_drop k l]
        rw [groups_append_group hk htake, rest_append_group hk htake, List.flatMap_cons,
          toBits_ofBits htake, List.append_assoc]
      · rw [groups_of_lt (Nat.lt_of_not_le h), rest_of_lt (Nat.lt_of_not_le h)]
        rfl

/-- Numbers that fit are read back from their bits. -/
theorem groups_flatMap_toBits {ns : List Nat} (hns : ∀ n ∈ ns, n < 2 ^ k) :
    groups k (ns.flatMap (toBits k) ++ l) = ns ++ groups k l := by
  induction ns with
  | nil => rfl
  | cons n ns ih =>
      rw [List.flatMap_cons, List.append_assoc, groups_append_group hk length_toBits,
        ofBits_toBits_of_lt (hns n List.mem_cons_self),
        ih fun m hm => hns m (List.mem_cons_of_mem _ hm), List.cons_append]

/-- A group of `k` bits is a number below `2 ^ k`. -/
theorem lt_of_mem_groups (hn : n ∈ groups k l) : n < 2 ^ k := by
  induction hlen : l.length using Nat.strongRecOn generalizing l with
  | ind len ih =>
      subst hlen
      by_cases h : k ≤ l.length
      · have htake : (l.take k).length = k := List.length_take_of_le h
        rw [groups, if_pos ⟨hk, h⟩] at hn
        rcases List.mem_cons.mp hn with rfl | hn
        · have hlt : ofBits (l.take k) < 2 ^ (l.take k).length := ofBits_lt
          rwa [htake] at hlt
        · exact ih _ (by rw [List.length_drop]; omega) hn rfl
      · rw [groups_of_lt (Nat.lt_of_not_le h)] at hn
        cases hn

omit hk in
/-- So many numbers take so many bits. -/
theorem length_flatMap_toBits {ns : List Nat} :
    (ns.flatMap (toBits w)).length = w * ns.length := by
  rw [List.length_flatMap]
  simp [Nat.mul_comm]

/-- All bits are in the groups or left over. -/
theorem length_eq : l.length = k * (groups k l).length + (rest k l).length := by
  rw [← length_flatMap_toBits, ← List.length_append, flatMap_toBits_groups hk]

/-- There are as many groups as fit. -/
theorem length_groups : (groups k l).length = l.length / k := by
  rw [length_eq hk (l := l), Nat.mul_add_div hk, Nat.div_eq_of_lt (length_rest_lt hk),
    Nat.add_zero]

/-- The remainder is left over. -/
theorem length_rest : (rest k l).length = l.length % k := by
  conv_rhs => rw [length_eq hk (l := l)]
  rw [Nat.mul_add_mod, Nat.mod_eq_of_lt (length_rest_lt hk)]

-- =============================================================== spelling

omit hk in
/-- The zeros that a stream needs to end with a whole number. -/
def missing (k : Nat) (l : List Bool) : Nat := (k - l.length % k) % k

omit hk in
/-- Numbers of `w` bits in numbers of `k` bits. -/
def spell (w k : Nat) (ns : List Nat) : List Nat :=
  groups k (ns.flatMap (toBits w)
    ++ List.replicate (missing k (ns.flatMap (toBits w))) false)

/-- Less than a group is missing. -/
theorem missing_lt : missing k l < k := Nat.mod_lt _ hk

/-- With what is missing the bits fill their groups. -/
theorem length_add_missing : k ∣ l.length + missing k l := by
  have hmod := Nat.mod_lt l.length hk
  have hdiv := Nat.div_add_mod l.length k
  unfold missing
  by_cases h : l.length % k = 0
  · rw [h, Nat.sub_zero, Nat.mod_self, Nat.add_zero]
    exact Nat.dvd_of_mod_eq_zero h
  · rw [Nat.mod_eq_of_lt (a := k - l.length % k) (by omega)]
    refine ⟨l.length / k + 1, ?_⟩
    rw [Nat.mul_add, Nat.mul_one]
    omega

/-- The padded stream is nothing but its numbers. -/
theorem flatMap_toBits_spell {ns : List Nat} : (spell w k ns).flatMap (toBits k)
    = ns.flatMap (toBits w) ++ List.replicate (missing k (ns.flatMap (toBits w))) false := by
  unfold spell
  generalize hl : ns.flatMap (toBits w)
    ++ List.replicate (missing k (ns.flatMap (toBits w))) false = l
  have hdvd : k ∣ l.length := by
    rw [← hl, List.length_append, List.length_replicate]
    exact length_add_missing hk
  have hsplit := flatMap_toBits_groups hk (l := l)
  have hnil : (rest k l).length = 0 := by
    rw [length_rest hk, Nat.mod_eq_zero_of_dvd hdvd]
  rw [List.eq_nil_of_length_eq_zero hnil, List.append_nil] at hsplit
  exact hsplit

/-- What is spelt reads back: the zeros are fewer than a number has. -/
theorem groups_spell {ns : List Nat} (hkw : k ≤ w) (hns : ∀ n ∈ ns, n < 2 ^ w) :
    groups w ((spell w k ns).flatMap (toBits k)) = ns := by
  rw [flatMap_toBits_spell hk, groups_flatMap_toBits (by omega) hns, groups_of_lt,
    List.append_nil]
  rw [List.length_replicate]
  exact Nat.lt_of_lt_of_le (missing_lt hk) hkw

/-- A number that is spelled has `k` bits. -/
theorem lt_of_mem_spell {ns : List Nat} (hn : n ∈ spell w k ns) : n < 2 ^ k :=
  lt_of_mem_groups hk hn

/-- There are as many as the padded bits make. -/
theorem length_spell {ns : List Nat} :
    (spell w k ns).length = (w * ns.length + missing k (ns.flatMap (toBits w))) / k := by
  unfold spell
  rw [length_groups hk, List.length_append, List.length_replicate, length_flatMap_toBits]

end BitGroups
