/-
The order of the refresh leases that wait.

A lease waits for all that precede it: by ticket, then by owner, then by
generation, where strings compare by their UTF-16 code units. The order is
linear on the leases of different attempts since no two strings have the
same code units. So of the leases that are neither choosing nor holding
exactly one waits for none (`one_in_front`): the tabs never all wait for
each other.
-/
import Mathlib.Data.Prod.Lex
import Mathlib.Data.List.MinMax
import Skrynia.Frontend.LeaseRecords

namespace Skrynia

namespace Frontend

open Stepping

-- ================================================================ code units

/-- The code units of a character. -/
def charUnits (c : Char) : List Nat :=
  if c.toNat < 65536 then [c.toNat]
  else [55296 + (c.toNat - 65536) / 1024, 56320 + (c.toNat - 65536) % 1024]

/-- No character is a surrogate, and none is above the last plane. -/
theorem char_range (c : Char) :
    c.toNat < 55296 ∨ 57343 < c.toNat ∧ c.toNat < 1114112 := by
  exact c.valid

/-- The first character can be read off its units. -/
theorem charUnits_append_inj {c d : Char} {x y : List Nat}
    (h : charUnits c ++ x = charUnits d ++ y) : c = d ∧ x = y := by
  have hc := char_range c
  have hd := char_range d
  have hnat : c.toNat = d.toNat → c = d := fun heq => Char.ext (UInt32.toNat_inj.mp heq)
  unfold charUnits at h
  split at h
  · split at h
    · obtain ⟨hhead, htail⟩ := List.cons.inj h
      exact ⟨hnat hhead, htail⟩
    · have hhead := (List.cons.inj h).1
      omega
  · split at h
    · have hhead := (List.cons.inj h).1
      omega
    · obtain ⟨hhigh, hrest⟩ := List.cons.inj h
      obtain ⟨hlow, htail⟩ := List.cons.inj hrest
      exact ⟨hnat (by omega), htail⟩

/-- So the units tell all characters. -/
theorem flatMap_charUnits_inj {x y : List Char}
    (h : x.flatMap charUnits = y.flatMap charUnits) : x = y := by
  have hne : ∀ c, charUnits c ≠ [] := by
    intro c
    unfold charUnits
    split <;> exact List.cons_ne_nil _ _
  induction x generalizing y with
  | nil =>
      cases y with
      | nil => rfl
      | cons d y =>
          have hnil := List.append_eq_nil_iff.mp h.symm
          exact absurd hnil.1 (hne d)
  | cons c x ih =>
      cases y with
      | nil =>
          have hnil := List.append_eq_nil_iff.mp h
          exact absurd hnil.1 (hne c)
      | cons d y =>
          rw [List.flatMap_cons, List.flatMap_cons] at h
          obtain ⟨hhead, htail⟩ := charUnits_append_inj h
          rw [hhead, ih htail]

/-- Two texts with one encoding are equal. -/
theorem utf16Units_injective : Function.Injective utf16Units := by
  intro s t h
  exact String.toList_injective (flatMap_charUnits_inj h)

-- ================================================================= the order

namespace Claim

variable {l l' : Claim} {observedAt : Rat}

/-- What `leasePrecedes` compares. -/
def rank (l : Claim) : Nat ×ₗ (List Nat ×ₗ List Nat) :=
  toLex (l.ticket, toLex (utf16Units l.ownerId, utf16Units l.generation))

/-- The comparison of the source is that of ranks. -/
theorem precedes_iff : l.Precedes l' ↔ l.rank < l'.rank := by
  have howner : utf16Units l.ownerId = utf16Units l'.ownerId
      ↔ l.ownerId = l'.ownerId :=
    utf16Units_injective.eq_iff.trans Subtype.coe_inj
  unfold Precedes rank
  rw [Prod.Lex.toLex_lt_toLex, Prod.Lex.toLex_lt_toLex, howner]
  split
  · rename_i hticket
    simp [hticket]
  · rename_i hticket
    rw [not_not] at hticket
    split
    · rename_i hne
      simp [hticket, hne]
    · rename_i heq
      rw [not_not] at heq
      simp [hticket, heq]

/-- Claims of one rank are of one tab and generation. -/
theorem same_of_rank (h : l.rank = l'.rank) : l.Same l' := by
  have hrest : (utf16Units l.ownerId, utf16Units l.generation)
      = (utf16Units l'.ownerId, utf16Units l'.generation) :=
    (Prod.ext_iff.mp h).2
  obtain ⟨howner, hgeneration⟩ := Prod.ext_iff.mp hrest
  exact ⟨Subtype.ext (utf16Units_injective howner),
    Subtype.ext (utf16Units_injective hgeneration)⟩

/-- A lease that waits. -/
structure Waits (observedAt : Rat) (l : Claim) : Prop where
  live : observedAt < l.expiresAt
  choosing : l.choosing = false
  holding : l.holding = false

/-- Of two attempts, the one that waits is waited for by those behind. -/
theorem Waits.blocks_iff (h : Waits observedAt l) (hne : ¬ l.Same l') :
    l.Blocks observedAt l' ↔ l.rank < l'.rank := by
  unfold Blocks
  rw [h.choosing, h.holding, precedes_iff]
  constructor
  · intro hblocks
    obtain ⟨-, -, hholding | hchoosing | hrank⟩ := hblocks
    · cases hholding
    · cases hchoosing
    · exact hrank
  · intro hrank
    exact ⟨hne, h.live, Or.inr (Or.inr hrank)⟩

/-- Exactly one of the leases that wait is first. -/
theorem one_unblocked {leases : List Claim} (hne : leases ≠ [])
    (hwaits : ∀ l ∈ leases, Waits observedAt l)
    (hsame : ∀ l ∈ leases, ∀ l' ∈ leases, l.Same l' → l = l') :
    ∃! front, front ∈ leases ∧ ∀ l ∈ leases, ¬ l.Blocks observedAt front := by
  obtain ⟨front, hfront⟩ : ∃ front, leases.argmin rank = some front :=
    Option.ne_none_iff_exists'.mp fun h => hne (List.argmin_eq_none.mp h)
  have hmem : front ∈ leases := List.argmin_mem hfront
  have hleast : ∀ l ∈ leases, front.rank ≤ l.rank :=
    fun l hl => List.le_of_mem_argmin hl hfront
  refine ⟨front, ⟨hmem, ?_⟩, ?_⟩
  · intro l hl hblocks
    have hbehind := ((hwaits l hl).blocks_iff hblocks.1).mp hblocks
    exact absurd hbehind (not_lt.mpr (hleast l hl))
  · intro other hother
    obtain ⟨hin, hunblocked⟩ := hother
    by_contra hdistinct
    have hnot : ¬ front.Same other :=
      fun h => hdistinct (hsame front hmem other hin h).symm
    refine hunblocked front hmem (((hwaits front hmem).blocks_iff hnot).mpr ?_)
    exact lt_of_le_of_ne (hleast other hin) fun h => hnot (same_of_rank h)

end Claim

namespace LeaseSystem

/-- The unexpired leases of these tabs. -/
def live (s : LeaseSystem) (tabs : List CoordinationId) (observedAt : Rat) :
    List Claim :=
  (tabs.filterMap s.stored).filter fun l => observedAt < l.expiresAt

/-- In every run, when some lease is unexpired and none of them is choosing
or holding, exactly one waits for no other. Leases are compared by ticket,
then by tab, then by generation, and that is a linear order even where
tickets are equal. -/
theorem one_in_front (clock : CoordinationId → Rat)
    (schedule : List LeaseEvent) (tabs : List CoordinationId)
    (observedAt : Rat)
    (hne : (run step (opening clock) schedule).live tabs observedAt ≠ [])
    (hflags : ∀ l ∈ (run step (opening clock) schedule).live tabs observedAt,
      l.choosing = false ∧ l.holding = false) :
    ∃! front, front ∈ (run step (opening clock) schedule).live tabs observedAt
      ∧ ∀ l ∈ (run step (opening clock) schedule).live tabs observedAt,
        ¬ l.Blocks observedAt front := by
  have hstored : ∀ l ∈ (run step (opening clock) schedule).live tabs observedAt,
      (run step (opening clock) schedule).stored l.ownerId = some l
        ∧ observedAt < l.expiresAt := by
    intro l hl
    obtain ⟨hl, hlive⟩ := List.mem_filter.mp hl
    obtain ⟨n, -, hn⟩ := List.mem_filterMap.mp hl
    rw [((written_run clock schedule).stored n l hn).owner]
    exact ⟨hn, of_decide_eq_true hlive⟩
  refine Claim.one_unblocked hne ?_ ?_
  · intro l hl
    exact ⟨(hstored l hl).2, (hflags l hl).1, (hflags l hl).2⟩
  · intro l hl l' hl' hsame
    have hread := (hstored l' hl').1
    rw [← hsame.1, (hstored l hl).1] at hread
    exact Option.some_injective _ hread

/-- Two tabs that have taken the same ticket. -/
def sameTicket : List LeaseEvent :=
  [.acquire tabA firstTry true true true, .acquire tabB firstTry true true true,
    .scan tabA, .scan tabB, .scanned tabA [], .scanned tabB []]

/-- Two tabs draw one ticket, and one of them is in front. -/
theorem one_in_front_sameTicket :
    ∃! front, front ∈ (run step (opening fun _ => 0) sameTicket).live
        [tabA, tabB] 0
      ∧ ∀ l ∈ (run step (opening fun _ => 0) sameTicket).live [tabA, tabB] 0,
        ¬ l.Blocks 0 front :=
  one_in_front (fun _ => 0) sameTicket [tabA, tabB] 0 (by decide +kernel)
    (by decide +kernel)

end LeaseSystem

end Frontend

end Skrynia
