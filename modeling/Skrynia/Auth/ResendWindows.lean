/-
Fixed windows under a rolling promise, for the keys of one user.

# Where the counter falls short

The counter forgets its window as a whole, so sends of the window before
may be less than an hour old when the next one begins. Sends of one window
have different tickets up to the limit (`own_lt`) and come a minute apart,
so it is enough to look at the moment at which a window opens: if the
sends before are `Clear` of it, no hour has too many (`kept_accept`).

# Where a counter ends

A refusal is within an hour of a send if the counter has its time to live
and a code was sent since it was given (`EndsBySend`). The script for
e-mails sees to that by itself.
-/
import Skrynia.Auth.Resend
import Skrynia.Lib.Rolling
import Mathlib.Data.Finset.Card
import Mathlib.Order.Interval.Finset.Nat

namespace Skrynia

open Stepping Rolling

namespace Limiter

variable {l : Limiter} {now limit : Nat} {pending : Ticket → Prop} {t : Ticket}

-- ================================================================ tickets

/-- The sends of a window. -/
def own (l : Limiter) (window : Nat) : List Send :=
  l.sends.filter fun a => a.ticket.window = window

/-- The counter has returned it. -/
def Issued (l : Limiter) (t : Ticket) : Prop :=
  t.window < l.windows
    ∧ ∀ k, l.hourly = some k → k.window = t.window → t.count ≤ k.count

/-- `pending` are the tickets of the calls that are still to be accepted. -/
structure Accepting (limit now : Nat) (pending : Ticket → Prop) (l : Limiter) :
    Prop where
  past : ∀ a ∈ l.sends, a.time ≤ now
  cooled : ∀ a ∈ l.sends, ∃ e, l.cooldown = some e
    ∧ a.time + resendCooldown ≤ e
  cooldown : ∀ e, l.cooldown = some e →
    ∃ a ∈ l.sends, e = a.time + resendCooldown
  bounded : ∀ a ∈ l.sends, 1 ≤ a.ticket.count ∧ a.ticket.count ≤ limit
  pendingBounded : ∀ t, pending t → 1 ≤ t.count ∧ t.count ≤ limit
  issued : ∀ a ∈ l.sends, l.Issued a.ticket
  pendingIssued : ∀ t, pending t → l.Issued t
  distinct : (l.sends.map Send.ticket).Nodup
  apart : ∀ a ∈ l.sends, ¬ pending a.ticket
  latest : ∀ k, l.hourly = some k → k.window + 1 = l.windows ∧ 0 < k.count

/-- A limiter without sends has nothing to say of any. -/
theorem fresh_accepting : Accepting limit now (fun _ => False) fresh where
  past := nofun
  cooled := nofun
  cooldown := nofun
  bounded := nofun
  pendingBounded := nofun
  issued := nofun
  pendingIssued := nofun
  distinct := List.nodup_nil
  apart := nofun
  latest := nofun

/-- The cooldown is on while a send is less than a minute old. -/
theorem Accepting.onCooldown_iff (h : Accepting limit now pending l) :
    l.onCooldown now = true
      ↔ ∃ a ∈ l.sends, now < a.time + resendCooldown := by
  unfold onCooldown
  rw [Option.any_eq_true]
  constructor
  · intro h
    obtain ⟨e, he, hlt⟩ := h
    obtain ⟨a, ha, rfl⟩ := h.cooldown e he
    exact ⟨a, ha, of_decide_eq_true hlt⟩
  · intro h
    obtain ⟨a, ha, hlt⟩ := h
    obtain ⟨e, he, hle⟩ := h.cooled a ha
    exact ⟨e, he, decide_eq_true (Nat.lt_of_lt_of_le hlt hle)⟩

/-- The sends of a window are fewer than the limit while a ticket of it is
pending. -/
theorem Accepting.own_lt (h : Accepting limit now pending l) (ht : pending t) :
    (l.own t.window).length < limit := by
  have hmem : ∀ a ∈ l.own t.window, a ∈ l.sends
      ∧ a.ticket.window = t.window := by
    intro a ha
    obtain ⟨ha, hwindow⟩ := List.mem_filter.mp ha
    exact ⟨ha, of_decide_eq_true hwindow⟩
  have htickets : ((l.own t.window).map Send.ticket).Nodup :=
    (List.filter_sublist.map Send.ticket).nodup h.distinct
  have hcounts : ((l.own t.window).map fun a => a.ticket.count).Nodup := by
    have hcomp : (l.own t.window).map (fun a => a.ticket.count)
        = ((l.own t.window).map Send.ticket).map Ticket.count := by
      rw [List.map_map]
      rfl
    rw [hcomp]
    refine List.Nodup.map_on ?_ htickets
    intro x hx y hy hcount
    obtain ⟨a, ha, rfl⟩ := List.mem_map.mp hx
    obtain ⟨b, hb, rfl⟩ := List.mem_map.mp hy
    have hwindow := (hmem a ha).2.trans (hmem b hb).2.symm
    cases hx' : a.ticket
    cases hy' : b.ticket
    rw [hx', hy'] at hwindow hcount
    rw [Ticket.mk.injEq]
    exact ⟨hwindow, hcount⟩
  have hsubset : ((l.own t.window).map fun a => a.ticket.count).toFinset
      ⊆ (Finset.Icc 1 limit).erase t.count := by
    intro n hn
    obtain ⟨a, ha, rfl⟩ := List.mem_map.mp (List.mem_toFinset.mp hn)
    obtain ⟨hsend, hwindow⟩ := hmem a ha
    rw [Finset.mem_erase, Finset.mem_Icc]
    refine ⟨fun hcount => h.apart a hsend ?_, h.bounded a hsend⟩
    have hsame : a.ticket = t := by
      cases hx : a.ticket
      cases ht' : t
      rw [hx, ht'] at hwindow hcount
      rw [Ticket.mk.injEq]
      exact ⟨hwindow, hcount⟩
    rw [hsame]
    exact ht
  have hcard := Finset.card_le_card hsubset
  have hpending := h.pendingBounded t ht
  rw [List.toFinset_card_of_nodup hcounts, List.length_map,
    Finset.card_erase_of_mem (Finset.mem_Icc.mpr hpending), Nat.card_Icc] at hcard
  omega

-- =============================================================== commands

/-- Fewer calls may be pending. -/
theorem Accepting.mono (h : Accepting limit now pending l)
    {pending' : Ticket → Prop} (hpending : ∀ t, pending' t → pending t) :
    Accepting limit now pending' l :=
  { h with
    pendingBounded := fun t ht => h.pendingBounded t (hpending t ht)
    pendingIssued := fun t ht => h.pendingIssued t (hpending t ht)
    apart := fun a ha ht => h.apart a ha (hpending _ ht) }

/-- What holds now holds later. -/
theorem Accepting.later (h : Accepting limit now pending l) {now' : Nat}
    (hle : now ≤ now') : Accepting limit now' pending l :=
  { h with past := fun a ha => Nat.le_trans (h.past a ha) hle }

/-- A refusal sends nothing. -/
theorem Accepting.refuse (h : Accepting limit now pending l) (at' : Nat) :
    Accepting limit now pending (l.refuse at') :=
  { h with }

/-- The counter as it is, or as it would be created. -/
theorem incremented_cases (l : Limiter) (now : Nat) :
    (∃ k, l.hourly = some k ∧ l.current now = some k
        ∧ l.incremented now = { k with count := k.count + 1 })
      ∨ l.current now = none ∧ l.incremented now = ⟨l.windows, 1, none⟩ := by
  unfold incremented
  cases hcurrent : l.current now with
  | none => exact Or.inr ⟨rfl, rfl⟩
  | some k =>
      left
      exact ⟨k, (Option.filter_eq_some_iff.mp hcurrent).1, rfl, rfl⟩

/-- The ticket of a call counts the call itself. -/
theorem count_ticket (l : Limiter) (now : Nat) :
    (l.ticket now).count = l.count now + 1 := by
  unfold ticket incremented count
  cases l.current now with
  | none => rfl
  | some k => rfl

/-- The window of a ticket is one of those opened so far. -/
theorem window_ticket_lt (h : Accepting limit now pending l) :
    (l.ticket now).window < (l.incr now).windows := by
  unfold ticket incr
  obtain ⟨k, hk, hcurrent, heq⟩ | ⟨hcurrent, heq⟩ := incremented_cases l now
  · have := (h.latest k hk).1
    rw [heq, hcurrent]
    show k.window < l.windows
    omega
  · rw [heq, hcurrent]
    exact Nat.lt_succ_self l.windows

/-- What was issued before stays so, and is not what comes next. -/
theorem Issued.incr (ht : l.Issued t) :
    (l.incr now).Issued t ∧ t ≠ l.ticket now := by
  obtain ⟨hwindow, hcount⟩ := ht
  unfold Issued Limiter.incr ticket
  obtain ⟨k, hk, hcurrent, heq⟩ | ⟨hcurrent, heq⟩ := incremented_cases l now
  · rw [heq, hcurrent]
    refine ⟨⟨hwindow, fun k' hk' hsame => ?_⟩, fun hsame => ?_⟩
    · cases hk'
      have hle := hcount k hk hsame
      exact Nat.le_succ_of_le hle
    · have hle := hcount k hk (congrArg Ticket.window hsame).symm
      have hnext : t.count = k.count + 1 := congrArg Ticket.count hsame
      omega
  · rw [heq, hcurrent]
    refine ⟨⟨Nat.lt_succ_of_lt hwindow, fun k' hk' hsame => ?_⟩,
      fun hsame => ?_⟩
    · cases hk'
      have hne : l.windows = t.window := hsame
      omega
    · have hne : t.window = l.windows := congrArg Ticket.window hsame
      omega

/-- An increment draws a ticket that none of the sends has. -/
theorem Accepting.incr (h : Accepting limit now pending l) :
    Accepting limit now pending (l.incr now) :=
  { h with
    issued := fun a ha => (h.issued a ha).incr.1
    pendingIssued := fun t ht => (h.pendingIssued t ht).incr.1
    latest := by
      intro k hk
      cases hk
      unfold Limiter.incr
      obtain ⟨k, hk, hcurrent, heq⟩ | ⟨hcurrent, heq⟩ := incremented_cases l now
      · rw [heq, hcurrent]
        exact ⟨(h.latest k hk).1, Nat.succ_pos k.count⟩
      · rw [heq, hcurrent]
        exact ⟨rfl, Nat.one_pos⟩ }

/-- The call goes on with what `INCR` returned. -/
theorem Accepting.incrPending (h : Accepting limit now pending l)
    (hcount : (l.ticket now).count ≤ limit) :
    Accepting limit now (fun t => pending t ∨ t = l.ticket now) (l.incr now) :=
  { h.incr with
    pendingBounded := by
      intro t h
      rcases h with ht | rfl
      · exact h.pendingBounded t ht
      · rw [count_ticket] at hcount ⊢
        omega
    pendingIssued := by
      intro t h
      rcases h with ht | rfl
      · exact h.incr.pendingIssued t ht
      · refine ⟨window_ticket_lt h, fun k hk _ => ?_⟩
        cases hk
        exact Nat.le_refl _
    apart := by
      intro a ha h
      rcases h with ht | hsame
      · exact h.apart a ha ht
      · exact (h.issued a ha).incr.2 hsame }

/-- A time to live changes neither the window of a counter nor its count. -/
theorem hourly_expire {k : HourlyKey} (h : (l.expire now).hourly = some k) :
    ∃ k₀, l.hourly = some k₀ ∧ k₀.window = k.window ∧ k₀.count = k.count
      ∧ k.expiresAt = some (now + resendHour) := by
  obtain ⟨k₀, hk₀, rfl⟩ := Option.map_eq_some_iff.mp h
  exact ⟨k₀, (Option.filter_eq_some_iff.mp hk₀).1, rfl, rfl, rfl⟩

/-- Tickets that were issued stay so when the counter is given a time to
live. -/
theorem Issued.expire (ht : l.Issued t) : (l.expire now).Issued t := by
  refine ⟨ht.1, fun k hk hsame => ?_⟩
  obtain ⟨k₀, hk₀, hwindow, hcount, -⟩ := hourly_expire hk
  rw [← hcount]
  exact ht.2 k₀ hk₀ (hwindow.trans hsame)

/-- A time to live changes nothing about the sends. -/
theorem Accepting.expire (h : Accepting limit now pending l) :
    Accepting limit now pending (l.expire now) :=
  { h with
    issued := fun a ha => (h.issued a ha).expire
    pendingIssued := fun t ht => (h.pendingIssued t ht).expire
    latest := by
      intro k hk
      obtain ⟨k₀, hk₀, hwindow, hcount, -⟩ := hourly_expire hk
      rw [← hwindow, ← hcount]
      exact h.latest k₀ hk₀ }

/-- A pending call whose key for the cooldown was free is accepted, and is a
send from then on. -/
theorem Accepting.accept (h : Accepting limit now pending l) (ht : pending t) :
    Accepting limit now (fun t' => pending t' ∧ t' ≠ t) (l.accept now t) where
  past := by
    intro a ha
    rcases List.mem_cons.mp ha with rfl | ha
    · exact Nat.le_refl now
    · exact h.past a ha
  cooled := by
    intro a ha
    refine ⟨now + resendCooldown, rfl, ?_⟩
    rcases List.mem_cons.mp ha with rfl | ha
    · exact Nat.le_refl _
    · exact Nat.add_le_add_right (h.past a ha) _
  cooldown := by
    intro e he
    cases he
    exact ⟨⟨now, t⟩, List.mem_cons_self, rfl⟩
  bounded := by
    intro a ha
    rcases List.mem_cons.mp ha with rfl | ha
    · exact h.pendingBounded t ht
    · exact h.bounded a ha
  pendingBounded t' ht' := h.pendingBounded t' ht'.1
  issued := by
    intro a ha
    rcases List.mem_cons.mp ha with rfl | ha
    · exact h.pendingIssued t ht
    · exact h.issued a ha
  pendingIssued t' ht' := h.pendingIssued t' ht'.1
  distinct := by
    refine List.nodup_cons.mpr ⟨fun hmem => ?_, h.distinct⟩
    obtain ⟨a, ha, hsame⟩ := List.mem_map.mp hmem
    have hsame' : a.ticket = t := hsame
    apply h.apart a ha
    rw [hsame']
    exact ht
  apart := by
    intro a ha ht'
    rcases List.mem_cons.mp ha with rfl | ha
    · exact ht'.2 rfl
    · exact h.apart a ha ht'.1
  latest := h.latest

-- ================================================================= laws

/-- The sends are a minute apart, and any hour has at most `limit`. -/
def Kept (limit : Nat) (l : Limiter) : Prop :=
  Spaced resendCooldown l.times ∧ Rated resendHour limit l.times

/-- No send is too close to another where there is none. -/
theorem kept_fresh : Kept limit fresh := ⟨spaced_nil, rated_nil⟩

/-- The sends so far leave room for a window that opens now. -/
def ClearFor (limit now : Nat) (l : Limiter) : Prop :=
  Clear resendHour resendCooldown limit now l.times

/-- The sends since the latest window has opened are its own, the ones
before are clear of it, and so are the calls that are on their way. -/
structure Placed (limit now : Nat) (pending : Ticket → Prop) (l : Limiter) :
    Prop where
  pendingLatest : ∀ t, pending t → t.window + 1 = l.windows
  placed : ∃ own old opened, l.sends = own ++ old
    ∧ (∀ a ∈ own, a.ticket.window + 1 = l.windows ∧ opened ≤ a.time)
    ∧ opened ≤ now
    ∧ Clear resendHour resendCooldown limit opened (old.map Send.time)

/-- Before any send no window is open. -/
theorem fresh_placed : Placed limit now (fun _ => False) fresh where
  pendingLatest := nofun
  placed := ⟨[], [], 0, rfl, nofun, Nat.zero_le now, nofun⟩

/-- Fewer calls may be pending. -/
theorem Placed.mono (h : Placed limit now pending l)
    {pending' : Ticket → Prop} (hpending : ∀ t, pending' t → pending t) :
    Placed limit now pending' l where
  pendingLatest t ht := h.pendingLatest t (hpending t ht)
  placed := h.placed

/-- What is placed now is placed later. -/
theorem Placed.later (h : Placed limit now pending l) {now' : Nat}
    (hle : now ≤ now') : Placed limit now' pending l where
  pendingLatest := h.pendingLatest
  placed := by
    obtain ⟨own, old, opened, hsends, hown, hopened, hclear⟩ := h.placed
    exact ⟨own, old, opened, hsends, hown, hopened.trans hle, hclear⟩

/-- A refusal moves no send. -/
theorem Placed.refuse (h : Placed limit now pending l) (at' : Nat) :
    Placed limit now pending (l.refuse at') :=
  ⟨h.pendingLatest, h.placed⟩

/-- Nor does a time to live. -/
theorem Placed.expire (h : Placed limit now pending l) (at' : Nat) :
    Placed limit now pending (l.expire at') :=
  ⟨h.pendingLatest, h.placed⟩

/-- A counter that is there goes on with its window. -/
theorem Placed.incr (h : Placed limit now pending l)
    (hl : Accepting limit now pending l) {k : HourlyKey}
    (hk : l.current now = some k) :
    Placed limit now (fun t => pending t ∨ t = l.ticket now)
      (l.incr now) := by
  have hwindows : (l.incr now).windows = l.windows := by
    unfold Limiter.incr
    rw [hk]
    rfl
  have hticket : (l.ticket now).window = k.window := by
    unfold ticket incremented
    rw [hk]
  constructor
  · intro t ht
    rw [hwindows]
    rcases ht with ht | rfl
    · exact h.pendingLatest t ht
    · rw [hticket]
      exact (hl.latest k (Option.filter_eq_some_iff.mp hk).1).1
  · rw [hwindows]
    exact h.placed

/-- A window opens while no call is on its way to its send. -/
theorem placed_opened (hnone : l.current now = none)
    (hclear : l.ClearFor limit now) :
    Placed limit now (fun t => t = l.ticket now) (l.incr now) where
  pendingLatest t ht := by
    rw [ht]
    unfold ticket Limiter.incr incremented
    rw [hnone]
    rfl
  placed := ⟨[], l.sends, now, rfl, nofun, Nat.le_refl now, hclear⟩

/-- A call of the latest window is accepted into it. -/
theorem Placed.accept (h : Placed limit now pending l) (ht : pending t) :
    Placed limit now pending (l.accept now t) where
  pendingLatest := h.pendingLatest
  placed := by
    obtain ⟨own, old, opened, hsends, hown, hopened, hclear⟩ := h.placed
    refine ⟨⟨now, t⟩ :: own, old, opened, ?_, fun a ha => ?_, hopened, hclear⟩
    · show ⟨now, t⟩ :: l.sends = _
      rw [hsends]
      rfl
    · rcases List.mem_cons.mp ha with rfl | ha
      · exact ⟨h.pendingLatest t ht, hopened⟩
      · exact hown a ha

/-- A send a minute after the others keeps the laws. -/
theorem Accepting.kept_accept (h : Accepting limit now pending l)
    (hplaced : Placed limit now pending l) (ht : pending t)
    (hkept : l.Kept limit)
    (hcooled : ∀ a ∈ l.sends, a.time + resendCooldown ≤ now) :
    (l.accept now t).Kept limit := by
  obtain ⟨own, old, opened, hsends, hown, hopened, hclear⟩ := hplaced.placed
  have hsplit : l.times = own.map Send.time ++ old.map Send.time := by
    unfold times
    rw [hsends, List.map_append]
  have hspaced : Spaced resendCooldown (now :: l.times) := by
    refine spaced_cons_iff.mpr ⟨fun x hx => ?_, hkept.1⟩
    obtain ⟨a, ha, rfl⟩ := List.mem_map.mp hx
    exact hcooled a ha
  -- the tickets of the window are fewer than the limit
  have hlt : own.length < limit := by
    refine Nat.lt_of_le_of_lt ?_ (h.own_lt ht)
    have hself : own.filter (fun a => a.ticket.window = t.window) = own := by
      refine List.filter_eq_self.mpr fun a ha => decide_eq_true ?_
      have hwindow := (hown a ha).1
      have hlatest := hplaced.pendingLatest t ht
      omega
    unfold Limiter.own
    rw [hsends, List.filter_append, hself, List.length_append]
    exact Nat.le_add_right _ _
  refine ⟨hspaced, ?_⟩
  show Rated resendHour limit (now :: l.times)
  rw [hsplit] at hspaced ⊢
  refine rated_cons_of_clear hspaced ?_ ?_ hopened hclear (by decide) ?_
  · rw [List.length_map]
    exact hlt
  · intro x hx
    obtain ⟨a, ha, rfl⟩ := List.mem_map.mp hx
    exact (hown a ha).2
  · rw [← hsplit]
    exact hkept.2

-- ============================================================= the script

/-- The script gives a time to live or leaves the counter as it is. -/
theorem expireIfPersistent_cases (l : Limiter) (now : Nat) :
    l.expireIfPersistent now = l.expire now
      ∨ l.expireIfPersistent now = l := by
  unfold expireIfPersistent
  split
  · exact Or.inl rfl
  · exact Or.inr rfl

/-- What the script leaves: a refusal, or one more send. -/
theorem checkResendRateLimit_cases (l : Limiter) (now : Nat) :
    (l.onCooldown now = true ∨ emailHourlyLimit ≤ l.count now)
        ∧ l.checkResendRateLimit now = l.refuse now
      ∨ l.onCooldown now = false ∧ l.count now < emailHourlyLimit
        ∧ l.checkResendRateLimit now = ((l.incr now).expireIfPersistent
          now).accept now (l.ticket now) := by
  unfold checkResendRateLimit
  cases hcooldown : l.onCooldown now with
  | true => exact Or.inl ⟨Or.inl rfl, if_pos rfl⟩
  | false =>
      rw [if_neg Bool.false_ne_true]
      by_cases hcount : emailHourlyLimit ≤ l.count now
      · exact Or.inl ⟨Or.inr hcount, if_pos hcount⟩
      · exact Or.inr ⟨rfl, Nat.lt_of_not_le hcount, if_neg hcount⟩

/-- The ticket of the script, before its send. -/
theorem Accepting.script
    (h : Accepting emailHourlyLimit now (fun _ => False) l)
    (hcount : l.count now < emailHourlyLimit) :
    Accepting emailHourlyLimit now (fun t => False ∨ t = l.ticket now)
      ((l.incr now).expireIfPersistent now) := by
  have hpending := h.incrPending (by rw [count_ticket]; exact hcount)
  rcases expireIfPersistent_cases (l.incr now) now with heq | heq
  · rw [heq]
    exact hpending.expire
  · rw [heq]
    exact hpending

/-- The script for e-mails keeps what holds of the sends. -/
theorem Accepting.checkResendRateLimit
    (h : Accepting emailHourlyLimit now (fun _ => False) l) :
    Accepting emailHourlyLimit now (fun _ => False)
      (l.checkResendRateLimit now) := by
  obtain ⟨-, heq⟩ | ⟨-, hcount, heq⟩ := checkResendRateLimit_cases l now
  · rw [heq]
    exact h.refuse now
  · rw [heq]
    refine ((h.script hcount).accept (Or.inr rfl)).mono fun t ht => ?_
    exact ht.elim

/-- The commands before the send do not touch what the laws are about. -/
theorem sends_script (l : Limiter) (now : Nat) :
    ((l.incr now).expireIfPersistent now).sends = l.sends
      ∧ ((l.incr now).expireIfPersistent now).cooldown = l.cooldown := by
  rcases expireIfPersistent_cases (l.incr now) now with heq | heq
  · rw [heq]
    exact ⟨rfl, rfl⟩
  · rw [heq]
    exact ⟨rfl, rfl⟩

/-- If the script opens a window, the e-mails so far are clear of it. -/
def OpensClear (l : Limiter) (now : Nat) : Prop :=
  l.onCooldown now = false → l.current now = none →
    l.ClearFor emailHourlyLimit now

/-- If the window it opens is clear of the sends before, the script places
its send. -/
theorem Placed.script
    (h : Placed emailHourlyLimit now (fun _ => False) l)
    (hl : Accepting emailHourlyLimit now (fun _ => False) l)
    (hcooldown : l.onCooldown now = false) (hclear : l.OpensClear now) :
    Placed emailHourlyLimit now (fun t => False ∨ t = l.ticket now)
      ((l.incr now).expireIfPersistent now) := by
  have hincr : Placed emailHourlyLimit now (fun t => False ∨ t = l.ticket now)
      (l.incr now) := by
    cases hcurrent : l.current now with
    | some k => exact h.incr hl hcurrent
    | none =>
        refine (placed_opened hcurrent (hclear hcooldown hcurrent)).mono ?_
        exact fun t ht => ht.resolve_left id
  rcases expireIfPersistent_cases (l.incr now) now with heq | heq
  · rw [heq]
    exact hincr.expire now
  · rw [heq]
    exact hincr

/-- A clear opening keeps the laws, and what they rest on. -/
theorem Accepting.kept_checkResendRateLimit
    (h : Accepting emailHourlyLimit now (fun _ => False) l)
    (hplaced : Placed emailHourlyLimit now (fun _ => False) l)
    (hkept : l.Kept emailHourlyLimit) (hclear : l.OpensClear now) :
    (l.checkResendRateLimit now).Kept emailHourlyLimit
      ∧ Placed emailHourlyLimit now (fun _ => False)
        (l.checkResendRateLimit now) := by
  obtain ⟨-, heq⟩ | ⟨hcooldown, hcount, heq⟩ := checkResendRateLimit_cases l now
  · rw [heq]
    exact ⟨hkept, hplaced.refuse now⟩
  · rw [heq]
    obtain ⟨hsends, hkey⟩ := sends_script l now
    have hscript := hplaced.script h hcooldown hclear
    have hkept' : ((l.incr now).expireIfPersistent now).Kept
        emailHourlyLimit := by
      unfold Kept times
      rw [hsends]
      exact hkept
    have hcooled : ∀ a ∈ ((l.incr now).expireIfPersistent now).sends,
        a.time + resendCooldown ≤ now := by
      intro a ha
      refine Nat.le_of_not_lt fun hlt => ?_
      have hon := (h.script hcount).onCooldown_iff.mpr ⟨a, ha, hlt⟩
      unfold onCooldown at hcooldown hon
      rw [hkey, hcooldown] at hon
      cases hon
    refine ⟨(h.script hcount).kept_accept hscript (Or.inr rfl) hkept' hcooled,
      ?_⟩
    exact (hscript.accept (Or.inr rfl)).mono fun _ => False.elim

-- ============================================================== refusals

/-- A refusal is less than an hour after a send. -/
def SentWithinHour (l : Limiter) (r : Nat) : Prop :=
  ∃ a ∈ l.sends, r < a.time + resendHour

/-- The counter has its time to live, and there was a send since it was
given. -/
def EndsBySend (l : Limiter) (now : Nat) : Prop :=
  ∀ k, l.current now = some k →
    ∃ e, k.expiresAt = some e ∧ ∃ a ∈ l.sends, e ≤ a.time + resendHour

/-- One more send does not take a recent one away. -/
theorem SentWithinHour.accept {r : Nat} (h : l.SentWithinHour r) :
    (l.accept now t).SentWithinHour r := by
  obtain ⟨a, ha, hlt⟩ := h
  exact ⟨a, List.mem_cons_of_mem _ ha, hlt⟩

/-- Who is refused by the cooldown was sent a code within the hour. -/
theorem Accepting.sentWithinHour (h : Accepting limit now pending l)
    (hcooldown : l.onCooldown now = true) : l.SentWithinHour now := by
  obtain ⟨a, ha, hlt⟩ := h.onCooldown_iff.mp hcooldown
  refine ⟨a, ha, ?_⟩
  unfold resendCooldown resendHour at *
  omega

/-- A counter that is there and ends by a send has one of the last hour. -/
theorem EndsBySend.sentWithinHour (h : l.EndsBySend now) {k : HourlyKey}
    (hk : l.current now = some k) : l.SentWithinHour now := by
  obtain ⟨e, he, a, ha, hle⟩ := h k hk
  have hlive := (Option.filter_eq_some_iff.mp hk).2
  rw [he, Option.all_some, decide_eq_true_eq] at hlive
  exact ⟨a, ha, Nat.lt_of_lt_of_le hlive hle⟩

/-- The counter for e-mails ends within an hour of one, and so does each
refusal. -/
structure Ending (l : Limiter) : Prop where
  expires : ∀ k, l.hourly = some k →
    ∃ e, k.expiresAt = some e ∧ ∃ a ∈ l.sends, e ≤ a.time + resendHour
  refused : ∀ r ∈ l.refused, l.SentWithinHour r

/-- Before any send there is no counter to end. -/
theorem fresh_ending : Ending fresh where
  expires := nofun
  refused := nofun

/-- A counter that ends by a send does so at any time. -/
theorem Ending.endsBySend (h : l.Ending) (now : Nat) : l.EndsBySend now :=
  fun k hk => h.expires k (Option.filter_eq_some_iff.mp hk).1

/-- The first number of a window is that of a new counter. -/
theorem Accepting.count_ticket_eq_one_iff
    (h : Accepting limit now pending l) :
    (l.ticket now).count = 1 ↔ l.current now = none := by
  unfold ticket
  obtain ⟨k, hk, hcurrent, heq⟩ | ⟨hcurrent, heq⟩ := incremented_cases l now
  · rw [heq, hcurrent]
    have hpos := (h.latest k hk).2
    refine iff_of_false (fun hone => ?_) nofun
    have hzero : k.count + 1 = 1 := hone
    omega
  · rw [heq, hcurrent]
    exact iff_of_true rfl rfl

/-- A full counter is there. -/
theorem exists_current (h : 0 < l.count now) :
    ∃ k, l.current now = some k := by
  unfold count at h
  cases hcurrent : l.current now with
  | some k => exact ⟨k, rfl⟩
  | none =>
      rw [hcurrent] at h
      cases h

/-- The counter that the script leaves ends in an hour, or as before. -/
theorem hourly_script (l : Limiter) (now : Nat) {k : HourlyKey}
    (hk : ((l.incr now).expireIfPersistent now).hourly = some k) :
    k.expiresAt = some (now + resendHour)
      ∨ ∃ k₀, l.hourly = some k₀ ∧ k.expiresAt = k₀.expiresAt := by
  unfold expireIfPersistent at hk
  split at hk
  · left
    obtain ⟨k₀, -, -, -, he⟩ := hourly_expire hk
    exact he
  · next hnot =>
      right
      have hincr : l.incremented now = k := Option.some.inj hk
      obtain ⟨k₀, hk₀, -, heq⟩ | ⟨-, heq⟩ := incremented_cases l now
      · refine ⟨k₀, hk₀, ?_⟩
        rw [← hincr, heq]
      · -- a new counter has no time to live, so the script gives it one
        rw [heq] at hincr
        subst hincr
        have hcurrent : (l.incr now).current now = some ⟨l.windows, 1, none⟩ :=
          Option.filter_eq_some_iff.mpr ⟨hk, rfl⟩
        rw [hcurrent] at hnot
        exact absurd rfl hnot

/-- The script gives each window its end, and sends. -/
theorem Ending.checkResendRateLimit (h : l.Ending)
    (hl : Accepting emailHourlyLimit now (fun _ => False) l) :
    (l.checkResendRateLimit now).Ending := by
  obtain ⟨hrefused, heq⟩ | ⟨-, -, heq⟩ := checkResendRateLimit_cases l now
  · rw [heq]
    refine ⟨h.expires, fun r hr => ?_⟩
    rcases List.mem_cons.mp hr with rfl | hr
    · rcases hrefused with hon | hover
      · exact hl.sentWithinHour hon
      · obtain ⟨k, hk⟩ := exists_current (Nat.lt_of_lt_of_le (by decide) hover)
        exact (h.endsBySend r).sentWithinHour hk
    · exact h.refused r hr
  · rw [heq]
    obtain ⟨hsends, -⟩ := sends_script l now
    constructor
    · intro k hk
      rcases hourly_script l now hk with he | ⟨k₀, hk₀, he⟩
      · exact ⟨_, he, ⟨now, l.ticket now⟩, List.mem_cons_self, Nat.le_refl _⟩
      · obtain ⟨e, he', a, ha, hle⟩ := h.expires k₀ hk₀
        refine ⟨e, he.trans he', a, List.mem_cons_of_mem _ ?_, hle⟩
        rw [hsends]
        exact ha
    · intro r hr
      have hr' : r ∈ l.refused := by
        rcases expireIfPersistent_cases (l.incr now) now with heq' | heq'
        · rw [heq'] at hr
          exact hr
        · rw [heq'] at hr
          exact hr
      obtain ⟨a, ha, hlt⟩ := h.refused r hr'
      refine ⟨a, List.mem_cons_of_mem _ ?_, hlt⟩
      rw [hsends]
      exact ha

end Limiter

end Skrynia
