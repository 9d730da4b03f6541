/-
The limits on resends, over all runs of concurrent calls.

# The condition

`Careful` looks at the state before a step, and asks of it
- that a counter is only created when the sends before are clear of its
  window, and for codes that no call with a number is on its way then;
- that no other call has sent a code between the `GET` of a call and its
  `SET`, unless a minute before;
- that a full counter for codes refuses only with a time to live, and only
  if a code was sent since it was given.

# The invariant

`Sound` holds in every state: what the calls carry is what the keys have
returned to them. `Orderly` is what a careful run keeps: the laws, and for
each user where the sends stand to the latest window (`Placed`).
-/
import Skrynia.Auth.ResendWindows

namespace Skrynia

open Stepping Rolling

/-- The number with which a call is on its way to its send. -/
def PhonePhase.ticket : PhonePhase → Option Ticket
  | .expiring t | .setting t => some t
  | _ => none

/-- The call has read the cooldown, and goes on. -/
def PhonePhase.HasRead (phase : PhonePhase) : Prop :=
  phase ≠ .reading ∧ phase ≠ .ended

namespace ResendSystem

variable {s : ResendSystem} {c : Nat} {u : Uuid} {t : Ticket}
  {phase : PhonePhase} {call : PhoneCall}

/-- A call of the user has a number and may be accepted with it. -/
def Pending (s : ResendSystem) (u : Uuid) (t : Ticket) : Prop :=
  ∃ c call, s.calls c = some call ∧ call.userId = u
    ∧ call.phase.ticket = some t

-- ==================================================================== laws

/-- The laws on sends. -/
def Limited (s : ResendSystem) : Prop :=
  (∀ u, (s.email u).Kept emailHourlyLimit)
    ∧ ∀ u, (s.phone u).Kept phoneHourlyLimit

/-- The law on refusals: each is less than an hour after a send. -/
def RefusalsEnd (s : ResendSystem) : Prop :=
  (∀ u, ∀ r ∈ (s.email u).refused, (s.email u).SentWithinHour r)
    ∧ ∀ u, ∀ r ∈ (s.phone u).refused, (s.phone u).SentWithinHour r

/-- A counter for codes may be created: the sends before are clear of its
window, and no other call has a number. -/
def OpensClear (s : ResendSystem) (u : Uuid) : Prop :=
  (s.phone u).current s.now = none →
    (s.phone u).ClearFor phoneHourlyLimit s.now ∧ ∀ t, ¬ s.Pending u t

/-- What other calls have sent since the call's `GET` is a minute old. -/
def Alone (s : ResendSystem) (call : PhoneCall) : Prop :=
  ∀ a ∈ (s.phone call.userId).sends, call.readAt ≤ a.time →
    a.time + resendCooldown ≤ s.now

/-- The steps with which no law can be broken. -/
def Careful (s : ResendSystem) : ResendEvent → Prop
  | .email u => (s.email u).OpensClear s.now
  | .incr c => ∀ call, s.calls c = some call → call.phase = .incrementing →
      s.OpensClear call.userId
        ∧ (phoneHourlyLimit ≤ (s.phone call.userId).count s.now →
          (s.phone call.userId).EndsBySend s.now)
  | .set c => ∀ call t, s.calls c = some call → call.phase = .setting t →
      s.Alone call
  | _ => True

-- ========================================================== one call moves

/-- A step of one call: what becomes of it, and of the keys of its user. -/
def moved (s : ResendSystem) (c : Nat) (call : PhoneCall) (l : Limiter) :
    ResendSystem :=
  { s.withPhone call.userId l with
    calls := Function.update s.calls c (some call) }

/-- A move is one of its own call. -/
theorem calls_moved (s : ResendSystem) (c : Nat) (call : PhoneCall)
    (l : Limiter) (d : Nat) : (s.moved c call l).calls d
      = if d = c then some call else s.calls d := by
  show Function.update s.calls c _ d = _
  rw [Function.update_apply]

/-- And of the limiter of that call's user. -/
theorem phone_moved (s : ResendSystem) (c : Nat) (call : PhoneCall)
    (l : Limiter) (v : Uuid) : (s.moved c call l).phone v
      = if v = call.userId then l else s.phone v := by
  show Function.update s.phone call.userId l v = _
  rw [Function.update_apply]

/-- A change of phase leaves the limiter as it is. -/
theorem setPhase_eq_moved (s : ResendSystem) (c : Nat) (call : PhoneCall)
    (phase : PhonePhase) : s.setPhase c call phase
      = s.moved c { call with phase := phase } (s.phone call.userId) := by
  unfold moved withPhone setPhase
  rw [Function.update_eq_self]

/-- What a step does to the calls for codes. -/
inductive CallStep (s : ResendSystem) : ResendEvent → ResendSystem → Prop where
  | idle {e : ResendEvent} : CallStep s e s
  | begun {c : Nat} {u : Uuid} (new : s.calls c = none) :
      CallStep s (.phone c u)
        (s.moved c ⟨u, .reading, s.now⟩ (s.phone u))
  | cooling {c : Nat} {u : Uuid} {r : Nat}
      (call : s.calls c = some ⟨u, .reading, r⟩)
      (cooldown : (s.phone u).onCooldown s.now = true) :
      CallStep s (.get c)
        (s.moved c ⟨u, .ended, r⟩ ((s.phone u).refuse s.now))
  | read {c : Nat} {u : Uuid} {r : Nat}
      (call : s.calls c = some ⟨u, .reading, r⟩)
      (cooldown : (s.phone u).onCooldown s.now = false) :
      CallStep s (.get c) (s.moved c ⟨u, .incrementing, s.now⟩ (s.phone u))
  | opened {c : Nat} {u : Uuid} {r : Nat}
      (call : s.calls c = some ⟨u, .incrementing, r⟩)
      (first : ((s.phone u).ticket s.now).count = 1) :
      CallStep s (.incr c)
        (s.moved c ⟨u, .expiring ((s.phone u).ticket s.now), r⟩
          ((s.phone u).incr s.now))
  | limited {c : Nat} {u : Uuid} {r : Nat}
      (call : s.calls c = some ⟨u, .incrementing, r⟩)
      (beyond : phoneHourlyLimit < ((s.phone u).ticket s.now).count) :
      CallStep s (.incr c)
        (s.moved c ⟨u, .ended, r⟩ (((s.phone u).incr s.now).refuse s.now))
  | counted {c : Nat} {u : Uuid} {r : Nat}
      (call : s.calls c = some ⟨u, .incrementing, r⟩)
      (further : ((s.phone u).ticket s.now).count ≠ 1)
      (room : ((s.phone u).ticket s.now).count ≤ phoneHourlyLimit) :
      CallStep s (.incr c)
        (s.moved c ⟨u, .setting ((s.phone u).ticket s.now), r⟩
          ((s.phone u).incr s.now))
  | expired {c : Nat} {u : Uuid} {r : Nat} {t : Ticket}
      (call : s.calls c = some ⟨u, .expiring t, r⟩) :
      CallStep s (.expire c)
        (s.moved c ⟨u, .setting t, r⟩ ((s.phone u).expire s.now))
  | accepted {c : Nat} {u : Uuid} {r : Nat} {t : Ticket}
      (call : s.calls c = some ⟨u, .setting t, r⟩) :
      CallStep s (.set c)
        (s.moved c ⟨u, .ended, r⟩ ((s.phone u).accept s.now t))
  | crashed {c : Nat} {u : Uuid} {p : PhonePhase} {r : Nat}
      (call : s.calls c = some ⟨u, p, r⟩) :
      CallStep s (.crash c) (s.moved c ⟨u, .ended, r⟩ (s.phone u))

/-- What is done to a call that is there. -/
theorem withCall_some (hc : s.calls c = some call)
    (f : PhoneCall → ResendSystem) : s.withCall c f = f call := by
  unfold withCall
  rw [hc]

/-- Nothing is done to one that is not. -/
theorem withCall_none (hc : s.calls c = none)
    (f : PhoneCall → ResendSystem) : s.withCall c f = s := by
  unfold withCall
  rw [hc]

/-- The `GET` of a call: on cooldown it is refused, else it goes on to
count. -/
theorem step_get {r : Nat} (hc : s.calls c = some ⟨u, .reading, r⟩) :
    step s (.get c)
      = if (s.phone u).onCooldown s.now then
          s.moved c ⟨u, .ended, r⟩ ((s.phone u).refuse s.now)
        else s.moved c ⟨u, .incrementing, s.now⟩ (s.phone u) := by
  show s.withCall c _ = _
  rw [withCall_some hc]
  dsimp only
  split
  · rfl
  · rw [setPhase_eq_moved]

/-- The `INCR`: the first number is followed by a time to live, one within
the limit by the `SET`, another is refused. -/
theorem step_incr {r : Nat} (hc : s.calls c = some ⟨u, .incrementing, r⟩) :
    step s (.incr c)
      = if ((s.phone u).ticket s.now).count = 1 then
          s.moved c ⟨u, .expiring ((s.phone u).ticket s.now), r⟩
            ((s.phone u).incr s.now)
        else if phoneHourlyLimit < ((s.phone u).ticket s.now).count then
          s.moved c ⟨u, .ended, r⟩ (((s.phone u).incr s.now).refuse s.now)
        else s.moved c ⟨u, .setting ((s.phone u).ticket s.now), r⟩
          ((s.phone u).incr s.now) := by
  show s.withCall c _ = _
  rw [withCall_some hc]
  rfl

/-- The `EXPIRE` of a new counter. -/
theorem step_expire {r : Nat} (hc : s.calls c = some ⟨u, .expiring t, r⟩) :
    step s (.expire c)
      = s.moved c ⟨u, .setting t, r⟩ ((s.phone u).expire s.now) := by
  show s.withCall c _ = _
  rw [withCall_some hc]
  rfl

/-- The `SET`, with which the code is sent. -/
theorem step_set {r : Nat} (hc : s.calls c = some ⟨u, .setting t, r⟩) :
    step s (.set c)
      = s.moved c ⟨u, .ended, r⟩ ((s.phone u).accept s.now t) := by
  show s.withCall c _ = _
  rw [withCall_some hc]
  rfl

/-- A call begins with the `GET`. -/
theorem step_phone (hc : s.calls c = none) (u : Uuid) :
    step s (.phone c u) = s.moved c ⟨u, .reading, s.now⟩ (s.phone u) := by
  show s.callPhone c u = _
  unfold callPhone
  rw [hc]
  dsimp only
  rw [setPhase_eq_moved]

/-- A statement of a call that was not made, or is over, does nothing. -/
theorem callStep_of_call {e : ResendEvent} {f : PhoneCall → ResendSystem}
    (hstep : step s e = s.withCall c f)
    (h : ∀ call, s.calls c = some call → CallStep s e (step s e)) :
    CallStep s e (step s e) := by
  cases hc : s.calls c with
  | none =>
      rw [hstep, withCall_none hc]
      exact .idle
  | some call => exact h call hc

/-- Nor does one that is not the next of its call. -/
theorem callStep_idle {e : ResendEvent} {f : PhoneCall → ResendSystem}
    (hstep : step s e = s.withCall c f) (hc : s.calls c = some call)
    (hf : f call = s) : CallStep s e (step s e) := by
  rw [hstep, withCall_some hc, hf]
  exact .idle

/-- All of these are steps of one call. -/
theorem step_call (s : ResendSystem) (e : ResendEvent)
    (htick : ∀ d, e ≠ .tick d) (hemail : ∀ u, e ≠ .email u) :
    CallStep s e (step s e) := by
  cases e with
  | tick d => exact absurd rfl (htick d)
  | email u => exact absurd rfl (hemail u)
  | phone c u =>
      cases hc : s.calls c with
      | none =>
          rw [step_phone hc]
          exact .begun hc
      | some call =>
          have hsame : step s (.phone c u) = s := by
            show s.callPhone c u = s
            unfold callPhone
            rw [hc]
          rw [hsame]
          exact .idle
  | get c =>
      refine callStep_of_call (c := c) rfl ?_
      rintro ⟨u, phase, r⟩ hc
      cases phase with
      | reading =>
          rw [step_get hc]
          by_cases hcooldown : (s.phone u).onCooldown s.now = true
          · rw [if_pos hcooldown]
            exact .cooling hc hcooldown
          · rw [if_neg hcooldown]
            exact .read hc (Bool.eq_false_of_not_eq_true hcooldown)
      | _ => exact callStep_idle rfl hc rfl
  | incr c =>
      refine callStep_of_call (c := c) rfl ?_
      rintro ⟨u, phase, r⟩ hc
      cases phase with
      | incrementing =>
          rw [step_incr hc]
          by_cases hfirst : ((s.phone u).ticket s.now).count = 1
          · rw [if_pos hfirst]
            exact .opened hc hfirst
          · rw [if_neg hfirst]
            by_cases hover :
                phoneHourlyLimit < ((s.phone u).ticket s.now).count
            · rw [if_pos hover]
              exact .limited hc hover
            · rw [if_neg hover]
              exact .counted hc hfirst (Nat.le_of_not_lt hover)
      | _ => exact callStep_idle rfl hc rfl
  | expire c =>
      refine callStep_of_call (c := c) rfl ?_
      rintro ⟨u, phase, r⟩ hc
      cases phase with
      | expiring t =>
          rw [step_expire hc]
          exact .expired hc
      | _ => exact callStep_idle rfl hc rfl
  | set c =>
      refine callStep_of_call (c := c) rfl ?_
      rintro ⟨u, phase, r⟩ hc
      cases phase with
      | setting t =>
          rw [step_set hc]
          exact .accepted hc
      | _ => exact callStep_idle rfl hc rfl
  | crash c =>
      show CallStep s _ (s.withCall c _)
      cases hc : s.calls c with
      | none =>
          rw [withCall_none hc]
          exact .idle
      | some call =>
          rw [withCall_some hc, setPhase_eq_moved]
          exact .crashed hc

-- ============================================================== invariant

/-- What the calls carry is what the keys have returned to them, and the
sends are known to a call, or came after its `GET`. -/
structure Sound (s : ResendSystem) : Prop where
  email : ∀ u, (s.email u).Accepting emailHourlyLimit s.now fun _ => False
  phone : ∀ u, (s.phone u).Accepting phoneHourlyLimit s.now (s.Pending u)
  single : ∀ c d x y t, s.calls c = some x → s.calls d = some y →
    x.userId = y.userId → x.phase.ticket = some t → y.phase.ticket = some t →
    c = d
  read : ∀ c x, s.calls c = some x → x.phase.HasRead → x.readAt ≤ s.now
    ∧ ∀ a ∈ (s.phone x.userId).sends,
      a.time + resendCooldown ≤ x.readAt ∨ x.readAt ≤ a.time

/-- What a careful run keeps: the laws, and what they rest on. -/
structure Orderly (s : ResendSystem) : Prop where
  emailKept : ∀ u, (s.email u).Kept emailHourlyLimit
  emailPlaced : ∀ u,
    (s.email u).Placed emailHourlyLimit s.now fun _ => False
  emailEnding : ∀ u, (s.email u).Ending
  phoneKept : ∀ u, (s.phone u).Kept phoneHourlyLimit
  phonePlaced : ∀ u, (s.phone u).Placed phoneHourlyLimit s.now (s.Pending u)
  phoneRefused : ∀ u, ∀ r ∈ (s.phone u).refused, (s.phone u).SentWithinHour r

/-- An orderly state keeps the limits on sends. -/
theorem Orderly.limited (h : s.Orderly) : s.Limited :=
  ⟨h.emailKept, h.phoneKept⟩

/-- And refusals end. -/
theorem Orderly.refusalsEnd (h : s.Orderly) : s.RefusalsEnd :=
  ⟨fun u => (h.emailEnding u).refused, h.phoneRefused⟩

/-- In the beginning there is no call, so no number is out. -/
theorem not_pending_start (u : Uuid) (t : Ticket) : ¬ start.Pending u t := by
  rintro ⟨c, call, hc, -⟩
  cases hc

/-- At the start no call is under way. -/
theorem start_sound : start.Sound where
  email _ := Limiter.fresh_accepting
  phone u := Limiter.fresh_accepting.mono (not_pending_start u)
  single _ _ _ _ _ hc := nomatch hc
  read _ _ hc := nomatch hc

/-- And nothing was sent. -/
theorem start_orderly : start.Orderly where
  emailKept _ := Limiter.kept_fresh
  emailPlaced _ := Limiter.fresh_placed
  emailEnding _ := Limiter.fresh_ending
  phoneKept _ := Limiter.kept_fresh
  phonePlaced u := Limiter.fresh_placed.mono (not_pending_start u)
  phoneRefused _ _ hr := nomatch hr

/-- The numbers that are out after a call has moved. -/
theorem pending_moved {l : Limiter} {v : Uuid} :
    (s.moved c call l).Pending v t
      ↔ call.userId = v ∧ call.phase.ticket = some t
        ∨ ∃ d x, d ≠ c ∧ s.calls d = some x ∧ x.userId = v
          ∧ x.phase.ticket = some t := by
  constructor
  · rintro ⟨d, x, hd, hv, ht⟩
    rw [calls_moved] at hd
    by_cases hdc : d = c
    · rw [if_pos hdc] at hd
      cases hd
      exact Or.inl ⟨hv, ht⟩
    · rw [if_neg hdc] at hd
      exact Or.inr ⟨d, x, hdc, hd, hv, ht⟩
  · rintro (⟨hv, ht⟩ | ⟨d, x, hdc, hd, hv, ht⟩)
    · refine ⟨c, call, ?_, hv, ht⟩
      rw [calls_moved, if_pos rfl]
    · refine ⟨d, x, ?_, hv, ht⟩
      rw [calls_moved, if_neg hdc]
      exact hd

/-- A number that was out before, or the one of the call that has moved. -/
theorem pending_or_of_moved {l : Limiter} {v : Uuid}
    (h : (s.moved c call l).Pending v t) :
    s.Pending v t ∨ call.userId = v ∧ call.phase.ticket = some t := by
  rcases pending_moved.mp h with h | ⟨d, x, -, hd, hv, ht⟩
  · exact Or.inr h
  · exact Or.inl ⟨d, x, hd, hv, ht⟩

/-- The numbers of another user are as they were. -/
theorem pending_of_moved_ne {l : Limiter} {v : Uuid} (hv : v ≠ call.userId)
    (h : (s.moved c call l).Pending v t) : s.Pending v t :=
  (pending_or_of_moved h).resolve_right fun hself => hv hself.1.symm

/-- A call that moves keeps the invariant if its user's keys do: other users
have keys of their own, and the other calls of the user have tickets that are
not its own. -/
theorem Sound.moved (hs : s.Sound) {l : Limiter}
    (hl : l.Accepting phoneHourlyLimit s.now
      ((s.moved c call l).Pending call.userId))
    (hnew : ∀ t, call.phase.ticket = some t → ∀ d x, d ≠ c →
      s.calls d = some x → x.userId = call.userId → x.phase.ticket ≠ some t)
    (hread : call.phase.HasRead → call.readAt ≤ s.now
      ∧ ∀ a ∈ l.sends,
        a.time + resendCooldown ≤ call.readAt ∨ call.readAt ≤ a.time)
    (hsends : ∀ a ∈ l.sends,
      a ∈ (s.phone call.userId).sends ∨ a.time = s.now) :
    (s.moved c call l).Sound where
  email := hs.email
  phone v := by
    rw [phone_moved]
    by_cases hv : v = call.userId
    · rw [if_pos hv, hv]
      exact hl
    · rw [if_neg hv]
      exact (hs.phone v).mono fun t ht => pending_of_moved_ne hv ht
  single := by
    intro d e x y t hd he hxy hx hy
    rw [calls_moved] at hd he
    by_cases hdc : d = c
    · by_cases hec : e = c
      · exact hdc.trans hec.symm
      · rw [if_pos hdc] at hd
        rw [if_neg hec] at he
        cases hd
        exact absurd hy (hnew t hx e y hec he hxy.symm)
    · by_cases hec : e = c
      · rw [if_neg hdc] at hd
        rw [if_pos hec] at he
        cases he
        exact absurd hx (hnew t hy d x hdc hd hxy)
      · rw [if_neg hdc] at hd
        rw [if_neg hec] at he
        exact hs.single d e x y t hd he hxy hx hy
  read := by
    intro d x hd hphase
    rw [calls_moved] at hd
    rw [phone_moved]
    by_cases hdc : d = c
    · rw [if_pos hdc] at hd
      cases hd
      rw [if_pos rfl]
      exact hread hphase
    · rw [if_neg hdc] at hd
      obtain ⟨hle, hall⟩ := hs.read d x hd hphase
      refine ⟨hle, fun a ha => ?_⟩
      by_cases hv : x.userId = call.userId
      · rw [if_pos hv] at ha
        rcases hsends a ha with hold | hnow
        · rw [← hv] at hold
          exact hall a hold
        · right
          rw [hnow]
          exact hle
      · rw [if_neg hv] at ha
        exact hall a ha

/-- A move of a call keeps order if it does for that call's user. -/
theorem Orderly.moved (h : s.Orderly) {l : Limiter}
    (hkept : l.Kept phoneHourlyLimit)
    (hplaced : l.Placed phoneHourlyLimit s.now
      ((s.moved c call l).Pending call.userId))
    (hrefused : ∀ r ∈ l.refused, l.SentWithinHour r) :
    (s.moved c call l).Orderly where
  emailKept := h.emailKept
  emailPlaced := h.emailPlaced
  emailEnding := h.emailEnding
  phoneKept v := by
    rw [phone_moved]
    split
    · exact hkept
    · exact h.phoneKept v
  phonePlaced v := by
    rw [phone_moved]
    by_cases hv : v = call.userId
    · rw [if_pos hv, hv]
      exact hplaced
    · rw [if_neg hv]
      exact (h.phonePlaced v).mono fun t ht => pending_of_moved_ne hv ht
  phoneRefused v r hr := by
    rw [phone_moved] at hr ⊢
    split at hr
    · next hv =>
        rw [if_pos hv]
        exact hrefused r hr
    · next hv =>
        rw [if_neg hv]
        exact h.phoneRefused v r hr

-- ============================================================== the steps

/-- A call that gets no number leaves those of its user as they are. -/
theorem pending_of_unnumbered {l : Limiter} (h : call.phase.ticket = none)
    (ht : (s.moved c call l).Pending call.userId t) :
    s.Pending call.userId t := by
  refine (pending_or_of_moved ht).resolve_right fun hself => ?_
  rw [h] at hself
  cases hself.2

/-- A call that has its number keeps it. -/
theorem pending_of_numbered {l : Limiter} {x : PhoneCall}
    (hc : s.calls c = some x) (hu : x.userId = call.userId)
    (h : call.phase.ticket = x.phase.ticket)
    (ht : (s.moved c call l).Pending call.userId t) :
    s.Pending call.userId t := by
  rcases pending_or_of_moved ht with ht | ⟨-, hself⟩
  · exact ht
  · exact ⟨c, x, hc, hu, h.symm.trans hself⟩

/-- A call that ends lets go of its number, which nobody else has. -/
theorem pending_of_ended {l : Limiter} {x : PhoneCall} {t' : Ticket}
    (ht : (s.moved c call l).Pending call.userId t') (hs : s.Sound)
    (hc : s.calls c = some x) (hu : x.userId = call.userId)
    (hx : x.phase.ticket = some t) (h : call.phase.ticket = none) :
    s.Pending call.userId t' ∧ t' ≠ t := by
  rcases pending_moved.mp ht with ⟨-, hself⟩ | ⟨d, y, hdc, hd, hv, hy⟩
  · rw [h] at hself
    cases hself
  · refine ⟨⟨d, y, hd, hv, hy⟩, ?_⟩
    rintro rfl
    exact hdc (hs.single d c y x t' hd hc (hv.trans hu.symm) hy hx)

/-- A number that `INCR` returns is nobody's yet. -/
theorem Sound.ticket_new (hs : s.Sound) {d : Nat} {x : PhoneCall}
    (hd : s.calls d = some x) :
    x.phase.ticket ≠ some ((s.phone x.userId).ticket s.now) := by
  intro hx
  have hissued := (hs.phone x.userId).pendingIssued _ ⟨d, x, hd, rfl, hx⟩
  exact hissued.incr.2 rfl

/-- The send of a call whose `SET` is the first for a minute. -/
theorem Sound.cooled (hs : s.Sound) (hc : s.calls c = some call)
    (hread : call.phase.HasRead) (halone : s.Alone call) :
    ∀ a ∈ (s.phone call.userId).sends, a.time + resendCooldown ≤ s.now := by
  intro a ha
  obtain ⟨hle, hall⟩ := hs.read c call hc hread
  rcases hall a ha with hbefore | hsince
  · exact hbefore.trans hle
  · exact halone a ha hsince

/-- A step of a call carries what the keys have returned. By the kinds of
steps: the ticket of an INCR is new, and the one of a SET is recorded with
its send. -/
theorem Sound.ofCall (hs : s.Sound) {e : ResendEvent} {s' : ResendSystem}
    (h : CallStep s e s') : s'.Sound := by
  cases h with
  | idle => exact hs
  | @begun c u new =>
      refine hs.moved ((hs.phone u).mono fun t => pending_of_unnumbered rfl)
        nofun (fun hread => absurd rfl hread.1) fun a ha => Or.inl ha
  | @cooling c u r call cooldown =>
      refine hs.moved (((hs.phone u).refuse _).mono fun t =>
        pending_of_unnumbered rfl) nofun (fun hread => absurd rfl hread.2)
        fun a ha => Or.inl ha
  | @read c u r call cooldown =>
      refine hs.moved ((hs.phone u).mono fun t => pending_of_unnumbered rfl)
        nofun (fun _ => ⟨Nat.le_refl _, fun a ha => Or.inl ?_⟩)
        fun a ha => Or.inl ha
      refine Nat.le_of_not_lt fun hlt => ?_
      rw [(hs.phone u).onCooldown_iff.mpr ⟨a, ha, hlt⟩] at cooldown
      cases cooldown
  | @opened c u r call first =>
      have hnew := (hs.phone u).incrPending (by rw [first]; decide)
      have hread := hs.read c _ call ⟨nofun, nofun⟩
      refine hs.moved (hnew.mono fun t ht => ?_) ?_
        (fun _ => hread) fun a ha => Or.inl ha
      · exact (pending_or_of_moved ht).imp_right fun hself =>
          (Option.some.inj hself.2).symm
      · intro t ht d x _ hd hu hx
        obtain rfl := Option.some.inj ht
        apply hs.ticket_new hd
        rw [hu]
        exact hx
  | @limited c u r call beyond =>
      refine hs.moved (((hs.phone u).incr.refuse _).mono fun t =>
        pending_of_unnumbered rfl) nofun (fun hread => absurd rfl hread.2)
        fun a ha => Or.inl ha
  | @counted c u r call further room =>
      have hnew := (hs.phone u).incrPending room
      have hread := hs.read c _ call ⟨nofun, nofun⟩
      refine hs.moved (hnew.mono fun t ht => ?_) ?_
        (fun _ => hread) fun a ha => Or.inl ha
      · exact (pending_or_of_moved ht).imp_right fun hself =>
          (Option.some.inj hself.2).symm
      · intro t ht d x _ hd hu hx
        obtain rfl := Option.some.inj ht
        apply hs.ticket_new hd
        rw [hu]
        exact hx
  | @expired c u r t call =>
      have hread := hs.read c _ call ⟨nofun, nofun⟩
      refine hs.moved ((hs.phone u).expire.mono fun t' =>
        pending_of_numbered call rfl rfl) ?_
        (fun _ => hread) fun a ha => Or.inl ha
      intro t' ht' d x hdc hd hu hx
      exact hdc (hs.single d c x _ t' hd call hu hx ht')
  | @accepted c u r t call =>
      have hpending : s.Pending u t := ⟨c, _, call, rfl, rfl⟩
      refine hs.moved (((hs.phone u).accept hpending).mono fun t' ht' =>
        pending_of_ended ht' hs call rfl rfl rfl) nofun
        (fun hread => absurd rfl hread.2) fun a ha => ?_
      rcases List.mem_cons.mp ha with rfl | ha
      · exact Or.inr rfl
      · exact Or.inl ha
  | @crashed c u p r call =>
      refine hs.moved ((hs.phone u).mono fun t => pending_of_unnumbered rfl)
        nofun (fun hread => absurd rfl hread.2) fun a ha => Or.inl ha

/-- So does every step. -/
theorem Sound.step (hs : s.Sound) (e : ResendEvent) : (step s e).Sound := by
  by_cases htick : ∃ d, e = .tick d
  · obtain ⟨d, rfl⟩ := htick
    have hle : s.now ≤ s.now + d := Nat.le_add_right _ _
    refine ⟨fun u => (hs.email u).later hle, fun u => (hs.phone u).later hle,
      hs.single, fun c x hc hread => ?_⟩
    obtain ⟨hread', hall⟩ := hs.read c x hc hread
    exact ⟨hread'.trans hle, hall⟩
  by_cases hemail : ∃ u, e = .email u
  · obtain ⟨u, rfl⟩ := hemail
    refine ⟨fun v => ?_, hs.phone, hs.single, hs.read⟩
    show (Function.update s.email u _ v).Accepting _ _ _
    by_cases hv : v = u
    · rw [hv, Function.update_self]
      exact (hs.email u).checkResendRateLimit
    · rw [Function.update_of_ne hv]
      exact hs.email v
  · exact hs.ofCall (step_call s e (fun d he => htick ⟨d, he⟩)
      fun u he => hemail ⟨u, he⟩)

/-- A call that `INCR` has given a number goes on in the counter's window. -/
theorem Orderly.numbered (h : s.Orderly) (hs : s.Sound)
    (hopens : s.OpensClear call.userId)
    (hticket : call.phase.ticket
      = some ((s.phone call.userId).ticket s.now)) :
    ((s.phone call.userId).incr s.now).Placed phoneHourlyLimit s.now
      ((s.moved c call ((s.phone call.userId).incr s.now)).Pending
        call.userId) := by
  have hself : ∀ t, call.userId = call.userId ∧ call.phase.ticket = some t →
      t = (s.phone call.userId).ticket s.now := by
    intro t ht
    exact Option.some.inj (ht.2.symm.trans hticket)
  cases hcurrent : (s.phone call.userId).current s.now with
  | some k =>
      refine ((h.phonePlaced _).incr (hs.phone _) hcurrent).mono fun t ht => ?_
      exact (pending_or_of_moved ht).imp_right (hself t)
  | none =>
      obtain ⟨hclear, hnobody⟩ := hopens hcurrent
      refine (Limiter.placed_opened hcurrent hclear).mono fun t ht => ?_
      rcases pending_or_of_moved ht with ht | ht
      · exact absurd ht (hnobody t)
      · exact hself t ht

/-- A careful step of a call keeps order. A window is opened where the sends
before are clear of it, a SET finds no other send of the last minute, and a
refusal has a recent send. -/
theorem Orderly.ofCall (h : s.Orderly) (hs : s.Sound) {e : ResendEvent}
    (he : s.Careful e) {s' : ResendSystem} (hstep : CallStep s e s') :
    s'.Orderly := by
  cases hstep with
  | idle => exact h
  | @begun c u new =>
      exact h.moved (h.phoneKept u) ((h.phonePlaced u).mono fun t =>
        pending_of_unnumbered rfl) (h.phoneRefused u)
  | @cooling c u r call cooldown =>
      refine h.moved (h.phoneKept u) (((h.phonePlaced u).refuse _).mono
        fun t => pending_of_unnumbered rfl) fun r' hr' => ?_
      rcases List.mem_cons.mp hr' with rfl | hr'
      · exact (hs.phone u).sentWithinHour cooldown
      · exact h.phoneRefused u r' hr'
  | @read c u r call cooldown =>
      exact h.moved (h.phoneKept u) ((h.phonePlaced u).mono fun t =>
        pending_of_unnumbered rfl) (h.phoneRefused u)
  | @opened c u r call first =>
      exact h.moved (h.phoneKept u)
        (h.numbered hs (he _ call rfl).1 rfl) (h.phoneRefused u)
  | @limited c u r call beyond =>
      have hfull : phoneHourlyLimit ≤ (s.phone u).count s.now := by
        rw [Limiter.count_ticket] at beyond
        exact Nat.le_of_lt_succ beyond
      obtain ⟨k, hk⟩ := Limiter.exists_current
        (Nat.lt_of_lt_of_le (by decide) hfull)
      have hplaced := ((h.phonePlaced u).incr (hs.phone u) hk).refuse s.now
      refine h.moved (h.phoneKept u) (hplaced.mono fun t ht =>
        Or.inl (pending_of_unnumbered rfl ht)) fun r' hr' => ?_
      rcases List.mem_cons.mp hr' with rfl | hr'
      · exact ((he _ call rfl).2 hfull).sentWithinHour hk
      · exact h.phoneRefused u r' hr'
  | @counted c u r call further room =>
      exact h.moved (h.phoneKept u)
        (h.numbered hs (he _ call rfl).1 rfl) (h.phoneRefused u)
  | @expired c u r t call =>
      exact h.moved (h.phoneKept u) (((h.phonePlaced u).expire s.now).mono
        fun t' => pending_of_numbered call rfl rfl) (h.phoneRefused u)
  | @accepted c u r t call =>
      have hpending : s.Pending u t := ⟨c, _, call, rfl, rfl⟩
      have hcooled := hs.cooled call ⟨nofun, nofun⟩ (he _ t call rfl)
      refine h.moved ((hs.phone u).kept_accept (h.phonePlaced u) hpending
        (h.phoneKept u) hcooled) (((h.phonePlaced u).accept hpending).mono
        fun t' ht' => ?_) fun r' hr' => (h.phoneRefused u r' hr').accept
      exact (pending_of_ended ht' hs call rfl rfl rfl).1
  | @crashed c u p r call =>
      exact h.moved (h.phoneKept u) ((h.phonePlaced u).mono fun t =>
        pending_of_unnumbered rfl) (h.phoneRefused u)

/-- So does every careful step. -/
theorem Orderly.step (h : s.Orderly) (hs : s.Sound) {e : ResendEvent}
    (he : s.Careful e) : (step s e).Orderly := by
  by_cases htick : ∃ d, e = .tick d
  · obtain ⟨d, rfl⟩ := htick
    have hle : s.now ≤ s.now + d := Nat.le_add_right _ _
    exact ⟨h.emailKept, fun u => (h.emailPlaced u).later hle, h.emailEnding,
      h.phoneKept, fun u => (h.phonePlaced u).later hle, h.phoneRefused⟩
  by_cases hemail : ∃ u, e = .email u
  · obtain ⟨u, rfl⟩ := hemail
    obtain ⟨hkept, hplaced⟩ := (hs.email u).kept_checkResendRateLimit
      (h.emailPlaced u) (h.emailKept u) he
    refine ⟨fun v => ?_, fun v => ?_, fun v => ?_, h.phoneKept,
      h.phonePlaced, h.phoneRefused⟩
    · show (Function.update s.email u _ v).Kept _
      by_cases hv : v = u
      · rw [hv, Function.update_self]
        exact hkept
      · rw [Function.update_of_ne hv]
        exact h.emailKept v
    · show (Function.update s.email u _ v).Placed _ _ _
      by_cases hv : v = u
      · rw [hv, Function.update_self]
        exact hplaced
      · rw [Function.update_of_ne hv]
        exact h.emailPlaced v
    · show (Function.update s.email u _ v).Ending
      by_cases hv : v = u
      · rw [hv, Function.update_self]
        exact (h.emailEnding u).checkResendRateLimit (hs.email u)
      · rw [Function.update_of_ne hv]
        exact h.emailEnding v
  · exact h.ofCall hs he (step_call s e (fun d he => htick ⟨d, he⟩)
      fun u he => hemail ⟨u, he⟩)

/-- A careful run keeps the invariant. -/
theorem run_orderly {events : List ResendEvent}
    (h : Along step Careful start events) :
    Sound (run step start events) ∧ Orderly (run step start events) := by
  have hstep : ∀ s e, Careful s e → Sound s ∧ Orderly s →
      Sound (step s e) ∧ Orderly (step s e) := by
    intro s e he hs
    exact ⟨hs.1.step e, hs.2.step hs.1 he⟩
  exact run_keeps_along hstep h ⟨start_sound, start_orderly⟩

end ResendSystem

end Skrynia
