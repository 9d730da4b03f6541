/-
The limits on resends hold in every careful run, and after any other step
they can be broken.

# What a careless step leads to

- A window that the sends before are not clear of takes its number of
  sends, a minute apart, and the hour has one too many (`InWindow`).
- Two calls for codes that both have a number, or of which one has sent a
  code since the other's `GET`, send within a minute of each other.
- A counter for codes that has no time to live, or one that was given after
  the last send, refuses an hour after it.

All that a user needs for it is to ask again, and to be unlucky with the
time at which a call goes on.
-/
import Skrynia.Auth.ResendCalls

namespace Skrynia

open Stepping Rolling

namespace Limiter

variable {l : Limiter} {now opened m limit : Nat} {before : List Nat}
  {t : Ticket} {pending : Ticket → Prop}

/-- A window has had `m + 1` sends, as early as they may come, and the next
one may come a minute after. -/
structure InWindow (l : Limiter) (opened m : Nat) (before : List Nat) : Prop
    where
  hourly : ∃ w, l.hourly = some ⟨w, m + 1, some (opened + resendHour)⟩
  cooldown : l.cooldown = some (opened + resendCooldown * (m + 1))
  times : l.times = paced resendCooldown opened (m + 1) ++ before

/-- The first send of a window whose counter has its time to live. -/
theorem inWindow_first (hnone : l.current now = none) (t : Ticket) :
    (((l.incr now).expire now).accept now t).InWindow now 0 l.times where
  hourly := by
    have hcurrent : (l.incr now).current now = some ⟨l.windows, 1, none⟩ := by
      unfold current Limiter.incr incremented
      rw [hnone]
      rfl
    refine ⟨l.windows, ?_⟩
    show ((l.incr now).current now).map _ = _
    rw [hcurrent]
    rfl
  cooldown := rfl
  times := rfl

/-- A minute after the last send, the counter is still there. -/
theorem InWindow.current (h : l.InWindow opened m before) (hm : m + 1 < 60) :
    ∃ w, l.current (opened + resendCooldown * (m + 1))
      = some ⟨w, m + 1, some (opened + resendHour)⟩ := by
  obtain ⟨w, hw⟩ := h.hourly
  refine ⟨w, Option.filter_eq_some_iff.mpr ⟨hw, ?_⟩⟩
  rw [Option.all_some, decide_eq_true_eq]
  unfold resendCooldown resendHour
  omega

/-- At the next minute the cooldown has just passed. -/
theorem InWindow.onCooldown (h : l.InWindow opened m before) :
    l.onCooldown (opened + resendCooldown * (m + 1)) = false := by
  unfold Limiter.onCooldown
  rw [h.cooldown, Option.any_some, decide_eq_false_iff_not]
  exact Nat.lt_irrefl _

/-- The counter has counted every resend of the window. -/
theorem InWindow.count (h : l.InWindow opened m before) (hm : m + 1 < 60) :
    l.count (opened + resendCooldown * (m + 1)) = m + 1 := by
  obtain ⟨w, hw⟩ := h.current hm
  unfold Limiter.count
  rw [hw]
  rfl

/-- The next send of the window. -/
theorem InWindow.next (h : l.InWindow opened m before) (hm : m + 1 < 60)
    (t : Ticket) :
    ((l.incr (opened + resendCooldown * (m + 1))).accept
      (opened + resendCooldown * (m + 1)) t).InWindow opened (m + 1)
        before where
  hourly := by
    obtain ⟨w, hw⟩ := h.current hm
    refine ⟨w, ?_⟩
    show some (l.incremented _) = _
    unfold incremented
    rw [hw]
  cooldown := by
    show some (opened + resendCooldown * (m + 1) + resendCooldown) = _
    rw [Nat.mul_succ resendCooldown (m + 1), Nat.add_assoc]
  times := by
    show (opened + resendCooldown * (m + 1)) :: l.times = _
    rw [h.times]
    rfl

/-- The script accepts an e-mail that opens a window. -/
theorem inWindow_checkResendRateLimit (hcooldown : l.onCooldown now = false)
    (hnone : l.current now = none) :
    (l.checkResendRateLimit now).InWindow now 0 l.times := by
  obtain ⟨hrefused, -⟩ | ⟨-, -, heq⟩ := checkResendRateLimit_cases l now
  · rcases hrefused with hon | hover
    · rw [hcooldown] at hon
      cases hon
    · obtain ⟨k, hk⟩ := exists_current (Nat.lt_of_lt_of_le (by decide) hover)
      cases hnone.symm.trans hk
  · have hpersistent : ((l.incr now).current now).map HourlyKey.expiresAt
        = some none := by
      unfold current Limiter.incr incremented
      rw [hnone]
      rfl
    have hexpire : (l.incr now).expireIfPersistent now
        = (l.incr now).expire now := if_pos hpersistent
    rw [heq, hexpire]
    exact inWindow_first hnone _

/-- It accepts another one a minute later, up to the limit. -/
theorem InWindow.checkResendRateLimit (h : l.InWindow opened m before)
    (hm : m + 1 < emailHourlyLimit) :
    (l.checkResendRateLimit (opened + resendCooldown * (m + 1))).InWindow
      opened (m + 1) before := by
  have hminutes : m + 1 < 60 := Nat.lt_trans hm (by decide)
  obtain ⟨hrefused, -⟩ | ⟨-, -, heq⟩ := checkResendRateLimit_cases l
    (opened + resendCooldown * (m + 1))
  · rcases hrefused with hon | hover
    · rw [h.onCooldown] at hon
      cases hon
    · rw [h.count hminutes] at hover
      omega
  · have hkept : ∀ now, (∃ w, (l.incr now).hourly
          = some ⟨w, m + 2, some (opened + resendHour)⟩) →
        (l.incr now).expireIfPersistent now = l.incr now := by
      rintro now ⟨w, hw⟩
      refine if_neg fun hpersistent => ?_
      obtain ⟨k, hk, hnone⟩ := Option.map_eq_some_iff.mp hpersistent
      have hhourly := (Option.filter_eq_some_iff.mp hk).1
      rw [hw] at hhourly
      cases hhourly
      cases hnone
    have hnext := h.next hminutes
      (l.ticket (opened + resendCooldown * (m + 1)))
    rw [heq, hkept _ hnext.hourly]
    exact hnext

/-- A window with too many sends before it. -/
theorem InWindow.not_kept (h : l.InWindow opened m before)
    (hrated : ¬ Rated resendHour limit
      (paced resendCooldown opened (m + 1) ++ before)) : ¬ l.Kept limit := by
  intro hkept
  apply hrated
  rw [← h.times]
  exact hkept.2

/-- How many sends it takes. -/
theorem Kept.exists_paced (hkept : l.Kept limit)
    (h : Accepting limit now pending l) (hclear : ¬ l.ClearFor limit now) :
    ∃ n < limit, ¬ Rated resendHour limit
      (paced resendCooldown now (n + 1) ++ l.times) := by
  refine not_rated_paced hkept.1.sorted (fun x hx => ?_) hclear
  obtain ⟨a, ha, rfl⟩ := List.mem_map.mp hx
  exact h.past a ha

/-- A counter that does not end by a send is still there at some time when
the last hour has no send. -/
theorem Accepting.exists_outlasting (h : Accepting limit now pending l)
    {k : HourlyKey} (hk : l.current now = some k)
    (hlate : ∀ e, k.expiresAt = some e →
      ∀ a ∈ l.sends, a.time + resendHour < e) :
    ∃ duration, k.expiresAt.all (now + duration < ·) = true
      ∧ ∀ a ∈ l.sends, a.time + resendHour ≤ now + duration := by
  have hlive := (Option.filter_eq_some_iff.mp hk).2
  cases he : k.expiresAt with
  | none =>
      refine ⟨resendHour, rfl, fun a ha => ?_⟩
      exact Nat.add_le_add_right (h.past a ha) _
  | some e =>
      rw [he, Option.all_some, decide_eq_true_eq] at hlive
      refine ⟨e - 1 - now, ?_, fun a ha => ?_⟩
      · rw [Option.all_some, decide_eq_true_eq]
        omega
      · have := hlate e he a ha
        omega

/-- As long as it is there, a full counter has no number for anybody. -/
theorem current_refused {duration : Nat} {k : HourlyKey}
    (hk : l.current now = some k)
    (hthere : k.expiresAt.all (now + duration < ·) = true) :
    ((l.incr now).refuse now).current (now + duration)
      = some { k with count := k.count + 1 } := by
  have hincremented : l.incremented now = { k with count := k.count + 1 } := by
    unfold incremented
    rw [hk]
  refine Option.filter_eq_some_iff.mpr ⟨?_, hthere⟩
  exact congrArg some hincremented

/-- When the last hour has no send, the cooldown does not stand in the way
of asking. -/
theorem Accepting.onCooldown_refused (h : Accepting limit now pending l)
    {duration : Nat}
    (hpast : ∀ a ∈ l.sends, a.time + resendHour ≤ now + duration) :
    ((l.incr now).refuse now).onCooldown (now + duration) = false := by
  refine Bool.eq_false_of_not_eq_true fun hon => ?_
  have hon' : l.onCooldown (now + duration) = true := hon
  obtain ⟨a, ha, hlt⟩ :=
    (h.later (Nat.le_add_right now duration)).onCooldown_iff.mp hon'
  have := hpast a ha
  unfold resendCooldown at hlt
  unfold resendHour at this
  omega

end Limiter

namespace ResendSystem

variable {s : ResendSystem} {c d : Nat} {u : Uuid} {t : Ticket}
  {call : PhoneCall} {phase phase' : PhonePhase} {l l' : Limiter}
  {opened m n : Nat} {before : List Nat}

/-- The laws on sends and on refusals. -/
def Lawful (s : ResendSystem) : Prop := s.Limited ∧ s.RefusalsEnd

-- ================================================================= e-mails

/-- As many e-mails of a user, a minute apart. -/
def laterEmails (u : Uuid) : Nat → List ResendEvent
  | 0 => []
  | n + 1 => .tick resendCooldown :: .email u :: laterEmails u n

/-- One resend a minute is sent until the limit is reached. -/
theorem run_laterEmails (h : (s.email u).InWindow opened m before)
    (hnow : s.now = opened + resendCooldown * m)
    (hle : m + n < emailHourlyLimit) :
    ((run step s (laterEmails u n)).email u).InWindow opened (m + n)
      before := by
  induction n generalizing s m with
  | zero => exact h
  | succ n ih =>
      have hnext := h.checkResendRateLimit (by omega)
      have hlater : s.now + resendCooldown
          = opened + resendCooldown * (m + 1) := by
        rw [hnow, Nat.mul_succ, Nat.add_assoc]
      have hindex : m + (n + 1) = m + 1 + n := by omega
      rw [hindex]
      refine ih (s := step (step s (.tick resendCooldown)) (.email u)) ?_
        hlater (by omega)
      show (Function.update s.email u ((s.email u).checkResendRateLimit
        (s.now + resendCooldown)) u).InWindow _ _ _
      rw [Function.update_self, hlater]
      exact hnext

/-- An e-mail opens a window that the ones before are not clear of. -/
theorem email_breaks (hs : s.Sound) (hlimited : s.Limited)
    (h : ¬ s.Careful (.email u)) :
    ∃ more, ¬ (run step s (.email u :: more)).Lawful := by
  have hopens : ¬ (s.email u).OpensClear s.now := h
  unfold Limiter.OpensClear at hopens
  push Not at hopens
  obtain ⟨hcooldown, hnone, hclear⟩ := hopens
  obtain ⟨n, hn, hrated⟩ :=
    (hlimited.1 u).exists_paced (hs.email u) hclear
  have hfirst : ((step s (.email u)).email u).InWindow s.now 0
      (s.email u).times := by
    show (Function.update s.email u _ u).InWindow _ _ _
    rw [Function.update_self]
    exact Limiter.inWindow_checkResendRateLimit hcooldown hnone
  have hrun := run_laterEmails (n := n) hfirst rfl (by omega)
  rw [Nat.zero_add] at hrun
  exact ⟨laterEmails u n, fun hlawful =>
    hrun.not_kept hrated (hlawful.1.1 u)⟩

-- =================================================================== codes

/-- The call that moved. -/
@[simp] theorem calls_moved_self :
    (s.moved c call l).calls c = some call := by
  rw [calls_moved, if_pos rfl]

/-- The keys it wrote. -/
@[simp] theorem phone_moved_self {r : Nat} :
    (s.moved c ⟨u, phase, r⟩ l).phone u = l := by
  rw [phone_moved, if_pos rfl]

/-- No time has passed. -/
@[simp] theorem now_moved : (s.moved c call l).now = s.now := rfl

/-- The later move of a call counts. -/
@[simp] theorem moved_moved {r r' : Nat} :
    (s.moved c ⟨u, phase, r⟩ l).moved c ⟨u, phase', r'⟩ l'
      = s.moved c ⟨u, phase', r'⟩ l' := by
  unfold moved withPhone
  dsimp only
  rw [Function.update_idem, Function.update_idem]

/-- A call for a code gets past its `GET`. -/
theorem run_reads (hc : s.calls d = none)
    (hcooldown : (s.phone u).onCooldown s.now = false) :
    run step s [.phone d u, .get d]
      = s.moved d ⟨u, .incrementing, s.now⟩ (s.phone u) := by
  rw [run_cons, step_phone hc, run_cons, step_get calls_moved_self,
    phone_moved_self, now_moved, hcooldown, if_neg Bool.false_ne_true,
    moved_moved, run_nil]

/-- A call that is counted, but has not created the counter. -/
theorem run_counted (hc : s.calls d = none)
    (hcooldown : (s.phone u).onCooldown s.now = false)
    (hfurther : ((s.phone u).ticket s.now).count ≠ 1)
    (hroom : ((s.phone u).ticket s.now).count ≤ phoneHourlyLimit) :
    run step s [.phone d u, .get d, .incr d, .set d]
      = s.moved d ⟨u, .ended, s.now⟩ (((s.phone u).incr s.now).accept s.now
        ((s.phone u).ticket s.now)) := by
  have hsplit : run step s [.phone d u, .get d, .incr d, .set d]
      = run step (run step s [.phone d u, .get d]) [.incr d, .set d] := rfl
  rw [hsplit, run_reads hc hcooldown, run_cons, step_incr calls_moved_self,
    phone_moved_self, now_moved, if_neg hfurther,
    if_neg (Nat.not_lt.mpr hroom), moved_moved, run_cons,
    step_set calls_moved_self, phone_moved_self, now_moved, moved_moved,
    run_nil]

/-- A call that the counter refuses. -/
theorem run_refused (hc : s.calls d = none)
    (hcooldown : (s.phone u).onCooldown s.now = false)
    (hfurther : ((s.phone u).ticket s.now).count ≠ 1)
    (hbeyond : phoneHourlyLimit < ((s.phone u).ticket s.now).count) :
    run step s [.phone d u, .get d, .incr d]
      = s.moved d ⟨u, .ended, s.now⟩
        (((s.phone u).incr s.now).refuse s.now) := by
  have hsplit : run step s [.phone d u, .get d, .incr d]
      = run step (run step s [.phone d u, .get d]) [.incr d] := rfl
  rw [hsplit, run_reads hc hcooldown, run_cons, step_incr calls_moved_self,
    phone_moved_self, now_moved, if_neg hfurther, if_pos hbeyond, moved_moved,
    run_nil]

/-- The call that creates the counter, up to its send. -/
theorem run_opens {r : Nat} (hc : s.calls c = some ⟨u, .incrementing, r⟩)
    (hfirst : ((s.phone u).ticket s.now).count = 1) :
    run step s [.incr c, .expire c, .set c]
      = s.moved c ⟨u, .ended, r⟩ ((((s.phone u).incr s.now).expire
        s.now).accept s.now ((s.phone u).ticket s.now)) := by
  rw [run_cons, step_incr hc, if_pos hfirst, run_cons,
    step_expire calls_moved_self, phone_moved_self, now_moved, moved_moved,
    run_cons, step_set calls_moved_self, phone_moved_self, now_moved,
    moved_moved, run_nil]

/-- A call that has a number sends, whether or not it is to set the time to
live before. -/
theorem run_sends {r : Nat} (hc : s.calls c = some ⟨u, phase, r⟩)
    (ht : phase.ticket = some t) :
    ∃ l, run step s [.expire c, .set c] = s.moved c ⟨u, .ended, r⟩ l
      ∧ l.times = s.now :: (s.phone u).times := by
  cases phase with
  | expiring t' =>
      refine ⟨((s.phone u).expire s.now).accept s.now t', ?_, rfl⟩
      rw [run_cons, step_expire hc, run_cons, step_set calls_moved_self,
        phone_moved_self, now_moved, moved_moved, run_nil]
  | setting t' =>
      refine ⟨(s.phone u).accept s.now t', ?_, rfl⟩
      have hidle : step s (.expire c) = s := by
        show s.withCall c _ = s
        rw [withCall_some hc]
      rw [run_cons, hidle, run_cons, step_set hc, run_nil]
  | _ => cases ht

/-- As many calls for codes of a user, with numbers from `d` on, a minute
apart. -/
def laterCodes (u : Uuid) (d : Nat) : Nat → List ResendEvent
  | 0 => []
  | n + 1 => .tick resendCooldown ::
      ([.phone d u, .get d, .incr d, .set d] ++ laterCodes u (d + 1) n)

/-- The same for codes by phone, with the statements of each call. -/
theorem run_laterCodes (h : (s.phone u).InWindow opened m before)
    (hnow : s.now = opened + resendCooldown * m)
    (hle : m + n < phoneHourlyLimit)
    (hfresh : ∀ c, d ≤ c → s.calls c = none) :
    ((run step s (laterCodes u d n)).phone u).InWindow opened (m + n)
      before := by
  induction n generalizing s m d with
  | zero => exact h
  | succ n ih =>
      have hminutes : m + 1 < 60 :=
        Nat.lt_of_le_of_lt (by omega) (Nat.lt_trans hle (by decide))
      have hlater : s.now + resendCooldown
          = opened + resendCooldown * (m + 1) := by
        rw [hnow, Nat.mul_succ, Nat.add_assoc]
      generalize hs' : step s (.tick resendCooldown) = s'
      have hnow' : s'.now = opened + resendCooldown * (m + 1) := by
        rw [← hs']
        exact hlater
      have hphone : s'.phone u = s.phone u := by
        rw [← hs']
        rfl
      have hfresh' : ∀ c, d ≤ c → s'.calls c = none := by
        rw [← hs']
        exact hfresh
      have hcount : ((s'.phone u).ticket s'.now).count = m + 2 := by
        rw [Limiter.count_ticket, hphone, hnow', h.count hminutes]
      have hrun := run_counted (u := u) (hfresh' d (Nat.le_refl d))
        (by rw [hphone, hnow']; exact h.onCooldown)
        (by rw [hcount]; omega) (by rw [hcount]; omega)
      have hindex : m + (n + 1) = m + 1 + n := by omega
      show ((run step s (.tick resendCooldown :: (_ ++ _))).phone u).InWindow
        _ _ _
      rw [run_cons, hs', run_append, hrun, hindex]
      refine ih ?_ hnow' (by omega) fun c hc => ?_
      · rw [phone_moved_self, hphone, hnow']
        exact h.next hminutes _
      · rw [calls_moved, if_neg (by omega)]
        exact hfresh' c (by omega)

/-- A call that is under way has a lower number than those to come. -/
theorem lt_of_fresh (hc : s.calls c = some call)
    (hfresh : ∀ d, n ≤ d → s.calls d = none) : c < n := by
  refine Nat.lt_of_not_le fun hle => ?_
  rw [hfresh c hle] at hc
  cases hc

/-- A counter for codes is created, and the sends before are not clear of
its window. -/
theorem opening_breaks (hs : s.Sound) (hlimited : s.Limited) {r : Nat}
    (hc : s.calls c = some ⟨u, .incrementing, r⟩)
    (hnone : (s.phone u).current s.now = none)
    (hclear : ¬ (s.phone u).ClearFor phoneHourlyLimit s.now)
    (hfresh : ∀ d, n ≤ d → s.calls d = none) :
    ∃ more, ¬ (run step s (.incr c :: more)).Lawful := by
  obtain ⟨k, hk, hrated⟩ :=
    (hlimited.2 u).exists_paced (hs.phone u) hclear
  have hfirst := (hs.phone u).count_ticket_eq_one_iff.mpr hnone
  have hopens := run_opens hc hfirst
  have hcn : c < n := lt_of_fresh hc hfresh
  have hwindow : ((run step s [.incr c, .expire c, .set c]).phone u).InWindow
      s.now 0 (s.phone u).times := by
    rw [hopens, phone_moved_self]
    exact Limiter.inWindow_first hnone _
  have hrun := run_laterCodes (n := k) (d := n) hwindow
    (by rw [hopens]; rfl) (by omega) (fun d hd => by
      rw [hopens, calls_moved, if_neg (by omega)]
      exact hfresh d hd)
  rw [Nat.zero_add, ← run_append] at hrun
  exact ⟨.expire c :: .set c :: laterCodes u n k, fun hlawful =>
    hrun.not_kept hrated (hlawful.1.2 u)⟩

/-- A counter for codes is created while another call has a number. -/
theorem pending_breaks (hs : s.Sound) {r : Nat}
    (hc : s.calls c = some ⟨u, .incrementing, r⟩)
    (hnone : (s.phone u).current s.now = none) (ht : s.Pending u t) :
    ∃ more, ¬ (run step s (.incr c :: more)).Lawful := by
  obtain ⟨d, ⟨v, phase, r'⟩, hd, huser, hticket⟩ := ht
  obtain rfl : v = u := huser
  have hdc : d ≠ c := by
    rintro rfl
    cases hd.symm.trans hc
    cases hticket
  have hfirst := (hs.phone v).count_ticket_eq_one_iff.mpr hnone
  have hopens := run_opens hc hfirst
  generalize hs' : run step s [.incr c, .expire c, .set c] = s' at hopens
  have hd' : s'.calls d = some ⟨v, phase, r'⟩ := by
    rw [hopens, calls_moved, if_neg hdc]
    exact hd
  have hsent : (s'.phone v).times = s.now :: (s.phone v).times := by
    rw [hopens, phone_moved_self]
    rfl
  -- the other call sends at once
  obtain ⟨l, hrun, htimes⟩ := run_sends hd' hticket
  have hnow : s'.now = s.now := by
    rw [hopens]
    rfl
  refine ⟨[.expire c, .set c, .expire d, .set d], fun hlawful => ?_⟩
  have hwhole : run step s [.incr c, .expire c, .set c, .expire d, .set d]
      = s'.moved d ⟨v, .ended, r'⟩ l := by
    rw [← hrun, ← hs']
    rfl
  have hspaced := (hlawful.1.2 v).1
  rw [hwhole, phone_moved_self, htimes, hsent, hnow] at hspaced
  have hgap := (spaced_cons_iff.mp hspaced).1 s.now List.mem_cons_self
  unfold resendCooldown at hgap
  omega

/-- A call sends within a minute of a send that its `GET` did not see. -/
theorem set_breaks (h : ¬ s.Careful (.set c)) :
    ∃ more, ¬ (run step s (.set c :: more)).Lawful := by
  have halone : ∃ call t, s.calls c = some call ∧ call.phase = .setting t
      ∧ ¬ s.Alone call := by
    by_contra hnone
    apply h
    intro call t hc hphase
    by_contra halone
    exact hnone ⟨call, t, hc, hphase, halone⟩
  obtain ⟨⟨u, phase, r⟩, t, hc, rfl, halone⟩ := halone
  unfold Alone at halone
  push Not at halone
  obtain ⟨a, ha, -, hlt⟩ := halone
  refine ⟨[], fun hlawful => ?_⟩
  have hspaced := (hlawful.1.2 u).1
  rw [run_cons, run_nil, step_set hc, phone_moved_self] at hspaced
  have hgap : a.time + resendCooldown ≤ s.now :=
    (spaced_cons_iff.mp hspaced).1 a.time (List.mem_map.mpr ⟨a, ha, rfl⟩)
  omega

/-- A full counter for codes refuses now, and does so still when an hour
has passed since the last send. -/
theorem refusal_breaks (hs : s.Sound) {r : Nat}
    (hc : s.calls c = some ⟨u, .incrementing, r⟩)
    (hfull : phoneHourlyLimit ≤ (s.phone u).count s.now)
    (hends : ¬ (s.phone u).EndsBySend s.now)
    (hfresh : ∀ d, n ≤ d → s.calls d = none) :
    ∃ more, ¬ (run step s (.incr c :: more)).Lawful := by
  unfold Limiter.EndsBySend at hends
  push Not at hends
  obtain ⟨k, hk, hlate⟩ := hends
  have hbeyond : phoneHourlyLimit < ((s.phone u).ticket s.now).count := by
    rw [Limiter.count_ticket]
    omega
  have hfurther : ((s.phone u).ticket s.now).count ≠ 1 := by
    intro hone
    rw [hone] at hbeyond
    exact absurd hbeyond (by decide)
  have hcount : phoneHourlyLimit ≤ k.count := by
    unfold Limiter.count at hfull
    rw [hk] at hfull
    exact hfull
  -- a time at which the counter is there, and the last hour has no send
  obtain ⟨duration, hthere, hpast⟩ :=
    (hs.phone u).exists_outlasting hk hlate
  have hcn : c < n := lt_of_fresh hc hfresh
  -- the state in which another call asks
  generalize hl : ((s.phone u).incr s.now).refuse s.now = l
  have hstep : step s (.incr c) = s.moved c ⟨u, .ended, r⟩ l := by
    rw [step_incr hc, if_neg hfurther, if_pos hbeyond, hl]
  generalize hs' : step (s.moved c ⟨u, .ended, r⟩ l) (.tick duration) = s'
  have hphone : s'.phone u = l := by
    rw [← hs']
    show (s.moved c ⟨u, .ended, r⟩ l).phone u = l
    exact phone_moved_self
  have hnow : s'.now = s.now + duration := by
    rw [← hs']
    rfl
  have hn : s'.calls n = none := by
    rw [← hs']
    show (s.moved c _ l).calls n = none
    rw [calls_moved, if_neg (by omega)]
    exact hfresh n (Nat.le_refl n)
  have hcurrent : l.current s'.now
      = some { k with count := k.count + 1 } := by
    rw [← hl, hnow]
    exact Limiter.current_refused hk hthere
  have hbeyond' : phoneHourlyLimit < (l.ticket s'.now).count := by
    rw [Limiter.count_ticket, Limiter.count, hcurrent]
    show phoneHourlyLimit < k.count + 1 + 1
    omega
  have hcooldown : l.onCooldown s'.now = false := by
    rw [← hl, hnow]
    exact (hs.phone u).onCooldown_refused hpast
  have hfurther' : (l.ticket s'.now).count ≠ 1 := by
    intro hone
    rw [hone] at hbeyond'
    exact absurd hbeyond' (by decide)
  rw [← hphone] at hbeyond' hcooldown hfurther'
  have hrun := run_refused hn hcooldown hfurther' hbeyond'
  refine ⟨[.tick duration, .phone n u, .get n, .incr n], fun hlawful => ?_⟩
  rw [run_cons, hstep, run_cons, hs', hrun] at hlawful
  have hrefused := hlawful.2.2 u s'.now
  rw [phone_moved_self] at hrefused
  obtain ⟨a, ha, hlt⟩ := hrefused List.mem_cons_self
  have hsends : a ∈ (s.phone u).sends := by
    rw [hphone, ← hl] at ha
    exact ha
  have := hpast a hsends
  omega

-- ==================================================================== runs

/-- A step adds one call at most. -/
theorem CallStep.calls_eq {e : ResendEvent} {s' : ResendSystem}
    (h : CallStep s e s') : ∃ c, ∀ d, d ≠ c → s'.calls d = s.calls d := by
  have hmoved : ∀ (c : Nat) (call : PhoneCall) (l : Limiter),
      ∃ c', ∀ d, d ≠ c' → (s.moved c call l).calls d = s.calls d := by
    intro c call l
    refine ⟨c, fun d hd => ?_⟩
    rw [calls_moved, if_neg hd]
  cases h with
  | idle => exact ⟨0, fun _ _ => rfl⟩
  | _ => exact hmoved _ _ _

/-- There are numbers that no call has had. -/
theorem run_fresh (events : List ResendEvent) :
    ∃ n, ∀ d, n ≤ d → (run step start events).calls d = none := by
  have hstart : ∃ n, ∀ d, n ≤ d → start.calls d = none :=
    ⟨0, fun _ _ => rfl⟩
  refine run_keeps (P := fun s : ResendSystem =>
    ∃ n, ∀ d, n ≤ d → s.calls d = none) ?_ hstart events
  rintro s e ⟨n, hn⟩
  by_cases htick : ∃ d, e = .tick d
  · obtain ⟨d, rfl⟩ := htick
    exact ⟨n, hn⟩
  by_cases hemail : ∃ u, e = .email u
  · obtain ⟨u, rfl⟩ := hemail
    exact ⟨n, hn⟩
  obtain ⟨c, hc⟩ := (step_call s e (fun d he => htick ⟨d, he⟩)
    fun u he => hemail ⟨u, he⟩).calls_eq
  refine ⟨max n (c + 1), fun d hd => ?_⟩
  rw [hc d (by omega)]
  exact hn d (by omega)

/-- Every run keeps the windows sound. -/
theorem run_sound (events : List ResendEvent) :
    Sound (run step start events) := by
  have hstep : ∀ s e, Sound s → Sound (step s e) := fun s e hs => hs.step e
  exact run_keeps hstep start_sound events

/-- After a step that is not careful, the laws can be broken. -/
theorem careless_breaks (hs : s.Sound) (hlimited : s.Limited)
    (hfresh : ∀ d, n ≤ d → s.calls d = none) {e : ResendEvent}
    (he : ¬ s.Careful e) : ∃ more, ¬ (run step s (e :: more)).Lawful := by
  cases e with
  | email u => exact email_breaks hs hlimited he
  | set c => exact set_breaks he
  | incr c =>
      have hcall : ∃ u r, s.calls c = some ⟨u, .incrementing, r⟩
          ∧ ¬ (s.OpensClear u
            ∧ (phoneHourlyLimit ≤ (s.phone u).count s.now →
              (s.phone u).EndsBySend s.now)) := by
        by_contra hnone
        apply he
        rintro ⟨u, phase, r⟩ hc rfl
        by_contra hcareless
        exact hnone ⟨u, r, hc, hcareless⟩
      obtain ⟨u, r, hc, hcareless⟩ := hcall
      by_cases hopens : s.OpensClear u
      · have hrefuses : ¬ (phoneHourlyLimit ≤ (s.phone u).count s.now →
            (s.phone u).EndsBySend s.now) :=
          fun hends => hcareless ⟨hopens, hends⟩
        obtain ⟨hfull, hends⟩ := Classical.not_imp.mp hrefuses
        exact refusal_breaks hs hc hfull hends hfresh
      · unfold OpensClear at hopens
        push Not at hopens
        obtain ⟨hnone, hopens⟩ := hopens
        by_cases hclear : (s.phone u).ClearFor phoneHourlyLimit s.now
        · obtain ⟨t, ht⟩ := hopens hclear
          exact pending_breaks hs hc hnone ht
        · exact opening_breaks hs hlimited hc hnone hclear hfresh
  | _ => exact absurd trivial he

/-- The limits hold in every state of every careful run: sends a minute
apart, no hour with too many, and refusals within an hour of a send. And
the condition leaves out nothing harmless: after a step that is not
careful, in whatever run, the user's next steps can break one of them. -/
theorem resend_limits_while_careful (events : List ResendEvent) :
    (Along step Careful start events →
        ∀ before, before <+: events → (run step start before).Lawful)
      ∧ ∀ e, ¬ (run step start events).Careful e →
        ∃ more, ¬ ∀ before, before <+: events ++ e :: more →
          (run step start before).Lawful := by
  constructor
  · intro halong before hbefore
    obtain ⟨after, rfl⟩ := hbefore
    obtain ⟨-, horderly⟩ := run_orderly (along_append.mp halong).1
    exact ⟨horderly.limited, horderly.refusalsEnd⟩
  · intro e he
    by_cases hlimited : (run step start events).Limited
    · obtain ⟨n, hfresh⟩ := run_fresh events
      obtain ⟨more, hmore⟩ :=
        careless_breaks (run_sound events) hlimited hfresh he
      refine ⟨more, fun hall => hmore ?_⟩
      rw [← run_append]
      exact hall _ (List.prefix_refl _)
    · exact ⟨[], fun hall => hlimited
        (hall events (List.prefix_append events [e])).1⟩

/-- Five e-mails at the end of one window and the beginning of the next,
and a sixth. -/
def sixEmails : List ResendEvent :=
  [.email ⟨1⟩, .tick 3360000, .email ⟨1⟩, .tick 60000, .email ⟨1⟩,
    .tick 60000, .email ⟨1⟩, .tick 60000, .email ⟨1⟩, .tick 60000,
    .email ⟨1⟩, .tick 60000, .email ⟨1⟩]

/-- Two calls for codes read the cooldown before either sets it. -/
def twoCodes : List ResendEvent :=
  [.phone 0 ⟨1⟩, .phone 1 ⟨1⟩, .get 0, .get 1, .incr 0, .expire 0, .set 0,
    .incr 1, .set 1]

/-- The call that creates the counter stops before its `EXPIRE`; three more
are counted, and the last one is refused two days later. -/
def openerCrashes : List ResendEvent :=
  [.phone 0 ⟨1⟩, .get 0, .incr 0, .crash 0, .phone 1 ⟨1⟩, .get 1, .incr 1,
    .set 1, .tick 60000, .phone 2 ⟨1⟩, .get 2, .incr 2, .set 2,
    .tick 172800000, .phone 3 ⟨1⟩, .get 3, .incr 3]

/-- Each of the three laws fails in a run. -/
theorem resend_limits_fail :
    ¬ (run step start sixEmails).Limited
      ∧ ¬ (run step start twoCodes).Limited
      ∧ ¬ (run step start openerCrashes).RefusalsEnd := by
  refine ⟨?_, ?_, ?_⟩
  · intro h
    have hrated := (h.1 ⟨1⟩).2 3360000
    exact absurd hrated (by decide +kernel)
  · intro h
    have hspaced := (h.2 ⟨1⟩).1
    unfold Rolling.Spaced at hspaced
    exact absurd hspaced (by decide +kernel)
  · intro h
    have hsent := h.2 ⟨1⟩ 172860000 (by decide +kernel)
    unfold Limiter.SentWithinHour at hsent
    exact absurd hsent (by decide +kernel)

end ResendSystem

end Skrynia
