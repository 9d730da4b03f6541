/-
The event bus between the instances of the backend: what an instance does
with an event that another one has published.

Redis delivers at least once, so an instance remembers the ids it has
dispatched for `remoteEventDedupTtlMs`, at most
`remoteEventDedupMaxEntries` of them. Expired ids are purged from the
front of the map, up to the first that is still alive, and the oldest id
is evicted when there is no room.

# The log

The map is the end of the log of dispatches (`Remembers`), each with the
time it expires. What has been forgotten before that end has expired, or
`remoteEventDedupMaxEntries` other ids have been dispatched since
(`Displaced`). The order of expiry and what a purge removes follow, and
the branch that deletes an expired id from inside the map is never taken
(`live_of_get`).
-/
import Mathlib.Data.List.TakeWhile
import Skrynia.Lib.InsertionMap
import Skrynia.Lib.Json
import Skrynia.Lib.Runs

namespace Skrynia

/-- Whom an event is for. -/
inductive RealtimeScope where
  | user
  | conversation
  | session
deriving DecidableEq

/-- An event as it goes through Redis. -/
structure RealtimeEvent where
  id : String
  type : String
  scope : RealtimeScope
  targetId : String
  payload : Json
  sourceInstanceId : String
  createdAt : String

/-- `REMOTE_EVENT_DEDUP_TTL_MS`: five minutes. -/
def remoteEventDedupTtlMs : Nat := 5 * 60 * 1000

/-- `REMOTE_EVENT_DEDUP_MAX_ENTRIES`. -/
def remoteEventDedupMaxEntries : Nat := 10000

/-- There is room for an id. -/
theorem remoteEventDedupMaxEntries_pos : 0 < remoteEventDedupMaxEntries := by
  decide

/-- The ids that were dispatched, with the times they expire. -/
abbrev SeenRemoteEventIds := InsertionMap String Nat

/-- What an instance keeps of the bus. -/
structure RealtimeEventBus where
  instanceId : String
  started : Bool
  seenRemoteEventIds : SeenRemoteEventIds

/-- What becomes of a message: a warning for one that cannot be read. -/
inductive Consumed where
  | ignored (warning : Option String)
  | duplicate (event : RealtimeEvent)
  | dispatched (event : RealtimeEvent)

namespace RealtimeEventBus

/-- The loop over the entries, which deletes from the map it reads. -/
def purgeLoop (now : Nat) :
    List (String × Nat) → SeenRemoteEventIds → SeenRemoteEventIds
  | [], seen => seen
  | (seenId, expiresAt) :: rest, seen =>
      if expiresAt > now then seen
      else purgeLoop now rest (seen.delete seenId)

/-- `purgeExpiredRemoteEvents`: expired ids go from the front of the map. -/
def purgeExpired (now : Nat) (seen : SeenRemoteEventIds) : SeenRemoteEventIds :=
  purgeLoop now seen.entries seen

/-- While there is no room for one more. -/
def evictOldest (seen : SeenRemoteEventIds) : SeenRemoteEventIds :=
  if remoteEventDedupMaxEntries ≤ seen.size then
    match _hentries : seen.entries with
    | [] => seen
    | (oldestId, _expiry) :: _rest => evictOldest (seen.delete oldestId)
  else seen
termination_by seen.size
decreasing_by
  have hsize : (seen.delete oldestId).size + 1 = seen.size :=
    InsertionMap.size_delete_head _hentries
  omega

/-- `rememberRemoteEvent`: whether the id is new, and what is remembered
then. -/
def rememberRemoteEvent (now : Nat) (eventId : String)
    (seen : SeenRemoteEventIds) : Bool × SeenRemoteEventIds :=
  let seen := purgeExpired now seen
  let existingExpiry := seen.get eventId
  if existingExpiry.any (· > now) then (false, seen)
  else
    let seen := if existingExpiry.isSome then seen.delete eventId else seen
    (true, (evictOldest seen).set eventId (now + remoteEventDedupTtlMs))

variable {Candidate : Type} (parse : String → Option Candidate)
  (safeParse : Candidate → Option RealtimeEvent)

/-- `parse` is `JSON.parse`, `safeParse` the schema of events. -/
def consume (now : Nat) (raw : String) (bus : RealtimeEventBus) :
    Consumed × RealtimeEventBus :=
  if !bus.started then (.ignored none, bus)
  else match parse raw with
    | none => (.ignored (some "realtime_event_malformed_json_ignored"), bus)
    | some candidate =>
        match safeParse candidate with
        | none => (.ignored (some "realtime_event_malformed_ignored"), bus)
        | some event =>
            if event.sourceInstanceId = bus.instanceId then (.ignored none, bus)
            else
              let (remembered, seen) :=
                rememberRemoteEvent now event.id bus.seenRemoteEventIds
              let bus := { bus with seenRemoteEventIds := seen }
              if remembered then (.dispatched event, bus)
              else (.duplicate event, bus)

/-- The message is another instance's event. -/
def Remote (bus : RealtimeEventBus) (raw : String) (event : RealtimeEvent) :
    Prop :=
  bus.started = true
    ∧ event.sourceInstanceId ≠ bus.instanceId
    ∧ ∃ candidate, parse raw = some candidate ∧ safeParse candidate = some event

end RealtimeEventBus

-- =============================================================== the runs

/-- A message that was consumed. -/
structure Consumption where
  time : Nat
  raw : String
  outcome : Consumed

/-- An instance, its clock and what it has consumed so far. -/
structure RemoteSystem where
  now : Nat
  bus : RealtimeEventBus
  history : List Consumption

namespace RemoteSystem

open RealtimeEventBus

/-- An instance before any message. -/
def opened (now : Nat) (instanceId : String) (started : Bool) : RemoteSystem :=
  ⟨now, ⟨instanceId, started, .empty⟩, []⟩

variable {Candidate : Type} (parse : String → Option Candidate)
  (safeParse : Candidate → Option RealtimeEvent)

/-- A message that comes some time after the one before. -/
def step (s : RemoteSystem) (call : Nat × String) : RemoteSystem :=
  let now := s.now + call.1
  let (outcome, bus) := consume parse safeParse now call.2 s.bus
  { now, bus, history := s.history ++ [⟨now, call.2, outcome⟩] }

end RemoteSystem

/-- The times and ids of the events that were dispatched. -/
def dispatches (history : List Consumption) : List (Nat × String) :=
  history.filterMap fun c =>
    match c.outcome with
    | .dispatched event => some (c.time, event.id)
    | _ => none

/-- As many other ids as the map has room for. -/
def Displaced (id : String) (log : List (Nat × String)) : Prop :=
  ∃ others : List String, others.Nodup
    ∧ remoteEventDedupMaxEntries ≤ others.length
    ∧ id ∉ others ∧ ∀ other ∈ others, other ∈ log.map Prod.snd

/-- When a dispatch is forgotten at the latest. -/
def expiring (d : Nat × String) : String × Nat :=
  (d.2, d.1 + remoteEventDedupTtlMs)

/-- The map holds the end of the log, and forgets for a reason. -/
structure Remembers (now : Nat) (seen : SeenRemoteEventIds)
    (log forgotten kept : List (Nat × String)) : Prop where
  split : log = forgotten ++ kept
  entries : seen.entries = kept.map expiring
  ascending : kept.Pairwise fun d d' => d.1 ≤ d'.1
  past : ∀ d ∈ kept, d.1 ≤ now
  room : seen.size ≤ remoteEventDedupMaxEntries
  reason : ∀ before d after, forgotten = before ++ d :: after →
    d.1 + remoteEventDedupTtlMs ≤ now ∨ Displaced d.2 (after ++ kept)

namespace RealtimeEventBus

variable {now : Nat} {seen : SeenRemoteEventIds} {id : String}
  {log forgotten kept : List (Nat × String)}

-- ============================================================== the loops

/-- The loop drops expired ids up to the first that is alive. -/
theorem entries_purgeLoop {rest : List (String × Nat)} (h : seen.entries = rest) :
    (purgeLoop now rest seen).entries = rest.dropWhile (·.2 ≤ now) := by
  induction rest generalizing seen with
  | nil => exact h
  | cons e rest ih =>
      obtain ⟨seenId, expiresAt⟩ := e
      unfold purgeLoop
      by_cases hlive : expiresAt > now
      · rw [if_pos hlive, h, List.dropWhile_cons_of_neg]
        simpa using hlive
      · rw [if_neg hlive, List.dropWhile_cons_of_pos (by simpa using hlive)]
        exact ih (InsertionMap.entries_delete_head h)

/-- So does the purge. -/
theorem entries_purgeExpired :
    (purgeExpired now seen).entries = seen.entries.dropWhile (·.2 ≤ now) :=
  entries_purgeLoop rfl

/-- As many of the oldest ids go as are too many for one more. -/
theorem entries_evictOldest : (evictOldest seen).entries
    = seen.entries.drop (seen.size + 1 - remoteEventDedupMaxEntries) := by
  generalize hn : seen.size = n
  induction n generalizing seen with
  | zero =>
      have hnil : seen.entries = [] := List.eq_nil_of_length_eq_zero hn
      unfold evictOldest
      rw [hn, if_neg (by decide), hnil, List.drop_nil]
  | succ n ih =>
      unfold evictOldest
      by_cases hfull : remoteEventDedupMaxEntries ≤ seen.size
      · rw [if_pos hfull]
        split
        · next hentries => rw [hentries, List.drop_nil]
        · next oldestId expiry rest hentries =>
            have hsize : (seen.delete oldestId).size + 1 = seen.size :=
              InsertionMap.size_delete_head hentries
            have hrest : (seen.delete oldestId).entries = rest :=
              InsertionMap.entries_delete_head hentries
            have hdrop : n + 1 + 1 - remoteEventDedupMaxEntries
                = (n + 1 - remoteEventDedupMaxEntries) + 1 := by
              omega
            rw [ih (by omega), hrest, hentries, hdrop, List.drop_succ_cons]
      · have hdrop : n + 1 + 1 - remoteEventDedupMaxEntries = 0 := by
          omega
        rw [if_neg hfull, hdrop, List.drop_zero]

end RealtimeEventBus

-- ======================================================= the map as a log

section Log

open RealtimeEventBus

variable {now later : Nat} {seen : SeenRemoteEventIds} {id : String}
  {log log' forgotten kept : List (Nat × String)}

/-- What was displaced stays displaced as the log grows. -/
theorem Displaced.mono (h : Displaced id log) (hlog : ∀ d ∈ log, d ∈ log') :
    Displaced id log' := by
  obtain ⟨others, hnodup, hlen, hid, hothers⟩ := h
  refine ⟨others, hnodup, hlen, hid, fun other hother => ?_⟩
  obtain ⟨d, hd, hother⟩ := List.mem_map.mp (hothers other hother)
  exact List.mem_map.mpr ⟨d, hlog d hd, hother⟩

/-- An element of two lists in a row is in the one or in the other. -/
theorem append_eq_append_cons {α : Type*} {l₁ l₂ before after : List α} {a : α}
    (h : l₁ ++ l₂ = before ++ a :: after) :
    (∃ after', l₁ = before ++ a :: after' ∧ after = after' ++ l₂)
      ∨ ∃ before', l₂ = before' ++ a :: after := by
  rcases List.append_eq_append_iff.mp h with ⟨mid, -, hl₂⟩ | ⟨mid, hl₁, hmid⟩
  · exact Or.inr ⟨mid, hl₂⟩
  · cases mid with
    | nil => exact Or.inr ⟨[], hmid.symm⟩
    | cons b mid =>
        obtain ⟨hab, hafter⟩ := List.cons.inj hmid
        rw [hab]
        exact Or.inl ⟨mid, hl₁, hafter⟩

/-- In an ascending list what is small is a prefix. -/
theorem dropWhile_eq_filter {l : List (String × Nat)}
    (h : l.Pairwise fun e e' => e.2 ≤ e'.2) :
    l.dropWhile (·.2 ≤ now) = l.filter (now < ·.2) := by
  induction l with
  | nil => rfl
  | cons e l ih =>
      obtain ⟨hhead, htail⟩ := List.pairwise_cons.mp h
      by_cases he : e.2 ≤ now
      · rw [List.dropWhile_cons_of_pos (by simpa using he),
          List.filter_cons_of_neg (by simpa using he)]
        exact ih htail
      · rw [List.dropWhile_cons_of_neg (by simpa using he), eq_comm]
        apply List.filter_eq_self.mpr
        intro e' he'
        rw [decide_eq_true_eq]
        rcases List.mem_cons.mp he' with rfl | he'
        · omega
        · have := hhead e' he'
          omega

namespace Remembers

/-- An empty map remembers an empty log. -/
theorem opening : Remembers now .empty [] [] [] where
  split := rfl
  entries := rfl
  ascending := List.Pairwise.nil
  past := by simp
  room := Nat.zero_le _
  reason := by simp

variable (h : Remembers now seen log forgotten kept)
include h

/-- The ids that are kept expire in the order of their entry. -/
theorem sorted : seen.entries.Pairwise fun e e' => e.2 ≤ e'.2 := by
  rw [h.entries, List.pairwise_map]
  refine h.ascending.imp fun hle => ?_
  simp only [expiring]
  omega

/-- Purging stops at the first live entry and yet removes every expired
one. -/
theorem entries_purge (later : Nat) :
    (purgeExpired later seen).entries = seen.entries.filter (later < ·.2) := by
  rw [entries_purgeExpired, dropWhile_eq_filter h.sorted]

/-- The map has the ids of the end of the log. -/
theorem keys_eq : seen.keys = kept.map Prod.snd := by
  unfold InsertionMap.keys
  rw [h.entries, List.map_map]
  rfl

/-- As time passes nothing is forgotten. -/
theorem wait (hle : now ≤ later) : Remembers later seen log forgotten kept where
  split := h.split
  entries := h.entries
  ascending := h.ascending
  past d hd := Nat.le_trans (h.past d hd) hle
  room := h.room
  reason before d after hd :=
    (h.reason before d after hd).imp_left fun hexpired => Nat.le_trans hexpired hle

/-- What is purged has expired. -/
theorem purge : Remembers now (purgeExpired now seen) log
    (forgotten ++ kept.takeWhile (·.1 + remoteEventDedupTtlMs ≤ now))
    (kept.dropWhile (·.1 + remoteEventDedupTtlMs ≤ now)) where
  split := by
    rw [List.append_assoc, List.takeWhile_append_dropWhile]
    exact h.split
  entries := by
    rw [entries_purgeExpired, h.entries, List.dropWhile_map]
    rfl
  ascending := h.ascending.sublist (List.dropWhile_sublist _)
  past d hd := h.past d ((List.dropWhile_sublist _).subset hd)
  room := by
    refine Nat.le_trans ?_ h.room
    unfold InsertionMap.size
    rw [entries_purgeExpired]
    exact (List.dropWhile_sublist _).length_le
  reason before d after hd := by
    rcases append_eq_append_cons hd with ⟨after', hf, rfl⟩ | ⟨before', hk⟩
    · rw [List.append_assoc, List.takeWhile_append_dropWhile]
      exact h.reason before d after' hf
    · left
      have hmem : d ∈ kept.takeWhile (·.1 + remoteEventDedupTtlMs ≤ now) := by
        rw [hk]
        simp
      simpa using List.mem_takeWhile_imp hmem

/-- An eviction shortens that end. -/
theorem entries_evicted : (evictOldest seen).entries
    = (kept.drop (seen.size + 1 - remoteEventDedupMaxEntries)).map expiring := by
  rw [entries_evictOldest, h.entries, List.map_drop]

/-- An eviction brings no id back. -/
theorem not_mem_evicted (hid : id ∉ seen.keys) : id ∉ (evictOldest seen).keys := by
  intro hmem
  unfold InsertionMap.keys at hmem
  rw [h.entries_evicted, List.map_map] at hmem
  obtain ⟨d, hd, hid'⟩ := List.mem_map.mp hmem
  rw [h.keys_eq] at hid
  exact hid (List.mem_map.mpr ⟨d, List.mem_of_mem_drop hd, hid'⟩)

/-- The map is as large as that end is long. -/
theorem length_kept : kept.length = seen.size := by
  unfold InsertionMap.size
  rw [h.entries, List.length_map]

/-- The first id of a full map makes room. All the others and the new one
have come since. -/
theorem displaced_of_full {rest : List (Nat × String)} {d : Nat × String}
    (hkept : kept = d :: rest) (hfull : remoteEventDedupMaxEntries ≤ seen.size)
    (hid : id ∉ seen.keys) : Displaced d.2 (rest ++ [(now, id)]) := by
  have hlen := h.length_kept
  have hnodup : (kept.map Prod.snd).Nodup := by
    rw [← h.keys_eq]
    exact seen.nodup
  rw [hkept, List.length_cons] at hlen
  rw [hkept, List.map_cons, List.nodup_cons] at hnodup
  rw [h.keys_eq, hkept, List.map_cons, List.mem_cons, not_or] at hid
  refine ⟨(rest ++ [(now, id)]).map Prod.snd, ?_, ?_, ?_, fun other hother => hother⟩
  · rw [List.map_append]
    refine List.nodup_append.mpr ⟨hnodup.2, List.nodup_singleton _, ?_⟩
    intro a ha b hb hab
    rw [List.mem_singleton.mp hb] at hab
    rw [hab] at ha
    exact hid.2 ha
  · rw [List.length_map, List.length_append, List.length_singleton]
    omega
  · rw [List.map_append, List.mem_append, not_or]
    exact ⟨hnodup.1, by simpa using Ne.symm hid.1⟩

/-- A new id goes to the end, and what the map then holds is remembered. -/
theorem push (hid : id ∉ seen.keys) : ∃ forgotten' kept',
    Remembers now ((evictOldest seen).set id (now + remoteEventDedupTtlMs))
      (log ++ [(now, id)]) forgotten' kept' := by
  have hroom := h.room
  have hlen := h.length_kept
  have hevicted := h.entries_evicted
  have hentries := InsertionMap.entries_set_of_new
    (a := now + remoteEventDedupTtlMs) (h.not_mem_evicted hid)
  generalize hn : seen.size + 1 - remoteEventDedupMaxEntries = n at hevicted
  refine ⟨forgotten ++ kept.take n, kept.drop n ++ [(now, id)], ?_, ?_, ?_, ?_, ?_, ?_⟩
  · rw [h.split, List.append_assoc, List.append_assoc, ← List.append_assoc (kept.take n),
      List.take_append_drop]
  · rw [hentries, hevicted, List.map_append, List.map_singleton, expiring]
  · refine List.pairwise_append.mpr
      ⟨h.ascending.sublist (List.drop_sublist _ _), List.pairwise_singleton _ _, ?_⟩
    intro d hd d' hd'
    rw [List.mem_singleton.mp hd']
    exact h.past d (List.mem_of_mem_drop hd)
  · intro d hd
    rcases List.mem_append.mp hd with hd | hd
    · exact h.past d (List.mem_of_mem_drop hd)
    · rw [List.mem_singleton.mp hd]
  · unfold InsertionMap.size
    rw [hentries, hevicted, List.length_append, List.length_map, List.length_drop,
      List.length_singleton]
    have hpos := remoteEventDedupMaxEntries_pos
    omega
  · intro before d after hd
    rcases append_eq_append_cons hd with ⟨after', hf, rfl⟩ | ⟨before', hk⟩
    · refine (h.reason before d after' hf).imp_right fun hdisplaced => ?_
      apply hdisplaced.mono
      intro d' hd'
      rw [List.append_assoc, ← List.append_assoc (kept.take n), List.take_append_drop]
      simp only [List.mem_append] at hd' ⊢
      exact hd'.imp_right Or.inl
    · -- Only the first is evicted, and only from a full map.
      right
      have htake : (kept.take n).length = before'.length + (after.length + 1) := by
        rw [hk, List.length_append, List.length_cons]
      rw [List.length_take] at htake
      have hfull : remoteEventDedupMaxEntries ≤ seen.size := by omega
      have hbefore : before' = [] := List.eq_nil_of_length_eq_zero (by omega)
      have hafter : after = [] := List.eq_nil_of_length_eq_zero (by omega)
      subst hbefore hafter
      have hkept : kept = d :: kept.drop n := by
        rw [← List.singleton_append, ← List.nil_append ([d] : List (Nat × String)), ← hk,
          List.take_append_drop]
      rw [List.nil_append]
      exact h.displaced_of_full hkept hfull hid

/-- A dispatch that the map has not is one it has forgotten. -/
theorem forgets (hid : id ∉ seen.keys) {before after : List (Nat × String)} {t : Nat}
    (hlog : log = before ++ (t, id) :: after) :
    t + remoteEventDedupTtlMs ≤ now ∨ Displaced id after := by
  have hsplit := h.split
  rw [hlog] at hsplit
  rcases append_eq_append_cons hsplit.symm with ⟨after', hf, rfl⟩ | ⟨before', hk⟩
  · exact h.reason before (t, id) after' hf
  · exfalso
    rw [h.keys_eq, hk] at hid
    simp at hid

/-- What the map has, the log has. -/
theorem logged {expiry : Nat} (hget : seen.get id = some expiry) :
    ∃ t, (t, id) ∈ log ∧ expiry = t + remoteEventDedupTtlMs := by
  have hmem := InsertionMap.mem_of_get hget
  rw [h.entries] at hmem
  obtain ⟨⟨t, id'⟩, hd, heq⟩ := List.mem_map.mp hmem
  obtain ⟨rfl, rfl⟩ := Prod.mk.inj heq
  refine ⟨t, ?_, rfl⟩
  rw [h.split]
  exact List.mem_append_right _ hd

/-- After a purge only live ids are left. -/
theorem live_of_get {expiry : Nat} (hget : (purgeExpired now seen).get id = some expiry) :
    now < expiry := by
  have hmem := InsertionMap.mem_of_get hget
  rw [h.entries_purge, List.mem_filter] at hmem
  simpa using hmem.2

/-- An id is alive in the map, and is not new; or it is not there any more,
and is entered last. -/
theorem rememberRemoteEvent_cases (id : String) :
    (∃ expiry, (purgeExpired now seen).get id = some expiry ∧ now < expiry
      ∧ rememberRemoteEvent now id seen = (false, purgeExpired now seen))
    ∨ ((purgeExpired now seen).get id = none
      ∧ rememberRemoteEvent now id seen = (true,
        (evictOldest (purgeExpired now seen)).set id (now + remoteEventDedupTtlMs))) := by
  unfold rememberRemoteEvent
  cases hget : (purgeExpired now seen).get id with
  | none => exact Or.inr ⟨rfl, by simp [hget]⟩
  | some expiry =>
      have hlive := h.live_of_get hget
      exact Or.inl ⟨expiry, rfl, hlive, by simp [hget, hlive]⟩

end Remembers

end Log

-- ================================================================ the runs

section Run

open RealtimeEventBus

variable {Candidate : Type} {parse : String → Option Candidate}
  {safeParse : Candidate → Option RealtimeEvent}

/-- A message is of one event at most. -/
theorem RealtimeEventBus.Remote.unique {bus : RealtimeEventBus} {raw : String}
    {event event' : RealtimeEvent} (h : bus.Remote parse safeParse raw event)
    (h' : bus.Remote parse safeParse raw event') : event = event' := by
  obtain ⟨-, -, candidate, hparse, hsafe⟩ := h
  obtain ⟨-, -, candidate', hparse', hsafe'⟩ := h'
  rw [hparse] at hparse'
  cases hparse'
  rw [hsafe] at hsafe'
  exact Option.some.inj hsafe'

variable (parse safeParse) in
/-- A message is ignored, or the map decides about its event. -/
theorem consume_cases (now : Nat) (raw : String) (bus : RealtimeEventBus) :
    (∃ warning, consume parse safeParse now raw bus = (.ignored warning, bus)
      ∧ ∀ event, ¬ bus.Remote parse safeParse raw event)
    ∨ ∃ event, bus.Remote parse safeParse raw event
      ∧ consume parse safeParse now raw bus
        = (if (rememberRemoteEvent now event.id bus.seenRemoteEventIds).1 then
            .dispatched event else .duplicate event,
          { bus with seenRemoteEventIds :=
            (rememberRemoteEvent now event.id bus.seenRemoteEventIds).2 }) := by
  unfold consume RealtimeEventBus.Remote
  cases hstarted : bus.started with
  | false => exact Or.inl ⟨none, rfl, by simp⟩
  | true =>
      cases hparse : parse raw with
      | none => exact Or.inl ⟨_, rfl, by simp⟩
      | some candidate =>
          cases hsafe : safeParse candidate with
          | none =>
              refine Or.inl ⟨some "realtime_event_malformed_ignored", ?_, ?_⟩
              · simp [hsafe]
              · simp [hsafe]
          | some event =>
              by_cases hown : event.sourceInstanceId = bus.instanceId
              · refine Or.inl ⟨none, by simp [hsafe, hown], fun event' h => ?_⟩
                simp only [Option.some.injEq, exists_eq_left', hsafe] at h
                rw [← h.2.2] at h
                exact h.2.1 hown
              · refine Or.inr ⟨event, ⟨rfl, hown, candidate, rfl, hsafe⟩, ?_⟩
                simp only [hsafe, Bool.not_true, Bool.false_eq_true, if_false, hown]
                split
                · rfl
                · rfl

/-- What was dispatched in two stretches was dispatched in one after the
other. -/
theorem dispatches_append {history history' : List Consumption} :
    dispatches (history ++ history') = dispatches history ++ dispatches history' :=
  List.filterMap_append

/-- A message that is not dispatched adds nothing to the log. -/
theorem dispatches_snoc_of_not {c : Consumption} {history : List Consumption}
    (h : ∀ event, c.outcome ≠ .dispatched event) :
    dispatches (history ++ [c]) = dispatches history := by
  rw [dispatches_append]
  cases houtcome : c.outcome with
  | dispatched event => exact absurd houtcome (h event)
  | ignored warning => simp [dispatches, houtcome]
  | duplicate event => simp [dispatches, houtcome]

/-- One that is adds its event. -/
theorem dispatches_cons_dispatched {c : Consumption} {history : List Consumption}
    {event : RealtimeEvent} (h : c.outcome = .dispatched event) :
    dispatches (c :: history) = (c.time, event.id) :: dispatches history := by
  unfold dispatches
  rw [List.filterMap_cons, h]

namespace RemoteSystem

/-- The map remembers what the history tells. -/
structure Sound (parse : String → Option Candidate)
    (safeParse : Candidate → Option RealtimeEvent) (s : RemoteSystem) : Prop where
  remembers : ∃ forgotten kept, Remembers s.now s.bus.seenRemoteEventIds
    (dispatches s.history) forgotten kept
  remote : ∀ c ∈ s.history, ∀ event, c.outcome = .dispatched event →
    s.bus.Remote parse safeParse c.raw event

variable {s : RemoteSystem} {call : Nat × String} {event : RealtimeEvent}

/-- Before any message, nothing is in the log. -/
theorem opened_sound (now : Nat) (instanceId : String) (started : Bool) :
    Sound parse safeParse (opened now instanceId started) where
  remembers := ⟨[], [], Remembers.opening⟩
  remote := by simp [opened]

/-- One message after some time. -/
theorem step_of_consume {outcome : Consumed} {bus : RealtimeEventBus}
    (h : consume parse safeParse (s.now + call.1) call.2 s.bus = (outcome, bus)) :
    step parse safeParse s call
      = ⟨s.now + call.1, bus,
        s.history ++ [⟨s.now + call.1, call.2, outcome⟩]⟩ := by
  unfold step
  simp only [h]

/-- What comes next does not change which messages are remote. -/
theorem remote_step {raw : String} :
    (step parse safeParse s call).bus.Remote parse safeParse raw event
      ↔ s.bus.Remote parse safeParse raw event := by
  rcases consume_cases parse safeParse (s.now + call.1) call.2 s.bus with
    ⟨_, hconsume, -⟩ | ⟨_, -, hconsume⟩
  · rw [step_of_consume hconsume]
  · rw [step_of_consume hconsume]
    exact Iff.rfl

/-- Every message keeps the map in step with the log. -/
theorem Sound.step (h : Sound parse safeParse s) (call : Nat × String) :
    Sound parse safeParse (step parse safeParse s call) := by
  obtain ⟨forgotten, kept, hremembers⟩ := h.remembers
  have hnow := hremembers.wait (Nat.le_add_right s.now call.1)
  have hkept : ∀ c ∈ s.history, ∀ event, c.outcome = .dispatched event →
      (RemoteSystem.step parse safeParse s call).bus.Remote parse safeParse c.raw event :=
    fun c hc event hevent => remote_step.mpr (h.remote c hc event hevent)
  rcases consume_cases parse safeParse (s.now + call.1) call.2 s.bus with
    ⟨warning, hconsume, -⟩ | ⟨event, hremote, hconsume⟩
  · rw [step_of_consume hconsume] at hkept ⊢
    constructor
    · rw [dispatches_snoc_of_not (by simp)]
      exact ⟨forgotten, kept, hnow⟩
    · intro c hc event hevent
      rcases List.mem_append.mp hc with hc | hc
      · exact hkept c hc event hevent
      · rw [List.mem_singleton.mp hc] at hevent
        cases hevent
  · rcases hnow.rememberRemoteEvent_cases event.id with ⟨expiry, -, -, heq⟩ | ⟨hget, heq⟩
    · rw [heq] at hconsume
      rw [step_of_consume hconsume] at hkept ⊢
      constructor
      · rw [dispatches_snoc_of_not (by simp)]
        exact ⟨_, _, hnow.purge⟩
      · intro c hc event hevent
        rcases List.mem_append.mp hc with hc | hc
        · exact hkept c hc event hevent
        · rw [List.mem_singleton.mp hc] at hevent
          cases hevent
    · rw [heq] at hconsume
      rw [step_of_consume hconsume] at hkept ⊢
      constructor
      · rw [dispatches_append]
        exact hnow.purge.push (InsertionMap.get_eq_none.mp hget)
      · intro c hc event' hevent
        rcases List.mem_append.mp hc with hc | hc
        · exact hkept c hc event' hevent
        · rw [List.mem_singleton.mp hc] at hevent ⊢
          cases hevent
          exact hremote

variable (h : Sound parse safeParse s)
include h

/-- A dispatched id was not in the map. -/
theorem Sound.displaced {bus : RealtimeEventBus} {later : Nat} (hlater : s.now ≤ later)
    {raw : String}
    (hnext : consume parse safeParse later raw s.bus = (.dispatched event, bus))
    {before between : List Consumption} {c : Consumption}
    (hhistory : s.history = before ++ c :: between) {earlier : RealtimeEvent}
    (hearlier : c.outcome = .dispatched earlier) (hid : earlier.id = event.id)
    (hlive : later < c.time + remoteEventDedupTtlMs) :
    Displaced event.id (dispatches between) := by
  obtain ⟨forgotten, kept, hremembers⟩ := h.remembers
  have hnow := hremembers.wait hlater
  rcases consume_cases parse safeParse later raw s.bus with
    ⟨warning, hconsume, -⟩ | ⟨event', -, hconsume⟩
  · rw [hconsume] at hnext
    cases hnext
  · rw [hconsume] at hnext
    rcases hnow.rememberRemoteEvent_cases event'.id with ⟨expiry, -, -, heq⟩ | ⟨hget, heq⟩
    · rw [heq] at hnext
      simp at hnext
    · have hsame : event' = event := by
        rw [heq] at hnext
        simpa using (Prod.mk.inj hnext).1
      rw [hsame] at hget
      have hlog : dispatches s.history = dispatches before
          ++ (c.time, event.id) :: dispatches between := by
        rw [hhistory, dispatches_append, dispatches_cons_dispatched hearlier, hid]
      rcases hnow.purge.forgets (InsertionMap.get_eq_none.mp hget) hlog with
        hexpired | hdisplaced
      · omega
      · exact hdisplaced

/-- An id that was not dispatched for long enough is not in the map. -/
theorem Sound.dispatches {later : Nat} (hlater : s.now ≤ later) {raw : String}
    (hremote : s.bus.Remote parse safeParse raw event)
    (hunseen : ∀ c ∈ s.history, ∀ seen, s.bus.Remote parse safeParse c.raw seen →
      seen.id = event.id → c.time + remoteEventDedupTtlMs ≤ later) :
    (consume parse safeParse later raw s.bus).1 = .dispatched event := by
  obtain ⟨forgotten, kept, hremembers⟩ := h.remembers
  have hnow := hremembers.wait hlater
  rcases consume_cases parse safeParse later raw s.bus with
    ⟨warning, -, hno⟩ | ⟨event', hremote', hconsume⟩
  · exact absurd hremote (hno event)
  · rw [hremote'.unique hremote] at hconsume
    rcases hnow.rememberRemoteEvent_cases event.id with
      ⟨expiry, hget, hlive, -⟩ | ⟨-, heq⟩
    · exfalso
      obtain ⟨t, hmem, hexpiry⟩ := hnow.purge.logged hget
      obtain ⟨c, hc, hdispatch⟩ := List.mem_filterMap.mp hmem
      cases houtcome : c.outcome with
      | ignored warning => simp [houtcome] at hdispatch
      | duplicate seen => simp [houtcome] at hdispatch
      | dispatched seen =>
          simp only [houtcome, Option.some.injEq, Prod.mk.injEq] at hdispatch
          have hold := hunseen c hc seen (h.remote c hc seen houtcome) hdispatch.2
          omega
    · rw [hconsume, heq]
      rfl

end RemoteSystem

/-- Remote events are dispatched once per window, by a map of bounded size
in the order of expiry. A second dispatch comes when the first has
expired, or when as many other ids as the map has room for came in between
(`Displaced`). -/
theorem remoteEvents_dispatched_once (parse : String → Option Candidate)
    (safeParse : Candidate → Option RealtimeEvent) (opening : Nat)
    (instanceId : String) (started : Bool) (calls : List (Nat × String)) :
    let s := Stepping.run (RemoteSystem.step parse safeParse)
      (RemoteSystem.opened opening instanceId started) calls
    -- an id that was dispatched
    (∀ now raw event bus, s.now ≤ now →
      consume parse safeParse now raw s.bus = (.dispatched event, bus) →
      ∀ before c between earlier, s.history = before ++ c :: between →
        c.outcome = .dispatched earlier → earlier.id = event.id →
        now < c.time + remoteEventDedupTtlMs →
        Displaced event.id (dispatches between))
    -- an id that was not seen
    ∧ (∀ now raw event, s.now ≤ now → s.bus.Remote parse safeParse raw event →
      (∀ c ∈ s.history, ∀ seen, s.bus.Remote parse safeParse c.raw seen →
        seen.id = event.id → c.time + remoteEventDedupTtlMs ≤ now) →
      (consume parse safeParse now raw s.bus).1 = .dispatched event)
    -- the map
    ∧ s.bus.seenRemoteEventIds.size ≤ remoteEventDedupMaxEntries
    ∧ s.bus.seenRemoteEventIds.entries.Pairwise (fun e e' => e.2 ≤ e'.2)
    ∧ ∀ now, (purgeExpired now s.bus.seenRemoteEventIds).entries
        = s.bus.seenRemoteEventIds.entries.filter (now < ·.2) := by
  intro s
  have hsound : s.Sound parse safeParse :=
    Stepping.run_keeps (fun _ call h => h.step call)
      (RemoteSystem.opened_sound opening instanceId started) calls
  obtain ⟨forgotten, kept, hremembers⟩ := hsound.remembers
  refine ⟨?_, ?_, hremembers.room, hremembers.sorted, hremembers.entries_purge⟩
  · intro now raw event bus hnow hnext before c between earlier hhistory hearlier hid hlive
    exact hsound.displaced hnow hnext hhistory hearlier hid hlive
  · intro now raw event hnow hremote hunseen
    exact hsound.dispatches hnow hremote hunseen

end Run

end Skrynia
