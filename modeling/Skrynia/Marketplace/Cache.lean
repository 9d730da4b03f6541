/-
The generation cache of the marketplace.

A reader gets the generation and an entry in one command, reads the
database on a miss, and stores what it computed only if the generation is
still its own. A writer commits and then advances the generation. Deletes
run at any time and nothing rests on them.

# Database time

`commits` counts the commits so far. It is a clock for the proof: an
entry remembers the count when its database read began (`readAt`), and a
writer the count that its own commit made. The handlers see neither.

# Coherence

`Coherent` is the invariant. Entries and snapshots of the current
generation were taken after every writer that has advanced it; older ones
can never become current again, because the generation only grows.
-/
import Skrynia.Lib.Runs
import Mathlib.Logic.Function.Basic
import Mathlib.Order.Basic

namespace Skrynia

open Stepping

/-- A stored entry. -/
structure GenerationCacheEntry (V : Type) where
  generation : Nat
  value : V
  readAt : Nat

/-- The Redis keys of the cache. -/
structure MarketplaceCache (K V : Type) where
  generation : Option Nat
  entries : K → Option (GenerationCacheEntry V)

/-- The largest value that INCR can leave. -/
def redisIntegerMax : Nat := 9223372036854775807

namespace MarketplaceCache

variable {K V : Type} (cache : MarketplaceCache K V)

/-- `rawGeneration ?? "0"`. -/
def current : Nat := cache.generation.getD 0

/-- The script of `setMarketplaceCacheIfCurrent`. -/
def setIfCurrent [DecidableEq K] (key : K) (entry : GenerationCacheEntry V) :
    MarketplaceCache K V :=
  if cache.current ≠ entry.generation then cache
  else { cache with entries := Function.update cache.entries key (some entry) }

/-- INCR, which fails rather than overflow. -/
def incr : Option (MarketplaceCache K V) :=
  if cache.current < redisIntegerMax then
    some { cache with generation := some (cache.current + 1) }
  else none

/-- `DEL` of an entry. -/
def del [DecidableEq K] (key : K) : MarketplaceCache K V :=
  { cache with entries := Function.update cache.entries key none }

end MarketplaceCache

/-- How far a request for a cached key is. -/
inductive ReaderPhase (K V : Type) where
  | idle
  /-- A current entry, on its way through `cachedContentIsPublic`. -/
  | found (key : K) (entry : GenerationCacheEntry V)
  /-- `readMarketplaceCache` returned the entry's value. -/
  | cached (entry : GenerationCacheEntry V)
  /-- It returned no value; `none` is a generation of `null`. -/
  | missed (key : K) (generation : Option Nat)
  /-- The database is being read. -/
  | loading (key : K) (generation : Option Nat) (readAt : Nat)
  | loaded (key : K) (generation : Option Nat) (value : V) (readAt : Nat)
  | responded (value : V)

/-- Where a writer is. -/
inductive WriterPhase where
  | idle
  | committed (commit : Nat)
  /-- The generation was advanced after the commit. -/
  | advanced (commit : Nat)
deriving DecidableEq

/-- Any number of readers and writers. -/
structure CacheSystem (K V : Type) where
  cache : MarketplaceCache K V
  commits : Nat
  readers : Nat → ReaderPhase K V
  writers : Nat → WriterPhase

/-- What may happen next. -/
inductive CacheEvent (K V : Type) where
  /-- The MGET of `readMarketplaceCache`. -/
  | mget (reader : Nat) (key : K)
  | mgetFails (reader : Nat) (key : K)
  /-- `cachedContentIsPublic` answers. -/
  | check (reader : Nat) (isPublic : Bool)
  | checkFails (reader : Nat)
  /-- The first of the handler's database reads. -/
  | query (reader : Nat)
  /-- All are done, with this value. -/
  | compute (reader : Nat) (value : V)
  /-- The script of `setMarketplaceCacheIfCurrent`, and the response. -/
  | set (reader : Nat)
  | setFails (reader : Nat)
  | commit (writer : Nat)
  | incr (writer : Nat)
  /-- An expiry, or a delete of any sweep. -/
  | del (key : K)

namespace CacheSystem

variable {K V : Type} [DecidableEq K]

/-- Before any request. -/
def initial : CacheSystem K V where
  cache := { generation := none, entries := fun _ => none }
  commits := 0
  readers _ := .idle
  writers _ := .idle

/-- A reader goes on. -/
def setReader (s : CacheSystem K V) (reader : Nat) (phase : ReaderPhase K V) :
    CacheSystem K V :=
  { s with readers := Function.update s.readers reader phase }

/-- What `readMarketplaceCache` makes of the answer to its MGET. -/
def lookup (s : CacheSystem K V) (key : K) : ReaderPhase K V :=
  match s.cache.entries key with
  | none => .missed key (some s.cache.current)
  | some entry =>
      if entry.generation ≠ s.cache.current then .missed key (some s.cache.current)
      else .found key entry

/-- One event. -/
def step (s : CacheSystem K V) : CacheEvent K V → CacheSystem K V
  | .mget reader key =>
      match s.readers reader with
      | .idle => s.setReader reader (s.lookup key)
      | _ => s
  | .mgetFails reader key =>
      match s.readers reader with
      | .idle => s.setReader reader (.missed key none)
      | _ => s
  | .check reader isPublic =>
      match s.readers reader with
      | .found key entry =>
          if isPublic then s.setReader reader (.cached entry)
          else s.setReader reader (.missed key (some entry.generation))
      | _ => s
  | .checkFails reader =>
      match s.readers reader with
      | .found key _ => s.setReader reader (.missed key none)
      | _ => s
  | .query reader =>
      match s.readers reader with
      | .missed key generation =>
          s.setReader reader (.loading key generation s.commits)
      | _ => s
  | .compute reader value =>
      match s.readers reader with
      | .loading key generation readAt =>
          s.setReader reader (.loaded key generation value readAt)
      | _ => s
  | .set reader =>
      match s.readers reader with
      | .loaded _ none value _ => s.setReader reader (.responded value)
      | .loaded key (some generation) value readAt =>
          { s.setReader reader (.responded value) with
            cache := s.cache.setIfCurrent key
              { generation := generation, value := value, readAt := readAt } }
      | _ => s
  | .setFails reader =>
      match s.readers reader with
      | .loaded _ _ value _ => s.setReader reader (.responded value)
      | _ => s
  | .commit writer =>
      match s.writers writer with
      | .idle => { s with
          commits := s.commits + 1
          writers := Function.update s.writers writer (.committed (s.commits + 1)) }
      | _ => s
  | .incr writer =>
      match s.writers writer, s.cache.incr with
      | .committed commit, some cache => { s with
          cache := cache
          writers := Function.update s.writers writer (.advanced commit) }
      -- a repeated invalidation, such as the outbox makes
      | .advanced _, some cache => { s with cache := cache }
      | _, _ => s
  | .del key => { s with cache := s.cache.del key }

/-- Any number of them. -/
def play (s : CacheSystem K V) (schedule : List (CacheEvent K V)) : CacheSystem K V :=
  run step s schedule

-- ================================================================== one step

/-- What a step can do. -/
inductive Moved (s : CacheSystem K V) : CacheSystem K V → Prop
  | stays : Moved s s
  | looks (reader : Nat) (key : K) (hphase : s.readers reader = .idle) :
      Moved s (s.setReader reader (s.lookup key))
  | unsure (reader : Nat) (key : K) : Moved s (s.setReader reader (.missed key none))
  | returns (reader : Nat) (key : K) (entry : GenerationCacheEntry V)
      (hphase : s.readers reader = .found key entry) :
      Moved s (s.setReader reader (.cached entry))
  | hides (reader : Nat) (key : K) (entry : GenerationCacheEntry V)
      (hphase : s.readers reader = .found key entry) :
      Moved s (s.setReader reader (.missed key (some entry.generation)))
  | queries (reader : Nat) (key : K) (generation : Option Nat)
      (hphase : s.readers reader = .missed key generation) :
      Moved s (s.setReader reader (.loading key generation s.commits))
  | computes (reader : Nat) (key : K) (generation : Option Nat) (value : V)
      (readAt : Nat) (hphase : s.readers reader = .loading key generation readAt) :
      Moved s (s.setReader reader (.loaded key generation value readAt))
  | responds (reader : Nat) (value : V) : Moved s (s.setReader reader (.responded value))
  | stores (reader : Nat) (key : K) (generation : Nat) (value : V) (readAt : Nat)
      (hphase : s.readers reader = .loaded key (some generation) value readAt) :
      Moved s { s.setReader reader (.responded value) with
        cache := s.cache.setIfCurrent key
          { generation := generation, value := value, readAt := readAt } }
  | commits (writer : Nat) (hphase : s.writers writer = .idle) :
      Moved s { s with
        commits := s.commits + 1
        writers := Function.update s.writers writer (.committed (s.commits + 1)) }
  | advances (writer commit : Nat)
      (hphase : s.writers writer = .committed commit ∨ s.writers writer = .advanced commit) :
      Moved s { s with
        cache := { s.cache with generation := some (s.cache.current + 1) }
        writers := Function.update s.writers writer (.advanced commit) }
  | deletes (key : K) : Moved s { s with cache := s.cache.del key }

/-- Every event moves the cache, a reader or a writer. -/
theorem step_moved (s : CacheSystem K V) (e : CacheEvent K V) : s.Moved (s.step e) := by
  cases e with
  | mget reader key =>
      rw [step]
      split
      · exact .looks reader key ‹_›
      · exact .stays
  | mgetFails reader key =>
      rw [step]
      split
      · exact .unsure reader key
      · exact .stays
  | check reader isPublic =>
      rw [step]
      split
      · split
        · exact .returns reader _ _ ‹_›
        · exact .hides reader _ _ ‹_›
      · exact .stays
  | checkFails reader =>
      rw [step]
      split
      · exact .unsure reader _
      · exact .stays
  | query reader =>
      rw [step]
      split
      · exact .queries reader _ _ ‹_›
      · exact .stays
  | compute reader value =>
      rw [step]
      split
      · exact .computes reader _ _ value _ ‹_›
      · exact .stays
  | set reader =>
      rw [step]
      split
      · exact .responds reader _
      · exact .stores reader _ _ _ _ ‹_›
      · exact .stays
  | setFails reader =>
      rw [step]
      split
      · exact .responds reader _
      · exact .stays
  | commit writer =>
      rw [step]
      split
      · exact .commits writer ‹_›
      · exact .stays
  | incr writer =>
      have hincr : ∀ cache, s.cache.incr = some cache →
          cache = { s.cache with generation := some (s.cache.current + 1) } := by
        intro cache h
        exact (Option.some.inj (Option.ite_none_right_eq_some.mp h).2).symm
      rw [step]
      split
      · next commit cache hphase hcache =>
          rw [hincr cache hcache]
          exact .advances writer commit (Or.inl hphase)
      · next commit cache hphase hcache =>
          rw [hincr cache hcache]
          have hkept : s.writers = Function.update s.writers writer (.advanced commit) := by
            rw [← hphase, Function.update_eq_self]
          have h := Moved.advances (s := s) writer commit (Or.inr hphase)
          rw [← hkept] at h
          exact h
      · exact .stays
  | del key => exact .deletes key

-- ================================================================= coherence

/-- What was read at `readAt` under a generation: if that is still the
current one, every writer that has advanced it committed before. -/
def Fresh (s : CacheSystem K V) (generation readAt : Nat) : Prop :=
  generation ≤ s.cache.current
    ∧ (generation = s.cache.current → ∀ w c, s.writers w = .advanced c → c ≤ readAt)

/-- What holds of a reader in each phase. -/
def ReaderFresh (s : CacheSystem K V) : ReaderPhase K V → Prop
  | .found _ entry => entry.generation ≤ s.cache.current
  | .missed _ (some generation) => generation ≤ s.cache.current
  | .loading _ (some generation) readAt => s.Fresh generation readAt
  | .loaded _ (some generation) _ readAt => s.Fresh generation readAt
  | _ => True

/-- Entries and snapshots of the current generation were taken after every
writer that has advanced it. -/
structure Coherent (s : CacheSystem K V) : Prop where
  entries : ∀ key entry, s.cache.entries key = some entry →
    s.Fresh entry.generation entry.readAt
  readers : ∀ r, s.ReaderFresh (s.readers r)
  writers : ∀ w c, s.writers w = .committed c ∨ s.writers w = .advanced c →
    c ≤ s.commits

variable {s s' base : CacheSystem K V} {generation readAt : Nat}

omit [DecidableEq K] in
/-- Before the first step there is nothing that could be stale. -/
theorem coherent_initial : (initial : CacheSystem K V).Coherent where
  entries _ _ h := nomatch h
  readers _ := trivial
  writers _ _ h := by
    rcases h with h | h <;> cases h

omit [DecidableEq K] in
/-- Freshness in a state with the same generation and advances. -/
theorem Fresh.congr (h : s.Fresh generation readAt)
    (hcurrent : s'.cache.current = s.cache.current)
    (hadvanced : ∀ w c, s'.writers w = .advanced c → s.writers w = .advanced c) :
    s'.Fresh generation readAt := by
  rw [Fresh, hcurrent]
  exact ⟨h.1, fun hgen w c hw => h.2 hgen w c (hadvanced w c hw)⟩

omit [DecidableEq K] in
/-- What was read under an older generation needs nothing. -/
theorem fresh_of_lt (h : generation < s.cache.current) : s.Fresh generation readAt :=
  ⟨Nat.le_of_lt h, fun heq => absurd heq (Nat.ne_of_lt h)⟩

omit [DecidableEq K] in
/-- A reader stays fresh where the generation does not fall and fresh reads
stay fresh. -/
theorem ReaderFresh.imp {phase : ReaderPhase K V} (h : s.ReaderFresh phase)
    (hcurrent : s.cache.current ≤ s'.cache.current)
    (hfresh : ∀ generation readAt, s.Fresh generation readAt →
      s'.Fresh generation readAt) : s'.ReaderFresh phase := by
  cases phase with
  | found key entry => exact Nat.le_trans h hcurrent
  | missed key generation =>
      cases generation with
      | none => trivial
      | some generation => exact Nat.le_trans h hcurrent
  | loading key generation readAt =>
      cases generation with
      | none => trivial
      | some generation => exact hfresh _ _ h
  | loaded key generation value readAt =>
      cases generation with
      | none => trivial
      | some generation => exact hfresh _ _ h
  | _ => trivial

omit [DecidableEq K] in
/-- One reader moves on, to a phase that is fresh. -/
theorem Coherent.setReader (h : s.Coherent) {reader : Nat} {phase : ReaderPhase K V}
    (hphase : s.ReaderFresh phase) : (s.setReader reader phase).Coherent where
  entries := h.entries
  readers r := by
    show s.ReaderFresh (Function.update s.readers reader phase r)
    by_cases hr : r = reader
    · rw [hr, Function.update_self]
      exact hphase
    · rw [Function.update_of_ne hr]
      exact h.readers r
  writers := h.writers

omit [DecidableEq K] in
/-- The entries that a script or a delete leaves. -/
theorem Coherent.setEntries (h : s.Coherent) {entries : K → Option (GenerationCacheEntry V)}
    (hentries : ∀ key entry, entries key = some entry →
      s.Fresh entry.generation entry.readAt) :
    Coherent { s with cache := { s.cache with entries := entries } } where
  entries := hentries
  readers := h.readers
  writers := h.writers

/-- An entry of the current generation is stored. -/
theorem current_setIfCurrent (cache : MarketplaceCache K V) (key : K)
    (entry : GenerationCacheEntry V) :
    cache.setIfCurrent key entry = { cache with
      entries := (cache.setIfCurrent key entry).entries } := by
  rw [MarketplaceCache.setIfCurrent]
  split <;> rfl

/-- Every move keeps all of it. A writer first commits and then raises the
generation, so an entry of the current generation was read after all commits
but those of writers on their way. -/
theorem Coherent.moved (h : s.Coherent) (hm : s.Moved s') : s'.Coherent := by
  cases hm with
  | stays => exact h
  | looks reader key hphase =>
      apply h.setReader
      rw [lookup]
      split
      · exact Nat.le_refl _
      · split
        · exact Nat.le_refl _
        · next hentry hgen => exact (h.entries _ _ hentry).1
  | unsure reader key => exact h.setReader trivial
  | returns reader key entry hphase => exact h.setReader trivial
  | hides reader key entry hphase =>
      apply h.setReader
      have hreader := h.readers reader
      rw [hphase] at hreader
      exact hreader
  | queries reader key generation hphase =>
      apply h.setReader
      have hreader := h.readers reader
      rw [hphase] at hreader
      cases generation with
      | none => trivial
      | some generation =>
          exact ⟨hreader, fun _ w c hw => h.writers w c (Or.inr hw)⟩
  | computes reader key generation value readAt hphase =>
      apply h.setReader
      have hreader := h.readers reader
      rw [hphase] at hreader
      cases generation with
      | none => trivial
      | some generation => exact hreader
  | responds reader value => exact h.setReader trivial
  | stores reader key generation value readAt hphase =>
      have hreader := h.readers reader
      rw [hphase] at hreader
      have hset : (s.setReader reader (.responded value)).Coherent :=
        h.setReader trivial
      rw [current_setIfCurrent]
      apply hset.setEntries
      intro key' entry hentry
      rw [MarketplaceCache.setIfCurrent] at hentry
      split at hentry
      · exact h.entries key' entry hentry
      · rcases update_cases hentry with ⟨-, hnew⟩ | ⟨-, hold⟩
        · cases hnew
          exact hreader
        · exact h.entries key' entry hold
  | commits writer hphase =>
      have hadvanced : ∀ w c, Function.update s.writers writer
          (.committed (s.commits + 1)) w = .advanced c → s.writers w = .advanced c := by
        intro w c hw
        rcases update_cases hw with ⟨-, hnew⟩ | ⟨-, hold⟩
        · cases hnew
        · exact hold
      constructor
      · intro key entry hentry
        exact (h.entries key entry hentry).congr rfl hadvanced
      · intro r
        exact (h.readers r).imp (Nat.le_refl _) fun _ _ hfresh =>
          hfresh.congr rfl hadvanced
      · intro w c hw
        show c ≤ s.commits + 1
        rcases hw with hw | hw
        · rcases update_cases hw with ⟨-, hnew⟩ | ⟨-, hold⟩
          · cases hnew
            exact Nat.le_refl _
          · exact Nat.le_succ_of_le (h.writers w c (Or.inl hold))
        · exact Nat.le_succ_of_le (h.writers w c (Or.inr (hadvanced w c hw)))
  | advances writer commit hphase =>
      constructor
      · intro key entry hentry
        exact fresh_of_lt (Nat.lt_succ_of_le (h.entries key entry hentry).1)
      · intro r
        exact (h.readers r).imp (Nat.le_succ _) fun _ _ hfresh =>
          fresh_of_lt (Nat.lt_succ_of_le hfresh.1)
      · intro w c hw
        show c ≤ s.commits
        rcases hw with hw | hw
        · rcases update_cases hw with ⟨-, hnew⟩ | ⟨-, hold⟩
          · cases hnew
          · exact h.writers w c (Or.inl hold)
        · rcases update_cases hw with ⟨-, hnew⟩ | ⟨-, hold⟩
          · cases hnew
            exact h.writers writer commit hphase
          · exact h.writers w c (Or.inr hold)
  | deletes key =>
      apply h.setEntries
      intro key' entry hentry
      rcases update_cases hentry with ⟨-, hnew⟩ | ⟨-, hold⟩
      · cases hnew
      · exact h.entries key' entry hold

/-- So does every schedule. -/
theorem coherent_play (schedule : List (CacheEvent K V)) :
    (initial.play schedule : CacheSystem K V).Coherent :=
  run_keeps (fun _ e h => h.moved (step_moved _ e)) coherent_initial schedule

-- ============================================================== later readers

/-- The entry that a reader has been given. -/
def entryOf : ReaderPhase K V → Option (GenerationCacheEntry V)
  | .found _ entry | .cached entry => some entry
  | _ => none

omit [DecidableEq K] in
/-- What a lookup finds is stored, and current. -/
theorem entryOf_lookup {key : K} {entry : GenerationCacheEntry V}
    (h : entryOf (s.lookup key) = some entry) :
    s.cache.entries key = some entry ∧ entry.generation = s.cache.current := by
  rw [lookup] at h
  split at h
  · cases h
  · next hentry =>
      split at h
      · cases h
      · next hgen =>
          cases h
          exact ⟨hentry, not_not.mp hgen⟩

/-- A reader gets an entry when it starts, and a current one. -/
theorem Moved.entryOf (hm : s.Moved s') {r : Nat} {entry : GenerationCacheEntry V}
    (h : entryOf (s'.readers r) = some entry) :
    entryOf (s.readers r) = some entry
      ∨ ∃ key, s.cache.entries key = some entry ∧ entry.generation = s.cache.current := by
  -- a reader that moves to a phase without an entry
  have hnone : ∀ {reader : Nat} {phase : ReaderPhase K V},
      CacheSystem.entryOf phase = none →
      CacheSystem.entryOf ((s.setReader reader phase).readers r) = some entry →
      CacheSystem.entryOf (s.readers r) = some entry := by
    intro reader phase hphase hr
    rcases update_cases (Eq.refl ((s.setReader reader phase).readers r)) with
      ⟨-, hnew⟩ | ⟨-, hold⟩
    · rw [← hnew, hphase] at hr
      cases hr
    · rwa [← hold] at hr
  cases hm with
  | stays => exact Or.inl h
  | looks reader key hphase =>
      rcases update_cases (Eq.refl ((s.setReader reader (s.lookup key)).readers r)) with
        ⟨-, hnew⟩ | ⟨-, hold⟩
      · rw [← hnew] at h
        exact Or.inr ⟨key, entryOf_lookup h⟩
      · rw [← hold] at h
        exact Or.inl h
  | returns reader key found hphase =>
      rcases update_cases (Eq.refl ((s.setReader reader (.cached found)).readers r)) with
        ⟨hr, hnew⟩ | ⟨-, hold⟩
      · rw [← hnew] at h
        rw [hr, hphase]
        exact Or.inl h
      · rw [← hold] at h
        exact Or.inl h
  | unsure reader key => exact Or.inl (hnone rfl h)
  | hides reader key entry hphase => exact Or.inl (hnone rfl h)
  | queries reader key generation hphase => exact Or.inl (hnone rfl h)
  | computes reader key generation value readAt hphase => exact Or.inl (hnone rfl h)
  | responds reader value => exact Or.inl (hnone rfl h)
  | stores reader key generation value readAt hphase =>
      have hresponded : CacheSystem.entryOf
          ((s.setReader reader (.responded value)).readers r) = some entry := h
      exact Or.inl (hnone rfl hresponded)
  | commits writer hphase => exact Or.inl h
  | advances writer commit hphase => exact Or.inl h
  | deletes key => exact Or.inl h

/-- The generation grows, and an advance stays. -/
theorem Moved.grows (hm : s.Moved s') :
    s.cache.current ≤ s'.cache.current
      ∧ ∀ w c, s.writers w = .advanced c → s'.writers w = .advanced c := by
  cases hm with
  | stores reader key generation value readAt hphase =>
      rw [current_setIfCurrent]
      exact ⟨Nat.le_refl _, fun _ _ hw => hw⟩
  | commits writer hphase =>
      refine ⟨Nat.le_refl _, ?_⟩
      intro w c hw
      have hne : w ≠ writer := by
        intro heq
        rw [heq, hphase] at hw
        cases hw
      show Function.update _ _ _ _ = _
      rwa [Function.update_of_ne hne]
  | advances writer commit hphase =>
      refine ⟨Nat.le_succ _, ?_⟩
      intro w c hw
      show Function.update _ _ _ _ = _
      by_cases hwriter : w = writer
      · rw [hwriter, Function.update_self]
        rw [hwriter] at hw
        rcases hphase with hphase | hphase
        · rw [hphase] at hw
          cases hw
        · exact hphase.symm.trans hw
      · rwa [Function.update_of_ne hwriter]
  | _ => exact ⟨Nat.le_refl _, fun _ _ hw => hw⟩

/-- A run that goes on from `base`: what was advanced stays advanced, and
readers that had not started in `base` are given newer entries. -/
structure Since (base s : CacheSystem K V) : Prop where
  coherent : s.Coherent
  generation : base.cache.current ≤ s.cache.current
  advanced : ∀ w c, base.writers w = .advanced c → s.writers w = .advanced c
  newer : ∀ r, base.readers r = .idle → ∀ entry, entryOf (s.readers r) = some entry →
    base.cache.current ≤ entry.generation
      ∧ ∀ w c, base.writers w = .advanced c → c ≤ entry.readAt

omit [DecidableEq K] in
/-- A coherent state has gone on from itself. -/
theorem Coherent.since (h : s.Coherent) : s.Since s where
  coherent := h
  generation := Nat.le_refl _
  advanced _ _ hw := hw
  newer r hr entry hphase := by
    rw [hr] at hphase
    cases hphase

/-- What was read since stays so. -/
theorem Since.moved (h : base.Since s) (hm : s.Moved s') : base.Since s' where
  coherent := h.coherent.moved hm
  generation := Nat.le_trans h.generation hm.grows.1
  advanced w c hw := hm.grows.2 w c (h.advanced w c hw)
  newer r hr entry hentry := by
    rcases hm.entryOf hentry with hold | ⟨key, hkey, hgen⟩
    · exact h.newer r hr entry hold
    · constructor
      · rw [hgen]
        exact h.generation
      · intro w c hw
        exact (h.coherent.entries key entry hkey).2 hgen w c (h.advanced w c hw)

/-- A read that starts once a writer has advanced the generation returns
nothing that was read before the writer's commit, and never again an entry
of an older generation. -/
theorem readMarketplaceCache_coherent (schedule later : List (CacheEvent K V))
    {r : Nat} {entry : GenerationCacheEntry V}
    (hstart : (initial.play schedule).readers r = .idle)
    (hreturns : ((initial.play schedule).play later).readers r = .cached entry) :
    (∀ w c, (initial.play schedule).writers w = .advanced c → c ≤ entry.readAt)
      ∧ (initial.play schedule).cache.current ≤ entry.generation := by
  have hsince : (initial.play schedule).Since ((initial.play schedule).play later) :=
    run_keeps (fun _ e h => h.moved (step_moved _ e)) (coherent_play schedule).since later
  have hnewer := hsince.newer r hstart entry (by rw [hreturns]; rfl)
  exact ⟨hnewer.2, hnewer.1⟩

/-- A value stored after an invalidation, and returned. -/
theorem refilled_cache_returns :
    (∀ w c, ((initial : CacheSystem Unit Bool).play [.commit 0, .incr 0, .mget 0 (),
        .query 0, .compute 0 true, .set 0]).writers w = .advanced c → c ≤ 1)
      ∧ ((initial : CacheSystem Unit Bool).play [.commit 0, .incr 0, .mget 0 (),
        .query 0, .compute 0 true, .set 0]).cache.current ≤ 1 :=
  @readMarketplaceCache_coherent Unit Bool _ [.commit 0, .incr 0, .mget 0 (), .query 0,
    .compute 0 true, .set 0] [.mget 1 (), .check 1 true] 1 ⟨1, true, 1⟩ rfl rfl

end CacheSystem

end Skrynia
