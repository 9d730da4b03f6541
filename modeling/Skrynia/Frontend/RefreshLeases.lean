/-
The scan for the refresh leases of all tabs.

Web Storage has atomic operations but no atomic enumeration: a scan asks
for the length and then for one key after the other, while other tabs
write and the order of the keys changes under it. `readRefreshLeases`
enumerates before and after it reads the leases and takes what it found
if both enumerations agree.

# What two scans can miss

They agree also when both miss one and the same key. A key that is there
all the time is met by a scan unless it slips past: from behind the index
that is asked for to before the next one, or behind the last one
(`KeyScan.meets_or_slips`). One insertion or removal during the scan is
enough for that. So a lease is found just when one of the two scans meets
its key (`steady_lease_found_iff`), in particular when one of the two is
left undisturbed.
-/
import Mathlib.Data.List.Lex
import Mathlib.Data.List.Sort
import Skrynia.Catalog.Validation
import Skrynia.Lib.Interleaved
import Skrynia.Lib.Table

namespace Skrynia

namespace Frontend

open Relational Interleaved

-- ================================================================ storage

/-- The items, in the order of their enumeration. -/
abbrev WebStorage := Table (Prod.fst : String × String → String)

/-- The operations of Web Storage that a scan uses. -/
inductive StorageOp where
  /-- `storage.length`. -/
  | length
  /-- `storage.key(index)`. -/
  | key (index : Nat)
  /-- `storage.getItem(key)`. -/
  | getItem (key : String)

/-- What each of them answers. -/
def StorageOp.Answer : StorageOp → Type
  | length => Nat
  | key _ => Option String
  | getItem _ => Option String

namespace WebStorage

/-- The keys, in the present order. -/
def keys (s : WebStorage) : List String := s.rows.map Prod.fst

/-- `getItem`. -/
def getItem (s : WebStorage) (key : String) : Option String :=
  (s.find? key).map Prod.snd

/-- What an operation answers. -/
def answer (s : WebStorage) : (op : StorageOp) → op.Answer
  | .length => s.keys.length
  | .key index => s.keys[index]?
  | .getItem key => s.getItem key

/-- One operation of another tab. A new item or a removed one may change
the order of all others. -/
inductive Write : WebStorage → WebStorage → Prop where
  | setItem {s : WebStorage} {key : String} (value : String)
      (hkey : s.Has key) : Write s (s.set (key, value))
  | addItem {s s' : WebStorage} {key : String} (value : String)
      (hkey : ¬ s.Has key) (hrows : s'.rows.Perm ((key, value) :: s.rows)) :
      Write s s'
  | removeItem {s s' : WebStorage} (key : String)
      (hrows : s'.rows.Perm (s.remove key).rows) : Write s s'

end WebStorage

-- ================================================================= leases

/-- `Number.MAX_SAFE_INTEGER`. -/
def maxSafeInteger : Rat := 9007199254740991

/-- `Number.isSafeInteger`. -/
def isSafeInteger (q : Rat) : Bool :=
  q.den = 1 && -maxSafeInteger ≤ q && q ≤ maxSafeInteger

/-- `RefreshLease`, with what `isRefreshLease` asks of one. -/
structure RefreshLease where
  ownerId : String
  acquiredAt : Rat
  expiresAt : Rat
  generation : String
  choosing : Bool
  holding : Bool
  ticket : Rat
  valid : ownerId ≠ "" ∧ generation ≠ "" ∧ acquiredAt < expiresAt
    ∧ isSafeInteger ticket = true ∧ 0 ≤ ticket
    ∧ (choosing = true ∨ 0 < ticket) ∧ ¬ (choosing = true ∧ holding = true)
deriving DecidableEq

/-- The members of an object as a lease, if they make one. -/
def isRefreshLease (members : List (String × JsValue)) :
    Option RefreshLease :=
  match members.lookup "ownerId", members.lookup "generation",
    members.lookup "acquiredAt", members.lookup "expiresAt",
    members.lookup "choosing", members.lookup "holding",
    members.lookup "ticket" with
  | some (.str ownerId), some (.str generation),
    some (.num (.finite acquiredAt)), some (.num (.finite expiresAt)),
    some (.bool choosing), some (.bool holding),
    some (.num (.finite ticket)) =>
      if h : ownerId ≠ "" ∧ generation ≠ "" ∧ acquiredAt < expiresAt
          ∧ isSafeInteger ticket = true ∧ 0 ≤ ticket
          ∧ (choosing = true ∨ 0 < ticket)
          ∧ ¬ (choosing = true ∧ holding = true) then
        some {
          ownerId := ownerId
          acquiredAt := acquiredAt
          expiresAt := expiresAt
          generation := generation
          choosing := choosing
          holding := holding
          ticket := ticket
          valid := h }
      else none
  | _, _, _, _, _, _, _ => none

/-- The code units of a string, by which `sort` compares. -/
def utf16Units (s : String) : List Nat :=
  s.toList.flatMap fun c =>
    if c.toNat < 65536 then [c.toNat]
    else [55296 + (c.toNat - 65536) / 1024, 56320 + (c.toNat - 65536) % 1024]

/-- `keys.sort()`. -/
def sortKeys (keys : List String) : List String :=
  keys.insertionSort fun a b => utf16Units a ≤ utf16Units b

/-- `key.startsWith(REFRESH_LEASE_KEY_PREFIX)`. -/
def isLeaseKey (key : String) : Bool :=
  "auth_refresh_lease:".toList.isPrefixOf key.toList

/-- What a scan gives. -/
structure RefreshLeaseRead where
  available : Bool
  leases : List RefreshLease

/-- No answer. -/
def unavailable : RefreshLeaseRead := ⟨false, []⟩

-- =============================================================== the scans

/-- A program of such operations. -/
abbrev LeaseScan := Program StorageOp.Answer RefreshLeaseRead

/-- The loop of `refreshLeaseKeys`. -/
def keysFrom (next : List String → LeaseScan) :
    Nat → Nat → List String → LeaseScan
  | 0, _, keys => next (sortKeys keys)
  | n + 1, index, keys =>
      .ask (.key index) fun (key : Option String) =>
        keysFrom next n (index + 1) (keys ++ (key.filter isLeaseKey).toList)

/-- `refreshLeaseKeys`: the length first, then one key after the other. -/
def refreshLeaseKeys (next : List String → LeaseScan) : LeaseScan :=
  .ask .length fun (keyCount : Nat) => keysFrom next keyCount 0 []

section Reading

-- `JSON.parse`, unless it throws.
variable (parse : String → Option JsValue)

/-- The lease in an item. -/
def leaseOf (raw : Option String) : Option RefreshLease :=
  match raw with
  | none => none
  | some raw =>
      if raw = "" then none
      else
        match parse raw with
        | some (.obj members) => isRefreshLease members
        | _ => none

/-- The loop over `keysBefore`. -/
def leasesOf (next : List RefreshLease → LeaseScan) :
    List String → List RefreshLease → LeaseScan
  | [], leases => next leases
  | key :: keys, leases =>
      .ask (.getItem key) fun (raw : Option String) =>
        leasesOf next keys (leases ++ (leaseOf parse raw).toList)

/-- So many attempts at two enumerations that agree. -/
def scanAttempts : Nat → LeaseScan
  | 0 => .done unavailable
  | n + 1 =>
      refreshLeaseKeys fun keysBefore =>
        leasesOf parse (fun leases =>
          refreshLeaseKeys fun keysAfter =>
            if keysBefore = keysAfter then .done ⟨true, leases⟩
            else scanAttempts n) keysBefore []

/-- `readRefreshLeases`: three attempts. -/
def readRefreshLeases : LeaseScan := scanAttempts parse 3

/-- A run of the call. An operation that throws ends it. -/
abbrev ScanRun := Run WebStorage.answer WebStorage.Write unavailable

end Reading

-- ================================================================ the log

/-- An enumeration: the storage that gave the length, and each index with
the storage that was asked for it. -/
structure KeyScan where
  counted : WebStorage
  asked : List (Nat × WebStorage)

namespace KeyScan

/-- The scan was given this key. -/
def Meets (scan : KeyScan) (key : String) : Prop :=
  ∃ a ∈ scan.asked, a.2.keys[a.1]? = some key

/-- The lease keys that the scan was given. -/
def found (scan : KeyScan) : List String :=
  scan.asked.filterMap fun a => (a.2.keys[a.1]?).filter isLeaseKey

/-- No key came or went, from the length to the last index. -/
def Undisturbed (scan : KeyScan) : Prop :=
  ∀ a ∈ scan.asked, a.2.keys = scan.counted.keys

/-- Between two questions the key moves from behind the first index to
before the second, or it is behind the index of the last question. -/
def Slips (scan : KeyScan) (key : String) : Prop :=
  (∃ i a b, scan.asked[i]? = some a ∧ scan.asked[i + 1]? = some b
    ∧ a.1 < a.2.keys.idxOf key ∧ b.2.keys.idxOf key < b.1)
  ∨ ∃ a, scan.asked.getLast? = some a ∧ a.1 < a.2.keys.idxOf key

end KeyScan

/-- The enumerations in what a call has asked, the last one first. -/
def noteScan (scans : List KeyScan) (entry : StorageOp × WebStorage) :
    List KeyScan :=
  match entry.1, scans with
  | .length, scans => ⟨entry.2, []⟩ :: scans
  | .key index, scan :: scans =>
      ⟨scan.counted, scan.asked ++ [(index, entry.2)]⟩ :: scans
  | _, scans => scans

/-- The enumerations of a run, with the storage at each operation. -/
def keyScans (log : List (StorageOp × WebStorage)) : List KeyScan :=
  log.foldl noteScan []

/-- One more operation. -/
theorem keyScans_snoc (log : List (StorageOp × WebStorage))
    (entry : StorageOp × WebStorage) :
    keyScans (log ++ [entry]) = noteScan (keyScans log) entry := by
  unfold keyScans
  rw [List.foldl_append]
  rfl

/-- The item is there and the same from the start of the call to its
end. -/
def Steady (s : WebStorage) (passed : List WebStorage) (key value : String) :
    Prop :=
  ∀ x ∈ s :: passed, x.getItem key = some value

section Proofs

variable {parse : String → Option JsValue} {s : WebStorage}
  {log log' : List (StorageOp × WebStorage)} {passed : List WebStorage}
  {r : RefreshLeaseRead}

/-- What a scan does: it asks for all indexes below the length, and goes
on with the keys it was given. -/
theorem keysFrom_run {next : List String → LeaseScan} {n index : Nat}
    {keys : List String} {scan : KeyScan} {scans : List KeyScan}
    (h : ScanRun s (keysFrom next n index keys) log passed r log')
    (hr : r ≠ unavailable) (hscans : keyScans log = scan :: scans) :
    ∃ s' passed' log₁ asked, s' :: passed' ⊆ s :: passed
      ∧ ScanRun s' (next (sortKeys (keys ++ asked.filterMap fun a =>
          (a.2.keys[a.1]?).filter isLeaseKey))) log₁ passed' r log'
      ∧ keyScans log₁ = ⟨scan.counted, scan.asked ++ asked⟩ :: scans
      ∧ asked.map Prod.fst = List.range' index n
      ∧ ∀ a ∈ asked, a.2 ∈ s :: passed := by
  induction n generalizing s index keys log passed scan with
  | zero =>
      refine ⟨s, passed, log, [], List.Subset.refl _, ?_, ?_, rfl,
        List.forall_mem_nil _⟩
      · rw [List.filterMap_nil, List.append_nil]
        exact h
      · rw [List.append_nil, hscans]
  | succ n ih =>
      obtain ⟨s₁, passed₁, hsub, hrun⟩ := Run.of_ask h hr
      have hnoted : keyScans (log ++ [(StorageOp.key index, s₁)])
          = ⟨scan.counted, scan.asked ++ [(index, s₁)]⟩ :: scans := by
        rw [keyScans_snoc, hscans]
        rfl
      obtain ⟨s', passed', log₁, asked, hsub', hrun', hscans', hindexes,
        hasked⟩ := ih hrun hnoted
      refine ⟨s', passed', log₁, (index, s₁) :: asked, List.Subset.trans hsub' hsub,
        ?_, ?_, ?_, ?_⟩
      · have hkeys : keys ++ ((index, s₁) :: asked).filterMap (fun a =>
              (a.2.keys[a.1]?).filter isLeaseKey)
            = keys ++ ((s₁.keys[index]?).filter isLeaseKey).toList
              ++ asked.filterMap fun a =>
                (a.2.keys[a.1]?).filter isLeaseKey := by
          rw [List.append_assoc, List.filterMap_cons]
          cases (s₁.keys[index]?).filter isLeaseKey <;> rfl
        rw [hkeys]
        exact hrun'
      · rw [hscans']
        simp
      · rw [List.map_cons, hindexes, List.range'_succ]
      · refine List.forall_mem_cons.mpr ⟨hsub List.mem_cons_self, ?_⟩
        exact fun a ha => hsub (hasked a ha)

/-- A whole enumeration. -/
theorem refreshLeaseKeys_run {next : List String → LeaseScan}
    (h : ScanRun s (refreshLeaseKeys next) log passed r log')
    (hr : r ≠ unavailable) :
    ∃ s' passed' log₁ scan, s' :: passed' ⊆ s :: passed
      ∧ ScanRun s' (next (sortKeys scan.found)) log₁ passed' r log'
      ∧ keyScans log₁ = scan :: keyScans log
      ∧ scan.asked.map Prod.fst = List.range scan.counted.keys.length
      ∧ scan.counted ∈ s :: passed ∧ ∀ a ∈ scan.asked, a.2 ∈ s :: passed := by
  obtain ⟨s₁, passed₁, hsub, hrun⟩ := Run.of_ask h hr
  have hnoted : keyScans (log ++ [(StorageOp.length, s₁)])
      = ⟨s₁, []⟩ :: keyScans log := by
    rw [keyScans_snoc]
    rfl
  obtain ⟨s', passed', log₁, asked, hsub', hrun', hscans', hindexes,
    hasked⟩ := keysFrom_run hrun hr hnoted
  refine ⟨s', passed', log₁, ⟨s₁, asked⟩, List.Subset.trans hsub' hsub, hrun', hscans',
    ?_, hsub List.mem_cons_self, fun a ha => hsub (hasked a ha)⟩
  rw [hindexes, List.range_eq_range']
  rfl

/-- Each key is read from some storage of the call. -/
theorem leasesOf_run {next : List RefreshLease → LeaseScan}
    {keys : List String} {leases : List RefreshLease}
    (h : ScanRun s (leasesOf parse next keys leases) log passed r log')
    (hr : r ≠ unavailable) :
    ∃ s' passed' log₁, ∃ read : List (String × WebStorage),
      s' :: passed' ⊆ s :: passed
      ∧ ScanRun s' (next (leases ++ read.filterMap fun a =>
          leaseOf parse (a.2.getItem a.1))) log₁ passed' r log'
      ∧ keyScans log₁ = keyScans log
      ∧ read.map Prod.fst = keys
      ∧ ∀ a ∈ read, a.2 ∈ s :: passed := by
  induction keys generalizing s leases log passed with
  | nil =>
      refine ⟨s, passed, log, [], List.Subset.refl _, ?_, rfl, rfl,
        List.forall_mem_nil _⟩
      rw [List.filterMap_nil, List.append_nil]
      exact h
  | cons key keys ih =>
      obtain ⟨s₁, passed₁, hsub, hrun⟩ := Run.of_ask h hr
      obtain ⟨s', passed', log₁, read, hsub', hrun', hscans', hkeys,
        hread⟩ := ih hrun
      refine ⟨s', passed', log₁, (key, s₁) :: read, List.Subset.trans hsub' hsub,
        ?_, ?_, ?_, ?_⟩
      · have hleases : leases ++ ((key, s₁) :: read).filterMap (fun a =>
              leaseOf parse (a.2.getItem a.1))
            = leases ++ (leaseOf parse (s₁.getItem key)).toList
              ++ read.filterMap fun a =>
                leaseOf parse (a.2.getItem a.1) := by
          rw [List.append_assoc, List.filterMap_cons]
          cases leaseOf parse (s₁.getItem key) <;> rfl
        rw [hleases]
        exact hrun'
      · rw [hscans', keyScans_snoc]
        rfl
      · rw [List.map_cons, hkeys]
      · refine List.forall_mem_cons.mpr ⟨hsub List.mem_cons_self, ?_⟩
        exact fun a ha => hsub (hread a ha)

/-- The attempt that a call returns from. -/
structure Returned (parse : String → Option JsValue) (s : WebStorage)
    (passed : List WebStorage) (r : RefreshLeaseRead)
    (first second : KeyScan) : Prop where
  same : sortKeys first.found = sortKeys second.found
  leases : ∃ read : List (String × WebStorage),
    read.map Prod.fst = sortKeys first.found
    ∧ r.leases = (read.filterMap fun a => leaseOf parse (a.2.getItem a.1))
    ∧ ∀ a ∈ read, a.2 ∈ s :: passed
  complete : ∀ scan, scan = first ∨ scan = second →
    scan.asked.map Prod.fst = List.range scan.counted.keys.length
    ∧ scan.counted ∈ s :: passed ∧ ∀ a ∈ scan.asked, a.2 ∈ s :: passed

/-- What a scan returned was met within the whole run. -/
theorem Returned.mono {s' : WebStorage} {passed' : List WebStorage}
    {first second : KeyScan}
    (h : Returned parse s' passed' r first second)
    (hsub : s' :: passed' ⊆ s :: passed) :
    Returned parse s passed r first second := by
  obtain ⟨hsame, ⟨read, hkeys, hleases, hread⟩, hcomplete⟩ := h
  refine ⟨hsame, ⟨read, hkeys, hleases, fun a ha => hsub (hread a ha)⟩, ?_⟩
  intro scan hscan
  obtain ⟨hasked, hcounted, hin⟩ := hcomplete scan hscan
  exact ⟨hasked, hsub hcounted, fun a ha => hsub (hin a ha)⟩

/-- A call that returns leases has ended with an attempt of two scans that
agree. -/
theorem scanAttempts_run {n : Nat}
    (h : ScanRun s (scanAttempts parse n) log passed r log')
    (hr : r ≠ unavailable) :
    ∃ first second scans, keyScans log' = second :: first :: scans
      ∧ Returned parse s passed r first second := by
  induction n generalizing s log passed with
  | zero => exact absurd (Run.of_done h).1 hr
  | succ n ih =>
      obtain ⟨s₁, passed₁, log₁, first, hsub₁, hrun₁, hscans₁, hall₁, hcount₁,
        hasked₁⟩ := refreshLeaseKeys_run h hr
      obtain ⟨s₂, passed₂, log₂, read, hsub₂, hrun₂, hscans₂, hkeys, hread⟩ :=
        leasesOf_run hrun₁ hr
      obtain ⟨s₃, passed₃, log₃, second, hsub₃, hrun₃, hscans₃, hall₃,
        hcount₃, hasked₃⟩ := refreshLeaseKeys_run hrun₂ hr
      have hsub := List.Subset.trans hsub₂ hsub₁
      by_cases hsame : sortKeys first.found = sortKeys second.found
      · rw [if_pos hsame] at hrun₃
        obtain ⟨rfl, rfl⟩ := Run.of_done hrun₃
        refine ⟨first, second, keyScans log, ?_, hsame, ⟨read, hkeys, rfl,
          fun a ha => hsub₁ (hread a ha)⟩, ?_⟩
        · rw [hscans₃, hscans₂, hscans₁]
        · intro scan h
          rcases h with rfl | rfl
          · exact ⟨hall₁, hcount₁, hasked₁⟩
          · exact ⟨hall₃, hsub hcount₃, fun a ha => hsub (hasked₃ a ha)⟩
      · rw [if_neg hsame] at hrun₃
        obtain ⟨first', second', scans, hscans, hreturned⟩ := ih hrun₃
        exact ⟨first', second', scans, hscans,
          hreturned.mono (List.Subset.trans hsub₃ hsub)⟩

-- ============================================================ steady keys

/-- Sorting loses no key and adds none. -/
theorem mem_sortKeys {key : String} {keys : List String} :
    key ∈ sortKeys keys ↔ key ∈ keys :=
  (List.perm_insertionSort _ keys).mem_iff

/-- A scan finds the lease keys that it meets. -/
theorem KeyScan.mem_found {scan : KeyScan} {key : String}
    (hkey : isLeaseKey key = true) : key ∈ scan.found ↔ scan.Meets key := by
  unfold KeyScan.found KeyScan.Meets
  rw [List.mem_filterMap]
  constructor
  · intro h
    obtain ⟨a, ha, hfound⟩ := h
    exact ⟨a, ha, (Option.filter_eq_some_iff.mp hfound).1⟩
  · intro h
    obtain ⟨a, ha, hmet⟩ := h
    exact ⟨a, ha, Option.filter_eq_some_iff.mpr ⟨hmet, hkey⟩⟩

/-- An item that is there has an index. -/
theorem WebStorage.mem_keys {key value : String}
    (h : s.getItem key = some value) : key ∈ s.keys := by
  obtain ⟨row, hrow, -⟩ := Option.map_eq_some_iff.mp h
  exact Table.has_iff.mpr ⟨row, hrow⟩

/-- The steady leases are in the result. -/
def FindsSteady (parse : String → Option JsValue) (s : WebStorage)
    (passed : List WebStorage) (r : RefreshLeaseRead) : Prop :=
  ∀ key value lease, isLeaseKey key = true → Steady s passed key value →
    leaseOf parse (some value) = some lease → lease ∈ r.leases

/-- The key of every steady lease is met by one of the two scans. -/
def MeetsSteady (parse : String → Option JsValue) (s : WebStorage)
    (passed : List WebStorage) (first second : KeyScan) : Prop :=
  ∀ key value lease, isLeaseKey key = true → Steady s passed key value →
    leaseOf parse (some value) = some lease →
    first.Meets key ∨ second.Meets key

/-- No lease is ever found under two keys. -/
def OwnKeys (parse : String → Option JsValue) (s : WebStorage)
    (passed : List WebStorage) : Prop :=
  ∀ x ∈ s :: passed, ∀ y ∈ s :: passed, ∀ key key' lease,
    leaseOf parse (x.getItem key) = some lease →
    leaseOf parse (y.getItem key') = some lease → key = key'

variable {first second : KeyScan}

/-- A key that one scan meets is read, since the scans agree. -/
theorem Returned.finds (h : Returned parse s passed r first second)
    (hmeets : MeetsSteady parse s passed first second) :
    FindsSteady parse s passed r := by
  intro key value lease hkey hsteady hlease
  have hfound : key ∈ sortKeys first.found := by
    rcases hmeets key value lease hkey hsteady hlease with hmet | hmet
    · exact mem_sortKeys.mpr ((KeyScan.mem_found hkey).mpr hmet)
    · rw [h.same]
      exact mem_sortKeys.mpr ((KeyScan.mem_found hkey).mpr hmet)
  obtain ⟨read, hkeys, hleases, hin⟩ := h.leases
  rw [← hkeys] at hfound
  obtain ⟨a, ha, rfl⟩ := List.mem_map.mp hfound
  rw [hleases]
  refine List.mem_filterMap.mpr ⟨a, ha, ?_⟩
  rw [hsteady a.2 (hin a ha), hlease]

/-- A lease that is found was read under its key, which the first scan
met. -/
theorem Returned.meets (h : Returned parse s passed r first second)
    (hown : OwnKeys parse s passed) (hfinds : FindsSteady parse s passed r) :
    MeetsSteady parse s passed first second := by
  intro key value lease hkey hsteady hlease
  obtain ⟨read, hkeys, hleases, hin⟩ := h.leases
  have hmem := hfinds key value lease hkey hsteady hlease
  rw [hleases] at hmem
  obtain ⟨a, ha, hread⟩ := List.mem_filterMap.mp hmem
  have hhere : leaseOf parse (s.getItem key) = some lease := by
    rw [hsteady s List.mem_cons_self, hlease]
  have hsame : key = a.1 :=
    hown s List.mem_cons_self a.2 (hin a ha) key a.1 lease hhere hread
  refine Or.inl ((KeyScan.mem_found hkey).mp (mem_sortKeys.mp ?_))
  rw [← hkeys, hsame]
  exact List.mem_map_of_mem ha

/-- A key that is there at every question is met, or it slips past: as long
as it does neither it stays behind the index that is asked for. -/
theorem KeyScan.meets_or_slips {scan : KeyScan} {key : String}
    (hasked : scan.asked.map Prod.fst = List.range scan.counted.keys.length)
    (hnonempty : scan.asked ≠ []) (hthere : ∀ a ∈ scan.asked, key ∈ a.2.keys) :
    scan.Meets key ∨ scan.Slips key := by
  by_contra hneither
  obtain ⟨hmeets, hslips⟩ := not_or.mp hneither
  have hnext : ∀ a ∈ scan.asked, a.1 ≤ a.2.keys.idxOf key →
      a.1 < a.2.keys.idxOf key := by
    intro a ha hle
    refine lt_of_le_of_ne hle fun heq => hmeets ⟨a, ha, ?_⟩
    rw [heq, List.getElem?_idxOf (hthere a ha)]
  have hindex : ∀ (i : Nat) (a : Nat × WebStorage), scan.asked[i]? = some a →
      a.1 = i := by
    intro i a ha
    have hmap : (scan.asked.map Prod.fst)[i]? = some a.1 := by
      rw [List.getElem?_map, ha]
      rfl
    rw [hasked] at hmap
    obtain ⟨hlength, hat⟩ := List.getElem?_eq_some_iff.mp hmap
    rw [← hat, List.getElem_range]
  have hbehind : ∀ (i : Nat) (a : Nat × WebStorage), scan.asked[i]? = some a →
      a.1 < a.2.keys.idxOf key := by
    intro i
    induction i with
    | zero =>
        intro a ha
        apply hnext a (List.mem_of_getElem? ha)
        rw [hindex 0 a ha]
        exact Nat.zero_le _
    | succ i ih =>
        intro b hb
        apply hnext b (List.mem_of_getElem? hb)
        by_contra hbefore
        obtain ⟨hlength, -⟩ := List.getElem?_eq_some_iff.mp hb
        have ha := List.getElem?_eq_getElem (Nat.lt_of_succ_lt hlength)
        exact hslips (Or.inl ⟨i, _, b, ha, hb, ih _ ha, Nat.lt_of_not_le hbefore⟩)
  obtain ⟨a, ha⟩ := Option.isSome_iff_exists.mp (List.getLast?_isSome.mpr hnonempty)
  exact hslips (Or.inr ⟨a, ha, hbehind _ a (List.getLast?_eq_getElem?.symm.trans ha)⟩)

/-- An undisturbed scan asks for every index of one list of keys. -/
theorem KeyScan.Undisturbed.meets {scan : KeyScan} (h : scan.Undisturbed)
    (hasked : scan.asked.map Prod.fst = List.range scan.counted.keys.length)
    {key : String} (hkey : key ∈ scan.counted.keys) : scan.Meets key := by
  obtain ⟨i, hi, hget⟩ := List.getElem_of_mem hkey
  have hindex : i ∈ scan.asked.map Prod.fst := by
    rw [hasked]
    exact List.mem_range.mpr hi
  obtain ⟨a, ha, rfl⟩ := List.mem_map.mp hindex
  refine ⟨a, ha, ?_⟩
  rw [h a ha, List.getElem?_eq_getElem hi, hget]

/-- A scan that is left undisturbed meets every key that stays. -/
theorem Returned.meets_of_undisturbed
    (h : Returned parse s passed r first second)
    (hquiet : first.Undisturbed ∨ second.Undisturbed) :
    MeetsSteady parse s passed first second := by
  intro key value lease _ hsteady _
  have hscan : ∀ scan, scan = first ∨ scan = second → scan.Undisturbed →
      scan.Meets key := by
    intro scan hwhich hscan
    obtain ⟨hasked, hcounted, -⟩ := h.complete scan hwhich
    exact hscan.meets hasked (WebStorage.mem_keys (hsteady _ hcounted))
  exact hquiet.imp (hscan first (Or.inl rfl)) (hscan second (Or.inr rfl))

end Proofs

/-- A call that returns leases has found the steady ones just when one of
the last two scans has met each of their keys, as it has where one of them
was left undisturbed. -/
theorem steady_lease_found_iff (parse : String → Option JsValue)
    {s : WebStorage} {passed : List WebStorage} {r : RefreshLeaseRead}
    {log : List (StorageOp × WebStorage)}
    (h : ScanRun s (readRefreshLeases parse) [] passed r log)
    (hr : r.available = true) :
    ∃ first second scans, keyScans log = second :: first :: scans
      ∧ (MeetsSteady parse s passed first second →
        FindsSteady parse s passed r)
      ∧ (OwnKeys parse s passed → FindsSteady parse s passed r →
        MeetsSteady parse s passed first second)
      ∧ (first.Undisturbed ∨ second.Undisturbed →
        MeetsSteady parse s passed first second) := by
  have hne : r ≠ unavailable := by
    intro heq
    subst heq
    cases hr
  obtain ⟨first, second, scans, hscans, hreturned⟩ := scanAttempts_run h hne
  exact ⟨first, second, scans, hscans, hreturned.finds, hreturned.meets,
    hreturned.meets_of_undisturbed⟩

-- ========================================================== a hidden lease

/-- `{"ownerId":"a","acquiredAt":1,"expiresAt":2,"generation":"g",…}`. -/
def leaseText : String :=
  "\x7b\"ownerId\":\"a\",\"acquiredAt\":1,\"expiresAt\":2,\"generation\":\"g\","
    ++ "\"choosing\":false,\"holding\":true,\"ticket\":1\x7d"

/-- A parser that reads that text. -/
def parseLeaseText (text : String) : Option JsValue :=
  if text = leaseText then
    some (.obj [("ownerId", .str "a"), ("acquiredAt", .num (.finite 1)),
      ("expiresAt", .num (.finite 2)), ("generation", .str "g"),
      ("choosing", .bool false), ("holding", .bool true),
      ("ticket", .num (.finite 1))])
  else none

/-- The lease of a tab that holds the lock. -/
def heldLease : RefreshLease where
  ownerId := "a"
  acquiredAt := 1
  expiresAt := 2
  generation := "g"
  choosing := false
  holding := true
  ticket := 1
  valid := by decide

/-- It is a lease. -/
theorem leaseOf_leaseText :
    leaseOf parseLeaseText (some leaseText) = some heldLease := by
  decide +kernel

/-- A storage with nothing but that lease. -/
def leaseAlone : WebStorage where
  rows := [("auth_refresh_lease:a", leaseText)]
  unique := by decide

/-- Another item in front of it. -/
def leaseBehindTheme : WebStorage where
  rows := [("theme", "dark"), ("auth_refresh_lease:a", leaseText)]
  unique := by decide

/-- Another item behind it. -/
def leaseBeforeTheme : WebStorage where
  rows := [("auth_refresh_lease:a", leaseText), ("theme", "dark")]
  unique := by decide

/-- Another tab adds an item during the second scan; the first one was left
undisturbed, and so the steady lease is found. -/
theorem lone_lease_found :
    ∃ passed log, ScanRun leaseAlone (readRefreshLeases parseLeaseText) []
        passed ⟨true, [heldLease]⟩ log
      ∧ passed = [leaseBeforeTheme]
      ∧ FindsSteady parseLeaseText leaseAlone passed ⟨true, [heldLease]⟩ := by
  have hread : [] ++ (leaseOf parseLeaseText
      (leaseAlone.getItem "auth_refresh_lease:a")).toList = [heldLease] := by
    show [] ++ (leaseOf parseLeaseText (some leaseText)).toList = _
    rw [leaseOf_leaseText]
    rfl
  have hadded : leaseBeforeTheme.rows.Perm (("theme", "dark") :: leaseAlone.rows) :=
    List.Perm.swap ..
  have hrun : ScanRun leaseAlone (readRefreshLeases parseLeaseText) []
      [leaseBeforeTheme] ⟨true, [heldLease]⟩
      [(.length, leaseAlone), (.key 0, leaseAlone),
        (.getItem "auth_refresh_lease:a", leaseAlone),
        (.length, leaseAlone), (.key 0, leaseBeforeTheme)] := by
    refine .ask (.ask (.ask (.ask (.write (.addItem "dark" ?_ hadded) (.ask ?_)))))
    · decide
    · rw [← hread]
      exact .done
  obtain ⟨first, second, scans, hscans, hfinds, -, hquiet⟩ :=
    steady_lease_found_iff parseLeaseText hrun rfl
  cases hscans
  refine ⟨_, _, hrun, rfl, hfinds (hquiet (Or.inl ?_))⟩
  intro a ha
  cases List.mem_singleton.mp ha
  rfl

/-- An item that is removed during the first scan and comes back during
the second hides a lease from both. -/
theorem other_item_hides_lease :
    ∃ passed log, ScanRun leaseBehindTheme (readRefreshLeases parseLeaseText)
        [] passed ⟨true, []⟩ log
      ∧ Steady leaseBehindTheme passed "auth_refresh_lease:a" leaseText
      ∧ ¬ FindsSteady parseLeaseText leaseBehindTheme passed ⟨true, []⟩ := by
  have hsteady : Steady leaseBehindTheme [leaseAlone, leaseBehindTheme]
      "auth_refresh_lease:a" leaseText := by
    intro x hx
    simp only [List.mem_cons, List.not_mem_nil, or_false] at hx
    rcases hx with rfl | rfl | rfl <;> rfl
  have hremoved : leaseAlone.rows.Perm (leaseBehindTheme.remove "theme").rows :=
    List.Perm.refl _
  have hadded : leaseBehindTheme.rows.Perm (("theme", "dark") :: leaseAlone.rows) :=
    List.Perm.refl _
  refine ⟨[leaseAlone, leaseBehindTheme],
    [(.length, leaseBehindTheme), (.key 0, leaseBehindTheme),
      (.key 1, leaseAlone), (.length, leaseAlone), (.key 0, leaseBehindTheme)],
    ?_, hsteady, ?_⟩
  · refine .ask (.ask (.write (.removeItem "theme" hremoved) (.ask (.ask
      (.write (.addItem "dark" ?_ hadded) (.ask ?_))))))
    · decide
    · exact .done
  · intro h
    exact absurd (h _ _ _ (by decide) hsteady leaseOf_leaseText)
      List.not_mem_nil

end Frontend

end Skrynia
