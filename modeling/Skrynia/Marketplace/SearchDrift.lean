/-
Search documents do not drift from their sources while no commit is
outdated.

# The argument

A document is a query over the source rows. What a transaction computed
for a product is right for what it sees now, unless a row that the
product's query reads has changed since its snapshot (`TxSound.derived`).
So a commit leaves every document right but in two cases: a document of
the transaction was overtaken by another commit, or a product that uses
the changed row by now was not among those that its trigger selected.
-/
import Skrynia.Marketplace.SearchDocuments

namespace Skrynia

open Querying Stepping

variable {V : Type} {T : TextSearch V}

-- ============================================================ refreshing

/-- The rows that a document depends on. -/
def documentReads (productId : Uuid) (sources : Sources) : List SourceKey :=
  (sourceQuery productId).reads sources

namespace TextSearch

variable {p : Uuid} {sources sources' : Sources}

/-- A document and the rows it depends on are the same where those rows
are. -/
theorem refreshed_congr (T : TextSearch V)
    (h : ∀ k ∈ documentReads p sources, sources' k = sources k) :
    T.refreshed p sources' = T.refreshed p sources
      ∧ documentReads p sources' = documentReads p sources := by
  refine ⟨?_, Query.reads_congr h⟩
  exact congrArg (Option.map T.document) (Query.eval_congr h)

/-- A product in a category has a document. -/
theorem refreshed_isSome (T : TextSearch V) {row : ProductSource}
    (hrow : sources (.product p) = some row)
    (hcategory : (sources (.category row.categoryId)).isSome) :
    (T.refreshed p sources).isSome := by
  obtain ⟨c, hc⟩ := Option.isSome_iff_exists.mp hcategory
  show (((sourceQuery p).eval sources).map T.document).isSome
  rw [Option.isSome_map]
  unfold sourceQuery
  simp only [Query.eval, hrow, hc]
  unfold withGame
  split
  · unfold withSection
    split
    · rfl
    · rfl
  · unfold withSection
    simp only [Query.eval]
    split
    · rfl
    · rfl

end TextSearch

-- ================================================================= views

namespace SearchTx

variable {tx : SearchTx V} {sources sources' : Sources} {k : SourceKey}

/-- The transaction has changed this row. -/
def Wrote (tx : SearchTx V) (k : SourceKey) : Prop :=
  tx.write.map Sigma.fst = some k

/-- A transaction changes one row. -/
theorem Wrote.eq {row : k.Row} {k' : SourceKey}
    (hwrite : tx.write = some ⟨k, row⟩) (h : tx.Wrote k') : k' = k := by
  unfold Wrote at h
  rw [hwrite] at h
  exact (Option.some.inj h).symm

/-- Without a change a transaction sees what is committed. -/
theorem view_of_none (hwrite : tx.write = none) : tx.view sources = sources := by
  unfold view
  rw [hwrite]

/-- With one it sees that as well. -/
theorem view_of_some {w : Σ k : SourceKey, k.Row} (hwrite : tx.write = some w) :
    tx.view sources = Function.update sources w.1 (some w.2) := by
  unfold view
  rw [hwrite]

/-- A transaction sees its own change whatever is committed. -/
theorem view_congr (h : sources' k = sources k ∨ tx.Wrote k) :
    tx.view sources' k = tx.view sources k := by
  cases hwrite : tx.write with
  | none =>
      rw [view_of_none hwrite, view_of_none hwrite]
      refine h.resolve_right ?_
      intro hwrote
      unfold Wrote at hwrote
      rw [hwrite] at hwrote
      cases hwrote
  | some w =>
      rw [view_of_some hwrite, view_of_some hwrite]
      by_cases hk : k = w.1
      · subst hk
        rw [Function.update_self, Function.update_self]
      · rw [Function.update_of_ne hk, Function.update_of_ne hk]
        exact h.resolve_right fun hwrote => hk (Wrote.eq hwrite hwrote)

/-- A committed row is seen by every transaction. -/
theorem isSome_view (h : (sources k).isSome) : (tx.view sources k).isSome := by
  cases hwrite : tx.write with
  | none =>
      rw [view_of_none hwrite]
      exact h
  | some w =>
      rw [view_of_some hwrite]
      by_cases hk : k = w.1
      · subst hk
        rw [Function.update_self]
        rfl
      · rw [Function.update_of_ne hk]
        exact h

/-- What is there stays there when other rows are committed. -/
theorem isSome_view_mono (h : ∀ k, (sources k).isSome → (sources' k).isSome)
    (k : SourceKey) (hk : (tx.view sources k).isSome) :
    (tx.view sources' k).isSome := by
  cases hwrite : tx.write with
  | none =>
      rw [view_of_none hwrite] at hk ⊢
      exact h k hk
  | some w =>
      rw [view_of_some hwrite] at hk ⊢
      by_cases hw : k = w.1
      · subst hw
        rw [Function.update_self]
        rfl
      · rw [Function.update_of_ne hw] at hk ⊢
        exact h k hk

/-- The row that a transaction wrote. -/
theorem Wrote.exists (h : tx.Wrote k) : ∃ row, tx.write = some ⟨k, row⟩ := by
  obtain ⟨w, hwrite, hk⟩ := Option.map_eq_some_iff.mp h
  subst hk
  exact ⟨w.2, hwrite⟩

end SearchTx

namespace SearchSystem

-- ============================================================= soundness

/-- What holds of a transaction that is under way. -/
structure TxSound (T : TextSearch V) (s : SearchSystem V) (tx : SearchTx V) :
    Prop where
  category : ∀ id (row : ProductSource), tx.write = some ⟨.product id, row⟩ →
    (s.sources (.category row.categoryId)).isSome
  targets : ∀ p ∈ tx.targets, (tx.view s.sources (.product p)).isSome
  computed : ∀ p, p ∉ tx.targets → tx.computed p = none
  uncomputed : (∀ pending, tx.phase ≠ .upserting pending) →
    ∀ p, tx.computed p = none
  derived : ∀ pending, tx.phase = .upserting pending → ∀ p ∈ tx.targets,
    (∀ k ∈ documentReads p (tx.view s.sources),
      tx.Wrote k ∨ s.changedAt k ≤ tx.refreshedAt) →
    tx.computed p = T.refreshed p (tx.view s.sources)
  refreshed : tx.refreshedAt ≤ s.commits

/-- Documents are what their queries give, categories are there, and every
transaction is sound. -/
structure Sound (T : TextSearch V) (s : SearchSystem V) : Prop where
  documents : ∀ p, s.documents p = T.refreshed p s.sources
  categorized : ∀ p (row : ProductSource),
    s.sources (.product p) = some row →
      (s.sources (.category row.categoryId)).isSome
  tx : ∀ t, TxSound T s (s.txs t)

variable {s s' : SearchSystem V} {t : Nat} {tx : SearchTx V}

/-- A transaction that has just begun has computed nothing. -/
theorem begun_sound (T : TextSearch V) (s : SearchSystem V) :
    TxSound T s .begun where
  category _ _ h := by cases h
  targets _ h := absurd h List.not_mem_nil
  computed _ _ := rfl
  uncomputed _ _ := rfl
  derived _ h := by cases h
  refreshed := Nat.zero_le _

/-- What is committed stays, and one transaction goes on. -/
theorem Sound.proceed (h : Sound T s) (htx : TxSound T s tx)
    (hsources : s'.sources = s.sources) (hdocuments : s'.documents = s.documents)
    (hcommits : s'.commits = s.commits) (hchanged : s'.changedAt = s.changedAt)
    (htxs : s'.txs = Function.update s.txs t tx) : Sound T s' := by
  have hkeep : ∀ x : SearchTx V, TxSound T s x → TxSound T s' x := by
    intro x h
    obtain ⟨hcategory, htargets, hcomputed, hnone, hderived, hrefreshed⟩ := h
    constructor
    · rw [hsources]
      exact hcategory
    · rw [hsources]
      exact htargets
    · exact hcomputed
    · exact hnone
    · rw [hsources, hchanged]
      exact hderived
    · rw [hcommits]
      exact hrefreshed
  constructor
  · rw [hdocuments, hsources]
    exact h.documents
  · rw [hsources]
    exact h.categorized
  · intro u
    rw [htxs]
    by_cases hu : u = t
    · subst hu
      rw [Function.update_self]
      exact hkeep tx htx
    · rw [Function.update_of_ne hu]
      exact hkeep _ (h.tx u)

/-- A transaction may end without a commit. -/
theorem Sound.release (h : Sound T s) (t : Nat) : Sound T (s.release t) :=
  h.proceed (begun_sound T s) rfl rfl rfl rfl rfl

/-- It may wait for a row lock. -/
theorem Sound.lockRow (h : Sound T s) (t : Nat) (k : SourceKey) (mode : RowLock) :
    Sound T (s.lockRow t k mode) := by
  have htxs : (s.lockRow t k mode).txs = Function.update s.txs t (s.txs t) :=
    (Function.update_eq_self t s.txs).symm
  exact h.proceed (h.tx t) rfl rfl rfl rfl htxs

/-- It may lock a row first, or go on at once. -/
theorem Sound.lock (h : Sound T s) (t : Nat) (k : SourceKey) (mode : RowLock) :
    Sound T (s.lock t k mode) := by
  unfold SearchSystem.lock
  split
  · split
    · exact h.lockRow t k mode
    · exact h
  · exact h

-- ============================================================ statements

/-- A change that no document has been computed for. -/
theorem written_sound {k : SourceKey} {row : k.Row} {phase : RefreshPhase}
    {targets : List Uuid}
    (hcategory : ∀ id (product : ProductSource),
      (⟨k, row⟩ : Σ k : SourceKey, k.Row) = ⟨.product id, product⟩ →
        (s.sources (.category product.categoryId)).isSome)
    (htargets : ∀ p ∈ targets, k = .product p)
    (hphase : ∀ pending, phase ≠ .upserting pending) :
    TxSound T s { SearchTx.begun with
      phase := phase
      write := some ⟨k, row⟩
      targets := targets } where
  category id product h := hcategory id product (Option.some.inj h)
  targets p hp := by
    obtain rfl := htargets p hp
    show (Function.update s.sources (.product p) (some row) (.product p)).isSome
    rw [Function.update_self]
    rfl
  computed _ _ := rfl
  uncomputed _ _ := rfl
  derived pending h := absurd h (hphase pending)
  refreshed := Nat.zero_le _

/-- A change that fires no trigger has no document to refresh. -/
theorem Sound.untriggered (h : Sound T s) (t : Nat) (k : SourceKey) :
    Sound T (s.untriggered t k) := by
  have htx : TxSound T s
      ({ SearchTx.begun with phase := .upserting [] } : SearchTx V) := by
    constructor
    · intro _ _ hwrite
      cases hwrite
    · exact fun _ hp => absurd hp List.not_mem_nil
    · exact fun _ _ => rfl
    · exact fun _ _ => rfl
    · exact fun _ _ _ hp => absurd hp List.not_mem_nil
    · exact Nat.zero_le _
  exact h.proceed htx rfl rfl rfl rfl rfl

/-- A product whose foreign keys hold has a category. -/
theorem category_of_referenced {row : ProductSource}
    (h : s.referenced row = true) :
    (s.sources (.category row.categoryId)).isSome := by
  unfold referenced at h
  rw [Bool.and_eq_true, Bool.and_eq_true] at h
  exact h.1.1

/-- A product is changed, with its foreign keys checked. -/
theorem writtenProduct_sound {id : Uuid} {row : ProductSource}
    (hrow : s.referenced row = true) :
    TxSound T s { SearchTx.begun with
      phase := .refreshing
      write := some ⟨.product id, row⟩
      targets := [id] } := by
  apply written_sound
  · intro id' product heq
    cases heq
    exact category_of_referenced hrow
  · intro p hp
    rw [List.mem_singleton.mp hp]
  · exact nofun

/-- A product is inserted with its foreign keys checked. -/
theorem Sound.insertProduct (h : Sound T s) (t : Nat) (id : Uuid)
    (row : ProductSource) : Sound T (s.insertProduct t id row) := by
  unfold SearchSystem.insertProduct
  split
  · split
    · exact h
    · split
      · next hrow =>
          exact h.proceed (writtenProduct_sound hrow) rfl rfl rfl rfl rfl
      · exact h.release t
  · exact h

/-- A row that is not there is not updated. -/
theorem Sound.updateRow (h : Sound T s) {k : SourceKey}
    {update : k.Row → SearchSystem V}
    (hupdate : ∀ row, s.sources k = some row → Sound T (update row)) :
    Sound T (s.updateRow t k update) := by
  unfold SearchSystem.updateRow
  split
  · next row _ hrow =>
      split
      · exact hupdate row hrow
      · exact h
  · exact h

/-- A product is changed with its foreign keys checked. -/
theorem Sound.updateProduct (h : Sound T s) (t : Nat) (id : Uuid)
    (changes : ProductChanges) : Sound T (s.updateProduct t id changes) := by
  apply h.updateRow
  intro row _
  split
  · split
    · next hrow =>
        exact h.proceed (writtenProduct_sound hrow) rfl rfl rfl rfl rfl
    · exact h.release t
  · exact h.untriggered t _

/-- A row of the catalog is changed, and no product loses its category. -/
theorem Sound.updateCatalogRow (h : Sound T s) (t : Nat) {k : SourceKey}
    (hk : ∀ id, k ≠ .product id) (fires : Bool) (apply : k.Row → k.Row) :
    Sound T (s.updateCatalogRow t k fires apply) := by
  apply h.updateRow
  intro row _
  split
  · refine h.proceed (written_sound ?_ ?_ ?_) rfl rfl rfl rfl rfl
    · intro id product heq
      exact absurd (congrArg Sigma.fst heq) (hk id)
    · exact fun _ hp => absurd hp List.not_mem_nil
    · exact nofun
  · exact h.untriggered t k

-- =============================================================== refresh

/-- The products that a trigger selects are there. -/
theorem isSome_of_mem_selected {sources : Sources} {k : SourceKey} {p : Uuid}
    (h : p ∈ s.selected sources k) : (sources (.product p)).isSome := by
  have huses := (List.mem_filter.mp h).2
  cases hrow : sources (.product p) with
  | none =>
      rw [hrow] at huses
      cases huses
  | some row => rfl

/-- The trigger of a catalog row selects the products that use it now. -/
theorem Sound.select (h : Sound T s) (t : Nat) : Sound T (s.select t) := by
  unfold SearchSystem.select
  dsimp only
  split
  · next k hphase =>
      have htx := h.tx t
      have hnone : ∀ p, (s.txs t).computed p = none := by
        apply htx.uncomputed
        rw [hphase]
        exact nofun
      refine h.proceed ?_ rfl rfl rfl rfl rfl
      constructor
      · exact htx.category
      · exact fun p hp => isSome_of_mem_selected hp
      · exact fun p _ => hnone p
      · exact fun _ => hnone
      · intro pending hpending p hp _
        dsimp only at hpending hp
        rw [if_neg (List.ne_nil_of_mem hp)] at hpending
        cases hpending
      · exact htx.refreshed
  · exact h

/-- The trigger computes a document from what its transaction sees. -/
theorem Sound.refresh (h : Sound T s) (t : Nat) : Sound T (s.refresh T t) := by
  unfold SearchSystem.refresh
  dsimp only
  split
  · have htx := h.tx t
    refine h.proceed ?_ rfl rfl rfl rfl rfl
    constructor
    · exact htx.category
    · exact htx.targets
    · exact fun p hp => if_neg hp
    · exact fun hphase => absurd rfl (hphase _)
    · exact fun _ _ p hp _ => if_pos hp
    · exact Nat.le_refl _
  · exact h

/-- A document is upserted, and what the transaction has computed stays as it
was. -/
theorem Sound.upsert (h : Sound T s) (t : Nat) (productId : Uuid) :
    Sound T (s.upsert t productId) := by
  unfold SearchSystem.upsert
  dsimp only
  split
  · next pending hphase =>
      split
      · have htx := h.tx t
        refine h.proceed ?_ rfl rfl rfl rfl rfl
        constructor
        · exact htx.category
        · exact htx.targets
        · exact htx.computed
        · exact fun hne => absurd rfl (hne _)
        · exact fun _ _ => htx.derived pending hphase
        · exact htx.refreshed
      · exact h
  · exact h

-- ================================================================ commit

/-- A product that uses the changed row now is not among the products that
the trigger selected. -/
def Missed (s : SearchSystem V) (t : Nat) (p : Uuid) : Prop :=
  p ∉ (s.txs t).targets
    ∧ ∃ k ∈ documentReads p ((s.txs t).view s.sources), (s.txs t).Wrote k

/-- A row that the document of a selected product depends on was changed by
another commit since the snapshot of the refresh. -/
def Overtaken (s : SearchSystem V) (t : Nat) (p : Uuid) : Prop :=
  p ∈ (s.txs t).targets
    ∧ ∃ k ∈ documentReads p ((s.txs t).view s.sources),
      ¬ (s.txs t).Wrote k ∧ (s.txs t).refreshedAt < s.changedAt k

/-- A commit leaves the other rows as they are. -/
theorem sources_commitTx_of_not_wrote {k : SourceKey}
    (h : ¬ (s.txs t).Wrote k) :
    (s.commitTx t).sources k = s.sources k
      ∧ (s.commitTx t).changedAt k = s.changedAt k := by
  unfold commitTx
  dsimp only
  cases hwrite : (s.txs t).write with
  | none =>
      rw [SearchTx.view_of_none hwrite]
      exact ⟨rfl, rfl⟩
  | some w =>
      have hk : k ≠ w.1 := by
        intro heq
        subst heq
        apply h
        unfold SearchTx.Wrote
        rw [hwrite]
        rfl
      rw [SearchTx.view_of_some hwrite, Function.update_of_ne hk]
      exact ⟨rfl, if_neg hk⟩

/-- A commit dates the row it has changed. -/
theorem changedAt_commitTx_of_wrote {k : SourceKey} (h : (s.txs t).Wrote k) :
    (s.commitTx t).changedAt k = s.commits + 1 := by
  unfold commitTx
  dsimp only
  cases hwrite : (s.txs t).write with
  | none =>
      unfold SearchTx.Wrote at h
      rw [hwrite] at h
      cases h
  | some w => exact if_pos (SearchTx.Wrote.eq hwrite h)

/-- A commit and another transaction: what that has computed is right for
what it sees, or overtaken. -/
theorem TxSound.commitTx (htx : TxSound T s tx) (t : Nat) :
    TxSound T (s.commitTx t) tx where
  category id row hwrite := SearchTx.isSome_view (htx.category id row hwrite)
  targets p hp := by
    apply SearchTx.isSome_view_mono _ _ (htx.targets p hp)
    exact fun k hk => SearchTx.isSome_view hk
  computed := htx.computed
  uncomputed := htx.uncomputed
  derived pending hphase p hp hfresh := by
    -- Where the document depends on a row, nobody else has changed it.
    have hagree : ∀ k ∈ documentReads p (tx.view (s.commitTx t).sources),
        tx.view s.sources k = tx.view (s.commitTx t).sources k
          ∧ (tx.Wrote k ∨ s.changedAt k ≤ tx.refreshedAt) := by
      intro k hk
      by_cases hwrote : (s.txs t).Wrote k
      · rcases hfresh k hk with hown | hold
        · exact ⟨SearchTx.view_congr (Or.inr hown), Or.inl hown⟩
        · rw [changedAt_commitTx_of_wrote hwrote] at hold
          exact absurd (Nat.le_trans hold htx.refreshed) (Nat.not_succ_le_self _)
      · obtain ⟨hsame, hchanged⟩ := sources_commitTx_of_not_wrote hwrote
        refine ⟨SearchTx.view_congr (Or.inl hsame.symm), ?_⟩
        rw [← hchanged]
        exact hfresh k hk
    obtain ⟨hsame, hreads⟩ := T.refreshed_congr fun k hk => (hagree k hk).1
    rw [← hsame]
    apply htx.derived pending hphase p hp
    intro k hk
    rw [hreads] at hk
    exact (hagree k hk).2
  refreshed := Nat.le_succ_of_le htx.refreshed

/-- What a commit makes of the documents. Those that it writes are what its
refresh read; nothing that was committed since differs from that, by the two
conditions. -/
theorem Sound.commitTx (h : Sound T s) {t : Nat} {pending : List Uuid}
    (hphase : (s.txs t).phase = .upserting pending)
    (hmissed : ∀ p, ¬ Missed s t p) (hovertaken : ∀ p, ¬ Overtaken s t p) :
    Sound T (s.commitTx t) := by
  have htx := h.tx t
  have hcategorized : ∀ p (row : ProductSource),
      (s.commitTx t).sources (.product p) = some row →
        ((s.commitTx t).sources (.category row.categoryId)).isSome := by
    intro p row hrow
    apply SearchTx.isSome_view
    by_cases hwrote : (s.txs t).Wrote (.product p)
    · obtain ⟨row', hwrite⟩ := hwrote.exists
      have hview : (s.commitTx t).sources (.product p) = some row' := by
        show (s.txs t).view s.sources (.product p) = some row'
        rw [SearchTx.view_of_some hwrite]
        exact Function.update_self _ _ _
      rw [Option.some.inj (hrow.symm.trans hview)]
      exact htx.category p row' hwrite
    · rw [(sources_commitTx_of_not_wrote hwrote).1] at hrow
      exact h.categorized p row hrow
  refine ⟨?_, hcategorized, ?_⟩
  · intro p
    show ((s.txs t).computed p).or (s.documents p)
      = T.refreshed p ((s.txs t).view s.sources)
    by_cases hp : p ∈ (s.txs t).targets
    · have hcomputed : (s.txs t).computed p
          = T.refreshed p ((s.txs t).view s.sources) := by
        apply htx.derived pending hphase p hp
        intro k hk
        by_cases hwrote : (s.txs t).Wrote k
        · exact Or.inl hwrote
        · refine Or.inr (Nat.le_of_not_lt ?_)
          exact fun hlt => hovertaken p ⟨hp, k, hk, hwrote, hlt⟩
      obtain ⟨row, hrow⟩ := Option.isSome_iff_exists.mp (htx.targets p hp)
      have hsome := T.refreshed_isSome hrow (hcategorized p row hrow)
      rw [hcomputed, Option.or_of_isSome hsome]
    · rw [htx.computed p hp, Option.none_or, h.documents p]
      -- The query of a product that was not selected reads other rows.
      refine (T.refreshed_congr ?_).1
      intro k hk
      refine (SearchSystem.sources_commitTx_of_not_wrote ?_).1.symm
      exact fun hwrote => hmissed p ⟨hp, k, hk, hwrote⟩
  · intro u
    by_cases hu : u = t
    · subst hu
      have hbegun : (s.commitTx u).txs u = .begun := Function.update_self _ _ _
      rw [hbegun]
      exact begun_sound T _
    · have hother : (s.commitTx t).txs u = s.txs u := Function.update_of_ne hu _ _
      rw [hother]
      exact (h.tx u).commitTx t

-- ================================================================== runs

/-- A transaction commits, its statement done, with a document missed or
overtaken. -/
def Outdated (s : SearchSystem V) (e : SearchEvent) : Prop :=
  ∃ t p, e = .commit t ∧ (s.txs t).phase = .upserting []
    ∧ (Missed s t p ∨ Overtaken s t p)

/-- Every statement keeps documents right, but for an outdated commit. -/
theorem Sound.step (h : Sound T s) (e : SearchEvent) (he : ¬ Outdated s e) :
    Sound T (SearchSystem.step T s e) := by
  cases e with
  | lock t k mode => exact h.lock t k mode
  | insertProduct t id row => exact h.insertProduct t id row
  | updateProduct t id changes => exact h.updateProduct t id changes
  | updateGame t id changes => exact h.updateCatalogRow t (fun _ hk => by cases hk) _ _
  | updateCategory t id changes => exact h.updateCatalogRow t (fun _ hk => by cases hk) _ _
  | updateSection t id name => exact h.updateCatalogRow t (fun _ hk => by cases hk) _ _
  | select t => exact h.select t
  | refresh t => exact h.refresh t
  | upsert t productId => exact h.upsert t productId
  | commit t =>
      show Sound T (s.commit t)
      unfold SearchSystem.commit
      split
      · exact h.release t
      · next hphase =>
          apply h.commitTx hphase
          · exact fun p hp => he ⟨t, p, rfl, hphase, Or.inl hp⟩
          · exact fun p hp => he ⟨t, p, rfl, hphase, Or.inr hp⟩
      · exact h
  | rollback t => exact h.release t

/-- The migration computes every document from its sources. -/
theorem backfilled_sound (T : TextSearch V) (catalog : MigratedCatalog) :
    Sound T (catalog.backfilled T) where
  documents _ := rfl
  categorized := catalog.categorized
  tx _ := begun_sound T _

/-- In every run without an outdated commit, the stored document of every
product is the one its sources give. The triggers keep it from one statement
to the next; only a refresh that read its sources before another transaction
committed them could store less. -/
theorem search_documents_never_drift (T : TextSearch V)
    (catalog : MigratedCatalog) (events : List SearchEvent)
    (h : Along (step T) (fun s e => ¬ Outdated s e) (catalog.backfilled T)
      events) (p : Uuid) :
    (run (step T) (catalog.backfilled T) events).documents p
      = T.refreshed p (run (step T) (catalog.backfilled T) events).sources :=
  (run_keeps_along (fun _ e he hs => hs.step e he) h
    (backfilled_sound T catalog)).documents p

-- ================================================================= drift

/-- Text without accents and upper-case letters. -/
def plainText : TextSearch (List (String × Char)) where
  unaccent := id
  lower := id
  isSpace c := c = ' '
  toTsvector text := (text.splitOn " ").map fun word => (word, 'D')
  setweight v weight := v.map fun x => (x.1, weight)
  append v w := v ++ w
  collate a b := a ≤ b

/-- One product with its game and its category. -/
def oneProduct : MigratedCatalog where
  sources
    | .product id =>
        if id = ⟨1⟩ then
          some (⟨⟨3⟩, some ⟨2⟩, none, "gold", "a hundred gold coins", "currency",
            none, none⟩ : ProductSource)
        else none
    | .game id => if id = ⟨2⟩ then some (⟨"chess", []⟩ : GameSource) else none
    | .category id =>
        if id = ⟨3⟩ then some (⟨"currency", []⟩ : CategorySource) else none
    | .gameSection _ => none
  ids := [⟨1⟩]
  listed p h := by
    by_cases hp : p = ⟨1⟩
    · rw [hp]
      exact List.mem_singleton_self _
    · dsimp only at h
      rw [if_neg hp] at h
      cases h
  categorized p row h := by
    dsimp only at h
    by_cases hp : p = ⟨1⟩
    · rw [if_pos hp] at h
      cases h
      rfl
    · rw [if_neg hp] at h
      cases h

/-- A game is renamed, and its product's document written again. -/
def renameGame (t : Nat) : List SearchEvent :=
  [.updateGame t ⟨2⟩ ⟨some "checkers", none⟩, .select t, .refresh t]

/-- A game is renamed alone, and the document of its product follows. -/
theorem no_drift_of_renameGame :
    (run (step plainText) (oneProduct.backfilled plainText)
      (renameGame 1 ++ [.upsert 1 ⟨1⟩, .commit 1])).documents ⟨1⟩
      = plainText.refreshed ⟨1⟩ (run (step plainText)
        (oneProduct.backfilled plainText)
        (renameGame 1 ++ [.upsert 1 ⟨1⟩, .commit 1])).sources := by
  apply search_documents_never_drift
  have hearly : ∀ {s : SearchSystem (List (String × Char))} {e : SearchEvent},
      (∀ t, e ≠ .commit t) → ¬ Outdated s e := by
    intro s e hne h
    obtain ⟨t, p, he, -⟩ := h
    exact hne t he
  refine ⟨hearly nofun, hearly nofun, hearly nofun, hearly nofun, ?_, trivial⟩
  intro h
  rcases h with ⟨t, p, he, -, ⟨htargets, k, hk, hwrote⟩ | ⟨-, k, -, -, hlt⟩⟩
  · cases he
    by_cases hp : p = ⟨1⟩
    · subst hp
      exact htargets (List.mem_singleton_self _)
    · -- Any other id is no product, and its query reads nothing else.
      have hreads : documentReads p oneProduct.sources = [.product p] := by
        unfold documentReads sourceQuery
        have hnone : oneProduct.sources (.product p) = none := if_neg hp
        simp only [Query.reads, hnone]
      have hk' : k ∈ documentReads p oneProduct.sources := by
        rw [← (plainText.refreshed_congr _).2]
        · exact hk
        · rw [hreads]
          intro k hk
          rw [List.mem_singleton.mp hk]
          rfl
      rw [hreads, List.mem_singleton] at hk'
      subst hk'
      cases hwrote
  · cases he
    exact absurd hlt (Nat.lt_irrefl 0)

/-- A product is renamed while the name of its game changes. -/
theorem drift_of_concurrent_renames : ¬ ∀ (V : Type) (T : TextSearch V)
    (catalog : MigratedCatalog) (events : List SearchEvent),
    (∀ t, (run (step T) (catalog.backfilled T) events).txs t = .begun) →
      ∀ p, (run (step T) (catalog.backfilled T) events).documents p
        = T.refreshed p (run (step T) (catalog.backfilled T) events).sources := by
  intro h
  have hdocument := h _ plainText oneProduct
    ([.lock 1 (.product ⟨1⟩) .update,
      .updateProduct 1 ⟨1⟩ ⟨none, none, none, some "coin", none, none, none, none⟩,
      .refresh 1, .upsert 1 ⟨1⟩] ++ renameGame 2
      ++ [.commit 1, .upsert 2 ⟨1⟩, .commit 2])
    (fun
      | 0 => rfl
      | 1 => rfl
      | 2 => rfl
      | _ + 3 => rfl) ⟨1⟩
  have htitle := congrArg (Option.map SearchDocument.normalizedTitle) hdocument
  exact absurd htitle (by decide)

end SearchSystem

end Skrynia
