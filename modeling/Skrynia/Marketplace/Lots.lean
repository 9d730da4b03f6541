/-
Lots, which are the rows of `products` with their catalog columns, and
what `POST /products` and `PATCH /products/:id` compute between their
statements.

A handler alternates queries and decisions. The decisions are here, each
a function of what the query before it returned, so that they serve both
for handlers that run at once and for ones that run alone. Media uploads
are left out: they write other tables, and can only make a request fail.
-/
import Skrynia.Catalog.Validation
import Skrynia.Common.MoneyText
import Skrynia.Marketplace.Cursor

namespace Skrynia

open Relational

-- =============================================================== catalog

/-- `status` of groups, games and sections. -/
inductive CatalogStatus where
  | draft
  | active
  | hidden
  | archived
  | deleted
deriving DecidableEq

/-- `catalog_schemas.status`. -/
inductive CatalogSchemaStatus where
  | draft
  | active
  | archived
deriving DecidableEq

/-- The row that `resolveActiveSectionChain` selects. -/
structure SectionChainRow where
  sectionId : Uuid
  categoryId : Option Uuid
  gameId : Uuid
  groupId : Uuid
  productType : ProductType
  allowedDeliveryTypes : List DeliveryType
  sectionStatus : CatalogStatus
  itemStatus : CatalogStatus
  groupStatus : CatalogStatus
  currentSchemaVersion : Option Nat
  schemaStatus : Option CatalogSchemaStatus

/-- A section that is active up to its group. -/
structure ActiveSectionChain where
  sectionId : Uuid
  categoryId : Option Uuid
  gameId : Uuid
  groupId : Uuid
  productType : ProductType
  allowedDeliveryTypes : List DeliveryType
  schemaVersion : Nat

/-- `resolveActiveSectionChain`. -/
def resolveActiveSectionChain (row : Option SectionChainRow) :
    Except Failure ActiveSectionChain :=
  match row with
  | none => .error (notFound "Section not found")
  | some row =>
      if row.groupStatus ≠ .active ∨ row.itemStatus ≠ .active
          ∨ row.sectionStatus ≠ .active then
        .error (badRequest "This section is not available for creating lots")
      else
        match row.currentSchemaVersion with
        | some (version + 1) =>
            if row.schemaStatus = some .active then
              .ok {
                sectionId := row.sectionId
                categoryId := row.categoryId
                gameId := row.gameId
                groupId := row.groupId
                productType := row.productType
                allowedDeliveryTypes := row.allowedDeliveryTypes
                schemaVersion := version + 1 }
            else
              .error (badRequest
                "This section does not have a published schema yet")
        -- a version 0 is as good as none
        | _ =>
            .error (badRequest
              "This section does not have a published schema yet")

/-- The row that `validateLotMetadata` selects; the schema is that of the
current version, if this one is active. -/
structure LotSchemaRow where
  schemaVersion : Option Nat
  schema : Option CatalogSchema

/-- Metadata as they are stored, with the version they were validated
against. -/
structure ValidatedMetadata where
  metadata : Metadata
  schemaVersion : Option Nat

/-- `validateLotMetadata`. -/
def validateLotMetadata (sectionId : Option Uuid) (rawMetadata : Metadata)
    (row : Option LotSchemaRow) : Except Failure ValidatedMetadata :=
  match sectionId, row.bind LotSchemaRow.schema with
  | some _, some schema =>
      match validateMetadataAgainstSchema schema rawMetadata with
      | .error e => .error e
      | .ok metadata => .ok ⟨metadata, row.bind LotSchemaRow.schemaVersion⟩
  | _, _ => .ok ⟨rawMetadata, none⟩

/-- Metadata with a version were validated against the schema of that
version. -/
theorem validateLotMetadata_eq_ok {sectionId : Option Uuid}
    {raw : Metadata} {row : Option LotSchemaRow}
    {validated : ValidatedMetadata} {version : Nat}
    (h : validateLotMetadata sectionId raw row = .ok validated)
    (hversion : validated.schemaVersion = some version) :
    ∃ schema, row.bind LotSchemaRow.schema = some schema
      ∧ row.bind LotSchemaRow.schemaVersion = some version
      ∧ validateMetadataAgainstSchema schema raw = .ok validated.metadata := by
  unfold validateLotMetadata at h
  split at h
  · next schema _ hschema =>
      split at h
      · cases h
      · next metadata hmetadata =>
          injection h with h
          subst h
          exact ⟨_, hschema, hversion, hmetadata⟩
  · injection h with h
    subst h
    cases hversion

-- ================================================================== rows

/-- The columns of `products` that only the listing routes read or write. -/
structure LotColumns where
  categoryId : Uuid
  gameId : Option Uuid
  sectionId : Option Uuid
  title : String
  description : String
  productType : ProductType
  oldPriceCents : Option MoneyCents
  server : Option String
  platform : Option String
  metadata : Metadata
  schemaVersion : Option Nat
  /-- `products_section_schema_nullity_check`. -/
  pinned : sectionId.isSome = schemaVersion.isSome
  oldPrice_pos : ∀ m ∈ oldPriceCents, 0 < m.val

/-- A row of `products`. -/
structure Lot where
  product : Product
  columns : LotColumns

/-- `mapUser`'s fields that the routes check. -/
structure Requester where
  id : Uuid
  role : Role
  emailVerified : Bool

/-- A text of a length between two bounds, in UTF-16 units. -/
abbrev Sized (min max : Nat) :=
  { s : String // min ≤ utf16Length s ∧ utf16Length s ≤ max }

/-- What `productSchema` parses. -/
structure ProductInput where
  categoryId : Option Uuid
  gameId : Option Uuid
  sectionId : Option Uuid
  title : Sized 4 140
  description : Sized 20 5000
  price : String
  currency : Sized 3 3
  stock : Fin 100001
  deliveryType : DeliveryType
  productType : Option ProductType
  oldPrice : Option String
  server : Option (Sized 0 80)
  platform : Option (Sized 0 80)
  deliveryTemplate : Option (Sized 0 5000)
  metadata : Metadata

/-- What `productPatchSchema` parses. The outer option is `undefined`, an
inner one `null`. -/
structure ProductPatch where
  categoryId : Option Uuid
  gameId : Option (Option Uuid)
  sectionId : Option (Option Uuid)
  title : Option (Sized 4 140)
  description : Option (Sized 20 5000)
  price : Option String
  currency : Option (Sized 3 3)
  stock : Option (Fin 100001)
  deliveryType : Option DeliveryType
  productType : Option ProductType
  oldPrice : Option (Option String)
  server : Option (Option (Sized 0 80))
  platform : Option (Option (Sized 0 80))
  deliveryTemplate : Option (Option (Sized 0 5000))
  metadata : Option (Option Metadata)
  status : Option { s : ProductStatus // s = .active ∨ s = .paused }

-- ======================================================== categorization

/-- Where a listing is placed. -/
structure Categorization where
  categoryId : Option Uuid
  gameId : Option Uuid
  sectionId : Option Uuid
  productType : Option ProductType
  /-- No list is no restriction. -/
  allowedDeliveryTypes : Option (List DeliveryType)
  activeSchemaVersion : Option Nat

/-- With a section: after its chain was selected. -/
def resolveCategorization (categoryId gameId sectionId : Option Uuid)
    (chain : Option SectionChainRow) : Except Failure Categorization :=
  match sectionId with
  | some _ =>
      match resolveActiveSectionChain chain with
      | .error e => .error e
      | .ok chain =>
          if gameId.any (· ≠ chain.gameId) then
            .error (badRequest "Section does not belong to the selected game")
          else
            .ok {
              categoryId := chain.categoryId
              gameId := some chain.gameId
              sectionId := some chain.sectionId
              productType := some chain.productType
              allowedDeliveryTypes := some chain.allowedDeliveryTypes
              activeSchemaVersion := some chain.schemaVersion }
  | none =>
      match categoryId with
      | none => .error (badRequest "categoryId or sectionId is required")
      | some categoryId =>
          .ok {
            categoryId := some categoryId
            gameId := gameId
            sectionId := none
            productType := none
            allowedDeliveryTypes := none
            activeSchemaVersion := none }

/-- `assertDeliveryTypeAllowed`. -/
def assertDeliveryTypeAllowed (allowed : Option (List DeliveryType))
    (deliveryType : DeliveryType) : Except Failure Unit :=
  if allowed.any fun types => deliveryType ∉ types then
    .error (badRequest ("This section does not allow delivery type \""
      ++ deliveryType.text ++ "\""))
  else .ok ()

/-- `The section schema changed while validating metadata`. -/
def schemaChanged : Failure :=
  badRequest "The section schema changed while validating metadata"

-- ============================================================== creation

namespace ProductInput

variable (input : ProductInput)

/-- Up to the metadata. -/
def categorize (chain : Option SectionChainRow) :
    Except Failure Categorization := do
  let categorization ← resolveCategorization input.categoryId input.gameId
    input.sectionId chain
  assertDeliveryTypeAllowed categorization.allowedDeliveryTypes
    input.deliveryType
  return categorization

/-- The metadata of a new listing; their version must be the one of its
section. -/
def validate (categorization : Categorization)
    (row : Option LotSchemaRow) : Except Failure ValidatedMetadata := do
  let validated ← validateLotMetadata categorization.sectionId input.metadata
    row
  if validated.schemaVersion ≠ categorization.activeSchemaVersion then
    throw schemaChanged
  return validated

/-- An empty text is no price. -/
def oldPriceCents : Except Failure (Option MoneyCents) :=
  match input.oldPrice with
  | none => .ok none
  | some oldPrice =>
      if oldPrice.isEmpty then .ok none
      else (MoneyText.moneyColumn oldPrice).map some

/-- The CHECK constraints, on the way to a row. -/
def insertRow (upper : String → String) (id sellerId : Uuid)
    (categorization : Categorization) (validated : ValidatedMetadata) :
    Except Failure Lot := do
  let priceCents ← MoneyText.moneyColumn input.price
  let oldPriceCents ← input.oldPriceCents
  match categorization.categoryId with
  | none => throw (.violation "category_id")
  | some categoryId =>
      if hprice : 0 < priceCents.val then
        if hold : ∀ m ∈ oldPriceCents, 0 < m.val then
          if hpinned : categorization.sectionId.isSome
              = validated.schemaVersion.isSome then
            return {
              product := {
                id := id
                sellerId := sellerId
                priceCents := priceCents
                currency := upper input.currency
                stock := input.stock
                status := .active
                deliveryType := input.deliveryType
                deliveryTemplate := input.deliveryTemplate.map Subtype.val
                salesCount := 0
                price_pos := hprice }
              columns := {
                categoryId := categoryId
                gameId := categorization.gameId
                sectionId := categorization.sectionId
                title := input.title
                description := input.description
                productType := (categorization.productType.or
                  input.productType).getD .service
                oldPriceCents := oldPriceCents
                server := input.server.map Subtype.val
                platform := input.platform.map Subtype.val
                metadata := validated.metadata.stored
                schemaVersion := validated.schemaVersion
                pinned := hpinned
                oldPrice_pos := hold } }
          else throw (.violation "products_section_schema_nullity_check")
        else throw (.violation "products_old_price_cents_check")
      else throw (.violation "products_price_cents_check")

variable {input}

/-- What is validated conforms, to the version of the section where the
listing is placed. -/
theorem validate_eq_ok {categorization : Categorization}
    {row : Option LotSchemaRow} {validated : ValidatedMetadata}
    (h : input.validate categorization row = .ok validated) :
    validateLotMetadata categorization.sectionId input.metadata row
      = .ok validated := by
  obtain ⟨validated', hvalid, h⟩ := except_bind_eq_ok.mp h
  dsimp only at h
  split at h
  · cases h
  · injection h with h
    rw [hvalid, h]

/-- The columns that say where a new listing belongs. -/
theorem insertRow_eq_ok {upper : String → String} {id sellerId : Uuid}
    {categorization : Categorization} {validated : ValidatedMetadata}
    {lot : Lot} (h : input.insertRow upper id sellerId categorization validated
      = .ok lot) :
    lot.columns.sectionId = categorization.sectionId
      ∧ lot.columns.schemaVersion = validated.schemaVersion
      ∧ lot.columns.metadata = validated.metadata.stored := by
  obtain ⟨priceCents, -, h⟩ := except_bind_eq_ok.mp h
  obtain ⟨oldPriceCents, -, h⟩ := except_bind_eq_ok.mp h
  split at h
  · cases h
  · split at h
    · split at h
      · split at h
        · injection h with h
          subst h
          exact ⟨rfl, rfl, rfl⟩
        · cases h
      · cases h
    · cases h

end ProductInput

-- ================================================================ editing

/-- The part of a categorization that a PATCH writes. -/
structure PatchCategorization where
  categoryId : Option (Option Uuid)
  gameId : Option (Option Uuid)
  sectionId : Option (Option Uuid)
  productType : Option ProductType
  allowedDeliveryTypes : Option (List DeliveryType)
  activeSchemaVersion : Option Nat

namespace ProductPatch

variable (input : ProductPatch) (existing : Lot)

/-- The edit asks for the listing to be active. -/
def activates : Bool := input.status.any fun s => s.val == .active

/-- The section after the edit. -/
def targetSectionId : Option Uuid :=
  input.sectionId.getD existing.columns.sectionId

/-- The edit moves the listing to another section. -/
def sectionChanged : Bool :=
  input.sectionId.isSome && input.targetSectionId existing
    != existing.columns.sectionId

/-- The checks before any other query. -/
def authorize (requester : Requester) : Except Failure Unit :=
  if existing.product.sellerId ≠ requester.id ∧ requester.role ≠ .admin then
    .error (forbidden "Forbidden")
  else if input.sectionChanged existing && input.metadata.isNone then
    .error (badRequest "metadata is required when changing sectionId")
  else .ok ()

/-- The section whose chain is selected, and locked. -/
def chainOf : Option Uuid :=
  match input.sectionId with
  | some (some sectionId) => some sectionId
  | _ =>
      if input.sectionChanged existing then none
      else if input.metadata.isSome || input.deliveryType.isSome
          || input.activates then existing.columns.sectionId
      else none

/-- The three ways to a categorization. -/
def categorization (chain : Option SectionChainRow) :
    Except Failure PatchCategorization :=
  match input.sectionId with
  | some (some sectionId) =>
      match resolveCategorization input.categoryId (input.gameId.join)
          (some sectionId) chain with
      | .error e => .error e
      | .ok resolved =>
          .ok {
            categoryId := some resolved.categoryId
            gameId := some resolved.gameId
            sectionId := some resolved.sectionId
            productType := resolved.productType
            allowedDeliveryTypes := resolved.allowedDeliveryTypes
            activeSchemaVersion := resolved.activeSchemaVersion }
  | _ =>
      if input.sectionChanged existing then
        match input.categoryId with
        | none =>
            .error (badRequest "categoryId is required when clearing sectionId")
        | some categoryId =>
            .ok {
              categoryId := some (some categoryId)
              gameId := some input.gameId.join
              sectionId := some none
              productType := input.productType
              allowedDeliveryTypes := none
              activeSchemaVersion := none }
      else if existing.columns.sectionId.isNone then
        .ok {
          categoryId := input.categoryId.map some
          gameId := input.gameId
          sectionId := none
          productType := input.productType
          allowedDeliveryTypes := none
          activeSchemaVersion := none }
      else if (input.chainOf existing).isNone then
        .ok ⟨none, none, none, none, none, none⟩
      else
        match resolveActiveSectionChain chain with
        | .error e => .error e
        | .ok chain =>
            .ok {
              categoryId := if input.activates then some chain.categoryId else none
              gameId := if input.activates then some (some chain.gameId) else none
              sectionId := none
              productType := if input.activates then some chain.productType else none
              allowedDeliveryTypes := some chain.allowedDeliveryTypes
              activeSchemaVersion := some chain.schemaVersion }

/-- Up to the metadata. -/
def categorize (chain : Option SectionChainRow) :
    Except Failure PatchCategorization := do
  let categorization ← input.categorization existing chain
  assertDeliveryTypeAllowed categorization.allowedDeliveryTypes
    (input.deliveryType.getD existing.product.deliveryType)
  if input.activates && (input.targetSectionId existing).isSome
      && input.metadata.isNone
      && existing.columns.schemaVersion != categorization.activeSchemaVersion then
    throw (badRequest
      "metadata must be resubmitted before activating a product with an outdated schema")
  return categorization

/-- The metadata is validated: what was submitted, or else what is stored. -/
def validates : Bool := input.metadata.isSome || input.activates

/-- The metadata after the edit. -/
def rawMetadata : Metadata :=
  match input.metadata with
  | some submitted => submitted.getD fun _ => none
  | none => existing.columns.metadata

/-- The metadata after the edit, validated against the section after it. -/
def validate (categorization : PatchCategorization)
    (row : Option LotSchemaRow) : Except Failure ValidatedMetadata := do
  let validated ← validateLotMetadata (input.targetSectionId existing)
    (input.rawMetadata existing) row
  if (input.targetSectionId existing).isSome
      && validated.schemaVersion != categorization.activeSchemaVersion then
    throw schemaChanged
  return validated

/-- The price after the edit. -/
def priceCents : Except Failure MoneyCents :=
  match input.price with
  | none => .ok existing.product.priceCents
  | some price => MoneyText.moneyColumn price

/-- The old price after the edit. -/
def oldPriceCents : Except Failure (Option MoneyCents) :=
  match input.oldPrice with
  | none => .ok existing.columns.oldPriceCents
  | some none => .ok none
  | some (some oldPrice) => (MoneyText.moneyColumn oldPrice).map some

/-- The UPDATE of `buildDynamicUpdate`: columns without a value keep
theirs. -/
def updateRow (upper : String → String)
    (categorization : PatchCategorization)
    (validated : Option ValidatedMetadata) : Except Failure Lot := do
  let priceCents ← input.priceCents existing
  let oldPriceCents ← input.oldPriceCents existing
  match categorization.categoryId.getD (some existing.columns.categoryId) with
  | none => throw (.violation "category_id")
  | some categoryId =>
      let sectionId := categorization.sectionId.getD existing.columns.sectionId
      let schemaVersion := validated.elim existing.columns.schemaVersion
        ValidatedMetadata.schemaVersion
      if hprice : 0 < priceCents.val then
        if hold : ∀ m ∈ oldPriceCents, 0 < m.val then
          if hpinned : sectionId.isSome = schemaVersion.isSome then
            return {
              product := {
                existing.product with
                priceCents := priceCents
                currency := (input.currency.map fun c => upper c.val).getD
                  existing.product.currency
                stock := (input.stock.map Fin.val).getD existing.product.stock
                status := (input.status.map Subtype.val).getD
                  existing.product.status
                deliveryType := input.deliveryType.getD
                  existing.product.deliveryType
                deliveryTemplate := match input.deliveryTemplate with
                  | none => existing.product.deliveryTemplate
                  | some template => template.map Subtype.val
                price_pos := hprice }
              columns := {
                categoryId := categoryId
                gameId := categorization.gameId.getD existing.columns.gameId
                sectionId := sectionId
                title := (input.title.map Subtype.val).getD
                  existing.columns.title
                description := (input.description.map Subtype.val).getD
                  existing.columns.description
                productType := categorization.productType.getD
                  existing.columns.productType
                oldPriceCents := oldPriceCents
                server := match input.server with
                  | none => existing.columns.server
                  | some server => server.map Subtype.val
                platform := match input.platform with
                  | none => existing.columns.platform
                  | some platform => platform.map Subtype.val
                metadata := validated.elim existing.columns.metadata
                  fun validated => validated.metadata.stored
                schemaVersion := schemaVersion
                pinned := hpinned
                oldPrice_pos := hold } }
          else throw (.violation "products_section_schema_nullity_check")
        else throw (.violation "products_old_price_cents_check")
      else throw (.violation "products_price_cents_check")

variable {input existing}

/-- An edit that moves the listing brings new metadata. -/
theorem authorize_eq_ok {requester : Requester}
    (h : input.authorize existing requester = .ok ()) :
    input.sectionChanged existing = true → input.metadata.isSome = true := by
  unfold authorize at h
  split at h
  · cases h
  · split at h
    · cases h
    · next hchecked =>
        intro hchanged
        rw [hchanged, Bool.true_and, Option.isNone_iff_eq_none] at hchecked
        exact Option.isSome_iff_ne_none.mpr hchecked

/-- A listing is placed in the section that was asked for. -/
theorem resolveCategorization_sectionId {categoryId gameId : Option Uuid}
    {sectionId : Uuid} {chain : Option SectionChainRow}
    {categorization : Categorization}
    (hchain : ∀ row ∈ chain, row.sectionId = sectionId)
    (h : resolveCategorization categoryId gameId (some sectionId) chain
      = .ok categorization) : categorization.sectionId = some sectionId := by
  unfold resolveCategorization at h
  dsimp only at h
  split at h
  · cases h
  · next resolved hresolved =>
      split at h
      · cases h
      · injection h with h
        subst h
        unfold resolveActiveSectionChain at hresolved
        split at hresolved
        · cases hresolved
        · next row =>
            split at hresolved
            · cases hresolved
            · split at hresolved
              · split at hresolved
                · injection hresolved with hresolved
                  subst hresolved
                  exact congrArg some (hchain row rfl)
                · cases hresolved
              · cases hresolved

/-- A listing that is not moved stays in its section. -/
theorem targetSectionId_of_unchanged
    (h : ¬ input.sectionChanged existing = true) :
    input.targetSectionId existing = existing.columns.sectionId := by
  unfold sectionChanged at h
  cases hsection : input.sectionId with
  | none => rw [targetSectionId, hsection, Option.getD_none]
  | some target =>
      rw [hsection, Option.isSome_some, Bool.true_and, bne_iff_ne,
        not_not] at h
      exact h

/-- The UPDATE leaves a listing in the section that the request meant: the
one that it names, none if it takes the listing out, and the old one if it
says nothing. -/
theorem categorization_sectionId {chain : Option SectionChainRow}
    {categorization : PatchCategorization}
    (hchain : ∀ row ∈ chain, input.chainOf existing = some row.sectionId)
    (h : input.categorization existing chain = .ok categorization) :
    categorization.sectionId.getD existing.columns.sectionId
      = input.targetSectionId existing := by
  unfold ProductPatch.categorization at h
  split at h
  · next sectionId hsection =>
      split at h
      · cases h
      · next resolved hresolved =>
          injection h with h
          subst h
          have hrow : ∀ row ∈ chain, row.sectionId = sectionId := by
            intro row hrow
            have hof := hchain row hrow
            unfold chainOf at hof
            rw [hsection] at hof
            exact (Option.some.inj hof).symm
          rw [Option.getD_some, resolveCategorization_sectionId hrow hresolved,
            targetSectionId, hsection, Option.getD_some]
  · next hnone =>
      split at h
      · next hchanged =>
          split at h
          · cases h
          · injection h with h
            subst h
            cases hsection : input.sectionId with
            | none =>
                unfold sectionChanged at hchanged
                rw [hsection] at hchanged
                cases hchanged
            | some target =>
                cases target with
                | none => rw [Option.getD_some, targetSectionId, hsection, Option.getD_some]
                | some sectionId => exact absurd hsection (hnone sectionId)
      · next hchanged =>
          -- nothing is written, and the request named no other section
          rw [targetSectionId_of_unchanged hchanged]
          split at h
          · injection h with h
            subst h
            rfl
          · split at h
            · injection h with h
              subst h
              rfl
            · split at h
              · cases h
              · injection h with h
                subst h
                rfl

/-- An edit is placed; one that activates with the old metadata finds their
version still active. -/
theorem categorize_eq_ok {chain : Option SectionChainRow}
    {categorization : PatchCategorization}
    (h : input.categorize existing chain = .ok categorization) :
    input.categorization existing chain = .ok categorization
      ∧ (input.activates = true → input.metadata = none →
        (input.targetSectionId existing).isSome = true →
        existing.columns.schemaVersion
          = categorization.activeSchemaVersion) := by
  obtain ⟨categorization', hcategorization, h⟩ := except_bind_eq_ok.mp h
  obtain ⟨-, -, h⟩ := except_bind_eq_ok.mp h
  dsimp only at h
  split at h
  · cases h
  · next hcurrent =>
      injection h with h
      subst h
      refine ⟨hcategorization, ?_⟩
      intro hactivates hmetadata htarget
      rw [hactivates, hmetadata, htarget, Option.isNone_none, Bool.true_and,
        Bool.true_and, Bool.true_and, bne_iff_ne, not_not] at hcurrent
      exact hcurrent

/-- What an edit validates conforms, to the version of the section after
it. -/
theorem validate_eq_ok {categorization : PatchCategorization}
    {row : Option LotSchemaRow} {validated : ValidatedMetadata}
    (h : input.validate existing categorization row = .ok validated) :
    validateLotMetadata (input.targetSectionId existing)
        (input.rawMetadata existing) row = .ok validated
      ∧ ((input.targetSectionId existing).isSome = true →
        validated.schemaVersion = categorization.activeSchemaVersion) := by
  obtain ⟨validated', hvalid, h⟩ := except_bind_eq_ok.mp h
  dsimp only at h
  split at h
  · cases h
  · next hsame =>
      injection h with h
      subst h
      refine ⟨hvalid, ?_⟩
      intro htarget
      rw [htarget, Bool.true_and, bne_iff_ne, not_not] at hsame
      exact hsame

/-- The columns that say where the edited listing belongs, and whose it
is. -/
theorem updateRow_eq_ok {upper : String → String}
    {categorization : PatchCategorization}
    {validated : Option ValidatedMetadata} {lot : Lot}
    (h : input.updateRow existing upper categorization validated = .ok lot) :
    lot.product.id = existing.product.id
      ∧ lot.product.sellerId = existing.product.sellerId
      ∧ lot.product.status
        = (input.status.map Subtype.val).getD existing.product.status
      ∧ lot.columns.sectionId
        = categorization.sectionId.getD existing.columns.sectionId
      ∧ lot.columns.schemaVersion = validated.elim existing.columns.schemaVersion
          ValidatedMetadata.schemaVersion
      ∧ lot.columns.metadata = validated.elim existing.columns.metadata
          fun validated => validated.metadata.stored := by
  obtain ⟨priceCents, -, h⟩ := except_bind_eq_ok.mp h
  obtain ⟨oldPriceCents, -, h⟩ := except_bind_eq_ok.mp h
  dsimp only at h
  split at h
  · cases h
  · split at h
    · split at h
      · split at h
        · injection h with h
          subst h
          exact ⟨rfl, rfl, rfl, rfl, rfl, rfl⟩
        · cases h
      · cases h
    · cases h

end ProductPatch

end Skrynia
