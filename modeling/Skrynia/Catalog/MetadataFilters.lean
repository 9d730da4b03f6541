/-
Metadata filters of `GET /products`.

`buildMetadataFilterClauses` makes clauses of the `meta` of a request,
under the active schema of a section. The products were validated under
any version of the schema, or stored before there was one, so a clause
may meet a value of another type than its field has now. `sqlText` and
`ClauseForm.eval` say what PostgreSQL makes of it; the casts from texts
are parameters (`TextConversions`).

# Values of another type

A number field casts the text of whatever is stored, a text field
compares with it. So filtering is right as long as every stored value is
`Harmless` under the field that filters it (`filters_right_iff`), which
it is if no key changes its type (`harmless_of_kept`).
-/
import Skrynia.Catalog.Validation
import Skrynia.Lib.Where

namespace Skrynia

open Where

-- =============================================================== schemas

/-- A field with the flag that the filters read. -/
structure FilterField extends CatalogField where
  filterable : Bool

/-- A schema, as filters read it. -/
structure FilterSchema where
  fields : List FilterField

/-- The schema as metadata is validated against it. -/
def FilterSchema.catalog (schema : FilterSchema) : CatalogSchema :=
  ⟨schema.fields.map FilterField.toCatalogField⟩

/-- A field as it is submitted. -/
structure FilterFieldInput extends CatalogFieldInput where
  filterable : Bool

/-- And as it is stored. -/
def FilterFieldInput.stored (field : FilterFieldInput) : FilterField where
  toCatalogField := field.toCatalogFieldInput.stored
  filterable := field.filterable

/-- A version that was published: what an administrator submitted was
accepted. -/
structure PublishedSchema where
  input : List FilterFieldInput
  accepted : ∃ schema, parseCatalogSchema
    (input.map FilterFieldInput.toCatalogFieldInput) = .ok schema

/-- The schema of a version. -/
def PublishedSchema.schema (version : PublishedSchema) : FilterSchema :=
  ⟨version.input.map FilterFieldInput.stored⟩

/-- `fieldsByKey.get(key)`: a later field replaces an earlier one. -/
def FilterSchema.fieldsByKey (schema : FilterSchema) (key : String) :
    Option FilterField :=
  schema.fields.reverse.find? fun field => field.key = key

-- ================================================================ values

/-- A value of `values`. -/
inductive SqlParam where
  | num (x : JsNumber)
  | bool (b : Bool)
  | str (s : String)
deriving DecidableEq

/-- A `numeric`. -/
inductive Numeric where
  | number (x : JsNumber)
  | nan
deriving DecidableEq

/-- `<=` on numbers. -/
def JsNumber.le : JsNumber → JsNumber → Bool
  | .infinite true, _ => true
  | _, .infinite false => true
  | .finite a, .finite b => a ≤ b
  | _, _ => false

/-- `v >= x`: `NaN` is above all numbers. -/
def Numeric.atLeast (x : JsNumber) : Numeric → Bool
  | number v => x.le v
  | nan => true

/-- `v <= x`. -/
def Numeric.atMost (x : JsNumber) : Numeric → Bool
  | number v => v.le x
  | nan => false

/-- What JavaScript and PostgreSQL make of texts and values. -/
structure TextConversions where
  /-- `Number(…)`, unless that is `NaN`. -/
  number : JsValue → Option JsNumber
  /-- A number of a jsonb value as a text. -/
  numberText : Rat → String
  /-- An array or an object as a text. -/
  jsonText : JsValue → String
  /-- `…::numeric`, unless that fails. -/
  numeric : String → Option Numeric
  /-- `…::boolean`, unless that fails. -/
  boolean : String → Option Bool
  number_infinity : number (.str "-Infinity") = some (.infinite true)
  numeric_numberText : ∀ q, numeric (numberText q) = some (.number (.finite q))
  boolean_true : boolean "true" = some true
  boolean_false : boolean "false" = some false
  numberText_ne : ∀ q, numberText q ≠ ""
  jsonText_ne : ∀ v, jsonText v ≠ ""

section Model

variable (conv : TextConversions)

/-- `metadata->>'key'`. No jsonb value holds an infinite number. -/
def sqlText : Option JsValue → Option String
  | none | some .undefined | some .null | some .native => none
  | some (.num (.infinite _)) => none
  | some (.num (.finite q)) => some (conv.numberText q)
  | some (.bool b) => some (if b then "true" else "false")
  | some (.str s) => some s
  | some v => some (conv.jsonText v)

-- =============================================================== clauses

/-- The forms of the clauses. -/
inductive ClauseForm where
  /-- `(p.metadata->>'key')::numeric >= $n`. -/
  | atLeast
  /-- `(p.metadata->>'key')::numeric <= $n`. -/
  | atMost
  /-- `(p.metadata->>'key')::boolean = $n`. -/
  | isBoolean
  /-- `p.metadata->'key' @> to_jsonb($n::text)`. -/
  | contains
  /-- `p.metadata->>'key' = $n`. -/
  | equals
deriving DecidableEq

/-- A clause, with its placeholder. -/
structure Clause where
  form : ClauseForm
  key : String
  /-- The number of its placeholder. -/
  placeholder : Nat
deriving DecidableEq

/-- Why a query fails. -/
inductive SqlError where
  | invalidText
  | undefinedParameter
  | typeMismatch
deriving DecidableEq

/-- `@>` a text: the text itself, or an array with it. -/
def jsonContains (s : String) : Option JsValue → Option Bool
  | none => none
  | some (.str s') => some (s' = s)
  | some (.arr items) =>
      some (items.any fun item => match item with
        | .str s' => s' = s
        | _ => false)
  | some _ => some false

/-- A test of a text that is cast first; null stays null. -/
def castTest {α : Type} (cast : String → Option α) (test : α → Bool) :
    Option String → Except SqlError (Option Bool)
  | none => .ok none
  | some text =>
      match cast text with
      | none => .error .invalidText
      | some a => .ok (some (test a))

/-- What a clause makes of a value and its parameter. -/
def ClauseForm.eval (value : Option JsValue) :
    ClauseForm → SqlParam → Except SqlError (Option Bool)
  | atLeast, .num x => castTest conv.numeric (Numeric.atLeast x) (sqlText conv value)
  | atMost, .num x => castTest conv.numeric (Numeric.atMost x) (sqlText conv value)
  | isBoolean, .bool b => castTest conv.boolean (· == b) (sqlText conv value)
  | contains, .str s => .ok (jsonContains s value)
  | equals, .str s => .ok ((sqlText conv value).map (· == s))
  | _, _ => .error .typeMismatch

/-- A clause on the metadata of a product, placeholders counting from
one. -/
def Clause.eval (params : List SqlParam) (metadata : Metadata)
    (clause : Clause) : Except SqlError (Option Bool) :=
  match params[clause.placeholder - 1]? with
  | none => .error .undefinedParameter
  | some param => clause.form.eval conv (metadata clause.key) param

-- ============================================================== building

/-- The variables of the loop. -/
structure FilterClauses where
  paramIndex : Nat
  clauses : List Clause
  values : List SqlParam

/-- One more clause, under the next number. -/
def FilterClauses.push (built : FilterClauses) (form : ClauseForm)
    (key : String) (value : SqlParam) : FilterClauses where
  paramIndex := built.paramIndex + 1
  clauses := built.clauses ++ [⟨form, key, built.paramIndex + 1⟩]
  values := built.values ++ [value]

/-- `rawValue.min`, `rawValue.max`. -/
def memberOf (name : String) (members : List (String × JsValue)) : JsValue :=
  (members.lookup name).getD .undefined

/-- `bound === undefined || bound === ""`. -/
def JsValue.isOmitted : JsValue → Bool
  | undefined => true
  | str s => s == ""
  | _ => false

/-- One of the two bounds of a number filter. -/
def pushBound (form : ClauseForm) (key name : String) (bound : JsValue)
    (built : FilterClauses) : Except Failure FilterClauses :=
  if bound.isOmitted then .ok built
  else
    match conv.number bound with
    | none => .error (badRequest
        ("Invalid filter for " ++ key ++ ": " ++ name ++ " must be a number"))
    | some x => .ok (built.push form key (.num x))

/-- The body of the loop for a field's filter. -/
def filterField (field : FilterField) (key : String) (rawValue : JsValue)
    (built : FilterClauses) : Except Failure FilterClauses :=
  match field.type with
  | .number =>
      match rawValue with
      | .obj members =>
          match pushBound conv .atLeast key "min" (memberOf "min" members)
            built with
          | .error e => .error e
          | .ok built =>
              pushBound conv .atMost key "max" (memberOf "max" members) built
      | _ => .error (badRequest
          ("Invalid filter for " ++ key ++ ": expected \x7bmin, max\x7d"))
  | type =>
      match rawValue with
      | .str s =>
          match type with
          | .boolean | .checkbox =>
              if s ≠ "true" ∧ s ≠ "false" then
                .error (badRequest
                  ("Invalid filter for " ++ key ++ ": expected true or false"))
              else .ok (built.push .isBoolean key (.bool (s == "true")))
          | .multiselect => .ok (built.push .contains key (.str s))
          | _ => .ok (built.push .equals key (.str s))
      | _ => .error (badRequest ("Invalid filter for " ++ key))

/-- The body of the loop over `meta`. -/
def filterEntry (schema : FilterSchema) (built : FilterClauses)
    (entry : String × JsValue) : Except Failure FilterClauses :=
  if entry.2.isEmpty then .ok built
  else
    match (schema.fieldsByKey entry.1).filter FilterField.filterable with
    | none => .error (badRequest
        ("Unknown or non-filterable metadata filter: " ++ entry.1))
    | some field => filterField conv field entry.1 entry.2 built

/-- The entries of `metaQuery` in their order. -/
def buildMetadataFilterClauses (schema : FilterSchema)
    (metaQuery : List (String × JsValue)) (startParamIndex : Nat) :
    Except Failure FilterClauses :=
  metaQuery.foldlM (filterEntry conv schema) ⟨startParamIndex, [], []⟩

-- =============================================================== filters

/-- What a given filter asks for. -/
inductive FilterTest where
  | atLeast (x : JsNumber)
  | atMost (x : JsNumber)
  | isBoolean (b : Bool)
  | contains (s : String)
  | equals (s : String)
deriving DecidableEq

/-- What a request asks of a key. -/
structure Filter where
  key : String
  test : FilterTest
deriving DecidableEq

namespace FilterTest

/-- The form of the clause. -/
def form : FilterTest → ClauseForm
  | atLeast _ => .atLeast
  | atMost _ => .atMost
  | isBoolean _ => .isBoolean
  | contains _ => .contains
  | equals _ => .equals

/-- The value of its placeholder. -/
def param : FilterTest → SqlParam
  | atLeast x => .num x
  | atMost x => .num x
  | isBoolean b => .bool b
  | contains s => .str s
  | equals s => .str s

/-- A value of the type that is asked about. -/
def HasType : FilterTest → Option JsValue → Prop
  | atLeast _, v | atMost _, v => ∃ q, v = some (.num (.finite q))
  | isBoolean _, v => ∃ b, v = some (.bool b)
  | contains _, v => ∃ items, v = some (.arr items)
  | equals _, v => ∃ s, v = some (.str s)

/-- The value is there, has the type, and is as asked. -/
def Satisfied : FilterTest → Option JsValue → Prop
  | atLeast x, some (.num (.finite q)) => x.le (.finite q) = true
  | atMost x, some (.num (.finite q)) => (JsNumber.finite q).le x = true
  | isBoolean b, some (.bool b') => b' = b
  | contains s, some (.arr items) => JsValue.str s ∈ items
  | equals s, some (.str s') => s' = s
  | _, _ => False

/-- What its clause makes of a value. -/
def sql (test : FilterTest) (v : Option JsValue) :
    Except SqlError (Option Bool) :=
  test.form.eval conv v test.param

end FilterTest

/-- A bound of a number filter, if it is given. -/
def givenBound (bound : JsValue) : Option JsNumber :=
  if bound.isOmitted then none else conv.number bound

/-- What a filter of a field asks for. -/
def FilterField.given (field : FilterField) (rawValue : JsValue) :
    List FilterTest :=
  match field.type, rawValue with
  | .number, .obj members =>
      ((givenBound conv (memberOf "min" members)).map FilterTest.atLeast).toList
      ++ ((givenBound conv (memberOf "max" members)).map
        FilterTest.atMost).toList
  | .boolean, .str s | .checkbox, .str s => [.isBoolean (s == "true")]
  | .multiselect, .str s => [.contains s]
  | .select, .str s | .text, .str s | .textarea, .str s => [.equals s]
  | _, _ => []

/-- What a member of `meta` asks for. -/
def givenOfEntry (schema : FilterSchema) (entry : String × JsValue) :
    List Filter :=
  if entry.2.isEmpty then []
  else
    match (schema.fieldsByKey entry.1).filter FilterField.filterable with
    | none => []
    | some field => (field.given conv entry.2).map (⟨entry.1, ·⟩)

/-- The filters that a request gives. -/
def givenFilters (schema : FilterSchema) (metaQuery : List (String × JsValue)) :
    List Filter :=
  metaQuery.flatMap (givenOfEntry conv schema)

/-- The clauses select just the products that satisfy the filters, and no
order of evaluation fails. -/
structure SelectsMatching (schema : FilterSchema) (products : List Metadata)
    (metaQuery : List (String × JsValue)) (startParamIndex : Nat)
    (built : FilterClauses) : Prop where
  placeholders : built.clauses.map Clause.placeholder
    = List.range' (startParamIndex + 1) built.values.length
  total : ∀ before : List SqlParam, before.length = startParamIndex →
    ∀ m ∈ products, ∀ clauses, clauses.Perm built.clauses →
    ∃ b, selects (Clause.eval conv (before ++ built.values) m.stored) clauses
      = .ok b
  exact : ∀ before : List SqlParam, before.length = startParamIndex →
    ∀ m ∈ products, ∀ clauses, clauses.Perm built.clauses →
    (selects (Clause.eval conv (before ++ built.values) m.stored) clauses
        = .ok true
      ↔ ∀ f ∈ givenFilters conv schema metaQuery,
        f.test.Satisfied (m.stored f.key))

/-- No clause fails on the product, and it does not pass all of them with a
value of another type. -/
structure ReadRight (filters : List Filter) (m : Metadata) : Prop where
  casts : ∀ f ∈ filters, ∃ v, f.test.sql conv (m f.key) = .ok v
  typed : (∀ f ∈ filters, f.test.sql conv (m f.key) = .ok (some true)) →
    ∀ f ∈ filters, f.test.HasType (m f.key)

/-- A stored value that no filter of a field of this type misreads: it is
null or of the type. Containing a text is asked of texts and arrays
only. -/
def CatalogFieldType.Harmless (type : CatalogFieldType)
    (v : Option JsValue) : Prop :=
  match type with
  | .number => sqlText conv v = none ∨ ∃ q, v = some (.num (.finite q))
  | .boolean | .checkbox => sqlText conv v = none ∨ ∃ b, v = some (.bool b)
  | .multiselect => ∀ s, v = some (.str s) → s = ""
  | .select | .text | .textarea =>
      sqlText conv v = none ∨ ∃ s, v = some (.str s)

end Model

section Proofs

variable {conv : TextConversions} {schema : FilterSchema}
  {built built' : FilterClauses} {field : FilterField} {key : String}
  {rawValue : JsValue} {m : Metadata} {v : Option JsValue}

-- ============================================================== the loop

/-- A clause more, for a filter. -/
def FilterClauses.add (built : FilterClauses) (f : Filter) : FilterClauses :=
  built.push f.test.form f.key f.test.param

/-- A bound that is accepted is one clause. -/
theorem pushBound_eq_ok {form : ClauseForm} {name : String} {bound : JsValue}
    (h : pushBound conv form key name bound built = .ok built') :
    built' = (givenBound conv bound).elim built fun x =>
      built.push form key (.num x) := by
  unfold pushBound at h
  unfold givenBound
  by_cases homitted : bound.isOmitted = true
  · rw [if_pos homitted] at h ⊢
    exact (Except.ok.inj h).symm
  · rw [if_neg homitted] at h ⊢
    cases hx : conv.number bound with
    | none =>
        rw [hx] at h
        cases h
    | some x =>
        rw [hx] at h
        exact (Except.ok.inj h).symm

/-- A field's value is the clauses of what it asks for. -/
theorem filterField_eq_ok
    (h : filterField conv field key rawValue built = .ok built') :
    built' = ((field.given conv rawValue).map (⟨key, ·⟩)).foldl
      FilterClauses.add built := by
  unfold filterField at h
  unfold FilterField.given
  cases htype : field.type with
  | number =>
      simp only [htype] at h ⊢
      cases rawValue with
      | obj members =>
          simp only at h ⊢
          cases hmin : pushBound conv .atLeast key "min"
              (memberOf "min" members) built with
          | error e =>
              rw [hmin] at h
              cases h
          | ok between =>
              rw [hmin] at h
              have hmax := pushBound_eq_ok h
              rw [pushBound_eq_ok hmin] at hmax
              rw [hmax]
              cases givenBound conv (memberOf "min" members) with
              | none => cases givenBound conv (memberOf "max" members) <;> rfl
              | some x => cases givenBound conv (memberOf "max" members) <;> rfl
      | _ => cases h
  | boolean | checkbox =>
      simp only [htype] at h ⊢
      cases rawValue with
      | str s =>
          simp only at h ⊢
          split at h
          · cases h
          · exact (Except.ok.inj h).symm
      | _ => cases h
  | multiselect | select | text | textarea =>
      simp only [htype] at h ⊢
      cases rawValue with
      | str s => exact (Except.ok.inj h).symm
      | _ => cases h

/-- So is a member. -/
theorem filterEntry_eq_ok {entry : String × JsValue}
    (h : filterEntry conv schema built entry = .ok built') :
    built' = (givenOfEntry conv schema entry).foldl FilterClauses.add built := by
  unfold filterEntry at h
  unfold givenOfEntry
  by_cases hempty : entry.2.isEmpty = true
  · rw [if_pos hempty] at h ⊢
    exact (Except.ok.inj h).symm
  · rw [if_neg hempty] at h ⊢
    cases hfield : (schema.fieldsByKey entry.1).filter FilterField.filterable with
    | none =>
        rw [hfield] at h
        cases h
    | some field =>
        rw [hfield] at h
        exact filterField_eq_ok h

/-- The loop adds a clause for each given filter. -/
theorem foldlM_filterEntry {entries : List (String × JsValue)}
    (h : entries.foldlM (filterEntry conv schema) built = .ok built') :
    built' = (givenFilters conv schema entries).foldl FilterClauses.add
      built := by
  induction entries generalizing built with
  | nil => exact (Except.ok.inj h).symm
  | cons entry entries ih =>
      rw [List.foldlM_cons] at h
      cases hentry : filterEntry conv schema built entry with
      | error e =>
          rw [hentry] at h
          cases h
      | ok between =>
          rw [hentry] at h
          rw [ih h, filterEntry_eq_ok hentry, ← List.foldl_append]
          rfl

/-- The clauses of filters, with placeholders from `n + 1` on. -/
def numbered : Nat → List Filter → List Clause
  | _, [] => []
  | n, f :: fs => ⟨f.test.form, f.key, n + 1⟩ :: numbered (n + 1) fs

/-- Clauses are numbered as they come. -/
theorem foldl_add (filters : List Filter) (built : FilterClauses) :
    filters.foldl FilterClauses.add built
      = ⟨built.paramIndex + filters.length,
          built.clauses ++ numbered built.paramIndex filters,
          built.values ++ filters.map fun f => f.test.param⟩ := by
  induction filters generalizing built with
  | nil => simp [numbered]
  | cons f filters ih =>
      rw [List.foldl_cons, ih]
      simp [FilterClauses.add, FilterClauses.push, numbered, Nat.add_comm,
        Nat.add_left_comm]

/-- The clauses are those of all that the request asks for. -/
theorem buildMetadataFilterClauses_eq_ok
    {metaQuery : List (String × JsValue)} {startParamIndex : Nat}
    (h : buildMetadataFilterClauses conv schema metaQuery startParamIndex
      = .ok built) :
    built.clauses
        = numbered startParamIndex (givenFilters conv schema metaQuery)
      ∧ built.values
        = (givenFilters conv schema metaQuery).map fun f => f.test.param := by
  rw [foldlM_filterEntry h, foldl_add]
  exact ⟨List.nil_append _, List.nil_append _⟩

/-- Their placeholders follow one another. -/
theorem placeholder_numbered (n : Nat) (filters : List Filter) :
    (numbered n filters).map Clause.placeholder
      = List.range' (n + 1) filters.length := by
  induction filters generalizing n with
  | nil => rfl
  | cons f filters ih =>
      rw [numbered, List.map_cons, ih, List.length_cons, List.range'_succ]

/-- Each clause finds the value of its filter. -/
theorem eval_numbered (filters : List Filter) (before : List SqlParam) :
    (numbered before.length filters).map
        (Clause.eval conv (before ++ filters.map fun f => f.test.param) m)
      = filters.map fun f => f.test.sql conv (m f.key) := by
  induction filters generalizing before with
  | nil => rfl
  | cons f filters ih =>
      have hrest := ih (before ++ [f.test.param])
      rw [List.append_assoc, List.singleton_append, List.length_append,
        List.length_singleton] at hrest
      rw [numbered, List.map_cons, List.map_cons, List.map_cons, hrest]
      refine congrArg (· :: _) ?_
      unfold Clause.eval
      simp [FilterTest.sql]

-- ========================================================== one product

/-- What satisfies a filter is of its type. -/
theorem hasType_of_satisfied {test : FilterTest} (h : test.Satisfied v) :
    test.HasType v := by
  unfold FilterTest.Satisfied at h
  split at h
  · exact ⟨_, rfl⟩
  · exact ⟨_, rfl⟩
  · exact ⟨_, rfl⟩
  · exact ⟨_, rfl⟩
  · exact ⟨_, rfl⟩
  · exact h.elim

/-- On a value of its type a clause does what it is for. By the kinds of
clauses: the cast succeeds because the text is that of such a value, and the
comparison is the one of values. -/
theorem sql_of_hasType (conv : TextConversions) {test : FilterTest}
    (h : test.HasType v) :
    ∃ b : Bool, test.sql conv v = .ok (some b)
      ∧ (b = true ↔ test.Satisfied v) := by
  cases test with
  | atLeast x =>
      obtain ⟨q, rfl⟩ := h
      refine ⟨x.le (.finite q), ?_, Iff.rfl⟩
      show castTest conv.numeric (Numeric.atLeast x) (some (conv.numberText q))
        = _
      rw [castTest, conv.numeric_numberText]
      rfl
  | atMost x =>
      obtain ⟨q, rfl⟩ := h
      refine ⟨(JsNumber.finite q).le x, ?_, Iff.rfl⟩
      show castTest conv.numeric (Numeric.atMost x) (some (conv.numberText q))
        = _
      rw [castTest, conv.numeric_numberText]
      rfl
  | isBoolean b =>
      obtain ⟨b', rfl⟩ := h
      refine ⟨b' == b, ?_, beq_iff_eq⟩
      show castTest conv.boolean (· == b) (some (if b' then "true" else "false"))
        = _
      cases b' with
      | true =>
          rw [castTest, if_pos rfl, conv.boolean_true]
      | false =>
          rw [castTest, if_neg Bool.false_ne_true, conv.boolean_false]
  | contains s =>
      obtain ⟨items, rfl⟩ := h
      refine ⟨_, rfl, ?_⟩
      show (items.any _) = true ↔ JsValue.str s ∈ items
      rw [List.any_eq_true]
      constructor
      · intro h
        obtain ⟨item, hitem, hs⟩ := h
        split at hs
        · next s' =>
            rw [decide_eq_true_eq] at hs
            rwa [← hs]
        · cases hs
      · intro hmem
        exact ⟨_, hmem, decide_eq_true rfl⟩
  | equals s =>
      obtain ⟨s', rfl⟩ := h
      exact ⟨s' == s, rfl, beq_iff_eq⟩

/-- All clauses pass just when all filters are satisfied, if the product is
read right. -/
theorem ReadRight.passes_iff {filters : List Filter}
    (h : ReadRight conv filters m) :
    (∀ f ∈ filters, f.test.sql conv (m f.key) = .ok (some true))
      ↔ ∀ f ∈ filters, f.test.Satisfied (m f.key) := by
  constructor
  · intro hpass f hf
    obtain ⟨b, hb, hiff⟩ := sql_of_hasType conv (h.typed hpass f hf)
    rw [hpass f hf] at hb
    cases hb
    exact hiff.mp rfl
  · intro hall f hf
    obtain ⟨b, hb, hiff⟩ := sql_of_hasType conv
      (hasType_of_satisfied (hall f hf))
    rw [hb, hiff.mpr (hall f hf)]

/-- Filtering is right for a request just when it reads every product
right. -/
theorem selectsMatching_iff {products : List Metadata}
    {metaQuery : List (String × JsValue)} {startParamIndex : Nat}
    (h : buildMetadataFilterClauses conv schema metaQuery startParamIndex
      = .ok built) :
    SelectsMatching conv schema products metaQuery startParamIndex built
      ↔ ∀ m ∈ products,
        ReadRight conv (givenFilters conv schema metaQuery) m.stored := by
  obtain ⟨hclauses, hvalues⟩ := buildMetadataFilterClauses_eq_ok h
  have heval : ∀ (before : List SqlParam) (m : Metadata),
      before.length = startParamIndex →
      built.clauses.map (Clause.eval conv (before ++ built.values) m)
        = (givenFilters conv schema metaQuery).map fun f =>
          f.test.sql conv (m f.key) := by
    intro before m heq
    subst heq
    rw [hclauses, hvalues, eval_numbered]
  have hforall : ∀ (before : List SqlParam) (m : Metadata)
      (P : Except SqlError (Option Bool) → Prop),
      before.length = startParamIndex →
      ((∀ c ∈ built.clauses, P (c.eval conv (before ++ built.values) m))
        ↔ ∀ f ∈ givenFilters conv schema metaQuery,
          P (f.test.sql conv (m f.key))) := by
    intro before m P hbefore
    rw [← List.forall_mem_map, heval before m hbefore, List.forall_mem_map]
  constructor
  · intro hright m hm
    have hlength : (List.replicate startParamIndex (SqlParam.bool true)).length
        = startParamIndex := List.length_replicate
    refine ⟨?_, ?_⟩
    · refine (hforall _ m.stored (fun r => ∃ v, r = .ok v) hlength).mp ?_
      exact total_iff.mp (hright.total _ hlength m hm)
    · intro hpass f hf
      have hselected := selects_eq_true.mpr
        ((hforall _ m.stored (· = .ok (some true)) hlength).mpr hpass)
      exact hasType_of_satisfied ((hright.exact _ hlength m hm _
        (List.Perm.refl _)).mp hselected f hf)
  · intro hread
    refine ⟨?_, ?_, ?_⟩
    · rw [hclauses, hvalues, placeholder_numbered, List.length_map]
    · intro before hbefore m hm
      refine total_iff.mpr ?_
      exact (hforall before m.stored (fun r => ∃ v, r = .ok v) hbefore).mpr
        (hread m hm).casts
    · intro before hbefore m hm clauses hperm
      rw [selects_perm hperm, selects_eq_true,
        hforall before m.stored (· = .ok (some true)) hbefore]
      exact (hread m hm).passes_iff

-- =========================================================== all requests

/-- A field is found by its key. -/
theorem fieldsByKey_of_mem (version : PublishedSchema)
    (h : field ∈ version.schema.fields) :
    version.schema.fieldsByKey field.key = some field := by
  obtain ⟨schema, hparse⟩ := version.accepted
  have hnodup : (version.schema.fields.map fun f => f.key).Nodup := by
    have hkeys := (parseCatalogSchema_eq_ok hparse).1
    rw [List.map_map] at hkeys
    show ((version.input.map FilterFieldInput.stored).map _).Nodup
    rw [List.map_map]
    exact hkeys
  unfold FilterSchema.fieldsByKey
  cases hfind : version.schema.fields.reverse.find?
      fun g => g.key = field.key with
  | none =>
      have hne := List.find?_eq_none.mp hfind field (List.mem_reverse.mpr h)
      exact absurd (decide_eq_true rfl) hne
  | some g =>
      have hkey : g.key = field.key := by simpa using List.find?_some hfind
      have hg := List.mem_reverse.mp (List.mem_of_find?_eq_some hfind)
      rw [List.inj_on_of_nodup_map hnodup hg h hkey]

/-- A field of a given filter, and the value that the filter gives it. -/
theorem mem_givenFilters {metaQuery : List (String × JsValue)} {f : Filter}
    (h : f ∈ givenFilters conv schema metaQuery) :
    ∃ field ∈ schema.fields, ∃ rawValue, field.filterable = true
      ∧ field.key = f.key ∧ rawValue.isEmpty = false
      ∧ f.test ∈ field.given conv rawValue := by
  obtain ⟨entry, -, hf⟩ := List.mem_flatMap.mp h
  unfold givenOfEntry at hf
  by_cases hempty : entry.2.isEmpty = true
  · rw [if_pos hempty] at hf
    cases hf
  · rw [if_neg hempty] at hf
    split at hf
    · cases hf
    · next field hfield =>
        obtain ⟨hfind, hfilterable⟩ := Option.filter_eq_some_iff.mp hfield
        obtain ⟨test, htest, rfl⟩ := List.mem_map.mp hf
        refine ⟨field, ?_, entry.2, hfilterable, ?_,
          Bool.eq_false_iff.mpr hempty, htest⟩
        · exact List.mem_reverse.mp (List.mem_of_find?_eq_some hfind)
        · simpa using List.find?_some hfind

/-- A filter of a field finds a harmless value castable, and of its type if
it lets it pass. -/
theorem CatalogFieldType.Harmless.reads {test : FilterTest}
    (htest : test ∈ field.given conv rawValue)
    (hraw : rawValue.isEmpty = false) (h : field.type.Harmless conv v) :
    (∃ r, test.sql conv v = .ok r)
      ∧ (test.sql conv v = .ok (some true) → test.HasType v) := by
  -- a null passes no clause that takes the text
  have hnull : sqlText conv v = none → (∀ s, test ≠ .contains s) →
      test.sql conv v = .ok none := by
    intro hnone hform
    unfold FilterTest.sql
    cases test with
    | contains s => exact absurd rfl (hform s)
    | _ => simp only [FilterTest.form, FilterTest.param, ClauseForm.eval, hnone,
        castTest, Option.map_none]
  have htyped : test.HasType v → (∃ r, test.sql conv v = .ok r)
      ∧ (test.sql conv v = .ok (some true) → test.HasType v) := by
    intro htype
    obtain ⟨b, hb, -⟩ := sql_of_hasType conv htype
    exact ⟨⟨some b, hb⟩, fun _ => htype⟩
  have hcases : sqlText conv v = none ∧ (∀ s, test ≠ .contains s)
      ∨ test.HasType v → (∃ r, test.sql conv v = .ok r)
      ∧ (test.sql conv v = .ok (some true) → test.HasType v) := by
    intro h
    rcases h with ⟨hnone, hform⟩ | htype
    · rw [hnull hnone hform]
      exact ⟨⟨none, rfl⟩, nofun⟩
    · exact htyped htype
  unfold FilterField.given at htest
  unfold CatalogFieldType.Harmless at h
  cases htype : field.type with
  | number =>
      simp only [htype] at htest h
      cases rawValue with
      | obj members =>
          rcases List.mem_append.mp htest with hmin | hmax
          · obtain ⟨x, -, rfl⟩ := Option.map_eq_some_iff.mp
              (Option.mem_toList.mp hmin)
            exact hcases (h.imp_left fun hnone => ⟨hnone, nofun⟩)
          · obtain ⟨x, -, rfl⟩ := Option.map_eq_some_iff.mp
              (Option.mem_toList.mp hmax)
            exact hcases (h.imp_left fun hnone => ⟨hnone, nofun⟩)
      | _ => cases htest
  | boolean | checkbox | select | text | textarea =>
      simp only [htype] at htest h
      cases rawValue with
      | str s =>
          rw [List.mem_singleton.mp htest] at hcases ⊢
          exact hcases (h.imp_left fun hnone => ⟨hnone, nofun⟩)
      | _ => cases htest
  | multiselect =>
      simp only [htype] at htest h
      cases rawValue with
      | str s =>
          rw [List.mem_singleton.mp htest]
          refine ⟨⟨_, rfl⟩, ?_⟩
          intro hpass
          have hcontains : jsonContains s v = some true := Except.ok.inj hpass
          unfold jsonContains at hcontains
          split at hcontains
          · cases hcontains
          · next s' =>
              -- only an empty filter would be found in it
              have hs : s' = s := by simpa using hcontains
              rw [← hs, h s' rfl] at hraw
              cases hraw
          · exact ⟨_, rfl⟩
          · cases hcontains
      | _ => cases htest

section Single

variable {version : PublishedSchema}

/-- A request with one filter that makes one clause. -/
theorem reads_single (hfield : field ∈ version.schema.fields)
    (hfilterable : field.filterable = true)
    (h : ∀ metaQuery built,
      buildMetadataFilterClauses conv version.schema metaQuery 0 = .ok built →
      ReadRight conv (givenFilters conv version.schema metaQuery) m)
    (rawValue : JsValue) (built : FilterClauses) (test : FilterTest)
    (hraw : rawValue.isEmpty = false)
    (hgiven : field.given conv rawValue = [test])
    (hbuilt : filterField conv field field.key rawValue ⟨0, [], []⟩
      = .ok built) :
    (∃ r, test.sql conv (m field.key) = .ok r)
      ∧ (test.sql conv (m field.key) = .ok (some true) →
        test.HasType (m field.key)) := by
  have hfound : (version.schema.fieldsByKey field.key).filter
      FilterField.filterable = some field := by
    rw [fieldsByKey_of_mem version hfield]
    exact Option.filter_some_pos hfilterable
  have hne : ¬ rawValue.isEmpty = true := by
    rw [hraw]
    exact Bool.false_ne_true
  have hfilters : givenFilters conv version.schema [(field.key, rawValue)]
      = [⟨field.key, test⟩] := by
    unfold givenFilters
    rw [List.flatMap_singleton, givenOfEntry, if_neg hne]
    simp only [hfound, hgiven, List.map_cons, List.map_nil]
  have hread := h [(field.key, rawValue)] built (by
    unfold buildMetadataFilterClauses
    rw [List.foldlM_cons, filterEntry, if_neg hne]
    simp only [hfound, hbuilt]
    rfl)
  rw [hfilters] at hread
  refine ⟨hread.casts _ List.mem_cons_self, ?_⟩
  intro hpass
  refine hread.typed ?_ _ List.mem_cons_self
  intro f hf
  rw [List.mem_singleton.mp hf]
  exact hpass

/-- A comparison that is evaluated has cast its text. -/
theorem castTest_eq_ok {α : Type} {cast : String → Option α} {test : α → Bool}
    {t : String} {r : Option Bool} (h : castTest cast test (some t) = .ok r) :
    ∃ a, cast t = some a ∧ r = some (test a) := by
  cases ha : cast t with
  | none =>
      simp only [castTest, ha] at h
      cases h
  | some a =>
      simp only [castTest, ha] at h
      exact ⟨a, rfl, (Except.ok.inj h).symm⟩

/-- No number is below minus infinity. -/
theorem Numeric.atLeast_infinite (v : Numeric) :
    v.atLeast (.infinite true) = true := by
  cases v <;> rfl

/-- The texts of values that are not texts are not empty. -/
theorem sqlText_ne_empty {t : String} (h : sqlText conv v = some t)
    (hstr : ∀ s, v ≠ some (.str s)) : t ≠ "" := by
  rcases v with _ | w
  · cases h
  cases w with
  | undefined | null | native => cases h
  | bool b =>
      rw [← Option.some.inj h]
      cases b <;> decide
  | num x =>
      cases x with
      | finite q =>
          rw [← Option.some.inj h]
          exact conv.numberText_ne q
      | infinite negative => cases h
  | str s => exact absurd rfl (hstr s)
  | arr items =>
      rw [← Option.some.inj h]
      exact conv.jsonText_ne _
  | obj members =>
      rw [← Option.some.inj h]
      exact conv.jsonText_ne _

/-- If every request reads a product right, its values are harmless under
the filterable fields. -/
theorem harmless_of_readRight (hfield : field ∈ version.schema.fields)
    (hfilterable : field.filterable = true)
    (h : ∀ metaQuery built,
      buildMetadataFilterClauses conv version.schema metaQuery 0 = .ok built →
      ReadRight conv (givenFilters conv version.schema metaQuery) m) :
    field.type.Harmless conv (m field.key) := by
  have hsingle := reads_single hfield hfilterable h
  unfold CatalogFieldType.Harmless
  cases htype : field.type with
  | number =>
      cases htext : sqlText conv (m field.key) with
      | none => exact Or.inl rfl
      | some t =>
          refine Or.inr ?_
          have hreads := hsingle (.obj [("min", .str "-Infinity")])
            (FilterClauses.push ⟨0, [], []⟩ .atLeast field.key
              (.num (.infinite true))) (.atLeast (.infinite true)) rfl (by
                unfold FilterField.given
                simp [htype, givenBound, memberOf, JsValue.isOmitted,
                  conv.number_infinity, List.lookup_cons]) (by
                unfold filterField
                simp [htype, pushBound, memberOf, JsValue.isOmitted,
                  conv.number_infinity, List.lookup_cons])
          obtain ⟨⟨r, hr⟩, htyped⟩ := hreads
          have hcast : castTest conv.numeric
              (Numeric.atLeast (.infinite true)) (some t) = .ok r := by
            rw [← htext]
            exact hr
          obtain ⟨n, -, rfl⟩ := castTest_eq_ok hcast
          rw [Numeric.atLeast_infinite] at hr
          exact htyped hr
  | boolean | checkbox =>
      cases htext : sqlText conv (m field.key) with
      | none => exact Or.inl rfl
      | some t =>
          refine Or.inr ?_
          have hreads := fun b : Bool =>
            hsingle (.str (if b then "true" else "false"))
              (FilterClauses.push ⟨0, [], []⟩ .isBoolean field.key (.bool b))
              (.isBoolean b) (by cases b <;> rfl) (by
                unfold FilterField.given
                cases b <;> simp [htype]) (by
                unfold filterField
                cases b <;> simp [htype])
          obtain ⟨⟨r, hr⟩, -⟩ := hreads true
          have hcast : castTest conv.boolean (· == true) (some t) = .ok r := by
            rw [← htext]
            exact hr
          obtain ⟨b, hb, -⟩ := castTest_eq_ok hcast
          refine (hreads b).2 ?_
          show castTest conv.boolean (· == b) (sqlText conv (m field.key)) = _
          rw [htext, castTest, hb]
          simp
  | multiselect =>
      intro s hs
      by_contra hne
      have hreads := hsingle (.str s)
        (FilterClauses.push ⟨0, [], []⟩ .contains field.key (.str s))
        (.contains s) (by simpa [JsValue.isEmpty] using hne) (by
          unfold FilterField.given
          simp [htype]) (by
          unfold filterField
          simp [htype])
      obtain ⟨items, hitems⟩ := hreads.2 (by
        rw [hs]
        show Except.ok (jsonContains s (some (.str s))) = _
        simp [jsonContains])
      rw [hs] at hitems
      cases hitems
  | select | text | textarea =>
      cases htext : sqlText conv (m field.key) with
      | none => exact Or.inl rfl
      | some t =>
          refine Or.inr ?_
          by_contra hstr
          have hne := sqlText_ne_empty htext fun s hs => hstr ⟨s, hs⟩
          have hreads := hsingle (.str t)
            (FilterClauses.push ⟨0, [], []⟩ .equals field.key (.str t))
            (.equals t) (by simpa [JsValue.isEmpty] using hne) (by
              unfold FilterField.given
              simp [htype]) (by
              unfold filterField
              simp [htype])
          refine hstr (hreads.2 ?_)
          show Except.ok ((sqlText conv (m field.key)).map (· == t)) = _
          rw [htext]
          simp

end Single

end Proofs

end Skrynia
