import Xcs.Db.Tables

/-!
# Writing the projection

The statements the indexer sends to the projection tables, each on the rows of its profile.  Before
PostgreSQL looks at a constraint it stores the values: a `text` column takes every string without
U+0000 and has no lone surrogates, because the driver sends UTF-8; a `jsonb` column takes a value
none of whose strings contains U+0000 or a lone surrogate; an `integer` column takes 32 bits.

A statement that throws aborts its transaction, so it returns the new rows only when it succeeds.
An insertion `ON CONFLICT DO NOTHING` leaves the rows alone where a row with the same key is there,
and checks no foreign key then.

* `Stores` says that the values of a row can be stored.
* The lemmas `insert…_eq_ok` say what a statement that succeeded found and left.
-/

namespace Xcs
namespace Db

open Js

/-! ## Storing values -/

/-- A string a `jsonb` column can hold, as a value or as a key. -/
def isStorableString (s : JsString) : Bool :=
  isWellFormed s && !s.contains 0

/-- A string a `text` column can hold. -/
def isStorableText (s : JsString) : Bool :=
  !s.contains 0

/-- A value a `jsonb` column can hold. -/
def isStorableJson (v : JsValue) : Bool :=
  v.allStrings isStorableString

/-- The columns of a row that can refuse a value. -/
structure RowValues where
  texts : List (JsString × JsString)
  jsonbs : List (JsString × JsValue)
  integers : List (JsString × ℤ)

/-- The range of an `integer` column. -/
def isInt4 (n : ℤ) : Bool :=
  decide (-2147483648 ≤ n ∧ n ≤ 2147483647)

/-- Refuse a row with a value that its column cannot hold. -/
def assertStorable (values : RowValues) : Except Thrown Unit :=
  match values.texts.find? fun c => !isStorableText c.2 with
  | some c => .error (.database (.untranslatableCharacter c.1))
  | none =>
      match values.jsonbs.find? fun c => !isStorableJson c.2 with
      | some c => .error (.database (.untranslatableCharacter c.1))
      | none =>
          match values.integers.find? fun c => !isInt4 c.2 with
          | some c => .error (.database (.numericValueOutOfRange c.1))
          | none => .ok ()

/-- Every value of a row can be stored. -/
structure Stores (values : RowValues) : Prop where
  texts : ∀ c ∈ values.texts, isStorableText c.2 = true
  jsonbs : ∀ c ∈ values.jsonbs, isStorableJson c.2 = true
  integers : ∀ c ∈ values.integers, isInt4 c.2 = true

theorem assertStorable_eq_ok {values : RowValues} {u : Unit} :
    assertStorable values = .ok u ↔ Stores values := by
  have hnone : ∀ {α : Type} {p : α → Bool} {l : List (JsString × α)},
      l.find? (fun c => !p c.2) = none ↔ ∀ c ∈ l, p c.2 = true := by
    intro α p l
    simp
  rw [assertStorable]
  split
  · rename_i c hc
    have hmem := List.mem_of_find?_eq_some hc
    have hbad := List.find?_some hc
    simp only [reduceCtorEq, false_iff]
    intro h
    rw [h.texts c hmem] at hbad
    cases hbad
  rename_i htexts
  split
  · rename_i c hc
    have hmem := List.mem_of_find?_eq_some hc
    have hbad := List.find?_some hc
    simp only [reduceCtorEq, false_iff]
    intro h
    rw [h.jsonbs c hmem] at hbad
    cases hbad
  rename_i hjsonbs
  split
  · rename_i c hc
    have hmem := List.mem_of_find?_eq_some hc
    have hbad := List.find?_some hc
    simp only [reduceCtorEq, false_iff]
    intro h
    rw [h.integers c hmem] at hbad
    cases hbad
  rename_i hintegers
  simp only [true_iff]
  exact ⟨hnone.mp htexts, hnone.mp hjsonbs, hnone.mp hintegers⟩

/-- The texts of nullable columns. -/
def optionalText (column : JsString) (value : Option JsString) : List (JsString × JsString) :=
  value.toList.map fun s => (column, s)

/-! ## Profiles and checkpoints -/

/-- `INSERT INTO network_profiles … ON CONFLICT (profile_id) DO NOTHING` -/
def insertNetworkProfile (row : NetworkProfileRow) (rows : ProjectionRows) :
    Except Thrown ProjectionRows :=
  match rows.networkProfile with
  | some _ => .ok rows
  | none => do
      assertChecks row.checks
      pure { rows with networkProfile := some row }

def LedgerCheckpointRow.values (row : LedgerCheckpointRow) : RowValues where
  texts := []
  jsonbs := []
  integers := [(js "transaction_count", row.transactionCount)]

/-- `INSERT INTO ledger_checkpoints` -/
def insertLedgerCheckpoint (row : LedgerCheckpointRow) (rows : ProjectionRows) :
    Except Thrown ProjectionRows := do
  assertStorable row.values
  assertChecks row.checks
  ensure (rows.ledgerCheckpoints.all fun other => other.ledgerIndex != row.ledgerIndex)
    (.database (.unique (js "ledger_checkpoints_pk")))
  ensure (rows.ledgerCheckpoints.all fun other => other.ledgerHash != row.ledgerHash)
    (.database (.unique (js "ledger_checkpoints_profile_hash_uq")))
  pure { rows with ledgerCheckpoints := rows.ledgerCheckpoints ++ [row] }

theorem insertNetworkProfile_eq_ok {row : NetworkProfileRow} {rows rows' : ProjectionRows} :
    insertNetworkProfile row rows = .ok rows' ↔
      (rows.networkProfile.isSome = true ∧ rows' = rows) ∨
        (rows.networkProfile = none ∧ (∀ c ∈ row.checks, c.2 = true) ∧
          rows' = { rows with networkProfile := some row }) := by
  rw [insertNetworkProfile.eq_def]
  cases hprofile : rows.networkProfile with
  | none =>
      simp only [bind_eq_ok, assertChecks_eq_ok, exists_const, pure_eq_ok, Option.isSome_none,
        Bool.false_eq_true, false_and, true_and, false_or]
      exact and_congr_right fun _ => eq_comm
  | some stored =>
      simp only [Except.ok.injEq, Option.isSome_some, true_and, reduceCtorEq, false_and, or_false]
      exact eq_comm

theorem insertLedgerCheckpoint_eq_ok {row : LedgerCheckpointRow} {rows rows' : ProjectionRows} :
    insertLedgerCheckpoint row rows = .ok rows' ↔
      Stores row.values ∧ (∀ c ∈ row.checks, c.2 = true) ∧
        (∀ other ∈ rows.ledgerCheckpoints, other.ledgerIndex ≠ row.ledgerIndex) ∧
        (∀ other ∈ rows.ledgerCheckpoints, other.ledgerHash ≠ row.ledgerHash) ∧
        rows' = { rows with ledgerCheckpoints := rows.ledgerCheckpoints ++ [row] } := by
  simp only [insertLedgerCheckpoint, bind_eq_ok, assertStorable_eq_ok, assertChecks_eq_ok,
    ensure_eq_ok, exists_const, pure_eq_ok', List.all_eq_true, bne_iff_ne, ne_eq]

/-! ## The schema catalog -/

def SchemaEventRow.values (row : SchemaEventRow) : RowValues where
  texts := [(js "publisher", row.publisher)]
  jsonbs := [(js "memo_json", row.memoJson)]
  integers := [(js "transaction_index", row.transactionIndex)]

/-- The row as it is stored. -/
def SchemaEventRow.stored (row : SchemaEventRow) : SchemaEventRow :=
  { row with publisher := toWellFormed row.publisher }

/-- `INSERT INTO schema_events … ON CONFLICT DO NOTHING` -/
def insertSchemaEvent (row : SchemaEventRow) (rows : ProjectionRows) :
    Except Thrown ProjectionRows := do
  assertStorable row.values
  assertChecks row.checks
  if rows.schemaEvents.any fun other => other.transactionHash == row.transactionHash then
    pure rows
  else do
    ensure rows.networkProfile.isSome
      (.database (.foreignKey (js "schema_events_profile_id_network_profiles_profile_id_fk")))
    pure { rows with schemaEvents := rows.schemaEvents ++ [row.stored] }

theorem insertSchemaEvent_eq_ok {row : SchemaEventRow} {rows rows' : ProjectionRows} :
    insertSchemaEvent row rows = .ok rows' ↔
      Stores row.values ∧ (∀ c ∈ row.checks, c.2 = true) ∧
        ((∃ other ∈ rows.schemaEvents, other.transactionHash = row.transactionHash) ∧
            rows' = rows ∨
          (∀ other ∈ rows.schemaEvents, other.transactionHash ≠ row.transactionHash) ∧
            rows.networkProfile.isSome = true ∧
            rows' = { rows with schemaEvents := rows.schemaEvents ++ [row.stored] }) := by
  simp only [insertSchemaEvent, bind_eq_ok, assertStorable_eq_ok, assertChecks_eq_ok,
    exists_const]
  refine and_congr_right fun _ => and_congr_right fun _ => ?_
  split_ifs with hany
  · have hfound : ∃ other ∈ rows.schemaEvents, other.transactionHash = row.transactionHash := by
      simpa using hany
    simp only [hfound, true_and, pure_eq_ok']
    refine ⟨Or.inl, ?_⟩
    rintro (h | ⟨hnone, -⟩)
    · exact h
    · obtain ⟨other, hmem, hsame⟩ := hfound
      exact absurd hsame (hnone other hmem)
  · have hnone : ∀ other ∈ rows.schemaEvents, other.transactionHash ≠ row.transactionHash := by
      simpa using hany
    simp only [bind_eq_ok, ensure_eq_ok, exists_const, pure_eq_ok']
    refine ⟨fun h => Or.inr ⟨hnone, h⟩, ?_⟩
    rintro (⟨⟨other, hmem, hsame⟩, -⟩ | ⟨-, h⟩)
    · exact absurd hsame (hnone other hmem)
    · exact h

def SchemaRow.values (row : SchemaRow) : RowValues where
  texts := [(js "publisher", row.publisher), (js "name", row.name),
    (js "description", row.description)]
  jsonbs := [(js "definition", row.definition),
    (js "resolved_definition", row.resolvedDefinition)]
  integers := [(js "transaction_index", row.transactionIndex)]

/-- The row as it is stored. -/
def SchemaRow.stored (row : SchemaRow) : SchemaRow :=
  { row with
    publisher := toWellFormed row.publisher
    name := toWellFormed row.name
    description := toWellFormed row.description }

/-- `INSERT INTO schemas … ON CONFLICT DO NOTHING` -/
def insertSchema (row : SchemaRow) (rows : ProjectionRows) : Except Thrown ProjectionRows := do
  assertStorable row.values
  assertChecks row.checks
  if rows.schemas.any fun other => other.schemaUid == row.schemaUid
      || other.registrationTransactionHash == row.registrationTransactionHash then
    pure rows
  else do
    ensure rows.networkProfile.isSome
      (.database (.foreignKey (js "schemas_profile_id_network_profiles_profile_id_fk")))
    ensure (rows.schemaEvents.any fun event =>
        event.transactionHash == row.registrationTransactionHash)
      (.database (.foreignKey (js "schemas_registration_event_fk")))
    pure { rows with schemas := rows.schemas ++ [row.stored] }

/-- Two rows of `schemas` that cannot both be there. -/
def SchemaRow.sameKey (row other : SchemaRow) : Prop :=
  other.schemaUid = row.schemaUid
    ∨ other.registrationTransactionHash = row.registrationTransactionHash

theorem insertSchema_eq_ok {row : SchemaRow} {rows rows' : ProjectionRows} :
    insertSchema row rows = .ok rows' ↔
      Stores row.values ∧ (∀ c ∈ row.checks, c.2 = true) ∧
        ((∃ other ∈ rows.schemas, row.sameKey other) ∧ rows' = rows ∨
          (∀ other ∈ rows.schemas, ¬row.sameKey other) ∧
            rows.networkProfile.isSome = true ∧
            (∃ event ∈ rows.schemaEvents,
              event.transactionHash = row.registrationTransactionHash) ∧
            rows' = { rows with schemas := rows.schemas ++ [row.stored] }) := by
  simp only [insertSchema, bind_eq_ok, assertStorable_eq_ok, assertChecks_eq_ok, exists_const]
  refine and_congr_right fun _ => and_congr_right fun _ => ?_
  split_ifs with hany
  · have hfound : ∃ other ∈ rows.schemas, row.sameKey other := by
      simpa [SchemaRow.sameKey] using hany
    simp only [hfound, true_and, pure_eq_ok']
    refine ⟨Or.inl, ?_⟩
    rintro (h | ⟨hnone, -⟩)
    · exact h
    · obtain ⟨other, hmem, hsame⟩ := hfound
      exact absurd hsame (hnone other hmem)
  · have hnone : ∀ other ∈ rows.schemas, ¬row.sameKey other := by
      simpa [SchemaRow.sameKey] using hany
    simp only [bind_eq_ok, ensure_eq_ok, exists_const, pure_eq_ok', List.any_eq_true, beq_iff_eq]
    refine ⟨fun h => Or.inr ⟨hnone, h⟩, ?_⟩
    rintro (⟨⟨other, hmem, hsame⟩, -⟩ | ⟨-, h⟩)
    · exact absurd hsame (hnone other hmem)
    · exact h

/-! ## Credentials -/

def CredentialGenerationRow.values (row : CredentialGenerationRow) : RowValues where
  texts := [(js "issuer", row.issuer), (js "subject", row.subject)]
    ++ optionalText (js "uri_hex") row.uriHex
  jsonbs := []
  integers := [(js "created_transaction_index", row.createdTransactionIndex)]

/-- `credential_generations_live_uq`: two live generations of one credential. -/
def CredentialGenerationRow.sameLive (row other : CredentialGenerationRow) : Bool :=
  row.deletedLedgerIndex.isNone && other.deletedLedgerIndex.isNone && row.issuer == other.issuer
    && row.subject == other.subject && row.schemaUid == other.schemaUid

/-- `INSERT INTO credential_generations` -/
def insertCredentialGeneration (row : CredentialGenerationRow) (rows : ProjectionRows) :
    Except Thrown ProjectionRows := do
  assertStorable row.values
  assertChecks row.checks
  ensure (rows.credentialGenerations.all fun other => other.generationId != row.generationId)
    (.database (.unique (js "credential_generations_pk")))
  ensure (rows.credentialGenerations.all fun other => !row.sameLive other)
    (.database (.unique (js "credential_generations_live_uq")))
  ensure rows.networkProfile.isSome
    (.database (.foreignKey (js "credential_generations_profile_fk")))
  ensure (rows.schemas.any fun schema => schema.schemaUid == row.schemaUid)
    (.database (.foreignKey (js "credential_generations_schema_fk")))
  pure { rows with credentialGenerations := rows.credentialGenerations ++ [row] }

theorem insertCredentialGeneration_eq_ok {row : CredentialGenerationRow}
    {rows rows' : ProjectionRows} :
    insertCredentialGeneration row rows = .ok rows' ↔
      Stores row.values ∧ (∀ c ∈ row.checks, c.2 = true) ∧
        (∀ other ∈ rows.credentialGenerations, other.generationId ≠ row.generationId) ∧
        (∀ other ∈ rows.credentialGenerations, row.sameLive other = false) ∧
        rows.networkProfile.isSome = true ∧
        (∃ schema ∈ rows.schemas, schema.schemaUid = row.schemaUid) ∧
        rows' = { rows with credentialGenerations := rows.credentialGenerations ++ [row] } := by
  simp only [insertCredentialGeneration, bind_eq_ok, assertStorable_eq_ok, assertChecks_eq_ok,
    ensure_eq_ok, exists_const, pure_eq_ok', List.all_eq_true, List.any_eq_true, bne_iff_ne,
    beq_iff_eq, Bool.not_eq_true']

/-- One row of an update, checked against the constraints when it is updated. -/
def updateGenerationRow (generationId : JsString)
    (set : CredentialGenerationRow → CredentialGenerationRow) (row : CredentialGenerationRow) :
    Except Thrown CredentialGenerationRow :=
  if row.generationId = generationId then do
    assertChecks (set row).checks
    pure (set row)
  else pure row

/-- The rows of an update. -/
def updateGenerationRows (generationId : JsString)
    (set : CredentialGenerationRow → CredentialGenerationRow) :
    List CredentialGenerationRow → Except Thrown (List CredentialGenerationRow)
  | [] => .ok []
  | row :: rows => do
      let row ← updateGenerationRow generationId set row
      let rows ← updateGenerationRows generationId set rows
      pure (row :: rows)

/-- `UPDATE credential_generations SET … WHERE generation_id = …`; the updates of the indexer set no
column of the unique index but `deleted_ledger_index`, and that to a value. -/
def updateCredentialGeneration (generationId : JsString)
    (set : CredentialGenerationRow → CredentialGenerationRow) (rows : ProjectionRows) :
    Except Thrown ProjectionRows := do
  let generations ← updateGenerationRows generationId set rows.credentialGenerations
  pure { rows with credentialGenerations := generations }

theorem updateGenerationRow_eq_ok {generationId : JsString}
    {set : CredentialGenerationRow → CredentialGenerationRow} {row row' : CredentialGenerationRow} :
    updateGenerationRow generationId set row = .ok row' ↔
      (row.generationId = generationId → ∀ c ∈ (set row).checks, c.2 = true) ∧
      row' = if row.generationId = generationId then set row else row := by
  rw [updateGenerationRow]
  split_ifs with hid
  · simp only [bind_eq_ok, assertChecks_eq_ok, exists_const, pure_eq_ok', hid, true_implies]
  · simp only [pure_eq_ok', hid, false_implies, true_and]

theorem updateGenerationRows_eq_ok {generationId : JsString}
    {set : CredentialGenerationRow → CredentialGenerationRow}
    {generations generations' : List CredentialGenerationRow} :
    updateGenerationRows generationId set generations = .ok generations' ↔
      (∀ row ∈ generations, row.generationId = generationId →
        ∀ c ∈ (set row).checks, c.2 = true) ∧
      generations' = generations.map fun row =>
        if row.generationId = generationId then set row else row := by
  induction generations generalizing generations' with
  | nil =>
      simp only [updateGenerationRows, Except.ok.injEq, List.not_mem_nil, false_implies,
        implies_true, List.map_nil, true_and]
      exact eq_comm
  | cons row rows ih =>
      simp only [updateGenerationRows, bind_eq_ok, updateGenerationRow_eq_ok, ih,
        List.forall_mem_cons, List.map_cons, pure_eq_ok']
      constructor
      · rintro ⟨row', ⟨hset, hrow⟩, rows', ⟨hrest, hrows⟩, h⟩
        exact ⟨⟨hset, hrest⟩, by rw [h, hrow, hrows]⟩
      · rintro ⟨⟨hset, hrest⟩, h⟩
        exact ⟨_, ⟨hset, rfl⟩, _, ⟨hrest, rfl⟩, h⟩

theorem updateCredentialGeneration_eq_ok {generationId : JsString}
    {set : CredentialGenerationRow → CredentialGenerationRow} {rows rows' : ProjectionRows} :
    updateCredentialGeneration generationId set rows = .ok rows' ↔
      (∀ row ∈ rows.credentialGenerations, row.generationId = generationId →
        ∀ c ∈ (set row).checks, c.2 = true) ∧
      rows' = { rows with
        credentialGenerations := rows.credentialGenerations.map fun row =>
          if row.generationId = generationId then set row else row } := by
  simp only [updateCredentialGeneration, bind_eq_ok, updateGenerationRows_eq_ok, pure_eq_ok']
  constructor
  · rintro ⟨_, ⟨hchecks, rfl⟩, rfl⟩
    exact ⟨hchecks, rfl⟩
  · rintro ⟨hchecks, rfl⟩
    exact ⟨_, ⟨hchecks, rfl⟩, rfl⟩

def CredentialEventRow.values (row : CredentialEventRow) : RowValues where
  texts := [(js "issuer", row.issuer), (js "subject", row.subject)]
    ++ optionalText (js "uri_hex") row.uriHex
  jsonbs := [(js "snapshot", row.snapshot)]
  integers := [(js "node_index", row.nodeIndex), (js "transaction_index", row.transactionIndex)]

/-- `INSERT INTO credential_events … ON CONFLICT DO NOTHING` -/
def insertCredentialEvent (row : CredentialEventRow) (rows : ProjectionRows) :
    Except Thrown ProjectionRows := do
  assertStorable row.values
  assertChecks row.checks
  if rows.credentialEvents.any fun other => other.transactionHash == row.transactionHash
      && other.nodeIndex == row.nodeIndex then
    pure rows
  else do
    ensure rows.networkProfile.isSome
      (.database (.foreignKey
        (js "credential_events_profile_id_network_profiles_profile_id_fk")))
    ensure (rows.schemas.any fun schema => schema.schemaUid == row.schemaUid)
      (.database (.foreignKey (js "credential_events_schema_fk")))
    ensure (rows.credentialGenerations.any fun generation =>
        generation.generationId == row.generationId)
      (.database (.foreignKey (js "credential_events_generation_fk")))
    pure { rows with credentialEvents := rows.credentialEvents ++ [row] }

theorem insertCredentialEvent_eq_ok {row : CredentialEventRow} {rows rows' : ProjectionRows} :
    insertCredentialEvent row rows = .ok rows' ↔
      Stores row.values ∧ (∀ c ∈ row.checks, c.2 = true) ∧
        ((∃ other ∈ rows.credentialEvents, other.transactionHash = row.transactionHash ∧
              other.nodeIndex = row.nodeIndex) ∧ rows' = rows ∨
          (∀ other ∈ rows.credentialEvents, ¬(other.transactionHash = row.transactionHash ∧
              other.nodeIndex = row.nodeIndex)) ∧
            rows.networkProfile.isSome = true ∧
            (∃ schema ∈ rows.schemas, schema.schemaUid = row.schemaUid) ∧
            (∃ generation ∈ rows.credentialGenerations,
              generation.generationId = row.generationId) ∧
            rows' = { rows with credentialEvents := rows.credentialEvents ++ [row] }) := by
  simp only [insertCredentialEvent, bind_eq_ok, assertStorable_eq_ok, assertChecks_eq_ok,
    exists_const]
  refine and_congr_right fun _ => and_congr_right fun _ => ?_
  split_ifs with hany
  · have hfound : ∃ other ∈ rows.credentialEvents,
        other.transactionHash = row.transactionHash ∧ other.nodeIndex = row.nodeIndex := by
      simpa using hany
    simp only [hfound, true_and, pure_eq_ok']
    refine ⟨Or.inl, ?_⟩
    rintro (h | ⟨hnone, -⟩)
    · exact h
    · obtain ⟨other, hmem, hsame⟩ := hfound
      exact absurd hsame (hnone other hmem)
  · have hnone : ∀ other ∈ rows.credentialEvents,
        ¬(other.transactionHash = row.transactionHash ∧ other.nodeIndex = row.nodeIndex) := by
      simpa using hany
    simp only [bind_eq_ok, ensure_eq_ok, exists_const, pure_eq_ok', List.any_eq_true, beq_iff_eq]
    refine ⟨fun h => Or.inr ⟨hnone, h⟩, ?_⟩
    rintro (⟨⟨other, hmem, hsame⟩, -⟩ | ⟨-, h⟩)
    · exact absurd hsame (hnone other hmem)
    · exact h

end Db
end Xcs
