import Xcs.Db.Fencing
import Xcs.Db.Projection
import Xcs.Indexer.ProjectLedger

/-!
# The indexer repository

`persistLedger` writes the projection of a ledger in one transaction: it locks the writer lease,
makes sure of the stored profile, answers a repeated ledger by comparing it with its checkpoint, and
otherwise appends the registrations, the credential mutations and the checkpoint.

The part that writes the projection, `persistProjection`, neither reads nor writes the lease, and
`persistLedger_eq_ok` says what is left of `persistLedger` around it.
-/

namespace Xcs
namespace Indexer

open Js Json Xcs.Core Db

/-! ## The profile -/

/-- The row of a configured profile; `Number('1')` is `1`. -/
def profileRow (profile : NetworkProfile) : NetworkProfileRow where
  profileId := profile.profileId
  xcsVersion := profile.xcsVersion
  networkId := profile.networkId
  requiredAmendment := toUpperCase profile.requiredAmendment
  registryAddress := profile.registryAddress
  registrationAmountDrops := 1
  activationLedgerIndex := profile.activationLedgerIndex
  activationLedgerHash := toLowerCase profile.activationLedgerHash

/-- The fields in which a stored profile differs from the expected one. -/
def profileMismatches (stored expected : NetworkProfileRow) : List JsString :=
  ([(js "profileId", stored.profileId == expected.profileId),
    (js "xcsVersion", stored.xcsVersion == expected.xcsVersion),
    (js "networkId", stored.networkId == expected.networkId),
    (js "requiredAmendment", stored.requiredAmendment == expected.requiredAmendment),
    (js "registryAddress", stored.registryAddress == expected.registryAddress),
    (js "registrationAmountDrops",
      stored.registrationAmountDrops == expected.registrationAmountDrops),
    (js "activationLedgerIndex", stored.activationLedgerIndex == expected.activationLedgerIndex),
    (js "activationLedgerHash", stored.activationLedgerHash == expected.activationLedgerHash)]
      |>.filter fun field => !field.2).map (·.1)

/-- `parts.join(', ')` -/
def joinComma : List JsString → JsString
  | [] => []
  | [part] => part
  | part :: parts => part ++ js ", " ++ joinComma parts

/-- `assertStoredProfileMatches` -/
def assertStoredProfileMatches (stored : NetworkProfileRow) (configured : NetworkProfile) :
    Except Thrown Unit :=
  let mismatches := profileMismatches stored (profileRow configured)
  ensure mismatches.isEmpty
    (.error (js "Stored network profile " ++ configured.profileId
      ++ js " differs from configuration: " ++ joinComma mismatches))

/-- `ensureNetworkProfile` -/
def ensureNetworkProfile (profile : NetworkProfile) (rows : ProjectionRows) :
    Except Thrown ProjectionRows := do
  let rows ← insertNetworkProfile (profileRow profile) rows
  match rows.networkProfile with
  | none => .error (.error (js "Network profile insert returned no row"))
  | some storedProfile => do
      assertStoredProfileMatches storedProfile profile
      pure rows

/-- `DatabaseScope` -/
inductive DatabaseScope where
  | shared
  | exclusiveProfile
  deriving DecidableEq

/-- `initializeProfile`; `others` says whether the database holds another profile. -/
def initializeProfile (scope : DatabaseScope) (others : Bool) (profile : NetworkProfile)
    (rows : ProfileRows) : Except Thrown ProfileRows := do
  ensure (!(scope == .exclusiveProfile && others))
    (.error (js "Exclusive database scope for " ++ profile.profileId
      ++ js " rejects a database containing another profile"))
  let projectionRows ← ensureNetworkProfile profile rows.toProjectionRows
  pure { rows with toProjectionRows := projectionRows }

/-! ## Reading -/

/-- `checkpointFromRow` -/
def checkpointFromRow (row : LedgerCheckpointRow) : Checkpoint where
  ledgerIndex := row.ledgerIndex
  ledgerHash := row.ledgerHash
  parentHash := row.parentHash
  closeTime := row.closeTime
  transactionCount := row.transactionCount
  transactionRoot := row.transactionRoot

/-- `SELECT * FROM ledger_checkpoints ORDER BY ledger_index DESC LIMIT 1` -/
def latestCheckpoint (rows : ProjectionRows) : Option LedgerCheckpointRow :=
  rows.ledgerCheckpoints.argmax (·.ledgerIndex)

/-- `getLastCheckpoint` -/
def getLastCheckpoint (rows : ProjectionRows) : Option Checkpoint :=
  (latestCheckpoint rows).map checkpointFromRow

/-- The order of `ORDER BY ledger_index ASC, transaction_index ASC`. -/
def isRegisteredBefore (a b : SchemaRow) : Prop :=
  a.ledgerIndex < b.ledgerIndex
    ∨ a.ledgerIndex = b.ledgerIndex ∧ a.transactionIndex ≤ b.transactionIndex

instance : DecidableRel isRegisteredBefore := fun a b => by
  rw [isRegisteredBefore]
  infer_instance

/-- The catalog entry of a row. -/
def catalogEntryFromRow (J : JsonbReader) (networkId : ℕ) (row : SchemaRow) : RegisteredSchema where
  uid := row.schemaUid
  definition := J.read row.definition
  publisher := row.publisher
  networkId
  ledgerIndex := row.ledgerIndex
  transactionIndex := row.transactionIndex

/-- `getSchemaCatalog` -/
def getSchemaCatalog (J : JsonbReader) (rows : ProjectionRows) : List RegisteredSchema :=
  match rows.networkProfile with
  | none => []
  | some profile =>
      (rows.schemas.insertionSort isRegisteredBefore).map
        (catalogEntryFromRow J profile.networkId)

/-- `new Map(catalogEntries.map((entry) => [entry.uid, entry]))` -/
def catalogMap (entries : List RegisteredSchema) : SchemaLookup :=
  entries.foldl setSchema fun _ => none

/-! ## Schema registrations -/

/-- `plainDatabaseJson` -/
def plainDatabaseJson (P : Platform) (value : JsValue) : Except Thrown JsValue := do
  let text ← canonicalJson P value
  match jsonParse text with
  | none => .error .syntaxError
  | some value => pure value

/-- The row of a schema event. -/
def schemaEventRow (profile : NetworkProfile) (ledger : ValidatedLedger)
    (registration : SchemaRegistrationResult) (status : JsString)
    (reasonCode schemaUid : Option JsString) (memoJson : JsValue) : SchemaEventRow where
  profileId := profile.profileId
  transactionHash := registration.transactionHash
  ledgerIndex := ledger.ledgerIndex
  ledgerHash := ledger.ledgerHash
  transactionIndex := registration.transactionIndex
  publisher := registration.publisher
  status
  reasonCode
  schemaUid
  memoJson

/-- The row of a schema. -/
def schemaRow (profile : NetworkProfile) (ledger : ValidatedLedger)
    (registration : SchemaRegistrationResult) (schemaUid : JsString)
    (definition : SchemaDefinition) (definitionJson resolvedJson : JsValue) : SchemaRow where
  profileId := profile.profileId
  schemaUid
  publisher := registration.publisher
  name := definition.name
  description := definition.description
  parentUid := definition.parent
  supersedesUid := definition.supersedes
  definition := definitionJson
  resolvedDefinition := resolvedJson
  registrationTransactionHash := registration.transactionHash
  ledgerIndex := ledger.ledgerIndex
  transactionIndex := registration.transactionIndex

/-- The body of the loop over the registrations. -/
def persistRegistration (P : Platform) (profile : NetworkProfile) (ledger : ValidatedLedger)
    (registration : SchemaRegistrationResult) (rows : ProjectionRows) :
    Except Thrown ProjectionRows :=
  match registration.outcome with
  | .accepted schemaUid memoJson definition resolved => do
      let memoJson ← plainDatabaseJson P memoJson
      let rows ← insertSchemaEvent
        (schemaEventRow profile ledger registration (js "accepted") none (some schemaUid)
          memoJson) rows
      let definitionJson ← plainDatabaseJson P definition.toJs
      let resolvedJson ← plainDatabaseJson P resolved.toJs
      insertSchema
        (schemaRow profile ledger registration schemaUid definition definitionJson resolvedJson)
        rows
  | .rejected reasonCode none =>
      insertSchemaEvent
        (schemaEventRow profile ledger registration (js "rejected") (some reasonCode) none .null)
        rows
  | .rejected reasonCode (some memoJson) => do
      let memoJson ← plainDatabaseJson P memoJson
      insertSchemaEvent
        (schemaEventRow profile ledger registration (js "rejected") (some reasonCode) none
          memoJson) rows

/-- The loop over the registrations. -/
def persistRegistrations (P : Platform) (profile : NetworkProfile) (ledger : ValidatedLedger) :
    List SchemaRegistrationResult → ProjectionRows → Except Thrown ProjectionRows
  | [], rows => .ok rows
  | registration :: registrations, rows => do
      let rows ← persistRegistration P profile ledger registration rows
      persistRegistrations P profile ledger registrations rows

/-! ## Credential mutations -/

/-- The row of the generation a mutation creates. -/
def createdGenerationRow (profile : NetworkProfile) (ledger : ValidatedLedger)
    (mutation : CredentialMutation) : CredentialGenerationRow where
  profileId := profile.profileId
  generationId := mutation.transactionHash
  ledgerObjectId := mutation.ledgerObjectId
  issuer := mutation.issuer
  subject := mutation.subject
  schemaUid := mutation.schemaUid
  uriHex := some mutation.uriHex
  expiration := mutation.expiration.map fun n => (n : ℤ)
  accepted := mutation.accepted
  createdLedgerIndex := ledger.ledgerIndex
  createdTransactionIndex := mutation.transactionIndex
  lastLedgerIndex := ledger.ledgerIndex
  deletedLedgerIndex := none
  deletionCause := none

/-- `SELECT * FROM credential_generations WHERE ledger_object_id = … AND deleted_ledger_index IS
NULL ORDER BY created_ledger_index DESC LIMIT 1` -/
def liveGeneration (ledgerObjectId : JsString) (rows : ProjectionRows) :
    Option CredentialGenerationRow :=
  ((rows.credentialGenerations.filter fun row =>
      row.ledgerObjectId == ledgerObjectId && row.deletedLedgerIndex.isNone).insertionSort
    fun row row' => row'.createdLedgerIndex ≤ row.createdLedgerIndex).head?

/-- `.set({ accepted: true, lastLedgerIndex })` -/
def CredentialGenerationRow.setAccepted (ledgerIndex : ℤ) (row : CredentialGenerationRow) :
    CredentialGenerationRow :=
  { row with
    accepted := true
    lastLedgerIndex := ledgerIndex }

/-- `.set({ lastLedgerIndex, deletedLedgerIndex, deletionCause })` -/
def CredentialGenerationRow.setDeleted (ledgerIndex : ℤ)
    (deletionCause : Option CredentialDeletionCause) (row : CredentialGenerationRow) :
    CredentialGenerationRow :=
  { row with
    lastLedgerIndex := ledgerIndex
    deletedLedgerIndex := some ledgerIndex
    deletionCause := deletionCause.map CredentialDeletionCause.text }

/-- The row of the event of a mutation. -/
def credentialEventRow (profile : NetworkProfile) (ledger : ValidatedLedger)
    (mutation : CredentialMutation) (generationId : JsString) : CredentialEventRow where
  profileId := profile.profileId
  transactionHash := mutation.transactionHash
  nodeIndex := mutation.nodeIndex
  generationId
  ledgerObjectId := mutation.ledgerObjectId
  ledgerIndex := ledger.ledgerIndex
  ledgerHash := ledger.ledgerHash
  transactionIndex := mutation.transactionIndex
  eventType := mutation.eventType.text
  issuer := mutation.issuer
  subject := mutation.subject
  schemaUid := mutation.schemaUid
  uriHex := some mutation.uriHex
  expiration := mutation.expiration.map fun n => (n : ℤ)
  accepted := mutation.accepted
  deletionCause := mutation.deletionCause.map CredentialDeletionCause.text
  snapshot := mutation.snapshot

/-- The write to `credential_generations`: the generation the mutation belongs to, and the rows. -/
def persistGeneration (profile : NetworkProfile) (ledger : ValidatedLedger)
    (mutation : CredentialMutation) (rows : ProjectionRows) :
    Except Thrown (JsString × ProjectionRows) :=
  match mutation.eventType, liveGeneration mutation.ledgerObjectId rows with
  | .created, _ => do
      let rows ← insertCredentialGeneration (createdGenerationRow profile ledger mutation) rows
      pure (mutation.transactionHash, rows)
  | eventType, none =>
      .error (.error (js "Credential " ++ mutation.ledgerObjectId ++ js " was " ++ eventType.text
        ++ js " without a live generation"))
  | .accepted, some live => do
      let rows ← updateCredentialGeneration live.generationId
        (CredentialGenerationRow.setAccepted ledger.ledgerIndex) rows
      pure (live.generationId, rows)
  | .deleted, some live => do
      let rows ← updateCredentialGeneration live.generationId
        (CredentialGenerationRow.setDeleted ledger.ledgerIndex mutation.deletionCause) rows
      pure (live.generationId, rows)

/-- `persistCredentialMutation` -/
def persistCredentialMutation (profile : NetworkProfile) (ledger : ValidatedLedger)
    (mutation : CredentialMutation) (rows : ProjectionRows) : Except Thrown ProjectionRows := do
  let (generationId, rows) ← persistGeneration profile ledger mutation rows
  insertCredentialEvent (credentialEventRow profile ledger mutation generationId) rows

/-- The loop over the mutations. -/
def persistCredentialMutations (profile : NetworkProfile) (ledger : ValidatedLedger) :
    List CredentialMutation → ProjectionRows → Except Thrown ProjectionRows
  | [], rows => .ok rows
  | mutation :: mutations, rows => do
      let rows ← persistCredentialMutation profile ledger mutation rows
      persistCredentialMutations profile ledger mutations rows

/-! ## Ledgers -/

/-- The checkpoint row of a ledger. -/
def checkpointRow (ledger : ValidatedLedger) : LedgerCheckpointRow where
  ledgerIndex := ledger.ledgerIndex
  ledgerHash := ledger.ledgerHash
  parentHash := ledger.parentHash
  closeTime := ledger.closeTime
  transactionCount := ledger.transactions.length
  transactionRoot := ledger.transactionRoot

/-- The checkpoint at the index of a ledger. -/
def sameIndex (ledger : ValidatedLedger) (rows : ProjectionRows) : Option LedgerCheckpointRow :=
  rows.ledgerCheckpoints.find? fun row => row.ledgerIndex == ledger.ledgerIndex

/-- What `persistLedger` checks of a checkpoint at the index of the ledger; the column
`transaction_root` is `NOT NULL`, so the branch for a missing root is never taken. -/
def assertSameCheckpoint (checkpoint : LedgerCheckpointRow) (ledger : ValidatedLedger) :
    Except Thrown Unit := do
  ensure (checkpoint.ledgerHash == ledger.ledgerHash)
    (.checkpoint .conflict
      (js "Checkpoint conflict at ledger " ++ natToString ledger.ledgerIndex ++ js ": "
        ++ checkpoint.ledgerHash ++ js " != " ++ ledger.ledgerHash))
  ensure (checkpoint.transactionRoot == ledger.transactionRoot
      && checkpoint.transactionCount == ledger.transactions.length)
    (.checkpoint .conflict
      (js "Checkpoint transaction evidence conflicts at ledger "
        ++ natToString ledger.ledgerIndex))

/-- What `persistLedger` writes for a ledger without a checkpoint. -/
def persistProjection (P : Platform) (profile : NetworkProfile) (projection : LedgerProjection)
    (rows : ProjectionRows) : Except Thrown ProjectionRows := do
  assertLedgerContinuity profile (getLastCheckpoint rows) projection.ledger
  let rows ← persistRegistrations P profile projection.ledger projection.schemaRegistrations rows
  let rows ← persistCredentialMutations profile projection.ledger projection.credentialMutations
    rows
  insertLedgerCheckpoint (checkpointRow projection.ledger) rows

/-- The two results of `persistLedger`. -/
inductive PersistResult where
  | inserted
  | alreadyProcessed
  deriving DecidableEq

/-- The readings of the database clock in the transaction of `persistLedger`: by the lock of the
lease, and by the update of the status. -/
structure PersistClock where
  lock : Instant
  status : ClockReadings
  lock_le : lock ≤ status.filter

/-- `persistLedger` -/
def persistLedger (P : Platform) (profile : NetworkProfile) (projection : LedgerProjection)
    (token : IndexerLeaseToken) (status : IndexerStatusUpdateInput) (clock : PersistClock)
    (rows : ProfileRows) : Except Thrown (PersistResult × ProfileRows) := do
  ensure (token.profileId == profile.profileId)
    (.error (js "Indexer lease profile does not match the projected profile"))
  let _ ← lockActiveIndexerLease token clock.lock rows
  let projectionRows ← ensureNetworkProfile profile rows.toProjectionRows
  match sameIndex projection.ledger projectionRows with
  | some checkpoint => do
      assertSameCheckpoint checkpoint projection.ledger
      let (_, rows) ← updateIndexerStatus token status clock.status
        { rows with toProjectionRows := projectionRows }
      pure (.alreadyProcessed, rows)
  | none => do
      let projectionRows ← persistProjection P profile projection projectionRows
      let (_, rows) ← updateIndexerStatus token status clock.status
        { rows with toProjectionRows := projectionRows }
      pure (.inserted, rows)

/-! ## What a successful call did -/

theorem profileMismatches_eq_nil {stored expected : NetworkProfileRow} :
    profileMismatches stored expected = [] ↔ stored = expected := by
  rw [profileMismatches, List.map_eq_nil_iff, List.filter_eq_nil_iff]
  simp only [List.forall_mem_cons, Bool.not_eq_true', Bool.not_eq_false, beq_iff_eq,
    List.not_mem_nil, false_implies, implies_true, and_true]
  constructor
  · rintro ⟨h₁, h₂, h₃, h₄, h₅, h₆, h₇, h₈⟩
    obtain ⟨⟩ := stored
    obtain ⟨⟩ := expected
    simp only at h₁ h₂ h₃ h₄ h₅ h₆ h₇ h₈
    subst h₁ h₂ h₃ h₄ h₅ h₆ h₇ h₈
    rfl
  · rintro rfl
    exact ⟨rfl, rfl, rfl, rfl, rfl, rfl, rfl, rfl⟩

theorem assertStoredProfileMatches_eq_ok {stored : NetworkProfileRow}
    {configured : NetworkProfile} {u : Unit} :
    assertStoredProfileMatches stored configured = .ok u ↔ stored = profileRow configured := by
  simp only [assertStoredProfileMatches, ensure_eq_ok, List.isEmpty_iff,
    profileMismatches_eq_nil]

/-- The stored profile is the configured one, and it is inserted where there was none. -/
theorem ensureNetworkProfile_eq_ok {profile : NetworkProfile} {rows rows' : ProjectionRows} :
    ensureNetworkProfile profile rows = .ok rows' ↔
      (rows.networkProfile = some (profileRow profile) ∧ rows' = rows) ∨
        (rows.networkProfile = none ∧ (∀ c ∈ (profileRow profile).checks, c.2 = true) ∧
          rows' = { rows with networkProfile := some (profileRow profile) }) := by
  simp only [ensureNetworkProfile, bind_eq_ok, insertNetworkProfile_eq_ok]
  constructor
  · rintro ⟨inserted, ⟨hsome, rfl⟩ | ⟨hnone, hchecks, rfl⟩, h⟩
    · obtain ⟨stored, hstored⟩ := Option.isSome_iff_exists.mp hsome
      rw [hstored] at h
      simp only [bind_eq_ok, assertStoredProfileMatches_eq_ok, exists_const, pure_eq_ok] at h
      exact Or.inl ⟨by rw [hstored, h.1], h.2.symm⟩
    · simp only [bind_eq_ok, assertStoredProfileMatches_eq_ok, exists_const, true_and,
        pure_eq_ok] at h
      exact Or.inr ⟨hnone, hchecks, h.symm⟩
  · rintro (⟨hstored, rfl⟩ | ⟨hnone, hchecks, rfl⟩)
    · refine ⟨rows', Or.inl ⟨by rw [hstored]; rfl, rfl⟩, ?_⟩
      rw [hstored]
      simp only [bind_eq_ok, assertStoredProfileMatches_eq_ok, exists_const, pure_eq_ok, and_self]
    · refine ⟨_, Or.inr ⟨hnone, hchecks, rfl⟩, ?_⟩
      simp only [bind_eq_ok, assertStoredProfileMatches_eq_ok, exists_const, pure_eq_ok, and_self]

theorem assertSameCheckpoint_eq_ok {checkpoint : LedgerCheckpointRow}
    {ledger : ValidatedLedger} {u : Unit} : assertSameCheckpoint checkpoint ledger = .ok u ↔
      checkpoint.ledgerHash = ledger.ledgerHash ∧
        checkpoint.transactionRoot = ledger.transactionRoot ∧
        checkpoint.transactionCount = ledger.transactions.length := by
  simp only [assertSameCheckpoint, bind_eq_ok, ensure_eq_ok, exists_const, Bool.and_eq_true,
    beq_iff_eq]

/-- What the body of `persistLedger` does to the projection. -/
inductive Persists (P : Platform) (profile : NetworkProfile) (projection : LedgerProjection)
    (rows : ProjectionRows) : PersistResult → ProjectionRows → Prop
  | again {checkpoint : LedgerCheckpointRow}
      (found : sameIndex projection.ledger rows = some checkpoint)
      (hash : checkpoint.ledgerHash = projection.ledger.ledgerHash)
      (root : checkpoint.transactionRoot = projection.ledger.transactionRoot)
      (count : checkpoint.transactionCount = projection.ledger.transactions.length) :
      Persists P profile projection rows .alreadyProcessed rows
  | next {rows' : ProjectionRows} (fresh : sameIndex projection.ledger rows = none)
      (written : persistProjection P profile projection rows = .ok rows') :
      Persists P profile projection rows .inserted rows'

/-- `persistLedger` returns exactly when the lease is live, the stored profile is the configured
one, the body succeeds, and the lease is still live when the status is written. -/
theorem persistLedger_eq_ok {P : Platform} {profile : NetworkProfile}
    {projection : LedgerProjection} {token : IndexerLeaseToken} {status : IndexerStatusUpdateInput}
    {clock : PersistClock} {rows rows' : ProfileRows} {result : PersistResult} :
    persistLedger P profile projection token status clock rows = .ok (result, rows') ↔
      token.profileId = profile.profileId ∧
      (∃ row, lockActiveIndexerLease token clock.lock rows = .ok row) ∧
      ∃ before after row, ensureNetworkProfile profile rows.toProjectionRows = .ok before ∧
        Persists P profile projection before result after ∧
        updateIndexerStatus token status clock.status { rows with toProjectionRows := after }
          = .ok (row, rows') := by
  simp only [persistLedger, bind_eq_ok, ensure_eq_ok, exists_const, beq_iff_eq]
  constructor
  · rintro ⟨htoken, row, hlock, before, hensure, h⟩
    refine ⟨htoken, ⟨row, hlock⟩, before, ?_⟩
    cases hfound : sameIndex projection.ledger before with
    | some checkpoint =>
        simp only [hfound, bind_eq_ok, assertSameCheckpoint_eq_ok, exists_const, pure_eq_ok,
          Prod.exists, Prod.mk.injEq] at h
        obtain ⟨⟨hhash, hroot, hcount⟩, row', rows'', hupdate, rfl, rfl⟩ := h
        exact ⟨before, row', hensure, .again hfound hhash hroot hcount, hupdate⟩
    | none =>
        simp only [hfound, bind_eq_ok, pure_eq_ok, Prod.exists, Prod.mk.injEq] at h
        obtain ⟨after, hwritten, row', rows'', hupdate, rfl, rfl⟩ := h
        exact ⟨after, row', hensure, .next hfound hwritten, hupdate⟩
  · rintro ⟨htoken, ⟨row, hlock⟩, before, after, row', hensure, hpersists, hupdate⟩
    refine ⟨htoken, row, hlock, before, hensure, ?_⟩
    cases hpersists with
    | again found hash root count =>
        simp only [found, bind_eq_ok, assertSameCheckpoint_eq_ok, exists_const, pure_eq_ok,
          Prod.exists, Prod.mk.injEq]
        exact ⟨⟨hash, root, count⟩, row', rows', hupdate, trivial, rfl⟩
    | next fresh written =>
        simp only [fresh, bind_eq_ok, pure_eq_ok, Prod.exists, Prod.mk.injEq]
        exact ⟨after, written, row', rows', hupdate, trivial, rfl⟩

/-! ## What the writes leave alone -/

/-- Neither the stored profile nor a checkpoint differs. -/
structure SameLedgers (rows rows' : ProjectionRows) : Prop where
  networkProfile : rows'.networkProfile = rows.networkProfile
  ledgerCheckpoints : rows'.ledgerCheckpoints = rows.ledgerCheckpoints

namespace SameLedgers

theorem refl (rows : ProjectionRows) : SameLedgers rows rows := ⟨rfl, rfl⟩

theorem trans {rows rows' rows'' : ProjectionRows} (h : SameLedgers rows rows')
    (h' : SameLedgers rows' rows'') : SameLedgers rows rows'' :=
  ⟨h'.networkProfile.trans h.networkProfile, h'.ledgerCheckpoints.trans h.ledgerCheckpoints⟩

end SameLedgers

theorem insertSchemaEvent_sameLedgers {row : SchemaEventRow} {rows rows' : ProjectionRows}
    (h : insertSchemaEvent row rows = .ok rows') : SameLedgers rows rows' := by
  obtain ⟨-, -, ⟨-, rfl⟩ | ⟨-, -, rfl⟩⟩ := insertSchemaEvent_eq_ok.mp h <;> exact ⟨rfl, rfl⟩

theorem insertSchema_sameLedgers {row : SchemaRow} {rows rows' : ProjectionRows}
    (h : insertSchema row rows = .ok rows') : SameLedgers rows rows' := by
  obtain ⟨-, -, ⟨-, rfl⟩ | ⟨-, -, -, rfl⟩⟩ := insertSchema_eq_ok.mp h <;> exact ⟨rfl, rfl⟩

theorem insertCredentialEvent_sameLedgers {row : CredentialEventRow} {rows rows' : ProjectionRows}
    (h : insertCredentialEvent row rows = .ok rows') : SameLedgers rows rows' := by
  obtain ⟨-, -, ⟨-, rfl⟩ | ⟨-, -, -, -, rfl⟩⟩ := insertCredentialEvent_eq_ok.mp h <;>
    exact ⟨rfl, rfl⟩

theorem persistRegistration_sameLedgers {P : Platform} {profile : NetworkProfile}
    {ledger : ValidatedLedger} {registration : SchemaRegistrationResult}
    {rows rows' : ProjectionRows}
    (h : persistRegistration P profile ledger registration rows = .ok rows') :
    SameLedgers rows rows' := by
  rw [persistRegistration.eq_def] at h
  split at h
  · simp only [bind_eq_ok] at h
    obtain ⟨_, -, rows₁, hevent, _, -, _, -, hschema⟩ := h
    exact (insertSchemaEvent_sameLedgers hevent).trans (insertSchema_sameLedgers hschema)
  · exact insertSchemaEvent_sameLedgers h
  · simp only [bind_eq_ok] at h
    obtain ⟨_, -, hevent⟩ := h
    exact insertSchemaEvent_sameLedgers hevent

theorem persistRegistrations_sameLedgers {P : Platform} {profile : NetworkProfile}
    {ledger : ValidatedLedger} {registrations : List SchemaRegistrationResult}
    {rows rows' : ProjectionRows}
    (h : persistRegistrations P profile ledger registrations rows = .ok rows') :
    SameLedgers rows rows' := by
  induction registrations generalizing rows with
  | nil =>
      obtain rfl := Except.ok.inj h
      exact .refl rows
  | cons registration registrations ih =>
      simp only [persistRegistrations, bind_eq_ok] at h
      obtain ⟨rows₁, hfirst, hrest⟩ := h
      exact (persistRegistration_sameLedgers hfirst).trans (ih hrest)

theorem persistGeneration_sameLedgers {profile : NetworkProfile} {ledger : ValidatedLedger}
    {mutation : CredentialMutation} {generationId : JsString} {rows rows' : ProjectionRows}
    (h : persistGeneration profile ledger mutation rows = .ok (generationId, rows')) :
    SameLedgers rows rows' := by
  rw [persistGeneration.eq_def] at h
  split at h
  · simp only [bind_eq_ok, insertCredentialGeneration_eq_ok, pure_eq_ok, Prod.mk.injEq] at h
    obtain ⟨_, ⟨-, -, -, -, -, -, rfl⟩, -, rfl⟩ := h
    exact ⟨rfl, rfl⟩
  · cases h
  · simp only [bind_eq_ok, updateCredentialGeneration_eq_ok, pure_eq_ok, Prod.mk.injEq] at h
    obtain ⟨_, ⟨-, rfl⟩, -, rfl⟩ := h
    exact ⟨rfl, rfl⟩
  · simp only [bind_eq_ok, updateCredentialGeneration_eq_ok, pure_eq_ok, Prod.mk.injEq] at h
    obtain ⟨_, ⟨-, rfl⟩, -, rfl⟩ := h
    exact ⟨rfl, rfl⟩

theorem persistCredentialMutation_sameLedgers {profile : NetworkProfile}
    {ledger : ValidatedLedger} {mutation : CredentialMutation} {rows rows' : ProjectionRows}
    (h : persistCredentialMutation profile ledger mutation rows = .ok rows') :
    SameLedgers rows rows' := by
  simp only [persistCredentialMutation, bind_eq_ok, Prod.exists] at h
  obtain ⟨generationId, rows₁, hgeneration, hevent⟩ := h
  exact (persistGeneration_sameLedgers hgeneration).trans
    (insertCredentialEvent_sameLedgers hevent)

theorem persistCredentialMutations_sameLedgers {profile : NetworkProfile}
    {ledger : ValidatedLedger} {mutations : List CredentialMutation} {rows rows' : ProjectionRows}
    (h : persistCredentialMutations profile ledger mutations rows = .ok rows') :
    SameLedgers rows rows' := by
  induction mutations generalizing rows with
  | nil =>
      obtain rfl := Except.ok.inj h
      exact .refl rows
  | cons mutation mutations ih =>
      simp only [persistCredentialMutations, bind_eq_ok] at h
      obtain ⟨rows₁, hfirst, hrest⟩ := h
      exact (persistCredentialMutation_sameLedgers hfirst).trans (ih hrest)

/-- A ledger whose projection is written continues the newest checkpoint and becomes the next. -/
theorem persistProjection_ok {P : Platform} {profile : NetworkProfile}
    {projection : LedgerProjection} {rows rows' : ProjectionRows}
    (h : persistProjection P profile projection rows = .ok rows') :
    Continues profile (getLastCheckpoint rows) projection.ledger ∧
      rows'.networkProfile = rows.networkProfile ∧
      rows'.ledgerCheckpoints = rows.ledgerCheckpoints ++ [checkpointRow projection.ledger] ∧
      ∀ c ∈ (checkpointRow projection.ledger).checks, c.2 = true := by
  simp only [persistProjection, bind_eq_ok, assertLedgerContinuity_eq_ok, exists_const,
    insertLedgerCheckpoint_eq_ok] at h
  obtain ⟨hcontinues, rows₁, hregistrations, rows₂, hmutations, -, hchecks, -, -, rfl⟩ := h
  have hsame := (persistRegistrations_sameLedgers hregistrations).trans
    (persistCredentialMutations_sameLedgers hmutations)
  exact ⟨hcontinues, hsame.networkProfile, by rw [← hsame.ledgerCheckpoints], hchecks⟩

end Indexer
end Xcs
