import Xcs.Errors
import Xcs.Core.Platform

/-!
# The tables

The rows PostgreSQL keeps for one network profile.  Every key of every table begins with
`profile_id` and every statement of the indexer filters on it, so the rows of one profile are a
database of their own, and `ProfileRows` is that database: at most one network profile row and
one status row, and the rows of the other tables in the order of their insertion.  The part that is
computed from the ledgers is `ProjectionRows`.

A column of type `bigint` or `integer` is an integer, a nullable column an option, and a `jsonb`
column a value with `null` for SQL `NULL`.  Timestamps that no statement reads (`created_at`,
`recorded_at`, `processed_at`, `registered_at`) are left out.

The `checks` of a row are its `CHECK` constraints in the order in which PostgreSQL evaluates
them, by name.
-/

namespace Xcs
namespace Db

open Js

/-- The patterns of the `CHECK` constraints: `^[0-9a-f]{64}$`. -/
abbrev isHashColumn : JsString → Bool := isLowerHash

/-- `^r[1-9A-HJ-NP-Za-km-z]{24,34}$` -/
abbrev isAddressColumn : JsString → Bool := hasAddressShape

/-- `BETWEEN 0 AND 4294967295` -/
def isUint32Column (n : ℤ) : Bool :=
  decide (0 ≤ n ∧ n ≤ 4294967295)

/-- A nullable column passes a constraint of the form `column IS NULL OR …`. -/
def nullOr {α : Type} (p : α → Bool) : Option α → Bool
  | none => true
  | some a => p a

/-- The first constraint of a row that fails. -/
def violated (checks : List (JsString × Bool)) : Option JsString :=
  (checks.find? fun c => !c.2).map (·.1)

/-- Refuse a row that violates a constraint. -/
def assertChecks (checks : List (JsString × Bool)) : Except Thrown Unit :=
  match violated checks with
  | none => .ok ()
  | some constraint => .error (.database (.check constraint))

theorem violated_eq_none {checks : List (JsString × Bool)} :
    violated checks = none ↔ ∀ c ∈ checks, c.2 = true := by
  simp [violated]

theorem assertChecks_eq_ok {checks : List (JsString × Bool)} {u : Unit} :
    assertChecks checks = .ok u ↔ ∀ c ∈ checks, c.2 = true := by
  rw [← violated_eq_none, assertChecks]
  cases violated checks <;> simp

/-! ## Profiles and checkpoints -/

/-- A row of `network_profiles`. -/
structure NetworkProfileRow where
  profileId : JsString
  xcsVersion : JsString
  networkId : ℕ
  requiredAmendment : JsString
  registryAddress : JsString
  registrationAmountDrops : ℕ
  activationLedgerIndex : ℕ
  activationLedgerHash : JsString
  deriving DecidableEq

def NetworkProfileRow.checks (row : NetworkProfileRow) : List (JsString × Bool) :=
  [(js "network_profiles_activation_hash", isHashColumn row.activationLedgerHash),
    (js "network_profiles_activation_index",
      decide (1 ≤ row.activationLedgerIndex ∧ row.activationLedgerIndex ≤ 4294967295)),
    (js "network_profiles_network_id", isUint32Column row.networkId),
    (js "network_profiles_registration_amount", row.registrationAmountDrops == 1),
    (js "network_profiles_registry_address", isAddressColumn row.registryAddress),
    (js "network_profiles_xcs_version", row.xcsVersion == js "0.1")]

/-- A row of `ledger_checkpoints`. -/
structure LedgerCheckpointRow where
  ledgerIndex : ℕ
  ledgerHash : JsString
  parentHash : JsString
  closeTime : ℕ
  transactionCount : ℕ
  transactionRoot : JsString
  deriving DecidableEq

def LedgerCheckpointRow.checks (row : LedgerCheckpointRow) : List (JsString × Bool) :=
  [(js "ledger_checkpoints_close_time_uint32", isUint32Column row.closeTime),
    (js "ledger_checkpoints_hash", isHashColumn row.ledgerHash),
    (js "ledger_checkpoints_index_uint32", isUint32Column row.ledgerIndex),
    (js "ledger_checkpoints_parent", isHashColumn row.parentHash),
    (js "ledger_checkpoints_transaction_root", isHashColumn row.transactionRoot)]

/-! ## The schema catalog -/

/-- A row of `schema_events`. -/
structure SchemaEventRow where
  profileId : JsString
  transactionHash : JsString
  ledgerIndex : ℤ
  ledgerHash : JsString
  transactionIndex : ℤ
  publisher : JsString
  status : JsString
  reasonCode : Option JsString
  schemaUid : Option JsString
  memoJson : JsValue

/-- `memo_json IS NOT NULL` -/
def isNotNull : JsValue → Bool
  | .null => false
  | _ => true

def SchemaEventRow.checks (row : SchemaEventRow) : List (JsString × Bool) :=
  [(js "schema_events_ledger_hash", isHashColumn row.ledgerHash),
    (js "schema_events_ledger_index_uint32", isUint32Column row.ledgerIndex),
    (js "schema_events_result_shape",
      (row.status == js "accepted" && row.schemaUid.isSome && row.reasonCode.isNone
          && isNotNull row.memoJson)
        || (row.status == js "rejected" && row.schemaUid.isNone && row.reasonCode.isSome)),
    (js "schema_events_schema_uid", nullOr isHashColumn row.schemaUid),
    (js "schema_events_status",
      row.status == js "accepted" || row.status == js "rejected"),
    (js "schema_events_tx_hash", isHashColumn row.transactionHash),
    (js "schema_events_tx_index", decide (0 ≤ row.transactionIndex))]

/-- A row of `schemas`. -/
structure SchemaRow where
  profileId : JsString
  schemaUid : JsString
  publisher : JsString
  name : JsString
  description : JsString
  parentUid : Option JsString
  supersedesUid : Option JsString
  definition : JsValue
  resolvedDefinition : JsValue
  registrationTransactionHash : JsString
  ledgerIndex : ℤ
  transactionIndex : ℤ

def SchemaRow.checks (row : SchemaRow) : List (JsString × Bool) :=
  [(js "schemas_ledger_index_uint32", isUint32Column row.ledgerIndex),
    (js "schemas_parent_uid", nullOr isHashColumn row.parentUid),
    (js "schemas_registration_tx_hash", isHashColumn row.registrationTransactionHash),
    (js "schemas_supersedes_uid", nullOr isHashColumn row.supersedesUid),
    (js "schemas_transaction_index", decide (0 ≤ row.transactionIndex)),
    (js "schemas_uid", isHashColumn row.schemaUid)]

/-! ## Credentials -/

/-- A row of `credential_generations`. -/
structure CredentialGenerationRow where
  profileId : JsString
  generationId : JsString
  ledgerObjectId : JsString
  issuer : JsString
  subject : JsString
  schemaUid : JsString
  uriHex : Option JsString
  expiration : Option ℤ
  accepted : Bool
  createdLedgerIndex : ℤ
  createdTransactionIndex : ℤ
  lastLedgerIndex : ℤ
  deletedLedgerIndex : Option ℤ
  deletionCause : Option JsString
  deriving DecidableEq

/-- The deletion causes the tables admit. -/
def deletionCauses : List JsString :=
  [js "issuer_revoked", js "subject_rejected", js "subject_removed", js "expired_cleanup",
    js "account_deleted", js "self_deleted"]

def CredentialGenerationRow.checks (row : CredentialGenerationRow) : List (JsString × Bool) :=
  [(js "credential_generations_created_ledger_uint32", isUint32Column row.createdLedgerIndex),
    (js "credential_generations_created_transaction_index",
      decide (0 ≤ row.createdTransactionIndex)),
    (js "credential_generations_deleted_ledger_uint32",
      nullOr isUint32Column row.deletedLedgerIndex),
    (js "credential_generations_deletion",
      row.deletedLedgerIndex.isSome == row.deletionCause.isSome),
    (js "credential_generations_deletion_cause",
      nullOr (fun cause => decide (cause ∈ deletionCauses)) row.deletionCause),
    (js "credential_generations_expiration_uint32", nullOr isUint32Column row.expiration),
    (js "credential_generations_id", isHashColumn row.generationId),
    (js "credential_generations_last_ledger_uint32", isUint32Column row.lastLedgerIndex),
    (js "credential_generations_ledger_order",
      decide (row.createdLedgerIndex ≤ row.lastLedgerIndex)
        && nullOr (fun deleted => deleted == row.lastLedgerIndex) row.deletedLedgerIndex),
    (js "credential_generations_object", isHashColumn row.ledgerObjectId),
    (js "credential_generations_schema", isHashColumn row.schemaUid)]

/-- A row of `credential_events`. -/
structure CredentialEventRow where
  profileId : JsString
  transactionHash : JsString
  nodeIndex : ℤ
  generationId : JsString
  ledgerObjectId : JsString
  ledgerIndex : ℤ
  ledgerHash : JsString
  transactionIndex : ℤ
  eventType : JsString
  issuer : JsString
  subject : JsString
  schemaUid : JsString
  uriHex : Option JsString
  expiration : Option ℤ
  accepted : Bool
  deletionCause : Option JsString
  snapshot : JsValue

def CredentialEventRow.checks (row : CredentialEventRow) : List (JsString × Bool) :=
  [(js "credential_events_delete_shape",
      (row.eventType == js "deleted") == row.deletionCause.isSome),
    (js "credential_events_expiration_uint32", nullOr isUint32Column row.expiration),
    (js "credential_events_ledger_hash", isHashColumn row.ledgerHash),
    (js "credential_events_ledger_index_uint32", isUint32Column row.ledgerIndex),
    (js "credential_events_node_index", decide (0 ≤ row.nodeIndex)),
    (js "credential_events_object", isHashColumn row.ledgerObjectId),
    (js "credential_events_schema", isHashColumn row.schemaUid),
    (js "credential_events_transaction_index", decide (0 ≤ row.transactionIndex)),
    (js "credential_events_tx_hash", isHashColumn row.transactionHash),
    (js "credential_events_type",
      row.eventType == js "created" || row.eventType == js "accepted"
        || row.eventType == js "deleted")]

/-! ## The indexer -/

/-- An instant of the database clock, in microseconds. -/
abbrev Instant := ℕ

/-- `INDEXER_STATUS_STATES` -/
inductive IndexerStatusState where
  | starting
  | catchingUp
  | ready
  | halted
  deriving DecidableEq

/-- A row of `indexer_status`. -/
structure IndexerStatusRow where
  state : IndexerStatusState
  primarySourceTip : Option ℕ
  secondarySourceTip : Option ℕ
  lastAgreedLedgerIndex : Option ℕ
  lastAgreedLedgerHash : Option JsString
  errorCode : Option JsString
  writerId : Option JsString
  writerEpoch : ℕ
  leaseExpiresAt : Option Instant
  updatedAt : Instant
  deriving DecidableEq

/-- `Number.MAX_SAFE_INTEGER` -/
def maxSafeInteger : ℕ := 9007199254740991

/-- The microseconds of `interval '5 minutes'`. -/
def fiveMinutes : ℕ := 300000000

/-- A nullable source tip or ledger index is a uint32. -/
def isUint32OrNull : Option ℕ → Bool :=
  nullOr fun n => isUint32Column n

/-- `lastAgreedLedgerIndex` and `lastAgreedLedgerHash` are both absent or both present and well
shaped. -/
def agreedLedgerShape (index : Option ℕ) (hash : Option JsString) : Bool :=
  match index, hash with
  | none, none => true
  | some index, some hash => isUint32Column index && isHashColumn hash
  | _, _ => false

/-- A tip is unknown or not below the last agreed ledger. -/
def notAhead (index : ℕ) (tip : Option ℕ) : Bool :=
  nullOr (fun tip => decide (index ≤ tip)) tip

/-- The constraint `indexer_status_ready_shape`, given that the state is `ready`. -/
def readyShape (row : IndexerStatusRow) : Bool :=
  match row.primarySourceTip, row.secondarySourceTip, row.lastAgreedLedgerIndex,
      row.lastAgreedLedgerHash with
  | some primary, some secondary, some index, some _ =>
      row.writerId.isSome && row.leaseExpiresAt.isSome && index == min primary secondary
  | _, _, _, _ => false

/-- The constraint `indexer_status_lease_window`. -/
def leaseWindow (row : IndexerStatusRow) : Bool :=
  match row.writerId, row.leaseExpiresAt with
  | none, none => true
  | some _, some expires =>
      decide (row.updatedAt ≤ expires ∧ expires ≤ row.updatedAt + fiveMinutes)
  | _, _ => false

def IndexerStatusRow.checks (row : IndexerStatusRow) : List (JsString × Bool) :=
  [(js "indexer_status_agreed_ledger",
      agreedLedgerShape row.lastAgreedLedgerIndex row.lastAgreedLedgerHash),
    (js "indexer_status_agreed_not_ahead",
      row.state == .halted || nullOr (fun index => notAhead index row.primarySourceTip
        && notAhead index row.secondarySourceTip) row.lastAgreedLedgerIndex),
    (js "indexer_status_error_code", nullOr matchesErrorCode row.errorCode),
    (js "indexer_status_error_shape", (row.state == .halted) == row.errorCode.isSome),
    (js "indexer_status_lease_window", leaseWindow row),
    (js "indexer_status_primary_tip", isUint32OrNull row.primarySourceTip),
    (js "indexer_status_ready_shape", !(row.state == .ready) || readyShape row),
    (js "indexer_status_secondary_tip", isUint32OrNull row.secondarySourceTip),
    (js "indexer_status_writer_epoch",
      decide (1 ≤ row.writerEpoch ∧ row.writerEpoch ≤ maxSafeInteger)),
    (js "indexer_status_writer_id", nullOr matchesWriterId row.writerId)]

/-- A row of `indexer_incidents`. -/
structure IndexerIncidentRow where
  writerEpoch : ℕ
  errorCode : JsString
  primarySourceTip : Option ℕ
  secondarySourceTip : Option ℕ
  lastAgreedLedgerIndex : Option ℕ
  lastAgreedLedgerHash : Option JsString
  deriving DecidableEq

def IndexerIncidentRow.checks (row : IndexerIncidentRow) : List (JsString × Bool) :=
  [(js "indexer_incidents_agreed_ledger",
      agreedLedgerShape row.lastAgreedLedgerIndex row.lastAgreedLedgerHash),
    (js "indexer_incidents_error_code", matchesErrorCode row.errorCode),
    (js "indexer_incidents_primary_tip", isUint32OrNull row.primarySourceTip),
    (js "indexer_incidents_secondary_tip", isUint32OrNull row.secondarySourceTip),
    (js "indexer_incidents_writer_epoch",
      decide (1 ≤ row.writerEpoch ∧ row.writerEpoch ≤ maxSafeInteger))]

/-! ## The rows of a profile -/

/-- The rows the projection consists of. -/
structure ProjectionRows where
  networkProfile : Option NetworkProfileRow
  ledgerCheckpoints : List LedgerCheckpointRow
  schemaEvents : List SchemaEventRow
  schemas : List SchemaRow
  credentialGenerations : List CredentialGenerationRow
  credentialEvents : List CredentialEventRow

/-- Everything the tables hold under one `profile_id`: the projection, and the state of the
indexer that writes it. -/
structure ProfileRows extends ProjectionRows where
  indexerStatus : Option IndexerStatusRow
  indexerIncidents : List IndexerIncidentRow

/-- The projection before anything was written under a profile. -/
def ProjectionRows.empty : ProjectionRows where
  networkProfile := none
  ledgerCheckpoints := []
  schemaEvents := []
  schemas := []
  credentialGenerations := []
  credentialEvents := []

/-- The tables before anything was written under a profile. -/
def ProfileRows.empty : ProfileRows where
  toProjectionRows := .empty
  indexerStatus := none
  indexerIncidents := []

end Db
end Xcs
