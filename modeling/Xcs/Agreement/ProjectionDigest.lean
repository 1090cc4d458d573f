import Xcs.Agreement.ProjectionTables
import Xcs.Indexer.InterleavedRuns
import Xcs.Sdk.Network
import Xcs.Web.Listings

/-!
# The digest of a projection

`computeProjectionDigest` reads the tables that were computed from the ledgers, each in the order of
the ledger, and hashes what it read as canonical JSON.  Operators compare the digests of independent
replays.

The rows come from the database in an order that ends in a text column, whose order is that of the
collation of the database, and the documents in them list their members as that database likes.
Neither is to be seen in the digest.

* `canon_table_iff` is the argument for one table: its part of the snapshot is the same for two
  databases exactly when the rows are, up to their physical order and that of the members.
* `snapshot_canon_iff` puts the tables together.
* `projection_digest_agrees` is the statement about the runs of two pools of indexers.
-/

namespace Xcs
namespace Agreement

open Js Json Xcs.Core Db Indexer Web Keyset

/-! ## The snapshot -/

/-- `PROJECTION_DIGEST_VERSION` -/
def projectionDigestVersion : JsString := js "xcs-projection-v1"

/-- `ProjectionRowCounts` -/
structure ProjectionRowCounts where
  ledgerCheckpoints : ℕ
  schemaEvents : ℕ
  schemas : ℕ
  credentialEvents : ℕ
  credentialGenerations : ℕ
  deriving DecidableEq

/-- `ProjectionDigest` -/
structure ProjectionDigest where
  version : JsString
  profileId : JsString
  algorithm : JsString
  digestHex : JsString
  rowCounts : ProjectionRowCounts
  deriving DecidableEq

/-- `ProjectionSnapshot` -/
structure ProjectionSnapshot where
  version : JsString
  profile : JsValue
  ledgerCheckpoints : List JsValue
  schemaEvents : List JsValue
  schemas : List JsValue
  credentialEvents : List JsValue
  credentialGenerations : List JsValue

/-- The snapshot as a value. -/
def ProjectionSnapshot.toJs (snapshot : ProjectionSnapshot) : JsValue :=
  .obj [(js "version", .str snapshot.version),
    (js "profile", snapshot.profile),
    (js "ledgerCheckpoints", .arr snapshot.ledgerCheckpoints),
    (js "schemaEvents", .arr snapshot.schemaEvents),
    (js "schemas", .arr snapshot.schemas),
    (js "credentialEvents", .arr snapshot.credentialEvents),
    (js "credentialGenerations", .arr snapshot.credentialGenerations)]

/-- `digestProjectionSnapshot` -/
def digestProjectionSnapshot (P : Platform) (snapshot : ProjectionSnapshot) :
    Except Thrown JsString := do
  let text ← canonicalJson P snapshot.toJs
  pure (sha256Hex P (encodeUtf8 text))

/-- A nullable number column as a JSON value. -/
def intOrNull : Option ℤ → JsValue
  | none => .null
  | some n => intJs n

/-- The columns of the profile. -/
def profileRowJs (row : NetworkProfileRow) : JsValue :=
  .obj [(js "profileId", .str row.profileId),
    (js "xcsVersion", .str row.xcsVersion),
    (js "networkId", intJs row.networkId),
    (js "requiredAmendment", .str row.requiredAmendment),
    (js "registryAddress", .str row.registryAddress),
    (js "registrationAmountDrops", intJs row.registrationAmountDrops),
    (js "activationLedgerIndex", intJs row.activationLedgerIndex),
    (js "activationLedgerHash", .str row.activationLedgerHash)]

/-- The columns of a checkpoint. -/
def checkpointJs (row : LedgerCheckpointRow) : JsValue :=
  .obj [(js "ledgerIndex", intJs row.ledgerIndex),
    (js "ledgerHash", .str row.ledgerHash),
    (js "parentHash", .str row.parentHash),
    (js "closeTime", intJs row.closeTime),
    (js "transactionCount", intJs row.transactionCount),
    (js "transactionRoot", .str row.transactionRoot)]

/-- The columns of a schema event. -/
def schemaEventJs (J : JsonbReader) (row : SchemaEventRow) : JsValue :=
  .obj [(js "transactionHash", .str row.transactionHash),
    (js "ledgerIndex", intJs row.ledgerIndex),
    (js "ledgerHash", .str row.ledgerHash),
    (js "transactionIndex", intJs row.transactionIndex),
    (js "publisher", .str row.publisher),
    (js "status", .str row.status),
    (js "reasonCode", textOrNull row.reasonCode),
    (js "schemaUid", textOrNull row.schemaUid),
    (js "memoJson", J.read row.memoJson)]

/-- The columns of a schema. -/
def schemaJs (J : JsonbReader) (row : SchemaRow) : JsValue :=
  .obj [(js "schemaUid", .str row.schemaUid),
    (js "publisher", .str row.publisher),
    (js "name", .str row.name),
    (js "description", .str row.description),
    (js "parentUid", textOrNull row.parentUid),
    (js "supersedesUid", textOrNull row.supersedesUid),
    (js "definition", J.read row.definition),
    (js "resolvedDefinition", J.read row.resolvedDefinition),
    (js "registrationTransactionHash", .str row.registrationTransactionHash),
    (js "ledgerIndex", intJs row.ledgerIndex),
    (js "transactionIndex", intJs row.transactionIndex)]

/-- The columns of a credential event. -/
def credentialEventJs (J : JsonbReader) (row : CredentialEventRow) : JsValue :=
  .obj [(js "transactionHash", .str row.transactionHash),
    (js "nodeIndex", intJs row.nodeIndex),
    (js "generationId", .str row.generationId),
    (js "ledgerObjectId", .str row.ledgerObjectId),
    (js "ledgerIndex", intJs row.ledgerIndex),
    (js "ledgerHash", .str row.ledgerHash),
    (js "transactionIndex", intJs row.transactionIndex),
    (js "eventType", .str row.eventType),
    (js "issuer", .str row.issuer),
    (js "subject", .str row.subject),
    (js "schemaUid", .str row.schemaUid),
    (js "uriHex", textOrNull row.uriHex),
    (js "expiration", intOrNull row.expiration),
    (js "accepted", .bool row.accepted),
    (js "deletionCause", textOrNull row.deletionCause),
    (js "snapshot", J.read row.snapshot)]

/-- The columns of a credential generation. -/
def generationJs (row : CredentialGenerationRow) : JsValue :=
  .obj [(js "generationId", .str row.generationId),
    (js "ledgerObjectId", .str row.ledgerObjectId),
    (js "issuer", .str row.issuer),
    (js "subject", .str row.subject),
    (js "schemaUid", .str row.schemaUid),
    (js "uriHex", textOrNull row.uriHex),
    (js "expiration", intOrNull row.expiration),
    (js "accepted", .bool row.accepted),
    (js "createdLedgerIndex", intJs row.createdLedgerIndex),
    (js "createdTransactionIndex", intJs row.createdTransactionIndex),
    (js "lastLedgerIndex", intJs row.lastLedgerIndex),
    (js "deletedLedgerIndex", intOrNull row.deletedLedgerIndex),
    (js "deletionCause", textOrNull row.deletionCause)]

section Order

variable (collation : LinearOrder JsString)

/-- `ORDER BY ledger_index, transaction_index, transaction_hash` -/
def schemaEventOrder (row : SchemaEventRow) : ListingKey collation :=
  listingKey collation (registrationPlace row)

/-- `ORDER BY ledger_index, transaction_index, schema_uid` -/
def schemaOrder (row : SchemaRow) : ListingKey collation :=
  listingKey collation (schemaPlace row)

/-- `ORDER BY ledger_index, transaction_index, node_index, transaction_hash` -/
def credentialEventOrder (row : CredentialEventRow) : ℤ ×ₗ ℤ ×ₗ ℤ ×ₗ Collated collation :=
  toLex (row.ledgerIndex, toLex (row.transactionIndex, toLex (row.nodeIndex, row.transactionHash)))

/-- `ORDER BY created_ledger_index, created_transaction_index, generation_id` -/
def generationOrder (row : CredentialGenerationRow) : ListingKey collation :=
  toLex (row.createdLedgerIndex, toLex (row.createdTransactionIndex, row.generationId))

/-- What `computeProjectionDigestSnapshot` reads. -/
def projectionSnapshot (J : JsonbReader) (profile : NetworkProfileRow) (rows : ProjectionRows) :
    ProjectionSnapshot where
  version := projectionDigestVersion
  profile := profileRowJs profile
  ledgerCheckpoints := (ordered (·.ledgerIndex) rows.ledgerCheckpoints).map checkpointJs
  schemaEvents := (ordered (schemaEventOrder collation) rows.schemaEvents).map (schemaEventJs J)
  schemas := (ordered (schemaOrder collation) rows.schemas).map (schemaJs J)
  credentialEvents := (ordered (credentialEventOrder collation) rows.credentialEvents).map
    (credentialEventJs J)
  credentialGenerations := (ordered (generationOrder collation) rows.credentialGenerations).map
    generationJs

/-- `computeProjectionDigest`; its transaction is repeatable, so the six reads see the same rows. -/
def computeProjectionDigest (P : Platform) (J : JsonbReader) (rows : ProjectionRows)
    (profileId : JsString) : Except Thrown ProjectionDigest :=
  match rows.networkProfile.filter fun row => row.profileId == profileId with
  | none => .error (.error (js "Unknown network profile: " ++ profileId))
  | some profile => do
      let digestHex ← digestProjectionSnapshot P (projectionSnapshot collation J profile rows)
      pure { version := projectionDigestVersion
             profileId
             algorithm := js "sha256"
             digestHex
             rowCounts :=
               { ledgerCheckpoints := rows.ledgerCheckpoints.length
                 schemaEvents := rows.schemaEvents.length
                 schemas := rows.schemas.length
                 credentialEvents := rows.credentialEvents.length
                 credentialGenerations := rows.credentialGenerations.length } }

end Order

/-! ## Columns -/

theorem isWrittenJson_str {s : JsString} (h : isWellFormed s = true) : IsWrittenJson (.str s) :=
  ⟨rfl, h⟩

theorem isWrittenJson_obj {members : Members}
    (hkeys : (members.map (·.1)).all isWellFormed = true)
    (h : ∀ m ∈ members, IsWrittenJson m.2) : IsWrittenJson (.obj members) := by
  rw [List.all_map, List.all_eq_true] at hkeys
  refine ⟨?_, ?_⟩
  · rw [JsValue.isJson_obj, List.all_eq_true]
    exact fun m hm => (h m hm).isJson
  · rw [JsValue.allStrings_obj, List.all_eq_true]
    intro m hm
    rw [Bool.and_eq_true]
    exact ⟨hkeys m hm, (h m hm).strings⟩

theorem isWrittenJson_arr {items : List JsValue} (h : ∀ v ∈ items, IsWrittenJson v) :
    IsWrittenJson (.arr items) := by
  refine ⟨?_, ?_⟩
  · rw [JsValue.isJson_arr, List.all_eq_true]
    exact fun v hv => (h v hv).isJson
  · rw [JsValue.allStrings_arr, List.all_eq_true]
    exact fun v hv => (h v hv).strings

theorem isWrittenJson_read (J : JsonbReader) {v : JsValue} (h : IsWrittenJson v) :
    IsWrittenJson (J.read v) := by
  refine ⟨?_, ?_⟩
  · rw [← JsValue.isJson_canon, J.canon_read, JsValue.isJson_canon]
    exact h.isJson
  · rw [← JsValue.allStrings_canon, J.canon_read, JsValue.allStrings_canon]
    exact h.strings

theorem isWrittenJson_textOrNull {text : Option JsString} (h : text.all isWellFormed = true) :
    IsWrittenJson (textOrNull text) :=
  ⟨isJson_textOrNull text, allStrings_textOrNull h⟩

theorem isWrittenJson_intJs {n : ℤ} (h : isUint32Column n = true) : IsWrittenJson (intJs n) := by
  rw [isUint32Column, decide_eq_true_eq] at h
  obtain ⟨m, rfl⟩ := Int.eq_ofNat_of_zero_le h.1
  exact ⟨isJson_intJs (by omega), rfl⟩

theorem isWrittenJson_intOrNull {n : Option ℤ} (h : nullOr isUint32Column n = true) :
    IsWrittenJson (intOrNull n) := by
  cases n with
  | none => exact ⟨rfl, rfl⟩
  | some n => exact isWrittenJson_intJs h

/-- A number column of 32 bits is told from its JSON. -/
theorem canon_intJs_iff {n m : ℤ} (h : isUint32Column m = true) :
    (intJs n).canon = (intJs m).canon ↔ n = m := by
  rw [isUint32Column, decide_eq_true_eq] at h
  exact ⟨eq_of_canon_intJs_eq h, fun heq => by rw [heq]⟩

theorem canon_intOrNull_iff {n m : Option ℤ} (h : nullOr isUint32Column m = true) :
    (intOrNull n).canon = (intOrNull m).canon ↔ n = m := by
  cases n with
  | none => cases m <;> simp [intOrNull, intJs]
  | some n =>
      cases m with
      | none => simp [intOrNull, intJs]
      | some m =>
          rw [Option.some.injEq]
          exact canon_intJs_iff h

theorem canon_textOrNull_iff {s t : Option JsString} :
    (textOrNull s).canon = (textOrNull t).canon ↔ s = t := by
  cases s <;> cases t <;> simp [textOrNull]

theorem isUint32Column_of_isInt4 {n : ℤ} (hint : isInt4 n = true) (h : decide (0 ≤ n) = true) :
    isUint32Column n = true := by
  rw [isInt4, decide_eq_true_eq] at hint
  rw [decide_eq_true_eq] at h
  rw [isUint32Column, decide_eq_true_eq]
  omega

theorem isWellFormed_of_isHashColumn {s : JsString} (h : isHashColumn s = true) :
    isWellFormed s = true :=
  isWellFormed_of_isPlain (isPlain_of_isLowerHash h)

theorem all_isWellFormed_of_nullOr {s : Option JsString} (h : nullOr isHashColumn s = true) :
    s.all isWellFormed = true := by
  cases s with
  | none => rfl
  | some s => exact isWellFormed_of_isHashColumn h

/-! ## Rows -/

/-- The row with the members of its document in order. -/
def canonicalEvent (row : SchemaEventRow) : SchemaEventRow :=
  { row with memoJson := row.memoJson.canon }

/-- The row with the members of its documents in order. -/
def canonicalSchema (row : SchemaRow) : SchemaRow :=
  { row with
    definition := row.definition.canon
    resolvedDefinition := row.resolvedDefinition.canon }

/-- The row with the members of its document in order. -/
def canonicalCredentialEvent (row : CredentialEventRow) : CredentialEventRow :=
  { row with snapshot := row.snapshot.canon }

section Rows

variable {profile profile' : NetworkProfile} {Q Q' : ℤ → ℤ → JsString → Prop} {J J' : JsonbReader}

theorem isWrittenJson_checkpointJs {row : LedgerCheckpointRow} (h : IsWrittenCheckpoint row) :
    IsWrittenJson (checkpointJs row) := by
  obtain ⟨hchecks, hcount⟩ := h
  simp only [LedgerCheckpointRow.checks, List.forall_mem_cons] at hchecks
  obtain ⟨hclose, hhash, hindex, hparent, hroot, -⟩ := hchecks
  refine isWrittenJson_obj rfl ?_
  simp only [List.forall_mem_cons]
  exact ⟨isWrittenJson_intJs hindex, isWrittenJson_str (isWellFormed_of_isHashColumn hhash),
    isWrittenJson_str (isWellFormed_of_isHashColumn hparent), isWrittenJson_intJs hclose,
    isWrittenJson_intJs (isUint32Column_of_isInt4 hcount (by simp)),
    isWrittenJson_str (isWellFormed_of_isHashColumn hroot), List.forall_mem_nil _⟩

theorem canon_checkpointJs_iff {row row' : LedgerCheckpointRow} (h : IsWrittenCheckpoint row') :
    (checkpointJs row).canon = (checkpointJs row').canon ↔ row = row' := by
  obtain ⟨hchecks, hcount⟩ := h
  simp only [LedgerCheckpointRow.checks, List.forall_mem_cons] at hchecks
  obtain ⟨hclose, -, hindex, -⟩ := hchecks
  have hcount := isUint32Column_of_isInt4 hcount (by simp)
  refine (JsValue.canon_obj_eq_iff ?_ ?_).trans ?_
  · rfl
  · simp only [List.map_cons, List.map_nil]
    decide
  simp only [List.map_cons, List.map_nil, List.cons.injEq, canon_intJs_iff hindex,
    canon_intJs_iff hclose, canon_intJs_iff hcount, JsValue.canon_str, JsValue.str.injEq,
    and_true, Int.natCast_inj]
  cases row
  cases row'
  simp only [LedgerCheckpointRow.mk.injEq]

theorem isWrittenJson_schemaEventJs {row : SchemaEventRow} (h : IsWrittenEvent profile Q row) :
    IsWrittenJson (schemaEventJs J row) := by
  have hchecks := h.checks
  simp only [SchemaEventRow.checks, List.forall_mem_cons] at hchecks
  obtain ⟨hledgerHash, hledger, -, huid, hstatus, hhash, htransaction, -⟩ := hchecks
  have hstatus : isWellFormed row.status = true := by
    simp only [Bool.or_eq_true, beq_iff_eq] at hstatus
    rcases hstatus with hstatus | hstatus
    · rw [hstatus]; decide
    · rw [hstatus]; decide
  refine isWrittenJson_obj rfl ?_
  simp only [List.forall_mem_cons]
  exact ⟨isWrittenJson_str (isWellFormed_of_isHashColumn hhash), isWrittenJson_intJs hledger,
    isWrittenJson_str (isWellFormed_of_isHashColumn hledgerHash),
    isWrittenJson_intJs (isUint32Column_of_isInt4 h.transactionIndex htransaction),
    isWrittenJson_str h.publisher, isWrittenJson_str hstatus, isWrittenJson_textOrNull h.reasonCode,
    isWrittenJson_textOrNull (all_isWellFormed_of_nullOr huid), isWrittenJson_read J h.memoJson,
    List.forall_mem_nil _⟩

theorem canon_schemaEventJs_iff (hprofile : profile.profileId = profile'.profileId)
    {row row' : SchemaEventRow} (h : IsWrittenEvent profile Q row)
    (h' : IsWrittenEvent profile' Q' row') :
    (schemaEventJs J row).canon = (schemaEventJs J' row').canon ↔
      canonicalEvent row = canonicalEvent row' := by
  have hid : row.profileId = row'.profileId := by rw [h.profileId, h'.profileId, hprofile]
  have hchecks := h'.checks
  simp only [SchemaEventRow.checks, List.forall_mem_cons] at hchecks
  obtain ⟨-, hledger, -, -, -, -, htransaction, -⟩ := hchecks
  have htransaction := isUint32Column_of_isInt4 h'.transactionIndex htransaction
  refine (JsValue.canon_obj_eq_iff ?_ ?_).trans ?_
  · rfl
  · simp only [List.map_cons, List.map_nil]
    decide
  simp only [List.map_cons, List.map_nil, List.cons.injEq, canon_intJs_iff hledger,
    canon_intJs_iff htransaction, canon_textOrNull_iff, J.canon_read, J'.canon_read,
    JsValue.canon_str, JsValue.str.injEq, and_true]
  cases row
  cases row'
  simp only [canonicalEvent, SchemaEventRow.mk.injEq] at hid ⊢
  tauto

theorem isWrittenJson_schemaJs {row : SchemaRow} (h : IsWrittenSchema profile Q row) :
    IsWrittenJson (schemaJs J row) := by
  have hchecks := h.checks
  simp only [SchemaRow.checks, List.forall_mem_cons] at hchecks
  obtain ⟨hledger, hparent, hhash, hsupersedes, htransaction, huid, -⟩ := hchecks
  refine isWrittenJson_obj rfl ?_
  simp only [List.forall_mem_cons]
  exact ⟨isWrittenJson_str (isWellFormed_of_isHashColumn huid), isWrittenJson_str h.publisher,
    isWrittenJson_str h.name, isWrittenJson_str h.description,
    isWrittenJson_textOrNull (all_isWellFormed_of_nullOr hparent),
    isWrittenJson_textOrNull (all_isWellFormed_of_nullOr hsupersedes),
    isWrittenJson_read J h.definition, isWrittenJson_read J h.resolvedDefinition,
    isWrittenJson_str (isWellFormed_of_isHashColumn hhash), isWrittenJson_intJs hledger,
    isWrittenJson_intJs (isUint32Column_of_isInt4 h.transactionIndex htransaction),
    List.forall_mem_nil _⟩

theorem canon_schemaJs_iff (hprofile : profile.profileId = profile'.profileId)
    {row row' : SchemaRow} (h : IsWrittenSchema profile Q row)
    (h' : IsWrittenSchema profile' Q' row') :
    (schemaJs J row).canon = (schemaJs J' row').canon ↔
      canonicalSchema row = canonicalSchema row' := by
  have hid : row.profileId = row'.profileId := by rw [h.profileId, h'.profileId, hprofile]
  have hchecks := h'.checks
  simp only [SchemaRow.checks, List.forall_mem_cons] at hchecks
  obtain ⟨hledger, -, -, -, htransaction, -⟩ := hchecks
  have htransaction := isUint32Column_of_isInt4 h'.transactionIndex htransaction
  rw [schemaJs, schemaJs]
  refine (JsValue.canon_obj_eq_iff ?_ ?_).trans ?_
  · rfl
  · simp only [List.map_cons, List.map_nil]
    decide
  simp only [List.map_cons, List.map_nil, List.cons.injEq, canon_intJs_iff hledger,
    canon_intJs_iff htransaction, canon_textOrNull_iff, J.canon_read, J'.canon_read,
    JsValue.canon_str, JsValue.str.injEq, and_true]
  cases row
  cases row'
  simp only [canonicalSchema, SchemaRow.mk.injEq] at hid ⊢
  tauto

theorem isWrittenJson_generationJs {row : CredentialGenerationRow}
    (h : IsWrittenGeneration profile Q row) : IsWrittenJson (generationJs row) := by
  have hchecks := h.checks
  simp only [CredentialGenerationRow.checks, List.forall_mem_cons] at hchecks
  obtain ⟨hcreated, htransaction, hdeleted, -, hcause, hexpiration, hid, hlast, -, hobject, huid,
    -⟩ := hchecks
  have hcause : row.deletionCause.all isWellFormed = true := by
    cases hvalue : row.deletionCause with
    | none => rfl
    | some cause =>
        rw [hvalue] at hcause
        have hmem : cause ∈ deletionCauses := of_decide_eq_true hcause
        exact List.all_eq_true.mp (by decide : deletionCauses.all isWellFormed = true) cause hmem
  refine isWrittenJson_obj rfl ?_
  simp only [List.forall_mem_cons]
  exact ⟨isWrittenJson_str (isWellFormed_of_isHashColumn hid),
    isWrittenJson_str (isWellFormed_of_isHashColumn hobject), isWrittenJson_str h.issuer,
    isWrittenJson_str h.subject, isWrittenJson_str (isWellFormed_of_isHashColumn huid),
    isWrittenJson_textOrNull h.uriHex, isWrittenJson_intOrNull hexpiration, ⟨rfl, rfl⟩,
    isWrittenJson_intJs hcreated,
    isWrittenJson_intJs (isUint32Column_of_isInt4 h.createdTransactionIndex htransaction),
    isWrittenJson_intJs hlast, isWrittenJson_intOrNull hdeleted, isWrittenJson_textOrNull hcause,
    List.forall_mem_nil _⟩

theorem canon_generationJs_iff (hprofile : profile.profileId = profile'.profileId)
    {row row' : CredentialGenerationRow} (h : IsWrittenGeneration profile Q row)
    (h' : IsWrittenGeneration profile' Q' row') :
    (generationJs row).canon = (generationJs row').canon ↔ row = row' := by
  have hid : row.profileId = row'.profileId := by rw [h.profileId, h'.profileId, hprofile]
  have hchecks := h'.checks
  simp only [CredentialGenerationRow.checks, List.forall_mem_cons] at hchecks
  obtain ⟨hcreated, htransaction, hdeleted, -, -, hexpiration, -, hlast, -⟩ := hchecks
  have htransaction := isUint32Column_of_isInt4 h'.createdTransactionIndex htransaction
  rw [generationJs, generationJs]
  refine (JsValue.canon_obj_eq_iff ?_ ?_).trans ?_
  · rfl
  · simp only [List.map_cons, List.map_nil]
    decide
  simp only [List.map_cons, List.map_nil, List.cons.injEq, canon_intJs_iff hcreated,
    canon_intJs_iff htransaction, canon_intJs_iff hlast, canon_intOrNull_iff hdeleted,
    canon_intOrNull_iff hexpiration, canon_textOrNull_iff, JsValue.canon_str, JsValue.str.injEq,
    JsValue.canon_bool, JsValue.bool.injEq, and_true]
  cases row
  cases row'
  simp only [CredentialGenerationRow.mk.injEq] at hid ⊢
  tauto

theorem isWrittenJson_credentialEventJs {row : CredentialEventRow}
    (h : IsWrittenCredentialEvent profile Q row) : IsWrittenJson (credentialEventJs J row) := by
  have hchecks := h.checks
  simp only [CredentialEventRow.checks, List.forall_mem_cons] at hchecks
  obtain ⟨-, hexpiration, hledgerHash, hledger, hnode, hobject, huid, htransaction, hhash, htype,
    -⟩ := hchecks
  have htype : isWellFormed row.eventType = true := by
    simp only [Bool.or_eq_true, beq_iff_eq] at htype
    rcases htype with (htype | htype) | htype
    · rw [htype]; decide
    · rw [htype]; decide
    · rw [htype]; decide
  refine isWrittenJson_obj rfl ?_
  simp only [List.forall_mem_cons]
  exact ⟨isWrittenJson_str (isWellFormed_of_isHashColumn hhash),
    isWrittenJson_intJs (isUint32Column_of_isInt4 h.nodeIndex hnode),
    isWrittenJson_str (isWellFormed_of_isHashColumn h.generationId),
    isWrittenJson_str (isWellFormed_of_isHashColumn hobject), isWrittenJson_intJs hledger,
    isWrittenJson_str (isWellFormed_of_isHashColumn hledgerHash),
    isWrittenJson_intJs (isUint32Column_of_isInt4 h.transactionIndex htransaction),
    isWrittenJson_str htype, isWrittenJson_str h.issuer, isWrittenJson_str h.subject,
    isWrittenJson_str (isWellFormed_of_isHashColumn huid), isWrittenJson_textOrNull h.uriHex,
    isWrittenJson_intOrNull hexpiration, ⟨rfl, rfl⟩, isWrittenJson_textOrNull h.deletionCause,
    isWrittenJson_read J h.snapshot, List.forall_mem_nil _⟩

theorem canon_credentialEventJs_iff (hprofile : profile.profileId = profile'.profileId)
    {row row' : CredentialEventRow} (h : IsWrittenCredentialEvent profile Q row)
    (h' : IsWrittenCredentialEvent profile' Q' row') :
    (credentialEventJs J row).canon = (credentialEventJs J' row').canon ↔
      canonicalCredentialEvent row = canonicalCredentialEvent row' := by
  have hid : row.profileId = row'.profileId := by rw [h.profileId, h'.profileId, hprofile]
  have hchecks := h'.checks
  simp only [CredentialEventRow.checks, List.forall_mem_cons] at hchecks
  obtain ⟨-, hexpiration, -, hledger, hnode, -, -, htransaction, -⟩ := hchecks
  have htransaction := isUint32Column_of_isInt4 h'.transactionIndex htransaction
  have hnode := isUint32Column_of_isInt4 h'.nodeIndex hnode
  rw [credentialEventJs, credentialEventJs]
  refine (JsValue.canon_obj_eq_iff ?_ ?_).trans ?_
  · rfl
  · simp only [List.map_cons, List.map_nil]
    decide
  simp only [List.map_cons, List.map_nil, List.cons.injEq, canon_intJs_iff hledger,
    canon_intJs_iff htransaction, canon_intJs_iff hnode, canon_intOrNull_iff hexpiration,
    canon_textOrNull_iff, J.canon_read, J'.canon_read, JsValue.canon_str, JsValue.str.injEq,
    JsValue.canon_bool, JsValue.bool.injEq, and_true]
  cases row
  cases row'
  simp only [canonicalCredentialEvent, CredentialEventRow.mk.injEq] at hid ⊢
  tauto

end Rows

/-! ## The profile -/

section Profile

variable {P : Platform} {profile profile' : NetworkProfile}

theorem isWrittenJson_profileRowJs (h : Sdk.IsProfile P profile) :
    IsWrittenJson (profileRowJs (profileRow profile)) := by
  have hamendment : isWellFormed (profileRow profile).requiredAmendment = true := by
    have hhash := h.requiredAmendment
    rw [isHash, Bool.and_eq_true] at hhash
    rw [profileRow, h.requiredAmendment_upper]
    exact isWellFormed_of_isPlain (isPlain_of_all_isHexDigit hhash.2)
  refine isWrittenJson_obj rfl ?_
  simp only [List.forall_mem_cons]
  exact ⟨isWrittenJson_str (isWellFormed_of_isPlain (isPlain_of_matchesProfileId h.profileId)),
    isWrittenJson_str (by decide : isWellFormed (js "0.1") = true),
    isWrittenJson_intJs (isUint32Column_natCast h.networkId),
    isWrittenJson_str hamendment,
    isWrittenJson_str (isWellFormed_of_isPlain (isPlain_of_hasAddressShape
      (P.hasAddressShape_of_valid _ h.registryAddress))),
    isWrittenJson_intJs (by decide : isUint32Column ((1 : ℕ) : ℤ) = true),
    isWrittenJson_intJs (isUint32Column_natCast h.activationLedgerIndex),
    isWrittenJson_str (isWellFormed_of_isHashColumn
      (isLowerHash_toLowerCase (isHash_of_isLowerHash h.activationLedgerHash))),
    List.forall_mem_nil _⟩

theorem canon_profileRowJs_iff (h' : Sdk.IsProfile P profile') :
    (profileRowJs (profileRow profile)).canon = (profileRowJs (profileRow profile')).canon ↔
      profileRow profile = profileRow profile' := by
  have hnetwork : isUint32Column ((profileRow profile').networkId : ℤ) = true :=
    isUint32Column_natCast h'.networkId
  have hactivation : isUint32Column ((profileRow profile').activationLedgerIndex : ℤ) = true :=
    isUint32Column_natCast h'.activationLedgerIndex
  have hamount : isUint32Column ((profileRow profile').registrationAmountDrops : ℤ) = true :=
    (by decide : isUint32Column ((1 : ℕ) : ℤ) = true)
  rw [profileRowJs, profileRowJs]
  refine (JsValue.canon_obj_eq_iff ?_ ?_).trans ?_
  · rfl
  · simp only [List.map_cons, List.map_nil]
    decide
  simp only [List.map_cons, List.map_nil, List.cons.injEq, canon_intJs_iff hnetwork,
    canon_intJs_iff hactivation, canon_intJs_iff hamount, JsValue.canon_str, JsValue.str.injEq,
    and_true, Int.natCast_inj]
  cases profileRow profile
  cases profileRow profile'
  simp only [NetworkProfileRow.mk.injEq]

end Profile

/-! ## The tables -/

/-- The tables of a database, in whatever order it keeps their rows. -/
structure Rearranged (rows rows' : ProjectionRows) : Prop where
  networkProfile : rows'.networkProfile = rows.networkProfile
  ledgerCheckpoints : rows.ledgerCheckpoints.Perm rows'.ledgerCheckpoints
  schemaEvents : rows.schemaEvents.Perm rows'.schemaEvents
  schemas : rows.schemas.Perm rows'.schemas
  credentialEvents : rows.credentialEvents.Perm rows'.credentialEvents
  credentialGenerations : rows.credentialGenerations.Perm rows'.credentialGenerations

theorem HoldsRows.rearranged {profile : NetworkProfile} {Q : ℤ → ℤ → JsString → Prop}
    {rows rows' : ProjectionRows} (h : HoldsRows profile Q rows) (hrows : Rearranged rows rows') :
    HoldsRows profile Q rows' where
  checkpoints := h.checkpoints.perm hrows.ledgerCheckpoints
  events := h.events.perm hrows.schemaEvents
  schemas := h.schemas.perm hrows.schemas
  generations := h.generations.perm hrows.credentialGenerations
  credentialEvents := h.credentialEvents.perm hrows.credentialEvents

/-- Two databases hold the same, up to the order of rows and of the members of documents. -/
structure SameProjection (rows rows' : ProjectionRows) : Prop where
  networkProfile : rows.networkProfile = rows'.networkProfile
  ledgerCheckpoints : rows.ledgerCheckpoints.Perm rows'.ledgerCheckpoints
  schemaEvents : (rows.schemaEvents.map canonicalEvent).Perm (rows'.schemaEvents.map canonicalEvent)
  schemas : (rows.schemas.map canonicalSchema).Perm (rows'.schemas.map canonicalSchema)
  credentialEvents : (rows.credentialEvents.map canonicalCredentialEvent).Perm
    (rows'.credentialEvents.map canonicalCredentialEvent)
  credentialGenerations : rows.credentialGenerations.Perm rows'.credentialGenerations

/-- **One table in the snapshot.**  `place` is what the rows are ordered by before the text column,
`f` and `f'` write a row, and `g` is what is to be seen of it. -/
theorem canon_table_iff {α κ τ τ' : Type} [LinearOrder κ] [LinearOrder τ] [LinearOrder τ']
    {place : α → κ} {order : α → τ} {order' : α → τ'} {f f' : α → JsValue} {g : α → α}
    (hlt : ∀ a b, place a < place b → order a < order b)
    (hlt' : ∀ a b, place a < place b → order' a < order' b) (hg : ∀ a, place (g a) = place a)
    {rows rows' : List α} (h : Distinct place rows) (h' : Distinct place rows')
    (hfg : ∀ a ∈ rows, ∀ b ∈ rows', (f a).canon = (f' b).canon ↔ g a = g b) :
    (JsValue.arr ((ordered order rows).map f)).canon
        = (JsValue.arr ((ordered order' rows').map f')).canon ↔
      (rows.map g).Perm (rows'.map g) := by
  rw [JsValue.canon_arr, JsValue.canon_arr, JsValue.arr.injEq, List.map_map, List.map_map,
    ordered_of_finer hlt h, ordered_of_finer hlt' h']
  exact map_ordered_eq_iff hg h h' hfg

section Order

variable (collation : LinearOrder JsString)

theorem schemaEventOrder_lt {a b : SchemaEventRow}
    (h : toLex (a.ledgerIndex, a.transactionIndex) < toLex (b.ledgerIndex, b.transactionIndex)) :
    schemaEventOrder collation a < schemaEventOrder collation b := by
  rw [Prod.Lex.toLex_lt_toLex] at h
  refine (listingKey_lt_iff collation).mpr (h.imp_right ?_)
  exact fun h => ⟨h.1, Or.inl h.2⟩

theorem schemaOrder_lt {a b : SchemaRow}
    (h : toLex (a.ledgerIndex, a.transactionIndex) < toLex (b.ledgerIndex, b.transactionIndex)) :
    schemaOrder collation a < schemaOrder collation b := by
  rw [Prod.Lex.toLex_lt_toLex] at h
  refine (listingKey_lt_iff collation).mpr (h.imp_right ?_)
  exact fun h => ⟨h.1, Or.inl h.2⟩

theorem generationOrder_lt {a b : CredentialGenerationRow}
    (h : toLex (a.createdLedgerIndex, a.createdTransactionIndex)
      < toLex (b.createdLedgerIndex, b.createdTransactionIndex)) :
    generationOrder collation a < generationOrder collation b := by
  rw [Prod.Lex.toLex_lt_toLex] at h
  rw [generationOrder, generationOrder, Prod.Lex.toLex_lt_toLex]
  exact h.imp_right fun h => ⟨h.1, Prod.Lex.toLex_lt_toLex.mpr (Or.inl h.2)⟩

theorem credentialEventOrder_lt {a b : CredentialEventRow}
    (h : toLex (a.ledgerIndex, toLex (a.transactionIndex, a.nodeIndex))
      < toLex (b.ledgerIndex, toLex (b.transactionIndex, b.nodeIndex))) :
    credentialEventOrder collation a < credentialEventOrder collation b := by
  rw [Prod.Lex.toLex_lt_toLex] at h
  rw [credentialEventOrder, credentialEventOrder, Prod.Lex.toLex_lt_toLex]
  refine h.imp_right fun h => ⟨h.1, ?_⟩
  have hrest := Prod.Lex.toLex_lt_toLex.mp h.2
  refine Prod.Lex.toLex_lt_toLex.mpr (hrest.imp_right fun hrest => ⟨hrest.1, ?_⟩)
  exact Prod.Lex.toLex_lt_toLex.mpr (Or.inl hrest.2)

end Order

/-! ## The snapshot of two databases -/

/-- No two transactions are at one place. -/
def IsFunctional (Q : ℤ → ℤ → JsString → Prop) : Prop :=
  ∀ ledgerIndex transactionIndex hash hash', Q ledgerIndex transactionIndex hash →
    Q ledgerIndex transactionIndex hash' → hash = hash'

section Places

variable {profile : NetworkProfile} {Q : ℤ → ℤ → JsString → Prop} {rows : ProjectionRows}

theorem HoldsRows.distinct_schemaEvents (h : HoldsRows profile Q rows) (hQ : IsFunctional Q) :
    Distinct (fun row => toLex (row.ledgerIndex, row.transactionIndex)) rows.schemaEvents := by
  refine h.events.distinct_of_determines fun a b ha hb hplace => ?_
  obtain ⟨hledger, htransaction⟩ := Prod.mk.inj (toLex.injective hplace)
  refine hQ _ _ _ _ ha.place ?_
  rw [hledger, htransaction]
  exact hb.place

theorem HoldsRows.distinct_schemas (h : HoldsRows profile Q rows) (hQ : IsFunctional Q) :
    Distinct (fun row => toLex (row.ledgerIndex, row.transactionIndex)) rows.schemas := by
  refine h.schemas.distinct_of_determines fun a b ha hb hplace => ?_
  obtain ⟨hledger, htransaction⟩ := Prod.mk.inj (toLex.injective hplace)
  refine hQ _ _ _ _ ha.place ?_
  rw [hledger, htransaction]
  exact hb.place

theorem HoldsRows.distinct_generations (h : HoldsRows profile Q rows) (hQ : IsFunctional Q) :
    Distinct (fun row => toLex (row.createdLedgerIndex, row.createdTransactionIndex))
      rows.credentialGenerations := by
  refine h.generations.distinct_of_determines fun a b ha hb hplace => ?_
  obtain ⟨hledger, htransaction⟩ := Prod.mk.inj (toLex.injective hplace)
  refine hQ _ _ _ _ ha.place ?_
  rw [hledger, htransaction]
  exact hb.place

theorem HoldsRows.distinct_credentialEvents (h : HoldsRows profile Q rows)
    (hQ : IsFunctional Q) :
    Distinct (fun row => toLex (row.ledgerIndex, toLex (row.transactionIndex, row.nodeIndex)))
      rows.credentialEvents := by
  refine h.credentialEvents.distinct_of_determines fun a b ha hb hplace => ?_
  obtain ⟨hledger, hrest⟩ := Prod.mk.inj (toLex.injective hplace)
  obtain ⟨htransaction, hnode⟩ := Prod.mk.inj (toLex.injective hrest)
  refine Prod.ext (hQ _ _ _ _ ha.place ?_) hnode
  rw [hledger, htransaction]
  exact hb.place

end Places

section Snapshots

variable {P : Platform} {profile profile' : NetworkProfile} {Q Q' : ℤ → ℤ → JsString → Prop}
  {rows rows' : ProjectionRows} (collation collation' : LinearOrder JsString) (J J' : JsonbReader)

/-- The snapshot can be written. -/
theorem isWrittenJson_snapshot (hprofile : Sdk.IsProfile P profile)
    (h : HoldsRows profile Q rows) :
    IsWrittenJson (projectionSnapshot collation J (profileRow profile) rows).toJs := by
  have htable : ∀ {α κ : Type} [LinearOrder κ] {key : α → κ} {p : α → Prop} {f : α → JsValue}
      {table : List α}, (∀ row ∈ table, p row) → (∀ row, p row → IsWrittenJson (f row)) →
        IsWrittenJson (.arr ((ordered key table).map f)) := by
    intro α κ _ key p f table hrows hf
    refine isWrittenJson_arr fun v hv => ?_
    obtain ⟨row, hrow, rfl⟩ := List.mem_map.mp hv
    exact hf row (hrows row (mem_ordered.mp hrow))
  refine isWrittenJson_obj rfl ?_
  simp only [List.forall_mem_cons]
  exact ⟨isWrittenJson_str (by decide : isWellFormed projectionDigestVersion = true),
    isWrittenJson_profileRowJs hprofile,
    htable h.checkpoints.every fun _ => isWrittenJson_checkpointJs,
    htable h.events.every fun _ => isWrittenJson_schemaEventJs,
    htable h.schemas.every fun _ => isWrittenJson_schemaJs,
    htable h.credentialEvents.every fun _ => isWrittenJson_credentialEventJs,
    htable h.generations.every fun _ => isWrittenJson_generationJs, List.forall_mem_nil _⟩

section Tables

variable (h : HoldsRows profile Q rows) (h' : HoldsRows profile' Q' rows')
  (hid : profile.profileId = profile'.profileId) (hQ : IsFunctional Q) (hQ' : IsFunctional Q')
  (row row' : NetworkProfileRow)

include h h'

theorem canon_ledgerCheckpoints_iff :
    (JsValue.arr (projectionSnapshot collation J row rows).ledgerCheckpoints).canon
        = (JsValue.arr (projectionSnapshot collation' J' row' rows').ledgerCheckpoints).canon ↔
      (rows.ledgerCheckpoints.map id).Perm (rows'.ledgerCheckpoints.map id) :=
  canon_table_iff (fun _ _ hlt => hlt) (fun _ _ hlt => hlt) (fun _ => rfl) h.checkpoints.keys
    h'.checkpoints.keys fun _ _ b hb => canon_checkpointJs_iff (h'.checkpoints.every b hb)

include hid hQ hQ'

theorem canon_schemaEvents_iff :
    (JsValue.arr (projectionSnapshot collation J row rows).schemaEvents).canon
        = (JsValue.arr (projectionSnapshot collation' J' row' rows').schemaEvents).canon ↔
      (rows.schemaEvents.map canonicalEvent).Perm (rows'.schemaEvents.map canonicalEvent) := by
  refine canon_table_iff ?_ ?_ ?_ (h.distinct_schemaEvents hQ) (h'.distinct_schemaEvents hQ') ?_
  · exact fun a b => schemaEventOrder_lt collation
  · exact fun a b => schemaEventOrder_lt collation'
  · exact fun a => rfl
  · exact fun a ha b hb =>
      canon_schemaEventJs_iff hid (h.events.every a ha) (h'.events.every b hb)

theorem canon_schemas_iff :
    (JsValue.arr (projectionSnapshot collation J row rows).schemas).canon
        = (JsValue.arr (projectionSnapshot collation' J' row' rows').schemas).canon ↔
      (rows.schemas.map canonicalSchema).Perm (rows'.schemas.map canonicalSchema) := by
  refine canon_table_iff ?_ ?_ ?_ (h.distinct_schemas hQ) (h'.distinct_schemas hQ') ?_
  · exact fun a b => schemaOrder_lt collation
  · exact fun a b => schemaOrder_lt collation'
  · exact fun a => rfl
  · exact fun a ha b hb => canon_schemaJs_iff hid (h.schemas.every a ha) (h'.schemas.every b hb)

theorem canon_credentialEvents_iff :
    (JsValue.arr (projectionSnapshot collation J row rows).credentialEvents).canon
        = (JsValue.arr (projectionSnapshot collation' J' row' rows').credentialEvents).canon ↔
      (rows.credentialEvents.map canonicalCredentialEvent).Perm
        (rows'.credentialEvents.map canonicalCredentialEvent) := by
  refine canon_table_iff ?_ ?_ ?_ (h.distinct_credentialEvents hQ)
    (h'.distinct_credentialEvents hQ') ?_
  · exact fun a b => credentialEventOrder_lt collation
  · exact fun a b => credentialEventOrder_lt collation'
  · exact fun a => rfl
  · exact fun a ha b hb => canon_credentialEventJs_iff hid (h.credentialEvents.every a ha)
      (h'.credentialEvents.every b hb)

theorem canon_credentialGenerations_iff :
    (JsValue.arr (projectionSnapshot collation J row rows).credentialGenerations).canon
        = (JsValue.arr
          (projectionSnapshot collation' J' row' rows').credentialGenerations).canon ↔
      (rows.credentialGenerations.map id).Perm (rows'.credentialGenerations.map id) := by
  refine canon_table_iff ?_ ?_ ?_ (h.distinct_generations hQ) (h'.distinct_generations hQ') ?_
  · exact fun a b => generationOrder_lt collation
  · exact fun a b => generationOrder_lt collation'
  · exact fun a => rfl
  · exact fun a ha b hb =>
      canon_generationJs_iff hid (h.generations.every a ha) (h'.generations.every b hb)

end Tables

/-- **Two snapshots have the same text exactly when the databases hold the same.** -/
theorem snapshot_canon_iff (hprofile' : Sdk.IsProfile P profile') (h : HoldsRows profile Q rows)
    (h' : HoldsRows profile' Q' rows') (hQ : IsFunctional Q) (hQ' : IsFunctional Q')
    (hsome : rows.networkProfile = some (profileRow profile))
    (hsome' : rows'.networkProfile = some (profileRow profile')) :
    (projectionSnapshot collation J (profileRow profile) rows).toJs.canon
        = (projectionSnapshot collation' J' (profileRow profile') rows').toJs.canon ↔
      SameProjection rows rows' := by
  have hcheckpoints := canon_ledgerCheckpoints_iff collation collation' J J' h h'
    (profileRow profile) (profileRow profile')
  rw [List.map_id, List.map_id] at hcheckpoints
  have hrecord : (projectionSnapshot collation J (profileRow profile) rows).toJs.canon
      = (projectionSnapshot collation' J' (profileRow profile') rows').toJs.canon ↔ _ :=
    JsValue.canon_obj_eq_iff rfl (by simp only [List.map_cons, List.map_nil]; decide)
  rw [hrecord]
  simp only [List.map_cons, List.map_nil, List.cons.injEq, and_true]
  constructor
  · rintro ⟨-, hrow, hledger, hevents, hschemas, hcredentials, hgenerations⟩
    have hsame := (canon_profileRowJs_iff hprofile').mp hrow
    have hid : profile.profileId = profile'.profileId := congrArg (·.profileId) hsame
    rw [canon_credentialGenerations_iff collation collation' J J' h h' hid hQ hQ', List.map_id,
      List.map_id] at hgenerations
    exact {
      networkProfile := by rw [hsome, hsome', hsame]
      ledgerCheckpoints := hcheckpoints.mp hledger
      schemaEvents := (canon_schemaEvents_iff collation collation' J J' h h' hid hQ hQ' _ _).mp
        hevents
      schemas := (canon_schemas_iff collation collation' J J' h h' hid hQ hQ' _ _).mp hschemas
      credentialEvents := (canon_credentialEvents_iff collation collation' J J' h h' hid hQ hQ'
        _ _).mp hcredentials
      credentialGenerations := hgenerations }
  · intro hprojection
    have hsame : profileRow profile = profileRow profile' := by
      have hprofiles := hprojection.networkProfile
      rw [hsome, hsome', Option.some.injEq] at hprofiles
      exact hprofiles
    have hid : profile.profileId = profile'.profileId := congrArg (·.profileId) hsame
    have hgenerations := hprojection.credentialGenerations.map id
    exact ⟨rfl, (canon_profileRowJs_iff hprofile').mpr hsame,
      hcheckpoints.mpr hprojection.ledgerCheckpoints,
      (canon_schemaEvents_iff collation collation' J J' h h' hid hQ hQ' _ _).mpr
        hprojection.schemaEvents,
      (canon_schemas_iff collation collation' J J' h h' hid hQ hQ' _ _).mpr hprojection.schemas,
      (canon_credentialEvents_iff collation collation' J J' h h' hid hQ hQ' _ _).mpr
        hprojection.credentialEvents,
      (canon_credentialGenerations_iff collation collation' J J' h h' hid hQ hQ' _ _).mpr
        hgenerations⟩

/-- **The digest is computed**, whatever the tables hold. -/
theorem computeProjectionDigest_eq (hprofile : Sdk.IsProfile P profile)
    (h : HoldsRows profile Q rows) (hsome : rows.networkProfile = some (profileRow profile)) :
    computeProjectionDigest collation P J rows profile.profileId =
      .ok { version := projectionDigestVersion
            profileId := profile.profileId
            algorithm := js "sha256"
            digestHex := sha256Hex P (encodeUtf8 (canonicalText
              (projectionSnapshot collation J (profileRow profile) rows).toJs))
            rowCounts := ⟨rows.ledgerCheckpoints.length, rows.schemaEvents.length,
              rows.schemas.length, rows.credentialEvents.length,
              rows.credentialGenerations.length⟩ } := by
  have hwritten := isWrittenJson_snapshot collation J hprofile h
  have hdigest : digestProjectionSnapshot P (projectionSnapshot collation J (profileRow profile)
      rows) = .ok (sha256Hex P (encodeUtf8 (canonicalText
        (projectionSnapshot collation J (profileRow profile) rows).toJs))) := by
    rw [digestProjectionSnapshot, canonicalJson_eq_ok.mpr
      ⟨isWritable_of_isWellFormed hwritten.isJson hwritten.strings, rfl⟩]
    rfl
  have hfilter : rows.networkProfile.filter (fun row => row.profileId == profile.profileId)
      = some (profileRow profile) := by
    rw [hsome, Option.filter_some_pos]
    exact beq_self_eq_true _
  rw [computeProjectionDigest, hfilter]
  show (digestProjectionSnapshot P _ >>= _) = _
  rw [hdigest]
  rfl

end Snapshots

theorem SameProjection.counts {rows rows' : ProjectionRows} (h : SameProjection rows rows') :
    rows.ledgerCheckpoints.length = rows'.ledgerCheckpoints.length ∧
      rows.schemaEvents.length = rows'.schemaEvents.length ∧
      rows.schemas.length = rows'.schemas.length ∧
      rows.credentialEvents.length = rows'.credentialEvents.length ∧
      rows.credentialGenerations.length = rows'.credentialGenerations.length := by
  have hevents := h.schemaEvents.length_eq
  have hschemas := h.schemas.length_eq
  have hcredentials := h.credentialEvents.length_eq
  rw [List.length_map, List.length_map] at hevents hschemas hcredentials
  exact ⟨h.ledgerCheckpoints.length_eq, hevents, hschemas, hcredentials,
    h.credentialGenerations.length_eq⟩

/-! ## Independent replays -/

/-- Tables that some pool of indexers of a chain has left, in whatever order the database keeps the
rows. -/
def IsLeftBy (P : Platform) (profile : NetworkProfile) (chain : ℕ → ValidatedLedger)
    (rows : ProjectionRows) : Prop :=
  ∃ pool events pool', Run (Pool.Step (indexerRules P profile chain)) pool events pool' ∧
    pool.programs = [] ∧ pool.world.rows.toProjectionRows = ProjectionRows.empty ∧
    Rearranged pool'.world.rows.toProjectionRows rows

/-- Two texts of snapshots with the same hash. -/
def HashCollision (P : Platform) (v w : JsValue) : Prop :=
  ∃ bytes bytes', encodeCanonicalJson P v = .ok bytes ∧ encodeCanonicalJson P w = .ok bytes' ∧
    bytes ≠ bytes' ∧ P.sha256 bytes = P.sha256 bytes'

section Replays

variable {P : Platform} {profile : NetworkProfile} {chain : ℕ → ValidatedLedger}
  {rows : ProjectionRows}

/-- What a pool has left, is left by one indexer that was not interrupted. -/
theorem IsLeftBy.indexed (hchain : IsIndexable P profile chain) (h : IsLeftBy P profile chain rows)
    (hsome : rows.networkProfile.isSome = true) :
    ∃ n s, indexedUpTo P profile chain n = .ok s ∧ Rearranged s.rows rows ∧
      rows.networkProfile = some (profileRow profile) := by
  obtain ⟨pool, events, pool', hrun, hempty, hstart, hrows⟩ := h
  obtain ⟨n, ⟨s, hs, hindexed⟩, hprofile⟩ := atSomeLedger_of_run hchain hrun hempty hstart
  have hwritten : pool'.world.rows.networkProfile = some (profileRow profile) := by
    rcases hprofile with hprofile | ⟨hnone, -⟩
    · exact hprofile
    · rw [hrows.networkProfile, hnone] at hsome
      cases hsome
  refine ⟨n, s, hs, ?_, hrows.networkProfile.trans hwritten⟩
  rw [← hindexed]
  exact { hrows with networkProfile := hrows.networkProfile.trans hwritten }

/-- The places of the first ledgers of a chain have one transaction each. -/
theorem isFunctional_of_indexedUpTo (hchain : IsIndexable P profile chain) {n : ℕ}
    {s : IndexedState} (h : indexedUpTo P profile chain n = .ok s) :
    IsFunctional (IsOfChain profile chain n) :=
  fun _ _ _ _ hplace hplace' =>
    hplace.hash_eq hchain.normalized (indexedUpTo_ok hchain h).ledgerIndex hplace'

/-- What is left of one state, in two databases. -/
theorem Rearranged.same {rows₀ rows rows' : ProjectionRows} (h : Rearranged rows₀ rows)
    (h' : Rearranged rows₀ rows') : SameProjection rows rows' where
  networkProfile := h.networkProfile.trans h'.networkProfile.symm
  ledgerCheckpoints := h.ledgerCheckpoints.symm.trans h'.ledgerCheckpoints
  schemaEvents := (h.schemaEvents.symm.trans h'.schemaEvents).map _
  schemas := (h.schemas.symm.trans h'.schemas).map _
  credentialEvents := (h.credentialEvents.symm.trans h'.credentialEvents).map _
  credentialGenerations := h.credentialGenerations.symm.trans h'.credentialGenerations

/-- Values whose texts have the same hash are the same up to the order of members, unless there is a
collision. -/
theorem canon_eq_of_sha256Hex_eq {v w : JsValue} (hv : IsWrittenJson v) (hw : IsWrittenJson w)
    (hcollision : ¬HashCollision P v w)
    (h : sha256Hex P (encodeUtf8 (canonicalText v)) = sha256Hex P (encodeUtf8 (canonicalText w))) :
    v.canon = w.canon := by
  have hencoded : ∀ {u : JsValue}, IsWrittenJson u →
      encodeCanonicalJson P u = .ok (encodeUtf8 (canonicalText u)) := by
    intro u hu
    rw [encodeCanonicalJson, canonicalJson_eq_ok.mpr
      ⟨isWritable_of_isWellFormed hu.isJson hu.strings, rfl⟩]
    rfl
  have hhash : P.sha256 (encodeUtf8 (canonicalText v))
      = P.sha256 (encodeUtf8 (canonicalText w)) := by
    have hbytes := congrArg hexToBytes h
    rw [sha256Hex, sha256Hex, hexToBytes_bytesToHex, hexToBytes_bytesToHex,
      Option.some.injEq] at hbytes
    exact hbytes
  have hbytes : encodeUtf8 (canonicalText v) = encodeUtf8 (canonicalText w) := by
    by_contra hne
    exact hcollision ⟨_, _, hencoded hv, hencoded hw, hne, hhash⟩
  have htext := congrArg decodeUtf8 hbytes
  rw [canonicalText, canonicalText, decodeUtf8_encodeUtf8 (isWellFormed_render _),
    decodeUtf8_encodeUtf8 (isWellFormed_render _), Option.some.injEq] at htext
  exact canon_eq_of_canonicalText_eq hv.isJson hw.isJson htext

end Replays

/-- **The digests of independent replays.**  Two databases, each of them written by any number of
indexers that fail, stop and start again, have their digests computed.  These are the same when the
databases hold the same, and otherwise they differ, unless the hash collides.  Two replays of one
chain as far as the same ledger have the same digest. -/
theorem projection_digest_agrees {P : Platform} {profile profile' : NetworkProfile}
    {chain chain' : ℕ → ValidatedLedger} (hprofile : Sdk.IsProfile P profile)
    (hprofile' : Sdk.IsProfile P profile') (hchain : IsIndexable P profile chain)
    (hchain' : IsIndexable P profile' chain') {rows rows' : ProjectionRows}
    (h : IsLeftBy P profile chain rows) (h' : IsLeftBy P profile' chain' rows')
    (hsome : rows.networkProfile.isSome = true) (hsome' : rows'.networkProfile.isSome = true)
    (collation collation' : LinearOrder JsString) (J J' : JsonbReader) :
    ∃ digest digest',
      computeProjectionDigest collation P J rows profile.profileId = .ok digest ∧
      computeProjectionDigest collation' P J' rows' profile'.profileId = .ok digest' ∧
      (SameProjection rows rows' → digest = digest') ∧
      (digest.digestHex = digest'.digestHex →
        ¬HashCollision P (projectionSnapshot collation J (profileRow profile) rows).toJs
          (projectionSnapshot collation' J' (profileRow profile') rows').toJs →
        SameProjection rows rows') ∧
      (profile = profile' → chain = chain' →
        rows.ledgerCheckpoints.length = rows'.ledgerCheckpoints.length → digest = digest') := by
  obtain ⟨n, s, hs, hrows, hstored⟩ := h.indexed hchain hsome
  obtain ⟨n', s', hs', hrows', hstored'⟩ := h'.indexed hchain' hsome'
  have hholds := (holdsRows_of_indexedUpTo hchain hs).rearranged hrows
  have hholds' := (holdsRows_of_indexedUpTo hchain' hs').rearranged hrows'
  have hiff := snapshot_canon_iff collation collation' J J' hprofile' hholds hholds'
    (isFunctional_of_indexedUpTo hchain hs) (isFunctional_of_indexedUpTo hchain' hs') hstored
    hstored'
  refine ⟨_, _, computeProjectionDigest_eq collation J hprofile hholds hstored,
    computeProjectionDigest_eq collation' J' hprofile' hholds' hstored', ?_⟩
  have hsame : SameProjection rows rows' → ProjectionDigest.mk projectionDigestVersion
      profile.profileId (js "sha256") (sha256Hex P (encodeUtf8 (canonicalText
        (projectionSnapshot collation J (profileRow profile) rows).toJs)))
      ⟨rows.ledgerCheckpoints.length, rows.schemaEvents.length, rows.schemas.length,
        rows.credentialEvents.length, rows.credentialGenerations.length⟩ =
      ProjectionDigest.mk projectionDigestVersion profile'.profileId (js "sha256")
        (sha256Hex P (encodeUtf8 (canonicalText
          (projectionSnapshot collation' J' (profileRow profile') rows').toJs)))
        ⟨rows'.ledgerCheckpoints.length, rows'.schemaEvents.length, rows'.schemas.length,
          rows'.credentialEvents.length, rows'.credentialGenerations.length⟩ := by
    intro hprojection
    obtain ⟨h₁, h₂, h₃, h₄, h₅⟩ := hprojection.counts
    have hprofiles := hprojection.networkProfile
    rw [hstored, hstored', Option.some.injEq] at hprofiles
    have hid : profile.profileId = profile'.profileId := congrArg (·.profileId) hprofiles
    rw [canonicalText_eq_of_canon_eq (hiff.mpr hprojection), hid, h₁, h₂, h₃, h₄, h₅]
  refine ⟨hsame, fun hhash hcollision => hiff.mp (canon_eq_of_sha256Hex_eq
    (isWrittenJson_snapshot collation J hprofile hholds)
    (isWrittenJson_snapshot collation' J' hprofile' hholds') hcollision hhash), ?_⟩
  rintro rfl rfl hcount
  have hlength : ∀ {n s}, indexedUpTo P profile chain n = .ok s →
      s.rows.ledgerCheckpoints.length = n := by
    intro n s hs
    rw [(indexedUpTo_ok hchain hs).checkpoints, List.length_map, List.length_range]
  have hn : n = n' := by
    rw [← hlength hs, ← hlength hs', hrows.ledgerCheckpoints.length_eq, hcount,
      hrows'.ledgerCheckpoints.length_eq]
  subst hn
  obtain rfl := Except.ok.inj (hs.symm.trans hs')
  exact hsame (hrows.same hrows')

theorem isProfile_testnetProfile : Sdk.IsProfile .sample testnetProfile where
  profileId := by decide
  networkId := by decide
  requiredAmendment := by decide
  requiredAmendment_upper := by decide
  registryAddress := by decide
  activationLedgerIndex := by decide
  activationLedgerIndex_ne := by decide
  activationLedgerHash := by decide

/-- The digest of one ledger with a registration, in two databases. -/
theorem projection_digest_agrees_sample : ∃ digest digest' : ProjectionDigest,
    computeProjectionDigest codeUnitCollation .sample .exact shortRun.1.rows.toProjectionRows
      (js "testnet") = .ok digest ∧
    computeProjectionDigest codeUnitCollation .sample .sorted shortRun.1.rows.toProjectionRows
      (js "testnet") = .ok digest' ∧ digest = digest' := by
  obtain ⟨events, hrun⟩ := shortRun_run
  have hsome : shortRun.1.rows.toProjectionRows.networkProfile.isSome = true := by decide +kernel
  -- The run is not to be evaluated again.
  generalize shortRun = reached at hrun hsome ⊢
  have hbegin : Pool.Step (indexerRules .sample testnetProfile shortChain)
      ⟨⟨.empty, 0⟩, []⟩ (.start _) ⟨⟨.empty, 0⟩,
        [start .sample (activationWorker (List.replicate 64 0x61)) 1 idleState]⟩ :=
    .start ⟨activationWorker (List.replicate 64 0x61), rfl, 1, idleState, rfl⟩
  have hleft : IsLeftBy .sample testnetProfile shortChain reached.1.rows.toProjectionRows :=
    ⟨_, _, _, (Run.single hbegin).append hrun, rfl, rfl, ⟨rfl, .refl _, .refl _, .refl _, .refl _,
      .refl _⟩⟩
  obtain ⟨digest, digest', h, h', -, -, hagrees⟩ := projection_digest_agrees
    isProfile_testnetProfile isProfile_testnetProfile isIndexable_shortChain isIndexable_shortChain
    hleft hleft hsome hsome codeUnitCollation codeUnitCollation .exact .sorted
  exact ⟨digest, digest', h, h', hagrees rfl rfl rfl⟩

end Agreement
end Xcs
