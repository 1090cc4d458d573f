import Xcs.Core.SchemaUid
import Xcs.Db.Tables

/-!
# The schema evidence of the API

The API does not trust the rows of `schemas`.  Before it answers with a resolved schema it reads the
rows of the schema and of all its ancestors together with the registrations they came from, and
`authoritativeResolvedSchema` resolves the schema again from them: each row must be normalized and
agree with its registration, each UID must be the hash of its registration, each parent must precede
its child, and what is stored as resolved must be what the definitions on the chain give.

* `storedResolvedSchema_eq_ok` and `validateEvidenceRow_eq_ok` say what is checked of one row, and
  `assertChain_cons_eq_ok` what is checked of it as a link of a chain.
* `authoritativeResolvedSchema_eq_ok` says what the whole check returns.
-/

namespace Xcs
namespace Web

open Js Json Xcs.Core Db

/-! ## The checks of one row -/

/-- `SchemaProjectionEvidence` -/
structure SchemaProjectionEvidence where
  schema : SchemaRow
  registration : SchemaEventRow

/-- The network a projection is expected to be of. -/
structure ExpectedNetwork where
  profileId : JsString
  networkId : ℤ
  activationLedgerIndex : ℤ

/-- `MAX_INHERITANCE_LINEAGE` -/
def maxInheritanceLineage : ℕ := 15

/-- `MAX_UINT32` -/
def maxUint32 : ℤ := 4294967295

/-- `throw new Error(message)` unless the condition holds. -/
def assertProjection (condition : Bool) (message : JsString) : Except Thrown Unit :=
  ensure condition (.error message)

/-- `if (canonical(left) !== canonical(right)) throw new Error(message)` -/
def assertSameCanonical (P : Platform) (left right : JsValue) (message : JsString) :
    Except Thrown Unit := do
  let left ← canonicalJson P left
  let right ← canonicalJson P right
  assertProjection (left == right) message

/-- The definition the fields of a projection are parsed in. -/
def fieldsProjection (value : JsValue) : JsValue :=
  .obj [(js "xcsVersion", .str (js "0.1")), (js "name", .str (js "Resolved projection")),
    (js "description", .str (js "Resolved projection fields.")), (js "fields", value)]

/-- `validateProjectedFields` -/
def validateProjectedFields (P : Platform) (value : JsValue) : Except Thrown SchemaFields := do
  let projection ← parseSchema (fieldsProjection value)
  assertSameCanonical P (fieldsJs projection.fields) value
    (js "Resolved fields are not normalized")
  pure projection.fields

/-- `assertDefinitionMetadata` -/
def assertDefinitionMetadata (row : SchemaRow) (definition : SchemaDefinition) :
    Except Thrown Unit :=
  assertProjection (row.name == definition.name && row.description == definition.description
      && row.parentUid == definition.parent && row.supersedesUid == definition.supersedes)
    (js "Schema projection metadata does not match its definition")

/-- `RESOLVED_SCHEMA_KEYS` -/
def resolvedSchemaKeys : List JsString :=
  [js "definition", js "fields", js "lineage"]

/-- The checks of the shape of `resolvedDefinition`. -/
def assertResolvedShape : JsValue → Except Thrown Unit
  | .obj members =>
      assertProjection (hasOnly members resolvedSchemaKeys
          && members.length == resolvedSchemaKeys.length)
        (js "Resolved schema projection has an invalid shape")
  | _ => .error (.error (js "Resolved schema projection is not an object"))

/-- A string that matches `HASH`. -/
def hashOf : JsValue → Option JsString
  | .str s => if isLowerHash s then some s else none
  | _ => none

/-- The UIDs of a lineage, when it is an array of hashes that is not too long. -/
def lineageOf : JsValue → Option (List JsString)
  | .arr items => if items.length > maxInheritanceLineage then none else items.mapM hashOf
  | _ => none

/-- The checks of the lineage of a row. -/
def storedLineage (schemaUid : JsString) (value : JsValue) : Except Thrown (List JsString) :=
  match (lineageOf value).filter fun uids => uids.Nodup ∧ schemaUid ∉ uids with
  | some uids => .ok uids
  | none => .error (.error (js "Resolved schema lineage is invalid"))

/-- `storedResolvedSchema`; the parent of a definition is the last UID of its lineage, and the
lineage of a definition without a parent is empty. -/
def storedResolvedSchema (P : Platform) (row : SchemaRow) : Except Thrown ResolvedSchema := do
  let definition ← parseSchema row.definition
  assertSameCanonical P definition.toJs row.definition
    (js "Schema definition projection is not normalized")
  assertDefinitionMetadata row definition
  assertResolvedShape row.resolvedDefinition
  let resolvedDefinition ← parseSchema (row.resolvedDefinition.get (js "definition"))
  assertSameCanonical P resolvedDefinition.toJs (row.resolvedDefinition.get (js "definition"))
    (js "Resolved schema definition is inconsistent")
  assertSameCanonical P resolvedDefinition.toJs definition.toJs
    (js "Resolved schema definition is inconsistent")
  let fields ← validateProjectedFields P (row.resolvedDefinition.get (js "fields"))
  let lineage ← storedLineage row.schemaUid (row.resolvedDefinition.get (js "lineage"))
  assertProjection (lineage.getLast? == definition.parent)
    (js "Resolved schema lineage is inconsistent with its direct parent")
  pure { definition, fields, lineage }

/-- `failClosed` -/
def failClosed {α : Type} : Except Thrown α → Except Thrown α
  | .ok a => .ok a
  | .error _ => .error .schemaProjectionInvalid

/-- The body of the loop of `schemaProjectionEvidenceUids`. -/
def evidenceUids (P : Platform) (expectedProfileId : JsString) :
    List SchemaRow → Except Thrown (List JsString)
  | [] => .ok []
  | row :: rows => do
      assertProjection (row.profileId == expectedProfileId && isLowerHash row.schemaUid)
        (js "Schema projection identity is inconsistent")
      let projection ← storedResolvedSchema P row
      let uids ← evidenceUids P expectedProfileId rows
      pure (row.schemaUid :: projection.lineage ++ uids)

/-- `schemaProjectionEvidenceUids`; the result is a set. -/
def schemaProjectionEvidenceUids (P : Platform) (rows : List SchemaRow)
    (expectedProfileId : JsString) : Except Thrown (List JsString) :=
  failClosed ((evidenceUids P expectedProfileId rows).map List.eraseDups)

/-- An integer column as a JSON number. -/
def intJs (n : ℤ) : JsValue :=
  .num (.ofRat n)

/-- A nullable text column as a JSON value. -/
def textOrNull : Option JsString → JsValue
  | none => .null
  | some s => .str s

/-- What `projectionFingerprint` writes canonically. -/
def projectionFingerprint (row : SchemaRow) : JsValue :=
  .obj [(js "profileId", .str row.profileId), (js "schemaUid", .str row.schemaUid),
    (js "publisher", .str row.publisher), (js "name", .str row.name),
    (js "description", .str row.description), (js "parentUid", textOrNull row.parentUid),
    (js "supersedesUid", textOrNull row.supersedesUid), (js "definition", row.definition),
    (js "resolvedDefinition", row.resolvedDefinition),
    (js "registrationTransactionHash", .str row.registrationTransactionHash),
    (js "ledgerIndex", intJs row.ledgerIndex), (js "transactionIndex", intJs row.transactionIndex)]

/-- The coordinates a row claims for its schema. -/
def rowCoordinates (networkId : ℤ) (row : SchemaRow) : SchemaCoordinates where
  networkId
  publisher := row.publisher
  ledgerIndex := row.ledgerIndex
  transactionIndex := row.transactionIndex

/-- What `computeSchemaUid` is asked about a registration. -/
def registrationUidInput (networkId : ℤ) (registration : SchemaEventRow)
    (schema : SchemaDefinition) : SchemaUidInput where
  networkId
  publisher := registration.publisher
  ledgerIndex := registration.ledgerIndex
  transactionIndex := registration.transactionIndex
  ledgerHash := registration.ledgerHash
  schema

/-- `Number.isSafeInteger` -/
def isSafeInteger (n : ℤ) : Bool :=
  decide (|n| ≤ maxSafeInteger)

theorem isSafeInteger_of_uint32 {n : ℤ} (h : 0 ≤ n ∧ n ≤ 4294967295) : isSafeInteger n = true := by
  have hmax : (maxSafeInteger : ℤ) = 9007199254740991 := rfl
  rw [isSafeInteger, decide_eq_true_eq, abs_of_nonneg h.1]
  omega

/-- The first condition of `validateEvidenceRow`. -/
def hasValidCoordinates (P : Platform) (expected : ExpectedNetwork) (row : SchemaRow) : Bool :=
  row.profileId == expected.profileId && isLowerHash row.schemaUid
    && P.isValidClassicAddress row.publisher
    && isSafeInteger row.ledgerIndex
    && decide (expected.activationLedgerIndex ≤ row.ledgerIndex ∧ row.ledgerIndex ≤ maxUint32)
    && isSafeInteger row.transactionIndex
    && decide (0 ≤ row.transactionIndex ∧ row.transactionIndex ≤ maxUint32)

/-- The second condition of `validateEvidenceRow`. -/
def isRegistrationOf (registration : SchemaEventRow) (row : SchemaRow) : Bool :=
  registration.profileId == row.profileId
    && registration.transactionHash == row.registrationTransactionHash
    && isLowerHash registration.transactionHash
    && registration.ledgerIndex == row.ledgerIndex
    && registration.transactionIndex == row.transactionIndex
    && registration.publisher == row.publisher
    && registration.status == js "accepted"
    && registration.reasonCode.isNone
    && registration.schemaUid == some row.schemaUid
    && isNotNull registration.memoJson
    && isLowerHash registration.ledgerHash

/-- The row of a schema and what it stores. -/
structure StoredSchema where
  row : SchemaRow
  projection : ResolvedSchema

/-- `validateEvidenceRow` -/
def validateEvidenceRow (P : Platform) (expected : ExpectedNetwork)
    (evidence : SchemaProjectionEvidence) : Except Thrown StoredSchema := do
  assertProjection (hasValidCoordinates P expected evidence.schema)
    (js "Schema projection coordinates are invalid")
  let projection ← storedResolvedSchema P evidence.schema
  assertProjection (isRegistrationOf evidence.registration evidence.schema)
    (js "Schema registration evidence is inconsistent")
  let registrationDefinition ← parseSchema evidence.registration.memoJson
  assertSameCanonical P registrationDefinition.toJs projection.definition.toJs
    (js "Schema definition does not match its registration memo")
  let uid ← computeSchemaUid P
    (registrationUidInput expected.networkId evidence.registration registrationDefinition)
  assertProjection (uid == evidence.schema.schemaUid)
    (js "Schema UID does not match its registration evidence")
  pure { row := evidence.schema, projection }

/-! ## The chain -/

/-- `isPrior` -/
def isPrior (parent child : SchemaRow) : Bool :=
  decide (parent.ledgerIndex < child.ledgerIndex)
    || (parent.ledgerIndex == child.ledgerIndex
      && decide (parent.transactionIndex < child.transactionIndex))

/-- `mergeFields` of the API. -/
def mergeProjectedFields : SchemaFields → SchemaFields → Except Thrown SchemaFields :=
  addFields fun _ => .error (js "An inherited field is overridden")

/-- The loop over the chain, after the given schema and with the fields merged so far; a schema of
the chain has the UID it was looked up under, so `expectedLineage` is a list of rows' UIDs. -/
def assertChain (P : Platform) (expectedLineage : List JsString) (parent : Option SchemaRow)
    (mergedFields : SchemaFields) : List StoredSchema → Except Thrown SchemaFields
  | [] => .ok mergedFields
  | current :: chain => do
      assertProjection (current.projection.definition.parent == expectedLineage.getLast?)
        (js "Schema ancestor chain is not exact")
      assertProjection (parent.all fun parent => isPrior parent current.row)
        (js "Schema parent does not precede its child")
      let mergedFields ← mergeProjectedFields mergedFields current.projection.definition.fields
      let fields ← validateProjectedFields P (fieldsJs mergedFields)
      let reconstructed : ResolvedSchema :=
        { definition := current.projection.definition, fields, lineage := expectedLineage }
      assertSameCanonical P reconstructed.toJs current.projection.toJs
        (js "Stored resolved schema does not match its ancestor definitions")
      assertChain P (expectedLineage ++ [current.row.schemaUid]) (some current.row) mergedFields
        chain

/-- The evidence of a schema. -/
def findEvidence (evidenceRows : List SchemaProjectionEvidence) (uid : JsString) :
    Option SchemaProjectionEvidence :=
  evidenceRows.find? fun evidence => evidence.schema.schemaUid == uid

/-- The evidence of one schema of the chain, validated. -/
def validateEvidence (P : Platform) (expected : ExpectedNetwork)
    (evidenceRows : List SchemaProjectionEvidence) (uid : JsString) : Except Thrown StoredSchema :=
  match findEvidence evidenceRows uid with
  | some evidence => validateEvidenceRow P expected evidence
  | none => .error (.error (js "Schema ancestor evidence is missing"))

/-- The validated evidence of several schemas. -/
def validateEvidences (P : Platform) (expected : ExpectedNetwork)
    (evidenceRows : List SchemaProjectionEvidence) :
    List JsString → Except Thrown (List StoredSchema)
  | [] => .ok []
  | uid :: uids => do
      let stored ← validateEvidence P expected evidenceRows uid
      let chain ← validateEvidences P expected evidenceRows uids
      pure (stored :: chain)

/-- The callback of `authoritativeResolvedSchema`; the chain is its ancestors and its last
schema. -/
def resolveEvidence (P : Platform) (row : SchemaRow)
    (evidenceRows : List SchemaProjectionEvidence) (expected : ExpectedNetwork)
    (schemaUid : JsString) : Except Thrown ResolvedSchema := do
  assertProjection (row.profileId == expected.profileId && row.schemaUid == schemaUid)
    (js "Schema projection identity is inconsistent")
  let targetProjection ← storedResolvedSchema P row
  assertProjection (decide (evidenceRows.map (·.schema.schemaUid)).Nodup)
    (js "Schema projection evidence contains duplicate UIDs")
  let ancestors ← validateEvidences P expected evidenceRows targetProjection.lineage
  let last ← validateEvidence P expected evidenceRows row.schemaUid
  assertSameCanonical P (projectionFingerprint last.row) (projectionFingerprint row)
    (js "Schema projection changed between authoritative reads")
  let mergedFields ← assertChain P [] none [] (ancestors ++ [last])
  pure { definition := targetProjection.definition, fields := mergedFields,
         lineage := targetProjection.lineage }

/-- `authoritativeResolvedSchema` -/
def authoritativeResolvedSchema (P : Platform) (row : SchemaRow)
    (evidenceRows : List SchemaProjectionEvidence) (expected : ExpectedNetwork)
    (schemaUid : JsString) : Except Thrown ResolvedSchema :=
  failClosed (resolveEvidence P row evidenceRows expected schemaUid)

/-! ## What the checks of one row say -/

theorem assertProjection_eq_ok {condition : Bool} {message : JsString} {u : Unit} :
    assertProjection condition message = .ok u ↔ condition = true :=
  ensure_eq_ok

theorem isJson_of_isWritable {P : Platform} {v : JsValue} (h : isWritable P v = true) :
    v.isJson = true := by
  simp only [isWritable, Bool.and_eq_true] at h
  exact h.1.1

/-- Two values have one canonical text exactly when they differ in the order of members only. -/
theorem assertSameCanonical_eq_ok {P : Platform} {left right : JsValue} {message : JsString}
    {u : Unit} : assertSameCanonical P left right message = .ok u ↔
      isWritable P left = true ∧ left.canon = right.canon := by
  simp only [assertSameCanonical, bind_eq_ok, canonicalJson_eq_ok, assertProjection_eq_ok,
    beq_iff_eq]
  constructor
  · rintro ⟨_, ⟨hleft, rfl⟩, _, ⟨hright, rfl⟩, htext⟩
    exact ⟨hleft, canon_eq_of_canonicalText_eq (isJson_of_isWritable hleft)
      (isJson_of_isWritable hright) htext⟩
  · rintro ⟨hleft, hcanon⟩
    have hright : isWritable P right = true := by
      rw [← isWritable_canon, ← hcanon, isWritable_canon]
      exact hleft
    exact ⟨_, ⟨hleft, rfl⟩, _, ⟨hright, rfl⟩, canonicalText_eq_of_canon_eq hcanon⟩

theorem definitionOf_fieldsProjection (value : JsValue) :
    definitionOf (fieldsProjection value)
      = (fieldsOf (descriptorOf (maxSchemaDepth - 1)) value).map fun fields =>
          { name := js "Resolved projection", description := js "Resolved projection fields.",
            fields, parent := none, supersedes := none } := by
  have honly : hasOnly [(js "xcsVersion", JsValue.str (js "0.1")),
      (js "name", .str (js "Resolved projection")),
      (js "description", .str (js "Resolved projection fields.")), (js "fields", value)]
      schemaProperties = true := rfl
  have hversion : (fieldsProjection value).get (js "xcsVersion") = .str (js "0.1") := rfl
  have hextends : (fieldsProjection value).get (js "extends") = .undefined := rfl
  have hsupersedes : (fieldsProjection value).get (js "supersedes") = .undefined := rfl
  have hname : (fieldsProjection value).get (js "name") = .str (js "Resolved projection") := rfl
  have hdescription : (fieldsProjection value).get (js "description")
      = .str (js "Resolved projection fields.") := rfl
  have hfields : (fieldsProjection value).get (js "fields") = value := rfl
  have htext : isText 64 (js "Resolved projection") = true := by decide
  have htext' : isText 256 (js "Resolved projection fields.") = true := by decide
  rw [fieldsProjection] at *
  simp only [definitionOf, hversion, hextends, hsupersedes, hname, hdescription, hfields, honly,
    textOf, htext, htext', relationOf, JsValue.isStr, beq_self_eq_true, Option.isSome_none,
    Bool.false_and, guard, if_true, Option.bind_eq_bind, Option.pure_def, Option.bind_some]
  cases fieldsOf (descriptorOf (maxSchemaDepth - 1)) value <;> rfl

/-- Projected fields are valid fields with their own canonical form. -/
theorem validateProjectedFields_eq_ok {P : Platform} {value : JsValue} {fields : SchemaFields} :
    validateProjectedFields P value = .ok fields ↔
      fieldsOf (descriptorOf (maxSchemaDepth - 1)) value = some fields ∧
        countSchemaFields fields ≤ maxSchemaFields ∧ isWritable P (fieldsJs fields) = true ∧
        (fieldsJs fields).canon = value.canon := by
  simp only [validateProjectedFields, bind_eq_ok, parseSchema_eq_ok, definitionOf_fieldsProjection,
    Option.map_eq_some_iff, assertSameCanonical_eq_ok, exists_const, pure_eq_ok]
  constructor
  · rintro ⟨_, ⟨⟨fields, hfields, rfl⟩, hcount⟩, ⟨hwritable, hcanon⟩, rfl⟩
    exact ⟨hfields, hcount, hwritable, hcanon⟩
  · rintro ⟨hfields, hcount, hwritable, hcanon⟩
    exact ⟨_, ⟨⟨fields, hfields, rfl⟩, hcount⟩, ⟨hwritable, hcanon⟩, rfl⟩

theorem isWritable_fieldsJs (P : Platform) {levels : ℕ} {fields : SchemaFields}
    (h : fieldsValid levels fields = true) : isWritable P (fieldsJs fields) = true := by
  refine isWritable_of_isWellFormed (isJson_fieldsJs fun m _ => m.2.isJson_toJs) ?_
  exact allStrings_of_fieldsValid (fun s hs => isWellFormed_of_isPlain hs) h

/-- Valid fields are projected to themselves, unless there are too many. -/
theorem validateProjectedFields_fieldsJs {P : Platform} {fields result : SchemaFields}
    (hvalid : fieldsValid (maxSchemaDepth - 1) fields = true) (hne : fields ≠ []) :
    validateProjectedFields P (fieldsJs fields) = .ok result ↔
      result = fields ∧ countSchemaFields fields ≤ maxSchemaFields := by
  have hread : fieldsOf (descriptorOf (maxSchemaDepth - 1)) (fieldsJs fields) = some fields := by
    rw [fieldsValid_eq, List.all_eq_true] at hvalid
    refine fieldsOf_fieldsJs hne fun m hm => ?_
    have hm' := hvalid m hm
    rw [Bool.and_eq_true] at hm'
    exact ⟨hm'.1, descriptorOf_toJs _ m.2 hm'.2⟩
  rw [validateProjectedFields_eq_ok, hread, Option.some.injEq]
  constructor
  · rintro ⟨rfl, hcount, -⟩
    exact ⟨rfl, hcount⟩
  · rintro ⟨rfl, hcount⟩
    exact ⟨rfl, hcount, isWritable_fieldsJs P hvalid, rfl⟩

/-- A row stores a definition and its resolution: both are normalized, the columns repeat the
definition, and the lineage ends in the parent. -/
structure StoresResolved (P : Platform) (row : SchemaRow) (resolved : ResolvedSchema) : Prop where
  defined : parseSchema row.definition = .ok resolved.definition
  writable : isWritable P resolved.definition.toJs = true
  normalized : resolved.definition.toJs.canon = row.definition.canon
  name : row.name = resolved.definition.name
  description : row.description = resolved.definition.description
  parentUid : row.parentUid = resolved.definition.parent
  supersedesUid : row.supersedesUid = resolved.definition.supersedes
  shape : ∃ members, row.resolvedDefinition = .obj members ∧
    hasOnly members resolvedSchemaKeys = true ∧ members.length = resolvedSchemaKeys.length
  resolvedDefinition : ∃ definition,
    parseSchema (row.resolvedDefinition.get (js "definition")) = .ok definition ∧
      isWritable P definition.toJs = true ∧
      definition.toJs.canon = (row.resolvedDefinition.get (js "definition")).canon ∧
      definition.toJs.canon = resolved.definition.toJs.canon
  fields : validateProjectedFields P (row.resolvedDefinition.get (js "fields"))
    = .ok resolved.fields
  lineage : lineageOf (row.resolvedDefinition.get (js "lineage")) = some resolved.lineage
  lineage_nodup : resolved.lineage.Nodup
  not_mem_lineage : row.schemaUid ∉ resolved.lineage
  getLast?_lineage : resolved.lineage.getLast? = resolved.definition.parent

theorem assertResolvedShape_eq_ok {v : JsValue} {u : Unit} :
    assertResolvedShape v = .ok u ↔ ∃ members, v = .obj members ∧
      hasOnly members resolvedSchemaKeys = true ∧ members.length = resolvedSchemaKeys.length := by
  cases v with
  | obj members => simp [assertResolvedShape, assertProjection_eq_ok]
  | _ => simp [assertResolvedShape]

theorem storedLineage_eq_ok {schemaUid : JsString} {v : JsValue} {uids : List JsString} :
    storedLineage schemaUid v = .ok uids ↔
      lineageOf v = some uids ∧ uids.Nodup ∧ schemaUid ∉ uids := by
  rw [storedLineage]
  cases hfound : (lineageOf v).filter fun uids => uids.Nodup ∧ schemaUid ∉ uids with
  | none =>
      simp only [reduceCtorEq, false_iff]
      rintro ⟨hlineage, hnodup, hnot⟩
      rw [hlineage, Option.filter_some, if_pos (by simpa using ⟨hnodup, hnot⟩)] at hfound
      cases hfound
  | some found =>
      obtain ⟨hlineage, hok⟩ := Option.filter_eq_some_iff.mp hfound
      rw [decide_eq_true_eq] at hok
      rw [hlineage, Option.some.injEq, Except.ok.injEq]
      constructor
      · rintro rfl
        exact ⟨rfl, hok⟩
      · exact fun h => h.1

theorem storedResolvedSchema_eq_ok {P : Platform} {row : SchemaRow} {resolved : ResolvedSchema} :
    storedResolvedSchema P row = .ok resolved ↔ StoresResolved P row resolved := by
  simp only [storedResolvedSchema, assertDefinitionMetadata, bind_eq_ok, assertSameCanonical_eq_ok,
    assertProjection_eq_ok, assertResolvedShape_eq_ok, storedLineage_eq_ok, exists_const,
    Bool.and_eq_true, beq_iff_eq, pure_eq_ok]
  constructor
  · rintro ⟨definition, hdefined, ⟨hwritable, hnormalized⟩,
      ⟨⟨⟨hname, hdescription⟩, hparent⟩, hsupersedes⟩, hshape, inner, hinner,
      ⟨hinnerWritable, hinnerCanon⟩, ⟨-, hsame⟩, fields, hfields, lineage,
      ⟨hlineage, hnodup, hnot⟩, hlast, rfl⟩
    exact ⟨hdefined, hwritable, hnormalized, hname, hdescription, hparent, hsupersedes, hshape,
      ⟨inner, hinner, hinnerWritable, hinnerCanon, hsame⟩, hfields, hlineage, hnodup, hnot, hlast⟩
  · rintro ⟨hdefined, hwritable, hnormalized, hname, hdescription, hparent, hsupersedes, hshape,
      ⟨inner, hinner, hinnerWritable, hinnerCanon, hsame⟩, hfields, hlineage, hnodup, hnot, hlast⟩
    exact ⟨resolved.definition, hdefined, ⟨hwritable, hnormalized⟩,
      ⟨⟨⟨hname, hdescription⟩, hparent⟩, hsupersedes⟩, hshape, inner, hinner,
      ⟨hinnerWritable, hinnerCanon⟩, ⟨hinnerWritable, hsame⟩, resolved.fields, hfields,
      resolved.lineage, ⟨hlineage, hnodup, hnot⟩, hlast, rfl⟩

/-- The evidence of a row: its coordinates are possible, it stores a resolution, and its
registration registered its definition under its UID. -/
structure Attests (P : Platform) (expected : ExpectedNetwork) (evidence : SchemaProjectionEvidence)
    (projection : ResolvedSchema) : Prop where
  coordinates : hasValidCoordinates P expected evidence.schema = true
  stored : StoresResolved P evidence.schema projection
  registration : isRegistrationOf evidence.registration evidence.schema = true
  memo : ∃ definition, parseSchema evidence.registration.memoJson = .ok definition ∧
    isWritable P definition.toJs = true ∧
    definition.toJs.canon = projection.definition.toJs.canon ∧
    computeSchemaUid P (registrationUidInput expected.networkId evidence.registration definition)
      = .ok evidence.schema.schemaUid

theorem validateEvidenceRow_eq_ok {P : Platform} {expected : ExpectedNetwork}
    {evidence : SchemaProjectionEvidence} {stored : StoredSchema} :
    validateEvidenceRow P expected evidence = .ok stored ↔
      stored.row = evidence.schema ∧ Attests P expected evidence stored.projection := by
  simp only [validateEvidenceRow, bind_eq_ok, assertProjection_eq_ok, storedResolvedSchema_eq_ok,
    assertSameCanonical_eq_ok, exists_const, beq_iff_eq, pure_eq_ok]
  constructor
  · rintro ⟨hcoordinates, projection, hstored, hregistration, definition, hmemo,
      ⟨hwritable, hsame⟩, uid, huid, rfl, rfl⟩
    exact ⟨rfl, hcoordinates, hstored, hregistration, definition, hmemo, hwritable, hsame, huid⟩
  · rintro ⟨hrow, hcoordinates, hstored, hregistration, definition, hmemo, hwritable, hsame, huid⟩
    refine ⟨hcoordinates, stored.projection, hstored, hregistration, definition, hmemo,
      ⟨hwritable, hsame⟩, _, huid, rfl, ?_⟩
    rw [← hrow]

/-! ## What the checks of a chain say -/

/-- What the loop checks of one schema of the chain. -/
structure ChainStep (expectedLineage : List JsString) (parent : Option SchemaRow)
    (mergedFields : SchemaFields) (current : StoredSchema) : Prop where
  parent_eq : current.projection.definition.parent = expectedLineage.getLast?
  prior : ∀ row ∈ parent, isPrior row current.row = true
  names : Extends mergedFields current.projection.definition.fields
  count : countSchemaFields (mergedFields ++ current.projection.definition.fields)
    ≤ maxSchemaFields
  fields : (fieldsJs (mergedFields ++ current.projection.definition.fields)).canon
    = (fieldsJs current.projection.fields).canon
  lineage : expectedLineage = current.projection.lineage

theorem hashOf_eq_some {v : JsValue} {uid : JsString} :
    hashOf v = some uid ↔ v = .str uid ∧ isLowerHash uid = true := by
  cases v with
  | str s =>
      rw [hashOf, JsValue.str.injEq]
      split_ifs with hhash
      · rw [Option.some.injEq]
        exact ⟨fun h => ⟨h, h ▸ hhash⟩, fun h => h.1⟩
      · simp only [false_iff, not_and]
        rintro rfl
        exact hhash
  | _ => simp [hashOf]

theorem mapM_hashOf_eq_some : ∀ {items : List JsValue} {uids : List JsString},
    items.mapM hashOf = some uids ↔
      items = uids.map .str ∧ ∀ uid ∈ uids, isLowerHash uid = true
  | [], uids => by cases uids <;> simp
  | item :: items, uids => by
      simp only [List.mapM_cons, Option.bind_eq_bind, Option.bind_eq_some_iff, Option.pure_def,
        Option.some.injEq, hashOf_eq_some, mapM_hashOf_eq_some]
      constructor
      · rintro ⟨uid, ⟨rfl, huid⟩, uids, ⟨rfl, huids⟩, rfl⟩
        exact ⟨rfl, List.forall_mem_cons.mpr ⟨huid, huids⟩⟩
      · rintro ⟨hitems, huids⟩
        cases uids with
        | nil => cases hitems
        | cons uid uids =>
            rw [List.map_cons, List.cons.injEq] at hitems
            obtain ⟨huid, huids⟩ := List.forall_mem_cons.mp huids
            exact ⟨uid, ⟨hitems.1, huid⟩, uids, ⟨hitems.2, huids⟩, rfl⟩

theorem lineageOf_eq_some {v : JsValue} {uids : List JsString} :
    lineageOf v = some uids ↔ v = .arr (uids.map .str) ∧
      uids.length ≤ maxInheritanceLineage ∧ ∀ uid ∈ uids, isLowerHash uid = true := by
  cases v with
  | arr items =>
      rw [lineageOf, JsValue.arr.injEq]
      split_ifs with hlength
      · simp only [false_iff, not_and]
        rintro rfl hle
        rw [List.length_map] at hlength
        omega
      · rw [mapM_hashOf_eq_some]
        constructor
        · rintro ⟨rfl, huids⟩
          rw [List.length_map] at hlength
          exact ⟨rfl, by omega, huids⟩
        · rintro ⟨rfl, -, huids⟩
          exact ⟨rfl, huids⟩
  | _ => simp [lineageOf]

/-- The object of a resolved schema can be written when its definition can be. -/
theorem isWritable_resolvedJs {P : Platform} {levels : ℕ} {resolved : ResolvedSchema}
    (hdefinition : isWritable P resolved.definition.toJs = true)
    (hfields : fieldsValid levels resolved.fields = true)
    (hlineage : ∀ uid ∈ resolved.lineage, isLowerHash uid = true) :
    isWritable P resolved.toJs = true := by
  simp only [isWritable, Bool.and_eq_true, Bool.or_eq_true] at hdefinition ⊢
  obtain ⟨⟨-, haccepted⟩, hescapes⟩ := hdefinition
  refine ⟨⟨resolved.isJson_toJs, ?_⟩, hescapes.imp_right fun hwell => ?_⟩
  · exact ResolvedSchema.allStrings_toJs
      (fun s hs => isAccepted_of_isWellFormed (isWellFormed_of_isPlain hs)) haccepted hfields
      hlineage
  · exact ResolvedSchema.allStrings_toJs (fun s hs => isWellFormed_of_isPlain hs) hwell hfields
      hlineage

/-- The fields of a parsed definition are valid, and there is at least one. -/
theorem fieldsValid_of_parseSchema {v : JsValue} {d : SchemaDefinition}
    (h : parseSchema v = .ok d) :
    fieldsValid (maxSchemaDepth - 1) d.fields = true ∧ d.fields ≠ [] := by
  have hvalid := isValid_of_parseSchema h
  simp only [SchemaDefinition.isValid, Bool.and_eq_true, Bool.not_eq_true',
    List.isEmpty_eq_false_iff] at hvalid
  exact ⟨hvalid.1.1.1.1.2, hvalid.1.1.1.1.1.2⟩

theorem fieldsValid_append {levels : ℕ} {fields own : SchemaFields} :
    fieldsValid levels (fields ++ own) = (fieldsValid levels fields && fieldsValid levels own) := by
  rw [fieldsValid_eq, fieldsValid_eq, fieldsValid_eq, List.all_append]

/-- One round of the loop over the chain. -/
theorem assertChain_cons_eq_ok {P : Platform} {expectedLineage : List JsString}
    {parent : Option SchemaRow} {mergedFields fields : SchemaFields} {current : StoredSchema}
    {chain : List StoredSchema} (hmerged : fieldsValid (maxSchemaDepth - 1) mergedFields = true)
    (hstored : StoresResolved P current.row current.projection) :
    assertChain P expectedLineage parent mergedFields (current :: chain) = .ok fields ↔
      ChainStep expectedLineage parent mergedFields current ∧
        assertChain P (expectedLineage ++ [current.row.schemaUid]) (some current.row)
          (mergedFields ++ current.projection.definition.fields) chain = .ok fields := by
  obtain ⟨hown, hne⟩ := fieldsValid_of_parseSchema hstored.defined
  obtain ⟨-, -, hhashes⟩ := lineageOf_eq_some.mp hstored.lineage
  have hvalid : fieldsValid (maxSchemaDepth - 1)
      (mergedFields ++ current.projection.definition.fields) = true := by
    rw [fieldsValid_append, hmerged, hown, Bool.and_self]
  have hne' : mergedFields ++ current.projection.definition.fields ≠ [] := by
    simp [hne]
  simp only [assertChain, mergeProjectedFields, bind_eq_ok, assertProjection_eq_ok,
    addFields_eq_ok, assertSameCanonical_eq_ok, ResolvedSchema.canon_toJs_eq_iff, exists_const,
    beq_iff_eq, Option.all_eq_true]
  constructor
  · rintro ⟨hparent, hprior, _, ⟨hnames, rfl⟩, projected, hprojected, ⟨-, -, hfields, hlineage⟩,
      hrest⟩
    obtain ⟨rfl, hcount⟩ := (validateProjectedFields_fieldsJs hvalid hne').mp hprojected
    exact ⟨⟨hparent, hprior, hnames, hcount, hfields, hlineage⟩, hrest⟩
  · rintro ⟨step, hrest⟩
    have hprojected := (validateProjectedFields_fieldsJs (P := P) hvalid hne').mpr
      ⟨rfl, step.count⟩
    have hwritable : isWritable P (ResolvedSchema.toJs
        ⟨current.projection.definition,
          mergedFields ++ current.projection.definition.fields, expectedLineage⟩) = true :=
      isWritable_resolvedJs hstored.writable hvalid (by rw [step.lineage]; exact hhashes)
    exact ⟨step.parent_eq, step.prior, _, ⟨step.names, rfl⟩, _, hprojected,
      ⟨hwritable, trivial, step.fields, step.lineage⟩, hrest⟩

theorem validateEvidence_eq_ok {P : Platform} {expected : ExpectedNetwork}
    {evidenceRows : List SchemaProjectionEvidence} {uid : JsString} {stored : StoredSchema} :
    validateEvidence P expected evidenceRows uid = .ok stored ↔
      ∃ evidence, findEvidence evidenceRows uid = some evidence ∧
        stored.row = evidence.schema ∧ Attests P expected evidence stored.projection := by
  rw [validateEvidence]
  cases findEvidence evidenceRows uid with
  | none => simp
  | some evidence => simp [validateEvidenceRow_eq_ok]

theorem validateEvidences_eq_ok {P : Platform} {expected : ExpectedNetwork}
    {evidenceRows : List SchemaProjectionEvidence} {uids : List JsString}
    {chain : List StoredSchema} :
    validateEvidences P expected evidenceRows uids = .ok chain ↔
      List.Forall₂ (fun uid stored => validateEvidence P expected evidenceRows uid = .ok stored)
        uids chain := by
  induction uids generalizing chain with
  | nil => simp [validateEvidences, eq_comm]
  | cons uid uids ih =>
      simp only [validateEvidences, bind_eq_ok, ih, pure_eq_ok', List.forall₂_cons_left_iff]
      constructor
      · rintro ⟨stored, hstored, rest, hrest, rfl⟩
        exact ⟨stored, rest, hstored, hrest, rfl⟩
      · rintro ⟨stored, rest, hstored, hrest, rfl⟩
        exact ⟨stored, hstored, rest, hrest, rfl⟩

/-- The UIDs and the validated rows of a chain that resolves the schema of a row. -/
structure ResolvesEvidence (P : Platform) (row : SchemaRow)
    (evidenceRows : List SchemaProjectionEvidence) (expected : ExpectedNetwork)
    (resolved : ResolvedSchema) (ancestors : List StoredSchema) (last : StoredSchema) : Prop where
  profileId : row.profileId = expected.profileId
  stored : ∃ fields, StoresResolved P row { resolved with fields }
  nodup : (evidenceRows.map (·.schema.schemaUid)).Nodup
  validated : List.Forall₂
    (fun uid stored => validateEvidence P expected evidenceRows uid = .ok stored)
    resolved.lineage ancestors
  validated_last : validateEvidence P expected evidenceRows row.schemaUid = .ok last
  writable : isWritable P (projectionFingerprint last.row) = true
  unchanged : (projectionFingerprint last.row).canon = (projectionFingerprint row).canon
  chain : assertChain P [] none [] (ancestors ++ [last]) = .ok resolved.fields

/-- What `authoritativeResolvedSchema` returns. -/
theorem authoritativeResolvedSchema_eq_ok {P : Platform} {row : SchemaRow}
    {evidenceRows : List SchemaProjectionEvidence} {expected : ExpectedNetwork}
    {schemaUid : JsString} {resolved : ResolvedSchema} :
    authoritativeResolvedSchema P row evidenceRows expected schemaUid = .ok resolved ↔
      row.schemaUid = schemaUid ∧ ∃ ancestors last,
        ResolvesEvidence P row evidenceRows expected resolved ancestors last := by
  have hfailClosed : ∀ {x : Except Thrown ResolvedSchema} {r : ResolvedSchema},
      failClosed x = .ok r ↔ x = .ok r := by
    intro x r
    cases x <;> simp [failClosed]
  simp only [authoritativeResolvedSchema, hfailClosed, resolveEvidence, bind_eq_ok,
    assertProjection_eq_ok, storedResolvedSchema_eq_ok, validateEvidences_eq_ok,
    assertSameCanonical_eq_ok, exists_const, Bool.and_eq_true, beq_iff_eq, decide_eq_true_eq,
    pure_eq_ok]
  constructor
  · rintro ⟨⟨hprofile, huid⟩, projection, hstored, hnodup, ancestors, hancestors, last, hlast,
      ⟨hwritable, hunchanged⟩, fields, hchain, rfl⟩
    exact ⟨huid, ancestors, last, hprofile, ⟨projection.fields, hstored⟩, hnodup, hancestors, hlast,
      hwritable, hunchanged, hchain⟩
  · rintro ⟨huid, ancestors, last, h⟩
    obtain ⟨fields, hstored⟩ := h.stored
    exact ⟨⟨h.profileId, huid⟩, { resolved with fields }, hstored, h.nodup, ancestors, h.validated,
      last, h.validated_last, ⟨h.writable, h.unchanged⟩, resolved.fields, h.chain, rfl⟩

/-- Every element of one of two related lists is related to one of the other. -/
theorem exists_mem_of_forall₂ {α β : Type} {R : α → β → Prop} {as : List α} {bs : List β}
    (h : List.Forall₂ R as bs) :
    (∀ a ∈ as, ∃ b ∈ bs, R a b) ∧ ∀ b ∈ bs, ∃ a ∈ as, R a b := by
  induction h with
  | nil => simp
  | cons hab _ ih =>
      constructor
      · rintro a (_ | ⟨_, ha⟩)
        · exact ⟨_, List.mem_cons_self .., hab⟩
        · obtain ⟨b, hb, hr⟩ := ih.1 a ha
          exact ⟨b, List.mem_cons_of_mem _ hb, hr⟩
      · rintro b (_ | ⟨_, hb⟩)
        · exact ⟨_, List.mem_cons_self .., hab⟩
        · obtain ⟨a, ha, hr⟩ := ih.2 b hb
          exact ⟨a, List.mem_cons_of_mem _ ha, hr⟩

/-- The rows of the chain are those of its UIDs. -/
theorem map_schemaUid_of_validateEvidence {P : Platform} {expected : ExpectedNetwork}
    {evidenceRows : List SchemaProjectionEvidence} {uids : List JsString}
    {chain : List StoredSchema}
    (h : List.Forall₂ (fun uid stored => validateEvidence P expected evidenceRows uid = .ok stored)
      uids chain) : chain.map (·.row.schemaUid) = uids := by
  induction h with
  | nil => rfl
  | cons hstored _ ih =>
      obtain ⟨evidence, hfind, hrow, -⟩ := validateEvidence_eq_ok.mp hstored
      have huid := List.find?_some hfind
      rw [beq_iff_eq] at huid
      rw [List.map_cons, ih, hrow, huid]

end Web
end Xcs
