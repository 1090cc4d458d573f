import Xcs.Core.CredentialPayload
import Xcs.Indexer.RegistrationRuns
import Xcs.Web.CredentialTimeline
import Xcs.Web.PayloadResolver
import Xcs.Web.SchemaProjection

/-!
# Verification

`verifyCredential` reports on a credential: what the ledger says of it, whether its schema is known,
whether a payload is the one it commits to, and whether its issuer is trusted.  The payload is part
of the request, or it is resolved from the URI of the credential.

* `verifyCredential_eq`: with rows that pass their checks, only the payload can fail.
* `payloadStatus_eq_valid`: a payload that is `valid` was offered, and passed `core`.
-/

namespace Xcs
namespace Web

open Js Json Xcs.Core Db Keyset

/-! ## Reports -/

/-- `VerificationReport['onChain']` -/
inductive OnChainStatus where
  | state (state : CredentialLifecycleState)
  | notFound
  deriving DecidableEq

/-- `VerificationReport['schema']` -/
inductive SchemaStatus where
  | valid
  | unknown
  deriving DecidableEq

/-- `VerificationReport['payload']` -/
inductive PayloadStatus where
  | checked (status : CredentialPayloadStatus)
  | notChecked
  deriving DecidableEq

/-- `VerificationReport['issuerTrust']` -/
inductive IssuerTrust where
  | trusted
  | untrusted
  | unknown
  deriving DecidableEq

/-- `VerificationReport` -/
structure VerificationReport where
  onChain : OnChainStatus
  schema : SchemaStatus
  payload : PayloadStatus
  issuerTrust : IssuerTrust
  generationId : Option JsString

/-- `VerifyRequest` -/
structure VerifyRequest where
  network : JsString
  issuer : JsString
  subject : JsString
  schemaUid : JsString
  payload : Option JsValue
  resolvePayload : Bool

/-- What `verifyCredential` throws. -/
inductive VerificationError where
  | networkNotFound
  | unavailable (error : IndexerUnavailable)
  | thrown (error : Thrown)

/-- `StaticTrustPolicy` -/
structure StaticTrustPolicy where
  trusted : List JsString
  untrusted : List JsString

/-- `StaticTrustPolicy.evaluate` -/
def StaticTrustPolicy.evaluate (policy : StaticTrustPolicy) (issuer : JsString) : IssuerTrust :=
  if issuer ∈ policy.untrusted then .untrusted
  else if issuer ∈ policy.trusted then .trusted
  else .unknown

/-! ## Queries -/

/-- `getSchema` -/
def getSchema (J : JsonbReader) (schemaUid : JsString) (rows : ProjectionRows) : Option SchemaRow :=
  (rows.schemas.find? fun row => row.schemaUid == schemaUid).map (Indexer.readSchema J)

/-- The registrations that a row of `schemas` is joined with. -/
def joined (J : JsonbReader) (rows : ProjectionRows) (row : SchemaRow) :
    List SchemaProjectionEvidence :=
  (rows.schemaEvents.filter fun event =>
    event.transactionHash == row.registrationTransactionHash).map fun event =>
      ⟨Indexer.readSchema J row, Indexer.readEvent J event⟩

/-- `getSchemaProjectionEvidence` -/
def getSchemaProjectionEvidence (J : JsonbReader) (schemaUids : List JsString)
    (rows : ProjectionRows) : List SchemaProjectionEvidence :=
  (rows.schemas.filter fun row => decide (row.schemaUid ∈ schemaUids)).flatMap (joined J rows)

/-- `ORDER BY created_ledger_index DESC, created_transaction_index DESC` -/
def newestGenerationFirst (row : CredentialGenerationRow) : (ℤ ×ₗ ℤ)ᵒᵈ :=
  OrderDual.toDual (toLex (row.createdLedgerIndex, row.createdTransactionIndex))

/-- The `WHERE` of `getCredential`. -/
def isCredentialOf (issuer subject schemaUid : JsString) (row : CredentialGenerationRow) : Bool :=
  row.issuer == issuer && row.subject == subject && row.schemaUid == schemaUid

/-- `getCredential` -/
def getCredential (issuer subject schemaUid : JsString) (rows : ProjectionRows) :
    Option CredentialGenerationRow :=
  (ordered newestGenerationFirst
    (rows.credentialGenerations.filter (isCredentialOf issuer subject schemaUid))).head?

/-! ## The payload -/

/-- `decodeCredentialUri` -/
def decodeCredentialUri (generation : CredentialGenerationRow) : Option JsString :=
  generation.uriHex.bind fun uriHex => (hexToBytes uriHex).bind decodeUtf8

/-- `if (error instanceof XcsError) return 'invalid'` -/
def invalidOnXcs : Except Thrown CredentialPayloadStatus → Except Thrown PayloadStatus
  | .ok status => .ok (.checked status)
  | .error (.xcs _) => .ok (.checked .invalid)
  | .error error => .error error

/-- The payload of a credential is checked against what it has to be. -/
def checkPayload (P : Platform) (resolver : JsString → Except PayloadError (List UInt8))
    (payload : Option JsValue) (uri : JsString) (context : CredentialContext) :
    Except Thrown PayloadStatus :=
  match payload with
  | some payload => invalidOnXcs do
      let text ← canonicalJson P payload
      verifyCredentialPayload P (.retrieved (.text text)) uri context
  | none =>
      match resolver uri with
      | .ok bytes =>
          invalidOnXcs (verifyCredentialPayload P (.retrieved (.bytes bytes)) uri context)
      | .error (.unavailable _) =>
          (verifyCredentialPayload P .unavailable uri context).map .checked
      | .error (.invalid _) => .ok (.checked .invalid)
      | .error (.other (.xcs _)) => .ok (.checked .invalid)
      | .error (.other error) => .error error

/-- The context that a payload is checked in. -/
def payloadContext (request : VerifyRequest) (schema : ResolvedSchema) : CredentialContext where
  issuer := request.issuer
  subject := request.subject
  schemaUid := request.schemaUid
  fields := schema.fields

/-- `payloadStatus` -/
def payloadStatus (P : Platform) (resolver : JsString → Except PayloadError (List UInt8))
    (request : VerifyRequest) (generation : Option CredentialGenerationRow)
    (schema : Option ResolvedSchema) : Except Thrown PayloadStatus :=
  if request.payload.isNone && !request.resolvePayload then .ok .notChecked
  else
    match generation, schema with
    | some generation, some schema =>
        match decodeCredentialUri generation with
        | none => .ok (.checked .invalid)
        | some uri => checkPayload P resolver request.payload uri (payloadContext request schema)
    | _, _ => .ok (.checked .invalid)

/-! ## The report -/

/-- `onChainStatus` -/
def onChainStatus (generation : Option CredentialGenerationRow) (closeTime : ℤ) :
    Except IndexerUnavailable OnChainStatus :=
  match generation with
  | none => .ok .notFound
  | some generation => (credentialGenerationState generation closeTime).map .state

/-- The evidence of a schema, when there is one. -/
def schemaEvidence (P : Platform) (J : JsonbReader) (profileId : JsString) (rows : ProjectionRows) :
    Option SchemaRow → Except Thrown (List SchemaProjectionEvidence)
  | none => .ok []
  | some row => do
      let schemaUids ← schemaProjectionEvidenceUids P [row] profileId
      pure (getSchemaProjectionEvidence J schemaUids rows)

/-- The schema of a request, resolved from its evidence. -/
def resolvedSchema (P : Platform) (network : NetworkProfileRow) (schemaUid : JsString)
    (evidence : List SchemaProjectionEvidence) :
    Option SchemaRow → Except Thrown (Option ResolvedSchema)
  | none => .ok none
  | some row => do
      let schema ← authoritativeResolvedSchema P row evidence
        ⟨network.profileId, network.networkId, network.activationLedgerIndex⟩ schemaUid
      pure (some schema)

/-- The check of the generation of a request, when there is one. -/
def assertCredential (P : Platform) (network : NetworkProfileRow) (checkpoint : LedgerCheckpoint)
    (request : VerifyRequest) : Option CredentialGenerationRow → Except IndexerUnavailable Unit
  | none => .ok ()
  | some generation => assertCredentialGenerationEvidence P generation
      { profileId := request.network
        activationLedgerIndex := network.activationLedgerIndex
        checkpointLedgerIndex := checkpoint.ledgerIndex
        generationId := none
        issuer := some request.issuer
        subject := some request.subject
        schemaUid := some request.schemaUid }

/-- The ledgers of a generation and of the evidence of a schema. -/
def projectionIndexes (generation : Option CredentialGenerationRow)
    (evidence : List SchemaProjectionEvidence) : List ℤ :=
  (generation.toList.flatMap fun row => [row.createdLedgerIndex, row.lastLedgerIndex])
    ++ evidence.map (·.schema.ledgerIndex)

/-- The report on a generation, a schema and a payload. -/
def reportOf (trustPolicy : JsString → IssuerTrust) (request : VerifyRequest)
    (generation : Option CredentialGenerationRow) (schema : Option ResolvedSchema)
    (onChain : OnChainStatus) (payload : PayloadStatus) : VerificationReport where
  onChain
  schema := if schema.isSome then .valid else .unknown
  payload
  issuerTrust := trustPolicy request.issuer
  generationId := generation.map (·.generationId)

/-- `verifyCredential` -/
def verifyCredential (P : Platform) (J : JsonbReader) (context : ReadContext)
    (trustPolicy : JsString → IssuerTrust)
    (resolver : JsString → Except PayloadError (List UInt8)) (rows : ProfileRows)
    (request : VerifyRequest) : Except VerificationError VerificationReport :=
  match rows.networkProfile.filter fun row => row.profileId == request.network with
  | none => .error .networkNotFound
  | some network => do
      let _ ← (assertIndexerReady (rows.indexerStatus.map (readStatus network.profileId))
        context.now).mapError .unavailable
      let generation := getCredential request.issuer request.subject request.schemaUid
        rows.toProjectionRows
      let schemaRow := getSchema J request.schemaUid rows.toProjectionRows
      let evidence ← (schemaEvidence P J request.network rows.toProjectionRows schemaRow).mapError
        .thrown
      let checkpoint ← (requireAuthoritativeCheckpoint context network rows
        (projectionIndexes generation evidence)).mapError .unavailable
      (assertCredential P network checkpoint request generation).mapError .unavailable
      let schema ← (resolvedSchema P network request.schemaUid evidence schemaRow).mapError .thrown
      let onChain ← (onChainStatus generation checkpoint.closeTime).mapError .unavailable
      let payload ← (payloadStatus P resolver request generation schema).mapError .thrown
      pure (reportOf trustPolicy request generation schema onChain payload)

/-! ## Payloads that are valid -/

/-- The content that a request offers for a URI. -/
inductive IsOffered (P : Platform) (resolver : JsString → Except PayloadError (List UInt8))
    (request : VerifyRequest) (uri : JsString) : PayloadContent → Prop
  | submitted {payload : JsValue} {text : JsString} (hpayload : request.payload = some payload)
      (htext : canonicalJson P payload = .ok text) : IsOffered P resolver request uri (.text text)
  | resolved {bytes : List UInt8} (hnone : request.payload = none)
      (hresolve : request.resolvePayload = true) (hbytes : resolver uri = .ok bytes) :
      IsOffered P resolver request uri (.bytes bytes)

section Payload

variable {P : Platform} {resolver : JsString → Except PayloadError (List UInt8)}
  {request : VerifyRequest} {generation : Option CredentialGenerationRow}
  {schema : Option ResolvedSchema}

theorem invalidOnXcs_eq_valid {result : Except Thrown CredentialPayloadStatus} :
    invalidOnXcs result = .ok (.checked .valid) ↔ result = .ok .valid := by
  rcases result with (_ | _) | status <;> simp [invalidOnXcs]

theorem unavailable_or_invalid (P : Platform) (uri : JsString) (context : CredentialContext) :
    verifyCredentialPayload P .unavailable uri context = .ok .unavailable ∨
      verifyCredentialPayload P .unavailable uri context = .ok .invalid := by
  by_cases huri : ∃ target, parsePayloadUri P uri = .ok target
  · obtain ⟨target, huri⟩ := huri
    exact Or.inl (verifyCredentialPayload_unavailable huri)
  · exact Or.inr (verifyCredentialPayload_of_not_uri huri _)

theorem checkPayload_eq_valid (hasked : request.payload = none → request.resolvePayload = true)
    {uri : JsString} {context : CredentialContext} :
    checkPayload P resolver request.payload uri context = .ok (.checked .valid) ↔
      ∃ content, IsOffered P resolver request uri content ∧
        verifyCredentialPayload P (.retrieved content) uri context = .ok .valid := by
  cases hpayload : request.payload with
  | some payload =>
      rw [checkPayload, invalidOnXcs_eq_valid, bind_eq_ok]
      constructor
      · rintro ⟨text, htext, hvalid⟩
        exact ⟨_, .submitted hpayload htext, hvalid⟩
      · rintro ⟨content, hoffered, hvalid⟩
        cases hoffered with
        | submitted hother htext =>
            obtain rfl := Option.some.inj (hpayload.symm.trans hother)
            exact ⟨_, htext, hvalid⟩
        | resolved hnone =>
            rw [hpayload] at hnone
            cases hnone
  | none =>
      have hoffered : ∀ content, IsOffered P resolver request uri content ↔
          ∃ bytes, resolver uri = .ok bytes ∧ content = .bytes bytes := by
        intro content
        constructor
        · rintro (⟨hsome⟩ | ⟨-, -, hbytes⟩)
          · rw [hpayload] at hsome
            cases hsome
          · exact ⟨_, hbytes, rfl⟩
        · rintro ⟨bytes, hbytes, rfl⟩
          exact .resolved hpayload (hasked hpayload) hbytes
      simp only [hoffered]
      cases hresolved : resolver uri with
      | ok bytes =>
          rw [checkPayload, hresolved]
          simp [invalidOnXcs_eq_valid]
      | error error =>
          rw [checkPayload, hresolved]
          rcases error with _ | _ | other
          · rcases unavailable_or_invalid P uri context with hstatus | hstatus <;>
              simp [hstatus, Except.map]
          · simp
          · cases other <;> simp

/-- **A payload is reported as valid** when it was asked for, and what was offered for the URI of
the credential passes against the schema. -/
theorem payloadStatus_eq_valid :
    payloadStatus P resolver request generation schema = .ok (.checked .valid) ↔
      ∃ row resolved uri content, generation = some row ∧ schema = some resolved ∧
        decodeCredentialUri row = some uri ∧ IsOffered P resolver request uri content ∧
        verifyCredentialPayload P (.retrieved content) uri (payloadContext request resolved)
          = .ok .valid := by
  have hoffered : ∀ {uri content}, IsOffered P resolver request uri content →
      (request.payload.isNone && !request.resolvePayload) = false := by
    rintro uri content (⟨hpayload⟩ | ⟨-, hresolve⟩)
    · rw [hpayload]
      rfl
    · rw [hresolve, Bool.not_true, Bool.and_false]
  unfold payloadStatus
  split_ifs with hasked
  · refine iff_of_false (by simp) ?_
    rintro ⟨row, resolved, uri, content, -, -, -, hcontent, -⟩
    rw [hoffered hcontent] at hasked
    cases hasked
  · have hresolve : request.payload = none → request.resolvePayload = true := by
      intro hnone
      rw [hnone] at hasked
      simpa using hasked
    cases generation with
    | none => simp
    | some row =>
        cases schema with
        | none => simp
        | some resolved =>
            cases huri : decodeCredentialUri row with
            | none => simp [huri]
            | some uri =>
                simp only [huri, checkPayload_eq_valid hresolve, Option.some.injEq]
                constructor
                · rintro ⟨content, hcontent, hvalid⟩
                  exact ⟨row, resolved, uri, content, rfl, rfl, huri, hcontent, hvalid⟩
                · rintro ⟨_, _, uri', content, rfl, rfl, huri', hcontent, hvalid⟩
                  obtain rfl := Option.some.inj (huri.symm.trans huri')
                  exact ⟨content, hcontent, hvalid⟩

/-- Content that passes was retrieved, with the digest of the URI, and it is the payload of the
context unless it is misread. -/
theorem retrieved_of_valid {content : PayloadContent} {uri : JsString}
    {context : CredentialContext}
    (h : verifyCredentialPayload P (.retrieved content) uri context = .ok .valid) :
    Retrieved P (.retrieved content) uri true content.toBytes ∧
      (IsCredentialPayload P context content.toBytes ∨ Misread P context content.toBytes) := by
  by_cases huri : ∃ target, parsePayloadUri P uri = .ok target
  swap
  · rw [verifyCredentialPayload_of_not_uri huri] at h
    cases h
  obtain ⟨target, huri⟩ := huri
  cases hadmissible : content.isAdmissible with
  | false =>
      rw [verifyCredentialPayload_of_not_admissible huri hadmissible] at h
      cases h
  | true =>
      cases hdigest : target.digestHex == bytesToHex (P.sha256 content.toBytes) with
      | false =>
          rw [verifyCredentialPayload_of_digest_ne huri hadmissible hdigest] at h
          cases h
      | true =>
          refine ⟨(retrieved_iff huri).mpr ⟨hadmissible, rfl, hdigest⟩, ?_⟩
          by_cases hmisread : Misread P context content.toBytes
          · exact Or.inr hmisread
          · obtain ⟨status, hstatus, hvalid, -⟩ :=
              classified_of_not_misread huri hadmissible hdigest hmisread
            obtain rfl := Except.ok.inj (hstatus.symm.trans h)
            obtain ⟨bytes, hretrieved, hpayload⟩ := hvalid.mp rfl
            obtain ⟨-, rfl, -⟩ := (retrieved_iff huri).mp hretrieved
            exact Or.inl hpayload

end Payload

/-! ## Rows that pass -/

section Report

variable {P : Platform} {J : JsonbReader} {context : ReadContext} {profile : NetworkProfileRow}
  {rows : ProfileRows} {checkpoint : LedgerCheckpoint} {request : VerifyRequest}

/-- The newest generation of a credential. -/
theorem getCredential_eq_some {issuer subject schemaUid : JsString} {rows : ProjectionRows}
    {row : CredentialGenerationRow} (h : getCredential issuer subject schemaUid rows = some row) :
    row ∈ rows.credentialGenerations ∧ isCredentialOf issuer subject schemaUid row = true ∧
      ∀ other ∈ rows.credentialGenerations, isCredentialOf issuer subject schemaUid other = true →
        toLex (other.createdLedgerIndex, other.createdTransactionIndex)
          ≤ toLex (row.createdLedgerIndex, row.createdTransactionIndex) := by
  obtain ⟨hmem, hle⟩ := le_of_head?_ordered h
  obtain ⟨hrow, hof⟩ := List.mem_filter.mp hmem
  exact ⟨hrow, hof, fun other hother hsame =>
    OrderDual.toDual_le_toDual.mp (hle other (List.mem_filter.mpr ⟨hother, hsame⟩))⟩

/-- **Where the rows pass their checks, only the payload can fail.** -/
theorem verifyCredential_eq (hnetwork : rows.networkProfile = some profile)
    (hrequest : request.network = profile.profileId)
    (hready : requireAuthoritativeCheckpoint context profile rows [] = .ok checkpoint)
    {generation : Option CredentialGenerationRow}
    (hcredential : getCredential request.issuer request.subject request.schemaUid
      rows.toProjectionRows = generation) {evidence : List SchemaProjectionEvidence}
    (hevidence : schemaEvidence P J request.network rows.toProjectionRows
      (getSchema J request.schemaUid rows.toProjectionRows) = .ok evidence)
    (hindexes : ∀ index ∈ projectionIndexes generation evidence,
      (profile.activationLedgerIndex : ℤ) ≤ index ∧ index ≤ checkpoint.ledgerIndex)
    (hgeneration : assertCredential P profile checkpoint request generation = .ok ())
    {schema : Option ResolvedSchema}
    (hschema : resolvedSchema P profile request.schemaUid evidence
      (getSchema J request.schemaUid rows.toProjectionRows) = .ok schema) {onChain : OnChainStatus}
    (honChain : onChainStatus generation checkpoint.closeTime = .ok onChain)
    (trustPolicy : JsString → IssuerTrust)
    (resolver : JsString → Except PayloadError (List UInt8)) :
    verifyCredential P J context trustPolicy resolver rows request
      = ((payloadStatus P resolver request generation schema).mapError .thrown).map
          (reportOf trustPolicy request generation schema onChain) := by
  obtain ⟨⟨status, hstatus⟩, -⟩ := ready_of_required hready
  have hrequired := requireAuthoritativeCheckpoint_of_le hready hindexes
  have hprofile : (some profile).filter (fun row => row.profileId == request.network)
      = some profile := by
    rw [hrequest, Option.filter_some, if_pos (beq_self_eq_true _)]
  rw [verifyCredential, hnetwork, hprofile]
  simp only [hstatus, hcredential, hevidence, hrequired, hgeneration, hschema, honChain,
    Except.mapError, bind, Except.bind]
  cases payloadStatus P resolver request generation schema <;> rfl

end Report

end Web
end Xcs
