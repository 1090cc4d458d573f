import Xcs.Web.Readiness
import Xcs.Web.SchemaProjection

/-!
# What the API shows of a registration

A row of `schema_events` is shown as a registration after it was checked against the network and,
where it was accepted, against its own memo: the UID is computed again from the schema in it.

* `publicSchemaRegistration_row`: what is shown has the columns of the row.
-/

namespace Xcs
namespace Web

open Js Json Xcs.Core Db

/-- The fields of a network that the evidence of it is checked against. -/
structure EvidenceNetwork where
  networkId : ℤ
  activationLedgerIndex : ℤ
  deriving DecidableEq

/-- What the interface shows of a registration. -/
structure PublicSchemaRegistration where
  status : JsString
  publisher : JsString
  ledgerIndex : ℤ
  ledgerHash : JsString
  transactionIndex : ℤ
  schemaUid : Option JsString
  schemaDigestHex : Option JsString
  reasonCode : Option JsString
  deriving DecidableEq

/-- `REASON_CODE` -/
def isReasonCode : JsString → Bool :=
  matchesIdentifier isUpper (fun u => isUpper u || isDigit u || u == 0x5f) 127

/-- `invalidSchemaRegistrationEvidence` -/
def invalidSchemaRegistrationEvidence {α : Type} : Except IndexerUnavailable α :=
  .error ⟨.evidenceInvalid,
    js "The indexed schema registration evidence is incomplete or inconsistent."⟩

/-- The fields of an answer that every registration has. -/
def commonRegistration (row : SchemaEventRow) : PublicSchemaRegistration where
  status := row.status
  publisher := row.publisher
  ledgerIndex := row.ledgerIndex
  ledgerHash := row.ledgerHash
  transactionIndex := row.transactionIndex
  schemaUid := none
  schemaDigestHex := none
  reasonCode := none

/-- The body of the `try` of `publicSchemaRegistration`: the canonical memo and the UID of the
schema in it. -/
def recomputedSchema (P : Platform) (networkId : ℤ) (row : SchemaEventRow) :
    Except Thrown (JsString × JsString) := do
  let canonicalMemoJson ← canonicalJson P row.memoJson
  let schema ← parseSchema row.memoJson
  let computedSchemaUid ← computeSchemaUid P (registrationUidInput networkId row schema)
  pure (canonicalMemoJson, computedSchemaUid)

/-- The first condition of `publicSchemaRegistration`. -/
def hasRegistrationCoordinates (P : Platform) (row : SchemaEventRow) (network : EvidenceNetwork)
    (expectedTransactionHash : JsString) : Bool :=
  row.transactionHash == expectedTransactionHash
    && P.isValidClassicAddress row.publisher
    && isSafeInteger row.ledgerIndex
    && decide (network.activationLedgerIndex ≤ row.ledgerIndex ∧ row.ledgerIndex ≤ maxUint32)
    && isLowerHash row.ledgerHash
    && isSafeInteger row.transactionIndex
    && decide (0 ≤ row.transactionIndex)

/-- `publicSchemaRegistration` -/
def publicSchemaRegistration (P : Platform) (row : SchemaEventRow) (network : EvidenceNetwork)
    (expectedTransactionHash : JsString) : Except IndexerUnavailable PublicSchemaRegistration :=
  if !hasRegistrationCoordinates P row network expectedTransactionHash then
    invalidSchemaRegistrationEvidence
  else if row.status == js "accepted" then
    match row.schemaUid, row.reasonCode with
    | some schemaUid, none =>
        if !isLowerHash schemaUid || !isNotNull row.memoJson then
          invalidSchemaRegistrationEvidence
        else
          match recomputedSchema P network.networkId row with
          | .error _ => invalidSchemaRegistrationEvidence
          | .ok (canonicalMemoJson, computedSchemaUid) =>
              if computedSchemaUid != schemaUid then invalidSchemaRegistrationEvidence
              else
                .ok { commonRegistration row with
                  schemaUid := some schemaUid
                  schemaDigestHex := some (sha256Hex P (encodeUtf8 canonicalMemoJson)) }
    | _, _ => invalidSchemaRegistrationEvidence
  else if row.status == js "rejected" then
    match row.schemaUid, row.reasonCode with
    | none, some reasonCode =>
        if !isReasonCode reasonCode then invalidSchemaRegistrationEvidence
        else .ok { commonRegistration row with reasonCode := some reasonCode }
    | _, _ => invalidSchemaRegistrationEvidence
  else invalidSchemaRegistrationEvidence

/-- **What is shown is what was stored.** -/
theorem publicSchemaRegistration_row {P : Platform} {row : SchemaEventRow}
    {network : EvidenceNetwork} {hash : JsString} {registration : PublicSchemaRegistration}
    (h : publicSchemaRegistration P row network hash = .ok registration) :
    registration = { commonRegistration row with
      schemaUid := row.schemaUid
      schemaDigestHex := registration.schemaDigestHex
      reasonCode := row.reasonCode } := by
  unfold publicSchemaRegistration at h
  split at h
  · cases h
  · split at h
    · split at h
      · rename_i huid hreason
        split at h
        · cases h
        · split at h
          · cases h
          · split at h
            · cases h
            · cases h
              rw [huid, hreason, commonRegistration]
      · cases h
    · split at h
      · split at h
        · rename_i huid hreason
          split at h
          · cases h
          · cases h
            rw [huid, hreason, commonRegistration]
        · cases h
      · cases h

end Web
end Xcs
