import Xcs.Core.SchemaUid

/-!
# What the indexer reads and writes

A validated ledger as the sources deliver it, the profile an indexer is configured with, and the
projection of a ledger: its schema registrations and its credential mutations.

A transaction and its metadata are JavaScript objects the ledger server sent, and nothing about
their members is promised.  `ValidatedLedger.IsNormalized` is what `normalizeLedgerResponse`
guarantees about a ledger it returns.
-/

namespace Xcs
namespace Indexer

open Js Xcs.Core

/-- `NetworkProfile`, without the two fields whose types have one value each. -/
structure NetworkProfile where
  profileId : JsString
  networkId : ℕ
  requiredAmendment : JsString
  registryAddress : JsString
  activationLedgerIndex : ℕ
  activationLedgerHash : JsString
  deriving DecidableEq

/-- `xcsVersion: '0.1'` -/
def NetworkProfile.xcsVersion (_ : NetworkProfile) : JsString := js "0.1"

/-- `registrationAmountDrops: '1'` -/
def NetworkProfile.registrationAmountDrops (_ : NetworkProfile) : JsString := js "1"

/-- A profile to evaluate the program with. -/
def testnetProfile : NetworkProfile where
  profileId := js "testnet"
  networkId := 1
  requiredAmendment := List.replicate 64 0x41
  registryAddress := js "rrrrrrrrrrrrrrrrrrrrrhoLvTp"
  activationLedgerIndex := 7
  activationLedgerHash := List.replicate 64 0x61

/-- `LedgerTransaction` -/
structure LedgerTransaction where
  hash : JsString
  transaction : JsValue
  metadata : JsValue
  transactionIndex : ℕ

/-- `ValidatedLedger`; the roots and times that no function of the indexer reads are left out. -/
structure ValidatedLedger where
  ledgerIndex : ℕ
  ledgerHash : JsString
  parentHash : JsString
  transactionRoot : JsString
  closeTime : ℕ
  transactions : List LedgerTransaction

/-- What `normalizeLedgerResponse` checks of a ledger before it returns it, and that the metadata it
passes on came out of a JSON parser. -/
structure ValidatedLedger.IsNormalized (ledger : ValidatedLedger) : Prop where
  ledgerIndex : ledger.ledgerIndex ≤ 0xffffffff
  ledgerHash : isLowerHash ledger.ledgerHash = true
  parentHash : isLowerHash ledger.parentHash = true
  transactionRoot : isLowerHash ledger.transactionRoot = true
  closeTime : ledger.closeTime ≤ 0xffffffff
  transactionIndices : ledger.transactions.map (·.transactionIndex)
    = List.range ledger.transactions.length
  transactionIndex : ∀ tx ∈ ledger.transactions, tx.transactionIndex ≤ 0xffffffff
  transactionHash : ∀ tx ∈ ledger.transactions, isLowerHash tx.hash = true
  transactionHashes : (ledger.transactions.map (·.hash)).Nodup
  metadata : ∀ tx ∈ ledger.transactions, tx.metadata.isJson = true

/-- `Checkpoint` -/
structure Checkpoint where
  ledgerIndex : ℕ
  ledgerHash : JsString
  parentHash : JsString
  closeTime : ℕ
  transactionCount : ℕ
  transactionRoot : JsString
  deriving DecidableEq

/-- What became of a schema registration. -/
inductive RegistrationOutcome where
  | accepted (schemaUid : JsString) (memoJson : JsValue) (definition : SchemaDefinition)
      (resolved : ResolvedSchema)
  | rejected (reasonCode : JsString) (memoJson : Option JsValue)

/-- `SchemaRegistrationResult` -/
structure SchemaRegistrationResult where
  transactionHash : JsString
  transactionIndex : ℕ
  publisher : JsString
  outcome : RegistrationOutcome

/-- `CredentialEventType` -/
inductive CredentialEventType where
  | created
  | accepted
  | deleted
  deriving DecidableEq

/-- The text of an event type. -/
def CredentialEventType.text : CredentialEventType → JsString
  | .created => js "created"
  | .accepted => js "accepted"
  | .deleted => js "deleted"

/-- `CredentialDeletionCause` -/
inductive CredentialDeletionCause where
  | issuerRevoked
  | subjectRejected
  | subjectRemoved
  | expiredCleanup
  | accountDeleted
  | selfDeleted
  deriving DecidableEq

/-- The text of a deletion cause. -/
def CredentialDeletionCause.text : CredentialDeletionCause → JsString
  | .issuerRevoked => js "issuer_revoked"
  | .subjectRejected => js "subject_rejected"
  | .subjectRemoved => js "subject_removed"
  | .expiredCleanup => js "expired_cleanup"
  | .accountDeleted => js "account_deleted"
  | .selfDeleted => js "self_deleted"

/-- `CredentialMutation` -/
structure CredentialMutation where
  transactionHash : JsString
  transactionIndex : ℕ
  nodeIndex : ℕ
  ledgerObjectId : JsString
  eventType : CredentialEventType
  issuer : JsString
  subject : JsString
  schemaUid : JsString
  uriHex : JsString
  expiration : Option ℕ
  accepted : Bool
  deletionCause : Option CredentialDeletionCause
  snapshot : JsValue

/-- `ExtractedCredentialMutations` -/
structure ExtractedCredentialMutations where
  mutations : List CredentialMutation
  malformedCredentialNodes : ℕ

/-- `LedgerProjection` -/
structure LedgerProjection where
  ledger : ValidatedLedger
  schemaRegistrations : List SchemaRegistrationResult
  credentialMutations : List CredentialMutation
  malformedCredentialNodes : ℕ

/-- `LedgerSourceTips` -/
structure LedgerSourceTips where
  primary : ℕ
  secondary : ℕ
  effective : ℕ
  deriving DecidableEq

end Indexer
end Xcs
