import Xcs.Core.PayloadUri
import Xcs.Indexer.Types
import Xcs.Run.KeyedStore
import Xcs.Sdk.Submission

/-!
# The operation journal of the browser

The web application keeps a record of every operation it has a wallet sign, in an object store that
all tabs of the browser share.  A record says how far the submission got and, once the transaction
is validated, what the indexer made of it: the business confirmation.  The five writes of the store
are atomic, and `create` refuses a second operation on a business key that another one holds.

Whether an operation holds its key is nowhere stored.  `holdsBusinessLock` derives it from the stage
and from the confirmation that `operationBusinessConfirmation` reads back, and that reader trusts
nothing of the record that it can check again: it validates the context and the evidence anew.

* `validateOperationBusinessContext` and `validateBusinessEvidence` bring their input into a form
  that they accept again as it is.
* `JournalStep` is one write of one tab, which may also be refused.
-/

namespace Xcs
namespace Web

open Js Xcs.Core Sdk Indexer

/-- What the journal asks of the browser: the functions of other packages, and the dates that
`Date.parse` reads. -/
structure Browser where
  platform : Platform
  /-- `Number.isFinite(Date.parse(text))` -/
  parsesDate : JsString → Bool

/-! ## Contexts -/

/-- The actions on one generation of a credential. -/
inductive GenerationAction where
  | accept
  | reject
  | remove
  | revoke
  deriving DecidableEq

/-- The `action` of a context that is bound to a generation. -/
def GenerationAction.text : GenerationAction → JsString
  | .accept => js "credential-accept"
  | .reject => js "credential-reject"
  | .remove => js "credential-remove"
  | .revoke => js "credential-revoke"

/-- `OperationBusinessContext` -/
inductive OperationBusinessContext where
  | schemaRegister (publisher schemaDigestHex : Option JsString) (memoByteLength : Option ℕ)
  | credentialIssue (issuer subject schemaUid : JsString)
      (credentialUri payloadDigestHex expiration : Option JsString)
  | generationBound (action : GenerationAction) (issuer subject schemaUid generationId : JsString)
      (payloadDigestHex : Option JsString)
  deriving DecidableEq

/-- `BusinessConfirmation` -/
inductive BusinessConfirmation where
  | pending
  | confirmed
  | rejected
  | mismatch
  | timeout
  deriving DecidableEq

/-- `BusinessEvidence`; a `deletionCause` is absent, `null` or a cause. -/
structure BusinessEvidence where
  transactionHash : JsString
  ledgerIndex : ℕ
  ledgerHash : JsString
  transactionIndex : ℕ
  schemaUid : Option JsString
  generationId : Option JsString
  reasonCode : Option JsString
  eventType : Option CredentialEventType
  accepted : Option Bool
  deletionCause : Option (Option CredentialDeletionCause)
  deriving DecidableEq

/-- The member of an object that a spread adds when there is a value. -/
def spreadMember (key : JsString) (value : Option JsValue) : Members :=
  value.toList.map fun v => (key, v)

/-- A context as the object the store holds. -/
def OperationBusinessContext.toJs : OperationBusinessContext → JsValue
  | .schemaRegister publisher schemaDigestHex memoByteLength =>
      .obj ((js "action", .str (js "schema-register"))
        :: (spreadMember (js "publisher") (publisher.map .str)
          ++ spreadMember (js "schemaDigestHex") (schemaDigestHex.map .str)
          ++ spreadMember (js "memoByteLength")
            (memoByteLength.map fun n => .num (JsNumber.ofNat n))))
  | .credentialIssue issuer subject schemaUid credentialUri payloadDigestHex expiration =>
      .obj ((js "action", .str (js "credential-issue")) :: (js "issuer", .str issuer)
        :: (js "subject", .str subject) :: (js "schemaUid", .str schemaUid)
        :: (spreadMember (js "credentialUri") (credentialUri.map .str)
          ++ spreadMember (js "payloadDigestHex") (payloadDigestHex.map .str)
          ++ spreadMember (js "expiration") (expiration.map .str)))
  | .generationBound action issuer subject schemaUid generationId payloadDigestHex =>
      .obj ((js "action", .str action.text) :: (js "issuer", .str issuer)
        :: (js "subject", .str subject) :: (js "schemaUid", .str schemaUid)
        :: (js "generationId", .str generationId)
        :: spreadMember (js "payloadDigestHex") (payloadDigestHex.map .str))

/-- Evidence as the object the store holds. -/
def BusinessEvidence.toJs (evidence : BusinessEvidence) : JsValue :=
  .obj ((js "transactionHash", .str evidence.transactionHash)
    :: (js "ledgerIndex", .num (JsNumber.ofNat evidence.ledgerIndex))
    :: (js "ledgerHash", .str evidence.ledgerHash)
    :: (js "transactionIndex", .num (JsNumber.ofNat evidence.transactionIndex))
    :: (spreadMember (js "schemaUid") (evidence.schemaUid.map .str)
      ++ spreadMember (js "generationId") (evidence.generationId.map .str)
      ++ spreadMember (js "reasonCode") (evidence.reasonCode.map .str)
      ++ spreadMember (js "eventType") (evidence.eventType.map fun type => .str type.text)
      ++ spreadMember (js "accepted") (evidence.accepted.map .bool)
      ++ spreadMember (js "deletionCause")
        (evidence.deletionCause.map fun cause => (cause.map fun c => .str c.text).getD .null)))

/-! ## The validators -/

/-- `throw new Error(message)` -/
def failError {α : Type} (message : JsString) : Except Thrown α :=
  .error (.error message)

/-- `Number.isSafeInteger(value) && value >= 0`, and the integer. -/
def safeInteger : JsValue → Option ℕ
  | .num n => n.toNat?.filter fun m => decide (m ≤ 9007199254740991)
  | _ => none

/-- `Number.isSafeInteger(value) && value > 0`, and the integer. -/
def positiveSafeInteger (v : JsValue) : Option ℕ :=
  (safeInteger v).filter fun m => decide (0 < m)

/-- `optionalDigest` -/
def optionalDigest (input : JsValue) (errorCode : JsString) : Except Thrown (Option JsString) :=
  match input with
  | .undefined => .ok none
  | .str s => if isHash s then .ok (some (toLowerCase s)) else failError errorCode
  | _ => failError errorCode

/-- `optionalExpiration` -/
def optionalExpiration (B : Browser) (input : JsValue) : Except Thrown (Option JsString) :=
  match input with
  | .undefined => .ok none
  | .str s =>
      if s.isEmpty || !B.parsesDate s then failError (js "OPERATION_EXPIRATION_INVALID")
      else .ok (some s)
  | _ => failError (js "OPERATION_EXPIRATION_INVALID")

/-- The branch of `validateOperationBusinessContext` for `publisher`. -/
def optionalPublisher (P : Platform) (input : JsValue) : Except Thrown (Option JsString) :=
  match input with
  | .undefined => .ok none
  | .str s =>
      if P.isValidClassicAddress s then .ok (some s)
      else failError (js "OPERATION_PUBLISHER_INVALID")
  | _ => failError (js "OPERATION_PUBLISHER_INVALID")

/-- The branch of `validateOperationBusinessContext` for `memoByteLength`. -/
def optionalMemoByteLength (input : JsValue) : Except Thrown (Option ℕ) :=
  if input.isUndefined then .ok none
  else
    match positiveSafeInteger input with
    | some n => .ok (some n)
    | none => failError (js "OPERATION_MEMO_BYTE_LENGTH_INVALID")

/-- The branch of `validateOperationBusinessContext` for `credentialUri`. -/
def optionalCredentialUri (P : Platform) (input : JsValue) : Except Thrown (Option JsString) :=
  match input with
  | .undefined => .ok none
  | .str s =>
      match parsePayloadUri P s with
      | .ok _ => .ok (some s)
      | .error _ => failError (js "OPERATION_CREDENTIAL_URI_INVALID")
  | _ => failError (js "OPERATION_CREDENTIAL_URI_INVALID")

/-- An address of a credential context. -/
def credentialAddress (P : Platform) (input : JsValue) : Except Thrown JsString :=
  match input with
  | .str s =>
      if P.isValidClassicAddress s then .ok s
      else failError (js "OPERATION_CREDENTIAL_ADDRESS_INVALID")
  | _ => failError (js "OPERATION_CREDENTIAL_ADDRESS_INVALID")

/-- A required identifier in lowercase. -/
def requiredHash (input : JsValue) (errorCode : JsString) : Except Thrown JsString :=
  match input with
  | .str s =>
      if isLowerHash (toLowerCase s) then .ok (toLowerCase s) else failError errorCode
  | _ => failError errorCode

/-- The `action` of a context bound to a generation, as `CREDENTIAL_ACTIONS` lists them. -/
def generationAction (action : JsValue) : Option GenerationAction :=
  if action.isStr (js "credential-accept") then some .accept
  else if action.isStr (js "credential-reject") then some .reject
  else if action.isStr (js "credential-remove") then some .remove
  else if action.isStr (js "credential-revoke") then some .revoke
  else none

/-- The branch of `validateOperationBusinessContext` for a registration. -/
def validateSchemaContext (B : Browser) (input : JsValue) :
    Except Thrown OperationBusinessContext := do
  let publisher ← optionalPublisher B.platform (input.get (js "publisher"))
  let schemaDigestHex ← optionalDigest (input.get (js "schemaDigestHex"))
    (js "OPERATION_SCHEMA_DIGEST_INVALID")
  let memoByteLength ← optionalMemoByteLength (input.get (js "memoByteLength"))
  pure (.schemaRegister publisher schemaDigestHex memoByteLength)

/-- The branch of `validateOperationBusinessContext` for a new credential. -/
def validateIssueContext (B : Browser) (input : JsValue) :
    Except Thrown OperationBusinessContext := do
  let issuer ← credentialAddress B.platform (input.get (js "issuer"))
  let subject ← credentialAddress B.platform (input.get (js "subject"))
  let schemaUid ← requiredHash (input.get (js "schemaUid")) (js "OPERATION_SCHEMA_UID_INVALID")
  let payloadDigestHex ← optionalDigest (input.get (js "payloadDigestHex"))
    (js "OPERATION_PAYLOAD_DIGEST_INVALID")
  let credentialUri ← optionalCredentialUri B.platform (input.get (js "credentialUri"))
  let expiration ← optionalExpiration B (input.get (js "expiration"))
  pure (.credentialIssue issuer subject schemaUid credentialUri payloadDigestHex expiration)

/-- The branch of `validateOperationBusinessContext` for an action on a generation. -/
def validateGenerationContext (B : Browser) (action : GenerationAction) (input : JsValue) :
    Except Thrown OperationBusinessContext := do
  let issuer ← credentialAddress B.platform (input.get (js "issuer"))
  let subject ← credentialAddress B.platform (input.get (js "subject"))
  let schemaUid ← requiredHash (input.get (js "schemaUid")) (js "OPERATION_SCHEMA_UID_INVALID")
  let payloadDigestHex ← optionalDigest (input.get (js "payloadDigestHex"))
    (js "OPERATION_PAYLOAD_DIGEST_INVALID")
  let generationId ← requiredHash (input.get (js "generationId"))
    (js "OPERATION_GENERATION_ID_INVALID")
  pure (.generationBound action issuer subject schemaUid generationId payloadDigestHex)

/-- `validateOperationBusinessContext` -/
def validateOperationBusinessContext (B : Browser) (input : JsValue) :
    Except Thrown OperationBusinessContext :=
  match input with
  | .obj members =>
      let candidate := JsValue.obj members
      let action := candidate.get (js "action")
      if action.isStr (js "schema-register") then validateSchemaContext B candidate
      else if action.isStr (js "credential-issue") then validateIssueContext B candidate
      else
        match generationAction action with
        | some action => validateGenerationContext B action candidate
        | none => failError (js "OPERATION_ACTION_INVALID")
  | _ => failError (js "OPERATION_BUSINESS_CONTEXT_INVALID")

/-- `REASON_CODE` -/
def matchesReasonCode (s : JsString) : Bool :=
  decide (1 ≤ s.length ∧ s.length ≤ 128)
    && s.all fun u => isUpper u || isDigit u || u == 0x5f

/-- A required hash of evidence in lowercase. -/
def evidenceHash (input : JsValue) (errorCode : JsString) : Except Thrown JsString :=
  match input with
  | .str s => if isHash s then .ok (toLowerCase s) else failError errorCode
  | _ => failError errorCode

/-- The check of a number of evidence. -/
def evidenceInteger (value : Option ℕ) (errorCode : JsString) : Except Thrown ℕ :=
  match value with
  | some n => .ok n
  | none => failError errorCode

/-- The check of `reasonCode`. -/
def optionalReasonCode (input : JsValue) : Except Thrown (Option JsString) :=
  match input with
  | .undefined => .ok none
  | .str s =>
      if matchesReasonCode s then .ok (some s)
      else failError (js "OPERATION_EVIDENCE_REASON_CODE_INVALID")
  | _ => failError (js "OPERATION_EVIDENCE_REASON_CODE_INVALID")

/-- The event type a text names. -/
def eventTypeOf (input : JsValue) : Option CredentialEventType :=
  [CredentialEventType.created, .accepted, .deleted].find? fun type => input.isStr type.text

/-- The check of `eventType`. -/
def optionalEventType (input : JsValue) : Except Thrown (Option CredentialEventType) :=
  if input.isUndefined then .ok none
  else
    match eventTypeOf input with
    | some type => .ok (some type)
    | none => failError (js "OPERATION_EVIDENCE_EVENT_TYPE_INVALID")

/-- The check of `accepted`. -/
def optionalAccepted (input : JsValue) : Except Thrown (Option Bool) :=
  match input with
  | .undefined => .ok none
  | .bool b => .ok (some b)
  | _ => failError (js "OPERATION_EVIDENCE_ACCEPTED_INVALID")

/-- `isBusinessDeletionCause`, and the cause. -/
def businessDeletionCause (input : JsValue) : Option CredentialDeletionCause :=
  [CredentialDeletionCause.issuerRevoked, .subjectRejected, .subjectRemoved, .expiredCleanup,
    .accountDeleted, .selfDeleted].find? fun cause => input.isStr cause.text

/-- The check of `deletionCause` beside `eventType`: a deletion has a cause, another event has
`null`, and where there is no event there is no member. -/
def evidenceDeletionCause (eventType : Option CredentialEventType) (input : JsValue) :
    Except Thrown (Option (Option CredentialDeletionCause)) :=
  match eventType, input with
  | some .deleted, input =>
      match businessDeletionCause input with
      | some cause => .ok (some (some cause))
      | none => failError (js "OPERATION_EVIDENCE_DELETION_CAUSE_INVALID")
  | some _, .null => .ok (some none)
  | none, .undefined => .ok none
  | _, _ => failError (js "OPERATION_EVIDENCE_DELETION_CAUSE_INVALID")

/-- `validateBusinessEvidence` -/
def validateBusinessEvidence (input : JsValue) : Except Thrown BusinessEvidence :=
  match input with
  | .obj members => do
      let candidate := JsValue.obj members
      let transactionHash ← evidenceHash (candidate.get (js "transactionHash"))
        (js "OPERATION_EVIDENCE_TRANSACTION_HASH_INVALID")
      let ledgerIndex ← evidenceInteger (positiveSafeInteger (candidate.get (js "ledgerIndex")))
        (js "OPERATION_EVIDENCE_LEDGER_INDEX_INVALID")
      let ledgerHash ← evidenceHash (candidate.get (js "ledgerHash"))
        (js "OPERATION_EVIDENCE_LEDGER_HASH_INVALID")
      let transactionIndex ← evidenceInteger (safeInteger (candidate.get (js "transactionIndex")))
        (js "OPERATION_EVIDENCE_TRANSACTION_INDEX_INVALID")
      let schemaUid ← optionalDigest (candidate.get (js "schemaUid"))
        (js "OPERATION_EVIDENCE_SCHEMA_UID_INVALID")
      let generationId ← optionalDigest (candidate.get (js "generationId"))
        (js "OPERATION_EVIDENCE_GENERATION_ID_INVALID")
      let reasonCode ← optionalReasonCode (candidate.get (js "reasonCode"))
      let eventType ← optionalEventType (candidate.get (js "eventType"))
      let accepted ← optionalAccepted (candidate.get (js "accepted"))
      let deletionCause ← evidenceDeletionCause eventType (candidate.get (js "deletionCause"))
      pure ⟨transactionHash, ledgerIndex, ledgerHash, transactionIndex, schemaUid, generationId,
        reasonCode, eventType, accepted, deletionCause⟩
  | _ => failError (js "OPERATION_BUSINESS_EVIDENCE_INVALID")

/-! ## Stored operations -/

/-- `OperationSeed`; the context comes from outside and is validated by `create`. -/
structure OperationSeed where
  operationId : JsString
  account : JsString
  profileId : JsString
  networkId : ℕ
  transactionType : JsString
  createdAt : JsString
  business : JsValue

/-- `StoredOperation` -/
structure StoredOperation where
  operationId : JsString
  account : JsString
  profileId : JsString
  networkId : ℕ
  transactionType : JsString
  createdAt : JsString
  business : Option OperationBusinessContext
  updatedAt : JsString
  stage : SubmissionJournalStage
  txHash : Option JsString
  txBlob : Option JsString
  lastLedgerSequence : Option ℕ
  engineResult : Option JsString
  ledgerIndex : Option ℕ
  message : Option JsString
  businessConfirmation : Option BusinessConfirmation
  businessEvidence : Option BusinessEvidence
  deriving DecidableEq

/-- `SignedOperationRecord` -/
structure SignedOperationRecord where
  operationId : JsString
  txBlob : JsString
  txHash : JsString
  lastLedgerSequence : ℕ
  /-- `at` -/
  atTime : JsString

/-- `isGenerationBoundBusinessContext` -/
def isGenerationBoundBusinessContext : Option OperationBusinessContext → Bool
  | some (.generationBound ..) => true
  | _ => false

/-- `isConfirmableBusinessContext` -/
def isConfirmableBusinessContext : Option OperationBusinessContext → Bool
  | some (.schemaRegister publisher schemaDigestHex memoByteLength) =>
      publisher.isSome && schemaDigestHex.isSome && memoByteLength.isSome
  | some (.credentialIssue _ _ _ credentialUri payloadDigestHex _) =>
      credentialUri.isSome && payloadDigestHex.isSome
  | business => isGenerationBoundBusinessContext business

/-- The texts joined by bars. -/
def joinBars (texts : List JsString) : JsString :=
  List.intercalate (js "|") texts

/-- `operationBusinessKey` -/
def operationBusinessKey (profileId : JsString) :
    Option OperationBusinessContext → Option JsString
  | some (.schemaRegister publisher schemaDigestHex _) =>
      match publisher, schemaDigestHex with
      | some publisher, some schemaDigestHex =>
          if publisher.isEmpty || schemaDigestHex.isEmpty then none
          else some (joinBars [profileId, js "schema-register", publisher, schemaDigestHex])
      | _, _ => none
  | some (.credentialIssue issuer subject schemaUid _ _ _) =>
      some (joinBars [profileId, js "credential", issuer, subject, schemaUid])
  | some (.generationBound _ issuer subject schemaUid generationId _) =>
      some (joinBars [profileId, js "credential", issuer, subject, schemaUid, generationId])
  | none => none

/-- `sanitizeOperationBusinessContext` -/
def sanitizeOperationBusinessContext (B : Browser) (business : Option OperationBusinessContext) :
    Option OperationBusinessContext :=
  business.bind fun business => (validateOperationBusinessContext B business.toJs).toOption

/-- `sanitizeBusinessEvidence` -/
def sanitizeBusinessEvidence (evidence : Option BusinessEvidence) : Option BusinessEvidence :=
  evidence.bind fun evidence => (validateBusinessEvidence evidence.toJs).toOption

/-- The `expectedEventType` of a credential context. -/
def expectedEventType : OperationBusinessContext → CredentialEventType
  | .generationBound .accept .. => .accepted
  | .generationBound _ .. => .deleted
  | _ => .created

/-- The `expectedDeletionCause` of a credential context; `none` is `null`. -/
def expectedDeletionCause : OperationBusinessContext → Option CredentialDeletionCause
  | .generationBound .reject .. => some .subjectRejected
  | .generationBound .remove issuer subject _ _ _ =>
      if issuer = subject then some .issuerRevoked else some .subjectRemoved
  | .generationBound .revoke .. => some .issuerRevoked
  | _ => none

/-- The condition on `accepted` of a credential context. -/
def acceptedAsExpected (accepted : Option Bool) : OperationBusinessContext → Bool
  | .credentialIssue issuer subject .. => accepted == some (issuer == subject)
  | .generationBound .reject .. => accepted == some false
  | .generationBound .revoke .. => true
  | .generationBound _ .. => accepted == some true
  | .schemaRegister .. => true

/-- `evidenceSupportsBusinessResult`, for a `confirmation` that is `'confirmed'` or
`'rejected'`. -/
def evidenceSupportsBusinessResult (business : OperationBusinessContext) (confirmed : Bool)
    (evidence : BusinessEvidence) (transactionHash : JsString) : Bool :=
  evidence.transactionHash == transactionHash &&
    match business with
    | .schemaRegister .. =>
        if confirmed then evidence.schemaUid.isSome && evidence.reasonCode.isNone
        else evidence.reasonCode.isSome && evidence.schemaUid.isNone
    | .credentialIssue _ _ schemaUid .. =>
        confirmed && evidence.schemaUid == some schemaUid
          && evidence.eventType == some (expectedEventType business)
          && acceptedAsExpected evidence.accepted business
          && evidence.generationId == some transactionHash
          && evidence.deletionCause == some (expectedDeletionCause business)
    | .generationBound _ _ _ schemaUid generationId _ =>
        confirmed && evidence.schemaUid == some schemaUid
          && evidence.eventType == some (expectedEventType business)
          && acceptedAsExpected evidence.accepted business
          && evidence.generationId == some generationId
          && evidence.deletionCause == some (expectedDeletionCause business)

/-- `operation.stage === 'validated' && operation.engineResult === 'tesSUCCESS'` -/
def StoredOperation.succeeded (operation : StoredOperation) : Bool :=
  operation.stage == .validated && operation.engineResult == some (js "tesSUCCESS")

/-- The `ledgerIndex` of an operation when it is a positive safe integer. -/
def StoredOperation.validatedIndex (operation : StoredOperation) : Option ℕ :=
  operation.ledgerIndex.filter fun n => decide (0 < n ∧ n ≤ 9007199254740991)

/-- Whether the stored evidence still supports the verdict. -/
def StoredOperation.supports (operation : StoredOperation) (business : OperationBusinessContext)
    (confirmed : Bool) : Bool :=
  match sanitizeBusinessEvidence operation.businessEvidence, operation.txHash.map toLowerCase with
  | some evidence, some txHash =>
      !txHash.isEmpty && operation.ledgerIndex == some evidence.ledgerIndex
        && evidenceSupportsBusinessResult business confirmed evidence txHash
  | _, _ => false

/-- `operationBusinessConfirmation` -/
def operationBusinessConfirmation (B : Browser) (operation : StoredOperation) :
    Option BusinessConfirmation :=
  match sanitizeOperationBusinessContext B operation.business with
  | none => none
  | some business =>
      if !isConfirmableBusinessContext (some business) then none
      else
        match operation.businessConfirmation.getD .pending with
        | .pending => some .pending
        | confirmation =>
            if !operation.succeeded || operation.validatedIndex.isNone then some .pending
            else
              match confirmation with
              | .confirmed =>
                  if operation.supports business true then some .confirmed else some .pending
              | .rejected =>
                  if operation.supports business false then some .rejected else some .pending
              | confirmation => some confirmation

/-- The stages at which a submission is over. -/
def isTerminal : SubmissionJournalStage → Bool
  | .validated => true
  | .expired => true
  | .failed => true
  | _ => false

/-- `holdsBusinessLock` -/
def holdsBusinessLock (B : Browser) (operation : StoredOperation) : Bool :=
  if !isTerminal operation.stage then true
  else if !operation.succeeded then false
  else
    match operationBusinessConfirmation B operation with
    | some .pending => true
    | some .timeout => true
    | _ => false

/-- The business key an operation holds. -/
def businessLock (B : Browser) (operation : StoredOperation) : Option JsString :=
  if holdsBusinessLock B operation then
    operationBusinessKey operation.profileId
      (sanitizeOperationBusinessContext B operation.business)
  else none

/-- `applyJournalEntry` -/
def applyJournalEntry (operation : StoredOperation) (entry : SubmissionJournalEntry) :
    StoredOperation :=
  if isTerminal operation.stage then operation
  else
    { operation with
      updatedAt := entry.atTime
      stage := entry.stage
      txHash := entry.txHash.or operation.txHash
      txBlob := if isTerminal entry.stage then none else operation.txBlob
      lastLedgerSequence := entry.lastLedgerSequence.or operation.lastLedgerSequence
      engineResult := entry.engineResult.or operation.engineResult
      ledgerIndex := entry.ledgerIndex.or operation.ledgerIndex
      message := entry.message }

/-- `canReconfirmOperation` -/
def canReconfirmOperation (B : Browser) (operation : StoredOperation) : Bool :=
  operation.succeeded && operation.txHash.any isHash
    && (match operationBusinessConfirmation B operation with
      | none => false
      | some .confirmed => false
      | some .rejected => false
      | some _ => true)
    && match sanitizeOperationBusinessContext B operation.business with
      | some (.schemaRegister publisher _ _) =>
          operation.transactionType == js "Payment" && publisher == some operation.account
      | some (.credentialIssue issuer ..) =>
          operation.transactionType == js "CredentialCreate" && operation.account == issuer
      | some (.generationBound .accept _ subject ..) =>
          operation.transactionType == js "CredentialAccept" && operation.account == subject
      | some (.generationBound .revoke issuer ..) =>
          operation.transactionType == js "CredentialDelete" && operation.account == issuer
      | some (.generationBound _ _ subject ..) =>
          operation.transactionType == js "CredentialDelete" && operation.account == subject
      | none => false

/-- `canAbandonOperation` -/
def canAbandonOperation (operation : StoredOperation) : Bool :=
  operation.stage == .prepared && operation.txHash.isNone && operation.txBlob.isNone

/-! ## The writes of the store -/

/-- The object store `operations`. -/
abbrev OperationJournal := KeyedStore StoredOperation.operationId

/-- Whether another operation holds a business key. -/
def lockedByOther (B : Browser) (journal : OperationJournal) (operationId : JsString)
    (businessKey : Option JsString) : Bool :=
  businessKey.isSome && journal.entries.any fun operation =>
    operation.operationId != operationId && businessLock B operation == businessKey

/-- `condition ? validate(value) : undefined` -/
def validateWhen {α : Type} (condition : Bool) (validated : Except Thrown α) :
    Except Thrown (Option α) :=
  if condition then some <$> validated else .ok none

/-- `create` -/
def create (B : Browser) (seed : OperationSeed) (journal : OperationJournal) :
    Except Thrown OperationJournal := do
  let business ← validateWhen seed.business.truthy
    (validateOperationBusinessContext B seed.business)
  ensure (business.isNone || isConfirmableBusinessContext business)
    (.error (js "OPERATION_BUSINESS_CONTEXT_INCOMPLETE"))
  ensure (journal.get seed.operationId).isNone (.error (js "OPERATION_ID_ALREADY_EXISTS"))
  -- The identifier is new, so every stored operation is another one.
  ensure (!lockedByOther B journal seed.operationId
    (operationBusinessKey seed.profileId business)) (.error (js "OPERATION_BUSINESS_LOCKED"))
  pure (journal.put
    { operationId := seed.operationId
      account := seed.account
      profileId := seed.profileId
      networkId := seed.networkId
      transactionType := seed.transactionType
      createdAt := seed.createdAt
      business := business
      updatedAt := seed.createdAt
      stage := .prepared
      txHash := none
      txBlob := none
      lastLedgerSequence := none
      engineResult := none
      ledgerIndex := none
      message := none
      businessConfirmation := business.map fun _ => .pending
      businessEvidence := none })

/-- `#mutate` -/
def mutate (operationId : JsString)
    (change : StoredOperation → Except Thrown StoredOperation) (journal : OperationJournal) :
    Except Thrown OperationJournal :=
  match journal.get operationId with
  | none => failError (js "OPERATION_NOT_FOUND")
  | some existing => do
      let changed ← change existing
      pure (journal.put changed)

/-- `persistSigned` -/
def persistSigned (B : Browser) (record : SignedOperationRecord) (journal : OperationJournal) :
    Except Thrown OperationJournal :=
  mutate record.operationId (fun existing => do
    ensure (existing.stage == .prepared) (.error (js "OPERATION_LOCK_OWNERSHIP_LOST"))
    ensure (!lockedByOther B journal existing.operationId
        (operationBusinessKey existing.profileId
          (sanitizeOperationBusinessContext B existing.business)))
      (.error (js "OPERATION_LOCK_OWNERSHIP_LOST"))
    pure { existing with
      updatedAt := record.atTime
      stage := .signed
      txHash := some record.txHash
      txBlob := some record.txBlob
      lastLedgerSequence := some record.lastLedgerSequence
      message := none }) journal

/-- `append` -/
def append (entry : SubmissionJournalEntry) (journal : OperationJournal) :
    Except Thrown OperationJournal :=
  mutate entry.operationId (fun existing => pure (applyJournalEntry existing entry)) journal

/-- `Exclude<BusinessConfirmation, 'pending'>` -/
inductive CompletedBusinessConfirmation where
  | confirmed
  | rejected
  | mismatch
  | timeout
  deriving DecidableEq

/-- The verdict as a `BusinessConfirmation`. -/
def CompletedBusinessConfirmation.confirmation :
    CompletedBusinessConfirmation → BusinessConfirmation
  | .confirmed => .confirmed
  | .rejected => .rejected
  | .mismatch => .mismatch
  | .timeout => .timeout

theorem CompletedBusinessConfirmation.confirmation_ne_pending
    (confirmation : CompletedBusinessConfirmation) : confirmation.confirmation ≠ .pending := by
  cases confirmation <;> decide

theorem CompletedBusinessConfirmation.confirmation_eq_timeout
    {confirmation : CompletedBusinessConfirmation} :
    confirmation.confirmation = .timeout ↔ confirmation = .timeout := by
  cases confirmation <;> decide

/-- Whether a verdict rests on evidence, and on which side it comes down. -/
def CompletedBusinessConfirmation.verdict : CompletedBusinessConfirmation → Option Bool
  | .confirmed => some true
  | .rejected => some false
  | _ => none

/-- The checks of `setBusinessConfirmation` on evidence. -/
def checkEvidence (existing : StoredOperation) (business : OperationBusinessContext)
    (confirmation : CompletedBusinessConfirmation) :
    Option BusinessEvidence → Except Thrown Unit
  | none => .ok ()
  | some evidence => do
      let txHash := (existing.txHash.filter fun txHash => !txHash.isEmpty).map toLowerCase
      ensure (txHash.all fun txHash => evidence.transactionHash == txHash)
        (.error (js "OPERATION_BUSINESS_EVIDENCE_MISMATCH"))
      ensure (existing.ledgerIndex == some evidence.ledgerIndex)
        (.error (js "OPERATION_BUSINESS_EVIDENCE_MISMATCH"))
      ensure (confirmation.verdict.all fun confirmed => txHash.all fun txHash =>
          evidenceSupportsBusinessResult business confirmed evidence txHash)
        (.error (js "OPERATION_BUSINESS_EVIDENCE_MISMATCH"))

/-- What `setBusinessConfirmation` makes of an operation. -/
def confirmOperation (B : Browser) (confirmation : CompletedBusinessConfirmation)
    (atTime : JsString) (evidence : JsValue) (existing : StoredOperation) :
    Except Thrown StoredOperation :=
  match existing.business with
  | none => failError (js "OPERATION_BUSINESS_CONTEXT_REQUIRED")
  | some stored => do
      let business ← validateOperationBusinessContext B stored.toJs
      ensure (isConfirmableBusinessContext (some business))
        (.error (js "OPERATION_BUSINESS_CONTEXT_REQUIRED"))
      ensure existing.succeeded (.error (js "OPERATION_XRPL_SUCCESS_REQUIRED"))
      ensure existing.validatedIndex.isSome (.error (js "OPERATION_XRPL_LEDGER_INDEX_REQUIRED"))
      let normalizedEvidence ← validateWhen evidence.truthy (validateBusinessEvidence evidence)
      ensure (confirmation.verdict.isNone || normalizedEvidence.isSome)
        (.error (js "OPERATION_BUSINESS_EVIDENCE_REQUIRED"))
      checkEvidence existing business confirmation normalizedEvidence
      pure { existing with
        updatedAt := atTime
        businessConfirmation := some confirmation.confirmation
        businessEvidence := normalizedEvidence.or existing.businessEvidence }

/-- `setBusinessConfirmation` -/
def setBusinessConfirmation (B : Browser) (operationId : JsString)
    (confirmation : CompletedBusinessConfirmation) (atTime : JsString) (evidence : JsValue)
    (journal : OperationJournal) : Except Thrown OperationJournal :=
  mutate operationId (confirmOperation B confirmation atTime evidence) journal

/-- `abandon` -/
def abandon (operationId : JsString) (journal : OperationJournal) :
    Except Thrown OperationJournal :=
  match journal.get operationId with
  | none => failError (js "OPERATION_NOT_FOUND")
  | some existing => do
      ensure (canAbandonOperation existing) (.error (js "OPERATION_ABANDON_NOT_ALLOWED"))
      pure (journal.delete operationId)

/-- A write that a tab asks for. -/
inductive JournalEvent where
  | create (seed : OperationSeed)
  | persistSigned (record : SignedOperationRecord)
  | append (entry : SubmissionJournalEntry)
  | setBusinessConfirmation (operationId : JsString)
      (confirmation : CompletedBusinessConfirmation) (atTime : JsString) (evidence : JsValue)
  | abandon (operationId : JsString)

/-- What the store makes of a write. -/
def perform (B : Browser) : JournalEvent → OperationJournal → Except Thrown OperationJournal
  | .create seed => create B seed
  | .persistSigned record => persistSigned B record
  | .append entry => append entry
  | .setBusinessConfirmation operationId confirmation atTime evidence =>
      setBusinessConfirmation B operationId confirmation atTime evidence
  | .abandon operationId => abandon operationId

/-- One step of the store: a write is done, or it is refused or aborted and nothing changes. -/
inductive JournalStep (B : Browser) : OperationJournal → JournalEvent → OperationJournal → Prop
  | done {journal journal' : OperationJournal} {event : JournalEvent}
      (h : perform B event journal = .ok journal') : JournalStep B journal event journal'
  | refused (journal : OperationJournal) (event : JournalEvent) :
      JournalStep B journal event journal

theorem validateWhen_eq_ok {α : Type} {condition : Bool} {validated : Except Thrown α}
    {r : Option α} : validateWhen condition validated = .ok r ↔
      condition = false ∧ r = none ∨ condition = true ∧ ∃ a, validated = .ok a ∧ r = some a := by
  cases condition with
  | false =>
      show Except.ok none = .ok r ↔ _
      simp [eq_comm]
  | true =>
      cases validated with
      | error error =>
          show Except.error error = .ok r ↔ _
          simp
      | ok a =>
          show Except.ok (some a) = .ok r ↔ _
          simp [eq_comm]

/-- An operation whose submission is over takes no further entries. -/
theorem applyJournalEntry_of_terminal {operation : StoredOperation}
    (h : isTerminal operation.stage = true) (entry : SubmissionJournalEntry) :
    applyJournalEntry operation entry = operation :=
  if_pos h

@[simp] theorem applyJournalEntry_operationId (operation : StoredOperation)
    (entry : SubmissionJournalEntry) :
    (applyJournalEntry operation entry).operationId = operation.operationId := by
  unfold applyJournalEntry
  split <;> rfl

/-! ## What the validators accept again -/

/-- What reading a spread member gives. -/
def readMember (value : Option JsValue) : JsValue :=
  value.getD .undefined

theorem optionalDigest_stable {input : JsValue} {code code' : JsString} {r : Option JsString}
    (h : optionalDigest input code = .ok r) :
    optionalDigest (readMember (r.map .str)) code' = .ok r := by
  unfold optionalDigest at h
  split at h
  · cases h
    rfl
  · split_ifs at h with hhash
    · cases h
      have hlower := isLowerHash_toLowerCase hhash
      show (if isHash _ then _ else _) = _
      rw [if_pos (isHash_of_isLowerHash hlower), toLowerCase_of_isLowerHash hlower]
    · cases h
  · cases h

theorem optionalExpiration_stable {B : Browser} {input : JsValue} {r : Option JsString}
    (h : optionalExpiration B input = .ok r) :
    optionalExpiration B (readMember (r.map .str)) = .ok r := by
  unfold optionalExpiration at h
  split at h
  · cases h
    rfl
  · split_ifs at h with hdate
    · cases h
    · cases h
      exact if_neg hdate
  · cases h

theorem optionalPublisher_stable {P : Platform} {input : JsValue} {r : Option JsString}
    (h : optionalPublisher P input = .ok r) :
    optionalPublisher P (readMember (r.map .str)) = .ok r := by
  unfold optionalPublisher at h
  split at h
  · cases h
    rfl
  · split_ifs at h with hvalid
    · cases h
      exact if_pos hvalid
    · cases h
  · cases h

theorem optionalCredentialUri_stable {P : Platform} {input : JsValue} {r : Option JsString}
    (h : optionalCredentialUri P input = .ok r) :
    optionalCredentialUri P (readMember (r.map .str)) = .ok r := by
  unfold optionalCredentialUri at h
  split at h
  · cases h
    rfl
  · split at h
    · rename_i huri
      cases h
      show (match parsePayloadUri P _ with | .ok _ => _ | .error _ => _) = _
      rw [huri]
    · cases h
  · cases h

theorem safeInteger_ofNat {v : JsValue} {n : ℕ} (h : safeInteger v = some n) :
    safeInteger (.num (JsNumber.ofNat n)) = some n := by
  cases v with
  | num m =>
      obtain ⟨-, hle⟩ := Option.filter_eq_some_iff.mp h
      rw [decide_eq_true_eq] at hle
      rw [safeInteger, JsNumber.toNat?_ofNat (by omega), Option.filter_some, if_pos]
      exact decide_eq_true hle
  | _ => cases h

theorem positiveSafeInteger_ofNat {v : JsValue} {n : ℕ} (h : positiveSafeInteger v = some n) :
    positiveSafeInteger (.num (JsNumber.ofNat n)) = some n := by
  obtain ⟨hsafe, hpos⟩ := Option.filter_eq_some_iff.mp h
  rw [positiveSafeInteger, safeInteger_ofNat hsafe, Option.filter_some, if_pos hpos]

theorem optionalMemoByteLength_stable {input : JsValue} {r : Option ℕ}
    (h : optionalMemoByteLength input = .ok r) :
    optionalMemoByteLength (readMember (r.map fun n => .num (JsNumber.ofNat n))) = .ok r := by
  unfold optionalMemoByteLength at h
  split_ifs at h with hundefined
  · cases h
    rfl
  · split at h
    · rename_i n hn
      cases h
      show (match positiveSafeInteger (.num (JsNumber.ofNat n)) with
        | some n => _ | none => _) = _
      rw [positiveSafeInteger_ofNat hn]
    · cases h

theorem credentialAddress_stable {P : Platform} {input : JsValue} {r : JsString}
    (h : credentialAddress P input = .ok r) : credentialAddress P (.str r) = .ok r := by
  unfold credentialAddress at h
  split at h
  · split_ifs at h with hvalid
    · cases h
      exact if_pos hvalid
    · cases h
  · cases h

theorem requiredHash_stable {input : JsValue} {code code' r : JsString}
    (h : requiredHash input code = .ok r) : requiredHash (.str r) code' = .ok r := by
  unfold requiredHash at h
  split at h
  · split_ifs at h with hhash
    · cases h
      show (if isLowerHash (toLowerCase _) then _ else _) = _
      rw [toLowerCase_of_isLowerHash hhash, if_pos hhash]
    · cases h
  · cases h

theorem evidenceHash_stable {input : JsValue} {code code' r : JsString}
    (h : evidenceHash input code = .ok r) : evidenceHash (.str r) code' = .ok r := by
  unfold evidenceHash at h
  split at h
  · split_ifs at h with hhash
    · cases h
      have hlower := isLowerHash_toLowerCase hhash
      show (if isHash _ then _ else _) = _
      rw [if_pos (isHash_of_isLowerHash hlower), toLowerCase_of_isLowerHash hlower]
    · cases h
  · cases h

theorem evidenceInteger_eq_ok {value : Option ℕ} {code : JsString} {n : ℕ} :
    evidenceInteger value code = .ok n ↔ value = some n := by
  cases value with
  | none => exact ⟨nofun, nofun⟩
  | some m => exact ⟨fun h => congrArg some (Except.ok.inj h), fun h => congrArg Except.ok
      (Option.some.inj h)⟩

theorem optionalReasonCode_stable {input : JsValue} {r : Option JsString}
    (h : optionalReasonCode input = .ok r) :
    optionalReasonCode (readMember (r.map .str)) = .ok r := by
  unfold optionalReasonCode at h
  split at h
  · cases h
    rfl
  · split_ifs at h with hcode
    · cases h
      exact if_pos hcode
    · cases h
  · cases h

theorem optionalEventType_stable (r : Option CredentialEventType) :
    optionalEventType (readMember (r.map fun type => .str type.text)) = .ok r := by
  rcases r with _ | type
  · rfl
  · cases type <;> decide

theorem optionalAccepted_stable (r : Option Bool) :
    optionalAccepted (readMember (r.map .bool)) = .ok r := by
  cases r <;> rfl

theorem businessDeletionCause_text (cause : CredentialDeletionCause) :
    businessDeletionCause (.str cause.text) = some cause := by
  cases cause <;> decide

theorem evidenceDeletionCause_stable {eventType : Option CredentialEventType} {input : JsValue}
    {r : Option (Option CredentialDeletionCause)}
    (h : evidenceDeletionCause eventType input = .ok r) :
    evidenceDeletionCause eventType
      (readMember (r.map fun cause => (cause.map fun c => .str c.text).getD .null)) = .ok r := by
  unfold evidenceDeletionCause at h
  split at h
  · split at h
    · rename_i cause hcause
      cases h
      show (match businessDeletionCause (.str cause.text) with | some cause => _ | none => _) = _
      rw [businessDeletionCause_text]
    · cases h
  · rename_i type hdeleted
    cases h
    cases type
    · rfl
    · rfl
    · exact absurd rfl hdeleted
  · cases h
    rfl
  · cases h

/-! ## Reading back -/

theorem lookup_spreadMember (key key' : JsString) (value : Option JsValue) :
    (spreadMember key' value).lookup key = if key = key' then value else none := by
  cases value with
  | none => exact (ite_self _).symm
  | some v =>
      show List.lookup key [(key', v)] = _
      rw [List.lookup_cons]
      by_cases h : key = key'
      · rw [if_pos h, beq_iff_eq.mpr h]
      · rw [if_neg h, beq_eq_false_iff_ne.mpr h]
        rfl

theorem lookup_spread (key key' : JsString) (value : Option JsValue) (members : Members) :
    (spreadMember key' value ++ members).lookup key
      = if key = key' then value.or (members.lookup key) else members.lookup key := by
  rw [List.lookup_append, lookup_spreadMember]
  by_cases h : key = key'
  · rw [if_pos h, if_pos h]
  · rw [if_neg h, if_neg h, Option.none_or]

/-- Reading a member of an object that is written member by member. -/
theorem get_cons (key key' : JsString) (value : JsValue) (members : Members) :
    (JsValue.obj ((key', value) :: members)).get key
      = if key = key' then value else readMember (members.lookup key) := by
  rw [JsValue.get_obj, List.lookup_cons]
  by_cases h : key = key'
  · rw [if_pos h, beq_iff_eq.mpr h]
    rfl
  · rw [if_neg h, beq_eq_false_iff_ne.mpr h]
    rfl

theorem lookup_cons_member (key key' : JsString) (value : JsValue) (members : Members) :
    List.lookup key ((key', value) :: members)
      = if key = key' then some value else members.lookup key := by
  rw [List.lookup_cons]
  by_cases h : key = key'
  · rw [if_pos h, beq_iff_eq.mpr h]
  · rw [if_neg h, beq_eq_false_iff_ne.mpr h]

/-- **A validated context is its own normal form.** -/
theorem validateOperationBusinessContext_stable {B : Browser} {input : JsValue}
    {business : OperationBusinessContext}
    (h : validateOperationBusinessContext B input = .ok business) :
    validateOperationBusinessContext B business.toJs = .ok business := by
  unfold validateOperationBusinessContext at h
  split at h
  · dsimp only at h
    split_ifs at h
    · simp only [validateSchemaContext, bind_eq_ok, pure_eq_ok] at h
      obtain ⟨publisher, hpublisher, digest, hdigest, length, hlength, rfl⟩ := h
      have hkey : validateOperationBusinessContext B
          (OperationBusinessContext.schemaRegister publisher digest length).toJs
          = validateSchemaContext B
            (OperationBusinessContext.schemaRegister publisher digest length).toJs := rfl
      rw [hkey]
      simp +decide only [validateSchemaContext, bind_eq_ok, pure_eq_ok,
        OperationBusinessContext.toJs, get_cons, lookup_spread, lookup_spreadMember,
        List.append_assoc, if_true, if_false, Option.or_none]
      exact ⟨_, optionalPublisher_stable hpublisher, _, optionalDigest_stable hdigest, _,
        optionalMemoByteLength_stable hlength, rfl⟩
    · simp only [validateIssueContext, bind_eq_ok, pure_eq_ok] at h
      obtain ⟨issuer, hissuer, subject, hsubject, uid, huid, digest, hdigest, uri, huri, date,
        hdate, rfl⟩ := h
      have hkey : validateOperationBusinessContext B
          (OperationBusinessContext.credentialIssue issuer subject uid uri digest date).toJs
          = validateIssueContext B
            (OperationBusinessContext.credentialIssue issuer subject uid uri digest date).toJs :=
        rfl
      rw [hkey]
      simp +decide only [validateIssueContext, bind_eq_ok, pure_eq_ok,
        OperationBusinessContext.toJs, get_cons, lookup_cons_member, lookup_spread,
        lookup_spreadMember, List.append_assoc, if_true, if_false, Option.or_none]
      exact ⟨_, credentialAddress_stable hissuer, _, credentialAddress_stable hsubject, _,
        requiredHash_stable huid, _, optionalDigest_stable hdigest, _,
        optionalCredentialUri_stable huri, _, optionalExpiration_stable hdate, rfl⟩
    · split at h
      · rename_i action haction
        simp only [validateGenerationContext, bind_eq_ok, pure_eq_ok] at h
        obtain ⟨issuer, hissuer, subject, hsubject, uid, huid, digest, hdigest, generation,
          hgeneration, rfl⟩ := h
        have hkey : validateOperationBusinessContext B
            (OperationBusinessContext.generationBound action issuer subject uid generation
              digest).toJs
            = validateGenerationContext B action
              (OperationBusinessContext.generationBound action issuer subject uid generation
                digest).toJs := by
          cases action <;> rfl
        rw [hkey]
        simp +decide only [validateGenerationContext, bind_eq_ok, pure_eq_ok,
          OperationBusinessContext.toJs, get_cons, lookup_cons_member, lookup_spreadMember, if_true,
          if_false]
        exact ⟨_, credentialAddress_stable hissuer, _, credentialAddress_stable hsubject, _,
          requiredHash_stable huid, _, optionalDigest_stable hdigest, _,
          requiredHash_stable hgeneration, rfl⟩
      · cases h
  · cases h

/-- **Validated evidence is its own normal form.** -/
theorem validateBusinessEvidence_stable {input : JsValue} {evidence : BusinessEvidence}
    (h : validateBusinessEvidence input = .ok evidence) :
    validateBusinessEvidence evidence.toJs = .ok evidence := by
  unfold validateBusinessEvidence at h
  split at h
  · simp only [bind_eq_ok, pure_eq_ok] at h
    obtain ⟨hash, hhash, index, hindex, ledgerHash, hledgerHash, txIndex, htxIndex, uid, huid,
      generation, hgeneration, reason, hreason, type, htype, accepted, haccepted, cause, hcause,
      rfl⟩ := h
    rw [evidenceInteger_eq_ok] at hindex htxIndex
    simp +decide only [validateBusinessEvidence, bind_eq_ok, pure_eq_ok, BusinessEvidence.toJs,
      get_cons, lookup_cons_member, lookup_spread, lookup_spreadMember, List.append_assoc,
      if_true, if_false, Option.or_none, evidenceInteger_eq_ok]
    exact ⟨_, evidenceHash_stable hhash, _, positiveSafeInteger_ofNat hindex, _,
      evidenceHash_stable hledgerHash, _, safeInteger_ofNat htxIndex, _,
      optionalDigest_stable huid, _, optionalDigest_stable hgeneration, _,
      optionalReasonCode_stable hreason, _, optionalEventType_stable type, _,
      optionalAccepted_stable accepted, _, evidenceDeletionCause_stable hcause, rfl⟩
  · cases h

end Web
end Xcs
