import Xcs.Web.JournalRuns

/-!
# What the indexer says of an operation

After a transaction is validated, the browser asks the API what the indexer made of it, and takes
the answer as evidence for or against the operation.  The answer is judged three times, by code that
was written three times: `inspectIndexedBusinessEvidence` derives a verdict with its evidence,
`evidenceSupportsBusinessResult` decides in the journal whether the evidence bears the verdict, and
`inspectCredentialOperationEvent` judges the events of a credential by itself.

* `supports_of_inspected` and `validateBusinessEvidence_of_ledger` say that the journal takes
  what the inspection derives.
* `inspectCredentialOperationEvent_of_inspected` says that the third judge agrees.
* `inspected_evidence_accepted` puts them together.
-/

namespace Xcs
namespace Web

open Js Xcs.Core Sdk Indexer

variable {B : Browser}

/-! ## Reading a response -/

/-- The message of a response that is not understood. -/
def responseInvalid : JsString :=
  js "BUSINESS_EVIDENCE_RESPONSE_INVALID"

/-- `typeof value === 'string'`, and the text. -/
def requiredText (input : JsValue) (errorCode : JsString) : Except Thrown JsString :=
  match input with
  | .str s => .ok s
  | _ => failError errorCode

/-- `typeof value === 'boolean'`, and the value. -/
def requiredBoolean (input : JsValue) (errorCode : JsString) : Except Thrown Bool :=
  match input with
  | .bool b => .ok b
  | _ => failError errorCode

/-- `isRecord(value)` -/
def isRecord : JsValue → Bool
  | .obj _ => true
  | _ => false

/-- `InspectedEvidence` -/
inductive InspectedEvidence where
  | pending
  | mismatch
  | verdict (confirmed : Bool) (evidence : BusinessEvidence)
  deriving DecidableEq

/-- `responseHash` -/
def responseHash (input : JsValue) (expectedHash : JsString) : Except Thrown JsString := do
  let hash ← evidenceHash (input.get (js "transactionHash")) responseInvalid
  ensure (hash == toLowerCase expectedHash) (.error responseInvalid)
  pure hash

/-- `requiredLedgerEvidence`; the members it does not pick are absent. -/
def requiredLedgerEvidence (input : JsValue) (transactionHash : JsString) :
    Except Thrown BusinessEvidence := do
  let ledgerIndex ← evidenceInteger (positiveSafeInteger (input.get (js "ledgerIndex")))
    responseInvalid
  let ledgerHash ← evidenceHash (input.get (js "ledgerHash")) responseInvalid
  let transactionIndex ← evidenceInteger (safeInteger (input.get (js "transactionIndex")))
    responseInvalid
  pure
    { transactionHash := transactionHash
      ledgerIndex := ledgerIndex
      ledgerHash := ledgerHash
      transactionIndex := transactionIndex
      schemaUid := none
      generationId := none
      reasonCode := none
      eventType := none
      accepted := none
      deletionCause := none }

/-! ## Registrations -/

/-- The check of `registration.status`: whether it is `'accepted'`. -/
def registrationAccepted (status : JsValue) : Except Thrown Bool :=
  if status.isStr (js "accepted") then .ok true
  else if status.isStr (js "rejected") then .ok false
  else failError responseInvalid

/-- The branch of `inspectSchemaRegistration` for a rejected registration. -/
def inspectRejectedRegistration (registration : JsValue) (ledger : BusinessEvidence) :
    Except Thrown InspectedEvidence := do
  ensure (registration.get (js "schemaUid")).isNull (.error responseInvalid)
  ensure (registration.get (js "schemaDigestHex")).isNull (.error responseInvalid)
  let reasonCode ← requiredText (registration.get (js "reasonCode")) responseInvalid
  ensure (matchesReasonCode reasonCode) (.error responseInvalid)
  pure (.verdict false { ledger with reasonCode := some reasonCode })

/-- The branch of `inspectSchemaRegistration` for an accepted registration. -/
def inspectAcceptedRegistration (registration : JsValue) (schemaDigestHex : Option JsString)
    (ledger : BusinessEvidence) : Except Thrown InspectedEvidence := do
  let schemaUid ← evidenceHash (registration.get (js "schemaUid")) responseInvalid
  let digest ← evidenceHash (registration.get (js "schemaDigestHex")) responseInvalid
  ensure (registration.get (js "reasonCode")).isNull (.error responseInvalid)
  if some digest != schemaDigestHex then pure .mismatch
  else pure (.verdict true { ledger with schemaUid := some schemaUid })

/-- `inspectSchemaRegistration`, for the two members of the context that it reads. -/
def inspectSchemaRegistration (input : JsValue) (publisher schemaDigestHex : Option JsString)
    (txHash : JsString) : Except Thrown InspectedEvidence := do
  ensure (isRecord input) (.error responseInvalid)
  let transactionHash ← responseHash input txHash
  let registration := input.get (js "registration")
  if registration.isNull then pure .pending
  else do
    ensure (isRecord registration) (.error responseInvalid)
    let accepted ← registrationAccepted (registration.get (js "status"))
    let registrant ← requiredText (registration.get (js "publisher")) responseInvalid
    if some registrant != publisher then pure .mismatch
    else do
      let ledger ← requiredLedgerEvidence registration transactionHash
      if accepted then inspectAcceptedRegistration registration schemaDigestHex ledger
      else inspectRejectedRegistration registration ledger

/-! ## Events -/

/-- The check of `event.eventType`. -/
def requiredEventType (input : JsValue) : Except Thrown CredentialEventType :=
  match eventTypeOf input with
  | some type => .ok type
  | none => failError responseInvalid

/-- The check of `event.deletionCause`: a deletion has a cause, another event has `null`. -/
def eventDeletionCause (eventType : CredentialEventType) (input : JsValue) :
    Except Thrown (Option CredentialDeletionCause) :=
  match eventType, input with
  | .deleted, input =>
      match businessDeletionCause input with
      | some cause => .ok (some cause)
      | none => failError responseInvalid
  | _, .null => .ok none
  | _, _ => failError responseInvalid

/-- A credential event that passed the checks of its members, its hashes in lowercase. -/
structure InspectedEvent where
  transactionHash : JsString
  issuer : JsString
  subject : JsString
  schemaUid : JsString
  generationId : JsString
  eventType : CredentialEventType
  accepted : Bool
  deletionCause : Option CredentialDeletionCause

/-- The checks of `inspectCredentialEvent` on the members of the event. -/
def readEvent (event : JsValue) : Except Thrown InspectedEvent := do
  let transactionHash ← evidenceHash (event.get (js "transactionHash")) responseInvalid
  let issuer ← requiredText (event.get (js "issuer")) responseInvalid
  let subject ← requiredText (event.get (js "subject")) responseInvalid
  let schemaUid ← evidenceHash (event.get (js "schemaUid")) responseInvalid
  let generationId ← evidenceHash (event.get (js "generationId")) responseInvalid
  let eventType ← requiredEventType (event.get (js "eventType"))
  let accepted ← requiredBoolean (event.get (js "accepted")) responseInvalid
  let deletionCause ← eventDeletionCause eventType (event.get (js "deletionCause"))
  pure ⟨transactionHash, issuer, subject, schemaUid, generationId, eventType, accepted,
    deletionCause⟩

/-- The `expectedEventType` of an action on a generation, in the two inspections. -/
def GenerationAction.eventType : GenerationAction → CredentialEventType
  | .accept => .accepted
  | _ => .deleted

/-- The `expectedDeletionCause` of an action on a generation, in the two inspections; `none` is
`undefined`. -/
def GenerationAction.deletionCause (issuer subject : JsString) :
    GenerationAction → Option CredentialDeletionCause
  | .reject => some .subjectRejected
  | .remove => if issuer = subject then some .issuerRevoked else some .subjectRemoved
  | .revoke => some .issuerRevoked
  | .accept => none

/-- The condition of an action on `event.accepted`, in the two inspections. -/
def GenerationAction.acceptedAsExpected (accepted : Bool) (action : GenerationAction) : Bool :=
  if action = .reject then accepted == false
  else (action != .accept && action != .remove) || accepted == true

/-- `confirmed` in `inspectCredentialEvent`. -/
def InspectedEvent.confirms (event : InspectedEvent) (transactionHash : JsString) :
    OperationBusinessContext → Bool
  | .schemaRegister .. => false
  | .credentialIssue issuer subject .. =>
      event.eventType == .created && event.generationId == transactionHash
        && event.accepted == (issuer == subject)
  | .generationBound action issuer subject _ generationId _ =>
      event.generationId == generationId && event.eventType == action.eventType
        && action.acceptedAsExpected event.accepted
        && (action.deletionCause issuer subject).all fun cause =>
          event.deletionCause == some cause

/-- `inspectCredentialEvent`, for a context with the given credential. -/
def inspectCredentialEvent (input : JsValue) (business : OperationBusinessContext)
    (issuer subject schemaUid txHash : JsString) : Except Thrown InspectedEvidence := do
  ensure (isRecord input) (.error responseInvalid)
  let transactionHash ← responseHash input txHash
  let event := input.get (js "event")
  if event.isNull then pure .pending
  else do
    ensure (isRecord event) (.error responseInvalid)
    let read ← readEvent event
    if read.transactionHash != transactionHash || read.issuer != issuer || read.subject != subject
      || read.schemaUid != schemaUid then pure .mismatch
    else if !read.confirms transactionHash business then pure .mismatch
    else do
      let ledger ← requiredLedgerEvidence event transactionHash
      pure (.verdict true { ledger with
        schemaUid := some read.schemaUid
        generationId := some read.generationId
        eventType := some read.eventType
        accepted := some read.accepted
        deletionCause := some read.deletionCause })

/-- `inspectIndexedBusinessEvidence` -/
def inspectIndexedBusinessEvidence (input : JsValue) (business : OperationBusinessContext)
    (txHash : JsString) : Except Thrown InspectedEvidence := do
  ensure (isConfirmableBusinessContext (some business))
    (.error (js "OPERATION_BUSINESS_CONTEXT_INCOMPLETE"))
  match business with
  | .schemaRegister publisher schemaDigestHex _ =>
      inspectSchemaRegistration input publisher schemaDigestHex txHash
  | .credentialIssue issuer subject schemaUid .. =>
      inspectCredentialEvent input business issuer subject schemaUid txHash
  | .generationBound _ issuer subject schemaUid .. =>
      inspectCredentialEvent input business issuer subject schemaUid txHash

/-! ## The events of a credential under review -/

/-- `ExpectedCredentialGeneration` -/
structure ExpectedCredentialGeneration where
  action : GenerationAction
  issuer : JsString
  subject : JsString
  schemaUid : JsString
  generationId : JsString

/-- The state of an operation that waits for its event. -/
inductive OperationEventState where
  | confirmed
  | pending
  | mismatch
  deriving DecidableEq

/-- The message of an event response that is not understood. -/
def eventResponseInvalid : JsString :=
  js "CREDENTIAL_EVENT_RESPONSE_INVALID"

/-- `confirmed` in `inspectCredentialOperationEvent`; the members that are not checked before are
compared as they are. -/
def confirmsOperation (event : JsValue) (eventType : JsString) (accepted : Bool)
    (expected : ExpectedCredentialGeneration) : Bool :=
  (match event.get (js "generationId") with
    | .str generationId => toLowerCase generationId == toLowerCase expected.generationId
    | _ => false)
    && eventType == expected.action.eventType.text
    && expected.action.acceptedAsExpected accepted
    && (expected.action.deletionCause expected.issuer expected.subject).all fun cause =>
      (event.get (js "deletionCause")).isStr cause.text

/-- `inspectCredentialOperationEvent` -/
def inspectCredentialOperationEvent (input : JsValue) (expected : ExpectedCredentialGeneration)
    (txHash : JsString) : Except Thrown OperationEventState := do
  ensure (isRecord input) (.error eventResponseInvalid)
  let transactionHash ← evidenceHash (input.get (js "transactionHash")) eventResponseInvalid
  ensure (transactionHash == toLowerCase txHash) (.error eventResponseInvalid)
  let event := input.get (js "event")
  if event.isNull then pure .pending
  else do
    ensure (isRecord event) (.error eventResponseInvalid)
    let eventHash ← evidenceHash (event.get (js "transactionHash")) eventResponseInvalid
    let issuer ← requiredText (event.get (js "issuer")) eventResponseInvalid
    let subject ← requiredText (event.get (js "subject")) eventResponseInvalid
    let schemaUid ← evidenceHash (event.get (js "schemaUid")) eventResponseInvalid
    let eventType ← requiredText (event.get (js "eventType")) eventResponseInvalid
    let accepted ← requiredBoolean (event.get (js "accepted")) eventResponseInvalid
    if eventHash != toLowerCase txHash || issuer != expected.issuer
      || subject != expected.subject || schemaUid != toLowerCase expected.schemaUid then
      pure .mismatch
    else if confirmsOperation event eventType accepted expected then pure .confirmed
    else pure .mismatch

/-! ## The evidence of a verdict -/

theorem evidenceHash_eq_ok {input : JsValue} {code r : JsString}
    (h : evidenceHash input code = .ok r) :
    ∃ s, input = .str s ∧ isHash s = true ∧ r = toLowerCase s := by
  unfold evidenceHash at h
  split at h
  · rename_i s
    split_ifs at h with hhash
    · cases h
      exact ⟨s, rfl, hhash, rfl⟩
    · cases h
  · cases h

/-- The check of a hash is the same under another message. -/
theorem evidenceHash_code {input : JsValue} {code r : JsString} (code' : JsString)
    (h : evidenceHash input code = .ok r) : evidenceHash input code' = .ok r := by
  obtain ⟨s, rfl, hhash, rfl⟩ := evidenceHash_eq_ok h
  exact if_pos hhash

theorem evidenceHash_isLowerHash {input : JsValue} {code r : JsString}
    (h : evidenceHash input code = .ok r) : isLowerHash r = true := by
  obtain ⟨s, -, hhash, rfl⟩ := evidenceHash_eq_ok h
  exact isLowerHash_toLowerCase hhash

theorem evidenceHash_of_isLowerHash {s : JsString} (h : isLowerHash s = true) (code : JsString) :
    evidenceHash (.str s) code = .ok s := by
  show (if isHash s then _ else _) = _
  rw [if_pos (isHash_of_isLowerHash h), toLowerCase_of_isLowerHash h]

theorem optionalDigest_of_isLowerHash {s : JsString} (h : isLowerHash s = true)
    (code : JsString) : optionalDigest (readMember (some (.str s))) code = .ok (some s) := by
  show (if isHash s then _ else _) = _
  rw [if_pos (isHash_of_isLowerHash h), toLowerCase_of_isLowerHash h]

theorem requiredText_eq_ok {input : JsValue} {code r : JsString} :
    requiredText input code = .ok r ↔ input = .str r := by
  cases input with
  | str s => exact ⟨fun h => congrArg JsValue.str (Except.ok.inj h), fun h => congrArg Except.ok
      (JsValue.str.inj h)⟩
  | _ => exact ⟨nofun, nofun⟩

theorem requiredBoolean_eq_ok {input : JsValue} {code : JsString} {r : Bool} :
    requiredBoolean input code = .ok r ↔ input = .bool r := by
  cases input with
  | bool b => exact ⟨fun h => congrArg JsValue.bool (Except.ok.inj h), fun h => congrArg Except.ok
      (JsValue.bool.inj h)⟩
  | _ => exact ⟨nofun, nofun⟩

theorem responseHash_eq_ok {input : JsValue} {expectedHash hash : JsString}
    (h : responseHash input expectedHash = .ok hash) :
    evidenceHash (input.get (js "transactionHash")) responseInvalid = .ok hash ∧
      hash = toLowerCase expectedHash := by
  simp only [responseHash, bind_eq_ok, ensure_eq_ok, pure_eq_ok, beq_iff_eq] at h
  obtain ⟨hash', hhash, -, heq, rfl⟩ := h
  exact ⟨hhash, heq⟩

theorem requiredLedgerEvidence_eq_ok {input : JsValue} {transactionHash : JsString}
    {ledger : BusinessEvidence} (h : requiredLedgerEvidence input transactionHash = .ok ledger) :
    ∃ index ledgerHash txIndex,
      positiveSafeInteger (input.get (js "ledgerIndex")) = some index ∧
      evidenceHash (input.get (js "ledgerHash")) responseInvalid = .ok ledgerHash ∧
      safeInteger (input.get (js "transactionIndex")) = some txIndex ∧
      ledger
        = ⟨transactionHash, index, ledgerHash, txIndex, none, none, none, none, none, none⟩ := by
  simp only [requiredLedgerEvidence, bind_eq_ok, pure_eq_ok, evidenceInteger_eq_ok] at h
  obtain ⟨index, hindex, ledgerHash, hledgerHash, txIndex, htxIndex, rfl⟩ := h
  exact ⟨index, ledgerHash, txIndex, hindex, hledgerHash, htxIndex, rfl⟩

/-- What is asked of a text that is present holds where none is. -/
theorem forall_mem_none {P : JsString → Prop} : ∀ s ∈ (none : Option JsString), P s :=
  fun s h => absurd h (Option.not_mem_none s)

/-- **The journal takes what is built on the ledger members of a response**, if the other members
are in the form it stores. -/
theorem validateBusinessEvidence_of_ledger {input : JsValue} {transactionHash : JsString}
    {ledger : BusinessEvidence} (hhash : isLowerHash transactionHash = true)
    (h : requiredLedgerEvidence input transactionHash = .ok ledger)
    {schemaUid generationId reasonCode : Option JsString}
    {eventType : Option CredentialEventType} {accepted : Option Bool}
    {deletionCause : Option (Option CredentialDeletionCause)} {cause : JsValue}
    (huid : ∀ s ∈ schemaUid, isLowerHash s = true)
    (hgeneration : ∀ s ∈ generationId, isLowerHash s = true)
    (hreason : ∀ s ∈ reasonCode, matchesReasonCode s = true)
    (hcause : evidenceDeletionCause eventType cause = .ok deletionCause) :
    validateBusinessEvidence ({ ledger with
      schemaUid := schemaUid
      generationId := generationId
      reasonCode := reasonCode
      eventType := eventType
      accepted := accepted
      deletionCause := deletionCause } : BusinessEvidence).toJs = .ok { ledger with
        schemaUid := schemaUid
        generationId := generationId
        reasonCode := reasonCode
        eventType := eventType
        accepted := accepted
        deletionCause := deletionCause } := by
  obtain ⟨index, ledgerHash, txIndex, hindex, hledgerHash, htxIndex, rfl⟩ :=
    requiredLedgerEvidence_eq_ok h
  have hdigest : ∀ (value : Option JsString), (∀ s ∈ value, isLowerHash s = true) → ∀ code,
      optionalDigest (readMember (value.map .str)) code = .ok value := by
    intro value hvalue code
    cases value with
    | none => rfl
    | some s => exact optionalDigest_of_isLowerHash (hvalue s rfl) code
  have hcode : optionalReasonCode (readMember (reasonCode.map .str)) = .ok reasonCode := by
    cases reasonCode with
    | none => rfl
    | some s => exact if_pos (hreason s rfl)
  simp +decide only [validateBusinessEvidence, bind_eq_ok, pure_eq_ok, BusinessEvidence.toJs,
    get_cons, lookup_cons_member, lookup_spread, lookup_spreadMember, List.append_assoc,
    if_true, if_false, Option.or_none, evidenceInteger_eq_ok]
  exact ⟨_, evidenceHash_of_isLowerHash hhash _, _, positiveSafeInteger_ofNat hindex, _,
    evidenceHash_stable hledgerHash, _, safeInteger_ofNat htxIndex, _, hdigest schemaUid huid _, _,
    hdigest generationId hgeneration _, _, hcode, _, optionalEventType_stable eventType, _,
    optionalAccepted_stable accepted, _, evidenceDeletionCause_stable hcause, rfl⟩

/-- What a registration response that comes to a verdict says. -/
theorem inspectSchemaRegistration_eq_verdict {input : JsValue}
    {publisher schemaDigestHex : Option JsString} {txHash : JsString} {confirmed : Bool}
    {evidence : BusinessEvidence}
    (h : inspectSchemaRegistration input publisher schemaDigestHex txHash
      = .ok (.verdict confirmed evidence)) :
    validateBusinessEvidence evidence.toJs = .ok evidence ∧
      evidence.transactionHash = toLowerCase txHash ∧
      (if confirmed then evidence.schemaUid.isSome && evidence.reasonCode.isNone
        else evidence.reasonCode.isSome && evidence.schemaUid.isNone) = true := by
  simp only [inspectSchemaRegistration, bind_eq_ok, ensure_eq_ok] at h
  obtain ⟨-, -, hash, hhash, h⟩ := h
  obtain ⟨hread, rfl⟩ := responseHash_eq_ok hhash
  have hlower := evidenceHash_isLowerHash hread
  split_ifs at h with hnull
  · cases h
  · simp only [bind_eq_ok, ensure_eq_ok] at h
    obtain ⟨-, -, accepted, -, registrant, -, h⟩ := h
    split_ifs at h with hpublisher haccepted
    · cases h
    · simp only [inspectAcceptedRegistration, bind_eq_ok, ensure_eq_ok] at h
      obtain ⟨ledger, hledger, uid, huid, digest, -, -, -, h⟩ := h
      have hvalid := @validateBusinessEvidence_of_ledger _ _ _ hlower hledger
      obtain ⟨_, _, _, -, -, -, rfl⟩ := requiredLedgerEvidence_eq_ok hledger
      split_ifs at h with hdigest
      · cases h
      · cases h
        refine ⟨@hvalid _ _ _ _ _ _ .undefined ?_ forall_mem_none forall_mem_none rfl,
          rfl, rfl⟩
        rintro s ⟨⟩
        exact evidenceHash_isLowerHash huid
    · simp only [inspectRejectedRegistration, bind_eq_ok, ensure_eq_ok, pure_eq_ok] at h
      obtain ⟨ledger, hledger, -, -, -, -, reasonCode, -, -, hreason, h⟩ := h
      have hvalid := @validateBusinessEvidence_of_ledger _ _ _ hlower hledger
      obtain ⟨_, _, _, -, -, -, rfl⟩ := requiredLedgerEvidence_eq_ok hledger
      cases h
      refine ⟨@hvalid _ _ _ _ _ _ .undefined forall_mem_none forall_mem_none ?_ rfl,
        rfl, rfl⟩
      rintro s ⟨⟩
      exact hreason

theorem eventTypeOf_eq_some {input : JsValue} {type : CredentialEventType}
    (h : eventTypeOf input = some type) : input = .str type.text := by
  have hfound := List.find?_some (p := fun t : CredentialEventType => input.isStr t.text) h
  exact JsValue.isStr_iff.mp hfound

theorem requiredEventType_eq_ok {input : JsValue} {type : CredentialEventType}
    (h : requiredEventType input = .ok type) : input = .str type.text := by
  unfold requiredEventType at h
  split at h
  · rename_i type' htype
    cases h
    exact eventTypeOf_eq_some htype
  · cases h

/-- A deletion names its cause. -/
theorem eventDeletionCause_deleted {input : JsValue} {cause : Option CredentialDeletionCause}
    (h : eventDeletionCause .deleted input = .ok cause) :
    ∃ c, cause = some c ∧ input = .str c.text := by
  unfold eventDeletionCause at h
  dsimp only at h
  split at h
  · rename_i c hc
    cases h
    have hfound := List.find?_some (p := fun c : CredentialDeletionCause => input.isStr c.text) hc
    exact ⟨c, rfl, JsValue.isStr_iff.mp hfound⟩
  · cases h

/-- An event that is no deletion has no cause. -/
theorem eventDeletionCause_of_ne {type : CredentialEventType} {input : JsValue}
    {cause : Option CredentialDeletionCause} (h : eventDeletionCause type input = .ok cause)
    (htype : type ≠ .deleted) : cause = none := by
  unfold eventDeletionCause at h
  split at h
  · exact absurd rfl htype
  · cases h
    rfl
  · cases h

/-- The journal takes the cause of an event that passed. -/
theorem evidenceDeletionCause_of_event {type : CredentialEventType} {input : JsValue}
    {cause : Option CredentialDeletionCause} (h : eventDeletionCause type input = .ok cause) :
    evidenceDeletionCause (some type) input = .ok (some cause) := by
  unfold eventDeletionCause at h
  split at h
  · split at h
    · rename_i c hc
      cases h
      show (match businessDeletionCause input with | some cause => _ | none => _) = _
      rw [hc]
    · cases h
  · rename_i hdeleted
    cases h
    cases type
    · rfl
    · rfl
    · exact absurd rfl hdeleted
  · cases h

/-- What an event that passed has for members. -/
theorem readEvent_eq_ok {value : JsValue} {event : InspectedEvent}
    (h : readEvent value = .ok event) :
    evidenceHash (value.get (js "transactionHash")) responseInvalid = .ok event.transactionHash ∧
      value.get (js "issuer") = .str event.issuer ∧
      value.get (js "subject") = .str event.subject ∧
      evidenceHash (value.get (js "schemaUid")) responseInvalid = .ok event.schemaUid ∧
      evidenceHash (value.get (js "generationId")) responseInvalid = .ok event.generationId ∧
      value.get (js "eventType") = .str event.eventType.text ∧
      value.get (js "accepted") = .bool event.accepted ∧
      eventDeletionCause event.eventType (value.get (js "deletionCause"))
        = .ok event.deletionCause := by
  simp only [readEvent, bind_eq_ok, pure_eq_ok, requiredText_eq_ok, requiredBoolean_eq_ok] at h
  obtain ⟨hash, hhash, issuer, hissuer, subject, hsubject, uid, huid, generation, hgeneration,
    type, htype, accepted, haccepted, cause, hcause, rfl⟩ := h
  exact ⟨hhash, hissuer, hsubject, huid, hgeneration, requiredEventType_eq_ok htype, haccepted,
    hcause⟩

/-- What an event response that comes to a verdict says. -/
theorem inspectCredentialEvent_eq_verdict {input : JsValue} {business : OperationBusinessContext}
    {issuer subject schemaUid txHash : JsString} {confirmed : Bool} {evidence : BusinessEvidence}
    (h : inspectCredentialEvent input business issuer subject schemaUid txHash
      = .ok (.verdict confirmed evidence)) :
    ∃ event, isRecord input = true ∧ isRecord (input.get (js "event")) = true ∧
      readEvent (input.get (js "event")) = .ok event ∧
      evidenceHash (input.get (js "transactionHash")) responseInvalid = .ok (toLowerCase txHash) ∧
      event.transactionHash = toLowerCase txHash ∧ event.issuer = issuer ∧
      event.subject = subject ∧ event.schemaUid = schemaUid ∧
      event.confirms (toLowerCase txHash) business = true ∧ confirmed = true ∧
      validateBusinessEvidence evidence.toJs = .ok evidence ∧
      evidence.transactionHash = toLowerCase txHash ∧ evidence.schemaUid = some schemaUid ∧
      evidence.generationId = some event.generationId ∧
      evidence.eventType = some event.eventType ∧ evidence.accepted = some event.accepted ∧
      evidence.deletionCause = some event.deletionCause := by
  simp only [inspectCredentialEvent, bind_eq_ok, ensure_eq_ok] at h
  obtain ⟨-, hinput, hash, hhash, h⟩ := h
  obtain ⟨hread, rfl⟩ := responseHash_eq_ok hhash
  split_ifs at h with hnull
  · cases h
  · simp only [bind_eq_ok, ensure_eq_ok] at h
    obtain ⟨-, hrecord, event, hevent, h⟩ := h
    split_ifs at h with hsame hconfirms
    · cases h
    · cases h
    · simp only [bind_eq_ok, pure_eq_ok] at h
      obtain ⟨ledger, hledger, h⟩ := h
      simp only [Bool.or_eq_true, bne_iff_ne, not_or, not_not] at hsame
      obtain ⟨⟨⟨htx, hissuer⟩, hsubject⟩, huid⟩ := hsame
      obtain ⟨-, -, -, hschemaUid, hgeneration, -, -, hcause⟩ := readEvent_eq_ok hevent
      cases h
      have hvalid := @validateBusinessEvidence_of_ledger _ _ _ (evidenceHash_isLowerHash hread)
        hledger
      obtain ⟨_, _, _, -, -, -, rfl⟩ := requiredLedgerEvidence_eq_ok hledger
      refine ⟨event, hinput, hrecord, hevent, hread, htx, hissuer, hsubject, huid, ?_, rfl,
        hvalid ?_ ?_ forall_mem_none (evidenceDeletionCause_of_event hcause), rfl,
        congrArg some huid, rfl, rfl, rfl, rfl⟩
      · rwa [Bool.not_eq_true', Bool.not_eq_false] at hconfirms
      · rintro s ⟨⟩
        exact evidenceHash_isLowerHash hschemaUid
      · rintro s ⟨⟩
        exact evidenceHash_isLowerHash hgeneration

/-! ## The other two judges -/

/-- What an event that confirms an action says of the members that
`evidenceSupportsBusinessResult` looks at. -/
theorem supports_of_confirms {event : InspectedEvent} {business : OperationBusinessContext}
    {transactionHash : JsString} {input : JsValue}
    (hcause : eventDeletionCause event.eventType input = .ok event.deletionCause)
    (h : event.confirms transactionHash business = true) :
    event.eventType = expectedEventType business ∧
      acceptedAsExpected (some event.accepted) business = true ∧
      event.deletionCause = expectedDeletionCause business := by
  cases business with
  | schemaRegister publisher digest length => cases h
  | credentialIssue issuer subject uid uri digest expiration =>
      simp only [InspectedEvent.confirms, Bool.and_eq_true, beq_iff_eq] at h
      obtain ⟨⟨htype, -⟩, haccepted⟩ := h
      rw [htype] at hcause
      exact ⟨htype, beq_iff_eq.mpr (congrArg some haccepted),
        eventDeletionCause_of_ne hcause nofun⟩
  | generationBound action issuer subject uid generation digest =>
      simp only [InspectedEvent.confirms, Bool.and_eq_true, beq_iff_eq] at h
      obtain ⟨⟨⟨-, htype⟩, haccepted⟩, hdeletion⟩ := h
      rw [htype] at hcause
      cases action with
      | accept => exact ⟨htype, haccepted, eventDeletionCause_of_ne hcause nofun⟩
      | reject => exact ⟨htype, haccepted, beq_iff_eq.mp hdeletion⟩
      | remove =>
          refine ⟨htype, haccepted, ?_⟩
          show event.deletionCause
            = if issuer = subject then some .issuerRevoked else some .subjectRemoved
          simp only [GenerationAction.deletionCause] at hdeletion
          split_ifs at hdeletion ⊢
          · exact beq_iff_eq.mp hdeletion
          · exact beq_iff_eq.mp hdeletion
      | revoke => exact ⟨htype, rfl, beq_iff_eq.mp hdeletion⟩

/-- **The journal finds the verdict supported.** -/
theorem supports_of_inspected {input : JsValue} {business : OperationBusinessContext}
    {txHash : JsString} {confirmed : Bool} {evidence : BusinessEvidence}
    (h : inspectIndexedBusinessEvidence input business txHash = .ok (.verdict confirmed evidence)) :
    validateBusinessEvidence evidence.toJs = .ok evidence ∧
      evidenceSupportsBusinessResult business confirmed evidence (toLowerCase txHash) = true := by
  simp only [inspectIndexedBusinessEvidence, bind_eq_ok] at h
  obtain ⟨-, -, h⟩ := h
  cases business with
  | schemaRegister publisher digest length =>
      obtain ⟨hvalid, htx, hverdict⟩ := inspectSchemaRegistration_eq_verdict h
      refine ⟨hvalid, ?_⟩
      rw [evidenceSupportsBusinessResult, htx, beq_self_eq_true, Bool.true_and]
      exact hverdict
  | credentialIssue issuer subject uid uri digest expiration =>
      obtain ⟨event, -, -, hevent, -, -, -, -, -, hconfirms, rfl, hvalid, htx, hschemaUid,
        hgeneration, htype, haccepted, hdeletion⟩ := inspectCredentialEvent_eq_verdict h
      obtain ⟨-, -, -, -, -, -, -, hcause⟩ := readEvent_eq_ok hevent
      obtain ⟨htype', haccepted', hdeletion'⟩ := supports_of_confirms hcause hconfirms
      simp only [InspectedEvent.confirms, Bool.and_eq_true, beq_iff_eq] at hconfirms
      refine ⟨hvalid, ?_⟩
      simp only [evidenceSupportsBusinessResult, htx, hschemaUid, hgeneration, htype, haccepted,
        hdeletion, htype', haccepted', hdeletion', hconfirms.1.2, beq_self_eq_true, Bool.and_self]
  | generationBound action issuer subject uid generation digest =>
      obtain ⟨event, -, -, hevent, -, -, -, -, -, hconfirms, rfl, hvalid, htx, hschemaUid,
        hgeneration, htype, haccepted, hdeletion⟩ := inspectCredentialEvent_eq_verdict h
      obtain ⟨-, -, -, -, -, -, -, hcause⟩ := readEvent_eq_ok hevent
      obtain ⟨htype', haccepted', hdeletion'⟩ := supports_of_confirms hcause hconfirms
      simp only [InspectedEvent.confirms, Bool.and_eq_true, beq_iff_eq] at hconfirms
      refine ⟨hvalid, ?_⟩
      simp only [evidenceSupportsBusinessResult, htx, hschemaUid, hgeneration, htype, haccepted,
        hdeletion, htype', haccepted', hdeletion', hconfirms.1.1.1, beq_self_eq_true,
        Bool.and_self]

/-- A verdict names the transaction it was asked about, by a hash. -/
theorem transactionHash_of_supports {business : OperationBusinessContext} {confirmed : Bool}
    {evidence : BusinessEvidence} {transactionHash : JsString}
    (h : evidenceSupportsBusinessResult business confirmed evidence transactionHash = true) :
    evidence.transactionHash = transactionHash := by
  unfold evidenceSupportsBusinessResult at h
  rw [Bool.and_eq_true, beq_iff_eq] at h
  exact h.1

/-- **The events of a credential under review are judged the same.** -/
theorem inspectCredentialOperationEvent_of_inspected {input : JsValue} {action : GenerationAction}
    {issuer subject schemaUid generationId txHash : JsString} {digest : Option JsString}
    {confirmed : Bool} {evidence : BusinessEvidence}
    (h : inspectIndexedBusinessEvidence input
      (.generationBound action issuer subject schemaUid generationId digest) txHash
      = .ok (.verdict confirmed evidence)) :
    inspectCredentialOperationEvent input ⟨action, issuer, subject, schemaUid, generationId⟩ txHash
      = .ok .confirmed := by
  simp only [inspectIndexedBusinessEvidence, bind_eq_ok, ensure_eq_ok] at h
  obtain ⟨-, -, h⟩ := h
  obtain ⟨event, hinput, hrecord, hevent, hhash, htx, rfl, rfl, rfl, hconfirms, -⟩ :=
    inspectCredentialEvent_eq_verdict h
  obtain ⟨heventHash, heventIssuer, heventSubject, heventUid, heventGeneration, heventType,
    heventAccepted, hcause⟩ := readEvent_eq_ok hevent
  have hnull : (input.get (js "event")).isNull = false := by
    cases hget : input.get (js "event") with
    | null =>
        rw [hget] at hrecord
        cases hrecord
    | _ => rfl
  -- The hashes of the event are in lowercase, and so are those of a context that has them.
  have hlower := toLowerCase_of_isLowerHash (evidenceHash_isLowerHash heventUid)
  simp only [InspectedEvent.confirms, Bool.and_eq_true, beq_iff_eq] at hconfirms
  obtain ⟨⟨⟨rfl, htype⟩, haccepted⟩, hdeletion⟩ := hconfirms
  have hconfirmed : confirmsOperation (input.get (js "event")) event.eventType.text event.accepted
      ⟨action, event.issuer, event.subject, event.schemaUid, event.generationId⟩ = true := by
    have hgeneration : (match (input.get (js "event")).get (js "generationId") with
        | .str generationId => toLowerCase generationId == toLowerCase event.generationId
        | _ => false) = true := by
      obtain ⟨s, hs, -, hlower⟩ := evidenceHash_eq_ok heventGeneration
      rw [hs]
      show (toLowerCase s == toLowerCase event.generationId) = true
      rw [toLowerCase_of_isLowerHash (evidenceHash_isLowerHash heventGeneration), hlower,
        beq_self_eq_true]
    have hdeletion' : ((action.deletionCause event.issuer event.subject).all fun cause =>
        ((input.get (js "event")).get (js "deletionCause")).isStr cause.text) = true := by
      rw [Option.all_eq_true] at hdeletion ⊢
      intro cause hsome
      have hdeleted : event.eventType = .deleted := by
        cases action with
        | accept => cases hsome
        | _ => exact htype
      rw [hdeleted] at hcause
      obtain ⟨c, hc, htext⟩ := eventDeletionCause_deleted hcause
      have hsame := beq_iff_eq.mp (hdeletion cause hsome)
      rw [hc, Option.some_inj] at hsame
      rw [htext, hsame, JsValue.isStr_iff]
    simp only [confirmsOperation, htype, haccepted, beq_self_eq_true, Bool.and_true]
    rw [hgeneration, hdeletion']
    rfl
  simp only [inspectCredentialOperationEvent, bind_eq_ok, ensure_eq_ok, requiredText_eq_ok,
    requiredBoolean_eq_ok, hnull, if_false, Bool.false_eq_true]
  refine ⟨(), hinput, _, evidenceHash_code _ hhash, (), beq_self_eq_true _, (), hrecord, _,
    evidenceHash_code _ heventHash, _, heventIssuer, _, heventSubject, _,
    evidenceHash_code _ heventUid, _, heventType, _, heventAccepted, ?_⟩
  rw [if_neg, if_pos hconfirmed]
  · rfl
  · simp only [Bool.or_eq_true, bne_iff_ne, not_or, not_not]
    exact ⟨⟨⟨htx, trivial⟩, trivial⟩, hlower.symm⟩

theorem positiveSafeInteger_eq_some {value : JsValue} {n : ℕ}
    (h : positiveSafeInteger value = some n) : 0 < n ∧ n ≤ 9007199254740991 := by
  obtain ⟨hsafe, hpos⟩ := Option.filter_eq_some_iff.mp h
  refine ⟨of_decide_eq_true hpos, ?_⟩
  cases value with
  | num m => exact of_decide_eq_true (Option.filter_eq_some_iff.mp hsafe).2
  | _ => cases hsafe

/-- Evidence that the journal takes names a transaction by a hash and a ledger by a positive
index. -/
theorem names_of_valid {input : JsValue} {evidence : BusinessEvidence}
    (h : validateBusinessEvidence input = .ok evidence) :
    isLowerHash evidence.transactionHash = true ∧
      0 < evidence.ledgerIndex ∧ evidence.ledgerIndex ≤ 9007199254740991 := by
  unfold validateBusinessEvidence at h
  split at h
  · simp only [bind_eq_ok, pure_eq_ok, evidenceInteger_eq_ok] at h
    obtain ⟨_, hhash, index, hindex, _, -, _, -, _, -, _, -, _, -, _, -, _, -, _, -, rfl⟩ := h
    exact ⟨evidenceHash_isLowerHash hhash, positiveSafeInteger_eq_some hindex⟩
  · cases h

/-- A verdict that the evidence supports is written. -/
theorem confirmOperation_of_supports {business : OperationBusinessContext}
    {evidence : BusinessEvidence} {txHash atTime : JsString} {existing : StoredOperation}
    {confirmation : CompletedBusinessConfirmation} {confirmed : Bool}
    (hvalid : validateBusinessEvidence evidence.toJs = .ok evidence)
    (hbusiness : sanitizeOperationBusinessContext B existing.business = some business)
    (hconfirmable : isConfirmableBusinessContext (some business) = true)
    (hsucceeded : existing.succeeded = true) (htxHash : existing.txHash = some txHash)
    (hindex : existing.ledgerIndex = some evidence.ledgerIndex)
    (hconfirmation : confirmation.verdict = some confirmed)
    (hsupports : evidenceSupportsBusinessResult business confirmed evidence (toLowerCase txHash)
      = true) :
    confirmOperation B confirmation atTime evidence.toJs existing = .ok { existing with
      updatedAt := atTime
      businessConfirmation := some confirmation.confirmation
      businessEvidence := some evidence } := by
  obtain ⟨stored, hstored, hcontext⟩ := Option.bind_eq_some_iff.mp hbusiness
  have hcontext' : validateOperationBusinessContext B stored.toJs = .ok business := by
    cases hread : validateOperationBusinessContext B stored.toJs with
    | error error =>
        rw [hread] at hcontext
        cases hcontext
    | ok context =>
        rw [hread] at hcontext
        exact congrArg Except.ok (Option.some.inj hcontext)
  have hindex' : existing.validatedIndex.isSome = true := by
    rw [StoredOperation.validatedIndex, hindex, Option.filter_some,
      if_pos (decide_eq_true (names_of_valid hvalid).2)]
    rfl
  have hcheck : checkEvidence existing business confirmation (some evidence) = .ok () := by
    have hall : ∀ p : JsString → Bool, p (toLowerCase txHash) = true →
        ((existing.txHash.filter fun txHash => !txHash.isEmpty).map toLowerCase).all p = true := by
      intro p hp
      rw [htxHash, Option.filter_some]
      split_ifs
      · exact hp
      · rfl
    simp only [checkEvidence, bind_eq_ok, ensure_eq_ok]
    refine ⟨(), hall _ ?_, (), beq_iff_eq.mpr hindex, ?_⟩
    · exact beq_iff_eq.mpr (transactionHash_of_supports hsupports)
    · rw [hconfirmation]
      exact hall _ hsupports
  unfold confirmOperation
  rw [hstored]
  simp only [bind_eq_ok, ensure_eq_ok, pure_eq_ok]
  exact ⟨business, hcontext', (), hconfirmable, (), hsucceeded, (), hindex', some evidence,
    validateWhen_eq_ok.mpr (.inr ⟨rfl, evidence, hvalid, rfl⟩), (), Bool.or_true _, (), hcheck, rfl⟩

/-- **The judges of indexed evidence agree.**  Whatever the response and the context, evidence from
which the inspection derives a verdict supports that verdict in the journal; it is stored with the
verdict for the operation it was asked for, and the verdict is read back from the record; and for an
action on a generation the inspection of the credential's own events confirms too. -/
theorem inspected_evidence_accepted (B : Browser) {input : JsValue}
    {business : OperationBusinessContext} {txHash : JsString} {confirmed : Bool}
    {evidence : BusinessEvidence}
    (h : inspectIndexedBusinessEvidence input business txHash = .ok (.verdict confirmed evidence)) :
    evidenceSupportsBusinessResult business confirmed evidence (toLowerCase txHash) = true ∧
      (∀ (journal : OperationJournal) (operation : StoredOperation) (operationId : JsString)
        (confirmation : CompletedBusinessConfirmation) (atTime : JsString),
        journal.get operationId = some operation →
        sanitizeOperationBusinessContext B operation.business = some business →
        operation.succeeded = true → operation.txHash = some txHash →
        operation.ledgerIndex = some evidence.ledgerIndex →
        confirmation.verdict = some confirmed →
        ∃ journal' stored,
          setBusinessConfirmation B operationId confirmation atTime evidence.toJs journal
            = .ok journal' ∧
          journal'.get operationId = some stored ∧ stored.businessEvidence = some evidence ∧
          operationBusinessConfirmation B stored = some confirmation.confirmation) ∧
      ∀ action issuer subject schemaUid generationId digest,
        business = .generationBound action issuer subject schemaUid generationId digest →
        inspectCredentialOperationEvent input
          ⟨action, issuer, subject, schemaUid, generationId⟩ txHash = .ok .confirmed := by
  obtain ⟨hvalid, hsupports⟩ := supports_of_inspected h
  refine ⟨hsupports, ?_, ?_⟩
  · intro journal operation operationId confirmation atTime hget hbusiness hsucceeded htxHash
      hindex hconfirmation
    have hconfirmable : isConfirmableBusinessContext (some business) = true := by
      simp only [inspectIndexedBusinessEvidence, bind_eq_ok, ensure_eq_ok] at h
      obtain ⟨-, hconfirmable, -⟩ := h
      exact hconfirmable
    have hconfirm := @confirmOperation_of_supports B business evidence txHash atTime operation
      confirmation confirmed hvalid hbusiness hconfirmable hsucceeded htxHash hindex hconfirmation
      hsupports
    have hhash : operation.hasHash = true := by
      have hlower := (names_of_valid hvalid).1
      rw [transactionHash_of_supports hsupports] at hlower
      rw [StoredOperation.hasHash, htxHash]
      cases txHash with
      | nil => cases hlower
      | cons u rest => rfl
    have hid := (KeyedStore.get_eq_some_iff.mp hget).2
    let stored : StoredOperation := { operation with
      updatedAt := atTime
      businessConfirmation := some confirmation.confirmation
      businessEvidence := some evidence }
    refine ⟨journal.put stored, stored, ?_, ?_, rfl, ?_⟩
    · show mutate operationId (confirmOperation B confirmation atTime evidence.toJs) journal = _
      unfold mutate
      rw [hget]
      show (confirmOperation B confirmation atTime evidence.toJs operation >>= _) = _
      rw [hconfirm]
      rfl
    · exact KeyedStore.get_eq_some_iff.mpr ⟨KeyedStore.mem_put.mpr (.inl rfl), hid⟩
    · exact operationBusinessConfirmation_of_confirm hconfirm fun _ => hhash
  · rintro action issuer subject schemaUid generationId digest rfl
    exact inspectCredentialOperationEvent_of_inspected h

/-- What the API answers about the acceptance of `sampleContext`, in its own letter case. -/
def sampleEventResponse : JsValue :=
  .obj [(js "transactionHash", .str sampleTxHash),
    (js "event", .obj [(js "transactionHash", .str sampleTxHash),
      (js "issuer", .str (js "rPMh7Pi9ct699iZUTWaytJUoHcJ7cgyziK")),
      (js "subject", .str (js "rrrrrrrrrrrrrrrrrrrrBZbvji")),
      (js "schemaUid", .str (List.replicate 64 0x41)),
      (js "generationId", .str (List.replicate 64 0x42)), (js "eventType", .str (js "accepted")),
      (js "accepted", .bool true), (js "deletionCause", .null),
      (js "ledgerIndex", .num (JsNumber.ofNat 9)), (js "ledgerHash", .str (List.replicate 64 0x44)),
      (js "transactionIndex", .num (JsNumber.ofNat 0))])]

/-- The operation that waits for it. -/
def sampleOperation : StoredOperation where
  operationId := js "first"
  account := js "rrrrrrrrrrrrrrrrrrrrBZbvji"
  profileId := js "testnet"
  networkId := 1
  transactionType := js "CredentialAccept"
  createdAt := js "2026-01-01T00:00:00.000Z"
  business := some sampleContext
  updatedAt := js "2026-01-01T00:00:02.000Z"
  stage := .validated
  txHash := some sampleTxHash
  txBlob := none
  lastLedgerSequence := some 50
  engineResult := some (js "tesSUCCESS")
  ledgerIndex := some 9
  message := none
  businessConfirmation := some .pending
  businessEvidence := none

/-- The acceptance is confirmed by all three. -/
theorem inspected_evidence_accepted_accept :
    inspectIndexedBusinessEvidence sampleEventResponse sampleContext sampleTxHash
        = .ok (.verdict true indexedEvidence) ∧
      evidenceSupportsBusinessResult sampleContext true indexedEvidence (toLowerCase sampleTxHash)
        = true ∧
      (∃ journal' stored,
        setBusinessConfirmation Browser.sample (js "first") .confirmed
          (js "2026-01-01T00:00:30.000Z") indexedEvidence.toJs
          (KeyedStore.empty.put sampleOperation) = .ok journal' ∧
        journal'.get (js "first") = some stored ∧ stored.businessEvidence = some indexedEvidence ∧
        operationBusinessConfirmation Browser.sample stored = some .confirmed) ∧
      inspectCredentialOperationEvent sampleEventResponse
        ⟨.accept, js "rPMh7Pi9ct699iZUTWaytJUoHcJ7cgyziK", js "rrrrrrrrrrrrrrrrrrrrBZbvji",
          List.replicate 64 0x61, List.replicate 64 0x62⟩ sampleTxHash = .ok .confirmed := by
  have hinspected : inspectIndexedBusinessEvidence sampleEventResponse sampleContext sampleTxHash
      = .ok (.verdict true indexedEvidence) := by
    decide +kernel
  obtain ⟨hsupports, hstored, hevent⟩ := inspected_evidence_accepted Browser.sample hinspected
  exact ⟨hinspected, hsupports,
    hstored (KeyedStore.empty.put sampleOperation) sampleOperation (js "first") .confirmed _
      (by rfl) (by decide +kernel) (by decide) rfl rfl rfl,
    hevent _ _ _ _ _ _ rfl⟩

end Web
end Xcs
