import Mathlib.Data.Prod.Lex
import Xcs.Db.Projection
import Xcs.Run.Keyset
import Xcs.Web.DiscoveryStats
import Xcs.Web.Presenters

/-!
# The timeline of a credential

A generation of a credential is shown with its state and with the events it went through.  The API
trusts neither: it checks the columns of the generation and of every event, that the events follow
each other in the ledger, and that together they are the life the generation summarises.

* `credentialGenerationAnswer` is the handler, over the rows of a profile.
* `answerGeneration_eq`: what passes the checks is shown as it is.
-/

namespace Xcs
namespace Web

open Js Xcs.Core Db Keyset

/-! ## The evidence of a generation -/

/-- `MAX_NODE_INDEX` -/
def maxNodeIndex : ℤ := 2147483647

/-- `HEX_BYTES` -/
def isHexBytes (s : JsString) : Bool :=
  s.length % 2 == 0 && s.all isHexDigit

/-- `CREDENTIAL_DELETION_CAUSES` -/
def credentialDeletionCauses : List JsString :=
  [js "issuer_revoked", js "subject_rejected", js "subject_removed", js "expired_cleanup",
    js "account_deleted", js "self_deleted"]

/-- `CredentialGenerationEvidenceExpectation` -/
structure CredentialGenerationEvidenceExpectation where
  profileId : JsString
  activationLedgerIndex : ℤ
  checkpointLedgerIndex : ℤ
  generationId : Option JsString
  issuer : Option JsString
  subject : Option JsString
  schemaUid : Option JsString

/-- `invalidCredentialGenerationEvidence` -/
def invalidCredentialGenerationEvidence : IndexerUnavailable :=
  ⟨.evidenceInvalid,
    js "The indexed credential generation is incomplete or inconsistent."⟩

/-- `validDeletionShape` -/
def hasDeletionShape (generation : CredentialGenerationRow) : Bool :=
  match generation.deletedLedgerIndex, generation.deletionCause with
  | none, none => true
  | some deletedLedgerIndex, some deletionCause =>
      decide (deletionCause ∈ credentialDeletionCauses)
        && deletedLedgerIndex == generation.lastLedgerIndex
  | _, _ => false

/-- The members of a generation that name it are as expected. -/
def isExpectedGeneration (generation : CredentialGenerationRow)
    (expected : CredentialGenerationEvidenceExpectation) : Bool :=
  generation.profileId == expected.profileId
    && expected.generationId.all (· == generation.generationId)
    && expected.issuer.all (· == generation.issuer)
    && expected.subject.all (· == generation.subject)
    && expected.schemaUid.all (· == generation.schemaUid)

/-- The ledgers of a generation are between the activation and the checkpoint, in their order. -/
def isWithinCheckpoint (generation : CredentialGenerationRow)
    (expected : CredentialGenerationEvidenceExpectation) : Bool :=
  decide (expected.activationLedgerIndex ≤ generation.createdLedgerIndex)
    && decide (generation.createdLedgerIndex ≤ expected.checkpointLedgerIndex)
    && decide (0 ≤ generation.createdTransactionIndex
      ∧ generation.createdTransactionIndex ≤ maxNodeIndex)
    && decide (generation.createdLedgerIndex ≤ generation.lastLedgerIndex)
    && decide (generation.lastLedgerIndex ≤ expected.checkpointLedgerIndex)
    && nullOr (fun deletedLedgerIndex =>
      decide (generation.createdLedgerIndex ≤ deletedLedgerIndex
        ∧ deletedLedgerIndex ≤ expected.checkpointLedgerIndex)) generation.deletedLedgerIndex

/-- What `assertCredentialGenerationEvidence` asks of a generation. -/
def isGenerationEvidence (P : Platform) (generation : CredentialGenerationRow)
    (expected : CredentialGenerationEvidenceExpectation) : Bool :=
  isExpectedGeneration generation expected
    && isLowerHash generation.generationId
    && isLowerHash generation.ledgerObjectId
    && isLowerHash generation.schemaUid
    && P.isValidClassicAddress generation.issuer
    && P.isValidClassicAddress generation.subject
    && nullOr isHexBytes generation.uriHex
    && nullOr (fun expiration => decide (0 ≤ expiration ∧ expiration ≤ maxUint32))
      generation.expiration
    && isWithinCheckpoint generation expected
    && hasDeletionShape generation

/-- `assertCredentialGenerationEvidence` -/
def assertCredentialGenerationEvidence (P : Platform) (generation : CredentialGenerationRow)
    (expected : CredentialGenerationEvidenceExpectation) : Except IndexerUnavailable Unit :=
  if isGenerationEvidence P generation expected then .ok ()
  else .error invalidCredentialGenerationEvidence

/-- What the interface shows of a generation. -/
structure PublicCredentialGeneration where
  generationId : JsString
  ledgerObjectId : JsString
  issuer : JsString
  subject : JsString
  schemaUid : JsString
  uriHex : Option JsString
  expiration : Option ℤ
  accepted : Bool
  createdLedgerIndex : ℤ
  createdTransactionIndex : ℤ
  lastLedgerIndex : ℤ
  deletedLedgerIndex : Option ℤ
  deletionCause : Option JsString
  deriving DecidableEq

/-- The columns of a generation that are shown. -/
def shownGeneration (generation : CredentialGenerationRow) : PublicCredentialGeneration where
  generationId := generation.generationId
  ledgerObjectId := generation.ledgerObjectId
  issuer := generation.issuer
  subject := generation.subject
  schemaUid := generation.schemaUid
  uriHex := generation.uriHex
  expiration := generation.expiration
  accepted := generation.accepted
  createdLedgerIndex := generation.createdLedgerIndex
  createdTransactionIndex := generation.createdTransactionIndex
  lastLedgerIndex := generation.lastLedgerIndex
  deletedLedgerIndex := generation.deletedLedgerIndex
  deletionCause := generation.deletionCause

/-- `publicCredentialGeneration` -/
def publicCredentialGeneration (P : Platform) (generation : CredentialGenerationRow)
    (expected : CredentialGenerationEvidenceExpectation) :
    Except IndexerUnavailable PublicCredentialGeneration := do
  assertCredentialGenerationEvidence P generation expected
  pure (shownGeneration generation)

/-- `credentialGenerationState`; `projectCredentialLifecycle` throws nothing but
`INVALID_RIPPLE_TIME`, so no error is thrown on. -/
def credentialGenerationState (generation : CredentialGenerationRow) (closeTime : ℤ) :
    Except IndexerUnavailable CredentialLifecycleState :=
  match projectCredentialLifecycle (lifecycleInput closeTime generation) with
  | .ok state => .ok state
  | .error _ => .error ⟨.evidenceInvalid,
      js "The indexed credential lifecycle evidence is incomplete or inconsistent."⟩

/-! ## Events -/

/-- The `expected` of `publicCredentialEvent`. -/
structure CredentialEventExpectation where
  transactionHash : JsString
  issuer : JsString
  subject : JsString
  schemaUid : JsString
  activationLedgerIndex : ℤ
  generationId : Option JsString
  ledgerIndex : Option ℤ
  ledgerHash : Option JsString
  transactionIndex : Option ℤ

/-- What the interface shows of an event. -/
structure PublicCredentialEvent where
  transactionHash : JsString
  nodeIndex : ℤ
  generationId : JsString
  ledgerIndex : ℤ
  ledgerHash : JsString
  transactionIndex : ℤ
  eventType : JsString
  issuer : JsString
  subject : JsString
  schemaUid : JsString
  accepted : Bool
  deletionCause : Option JsString
  deriving DecidableEq

/-- The columns of an event that are shown. -/
def shownEvent (row : CredentialEventRow) : PublicCredentialEvent where
  transactionHash := row.transactionHash
  nodeIndex := row.nodeIndex
  generationId := row.generationId
  ledgerIndex := row.ledgerIndex
  ledgerHash := row.ledgerHash
  transactionIndex := row.transactionIndex
  eventType := row.eventType
  issuer := row.issuer
  subject := row.subject
  schemaUid := row.schemaUid
  accepted := row.accepted
  deletionCause := row.deletionCause

/-- The members of an event that name it are as expected. -/
def isExpectedEvent (row : CredentialEventRow) (expected : CredentialEventExpectation) : Bool :=
  row.transactionHash == expected.transactionHash
    && row.issuer == expected.issuer
    && row.subject == expected.subject
    && row.schemaUid == expected.schemaUid
    && expected.generationId.all (· == row.generationId)
    && expected.ledgerIndex.all (· == row.ledgerIndex)
    && expected.ledgerHash.all (· == row.ledgerHash)
    && expected.transactionIndex.all (· == row.transactionIndex)

/-- The members of an event that depend on its type. -/
def hasEventShape (row : CredentialEventRow) : Bool :=
  (row.eventType == js "created" || row.eventType == js "accepted"
      || row.eventType == js "deleted")
    && (if row.eventType == js "deleted" then
          row.deletionCause.any fun cause => decide (cause ∈ credentialDeletionCauses)
        else row.deletionCause.isNone)
    && (row.eventType != js "created"
      || (row.generationId == row.transactionHash
        && row.accepted == (row.issuer == row.subject)))
    && (row.eventType != js "accepted" || row.accepted)

/-- `validEventShape` -/
def isEventEvidence (P : Platform) (row : CredentialEventRow)
    (expected : CredentialEventExpectation) : Bool :=
  isExpectedEvent row expected
    && isLowerHash row.transactionHash
    && isLowerHash row.generationId
    && isLowerHash row.ledgerObjectId
    && isLowerHash row.ledgerHash
    && isLowerHash row.schemaUid
    && P.isValidClassicAddress row.issuer
    && P.isValidClassicAddress row.subject
    && isSafeInteger row.nodeIndex
    && decide (0 ≤ row.nodeIndex ∧ row.nodeIndex ≤ maxNodeIndex)
    && isSafeInteger row.ledgerIndex
    && decide (expected.activationLedgerIndex ≤ row.ledgerIndex ∧ row.ledgerIndex ≤ maxUint32)
    && isSafeInteger row.transactionIndex
    && decide (0 ≤ row.transactionIndex ∧ row.transactionIndex ≤ maxNodeIndex)
    && nullOr isHexBytes row.uriHex
    && nullOr (fun expiration =>
      isSafeInteger expiration && decide (0 ≤ expiration ∧ expiration ≤ maxUint32)) row.expiration
    && hasEventShape row

/-- `publicCredentialEvent` -/
def publicCredentialEvent (P : Platform) (row : CredentialEventRow)
    (expected : CredentialEventExpectation) : Except IndexerUnavailable PublicCredentialEvent :=
  if isEventEvidence P row expected then .ok (shownEvent row)
  else .error ⟨.evidenceInvalid,
    js "The indexed credential event evidence is incomplete or inconsistent."⟩

/-! ## Timelines -/

/-- `CREDENTIAL_GENERATION_TIMELINE_LIMIT` -/
def credentialGenerationTimelineLimit : ℕ := 100

/-- `invalidIndexerEvidence` -/
def invalidCredentialTimeline {α : Type} : Except IndexerUnavailable α :=
  .error ⟨.evidenceInvalid, js "The indexed credential timeline is incomplete or inconsistent."⟩

/-- What is expected of an event of a generation. -/
def timelineExpectation (generation : CredentialGenerationRow) (activationLedgerIndex : ℤ)
    (row : CredentialEventRow) : CredentialEventExpectation where
  transactionHash := row.transactionHash
  issuer := generation.issuer
  subject := generation.subject
  schemaUid := generation.schemaUid
  activationLedgerIndex
  generationId := some generation.generationId
  ledgerIndex := none
  ledgerHash := none
  transactionIndex := none

/-- The place of an event: its ledger, its transaction and its node. -/
def eventPlace (row : CredentialEventRow) : ℤ ×ₗ ℤ ×ₗ ℤ :=
  toLex (row.ledgerIndex, toLex (row.transactionIndex, row.nodeIndex))

/-- The check of the loop for one event and the one before it. -/
def continuesTimeline (generation : CredentialGenerationRow)
    (previous : Option CredentialEventRow) (row : CredentialEventRow) : Bool :=
  row.ledgerObjectId == generation.ledgerObjectId
    && row.uriHex == generation.uriHex
    && row.expiration == generation.expiration
    && previous.all fun previous =>
      !(decide (row.ledgerIndex < previous.ledgerIndex)
        || (row.ledgerIndex == previous.ledgerIndex
          && decide (row.transactionIndex < previous.transactionIndex))
        || (row.ledgerIndex == previous.ledgerIndex
          && row.transactionIndex == previous.transactionIndex
          && decide (row.nodeIndex ≤ previous.nodeIndex)))

/-- The loop of `publicCredentialTimeline`. -/
def isContinuous (generation : CredentialGenerationRow) :
    Option CredentialEventRow → List CredentialEventRow → Bool
  | _, [] => true
  | previous, row :: rows =>
      continuesTimeline generation previous row && isContinuous generation (some row) rows

/-- The events of a type. -/
def eventsOf (eventType : JsString) (rows : List CredentialEventRow) : List CredentialEventRow :=
  rows.filter fun row => row.eventType == eventType

/-- The last condition of `publicCredentialTimeline`: the events are the life of the generation. -/
def isLifeEvidence (generation : CredentialGenerationRow) (first : CredentialEventRow)
    (rows : List CredentialEventRow) : Bool :=
  let created := eventsOf (js "created") rows
  let accepted := eventsOf (js "accepted") rows
  let deleted := eventsOf (js "deleted") rows
  let last := rows.getLastD first
  created.length == 1
    && first.eventType == js "created"
    && first.transactionHash == generation.generationId
    && first.ledgerIndex == generation.createdLedgerIndex
    && first.transactionIndex == generation.createdTransactionIndex
    && decide (accepted.length ≤ 1)
    && decide (deleted.length ≤ 1)
    && (deleted.all fun row => row.accepted == generation.accepted)
    && last.ledgerIndex == generation.lastLedgerIndex
    && generation.accepted == (first.accepted || accepted.length == 1)
    && match generation.deletedLedgerIndex with
      | none => deleted.isEmpty
      | some deletedLedgerIndex =>
          deleted.length == 1
            && last.eventType == js "deleted"
            && last.ledgerIndex == deletedLedgerIndex
            && last.deletionCause == generation.deletionCause

/-- `publicCredentialTimeline` -/
def publicCredentialTimeline (P : Platform) (rows : List CredentialEventRow)
    (generation : CredentialGenerationRow) (activationLedgerIndex : ℤ) :
    Except IndexerUnavailable (List PublicCredentialEvent) :=
  match rows with
  | [] => invalidCredentialTimeline
  | first :: rest =>
      if credentialGenerationTimelineLimit < (first :: rest).length then invalidCredentialTimeline
      else do
        let items ← (first :: rest).mapM fun row =>
          publicCredentialEvent P row (timelineExpectation generation activationLedgerIndex row)
        if isContinuous generation none (first :: rest)
            && isLifeEvidence generation first (first :: rest) then pure items
        else invalidCredentialTimeline

/-! ## The handler -/

/-- `getCredentialGenerationById` -/
def getCredentialGenerationById (generationId : JsString) (rows : ProjectionRows) :
    Option CredentialGenerationRow :=
  rows.credentialGenerations.find? fun row => row.generationId == generationId

/-- `getCredentialEventsByGeneration` -/
def getCredentialEventsByGeneration (generationId : JsString) (limit : ℕ)
    (rows : ProjectionRows) : List CredentialEventRow :=
  (ordered eventPlace
    (rows.credentialEvents.filter fun row => row.generationId == generationId)).take limit

/-- `ORDER BY ledger_index DESC` -/
def newestFirst (row : LedgerCheckpointRow) : ℕᵒᵈ :=
  OrderDual.toDual row.ledgerIndex

/-- `getLatestCheckpoint` -/
def getLatestCheckpoint (rows : ProjectionRows) : Option LedgerCheckpointRow :=
  (ordered newestFirst rows.ledgerCheckpoints).head?

/-- An answer about a generation. -/
structure CredentialGenerationAnswer where
  generation : PublicCredentialGeneration
  state : CredentialLifecycleState
  timeline : List PublicCredentialEvent

/-- The replies of the handler. -/
inductive CredentialGenerationReply where
  | networkNotFound
  | generationNotFound
  | found (answer : CredentialGenerationAnswer)

/-- The time and the configuration of the API. -/
structure ReadContext where
  rippleTimeToUnixTime : ℤ → Option ℤ
  now : DateValue
  maxLedgerAgeSeconds : JsNumber

/-- The evidence that `requireAuthoritativeCheckpoint` has checked for the rows of a profile. -/
def ledgerEvidence (context : ReadContext) (profile : NetworkProfileRow) (rows : ProfileRows)
    (projectionLedgerIndexes : List ℤ) : LedgerEvidence where
  expectedProfileId := profile.profileId
  status := rows.indexerStatus.map (readStatus profile.profileId)
  checkpoint := (getLatestCheckpoint rows.toProjectionRows).map (readCheckpoint profile.profileId)
  now := context.now
  maxLedgerAgeSeconds := context.maxLedgerAgeSeconds
  minimumLedgerIndex := some profile.activationLedgerIndex
  projectionLedgerIndexes := some projectionLedgerIndexes

/-- `requireAuthoritativeCheckpoint` -/
def requireAuthoritativeCheckpoint (context : ReadContext) (profile : NetworkProfileRow)
    (rows : ProfileRows) (projectionLedgerIndexes : List ℤ) :
    Except IndexerUnavailable LedgerCheckpoint := do
  let evidence ← assertAuthoritativeLedgerEvidence context.rippleTimeToUnixTime
    (ledgerEvidence context profile rows projectionLedgerIndexes)
  pure evidence.2

/-- The answer about a generation that was found. -/
def answerGeneration (P : Platform) (profile : NetworkProfileRow) (generationId : JsString)
    (generation : CredentialGenerationRow) (timeline : List CredentialEventRow)
    (checkpoint : LedgerCheckpoint) : Except IndexerUnavailable CredentialGenerationAnswer := do
  let publicGeneration ← publicCredentialGeneration P generation
    { profileId := profile.profileId
      activationLedgerIndex := profile.activationLedgerIndex
      checkpointLedgerIndex := checkpoint.ledgerIndex
      generationId := some generationId
      issuer := none
      subject := none
      schemaUid := none }
  let state ← credentialGenerationState generation checkpoint.closeTime
  let timeline ← publicCredentialTimeline P timeline generation profile.activationLedgerIndex
  pure ⟨publicGeneration, state, timeline⟩

/-- `GET /v1/networks/:network/credential-generations/:generationId` -/
def credentialGenerationAnswer (P : Platform) (context : ReadContext) (rows : ProfileRows)
    (network generationId : JsString) : Except IndexerUnavailable CredentialGenerationReply :=
  match rows.networkProfile.filter fun row => row.profileId == network with
  | none => .ok .networkNotFound
  | some profile => do
      let _ ← assertIndexerReady (rows.indexerStatus.map (readStatus profile.profileId))
        context.now
      match getCredentialGenerationById (toLowerCase generationId) rows.toProjectionRows with
      | none => do
          let _ ← requireAuthoritativeCheckpoint context profile rows []
          pure .generationNotFound
      | some generation => do
          let timeline := getCredentialEventsByGeneration (toLowerCase generationId)
            (credentialGenerationTimelineLimit + 1) rows.toProjectionRows
          let checkpoint ← requireAuthoritativeCheckpoint context profile rows
            ([generation.createdLedgerIndex, generation.lastLedgerIndex]
              ++ timeline.map (·.ledgerIndex))
          let answer ← answerGeneration P profile (toLowerCase generationId) generation timeline
            checkpoint
          pure (.found answer)

/-! ## What is shown -/

/-- The newest checkpoint. -/
theorem getLatestCheckpoint_eq_some {rows : ProjectionRows} {row : LedgerCheckpointRow}
    (h : getLatestCheckpoint rows = some row) :
    row ∈ rows.ledgerCheckpoints ∧
      ∀ other ∈ rows.ledgerCheckpoints, other.ledgerIndex ≤ row.ledgerIndex := by
  obtain ⟨hmem, hle⟩ := le_of_head?_ordered h
  exact ⟨hmem, fun other hother => OrderDual.toDual_le_toDual.mp (hle other hother)⟩

theorem assertAuthoritativeLedgerEvidence_checkpoint {rippleTimeToUnixTime : ℤ → Option ℤ}
    {input : LedgerEvidence} {found : IndexerStatus × LedgerCheckpoint}
    (h : assertAuthoritativeLedgerEvidence rippleTimeToUnixTime input = .ok found) :
    input.checkpoint = some found.2 := by
  simp only [assertAuthoritativeLedgerEvidence, bind_eq_ok] at h
  obtain ⟨status, -, h⟩ := h
  split at h
  · cases h
  · rename_i checkpoint hcheckpoint
    split_ifs at h
    simp only [bind_eq_ok, pure_eq_ok] at h
    obtain ⟨_, -, rfl⟩ := h
    exact hcheckpoint

section Answer

variable {P : Platform} {context : ReadContext} {profile : NetworkProfileRow} {rows : ProfileRows}
  {checkpoint : LedgerCheckpoint}

theorem requireAuthoritativeCheckpoint_eq_ok {projectionLedgerIndexes : List ℤ} :
    requireAuthoritativeCheckpoint context profile rows projectionLedgerIndexes = .ok checkpoint ↔
      (∃ found, assertAuthoritativeLedgerEvidence context.rippleTimeToUnixTime
        (ledgerEvidence context profile rows projectionLedgerIndexes) = .ok found) ∧
        (getLatestCheckpoint rows.toProjectionRows).map (readCheckpoint profile.profileId)
          = some checkpoint := by
  simp only [requireAuthoritativeCheckpoint, bind_eq_ok, pure_eq_ok]
  constructor
  · rintro ⟨found, hfound, rfl⟩
    exact ⟨⟨found, hfound⟩, assertAuthoritativeLedgerEvidence_checkpoint hfound⟩
  · rintro ⟨⟨found, hfound⟩, hcheckpoint⟩
    have hsame := (assertAuthoritativeLedgerEvidence_checkpoint hfound).symm.trans hcheckpoint
    exact ⟨found, hfound, Option.some.inj hsame⟩

/-- The evidence of a network that is ready covers rows up to its checkpoint. -/
theorem requireAuthoritativeCheckpoint_of_le
    (h : requireAuthoritativeCheckpoint context profile rows [] = .ok checkpoint)
    {projectionLedgerIndexes : List ℤ}
    (hindexes : ∀ index ∈ projectionLedgerIndexes,
      (profile.activationLedgerIndex : ℤ) ≤ index ∧ index ≤ checkpoint.ledgerIndex) :
    requireAuthoritativeCheckpoint context profile rows projectionLedgerIndexes
      = .ok checkpoint := by
  obtain ⟨hfound, hcheckpoint⟩ := requireAuthoritativeCheckpoint_eq_ok.mp h
  refine requireAuthoritativeCheckpoint_eq_ok.mpr ⟨?_, hcheckpoint⟩
  rw [assertAuthoritativeLedgerEvidence_isOk_iff] at hfound ⊢
  obtain ⟨status, checkpoint', hstatus, hsome, hready, hcolumns, ⟨hzero, hminimum, -⟩, hfresh⟩ :=
    hfound
  refine ⟨status, checkpoint', hstatus, hsome, hready, hcolumns, ⟨hzero, hminimum, ?_⟩, hfresh⟩
  obtain rfl := Option.some.inj (hsome.symm.trans hcheckpoint)
  exact hindexes

/-- A network that is ready has passed the first check, and the close time of its checkpoint is
one. -/
theorem ready_of_required
    (h : requireAuthoritativeCheckpoint context profile rows [] = .ok checkpoint) :
    (∃ status, assertIndexerReady (rows.indexerStatus.map (readStatus profile.profileId))
      context.now = .ok status) ∧ isUint32Column checkpoint.closeTime = true := by
  obtain ⟨hfound, hcheckpoint⟩ := requireAuthoritativeCheckpoint_eq_ok.mp h
  rw [assertAuthoritativeLedgerEvidence_isOk_iff] at hfound
  obtain ⟨status, checkpoint', hstatus, hsome, hready, ⟨-, -, -, -, -, -, hclose⟩, -⟩ := hfound
  obtain rfl := Option.some.inj (hsome.symm.trans hcheckpoint)
  exact ⟨⟨status, assertIndexerReady_eq_ok.mpr ⟨hstatus, hready⟩⟩, hclose⟩

/-- The timeline of events that pass. -/
theorem publicCredentialTimeline_eq {events : List CredentialEventRow}
    {generation : CredentialGenerationRow} {activationLedgerIndex : ℤ}
    {first : CredentialEventRow} {rest : List CredentialEventRow} (hevents : events = first :: rest)
    (hlength : events.length ≤ credentialGenerationTimelineLimit)
    (hevidence : ∀ event ∈ events, isEventEvidence P event
      (timelineExpectation generation activationLedgerIndex event) = true)
    (hcontinuous : isContinuous generation none events = true)
    (hlife : isLifeEvidence generation first events = true) :
    publicCredentialTimeline P events generation activationLedgerIndex
      = .ok (events.map shownEvent) := by
  subst hevents
  have hnot : ¬credentialGenerationTimelineLimit < (first :: rest).length := Nat.not_lt.mpr hlength
  have hitems : (first :: rest).mapM (fun row =>
      publicCredentialEvent P row (timelineExpectation generation activationLedgerIndex row))
        = .ok ((first :: rest).map shownEvent) := by
    rw [mapM_eq_ok, List.forall₂_map_right_iff, List.forall₂_same]
    intro event hevent
    rw [publicCredentialEvent, if_pos (hevidence event hevent)]
  rw [publicCredentialTimeline, if_neg hnot, hitems]
  simp only [bind, Except.bind, hcontinuous, hlife]
  rfl

/-- The state of a generation is its lifecycle. -/
theorem credentialGenerationState_eq {generation : CredentialGenerationRow} {closeTime : ℤ}
    {state : CredentialLifecycleState}
    (h : projectCredentialLifecycle (lifecycleInput closeTime generation) = .ok state) :
    credentialGenerationState generation closeTime = .ok state := by
  unfold credentialGenerationState
  generalize projectCredentialLifecycle (lifecycleInput closeTime generation) = projected at h
  subst h
  rfl

/-- The answer about a generation that passes. -/
theorem answerGeneration_eq {generationId : JsString} {generation : CredentialGenerationRow}
    {events : List CredentialEventRow}
    (hgeneration : isGenerationEvidence P generation
      ⟨profile.profileId, profile.activationLedgerIndex, checkpoint.ledgerIndex, some generationId,
        none, none, none⟩ = true)
    (hclose : isUint32Column checkpoint.closeTime = true)
    (hchecks : GenerationEvidence generation)
    (htimeline : publicCredentialTimeline P events generation profile.activationLedgerIndex
      = .ok (events.map shownEvent)) :
    answerGeneration P profile generationId generation events checkpoint
      = .ok ⟨shownGeneration generation, stateOf checkpoint.closeTime generation,
        events.map shownEvent⟩ := by
  have hstate := credentialGenerationState_eq
    (projectCredentialLifecycle_row (isUint32Column_iff.mp hclose) hchecks)
  rw [answerGeneration, publicCredentialGeneration, assertCredentialGenerationEvidence,
    if_pos hgeneration, hstate, htimeline]
  rfl

end Answer

end Web
end Xcs
