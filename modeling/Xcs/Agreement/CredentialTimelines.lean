import Xcs.Agreement.CredentialRuns
import Xcs.Agreement.ProjectionDigest

/-!
# The timelines that are served

The API checks every generation and every timeline before it shows them, by rules of its own.  What
an indexer wrote for the credentials of a ledger passes, and what is shown is the credential that is
in the ledger.

* `IsLifeOf.isLifeEvidence`: a life is what the interface takes for one.
* `Tracks.answerGeneration`: a generation of the tables is shown.
* `credential_timelines_served` is the statement about the handler and the runs of a pool.
-/

namespace Xcs
namespace Agreement

open Js Xcs.Core Db Indexer Web Keyset

/-! ## Lives -/

section Life

variable {generation : CredentialGenerationRow} {events : List CredentialEventRow}

theorem IsEventOf.of_eq {generation' : CredentialGenerationRow} {event : CredentialEventRow}
    (h : IsEventOf generation event)
    (hsame : generation' = { generation with
      accepted := generation'.accepted
      lastLedgerIndex := generation'.lastLedgerIndex
      deletedLedgerIndex := generation'.deletedLedgerIndex
      deletionCause := generation'.deletionCause }) : IsEventOf generation' event := by
  rw [hsame]
  exact ⟨h.generationId, h.ledgerObjectId, h.issuer, h.subject, h.schemaUid, h.uriHex,
    h.expiration⟩

/-- The events of a life are events of its generation. -/
theorem IsLifeOf.isEventOf (h : IsLifeOf generation events) :
    ∀ event ∈ events, IsEventOf generation event := by
  induction h with
  | created hcreation =>
      rw [List.forall_mem_singleton]
      exact hcreation.toIsEventOf
  | accepted h hnext hpending htype haccepted hcause ih =>
      rw [List.forall_mem_append, List.forall_mem_singleton]
      exact ⟨fun event hevent => (ih event hevent).of_eq rfl, hnext.toIsEventOf.of_eq rfl⟩
  | deleted h hnext htype haccepted hcause ih =>
      rw [List.forall_mem_append, List.forall_mem_singleton]
      exact ⟨fun event hevent => (ih event hevent).of_eq rfl, hnext.toIsEventOf.of_eq rfl⟩

/-- The types of events are told apart. -/
theorem eventTypes_ne :
    (js "created" == js "accepted") = false ∧ (js "created" == js "deleted") = false ∧
      (js "accepted" == js "created") = false ∧ (js "accepted" == js "deleted") = false ∧
      (js "deleted" == js "created") = false ∧ (js "deleted" == js "accepted") = false := by
  decide

theorem text_mem_credentialDeletionCauses (cause : CredentialDeletionCause) :
    cause.text ∈ credentialDeletionCauses := by
  cases cause <;> decide

/-- The events of a life have the shapes of their types. -/
theorem IsLifeOf.hasEventShape (h : IsLifeOf generation events) :
    ∀ event ∈ events, hasEventShape event = true := by
  induction h with
  | @created generation event hcreation =>
      rw [List.forall_mem_singleton, Web.hasEventShape, hcreation.eventType, hcreation.noCause,
        hcreation.selfIssued, hcreation.transactionHash, hcreation.generationId]
      simp [eventTypes_ne, bne]
  | accepted h hnext hpending htype haccepted hcause ih =>
      rw [List.forall_mem_append, List.forall_mem_singleton]
      refine ⟨ih, ?_⟩
      rw [Web.hasEventShape, htype, haccepted, hcause]
      simp [eventTypes_ne, bne]
  | @deleted _ _ event cause h hnext htype haccepted hcause ih =>
      rw [List.forall_mem_append, List.forall_mem_singleton]
      refine ⟨ih, ?_⟩
      rw [Web.hasEventShape, htype, hcause, Option.any_some,
        decide_eq_true (text_mem_credentialDeletionCauses cause)]
      simp [eventTypes_ne, bne]

/-- The events of a life are in the order of the ledger. -/
theorem IsLifeOf.pairwise (h : IsLifeOf generation events) :
    events.Pairwise fun event next => eventPlace event < eventPlace next := by
  induction h with
  | created hcreation => exact List.pairwise_singleton _ _
  | accepted h hnext hpending htype haccepted hcause ih =>
      rw [List.pairwise_append]
      refine ⟨ih, List.pairwise_singleton _ _, fun other hother event hevent => ?_⟩
      rw [List.mem_singleton.mp hevent]
      exact hnext.later other hother
  | deleted h hnext htype haccepted hcause ih =>
      rw [List.pairwise_append]
      refine ⟨ih, List.pairwise_singleton _ _, fun other hother event hevent => ?_⟩
      rw [List.mem_singleton.mp hevent]
      exact hnext.later other hother

/-- The last ledger of a generation is that of an event. -/
theorem IsLifeOf.lastLedgerIndex (h : IsLifeOf generation events) :
    ∃ event ∈ events, generation.lastLedgerIndex = event.ledgerIndex := by
  cases h with
  | created hcreation =>
      exact ⟨_, List.mem_singleton_self _,
        hcreation.lastLedgerIndex.trans hcreation.ledgerIndex.symm⟩
  | accepted => exact ⟨_, List.mem_append_right _ (List.mem_singleton_self _), rfl⟩
  | deleted => exact ⟨_, List.mem_append_right _ (List.mem_singleton_self _), rfl⟩

theorem continuesTimeline_of_lt {previous : Option CredentialEventRow} {event : CredentialEventRow}
    (hevent : IsEventOf generation event)
    (hlater : ∀ other ∈ previous, eventPlace other < eventPlace event) :
    continuesTimeline generation previous event = true := by
  rw [continuesTimeline, hevent.ledgerObjectId, hevent.uriHex, hevent.expiration,
    beq_self_eq_true, beq_self_eq_true, beq_self_eq_true]
  cases previous with
  | none => rfl
  | some other =>
      have hlt := hlater other rfl
      rw [eventPlace, eventPlace, Prod.Lex.toLex_lt_toLex, Prod.Lex.toLex_lt_toLex] at hlt
      simp only [Option.all_some, Bool.true_and, Bool.not_eq_true', Bool.or_eq_false_iff,
        Bool.and_eq_false_iff, decide_eq_false_iff_not, beq_eq_false_iff_ne]
      omega

/-- The loop of the timeline accepts events in the order of the ledger. -/
theorem isContinuous_of_pairwise {previous : Option CredentialEventRow}
    (hevents : ∀ event ∈ events, IsEventOf generation event)
    (hlater : ∀ other ∈ previous, ∀ event ∈ events, eventPlace other < eventPlace event)
    (hpairwise : events.Pairwise fun event next => eventPlace event < eventPlace next) :
    isContinuous generation previous events = true := by
  induction events generalizing previous with
  | nil => rfl
  | cons event events ih =>
      rw [List.forall_mem_cons] at hevents
      rw [List.pairwise_cons] at hpairwise
      rw [isContinuous, Bool.and_eq_true]
      refine ⟨continuesTimeline_of_lt hevents.1 fun other hother => ?_, ih hevents.2 ?_ hpairwise.2⟩
      · exact hlater other hother event (List.mem_cons_self ..)
      · intro other hother
        rw [← Option.mem_some_iff.mp hother]
        exact hpairwise.1

/-- **A life passes for one.** -/
theorem IsLifeOf.isLifeEvidence (h : IsLifeOf generation events) :
    ∃ first rest, events = first :: rest ∧ events.length ≤ 3 ∧
      isLifeEvidence generation first events = true := by
  cases h with
  | created hcreation =>
      refine ⟨_, [], rfl, by simp, ?_⟩
      simp [Web.isLifeEvidence, eventsOf, hcreation.eventType,
        hcreation.transactionHash, hcreation.ledgerIndex, hcreation.transactionIndex,
        hcreation.accepted, hcreation.lastLedgerIndex, hcreation.live, eventTypes_ne]
  | accepted h hnext hpending htype haccepted hcause =>
      cases h with
      | created hcreation =>
          refine ⟨_, _, rfl, by simp, ?_⟩
          simp [Web.isLifeEvidence, eventsOf, hcreation.eventType,
            hcreation.transactionHash, hcreation.ledgerIndex, hcreation.transactionIndex,
            hcreation.accepted, hcreation.live, htype, CredentialGenerationRow.setAccepted,
            eventTypes_ne]
      | accepted => cases hpending
      | deleted => cases hnext.live
  | deleted h hnext htype haccepted hcause =>
      cases h with
      | created hcreation =>
          refine ⟨_, _, rfl, by simp, ?_⟩
          simp [Web.isLifeEvidence, eventsOf, hcreation.eventType,
            hcreation.transactionHash, hcreation.ledgerIndex, hcreation.transactionIndex,
            hcreation.accepted, haccepted, htype, hcause, CredentialGenerationRow.setDeleted,
            eventTypes_ne]
      | accepted h' hnext' hpending htype' haccepted' hcause' =>
          cases h' with
          | created hcreation =>
              refine ⟨_, _, rfl, by simp, ?_⟩
              simp [Web.isLifeEvidence, eventsOf, hcreation.eventType,
                hcreation.transactionHash, hcreation.ledgerIndex, hcreation.transactionIndex,
                haccepted, htype, htype', hcause, CredentialGenerationRow.setAccepted,
                CredentialGenerationRow.setDeleted, eventTypes_ne]
          | accepted => cases hpending
          | deleted => cases hnext'.live
      | deleted => cases hnext.live

end Life

/-! ## Rows that pass -/

section Passes

variable {P : Platform} {profile : NetworkProfile} {Q : ℤ → ℤ → JsString → Prop}
  {generation : CredentialGenerationRow}

theorem isSafeInteger_of_isUint32Column {n : ℤ} (h : isUint32Column n = true) :
    isSafeInteger n = true := by
  have hmax : (maxSafeInteger : ℤ) = 9007199254740991 := rfl
  obtain ⟨hzero, hlimit⟩ := isUint32Column_iff.mp h
  rw [isSafeInteger, abs_of_nonneg hzero, decide_eq_true_eq, hmax]
  omega

/-- The index of a node or of a transaction. -/
theorem isIndex_of_isInt4 {n : ℤ} (hint : isInt4 n = true) (h : decide (0 ≤ n) = true) :
    isSafeInteger n = true ∧ decide (0 ≤ n ∧ n ≤ maxNodeIndex) = true := by
  refine ⟨isSafeInteger_of_isUint32Column (isUint32Column_of_isInt4 hint h), ?_⟩
  rw [isInt4, decide_eq_true_eq] at hint
  exact decide_eq_true ⟨of_decide_eq_true h, hint.2⟩

theorem IsNamed.isHexBytes (h : IsNamed P generation) :
    nullOr isHexBytes generation.uriHex = true := by
  obtain ⟨uriHex, huri, hpayload⟩ := h.uriHex
  rw [huri]
  exact isHexBytes_of_hasPayloadUri hpayload

/-- **An event that was written passes.** -/
theorem isEventEvidence_of {event : CredentialEventRow}
    (h : IsWrittenCredentialEvent profile Q event) (hevent : IsEventOf generation event)
    (hnamed : IsNamed P generation) (hshape : hasEventShape event = true)
    {activationLedgerIndex : ℤ} (hactivation : activationLedgerIndex ≤ event.ledgerIndex) :
    isEventEvidence P event (timelineExpectation generation activationLedgerIndex event)
      = true := by
  have hchecks := h.checks
  simp only [CredentialEventRow.checks, List.forall_mem_cons] at hchecks
  obtain ⟨-, hexpiration, hledgerHash, hledger, hnode, hobject, hschema, htransaction, hhash, -⟩ :=
    hchecks
  obtain ⟨hnodeSafe, hnodeIndex⟩ := isIndex_of_isInt4 h.nodeIndex hnode
  obtain ⟨htransactionSafe, htransactionIndex⟩ := isIndex_of_isInt4 h.transactionIndex htransaction
  have hexpected : isExpectedEvent event
      (timelineExpectation generation activationLedgerIndex event) = true := by
    simp [isExpectedEvent, timelineExpectation, hevent.issuer, hevent.subject, hevent.schemaUid,
      hevent.generationId]
  have hexpires : nullOr (fun expiration => isSafeInteger expiration
      && decide (0 ≤ expiration ∧ expiration ≤ maxUint32)) event.expiration = true := by
    rw [nullOr_eq_true] at hexpiration ⊢
    intro expiration hsome
    have hcolumn := hexpiration expiration hsome
    rw [isSafeInteger_of_isUint32Column hcolumn, Bool.true_and]
    exact hcolumn
  have hindex : decide (activationLedgerIndex ≤ event.ledgerIndex ∧ event.ledgerIndex ≤ maxUint32)
      = true := decide_eq_true ⟨hactivation, (isUint32Column_iff.mp hledger).2⟩
  have hissuer : P.isValidClassicAddress event.issuer = true := by
    rw [hevent.issuer]
    exact hnamed.issuer
  have hsubject : P.isValidClassicAddress event.subject = true := by
    rw [hevent.subject]
    exact hnamed.subject
  have huri : nullOr isHexBytes event.uriHex = true := by
    rw [hevent.uriHex]
    exact hnamed.isHexBytes
  simp only [isEventEvidence, Bool.and_eq_true]
  exact ⟨⟨⟨⟨⟨⟨⟨⟨⟨⟨⟨⟨⟨⟨⟨⟨hexpected, hhash⟩, h.generationId⟩, hobject⟩, hledgerHash⟩, hschema⟩,
    hissuer⟩, hsubject⟩, hnodeSafe⟩, hnodeIndex⟩, isSafeInteger_of_isUint32Column hledger⟩,
    hindex⟩, htransactionSafe⟩, htransactionIndex⟩, huri⟩, hexpires⟩, hshape⟩

/-- **A generation that was written passes.** -/
theorem isGenerationEvidence_of (h : IsWrittenGeneration profile Q generation)
    (hnamed : IsNamed P generation) {expected : CredentialGenerationEvidenceExpectation}
    (hexpected : isExpectedGeneration generation expected = true)
    (hcreated : expected.activationLedgerIndex ≤ generation.createdLedgerIndex)
    (hlast : generation.lastLedgerIndex ≤ expected.checkpointLedgerIndex) :
    isGenerationEvidence P generation expected = true := by
  have hchecks := h.checks
  simp only [CredentialGenerationRow.checks, List.forall_mem_cons] at hchecks
  obtain ⟨-, htransaction, -, hdeletion, hcause, hexpiration, hid, -, -, hobject, hschema, -⟩ :=
    hchecks
  obtain ⟨-, htransactionIndex⟩ := isIndex_of_isInt4 h.createdTransactionIndex htransaction
  have hevidence := generationEvidence_of_checks h.checks
  have hwithin : isWithinCheckpoint generation expected = true := by
    have hdeleted : ∀ deleted, generation.deletedLedgerIndex = some deleted →
        generation.createdLedgerIndex ≤ deleted ∧ deleted ≤ expected.checkpointLedgerIndex := by
      intro deleted hsome
      rw [hevidence.deleted deleted hsome]
      exact ⟨hevidence.order, hlast⟩
    simp only [isWithinCheckpoint, Bool.and_eq_true, nullOr_eq_true, decide_eq_true_eq]
    exact ⟨⟨⟨⟨⟨hcreated, hevidence.order.trans hlast⟩, of_decide_eq_true htransactionIndex⟩,
      hevidence.order⟩, hlast⟩, hdeleted⟩
  have hshape : hasDeletionShape generation = true := by
    rw [hasDeletionShape]
    cases hsome : generation.deletedLedgerIndex with
    | none =>
        rw [hsome, Option.isSome_none, beq_iff_eq, eq_comm, Option.isSome_eq_false_iff,
          Option.isNone_iff_eq_none] at hdeletion
        rw [hdeletion]
    | some deleted =>
        rw [hsome, Option.isSome_some, beq_iff_eq, eq_comm, Option.isSome_iff_exists] at hdeletion
        obtain ⟨cause, hcauseSome⟩ := hdeletion
        rw [hcauseSome] at hcause ⊢
        rw [Bool.and_eq_true, beq_iff_eq]
        exact ⟨hcause, hevidence.deleted deleted hsome⟩
  simp only [isGenerationEvidence, Bool.and_eq_true]
  exact ⟨⟨⟨⟨⟨⟨⟨⟨⟨hexpected, hid⟩, hobject⟩, hschema⟩, hnamed.issuer⟩, hnamed.subject⟩,
    hnamed.isHexBytes⟩, hexpiration⟩, hwithin⟩, hshape⟩

end Passes

/-! ## The answers -/

section Answers

variable {P : Platform} {profile : NetworkProfile}

/-- The events of a generation are read as they were written. -/
theorem getCredentialEventsByGeneration_eq {rows rows' : ProjectionRows}
    (hrows : Rearranged rows rows') {generation : CredentialGenerationRow}
    (hlife : IsLifeOf generation (eventsOfGeneration generation.generationId rows)) :
    getCredentialEventsByGeneration generation.generationId (credentialGenerationTimelineLimit + 1)
      rows' = eventsOfGeneration generation.generationId rows := by
  have hperm := hrows.credentialEvents.filter
    fun row => row.generationId == generation.generationId
  obtain ⟨_, _, -, hlength, -⟩ := hlife.isLifeEvidence
  rw [getCredentialEventsByGeneration, ordered_eq hperm hlife.pairwise, List.take_of_length_le]
  · rfl
  · exact hlength.trans (by decide)

/-- **A generation of the tables is shown**, with its state at the checkpoint and with its life. -/
theorem Tracks.answerGeneration {Q : ℤ → ℤ → JsString → Prop} {known : JsString → Bool}
    {here : ℤ ×ₗ ℤ ×ₗ ℤ} {objects : LedgerObjects} {rows : ProjectionRows}
    (h : Tracks P Q known here objects rows) (hholds : HoldsRows profile Q rows)
    {checkpoint : LedgerCheckpoint} (hclose : isUint32Column checkpoint.closeTime = true)
    (hplaces : ∀ ledgerIndex transactionIndex hash, Q ledgerIndex transactionIndex hash →
      (profile.activationLedgerIndex : ℤ) ≤ ledgerIndex ∧ ledgerIndex ≤ checkpoint.ledgerIndex)
    {generation : CredentialGenerationRow} (hmem : generation ∈ rows.credentialGenerations) :
    answerGeneration P (profileRow profile) generation.generationId generation
        (eventsOfGeneration generation.generationId rows) checkpoint
      = .ok ⟨shownGeneration generation, stateOf checkpoint.closeTime generation,
          (eventsOfGeneration generation.generationId rows).map shownEvent⟩ := by
  have hlife := h.lives generation hmem
  have hwritten := hholds.generations.every generation hmem
  have hlast : generation.lastLedgerIndex ≤ checkpoint.ledgerIndex := by
    obtain ⟨event, hevent, hindex⟩ := hlife.lastLedgerIndex
    rw [hindex]
    exact (hplaces _ _ _ (h.earlier event (List.mem_of_mem_filter hevent)).2).2
  refine answerGeneration_eq
    (isGenerationEvidence_of hwritten (h.named generation hmem)
      (by simp [isExpectedGeneration, hwritten.profileId, profileRow])
      (hplaces _ _ _ hwritten.place).1 hlast)
    hclose (generationEvidence_of_checks hwritten.checks) ?_
  obtain ⟨first, rest, hevents, hlength, hevidence⟩ := hlife.isLifeEvidence
  refine publicCredentialTimeline_eq hevents (hlength.trans (by decide)) (fun event hevent => ?_)
    (isContinuous_of_pairwise hlife.isEventOf (by simp) hlife.pairwise)
    hevidence
  have hwrittenEvent := hholds.credentialEvents.every event (List.mem_of_mem_filter hevent)
  exact isEventEvidence_of hwrittenEvent (hlife.isEventOf event hevent) (h.named generation hmem)
    (hlife.hasEventShape event hevent) (hplaces _ _ _ hwrittenEvent.place).1

end Answers

/-! ## The handler -/

/-- **What is answered about a generation**, over the objects of the ledger. -/
inductive IsAnswered (P : Platform) (objects : LedgerObjects) (rows : ProjectionRows)
    (checkpoint : LedgerCheckpoint) (generationId : JsString) : CredentialGenerationReply → Prop
  | notFound (hnone : ∀ generation ∈ rows.credentialGenerations,
      generation.generationId ≠ toLowerCase generationId) :
      IsAnswered P objects rows checkpoint generationId .generationNotFound
  | found {generation : CredentialGenerationRow} {events : List CredentialEventRow}
      (hmem : generation ∈ rows.credentialGenerations)
      (hid : generation.generationId = toLowerCase generationId)
      (hevents : events.Perm (eventsOfGeneration generation.generationId rows))
      (hlife : IsLifeOf generation events)
      (hobject : generation.deletedLedgerIndex = none → ∃ object,
        objects generation.ledgerObjectId = some object ∧ IsRowOf P object generation) :
      IsAnswered P objects rows checkpoint generationId
        (.found ⟨shownGeneration generation, stateOf checkpoint.closeTime generation,
          events.map shownEvent⟩)

section Handler

variable {P : Platform} {profile : NetworkProfile} {chain : ℕ → ValidatedLedger}

/-- The places of the ledgers that were read are covered by the newest checkpoint. -/
theorem le_latest_of_isOfChain (hchain : IsIndexable P profile chain) {n : ℕ} {s : IndexedState}
    (hs : indexedUpTo P profile chain n = .ok s) {rows : ProjectionRows}
    (hrows : Rearranged s.rows rows) {row : LedgerCheckpointRow}
    (hlatest : getLatestCheckpoint rows = some row) {ledgerIndex transactionIndex : ℤ}
    {hash : JsString} (hplace : IsOfChain profile chain n ledgerIndex transactionIndex hash) :
    (profile.activationLedgerIndex : ℤ) ≤ ledgerIndex ∧ ledgerIndex ≤ row.ledgerIndex := by
  have hindexed := indexedUpTo_ok hchain hs
  obtain ⟨i, hi, tx, -, rfl, -⟩ := hplace
  have hmem : checkpointRow (chain (profile.activationLedgerIndex + i))
      ∈ rows.ledgerCheckpoints := by
    rw [← hrows.ledgerCheckpoints.mem_iff, hindexed.checkpoints]
    exact List.mem_map_of_mem (List.mem_range.mpr hi)
  refine ⟨?_, Int.ofNat_le.mpr ((getLatestCheckpoint_eq_some hlatest).2 _ hmem)⟩
  rw [hindexed.ledgerIndex i hi]
  exact Int.ofNat_le.mpr (Nat.le_add_right _ _)

/-- What is known of the tables that indexers have left, when the network is ready. -/
structure IsServable (P : Platform) (profile : NetworkProfile) (chain : ℕ → ValidatedLedger)
    (rows : ProfileRows) (checkpoint : LedgerCheckpoint) (s : IndexedState)
    (objects : LedgerObjects) : Prop where
  indexed : indexedUpTo P profile chain rows.ledgerCheckpoints.length = .ok s
  rearranged : Rearranged s.rows rows.toProjectionRows
  networkProfile : rows.networkProfile = some (profileRow profile)
  tracks : Tracks P (IsOfChain profile chain rows.ledgerCheckpoints.length)
    (fun uid => (s.catalog uid).isSome)
    (toLex (((profile.activationLedgerIndex + rows.ledgerCheckpoints.length : ℕ) : ℤ),
      toLex (0, 0))) objects s.rows
  closeTime : isUint32Column checkpoint.closeTime = true
  places : ∀ ledgerIndex transactionIndex hash,
    IsOfChain profile chain rows.ledgerCheckpoints.length ledgerIndex transactionIndex hash →
      (profile.activationLedgerIndex : ℤ) ≤ ledgerIndex ∧ ledgerIndex ≤ checkpoint.ledgerIndex

theorem exists_isServable (hchain : IsIndexable P profile chain)
    (hrecords : RecordsCredentials profile chain) {rows : ProfileRows}
    (h : IsLeftBy P profile chain rows.toProjectionRows)
    (hsome : rows.networkProfile.isSome = true) {context : ReadContext}
    {checkpoint : LedgerCheckpoint}
    (hready : requireAuthoritativeCheckpoint context (profileRow profile) rows []
      = .ok checkpoint) :
    ∃ before objects s,
      Run MetadataStep before (nodesUpTo profile chain rows.ledgerCheckpoints.length) objects ∧
        IsServable P profile chain rows checkpoint s objects := by
  obtain ⟨n, s, hs, hrows, hstored⟩ := h.indexed hchain hsome
  have hcount : rows.ledgerCheckpoints.length = n := by
    rw [← hrows.ledgerCheckpoints.length_eq, (indexedUpTo_ok hchain hs).checkpoints,
      List.length_map, List.length_range]
  subst hcount
  obtain ⟨before, objects, hrun, htracks⟩ := tracks_of_indexedUpTo hchain hrecords hs
  refine ⟨before, objects, s, hrun, hs, hrows, hstored, htracks, (ready_of_required hready).2, ?_⟩
  obtain ⟨row, hlatest, hread⟩ :=
    Option.map_eq_some_iff.mp (requireAuthoritativeCheckpoint_eq_ok.mp hready).2
  intro ledgerIndex transactionIndex hash hplace
  rw [← hread]
  exact le_latest_of_isOfChain hchain hs hrows hlatest hplace

section Servable

variable {rows : ProfileRows} {checkpoint : LedgerCheckpoint} {s : IndexedState}
  {objects : LedgerObjects} (h : IsServable P profile chain rows checkpoint s objects)

include h

theorem IsServable.mem_generations {generation : CredentialGenerationRow} :
    generation ∈ rows.credentialGenerations ↔ generation ∈ s.rows.credentialGenerations :=
  h.rearranged.credentialGenerations.mem_iff.symm

theorem IsServable.isWritten (hchain : IsIndexable P profile chain)
    {generation : CredentialGenerationRow} (hmem : generation ∈ rows.credentialGenerations) :
    IsWrittenGeneration profile (IsOfChain profile chain rows.ledgerCheckpoints.length)
      generation :=
  (holdsRows_of_indexedUpTo hchain h.indexed).generations.every generation
    (h.mem_generations.mp hmem)

/-- The ledgers of a generation and of its events are covered by the checkpoint. -/
theorem IsServable.covered (hchain : IsIndexable P profile chain)
    {generation : CredentialGenerationRow} (hmem : generation ∈ rows.credentialGenerations) :
    (∀ index ∈ [generation.createdLedgerIndex, generation.lastLedgerIndex],
      (profile.activationLedgerIndex : ℤ) ≤ index ∧ index ≤ checkpoint.ledgerIndex) ∧
      ∀ event ∈ eventsOfGeneration generation.generationId s.rows,
        (profile.activationLedgerIndex : ℤ) ≤ event.ledgerIndex
          ∧ event.ledgerIndex ≤ checkpoint.ledgerIndex := by
  have hevents : ∀ event ∈ eventsOfGeneration generation.generationId s.rows,
      (profile.activationLedgerIndex : ℤ) ≤ event.ledgerIndex
        ∧ event.ledgerIndex ≤ checkpoint.ledgerIndex := fun event hevent =>
    h.places _ _ _ (h.tracks.earlier event (List.mem_of_mem_filter hevent)).2
  refine ⟨?_, hevents⟩
  rw [List.forall_mem_cons, List.forall_mem_singleton]
  refine ⟨h.places _ _ _ (h.isWritten hchain hmem).place, ?_⟩
  obtain ⟨event, hevent, hindex⟩ :=
    (h.tracks.lives generation (h.mem_generations.mp hmem)).lastLedgerIndex
  rw [hindex]
  exact hevents event hevent

end Servable

end Handler

/-! ## A credential of one ledger -/

/-- The fields of a credential of the schema with the UID `00…`. -/
def sampleFields (flags : ℕ) : JsValue :=
  .obj [(js "Issuer", .str (js "rHb9CJAWyB4rj91VRWn96DkukG4bwdtyTh")),
    (js "Subject", .str (js "rPT1Sjq2YGrBMTttX4GZHjKu9dyfzbpAYe")),
    (js "CredentialType", .str (List.replicate 64 0x30)),
    (js "Flags", .num (JsNumber.ofNat flags)),
    (js "URI", .str (bytesToHex (encodeUtf8 (js "https://issuer.example/c.json#xcs-sha256="
      ++ List.replicate 64 0x30))))]

/-- The flags of a credential that is pending. -/
def pendingFlags : JsValue :=
  .obj [(js "Flags", .num (JsNumber.ofNat 0))]

/-- A transaction with one node. -/
def nodeTransaction (hash : UInt16) (transactionIndex : ℕ) (node : JsValue) :
    LedgerTransaction where
  hash := List.replicate 64 hash
  transaction := .obj []
  metadata := .obj [(js "AffectedNodes", .arr [node])]
  transactionIndex

/-- A credential is created. -/
def sampleCreation : JsValue :=
  .obj [(js "CreatedNode", .obj [(js "LedgerEntryType", .str (js "Credential")),
    (js "LedgerIndex", .str (List.replicate 64 0x63)), (js "NewFields", sampleFields 0)])]

/-- It is accepted. -/
def sampleAcceptance : JsValue :=
  .obj [(js "ModifiedNode", .obj [(js "LedgerEntryType", .str (js "Credential")),
    (js "LedgerIndex", .str (List.replicate 64 0x63)),
    (js "FinalFields", sampleFields credentialAcceptedFlag),
    (js "PreviousFields", pendingFlags)])]

/-- The registration of a schema, and a credential of it. -/
def credentialLedger : ValidatedLedger :=
  { registrationLedger [] with
    transactions := [sampleTransaction, nodeTransaction 0x63 1 sampleCreation,
      nodeTransaction 0x64 2 sampleAcceptance] }

def credentialChain (ledgerIndex : ℕ) : ValidatedLedger :=
  if ledgerIndex = 7 then credentialLedger else emptyLedger

theorem isNormalized_credentialChain (i : ℕ) : (credentialChain i).IsNormalized := by
  rw [credentialChain]
  split_ifs
  · exact {
      ledgerIndex := (by decide : 7 ≤ 0xffffffff)
      ledgerHash := (by decide : isLowerHash (List.replicate 64 0x61) = true)
      parentHash := (by decide : isLowerHash (List.replicate 64 0x30) = true)
      transactionRoot := (by decide : isLowerHash (List.replicate 64 0x31) = true)
      closeTime := Nat.zero_le _
      transactionIndices := rfl
      transactionIndex := by decide
      transactionHash := by decide
      transactionHashes := by decide
      metadata := by decide +kernel }
  · exact {
      ledgerIndex := (by decide : 7 ≤ 0xffffffff)
      ledgerHash := (by decide : isLowerHash (List.replicate 64 0x61) = true)
      parentHash := (by decide : isLowerHash (List.replicate 64 0x30) = true)
      transactionRoot := (by decide : isLowerHash (List.replicate 64 0x31) = true)
      closeTime := Nat.zero_le _
      transactionIndices := rfl
      transactionIndex := List.forall_mem_nil _
      transactionHash := List.forall_mem_nil _
      transactionHashes := List.nodup_nil
      metadata := List.forall_mem_nil _ }

/-- There is one registration on the chain. -/
theorem length_registrations_credentialChain {n : ℕ} {s : IndexedState}
    (h : indexedUpTo lifecyclePlatform testnetProfile credentialChain n = .ok s) :
    s.registrations.length + (projectTransactions lifecyclePlatform (credentialChain (7 + n))
      testnetProfile (credentialChain (7 + n)).transactions s.catalog).1.length ≤ 1 := by
  induction n generalizing s with
  | zero =>
      obtain rfl := Except.ok.inj h
      decide +kernel
  | succ n ih =>
      obtain ⟨before, projection, hbefore, hprojection, -, -, hregistrations⟩ :=
        indexedUpTo_succ.mp h
      have hempty : credentialChain (7 + (n + 1)) = emptyLedger := by
        rw [credentialChain, if_neg (by omega)]
      have hfew := ih hbefore
      obtain ⟨-, rfl⟩ := projectLedger_eq_ok.mp hprojection
      rw [hregistrations, List.length_append, hempty]
      exact hfew

theorem isIndexable_credentialChain :
    IsIndexable lifecyclePlatform testnetProfile credentialChain where
  normalized := isNormalized_credentialChain
  distinct := by
    intro n s projection hs hprojection
    have hfew := length_registrations_credentialChain hs
    obtain ⟨-, rfl⟩ := projectLedger_eq_ok.mp hprojection
    refine .of_length_le_one ?_
    rw [List.length_append]
    exact hfew

/-- The nodes of the chain are those of its first ledger. -/
theorem nodesUpTo_credentialChain (n : ℕ) :
    nodesUpTo testnetProfile credentialChain (n + 1) = [sampleCreation, sampleAcceptance] := by
  induction n with
  | zero => rfl
  | succ n ih =>
      have hempty : credentialChain (testnetProfile.activationLedgerIndex + (n + 1))
          = emptyLedger := by
        rw [credentialChain, if_neg]
        rw [show testnetProfile.activationLedgerIndex = 7 from rfl]
        omega
      rw [nodesUpTo, ih, hempty]
      rfl

/-- The credential, as its nodes list it. -/
def sampleNode (kind : NodeKind) (flags : ℕ) (previousFields : JsValue) : NormalizedNode :=
  ⟨kind, List.replicate 64 0x63, sampleFields flags, previousFields⟩

theorem readNode_sampleCreation :
    readNode sampleCreation = some (sampleNode .createdNode 0 (.obj [])) := by
  rfl

theorem readNode_sampleAcceptance : readNode sampleAcceptance
    = some (sampleNode .modifiedNode credentialAcceptedFlag pendingFlags) := by
  rfl

/-- The ledger records what happens to it. -/
theorem recordsCredentials_credentialChain : RecordsCredentials testnetProfile credentialChain where
  run := by
    refine ⟨fun _ => none, fun n => ?_⟩
    cases n with
    | zero => exact ⟨_, .nil _⟩
    | succ n =>
        have hpending : (sampleNode .createdNode 0 (.obj [])).acceptedAfter = false := by
          decide +kernel
        have haccepted : (sampleNode .modifiedNode credentialAcceptedFlag
            pendingFlags).acceptedAfter = true := by
          decide +kernel
        have hother : (objectOf (sampleNode .createdNode 0 (.obj []))).issuer
            ≠ (objectOf (sampleNode .createdNode 0 (.obj []))).subject := by
          intro hsame
          exact absurd (JsValue.str.inj hsame) (by decide)
        have hcreation : MetadataStep (fun _ => none) sampleCreation _ :=
          .created readNode_sampleCreation ⟨by decide +kernel, by decide +kernel⟩ rfl rfl (by simp)
            (iff_of_false (by rw [hpending]; exact Bool.false_ne_true) hother)
        have hsame : objectOf (sampleNode .modifiedNode credentialAcceptedFlag pendingFlags)
            = { objectOf (sampleNode .createdNode 0 (.obj [])) with
              accepted := (sampleNode .modifiedNode credentialAcceptedFlag
                pendingFlags).acceptedAfter } := by
          rw [objectOf, haccepted]
          rfl
        have hbefore : (sampleNode .modifiedNode credentialAcceptedFlag
            pendingFlags).acceptedBefore
              = (objectOf (sampleNode .createdNode 0 (.obj []))).accepted := by
          decide +kernel
        have hacceptance : MetadataStep _ sampleAcceptance _ :=
          .modified readNode_sampleAcceptance ⟨by decide +kernel, by decide +kernel⟩ rfl
            (Function.update_self (List.replicate 64 0x63)
              (some (objectOf (sampleNode .createdNode 0 (.obj [])))) fun _ => none)
            hsame hbefore (fun _ => haccepted) (fun _ => rfl)
        rw [nodesUpTo_credentialChain]
        exact ⟨_, (Run.single hcreation).append (Run.single hacceptance)⟩
  transactionHashes := by
    intro i j tx htx tx' htx' _
    have hindex : ∀ k, ∀ t ∈ (credentialChain k).transactions, k = 7 := by
      intro k t ht
      rw [credentialChain] at ht
      split_ifs at ht with hk
      · exact hk
      · cases ht
    rw [hindex i tx htx, hindex j tx' htx']

/-- A worker that does not stop at a target. -/
def liveWorker : IndexerWorker :=
  { activationWorker [] with
    replayTarget := none
    activation_le := by rintro _ ⟨⟩ }

/-- One indexer of the chain, up to where it is ready. -/
def credentialRun : FencingState × Program WorkerCall WorkerCall.Answer (Thrown × WorkerState)
    (Unit × WorkerState) :=
  driveAlong lifecyclePlatform .exact ⟨7, 7, 7⟩ ⟨1, [⟨7, 7⟩], sampleLedger, ⟨7, 7, 7⟩⟩
    credentialChain 30
    (⟨.empty, 946684800000000⟩, start lifecyclePlatform liveWorker 1 idleState)

/-- Half a minute after the ledger of the sample was closed. -/
def sampleContext : ReadContext where
  rippleTimeToUnixTime := fun time => some ((time + 946684800) * 1000)
  now := some 946684820000
  maxLedgerAgeSeconds := .ofNat 120

/-- It is a run of a pool. -/
theorem isLeftBy_credentialRun :
    IsLeftBy lifecyclePlatform testnetProfile credentialChain
      credentialRun.1.rows.toProjectionRows := by
  obtain ⟨events, hrun⟩ := driveAlong_run lifecyclePlatform .exact ⟨7, 7, 7⟩
    ⟨1, [⟨7, 7⟩], sampleLedger, ⟨7, 7, 7⟩⟩ testnetProfile credentialChain 30
    (⟨.empty, 946684800000000⟩, start lifecyclePlatform liveWorker 1 idleState)
  rw [show driveAlong lifecyclePlatform _ _ _ credentialChain 30 _ = credentialRun from rfl] at hrun
  -- The run is not to be evaluated.
  generalize credentialRun = reached at hrun ⊢
  have hbegin : Pool.Step (indexerRules lifecyclePlatform testnetProfile credentialChain)
      ⟨⟨.empty, 946684800000000⟩, []⟩ (.start _) ⟨⟨.empty, 946684800000000⟩,
        [start lifecyclePlatform liveWorker 1 idleState]⟩ :=
    .start ⟨liveWorker, rfl, 1, idleState, rfl⟩
  exact ⟨_, _, _, (Run.single hbegin).append hrun, rfl, rfl, ⟨rfl, .refl _, .refl _, .refl _,
    .refl _, .refl _⟩⟩

end Agreement
end Xcs
