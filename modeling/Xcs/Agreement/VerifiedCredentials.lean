import Xcs.Agreement.CredentialTimelines
import Xcs.Web.Verification

/-!
# Reports of the ledger

`verifyCredential` reads the tables that the indexers left.  A report says what the ledger says: the
state is that of the newest credential of the request, a schema is valid when the chain has
registered it, and a payload is valid when it is the one to which the credential commits.

* `exists_served`: every schema of the tables is resolved, as the catalog of the chain resolves it.
* `IsAttested` is what a report of an active credential with a valid payload means.
* `verified_credentials_attested` is the statement about the handler and the runs of a pool.
-/

namespace Xcs
namespace Agreement

open Js Json Xcs.Core Db Indexer Web Keyset

/-! ## Schemas -/

/-- A schema as the catalog of a chain resolves it, up to the order of members. -/
def ResolvesTo (catalog : SchemaLookup) (schemaUid : JsString) (served : ResolvedSchema) : Prop :=
  ∃ registered definition resolved, catalog schemaUid = some registered ∧
    parseSchema registered.definition = .ok definition ∧
    Resolution catalog definition registered.toSchemaCoordinates resolved ∧
    served.toJs.canon = resolved.toJs.canon

/-- The UIDs of schemas whose rows pass their checks. -/
theorem evidenceUids_eq_ok {P : Platform} {profileId : JsString} {page : List SchemaRow}
    (h : ∀ row ∈ page, row.profileId = profileId ∧ isLowerHash row.schemaUid = true ∧
      ∃ resolved, StoresResolved P row resolved) :
    ∃ uids, evidenceUids P profileId page = .ok uids ∧
      ∀ row ∈ page, ∀ resolved, StoresResolved P row resolved →
        ∀ uid ∈ resolved.lineage ++ [row.schemaUid], uid ∈ uids := by
  induction page with
  | nil => exact ⟨[], rfl, List.forall_mem_nil _⟩
  | cons row page ih =>
      rw [List.forall_mem_cons] at h
      obtain ⟨⟨rfl, huid, resolved, hstored⟩, hpage⟩ := h
      obtain ⟨uids, huids, hcovers⟩ := ih hpage
      have hidentity : (row.profileId == row.profileId && isLowerHash row.schemaUid) = true := by
        rw [huid, beq_self_eq_true]
        rfl
      refine ⟨row.schemaUid :: resolved.lineage ++ uids, ?_, ?_⟩
      · rw [evidenceUids, hidentity, storedResolvedSchema_eq_ok.mpr hstored, huids]
        rfl
      · rw [List.forall_mem_cons]
        refine ⟨fun other hother uid hmem => ?_, fun other hother resolved' hresolved uid hmem =>
          List.mem_append_right _ (hcovers other hother resolved' hresolved uid hmem)⟩
        have hsame := (storedResolvedSchema_eq_ok.mpr hstored).symm.trans
          (storedResolvedSchema_eq_ok.mpr hother)
        obtain rfl := Except.ok.inj hsame
        rw [List.mem_append, List.mem_singleton] at hmem
        exact List.mem_append_left _ (List.mem_cons.mpr hmem.symm)

/-- What is known of the row of a schema, as it is read. -/
structure IsServed (P : Platform) (profile : NetworkProfile) (records : List StoredRegistration)
    (catalog : SchemaLookup) (rows : ProjectionRows) (row : SchemaRow)
    (resolved : ResolvedSchema) : Prop where
  profileId : row.profileId = profile.profileId
  schemaUid : isLowerHash row.schemaUid = true
  stored : StoresResolved P row resolved
  lineage : ∀ uid ∈ resolved.lineage ++ [row.schemaUid],
    ∃ other ∈ rows.schemas, other.schemaUid = uid
  served : ∀ evidenceRows, IsEvidence records evidenceRows →
    (∀ uid ∈ resolved.lineage ++ [row.schemaUid], uid ∈ evidenceRows.map (·.schema.schemaUid)) →
      ∃ served, authoritativeResolvedSchema P row evidenceRows (expectedNetwork profile)
        row.schemaUid = .ok served ∧ ResolvesTo catalog row.schemaUid served

section Schemas

variable {P : Platform} {profile : NetworkProfile} {records : List StoredRegistration}
  {registrations : List SchemaRegistrationResult} {catalog : SchemaLookup}
  {rows rows' : ProjectionRows} {Q : ℤ → ℤ → JsString → Prop}
  (h : Records P profile records registrations catalog rows) (hrows : Rearranged rows rows')

include h hrows

theorem mem_schemas_iff {row : SchemaRow} :
    row ∈ rows'.schemas ↔ ∃ r ∈ records, r.schema = some row := by
  rw [← hrows.schemas.mem_iff, h.schemas, List.mem_filterMap]

theorem mem_schemaEvents_iff {event : SchemaEventRow} :
    event ∈ rows'.schemaEvents ↔ ∃ r ∈ records, r.event = event := by
  rw [← hrows.schemaEvents.mem_iff, h.schemaEvents, List.mem_map]

/-- No two schemas have one UID. -/
theorem distinct_schemaUids (hholds : HoldsRows profile Q rows') :
    Distinct (·.schemaUid) rows'.schemas := by
  refine List.Nodup.map_on (fun row hrow other hother hsame => ?_) hholds.schemas.keys.of_map
  obtain ⟨r, hr, hschema⟩ := (mem_schemas_iff h hrows).mp hrow
  obtain ⟨s, hs, hschema'⟩ := (mem_schemas_iff h hrows).mp hother
  have huid := schemaUid_of_schema h.run hr hschema
  rw [show row.schemaUid = other.schemaUid from hsame] at huid
  obtain rfl := h.run.eq_of_schemaUid hr hs huid (schemaUid_of_schema h.run hs hschema')
  exact Option.some.inj (hschema.symm.trans hschema')

/-- A row of `schemas` is joined with the event of its registration, and with no other. -/
theorem joined_eq (hholds : HoldsRows profile Q rows') (J : JsonbReader) {r : StoredRegistration}
    (hr : r ∈ records) {row : SchemaRow} (hrow : r.schema = some row) :
    joined J rows' row = [⟨readSchema J row, Indexer.readEvent J r.event⟩] := by
  obtain ⟨before, step⟩ := h.run.step hr
  have hevent : r.event ∈ rows'.schemaEvents := (mem_schemaEvents_iff h hrows).mpr ⟨r, hr, rfl⟩
  have hhash : row.registrationTransactionHash = r.event.transactionHash := by
    rw [(step.stored.schemaUid_eq hrow).2, step.stored.transactionHash]
  rw [joined, hhash, hholds.events.keys.filter_eq_singleton hevent]
  rfl

/-- The evidence that is read for some UIDs is that of the schemas with these UIDs. -/
theorem isEvidence_of_rows (hholds : HoldsRows profile Q rows') (J : JsonbReader)
    (schemaUids : List JsString) :
    IsEvidence records (getSchemaProjectionEvidence J schemaUids rows') ∧
      (getSchemaProjectionEvidence J schemaUids rows').map (·.schema.schemaUid)
        = (rows'.schemas.filter fun row => decide (row.schemaUid ∈ schemaUids)).map
            (·.schemaUid) ∧
      ∀ evidence ∈ getSchemaProjectionEvidence J schemaUids rows',
        ∃ row ∈ rows'.schemas, evidence.schema.ledgerIndex = row.ledgerIndex := by
  have huids : (getSchemaProjectionEvidence J schemaUids rows').map (·.schema.schemaUid)
      = (rows'.schemas.filter fun row => decide (row.schemaUid ∈ schemaUids)).map
          (·.schemaUid) := by
    rw [getSchemaProjectionEvidence, List.map_flatMap, ← List.flatMap_pure_eq_map]
    refine List.flatMap_congr fun row hrow => ?_
    obtain ⟨r, hr, hschema⟩ := (mem_schemas_iff h hrows).mp (List.mem_of_mem_filter hrow)
    rw [joined_eq h hrows hholds J hr hschema]
    rfl
  have hstored : ∀ evidence ∈ getSchemaProjectionEvidence J schemaUids rows',
      ∃ row ∈ rows'.schemas, ∃ r ∈ records, r.schema = some row ∧
        evidence = ⟨readSchema J row, Indexer.readEvent J r.event⟩ := by
    intro evidence hevidence
    rw [getSchemaProjectionEvidence, List.mem_flatMap] at hevidence
    obtain ⟨row, hrow, hjoined⟩ := hevidence
    have hmem := List.mem_of_mem_filter hrow
    obtain ⟨r, hr, hschema⟩ := (mem_schemas_iff h hrows).mp hmem
    rw [joined_eq h hrows hholds J hr hschema, List.mem_singleton] at hjoined
    exact ⟨row, hmem, r, hr, hschema, hjoined⟩
  refine ⟨⟨?_, fun evidence hevidence => ?_⟩, huids, fun evidence hevidence => ?_⟩
  · rw [huids]
    exact (distinct_schemaUids h hrows hholds).filter _
  · obtain ⟨row, -, r, hr, hschema, hevidenceEq⟩ := hstored evidence hevidence
    exact ⟨r, hr, J, row, hschema, hevidenceEq⟩
  · obtain ⟨row, hrow, r, -, -, rfl⟩ := hstored evidence hevidence
    exact ⟨row, hrow, rfl⟩

/-- A schema of the catalog has its row. -/
theorem exists_row_of_catalog {schemaUid : JsString} {registered : RegisteredSchema}
    (hfound : catalog schemaUid = some registered) :
    ∃ row ∈ rows'.schemas, row.schemaUid = schemaUid := by
  rw [h.catalog] at hfound
  obtain ⟨rfl, r, hr, hentry⟩ := exists_of_recordedCatalog hfound
  obtain ⟨schemaUid, memoJson, definition, resolved, houtcome, rfl⟩ :=
    catalogEntry_eq_some.mp hentry
  obtain ⟨placed, stores⟩ := stores_of_run h.run hr houtcome
  exact ⟨_, (mem_schemas_iff h hrows).mpr ⟨r, hr, stores.schema⟩, rfl⟩

/-- The lineage of a resolution is in the catalog. -/
theorem exists_row_of_mem_lineage {definition : SchemaDefinition} {context : SchemaCoordinates}
    {resolved : ResolvedSchema} (hresolution : Resolution catalog definition context resolved) :
    ∀ uid ∈ resolved.lineage, ∃ row ∈ rows'.schemas, row.schemaUid = uid := by
  induction hresolution with
  | root => exact List.forall_mem_nil _
  | child parent refers parsed ancestor names count replaces ih =>
      rw [List.forall_mem_append, List.forall_mem_singleton]
      exact ⟨ih, exists_row_of_catalog h hrows refers.1⟩

/-- A row of `schemas` is read as one that is served. -/
theorem exists_isServed (hprofile : matchesProfileId profile.profileId = true) (J : JsonbReader)
    {row : SchemaRow} (hrow : row ∈ rows'.schemas) :
    ∃ resolved, IsServed P profile records catalog rows' (readSchema J row) resolved := by
  obtain ⟨r, hr, hschema⟩ := (mem_schemas_iff h hrows).mp hrow
  have hsome := schemaUid_of_schema h.run hr hschema
  rw [StoredRegistration.schemaUid, SchemaRegistrationResult.schemaUid] at hsome
  cases houtcome : r.registration.outcome with
  | rejected reasonCode memoJson =>
      rw [houtcome] at hsome
      cases hsome
  | accepted schemaUid memoJson definition resolved =>
      rw [houtcome] at hsome
      obtain rfl : schemaUid = row.schemaUid := Option.some.inj hsome
      obtain ⟨registered, found⟩ := h.run.isRegistered r hr _ _ _ _ houtcome
      obtain ⟨placed, stores⟩ := stores_of_run h.run hr houtcome
      obtain ⟨other, hother, hreads⟩ := readsSchema_of_stored registered stores J
      obtain rfl : row = other := Option.some.inj (hschema.symm.trans hother)
      obtain ⟨definition', fields', hstored, hcanon, hfields'⟩ :=
        storesResolved_of_reads registered found stores hreads
      obtain ⟨resolved', hresolution, hlineage, hfields⟩ := registered.resolves
      rw [← h.catalog] at hresolution found
      refine ⟨_, ?_, isLowerHash_of_named registered, hstored, fun uid huid => ?_,
        fun evidenceRows hevidence hcovered => ?_⟩
      · obtain ⟨_, _, hcolumns, -⟩ := hreads
        rw [hcolumns]
        rfl
      · rw [List.mem_append, List.mem_singleton] at huid
        rcases huid with huid | rfl
        · exact exists_row_of_mem_lineage h hrows hresolution uid (hlineage ▸ huid)
        · exact ⟨row, hrow, rfl⟩
      · obtain ⟨served, hserved, hsame⟩ := served_of_run hprofile h.run hevidence hr houtcome
          hcovered hschema J
        refine ⟨served, hserved, _, definition, resolved', found, ?_, hresolution, ?_⟩
        · exact parseSchema_toJs (isValid_of_parseSchema registered.defined)
        · rw [hsame, ResolvedSchema.canon_toJs_eq_iff, registered.definition_eq,
            hresolution.definition_eq]
          exact ⟨rfl, canon_fieldsJs_eq hfields.symm, hlineage.symm⟩

/-- **Schemas of the tables are resolved**, from the evidence that is read for them together, as the
catalog of the chain resolves them. -/
theorem exists_served (hprofile : matchesProfileId profile.profileId = true)
    (hholds : HoldsRows profile Q rows') (J : JsonbReader) {page : List SchemaRow}
    (hpage : ∀ row ∈ page, ∃ stored ∈ rows'.schemas, row = readSchema J stored) :
    ∃ schemaUids, schemaProjectionEvidenceUids P page profile.profileId = .ok schemaUids ∧
      (∀ item ∈ getSchemaProjectionEvidence J schemaUids rows', ∃ other ∈ rows'.schemas,
        item.schema.ledgerIndex = other.ledgerIndex) ∧
      ∀ row ∈ page, ∃ served,
        authoritativeResolvedSchema P row (getSchemaProjectionEvidence J schemaUids rows')
          (expectedNetwork profile) row.schemaUid = .ok served ∧
        ResolvesTo catalog row.schemaUid served := by
  have hserved : ∀ row ∈ page, ∃ resolved,
      IsServed P profile records catalog rows' row resolved := by
    intro row hrow
    obtain ⟨stored, hstored, rfl⟩ := hpage row hrow
    exact exists_isServed h hrows hprofile J hstored
  obtain ⟨uids, huids, hcovers⟩ := evidenceUids_eq_ok fun row hrow => by
    obtain ⟨resolved, hrow⟩ := hserved row hrow
    exact ⟨hrow.profileId, hrow.schemaUid, resolved, hrow.stored⟩
  obtain ⟨hevidence, heq, hindexes⟩ := isEvidence_of_rows h hrows hholds J uids.eraseDups
  refine ⟨uids.eraseDups, ?_, hindexes, fun row hrow => ?_⟩
  · rw [schemaProjectionEvidenceUids, huids]
    rfl
  · obtain ⟨resolved, hrow'⟩ := hserved row hrow
    refine hrow'.served _ hevidence fun uid huid => ?_
    obtain ⟨other, hother, rfl⟩ := hrow'.lineage uid huid
    rw [heq]
    refine List.mem_map_of_mem (List.mem_filter.mpr ⟨hother, decide_eq_true ?_⟩)
    exact List.mem_eraseDups.mpr (hcovers row hrow resolved hrow'.stored _ huid)

end Schemas

/-! ## Requests -/

/-- The state that is reported of a generation. -/
def onChainOf (closeTime : ℤ) : Option CredentialGenerationRow → OnChainStatus
  | none => .notFound
  | some generation => .state (stateOf closeTime generation)

/-- **The generation that a request is about**: the newest of the credential, and the one that is in
the ledger, if any is. -/
inductive IsNewest (P : Platform) (objects : LedgerObjects) (rows : ProjectionRows)
    (request : VerifyRequest) : Option CredentialGenerationRow → Prop
  | notFound (hnone : ∀ generation ∈ rows.credentialGenerations,
      isCredentialOf request.issuer request.subject request.schemaUid generation = false) :
      IsNewest P objects rows request none
  | found {generation : CredentialGenerationRow} (hmem : generation ∈ rows.credentialGenerations)
      (hof : isCredentialOf request.issuer request.subject request.schemaUid generation = true)
      (hlive : ∀ other ∈ rows.credentialGenerations,
        isCredentialOf request.issuer request.subject request.schemaUid other = true →
          creationPlace other ≤ creationPlace generation ∧
            (other.deletedLedgerIndex = none → other = generation))
      (hobject : generation.deletedLedgerIndex = none → ∃ object,
        objects generation.ledgerObjectId = some object ∧ IsRowOf P object generation) :
      IsNewest P objects rows request (some generation)

/-- **What is known of the schema of a request.** -/
inductive IsKnown (catalog : SchemaLookup) (schemaUid : JsString) : Option ResolvedSchema → Prop
  | unknown (hnone : catalog schemaUid = none) : IsKnown catalog schemaUid none
  | resolved {served : ResolvedSchema} (hresolves : ResolvesTo catalog schemaUid served) :
      IsKnown catalog schemaUid (some served)

/-- **A credential of the ledger attests to a payload.**  It is the credential of the request, it
was accepted and has not expired, its URI commits to the bytes, and they are the payload of the
credential, unless a string of them is not well formed. -/
structure IsAttested (P : Platform) (catalog : SchemaLookup) (closeTime : ℤ)
    (request : VerifyRequest) (object : CredentialObject) (uri : JsString) (bytes : List UInt8) :
    Prop where
  issuer : object.issuer = .str request.issuer
  subject : object.subject = .str request.subject
  credentialType : ∃ credentialType, object.credentialType = .str credentialType ∧
    toLowerCase credentialType = request.schemaUid
  accepted : object.accepted = true
  unexpired : ∀ expiration, uint32 object.expiration = some expiration → closeTime < expiration
  uriHex : ∃ uriHex, object.uri = .str uriHex ∧ (hexToBytes uriHex).bind decodeUtf8 = some uri
  digest : ∃ target, parsePayloadUri P uri = .ok target ∧
    target.digestHex = bytesToHex (P.sha256 bytes)
  payload : ∃ schema, ResolvesTo catalog request.schemaUid schema ∧
    (IsCredentialPayload P (payloadContext request schema) bytes ∨
      Misread P (payloadContext request schema) bytes)

section Requests

variable {P : Platform} {request : VerifyRequest} {generation : CredentialGenerationRow}

theorem isCredentialOf_eq_true {issuer subject schemaUid : JsString} :
    isCredentialOf issuer subject schemaUid generation = true ↔ generation.issuer = issuer ∧
      generation.subject = subject ∧ generation.schemaUid = schemaUid := by
  rw [isCredentialOf, Bool.and_eq_true, Bool.and_eq_true, beq_iff_eq, beq_iff_eq, beq_iff_eq,
    and_assoc]

/-- A generation that is active was not deleted, it was accepted, and it has not expired. -/
theorem stateOf_eq_active {closeTime : ℤ} (hclose : 0 ≤ closeTime)
    (hstate : stateOf closeTime generation = .active) :
    generation.deletedLedgerIndex = none ∧ generation.accepted = true ∧
      ∀ expiration : ℕ, generation.expiration = some (expiration : ℤ) →
        closeTime < expiration := by
  rw [stateOf, lifecycleState] at hstate
  split_ifs at hstate with hexists hexpired haccepted
  refine ⟨by simpa using hexists, haccepted, fun expiration hsome => ?_⟩
  rw [hsome, Option.map_some, Option.any_some, decide_eq_true_eq, Int.toNat_natCast] at hexpired
  omega

/-- **What is reported as active and valid is attested.** -/
theorem isAttested_of_valid {catalog : SchemaLookup} {objects : LedgerObjects}
    {rows : ProjectionRows} {resolver : JsString → Except PayloadError (List UInt8)}
    {generation : Option CredentialGenerationRow} {schema : Option ResolvedSchema} {closeTime : ℤ}
    (hclose : 0 ≤ closeTime) (hnewest : IsNewest P objects rows request generation)
    (hknown : IsKnown catalog request.schemaUid schema)
    (hactive : onChainOf closeTime generation = .state .active)
    (hvalid : payloadStatus P resolver request generation schema = .ok (.checked .valid)) :
    ∃ id object uri content, objects id = some object ∧ IsOffered P resolver request uri content ∧
      IsAttested P catalog closeTime request object uri content.toBytes := by
  obtain ⟨row, resolved, uri, content, rfl, rfl, huri, hoffered, hchecked⟩ :=
    payloadStatus_eq_valid.mp hvalid
  obtain ⟨⟨target, _, htarget, hcontent, -, -, hdigest⟩, hpayload⟩ := retrieved_of_valid hchecked
  cases hknown with
  | resolved hresolves =>
    cases hnewest with
    | found hmem hof hlive hobject =>
      obtain ⟨hexists, haccepted, hexpiration⟩ :=
        stateOf_eq_active hclose (OnChainStatus.state.inj hactive)
      obtain ⟨object, hobject, hrow⟩ := hobject hexists
      obtain ⟨hissuer, hsubject, hschemaUid⟩ := isCredentialOf_eq_true.mp hof
      obtain ⟨credentialType, htype, -, huid⟩ := hrow.credentialType
      obtain ⟨uriHex, hobjectUri, hrowUri, -⟩ := hrow.uri
      refine ⟨_, object, uri, content, hobject, hoffered, ?_⟩
      exact {
        issuer := hissuer ▸ hrow.issuer
        subject := hsubject ▸ hrow.subject
        credentialType := ⟨credentialType, htype, huid.trans hschemaUid⟩
        accepted := hrow.accepted.symm.trans haccepted
        unexpired := fun expiration hsome => hexpiration expiration (by
          rw [hrow.expiration.2, hsome]
          rfl)
        uriHex := ⟨uriHex, hobjectUri, by
          rw [decodeCredentialUri, hrowUri] at huri
          exact huri⟩
        digest := ⟨target, htarget, beq_iff_eq.mp hdigest⟩
        payload := ⟨resolved, hresolves, hpayload⟩ }

end Requests

/-! ## The report -/

section Report

variable {P : Platform} {profile : NetworkProfile} {chain : ℕ → ValidatedLedger}
  {rows : ProfileRows} {checkpoint : LedgerCheckpoint} {s : IndexedState}
  {objects : LedgerObjects} (h : IsServable P profile chain rows checkpoint s objects)
  (hchain : IsIndexable P profile chain)

include h hchain

theorem IsServable.holdsRows :
    HoldsRows profile (IsOfChain profile chain rows.ledgerCheckpoints.length)
      rows.toProjectionRows :=
  (holdsRows_of_indexedUpTo hchain h.indexed).rearranged h.rearranged

/-- The generation that is read for a request. -/
theorem IsServable.isNewest (request : VerifyRequest) :
    IsNewest P objects rows.toProjectionRows request
      (getCredential request.issuer request.subject request.schemaUid rows.toProjectionRows) := by
  cases hcredential : getCredential request.issuer request.subject request.schemaUid
      rows.toProjectionRows with
  | none =>
      refine .notFound fun generation hmem => ?_
      rw [getCredential, List.head?_eq_none_iff] at hcredential
      by_contra hof
      rw [Bool.not_eq_false] at hof
      have hordered : generation ∈ ordered newestGenerationFirst (rows.credentialGenerations.filter
          (isCredentialOf request.issuer request.subject request.schemaUid)) :=
        mem_ordered.mpr (List.mem_filter.mpr ⟨hmem, hof⟩)
      rw [hcredential] at hordered
      cases hordered
  | some generation =>
      obtain ⟨hmem, hof, hnewest⟩ := getCredential_eq_some hcredential
      have hindexed := h.mem_generations.mp hmem
      refine .found hmem hof (fun other hother hsame => ⟨hnewest other hother hsame, ?_⟩)
        fun hlive => (h.tracks.live generation hindexed hlive).2
      intro hlive
      obtain ⟨hissuer, hsubject, hschemaUid⟩ := isCredentialOf_eq_true.mp hof
      obtain ⟨hissuer', hsubject', hschemaUid'⟩ := isCredentialOf_eq_true.mp hsame
      have hle := h.tracks.newest other (h.mem_generations.mp hother) hlive generation hindexed
        ⟨hissuer.trans hissuer'.symm, hsubject.trans hsubject'.symm,
          hschemaUid.trans hschemaUid'.symm⟩
      have hdistinct := (h.holdsRows hchain).distinct_generations
        (isFunctional_of_indexedUpTo hchain h.indexed)
      exact List.inj_on_of_nodup_map hdistinct hother hmem
        (le_antisymm (hnewest other hother hsame) hle)

/-- The generation that is read passes its check. -/
theorem IsServable.assertCredential_eq {request : VerifyRequest}
    (hrequest : request.network = profile.profileId)
    {generation : Option CredentialGenerationRow}
    (hnewest : IsNewest P objects rows.toProjectionRows request generation) :
    assertCredential P (profileRow profile) checkpoint request generation = .ok () := by
  cases hnewest with
  | notFound => rfl
  | @found generation hmem hof hlive hobject =>
      obtain ⟨hissuer, hsubject, hschemaUid⟩ := isCredentialOf_eq_true.mp hof
      have hwritten := h.isWritten hchain hmem
      obtain ⟨hcovered, -⟩ := h.covered hchain hmem
      rw [List.forall_mem_cons, List.forall_mem_singleton] at hcovered
      refine if_pos (isGenerationEvidence_of hwritten
        (h.tracks.named generation (h.mem_generations.mp hmem)) ?_ hcovered.1.1 hcovered.2.2)
      simp [isExpectedGeneration, hwritten.profileId, hrequest, hissuer, hsubject, hschemaUid]

/-- The state that is read is that of the generation at the checkpoint. -/
theorem IsServable.onChainStatus_eq {request : VerifyRequest}
    {generation : Option CredentialGenerationRow}
    (hnewest : IsNewest P objects rows.toProjectionRows request generation) :
    onChainStatus generation checkpoint.closeTime
      = .ok (onChainOf checkpoint.closeTime generation) := by
  cases hnewest with
  | notFound => rfl
  | @found generation hmem hof hlive hobject =>
      have hstate := credentialGenerationState_eq (projectCredentialLifecycle_row
        (isUint32Column_iff.mp h.closeTime)
        (generationEvidence_of_checks (h.isWritten hchain hmem).checks))
      rw [onChainStatus, hstate]
      rfl

/-- The schema that is read for a request, and its evidence. -/
theorem IsServable.isKnown (hprofile : matchesProfileId profile.profileId = true)
    (J : JsonbReader) {request : VerifyRequest} (hrequest : request.network = profile.profileId) :
    ∃ evidence schema,
      schemaEvidence P J request.network rows.toProjectionRows
        (getSchema J request.schemaUid rows.toProjectionRows) = .ok evidence ∧
      (∀ item ∈ evidence, (profile.activationLedgerIndex : ℤ) ≤ item.schema.ledgerIndex
        ∧ item.schema.ledgerIndex ≤ checkpoint.ledgerIndex) ∧
      resolvedSchema P (profileRow profile) request.schemaUid evidence
        (getSchema J request.schemaUid rows.toProjectionRows) = .ok schema ∧
      IsKnown s.catalog request.schemaUid schema := by
  obtain ⟨records, hrecords, -⟩ := (indexedUpTo_ok hchain h.indexed).records
  have hholds := h.holdsRows hchain
  cases hfound : rows.schemas.find? fun row => row.schemaUid == request.schemaUid with
  | none =>
      have hnone : getSchema J request.schemaUid rows.toProjectionRows = none := by
        rw [getSchema, hfound]
        rfl
      rw [hnone]
      refine ⟨[], none, rfl, List.forall_mem_nil _, rfl, .unknown ?_⟩
      rw [List.find?_eq_none] at hfound
      by_contra hknown
      obtain ⟨registered, hregistered⟩ := Option.ne_none_iff_exists'.mp hknown
      obtain ⟨row, hrow, huid⟩ := exists_row_of_catalog hrecords h.rearranged hregistered
      exact hfound row hrow (beq_iff_eq.mpr huid)
  | some row =>
      have hsome : getSchema J request.schemaUid rows.toProjectionRows
          = some (Indexer.readSchema J row) := by
        rw [getSchema, hfound]
        rfl
      have hrow := List.mem_of_find?_eq_some hfound
      have huid : row.schemaUid = request.schemaUid := by
        rw [List.find?_eq_some_iff_append] at hfound
        exact beq_iff_eq.mp hfound.1
      obtain ⟨schemaUids, hread, hindexes, hpage⟩ := exists_served hrecords h.rearranged hprofile
        hholds J (List.forall_mem_singleton.mpr ⟨row, hrow, rfl⟩)
      obtain ⟨served, hserved, hresolves⟩ := hpage _ (List.mem_singleton_self _)
      rw [show (Indexer.readSchema J row).schemaUid = request.schemaUid from huid]
        at hserved hresolves
      rw [hsome, hrequest]
      refine ⟨getSchemaProjectionEvidence J schemaUids rows.toProjectionRows, some served, ?_,
        fun item hitem => ?_, ?_, .resolved hresolves⟩
      · rw [schemaEvidence, hread]
        rfl
      · obtain ⟨other, hother, hindex⟩ := hindexes item hitem
        rw [hindex]
        exact h.places _ _ _ (hholds.schemas.every other hother).place
      · have hnetwork : authoritativeResolvedSchema P (Indexer.readSchema J row)
            (getSchemaProjectionEvidence J schemaUids rows.toProjectionRows)
            ⟨(profileRow profile).profileId, (profileRow profile).networkId,
              (profileRow profile).activationLedgerIndex⟩ request.schemaUid = .ok served := hserved
        rw [resolvedSchema, hnetwork]
        rfl

end Report

/-- A payload for the credential of the chain. -/
def samplePayload : JsValue :=
  .obj [(js "xcsVersion", .str (js "0.1")),
    (js "issuer", .str (js "rHb9CJAWyB4rj91VRWn96DkukG4bwdtyTh")),
    (js "subject", .str (js "rPT1Sjq2YGrBMTttX4GZHjKu9dyfzbpAYe")),
    (js "schema", .str (List.replicate 64 0x30)),
    (js "claims", .obj [(js "a", .str (js "b"))])]

/-- The credential of the chain is to be verified with the payload. -/
def sampleRequest : VerifyRequest where
  network := js "testnet"
  issuer := js "rHb9CJAWyB4rj91VRWn96DkukG4bwdtyTh"
  subject := js "rPT1Sjq2YGrBMTttX4GZHjKu9dyfzbpAYe"
  schemaUid := List.replicate 64 0x30
  payload := some samplePayload
  resolvePayload := false

/-- A report says that the credential is active and the payload valid. -/
def isVerified : Except VerificationError VerificationReport → Bool
  | .ok report =>
      decide (report.onChain = .state .active) && decide (report.payload = .checked .valid)
  | .error _ => false

end Agreement
end Xcs
