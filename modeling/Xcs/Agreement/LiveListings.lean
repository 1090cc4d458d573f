import Xcs.Agreement.VerifiedCredentials
import Xcs.Web.Listings

/-!
# Listings while the indexers run

A client reads a listing page by page, and the indexers go on meanwhile: every request finds the
tables at some later ledger.  What the client has read in the end is what one indexer would have
written without interruption, in the order of the ledger: of the catalog up to the last request, of
the activity up to the first.

* `schemasSnapshot` and `activitySnapshot` are what the handlers find.
* `IsAdvancing.indexed`: the tables of the requests are at more and more ledgers of the chain.
* `live_listings_exact` is the statement about the handlers and the runs of a pool.
-/

namespace Xcs
namespace Agreement

open Js Json Xcs.Core Db Program Indexer Web Keyset

/-! ## The snapshots -/

/-- `getNetwork` -/
def getNetwork (network : JsString) (rows : ProfileRows) : Option NetworkProfileRow :=
  rows.networkProfile.filter fun row => row.profileId == network

/-- What a registration is checked against. -/
def networkOf (row : NetworkProfileRow) : EvidenceNetwork :=
  ⟨row.networkId, row.activationLedgerIndex⟩

/-- `preflightAuthoritativeRead` -/
def preflightAuthoritativeRead (context : ReadContext) (network : JsString) (rows : ProfileRows) :
    Except Refusal Unit :=
  ((assertIndexerReady (rows.indexerStatus.map (readStatus network)) context.now).mapError
    .unavailable).map fun _ => ()

/-- The checks of `GET /v1/networks/:network/schemas` on the rows it has fetched. -/
def checkSchemas (P : Platform) (J : JsonbReader) (context : ReadContext)
    (network : NetworkProfileRow) (rows : ProfileRows) (page : List SchemaRow) :
    Except Refusal Unit := do
  let schemaUids ← (schemaProjectionEvidenceUids P page network.profileId).mapError .thrown
  let evidence := getSchemaProjectionEvidence J schemaUids rows.toProjectionRows
  let _ ← (requireAuthoritativeCheckpoint context network rows
    (evidence.map (·.schema.ledgerIndex))).mapError .unavailable
  let _ ← page.mapM fun row => (authoritativeResolvedSchema P row evidence
    ⟨network.profileId, network.networkId, network.activationLedgerIndex⟩
    row.schemaUid).mapError .thrown
  pure ()

/-- The check of `GET /v1/networks/:network/activity` on the rows it has fetched. -/
def checkActivity (context : ReadContext) (network : NetworkProfileRow) (rows : ProfileRows)
    (page : List SchemaEventRow) : Except Refusal Unit := do
  let _ ← (requireAuthoritativeCheckpoint context network rows
    (page.map (·.ledgerIndex))).mapError .unavailable
  pure ()

/-- What the handler of the catalog finds. -/
def schemasSnapshot (P : Platform) (J : JsonbReader) (context : ReadContext) (network : JsString)
    (rows : ProfileRows) : ListingSnapshot SchemaRow where
  rows := rows.schemas.map (Indexer.readSchema J)
  network := (getNetwork network rows).map networkOf
  preflightAuthoritativeRead := preflightAuthoritativeRead context network rows
  requireAuthoritativeCheckpoint := fun page =>
    match getNetwork network rows with
    | none => .error networkNotFound
    | some network => checkSchemas P J context network rows page

/-- What the handler of the activity finds. -/
def activitySnapshot (J : JsonbReader) (context : ReadContext) (network : JsString)
    (rows : ProfileRows) : ListingSnapshot SchemaEventRow where
  rows := rows.schemaEvents.map (Indexer.readEvent J)
  network := (getNetwork network rows).map networkOf
  preflightAuthoritativeRead := preflightAuthoritativeRead context network rows
  requireAuthoritativeCheckpoint := fun page =>
    match getNetwork network rows with
    | none => .error networkNotFound
    | some network => checkActivity context network rows page

/-! ## Pools that advance -/

/-- Indexers and the tables they share. -/
abbrev IndexerPool : Type :=
  Pool WorkerCall WorkerCall.Answer (Thrown × WorkerState) (Unit × WorkerState) FencingState

/-- The states of one run of indexers that began with empty tables, at the times of requests. -/
structure IsAdvancing (P : Platform) (profile : NetworkProfile) (chain : ℕ → ValidatedLedger)
    (pools : ℕ → IndexerPool) : Prop where
  reached : ∃ pool events, Run (Pool.Step (indexerRules P profile chain)) pool events (pools 0) ∧
    pool.programs = [] ∧ pool.world.rows.toProjectionRows = ProjectionRows.empty
  advances : ∀ n, ∃ events,
    Run (Pool.Step (indexerRules P profile chain)) (pools n) events (pools (n + 1))

section Advancing

variable {P : Platform} {profile : NetworkProfile} {chain : ℕ → ValidatedLedger}

/-- The tables are at some ledger, and every indexer goes on as an indexer does. -/
def IsGuarded (P : Platform) (profile : NetworkProfile) (chain : ℕ → ValidatedLedger)
    (pool : IndexerPool) : Prop :=
  Pool.Holds (AtSomeLedger P profile chain) (EnsuresUnder (Answered P chain)
    (Advances P profile chain) (MayCall P profile chain) fun _ _ => True) pool

/-- **A run moves the tables on.** -/
theorem IsGuarded.run (hchain : IsIndexable P profile chain) {pool pool' : IndexerPool}
    {events : List (PoolEvent WorkerCall WorkerCall.Answer (Thrown × WorkerState)
      (Unit × WorkerState))}
    (h : IsGuarded P profile chain pool)
    (hrun : Run (Pool.Step (indexerRules P profile chain)) pool events pool') :
    IsGuarded P profile chain pool' ∧ Advances P profile chain pool.world pool'.world := by
  refine @Pool.relyGuarantee_run _ _ _ _ _ (indexerRules P profile chain)
    (AtSomeLedger P profile chain) (Advances P profile chain) (MayCall P profile chain) _ ?_
    Advances.refl ?_ ?_ pool pool' events hrun h
  · rintro world program hworld ⟨worker, rfl, fuel, fields, rfl⟩
    exact (start_among hchain hworld fields).mono fun _ _ _ => trivial
  · rintro c world answer world' hworld hmay hanswered
    exact calls_atLedger hchain hworld hmay hanswered
  · rintro world world' ⟨n, hn⟩ ⟨hrows, -⟩
    refine ⟨⟨n, ?_⟩, fun n hn => ⟨n, le_rfl, ?_⟩⟩
    · rw [hrows]
      exact hn
    · rw [hrows]
      exact hn

theorem IsAdvancing.isGuarded (hchain : IsIndexable P profile chain) {pools : ℕ → IndexerPool}
    (h : IsAdvancing P profile chain pools) : ∀ n, IsGuarded P profile chain (pools n) := by
  intro n
  induction n with
  | zero =>
      obtain ⟨pool, events, hrun, hempty, hstart⟩ := h.reached
      have hworld : AtSomeLedger P profile chain pool.world := by
        rw [AtSomeLedger, hstart]
        exact ⟨0, ⟨_, rfl, rfl⟩, Or.inr ⟨rfl, rfl⟩⟩
      refine (IsGuarded.run hchain ⟨hworld, ?_⟩ hrun).1
      rw [hempty]
      exact List.forall_mem_nil _
  | succ n ih =>
      obtain ⟨events, hrun⟩ := h.advances n
      exact (ih.run hchain hrun).1

/-- **The tables at the times of the requests** are at more and more ledgers of the chain. -/
theorem IsAdvancing.indexed (hchain : IsIndexable P profile chain) {pools : ℕ → IndexerPool}
    (h : IsAdvancing P profile chain pools) (n : ℕ) :
    AtLedger P profile chain (pools n).world.rows.ledgerCheckpoints.length
        (pools n).world.rows.toProjectionRows ∧
      (pools n).world.rows.ledgerCheckpoints.length
        ≤ (pools (n + 1)).world.rows.ledgerCheckpoints.length := by
  obtain ⟨m, hm⟩ := (h.isGuarded hchain n).world
  obtain ⟨events, hrun⟩ := h.advances n
  obtain ⟨m', hle, hm'⟩ := ((h.isGuarded hchain n).run hchain hrun).2 m hm
  rw [hm.length_ledgerCheckpoints hchain, hm'.length_ledgerCheckpoints hchain]
  exact ⟨hm, hle⟩

end Advancing

/-! ## Tables that grow -/

/-- The tables of a database hold what indexing so many ledgers leaves, in any order. -/
structure HoldsLedgers (P : Platform) (profile : NetworkProfile) (chain : ℕ → ValidatedLedger)
    (rows : ProjectionRows) (s : IndexedState) : Prop where
  indexed : indexedUpTo P profile chain rows.ledgerCheckpoints.length = .ok s
  rearranged : Rearranged s.rows { rows with networkProfile := some (profileRow profile) }
  networkProfile : rows.networkProfile.isSome = true →
    rows.networkProfile = some (profileRow profile)

section Tables

variable {P : Platform} {profile : NetworkProfile} {chain : ℕ → ValidatedLedger}

/-- With the profile in them, the tables are those that indexing leaves. -/
theorem HoldsLedgers.rearranged_of_isSome {rows : ProjectionRows} {s : IndexedState}
    (h : HoldsLedgers P profile chain rows s) (hsome : rows.networkProfile.isSome = true) :
    Rearranged s.rows rows := by
  have hrows := h.rearranged
  rw [← h.networkProfile hsome] at hrows
  exact hrows

/-- The tables that a client finds. -/
theorem exists_holdsLedgers {before rows : ProjectionRows}
    (hat : AtLedger P profile chain before.ledgerCheckpoints.length before)
    (hrows : Rearranged before rows) : ∃ s, HoldsLedgers P profile chain rows s := by
  obtain ⟨s, hs, hbefore⟩ := hat.indexed
  rw [hrows.ledgerCheckpoints.length_eq] at hs
  refine ⟨s, hs, ?_, fun hsome => ?_⟩
  · rw [← hbefore]
    exact { hrows with networkProfile := rfl }
  · rw [hrows.networkProfile] at hsome ⊢
    rcases hat.networkProfile with hprofile | ⟨hnone, -⟩
    · exact hprofile
    · rw [hnone] at hsome
      cases hsome

theorem event_ledgerIndex {r : StoredRegistration} (h : IsStored P profile r) :
    r.event.ledgerIndex = r.ledger.ledgerIndex := by
  cases houtcome : r.registration.outcome with
  | accepted schemaUid memoJson definition resolved =>
      rw [(h.accepted houtcome).event]
      rfl
  | rejected reasonCode memoJson =>
      obtain ⟨_, hevent⟩ := h.rejected houtcome
      rw [hevent]
      rfl

theorem schema_ledgerIndex {r : StoredRegistration} (h : IsStored P profile r) {row : SchemaRow}
    (hrow : r.schema = some row) : row.ledgerIndex = r.ledger.ledgerIndex := by
  have hsome := h.schema
  rw [hrow, Option.isSome_some, StoredRegistration.schemaUid,
    SchemaRegistrationResult.schemaUid] at hsome
  cases houtcome : r.registration.outcome with
  | rejected =>
      rw [houtcome] at hsome
      cases hsome
  | accepted schemaUid memoJson definition resolved =>
      have hschema := (h.accepted houtcome).schema
      rw [hrow, Option.some.injEq] at hschema
      rw [hschema]
      rfl

/-- **What more ledgers add** is beyond what was there. -/
theorem appended_of_le (hchain : IsIndexable P profile chain) {m n : ℕ} {s t : IndexedState}
    (hs : indexedUpTo P profile chain m = .ok s) (ht : indexedUpTo P profile chain n = .ok t)
    (hle : m ≤ n) :
    (∃ new, t.rows.schemas = s.rows.schemas ++ new ∧
      ∀ a ∈ s.rows.schemas, ∀ b ∈ new, a.ledgerIndex < b.ledgerIndex) ∧
    ∃ new, t.rows.schemaEvents = s.rows.schemaEvents ++ new ∧
      ∀ a ∈ s.rows.schemaEvents, ∀ b ∈ new, a.ledgerIndex < b.ledgerIndex := by
  obtain ⟨records, added, hrecords, hall, hplaced, hadded⟩ := records_of_le hchain hs ht hle
  have hindex := (indexedUpTo_ok hchain ht).ledgerIndex
  have hlt : ∀ r ∈ records, ∀ r' ∈ added, r.ledger.ledgerIndex < r'.ledger.ledgerIndex := by
    intro r hr r' hr'
    obtain ⟨i, hi, hledger⟩ := hplaced r hr
    obtain ⟨j, hmj, hjn, hledger'⟩ := hadded r' hr'
    rw [hledger, hledger', hindex i (by omega), hindex j hjn]
    omega
  have hstored : ∀ r ∈ records ++ added, IsStored P profile r := by
    intro r hr
    obtain ⟨before, step⟩ := hall.run.step hr
    exact step.stored
  rw [List.forall_mem_append] at hstored
  constructor
  · refine ⟨added.filterMap (·.schema), ?_, fun a ha b hb => ?_⟩
    · rw [hall.schemas, hrecords.schemas, List.filterMap_append]
    · rw [hrecords.schemas, List.mem_filterMap] at ha
      obtain ⟨r, hr, ha⟩ := ha
      obtain ⟨r', hr', hb⟩ := List.mem_filterMap.mp hb
      rw [schema_ledgerIndex (hstored.1 r hr) ha, schema_ledgerIndex (hstored.2 r' hr') hb]
      exact Int.ofNat_lt.mpr (hlt r hr r' hr')
  · refine ⟨added.map (·.event), ?_, fun a ha b hb => ?_⟩
    · rw [hall.schemaEvents, hrecords.schemaEvents, List.map_append]
    · rw [hrecords.schemaEvents, List.mem_map] at ha
      obtain ⟨r, hr, rfl⟩ := ha
      obtain ⟨r', hr', rfl⟩ := List.mem_map.mp hb
      rw [event_ledgerIndex (hstored.1 r hr), event_ledgerIndex (hstored.2 r' hr')]
      exact Int.ofNat_lt.mpr (hlt r hr r' hr')

/-- Rows with larger indices were added, however the tables list them. -/
theorem rowsAppended_map {α : Type} {profileId : α → JsString} {place : α → ListingCursor}
    {read : α → α} (hplace : ∀ a, place (read a) = place a) {old new rows rows' : List α}
    (hlt : ∀ a ∈ old, ∀ b ∈ new, (place a).ledgerIndex < (place b).ledgerIndex)
    (hrows : old.Perm rows) (hrows' : (old ++ new).Perm rows') (network : JsString) :
    RowsAppended profileId place network (rows.map read) (rows'.map read) := by
  refine ⟨(new.map read).filter fun row => profileId row == network, ?_, ?_⟩
  · have hperm := (hrows'.symm.map read).filter fun row => profileId row == network
    rw [List.map_append, List.filter_append] at hperm
    exact hperm.trans (((hrows.map read).filter _).append_right _)
  · intro _ hread _ _ hnew
    obtain ⟨a, ha, rfl⟩ := List.mem_map.mp hread
    obtain ⟨b, hb, rfl⟩ := List.mem_map.mp (List.mem_of_mem_filter hnew)
    rw [hplace, hplace]
    exact Or.inl (hlt a (hrows.mem_iff.mpr ha) b hb)

theorem checks_readEvent (J : JsonbReader) (row : SchemaEventRow) :
    (Indexer.readEvent J row).checks = row.checks := by
  have hnull : ∀ v : JsValue, isNotNull v.canon = isNotNull v := by
    intro v
    cases v <;> rfl
  have hread : isNotNull (J.read row.memoJson) = isNotNull row.memoJson := by
    rw [← hnull, J.canon_read, hnull]
  rw [SchemaEventRow.checks, show (Indexer.readEvent J row).memoJson = J.read row.memoJson from rfl,
    hread]
  rfl

section Held

variable {rows : ProjectionRows} {s : IndexedState} (h : HoldsLedgers P profile chain rows s)
  (hchain : IsIndexable P profile chain)

include h hchain

theorem HoldsLedgers.holdsRows :
    HoldsRows profile (IsOfChain profile chain rows.ledgerCheckpoints.length)
      { rows with networkProfile := some (profileRow profile) } :=
  (holdsRows_of_indexedUpTo hchain h.indexed).rearranged h.rearranged

theorem HoldsLedgers.isSchemasTable (J : JsonbReader) :
    IsSchemasTable (rows.schemas.map (Indexer.readSchema J)) := by
  obtain ⟨records, hrecords, -⟩ := (indexedUpTo_ok hchain h.indexed).records
  have hholds := h.holdsRows hchain
  refine ⟨List.forall_mem_map.mpr fun row hrow => (hholds.schemas.every row hrow).checks,
    List.forall_mem_map.mpr fun row hrow => (hholds.schemas.every row hrow).transactionIndex, ?_⟩
  have hdistinct := distinct_schemaUids hrecords h.rearranged hholds
  refine List.Nodup.of_map Prod.snd ?_
  rw [List.map_map, List.map_map]
  exact hdistinct

theorem HoldsLedgers.isSchemaEventsTable (J : JsonbReader) :
    IsSchemaEventsTable (rows.schemaEvents.map (Indexer.readEvent J)) := by
  have hholds := h.holdsRows hchain
  refine ⟨List.forall_mem_map.mpr fun row hrow => ?_,
    List.forall_mem_map.mpr fun row hrow => (hholds.events.every row hrow).transactionIndex, ?_⟩
  · rw [checks_readEvent]
    exact (hholds.events.every row hrow).checks
  · refine List.Nodup.of_map Prod.snd ?_
    rw [List.map_map, List.map_map]
    exact hholds.events.keys

/-- The rows of a later request. -/
theorem HoldsLedgers.rowsAppended {rows' : ProjectionRows} {t : IndexedState}
    (h' : HoldsLedgers P profile chain rows' t)
    (hle : rows.ledgerCheckpoints.length ≤ rows'.ledgerCheckpoints.length) (J : JsonbReader)
    (network : JsString) :
    RowsAppended SchemaRow.profileId schemaPlace network
        (rows.schemas.map (Indexer.readSchema J)) (rows'.schemas.map (Indexer.readSchema J)) ∧
      RowsAppended SchemaEventRow.profileId registrationPlace network
        (rows.schemaEvents.map (Indexer.readEvent J))
        (rows'.schemaEvents.map (Indexer.readEvent J)) := by
  obtain ⟨⟨schemas, hschemas, hlt⟩, events, hevents, hltEvents⟩ :=
    appended_of_le hchain h.indexed h'.indexed hle
  have hplace : ∀ row, schemaPlace (Indexer.readSchema J row) = schemaPlace row := fun _ => rfl
  have hplaceEvents : ∀ row, registrationPlace (Indexer.readEvent J row) = registrationPlace row :=
    fun _ => rfl
  have hperm := h'.rearranged.schemas
  have hpermEvents := h'.rearranged.schemaEvents
  rw [hschemas] at hperm
  rw [hevents] at hpermEvents
  exact ⟨rowsAppended_map hplace hlt h.rearranged.schemas hperm network,
    rowsAppended_map hplaceEvents hltEvents h.rearranged.schemaEvents hpermEvents network⟩

/-- The catalog of a request, in the order of the ledger. -/
theorem HoldsLedgers.ordered_schemas (collation : LinearOrder JsString) (J : JsonbReader)
    (request : SchemasRequest) :
    ordered (schemaKey collation)
        (matchingSchemas request (rows.schemas.map (Indexer.readSchema J)))
      = ordered (schemaKey collation)
        (matchingSchemas request (s.rows.schemas.map (Indexer.readSchema J))) := by
  have hperm := (h.rearranged.schemas.map (Indexer.readSchema J)).filter
    fun row => matchesSchemas request.network request.publisher row
  exact (ordered_of_perm (distinct_matchingSchemas collation (h.isSchemasTable hchain J) request)
    hperm).symm

/-- The activity of a request, in the opposite order. -/
theorem HoldsLedgers.ordered_events (collation : LinearOrder JsString) (J : JsonbReader)
    (request : ListingRequest) :
    ordered (registrationKey collation)
        (matchingRegistrations request (rows.schemaEvents.map (Indexer.readEvent J)))
      = ordered (registrationKey collation)
        (matchingRegistrations request (s.rows.schemaEvents.map (Indexer.readEvent J))) := by
  have hperm := (h.rearranged.schemaEvents.map (Indexer.readEvent J)).filter
    fun row => row.profileId == request.network
  exact (ordered_of_perm (distinct_matchingRegistrations collation
    (h.isSchemaEventsTable hchain J) request) hperm).symm

/-- A registration whose publisher is an address is shown. -/
theorem HoldsLedgers.exists_activityItem (J : JsonbReader) {row : SchemaEventRow}
    (hrow : row ∈ rows.schemaEvents) (hpublisher : P.isValidClassicAddress row.publisher = true) :
    ∃ item, activityItem P (evidenceNetwork profile) (Indexer.readEvent J row) = .ok item := by
  obtain ⟨records, hrecords, -⟩ := (indexedUpTo_ok hchain h.indexed).records
  obtain ⟨r, hr, rfl⟩ := (mem_schemaEvents_iff hrecords h.rearranged).mp hrow
  obtain ⟨before, step⟩ := hrecords.run.step hr
  obtain ⟨shown, hshown⟩ := (shown_iff_of_run hrecords.run hr J).mpr hpublisher
  have hhash : (Indexer.readEvent J r.event).transactionHash = r.registration.transactionHash :=
    step.stored.transactionHash
  rw [activityItem, hhash, hshown]
  exact ⟨_, rfl⟩

end Held

/-- The places of the ledgers that were read are covered by the checkpoint of a network that is
ready. -/
theorem HoldsLedgers.covered (hchain : IsIndexable P profile chain) {rows : ProfileRows}
    {s : IndexedState} (h : HoldsLedgers P profile chain rows.toProjectionRows s)
    {context : ReadContext} {checkpoint : LedgerCheckpoint}
    (hready : requireAuthoritativeCheckpoint context (profileRow profile) rows []
      = .ok checkpoint) {ledgerIndex transactionIndex : ℤ} {hash : JsString}
    (hplace : IsOfChain profile chain rows.ledgerCheckpoints.length ledgerIndex transactionIndex
      hash) :
    (profile.activationLedgerIndex : ℤ) ≤ ledgerIndex ∧ ledgerIndex ≤ checkpoint.ledgerIndex := by
  obtain ⟨row, hlatest, hread⟩ :=
    Option.map_eq_some_iff.mp (requireAuthoritativeCheckpoint_eq_ok.mp hready).2
  rw [← hread]
  exact le_latest_of_isOfChain hchain h.indexed h.rearranged hlatest hplace

end Tables

/-! ## The handlers -/

/-- The network is stored, and what is known of its indexer is ready. -/
structure IsReady (profile : NetworkProfile) (context : ReadContext) (rows : ProfileRows) :
    Prop where
  networkProfile : rows.networkProfile.isSome = true
  checkpoint : ∃ checkpoint, requireAuthoritativeCheckpoint context (profileRow profile) rows []
    = .ok checkpoint

section Handlers

variable {P : Platform} {profile : NetworkProfile} {chain : ℕ → ValidatedLedger}
  {collation : LinearOrder JsString} {rows : ProfileRows} {s : IndexedState}
  {context : ReadContext}

/-- The rows of a page are rows of the table. -/
theorem mem_of_mem_listSchemas {schemas : List SchemaRow} {network : JsString}
    {publisher : Option JsString} {cursor : Option ListingCursor} {limit : ℕ} {row : SchemaRow}
    (h : row ∈ listSchemas collation schemas network publisher cursor limit) : row ∈ schemas := by
  have hsorted := List.mem_of_mem_take h
  rw [List.mem_insertionSort] at hsorted
  exact List.mem_of_mem_filter hsorted

theorem mem_of_mem_listSchemaRegistrations {schemaEvents : List SchemaEventRow}
    {network : JsString} {cursor : Option ListingCursor} {limit : ℕ} {row : SchemaEventRow}
    (h : row ∈ listSchemaRegistrations collation schemaEvents network cursor limit) :
    row ∈ schemaEvents := by
  have hsorted := List.mem_of_mem_take h
  rw [List.mem_insertionSort] at hsorted
  exact List.mem_of_mem_filter hsorted

section Ready

variable (h : HoldsLedgers P profile chain rows.toProjectionRows s)
  (hchain : IsIndexable P profile chain) (hready : IsReady profile context rows)

include h hready

theorem getNetwork_eq : getNetwork profile.profileId rows = some (profileRow profile) := by
  rw [getNetwork, h.networkProfile hready.networkProfile, Option.filter_some, if_pos]
  exact beq_self_eq_true _

omit h in
theorem preflightAuthoritativeRead_eq :
    preflightAuthoritativeRead context profile.profileId rows = .ok () := by
  obtain ⟨checkpoint, hcheckpoint⟩ := hready.checkpoint
  obtain ⟨⟨status, hstatus⟩, -⟩ := ready_of_required hcheckpoint
  have hok : assertIndexerReady (rows.indexerStatus.map (readStatus profile.profileId)) context.now
      = .ok status := hstatus
  rw [preflightAuthoritativeRead, hok]
  rfl

include hchain

/-- Every page of the catalog passes its checks. -/
theorem checkSchemas_eq (hprofile : matchesProfileId profile.profileId = true) (J : JsonbReader)
    {page : List SchemaRow} (hpage : ∀ row ∈ page, row ∈ rows.schemas.map (Indexer.readSchema J)) :
    checkSchemas P J context (profileRow profile) rows page = .ok () := by
  obtain ⟨records, hrecords, -⟩ := (indexedUpTo_ok hchain h.indexed).records
  have hrows := h.rearranged_of_isSome hready.networkProfile
  have hholds := (holdsRows_of_indexedUpTo hchain h.indexed).rearranged hrows
  obtain ⟨schemaUids, huids, hindexes, hserved⟩ := exists_served hrecords hrows hprofile
    hholds J fun row hrow => by
      obtain ⟨stored, hstored, rfl⟩ := List.mem_map.mp (hpage row hrow)
      exact ⟨stored, hstored, rfl⟩
  obtain ⟨checkpoint, hcheckpoint⟩ := hready.checkpoint
  have hcovered : ∀ index ∈ (getSchemaProjectionEvidence J schemaUids
      rows.toProjectionRows).map (·.schema.ledgerIndex),
      (profile.activationLedgerIndex : ℤ) ≤ index ∧ index ≤ checkpoint.ledgerIndex := by
    refine List.forall_mem_map.mpr fun item hitem => ?_
    obtain ⟨other, hother, hindex⟩ := hindexes item hitem
    rw [hindex]
    exact h.covered hchain hcheckpoint (hholds.schemas.every other hother).place
  have hread : (schemaProjectionEvidenceUids P page (profileRow profile).profileId).mapError
      Refusal.thrown = .ok schemaUids := congrArg (Except.mapError Refusal.thrown) huids
  have hrequired := congrArg (Except.mapError Refusal.unavailable)
    (requireAuthoritativeCheckpoint_of_le hcheckpoint hcovered)
  obtain ⟨resolved, hresolved⟩ := exists_forall₂ hserved
  have hmapped : (page.mapM fun row => (authoritativeResolvedSchema P row
      (getSchemaProjectionEvidence J schemaUids rows.toProjectionRows)
      ⟨(profileRow profile).profileId, (profileRow profile).networkId,
        (profileRow profile).activationLedgerIndex⟩
      row.schemaUid).mapError Refusal.thrown) = .ok resolved :=
    mapM_eq_ok.mpr (hresolved.imp fun _ _ hrow =>
      congrArg (Except.mapError Refusal.thrown) hrow.1)
  simp only [checkSchemas, bind_eq_ok]
  exact ⟨schemaUids, hread, checkpoint, hrequired, resolved, hmapped, rfl⟩

/-- Every page of the activity passes its check. -/
theorem checkActivity_eq (J : JsonbReader) {page : List SchemaEventRow}
    (hpage : ∀ row ∈ page, row ∈ rows.schemaEvents.map (Indexer.readEvent J)) :
    checkActivity context (profileRow profile) rows page = .ok () := by
  have hholds := h.holdsRows hchain
  obtain ⟨checkpoint, hcheckpoint⟩ := hready.checkpoint
  have hcovered : ∀ index ∈ page.map (·.ledgerIndex),
      (profile.activationLedgerIndex : ℤ) ≤ index ∧ index ≤ checkpoint.ledgerIndex := by
    refine List.forall_mem_map.mpr fun row hrow => ?_
    obtain ⟨stored, hstored, rfl⟩ := List.mem_map.mp (hpage row hrow)
    exact h.covered hchain hcheckpoint (hholds.events.every stored hstored).place
  rw [checkActivity, requireAuthoritativeCheckpoint_of_le hcheckpoint hcovered]
  rfl

/-- **Every request for a page of the catalog is answered.** -/
theorem exists_getSchemas (hprofile : matchesProfileId profile.profileId = true) (J : JsonbReader)
    {request : SchemasRequest} (hnetwork : request.network = profile.profileId)
    (hquery : isSchemasQuery P request = true) {cursor : Option ListingCursor}
    (hcursor : cursorParameter decodeSchemaCursor request.cursor = .ok cursor) :
    ∃ page, getSchemas P collation (schemasSnapshot P J context request.network rows) request
      = .ok page := by
  have hfound := getNetwork_eq h hready
  rw [hnetwork]
  refine ⟨_, getSchemas_eq_ok.mpr ⟨hquery, ?_, preflightAuthoritativeRead_eq hready, cursor,
    hcursor, ?_, rfl⟩⟩
  · rw [schemasSnapshot, hfound]
    rfl
  · simp only [schemasSnapshot, hfound]
    exact checkSchemas_eq h hchain hready hprofile J fun row hrow => mem_of_mem_listSchemas hrow

end Ready

/-! ## Walks -/

/-- The checks of a page of the activity are left out. -/
def unchecked {α : Type} (snapshot : ListingSnapshot α) : ListingSnapshot α :=
  { snapshot with requireAuthoritativeCheckpoint := fun _ => .ok () }

/-- Where every page passes its checks, they decide nothing. -/
theorem getActivity_of_unchecked {snapshot : ListingSnapshot SchemaEventRow}
    (hpasses : ∀ page, (∀ row ∈ page, row ∈ snapshot.rows) →
      snapshot.requireAuthoritativeCheckpoint page = .ok ()) {request : ListingRequest}
    {page : Page ActivityItem JsString}
    (h : getActivity P collation (unchecked snapshot) request = .ok page) :
    getActivity P collation snapshot request = .ok page := by
  obtain ⟨hquery, network, hnetwork, hpreflight, cursor, hcursor, -, items, hitems, hpage⟩ :=
    getActivity_eq_ok.mp h
  exact getActivity_eq_ok.mpr ⟨hquery, network, hnetwork, hpreflight, cursor, hcursor,
    hpasses _ fun _ hrow => mem_of_mem_listSchemaRegistrations hrow, items, hitems, hpage⟩

section Unchecked

variable (h : HoldsLedgers P profile chain rows.toProjectionRows s)
  (hready : IsReady profile context rows) (J : JsonbReader)

include h hready

theorem activitySnapshot_network :
    (activitySnapshot J context profile.profileId rows).network
      = some (evidenceNetwork profile) := by
  rw [activitySnapshot, getNetwork_eq h hready]
  rfl

/-- Nothing is left to fail before the rows are presented. -/
theorem passes_unchecked :
    (unchecked (activitySnapshot J context profile.profileId rows)).Passes where
  network := by
    rw [unchecked, activitySnapshot_network h hready]
    rfl
  preflight := preflightAuthoritativeRead_eq hready
  checkpoint := fun _ => rfl

/-- **The checks of a page decide nothing** while the network is ready. -/
theorem getActivity_of_ready (hchain : IsIndexable P profile chain) {request : ListingRequest}
    {page : Page ActivityItem JsString}
    (hpage : getActivity P collation
      (unchecked (activitySnapshot J context profile.profileId rows)) request = .ok page) :
    getActivity P collation (activitySnapshot J context profile.profileId rows) request
      = .ok page := by
  refine getActivity_of_unchecked (fun page hrows => ?_) hpage
  simp only [activitySnapshot, getNetwork_eq h hready]
  exact checkActivity_eq h hchain hready J hrows

/-- Registrations by publishers that are addresses are shown. -/
theorem exists_item_of_publishers (hchain : IsIndexable P profile chain)
    (hpublishers : ∀ row ∈ rows.schemaEvents, P.isValidClassicAddress row.publisher = true)
    {network : EvidenceNetwork}
    (hnetwork : network ∈ (activitySnapshot J context profile.profileId rows).network)
    {row : SchemaEventRow}
    (hrow : row ∈ (activitySnapshot J context profile.profileId rows).rows) :
    ∃ item, activityItem P network row = .ok item := by
  rw [activitySnapshot_network h hready, Option.mem_some_iff] at hnetwork
  obtain ⟨stored, hstored, rfl⟩ := List.mem_map.mp hrow
  rw [← hnetwork]
  exact h.exists_activityItem hchain J hstored (hpublishers stored hstored)

end Unchecked

end Handlers

/-- The activity of the chain is to be listed one by one. -/
def sampleListing : ListingRequest :=
  ⟨js "testnet", none, some (js "1")⟩

end Agreement
end Xcs
