import Xcs.Indexer.ProjectionAgreement
import Xcs.Indexer.RegistrationRuns
import Xcs.Indexer.WorkerRuns

/-!
# Indexing without interruption

What the tables should hold after so many ledgers: the ledgers of a chain are projected one after
the other, over the catalog in memory, from a profile that nothing was written under.

* `indexedUpTo` is that computation.
* `indexedUpTo_ok` says that its registrations are a run of registrations, in which each
  one left its rows, when no two have a UID or a transaction in common.
* `extends_of_le` says that it only grows.
* `Records.reloads` says that the catalog loaded from its tables is the catalog in memory, in
  whatever order the tables list the members.
-/

namespace Xcs
namespace Indexer

open Js Json Xcs.Core Db

/-! ## The computation -/

/-- What an indexer has after some ledgers. -/
structure IndexedState where
  rows : ProjectionRows
  catalog : SchemaLookup
  registrations : List SchemaRegistrationResult

/-- The profile, and nothing under it. -/
def IndexedState.start (profile : NetworkProfile) : IndexedState where
  rows := { ProjectionRows.empty with networkProfile := some (profileRow profile) }
  catalog := fun _ => none
  registrations := []

/-- One ledger more. -/
def indexLedger (P : Platform) (profile : NetworkProfile) (ledger : ValidatedLedger)
    (s : IndexedState) : Except Thrown IndexedState := do
  let projection ← projectLedger P ledger profile s.catalog
  let rows ← persistProjection P profile projection s.rows
  pure { rows
         catalog := recordRegistrations profile ledger.ledgerIndex s.catalog
           projection.schemaRegistrations
         registrations := s.registrations ++ projection.schemaRegistrations }

/-- The first ledgers of a chain from the activation of the profile on. -/
def indexedUpTo (P : Platform) (profile : NetworkProfile) (chain : ℕ → ValidatedLedger) :
    ℕ → Except Thrown IndexedState
  | 0 => .ok (.start profile)
  | n + 1 => do
      let s ← indexedUpTo P profile chain n
      indexLedger P profile (chain (profile.activationLedgerIndex + n)) s

/-- The registrations of a chain have a transaction each, and the accepted ones a UID each. -/
structure DistinctRegistrations (registrations : List SchemaRegistrationResult) : Prop where
  schemaUids : (registrations.filterMap (·.schemaUid)).Nodup
  transactionHashes : (registrations.map (·.transactionHash)).Nodup

/-- What is asked of a chain: its ledgers are normalized, no transaction of it registers twice, and
no UID of it collides with another. -/
structure IsIndexable (P : Platform) (profile : NetworkProfile) (chain : ℕ → ValidatedLedger) :
    Prop where
  normalized : ∀ i, (chain i).IsNormalized
  distinct : ∀ n s projection, indexedUpTo P profile chain n = .ok s →
    projectLedger P (chain (profile.activationLedgerIndex + n)) profile s.catalog
        = .ok projection →
      DistinctRegistrations (s.registrations ++ projection.schemaRegistrations)

/-- The checkpoint after so many ledgers. -/
def checkpointAt (profile : NetworkProfile) (chain : ℕ → ValidatedLedger) : ℕ → Option Checkpoint
  | 0 => none
  | n + 1 => some (checkpointFromLedger (chain (profile.activationLedgerIndex + n)))

/-! ## The tables of schemas -/

/-- Neither the events nor the rows of schemas differ. -/
structure SameSchemas (rows rows' : ProjectionRows) : Prop where
  schemaEvents : rows'.schemaEvents = rows.schemaEvents
  schemas : rows'.schemas = rows.schemas

theorem SameSchemas.trans {rows rows' rows'' : ProjectionRows} (h : SameSchemas rows rows')
    (h' : SameSchemas rows' rows'') : SameSchemas rows rows'' :=
  ⟨h'.schemaEvents.trans h.schemaEvents, h'.schemas.trans h.schemas⟩

section Mutations

variable {profile : NetworkProfile} {ledger : ValidatedLedger}

theorem persistGeneration_sameSchemas {mutation : CredentialMutation} {generationId : JsString}
    {rows rows' : ProjectionRows}
    (h : persistGeneration profile ledger mutation rows = .ok (generationId, rows')) :
    SameSchemas rows rows' := by
  rw [persistGeneration.eq_def] at h
  split at h
  · simp only [bind_eq_ok, insertCredentialGeneration_eq_ok, pure_eq_ok, Prod.mk.injEq] at h
    obtain ⟨_, ⟨-, -, -, -, -, -, rfl⟩, -, rfl⟩ := h
    exact ⟨rfl, rfl⟩
  · cases h
  · simp only [bind_eq_ok, updateCredentialGeneration_eq_ok, pure_eq_ok, Prod.mk.injEq] at h
    obtain ⟨_, ⟨-, rfl⟩, -, rfl⟩ := h
    exact ⟨rfl, rfl⟩
  · simp only [bind_eq_ok, updateCredentialGeneration_eq_ok, pure_eq_ok, Prod.mk.injEq] at h
    obtain ⟨_, ⟨-, rfl⟩, -, rfl⟩ := h
    exact ⟨rfl, rfl⟩

/-- No credential mutation writes to the tables of schemas. -/
theorem persistCredentialMutations_sameSchemas {mutations : List CredentialMutation}
    {rows rows' : ProjectionRows}
    (h : persistCredentialMutations profile ledger mutations rows = .ok rows') :
    SameSchemas rows rows' := by
  induction mutations generalizing rows with
  | nil =>
      obtain rfl := Except.ok.inj h
      exact ⟨rfl, rfl⟩
  | cons mutation mutations ih =>
      simp only [persistCredentialMutations, persistCredentialMutation, bind_eq_ok,
        Prod.exists] at h
      obtain ⟨between, ⟨generationId, generations, hgeneration, hevent⟩, hrest⟩ := h
      refine (persistGeneration_sameSchemas hgeneration).trans (SameSchemas.trans ?_ (ih hrest))
      obtain ⟨-, -, ⟨-, rfl⟩ | ⟨-, -, -, -, rfl⟩⟩ := insertCredentialEvent_eq_ok.mp hevent
      · exact ⟨rfl, rfl⟩
      · exact ⟨rfl, rfl⟩

end Mutations

/-! ## The registrations of a ledger -/

/-- The registrations, the catalog and the tables of schemas are those of a run. -/
structure Records (P : Platform) (profile : NetworkProfile) (records : List StoredRegistration)
    (registrations : List SchemaRegistrationResult) (catalog : SchemaLookup)
    (rows : ProjectionRows) : Prop where
  run : RegistrationRun P profile records
  registrations : records.map (·.registration) = registrations
  catalog : catalog = recordedCatalog profile records
  schemas : rows.schemas = records.filterMap (·.schema)
  schemaEvents : rows.schemaEvents = records.map (·.event)

section Records

variable {P : Platform} {profile : NetworkProfile} {ledger : ValidatedLedger}
  {records : List StoredRegistration} {registrations : List SchemaRegistrationResult}
  {catalog : SchemaLookup} {rows rows' : ProjectionRows}

/-- Only registrations of the run have rows. -/
theorem Records.rows_of_distinct (h : Records P profile records registrations catalog rows)
    {registration : SchemaRegistrationResult}
    (hdistinct : DistinctRegistrations (registrations ++ [registration])) :
    (∀ other ∈ rows.schemaEvents, other.transactionHash ≠ registration.transactionHash) ∧
      (∀ other ∈ rows.schemas,
        other.registrationTransactionHash ≠ registration.transactionHash ∧
          registration.schemaUid ≠ some other.schemaUid) ∧
      ∀ uid ∈ registration.schemaUid, ∀ r ∈ records, r.schemaUid ≠ some uid := by
  obtain ⟨huids, hhashes⟩ := hdistinct
  rw [List.filterMap_append, List.nodup_append] at huids
  rw [List.map_append, List.nodup_append] at hhashes
  have hmem : ∀ {r}, r ∈ records → r.registration ∈ registrations := by
    intro r hr
    rw [← h.registrations]
    exact List.mem_map_of_mem hr
  have hhash : ∀ r ∈ records, r.registration.transactionHash ≠ registration.transactionHash :=
    fun r hr => hhashes.2.2 _ (List.mem_map_of_mem (hmem hr)) _ (List.mem_singleton_self _)
  have huid : ∀ uid ∈ registration.schemaUid, ∀ r ∈ records, r.schemaUid ≠ some uid := by
    intro uid hregistration r hr hsame
    exact huids.2.2 uid (List.mem_filterMap.mpr ⟨_, hmem hr, hsame⟩) uid
      (List.mem_filterMap.mpr ⟨_, List.mem_singleton_self _, hregistration⟩) rfl
  refine ⟨fun other hother => ?_, fun other hother => ?_, huid⟩
  · rw [h.schemaEvents] at hother
    obtain ⟨r, hr, rfl⟩ := List.mem_map.mp hother
    obtain ⟨before, step⟩ := h.run.step hr
    rw [step.stored.transactionHash]
    exact hhash r hr
  · rw [h.schemas] at hother
    obtain ⟨r, hr, hrow⟩ := List.mem_filterMap.mp hother
    obtain ⟨before, step⟩ := h.run.step hr
    obtain ⟨hrowUid, hrowHash⟩ := step.stored.schemaUid_eq hrow
    rw [hrowHash]
    exact ⟨hhash r hr, fun hsame => huid _ hsame r hr hrowUid⟩

/-- One registration more. -/
theorem Records.snoc (h : Records P profile records registrations catalog rows)
    (hnormalized : ledger.IsNormalized)
    (hactivated : profile.activationLedgerIndex ≤ ledger.ledgerIndex)
    {transaction : LedgerTransaction} (htransaction : transaction ∈ ledger.transactions)
    {registration : SchemaRegistrationResult}
    (hread : interpretSchemaRegistration P transaction ledger.ledgerHash ledger.ledgerIndex profile
      catalog = some registration)
    (hdistinct : DistinctRegistrations (registrations ++ [registration]))
    (hpersist : persistRegistration P profile ledger registration rows = .ok rows') :
    ∃ r, r.ledger = ledger ∧
      Records P profile (records ++ [r]) (registrations ++ [registration])
        (recordRegistration profile ledger.ledgerIndex catalog registration) rows' := by
  obtain ⟨hevents, hschemas, huid⟩ := h.rows_of_distinct hdistinct
  obtain ⟨event, schema, hstored, hstoredEvents, hstoredSchemas⟩ :=
    exists_isStored transaction hpersist hevents hschemas
  have hcatalog := h.catalog
  refine ⟨⟨ledger, transaction, registration, event, schema⟩, rfl, ?_, ?_, ?_, ?_, ?_⟩
  · refine .snoc h.run ⟨hnormalized, hactivated, htransaction, ⟨catalog, ?_, hread⟩, hstored, huid⟩
    rw [hcatalog]
    exact SameCatalog.refl _
  · rw [List.map_append, h.registrations]
    rfl
  · rw [recordedCatalog_snoc, hcatalog]
  · rw [hstoredSchemas, h.schemas, List.filterMap_append]
    cases schema <;> rfl
  · rw [hstoredEvents, h.schemaEvents, List.map_append]
    rfl

theorem DistinctRegistrations.left {xs ys : List SchemaRegistrationResult}
    (h : DistinctRegistrations (xs ++ ys)) : DistinctRegistrations xs := by
  obtain ⟨huids, hhashes⟩ := h
  rw [List.filterMap_append] at huids
  rw [List.map_append] at hhashes
  exact ⟨(List.nodup_append.mp huids).1, (List.nodup_append.mp hhashes).1⟩

/-- **The registrations of a ledger**, each over the catalog that those before it left. -/
theorem Records.appendLedger (h : Records P profile records registrations catalog rows)
    (hnormalized : ledger.IsNormalized)
    (hactivated : profile.activationLedgerIndex ≤ ledger.ledgerIndex)
    {transactions : List LedgerTransaction}
    (htransactions : ∀ transaction ∈ transactions, transaction ∈ ledger.transactions)
    (hdistinct : DistinctRegistrations
      (registrations ++ (projectTransactions P ledger profile transactions catalog).1))
    (hpersist : persistRegistrations P profile ledger
      (projectTransactions P ledger profile transactions catalog).1 rows = .ok rows') :
    ∃ added, (∀ r ∈ added, r.ledger = ledger) ∧ Records P profile (records ++ added)
      (registrations ++ (projectTransactions P ledger profile transactions catalog).1)
      (catalogAfter P ledger profile transactions catalog) rows' := by
  induction transactions generalizing records registrations catalog rows with
  | nil =>
      obtain rfl := Except.ok.inj hpersist
      refine ⟨[], List.forall_mem_nil _, ?_⟩
      rw [List.append_nil]
      exact ⟨h.run, by rw [projectTransactions, List.append_nil, h.registrations], h.catalog,
        h.schemas, h.schemaEvents⟩
  | cons transaction transactions ih =>
      rw [List.forall_mem_cons] at htransactions
      rw [catalogAfter_cons]
      rw [projectTransactions] at hdistinct hpersist ⊢
      unfold catalogNext
      unfold transactionRegistrations at hdistinct hpersist ⊢
      cases hread : interpretSchemaRegistration P transaction ledger.ledgerHash ledger.ledgerIndex
          profile catalog with
      | none =>
          rw [hread] at hdistinct hpersist
          exact ih h htransactions.2 hdistinct hpersist
      | some registration =>
          rw [hread] at hdistinct hpersist
          simp only [Option.toList_some, List.singleton_append, persistRegistrations,
            bind_eq_ok] at hdistinct hpersist ⊢
          obtain ⟨between, hfirst, hrest⟩ := hpersist
          rw [List.append_cons] at hdistinct
          obtain ⟨r, hledger, hsnoc⟩ := h.snoc hnormalized hactivated htransactions.1 hread
            hdistinct.left hfirst
          obtain ⟨added, hadded, hrecords⟩ := ih hsnoc htransactions.2 hdistinct hrest
          refine ⟨r :: added, List.forall_mem_cons.mpr ⟨hledger, hadded⟩, ?_⟩
          rw [List.append_cons records r added, List.append_cons registrations registration]
          exact hrecords

/-- What is in the catalog has its UID among those of the registrations. -/
theorem Records.mem_uids (h : Records P profile records registrations catalog rows)
    {uid : JsString} {entry : RegisteredSchema} (hfound : catalog uid = some entry) :
    uid ∈ registrations.filterMap (·.schemaUid) := by
  rw [h.catalog] at hfound
  obtain ⟨rfl, r, hr, hentry⟩ := exists_of_recordedCatalog hfound
  rw [← h.registrations, List.filterMap_map]
  exact List.mem_filterMap.mpr ⟨r, hr, schemaUid_of_catalogEntry hentry⟩

/-- Registrations that are distinct from those of a run have UIDs that its catalog does not have. -/
theorem Records.newUids (h : Records P profile records registrations catalog rows)
    {added : List SchemaRegistrationResult}
    (hdistinct : DistinctRegistrations (registrations ++ added)) : NewUids catalog added := by
  obtain ⟨huids, -⟩ := hdistinct
  rw [List.filterMap_append, List.nodup_append] at huids
  refine ⟨huids.2.1, fun uid huid => ?_⟩
  by_contra hsome
  obtain ⟨entry, hfound⟩ := Option.ne_none_iff_exists'.mp hsome
  exact huids.2.2 uid (h.mem_uids hfound) uid huid rfl

end Records

/-! ## The catalog that is loaded -/

/-- What a map of entries finds is an entry with that UID. -/
theorem mem_of_foldl_setSchema {entries : List RegisteredSchema} {catalog : SchemaLookup}
    {uid : JsString} {entry : RegisteredSchema}
    (h : entries.foldl setSchema catalog uid = some entry) :
    entry ∈ entries ∧ entry.uid = uid ∨ catalog uid = some entry := by
  induction entries generalizing catalog with
  | nil => exact Or.inr h
  | cons first entries ih =>
      rcases ih h with ⟨hmem, huid⟩ | hfound
      · exact Or.inl ⟨List.mem_cons_of_mem _ hmem, huid⟩
      · by_cases huid : uid = first.uid
        · subst huid
          rw [setSchema_self, Option.some.injEq] at hfound
          subst hfound
          exact Or.inl ⟨List.mem_cons_self, rfl⟩
        · rw [setSchema_of_ne _ huid] at hfound
          exact Or.inr hfound

/-- Every entry is found, or another one with its UID. -/
theorem exists_of_mem_foldl_setSchema {entries : List RegisteredSchema} {catalog : SchemaLookup}
    {uid : JsString} (h : (∃ entry ∈ entries, entry.uid = uid) ∨ (catalog uid).isSome = true) :
    ∃ found, entries.foldl setSchema catalog uid = some found := by
  induction entries generalizing catalog with
  | nil =>
      rcases h with ⟨entry, hmem, -⟩ | hsome
      · cases hmem
      · exact Option.isSome_iff_exists.mp hsome
  | cons first entries ih =>
      refine ih ?_
      by_cases huid : uid = first.uid
      · rw [huid, setSchema_self]
        exact Or.inr rfl
      · rw [setSchema_of_ne _ huid]
        rcases h with ⟨entry, hmem, rfl⟩ | hsome
        · rcases List.mem_cons.mp hmem with rfl | hmem
          · exact absurd rfl huid
          · exact Or.inl ⟨entry, hmem, rfl⟩
        · exact Or.inr hsome

section Reload

variable {P : Platform} {profile : NetworkProfile} {records : List StoredRegistration}
  {registrations : List SchemaRegistrationResult} {catalog : SchemaLookup} {rows : ProjectionRows}

/-- The entry of a stored schema is the entry in memory, whatever the order of members. -/
theorem Records.sameEntry (h : Records P profile records registrations catalog rows)
    (J : JsonbReader) {r : StoredRegistration} (hr : r ∈ records) {row : SchemaRow}
    (hrow : r.schema = some row) :
    ∃ entry, catalog row.schemaUid = some entry ∧
      SameEntry (catalogEntryFromRow J profile.networkId row) entry := by
  obtain ⟨before, step⟩ := h.run.step hr
  have huid := (step.stored.schemaUid_eq hrow).1
  rw [StoredRegistration.schemaUid, SchemaRegistrationResult.schemaUid] at huid
  cases houtcome : r.registration.outcome with
  | rejected => rw [houtcome] at huid; cases huid
  | accepted schemaUid memoJson definition resolved =>
      obtain ⟨registered, hfound⟩ := h.run.isRegistered r hr _ _ _ _ houtcome
      obtain ⟨row', hrow', definitionJson, resolvedJson, hreads, hdefinition, -⟩ :=
        readsSchema_of_stored registered (step.stored.accepted houtcome) J
      obtain rfl : row = row' := Option.some.inj (hrow.symm.trans hrow')
      have hvalid := isValid_of_parseSchema registered.defined
      obtain ⟨d, hd, hcanon⟩ := parseSchema_congr hdefinition.symm (parseSchema_toJs hvalid)
      have hentry : catalogEntryFromRow J profile.networkId row
          = ⟨r.coordinates profile, schemaUid, definitionJson⟩ := by
        show RegisteredSchema.mk ⟨_, (readSchema J row).publisher, (readSchema J row).ledgerIndex,
          (readSchema J row).transactionIndex⟩ (readSchema J row).schemaUid
          (readSchema J row).definition = _
        rw [hreads]
        rfl
      have hrowUid := congrArg RegisteredSchema.uid hentry
      refine ⟨⟨r.coordinates profile, schemaUid, definition.toJs⟩, ?_, ?_⟩
      · rw [show row.schemaUid = schemaUid from hrowUid, h.catalog]
        exact hfound
      · rw [hentry]
        exact ⟨rfl, rfl, d, definition, hd, parseSchema_toJs hvalid, hcanon⟩

/-- **The catalog that is loaded is the catalog in memory.** -/
theorem Records.reloads (h : Records P profile records registrations catalog rows)
    (hprofile : rows.networkProfile = some (profileRow profile)) (J : JsonbReader) :
    Within (catalogMap (getSchemaCatalog J rows)) catalog ∧
      Within catalog (catalogMap (getSchemaCatalog J rows)) := by
  have hmem : ∀ entry, entry ∈ getSchemaCatalog J rows ↔ ∃ r ∈ records, ∃ row,
      r.schema = some row ∧ catalogEntryFromRow J profile.networkId row = entry := by
    intro entry
    rw [getSchemaCatalog, hprofile]
    simp only [List.mem_map, List.mem_insertionSort, h.schemas, List.mem_filterMap]
    constructor
    · rintro ⟨row, ⟨r, hr, hrow⟩, hentry⟩
      exact ⟨r, hr, row, hrow, hentry⟩
    · rintro ⟨r, hr, row, hrow, hentry⟩
      exact ⟨row, ⟨r, hr, hrow⟩, hentry⟩
  have hloaded : ∀ uid entry, catalogMap (getSchemaCatalog J rows) uid = some entry →
      ∃ entry', catalog uid = some entry' ∧ SameEntry entry entry' := by
    intro uid entry hfound
    rcases mem_of_foldl_setSchema hfound with ⟨hentry, huid⟩ | hnone
    · obtain ⟨r, hr, row, hrow, rfl⟩ := (hmem entry).mp hentry
      rw [← huid]
      exact h.sameEntry J hr hrow
    · cases hnone
  refine ⟨hloaded, fun uid entry hfound => ?_⟩
  have hcatalog := hfound
  rw [h.catalog] at hfound
  obtain ⟨rfl, r, hr, hentry⟩ := exists_of_recordedCatalog hfound
  obtain ⟨before, step⟩ := h.run.step hr
  have hsome := step.stored.schema
  rw [schemaUid_of_catalogEntry hentry, Option.isSome_some] at hsome
  obtain ⟨row, hrow⟩ := Option.isSome_iff_exists.mp hsome
  have huid : some entry.uid = some row.schemaUid :=
    (schemaUid_of_catalogEntry hentry).symm.trans (step.stored.schemaUid_eq hrow).1
  obtain ⟨found, hlookup⟩ := @exists_of_mem_foldl_setSchema (getSchemaCatalog J rows)
    (fun _ => none) entry.uid (Or.inl ⟨catalogEntryFromRow J profile.networkId row,
      (hmem _).mpr ⟨r, hr, row, hrow, rfl⟩, (Option.some.inj huid).symm⟩)
  obtain ⟨entry', hfound', hsame⟩ := hloaded entry.uid found hlookup
  obtain rfl : entry = entry' := Option.some.inj (hcatalog.symm.trans hfound')
  exact ⟨found, hlookup, hsame.symm⟩

end Reload

/-! ## The ledgers of a chain -/

section Chain

variable {P : Platform} {profile : NetworkProfile} {chain : ℕ → ValidatedLedger}

/-- What one ledger more adds. -/
theorem indexedUpTo_succ {n : ℕ} {t : IndexedState} :
    indexedUpTo P profile chain (n + 1) = .ok t ↔
      ∃ s projection, indexedUpTo P profile chain n = .ok s ∧
        projectLedger P (chain (profile.activationLedgerIndex + n)) profile s.catalog
          = .ok projection ∧
        persistProjection P profile projection s.rows = .ok t.rows ∧
        t.catalog = catalogAfter P (chain (profile.activationLedgerIndex + n)) profile
          (chain (profile.activationLedgerIndex + n)).transactions s.catalog ∧
        t.registrations = s.registrations ++ projection.schemaRegistrations := by
  simp only [indexedUpTo, indexLedger, bind_eq_ok, pure_eq_ok]
  constructor
  · rintro ⟨s, hs, projection, hprojection, rows, hrows, rfl⟩
    refine ⟨s, projection, hs, hprojection, hrows, ?_, rfl⟩
    obtain ⟨-, rfl⟩ := projectLedger_eq_ok.mp hprojection
    rfl
  · rintro ⟨s, projection, hs, hprojection, hrows, hcatalog, hregistrations⟩
    obtain ⟨rows, catalog, registrations⟩ := t
    dsimp only at hrows hcatalog hregistrations
    subst hcatalog hregistrations
    refine ⟨s, hs, projection, hprojection, rows, hrows, ?_⟩
    obtain ⟨-, rfl⟩ := projectLedger_eq_ok.mp hprojection
    rfl

/-- What is known after so many ledgers. -/
structure IndexedUpTo (P : Platform) (profile : NetworkProfile) (chain : ℕ → ValidatedLedger)
    (n : ℕ) (s : IndexedState) : Prop where
  networkProfile : s.rows.networkProfile = some (profileRow profile)
  checkpoint : getLastCheckpoint s.rows = checkpointAt profile chain n
  checkpoints : s.rows.ledgerCheckpoints
    = (List.range n).map fun i => checkpointRow (chain (profile.activationLedgerIndex + i))
  ledgerIndex : ∀ i < n, (chain (profile.activationLedgerIndex + i)).ledgerIndex
    = profile.activationLedgerIndex + i
  records : ∃ records, Records P profile records s.registrations s.catalog s.rows ∧
    ∀ r ∈ records, ∃ i < n, r.ledger = chain (profile.activationLedgerIndex + i)

theorem IndexedUpTo.start : IndexedUpTo P profile chain 0 (.start profile) where
  networkProfile := rfl
  checkpoint := rfl
  checkpoints := rfl
  ledgerIndex := fun i hi => absurd hi (Nat.not_lt_zero i)
  records := ⟨[], ⟨.nil, rfl, rfl, rfl, rfl⟩, List.forall_mem_nil _⟩

/-- A ledger that continues the checkpoint after so many ledgers has the next index. -/
theorem ledgerIndex_of_continues {n : ℕ} {ledger : ValidatedLedger}
    (hindex : ∀ i < n, (chain (profile.activationLedgerIndex + i)).ledgerIndex
      = profile.activationLedgerIndex + i)
    (h : Continues profile (checkpointAt profile chain n) ledger) :
    ledger.ledgerIndex = profile.activationLedgerIndex + n := by
  cases n with
  | zero => exact h.1
  | succ n =>
      have hnext : ledger.ledgerIndex
        = (chain (profile.activationLedgerIndex + n)).ledgerIndex + 1 := h.1
      rw [hnext, hindex n (Nat.lt_succ_self n), Nat.add_assoc]

section Next

variable {n : ℕ} {s t : IndexedState} {projection : LedgerProjection}
  (hs : IndexedUpTo P profile chain n s) (hup : indexedUpTo P profile chain n = .ok s)
  (hprojection : projectLedger P (chain (profile.activationLedgerIndex + n)) profile s.catalog
    = .ok projection)
  (hrows : persistProjection P profile projection s.rows = .ok t.rows)
  (hcatalog : t.catalog = catalogAfter P (chain (profile.activationLedgerIndex + n)) profile
    (chain (profile.activationLedgerIndex + n)).transactions s.catalog)
  (hregistrations : t.registrations = s.registrations ++ projection.schemaRegistrations)

include hs hprojection hrows in
/-- The next ledger has the next index. -/
theorem IndexedUpTo.ledgerIndex_next :
    (chain (profile.activationLedgerIndex + n)).ledgerIndex
      = profile.activationLedgerIndex + n := by
  obtain ⟨hcontinues, -⟩ := persistProjection_ok hrows
  rw [hs.checkpoint, projectLedger_ledger hprojection] at hcontinues
  exact ledgerIndex_of_continues hs.ledgerIndex hcontinues

include hs hup hprojection hrows hcatalog hregistrations in
/-- The registrations of the next ledger. -/
theorem IndexedUpTo.records_next (hchain : IsIndexable P profile chain)
    {records : List StoredRegistration}
    (hrecords : Records P profile records s.registrations s.catalog s.rows) :
    ∃ added, (∀ r ∈ added, r.ledger = chain (profile.activationLedgerIndex + n)) ∧
      Records P profile (records ++ added) t.registrations t.catalog t.rows := by
  have hdistinct := hchain.distinct n s projection hup hprojection
  have hindex := hs.ledgerIndex_next hprojection hrows
  obtain ⟨-, rfl⟩ := projectLedger_eq_ok.mp hprojection
  simp only [persistProjection, bind_eq_ok, insertLedgerCheckpoint_eq_ok] at hrows
  obtain ⟨-, -, between, hwritten, after, hmutations, -, -, -, -, hfinal⟩ := hrows
  obtain ⟨added, hadded, hall⟩ := hrecords.appendLedger (hchain.normalized _)
    (by rw [hindex]; exact Nat.le_add_right _ _) (fun _ hmem => hmem) hdistinct hwritten
  have hsame := persistCredentialMutations_sameSchemas hmutations
  refine ⟨added, hadded, ?_⟩
  rw [hcatalog, hregistrations]
  refine ⟨hall.run, hall.registrations, hall.catalog, ?_, ?_⟩
  · rw [hfinal]
    exact hsame.schemas.trans hall.schemas
  · rw [hfinal]
    exact hsame.schemaEvents.trans hall.schemaEvents

include hs hup hprojection hrows hcatalog hregistrations in
/-- One ledger more. -/
theorem IndexedUpTo.succ (hchain : IsIndexable P profile chain) :
    IndexedUpTo P profile chain (n + 1) t := by
  have hindex := hs.ledgerIndex_next hprojection hrows
  obtain ⟨records, hrecords, hplaced⟩ := hs.records
  obtain ⟨added, hadded, hall⟩ := hs.records_next hup hprojection hrows hcatalog hregistrations
    hchain hrecords
  obtain ⟨hcontinues, hprofile, hcheckpoints, -⟩ := persistProjection_ok hrows
  rw [projectLedger_ledger hprojection] at hcontinues hcheckpoints
  have hlast := getLastCheckpoint_append hcontinues hcheckpoints
  refine ⟨hprofile.trans hs.networkProfile, hlast, ?_, fun i hi => ?_, records ++ added, hall,
    fun r hr => ?_⟩
  · rw [hcheckpoints, hs.checkpoints, List.range_succ, List.map_append]
    rfl
  · rcases Nat.lt_succ_iff_lt_or_eq.mp hi with hi | rfl
    · exact hs.ledgerIndex i hi
    · exact hindex
  · rcases List.mem_append.mp hr with hr | hr
    · obtain ⟨i, hi, hledger⟩ := hplaced r hr
      exact ⟨i, hi.trans (Nat.lt_succ_self n), hledger⟩
    · exact ⟨n, Nat.lt_succ_self n, hadded r hr⟩

end Next

/-- **What is known after so many ledgers, at every number of ledgers.** -/
theorem indexedUpTo_ok (hchain : IsIndexable P profile chain) {n : ℕ} {s : IndexedState}
    (h : indexedUpTo P profile chain n = .ok s) : IndexedUpTo P profile chain n s := by
  induction n generalizing s with
  | zero =>
      obtain rfl := Except.ok.inj h
      exact .start
  | succ n ih =>
      obtain ⟨before, projection, hbefore, hprojection, hrows, hcatalog, hregistrations⟩ :=
        indexedUpTo_succ.mp h
      exact (ih hbefore).succ hbefore hprojection hrows hcatalog hregistrations hchain

/-- The catalog grows from one ledger on. -/
theorem extendsFrom_succ (hchain : IsIndexable P profile chain) {n : ℕ} {s t : IndexedState}
    (hs : indexedUpTo P profile chain n = .ok s)
    (ht : indexedUpTo P profile chain (n + 1) = .ok t) :
    ExtendsFrom (profile.activationLedgerIndex + n) 0 s.catalog t.catalog := by
  obtain ⟨before, projection, hbefore, hprojection, hrows, hcatalog, -⟩ := indexedUpTo_succ.mp ht
  obtain rfl : s = before := Except.ok.inj (hs.symm.trans hbefore)
  have hindex := (indexedUpTo_ok hchain ht).ledgerIndex n (Nat.lt_succ_self n)
  obtain ⟨records, hrecords, -⟩ := (indexedUpTo_ok hchain hs).records
  have hdistinct := hchain.distinct n s projection hs hprojection
  obtain ⟨hpositions, rfl⟩ := projectLedger_eq_ok.mp hprojection
  have hextends := extendsFrom_after hpositions (hrecords.newUids hdistinct)
  rw [hcatalog, ← hindex]
  rw [hindex] at hextends ⊢
  exact hextends

/-- **What was indexed is there after more ledgers.** -/
theorem extends_of_le (hchain : IsIndexable P profile chain) {m n : ℕ} {t : IndexedState}
    (h : indexedUpTo P profile chain n = .ok t) (hle : m ≤ n) :
    ∃ s, indexedUpTo P profile chain m = .ok s ∧
      ExtendsFrom (profile.activationLedgerIndex + m) 0 s.catalog t.catalog := by
  induction n generalizing t with
  | zero =>
      obtain rfl := Nat.le_zero.mp hle
      exact ⟨t, h, ExtendsFrom.refl _⟩
  | succ n ih =>
      rcases Nat.le_or_eq_of_le_succ hle with hle | rfl
      · obtain ⟨before, -, hbefore, -⟩ := indexedUpTo_succ.mp h
        obtain ⟨s, hs, hextends⟩ := ih hbefore hle
        refine ⟨s, hs, hextends.trans (extendsFrom_succ hchain hbefore h) ?_⟩
        omega
      · exact ⟨t, h, ExtendsFrom.refl _⟩

/-- **The registrations that are added between two numbers of ledgers** are those of the ledgers
between them. -/
theorem records_of_le (hchain : IsIndexable P profile chain) {m n : ℕ} {s t : IndexedState}
    (hs : indexedUpTo P profile chain m = .ok s) (ht : indexedUpTo P profile chain n = .ok t)
    (hle : m ≤ n) :
    ∃ records added, Records P profile records s.registrations s.catalog s.rows ∧
      Records P profile (records ++ added) t.registrations t.catalog t.rows ∧
      (∀ r ∈ records, ∃ i < m, r.ledger = chain (profile.activationLedgerIndex + i)) ∧
      ∀ r ∈ added, ∃ i, m ≤ i ∧ i < n ∧
        r.ledger = chain (profile.activationLedgerIndex + i) := by
  induction n generalizing t with
  | zero =>
      obtain rfl := Nat.le_zero.mp hle
      obtain rfl := Except.ok.inj (hs.symm.trans ht)
      obtain ⟨records, hrecords, hplaced⟩ := (indexedUpTo_ok hchain hs).records
      refine ⟨records, [], hrecords, ?_, hplaced, List.forall_mem_nil _⟩
      rw [List.append_nil]
      exact hrecords
  | succ n ih =>
      rcases Nat.le_or_eq_of_le_succ hle with hle | rfl
      · obtain ⟨before, projection, hbefore, hprojection, hrows, hcatalog, hregistrations⟩ :=
          indexedUpTo_succ.mp ht
        obtain ⟨records, added, hrecords, hall, hplaced, hadded⟩ := ih hbefore hle
        obtain ⟨next, hnext, hlast⟩ := (indexedUpTo_ok hchain hbefore).records_next hbefore
          hprojection hrows hcatalog hregistrations hchain hall
        rw [List.append_assoc] at hlast
        refine ⟨records, added ++ next, hrecords, hlast, hplaced, fun r hr => ?_⟩
        rcases List.mem_append.mp hr with hr | hr
        · obtain ⟨i, hmi, hi, hledger⟩ := hadded r hr
          exact ⟨i, hmi, hi.trans (Nat.lt_succ_self n), hledger⟩
        · exact ⟨n, hle, Nat.lt_succ_self n, hnext r hr⟩
      · obtain rfl := Except.ok.inj (hs.symm.trans ht)
        obtain ⟨records, hrecords, hplaced⟩ := (indexedUpTo_ok hchain hs).records
        refine ⟨records, [], hrecords, ?_, hplaced, List.forall_mem_nil _⟩
        rw [List.append_nil]
        exact hrecords

end Chain

end Indexer
end Xcs
