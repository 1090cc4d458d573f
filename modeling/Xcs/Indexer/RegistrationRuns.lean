import Xcs.Core.SchemaLineage
import Xcs.Indexer.RegistrationStorage

/-!
# Runs of registrations

The indexer interprets one registration after the other, each over a catalog of the schemas accepted
before it, and stores the rows of each.  The catalog is the one in memory or one that was loaded
from the tables, whose definitions list their members in another order.

* `RegistrationRun` says how the registrations of a run were interpreted and stored.
* `RegistrationRun.isRegistered` says what an accepted registration amounts to at the end of the
  run: its schema still resolves there as it did when it was registered.
* `IsStored.accepted` and `IsStored.rejected` say what its rows are, and `readsSchema_of_stored` and
  `readsEvent_of_stored` what a reader of `jsonb` columns makes of them.
-/

namespace Xcs
namespace Indexer

open Js Json Xcs.Core Db

/-! ## Registrations and their rows -/

/-- A registration, the ledger and the transaction it was found in, and the rows it left. -/
structure StoredRegistration where
  ledger : ValidatedLedger
  transaction : LedgerTransaction
  registration : SchemaRegistrationResult
  event : SchemaEventRow
  schema : Option SchemaRow

/-- The UID of a registration that was accepted. -/
def StoredRegistration.schemaUid (r : StoredRegistration) : Option JsString :=
  r.registration.schemaUid

/-- The coordinates of a registration. -/
def StoredRegistration.coordinates (profile : NetworkProfile) (r : StoredRegistration) :
    SchemaCoordinates where
  networkId := profile.networkId
  publisher := r.registration.publisher
  ledgerIndex := r.ledger.ledgerIndex
  transactionIndex := r.registration.transactionIndex

/-- The rows are those that `persistRegistration` appends to the tables, one in `schemas` for a
registration that was accepted. -/
structure IsStored (P : Platform) (profile : NetworkProfile) (r : StoredRegistration) : Prop where
  persisted : ∃ rows rows' : ProjectionRows,
    persistRegistration P profile r.ledger r.registration rows = .ok rows' ∧
      rows'.schemaEvents = rows.schemaEvents ++ [r.event] ∧
      rows'.schemas = rows.schemas ++ r.schema.toList
  schema : r.schema.isSome = r.schemaUid.isSome

/-- The catalog of the schemas that were accepted. -/
def recordedCatalog (profile : NetworkProfile) (records : List StoredRegistration) : SchemaLookup :=
  records.foldl (fun catalog r =>
    recordRegistration profile r.ledger.ledgerIndex catalog r.registration) fun _ => none

/-- A registration after the others: it was interpreted over the schemas accepted so far, in
whatever order their definitions list their members, its rows were stored, and its UID is new. -/
structure RegistrationStep (P : Platform) (profile : NetworkProfile)
    (records : List StoredRegistration) (r : StoredRegistration) : Prop where
  normalized : r.ledger.IsNormalized
  activated : profile.activationLedgerIndex ≤ r.ledger.ledgerIndex
  transaction : r.transaction ∈ r.ledger.transactions
  interpreted : ∃ catalog : SchemaLookup, SameCatalog catalog (recordedCatalog profile records) ∧
    interpretSchemaRegistration P r.transaction r.ledger.ledgerHash r.ledger.ledgerIndex profile
      catalog = some r.registration
  stored : IsStored P profile r
  uid : ∀ uid ∈ r.schemaUid, ∀ s ∈ records, s.schemaUid ≠ some uid

/-- The registrations of a run of the indexer. -/
inductive RegistrationRun (P : Platform) (profile : NetworkProfile) :
    List StoredRegistration → Prop
  | nil : RegistrationRun P profile []
  | snoc {records : List StoredRegistration} {r : StoredRegistration}
      (run : RegistrationRun P profile records) (step : RegistrationStep P profile records r) :
      RegistrationRun P profile (records ++ [r])

/-! ## The catalog -/

section Catalog

variable {profile : NetworkProfile} {records : List StoredRegistration} {r : StoredRegistration}

theorem recordedCatalog_snoc : recordedCatalog profile (records ++ [r]) =
    recordRegistration profile r.ledger.ledgerIndex (recordedCatalog profile records)
      r.registration := by
  rw [recordedCatalog, List.foldl_append, List.foldl_cons, List.foldl_nil, ← recordedCatalog]

/-- Only an accepted registration is an entry of the catalog. -/
theorem catalogEntry_eq_some {entry : RegisteredSchema} :
    catalogEntry profile r.ledger.ledgerIndex r.registration = some entry ↔
      ∃ schemaUid memoJson definition resolved,
        r.registration.outcome = .accepted schemaUid memoJson definition resolved ∧
          entry = ⟨r.coordinates profile, schemaUid, definition.toJs⟩ := by
  rw [catalogEntry]
  cases r.registration.outcome with
  | rejected => simp
  | accepted schemaUid memoJson definition resolved =>
      simp only [Option.some.injEq, RegistrationOutcome.accepted.injEq]
      constructor
      · rintro rfl
        exact ⟨schemaUid, memoJson, definition, resolved, ⟨rfl, rfl, rfl, rfl⟩, rfl⟩
      · rintro ⟨_, _, _, _, ⟨rfl, rfl, rfl, rfl⟩, rfl⟩
        rfl

theorem schemaUid_of_catalogEntry {entry : RegisteredSchema}
    (h : catalogEntry profile r.ledger.ledgerIndex r.registration = some entry) :
    r.schemaUid = some entry.uid := by
  obtain ⟨schemaUid, memoJson, definition, resolved, houtcome, rfl⟩ := catalogEntry_eq_some.mp h
  exact SchemaRegistrationResult.schemaUid_eq houtcome

/-- What the catalog finds is the entry of a registration with that UID. -/
theorem exists_of_recordedCatalog {uid : JsString} {entry : RegisteredSchema}
    (h : recordedCatalog profile records uid = some entry) :
    entry.uid = uid ∧ ∃ r ∈ records,
      catalogEntry profile r.ledger.ledgerIndex r.registration = some entry := by
  induction records using List.reverseRecOn with
  | nil => cases h
  | append_singleton records last ih =>
      have hrest : recordedCatalog profile records uid = some entry → entry.uid = uid ∧
          ∃ r ∈ records ++ [last],
            catalogEntry profile r.ledger.ledgerIndex r.registration = some entry := by
        intro hfound
        obtain ⟨huid, r, hr, hentry⟩ := ih hfound
        exact ⟨huid, r, List.mem_append_left _ hr, hentry⟩
      rw [recordedCatalog_snoc, recordRegistration] at h
      cases hlast : catalogEntry profile last.ledger.ledgerIndex last.registration with
      | none =>
          rw [hlast] at h
          exact hrest h
      | some new =>
          rw [hlast] at h
          dsimp only at h
          by_cases huid : uid = new.uid
          · subst huid
            rw [setSchema_self, Option.some.injEq] at h
            subst h
            exact ⟨rfl, last, List.mem_append_right _ (List.mem_singleton_self _), hlast⟩
          · rw [setSchema_of_ne _ huid] at h
            exact hrest h

/-- A registration with a new UID leaves the entries of the others alone. -/
theorem includes_recordedCatalog (h : ∀ uid ∈ r.schemaUid, ∀ s ∈ records, s.schemaUid ≠ some uid) :
    Includes (recordedCatalog profile records) (recordedCatalog profile (records ++ [r])) := by
  intro uid entry hfound
  rw [recordedCatalog_snoc, recordRegistration]
  cases hentry : catalogEntry profile r.ledger.ledgerIndex r.registration with
  | none => exact hfound
  | some new =>
      obtain ⟨rfl, s, hs, hother⟩ := exists_of_recordedCatalog hfound
      have hne : entry.uid ≠ new.uid := by
        intro heq
        refine h new.uid (schemaUid_of_catalogEntry hentry) s hs ?_
        rw [schemaUid_of_catalogEntry hother, heq]
      exact (setSchema_of_ne _ hne).trans hfound

end Catalog

/-! ## What an accepted registration amounts to -/

/-- An accepted registration over a catalog: its memo is a definition, whose UID is that of the
registration, and the definition resolves to what was recorded, fields being equal up to the order
of members. -/
structure IsRegistered (P : Platform) (profile : NetworkProfile) (catalog : SchemaLookup)
    (r : StoredRegistration) (schemaUid : JsString) (memoJson : JsValue)
    (definition : SchemaDefinition) (resolved : ResolvedSchema) : Prop where
  keys : memoJson.distinctKeys = true
  defined : parseSchema memoJson = .ok definition
  named : computeSchemaUid P { r.coordinates profile with
    ledgerHash := r.ledger.ledgerHash, schema := definition } = .ok schemaUid
  publisher : P.isValidClassicAddress r.registration.publisher = true
  definition_eq : resolved.definition = definition
  fieldKeys : (fieldsJs resolved.fields).distinctKeys = true
  short : resolved.lineage.length ≤ maxSchemaDepth - 1
  resolves : ∃ resolved', Resolution catalog definition (r.coordinates profile) resolved' ∧
    resolved'.lineage = resolved.lineage ∧
    canonFields resolved'.fields = canonFields resolved.fields

section Registered

variable {P : Platform} {profile : NetworkProfile} {catalog catalog' : SchemaLookup}
  {r : StoredRegistration} {schemaUid : JsString} {memoJson : JsValue}
  {definition : SchemaDefinition} {resolved : ResolvedSchema}

/-- The catalog may grow, and the order of members in it may change. -/
theorem IsRegistered.mono
    (h : IsRegistered P profile catalog r schemaUid memoJson definition resolved)
    (hcatalog : SameCatalog catalog catalog') :
    IsRegistered P profile catalog' r schemaUid memoJson definition resolved := by
  obtain ⟨resolved', hresolution, hlineage, hfields⟩ := h.resolves
  obtain ⟨resolved'', hresolution', hlineage', hfields'⟩ := hresolution.congr hcatalog rfl
  exact { h with
    resolves := ⟨resolved'', hresolution', hlineage'.trans hlineage, hfields'.trans hfields⟩ }

end Registered

/-- The fields of a schema repeat no key, when no definition of the catalog does. -/
theorem distinctKeys_of_resolution {catalog : SchemaLookup} {schema : SchemaDefinition}
    {context : SchemaCoordinates} {resolved : ResolvedSchema}
    (h : Resolution catalog schema context resolved)
    (hcatalog : ∀ uid registered, catalog uid = some registered →
      registered.definition.distinctKeys = true)
    (hschema : (fieldsJs schema.fields).distinctKeys = true) :
    (fieldsJs resolved.fields).distinctKeys = true := by
  have hnodup := h.names_nodup
  induction h with
  | root => exact hschema
  | child parent refers parsed ancestor names count replaces ih =>
      have hinherited := ih (distinctKeys_of_parseSchema (hcatalog _ _ refers.1) parsed).1
        ancestor.names_nodup
      rw [fieldsJs, fieldsMembers_eq, JsValue.distinctKeys_obj, Bool.and_eq_true] at *
      refine ⟨?_, ?_⟩
      · rw [decide_eq_true_eq, List.map_map]
        exact hnodup
      · rw [List.map_append, List.all_append, hinherited.2, hschema.2, Bool.and_self]

section Run

variable {P : Platform} {profile : NetworkProfile} {records : List StoredRegistration}

/-- What an accepted registration amounts to when it is registered. -/
theorem RegistrationStep.isRegistered {r : StoredRegistration} {schemaUid : JsString}
    {memoJson : JsValue} {definition : SchemaDefinition} {resolved : ResolvedSchema}
    (step : RegistrationStep P profile records r)
    (hkeys : ∀ uid registered, recordedCatalog profile records uid = some registered →
      registered.definition.distinctKeys = true)
    (houtcome : r.registration.outcome = .accepted schemaUid memoJson definition resolved) :
    IsRegistered P profile (recordedCatalog profile records) r schemaUid memoJson definition
      resolved := by
  obtain ⟨catalog, hcatalog, hread⟩ := step.interpreted
  rw [interpretSchemaRegistration] at hread
  cases hextract : extractRegistrationEnvelope r.transaction profile with
  | notRegistration => rw [hextract] at hread; cases hread
  | rejected publisher reasonCode =>
      rw [hextract, Option.some.injEq] at hread
      rw [← hread] at houtcome
      cases houtcome
  | candidate envelope =>
      rw [hextract, Option.some.injEq] at hread
      have hcoordinates : r.coordinates profile = ⟨profile.networkId, envelope.publisher,
          r.ledger.ledgerIndex, r.transaction.transactionIndex⟩ := by
        rw [StoredRegistration.coordinates, ← hread]
      have hpublisher : r.registration.publisher = envelope.publisher := by rw [← hread]
      rw [← hread] at houtcome
      have haccepts := interpretEnvelope_accepted.mp houtcome
      have hmemoKeys := (parseJson_distinctKeys haccepts.parsed).2.1
      obtain ⟨-, -, -, hvalid, schema, hparse, hresolution, hshort⟩ :=
        resolveSchema_eq_ok.mp haccepts.resolves
      rw [parseSchema_toJs (isValid_of_parseSchema haccepts.defined), Except.ok.injEq] at hparse
      subst hparse
      have hcatalogKeys : ∀ uid registered, catalog uid = some registered →
          registered.definition.distinctKeys = true := by
        intro uid registered hfound
        obtain ⟨other, hother, -, -, hcanon⟩ := hcatalog uid registered hfound
        rw [← JsValue.distinctKeys_canon, ← hcanon, JsValue.distinctKeys_canon]
        exact hkeys uid other hother
      obtain ⟨resolved', hresolution', hlineage, hfields⟩ := hresolution.congr hcatalog rfl
      rw [← hcoordinates] at hresolution'
      exact {
        keys := hmemoKeys
        defined := haccepts.defined
        named := by rw [hcoordinates]; exact haccepts.named
        publisher := by rw [hpublisher]; exact hvalid
        definition_eq := hresolution.definition_eq
        fieldKeys := distinctKeys_of_resolution hresolution hcatalogKeys
          (distinctKeys_of_parseSchema hmemoKeys haccepts.defined).1
        short := hshort
        resolves := ⟨resolved', hresolution', hlineage, hfields⟩ }

/-- **What an accepted registration amounts to at the end of a run.**  It is in the catalog, and its
schema resolves there as it did when it was registered. -/
theorem RegistrationRun.isRegistered (run : RegistrationRun P profile records) :
    ∀ r ∈ records, ∀ schemaUid memoJson definition resolved,
      r.registration.outcome = .accepted schemaUid memoJson definition resolved →
        IsRegistered P profile (recordedCatalog profile records) r schemaUid memoJson definition
            resolved ∧
          recordedCatalog profile records schemaUid
            = some ⟨r.coordinates profile, schemaUid, definition.toJs⟩ := by
  induction run with
  | nil => exact fun _ hr => absurd hr List.not_mem_nil
  | @snoc records last run step ih =>
      have hkeys : ∀ uid registered, recordedCatalog profile records uid = some registered →
          registered.definition.distinctKeys = true := by
        intro uid registered hfound
        obtain ⟨-, r, hr, hentry⟩ := exists_of_recordedCatalog hfound
        obtain ⟨schemaUid, memoJson, definition, resolved, houtcome, rfl⟩ :=
          catalogEntry_eq_some.mp hentry
        obtain ⟨hregistered, -⟩ := ih r hr _ _ _ _ houtcome
        exact (distinctKeys_of_parseSchema hregistered.keys hregistered.defined).2
      have hincludes := @includes_recordedCatalog profile records last step.uid
      intro r hr schemaUid memoJson definition resolved houtcome
      rw [List.mem_append, List.mem_singleton] at hr
      rcases hr with hr | rfl
      · obtain ⟨hregistered, hfound⟩ := ih r hr _ _ _ _ houtcome
        exact ⟨hregistered.mono hincludes.sameCatalog, hincludes _ _ hfound⟩
      · refine ⟨(step.isRegistered hkeys houtcome).mono hincludes.sameCatalog, ?_⟩
        have hentry := (@catalogEntry_eq_some profile r _).mpr
          ⟨schemaUid, memoJson, definition, resolved, houtcome, rfl⟩
        rw [recordedCatalog_snoc, recordRegistration, hentry]
        exact setSchema_self _ _

/-- No two registrations of a run have one UID. -/
theorem RegistrationRun.eq_of_schemaUid (run : RegistrationRun P profile records)
    {r s : StoredRegistration} (hr : r ∈ records) (hs : s ∈ records) {uid : JsString}
    (hrUid : r.schemaUid = some uid) (hsUid : s.schemaUid = some uid) : r = s := by
  induction run with
  | nil => cases hr
  | @snoc records last run step ih =>
      rw [List.mem_append, List.mem_singleton] at hr hs
      rcases hr with hr | rfl <;> rcases hs with hs | rfl
      · exact ih hr hs
      · exact absurd hrUid (step.uid uid hsUid r hr)
      · exact absurd hsUid (step.uid uid hrUid s hs)
      · rfl

/-- What every registration of a run has in common. -/
theorem RegistrationRun.step (run : RegistrationRun P profile records) {r : StoredRegistration}
    (hr : r ∈ records) : ∃ before, RegistrationStep P profile before r := by
  induction run with
  | nil => cases hr
  | @snoc records last run step ih =>
      rw [List.mem_append, List.mem_singleton] at hr
      rcases hr with hr | rfl
      · exact ih hr
      · exact ⟨records, step⟩

end Run

/-! ## What the rows of a registration are -/

/-- An event that was appended is the event that was inserted. -/
theorem eq_stored_of_append {row event : SchemaEventRow} {rows rows' : ProjectionRows}
    (h : insertSchemaEvent row rows = .ok rows')
    (happend : rows'.schemaEvents = rows.schemaEvents ++ [event]) :
    event = row.stored ∧ Stores row.values := by
  obtain ⟨hstores, -, ⟨-, rfl⟩ | ⟨-, -, rfl⟩⟩ := insertSchemaEvent_eq_ok.mp h
  · exact absurd (List.self_eq_append_right.mp happend) (List.cons_ne_nil _ _)
  · rw [List.append_cancel_left_eq, List.cons.injEq] at happend
    exact ⟨happend.1.symm, hstores⟩

theorem insertSchemaEvent_schemas {row : SchemaEventRow} {rows rows' : ProjectionRows}
    (h : insertSchemaEvent row rows = .ok rows') : rows'.schemas = rows.schemas := by
  obtain ⟨-, -, ⟨-, rfl⟩ | ⟨-, -, rfl⟩⟩ := insertSchemaEvent_eq_ok.mp h <;> rfl

theorem insertSchema_schemaEvents {row : SchemaRow} {rows rows' : ProjectionRows}
    (h : insertSchema row rows = .ok rows') : rows'.schemaEvents = rows.schemaEvents := by
  obtain ⟨-, -, ⟨-, rfl⟩ | ⟨-, -, -, rfl⟩⟩ := insertSchema_eq_ok.mp h <;> rfl

/-- A schema that was appended is the schema that was inserted. -/
theorem eq_stored_of_append_schema {row schema : SchemaRow} {rows rows' : ProjectionRows}
    (h : insertSchema row rows = .ok rows') (happend : rows'.schemas = rows.schemas ++ [schema]) :
    schema = row.stored ∧ Stores row.values := by
  obtain ⟨hstores, -, ⟨-, rfl⟩ | ⟨-, -, -, rfl⟩⟩ := insertSchema_eq_ok.mp h
  · exact absurd (List.self_eq_append_right.mp happend) (List.cons_ne_nil _ _)
  · rw [List.append_cancel_left_eq, List.cons.injEq] at happend
    exact ⟨happend.1.symm, hstores⟩

/-- The columns of an accepted registration can hold their values. -/
structure StoresAccepted (P : Platform) (profile : NetworkProfile) (r : StoredRegistration)
    (schemaUid : JsString) (memoJson : JsValue) (definition : SchemaDefinition)
    (resolved : ResolvedSchema) : Prop where
  storesMemo : StorableJson P memoJson
  storesDefinition : StorableJson P definition.toJs
  storesResolved : StorableJson P resolved.toJs
  event : r.event = (schemaEventRow profile r.ledger r.registration (js "accepted") none
    (some schemaUid) (materialize memoJson.canon)).stored
  schema : r.schema = some (schemaRow profile r.ledger r.registration schemaUid definition
    (materialize definition.toJs.canon) (materialize resolved.toJs.canon)).stored

section Rows

variable {P : Platform} {profile : NetworkProfile} {r : StoredRegistration}

/-- The rows of an accepted registration. -/
theorem IsStored.accepted (h : IsStored P profile r) {schemaUid : JsString} {memoJson : JsValue}
    {definition : SchemaDefinition} {resolved : ResolvedSchema}
    (houtcome : r.registration.outcome = .accepted schemaUid memoJson definition resolved) :
    StoresAccepted P profile r schemaUid memoJson definition resolved := by
  obtain ⟨rows, rows', hpersist, hevents, hschemas⟩ := h.persisted
  have hsome := h.schema
  rw [StoredRegistration.schemaUid, SchemaRegistrationResult.schemaUid_eq houtcome] at hsome
  obtain ⟨schema, hschema⟩ := Option.isSome_iff_exists.mp hsome
  rw [hschema] at hschemas
  simp only [persistRegistration, houtcome, bind_eq_ok] at hpersist
  obtain ⟨memo, hmemo, between, hevent, definitionJson, hdefinition, resolvedJson, hresolved,
    hinsert⟩ := hpersist
  rw [insertSchema_schemaEvents hinsert] at hevents
  rw [← insertSchemaEvent_schemas hevent] at hschemas
  obtain ⟨heventRow, heventStores⟩ := eq_stored_of_append hevent hevents
  obtain ⟨rfl, hschemaStores⟩ := eq_stored_of_append_schema hinsert hschemas
  have hjsonb := hschemaStores.jsonbs
  simp only [SchemaRow.values, schemaRow, List.forall_mem_cons] at hjsonb
  have hmemoStored : isStorableJson memo = true :=
    heventStores.jsonbs (js "memo_json", memo) (List.mem_singleton_self _)
  obtain ⟨-, rfl⟩ := plainDatabaseJson_eq_ok.mp hmemo
  obtain ⟨-, rfl⟩ := plainDatabaseJson_eq_ok.mp hdefinition
  obtain ⟨-, rfl⟩ := plainDatabaseJson_eq_ok.mp hresolved
  exact ⟨⟨_, hmemo, hmemoStored⟩, ⟨_, hdefinition, hjsonb.1⟩, ⟨_, hresolved, hjsonb.2.1⟩,
    heventRow, hschema⟩

/-- The row of a rejected registration. -/
theorem IsStored.rejected (h : IsStored P profile r) {reasonCode : JsString}
    {memoJson : Option JsValue}
    (houtcome : r.registration.outcome = .rejected reasonCode memoJson) :
    ∃ stored, r.event = (schemaEventRow profile r.ledger r.registration (js "rejected")
      (some reasonCode) none stored).stored := by
  obtain ⟨rows, rows', hpersist, hevents, -⟩ := h.persisted
  rw [persistRegistration, houtcome] at hpersist
  cases memoJson with
  | none => exact ⟨_, (eq_stored_of_append hpersist hevents).1⟩
  | some memoJson =>
      simp only [bind_eq_ok] at hpersist
      obtain ⟨memo, -, hevent⟩ := hpersist
      exact ⟨_, (eq_stored_of_append hevent hevents).1⟩

/-- The publisher of an event is that of the registration, as a `text` column holds it. -/
theorem IsStored.publisher (h : IsStored P profile r) :
    r.event.publisher = toWellFormed r.registration.publisher := by
  cases houtcome : r.registration.outcome with
  | accepted schemaUid memoJson definition resolved =>
      rw [(h.accepted houtcome).event]
      rfl
  | rejected reasonCode memoJson =>
      obtain ⟨_, hevent⟩ := h.rejected houtcome
      rw [hevent]
      rfl

/-- Only an accepted registration has a row in `schemas`, under its UID and its transaction. -/
theorem IsStored.schemaUid_eq (h : IsStored P profile r) {row : SchemaRow}
    (hrow : r.schema = some row) : r.schemaUid = some row.schemaUid ∧
      row.registrationTransactionHash = r.registration.transactionHash := by
  have hsome := h.schema
  rw [hrow, Option.isSome_some, StoredRegistration.schemaUid,
    SchemaRegistrationResult.schemaUid] at hsome
  cases houtcome : r.registration.outcome with
  | rejected => rw [houtcome] at hsome; cases hsome
  | accepted schemaUid memoJson definition resolved =>
      have hschema := (h.accepted houtcome).schema
      rw [hrow, Option.some.injEq] at hschema
      rw [StoredRegistration.schemaUid, SchemaRegistrationResult.schemaUid_eq houtcome, hschema]
      exact ⟨rfl, rfl⟩

/-- The event of a registration is that of its transaction. -/
theorem IsStored.transactionHash (h : IsStored P profile r) :
    r.event.transactionHash = r.registration.transactionHash := by
  cases houtcome : r.registration.outcome with
  | accepted schemaUid memoJson definition resolved =>
      rw [(h.accepted houtcome).event]
      rfl
  | rejected reasonCode memoJson =>
      obtain ⟨_, hevent⟩ := h.rejected houtcome
      rw [hevent]
      rfl

/-- What `persistRegistration` appends to tables without another row of the registration. -/
theorem exists_isStored {ledger : ValidatedLedger} {registration : SchemaRegistrationResult}
    {rows rows' : ProjectionRows} (transaction : LedgerTransaction)
    (h : persistRegistration P profile ledger registration rows = .ok rows')
    (hevents : ∀ other ∈ rows.schemaEvents, other.transactionHash ≠ registration.transactionHash)
    (hschemas : ∀ other ∈ rows.schemas,
      other.registrationTransactionHash ≠ registration.transactionHash ∧
        registration.schemaUid ≠ some other.schemaUid) :
    ∃ event schema, IsStored P profile ⟨ledger, transaction, registration, event, schema⟩ ∧
      rows'.schemaEvents = rows.schemaEvents ++ [event] ∧
      rows'.schemas = rows.schemas ++ schema.toList := by
  have happended : ∀ {row : SchemaEventRow} {between : ProjectionRows},
      row.transactionHash = registration.transactionHash →
        insertSchemaEvent row rows = .ok between →
        between.schemaEvents = rows.schemaEvents ++ [row.stored] := by
    intro row between hhash hinsert
    obtain ⟨-, -, ⟨⟨other, hmem, hsame⟩, -⟩ | ⟨-, -, rfl⟩⟩ := insertSchemaEvent_eq_ok.mp hinsert
    · exact absurd (hsame.trans hhash) (hevents other hmem)
    · rfl
  have hpersist := h
  cases houtcome : registration.outcome with
  | accepted schemaUid memoJson definition resolved =>
      have huid := SchemaRegistrationResult.schemaUid_eq houtcome
      simp only [persistRegistration, houtcome, bind_eq_ok] at hpersist
      obtain ⟨memo, -, between, hevent, definitionJson, -, resolvedJson, -, hinsert⟩ := hpersist
      have hbetween := insertSchemaEvent_schemas hevent
      obtain ⟨-, -, ⟨⟨other, hmem, hsame⟩, -⟩ | ⟨-, -, -, hrows⟩⟩ := insertSchema_eq_ok.mp hinsert
      · rw [hbetween] at hmem
        obtain ⟨hhash, hother⟩ := hschemas other hmem
        rcases hsame with hsame | hsame
        · exact absurd (huid.trans (congrArg some hsame.symm)) hother
        · exact absurd hsame hhash
      · have hstoredEvents := (insertSchema_schemaEvents hinsert).trans (happended rfl hevent)
        have hstoredSchemas : rows'.schemas = rows.schemas ++ (some (schemaRow profile ledger
            registration schemaUid definition definitionJson resolvedJson).stored).toList := by
          rw [hrows, hbetween]
          rfl
        refine ⟨_, _, ⟨⟨rows, rows', h, hstoredEvents, hstoredSchemas⟩, ?_⟩, hstoredEvents,
          hstoredSchemas⟩
        rw [StoredRegistration.schemaUid, huid]
        rfl
  | rejected reasonCode memoJson =>
      rw [persistRegistration, houtcome] at hpersist
      have hinsert : ∃ row, row.transactionHash = registration.transactionHash ∧
          insertSchemaEvent row rows = .ok rows' := by
        cases memoJson with
        | none => exact ⟨_, rfl, hpersist⟩
        | some memoJson =>
            simp only [bind_eq_ok] at hpersist
            obtain ⟨memo, -, hevent⟩ := hpersist
            exact ⟨_, rfl, hevent⟩
      obtain ⟨row, hhash, hinsert⟩ := hinsert
      have hstoredEvents := happended hhash hinsert
      have hstoredSchemas : rows'.schemas = rows.schemas ++ (none : Option SchemaRow).toList := by
        rw [insertSchemaEvent_schemas hinsert]
        exact (List.append_nil _).symm
      refine ⟨_, _, ⟨⟨rows, rows', h, hstoredEvents, hstoredSchemas⟩, ?_⟩, hstoredEvents,
        hstoredSchemas⟩
      rw [StoredRegistration.schemaUid, SchemaRegistrationResult.schemaUid, houtcome]
      rfl

end Rows

/-! ## Reading the rows -/

/-- A row of `schema_events`, as a reader has it. -/
def readEvent (J : JsonbReader) (row : SchemaEventRow) : SchemaEventRow :=
  { row with memoJson := J.read row.memoJson }

/-- A row of `schemas`, as a reader has it. -/
def readSchema (J : JsonbReader) (row : SchemaRow) : SchemaRow :=
  { row with
    definition := J.read row.definition
    resolvedDefinition := J.read row.resolvedDefinition }

/-- A row of `schemas` has the columns of an accepted registration, up to the order of members. -/
def ReadsSchema (profile : NetworkProfile) (r : StoredRegistration) (schemaUid : JsString)
    (definition : SchemaDefinition) (resolved : ResolvedSchema) (row : SchemaRow) : Prop :=
  ∃ definitionJson resolvedJson : JsValue,
    row = schemaRow profile r.ledger r.registration schemaUid definition definitionJson
        resolvedJson ∧
      definitionJson.canon = definition.toJs.canon ∧ resolvedJson.canon = resolved.toJs.canon

/-- A row of `schema_events` has the columns of an accepted registration, up to the order of
members. -/
def ReadsEvent (profile : NetworkProfile) (r : StoredRegistration) (schemaUid : JsString)
    (memoJson : JsValue) (row : SchemaEventRow) : Prop :=
  ∃ json : JsValue,
    row = schemaEventRow profile r.ledger r.registration (js "accepted") none (some schemaUid)
        json ∧
      json.canon = memoJson.canon

/-- No object of a resolved schema repeats a key, when its definition and its fields repeat none. -/
theorem distinctKeys_resolvedJs {resolved : ResolvedSchema}
    (hdefinition : resolved.definition.toJs.distinctKeys = true)
    (hfields : (fieldsJs resolved.fields).distinctKeys = true) :
    resolved.toJs.distinctKeys = true := by
  have hlineage : ((resolved.lineage.map JsValue.str).all JsValue.distinctKeys) = true := by
    rw [List.all_map, List.all_eq_true]
    exact fun _ _ => rfl
  rw [ResolvedSchema.toJs, JsValue.distinctKeys_obj]
  simp only [List.map_cons, List.map_nil, List.all_cons, List.all_nil, hdefinition, hfields,
    JsValue.distinctKeys_arr, hlineage, Bool.and_self, Bool.and_true]
  decide

section Reads

variable {P : Platform} {profile : NetworkProfile} {catalog : SchemaLookup}
  {r : StoredRegistration} {schemaUid : JsString} {memoJson : JsValue}
  {definition : SchemaDefinition} {resolved : ResolvedSchema}
  (registered : IsRegistered P profile catalog r schemaUid memoJson definition resolved)
  (stores : StoresAccepted P profile r schemaUid memoJson definition resolved)

include registered stores

/-- The name and the description of a stored definition are well formed. -/
theorem isWellFormed_texts :
    isWellFormed definition.name = true ∧ isWellFormed definition.description = true := by
  have hstrings := allStrings_of_storableJson registered.keys stores.storesMemo
  obtain ⟨hname, hdescription⟩ := get_of_parseSchema registered.defined
  have hname' := JsValue.allStrings_get hstrings (js "name")
  have hdescription' := JsValue.allStrings_get hstrings (js "description")
  rw [hname, JsValue.allStrings_str] at hname'
  rw [hdescription, JsValue.allStrings_str] at hdescription'
  exact ⟨isWellFormed_of_isStorableString hname', isWellFormed_of_isStorableString hdescription'⟩

/-- What a reader finds in the row of a schema. -/
theorem readsSchema_of_stored (J : JsonbReader) : ∃ row, r.schema = some row ∧
    ReadsSchema profile r schemaUid definition resolved (readSchema J row) := by
  obtain ⟨hname, hdescription⟩ := isWellFormed_texts registered stores
  have hpublisher := isWellFormed_of_isPlain (isPlain_of_hasAddressShape
    (P.hasAddressShape_of_valid _ registered.publisher))
  have hkeys := (distinctKeys_of_parseSchema registered.keys registered.defined).2
  have hresolvedKeys : resolved.toJs.distinctKeys = true :=
    distinctKeys_resolvedJs (by rw [registered.definition_eq]; exact hkeys) registered.fieldKeys
  refine ⟨_, stores.schema, J.read (materialize definition.toJs.canon),
    J.read (materialize resolved.toJs.canon), ?_, ?_, ?_⟩
  · simp only [readSchema, SchemaRow.stored, schemaRow, toWellFormed_of_isWellFormed hname,
      toWellFormed_of_isWellFormed hdescription, toWellFormed_of_isWellFormed hpublisher]
  · rw [J.canon_read, canon_materialize_canon hkeys]
  · rw [J.canon_read, canon_materialize_canon hresolvedKeys]

/-- What a reader finds in the row of an event. -/
theorem readsEvent_of_stored (J : JsonbReader) :
    ReadsEvent profile r schemaUid memoJson (readEvent J r.event) := by
  have hpublisher := isWellFormed_of_isPlain (isPlain_of_hasAddressShape
    (P.hasAddressShape_of_valid _ registered.publisher))
  refine ⟨J.read (materialize memoJson.canon), ?_, ?_⟩
  · rw [stores.event]
    simp only [readEvent, SchemaEventRow.stored, schemaEventRow,
      toWellFormed_of_isWellFormed hpublisher]
  · rw [J.canon_read, canon_materialize_canon registered.keys]

end Reads

end Indexer
end Xcs
