import Xcs.Indexer.RegistrationRuns
import Xcs.Web.Presenters
import Xcs.Web.SchemaSoundness

/-!
# What the indexer accepted, the API serves

The indexer resolves a schema once, when it is registered, and stores the result.  The API reads the
rows again, in whatever order the tables list the members of an object, and checks them by rules of
its own before it answers.

* `readsAs_of_stored` says which columns a read of an accepted registration has.
* `storesResolved_of_readsAs` and `attests_of_readsAs` say that such a row passes the checks of one
  row, and `reaches_of_resolution` that the rows of a lineage pass the loop over the chain.
* `registered_schemas_served` is the agreement.
-/

namespace Xcs
namespace Agreement

open Js Json Xcs.Core Db Indexer Web

/-! ## Evidence -/

/-- The evidence of a registration, as one read of the tables gives it. -/
def IsEvidenceOf (r : StoredRegistration) (evidence : SchemaProjectionEvidence) : Prop :=
  ∃ (J : JsonbReader) (row : SchemaRow), r.schema = some row ∧
    evidence = ⟨readSchema J row, readEvent J r.event⟩

/-- The network of a profile, as the evidence of a schema is checked against it. -/
def expectedNetwork (profile : NetworkProfile) : ExpectedNetwork where
  profileId := profile.profileId
  networkId := profile.networkId
  activationLedgerIndex := profile.activationLedgerIndex

/-- The network of a profile, as a registration is checked against it. -/
def evidenceNetwork (profile : NetworkProfile) : EvidenceNetwork where
  networkId := profile.networkId
  activationLedgerIndex := profile.activationLedgerIndex

/-! ## The checks of one row -/

/-- Whether a value can be written does not depend on the order of members. -/
theorem isWritable_of_canon_eq {P : Platform} {v w : JsValue} (h : v.canon = w.canon)
    (hw : isWritable P w = true) : isWritable P v = true := by
  rw [← isWritable_canon, h, isWritable_canon]
  exact hw

/-- A value with the canonical form of a definition parses to the definition, up to the order of
fields. -/
theorem parseSchema_of_canon_toJs {v : JsValue} {d : SchemaDefinition} (hvalid : d.isValid = true)
    (h : v.canon = d.toJs.canon) :
    ∃ d', parseSchema v = .ok d' ∧ d'.canon = d.canon ∧ d'.toJs.canon = v.canon := by
  obtain ⟨d', hparse, hcanon⟩ := parseSchema_congr h.symm (parseSchema_toJs hvalid)
  refine ⟨d', hparse, hcanon, ?_⟩
  rw [h]
  exact (canon_toJs_eq_iff (isValid_of_parseSchema hparse) hvalid).mpr hcanon

/-- A value with the canonical form of valid fields is projected to them, up to their order. -/
theorem validateProjectedFields_of_canon {P : Platform} {v : JsValue} {fields : SchemaFields}
    (hvalid : fieldsValid (maxSchemaDepth - 1) fields = true) (hne : fields ≠ [])
    (hcount : countSchemaFields fields ≤ maxSchemaFields) (h : v.canon = (fieldsJs fields).canon) :
    ∃ fields', validateProjectedFields P v = .ok fields' ∧
      canonFields fields' = canonFields fields := by
  obtain ⟨hread, -⟩ := validateProjectedFields_eq_ok.mp
    ((validateProjectedFields_fieldsJs (P := P) hvalid hne).mpr ⟨rfl, hcount⟩)
  have hsame := fieldsOf_canon (descriptorOf_canon (maxSchemaDepth - 1)) v
  rw [h, fieldsOf_canon (descriptorOf_canon _), hread, Option.map_some] at hsame
  obtain ⟨fields', hread', hcanon⟩ := Option.map_eq_some_iff.mp hsame.symm
  have hjs : (fieldsJs fields').canon = v.canon := by rw [h, canon_fieldsJs_eq hcanon]
  refine ⟨fields', validateProjectedFields_eq_ok.mpr ⟨hread', ?_, ?_, hjs⟩, hcanon⟩
  · rw [countSchemaFields_eq_of_canonFields_eq hcanon]
    exact hcount
  · exact isWritable_of_canon_eq (hjs.trans h) (isWritable_fieldsJs P hvalid)

/-- A list of strings is the only list with its canonical forms. -/
theorem eq_map_str_of_map_canon {uids : List JsString} {items : List JsValue}
    (h : items.map JsValue.canon = (uids.map JsValue.str).map JsValue.canon) :
    items = uids.map .str := by
  induction uids generalizing items with
  | nil => exact List.map_eq_nil_iff.mp h
  | cons uid uids ih =>
      cases items with
      | nil => cases h
      | cons item items =>
          simp only [List.map_cons, List.cons.injEq, JsValue.canon_str] at h
          rw [List.map_cons, ← ih h.2, JsValue.canon_eq_str.mp h.1]

/-- The lineage of a stored resolution. -/
theorem lineageOf_of_canon {v : JsValue} {uids : List JsString}
    (h : v.canon = (JsValue.arr (uids.map .str)).canon) (hshort : uids.length ≤ maxSchemaDepth - 1)
    (hhashes : ∀ uid ∈ uids, isLowerHash uid = true) : lineageOf v = some uids := by
  obtain ⟨items, rfl, hitems⟩ := JsValue.exists_arr_of_canon_eq h
  exact lineageOf_eq_some.mpr
    ⟨congrArg _ (eq_map_str_of_map_canon hitems), hshort, hhashes⟩

/-- The parent of a schema is the last schema of its lineage. -/
theorem getLast?_lineage {catalog : SchemaLookup} {schema : SchemaDefinition}
    {context : SchemaCoordinates} {resolved : ResolvedSchema}
    (h : Resolution catalog schema context resolved) :
    resolved.lineage.getLast? = schema.parent := by
  cases h with
  | root parent => rw [parent, List.getLast?_nil]
  | child parent => rw [parent, List.getLast?_append, List.getLast?_singleton, Option.some_or]

/-- A resolved schema has no more than the fields that are allowed. -/
theorem countSchemaFields_resolution {catalog : SchemaLookup} {schema : SchemaDefinition}
    {context : SchemaCoordinates} {resolved : ResolvedSchema}
    (h : Resolution catalog schema context resolved) :
    countSchemaFields resolved.fields ≤ maxSchemaFields ∧
      (schema.fields ≠ [] → resolved.fields ≠ []) := by
  cases h with
  | root parent names count => exact ⟨count, id⟩
  | child parent refers parsed ancestor names count =>
      exact ⟨count, fun hne => List.append_ne_nil_of_right_ne_nil _ hne⟩

/-- Where a registration is: the ledger and the transaction are in range. -/
structure IsPlaced (profile : NetworkProfile) (r : StoredRegistration) : Prop where
  activated : profile.activationLedgerIndex ≤ r.ledger.ledgerIndex
  ledgerIndex : r.ledger.ledgerIndex ≤ 0xffffffff
  ledgerHash : isLowerHash r.ledger.ledgerHash = true
  transactionIndex : r.registration.transactionIndex ≤ 0xffffffff
  transactionHash : isLowerHash r.registration.transactionHash = true

theorem isPlaced_of_step {P : Platform} {profile : NetworkProfile}
    {records : List StoredRegistration} {r : StoredRegistration}
    (step : RegistrationStep P profile records r) : IsPlaced profile r := by
  obtain ⟨catalog, -, hread⟩ := step.interpreted
  obtain ⟨hhash, hindex⟩ := place_of_interpretSchemaRegistration hread
  exact {
    activated := step.activated
    ledgerIndex := step.normalized.ledgerIndex
    ledgerHash := step.normalized.ledgerHash
    transactionIndex := by
      rw [hindex]
      exact step.normalized.transactionIndex _ step.transaction
    transactionHash := by
      rw [hhash]
      exact step.normalized.transactionHash _ step.transaction }

theorem uint32_natCast {n : ℕ} (h : n ≤ 0xffffffff) : 0 ≤ (n : ℤ) ∧ (n : ℤ) ≤ maxUint32 := by
  rw [maxUint32]
  omega

section Checks

variable {P : Platform} {profile : NetworkProfile} {catalog : SchemaLookup}
  {r : StoredRegistration} {schemaUid : JsString} {memoJson : JsValue}
  {definition : SchemaDefinition} {resolved : ResolvedSchema}
  (registered : IsRegistered P profile catalog r schemaUid memoJson definition resolved)
  (found : catalog schemaUid = some ⟨r.coordinates profile, schemaUid, definition.toJs⟩)
  (stores : StoresAccepted P profile r schemaUid memoJson definition resolved)

include registered found

/-- No schema is in its own lineage. -/
theorem not_mem_lineage : schemaUid ∉ resolved.lineage := by
  obtain ⟨resolved', hresolution, hlineage, -⟩ := registered.resolves
  rw [← hlineage]
  intro hmem
  obtain ⟨entry, hentry, hearlier⟩ := hresolution.earlier schemaUid hmem
  rw [found, Option.some.injEq] at hentry
  rw [← hentry, isEarlier_irrefl] at hearlier
  cases hearlier

omit found in
theorem isLowerHash_of_named : isLowerHash schemaUid = true := by
  have hnamed := (@computeSchemaUid_eq_ok P { r.coordinates profile with
    ledgerHash := r.ledger.ledgerHash, schema := definition }
    (isValid_of_parseSchema registered.defined) schemaUid).mp registered.named
  rw [hnamed.2.2]
  exact isLowerHash_schemaUid P _

omit found in
theorem exists_members : ∃ members, memoJson = .obj members := by
  have hread := (parseSchema_eq_ok.mp registered.defined).1
  cases memoJson with
  | obj members => exact ⟨members, rfl⟩
  | _ => cases hread

omit found in
/-- The UID is that of every reading of the memo. -/
theorem recomputed_of_reads {event : SchemaEventRow}
    (hevent : ReadsEvent profile r schemaUid memoJson event) :
    ∃ definition', parseSchema event.memoJson = .ok definition' ∧
      definition'.canon = definition.canon ∧
      computeSchemaUid P (registrationUidInput profile.networkId event definition')
        = .ok schemaUid := by
  obtain ⟨json, rfl, hjson⟩ := hevent
  obtain ⟨definition', hparse, hcanon⟩ := parseSchema_congr hjson.symm registered.defined
  have hvalid := isValid_of_parseSchema registered.defined
  have hvalid' := isValid_of_parseSchema hparse
  have hnamed := (@computeSchemaUid_eq_ok P { r.coordinates profile with
    ledgerHash := r.ledger.ledgerHash, schema := definition } hvalid schemaUid).mp registered.named
  have hjs := (canon_toJs_eq_iff hvalid' hvalid).mpr hcanon
  have hinput : isUidInput P { r.coordinates profile with
      ledgerHash := r.ledger.ledgerHash, schema := definition' } = true := by
    simpa only [isUidInput] using hnamed.1
  refine ⟨definition', hparse, hcanon, (@computeSchemaUid_eq_ok P { r.coordinates profile with
    ledgerHash := r.ledger.ledgerHash, schema := definition' } hvalid' schemaUid).mpr
      ⟨hinput, ?_, ?_⟩⟩
  · exact isWritable_of_canon_eq (canon_uidPreimage rfl rfl hjs) hnamed.2.1
  · rw [hnamed.2.2]
    exact schemaUid_congr P rfl rfl hjs.symm

include stores

/-- **The row of an accepted registration passes the checks of one row.** -/
theorem storesResolved_of_reads {row : SchemaRow}
    (hrow : ReadsSchema profile r schemaUid definition resolved row) :
    ∃ definition' fields', StoresResolved P row ⟨definition', fields', resolved.lineage⟩ ∧
      definition'.canon = definition.canon ∧
      canonFields fields' = canonFields resolved.fields := by
  obtain ⟨definitionJson, resolvedJson, rfl, hdefinitionJson, hresolvedJson⟩ := hrow
  have hvalid := isValid_of_parseSchema registered.defined
  have hwritable : isWritable P definition.toJs = true :=
    (plainDatabaseJson_eq_ok.mp stores.storesDefinition.choose_spec.1).1
  obtain ⟨resolved', hresolution, hlineage, hfields⟩ := registered.resolves
  obtain ⟨hfieldsValid, hhashes⟩ := hresolution.valid hvalid
  obtain ⟨hcount, hne⟩ := countSchemaFields_resolution hresolution
  have hget := JsValue.get_eq_of_canon_eq hresolvedJson
  have hgetDefinition : (resolvedJson.get (js "definition")).canon = definition.toJs.canon := by
    rw [hget, ← registered.definition_eq]
    rfl
  have hgetFields : (resolvedJson.get (js "fields")).canon = (fieldsJs resolved'.fields).canon := by
    rw [hget, canon_fieldsJs_eq hfields]
    rfl
  have hgetLineage : (resolvedJson.get (js "lineage")).canon
      = (JsValue.arr (resolved.lineage.map .str)).canon := hget (js "lineage")
  obtain ⟨definition', hparse, hcanon, hjs⟩ := parseSchema_of_canon_toJs hvalid hdefinitionJson
  obtain ⟨inner, hinner, -, hinnerJs⟩ := parseSchema_of_canon_toJs hvalid hgetDefinition
  obtain ⟨fields', hprojected, hfields'⟩ := validateProjectedFields_of_canon (P := P) hfieldsValid
    (hne (fieldsValid_of_parseSchema registered.defined).2) hcount hgetFields
  obtain ⟨hname, hdescription, -, hparent, hsupersedes⟩ := SchemaDefinition.canon_eq_iff.mp hcanon
  obtain ⟨members, rfl, hkeys⟩ := JsValue.exists_obj_perm_of_canon_eq hresolvedJson
  have hjs' := hjs.trans hdefinitionJson
  have hself := not_mem_lineage registered found
  refine ⟨definition', fields', ⟨hparse, isWritable_of_canon_eq hjs' hwritable, hjs, hname.symm,
    hdescription.symm, hparent.symm, hsupersedes.symm, ⟨members, rfl, ?_, ?_⟩,
    ⟨inner, hinner, isWritable_of_canon_eq (hinnerJs.trans hgetDefinition) hwritable, hinnerJs,
      (hinnerJs.trans hgetDefinition).trans hjs'.symm⟩, hprojected, ?_, ?_,
    hself, ?_⟩, hcanon, hfields'.trans hfields⟩
  · rw [hasOnly, List.all_eq_true]
    intro m hm
    exact decide_eq_true (hkeys.mem_iff.mp (List.mem_map_of_mem (f := (·.1)) hm))
  · have hlength := hkeys.length_eq
    rwa [List.length_map] at hlength
  · refine lineageOf_of_canon hgetLineage registered.short ?_
    rw [← hlineage]
    exact hhashes
  · show resolved.lineage.Nodup
    rw [← hlineage]
    exact hresolution.lineage_nodup
  · show resolved.lineage.getLast? = definition'.parent
    rw [← hlineage, getLast?_lineage hresolution, hparent]

/-- **The evidence of an accepted registration is attested.** -/
theorem attests_of_reads {row : SchemaRow} {event : SchemaEventRow} (placed : IsPlaced profile r)
    (hrow : ReadsSchema profile r schemaUid definition resolved row)
    (hevent : ReadsEvent profile r schemaUid memoJson event) :
    ∃ definition' fields',
      Attests P (expectedNetwork profile) ⟨row, event⟩ ⟨definition', fields', resolved.lineage⟩ ∧
      definition'.canon = definition.canon ∧
      canonFields fields' = canonFields resolved.fields := by
  obtain ⟨definition', fields', hstored, hcanon, hfields⟩ :=
    storesResolved_of_reads registered found stores hrow
  refine ⟨definition', fields', ⟨?_, hstored, ?_, ?_⟩, hcanon, hfields⟩
  · obtain ⟨_, _, rfl, -⟩ := hrow
    have hledger := uint32_natCast placed.ledgerIndex
    have htransaction := uint32_natCast placed.transactionIndex
    simp only [hasValidCoordinates, Bool.and_eq_true, decide_eq_true_eq, beq_iff_eq]
    exact ⟨⟨⟨⟨⟨⟨rfl, isLowerHash_of_named registered⟩, registered.publisher⟩,
      isSafeInteger_of_uint32 hledger⟩, Int.ofNat_le.mpr placed.activated, hledger.2⟩,
      isSafeInteger_of_uint32 htransaction⟩, htransaction⟩
  · obtain ⟨members, hmembers⟩ := exists_members registered
    obtain ⟨_, _, rfl, -⟩ := hrow
    obtain ⟨json, rfl, hjson⟩ := hevent
    rw [hmembers] at hjson
    obtain ⟨others, rfl, -⟩ := JsValue.exists_obj_of_canon_eq hjson
    simp only [isRegistrationOf, schemaRow, schemaEventRow, beq_self_eq_true,
      placed.transactionHash, placed.ledgerHash, Option.isNone_none, isNotNull, Bool.and_self]
  · obtain ⟨memo, hmemo, hmemoCanon, huid⟩ := recomputed_of_reads registered hevent
    have hsame : memo.toJs.canon = definition'.toJs.canon :=
      (canon_toJs_eq_iff (isValid_of_parseSchema hmemo)
        (isValid_of_parseSchema hstored.defined)).mpr (hmemoCanon.trans hcanon.symm)
    refine ⟨memo, hmemo, isWritable_of_canon_eq hsame hstored.writable, hsame, ?_⟩
    obtain ⟨_, _, rfl, -⟩ := hrow
    exact huid

end Checks

/-! ## The chain -/

/-- What validated evidence of an accepted registration stores, up to the order of members. -/
structure Validates (P : Platform) (profile : NetworkProfile) (r : StoredRegistration)
    (schemaUid : JsString) (definition : SchemaDefinition) (resolved : ResolvedSchema)
    (stored : StoredSchema) : Prop where
  coordinates : rowCoordinates profile.networkId stored.row = r.coordinates profile
  uid : stored.row.schemaUid = schemaUid
  stores : StoresResolved P stored.row stored.projection
  lineage : stored.projection.lineage = resolved.lineage
  definition_eq : stored.projection.definition.canon = definition.canon
  fields : canonFields stored.projection.fields = canonFields resolved.fields

/-- The loop over the chain stands before a schema that resolves to the given fields and lineage. -/
structure ReachesSchema (P : Platform) (definition : SchemaDefinition) (context : SchemaCoordinates)
    (resolved : ResolvedSchema) (ancestors : List StoredSchema) (parent : Option SchemaRow)
    (mergedFields : SchemaFields) : Prop where
  loop : ∀ (rest : List StoredSchema) (fields : SchemaFields),
    assertChain P resolved.lineage parent mergedFields rest = .ok fields →
      assertChain P [] none [] (ancestors ++ rest) = .ok fields
  valid : fieldsValid (maxSchemaDepth - 1) mergedFields = true
  earlier : ∀ row ∈ parent, isEarlier (rowCoordinates context.networkId row) context = true
  nodup : (mergedFields.map (·.1)).Nodup
  names : Extends mergedFields definition.fields
  fields : canonFields (mergedFields ++ definition.fields) = canonFields resolved.fields

section Chain

variable {P : Platform} {profile : NetworkProfile} {r : StoredRegistration}
  {schemaUid : JsString} {definition : SchemaDefinition} {resolved : ResolvedSchema}
  {ancestors : List StoredSchema} {parent : Option SchemaRow} {mergedFields : SchemaFields}
  {stored : StoredSchema}

theorem validates_of_attests {row : SchemaRow} {event : SchemaEventRow}
    {definition' : SchemaDefinition} {fields' : SchemaFields}
    (hreads : ReadsSchema profile r schemaUid definition resolved row)
    (hattests : Attests P (expectedNetwork profile) ⟨row, event⟩
      ⟨definition', fields', resolved.lineage⟩)
    (hcanon : definition'.canon = definition.canon)
    (hfields : canonFields fields' = canonFields resolved.fields) :
    Validates P profile r schemaUid definition resolved
      ⟨row, ⟨definition', fields', resolved.lineage⟩⟩ := by
  obtain ⟨_, _, rfl, -⟩ := hreads
  exact ⟨rfl, rfl, hattests.stored, rfl, hcanon, hfields⟩

/-- **One round.**  The evidence of the schema the loop stands before passes its checks. -/
theorem ReachesSchema.chainStep
    (h : ReachesSchema P definition (r.coordinates profile) resolved ancestors parent mergedFields)
    (hcount : countSchemaFields resolved.fields ≤ maxSchemaFields)
    (hlast : resolved.lineage.getLast? = definition.parent)
    (hstored : Validates P profile r schemaUid definition resolved stored) :
    ChainStep resolved.lineage parent mergedFields stored := by
  obtain ⟨-, -, hown, hparent, -⟩ := SchemaDefinition.canon_eq_iff.mp hstored.definition_eq
  have hall : canonFields (mergedFields ++ definition.fields)
      = canonFields (mergedFields ++ stored.projection.definition.fields) :=
    canonFields_append rfl hown.symm (h.names.nodup h.nodup)
  refine ⟨by rw [hlast, hparent], fun row hrow => ?_, h.names.congr rfl hown.symm, ?_, ?_,
    hstored.lineage.symm⟩
  · have hearlier := h.earlier row hrow
    rw [← hstored.coordinates] at hearlier
    exact hearlier
  · rw [← countSchemaFields_eq_of_canonFields_eq hall,
      countSchemaFields_eq_of_canonFields_eq h.fields]
    exact hcount
  · exact canon_fieldsJs_eq (hall.symm.trans (h.fields.trans hstored.fields.symm))

/-- After a round the loop goes on with the schema as the parent. -/
theorem ReachesSchema.loop_cons
    (h : ReachesSchema P definition (r.coordinates profile) resolved ancestors parent mergedFields)
    (hcount : countSchemaFields resolved.fields ≤ maxSchemaFields)
    (hlast : resolved.lineage.getLast? = definition.parent)
    (hstored : Validates P profile r schemaUid definition resolved stored)
    {rest : List StoredSchema} {fields : SchemaFields}
    (hrest : assertChain P (resolved.lineage ++ [schemaUid]) (some stored.row)
      (mergedFields ++ stored.projection.definition.fields) rest = .ok fields) :
    assertChain P [] none [] (ancestors ++ stored :: rest) = .ok fields := by
  refine h.loop _ _ ((assertChain_cons_eq_ok h.valid hstored.stores).mpr
    ⟨h.chainStep hcount hlast hstored, ?_⟩)
  rw [hstored.uid]
  exact hrest

end Chain

/-! ## The rows of a run -/

/-- The rows that the API reads: no UID twice, and every row is that of a registration. -/
structure IsEvidence (records : List StoredRegistration)
    (evidenceRows : List SchemaProjectionEvidence) : Prop where
  nodup : (evidenceRows.map (·.schema.schemaUid)).Nodup
  stored : ∀ evidence ∈ evidenceRows, ∃ r ∈ records, IsEvidenceOf r evidence

section Run

variable {P : Platform} {profile : NetworkProfile} {records : List StoredRegistration}
  {evidenceRows : List SchemaProjectionEvidence} (run : RegistrationRun P profile records)
  (hevidence : IsEvidence records evidenceRows)

include run

/-- What is known of an accepted registration of a run. -/
theorem stores_of_run {r : StoredRegistration} (hr : r ∈ records) {schemaUid : JsString}
    {memoJson : JsValue} {definition : SchemaDefinition} {resolved : ResolvedSchema}
    (houtcome : r.registration.outcome = .accepted schemaUid memoJson definition resolved) :
    IsPlaced profile r ∧ StoresAccepted P profile r schemaUid memoJson definition resolved := by
  obtain ⟨before, step⟩ := run.step hr
  exact ⟨isPlaced_of_step step, step.stored.accepted houtcome⟩

/-- Only accepted registrations have a row in `schemas`, under their UID. -/
theorem schemaUid_of_schema {r : StoredRegistration} (hr : r ∈ records) {row : SchemaRow}
    (hrow : r.schema = some row) : r.schemaUid = some row.schemaUid := by
  obtain ⟨before, step⟩ := run.step hr
  exact (step.stored.schemaUid_eq hrow).1

include hevidence

/-- The evidence of an accepted registration is found and valid. -/
theorem exists_validates {r : StoredRegistration} (hr : r ∈ records) {schemaUid : JsString}
    {memoJson : JsValue} {definition : SchemaDefinition} {resolved : ResolvedSchema}
    (houtcome : r.registration.outcome = .accepted schemaUid memoJson definition resolved)
    (hmem : schemaUid ∈ evidenceRows.map (·.schema.schemaUid)) :
    ∃ stored, validateEvidence P (expectedNetwork profile) evidenceRows schemaUid = .ok stored ∧
      Validates P profile r schemaUid definition resolved stored ∧
      ReadsSchema profile r schemaUid definition resolved stored.row := by
  obtain ⟨evidence, hmem, huid⟩ := List.mem_map.mp hmem
  have hsome : (findEvidence evidenceRows schemaUid).isSome = true :=
    List.find?_isSome.mpr ⟨evidence, hmem, beq_iff_eq.mpr huid⟩
  obtain ⟨evidence, hfind⟩ := Option.isSome_iff_exists.mp hsome
  obtain ⟨s, hs, J, row, hrow, rfl⟩ := hevidence.stored _ (List.mem_of_find?_eq_some hfind)
  have hrowUid := List.find?_some hfind
  rw [beq_iff_eq] at hrowUid
  have hrUid : r.schemaUid = some schemaUid := SchemaRegistrationResult.schemaUid_eq houtcome
  have hsUid := schemaUid_of_schema run hs hrow
  rw [show row.schemaUid = schemaUid from hrowUid] at hsUid
  obtain rfl := run.eq_of_schemaUid hr hs hrUid hsUid
  obtain ⟨registered, found⟩ := run.isRegistered r hr _ _ _ _ houtcome
  obtain ⟨placed, stores⟩ := stores_of_run run hr houtcome
  obtain ⟨other, hother, hreads⟩ := readsSchema_of_stored registered stores J
  rw [hrow, Option.some.injEq] at hother
  subst hother
  obtain ⟨definition', fields', hattests, hcanon, hfields⟩ := attests_of_reads registered found
    stores placed hreads (readsEvent_of_stored registered stores J)
  exact ⟨⟨readSchema J row, ⟨definition', fields', resolved.lineage⟩⟩,
    validateEvidence_eq_ok.mpr ⟨_, hfind, rfl, hattests⟩,
    validates_of_attests hreads hattests hcanon hfields, hreads⟩

/-- **The whole chain.**  The rows of the lineage of a schema bring the loop to the schema. -/
theorem reaches_of_resolution {definition : SchemaDefinition} {context : SchemaCoordinates}
    {resolved : ResolvedSchema}
    (h : Resolution (recordedCatalog profile records) definition context resolved)
    (hnetwork : context.networkId = profile.networkId)
    (hlineage : ∀ uid ∈ resolved.lineage, uid ∈ evidenceRows.map (·.schema.schemaUid)) :
    ∃ ancestors parent mergedFields,
      List.Forall₂ (fun uid stored =>
        validateEvidence P (expectedNetwork profile) evidenceRows uid = .ok stored)
        resolved.lineage ancestors ∧
      ReachesSchema P definition context resolved ancestors parent mergedFields := by
  induction h with
  | root parent names count replaces =>
      exact ⟨[], none, [], .nil, fun _ _ h => h, rfl, by simp, List.nodup_nil, names, rfl⟩
  | @child schema definition context uid registered resolved parent refers parsed ancestor names
      count replaces ih =>
      obtain ⟨huid, r, hr, hentry⟩ := exists_of_recordedCatalog refers.1
      obtain ⟨schemaUid, memoJson, definition', resolved', houtcome, rfl⟩ :=
        catalogEntry_eq_some.mp hentry
      obtain rfl : schemaUid = uid := huid
      obtain ⟨hregistered, -⟩ := run.isRegistered r hr _ _ _ _ houtcome
      rw [parseSchema_toJs (isValid_of_parseSchema hregistered.defined), Except.ok.injEq] at parsed
      subst parsed
      obtain ⟨resolved'', hresolution, hlineage', hfields⟩ := hregistered.resolves
      obtain rfl := hresolution.unique ancestor
      obtain ⟨ancestors, parentRow, mergedFields, hancestors, hreaches⟩ :=
        ih rfl fun uid hmem => hlineage uid (List.mem_append_left _ hmem)
      obtain ⟨stored, hvalidated, hstored, -⟩ := exists_validates run hevidence hr houtcome
        (hlineage schemaUid (List.mem_append_right _ (List.mem_singleton_self _)))
      have hstored' : Validates P profile r schemaUid definition' resolved'' stored :=
        { hstored with
          lineage := hstored.lineage.trans hlineage'.symm
          fields := hstored.fields.trans hfields.symm }
      obtain ⟨hcount, -⟩ := countSchemaFields_resolution ancestor
      have hlast := getLast?_lineage ancestor
      have hstep := hreaches.chainStep hcount hlast hstored'
      obtain ⟨-, -, hown, -⟩ := SchemaDefinition.canon_eq_iff.mp hstored.definition_eq
      have hmerged : canonFields (mergedFields ++ stored.projection.definition.fields)
          = canonFields resolved''.fields := by
        rw [← hreaches.fields]
        exact canonFields_append rfl hown (hstep.names.nodup hreaches.nodup)
      have hnames := hstep.names.nodup hreaches.nodup
      have hextends := names.congr hmerged.symm rfl
      refine ⟨ancestors ++ [stored], some stored.row,
        mergedFields ++ stored.projection.definition.fields,
        List.rel_append hancestors (.cons hvalidated .nil), ?_, ?_, ?_, hnames, hextends, ?_⟩
      · intro rest fields hrest
        rw [List.append_assoc]
        exact hreaches.loop_cons hcount hlast hstored' hrest
      · rw [fieldsValid_append, hreaches.valid,
          (fieldsValid_of_parseSchema hstored.stores.defined).1, Bool.and_self]
      · rintro row ⟨⟩
        rw [hnetwork, hstored.coordinates]
        exact refers.2.2.2
      · exact canonFields_append hmerged rfl (hextends.nodup hnames)

end Run

/-! ## The fingerprint -/

theorem isPlain_of_matchesProfileId {s : JsString} (h : matchesProfileId s = true) :
    isPlain s = true := by
  cases s with
  | nil => rfl
  | cons u rest =>
      simp only [matchesProfileId, matchesIdentifier, Bool.and_eq_true, List.all_eq_true] at h
      rw [isPlain, List.all_cons, Bool.and_eq_true, List.all_eq_true]
      have hunit : ∀ v : CodeUnit, (isLower v || isDigit v || v == 0x2e || v == 0x5f || v == 0x2d)
          = true → (0x20 ≤ v && v ≤ 0x7e) = true := by
        intro v hv
        simp only [isLower, isDigit, Bool.or_eq_true, Bool.and_eq_true, decide_eq_true_eq,
          beq_iff_eq, UInt16.le_iff_toNat_le, ← UInt16.toNat_inj] at hv ⊢
        simp only [UInt16.reduceToNat] at hv ⊢
        omega
      exact ⟨hunit u (by simp [h.1.1]), fun v hv => hunit v (h.2 v hv)⟩

theorem isJson_intJs {n : ℕ} (h : n ≤ 0xffffffff) : (intJs n).isJson = true := by
  show (JsValue.num (JsNumber.ofNat n)).isJson = true
  rw [JsNumber.ofNat_of_le (h.trans (by norm_num))]
  rfl

section Fingerprint

variable {P : Platform} {profile : NetworkProfile} {catalog : SchemaLookup}
  {r : StoredRegistration} {schemaUid : JsString} {memoJson : JsValue}
  {definition : SchemaDefinition} {resolved : ResolvedSchema}

/-- Two reads of one row have one fingerprint. -/
theorem fingerprint_of_reads {row row' : SchemaRow}
    (h : ReadsSchema profile r schemaUid definition resolved row)
    (h' : ReadsSchema profile r schemaUid definition resolved row') :
    (projectionFingerprint row).canon = (projectionFingerprint row').canon := by
  obtain ⟨_, _, rfl, hdefinition, hresolved⟩ := h
  obtain ⟨_, _, rfl, hdefinition', hresolved'⟩ := h'
  rw [projectionFingerprint, projectionFingerprint, JsValue.canon_obj, JsValue.canon_obj]
  simp only [schemaRow, List.map_cons, List.map_nil, hdefinition, hdefinition', hresolved,
    hresolved']

/-- A stored value whose objects repeat no key is well-formed JSON, in whatever order it is read. -/
theorem isWellFormed_of_storableJson {v w : JsValue} (hjson : v.isJson = true)
    (hkeys : v.distinctKeys = true) (hstored : StorableJson P v) (h : w.canon = v.canon) :
    w.isJson = true ∧ w.allStrings isWellFormed = true := by
  constructor
  · rw [← JsValue.isJson_canon, h, JsValue.isJson_canon]
    exact hjson
  · rw [← JsValue.allStrings_canon, h, JsValue.allStrings_canon]
    exact JsValue.allStrings_imp (fun _ => isWellFormed_of_isStorableString)
      (allStrings_of_storableJson hkeys hstored)

theorem isJson_textOrNull (text : Option JsString) : (textOrNull text).isJson = true := by
  cases text <;> rfl

theorem allStrings_textOrNull {p : JsString → Bool} {text : Option JsString}
    (h : text.all p = true) : (textOrNull text).allStrings p = true := by
  cases text with
  | none => rfl
  | some s => exact h

/-- The fingerprint of a row can be written. -/
theorem isWritable_fingerprint (hprofile : matchesProfileId profile.profileId = true)
    (registered : IsRegistered P profile catalog r schemaUid memoJson definition resolved)
    (stores : StoresAccepted P profile r schemaUid memoJson definition resolved)
    (placed : IsPlaced profile r) {row : SchemaRow}
    (h : ReadsSchema profile r schemaUid definition resolved row) :
    isWritable P (projectionFingerprint row) = true := by
  have hkeys := (distinctKeys_of_parseSchema registered.keys registered.defined).2
  have hresolvedKeys : resolved.toJs.distinctKeys = true :=
    distinctKeys_resolvedJs (by rw [registered.definition_eq]; exact hkeys) registered.fieldKeys
  obtain ⟨hname, hdescription⟩ := isWellFormed_texts registered stores
  have hvalid := isValid_of_parseSchema registered.defined
  simp only [SchemaDefinition.isValid, Bool.and_eq_true] at hvalid
  have hplain : ∀ {s : JsString}, isPlain s = true → isWellFormed s = true :=
    isWellFormed_of_isPlain
  have huid : ∀ {uid : Option JsString}, uid.all isLowerHash = true →
      uid.all isWellFormed = true := by
    intro uid h
    cases uid with
    | none => rfl
    | some uid => exact hplain (isPlain_of_isLowerHash h)
  obtain ⟨definitionJson, resolvedJson, rfl, hdefinition, hresolved⟩ := h
  obtain ⟨hdefinitionJson, hdefinitionStrings⟩ := isWellFormed_of_storableJson
    definition.isJson_toJs hkeys stores.storesDefinition hdefinition
  obtain ⟨hresolvedJson, hresolvedStrings⟩ := isWellFormed_of_storableJson
    resolved.isJson_toJs hresolvedKeys stores.storesResolved hresolved
  refine isWritable_of_isWellFormed ?_ ?_
  · simp only [projectionFingerprint, schemaRow, JsValue.isJson_obj, List.all_cons, List.all_nil,
      JsValue.isJson_str, isJson_textOrNull, isJson_intJs placed.ledgerIndex,
      isJson_intJs placed.transactionIndex, hdefinitionJson, hresolvedJson, Bool.and_self]
  · have hpublisher := hplain (isPlain_of_hasAddressShape
      (P.hasAddressShape_of_valid _ registered.publisher))
    have hschemaUid := hplain (isPlain_of_isLowerHash (isLowerHash_of_named registered))
    have hparent := allStrings_textOrNull (huid hvalid.1.1.2)
    have hsupersedes := allStrings_textOrNull (huid hvalid.1.2)
    have hhash := hplain (isPlain_of_isLowerHash placed.transactionHash)
    have hprofileId := hplain (isPlain_of_matchesProfileId hprofile)
    have hint : ∀ n : ℤ, (intJs n).allStrings isWellFormed = true := fun _ => rfl
    have hkey : ∀ s ∈ [js "profileId", js "schemaUid", js "publisher", js "name",
        js "description", js "parentUid", js "supersedesUid", js "definition",
        js "resolvedDefinition", js "registrationTransactionHash", js "ledgerIndex",
        js "transactionIndex"], isWellFormed s = true := by decide
    simp only [List.forall_mem_cons] at hkey
    simp only [projectionFingerprint, schemaRow, JsValue.allStrings_obj, List.all_cons,
      List.all_nil, JsValue.allStrings_str, hkey, hprofileId, hschemaUid, hpublisher, hname,
      hdescription, hparent, hsupersedes, hdefinitionStrings, hresolvedStrings, hhash, hint,
      Bool.and_self]

end Fingerprint

/-! ## Reason codes -/

theorem isReasonCode_registrationReason (error : Thrown) :
    isReasonCode (registrationReason error) = true := by
  have hsyntax : isReasonCode (js "JSON_INVALID") = true := by decide
  have hother : isReasonCode (js "REGISTRATION_INVALID") = true := by decide
  cases error with
  | xcs error =>
      rw [registrationReason]
      cases error.code <;> decide
  | syntaxError => exact hsyntax
  | _ => exact hother

theorem isReasonCode_of_extract {transaction : LedgerTransaction} {profile : NetworkProfile}
    {publisher reasonCode : JsString}
    (h : extractRegistrationEnvelope transaction profile = .rejected publisher reasonCode) :
    isReasonCode reasonCode = true := by
  unfold extractRegistrationEnvelope at h
  dsimp only at h
  split at h
  · cases h
  · split_ifs at h
    · cases h
      decide
    · cases h
      decide
    · cases h
      decide
    · split at h
      · cases h
        decide
      · cases h

/-- A registration is rejected for a reason that has the form of a code. -/
theorem isReasonCode_of_rejected {P : Platform} {transaction : LedgerTransaction}
    {ledgerHash : JsString} {ledgerIndex : ℕ} {profile : NetworkProfile} {catalog : SchemaLookup}
    {registration : SchemaRegistrationResult}
    (h : interpretSchemaRegistration P transaction ledgerHash ledgerIndex profile catalog
      = some registration) {reasonCode : JsString} {memoJson : Option JsValue}
    (houtcome : registration.outcome = .rejected reasonCode memoJson) :
    isReasonCode reasonCode = true := by
  rw [interpretSchemaRegistration] at h
  cases hextract : extractRegistrationEnvelope transaction profile with
  | notRegistration => rw [hextract] at h; cases h
  | rejected publisher reason =>
      rw [hextract, Option.some.injEq] at h
      subst h
      cases houtcome
      exact isReasonCode_of_extract hextract
  | candidate envelope =>
      rw [hextract, Option.some.injEq] at h
      subst h
      dsimp only at houtcome
      rw [interpretEnvelope] at houtcome
      split at houtcome
      · cases houtcome
        exact isReasonCode_registrationReason _
      · split at houtcome
        · cases houtcome
          exact isReasonCode_registrationReason _
        · cases houtcome
          decide
        · rename_i outcome haccept
          obtain ⟨_, _, _, haccepted⟩ := exists_accepted_of_acceptRegistration haccept
          rw [houtcome] at haccepted
          cases haccepted

/-! ## Registrations -/

section Shown

variable {P : Platform} {profile : NetworkProfile} {r : StoredRegistration}

/-- The coordinates of a registration are in order when its publisher is. -/
theorem hasRegistrationCoordinates_readEvent (placed : IsPlaced profile r) (J : JsonbReader)
    {status : JsString} {reasonCode uid : Option JsString} {json : JsValue}
    (hevent : r.event = (schemaEventRow profile r.ledger r.registration status reasonCode uid
      json).stored) :
    hasRegistrationCoordinates P (readEvent J r.event) (evidenceNetwork profile)
      r.registration.transactionHash = P.isValidClassicAddress r.event.publisher := by
  have hledger := uint32_natCast placed.ledgerIndex
  have htransaction := uint32_natCast placed.transactionIndex
  rw [hevent, Bool.eq_iff_iff]
  simp only [hasRegistrationCoordinates, Bool.and_eq_true, beq_iff_eq, decide_eq_true_eq]
  constructor
  · rintro ⟨⟨⟨⟨⟨⟨-, hpublisher⟩, -⟩, -⟩, -⟩, -⟩, -⟩
    exact hpublisher
  · intro hpublisher
    exact ⟨⟨⟨⟨⟨⟨rfl, hpublisher⟩, isSafeInteger_of_uint32 hledger⟩,
      Int.ofNat_le.mpr placed.activated, hledger.2⟩, placed.ledgerHash⟩,
      isSafeInteger_of_uint32 htransaction⟩, htransaction.1⟩

/-- **A rejected registration is shown** when its publisher is an address. -/
theorem shown_rejected_iff (placed : IsPlaced profile r) (stored : IsStored P profile r)
    {reasonCode : JsString} {memoJson : Option JsValue}
    (houtcome : r.registration.outcome = .rejected reasonCode memoJson)
    (hreason : isReasonCode reasonCode = true) (J : JsonbReader) :
    (∃ shown, publicSchemaRegistration P (readEvent J r.event) (evidenceNetwork profile)
        r.registration.transactionHash = .ok shown) ↔
      P.isValidClassicAddress r.event.publisher = true := by
  obtain ⟨json, hevent⟩ := stored.rejected houtcome
  have hcoordinates := hasRegistrationCoordinates_readEvent (P := P) placed J hevent
  have hstatus : (readEvent J r.event).status = js "rejected" := by rw [hevent]; rfl
  have huid : (readEvent J r.event).schemaUid = none := by rw [hevent]; rfl
  have hcode : (readEvent J r.event).reasonCode = some reasonCode := by rw [hevent]; rfl
  rw [publicSchemaRegistration, hcoordinates, hstatus, huid, hcode]
  cases P.isValidClassicAddress r.event.publisher with
  | false => simp [invalidSchemaRegistrationEvidence]
  | true =>
      rw [if_neg (by decide), if_neg (by decide), if_pos (by decide)]
      dsimp only
      rw [hreason, Bool.not_true, if_neg (by decide)]
      exact iff_of_true ⟨_, rfl⟩ rfl

/-- **An accepted registration is shown.** -/
theorem shown_accepted {catalog : SchemaLookup} {schemaUid : JsString} {memoJson : JsValue}
    {definition : SchemaDefinition} {resolved : ResolvedSchema}
    (registered : IsRegistered P profile catalog r schemaUid memoJson definition resolved)
    (stores : StoresAccepted P profile r schemaUid memoJson definition resolved)
    (placed : IsPlaced profile r) (J : JsonbReader) :
    P.isValidClassicAddress r.event.publisher = true ∧
      ∃ shown, publicSchemaRegistration P (readEvent J r.event) (evidenceNetwork profile)
        r.registration.transactionHash = .ok shown := by
  have hreads := readsEvent_of_stored registered stores J
  obtain ⟨definition', hparse, -, huid⟩ := recomputed_of_reads registered hreads
  have hcoordinates := hasRegistrationCoordinates_readEvent (P := P) placed J stores.event
  obtain ⟨members, hmembers⟩ := exists_members registered
  obtain ⟨json, hrow, hjson⟩ := hreads
  have hpublisher : P.isValidClassicAddress r.event.publisher = true := by
    have hsame := congrArg SchemaEventRow.publisher hrow
    rw [show r.event.publisher = (readEvent J r.event).publisher from rfl, hsame]
    exact registered.publisher
  have hwritable : isWritable P json = true := isWritable_of_canon_eq hjson
    (plainDatabaseJson_eq_ok.mp stores.storesMemo.choose_spec.1).1
  have hrecomputed : recomputedSchema P profile.networkId (readEvent J r.event)
      = .ok (canonicalText json, schemaUid) := by
    have hcanonical : canonicalJson P (readEvent J r.event).memoJson
        = .ok (canonicalText json) := by
      rw [hrow]
      exact canonicalJson_eq_ok.mpr ⟨hwritable, rfl⟩
    simp only [recomputedSchema, bind_eq_ok, pure_eq_ok', Prod.mk.injEq]
    exact ⟨_, hcanonical, _, hparse, _, huid, rfl, rfl⟩
  have hnotNull : isNotNull (readEvent J r.event).memoJson = true := by
    rw [hmembers] at hjson
    obtain ⟨others, rfl, -⟩ := JsValue.exists_obj_of_canon_eq hjson
    rw [hrow]
    rfl
  have hstatus := congrArg SchemaEventRow.status hrow
  have huidColumn := congrArg SchemaEventRow.schemaUid hrow
  have hreason := congrArg SchemaEventRow.reasonCode hrow
  refine ⟨hpublisher, ?_⟩
  rw [publicSchemaRegistration, hcoordinates, hpublisher, if_neg (by decide), hstatus,
    if_pos (by rfl), huidColumn, hreason]
  dsimp only [schemaEventRow]
  rw [isLowerHash_of_named registered, hnotNull, if_neg (by decide)]
  rw [show (evidenceNetwork profile).networkId = profile.networkId from rfl, hrecomputed]
  dsimp only
  rw [if_neg (by simp)]
  exact ⟨_, rfl⟩

end Shown

/-! ## The answers -/

/-- **An accepted schema is served.**  The API resolves every read of its row, and what it returns
is what the indexer resolved. -/
theorem served_of_run {P : Platform} {profile : NetworkProfile} {records : List StoredRegistration}
    {evidenceRows : List SchemaProjectionEvidence}
    (hprofile : matchesProfileId profile.profileId = true)
    (run : RegistrationRun P profile records) (hevidence : IsEvidence records evidenceRows)
    {r : StoredRegistration} (hr : r ∈ records) {schemaUid : JsString} {memoJson : JsValue}
    {definition : SchemaDefinition} {resolved : ResolvedSchema}
    (houtcome : r.registration.outcome = .accepted schemaUid memoJson definition resolved)
    (hlineage : ∀ uid ∈ resolved.lineage ++ [schemaUid],
      uid ∈ evidenceRows.map (·.schema.schemaUid)) {row : SchemaRow} (hrow : r.schema = some row)
    (J : JsonbReader) :
    ∃ served, authoritativeResolvedSchema P (readSchema J row) evidenceRows
        (expectedNetwork profile) schemaUid = .ok served ∧
      served.toJs.canon = resolved.toJs.canon := by
  obtain ⟨registered, found⟩ := run.isRegistered r hr _ _ _ _ houtcome
  obtain ⟨placed, stores⟩ := stores_of_run run hr houtcome
  obtain ⟨other, hother, hreads⟩ := readsSchema_of_stored registered stores J
  obtain rfl : row = other := Option.some.inj (hrow.symm.trans hother)
  obtain ⟨definition', fields', hstored, hcanon, hfields'⟩ :=
    storesResolved_of_reads registered found stores hreads
  obtain ⟨resolved', hresolution, hlineage', hfields⟩ := registered.resolves
  obtain ⟨ancestors, parent, mergedFields, hancestors, hreaches⟩ :=
    reaches_of_resolution run hevidence hresolution rfl fun uid hmem =>
      hlineage uid (List.mem_append_left _ (hlineage' ▸ hmem))
  obtain ⟨last, hlast, hvalidates, hreadsLast⟩ := exists_validates run hevidence hr houtcome
    (hlineage schemaUid (List.mem_append_right _ (List.mem_singleton_self _)))
  have hvalidates' : Validates P profile r schemaUid definition resolved' last :=
    { hvalidates with
      lineage := hvalidates.lineage.trans hlineage'.symm
      fields := hvalidates.fields.trans hfields.symm }
  obtain ⟨hcount, -⟩ := countSchemaFields_resolution hresolution
  have hparent := getLast?_lineage hresolution
  have hchain : assertChain P [] none [] (ancestors ++ [last])
      = .ok (mergedFields ++ last.projection.definition.fields) :=
    hreaches.loop_cons hcount hparent hvalidates' rfl
  have hstep := hreaches.chainStep hcount hparent hvalidates'
  have hmerged : (fieldsJs (mergedFields ++ last.projection.definition.fields)).canon
      = (fieldsJs resolved.fields).canon := by
    rw [hstep.fields, canon_fieldsJs_eq hvalidates.fields]
  have hcolumns : (readSchema J row).schemaUid = schemaUid ∧
      (readSchema J row).profileId = profile.profileId := by
    obtain ⟨_, _, hcolumns, -⟩ := hreads
    rw [hcolumns]
    exact ⟨rfl, rfl⟩
  refine ⟨⟨definition', mergedFields ++ last.projection.definition.fields,
    resolved.lineage⟩, authoritativeResolvedSchema_eq_ok.mpr ⟨hcolumns.1, ancestors, last, ?_⟩, ?_⟩
  · exact {
      profileId := hcolumns.2
      stored := ⟨fields', hstored⟩
      nodup := hevidence.nodup
      validated := by rw [← hlineage']; exact hancestors
      validated_last := by rw [hcolumns.1]; exact hlast
      writable := isWritable_fingerprint hprofile registered stores placed hreadsLast
      unchanged := fingerprint_of_reads hreadsLast hreads
      chain := hchain }
  · rw [ResolvedSchema.canon_toJs_eq_iff, registered.definition_eq]
    exact ⟨(canon_toJs_eq_iff (isValid_of_parseSchema hstored.defined)
      (isValid_of_parseSchema registered.defined)).mpr hcanon, hmerged, rfl⟩

/-- **A registration is shown** exactly when its publisher is an address. -/
theorem shown_iff_of_run {P : Platform} {profile : NetworkProfile}
    {records : List StoredRegistration} (run : RegistrationRun P profile records)
    {r : StoredRegistration} (hr : r ∈ records) (J : JsonbReader) :
    (∃ shown, publicSchemaRegistration P (readEvent J r.event) (evidenceNetwork profile)
        r.registration.transactionHash = .ok shown) ↔
      P.isValidClassicAddress r.event.publisher = true := by
  obtain ⟨before, step⟩ := run.step hr
  cases houtcome : r.registration.outcome with
  | accepted schemaUid memoJson definition resolved =>
      obtain ⟨registered, -⟩ := run.isRegistered r hr _ _ _ _ houtcome
      obtain ⟨placed, stores⟩ := stores_of_run run hr houtcome
      obtain ⟨hpublisher, hshown⟩ := shown_accepted registered stores placed J
      exact iff_of_true hshown hpublisher
  | rejected reasonCode memoJson =>
      obtain ⟨catalog, -, hread⟩ := step.interpreted
      exact shown_rejected_iff (isPlaced_of_step step) step.stored houtcome
        (isReasonCode_of_rejected hread houtcome) J

/-- **What the indexer accepted, the API serves.**  After any run, the stored row of every accepted
registration is there, and whatever order the tables list the members in, the API resolves it to the
fields and the lineage that were recorded, from any rows of the run that include its lineage.  It
shows every registration whose publisher is an address, and every accepted one is among them. -/
theorem registered_schemas_served {P : Platform} {profile : NetworkProfile}
    {records : List StoredRegistration} (hprofile : matchesProfileId profile.profileId = true)
    (run : RegistrationRun P profile records) :
    (∀ r ∈ records, ∀ schemaUid memoJson definition resolved,
      r.registration.outcome = .accepted schemaUid memoJson definition resolved →
        (∃ row, r.schema = some row ∧ ∀ (J : JsonbReader) evidenceRows,
          IsEvidence records evidenceRows →
          (∀ uid ∈ resolved.lineage ++ [schemaUid],
            uid ∈ evidenceRows.map (·.schema.schemaUid)) →
          ∃ served, authoritativeResolvedSchema P (readSchema J row) evidenceRows
              (expectedNetwork profile) schemaUid = .ok served ∧
            served.toJs.canon = resolved.toJs.canon) ∧
        P.isValidClassicAddress r.event.publisher = true) ∧
    ∀ r ∈ records, ∀ J : JsonbReader,
      (∃ shown, publicSchemaRegistration P (readEvent J r.event) (evidenceNetwork profile)
          r.registration.transactionHash = .ok shown) ↔
        P.isValidClassicAddress r.event.publisher = true := by
  constructor
  · intro r hr schemaUid memoJson definition resolved houtcome
    obtain ⟨registered, -⟩ := run.isRegistered r hr _ _ _ _ houtcome
    obtain ⟨placed, stores⟩ := stores_of_run run hr houtcome
    refine ⟨⟨_, stores.schema, fun J evidenceRows hevidence hlineage => ?_⟩,
      (shown_accepted registered stores placed .exact).1⟩
    exact served_of_run hprofile run hevidence hr houtcome hlineage stores.schema J
  · exact fun r hr J => shown_iff_of_run run hr J

/-! ## Two runs of one registration -/

/-- A ledger with one registration in it. -/
def ledgerOf (transaction : LedgerTransaction) : ValidatedLedger :=
  { registrationLedger [] with transactions := [transaction] }

theorem isNormalized_ledgerOf {transaction : LedgerTransaction}
    (hindex : transaction.transactionIndex = 0) (hhash : isLowerHash transaction.hash = true)
    (hmetadata : transaction.metadata.isJson = true) : (ledgerOf transaction).IsNormalized where
  ledgerIndex := by simp [ledgerOf, registrationLedger]
  ledgerHash := (by decide : isLowerHash (List.replicate 64 0x61) = true)
  parentHash := (by decide : isLowerHash (List.replicate 64 0x30) = true)
  transactionRoot := (by decide : isLowerHash (List.replicate 64 0x31) = true)
  closeTime := by simp [ledgerOf, registrationLedger]
  transactionIndices := congrArg (fun n => [n]) hindex
  transactionIndex := List.forall_mem_singleton.mpr (hindex.le.trans (Nat.zero_le _))
  transactionHash := List.forall_mem_singleton.mpr hhash
  transactionHashes := List.nodup_singleton _
  metadata := List.forall_mem_singleton.mpr hmetadata

/-- A run over the ledger of one transaction, when it is a registration that can be stored. -/
theorem exists_run_of_one {transaction : LedgerTransaction} {p : SchemaRegistrationResult → Bool}
    (hnormalized : (ledgerOf transaction).IsNormalized)
    (h : (interpretSchemaRegistration .summing transaction (List.replicate 64 0x61) 7 testnetProfile
      fun _ => none).any (fun registration => p registration &&
        (thrown (persistRegistration .summing testnetProfile (ledgerOf transaction) registration
          leasedRows.toProjectionRows)).isNone) = true) :
    ∃ r, RegistrationRun .summing testnetProfile [r] ∧ p r.registration = true := by
  obtain ⟨registration, hread, hregistration⟩ := (Option.any_eq_true _ _).mp h
  rw [Bool.and_eq_true, Option.isNone_iff_eq_none] at hregistration
  obtain ⟨hp, hnone⟩ := hregistration
  obtain ⟨rows', hpersist⟩ := exists_eq_ok_of_thrown_eq_none hnone
  obtain ⟨event, schema, hstored, -⟩ := exists_isStored transaction hpersist
    (fun _ hmem => absurd hmem List.not_mem_nil) fun _ hmem => absurd hmem List.not_mem_nil
  refine ⟨⟨ledgerOf transaction, transaction, registration, event, schema⟩,
    .snoc .nil ⟨hnormalized, le_rfl, List.mem_singleton_self _,
      ⟨fun _ => none, SameCatalog.refl _, hread⟩, hstored, ?_⟩, hp⟩
  exact fun _ _ _ hmem => absurd hmem List.not_mem_nil

/-- A registration without an account. -/
def accountlessTransaction : LedgerTransaction :=
  { registrationTransaction (js "1") with
    transaction := match (registrationTransaction (js "1")).transaction with
      | .obj members => .obj (members.filter fun m => m.1 != js "Account")
      | v => v }

/-- The registration without an account is rejected and stored, and the API reports its row as
inconsistent. -/
theorem registered_schemas_not_served : ∃ r, RegistrationRun .summing testnetProfile [r] ∧
    ¬∃ shown, publicSchemaRegistration .summing (readEvent .exact r.event)
      (evidenceNetwork testnetProfile) r.registration.transactionHash = .ok shown := by
  obtain ⟨r, run, hpublisher⟩ := @exists_run_of_one accountlessTransaction
    (fun registration => registration.publisher.isEmpty)
    (isNormalized_ledgerOf rfl (by decide) (by decide)) (by decide +kernel)
  have hr := List.mem_singleton_self r
  obtain ⟨before, step⟩ := run.step hr
  refine ⟨r, run, ?_⟩
  rw [shown_iff_of_run run hr, step.stored.publisher, List.isEmpty_iff.mp hpublisher]
  decide

/-- The registration of a schema with one field. -/
def sampleTransaction : LedgerTransaction :=
  registrationTransaction (canonicalText (sampleDefinition (js "a") none).toJs)

/-- A registration is accepted and its schema has no ancestors. -/
def isRoot (registration : SchemaRegistrationResult) : Bool :=
  match registration.outcome with
  | .accepted _ _ _ resolved => resolved.lineage.isEmpty
  | .rejected _ _ => false

theorem registered_schemas_served_sample : ∃ r row served,
    RegistrationRun .summing testnetProfile [r] ∧ r.schema = some row ∧
      authoritativeResolvedSchema .summing (readSchema .sorted row)
        [⟨readSchema .exact row, readEvent .exact r.event⟩] (expectedNetwork testnetProfile)
        row.schemaUid = .ok served := by
  obtain ⟨r, run, hroot⟩ := @exists_run_of_one sampleTransaction isRoot
    (isNormalized_ledgerOf rfl (by decide) (by decide)) (by decide +kernel)
  have hr := List.mem_singleton_self r
  rw [isRoot] at hroot
  cases houtcome : r.registration.outcome with
  | rejected => rw [houtcome] at hroot; cases hroot
  | accepted schemaUid memoJson definition resolved =>
      rw [houtcome] at hroot
      obtain ⟨⟨row, hrow, hserved⟩, -⟩ :=
        (registered_schemas_served (by decide) run).1 r hr _ _ _ _ houtcome
      have huid : some schemaUid = some row.schemaUid := by
        rw [← schemaUid_of_schema run hr hrow]
        exact (SchemaRegistrationResult.schemaUid_eq houtcome).symm
      rw [Option.some.injEq] at huid
      subst huid
      obtain ⟨served, h, -⟩ := hserved .sorted [⟨readSchema .exact row, readEvent .exact r.event⟩]
        ⟨List.nodup_singleton _, List.forall_mem_singleton.mpr ⟨r, hr, .exact, row, hrow, rfl⟩⟩ (by
          rw [List.isEmpty_iff.mp hroot]
          exact fun uid huid => huid)
      exact ⟨r, row, served, run, hrow, h⟩

end Agreement
end Xcs
