import Xcs.Web.SchemaProjection

/-!
# The evidence check is sound

Whatever rows the API is given: when `authoritativeResolvedSchema` succeeds, the protocol's own
`resolveSchema` succeeds with those rows as its catalog and gives the same fields and lineage, and
every schema on the chain has the UID of its registration.  Only the `supersedes` relation is
outside the check, and it is disregarded here by deleting it from every definition.

* `Reached` is what the loop over the chain has established when it comes to a schema: its parent
  resolves to the fields merged so far.
* `Reached.resolution` is one round of the loop, and `resolution_of_assertChain` the whole loop.
-/

namespace Xcs
namespace Web

open Js Json Xcs.Core Db

/-- A definition without its `supersedes` member. -/
def withoutSupersedes : JsValue → JsValue
  | .obj members => .obj (members.filter fun m => m.1 != js "supersedes")
  | v => v

/-- The schema a row registers, as a catalog has it, without the schema it supersedes. -/
def registeredSchema (networkId : ℤ) (row : SchemaRow) : RegisteredSchema where
  toSchemaCoordinates := rowCoordinates networkId row
  uid := row.schemaUid
  definition := withoutSupersedes row.definition

/-- Evidence rows as a catalog. -/
def evidenceCatalog (networkId : ℤ) (evidenceRows : List SchemaProjectionEvidence) :
    SchemaLookup :=
  fun uid => (findEvidence evidenceRows uid).map fun evidence =>
    registeredSchema networkId evidence.schema

theorem get_withoutSupersedes {v : JsValue} {key : JsString} (hkey : key ≠ js "supersedes") :
    (withoutSupersedes v).get key = v.get key := by
  cases v with
  | obj members =>
      rw [withoutSupersedes, JsValue.get_obj, JsValue.get_obj]
      induction members with
      | nil => rfl
      | cons m members ih =>
          obtain ⟨name, value⟩ := m
          rw [List.filter_cons, List.lookup_cons]
          by_cases hname : name = js "supersedes"
          · have hne : (key == name) = false := by
              rw [hname, beq_eq_false_iff_ne]
              exact hkey
            rw [if_neg (by simp [hname]), ih, hne]
          · rw [if_pos (by simp [hname]), List.lookup_cons]
            cases key == name
            · exact ih
            · rfl
  | _ => rfl

theorem get_supersedes_withoutSupersedes (v : JsValue) :
    (withoutSupersedes v).get (js "supersedes") = .undefined := by
  cases v with
  | obj members =>
      have hnone : (members.filter fun m => m.1 != js "supersedes").lookup (js "supersedes")
          = none := by
        rw [List.lookup_eq_none_iff]
        intro m hm
        rw [List.mem_filter, bne_iff_ne] at hm
        rw [bne_iff_ne]
        exact fun h => hm.2 h.symm
      rw [withoutSupersedes, JsValue.get_obj, hnone]
      rfl
  | _ => rfl

/-- Without its `supersedes` member a definition parses to itself without the relation. -/
theorem parseSchema_withoutSupersedes {v : JsValue} {d : SchemaDefinition}
    (h : parseSchema v = .ok d) :
    parseSchema (withoutSupersedes v) = .ok { d with supersedes := none } := by
  obtain ⟨hread, hcount⟩ := parseSchema_eq_ok.mp h
  rw [parseSchema_eq_ok]
  refine ⟨?_, hcount⟩
  cases v with
  | obj members =>
      have hget : ∀ key, key ≠ js "supersedes" →
          (withoutSupersedes (.obj members)).get key = (JsValue.obj members).get key :=
        fun key hkey => get_withoutSupersedes hkey
      have hsupersedes := get_supersedes_withoutSupersedes (.obj members)
      rw [withoutSupersedes] at hget hsupersedes
      simp only [definitionOf, Option.bind_eq_bind, Option.bind_eq_some_iff,
        Option.guard_eq_some', exists_const, Option.pure_def, Option.some.injEq] at hread ⊢
      obtain ⟨honly, hversion, parent, hparent, previous, -, -, name, hname, description,
        hdescription, fields, hfields, rfl⟩ := hread
      have honly' : hasOnly (members.filter fun m => m.1 != js "supersedes") schemaProperties
          = true := by
        rw [hasOnly, List.all_eq_true] at honly ⊢
        exact fun m hm => honly m (List.mem_of_mem_filter hm)
      rw [withoutSupersedes]
      simp only [Option.bind_eq_some_iff, Option.guard_eq_some', exists_const]
      refine ⟨honly', by rw [hget _ (by decide)]; exact hversion, parent,
        by rw [hget _ (by decide)]; exact hparent, none, by rw [hsupersedes]; rfl, ?_, name,
        by rw [hget _ (by decide)]; exact hname, description,
        by rw [hget _ (by decide)]; exact hdescription, fields,
        by rw [hget _ (by decide)]; exact hfields, rfl⟩
      cases parent <;> rfl
  | _ => cases hread

/-! ## The loop over the chain -/

section Loop

variable (networkId : ℤ) (catalog : SchemaLookup)

/-- The definition of a stored schema without the schema it supersedes. -/
def StoredSchema.definition (stored : StoredSchema) : SchemaDefinition :=
  { stored.projection.definition with supersedes := none }

/-- The catalog has a stored schema under its UID. -/
def InCatalog (stored : StoredSchema) : Prop :=
  catalog stored.row.schemaUid = some (registeredSchema networkId stored.row) ∧
    parseSchema stored.row.definition = .ok stored.projection.definition

/-- The loop over the chain stands after the given schema, whose fields and lineage it knows. -/
inductive Reached : List JsString → Option SchemaRow → SchemaFields → Prop
  | start : Reached [] none []
  | after {stored : StoredSchema} {lineage : List JsString} {mergedFields : SchemaFields}
      (inCatalog : InCatalog networkId catalog stored)
      (resolution : Resolution catalog stored.definition (rowCoordinates networkId stored.row)
        ⟨stored.definition, mergedFields, lineage⟩) :
      Reached (lineage ++ [stored.row.schemaUid]) (some stored.row) mergedFields

variable {networkId catalog}

theorem StoredSchema.replaces (stored : StoredSchema) (context : SchemaCoordinates) :
    Replaces catalog stored.definition context := by
  intro uid huid
  cases huid

/-- **One round.**  A schema that passes the checks resolves to its parent's fields and its own. -/
theorem Reached.resolution {lineage : List JsString} {parent : Option SchemaRow}
    {mergedFields : SchemaFields} (h : Reached networkId catalog lineage parent mergedFields)
    {current : StoredSchema} (step : ChainStep lineage parent mergedFields current) :
    Resolution catalog current.definition (rowCoordinates networkId current.row)
      ⟨current.definition, mergedFields ++ current.projection.definition.fields, lineage⟩ := by
  have hreplaces := @StoredSchema.replaces catalog current (rowCoordinates networkId current.row)
  cases h with
  | start => exact .root step.parent_eq step.names step.count hreplaces
  | after inCatalog resolution =>
      rename_i stored ancestors
      have hparent : current.definition.parent = some stored.row.schemaUid := by
        have hlast := step.parent_eq
        rw [List.getLast?_append, List.getLast?_singleton] at hlast
        exact hlast
      have hprior : isPrior stored.row current.row = true := step.prior _ rfl
      have hrefers : Refers catalog stored.row.schemaUid (rowCoordinates networkId current.row)
          (registeredSchema networkId stored.row) := ⟨inCatalog.1, rfl, rfl, hprior⟩
      exact .child hparent hrefers (parseSchema_withoutSupersedes inCatalog.2) resolution
        step.names step.count hreplaces

/-- **The whole loop.**  When every schema of the chain passes, the last one resolves to the merged
fields, with the others as its lineage. -/
theorem resolution_of_assertChain {P : Platform} {last : StoredSchema} :
    ∀ {ancestors : List StoredSchema} {lineage : List JsString} {parent : Option SchemaRow}
      {mergedFields fields : SchemaFields},
      Reached networkId catalog lineage parent mergedFields →
      fieldsValid (maxSchemaDepth - 1) mergedFields = true →
      (∀ stored ∈ ancestors ++ [last], InCatalog networkId catalog stored ∧
        StoresResolved P stored.row stored.projection) →
      assertChain P lineage parent mergedFields (ancestors ++ [last]) = .ok fields →
      Resolution catalog last.definition (rowCoordinates networkId last.row)
        ⟨last.definition, fields, lineage ++ ancestors.map (·.row.schemaUid)⟩ := by
  intro ancestors
  induction ancestors with
  | nil =>
      intro lineage parent mergedFields fields hreached hvalid hstored h
      obtain ⟨-, hlast⟩ := hstored last (List.mem_singleton_self last)
      obtain ⟨step, hrest⟩ := (assertChain_cons_eq_ok hvalid hlast).mp h
      obtain rfl := Except.ok.inj hrest
      rw [List.map_nil, List.append_nil]
      exact hreached.resolution step
  | cons current ancestors ih =>
      intro lineage parent mergedFields fields hreached hvalid hstored h
      obtain ⟨hcurrent, hrest⟩ := List.forall_mem_cons.mp hstored
      obtain ⟨step, hchain⟩ := (assertChain_cons_eq_ok hvalid hcurrent.2).mp h
      have hvalid' : fieldsValid (maxSchemaDepth - 1)
          (mergedFields ++ current.projection.definition.fields) = true := by
        rw [fieldsValid_append, hvalid, (fieldsValid_of_parseSchema hcurrent.1.2).1, Bool.and_self]
      have hnext := ih (.after hcurrent.1 (hreached.resolution step)) hvalid' hrest hchain
      rwa [List.append_assoc] at hnext

end Loop

/-! ## The target -/

/-- A column that is written like a uint32 is that uint32. -/
theorem eq_of_canon_intJs_eq {n m : ℤ} (hm : 0 ≤ m ∧ m ≤ maxUint32)
    (h : (intJs n).canon = (intJs m).canon) : n = m := by
  have hsmall : |m| < 2 ^ 53 := by
    rw [maxUint32] at hm
    rw [abs_of_nonneg hm.1]
    omega
  have hexact : roundBinary64 (m : ℚ) = m := JsNumber.roundBinary64_intCast hsmall.le
  simp only [intJs, JsValue.canon_num, JsValue.num.injEq] at h
  have hfinite : |roundBinary64 (m : ℚ)| < 2 ^ 1024 := by
    rw [hexact]
    calc |(m : ℚ)| < 2 ^ 53 := by exact_mod_cast hsmall
      _ ≤ 2 ^ 1024 := pow_le_pow_right₀ (by norm_num) (by norm_num)
  rw [JsNumber.ofRat, JsNumber.ofRat, dif_pos hfinite] at h
  split_ifs at h with hn
  · have hvalue : roundBinary64 (n : ℚ) = roundBinary64 (m : ℚ) :=
      congrArg Double.val (JsNumber.finite.inj h)
    rw [hexact] at hvalue
    exact JsNumber.intCast_eq_of_roundBinary64_eq hsmall hvalue
  · cases h

/-- Rows with one fingerprint have the same coordinates and definition. -/
theorem rowCoordinates_eq_of_fingerprint {networkId : ℤ} {row row' : SchemaRow}
    (hledger : 0 ≤ row.ledgerIndex ∧ row.ledgerIndex ≤ maxUint32)
    (htransaction : 0 ≤ row.transactionIndex ∧ row.transactionIndex ≤ maxUint32)
    (h : (projectionFingerprint row).canon = (projectionFingerprint row').canon) :
    rowCoordinates networkId row' = rowCoordinates networkId row ∧
      row'.definition.canon = row.definition.canon := by
  have hget := JsValue.get_eq_of_canon_eq h
  have hpublisher : (JsValue.str row.publisher).canon = (JsValue.str row'.publisher).canon :=
    hget (js "publisher")
  have hdefinition : row.definition.canon = row'.definition.canon := hget (js "definition")
  have hledgerIndex : (intJs row.ledgerIndex).canon = (intJs row'.ledgerIndex).canon :=
    hget (js "ledgerIndex")
  have htransactionIndex : (intJs row.transactionIndex).canon
      = (intJs row'.transactionIndex).canon := hget (js "transactionIndex")
  refine ⟨?_, hdefinition.symm⟩
  rw [rowCoordinates, rowCoordinates, eq_of_canon_intJs_eq hledger hledgerIndex.symm,
    eq_of_canon_intJs_eq htransaction htransactionIndex.symm, JsValue.str.inj hpublisher]

/-- Every schema of the chain is in the catalog of the evidence and stores its resolution. -/
theorem inCatalog_of_validateEvidence {P : Platform} {expected : ExpectedNetwork}
    {evidenceRows : List SchemaProjectionEvidence} {uid : JsString} {stored : StoredSchema}
    (h : validateEvidence P expected evidenceRows uid = .ok stored) :
    InCatalog expected.networkId (evidenceCatalog expected.networkId evidenceRows) stored ∧
      StoresResolved P stored.row stored.projection := by
  obtain ⟨evidence, hfind, hrow, hattests⟩ := validateEvidence_eq_ok.mp h
  have huid := List.find?_some hfind
  rw [beq_iff_eq] at huid
  have hstored := hattests.stored
  rw [← hrow] at hstored
  refine ⟨⟨?_, hstored.defined⟩, hstored⟩
  rw [hrow, evidenceCatalog, huid, hfind]
  rfl

/-- What is attested of a row includes that it has a UID at its coordinates. -/
theorem Attests.computes {P : Platform} {expected : ExpectedNetwork}
    {evidence : SchemaProjectionEvidence} {projection : ResolvedSchema}
    (h : Attests P expected evidence projection) :
    ∃ memo, parseSchema evidence.registration.memoJson = .ok memo ∧
      computeSchemaUid P { rowCoordinates expected.networkId evidence.schema with
        ledgerHash := evidence.registration.ledgerHash, schema := memo }
          = .ok evidence.schema.schemaUid := by
  obtain ⟨memo, hmemo, -, -, huid⟩ := h.memo
  have hregistration := h.registration
  simp only [isRegistrationOf, Bool.and_eq_true, beq_iff_eq] at hregistration
  obtain ⟨⟨⟨⟨⟨⟨⟨⟨-, hledger⟩, htransaction⟩, hpublisher⟩, -⟩, -⟩, -⟩, -⟩, -⟩ := hregistration
  rw [registrationUidInput, hledger, htransaction, hpublisher] at huid
  exact ⟨memo, hmemo, huid⟩

/-- The coordinates of an attested row are those of a registration. -/
theorem Attests.isUidInput {P : Platform} {expected : ExpectedNetwork}
    {evidence : SchemaProjectionEvidence} {projection : ResolvedSchema}
    (h : Attests P expected evidence projection) :
    isUint32 expected.networkId = true ∧ isUint32 evidence.schema.ledgerIndex = true ∧
      isUint32 evidence.schema.transactionIndex = true ∧
      P.isValidClassicAddress evidence.schema.publisher = true := by
  obtain ⟨memo, hmemo, huid⟩ := h.computes
  have hinput := ((computeSchemaUid_eq_ok (isValid_of_parseSchema hmemo)).mp huid).1
  simp only [Core.isUidInput, Bool.and_eq_true] at hinput
  exact ⟨hinput.1.1.1.1, hinput.1.1.1.2, hinput.1.1.2, hinput.2⟩

/-- **The evidence check is sound.**  Whenever `authoritativeResolvedSchema` succeeds, on whatever
rows, `resolveSchema` succeeds on the definition and coordinates of the row with the evidence as its
catalog and the `supersedes` relation disregarded, and the fields, as an object, and the lineage are
the same.  Every schema on the chain has the UID that `computeSchemaUid` gives for its memo, its
publisher and its coordinates. -/
theorem authoritativeResolvedSchema_sound {P : Platform} {row : SchemaRow}
    {evidenceRows : List SchemaProjectionEvidence} {expected : ExpectedNetwork}
    {schemaUid : JsString} {resolved : ResolvedSchema}
    (h : authoritativeResolvedSchema P row evidenceRows expected schemaUid = .ok resolved) :
    (∃ resolved', resolveSchema P (withoutSupersedes row.definition)
        { toSchemaCoordinates := rowCoordinates expected.networkId row,
          getSchema := evidenceCatalog expected.networkId evidenceRows } = .ok resolved' ∧
        (fieldsJs resolved'.fields).canon = (fieldsJs resolved.fields).canon ∧
        resolved'.lineage = resolved.lineage) ∧
      ∀ uid ∈ resolved.lineage ++ [row.schemaUid], ∃ evidence ∈ evidenceRows,
        evidence.schema.schemaUid = uid ∧
        ∃ memo, parseSchema evidence.registration.memoJson = .ok memo ∧
          computeSchemaUid P { rowCoordinates expected.networkId evidence.schema with
            ledgerHash := evidence.registration.ledgerHash, schema := memo } = .ok uid := by
  obtain ⟨-, ancestors, last, hresolves⟩ := authoritativeResolvedSchema_eq_ok.mp h
  obtain ⟨fields, hrow⟩ := hresolves.stored
  have hvalidated := exists_mem_of_forall₂ (List.rel_append hresolves.validated
    (List.Forall₂.cons hresolves.validated_last List.Forall₂.nil))
  constructor
  · obtain ⟨evidence, -, hlast, hattests⟩ := validateEvidence_eq_ok.mp hresolves.validated_last
    obtain ⟨hnetwork, hledger, htransaction, hpublisher⟩ := hattests.isUidInput
    rw [← hlast] at hledger htransaction hpublisher
    have hinCatalog : ∀ stored ∈ ancestors ++ [last],
        InCatalog expected.networkId (evidenceCatalog expected.networkId evidenceRows) stored ∧
          StoresResolved P stored.row stored.projection := by
      intro stored hstored
      obtain ⟨uid, -, huid⟩ := hvalidated.2 stored hstored
      exact inCatalog_of_validateEvidence huid
    have hresolution := resolution_of_assertChain .start rfl hinCatalog hresolves.chain
    rw [List.nil_append, map_schemaUid_of_validateEvidence hresolves.validated] at hresolution
    -- the row and the last row of the chain have the same coordinates and definition
    rw [isUint32, decide_eq_true_eq] at hledger htransaction
    obtain ⟨hcoordinates, hdefinition⟩ := @rowCoordinates_eq_of_fingerprint
      expected.networkId _ _ hledger htransaction hresolves.unchanged
    have hlastStored := (hinCatalog last (List.mem_append_right _ (List.mem_singleton_self _))).2
    have hcanon : last.projection.definition.toJs.canon = resolved.definition.toJs.canon := by
      rw [hlastStored.normalized, ← hdefinition]
      exact hrow.normalized.symm
    obtain ⟨hname, hdescription, hown, hparent, -⟩ := SchemaDefinition.canon_eq_iff.mp
      ((canon_toJs_eq_iff (isValid_of_parseSchema hlastStored.defined)
        (isValid_of_parseSchema hrow.defined)).mp hcanon)
    have hsame : last.definition.canon
        = SchemaDefinition.canon { resolved.definition with supersedes := none } :=
      SchemaDefinition.canon_eq_iff.mpr ⟨hname, hdescription, hown, hparent, rfl⟩
    obtain ⟨resolved', hresolution', hlineage, hfields⟩ :=
      hresolution.congr (SameCatalog.refl _) hsame
    refine ⟨resolved', ?_, canon_fieldsJs_eq hfields, hlineage⟩
    have hlength := (lineageOf_eq_some.mp hrow.lineage).2.1
    rw [resolveSchema_eq_ok, hcoordinates]
    refine ⟨hnetwork, decide_eq_true hledger, decide_eq_true htransaction, hpublisher, _,
      parseSchema_withoutSupersedes hrow.defined, hresolution', ?_⟩
    rw [hlineage]
    exact hlength
  · intro uid huid
    obtain ⟨stored, -, hstored⟩ := hvalidated.1 uid huid
    obtain ⟨evidence, hfind, -, hattests⟩ := validateEvidence_eq_ok.mp hstored
    have hsame := List.find?_some hfind
    rw [beq_iff_eq] at hsame
    obtain ⟨memo, hmemo, hcompute⟩ := hattests.computes
    rw [hsame] at hcompute
    exact ⟨evidence, List.mem_of_find?_eq_some hfind, hsame, memo, hmemo, hcompute⟩

/-! ## A chain of two schemas -/

/-- The network the sample rows are of. -/
def sampleNetwork : ExpectedNetwork where
  profileId := js "testnet"
  networkId := 1
  activationLedgerIndex := 100

/-- A definition with one field. -/
def sampleDefinition (field : JsString) (parent : Option JsString) : SchemaDefinition where
  name := js "Sample"
  description := js "A sample schema."
  fields := [(field, .scalar .string false)]
  parent
  supersedes := none

/-- The row of a schema and its registration, as the indexer writes them. -/
def sampleEvidence (ledgerIndex : ℤ) (resolved : ResolvedSchema) : SchemaProjectionEvidence :=
  let publisher := js "rrrrrrrrrrrrrrrrrrrrrhoLvTp"
  let hash := List.replicate 64 0x61
  let schemaUid := schemaUid .summing
    { networkId := 1, publisher, ledgerIndex, transactionIndex := 0, ledgerHash := hash,
      schema := resolved.definition }
  { schema :=
      { profileId := js "testnet", schemaUid, publisher, name := resolved.definition.name,
        description := resolved.definition.description, parentUid := resolved.definition.parent,
        supersedesUid := resolved.definition.supersedes, definition := resolved.definition.toJs,
        resolvedDefinition := resolved.toJs, registrationTransactionHash := hash, ledgerIndex,
        transactionIndex := 0 }
    registration :=
      { profileId := js "testnet", transactionHash := hash, ledgerIndex, ledgerHash := hash,
        transactionIndex := 0, publisher, status := js "accepted", reasonCode := none,
        schemaUid := some schemaUid, memoJson := resolved.definition.toJs } }

/-- The evidence of a schema without a parent. -/
def sampleParent : SchemaProjectionEvidence :=
  sampleEvidence 100 ⟨sampleDefinition (js "a") none, [(js "a", .scalar .string false)], []⟩

/-- What a schema that extends it resolves to. -/
def sampleResolved : ResolvedSchema where
  definition := sampleDefinition (js "b") (some sampleParent.schema.schemaUid)
  fields := [(js "a", .scalar .string false), (js "b", .scalar .string false)]
  lineage := [sampleParent.schema.schemaUid]

/-- The evidence of that schema. -/
def sampleChild : SchemaProjectionEvidence :=
  sampleEvidence 101 sampleResolved

theorem authoritativeResolvedSchema_sound_child :
    ∃ resolved, authoritativeResolvedSchema .summing sampleChild.schema [sampleParent, sampleChild]
        sampleNetwork sampleChild.schema.schemaUid = .ok resolved ∧
      ∃ resolved', resolveSchema .summing (withoutSupersedes sampleChild.schema.definition)
          { toSchemaCoordinates := rowCoordinates 1 sampleChild.schema,
            getSchema := evidenceCatalog 1 [sampleParent, sampleChild] } = .ok resolved' ∧
        (fieldsJs resolved'.fields).canon = (fieldsJs resolved.fields).canon ∧
        resolved'.lineage = resolved.lineage := by
  have hnone : thrown (authoritativeResolvedSchema .summing sampleChild.schema
      [sampleParent, sampleChild] sampleNetwork sampleChild.schema.schemaUid) = none := by
    decide +kernel
  obtain ⟨resolved, h⟩ := exists_eq_ok_of_thrown_eq_none hnone
  exact ⟨resolved, h, (authoritativeResolvedSchema_sound h).1⟩

end Web
end Xcs
