import Xcs.Run.References
import Xcs.Sdk.Network
import Xcs.Web.SchemaSoundness

/-!
# Schema catalogs

A catalog bundle lists a schema with the schemas it extends and supersedes, and with those they
refer to in turn, so that a client can resolve it offline.  `authoritativeSchemaCatalogBundle`
makes one from evidence rows: it sorts them by their coordinates, checks each of them and the target
against the evidence of its ancestors, and writes an entry for each.

* `authoritativeSchemaCatalogBundle_eq_ok` says which bundle is returned.
* `refersBack_parents`: what an entry extends is there, before it.
* `authoritativeSchemaCatalogBundle_isClosure_iff`: the relation `supersedes` is nowhere looked at,
  and so the bundle is the closure of its target exactly when the rows are closed under it and the
  target leads to them.
-/

namespace Xcs
namespace Web

open Js Json Xcs.Core Db

/-! ## The bundle -/

/-- `MAX_SCHEMA_CATALOG_ENTRIES` -/
def maxSchemaCatalogEntries : ℕ := 256

/-- `SchemaCatalogEntry` -/
structure SchemaCatalogEntry where
  uid : JsString
  definition : SchemaDefinition
  publisher : JsString
  ledgerIndex : ℤ
  ledgerHash : JsString
  transactionIndex : ℤ
  transactionHash : JsString

/-- `SchemaCatalogBundle`, whose format is always the same. -/
structure SchemaCatalogBundle where
  profile : Indexer.NetworkProfile
  targetUid : JsString
  checkpointLedgerIndex : ℕ
  checkpointLedgerHash : JsString
  schemas : List SchemaCatalogEntry

/-- What `networkProfile` gives to `parseNetworkProfile`. -/
def networkProfileJs (row : NetworkProfileRow) : JsValue :=
  .obj [(js "profileId", .str row.profileId), (js "xcsVersion", .str row.xcsVersion),
    (js "networkId", .num (.ofNat row.networkId)),
    (js "requiredAmendment", .str row.requiredAmendment),
    (js "registryAddress", .str row.registryAddress),
    (js "registrationAmountDrops", .str (natToString row.registrationAmountDrops)),
    (js "activationLedgerIndex", .num (.ofNat row.activationLedgerIndex)),
    (js "activationLedgerHash", .str row.activationLedgerHash)]

/-- `networkProfile` -/
def networkProfile (P : Platform) (row : NetworkProfileRow) :
    Except Thrown Indexer.NetworkProfile :=
  Sdk.parseCoreNetworkProfile P (networkProfileJs row)

/-- `compareEvidence` -/
def compareEvidence (left right : SchemaProjectionEvidence) : ℤ :=
  if left.schema.ledgerIndex - right.schema.ledgerIndex ≠ 0 then
    left.schema.ledgerIndex - right.schema.ledgerIndex
  else left.schema.transactionIndex - right.schema.transactionIndex

/-- One row of evidence does not come after another. -/
def evidenceLe (left right : SchemaProjectionEvidence) : Prop :=
  compareEvidence left right ≤ 0

instance : DecidableRel evidenceLe := fun _ _ => inferInstanceAs (Decidable (_ ≤ _))

/-- `[...input.evidence].sort(compareEvidence)` -/
def sortEvidence (evidence : List SchemaProjectionEvidence) : List SchemaProjectionEvidence :=
  evidence.insertionSort evidenceLe

/-- The loop that checks every row against all of them. -/
def assertCatalogRows (P : Platform) (expected : ExpectedNetwork)
    (evidence : List SchemaProjectionEvidence) : List SchemaProjectionEvidence → Except Thrown Unit
  | [] => .ok ()
  | item :: items => do
      let _ ← authoritativeResolvedSchema P item.schema evidence expected item.schema.schemaUid
      assertCatalogRows P expected evidence items

/-- The entry of a row. -/
def catalogEntryOf (evidence : SchemaProjectionEvidence) : Except Thrown SchemaCatalogEntry := do
  let definition ← parseSchema evidence.schema.definition
  pure
    { uid := evidence.schema.schemaUid
      definition
      publisher := evidence.schema.publisher
      ledgerIndex := evidence.schema.ledgerIndex
      ledgerHash := evidence.registration.ledgerHash
      transactionIndex := evidence.schema.transactionIndex
      transactionHash := evidence.schema.registrationTransactionHash }

/-- What the evidence of a network is compared with. -/
def expectedOf (network : NetworkProfileRow) : ExpectedNetwork where
  profileId := network.profileId
  networkId := network.networkId
  activationLedgerIndex := network.activationLedgerIndex

/-- The `try` of `authoritativeSchemaCatalogBundle`. -/
def schemaCatalogBundle (P : Platform) (network : NetworkProfileRow)
    (checkpoint : LedgerCheckpointRow) (target : SchemaRow)
    (evidence : List SchemaProjectionEvidence) : Except Thrown SchemaCatalogBundle := do
  ensure (decide (evidence.length ≤ maxSchemaCatalogEntries))
    (.error (js "Schema catalog exceeds the supported closure size"))
  assertCatalogRows P (expectedOf network) (sortEvidence evidence) (sortEvidence evidence)
  let _ ← authoritativeResolvedSchema P target (sortEvidence evidence) (expectedOf network)
    target.schemaUid
  let profile ← networkProfile P network
  let schemas ← (sortEvidence evidence).mapM catalogEntryOf
  pure
    { profile
      targetUid := target.schemaUid
      checkpointLedgerIndex := checkpoint.ledgerIndex
      checkpointLedgerHash := checkpoint.ledgerHash
      schemas }

/-- `authoritativeSchemaCatalogBundle` -/
def authoritativeSchemaCatalogBundle (P : Platform) (network : NetworkProfileRow)
    (checkpoint : LedgerCheckpointRow) (target : SchemaRow)
    (evidence : List SchemaProjectionEvidence) : Except Thrown SchemaCatalogBundle :=
  failClosed (schemaCatalogBundle P network checkpoint target evidence)

/-! ## What is returned -/

variable {P : Platform} {network : NetworkProfileRow} {checkpoint : LedgerCheckpointRow}
  {target : SchemaRow} {evidence : List SchemaProjectionEvidence} {bundle : SchemaCatalogBundle}

theorem failClosed_eq_ok {α : Type} {result : Except Thrown α} {a : α} :
    failClosed result = .ok a ↔ result = .ok a := by
  cases result <;> simp [failClosed]

theorem assertCatalogRows_eq_ok {expected : ExpectedNetwork}
    {items : List SchemaProjectionEvidence} {u : Unit} :
    assertCatalogRows P expected evidence items = .ok u ↔ ∀ item ∈ items, ∃ resolved,
      authoritativeResolvedSchema P item.schema evidence expected item.schema.schemaUid
        = .ok resolved := by
  induction items with
  | nil => simp [assertCatalogRows]
  | cons item items ih =>
      simp only [assertCatalogRows, bind_eq_ok, ih, List.forall_mem_cons, exists_and_right]

/-- An entry is written for a row. -/
def IsEntryOf (item : SchemaProjectionEvidence) (entry : SchemaCatalogEntry) : Prop :=
  catalogEntryOf item = .ok entry

/-- **The bundle that is returned**, and what was checked before. -/
theorem authoritativeSchemaCatalogBundle_eq_ok :
    authoritativeSchemaCatalogBundle P network checkpoint target evidence = .ok bundle ↔
      evidence.length ≤ maxSchemaCatalogEntries ∧
      (∀ item ∈ sortEvidence evidence, ∃ resolved, authoritativeResolvedSchema P item.schema
        (sortEvidence evidence) (expectedOf network) item.schema.schemaUid = .ok resolved) ∧
      (∃ resolved, authoritativeResolvedSchema P target (sortEvidence evidence)
        (expectedOf network) target.schemaUid = .ok resolved) ∧
      networkProfile P network = .ok bundle.profile ∧
      List.Forall₂ IsEntryOf (sortEvidence evidence) bundle.schemas ∧
      bundle.targetUid = target.schemaUid ∧
      bundle.checkpointLedgerIndex = checkpoint.ledgerIndex ∧
      bundle.checkpointLedgerHash = checkpoint.ledgerHash := by
  simp only [authoritativeSchemaCatalogBundle, failClosed_eq_ok, schemaCatalogBundle, bind_eq_ok,
    ensure_eq_ok, assertCatalogRows_eq_ok, mapM_eq_ok, exists_const, decide_eq_true_eq,
    pure_eq_ok']
  constructor
  · rintro ⟨hlength, hrows, resolved, htarget, profile, hprofile, schemas, hschemas, rfl⟩
    exact ⟨hlength, hrows, ⟨resolved, htarget⟩, hprofile, hschemas, rfl, rfl, rfl⟩
  · rintro ⟨hlength, hrows, ⟨resolved, htarget⟩, hprofile, hschemas, huid, hindex, hhash⟩
    refine ⟨hlength, hrows, resolved, htarget, _, hprofile, _, hschemas, ?_⟩
    rw [← huid, ← hindex, ← hhash]

/-! ## References -/

/-- The UIDs an entry refers to. -/
def SchemaCatalogEntry.relations (entry : SchemaCatalogEntry) : List JsString :=
  entry.definition.parent.toList ++ entry.definition.supersedes.toList

/-- The UID of the row of some evidence. -/
def rowUid (item : SchemaProjectionEvidence) : JsString :=
  item.schema.schemaUid

def rowParents (item : SchemaProjectionEvidence) : List JsString :=
  item.schema.parentUid.toList

def rowSuperseded (item : SchemaProjectionEvidence) : List JsString :=
  item.schema.supersedesUid.toList

/-- A bundle is what it should be: not too long, and the closure of its target. -/
structure SchemaCatalogBundle.IsCatalog (bundle : SchemaCatalogBundle) : Prop where
  count : bundle.schemas.length ≤ maxSchemaCatalogEntries
  closure : IsClosure SchemaCatalogEntry.uid SchemaCatalogEntry.relations bundle.targetUid
    bundle.schemas

theorem perm_sortEvidence (evidence : List SchemaProjectionEvidence) :
    (sortEvidence evidence).Perm evidence :=
  List.perm_insertionSort _ evidence

instance : Std.Total evidenceLe :=
  ⟨fun a b => by unfold evidenceLe compareEvidence; split_ifs <;> omega⟩

instance : IsTrans SchemaProjectionEvidence evidenceLe :=
  ⟨fun a b c hab hbc => by
    unfold evidenceLe compareEvidence at *
    split_ifs at * <;> omega⟩

/-- What is prior is not after. -/
theorem not_evidenceLe_of_isPrior {parent child : SchemaProjectionEvidence}
    (h : isPrior parent.schema child.schema = true) : ¬evidenceLe child parent := by
  rw [isPrior, Bool.or_eq_true, Bool.and_eq_true, decide_eq_true_eq, beq_iff_eq,
    decide_eq_true_eq] at h
  unfold evidenceLe compareEvidence
  split_ifs <;> omega

/-- In a chain that passes the checks, each row is prior to the next one. -/
theorem isPrior_of_assertChain {lineage : List JsString} {parent : Option SchemaRow}
    {mergedFields fields : SchemaFields} {ancestors : List StoredSchema} {a b : StoredSchema}
    (h : assertChain P lineage parent mergedFields (ancestors ++ [a, b]) = .ok fields) :
    isPrior a.row b.row = true := by
  induction ancestors generalizing lineage parent mergedFields with
  | nil =>
      simp only [List.nil_append, assertChain, bind_eq_ok, assertProjection_eq_ok,
        exists_const, Option.all_some] at h
      obtain ⟨-, -, _, -, _, -, -, -, -, hprior, -⟩ := h
      exact hprior
  | cons stored ancestors ih =>
      simp only [List.cons_append, assertChain, bind_eq_ok] at h
      obtain ⟨-, -, -, -, _, -, _, -, -, -, hrest⟩ := h
      exact ih hrest

/-- The evidence that is found for the UID of a row is the evidence of the row. -/
theorem findEvidence_of_mem (hnodup : (evidence.map rowUid).Nodup)
    {item : SchemaProjectionEvidence} (hitem : item ∈ evidence) :
    findEvidence evidence item.schema.schemaUid = some item := by
  cases hfind : findEvidence evidence item.schema.schemaUid with
  | none =>
      have hnone := List.find?_eq_none.mp hfind item hitem
      rw [beq_self_eq_true] at hnone
      exact absurd rfl hnone
  | some found =>
      have huid := List.find?_some hfind
      rw [beq_iff_eq] at huid
      rw [List.inj_on_of_nodup_map hnodup (List.mem_of_find?_eq_some hfind) hitem huid]

/-- The parent of a row that passes the checks is prior to it. -/
theorem exists_isPrior_parent {expected : ExpectedNetwork} {item : SchemaProjectionEvidence}
    (hitem : item ∈ evidence) {resolved : ResolvedSchema} {ancestors : List StoredSchema}
    {last : StoredSchema}
    (h : ResolvesEvidence P item.schema evidence expected resolved ancestors last)
    {uid : JsString} (huid : item.schema.parentUid = some uid) :
    ∃ parent ∈ evidence, rowUid parent = uid ∧ isPrior parent.schema item.schema = true := by
  obtain ⟨fields, hstored⟩ := h.stored
  have hlast : resolved.lineage.getLast? = some uid := by
    rw [← huid, hstored.parentUid]
    exact hstored.getLast?_lineage
  obtain ⟨grandparents, hlineage⟩ := List.getLast?_eq_some_iff.mp hlast
  -- The last ancestor is the evidence of the parent.
  have hvalidated := h.validated.flip
  rw [hlineage] at hvalidated
  obtain ⟨a, rest, hparent, hrest, hancestors⟩ :=
    List.forall₂_cons_right_iff.mp (List.forall₂_drop_append _ _ _ hvalidated)
  rw [List.forall₂_nil_right_iff.mp hrest] at hancestors
  obtain ⟨parent, hfind, hrow, -⟩ := validateEvidence_eq_ok.mp hparent
  have hparentUid := List.find?_some hfind
  rw [beq_iff_eq] at hparentUid
  refine ⟨parent, List.mem_of_find?_eq_some hfind, hparentUid, ?_⟩
  -- The row is the last of the chain.
  obtain ⟨found, hfound, hlastRow, -⟩ := validateEvidence_eq_ok.mp h.validated_last
  rw [findEvidence_of_mem h.nodup hitem] at hfound
  rw [← hrow, Option.some.inj hfound, ← hlastRow]
  have hchain := h.chain
  rw [← List.take_append_drop grandparents.length ancestors, hancestors, List.append_assoc]
    at hchain
  exact isPrior_of_assertChain hchain

/-- **What a row extends stands before it.** -/
theorem refersBack_parents
    (h : authoritativeSchemaCatalogBundle P network checkpoint target evidence = .ok bundle) :
    RefersBack rowUid rowParents (sortEvidence evidence) := by
  obtain ⟨-, hrows, -⟩ := authoritativeSchemaCatalogBundle_eq_ok.mp h
  refine RefersBack.of_pairwise (List.pairwise_insertionSort evidenceLe evidence) ?_
  intro item hitem uid huid
  obtain ⟨resolved, hresolved⟩ := hrows item hitem
  obtain ⟨-, ancestors, last, hevidence⟩ := authoritativeResolvedSchema_eq_ok.mp hresolved
  obtain ⟨parent, hparent, hparentUid, hprior⟩ :=
    exists_isPrior_parent hitem hevidence (Option.mem_toList.mp huid)
  have hnot := not_evidenceLe_of_isPrior hprior
  refine ⟨parent, hparent, hparentUid, ?_, hnot⟩
  rintro rfl
  rcases Std.Total.total (r := evidenceLe) parent parent with hle | hle
  · exact hnot hle
  · exact hnot hle

/-- The relations of an entry are those of its row. -/
theorem IsEntryOf.spec {item : SchemaProjectionEvidence} {entry : SchemaCatalogEntry}
    {expected : ExpectedNetwork} {resolved : ResolvedSchema} (hentry : IsEntryOf item entry)
    {schemaUid : JsString}
    (h : authoritativeResolvedSchema P item.schema evidence expected schemaUid = .ok resolved) :
    entry.uid = rowUid item ∧ entry.relations = rowParents item ++ rowSuperseded item := by
  obtain ⟨-, ancestors, last, hevidence⟩ := authoritativeResolvedSchema_eq_ok.mp h
  obtain ⟨fields, hstored⟩ := hevidence.stored
  simp only [IsEntryOf, catalogEntryOf, bind_eq_ok, hstored.defined, Except.ok.injEq,
    exists_eq_left', pure_eq_ok'] at hentry
  rw [hentry, rowParents, rowSuperseded, hstored.parentUid, hstored.supersedesUid]
  exact ⟨rfl, rfl⟩

/-- What a row refers to. -/
def rowRelations (item : SchemaProjectionEvidence) : List JsString :=
  rowParents item ++ rowSuperseded item

/-- The relation that the checks leave out: what a row supersedes stands before it, and the target
leads to every row. -/
structure IsClosedEvidence (target : SchemaRow) (evidence : List SchemaProjectionEvidence) :
    Prop where
  superseded : RefersBack rowUid rowSuperseded (sortEvidence evidence)
  related : ∀ item ∈ evidence,
    Relation.ReflTransGen (RefersTo rowUid rowRelations evidence) target.schemaUid (rowUid item)

/-- **What the checks are worth**: the rows are the closure of the target as soon as they are closed
under the relation that the checks leave out. -/
theorem isClosure_sortEvidence_iff
    (h : authoritativeSchemaCatalogBundle P network checkpoint target evidence = .ok bundle) :
    IsClosure rowUid rowRelations target.schemaUid (sortEvidence evidence) ↔
      IsClosedEvidence target evidence := by
  have hperm := perm_sortEvidence evidence
  have hrefers : RefersTo rowUid rowRelations (sortEvidence evidence) =
      RefersTo rowUid rowRelations evidence := refersTo_perm hperm
  constructor
  · intro hclosure
    refine ⟨(refersBack_append.mp hclosure.refersBack).2, fun item hitem => ?_⟩
    rw [← hrefers]
    exact hclosure.related item (hperm.mem_iff.mpr hitem)
  · rintro ⟨hsuperseded, hrelated⟩
    obtain ⟨-, -, ⟨resolved, hresolved⟩, -⟩ := authoritativeSchemaCatalogBundle_eq_ok.mp h
    obtain ⟨-, ancestors, last, hevidence⟩ := authoritativeResolvedSchema_eq_ok.mp hresolved
    obtain ⟨found, hfind, -, -⟩ := validateEvidence_eq_ok.mp hevidence.validated_last
    have huid := List.find?_some hfind
    rw [beq_iff_eq] at huid
    refine ⟨hevidence.nodup, ?_, refersBack_append.mpr ⟨refersBack_parents h, hsuperseded⟩,
      fun item hitem => ?_⟩
    · exact List.mem_map.mpr ⟨found, List.mem_of_find?_eq_some hfind, huid⟩
    · rw [hrefers]
      exact hrelated item (hperm.mem_iff.mp hitem)

/-- The bundle is a closure when its rows are. -/
theorem isClosure_schemas_iff
    (h : authoritativeSchemaCatalogBundle P network checkpoint target evidence = .ok bundle) :
    IsClosure SchemaCatalogEntry.uid SchemaCatalogEntry.relations bundle.targetUid
        bundle.schemas ↔
      IsClosure rowUid rowRelations target.schemaUid (sortEvidence evidence) := by
  obtain ⟨-, hrows, -, -, hschemas, htarget, -⟩ := authoritativeSchemaCatalogBundle_eq_ok.mp h
  rw [htarget]
  refine (isClosure_congr ?_).symm
  refine ((List.forall₂_and_left _ _).mpr ⟨hrows, hschemas⟩).imp fun item entry hboth => ?_
  obtain ⟨⟨resolved, hresolved⟩, hentry⟩ := hboth
  obtain ⟨huid, hrelations⟩ := hentry.spec hresolved
  exact ⟨huid.symm, hrelations.symm⟩

/-- **A bundle that is returned is a catalog exactly when its evidence is closed.** -/
theorem authoritativeSchemaCatalogBundle_isCatalog_iff
    (h : authoritativeSchemaCatalogBundle P network checkpoint target evidence = .ok bundle) :
    bundle.IsCatalog ↔ IsClosedEvidence target evidence := by
  rw [← isClosure_sortEvidence_iff h, ← isClosure_schemas_iff h]
  obtain ⟨hlength, -, -, -, hschemas, -⟩ := authoritativeSchemaCatalogBundle_eq_ok.mp h
  constructor
  · exact fun hcatalog => hcatalog.closure
  · intro hclosure
    refine ⟨?_, hclosure⟩
    rw [← hschemas.length_eq, (perm_sortEvidence evidence).length_eq]
    exact hlength

/-- The schemas of a catalog are the target and what it leads to. -/
theorem SchemaCatalogBundle.IsCatalog.mem_iff (h : bundle.IsCatalog) (uid : JsString) :
    uid ∈ bundle.schemas.map SchemaCatalogEntry.uid ↔
      Relation.ReflTransGen (RefersTo SchemaCatalogEntry.uid SchemaCatalogEntry.relations
        bundle.schemas) bundle.targetUid uid :=
  h.closure.mem_iff uid

/-! ## Two bundles -/

/-- The network of the sample rows. -/
def catalogNetworkRow : NetworkProfileRow where
  profileId := js "testnet"
  xcsVersion := js "0.1"
  networkId := 1
  requiredAmendment := List.replicate 64 0x61
  registryAddress := js "rrrrrrrrrrrrrrrrrrrrrhoLvTp"
  registrationAmountDrops := 1
  activationLedgerIndex := 100
  activationLedgerHash := List.replicate 64 0x61

def catalogCheckpointRow : LedgerCheckpointRow where
  ledgerIndex := 101
  ledgerHash := List.replicate 64 0x61
  parentHash := List.replicate 64 0x61
  closeTime := 0
  transactionCount := 0
  transactionRoot := List.replicate 64 0x61

theorem authoritativeSchemaCatalogBundle_isCatalog_iff_child :
    ∃ bundle, authoritativeSchemaCatalogBundle .summing catalogNetworkRow catalogCheckpointRow
        sampleChild.schema [sampleChild, sampleParent] = .ok bundle ∧
      (bundle.IsCatalog ↔ IsClosedEvidence sampleChild.schema [sampleChild, sampleParent]) := by
  have hnone : thrown (authoritativeSchemaCatalogBundle .summing catalogNetworkRow
      catalogCheckpointRow sampleChild.schema [sampleChild, sampleParent]) = none := by
    decide +kernel
  obtain ⟨bundle, h⟩ := exists_eq_ok_of_thrown_eq_none hnone
  exact ⟨bundle, h, authoritativeSchemaCatalogBundle_isCatalog_iff h⟩

/-- The evidence of a schema that supersedes one that is not there. -/
def sampleSuccessor : SchemaProjectionEvidence :=
  sampleEvidence 101
    ⟨{ sampleDefinition (js "a") none with supersedes := some (List.replicate 64 0x62) },
      [(js "a", .scalar .string false)], []⟩

/-- **A bundle with a hole**: what its only entry supersedes is missing. -/
theorem authoritativeSchemaCatalogBundle_successor :
    ∃ bundle, authoritativeSchemaCatalogBundle .summing catalogNetworkRow catalogCheckpointRow
        sampleSuccessor.schema [sampleSuccessor] = .ok bundle ∧ ¬bundle.IsCatalog := by
  have hnone : thrown (authoritativeSchemaCatalogBundle .summing catalogNetworkRow
      catalogCheckpointRow sampleSuccessor.schema [sampleSuccessor]) = none := by
    decide +kernel
  obtain ⟨bundle, h⟩ := exists_eq_ok_of_thrown_eq_none hnone
  refine ⟨bundle, h, fun hcatalog => ?_⟩
  have hclosed := (isClosure_sortEvidence_iff h).mp ((isClosure_schemas_iff h).mp hcatalog.closure)
  have hmissing := hclosed.superseded [] sampleSuccessor [] rfl (List.replicate 64 0x62)
    List.mem_cons_self
  exact absurd hmissing List.not_mem_nil

end Web
end Xcs
