import Xcs.Core.SchemaResolution

/-!
# The chain behind a resolved schema

`Ancestry` lists the schemas on the `extends` chain of a definition, the root first; it knows
nothing of fields and of `supersedes`.  `resolution_iff` says what a resolution adds to it: at every
level the schema replaces an earlier schema of its publisher or none, the names of all fields on the
chain are distinct, and there are at most 256 descriptors.

`resolveSchema_exact` is the result for the program, with what follows about the lineage and about
other catalogs.
-/

namespace Xcs
namespace Core

open Js Json

/-- A schema on the chain: the UID it was requested under, its definition and its coordinates. -/
structure Ancestor where
  uid : JsString
  definition : SchemaDefinition
  coordinates : SchemaCoordinates

/-- The `extends` chain of a schema registered at some coordinates, the root first. -/
inductive Ancestry (catalog : SchemaLookup) :
    SchemaDefinition → SchemaCoordinates → List Ancestor → Prop
  | root {schema : SchemaDefinition} {context : SchemaCoordinates}
      (parent : schema.parent = none) : Ancestry catalog schema context []
  | child {schema definition : SchemaDefinition} {context : SchemaCoordinates} {uid : JsString}
      {registered : RegisteredSchema} {chain : List Ancestor}
      (parent : schema.parent = some uid) (refers : Refers catalog uid context registered)
      (parsed : parseSchema registered.definition = .ok definition)
      (ancestors : Ancestry catalog definition registered.toSchemaCoordinates chain) :
      Ancestry catalog schema context
        (chain ++ [⟨uid, definition, registered.toSchemaCoordinates⟩])

/-- The own fields of the schemas on a chain and of the schema below it. -/
def chainFields (chain : List Ancestor) (schema : SchemaDefinition) : SchemaFields :=
  chain.flatMap (fun a => a.definition.fields) ++ schema.fields

/-- At every level the schema replaces nothing, or an earlier schema of its publisher. -/
def ReplacesAll (catalog : SchemaLookup) (chain : List Ancestor) (schema : SchemaDefinition)
    (context : SchemaCoordinates) : Prop :=
  (∀ a ∈ chain, Replaces catalog a.definition a.coordinates) ∧ Replaces catalog schema context

/-- What a resolution asks of a chain, its length apart. -/
structure Sound (catalog : SchemaLookup) (chain : List Ancestor) (schema : SchemaDefinition)
    (context : SchemaCoordinates) : Prop where
  replaces : ReplacesAll catalog chain schema context
  names : ((chainFields chain schema).map (·.1)).Nodup
  count : countSchemaFields (chainFields chain schema) ≤ maxSchemaFields

/-- The resolved schema at the end of a chain. -/
def chainResolved (chain : List Ancestor) (schema : SchemaDefinition) : ResolvedSchema :=
  ⟨schema, chainFields chain schema, chain.map Ancestor.uid⟩

theorem chainFields_concat (chain : List Ancestor) (a : Ancestor) (schema : SchemaDefinition) :
    chainFields (chain ++ [a]) schema = chainFields chain a.definition ++ schema.fields := by
  rw [chainFields, chainFields, List.flatMap_append, List.flatMap_cons, List.flatMap_nil,
    List.append_nil]

theorem replacesAll_concat {catalog : SchemaLookup} {chain : List Ancestor} {a : Ancestor}
    {schema : SchemaDefinition} {context : SchemaCoordinates} :
    ReplacesAll catalog (chain ++ [a]) schema context ↔
      ReplacesAll catalog chain a.definition a.coordinates ∧ Replaces catalog schema context := by
  rw [ReplacesAll, ReplacesAll, List.forall_mem_append, List.forall_mem_singleton]

theorem countSchemaFields_append (fields own : SchemaFields) :
    countSchemaFields (fields ++ own) = countSchemaFields fields + countSchemaFields own := by
  rw [countSchemaFields_eq_sum, countSchemaFields_eq_sum, countSchemaFields_eq_sum,
    List.map_append, List.sum_append]

theorem extends_of_nodup {fields own : SchemaFields} (h : ((fields ++ own).map (·.1)).Nodup) :
    (fields.map (·.1)).Nodup ∧ Extends fields own := by
  rw [List.map_append, List.nodup_append] at h
  exact ⟨h.1, h.2.1, fun name hown hname => h.2.2 name hname name hown rfl⟩

/-- **A resolution is a sound chain.** -/
theorem resolution_iff {catalog : SchemaLookup} {schema : SchemaDefinition}
    {context : SchemaCoordinates} {resolved : ResolvedSchema} :
    Resolution catalog schema context resolved ↔
      ∃ chain, Ancestry catalog schema context chain ∧ Sound catalog chain schema context ∧
        resolved = chainResolved chain schema := by
  constructor
  · intro h
    induction h with
    | root parent names count replaces =>
        refine ⟨[], .root parent, ⟨⟨by simp, replaces⟩, names.1, count⟩, rfl⟩
    | child parent refers parsed ancestor names count replaces ih =>
        obtain ⟨chain, hancestry, hsound, rfl⟩ := ih
        refine ⟨_, .child parent refers parsed hancestry, ⟨?_, ?_, ?_⟩, ?_⟩
        · exact replacesAll_concat.mpr ⟨hsound.replaces, replaces⟩
        · rw [chainFields_concat]
          exact names.nodup hsound.names
        · rw [chainFields_concat]
          exact count
        · rw [chainResolved, chainResolved, chainFields_concat, List.map_append]
          rfl
  · rintro ⟨chain, hancestry, hsound, rfl⟩
    induction hancestry with
    | root parent =>
        refine .root parent ⟨hsound.names, ?_⟩ hsound.count hsound.replaces.2
        exact fun _ _ => List.not_mem_nil
    | @child schema definition context uid registered chain parent refers parsed hancestry ih =>
        obtain ⟨hreplaces, hnames, hcount⟩ := hsound
        obtain ⟨hreplaces, hown⟩ := replacesAll_concat.mp hreplaces
        rw [chainFields_concat] at hnames hcount
        obtain ⟨hinherited, hextends⟩ := extends_of_nodup hnames
        have hless : countSchemaFields (chainFields chain definition) ≤ maxSchemaFields := by
          refine le_trans ?_ hcount
          rw [countSchemaFields_append]
          exact Nat.le_add_right _ _
        have hresolved := Resolution.child parent refers parsed
          (ih ⟨hreplaces, hinherited, hless⟩) hextends hcount hown
        rw [chainResolved, chainFields_concat, List.map_append]
        exact hresolved

namespace Ancestry

variable {catalog : SchemaLookup} {schema : SchemaDefinition} {context : SchemaCoordinates}
  {chain : List Ancestor}

/-- The schemas on a chain are registered one after the other, the schema below it last. -/
theorem pairwise (h : Ancestry catalog schema context chain) :
    (chain.map Ancestor.coordinates ++ [context]).Pairwise
      fun a b => isEarlier a b = true := by
  induction h with
  | root => exact List.pairwise_singleton _ _
  | @child schema definition context uid registered chain parent refers parsed hancestry ih =>
      rw [List.map_append, List.map_singleton, List.pairwise_append]
      refine ⟨ih, List.pairwise_singleton _ _, ?_⟩
      intro a ha b hb
      rw [List.mem_singleton] at hb
      subst hb
      rw [List.mem_append, List.mem_singleton] at ha
      rcases ha with ha | rfl
      · refine isEarlier_trans ?_ refers.2.2.2
        rw [List.pairwise_append] at ih
        exact ih.2.2 a ha _ (List.mem_singleton_self _)
      · exact refers.2.2.2

/-- What is on a chain is in the catalog, under the UID it was requested under and on the network of
the schema below it. -/
theorem mem (h : Ancestry catalog schema context chain) {a : Ancestor} (ha : a ∈ chain) :
    ∃ registered, catalog a.uid = some registered ∧ registered.uid = a.uid ∧
      registered.toSchemaCoordinates = a.coordinates ∧
      parseSchema registered.definition = .ok a.definition ∧
      a.coordinates.networkId = context.networkId := by
  induction h with
  | root => cases ha
  | child parent refers parsed hancestry ih =>
      rw [List.mem_append, List.mem_singleton] at ha
      rcases ha with ha | rfl
      · obtain ⟨registered, hget, huid, hcoordinates, hparsed, hnetwork⟩ := ih ha
        exact ⟨registered, hget, huid, hcoordinates, hparsed, hnetwork.trans refers.2.2.1⟩
      · exact ⟨_, refers.1, refers.2.1, rfl, parsed, refers.2.2.1⟩

/-- The chains of one schema in two catalogs whose definitions have the same fields and the same
parents have the same UIDs and the same fields. -/
theorem sameFields {catalog' : SchemaLookup} {schema' : SchemaDefinition}
    {context' : SchemaCoordinates} {chain' : List Ancestor}
    (hcatalogs : ∀ uid registered registered' d d', catalog uid = some registered →
      catalog' uid = some registered' → parseSchema registered.definition = .ok d →
      parseSchema registered'.definition = .ok d' → d.fields = d'.fields ∧ d.parent = d'.parent)
    (h : Ancestry catalog schema context chain) (h' : Ancestry catalog' schema' context' chain')
    (hfields : schema.fields = schema'.fields) (hparent : schema.parent = schema'.parent) :
    chainFields chain schema = chainFields chain' schema' ∧
      chain.map Ancestor.uid = chain'.map Ancestor.uid := by
  induction h generalizing schema' context' chain' with
  | root parent =>
      cases h' with
      | root => exact ⟨hfields, rfl⟩
      | child parent' =>
          rw [← hparent, parent] at parent'
          cases parent'
  | child parent refers parsed hancestry ih =>
      cases h' with
      | root parent' =>
          rw [← hparent, parent] at parent'
          cases parent'
      | child parent' refers' parsed' hancestry' =>
          rw [← hparent, parent, Option.some.injEq] at parent'
          subst parent'
          obtain ⟨hfields', hparent'⟩ :=
            hcatalogs _ _ _ _ _ refers.1 refers'.1 parsed parsed'
          obtain ⟨hall, huids⟩ := ih hancestry' hfields' hparent'
          constructor
          · rw [chainFields_concat, chainFields_concat, hall, hfields]
          · rw [List.map_append, List.map_append, huids]
            rfl

end Ancestry

/-! ## More schemas in the catalog -/

/-- The second catalog has what the first has. -/
def Includes (catalog catalog' : SchemaLookup) : Prop :=
  ∀ uid registered, catalog uid = some registered → catalog' uid = some registered

theorem Includes.sameCatalog {catalog catalog' : SchemaLookup} (h : Includes catalog catalog') :
    SameCatalog catalog catalog' :=
  fun uid registered hget => ⟨registered, h uid registered hget, rfl, rfl, rfl⟩

section Includes

variable {catalog catalog' : SchemaLookup} (h : Includes catalog catalog')

include h

theorem Refers.mono {uid : JsString} {context : SchemaCoordinates} {registered : RegisteredSchema}
    (hrefers : Refers catalog uid context registered) :
    Refers catalog' uid context registered :=
  ⟨h uid registered hrefers.1, hrefers.2⟩

theorem Resolution.mono {schema : SchemaDefinition} {context : SchemaCoordinates}
    {resolved : ResolvedSchema} (hresolution : Resolution catalog schema context resolved) :
    Resolution catalog' schema context resolved := by
  have hreplaces : ∀ {d : SchemaDefinition} {c : SchemaCoordinates},
      Replaces catalog d c → Replaces catalog' d c :=
    fun hr => hr.congr h.sameCatalog rfl
  induction hresolution with
  | root parent names count replaces => exact .root parent names count (hreplaces replaces)
  | child parent refers parsed ancestor names count replaces ih =>
      exact .child parent (refers.mono h) parsed ih names count (hreplaces replaces)

end Includes

/-! ## The program -/

/-- The context of a resolution is valid. -/
structure ValidContext (P : Platform) (context : SchemaCoordinates) : Prop where
  networkId : isUint32 context.networkId = true
  ledgerIndex : isUint32 context.ledgerIndex = true
  transactionIndex : isUint32 context.transactionIndex = true
  publisher : P.isValidClassicAddress context.publisher = true

/-- **Resolution is exact.**  A schema resolves exactly when it parses and has a sound chain of at
most fifteen ancestors; it then resolves to the fields of the chain and the UIDs on it, the root
first.  The coordinates on a chain increase, and its names are distinct.  The fields and the lineage
do not depend on anything but the own fields and the parents of the schemas, and not on further
schemas in the catalog. -/
theorem resolveSchema_exact (P : Platform) :
    (∀ input (context : SchemaResolutionContext) resolved,
      resolveSchema P input context = .ok resolved ↔
        ValidContext P context.toSchemaCoordinates ∧ ∃ schema chain,
          parseSchema input = .ok schema ∧
          Ancestry context.getSchema schema context.toSchemaCoordinates chain ∧
          chain.length ≤ 15 ∧
          Sound context.getSchema chain schema context.toSchemaCoordinates ∧
          resolved = chainResolved chain schema) ∧
    (∀ catalog schema context chain, Ancestry catalog schema context chain →
      (chain.map Ancestor.coordinates ++ [context]).Pairwise (fun a b => isEarlier a b = true) ∧
      ∀ a ∈ chain, ∃ registered, catalog a.uid = some registered ∧ registered.uid = a.uid ∧
        registered.toSchemaCoordinates = a.coordinates ∧
        parseSchema registered.definition = .ok a.definition ∧
        a.coordinates.networkId = context.networkId) ∧
    (∀ input input' (context context' : SchemaResolutionContext) resolved resolved',
      resolveSchema P input context = .ok resolved →
      resolveSchema P input' context' = .ok resolved' →
      (∀ d d', parseSchema input = .ok d → parseSchema input' = .ok d' →
        d.fields = d'.fields ∧ d.parent = d'.parent) →
      (∀ uid registered registered' d d', context.getSchema uid = some registered →
        context'.getSchema uid = some registered' → parseSchema registered.definition = .ok d →
        parseSchema registered'.definition = .ok d' → d.fields = d'.fields ∧ d.parent = d'.parent) →
      resolved.fields = resolved'.fields ∧ resolved.lineage = resolved'.lineage) ∧
    ∀ input (context : SchemaResolutionContext) catalog' resolved,
      Includes context.getSchema catalog' → resolveSchema P input context = .ok resolved →
      resolveSchema P input { context with getSchema := catalog' } = .ok resolved := by
  refine ⟨?_, fun catalog schema context chain h => ⟨h.pairwise, fun a ha => h.mem ha⟩, ?_, ?_⟩
  · intro input context resolved
    rw [resolveSchema_eq_ok]
    constructor
    · rintro ⟨hnetwork, hledger, htransaction, hpublisher, schema, hparse, hresolution, hlength⟩
      obtain ⟨chain, hancestry, hsound, rfl⟩ := resolution_iff.mp hresolution
      rw [chainResolved, List.length_map] at hlength
      exact ⟨⟨hnetwork, hledger, htransaction, hpublisher⟩, schema, chain, hparse, hancestry,
        hlength, hsound, rfl⟩
    · rintro ⟨⟨hnetwork, hledger, htransaction, hpublisher⟩, schema, chain, hparse, hancestry,
        hlength, hsound, rfl⟩
      refine ⟨hnetwork, hledger, htransaction, hpublisher, schema, hparse,
        resolution_iff.mpr ⟨chain, hancestry, hsound, rfl⟩, ?_⟩
      rw [chainResolved, List.length_map]
      exact hlength
  · intro input input' context context' resolved resolved' h h' hinputs hcatalogs
    obtain ⟨-, -, -, -, schema, hparse, hresolution, -⟩ := resolveSchema_eq_ok.mp h
    obtain ⟨-, -, -, -, schema', hparse', hresolution', -⟩ := resolveSchema_eq_ok.mp h'
    obtain ⟨chain, hancestry, -, rfl⟩ := resolution_iff.mp hresolution
    obtain ⟨chain', hancestry', -, rfl⟩ := resolution_iff.mp hresolution'
    obtain ⟨hfields, hparent⟩ := hinputs schema schema' hparse hparse'
    exact hancestry.sameFields hcatalogs hancestry' hfields hparent
  · intro input context catalog' resolved hincludes h
    obtain ⟨hnetwork, hledger, htransaction, hpublisher, schema, hparse, hresolution, hlength⟩ :=
      resolveSchema_eq_ok.mp h
    exact resolveSchema_eq_ok.mpr ⟨hnetwork, hledger, htransaction, hpublisher, schema, hparse,
      hresolution.mono hincludes, hlength⟩

end Core
end Xcs
