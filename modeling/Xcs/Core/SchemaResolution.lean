import Xcs.Core.SchemaForm

/-!
# Schema inheritance

A schema may extend a schema that was registered earlier on the same network, whose fields it
inherits and must not redefine, and it may replace an earlier schema of its own publisher.
`resolveSchema` follows the `extends` relation to a schema without a parent and collects the fields
on the way back; it refuses a chain of more than fifteen ancestors.

`Resolution` is the same as a derivation: one rule for a schema without a parent, one for a schema
with one.  `resolve_eq_ok` says that the recursion returns exactly what can be derived with few
enough ancestors.
-/

namespace Xcs
namespace Core

open Js Json

/-- The coordinates of a registration: its network, its publisher and its place in the ledger. -/
structure SchemaCoordinates where
  networkId : ℤ
  publisher : JsString
  ledgerIndex : ℤ
  transactionIndex : ℤ
  deriving DecidableEq

/-- `RegisteredSchema`; the definition is the value a catalog holds, and it is parsed whenever it
is used. -/
structure RegisteredSchema extends SchemaCoordinates where
  uid : JsString
  definition : JsValue

/-- The catalog behind `getSchema`. -/
abbrev SchemaLookup := JsString → Option RegisteredSchema

/-- `SchemaResolutionContext` -/
structure SchemaResolutionContext extends SchemaCoordinates where
  getSchema : SchemaLookup

/-- `ResolvedSchema` -/
structure ResolvedSchema where
  definition : SchemaDefinition
  fields : SchemaFields
  lineage : List JsString

/-- `isUint32` -/
def isUint32 (value : ℤ) : Bool :=
  decide (0 ≤ value ∧ value ≤ 0xffffffff)

/-- `isEarlier` -/
def isEarlier (schema context : SchemaCoordinates) : Bool :=
  decide (schema.ledgerIndex < context.ledgerIndex)
    || (schema.ledgerIndex == context.ledgerIndex
      && decide (schema.transactionIndex < context.transactionIndex))

/-- `fail` with the code `INVALID_SCHEMA_REFERENCE`. -/
def invalidReference {α : Type} (message path : JsString) : Except Thrown α :=
  failXcs .invalidSchemaReference message path []

/-- The relation a reference stands in. -/
inductive SchemaRelation where
  | extends
  | supersedes

/-- The text of a relation. -/
def SchemaRelation.text : SchemaRelation → JsString
  | .extends => js "extends"
  | .supersedes => js "supersedes"

/-- `requireReference` -/
def requireReference (uid : JsString) (relation : SchemaRelation)
    (context : SchemaResolutionContext) : Except Thrown RegisteredSchema :=
  match (context.getSchema uid).filter (·.uid = uid) with
  | none =>
      failXcs .invalidSchemaReference (relation.text ++ js " schema was not found")
        (js "$." ++ relation.text) [(js "uid", uid)]
  | some referenced =>
      if referenced.networkId ≠ context.networkId then
        invalidReference (relation.text ++ js " schema belongs to another network")
          (js "$." ++ relation.text)
      else if !isEarlier referenced.toSchemaCoordinates context.toSchemaCoordinates then
        invalidReference (relation.text ++ js " schema must be registered earlier")
          (js "$." ++ relation.text)
      else .ok referenced

/-- A loop that adds own fields to inherited ones; `refuse` is thrown for a name that is taken. -/
def addFields (refuse : JsString → Thrown) : SchemaFields → SchemaFields →
    Except Thrown SchemaFields
  | fields, [] => .ok fields
  | fields, (name, descriptor) :: own =>
      if name ∈ fields.map (·.1) then .error (refuse name)
      else addFields refuse (fields ++ [(name, descriptor)]) own

/-- The loop over the own fields of a schema. -/
def mergeFields : SchemaFields → SchemaFields → Except Thrown SchemaFields :=
  addFields fun name => .xcs
    { code := .invalidSchemaReference
      message := js "Inherited field " ++ name ++ js " cannot be redefined"
      path := js "$.fields." ++ name
      details := [] }

/-- A resolver of the ancestors of a schema, with the UIDs on the way to it. -/
abbrev SchemaResolver :=
  SchemaDefinition → SchemaResolutionContext → List JsString → Except Thrown ResolvedSchema

/-- The fields and the lineage a schema inherits; `resolveParent` is absent where the chain has
reached `MAX_SCHEMA_DEPTH - 1` ancestors. -/
def inherited (resolveParent : Option SchemaResolver) (schema : SchemaDefinition)
    (context : SchemaResolutionContext) (visiting : List JsString) :
    Except Thrown (SchemaFields × List JsString) :=
  match schema.parent with
  | none => .ok ([], [])
  | some uid =>
      match resolveParent, decide (uid ∈ visiting) with
      | some resolveParent, false => do
          let parent ← requireReference uid .extends context
          let definition ← parseSchema parent.definition
          let resolved ← resolveParent definition
            { toSchemaCoordinates := parent.toSchemaCoordinates, getSchema := context.getSchema }
            (uid :: visiting)
          pure (resolved.fields, resolved.lineage ++ [uid])
      | _, _ => invalidReference (js "Schema inheritance is cyclic or too deep") (js "$.extends")

/-- The check of the schema a schema replaces. -/
def requirePredecessor (schema : SchemaDefinition) (context : SchemaResolutionContext) :
    Except Thrown Unit :=
  match schema.supersedes with
  | none => .ok ()
  | some uid => do
      let previous ← requireReference uid .supersedes context
      if previous.publisher ≠ context.publisher then
        invalidReference (js "Only the original publisher may supersede a schema")
          (js "$.supersedes")
      else .ok ()

/-- What `resolve` does after the ancestors are resolved. -/
def resolveOwn (schema : SchemaDefinition) (context : SchemaResolutionContext)
    (ancestors : SchemaFields × List JsString) : Except Thrown ResolvedSchema := do
  let fields ← mergeFields ancestors.1 schema.fields
  rejectSchema (decide (countSchemaFields fields > maxSchemaFields))
    (js "Resolved schema exceeds 256 fields") (js "$.fields")
  requirePredecessor schema context
  pure { definition := schema, fields, lineage := ancestors.2 }

/-- `resolve`; the first argument is `MAX_SCHEMA_DEPTH - 1 - visiting.size`. -/
def resolve : ℕ → SchemaResolver
  | 0, schema, context, visiting => do
      let ancestors ← inherited none schema context visiting
      resolveOwn schema context ancestors
  | levels + 1, schema, context, visiting => do
      let ancestors ← inherited (some (resolve levels)) schema context visiting
      resolveOwn schema context ancestors

/-- `resolveSchema` -/
def resolveSchema (P : Platform) (input : JsValue) (context : SchemaResolutionContext) :
    Except Thrown ResolvedSchema :=
  if !isUint32 context.networkId || !isUint32 context.ledgerIndex
      || !isUint32 context.transactionIndex || !P.isValidClassicAddress context.publisher then
    invalidReference (js "Invalid schema resolution context") (js "$context")
  else do
    let schema ← parseSchema input
    resolve (maxSchemaDepth - 1) schema context []

/-- The object a resolved schema is. -/
def ResolvedSchema.toJs (resolved : ResolvedSchema) : JsValue :=
  .obj [(js "definition", resolved.definition.toJs), (js "fields", fieldsJs resolved.fields),
    (js "lineage", .arr (resolved.lineage.map .str))]

/-! ## Resolution as a derivation -/

/-- `referenced` may be referred to under `uid` from a registration at `context`. -/
def Refers (catalog : SchemaLookup) (uid : JsString) (context : SchemaCoordinates)
    (referenced : RegisteredSchema) : Prop :=
  catalog uid = some referenced ∧ referenced.uid = uid ∧
    referenced.networkId = context.networkId ∧
    isEarlier referenced.toSchemaCoordinates context = true

/-- A schema at `context` replaces nothing, or an earlier schema of its publisher. -/
def Replaces (catalog : SchemaLookup) (schema : SchemaDefinition) (context : SchemaCoordinates) :
    Prop :=
  ∀ uid ∈ schema.supersedes, ∃ previous, Refers catalog uid context previous ∧
    previous.publisher = context.publisher

/-- No name occurs twice in the own fields of a schema and the fields it inherits. -/
def Extends (inherited own : SchemaFields) : Prop :=
  (own.map (·.1)).Nodup ∧ ∀ name ∈ own.map (·.1), name ∉ inherited.map (·.1)

/-- A schema registered at the given coordinates resolves to the given fields and lineage. -/
inductive Resolution (catalog : SchemaLookup) :
    SchemaDefinition → SchemaCoordinates → ResolvedSchema → Prop
  | root {schema : SchemaDefinition} {context : SchemaCoordinates} (parent : schema.parent = none)
      (names : Extends [] schema.fields) (count : countSchemaFields schema.fields ≤ maxSchemaFields)
      (replaces : Replaces catalog schema context) :
      Resolution catalog schema context ⟨schema, schema.fields, []⟩
  | child {schema definition : SchemaDefinition} {context : SchemaCoordinates}
      {uid : JsString} {registered : RegisteredSchema} {resolved : ResolvedSchema}
      (parent : schema.parent = some uid) (refers : Refers catalog uid context registered)
      (parsed : parseSchema registered.definition = .ok definition)
      (ancestor : Resolution catalog definition registered.toSchemaCoordinates resolved)
      (names : Extends resolved.fields schema.fields)
      (count : countSchemaFields (resolved.fields ++ schema.fields) ≤ maxSchemaFields)
      (replaces : Replaces catalog schema context) :
      Resolution catalog schema context
        ⟨schema, resolved.fields ++ schema.fields, resolved.lineage ++ [uid]⟩

theorem requireReference_eq_ok {uid : JsString} {relation : SchemaRelation}
    {context : SchemaResolutionContext} {referenced : RegisteredSchema} :
    requireReference uid relation context = .ok referenced ↔
      Refers context.getSchema uid context.toSchemaCoordinates referenced := by
  rw [requireReference, Refers]
  cases hfound : (context.getSchema uid).filter (·.uid = uid) with
  | none =>
      simp only [Option.filter_eq_none_iff, decide_eq_true_eq] at hfound
      simp only [failXcs, reduceCtorEq, false_iff, not_and]
      exact fun hget huid => absurd huid (hfound referenced hget)
  | some found =>
      obtain ⟨hget, huid⟩ := Option.filter_eq_some_iff.mp hfound
      rw [decide_eq_true_eq] at huid
      dsimp only
      split_ifs with hnetwork hearlier
      · simp only [invalidReference, failXcs, reduceCtorEq, false_iff, not_and, hget,
          Option.some.injEq]
        rintro rfl - hsame
        exact absurd hsame hnetwork
      · simp only [invalidReference, failXcs, reduceCtorEq, false_iff, not_and, hget,
          Option.some.injEq]
        rintro rfl - - hlt
        rw [hlt] at hearlier
        cases hearlier
      · rw [Except.ok.injEq, hget, Option.some.injEq]
        constructor
        · rintro rfl
          exact ⟨rfl, huid, not_not.mp hnetwork, by simpa using hearlier⟩
        · exact fun h => h.1

theorem addFields_eq_ok {refuse : JsString → Thrown} {fields own result : SchemaFields} :
    addFields refuse fields own = .ok result ↔ Extends fields own ∧ result = fields ++ own := by
  induction own generalizing fields with
  | nil => simp [addFields, Extends, eq_comm]
  | cons m own ih =>
      obtain ⟨name, descriptor⟩ := m
      rw [addFields]
      split_ifs with hname
      · simp only [false_iff, not_and]
        exact fun h => absurd hname (h.2 name (List.mem_cons_self ..))
      · rw [ih, List.append_assoc]
        refine and_congr ?_ Iff.rfl
        simp only [Extends, List.map_append, List.map_cons, List.map_nil, List.mem_append,
          List.mem_singleton, List.nodup_cons, List.forall_mem_cons, not_or]
        constructor
        · rintro ⟨hnodup, hnew⟩
          exact ⟨⟨fun h => (hnew name h).2 rfl, hnodup⟩, hname, fun k hk => (hnew k hk).1⟩
        · rintro ⟨⟨hnot, hnodup⟩, -, hnew⟩
          refine ⟨hnodup, fun k hk => ⟨hnew k hk, ?_⟩⟩
          rintro rfl
          exact hnot hk

theorem mergeFields_eq_ok {fields own result : SchemaFields} :
    mergeFields fields own = .ok result ↔ Extends fields own ∧ result = fields ++ own :=
  addFields_eq_ok

theorem requirePredecessor_eq_ok {schema : SchemaDefinition} {context : SchemaResolutionContext}
    {u : Unit} : requirePredecessor schema context = .ok u ↔
      Replaces context.getSchema schema context.toSchemaCoordinates := by
  rw [requirePredecessor, Replaces]
  cases schema.supersedes with
  | none => simp
  | some uid =>
      simp only [bind_eq_ok, requireReference_eq_ok, Option.mem_def, Option.some.injEq,
        forall_eq']
      refine exists_congr fun previous => and_congr_right fun _ => ?_
      split_ifs with hpublisher
      · simp [invalidReference, failXcs, hpublisher]
      · simpa using hpublisher

theorem resolveOwn_eq_ok {schema : SchemaDefinition} {context : SchemaResolutionContext}
    {ancestors : SchemaFields × List JsString} {resolved : ResolvedSchema} :
    resolveOwn schema context ancestors = .ok resolved ↔
      Extends ancestors.1 schema.fields ∧
        countSchemaFields (ancestors.1 ++ schema.fields) ≤ maxSchemaFields ∧
        Replaces context.getSchema schema context.toSchemaCoordinates ∧
        resolved = ⟨schema, ancestors.1 ++ schema.fields, ancestors.2⟩ := by
  simp only [resolveOwn, bind_eq_ok, mergeFields_eq_ok, rejectSchema_eq_ok, exists_const,
    decide_eq_false_iff_not, not_lt, requirePredecessor_eq_ok, pure_eq_ok]
  constructor
  · rintro ⟨_, ⟨hnames, rfl⟩, hcount, hreplaces, rfl⟩
    exact ⟨hnames, hcount, hreplaces, rfl⟩
  · rintro ⟨hnames, hcount, hreplaces, rfl⟩
    exact ⟨_, ⟨hnames, rfl⟩, hcount, hreplaces, rfl⟩

theorem inherited_none_eq_ok {schema : SchemaDefinition} {context : SchemaResolutionContext}
    {visiting : List JsString} {ancestors : SchemaFields × List JsString} :
    inherited none schema context visiting = .ok ancestors ↔
      schema.parent = none ∧ ancestors = ([], []) := by
  rw [inherited]
  cases schema.parent <;> simp [invalidReference, failXcs, eq_comm]

theorem inherited_some_eq_ok {resolveParent : SchemaResolver} {schema : SchemaDefinition}
    {context : SchemaResolutionContext} {visiting : List JsString}
    {ancestors : SchemaFields × List JsString} :
    inherited (some resolveParent) schema context visiting = .ok ancestors ↔
      (schema.parent = none ∧ ancestors = ([], [])) ∨
        ∃ uid registered definition resolved, schema.parent = some uid ∧ uid ∉ visiting ∧
          Refers context.getSchema uid context.toSchemaCoordinates registered ∧
          parseSchema registered.definition = .ok definition ∧
          resolveParent definition ⟨registered.toSchemaCoordinates, context.getSchema⟩
            (uid :: visiting) = .ok resolved ∧
          ancestors = (resolved.fields, resolved.lineage ++ [uid]) := by
  rw [inherited]
  cases hparent : schema.parent with
  | none => simp [eq_comm]
  | some uid =>
      by_cases hvisiting : uid ∈ visiting
      · simp [hvisiting, invalidReference, failXcs]
      · simp only [hvisiting, decide_false, bind_eq_ok, requireReference_eq_ok, pure_eq_ok,
          reduceCtorEq, false_and, false_or, Option.some.injEq]
        constructor
        · rintro ⟨registered, hrefers, definition, hparse, resolved, hresolved, rfl⟩
          exact ⟨uid, registered, definition, resolved, rfl, hvisiting, hrefers, hparse,
            hresolved, rfl⟩
        · rintro ⟨_, registered, definition, resolved, rfl, -, hrefers, hparse, hresolved, rfl⟩
          exact ⟨registered, hrefers, definition, hparse, resolved, hresolved, rfl⟩

theorem isEarlier_trans {a b c : SchemaCoordinates} (hab : isEarlier a b = true)
    (hbc : isEarlier b c = true) : isEarlier a c = true := by
  simp only [isEarlier, Bool.or_eq_true, Bool.and_eq_true, decide_eq_true_eq, beq_iff_eq]
    at hab hbc ⊢
  omega

theorem isEarlier_irrefl (a : SchemaCoordinates) : isEarlier a a = false := by
  simp [isEarlier]

theorem Extends.nodup {fields own : SchemaFields} (h : Extends fields own)
    (hfields : (fields.map (·.1)).Nodup) : ((fields ++ own).map (·.1)).Nodup := by
  rw [List.map_append, List.nodup_append]
  refine ⟨hfields, h.1, ?_⟩
  rintro name hname _ hown rfl
  exact h.2 name hown hname

namespace Resolution

variable {catalog : SchemaLookup} {schema : SchemaDefinition} {context : SchemaCoordinates}
  {resolved : ResolvedSchema}

/-- The ancestors of a schema are registered before it. -/
theorem earlier (h : Resolution catalog schema context resolved) :
    ∀ uid ∈ resolved.lineage, ∃ registered, catalog uid = some registered ∧
      isEarlier registered.toSchemaCoordinates context = true := by
  induction h with
  | root => simp
  | child parent refers parsed ancestor names count replaces ih =>
      intro uid huid
      rw [List.mem_append, List.mem_singleton] at huid
      rcases huid with huid | rfl
      · obtain ⟨registered, hget, hlt⟩ := ih uid huid
        exact ⟨registered, hget, isEarlier_trans hlt refers.2.2.2⟩
      · exact ⟨_, refers.1, refers.2.2.2⟩

/-- No schema is its own ancestor. -/
theorem lineage_nodup (h : Resolution catalog schema context resolved) :
    resolved.lineage.Nodup := by
  induction h with
  | root => exact List.nodup_nil
  | child parent refers parsed ancestor names count replaces ih =>
      rw [List.nodup_append]
      refine ⟨ih, List.nodup_singleton _, ?_⟩
      rintro uid huid _ hmem rfl
      obtain ⟨registered, hget, hlt⟩ := ancestor.earlier uid huid
      rw [List.mem_singleton] at hmem
      rw [hmem, refers.1, Option.some.injEq] at hget
      rw [← hget, isEarlier_irrefl] at hlt
      cases hlt

/-- A schema resolves in one way. -/
theorem unique (h : Resolution catalog schema context resolved) {resolved' : ResolvedSchema}
    (h' : Resolution catalog schema context resolved') : resolved = resolved' := by
  induction h generalizing resolved' with
  | root parent =>
      cases h' with
      | root => rfl
      | child parent' => rw [parent] at parent'; cases parent'
  | child parent refers parsed ancestor names count replaces ih =>
      cases h' with
      | root parent' => rw [parent] at parent'; cases parent'
      | child parent' refers' parsed' ancestor' =>
          rw [parent, Option.some.injEq] at parent'
          subst parent'
          have hregistered := refers.1.symm.trans refers'.1
          rw [Option.some.injEq] at hregistered
          subst hregistered
          rw [parsed, Except.ok.injEq] at parsed'
          subst parsed'
          rw [ih ancestor']

/-- The definition a resolution is about. -/
theorem definition_eq (h : Resolution catalog schema context resolved) :
    resolved.definition = schema := by
  cases h <;> rfl

/-- No field of a resolved schema has the name of another. -/
theorem names_nodup (h : Resolution catalog schema context resolved) :
    (resolved.fields.map (·.1)).Nodup := by
  induction h with
  | root parent names => exact names.1
  | child parent refers parsed ancestor names count replaces ih => exact names.nodup ih

/-- The fields of a resolved schema are valid, and its ancestors are UIDs. -/
theorem valid (h : Resolution catalog schema context resolved) (hschema : schema.isValid = true) :
    fieldsValid (maxSchemaDepth - 1) resolved.fields = true ∧
      ∀ uid ∈ resolved.lineage, isLowerHash uid = true := by
  have hown : ∀ {d : SchemaDefinition}, d.isValid = true →
      fieldsValid (maxSchemaDepth - 1) d.fields = true ∧ d.parent.all isLowerHash = true := by
    intro d hd
    simp only [SchemaDefinition.isValid, Bool.and_eq_true] at hd
    exact ⟨hd.1.1.1.1.2, hd.1.1.2⟩
  induction h with
  | root => exact ⟨(hown hschema).1, by simp⟩
  | child parent refers parsed ancestor names count replaces ih =>
      obtain ⟨hfields, hlineage⟩ := ih (isValid_of_parseSchema parsed)
      obtain ⟨hfields', hparent⟩ := hown hschema
      rw [parent] at hparent
      refine ⟨?_, fun uid huid => ?_⟩
      · rw [fieldsValid_eq, List.all_append, Bool.and_eq_true, ← fieldsValid_eq, ← fieldsValid_eq]
        exact ⟨hfields, hfields'⟩
      · rw [List.mem_append, List.mem_singleton] at huid
        rcases huid with huid | rfl
        · exact hlineage uid huid
        · exact hparent

end Resolution

/-- The strings of a resolved schema are those of its definition, printable ones apart. -/
theorem ResolvedSchema.allStrings_toJs {p : JsString → Bool}
    (hp : ∀ s, isPlain s = true → p s = true) {levels : ℕ} {resolved : ResolvedSchema}
    (hdefinition : resolved.definition.toJs.allStrings p = true)
    (hfields : fieldsValid levels resolved.fields = true)
    (hlineage : ∀ uid ∈ resolved.lineage, isLowerHash uid = true) :
    resolved.toJs.allStrings p = true := by
  have hfields' := allStrings_of_fieldsValid hp hfields
  have huids : ((resolved.lineage.map JsValue.str).all (JsValue.allStrings p)) = true := by
    rw [List.all_map, List.all_eq_true]
    intro uid huid
    rw [Function.comp_apply, JsValue.allStrings_str]
    exact hp _ (isPlain_of_isLowerHash (hlineage uid huid))
  rw [ResolvedSchema.toJs, JsValue.allStrings_obj]
  simp only [List.all_cons, List.all_nil, hdefinition, hfields', JsValue.allStrings_arr, huids,
    hp (js "definition") (by decide), hp (js "fields") (by decide), hp (js "lineage") (by decide),
    Bool.and_self]

theorem ResolvedSchema.isJson_toJs (resolved : ResolvedSchema) : resolved.toJs.isJson = true := by
  have hfields := isJson_fieldsJs fun m (_ : m ∈ resolved.fields) => m.2.isJson_toJs
  have hlineage : ((resolved.lineage.map JsValue.str).all JsValue.isJson) = true := by
    rw [List.all_map, List.all_eq_true]
    exact fun _ _ => rfl
  rw [ResolvedSchema.toJs, JsValue.isJson_obj]
  simp only [List.all_cons, List.all_nil, resolved.definition.isJson_toJs, hfields,
    JsValue.isJson_arr, hlineage, Bool.and_self]

/-- The objects of two resolved schemas differ in the order of members only. -/
theorem ResolvedSchema.canon_toJs_eq_iff {resolved resolved' : ResolvedSchema} :
    resolved.toJs.canon = resolved'.toJs.canon ↔
      resolved.definition.toJs.canon = resolved'.definition.toJs.canon ∧
        (fieldsJs resolved.fields).canon = (fieldsJs resolved'.fields).canon ∧
        resolved.lineage = resolved'.lineage := by
  constructor
  · intro h
    have hlineage := JsValue.get_eq_of_canon_eq h (js "lineage")
    have hinjective : Function.Injective JsValue.str := fun _ _ => JsValue.str.inj
    refine ⟨JsValue.get_eq_of_canon_eq h (js "definition"),
      JsValue.get_eq_of_canon_eq h (js "fields"), ?_⟩
    have hitems : (JsValue.arr (resolved.lineage.map .str)).canon
        = (JsValue.arr (resolved'.lineage.map .str)).canon := hlineage
    simp only [JsValue.canon_arr, List.map_map, JsValue.arr.injEq] at hitems
    exact hinjective.list_map hitems
  · rintro ⟨hdefinition, hfields, hlineage⟩
    rw [ResolvedSchema.toJs, ResolvedSchema.toJs, JsValue.canon_obj, JsValue.canon_obj]
    simp only [List.map_cons, List.map_nil, hdefinition, hfields, hlineage]

/-! ## Resolution and the order of fields -/

theorem map_fst_canonFields_perm (fields : SchemaFields) :
    ((canonFields fields).map (·.1)).Perm (fields.map (·.1)) := by
  have h := map_fst_sortMembers_perm (fields.map fun m => (m.1, m.2.canon))
  rw [List.map_map] at h
  exact h

theorem map_fst_perm_of_canonFields_eq {fields fields' : SchemaFields}
    (h : canonFields fields = canonFields fields') :
    (fields.map (·.1)).Perm (fields'.map (·.1)) := by
  have hperm := map_fst_canonFields_perm fields
  rw [h] at hperm
  exact hperm.symm.trans (map_fst_canonFields_perm fields')

/-- Fields with one canonical form are one object. -/
theorem canon_fieldsJs_eq {fields fields' : SchemaFields}
    (h : canonFields fields = canonFields fields') :
    (fieldsJs fields).canon = (fieldsJs fields').canon := by
  rw [← canon_fieldsJs fun m _ => m.2.canon_toJs, h, canon_fieldsJs fun m _ => m.2.canon_toJs]

theorem countSchemaFields_eq_of_canonFields_eq {fields fields' : SchemaFields}
    (h : canonFields fields = canonFields fields') :
    countSchemaFields fields = countSchemaFields fields' := by
  rw [← countSchemaFields_canonFields, h, countSchemaFields_canonFields]

section Congruence

variable {fields fields' own own' : SchemaFields}
  (hfields : canonFields fields = canonFields fields') (hown : canonFields own = canonFields own')

include hfields hown

theorem Extends.congr (h : Extends fields own) : Extends fields' own' := by
  have hnames := map_fst_perm_of_canonFields_eq hfields
  have hownNames := map_fst_perm_of_canonFields_eq hown
  refine ⟨hownNames.nodup_iff.mp h.1, fun name hname hmem => ?_⟩
  exact h.2 name (hownNames.mem_iff.mpr hname) (hnames.mem_iff.mpr hmem)

theorem canonFields_append (hnodup : ((fields ++ own).map (·.1)).Nodup) :
    canonFields (fields ++ own) = canonFields (fields' ++ own') := by
  have hperm : ∀ {xs ys : SchemaFields}, canonFields xs = canonFields ys →
      (xs.map fun m => (m.1, m.2.canon)).Perm (ys.map fun m => (m.1, m.2.canon)) := by
    intro xs ys h
    rw [canonFields, canonFields] at h
    have hsorted := sortMembers_perm (xs.map fun m => (m.1, m.2.canon))
    rw [h] at hsorted
    exact hsorted.symm.trans (sortMembers_perm _)
  rw [canonFields, canonFields, List.map_append, List.map_append]
  refine sortMembers_eq_of_perm ((hperm hfields).append (hperm hown)) ?_
  rw [← List.map_append, List.map_map]
  exact hnodup

end Congruence

/-- Definitions with one canonical form differ in the order of fields only. -/
theorem SchemaDefinition.canon_eq_iff {d d' : SchemaDefinition} : d.canon = d'.canon ↔
    d.name = d'.name ∧ d.description = d'.description ∧
      canonFields d.fields = canonFields d'.fields ∧ d.parent = d'.parent ∧
      d.supersedes = d'.supersedes := by
  rw [SchemaDefinition.canon, SchemaDefinition.canon, SchemaDefinition.mk.injEq]

/-- Two catalogs have the same schemas, but for the order of members in their definitions. -/
def SameCatalog (catalog catalog' : SchemaLookup) : Prop :=
  ∀ uid registered, catalog uid = some registered → ∃ registered', catalog' uid = some registered' ∧
    registered'.toSchemaCoordinates = registered.toSchemaCoordinates ∧
    registered'.uid = registered.uid ∧ registered'.definition.canon = registered.definition.canon

theorem SameCatalog.refl (catalog : SchemaLookup) : SameCatalog catalog catalog :=
  fun _ registered h => ⟨registered, h, rfl, rfl, rfl⟩

theorem SameCatalog.trans {a b c : SchemaLookup} (hab : SameCatalog a b) (hbc : SameCatalog b c) :
    SameCatalog a c := by
  intro uid registered h
  obtain ⟨registered', h', hcoordinates, huid, hcanon⟩ := hab uid registered h
  obtain ⟨registered'', h'', hcoordinates', huid', hcanon'⟩ := hbc uid registered' h'
  exact ⟨registered'', h'', hcoordinates'.trans hcoordinates, huid'.trans huid,
    hcanon'.trans hcanon⟩

section SameCatalog

variable {catalog catalog' : SchemaLookup} (hcatalog : SameCatalog catalog catalog')

include hcatalog

theorem Refers.congr {uid : JsString} {context : SchemaCoordinates}
    {registered : RegisteredSchema} (h : Refers catalog uid context registered) :
    ∃ registered', Refers catalog' uid context registered' ∧
      registered'.toSchemaCoordinates = registered.toSchemaCoordinates ∧
      registered'.definition.canon = registered.definition.canon := by
  obtain ⟨hget, huid, hnetwork, hearlier⟩ := h
  obtain ⟨registered', hget', hcoordinates, huid', hdefinition⟩ := hcatalog uid registered hget
  have hnetwork' := congrArg SchemaCoordinates.networkId hcoordinates
  refine ⟨registered', ⟨hget', huid'.trans huid, hnetwork'.trans hnetwork, ?_⟩, hcoordinates,
    hdefinition⟩
  rw [hcoordinates]
  exact hearlier

theorem Replaces.congr {schema schema' : SchemaDefinition} {context : SchemaCoordinates}
    (hsupersedes : schema.supersedes = schema'.supersedes) (h : Replaces catalog schema context) :
    Replaces catalog' schema' context := by
  intro uid huid
  rw [← hsupersedes] at huid
  obtain ⟨previous, hrefers, hpublisher⟩ := h uid huid
  obtain ⟨previous', hrefers', hcoordinates, -⟩ := hrefers.congr hcatalog
  refine ⟨previous', hrefers', ?_⟩
  rw [hcoordinates]
  exact hpublisher

/-- **Resolution does not depend on the order of members**, neither in the catalog nor in the
schema. -/
theorem Resolution.congr {schema schema' : SchemaDefinition} {context : SchemaCoordinates}
    {resolved : ResolvedSchema} (h : Resolution catalog schema context resolved)
    (hschema : schema.canon = schema'.canon) :
    ∃ resolved', Resolution catalog' schema' context resolved' ∧
      resolved'.lineage = resolved.lineage ∧
      canonFields resolved'.fields = canonFields resolved.fields := by
  induction h generalizing schema' with
  | @root schema context parent names count replaces =>
      obtain ⟨-, -, hown, hparent, hsupersedes⟩ := SchemaDefinition.canon_eq_iff.mp hschema
      refine ⟨⟨schema', schema'.fields, []⟩, .root (hparent.symm.trans parent)
        (names.congr rfl hown) ?_ (replaces.congr hcatalog hsupersedes), rfl, hown.symm⟩
      rw [← countSchemaFields_eq_of_canonFields_eq hown]
      exact count
  | @child schema definition context uid registered resolved parent refers parsed ancestor names
      count replaces ih =>
      obtain ⟨registered', refers', hcoordinates, hdefinition⟩ := refers.congr hcatalog
      obtain ⟨definition', parsed', hcanon⟩ := parseSchema_congr hdefinition.symm parsed
      obtain ⟨resolved', ancestor', hlineage, hresolved⟩ := ih hcanon.symm
      obtain ⟨-, -, hown, hparent, hsupersedes⟩ := SchemaDefinition.canon_eq_iff.mp hschema
      have hall := canonFields_append hresolved.symm hown (names.nodup ancestor.names_nodup)
      rw [← hcoordinates] at ancestor'
      refine ⟨⟨schema', resolved'.fields ++ schema'.fields, resolved'.lineage ++ [uid]⟩,
        .child (hparent.symm.trans parent) refers' parsed' ancestor'
          (names.congr hresolved.symm hown) ?_ (replaces.congr hcatalog hsupersedes),
        by rw [hlineage], hall.symm⟩
      rw [← countSchemaFields_eq_of_canonFields_eq hall]
      exact count

end SameCatalog

/-- **The recursion computes the derivation.**  `resolve` returns what can be derived, when there
are few enough ancestors and none of them is being visited. -/
theorem resolve_eq_ok {levels : ℕ} {schema : SchemaDefinition} {context : SchemaResolutionContext}
    {visiting : List JsString} {resolved : ResolvedSchema} :
    resolve levels schema context visiting = .ok resolved ↔
      Resolution context.getSchema schema context.toSchemaCoordinates resolved ∧
        resolved.lineage.length ≤ levels ∧ ∀ uid ∈ resolved.lineage, uid ∉ visiting := by
  induction levels generalizing schema context visiting resolved with
  | zero =>
      simp only [resolve, bind_eq_ok, inherited_none_eq_ok, resolveOwn_eq_ok]
      constructor
      · rintro ⟨_, ⟨hparent, rfl⟩, hnames, hcount, hreplaces, rfl⟩
        exact ⟨.root hparent hnames hcount hreplaces, by simp, by simp⟩
      · rintro ⟨h, hlength, -⟩
        cases h with
        | root parent names count replaces =>
            exact ⟨_, ⟨parent, rfl⟩, names, count, replaces, rfl⟩
        | child => simp at hlength
  | succ levels ih =>
      simp only [resolve, bind_eq_ok, inherited_some_eq_ok, resolveOwn_eq_ok, ih]
      constructor
      · rintro ⟨_, ⟨hparent, rfl⟩ | ⟨uid, registered, definition, ancestor, hparent, hvisiting,
          hrefers, hparse, ⟨hancestor, hlength, hvisited⟩, rfl⟩, hnames, hcount, hreplaces, rfl⟩
        · exact ⟨.root hparent hnames hcount hreplaces, by simp, by simp⟩
        · refine ⟨.child hparent hrefers hparse hancestor hnames hcount hreplaces, ?_, ?_⟩
          · rw [List.length_append, List.length_singleton]
            omega
          · intro u hu
            rw [List.mem_append, List.mem_singleton] at hu
            rcases hu with hu | rfl
            · exact fun hv => hvisited u hu (List.mem_cons_of_mem _ hv)
            · exact hvisiting
      · rintro ⟨h, hlength, hvisited⟩
        have hnodup := h.lineage_nodup
        cases h with
        | root parent names count replaces =>
            exact ⟨_, Or.inl ⟨parent, rfl⟩, names, count, replaces, rfl⟩
        | child parent refers parsed ancestor names count replaces =>
            rename_i definition uid registered resolved
            rw [List.length_append, List.length_singleton] at hlength
            have huid : uid ∉ resolved.lineage := by
              intro hmem
              exact (List.nodup_append.mp hnodup).2.2 uid hmem uid (List.mem_singleton_self _) rfl
            refine ⟨_, Or.inr ⟨uid, registered, definition, resolved, parent,
              hvisited uid (by simp), refers, parsed, ⟨ancestor, by omega, ?_⟩, rfl⟩, names,
              count, replaces, rfl⟩
            intro u hu hmem
            rcases List.mem_cons.mp hmem with rfl | hmem
            · exact huid hu
            · exact hvisited u (List.mem_append_left _ hu) hmem

theorem isUint32_natCast {n : ℕ} (h : n ≤ 0xffffffff) : isUint32 (n : ℤ) = true := by
  rw [isUint32, decide_eq_true_eq]
  omega

/-- At valid coordinates `resolveSchema` resolves what `parseSchema` gives. -/
theorem resolveSchema_eq_resolve {P : Platform} {input : JsValue} {schema : SchemaDefinition}
    {context : SchemaResolutionContext} (hnetwork : isUint32 context.networkId = true)
    (hledger : isUint32 context.ledgerIndex = true)
    (htransaction : isUint32 context.transactionIndex = true)
    (hpublisher : P.isValidClassicAddress context.publisher = true)
    (hparse : parseSchema input = .ok schema) :
    resolveSchema P input context = resolve (maxSchemaDepth - 1) schema context [] := by
  unfold resolveSchema
  rw [hnetwork, hledger, htransaction, hpublisher, hparse]
  rfl

/-- What `resolveSchema` returns. -/
theorem resolveSchema_eq_ok {P : Platform} {input : JsValue} {context : SchemaResolutionContext}
    {resolved : ResolvedSchema} :
    resolveSchema P input context = .ok resolved ↔
      isUint32 context.networkId = true ∧ isUint32 context.ledgerIndex = true ∧
        isUint32 context.transactionIndex = true ∧
        P.isValidClassicAddress context.publisher = true ∧
        ∃ schema, parseSchema input = .ok schema ∧
          Resolution context.getSchema schema context.toSchemaCoordinates resolved ∧
          resolved.lineage.length ≤ maxSchemaDepth - 1 := by
  rw [resolveSchema]
  split_ifs with hcontext
  · simp only [Bool.or_eq_true, Bool.not_eq_true', invalidReference, failXcs, reduceCtorEq,
      false_iff, not_and, not_exists] at hcontext ⊢
    intro h₁ h₂ h₃ h₄
    rw [h₁, h₂, h₃, h₄] at hcontext
    simp at hcontext
  · simp only [Bool.or_eq_true, Bool.not_eq_true', not_or, Bool.not_eq_false] at hcontext
    simp only [bind_eq_ok, resolve_eq_ok, hcontext.1.1.1, hcontext.1.1.2, hcontext.1.2,
      hcontext.2, true_and, List.not_mem_nil, not_false_eq_true, implies_true, and_true]

end Core
end Xcs
