import Xcs.Core.SchemaForm

/-!
# The grammar of schema definitions

`Describes` and `Spells` say which values are written descriptions of a descriptor and of a
definition. They know nothing of limits: `parseSchema_iff` says that the parser accepts what the
grammar spells, when it nests at most sixteen deep and has at most 256 descriptors, and nothing
else.

`schema_limits` collects what follows for the definitions the parser returns.
-/

namespace Xcs
namespace Core

open Js Json

/-! ## Depth -/

mutual

/-- How deep a descriptor nests, itself included. -/
def FieldDescriptor.depth : FieldDescriptor → ℕ
  | .scalar _ _ => 1
  | .array items _ => items.depth + 1
  | .object fields _ => fieldsDepth fields + 1

/-- How deep the descriptors of a fields record nest. -/
def fieldsDepth : SchemaFields → ℕ
  | [] => 0
  | (_, field) :: fields => max field.depth (fieldsDepth fields)

end

theorem fieldsDepth_le {fields : SchemaFields} {n : ℕ} :
    fieldsDepth fields ≤ n ↔ ∀ m ∈ fields, m.2.depth ≤ n := by
  induction fields with
  | nil => simp [fieldsDepth]
  | cons m fields ih => rw [fieldsDepth, Nat.max_le, ih, List.forall_mem_cons]

theorem FieldDescriptor.depth_pos (field : FieldDescriptor) : 0 < field.depth := by
  cases field with
  | scalar type optional => rw [depth]; omega
  | array items optional => rw [depth]; omega
  | object fields optional => rw [depth]; omega

/-! ## The grammar -/

/-- The object behind a list of fields, each with its name, its value and its descriptor. -/
def entriesJs (entries : List (JsString × JsValue × FieldDescriptor)) : JsValue :=
  .obj (entries.map fun e => (e.1, e.2.1))

/-- The fields record behind such a list. -/
def entriesFields (entries : List (JsString × JsValue × FieldDescriptor)) : SchemaFields :=
  entries.map fun e => (e.1, e.2.2)

/-- The value is a description of the descriptor: an object with the properties of its type and no
others. -/
inductive Describes : JsValue → FieldDescriptor → Prop
  | scalar {members : Members} {type : ScalarFieldType} {optional : Bool}
      (properties : hasOnly members [js "type", js "optional"] = true)
      (typed : (JsValue.obj members).get (js "type") = .str type.text)
      (flag : optionalOf ((JsValue.obj members).get (js "optional")) = some optional) :
      Describes (.obj members) (.scalar type optional)
  | array {members : Members} {items : FieldDescriptor} {optional : Bool}
      (properties : hasOnly members [js "type", js "optional", js "items"] = true)
      (typed : (JsValue.obj members).get (js "type") = .str (js "array"))
      (flag : optionalOf ((JsValue.obj members).get (js "optional")) = some optional)
      (inner : Describes ((JsValue.obj members).get (js "items")) items) :
      Describes (.obj members) (.array items optional)
  | object {members : Members} {entries : List (JsString × JsValue × FieldDescriptor)}
      {optional : Bool}
      (properties : hasOnly members [js "type", js "optional", js "fields"] = true)
      (typed : (JsValue.obj members).get (js "type") = .str (js "object"))
      (flag : optionalOf ((JsValue.obj members).get (js "optional")) = some optional)
      (listed : (JsValue.obj members).get (js "fields") = entriesJs entries)
      (nonempty : entries ≠ []) (names : ∀ e ∈ entries, isFieldName e.1 = true)
      (inner : ∀ e ∈ entries, Describes e.2.1 e.2.2) :
      Describes (.obj members) (.object (entriesFields entries) optional)

/-- The value is a description of the fields. -/
def DescribesFields (value : JsValue) (fields : SchemaFields) : Prop :=
  ∃ entries, entries ≠ [] ∧ value = entriesJs entries ∧ fields = entriesFields entries ∧
    (∀ e ∈ entries, isFieldName e.1 = true) ∧ ∀ e ∈ entries, Describes e.2.1 e.2.2

/-- The value is a description of the definition. -/
structure Spells (input : JsValue) (d : SchemaDefinition) : Prop where
  object : ∃ members, input = .obj members ∧ hasOnly members schemaProperties = true
  version : input.get (js "xcsVersion") = .str (js "0.1")
  name : textOf 64 (input.get (js "name")) = some d.name
  description : textOf 256 (input.get (js "description")) = some d.description
  parent : relationOf (input.get (js "extends")) = some d.parent
  supersedes : relationOf (input.get (js "supersedes")) = some d.supersedes
  differ : ∀ uid, d.parent = some uid → d.supersedes ≠ some uid
  fields : DescribesFields (input.get (js "fields")) d.fields

/-! ## The reading follows the grammar -/

/-- What one level of the reading accepts. -/
theorem descriptorOfWith_iff {reader : Option DescriptorReader} {v : JsValue}
    {d : FieldDescriptor} :
    descriptorOfWith reader v = some d ↔
      ∃ members optional, v = .obj members ∧ optionalOf (v.get (js "optional")) = some optional ∧
        ((∃ type, hasOnly members [js "type", js "optional"] = true ∧
            v.get (js "type") = .str (ScalarFieldType.text type) ∧ d = .scalar type optional) ∨
          (∃ r items, reader = some r ∧
            hasOnly members [js "type", js "optional", js "items"] = true ∧
            v.get (js "type") = .str (js "array") ∧ (v.get (js "items")).isUndefined = false ∧
            r (v.get (js "items")) = some items ∧ d = .array items optional) ∨
          ∃ r fields, reader = some r ∧
            hasOnly members [js "type", js "optional", js "fields"] = true ∧
            v.get (js "type") = .str (js "object") ∧
            fieldsOf r (v.get (js "fields")) = some fields ∧ d = .object fields optional) := by
  constructor
  · intro h
    rw [descriptorOfWith] at h
    split at h
    · rename_i members type optional hrecord hoptional
      have hobject : v = .obj members ∧ v.get (js "type") = .str type := by
        rw [typedRecord.eq_def] at hrecord
        split at hrecord
        · split at hrecord
          · rename_i htype
            cases hrecord
            exact ⟨rfl, htype⟩
          · cases hrecord
        · cases hrecord
      refine ⟨members, optional, hobject.1, hoptional, ?_⟩
      rw [hobject.2]
      split at h
      · rename_i scalar hscalar
        split_ifs at h with honly
        exact Or.inl ⟨scalar, honly, by rw [ScalarFieldType.text_of_ofText hscalar],
          (Option.some.inj h).symm⟩
      · split_ifs at h with harray honly hobj honly
        · rw [arrayOf.eq_def] at h
          split at h
          · rename_i r hitems
            obtain ⟨items, hread, rfl⟩ := Option.map_eq_some_iff.mp h
            exact Or.inr (Or.inl ⟨r, items, rfl, honly, by rw [harray], hitems, hread, rfl⟩)
          · cases h
        · rw [objectOf.eq_def] at h
          split at h
          · rename_i r
            obtain ⟨fields, hread, rfl⟩ := Option.map_eq_some_iff.mp h
            exact Or.inr (Or.inr ⟨r, fields, rfl, honly, by rw [hobj], hread, rfl⟩)
          · cases h
    · cases h
  · rintro ⟨members, optional, rfl, hoptional, hcase⟩
    have hrecord : ∀ type, (JsValue.obj members).get (js "type") = .str type →
        typedRecord (.obj members) = some (members, type) := by
      intro type htype
      rw [typedRecord, htype]
    rw [descriptorOfWith]
    rcases hcase with ⟨type, honly, htype, rfl⟩ | ⟨r, items, rfl, honly, htype, hitems, hread, rfl⟩
      | ⟨r, fields, rfl, honly, htype, hread, rfl⟩
    · rw [hrecord _ htype, hoptional]
      simp [honly]
    · rw [hrecord _ htype, hoptional]
      simp [honly, arrayOf, hitems, hread]
    · rw [hrecord _ htype, hoptional]
      simp [honly, objectOf, hread, (by decide : js "object" ≠ js "array")]

/-- Members that are read one by one, as a list of entries. -/
theorem fieldMembersOf_iff {reader : DescriptorReader} {members : Members} {fields : SchemaFields} :
    fieldMembersOf reader members = some fields ↔
      ∃ entries : List (JsString × JsValue × FieldDescriptor),
        members = entries.map (fun e => (e.1, e.2.1)) ∧ fields = entriesFields entries ∧
        (∀ e ∈ entries, isFieldName e.1 = true) ∧ ∀ e ∈ entries, reader e.2.1 = some e.2.2 := by
  rw [fieldMembersOf, sequenceMembers_eq_some]
  constructor
  · intro h
    induction members generalizing fields with
    | nil =>
        rw [List.map_nil, eq_comm, List.map_eq_nil_iff] at h
        subst h
        exact ⟨[], rfl, rfl, by simp, by simp⟩
    | cons m members ih =>
        cases fields with
        | nil => cases h
        | cons f fields =>
            rw [List.map_cons, List.map_cons, List.cons.injEq, Prod.mk.injEq] at h
            obtain ⟨⟨hkey, hread⟩, hrest⟩ := h
            obtain ⟨entries, rfl, rfl, hnames, hreads⟩ := ih hrest
            split_ifs at hread with hname
            refine ⟨(m.1, m.2, f.2) :: entries, rfl, ?_,
              List.forall_mem_cons.mpr ⟨hname, hnames⟩, List.forall_mem_cons.mpr ⟨hread, hreads⟩⟩
            rw [entriesFields, entriesFields, List.map_cons, hkey]
  · rintro ⟨entries, rfl, rfl, hnames, hread⟩
    rw [entriesFields, List.map_map, List.map_map]
    refine List.map_congr_left fun e he => ?_
    simp [hnames e he, hread e he]

/-- The fields that are read are the ones a list of entries describes. -/
theorem fieldsOf_iff {reader : DescriptorReader} {v : JsValue} {fields : SchemaFields} :
    fieldsOf reader v = some fields ↔
      ∃ entries, entries ≠ [] ∧ v = entriesJs entries ∧ fields = entriesFields entries ∧
        (∀ e ∈ entries, isFieldName e.1 = true) ∧ ∀ e ∈ entries, reader e.2.1 = some e.2.2 := by
  constructor
  · intro h
    cases v with
    | obj members =>
        rw [fieldsOf] at h
        split_ifs at h with hempty
        obtain ⟨entries, rfl, rfl, hnames, hread⟩ := fieldMembersOf_iff.mp h
        refine ⟨entries, ?_, rfl, rfl, hnames, hread⟩
        rintro rfl
        exact hempty rfl
    | _ => cases h
  · rintro ⟨entries, hne, rfl, rfl, hnames, hread⟩
    rw [entriesJs, fieldsOf, if_neg (by simpa using hne)]
    exact fieldMembersOf_iff.mpr ⟨entries, rfl, rfl, hnames, hread⟩

theorem fieldsDepth_entriesFields {entries : List (JsString × JsValue × FieldDescriptor)} {n : ℕ} :
    fieldsDepth (entriesFields entries) ≤ n ↔ ∀ e ∈ entries, e.2.2.depth ≤ n := by
  rw [fieldsDepth_le, entriesFields, List.forall_mem_map]

/-- **The reading at a depth** is the grammar, up to that depth. -/
theorem descriptorOf_iff : ∀ {levels : ℕ} {v : JsValue} {d : FieldDescriptor},
    descriptorOf levels v = some d ↔ Describes v d ∧ d.depth ≤ levels + 1
  | 0, v, d => by
      rw [descriptorOf, descriptorOfWith_iff]
      constructor
      · rintro ⟨members, optional, rfl, hflag, ⟨type, honly, htype, rfl⟩ | ⟨r, _, hr, -⟩ |
          ⟨r, _, hr, -⟩⟩
        · exact ⟨.scalar honly htype hflag, by rw [FieldDescriptor.depth]⟩
        · cases hr
        · cases hr
      · rintro ⟨hdescribes, hdepth⟩
        cases hdescribes with
        | scalar honly htype hflag =>
            exact ⟨_, _, rfl, hflag, Or.inl ⟨_, honly, htype, rfl⟩⟩
        | @array _ items =>
            have := items.depth_pos
            rw [FieldDescriptor.depth] at hdepth
            omega
        | @object _ entries _ _ _ _ _ hne =>
            obtain ⟨e, he⟩ := List.exists_mem_of_ne_nil _ hne
            have := e.2.2.depth_pos
            rw [FieldDescriptor.depth] at hdepth
            have := fieldsDepth_entriesFields.mp (Nat.le_of_succ_le_succ hdepth) e he
            omega
  | levels + 1, v, d => by
      rw [descriptorOf, descriptorOfWith_iff]
      constructor
      · rintro ⟨members, optional, rfl, hflag, ⟨type, honly, htype, rfl⟩ |
          ⟨r, items, hr, honly, htype, -, hread, rfl⟩ | ⟨r, fields, hr, honly, htype, hread, rfl⟩⟩
        · exact ⟨.scalar honly htype hflag, by rw [FieldDescriptor.depth]; omega⟩
        · cases hr
          obtain ⟨hinner, hdepth⟩ := descriptorOf_iff.mp hread
          exact ⟨.array honly htype hflag hinner, by rw [FieldDescriptor.depth]; omega⟩
        · cases hr
          obtain ⟨entries, hne, hlisted, rfl, hnames, hreads⟩ := fieldsOf_iff.mp hread
          refine ⟨.object honly htype hflag hlisted hne hnames fun e he =>
            (descriptorOf_iff.mp (hreads e he)).1, ?_⟩
          rw [FieldDescriptor.depth]
          refine Nat.succ_le_succ (fieldsDepth_entriesFields.mpr fun e he => ?_)
          exact (descriptorOf_iff.mp (hreads e he)).2
      · rintro ⟨hdescribes, hdepth⟩
        cases hdescribes with
        | scalar honly htype hflag =>
            exact ⟨_, _, rfl, hflag, Or.inl ⟨_, honly, htype, rfl⟩⟩
        | @array members items optional honly htype hflag hinner =>
            rw [FieldDescriptor.depth] at hdepth
            have hdefined : ((JsValue.obj members).get (js "items")).isUndefined = false := by
              revert hinner
              cases (JsValue.obj members).get (js "items") with
              | undefined => exact fun h => (by cases h)
              | _ => exact fun _ => rfl
            exact ⟨_, _, rfl, hflag, Or.inr (Or.inl ⟨_, _, rfl, honly, htype, hdefined,
              descriptorOf_iff.mpr ⟨hinner, by omega⟩, rfl⟩)⟩
        | @object members entries optional honly htype hflag hlisted hne hnames hinner =>
            rw [FieldDescriptor.depth] at hdepth
            have hdepths := fieldsDepth_entriesFields.mp (Nat.le_of_succ_le_succ hdepth)
            refine ⟨_, _, rfl, hflag, Or.inr (Or.inr ⟨_, _, rfl, honly, htype, ?_, rfl⟩)⟩
            exact fieldsOf_iff.mpr ⟨entries, hne, hlisted, rfl, hnames, fun e he =>
              descriptorOf_iff.mpr ⟨hinner e he, hdepths e he⟩⟩

theorem fieldsOf_descriptorOf_iff {levels : ℕ} {v : JsValue} {fields : SchemaFields} :
    fieldsOf (descriptorOf levels) v = some fields ↔
      DescribesFields v fields ∧ fieldsDepth fields ≤ levels + 1 := by
  rw [fieldsOf_iff]
  constructor
  · rintro ⟨entries, hne, rfl, rfl, hnames, hread⟩
    exact ⟨⟨entries, hne, rfl, rfl, hnames, fun e he => (descriptorOf_iff.mp (hread e he)).1⟩,
      fieldsDepth_entriesFields.mpr fun e he => (descriptorOf_iff.mp (hread e he)).2⟩
  · rintro ⟨⟨entries, hne, rfl, rfl, hnames, hinner⟩, hdepth⟩
    exact ⟨entries, hne, rfl, rfl, hnames, fun e he => descriptorOf_iff.mpr
      ⟨hinner e he, fieldsDepth_entriesFields.mp hdepth e he⟩⟩

theorem definitionOf_iff {input : JsValue} {d : SchemaDefinition} :
    definitionOf input = some d ↔ Spells input d ∧ fieldsDepth d.fields ≤ maxSchemaDepth := by
  have hdiffer : ∀ parent supersedes : Option JsString,
      (parent.isSome && parent == supersedes) = false ↔
        ∀ uid, parent = some uid → supersedes ≠ some uid := by
    intro parent supersedes
    cases parent with
    | none => simp
    | some uid =>
        rw [Option.isSome_some, Bool.true_and, beq_eq_false_iff_ne]
        constructor
        · intro h u hu heq
          exact h (hu.trans heq.symm)
        · exact fun h heq => h uid rfl heq.symm
  constructor
  · intro h
    cases input with
    | obj members =>
        simp only [definitionOf, Option.bind_eq_bind, Option.bind_eq_some_iff,
          Option.guard_eq_some', exists_const, Option.pure_def, Option.some.injEq,
          JsValue.isStr_iff, hdiffer, fieldsOf_descriptorOf_iff] at h
        obtain ⟨honly, hversion, parent, hparent, previous, hprevious, hdiffer, name, hname,
          description, hdescription, fields, ⟨hfields, hdepth⟩, rfl⟩ := h
        exact ⟨⟨⟨members, rfl, honly⟩, hversion, hname, hdescription, hparent, hprevious, hdiffer,
          hfields⟩, hdepth⟩
    | _ => cases h
  · rintro ⟨⟨⟨members, rfl, honly⟩, hversion, hname, hdescription, hparent, hprevious, hdiffers,
      hfields⟩, hdepth⟩
    simp only [definitionOf, Option.bind_eq_bind, Option.bind_eq_some_iff, Option.guard_eq_some',
      exists_const, Option.pure_def, Option.some.injEq, JsValue.isStr_iff, hdiffer,
      fieldsOf_descriptorOf_iff]
    exact ⟨honly, hversion, _, hparent, _, hprevious, hdiffers, _, hname, _, hdescription, _,
      ⟨hfields, hdepth⟩, rfl⟩

/-- **What the parser accepts**: what the grammar spells, within the limits. -/
theorem parseSchema_iff {input : JsValue} {d : SchemaDefinition} :
    parseSchema input = .ok d ↔ Spells input d ∧ fieldsDepth d.fields ≤ maxSchemaDepth ∧
      countSchemaFields d.fields ≤ maxSchemaFields := by
  rw [parseSchema_eq_ok, definitionOf_iff, and_assoc]

/-! ## Limits -/

/-- The fields of an object that occurs in a descriptor, at any level. -/
inductive ObjectWithin : FieldDescriptor → SchemaFields → Prop
  | here {fields : SchemaFields} {optional : Bool} : ObjectWithin (.object fields optional) fields
  | items {items : FieldDescriptor} {optional : Bool} {inner : SchemaFields}
      (h : ObjectWithin items inner) : ObjectWithin (.array items optional) inner
  | field {fields : SchemaFields} {optional : Bool} {inner : SchemaFields}
      {m : JsString × FieldDescriptor} (hm : m ∈ fields) (h : ObjectWithin m.2 inner) :
      ObjectWithin (.object fields optional) inner

/-- The fields of an object are listed properly: there is one, and each has a name. -/
def AreListed (fields : SchemaFields) : Prop :=
  fields ≠ [] ∧ ∀ m ∈ fields, isFieldName m.1 = true

theorem areListed_entriesFields {entries : List (JsString × JsValue × FieldDescriptor)}
    (hne : entries ≠ []) (hnames : ∀ e ∈ entries, isFieldName e.1 = true) :
    AreListed (entriesFields entries) :=
  ⟨by simpa [entriesFields] using hne, List.forall_mem_map.mpr hnames⟩

/-- The objects of what is described are listed properly, at every level. -/
theorem Describes.areListed {v : JsValue} {d : FieldDescriptor} (h : Describes v d)
    {fields : SchemaFields} (hwithin : ObjectWithin d fields) : AreListed fields := by
  induction h generalizing fields with
  | scalar => cases hwithin
  | array _ _ _ _ ih =>
      cases hwithin with
      | items hinner => exact ih hinner
  | object _ _ _ _ hne hnames _ ih =>
      cases hwithin with
      | here => exact areListed_entriesFields hne hnames
      | field hm hinner =>
          obtain ⟨e, he, rfl⟩ := List.mem_map.mp hm
          exact ih e he hinner

theorem DescribesFields.areListed {v : JsValue} {fields inner : SchemaFields}
    (h : DescribesFields v fields) {optional : Bool}
    (hwithin : ObjectWithin (.object fields optional) inner) : AreListed inner := by
  obtain ⟨entries, hne, -, rfl, hnames, hdescribes⟩ := h
  cases hwithin with
  | here => exact areListed_entriesFields hne hnames
  | field hm hinner =>
      obtain ⟨e, he, rfl⟩ := List.mem_map.mp hm
      exact (hdescribes e he).areListed hinner

/-- **The limits of a schema.**  A definition the parser returns has at most 256 descriptors by
`countSchemaFields`, which is what the parser itself counted, nests at most sixteen deep, and its
objects are listed properly at every level.  What the grammar spells within these two limits is
accepted. -/
theorem schema_limits :
    (∀ input d, parseSchema input = .ok d →
      countSchemaFields d.fields ≤ 256 ∧
      parseFields (parseDescriptor (maxSchemaDepth - 1)) (input.get (js "fields")) (js "$.fields") 0
        = .ok (d.fields, countSchemaFields d.fields) ∧
      fieldsDepth d.fields ≤ 16 ∧
      ∀ inner, ObjectWithin (.object d.fields false) inner → AreListed inner) ∧
    ∀ input d, Spells input d → fieldsDepth d.fields ≤ 16 → countSchemaFields d.fields ≤ 256 →
      parseSchema input = .ok d := by
  refine ⟨fun input d h => ?_, fun input d h hdepth hcount =>
    parseSchema_iff.mpr ⟨h, hdepth, hcount⟩⟩
  obtain ⟨hspells, hdepth, hcount⟩ := parseSchema_iff.mp h
  have hread := fieldsOf_descriptorOf_iff.mpr
    ⟨hspells.fields, show fieldsDepth d.fields ≤ maxSchemaDepth - 1 + 1 from hdepth⟩
  refine ⟨hcount, ?_, hdepth, fun inner hinner => hspells.fields.areListed hinner⟩
  exact (parseFields_eq_ok (parseDescriptor_agrees _) (Nat.zero_le _)).mpr
    ⟨hread, (Nat.zero_add _).symm, hcount⟩

end Core
end Xcs
