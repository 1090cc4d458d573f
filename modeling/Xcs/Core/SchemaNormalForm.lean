import Xcs.Core.SchemaGrammar
import Xcs.Core.SchemaUid
import Xcs.Json.Bytes

/-!
# The normal form of a schema

A schema can be written down in more than one way: the members of an object have no order, and a
descriptor that is not optional may say so with `optional: false` or not at all.  The parser reads
all of these as one definition, and `encodeSchema` writes each definition in one way.

`plainSchema` removes the explicit `optional: false` of every descriptor.  `toJs_canon_plainSchema`
says that the definition the parser returns is the value it was given in plain form, and everything
about encodings and UIDs follows from it.
-/

namespace Xcs
namespace Core

open Js Json

/-! ## Plain form -/

/-- The member `optional: false`. -/
def isOptionalFalse (m : JsString × JsValue) : Bool :=
  m.1 == js "optional" &&
    match m.2 with
    | .bool b => !b
    | _ => false

mutual

/-- A description of a descriptor without `optional: false` in it. -/
def plainDescriptor : JsValue → JsValue
  | .obj members => .obj (plainMembers members)
  | .undefined => .undefined
  | .null => .null
  | .bool b => .bool b
  | .num n => .num n
  | .str s => .str s
  | .arr items => .arr items

/-- The members of such a description. -/
def plainMembers : Members → Members
  | [] => []
  | (key, value) :: members =>
      if isOptionalFalse (key, value) then plainMembers members
      else if key = js "items" then (key, plainDescriptor value) :: plainMembers members
      else if key = js "fields" then (key, plainFields value) :: plainMembers members
      else (key, value) :: plainMembers members

/-- A fields object without `optional: false` in it. -/
def plainFields : JsValue → JsValue
  | .obj members => .obj (plainEach members)
  | .undefined => .undefined
  | .null => .null
  | .bool b => .bool b
  | .num n => .num n
  | .str s => .str s
  | .arr items => .arr items

/-- The members of such a fields object. -/
def plainEach : Members → Members
  | [] => []
  | (name, value) :: members => (name, plainDescriptor value) :: plainEach members

end

/-- A schema without the explicit `optional: false` of its descriptors. -/
def plainSchema : JsValue → JsValue
  | .obj members => .obj (members.map fun m =>
      (m.1, if m.1 = js "fields" then plainFields m.2 else m.2))
  | v => v

/-- What becomes of a member that stays. -/
def plainMember (key : JsString) (value : JsValue) : JsValue :=
  if key = js "items" then plainDescriptor value
  else if key = js "fields" then plainFields value
  else value

theorem plainMembers_eq : ∀ members : Members,
    plainMembers members = (members.filter fun m => !isOptionalFalse m).map
      fun m => (m.1, plainMember m.1 m.2)
  | [] => rfl
  | (key, value) :: members => by
      rw [plainMembers, plainMembers_eq members]
      by_cases hfalse : isOptionalFalse (key, value) = true
      · rw [if_pos hfalse, List.filter_cons_of_neg (by simpa using hfalse)]
      · rw [if_neg hfalse, List.filter_cons_of_pos (by simpa using hfalse), List.map_cons,
          plainMember]
        split_ifs <;> rfl

theorem plainEach_eq : ∀ members : Members,
    plainEach members = members.map fun m => (m.1, plainDescriptor m.2)
  | [] => rfl
  | (name, value) :: members => by rw [plainEach, plainEach_eq members, List.map_cons]

/-- A member other than `optional` is found in the plain form. -/
theorem lookup_plainMembers {key : JsString} (h : key ≠ js "optional") (members : Members) :
    (plainMembers members).lookup key = (members.lookup key).map (plainMember key) := by
  rw [plainMembers_eq, JsValue.lookup_map_values, JsValue.lookup_filter]
  intro a
  rw [isOptionalFalse, beq_false_of_ne h]
  rfl

/-- Of `optional` the plain form keeps what is not `false`. -/
theorem lookup_optional_plainMembers {members : Members} (h : (members.map (·.1)).Nodup) :
    (plainMembers members).lookup (js "optional")
      = (members.lookup (js "optional")).filter fun v => !isOptionalFalse (js "optional", v) := by
  have hsame : plainMember (js "optional") = id := by
    ext1 v
    rw [plainMember, if_neg (by decide), if_neg (by decide)]
    rfl
  rw [plainMembers_eq, JsValue.lookup_map_values, JsValue.lookup_filter_of_nodup h, hsame,
    Option.map_id]
  rfl

theorem nodup_plainMembers {members : Members} (h : (members.map (·.1)).Nodup) :
    ((plainMembers members).map (·.1)).Nodup := by
  rw [plainMembers_eq, List.map_map]
  exact (List.filter_sublist.map _).nodup h

theorem get_plainMembers {key : JsString} (h : key ≠ js "optional") (members : Members) :
    (JsValue.obj (plainMembers members)).get key
      = plainMember key ((JsValue.obj members).get key) := by
  rw [JsValue.get_obj, JsValue.get_obj, lookup_plainMembers h]
  cases members.lookup key with
  | some v => rfl
  | none =>
      rw [plainMember]
      split_ifs <;> rfl

theorem get_type_plainMembers (members : Members) :
    (JsValue.obj (plainMembers members)).get (js "type")
      = (JsValue.obj members).get (js "type") :=
  get_plainMembers (by decide) members

theorem get_items_plainMembers (members : Members) :
    (JsValue.obj (plainMembers members)).get (js "items")
      = plainDescriptor ((JsValue.obj members).get (js "items")) :=
  get_plainMembers (by decide) members

theorem get_fields_plainMembers (members : Members) :
    (JsValue.obj (plainMembers members)).get (js "fields")
      = plainFields ((JsValue.obj members).get (js "fields")) :=
  get_plainMembers (by decide) members

/-- The plain form of a descriptor is optional when the descriptor is. -/
theorem optionalOf_plainMembers {members : Members} (h : (members.map (·.1)).Nodup) :
    optionalOf ((JsValue.obj (plainMembers members)).get (js "optional"))
      = optionalOf ((JsValue.obj members).get (js "optional")) := by
  rw [JsValue.get_obj, JsValue.get_obj, lookup_optional_plainMembers h]
  cases members.lookup (js "optional") with
  | none => rfl
  | some v =>
      cases v with
      | bool b => cases b <;> rfl
      | _ => rfl

theorem hasOnly_plainMembers {members : Members} {allowed : List JsString}
    (h : js "optional" ∈ allowed) :
    hasOnly (plainMembers members) allowed = hasOnly members allowed := by
  rw [plainMembers_eq, hasOnly, hasOnly, List.all_map, Bool.eq_iff_iff, List.all_eq_true,
    List.all_eq_true]
  constructor
  · intro hall m hm
    by_cases hfalse : isOptionalFalse m = true
    · rw [isOptionalFalse, Bool.and_eq_true, beq_iff_eq] at hfalse
      rw [hfalse.1]
      exact decide_eq_true h
    · exact hall m (List.mem_filter.mpr ⟨hm, by simpa using hfalse⟩)
  · exact fun hall m hm => hall m (List.mem_filter.mp hm).1

/-! ## The plain form means the same -/

/-- A reading does not depend on explicit `optional: false`. -/
def RespectsPlain (reader : DescriptorReader) : Prop :=
  ∀ v : JsValue, v.distinctKeys = true → reader (plainDescriptor v) = reader v

theorem isUndefined_plainDescriptor (v : JsValue) :
    (plainDescriptor v).isUndefined = v.isUndefined := by
  cases v <;> rfl

theorem fieldsOf_plainFields {reader : DescriptorReader} (h : RespectsPlain reader) {v : JsValue}
    (hkeys : v.distinctKeys = true) : fieldsOf reader (plainFields v) = fieldsOf reader v := by
  cases v with
  | obj members =>
      rw [JsValue.distinctKeys_obj, Bool.and_eq_true, List.all_eq_true] at hkeys
      have hempty : (plainEach members).isEmpty = members.isEmpty := by
        cases members <;> rfl
      have hread : fieldMembersOf reader (plainEach members) = fieldMembersOf reader members := by
        rw [fieldMembersOf, fieldMembersOf, plainEach_eq, List.map_map]
        refine congrArg sequenceMembers (List.map_congr_left fun m hm => ?_)
        rw [Function.comp_apply, h m.2 (hkeys.2 m hm)]
      rw [plainFields, fieldsOf, fieldsOf, hempty, hread]
  | _ => rfl

theorem typedRecord_plainMembers (members : Members) :
    typedRecord (.obj (plainMembers members))
      = (typedRecord (.obj members)).map fun p => (plainMembers p.1, p.2) := by
  rw [typedRecord, typedRecord, get_type_plainMembers]
  cases (JsValue.obj members).get (js "type") <;> rfl

section Level

variable {reader : Option DescriptorReader} (h : ∀ r ∈ reader, RespectsPlain r) {v : JsValue}
  (hkeys : v.distinctKeys = true) {optional : Bool}

include h hkeys

theorem arrayOf_plain :
    arrayOf reader (plainDescriptor v) optional = arrayOf reader v optional := by
  rw [arrayOf.eq_def, arrayOf.eq_def, isUndefined_plainDescriptor]
  cases reader with
  | none => rfl
  | some r =>
      cases v.isUndefined with
      | true => rfl
      | false =>
          dsimp only
          rw [h r rfl v hkeys]

theorem objectOf_plain : objectOf reader (plainFields v) optional = objectOf reader v optional := by
  cases reader with
  | none => rfl
  | some r =>
      rw [objectOf, objectOf, fieldsOf_plainFields (h r rfl) hkeys]

end Level

theorem descriptorOfWith_plain {reader : Option DescriptorReader}
    (h : ∀ r ∈ reader, RespectsPlain r) : RespectsPlain (descriptorOfWith reader) := by
  intro v hkeys
  cases v with
  | obj members =>
      have hitems := JsValue.distinctKeys_get hkeys (js "items")
      have hfields := JsValue.distinctKeys_get hkeys (js "fields")
      rw [JsValue.distinctKeys_obj, Bool.and_eq_true, decide_eq_true_eq] at hkeys
      rw [plainDescriptor, descriptorOfWith, descriptorOfWith, typedRecord_plainMembers,
        optionalOf_plainMembers hkeys.1, get_items_plainMembers, get_fields_plainMembers]
      cases hrecord : typedRecord (.obj members) with
      | none => rfl
      | some record =>
          have hmembers : record.1 = members := by
            rw [typedRecord] at hrecord
            split at hrecord
            · rw [← Option.some.inj hrecord]
            · cases hrecord
          cases optionalOf ((JsValue.obj members).get (js "optional")) with
          | none => rfl
          | some optional =>
              simp only [Option.map_some, hmembers]
              rw [hasOnly_plainMembers (by decide), hasOnly_plainMembers (by decide),
                hasOnly_plainMembers (by decide), arrayOf_plain h hitems, objectOf_plain h hfields]
  | _ => rfl

/-- The reading at any depth. -/
theorem descriptorOf_plain : ∀ levels, RespectsPlain (descriptorOf levels)
  | 0 => descriptorOfWith_plain (by simp)
  | levels + 1 => descriptorOfWith_plain fun r hr => by
      cases hr
      exact descriptorOf_plain levels

/-! ## What is described is the plain form -/

theorem lookup_of_get {members : Members} {key : JsString} {v : JsValue}
    (h : (JsValue.obj members).get key = v) (hv : v.isUndefined = false) :
    members.lookup key = some v := by
  rw [JsValue.get_obj] at h
  cases hfound : members.lookup key with
  | none =>
      rw [hfound] at h
      subst h
      cases hv
  | some found =>
      rw [hfound] at h
      rw [← h]
      rfl

theorem lookup_eq_none_of_hasOnly {members : Members} {allowed : List JsString}
    (h : hasOnly members allowed = true) {key : JsString} (hkey : key ∉ allowed) :
    members.lookup key = none := by
  rw [List.lookup_eq_none_iff]
  intro m hm
  rw [bne_iff_ne]
  rintro rfl
  rw [hasOnly, List.all_eq_true] at h
  exact hkey (of_decide_eq_true (h m hm))

/-- The member `optional` of a descriptor that is read, in plain form. -/
theorem lookup_optional_of_flag {members : Members} {optional : Bool}
    (hjson : (JsValue.obj members).isJson = true) (hnodup : (members.map (·.1)).Nodup)
    (h : optionalOf ((JsValue.obj members).get (js "optional")) = some optional) :
    (plainMembers members).lookup (js "optional")
      = if optional then some (.bool true) else none := by
  rw [lookup_optional_plainMembers hnodup]
  rw [JsValue.get_obj] at h
  cases hfound : members.lookup (js "optional") with
  | none =>
      rw [hfound] at h
      obtain rfl : false = optional := Option.some.inj h
      rfl
  | some v =>
      rw [hfound] at h
      have hv : v.isJson = true := by
        rw [JsValue.isJson_obj, List.all_eq_true] at hjson
        exact hjson _ ((JsValue.lookup_eq_some_iff_mem hnodup).mp hfound)
      cases v with
      | undefined => cases hv
      | bool b =>
          obtain rfl : b = optional := Option.some.inj h
          cases b <;> rfl
      | _ => cases h

theorem isUndefined_of_describes {v : JsValue} {d : FieldDescriptor} (h : Describes v d) :
    v.isUndefined = false := by
  cases h <;> rfl

theorem lookup_optionalMember (optional : Bool) :
    (optionalMember optional).lookup (js "optional")
      = if optional then some (.bool true) else none := by
  cases optional <;> rfl

theorem nodup_optionalMember {keys : List JsString} (hkeys : keys.Nodup)
    (h : js "optional" ∉ keys) (optional : Bool) :
    (keys ++ (optionalMember optional).map (·.1)).Nodup := by
  cases optional with
  | false => simpa [optionalMember] using hkeys
  | true =>
      rw [optionalMember, if_pos rfl, List.nodup_append]
      refine ⟨hkeys, List.nodup_singleton _, ?_⟩
      intro key hkey other hother heq
      rw [List.map_singleton, List.mem_singleton] at hother
      rw [heq, hother] at hkey
      exact h hkey

/-- An object written from some members and the flag is the plain form of an object with the same
members. -/
theorem canon_written (written : Members) {members : Members} {optional : Bool}
    (hjson : (JsValue.obj members).isJson = true) (hnodup : (members.map (·.1)).Nodup)
    (hkeys : (written.map (·.1)).Nodup) (hnot : js "optional" ∉ written.map (·.1))
    (honly : ∀ key, key ≠ js "optional" → key ∉ written.map (·.1) → members.lookup key = none)
    (hflag : optionalOf ((JsValue.obj members).get (js "optional")) = some optional)
    (hwritten : ∀ m ∈ written, ∃ v, members.lookup m.1 = some v ∧
      m.2.canon = (plainMember m.1 v).canon) :
    (JsValue.obj (written ++ optionalMember optional)).canon
      = (JsValue.obj (plainMembers members)).canon := by
  refine JsValue.canon_obj_eq ?_ (nodup_plainMembers hnodup) fun key => ?_
  · rw [List.map_append]
    exact nodup_optionalMember hkeys hnot optional
  rw [List.lookup_append]
  by_cases hoptional : key = js "optional"
  · subst hoptional
    have hnone : written.lookup (js "optional") = none := by
      rw [List.lookup_eq_none_iff]
      intro m hm
      rw [bne_iff_ne]
      exact fun heq => hnot (heq ▸ List.mem_map_of_mem hm)
    rw [hnone, Option.none_or, lookup_optionalMember, lookup_optional_of_flag hjson hnodup hflag]
  · have hno : (optionalMember optional).lookup key = none := by
      cases optional with
      | false => rfl
      | true => rw [optionalMember, if_pos rfl, List.lookup_cons, beq_false_of_ne hoptional]; rfl
    rw [hno, Option.or_none, lookup_plainMembers hoptional]
    by_cases hkey : key ∈ written.map (·.1)
    · obtain ⟨m, hm, rfl⟩ := List.mem_map.mp hkey
      obtain ⟨v, hv, hcanon⟩ := hwritten m hm
      rw [(JsValue.lookup_eq_some_iff_mem hkeys).mpr hm, hv, Option.map_some, Option.map_some,
        Option.map_some, hcanon]
    · rw [honly key hoptional hkey, List.lookup_eq_none_iff.mpr]
      · rfl
      · intro m hm
        rw [bne_iff_ne]
        exact fun heq => hkey (heq ▸ List.mem_map_of_mem hm)

/-- A fields object is written as its plain form, when its descriptors are. -/
theorem canon_fieldsMembers {entries : List (JsString × JsValue × FieldDescriptor)}
    (h : ∀ e ∈ entries, e.2.2.toJs.canon = (plainDescriptor e.2.1).canon) :
    (fieldsJs (entriesFields entries)).canon = (plainFields (entriesJs entries)).canon := by
  rw [fieldsJs, fieldsMembers_eq, entriesFields, List.map_map, entriesJs, plainFields, plainEach_eq,
    List.map_map, JsValue.canon_obj, JsValue.canon_obj, List.map_map, List.map_map]
  refine congrArg (fun l => JsValue.obj (sortMembers l)) (List.map_congr_left fun e he => ?_)
  rw [Function.comp_apply, Function.comp_apply, Function.comp_apply, Function.comp_apply, h e he]

/-- **What a description describes** is its plain form, up to the order of members. -/
theorem Describes.toJs_canon {v : JsValue} {d : FieldDescriptor} (h : Describes v d)
    (hjson : v.isJson = true) (hkeys : v.distinctKeys = true) :
    d.toJs.canon = (plainDescriptor v).canon := by
  induction h with
  | @scalar members type optional honly htype hflag =>
      rw [JsValue.distinctKeys_obj, Bool.and_eq_true, decide_eq_true_eq] at hkeys
      rw [FieldDescriptor.toJs, plainDescriptor]
      refine canon_written [(js "type", .str type.text)] hjson hkeys.1 (by simp)
        (by decide : js "optional" ∉ [js "type"]) ?_ hflag ?_
      · intro key hoptional hkey
        refine lookup_eq_none_of_hasOnly honly ?_
        simpa [hoptional] using hkey
      · intro m hm
        obtain rfl := List.mem_singleton.mp hm
        exact ⟨_, lookup_of_get htype rfl, rfl⟩
  | @array members items optional honly htype hflag hinner ih =>
      have hitems := JsValue.distinctKeys_get hkeys (js "items")
      have hfound := lookup_of_get rfl (isUndefined_of_describes hinner)
      rw [JsValue.distinctKeys_obj, Bool.and_eq_true, decide_eq_true_eq] at hkeys
      rw [FieldDescriptor.toJs, plainDescriptor]
      refine canon_written [(js "type", .str (js "array")), (js "items", items.toJs)]
        hjson hkeys.1 (by decide : [js "type", js "items"].Nodup)
        (by decide : js "optional" ∉ [js "type", js "items"]) ?_ hflag ?_
      · intro key hoptional hkey
        refine lookup_eq_none_of_hasOnly honly ?_
        simpa [hoptional] using hkey
      · intro m hm
        rw [List.mem_pair] at hm
        rcases hm with rfl | rfl
        · exact ⟨_, lookup_of_get htype rfl, rfl⟩
        · refine ⟨_, hfound, ih ?_ hitems⟩
          rw [JsValue.isJson_obj, List.all_eq_true] at hjson
          exact hjson _ ((JsValue.lookup_eq_some_iff_mem hkeys.1).mp hfound)
  | @object members entries optional honly htype hflag hlisted hne hnames hinner ih =>
      have hfields := JsValue.distinctKeys_get hkeys (js "fields")
      have hfound := lookup_of_get hlisted rfl
      rw [JsValue.distinctKeys_obj, Bool.and_eq_true, decide_eq_true_eq] at hkeys
      rw [FieldDescriptor.toJs, plainDescriptor]
      refine canon_written
        [(js "type", .str (js "object")), (js "fields", fieldsJs (entriesFields entries))]
        hjson hkeys.1 (by decide : [js "type", js "fields"].Nodup)
        (by decide : js "optional" ∉ [js "type", js "fields"]) ?_ hflag ?_
      · intro key hoptional hkey
        refine lookup_eq_none_of_hasOnly honly ?_
        simpa [hoptional] using hkey
      · intro m hm
        rw [List.mem_pair] at hm
        rcases hm with rfl | rfl
        · exact ⟨_, lookup_of_get htype rfl, rfl⟩
        · refine ⟨_, hfound, canon_fieldsMembers fun e he => ?_⟩
          rw [JsValue.isJson_obj, List.all_eq_true] at hjson
          have hentries := hjson _ ((JsValue.lookup_eq_some_iff_mem hkeys.1).mp hfound)
          rw [hlisted] at hfields
          rw [entriesJs, JsValue.isJson_obj, List.all_map, List.all_eq_true] at hentries
          rw [entriesJs, JsValue.distinctKeys_obj, Bool.and_eq_true, List.all_map,
            List.all_eq_true] at hfields
          exact ih e he (hentries e he) (hfields.2 e he)

/-! ## Definitions -/

/-- A lookup finds what `get` returns, where no member is `undefined`. -/
theorem lookup_eq_of_get {members : Members} (h : ∀ m ∈ members, m.2.isUndefined = false)
    (key : JsString) : members.lookup key
      = if ((JsValue.obj members).get key).isUndefined then none
        else some ((JsValue.obj members).get key) := by
  rw [JsValue.get_obj]
  cases hfound : members.lookup key with
  | none => rfl
  | some v =>
      obtain ⟨l₁, l₂, rfl, -⟩ := List.lookup_eq_some_iff.mp hfound
      rw [Option.getD_some, h (key, v) (by simp)]
      rfl

/-- Objects of which `get` returns the same have the same canonical form. -/
theorem canon_obj_eq_of_get {xs ys : Members} (hx : (xs.map (·.1)).Nodup)
    (hy : (ys.map (·.1)).Nodup) (hxs : ∀ m ∈ xs, m.2.isUndefined = false)
    (hys : ∀ m ∈ ys, m.2.isUndefined = false)
    (h : ∀ key, ((JsValue.obj xs).get key).canon = ((JsValue.obj ys).get key).canon) :
    (JsValue.obj xs).canon = (JsValue.obj ys).canon := by
  refine JsValue.canon_obj_eq hx hy fun key => ?_
  have hundefined := congrArg JsValue.isUndefined (h key)
  rw [isUndefined_canon, isUndefined_canon] at hundefined
  rw [lookup_eq_of_get hxs, lookup_eq_of_get hys, hundefined]
  split_ifs
  · rfl
  · rw [Option.map_some, Option.map_some, h]

theorem get_plainSchema (v : JsValue) (key : JsString) :
    (plainSchema v).get key = if key = js "fields" then plainFields (v.get key) else v.get key := by
  cases v with
  | obj members =>
      rw [plainSchema, JsValue.get_obj, JsValue.get_obj,
        JsValue.lookup_map_values fun key v => if key = js "fields" then plainFields v else v]
      cases members.lookup key with
      | some v => rfl
      | none => split_ifs <;> rfl
  | _ => split_ifs <;> rfl

theorem isUndefined_plainFields (v : JsValue) :
    (plainFields v).isUndefined = v.isUndefined := by
  cases v <;> rfl

theorem isUndefined_of_isJson {v : JsValue} (h : v.isJson = true) : v.isUndefined = false := by
  cases v with
  | undefined => cases h
  | _ => rfl

theorem get_of_relationOf {v : JsValue} {uid : Option JsString} (h : relationOf v = some uid) :
    v = (uid.map JsValue.str).getD .undefined := by
  cases v with
  | undefined =>
      obtain rfl : none = uid := Option.some.inj h
      rfl
  | str s =>
      rw [relationOf] at h
      split_ifs at h
      obtain rfl : some s = uid := Option.some.inj h
      rfl
  | _ => cases h

/-- The object of a definition has the properties of a schema and no others. -/
theorem get_toJs_eq_undefined (d : SchemaDefinition) {key : JsString} (h : key ∉ schemaProperties) :
    d.toJs.get key = .undefined := by
  have honly : hasOnly (([(js "xcsVersion", JsValue.str (js "0.1")), (js "name", .str d.name),
      (js "description", .str d.description), (js "fields", fieldsJs d.fields)] : Members)
        ++ relationMember (js "extends") d.parent
        ++ relationMember (js "supersedes") d.supersedes) schemaProperties = true := by
    cases d.parent <;> cases d.supersedes <;> rfl
  rw [SchemaDefinition.toJs, JsValue.get_obj, lookup_eq_none_of_hasOnly honly h]
  rfl

/-- What `get` returns of a definition that was read from a value. -/
theorem Spells.get_toJs {v : JsValue} {d : SchemaDefinition} (h : Spells v d)
    (hjson : v.isJson = true) (hkeys : v.distinctKeys = true) (key : JsString) :
    (d.toJs.get key).canon = ((plainSchema v).get key).canon := by
  obtain ⟨hversion, hname, hdescription, hfields, hextends, hsupersedes⟩ := d.get_toJs
  rw [get_plainSchema]
  by_cases hkey : key ∈ schemaProperties
  · simp only [schemaProperties, List.mem_cons, List.not_mem_nil, or_false] at hkey
    rcases hkey with rfl | rfl | rfl | rfl | rfl | rfl
    · rw [if_neg (by decide), hversion, h.version]
    · rw [if_neg (by decide), hname, (textOf_eq_some.mp h.name).1]
    · rw [if_neg (by decide), hdescription, (textOf_eq_some.mp h.description).1]
    · rw [if_neg (by decide), hextends, ← get_of_relationOf h.parent]
    · rw [if_neg (by decide), hsupersedes, ← get_of_relationOf h.supersedes]
    · rw [if_pos rfl, hfields]
      obtain ⟨entries, -, hlisted, hread, -, hdescribes⟩ := h.fields
      have hlistedKeys := JsValue.distinctKeys_get hkeys (js "fields")
      obtain ⟨members, rfl, -⟩ := h.object
      have hfound := lookup_of_get hlisted rfl
      rw [JsValue.distinctKeys_obj, Bool.and_eq_true, decide_eq_true_eq] at hkeys
      rw [JsValue.isJson_obj, List.all_eq_true] at hjson
      have hlistedJson := hjson _ ((JsValue.lookup_eq_some_iff_mem hkeys.1).mp hfound)
      rw [hread, hlisted]
      refine canon_fieldsMembers fun e he => (hdescribes e he).toJs_canon ?_ ?_
      · rw [entriesJs, JsValue.isJson_obj, List.all_map, List.all_eq_true] at hlistedJson
        exact hlistedJson e he
      · rw [hlisted, entriesJs, JsValue.distinctKeys_obj, Bool.and_eq_true, List.all_map,
          List.all_eq_true] at hlistedKeys
        exact hlistedKeys.2 e he
  · obtain ⟨members, rfl, honly⟩ := h.object
    rw [get_toJs_eq_undefined d hkey, JsValue.get_obj, lookup_eq_none_of_hasOnly honly hkey,
      Option.getD_none]
    split_ifs <;> rfl

/-- **The normal form.**  The definition that is read from a value is the value in plain form, up to
the order of members. -/
theorem toJs_canon_plainSchema {v : JsValue} {d : SchemaDefinition} (h : parseSchema v = .ok d)
    (hjson : v.isJson = true) (hkeys : v.distinctKeys = true) :
    d.toJs.canon = (plainSchema v).canon := by
  have hspells := (parseSchema_iff.mp h).1
  have hget := hspells.get_toJs hjson hkeys
  obtain ⟨-, hdistinct⟩ := distinctKeys_of_parseSchema hkeys h
  have hwritten := d.isJson_toJs
  obtain ⟨members, rfl, -⟩ := hspells.object
  rw [JsValue.distinctKeys_obj, Bool.and_eq_true, decide_eq_true_eq] at hkeys
  rw [JsValue.isJson_obj, List.all_eq_true] at hjson
  rw [SchemaDefinition.toJs] at hget hdistinct hwritten ⊢
  rw [JsValue.distinctKeys_obj, Bool.and_eq_true, decide_eq_true_eq] at hdistinct
  rw [JsValue.isJson_obj, List.all_eq_true] at hwritten
  rw [plainSchema] at hget ⊢
  refine canon_obj_eq_of_get hdistinct.1 ?_ (fun m hm => isUndefined_of_isJson (hwritten m hm)) ?_
    hget
  · rw [List.map_map]
    exact hkeys.1
  · rw [List.forall_mem_map]
    intro m hm
    have hm' := isUndefined_of_isJson (hjson m hm)
    show (if m.1 = js "fields" then plainFields m.2 else m.2).isUndefined = false
    split_ifs
    · rwa [isUndefined_plainFields]
    · exact hm'

/-! ## Two spellings of one schema -/

/-- Two values that differ in the order of members and in explicit `optional: false` only. -/
def SameSchema (v w : JsValue) : Prop :=
  (plainSchema v).canon = (plainSchema w).canon

theorem SameSchema.symm {v w : JsValue} (h : SameSchema v w) : SameSchema w v :=
  Eq.symm h

theorem hasOnly_map_values (f : JsString → JsValue → JsValue) (members : Members)
    (allowed : List JsString) :
    hasOnly (members.map fun m => (m.1, f m.1 m.2)) allowed = hasOnly members allowed := by
  rw [hasOnly, hasOnly, List.all_map]
  rfl

/-- The parser reads the plain form of a value as it reads the value. -/
theorem definitionOf_plainSchema {v : JsValue} (hkeys : v.distinctKeys = true) :
    definitionOf (plainSchema v) = definitionOf v := by
  cases v with
  | obj members =>
      have hget := get_plainSchema (.obj members)
      have hfields := fieldsOf_plainFields (descriptorOf_plain (maxSchemaDepth - 1))
        (JsValue.distinctKeys_get hkeys (js "fields"))
      rw [plainSchema] at hget ⊢
      rw [definitionOf, definitionOf,
        hasOnly_map_values fun key v => if key = js "fields" then plainFields v else v]
      rw [hget, hget, hget, hget, hget, hget, if_neg (by decide), if_neg (by decide),
        if_neg (by decide), if_neg (by decide), if_neg (by decide), if_pos rfl, hfields]
  | _ => rfl

theorem parseSchema_plainSchema {v : JsValue} (hkeys : v.distinctKeys = true)
    {d : SchemaDefinition} : parseSchema (plainSchema v) = .ok d ↔ parseSchema v = .ok d := by
  rw [parseSchema_eq_ok, parseSchema_eq_ok, definitionOf_plainSchema hkeys]

/-- Two spellings of a schema are read alike, up to the order of fields. -/
theorem SameSchema.parseSchema {v w : JsValue} (h : SameSchema v w)
    (hv : v.distinctKeys = true) (hw : w.distinctKeys = true) {d : SchemaDefinition}
    (hd : Core.parseSchema v = .ok d) : ∃ d', Core.parseSchema w = .ok d' ∧ d'.canon = d.canon := by
  obtain ⟨d', hd', hcanon⟩ := parseSchema_congr h ((parseSchema_plainSchema hv).mpr hd)
  exact ⟨d', (parseSchema_plainSchema hw).mp hd', hcanon⟩

theorem encodeSchema_eq_ok {P : Platform} {v : JsValue} {bytes : List UInt8} :
    encodeSchema P v = .ok bytes ↔ ∃ d, parseSchema v = .ok d ∧ isWritable P d.toJs = true ∧
      bytes = encodeUtf8 (canonicalText d.toJs) := by
  simp only [encodeSchema, encodeCanonicalJson, bind_eq_ok, canonicalJson_eq_ok, pure_eq_ok']
  constructor
  · rintro ⟨d, hd, _, ⟨hwritable, rfl⟩, rfl⟩
    exact ⟨d, hd, hwritable, rfl⟩
  · rintro ⟨d, hd, hwritable, rfl⟩
    exact ⟨d, hd, _, ⟨hwritable, rfl⟩, rfl⟩

/-- Two spellings of a schema have the same encoding. -/
theorem SameSchema.encodeSchema {P : Platform} {v w : JsValue} (h : SameSchema v w)
    (hv : v.distinctKeys = true) (hw : w.distinctKeys = true) {bytes : List UInt8}
    (hbytes : Core.encodeSchema P v = .ok bytes) : Core.encodeSchema P w = .ok bytes := by
  obtain ⟨d, hd, hwritable, rfl⟩ := encodeSchema_eq_ok.mp hbytes
  obtain ⟨d', hd', hcanon⟩ := h.parseSchema hv hw hd
  have htoJs :=
    (canon_toJs_eq_iff (isValid_of_parseSchema hd') (isValid_of_parseSchema hd)).mpr hcanon
  refine encodeSchema_eq_ok.mpr ⟨d', hd', ?_, ?_⟩
  · rwa [← isWritable_canon, htoJs, isWritable_canon]
  · rw [canonicalText_eq_of_canon_eq htoJs]

/-- Definitions that differ in the order of fields have the same UID. -/
theorem computeSchemaUid_congr {P : Platform} {input : SchemaUidInput} {d d' : SchemaDefinition}
    (hd : d.isValid = true) (hd' : d'.isValid = true) (h : d.canon = d'.canon) {uid : JsString}
    (huid : computeSchemaUid P { input with schema := d } = .ok uid) :
    computeSchemaUid P { input with schema := d' } = .ok uid := by
  have htoJs := (canon_toJs_eq_iff hd hd').mpr h
  have hpreimage : (uidPreimage { input with schema := d } d).canon
      = (uidPreimage { input with schema := d' } d').canon := canon_uidPreimage rfl rfl htoJs
  have hsame : schemaUid P { input with schema := d } = schemaUid P { input with schema := d' } :=
    schemaUid_congr P rfl rfl htoJs
  have hread := @computeSchemaUid_eq_ok P { input with schema := d } hd uid
  have hread' := @computeSchemaUid_eq_ok P { input with schema := d' } hd' uid
  obtain ⟨hinput, hwritable, hvalue⟩ := hread.mp huid
  have hwritable' : isWritable P (uidPreimage { input with schema := d' } d') = true := by
    rw [← isWritable_canon] at hwritable ⊢
    rwa [← hpreimage]
  exact hread'.mpr ⟨hinput, hwritable', hvalue.trans hsame⟩

/-- **What is written is read back**, up to the order of fields. -/
theorem parseSchemaBytes_of_encodeSchema {P : Platform} {v : JsValue}
    (hkeys : v.distinctKeys = true) {d : SchemaDefinition} (hd : parseSchema v = .ok d)
    (hwritable : isWritable P d.toJs = true) :
    ∃ d', parseSchemaBytes P (encodeUtf8 (canonicalText d.toJs)) = .ok d' ∧
      d'.canon = d.canon := by
  have hvalid := isValid_of_parseSchema hd
  have hdistinct := (distinctKeys_of_parseSchema hkeys hd).2
  have hstrings : d.toJs.allStrings isAccepted = true := by
    rw [isWritable, Bool.and_eq_true, Bool.and_eq_true] at hwritable
    exact hwritable.1.2
  obtain ⟨w, hw, hcanon⟩ := parseJson_canonicalText d.isJson_toJs hdistinct hstrings
  obtain ⟨d', hd', heq⟩ := parseSchema_congr hcanon.symm (parseSchema_toJs hvalid)
  refine ⟨d', parseSchemaBytes_eq_ok.mpr ⟨_, w, decodeUtf8_canonicalText _, hw, ?_,
    canonicalText_eq_of_canon_eq hcanon, hd'⟩, heq⟩
  rwa [← isWritable_canon, hcanon, isWritable_canon]

/-! ## Unknown properties -/

/-- The properties a descriptor of the type of the value may have. -/
def descriptorProperties (v : JsValue) : List JsString :=
  if (v.get (js "type")).isStr (js "array") then [js "type", js "optional", js "items"]
  else if (v.get (js "type")).isStr (js "object") then [js "type", js "optional", js "fields"]
  else [js "type", js "optional"]

/-- The object stands where a description of a descriptor expects a descriptor, at some level. -/
inductive OccursIn (props : Members) : JsValue → Prop
  | here : OccursIn props (.obj props)
  | items {members : Members} (h : OccursIn props ((JsValue.obj members).get (js "items"))) :
      OccursIn props (.obj members)
  | field {members fields : Members} {m : JsString × JsValue}
      (listed : (JsValue.obj members).get (js "fields") = .obj fields) (hm : m ∈ fields)
      (h : OccursIn props m.2) : OccursIn props (.obj members)

theorem hasOnly_mono {members : Members} {allowed others : List JsString}
    (h : hasOnly members allowed = true) (hsub : allowed ⊆ others) :
    hasOnly members others = true := by
  rw [hasOnly, List.all_eq_true] at h ⊢
  exact fun m hm => decide_eq_true (hsub (of_decide_eq_true (h m hm)))

/-- The descriptors in what is described have the properties of their types only. -/
theorem Describes.hasOnly_of_occursIn {v : JsValue} {d : FieldDescriptor} (h : Describes v d)
    {props : Members} (hoccurs : OccursIn props v) :
    hasOnly props (descriptorProperties (.obj props)) = true := by
  induction hoccurs generalizing d with
  | here =>
      cases h with
      | scalar honly =>
          refine hasOnly_mono honly ?_
          rw [descriptorProperties]
          split_ifs <;> simp
      | array honly htype => rwa [descriptorProperties, if_pos (JsValue.isStr_iff.mpr htype)]
      | object honly htype =>
          rwa [descriptorProperties, htype, if_neg (by decide), if_pos (by decide)]
  | items hinner ih =>
      cases h with
      | scalar honly =>
          rw [JsValue.get_obj, lookup_eq_none_of_hasOnly honly (by decide)] at hinner
          cases hinner
      | array _ _ _ hitems => exact ih hitems
      | object honly =>
          rw [JsValue.get_obj, lookup_eq_none_of_hasOnly honly (by decide)] at hinner
          cases hinner
  | field hlisted hm _ ih =>
      cases h with
      | scalar honly =>
          rw [JsValue.get_obj, lookup_eq_none_of_hasOnly honly (by decide)] at hlisted
          cases hlisted
      | array honly =>
          rw [JsValue.get_obj, lookup_eq_none_of_hasOnly honly (by decide)] at hlisted
          cases hlisted
      | object _ _ _ hentries _ _ hdescribes =>
          rw [hentries, entriesJs, JsValue.obj.injEq] at hlisted
          rw [← hlisted] at hm
          obtain ⟨e, he, rfl⟩ := List.mem_map.mp hm
          exact ih (hdescribes e he)

/-- The value has a property the parser does not know, at the level of the schema or of one of its
descriptors. -/
def HasUnknownProperty (v : JsValue) : Prop :=
  (∃ members, v = .obj members ∧ hasOnly members schemaProperties = false) ∨
    ∃ fields name w props, v.get (js "fields") = .obj fields ∧ (name, w) ∈ fields ∧
      OccursIn props w ∧ hasOnly props (descriptorProperties (.obj props)) = false

/-- A value with an unknown property is rejected. -/
theorem parseSchema_ne_ok_of_hasUnknownProperty {v : JsValue} (h : HasUnknownProperty v)
    (d : SchemaDefinition) : parseSchema v ≠ .ok d := by
  intro hd
  have hspells := (parseSchema_iff.mp hd).1
  rcases h with ⟨members, rfl, honly⟩ | ⟨fields, name, w, props, hfields, hw, hoccurs, honly⟩
  · obtain ⟨_, hmembers, honly'⟩ := hspells.object
    rw [← JsValue.obj.inj hmembers, honly] at honly'
    cases honly'
  · obtain ⟨entries, -, hlisted, -, -, hdescribes⟩ := hspells.fields
    rw [hlisted, entriesJs, JsValue.obj.injEq] at hfields
    rw [← hfields] at hw
    obtain ⟨e, he, heq⟩ := List.mem_map.mp hw
    obtain ⟨-, rfl⟩ := Prod.mk.inj heq
    rw [(hdescribes e he).hasOnly_of_occursIn hoccurs] at honly
    cases honly

/-! ## The normal form -/

/-- **The normal form of a schema.**  Parsing is idempotent; an encoded schema is read back as it
was parsed, up to the order of its fields, when the serialiser has a text for it; two spellings of a
schema are accepted alike and have the same encoding, the same UID preimage and the same UID; a
definition that was read from bytes is encoded as these bytes without the explicit
`optional: false`; and a value with an unknown property at any level is rejected. -/
theorem schema_normal_form (P : Platform) :
    (∀ v d, parseSchema v = .ok d → parseSchema d.toJs = .ok d) ∧
    (∀ v d, v.distinctKeys = true → parseSchema v = .ok d → isWritable P d.toJs = true →
      ∃ bytes d', encodeSchema P v = .ok bytes ∧ parseSchemaBytes P bytes = .ok d' ∧
        d'.canon = d.canon) ∧
    (∀ v w, v.distinctKeys = true → w.distinctKeys = true → SameSchema v w →
      (∀ bytes, encodeSchema P v = .ok bytes ↔ encodeSchema P w = .ok bytes) ∧
      ∀ d, parseSchema v = .ok d → ∃ d', parseSchema w = .ok d' ∧ d'.canon = d.canon ∧
        ∀ input : SchemaUidInput,
          canonicalText (uidPreimage input d) = canonicalText (uidPreimage input d') ∧
          ∀ uid, computeSchemaUid P { input with schema := d } = .ok uid ↔
            computeSchemaUid P { input with schema := d' } = .ok uid) ∧
    (∀ bytes d, parseSchemaBytes P bytes = .ok d →
      ∃ v, v.isJson = true ∧ v.distinctKeys = true ∧ bytes = encodeUtf8 (canonicalText v) ∧
        parseSchema v = .ok d ∧
        encodeSchema P d.toJs = .ok (encodeUtf8 (canonicalText (plainSchema v)))) ∧
    ∀ v, HasUnknownProperty v → ∀ d, parseSchema v ≠ .ok d := by
  refine ⟨fun v d h => parseSchema_toJs (isValid_of_parseSchema h), ?_, ?_, ?_,
    fun v h d => parseSchema_ne_ok_of_hasUnknownProperty h d⟩
  · intro v d hkeys hd hwritable
    obtain ⟨d', hd', hcanon⟩ := parseSchemaBytes_of_encodeSchema hkeys hd hwritable
    exact ⟨_, d', encodeSchema_eq_ok.mpr ⟨d, hd, hwritable, rfl⟩, hd', hcanon⟩
  · intro v w hv hw hsame
    refine ⟨fun bytes => ⟨hsame.encodeSchema hv hw, hsame.symm.encodeSchema hw hv⟩, ?_⟩
    intro d hd
    obtain ⟨d', hd', hcanon⟩ := hsame.parseSchema hv hw hd
    have hvalid := isValid_of_parseSchema hd
    have hvalid' := isValid_of_parseSchema hd'
    refine ⟨d', hd', hcanon, fun input => ⟨?_, fun uid =>
      ⟨computeSchemaUid_congr hvalid hvalid' hcanon.symm,
        computeSchemaUid_congr hvalid' hvalid hcanon⟩⟩⟩
    exact canonicalText_eq_of_canon_eq (canon_uidPreimage rfl rfl
      ((canon_toJs_eq_iff hvalid hvalid').mpr hcanon.symm))
  · intro bytes d h
    obtain ⟨text, v, hdecode, hparse, hwritable, rfl, hd⟩ := parseSchemaBytes_eq_ok.mp h
    obtain ⟨hjson, hkeys, -⟩ := parseJson_distinctKeys hparse
    refine ⟨v, hjson, hkeys, (decodeUtf8_eq_some hdecode).2.symm, hd, encodeSchema_eq_ok.mpr
      ⟨d, parseSchema_toJs (isValid_of_parseSchema hd), ?_, ?_⟩⟩
    · exact isWritable_toJs_of_parseSchema hd hwritable
    · rw [canonicalText_eq_of_canon_eq (toJs_canon_plainSchema hd hjson hkeys)]

end Core
end Xcs
