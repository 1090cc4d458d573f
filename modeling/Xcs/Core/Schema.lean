import Xcs.Core.Json

/-!
# Schema definitions

`parseSchema` reads a schema definition from a JSON value.  A definition has fields, and a field
descriptor is a scalar, an array of one item descriptor, or an object with fields of its own, nested
at most sixteen deep and with at most 256 descriptors in all.

The parser throws with the path of what it refuses and counts descriptors as it goes.  Neither the
paths nor the moment at which the count is checked matter for what it accepts, and `definitionOf` is
the same reading without them.

`SchemaForm` proves the following.

* `parseSchema_eq_ok` says that `parseSchema` returns exactly what `definitionOf` reads, as long as
  the definition has no more than 256 descriptors by `countSchemaFields`.
* `parseSchema_toJs` says that parsing the output of the parser gives it back.
* `parseSchema_congr` says that the order of members decides about the order of fields only.
-/

namespace Xcs
namespace Core

open Js Json

/-! ## Descriptors -/

/-- `ScalarFieldType` -/
inductive ScalarFieldType where
  | string
  | bool
  | uint
  | int
  | bytes
  | address
  deriving DecidableEq

/-- The text of a scalar type. -/
def ScalarFieldType.text : ScalarFieldType → JsString
  | .string => js "string"
  | .bool => js "bool"
  | .uint => js "uint"
  | .int => js "int"
  | .bytes => js "bytes"
  | .address => js "address"

/-- `SCALAR_TYPES` -/
def scalarTypes : List ScalarFieldType :=
  [.string, .bool, .uint, .int, .bytes, .address]

/-- The scalar type of a text in `SCALAR_TYPES`. -/
def ScalarFieldType.ofText (text : JsString) : Option ScalarFieldType :=
  scalarTypes.find? fun type => type.text == text

@[simp] theorem ScalarFieldType.ofText_text (type : ScalarFieldType) :
    ScalarFieldType.ofText type.text = some type := by
  cases type <;> decide

@[simp] theorem ScalarFieldType.ofText_array : ScalarFieldType.ofText (js "array") = none := by
  decide

@[simp] theorem ScalarFieldType.ofText_object : ScalarFieldType.ofText (js "object") = none := by
  decide

theorem ScalarFieldType.text_of_ofText {text : JsString} {type : ScalarFieldType}
    (h : ScalarFieldType.ofText text = some type) : type.text = text := by
  have hfound := List.find?_some h
  exact eq_of_beq hfound

/-- `FieldDescriptor` -/
inductive FieldDescriptor where
  | scalar (type : ScalarFieldType) (optional : Bool)
  | array (items : FieldDescriptor) (optional : Bool)
  | object (fields : List (JsString × FieldDescriptor)) (optional : Bool)

section Induction

variable {P : FieldDescriptor → Prop} (scalar : ∀ type optional, P (.scalar type optional))
  (array : ∀ items optional, P items → P (.array items optional))
  (object : ∀ fields optional, (∀ m ∈ fields, P m.2) → P (.object fields optional))

include scalar array object

/-- Induction over descriptors, with the fields of an object all at once. -/
theorem FieldDescriptor.induct : ∀ field : FieldDescriptor, P field :=
  @FieldDescriptor.rec P (fun fields => ∀ m ∈ fields, P m.2) (fun m => P m.2)
    scalar (fun items optional h => array items optional h)
    (fun fields optional h => object fields optional h)
    (fun _ h => absurd h List.not_mem_nil)
    (fun _ _ hm hfields => List.forall_mem_cons.mpr ⟨hm, hfields⟩)
    (fun _ _ h => h)

end Induction

/-- `SchemaFields`: the fields of an object in property order. -/
abbrev SchemaFields := List (JsString × FieldDescriptor)

/-- `SchemaDefinition`; `extends` is `parent`. -/
structure SchemaDefinition where
  name : JsString
  description : JsString
  fields : SchemaFields
  parent : Option JsString
  supersedes : Option JsString

/-- `MAX_SCHEMA_DEPTH` -/
def maxSchemaDepth : ℕ := 16

/-- `MAX_SCHEMA_FIELDS` -/
def maxSchemaFields : ℕ := 256

/-! ## Parsing -/

/-- `/^[A-Za-z_][A-Za-z0-9_]{0,63}$/` -/
def isFieldName : JsString → Bool :=
  matchesIdentifier (fun u => isUpper u || isLower u || u == 0x5f)
    (fun u => isUpper u || isLower u || isDigit u || u == 0x5f) 63

/-- `[\u0000-\u001f\u007f-\u009f]` -/
def isControlCharacter (u : CodeUnit) : Bool :=
  u ≤ 0x1f || (0x7f ≤ u && u ≤ 0x9f)

/-- `fail` with the code `INVALID_SCHEMA`. -/
def invalidSchema {α : Type} (message path : JsString) : Except Thrown α :=
  failXcs .invalidSchema message path []

/-- `if (condition) fail('INVALID_SCHEMA', message, path)` -/
def rejectSchema (condition : Bool) (message path : JsString) : Except Thrown Unit :=
  if condition then invalidSchema message path else .ok ()

/-- `assertOnlyProperties` -/
def assertOnlyProperties (members : Members) (allowed : List JsString) (path : JsString) :
    Except Thrown Unit :=
  match members.find? fun m => decide (m.1 ∉ allowed) with
  | some m => invalidSchema (js "Unknown property " ++ m.1) (path ++ js "." ++ m.1)
  | none => .ok ()

/-- `Expected 1 to ${maxBytes} UTF-8 bytes` -/
def textLengthMessage (maxBytes : ℕ) : JsString :=
  js "Expected 1 to " ++ natToString maxBytes ++ js " UTF-8 bytes"

/-- `parseText` -/
def parseText (value : JsValue) (path : JsString) (maxBytes : ℕ) : Except Thrown JsString :=
  match value with
  | .str s => do
      rejectSchema (s.any isControlCharacter) (textLengthMessage maxBytes) path
      let length ← utf8ByteLength s
      rejectSchema (decide (length < 1 ∨ maxBytes < length)) (textLengthMessage maxBytes) path
      pure s
  | _ => invalidSchema (textLengthMessage maxBytes) path

/-- The `optional` of a descriptor. -/
def parseOptional (value : JsValue) (path : JsString) : Except Thrown Bool :=
  match value with
  | .undefined => .ok false
  | .bool b => .ok b
  | _ => invalidSchema (js "optional must be a boolean") (path ++ js ".optional")

/-- `assertFieldLimit` -/
def assertFieldLimit (count : ℕ) (path : JsString) : Except Thrown Unit :=
  rejectSchema (decide (count > maxSchemaFields)) (js "Schema exceeds 256 field descriptors") path

/-- A parser of descriptors: the value, its path and the number of descriptors counted so far. -/
abbrev DescriptorParser := JsValue → JsString → ℕ → Except Thrown (FieldDescriptor × ℕ)

/-- The loop of `parseFields`. -/
def parseFieldMembers (descriptor : DescriptorParser) (path : JsString) :
    Members → ℕ → Except Thrown (SchemaFields × ℕ)
  | [], count => .ok ([], count)
  | (name, value) :: members, count => do
      rejectSchema (!isFieldName name) (js "Invalid field name") (path ++ js "." ++ name)
      assertFieldLimit (count + 1) (path ++ js "." ++ name)
      let (field, count) ← descriptor value (path ++ js "." ++ name) (count + 1)
      let (fields, count) ← parseFieldMembers descriptor path members count
      pure ((name, field) :: fields, count)

/-- `parseFields` -/
def parseFields (descriptor : DescriptorParser) (input : JsValue) (path : JsString) (count : ℕ) :
    Except Thrown (SchemaFields × ℕ) :=
  match input with
  | .obj (m :: members) => parseFieldMembers descriptor path (m :: members) count
  | _ => invalidSchema (js "fields must be a non-empty object") path

/-- The members of an object whose `type` is a string, and that string. -/
def typedRecord : JsValue → Option (Members × JsString)
  | .obj members =>
      match (JsValue.obj members).get (js "type") with
      | .str type => some (members, type)
      | _ => none
  | _ => none

/-- The array branch of `parseDescriptor`. -/
def parseArrayDescriptor (nested : Option DescriptorParser) (items : JsValue) (optional : Bool) :
    JsString → ℕ → Except Thrown (FieldDescriptor × ℕ) := fun path count =>
  match nested, items.isUndefined with
  | some nested, false => do
      assertFieldLimit (count + 1) (path ++ js ".items")
      let (items, count) ← nested items (path ++ js ".items") (count + 1)
      pure (.array items optional, count)
  | _, _ => invalidSchema (js "Array descriptor is missing items or exceeds depth") path

/-- The object branch of `parseDescriptor`. -/
def parseObjectDescriptor (nested : Option DescriptorParser) (fields : JsValue) (optional : Bool) :
    JsString → ℕ → Except Thrown (FieldDescriptor × ℕ) := fun path count =>
  match nested with
  | some nested => do
      let (fields, count) ← parseFields nested fields (path ++ js ".fields") count
      pure (.object fields optional, count)
  | none => invalidSchema (js "Schema nesting exceeds 16") path

/-- The body of `parseDescriptor`; `nested` parses the descriptors inside this one and is absent
where the depth has reached `MAX_SCHEMA_DEPTH`. -/
def parseDescriptorWith (nested : Option DescriptorParser) : DescriptorParser :=
  fun input path count =>
    match typedRecord input with
    | none => invalidSchema (js "Field descriptor must contain a type") path
    | some (members, type) => do
        let optional ← parseOptional (input.get (js "optional")) path
        match ScalarFieldType.ofText type with
        | some scalar => do
            assertOnlyProperties members [js "type", js "optional"] path
            pure (.scalar scalar optional, count)
        | none =>
            if type = js "array" then do
              assertOnlyProperties members [js "type", js "optional", js "items"] path
              parseArrayDescriptor nested (input.get (js "items")) optional path count
            else if type = js "object" then do
              assertOnlyProperties members [js "type", js "optional", js "fields"] path
              parseObjectDescriptor nested (input.get (js "fields")) optional path count
            else invalidSchema (js "Unsupported field type " ++ type) (path ++ js ".type")

/-- `parseDescriptor`; the first argument is `MAX_SCHEMA_DEPTH - depth`. -/
def parseDescriptor : ℕ → DescriptorParser
  | 0 => parseDescriptorWith none
  | levels + 1 => parseDescriptorWith (some (parseDescriptor levels))

/-- `parseRelation` -/
def parseRelation (value : JsValue) (path : JsString) : Except Thrown (Option JsString) :=
  match value with
  | .undefined => .ok none
  | .str s =>
      if isLowerHash s then .ok (some s)
      else invalidSchema (js "Expected a lowercase 32-byte schema UID") path
  | _ => invalidSchema (js "Expected a lowercase 32-byte schema UID") path

/-- `SCHEMA_PROPERTIES` -/
def schemaProperties : List JsString :=
  [js "xcsVersion", js "name", js "description", js "extends", js "supersedes", js "fields"]

/-- `parseSchema` -/
def parseSchema (input : JsValue) : Except Thrown SchemaDefinition :=
  match input with
  | .obj members => do
      assertOnlyProperties members schemaProperties (js "$")
      rejectSchema (!(input.get (js "xcsVersion")).isStr (js "0.1"))
        (js "Unsupported XCS schema version") (js "$.xcsVersion")
      let parent ← parseRelation (input.get (js "extends")) (js "$.extends")
      let predecessor ← parseRelation (input.get (js "supersedes")) (js "$.supersedes")
      rejectSchema (parent.isSome && parent == predecessor)
        (js "extends and supersedes must reference different schemas") (js "$")
      let name ← parseText (input.get (js "name")) (js "$.name") 64
      let description ← parseText (input.get (js "description")) (js "$.description") 256
      let (fields, _) ← parseFields (parseDescriptor (maxSchemaDepth - 1))
        (input.get (js "fields")) (js "$.fields") 0
      pure { name, description, fields, parent, supersedes := predecessor }
  | _ => invalidSchema (js "Schema must be an object") (js "$")

/-- `parseSchemaBytes` -/
def parseSchemaBytes (P : Platform) (bytes : List UInt8) : Except Thrown SchemaDefinition := do
  let input ← parseCanonicalBytes P bytes
  parseSchema input

theorem parseSchemaBytes_eq_ok {P : Platform} {bytes : List UInt8} {d : SchemaDefinition} :
    parseSchemaBytes P bytes = .ok d ↔ ∃ text v, decodeUtf8 bytes = some text ∧
      parseJson text = .ok v ∧ isWritable P v = true ∧ canonicalText v = text ∧
        parseSchema v = .ok d := by
  simp only [parseSchemaBytes, bind_eq_ok, parseCanonicalBytes_eq_ok]
  constructor
  · rintro ⟨v, ⟨text, hdecode, hparse, hwritable, htext⟩, hd⟩
    exact ⟨text, v, hdecode, hparse, hwritable, htext, hd⟩
  · rintro ⟨text, v, hdecode, hparse, hwritable, htext, hd⟩
    exact ⟨v, ⟨text, hdecode, hparse, hwritable, htext⟩, hd⟩

/-! ## Values of definitions -/

/-- The `optional` member of a descriptor. -/
def optionalMember (optional : Bool) : Members :=
  if optional then [(js "optional", .bool true)] else []

mutual

/-- The object a descriptor is. -/
def FieldDescriptor.toJs : FieldDescriptor → JsValue
  | .scalar type optional => .obj ((js "type", .str type.text) :: optionalMember optional)
  | .array items optional =>
      .obj ((js "type", .str (js "array")) :: (js "items", items.toJs) :: optionalMember optional)
  | .object fields optional =>
      .obj ((js "type", .str (js "object")) :: (js "fields", .obj (fieldsMembers fields))
        :: optionalMember optional)

/-- The members of a fields object. -/
def fieldsMembers : SchemaFields → Members
  | [] => []
  | (name, field) :: fields => (name, field.toJs) :: fieldsMembers fields

end

/-- The object a fields record is. -/
def fieldsJs (fields : SchemaFields) : JsValue :=
  .obj (fieldsMembers fields)

/-- A member for a relation that is present. -/
def relationMember (key : JsString) : Option JsString → Members
  | none => []
  | some uid => [(key, .str uid)]

/-- The object a definition is. -/
def SchemaDefinition.toJs (d : SchemaDefinition) : JsValue :=
  .obj ([(js "xcsVersion", .str (js "0.1")), (js "name", .str d.name),
    (js "description", .str d.description), (js "fields", fieldsJs d.fields)]
      ++ relationMember (js "extends") d.parent ++ relationMember (js "supersedes") d.supersedes)

/-- `encodeSchema` -/
def encodeSchema (P : Platform) (schema : JsValue) : Except Thrown (List UInt8) := do
  let definition ← parseSchema schema
  encodeCanonicalJson P definition.toJs

theorem fieldsMembers_eq : ∀ fields : SchemaFields,
    fieldsMembers fields = fields.map fun m => (m.1, m.2.toJs)
  | [] => rfl
  | (name, field) :: fields => by rw [fieldsMembers, fieldsMembers_eq fields, List.map_cons]

/-! ## Counting -/

mutual

/-- What `countSchemaFields` adds for the inside of a descriptor. -/
def FieldDescriptor.nested : FieldDescriptor → ℕ
  | .scalar _ _ => 0
  | .array items _ => 1 + items.nested
  | .object fields _ => countSchemaFields fields

/-- `countSchemaFields` -/
def countSchemaFields : SchemaFields → ℕ
  | [] => 0
  | (_, field) :: fields => 1 + field.nested + countSchemaFields fields

end

end Core
end Xcs
