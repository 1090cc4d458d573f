import Xcs.Core.Schema

/-!
# What the schema parser reads

The parser of `Xcs.Core.Schema` without paths and counts, and the facts about definitions that
follow from it: what a parsed definition looks like, that it parses to itself, and that the order of
object members decides about the order of its fields only.
-/

namespace Xcs
namespace Core

open Js Json

/-! ## Reading without paths -/

/-- All values of a list of members, when every one is there. -/
def sequenceMembers {α : Type} : List (JsString × Option α) → Option (List (JsString × α))
  | [] => some []
  | (_, none) :: _ => none
  | (key, some a) :: members => (sequenceMembers members).map ((key, a) :: ·)

theorem sequenceMembers_eq_some {α : Type} : ∀ {xs : List (JsString × Option α)}
    {ys : List (JsString × α)},
    sequenceMembers xs = some ys ↔ xs = ys.map fun m => (m.1, some m.2)
  | [], [] => by simp [sequenceMembers]
  | [], _ :: _ => by simp [sequenceMembers]
  | (key, none) :: xs, ys => by cases ys <;> simp [sequenceMembers]
  | (key, some a) :: xs, [] => by simp [sequenceMembers]
  | (key, some a) :: xs, (key', b) :: ys => by
      have ih := @sequenceMembers_eq_some α xs ys
      simp only [sequenceMembers, Option.map_eq_some_iff, List.cons.injEq, Prod.mk.injEq,
        List.map_cons, Option.some.injEq]
      constructor
      · rintro ⟨zs, hzs, ⟨rfl, rfl⟩, rfl⟩
        exact ⟨⟨rfl, rfl⟩, ih.mp hzs⟩
      · rintro ⟨⟨rfl, rfl⟩, hxs⟩
        exact ⟨ys, ih.mpr hxs, ⟨rfl, rfl⟩, rfl⟩

/-- Collecting the values commutes with sorting the members. -/
theorem sequenceMembers_sortMembers {α : Type} (xs : List (JsString × Option α)) :
    sequenceMembers (sortMembers xs) = (sequenceMembers xs).map sortMembers := by
  cases hxs : sequenceMembers xs with
  | some ys =>
      rw [sequenceMembers_eq_some] at hxs
      rw [Option.map_some, sequenceMembers_eq_some, hxs, sortMembers_map]
  | none =>
      cases hsort : sequenceMembers (sortMembers xs) with
      | none => rfl
      | some zs =>
          exfalso
          rw [sequenceMembers_eq_some] at hsort
          have hall : ∀ m ∈ xs, m.2.isSome = true := by
            intro m hm
            rw [← mem_sortMembers, hsort, List.mem_map] at hm
            obtain ⟨n, -, rfl⟩ := hm
            rfl
          have hsome : ∃ ys, sequenceMembers xs = some ys := by
            clear hxs hsort
            induction xs with
            | nil => exact ⟨[], rfl⟩
            | cons x xs ih =>
                obtain ⟨key, o⟩ := x
                obtain ⟨a, rfl⟩ :=
                  Option.isSome_iff_exists.mp (hall (key, o) (List.mem_cons_self ..))
                obtain ⟨ys, hys⟩ := ih fun m hm => hall m (List.mem_cons_of_mem _ hm)
                exact ⟨(key, a) :: ys, by rw [sequenceMembers, hys]; rfl⟩
          obtain ⟨ys, hys⟩ := hsome
          rw [hxs] at hys
          cases hys

theorem sequenceMembers_map {α β : Type} (f : α → β) : ∀ xs : List (JsString × Option α),
    sequenceMembers (xs.map fun m => (m.1, m.2.map f))
      = (sequenceMembers xs).map fun ys => ys.map fun m => (m.1, f m.2)
  | [] => rfl
  | (key, none) :: xs => rfl
  | (key, some a) :: xs => by
      rw [List.map_cons, Option.map_some, sequenceMembers, sequenceMembers_map f xs,
        sequenceMembers]
      cases sequenceMembers xs <;> rfl

/-- A reading of descriptors. -/
abbrev DescriptorReader := JsValue → Option FieldDescriptor

/-- What the loop of `parseFields` reads. -/
def fieldMembersOf (descriptor : DescriptorReader) (members : Members) : Option SchemaFields :=
  sequenceMembers (members.map fun m => (m.1, if isFieldName m.1 then descriptor m.2 else none))

/-- What `parseFields` reads. -/
def fieldsOf (descriptor : DescriptorReader) : JsValue → Option SchemaFields
  | .obj members => if members.isEmpty then none else fieldMembersOf descriptor members
  | _ => none

/-- No member lies outside of a list of keys. -/
def hasOnly (members : Members) (allowed : List JsString) : Bool :=
  members.all fun m => decide (m.1 ∈ allowed)

/-- What the parser makes of the `optional` of a descriptor. -/
def optionalOf : JsValue → Option Bool
  | .undefined => some false
  | .bool b => some b
  | _ => none

/-- What the array branch reads. -/
def arrayOf (nested : Option DescriptorReader) (items : JsValue) (optional : Bool) :
    Option FieldDescriptor :=
  match nested, items.isUndefined with
  | some nested, false => (nested items).map fun items => .array items optional
  | _, _ => none

/-- What the object branch reads. -/
def objectOf (nested : Option DescriptorReader) (fields : JsValue) (optional : Bool) :
    Option FieldDescriptor :=
  match nested with
  | some nested => (fieldsOf nested fields).map fun fields => .object fields optional
  | none => none

/-- What `parseDescriptorWith` reads. -/
def descriptorOfWith (nested : Option DescriptorReader) : DescriptorReader := fun input =>
  match typedRecord input, optionalOf (input.get (js "optional")) with
  | some (members, type), some optional =>
      match ScalarFieldType.ofText type with
      | some scalar =>
          if hasOnly members [js "type", js "optional"] then some (.scalar scalar optional)
          else none
      | none =>
          if type = js "array" then
            if hasOnly members [js "type", js "optional", js "items"] then
              arrayOf nested (input.get (js "items")) optional
            else none
          else if type = js "object" then
            if hasOnly members [js "type", js "optional", js "fields"] then
              objectOf nested (input.get (js "fields")) optional
            else none
          else none
  | _, _ => none

/-- What `parseDescriptor` reads. -/
def descriptorOf : ℕ → DescriptorReader
  | 0 => descriptorOfWith none
  | levels + 1 => descriptorOfWith (some (descriptorOf levels))

/-- The texts `parseText` accepts. -/
def isText (maxBytes : ℕ) (s : JsString) : Bool :=
  !s.any isControlCharacter && isAccepted s
    && decide (1 ≤ (encodeUtf8 s).length ∧ (encodeUtf8 s).length ≤ maxBytes)

/-- What `parseText` reads. -/
def textOf (maxBytes : ℕ) : JsValue → Option JsString
  | .str s => if isText maxBytes s then some s else none
  | _ => none

/-- What `parseRelation` reads. -/
def relationOf : JsValue → Option (Option JsString)
  | .undefined => some none
  | .str s => if isLowerHash s then some (some s) else none
  | _ => none

/-- What `parseSchema` reads, before it limits the number of descriptors. -/
def definitionOf (input : JsValue) : Option SchemaDefinition :=
  match input with
  | .obj members => do
      guard (hasOnly members schemaProperties = true)
      guard ((input.get (js "xcsVersion")).isStr (js "0.1") = true)
      let parent ← relationOf (input.get (js "extends"))
      let supersedes ← relationOf (input.get (js "supersedes"))
      guard ((parent.isSome && parent == supersedes) = false)
      let name ← textOf 64 (input.get (js "name"))
      let description ← textOf 256 (input.get (js "description"))
      let fields ← fieldsOf (descriptorOf (maxSchemaDepth - 1)) (input.get (js "fields"))
      pure { name, description, fields, parent, supersedes }
  | _ => none

/-! ## The parser and the reading agree -/

/-- A parser of descriptors returns what a reader reads, unless the count passes the limit. -/
def Agrees (parser : DescriptorParser) (reader : DescriptorReader) : Prop :=
  ∀ input path count d n, count ≤ maxSchemaFields →
    (parser input path count = .ok (d, n) ↔
      reader input = some d ∧ n = count + d.nested ∧ n ≤ maxSchemaFields)

theorem rejectSchema_eq_ok {condition : Bool} {message path : JsString} {u : Unit} :
    rejectSchema condition message path = .ok u ↔ condition = false := by
  cases condition <;> simp [rejectSchema, invalidSchema, failXcs]

theorem assertOnlyProperties_eq_ok {members : Members} {allowed : List JsString}
    {path : JsString} {u : Unit} :
    assertOnlyProperties members allowed path = .ok u ↔ hasOnly members allowed = true := by
  rw [assertOnlyProperties, hasOnly, List.all_eq_true]
  cases h : members.find? fun m => decide (m.1 ∉ allowed) with
  | none => simpa using h
  | some m =>
      have hm := List.find?_some h
      have hmem := List.mem_of_find?_eq_some h
      simp only [invalidSchema, failXcs, reduceCtorEq, false_iff, not_forall]
      exact ⟨m, hmem, by simpa using hm⟩

theorem assertFieldLimit_eq_ok {count : ℕ} {path : JsString} {u : Unit} :
    assertFieldLimit count path = .ok u ↔ count ≤ maxSchemaFields := by
  rw [assertFieldLimit, rejectSchema_eq_ok, decide_eq_false_iff_not, not_lt]

theorem parseOptional_eq_ok {value : JsValue} {path : JsString} {b : Bool} :
    parseOptional value path = .ok b ↔ optionalOf value = some b := by
  cases value <;> simp [parseOptional, optionalOf, invalidSchema, failXcs]

theorem parseFieldMembers_eq_ok {parser : DescriptorParser} {reader : DescriptorReader}
    (h : Agrees parser reader) {path : JsString} {members : Members} {count n : ℕ}
    {fields : SchemaFields} (hcount : count ≤ maxSchemaFields) :
    parseFieldMembers parser path members count = .ok (fields, n) ↔
      fieldMembersOf reader members = some fields ∧ n = count + countSchemaFields fields ∧
        n ≤ maxSchemaFields := by
  induction members generalizing count fields n with
  | nil =>
      simp only [parseFieldMembers, fieldMembersOf, List.map_nil, sequenceMembers,
        Except.ok.injEq, Prod.mk.injEq, Option.some.injEq]
      constructor
      · rintro ⟨rfl, rfl⟩
        exact ⟨rfl, rfl, hcount⟩
      · rintro ⟨rfl, rfl, -⟩
        exact ⟨rfl, rfl⟩
  | cons m members ih =>
      obtain ⟨name, value⟩ := m
      by_cases hname : isFieldName name = true
      · simp only [parseFieldMembers, hname, Bool.not_true, rejectSchema_eq_ok, bind_eq_ok,
          assertFieldLimit_eq_ok, exists_const, pure_eq_ok, Prod.exists,
          Prod.mk.injEq, true_and]
        constructor
        · rintro ⟨hlimit, field, k, hfield, rest, k', hrest, rfl, rfl⟩
          obtain ⟨hread, rfl, hk⟩ := (h _ _ _ _ _ hlimit).mp hfield
          obtain ⟨hmembers, rfl, hk'⟩ := (ih hk).mp hrest
          refine ⟨?_, ?_, hk'⟩
          · rw [fieldMembersOf] at hmembers ⊢
            rw [List.map_cons, if_pos hname, hread, sequenceMembers, hmembers]
            rfl
          · rw [countSchemaFields]
            omega
        · rintro ⟨hread, rfl, hn⟩
          rw [fieldMembersOf, List.map_cons, if_pos hname] at hread
          cases hfield : reader value with
          | none =>
              rw [hfield, sequenceMembers] at hread
              cases hread
          | some field =>
              rw [hfield, sequenceMembers, Option.map_eq_some_iff] at hread
              obtain ⟨rest, hrest, rfl⟩ := hread
              rw [countSchemaFields] at hn ⊢
              have hlimit : count + 1 ≤ maxSchemaFields := by omega
              exact ⟨hlimit, field, count + 1 + field.nested,
                (h _ _ _ _ _ hlimit).mpr ⟨hfield, rfl, by omega⟩, rest, _,
                (ih (by omega)).mpr ⟨hrest, rfl, by omega⟩, rfl, by omega⟩
      · rw [Bool.not_eq_true] at hname
        simp [parseFieldMembers, hname, rejectSchema_eq_ok, fieldMembersOf, sequenceMembers]

theorem parseFields_eq_ok {parser : DescriptorParser} {reader : DescriptorReader}
    (h : Agrees parser reader) {input : JsValue} {path : JsString} {count n : ℕ}
    {fields : SchemaFields} (hcount : count ≤ maxSchemaFields) :
    parseFields parser input path count = .ok (fields, n) ↔
      fieldsOf reader input = some fields ∧ n = count + countSchemaFields fields ∧
        n ≤ maxSchemaFields := by
  cases input with
  | obj members =>
      cases members with
      | nil => simp [parseFields, fieldsOf, invalidSchema, failXcs]
      | cons m members => exact parseFieldMembers_eq_ok h hcount
  | _ => simp [parseFields, fieldsOf, invalidSchema, failXcs]

section Level

variable {parser : Option DescriptorParser} {reader : Option DescriptorReader}
  {path : JsString} {count n : ℕ} {d : FieldDescriptor} {optional : Bool}

theorem parseArrayDescriptor_eq_ok (h : Option.Rel Agrees parser reader) {items : JsValue}
    (hcount : count ≤ maxSchemaFields) :
    parseArrayDescriptor parser items optional path count = .ok (d, n) ↔
      arrayOf reader items optional = some d ∧ n = count + d.nested ∧ n ≤ maxSchemaFields := by
  cases h with
  | none => simp [parseArrayDescriptor, arrayOf, invalidSchema, failXcs]
  | some h =>
      rename_i p r
      cases hitems : items.isUndefined with
      | true => simp [parseArrayDescriptor, arrayOf, hitems, invalidSchema, failXcs]
      | false =>
          simp only [parseArrayDescriptor, arrayOf, hitems, bind_eq_ok, assertFieldLimit_eq_ok,
            exists_const, Prod.exists, pure_eq_ok, Prod.mk.injEq, Option.map_eq_some_iff]
          constructor
          · rintro ⟨hlimit, item, k, hitem, rfl, rfl⟩
            obtain ⟨hread, rfl, hk⟩ := (h _ _ _ _ _ hlimit).mp hitem
            refine ⟨⟨item, hread, rfl⟩, ?_, hk⟩
            rw [FieldDescriptor.nested]
            omega
          · rintro ⟨⟨item, hread, rfl⟩, rfl, hn⟩
            rw [FieldDescriptor.nested] at hn ⊢
            have hlimit : count + 1 ≤ maxSchemaFields := by omega
            exact ⟨hlimit, item, _, (h _ _ _ _ _ hlimit).mpr ⟨hread, rfl, by omega⟩, rfl,
              by omega⟩

theorem parseObjectDescriptor_eq_ok (h : Option.Rel Agrees parser reader) {fields : JsValue}
    (hcount : count ≤ maxSchemaFields) :
    parseObjectDescriptor parser fields optional path count = .ok (d, n) ↔
      objectOf reader fields optional = some d ∧ n = count + d.nested ∧ n ≤ maxSchemaFields := by
  cases h with
  | none => simp [parseObjectDescriptor, objectOf, invalidSchema, failXcs]
  | some h =>
      simp only [parseObjectDescriptor, objectOf, bind_eq_ok, Prod.exists, pure_eq_ok,
        Prod.mk.injEq, Option.map_eq_some_iff, parseFields_eq_ok h hcount]
      constructor
      · rintro ⟨fs, k, ⟨hread, rfl, hk⟩, rfl, rfl⟩
        exact ⟨⟨fs, hread, rfl⟩, by rw [FieldDescriptor.nested], hk⟩
      · rintro ⟨⟨fs, hread, rfl⟩, rfl, hn⟩
        rw [FieldDescriptor.nested] at hn ⊢
        exact ⟨fs, _, ⟨hread, rfl, hn⟩, rfl, rfl⟩

/-- One level of the parser agrees with one level of the reading. -/
theorem agrees_with (h : Option.Rel Agrees parser reader) :
    Agrees (parseDescriptorWith parser) (descriptorOfWith reader) := by
  intro input path count d n hcount
  rw [parseDescriptorWith, descriptorOfWith]
  cases hrecord : typedRecord input with
  | none => simp [invalidSchema, failXcs]
  | some record =>
      obtain ⟨members, type⟩ := record
      cases hoptional : optionalOf (input.get (js "optional")) with
      | none => simp [bind_eq_ok, parseOptional_eq_ok, hoptional]
      | some optional =>
          simp only [bind_eq_ok, parseOptional_eq_ok, hoptional, Option.some.injEq,
            exists_eq_left']
          cases ScalarFieldType.ofText type with
          | some scalar =>
              simp only [bind_eq_ok, assertOnlyProperties_eq_ok, exists_const, pure_eq_ok,
                Prod.mk.injEq, Option.ite_none_right_eq_some, Option.some.injEq]
              constructor
              · rintro ⟨honly, rfl, rfl⟩
                exact ⟨⟨honly, rfl⟩, rfl, hcount⟩
              · rintro ⟨⟨honly, rfl⟩, rfl, -⟩
                exact ⟨honly, rfl, rfl⟩
          | none =>
              dsimp only
              by_cases harray : type = js "array"
              · rw [if_pos harray, if_pos harray]
                simp only [bind_eq_ok, assertOnlyProperties_eq_ok, exists_const,
                  Option.ite_none_right_eq_some, and_assoc]
                exact and_congr_right fun _ => parseArrayDescriptor_eq_ok h hcount
              rw [if_neg harray, if_neg harray]
              by_cases hobject : type = js "object"
              · rw [if_pos hobject, if_pos hobject]
                simp only [bind_eq_ok, assertOnlyProperties_eq_ok, exists_const,
                  Option.ite_none_right_eq_some, and_assoc]
                exact and_congr_right fun _ => parseObjectDescriptor_eq_ok h hcount
              · rw [if_neg hobject, if_neg hobject]
                simp [invalidSchema, failXcs]

end Level

/-- The parser of descriptors agrees with the reading at every depth. -/
theorem parseDescriptor_agrees : ∀ levels, Agrees (parseDescriptor levels) (descriptorOf levels)
  | 0 => agrees_with .none
  | levels + 1 => agrees_with (.some (parseDescriptor_agrees levels))

theorem parseText_eq_ok {value : JsValue} {path : JsString} {maxBytes : ℕ} {s : JsString} :
    parseText value path maxBytes = .ok s ↔ textOf maxBytes value = some s := by
  cases value with
  | str t =>
      simp only [parseText, textOf, isText, bind_eq_ok, rejectSchema_eq_ok, exists_const,
        utf8ByteLength, assertWellFormed_eq_ok, pure_eq_ok, Bool.not_eq_true', Bool.and_eq_true,
        decide_eq_true_eq, decide_eq_false_iff_not, Option.ite_none_right_eq_some,
        Option.some.injEq]
      constructor
      · rintro ⟨hcontrol, length, ⟨haccepted, rfl⟩, hlength, rfl⟩
        exact ⟨⟨⟨hcontrol, haccepted⟩, by omega⟩, rfl⟩
      · rintro ⟨⟨⟨hcontrol, haccepted⟩, hlength⟩, rfl⟩
        exact ⟨hcontrol, _, ⟨haccepted, rfl⟩, by omega, rfl⟩
  | _ => simp [parseText, textOf, invalidSchema, failXcs]

theorem parseRelation_eq_ok {value : JsValue} {path : JsString} {uid : Option JsString} :
    parseRelation value path = .ok uid ↔ relationOf value = some uid := by
  cases value with
  | str s =>
      rw [parseRelation, relationOf]
      split_ifs <;> simp [invalidSchema, failXcs]
  | _ => simp [parseRelation, relationOf, invalidSchema, failXcs]

/-- **What the schema parser accepts.**  It returns what `definitionOf` reads, unless that has more
than 256 descriptors. -/
theorem parseSchema_eq_ok {input : JsValue} {d : SchemaDefinition} :
    parseSchema input = .ok d ↔
      definitionOf input = some d ∧ countSchemaFields d.fields ≤ maxSchemaFields := by
  cases input with
  | obj members =>
      have hfields := fun (fields : SchemaFields) (n : ℕ) =>
        @parseFields_eq_ok _ _ (parseDescriptor_agrees (maxSchemaDepth - 1))
          ((JsValue.obj members).get (js "fields")) (js "$.fields") 0 n fields
          (Nat.zero_le maxSchemaFields)
      simp only [parseSchema, definitionOf, bind_eq_ok, Option.bind_eq_bind,
        Option.bind_eq_some_iff, assertOnlyProperties_eq_ok, rejectSchema_eq_ok, exists_const,
        Bool.not_eq_false', parseRelation_eq_ok, parseText_eq_ok, Prod.exists, hfields,
        pure_eq_ok, Option.guard_eq_some', Option.pure_def, Option.some.injEq]
      constructor
      · rintro ⟨honly, hversion, parent, hparent, previous, hprevious, hdiffer, name, hname,
          description, hdescription, fields, n, ⟨hread, rfl, hn⟩, rfl⟩
        exact ⟨⟨honly, hversion, parent, hparent, previous, hprevious, hdiffer, name, hname,
          description, hdescription, fields, hread, rfl⟩, by simpa using hn⟩
      · rintro ⟨⟨honly, hversion, parent, hparent, previous, hprevious, hdiffer, name, hname,
          description, hdescription, fields, hread, rfl⟩, hn⟩
        exact ⟨honly, hversion, parent, hparent, previous, hprevious, hdiffer, name, hname,
          description, hdescription, fields, _, ⟨hread, rfl, by simpa using hn⟩, rfl⟩
  | _ => simp [parseSchema, definitionOf, invalidSchema, failXcs]

/-! ## The order of fields -/

mutual

/-- A descriptor with the fields of every object sorted by name. -/
def FieldDescriptor.canon : FieldDescriptor → FieldDescriptor
  | .scalar type optional => .scalar type optional
  | .array items optional => .array items.canon optional
  | .object fields optional => .object (sortMembers (canonEach fields)) optional

/-- The canonical forms of the descriptors of a fields record. -/
def canonEach : SchemaFields → SchemaFields
  | [] => []
  | (name, field) :: fields => (name, field.canon) :: canonEach fields

end

theorem canonEach_eq : ∀ fields : SchemaFields,
    canonEach fields = fields.map fun m => (m.1, m.2.canon)
  | [] => rfl
  | (name, field) :: fields => by rw [canonEach, canonEach_eq fields, List.map_cons]

/-- A fields record sorted by name at every level. -/
def canonFields (fields : SchemaFields) : SchemaFields :=
  sortMembers (fields.map fun m => (m.1, m.2.canon))

/-- A definition with its fields sorted. -/
def SchemaDefinition.canon (d : SchemaDefinition) : SchemaDefinition :=
  { d with fields := canonFields d.fields }

theorem countSchemaFields_eq_sum (fields : SchemaFields) :
    countSchemaFields fields = (fields.map fun m => 1 + m.2.nested).sum := by
  induction fields with
  | nil => rfl
  | cons m fields ih => rw [countSchemaFields, ih, List.map_cons, List.sum_cons]

/-- The number of descriptors does not depend on the order of fields. -/
theorem countSchemaFields_sortMembers (fields : SchemaFields) :
    countSchemaFields (sortMembers fields) = countSchemaFields fields := by
  rw [countSchemaFields_eq_sum, countSchemaFields_eq_sum]
  exact ((sortMembers_perm fields).map _).sum_eq

/-- A reading does not depend on the order of members, up to the order of fields. -/
def RespectsOrder (reader : DescriptorReader) : Prop :=
  ∀ v : JsValue, reader v.canon = (reader v).map FieldDescriptor.canon

theorem optionalOf_canon (v : JsValue) : optionalOf v.canon = optionalOf v := by
  cases v with
  | arr items => rw [JsValue.canon_arr]; rfl
  | obj members => rw [JsValue.canon_obj]; rfl
  | _ => rfl

theorem isUndefined_canon (v : JsValue) : v.canon.isUndefined = v.isUndefined := by
  cases v with
  | arr items => rw [JsValue.canon_arr]; rfl
  | obj members => rw [JsValue.canon_obj]; rfl
  | _ => rfl

theorem hasOnly_canon (members : Members) (allowed : List JsString) :
    hasOnly (sortMembers (members.map fun m => (m.1, m.2.canon))) allowed
      = hasOnly members allowed := by
  rw [hasOnly, (sortMembers_perm _).all_eq, List.all_map]
  rfl

theorem typedRecord_canon (v : JsValue) :
    typedRecord v.canon
      = (typedRecord v).map fun p => (sortMembers (p.1.map fun m => (m.1, m.2.canon)), p.2) := by
  cases v with
  | obj members =>
      have hget := JsValue.get_canon (.obj members) (js "type")
      rw [JsValue.canon_obj] at hget ⊢
      rw [typedRecord, typedRecord, hget]
      cases (JsValue.obj members).get (js "type") with
      | arr items => rw [JsValue.canon_arr]; rfl
      | obj members => rw [JsValue.canon_obj]; rfl
      | _ => rfl
  | arr items => rw [JsValue.canon_arr]; rfl
  | _ => rfl

theorem fieldsOf_canon {reader : DescriptorReader} (h : RespectsOrder reader) (v : JsValue) :
    fieldsOf reader v.canon = (fieldsOf reader v).map canonFields := by
  cases v with
  | obj members =>
      rw [JsValue.canon_obj, fieldsOf, fieldsOf]
      have hempty : (sortMembers (members.map fun m => (m.1, m.2.canon))).isEmpty
          = members.isEmpty := by
        rw [Bool.eq_iff_iff, List.isEmpty_iff, List.isEmpty_iff]
        constructor
        · intro hnil
          have hperm := sortMembers_perm (members.map fun m => (m.1, m.2.canon))
          rw [hnil] at hperm
          exact List.map_eq_nil_iff.mp hperm.symm.eq_nil
        · rintro rfl
          rfl
      rw [hempty]
      split_ifs with hnil
      · rfl
      have hread : ∀ m : JsString × JsValue,
          (if isFieldName m.1 then reader m.2.canon else none)
            = (if isFieldName m.1 then reader m.2 else none).map FieldDescriptor.canon := by
        intro m
        split_ifs with hname
        · exact h m.2
        · rfl
      rw [fieldMembersOf, fieldMembersOf, ← sortMembers_map, sequenceMembers_sortMembers,
        List.map_map]
      have hcomp := sequenceMembers_map FieldDescriptor.canon
        (members.map fun m => (m.1, if isFieldName m.1 then reader m.2 else none))
      rw [List.map_map] at hcomp
      have hlists : (members.map ((fun m : JsString × JsValue =>
          (m.1, if isFieldName m.1 then reader m.2 else none)) ∘ fun m => (m.1, m.2.canon)))
          = members.map ((fun m : JsString × Option FieldDescriptor =>
              (m.1, m.2.map FieldDescriptor.canon))
            ∘ fun m => (m.1, if isFieldName m.1 then reader m.2 else none)) :=
        List.map_congr_left fun m _ => Prod.ext rfl (hread m)
      rw [hlists, hcomp]
      cases sequenceMembers (members.map fun m =>
        (m.1, if isFieldName m.1 then reader m.2 else none)) <;> rfl
  | arr items => rw [JsValue.canon_arr]; rfl
  | _ => rfl

theorem descriptorOfWith_canon {reader : Option DescriptorReader}
    (h : ∀ r ∈ reader, RespectsOrder r) : RespectsOrder (descriptorOfWith reader) := by
  intro v
  rw [descriptorOfWith, descriptorOfWith, typedRecord_canon, JsValue.get_canon, JsValue.get_canon,
    JsValue.get_canon, optionalOf_canon]
  cases typedRecord v with
  | none => rfl
  | some record =>
      obtain ⟨members, type⟩ := record
      cases optionalOf (v.get (js "optional")) with
      | none => rfl
      | some optional =>
          simp only [Option.map_some, hasOnly_canon]
          cases ScalarFieldType.ofText type with
          | some scalar => split_ifs <;> rfl
          | none =>
              dsimp only
              split_ifs with harray honly hobject honly'
              · rw [arrayOf.eq_def, arrayOf.eq_def, isUndefined_canon]
                cases reader with
                | none => rfl
                | some r =>
                    cases (v.get (js "items")).isUndefined with
                    | true => rfl
                    | false =>
                        dsimp only
                        rw [h r rfl]
                        cases r (v.get (js "items")) <;> rfl
              · rfl
              · rw [objectOf.eq_def, objectOf.eq_def]
                cases reader with
                | none => rfl
                | some r =>
                    dsimp only
                    rw [fieldsOf_canon (h r rfl)]
                    cases fieldsOf r (v.get (js "fields")) with
                    | none => rfl
                    | some fields =>
                        simp only [Option.map_some, FieldDescriptor.canon, canonEach_eq]
                        rfl
              · rfl
              · rfl

/-- The reading of a descriptor at any depth. -/
theorem descriptorOf_canon : ∀ levels, RespectsOrder (descriptorOf levels)
  | 0 => descriptorOfWith_canon (by simp)
  | levels + 1 => descriptorOfWith_canon fun r hr => by
      cases hr
      exact descriptorOf_canon levels

mutual

theorem nested_canon : ∀ field : FieldDescriptor, field.canon.nested = field.nested
  | .scalar _ _ => rfl
  | .array items _ => by
      rw [FieldDescriptor.canon, FieldDescriptor.nested, nested_canon items, FieldDescriptor.nested]
  | .object fields _ => by
      rw [FieldDescriptor.canon, FieldDescriptor.nested, countSchemaFields_sortMembers,
        countSchemaFields_canonEach fields, FieldDescriptor.nested]

theorem countSchemaFields_canonEach : ∀ fields : SchemaFields,
    countSchemaFields (canonEach fields) = countSchemaFields fields
  | [] => rfl
  | (_, field) :: fields => by
      rw [canonEach, countSchemaFields, countSchemaFields, nested_canon field,
        countSchemaFields_canonEach fields]

end

theorem countSchemaFields_canonFields (fields : SchemaFields) :
    countSchemaFields (canonFields fields) = countSchemaFields fields := by
  rw [canonFields, ← canonEach_eq, countSchemaFields_sortMembers, countSchemaFields_canonEach]

theorem textOf_canon (maxBytes : ℕ) (v : JsValue) :
    textOf maxBytes v.canon = textOf maxBytes v := by
  cases v with
  | arr items => rw [JsValue.canon_arr]; rfl
  | obj members => rw [JsValue.canon_obj]; rfl
  | _ => rfl

theorem relationOf_canon (v : JsValue) : relationOf v.canon = relationOf v := by
  cases v with
  | arr items => rw [JsValue.canon_arr]; rfl
  | obj members => rw [JsValue.canon_obj]; rfl
  | _ => rfl

theorem isStr_canon (v : JsValue) (s : JsString) : v.canon.isStr s = v.isStr s := by
  cases v with
  | arr items => rw [JsValue.canon_arr]; rfl
  | obj members => rw [JsValue.canon_obj]; rfl
  | _ => rfl

/-- The reading of a definition does not depend on the order of members, up to the order of
fields. -/
theorem definitionOf_canon (v : JsValue) :
    definitionOf v.canon = (definitionOf v).map SchemaDefinition.canon := by
  cases v with
  | obj members =>
      have hget := JsValue.get_canon (.obj members)
      have hfields := fieldsOf_canon (descriptorOf_canon (maxSchemaDepth - 1))
        ((JsValue.obj members).get (js "fields"))
      rw [JsValue.canon_obj] at hget ⊢
      rw [definitionOf, definitionOf, hasOnly_canon, hget, hget, hget, hget, hget, hget,
        isStr_canon, relationOf_canon, relationOf_canon, textOf_canon, textOf_canon, hfields]
      simp only [Option.bind_eq_bind, Option.map_bind, Function.comp_def, Option.pure_def,
        Option.map_some, Option.bind_map]
      rfl
  | arr items => rw [JsValue.canon_arr]; rfl
  | _ => rfl

/-- **The order of members decides about the order of fields only.**  What the parser makes of two
values that differ in the order of members differs in the order of fields. -/
theorem parseSchema_congr {v w : JsValue} (h : v.canon = w.canon) {d : SchemaDefinition}
    (hv : parseSchema v = .ok d) : ∃ d', parseSchema w = .ok d' ∧ d'.canon = d.canon := by
  rw [parseSchema_eq_ok] at hv
  have hread := definitionOf_canon w
  rw [← h, definitionOf_canon, hv.1, Option.map_some] at hread
  obtain ⟨d', hd', hcanon⟩ := Option.map_eq_some_iff.mp hread.symm
  refine ⟨d', parseSchema_eq_ok.mpr ⟨hd', ?_⟩, hcanon⟩
  have hcount := congrArg (fun d => countSchemaFields d.fields) hcanon
  simp only [SchemaDefinition.canon, countSchemaFields_canonFields] at hcount
  rw [hcount]
  exact hv.2

/-! ## What a parsed definition looks like -/

mutual

/-- A descriptor nests at most `levels` deep, and its objects have fields with proper names. -/
def FieldDescriptor.isValid : ℕ → FieldDescriptor → Bool
  | _, .scalar _ _ => true
  | 0, .array _ _ => false
  | levels + 1, .array items _ => items.isValid levels
  | 0, .object _ _ => false
  | levels + 1, .object fields _ => !fields.isEmpty && fieldsValid levels fields

/-- The fields have proper names and valid descriptors. -/
def fieldsValid : ℕ → SchemaFields → Bool
  | _, [] => true
  | levels, (name, field) :: fields =>
      isFieldName name && field.isValid levels && fieldsValid levels fields

end

theorem fieldsValid_eq (levels : ℕ) : ∀ fields : SchemaFields,
    fieldsValid levels fields = fields.all fun m => isFieldName m.1 && m.2.isValid levels
  | [] => by rw [fieldsValid, List.all_nil]
  | (name, field) :: fields => by
      rw [fieldsValid, fieldsValid_eq levels fields, List.all_cons]

/-- The definitions the parser returns. -/
def SchemaDefinition.isValid (d : SchemaDefinition) : Bool :=
  isText 64 d.name && isText 256 d.description && !d.fields.isEmpty
    && fieldsValid (maxSchemaDepth - 1) d.fields
    && decide (countSchemaFields d.fields ≤ maxSchemaFields)
    && d.parent.all isLowerHash && d.supersedes.all isLowerHash
    && !(d.parent.isSome && d.parent == d.supersedes)

/-- The shape of what one level of the reading returns. -/
theorem descriptorOfWith_eq_some {reader : Option DescriptorReader} {v : JsValue}
    {d : FieldDescriptor} (h : descriptorOfWith reader v = some d) :
    ∃ optional, (∃ scalar, d = .scalar scalar optional) ∨
      (∃ r items, reader = some r ∧ r (v.get (js "items")) = some items ∧
        d = .array items optional) ∨
      ∃ r fields, reader = some r ∧ fieldsOf r (v.get (js "fields")) = some fields ∧
        d = .object fields optional := by
  rw [descriptorOfWith] at h
  split at h
  · rename_i members type optional hrecord hoptional
    refine ⟨optional, ?_⟩
    split at h
    · split_ifs at h
      exact Or.inl ⟨_, (Option.some.inj h).symm⟩
    · split_ifs at h
      · rw [arrayOf.eq_def] at h
        split at h
        · rename_i r _
          obtain ⟨items, hitems, rfl⟩ := Option.map_eq_some_iff.mp h
          exact Or.inr (Or.inl ⟨r, items, rfl, hitems, rfl⟩)
        · cases h
      · rw [objectOf.eq_def] at h
        split at h
        · rename_i r
          obtain ⟨fields, hfields, rfl⟩ := Option.map_eq_some_iff.mp h
          exact Or.inr (Or.inr ⟨r, fields, rfl, hfields, rfl⟩)
        · cases h
  · cases h

/-- The fields that are read, one by one. -/
theorem fieldsOf_eq_some {reader : DescriptorReader} {v : JsValue} {fields : SchemaFields}
    (h : fieldsOf reader v = some fields) :
    ∃ members, v = .obj members ∧ fields ≠ [] ∧ fields.map (·.1) = members.map (·.1) ∧
      ∀ m ∈ fields, isFieldName m.1 = true ∧ ∃ w, (m.1, w) ∈ members ∧ reader w = some m.2 := by
  cases v with
  | obj members =>
      rw [fieldsOf] at h
      split_ifs at h with hnil
      rw [fieldMembersOf, sequenceMembers_eq_some] at h
      refine ⟨members, rfl, ?_, ?_, ?_⟩
      · rintro rfl
        rw [List.map_nil, List.map_eq_nil_iff] at h
        exact hnil (by rw [h]; rfl)
      · have hkeys := congrArg (List.map (·.1)) h
        rw [List.map_map, List.map_map] at hkeys
        exact hkeys.symm
      · intro m hm
        have hmem : (m.1, some m.2) ∈ fields.map fun m => (m.1, some m.2) :=
          List.mem_map_of_mem (f := fun m : JsString × FieldDescriptor => (m.1, some m.2)) hm
        rw [← h, List.mem_map] at hmem
        obtain ⟨n, hn, heq⟩ := hmem
        rw [Prod.mk.injEq] at heq
        obtain ⟨hkey, hread⟩ := heq
        split_ifs at hread with hname
        exact ⟨hkey ▸ hname, n.2, hkey ▸ hn, hread⟩
  | _ => cases h

theorem isValid_of_descriptorOf : ∀ (levels : ℕ) {v : JsValue} {d : FieldDescriptor},
    descriptorOf levels v = some d → d.isValid levels = true
  | 0, v, d, h => by
      obtain ⟨optional, ⟨scalar, rfl⟩ | ⟨r, items, hr, -⟩ | ⟨r, fields, hr, -⟩⟩ :=
        descriptorOfWith_eq_some h
      · rw [FieldDescriptor.isValid]
      · cases hr
      · cases hr
  | levels + 1, v, d, h => by
      obtain ⟨optional, ⟨scalar, rfl⟩ | ⟨r, items, hr, hitems, rfl⟩ |
        ⟨r, fields, hr, hfields, rfl⟩⟩ := descriptorOfWith_eq_some h
      · rw [FieldDescriptor.isValid]
      · cases hr
        rw [FieldDescriptor.isValid]
        exact isValid_of_descriptorOf levels hitems
      · cases hr
        obtain ⟨members, -, hne, -, hall⟩ := fieldsOf_eq_some hfields
        rw [FieldDescriptor.isValid, fieldsValid_eq, Bool.and_eq_true, List.all_eq_true]
        refine ⟨by simpa using hne, fun m hm => ?_⟩
        obtain ⟨hname, w, -, hread⟩ := hall m hm
        rw [hname, Bool.true_and]
        exact isValid_of_descriptorOf levels hread

theorem textOf_eq_some {maxBytes : ℕ} {v : JsValue} {s : JsString} :
    textOf maxBytes v = some s ↔ v = .str s ∧ isText maxBytes s = true := by
  cases v with
  | str t =>
      rw [textOf, JsValue.str.injEq]
      constructor
      · intro h
        split_ifs at h with htext
        obtain rfl := Option.some.inj h
        exact ⟨rfl, htext⟩
      · rintro ⟨rfl, htext⟩
        rw [if_pos htext]
  | _ => simp [textOf]

/-- Everything the parser returns is valid. -/
theorem isValid_of_parseSchema {v : JsValue} {d : SchemaDefinition} (h : parseSchema v = .ok d) :
    d.isValid = true := by
  obtain ⟨hread, hcount⟩ := parseSchema_eq_ok.mp h
  cases v with
  | obj members =>
      simp only [definitionOf, Option.bind_eq_bind, Option.bind_eq_some_iff,
        Option.guard_eq_some', exists_const, Option.pure_def, Option.some.injEq] at hread
      obtain ⟨-, -, parent, hparent, previous, hprevious, hdiffer, name, hname, description,
        hdescription, fields, hfields, rfl⟩ := hread
      have hrelation : ∀ {w uid}, relationOf w = some uid → uid.all isLowerHash = true := by
        intro w uid huid
        cases w <;> simp [relationOf] at huid
        · rw [← huid]
          rfl
        · rw [← huid.2]
          exact huid.1
      obtain ⟨ms, -, hne, -, hall⟩ := fieldsOf_eq_some hfields
      have hvalid : fieldsValid (maxSchemaDepth - 1) fields = true := by
        rw [fieldsValid_eq, List.all_eq_true]
        intro m hm
        obtain ⟨hkey, w, -, hw⟩ := hall m hm
        rw [hkey, Bool.true_and]
        exact isValid_of_descriptorOf _ hw
      have hempty : fields.isEmpty = false := by simpa using hne
      rw [SchemaDefinition.isValid, (textOf_eq_some.mp hname).2,
        (textOf_eq_some.mp hdescription).2, hempty, hvalid,
        hrelation hparent, hrelation hprevious, hdiffer, decide_eq_true hcount]
      rfl
  | _ => cases hread

/-- The name and the description of a definition are members of the value it was read from. -/
theorem get_of_parseSchema {v : JsValue} {d : SchemaDefinition} (h : parseSchema v = .ok d) :
    v.get (js "name") = .str d.name ∧ v.get (js "description") = .str d.description := by
  have hread := (parseSchema_eq_ok.mp h).1
  cases v with
  | obj members =>
      simp only [definitionOf, Option.bind_eq_bind, Option.bind_eq_some_iff,
        Option.guard_eq_some', exists_const, Option.pure_def, Option.some.injEq] at hread
      obtain ⟨-, -, parent, -, previous, -, -, name, hname, description, hdescription, fields, -,
        rfl⟩ := hread
      exact ⟨(textOf_eq_some.mp hname).1, (textOf_eq_some.mp hdescription).1⟩
  | _ => cases hread

/-! ## Definitions parse to themselves -/

theorem descriptorOfWith_scalar (reader : Option DescriptorReader) (type : ScalarFieldType)
    (optional : Bool) : descriptorOfWith reader (FieldDescriptor.scalar type optional).toJs
      = some (.scalar type optional) := by
  cases optional <;> cases type <;> rfl

theorem descriptorOfWith_array (reader : Option DescriptorReader) (items : FieldDescriptor)
    (optional : Bool) : descriptorOfWith reader (FieldDescriptor.array items optional).toJs
      = arrayOf reader items.toJs optional := by
  cases optional <;> rfl

theorem descriptorOfWith_object (reader : Option DescriptorReader) (fields : SchemaFields)
    (optional : Bool) : descriptorOfWith reader (FieldDescriptor.object fields optional).toJs
      = objectOf reader (fieldsJs fields) optional := by
  cases optional <;> rfl

theorem isUndefined_toJs (field : FieldDescriptor) : field.toJs.isUndefined = false := by
  cases field <;> rfl

/-- Reading the object of a fields record, when every descriptor in it reads back. -/
theorem fieldsOf_fieldsJs {reader : DescriptorReader} {fields : SchemaFields} (hne : fields ≠ [])
    (h : ∀ m ∈ fields, isFieldName m.1 = true ∧ reader m.2.toJs = some m.2) :
    fieldsOf reader (fieldsJs fields) = some fields := by
  rw [fieldsJs, fieldsMembers_eq, fieldsOf, if_neg (by simpa using hne), fieldMembersOf,
    sequenceMembers_eq_some, List.map_map]
  refine List.map_congr_left fun m hm => ?_
  obtain ⟨hname, hread⟩ := h m hm
  simp [hname, hread]

theorem descriptorOf_toJs : ∀ (levels : ℕ) (d : FieldDescriptor),
    d.isValid levels = true → descriptorOf levels d.toJs = some d
  | 0, .scalar type optional, _ => descriptorOfWith_scalar none type optional
  | levels + 1, .scalar type optional, _ => descriptorOfWith_scalar _ type optional
  | 0, .array items optional, h => by rw [FieldDescriptor.isValid] at h; cases h
  | 0, .object fields optional, h => by rw [FieldDescriptor.isValid] at h; cases h
  | levels + 1, .array items optional, h => by
      rw [FieldDescriptor.isValid] at h
      rw [descriptorOf, descriptorOfWith_array, arrayOf.eq_def, isUndefined_toJs]
      dsimp only
      rw [descriptorOf_toJs levels items h]
      rfl
  | levels + 1, .object fields optional, h => by
      rw [FieldDescriptor.isValid, fieldsValid_eq, Bool.and_eq_true, List.all_eq_true] at h
      rw [descriptorOf, descriptorOfWith_object, objectOf.eq_def]
      dsimp only
      rw [fieldsOf_fieldsJs (by simpa using h.1) fun m hm => ?_]
      · rfl
      · have hm' := h.2 m hm
        rw [Bool.and_eq_true] at hm'
        exact ⟨hm'.1, descriptorOf_toJs levels m.2 hm'.2⟩

/-- The members of a definition, each under its key. -/
theorem SchemaDefinition.get_toJs (d : SchemaDefinition) :
    d.toJs.get (js "xcsVersion") = .str (js "0.1") ∧ d.toJs.get (js "name") = .str d.name ∧
      d.toJs.get (js "description") = .str d.description ∧
      d.toJs.get (js "fields") = fieldsJs d.fields ∧
      d.toJs.get (js "extends") = (d.parent.map JsValue.str).getD .undefined ∧
      d.toJs.get (js "supersedes") = (d.supersedes.map JsValue.str).getD .undefined := by
  obtain ⟨name, description, fields, parent, supersedes⟩ := d
  cases parent <;> cases supersedes <;> exact ⟨rfl, rfl, rfl, rfl, rfl, rfl⟩

/-- **Idempotence.**  A valid definition parses to itself. -/
theorem parseSchema_toJs {d : SchemaDefinition} (h : d.isValid = true) :
    parseSchema d.toJs = .ok d := by
  simp only [SchemaDefinition.isValid, Bool.and_eq_true, decide_eq_true_eq, Bool.not_eq_true']
    at h
  obtain ⟨⟨⟨⟨⟨⟨⟨hname, hdescription⟩, hne⟩, hfields⟩, hcount⟩, hparent⟩, hsupersedes⟩, hdiffer⟩ := h
  obtain ⟨hv, hn, hd, hf, he, hs⟩ := d.get_toJs
  have honly : hasOnly (([(js "xcsVersion", JsValue.str (js "0.1")), (js "name", .str d.name),
      (js "description", .str d.description), (js "fields", fieldsJs d.fields)] : Members)
        ++ relationMember (js "extends") d.parent
        ++ relationMember (js "supersedes") d.supersedes) schemaProperties = true := by
    cases d.parent <;> cases d.supersedes <;> rfl
  have hread : fieldsOf (descriptorOf (maxSchemaDepth - 1)) (fieldsJs d.fields)
      = some d.fields := by
    rw [fieldsValid_eq, List.all_eq_true] at hfields
    refine fieldsOf_fieldsJs (by simpa using hne) fun m hm => ?_
    have hm' := hfields m hm
    rw [Bool.and_eq_true] at hm'
    exact ⟨hm'.1, descriptorOf_toJs _ m.2 hm'.2⟩
  have hrelation : ∀ uid : Option JsString, uid.all isLowerHash = true →
      relationOf ((uid.map JsValue.str).getD .undefined) = some uid := by
    intro uid huid
    cases uid with
    | none => rfl
    | some uid =>
        have hhash : isLowerHash uid = true := huid
        simp [relationOf, hhash]
  rw [parseSchema_eq_ok]
  refine ⟨?_, hcount⟩
  rw [SchemaDefinition.toJs] at hv hn hd hf he hs ⊢
  simp only [definitionOf, hv, hn, hd, hf, he, hs, honly, hread, hrelation _ hparent,
    hrelation _ hsupersedes, textOf, hname, hdescription, hdiffer, JsValue.isStr, beq_self_eq_true,
    if_true, Option.bind_eq_bind, guard, Option.pure_def, Option.bind_some]

/-! ## Definitions as JSON values -/

theorem canon_fieldsJs {fields : SchemaFields}
    (h : ∀ m ∈ fields, m.2.canon.toJs.canon = m.2.toJs.canon) :
    (fieldsJs (canonFields fields)).canon = (fieldsJs fields).canon := by
  have hmap : fields.map (fun m => (m.1, m.2.canon.toJs.canon))
      = fields.map fun m => (m.1, m.2.toJs.canon) :=
    List.map_congr_left fun m hm => by rw [h m hm]
  rw [fieldsJs, fieldsJs, fieldsMembers_eq, fieldsMembers_eq, JsValue.canon_obj, JsValue.canon_obj,
    canonFields, ← sortMembers_map, ← sortMembers_map, sortMembers_sortMembers, List.map_map,
    List.map_map, List.map_map]
  exact congrArg (fun l => JsValue.obj (sortMembers l)) hmap

theorem FieldDescriptor.canon_toJs (field : FieldDescriptor) :
    field.canon.toJs.canon = field.toJs.canon := by
  induction field using FieldDescriptor.induct with
  | scalar type optional => rfl
  | array items optional ih =>
      rw [FieldDescriptor.canon, FieldDescriptor.toJs, FieldDescriptor.toJs, JsValue.canon_obj,
        JsValue.canon_obj, List.map_cons, List.map_cons, List.map_cons, List.map_cons, ih]
  | object fields optional ih =>
      have hfields := canon_fieldsJs ih
      rw [canonFields, ← canonEach_eq, fieldsJs, fieldsJs] at hfields
      rw [FieldDescriptor.canon, FieldDescriptor.toJs, FieldDescriptor.toJs, JsValue.canon_obj,
        JsValue.canon_obj, List.map_cons, List.map_cons, List.map_cons, List.map_cons, hfields]

/-- Sorting the fields of a definition reorders its object. -/
theorem SchemaDefinition.canon_toJs (d : SchemaDefinition) :
    d.canon.toJs.canon = d.toJs.canon := by
  have hfields := @canon_fieldsJs d.fields fun m _ => m.2.canon_toJs
  rw [SchemaDefinition.toJs, SchemaDefinition.toJs, JsValue.canon_obj, JsValue.canon_obj]
  simp only [SchemaDefinition.canon, List.map_cons, List.map_append, List.cons_append, hfields]

/-- The canonical forms of the objects of two valid definitions agree exactly when the definitions
do up to the order of fields. -/
theorem canon_toJs_eq_iff {d d' : SchemaDefinition} (h : d.isValid = true)
    (h' : d'.isValid = true) : d.toJs.canon = d'.toJs.canon ↔ d.canon = d'.canon := by
  have hread : ∀ {e : SchemaDefinition}, e.isValid = true →
      definitionOf e.toJs.canon = some e.canon := by
    intro e he
    rw [definitionOf_canon, (parseSchema_eq_ok.mp (parseSchema_toJs he)).1]
    rfl
  constructor
  · intro hcanon
    have hsome := hread h
    rw [hcanon, hread h'] at hsome
    exact (Option.some.inj hsome).symm
  · intro hcanon
    rw [← d.canon_toJs, hcanon, d'.canon_toJs]

/-- A printable ASCII text. -/
def isPlain (s : JsString) : Bool :=
  s.all fun u => 0x20 ≤ u && u ≤ 0x7e

theorem isPlain_of_isFieldName {s : JsString} (h : isFieldName s = true) : isPlain s = true := by
  cases s with
  | nil => rfl
  | cons u rest =>
      simp only [isFieldName, matchesIdentifier, Bool.and_eq_true, List.all_eq_true] at h
      obtain ⟨⟨hu, -⟩, hrest⟩ := h
      rw [isPlain, List.all_eq_true]
      intro v hv
      rcases List.mem_cons.mp hv with rfl | hv
      · simp only [isUpper, isLower, Bool.or_eq_true, Bool.and_eq_true, decide_eq_true_eq,
          beq_iff_eq, UInt16.le_iff_toNat_le, ← UInt16.toNat_inj] at hu ⊢
        simp only [UInt16.reduceToNat] at hu ⊢
        omega
      · have := hrest v hv
        simp only [isUpper, isLower, isDigit, Bool.or_eq_true, Bool.and_eq_true,
          decide_eq_true_eq, beq_iff_eq, UInt16.le_iff_toNat_le, ← UInt16.toNat_inj] at this ⊢
        simp only [UInt16.reduceToNat] at this ⊢
        omega

theorem isPlain_of_isLowerHash {s : JsString} (h : isLowerHash s = true) : isPlain s = true := by
  simp only [isLowerHash, Bool.and_eq_true, List.all_eq_true] at h
  rw [isPlain, List.all_eq_true]
  intro u hu
  have := h.2 u hu
  simp only [isLowerHexDigit, Bool.or_eq_true, Bool.and_eq_true, decide_eq_true_eq,
    UInt16.le_iff_toNat_le] at this ⊢
  simp only [UInt16.reduceToNat] at this ⊢
  omega

/-- A printable text is well formed. -/
theorem isWellFormed_of_isPlain {s : JsString} (h : isPlain s = true) : isWellFormed s = true := by
  rw [isPlain, List.all_eq_true] at h
  refine isWellFormed_of_forall_not_surrogate fun u hu => ?_
  have := h u hu
  simp only [isHighSurrogate, isLowSurrogate, Bool.and_eq_true, Bool.and_eq_false_iff,
    decide_eq_true_eq, decide_eq_false_iff_not, UInt16.le_iff_toNat_le] at this ⊢
  simp only [UInt16.reduceToNat] at this ⊢
  omega

section Strings

variable {p : JsString → Bool} (hp : ∀ s, isPlain s = true → p s = true)

include hp

theorem allStrings_optionalMember (optional : Bool) :
    ((optionalMember optional).all fun m => p m.1 && m.2.allStrings p) = true := by
  cases optional with
  | false => rfl
  | true =>
      rw [optionalMember, if_pos rfl, List.all_cons, hp _ (by decide)]
      rfl

theorem allStrings_fieldsJs {fields : SchemaFields}
    (h : ∀ m ∈ fields, isFieldName m.1 = true ∧ m.2.toJs.allStrings p = true) :
    (fieldsJs fields).allStrings p = true := by
  rw [fieldsJs, fieldsMembers_eq, JsValue.allStrings_obj, List.all_map, List.all_eq_true]
  intro m hm
  obtain ⟨hname, hfield⟩ := h m hm
  rw [Function.comp_apply, Bool.and_eq_true]
  exact ⟨hp m.1 (isPlain_of_isFieldName hname), hfield⟩

/-- Every string of a valid descriptor is printable. -/
theorem FieldDescriptor.allStrings_toJs (field : FieldDescriptor) : ∀ {levels : ℕ},
    field.isValid levels = true → field.toJs.allStrings p = true := by
  have htype : p (js "type") = true := hp _ (by decide)
  have hoptional := allStrings_optionalMember hp
  induction field using FieldDescriptor.induct with
  | scalar type optional =>
      intro levels _
      have htext : p type.text = true := by
        refine hp _ ?_
        cases type <;> decide
      rw [FieldDescriptor.toJs, JsValue.allStrings_obj, List.all_cons, htype,
        JsValue.allStrings_str, htext, hoptional]
      rfl
  | array items optional ih =>
      intro levels h
      cases levels with
      | zero => rw [FieldDescriptor.isValid] at h; cases h
      | succ levels =>
          rw [FieldDescriptor.isValid] at h
          rw [FieldDescriptor.toJs, JsValue.allStrings_obj, List.all_cons, List.all_cons, htype,
            JsValue.allStrings_str, hp (js "array") (by decide), hp (js "items") (by decide), ih h,
            hoptional]
          rfl
  | object fields optional ih =>
      intro levels h
      cases levels with
      | zero => rw [FieldDescriptor.isValid] at h; cases h
      | succ levels =>
          rw [FieldDescriptor.isValid, fieldsValid_eq, Bool.and_eq_true, List.all_eq_true] at h
          have hfields : (JsValue.obj (fieldsMembers fields)).allStrings p = true := by
            refine allStrings_fieldsJs hp fun m hm => ?_
            have hm' := h.2 m hm
            rw [Bool.and_eq_true] at hm'
            exact ⟨hm'.1, ih m hm hm'.2⟩
          rw [FieldDescriptor.toJs, JsValue.allStrings_obj, List.all_cons, List.all_cons, htype,
            JsValue.allStrings_str, hp (js "object") (by decide), hp (js "fields") (by decide),
            hfields, hoptional]
          rfl

/-- Every string of valid fields is printable. -/
theorem allStrings_of_fieldsValid {levels : ℕ} {fields : SchemaFields}
    (h : fieldsValid levels fields = true) : (fieldsJs fields).allStrings p = true := by
  rw [fieldsValid_eq, List.all_eq_true] at h
  refine allStrings_fieldsJs hp fun m hm => ?_
  have hm' := h m hm
  rw [Bool.and_eq_true] at hm'
  exact ⟨hm'.1, m.2.allStrings_toJs hp hm'.2⟩

theorem allStrings_relationMember {key : JsString} (hkey : isPlain key = true)
    {uid : Option JsString} (huid : uid.all isLowerHash = true) :
    ((relationMember key uid).all fun m => p m.1 && m.2.allStrings p) = true := by
  cases uid with
  | none => rfl
  | some uid =>
      have hhash : isLowerHash uid = true := huid
      rw [relationMember, List.all_cons, hp key hkey, JsValue.allStrings_str,
        hp uid (isPlain_of_isLowerHash hhash)]
      rfl

/-- The strings of a valid definition are printable, its name and its description apart. -/
theorem SchemaDefinition.allStrings_toJs {d : SchemaDefinition} (h : d.isValid = true)
    (hname : p d.name = true) (hdescription : p d.description = true) :
    d.toJs.allStrings p = true := by
  simp only [SchemaDefinition.isValid, Bool.and_eq_true, decide_eq_true_eq, Bool.not_eq_true']
    at h
  obtain ⟨⟨⟨⟨⟨⟨⟨-, -⟩, -⟩, hfields⟩, -⟩, hparent⟩, hsupersedes⟩, -⟩ := h
  have hextends := @allStrings_relationMember p hp (js "extends") (by decide) _ hparent
  have hprevious := @allStrings_relationMember p hp (js "supersedes") (by decide) _ hsupersedes
  have hall := allStrings_of_fieldsValid hp hfields
  rw [SchemaDefinition.toJs, JsValue.allStrings_obj, List.all_append, List.all_append, hextends,
    hprevious]
  simp only [List.all_cons, List.all_nil, JsValue.allStrings_str, hname, hdescription, hall,
    hp (js "xcsVersion") (by decide), hp (js "0.1") (by decide), hp (js "name") (by decide),
    hp (js "description") (by decide), hp (js "fields") (by decide), Bool.and_true]

end Strings

theorem isJson_optionalMember (optional : Bool) :
    ((optionalMember optional).all fun m => m.2.isJson) = true := by
  cases optional <;> rfl

theorem isJson_fieldsJs {fields : SchemaFields} (h : ∀ m ∈ fields, m.2.toJs.isJson = true) :
    (fieldsJs fields).isJson = true := by
  rw [fieldsJs, fieldsMembers_eq, JsValue.isJson_obj, List.all_map, List.all_eq_true]
  exact h

theorem FieldDescriptor.isJson_toJs (field : FieldDescriptor) : field.toJs.isJson = true := by
  have hoptional := isJson_optionalMember
  induction field using FieldDescriptor.induct with
  | scalar type optional =>
      rw [FieldDescriptor.toJs, JsValue.isJson_obj, List.all_cons, hoptional]
      rfl
  | array items optional ih =>
      rw [FieldDescriptor.toJs, JsValue.isJson_obj, List.all_cons, List.all_cons, ih, hoptional]
      rfl
  | object fields optional ih =>
      have hfields : (JsValue.obj (fieldsMembers fields)).isJson = true := isJson_fieldsJs ih
      rw [FieldDescriptor.toJs, JsValue.isJson_obj, List.all_cons, List.all_cons, hfields,
        hoptional]
      rfl

theorem SchemaDefinition.isJson_toJs (d : SchemaDefinition) : d.toJs.isJson = true := by
  have hfields : (fieldsJs d.fields).isJson = true :=
    isJson_fieldsJs fun m _ => m.2.isJson_toJs
  have hrelation : ∀ key uid, ((relationMember key uid).all fun m => m.2.isJson) = true := by
    intro key uid
    cases uid <;> rfl
  rw [SchemaDefinition.toJs, JsValue.isJson_obj, List.all_append, List.all_append, hrelation,
    hrelation]
  simp only [List.all_cons, List.all_nil, JsValue.isJson_str, hfields, Bool.and_true]

/-! ## Repeated names -/

theorem distinctKeys_optional (rest : Members) (optional : Bool)
    (h : (JsValue.obj rest).distinctKeys = true) (hkey : js "optional" ∉ rest.map (·.1)) :
    (JsValue.obj (rest ++ optionalMember optional)).distinctKeys = true := by
  cases optional with
  | false => rwa [optionalMember, if_neg (by decide), List.append_nil]
  | true =>
      rw [JsValue.distinctKeys_obj, Bool.and_eq_true, decide_eq_true_eq] at h ⊢
      rw [optionalMember, if_pos rfl, List.map_append, List.nodup_append, List.all_append, h.2]
      refine ⟨⟨h.1, by simp, ?_⟩, rfl⟩
      intro key hmem key' hmem' heq
      rw [List.map_singleton, List.mem_singleton] at hmem'
      rw [heq, hmem'] at hmem
      exact hkey hmem

/-- The fields read from an object without repeated keys have distinct names. -/
theorem distinctKeys_fieldsJs {reader : DescriptorReader} {v : JsValue} {fields : SchemaFields}
    (hv : v.distinctKeys = true) (h : fieldsOf reader v = some fields)
    (hreader : ∀ w d, w.distinctKeys = true → reader w = some d → d.toJs.distinctKeys = true) :
    (fieldsJs fields).distinctKeys = true := by
  obtain ⟨members, rfl, -, hkeys, hall⟩ := fieldsOf_eq_some h
  rw [JsValue.distinctKeys_obj, Bool.and_eq_true, decide_eq_true_eq, List.all_eq_true] at hv
  rw [fieldsJs, fieldsMembers_eq, JsValue.distinctKeys_obj, Bool.and_eq_true, decide_eq_true_eq,
    List.map_map, List.all_map, List.all_eq_true]
  refine ⟨?_, fun m hm => ?_⟩
  · rw [show fields.map ((fun m => m.1) ∘ fun m => (m.1, m.2.toJs)) = fields.map (·.1) from rfl,
      hkeys]
    exact hv.1
  · obtain ⟨-, w, hw, hread⟩ := hall m hm
    exact hreader w m.2 (hv.2 _ hw) hread

theorem distinctKeys_of_descriptorOf : ∀ (levels : ℕ) (v : JsValue) (d : FieldDescriptor),
    v.distinctKeys = true → descriptorOf levels v = some d → d.toJs.distinctKeys = true := by
  intro levels
  induction levels with
  | zero =>
      intro v d hv h
      obtain ⟨optional, ⟨scalar, rfl⟩ | ⟨r, items, hr, -⟩ | ⟨r, fields, hr, -⟩⟩ :=
        descriptorOfWith_eq_some h
      · exact distinctKeys_optional [(js "type", .str scalar.text)] optional rfl
          (by decide : js "optional" ∉ [js "type"])
      · cases hr
      · cases hr
  | succ levels ih =>
      intro v d hv h
      obtain ⟨optional, ⟨scalar, rfl⟩ | ⟨r, items, hr, hitems, rfl⟩ |
        ⟨r, fields, hr, hfields, rfl⟩⟩ := descriptorOfWith_eq_some h
      · exact distinctKeys_optional [(js "type", .str scalar.text)] optional rfl
          (by decide : js "optional" ∉ [js "type"])
      · cases hr
        refine distinctKeys_optional [(js "type", .str (js "array")), (js "items", items.toJs)]
          optional ?_ (by decide : js "optional" ∉ [js "type", js "items"])
        rw [JsValue.distinctKeys_obj]
        simp only [List.all_cons, List.all_nil, ih _ _ (JsValue.distinctKeys_get hv _) hitems]
        rfl
      · cases hr
        refine distinctKeys_optional
          [(js "type", .str (js "object")), (js "fields", fieldsJs fields)] optional ?_
          (by decide : js "optional" ∉ [js "type", js "fields"])
        rw [JsValue.distinctKeys_obj]
        simp only [List.all_cons, List.all_nil,
          distinctKeys_fieldsJs (JsValue.distinctKeys_get hv _) hfields ih]
        rfl

/-- What the parser makes of a value without repeated keys has none. -/
theorem distinctKeys_of_parseSchema {v : JsValue} {d : SchemaDefinition}
    (hv : v.distinctKeys = true) (h : parseSchema v = .ok d) :
    (fieldsJs d.fields).distinctKeys = true ∧ d.toJs.distinctKeys = true := by
  have hfields : (fieldsJs d.fields).distinctKeys = true := by
    obtain ⟨hread, -⟩ := parseSchema_eq_ok.mp h
    cases v with
    | obj members =>
        simp only [definitionOf, Option.bind_eq_bind, Option.bind_eq_some_iff,
          Option.guard_eq_some', exists_const, Option.pure_def, Option.some.injEq] at hread
        obtain ⟨-, -, parent, -, previous, -, -, name, -, description, -, fields, hfields, rfl⟩ :=
          hread
        exact distinctKeys_fieldsJs (JsValue.distinctKeys_get hv _) hfields
          (distinctKeys_of_descriptorOf _)
    | _ => cases hread
  refine ⟨hfields, ?_⟩
  rw [SchemaDefinition.toJs, JsValue.distinctKeys_obj, Bool.and_eq_true, decide_eq_true_eq]
  constructor
  · have hkeys : [js "xcsVersion", js "name", js "description", js "fields", js "extends",
        js "supersedes"].Nodup := by decide
    refine List.Nodup.sublist ?_ hkeys
    rw [List.map_append, List.map_append, List.append_assoc]
    have hrelation : ∀ key uid, ((relationMember key uid).map (·.1)).Sublist [key] := by
      intro key uid
      cases uid with
      | none => exact List.nil_sublist _
      | some uid => exact List.Sublist.refl _
    exact (List.Sublist.refl _).append ((hrelation _ _).append (hrelation _ _))
  · have hrelation : ∀ key uid,
        ((relationMember key uid).all fun m => m.2.distinctKeys) = true := by
      intro key uid
      cases uid <;> rfl
    rw [List.all_append, List.all_append, hrelation, hrelation]
    simp only [List.all_cons, List.all_nil, hfields]
    rfl

end Core
end Xcs
