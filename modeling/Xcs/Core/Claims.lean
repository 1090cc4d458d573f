import Xcs.Core.Schema

/-!
# Claims

The claims of a credential are an object with a value for every field of the schema that is not
optional, and for no name that is no field.  `parseClaims` checks them against the fields and throws
with the path of what it refuses.

`Conforms` says without paths and order what a value of a field is, and `parseClaims_eq_ok` that the
parser accepts exactly the conforming claims.
-/

namespace Xcs
namespace Core

open Js Json

/-- `fail` with the code `INVALID_CLAIMS`. -/
def invalidClaims {α : Type} (message path : JsString) : Except Thrown α :=
  failXcs .invalidClaims message path []

/-! ## Base 64 -/

/-- The value of a character of the alphabet of `base64urlnopad`. -/
def base64UrlValue (u : CodeUnit) : Option ℕ :=
  if isUpper u then some (u.toNat - 0x41)
  else if isLower u then some (u.toNat - 0x61 + 26)
  else if isDigit u then some (u.toNat - 0x30 + 52)
  else if u == 0x2d then some 62
  else if u == 0x5f then some 63
  else none

/-- The character of a value. -/
def base64UrlDigit (n : ℕ) : CodeUnit :=
  if n < 26 then (0x41 + n).toUInt16
  else if n < 52 then (0x61 + (n - 26)).toUInt16
  else if n < 62 then (0x30 + (n - 52)).toUInt16
  else if n = 62 then 0x2d
  else 0x5f

/-- `base64urlnopad.decode`; `none` where it throws: a character outside the alphabet, a character
too many, or bits that are left over. -/
def decodeBase64Url : JsString → Option (List UInt8)
  | [] => some []
  | [_] => none
  | [a, b] =>
      match base64UrlValue a, base64UrlValue b with
      | some a, some b => if b % 16 = 0 then some [(a * 4 + b / 16).toUInt8] else none
      | _, _ => none
  | [a, b, c] =>
      match base64UrlValue a, base64UrlValue b, base64UrlValue c with
      | some a, some b, some c =>
          if c % 4 = 0 then some [(a * 4 + b / 16).toUInt8, (b % 16 * 16 + c / 4).toUInt8]
          else none
      | _, _, _ => none
  | a :: b :: c :: d :: rest =>
      match base64UrlValue a, base64UrlValue b, base64UrlValue c, base64UrlValue d,
          decodeBase64Url rest with
      | some a, some b, some c, some d, some bytes =>
          some ((a * 4 + b / 16).toUInt8 :: (b % 16 * 16 + c / 4).toUInt8
            :: (c % 4 * 64 + d).toUInt8 :: bytes)
      | _, _, _, _, _ => none

/-- `base64urlnopad.encode` -/
def encodeBase64Url : List UInt8 → JsString
  | [] => []
  | [x] => [base64UrlDigit (x.toNat / 4), base64UrlDigit (x.toNat % 4 * 16)]
  | [x, y] =>
      [base64UrlDigit (x.toNat / 4), base64UrlDigit (x.toNat % 4 * 16 + y.toNat / 16),
        base64UrlDigit (y.toNat % 16 * 4)]
  | x :: y :: z :: rest =>
      base64UrlDigit (x.toNat / 4) :: base64UrlDigit (x.toNat % 4 * 16 + y.toNat / 16)
        :: base64UrlDigit (y.toNat % 16 * 4 + z.toNat / 64) :: base64UrlDigit (z.toNat % 64)
        :: encodeBase64Url rest

/-- `isCanonicalBase64Url` -/
def isCanonicalBase64Url (value : JsString) : Bool :=
  (decodeBase64Url value).any fun bytes => encodeBase64Url bytes == value

/-! ## Integers -/

/-- `UINT256_MAX` -/
def uint256Max : ℕ := 2 ^ 256 - 1

/-- `/^(?:0|[1-9][0-9]*)$/` -/
def isUnsignedInteger : JsString → Bool
  | [] => false
  | u :: rest => if u == 0x30 then rest.isEmpty else isDigit u && rest.all isDigit

/-- `/^(?:0|-?[1-9][0-9]*)$/` -/
def isSignedInteger : JsString → Bool
  | [] => false
  | u :: rest =>
      if u == 0x2d then rest.head? != some 0x30 && isUnsignedInteger rest
      else isUnsignedInteger (u :: rest)

/-- `BigInt` of a run of digits. -/
def bigNat (digits : JsString) : ℕ :=
  ofDigits (digits.map fun u => u.toNat - 0x30)

/-- `BigInt` of a decimal text. -/
def bigInt : JsString → ℤ
  | [] => 0
  | u :: rest => if u == 0x2d then -bigNat rest else bigNat (u :: rest)

/-- A text of the type `uint`. -/
def isUint256 (s : JsString) : Bool :=
  decide (s.length ≤ 78 ∧ bigNat s ≤ uint256Max)

/-- A text of the type `int`; `INT256_MIN` and `INT256_MAX` are the bounds. -/
def isInt256 (s : JsString) : Bool :=
  decide (s.length ≤ 79 ∧ -2 ^ 255 ≤ bigInt s ∧ bigInt s ≤ 2 ^ 255 - 1)

/-! ## The parser -/

/-- The scalar cases of `parseValue`. -/
def parseScalar (P : Platform) (type : ScalarFieldType) (value : JsValue) (path : JsString) :
    Except Thrown JsValue :=
  match type, value with
  | .string, .str s => .ok (.str s)
  | .string, _ => invalidClaims (js "Expected a string") path
  | .bool, .bool b => .ok (.bool b)
  | .bool, _ => invalidClaims (js "Expected a boolean") path
  | .uint, .str s =>
      if !isUnsignedInteger s then
        invalidClaims (js "Expected a canonical unsigned decimal string") path
      else if !isUint256 s then invalidClaims (js "Unsigned integer exceeds 256 bits") path
      else .ok (.str s)
  | .uint, _ => invalidClaims (js "Expected a canonical unsigned decimal string") path
  | .int, .str s =>
      if !isSignedInteger s then
        invalidClaims (js "Expected a canonical signed decimal string") path
      else if !isInt256 s then invalidClaims (js "Signed integer exceeds 256 bits") path
      else .ok (.str s)
  | .int, _ => invalidClaims (js "Expected a canonical signed decimal string") path
  | .bytes, .str s =>
      if isCanonicalBase64Url s then .ok (.str s)
      else invalidClaims (js "Expected unpadded canonical base64url") path
  | .bytes, _ => invalidClaims (js "Expected unpadded canonical base64url") path
  | .address, .str s =>
      if P.isValidClassicAddress s then .ok (.str s)
      else invalidClaims (js "Expected an XRPL classic address") path
  | .address, _ => invalidClaims (js "Expected an XRPL classic address") path

/-- The `optional` of a descriptor. -/
def FieldDescriptor.isOptional : FieldDescriptor → Bool
  | .scalar _ optional => optional
  | .array _ optional => optional
  | .object _ optional => optional

/-- A parser of values: the value and its path. -/
abbrev ValueParser := JsValue → JsString → Except Thrown JsValue

/-- The loop over the items of an array. -/
def parseClaimItems (item : ValueParser) (path : JsString) :
    List JsValue → ℕ → Except Thrown (List JsValue)
  | [], _ => .ok []
  | v :: items, index => do
      let parsed ← item v (path ++ js "[" ++ natToString index ++ js "]")
      let rest ← parseClaimItems item path items (index + 1)
      pure (parsed :: rest)

/-- The first loop of `parseObject`, over the members of the input. -/
def rejectUnknownClaims (members : Members) (fields : SchemaFields) (path : JsString) :
    Except Thrown Unit :=
  match members.find? fun m => (fields.lookup m.1).isNone with
  | some m => invalidClaims (js "Unknown claim " ++ m.1) (path ++ js "." ++ m.1)
  | none => .ok ()

/-- `parseObject`, for the loop over the fields. -/
def parseObjectWith (loop : Members → JsString → Except Thrown Members) (input : JsValue)
    (fields : SchemaFields) (path : JsString) : Except Thrown JsValue :=
  match input with
  | .obj members => do
      rejectUnknownClaims members fields path
      let claims ← loop members path
      pure (.obj claims)
  | _ => invalidClaims (js "Expected an object") path

mutual

/-- `parseValue` -/
def parseValue (P : Platform) : FieldDescriptor → ValueParser
  | .scalar type _, value, path =>
      if value.isNull then invalidClaims (js "null is not allowed") path
      else parseScalar P type value path
  | .array items _, value, path =>
      if value.isNull then invalidClaims (js "null is not allowed") path
      else
        match value with
        | .arr vs => do
            let parsed ← parseClaimItems (parseValue P items) path vs 0
            pure (.arr parsed)
        | _ => invalidClaims (js "Expected an array") path
  | .object fields _, value, path =>
      if value.isNull then invalidClaims (js "null is not allowed") path
      else parseObjectWith (parseClaimFields P fields) value fields path

/-- The second loop of `parseObject`, over the fields. -/
def parseClaimFields (P : Platform) :
    SchemaFields → Members → JsString → Except Thrown Members
  | [], _, _ => .ok []
  | (name, field) :: fields, members, path =>
      match members.lookup name with
      | none =>
          if field.isOptional then parseClaimFields P fields members path
          else invalidClaims (js "Missing required claim " ++ name) (path ++ js "." ++ name)
      | some value => do
          let claim ← parseValue P field value (path ++ js "." ++ name)
          let claims ← parseClaimFields P fields members path
          pure ((name, claim) :: claims)

end

/-- `parseObject` -/
def parseObject (P : Platform) (input : JsValue) (fields : SchemaFields) (path : JsString) :
    Except Thrown JsValue :=
  parseObjectWith (parseClaimFields P fields) input fields path

/-- `parseClaims` -/
def parseClaims (P : Platform) (input : JsValue) (fields : SchemaFields) : Except Thrown JsValue :=
  parseObject P input fields (js "$.claims")

/-! ## Conforming values -/

/-- A value of a scalar type. -/
def conformsScalar (P : Platform) : ScalarFieldType → JsValue → Bool
  | .string, .str _ => true
  | .bool, .bool _ => true
  | .uint, .str s => isUnsignedInteger s && isUint256 s
  | .int, .str s => isSignedInteger s && isInt256 s
  | .bytes, .str s => isCanonicalBase64Url s
  | .address, .str s => P.isValidClassicAddress s
  | _, _ => false

/-- A value of a field: of its scalar type, an array of values of its items, or an object whose
members are fields, where every field that is not optional is present. -/
inductive Conforms (P : Platform) : FieldDescriptor → JsValue → Prop
  | scalar {type : ScalarFieldType} {optional : Bool} {value : JsValue}
      (h : conformsScalar P type value = true) : Conforms P (.scalar type optional) value
  | array {items : FieldDescriptor} {optional : Bool} {values : List JsValue}
      (h : ∀ value ∈ values, Conforms P items value) :
      Conforms P (.array items optional) (.arr values)
  | object {fields : SchemaFields} {optional : Bool} {members : Members}
      (known : ∀ m ∈ members, (fields.lookup m.1).isSome = true)
      (present : ∀ f ∈ fields, members.lookup f.1 = none → f.2.isOptional = true)
      (conforms : ∀ f ∈ fields, ∀ value, members.lookup f.1 = some value → Conforms P f.2 value) :
      Conforms P (.object fields optional) (.obj members)

/-- Claims for the fields of a schema. -/
def ClaimsConform (P : Platform) (fields : SchemaFields) (claims : JsValue) : Prop :=
  Conforms P (.object fields false) claims

variable {P : Platform}

theorem parseScalar_eq_ok {type : ScalarFieldType} {value : JsValue} {path : JsString} :
    (∃ r, parseScalar P type value path = .ok r) ↔ conformsScalar P type value = true := by
  cases type with
  | string => cases value <;> simp [parseScalar, conformsScalar, invalidClaims, failXcs]
  | bool => cases value <;> simp [parseScalar, conformsScalar, invalidClaims, failXcs]
  | uint =>
      cases value with
      | str s =>
          simp only [parseScalar, conformsScalar]
          cases isUnsignedInteger s <;> cases isUint256 s <;> simp [invalidClaims, failXcs]
      | _ => simp [parseScalar, conformsScalar, invalidClaims, failXcs]
  | int =>
      cases value with
      | str s =>
          simp only [parseScalar, conformsScalar]
          cases isSignedInteger s <;> cases isInt256 s <;> simp [invalidClaims, failXcs]
      | _ => simp [parseScalar, conformsScalar, invalidClaims, failXcs]
  | bytes =>
      cases value with
      | str s =>
          simp only [parseScalar, conformsScalar]
          cases isCanonicalBase64Url s <;> simp [invalidClaims, failXcs]
      | _ => simp [parseScalar, conformsScalar, invalidClaims, failXcs]
  | address =>
      cases value with
      | str s =>
          simp only [parseScalar, conformsScalar]
          cases P.isValidClassicAddress s <;> simp [invalidClaims, failXcs]
      | _ => simp [parseScalar, conformsScalar, invalidClaims, failXcs]

/-- The loop over the items accepts what the parser of items accepts of each. -/
theorem parseClaimItems_eq_ok {item : ValueParser} {Q : JsValue → Prop}
    (hitem : ∀ v p, (∃ r, item v p = .ok r) ↔ Q v) (path : JsString) :
    ∀ (vs : List JsValue) (index : ℕ),
      (∃ r, parseClaimItems item path vs index = .ok r) ↔ ∀ v ∈ vs, Q v
  | [], _ => by simp [parseClaimItems]
  | v :: vs, index => by
      have hrest := parseClaimItems_eq_ok hitem path vs (index + 1)
      rw [List.forall_mem_cons, ← hrest, ← hitem v (path ++ js "[" ++ natToString index ++ js "]")]
      simp only [parseClaimItems, bind_eq_ok, pure_eq_ok]
      constructor
      · rintro ⟨_, a, ha, rest, hrest, -⟩
        exact ⟨⟨a, ha⟩, rest, hrest⟩
      · rintro ⟨⟨a, ha⟩, rest, hrest⟩
        exact ⟨_, a, ha, rest, hrest, rfl⟩

/-- The loop over the fields accepts members with a value for each field, unless it is optional. -/
theorem parseClaimFields_eq_ok {Q : FieldDescriptor → JsValue → Prop} (members : Members)
    (path : JsString) : ∀ (fields : SchemaFields),
      (∀ f ∈ fields, ∀ v p, (∃ r, parseValue P f.2 v p = .ok r) ↔ Q f.2 v) →
      ((∃ r, parseClaimFields P fields members path = .ok r) ↔
        (∀ f ∈ fields, members.lookup f.1 = none → f.2.isOptional = true) ∧
          ∀ f ∈ fields, ∀ v, members.lookup f.1 = some v → Q f.2 v)
  | [], _ => by simp [parseClaimFields]
  | (name, field) :: fields, hfields => by
      obtain ⟨hfield, hfields⟩ := List.forall_mem_cons.mp hfields
      have hrest := parseClaimFields_eq_ok members path fields hfields
      rw [List.forall_mem_cons, List.forall_mem_cons]
      unfold parseClaimFields
      cases hlookup : members.lookup name with
      | none =>
          dsimp only
          by_cases hoptional : field.isOptional = true
          · rw [if_pos hoptional, hrest]
            exact ⟨fun h => ⟨⟨fun _ => hoptional, h.1⟩, fun v hv => (by cases hv), h.2⟩,
              fun h => ⟨h.1.2, h.2.2⟩⟩
          · rw [if_neg hoptional]
            constructor
            · rintro ⟨r, hr⟩
              cases hr
            · rintro ⟨⟨hpresent, -⟩, -⟩
              exact absurd (hpresent rfl) hoptional
      | some value =>
          dsimp only
          have hvalue := hfield value (path ++ js "." ++ name)
          simp only [bind_eq_ok, pure_eq_ok]
          constructor
          · rintro ⟨_, claim, hclaim, claims, hclaims, -⟩
            obtain ⟨hpresent, hconforms⟩ := hrest.mp ⟨claims, hclaims⟩
            refine ⟨⟨fun hnone => (by cases hnone), hpresent⟩, fun v hv => ?_, hconforms⟩
            cases hv
            exact hvalue.mp ⟨claim, hclaim⟩
          · rintro ⟨⟨-, hpresent⟩, hconforms, hrestConforms⟩
            obtain ⟨claim, hclaim⟩ := hvalue.mpr (hconforms value rfl)
            obtain ⟨claims, hclaims⟩ := hrest.mpr ⟨hpresent, hrestConforms⟩
            exact ⟨_, claim, hclaim, claims, hclaims, rfl⟩

theorem rejectUnknownClaims_eq_ok {members : Members} {fields : SchemaFields} {path : JsString}
    {u : Unit} : rejectUnknownClaims members fields path = .ok u ↔
      ∀ m ∈ members, (fields.lookup m.1).isSome = true := by
  unfold rejectUnknownClaims
  split
  · rename_i m hm
    refine ⟨fun h => (by cases h), fun h => ?_⟩
    have hmem := h m (List.mem_of_find?_eq_some hm)
    have hunknown := List.find?_some hm
    rw [Option.isNone_iff_eq_none] at hunknown
    rw [hunknown] at hmem
    cases hmem
  · rename_i hnone
    refine ⟨fun _ m hm => ?_, fun _ => rfl⟩
    have hknown := List.find?_eq_none.mp hnone m hm
    rwa [Bool.not_eq_true, Option.isNone_eq_false_iff] at hknown

/-- What the parser of objects accepts, for a loop over the fields. -/
theorem parseObjectWith_eq_ok {loop : Members → JsString → Except Thrown Members} {value : JsValue}
    {fields : SchemaFields} {path : JsString} :
    (∃ r, parseObjectWith loop value fields path = .ok r) ↔
      ∃ members, value = .obj members ∧ (∀ m ∈ members, (fields.lookup m.1).isSome = true) ∧
        ∃ claims, loop members path = .ok claims := by
  cases value with
  | obj members =>
      simp only [parseObjectWith, bind_eq_ok, rejectUnknownClaims_eq_ok, pure_eq_ok]
      constructor
      · rintro ⟨_, -, hknown, claims, hclaims, -⟩
        exact ⟨members, rfl, hknown, claims, hclaims⟩
      · rintro ⟨_, hmembers, hknown, claims, hclaims⟩
        cases hmembers
        exact ⟨_, (), hknown, claims, hclaims, rfl⟩
  | _ =>
      constructor
      · rintro ⟨r, hr⟩
        cases hr
      · rintro ⟨members, hmembers, -⟩
        cases hmembers

/-- **The parser accepts the values that conform**, whatever their path. -/
theorem parseValue_eq_ok : ∀ (field : FieldDescriptor) (value : JsValue) (path : JsString),
    (∃ r, parseValue P field value path = .ok r) ↔ Conforms P field value := by
  intro field
  induction field using FieldDescriptor.induct with
  | scalar type optional =>
      intro value path
      have hconforms : Conforms P (.scalar type optional) value
          ↔ conformsScalar P type value = true := by
        refine ⟨fun h => ?_, .scalar⟩
        cases h with
        | scalar h => exact h
      rw [hconforms]
      unfold parseValue
      by_cases hnull : value.isNull = true
      · rw [if_pos hnull]
        rw [JsValue.isNull_iff] at hnull
        subst hnull
        constructor
        · rintro ⟨r, hr⟩
          cases hr
        · cases type <;> exact fun h => (by cases h)
      · rw [if_neg hnull]
        exact parseScalar_eq_ok
  | array items optional ih =>
      intro value path
      unfold parseValue
      cases value with
      | arr values =>
          have hconforms : Conforms P (.array items optional) (.arr values)
              ↔ ∀ value ∈ values, Conforms P items value := by
            refine ⟨fun h => ?_, .array⟩
            cases h with
            | array h => exact h
          rw [hconforms, ← parseClaimItems_eq_ok ih path values 0]
          simp only [JsValue.isNull, Bool.false_eq_true, if_false, bind_eq_ok, pure_eq_ok]
          constructor
          · rintro ⟨_, parsed, hparsed, -⟩
            exact ⟨parsed, hparsed⟩
          · rintro ⟨parsed, hparsed⟩
            exact ⟨_, parsed, hparsed, rfl⟩
      | _ =>
          constructor
          · rintro ⟨r, hr⟩
            cases hr
          · rintro ⟨⟩
  | object fields optional ih =>
      intro value path
      unfold parseValue
      by_cases hnull : value.isNull = true
      · rw [if_pos hnull]
        rw [JsValue.isNull_iff] at hnull
        subst hnull
        constructor
        · rintro ⟨r, hr⟩
          cases hr
        · rintro ⟨⟩
      · rw [if_neg hnull, parseObjectWith_eq_ok]
        constructor
        · rintro ⟨members, rfl, hknown, hclaims⟩
          obtain ⟨hpresent, hconforms⟩ := (parseClaimFields_eq_ok members path fields ih).mp hclaims
          exact .object hknown hpresent hconforms
        · rintro ⟨⟩
          rename_i members hknown hpresent hconforms
          exact ⟨members, rfl, hknown,
            (parseClaimFields_eq_ok members path fields ih).mpr ⟨hpresent, hconforms⟩⟩

/-- **The claims that are accepted are the ones that conform.** -/
theorem parseClaims_eq_ok {input : JsValue} {fields : SchemaFields} :
    (∃ r, parseClaims P input fields = .ok r) ↔ ClaimsConform P fields input := by
  have hvalue := @parseValue_eq_ok P (.object fields false) input (js "$.claims")
  unfold ClaimsConform
  rw [← hvalue]
  unfold parseValue
  by_cases hnull : input.isNull = true
  · rw [if_pos hnull]
    rw [JsValue.isNull_iff] at hnull
    subst hnull
    constructor
    · rintro ⟨r, hr⟩
      cases hr
    · rintro ⟨r, hr⟩
      cases hr
  · rw [if_neg hnull]
    exact Iff.rfl

/-! ## The order of members -/

theorem conformsScalar_canon (type : ScalarFieldType) (value : JsValue) :
    conformsScalar P type value.canon = conformsScalar P type value := by
  cases value with
  | num n => cases type <;> rfl
  | arr items => cases type <;> rfl
  | obj members => cases type <;> rfl
  | _ => rfl

/-- A value conforms whatever the order of the members of its objects is. -/
theorem conforms_canon : ∀ (field : FieldDescriptor) (value : JsValue),
    Conforms P field value.canon ↔ Conforms P field value := by
  intro field
  induction field using FieldDescriptor.induct with
  | scalar type optional =>
      intro value
      constructor
      · rintro ⟨h⟩
        exact .scalar (by rwa [conformsScalar_canon] at h)
      · rintro ⟨h⟩
        exact .scalar (by rwa [conformsScalar_canon])
  | array items optional ih =>
      intro value
      cases value with
      | arr values =>
          rw [JsValue.canon_arr]
          constructor
          · rintro ⟨⟩
            rename_i h
            exact .array fun v hv => (ih v).mp (h _ (List.mem_map_of_mem hv))
          · rintro ⟨⟩
            rename_i h
            refine .array fun w hw => ?_
            obtain ⟨v, hv, rfl⟩ := List.mem_map.mp hw
            exact (ih v).mpr (h v hv)
      | obj members =>
          rw [JsValue.canon_obj]
          exact ⟨fun h => (by cases h), fun h => (by cases h)⟩
      | num n => exact ⟨fun h => (by cases h), fun h => (by cases h)⟩
      | _ => exact Iff.rfl
  | object fields optional ih =>
      intro value
      cases value with
      | obj members =>
          rw [JsValue.canon_obj]
          constructor
          · rintro ⟨⟩
            rename_i hknown hpresent hconforms
            refine .object (fun m hm => ?_) (fun f hf hnone => ?_) (fun f hf v hv => ?_)
            · exact hknown (m.1, m.2.canon) (mem_sortMembers.mpr
                (List.mem_map_of_mem (f := fun m => (m.1, m.2.canon)) hm))
            · refine hpresent f hf ?_
              rw [JsValue.lookup_canonMembers, hnone]
              rfl
            · refine (ih f hf v).mp (hconforms f hf _ ?_)
              rw [JsValue.lookup_canonMembers, hv]
              rfl
          · rintro ⟨⟩
            rename_i hknown hpresent hconforms
            refine .object (fun m hm => ?_) (fun f hf hnone => ?_) (fun f hf v hv => ?_)
            · obtain ⟨n, hn, rfl⟩ := List.mem_map.mp (mem_sortMembers.mp hm)
              exact hknown n hn
            · rw [JsValue.lookup_canonMembers, Option.map_eq_none_iff] at hnone
              exact hpresent f hf hnone
            · rw [JsValue.lookup_canonMembers, Option.map_eq_some_iff] at hv
              obtain ⟨w, hw, rfl⟩ := hv
              exact (ih f hf w).mpr (hconforms f hf w hw)
      | arr items =>
          rw [JsValue.canon_arr]
          exact ⟨fun h => (by cases h), fun h => (by cases h)⟩
      | num n => exact ⟨fun h => (by cases h), fun h => (by cases h)⟩
      | _ => exact Iff.rfl

/-! ## What is thrown -/

theorem onlyXcs_parseScalar (type : ScalarFieldType) (value : JsValue) (path : JsString) :
    OnlyXcs (parseScalar P type value path) := by
  unfold parseScalar
  split
  all_goals try split_ifs
  all_goals first
    | exact onlyXcs_ok _
    | exact onlyXcs_failXcs _ _ _ _

theorem onlyXcs_parseClaimItems {item : ValueParser} (hitem : ∀ v p, OnlyXcs (item v p))
    (path : JsString) : ∀ (vs : List JsValue) (index : ℕ),
      OnlyXcs (parseClaimItems item path vs index)
  | [], _ => onlyXcs_ok _
  | v :: vs, index => (hitem v _).bind fun _ _ =>
      (onlyXcs_parseClaimItems hitem path vs (index + 1)).bind fun _ _ => onlyXcs_ok _

theorem onlyXcs_rejectUnknownClaims (members : Members) (fields : SchemaFields)
    (path : JsString) : OnlyXcs (rejectUnknownClaims members fields path) := by
  unfold rejectUnknownClaims
  split
  · exact onlyXcs_failXcs _ _ _ _
  · exact onlyXcs_ok _

theorem onlyXcs_parseClaimFields (members : Members) (path : JsString) :
    ∀ (fields : SchemaFields), (∀ f ∈ fields, ∀ v p, OnlyXcs (parseValue P f.2 v p)) →
      OnlyXcs (parseClaimFields P fields members path)
  | [], _ => onlyXcs_ok _
  | (name, field) :: fields, hfields => by
      obtain ⟨hfield, hfields⟩ := List.forall_mem_cons.mp hfields
      have hrest := onlyXcs_parseClaimFields members path fields hfields
      unfold parseClaimFields
      cases members.lookup name with
      | none =>
          dsimp only
          split_ifs
          · exact hrest
          · exact onlyXcs_failXcs _ _ _ _
      | some value =>
          exact (hfield value _).bind fun _ _ => hrest.bind fun _ _ => onlyXcs_ok _

theorem onlyXcs_parseObjectWith {loop : Members → JsString → Except Thrown Members}
    (hloop : ∀ members p, OnlyXcs (loop members p)) (value : JsValue) (fields : SchemaFields)
    (path : JsString) : OnlyXcs (parseObjectWith loop value fields path) := by
  cases value with
  | obj members =>
      exact (onlyXcs_rejectUnknownClaims members fields path).bind fun _ _ =>
        (hloop members path).bind fun _ _ => onlyXcs_ok _
  | _ => exact onlyXcs_failXcs _ _ _ _

/-- The parser throws nothing but errors of the protocol. -/
theorem onlyXcs_parseValue : ∀ (field : FieldDescriptor) (value : JsValue) (path : JsString),
    OnlyXcs (parseValue P field value path) := by
  intro field
  induction field using FieldDescriptor.induct with
  | scalar type optional =>
      intro value path
      unfold parseValue
      split_ifs
      · exact onlyXcs_failXcs _ _ _ _
      · exact onlyXcs_parseScalar type value path
  | array items optional ih =>
      intro value path
      unfold parseValue
      split_ifs
      · exact onlyXcs_failXcs _ _ _ _
      · cases value with
        | arr values =>
            exact (onlyXcs_parseClaimItems ih path values 0).bind fun _ _ => onlyXcs_ok _
        | _ => exact onlyXcs_failXcs _ _ _ _
  | object fields optional ih =>
      intro value path
      unfold parseValue
      split_ifs
      · exact onlyXcs_failXcs _ _ _ _
      · exact onlyXcs_parseObjectWith
          (fun members p => onlyXcs_parseClaimFields members p fields ih) value fields path

theorem onlyXcs_parseClaims (input : JsValue) (fields : SchemaFields) :
    OnlyXcs (parseClaims P input fields) :=
  onlyXcs_parseObjectWith (fun members p => onlyXcs_parseClaimFields members p fields
    fun f _ => onlyXcs_parseValue f.2) input fields (js "$.claims")

end Core
end Xcs
