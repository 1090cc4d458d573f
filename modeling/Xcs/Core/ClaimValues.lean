import Xcs.Core.JsonEquality
import Xcs.Core.PayloadRoundTrip
import Xcs.Json.Integers

/-!
# The values of claims

`IsClaim` says what a value of a descriptor is without the tests of the parser: an unsigned integer
is the decimal text of a number from 0 to 2^256 - 1, a signed one of a number from -2^255 to 2^255 -
1, and bytes are what base 64 makes of them.

`parseClaims_exact` says that the parser accepts these values and returns them.
-/

namespace Xcs
namespace Core

open Js Json

/-! ## Decimal texts -/

/-- The decimal text of an integer. -/
def intToString (z : ℤ) : JsString :=
  if z < 0 then 0x2d :: natToString z.natAbs else natToString z.natAbs

@[simp] theorem bigNat_natToString (n : ℕ) : bigNat (natToString n) = n := by
  rw [bigNat, natToString, map_digitUnits fun _ hd => lt_ten_of_mem_natDigits hd,
    ofDigits_natDigits]

theorem isUnsignedInteger_natToString (n : ℕ) : isUnsignedInteger (natToString n) = true := by
  rcases Nat.eq_zero_or_pos n with rfl | hn
  · rw [natToString_zero]
    rfl
  · obtain ⟨u, rest, htext, hu, hdigit, hrest⟩ := natToString_cons hn
    rw [htext, isUnsignedInteger, beq_false_of_ne hu, hdigit, hrest]
    rfl

/-- **The canonical decimal texts** are the texts of the naturals. -/
theorem natToString_bigNat {s : JsString} (h : isUnsignedInteger s = true) :
    natToString (bigNat s) = s := by
  have hdigits : s.all isDigit = true ∧ s ≠ [] ∧ (1 < s.length → s.head? ≠ some 0x30) := by
    cases s with
    | nil => cases h
    | cons u rest =>
        rw [isUnsignedInteger] at h
        by_cases hu : u = 0x30
        · subst hu
          rw [beq_self_eq_true, if_pos rfl, List.isEmpty_iff] at h
          subst h
          exact ⟨by decide, by simp, by simp⟩
        · rw [beq_false_of_ne hu, if_neg (by decide)] at h
          exact ⟨h, List.cons_ne_nil _ _, fun _ hhead => hu (Option.some.inj hhead)⟩
  obtain ⟨hall, hne, hhead⟩ := hdigits
  rw [natToString, bigNat, natDigits_ofDigits, digitUnits_map hall]
  · intro d hd
    obtain ⟨u, hu, rfl⟩ := List.mem_map.mp hd
    have := List.all_eq_true.mp hall u hu
    simp only [isDigit, Bool.and_eq_true, decide_eq_true_eq, UInt16.le_iff_toNat_le] at this
    simp only [UInt16.reduceToNat] at this
    omega
  · simpa using hne
  · rw [List.length_map, List.head?_map]
    intro hlength hzero
    obtain ⟨u, hu, hvalue⟩ := Option.map_eq_some_iff.mp hzero
    have hdigit := List.all_eq_true.mp hall u (List.mem_of_head? hu)
    simp only [isDigit, Bool.and_eq_true, decide_eq_true_eq, UInt16.le_iff_toNat_le] at hdigit
    simp only [UInt16.reduceToNat] at hdigit
    refine hhead hlength ?_
    rw [hu, Option.some.injEq, ← UInt16.toNat_inj]
    simp only [UInt16.reduceToNat]
    omega

/-- The texts of the type `uint`: the bound on the length refuses nothing. -/
theorem isUint_iff {s : JsString} : (isUnsignedInteger s && isUint256 s) = true ↔
    ∃ n : ℕ, n ≤ 2 ^ 256 - 1 ∧ s = natToString n := by
  rw [Bool.and_eq_true, isUint256, decide_eq_true_eq, uint256Max]
  constructor
  · rintro ⟨hform, -, hmax⟩
    exact ⟨bigNat s, hmax, (natToString_bigNat hform).symm⟩
  · rintro ⟨n, hmax, rfl⟩
    rw [bigNat_natToString]
    refine ⟨isUnsignedInteger_natToString n, ?_, hmax⟩
    exact length_natToString_le (lt_of_le_of_lt hmax (by norm_num))

-- The bounds as the source writes them.
example : uint256Max =
    115792089237316195423570985008687907853269984665640564039457584007913129639935 := by decide

example : (2 ^ 255 - 1 : ℤ) =
    57896044618658097711785492504343953926634992332820282019728792003956564819967 := by norm_num

theorem bigInt_natToString (n : ℕ) : bigInt (natToString n) = n := by
  rcases Nat.eq_zero_or_pos n with rfl | hn
  · rw [natToString_zero]
    rfl
  · obtain ⟨u, rest, htext, -, hdigit, -⟩ := natToString_cons hn
    have hminus : u ≠ 0x2d := by
      rintro rfl
      cases hdigit
    have hvalue := bigNat_natToString n
    rw [htext] at hvalue ⊢
    rw [bigInt, beq_false_of_ne hminus, if_neg (by decide), hvalue]

@[simp] theorem bigInt_intToString (z : ℤ) : bigInt (intToString z) = z := by
  rw [intToString]
  split_ifs with hz
  · rw [bigInt, beq_self_eq_true, if_pos rfl, bigNat_natToString]
    omega
  · rw [bigInt_natToString]
    omega

theorem isSignedInteger_of_not_minus {s : JsString} (h : s.head? ≠ some 0x2d) :
    isSignedInteger s = isUnsignedInteger s := by
  cases s with
  | nil => rfl
  | cons u rest =>
      have hu : u ≠ 0x2d := fun hu => h (congrArg some hu)
      rw [isSignedInteger, beq_false_of_ne hu, if_neg (by decide)]

theorem head?_natToString (n : ℕ) : (natToString n).head? ≠ some 0x2d := by
  rcases Nat.eq_zero_or_pos n with rfl | hn
  · decide
  · obtain ⟨u, rest, htext, -, hdigit, -⟩ := natToString_cons hn
    rw [htext, List.head?_cons, Ne, Option.some.injEq]
    rintro rfl
    cases hdigit

/-- **The canonical signed decimal texts** are the texts of the integers. -/
theorem isSignedInteger_iff {s : JsString} :
    isSignedInteger s = true ↔ s = intToString (bigInt s) := by
  constructor
  · intro h
    cases s with
    | nil => cases h
    | cons u rest =>
        by_cases hu : u = 0x2d
        · subst hu
          rw [isSignedInteger, beq_self_eq_true, if_pos rfl, Bool.and_eq_true, bne_iff_ne] at h
          obtain ⟨hhead, hform⟩ := h
          have htext := natToString_bigNat hform
          have hpos : 0 < bigNat rest := by
            rw [Nat.pos_iff_ne_zero]
            intro hzero
            rw [hzero, natToString_zero] at htext
            rw [← htext] at hhead
            exact hhead rfl
          rw [bigInt, beq_self_eq_true, if_pos rfl, intToString, if_pos (by omega), Int.natAbs_neg,
            Int.natAbs_natCast, htext]
        · rw [isSignedInteger, beq_false_of_ne hu, if_neg (by decide)] at h
          rw [bigInt, beq_false_of_ne hu, if_neg (by decide), intToString, if_neg (by omega),
            Int.natAbs_natCast, natToString_bigNat h]
  · intro h
    rw [h, intToString]
    split_ifs with hz
    · obtain ⟨u, rest, htext, hu, -⟩ := natToString_cons (Int.natAbs_pos.mpr hz.ne)
      rw [isSignedInteger, beq_self_eq_true, if_pos rfl, isUnsignedInteger_natToString, htext,
        List.head?_cons, Bool.and_true, bne_iff_ne, Ne, Option.some.injEq]
      exact hu
    · rw [isSignedInteger_of_not_minus (head?_natToString _), isUnsignedInteger_natToString]

/-- The texts of the type `int`: the bound on the length refuses nothing. -/
theorem isInt_iff {s : JsString} : (isSignedInteger s && isInt256 s) = true ↔
    ∃ z : ℤ, -2 ^ 255 ≤ z ∧ z ≤ 2 ^ 255 - 1 ∧ s = intToString z := by
  rw [Bool.and_eq_true, isInt256, decide_eq_true_eq, isSignedInteger_iff]
  constructor
  · rintro ⟨hform, -, hmin, hmax⟩
    exact ⟨bigInt s, hmin, hmax, hform⟩
  · rintro ⟨z, hmin, hmax, rfl⟩
    rw [bigInt_intToString]
    refine ⟨rfl, ?_, hmin, hmax⟩
    have hlength : (natToString z.natAbs).length ≤ 78 :=
      length_natToString_le (by omega)
    rw [intToString]
    split_ifs
    · rw [List.length_cons]
      omega
    · omega

/-! ## Base 64 -/

theorem base64UrlValue_base64UrlDigit : ∀ n < 64, base64UrlValue (base64UrlDigit n) = some n := by
  decide

/-- What is encoded is decoded. -/
theorem decodeBase64Url_encodeBase64Url (bytes : List UInt8) :
    decodeBase64Url (encodeBase64Url bytes) = some bytes := by
  have hdigit := base64UrlValue_base64UrlDigit
  fun_induction encodeBase64Url bytes with
  | case1 => rfl
  | case2 x =>
      have hx := x.toNat_lt
      rw [decodeBase64Url, hdigit _ (by omega), hdigit _ (by omega)]
      dsimp only
      rw [if_pos (by omega)]
      exact congrArg (fun b => some [b]) (eq_toUInt8 (by omega))
  | case3 x y =>
      have hx := x.toNat_lt
      have hy := y.toNat_lt
      rw [decodeBase64Url, hdigit _ (by omega), hdigit _ (by omega), hdigit _ (by omega)]
      dsimp only
      rw [if_pos (by omega)]
      exact congrArg₂ (fun b c => some [b, c]) (eq_toUInt8 (by omega)) (eq_toUInt8 (by omega))
  | case4 x y z rest ih =>
      have hx := x.toNat_lt
      have hy := y.toNat_lt
      have hz := z.toNat_lt
      rw [decodeBase64Url, hdigit _ (by omega), hdigit _ (by omega), hdigit _ (by omega),
        hdigit _ (by omega), ih]
      exact congrArg some (congrArg₂ List.cons (eq_toUInt8 (by omega))
        (congrArg₂ List.cons (eq_toUInt8 (by omega))
          (congrArg (· :: rest) (eq_toUInt8 (by omega)))))

/-- **The canonical base 64 texts** are the encodings. -/
theorem isCanonicalBase64Url_iff {s : JsString} :
    isCanonicalBase64Url s = true ↔ ∃ bytes, s = encodeBase64Url bytes := by
  rw [isCanonicalBase64Url, Option.any_eq_true]
  constructor
  · rintro ⟨bytes, -, heq⟩
    exact ⟨bytes, (beq_iff_eq.mp heq).symm⟩
  · rintro ⟨bytes, rfl⟩
    exact ⟨bytes, decodeBase64Url_encodeBase64Url bytes, beq_self_eq_true _⟩

/-! ## Claims -/

variable {P : Platform}

/-- The values of a scalar type. -/
def IsScalarClaim (P : Platform) : ScalarFieldType → JsValue → Prop
  | .string, value => ∃ s, value = .str s
  | .bool, value => ∃ b, value = .bool b
  | .uint, value => ∃ n : ℕ, n ≤ 2 ^ 256 - 1 ∧ value = .str (natToString n)
  | .int, value => ∃ z : ℤ, -2 ^ 255 ≤ z ∧ z ≤ 2 ^ 255 - 1 ∧ value = .str (intToString z)
  | .bytes, value => ∃ bytes, value = .str (encodeBase64Url bytes)
  | .address, value => ∃ s, P.isValidClassicAddress s = true ∧ value = .str s

/-- A value of a descriptor; an object has fields as keys, has every field that is not optional, and
has a value of the descriptor under each. -/
inductive IsClaim (P : Platform) : FieldDescriptor → JsValue → Prop
  | scalar {type : ScalarFieldType} {optional : Bool} {value : JsValue}
      (h : IsScalarClaim P type value) : IsClaim P (.scalar type optional) value
  | array {items : FieldDescriptor} {optional : Bool} {values : List JsValue}
      (h : ∀ value ∈ values, IsClaim P items value) :
      IsClaim P (.array items optional) (.arr values)
  | object {fields : SchemaFields} {optional : Bool} {members : Members}
      (known : ∀ m ∈ members, m.1 ∈ fields.map (·.1))
      (present : ∀ f ∈ fields, f.2.isOptional = false → f.1 ∈ members.map (·.1))
      (claims : ∀ f ∈ fields, ∀ value, (f.1, value) ∈ members → IsClaim P f.2 value) :
      IsClaim P (.object fields optional) (.obj members)

/-- The tests of the parser accept the values of a scalar type. -/
theorem conformsScalar_iff {type : ScalarFieldType} {value : JsValue} :
    conformsScalar P type value = true ↔ IsScalarClaim P type value := by
  cases type with
  | string => cases value <;> simp [conformsScalar, IsScalarClaim]
  | bool => cases value <;> simp [conformsScalar, IsScalarClaim]
  | uint =>
      cases value with
      | str s =>
          rw [conformsScalar, isUint_iff]
          simp only [IsScalarClaim, JsValue.str.injEq]
      | _ => simp [conformsScalar, IsScalarClaim]
  | int =>
      cases value with
      | str s =>
          rw [conformsScalar, isInt_iff]
          simp only [IsScalarClaim, JsValue.str.injEq]
      | _ => simp [conformsScalar, IsScalarClaim]
  | bytes =>
      cases value with
      | str s =>
          rw [conformsScalar, isCanonicalBase64Url_iff]
          simp only [IsScalarClaim, JsValue.str.injEq]
      | _ => simp [conformsScalar, IsScalarClaim]
  | address => cases value <;> simp [conformsScalar, IsScalarClaim]

theorem lookup_isSome_iff {α : Type*} {key : JsString} {members : List (JsString × α)} :
    (members.lookup key).isSome = true ↔ key ∈ members.map (·.1) := by
  rw [Option.isSome_iff_ne_none, Ne, List.lookup_eq_none_iff]
  constructor
  · intro h
    by_contra hkey
    refine h fun m hm => bne_iff_ne.mpr ?_
    rintro rfl
    exact hkey (List.mem_map_of_mem hm)
  · intro hkey h
    obtain ⟨m, hm, rfl⟩ := List.mem_map.mp hkey
    exact bne_iff_ne.mp (h m hm) rfl

/-- **The values that conform** are the claims. -/
theorem conforms_iff_isClaim : ∀ (field : FieldDescriptor) {value : JsValue},
    value.distinctKeys = true → (Conforms P field value ↔ IsClaim P field value) := by
  intro field
  induction field using FieldDescriptor.induct with
  | scalar type optional =>
      intro value _
      constructor
      · rintro ⟨h⟩
        exact .scalar (conformsScalar_iff.mp h)
      · rintro ⟨h⟩
        exact .scalar (conformsScalar_iff.mpr h)
  | array items optional ih =>
      intro value hkeys
      constructor
      · rintro ⟨⟩
        rename_i values h
        rw [JsValue.distinctKeys_arr, List.all_eq_true] at hkeys
        exact .array fun v hv => (ih (hkeys v hv)).mp (h v hv)
      · rintro ⟨⟩
        rename_i values h
        rw [JsValue.distinctKeys_arr, List.all_eq_true] at hkeys
        exact .array fun v hv => (ih (hkeys v hv)).mpr (h v hv)
  | object fields optional ih =>
      intro value hkeys
      constructor
      · rintro ⟨⟩
        rename_i members hknown hpresent hconforms
        rw [JsValue.distinctKeys_obj, Bool.and_eq_true, decide_eq_true_eq, List.all_eq_true]
          at hkeys
        refine .object (fun m hm => lookup_isSome_iff.mp (hknown m hm)) (fun f hf hrequired => ?_)
          fun f hf v hv => ?_
        · rw [← lookup_isSome_iff, Option.isSome_iff_ne_none]
          intro hnone
          rw [hpresent f hf hnone] at hrequired
          cases hrequired
        · exact (ih f hf (hkeys.2 _ hv)).mp
            (hconforms f hf v ((JsValue.lookup_eq_some_iff_mem hkeys.1).mpr hv))
      · rintro ⟨⟩
        rename_i members hknown hpresent hclaims
        rw [JsValue.distinctKeys_obj, Bool.and_eq_true, decide_eq_true_eq, List.all_eq_true]
          at hkeys
        refine .object (fun m hm => lookup_isSome_iff.mpr (hknown m hm)) (fun f hf hnone => ?_)
          fun f hf v hv => ?_
        · by_contra hrequired
          have hmem := hpresent f hf (by simpa using hrequired)
          rw [← lookup_isSome_iff, hnone] at hmem
          cases hmem
        · have hmem := (JsValue.lookup_eq_some_iff_mem hkeys.1).mp hv
          exact (ih f hf (hkeys.2 _ hmem)).mpr (hclaims f hf v hmem)

/-- A test that strings, booleans, arrays and objects pass holds everywhere in a claim. -/
theorem IsClaim.every {p : JsValue → Bool} (hstr : ∀ s, p (.str s) = true)
    (hbool : ∀ b, p (.bool b) = true) (harr : ∀ items, p (.arr items) = true)
    (hobj : ∀ members, p (.obj members) = true) {field : FieldDescriptor} {value : JsValue}
    (h : IsClaim P field value) : value.every p = true := by
  induction h with
  | @scalar type optional value h =>
      cases type with
      | string => obtain ⟨s, rfl⟩ := h; exact hstr s
      | bool => obtain ⟨b, rfl⟩ := h; exact hbool b
      | uint => obtain ⟨n, -, rfl⟩ := h; exact hstr _
      | int => obtain ⟨z, -, -, rfl⟩ := h; exact hstr _
      | bytes => obtain ⟨bytes, rfl⟩ := h; exact hstr _
      | address => obtain ⟨s, -, rfl⟩ := h; exact hstr s
  | array h ih =>
      rw [JsValue.every_arr, harr, Bool.true_and, List.all_eq_true]
      exact ih
  | object hknown hpresent hclaims ih =>
      rw [JsValue.every_obj, hobj, Bool.true_and, List.all_eq_true]
      intro m hm
      obtain ⟨f, hf, hname⟩ := List.mem_map.mp (hknown m hm)
      exact ih f hf m.2 (by rwa [hname])

/-- A claim has no `null` in it. -/
theorem IsClaim.noNull {field : FieldDescriptor} {value : JsValue} (h : IsClaim P field value) :
    (value.every fun v => !v.isNull) = true :=
  h.every (fun _ => rfl) (fun _ => rfl) (fun _ => rfl) fun _ => rfl

theorem IsClaim.noNegZero {field : FieldDescriptor} {value : JsValue} (h : IsClaim P field value) :
    value.noNegZero = true :=
  h.every (fun _ => rfl) (fun _ => rfl) (fun _ => rfl) fun _ => rfl

/-- **Claim validation is exact.**  The parser accepts an object whose keys are fields, that has
every field that is not optional, no `null` at any level and a value of its descriptor under each;
what it returns is equal to what it was given. -/
theorem parseClaims_exact (P : Platform) {fields : SchemaFields} {input : JsValue}
    (hfields : (FieldDescriptor.object fields false).DistinctNames)
    (hkeys : input.distinctKeys = true) :
    ((∃ r, parseClaims P input fields = .ok r) ↔
      ∃ members, input = .obj members ∧ (∀ m ∈ members, m.1 ∈ fields.map (·.1)) ∧
        (∀ f ∈ fields, f.2.isOptional = false → f.1 ∈ members.map (·.1)) ∧
        (input.every fun v => !v.isNull) = true ∧
        ∀ f ∈ fields, ∀ value, (f.1, value) ∈ members → IsClaim P f.2 value) ∧
    ∀ r, parseClaims P input fields = .ok r → r.isDeepStrictEqual input = true := by
  constructor
  · rw [parseClaims_eq_ok, ClaimsConform, conforms_iff_isClaim _ hkeys]
    constructor
    · intro h
      have hnull := h.noNull
      cases h with
      | object hknown hpresent hclaims => exact ⟨_, rfl, hknown, hpresent, hnull, hclaims⟩
    · rintro ⟨members, rfl, hknown, hpresent, -, hclaims⟩
      exact .object hknown hpresent hclaims
  · intro r h
    have hparsed := parseValue_of_parseClaims h
    have hdistinct := parseValue_distinctKeys _ hfields hparsed
    have hinput := (conforms_iff_isClaim _ hkeys).mp ((parseValue_eq_ok _ _ _).mp ⟨r, hparsed⟩)
    have hresult := (conforms_iff_isClaim _ hdistinct).mp (conforms_of_parseValue _ hfields hparsed)
    exact JsValue.isDeepStrictEqual_of_canon_eq hdistinct hresult.noNegZero hinput.noNegZero
      (parseValue_canon _ hfields hkeys hparsed)

/-- The largest number of a field of the type `uint` is accepted. -/
theorem parseClaims_exact_uint256Max :
    ∃ r, parseClaims Platform.sample (.obj [(js "amount", .str (natToString (2 ^ 256 - 1)))])
      [(js "amount", .scalar .uint false)] = .ok r := by
  have hfields :
      (FieldDescriptor.object [(js "amount", .scalar .uint false)] false).DistinctNames := by
    refine .object (by decide) fun f hf => ?_
    obtain rfl := List.mem_singleton.mp hf
    exact .scalar
  refine (parseClaims_exact Platform.sample hfields (by rfl)).1.mpr
    ⟨_, rfl, by simp, by simp, rfl, fun f hf value hvalue => ?_⟩
  obtain rfl := List.mem_singleton.mp hf
  obtain ⟨-, rfl⟩ := Prod.mk.inj (List.mem_singleton.mp hvalue)
  exact .scalar ⟨_, le_refl _, rfl⟩

end Core
end Xcs
