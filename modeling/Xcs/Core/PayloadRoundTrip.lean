import Xcs.Core.CredentialPayload

/-!
# The payload codec

`encodeCredentialPayload` writes the payload that `parseCredentialPayload` reads, and the bytes are
named by two kinds of URI.

* `parseValue_canon` and `parseValue_unique`: what the parser of claims returns is the value it was
  given with the members in the order of the fields.
* `commits_ipfs` and `commits_https`: the URIs that are made for some bytes commit to them.
* `payload_codec_round_trip` puts both directions together.
-/

namespace Xcs
namespace Core

open Js Json

variable {P : Platform}

/-! ## The claims that are returned -/

/-- No object of fields has two fields with the same name, as is so of every record. -/
inductive FieldDescriptor.DistinctNames : FieldDescriptor → Prop
  | scalar {type : ScalarFieldType} {optional : Bool} : DistinctNames (.scalar type optional)
  | array {items : FieldDescriptor} {optional : Bool} (h : items.DistinctNames) :
      DistinctNames (.array items optional)
  | object {fields : SchemaFields} {optional : Bool} (nodup : (fields.map (·.1)).Nodup)
      (h : ∀ f ∈ fields, f.2.DistinctNames) : DistinctNames (.object fields optional)

/-- The names of claims are names of fields, in the same order. -/
theorem sublist_of_parseClaimFields {members : Members} {path : JsString} :
    ∀ {fields : SchemaFields} {claims : Members},
      parseClaimFields P fields members path = .ok claims →
        (claims.map (·.1)).Sublist (fields.map (·.1))
  | [], claims, h => by
      cases h
      exact .slnil
  | (name, field) :: fields, claims, h => by
      unfold parseClaimFields at h
      cases hlookup : members.lookup name with
      | none =>
          rw [hlookup] at h
          dsimp only at h
          split_ifs at h
          · exact (sublist_of_parseClaimFields h).cons name
          · cases h
      | some value =>
          rw [hlookup] at h
          simp only [bind_eq_ok, pure_eq_ok] at h
          obtain ⟨claim, -, rest, hrest, rfl⟩ := h
          exact (sublist_of_parseClaimFields hrest).cons_cons name

/-- A name that is no field has no claim. -/
theorem lookup_claims_eq_none {members : Members} {path : JsString} {fields : SchemaFields}
    {claims : Members} (h : parseClaimFields P fields members path = .ok claims) {name : JsString}
    (hname : name ∉ fields.map (·.1)) : claims.lookup name = none := by
  rw [List.lookup_eq_none_iff]
  intro m hm
  rw [bne_iff_ne]
  rintro rfl
  exact hname ((sublist_of_parseClaimFields h).subset (List.mem_map_of_mem hm))

/-- A scalar is returned as it is. -/
theorem parseScalar_eq {type : ScalarFieldType} {value r : JsValue} {path : JsString}
    (h : parseScalar P type value path = .ok r) :
    r = value ∧ ((∃ s, r = .str s) ∨ ∃ b, r = .bool b) := by
  have hother (message : JsString) (hr : (invalidClaims message path : Except Thrown JsValue)
      = .ok r) : False := by cases hr
  cases type with
  | string =>
      cases value with
      | str s => cases h; exact ⟨rfl, Or.inl ⟨_, rfl⟩⟩
      | _ => exact (hother _ h).elim
  | bool =>
      cases value with
      | bool b => cases h; exact ⟨rfl, Or.inr ⟨_, rfl⟩⟩
      | _ => exact (hother _ h).elim
  | uint =>
      cases value with
      | str s =>
          unfold parseScalar at h
          dsimp only at h
          split_ifs at h
          · exact (hother _ h).elim
          · exact (hother _ h).elim
          · cases h; exact ⟨rfl, Or.inl ⟨_, rfl⟩⟩
      | _ => exact (hother _ h).elim
  | int =>
      cases value with
      | str s =>
          unfold parseScalar at h
          dsimp only at h
          split_ifs at h
          · exact (hother _ h).elim
          · exact (hother _ h).elim
          · cases h; exact ⟨rfl, Or.inl ⟨_, rfl⟩⟩
      | _ => exact (hother _ h).elim
  | bytes =>
      cases value with
      | str s =>
          unfold parseScalar at h
          dsimp only at h
          split_ifs at h
          · cases h; exact ⟨rfl, Or.inl ⟨_, rfl⟩⟩
          · exact (hother _ h).elim
      | _ => exact (hother _ h).elim
  | address =>
      cases value with
      | str s =>
          unfold parseScalar at h
          dsimp only at h
          split_ifs at h
          · cases h; exact ⟨rfl, Or.inl ⟨_, rfl⟩⟩
          · exact (hother _ h).elim
      | _ => exact (hother _ h).elim

/-- The items of an array are parsed one by one. -/
theorem forall₂_parseClaimItems {item : ValueParser} {path : JsString} :
    ∀ {values : List JsValue} {index : ℕ} {parsed : List JsValue},
      parseClaimItems item path values index = .ok parsed →
        List.Forall₂ (fun value r => ∃ p, item value p = .ok r) values parsed
  | [], _, parsed, h => by
      cases h
      exact .nil
  | value :: values, index, parsed, h => by
      simp only [parseClaimItems, bind_eq_ok, pure_eq_ok] at h
      obtain ⟨r, hr, rest, hrest, rfl⟩ := h
      exact .cons ⟨_, hr⟩ (forall₂_parseClaimItems hrest)

theorem parseValue_scalar {type : ScalarFieldType} {optional : Bool} {value r : JsValue}
    {path : JsString} (h : parseValue P (.scalar type optional) value path = .ok r) :
    r = value ∧ ((∃ s, r = .str s) ∨ ∃ b, r = .bool b) := by
  unfold parseValue at h
  split_ifs at h
  · cases h
  · exact parseScalar_eq h

theorem parseValue_array {items : FieldDescriptor} {optional : Bool} {value r : JsValue}
    {path : JsString} (h : parseValue P (.array items optional) value path = .ok r) :
    ∃ values parsed, value = .arr values ∧ r = .arr parsed ∧
      List.Forall₂ (fun value r => ∃ p, parseValue P items value p = .ok r) values parsed := by
  unfold parseValue at h
  cases value with
  | arr values =>
      simp only [JsValue.isNull, Bool.false_eq_true, if_false, bind_eq_ok, pure_eq_ok] at h
      obtain ⟨parsed, hparsed, rfl⟩ := h
      exact ⟨values, parsed, rfl, rfl, forall₂_parseClaimItems hparsed⟩
  | _ => cases h

theorem parseValue_object {fields : SchemaFields} {optional : Bool} {value r : JsValue}
    {path : JsString} (h : parseValue P (.object fields optional) value path = .ok r) :
    ∃ members claims, value = .obj members ∧ r = .obj claims ∧
      (∀ m ∈ members, (fields.lookup m.1).isSome = true) ∧
      parseClaimFields P fields members path = .ok claims := by
  unfold parseValue at h
  cases value with
  | obj members =>
      simp only [JsValue.isNull, Bool.false_eq_true, if_false, parseObjectWith, bind_eq_ok,
        rejectUnknownClaims_eq_ok, pure_eq_ok] at h
      obtain ⟨_, hknown, claims, hclaims, rfl⟩ := h
      exact ⟨members, claims, rfl, rfl, hknown, hclaims⟩
  | _ => cases h

/-- Each claim comes from a field. -/
theorem exists_of_mem_claims {members : Members} {path : JsString} :
    ∀ {fields : SchemaFields} {claims : Members},
      parseClaimFields P fields members path = .ok claims → ∀ m ∈ claims,
        ∃ f ∈ fields, ∃ value p, parseValue P f.2 value p = .ok m.2
  | [], claims, h => by
      cases h
      exact fun m hm => absurd hm List.not_mem_nil
  | (name, field) :: fields, claims, h => by
      unfold parseClaimFields at h
      cases hlookup : members.lookup name with
      | none =>
          rw [hlookup] at h
          dsimp only at h
          split_ifs at h
          · intro m hm
            obtain ⟨f, hf, hparsed⟩ := exists_of_mem_claims h m hm
            exact ⟨f, List.mem_cons_of_mem _ hf, hparsed⟩
          · cases h
      | some value =>
          rw [hlookup] at h
          simp only [bind_eq_ok, pure_eq_ok] at h
          obtain ⟨claim, hclaim, rest, hrest, rfl⟩ := h
          intro m hm
          rcases List.mem_cons.mp hm with rfl | hm
          · exact ⟨_, List.mem_cons_self, value, _, hclaim⟩
          · obtain ⟨f, hf, hparsed⟩ := exists_of_mem_claims hrest m hm
            exact ⟨f, List.mem_cons_of_mem _ hf, hparsed⟩

/-- **What the parser returns has distinct keys.** -/
theorem parseValue_distinctKeys : ∀ (field : FieldDescriptor) {value r : JsValue} {path : JsString},
    field.DistinctNames → parseValue P field value path = .ok r → r.distinctKeys = true := by
  intro field
  induction field using FieldDescriptor.induct with
  | scalar type optional =>
      intro value r path _ h
      obtain ⟨-, ⟨s, rfl⟩ | ⟨b, rfl⟩⟩ := parseValue_scalar h
      · rfl
      · rfl
  | array items optional ih =>
      rintro value r path ⟨⟩ h
      rename_i hitems
      obtain ⟨values, parsed, -, rfl, hparsed⟩ := parseValue_array h
      rw [JsValue.distinctKeys_arr]
      clear h
      induction hparsed with
      | nil => rfl
      | cons hr _ hrest =>
          obtain ⟨p, hr⟩ := hr
          rw [List.all_cons, ih hitems hr, hrest]
          rfl
  | object fields optional ih =>
      rintro value r path ⟨⟩ h
      rename_i hnodup hfields
      obtain ⟨members, claims, -, rfl, -, hclaims⟩ := parseValue_object h
      rw [JsValue.distinctKeys_obj, Bool.and_eq_true, decide_eq_true_eq, List.all_eq_true]
      refine ⟨hnodup.sublist (sublist_of_parseClaimFields hclaims), fun m hm => ?_⟩
      obtain ⟨f, hf, value, p, hvalue⟩ := exists_of_mem_claims hclaims m hm
      exact ih f hf (hfields f hf) hvalue

/-- **The loop over the fields**: a field of which the members have a value has the claim that is
parsed from it, and another one is optional and has none. -/
theorem claim_of_field {members : Members} {path : JsString} :
    ∀ {fields : SchemaFields} {claims : Members}, (fields.map (·.1)).Nodup →
      parseClaimFields P fields members path = .ok claims → ∀ f ∈ fields,
        (members.lookup f.1 = none ∧ f.2.isOptional = true ∧ claims.lookup f.1 = none) ∨
        ∃ value claim p, members.lookup f.1 = some value ∧ claims.lookup f.1 = some claim ∧
          parseValue P f.2 value p = .ok claim
  | [], _, _, _ => fun f hf => absurd hf List.not_mem_nil
  | (name, field) :: fields, claims, hnodup, h => by
      rw [List.map_cons, List.nodup_cons] at hnodup
      unfold parseClaimFields at h
      intro f hf
      cases hlookup : members.lookup name with
      | none =>
          rw [hlookup] at h
          dsimp only at h
          split_ifs at h with hoptional
          · rcases List.mem_cons.mp hf with rfl | hf
            · exact Or.inl ⟨hlookup, hoptional, lookup_claims_eq_none h hnodup.1⟩
            · exact claim_of_field hnodup.2 h f hf
          · cases h
      | some value =>
          rw [hlookup] at h
          simp only [bind_eq_ok, pure_eq_ok] at h
          obtain ⟨claim, hclaim, rest, hrest, rfl⟩ := h
          rcases List.mem_cons.mp hf with rfl | hf
          · exact Or.inr ⟨value, claim, _, hlookup, List.lookup_cons_self, hclaim⟩
          · have hne : f.1 ≠ name := fun heq =>
              hnodup.1 (heq ▸ List.mem_map_of_mem (f := (·.1)) hf)
            rw [List.lookup_cons, beq_false_of_ne hne]
            exact claim_of_field hnodup.2 hrest f hf

/-- What the parser returns conforms. -/
theorem conforms_of_parseValue : ∀ (field : FieldDescriptor) {value r : JsValue} {path : JsString},
    field.DistinctNames → parseValue P field value path = .ok r → Conforms P field r := by
  intro field
  induction field using FieldDescriptor.induct with
  | scalar type optional =>
      intro value r path _ h
      obtain rfl := (parseValue_scalar h).1
      exact (parseValue_eq_ok _ _ _).mp ⟨_, h⟩
  | array items optional ih =>
      rintro value r path ⟨⟩ h
      rename_i hitems
      obtain ⟨values, parsed, -, rfl, hparsed⟩ := parseValue_array h
      refine .array ?_
      clear h
      induction hparsed with
      | nil => exact fun r hr => absurd hr List.not_mem_nil
      | cons hr _ hrest =>
          obtain ⟨p, hr⟩ := hr
          exact List.forall_mem_cons.mpr ⟨ih hitems hr, hrest⟩
  | object fields optional ih =>
      rintro value r path ⟨⟩ h
      rename_i hnodup hfields
      obtain ⟨members, claims, -, rfl, -, hclaims⟩ := parseValue_object h
      refine .object (fun m hm => ?_) (fun f hf hnone => ?_) fun f hf claim hsome => ?_
      · by_contra hlookup
        rw [Bool.not_eq_true, Option.isSome_eq_false_iff, Option.isNone_iff_eq_none,
          List.lookup_eq_none_iff] at hlookup
        obtain ⟨f, hf, hname⟩ := List.mem_map.mp ((sublist_of_parseClaimFields hclaims).subset
          (List.mem_map_of_mem (f := (·.1)) hm))
        exact bne_iff_ne.mp (hlookup f hf) hname.symm
      · rcases claim_of_field hnodup hclaims f hf with ⟨-, hoptional, -⟩ | ⟨_, _, _, -, hsome, -⟩
        · exact hoptional
        · rw [hsome] at hnone
          cases hnone
      · rcases claim_of_field hnodup hclaims f hf with ⟨-, -, hnone⟩ | ⟨_, _, _, -, hfound, hparsed⟩
        · rw [hnone] at hsome
          cases hsome
        · rw [hfound] at hsome
          cases hsome
          exact ih f hf (hfields f hf) hparsed

/-- **What the parser returns is what it was given**, up to the order of members. -/
theorem parseValue_canon : ∀ (field : FieldDescriptor) {value r : JsValue} {path : JsString},
    field.DistinctNames → value.distinctKeys = true → parseValue P field value path = .ok r →
      r.canon = value.canon := by
  intro field
  induction field using FieldDescriptor.induct with
  | scalar type optional =>
      intro value r path _ _ h
      rw [(parseValue_scalar h).1]
  | array items optional ih =>
      rintro value r path ⟨⟩ hkeys h
      rename_i hitems
      obtain ⟨values, parsed, rfl, rfl, hparsed⟩ := parseValue_array h
      rw [JsValue.canon_arr, JsValue.canon_arr]
      rw [JsValue.distinctKeys_arr, List.all_eq_true] at hkeys
      refine congrArg _ ?_
      clear h
      induction hparsed with
      | nil => rfl
      | cons hr _ hrest =>
          obtain ⟨p, hr⟩ := hr
          obtain ⟨hvalue, hvalues⟩ := List.forall_mem_cons.mp hkeys
          rw [List.map_cons, List.map_cons, ih hitems hvalue hr]
          exact congrArg _ (hrest hvalues)
  | object fields optional ih =>
      rintro value r path ⟨⟩ hkeys h
      rename_i hnodup hfields
      obtain ⟨members, claims, rfl, rfl, hknown, hclaims⟩ := parseValue_object h
      rw [JsValue.distinctKeys_obj, Bool.and_eq_true, decide_eq_true_eq, List.all_eq_true] at hkeys
      refine JsValue.canon_obj_eq (hnodup.sublist (sublist_of_parseClaimFields hclaims)) hkeys.1
        fun name => ?_
      by_cases hname : name ∈ fields.map (·.1)
      · obtain ⟨f, hf, rfl⟩ := List.mem_map.mp hname
        rcases claim_of_field hnodup hclaims f hf with
          ⟨hnone, -, hclaim⟩ | ⟨value, claim, p, hvalue, hclaim, hparsed⟩
        · rw [hclaim, hnone]
        · have hdistinct := hkeys.2 _ ((JsValue.lookup_eq_some_iff_mem hkeys.1).mp hvalue)
          rw [hclaim, hvalue, Option.map_some, Option.map_some,
            ih f hf (hfields f hf) hdistinct hparsed]
      · have hmembers : members.lookup name = none := by
          rw [List.lookup_eq_none_iff]
          intro m hm
          rw [bne_iff_ne]
          rintro rfl
          refine hname ?_
          obtain ⟨field, hfield⟩ := Option.isSome_iff_exists.mp (hknown m hm)
          exact List.mem_map_of_mem (f := (·.1))
            ((JsValue.lookup_eq_some_iff_mem hnodup).mp hfield)
        rw [lookup_claims_eq_none hclaims hname, hmembers]

/-- What two loops over the fields find is the same, if it is the same up to the order of members.
-/
theorem claims_unique {members members' : Members} {path path' : JsString} :
    ∀ {fields : SchemaFields} {claims claims' : Members}, (fields.map (·.1)).Nodup →
      (∀ f ∈ fields, ∀ {value value' r r' : JsValue} {p p' : JsString},
        parseValue P f.2 value p = .ok r → parseValue P f.2 value' p' = .ok r' →
          r.canon = r'.canon → r = r') →
      parseClaimFields P fields members path = .ok claims →
      parseClaimFields P fields members' path' = .ok claims' →
      (∀ name, (claims.lookup name).map JsValue.canon = (claims'.lookup name).map JsValue.canon) →
      claims = claims'
  | [], claims, claims', _, _, h, h', _ => by
      cases h
      cases h'
      rfl
  | (name, field) :: fields, claims, claims', hnodup, hfields, h, h', heq => by
      rw [List.map_cons, List.nodup_cons] at hnodup
      obtain ⟨hfield, hfields⟩ := List.forall_mem_cons.mp hfields
      have hname := heq name
      unfold parseClaimFields at h h'
      cases hlookup : members.lookup name with
      | none =>
          rw [hlookup] at h
          dsimp only at h
          split_ifs at h
          · rw [lookup_claims_eq_none h hnodup.1] at hname
            cases hlookup' : members'.lookup name with
            | none =>
                rw [hlookup'] at h'
                dsimp only at h'
                split_ifs at h'
                exact claims_unique hnodup.2 hfields h h' heq
            | some value' =>
                rw [hlookup'] at h'
                simp only [bind_eq_ok, pure_eq_ok] at h'
                obtain ⟨claim', -, rest', -, rfl⟩ := h'
                rw [List.lookup_cons_self] at hname
                cases hname
          · cases h
      | some value =>
          rw [hlookup] at h
          simp only [bind_eq_ok, pure_eq_ok] at h
          obtain ⟨claim, hclaim, rest, hrest, rfl⟩ := h
          rw [List.lookup_cons_self] at hname
          cases hlookup' : members'.lookup name with
          | none =>
              rw [hlookup'] at h'
              dsimp only at h'
              split_ifs at h'
              · rw [lookup_claims_eq_none h' hnodup.1] at hname
                cases hname
              · cases h'
          | some value' =>
              rw [hlookup'] at h'
              simp only [bind_eq_ok, pure_eq_ok] at h'
              obtain ⟨claim', hclaim', rest', hrest', rfl⟩ := h'
              rw [List.lookup_cons_self] at hname
              rw [hfield hclaim hclaim' (Option.some.inj hname)]
              refine congrArg _ (claims_unique hnodup.2 hfields hrest hrest' fun key => ?_)
              by_cases hkey : key = name
              · rw [hkey, lookup_claims_eq_none hrest hnodup.1,
                  lookup_claims_eq_none hrest' hnodup.1]
              · have hboth := heq key
                rw [List.lookup_cons, List.lookup_cons, beq_false_of_ne hkey] at hboth
                exact hboth

/-- **What the parser returns is determined up to the order of members**, since the members are in
the order of the fields. -/
theorem parseValue_unique : ∀ (field : FieldDescriptor) {value value' r r' : JsValue}
    {path path' : JsString}, field.DistinctNames → parseValue P field value path = .ok r →
      parseValue P field value' path' = .ok r' → r.canon = r'.canon → r = r' := by
  intro field
  induction field using FieldDescriptor.induct with
  | scalar type optional =>
      intro value value' r r' path path' _ h h' heq
      obtain ⟨-, ⟨s, rfl⟩ | ⟨b, rfl⟩⟩ := parseValue_scalar h
      · exact (JsValue.canon_eq_str.mp heq.symm).symm
      · obtain ⟨-, ⟨s, rfl⟩ | ⟨b', rfl⟩⟩ := parseValue_scalar h'
        · cases heq
        · cases heq
          rfl
  | array items optional ih =>
      rintro value value' r r' path path' ⟨⟩ h h' heq
      rename_i hitems
      obtain ⟨values, parsed, -, rfl, hparsed⟩ := parseValue_array h
      obtain ⟨values', parsed', -, rfl, hparsed'⟩ := parseValue_array h'
      rw [JsValue.canon_arr, JsValue.canon_arr, JsValue.arr.injEq] at heq
      refine congrArg _ ?_
      clear h h'
      induction hparsed generalizing values' parsed' with
      | nil =>
          cases parsed' with
          | nil => rfl
          | cons => cases heq
      | cons hr _ hrest =>
          cases hparsed' with
          | nil => cases heq
          | cons hr' hrest' =>
              obtain ⟨p, hr⟩ := hr
              obtain ⟨p', hr'⟩ := hr'
              rw [List.map_cons, List.map_cons, List.cons.injEq] at heq
              rw [ih hitems hr hr' heq.1, hrest _ _ hrest' heq.2]
  | object fields optional ih =>
      rintro value value' r r' path path' ⟨⟩ h h' heq
      rename_i hnodup hfields
      obtain ⟨members, claims, -, rfl, -, hclaims⟩ := parseValue_object h
      obtain ⟨members', claims', -, rfl, -, hclaims'⟩ := parseValue_object h'
      refine congrArg _ (claims_unique hnodup (fun f hf _ _ _ _ _ _ hr hr' =>
        ih f hf (hfields f hf) hr hr') hclaims hclaims' fun name => ?_)
      rw [JsValue.canon_obj, JsValue.canon_obj, JsValue.obj.injEq] at heq
      rw [← JsValue.lookup_canonMembers, ← JsValue.lookup_canonMembers, heq]

theorem parseValue_of_parseClaims {input r : JsValue} {fields : SchemaFields}
    (h : parseClaims P input fields = .ok r) :
    parseValue P (.object fields false) input (js "$.claims") = .ok r := by
  unfold parseValue
  cases input with
  | obj members => exact h
  | _ => cases h

/-! ## Writing a payload -/

/-- A payload as a value. -/
def CredentialPayload.toJs (payload : CredentialPayload) : JsValue :=
  .obj [(js "xcsVersion", .str (js "0.1")), (js "issuer", .str payload.issuer),
    (js "subject", .str payload.subject), (js "schema", .str payload.schema),
    (js "claims", payload.claims)]

/-- `EncodedCredentialPayload` -/
structure EncodedCredentialPayload where
  payload : CredentialPayload
  json : JsString
  bytes : List UInt8

/-- `encodeCredentialPayload` -/
def encodeCredentialPayload (P : Platform) (claims : JsValue) (context : CredentialContext) :
    Except Thrown EncodedCredentialPayload := do
  let payload ← parsePayload P
    (CredentialPayload.toJs ⟨context.issuer, context.subject, context.schemaUid, claims⟩) context
  let json ← canonicalJson P payload.toJs
  let bytes ← encodeCanonicalJson P payload.toJs
  let _ ← payloadBytes (.bytes bytes)
  pure { payload, json, bytes }

section Codec

variable {context : CredentialContext}

/-- What the parser of payloads returns. -/
theorem parsePayload_eq {v : JsValue} {payload : CredentialPayload}
    (h : parsePayload P v context = .ok payload) :
    ∃ claims, parseClaims P (v.get (js "claims")) context.fields = .ok claims ∧
      payload = ⟨context.issuer, context.subject, context.schemaUid, claims⟩ := by
  simp only [parsePayload, bind_eq_ok] at h
  obtain ⟨_, -, h⟩ := h
  cases v with
  | obj members =>
      simp only [bind_eq_ok, pure_eq_ok] at h
      obtain ⟨_, -, _, -, _, -, _, -, _, -, claims, hclaims, rfl⟩ := h
      exact ⟨claims, hclaims, rfl⟩
  | _ => cases h

theorem encodeCredentialPayload_eq_ok {claims : JsValue} {encoded : EncodedCredentialPayload} :
    encodeCredentialPayload P claims context = .ok encoded ↔
      parsePayload P (CredentialPayload.toJs
          ⟨context.issuer, context.subject, context.schemaUid, claims⟩) context
        = .ok encoded.payload ∧
      isWritable P encoded.payload.toJs = true ∧
      encoded.json = canonicalText encoded.payload.toJs ∧
      encoded.bytes = encodeUtf8 (canonicalText encoded.payload.toJs) ∧
      encoded.bytes.length ≤ maxPayloadBytes := by
  simp only [encodeCredentialPayload, encodeCanonicalJson, bind_eq_ok, canonicalJson_eq_ok,
    payloadBytes_eq_ok, pure_eq_ok]
  constructor
  · rintro ⟨payload, hpayload, _, ⟨hwritable, rfl⟩, _, ⟨_, ⟨-, rfl⟩, rfl⟩, _, ⟨hsize, -⟩, rfl⟩
    exact ⟨hpayload, hwritable, rfl, rfl, of_decide_eq_true hsize⟩
  · rintro ⟨hpayload, hwritable, hjson, hbytes, hsize⟩
    refine ⟨_, hpayload, _, ⟨hwritable, hjson⟩, _, ⟨_, ⟨hwritable, rfl⟩, hbytes.symm⟩, _,
      ⟨decide_eq_true hsize, rfl⟩, rfl⟩

/-- A payload whose claims conform is the envelope for its context. -/
theorem isEnvelope_toJs {v : JsValue} (h : IsEnvelope P context v) {claims : JsValue}
    (hclaims : ClaimsConform P context.fields claims) :
    IsEnvelope P context (CredentialPayload.toJs
      ⟨context.issuer, context.subject, context.schemaUid, claims⟩) where
  issuer_valid := h.issuer_valid
  subject_valid := h.subject_valid
  schemaUid_valid := h.schemaUid_valid
  properties := ⟨_, rfl, fun _ hm => List.mem_map_of_mem (f := (·.1)) hm⟩
  xcsVersion := rfl
  issuer := rfl
  subject := rfl
  schema := rfl
  claims := hclaims

theorem distinctKeys_toJs {payload : CredentialPayload}
    (h : payload.claims.distinctKeys = true) : payload.toJs.distinctKeys = true := by
  rw [CredentialPayload.toJs, JsValue.distinctKeys_obj, Bool.and_eq_true, decide_eq_true_eq]
  refine ⟨show payloadProperties.Nodup by decide, ?_⟩
  rw [List.all_cons, List.all_cons, List.all_cons, List.all_cons, List.all_cons, h]
  rfl

/-- The envelope of a value has the canonical form of the value. -/
theorem toJs_canon {v : JsValue} (henvelope : IsEnvelope P context v)
    (hkeys : v.distinctKeys = true) {claims : JsValue}
    (hclaims : claims.canon = (v.get (js "claims")).canon) :
    (CredentialPayload.toJs ⟨context.issuer, context.subject, context.schemaUid, claims⟩).canon
      = v.canon := by
  obtain ⟨members, rfl, hknown⟩ := henvelope.properties
  rw [JsValue.distinctKeys_obj, Bool.and_eq_true, decide_eq_true_eq] at hkeys
  refine JsValue.canon_obj_eq (show payloadProperties.Nodup by decide) hkeys.1 fun key => ?_
  have hlookup : ∀ name value, (JsValue.obj members).get name = value → value ≠ .undefined →
      members.lookup name = some value := by
    intro name value hget hvalue
    rw [JsValue.get_obj] at hget
    cases hfound : members.lookup name with
    | none =>
        rw [hfound] at hget
        exact absurd hget.symm hvalue
    | some found =>
        rw [hfound] at hget
        exact congrArg some hget
  have hdefined : (JsValue.obj members).get (js "claims") ≠ .undefined := by
    intro hundefined
    have := henvelope.claims
    rw [hundefined] at this
    cases this
  by_cases hkey : key ∈ payloadProperties
  · simp only [payloadProperties, List.mem_cons, List.not_mem_nil, or_false] at hkey
    rcases hkey with rfl | rfl | rfl | rfl | rfl
    · rw [hlookup _ _ henvelope.xcsVersion (by simp)]
      rfl
    · rw [hlookup _ _ henvelope.issuer (by simp)]
      rfl
    · rw [hlookup _ _ henvelope.subject (by simp)]
      rfl
    · rw [hlookup _ _ henvelope.schema (by simp)]
      rfl
    · rw [hlookup _ _ rfl hdefined, Option.map_some, ← hclaims]
      rfl
  · have hnone : members.lookup key = none := by
      rw [List.lookup_eq_none_iff]
      intro m hm
      rw [bne_iff_ne]
      rintro rfl
      exact hkey (hknown m hm)
    rw [hnone, Option.map_none, Option.map_eq_none_iff, List.lookup_eq_none_iff]
    intro m hm
    rw [bne_iff_ne]
    rintro rfl
    exact hkey (List.mem_map_of_mem (f := (·.1)) hm)

/-- **What was written is read back.** -/
theorem parseCredentialPayload_encoded (hfields : (FieldDescriptor.object context.fields
    false).DistinctNames) {claims : JsValue} {encoded : EncodedCredentialPayload}
    (h : encodeCredentialPayload P claims context = .ok encoded) :
    parseCredentialPayload P (.bytes encoded.bytes) context = .ok encoded.payload := by
  obtain ⟨hpayload, hwritable, -, hbytes, hsize⟩ := encodeCredentialPayload_eq_ok.mp h
  obtain ⟨r, hr, heq⟩ := parsePayload_eq hpayload
  have hparsed := parseValue_of_parseClaims hr
  have hrkeys := parseValue_distinctKeys _ hfields hparsed
  have henvelope : IsEnvelope P context encoded.payload.toJs := by
    rw [heq]
    exact isEnvelope_toJs (parsePayload_eq_ok.mp ⟨_, hpayload⟩)
      (conforms_of_parseValue _ hfields hparsed)
  have hkeys : encoded.payload.toJs.distinctKeys = true := by
    rw [heq]
    exact distinctKeys_toJs hrkeys
  simp only [isWritable, Bool.and_eq_true] at hwritable
  obtain ⟨w, hparse, hcanon⟩ := parseJson_canonicalText hwritable.1.1 hkeys hwritable.1.2
  obtain ⟨payload', hpayload'⟩ := parsePayload_eq_ok.mpr (henvelope.of_canon_eq hcanon)
  -- The claims that are read have the canonical form of the ones that were written.
  obtain ⟨r', hr', heq'⟩ := parsePayload_eq hpayload'
  have hparsed' := parseValue_of_parseClaims hr'
  have hsame : r' = r := by
    refine parseValue_unique _ hfields hparsed' hparsed ?_
    rw [parseValue_canon _ hfields
        (JsValue.distinctKeys_get (parseJson_distinctKeys hparse).2.1 _) hparsed',
      JsValue.get_eq_of_canon_eq hcanon, heq]
    rfl
  simp only [parseCredentialPayload, bind_eq_ok, payloadBytes_eq_ok, parseCanonicalBytes_eq_ok]
  refine ⟨_, ⟨decide_eq_true hsize, rfl⟩, w, ⟨canonicalText encoded.payload.toJs, ?_, hparse, ?_,
    canonicalText_eq_of_canon_eq hcanon⟩, ?_⟩
  · rw [PayloadContent.toBytes, hbytes]
    exact decodeUtf8_canonicalText _
  · rw [← isWritable_canon, hcanon, isWritable_canon, isWritable, Bool.and_eq_true,
      Bool.and_eq_true]
    exact hwritable
  · rw [hpayload', heq', heq, hsame]

/-- **What is read can be written again**, and the bytes are the same. -/
theorem encodeCredentialPayload_parsed (hfields : (FieldDescriptor.object context.fields
    false).DistinctNames) {bytes : List UInt8} {payload : CredentialPayload}
    (h : parseCredentialPayload P (.bytes bytes) context = .ok payload) :
    ∃ encoded, encodeCredentialPayload P payload.claims context = .ok encoded ∧
      encoded.payload = payload ∧ encoded.bytes = bytes := by
  simp only [parseCredentialPayload, bind_eq_ok, payloadBytes_eq_ok,
    parseCanonicalBytes_eq_ok] at h
  obtain ⟨bytes, ⟨hsize, rfl⟩, v, ⟨text, hdecode, hparse, hwritable, htext⟩, hpayload⟩ := h
  obtain ⟨-, hkeys, -⟩ := parseJson_distinctKeys hparse
  obtain ⟨r, hr, rfl⟩ := parsePayload_eq hpayload
  have henvelope := parsePayload_eq_ok.mp ⟨_, hpayload⟩
  have hparsed := parseValue_of_parseClaims hr
  have hcanon : r.canon = (v.get (js "claims")).canon :=
    parseValue_canon _ hfields (JsValue.distinctKeys_get hkeys _) hparsed
  have hvalue := toJs_canon henvelope hkeys hcanon
  -- The claims that are written are the ones that were read.
  obtain ⟨payload₂, hpayload₂⟩ := parsePayload_eq_ok.mpr (isEnvelope_toJs henvelope
    (conforms_of_parseValue _ hfields hparsed))
  obtain ⟨r₂, hr₂, rfl⟩ := parsePayload_eq hpayload₂
  have hparsed₂ := parseValue_of_parseClaims hr₂
  obtain rfl : r₂ = r := parseValue_unique _ hfields hparsed₂ hparsed
    (parseValue_canon _ hfields (parseValue_distinctKeys _ hfields hparsed) hparsed₂)
  have hbytes : encodeUtf8 (canonicalText (CredentialPayload.toJs
      ⟨context.issuer, context.subject, context.schemaUid, r₂⟩)) = bytes := by
    rw [canonicalText_eq_of_canon_eq hvalue, htext]
    exact (decodeUtf8_eq_some hdecode).2
  refine ⟨⟨_, canonicalText (CredentialPayload.toJs
    ⟨context.issuer, context.subject, context.schemaUid, r₂⟩), bytes⟩,
    encodeCredentialPayload_eq_ok.mpr ⟨hpayload₂, ?_, rfl, hbytes.symm,
      of_decide_eq_true hsize⟩, rfl, rfl⟩
  rw [← isWritable_canon, hvalue, isWritable_canon]
  exact hwritable

end Codec

/-! ## Content identifiers -/

/-- A digit of base 32. -/
def base32Digit (n : ℕ) : CodeUnit :=
  if n < 26 then (0x61 + n).toUInt16 else (0x32 + (n - 26)).toUInt16

/-- The bits of a byte, the highest first. -/
def byteBits (b : UInt8) : List Bool :=
  (List.range 8).map fun i => b.toNat.testBit (7 - i)

/-- The number whose bits these are. -/
def ofBits (bits : List Bool) : ℕ :=
  bits.foldl (fun n b => 2 * n + b.toNat) 0

/-- A digit for each five bits; the last ones are filled up with zeros. -/
def encodeBits : List Bool → JsString
  | [] => []
  | a :: b :: c :: d :: e :: rest => base32Digit (ofBits [a, b, c, d, e]) :: encodeBits rest
  | bits => [base32Digit (ofBits (bits ++ List.replicate (5 - bits.length) false))]

/-- `CID.createV1(raw.code, digest).toString(base32.encoder)` -/
def cidText (digest : List UInt8) : JsString :=
  0x62 :: encodeBits (([0x01, 0x55, 0x12, 0x20] ++ digest).flatMap byteBits)

example : cidText misreadDigest = misreadCid := by
  decide +kernel

/-- `createIpfsPayloadUri` -/
def createIpfsPayloadUri (P : Platform) (content : PayloadContent) : Except Thrown JsString := do
  let bytes ← payloadBytes content
  pure (js "ipfs://" ++ cidText (P.sha256 bytes))

/-- `createHttpsPayloadUri`; `setHash` gives the text of a URL with another hash. -/
def createHttpsPayloadUri (P : Platform) (setHash : JsString → JsString → JsString)
    (baseUrl : JsString) (content : PayloadContent) : Except Thrown JsString :=
  match P.parseUrl baseUrl with
  | none => failXcs .invalidPayloadUri (js "Invalid HTTPS base URL") (js "$url") []
  | some url =>
      if url.protocol ≠ js "https:" ∨ url.username ≠ [] ∨ url.password ≠ [] ∨ url.hash ≠ [] then
        failXcs .invalidPayloadUri (js "Base URL must be fragment-free HTTPS") (js "$url") []
      else do
        let digest ← payloadDigest P content
        let uri := setHash baseUrl (js "xcs-sha256=" ++ digest)
        let _ ← parsePayloadUri P uri
        pure uri

/-- A URI is accepted with the digest of some bytes, and the bytes verify against it. -/
def Commits (P : Platform) (uri : JsString) (bytes : List UInt8) : Prop :=
  (∃ target, parsePayloadUri P uri = .ok target ∧ target.digestHex = bytesToHex (P.sha256 bytes)) ∧
    ∃ result, verifyPayloadIntegrity P (.bytes bytes) uri = .ok result ∧ result.valid = true

/-- What a parser of identifiers does with the text of one. -/
def ReadsCids (P : Platform) : Prop :=
  ∀ bytes : List UInt8, P.parseCid (cidText (P.sha256 bytes))
    = some ⟨1, rawCode, sha256MultihashCode, 32, P.sha256 bytes, cidText (P.sha256 bytes)⟩

/-- The units that stand for themselves in a fragment. -/
def isFragmentUnit (u : CodeUnit) : Bool :=
  isAlphanumeric u || u == 0x2d || u == 0x3d

/-- What a parser of URLs does with a fragment: setting it puts it behind the only `#`, and it is
what follows the first one. -/
structure SetsFragments (P : Platform) (setHash : JsString → JsString → JsString) : Prop where
  text : ∀ baseUrl fragment : JsString, fragment.all isFragmentUnit = true →
    ∃ front, 0x23 ∉ front ∧ setHash baseUrl fragment = front ++ 0x23 :: fragment
  hash : ∀ (text fragment : JsString) (url : Url), 0x23 ∉ text → fragment ≠ [] →
    fragment.all isFragmentUnit = true →
    P.parseUrl (text ++ 0x23 :: fragment) = some url → url.hash = 0x23 :: fragment

section Uris

variable {bytes : List UInt8} {uri : JsString}

theorem Commits.of_parse {target : PayloadUri} (h : parsePayloadUri P uri = .ok target)
    (hdigest : target.digestHex = bytesToHex (P.sha256 bytes))
    (hsize : bytes.length ≤ maxPayloadBytes) : Commits P uri bytes := by
  refine ⟨⟨target, h, hdigest⟩, ?_⟩
  have hbytes : payloadBytes (.bytes bytes) = .ok bytes :=
    payloadBytes_eq_ok.mpr ⟨decide_eq_true hsize, rfl⟩
  simp only [verifyPayloadIntegrity, payloadDigest, h, hbytes]
  exact ⟨_, rfl, beq_iff_eq.mpr hdigest⟩

theorem base32Digit_spec : ∀ n < 32, (isLower (base32Digit n)
    || (0x32 ≤ base32Digit n && base32Digit n ≤ 0x37)) = true := by
  decide

theorem ofBits_lt (a b c d e : Bool) : ofBits [a, b, c, d, e] < 32 := by
  revert a b c d e
  decide

/-- The digits of base 32, and how many there are. -/
theorem encodeBits_spec (bits : List Bool) :
    ((encodeBits bits).all fun u => isLower u || (0x32 ≤ u && u ≤ 0x37)) = true ∧
      (encodeBits bits).length * 5 ≤ bits.length + 4 := by
  fun_induction encodeBits bits with
  | case1 => exact ⟨rfl, Nat.zero_le _⟩
  | case2 a b c d e rest ih =>
      rw [List.all_cons, base32Digit_spec _ (ofBits_lt a b c d e), ih.1]
      refine ⟨rfl, ?_⟩
      simp only [List.length_cons]
      omega
  | case3 bits hnil hmany =>
      match bits, hnil, hmany with
      | [a], _, _ =>
          refine ⟨?_, le_rfl⟩
          rw [List.all_cons, List.all_nil, Bool.and_true]
          exact base32Digit_spec _ (ofBits_lt a false false false false)
      | [a, b], _, _ =>
          refine ⟨?_, by rw [List.length_singleton]; exact Nat.add_le_add_right (by simp) 4⟩
          rw [List.all_cons, List.all_nil, Bool.and_true]
          exact base32Digit_spec _ (ofBits_lt a b false false false)
      | [a, b, c], _, _ =>
          refine ⟨?_, by rw [List.length_singleton]; exact Nat.add_le_add_right (by simp) 4⟩
          rw [List.all_cons, List.all_nil, Bool.and_true]
          exact base32Digit_spec _ (ofBits_lt a b c false false)
      | [a, b, c, d], _, _ =>
          refine ⟨?_, by rw [List.length_singleton]; exact Nat.add_le_add_right (by simp) 4⟩
          rw [List.all_cons, List.all_nil, Bool.and_true]
          exact base32Digit_spec _ (ofBits_lt a b c d false)
      | a :: b :: c :: d :: e :: rest, _, hmany => exact absurd rfl (hmany a b c d e rest)

/-- The text of an identifier: `b`, and at most 58 digits of base 32. -/
theorem cidText_spec {digest : List UInt8} (h : digest.length = 32) :
    ∃ rest, cidText digest = 0x62 :: rest ∧ rest ≠ [] ∧ rest.length ≤ 58 ∧
      (rest.all fun u => isLower u || (0x32 ≤ u && u ≤ 0x37)) = true := by
  obtain ⟨hall, hlength⟩ := encodeBits_spec (([0x01, 0x55, 0x12, 0x20] ++ digest).flatMap byteBits)
  have hbits : (([0x01, 0x55, 0x12, 0x20] ++ digest).flatMap byteBits).length = 288 := by
    rw [List.length_flatMap]
    have hbyte : ∀ b : UInt8, (byteBits b).length = 8 := fun b => by
      rw [byteBits, List.length_map, List.length_range]
    simp only [hbyte, List.map_const', List.sum_replicate, List.length_append, h, smul_eq_mul,
      List.length_cons, List.length_nil]
  refine ⟨_, rfl, ?_, by omega, hall⟩
  intro hnil
  have hcons : ∃ bit bits, ([0x01, 0x55, 0x12, 0x20] ++ digest).flatMap byteBits
      = false :: false :: false :: false :: false :: bit :: bits := ⟨_, _, rfl⟩
  obtain ⟨bit, bits, hbits⟩ := hcons
  rw [hbits] at hnil
  cases hnil

/-- The URI of a digest is accepted, and names it. -/
theorem parsePayloadUri_cidText (hcid : ReadsCids P) (bytes : List UInt8) :
    parsePayloadUri P (js "ipfs://" ++ cidText (P.sha256 bytes))
      = .ok (.ipfs (js "ipfs://" ++ cidText (P.sha256 bytes)) (cidText (P.sha256 bytes))
        (bytesToHex (P.sha256 bytes))) := by
  obtain ⟨rest, htext, hrest, hlength, hall⟩ := cidText_spec (P.sha256_length bytes)
  have hascii : ∀ u ∈ js "ipfs://" ++ cidText (P.sha256 bytes), u.toNat < 0x80 := by
    intro u hu
    rw [htext] at hu
    rcases List.mem_append.mp hu with hu | hu
    · exact of_decide_eq_true (List.all_eq_true.mp
        (show ((js "ipfs://").all fun u => decide (u.toNat < 0x80)) = true by decide) u hu)
    · rcases List.mem_cons.mp hu with rfl | hu
      · decide
      · have hunit := List.all_eq_true.mp hall u hu
        simp only [isLower, Bool.or_eq_true, Bool.and_eq_true, decide_eq_true_eq,
          UInt16.le_iff_toNat_le, UInt16.reduceToNat] at hunit
        omega
  have hwell : isWellFormed (js "ipfs://" ++ cidText (P.sha256 bytes)) = true := by
    have := Json.isWellFormed_append_of_plain (fun u hu => Json.not_surrogate_of_lt
      ((hascii u hu).trans (by decide))) []
    rw [List.append_nil] at this
    rw [this]
    rfl
  have hbound : (js "ipfs://" ++ cidText (P.sha256 bytes)).length ≤ 66 := by
    rw [htext, List.length_append, List.length_cons]
    show 7 + _ ≤ 66
    omega
  have hcidText : ipfsCidText (js "ipfs://" ++ cidText (P.sha256 bytes))
      = some (cidText (P.sha256 bytes)) := by
    have hdrop : (js "ipfs://" ++ cidText (P.sha256 bytes)).drop 7 = cidText (P.sha256 bytes) :=
      List.drop_left' rfl
    unfold ipfsCidText
    dsimp only
    rw [hdrop, htext]
    refine if_pos ?_
    have hpos := List.length_pos_of_ne_nil hrest
    simp only [Bool.and_eq_true, decide_eq_true_eq, List.tail_cons, hall, and_true,
      List.length_cons, List.head?_cons, beq_self_eq_true]
    exact ⟨List.isPrefixOf_iff_prefix.mpr (List.prefix_append _ _), by omega⟩
  have hipfs : parseIpfsUri P (js "ipfs://" ++ cidText (P.sha256 bytes))
      = .ok (some (.ipfs (js "ipfs://" ++ cidText (P.sha256 bytes)) (cidText (P.sha256 bytes))
        (bytesToHex (P.sha256 bytes)))) := by
    unfold parseIpfsUri
    rw [hcidText]
    dsimp only
    rw [hcid bytes]
    exact if_pos ⟨rfl, rfl, rfl, rfl, rfl⟩
  have hmeasure : utf8ByteLength (js "ipfs://" ++ cidText (P.sha256 bytes))
      = .ok (js "ipfs://" ++ cidText (P.sha256 bytes)).length := by
    rw [utf8ByteLength, assertWellFormed, if_pos (isAccepted_of_isWellFormed hwell),
      ← length_encodeUtf8_of_ascii hascii]
    rfl
  rw [parsePayloadUri, hmeasure]
  show (if _ then _ else _ : Except Thrown PayloadUri) = _
  rw [if_neg (by rw [List.length_append] at hbound ⊢; show ¬(7 + _ < 1 ∨ 256 < 7 + _); omega),
    hipfs]
  rfl

theorem createIpfsPayloadUri_eq_ok {content : PayloadContent} {uri : JsString} :
    createIpfsPayloadUri P content = .ok uri ↔
      content.isAdmissible = true ∧ uri = js "ipfs://" ++ cidText (P.sha256 content.toBytes) := by
  simp only [createIpfsPayloadUri, bind_eq_ok, payloadBytes_eq_ok, pure_eq_ok']
  constructor
  · rintro ⟨bytes, ⟨hsize, rfl⟩, rfl⟩
    exact ⟨hsize, rfl⟩
  · rintro ⟨hsize, rfl⟩
    exact ⟨_, ⟨hsize, rfl⟩, rfl⟩

/-- **The IPFS URI of some bytes commits to them.** -/
theorem commits_ipfs (hcid : ReadsCids P)
    (h : createIpfsPayloadUri P (.bytes bytes) = .ok uri) : Commits P uri bytes := by
  obtain ⟨hsize, rfl⟩ := createIpfsPayloadUri_eq_ok.mp h
  exact Commits.of_parse (parsePayloadUri_cidText hcid bytes) rfl (of_decide_eq_true hsize)

/-- A text that is followed by a delimiter is split no later than there. -/
theorem snd_spanUntil_append {stop : CodeUnit → Bool} {u : CodeUnit} (hu : stop u = true)
    (front rest : JsString) :
    ∃ middle, (∀ v ∈ middle, v ∈ front) ∧
      (spanUntil stop (front ++ u :: rest)).2 = middle ++ u :: rest := by
  refine ⟨front.dropWhile fun v => !stop v, fun v hv => (List.dropWhile_suffix _).subset hv, ?_⟩
  rw [spanUntil, List.span_eq_takeWhile_dropWhile]
  dsimp only
  rw [List.dropWhile_append]
  split_ifs with hempty
  · rw [List.isEmpty_iff] at hempty
    rw [hempty, List.dropWhile_cons, hu]
    rfl
  · rfl

/-- A text with a `#` is no IPFS URI. -/
theorem ipfsCidText_eq_none {text : JsString} (h : 0x23 ∈ text) : ipfsCidText text = none := by
  unfold ipfsCidText
  dsimp only
  refine if_neg fun hcond => ?_
  simp only [Bool.and_eq_true, decide_eq_true_eq, beq_iff_eq] at hcond
  obtain ⟨⟨⟨hbegins, hhead⟩, -⟩, hall⟩ := hcond
  obtain ⟨rest, rfl⟩ := List.isPrefixOf_iff_prefix.mp hbegins
  rw [show (js "ipfs://" ++ rest).drop 7 = rest from List.drop_left' rfl] at hhead hall
  rcases List.mem_append.mp h with h | h
  · exact absurd h (by decide)
  · cases rest with
    | nil => exact List.not_mem_nil h
    | cons u rest =>
        rcases List.mem_cons.mp h with rfl | h
        · cases hhead
        · exact absurd (List.all_eq_true.mp hall _ h) (by decide)

theorem isFragmentUnit_digest (digest : List UInt8) (h : digest.length = 32) :
    (js "xcs-sha256=" ++ bytesToHex digest).all isFragmentUnit = true := by
  have hlower := isLowerHash_bytesToHex h
  rw [isLowerHash, Bool.and_eq_true, List.all_eq_true] at hlower
  rw [List.all_append, Bool.and_eq_true, List.all_eq_true (l := bytesToHex digest)]
  refine ⟨by decide, fun u hu => ?_⟩
  have hdigit := hlower.2 u hu
  simp only [isLowerHexDigit, isFragmentUnit, isAlphanumeric, isLower, isUpper, isDigit,
    Bool.or_eq_true, Bool.and_eq_true, decide_eq_true_eq, UInt16.le_iff_toNat_le,
    UInt16.reduceToNat] at hdigit ⊢
  omega

/-- The digest of an HTTPS URI is what its fragment says. -/
theorem digestHex_of_fragment {setHash : JsString → JsString → JsString} (hP : EscapesFragments P)
    (hset : SetsFragments P setHash) {front fragment : JsString} {target : PayloadUri}
    (hfront : 0x23 ∉ front) (hne : fragment ≠ []) (hfragment : fragment.all isFragmentUnit = true)
    (h : parsePayloadUri P (front ++ 0x23 :: fragment) = .ok target) :
    target.digestHex = fragment.drop 11 := by
  simp only [parsePayloadUri, bind_eq_ok] at h
  obtain ⟨length, -, h⟩ := h
  split_ifs at h
  · cases h
  obtain ⟨ipfs, hipfs, h⟩ := bind_eq_ok.mp h
  unfold parseIpfsUri at hipfs
  rw [ipfsCidText_eq_none (List.mem_append_right _ List.mem_cons_self)] at hipfs
  cases hipfs
  unfold parseHttpsUri at h
  dsimp only at h
  split_ifs at h with hbegins hauthority
  · cases h
  · cases h
  rw [Bool.not_eq_true, Bool.or_eq_false_iff, Bool.not_eq_false'] at hbegins
  split at h
  · cases h
  rename_i normalizedUri hnormalized
  split at h
  · cases h
  · rename_i parsed fetchUrl hparsed hfetch
    split_ifs at h
    · cases h
      -- The fragment stays behind the only `#` while the authority is normalized.
      obtain ⟨front', hfront', heq⟩ := normalizeHttpsAuthority_eq_some hP hnormalized
      obtain ⟨rest, hrest⟩ := List.isPrefixOf_iff_prefix.mp hbegins.1
      obtain ⟨before, hbefore, hsplit⟩ : ∃ before, 0x23 ∉ before ∧
          rest = before ++ 0x23 :: fragment := by
        rcases List.append_eq_append_iff.mp hrest with
          ⟨before, hbefore, hrest⟩ | ⟨after, hafter, hrest⟩
        · refine ⟨before, fun hmem => hfront ?_, hrest⟩
          rw [hbefore]
          exact List.mem_append_right _ hmem
        · cases after with
          | nil => exact ⟨[], List.not_mem_nil, hrest.symm⟩
          | cons u after =>
              obtain ⟨rfl, -⟩ := List.cons.inj hrest
              have : (0x23 : CodeUnit) ∈ httpsPrefix := by
                rw [hafter]
                exact List.mem_append_right _ List.mem_cons_self
              exact absurd this (by decide)
      rw [← hrest, List.drop_left, hsplit] at heq
      obtain ⟨middle, hmiddle, hsnd⟩ := snd_spanUntil_append
        (show isAuthorityEnd 0x23 = true by decide) before fragment
      rw [hsnd, ← List.append_assoc] at heq
      rw [heq] at hparsed
      have hhash := hset.hash _ _ _ (fun hmem => ?_) hne hfragment hparsed
      · rw [PayloadUri.digestHex, hhash, List.drop_succ_cons]
      · rcases List.mem_append.mp hmem with hmem | hmem
        · exact hfront' hmem
        · exact hbefore (hmiddle _ hmem)
    · cases h
  · cases h

/-- **The HTTPS URI of some bytes commits to them.** -/
theorem commits_https {setHash : JsString → JsString → JsString} (hP : EscapesFragments P)
    (hset : SetsFragments P setHash) {baseUrl : JsString}
    (h : createHttpsPayloadUri P setHash baseUrl (.bytes bytes) = .ok uri) :
    Commits P uri bytes := by
  unfold createHttpsPayloadUri at h
  split at h
  · cases h
  split_ifs at h
  · cases h
  simp only [payloadDigest, bind_eq_ok, payloadBytes_eq_ok, pure_eq_ok] at h
  obtain ⟨_, ⟨bytes, ⟨hsize, rfl⟩, rfl⟩, target, htarget, rfl⟩ := h
  have hfragment := isFragmentUnit_digest _ (P.sha256_length bytes)
  obtain ⟨front, hfront, htext⟩ := hset.text baseUrl _ hfragment
  rw [htext] at htarget ⊢
  refine Commits.of_parse htarget ?_ (of_decide_eq_true hsize)
  have hne : js "xcs-sha256=" ++ bytesToHex (P.sha256 bytes) ≠ [] :=
    fun hnil => absurd (List.append_eq_nil_iff.mp hnil).1 (by decide)
  rw [digestHex_of_fragment hP hset hfront hne hfragment htarget]
  exact List.drop_left' rfl

end Uris

/-! ## Round trips -/

def sampleClaims : JsValue :=
  .obj [(js "note", .str (js "hello"))]

/-- The payload of `sampleClaims` for `misreadContext`. -/
def sampleBytes : List UInt8 :=
  encodeUtf8 (canonicalText (CredentialPayload.toJs ⟨misreadContext.issuer, misreadContext.subject,
    misreadContext.schemaUid, sampleClaims⟩))

def sampleDigest : List UInt8 :=
  [56, 166, 164, 225, 110, 15, 148, 57, 123, 175, 94, 171, 28, 232, 81, 99, 199, 112, 5, 66, 28, 72,
    246, 241, 183, 159, 224, 111, 132, 95, 7, 237]

/-- A platform that hashes `sampleBytes` as they are, and reads URLs and identifiers. -/
def codecPlatform : Platform :=
  { Platform.sample with
    sha256 := fun bytes => if bytes = sampleBytes then sampleDigest else List.replicate 32 0
    sha256_length := fun bytes => by split_ifs <;> rfl
    parseUrl := readHttpsUrl
    domainToAscii := some
    parseCid := fun text =>
      if text = cidText sampleDigest then
        some ⟨1, rawCode, sha256MultihashCode, 32, sampleDigest, text⟩
      else if text = cidText (List.replicate 32 0) then
        some ⟨1, rawCode, sha256MultihashCode, 32, List.replicate 32 0, text⟩
      else none }

/-- The text of a URL with another hash. -/
def setFragment (baseUrl fragment : JsString) : JsString :=
  (spanUntil (· == 0x23) baseUrl).1 ++ 0x23 :: fragment

theorem readsCids_codecPlatform : ReadsCids codecPlatform := by
  intro bytes
  have hne : cidText (List.replicate 32 0) ≠ cidText sampleDigest := by decide +kernel
  by_cases hbytes : bytes = sampleBytes
  · have hdigest : codecPlatform.sha256 bytes = sampleDigest := if_pos hbytes
    rw [hdigest]
    unfold codecPlatform
    dsimp only
    rw [if_pos rfl]
  · have hdigest : codecPlatform.sha256 bytes = List.replicate 32 0 := if_neg hbytes
    rw [hdigest]
    unfold codecPlatform
    dsimp only
    rw [if_neg hne, if_pos rfl]

theorem setsFragments_codecPlatform : SetsFragments codecPlatform setFragment where
  text baseUrl _ _ := ⟨(spanUntil (· == 0x23) baseUrl).1, not_mem_spanUntil (by decide), rfl⟩
  hash _ _ _ htext _ _ := hash_of_readHttpsUrl htext

end Core
end Xcs
