import Xcs.Core.SchemaResolution

/-!
# Schema UIDs

The UID of a schema is the hash of its definition together with the place of its registration, so
the same definition registered twice has two UIDs.  The hash is taken over canonical JSON, and the
order in which a definition lists its fields does not change it.
-/

namespace Xcs
namespace Core

open Js Json

/-- `SchemaUidInput` -/
structure SchemaUidInput extends SchemaCoordinates where
  ledgerHash : JsString
  schema : SchemaDefinition

/-- A uint32 as a JSON number. -/
def uint32Js (value : ℤ) : JsValue :=
  .num (JsNumber.ofNat value.toNat)

/-- The preimage of a UID. -/
def uidPreimage (input : SchemaUidInput) (schema : SchemaDefinition) : JsValue :=
  .obj [(js "purpose", .str (js "xcs.schema.uid")), (js "version", .str (js "0.1")),
    (js "networkId", uint32Js input.networkId),
    (js "ledgerHash", .str (toLowerCase input.ledgerHash)),
    (js "ledgerIndex", uint32Js input.ledgerIndex),
    (js "transactionIndex", uint32Js input.transactionIndex),
    (js "publisher", .str input.publisher), (js "schema", schema.toJs)]

/-- `fail` with the code `INVALID_UID_INPUT`. -/
def invalidUidInput {α : Type} (message path : JsString) : Except Thrown α :=
  failXcs .invalidUidInput message path []

/-- `computeSchemaUid` -/
def computeSchemaUid (P : Platform) (input : SchemaUidInput) : Except Thrown JsString :=
  if !isUint32 input.networkId || !isUint32 input.ledgerIndex
      || !isUint32 input.transactionIndex then
    invalidUidInput (js "Network and ledger coordinates must be uint32 values") (js "$")
  else if !isHash input.ledgerHash then
    invalidUidInput (js "ledgerHash must be a 32-byte hexadecimal hash") (js "$.ledgerHash")
  else if !P.isValidClassicAddress input.publisher then
    invalidUidInput (js "publisher must be an XRPL classic address") (js "$.publisher")
  else do
    let schema ← parseSchema input.schema.toJs
    let bytes ← encodeCanonicalJson P (uidPreimage input schema)
    pure (sha256Hex P bytes)

/-- The coordinates a UID can be computed for. -/
def isUidInput (P : Platform) (input : SchemaUidInput) : Bool :=
  isUint32 input.networkId && isUint32 input.ledgerIndex && isUint32 input.transactionIndex
    && isHash input.ledgerHash && P.isValidClassicAddress input.publisher

/-- The UID of a definition at valid coordinates. -/
def schemaUid (P : Platform) (input : SchemaUidInput) : JsString :=
  sha256Hex P (encodeUtf8 (canonicalText (uidPreimage input input.schema)))

theorem computeSchemaUid_eq_ok {P : Platform} {input : SchemaUidInput}
    (hvalid : input.schema.isValid = true) {uid : JsString} :
    computeSchemaUid P input = .ok uid ↔
      isUidInput P input = true ∧ isWritable P (uidPreimage input input.schema) = true ∧
        uid = schemaUid P input := by
  have hparse := parseSchema_toJs hvalid
  rw [computeSchemaUid, isUidInput]
  split_ifs with hcoordinates hhash hpublisher
  · simp only [invalidUidInput, failXcs, reduceCtorEq, false_iff, not_and]
    intro h
    simp only [Bool.and_eq_true] at h
    simp [h.1.1.1.1, h.1.1.1.2, h.1.1.2] at hcoordinates
  · simp only [invalidUidInput, failXcs, reduceCtorEq, false_iff, not_and]
    intro h
    simp only [Bool.and_eq_true] at h
    simp [h.1.2] at hhash
  · simp only [invalidUidInput, failXcs, reduceCtorEq, false_iff, not_and]
    intro h
    simp only [Bool.and_eq_true] at h
    simp [h.2] at hpublisher
  · simp only [Bool.or_eq_true, Bool.not_eq_true', not_or, Bool.not_eq_false] at hcoordinates
    simp only [Bool.not_eq_true', Bool.not_eq_false] at hhash hpublisher
    simp only [hparse, encodeCanonicalJson, bind_eq_ok, Except.ok.injEq, exists_eq_left',
      canonicalJson_eq_ok, pure_eq_ok, hcoordinates.1.1, hcoordinates.1.2, hcoordinates.2, hhash,
      hpublisher, Bool.and_self, true_and]
    constructor
    · rintro ⟨_, ⟨_, ⟨hwritable, rfl⟩, rfl⟩, rfl⟩
      exact ⟨hwritable, rfl⟩
    · rintro ⟨hwritable, rfl⟩
      exact ⟨_, ⟨_, ⟨hwritable, rfl⟩, rfl⟩, rfl⟩

theorem isLowerHash_schemaUid (P : Platform) (input : SchemaUidInput) :
    isLowerHash (schemaUid P input) = true :=
  isLowerHash_sha256Hex P _

/-- The order of fields does not change the preimage but for the order of members. -/
theorem canon_uidPreimage {input input' : SchemaUidInput}
    (hcoordinates : input.toSchemaCoordinates = input'.toSchemaCoordinates)
    (hhash : input.ledgerHash = input'.ledgerHash) {d d' : SchemaDefinition}
    (h : d.toJs.canon = d'.toJs.canon) :
    (uidPreimage input d).canon = (uidPreimage input' d').canon := by
  rw [uidPreimage, uidPreimage, JsValue.canon_obj, JsValue.canon_obj]
  simp only [List.map_cons, List.map_nil, h, hhash, hcoordinates]

/-- **The order of fields does not change the UID.** -/
theorem schemaUid_congr (P : Platform) {input input' : SchemaUidInput}
    (hcoordinates : input.toSchemaCoordinates = input'.toSchemaCoordinates)
    (hhash : input.ledgerHash = input'.ledgerHash)
    (h : input.schema.toJs.canon = input'.schema.toJs.canon) :
    schemaUid P input = schemaUid P input' := by
  rw [schemaUid, schemaUid,
    canonicalText_eq_of_canon_eq (canon_uidPreimage hcoordinates hhash h)]

theorem isPlain_of_hasAddressShape {s : JsString} (h : hasAddressShape s = true) :
    isPlain s = true := by
  cases s with
  | nil => rfl
  | cons u rest =>
      simp only [hasAddressShape, Bool.and_eq_true, beq_iff_eq, List.all_eq_true] at h
      obtain ⟨⟨rfl, -⟩, hrest⟩ := h
      rw [isPlain, List.all_cons, Bool.and_eq_true, List.all_eq_true]
      refine ⟨by decide, fun v hv => ?_⟩
      have := hrest v hv
      simp only [isBase58, Bool.or_eq_true, Bool.and_eq_true, decide_eq_true_eq,
        UInt16.le_iff_toNat_le] at this ⊢
      simp only [UInt16.reduceToNat] at this ⊢
      omega

theorem isPlain_toLowerCase {s : JsString} (h : isHash s = true) :
    isPlain (toLowerCase s) = true := by
  simp only [isHash, Bool.and_eq_true, List.all_eq_true] at h
  rw [isPlain, toLowerCase, List.all_map, List.all_eq_true]
  intro u hu
  have := h.2 u hu
  simp only [isHexDigit, isLowerHexDigit, Bool.or_eq_true, Bool.and_eq_true, decide_eq_true_eq,
    UInt16.le_iff_toNat_le, Function.comp_apply] at this ⊢
  simp only [UInt16.reduceToNat] at this ⊢
  split_ifs with hupper
  · rw [UInt16.toNat_add]
    simp only [UInt16.reduceToNat]
    omega
  · omega

theorem isFinite_ofNat {n : ℕ} (h : n ≤ 2 ^ 53) : (JsNumber.ofNat n).isFinite = true := by
  rw [JsNumber.ofNat_of_le h]
  rfl

theorem isJson_uint32Js {value : ℤ} (h : isUint32 value = true) :
    (uint32Js value).isJson = true := by
  rw [isUint32, decide_eq_true_eq] at h
  have hfinite := isFinite_ofNat (n := value.toNat) (by omega)
  simpa [uint32Js, JsValue.isJson] using hfinite

theorem allStrings_uint32Js (p : JsString → Bool) (value : ℤ) :
    (uint32Js value).allStrings p = true := rfl

/-- The preimage passes a test of its strings when the definition does. -/
theorem allStrings_uidPreimage {P : Platform} {input : SchemaUidInput}
    (hinput : isUidInput P input = true) {p : JsString → Bool}
    (hp : ∀ s, isPlain s = true → p s = true) {d : SchemaDefinition}
    (hd : d.toJs.allStrings p = true) : (uidPreimage input d).allStrings p = true := by
  simp only [isUidInput, Bool.and_eq_true] at hinput
  obtain ⟨⟨-, hhash⟩, hpublisher⟩ := hinput
  have hpublisher' := hp _ (isPlain_of_hasAddressShape (P.hasAddressShape_of_valid _ hpublisher))
  have hhash' := hp _ (isPlain_toLowerCase hhash)
  rw [uidPreimage, JsValue.allStrings_obj]
  simp only [List.all_cons, List.all_nil, JsValue.allStrings_str, allStrings_uint32Js, hd, hhash',
    hpublisher', hp (js "purpose") (by decide), hp (js "xcs.schema.uid") (by decide),
    hp (js "version") (by decide), hp (js "0.1") (by decide), hp (js "networkId") (by decide),
    hp (js "ledgerHash") (by decide), hp (js "ledgerIndex") (by decide),
    hp (js "transactionIndex") (by decide), hp (js "publisher") (by decide),
    hp (js "schema") (by decide), Bool.and_self]

theorem isJson_uidPreimage {P : Platform} {input : SchemaUidInput}
    (hinput : isUidInput P input = true) (d : SchemaDefinition) :
    (uidPreimage input d).isJson = true := by
  simp only [isUidInput, Bool.and_eq_true] at hinput
  obtain ⟨⟨⟨⟨hnetwork, hledger⟩, htransaction⟩, -⟩, -⟩ := hinput
  rw [uidPreimage, JsValue.isJson_obj]
  simp only [List.all_cons, List.all_nil, JsValue.isJson_str, isJson_uint32Js hnetwork,
    isJson_uint32Js hledger, isJson_uint32Js htransaction, d.isJson_toJs, Bool.and_self]

/-- A definition that can be written canonically has a UID at valid coordinates. -/
theorem isWritable_uidPreimage {P : Platform} {input : SchemaUidInput}
    (hinput : isUidInput P input = true) {d : SchemaDefinition}
    (h : isWritable P d.toJs = true) : isWritable P (uidPreimage input d) = true := by
  simp only [isWritable, Bool.and_eq_true, Bool.or_eq_true] at h ⊢
  obtain ⟨⟨-, haccepted⟩, hescapes⟩ := h
  refine ⟨⟨isJson_uidPreimage hinput d, ?_⟩, hescapes.imp_right fun hwell => ?_⟩
  · exact allStrings_uidPreimage hinput
      (fun s hs => isAccepted_of_isWellFormed (isWellFormed_of_isPlain hs)) haccepted
  · exact allStrings_uidPreimage hinput (fun s hs => isWellFormed_of_isPlain hs) hwell

/-- A definition can be written when the value it was parsed from can. -/
theorem isWritable_toJs_of_parseSchema {P : Platform} {v : JsValue} {d : SchemaDefinition}
    (h : parseSchema v = .ok d) (hwritable : isWritable P v = true) :
    isWritable P d.toJs = true := by
  obtain ⟨hname, hdescription⟩ := get_of_parseSchema h
  have hvalid := isValid_of_parseSchema h
  have hstrings : ∀ p : JsString → Bool, (∀ s, isPlain s = true → p s = true) →
      v.allStrings p = true → d.toJs.allStrings p = true := by
    intro p hp hv
    have hgetName := JsValue.allStrings_get hv (js "name")
    have hgetDescription := JsValue.allStrings_get hv (js "description")
    rw [hname, JsValue.allStrings_str] at hgetName
    rw [hdescription, JsValue.allStrings_str] at hgetDescription
    exact SchemaDefinition.allStrings_toJs hp hvalid hgetName hgetDescription
  simp only [isWritable, Bool.and_eq_true, Bool.or_eq_true] at hwritable ⊢
  obtain ⟨⟨-, haccepted⟩, hescapes⟩ := hwritable
  refine ⟨⟨d.isJson_toJs, ?_⟩, hescapes.imp_right fun hwell => ?_⟩
  · exact hstrings _ (fun s hs => isAccepted_of_isWellFormed (isWellFormed_of_isPlain hs)) haccepted
  · exact hstrings _ (fun s hs => isWellFormed_of_isPlain hs) hwell

end Core
end Xcs
