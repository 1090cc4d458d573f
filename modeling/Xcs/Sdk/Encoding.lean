import Xcs.Core.PayloadUri
import Xcs.Js.Utf8
import Xcs.Sdk.Network

/-!
# Encoding of fields

Memos, URIs and credential types are hexadecimal on the ledger.  The client encodes a text as its
UTF-8 in uppercase digits, and a schema UID as the credential type with the same digits.

`decodeMemoField` decodes without `ignoreBOM`, so a byte order mark in front of the text is dropped.
-/

namespace Xcs
namespace Sdk

open Js Json Xcs.Core

/-! ## The ledger library -/

/-- What the client takes from the ledger library besides addresses; `none` is an error. -/
structure XrplLibrary where
  /-- `validate`: whether it returns. -/
  validate : JsValue → Bool
  /-- `encode` -/
  encode : JsValue → Option JsString
  /-- `isoTimeToRippleTime` -/
  isoTimeToRippleTime : JsString → JsNumber

/-! ## Memos -/

/-- `XCS_SCHEMA_MEMO_TYPE` -/
def xcsSchemaMemoType : JsString := js "xcs:schema_register"

/-- `XCS_SCHEMA_MEMO_FORMAT` -/
def xcsSchemaMemoFormat : JsString := js "application/json"

/-- `MAX_XRPL_MEMO_BYTES` -/
def maxXrplMemoBytes : ℤ := 1024

/-- `MAX_CREDENTIAL_URI_BYTES` -/
def maxCredentialUriBytes : ℕ := 256

/-- `XRPL_MEMOS_FIELD_ENVELOPE_BYTES` -/
def xrplMemosFieldEnvelopeBytes : ℤ := 2

/-- `encodeMemoField` -/
def encodeMemoField (value : JsString) : JsString :=
  toUpperCase (bytesToHex (encodeUtf8 value))

/-- The bytes without a byte order mark in front. -/
def stripBom : List UInt8 → List UInt8
  | 0xef :: 0xbb :: 0xbf :: bytes => bytes
  | bytes => bytes

/-- `decodeMemoField`; of the error the `cause`, a text of another package, is left out. -/
def decodeMemoField (value : JsString) : SdkResult JsString :=
  match (hexToBytes value).bind fun bytes => decodeUtf8 (stripBom bytes) with
  | some text => .ok text
  | none => failSdk (js "XCS_SDK_INVALID_URI") (js "Value is not valid UTF-8 hexadecimal.") []

/-- The payment the size of memos is measured with. -/
def memoPayment : Members :=
  [(js "TransactionType", .str (js "Payment")),
    (js "Account", .str (js "rHb9CJAWyB4rj91VRWn96DkukG4bwdtyTh")),
    (js "Destination", .str (js "r9cZA1mLK5R5Am25ArfXFmqgNwjZgnfk59")),
    (js "Amount", .str (js "1")), (js "Fee", .str (js "12")),
    (js "Sequence", .num (JsNumber.ofNat 1)), (js "SigningPubKey", .str [])]

/-- `encode(transaction).length` -/
def encodedLength (X : XrplLibrary) (transaction : Members) : SdkResult ℤ :=
  match X.encode (.obj transaction) with
  | some blob => .ok blob.length
  | none => .error .other

/-- `measureTransactionMemoBytes`; the number of digits is even. -/
def measureTransactionMemoBytes (X : XrplLibrary) (memos : List JsValue) : SdkResult ℤ := do
  let withMemo ← encodedLength X (memoPayment ++ [(js "Memos", .arr memos)])
  let base ← encodedLength X memoPayment
  pure ((withMemo - base) / 2 - xrplMemosFieldEnvelopeBytes)

/-- The memo of a schema registration. -/
def schemaMemo (canonicalSchema : JsString) : JsValue :=
  .obj [(js "Memo", .obj [(js "MemoType", .str (encodeMemoField xcsSchemaMemoType)),
    (js "MemoFormat", .str (encodeMemoField xcsSchemaMemoFormat)),
    (js "MemoData", .str (encodeMemoField canonicalSchema))])]

/-- `measureSchemaRegistrationMemoBytes` -/
def measureSchemaRegistrationMemoBytes (X : XrplLibrary) (canonicalSchema : JsString) :
    SdkResult ℤ :=
  measureTransactionMemoBytes X [schemaMemo canonicalSchema]

/-- `assertMemoFits` -/
def assertMemoFits (X : XrplLibrary) (canonicalSchema : JsString) : SdkResult Unit := do
  let byteLength ← measureSchemaRegistrationMemoBytes X canonicalSchema
  if maxXrplMemoBytes < byteLength then
    failSdk (js "XCS_SDK_MEMO_TOO_LARGE")
      (js "XCS schema memo content exceeds the 1024-byte XRPL limit.")
      [(js "byteLength", .num (JsNumber.ofRat byteLength)),
        (js "maxByteLength", .num (JsNumber.ofRat maxXrplMemoBytes))]
  else pure ()

/-- Two texts of digits that differ in the case of letters only. -/
def SameHex (v w : JsValue) : Prop :=
  ∃ s t, v = .str s ∧ w = .str t ∧ toLowerCase s = toLowerCase t

/-! ## Schema UIDs -/

/-- `schemaUidToCredentialType` -/
def schemaUidToCredentialType (schemaUid : JsString) : SdkResult JsString :=
  if isLowerHash schemaUid then .ok (toUpperCase schemaUid)
  else
    failSdk (js "XCS_SDK_INVALID_SCHEMA_UID")
      (js ("Schema UID must be exactly 32 bytes represented by "
        ++ "64 lowercase hexadecimal characters."))
      [(js "schemaUid", .str schemaUid)]

/-- `credentialTypeToSchemaUid` -/
def credentialTypeToSchemaUid (credentialType : JsString) : SdkResult JsString :=
  if isHash credentialType then .ok (toLowerCase credentialType)
  else
    failSdk (js "XCS_SDK_INVALID_SCHEMA_UID")
      (js "CredentialType must contain exactly 32 bytes of hexadecimal data.")
      [(js "credentialType", .str credentialType)]

/-! ## URIs -/

/-- `uriToCredentialHex` -/
def uriToCredentialHex (P : Platform) (uri : JsString) : SdkResult JsString :=
  let byteLength := (encodeUtf8 uri).length
  if byteLength = 0 ∨ maxCredentialUriBytes < byteLength then
    failSdk (js "XCS_SDK_INVALID_URI")
      (js "Credential URI must contain between 1 and 256 UTF-8 bytes.")
      [(js "byteLength", .num (JsNumber.ofNat byteLength))]
  else do
    let _ ← ofCore (parsePayloadUri P uri)
    pure (encodeMemoField uri)

/-- `HEX_PATTERN` -/
def isHexText (s : JsString) : Bool :=
  !s.isEmpty && (s.length % 2 == 0 && s.all isHexDigit)

/-- `credentialHexToUri` -/
def credentialHexToUri (P : Platform) (uriHex : JsString) : SdkResult JsString :=
  if isHexText uriHex then do
    let uri ← decodeMemoField uriHex
    let _ ← uriToCredentialHex P uri
    pure uri
  else failSdk (js "XCS_SDK_INVALID_URI") (js "Credential URI is not valid hexadecimal.") []

/-! ## What is accepted -/

variable {P : Platform} {X : XrplLibrary}

theorem isHexText_eq (s : JsString) : isHexText s = (!s.isEmpty && (hexToBytes s).isSome) := by
  rw [isHexText, isSome_hexToBytes]

/-- A byte order mark is the character U+FEFF to a decoder that keeps it. -/
theorem decodeUtf8_bom (rest : List UInt8) :
    decodeUtf8 (0xef :: 0xbb :: 0xbf :: rest) = (decodeUtf8 rest).map (0xfeff :: ·) := by
  have hscalar : IsScalar 0xfeff := by
    unfold IsScalar
    omega
  exact decodeUtf8_append hscalar rest

theorem stripBom_of_not_bom {bytes : List UInt8}
    (h : ¬∃ rest, bytes = 0xef :: 0xbb :: 0xbf :: rest) : stripBom bytes = bytes := by
  unfold stripBom
  split
  · rename_i rest
    exact absurd ⟨rest, rfl⟩ h
  · rfl

theorem decodeMemoField_eq_ok {value text : JsString} : decodeMemoField value = .ok text ↔
    ∃ bytes, hexToBytes value = some bytes ∧ decodeUtf8 (stripBom bytes) = some text := by
  unfold decodeMemoField
  split
  · rename_i s hs
    rw [Option.bind_eq_some_iff] at hs
    obtain ⟨bytes, hbytes, hdecode⟩ := hs
    constructor
    · rintro h
      cases h
      exact ⟨bytes, hbytes, hdecode⟩
    · rintro ⟨bytes', hbytes', hdecode'⟩
      rw [hbytes, Option.some.injEq] at hbytes'
      subst hbytes'
      rw [hdecode, Option.some.injEq] at hdecode'
      rw [hdecode']
  · rename_i hnone
    refine iff_of_false (fun h => (by cases h)) ?_
    rintro ⟨bytes, hbytes, hdecode⟩
    rw [hbytes, Option.bind_some, hdecode] at hnone
    cases hnone

/-- A text is encoded in one to 256 bytes, when it is an acceptable URI. -/
theorem uriToCredentialHex_eq_ok {uri uriHex : JsString} :
    uriToCredentialHex P uri = .ok uriHex ↔
      (0 < (encodeUtf8 uri).length ∧ (encodeUtf8 uri).length ≤ maxCredentialUriBytes) ∧
        (∃ target, parsePayloadUri P uri = .ok target) ∧ uriHex = encodeMemoField uri := by
  unfold uriToCredentialHex
  dsimp only
  by_cases hlength : (encodeUtf8 uri).length = 0 ∨ maxCredentialUriBytes < (encodeUtf8 uri).length
  · rw [if_pos hlength]
    exact iff_of_false (fun h => (by cases h)) (fun h => (by omega))
  · rw [if_neg hlength]
    simp only [bind_eq_ok, ofCore_eq_ok, pure_eq_ok']
    constructor
    · rintro ⟨target, htarget, hhex⟩
      exact ⟨⟨by omega, by omega⟩, ⟨target, htarget⟩, hhex⟩
    · rintro ⟨-, ⟨target, htarget⟩, hhex⟩
      exact ⟨target, htarget, hhex⟩

theorem credentialHexToUri_eq_ok {uriHex uri : JsString} :
    credentialHexToUri P uriHex = .ok uri ↔
      isHexText uriHex = true ∧ decodeMemoField uriHex = .ok uri ∧
        uriToCredentialHex P uri = .ok (encodeMemoField uri) := by
  unfold credentialHexToUri
  by_cases hhex : isHexText uriHex = true
  · rw [if_pos hhex]
    simp only [bind_eq_ok, pure_eq_ok']
    constructor
    · rintro ⟨_, hdecode, hex, hencode, rfl⟩
      have hvalue := (uriToCredentialHex_eq_ok.mp hencode).2.2
      subst hvalue
      exact ⟨hhex, hdecode, hencode⟩
    · rintro ⟨-, hdecode, hencode⟩
      exact ⟨_, hdecode, _, hencode, rfl⟩
  · rw [if_neg hhex]
    exact iff_of_false (fun h => (by cases h)) (fun h => hhex h.1)

theorem credentialTypeToSchemaUid_eq_ok {credentialType schemaUid : JsString} :
    credentialTypeToSchemaUid credentialType = .ok schemaUid ↔
      isHash credentialType = true ∧ schemaUid = toLowerCase credentialType := by
  unfold credentialTypeToSchemaUid
  split_ifs with h
  · rw [Except.ok.injEq]
    exact ⟨fun he => ⟨h, he.symm⟩, fun he => he.2.symm⟩
  · exact iff_of_false (fun he => (by cases he)) (fun he => h he.1)

theorem schemaUidToCredentialType_eq_ok {schemaUid credentialType : JsString} :
    schemaUidToCredentialType schemaUid = .ok credentialType ↔
      isLowerHash schemaUid = true ∧ credentialType = toUpperCase schemaUid := by
  unfold schemaUidToCredentialType
  split_ifs with h
  · rw [Except.ok.injEq]
    exact ⟨fun he => ⟨h, he.symm⟩, fun he => he.2.symm⟩
  · exact iff_of_false (fun he => (by cases he)) (fun he => h he.1)

/-- The bytes of what was encoded. -/
theorem hexToBytes_encodeMemoField (value : JsString) :
    hexToBytes (encodeMemoField value) = some (encodeUtf8 value) := by
  unfold encodeMemoField
  rw [hexToBytes_congr (toLowerCase_toUpperCase _), hexToBytes_bytesToHex]

/-- What the digits of UTF-8 encode to is the same digits in uppercase. -/
theorem encodeMemoField_of_hexToBytes {value text : JsString} {bytes : List UInt8}
    (hbytes : hexToBytes value = some bytes) (hdecode : decodeUtf8 bytes = some text) :
    encodeMemoField text = toUpperCase value := by
  unfold encodeMemoField
  rw [(decodeUtf8_eq_some hdecode).2, bytesToHex_of_hexToBytes hbytes, toUpperCase_toLowerCase]

end Sdk
end Xcs
