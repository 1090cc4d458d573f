import Xcs.Core.SchemaNormalForm
import Xcs.Js.Date
import Xcs.Json.Bytes
import Xcs.Sdk.TransactionValidation

/-!
# Built transactions

The client builds the payment that registers a schema and the transactions that create, accept and
delete a credential.  What it builds passes its own validation, and means what was asked for.

* `IsWellFormedTransaction` is the form of a transaction: which fields it has, and what their values
  look like.  The ledger library promises to validate a transaction of that form.
* `DenotesCredential` is the credential a transaction is about; an issuer or a subject that is
  absent is the account.
* `builtTransactions_accepted` is the result, for the four builders.
-/

namespace Xcs
namespace Sdk

open Js Json Xcs.Core

/-! ## Expirations -/

/-- `RIPPLE_EPOCH_DIFF` of the ledger library: the beginning of 2000. -/
def rippleEpoch : ℤ := 946684800

/-- `value.replace('Z', '.000Z')` -/
def insertMilliseconds : JsString → JsString
  | [] => []
  | u :: rest => if u == 0x5a then js ".000Z" ++ rest else u :: insertMilliseconds rest

/-- `expectedIso` of `parseCredentialExpiration`. -/
def expectedIso (value : JsString) : JsString :=
  if value.contains 0x2e then value else insertMilliseconds value

/-- `throw new XcsSdkError('XCS_SDK_INVALID_EXPIRATION', message)` -/
def invalidExpiration {α : Type} (message : JsString) : SdkResult α :=
  failSdk (js "XCS_SDK_INVALID_EXPIRATION") message []

/-- `parseCredentialExpiration` -/
def parseCredentialExpiration (X : XrplLibrary) (value : JsString) : SdkResult JsNumber :=
  if !isWholeSecondUtcIso value
      || (wholeSecondTime value).map toISOString != some (expectedIso value) then
    invalidExpiration
      (js "Credential expiration must be a valid whole-second UTC ISO timestamp.")
  else
    let expiration := X.isoTimeToRippleTime value
    if expiration.toUint32?.isNone then
      invalidExpiration (js "Credential expiration is outside the XRPL uint32 range.")
    else .ok expiration

/-! ## Schema registrations -/

/-- `BuildSchemaRegistrationInput`.  An object of JavaScript has every key once. -/
structure BuildSchemaRegistrationInput where
  publisher : JsString
  profile : JsValue
  schema : JsValue
  schema_distinctKeys : schema.distinctKeys = true

/-- `BuiltSchemaRegistration` -/
structure BuiltSchemaRegistration where
  transaction : JsValue
  schema : SchemaDefinition
  canonicalSchema : JsString
  memoByteLength : ℤ

/-- `new TextDecoder().decode(bytes)` of bytes an encoder wrote, which are never replaced. -/
def decodeText (bytes : List UInt8) : JsString :=
  (decodeUtf8 (stripBom bytes)).getD []

/-- `buildSchemaRegistrationPayment` -/
def buildSchemaRegistrationPayment (P : Platform) (X : XrplLibrary)
    (input : BuildSchemaRegistrationInput) : SdkResult BuiltSchemaRegistration := do
  let profile ← parseNetworkProfile P input.profile
  assertClassicAddress P (.str input.publisher) (js "publisher")
  let schema ← ofCore (parseSchema input.schema)
  let bytes ← ofCore (encodeSchema P schema.toJs)
  let canonicalSchema := decodeText bytes
  assertMemoFits X canonicalSchema
  let memoByteLength ← measureSchemaRegistrationMemoBytes X canonicalSchema
  pure
    { transaction := .obj
        [(js "TransactionType", .str (js "Payment")),
          (js "Account", .str input.publisher),
          (js "Destination", .str profile.registryAddress),
          (js "Amount", .str profile.registrationAmountDrops),
          (js "Memos", .arr [schemaMemo canonicalSchema])]
      schema, canonicalSchema, memoByteLength }

/-! ## Credentials -/

/-- `BuildCredentialCreateInput` -/
structure BuildCredentialCreateInput where
  issuer : JsString
  subject : JsString
  schemaUid : JsString
  uri : JsString
  expiration : Option JsString

/-- `BuildCredentialAcceptInput` -/
structure BuildCredentialAcceptInput where
  subject : JsString
  issuer : JsString
  schemaUid : JsString

/-- `BuildCredentialDeleteInput` -/
structure BuildCredentialDeleteInput where
  account : JsString
  issuer : JsString
  subject : JsString
  schemaUid : JsString

/-- The `Expiration` of a creation, where one is asked for. -/
def expirationMember (X : XrplLibrary) : Option JsString → SdkResult Members
  | none => .ok []
  | some value => do
      let expiration ← parseCredentialExpiration X value
      pure [(js "Expiration", .num expiration)]

/-- `buildCredentialCreate` -/
def buildCredentialCreate (P : Platform) (X : XrplLibrary) (input : BuildCredentialCreateInput) :
    SdkResult JsValue := do
  assertClassicAddress P (.str input.issuer) (js "issuer")
  assertClassicAddress P (.str input.subject) (js "subject")
  let credentialType ← schemaUidToCredentialType input.schemaUid
  let uriHex ← uriToCredentialHex P input.uri
  let expiration ← expirationMember X input.expiration
  pure (.obj ([(js "TransactionType", .str (js "CredentialCreate")),
    (js "Account", .str input.issuer), (js "Subject", .str input.subject),
    (js "CredentialType", .str credentialType), (js "URI", .str uriHex)] ++ expiration))

/-- `buildCredentialAccept` -/
def buildCredentialAccept (P : Platform) (input : BuildCredentialAcceptInput) :
    SdkResult JsValue := do
  assertClassicAddress P (.str input.subject) (js "subject")
  assertClassicAddress P (.str input.issuer) (js "issuer")
  let credentialType ← schemaUidToCredentialType input.schemaUid
  pure (.obj [(js "TransactionType", .str (js "CredentialAccept")),
    (js "Account", .str input.subject), (js "Issuer", .str input.issuer),
    (js "CredentialType", .str credentialType)])

/-- The `Issuer` and the `Subject` of a deletion: those that are not the account, and the subject
when both are. -/
def deletionParties (account issuer subject : JsString) : Members :=
  let named := (if account ≠ issuer then [(js "Issuer", JsValue.str issuer)] else [])
    ++ (if account ≠ subject then [(js "Subject", JsValue.str subject)] else [])
  if ((JsValue.obj named).get (js "Issuer")).isUndefined
      && ((JsValue.obj named).get (js "Subject")).isUndefined then
    named ++ [(js "Subject", .str subject)]
  else named

/-- `buildCredentialDelete` -/
def buildCredentialDelete (P : Platform) (input : BuildCredentialDeleteInput) :
    SdkResult JsValue := do
  assertClassicAddress P (.str input.account) (js "account")
  assertClassicAddress P (.str input.issuer) (js "issuer")
  assertClassicAddress P (.str input.subject) (js "subject")
  let credentialType ← schemaUidToCredentialType input.schemaUid
  pure (.obj ([(js "TransactionType", .str (js "CredentialDelete")),
    (js "Account", .str input.account), (js "CredentialType", .str credentialType)]
      ++ deletionParties input.account input.issuer input.subject))

/-! ## The form of a transaction -/

/-- A field of a type of transaction. -/
structure TransactionField where
  key : JsString
  required : Bool
  form : JsValue → Bool

/-- Hexadecimal digits of whole bytes, up to a number of digits. -/
def isHexField (maxDigits : ℕ) : JsValue → Bool
  | .str s => isHexText s && decide (s.length ≤ maxDigits)
  | _ => false

/-- An amount of the native currency. -/
def isDropsField : JsValue → Bool
  | .str s => !s.isEmpty && s.all isDigit
  | _ => false

/-- A field of a memo of any length. -/
def isMemoHexField : JsValue → Bool
  | .str s => isHexText s
  | _ => false

/-- An entry of the memos: an object with the fields of a memo, in hexadecimal. -/
def isMemoEntry : JsValue → Bool
  | .obj [(key, .obj fields)] =>
      key == js "Memo" && !fields.isEmpty
        && fields.all fun m =>
          decide (m.1 ∈ [js "MemoType", js "MemoFormat", js "MemoData"]) && isMemoHexField m.2
  | _ => false

/-- The memos of a transaction. -/
def isMemosField : JsValue → Bool
  | .arr entries => entries.all isMemoEntry
  | _ => false

/-- A transaction of a type has the fields of the type, once each and in their form. -/
structure HasForm (type : JsString) (fields : List TransactionField) (transaction : JsValue) :
    Prop where
  transactionType : transaction.get (js "TransactionType") = .str type
  members : ∃ members, transaction = .obj members ∧ (members.map Prod.fst).Nodup ∧
    members.map Prod.fst ⊆ js "TransactionType" :: fields.map TransactionField.key
  fields : ∀ field ∈ fields,
    transaction.get field.key = .undefined ∧ field.required = false ∨
      field.form (transaction.get field.key) = true

/-- The fields of a payment of the native currency. -/
def paymentFields (P : Platform) : List TransactionField :=
  [⟨js "Account", true, isClassicAddress P⟩, ⟨js "Destination", true, isClassicAddress P⟩,
    ⟨js "Amount", true, isDropsField⟩, ⟨js "Memos", false, isMemosField⟩]

/-- The fields of the creation of a credential. -/
def credentialCreateFields (P : Platform) : List TransactionField :=
  [⟨js "Account", true, isClassicAddress P⟩, ⟨js "Subject", true, isClassicAddress P⟩,
    ⟨js "CredentialType", true, isHexField 128⟩, ⟨js "URI", false, isHexField 512⟩,
    ⟨js "Expiration", false, isUint32Field⟩]

/-- The fields of the acceptance of a credential. -/
def credentialAcceptFields (P : Platform) : List TransactionField :=
  [⟨js "Account", true, isClassicAddress P⟩, ⟨js "Issuer", true, isClassicAddress P⟩,
    ⟨js "CredentialType", true, isHexField 128⟩]

/-- The fields of the deletion of a credential. -/
def credentialDeleteFields (P : Platform) : List TransactionField :=
  [⟨js "Account", true, isClassicAddress P⟩, ⟨js "CredentialType", true, isHexField 128⟩,
    ⟨js "Issuer", false, isClassicAddress P⟩, ⟨js "Subject", false, isClassicAddress P⟩]

/-- A structurally well-formed transaction of one of the four types.  A deletion names an issuer or
a subject. -/
inductive IsWellFormedTransaction (P : Platform) (transaction : JsValue) : Prop where
  | payment : HasForm (js "Payment") (paymentFields P) transaction →
      IsWellFormedTransaction P transaction
  | credentialCreate : HasForm (js "CredentialCreate") (credentialCreateFields P) transaction →
      IsWellFormedTransaction P transaction
  | credentialAccept : HasForm (js "CredentialAccept") (credentialAcceptFields P) transaction →
      IsWellFormedTransaction P transaction
  | credentialDelete : HasForm (js "CredentialDelete") (credentialDeleteFields P) transaction →
      ¬(transaction.get (js "Issuer") = .undefined ∧
        transaction.get (js "Subject") = .undefined) → IsWellFormedTransaction P transaction

/-- What the ledger library promises: it validates a well-formed transaction, and it counts the time
of an ISO text in seconds from the beginning of 2000. -/
structure LibraryPromises (P : Platform) (X : XrplLibrary) : Prop where
  validate : ∀ transaction, IsWellFormedTransaction P transaction → X.validate transaction = true
  isoTimeToRippleTime : ∀ value seconds, isWholeSecondUtcIso value = true →
    isoSeconds value = some seconds → toISOString (1000 * seconds) = expectedIso value →
      X.isoTimeToRippleTime value = .ofRat ((seconds - rippleEpoch : ℤ) : ℚ)

/-! ## The meaning of a transaction -/

/-- A field that stands for the account where it is absent. -/
def orAccount (transaction : JsValue) (key : JsString) : JsValue :=
  if (transaction.get key).isUndefined then transaction.get (js "Account") else transaction.get key

/-- The credential a transaction is about. -/
structure DenotesCredential (transaction : JsValue) (issuer subject credentialType : JsString) :
    Prop where
  issuer : orAccount transaction (js "Issuer") = .str issuer
  subject : orAccount transaction (js "Subject") = .str subject
  credentialType : transaction.get (js "CredentialType") = .str credentialType

/-- The expiration of a transaction is the time of a text: its ISO text is the text, and it is the
time value of the text. -/
def DenotesTime (expiration : JsValue) (value : JsString) : Prop :=
  ∃ n time, expiration = .num n ∧ n.toUint32? = some time ∧
    toISOString (1000 * (time + rippleEpoch)) = expectedIso value ∧
      wholeSecondTime value = some (1000 * (time + rippleEpoch))

/-- The memo of a registration holds a definition, up to the order of its fields. -/
def CarriesSchema (P : Platform) (transaction : JsValue) (schema : SchemaDefinition) : Prop :=
  ∃ memoData bytes schema', transaction.get (js "Memos") = .arr [schemaMemo memoData] ∧
    hexToBytes (encodeMemoField memoData) = some bytes ∧
      parseSchemaBytes P bytes = .ok schema' ∧ schema'.canon = schema.canon

/-! ## Fields of built transactions -/

variable {P : Platform} {X : XrplLibrary}

theorem length_encodeMemoField (value : JsString) :
    (encodeMemoField value).length = 2 * (encodeUtf8 value).length := by
  unfold encodeMemoField
  rw [length_toUpperCase, length_bytesToHex]

theorem isHexText_encodeMemoField {value : JsString} (h : 0 < (encodeUtf8 value).length) :
    isHexText (encodeMemoField value) = true := by
  have hlength := length_encodeMemoField value
  have hne : encodeMemoField value ≠ [] := by
    intro hnil
    rw [hnil, List.length_nil] at hlength
    omega
  rw [isHexText_eq, hexToBytes_encodeMemoField, List.isEmpty_eq_false_iff.mpr hne]
  rfl

/-- The digits of a schema UID in uppercase are a credential type. -/
theorem isHash_toUpperCase {uid : JsString} (h : isLowerHash uid = true) :
    isHash (toUpperCase uid) = true := by
  rw [isHash_congr (toLowerCase_toUpperCase uid)]
  exact isHash_of_isLowerHash h

theorem isHexField_credentialType {uid : JsString} (h : isLowerHash uid = true) :
    isHexField 128 (.str (toUpperCase uid)) = true := by
  have hhash := isHash_toUpperCase h
  rw [isHash, Bool.and_eq_true, beq_iff_eq] at hhash
  obtain ⟨hlength, hdigits⟩ := hhash
  have hne : toUpperCase uid ≠ [] := by
    intro hnil
    rw [hnil, List.length_nil] at hlength
    omega
  unfold isHexField isHexText
  dsimp only
  rw [hlength, hdigits, List.isEmpty_eq_false_iff.mpr hne]
  rfl

theorem decodeOptional_encodeMemoField {value : JsString} (h : isWellFormed value = true) :
    decodeOptionalMemoField (.str (encodeMemoField value)) = some value := by
  rw [decodeOptionalMemoField_str, hexToBytes_encodeMemoField]
  exact decodeUtf8_encodeUtf8 h

/-- **A URI that can be encoded can be decoded again.** -/
theorem credentialHexToUri_encodeMemoField (hP : EscapesFragments P) {uri uriHex : JsString}
    (h : uriToCredentialHex P uri = .ok uriHex) :
    uriHex = encodeMemoField uri ∧ credentialHexToUri P uriHex = .ok uri := by
  obtain ⟨⟨hpos, -⟩, ⟨target, htarget⟩, rfl⟩ := uriToCredentialHex_eq_ok.mp h
  refine ⟨rfl, credentialHexToUri_eq_ok.mpr ⟨isHexText_encodeMemoField hpos, ?_, h⟩⟩
  have hdecode : decodeUtf8 (encodeUtf8 uri) = some uri :=
    decodeUtf8_encodeUtf8 (isWellFormed_of_parsePayloadUri hP htarget)
  have hbom : ¬∃ rest, encodeUtf8 uri = 0xef :: 0xbb :: 0xbf :: rest := by
    rintro ⟨rest, hrest⟩
    rw [hrest, decodeUtf8_bom, Option.map_eq_some_iff] at hdecode
    obtain ⟨text, -, rfl⟩ := hdecode
    have hrefused := @parsePayloadUri_bom P text
    rw [htarget] at hrefused
    cases hrefused
  refine decodeMemoField_eq_ok.mpr ⟨_, hexToBytes_encodeMemoField uri, ?_⟩
  rw [stripBom_of_not_bom hbom]
  exact hdecode

/-- **An accepted expiration** is the time that was asked for. -/
theorem denotesTime_of_parseCredentialExpiration (hX : LibraryPromises P X) {value : JsString}
    {expiration : JsNumber} (h : parseCredentialExpiration X value = .ok expiration) :
    isUint32Field (.num expiration) = true ∧ DenotesTime (.num expiration) value := by
  unfold parseCredentialExpiration at h
  split_ifs at h with hform
  · cases h
  · dsimp only at h
    split_ifs at h with huint
    · cases h
    · cases h
      simp only [Bool.or_eq_true, Bool.not_eq_true', not_or, Bool.not_eq_false, bne_iff_ne, ne_eq,
        not_not] at hform
      obtain ⟨hiso, htime⟩ := hform
      obtain ⟨time, hvalue, htext⟩ := Option.map_eq_some_iff.mp htime
      obtain ⟨seconds, hseconds, rfl⟩ := Option.map_eq_some_iff.mp hvalue
      obtain ⟨n, hn⟩ := Option.ne_none_iff_exists'.mp (fun hnone =>
        huint (Option.isNone_iff_eq_none.mpr hnone))
      have hn' := hn
      rw [hX.isoTimeToRippleTime value seconds hiso hseconds htext] at hn'
      have hsum : seconds = n + rippleEpoch := by
        have := JsNumber.eq_of_toUint32?_ofRat hn'
        omega
      refine ⟨?_, _, n, rfl, hn, ?_, ?_⟩
      · unfold isUint32Field
        dsimp only
        rw [hn]
        rfl
      · rw [← hsum]
        exact htext
      · rw [← hsum]
        exact hvalue

/-! ## Schema registrations -/

/-- The decoder gives back the canonical text of an object, which begins with a brace. -/
theorem decodeText_canonicalText (members : Members) :
    decodeText (encodeUtf8 (canonicalText (.obj members))) = canonicalText (.obj members) := by
  have hdecode := decodeUtf8_canonicalText (.obj members)
  have hbom : ¬∃ rest, encodeUtf8 (canonicalText (.obj members))
      = 0xef :: 0xbb :: 0xbf :: rest := by
    rintro ⟨rest, hrest⟩
    rw [hrest, decodeUtf8_bom, Option.map_eq_some_iff] at hdecode
    obtain ⟨text, -, htext⟩ := hdecode
    rw [canonicalText, JsValue.canon_obj] at htext
    cases hsorted : sortMembers (members.map fun m => (m.1, m.2.canon)) with
    | nil =>
        rw [hsorted] at htext
        cases htext
    | cons m rest =>
        rw [hsorted] at htext
        cases htext
  unfold decodeText
  rw [stripBom_of_not_bom hbom, hdecode, Option.getD_some]

/-- **The memo of a built registration holds the definition.** -/
theorem parseSchemaBytes_of_built {v : JsValue} (hkeys : v.distinctKeys = true)
    {schema : SchemaDefinition} (hparse : parseSchema v = .ok schema) {bytes : List UInt8}
    (hencode : encodeSchema P schema.toJs = .ok bytes) :
    bytes = encodeUtf8 (canonicalText schema.toJs) ∧
      ∃ schema', parseSchemaBytes P bytes = .ok schema' ∧ schema'.canon = schema.canon := by
  obtain ⟨d, hd, hwritable, rfl⟩ := encodeSchema_eq_ok.mp hencode
  rw [parseSchema_toJs (isValid_of_parseSchema hparse)] at hd
  obtain rfl := Except.ok.inj hd
  exact ⟨rfl, parseSchemaBytes_of_encodeSchema hkeys hparse hwritable⟩

/-- The fields of the memo of a registration. -/
def memoFieldsOf (canonicalSchema : JsString) : JsValue :=
  .obj [(js "MemoType", .str (encodeMemoField xcsSchemaMemoType)),
    (js "MemoFormat", .str (encodeMemoField xcsSchemaMemoFormat)),
    (js "MemoData", .str (encodeMemoField canonicalSchema))]

theorem selectXcsMemos_schemaMemo (canonicalSchema : JsString) :
    selectXcsMemos [schemaMemo canonicalSchema] = .ok [memoFieldsOf canonicalSchema] := by
  have htype : decodeOptionalMemoField
      ((memoFieldsOf canonicalSchema).get (js "MemoType")) = some xcsSchemaMemoType :=
    decodeOptional_encodeMemoField (by decide)
  have hmemo : memoOf (schemaMemo canonicalSchema) = .ok (memoFieldsOf canonicalSchema) := rfl
  unfold selectXcsMemos
  rw [hmemo]
  show Except.ok (if decodeOptionalMemoField ((memoFieldsOf canonicalSchema).get (js "MemoType"))
    == some xcsSchemaMemoType then _ else _) = _
  rw [htype]
  rfl

theorem isMemoEntry_schemaMemo {canonicalSchema : JsString}
    (h : 0 < (encodeUtf8 canonicalSchema).length) :
    isMemoEntry (schemaMemo canonicalSchema) = true := by
  have hdata := isHexText_encodeMemoField h
  have hfields : isMemoEntry (schemaMemo canonicalSchema)
      = (isHexText (encodeMemoField xcsSchemaMemoType)
        && (isHexText (encodeMemoField xcsSchemaMemoFormat)
          && (isHexText (encodeMemoField canonicalSchema) && true))) := rfl
  rw [hfields, hdata]
  decide

/-- The payment that is built. -/
def registrationPayment (publisher canonicalSchema : JsString) (profile : Indexer.NetworkProfile) :
    JsValue :=
  .obj [(js "TransactionType", .str (js "Payment")), (js "Account", .str publisher),
    (js "Destination", .str profile.registryAddress),
    (js "Amount", .str profile.registrationAmountDrops),
    (js "Memos", .arr [schemaMemo canonicalSchema])]

theorem isWellFormedTransaction_registrationPayment {publisher canonicalSchema : JsString}
    {profile : Indexer.NetworkProfile} (hpublisher : P.isValidClassicAddress publisher = true)
    (hregistry : P.isValidClassicAddress profile.registryAddress = true)
    (hschema : 0 < (encodeUtf8 canonicalSchema).length) :
    IsWellFormedTransaction P (registrationPayment publisher canonicalSchema profile) := by
  have hmemos : isMemosField (.arr [schemaMemo canonicalSchema]) = true := by
    show (isMemoEntry (schemaMemo canonicalSchema) && true) = true
    rw [isMemoEntry_schemaMemo hschema]
    rfl
  refine .payment ⟨rfl, ⟨_, rfl, ?_, ?_⟩, ?_⟩
  · show [js "TransactionType", js "Account", js "Destination", js "Amount", js "Memos"].Nodup
    decide
  · show [js "TransactionType", js "Account", js "Destination", js "Amount", js "Memos"]
      ⊆ [js "TransactionType", js "Account", js "Destination", js "Amount", js "Memos"]
    exact List.Subset.refl _
  · simp only [paymentFields, List.forall_mem_cons, List.not_mem_nil, false_imp_iff,
      implies_true, and_true]
    exact ⟨Or.inr hpublisher, Or.inr hregistry, Or.inr rfl, Or.inr hmemos⟩

theorem length_pos_of_parseSchemaBytes {bytes : List UInt8} {schema : SchemaDefinition}
    (h : parseSchemaBytes P bytes = .ok schema) : 0 < bytes.length := by
  rw [List.length_pos_iff]
  intro hnil
  rw [hnil] at h
  obtain ⟨text, v, htext, hv, -⟩ := parseSchemaBytes_eq_ok.mp h
  cases htext
  obtain ⟨root, hroot, -⟩ := parseJson_eq_ok.mp hv
  cases hroot

/-- **A built registration is accepted**, and holds the definition. -/
theorem accepted_buildSchemaRegistrationPayment (hX : LibraryPromises P X)
    {input : BuildSchemaRegistrationInput} {built : BuiltSchemaRegistration}
    (h : buildSchemaRegistrationPayment P X input = .ok built) :
    assertXcsTransactionSemantics P X built.transaction input.profile
        = .ok (.schemaRegistration built.transaction) ∧
      CarriesSchema P built.transaction built.schema := by
  simp only [buildSchemaRegistrationPayment, bind_eq_ok, ofCore_eq_ok, assertClassicAddress_eq_ok,
    exists_const, pure_eq_ok'] at h
  obtain ⟨profile, hprofile, ⟨publisher, hs, hpublisher⟩, schema, hschema, bytes, hbytes, _, hfits,
    memoByteLength, -, rfl⟩ := h
  cases hs
  obtain ⟨rfl, schema', hparse, hcanon⟩ :=
    parseSchemaBytes_of_built input.schema_distinctKeys hschema hbytes
  have htext : decodeText (encodeUtf8 (canonicalText schema.toJs)) = canonicalText schema.toJs :=
    decodeText_canonicalText _
  rw [htext] at hfits ⊢
  set canonicalSchema := canonicalText schema.toJs with hcanonicalSchema
  have hdecode : decodeUtf8 (encodeUtf8 canonicalSchema) = some canonicalSchema :=
    decodeUtf8_canonicalText _
  have hpositive := length_pos_of_parseSchemaBytes hparse
  have hmemo : checkMemo P X (memoFieldsOf canonicalSchema) = .ok () := by
    have hdata : checkMemoData P X (encodeMemoField canonicalSchema) = .ok () :=
      checkMemoData_eq_ok.mpr ⟨_, _, schema', hexToBytes_encodeMemoField _, hdecode, hparse, hfits⟩
    exact checkMemo_eq_ok.mpr ⟨decodeOptional_encodeMemoField (by decide), _, rfl, hdata⟩
  have hregistration : IsSchemaRegistration P X
      (registrationPayment input.publisher canonicalSchema profile) profile :=
    ⟨⟨input.publisher, rfl, hpublisher⟩, rfl, rfl, rfl, rfl, rfl, rfl,
      ⟨_, _, rfl, selectXcsMemos_schemaMemo _, hmemo⟩⟩
  have hvalidate := hX.validate _ (isWellFormedTransaction_registrationPayment hpublisher
    (parseNetworkProfile_eq_ok hprofile).1 hpositive)
  refine ⟨assertXcsTransactionSemantics_eq_ok.mpr ⟨hvalidate, profile, hprofile, Or.inl ⟨rfl,
    validateSchemaRegistration_eq_ok.mpr ⟨hregistration, rfl⟩⟩⟩, ?_⟩
  exact ⟨canonicalSchema, _, schema', rfl, hexToBytes_encodeMemoField _, hparse, hcanon⟩

/-! ## Credentials -/

/-- The creation that is built. -/
def credentialCreation (input : BuildCredentialCreateInput) (uriHex : JsString)
    (expiration : Members) : JsValue :=
  .obj ([(js "TransactionType", .str (js "CredentialCreate")),
    (js "Account", .str input.issuer), (js "Subject", .str input.subject),
    (js "CredentialType", .str (toUpperCase input.schemaUid)), (js "URI", .str uriHex)]
      ++ expiration)

def credentialCreationKeys : List JsString :=
  [js "TransactionType", js "Account", js "Subject", js "CredentialType", js "URI"]

theorem accepted_of_isCredentialCreate (hX : LibraryPromises P X)
    {transaction profileInput : JsValue} {schemaUid : JsString}
    (hprofile : ∃ profile, parseNetworkProfile P profileInput = .ok profile)
    (hform : HasForm (js "CredentialCreate") (credentialCreateFields P) transaction)
    (h : IsCredentialCreate P transaction schemaUid) :
    assertXcsTransactionSemantics P X transaction profileInput
      = .ok (.credentialCreate transaction schemaUid) := by
  obtain ⟨profile, hprofile⟩ := hprofile
  have hvalidate := hX.validate _ (.credentialCreate hform)
  exact assertXcsTransactionSemantics_eq_ok.mpr ⟨hvalidate, profile, hprofile,
    Or.inr (Or.inl ⟨hform.transactionType, validateCredentialCreate_eq_ok.mpr ⟨_, h, rfl⟩⟩)⟩

/-- **A built creation is accepted**, and creates what was asked for. -/
theorem accepted_buildCredentialCreate (hP : EscapesFragments P) (hX : LibraryPromises P X)
    {input : BuildCredentialCreateInput} {transaction profileInput : JsValue}
    (hprofile : ∃ profile, parseNetworkProfile P profileInput = .ok profile)
    (h : buildCredentialCreate P X input = .ok transaction) :
    assertXcsTransactionSemantics P X transaction profileInput
        = .ok (.credentialCreate transaction input.schemaUid) ∧
      DenotesCredential transaction input.issuer input.subject (toUpperCase input.schemaUid) ∧
      ∀ value ∈ input.expiration, DenotesTime (transaction.get (js "Expiration")) value := by
  simp only [buildCredentialCreate, bind_eq_ok, assertClassicAddress_eq_ok, exists_const,
    schemaUidToCredentialType_eq_ok, pure_eq_ok'] at h
  obtain ⟨⟨_, hs, hissuer⟩, ⟨_, ht, hsubject⟩, _, ⟨huid, rfl⟩, uriHex, huri, members, hexpiration,
    rfl⟩ := h
  cases hs
  cases ht
  obtain ⟨rfl, hdecode⟩ := credentialHexToUri_encodeMemoField hP huri
  obtain ⟨⟨hpositive, hlength⟩, -, -⟩ := uriToCredentialHex_eq_ok.mp huri
  have htype := isHexField_credentialType huid
  have huriField : isHexField 512 (.str (encodeMemoField input.uri)) = true := by
    have hdigits := length_encodeMemoField input.uri
    unfold maxCredentialUriBytes at hlength
    show (isHexText (encodeMemoField input.uri)
      && decide ((encodeMemoField input.uri).length ≤ 512)) = true
    rw [isHexText_encodeMemoField hpositive, Bool.true_and, decide_eq_true_eq]
    omega
  have hlower : toLowerCase (toUpperCase input.schemaUid) = input.schemaUid := by
    rw [toLowerCase_toUpperCase, toLowerCase_of_isLowerHash huid]
  cases hvalue : input.expiration with
  | none =>
      rw [hvalue] at hexpiration
      cases hexpiration
      have hcreate : IsCredentialCreate P
          (credentialCreation input (encodeMemoField input.uri) []) input.schemaUid :=
        ⟨⟨_, rfl, hissuer⟩, ⟨_, rfl, hsubject⟩, ⟨_, rfl, isHash_toUpperCase huid, hlower.symm⟩,
          ⟨_, _, rfl, hdecode⟩, Or.inl rfl⟩
      have hform : HasForm (js "CredentialCreate") (credentialCreateFields P)
          (credentialCreation input (encodeMemoField input.uri) []) := by
        refine ⟨rfl, ⟨_, rfl, ?_, ?_⟩, ?_⟩
        · show credentialCreationKeys.Nodup
          decide
        · exact List.subset_append_left credentialCreationKeys [js "Expiration"]
        · simp only [credentialCreateFields, List.forall_mem_cons, List.not_mem_nil,
            false_imp_iff, implies_true, and_true]
          exact ⟨Or.inr hissuer, Or.inr hsubject, Or.inr htype, Or.inr huriField,
            Or.inl rfl⟩
      refine ⟨accepted_of_isCredentialCreate hX hprofile hform hcreate, ⟨rfl, rfl, rfl⟩, ?_⟩
      intro value hmem
      cases hmem
  | some value =>
      rw [hvalue] at hexpiration
      simp only [expirationMember, bind_eq_ok, pure_eq_ok'] at hexpiration
      obtain ⟨expiration, hparse, rfl⟩ := hexpiration
      obtain ⟨huint, htime⟩ := denotesTime_of_parseCredentialExpiration hX hparse
      have hcreate : IsCredentialCreate P
          (credentialCreation input (encodeMemoField input.uri)
            [(js "Expiration", .num expiration)]) input.schemaUid :=
        ⟨⟨_, rfl, hissuer⟩, ⟨_, rfl, hsubject⟩, ⟨_, rfl, isHash_toUpperCase huid, hlower.symm⟩,
          ⟨_, _, rfl, hdecode⟩, Or.inr huint⟩
      have hform : HasForm (js "CredentialCreate") (credentialCreateFields P)
          (credentialCreation input (encodeMemoField input.uri)
            [(js "Expiration", .num expiration)]) := by
        refine ⟨rfl, ⟨_, rfl, ?_, ?_⟩, ?_⟩
        · show (credentialCreationKeys ++ [js "Expiration"]).Nodup
          decide
        · exact List.Subset.refl (credentialCreationKeys ++ [js "Expiration"])
        · simp only [credentialCreateFields, List.forall_mem_cons, List.not_mem_nil,
            false_imp_iff, implies_true, and_true]
          exact ⟨Or.inr hissuer, Or.inr hsubject, Or.inr htype, Or.inr huriField, Or.inr huint⟩
      refine ⟨accepted_of_isCredentialCreate hX hprofile hform hcreate, ⟨rfl, rfl, rfl⟩, ?_⟩
      intro value' hvalue'
      cases hvalue'
      exact htime

/-- **A built acceptance is accepted**, and accepts what was asked for. -/
theorem accepted_buildCredentialAccept (hX : LibraryPromises P X)
    {input : BuildCredentialAcceptInput} {transaction profileInput : JsValue}
    (hprofile : ∃ profile, parseNetworkProfile P profileInput = .ok profile)
    (h : buildCredentialAccept P input = .ok transaction) :
    assertXcsTransactionSemantics P X transaction profileInput
        = .ok (.credentialAccept transaction input.schemaUid) ∧
      DenotesCredential transaction input.issuer input.subject (toUpperCase input.schemaUid) := by
  obtain ⟨profile, hprofile⟩ := hprofile
  simp only [buildCredentialAccept, bind_eq_ok, assertClassicAddress_eq_ok, exists_const,
    schemaUidToCredentialType_eq_ok, pure_eq_ok'] at h
  obtain ⟨⟨_, hs, hsubject⟩, ⟨_, ht, hissuer⟩, _, ⟨huid, rfl⟩, rfl⟩ := h
  cases hs
  cases ht
  have htype := isHexField_credentialType huid
  have hlower : toLowerCase (toUpperCase input.schemaUid) = input.schemaUid := by
    rw [toLowerCase_toUpperCase, toLowerCase_of_isLowerHash huid]
  refine ⟨?_, ⟨rfl, rfl, rfl⟩⟩
  have hform : HasForm (js "CredentialAccept") (credentialAcceptFields P)
      (.obj [(js "TransactionType", .str (js "CredentialAccept")),
        (js "Account", .str input.subject), (js "Issuer", .str input.issuer),
        (js "CredentialType", .str (toUpperCase input.schemaUid))]) := by
    refine ⟨rfl, ⟨_, rfl, ?_, List.Subset.refl _⟩, ?_⟩
    · show [js "TransactionType", js "Account", js "Issuer", js "CredentialType"].Nodup
      decide
    · simp only [credentialAcceptFields, List.forall_mem_cons, List.not_mem_nil, false_imp_iff,
        implies_true, and_true]
      exact ⟨Or.inr hsubject, Or.inr hissuer, Or.inr htype⟩
  have hvalidate := hX.validate _ (.credentialAccept hform)
  refine assertXcsTransactionSemantics_eq_ok.mpr ⟨hvalidate, profile, hprofile,
    Or.inr (Or.inr (Or.inl ⟨rfl, validateCredentialAccept_eq_ok.mpr ⟨⟨_, rfl, hsubject⟩,
      ⟨_, rfl, hissuer⟩, _, rfl, isHash_toUpperCase huid, ?_⟩⟩))⟩
  rw [hlower]

/-- The deletion that is built, with the parties it names. -/
def credentialDeletion (account schemaUid : JsString) (parties : Members) : JsValue :=
  .obj ([(js "TransactionType", .str (js "CredentialDelete")), (js "Account", .str account),
    (js "CredentialType", .str (toUpperCase schemaUid))] ++ parties)

theorem accepted_of_deletion (hX : LibraryPromises P X) {account schemaUid : JsString}
    {parties : Members} {profileInput : JsValue}
    (hprofile : ∃ profile, parseNetworkProfile P profileInput = .ok profile)
    (huid : isLowerHash schemaUid = true)
    (hform : HasForm (js "CredentialDelete") (credentialDeleteFields P)
      (credentialDeletion account schemaUid parties))
    (hparties : ¬((credentialDeletion account schemaUid parties).get (js "Issuer") = .undefined ∧
      (credentialDeletion account schemaUid parties).get (js "Subject") = .undefined)) :
    assertXcsTransactionSemantics P X (credentialDeletion account schemaUid parties) profileInput
      = .ok (.credentialDelete (credentialDeletion account schemaUid parties) schemaUid) := by
  obtain ⟨profile, hprofile⟩ := hprofile
  have hvalidate := hX.validate _ (.credentialDelete hform hparties)
  have hlower : toLowerCase (toUpperCase schemaUid) = schemaUid := by
    rw [toLowerCase_toUpperCase, toLowerCase_of_isLowerHash huid]
  have hclassic : ∀ {v : JsValue}, isClassicAddress P v = true →
      ∃ s, v = .str s ∧ P.isValidClassicAddress s = true := by
    intro v hv
    cases v with
    | str s => exact ⟨s, rfl, hv⟩
    | _ => cases hv
  have hfields := hform.fields
  simp only [credentialDeleteFields, List.forall_mem_cons, List.not_mem_nil, false_imp_iff,
    implies_true, and_true] at hfields
  obtain ⟨haccount, -, hissuer, hsubject⟩ := hfields
  refine assertXcsTransactionSemantics_eq_ok.mpr ⟨hvalidate, profile, hprofile, Or.inr (Or.inr
    (Or.inr ⟨rfl, validateCredentialDelete_eq_ok.mpr ⟨?_, hparties, hissuer.imp_right hclassic,
      hsubject.imp_right hclassic, _, rfl, isHash_toUpperCase huid, ?_⟩⟩))⟩
  · rcases haccount with ⟨-, hrequired⟩ | haccount
    · cases hrequired
    · exact hclassic haccount
  · rw [hlower]

/-- **A built deletion is accepted**, and deletes what was asked for, whoever signs it. -/
theorem accepted_buildCredentialDelete (hX : LibraryPromises P X)
    {input : BuildCredentialDeleteInput} {transaction profileInput : JsValue}
    (hprofile : ∃ profile, parseNetworkProfile P profileInput = .ok profile)
    (h : buildCredentialDelete P input = .ok transaction) :
    assertXcsTransactionSemantics P X transaction profileInput
        = .ok (.credentialDelete transaction input.schemaUid) ∧
      DenotesCredential transaction input.issuer input.subject (toUpperCase input.schemaUid) := by
  simp only [buildCredentialDelete, bind_eq_ok, assertClassicAddress_eq_ok, exists_const,
    schemaUidToCredentialType_eq_ok, pure_eq_ok'] at h
  obtain ⟨⟨_, hs, haccount⟩, ⟨_, ht, hissuer⟩, ⟨_, hu, hsubject⟩, _, ⟨huid, rfl⟩, rfl⟩ := h
  cases hs
  cases ht
  cases hu
  have htype := isHexField_credentialType huid
  show assertXcsTransactionSemantics P X (credentialDeletion input.account input.schemaUid
      (deletionParties input.account input.issuer input.subject)) profileInput
        = .ok (.credentialDelete (credentialDeletion input.account input.schemaUid
          (deletionParties input.account input.issuer input.subject)) input.schemaUid) ∧
      DenotesCredential (credentialDeletion input.account input.schemaUid
        (deletionParties input.account input.issuer input.subject)) input.issuer input.subject
        (toUpperCase input.schemaUid)
  by_cases hself : input.account = input.issuer
  · -- the issuer signs: the subject is named, also when it is the issuer
    have hparties : deletionParties input.account input.issuer input.subject
        = [(js "Subject", .str input.subject)] := by
      unfold deletionParties
      rw [if_neg (not_not.mpr hself)]
      by_cases hown : input.account = input.subject
      · rw [if_neg (not_not.mpr hown)]
        rfl
      · rw [if_pos hown]
        rfl
    rw [hparties]
    refine ⟨accepted_of_deletion hX hprofile huid ⟨rfl, ⟨_, rfl, ?_, ?_⟩, ?_⟩ ?_, ⟨?_, rfl, rfl⟩⟩
    · show [js "TransactionType", js "Account", js "CredentialType", js "Subject"].Nodup
      decide
    · show [js "TransactionType", js "Account", js "CredentialType", js "Subject"]
        ⊆ [js "TransactionType", js "Account", js "CredentialType", js "Issuer", js "Subject"]
      decide
    · simp only [credentialDeleteFields, List.forall_mem_cons, List.not_mem_nil, false_imp_iff,
        implies_true, and_true]
      exact ⟨Or.inr haccount, Or.inr htype, Or.inl rfl, Or.inr hsubject⟩
    · rintro ⟨-, hnone⟩
      cases hnone
    · rw [← hself]
      rfl
  · by_cases hown : input.account = input.subject
    · -- the subject signs: the issuer is named
      have hparties : deletionParties input.account input.issuer input.subject
          = [(js "Issuer", .str input.issuer)] := by
        unfold deletionParties
        rw [if_pos hself, if_neg (not_not.mpr hown)]
        rfl
      rw [hparties]
      refine ⟨accepted_of_deletion hX hprofile huid ⟨rfl, ⟨_, rfl, ?_, ?_⟩, ?_⟩ ?_,
        ⟨rfl, ?_, rfl⟩⟩
      · show [js "TransactionType", js "Account", js "CredentialType", js "Issuer"].Nodup
        decide
      · show [js "TransactionType", js "Account", js "CredentialType", js "Issuer"]
          ⊆ [js "TransactionType", js "Account", js "CredentialType", js "Issuer", js "Subject"]
        decide
      · simp only [credentialDeleteFields, List.forall_mem_cons, List.not_mem_nil, false_imp_iff,
          implies_true, and_true]
        exact ⟨Or.inr haccount, Or.inr htype, Or.inr hissuer, Or.inl rfl⟩
      · rintro ⟨hnone, -⟩
        cases hnone
      · rw [← hown]
        rfl
    · -- a third party signs: both are named
      have hparties : deletionParties input.account input.issuer input.subject
          = [(js "Issuer", .str input.issuer), (js "Subject", .str input.subject)] := by
        unfold deletionParties
        rw [if_pos hself, if_pos hown]
        rfl
      rw [hparties]
      refine ⟨accepted_of_deletion hX hprofile huid ⟨rfl, ⟨_, rfl, ?_, ?_⟩, ?_⟩ ?_,
        ⟨rfl, rfl, rfl⟩⟩
      · show [js "TransactionType", js "Account", js "CredentialType", js "Issuer",
          js "Subject"].Nodup
        decide
      · exact List.Subset.refl _
      · simp only [credentialDeleteFields, List.forall_mem_cons, List.not_mem_nil, false_imp_iff,
          implies_true, and_true]
        exact ⟨Or.inr haccount, Or.inr htype, Or.inr hissuer, Or.inr hsubject⟩
      · rintro ⟨hnone, -⟩
        cases hnone

/-- **What the client builds passes its own validation**, as the kind of transaction that was asked
for and with the same schema UID, and denotes the credential and the time that were asked for. -/
theorem builtTransactions_accepted (P : Platform) (X : XrplLibrary) (hP : EscapesFragments P)
    (hX : LibraryPromises P X) :
    (∀ input built, buildSchemaRegistrationPayment P X input = .ok built →
      assertXcsTransactionSemantics P X built.transaction input.profile
          = .ok (.schemaRegistration built.transaction) ∧
        CarriesSchema P built.transaction built.schema) ∧
    ∀ profileInput, (∃ profile, parseNetworkProfile P profileInput = .ok profile) →
      (∀ input transaction, buildCredentialCreate P X input = .ok transaction →
        assertXcsTransactionSemantics P X transaction profileInput
            = .ok (.credentialCreate transaction input.schemaUid) ∧
          DenotesCredential transaction input.issuer input.subject
            (toUpperCase input.schemaUid) ∧
          ∀ value ∈ input.expiration, DenotesTime (transaction.get (js "Expiration")) value) ∧
      (∀ input transaction, buildCredentialAccept P input = .ok transaction →
        assertXcsTransactionSemantics P X transaction profileInput
            = .ok (.credentialAccept transaction input.schemaUid) ∧
          DenotesCredential transaction input.issuer input.subject
            (toUpperCase input.schemaUid)) ∧
      ∀ input transaction, buildCredentialDelete P input = .ok transaction →
        assertXcsTransactionSemantics P X transaction profileInput
            = .ok (.credentialDelete transaction input.schemaUid) ∧
          DenotesCredential transaction input.issuer input.subject
            (toUpperCase input.schemaUid) := by
  refine ⟨fun input built h => accepted_buildSchemaRegistrationPayment hX h, ?_⟩
  intro profileInput hprofile
  exact ⟨fun input transaction h => accepted_buildCredentialCreate hP hX hprofile h,
    fun input transaction h => accepted_buildCredentialAccept hX hprofile h,
    fun input transaction h => accepted_buildCredentialDelete hX hprofile h⟩

/-! ## A sample of each -/

/-- A library that counts seconds, validates everything and encodes to nothing. -/
def countingLibrary : XrplLibrary where
  validate := fun _ => true
  encode := fun _ => some []
  isoTimeToRippleTime := fun value =>
    match isoSeconds value with
    | some seconds => .ofRat ((seconds - rippleEpoch : ℤ) : ℚ)
    | none => .nan

theorem libraryPromises_counting (P : Platform) : LibraryPromises P countingLibrary where
  validate := fun _ _ => rfl
  isoTimeToRippleTime := by
    intro value seconds _ hseconds _
    show (match isoSeconds value with
      | some seconds => JsNumber.ofRat ((seconds - rippleEpoch : ℤ) : ℚ)
      | none => .nan) = _
    rw [hseconds]

/-- The identifier of a content with a digest of zeros. -/
def zerosCid : JsString :=
  js "bafkrei" ++ List.replicate 52 0x61

/-- A platform that reads this identifier. -/
def zerosPlatform : Platform :=
  { Platform.sample with
    parseCid := fun text =>
      if text = zerosCid then
        some ⟨1, rawCode, sha256MultihashCode, 32, List.replicate 32 0, zerosCid⟩
      else none }

theorem escapesFragments_zeros : EscapesFragments zerosPlatform where
  host := by
    intro text url h
    cases h
  hash := by
    intro text u url h
    cases h

def sampleIssuer : JsString := js "rHb9CJAWyB4rj91VRWn96DkukG4bwdtyTh"

def sampleSubject : JsString := js "rPT1Sjq2YGrBMTttX4GZHjKu9dyfzbpAYe"

/-- The registration of a schema with one field. -/
def sampleRegistration : BuildSchemaRegistrationInput where
  publisher := sampleIssuer
  profile := profileJs Indexer.testnetProfile
  schema := .obj [(js "xcsVersion", .str (js "0.1")), (js "name", .str (js "a")),
    (js "description", .str (js "b")),
    (js "fields", .obj [(js "c", .obj [(js "type", .str (js "string"))])])]
  schema_distinctKeys := by decide

/-- A creation that expires. -/
def sampleCreation : BuildCredentialCreateInput where
  issuer := sampleIssuer
  subject := sampleSubject
  schemaUid := List.replicate 64 0x61
  uri := js "ipfs://" ++ zerosCid
  expiration := some (js "2030-01-01T00:00:00Z")

/-- A deletion by the issuer of a credential of its own. -/
def sampleDeletion : BuildCredentialDeleteInput where
  account := sampleIssuer
  issuer := sampleIssuer
  subject := sampleIssuer
  schemaUid := List.replicate 64 0x61

theorem parseNetworkProfile_testnet (P : Platform) (h : P.isValidClassicAddress
    Indexer.testnetProfile.registryAddress = true) :
    parseNetworkProfile P (profileJs Indexer.testnetProfile) = .ok Indexer.testnetProfile :=
  parseNetworkProfile_profileJs
    ⟨by decide, by decide, by decide, by decide, h, by decide, by decide, by decide⟩

theorem exists_sampleRegistration : ∃ built canonicalSchema,
    buildSchemaRegistrationPayment zerosPlatform countingLibrary sampleRegistration = .ok built ∧
      built.transaction
        = registrationPayment sampleIssuer canonicalSchema Indexer.testnetProfile ∧
      built.schema.parent = none ∧ built.schema.supersedes = none := by
  have hprofile := parseNetworkProfile_testnet zerosPlatform (by decide)
  have hschema : parseSchema sampleRegistration.schema
      = .ok ⟨js "a", js "b", [(js "c", .scalar .string false)], none, none⟩ := rfl
  have hencode : encodeSchema zerosPlatform
      (SchemaDefinition.toJs ⟨js "a", js "b", [(js "c", .scalar .string false)], none, none⟩)
        = .ok _ := rfl
  simp only [buildSchemaRegistrationPayment, bind_eq_ok, ofCore_eq_ok, assertClassicAddress_eq_ok,
    exists_const, pure_eq_ok']
  exact ⟨_, _, ⟨_, hprofile, ⟨sampleIssuer, rfl, by decide⟩, _, hschema, _, hencode, (), rfl, _,
    rfl, rfl⟩, rfl, rfl, rfl⟩

theorem parseCredentialExpiration_sample :
    parseCredentialExpiration countingLibrary (js "2030-01-01T00:00:00Z")
      = .ok (JsNumber.ofNat 946771200) := by
  have htime : countingLibrary.isoTimeToRippleTime (js "2030-01-01T00:00:00Z")
      = JsNumber.ofNat 946771200 := by
    have hseconds : isoSeconds (js "2030-01-01T00:00:00Z") = some 1893456000 := by decide +kernel
    show (match isoSeconds (js "2030-01-01T00:00:00Z") with
      | some seconds => JsNumber.ofRat ((seconds - rippleEpoch : ℤ) : ℚ)
      | none => .nan) = _
    rw [hseconds]
    rfl
  have huint : (JsNumber.ofNat 946771200).toUint32? = some 946771200 := by
    unfold JsNumber.toUint32?
    rw [JsNumber.toNat?_ofNat (by omega)]
    rfl
  unfold parseCredentialExpiration
  rw [if_neg (by decide +kernel), htime]
  dsimp only
  rw [huint]
  rfl

theorem exists_sampleCreation : ∃ transaction,
    buildCredentialCreate zerosPlatform countingLibrary sampleCreation = .ok transaction := by
  have hparse : parsePayloadUri zerosPlatform (js "ipfs://" ++ zerosCid)
      = .ok (.ipfs (js "ipfs://" ++ zerosCid) zerosCid (bytesToHex (List.replicate 32 0))) := rfl
  have huri : uriToCredentialHex zerosPlatform (js "ipfs://" ++ zerosCid)
      = .ok (encodeMemoField (js "ipfs://" ++ zerosCid)) :=
    uriToCredentialHex_eq_ok.mpr ⟨by decide, ⟨_, hparse⟩, rfl⟩
  have hexpiration : expirationMember countingLibrary sampleCreation.expiration
      = .ok [(js "Expiration", .num (JsNumber.ofNat 946771200))] := by
    show (parseCredentialExpiration countingLibrary (js "2030-01-01T00:00:00Z") >>= _) = _
    rw [parseCredentialExpiration_sample]
    rfl
  simp only [buildCredentialCreate, bind_eq_ok, assertClassicAddress_eq_ok, exists_const,
    schemaUidToCredentialType_eq_ok, pure_eq_ok']
  exact ⟨_, ⟨sampleIssuer, rfl, by decide⟩, ⟨sampleSubject, rfl, by decide⟩, _,
    ⟨by decide, rfl⟩, _, huri, _, hexpiration, rfl⟩

theorem exists_sampleDeletion : ∃ transaction,
    buildCredentialDelete zerosPlatform sampleDeletion = .ok transaction := by
  simp only [buildCredentialDelete, bind_eq_ok, assertClassicAddress_eq_ok, exists_const,
    schemaUidToCredentialType_eq_ok, pure_eq_ok']
  exact ⟨_, ⟨sampleIssuer, rfl, by decide⟩, ⟨sampleIssuer, rfl, by decide⟩,
    ⟨sampleIssuer, rfl, by decide⟩, _, ⟨by decide, rfl⟩, rfl⟩

/-- The result at a registration, at a creation that expires and at a deletion. -/
theorem builtTransactions_accepted_sample :
    (∃ built : BuiltSchemaRegistration, assertXcsTransactionSemantics zerosPlatform
        countingLibrary built.transaction (profileJs Indexer.testnetProfile)
          = .ok (.schemaRegistration built.transaction) ∧
      CarriesSchema zerosPlatform built.transaction built.schema) ∧
    (∃ transaction, assertXcsTransactionSemantics zerosPlatform countingLibrary transaction
        (profileJs Indexer.testnetProfile)
          = .ok (.credentialCreate transaction (List.replicate 64 0x61)) ∧
      DenotesTime (transaction.get (js "Expiration")) (js "2030-01-01T00:00:00Z")) ∧
    ∃ transaction, assertXcsTransactionSemantics zerosPlatform countingLibrary transaction
        (profileJs Indexer.testnetProfile)
          = .ok (.credentialDelete transaction (List.replicate 64 0x61)) ∧
      DenotesCredential transaction sampleIssuer sampleIssuer (List.replicate 64 0x41) := by
  obtain ⟨hregistration, hcredentials⟩ := builtTransactions_accepted zerosPlatform countingLibrary
    escapesFragments_zeros (libraryPromises_counting zerosPlatform)
  obtain ⟨hcreation, -, hdeletion⟩ := hcredentials (profileJs Indexer.testnetProfile)
    ⟨_, parseNetworkProfile_testnet zerosPlatform (by decide)⟩
  obtain ⟨built, _, hbuilt, -, -⟩ := exists_sampleRegistration
  obtain ⟨created, hcreated⟩ := exists_sampleCreation
  obtain ⟨deleted, hdeleted⟩ := exists_sampleDeletion
  obtain ⟨haccepted, -, htime⟩ := hcreation _ _ hcreated
  refine ⟨⟨built, hregistration _ _ hbuilt⟩, ⟨created, haccepted, htime _ rfl⟩, deleted, ?_⟩
  exact hdeletion _ _ hdeleted

end Sdk
end Xcs
