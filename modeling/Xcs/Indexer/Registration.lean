import Xcs.Indexer.Types

/-!
# Schema registrations

A schema is registered by a payment of one drop to the registry whose memo is the canonical JSON of
the definition.  `extractRegistrationEnvelope` decides whether a transaction is such a payment and
decodes its memo, and `interpretSchemaRegistration` parses, resolves and names the schema.  A
registration that fails is recorded with the reason, and with the memo as far as it could be parsed.

* `interpretEnvelope_accepted` and `interpretEnvelope_memoJson` say what an accepted registration
  consists of, and which memo a registration records.
* `interpretEnvelope_of_canonical` says that nothing but the resolution decides about a canonical
  memo.
-/

namespace Xcs
namespace Indexer

open Js Json Xcs.Core

/-! ## The envelope -/

/-- `PARTIAL_PAYMENT_FLAG` -/
def partialPaymentFlag : ℕ := 0x00020000

/-- `hasExactRegistrationAmount` -/
def hasExactRegistrationAmount (transaction : JsValue) (expectedAmount : JsString) : Bool :=
  let aliases := [transaction.get (js "Amount"), transaction.get (js "DeliverMax")].filter
    fun value => !value.isUndefined
  !aliases.isEmpty && aliases.all fun value => value.isStr expectedAmount

/-- `RegistrationEnvelope` -/
structure RegistrationEnvelope where
  publisher : JsString
  jsonText : JsString
  deriving DecidableEq

/-- `EnvelopeResult` -/
inductive EnvelopeResult where
  | notRegistration
  | candidate (envelope : RegistrationEnvelope)
  | rejected (publisher reasonCode : JsString)
  deriving DecidableEq

/-- `decodeHexUtf8` of the registration module. -/
def decodeHexUtf8 (value : JsValue) : Option JsString :=
  match value with
  | .str s =>
      if s.isEmpty || s.length % 2 != 0 || !s.all isHexDigit then none
      else (hexToBytes s).bind decodeUtf8
  | _ => none

/-- `memoFields` -/
def memoFields (value : JsValue) : JsValue :=
  if value.isObject && (value.get (js "Memo")).isObject then value.get (js "Memo") else .undefined

/-- `typeof value === 'string' ? value : ''` -/
def stringOrEmpty : JsValue → JsString
  | .str s => s
  | _ => []

/-- `Array.isArray(value) ? value : []` -/
def arrayOrEmpty : JsValue → List JsValue
  | .arr items => items
  | _ => []

/-- `((typeof tx.Flags === 'number' ? tx.Flags : 0) & PARTIAL_PAYMENT_FLAG) === 0` -/
def isFullPayment (flags : JsValue) : Bool :=
  match flags with
  | .num n => !n.hasFlag partialPaymentFlag
  | _ => true

/-- `exactPayment` -/
def isExactPayment (tx metadata : JsValue) (profile : NetworkProfile) : Bool :=
  (tx.get (js "TransactionType")).isStr (js "Payment")
    && (metadata.get (js "TransactionResult")).isStr (js "tesSUCCESS")
    && (tx.get (js "Destination")).isStr profile.registryAddress
    && hasExactRegistrationAmount tx profile.registrationAmountDrops
    && (tx.get (js "Paths")).isUndefined
    && (tx.get (js "SendMax")).isUndefined
    && (tx.get (js "DeliverMin")).isUndefined
    && isFullPayment (tx.get (js "Flags"))

/-- The memos of a transaction whose type is `xcs:schema_register`. -/
def xcsMemos (tx : JsValue) : List JsValue :=
  (arrayOrEmpty (tx.get (js "Memos"))).filter fun entry =>
    decodeHexUtf8 ((memoFields entry).get (js "MemoType")) == some (js "xcs:schema_register")

/-- `extractRegistrationEnvelope` -/
def extractRegistrationEnvelope (transaction : LedgerTransaction) (profile : NetworkProfile) :
    EnvelopeResult :=
  let tx := transaction.transaction
  let publisher := stringOrEmpty (tx.get (js "Account"))
  match xcsMemos tx with
  | [] => .notRegistration
  | entry :: others =>
      if !isExactPayment tx transaction.metadata profile then .notRegistration
      else if publisher.isEmpty then .rejected publisher (js "REGISTRATION_ACCOUNT_INVALID")
      else if !others.isEmpty then .rejected publisher (js "REGISTRATION_MEMO_COUNT")
      else
        let memo := memoFields entry
        if decodeHexUtf8 (memo.get (js "MemoFormat")) ≠ some (js "application/json") then
          .rejected publisher (js "REGISTRATION_MEMO_FORMAT")
        else
          match decodeHexUtf8 (memo.get (js "MemoData")) with
          | none => .rejected publisher (js "REGISTRATION_MEMO_DATA")
          | some jsonText => .candidate { publisher, jsonText }

/-! ## The interpretation -/

/-- The reason code of what a registration threw. -/
def registrationReason : Thrown → JsString
  | .xcs error => error.code.text
  | .syntaxError => js "JSON_INVALID"
  | _ => js "REGISTRATION_INVALID"

/-- The body of the `try` after the memo is parsed; `none` where the memo is not canonical. -/
def acceptRegistration (P : Platform) (transactionIndex : ℕ) (ledgerHash : JsString)
    (ledgerIndex networkId : ℕ) (envelope : RegistrationEnvelope) (catalog : SchemaLookup)
    (parsed : JsValue) : Except Thrown (Option RegistrationOutcome) := do
  let canonical ← canonicalJson P parsed
  if canonical ≠ envelope.jsonText then .ok none
  else do
    let definition ← parseSchema parsed
    let coordinates : SchemaCoordinates :=
      { networkId, publisher := envelope.publisher, ledgerIndex, transactionIndex }
    let resolved ← resolveSchema P definition.toJs
      { toSchemaCoordinates := coordinates, getSchema := catalog }
    let schemaUid ← computeSchemaUid P
      { toSchemaCoordinates := coordinates, ledgerHash, schema := definition }
    pure (some (.accepted schemaUid parsed definition resolved))

/-- The outcome of a registration whose memo is decoded. -/
def interpretEnvelope (P : Platform) (transactionIndex : ℕ) (ledgerHash : JsString)
    (ledgerIndex networkId : ℕ) (envelope : RegistrationEnvelope) (catalog : SchemaLookup) :
    RegistrationOutcome :=
  match parseJson envelope.jsonText with
  | .error error => .rejected (registrationReason error) none
  | .ok parsed =>
      match acceptRegistration P transactionIndex ledgerHash ledgerIndex networkId envelope
          catalog parsed with
      | .error error => .rejected (registrationReason error) (some parsed)
      | .ok none => .rejected (js "REGISTRATION_NOT_CANONICAL") (some parsed)
      | .ok (some outcome) => outcome

/-- `interpretSchemaRegistration` -/
def interpretSchemaRegistration (P : Platform) (transaction : LedgerTransaction)
    (ledgerHash : JsString) (ledgerIndex : ℕ) (profile : NetworkProfile)
    (catalog : SchemaLookup) : Option SchemaRegistrationResult :=
  match extractRegistrationEnvelope transaction profile with
  | .notRegistration => none
  | .rejected publisher reasonCode =>
      some { transactionHash := transaction.hash
             transactionIndex := transaction.transactionIndex
             publisher
             outcome := .rejected reasonCode none }
  | .candidate envelope =>
      some { transactionHash := transaction.hash
             transactionIndex := transaction.transactionIndex
             publisher := envelope.publisher
             outcome := interpretEnvelope P transaction.transactionIndex ledgerHash ledgerIndex
               profile.networkId envelope catalog }

/-! ## What a registration records -/

/-- The memo a registration records, when it records one. -/
def RegistrationOutcome.memoJson : RegistrationOutcome → Option JsValue
  | .accepted _ memoJson _ _ => some memoJson
  | .rejected _ memoJson => memoJson

/-- The UID of a registration that was accepted. -/
def SchemaRegistrationResult.schemaUid (registration : SchemaRegistrationResult) :
    Option JsString :=
  match registration.outcome with
  | .accepted schemaUid _ _ _ => some schemaUid
  | .rejected _ _ => none

theorem SchemaRegistrationResult.schemaUid_eq {registration : SchemaRegistrationResult}
    {schemaUid : JsString} {memoJson : JsValue} {definition : SchemaDefinition}
    {resolved : ResolvedSchema}
    (h : registration.outcome = .accepted schemaUid memoJson definition resolved) :
    registration.schemaUid = some schemaUid := by
  rw [SchemaRegistrationResult.schemaUid, h]

/-- An accepted registration: a canonical memo, its definition, resolution and UID. -/
structure Accepts (P : Platform) (transactionIndex : ℕ) (ledgerHash : JsString)
    (ledgerIndex networkId : ℕ) (envelope : RegistrationEnvelope) (catalog : SchemaLookup)
    (schemaUid : JsString) (memoJson : JsValue) (definition : SchemaDefinition)
    (resolved : ResolvedSchema) : Prop where
  parsed : parseJson envelope.jsonText = .ok memoJson
  canonical : canonicalJson P memoJson = .ok envelope.jsonText
  defined : parseSchema memoJson = .ok definition
  resolves : resolveSchema P definition.toJs
    { networkId, publisher := envelope.publisher, ledgerIndex, transactionIndex,
      getSchema := catalog } = .ok resolved
  named : computeSchemaUid P
    { networkId, publisher := envelope.publisher, ledgerIndex, transactionIndex, ledgerHash,
      schema := definition } = .ok schemaUid

section Interpretation

variable {P : Platform} {transactionIndex : ℕ} {ledgerHash : JsString} {ledgerIndex networkId : ℕ}
  {envelope : RegistrationEnvelope} {catalog : SchemaLookup}

/-- What the interpretation accepts. -/
theorem interpretEnvelope_accepted {schemaUid : JsString} {memoJson : JsValue}
    {definition : SchemaDefinition} {resolved : ResolvedSchema} :
    interpretEnvelope P transactionIndex ledgerHash ledgerIndex networkId envelope catalog
        = .accepted schemaUid memoJson definition resolved ↔
      Accepts P transactionIndex ledgerHash ledgerIndex networkId envelope catalog schemaUid
        memoJson definition resolved := by
  rw [interpretEnvelope]
  constructor
  · intro h
    split at h
    · cases h
    · rename_i parsed hparse
      split at h
      · cases h
      · cases h
      · rename_i outcome haccept
        subst h
        simp only [acceptRegistration, bind_eq_ok] at haccept
        obtain ⟨canonical, hcanonical, haccept⟩ := haccept
        split_ifs at haccept with hne
        · cases haccept
        · simp only [bind_eq_ok, pure_eq_ok, Option.some.injEq,
            RegistrationOutcome.accepted.injEq] at haccept
          obtain ⟨definition, hdefinition, resolved, hresolved, uid, huid, rfl, rfl, rfl, rfl⟩ :=
            haccept
          rw [not_not] at hne
          subst hne
          exact ⟨hparse, hcanonical, hdefinition, hresolved, huid⟩
  · rintro ⟨hparse, hcanonical, hdefinition, hresolved, huid⟩
    rw [hparse]
    dsimp only
    have haccept : acceptRegistration P transactionIndex ledgerHash ledgerIndex networkId envelope
        catalog memoJson = .ok (some (.accepted schemaUid memoJson definition resolved)) := by
      simp only [acceptRegistration, bind_eq_ok]
      refine ⟨_, hcanonical, ?_⟩
      rw [if_neg (not_not.mpr rfl)]
      simp only [bind_eq_ok, pure_eq_ok]
      exact ⟨definition, hdefinition, resolved, hresolved, schemaUid, huid, rfl⟩
    rw [haccept]

/-- What `acceptRegistration` accepts is recorded with the memo it was given. -/
theorem exists_accepted_of_acceptRegistration {parsed : JsValue} {outcome : RegistrationOutcome}
    (h : acceptRegistration P transactionIndex ledgerHash ledgerIndex networkId envelope catalog
      parsed = .ok (some outcome)) :
    ∃ schemaUid definition resolved, outcome = .accepted schemaUid parsed definition resolved := by
  simp only [acceptRegistration, bind_eq_ok] at h
  obtain ⟨canonical, -, h⟩ := h
  split_ifs at h
  · cases h
  · simp only [bind_eq_ok, pure_eq_ok, Option.some.injEq] at h
    obtain ⟨definition, -, resolved, -, schemaUid, -, rfl⟩ := h
    exact ⟨schemaUid, definition, resolved, rfl⟩

/-- Accepted or rejected, a registration records exactly the memo that could be parsed. -/
theorem interpretEnvelope_memoJson {memoJson : JsValue} :
    (interpretEnvelope P transactionIndex ledgerHash ledgerIndex networkId envelope
        catalog).memoJson = some memoJson ↔ parseJson envelope.jsonText = .ok memoJson := by
  rw [interpretEnvelope]
  cases hparse : parseJson envelope.jsonText with
  | error error => simp [RegistrationOutcome.memoJson]
  | ok parsed =>
      rw [Except.ok.injEq]
      dsimp only
      split
      · simp [RegistrationOutcome.memoJson]
      · simp [RegistrationOutcome.memoJson]
      · rename_i outcome haccept
        obtain ⟨_, _, _, rfl⟩ := exists_accepted_of_acceptRegistration haccept
        rw [RegistrationOutcome.memoJson, Option.some.injEq]

/-- The outcome of a canonical memo with a definition and a UID, by what its resolution gives. -/
def outcomeOfResolution (schemaUid : JsString) (memoJson : JsValue)
    (definition : SchemaDefinition) :
    Except Thrown ResolvedSchema → RegistrationOutcome
  | .ok resolved => .accepted schemaUid memoJson definition resolved
  | .error error => .rejected (registrationReason error) (some memoJson)

/-- **A canonical memo with a definition and a UID** is accepted when the definition resolves, and
rejected for what the resolution threw when it does not. -/
theorem interpretEnvelope_of_canonical {memoJson : JsValue} {definition : SchemaDefinition}
    {schemaUid : JsString} (hparse : parseJson envelope.jsonText = .ok memoJson)
    (hcanonical : canonicalJson P memoJson = .ok envelope.jsonText)
    (hdefinition : parseSchema memoJson = .ok definition)
    (huid : computeSchemaUid P
      { networkId, publisher := envelope.publisher, ledgerIndex, transactionIndex, ledgerHash,
        schema := definition } = .ok schemaUid) :
    interpretEnvelope P transactionIndex ledgerHash ledgerIndex networkId envelope catalog =
      outcomeOfResolution schemaUid memoJson definition (resolveSchema P definition.toJs
        { networkId, publisher := envelope.publisher, ledgerIndex, transactionIndex,
          getSchema := catalog }) := by
  cases hresolve : resolveSchema P definition.toJs
      { networkId, publisher := envelope.publisher, ledgerIndex, transactionIndex,
        getSchema := catalog } with
  | ok resolved =>
      exact interpretEnvelope_accepted.mpr ⟨hparse, hcanonical, hdefinition, hresolve, huid⟩
  | error error =>
      have haccept : acceptRegistration P transactionIndex ledgerHash ledgerIndex networkId
          envelope catalog memoJson = .error error := by
        unfold acceptRegistration
        rw [hcanonical]
        show (if envelope.jsonText ≠ envelope.jsonText then _ else _) = _
        rw [if_neg (not_not.mpr rfl), hdefinition]
        show (resolveSchema P definition.toJs _ >>= _) = _
        rw [hresolve]
        rfl
      unfold interpretEnvelope
      rw [hparse]
      dsimp only
      rw [haccept]
      rfl

end Interpretation

end Indexer
end Xcs
