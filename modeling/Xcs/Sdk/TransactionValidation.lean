import Xcs.Core.Schema
import Xcs.Sdk.Encoding

/-!
# Transactions of the protocol

`assertXcsTransactionSemantics` is what a transaction has to pass before the client has it signed:
it is a schema registration, or the creation, acceptance or deletion of a credential, for the
network of the profile.  The ledger library validates the transaction first.

* `validateSchemaRegistration_eq_ok` and `validateCredentialCreate_eq_ok` say what is accepted.
-/

namespace Xcs
namespace Sdk

open Js Json Xcs.Core

/-- `PARTIAL_PAYMENT_FLAG` -/
def partialPaymentFlag : ℕ := 0x00020000

/-- `ValidatedXcsTransactionSemantics` -/
inductive ValidatedXcsTransactionSemantics where
  | schemaRegistration (transaction : JsValue)
  | credentialCreate (transaction : JsValue) (schemaUid : JsString)
  | credentialAccept (transaction : JsValue) (schemaUid : JsString)
  | credentialDelete (transaction : JsValue) (schemaUid : JsString)

namespace ValidatedXcsTransactionSemantics

/-- `kind` -/
def kind : ValidatedXcsTransactionSemantics → JsString
  | schemaRegistration _ => js "schema-registration"
  | credentialCreate .. => js "credential-create"
  | credentialAccept .. => js "credential-accept"
  | credentialDelete .. => js "credential-delete"

/-- `transactionType` -/
def transactionType : ValidatedXcsTransactionSemantics → JsString
  | schemaRegistration _ => js "Payment"
  | credentialCreate .. => js "CredentialCreate"
  | credentialAccept .. => js "CredentialAccept"
  | credentialDelete .. => js "CredentialDelete"

/-- `schemaUid` -/
def schemaUid : ValidatedXcsTransactionSemantics → Option JsString
  | schemaRegistration _ => none
  | credentialCreate _ uid => some uid
  | credentialAccept _ uid => some uid
  | credentialDelete _ uid => some uid

end ValidatedXcsTransactionSemantics

/-- `throw invalidTransaction(message)`; the `cause` of the error, which may be a text of another
package, is left out. -/
def invalidTransaction {α : Type} (message : JsString) : SdkResult α :=
  failSdk (js "XCS_SDK_INVALID_TRANSACTION") message []

/-- `if (condition) throw invalidTransaction(message)` -/
def rejectTransaction (condition : Bool) (message : JsString) : SdkResult Unit :=
  if condition then invalidTransaction message else .ok ()

/-- A field that is a string; `validate` has refused any other value. -/
def stringField (value : JsValue) : SdkResult JsString :=
  match value with
  | .str s => .ok s
  | _ => .error .other

/-! ## Schema registrations -/

/-- `hasPartialPaymentFlag` -/
def hasPartialPaymentFlag (flags : JsValue) : Bool :=
  match flags with
  | .num n => n.hasFlag partialPaymentFlag
  | flags => match flags.get (js "tfPartialPayment") with
    | .bool b => b
    | _ => false

/-- `decodeMemoField` of the validation, which keeps a byte order mark. -/
def decodeStrictMemoField (value : JsString) : SdkResult JsString :=
  match hexToBytes value with
  | none => .error .other
  | some bytes =>
      match decodeUtf8 bytes with
      | none => invalidTransaction (js "XCS memo fields must contain strict UTF-8.")
      | some text => .ok text

/-- `decodeOptionalMemoField` -/
def decodeOptionalMemoField (value : JsValue) : Option JsString :=
  match value with
  | .str s => (decodeStrictMemoField s).toOption
  | _ => none

/-- `transaction.Memos ?? []` -/
def memosOf (value : JsValue) : SdkResult (List JsValue) :=
  match value with
  | .undefined => .ok []
  | .null => .ok []
  | .arr entries => .ok entries
  | _ => .error .other

/-- `entry.Memo`, which is not `undefined` and not `null`. -/
def memoOf (entry : JsValue) : SdkResult JsValue :=
  if (entry.get (js "Memo")).isUndefined || (entry.get (js "Memo")).isNull then .error .other
  else .ok (entry.get (js "Memo"))

/-- The memos whose type is the one of a schema registration. -/
def selectXcsMemos : List JsValue → SdkResult (List JsValue)
  | [] => .ok []
  | entry :: entries => do
      let memo ← memoOf entry
      let memos ← selectXcsMemos entries
      pure (if decodeOptionalMemoField (memo.get (js "MemoType")) == some xcsSchemaMemoType then
        memo :: memos else memos)

/-- The body of the `try` of `validateSchemaRegistration`. -/
def checkMemoData (P : Platform) (X : XrplLibrary) (memoData : JsString) : SdkResult Unit := do
  let canonicalSchema ← decodeStrictMemoField memoData
  let _ ← ofCore (parseSchemaBytes P ((hexToBytes memoData).getD []))
  assertMemoFits X canonicalSchema

/-- The `catch` of `validateSchemaRegistration`. -/
def rethrowSdk (result : SdkResult Unit) : SdkResult Unit :=
  match result with
  | .ok u => .ok u
  | .error (.sdk code message details) => failSdk code message details
  | .error _ =>
      invalidTransaction (js "Schema registration memo contains an invalid XCS schema.")

/-- The checks of the only memo. -/
def checkMemo (P : Platform) (X : XrplLibrary) (memo : JsValue) : SdkResult Unit :=
  if decodeOptionalMemoField (memo.get (js "MemoFormat")) != some xcsSchemaMemoFormat then
    invalidTransaction (js "Schema registration memo format must be application/json.")
  else
    match memo.get (js "MemoData") with
    | .str memoData => rethrowSdk (checkMemoData P X memoData)
    | _ => invalidTransaction (js "Schema registration memo must contain JSON data.")

/-- The checks of the memos. -/
def checkXcsMemos (P : Platform) (X : XrplLibrary) (memos : List JsValue) : SdkResult Unit :=
  match memos with
  | [memo] => checkMemo P X memo
  | _ => invalidTransaction
      (js "Schema registration payment must contain exactly one XCS memo.")

/-- `validateSchemaRegistration` -/
def validateSchemaRegistration (P : Platform) (X : XrplLibrary) (transaction : JsValue)
    (profile : Indexer.NetworkProfile) : SdkResult ValidatedXcsTransactionSemantics := do
  assertClassicAddress P (transaction.get (js "Account")) (js "transaction.Account")
  rejectTransaction (!(transaction.get (js "Destination")).isStr profile.registryAddress
      || !(transaction.get (js "Amount")).isStr profile.registrationAmountDrops)
    (js "Schema registration payment does not match the network profile registry and amount.")
  rejectTransaction (!(transaction.get (js "Paths")).isUndefined
      || !(transaction.get (js "SendMax")).isUndefined
      || !(transaction.get (js "DeliverMin")).isUndefined)
    (js "Schema registration payment cannot use payment paths or slippage.")
  rejectTransaction (hasPartialPaymentFlag (transaction.get (js "Flags")))
    (js "Schema registration payment cannot enable tfPartialPayment.")
  let entries ← memosOf (transaction.get (js "Memos"))
  let xcsMemos ← selectXcsMemos entries
  checkXcsMemos P X xcsMemos
  pure (.schemaRegistration transaction)

/-! ## Credentials -/

/-- `isUint32` on a field. -/
def isUint32Field (value : JsValue) : Bool :=
  match value with
  | .num n => n.toUint32?.isSome
  | _ => false

/-- `validateCredentialCreate` -/
def validateCredentialCreate (P : Platform) (transaction : JsValue) :
    SdkResult ValidatedXcsTransactionSemantics := do
  assertClassicAddress P (transaction.get (js "Account")) (js "transaction.Account")
  assertClassicAddress P (transaction.get (js "Subject")) (js "transaction.Subject")
  let credentialType ← stringField (transaction.get (js "CredentialType"))
  let schemaUid ← credentialTypeToSchemaUid credentialType
  rejectTransaction (!(transaction.get (js "URI")).isString)
    (js "XCS CredentialCreate must contain an integrity-bound payload URI.")
  let uriHex ← stringField (transaction.get (js "URI"))
  let _ ← credentialHexToUri P uriHex
  rejectTransaction (!(transaction.get (js "Expiration")).isUndefined
      && !isUint32Field (transaction.get (js "Expiration")))
    (js "CredentialCreate Expiration must be a uint32 Ripple timestamp.")
  pure (.credentialCreate transaction schemaUid)

/-- `validateCredentialAccept` -/
def validateCredentialAccept (P : Platform) (transaction : JsValue) :
    SdkResult ValidatedXcsTransactionSemantics := do
  assertClassicAddress P (transaction.get (js "Account")) (js "transaction.Account")
  assertClassicAddress P (transaction.get (js "Issuer")) (js "transaction.Issuer")
  let credentialType ← stringField (transaction.get (js "CredentialType"))
  let schemaUid ← credentialTypeToSchemaUid credentialType
  pure (.credentialAccept transaction schemaUid)

/-- `if (address !== undefined) assertClassicAddress(address, field)` -/
def assertOptionalAddress (P : Platform) (address : JsValue) (field : JsString) :
    SdkResult Unit :=
  if address.isUndefined then .ok () else assertClassicAddress P address field

/-- `validateCredentialDelete` -/
def validateCredentialDelete (P : Platform) (transaction : JsValue) :
    SdkResult ValidatedXcsTransactionSemantics := do
  assertClassicAddress P (transaction.get (js "Account")) (js "transaction.Account")
  rejectTransaction ((transaction.get (js "Issuer")).isUndefined
      && (transaction.get (js "Subject")).isUndefined)
    (js "CredentialDelete must contain Issuer or Subject.")
  assertOptionalAddress P (transaction.get (js "Issuer")) (js "transaction.Issuer")
  assertOptionalAddress P (transaction.get (js "Subject")) (js "transaction.Subject")
  let credentialType ← stringField (transaction.get (js "CredentialType"))
  let schemaUid ← credentialTypeToSchemaUid credentialType
  pure (.credentialDelete transaction schemaUid)

/-- `assertXcsTransactionSemantics` -/
def assertXcsTransactionSemantics (P : Platform) (X : XrplLibrary)
    (transaction profileInput : JsValue) : SdkResult ValidatedXcsTransactionSemantics := do
  rejectTransaction (!X.validate transaction)
    (js "Transaction is not valid XRPL transaction JSON.")
  let profile ← parseNetworkProfile P profileInput
  if (transaction.get (js "TransactionType")).isStr (js "Payment") then
    validateSchemaRegistration P X transaction profile
  else if (transaction.get (js "TransactionType")).isStr (js "CredentialCreate") then
    validateCredentialCreate P transaction
  else if (transaction.get (js "TransactionType")).isStr (js "CredentialAccept") then
    validateCredentialAccept P transaction
  else if (transaction.get (js "TransactionType")).isStr (js "CredentialDelete") then
    validateCredentialDelete P transaction
  else invalidTransaction (js "Transaction type is not an XCS v0.1 operation.")

/-! ## What is accepted -/

variable {P : Platform} {X : XrplLibrary}

@[simp] theorem rejectTransaction_eq_ok {condition : Bool} {message : JsString} {u : Unit} :
    rejectTransaction condition message = .ok u ↔ condition = false := by
  unfold rejectTransaction
  cases condition with
  | true => exact iff_of_false (fun h => (by cases h)) (fun h => (by cases h))
  | false => exact iff_of_true rfl rfl

theorem stringField_eq_ok {value : JsValue} {s : JsString} :
    stringField value = .ok s ↔ value = .str s := by
  unfold stringField
  cases value with
  | str t =>
      rw [Except.ok.injEq, JsValue.str.injEq]
  | _ => exact iff_of_false (fun h => (by cases h)) (fun h => (by cases h))

theorem decodeStrictMemoField_eq_ok {value text : JsString} :
    decodeStrictMemoField value = .ok text ↔ (hexToBytes value).bind decodeUtf8 = some text := by
  unfold decodeStrictMemoField
  cases hexToBytes value with
  | none => exact iff_of_false (fun h => (by cases h)) (fun h => (by cases h))
  | some bytes =>
      rw [Option.bind_some]
      dsimp only
      cases decodeUtf8 bytes with
      | none => exact iff_of_false (fun h => (by cases h)) (fun h => (by cases h))
      | some s =>
          dsimp only
          rw [Except.ok.injEq, Option.some.injEq]

theorem decodeOptionalMemoField_str (s : JsString) :
    decodeOptionalMemoField (.str s) = (hexToBytes s).bind decodeUtf8 := by
  show (decodeStrictMemoField s).toOption = _
  cases hdecode : decodeStrictMemoField s with
  | ok text => exact (decodeStrictMemoField_eq_ok.mp hdecode).symm
  | error e =>
      cases hvalue : (hexToBytes s).bind decodeUtf8 with
      | none => rfl
      | some text =>
          rw [decodeStrictMemoField_eq_ok.mpr hvalue] at hdecode
          cases hdecode

theorem rethrowSdk_eq_ok {result : SdkResult Unit} {u : Unit} :
    rethrowSdk result = .ok u ↔ result = .ok () := by
  cases result with
  | ok v => exact iff_of_true rfl rfl
  | error e =>
      cases e with
      | _ => exact iff_of_false (fun h => (by cases h)) (fun h => (by cases h))

/-- What the data of a memo has to be: the canonical JSON of a definition that fits. -/
theorem checkMemoData_eq_ok {memoData : JsString} {u : Unit} :
    checkMemoData P X memoData = .ok u ↔
      ∃ bytes text definition, hexToBytes memoData = some bytes ∧ decodeUtf8 bytes = some text ∧
        parseSchemaBytes P bytes = .ok definition ∧ assertMemoFits X text = .ok () := by
  simp only [checkMemoData, bind_eq_ok, ofCore_eq_ok, decodeStrictMemoField_eq_ok,
    Option.bind_eq_some_iff]
  constructor
  · rintro ⟨text, ⟨bytes, hbytes, hdecode⟩, definition, hparse, hfits⟩
    rw [hbytes, Option.getD_some] at hparse
    exact ⟨bytes, text, definition, hbytes, hdecode, hparse, hfits⟩
  · rintro ⟨bytes, text, definition, hbytes, hdecode, hparse, hfits⟩
    refine ⟨text, ⟨bytes, hbytes, hdecode⟩, definition, ?_, hfits⟩
    rwa [hbytes, Option.getD_some]

/-- What the only memo has to be. -/
theorem checkMemo_eq_ok {memo : JsValue} {u : Unit} : checkMemo P X memo = .ok u ↔
    decodeOptionalMemoField (memo.get (js "MemoFormat")) = some xcsSchemaMemoFormat ∧
      ∃ memoData, memo.get (js "MemoData") = .str memoData ∧
        checkMemoData P X memoData = .ok () := by
  unfold checkMemo
  by_cases hformat :
      decodeOptionalMemoField (memo.get (js "MemoFormat")) = some xcsSchemaMemoFormat
  · rw [hformat, bne_self_eq_false]
    simp only [Bool.false_eq_true, if_false, true_and]
    cases memo.get (js "MemoData") with
    | str memoData =>
        simp only [rethrowSdk_eq_ok, JsValue.str.injEq, exists_eq_left']
    | _ =>
        refine iff_of_false (fun h => (by cases h)) ?_
        rintro ⟨_, h, -⟩
        cases h
  · rw [if_pos (bne_iff_ne.mpr hformat)]
    exact iff_of_false (fun h => (by cases h)) (fun h => hformat h.1)

theorem checkXcsMemos_eq_ok {memos : List JsValue} {u : Unit} :
    checkXcsMemos P X memos = .ok u ↔ ∃ memo, memos = [memo] ∧ checkMemo P X memo = .ok () := by
  match memos with
  | [] =>
      refine iff_of_false (fun h => (by cases h)) ?_
      rintro ⟨_, h, -⟩
      cases h
  | [memo] =>
      simp only [checkXcsMemos, List.cons.injEq, and_true, exists_eq_left']
  | _ :: _ :: _ =>
      refine iff_of_false (fun h => (by cases h)) ?_
      rintro ⟨_, h, -⟩
      cases h

/-- A schema registration: a payment of the amount to the registry, in full and without paths, whose
only memo of the type carries a definition. -/
structure IsSchemaRegistration (P : Platform) (X : XrplLibrary) (transaction : JsValue)
    (profile : Indexer.NetworkProfile) : Prop where
  account : ∃ s, transaction.get (js "Account") = .str s ∧ P.isValidClassicAddress s = true
  destination : transaction.get (js "Destination") = .str profile.registryAddress
  amount : transaction.get (js "Amount") = .str profile.registrationAmountDrops
  paths : transaction.get (js "Paths") = .undefined
  sendMax : transaction.get (js "SendMax") = .undefined
  deliverMin : transaction.get (js "DeliverMin") = .undefined
  full : hasPartialPaymentFlag (transaction.get (js "Flags")) = false
  memo : ∃ entries memo, memosOf (transaction.get (js "Memos")) = .ok entries ∧
    selectXcsMemos entries = .ok [memo] ∧ checkMemo P X memo = .ok ()

theorem validateSchemaRegistration_eq_ok {transaction : JsValue}
    {profile : Indexer.NetworkProfile} {result : ValidatedXcsTransactionSemantics} :
    validateSchemaRegistration P X transaction profile = .ok result ↔
      IsSchemaRegistration P X transaction profile ∧
        result = .schemaRegistration transaction := by
  simp only [validateSchemaRegistration, bind_eq_ok, assertClassicAddress_eq_ok,
    rejectTransaction_eq_ok, exists_const, Bool.or_eq_false_iff, Bool.not_eq_false',
    JsValue.isStr_iff, JsValue.isUndefined_iff, checkXcsMemos_eq_ok, pure_eq_ok']
  constructor
  · rintro ⟨haccount, ⟨hdestination, hamount⟩, ⟨⟨hpaths, hsendMax⟩, hdeliverMin⟩, hfull, entries,
      hentries, memos, hmemos, ⟨memo, rfl, hmemo⟩, rfl⟩
    exact ⟨⟨haccount, hdestination, hamount, hpaths, hsendMax, hdeliverMin, hfull,
      entries, memo, hentries, hmemos, hmemo⟩, rfl⟩
  · rintro ⟨⟨haccount, hdestination, hamount, hpaths, hsendMax, hdeliverMin, hfull,
      entries, memo, hentries, hmemos, hmemo⟩, rfl⟩
    exact ⟨haccount, ⟨hdestination, hamount⟩, ⟨⟨hpaths, hsendMax⟩, hdeliverMin⟩, hfull, entries,
      hentries, _, hmemos, ⟨memo, rfl, hmemo⟩, rfl⟩

/-- A credential creation: two addresses, a schema UID, an acceptable URI and perhaps a time. -/
structure IsCredentialCreate (P : Platform) (transaction : JsValue) (schemaUid : JsString) :
    Prop where
  account : ∃ s, transaction.get (js "Account") = .str s ∧ P.isValidClassicAddress s = true
  subject : ∃ s, transaction.get (js "Subject") = .str s ∧ P.isValidClassicAddress s = true
  credentialType : ∃ s, transaction.get (js "CredentialType") = .str s ∧ isHash s = true ∧
    schemaUid = toLowerCase s
  uri : ∃ uriHex uri, transaction.get (js "URI") = .str uriHex ∧
    credentialHexToUri P uriHex = .ok uri
  expiration : (transaction.get (js "Expiration")).isUndefined = true ∨
    isUint32Field (transaction.get (js "Expiration")) = true

theorem validateCredentialCreate_eq_ok {transaction : JsValue}
    {result : ValidatedXcsTransactionSemantics} :
    validateCredentialCreate P transaction = .ok result ↔
      ∃ schemaUid, IsCredentialCreate P transaction schemaUid ∧
        result = .credentialCreate transaction schemaUid := by
  simp only [validateCredentialCreate, bind_eq_ok, assertClassicAddress_eq_ok,
    rejectTransaction_eq_ok, exists_const, stringField_eq_ok, credentialTypeToSchemaUid_eq_ok,
    Bool.and_eq_false_iff, Bool.not_eq_false', pure_eq_ok']
  constructor
  · rintro ⟨haccount, hsubject, credentialType, htype, schemaUid, ⟨hhash, rfl⟩, -, uriHex, huri,
      uri, hdecode, hexpiration, rfl⟩
    exact ⟨_, ⟨haccount, hsubject, ⟨credentialType, htype, hhash, rfl⟩,
      ⟨uriHex, uri, huri, hdecode⟩,
      hexpiration⟩, rfl⟩
  · rintro ⟨schemaUid, ⟨haccount, hsubject, ⟨credentialType, htype, hhash, rfl⟩,
      ⟨uriHex, uri, huri, hdecode⟩, hexpiration⟩, rfl⟩
    refine ⟨haccount, hsubject, credentialType, htype, _, ⟨hhash, rfl⟩, ?_, uriHex, huri, uri,
      hdecode, hexpiration, rfl⟩
    rw [huri]
    rfl

/-- What an accepted transaction passed: the validation of the library, and the checks of its type.
-/
theorem assertXcsTransactionSemantics_eq_ok {transaction profileInput : JsValue}
    {result : ValidatedXcsTransactionSemantics} :
    assertXcsTransactionSemantics P X transaction profileInput = .ok result ↔
      X.validate transaction = true ∧
        ∃ profile, parseNetworkProfile P profileInput = .ok profile ∧
          (transaction.get (js "TransactionType") = .str (js "Payment") ∧
              validateSchemaRegistration P X transaction profile = .ok result ∨
            transaction.get (js "TransactionType") = .str (js "CredentialCreate") ∧
              validateCredentialCreate P transaction = .ok result ∨
            transaction.get (js "TransactionType") = .str (js "CredentialAccept") ∧
              validateCredentialAccept P transaction = .ok result ∨
            transaction.get (js "TransactionType") = .str (js "CredentialDelete") ∧
              validateCredentialDelete P transaction = .ok result) := by
  simp only [assertXcsTransactionSemantics, bind_eq_ok, rejectTransaction_eq_ok, exists_const,
    Bool.not_eq_false']
  refine and_congr_right fun _ => exists_congr fun profile => and_congr_right fun _ => ?_
  constructor
  · intro h
    split_ifs at h with hpayment hcreate haccept hdelete
    · exact Or.inl ⟨JsValue.isStr_iff.mp hpayment, h⟩
    · exact Or.inr (Or.inl ⟨JsValue.isStr_iff.mp hcreate, h⟩)
    · exact Or.inr (Or.inr (Or.inl ⟨JsValue.isStr_iff.mp haccept, h⟩))
    · exact Or.inr (Or.inr (Or.inr ⟨JsValue.isStr_iff.mp hdelete, h⟩))
    · cases h
  · rintro (⟨htype, h⟩ | ⟨htype, h⟩ | ⟨htype, h⟩ | ⟨htype, h⟩)
    · rwa [if_pos (JsValue.isStr_iff.mpr htype)]
    · rwa [htype, if_neg (by decide), if_pos (by decide)]
    · rwa [htype, if_neg (by decide), if_neg (by decide), if_pos (by decide)]
    · rwa [htype, if_neg (by decide), if_neg (by decide), if_neg (by decide), if_pos (by decide)]

theorem validateCredentialAccept_eq_ok {transaction : JsValue}
    {result : ValidatedXcsTransactionSemantics} :
    validateCredentialAccept P transaction = .ok result ↔
      (∃ s, transaction.get (js "Account") = .str s ∧ P.isValidClassicAddress s = true) ∧
        (∃ s, transaction.get (js "Issuer") = .str s ∧ P.isValidClassicAddress s = true) ∧
        ∃ credentialType, transaction.get (js "CredentialType") = .str credentialType ∧
          isHash credentialType = true ∧
            result = .credentialAccept transaction (toLowerCase credentialType) := by
  simp only [validateCredentialAccept, bind_eq_ok, assertClassicAddress_eq_ok, exists_const,
    stringField_eq_ok, credentialTypeToSchemaUid_eq_ok, pure_eq_ok']
  constructor
  · rintro ⟨haccount, hissuer, credentialType, htype, _, ⟨hhash, rfl⟩, rfl⟩
    exact ⟨haccount, hissuer, credentialType, htype, hhash, rfl⟩
  · rintro ⟨haccount, hissuer, credentialType, htype, hhash, rfl⟩
    exact ⟨haccount, hissuer, credentialType, htype, _, ⟨hhash, rfl⟩, rfl⟩

theorem assertOptionalAddress_eq_ok {address : JsValue} {field : JsString} {u : Unit} :
    assertOptionalAddress P address field = .ok u ↔ address = .undefined ∨
      ∃ s, address = .str s ∧ P.isValidClassicAddress s = true := by
  unfold assertOptionalAddress
  by_cases h : address.isUndefined = true
  · rw [if_pos h]
    exact iff_of_true rfl (Or.inl (JsValue.isUndefined_iff.mp h))
  · rw [if_neg h, assertClassicAddress_eq_ok]
    rw [JsValue.isUndefined_iff] at h
    exact (or_iff_right h).symm

theorem validateCredentialDelete_eq_ok {transaction : JsValue}
    {result : ValidatedXcsTransactionSemantics} :
    validateCredentialDelete P transaction = .ok result ↔
      (∃ s, transaction.get (js "Account") = .str s ∧ P.isValidClassicAddress s = true) ∧
        ¬(transaction.get (js "Issuer") = .undefined ∧
          transaction.get (js "Subject") = .undefined) ∧
        (transaction.get (js "Issuer") = .undefined ∨
          ∃ s, transaction.get (js "Issuer") = .str s ∧ P.isValidClassicAddress s = true) ∧
        (transaction.get (js "Subject") = .undefined ∨
          ∃ s, transaction.get (js "Subject") = .str s ∧ P.isValidClassicAddress s = true) ∧
        ∃ credentialType, transaction.get (js "CredentialType") = .str credentialType ∧
          isHash credentialType = true ∧
            result = .credentialDelete transaction (toLowerCase credentialType) := by
  simp only [validateCredentialDelete, bind_eq_ok, assertClassicAddress_eq_ok, exists_const,
    rejectTransaction_eq_ok, assertOptionalAddress_eq_ok, stringField_eq_ok,
    credentialTypeToSchemaUid_eq_ok, pure_eq_ok']
  rw [← JsValue.isUndefined_iff, ← JsValue.isUndefined_iff, ← Bool.and_eq_true,
    Bool.not_eq_true]
  constructor
  · rintro ⟨haccount, hboth, hissuer, hsubject, credentialType, htype, _, ⟨hhash, rfl⟩, rfl⟩
    exact ⟨haccount, hboth, hissuer, hsubject, credentialType, htype, hhash, rfl⟩
  · rintro ⟨haccount, hboth, hissuer, hsubject, credentialType, htype, hhash, rfl⟩
    exact ⟨haccount, hboth, hissuer, hsubject, credentialType, htype, _, ⟨hhash, rfl⟩, rfl⟩

/-- A transaction accepted as a credential creation is one. -/
theorem isCredentialCreate_of_accepted {transaction profileInput tx : JsValue}
    {schemaUid : JsString} (h : assertXcsTransactionSemantics P X transaction profileInput
      = .ok (.credentialCreate tx schemaUid)) : IsCredentialCreate P transaction schemaUid := by
  obtain ⟨-, profile, -, hcases⟩ := assertXcsTransactionSemantics_eq_ok.mp h
  rcases hcases with ⟨-, h⟩ | ⟨-, h⟩ | ⟨-, h⟩ | ⟨-, h⟩
  · cases (validateSchemaRegistration_eq_ok.mp h).2
  · obtain ⟨uid, hcreate, hresult⟩ := validateCredentialCreate_eq_ok.mp h
    cases hresult
    exact hcreate
  · obtain ⟨-, -, _, -, -, hresult⟩ := validateCredentialAccept_eq_ok.mp h
    cases hresult
  · obtain ⟨-, -, -, -, _, -, -, hresult⟩ := validateCredentialDelete_eq_ok.mp h
    cases hresult

/-- A transaction accepted as a schema registration is one, for the profile. -/
theorem isSchemaRegistration_of_accepted {transaction profileInput tx : JsValue}
    (h : assertXcsTransactionSemantics P X transaction profileInput
      = .ok (.schemaRegistration tx)) :
    ∃ profile, parseNetworkProfile P profileInput = .ok profile ∧
      transaction.get (js "TransactionType") = .str (js "Payment") ∧
        IsSchemaRegistration P X transaction profile := by
  obtain ⟨-, profile, hprofile, hcases⟩ := assertXcsTransactionSemantics_eq_ok.mp h
  rcases hcases with ⟨htype, h⟩ | ⟨-, h⟩ | ⟨-, h⟩ | ⟨-, h⟩
  · exact ⟨profile, hprofile, htype, (validateSchemaRegistration_eq_ok.mp h).1⟩
  · obtain ⟨_, -, hresult⟩ := validateCredentialCreate_eq_ok.mp h
    cases hresult
  · obtain ⟨-, -, _, -, -, hresult⟩ := validateCredentialAccept_eq_ok.mp h
    cases hresult
  · obtain ⟨-, -, -, -, _, -, -, hresult⟩ := validateCredentialDelete_eq_ok.mp h
    cases hresult

end Sdk
end Xcs
