import Xcs.Run.Program
import Xcs.Sdk.Submission

/-!
# Reliable submission

`signPreparedAndSubmit` has a reviewed transaction signed and submits it.  Everything it awaits may
fail or be answered by something hostile: the signer, the journal, the hooks of the host and the
server.  So the flow is a `Program` whose calls are what it awaits, and a statement about all its
runs is a statement about every behaviour of the others.

The polling loop ends at a deadline that a clock tells, and nothing is said about the clock; so the
loop is given a number of turns, and is stopped when they are used up.
-/

namespace Xcs
namespace Sdk

open Js

/-! ## The environment -/

/-- The functions of `xrpl` on transactions; an error is what the function throws. -/
structure Xrpl where
  /-- `decode` -/
  decode : JsString → Except RpcError Members
  /-- `encode` -/
  encode : Members → Except RpcError JsString
  /-- `hashes.hashSignedTx` -/
  hashSignedTx : JsString → Except RpcError JsString
  /-- `verifySignature` -/
  verifySignature : JsString → Except RpcError Bool

/-- `SignerResult` -/
structure SignerResult where
  hash : JsString
  txBlob : JsString

/-- `ValidatedSignature` -/
structure ValidatedSignature where
  operationId : JsString
  transaction : Members
  txBlob : JsString
  txHash : JsString
  lastLedgerSequence : Option ℕ

/-- `ReliableSubmissionOptions`; of the two hooks it says whether they are given. -/
structure ReliableSubmissionOptions where
  operationId : Option JsString
  failHard : Option Bool
  pollIntervalMs : Option ℕ
  timeoutMs : Option ℕ
  allowSignerLastLedgerSequenceRefresh : Option Bool
  onValidatedSignature : Bool
  beforeSubmit : Bool

/-- `ReliableSubmissionResult` -/
structure ReliableSubmissionResult extends TransactionStatus where
  operationId : JsString
  submitEngineResult : Option JsString

/-- What the flow awaits or asks of its environment. -/
inductive SdkCall where
  | isConnected
  | autofill (transaction : Members)
  | randomUUID
  | currentTime
  | append (entry : SubmissionJournalEntry)
  | sign (transaction : Members)
  | onValidatedSignature (signature : ValidatedSignature)
  | beforeSubmit (signature : ValidatedSignature)
  | submit (txBlob : JsString) (failHard : Bool)
  | tx (txHash : JsString)
  | ledgerCurrent
  | clock
  | delay (milliseconds : ℕ)

/-- What a call is answered with. -/
abbrev SdkCall.Answer : SdkCall → Type
  | .isConnected => Except RpcError Bool
  | .autofill _ => Except RpcError Members
  | .randomUUID => JsString
  | .currentTime => JsString
  | .append _ => Except RpcError Unit
  | .sign _ => Except RpcError SignerResult
  | .onValidatedSignature _ => Except RpcError Unit
  | .beforeSubmit _ => Except RpcError Unit
  | .submit .. => RpcResponse
  | .tx _ => RpcResponse
  | .ledgerCurrent => RpcResponse
  | .clock => ℕ
  | .delay _ => Unit

/-- A part of the flow. -/
abbrev SdkProgram (α : Type) := Program SdkCall SdkCall.Answer SdkThrown α

/-- A call with its answer. -/
abbrev SdkEvent := Program.Event SdkCall.Answer

/-- What was computed, or thrown by something else than the program. -/
def ofRpc {α : Type} (result : Except RpcError α) : Except SdkThrown α :=
  result.mapError .rpc

/-- `throw new XcsSdkError(code, message)` unless the condition holds. -/
def assertSdk (condition : Bool) (code message : JsString) : Except SdkThrown Unit :=
  if condition then .ok () else .error (.sdk code message)

/-! ## The flow -/

/-- `transaction[key]` -/
def field (transaction : Members) (key : JsString) : JsValue :=
  (JsValue.obj transaction).get key

/-- `BLOB_PATTERN` -/
def isBlob (s : JsString) : Bool :=
  !s.isEmpty && s.length % 2 == 0 && s.all isHexDigit

/-- An object without some of its members. -/
def withoutMembers (keys : List JsString) (transaction : Members) : Members :=
  transaction.filter fun m => !keys.contains m.1

/-- `withoutSignatureFields` -/
def withoutSignatureFields (transaction : Members) : Members :=
  withoutMembers [js "Signers", js "SigningPubKey", js "TxnSignature"] transaction

/-- The members of a transaction that a signature may not change. -/
def boundFields (allowLastLedgerSequenceRefresh : Bool) (transaction : Members) : Members :=
  if allowLastLedgerSequenceRefresh then
    withoutMembers [js "LastLedgerSequence"] (withoutSignatureFields transaction)
  else withoutSignatureFields transaction

/-- `Number.isInteger(value) && value >= 0`, and the integer. -/
def asInteger : JsValue → Option ℕ
  | .num n => n.toNat?
  | _ => none

/-- `assertXrplJs5Compatibility` -/
def assertXrplJs5Compatibility (transaction : Members) : Except SdkThrown Unit :=
  assertSdk (!((field transaction (js "TransactionType")).isStr (js "CredentialCreate")
      && (match field transaction (js "URI") with
        | .str uri => decide (256 < uri.length)
        | _ => false)))
    (js "XCS_SDK_INVALID_URI") (js "xrpl.js 5.0.0 submission supports at most 128 URI bytes; "
      ++ js "use a shorter HTTPS URL or an IPFS CID.")

/-- The check of an autofilled transaction, and its `LastLedgerSequence`. -/
def autofilledSequence (transaction : Members) (message : JsString) : Except SdkThrown ℕ :=
  match asPositiveInteger (field transaction (js "LastLedgerSequence")),
      asInteger (field transaction (js "Sequence")) with
  | some lastLedgerSequence, some _ =>
      if (field transaction (js "Fee")).isUndefined then
        .error (.sdk (js "XCS_SDK_AUTOFILL_INCOMPLETE") message)
      else .ok lastLedgerSequence
  | _, _ => .error (.sdk (js "XCS_SDK_AUTOFILL_INCOMPLETE") message)

/-- `if (!client.isConnected()) throw` -/
def assertConnected (message : JsString) : SdkProgram Unit := do
  let answer ← Program.perform .isConnected
  let connected ← .done (ofRpc answer)
  .done (assertSdk connected (js "XCS_SDK_CLIENT_NOT_CONNECTED") message)

/-- `append`; the entry gets the current time. -/
def append (entry : JsString → SubmissionJournalEntry) : SdkProgram Unit := do
  let time ← Program.perform .currentTime
  let answer ← Program.perform (.append (entry time))
  .done (ofRpc answer)

/-- `assertSignerResult` -/
def assertSignerResult (result : SignerResult) : Except SdkThrown Unit :=
  assertSdk (isHash result.hash && isBlob result.txBlob) (js "XCS_SDK_INVALID_SIGNER_RESULT")
    (js "Signer must return a 64-character transaction hash and a signed hexadecimal blob.")

/-- A string that is not empty. -/
def isNonEmptyString : JsValue → Bool
  | .str s => !s.isEmpty
  | _ => false

/-- `assertValidSingleSignature` -/
def assertValidSingleSignature (X : Xrpl) (signed : Members) (txBlob : JsString) :
    Except SdkThrown Unit := do
  assertSdk ((signed.lookup (js "Signers")).isNone) (js "XCS_SDK_INVALID_SIGNED_BLOB")
    (js "Multisigned transactions are not supported by the XCS v0.1 submission flow.")
  assertSdk (isNonEmptyString (field signed (js "SigningPubKey"))
      && isNonEmptyString (field signed (js "TxnSignature"))) (js "XCS_SDK_INVALID_SIGNED_BLOB")
    (js "Transaction blob must contain a single XRPL signature.")
  assertSdk (match X.verifySignature txBlob with
      | .ok valid => valid
      | .error _ => false) (js "XCS_SDK_INVALID_SIGNED_BLOB")
    (js "Transaction blob contains an invalid XRPL signature.")

/-- `decode(txBlob)`, with the error the flow throws in place of what `decode` throws. -/
def decodeBlob (X : Xrpl) (txBlob : JsString) : Except SdkThrown Members :=
  match X.decode txBlob with
  | .ok signed => .ok signed
  | .error _ => .error (.sdk (js "XCS_SDK_INVALID_SIGNED_BLOB")
      (js "Cannot decode signed transaction."))

/-- The same for `hashes.hashSignedTx(txBlob).toUpperCase()`. -/
def hashBlob (X : Xrpl) (txBlob : JsString) : Except SdkThrown JsString :=
  match X.hashSignedTx txBlob with
  | .ok hash => .ok (toUpperCase hash)
  | .error _ => .error (.sdk (js "XCS_SDK_INVALID_SIGNED_BLOB")
      (js "Cannot decode signed transaction."))

/-- The `LastLedgerSequence` a signed transaction must have. -/
def signedSequence (signed : Members) : Except SdkThrown ℕ :=
  match asPositiveInteger (field signed (js "LastLedgerSequence")) with
  | some lastLedgerSequence => .ok lastLedgerSequence
  | none => .error (.sdk (js "XCS_SDK_INVALID_SIGNED_BLOB")
      (js "Reliable submission requires a signed transaction with LastLedgerSequence."))

/-- `assertSignedTransactionMatches` -/
def assertSignedTransactionMatches (X : Xrpl) (prepared : Members) (txBlob : JsString)
    (allowLastLedgerSequenceRefresh : Bool) : Except SdkThrown Members := do
  let signed ← decodeBlob X txBlob
  assertValidSingleSignature X signed txBlob
  assertSdk (!allowLastLedgerSequenceRefresh || (asPositiveInteger
      (field (withoutSignatureFields signed) (js "LastLedgerSequence"))).isSome)
    (js "XCS_SDK_INVALID_SIGNED_BLOB")
    (js "Wallet-refreshed LastLedgerSequence must be a positive integer.")
  let preparedBytes ← ofRpc (X.encode (boundFields allowLastLedgerSequenceRefresh prepared))
  let signedBytes ← ofRpc (X.encode (boundFields allowLastLedgerSequenceRefresh signed))
  assertSdk (preparedBytes == signedBytes) (js "XCS_SDK_INVALID_SIGNER_RESULT")
    (js "Signer changed transaction fields that were not explicitly allowed.")
  pure (withoutSignatureFields signed)

/-- A hook, if it is given. -/
def callHook (given : Bool) (hook : SdkProgram Unit) : SdkProgram Unit :=
  if given then hook else pure ()

/-- `options.onValidatedSignature` -/
def onValidatedSignature (signature : ValidatedSignature) : SdkProgram Unit := do
  let answer ← Program.perform (.onValidatedSignature signature)
  .done (ofRpc answer)

/-- `options.beforeSubmit` -/
def beforeSubmit (signature : ValidatedSignature) : SdkProgram Unit := do
  let answer ← Program.perform (.beforeSubmit signature)
  .done (ofRpc answer)

/-- `getTransactionStatus`; the request for the open ledger is sent when the lookup did not find
the transaction. -/
def requestTransactionStatus (txHash : JsString) (lastLedgerSequence : Option ℕ) :
    SdkProgram TransactionStatus := do
  .done (assertSdk (isHash txHash) (js "XCS_SDK_SUBMISSION_FAILED")
    (js "Transaction hash must be 64 hex characters."))
  let lookup : RpcResponse ← Program.perform (SdkCall.tx (toUpperCase txHash))
  match lookup, lastLedgerSequence with
  | .error error, some last =>
      if isTransactionNotFound error then do
        let current ← Program.perform .ledgerCurrent
        .done (getTransactionStatus txHash (some last) (.error error) current)
      else Program.throwing (.rpc error)
  | lookup, lastLedgerSequence =>
      -- The last argument is not looked at: no request for the open ledger is sent.
      .done (getTransactionStatus txHash lastLedgerSequence lookup (.ok .undefined))

/-- The polling loop of `waitForTransaction`, for a number of turns. -/
def pollTransaction (txHash : JsString) (lastLedgerSequence deadline pollIntervalMs : ℕ) :
    ℕ → SdkProgram TransactionStatus
  | 0 => .stopped
  | turns + 1 => do
      let status ← requestTransactionStatus txHash (some lastLedgerSequence)
      match status.status with
      | .validated => pure status
      | .expired => pure status
      | kind => do
          let now ← Program.perform .clock
          if deadline ≤ now then
            pure { status with status := if kind = .notFound then .pending else kind }
          else do
            let _ ← Program.perform (.delay pollIntervalMs)
            pollTransaction txHash lastLedgerSequence deadline pollIntervalMs turns

/-- `waitForTransaction` -/
def awaitTransaction (turns : ℕ) (txHash : JsString) (lastLedgerSequence : ℕ)
    (options : ReliableSubmissionOptions) : SdkProgram TransactionStatus := do
  let now ← Program.perform .clock
  pollTransaction txHash lastLedgerSequence (now + options.timeoutMs.getD 60000)
    (options.pollIntervalMs.getD 1000) turns

/-- `options.operationId ?? crypto.randomUUID()` -/
def resolveOperationId (options : ReliableSubmissionOptions) : SdkProgram JsString :=
  match options.operationId with
  | some operationId => pure operationId
  | none => Program.perform SdkCall.randomUUID

/-- The stage of the entry that closes a submission. -/
def finalStage : TransactionStatusKind → SubmissionJournalStage
  | .validated => .validated
  | .expired => .expired
  | _ => .pending

/-- An entry of an operation whose hash is known. -/
def hashedEntry (operationId txHash : JsString) (lastLedgerSequence : ℕ)
    (stage : SubmissionJournalStage) (engineResult message : Option JsString) (time : JsString) :
    SubmissionJournalEntry :=
  ⟨operationId, time, stage, some txHash, some lastLedgerSequence, engineResult, none, message⟩

/-- The `try` block around `client.submit`, and its handler: whether the transaction was rejected as
malformed. -/
def relay (operationId txHash : JsString) (lastLedgerSequence : ℕ) (response : RpcResponse)
    (submitEngineResult : Option JsString) : SdkProgram Bool :=
  Program.catchError (do
      let _ ← .done (ofRpc response)
      append (hashedEntry operationId txHash lastLedgerSequence .submitted submitEngineResult none)
      if submitEngineResult.any fun code => (js "tem").isPrefixOf code then do
        append (hashedEntry operationId txHash lastLedgerSequence .failed submitEngineResult
          (some (js "rippled rejected the malformed transaction before relay.")))
        pure true
      else pure false) fun _ => do
    append (hashedEntry operationId txHash lastLedgerSequence .pending none
      (some (js "Submission acknowledgement unavailable; reconciling by transaction hash.")))
    pure false

/-- What follows `client.submit`. -/
def reconcile (turns : ℕ) (operationId txHash : JsString) (lastLedgerSequence : ℕ)
    (options : ReliableSubmissionOptions) (response : RpcResponse) :
    SdkProgram ReliableSubmissionResult := do
  let submitEngineResult := response.toOption.bind fun result =>
    readString result (js "engine_result")
  let malformed ← relay operationId txHash lastLedgerSequence response submitEngineResult
  if malformed then
    pure ⟨⟨.notFound, txHash, some lastLedgerSequence, none, none⟩, operationId,
      submitEngineResult⟩
  else do
    let status ← awaitTransaction turns txHash lastLedgerSequence options
    append fun time => ⟨operationId, time, finalStage status.status, some txHash,
      some lastLedgerSequence, status.transactionResult, status.ledgerIndex, none⟩
    pure ⟨status, operationId, submitEngineResult⟩

/-- `submitSignedTransaction` -/
def submitSignedTransaction (X : Xrpl) (turns : ℕ) (txBlob : JsString)
    (options : ReliableSubmissionOptions) : SdkProgram ReliableSubmissionResult := do
  assertConnected
    (js "Connect and validate the XRPL client before submitting a transaction.")
  .done (assertSdk (isBlob txBlob) (js "XCS_SDK_INVALID_SIGNED_BLOB")
    (js "Signed transaction input must be non-empty hexadecimal data."))
  let operationId ← resolveOperationId options
  let decoded ← .done (decodeBlob X txBlob)
  let txHash ← .done (hashBlob X txBlob)
  .done (assertValidSingleSignature X decoded txBlob)
  let lastLedgerSequence ← .done (signedSequence decoded)
  append (hashedEntry operationId txHash lastLedgerSequence .signed none none)
  callHook options.beforeSubmit (Program.catchError
    (beforeSubmit ⟨operationId, withoutSignatureFields decoded, txBlob, txHash,
      some lastLedgerSequence⟩) fun error => do
    append (hashedEntry operationId txHash lastLedgerSequence .signed none
      (some (js "Final pre-submission validation failed; signed transaction retained for retry.")))
    Program.throwing error)
  let response ← Program.perform (.submit txBlob (options.failHard.getD false))
  reconcile turns operationId txHash lastLedgerSequence options response

/-- The `catch` block around the signer: the failure goes to the journal and is thrown again. -/
def failSigning {α : Type} (operationId : JsString) (lastLedgerSequence : Option ℕ)
    (error : SdkThrown) : SdkProgram α := do
  append fun time => ⟨operationId, time, .failed, none, lastLedgerSequence, none, none,
    some (js "Wallet signing or pre-submission validation failed.")⟩
  Program.throwing error

/-- The part of the `try` block around the signer up to the check of the transaction: the signed
blob, its hash and its transaction. -/
def signTransaction (X : Xrpl) (transaction : Members) (options : ReliableSubmissionOptions) :
    SdkProgram (JsString × JsString × Members) := do
  let answer ← Program.perform (.sign transaction)
  let signed ← .done (ofRpc answer)
  .done (assertSignerResult signed)
  let hash ← .done (ofRpc (X.hashSignedTx signed.txBlob))
  .done (assertSdk (toUpperCase hash == toUpperCase signed.hash)
    (js "XCS_SDK_INVALID_SIGNER_RESULT")
    (js "Signer transaction hash does not match the signed transaction blob."))
  let signedTransaction ← .done (assertSignedTransactionMatches X transaction signed.txBlob
    (options.allowSignerLastLedgerSequenceRefresh == some true))
  pure (signed.txBlob, toUpperCase hash, signedTransaction)

/-- `signPreparedAndSubmit` -/
def signPreparedAndSubmit (X : Xrpl) (turns : ℕ) (transaction : Members)
    (options : ReliableSubmissionOptions) : SdkProgram ReliableSubmissionResult := do
  assertConnected (js "Connect and validate the XRPL client before signing a transaction.")
  .done (assertXrplJs5Compatibility transaction)
  let lastLedgerSequence ← .done (autofilledSequence transaction
    (js "Prepared transaction must contain Fee, Sequence, and LastLedgerSequence."))
  let operationId ← resolveOperationId options
  append fun time => ⟨operationId, time, .prepared, none, some lastLedgerSequence, none, none,
    none⟩
  let (txBlob, txHash, signedTransaction) ← Program.catchError
    (signTransaction X transaction options) (failSigning operationId (some lastLedgerSequence))
  -- The hook is in the same `try` block, but from here on the entry of a failure carries the
  -- sequence of the signed transaction.
  let signedLastLedgerSequence :=
    asInteger (field signedTransaction (js "LastLedgerSequence"))
  Program.catchError
    (callHook options.onValidatedSignature (onValidatedSignature
      ⟨operationId, signedTransaction, txBlob, txHash, signedLastLedgerSequence⟩))
    (failSigning operationId signedLastLedgerSequence)
  submitSignedTransaction X turns txBlob { options with operationId := some operationId }

/-- `autofillXcsTransaction` -/
def autofillXcsTransaction (transaction : Members) : SdkProgram (Members × ℕ) := do
  assertConnected (js "Connect and validate the XRPL client before autofilling a transaction.")
  .done (assertXrplJs5Compatibility transaction)
  let answer ← Program.perform (.autofill transaction)
  let prepared ← .done (ofRpc answer)
  let lastLedgerSequence ← .done (autofilledSequence prepared
    (js "XRPL autofill did not provide Fee, Sequence, and LastLedgerSequence."))
  pure (prepared, lastLedgerSequence)

/-- `prepareSignAndSubmit` -/
def prepareSignAndSubmit (X : Xrpl) (turns : ℕ) (transaction : Members)
    (options : ReliableSubmissionOptions) : SdkProgram ReliableSubmissionResult := do
  let (prepared, _) ← autofillXcsTransaction transaction
  signPreparedAndSubmit X turns prepared options

end Sdk
end Xcs
