import Xcs.Core.Claims
import Xcs.Indexer.ProjectLedger
import Xcs.Indexer.QuorumLedgerSource
import Xcs.Js.Date
import Xcs.Sdk.Network

/-!
# Fixture bundles

A fixture bundle records validated ledgers in files: a manifest, the index of the ledgers in chunks
of 4096 entries, and each ledger on its own, the last two compressed.  What is read from a file is
checked field by field, against the digests of the index, and for being the one canonical text.

What a file holds is a value here, and reading the files themselves is left to whoever calls: a
function that reads is given what the files answer.  Of an error the `cause` is left out.
-/

namespace Xcs
namespace Indexer
namespace Fixture

open Js Json Xcs.Core

/-! ## What is thrown -/

/-- `LedgerFixtureBundleErrorCode` -/
inductive LedgerFixtureBundleErrorCode where
  | invalid
  | outputExists
  | rangeInvalid
  | sourceUnavailable
  | integrityFailed
  deriving DecidableEq

/-- The text of a code. -/
def LedgerFixtureBundleErrorCode.text : LedgerFixtureBundleErrorCode → JsString
  | .invalid => js "FIXTURE_BUNDLE_INVALID"
  | .outputExists => js "FIXTURE_BUNDLE_OUTPUT_EXISTS"
  | .rangeInvalid => js "FIXTURE_BUNDLE_RANGE_INVALID"
  | .sourceUnavailable => js "FIXTURE_BUNDLE_SOURCE_UNAVAILABLE"
  | .integrityFailed => js "FIXTURE_BUNDLE_INTEGRITY_FAILED"

/-- What a function of the bundle throws: a `LedgerFixtureBundleError`, or an error of what it
calls. -/
inductive FixtureError where
  | bundle (code : LedgerFixtureBundleErrorCode) (message : JsString)
  | other

/-- What a function of the bundle returns. -/
abbrev FixtureResult (α : Type) := Except FixtureError α

/-- `fail` -/
def fail {α : Type} (code : LedgerFixtureBundleErrorCode) (message : JsString) : FixtureResult α :=
  .error (.bundle code message)

/-- `if (!condition) fail(code, message)` -/
def check (condition : Bool) (code : LedgerFixtureBundleErrorCode) (message : JsString) :
    FixtureResult Unit :=
  if condition then .ok () else fail code message

/-- `try { … } catch (error) { return fail(code, message, error) }` -/
def orFail {α : Type} (result : Except Thrown α) (code : LedgerFixtureBundleErrorCode)
    (message : JsString) : FixtureResult α :=
  match result with
  | .ok a => .ok a
  | .error _ => fail code message

/-! ## The parts of a bundle -/

/-- `LEDGER_FIXTURE_BUNDLE_FORMAT` -/
def ledgerFixtureBundleFormat : JsString := js "xcs-ledger-bundle/1"

/-- `LEDGER_FIXTURE_MAX_COMPRESSED_BYTES` -/
def ledgerFixtureMaxCompressedBytes : ℕ := 32 * 1024 * 1024

/-- `LEDGER_FIXTURE_MAX_UNCOMPRESSED_BYTES` -/
def ledgerFixtureMaxUncompressedBytes : ℕ := 64 * 1024 * 1024

/-- `LEDGER_FIXTURE_INDEX_ENTRIES_PER_CHUNK` -/
def ledgerFixtureIndexEntriesPerChunk : ℕ := 4096

/-- `LEDGER_FIXTURE_MAX_INDEX_COMPRESSED_BYTES` -/
def ledgerFixtureMaxIndexCompressedBytes : ℕ := 8 * 1024 * 1024

/-- `LEDGER_FIXTURE_MAX_INDEX_UNCOMPRESSED_BYTES` -/
def ledgerFixtureMaxIndexUncompressedBytes : ℕ := 16 * 1024 * 1024

/-- `LedgerFixtureEntry` -/
structure LedgerFixtureEntry where
  ledgerIndex : ℕ
  ledgerHash : JsString
  parentHash : JsString
  transactionRoot : JsString
  contentSha256 : JsString
  compressedSha256 : JsString
  deriving DecidableEq

/-- A range of ledgers: `from` and `to`. -/
structure IndexRange where
  first : ℕ
  last : ℕ
  deriving DecidableEq

/-- `LedgerFixtureIndexChunk` -/
structure LedgerFixtureIndexChunk extends IndexRange where
  contentSha256 : JsString
  compressedSha256 : JsString
  deriving DecidableEq

/-- `LedgerFixtureBundleManifest`, without the fields whose types have one value each. -/
structure LedgerFixtureBundleManifest where
  capturedAt : JsString
  profile : NetworkProfile
  profileFileSha256 : JsString
  primaryOperator : JsString
  secondaryOperator : JsString
  sourceTips : LedgerSourceTips
  range : IndexRange
  chunks : List LedgerFixtureIndexChunk

/-! ## Reading a field -/

/-- `isRecord`; the value is given back where it is one. -/
def record (value : JsValue) (message : JsString) : FixtureResult Members :=
  match value with
  | .obj members => .ok members
  | _ => fail .invalid message

/-- `exactKeys` -/
def exactKeys (members : Members) (expected : List JsString) (label : JsString) :
    FixtureResult Unit :=
  check ((members.map Prod.fst).isPerm expected) .invalid
    (label ++ js " contains unsupported properties")

/-- `string` -/
def string (value : JsValue) (label : JsString) : FixtureResult JsString :=
  match value with
  | .str (u :: rest) => .ok (u :: rest)
  | _ => fail .invalid (label ++ js " must be a non-empty string")

/-- `hash` -/
def hash (value : JsValue) (label : JsString) : FixtureResult JsString := do
  let raw ← string value label
  check (isLowerHash raw) .invalid (label ++ js " must be a lowercase 32-byte hash")
  pure raw

/-- `uint32` -/
def uint32 (value : JsValue) (label : JsString) : FixtureResult ℕ :=
  match Indexer.uint32 value with
  | some n => .ok n
  | none => fail .invalid (label ++ js " must be a uint32")

/-- The items of a value that `Array.isArray` holds of. -/
def arrayItems (value : JsValue) (message : JsString) : FixtureResult (List JsValue) :=
  match value with
  | .arr items => .ok items
  | _ => fail .invalid message

/-- `values.map(parse)`, where the function is given the position as well. -/
def mapPositions {α : Type} (parse : JsValue → ℕ → FixtureResult α) :
    ℕ → List JsValue → FixtureResult (List α)
  | _, [] => .ok []
  | position, value :: values => do
      let a ← parse value position
      let rest ← mapPositions parse (position + 1) values
      pure (a :: rest)

/-- `canonicalBytes` -/
def canonicalBytes (P : Platform) (value : JsValue) : FixtureResult (List UInt8) :=
  orFail (encodeCanonicalJson P value) .invalid (js "Fixture data must be canonicalizable JSON")

/-- `parseJson` on bytes. -/
def parseJsonBytes (bytes : List UInt8) : Except Thrown JsValue :=
  match decodeUtf8 bytes with
  | none => failXcs .invalidJson (js "Input is not valid UTF-8") (js "$") []
  | some text => parseJson text

/-! ## Ledgers -/

/-- Whether a value is a text that is not empty. -/
def isNonEmptyText : JsValue → Bool
  | .str s => !s.isEmpty
  | _ => false

/-- `value === n` for a number `n`. -/
def isNumber (value : JsValue) (n : ℕ) : Bool :=
  match value with
  | .num m => m.toNat? == some n
  | _ => false

/-- `Array.isArray(value)` -/
def isArray : JsValue → Bool
  | .arr _ => true
  | _ => false

/-- `ledger transaction ${position}` -/
def transactionLabel (position : ℕ) : JsString :=
  js "ledger transaction " ++ natToString position

/-- `parseTransaction` -/
def parseTransaction (P : Platform) (value : JsValue) (position : ℕ) :
    FixtureResult LedgerTransaction := do
  let members ← record value (transactionLabel position ++ js " must be an object")
  exactKeys members [js "hash", js "transaction", js "metadata", js "transactionIndex"]
    (js "ledger transaction")
  let transactionHash ← hash (value.get (js "hash")) (transactionLabel position ++ js ".hash")
  let transactionIndex ← uint32 (value.get (js "transactionIndex"))
    (transactionLabel position ++ js ".transactionIndex")
  check (transactionIndex == position) .invalid
    (js "ledger transaction index " ++ natToString transactionIndex
      ++ js " is not contiguous at position " ++ natToString position)
  let transaction := value.get (js "transaction")
  let metadata := value.get (js "metadata")
  let _ ← record transaction
    (transactionLabel position ++ js " must contain transaction and metadata objects")
  let _ ← record metadata
    (transactionLabel position ++ js " must contain transaction and metadata objects")
  check (isNonEmptyText (transaction.get (js "TransactionType"))
      && isArray (metadata.get (js "AffectedNodes"))
      && isNonEmptyText (metadata.get (js "TransactionResult"))
      && isNumber (metadata.get (js "TransactionIndex")) transactionIndex) .invalid
    (transactionLabel position ++ js " is missing normalized transaction evidence")
  let _ ← canonicalBytes P transaction
  let _ ← canonicalBytes P metadata
  pure { hash := transactionHash, transaction, metadata, transactionIndex }

/-- The properties of a ledger. -/
def ledgerProperties : List JsString :=
  [js "ledgerIndex", js "ledgerHash", js "parentHash", js "accountRoot", js "transactionRoot",
    js "parentCloseTime", js "closeTime", js "closeTimeResolution", js "closeFlags",
    js "totalCoins", js "transactions"]

/-- `parseLedger` -/
def parseLedger (P : Platform) (value : JsValue) : FixtureResult SourceLedger := do
  let members ← record value (js "ledger fixture must be an object")
  exactKeys members ledgerProperties (js "ledger fixture")
  let items ← arrayItems (value.get (js "transactions"))
    (js "ledger transactions must be an array")
  let transactions ← mapPositions (parseTransaction P) 0 items
  check (decide (transactions.map LedgerTransaction.hash).Nodup) .invalid
    (js "ledger fixture contains duplicate transaction hashes")
  let totalCoins ← string (value.get (js "totalCoins")) (js "ledger.totalCoins")
  check (decide (totalCoins.length ≤ 20) && isUnsignedInteger totalCoins
      && decide (bigNat totalCoins ≤ 0xffffffffffffffff)) .invalid
    (js "ledger.totalCoins must be a canonical uint64 string")
  let ledgerIndex ← uint32 (value.get (js "ledgerIndex")) (js "ledger.ledgerIndex")
  let ledgerHash ← hash (value.get (js "ledgerHash")) (js "ledger.ledgerHash")
  let parentHash ← hash (value.get (js "parentHash")) (js "ledger.parentHash")
  let accountRoot ← hash (value.get (js "accountRoot")) (js "ledger.accountRoot")
  let transactionRoot ← hash (value.get (js "transactionRoot")) (js "ledger.transactionRoot")
  let parentCloseTime ← uint32 (value.get (js "parentCloseTime")) (js "ledger.parentCloseTime")
  let closeTime ← uint32 (value.get (js "closeTime")) (js "ledger.closeTime")
  let closeTimeResolution ← uint32 (value.get (js "closeTimeResolution"))
    (js "ledger.closeTimeResolution")
  let closeFlags ← uint32 (value.get (js "closeFlags")) (js "ledger.closeFlags")
  let ledger : SourceLedger :=
    { ledgerIndex, ledgerHash, parentHash, accountRoot, transactionRoot, parentCloseTime,
      closeTime, closeTimeResolution, closeFlags, totalCoins, transactions }
  orFail (assertTransactionOrdering ledger.toValidatedLedger) .integrityFailed
    (js "ledger fixture transaction ordering is inconsistent")
  pure ledger

/-! ## The manifest -/

/-- `parseTips` -/
def parseTips (value : JsValue) : FixtureResult LedgerSourceTips := do
  let members ← record value (js "sourceTips must be an object")
  exactKeys members [js "primary", js "secondary", js "effective"] (js "sourceTips")
  let primary ← uint32 (value.get (js "primary")) (js "sourceTips.primary")
  let secondary ← uint32 (value.get (js "secondary")) (js "sourceTips.secondary")
  let effective ← uint32 (value.get (js "effective")) (js "sourceTips.effective")
  check (effective == min primary secondary) .invalid
    (js "sourceTips.effective must be the minimum source tip")
  pure ⟨primary, secondary, effective⟩

/-- `OPERATOR_PATTERN` -/
def matchesOperator : JsString → Bool
  | [] => false
  | u :: rest =>
      let isAlphanumeric (v : CodeUnit) : Bool := isUpper v || isLower v || isDigit v
      isAlphanumeric u && decide (rest.length ≤ 127)
        && rest.all fun v => isAlphanumeric v || decide (v ∈ js " ._-")

/-- `parseOperator`.  A text of the pattern has no white space in front, and of the white space
behind it `trim` may remove only spaces. -/
def parseOperator (value : JsValue) (label : JsString) : FixtureResult JsString := do
  let operator ← string value label
  check (matchesOperator operator && operator.getLast? != some 0x20) .invalid
    (label ++ js " contains unsupported characters")
  pure operator

/-- `index.chunks[${position}].${property}` -/
def chunkLabel (position : ℕ) (property : String) : JsString :=
  js "index.chunks[" ++ natToString position ++ js "]." ++ js property

/-- `parseIndexChunk` -/
def parseIndexChunk (value : JsValue) (position : ℕ) : FixtureResult LedgerFixtureIndexChunk := do
  let members ← record value
    (js "index chunk " ++ natToString position ++ js " must be an object")
  exactKeys members [js "from", js "to", js "contentSha256", js "compressedSha256"]
    (js "index chunk")
  let first ← uint32 (value.get (js "from")) (chunkLabel position "from")
  let last ← uint32 (value.get (js "to")) (chunkLabel position "to")
  check (!(first == 0 || decide (last < first)
      || decide (last - first + 1 > ledgerFixtureIndexEntriesPerChunk))) .invalid
    (js "index chunk " ++ natToString position ++ js " has an invalid range")
  let contentSha256 ← hash (value.get (js "contentSha256")) (chunkLabel position "contentSha256")
  let compressedSha256 ← hash (value.get (js "compressedSha256"))
    (chunkLabel position "compressedSha256")
  pure { first, last, contentSha256, compressedSha256 }

/-- The loop of `parseManifest` over the chunks, with the index at which the next one has to
begin. -/
def checkAligned (range : IndexRange) : ℕ → List LedgerFixtureIndexChunk → FixtureResult Unit
  | _, [] => .ok ()
  | expectedFrom, chunk :: chunks => do
      let expectedTo := min (expectedFrom + ledgerFixtureIndexEntriesPerChunk - 1) range.last
      check (chunk.first == expectedFrom && chunk.last == expectedTo) .invalid
        (js "index chunks must be aligned and contiguous")
      checkAligned range (chunk.last + 1) chunks

/-- The index of a manifest. -/
def parseIndex (range : IndexRange) (index : JsValue) :
    FixtureResult (List LedgerFixtureIndexChunk) := do
  let members ← record index (js "index must be an object")
  exactKeys members [js "entriesPerChunk", js "chunks"] (js "index")
  check (isNumber (index.get (js "entriesPerChunk")) ledgerFixtureIndexEntriesPerChunk) .invalid
    (js "index.entriesPerChunk is unsupported")
  let items ← arrayItems (index.get (js "chunks")) (js "index.chunks must be a non-empty array")
  check (!items.isEmpty) .invalid (js "index.chunks must be a non-empty array")
  let chunks ← mapPositions parseIndexChunk 0 items
  checkAligned range range.first chunks
  check (chunks.getLast?.any fun chunk => chunk.last == range.last) .invalid
    (js "index chunks must cover the exact bundle range")
  pure chunks

/-- `fixtureNetworkProfile` -/
def fixtureNetworkProfile (P : Platform) (value : JsValue) (label : JsString) :
    FixtureResult NetworkProfile :=
  orFail (Sdk.parseCoreNetworkProfile P value) .invalid
    (label ++ js " is not a valid network profile")

/-- The time value of a text that has the form of `toISOString`; any other text is the text of no
time value. -/
def isoTime (value : JsString) : Option ℤ :=
  let time (year : ℤ) (rest : JsString) : ℤ :=
    let part (start places : ℕ) : ℕ :=
      ofDigits (((rest.drop start).take places).map fun u => u.toNat - 0x30)
    daysFromDate year (part 1 2) (part 4 2) * 86400000 + part 7 2 * 3600000 + part 10 2 * 60000
      + part 13 2 * 1000 + part 16 3
  let digits (s : JsString) : ℕ := ofDigits (s.map fun u => u.toNat - 0x30)
  if matchesTemplate (js "0000-00-00T00:00:00.000Z") value then
    some (time (digits (value.take 4)) (value.drop 4))
  else if matchesTemplate (js "000000-00-00T00:00:00.000Z") value.tail then
    match value with
    | 0x2b :: year => some (time (digits (year.take 6)) (year.drop 6))
    | 0x2d :: year => some (time (-digits (year.take 6)) (year.drop 6))
    | _ => none
  else none

/-- `Number.isFinite(date.getTime()) && date.toISOString() === value` for `new Date(value)` -/
def isExactTimestamp (value : JsString) : Bool :=
  (isoTime value).any fun time =>
    decide (-8640000000000000 ≤ time ∧ time ≤ 8640000000000000) && toISOString time == value

example : isExactTimestamp (js "2028-02-29T04:05:06.789Z") = true := by decide +kernel

example : isExactTimestamp (js "2026-02-29T04:05:06.789Z") = false := by decide +kernel

/-- What `parseManifest` reads before the index. -/
structure ManifestHead where
  capturedAt : JsString
  primaryOperator : JsString
  secondaryOperator : JsString
  range : IndexRange

/-- What `parseManifest` reads after the index. -/
structure ManifestTail where
  profile : NetworkProfile
  sourceTips : LedgerSourceTips
  profileFileSha256 : JsString

/-- `parseManifest`, up to the index. -/
def parseManifestHead (value : JsValue) : FixtureResult ManifestHead := do
  let members ← record value (js "bundle manifest must be an object")
  exactKeys members [js "format", js "capturedAt", js "profile", js "profileFileSha256",
    js "sources", js "sourceTips", js "range", js "index"] (js "bundle manifest")
  check ((value.get (js "format")).isStr ledgerFixtureBundleFormat) .invalid
    (js "unsupported ledger fixture bundle format")
  let capturedAt ← string (value.get (js "capturedAt")) (js "capturedAt")
  check (isExactTimestamp capturedAt) .invalid
    (js "capturedAt must be an exact UTC ISO-8601 timestamp")
  let sources := value.get (js "sources")
  let sourcesMembers ← record sources (js "sources must be an object")
  exactKeys sourcesMembers [js "consensus", js "primaryOperator", js "secondaryOperator"]
    (js "sources")
  check ((sources.get (js "consensus")).isStr (js "normalized-exact-dual-rippled")) .invalid
    (js "bundle must record exact dual-rippled consensus")
  let primaryOperator ← parseOperator (sources.get (js "primaryOperator"))
    (js "sources.primaryOperator")
  let secondaryOperator ← parseOperator (sources.get (js "secondaryOperator"))
    (js "sources.secondaryOperator")
  check (toLowerCase primaryOperator != toLowerCase secondaryOperator) .invalid
    (js "source operators must be distinct")
  let rangeValue := value.get (js "range")
  let rangeMembers ← record rangeValue (js "range must be an object")
  exactKeys rangeMembers [js "from", js "to"] (js "range")
  let first ← uint32 (rangeValue.get (js "from")) (js "range.from")
  let last ← uint32 (rangeValue.get (js "to")) (js "range.to")
  check (!(first == 0 || decide (last < first))) .rangeInvalid (js "bundle range is invalid")
  pure { capturedAt, primaryOperator, secondaryOperator, range := ⟨first, last⟩ }

/-- `parseManifest`, from the index on. -/
def parseManifestTail (P : Platform) (value : JsValue) (range : IndexRange) :
    FixtureResult ManifestTail := do
  let profile ← fixtureNetworkProfile P (value.get (js "profile")) (js "bundle profile")
  check (profile.activationLedgerIndex == range.first) .invalid
    (js "bundle must begin at the profile activation ledger index")
  let sourceTips ← parseTips (value.get (js "sourceTips"))
  check (decide (range.last ≤ sourceTips.effective)) .invalid
    (js "bundle range exceeds the captured source quorum tip")
  let profileFileSha256 ← hash (value.get (js "profileFileSha256")) (js "profileFileSha256")
  pure { profile, sourceTips, profileFileSha256 }

/-- `parseManifest` -/
def parseManifest (P : Platform) (value : JsValue) : FixtureResult LedgerFixtureBundleManifest := do
  let head ← parseManifestHead value
  let chunks ← parseIndex head.range (value.get (js "index"))
  let tail ← parseManifestTail P value head.range
  pure
    { capturedAt := head.capturedAt
      profile := tail.profile
      profileFileSha256 := tail.profileFileSha256
      primaryOperator := head.primaryOperator
      secondaryOperator := head.secondaryOperator
      sourceTips := tail.sourceTips
      range := head.range
      chunks }

end Fixture
end Indexer
end Xcs
