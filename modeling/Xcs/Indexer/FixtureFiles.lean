import Xcs.Indexer.FixtureBundle
import Xcs.Run.Program

/-!
# The files of a fixture bundle

Ledgers are captured one after the other from a source; each is written to a file of its own, and
after every 4096 of them, and after the last one, their entries are written as a chunk of the index.
A fixture source reads a ledger by the entry of its chunk, and keeps the chunk it read last.

A path is the list of its names, the innermost first.  The capture is a program: the source and the
file system answer its calls, and nothing is assumed of the answers.  The fixture source makes its
reads at once, and what the files answer is part of the event.
-/

namespace Xcs
namespace Indexer
namespace Fixture

open Js Json Xcs.Core

/-- `gzipSync` and `gunzipSync`; `none` is an error. -/
structure Gzip where
  gzipSync : List UInt8 → List UInt8
  gunzipSync : ℕ → List UInt8 → Option (List UInt8)

/-! ## Paths -/

/-- `ledgerFile` -/
def ledgerFile (directory : List JsString) (ledgerIndex : ℕ) : List JsString :=
  (natToString ledgerIndex ++ js ".json.gz") :: js "ledgers" :: directory

/-- `indexChunkFileName` -/
def indexChunkFileName (range : IndexRange) : JsString :=
  natToString range.first ++ js "-" ++ natToString range.last ++ js ".json.gz"

/-- `indexChunkFile` -/
def indexChunkFile (directory : List JsString) (range : IndexRange) : List JsString :=
  indexChunkFileName range :: js "indexes" :: directory

/-! ## Values -/

/-- A transaction as a value. -/
def transactionJs (tx : LedgerTransaction) : JsValue :=
  .obj [(js "hash", .str tx.hash), (js "transaction", tx.transaction),
    (js "metadata", tx.metadata),
    (js "transactionIndex", .num (JsNumber.ofNat tx.transactionIndex))]

/-- A ledger as a value. -/
def ledgerJs (ledger : SourceLedger) : JsValue :=
  .obj [(js "ledgerIndex", .num (JsNumber.ofNat ledger.ledgerIndex)),
    (js "ledgerHash", .str ledger.ledgerHash), (js "parentHash", .str ledger.parentHash),
    (js "accountRoot", .str ledger.accountRoot),
    (js "transactionRoot", .str ledger.transactionRoot),
    (js "parentCloseTime", .num (JsNumber.ofNat ledger.parentCloseTime)),
    (js "closeTime", .num (JsNumber.ofNat ledger.closeTime)),
    (js "closeTimeResolution", .num (JsNumber.ofNat ledger.closeTimeResolution)),
    (js "closeFlags", .num (JsNumber.ofNat ledger.closeFlags)),
    (js "totalCoins", .str ledger.totalCoins),
    (js "transactions", .arr (ledger.transactions.map transactionJs))]

/-- An entry as a value. -/
def entryJs (entry : LedgerFixtureEntry) : JsValue :=
  .obj [(js "ledgerIndex", .num (JsNumber.ofNat entry.ledgerIndex)),
    (js "ledgerHash", .str entry.ledgerHash), (js "parentHash", .str entry.parentHash),
    (js "transactionRoot", .str entry.transactionRoot),
    (js "contentSha256", .str entry.contentSha256),
    (js "compressedSha256", .str entry.compressedSha256)]

/-- A chunk as a value. -/
def chunkJs (chunk : LedgerFixtureIndexChunk) : JsValue :=
  .obj [(js "from", .num (JsNumber.ofNat chunk.first)), (js "to", .num (JsNumber.ofNat chunk.last)),
    (js "contentSha256", .str chunk.contentSha256),
    (js "compressedSha256", .str chunk.compressedSha256)]

/-- The index of a manifest as a value. -/
def indexJs (chunks : List LedgerFixtureIndexChunk) : JsValue :=
  .obj [(js "entriesPerChunk", .num (JsNumber.ofNat ledgerFixtureIndexEntriesPerChunk)),
    (js "chunks", .arr (chunks.map chunkJs))]

/-! ## Writing -/

/-- A call of the capture: to the source, and to the file system. -/
inductive CaptureCall where
  | getLedger (ledgerIndex : ℕ)
  | writeFile (path : List JsString) (bytes : List UInt8)

/-- What a call is answered: a ledger, or whether the file was written; `none` and `false` are
errors. -/
abbrev CaptureCall.Answer : CaptureCall → Type
  | .getLedger _ => Option SourceLedger
  | .writeFile .. => Bool

/-- A part of the capture. -/
abbrev Capture (α : Type) := Program CaptureCall CaptureCall.Answer FixtureError α

/-- A computation that makes no call. -/
def ofResult {α : Type} (result : FixtureResult α) : Capture α :=
  .done result

/-- `input.source.getLedger(ledgerIndex)` -/
def sourceLedger (ledgerIndex : ℕ) : Capture SourceLedger := do
  let answer ← Program.perform (CaptureCall.getLedger ledgerIndex)
  match answer with
  | some ledger => pure ledger
  | none => Program.throwing .other

/-- `writeFile(path, bytes, { flag: 'wx' })` -/
def writeFile (path : List JsString) (bytes : List UInt8) : Capture Unit := do
  let written ← Program.perform (CaptureCall.writeFile path bytes)
  if written then pure () else Program.throwing .other

/-- The bytes of the file of a ledger, and its entry. -/
def ledgerBytes (P : Platform) (Z : Gzip) (ledger : SourceLedger) :
    FixtureResult (List UInt8 × LedgerFixtureEntry) := do
  let content ← canonicalBytes P (ledgerJs ledger)
  check (decide (content.length ≤ ledgerFixtureMaxUncompressedBytes)) .invalid
    (js "ledger fixture exceeds the uncompressed size limit")
  let compressed := Z.gzipSync content
  check (decide (compressed.length ≤ ledgerFixtureMaxCompressedBytes)) .invalid
    (js "ledger fixture exceeds the compressed size limit")
  pure (compressed,
    { ledgerIndex := ledger.ledgerIndex
      ledgerHash := ledger.ledgerHash
      parentHash := ledger.parentHash
      transactionRoot := ledger.transactionRoot
      contentSha256 := sha256Hex P content
      compressedSha256 := sha256Hex P compressed })

/-- `writeLedger` -/
def writeLedger (P : Platform) (Z : Gzip) (directory : List JsString) (ledger : SourceLedger) :
    Capture LedgerFixtureEntry := do
  let (compressed, entry) ← ofResult (ledgerBytes P Z ledger)
  writeFile (ledgerFile directory ledger.ledgerIndex) compressed
  pure entry

/-- The bytes of the file of a chunk, and the chunk. -/
def indexChunkBytes (P : Platform) (Z : Gzip) (entries : List LedgerFixtureEntry) :
    FixtureResult (List UInt8 × LedgerFixtureIndexChunk) :=
  match entries.head?, entries.getLast? with
  | some first, some last => do
      check (decide (entries.length ≤ ledgerFixtureIndexEntriesPerChunk)) .invalid
        (js "fixture index chunk entries are invalid")
      let content ← canonicalBytes P (.arr (entries.map entryJs))
      check (decide (content.length ≤ ledgerFixtureMaxIndexUncompressedBytes)) .invalid
        (js "fixture index chunk exceeds the size limit")
      let compressed := Z.gzipSync content
      check (decide (compressed.length ≤ ledgerFixtureMaxIndexCompressedBytes)) .invalid
        (js "compressed fixture index chunk exceeds the size limit")
      pure (compressed,
        { first := first.ledgerIndex
          last := last.ledgerIndex
          contentSha256 := sha256Hex P content
          compressedSha256 := sha256Hex P compressed })
  | _, _ => fail .invalid (js "fixture index chunk entries are invalid")

/-- `writeIndexChunk` -/
def writeIndexChunk (P : Platform) (Z : Gzip) (directory : List JsString)
    (entries : List LedgerFixtureEntry) : Capture LedgerFixtureIndexChunk := do
  let (compressed, chunk) ← ofResult (indexChunkBytes P Z entries)
  writeFile (indexChunkFile directory chunk.toIndexRange) compressed
  pure chunk

/-! ## The capture -/

/-- `checkpoint` -/
def checkpoint (ledger : SourceLedger) : Checkpoint where
  ledgerIndex := ledger.ledgerIndex
  ledgerHash := ledger.ledgerHash
  parentHash := ledger.parentHash
  closeTime := ledger.closeTime
  transactionCount := ledger.transactions.length
  transactionRoot := ledger.transactionRoot

/-- The variables of the loop of `captureLedgerFixtureBundle`. -/
structure CaptureState where
  chunks : List LedgerFixtureIndexChunk
  pendingEntries : List LedgerFixtureEntry
  previous : Option SourceLedger

/-- The body of the loop of `captureLedgerFixtureBundle`. -/
def captureLedger (P : Platform) (Z : Gzip) (directory : List JsString) (profile : NetworkProfile)
    (toLedgerIndex ledgerIndex : ℕ) (s : CaptureState) : Capture CaptureState := do
  let ledger ← sourceLedger ledgerIndex
  let _ ← ofResult ((assertLedgerContinuity profile (s.previous.map checkpoint)
    ledger.toValidatedLedger).mapError fun _ => .other)
  let entry ← writeLedger P Z directory ledger
  let pendingEntries := s.pendingEntries ++ [entry]
  if pendingEntries.length = ledgerFixtureIndexEntriesPerChunk ∨ ledgerIndex = toLedgerIndex then do
    let chunk ← writeIndexChunk P Z directory pendingEntries
    pure ⟨s.chunks ++ [chunk], [], some ledger⟩
  else pure ⟨s.chunks, pendingEntries, some ledger⟩

/-- The loop of `captureLedgerFixtureBundle`, with the number of ledgers that are left. -/
def captureLedgers (P : Platform) (Z : Gzip) (directory : List JsString) (profile : NetworkProfile)
    (toLedgerIndex : ℕ) : ℕ → ℕ → CaptureState → Capture (List LedgerFixtureIndexChunk)
  | 0, _, s => pure s.chunks
  | n + 1, ledgerIndex, s => do
      let s ← captureLedger P Z directory profile toLedgerIndex ledgerIndex s
      captureLedgers P Z directory profile toLedgerIndex n (ledgerIndex + 1) s

/-- The index `captureLedgerFixtureBundle` makes for a profile and a target, with the range of the
bundle. -/
def captureIndex (P : Platform) (Z : Gzip) (directory : List JsString) (profileInput : JsValue)
    (toLedgerIndex : ℕ) : Capture (IndexRange × List LedgerFixtureIndexChunk) := do
  let profile ← ofResult (fixtureNetworkProfile P profileInput (js "capture profile"))
  let _ ← ofResult (check (decide (profile.activationLedgerIndex ≤ toLedgerIndex
      ∧ toLedgerIndex ≤ 0xffffffff)) .rangeInvalid
    (js "fixture target must be a uint32 at or after profile activation"))
  let chunks ← captureLedgers P Z directory profile toLedgerIndex
    (toLedgerIndex + 1 - profile.activationLedgerIndex) profile.activationLedgerIndex ⟨[], [], none⟩
  pure (⟨profile.activationLedgerIndex, toLedgerIndex⟩, chunks)

/-! ## Reading -/

/-- `parseEntry` -/
def parseEntry (value : JsValue) (position : ℕ) : FixtureResult LedgerFixtureEntry := do
  let label (property : String) : JsString :=
    js "ledgers[" ++ natToString position ++ js "]." ++ js property
  let members ← record value
    (js "ledger manifest entry " ++ natToString position ++ js " must be an object")
  exactKeys members [js "ledgerIndex", js "ledgerHash", js "parentHash", js "transactionRoot",
    js "contentSha256", js "compressedSha256"] (js "ledger manifest entry")
  let ledgerIndex ← uint32 (value.get (js "ledgerIndex")) (label "ledgerIndex")
  let ledgerHash ← hash (value.get (js "ledgerHash")) (label "ledgerHash")
  let parentHash ← hash (value.get (js "parentHash")) (label "parentHash")
  let transactionRoot ← hash (value.get (js "transactionRoot")) (label "transactionRoot")
  let contentSha256 ← hash (value.get (js "contentSha256")) (label "contentSha256")
  let compressedSha256 ← hash (value.get (js "compressedSha256")) (label "compressedSha256")
  pure { ledgerIndex, ledgerHash, parentHash, transactionRoot, contentSha256, compressedSha256 }

/-- What the files answer to `readFileBounded`. -/
abbrev Files := List JsString → FixtureResult (List UInt8)

/-- The steps that reading a chunk and reading a ledger have in common: the bytes of the file, the
digests, the compression and the JSON. -/
def readJson (P : Platform) (Z : Gzip) (file : FixtureResult (List UInt8)) (maximumBytes : ℕ)
    (compressedSha256 contentSha256 : JsString) (message : String → JsString)
    (unavailable compressedDigest gzip contentDigest json : String) :
    FixtureResult (List UInt8 × JsValue) :=
  match file with
  | .error _ => fail .integrityFailed (message unavailable)
  | .ok compressed => do
      check (sha256Hex P compressed == compressedSha256) .integrityFailed (message compressedDigest)
      match Z.gunzipSync maximumBytes compressed with
      | none => fail .integrityFailed (message gzip)
      | some content => do
          check (sha256Hex P content == contentSha256) .integrityFailed (message contentDigest)
          let parsed ← orFail (parseJsonBytes content) .integrityFailed (message json)
          pure (content, parsed)

/-- The loop of `readIndexChunk` over the entries. -/
def checkContiguous (message : JsString) : ℕ → List LedgerFixtureEntry → FixtureResult Unit
  | _, [] => .ok ()
  | ledgerIndex, entry :: entries => do
      check (entry.ledgerIndex == ledgerIndex) .integrityFailed message
      checkContiguous message (ledgerIndex + 1) entries

/-- `fixture index chunk ${chunk.from}-${chunk.to}` and a text. -/
def chunkMessage (chunk : LedgerFixtureIndexChunk) (text : String) : JsString :=
  js "fixture index chunk " ++ natToString chunk.first ++ js "-" ++ natToString chunk.last
    ++ js text

/-- `readIndexChunk` -/
def readIndexChunk (P : Platform) (Z : Gzip) (files : Files) (directory : List JsString)
    (chunk : LedgerFixtureIndexChunk) : FixtureResult (List LedgerFixtureEntry) := do
  let (content, parsed) ← readJson P Z (files (indexChunkFile directory chunk.toIndexRange))
    ledgerFixtureMaxIndexUncompressedBytes chunk.compressedSha256 chunk.contentSha256
    (chunkMessage chunk) " is unavailable" " compressed digest does not match"
    " is not bounded valid gzip" " content digest does not match" " is not strict UTF-8 JSON"
  let canonical ← canonicalBytes P parsed
  let message := chunkMessage chunk " is not an exact canonical JSON array"
  check (content == canonical) .integrityFailed message
  let items ← (match parsed with
    | .arr items => .ok items
    | _ => fail .integrityFailed message)
  let entries ← mapPositions parseEntry 0 items
  check (entries.length == chunk.last - chunk.first + 1) .integrityFailed
    (chunkMessage chunk " has the wrong entry count")
  checkContiguous (chunkMessage chunk " is not contiguous") chunk.first entries
  pure entries

/-- `ledger ${entry.ledgerIndex}` and a text. -/
def ledgerMessage (entry : LedgerFixtureEntry) (text : String) : JsString :=
  js "ledger " ++ natToString entry.ledgerIndex ++ js text

/-- `readLedger` -/
def readLedger (P : Platform) (Z : Gzip) (files : Files) (directory : List JsString)
    (entry : LedgerFixtureEntry) : FixtureResult SourceLedger := do
  let (content, parsed) ← readJson P Z (files (ledgerFile directory entry.ledgerIndex))
    ledgerFixtureMaxUncompressedBytes entry.compressedSha256 entry.contentSha256
    (ledgerMessage entry) " fixture is unavailable"
    " compressed digest does not match the manifest" " fixture is not valid gzip"
    " content digest does not match the manifest" " fixture is not strict UTF-8 JSON"
  let canonical ← canonicalBytes P parsed
  check (content == canonical) .integrityFailed
    (ledgerMessage entry " fixture is not encoded as exact canonical JSON")
  let ledger ← parseLedger P parsed
  check (ledger.ledgerIndex == entry.ledgerIndex && ledger.ledgerHash == entry.ledgerHash
      && ledger.parentHash == entry.parentHash && ledger.transactionRoot == entry.transactionRoot)
    .integrityFailed (ledgerMessage entry " evidence does not match the manifest")
  pure ledger

/-! ## The fixture source -/

/-- `cachedChunk` -/
structure CachedChunk where
  descriptor : LedgerFixtureIndexChunk
  entries : List LedgerFixtureEntry

/-- The chunk `getLedger` selects for a ledger. -/
def selectChunk (manifest : LedgerFixtureBundleManifest) (ledgerIndex : ℕ) :
    FixtureResult LedgerFixtureIndexChunk := do
  check (decide (manifest.range.first ≤ ledgerIndex ∧ ledgerIndex ≤ manifest.range.last))
    .rangeInvalid (js "ledger " ++ natToString ledgerIndex ++ js " is outside the fixture range")
  let chunkPosition := (ledgerIndex - manifest.range.first) / ledgerFixtureIndexEntriesPerChunk
  match manifest.chunks[chunkPosition]? with
  | none => fail .integrityFailed (js "fixture index does not cover the ledger")
  | some chunk => do
      check (decide (chunk.first ≤ ledgerIndex ∧ ledgerIndex ≤ chunk.last)) .integrityFailed
        (js "fixture index does not cover the ledger")
      pure chunk

/-- The cached chunk after `getLedger` has made sure that it is the one selected. -/
def loadChunk (P : Platform) (Z : Gzip) (files : Files) (directory : List JsString)
    (cachedChunk : Option CachedChunk) (chunk : LedgerFixtureIndexChunk) :
    FixtureResult CachedChunk :=
  match cachedChunk with
  | some cached =>
      if cached.descriptor.first = chunk.first ∧ cached.descriptor.last = chunk.last then .ok cached
      else do
        let entries ← readIndexChunk P Z files directory chunk
        pure ⟨chunk, entries⟩
  | none => do
      let entries ← readIndexChunk P Z files directory chunk
      pure ⟨chunk, entries⟩

/-- The entry `getLedger` selects in a chunk. -/
def selectEntry (cached : CachedChunk) (chunk : LedgerFixtureIndexChunk) (ledgerIndex : ℕ) :
    FixtureResult LedgerFixtureEntry :=
  match cached.entries[ledgerIndex - chunk.first]? with
  | none => fail .integrityFailed (js "fixture index entry is unavailable")
  | some entry => do
      check (entry.ledgerIndex == ledgerIndex) .integrityFailed
        (js "fixture index entry is unavailable")
      pure entry

/-- `getLedger`, with what is cached after it. -/
def getLedger (P : Platform) (Z : Gzip) (manifest : LedgerFixtureBundleManifest)
    (directory : List JsString) (files : Files) (cachedChunk : Option CachedChunk)
    (ledgerIndex : ℕ) : FixtureResult SourceLedger × Option CachedChunk :=
  match selectChunk manifest ledgerIndex with
  | .error e => (.error e, cachedChunk)
  | .ok chunk =>
      match loadChunk P Z files directory cachedChunk chunk with
      | .error e => (.error e, cachedChunk)
      | .ok cached =>
          (selectEntry cached chunk ledgerIndex >>= readLedger P Z files directory, some cached)

/-- The calls of `getLedger` on one source: what the files answer each time, and the ledger that is
asked for. -/
inductive GetLedgerStep (P : Platform) (Z : Gzip) (manifest : LedgerFixtureBundleManifest)
    (directory : List JsString) : Option CachedChunk → Files × ℕ → Option CachedChunk → Prop
  | call (files : Files) (cachedChunk : Option CachedChunk) (ledgerIndex : ℕ) :
      GetLedgerStep P Z manifest directory cachedChunk (files, ledgerIndex)
        (getLedger P Z manifest directory files cachedChunk ledgerIndex).2

end Fixture
end Indexer
end Xcs
