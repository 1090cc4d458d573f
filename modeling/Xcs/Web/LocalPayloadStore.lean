import Xcs.Core.PayloadRoundTrip
import Xcs.Js.IsoTime
import Xcs.Json.Stringify
import Xcs.Run.InsertionMap

/-!
# The local payload store

Test payloads are kept in the storage of the browser, each under its content identifier, twenty at
most and for a day.  The storage belongs to the origin and holds other keys as well.  It enumerates
its keys in an order of its own, and it may refuse to write: `StorageBehaviour` is what it does
while one function runs.  `LocalStorage` is what it holds, together with what it held before each
call that changed it.
-/

namespace Xcs
namespace Web

open Js Json Core

/-! ## The browser -/

/-- What the store takes from the browser and from packages. -/
structure LocalBrowser (P : Platform) where
  /-- `key.normalize('NFKD').toLowerCase()` -/
  foldKey : JsString → JsString
  /-- `Date.parse` of a text that `toISOString` does not write; `none` is `NaN`. -/
  parseOtherDate : JsString → Option ℤ
  /-- `CID.parse` reads the text of an identifier. -/
  readsCids : ReadsCids P

variable {P : Platform} (B : LocalBrowser P)

/-- `Date.parse`; `none` is `NaN`. -/
def dateParse (text : JsString) : Option ℤ :=
  match isoTime text with
  | some time => some time
  | none => B.parseOtherDate text

/-! ## The storage -/

/-- The keys and values of a storage. -/
abbrev StorageItems := InsertionMap JsString JsString

/-- What a storage does while a function runs: how it enumerates its keys, and which writes it
takes. -/
structure StorageBehaviour where
  order : StorageItems → List JsString
  order_perm : ∀ items, (order items).Perm items.keys
  accepts : StorageItems → JsString → JsString → Bool

/-- A storage, and what it held before each call that changed it. -/
structure LocalStorage where
  items : StorageItems
  past : List StorageItems

/-- What the store throws. -/
inductive LocalPayloadError where
  /-- `new Error(message)` -/
  | failed (message : JsString)
  /-- `LocalPayloadPiiFieldError` -/
  | piiField (fieldPath : JsString)
  /-- What `setItem` throws. -/
  | storage
  /-- The `RangeError` of `toISOString`. -/
  | invalidDate
  | core (error : Thrown)

/-- `error instanceof Error && error.message === 'LOCAL_PAYLOAD_DIGEST_COLLISION'` -/
def LocalPayloadError.isDigestCollision : LocalPayloadError → Bool
  | .failed message => message == js "LOCAL_PAYLOAD_DIGEST_COLLISION"
  | _ => false

/-- What the protocol package throws, thrown on. -/
def ofThrown {α : Type} : Except Thrown α → Except LocalPayloadError α
  | .ok a => .ok a
  | .error e => .error (.core e)

namespace LocalStorage

/-- `storage.getItem` -/
def getItem (s : LocalStorage) (key : JsString) : Option JsString :=
  s.items.get key

/-- `storage.removeItem` -/
def removeItem (s : LocalStorage) (key : JsString) : LocalStorage :=
  ⟨s.items.delete key, s.items :: s.past⟩

/-- `storage.setItem` -/
def setItem (E : StorageBehaviour) (s : LocalStorage) (key value : JsString) :
    Except LocalPayloadError LocalStorage :=
  if E.accepts s.items key value then .ok ⟨s.items.set key value, s.items :: s.past⟩
  else .error .storage

end LocalStorage

/-! ## Keys and fields -/

/-- `LOCAL_PAYLOAD_STORE_MAX_BYTES` -/
def localPayloadStoreMaxBytes : ℕ := 64 * 1024

/-- `LOCAL_PAYLOAD_STORE_MAX_ENTRIES` -/
def localPayloadStoreMaxEntries : ℕ := 20

/-- `LOCAL_PAYLOAD_STORE_TTL_MS` -/
def localPayloadStoreTtlMs : ℤ := 24 * 60 * 60 * 1000

/-- `STORAGE_PREFIX` -/
def storagePrefix : JsString := js "xcs:local-test-payload:v1:"

/-- `SENSITIVE_FIELD_NAMES` -/
def sensitiveFieldNames : List JsString :=
  [js "address", js "adresse", js "birthdate", js "dateofbirth", js "dob", js "email",
    js "familyname", js "firstname", js "fullname", js "givenname", js "lastname",
    js "middlename", js "mobile", js "mobilenumber", js "nationalid", js "passport",
    js "passportnumber", js "phone", js "phonenumber", js "postaladdress", js "prenom",
    js "socialsecuritynumber", js "ssn", js "streetaddress", js "telephone",
    js "telephonenumber"]

/-- `storageKey` -/
def storageKey (cid : JsString) : JsString :=
  storagePrefix ++ cid

/-- `key.startsWith(STORAGE_PREFIX)` -/
def isLocalKey (key : JsString) : Bool :=
  storagePrefix.isPrefixOf key

/-- `localStoreKeys` -/
def localStoreKeys (E : StorageBehaviour) (s : LocalStorage) : List JsString :=
  (E.order s.items).filter isLocalKey

/-- `/^[A-Za-z_$][A-Za-z0-9_$]*$/u` -/
def isIdentifierKey : JsString → Bool
  | [] => false
  | u :: rest =>
      let isStart (u : CodeUnit) : Bool := isLower u || isUpper u || u == 0x5f || u == 0x24
      isStart u && rest.all fun v => isStart v || isDigit v

/-- `fieldPath` of an array index. -/
def itemPath (parent : JsString) (index : ℕ) : JsString :=
  parent ++ js "[" ++ natToString index ++ js "]"

/-- `fieldPath` of an object key. -/
def fieldPath (parent key : JsString) : JsString :=
  if isIdentifierKey key then parent ++ js "." ++ key
  else parent ++ js "[" ++ quote key ++ js "]"

/-- `SENSITIVE_FIELD_NAMES.has(normalizedKey)` -/
def isSensitiveKey (key : JsString) : Bool :=
  decide ((B.foldKey key).filter (fun u => isLower u || isDigit u) ∈ sensitiveFieldNames)

mutual

/-- `findSensitiveFieldPath` -/
def findSensitiveFieldPath : JsValue → JsString → Option JsString
  | .arr items, parent => findSensitiveItem items parent 0
  | .obj members, parent => findSensitiveMember members parent
  | _, _ => none

/-- The loop over the items of an array. -/
def findSensitiveItem : List JsValue → JsString → ℕ → Option JsString
  | [], _, _ => none
  | v :: items, parent, index =>
      match findSensitiveFieldPath v (itemPath parent index) with
      | some path => some path
      | none => findSensitiveItem items parent (index + 1)

/-- The loop over the members of an object. -/
def findSensitiveMember : Members → JsString → Option JsString
  | [], _ => none
  | (key, v) :: members, parent =>
      if isSensitiveKey B key then some (fieldPath parent key)
      else
        match findSensitiveFieldPath v (fieldPath parent key) with
        | some path => some path
        | none => findSensitiveMember members parent

end

/-! ## Records -/

/-- `StoredLocalPayload`, with all members of the record. -/
structure StoredLocalPayload where
  members : Members
  content : JsString
  createdAt : JsString
  expiresAt : JsString
  acknowledged : Bool

/-- The key of the acknowledgement. -/
def acknowledgementKey : JsString := js "nonPersonalTestDataAcknowledged"

/-- `new Error('LOCAL_PAYLOAD_STORE_RECORD_INVALID')` -/
def recordInvalid {α : Type} : Except LocalPayloadError α :=
  .error (.failed (js "LOCAL_PAYLOAD_STORE_RECORD_INVALID"))

/-- `parsed.version === 1` -/
def isVersionOne : Option JsValue → Bool
  | some (.num n) => decide (n = .ofNat 1)
  | _ => false

/-- The acknowledgement of a record; `none` where it is there and is not `true`. -/
def readAcknowledgement : Option JsValue → Option Bool
  | none => some false
  | some (.bool true) => some true
  | _ => none

/-- `parseStoredPayload` of the members of an object. -/
def parseStoredMembers (members : Members) : Except LocalPayloadError StoredLocalPayload :=
  match members.lookup (js "content"), members.lookup (js "createdAt"),
      members.lookup (js "expiresAt"), readAcknowledgement (members.lookup acknowledgementKey) with
  | some (.str content), some (.str createdAt), some (.str expiresAt), some acknowledged =>
      match dateParse B createdAt, dateParse B expiresAt with
      | some created, some expires =>
          if isVersionOne (members.lookup (js "version"))
              && expires - created == localPayloadStoreTtlMs then
            .ok { members, content, createdAt, expiresAt, acknowledged }
          else recordInvalid
      | _, _ => recordInvalid
  | _, _, _, _ => recordInvalid

/-- `parseStoredPayload`.  Whatever is wrong with a record, the same error is thrown. -/
def parseStoredPayload (value : JsString) : Except LocalPayloadError StoredLocalPayload :=
  match jsonParse value with
  | some (.obj members) => parseStoredMembers B members
  | _ => recordInvalid

/-- What `inspectCanonicalPayload` answers. -/
structure InspectedPayload where
  credentialUri : JsString
  byteLength : ℕ
  deriving DecidableEq

/-- `new Error('LOCAL_PAYLOAD_NOT_CANONICAL_JCS')` -/
def notCanonical {α : Type} : Except LocalPayloadError α :=
  .error (.failed (js "LOCAL_PAYLOAD_NOT_CANONICAL_JCS"))

/-- The `try` of `inspectCanonicalPayload`. -/
def parseCanonical (P : Platform) (content : JsString) : Except LocalPayloadError JsValue :=
  match parseCanonicalText P content with
  | .ok parsed => .ok parsed
  | .error _ => notCanonical
where
  parseCanonicalText (P : Platform) (content : JsString) : Except Thrown JsValue := do
    let parsed ← parseJson content
    let canonical ← canonicalJson P parsed
    if canonical ≠ content then .error (.error (js "not canonical"))
    else pure parsed

/-- `inspectCanonicalPayload` -/
def inspectCanonicalPayload (content : JsString) (acknowledged : Bool) :
    Except LocalPayloadError InspectedPayload := do
  let byteLength := (encodeUtf8 content).length
  if byteLength = 0 ∨ localPayloadStoreMaxBytes < byteLength then
    .error (.failed (js "LOCAL_PAYLOAD_SIZE_INVALID"))
  let parsed ← parseCanonical P content
  match findSensitiveFieldPath B parsed (js "$"), acknowledged with
  | some path, false => .error (.piiField path)
  | _, _ => do
      let credentialUri ← ofThrown (createIpfsPayloadUri P (.text content))
      pure { credentialUri, byteLength }

/-- The body of the `try` of `removeExpired`, and its `catch`: whether an entry is removed. -/
def isRemovable (nowMs : ℤ) (value : JsString) : Bool :=
  match parseStoredPayload B value with
  | .ok record => (dateParse B record.expiresAt).any (· ≤ nowMs)
  | .error _ => true

/-- One round of `removeExpired`. -/
def removeIfExpired (nowMs : ℤ) (s : LocalStorage) (key : JsString) : LocalStorage :=
  match s.getItem key with
  | none => s
  | some value => if isRemovable B nowMs value then s.removeItem key else s

/-- `removeExpired` -/
def removeExpired (E : StorageBehaviour) (nowMs : ℤ) (s : LocalStorage) : LocalStorage :=
  (localStoreKeys E s).foldl (removeIfExpired B nowMs) s

/-! ## Storing -/

/-- `date.toISOString()`; a date outside the range of time values is an invalid date. -/
def dateToIso (time : ℤ) : Except LocalPayloadError JsString :=
  if isTimeValue time then .ok (toISOString time) else .error .invalidDate

/-- `LocalPayloadPublication` -/
structure LocalPayloadPublication where
  credentialUri : JsString
  digestHex : JsString
  byteLength : ℕ
  createdAt : JsString
  expiresAt : JsString
  deriving DecidableEq

/-- The payload that is stored: what its inspection found, and the parts of its URI. -/
structure StoringPayload where
  content : JsString
  acknowledged : Bool
  inspected : InspectedPayload
  cid : JsString
  digestHex : JsString

/-- The checks of `storeLocalTestPayload` before it turns to the storage. -/
def prepareStoring (content : JsString) (acknowledged : Bool) :
    Except LocalPayloadError StoringPayload := do
  let inspected ← inspectCanonicalPayload B content acknowledged
  let parsedUri ← ofThrown (parsePayloadUri P inspected.credentialUri)
  match parsedUri with
  | .ipfs _ cid digestHex => pure { content, acknowledged, inspected, cid, digestHex }
  | .https _ _ _ => .error (.failed (js "LOCAL_PAYLOAD_URI_INVALID"))

/-- What is returned of a payload with its dates. -/
def StoringPayload.publication (payload : StoringPayload) (createdAt expiresAt : JsString) :
    LocalPayloadPublication where
  credentialUri := payload.inspected.credentialUri
  digestHex := payload.digestHex
  byteLength := payload.inspected.byteLength
  createdAt := createdAt
  expiresAt := expiresAt

/-- `JSON.stringify({ ...record, nonPersonalTestDataAcknowledged: true })` -/
def acknowledgedText (record : StoredLocalPayload) : JsString :=
  render (.obj (setMember record.members (acknowledgementKey, .bool true)))

/-- The body of the `try` of `storeLocalTestPayload` for an entry that is there. -/
def reuseRecord (E : StorageBehaviour) (payload : StoringPayload) (existing : JsString)
    (s : LocalStorage) : Except LocalPayloadError StoredLocalPayload × LocalStorage :=
  match parseStoredPayload B existing with
  | .error e => (.error e, s)
  | .ok record =>
      if record.content ≠ payload.content then
        (.error (.failed (js "LOCAL_PAYLOAD_DIGEST_COLLISION")), s)
      else if payload.acknowledged && !record.acknowledged then
        match s.setItem E (storageKey payload.cid) (acknowledgedText record) with
        | .ok s' => (.ok record, s')
        | .error e => (.error e, s)
      else (.ok record, s)

/-- The text of a new record. -/
def recordText (payload : StoringPayload) (createdAt expiresAt : JsString) : JsString :=
  render (.obj ([(js "version", .num (.ofNat 1)), (js "content", .str payload.content),
    (js "createdAt", .str createdAt), (js "expiresAt", .str expiresAt)]
      ++ if payload.acknowledged then [(acknowledgementKey, .bool true)] else []))

/-- The end of `storeLocalTestPayload`: a new record, when there is room for one. -/
def writeRecord (E : StorageBehaviour) (payload : StoringPayload) (nowMs : ℤ) (s : LocalStorage) :
    Except LocalPayloadError LocalPayloadPublication × LocalStorage :=
  if localPayloadStoreMaxEntries ≤ (localStoreKeys E s).length then
    (.error (.failed (js "LOCAL_PAYLOAD_STORE_QUOTA_EXCEEDED")), s)
  else
    match dateToIso nowMs, dateToIso (nowMs + localPayloadStoreTtlMs) with
    | .ok createdAt, .ok expiresAt =>
        match s.setItem E (storageKey payload.cid) (recordText payload createdAt expiresAt) with
        | .ok s' => (.ok (payload.publication createdAt expiresAt), s')
        | .error _ => (.error (.failed (js "LOCAL_PAYLOAD_STORE_WRITE_FAILED")), s)
    | _, _ => (.error .invalidDate, s)

/-- `storeLocalTestPayload` after the removal of what has expired. -/
def storePayload (E : StorageBehaviour) (payload : StoringPayload) (nowMs : ℤ) (s : LocalStorage) :
    Except LocalPayloadError LocalPayloadPublication × LocalStorage :=
  match s.getItem (storageKey payload.cid) with
  | none => writeRecord E payload nowMs s
  | some existing =>
      match reuseRecord B E payload existing s with
      | (.ok record, s') => (.ok (payload.publication record.createdAt record.expiresAt), s')
      | (.error e, s') =>
          if e.isDigestCollision then (.error e, s')
          else writeRecord E payload nowMs (s'.removeItem (storageKey payload.cid))

/-- `storeLocalTestPayload`; a time that is not finite is `none`. -/
def storeLocalTestPayload (E : StorageBehaviour) (content : JsString) (acknowledged : Bool)
    (now : Option ℤ) (s : LocalStorage) :
    Except LocalPayloadError LocalPayloadPublication × LocalStorage :=
  match now with
  | none => (.error (.failed (js "LOCAL_PAYLOAD_STORE_TIME_INVALID")), s)
  | some nowMs =>
      match prepareStoring B content acknowledged with
      | .error e => (.error e, s)
      | .ok payload => storePayload B E payload nowMs (removeExpired B E nowMs s)

/-! ## Reading and clearing -/

/-- `LocalPayloadRead` -/
structure LocalPayloadRead where
  content : JsString
  fetchUrl : JsString
  digestHex : JsString
  byteLength : ℕ
  checkedAt : JsString
  deriving DecidableEq

/-- `new Error('LOCAL_PAYLOAD_DIGEST_MISMATCH')` -/
def digestMismatch {α : Type} : Except LocalPayloadError α :=
  .error (.failed (js "LOCAL_PAYLOAD_DIGEST_MISMATCH"))

/-- The checks of `readLocalTestPayload` on a record that has not expired. -/
def checkRecord (record : StoredLocalPayload) (credentialUri : JsString) (nowMs : ℤ) :
    Except LocalPayloadError LocalPayloadRead := do
  let inspected ← inspectCanonicalPayload B record.content record.acknowledged
  if inspected.credentialUri ≠ credentialUri then digestMismatch
  let integrity ← ofThrown (verifyPayloadIntegrity P (.text record.content) credentialUri)
  if !integrity.valid then digestMismatch
  let checkedAt ← dateToIso nowMs
  pure
    { content := record.content
      fetchUrl := credentialUri
      digestHex := integrity.actualDigestHex
      byteLength := inspected.byteLength
      checkedAt }

/-- `readLocalTestPayload` of an entry. -/
def readEntry (key value credentialUri : JsString) (now : Option ℤ) (s : LocalStorage) :
    Except LocalPayloadError LocalPayloadRead × LocalStorage :=
  match parseStoredPayload B value with
  | .error e => (.error e, s.removeItem key)
  | .ok record =>
      match now with
      | none => (.error (.failed (js "LOCAL_PAYLOAD_STORE_TIME_INVALID")), s)
      | some nowMs =>
          if (dateParse B record.expiresAt).any (· ≤ nowMs) then
            (.error (.failed (js "LOCAL_PAYLOAD_EXPIRED")), s.removeItem key)
          else (checkRecord B record credentialUri nowMs, s)

/-- `readLocalTestPayload` -/
def readLocalTestPayload (credentialUri : JsString) (now : Option ℤ) (s : LocalStorage) :
    Except LocalPayloadError LocalPayloadRead × LocalStorage :=
  match parsePayloadUri P credentialUri with
  | .error e => (.error (.core e), s)
  | .ok (.https _ _ _) => (.error (.failed (js "LOCAL_PAYLOAD_IPFS_URI_REQUIRED")), s)
  | .ok (.ipfs _ cid _) =>
      match s.getItem (storageKey cid) with
      | none => (.error (.failed (js "LOCAL_PAYLOAD_NOT_FOUND")), s)
      | some value => readEntry B (storageKey cid) value credentialUri now s

/-- `clearLocalTestPayloads` -/
def clearLocalTestPayloads (E : StorageBehaviour) (s : LocalStorage) : ℕ × LocalStorage :=
  ((localStoreKeys E s).length,
    (localStoreKeys E s).foldl (fun s key => s.removeItem key) s)

/-! ## Runs -/

/-- A call of one of the three functions. -/
inductive LocalOperation where
  | store (content : JsString) (acknowledged : Bool)
  | read (credentialUri : JsString)
  | clear
  deriving DecidableEq

/-- A call, the time it reads and what the storage does meanwhile. -/
structure LocalStep where
  operation : LocalOperation
  now : ℤ
  isTime : isTimeValue now = true
  storage : StorageBehaviour

/-- What a call returns or throws. -/
inductive LocalOutcome where
  | stored (result : Except LocalPayloadError LocalPayloadPublication)
  | read (result : Except LocalPayloadError LocalPayloadRead)
  | cleared (count : ℕ)

/-- A call on a storage. -/
def LocalStep.perform (step : LocalStep) (s : LocalStorage) : LocalOutcome × LocalStorage :=
  match step.operation with
  | .store content acknowledged =>
      let r := storeLocalTestPayload B step.storage content acknowledged (some step.now) s
      (.stored r.1, r.2)
  | .read credentialUri =>
      let r := readLocalTestPayload B credentialUri (some step.now) s
      (.read r.1, r.2)
  | .clear =>
      let r := clearLocalTestPayloads step.storage s
      (.cleared r.1, r.2)

/-- The storage after a run of calls. -/
def storageAfter (s : LocalStorage) (steps : List LocalStep) : LocalStorage :=
  steps.foldl (fun s step => (step.perform B s).2) s

end Web
end Xcs
