import Xcs.Core.Claims
import Xcs.Core.PayloadUri
import Xcs.Json.Bytes

/-!
# Credential payloads

A credential on the ledger names its payload by a URI that commits to a digest.
`verifyCredentialPayload` takes what was retrieved from there and returns one of four verdicts.
Every refusal inside is an `XcsError`, which becomes the verdict `invalid`; anything else that is
thrown is thrown again.

* `IsCredentialPayload` says which bytes are a payload for a context: the canonical JSON of the
  envelope with the issuer, the subject and the schema of the context, and claims that conform.
* `Classified` says what the four verdicts mean.
* `Misread` is what goes wrong: `assertWellFormed` accepts a string that ends in an unpaired high
  surrogate, and RFC 8785 has no text for it.  Canonical JSON is always the JSON of well-formed
  strings, so such content is no payload; the serialiser either refuses it with an error of its own,
  which nothing catches, or writes the escape back.
-/

namespace Xcs
namespace Core

open Js Json

/-! ## Content -/

/-- Retrieved content: a text or bytes. -/
inductive PayloadContent where
  | text (text : JsString)
  | bytes (bytes : List UInt8)
  deriving DecidableEq

/-- `MAX_PAYLOAD_BYTES` -/
def maxPayloadBytes : ℕ := 1024 * 1024

/-- `fail` with the code `INVALID_CREDENTIAL_PAYLOAD`. -/
def invalidCredentialPayload {α : Type} (message path : JsString)
    (details : List (JsString × JsString)) : Except Thrown α :=
  failXcs .invalidCredentialPayload message path details

/-- The bytes, unless there are too many. -/
def assertPayloadSize (bytes : List UInt8) : Except Thrown (List UInt8) :=
  if maxPayloadBytes < bytes.length then
    invalidCredentialPayload (js "Payload exceeds 1 MiB") (js "$payload")
      [(js "size", natToString bytes.length)]
  else .ok bytes

/-- `payloadBytes` -/
def payloadBytes : PayloadContent → Except Thrown (List UInt8)
  | .text text => do
      let _ ← utf8ByteLength text
      assertPayloadSize (encodeUtf8 text)
  | .bytes bytes => assertPayloadSize bytes

/-- `payloadDigest` -/
def payloadDigest (P : Platform) (content : PayloadContent) : Except Thrown JsString := do
  let bytes ← payloadBytes content
  pure (bytesToHex (P.sha256 bytes))

/-- `PayloadIntegrityResult` -/
structure PayloadIntegrityResult where
  valid : Bool
  expectedDigestHex : JsString
  actualDigestHex : JsString

/-- `verifyPayloadIntegrity` -/
def verifyPayloadIntegrity (P : Platform) (content : PayloadContent) (uri : JsString) :
    Except Thrown PayloadIntegrityResult := do
  let target ← parsePayloadUri P uri
  let actualDigestHex ← payloadDigest P content
  pure { valid := target.digestHex == actualDigestHex, expectedDigestHex := target.digestHex,
         actualDigestHex }

/-! ## The envelope -/

/-- `CredentialContext` -/
structure CredentialContext where
  issuer : JsString
  subject : JsString
  schemaUid : JsString
  fields : SchemaFields

/-- `CredentialPayload`; its `xcsVersion` is always `0.1`. -/
structure CredentialPayload where
  issuer : JsString
  subject : JsString
  schema : JsString
  claims : JsValue

/-- `PAYLOAD_PROPERTIES` -/
def payloadProperties : List JsString :=
  [js "xcsVersion", js "issuer", js "subject", js "schema", js "claims"]

/-- `if (!condition) fail('INVALID_CREDENTIAL_PAYLOAD', message, path)` -/
def requirePayload (condition : Bool) (message path : JsString) : Except Thrown Unit :=
  if condition then .ok () else invalidCredentialPayload message path []

/-- `assertContext`; that the fields are a record is their type. -/
def assertContext (P : Platform) (context : CredentialContext) : Except Thrown Unit := do
  requirePayload (P.isValidClassicAddress context.issuer) (js "Invalid issuer address")
    (js "$context.issuer")
  requirePayload (P.isValidClassicAddress context.subject) (js "Invalid subject address")
    (js "$context.subject")
  requirePayload (isLowerHash context.schemaUid) (js "Invalid schema UID")
    (js "$context.schemaUid")

/-- The loop of `parsePayload` over the properties. -/
def rejectUnknownProperties (members : Members) : Except Thrown Unit :=
  match members.find? fun m => decide (m.1 ∉ payloadProperties) with
  | some m =>
      invalidCredentialPayload (js "Unknown property " ++ m.1) (js "$." ++ m.1) []
  | none => .ok ()

/-- `parsePayload` -/
def parsePayload (P : Platform) (input : JsValue) (context : CredentialContext) :
    Except Thrown CredentialPayload := do
  assertContext P context
  match input with
  | .obj members => do
      rejectUnknownProperties members
      requirePayload ((input.get (js "xcsVersion")).isStr (js "0.1"))
        (js "Unsupported XCS version") (js "$.xcsVersion")
      requirePayload ((input.get (js "issuer")).isStr context.issuer)
        (js "Issuer does not match the credential") (js "$.issuer")
      requirePayload ((input.get (js "subject")).isStr context.subject)
        (js "Subject does not match the credential") (js "$.subject")
      requirePayload ((input.get (js "schema")).isStr context.schemaUid)
        (js "Schema does not match CredentialType") (js "$.schema")
      let claims ← parseClaims P (input.get (js "claims")) context.fields
      pure { issuer := context.issuer, subject := context.subject, schema := context.schemaUid,
             claims }
  | _ => invalidCredentialPayload (js "Credential payload must be an object") (js "$") []

/-- `parseCredentialPayload` -/
def parseCredentialPayload (P : Platform) (content : PayloadContent)
    (context : CredentialContext) : Except Thrown CredentialPayload := do
  let bytes ← payloadBytes content
  let input ← parseCanonicalBytes P bytes
  parsePayload P input context

/-! ## The verdict -/

/-- `PayloadRetrieval` -/
inductive PayloadRetrieval where
  | retrieved (content : PayloadContent)
  | unavailable

/-- `CredentialPayloadStatus` -/
inductive CredentialPayloadStatus where
  | valid
  | unavailable
  | tampered
  | invalid
  deriving DecidableEq

/-- The `try` block of `verifyCredentialPayload`. -/
def checkCredentialPayload (P : Platform) (retrieval : PayloadRetrieval) (uri : JsString)
    (context : CredentialContext) : Except Thrown CredentialPayloadStatus := do
  let _ ← parsePayloadUri P uri
  match retrieval with
  | .unavailable => pure .unavailable
  | .retrieved content => do
      let integrity ← verifyPayloadIntegrity P content uri
      if integrity.valid then do
        let _ ← parseCredentialPayload P content context
        pure .valid
      else pure .tampered

/-- `verifyCredentialPayload` -/
def verifyCredentialPayload (P : Platform) (retrieval : PayloadRetrieval) (uri : JsString)
    (context : CredentialContext) : Except Thrown CredentialPayloadStatus :=
  match checkCredentialPayload P retrieval uri context with
  | .error (.xcs _) => .ok .invalid
  | result => result

/-! ## What the verdicts mean -/

/-- The bytes of content; those of a text are its UTF-8. -/
def PayloadContent.toBytes : PayloadContent → List UInt8
  | .text s => encodeUtf8 s
  | .bytes bs => bs

/-- Content of admissible size; a text has a size when it is one that `utf8ByteLength` measures. -/
def PayloadContent.isAdmissible : PayloadContent → Bool
  | .text s => isAccepted s && decide ((encodeUtf8 s).length ≤ maxPayloadBytes)
  | .bytes bs => decide (bs.length ≤ maxPayloadBytes)

/-- The envelope for a context: the five members with the values of the context, and claims that
conform to its fields. -/
structure IsEnvelope (P : Platform) (context : CredentialContext) (v : JsValue) : Prop where
  issuer_valid : P.isValidClassicAddress context.issuer = true
  subject_valid : P.isValidClassicAddress context.subject = true
  schemaUid_valid : isLowerHash context.schemaUid = true
  properties : ∃ members, v = .obj members ∧ ∀ m ∈ members, m.1 ∈ payloadProperties
  xcsVersion : v.get (js "xcsVersion") = .str (js "0.1")
  issuer : v.get (js "issuer") = .str context.issuer
  subject : v.get (js "subject") = .str context.subject
  schema : v.get (js "schema") = .str context.schemaUid
  claims : ClaimsConform P context.fields (v.get (js "claims"))

/-- The JSON values RFC 8785 has a text for. -/
structure IsCanonicalizable (v : JsValue) : Prop where
  isJson : v.isJson = true
  distinctKeys : v.distinctKeys = true
  isWellFormed : v.allStrings isWellFormed = true

/-- The bytes are the canonical JSON of the envelope. -/
def IsCredentialPayload (P : Platform) (context : CredentialContext) (bytes : List UInt8) : Prop :=
  ∃ v, IsCanonicalizable v ∧ IsEnvelope P context v ∧ bytes = encodeUtf8 (canonicalText v)

/-- The URI is acceptable and content of admissible size was retrieved, with a digest that is, or is
not, the one the URI commits to. -/
def Retrieved (P : Platform) (retrieval : PayloadRetrieval) (uri : JsString) (digestEq : Bool)
    (bytes : List UInt8) : Prop :=
  ∃ target content, parsePayloadUri P uri = .ok target ∧ retrieval = .retrieved content ∧
    content.isAdmissible = true ∧ bytes = content.toBytes ∧
      (target.digestHex == bytesToHex (P.sha256 bytes)) = digestEq

/-- **The classification.**  The function returns a verdict, the verdict says of the URI, the
retrieval and the content what it is to say, and no payload of another issuer, subject or schema is
`valid`. -/
def Classified (P : Platform) (retrieval : PayloadRetrieval) (uri : JsString)
    (context : CredentialContext) : Prop :=
  ∃ status, verifyCredentialPayload P retrieval uri context = .ok status ∧
    (status = .valid ↔ ∃ bytes, Retrieved P retrieval uri true bytes ∧
      IsCredentialPayload P context bytes) ∧
    (status = .unavailable ↔ (∃ target, parsePayloadUri P uri = .ok target) ∧
      retrieval = .unavailable) ∧
    (status = .tampered ↔ ∃ bytes, Retrieved P retrieval uri false bytes) ∧
    (status = .valid → ∀ content text v, retrieval = .retrieved content →
      decodeUtf8 content.toBytes = some text → parseJson text = .ok v →
        v.get (js "issuer") = .str context.issuer ∧ v.get (js "subject") = .str context.subject ∧
          v.get (js "schema") = .str context.schemaUid)

/-- Bytes whose JSON has a string that is not well formed and passes the checks all the same: the
serialiser refuses it, or the bytes are what it writes and everything else is as it should be. -/
def Misread (P : Platform) (context : CredentialContext) (bytes : List UInt8) : Prop :=
  ∃ text v, decodeUtf8 bytes = some text ∧ parseJson text = .ok v ∧
    v.allStrings isWellFormed = false ∧
      (P.escapesLoneSurrogates = true → canonicalText v = text ∧ IsEnvelope P context v)

variable {P : Platform} {context : CredentialContext}

/-! ## The parts -/

theorem assertPayloadSize_eq_ok {bytes result : List UInt8} :
    assertPayloadSize bytes = .ok result ↔ bytes.length ≤ maxPayloadBytes ∧ result = bytes := by
  unfold assertPayloadSize
  split_ifs with h
  · exact ⟨fun hok => (by cases hok), fun hok => (by omega)⟩
  · rw [Except.ok.injEq]
    exact ⟨fun hok => ⟨by omega, hok.symm⟩, fun hok => hok.2.symm⟩

/-- Content of admissible size is the content `payloadBytes` returns the bytes of. -/
theorem payloadBytes_eq_ok {content : PayloadContent} {bytes : List UInt8} :
    payloadBytes content = .ok bytes ↔ content.isAdmissible = true ∧ bytes = content.toBytes := by
  cases content with
  | text s =>
      simp only [payloadBytes, utf8ByteLength, bind_eq_ok, assertWellFormed_eq_ok, exists_const,
        assertPayloadSize_eq_ok, PayloadContent.isAdmissible, PayloadContent.toBytes,
        Bool.and_eq_true, decide_eq_true_eq]
      constructor
      · rintro ⟨_, ⟨haccepted, -⟩, hsize, hbytes⟩
        exact ⟨⟨haccepted, hsize⟩, hbytes⟩
      · rintro ⟨⟨haccepted, hsize⟩, hbytes⟩
        exact ⟨_, ⟨haccepted, rfl⟩, hsize, hbytes⟩
  | bytes bs =>
      simp only [payloadBytes, assertPayloadSize_eq_ok, PayloadContent.isAdmissible,
        PayloadContent.toBytes, decide_eq_true_eq]

theorem onlyXcs_assertPayloadSize (bytes : List UInt8) : OnlyXcs (assertPayloadSize bytes) := by
  unfold assertPayloadSize
  split_ifs
  · exact onlyXcs_failXcs _ _ _ _
  · exact onlyXcs_ok _

theorem onlyXcs_payloadBytes (content : PayloadContent) : OnlyXcs (payloadBytes content) := by
  cases content with
  | text s => exact (onlyXcs_utf8ByteLength s).bind fun _ _ => onlyXcs_assertPayloadSize _
  | bytes bs => exact onlyXcs_assertPayloadSize bs

theorem requirePayload_eq_ok {condition : Bool} {message path : JsString} {u : Unit} :
    requirePayload condition message path = .ok u ↔ condition = true := by
  unfold requirePayload
  cases condition <;> simp [invalidCredentialPayload, failXcs]

theorem onlyXcs_requirePayload (condition : Bool) (message path : JsString) :
    OnlyXcs (requirePayload condition message path) := by
  unfold requirePayload
  split_ifs
  · exact onlyXcs_ok _
  · exact onlyXcs_failXcs _ _ _ _

theorem rejectUnknownProperties_eq_ok {members : Members} {u : Unit} :
    rejectUnknownProperties members = .ok u ↔ ∀ m ∈ members, m.1 ∈ payloadProperties := by
  unfold rejectUnknownProperties
  split
  · rename_i m hm
    refine ⟨fun h => (by cases h), fun h => ?_⟩
    have hunknown := List.find?_some hm
    rw [decide_eq_true_eq] at hunknown
    exact absurd (h m (List.mem_of_find?_eq_some hm)) hunknown
  · rename_i hnone
    refine ⟨fun _ m hm => ?_, fun _ => rfl⟩
    have hknown := List.find?_eq_none.mp hnone m hm
    rwa [decide_eq_true_eq, not_not] at hknown

theorem onlyXcs_rejectUnknownProperties (members : Members) :
    OnlyXcs (rejectUnknownProperties members) := by
  unfold rejectUnknownProperties
  split
  · exact onlyXcs_failXcs _ _ _ _
  · exact onlyXcs_ok _

theorem assertContext_eq_ok {u : Unit} : assertContext P context = .ok u ↔
    P.isValidClassicAddress context.issuer = true ∧
      P.isValidClassicAddress context.subject = true ∧ isLowerHash context.schemaUid = true := by
  simp only [assertContext, bind_eq_ok, requirePayload_eq_ok, exists_const]

/-- **The parser accepts the envelope**, and nothing else. -/
theorem parsePayload_eq_ok {v : JsValue} :
    (∃ r, parsePayload P v context = .ok r) ↔ IsEnvelope P context v := by
  simp only [parsePayload, bind_eq_ok, assertContext_eq_ok, exists_const, exists_and_left]
  cases v with
  | obj members =>
      simp only [bind_eq_ok, rejectUnknownProperties_eq_ok, requirePayload_eq_ok, exists_const,
        JsValue.isStr_iff, pure_eq_ok]
      constructor
      · rintro ⟨⟨hissuer, hsubject, hschema⟩, _, hknown, hversion, hi, hs, hu, claims, hclaims, -⟩
        exact ⟨hissuer, hsubject, hschema, ⟨members, rfl, hknown⟩, hversion, hi, hs, hu,
          parseClaims_eq_ok.mp ⟨claims, hclaims⟩⟩
      · rintro ⟨hissuer, hsubject, hschema, ⟨_, hmembers, hknown⟩, hversion, hi, hs, hu, hclaims⟩
        cases hmembers
        obtain ⟨claims, hclaims⟩ := parseClaims_eq_ok.mpr hclaims
        exact ⟨⟨hissuer, hsubject, hschema⟩, _, hknown, hversion, hi, hs, hu, claims, hclaims, rfl⟩
  | _ =>
      constructor
      · rintro ⟨-, r, hr⟩
        cases hr
      · intro henvelope
        obtain ⟨members, hmembers, -⟩ := henvelope.properties
        cases hmembers

theorem onlyXcs_parsePayload (v : JsValue) : OnlyXcs (parsePayload P v context) := by
  have hcontext : OnlyXcs (assertContext P context) :=
    (onlyXcs_requirePayload _ _ _).bind fun _ _ =>
      (onlyXcs_requirePayload _ _ _).bind fun _ _ => onlyXcs_requirePayload _ _ _
  refine hcontext.bind fun _ _ => ?_
  cases v with
  | obj members =>
      exact (onlyXcs_rejectUnknownProperties members).bind fun _ _ =>
        (onlyXcs_requirePayload _ _ _).bind fun _ _ =>
        (onlyXcs_requirePayload _ _ _).bind fun _ _ =>
        (onlyXcs_requirePayload _ _ _).bind fun _ _ =>
        (onlyXcs_requirePayload _ _ _).bind fun _ _ =>
        (onlyXcs_parseClaims _ _).bind fun _ _ => onlyXcs_ok _
  | _ => exact onlyXcs_failXcs _ _ _ _

/-! ## Canonical bytes -/

/-- Whether a value is the envelope does not depend on the order of members. -/
theorem IsEnvelope.of_canon_eq {v w : JsValue} (h : IsEnvelope P context v)
    (hcanon : w.canon = v.canon) : IsEnvelope P context w := by
  have hget : ∀ key s, v.get key = .str s → w.get key = .str s := by
    intro key s hs
    have hkey := JsValue.get_eq_of_canon_eq hcanon key
    rw [hs, JsValue.canon_str] at hkey
    exact JsValue.canon_eq_str.mp hkey
  refine ⟨h.issuer_valid, h.subject_valid, h.schemaUid_valid, ?_, hget _ _ h.xcsVersion,
    hget _ _ h.issuer, hget _ _ h.subject, hget _ _ h.schema, ?_⟩
  · obtain ⟨members, rfl, hknown⟩ := h.properties
    obtain ⟨others, rfl, hkeys⟩ := JsValue.exists_obj_of_canon_eq hcanon
    refine ⟨others, rfl, fun m hm => ?_⟩
    obtain ⟨n, hn, hmn⟩ := hkeys m hm
    rw [← hmn]
    exact hknown n hn
  · have hclaims := h.claims
    unfold ClaimsConform at hclaims ⊢
    rwa [← conforms_canon, JsValue.get_eq_of_canon_eq hcanon, conforms_canon]

/-- **The payload as the parser meets it**: bytes that decode to a text, which parses to an envelope
of well-formed strings whose canonical text it is. -/
theorem isCredentialPayload_iff {bytes : List UInt8} : IsCredentialPayload P context bytes ↔
    ∃ text v, decodeUtf8 bytes = some text ∧ parseJson text = .ok v ∧
      v.allStrings isWellFormed = true ∧ canonicalText v = text ∧ IsEnvelope P context v := by
  constructor
  · rintro ⟨v, hv, henvelope, rfl⟩
    have haccepted := JsValue.allStrings_imp (fun _ => isAccepted_of_isWellFormed) hv.isWellFormed
    obtain ⟨w, hparse, hcanon⟩ := parseJson_canonicalText hv.isJson hv.distinctKeys haccepted
    refine ⟨canonicalText v, w, decodeUtf8_canonicalText v, hparse, ?_,
      canonicalText_eq_of_canon_eq hcanon, henvelope.of_canon_eq hcanon⟩
    rw [← JsValue.allStrings_canon, hcanon, JsValue.allStrings_canon]
    exact hv.isWellFormed
  · rintro ⟨text, v, hdecode, hparse, hstrings, htext, henvelope⟩
    obtain ⟨hjson, hkeys, -⟩ := parseJson_distinctKeys hparse
    refine ⟨v, ⟨hjson, hkeys, hstrings⟩, henvelope, ?_⟩
    rw [htext]
    exact (decodeUtf8_eq_some hdecode).2.symm

/-- What the parser of content accepts. -/
theorem parseCredentialPayload_eq_ok {content : PayloadContent} :
    (∃ r, parseCredentialPayload P content context = .ok r) ↔
      content.isAdmissible = true ∧ ∃ text v, decodeUtf8 content.toBytes = some text ∧
        parseJson text = .ok v ∧ isWritable P v = true ∧ canonicalText v = text ∧
          IsEnvelope P context v := by
  simp only [parseCredentialPayload, bind_eq_ok, payloadBytes_eq_ok, parseCanonicalBytes_eq_ok]
  constructor
  · rintro ⟨r, _, ⟨hadmissible, rfl⟩, v, ⟨text, hdecode, hparse, hwritable, htext⟩, hr⟩
    exact ⟨hadmissible, text, v, hdecode, hparse, hwritable, htext, parsePayload_eq_ok.mp ⟨r, hr⟩⟩
  · rintro ⟨hadmissible, text, v, hdecode, hparse, hwritable, htext, henvelope⟩
    obtain ⟨r, hr⟩ := parsePayload_eq_ok.mpr henvelope
    exact ⟨r, _, ⟨hadmissible, rfl⟩, v, ⟨text, hdecode, hparse, hwritable, htext⟩, hr⟩

/-! ## Unpaired surrogates -/

/-- Where nothing is misread, the parser accepts the payloads. -/
theorem parseCredentialPayload_eq_ok_of_not_misread {content : PayloadContent}
    (hmisread : ¬Misread P context content.toBytes) :
    (∃ r, parseCredentialPayload P content context = .ok r) ↔
      content.isAdmissible = true ∧ IsCredentialPayload P context content.toBytes := by
  rw [parseCredentialPayload_eq_ok, isCredentialPayload_iff]
  refine and_congr_right fun _ => ?_
  constructor
  · rintro ⟨text, v, hdecode, hparse, -, htext, henvelope⟩
    cases hstrings : v.allStrings isWellFormed with
    | true => exact ⟨text, v, hdecode, hparse, hstrings, htext, henvelope⟩
    | false =>
        exact absurd ⟨text, v, hdecode, hparse, hstrings, fun _ => ⟨htext, henvelope⟩⟩ hmisread
  · rintro ⟨text, v, hdecode, hparse, hstrings, htext, henvelope⟩
    exact ⟨text, v, hdecode, hparse,
      isWritable_of_isWellFormed (parseJson_distinctKeys hparse).1 hstrings, htext, henvelope⟩

/-- Where nothing is misread, the parser throws nothing but errors of the protocol. -/
theorem onlyXcs_parseCredentialPayload {content : PayloadContent}
    (hmisread : ¬Misread P context content.toBytes) :
    OnlyXcs (parseCredentialPayload P content context) := by
  refine (onlyXcs_payloadBytes content).bind fun bytes hbytes => ?_
  obtain ⟨-, rfl⟩ := payloadBytes_eq_ok.mp hbytes
  refine OnlyXcs.bind ?_ fun v _ => onlyXcs_parsePayload v
  unfold parseCanonicalBytes
  cases hdecode : decodeUtf8 content.toBytes with
  | none => exact onlyXcs_failXcs _ _ _ _
  | some text =>
      refine (onlyXcs_parseJson text).bind fun v hparse => ?_
      -- The serialiser meets a lone surrogate only in what is misread.
      have hserialiser : P.escapesLoneSurrogates = true ∨ v.allStrings isWellFormed = true := by
        by_contra hnot
        rw [not_or, Bool.not_eq_true, Bool.not_eq_true] at hnot
        refine hmisread ⟨text, v, hdecode, hparse, hnot.2, fun hescapes => ?_⟩
        rw [hnot.1] at hescapes
        cases hescapes
      refine (onlyXcs_canonicalJson hserialiser).bind fun canonical _ => ?_
      have hrest : OnlyXcs (assertJsonValue v >>= fun _ => pure v) :=
        (onlyXcs_assertJsonValue v).bind fun _ _ => onlyXcs_ok _
      by_cases htext : canonical = text
      · rw [if_neg (not_not.mpr htext)]
        exact (onlyXcs_ok ()).bind fun _ _ => hrest
      · rw [if_pos htext]
        exact (onlyXcs_failXcs _ _ _ _).bind fun _ _ => hrest

/-- What is misread is no payload. -/
theorem Misread.not_isCredentialPayload {bytes : List UInt8} (h : Misread P context bytes) :
    ¬IsCredentialPayload P context bytes := by
  obtain ⟨text, v, hdecode, hparse, hstrings, -⟩ := h
  rw [isCredentialPayload_iff]
  rintro ⟨text', v', hdecode', hparse', hstrings', -⟩
  rw [hdecode, Option.some.injEq] at hdecode'
  subst hdecode'
  rw [hparse, Except.ok.injEq] at hparse'
  subst hparse'
  rw [hstrings] at hstrings'
  cases hstrings'

/-- A serialiser that writes the escape accepts what is misread. -/
theorem Misread.parseCredentialPayload_eq_ok {content : PayloadContent}
    (h : Misread P context content.toBytes) (hadmissible : content.isAdmissible = true)
    (hescapes : P.escapesLoneSurrogates = true) :
    ∃ r, parseCredentialPayload P content context = .ok r := by
  obtain ⟨text, v, hdecode, hparse, -, hrest⟩ := h
  obtain ⟨htext, henvelope⟩ := hrest hescapes
  obtain ⟨hjson, -, haccepted⟩ := parseJson_distinctKeys hparse
  have hwritable : isWritable P v = true := by
    unfold isWritable
    rw [hjson, haccepted, hescapes]
    rfl
  exact Core.parseCredentialPayload_eq_ok.mpr
    ⟨hadmissible, text, v, hdecode, hparse, hwritable, htext, henvelope⟩

/-- A serialiser that refuses it throws, and its error is none of the protocol. -/
theorem Misread.parseCredentialPayload_eq_error {content : PayloadContent}
    (h : Misread P context content.toBytes) (hadmissible : content.isAdmissible = true)
    (hescapes : P.escapesLoneSurrogates = false) :
    parseCredentialPayload P content context = .error (.error (js "Lone surrogate")) := by
  obtain ⟨text, v, hdecode, hparse, hstrings, -⟩ := h
  obtain ⟨hjson, -, haccepted⟩ := parseJson_distinctKeys hparse
  have hbytes : payloadBytes content = .ok content.toBytes :=
    payloadBytes_eq_ok.mpr ⟨hadmissible, rfl⟩
  have hchecked : assertJsonValue v = .ok () := assertJsonValue_eq_ok.mpr ⟨hjson, haccepted⟩
  have hcanonical : canonicalJson P v = .error (.error (js "Lone surrogate")) := by
    unfold canonicalJson canonicalizeRfc8785
    rw [hchecked, hescapes, hstrings]
    rfl
  have hread : parseCanonicalBytes P content.toBytes = .error (.error (js "Lone surrogate")) := by
    unfold parseCanonicalBytes parseCanonicalJson
    rw [hdecode]
    dsimp only
    rw [hparse]
    show (canonicalJson P v >>= _) = _
    rw [hcanonical]
    rfl
  unfold parseCredentialPayload
  rw [hbytes]
  show (parseCanonicalBytes P content.toBytes >>= _) = _
  rw [hread]
  rfl

/-! ## The cases of the verdict -/

section Cases

variable {uri : JsString} {target : PayloadUri} {content : PayloadContent}

/-- What was retrieved from an acceptable URI. -/
theorem retrieved_iff (huri : parsePayloadUri P uri = .ok target) {digestEq : Bool}
    {bytes : List UInt8} : Retrieved P (.retrieved content) uri digestEq bytes ↔
      content.isAdmissible = true ∧ bytes = content.toBytes ∧
        (target.digestHex == bytesToHex (P.sha256 bytes)) = digestEq := by
  constructor
  · rintro ⟨target', content', huri', hcontent, hrest⟩
    rw [huri, Except.ok.injEq] at huri'
    rw [PayloadRetrieval.retrieved.injEq] at hcontent
    subst huri' hcontent
    exact hrest
  · rintro ⟨hadmissible, hbytes, hdigest⟩
    exact ⟨target, content, huri, rfl, hadmissible, hbytes, hdigest⟩

theorem verifyCredentialPayload_of_not_uri (h : ¬∃ target, parsePayloadUri P uri = .ok target)
    (retrieval : PayloadRetrieval) :
    verifyCredentialPayload P retrieval uri context = .ok .invalid := by
  cases huri : parsePayloadUri P uri with
  | ok target => exact absurd ⟨target, huri⟩ h
  | error error =>
      obtain ⟨e, rfl⟩ := onlyXcs_parsePayloadUri uri error huri
      unfold verifyCredentialPayload checkCredentialPayload
      rw [huri]
      rfl

theorem verifyCredentialPayload_unavailable (huri : parsePayloadUri P uri = .ok target) :
    verifyCredentialPayload P .unavailable uri context = .ok .unavailable := by
  unfold verifyCredentialPayload checkCredentialPayload
  rw [huri]
  rfl

theorem verifyCredentialPayload_of_not_admissible (huri : parsePayloadUri P uri = .ok target)
    (h : content.isAdmissible = false) :
    verifyCredentialPayload P (.retrieved content) uri context = .ok .invalid := by
  cases hbytes : payloadBytes content with
  | ok bytes =>
      rw [payloadBytes_eq_ok, h] at hbytes
      exact absurd hbytes.1 Bool.false_ne_true
  | error error =>
      obtain ⟨e, rfl⟩ := onlyXcs_payloadBytes content error hbytes
      have hintegrity : verifyPayloadIntegrity P content uri = .error (.xcs e) := by
        unfold verifyPayloadIntegrity payloadDigest
        rw [huri, hbytes]
        rfl
      have hcheck : checkCredentialPayload P (.retrieved content) uri context
          = .error (.xcs e) := by
        unfold checkCredentialPayload
        rw [huri]
        show (verifyPayloadIntegrity P content uri >>= _) = _
        rw [hintegrity]
        rfl
      unfold verifyCredentialPayload
      rw [hcheck]

/-- Admissible content is compared by digest, and parsed where the digest is the expected one. -/
theorem checkCredentialPayload_of_admissible (huri : parsePayloadUri P uri = .ok target)
    (h : content.isAdmissible = true) :
    checkCredentialPayload P (.retrieved content) uri context =
      if target.digestHex == bytesToHex (P.sha256 content.toBytes) then do
        let _ ← parseCredentialPayload P content context
        pure .valid
      else pure .tampered := by
  have hbytes : payloadBytes content = .ok content.toBytes := payloadBytes_eq_ok.mpr ⟨h, rfl⟩
  have hintegrity : verifyPayloadIntegrity P content uri = .ok
      ⟨target.digestHex == bytesToHex (P.sha256 content.toBytes), target.digestHex,
        bytesToHex (P.sha256 content.toBytes)⟩ := by
    unfold verifyPayloadIntegrity payloadDigest
    rw [huri, hbytes]
    rfl
  unfold checkCredentialPayload
  rw [huri]
  show (verifyPayloadIntegrity P content uri >>= _) = _
  rw [hintegrity]
  rfl

theorem verifyCredentialPayload_of_digest_ne (huri : parsePayloadUri P uri = .ok target)
    (h : content.isAdmissible = true)
    (hdigest : (target.digestHex == bytesToHex (P.sha256 content.toBytes)) = false) :
    verifyCredentialPayload P (.retrieved content) uri context = .ok .tampered := by
  unfold verifyCredentialPayload
  rw [checkCredentialPayload_of_admissible huri h, hdigest]
  rfl

theorem verifyCredentialPayload_of_parse_ok (huri : parsePayloadUri P uri = .ok target)
    (h : content.isAdmissible = true)
    (hdigest : (target.digestHex == bytesToHex (P.sha256 content.toBytes)) = true)
    (hparse : ∃ r, parseCredentialPayload P content context = .ok r) :
    verifyCredentialPayload P (.retrieved content) uri context = .ok .valid := by
  obtain ⟨r, hr⟩ := hparse
  unfold verifyCredentialPayload
  rw [checkCredentialPayload_of_admissible huri h, hdigest, hr]
  rfl

theorem verifyCredentialPayload_of_parse_error (huri : parsePayloadUri P uri = .ok target)
    (h : content.isAdmissible = true)
    (hdigest : (target.digestHex == bytesToHex (P.sha256 content.toBytes)) = true)
    {e : XcsError} (hparse : parseCredentialPayload P content context = .error (.xcs e)) :
    verifyCredentialPayload P (.retrieved content) uri context = .ok .invalid := by
  unfold verifyCredentialPayload
  rw [checkCredentialPayload_of_admissible huri h, hdigest, hparse]
  rfl

theorem verifyCredentialPayload_of_parse_throws (huri : parsePayloadUri P uri = .ok target)
    (h : content.isAdmissible = true)
    (hdigest : (target.digestHex == bytesToHex (P.sha256 content.toBytes)) = true)
    {message : JsString}
    (hparse : parseCredentialPayload P content context = .error (.error message)) :
    verifyCredentialPayload P (.retrieved content) uri context = .error (.error message) := by
  unfold verifyCredentialPayload
  rw [checkCredentialPayload_of_admissible huri h, hdigest, hparse]
  rfl

/-- The verdict on admissible content with the expected digest, where nothing is misread. -/
theorem classified_of_not_misread (huri : parsePayloadUri P uri = .ok target)
    (h : content.isAdmissible = true)
    (hdigest : (target.digestHex == bytesToHex (P.sha256 content.toBytes)) = true)
    (hmisread : ¬Misread P context content.toBytes) :
    Classified P (.retrieved content) uri context := by
  have hvalid := parseCredentialPayload_eq_ok_of_not_misread hmisread
  have hretrieved : ∀ bytes, Retrieved P (.retrieved content) uri true bytes
      ↔ bytes = content.toBytes := by
    intro bytes
    rw [retrieved_iff huri]
    refine ⟨fun hr => hr.2.1, ?_⟩
    rintro rfl
    exact ⟨h, rfl, hdigest⟩
  have htampered : ∀ bytes, ¬Retrieved P (.retrieved content) uri false bytes := by
    intro bytes hr
    obtain ⟨-, rfl, hne⟩ := (retrieved_iff huri).mp hr
    rw [hdigest] at hne
    cases hne
  cases hparse : parseCredentialPayload P content context with
  | ok r =>
      have hpayload := (hvalid.mp ⟨r, hparse⟩).2
      refine ⟨.valid, verifyCredentialPayload_of_parse_ok huri h hdigest ⟨r, hparse⟩,
        ?_, ?_, ?_, ?_⟩
      · exact iff_of_true rfl ⟨_, (hretrieved _).mpr rfl, hpayload⟩
      · exact iff_of_false (fun he => (by cases he)) (fun hu => (by cases hu.2))
      · exact iff_of_false (fun he => (by cases he)) (fun ⟨bytes, hr⟩ => htampered bytes hr)
      · rintro - content' text v hcontent hdecode hv
        rw [PayloadRetrieval.retrieved.injEq] at hcontent
        subst hcontent
        obtain ⟨text', v', hdecode', hv', -, -, henvelope⟩ := isCredentialPayload_iff.mp hpayload
        rw [hdecode, Option.some.injEq] at hdecode'
        subst hdecode'
        rw [hv, Except.ok.injEq] at hv'
        subst hv'
        exact ⟨henvelope.issuer, henvelope.subject, henvelope.schema⟩
  | error error =>
      obtain ⟨e, rfl⟩ := onlyXcs_parseCredentialPayload hmisread error hparse
      refine ⟨.invalid, verifyCredentialPayload_of_parse_error huri h hdigest hparse,
        ?_, ?_, ?_, ?_⟩
      · refine iff_of_false (fun he => (by cases he)) ?_
        rintro ⟨bytes, hr, hpayload⟩
        rw [(hretrieved bytes).mp hr] at hpayload
        obtain ⟨r, hr⟩ := hvalid.mpr ⟨h, hpayload⟩
        rw [hparse] at hr
        cases hr
      · exact iff_of_false (fun he => (by cases he)) (fun hu => (by cases hu.2))
      · exact iff_of_false (fun he => (by cases he)) (fun ⟨bytes, hr⟩ => htampered bytes hr)
      · exact fun he => (by cases he)

/-- The verdict on admissible content with the expected digest that is misread: there is none, or
it is `valid`. -/
theorem not_classified_of_misread (huri : parsePayloadUri P uri = .ok target)
    (h : content.isAdmissible = true)
    (hdigest : (target.digestHex == bytesToHex (P.sha256 content.toBytes)) = true)
    (hmisread : Misread P context content.toBytes) :
    ¬Classified P (.retrieved content) uri context := by
  rintro ⟨status, hstatus, hvalid, -⟩
  cases hescapes : P.escapesLoneSurrogates with
  | false =>
      rw [verifyCredentialPayload_of_parse_throws huri h hdigest
        (hmisread.parseCredentialPayload_eq_error h hescapes)] at hstatus
      cases hstatus
  | true =>
      rw [verifyCredentialPayload_of_parse_ok huri h hdigest
        (hmisread.parseCredentialPayload_eq_ok h hescapes), Except.ok.injEq] at hstatus
      obtain ⟨bytes, hr, hpayload⟩ := hvalid.mp hstatus.symm
      obtain ⟨-, rfl, -⟩ := (retrieved_iff huri).mp hr
      exact hmisread.not_isCredentialPayload hpayload

end Cases

/-- **The verdicts are what they are to be unless content is misread.**  Every retrieval is
classified, except for admissible content with the digest the URI commits to whose JSON has a
string that ends in an unpaired high surrogate. -/
theorem classified_iff (retrieval : PayloadRetrieval) (uri : JsString) :
    Classified P retrieval uri context ↔
      ¬∃ bytes, Retrieved P retrieval uri true bytes ∧ Misread P context bytes := by
  by_cases huri : ∃ target, parsePayloadUri P uri = .ok target
  · obtain ⟨target, huri⟩ := huri
    cases retrieval with
    | unavailable =>
        have hretrieved : ∀ digestEq bytes, ¬Retrieved P .unavailable uri digestEq bytes := by
          rintro digestEq bytes ⟨_, _, -, hcontent, -⟩
          cases hcontent
        refine iff_of_true ⟨.unavailable, verifyCredentialPayload_unavailable huri, ?_, ?_, ?_, ?_⟩
          (fun ⟨bytes, hr, _⟩ => hretrieved true bytes hr)
        · exact iff_of_false (fun he => (by cases he))
            (fun ⟨bytes, hr, _⟩ => hretrieved true bytes hr)
        · exact iff_of_true rfl ⟨⟨target, huri⟩, rfl⟩
        · exact iff_of_false (fun he => (by cases he))
            (fun ⟨bytes, hr⟩ => hretrieved false bytes hr)
        · exact fun he => (by cases he)
    | retrieved content =>
        cases hadmissible : content.isAdmissible with
        | false =>
            have hretrieved : ∀ digestEq bytes,
                ¬Retrieved P (.retrieved content) uri digestEq bytes := by
              intro digestEq bytes hr
              rw [retrieved_iff huri, hadmissible] at hr
              exact absurd hr.1 Bool.false_ne_true
            refine iff_of_true ⟨.invalid,
              verifyCredentialPayload_of_not_admissible huri hadmissible, ?_, ?_, ?_, ?_⟩
              (fun ⟨bytes, hr, _⟩ => hretrieved true bytes hr)
            · exact iff_of_false (fun he => (by cases he))
                (fun ⟨bytes, hr, _⟩ => hretrieved true bytes hr)
            · exact iff_of_false (fun he => (by cases he)) (fun hu => (by cases hu.2))
            · exact iff_of_false (fun he => (by cases he))
                (fun ⟨bytes, hr⟩ => hretrieved false bytes hr)
            · exact fun he => (by cases he)
        | true =>
            cases hdigest : target.digestHex == bytesToHex (P.sha256 content.toBytes) with
            | false =>
                have hretrieved : ∀ bytes, ¬Retrieved P (.retrieved content) uri true bytes := by
                  intro bytes hr
                  obtain ⟨-, rfl, heq⟩ := (retrieved_iff huri).mp hr
                  rw [hdigest] at heq
                  cases heq
                refine iff_of_true ⟨.tampered,
                  verifyCredentialPayload_of_digest_ne huri hadmissible hdigest, ?_, ?_, ?_, ?_⟩
                  (fun ⟨bytes, hr, _⟩ => hretrieved bytes hr)
                · exact iff_of_false (fun he => (by cases he))
                    (fun ⟨bytes, hr, _⟩ => hretrieved bytes hr)
                · exact iff_of_false (fun he => (by cases he)) (fun hu => (by cases hu.2))
                · exact iff_of_true rfl ⟨_, (retrieved_iff huri).mpr ⟨hadmissible, rfl, hdigest⟩⟩
                · exact fun he => (by cases he)
            | true =>
                have hretrieved := (retrieved_iff huri).mpr ⟨hadmissible, rfl, hdigest⟩
                by_cases hmisread : Misread P context content.toBytes
                · exact iff_of_false
                    (not_classified_of_misread huri hadmissible hdigest hmisread)
                    (fun hnot => hnot ⟨_, hretrieved, hmisread⟩)
                · refine iff_of_true
                    (classified_of_not_misread huri hadmissible hdigest hmisread) ?_
                  rintro ⟨bytes, hr, hbytes⟩
                  obtain ⟨-, rfl, -⟩ := (retrieved_iff huri).mp hr
                  exact hmisread hbytes
  · have hretrieved : ∀ digestEq bytes, ¬Retrieved P retrieval uri digestEq bytes := by
      rintro digestEq bytes ⟨target, _, htarget, -⟩
      exact huri ⟨target, htarget⟩
    refine iff_of_true ⟨.invalid, verifyCredentialPayload_of_not_uri huri retrieval, ?_, ?_, ?_, ?_⟩
      (fun ⟨bytes, hr, _⟩ => hretrieved true bytes hr)
    · exact iff_of_false (fun he => (by cases he)) (fun ⟨bytes, hr, _⟩ => hretrieved true bytes hr)
    · exact iff_of_false (fun he => (by cases he)) (fun hu => huri hu.1)
    · exact iff_of_false (fun he => (by cases he)) (fun ⟨bytes, hr⟩ => hretrieved false bytes hr)
    · exact fun he => (by cases he)

/-! ## Content that is misread -/

/-- A payload with an unpaired high surrogate at the end of a claim, written as `\ud800`. -/
def misreadValue : JsValue :=
  .obj [(js "claims", .obj [(js "note", .str [0xd800])]),
    (js "issuer", .str (js "rHb9CJAWyB4rj91VRWn96DkukG4bwdtyTh")),
    (js "schema", .str (js "3f3f3f3f3f3f3f3f3f3f3f3f3f3f3f3f3f3f3f3f3f3f3f3f3f3f3f3f3f3f3f3f")),
    (js "subject", .str (js "rPT1Sjq2YGrBMTttX4GZHjKu9dyfzbpAYe")),
    (js "xcsVersion", .str (js "0.1"))]

def misreadBytes : List UInt8 :=
  encodeUtf8 (render misreadValue)

def misreadContext : CredentialContext where
  issuer := js "rHb9CJAWyB4rj91VRWn96DkukG4bwdtyTh"
  subject := js "rPT1Sjq2YGrBMTttX4GZHjKu9dyfzbpAYe"
  schemaUid := js "3f3f3f3f3f3f3f3f3f3f3f3f3f3f3f3f3f3f3f3f3f3f3f3f3f3f3f3f3f3f3f3f"
  fields := [(js "note", .scalar .string false)]

def misreadDigest : List UInt8 :=
  [102, 10, 242, 214, 123, 197, 42, 101, 2, 165, 46, 86, 105, 169, 255, 151, 232, 145, 34, 2, 251,
    140, 122, 67, 110, 159, 125, 128, 118, 113, 119, 23]

def misreadCid : JsString :=
  js "bafkreidgblznm66ffjsqfjjokzu2t74x5ciseax3rr5eg3u7pwahm4lxc4"

/-- A platform that hashes the payload and reads its identifier as they are. -/
def misreadPlatform (escapes : Bool) : Platform :=
  { Platform.sample with
    sha256 := fun bytes => if bytes = misreadBytes then misreadDigest else List.replicate 32 0
    sha256_length := fun bytes => by split_ifs <;> rfl
    escapesLoneSurrogates := escapes
    parseCid := fun text =>
      if text = misreadCid then
        some ⟨1, rawCode, sha256MultihashCode, 32, misreadDigest, misreadCid⟩
      else none }

theorem parsePayloadUri_misreadCid (escapes : Bool) :
    parsePayloadUri (misreadPlatform escapes) (js "ipfs://" ++ misreadCid)
      = .ok (.ipfs (js "ipfs://" ++ misreadCid) misreadCid (bytesToHex misreadDigest)) := by
  rfl

theorem misread_misreadBytes (escapes : Bool) :
    Misread (misreadPlatform escapes) misreadContext misreadBytes := by
  have hjson : misreadValue.isJson = true := by decide
  have hcanon : misreadValue.canon = misreadValue := by rfl
  refine ⟨render misreadValue, misreadValue, decodeUtf8_encodeUtf8 (isWellFormed_render _), ?_,
    by decide, fun _ => ⟨?_, ?_⟩⟩
  · rw [parseJson_eq_ok]
    refine ⟨misreadValue, parseText_render (by rfl), by decide, by rfl, by decide, by decide⟩
  · rw [canonicalText, hcanon]
  · exact ⟨by rfl, by rfl, by decide, ⟨_, rfl, by decide⟩, by rfl, by rfl, by rfl, by rfl,
      parseClaims_eq_ok.mp ⟨_, rfl⟩⟩

theorem sha256_misreadBytes (escapes : Bool) :
    (misreadPlatform escapes).sha256 misreadBytes = misreadDigest := by
  unfold misreadPlatform
  simp only [if_true]

/-- **Content that gets no verdict, or the wrong one.**  One serialiser throws, the other lets the
payload be `valid`. -/
theorem not_classified_misreadBytes :
    ¬Classified (misreadPlatform false) (.retrieved (.bytes misreadBytes))
        (js "ipfs://" ++ misreadCid) misreadContext ∧
      ¬Classified (misreadPlatform true) (.retrieved (.bytes misreadBytes))
        (js "ipfs://" ++ misreadCid) misreadContext := by
  have hadmissible : (PayloadContent.bytes misreadBytes).isAdmissible = true := by decide +kernel
  have hdigest : ∀ escapes, (bytesToHex misreadDigest == bytesToHex
      ((misreadPlatform escapes).sha256 misreadBytes)) = true := by
    intro escapes
    rw [beq_iff_eq, sha256_misreadBytes]
  exact ⟨not_classified_of_misread (parsePayloadUri_misreadCid false) hadmissible (hdigest false)
      (misread_misreadBytes false),
    not_classified_of_misread (parsePayloadUri_misreadCid true) hadmissible (hdigest true)
      (misread_misreadBytes true)⟩

end Core
end Xcs
