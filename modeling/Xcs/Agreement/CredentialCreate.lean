import Xcs.Indexer.CredentialMutations
import Xcs.Sdk.TransactionValidation

/-!
# Created credentials in the client and in the indexer

The client accepts a `CredentialCreate`, the ledger creates a credential with its fields, and the
indexer reads the node of the metadata that says so.  Both decode the URI, each with a decoder of
its own.

* `UriAgrees` and `IsProjected` say what the two agree on: the text of a URI and its digits, and the
  mutation the node comes to.
* `credentialHexToUri_agrees_iff` and `isProjected_iff` say when they do: unless the digits of the
  URI begin with a byte order mark.  The client drops it and finds an acceptable URI behind it; the
  indexer keeps it and counts the node as malformed.
-/

namespace Xcs
namespace Agreement

open Js Json Xcs.Core Indexer Sdk

/-- What the ledger makes of a `CredentialCreate`: a node with a new credential that has the
account of the transaction as issuer, its subject, type and URI with the letters of the digits in
either case, and its expiration. -/
structure CreatesCredential (transaction rawNode created fields : JsValue) : Prop where
  createdNode : rawNode.get (js "CreatedNode") = created
  isObject : created.isObject = true
  ledgerEntryType : created.get (js "LedgerEntryType") = .str (js "Credential")
  ledgerIndex : ∃ index, created.get (js "LedgerIndex") = .str index ∧ isHash index = true
  previousFields : created.get (js "PreviousFields") = .undefined
  newFields : created.get (js "NewFields") = fields
  fields_isObject : fields.isObject = true
  issuer : fields.get (js "Issuer") = transaction.get (js "Account")
  subject : fields.get (js "Subject") = transaction.get (js "Subject")
  credentialType : SameHex (transaction.get (js "CredentialType"))
    (fields.get (js "CredentialType"))
  uri : SameHex (transaction.get (js "URI")) (fields.get (js "URI"))
  flags : isUint32OrUndefined (fields.get (js "Flags")) = true
  expiration : fields.get (js "Expiration") = transaction.get (js "Expiration")

/-- The digits of a byte order mark in front. -/
def startsWithBom (uriHex : JsString) : Bool :=
  (js "efbbbf").isPrefixOf (toLowerCase uriHex)

/-- The decoder of the indexer reads the same text from the digits, and the text has these digits.
-/
def UriAgrees (P : Platform) (uriHex uri : JsString) : Prop :=
  (hexToBytes uriHex).bind decodeUtf8 = some uri ∧
    ∃ hex, uriToCredentialHex P uri = .ok hex ∧ toLowerCase hex = toLowerCase uriHex

/-- The node at a place of the metadata is not counted as malformed, and there is a mutation that
creates the credential of the transaction. -/
def IsProjected (P : Platform) (ledgerTransaction : LedgerTransaction) (closeTime : ℕ)
    (knownSchemaUids : JsString → Bool) (nodeIndex : ℕ) (rawNode transaction : JsValue)
    (schemaUid : JsString) : Prop :=
  (interpretNode P ledgerTransaction closeTime knownSchemaUids nodeIndex rawNode).isMalformed
      = false ∧
    ∃ mutation ∈ (extractCredentialMutations P ledgerTransaction closeTime
        knownSchemaUids).mutations,
      mutation.nodeIndex = nodeIndex ∧ mutation.eventType = .created ∧
        .str mutation.issuer = transaction.get (js "Account") ∧
        .str mutation.subject = transaction.get (js "Subject") ∧
        mutation.schemaUid = schemaUid ∧
        SameHex (transaction.get (js "URI")) (.str mutation.uriHex)

variable {P : Platform} {X : XrplLibrary}

/-! ## The byte order mark -/

/-- The digits of a byte order mark are the digits of its bytes. -/
theorem startsWithBom_iff {uriHex : JsString} {bytes : List UInt8}
    (h : hexToBytes uriHex = some bytes) :
    startsWithBom uriHex = true ↔ ∃ rest, bytes = 0xef :: 0xbb :: 0xbf :: rest := by
  unfold startsWithBom
  rw [← bytesToHex_of_hexToBytes h, List.isPrefixOf_iff_prefix]
  constructor
  · rintro ⟨t, ht⟩
    have hbytes : hexToBytes (js "efbbbf" ++ t) = some bytes := by
      rw [ht, hexToBytes_bytesToHex]
    have hmark : hexToBytes (js "efbbbf" ++ t)
        = (hexToBytes t).map fun rest => 0xef :: 0xbb :: 0xbf :: rest := by
      show hexToBytes (_ :: _ :: _ :: _ :: _ :: _ :: t) = _
      rw [hexToBytes, hexToBytes, hexToBytes]
      cases hexToBytes t with
      | none => rfl
      | some rest => rfl
    rw [hmark, Option.map_eq_some_iff] at hbytes
    obtain ⟨rest, -, hrest⟩ := hbytes
    exact ⟨rest, hrest.symm⟩
  · rintro ⟨rest, rfl⟩
    exact ⟨bytesToHex rest, rfl⟩

/-! ## URIs -/

/-- What the two decoders read. -/
theorem decode_of_credentialHexToUri {uriHex uri : JsString}
    (h : credentialHexToUri P uriHex = .ok uri) :
    (hexToBytes uriHex).bind decodeUtf8
      = some (if startsWithBom uriHex then 0xfeff :: uri else uri) := by
  obtain ⟨-, hdecode, -⟩ := credentialHexToUri_eq_ok.mp h
  obtain ⟨bytes, hbytes, htext⟩ := decodeMemoField_eq_ok.mp hdecode
  rw [hbytes, Option.bind_some]
  by_cases hbom : startsWithBom uriHex = true
  · obtain ⟨rest, rfl⟩ := (startsWithBom_iff hbytes).mp hbom
    rw [if_pos hbom, decodeUtf8_bom]
    have hrest : decodeUtf8 rest = some uri := htext
    rw [hrest]
    rfl
  · rw [if_neg hbom]
    rwa [stripBom_of_not_bom fun hrest => hbom ((startsWithBom_iff hbytes).mpr hrest)] at htext

/-- **The decoders agree on a URI** that the client accepts, and encoding undoes decoding, unless
its digits begin with a byte order mark. -/
theorem credentialHexToUri_agrees_iff {uriHex uri : JsString}
    (h : credentialHexToUri P uriHex = .ok uri) :
    UriAgrees P uriHex uri ↔ startsWithBom uriHex = false := by
  have hdecode := decode_of_credentialHexToUri h
  unfold UriAgrees
  rw [hdecode]
  cases hbom : startsWithBom uriHex with
  | true =>
      refine iff_of_false ?_ Bool.true_eq_false.mp
      rintro ⟨heq, -⟩
      rw [if_pos rfl, Option.some.injEq] at heq
      exact absurd (congrArg List.length heq) (by simp)
  | false =>
      obtain ⟨-, -, hencode⟩ := credentialHexToUri_eq_ok.mp h
      refine iff_of_true ⟨rfl, _, hencode, ?_⟩ rfl
      rw [hbom] at hdecode
      obtain ⟨bytes, hbytes, htext⟩ := Option.bind_eq_some_iff.mp hdecode
      have htext : decodeUtf8 bytes = some uri := htext
      rw [encodeMemoField_of_hexToBytes hbytes htext, toLowerCase_toUpperCase]

/-! ## Nodes -/

section Node

variable {transaction rawNode created fields : JsValue}

/-- The node is a credential that was created, with its index in lowercase and its fields. -/
theorem normalizeNode_of_creates (h : CreatesCredential transaction rawNode created fields) :
    ∃ index, findCredentialNode rawNode = some (.createdNode, created) ∧
      normalizeNode .createdNode created = some ⟨.createdNode, index, fields, .obj []⟩ := by
  obtain ⟨index, hindex, hhash⟩ := h.ledgerIndex
  refine ⟨toLowerCase index, ?_, ?_⟩
  · have hcredential : credentialNode rawNode .createdNode = some created := by
      show (asRecord (rawNode.get (js "CreatedNode"))).filter _ = _
      rw [h.createdNode, asRecord, if_pos h.isObject, Option.filter_some_pos]
      rw [h.ledgerEntryType]
      rfl
    unfold findCredentialNode nodeKinds
    rw [List.findSome?_cons, hcredential]
    rfl
  · have hfields : asRecord fields = some fields := if_pos h.fields_isObject
    unfold normalizeNode
    rw [hindex]
    dsimp only
    rw [if_pos hhash, if_pos rfl, h.newFields, hfields, h.previousFields]
    rfl

/-- What the visit of the node comes to: the mutation where the URI is acceptable to the indexer,
and a malformed node where it is not. -/
theorem interpretNode_of_creates (h : CreatesCredential transaction rawNode created fields)
    {schemaUid : JsString} (hcreate : IsCredentialCreate P transaction schemaUid)
    (ledgerTransaction : LedgerTransaction) (closeTime nodeIndex : ℕ)
    {knownSchemaUids : JsString → Bool} (hknown : knownSchemaUids schemaUid = true)
    {uriHex : JsString} (huri : fields.get (js "URI") = .str uriHex) :
    ∃ index issuer subject, transaction.get (js "Account") = .str issuer ∧
      transaction.get (js "Subject") = .str subject ∧
      interpretNode P ledgerTransaction closeTime knownSchemaUids nodeIndex rawNode =
        if hasPayloadUri P uriHex then
          .mutation (nodeMutation ledgerTransaction closeTime nodeIndex
            ⟨.createdNode, index, fields, .obj []⟩ issuer subject schemaUid uriHex .created)
        else .malformed := by
  obtain ⟨index, hfind, hnormalize⟩ := normalizeNode_of_creates h
  obtain ⟨issuer, hissuer, hissuerValid⟩ := hcreate.account
  obtain ⟨subject, hsubject, hsubjectValid⟩ := hcreate.subject
  obtain ⟨credentialType, htype, hhash, rfl⟩ := hcreate.credentialType
  obtain ⟨s, t, hs, ht, hcase⟩ := h.credentialType
  rw [htype, JsValue.str.injEq] at hs
  subst hs
  have hhash' : isHash t = true := isHash_congr hcase ▸ hhash
  have hexpiration : isUint32OrUndefined (fields.get (js "Expiration")) = true := by
    unfold isUint32OrUndefined
    rw [h.expiration, Bool.or_eq_true]
    refine hcreate.expiration.imp_right fun huint => ?_
    cases hvalue : transaction.get (js "Expiration") with
    | num n =>
        rw [hvalue] at huint
        exact huint
    | _ =>
        rw [hvalue] at huint
        cases huint
  refine ⟨index, issuer, subject, hissuer, hsubject, ?_⟩
  unfold interpretNode
  rw [hfind]
  dsimp only
  rw [hnormalize]
  unfold interpretCredential
  dsimp only
  rw [h.issuer, h.subject, ht, hissuer, hsubject]
  dsimp only
  rw [hissuerValid, hsubjectValid, hhash', ← hcase, hknown, h.flags, hexpiration, huri]
  show (if !hasPayloadUri P uriHex then NodeOutcome.malformed else _) = _
  cases hasPayloadUri P uriHex with
  | true => rfl
  | false => rfl

/-- The URI of the ledger is acceptable to the indexer unless it begins with a byte order mark. -/
theorem hasPayloadUri_eq {uriHex ledgerHex uri : JsString}
    (h : credentialHexToUri P uriHex = .ok uri)
    (hcase : toLowerCase uriHex = toLowerCase ledgerHex) :
    hasPayloadUri P ledgerHex = !startsWithBom uriHex := by
  unfold hasPayloadUri
  rw [← hexToBytes_congr hcase, decode_of_credentialHexToUri h]
  cases startsWithBom uriHex with
  | true => exact parsePayloadUri_bom uri
  | false =>
      obtain ⟨-, -, hencode⟩ := credentialHexToUri_eq_ok.mp h
      obtain ⟨-, ⟨target, htarget⟩, -⟩ := uriToCredentialHex_eq_ok.mp hencode
      show (parsePayloadUri P uri).isOk = true
      rw [htarget]
      rfl

/-- **The creation is projected** unless the digits of its URI begin with a byte order mark. -/
theorem isProjected_iff (h : CreatesCredential transaction rawNode created fields)
    {schemaUid : JsString} (hcreate : IsCredentialCreate P transaction schemaUid)
    {ledgerTransaction : LedgerTransaction} {nodes : List JsValue} {nodeIndex : ℕ}
    (hnodes : ledgerTransaction.metadata.get (js "AffectedNodes") = .arr nodes)
    (hnode : nodes[nodeIndex]? = some rawNode) (closeTime : ℕ) {knownSchemaUids : JsString → Bool}
    (hknown : knownSchemaUids schemaUid = true) {uriHex : JsString}
    (huri : transaction.get (js "URI") = .str uriHex) :
    IsProjected P ledgerTransaction closeTime knownSchemaUids nodeIndex rawNode transaction
      schemaUid ↔ startsWithBom uriHex = false := by
  obtain ⟨hex, uri, hhex, hdecode⟩ := hcreate.uri
  rw [huri, JsValue.str.injEq] at hhex
  subst hhex
  obtain ⟨s, ledgerHex, hs, hledgerHex, hcase⟩ := h.uri
  rw [huri, JsValue.str.injEq] at hs
  subst hs
  obtain ⟨index, issuer, subject, hissuer, hsubject, houtcome⟩ :=
    interpretNode_of_creates h hcreate ledgerTransaction closeTime nodeIndex hknown hledgerHex
  rw [hasPayloadUri_eq hdecode hcase] at houtcome
  unfold IsProjected
  rw [houtcome]
  cases hbom : startsWithBom uriHex with
  | true => exact iff_of_false (fun hp => (by cases hp.1)) (fun hf => (by cases hf))
  | false =>
      refine iff_of_true ⟨rfl, nodeMutation ledgerTransaction closeTime nodeIndex
        ⟨.createdNode, index, fields, .obj []⟩ issuer subject schemaUid ledgerHex .created, ?_, rfl,
        rfl, hissuer.symm, hsubject.symm, rfl, uriHex, ledgerHex, huri, rfl, hcase⟩ rfl
      unfold extractCredentialMutations
      rw [hnodes]
      refine mem_extractNodes.mpr ⟨nodeIndex, rawNode, hnode, ?_⟩
      rw [Nat.zero_add, houtcome, hbom]
      rfl

end Node

/-- **The client and the indexer agree on created credentials** exactly where the digits of the URI
do not begin with a byte order mark: on the text of a URI the client accepts, and on the node the
creation makes in the metadata. -/
theorem credentialCreate_agrees (P : Platform) (X : XrplLibrary) :
    (∀ uriHex uri, credentialHexToUri P uriHex = .ok uri →
      (UriAgrees P uriHex uri ↔ startsWithBom uriHex = false)) ∧
    ∀ transaction profileInput schemaUid uriHex rawNode created fields,
      assertXcsTransactionSemantics P X transaction profileInput
          = .ok (.credentialCreate transaction schemaUid) →
        transaction.get (js "URI") = .str uriHex →
        CreatesCredential transaction rawNode created fields →
        ∀ (ledgerTransaction : LedgerTransaction) (closeTime : ℕ)
            (knownSchemaUids : JsString → Bool) (nodes : List JsValue) (nodeIndex : ℕ),
          ledgerTransaction.metadata.get (js "AffectedNodes") = .arr nodes →
          nodes[nodeIndex]? = some rawNode → knownSchemaUids schemaUid = true →
          (IsProjected P ledgerTransaction closeTime knownSchemaUids nodeIndex rawNode transaction
            schemaUid ↔ startsWithBom uriHex = false) := by
  refine ⟨fun uriHex uri h => credentialHexToUri_agrees_iff h, ?_⟩
  intro transaction profileInput schemaUid uriHex rawNode created fields haccepted huri hcreates
    ledgerTransaction closeTime knownSchemaUids nodes nodeIndex hnodes hnode hknown
  exact isProjected_iff hcreates (isCredentialCreate_of_accepted haccepted) hnodes hnode closeTime
    hknown huri

/-! ## A transaction with and without a byte order mark -/

def agreedIssuer : JsString :=
  js "rHb9CJAWyB4rj91VRWn96DkukG4bwdtyTh"

def agreedSubject : JsString :=
  js "rPT1Sjq2YGrBMTttX4GZHjKu9dyfzbpAYe"

def agreedCid : JsString :=
  js "bafkreiefhenbkwdx5kt6gqcw3jn7qf5cxqq4pei24hqfweg5penbbvx2uu"

def agreedDigest : List UInt8 :=
  [133, 57, 26, 21, 88, 119, 234, 167, 227, 64, 86, 218, 91, 248, 23, 162, 188, 33, 199, 145, 26,
    225, 224, 91, 16, 221, 121, 26, 16, 214, 250, 165]

/-- A platform that reads the identifier as it is. -/
def agreedPlatform : Platform :=
  { Platform.sample with
    parseCid := fun text =>
      if text = agreedCid then
        some ⟨1, rawCode, sha256MultihashCode, 32, agreedDigest, agreedCid⟩
      else none }

/-- A library that validates every transaction. -/
def agreedLibrary : XrplLibrary where
  validate := fun _ => true
  encode := fun _ => some []
  isoTimeToRippleTime := fun _ => .negZero

def agreedUriHex : JsString :=
  encodeMemoField (js "ipfs://" ++ agreedCid)

/-- The same with a byte order mark in front. -/
def bomUriHex : JsString :=
  js "EFBBBF" ++ agreedUriHex

/-- A creation with a URI. -/
def createTransaction (uriHex : JsString) : JsValue :=
  .obj [(js "TransactionType", .str (js "CredentialCreate")),
    (js "Account", .str agreedIssuer),
    (js "Subject", .str agreedSubject),
    (js "CredentialType", .str (List.replicate 64 0x41)), (js "URI", .str uriHex)]

/-- The fields of the credential. -/
def createdFields (uriHex : JsString) : JsValue :=
  .obj [(js "Issuer", .str agreedIssuer),
    (js "Subject", .str agreedSubject),
    (js "CredentialType", .str (List.replicate 64 0x41)), (js "URI", .str uriHex)]

def createdNode (uriHex : JsString) : JsValue :=
  .obj [(js "LedgerEntryType", .str (js "Credential")),
    (js "LedgerIndex", .str (List.replicate 64 0x30)), (js "NewFields", createdFields uriHex)]

def createdWrapper (uriHex : JsString) : JsValue :=
  .obj [(js "CreatedNode", createdNode uriHex)]

def createdLedgerTransaction (uriHex : JsString) : LedgerTransaction where
  hash := List.replicate 64 0x30
  transaction := createTransaction uriHex
  metadata := .obj [(js "AffectedNodes", .arr [createdWrapper uriHex])]
  transactionIndex := 0

theorem createsCredential_sample (uriHex : JsString) : CreatesCredential
    (createTransaction uriHex) (createdWrapper uriHex) (createdNode uriHex)
    (createdFields uriHex) where
  createdNode := rfl
  isObject := rfl
  ledgerEntryType := rfl
  ledgerIndex := ⟨_, rfl, by decide⟩
  previousFields := rfl
  newFields := rfl
  fields_isObject := rfl
  issuer := (rfl : _ = JsValue.str agreedIssuer).trans rfl
  subject := (rfl : _ = JsValue.str agreedSubject).trans rfl
  credentialType := ⟨List.replicate 64 0x41, List.replicate 64 0x41, rfl, rfl, rfl⟩
  uri := ⟨uriHex, uriHex, rfl, rfl, rfl⟩
  flags := rfl
  expiration := (rfl : _ = JsValue.undefined).trans rfl

theorem uriToCredentialHex_agreed : uriToCredentialHex agreedPlatform (js "ipfs://" ++ agreedCid)
    = .ok agreedUriHex := by
  have hparse : parsePayloadUri agreedPlatform (js "ipfs://" ++ agreedCid)
      = .ok (.ipfs (js "ipfs://" ++ agreedCid) agreedCid (bytesToHex agreedDigest)) := by
    rfl
  exact uriToCredentialHex_eq_ok.mpr ⟨by decide, ⟨_, hparse⟩, rfl⟩

theorem credentialHexToUri_agreed : credentialHexToUri agreedPlatform agreedUriHex
    = .ok (js "ipfs://" ++ agreedCid) := by
  have hbytes := hexToBytes_encodeMemoField (js "ipfs://" ++ agreedCid)
  refine credentialHexToUri_eq_ok.mpr ⟨?_, decodeMemoField_eq_ok.mpr ⟨_, hbytes, ?_⟩,
    uriToCredentialHex_agreed⟩
  · rw [isHexText_eq, agreedUriHex, hbytes]
    rfl
  · rw [stripBom_of_not_bom (by rintro ⟨rest, hrest⟩; cases hrest)]
    exact decodeUtf8_encodeUtf8 (by decide)

theorem credentialHexToUri_bom : credentialHexToUri agreedPlatform bomUriHex
    = .ok (js "ipfs://" ++ agreedCid) := by
  have hbytes : hexToBytes bomUriHex
      = some (0xef :: 0xbb :: 0xbf :: encodeUtf8 (js "ipfs://" ++ agreedCid)) := by
    show hexToBytes (_ :: _ :: _ :: _ :: _ :: _ :: agreedUriHex) = _
    rw [hexToBytes, hexToBytes, hexToBytes, agreedUriHex, hexToBytes_encodeMemoField]
    rfl
  refine credentialHexToUri_eq_ok.mpr ⟨?_, decodeMemoField_eq_ok.mpr ⟨_, hbytes, ?_⟩,
    uriToCredentialHex_agreed⟩
  · rw [isHexText_eq, hbytes]
    rfl
  · exact decodeUtf8_encodeUtf8 (by decide)

/-- Every creation with a URI the client decodes is accepted. -/
theorem accepted_createTransaction {uriHex uri : JsString}
    (h : credentialHexToUri agreedPlatform uriHex = .ok uri) :
    assertXcsTransactionSemantics agreedPlatform agreedLibrary (createTransaction uriHex)
        (profileJs testnetProfile)
      = .ok (.credentialCreate (createTransaction uriHex) (List.replicate 64 0x61)) := by
  have hprofile : parseNetworkProfile agreedPlatform (profileJs testnetProfile)
      = .ok testnetProfile := parseNetworkProfile_profileJs
    ⟨by decide, by decide, by decide, by decide, by decide, by decide, by decide, by decide⟩
  have hcreate : IsCredentialCreate agreedPlatform (createTransaction uriHex)
      (List.replicate 64 0x61) :=
    ⟨⟨agreedIssuer, rfl, by decide⟩, ⟨agreedSubject, rfl, by decide⟩,
      ⟨List.replicate 64 0x41, rfl, by decide, by decide⟩, ⟨uriHex, uri, rfl, h⟩, Or.inl rfl⟩
  exact assertXcsTransactionSemantics_eq_ok.mpr ⟨rfl, testnetProfile, hprofile,
    Or.inr (Or.inl ⟨rfl, validateCredentialCreate_eq_ok.mpr ⟨_, hcreate, rfl⟩⟩)⟩

/-- The agreement at a URI without a byte order mark: it is decoded alike, and projected. -/
theorem credentialCreate_agrees_agreedUriHex :
    UriAgrees agreedPlatform agreedUriHex (js "ipfs://" ++ agreedCid) ∧
      IsProjected agreedPlatform (createdLedgerTransaction agreedUriHex) 0
        (fun uid => uid == List.replicate 64 0x61) 0 (createdWrapper agreedUriHex)
        (createTransaction agreedUriHex) (List.replicate 64 0x61) := by
  have hbom : startsWithBom agreedUriHex = false := by decide
  have hagrees := credentialCreate_agrees agreedPlatform agreedLibrary
  exact ⟨(hagrees.1 agreedUriHex _ credentialHexToUri_agreed).mpr hbom,
    (hagrees.2 _ _ _ _ _ _ _ (accepted_createTransaction credentialHexToUri_agreed) rfl
      (createsCredential_sample agreedUriHex) _ 0 _ _ 0 rfl rfl (by decide)).mpr hbom⟩

/-- **A created credential that never appears.**  The client accepts the URI behind a byte order
mark; encoding it again drops the mark, the indexer decodes another text, and the node of the
creation is counted as malformed. -/
theorem not_projected_bom :
    credentialHexToUri agreedPlatform bomUriHex
        = .ok (js "ipfs://" ++ agreedCid) ∧
      ¬UriAgrees agreedPlatform bomUriHex (js "ipfs://" ++ agreedCid) ∧
      assertXcsTransactionSemantics agreedPlatform agreedLibrary
          (createTransaction bomUriHex) (profileJs testnetProfile)
        = .ok (.credentialCreate (createTransaction bomUriHex)
            (List.replicate 64 0x61)) ∧
      CreatesCredential (createTransaction bomUriHex)
        (createdWrapper bomUriHex) (createdNode bomUriHex)
        (createdFields bomUriHex) ∧
      ¬IsProjected agreedPlatform (createdLedgerTransaction bomUriHex) 0
        (fun uid => uid == List.replicate 64 0x61) 0
        (createdWrapper bomUriHex)
        (createTransaction bomUriHex) (List.replicate 64 0x61) := by
  have haccepted := accepted_createTransaction credentialHexToUri_bom
  have hcreates := createsCredential_sample bomUriHex
  have hbom : startsWithBom bomUriHex ≠ false := by
    rw [Bool.ne_false_iff]
    rfl
  refine ⟨credentialHexToUri_bom, ?_, haccepted, hcreates, ?_⟩
  · rw [credentialHexToUri_agrees_iff credentialHexToUri_bom]
    exact hbom
  · have hnodes : (createdLedgerTransaction bomUriHex).metadata.get (js "AffectedNodes")
        = .arr [createdWrapper bomUriHex] := rfl
    rw [isProjected_iff hcreates (isCredentialCreate_of_accepted haccepted) hnodes rfl 0
      (by decide) rfl]
    exact hbom

end Agreement
end Xcs
