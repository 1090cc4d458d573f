import Xcs.Indexer.Registration
import Xcs.Sdk.Builders

/-!
# Schema registrations in the client and in the indexer

The client accepts a payment as a schema registration, a validated ledger applies it, and the
indexer reads the transaction of the ledger.  The rules for the envelope and the decoding of the
memo are written twice.

* `AppliedAs` says what the ledger keeps of a payment: the letters of digits may change their case,
  the amount may be listed under either of its two names, and the flags are a number.
* `registration_candidate` and `interpretSchemaRegistration_of_accepted` say that the indexer finds
  the memo the client checked and reads the same definition from it, so that nothing but the
  resolution of its relations decides about the registration.
* `parseSchemaBytes_of_accepted` is the converse: the memo of every registration the indexer accepts
  passes the parser of the client.
-/

namespace Xcs
namespace Agreement

open Js Json Xcs.Core Indexer Sdk

/-! ## What the ledger keeps -/

/-- A field of a memo is absent on both sides, or has the same digits. -/
def SameMemoField (v w : JsValue) : Prop :=
  v = .undefined ∧ w = .undefined ∨ SameHex v w

/-- The keys of the fields of a memo. -/
def memoKeys : List JsString :=
  [js "MemoType", js "MemoFormat", js "MemoData"]

/-- A memo, as the client has it, and an entry of the memos of the ledger. -/
structure MemoApplied (memo entry : JsValue) : Prop where
  isObject : entry.isObject = true
  memo_isObject : (entry.get (js "Memo")).isObject = true
  fields : ∀ key ∈ memoKeys, SameMemoField (memo.get key) ((entry.get (js "Memo")).get key)

/-- What a validated ledger says of a payment that it applied. -/
structure AppliedAs (transaction : JsValue) (applied : LedgerTransaction) : Prop where
  transactionResult : applied.metadata.get (js "TransactionResult") = .str (js "tesSUCCESS")
  transactionType : applied.transaction.get (js "TransactionType")
    = transaction.get (js "TransactionType")
  account : applied.transaction.get (js "Account") = transaction.get (js "Account")
  destination : applied.transaction.get (js "Destination") = transaction.get (js "Destination")
  amount : ∀ key ∈ [js "Amount", js "DeliverMax"], applied.transaction.get key = .undefined ∨
    applied.transaction.get key = transaction.get (js "Amount")
  amount_present : ¬(applied.transaction.get (js "Amount") = .undefined ∧
    applied.transaction.get (js "DeliverMax") = .undefined)
  paths : applied.transaction.get (js "Paths") = transaction.get (js "Paths")
  sendMax : applied.transaction.get (js "SendMax") = transaction.get (js "SendMax")
  deliverMin : applied.transaction.get (js "DeliverMin") = transaction.get (js "DeliverMin")
  flags : isFullPayment (applied.transaction.get (js "Flags"))
    = !hasPartialPaymentFlag (transaction.get (js "Flags"))
  memos : List.Forall₂ (fun entry appliedEntry => MemoApplied (entry.get (js "Memo")) appliedEntry)
    (arrayOrEmpty (transaction.get (js "Memos")))
    (arrayOrEmpty (applied.transaction.get (js "Memos")))

/-- The bytes of the memo the client checks. -/
def HasMemoBytes (transaction : JsValue) (bytes : List UInt8) : Prop :=
  ∃ entries memo memoData, memosOf (transaction.get (js "Memos")) = .ok entries ∧
    selectXcsMemos entries = .ok [memo] ∧ memo.get (js "MemoData") = .str memoData ∧
      hexToBytes memoData = some bytes

/-- The bytes of the memo the indexer reads. -/
def HasLedgerMemoBytes (applied : LedgerTransaction) (bytes : List UInt8) : Prop :=
  ∃ entry memoData, Indexer.xcsMemos applied.transaction = [entry] ∧
    (memoFields entry).get (js "MemoData") = .str memoData ∧ hexToBytes memoData = some bytes

variable {P : Platform} {X : XrplLibrary}

/-! ## The decoders of memos -/

theorem decodeHexUtf8_str {s text : JsString} (h : text ≠ []) :
    decodeHexUtf8 (.str s) = some text ↔ (hexToBytes s).bind decodeUtf8 = some text := by
  have hsome := isSome_hexToBytes s
  unfold decodeHexUtf8
  by_cases hempty : s = []
  · subst hempty
    refine iff_of_false (fun hnone => (by cases hnone)) ?_
    intro hdecode
    exact h (Option.some.inj hdecode).symm
  · have hisEmpty : s.isEmpty = false := List.isEmpty_eq_false_iff.mpr hempty
    dsimp only
    cases hbytes : hexToBytes s with
    | none =>
        rw [hbytes] at hsome
        rw [if_pos]
        · simp
        · rw [hisEmpty, Bool.false_or, bne, ← Bool.not_and, ← hsome]
          rfl
    | some bytes =>
        rw [hbytes] at hsome
        rw [if_neg]
        rw [hisEmpty, Bool.false_or, bne, ← Bool.not_and, ← hsome]
        simp

/-- **The two decoders of memos agree** on every text that is not empty. -/
theorem decode_iff {v w : JsValue} (h : SameMemoField v w) {text : JsString} (htext : text ≠ []) :
    decodeHexUtf8 w = some text ↔ decodeOptionalMemoField v = some text := by
  rcases h with ⟨rfl, rfl⟩ | ⟨s, t, rfl, rfl, hcase⟩
  · exact iff_of_false (fun h => (by cases h)) (fun h => (by cases h))
  · rw [decodeHexUtf8_str htext, decodeOptionalMemoField_str, hexToBytes_congr hcase]

theorem memoFields_of_applied {memo entry : JsValue} (h : MemoApplied memo entry) :
    memoFields entry = entry.get (js "Memo") := by
  unfold memoFields
  rw [h.isObject, h.memo_isObject]
  rfl

/-- The memos of the type that the client finds are the ones the indexer finds. -/
theorem forall₂_xcsMemos : ∀ {entries applied memos : List JsValue},
    List.Forall₂ (fun entry appliedEntry => MemoApplied (entry.get (js "Memo")) appliedEntry)
      entries applied → selectXcsMemos entries = .ok memos →
    List.Forall₂ MemoApplied memos (applied.filter fun entry =>
      decodeHexUtf8 ((memoFields entry).get (js "MemoType")) == some (js "xcs:schema_register"))
  | [], _, _, .nil, hselect => by
      cases hselect
      exact .nil
  | entry :: entries, appliedEntry :: applied, memos, .cons hentry hrest, hselect => by
      simp only [selectXcsMemos, bind_eq_ok, pure_eq_ok'] at hselect
      obtain ⟨memo, hmemo, others, hothers, rfl⟩ := hselect
      have hmemo : memo = entry.get (js "Memo") := by
        unfold memoOf at hmemo
        split_ifs at hmemo
        exact (Except.ok.inj hmemo).symm
      subst hmemo
      have hothers := forall₂_xcsMemos hrest hothers
      have htype : decodeHexUtf8 _ = some (js "xcs:schema_register") ↔ _ :=
        decode_iff (hentry.fields (js "MemoType") (by decide)) (by decide)
      rw [List.filter_cons, memoFields_of_applied hentry]
      by_cases hdecode : decodeOptionalMemoField ((entry.get (js "Memo")).get (js "MemoType"))
          = some xcsSchemaMemoType
      · rw [if_pos (beq_iff_eq.mpr hdecode), if_pos (beq_iff_eq.mpr (htype.mpr hdecode))]
        exact .cons hentry hothers
      · rw [if_neg fun h => hdecode (beq_iff_eq.mp h),
          if_neg fun h => hdecode (htype.mp (beq_iff_eq.mp h))]
        exact hothers

/-! ## The envelope -/

theorem isExactPayment_of_applied {transaction : JsValue} {applied : LedgerTransaction}
    {profile : NetworkProfile} (h : AppliedAs transaction applied)
    (htype : transaction.get (js "TransactionType") = .str (js "Payment"))
    (hregistration : IsSchemaRegistration P X transaction profile) :
    isExactPayment applied.transaction applied.metadata profile = true := by
  have hamount : hasExactRegistrationAmount applied.transaction profile.registrationAmountDrops
      = true := by
    have halias : ∀ key ∈ [js "Amount", js "DeliverMax"],
        applied.transaction.get key = .undefined ∨
          applied.transaction.get key = .str profile.registrationAmountDrops := by
      intro key hkey
      rw [← hregistration.amount]
      exact h.amount key hkey
    have hpresent := h.amount_present
    unfold hasExactRegistrationAmount
    rcases halias (js "Amount") (by decide) with hfirst | hfirst
    · rcases halias (js "DeliverMax") (by decide) with hsecond | hsecond
      · exact absurd ⟨hfirst, hsecond⟩ hpresent
      · rw [hfirst, hsecond]
        rfl
    · rcases halias (js "DeliverMax") (by decide) with hsecond | hsecond
      · rw [hfirst, hsecond]
        rfl
      · rw [hfirst, hsecond]
        rfl
  unfold isExactPayment
  rw [h.transactionType, htype, h.transactionResult, h.destination, hregistration.destination,
    hamount, h.paths, hregistration.paths, h.sendMax, hregistration.sendMax, h.deliverMin,
    hregistration.deliverMin, h.flags, hregistration.full]
  simp only [JsValue.isStr_self]
  rfl

/-- **The indexer finds the memo** that the client checked. -/
theorem registration_candidate {transaction : JsValue} {applied : LedgerTransaction}
    {profile : NetworkProfile} (h : AppliedAs transaction applied)
    (htype : transaction.get (js "TransactionType") = .str (js "Payment"))
    (hregistration : IsSchemaRegistration P X transaction profile) :
    ∃ publisher bytes jsonText definition, transaction.get (js "Account") = .str publisher ∧
      P.isValidClassicAddress publisher = true ∧ HasMemoBytes transaction bytes ∧
      decodeUtf8 bytes = some jsonText ∧ parseSchemaBytes P bytes = .ok definition ∧
      extractRegistrationEnvelope applied profile = .candidate ⟨publisher, jsonText⟩ := by
  obtain ⟨publisher, haccount, hvalid⟩ := hregistration.account
  obtain ⟨entries, memo, hentries, hselect, hmemo⟩ := hregistration.memo
  obtain ⟨hformat, memoData, hmemoData, hdata⟩ := checkMemo_eq_ok.mp hmemo
  obtain ⟨bytes, jsonText, definition, hbytes, hdecode, hparse, -⟩ := checkMemoData_eq_ok.mp hdata
  refine ⟨publisher, bytes, jsonText, definition, haccount, hvalid,
    ⟨entries, memo, memoData, hentries, hselect, hmemoData, hbytes⟩, hdecode, hparse, ?_⟩
  have hpublisher : publisher ≠ [] := by
    rintro rfl
    exact absurd (P.hasAddressShape_of_valid _ hvalid) (by decide)
  have hjsonText : jsonText ≠ [] := by
    rintro rfl
    obtain ⟨text, v, htext, hv, -⟩ := parseSchemaBytes_eq_ok.mp hparse
    rw [hdecode, Option.some.injEq] at htext
    subst htext
    obtain ⟨root, hroot, -⟩ := parseJson_eq_ok.mp hv
    cases hroot
  have hlist : arrayOrEmpty (transaction.get (js "Memos")) = entries := by
    cases hmemos : transaction.get (js "Memos") with
    | arr items =>
        rw [hmemos] at hentries
        exact Except.ok.inj hentries
    | undefined =>
        rw [hmemos] at hentries
        exact Except.ok.inj hentries
    | null =>
        rw [hmemos] at hentries
        exact Except.ok.inj hentries
    | _ =>
        rw [hmemos] at hentries
        cases hentries
  have hmemos := h.memos
  rw [hlist] at hmemos
  have hfound := forall₂_xcsMemos hmemos hselect
  obtain ⟨entry, hentry, hothers⟩ : ∃ entry, MemoApplied memo entry ∧
      Indexer.xcsMemos applied.transaction = [entry] := by
    obtain ⟨entry, rest, hentry, hrest, hlist⟩ := List.forall₂_cons_left_iff.mp hfound
    rw [List.forall₂_nil_left_iff] at hrest
    subst hrest
    exact ⟨entry, hentry, hlist⟩
  have hfields := hentry.fields
  have hfields_eq := memoFields_of_applied hentry
  have hformat' : decodeHexUtf8 ((entry.get (js "Memo")).get (js "MemoFormat"))
      = some (js "application/json") :=
    (decode_iff (hfields (js "MemoFormat") (by decide)) (by decide)).mpr hformat
  have hdata' : decodeHexUtf8 ((entry.get (js "Memo")).get (js "MemoData")) = some jsonText := by
    refine (decode_iff (hfields (js "MemoData") (by decide)) hjsonText).mpr ?_
    rw [hmemoData, decodeOptionalMemoField_str, hbytes]
    exact hdecode
  unfold extractRegistrationEnvelope
  dsimp only
  rw [hothers, isExactPayment_of_applied h htype hregistration, h.account, haccount]
  show (if publisher.isEmpty = true then _ else _ : EnvelopeResult) = _
  rw [if_neg (by simpa using hpublisher)]
  show (if decodeHexUtf8 ((memoFields entry).get (js "MemoFormat")) ≠ some _ then _ else _
    : EnvelopeResult) = _
  rw [hfields_eq, hformat', if_neg (not_not.mpr rfl), hdata']
  rfl

/-! ## The definition -/

/-- What the indexer makes of the memo: it is a candidate with a canonical text, the definition the
client parsed and a UID, and nothing but the resolution decides about it.  Without relations the
resolution does not fail. -/
def DecidedByRelations (P : Platform) (applied : LedgerTransaction) (ledger : ValidatedLedger)
    (profile : NetworkProfile) (catalog : SchemaLookup) (bytes : List UInt8) : Prop :=
  ∃ publisher jsonText memoJson definition schemaUid,
    extractRegistrationEnvelope applied profile = .candidate ⟨publisher, jsonText⟩ ∧
    decodeUtf8 bytes = some jsonText ∧ parseSchemaBytes P bytes = .ok definition ∧
    parseJson jsonText = .ok memoJson ∧ canonicalJson P memoJson = .ok jsonText ∧
    parseSchema memoJson = .ok definition ∧
    computeSchemaUid P
      { networkId := profile.networkId, publisher, ledgerIndex := ledger.ledgerIndex,
        transactionIndex := applied.transactionIndex, ledgerHash := ledger.ledgerHash,
        schema := definition } = .ok schemaUid ∧
    interpretSchemaRegistration P applied ledger.ledgerHash ledger.ledgerIndex profile catalog
      = some
        { transactionHash := applied.hash
          transactionIndex := applied.transactionIndex
          publisher
          outcome := outcomeOfResolution schemaUid memoJson definition
            (resolve (maxSchemaDepth - 1) definition
              { networkId := profile.networkId, publisher, ledgerIndex := ledger.ledgerIndex,
                transactionIndex := applied.transactionIndex, getSchema := catalog } []) } ∧
    (definition.parent = none → definition.supersedes = none →
      ∃ resolved, resolve (maxSchemaDepth - 1) definition
        { networkId := profile.networkId, publisher, ledgerIndex := ledger.ledgerIndex,
          transactionIndex := applied.transactionIndex, getSchema := catalog } [] = .ok resolved)

/-- A definition without relations resolves to itself. -/
theorem resolve_of_no_relations {v : JsValue} {definition : SchemaDefinition}
    (hkeys : v.distinctKeys = true) (h : parseSchema v = .ok definition)
    (hparent : definition.parent = none) (hsupersedes : definition.supersedes = none) (levels : ℕ)
    (context : SchemaResolutionContext) :
    ∃ resolved, resolve levels definition context [] = .ok resolved := by
  have hfields := (distinctKeys_of_parseSchema hkeys h).1
  rw [fieldsJs, fieldsMembers_eq, JsValue.distinctKeys_obj, Bool.and_eq_true, decide_eq_true_eq,
    List.map_map] at hfields
  have hnames : Extends [] definition.fields := ⟨hfields.1, fun _ _ => List.not_mem_nil⟩
  have hcount := (parseSchema_eq_ok.mp h).2
  have hreplaces : Replaces context.getSchema definition context.toSchemaCoordinates := by
    intro uid huid
    rw [hsupersedes] at huid
    cases huid
  exact ⟨_, resolve_eq_ok.mpr ⟨.root hparent hnames hcount hreplaces, Nat.zero_le _,
    fun uid huid => absurd huid List.not_mem_nil⟩⟩

/-- The input of the UID of a registration, as the indexer builds it. -/
def uidInput (applied : LedgerTransaction) (ledger : ValidatedLedger) (profile : NetworkProfile)
    (publisher : JsString) (definition : SchemaDefinition) : SchemaUidInput :=
  { networkId := profile.networkId, publisher, ledgerIndex := ledger.ledgerIndex,
    transactionIndex := applied.transactionIndex, ledgerHash := ledger.ledgerHash,
    schema := definition }

theorem isUidInput_uidInput {applied : LedgerTransaction} {ledger : ValidatedLedger}
    {profile : NetworkProfile} {publisher : JsString} (hledger : ledger.IsNormalized)
    (hmem : applied ∈ ledger.transactions) (hnetwork : profile.networkId ≤ 0xffffffff)
    (hvalid : P.isValidClassicAddress publisher = true) (definition : SchemaDefinition) :
    isUidInput P (uidInput applied ledger profile publisher definition) = true := by
  have hledgerIndex := isUint32_natCast hledger.ledgerIndex
  have htransactionIndex := isUint32_natCast (hledger.transactionIndex applied hmem)
  have hhash : isHash ledger.ledgerHash = true := isHash_of_isLowerHash hledger.ledgerHash
  simp only [isUidInput, uidInput, isUint32_natCast hnetwork, hledgerIndex, htransactionIndex,
    hhash, hvalid, Bool.and_self]

/-- **The indexer reads the definition the client checked.** -/
theorem interpretSchemaRegistration_of_accepted {transaction : JsValue}
    {applied : LedgerTransaction} {profile : NetworkProfile} (h : AppliedAs transaction applied)
    (htype : transaction.get (js "TransactionType") = .str (js "Payment"))
    (hregistration : IsSchemaRegistration P X transaction profile)
    (hnetwork : profile.networkId ≤ 0xffffffff) {ledger : ValidatedLedger}
    (hledger : ledger.IsNormalized) (hmem : applied ∈ ledger.transactions)
    (catalog : SchemaLookup) :
    ∃ bytes, HasMemoBytes transaction bytes ∧
      DecidedByRelations P applied ledger profile catalog bytes := by
  obtain ⟨publisher, bytes, jsonText, definition, -, hvalid, hbytes, hdecode, hparse, hcandidate⟩ :=
    registration_candidate h htype hregistration
  obtain ⟨text, memoJson, htext, hjson, hwritable, hcanonical, hdefinition⟩ :=
    parseSchemaBytes_eq_ok.mp hparse
  rw [hdecode, Option.some.injEq] at htext
  subst htext
  have hcanonicalJson : canonicalJson P memoJson = .ok jsonText :=
    canonicalJson_eq_ok.mpr ⟨hwritable, hcanonical.symm⟩
  have hdefinitionValid := isValid_of_parseSchema hdefinition
  have hinput := isUidInput_uidInput hledger hmem hnetwork hvalid definition
  have huid := (@computeSchemaUid_eq_ok P
    (uidInput applied ledger profile publisher definition) hdefinitionValid _).mpr ⟨hinput,
      isWritable_uidPreimage hinput (isWritable_toJs_of_parseSchema hdefinition hwritable), rfl⟩
  have hresolve := @resolveSchema_eq_resolve P definition.toJs definition
    { networkId := profile.networkId, publisher, ledgerIndex := ledger.ledgerIndex,
      transactionIndex := applied.transactionIndex, getSchema := catalog }
    (isUint32_natCast hnetwork) (isUint32_natCast hledger.ledgerIndex)
    (isUint32_natCast (hledger.transactionIndex applied hmem)) hvalid
    (parseSchema_toJs hdefinitionValid)
  refine ⟨bytes, hbytes, publisher, jsonText, memoJson, definition, _, hcandidate, hdecode, hparse,
    hjson, hcanonicalJson, hdefinition, huid, ?_, ?_⟩
  · unfold interpretSchemaRegistration
    rw [hcandidate]
    dsimp only
    rw [interpretEnvelope_of_canonical hjson hcanonicalJson hdefinition huid, hresolve]
  · intro hparent hsupersedes
    exact resolve_of_no_relations (parseJson_distinctKeys hjson).2.1 hdefinition hparent
      hsupersedes _ _

/-- **The client parses the memo of every registration the indexer accepts**, to the same
definition. -/
theorem parseSchemaBytes_of_accepted {applied : LedgerTransaction} {ledgerHash : JsString}
    {ledgerIndex : ℕ} {profile : NetworkProfile} {catalog : SchemaLookup}
    {result : SchemaRegistrationResult} {uid : JsString} {memoJson : JsValue}
    {definition : SchemaDefinition} {resolved : ResolvedSchema}
    (h : interpretSchemaRegistration P applied ledgerHash ledgerIndex profile catalog = some result)
    (hresult : result.outcome = .accepted uid memoJson definition resolved) :
    ∃ bytes, HasLedgerMemoBytes applied bytes ∧ parseSchemaBytes P bytes = .ok definition ∧
      computeSchemaUid P
        { networkId := profile.networkId, publisher := result.publisher, ledgerIndex,
          transactionIndex := applied.transactionIndex, ledgerHash, schema := definition }
        = .ok uid := by
  unfold interpretSchemaRegistration at h
  cases hextract : extractRegistrationEnvelope applied profile with
  | notRegistration =>
      rw [hextract] at h
      cases h
  | rejected publisher reasonCode =>
      rw [hextract] at h
      cases h
      cases hresult
  | candidate envelope =>
      rw [hextract] at h
      cases h
      have haccepts := interpretEnvelope_accepted.mp hresult
      obtain ⟨hwritable, hcanonical⟩ := canonicalJson_eq_ok.mp haccepts.canonical
      have hmemo : ∃ entry, Indexer.xcsMemos applied.transaction = [entry] ∧
          decodeHexUtf8 ((memoFields entry).get (js "MemoData")) = some envelope.jsonText := by
        unfold extractRegistrationEnvelope at hextract
        dsimp only at hextract
        split at hextract
        · cases hextract
        · rename_i entry others hmemos
          split_ifs at hextract with hpayment hpublisher hothers hformat
          split at hextract
          · cases hextract
          · rename_i jsonText hdata
            cases hextract
            have hothers : others = [] := by simpa using hothers
            subst hothers
            exact ⟨entry, hmemos, hdata⟩
      obtain ⟨entry, hentry, hdata⟩ := hmemo
      have hbytes : ∃ memoData bytes, (memoFields entry).get (js "MemoData") = .str memoData ∧
          hexToBytes memoData = some bytes ∧ decodeUtf8 bytes = some envelope.jsonText := by
        unfold decodeHexUtf8 at hdata
        split at hdata
        · rename_i s hs
          split_ifs at hdata
          obtain ⟨bytes, hbytes, hdecode⟩ := Option.bind_eq_some_iff.mp hdata
          exact ⟨s, bytes, hs, hbytes, hdecode⟩
        · cases hdata
      obtain ⟨memoData, bytes, hmemoData, hbytes, hdecode⟩ := hbytes
      exact ⟨bytes, ⟨entry, memoData, hentry, hmemoData, hbytes⟩, parseSchemaBytes_eq_ok.mpr
        ⟨envelope.jsonText, memoJson, hdecode, haccepts.parsed, hwritable, hcanonical.symm,
          haccepts.defined⟩, haccepts.named⟩

/-- **The client and the indexer agree on schema registrations.**  What the client accepts and a
validated ledger applies, the indexer takes for a registration of the same definition and rejects
for its relations only; and the client accepts the memo of what the indexer accepts. -/
theorem schemaRegistration_agrees (P : Platform) (X : XrplLibrary) :
    (∀ transaction profileInput, assertXcsTransactionSemantics P X transaction profileInput
        = .ok (.schemaRegistration transaction) →
      ∃ profile, parseNetworkProfile P profileInput = .ok profile ∧
        ∀ (applied : LedgerTransaction) (ledger : ValidatedLedger) (catalog : SchemaLookup),
          AppliedAs transaction applied → ledger.IsNormalized → applied ∈ ledger.transactions →
          ∃ bytes, HasMemoBytes transaction bytes ∧
            DecidedByRelations P applied ledger profile catalog bytes) ∧
    ∀ (applied : LedgerTransaction) (ledgerHash : JsString) (ledgerIndex : ℕ)
        (profile : NetworkProfile) (catalog : SchemaLookup) (result : SchemaRegistrationResult)
        (uid : JsString) (memoJson : JsValue) (definition : SchemaDefinition)
        (resolved : ResolvedSchema),
      interpretSchemaRegistration P applied ledgerHash ledgerIndex profile catalog = some result →
      result.outcome = .accepted uid memoJson definition resolved →
      ∃ bytes, HasLedgerMemoBytes applied bytes ∧ parseSchemaBytes P bytes = .ok definition ∧
        computeSchemaUid P
          { networkId := profile.networkId, publisher := result.publisher, ledgerIndex,
            transactionIndex := applied.transactionIndex, ledgerHash, schema := definition }
          = .ok uid := by
  refine ⟨fun transaction profileInput haccepted => ?_, ?_⟩
  · obtain ⟨profile, hprofile, htype, hregistration⟩ := isSchemaRegistration_of_accepted haccepted
    refine ⟨profile, hprofile, fun applied ledger catalog happlied hledger hmem => ?_⟩
    exact interpretSchemaRegistration_of_accepted happlied htype hregistration
      (parseNetworkProfile_eq_ok hprofile).2 hledger hmem catalog
  · intro applied ledgerHash ledgerIndex profile catalog result uid memoJson definition resolved h
      hresult
    exact parseSchemaBytes_of_accepted h hresult

/-! ## A sample -/

theorem sameHex_refl (s : JsString) : SameHex (.str s) (.str s) :=
  ⟨s, s, rfl, rfl, rfl⟩

/-- A ledger transaction that applies a payment as it is. -/
def appliedPayment (transaction : JsValue) : LedgerTransaction where
  hash := List.replicate 64 0x62
  transaction
  metadata := .obj [(js "TransactionResult", .str (js "tesSUCCESS"))]
  transactionIndex := 0

def appliedLedger (transaction : JsValue) : ValidatedLedger where
  ledgerIndex := 7
  ledgerHash := List.replicate 64 0x61
  parentHash := List.replicate 64 0x30
  transactionRoot := List.replicate 64 0x31
  closeTime := 0
  transactions := [appliedPayment transaction]

theorem isNormalized_appliedLedger (transaction : JsValue) :
    (appliedLedger transaction).IsNormalized where
  ledgerIndex := (by decide : 7 ≤ 0xffffffff)
  ledgerHash := (by decide : isLowerHash (List.replicate 64 0x61) = true)
  parentHash := (by decide : isLowerHash (List.replicate 64 0x30) = true)
  transactionRoot := (by decide : isLowerHash (List.replicate 64 0x31) = true)
  closeTime := Nat.zero_le _
  transactionIndices := rfl
  transactionIndex := List.forall_mem_singleton.mpr (Nat.zero_le _)
  transactionHash := List.forall_mem_singleton.mpr
    (by decide : isLowerHash (List.replicate 64 0x62) = true)
  transactionHashes := List.nodup_singleton _
  metadata := List.forall_mem_singleton.mpr rfl

theorem appliedAs_registrationPayment (publisher canonicalSchema : JsString)
    (profile : NetworkProfile) :
    AppliedAs (registrationPayment publisher canonicalSchema profile)
      (appliedPayment (registrationPayment publisher canonicalSchema profile)) where
  transactionResult := rfl
  transactionType := rfl
  account := rfl
  destination := rfl
  amount := by
    intro key hkey
    simp only [List.mem_cons, List.not_mem_nil, or_false] at hkey
    rcases hkey with rfl | rfl
    · exact Or.inr rfl
    · exact Or.inl rfl
  amount_present := fun h => (by cases h.1)
  paths := rfl
  sendMax := rfl
  deliverMin := rfl
  flags := rfl
  memos := by
    refine .cons ⟨rfl, rfl, ?_⟩ .nil
    intro key hkey
    simp only [memoKeys, List.mem_cons, List.not_mem_nil, or_false] at hkey
    rcases hkey with rfl | rfl | rfl
    · exact Or.inr (sameHex_refl _)
    · exact Or.inr (sameHex_refl _)
    · exact Or.inr (sameHex_refl _)

theorem eq_of_hasMemoBytes {publisher canonicalSchema : JsString} {profile : NetworkProfile}
    {bytes : List UInt8}
    (h : HasMemoBytes (registrationPayment publisher canonicalSchema profile) bytes) :
    bytes = encodeUtf8 canonicalSchema := by
  obtain ⟨entries, memo, memoData, hentries, hselect, hmemoData, hbytes⟩ := h
  have hlist : entries = [schemaMemo canonicalSchema] := (Except.ok.inj hentries).symm
  subst hlist
  rw [selectXcsMemos_schemaMemo] at hselect
  have hmemo : memo = memoFieldsOf canonicalSchema :=
    (List.singleton_inj.mp (Except.ok.inj hselect)).symm
  subst hmemo
  have hdata : memoData = encodeMemoField canonicalSchema := (JsValue.str.inj hmemoData).symm
  subst hdata
  rw [hexToBytes_encodeMemoField] at hbytes
  exact (Option.some.inj hbytes).symm

/-- The agreement at a built registration: the indexer reads the definition the client checked, and
accepts it. -/
theorem schemaRegistration_agrees_sample :
    ∃ transaction bytes, HasMemoBytes transaction bytes ∧
      DecidedByRelations zerosPlatform (appliedPayment transaction) (appliedLedger transaction)
        testnetProfile (fun _ => none) bytes ∧
      ∃ ledgerBytes definition, HasLedgerMemoBytes (appliedPayment transaction) ledgerBytes ∧
        parseSchemaBytes zerosPlatform ledgerBytes = .ok definition := by
  obtain ⟨built, canonicalSchema, hbuilt, htransaction, hparent, hsupersedes⟩ :=
    exists_sampleRegistration
  have hprofile := parseNetworkProfile_testnet zerosPlatform (by decide)
  obtain ⟨haccepted, hcarries⟩ := accepted_buildSchemaRegistrationPayment
    (libraryPromises_counting zerosPlatform) hbuilt
  rw [htransaction] at haccepted hcarries
  have hagrees := schemaRegistration_agrees zerosPlatform countingLibrary
  obtain ⟨profile, hparse, hforward⟩ := hagrees.1 _ _ haccepted
  have hsame : profile = testnetProfile := Except.ok.inj (hparse.symm.trans hprofile)
  subst hsame
  obtain ⟨bytes, hbytes, hdecided⟩ := hforward _ (appliedLedger _) (fun _ => none)
    (appliedAs_registrationPayment _ _ _) (isNormalized_appliedLedger _)
    (List.mem_singleton_self _)
  refine ⟨_, bytes, hbytes, hdecided, ?_⟩
  obtain ⟨publisher, jsonText, memoJson, definition, schemaUid, -, -, hdefinition, -, -, -, -,
    hinterpret, hresolve⟩ := hdecided
  -- the definition is the built one up to the order of its fields, so it has no relations
  obtain ⟨memoData, _, schema', hmemos, hdata, hschema', hcanon⟩ := hcarries
  have hmemo : schemaMemo canonicalSchema = schemaMemo memoData :=
    List.singleton_inj.mp (congrArg arrayOrEmpty hmemos)
  have hdigits : encodeMemoField canonicalSchema = encodeMemoField memoData :=
    JsValue.str.inj (congrArg (fun v => (v.get (js "Memo")).get (js "MemoData")) hmemo)
  rw [← hdigits, hexToBytes_encodeMemoField, Option.some.injEq] at hdata
  have hbytesEq := eq_of_hasMemoBytes hbytes
  rw [← hdata, ← hbytesEq, hdefinition, Except.ok.injEq] at hschema'
  subst hschema'
  have hnoParent : definition.parent = none := (congrArg SchemaDefinition.parent hcanon).trans
    hparent
  have hnoSupersedes : definition.supersedes = none :=
    (congrArg SchemaDefinition.supersedes hcanon).trans hsupersedes
  obtain ⟨resolved, hresolved⟩ := hresolve hnoParent hnoSupersedes
  rw [hresolved] at hinterpret
  obtain ⟨ledgerBytes, hledgerBytes, hparsed, -⟩ := hagrees.2 _ _ _ _ _ _ _ _ _ _ hinterpret rfl
  exact ⟨ledgerBytes, definition, hledgerBytes, hparsed⟩

end Agreement
end Xcs
