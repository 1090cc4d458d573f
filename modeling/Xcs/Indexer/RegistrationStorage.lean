import Xcs.Db.FencingRuns
import Xcs.Indexer.Repository

/-!
# What a registration stores

Every registration stores a row, and the row of a rejected registration keeps its memo as far as it
could be parsed.  A memo may escape U+0000 or a lone surrogate, which JSON allows and a `jsonb`
column does not, and no check stands between the parser and the column.

* `interpretSchemaRegistration_isStorable` says what of a registration its columns can always hold.
* `exists_persistRegistrations` says that nothing else can fail.
* `registration_rows_storable_iff` puts the two together for the ledgers of a run.
-/

namespace Xcs
namespace Indexer

open Js Json Xcs.Core Db

/-! ## Storing a value -/

theorem plainDatabaseJson_eq_ok {P : Platform} {v w : JsValue} :
    plainDatabaseJson P v = .ok w ↔ isWritable P v = true ∧ w = materialize v.canon := by
  simp only [plainDatabaseJson, bind_eq_ok, canonicalJson_eq_ok]
  constructor
  · rintro ⟨_, ⟨hwritable, rfl⟩, h⟩
    simp only [isWritable, Bool.and_eq_true] at hwritable
    rw [jsonParse_canonicalText hwritable.1.1] at h
    refine ⟨?_, (pure_eq_ok.mp h).symm⟩
    simp only [isWritable, Bool.and_eq_true]
    exact hwritable
  · rintro ⟨hwritable, rfl⟩
    refine ⟨_, ⟨hwritable, rfl⟩, ?_⟩
    simp only [isWritable, Bool.and_eq_true] at hwritable
    rw [jsonParse_canonicalText hwritable.1.1]
    rfl

/-- A value reaches its `jsonb` column, and the column can hold it. -/
def StorableJson (P : Platform) (v : JsValue) : Prop :=
  ∃ w, plainDatabaseJson P v = .ok w ∧ isStorableJson w = true

theorem isWellFormed_of_isStorableString {s : JsString} (h : isStorableString s = true) :
    isWellFormed s = true := by
  rw [isStorableString, Bool.and_eq_true] at h
  exact h.1

theorem isStorableString_of_isPlain {s : JsString} (h : isPlain s = true) :
    isStorableString s = true := by
  rw [isStorableString, Bool.and_eq_true, isWellFormed_of_isPlain h, Bool.not_eq_true',
    ← Bool.not_eq_true, List.contains_iff_mem]
  refine ⟨rfl, fun hzero => ?_⟩
  rw [isPlain, List.all_eq_true] at h
  exact absurd (h 0 hzero) (by decide)

/-- A JSON value without an unstorable string is stored. -/
theorem storableJson_of_allStrings {P : Platform} {v : JsValue} (hjson : v.isJson = true)
    (h : v.allStrings isStorableString = true) : StorableJson P v := by
  have hwell : v.allStrings isWellFormed = true :=
    JsValue.allStrings_imp (fun _ => isWellFormed_of_isStorableString) h
  refine ⟨_, plainDatabaseJson_eq_ok.mpr ⟨isWritable_of_isWellFormed hjson hwell, rfl⟩, ?_⟩
  rw [isStorableJson]
  exact allStrings_materialize (by rwa [JsValue.allStrings_canon])

/-- A value without repeated keys that is stored has no unstorable string. -/
theorem allStrings_of_storableJson {P : Platform} {v : JsValue} (hkeys : v.distinctKeys = true)
    (h : StorableJson P v) : v.allStrings isStorableString = true := by
  obtain ⟨w, hw, hstorable⟩ := h
  obtain ⟨-, rfl⟩ := plainDatabaseJson_eq_ok.mp hw
  rw [isStorableJson, ← JsValue.allStrings_canon, canon_materialize_canon hkeys,
    JsValue.allStrings_canon] at hstorable
  exact hstorable

/-! ## The values of a registration -/

/-- Every value a registration writes into a `jsonb` or `text` column can be stored there. -/
def RegistrationOutcome.IsStorable (P : Platform) : RegistrationOutcome → Prop
  | .accepted _ memoJson definition resolved =>
      StorableJson P memoJson ∧ StorableJson P definition.toJs ∧ StorableJson P resolved.toJs ∧
        isStorableText definition.name = true ∧ isStorableText definition.description = true
  | .rejected _ memoJson => ∀ v ∈ memoJson, StorableJson P v

/-- No string of the memo of a transaction is unstorable, when the memo can be parsed. -/
def hasStorableMemo (transaction : LedgerTransaction) (profile : NetworkProfile) : Bool :=
  match extractRegistrationEnvelope transaction profile with
  | .candidate envelope =>
      match parseJson envelope.jsonText with
      | .ok memoJson => memoJson.allStrings isStorableString
      | .error _ => true
  | _ => true

/-- The definition of a storable memo is storable. -/
theorem allStrings_toJs_of_parseSchema {v : JsValue} {d : SchemaDefinition}
    (h : parseSchema v = .ok d) (hv : v.allStrings isStorableString = true) :
    d.toJs.allStrings isStorableString = true := by
  obtain ⟨hname, hdescription⟩ := get_of_parseSchema h
  have hname' := JsValue.allStrings_get hv (js "name")
  have hdescription' := JsValue.allStrings_get hv (js "description")
  rw [hname, JsValue.allStrings_str] at hname'
  rw [hdescription, JsValue.allStrings_str] at hdescription'
  exact SchemaDefinition.allStrings_toJs (fun _ => isStorableString_of_isPlain)
    (isValid_of_parseSchema h) hname' hdescription'

/-- A string that a definition shows is a text without control characters. -/
theorem isStorableText_of_isText {n : ℕ} {s : JsString} (h : isText n s = true) :
    isStorableText s = true := by
  simp only [isText, Bool.and_eq_true, Bool.not_eq_true', List.any_eq_false] at h
  rw [isStorableText, Bool.not_eq_true', ← Bool.not_eq_true, List.contains_iff_mem]
  exact fun hzero => h.1.1 0 hzero (by decide)

section Interpretation

variable {P : Platform} {transactionIndex : ℕ} {ledgerHash : JsString} {ledgerIndex networkId : ℕ}
  {envelope : RegistrationEnvelope} {catalog : SchemaLookup}

/-- An accepted registration stores what its memo stores. -/
theorem isStorable_of_accepts {schemaUid : JsString} {memoJson : JsValue}
    {definition : SchemaDefinition} {resolved : ResolvedSchema}
    (h : Accepts P transactionIndex ledgerHash ledgerIndex networkId envelope catalog schemaUid
      memoJson definition resolved) (hmemo : memoJson.allStrings isStorableString = true) :
    (RegistrationOutcome.accepted schemaUid memoJson definition resolved).IsStorable P := by
  have hjson := (parseJson_distinctKeys h.parsed).1
  have hvalid := isValid_of_parseSchema h.defined
  have hdefinition := allStrings_toJs_of_parseSchema h.defined hmemo
  obtain ⟨-, -, -, -, schema, hparse, hresolution, -⟩ := resolveSchema_eq_ok.mp h.resolves
  rw [parseSchema_toJs hvalid, Except.ok.injEq] at hparse
  subst hparse
  obtain ⟨hfields, hlineage⟩ := hresolution.valid hvalid
  have hresolved : resolved.toJs.allStrings isStorableString = true :=
    ResolvedSchema.allStrings_toJs (fun _ => isStorableString_of_isPlain)
      (by rw [hresolution.definition_eq]; exact hdefinition) hfields hlineage
  simp only [SchemaDefinition.isValid, Bool.and_eq_true] at hvalid
  exact ⟨storableJson_of_allStrings hjson hmemo,
    storableJson_of_allStrings definition.isJson_toJs hdefinition,
    storableJson_of_allStrings resolved.isJson_toJs hresolved,
    isStorableText_of_isText hvalid.1.1.1.1.1.1.1, isStorableText_of_isText hvalid.1.1.1.1.1.1.2⟩

/-- A registration stores storable values exactly when its memo, if it can be parsed, has no
unstorable string. -/
theorem interpretEnvelope_isStorable :
    (interpretEnvelope P transactionIndex ledgerHash ledgerIndex networkId envelope
        catalog).IsStorable P ↔
      ∀ memoJson, parseJson envelope.jsonText = .ok memoJson →
        memoJson.allStrings isStorableString = true := by
  have hmemo := fun v => @interpretEnvelope_memoJson P transactionIndex ledgerHash ledgerIndex
    networkId envelope catalog v
  cases houtcome : interpretEnvelope P transactionIndex ledgerHash ledgerIndex networkId envelope
      catalog with
  | accepted schemaUid memoJson definition resolved =>
      have haccepts := interpretEnvelope_accepted.mp houtcome
      have hkeys := (parseJson_distinctKeys haccepts.parsed).2.1
      constructor
      · intro h v hv
        rw [haccepts.parsed, Except.ok.injEq] at hv
        rw [← hv]
        exact allStrings_of_storableJson hkeys h.1
      · exact fun h => isStorable_of_accepts haccepts (h memoJson haccepts.parsed)
  | rejected reasonCode memoJson =>
      rw [houtcome] at hmemo
      constructor
      · intro h v hv
        exact allStrings_of_storableJson (parseJson_distinctKeys hv).2.1
          (h v ((hmemo v).mpr hv))
      · intro h v hv
        have hparse := (hmemo v).mp hv
        exact storableJson_of_allStrings (parseJson_distinctKeys hparse).1 (h v hparse)

/-- An accepted registration has a valid definition, a UID in the shape of its column, and an
object as its memo. -/
theorem Accepts.valid {schemaUid : JsString} {memoJson : JsValue} {definition : SchemaDefinition}
    {resolved : ResolvedSchema}
    (h : Accepts P transactionIndex ledgerHash ledgerIndex networkId envelope catalog schemaUid
      memoJson definition resolved) :
    definition.isValid = true ∧ isLowerHash schemaUid = true ∧
      ∃ members, memoJson = .obj members := by
  have hvalid := isValid_of_parseSchema h.defined
  have hnamed := (@computeSchemaUid_eq_ok P
    ⟨⟨networkId, envelope.publisher, ledgerIndex, transactionIndex⟩, ledgerHash, definition⟩
    hvalid schemaUid).mp h.named
  refine ⟨hvalid, ?_, ?_⟩
  · rw [hnamed.2.2]
    exact isLowerHash_schemaUid P _
  · have hread := (parseSchema_eq_ok.mp h.defined).1
    cases memoJson with
    | obj members => exact ⟨members, rfl⟩
    | _ => cases hread

end Interpretation

/-- The registration of a transaction stores storable values exactly when its memo does. -/
theorem interpretSchemaRegistration_isStorable {P : Platform} {transaction : LedgerTransaction}
    {ledgerHash : JsString} {ledgerIndex : ℕ} {profile : NetworkProfile} {catalog : SchemaLookup}
    {registration : SchemaRegistrationResult}
    (h : interpretSchemaRegistration P transaction ledgerHash ledgerIndex profile catalog
      = some registration) :
    registration.outcome.IsStorable P ↔ hasStorableMemo transaction profile = true := by
  rw [interpretSchemaRegistration] at h
  rw [hasStorableMemo]
  cases hextract : extractRegistrationEnvelope transaction profile with
  | notRegistration => rw [hextract] at h; cases h
  | rejected publisher reasonCode =>
      rw [hextract, Option.some.injEq] at h
      subst h
      simp [RegistrationOutcome.IsStorable]
  | candidate envelope =>
      rw [hextract, Option.some.injEq] at h
      subst h
      rw [interpretEnvelope_isStorable]
      dsimp only
      cases parseJson envelope.jsonText <;> simp

/-- A transaction whose memo is not storable is a registration. -/
theorem exists_registration_of_not_storable (P : Platform) {transaction : LedgerTransaction}
    {profile : NetworkProfile} (h : hasStorableMemo transaction profile = false)
    (ledgerHash : JsString) (ledgerIndex : ℕ) (catalog : SchemaLookup) :
    ∃ registration, interpretSchemaRegistration P transaction ledgerHash ledgerIndex profile catalog
      = some registration := by
  rw [hasStorableMemo] at h
  rw [interpretSchemaRegistration]
  cases hextract : extractRegistrationEnvelope transaction profile with
  | notRegistration => rw [hextract] at h; cases h
  | rejected publisher reasonCode => exact ⟨_, rfl⟩
  | candidate envelope => exact ⟨_, rfl⟩

/-! ## Writing the rows -/

/-- What the interpretation promises of a registration that it accepts. -/
def SchemaRegistrationResult.IsInterpreted (registration : SchemaRegistrationResult) : Prop :=
  ∀ schemaUid memoJson definition resolved,
    registration.outcome = .accepted schemaUid memoJson definition resolved →
      definition.isValid = true ∧ isLowerHash schemaUid = true ∧
        ∃ members, memoJson = .obj members

/-- What the row of a registration needs besides a storable memo. -/
structure SchemaRegistrationResult.IsRow (registration : SchemaRegistrationResult) : Prop where
  transactionHash : isLowerHash registration.transactionHash = true
  transactionIndex : registration.transactionIndex ≤ 2147483647
  publisher : isStorableText registration.publisher = true
  interpreted : registration.IsInterpreted

theorem isInterpreted_of_interpretSchemaRegistration {P : Platform}
    {transaction : LedgerTransaction} {ledgerHash : JsString} {ledgerIndex : ℕ}
    {profile : NetworkProfile} {catalog : SchemaLookup} {registration : SchemaRegistrationResult}
    (h : interpretSchemaRegistration P transaction ledgerHash ledgerIndex profile catalog
      = some registration) : registration.IsInterpreted := by
  rw [interpretSchemaRegistration] at h
  intro schemaUid memoJson definition resolved houtcome
  cases hextract : extractRegistrationEnvelope transaction profile with
  | notRegistration => rw [hextract] at h; cases h
  | rejected publisher reasonCode =>
      rw [hextract, Option.some.injEq] at h
      subst h
      cases houtcome
  | candidate envelope =>
      rw [hextract, Option.some.injEq] at h
      subst h
      exact (interpretEnvelope_accepted.mp houtcome).valid

/-- The place of a registration is that of its transaction. -/
theorem place_of_interpretSchemaRegistration {P : Platform}
    {transaction : LedgerTransaction} {ledgerHash : JsString} {ledgerIndex : ℕ}
    {profile : NetworkProfile} {catalog : SchemaLookup} {registration : SchemaRegistrationResult}
    (h : interpretSchemaRegistration P transaction ledgerHash ledgerIndex profile catalog
      = some registration) :
    registration.transactionHash = transaction.hash ∧
      registration.transactionIndex = transaction.transactionIndex := by
  rw [interpretSchemaRegistration] at h
  cases hextract : extractRegistrationEnvelope transaction profile with
  | notRegistration => rw [hextract] at h; cases h
  | rejected publisher reasonCode =>
      rw [hextract, Option.some.injEq] at h
      subst h
      exact ⟨rfl, rfl⟩
  | candidate envelope =>
      rw [hextract, Option.some.injEq] at h
      subst h
      exact ⟨rfl, rfl⟩

theorem isUint32Column_natCast {n : ℕ} (h : n ≤ 0xffffffff) : isUint32Column (n : ℤ) = true := by
  rw [isUint32Column, decide_eq_true_eq]
  omega

theorem isInt4_natCast {n : ℕ} (h : n ≤ 2147483647) : isInt4 (n : ℤ) = true := by
  rw [isInt4, decide_eq_true_eq]
  omega

theorem nullOr_isHashColumn {uid : Option JsString} (h : uid.all isLowerHash = true) :
    nullOr isHashColumn uid = true := by
  cases uid with
  | none => rfl
  | some uid => exact h

section Rows

variable {P : Platform} {profile : NetworkProfile} {ledger : ValidatedLedger}
  {registration : SchemaRegistrationResult} {rows : ProjectionRows}

/-- The event of a registration is inserted, unless there is one of its transaction. -/
theorem exists_insertSchemaEvent (hledger : ledger.IsNormalized) (hrow : registration.IsRow)
    (hprofile : rows.networkProfile.isSome = true) {status : JsString}
    {reasonCode schemaUid : Option JsString} {memoJson : JsValue}
    (hshape : (status = js "accepted" ∧ reasonCode = none ∧
        (∃ uid, schemaUid = some uid ∧ isLowerHash uid = true) ∧ isNotNull memoJson = true) ∨
      (status = js "rejected" ∧ (∃ reason, reasonCode = some reason) ∧ schemaUid = none))
    (hmemo : isStorableJson memoJson = true) :
    ∃ rows', insertSchemaEvent
        (schemaEventRow profile ledger registration status reasonCode schemaUid memoJson) rows
        = .ok rows' ∧ rows'.networkProfile = rows.networkProfile ∧
      ∃ event ∈ rows'.schemaEvents, event.transactionHash = registration.transactionHash := by
  have hstores : Stores (schemaEventRow profile ledger registration status reasonCode schemaUid
      memoJson).values := by
    refine ⟨?_, ?_, ?_⟩
    · exact List.forall_mem_singleton.mpr hrow.publisher
    · exact List.forall_mem_singleton.mpr hmemo
    · exact List.forall_mem_singleton.mpr (isInt4_natCast hrow.transactionIndex)
  have hchecks : ∀ c ∈ (schemaEventRow profile ledger registration status reasonCode schemaUid
      memoJson).checks, c.2 = true := by
    have hindex := isUint32Column_natCast hledger.ledgerIndex
    simp only [SchemaEventRow.checks, schemaEventRow, List.forall_mem_cons, hindex,
      hledger.ledgerHash, hrow.transactionHash, isHashColumn, List.not_mem_nil, false_implies,
      implies_true, and_true, true_and, Int.natCast_nonneg, decide_true]
    rcases hshape with ⟨rfl, rfl, ⟨uid, rfl, huid⟩, hnull⟩ | ⟨rfl, ⟨reason, rfl⟩, rfl⟩
    · simp [nullOr, huid, hnull]
    · simp [nullOr]
  by_cases hfound : ∃ other ∈ rows.schemaEvents,
      other.transactionHash = registration.transactionHash
  · exact ⟨rows, insertSchemaEvent_eq_ok.mpr ⟨hstores, hchecks, Or.inl ⟨hfound, rfl⟩⟩, rfl, hfound⟩
  · push Not at hfound
    refine ⟨_, insertSchemaEvent_eq_ok.mpr
      ⟨hstores, hchecks, Or.inr ⟨hfound, hprofile, rfl⟩⟩, rfl, ?_⟩
    exact ⟨_, List.mem_append_right _ (List.mem_singleton_self _), rfl⟩

/-- The row of an accepted registration is inserted, unless there is one with its key. -/
theorem exists_insertSchema (hledger : ledger.IsNormalized) (hrow : registration.IsRow)
    (hprofile : rows.networkProfile.isSome = true)
    (hevent : ∃ event ∈ rows.schemaEvents,
      event.transactionHash = registration.transactionHash)
    {schemaUid : JsString} {definition : SchemaDefinition} {definitionJson resolvedJson : JsValue}
    (hvalid : definition.isValid = true) (huid : isLowerHash schemaUid = true)
    (hdefinition : isStorableJson definitionJson = true)
    (hresolved : isStorableJson resolvedJson = true) :
    ∃ rows', insertSchema
        (schemaRow profile ledger registration schemaUid definition definitionJson resolvedJson)
        rows = .ok rows' ∧ rows'.networkProfile = rows.networkProfile := by
  simp only [SchemaDefinition.isValid, Bool.and_eq_true] at hvalid
  obtain ⟨⟨⟨⟨⟨⟨⟨hname, hdescription⟩, -⟩, -⟩, -⟩, hparent⟩, hsupersedes⟩, -⟩ := hvalid
  have hstores : Stores (schemaRow profile ledger registration schemaUid definition definitionJson
      resolvedJson).values := by
    refine ⟨?_, ?_, ?_⟩
    · simp only [SchemaRow.values, schemaRow, List.forall_mem_cons, hrow.publisher,
        isStorableText_of_isText hname, isStorableText_of_isText hdescription, List.not_mem_nil,
        false_implies, implies_true, and_self]
    · simp only [SchemaRow.values, schemaRow, List.forall_mem_cons, hdefinition, hresolved,
        List.not_mem_nil, false_implies, implies_true, and_self]
    · exact List.forall_mem_singleton.mpr (isInt4_natCast hrow.transactionIndex)
  have hchecks : ∀ c ∈ (schemaRow profile ledger registration schemaUid definition definitionJson
      resolvedJson).checks, c.2 = true := by
    have hindex := isUint32Column_natCast hledger.ledgerIndex
    simp only [SchemaRow.checks, schemaRow, List.forall_mem_cons, hindex,
      nullOr_isHashColumn hparent, nullOr_isHashColumn hsupersedes, hrow.transactionHash, huid,
      isHashColumn, Int.natCast_nonneg, decide_true, List.not_mem_nil, false_implies,
      implies_true, and_self]
  by_cases hfound : ∃ other ∈ rows.schemas, (schemaRow profile ledger registration schemaUid
      definition definitionJson resolvedJson).sameKey other
  · exact ⟨rows, insertSchema_eq_ok.mpr ⟨hstores, hchecks, Or.inl ⟨hfound, rfl⟩⟩, rfl⟩
  · push Not at hfound
    exact ⟨_, insertSchema_eq_ok.mpr
      ⟨hstores, hchecks, Or.inr ⟨hfound, hprofile, hevent, rfl⟩⟩, rfl⟩

/-- A registration is written when its values are storable. -/
theorem exists_persistRegistration (hledger : ledger.IsNormalized) (hrow : registration.IsRow)
    (hprofile : rows.networkProfile.isSome = true) (hstorable : registration.outcome.IsStorable P) :
    ∃ rows', persistRegistration P profile ledger registration rows = .ok rows' ∧
      rows'.networkProfile.isSome = true := by
  rw [persistRegistration.eq_def]
  cases houtcome : registration.outcome with
  | accepted schemaUid memoJson definition resolved =>
      obtain ⟨hvalid, huid, members, rfl⟩ := hrow.interpreted _ _ _ _ houtcome
      rw [houtcome] at hstorable
      obtain ⟨⟨memo, hmemo, hmemoStorable⟩, ⟨definitionJson, hdefinition, hdefinitionStorable⟩,
        ⟨resolvedJson, hresolved, hresolvedStorable⟩, -, -⟩ := hstorable
      have hnull : isNotNull memo = true := by
        obtain ⟨-, rfl⟩ := plainDatabaseJson_eq_ok.mp hmemo
        rw [JsValue.canon_obj, materialize_obj]
        rfl
      obtain ⟨rows₁, hinsert, hprofile₁, hevent⟩ := exists_insertSchemaEvent hledger hrow hprofile
        (Or.inl ⟨rfl, rfl, ⟨schemaUid, rfl, huid⟩, hnull⟩) hmemoStorable
      rw [← hprofile₁] at hprofile
      obtain ⟨rows₂, hinsert', hprofile₂⟩ := exists_insertSchema hledger hrow hprofile hevent hvalid
        huid hdefinitionStorable hresolvedStorable
      refine ⟨rows₂, ?_, by rw [hprofile₂]; exact hprofile⟩
      simp only [bind_eq_ok]
      exact ⟨memo, hmemo, rows₁, hinsert, definitionJson, hdefinition, resolvedJson, hresolved,
        hinsert'⟩
  | rejected reasonCode memoJson =>
      cases memoJson with
      | none =>
          obtain ⟨rows', hinsert, hprofile', -⟩ := exists_insertSchemaEvent hledger hrow hprofile
            (Or.inr ⟨rfl, ⟨reasonCode, rfl⟩, rfl⟩) (show isStorableJson .null = true from rfl)
          exact ⟨rows', hinsert, by rw [hprofile']; exact hprofile⟩
      | some memoJson =>
          rw [houtcome] at hstorable
          obtain ⟨memo, hmemo, hmemoStorable⟩ := hstorable memoJson rfl
          obtain ⟨rows', hinsert, hprofile', -⟩ := exists_insertSchemaEvent hledger hrow hprofile
            (Or.inr ⟨rfl, ⟨reasonCode, rfl⟩, rfl⟩) hmemoStorable
          refine ⟨rows', ?_, by rw [hprofile']; exact hprofile⟩
          simp only [bind_eq_ok]
          exact ⟨memo, hmemo, hinsert⟩

/-- A registration that is written has storable values. -/
theorem isStorable_of_persistRegistration {rows' : ProjectionRows}
    (hinterpreted : registration.IsInterpreted)
    (h : persistRegistration P profile ledger registration rows = .ok rows') :
    registration.outcome.IsStorable P := by
  rw [persistRegistration.eq_def] at h
  cases houtcome : registration.outcome with
  | accepted schemaUid memoJson definition resolved =>
      obtain ⟨hvalid, -, -⟩ := hinterpreted _ _ _ _ houtcome
      simp only [SchemaDefinition.isValid, Bool.and_eq_true] at hvalid
      simp only [houtcome, bind_eq_ok] at h
      obtain ⟨memo, hmemo, rows₁, hinsert, definitionJson, hdefinition, resolvedJson, hresolved,
        hinsert'⟩ := h
      have hevent := (insertSchemaEvent_eq_ok.mp hinsert).1.jsonbs
      have hschema := (insertSchema_eq_ok.mp hinsert').1.jsonbs
      exact ⟨⟨memo, hmemo, hevent _ (List.mem_cons_self ..)⟩,
        ⟨definitionJson, hdefinition, hschema _ (List.mem_cons_self ..)⟩,
        ⟨resolvedJson, hresolved, hschema _ (List.mem_cons_of_mem _ (List.mem_cons_self ..))⟩,
        isStorableText_of_isText hvalid.1.1.1.1.1.1.1,
        isStorableText_of_isText hvalid.1.1.1.1.1.1.2⟩
  | rejected reasonCode memoJson =>
      intro v hv
      obtain rfl := Option.mem_def.mp hv
      simp only [houtcome, bind_eq_ok] at h
      obtain ⟨memo, hmemo, hinsert⟩ := h
      exact ⟨memo, hmemo, (insertSchemaEvent_eq_ok.mp hinsert).1.jsonbs _ (List.mem_cons_self ..)⟩

end Rows

/-- The loop over the registrations succeeds when their values are storable. -/
theorem exists_persistRegistrations {P : Platform} {profile : NetworkProfile}
    {ledger : ValidatedLedger} (hledger : ledger.IsNormalized)
    {registrations : List SchemaRegistrationResult}
    (hrow : ∀ registration ∈ registrations, registration.IsRow)
    (hstorable : ∀ registration ∈ registrations, registration.outcome.IsStorable P)
    {rows : ProjectionRows} (hprofile : rows.networkProfile.isSome = true) :
    ∃ rows', persistRegistrations P profile ledger registrations rows = .ok rows' := by
  induction registrations generalizing rows with
  | nil => exact ⟨rows, rfl⟩
  | cons registration registrations ih =>
      rw [List.forall_mem_cons] at hrow hstorable
      obtain ⟨rows₁, hfirst, hprofile₁⟩ :=
        exists_persistRegistration hledger hrow.1 hprofile hstorable.1
      obtain ⟨rows₂, hrest⟩ := ih hrow.2 hstorable.2 hprofile₁
      refine ⟨rows₂, ?_⟩
      simp only [persistRegistrations, bind_eq_ok]
      exact ⟨rows₁, hfirst, hrest⟩

/-- The loop over the registrations fails at a registration with an unstorable value. -/
theorem isStorable_of_persistRegistrations {P : Platform} {profile : NetworkProfile}
    {ledger : ValidatedLedger} {registrations : List SchemaRegistrationResult}
    (hinterpreted : ∀ registration ∈ registrations, registration.IsInterpreted)
    {rows rows' : ProjectionRows}
    (h : persistRegistrations P profile ledger registrations rows = .ok rows') :
    ∀ registration ∈ registrations, registration.outcome.IsStorable P := by
  induction registrations generalizing rows with
  | nil => exact fun _ hmem => absurd hmem List.not_mem_nil
  | cons registration registrations ih =>
      rw [List.forall_mem_cons] at hinterpreted
      simp only [persistRegistrations, bind_eq_ok] at h
      obtain ⟨rows₁, hfirst, hrest⟩ := h
      exact List.forall_mem_cons.mpr
        ⟨isStorable_of_persistRegistration hinterpreted.1 hfirst, ih hinterpreted.2 hrest⟩

/-! ## The ledgers of a run -/

/-- Every memo of a ledger that can be parsed is storable. -/
def HasStorableMemos (ledger : ValidatedLedger) (profile : NetworkProfile) : Prop :=
  ∀ transaction ∈ ledger.transactions, hasStorableMemo transaction profile = true

/-- **A memo is a poison pill exactly when it escapes a character that `jsonb` refuses.**  For every
ledger that is projected:

* every value of every registration can be stored in its column exactly when no memo of the ledger
  that parses has U+0000 or an unpaired surrogate in a string or a key;
* a ledger with a memo that has one is never persisted, whatever the lease, the status and the rows,
  as long as it has no checkpoint yet;
* on a ledger without one, no registration makes a statement fail, when the accounts of the
  transactions are storable texts and their number fits the `integer` columns. -/
theorem registration_rows_storable_iff {P : Platform} {ledger : ValidatedLedger}
    {profile : NetworkProfile} {catalog : SchemaLookup} {projection : LedgerProjection}
    (h : projectLedger P ledger profile catalog = .ok projection) :
    ((∀ registration ∈ projection.schemaRegistrations, registration.outcome.IsStorable P) ↔
      HasStorableMemos ledger profile) ∧
    (¬HasStorableMemos ledger profile → ∀ token status clock rows,
      sameIndex ledger rows.toProjectionRows = none →
      ∃ error, persistLedger P profile projection token status clock rows = .error error) ∧
    (HasStorableMemos ledger profile → ledger.IsNormalized →
      ledger.transactions.length ≤ 2147483648 →
      (∀ registration ∈ projection.schemaRegistrations,
        isStorableText registration.publisher = true) →
      ∀ rows, rows.networkProfile.isSome = true →
      ∃ rows', persistRegistrations P profile projection.ledger projection.schemaRegistrations rows
        = .ok rows') := by
  obtain ⟨-, rfl⟩ := projectLedger_eq_ok.mp h
  have hinterpreted : ∀ registration ∈
      (projectTransactions P ledger profile ledger.transactions catalog).1,
      registration.IsInterpreted := by
    intro registration hmem
    obtain ⟨transaction, -, _, hread⟩ := mem_projectTransactions hmem
    exact isInterpreted_of_interpretSchemaRegistration hread
  have hiff : (∀ registration ∈
      (projectTransactions P ledger profile ledger.transactions catalog).1,
      registration.outcome.IsStorable P) ↔ HasStorableMemos ledger profile := by
    constructor
    · intro hall transaction hmem
      by_contra hbad
      rw [Bool.not_eq_true] at hbad
      obtain ⟨catalog', hcatalog⟩ := @exists_mem_projectTransactions P ledger profile
        ledger.transactions catalog transaction hmem
      obtain ⟨registration, hread⟩ := exists_registration_of_not_storable P hbad ledger.ledgerHash
        ledger.ledgerIndex catalog'
      have hstorable := hall registration (hcatalog registration hread)
      rw [interpretSchemaRegistration_isStorable hread, hbad] at hstorable
      cases hstorable
    · intro hall registration hmem
      obtain ⟨transaction, htransaction, _, hread⟩ := mem_projectTransactions hmem
      exact (interpretSchemaRegistration_isStorable hread).mpr (hall transaction htransaction)
  refine ⟨hiff, fun hbad token status clock rows hfresh => ?_,
    fun hgood hledger hlength hpublishers rows hprofile => ?_⟩
  · cases hresult : persistLedger P profile _ token status clock rows with
    | error error => exact ⟨error, rfl⟩
    | ok result =>
        obtain ⟨result, rows'⟩ := result
        obtain ⟨-, -, before, after, row, hensure, hpersists, -⟩ :=
          persistLedger_eq_ok.mp hresult
        have hsame : before.ledgerCheckpoints = rows.ledgerCheckpoints := by
          rcases ensureNetworkProfile_eq_ok.mp hensure with ⟨-, rfl⟩ | ⟨-, -, rfl⟩ <;> rfl
        rw [sameIndex, ← hsame] at hfresh
        rcases hpersists with ⟨found⟩ | ⟨-, written⟩
        · rw [sameIndex, hfresh] at found
          cases found
        · simp only [persistProjection, bind_eq_ok] at written
          obtain ⟨-, -, rows₁, hregistrations, -⟩ := written
          exact absurd (hiff.mp (isStorable_of_persistRegistrations hinterpreted hregistrations))
            hbad
  · refine exists_persistRegistrations hledger (fun registration hmem => ?_) (hiff.mpr hgood)
      hprofile
    obtain ⟨transaction, htransaction, _, hread⟩ := mem_projectTransactions hmem
    obtain ⟨hhash, hindex⟩ := place_of_interpretSchemaRegistration hread
    refine ⟨?_, ?_, hpublishers registration hmem, hinterpreted registration hmem⟩
    · rw [hhash]
      exact hledger.transactionHash transaction htransaction
    · have hmem' := List.mem_map_of_mem (f := (·.transactionIndex)) htransaction
      rw [hledger.transactionIndices, List.mem_range] at hmem'
      rw [hindex]
      omega

/-- A text in hexadecimal, as memos hold it. -/
def hexText (s : JsString) : JsValue :=
  .str (bytesToHex (encodeUtf8 s))

/-- A payment that registers the schema of a memo. -/
def registrationTransaction (memo : JsString) : LedgerTransaction where
  hash := List.replicate 64 0x62
  transaction := .obj [(js "TransactionType", .str (js "Payment")),
    (js "Account", .str (js "rHb9CJAWyB4rj91VRWn96DkukG4bwdtyTh")),
    (js "Destination", .str (js "rrrrrrrrrrrrrrrrrrrrrhoLvTp")), (js "Amount", .str (js "1")),
    (js "Memos", .arr [.obj [(js "Memo", .obj [
      (js "MemoType", hexText (js "xcs:schema_register")),
      (js "MemoFormat", hexText (js "application/json")), (js "MemoData", hexText memo)])]])]
  metadata := .obj [(js "TransactionResult", .str (js "tesSUCCESS")), (js "AffectedNodes", .arr [])]
  transactionIndex := 0

/-- The activation ledger of the profile with one registration in it. -/
def registrationLedger (memo : JsString) : ValidatedLedger where
  ledgerIndex := 7
  ledgerHash := List.replicate 64 0x61
  parentHash := List.replicate 64 0x30
  transactionRoot := List.replicate 64 0x31
  closeTime := 0
  transactions := [registrationTransaction memo]

/-- The memo `"\u0000"` is canonical JSON.  Its registration is rejected, the rejection keeps the
memo, and the transaction that persists the ledger aborts. -/
theorem registration_memo_poison :
    ∃ projection, projectLedger .sample (registrationLedger (js "\"\\u0000\"")) testnetProfile
        (fun _ => none) = .ok projection ∧
      (∃ registration ∈ projection.schemaRegistrations,
        ¬registration.outcome.IsStorable .sample) ∧
      thrown (persistLedger .sample testnetProfile projection ⟨js "testnet", js "a", 1⟩
          ⟨⟨some 7, some 7, some 7, some (List.replicate 64 0x61)⟩, .ready⟩ ⟨0, .at 0, le_rfl⟩
          leasedRows)
        = some (.database (.untranslatableCharacter (js "memo_json"))) := by
  refine ⟨_, projectLedger_eq_ok.mpr ⟨by decide, rfl⟩, ?_, by decide +kernel⟩
  have hbad : hasStorableMemo (registrationTransaction (js "\"\\u0000\"")) testnetProfile
      = false := by decide +kernel
  obtain ⟨catalog, hcatalog⟩ := exists_mem_projectTransactions (List.mem_singleton_self _)
  obtain ⟨registration, hread⟩ := exists_registration_of_not_storable .sample hbad _ _ catalog
  refine ⟨registration, hcatalog registration hread, fun hstorable => ?_⟩
  rw [interpretSchemaRegistration_isStorable hread, hbad] at hstorable
  cases hstorable

/-- The memo `1` is rejected as well, and its ledger is persisted. -/
theorem registration_rows_storable_number :
    ∃ projection, projectLedger .sample (registrationLedger (js "1")) testnetProfile
        (fun _ => none) = .ok projection ∧
      ∀ registration ∈ projection.schemaRegistrations, registration.outcome.IsStorable .sample := by
  have h := (@projectLedger_eq_ok .sample (registrationLedger (js "1")) testnetProfile
    (fun _ => none) _).mpr ⟨by decide, rfl⟩
  refine ⟨_, h, (registration_rows_storable_iff h).1.mpr ?_⟩
  exact List.forall_mem_singleton.mpr (by decide +kernel)

end Indexer
end Xcs
