import Xcs.Agreement.ServedSchemas
import Xcs.Indexer.CredentialLifecycle
import Xcs.Indexer.Uninterrupted
import Xcs.Run.Keyset

/-!
# What the tables of an indexer hold

Every row that is computed from the ledgers was written for a transaction of the chain, at its
place, and with values that can be read back and written as JSON.  The constraints of the database
see to a part of this, the interpretation of the transactions to the rest.

* `IsTable p key rows`: every row fulfils `p`, and no two have the same key.
* `HoldsRows.persistProjection` is what one ledger adds, and `holdsRows_of_indexedUpTo` what the
  tables hold after any number of them.
* `IsOfChain.hash_eq`: a place of the chain has one transaction, so no two rows share a place.
-/

namespace Xcs
namespace Agreement

open Js Json Xcs.Core Db Indexer Web Keyset

/-! ## Rows -/

/-- A value as it is read from a `jsonb` column. -/
structure IsWrittenJson (v : JsValue) : Prop where
  isJson : v.isJson = true
  strings : v.allStrings isWellFormed = true

theorem isJson_of_plainDatabaseJson {P : Platform} {v w : JsValue}
    (h : plainDatabaseJson P v = .ok w) : w.isJson = true := by
  obtain ⟨hwritable, rfl⟩ := plainDatabaseJson_eq_ok.mp h
  refine isJson_materialize ?_
  rw [JsValue.isJson_canon]
  exact isJson_of_isWritable hwritable

/-- A row of `ledger_checkpoints`. -/
structure IsWrittenCheckpoint (row : LedgerCheckpointRow) : Prop where
  checks : ∀ c ∈ row.checks, c.2 = true
  transactionCount : isInt4 row.transactionCount = true

section Rows

variable (profile : NetworkProfile) (Q : ℤ → ℤ → JsString → Prop)

/-- A row of `schema_events`, for a transaction at its place. -/
structure IsWrittenEvent (row : SchemaEventRow) : Prop where
  profileId : row.profileId = profile.profileId
  place : Q row.ledgerIndex row.transactionIndex row.transactionHash
  checks : ∀ c ∈ row.checks, c.2 = true
  transactionIndex : isInt4 row.transactionIndex = true
  publisher : isWellFormed row.publisher = true
  reasonCode : row.reasonCode.all isWellFormed = true
  memoJson : IsWrittenJson row.memoJson

/-- A row of `schemas`. -/
structure IsWrittenSchema (row : SchemaRow) : Prop where
  profileId : row.profileId = profile.profileId
  place : Q row.ledgerIndex row.transactionIndex row.registrationTransactionHash
  checks : ∀ c ∈ row.checks, c.2 = true
  transactionIndex : isInt4 row.transactionIndex = true
  publisher : isWellFormed row.publisher = true
  name : isWellFormed row.name = true
  description : isWellFormed row.description = true
  definition : IsWrittenJson row.definition
  resolvedDefinition : IsWrittenJson row.resolvedDefinition

/-- A row of `credential_generations`: the generation has the hash of the transaction that created
it. -/
structure IsWrittenGeneration (row : CredentialGenerationRow) : Prop where
  profileId : row.profileId = profile.profileId
  place : Q row.createdLedgerIndex row.createdTransactionIndex row.generationId
  checks : ∀ c ∈ row.checks, c.2 = true
  createdTransactionIndex : isInt4 row.createdTransactionIndex = true
  issuer : isWellFormed row.issuer = true
  subject : isWellFormed row.subject = true
  uriHex : row.uriHex.all isWellFormed = true

/-- A row of `credential_events`. -/
structure IsWrittenCredentialEvent (row : CredentialEventRow) : Prop where
  profileId : row.profileId = profile.profileId
  place : Q row.ledgerIndex row.transactionIndex row.transactionHash
  generationId : isLowerHash row.generationId = true
  checks : ∀ c ∈ row.checks, c.2 = true
  nodeIndex : isInt4 row.nodeIndex = true
  transactionIndex : isInt4 row.transactionIndex = true
  issuer : isWellFormed row.issuer = true
  subject : isWellFormed row.subject = true
  uriHex : row.uriHex.all isWellFormed = true
  deletionCause : row.deletionCause.all isWellFormed = true
  snapshot : IsWrittenJson row.snapshot

/-- **What the tables hold**, where `Q` says which transaction is at a place. -/
structure HoldsRows (rows : ProjectionRows) : Prop where
  checkpoints : IsTable IsWrittenCheckpoint (·.ledgerIndex) rows.ledgerCheckpoints
  events : IsTable (IsWrittenEvent profile Q) (·.transactionHash) rows.schemaEvents
  schemas : IsTable (IsWrittenSchema profile Q) (·.registrationTransactionHash) rows.schemas
  generations : IsTable (IsWrittenGeneration profile Q) (·.generationId) rows.credentialGenerations
  credentialEvents : IsTable (IsWrittenCredentialEvent profile Q)
    (fun row => (row.transactionHash, row.nodeIndex)) rows.credentialEvents

end Rows

section Insertions

variable {profile : NetworkProfile} {Q R : ℤ → ℤ → JsString → Prop} {rows rows' : ProjectionRows}

theorem HoldsRows.mono (h : HoldsRows profile Q rows)
    (hQR : ∀ ledgerIndex transactionIndex hash, Q ledgerIndex transactionIndex hash →
      R ledgerIndex transactionIndex hash) : HoldsRows profile R rows where
  checkpoints := h.checkpoints
  events := h.events.mono fun _ row => { row with place := hQR _ _ _ row.place }
  schemas := h.schemas.mono fun _ row => { row with place := hQR _ _ _ row.place }
  generations := h.generations.mono fun _ row => { row with place := hQR _ _ _ row.place }
  credentialEvents := h.credentialEvents.mono fun _ row => { row with place := hQR _ _ _ row.place }

theorem HoldsRows.start : HoldsRows profile Q (IndexedState.start profile).rows :=
  ⟨.nil, .nil, .nil, .nil, .nil⟩

theorem HoldsRows.insertLedgerCheckpoint (h : HoldsRows profile Q rows)
    {row : LedgerCheckpointRow} (hinsert : insertLedgerCheckpoint row rows = .ok rows') :
    HoldsRows profile Q rows' := by
  obtain ⟨hstores, hchecks, hindex, -, rfl⟩ := insertLedgerCheckpoint_eq_ok.mp hinsert
  exact { h with
    checkpoints := h.checkpoints.snoc
      ⟨hchecks, hstores.integers _ (List.mem_singleton_self _)⟩ hindex }

theorem HoldsRows.insertSchemaEvent (h : HoldsRows profile Q rows) {row : SchemaEventRow}
    (hprofile : row.profileId = profile.profileId)
    (hplace : Q row.ledgerIndex row.transactionIndex row.transactionHash)
    (hreason : row.reasonCode.all isWellFormed = true) (hjson : row.memoJson.isJson = true)
    (hinsert : insertSchemaEvent row rows = .ok rows') : HoldsRows profile Q rows' := by
  obtain ⟨hstores, hchecks, ⟨-, rfl⟩ | ⟨hnew, -, rfl⟩⟩ := insertSchemaEvent_eq_ok.mp hinsert
  · exact h
  · refine { h with events := h.events.snoc ?_ hnew }
    exact {
      profileId := hprofile
      place := hplace
      checks := hchecks
      transactionIndex := hstores.integers _ (List.mem_singleton_self _)
      publisher := isWellFormed_toWellFormed _
      reasonCode := hreason
      memoJson := ⟨hjson, JsValue.allStrings_imp (fun _ => isWellFormed_of_isStorableString)
        (hstores.jsonbs _ (List.mem_singleton_self _))⟩ }

theorem HoldsRows.insertSchema (h : HoldsRows profile Q rows) {row : SchemaRow}
    (hprofile : row.profileId = profile.profileId)
    (hplace : Q row.ledgerIndex row.transactionIndex row.registrationTransactionHash)
    (hdefinition : row.definition.isJson = true)
    (hresolved : row.resolvedDefinition.isJson = true)
    (hinsert : insertSchema row rows = .ok rows') : HoldsRows profile Q rows' := by
  obtain ⟨hstores, hchecks, ⟨-, rfl⟩ | ⟨hnew, -, -, rfl⟩⟩ := insertSchema_eq_ok.mp hinsert
  · exact h
  · have hstrings : ∀ c ∈ row.values.jsonbs, c.2.allStrings isWellFormed = true := fun c hc =>
      JsValue.allStrings_imp (fun _ => isWellFormed_of_isStorableString) (hstores.jsonbs c hc)
    simp only [SchemaRow.values, List.forall_mem_cons, List.not_mem_nil, false_implies,
      implies_true, and_true] at hstrings
    refine { h with
      schemas := h.schemas.snoc ?_ fun other hother hsame => hnew other hother (Or.inr hsame) }
    exact {
      profileId := hprofile
      place := hplace
      checks := hchecks
      transactionIndex := hstores.integers _ (List.mem_singleton_self _)
      publisher := isWellFormed_toWellFormed _
      name := isWellFormed_toWellFormed _
      description := isWellFormed_toWellFormed _
      definition := ⟨hdefinition, hstrings.1⟩
      resolvedDefinition := ⟨hresolved, hstrings.2⟩ }

theorem HoldsRows.insertCredentialGeneration (h : HoldsRows profile Q rows)
    {row : CredentialGenerationRow} (hprofile : row.profileId = profile.profileId)
    (hplace : Q row.createdLedgerIndex row.createdTransactionIndex row.generationId)
    (hissuer : isWellFormed row.issuer = true) (hsubject : isWellFormed row.subject = true)
    (huriHex : row.uriHex.all isWellFormed = true)
    (hinsert : insertCredentialGeneration row rows = .ok rows') : HoldsRows profile Q rows' := by
  obtain ⟨hstores, hchecks, hnew, -, -, -, rfl⟩ := insertCredentialGeneration_eq_ok.mp hinsert
  exact { h with
    generations := h.generations.snoc
      { profileId := hprofile
        place := hplace
        checks := hchecks
        createdTransactionIndex := hstores.integers _ (List.mem_singleton_self _)
        issuer := hissuer
        subject := hsubject
        uriHex := huriHex } hnew }

/-- An update of generations that leaves alone what they were created with. -/
theorem HoldsRows.updateCredentialGeneration (h : HoldsRows profile Q rows)
    {generationId : JsString} {set : CredentialGenerationRow → CredentialGenerationRow}
    (hset : ∀ row, IsWrittenGeneration profile Q row → (∀ c ∈ (set row).checks, c.2 = true) →
      IsWrittenGeneration profile Q (set row))
    (hid : ∀ row, (set row).generationId = row.generationId)
    (hupdate : updateCredentialGeneration generationId set rows = .ok rows') :
    HoldsRows profile Q rows' := by
  obtain ⟨hchecks, rfl⟩ := updateCredentialGeneration_eq_ok.mp hupdate
  refine { h with generations := h.generations.update (fun row hrow hwritten => ?_) fun row => ?_ }
  · split_ifs with hsame
    · exact hset row hwritten (hchecks row hrow hsame)
    · exact hwritten
  · split_ifs
    · exact hid row
    · rfl

theorem HoldsRows.insertCredentialEvent (h : HoldsRows profile Q rows) {row : CredentialEventRow}
    (hprofile : row.profileId = profile.profileId)
    (hplace : Q row.ledgerIndex row.transactionIndex row.transactionHash)
    (hissuer : isWellFormed row.issuer = true) (hsubject : isWellFormed row.subject = true)
    (huriHex : row.uriHex.all isWellFormed = true)
    (hcause : row.deletionCause.all isWellFormed = true) (hjson : row.snapshot.isJson = true)
    (hinsert : insertCredentialEvent row rows = .ok rows') : HoldsRows profile Q rows' := by
  obtain ⟨hstores, hchecks, ⟨-, rfl⟩ | ⟨hnew, -, -, ⟨generation, hgeneration, hid⟩, rfl⟩⟩ :=
    insertCredentialEvent_eq_ok.mp hinsert
  · exact h
  · have hwritten := (h.generations.every generation hgeneration).checks
    have hintegers := hstores.integers
    simp only [CredentialEventRow.values, List.forall_mem_cons, List.not_mem_nil, false_implies,
      implies_true, and_true] at hintegers
    refine { h with
      credentialEvents := h.credentialEvents.snoc ?_ fun other hother hsame =>
        hnew other hother (Prod.mk.inj hsame) }
    exact {
      profileId := hprofile
      place := hplace
      generationId := by
        rw [← hid]
        simp only [CredentialGenerationRow.checks, List.forall_mem_cons] at hwritten
        exact hwritten.2.2.2.2.2.2.1
      checks := hchecks
      nodeIndex := hintegers.1
      transactionIndex := hintegers.2
      issuer := hissuer
      subject := hsubject
      uriHex := huriHex
      deletionCause := hcause
      snapshot := ⟨hjson, JsValue.allStrings_imp (fun _ => isWellFormed_of_isStorableString)
        (hstores.jsonbs _ (List.mem_singleton_self _))⟩ }

end Insertions

/-! ## What a ledger gives -/

/-- What is found in a JSON value is a JSON value, unless it is not there. -/
theorem isJson_get_of_isObject {v : JsValue} (h : v.isJson = true) {key : JsString}
    (hdefined : (v.get key).isUndefined = false) : (v.get key).isJson = true := by
  cases v with
  | obj members =>
      rw [JsValue.isJson_obj, List.all_eq_true] at h
      rw [JsValue.get_obj] at hdefined ⊢
      cases hlookup : members.lookup key with
      | none =>
          rw [hlookup] at hdefined
          cases hdefined
      | some w =>
          obtain ⟨before, after, hmembers, -⟩ := List.lookup_eq_some_iff.mp hlookup
          exact h (key, w) (by rw [hmembers]; simp)
  | _ => cases hdefined

theorem asRecord_eq_some {v w : JsValue} : asRecord v = some w ↔ v.isObject = true ∧ v = w := by
  rw [asRecord]
  split_ifs with h <;> simp [h]

/-- The fields of a node are part of it. -/
theorem isJson_fields_of_readNode {raw : JsValue} (h : raw.isJson = true) {node : NormalizedNode}
    (hread : readNode raw = some node) : node.fields.isJson = true := by
  have hrecord : ∀ {v w : JsValue} {key : JsString}, v.isJson = true →
      asRecord (v.get key) = some w → w.isJson = true := by
    intro v w key hv hw
    obtain ⟨hobject, rfl⟩ := asRecord_eq_some.mp hw
    refine isJson_get_of_isObject hv ?_
    cases hget : v.get key with
    | undefined => rw [hget] at hobject; cases hobject
    | _ => rfl
  rw [readNode, Option.bind_eq_some_iff] at hread
  obtain ⟨⟨kind, found⟩, hfound, hnode⟩ := hread
  obtain ⟨kind', -, hkind⟩ := List.exists_of_findSome?_eq_some hfound
  rw [Option.map_eq_some_iff] at hkind
  obtain ⟨found', hcredential, hsame⟩ := hkind
  rw [Prod.mk.injEq] at hsame
  obtain ⟨rfl, rfl⟩ := hsame
  rw [credentialNode, Option.filter_eq_some_iff] at hcredential
  rw [normalizeNode] at hnode
  split at hnode
  · split at hnode
    · obtain ⟨fields, hfields, rfl⟩ := Option.map_eq_some_iff.mp hnode
      exact hrecord (hrecord h hcredential.1) hfields
    · cases hnode
  · cases hnode

theorem isPlain_of_isReasonCode {s : JsString} (h : isReasonCode s = true) : isPlain s = true := by
  cases s with
  | nil => rfl
  | cons u rest =>
      simp only [isReasonCode, matchesIdentifier, Bool.and_eq_true, List.all_eq_true] at h
      obtain ⟨⟨hu, -⟩, hrest⟩ := h
      rw [isPlain, List.all_eq_true]
      intro v hv
      rcases List.mem_cons.mp hv with rfl | hv
      · simp only [isUpper, Bool.and_eq_true, decide_eq_true_eq, UInt16.le_iff_toNat_le] at hu ⊢
        simp only [UInt16.reduceToNat] at hu ⊢
        omega
      · have := hrest v hv
        simp only [isUpper, isDigit, Bool.or_eq_true, Bool.and_eq_true, decide_eq_true_eq,
          beq_iff_eq, UInt16.le_iff_toNat_le, ← UInt16.toNat_inj] at this ⊢
        simp only [UInt16.reduceToNat] at this ⊢
        omega

/-- A mutation of a ledger: it belongs to a transaction of it, and what it says is well formed. -/
structure IsExtracted (ledger : ValidatedLedger) (mutation : CredentialMutation) : Prop where
  transaction : ∃ tx ∈ ledger.transactions, mutation.transactionHash = tx.hash ∧
    mutation.transactionIndex = tx.transactionIndex
  issuer : isWellFormed mutation.issuer = true
  subject : isWellFormed mutation.subject = true
  uriHex : (some mutation.uriHex).all isWellFormed = true
  snapshot : mutation.snapshot.isJson = true

theorem isPlain_of_all_isHexDigit {s : JsString} (h : s.all isHexDigit = true) :
    isPlain s = true := by
  rw [List.all_eq_true] at h
  rw [isPlain, List.all_eq_true]
  intro u hu
  have hdigit := h u hu
  simp only [isHexDigit, isLowerHexDigit, Bool.or_eq_true, Bool.and_eq_true, decide_eq_true_eq,
    UInt16.le_iff_toNat_le] at hdigit ⊢
  simp only [UInt16.reduceToNat] at hdigit ⊢
  omega

theorem isPlain_of_hasPayloadUri {P : Platform} {uriHex : JsString}
    (h : hasPayloadUri P uriHex = true) : isPlain uriHex = true := by
  have hsome : (hexToBytes uriHex).isSome = true := by
    rw [hasPayloadUri] at h
    cases hbytes : hexToBytes uriHex with
    | none => rw [hbytes] at h; cases h
    | some bytes => rfl
  rw [isSome_hexToBytes, Bool.and_eq_true] at hsome
  exact isPlain_of_all_isHexDigit hsome.2

theorem isExtracted_of_mem {P : Platform} {profile : NetworkProfile} {ledger : ValidatedLedger}
    (hmetadata : ∀ tx ∈ ledger.transactions, tx.metadata.isJson = true)
    {transactions : List LedgerTransaction}
    (htransactions : ∀ tx ∈ transactions, tx ∈ ledger.transactions) {catalog : SchemaLookup}
    {mutation : CredentialMutation}
    (h : mutation ∈ (projectTransactions P ledger profile transactions catalog).2.1) :
    IsExtracted ledger mutation := by
  induction transactions generalizing catalog with
  | nil => cases h
  | cons tx transactions ih =>
      rw [List.forall_mem_cons] at htransactions
      rw [projectTransactions, List.mem_append] at h
      rcases h with h | h
      · rw [extractCredentialMutations] at h
        split at h
        · rename_i nodes hnodes
          obtain ⟨i, raw, hraw, hnode⟩ := mem_extractNodes.mp h
          obtain ⟨node, issuer, subject, credentialType, uriHex, eventType, hwell, -, rfl⟩ :=
            interpretNode_eq_mutation.mp hnode
          have hall := hmetadata tx htransactions.1
          have hdefined : (tx.metadata.get (js "AffectedNodes")).isUndefined = false := by
            rw [hnodes]
            rfl
          have hjson := isJson_get_of_isObject hall hdefined
          rw [hnodes, JsValue.isJson_arr, List.all_eq_true] at hjson
          have haddress : ∀ {s : JsString}, P.isValidClassicAddress s = true →
              isWellFormed s = true := fun hs => isWellFormed_of_isPlain
            (isPlain_of_hasAddressShape (P.hasAddressShape_of_valid _ hs))
          exact {
            transaction := ⟨tx, htransactions.1, rfl, rfl⟩
            issuer := haddress hwell.names.validIssuer
            subject := haddress hwell.names.validSubject
            uriHex := isWellFormed_of_isPlain (isPlain_of_hasPayloadUri hwell.carries.payload)
            snapshot := isJson_fields_of_readNode (hjson raw (List.mem_of_getElem? hraw))
              hwell.read }
        · cases h
      · exact ih htransactions.2 h

section Ledger

variable {P : Platform} {profile : NetworkProfile} {ledger : ValidatedLedger}
  {Q : ℤ → ℤ → JsString → Prop} {rows rows' : ProjectionRows}
  (hQ : ∀ tx ∈ ledger.transactions, Q ledger.ledgerIndex tx.transactionIndex tx.hash)

include hQ

/-- The rows of a registration. -/
theorem HoldsRows.persistRegistration (h : HoldsRows profile Q rows)
    {tx : LedgerTransaction} (htx : tx ∈ ledger.transactions) {catalog : SchemaLookup}
    {registration : SchemaRegistrationResult}
    (hread : interpretSchemaRegistration P tx ledger.ledgerHash ledger.ledgerIndex profile catalog
      = some registration)
    (hpersist : persistRegistration P profile ledger registration rows = .ok rows') :
    HoldsRows profile Q rows' := by
  obtain ⟨hhash, hindex⟩ := place_of_interpretSchemaRegistration hread
  have hplace :
      Q ledger.ledgerIndex registration.transactionIndex registration.transactionHash := by
    rw [hhash, hindex]
    exact hQ tx htx
  cases houtcome : registration.outcome with
  | accepted schemaUid memoJson definition resolved =>
      simp only [Indexer.persistRegistration, houtcome, bind_eq_ok] at hpersist
      obtain ⟨memo, hmemo, between, hevent, definitionJson, hdefinition, resolvedJson, hresolved,
        hschema⟩ := hpersist
      have hevents := h.insertSchemaEvent rfl hplace rfl (isJson_of_plainDatabaseJson hmemo) hevent
      exact hevents.insertSchema rfl hplace (isJson_of_plainDatabaseJson hdefinition)
        (isJson_of_plainDatabaseJson hresolved) hschema
  | rejected reasonCode memoJson =>
      have hreason : (some reasonCode).all isWellFormed = true :=
        isWellFormed_of_isPlain (isPlain_of_isReasonCode (isReasonCode_of_rejected hread houtcome))
      cases memoJson with
      | none =>
          rw [Indexer.persistRegistration, houtcome] at hpersist
          exact h.insertSchemaEvent rfl hplace hreason rfl hpersist
      | some memoJson =>
          simp only [Indexer.persistRegistration, houtcome, bind_eq_ok] at hpersist
          obtain ⟨memo, hmemo, hevent⟩ := hpersist
          exact h.insertSchemaEvent rfl hplace hreason (isJson_of_plainDatabaseJson hmemo) hevent

theorem HoldsRows.persistRegistrations (h : HoldsRows profile Q rows)
    {registrations : List SchemaRegistrationResult}
    (hread : ∀ registration ∈ registrations, ∃ tx ∈ ledger.transactions, ∃ catalog,
      interpretSchemaRegistration P tx ledger.ledgerHash ledger.ledgerIndex profile catalog
        = some registration)
    (hpersist : persistRegistrations P profile ledger registrations rows = .ok rows') :
    HoldsRows profile Q rows' := by
  induction registrations generalizing rows with
  | nil =>
      obtain rfl := Except.ok.inj hpersist
      exact h
  | cons registration registrations ih =>
      rw [List.forall_mem_cons] at hread
      obtain ⟨⟨tx, htx, catalog, hfirst⟩, hread⟩ := hread
      simp only [Indexer.persistRegistrations, bind_eq_ok] at hpersist
      obtain ⟨between, hbetween, hrest⟩ := hpersist
      exact ih (h.persistRegistration hQ htx hfirst hbetween) hread hrest

/-- The generation of a mutation. -/
theorem HoldsRows.persistGeneration (h : HoldsRows profile Q rows) {mutation : CredentialMutation}
    (hmutation : IsExtracted ledger mutation) {generationId : JsString}
    (hpersist : persistGeneration profile ledger mutation rows = .ok (generationId, rows')) :
    HoldsRows profile Q rows' := by
  obtain ⟨tx, htx, hhash, hindex⟩ := hmutation.transaction
  rw [persistGeneration.eq_def] at hpersist
  split at hpersist
  · simp only [bind_eq_ok, pure_eq_ok, Prod.mk.injEq] at hpersist
    obtain ⟨_, hinsert, -, rfl⟩ := hpersist
    refine h.insertCredentialGeneration rfl ?_ hmutation.issuer hmutation.subject
      hmutation.uriHex hinsert
    show Q ledger.ledgerIndex mutation.transactionIndex mutation.transactionHash
    rw [hhash, hindex]
    exact hQ tx htx
  · cases hpersist
  · simp only [bind_eq_ok, pure_eq_ok, Prod.mk.injEq] at hpersist
    obtain ⟨_, hupdate, -, rfl⟩ := hpersist
    refine h.updateCredentialGeneration (fun row hrow hchecks => ?_) (fun row => ?_) hupdate
    · exact { hrow with checks := hchecks }
    · rfl
  · simp only [bind_eq_ok, pure_eq_ok, Prod.mk.injEq] at hpersist
    obtain ⟨_, hupdate, -, rfl⟩ := hpersist
    refine h.updateCredentialGeneration (fun row hrow hchecks => ?_) (fun row => ?_) hupdate
    · exact { hrow with checks := hchecks }
    · rfl

theorem HoldsRows.persistCredentialMutations (h : HoldsRows profile Q rows)
    {mutations : List CredentialMutation}
    (hmutations : ∀ mutation ∈ mutations, IsExtracted ledger mutation)
    (hpersist : persistCredentialMutations profile ledger mutations rows = .ok rows') :
    HoldsRows profile Q rows' := by
  induction mutations generalizing rows with
  | nil =>
      obtain rfl := Except.ok.inj hpersist
      exact h
  | cons mutation mutations ih =>
      rw [List.forall_mem_cons] at hmutations
      obtain ⟨hmutation, hmutations⟩ := hmutations
      simp only [Indexer.persistCredentialMutations, persistCredentialMutation, bind_eq_ok,
        Prod.exists] at hpersist
      obtain ⟨between, ⟨generationId, generations, hgeneration, hevent⟩, hrest⟩ := hpersist
      refine ih ((h.persistGeneration hQ hmutation hgeneration).insertCredentialEvent rfl ?_
        hmutation.issuer hmutation.subject hmutation.uriHex ?_ hmutation.snapshot hevent)
        hmutations hrest
      · obtain ⟨tx, htx, hhash, hindex⟩ := hmutation.transaction
        show Q ledger.ledgerIndex mutation.transactionIndex mutation.transactionHash
        rw [hhash, hindex]
        exact hQ tx htx
      · show (mutation.deletionCause.map CredentialDeletionCause.text).all isWellFormed = true
        cases mutation.deletionCause with
        | none => rfl
        | some cause => cases cause <;> decide

/-- **What one ledger adds.** -/
theorem HoldsRows.persistProjection (h : HoldsRows profile Q rows)
    (hmetadata : ∀ tx ∈ ledger.transactions, tx.metadata.isJson = true) {catalog : SchemaLookup}
    {projection : LedgerProjection}
    (hprojection : projectLedger P ledger profile catalog = .ok projection)
    (hpersist : persistProjection P profile projection rows = .ok rows') :
    HoldsRows profile Q rows' := by
  obtain ⟨-, rfl⟩ := projectLedger_eq_ok.mp hprojection
  simp only [Indexer.persistProjection, bind_eq_ok] at hpersist
  obtain ⟨-, -, registered, hregistered, mutated, hmutated, hcheckpoint⟩ := hpersist
  have hregistrations := h.persistRegistrations hQ (fun _ => mem_projectTransactions) hregistered
  have hmutations := hregistrations.persistCredentialMutations hQ
    (fun _ => isExtracted_of_mem hmetadata fun _ htx => htx) hmutated
  exact hmutations.insertLedgerCheckpoint hcheckpoint

end Ledger

/-! ## The places of a chain -/

section Chain

variable {P : Platform} {profile : NetworkProfile} {chain : ℕ → ValidatedLedger}

/-- The transaction with a hash is at a place of the first ledgers. -/
def IsOfChain (profile : NetworkProfile) (chain : ℕ → ValidatedLedger) (n : ℕ)
    (ledgerIndex transactionIndex : ℤ) (hash : JsString) : Prop :=
  ∃ i < n, ∃ tx ∈ (chain (profile.activationLedgerIndex + i)).transactions,
    ledgerIndex = (chain (profile.activationLedgerIndex + i)).ledgerIndex ∧
      transactionIndex = tx.transactionIndex ∧ hash = tx.hash

/-- A place of the chain has one transaction. -/
theorem IsOfChain.hash_eq (hnormalized : ∀ i, (chain i).IsNormalized) {n : ℕ}
    (hindex : ∀ i < n, (chain (profile.activationLedgerIndex + i)).ledgerIndex
      = profile.activationLedgerIndex + i) {ledgerIndex transactionIndex : ℤ}
    {hash hash' : JsString} (h : IsOfChain profile chain n ledgerIndex transactionIndex hash)
    (h' : IsOfChain profile chain n ledgerIndex transactionIndex hash') : hash = hash' := by
  obtain ⟨i, hi, tx, htx, hledger, htransaction, rfl⟩ := h
  obtain ⟨j, hj, tx', htx', hledger', htransaction', rfl⟩ := h'
  rw [hindex i hi] at hledger
  rw [hindex j hj] at hledger'
  obtain rfl : i = j := by omega
  have hnodup : ((chain (profile.activationLedgerIndex + i)).transactions.map
      (·.transactionIndex)).Nodup := by
    rw [(hnormalized _).transactionIndices]
    exact List.nodup_range
  rw [List.inj_on_of_nodup_map hnodup htx htx'
    (Int.natCast_inj.mp (htransaction.symm.trans htransaction'))]

/-- **What the tables hold after any number of ledgers.** -/
theorem holdsRows_of_indexedUpTo (hchain : IsIndexable P profile chain) {n : ℕ}
    {s : IndexedState} (h : indexedUpTo P profile chain n = .ok s) :
    HoldsRows profile (IsOfChain profile chain n) s.rows := by
  induction n generalizing s with
  | zero =>
      obtain rfl := Except.ok.inj h
      exact .start
  | succ n ih =>
      obtain ⟨before, projection, hbefore, hprojection, hrows, -, -⟩ := indexedUpTo_succ.mp h
      have hbefore : HoldsRows profile (IsOfChain profile chain (n + 1)) before.rows := by
        refine (ih hbefore).mono ?_
        rintro ledgerIndex transactionIndex hash ⟨i, hi, hplace⟩
        exact ⟨i, hi.trans (Nat.lt_succ_self n), hplace⟩
      refine hbefore.persistProjection (fun tx htx => ?_) (hchain.normalized _).metadata
        hprojection hrows
      exact ⟨n, Nat.lt_succ_self n, tx, htx, rfl, rfl, rfl⟩

end Chain

end Agreement
end Xcs
