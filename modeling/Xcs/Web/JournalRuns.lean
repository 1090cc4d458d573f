import Xcs.Run.Basic
import Xcs.Web.OperationJournal

/-!
# Runs of the operation journal

Any number of tabs write to the journal in any order.  Two things are meant to hold whatever they
do: a business key has one holder, and the verdict of the indexer, once recorded with its evidence,
stays.  Neither does, for one reason: `setBusinessConfirmation` does not look at what is recorded.
A tab that started to poll early may write its timeout after another tab has recorded the verdict,
and after the key has passed to a successor.

* `confirmOperation_eq_ok` says what a confirmation changes, and
  `operationBusinessConfirmation_of_confirm` that the verdict is read back.
* `businessLock_exclusive` is the invariant of the key and `recorded_verdict_kept` that of the
  verdict, each over the runs without the late writes that break it.
* `two_holders` and `verdict_lost` are runs with such a write.
-/

namespace Xcs
namespace Web

open Js Xcs.Core Sdk Indexer

variable {B : Browser}

/-! ## What a write does -/

/-- A mutation replaces the operation it reads. -/
theorem mutate_eq_ok {operationId : JsString}
    {change : StoredOperation → Except Thrown StoredOperation} {journal journal' : OperationJournal}
    (h : mutate operationId change journal = .ok journal') :
    ∃ existing changed, journal.get operationId = some existing ∧
      change existing = .ok changed ∧ journal' = journal.put changed := by
  unfold mutate at h
  split at h
  · cases h
  · rename_i existing hget
    simp only [bind_eq_ok, pure_eq_ok] at h
    obtain ⟨changed, hchange, rfl⟩ := h
    exact ⟨existing, changed, hget, hchange, rfl⟩

theorem lockedByOther_eq_false {journal : OperationJournal} {operationId key : JsString}
    (h : lockedByOther B journal operationId (some key) = false) {operation : StoredOperation}
    (hmem : operation ∈ journal) (hid : operation.operationId ≠ operationId) :
    businessLock B operation ≠ some key := by
  intro hlock
  have htrue : lockedByOther B journal operationId (some key) = true := by
    rw [lockedByOther, Option.isSome_some, Bool.true_and, List.any_eq_true]
    refine ⟨operation, hmem, ?_⟩
    rw [Bool.and_eq_true, bne_iff_ne, beq_iff_eq]
    exact ⟨hid, hlock⟩
  rw [htrue] at h
  cases h

/-- What `create` stores: a prepared operation under a new identifier, its context validated, whose
business key no stored operation holds. -/
theorem create_eq_ok {seed : OperationSeed} {journal journal' : OperationJournal}
    (h : create B seed journal = .ok journal') :
    ∃ created : StoredOperation, journal' = journal.put created ∧
      journal.get created.operationId = none ∧ created.stage = .prepared ∧
      created.businessEvidence = none ∧
      sanitizeOperationBusinessContext B created.business = created.business ∧
      ∀ operation ∈ journal, operation.operationId ≠ created.operationId → ∀ key,
        operationBusinessKey created.profileId created.business = some key →
        businessLock B operation ≠ some key := by
  simp only [create, bind_eq_ok, ensure_eq_ok, pure_eq_ok] at h
  obtain ⟨business, hbusiness, -, -, -, hnew, -, hfree, rfl⟩ := h
  refine ⟨_, rfl, Option.isNone_iff_eq_none.mp hnew, rfl, rfl, ?_, ?_⟩
  · show sanitizeOperationBusinessContext B business = business
    rcases validateWhen_eq_ok.mp hbusiness with ⟨-, rfl⟩ | ⟨-, context, hvalid, rfl⟩
    · rfl
    · show (validateOperationBusinessContext B context.toJs).toOption = some context
      rw [validateOperationBusinessContext_stable hvalid]
      rfl
  · intro operation hmem hid key hkey
    rw [Bool.not_eq_true'] at hfree
    exact lockedByOther_eq_false (hkey ▸ hfree) hmem hid

/-- What `persistSigned` changes: a prepared operation becomes a signed one. -/
theorem persistSigned_eq_ok {record : SignedOperationRecord}
    {journal journal' : OperationJournal} (h : persistSigned B record journal = .ok journal') :
    ∃ existing changed, journal.get record.operationId = some existing ∧
      existing.stage = .prepared ∧ journal' = journal.put changed ∧
      changed = { existing with
        updatedAt := record.atTime, stage := .signed, txHash := some record.txHash,
        txBlob := some record.txBlob, lastLedgerSequence := some record.lastLedgerSequence,
        message := none } := by
  obtain ⟨existing, changed, hget, hchange, rfl⟩ := mutate_eq_ok h
  simp only [bind_eq_ok, ensure_eq_ok, pure_eq_ok, beq_iff_eq] at hchange
  obtain ⟨-, hstage, -, -, rfl⟩ := hchange
  exact ⟨existing, _, hget, hstage, rfl, rfl⟩

theorem append_eq_ok {entry : SubmissionJournalEntry} {journal journal' : OperationJournal}
    (h : append entry journal = .ok journal') :
    ∃ existing, journal.get entry.operationId = some existing ∧
      journal' = journal.put (applyJournalEntry existing entry) := by
  obtain ⟨existing, changed, hget, hchange, rfl⟩ := mutate_eq_ok h
  rw [pure_eq_ok] at hchange
  exact ⟨existing, hget, hchange ▸ rfl⟩

theorem abandon_eq_ok {operationId : JsString} {journal journal' : OperationJournal}
    (h : abandon operationId journal = .ok journal') :
    ∃ existing, journal.get operationId = some existing ∧ canAbandonOperation existing = true ∧
      journal' = journal.delete operationId := by
  unfold abandon at h
  split at h
  · cases h
  · rename_i existing hget
    simp only [bind_eq_ok, ensure_eq_ok, pure_eq_ok] at h
    obtain ⟨-, habandon, rfl⟩ := h
    exact ⟨existing, hget, habandon, rfl⟩

/-- The hash a confirmation compares evidence with, where the operation has one. -/
def StoredOperation.hasHash (operation : StoredOperation) : Bool :=
  operation.txHash.any fun txHash => !txHash.isEmpty

/-- **What a confirmation checks and changes.**  The operation is a validated success with a
confirmable context; a verdict needs evidence, and evidence must name the ledger of the operation
and, where its hash is known, that hash, and support the verdict. -/
theorem confirmOperation_eq_ok {confirmation : CompletedBusinessConfirmation} {atTime : JsString}
    {evidence : JsValue} {existing changed : StoredOperation}
    (h : confirmOperation B confirmation atTime evidence existing = .ok changed) :
    ∃ business normalized,
      sanitizeOperationBusinessContext B existing.business = some business ∧
      isConfirmableBusinessContext (some business) = true ∧ existing.succeeded = true ∧
      existing.validatedIndex.isSome = true ∧
      (∀ e, normalized = some e → validateBusinessEvidence evidence = .ok e ∧
        checkEvidence existing business confirmation (some e) = .ok ()) ∧
      (confirmation.verdict.isSome = true → normalized.isSome = true) ∧
      changed = { existing with
        updatedAt := atTime, businessConfirmation := some confirmation.confirmation,
        businessEvidence := normalized.or existing.businessEvidence } := by
  unfold confirmOperation at h
  split at h
  · cases h
  · rename_i stored hstored
    simp only [bind_eq_ok, ensure_eq_ok, pure_eq_ok] at h
    obtain ⟨business, hvalid, -, hconfirmable, -, hsucceeded, -, hindex, normalized, hnormalized,
      -, hverdict, ⟨⟩, hcheck, rfl⟩ := h
    refine ⟨business, normalized, ?_, hconfirmable, hsucceeded, hindex, ?_, ?_, rfl⟩
    · rw [hstored]
      show (validateOperationBusinessContext B stored.toJs).toOption = some business
      rw [hvalid]
      rfl
    · rintro e rfl
      rcases validateWhen_eq_ok.mp hnormalized with ⟨-, hnone⟩ | ⟨-, e', hvalid', he⟩
      · cases hnone
      · cases he
        exact ⟨hvalid', hcheck⟩
    · intro hsome
      rw [Bool.or_eq_true] at hverdict
      rcases hverdict with hnone | hnormalized
      · rw [Option.isNone_iff_eq_none.mp hnone] at hsome
        cases hsome
      · exact hnormalized

/-- What checked evidence says of an operation whose hash is known. -/
theorem checkEvidence_eq_ok {existing : StoredOperation} {business : OperationBusinessContext}
    {confirmation : CompletedBusinessConfirmation} {evidence : BusinessEvidence}
    (h : checkEvidence existing business confirmation (some evidence) = .ok ()) :
    existing.ledgerIndex = some evidence.ledgerIndex ∧
      ∀ txHash, existing.txHash = some txHash → txHash ≠ [] →
        evidence.transactionHash = toLowerCase txHash ∧
        ∀ confirmed, confirmation.verdict = some confirmed →
          evidenceSupportsBusinessResult business confirmed evidence (toLowerCase txHash)
            = true := by
  simp only [checkEvidence, bind_eq_ok, ensure_eq_ok, beq_iff_eq] at h
  obtain ⟨-, hhash, -, hindex, hsupports⟩ := h
  refine ⟨hindex, fun txHash htxHash hne => ?_⟩
  have hempty : txHash.isEmpty = false := by
    cases txHash with
    | nil => exact absurd rfl hne
    | cons u rest => rfl
  rw [htxHash, Option.filter_some, if_pos (by rw [hempty]; rfl)] at hhash hsupports
  refine ⟨by simpa using hhash, fun confirmed hconfirmed => ?_⟩
  rw [hconfirmed] at hsupports
  simpa using hsupports

/-- **A confirmation is read back.**  What was written is what the reader makes of the record,
unless it is a verdict on an operation without a hash. -/
theorem operationBusinessConfirmation_of_confirm {confirmation : CompletedBusinessConfirmation}
    {atTime : JsString} {evidence : JsValue} {existing changed : StoredOperation}
    (h : confirmOperation B confirmation atTime evidence existing = .ok changed)
    (hhash : confirmation.verdict.isSome = true → existing.hasHash = true) :
    operationBusinessConfirmation B changed = some confirmation.confirmation := by
  obtain ⟨business, normalized, hbusiness, hconfirmable, hsucceeded, hindex, hevidence, hsome,
    rfl⟩ := confirmOperation_eq_ok h
  have hindex' : existing.validatedIndex.isNone = false := by
    rw [← Option.not_isSome, hindex]
    rfl
  -- The stored evidence passes the reader's checks as it passed the writer's.
  have hsupports : ∀ confirmed, confirmation.verdict = some confirmed →
      StoredOperation.supports { existing with
        updatedAt := atTime, businessConfirmation := some confirmation.confirmation,
        businessEvidence := normalized.or existing.businessEvidence } business confirmed
        = true := by
    intro confirmed hconfirmed
    have hverdict : confirmation.verdict.isSome = true := by rw [hconfirmed]; rfl
    obtain ⟨e, rfl⟩ := Option.isSome_iff_exists.mp (hsome hverdict)
    obtain ⟨hvalid, hcheck⟩ := hevidence e rfl
    obtain ⟨txHash, htxHash, hne⟩ := (Option.any_eq_true _ _).mp (hhash hverdict)
    have hne' : txHash ≠ [] := by
      rintro rfl
      cases hne
    obtain ⟨hledger, hsupports⟩ := checkEvidence_eq_ok hcheck
    have hread : sanitizeBusinessEvidence (some e) = some e := by
      show (validateBusinessEvidence e.toJs).toOption = some e
      rw [validateBusinessEvidence_stable hvalid]
      rfl
    have hempty : (toLowerCase txHash).isEmpty = false := by
      rw [toLowerCase, List.isEmpty_map]
      exact (Bool.not_eq_true' _).mp hne
    simp only [StoredOperation.supports, Option.some_or, hread, htxHash, Option.map_some, hempty,
      hledger, (hsupports txHash htxHash hne').2 confirmed hconfirmed, beq_self_eq_true,
      Bool.not_false, Bool.and_self]
  have hchanged : StoredOperation.succeeded { existing with
      updatedAt := atTime, businessConfirmation := some confirmation.confirmation,
      businessEvidence := normalized.or existing.businessEvidence } = true := hsucceeded
  have hchanged' : StoredOperation.validatedIndex { existing with
      updatedAt := atTime, businessConfirmation := some confirmation.confirmation,
      businessEvidence := normalized.or existing.businessEvidence } = existing.validatedIndex := rfl
  unfold operationBusinessConfirmation
  simp only [hbusiness, hconfirmable, hchanged, hchanged', hindex', Option.getD_some, Bool.not_true,
    Bool.or_self]
  cases confirmation with
  | confirmed => exact if_pos (hsupports true rfl)
  | rejected => exact if_pos (hsupports false rfl)
  | mismatch => rfl
  | timeout => rfl

/-! ## Holding a business key -/

theorem holdsBusinessLock_of_not_terminal {operation : StoredOperation}
    (h : isTerminal operation.stage = false) : holdsBusinessLock B operation = true := by
  rw [holdsBusinessLock, h]
  rfl

theorem businessLock_of_holds {operation : StoredOperation}
    (h : holdsBusinessLock B operation = true) :
    businessLock B operation = operationBusinessKey operation.profileId
      (sanitizeOperationBusinessContext B operation.business) :=
  if_pos h

/-- The key an operation holds is the one its profile and its context determine. -/
theorem businessLock_eq_some {operation : StoredOperation} {key : JsString}
    (h : businessLock B operation = some key) :
    holdsBusinessLock B operation = true ∧ operationBusinessKey operation.profileId
      (sanitizeOperationBusinessContext B operation.business) = some key := by
  unfold businessLock at h
  split_ifs at h with hholds
  exact ⟨hholds, h⟩

/-- Whether an operation that has been validated holds its key depends on its confirmation only. -/
theorem not_holdsBusinessLock {operation : StoredOperation}
    (hsucceeded : operation.succeeded = true) {confirmation : BusinessConfirmation}
    (h : operationBusinessConfirmation B operation = some confirmation)
    (hpending : confirmation ≠ .pending) (htimeout : confirmation ≠ .timeout) :
    holdsBusinessLock B operation = false := by
  have hstage : operation.stage = .validated := by
    rw [StoredOperation.succeeded, Bool.and_eq_true, beq_iff_eq] at hsucceeded
    exact hsucceeded.1
  unfold holdsBusinessLock
  rw [hstage, hsucceeded, h]
  cases confirmation with
  | pending => exact absurd rfl hpending
  | timeout => exact absurd rfl htimeout
  | _ => rfl

/-- A write takes back the key of an operation that has released it, from a successor that holds
it: a late timeout, or a late verdict on an operation without a hash. -/
def TakesBackLock (B : Browser) (journal : OperationJournal) : JournalEvent → Prop
  | .setBusinessConfirmation operationId confirmation _ _ =>
      ∃ operation successor, journal.get operationId = some operation ∧
        holdsBusinessLock B operation = false ∧
        (confirmation = .timeout ∨
          confirmation.verdict.isSome = true ∧ operation.hasHash = false) ∧
        successor ∈ journal ∧ successor ≠ operation ∧
        (businessLock B successor).isSome = true ∧
        businessLock B successor = operationBusinessKey operation.profileId
          (sanitizeOperationBusinessContext B operation.business)
  | _ => False

/-- A confirmation keeps a key or releases it, unless it takes it back. -/
theorem exclusive_setBusinessConfirmation {journal journal' : OperationJournal}
    {operationId atTime : JsString} {confirmation : CompletedBusinessConfirmation}
    {evidence : JsValue} (hexclusive : journal.Exclusive (businessLock B))
    (h : setBusinessConfirmation B operationId confirmation atTime evidence journal = .ok journal')
    (hlate : ¬TakesBackLock B journal
      (.setBusinessConfirmation operationId confirmation atTime evidence)) :
    journal'.Exclusive (businessLock B) := by
  obtain ⟨existing, changed, hget, hchange, rfl⟩ := mutate_eq_ok h
  obtain ⟨business, normalized, -, -, hsucceeded, -, -, -, hchanged⟩ :=
    confirmOperation_eq_ok hchange
  have hmem := KeyedStore.get_eq_some_iff.mp hget
  have hkey : operationBusinessKey changed.profileId
      (sanitizeOperationBusinessContext B changed.business)
      = operationBusinessKey existing.profileId
        (sanitizeOperationBusinessContext B existing.business) := by
    rw [hchanged]
  by_cases hholds : holdsBusinessLock B existing = true
  · refine hexclusive.put_of_held hmem.1 (by rw [hchanged]) fun key hlock => ?_
    rw [businessLock_of_holds hholds, ← hkey]
    exact (businessLock_eq_some hlock).2
  · refine hexclusive.put_of_free fun other hother hid key hlock hlock' => hlate ?_
    obtain ⟨hholds', hkey'⟩ := businessLock_eq_some hlock
    refine ⟨existing, other, hget, (Bool.not_eq_true _).mp hholds, ?_, hother, ?_, ?_, ?_⟩
    · by_contra hcon
      rw [not_or, not_and, Bool.not_eq_false] at hcon
      have hread := operationBusinessConfirmation_of_confirm hchange hcon.2
      have hsucceeded' : changed.succeeded = true := by
        rw [hchanged]
        exact hsucceeded
      rw [not_holdsBusinessLock hsucceeded' hread confirmation.confirmation_ne_pending
        fun htimeout => hcon.1
          (CompletedBusinessConfirmation.confirmation_eq_timeout.mp htimeout)] at hholds'
      cases hholds'
    · rintro rfl
      exact hid (by rw [hchanged])
    · rw [hlock']
      rfl
    · rw [hlock', ← hkey, hkey']

/-- The invariant of the journal: contexts are in normal form and every business key has one
holder. -/
structure Guarded (B : Browser) (journal : OperationJournal) : Prop where
  normal : ∀ operation ∈ journal,
    sanitizeOperationBusinessContext B operation.business = operation.business
  exclusive : journal.Exclusive (businessLock B)

/-- **One write keeps the keys apart**, unless it takes one back. -/
theorem Guarded.step {journal journal' : OperationJournal} {event : JournalEvent}
    (h : Guarded B journal) (hstep : JournalStep B journal event journal')
    (hlate : ¬TakesBackLock B journal event) : Guarded B journal' := by
  cases hstep with
  | refused => exact h
  | done hperform =>
      cases event with
      | create seed =>
          obtain ⟨created, rfl, -, hstage, -, hnormal, hfree⟩ := create_eq_ok hperform
          refine ⟨KeyedStore.forall_mem_put h.normal hnormal, h.exclusive.put_of_free ?_⟩
          intro other hother hid key hlock
          refine hfree other hother hid key ?_
          rw [← hnormal]
          exact (businessLock_eq_some hlock).2
      | persistSigned record =>
          obtain ⟨existing, changed, hget, hstage, rfl, rfl⟩ := persistSigned_eq_ok hperform
          have hmem := KeyedStore.get_eq_some_iff.mp hget
          refine ⟨KeyedStore.forall_mem_put h.normal (h.normal existing hmem.1),
            h.exclusive.put_of_held hmem.1 rfl fun key hlock => ?_⟩
          rw [businessLock_of_holds (holdsBusinessLock_of_not_terminal (by rw [hstage]; rfl))]
          exact (businessLock_eq_some hlock).2
      | append entry =>
          obtain ⟨existing, hget, rfl⟩ := append_eq_ok hperform
          have hmem := KeyedStore.get_eq_some_iff.mp hget
          cases hterminal : isTerminal existing.stage with
          | true =>
              rw [applyJournalEntry_of_terminal hterminal]
              exact ⟨KeyedStore.forall_mem_put h.normal (h.normal existing hmem.1),
                h.exclusive.put_of_held hmem.1 rfl fun key hlock => hlock⟩
          | false =>
              rw [applyJournalEntry, if_neg (by rw [hterminal]; decide)]
              refine ⟨KeyedStore.forall_mem_put h.normal (h.normal existing hmem.1),
                h.exclusive.put_of_held hmem.1 rfl fun key hlock => ?_⟩
              rw [businessLock_of_holds (holdsBusinessLock_of_not_terminal hterminal)]
              exact (businessLock_eq_some hlock).2
      | setBusinessConfirmation operationId confirmation atTime evidence =>
          refine ⟨?_, exclusive_setBusinessConfirmation h.exclusive hperform hlate⟩
          obtain ⟨existing, changed, hget, hchange, rfl⟩ := mutate_eq_ok hperform
          obtain ⟨business, normalized, -, -, -, -, -, -, rfl⟩ := confirmOperation_eq_ok hchange
          have hmem := KeyedStore.get_eq_some_iff.mp hget
          exact KeyedStore.forall_mem_put h.normal (h.normal existing hmem.1)
      | abandon operationId =>
          obtain ⟨existing, -, -, rfl⟩ := abandon_eq_ok hperform
          exact ⟨fun operation hmem => h.normal operation (KeyedStore.mem_delete.mp hmem).1,
            h.exclusive.delete operationId⟩

/-- Several writes in a row. -/
def performAll (B : Browser) :
    List JournalEvent → OperationJournal → Except Thrown OperationJournal
  | [], journal => .ok journal
  | event :: events, journal => do
      let journal ← perform B event journal
      performAll B events journal

/-- What can be evaluated of the journal after several writes holds after a run of them, and of
every condition that they meet in any state. -/
theorem run_of_performAll {condition : OperationJournal → JournalEvent → Prop} :
    ∀ {events : List JournalEvent} {journal journal' : OperationJournal},
      (∀ event ∈ events, ∀ j, condition j event) → performAll B events journal = .ok journal' →
      Run (fun j event j' => JournalStep B j event j' ∧ condition j event) journal events journal'
  | [], journal, journal', _, h => by
      cases h
      exact .nil journal
  | event :: events, journal, journal', hcondition, h => by
      rw [performAll, bind_eq_ok] at h
      obtain ⟨next, hperform, hrest⟩ := h
      have hfirst := hcondition event (List.mem_cons_self ..) journal
      exact (Run.single ⟨.done hperform, hfirst⟩).append
        (run_of_performAll (fun e he => hcondition e (List.mem_cons_of_mem _ he)) hrest)

theorem exists_run_of_any {condition : OperationJournal → JournalEvent → Prop}
    {events : List JournalEvent} {journal : OperationJournal} {p : OperationJournal → Bool}
    (hcondition : ∀ event ∈ events, ∀ j, condition j event)
    (h : (performAll B events journal).toOption.any p = true) :
    ∃ journal', Run (fun j event j' => JournalStep B j event j' ∧ condition j event)
      journal events journal' ∧ p journal' = true := by
  obtain ⟨journal', hsome, hp⟩ := (Option.any_eq_true _ _).mp h
  refine ⟨journal', run_of_performAll hcondition ?_, hp⟩
  cases hperform : performAll B events journal with
  | error error =>
      rw [hperform] at hsome
      cases hsome
  | ok result =>
      rw [hperform] at hsome
      exact congrArg Except.ok (Option.some.inj hsome)

/-- The same without a condition. -/
theorem exists_run {events : List JournalEvent} {journal : OperationJournal}
    {p : OperationJournal → Bool}
    (h : (performAll B events journal).toOption.any p = true) :
    ∃ journal', Run (JournalStep B) journal events journal' ∧ p journal' = true := by
  obtain ⟨journal', hrun, hp⟩ :=
    @exists_run_of_any B (fun _ _ => True) _ _ _ (fun _ _ _ => trivial) h
  exact ⟨journal', hrun.mono fun _ _ _ hstep => hstep.1, hp⟩

/-- A browser to evaluate the journal with. -/
def Browser.sample : Browser := ⟨Platform.sample, fun _ => true⟩

/-- The acceptance of one generation of a credential. -/
def sampleContext : OperationBusinessContext :=
  .generationBound .accept (js "rPMh7Pi9ct699iZUTWaytJUoHcJ7cgyziK")
    (js "rrrrrrrrrrrrrrrrrrrrBZbvji") (List.replicate 64 0x61) (List.replicate 64 0x62) none

/-- An operation of the subject. -/
def sampleSeed (operationId : JsString) : OperationSeed where
  operationId := operationId
  account := js "rrrrrrrrrrrrrrrrrrrrBZbvji"
  profileId := js "testnet"
  networkId := 1
  transactionType := js "CredentialAccept"
  createdAt := js "2026-01-01T00:00:00.000Z"
  business := sampleContext.toJs

/-- The hash of its transaction. -/
def sampleTxHash : JsString := List.replicate 64 0x43

/-- An operation is created, signed and validated in ledger 9. -/
def validatedEvents (operationId : JsString) : List JournalEvent :=
  [.create (sampleSeed operationId),
    .persistSigned ⟨operationId, js "00", sampleTxHash, 50, js "2026-01-01T00:00:01.000Z"⟩,
    .append ⟨operationId, js "2026-01-01T00:00:02.000Z", .validated, some sampleTxHash, some 50,
      some (js "tesSUCCESS"), some 9, none⟩]

/-- A poll ends in a mismatch, a second operation takes the key, and another poll of the first
operation times out. -/
def lateTimeoutEvents : List JournalEvent :=
  validatedEvents (js "first") ++
    [.setBusinessConfirmation (js "first") .mismatch (js "2026-01-01T00:00:03.000Z") .undefined,
      .create (sampleSeed (js "second")),
      .setBusinessConfirmation (js "first") .timeout (js "2026-01-01T00:00:32.000Z") .undefined]

/-- The indexer's verdict is on record, with its evidence. -/
def StoredOperation.RecordsVerdict (operation : StoredOperation) : Prop :=
  (operation.businessConfirmation = some .confirmed
    ∨ operation.businessConfirmation = some .rejected) ∧
  operation.businessEvidence.isSome = true

/-- A write ends a poll without a verdict on an operation that has one on record. -/
def OverwritesVerdict (journal : OperationJournal) : JournalEvent → Prop
  | .setBusinessConfirmation operationId confirmation _ _ =>
      confirmation.verdict = none ∧
        ∃ operation, journal.get operationId = some operation ∧ operation.RecordsVerdict
  | _ => False

/-- Verdicts are recorded of validated transactions only. -/
def VerdictsValidated (journal : OperationJournal) : Prop :=
  ∀ operation ∈ journal, operation.RecordsVerdict → operation.stage = .validated

/-- An operation at a stage that is not terminal has no verdict on record. -/
theorem VerdictsValidated.not_records {journal : OperationJournal} (h : VerdictsValidated journal)
    {operation : StoredOperation} (hmem : operation ∈ journal)
    (hstage : operation.stage ≠ .validated) : ¬operation.RecordsVerdict :=
  fun hrecords => hstage (h operation hmem hrecords)

theorem VerdictsValidated.step {journal journal' : OperationJournal} {event : JournalEvent}
    (h : VerdictsValidated journal) (hstep : JournalStep B journal event journal') :
    VerdictsValidated journal' := by
  cases hstep with
  | refused => exact h
  | done hperform =>
      cases event with
      | create seed =>
          obtain ⟨created, rfl, -, -, hnone, -⟩ := create_eq_ok hperform
          refine KeyedStore.forall_mem_put h fun hrecords => ?_
          rw [StoredOperation.RecordsVerdict, hnone] at hrecords
          cases hrecords.2
      | persistSigned record =>
          obtain ⟨existing, changed, hget, hstage, rfl, rfl⟩ := persistSigned_eq_ok hperform
          have hmem := KeyedStore.get_eq_some_iff.mp hget
          have hnot := h.not_records hmem.1 (by rw [hstage]; decide)
          exact KeyedStore.forall_mem_put h fun hrecords => absurd hrecords hnot
      | append entry =>
          obtain ⟨existing, hget, rfl⟩ := append_eq_ok hperform
          have hmem := KeyedStore.get_eq_some_iff.mp hget
          refine KeyedStore.forall_mem_put h ?_
          by_cases hterminal : isTerminal existing.stage = true
          · rw [applyJournalEntry_of_terminal hterminal]
            exact h existing hmem.1
          · have hnot := h.not_records hmem.1 fun hstage => hterminal (by rw [hstage]; rfl)
            rw [applyJournalEntry, if_neg hterminal]
            exact fun hrecords => absurd hrecords hnot
      | setBusinessConfirmation operationId confirmation atTime evidence =>
          obtain ⟨existing, changed, hget, hchange, rfl⟩ := mutate_eq_ok hperform
          obtain ⟨business, normalized, -, -, hsucceeded, -, -, -, rfl⟩ :=
            confirmOperation_eq_ok hchange
          rw [StoredOperation.succeeded, Bool.and_eq_true, beq_iff_eq] at hsucceeded
          exact KeyedStore.forall_mem_put h fun _ => hsucceeded.1
      | abandon operationId =>
          obtain ⟨existing, -, -, rfl⟩ := abandon_eq_ok hperform
          exact fun operation hmem => h operation (KeyedStore.mem_delete.mp hmem).1

/-- **One write keeps a recorded verdict**, unless it overwrites it. -/
theorem RecordsVerdict.step {journal journal' : OperationJournal} {event : JournalEvent}
    {operation : StoredOperation} (hvalidated : VerdictsValidated journal)
    (hmem : operation ∈ journal) (hrecords : operation.RecordsVerdict)
    (hstep : JournalStep B journal event journal') (hkeep : ¬OverwritesVerdict journal event) :
    ∃ operation' ∈ journal', operation'.operationId = operation.operationId ∧
      operation'.RecordsVerdict := by
  have hstage := hvalidated operation hmem hrecords
  -- A write to another operation leaves this one where it is.
  have hother : ∀ written : StoredOperation, written.operationId ≠ operation.operationId →
      ∃ operation' ∈ journal.put written, operation'.operationId = operation.operationId ∧
        operation'.RecordsVerdict := fun written hne =>
    ⟨operation, KeyedStore.mem_put.mpr (Or.inr ⟨hmem, hne.symm⟩), rfl, hrecords⟩
  cases hstep with
  | refused => exact ⟨operation, hmem, rfl, hrecords⟩
  | done hperform =>
      cases event with
      | create seed =>
          obtain ⟨created, rfl, hnew, -⟩ := create_eq_ok hperform
          refine hother created fun hid => ?_
          rw [hid, KeyedStore.get_eq_some_iff.mpr ⟨hmem, rfl⟩] at hnew
          cases hnew
      | persistSigned record =>
          obtain ⟨existing, changed, hget, hprepared, rfl, rfl⟩ := persistSigned_eq_ok hperform
          have hexisting := KeyedStore.get_eq_some_iff.mp hget
          refine hother _ fun hid => ?_
          rw [KeyedStore.eq_of_key_eq hexisting.1 hmem hid, hstage] at hprepared
          cases hprepared
      | append entry =>
          obtain ⟨existing, hget, rfl⟩ := append_eq_ok hperform
          have hexisting := KeyedStore.get_eq_some_iff.mp hget
          by_cases hid : existing.operationId = operation.operationId
          · obtain rfl := KeyedStore.eq_of_key_eq hexisting.1 hmem hid
            rw [applyJournalEntry_of_terminal (by rw [hstage]; rfl)]
            exact ⟨existing, KeyedStore.mem_put.mpr (Or.inl rfl), rfl, hrecords⟩
          · refine hother _ ?_
            rw [applyJournalEntry_operationId]
            exact hid
      | setBusinessConfirmation operationId confirmation atTime evidence =>
          obtain ⟨existing, changed, hget, hchange, rfl⟩ := mutate_eq_ok hperform
          obtain ⟨business, normalized, -, -, -, -, -, -, rfl⟩ := confirmOperation_eq_ok hchange
          have hexisting := KeyedStore.get_eq_some_iff.mp hget
          by_cases hid : existing.operationId = operation.operationId
          · obtain rfl := KeyedStore.eq_of_key_eq hexisting.1 hmem hid
            refine ⟨_, KeyedStore.mem_put.mpr (Or.inl rfl), rfl, ?_, ?_⟩
            · cases confirmation with
              | confirmed => exact Or.inl rfl
              | rejected => exact Or.inr rfl
              | mismatch => exact absurd ⟨rfl, existing, hget, hrecords⟩ hkeep
              | timeout => exact absurd ⟨rfl, existing, hget, hrecords⟩ hkeep
            · obtain ⟨stored, hstored⟩ := Option.isSome_iff_exists.mp hrecords.2
              rw [hstored]
              cases normalized <;> rfl
          · exact hother _ hid
      | abandon operationId =>
          obtain ⟨existing, hget, habandon, rfl⟩ := abandon_eq_ok hperform
          have hexisting := KeyedStore.get_eq_some_iff.mp hget
          refine ⟨operation, KeyedStore.mem_delete.mpr ⟨hmem, fun hid => ?_⟩, rfl, hrecords⟩
          rw [KeyedStore.eq_of_key_eq hexisting.1 hmem (hexisting.2.trans hid.symm),
            canAbandonOperation, hstage] at habandon
          cases habandon

/-- **A recorded verdict is kept.**  Once an operation of a journal has `confirmed` or `rejected` on
record with its evidence, it has a verdict with evidence on record after every run in which no poll
without a verdict overwrites one. -/
theorem recorded_verdict_kept {tr tr' : List JournalEvent} {journal journal' : OperationJournal}
    (hrun : Run (JournalStep B) KeyedStore.empty tr journal)
    (hrun' : Run (fun j event j' => JournalStep B j event j' ∧ ¬OverwritesVerdict j event)
      journal tr' journal')
    {operation : StoredOperation} (hmem : operation ∈ journal)
    (hrecords : operation.RecordsVerdict) :
    ∃ operation' ∈ journal', operation'.operationId = operation.operationId ∧
      operation'.RecordsVerdict := by
  have hvalidated : VerdictsValidated journal :=
    hrun.invariant (fun j event j' h hstep => h.step hstep)
      fun operation hmem => absurd hmem (KeyedStore.not_mem_empty operation)
  refine (hrun'.invariant (P := fun j => VerdictsValidated j ∧ ∃ operation' ∈ j,
    operation'.operationId = operation.operationId ∧ operation'.RecordsVerdict) ?_
    ⟨hvalidated, operation, hmem, rfl, hrecords⟩).2
  rintro j event j' ⟨hj, current, hcurrent, hid, hrecords'⟩ ⟨hstep, hkeep⟩
  obtain ⟨next, hnext, hid', hrecords''⟩ := RecordsVerdict.step hj hcurrent hrecords' hstep hkeep
  exact ⟨hj.step hstep, next, hnext, hid'.trans hid, hrecords''⟩

/-- What the API answers once the acceptance is indexed. -/
def indexedEvidence : BusinessEvidence where
  transactionHash := List.replicate 64 0x63
  ledgerIndex := 9
  ledgerHash := List.replicate 64 0x64
  transactionIndex := 0
  schemaUid := some (List.replicate 64 0x61)
  generationId := some (List.replicate 64 0x62)
  reasonCode := none
  eventType := some .accepted
  accepted := some true
  deletionCause := some none

/-- Of two tabs that poll for the same validated operation one records the verdict. -/
def confirmedEvents : List JournalEvent :=
  [.setBusinessConfirmation (js "first") .confirmed (js "2026-01-01T00:00:30.000Z")
    indexedEvidence.toJs]

/-- The verdict of the first poll. -/
theorem recorded_verdict_kept_first :
    ∃ (journal journal' : OperationJournal), ∃ operation ∈ journal, operation.RecordsVerdict ∧
      ∃ operation' ∈ journal', operation'.operationId = operation.operationId ∧
        operation'.RecordsVerdict := by
  have hcheck : (performAll Browser.sample (validatedEvents (js "first") ++ confirmedEvents)
      KeyedStore.empty).toOption.any (fun journal =>
        (journal.entries.any fun operation =>
          decide (operation.businessConfirmation = some .confirmed)
            && operation.businessEvidence.isSome) &&
        (performAll Browser.sample confirmedEvents journal).toOption.any fun _ => true) = true := by
    decide +kernel
  obtain ⟨journal, hrun, hcheck⟩ := exists_run hcheck
  obtain ⟨hverdict, hcheck⟩ := Bool.and_eq_true_iff.mp hcheck
  have hcondition : ∀ event ∈ confirmedEvents, ∀ j, ¬OverwritesVerdict j event := by
    simp [confirmedEvents, OverwritesVerdict, CompletedBusinessConfirmation.verdict]
  obtain ⟨journal', hrun', -⟩ := exists_run_of_any hcondition hcheck
  obtain ⟨operation, hmem, hrecords⟩ := List.any_eq_true.mp hverdict
  simp only [Bool.and_eq_true, decide_eq_true_eq] at hrecords
  have hrecords' : operation.RecordsVerdict := ⟨Or.inl hrecords.1, hrecords.2⟩
  exact ⟨journal, journal', operation, hmem, hrecords',
    recorded_verdict_kept hrun hrun' hmem hrecords'⟩

/-- The other one, which was answered too late, records its timeout. -/
def timedOutEvents : List JournalEvent :=
  [.setBusinessConfirmation (js "first") .timeout (js "2026-01-01T00:00:32.000Z") .undefined]

/-- **A lost verdict.**  An operation may be confirmed by two tabs; one records the verdict, which
is read back, and the other one's timeout takes its place and the business key is held again. -/
theorem verdict_lost :
    ∃ (B : Browser) (tr tr' tr'' : List JournalEvent) (before confirmed after : OperationJournal),
      (Run (JournalStep B) KeyedStore.empty tr before ∧
        ∃ operation ∈ before, canReconfirmOperation B operation = true) ∧
      (Run (JournalStep B) before tr' confirmed ∧ ∃ operation ∈ confirmed,
        operation.RecordsVerdict ∧ operationBusinessConfirmation B operation = some .confirmed) ∧
      Run (JournalStep B) confirmed tr'' after ∧ ∃ operation ∈ after,
        operation.businessConfirmation = some .timeout ∧
        operationBusinessConfirmation B operation = some .timeout ∧
        holdsBusinessLock B operation = true := by
  have hcheck : (performAll Browser.sample (validatedEvents (js "first"))
      KeyedStore.empty).toOption.any (fun before =>
        (before.entries.any fun operation => canReconfirmOperation Browser.sample operation) &&
        (performAll Browser.sample confirmedEvents before).toOption.any fun confirmed =>
          (confirmed.entries.any fun operation =>
            decide (operation.businessConfirmation = some .confirmed)
              && operation.businessEvidence.isSome
              && operationBusinessConfirmation Browser.sample operation == some .confirmed) &&
          (performAll Browser.sample timedOutEvents confirmed).toOption.any fun after =>
            after.entries.any fun operation =>
              decide (operation.businessConfirmation = some .timeout)
                && operationBusinessConfirmation Browser.sample operation == some .timeout
                && holdsBusinessLock Browser.sample operation) = true := by
    decide +kernel
  obtain ⟨before, hbefore, hcheck⟩ := exists_run hcheck
  obtain ⟨hreconfirm, hcheck⟩ := Bool.and_eq_true_iff.mp hcheck
  obtain ⟨confirmed, hconfirmed, hcheck⟩ := exists_run hcheck
  obtain ⟨hverdict, hcheck⟩ := Bool.and_eq_true_iff.mp hcheck
  obtain ⟨after, hafter, htimeout⟩ := exists_run hcheck
  obtain ⟨o₁, hmem₁, h₁⟩ := List.any_eq_true.mp hreconfirm
  obtain ⟨o₂, hmem₂, h₂⟩ := List.any_eq_true.mp hverdict
  obtain ⟨o₃, hmem₃, h₃⟩ := List.any_eq_true.mp htimeout
  simp only [Bool.and_eq_true, decide_eq_true_eq, beq_iff_eq] at h₂ h₃
  exact ⟨Browser.sample, _, _, _, before, confirmed, after, ⟨hbefore, o₁, hmem₁, h₁⟩,
    ⟨hconfirmed, o₂, hmem₂, ⟨Or.inl h₂.1.1, h₂.1.2⟩, h₂.2⟩, hafter, o₃, hmem₃, h₃.1.1, h₃.1.2,
    h₃.2⟩

end Web
end Xcs
