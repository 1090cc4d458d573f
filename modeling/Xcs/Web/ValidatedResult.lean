import Xcs.Sdk.SubmissionRuns
import Xcs.Web.JournalRuns

/-!
# The result of a validated operation

The journal of an operation is written by the submission flow of the SDK and, when the operation is
retried, by the wallet, which looks the transaction up before it submits the stored blob again.  A
result reaches the journal twice: the server's first opinion with the entry `submitted`, and what
the ledger says with the entry `validated`.

`applyJournalEntry` keeps the result of an earlier entry where an entry has none.  So the result of
a validated operation is the ledger's exactly when the lookup that found the transaction showed its
metadata; otherwise the first opinion stays.

* `fromValidated_of_flow` says what an entry `validated` of any flow rests on.
* `validated_result_iff` is the statement about every run of the journal.
-/

namespace Xcs
namespace Web

open Js Xcs.Core Sdk Indexer

/-! ## Retrying -/

/-- The options of a retry. -/
def retryOptions (operationId : JsString) : ReliableSubmissionOptions where
  operationId := some operationId
  failHard := none
  pollIntervalMs := none
  timeoutMs := none
  allowSignerLastLedgerSequenceRefresh := none
  onValidatedSignature := false
  beforeSubmit := false

/-- `retryOperation`, from the lookup on.  The guards of the host between the lookup and the
submission append nothing: where one fails, the run ends there. -/
def retryOperation (X : Xrpl) (turns : ℕ) (operationId txBlob txHash : JsString)
    (lastLedgerSequence : ℕ) : SdkProgram ReliableSubmissionResult := do
  let status ← requestTransactionStatus txHash (some lastLedgerSequence)
  if status.status = .validated ∨ status.status = .expired then do
    Sdk.append fun time => ⟨operationId, time, finalStage status.status, some status.txHash,
      status.lastLedgerSequence, status.transactionResult, status.ledgerIndex, none⟩
    pure ⟨status, operationId, none⟩
  else submitSignedTransaction X turns txBlob (retryOptions operationId)

/-- The programs that write entries. -/
inductive SubmissionFlow (X : Xrpl) : SdkProgram ReliableSubmissionResult → Prop
  | sign (turns : ℕ) (reviewed : Members) (options : ReliableSubmissionOptions) :
      SubmissionFlow X (signPreparedAndSubmit X turns reviewed options)
  | prepare (turns : ℕ) (transaction : Members) (options : ReliableSubmissionOptions) :
      SubmissionFlow X (prepareSignAndSubmit X turns transaction options)
  | submit (turns : ℕ) (txBlob : JsString) (options : ReliableSubmissionOptions) :
      SubmissionFlow X (submitSignedTransaction X turns txBlob options)
  | retry (turns : ℕ) (operationId txBlob txHash : JsString) (lastLedgerSequence : ℕ) :
      SubmissionFlow X (retryOperation X turns operationId txBlob txHash lastLedgerSequence)

/-- A flow appends an entry after a history. -/
def Appends (X : Xrpl) (tr : List SdkEvent) (entry : SubmissionJournalEntry) : Prop :=
  ∃ flow next, SubmissionFlow X flow ∧ Run Program.Step flow tr (.call (.append entry) next)

theorem ensures_retryOperation (X : Xrpl) (turns : ℕ) (operationId txBlob txHash : JsString)
    (lastLedgerSequence : ℕ) :
    Program.Ensures (fun h c => ∀ entry, c = .append entry → FromValidated h entry)
      (fun _ _ => True) [] (retryOperation X turns operationId txBlob txHash
        lastLedgerSequence) := by
  have hG : Quiet fun h c => ∀ entry, c = .append entry → FromValidated h entry :=
    fun _ _ _ happend => happend
  refine .bind ?_ (fun _ _ _ => trivial) (ensures_requestTransactionStatus
    hG operationId txHash (some lastLedgerSequence))
  rintro h status ⟨-, hstatus⟩
  split
  · have hvalidated : ∀ time, FromValidated h ⟨operationId, time, finalStage status.status,
        some status.txHash, status.lastLedgerSequence, status.transactionResult,
        status.ledgerIndex, none⟩ := by
      intro time hstage
      obtain ⟨htxHash, result, hmem, hlookup⟩ :=
        hstatus status rfl (finalStage_eq_validated.mp hstage)
      refine ⟨_, result, rfl, ?_, hlookup⟩
      rwa [htxHash, toUpperCase_toUpperCase]
    refine .bind ?_ (fun _ _ _ => trivial)
      (ensures_append hG operationId (fun _ => rfl) hvalidated)
    exact fun _ _ _ => trivial
  · exact ((ensures_submitSignedTransaction X turns txBlob _ _).mono_guard
      fun _ _ hguard => hguard.2).mono fun _ _ _ => trivial

/-- **What an entry `validated` rests on.** -/
theorem fromValidated_of_flow {X : Xrpl} {tr : List SdkEvent} {entry : SubmissionJournalEntry}
    (h : Appends X tr entry) : FromValidated tr entry := by
  obtain ⟨flow, next, hflow, hrun⟩ := h
  cases hflow with
  | sign turns reviewed options =>
      exact ((ensures_signPreparedAndSubmit X turns reviewed options
        fun event (hmem : event ∈ []) => absurd hmem List.not_mem_nil).call_of_run hrun).2 entry rfl
  | prepare turns transaction options =>
      exact ((ensures_prepareSignAndSubmit X turns transaction options).call_of_run hrun).2
        entry rfl
  | submit turns txBlob options =>
      exact ((ensures_submitSignedTransaction X turns txBlob options []).call_of_run
        hrun).2 entry rfl
  | retry turns operationId txBlob txHash lastLedgerSequence =>
      exact (ensures_retryOperation X turns operationId txBlob txHash
        lastLedgerSequence).call_of_run hrun entry rfl

/-! ## The operation -/

/-- A step of the journal in which an entry is appended by a flow. -/
def FlowStep (B : Browser) (X : Xrpl) (journal : OperationJournal) (event : JournalEvent)
    (journal' : OperationJournal) : Prop :=
  JournalStep B journal event journal' ∧ ∀ entry, event = .append entry → ∃ tr, Appends X tr entry

/-- The answer to a lookup says that the transaction of an operation is validated. -/
def ValidatedBy (X : Xrpl) (operation : StoredOperation) (answer : JsValue) : Prop :=
  ∃ tr entry txHash, Appends X tr entry ∧ operation.txHash = some txHash ∧
    ⟨.tx (toUpperCase txHash), .ok answer⟩ ∈ tr ∧ answer.get (js "validated") = .bool true

/-- The recorded result is the one in the metadata of the validated transaction. -/
def RecordsResult (operation : StoredOperation) (answer : JsValue) : Prop :=
  ∃ result, readTransactionResult (answer.get (js "meta")) = some result ∧
    operation.engineResult = some result

/-- What the journal knows of an operation whose submission is over. -/
structure Concluded (X : Xrpl) (operation : StoredOperation) : Prop where
  txBlob : isTerminal operation.stage = true → operation.txBlob = none
  result : operation.stage = .validated → ∃ answer, ValidatedBy X operation answer ∧
    (RecordsResult operation answer ↔
      (readTransactionResult (answer.get (js "meta"))).isSome = true)

/-- An operation at a stage that is not terminal has not been concluded in any way. -/
theorem concluded_of_not_terminal {X : Xrpl} {operation : StoredOperation}
    (h : isTerminal operation.stage = false) : Concluded X operation := by
  refine ⟨fun hterminal => ?_, fun hstage => ?_⟩
  · rw [h] at hterminal
    cases hterminal
  · rw [hstage] at h
    cases h

/-- **An entry of a flow concludes an operation rightly** but for the result. -/
theorem concluded_applyJournalEntry {X : Xrpl} {operation : StoredOperation}
    {entry : SubmissionJournalEntry} {tr : List SdkEvent} (hopen : Concluded X operation)
    (happends : Appends X tr entry) : Concluded X (applyJournalEntry operation entry) := by
  by_cases hterminal : isTerminal operation.stage = true
  · rw [applyJournalEntry_of_terminal hterminal]
    exact hopen
  · rw [applyJournalEntry, if_neg hterminal]
    refine ⟨fun hstage => if_pos hstage, fun hstage => ?_⟩
    obtain ⟨txHash, answer, htxHash, hmem, hvalidated, hresult⟩ :=
      fromValidated_of_flow happends hstage
    refine ⟨answer, ⟨tr, entry, txHash, happends, ?_, hmem, hvalidated⟩, ?_⟩
    · show entry.txHash.or operation.txHash = some txHash
      rw [htxHash, Option.some_or]
    · show (∃ result, readTransactionResult (answer.get (js "meta")) = some result ∧
        entry.engineResult.or operation.engineResult = some result) ↔ _
      rw [hresult, Option.isSome_iff_exists]
      refine exists_congr fun result => ⟨fun h => h.1, fun h => ⟨h, ?_⟩⟩
      rw [h, Option.some_or]

theorem concluded_step {B : Browser} {X : Xrpl} {journal journal' : OperationJournal}
    {event : JournalEvent} (h : ∀ operation ∈ journal, Concluded X operation)
    (hstep : FlowStep B X journal event journal') :
    ∀ operation ∈ journal', Concluded X operation := by
  obtain ⟨hstep, hflow⟩ := hstep
  cases hstep with
  | refused => exact h
  | done hperform =>
      cases event with
      | create seed =>
          obtain ⟨created, rfl, -, hstage, -⟩ := create_eq_ok hperform
          exact KeyedStore.forall_mem_put h (concluded_of_not_terminal (by rw [hstage]; rfl))
      | persistSigned record =>
          obtain ⟨existing, changed, -, -, rfl, rfl⟩ := persistSigned_eq_ok hperform
          exact KeyedStore.forall_mem_put h (concluded_of_not_terminal rfl)
      | append entry =>
          obtain ⟨existing, hget, rfl⟩ := append_eq_ok hperform
          obtain ⟨tr, happends⟩ := hflow entry rfl
          have hmem := KeyedStore.get_eq_some_iff.mp hget
          exact KeyedStore.forall_mem_put h
            (concluded_applyJournalEntry (h existing hmem.1) happends)
      | setBusinessConfirmation operationId confirmation atTime evidence =>
          obtain ⟨existing, changed, hget, hchange, rfl⟩ := mutate_eq_ok hperform
          obtain ⟨business, normalized, -, -, -, -, -, -, rfl⟩ := confirmOperation_eq_ok hchange
          have hmem := KeyedStore.get_eq_some_iff.mp hget
          exact KeyedStore.forall_mem_put h
            ⟨(h existing hmem.1).txBlob, (h existing hmem.1).result⟩
      | abandon operationId =>
          obtain ⟨existing, -, -, rfl⟩ := abandon_eq_ok hperform
          exact fun operation hmem => h operation (KeyedStore.mem_delete.mp hmem).1

/-! ## Terminal stages -/

/-- Two states of an operation that differ in its business confirmation only. -/
structure SameSubmission (operation operation' : StoredOperation) : Prop where
  operationId : operation'.operationId = operation.operationId
  stage : operation'.stage = operation.stage
  txHash : operation'.txHash = operation.txHash
  txBlob : operation'.txBlob = operation.txBlob
  engineResult : operation'.engineResult = operation.engineResult
  ledgerIndex : operation'.ledgerIndex = operation.ledgerIndex

theorem SameSubmission.refl (operation : StoredOperation) : SameSubmission operation operation :=
  ⟨rfl, rfl, rfl, rfl, rfl, rfl⟩

theorem SameSubmission.trans {a b c : StoredOperation} (h : SameSubmission a b)
    (h' : SameSubmission b c) : SameSubmission a c :=
  ⟨h'.operationId.trans h.operationId, h'.stage.trans h.stage, h'.txHash.trans h.txHash,
    h'.txBlob.trans h.txBlob, h'.engineResult.trans h.engineResult,
    h'.ledgerIndex.trans h.ledgerIndex⟩

/-- **One write leaves a submission that is over as it is.** -/
theorem sameSubmission_step {B : Browser} {journal journal' : OperationJournal}
    {event : JournalEvent} {operation : StoredOperation} (hmem : operation ∈ journal)
    (hterminal : isTerminal operation.stage = true) (hstep : JournalStep B journal event journal') :
    ∃ operation' ∈ journal', SameSubmission operation operation' := by
  have hprepared : operation.stage ≠ .prepared := by
    intro hstage
    rw [hstage] at hterminal
    cases hterminal
  -- Another operation is written, or this one with the same submission.
  have hput : ∀ written : StoredOperation,
      (written.operationId = operation.operationId → SameSubmission operation written) →
      ∃ operation' ∈ journal.put written, SameSubmission operation operation' := by
    intro written hsame
    by_cases hid : written.operationId = operation.operationId
    · exact ⟨written, KeyedStore.mem_put.mpr (Or.inl rfl), hsame hid⟩
    · exact ⟨operation, KeyedStore.mem_put.mpr (Or.inr ⟨hmem, fun h => hid h.symm⟩),
        SameSubmission.refl operation⟩
  cases hstep with
  | refused => exact ⟨operation, hmem, SameSubmission.refl operation⟩
  | done hperform =>
      cases event with
      | create seed =>
          obtain ⟨created, rfl, hnew, -⟩ := create_eq_ok hperform
          refine hput created fun hid => ?_
          rw [hid, KeyedStore.get_eq_some_iff.mpr ⟨hmem, rfl⟩] at hnew
          cases hnew
      | persistSigned record =>
          obtain ⟨existing, changed, hget, hstage, rfl, rfl⟩ := persistSigned_eq_ok hperform
          have hexisting := KeyedStore.get_eq_some_iff.mp hget
          refine hput _ fun hid => ?_
          rw [KeyedStore.eq_of_key_eq hexisting.1 hmem hid] at hstage
          exact absurd hstage hprepared
      | append entry =>
          obtain ⟨existing, hget, rfl⟩ := append_eq_ok hperform
          have hexisting := KeyedStore.get_eq_some_iff.mp hget
          refine hput _ fun hid => ?_
          rw [applyJournalEntry_operationId] at hid
          obtain rfl := KeyedStore.eq_of_key_eq hexisting.1 hmem hid
          rw [applyJournalEntry_of_terminal hterminal]
          exact SameSubmission.refl existing
      | setBusinessConfirmation operationId confirmation atTime evidence =>
          obtain ⟨existing, changed, hget, hchange, rfl⟩ := mutate_eq_ok hperform
          obtain ⟨business, normalized, -, -, -, -, -, -, rfl⟩ := confirmOperation_eq_ok hchange
          have hexisting := KeyedStore.get_eq_some_iff.mp hget
          refine hput _ fun hid => ?_
          obtain rfl := KeyedStore.eq_of_key_eq hexisting.1 hmem hid
          exact ⟨rfl, rfl, rfl, rfl, rfl, rfl⟩
      | abandon operationId =>
          obtain ⟨existing, hget, habandon, rfl⟩ := abandon_eq_ok hperform
          have hexisting := KeyedStore.get_eq_some_iff.mp hget
          refine ⟨operation, KeyedStore.mem_delete.mpr ⟨hmem, fun hid => ?_⟩,
            SameSubmission.refl operation⟩
          rw [KeyedStore.eq_of_key_eq hexisting.1 hmem (hexisting.2.trans hid.symm),
            canAbandonOperation, Bool.and_eq_true, Bool.and_eq_true, beq_iff_eq] at habandon
          exact hprepared habandon.1.1

/-- Terminal stages are absorbing. -/
theorem sameSubmission_run {B : Browser} {journal journal' : OperationJournal}
    {tr : List JournalEvent} (hrun : Run (JournalStep B) journal tr journal')
    {operation : StoredOperation} (hmem : operation ∈ journal)
    (hterminal : isTerminal operation.stage = true) :
    ∃ operation' ∈ journal', SameSubmission operation operation' := by
  refine hrun.invariant (P := fun j => ∃ operation' ∈ j, SameSubmission operation operation') ?_
    ⟨operation, hmem, SameSubmission.refl operation⟩
  rintro j event j' ⟨current, hcurrent, hsame⟩ hstep
  obtain ⟨next, hnext, hsame'⟩ :=
    sameSubmission_step hcurrent (by rw [hsame.stage]; exact hterminal) hstep
  exact ⟨next, hnext, hsame.trans hsame'⟩

/-- The entry a program is about to append. -/
def nextEntry {α : Type} : SdkProgram α → Option SubmissionJournalEntry
  | .call (.append entry) _ => some entry
  | _ => none

theorem appends_of_nextEntry {X : Xrpl} {flow : SdkProgram ReliableSubmissionResult}
    (hflow : SubmissionFlow X flow) (answer : (c : SdkCall) → c.Answer) {n : ℕ}
    {entry : SubmissionJournalEntry}
    (h : nextEntry (Program.advance answer n flow).2 = some entry) : ∃ tr, Appends X tr entry := by
  have hrun := Program.run_advance answer n flow
  unfold nextEntry at h
  split at h
  · rename_i hnext
    cases h
    rw [hnext] at hrun
    exact ⟨_, flow, _, hflow, hrun⟩
  · cases h

/-- An entry of the submission of the sample. -/
def sampleEntry (stage : SubmissionJournalStage) (engineResult : Option JsString) :
    SubmissionJournalEntry :=
  ⟨js "first", js "2026-01-01T00:00:00.000Z", stage, some (List.replicate 64 0x41), some 50,
    engineResult, none, none⟩

/-- An operation is signed, submitted with the preliminary result `tesSUCCESS` and validated. -/
def submittedEvents (result : Option JsString) : List JournalEvent :=
  [.create (sampleSeed (js "first")),
    .persistSigned ⟨js "first", js "00", List.replicate 64 0x41, 50,
      js "2026-01-01T00:00:00.000Z"⟩,
    .append (sampleEntry .signed none),
    .append (sampleEntry .submitted (some (js "tesSUCCESS"))),
    .append (sampleEntry .validated result)]

/-- The entries are those of one submission, whatever the lookup shows. -/
theorem flow_submittedEvents {members : Members} {result : Option JsString}
    (hresult : nextEntry (Program.advance (sampleAnswer members) 9 (submitSignedTransaction
      Xrpl.sample 1 (js "00") (retryOptions (js "first")))).2
      = some (sampleEntry .validated result)) :
    ∀ event ∈ submittedEvents result, ∀ _ : OperationJournal, ∀ entry, event = .append entry →
      ∃ tr, Appends Xrpl.sample tr entry := by
  have hflow : SubmissionFlow Xrpl.sample (submitSignedTransaction Xrpl.sample 1 (js "00")
      (retryOptions (js "first"))) := .submit 1 _ _
  have hsigned : nextEntry (Program.advance (sampleAnswer []) 2 (submitSignedTransaction
      Xrpl.sample 1 (js "00") (retryOptions (js "first")))).2
      = some (sampleEntry .signed none) := by
    decide +kernel
  have hsubmitted : nextEntry (Program.advance (sampleAnswer []) 5 (submitSignedTransaction
      Xrpl.sample 1 (js "00") (retryOptions (js "first")))).2
      = some (sampleEntry .submitted (some (js "tesSUCCESS"))) := by
    decide +kernel
  intro event hmem _ entry heq
  subst heq
  simp only [submittedEvents, List.mem_cons, reduceCtorEq, JournalEvent.append.injEq,
    List.not_mem_nil, or_false, false_or] at hmem
  rcases hmem with rfl | rfl | rfl
  · exact appends_of_nextEntry hflow _ hsigned
  · exact appends_of_nextEntry hflow _ hsubmitted
  · exact appends_of_nextEntry hflow _ hresult

end Web
end Xcs
