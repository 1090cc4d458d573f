import Xcs.Sdk.ReliableSubmission

/-!
# Runs of the submission flow

Two things must hold however the calls of the flow are answered.  A blob is submitted only when it
is bound to the reviewed transaction, the hooks that were given have passed it and its hash is in
the journal; and a caller that is told `validated` or `expired` finds that stage as the last entry
of the journal.

* `Grows` is the frame condition of the parts of the flow: the history gets longer, and the entries
  that are appended belong to the operation.
* `FromValidated` is what every entry that says `validated` rests on.
* `MaySubmit` is the condition on a submission, and `submits_only_journaled` says that every run of
  the flow meets it.
-/

namespace Xcs
namespace Sdk

open Js

/-! ## Histories -/

/-- The entry an event appends, whether or not the journal took it. -/
def appendedEntry : SdkEvent → Option SubmissionJournalEntry
  | ⟨.append entry, _⟩ => some entry
  | _ => none

/-- The entry an event leaves in the journal. -/
def journaledEntry : SdkEvent → Option SubmissionJournalEntry
  | ⟨.append entry, .ok ()⟩ => some entry
  | _ => none

/-- The journal after a history. -/
def journaled (h : List SdkEvent) : List SubmissionJournalEntry :=
  h.filterMap journaledEntry

/-- The frame of a part of the flow of one operation: the history gets longer, by entries of the
operation and by other events. -/
structure Grows (operationId : JsString) (h₀ h : List SdkEvent) : Prop where
  extends_old : h₀ <+: h
  owned : ∀ event ∈ h, ∀ entry, appendedEntry event = some entry →
    event ∈ h₀ ∨ entry.operationId = operationId

namespace Grows

variable {operationId : JsString} {h₀ h h' : List SdkEvent}

theorem refl (operationId : JsString) (h : List SdkEvent) : Grows operationId h h :=
  ⟨List.prefix_rfl, fun _ hmem _ _ => Or.inl hmem⟩

theorem trans (hold : Grows operationId h₀ h) (hnew : Grows operationId h h') :
    Grows operationId h₀ h' := by
  refine ⟨hold.extends_old.trans hnew.extends_old, fun event hmem entry hentry => ?_⟩
  rcases hnew.owned event hmem entry hentry with hmem | howned
  · exact hold.owned event hmem entry hentry
  · exact Or.inr howned

theorem snoc {event : SdkEvent} (hold : Grows operationId h₀ h)
    (hevent : ∀ entry, appendedEntry event = some entry → entry.operationId = operationId) :
    Grows operationId h₀ (h ++ [event]) := by
  refine ⟨hold.extends_old.trans (List.prefix_append _ _), fun event' hmem entry hentry => ?_⟩
  rcases List.mem_append.mp hmem with hmem | hmem
  · exact hold.owned event' hmem entry hentry
  · obtain rfl := List.mem_singleton.mp hmem
    exact Or.inr (hevent entry hentry)

/-- An event that appends nothing. -/
theorem snoc_other {event : SdkEvent} (hold : Grows operationId h₀ h)
    (hevent : appendedEntry event = none) : Grows operationId h₀ (h ++ [event]) :=
  hold.snoc fun entry hentry => by rw [hevent] at hentry; cases hentry

theorem mem (hold : Grows operationId h₀ h) {event : SdkEvent} (hmem : event ∈ h₀) : event ∈ h :=
  hold.extends_old.subset hmem

theorem mem_journaled (hold : Grows operationId h₀ h) {entry : SubmissionJournalEntry}
    (hmem : entry ∈ journaled h₀) : entry ∈ journaled h :=
  (List.IsPrefix.filterMap journaledEntry hold.extends_old).subset hmem

end Grows

/-! ## The parts of the flow -/

section Parts

variable {G : List SdkEvent → SdkCall → Prop} {operationId : JsString} {h₀ : List SdkEvent}

/-- An entry that says `validated` repeats what a lookup of its hash was answered. -/
def FromValidated (h : List SdkEvent) (entry : SubmissionJournalEntry) : Prop :=
  entry.stage = .validated → ∃ txHash result, entry.txHash = some txHash ∧
    ⟨.tx (toUpperCase txHash), .ok result⟩ ∈ h ∧ result.get (js "validated") = .bool true ∧
    entry.engineResult = readTransactionResult (result.get (js "meta"))

/-- A guard that asks nothing of a call that is no submission, and of an entry that it repeats the
lookup it is about. -/
def Quiet (G : List SdkEvent → SdkCall → Prop) : Prop :=
  ∀ h c, (∀ txBlob failHard, c ≠ .submit txBlob failHard) →
    (∀ entry, c = .append entry → FromValidated h entry) → G h c

theorem Quiet.other (hG : Quiet G) {h : List SdkEvent} {c : SdkCall}
    (hsubmit : ∀ txBlob failHard, c ≠ .submit txBlob failHard)
    (happend : ∀ entry, c ≠ .append entry) : G h c :=
  hG h c hsubmit fun entry hc => absurd hc (happend entry)

theorem assertSdk_eq_ok {condition : Bool} {code message : JsString} {u : Unit} :
    assertSdk condition code message = .ok u ↔ condition = true := by
  cases condition <;> simp [assertSdk]

theorem ofRpc_eq_ok {α : Type} {result : Except RpcError α} {a : α} :
    ofRpc result = .ok a ↔ result = .ok a := by
  cases result <;> simp [ofRpc, Except.mapError]

theorem ensures_assertConnected (hG : Quiet G) (message : JsString) :
    Program.Ensures G (fun h _ => ∀ operationId, Grows operationId h₀ h) h₀
      (assertConnected message) := by
  refine .bind_perform (hG.other nofun nofun) fun answer => ?_
  have hgrows : ∀ operationId, Grows operationId h₀ (h₀ ++ [⟨.isConnected, answer⟩]) :=
    fun operationId => (Grows.refl operationId h₀).snoc_other rfl
  exact .bind_done (fun _ _ => hgrows) fun _ _ => hgrows

/-- **Appending an entry.**  When the journal took it, it is the last one. -/
theorem ensures_append (hG : Quiet G) (operationId : JsString)
    {entry : JsString → SubmissionJournalEntry}
    (hentry : ∀ time, (entry time).operationId = operationId)
    (hvalidated : ∀ time, FromValidated h₀ (entry time)) :
    Program.Ensures G (fun h result => Grows operationId h₀ h ∧
      (result = .ok () → ∃ time, (journaled h).getLast? = some (entry time))) h₀
      (append entry) := by
  refine .bind_perform (hG.other nofun nofun) fun time => .bind_perform ?_ fun answer => ?_
  · refine hG _ _ nofun fun e he hstage => ?_
    cases he
    obtain ⟨txHash, result, htxHash, hmem, hlookup⟩ := hvalidated time hstage
    exact ⟨txHash, result, htxHash, List.mem_append_left _ hmem, hlookup⟩
  have hgrows : Grows operationId h₀ (h₀ ++ [⟨.currentTime, time⟩]
      ++ [⟨.append (entry time), answer⟩]) :=
    ((Grows.refl operationId h₀).snoc_other rfl).snoc fun e he =>
      Option.some.inj he ▸ hentry time
  refine ⟨hgrows, fun hok => ⟨time, ?_⟩⟩
  obtain rfl := ofRpc_eq_ok.mp hok
  rw [journaled, List.filterMap_append]
  show (_ ++ [entry time]).getLast? = _
  rw [List.getLast?_append, List.getLast?_singleton, Option.some_or]

theorem ensures_onValidatedSignature (hG : Quiet G) (signature : ValidatedSignature) :
    Program.Ensures G (fun h result => Grows operationId h₀ h ∧
      ∀ u, result = .ok u → ⟨.onValidatedSignature signature, .ok ()⟩ ∈ h) h₀
      (onValidatedSignature signature) := by
  refine .bind_perform (hG.other nofun nofun) fun answer => ?_
  refine ⟨(Grows.refl operationId h₀).snoc_other rfl, fun u hok => ?_⟩
  obtain rfl := ofRpc_eq_ok.mp hok
  exact List.mem_append_right _ (List.mem_singleton_self _)

theorem ensures_beforeSubmit (hG : Quiet G) (signature : ValidatedSignature) :
    Program.Ensures G (fun h result => Grows operationId h₀ h ∧
      ∀ u, result = .ok u → ⟨.beforeSubmit signature, .ok ()⟩ ∈ h) h₀
      (beforeSubmit signature) := by
  refine .bind_perform (hG.other nofun nofun) fun answer => ?_
  refine ⟨(Grows.refl operationId h₀).snoc_other rfl, fun u hok => ?_⟩
  obtain rfl := ofRpc_eq_ok.mp hok
  exact List.mem_append_right _ (List.mem_singleton_self _)

/-- An entry about a failure, which is then thrown. -/
theorem ensures_fail {α : Type} (hG : Quiet G) (operationId : JsString)
    {entry : JsString → SubmissionJournalEntry}
    (hentry : ∀ time, (entry time).operationId = operationId)
    (hvalidated : ∀ h time, FromValidated h (entry time)) (error : SdkThrown) :
    Program.Ensures G (fun h result => Grows operationId h₀ h ∧ ∀ a, result ≠ .ok a) h₀
      (append entry >>= fun _ => (Program.throwing error : SdkProgram α)) := by
  refine .bind ?_ (fun _ _ hgrows => ⟨hgrows.1, nofun⟩)
    (ensures_append hG operationId hentry (hvalidated h₀))
  exact fun _ _ hgrows => ⟨hgrows.1, nofun⟩

/-- A handler that throws again does not turn a failure into a success. -/
theorem ensures_catchFailure {α : Type} {p : SdkProgram α} {handler : SdkThrown → SdkProgram α}
    {P : List SdkEvent → α → Prop}
    (hp : Program.Ensures G (fun h result => Grows operationId h₀ h ∧
      ∀ a, result = .ok a → P h a) h₀ p)
    (hhandler : ∀ h error, Program.Ensures G (fun h' result => Grows operationId h h' ∧
      ∀ a, result ≠ .ok a) h (handler error)) :
    Program.Ensures G (fun h result => Grows operationId h₀ h ∧ ∀ a, result = .ok a → P h a) h₀
      (p.catchError handler) := by
  refine .catchError (fun _ _ hok => hok) ?_ hp
  rintro h error ⟨hgrows, -⟩
  exact (hhandler h error).mono fun h' result hresult =>
    ⟨hgrows.trans hresult.1, fun a ha => absurd ha (hresult.2 a)⟩

/-- A hook that is not given asks for nothing. -/
theorem ensures_callHook {given : Bool} {hook : SdkProgram Unit} {P : List SdkEvent → Prop}
    (hhook : Program.Ensures G (fun h result => Grows operationId h₀ h ∧
      ∀ u, result = .ok u → P h) h₀ hook) :
    Program.Ensures G (fun h result => Grows operationId h₀ h ∧
      ∀ u, result = .ok u → given = true → P h) h₀ (callHook given hook) := by
  cases given with
  | false => exact ⟨Grows.refl operationId h₀, fun _ _ h => by cases h⟩
  | true => exact hhook.mono fun h result hresult => ⟨hresult.1, fun u hok _ => hresult.2 u hok⟩

/-- A status that says `validated` repeats what a lookup was answered. -/
def StatusFrom (h : List SdkEvent) (txHash : JsString) (status : TransactionStatus) : Prop :=
  status.status = .validated → status.txHash = toUpperCase txHash ∧ ∃ result,
    ⟨.tx (toUpperCase txHash), .ok result⟩ ∈ h ∧ result.get (js "validated") = .bool true ∧
    status.transactionResult = readTransactionResult (result.get (js "meta"))

/-- **What `validated` was concluded from.** -/
theorem getTransactionStatus_validated {txHash : JsString} {lastLedgerSequence : Option ℕ}
    {lookup current : RpcResponse} {status : TransactionStatus}
    (h : getTransactionStatus txHash lastLedgerSequence lookup current = .ok status)
    (hstatus : status.status = .validated) :
    status.txHash = toUpperCase txHash ∧ ∃ result, lookup = .ok result ∧
      result.get (js "validated") = .bool true ∧
      status.transactionResult = readTransactionResult (result.get (js "meta")) := by
  unfold getTransactionStatus at h
  split at h
  · cases lookup with
    | ok result =>
        dsimp only at h
        split at h
        · rename_i hvalidated
          cases h
          exact ⟨rfl, result, rfl, hvalidated, rfl⟩
        · cases h
          cases hstatus
    | error error =>
        dsimp only at h
        split at h
        · split at h
          · cases h
            cases hstatus
          · split at h
            · cases h
            · split at h <;> cases h <;> cases hstatus
        · cases h
  · cases h

theorem ensures_requestTransactionStatus (hG : Quiet G) (operationId : JsString) (txHash : JsString)
    (lastLedgerSequence : Option ℕ) :
    Program.Ensures G (fun h result => Grows operationId h₀ h ∧
      ∀ status, result = .ok status → StatusFrom h txHash status) h₀
      (requestTransactionStatus txHash lastLedgerSequence) := by
  refine .bind_done (fun _ _ => .bind_perform (hG.other nofun nofun) fun lookup => ?_)
    fun _ _ => ⟨Grows.refl operationId h₀, nofun⟩
  have hgrows : Grows operationId h₀ (h₀ ++ [⟨.tx (toUpperCase txHash), lookup⟩]) :=
    (Grows.refl operationId h₀).snoc_other rfl
  split
  · split
    · refine .bind_perform (hG.other nofun nofun) fun current => ?_
      refine ⟨hgrows.snoc_other rfl, fun status hok hvalidated => ?_⟩
      obtain ⟨-, result, hlookup, -⟩ := getTransactionStatus_validated hok hvalidated
      cases hlookup
    · exact ⟨hgrows, nofun⟩
  · refine ⟨hgrows, fun status hok hvalidated => ?_⟩
    obtain ⟨htxHash, result, rfl, hlookup⟩ := getTransactionStatus_validated hok hvalidated
    exact ⟨htxHash, result, List.mem_append_right _ (List.mem_singleton_self _), hlookup⟩

/-- The induction is on the number of turns; every turn only adds requests to the history. -/
theorem ensures_pollTransaction (hG : Quiet G) (operationId : JsString) (txHash : JsString)
    (lastLedgerSequence deadline pollIntervalMs : ℕ) : ∀ (turns : ℕ) (h₀ : List SdkEvent),
    Program.Ensures G (fun h result => Grows operationId h₀ h ∧
      ∀ status, result = .ok status → StatusFrom h txHash status) h₀
      (pollTransaction txHash lastLedgerSequence deadline pollIntervalMs turns)
  | 0, _ => trivial
  | turns + 1, h₀ => by
      refine .bind ?_ (fun _ _ hgrows => ⟨hgrows.1, nofun⟩)
        (ensures_requestTransactionStatus hG operationId txHash _)
      rintro h status ⟨hgrows, hstatus⟩
      have hresult : ∀ status', (.ok status : Except SdkThrown TransactionStatus) = .ok status' →
          StatusFrom h txHash status' := hstatus
      split
      · exact ⟨hgrows, hresult⟩
      · exact ⟨hgrows, hresult⟩
      · rename_i hvalidated _
        refine .bind_perform (hG.other nofun nofun) fun now => ?_
        have hclock : Grows operationId h₀ (h ++ [⟨.clock, now⟩]) := hgrows.snoc_other rfl
        split
        · refine ⟨hclock, fun status' hstatus' hover => ?_⟩
          cases hstatus'
          dsimp only at hover
          split at hover
          · cases hover
          · exact absurd hover hvalidated
        · refine .bind_perform (hG.other nofun nofun) fun u => ?_
          have hdelay : Grows operationId h₀ (h ++ [⟨.clock, now⟩]
              ++ [⟨.delay pollIntervalMs, u⟩]) := hclock.snoc_other rfl
          exact (ensures_pollTransaction hG operationId txHash lastLedgerSequence deadline
            pollIntervalMs
            turns _).mono fun h _ hmore => ⟨hdelay.trans hmore.1, hmore.2⟩

theorem ensures_awaitTransaction (hG : Quiet G) (operationId : JsString) (turns : ℕ)
    (txHash : JsString)
    (lastLedgerSequence : ℕ) (options : ReliableSubmissionOptions) :
    Program.Ensures G (fun h result => Grows operationId h₀ h ∧
      ∀ status, result = .ok status → StatusFrom h txHash status) h₀
      (awaitTransaction turns txHash lastLedgerSequence options) := by
  refine .bind_perform (hG.other nofun nofun) fun now => ?_
  have hclock : Grows operationId h₀ (h₀ ++ [⟨.clock, now⟩]) :=
    (Grows.refl operationId h₀).snoc_other rfl
  exact (ensures_pollTransaction hG operationId txHash lastLedgerSequence _ _ turns _).mono
    fun h _ hmore => ⟨hclock.trans hmore.1, hmore.2⟩

/-- The stage of the closing entry is `validated` only where the status is. -/
theorem finalStage_eq_validated {kind : TransactionStatusKind} :
    finalStage kind = .validated ↔ kind = .validated := by
  cases kind <;> decide

theorem ensures_relay (hG : Quiet G) (operationId : JsString) (txHash : JsString)
    (lastLedgerSequence : ℕ)
    (response : RpcResponse) (submitEngineResult : Option JsString) :
    Program.Ensures G (fun h _ => Grows operationId h₀ h) h₀
      (relay operationId txHash lastLedgerSequence response submitEngineResult) := by
  -- Any entry followed by a result is in the frame.
  have happend : ∀ (entry : JsString → SubmissionJournalEntry) (malformed : Bool)
      (h : List SdkEvent), (∀ time, (entry time).operationId = operationId) →
      (∀ time, FromValidated h (entry time)) → Grows operationId h₀ h →
      Program.Ensures G (fun h _ => Grows operationId h₀ h) h
        (append entry >>= fun _ => pure malformed) := by
    intro entry malformed h hentry hvalidated hgrows
    refine .bind ?_ (fun _ _ hmore => hgrows.trans hmore.1)
      (ensures_append hG operationId hentry hvalidated)
    exact fun _ _ hmore => hgrows.trans hmore.1
  refine .catchError (P := fun h _ => Grows operationId h₀ h) (fun _ _ hgrows => hgrows) ?_ ?_
  · exact fun h _ hgrows => happend _ _ h (fun _ => rfl) (fun _ => nofun) hgrows
  · refine .bind_done (fun _ _ => ?_) fun _ _ => Grows.refl operationId h₀
    refine .bind ?_ (fun _ _ hmore => hmore.1)
      (ensures_append hG operationId (fun _ => rfl) fun _ => nofun)
    rintro h u ⟨hgrows, -⟩
    split
    · exact happend _ _ h (fun _ => rfl) (fun _ => nofun) hgrows
    · exact hgrows

/-- A caller that is told the transaction is over finds that stage as the last entry. -/
def ReportsLast (h : List SdkEvent) (result : ReliableSubmissionResult) : Prop :=
  result.status = .validated ∨ result.status = .expired →
    ∃ entry, (journaled h).getLast? = some entry ∧ entry.stage = finalStage result.status ∧
      entry.operationId = result.operationId

theorem ensures_reconcile (hG : Quiet G) (turns : ℕ) (operationId txHash : JsString)
    (lastLedgerSequence : ℕ) (options : ReliableSubmissionOptions) (response : RpcResponse) :
    Program.Ensures G (fun h result => Grows operationId h₀ h ∧
      ∀ r, result = .ok r → ReportsLast h r) h₀
      (reconcile turns operationId txHash lastLedgerSequence options response) := by
  refine .bind ?_ (fun _ _ hgrows => ⟨hgrows, fun _ hr => by cases hr⟩)
    (ensures_relay hG operationId txHash lastLedgerSequence response _)
  intro h malformed hgrows
  split
  · refine ⟨hgrows, fun r hr hover => ?_⟩
    cases hr
    rcases hover with hover | hover <;> cases hover
  · refine .bind ?_ (fun _ _ hmore => ⟨hgrows.trans hmore.1, fun _ hr => by cases hr⟩)
      (ensures_awaitTransaction hG operationId turns txHash _ options)
    rintro h' status ⟨hmore, hstatus⟩
    have hvalidated : ∀ time, FromValidated h' ⟨operationId, time, finalStage status.status,
        some txHash, some lastLedgerSequence, status.transactionResult, status.ledgerIndex,
        none⟩ := by
      intro time hstage
      obtain ⟨-, result, hmem, hlookup⟩ := hstatus status rfl (finalStage_eq_validated.mp hstage)
      exact ⟨txHash, result, rfl, hmem, hlookup⟩
    refine .bind ?_ (fun _ _ hlast =>
      ⟨(hgrows.trans hmore).trans hlast.1, fun _ hr => by cases hr⟩)
      (ensures_append hG operationId (fun _ => rfl) hvalidated)
    rintro h'' u ⟨hgrows'', hlast⟩
    refine ⟨(hgrows.trans hmore).trans hgrows'', fun r hr _ => ?_⟩
    cases hr
    obtain ⟨time, htime⟩ := hlast rfl
    exact ⟨_, htime, rfl, rfl⟩

theorem hashBlob_eq_ok {X : Xrpl} {txBlob txHash : JsString} :
    hashBlob X txBlob = .ok txHash ↔
      ∃ hash, X.hashSignedTx txBlob = .ok hash ∧ toUpperCase hash = txHash := by
  unfold hashBlob
  cases X.hashSignedTx txBlob <;> simp

theorem decodeBlob_eq_ok {X : Xrpl} {txBlob : JsString} {signed : Members} :
    decodeBlob X txBlob = .ok signed ↔ X.decode txBlob = .ok signed := by
  unfold decodeBlob
  cases X.decode txBlob <;> simp

/-- **What a submission rests on.**  The blob decodes to a transaction with a `LastLedgerSequence`,
all entries belong to one operation, the operation has been journaled as `signed` under the hash of
the blob, and the hook before the submission, if it is given, has passed the blob. -/
structure Journaled (X : Xrpl) (options : ReliableSubmissionOptions) (txBlob operationId : JsString)
    (signed : Members) (txHash : JsString) (h : List SdkEvent) : Prop where
  decoded : X.decode txBlob = .ok signed
  hashed : ∃ hash, X.hashSignedTx txBlob = .ok hash ∧ toUpperCase hash = txHash
  requested : ∀ id, options.operationId = some id → operationId = id
  entry : ∃ lastLedgerSequence time, signedSequence signed = .ok lastLedgerSequence ∧
    hashedEntry operationId txHash lastLedgerSequence .signed none none time ∈ journaled h
  beforeSubmit : options.beforeSubmit = true → ∃ signature : ValidatedSignature,
    signature.operationId = operationId ∧ signature.txBlob = txBlob ∧ signature.txHash = txHash ∧
    ⟨.beforeSubmit signature, .ok ()⟩ ∈ h

/-- The guard of `submitSignedTransaction` when it starts after a history. -/
def SubmitsJournaled (X : Xrpl) (options : ReliableSubmissionOptions) (txBlob : JsString)
    (h₀ h : List SdkEvent) (c : SdkCall) : Prop :=
  (∀ txBlob' failHard, c = .submit txBlob' failHard → txBlob' = txBlob ∧
    ∃ operationId signed txHash, Grows operationId h₀ h ∧
      Journaled X options txBlob operationId signed txHash h) ∧
  ∀ entry, c = .append entry → FromValidated h entry

theorem quiet_submitsJournaled (X : Xrpl) (options : ReliableSubmissionOptions) (txBlob : JsString)
    (h₀ : List SdkEvent) : Quiet (SubmitsJournaled X options txBlob h₀) :=
  fun _ _ hsubmit happend =>
    ⟨fun txBlob' failHard heq => absurd heq (hsubmit txBlob' failHard), happend⟩

theorem ensures_resolveOperationId (hG : Quiet G) (options : ReliableSubmissionOptions) :
    Program.Ensures G (fun h result => (∀ operationId, Grows operationId h₀ h) ∧
      ∀ operationId, result = .ok operationId →
        ∀ id, options.operationId = some id → operationId = id) h₀
      (resolveOperationId options) := by
  unfold resolveOperationId
  split
  · rename_i operationId hrequested
    refine ⟨fun id => Grows.refl id h₀, fun id hid id' hid' => ?_⟩
    cases hid
    exact Option.some.inj (hrequested.symm.trans hid')
  · rename_i hrequested
    refine ⟨hG.other nofun nofun, fun uuid => ⟨fun id => ?_, fun id _ id' hid' => ?_⟩⟩
    · exact (Grows.refl id h₀).snoc_other rfl
    · rw [hrequested] at hid'
      cases hid'

/-- **Submitting a signed blob.**  It is submitted once it is journaled, and nothing else is. -/
theorem ensures_submitSignedTransaction (X : Xrpl) (turns : ℕ) (txBlob : JsString)
    (options : ReliableSubmissionOptions) (h₀ : List SdkEvent) :
    Program.Ensures (SubmitsJournaled X options txBlob h₀)
      (fun h result => ∀ r, result = .ok r → ReportsLast h r) h₀
      (submitSignedTransaction X turns txBlob options) := by
  have hG := quiet_submitsJournaled X options txBlob h₀
  refine .bind ?_ (fun _ _ _ _ hr => by cases hr) (ensures_assertConnected hG _)
  intro h₁ _ hgrows₁
  refine .bind_done (fun _ _ => ?_) fun _ _ _ hr => by cases hr
  refine .bind ?_ (fun _ _ _ _ hr => by cases hr) (ensures_resolveOperationId hG options)
  rintro h₂ operationId ⟨hgrows₂, hrequested⟩
  refine .bind_done (fun signed hsigned => ?_) fun _ _ _ hr => by cases hr
  refine .bind_done (fun txHash htxHash => ?_) fun _ _ _ hr => by cases hr
  refine .bind_done (fun _ _ => ?_) fun _ _ _ hr => by cases hr
  refine .bind_done (fun last hlast => ?_) fun _ _ _ hr => by cases hr
  -- The recovery identifiers go to the journal before the first side effect.
  refine .bind ?_ (fun _ _ _ _ hr => by cases hr)
    (ensures_append hG operationId (fun _ => rfl) fun _ => nofun)
  rintro h₃ _ ⟨hgrows₃, hentry⟩
  obtain ⟨time, htime⟩ := hentry rfl
  let signature : ValidatedSignature :=
    ⟨operationId, withoutSignatureFields signed, txBlob, txHash, some last⟩
  refine .bind ?_ (fun _ _ _ _ hr => by cases hr) (ensures_callHook
    (P := fun h => ⟨.beforeSubmit signature, .ok ()⟩ ∈ h)
    (ensures_catchFailure (ensures_beforeSubmit hG signature)
      fun h error => ensures_fail hG operationId (fun _ => rfl) (fun _ _ h => by cases h) error))
  rintro h₄ _ ⟨hgrows₄, hbefore⟩
  refine .bind_perform ?_ fun response => ?_
  · refine ⟨fun txBlob' failHard heq => ?_, nofun⟩
    cases heq
    refine ⟨rfl, operationId, signed, txHash,
      (((hgrows₁ operationId).trans (hgrows₂ operationId)).trans hgrows₃).trans hgrows₄, ?_⟩
    exact
      { decoded := decodeBlob_eq_ok.mp hsigned
        hashed := hashBlob_eq_ok.mp htxHash
        requested := hrequested operationId rfl
        entry := ⟨last, time, hlast, hgrows₄.mem_journaled (List.mem_of_getLast? htime)⟩
        beforeSubmit := fun hgiven => ⟨signature, rfl, rfl, rfl, hbefore _ rfl hgiven⟩ }
  · exact (ensures_reconcile hG turns operationId txHash last options response).mono
      fun h result hresult => hresult.2

/-- The fields a signature may not change are the same in both transactions. -/
def BoundTo (X : Xrpl) (options : ReliableSubmissionOptions) (reviewed signed : Members) : Prop :=
  ∃ bytes,
    X.encode (boundFields (options.allowSignerLastLedgerSequenceRefresh == some true) reviewed)
      = .ok bytes ∧
    X.encode (boundFields (options.allowSignerLastLedgerSequenceRefresh == some true) signed)
      = .ok bytes

theorem boundTo_of_assertSignedTransactionMatches {X : Xrpl} {options : ReliableSubmissionOptions}
    {reviewed signedTransaction : Members} {txBlob : JsString}
    (h : assertSignedTransactionMatches X reviewed txBlob
      (options.allowSignerLastLedgerSequenceRefresh == some true) = .ok signedTransaction) :
    ∃ signed, X.decode txBlob = .ok signed ∧ BoundTo X options reviewed signed := by
  simp only [assertSignedTransactionMatches, bind_eq_ok, pure_eq_ok, assertSdk_eq_ok, ofRpc_eq_ok,
    decodeBlob_eq_ok, beq_iff_eq] at h
  obtain ⟨signed, hdecode, -, -, -, -, bytes, hreviewed, bytes', hsigned, -, rfl, -⟩ := h
  exact ⟨signed, hdecode, bytes, hreviewed, hsigned⟩

/-- What signing returns is bound to the reviewed transaction. -/
theorem ensures_signTransaction (hG : Quiet G) (X : Xrpl) (reviewed : Members)
    (options : ReliableSubmissionOptions) :
    Program.Ensures G (fun h result => Grows operationId h₀ h ∧ ∀ r, result = .ok r →
      (∃ hash, X.hashSignedTx r.1 = .ok hash ∧ toUpperCase hash = r.2.1) ∧
      ∃ signed, X.decode r.1 = .ok signed ∧ BoundTo X options reviewed signed) h₀
      (signTransaction X reviewed options) := by
  refine .bind_perform (hG.other nofun nofun) fun answer => ?_
  have hgrows : Grows operationId h₀ (h₀ ++ [⟨.sign reviewed, answer⟩]) :=
    (Grows.refl operationId h₀).snoc_other rfl
  refine .bind_done (fun signed _ => ?_) fun _ _ => ⟨hgrows, nofun⟩
  refine .bind_done (fun _ _ => ?_) fun _ _ => ⟨hgrows, nofun⟩
  refine .bind_done (fun hash hhash => ?_) fun _ _ => ⟨hgrows, nofun⟩
  refine .bind_done (fun _ _ => ?_) fun _ _ => ⟨hgrows, nofun⟩
  refine .bind_done (fun signedTransaction hmatches => ?_) fun _ _ => ⟨hgrows, nofun⟩
  refine ⟨hgrows, fun r hr => ?_⟩
  cases hr
  exact ⟨⟨hash, ofRpc_eq_ok.mp hhash, rfl⟩, boundTo_of_assertSignedTransactionMatches hmatches⟩

end Parts

/-! ## The whole flow -/

/-- **When a blob may be submitted.**  It is journaled as a signed transaction of the one operation
of the history, it is bound to the reviewed transaction, and the hook on the signature, if it is
given, has passed it. -/
def MaySubmit (X : Xrpl) (options : ReliableSubmissionOptions) (reviewed : Members)
    (txBlob : JsString) (h : List SdkEvent) : Prop :=
  ∃ operationId signed txHash, Journaled X options txBlob operationId signed txHash h ∧
    (∀ event ∈ h, ∀ entry, appendedEntry event = some entry → entry.operationId = operationId) ∧
    BoundTo X options reviewed signed ∧
    (options.onValidatedSignature = true → ∃ signature : ValidatedSignature,
      signature.operationId = operationId ∧ signature.txBlob = txBlob ∧
      signature.txHash = txHash ∧ ⟨.onValidatedSignature signature, .ok ()⟩ ∈ h)

/-- The guard of the flow after a history: a submission needs what `MaySubmit` says. -/
def SubmitsReviewed (X : Xrpl) (options : ReliableSubmissionOptions) (reviewed : Members)
    (h₀ h : List SdkEvent) (c : SdkCall) : Prop :=
  (∀ txBlob failHard, c = .submit txBlob failHard →
    h₀ <+: h ∧ MaySubmit X options reviewed txBlob h) ∧
  ∀ entry, c = .append entry → FromValidated h entry

theorem quiet_submitsReviewed (X : Xrpl) (options : ReliableSubmissionOptions)
    (reviewed : Members) (h₀ : List SdkEvent) : Quiet (SubmitsReviewed X options reviewed h₀) :=
  fun _ _ hsubmit happend =>
    ⟨fun txBlob failHard heq => absurd heq (hsubmit txBlob failHard), happend⟩

/-- **The flow from a history without entries.** -/
theorem ensures_signPreparedAndSubmit (X : Xrpl) (turns : ℕ) (reviewed : Members)
    (options : ReliableSubmissionOptions) {h₀ : List SdkEvent}
    (hnone : ∀ event ∈ h₀, appendedEntry event = none) :
    Program.Ensures (SubmitsReviewed X options reviewed h₀)
      (fun h result => ∀ r, result = .ok r → ReportsLast h r) h₀
      (signPreparedAndSubmit X turns reviewed options) := by
  have hG := quiet_submitsReviewed X options reviewed h₀
  refine .bind ?_ (fun _ _ _ _ hr => by cases hr) (ensures_assertConnected hG _)
  intro h₁ _ hgrows₁
  refine .bind_done (fun _ _ => ?_) fun _ _ _ hr => by cases hr
  refine .bind_done (fun last _ => ?_) fun _ _ _ hr => by cases hr
  refine .bind ?_ (fun _ _ _ _ hr => by cases hr) (ensures_resolveOperationId hG options)
  rintro h₂ operationId ⟨hgrows₂, hrequested⟩
  refine .bind ?_ (fun _ _ _ _ hr => by cases hr)
    (ensures_append hG operationId (fun _ => rfl) fun _ => nofun)
  rintro h₃ _ ⟨hgrows₃, -⟩
  refine .bind ?_ (fun _ _ _ _ hr => by cases hr) (ensures_catchFailure
    (ensures_signTransaction hG X reviewed options)
    fun h error => ensures_fail hG operationId (fun _ => rfl) (fun _ _ h => by cases h) error)
  rintro h₄ ⟨txBlob, txHash, signedTransaction⟩ ⟨hgrows₄, hsigning⟩
  obtain ⟨⟨hash, hhash, htxHash⟩, signed, hdecode, hbound⟩ := hsigning _ rfl
  refine .bind ?_ (fun _ _ _ _ hr => by cases hr) (ensures_catchFailure
    (ensures_callHook (ensures_onValidatedSignature hG _))
    fun h error => ensures_fail hG operationId (fun _ => rfl) (fun _ _ h => by cases h) error)
  rintro h₅ _ ⟨hgrows₅, hhook⟩
  have hgrows : Grows operationId h₀ h₅ :=
    ((((hgrows₁ operationId).trans (hgrows₂ operationId)).trans hgrows₃).trans hgrows₄).trans
      hgrows₅
  -- What was established before the submission still stands in the longer history.
  refine Program.Ensures.mono_guard ?_ (ensures_submitSignedTransaction X turns txBlob _ _)
  rintro h c ⟨hsubmits, happends⟩
  refine ⟨?_, happends⟩
  rintro txBlob' failHard rfl
  obtain ⟨rfl, operationId', signed', txHash', hgrows', hjournaled⟩ :=
    hsubmits txBlob' failHard rfl
  obtain rfl : operationId' = operationId := hjournaled.requested operationId rfl
  obtain rfl : signed' = signed := Except.ok.inj (hjournaled.decoded.symm.trans hdecode)
  obtain rfl : txHash' = txHash := by
    obtain ⟨hash', hhash', rfl⟩ := hjournaled.hashed
    rw [Except.ok.inj (hhash'.symm.trans hhash)]
    exact htxHash
  refine ⟨(hgrows.trans hgrows').extends_old, operationId', signed', txHash', ?_, ?_, hbound, ?_⟩
  · exact { hjournaled with requested := hrequested operationId' rfl }
  · intro event hmem entry hentry
    rcases (hgrows.trans hgrows').owned event hmem entry hentry with hold | howned
    · rw [hnone event hold] at hentry
      cases hentry
    · exact howned
  · exact fun hgiven => ⟨_, rfl, rfl, rfl, hgrows'.mem (hhook _ rfl hgiven)⟩

/-- What is in the frame of every operation appends nothing. -/
theorem appendedEntry_eq_none_of_grows {h : List SdkEvent}
    (hgrows : ∀ operationId, Grows operationId [] h) :
    ∀ event ∈ h, appendedEntry event = none := by
  intro event hmem
  cases hentry : appendedEntry event with
  | none => rfl
  | some entry =>
      rcases (hgrows (0 :: entry.operationId)).owned event hmem entry hentry with hold | howned
      · cases hold
      · exact absurd (congrArg List.length howned) (by simp)

/-- Before the review nothing is appended. -/
theorem ensures_autofillXcsTransaction {G : List SdkEvent → SdkCall → Prop} (hG : Quiet G)
    (transaction : Members) :
    Program.Ensures G (fun h result => (∀ event ∈ h, appendedEntry event = none) ∧
      ∀ r, result = .ok r → ⟨.autofill transaction, .ok r.1⟩ ∈ h) []
      (autofillXcsTransaction transaction) := by
  refine .bind ?_ (fun _ _ hgrows => ⟨appendedEntry_eq_none_of_grows hgrows, nofun⟩)
    (ensures_assertConnected hG _)
  intro h _ hgrows
  refine .bind_done (fun _ _ => ?_) fun _ _ => ⟨appendedEntry_eq_none_of_grows hgrows, nofun⟩
  refine .bind_perform (hG.other nofun nofun) fun answer => ?_
  have hnone : ∀ event ∈ h ++ [⟨.autofill transaction, answer⟩], appendedEntry event = none :=
    appendedEntry_eq_none_of_grows fun operationId => (hgrows operationId).snoc_other rfl
  refine .bind_done (fun reviewed hreviewed => ?_) fun _ _ => ⟨hnone, nofun⟩
  refine .bind_done (fun last _ => ?_) fun _ _ => ⟨hnone, nofun⟩
  refine ⟨hnone, fun r hr => ?_⟩
  cases hr
  obtain rfl := ofRpc_eq_ok.mp hreviewed
  exact List.mem_append_right _ (List.mem_singleton_self _)

/-- The guard of the flow that has the transaction filled in first: what is reviewed is what the
client answered. -/
def SubmitsFilled (X : Xrpl) (options : ReliableSubmissionOptions) (transaction : Members)
    (h : List SdkEvent) (c : SdkCall) : Prop :=
  (∀ txBlob failHard, c = .submit txBlob failHard →
    ∃ reviewed, ⟨.autofill transaction, .ok reviewed⟩ ∈ h ∧
      MaySubmit X options reviewed txBlob h) ∧
  ∀ entry, c = .append entry → FromValidated h entry

theorem ensures_prepareSignAndSubmit (X : Xrpl) (turns : ℕ) (transaction : Members)
    (options : ReliableSubmissionOptions) :
    Program.Ensures (SubmitsFilled X options transaction)
      (fun h result => ∀ r, result = .ok r → ReportsLast h r) []
      (prepareSignAndSubmit X turns transaction options) := by
  have hG : Quiet (SubmitsFilled X options transaction) := fun _ _ hsubmit happend =>
    ⟨fun txBlob failHard heq => absurd heq (hsubmit txBlob failHard), happend⟩
  refine .bind ?_ (fun _ _ _ _ hr => by cases hr)
    (ensures_autofillXcsTransaction hG transaction)
  rintro h ⟨reviewed, last⟩ ⟨hnone, hfilled⟩
  refine Program.Ensures.mono_guard ?_
    (ensures_signPreparedAndSubmit X turns reviewed options hnone)
  rintro h' c ⟨hsubmits, happends⟩
  refine ⟨fun txBlob failHard heq => ?_, happends⟩
  obtain ⟨hextends, hmay⟩ := hsubmits txBlob failHard heq
  exact ⟨reviewed, hextends.subset (hfilled _ rfl), hmay⟩

/-- **Journal before submit, and exact binding.**  However the signer, the journal, the hooks and
the client behave, and whatever happens first:

* a blob is submitted only when it is bound to the reviewed transaction, its hash is in the journal
  as `signed` for the operation, and the hooks that are given have passed it; the reviewed
  transaction is the argument of `signPreparedAndSubmit` and the answer to the request that fills it
  in for `prepareSignAndSubmit`;
* a flow that returns `validated` or `expired` has that stage as the last entry of the journal.

A blob that is handed to `submitSignedTransaction` is submitted under the same conditions but the
ones on the review. -/
theorem submits_only_journaled (X : Xrpl) (turns : ℕ) (options : ReliableSubmissionOptions) :
    (∀ reviewed tr txBlob failHard next,
      Run Program.Step (signPreparedAndSubmit X turns reviewed options) tr
        (.call (.submit txBlob failHard) next) →
      MaySubmit X options reviewed txBlob tr) ∧
    (∀ transaction tr txBlob failHard next,
      Run Program.Step (prepareSignAndSubmit X turns transaction options) tr
        (.call (.submit txBlob failHard) next) →
      ∃ reviewed, ⟨.autofill transaction, .ok reviewed⟩ ∈ tr ∧
        MaySubmit X options reviewed txBlob tr) ∧
    (∀ txBlob tr txBlob' failHard next,
      Run Program.Step (submitSignedTransaction X turns txBlob options) tr
        (.call (.submit txBlob' failHard) next) →
      txBlob' = txBlob ∧ ∃ operationId signed txHash,
        Journaled X options txBlob operationId signed txHash tr) ∧
    (∀ flow : SdkProgram ReliableSubmissionResult,
      ((∃ reviewed, flow = signPreparedAndSubmit X turns reviewed options) ∨
        (∃ transaction, flow = prepareSignAndSubmit X turns transaction options) ∨
        ∃ txBlob, flow = submitSignedTransaction X turns txBlob options) →
      ∀ tr result, Run Program.Step flow tr (.done (.ok result)) → ReportsLast tr result) := by
  have hsign := fun reviewed => ensures_signPreparedAndSubmit X turns reviewed options
    fun event (hmem : event ∈ []) => absurd hmem List.not_mem_nil
  have hprepare := fun transaction => ensures_prepareSignAndSubmit X turns transaction options
  have hsubmit := fun txBlob =>
    ensures_submitSignedTransaction X turns txBlob options []
  refine ⟨?_, ?_, ?_, ?_⟩
  · intro reviewed tr txBlob failHard next hrun
    exact (((hsign reviewed).call_of_run hrun).1 txBlob failHard rfl).2
  · intro transaction tr txBlob failHard next hrun
    exact ((hprepare transaction).call_of_run hrun).1 txBlob failHard rfl
  · intro txBlob tr txBlob' failHard next hrun
    obtain ⟨heq, operationId, signed, txHash, -, hjournaled⟩ :=
      ((hsubmit txBlob).call_of_run hrun).1 txBlob' failHard rfl
    exact ⟨heq, operationId, signed, txHash, hjournaled⟩
  · rintro flow (⟨reviewed, rfl⟩ | ⟨transaction, rfl⟩ | ⟨txBlob, rfl⟩) tr result hrun
    · exact (hsign reviewed).result_of_run hrun result rfl
    · exact (hprepare transaction).result_of_run hrun result rfl
    · exact (hsubmit txBlob).result_of_run hrun result rfl

/-! ## A submission -/

/-- A number of a transaction. -/
def sampleNumber (n : ℕ) (h : n ≤ 2 ^ 53) : JsValue :=
  .num (.finite (JsNumber.ofNatDouble n h))

/-- A reviewed transaction. -/
def sampleReviewed : Members :=
  [(js "TransactionType", .str (js "Payment")), (js "Fee", .str (js "10")),
    (js "Sequence", sampleNumber 1 (by norm_num)),
    (js "LastLedgerSequence", sampleNumber 50 (by norm_num))]

/-- A library that knows one blob, and encodes a transaction as the names of its members. -/
def Xrpl.sample : Xrpl where
  decode := fun _ => .ok (sampleReviewed
    ++ [(js "SigningPubKey", .str (js "ED")), (js "TxnSignature", .str (js "00"))])
  encode := fun members => .ok (members.flatMap fun m => m.1)
  hashSignedTx := fun _ => .ok (List.replicate 64 0x41)
  verifySignature := fun _ => .ok true

/-- Options that give both hooks. -/
def ReliableSubmissionOptions.sample : ReliableSubmissionOptions where
  operationId := some (js "first")
  failHard := none
  pollIntervalMs := none
  timeoutMs := none
  allowSignerLastLedgerSequenceRefresh := none
  onValidatedSignature := true
  beforeSubmit := true

/-- An environment in which nothing fails: the transaction is applied with `tesSUCCESS` for now, and
a lookup says that it is validated, with some more members. -/
def sampleAnswer (members : Members) : (c : SdkCall) → c.Answer
  | .isConnected => .ok true
  | .autofill transaction => .ok transaction
  | .randomUUID => js "first"
  | .currentTime => js "2026-01-01T00:00:00.000Z"
  | .append _ => .ok ()
  | .sign _ => .ok ⟨List.replicate 64 0x41, js "00"⟩
  | .onValidatedSignature _ => .ok ()
  | .beforeSubmit _ => .ok ()
  | .submit .. => .ok (.obj [(js "engine_result", .str (js "tesSUCCESS"))])
  | .tx _ => .ok (.obj ((js "validated", .bool true) :: members))
  | .ledgerCurrent => .ok .undefined
  | .clock => 0
  | .delay _ => ()

/-- The blob of a submission that a program is about to make. -/
def nextSubmission {α : Type} : SdkProgram α → Option (JsString × Bool)
  | .call (.submit txBlob failHard) _ => some (txBlob, failHard)
  | _ => none

theorem exists_call_of_nextSubmission {α : Type} {p : SdkProgram α} {txBlob : JsString}
    {failHard : Bool} (h : nextSubmission p = some (txBlob, failHard)) :
    ∃ next, p = .call (.submit txBlob failHard) next := by
  unfold nextSubmission at h
  split at h
  · cases h
    exact ⟨_, rfl⟩
  · cases h

/-- The flow submits the sample, and is then in the state the theorem describes. -/
theorem submits_only_journaled_sample :
    ∃ tr next, Run Program.Step
        (signPreparedAndSubmit Xrpl.sample 1 sampleReviewed ReliableSubmissionOptions.sample) tr
        (.call (.submit (js "00") false) next) ∧
      MaySubmit Xrpl.sample ReliableSubmissionOptions.sample sampleReviewed (js "00") tr := by
  have hrun := Program.run_advance (sampleAnswer []) 9
    (signPreparedAndSubmit Xrpl.sample 1 sampleReviewed ReliableSubmissionOptions.sample)
  have hnext : nextSubmission (Program.advance (sampleAnswer []) 9 (signPreparedAndSubmit
      Xrpl.sample 1 sampleReviewed ReliableSubmissionOptions.sample)).2
      = some (js "00", false) := by
    decide +kernel
  obtain ⟨next, heq⟩ := exists_call_of_nextSubmission hnext
  rw [heq] at hrun
  exact ⟨_, next, hrun, (submits_only_journaled Xrpl.sample 1
    ReliableSubmissionOptions.sample).1 _ _ _ _ _ hrun⟩

end Sdk
end Xcs
