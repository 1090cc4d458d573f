import Xcs.Db.Fencing

/-!
# The writer lease over whole runs

Any number of processes send their operations to the row of a profile, each operation is one
transaction, and the database clock does not run backwards.  A committed transaction takes the
rows to what it computed, one that threw leaves them as they were.

The row is a fenced register: a successful acquisition grants the next epoch, a release or a halt
retires the token it shows, and every other successful operation uses the token it shows.
`FencingStep.refines` is that refinement, and the statements about whole runs are the statements
of `Xcs.Fence` read back through it.

* `FencingOperation.perform_ok` says what a successful transaction found and left.
* `FencingStep.refines` is the refinement.
* `FencingStep.statusValid` says that no transaction leaves a row that violates a constraint.
* `indexer_lease_fencing` is the contract of the lease.
-/

namespace Xcs
namespace Db

open Js

/-! ## Operations and their outcomes -/

/-- The operations a writer sends to the status row. -/
inductive FencingOperation where
  | acquire (input : AcquireIndexerLeaseInput)
  | renew (token : IndexerLeaseToken) (leaseDurationMs : ℕ)
  | update (token : IndexerLeaseToken) (input : IndexerStatusUpdateInput)
  | release (token : IndexerLeaseToken)
  | halt (token : IndexerLeaseToken) (input : StatusFields) (errorCode : JsString)
  | lock (token : IndexerLeaseToken)

/-- What a successful operation returns. -/
inductive FencingOutcome where
  | lease (lease : AcquiredIndexerLease)
  | row (row : IndexerStatusRow)

/-- One transaction on the rows of the profile. -/
def FencingOperation.perform (clock : ClockReadings) (rows : ProfileRows) :
    FencingOperation → Except Thrown (FencingOutcome × ProfileRows)
  | .acquire input => do
      let (lease, rows) ← acquireIndexerLease input clock rows
      pure (.lease lease, rows)
  | .renew token leaseDurationMs => do
      let (lease, rows) ← renewIndexerLease token leaseDurationMs clock rows
      pure (.lease lease, rows)
  | .update token input => do
      let (row, rows) ← updateIndexerStatus token input clock rows
      pure (.row row, rows)
  | .release token => do
      let (row, rows) ← releaseIndexerLease token clock rows
      pure (.row row, rows)
  | .halt token input errorCode => do
      let (row, rows) ← haltIndexer token input errorCode clock rows
      pure (.row row, rows)
  | .lock token => do
      let row ← lockActiveIndexerLease token clock.filter rows
      pure (.row row, rows)

/-- An operation together with what came of it. -/
structure FencingEvent where
  operation : FencingOperation
  result : Except Thrown FencingOutcome

/-- The rows of the profile and the last instant the database clock has shown. -/
structure FencingState where
  rows : ProfileRows
  clock : Instant

/-- One transaction of some process. -/
inductive FencingStep : FencingState → FencingEvent → FencingState → Prop
  | commit {s : FencingState} {operation : FencingOperation} {clock : ClockReadings}
      {outcome : FencingOutcome} {rows : ProfileRows} (later : s.clock ≤ clock.filter)
      (success : operation.perform clock s.rows = .ok (outcome, rows)) :
      FencingStep s ⟨operation, .ok outcome⟩ ⟨rows, clock.updated⟩
  | rollback {s : FencingState} {operation : FencingOperation} {clock : ClockReadings}
      {error : Thrown} (later : s.clock ≤ clock.filter)
      (failure : operation.perform clock s.rows = .error error) :
      FencingStep s ⟨operation, .error error⟩ ⟨s.rows, clock.updated⟩

namespace FencingEvent

/-- The operation threw. -/
def Fails (e : FencingEvent) : Prop :=
  ∃ error, e.result = .error error

/-- The event is a successful acquisition of a lease. -/
def Acquires (e : FencingEvent) (lease : AcquiredIndexerLease) : Prop :=
  (∃ input, e.operation = .acquire input) ∧ e.result = .ok (.lease lease)

/-- The token an operation carries; an acquisition carries none. -/
def token (e : FencingEvent) : Option IndexerLeaseToken :=
  match e.operation with
  | .acquire _ => none
  | .renew token _ => some token
  | .update token _ => some token
  | .release token => some token
  | .halt token _ _ => some token
  | .lock token => some token

/-- The event is a successful operation that carries a token. -/
def Succeeds (e : FencingEvent) (token : IndexerLeaseToken) : Prop :=
  e.token = some token ∧ ∃ outcome, e.result = .ok outcome

/-- The event is a successful release or halt with a token. -/
def Retires (e : FencingEvent) (token : IndexerLeaseToken) : Prop :=
  (e.operation = .release token ∨ ∃ input errorCode, e.operation = .halt token input errorCode)
    ∧ ∃ outcome, e.result = .ok outcome

end FencingEvent

/-! ## The row as a fenced register -/

/-- The register a status row implements. -/
def register (rows : ProfileRows) : Fence.Register JsString where
  epoch := rows.epoch
  holder := rows.indexerStatus.bind (·.writerId)

/-- What an event does to the register. -/
def registerEvent (e : FencingEvent) : Fence.Event JsString :=
  match e.operation, e.result with
  | .acquire _, .ok (.lease lease) => .grant lease.writerId lease.epoch
  | .renew token _, .ok _ => .use token.writerId token.epoch
  | .update token _, .ok _ => .use token.writerId token.epoch
  | .lock token, .ok _ => .use token.writerId token.epoch
  | .release token, .ok _ => .retire token.writerId token.epoch
  | .halt token _ _, .ok _ => .retire token.writerId token.epoch
  | _, _ => .idle

theorem register_some {rows : ProfileRows} {row : IndexerStatusRow} :
    register { rows with indexerStatus := some row } = ⟨row.writerEpoch, row.writerId⟩ := rfl

theorem holds_of_tokenFilter {rows : ProfileRows} {row : IndexerStatusRow}
    {token : IndexerLeaseToken} (hrow : rows.indexerStatus = some row)
    (h : tokenFilter token row = true) : (register rows).Holds token.writerId token.epoch := by
  simp only [tokenFilter, Bool.and_eq_true, beq_iff_eq] at h
  exact ⟨by simp [register, hrow, h.1], by simp [register, ProfileRows.epoch, hrow, h.2]⟩

theorem tokenFilter_of_active {token : IndexerLeaseToken} {now : Instant}
    {row : IndexerStatusRow} (h : activeTokenFilter token now row = true) :
    tokenFilter token row = true := by
  rw [activeTokenFilter, Bool.and_eq_true] at h
  exact h.1

/-- What a successful operation found, and the rows it left. -/
inductive LeaseEffect (clock : ClockReadings) (rows : ProfileRows) :
    FencingOperation → FencingOutcome → ProfileRows → Prop
  | acquired {input : AcquireIndexerLeaseInput} {lease : AcquiredIndexerLease}
      (writer : lease.writerId = input.writerId) (profile : lease.profileId = input.profileId)
      (epoch : lease.epoch = rows.epoch + 1)
      (checks : ∀ c ∈ (acquiredRow lease.writerId lease.epoch input.leaseDurationMs clock).checks,
        c.2 = true) :
      LeaseEffect clock rows (.acquire input) (.lease lease)
        { rows with
          indexerStatus :=
            some (acquiredRow lease.writerId lease.epoch input.leaseDurationMs clock) }
  | renewed {token : IndexerLeaseToken} {leaseDurationMs : ℕ} {lease : AcquiredIndexerLease}
      {row row' : IndexerStatusRow} (found : rows.indexerStatus = some row)
      (active : activeTokenFilter token clock.filter row = true)
      (checks : ∀ c ∈ row'.checks, c.2 = true)
      (set : row' = { row with
        leaseExpiresAt := some (clock.lease + leaseDurationMs * 1000)
        updatedAt := clock.updated }) :
      LeaseEffect clock rows (.renew token leaseDurationMs) (.lease lease)
        { rows with indexerStatus := some row' }
  | updated {token : IndexerLeaseToken} {input : IndexerStatusUpdateInput}
      {row row' : IndexerStatusRow} {value : NormalizedIndexerStatus}
      (found : rows.indexerStatus = some row)
      (active : activeTokenFilter token clock.filter row = true)
      (normal : normalizeStatus (.writable input.state) input.toStatusFields = .ok value)
      (checks : ∀ c ∈ row'.checks, c.2 = true) (set : row' = row.withStatus value clock.updated) :
      LeaseEffect clock rows (.update token input) (.row row')
        { rows with indexerStatus := some row' }
  | released {token : IndexerLeaseToken} {row row' : IndexerStatusRow}
      (found : rows.indexerStatus = some row) (shown : tokenFilter token row = true)
      (checks : ∀ c ∈ row'.checks, c.2 = true) (set : row' = row.released clock.updated) :
      LeaseEffect clock rows (.release token) (.row row') { rows with indexerStatus := some row' }
  | halted {token : IndexerLeaseToken} {input : StatusFields} {errorCode : JsString}
      {row row' : IndexerStatusRow} {value : NormalizedIndexerStatus}
      {incident : IndexerIncidentRow} (found : rows.indexerStatus = some row)
      (shown : tokenFilter token row = true)
      (normal : normalizeStatus (.halted errorCode) input = .ok value)
      (checks : ∀ c ∈ row'.checks, c.2 = true) (set : row' = row.halted value clock.updated) :
      LeaseEffect clock rows (.halt token input errorCode) (.row row')
        { rows with
          indexerStatus := some row'
          indexerIncidents := rows.indexerIncidents ++ [incident] }
  | locked {token : IndexerLeaseToken} {row : IndexerStatusRow}
      (found : rows.indexerStatus = some row)
      (active : activeTokenFilter token clock.filter row = true) :
      LeaseEffect clock rows (.lock token) (.row row) rows

/-- **Inversion.**  The six ways in which an operation on the lease can succeed. -/
theorem FencingOperation.perform_ok {clock : ClockReadings} {rows rows' : ProfileRows}
    {operation : FencingOperation} {outcome : FencingOutcome}
    (h : operation.perform clock rows = .ok (outcome, rows')) :
    LeaseEffect clock rows operation outcome rows' := by
  cases operation with
  | acquire input =>
      simp only [perform, bind_eq_ok, pure_eq_ok, Prod.exists, Prod.mk.injEq] at h
      obtain ⟨lease, _, h, rfl, rfl⟩ := h
      obtain ⟨hwriter, hprofile, hepoch, hchecks, rfl⟩ := acquireIndexerLease_ok h
      exact .acquired hwriter hprofile hepoch hchecks
  | renew token duration =>
      simp only [perform, bind_eq_ok, pure_eq_ok, Prod.exists, Prod.mk.injEq] at h
      obtain ⟨lease, _, h, rfl, rfl⟩ := h
      obtain ⟨row, row', hrow, hactive, hchecks, hset, rfl⟩ := renewIndexerLease_ok h
      exact .renewed hrow hactive hchecks hset
  | update token input =>
      simp only [perform, bind_eq_ok, pure_eq_ok, Prod.exists, Prod.mk.injEq] at h
      obtain ⟨row', _, h, rfl, rfl⟩ := h
      obtain ⟨row, value, hrow, hactive, hvalue, hchecks, hset, rfl⟩ := updateIndexerStatus_ok h
      exact .updated hrow hactive hvalue hchecks hset
  | release token =>
      simp only [perform, bind_eq_ok, pure_eq_ok, Prod.exists, Prod.mk.injEq] at h
      obtain ⟨row', _, h, rfl, rfl⟩ := h
      obtain ⟨row, hrow, hshown, hchecks, hset, rfl⟩ := releaseIndexerLease_ok h
      exact .released hrow hshown hchecks hset
  | halt token input errorCode =>
      simp only [perform, bind_eq_ok, pure_eq_ok, Prod.exists, Prod.mk.injEq] at h
      obtain ⟨row', _, h, rfl, rfl⟩ := h
      obtain ⟨row, value, incident, hrow, hshown, hvalue, hchecks, hset, rfl⟩ := haltIndexer_ok h
      exact .halted hrow hshown hvalue hchecks hset
  | lock token =>
      simp only [perform, bind_eq_ok, pure_eq_ok, Prod.mk.injEq] at h
      obtain ⟨row, h, rfl, rfl⟩ := h
      obtain ⟨-, hrow, hactive⟩ := lockActiveIndexerLease_eq_ok.mp h
      exact .locked hrow hactive

/-- **Refinement.**  Every transaction on the status row is a step of the fenced register. -/
theorem LeaseEffect.refines {clock : ClockReadings} {rows rows' : ProfileRows}
    {operation : FencingOperation} {outcome : FencingOutcome}
    (h : LeaseEffect clock rows operation outcome rows') :
    Fence.Step (register rows) (registerEvent ⟨operation, .ok outcome⟩) (register rows') := by
  -- a row that keeps its writer and its epoch is the same register
  have hkept : ∀ {row row' : IndexerStatusRow}, rows.indexerStatus = some row →
      row'.writerId = row.writerId → row'.writerEpoch = row.writerEpoch →
      register { rows with indexerStatus := some row' } = register rows := by
    intro row row' hrow hwriter hepoch
    rw [register_some, hwriter, hepoch, register, ProfileRows.epoch, hrow]
    rfl
  have hretired : ∀ {token : IndexerLeaseToken} {row : IndexerStatusRow},
      rows.indexerStatus = some row → tokenFilter token row = true →
      Fence.Step (register rows) (.retire token.writerId token.epoch) ⟨row.writerEpoch, none⟩ := by
    intro token row hrow hshown
    have hholds := holds_of_tokenFilter hrow hshown
    have hepoch : row.writerEpoch = token.epoch := by
      rw [← hholds.2, register, ProfileRows.epoch, hrow]
      rfl
    rw [hepoch]
    exact .retire hholds
  cases h with
  | acquired writer profile epoch checks =>
      refine .grant ?_
      rw [register, epoch]
      exact Nat.lt_succ_self _
  | renewed found active checks set =>
      rw [hkept found (by rw [set]) (by rw [set])]
      exact .use (holds_of_tokenFilter found (tokenFilter_of_active active))
  | updated found active normal checks set =>
      rw [hkept found (by rw [set]; rfl) (by rw [set]; rfl)]
      exact .use (holds_of_tokenFilter found (tokenFilter_of_active active))
  | released found shown checks set =>
      have hstep := hretired found shown
      rw [set]
      exact hstep
  | halted found shown normal checks set =>
      have hstep := hretired found shown
      rw [set]
      exact hstep
  | locked found active => exact .use (holds_of_tokenFilter found (tokenFilter_of_active active))

theorem FencingStep.refines {s t : FencingState} {e : FencingEvent} (h : FencingStep s e t) :
    Fence.Step (register s.rows) (registerEvent e) (register t.rows) := by
  cases h with
  | rollback later failure =>
      rename_i operation _ _
      cases operation <;> exact .idle
  | commit later success => exact (FencingOperation.perform_ok success).refines

/-- No operation on the lease touches the projection. -/
theorem LeaseEffect.projection {clock : ClockReadings} {rows rows' : ProfileRows}
    {operation : FencingOperation} {outcome : FencingOutcome}
    (h : LeaseEffect clock rows operation outcome rows') :
    rows'.toProjectionRows = rows.toProjectionRows := by
  cases h <;> rfl

/-- The row an operation leaves is the one it found, or one that was checked and carries the
instant of the operation. -/
theorem LeaseEffect.row {clock : ClockReadings} {rows rows' : ProfileRows}
    {operation : FencingOperation} {outcome : FencingOutcome}
    (h : LeaseEffect clock rows operation outcome rows') :
    rows'.indexerStatus = rows.indexerStatus ∨
      ∃ row, rows'.indexerStatus = some row ∧ (∀ c ∈ row.checks, c.2 = true) ∧
        row.updatedAt = clock.updated := by
  cases h with
  | acquired writer profile epoch checks => exact Or.inr ⟨_, rfl, checks, rfl⟩
  | renewed found active checks set => exact Or.inr ⟨_, rfl, checks, by rw [set]⟩
  | updated found active normal checks set => exact Or.inr ⟨_, rfl, checks, by rw [set]; rfl⟩
  | released found shown checks set => exact Or.inr ⟨_, rfl, checks, by rw [set]; rfl⟩
  | halted found shown normal checks set => exact Or.inr ⟨_, rfl, checks, by rw [set]; rfl⟩
  | locked found active => exact Or.inl rfl

/-! ## The constraints of the stored row -/

/-- The stored status row satisfies its `CHECK` constraints. -/
def StatusValid (rows : ProfileRows) : Prop :=
  ∀ row, rows.indexerStatus = some row → ∀ c ∈ row.checks, c.2 = true

/-- PostgreSQL lets no transaction leave a row that violates a constraint. -/
theorem FencingStep.statusValid {s t : FencingState} {e : FencingEvent} (hs : StatusValid s.rows)
    (h : FencingStep s e t) : StatusValid t.rows := by
  cases h with
  | rollback later failure => exact hs
  | commit later success =>
      intro row hrow
      rcases (FencingOperation.perform_ok success).row with hsame | ⟨row', hrow', hchecks, -⟩
      · exact hs row (hsame ▸ hrow)
      · obtain rfl := Option.some.inj (hrow.symm.trans hrow')
        exact hchecks

theorem StatusValid.epoch_le {rows : ProfileRows} (h : StatusValid rows) :
    rows.epoch ≤ maxSafeInteger := by
  cases hrow : rows.indexerStatus with
  | none =>
      rw [ProfileRows.epoch, hrow]
      exact Nat.zero_le _
  | some row =>
      have hchecks := h row hrow
      rw [ProfileRows.epoch, hrow]
      simp only [IndexerStatusRow.checks, List.forall_mem_cons, decide_eq_true_eq] at hchecks
      exact hchecks.2.2.2.2.2.2.2.2.1.2

/-! ## The contract of the lease -/

/-- The epochs of the leases acquired along a history. -/
def acquiredEpochs (tr : List FencingEvent) : List ℕ :=
  tr.filterMap fun e =>
    match e.operation, e.result with
    | .acquire _, .ok (.lease lease) => some lease.epoch
    | _, _ => none

theorem grants_registerEvent (tr : List FencingEvent) :
    Fence.grants (tr.map registerEvent) = acquiredEpochs tr := by
  rw [Fence.grants, List.filterMap_map, acquiredEpochs]
  congr 1
  funext e
  obtain ⟨operation, result⟩ := e
  rcases operation with _ | _ | _ | _ | _ | _ <;> rcases result with _ | (_ | _) <;> rfl

theorem registerEvent_of_acquires {e : FencingEvent} {lease : AcquiredIndexerLease}
    (h : e.Acquires lease) : registerEvent e = .grant lease.writerId lease.epoch := by
  obtain ⟨operation, result⟩ := e
  obtain ⟨⟨input, rfl⟩, rfl⟩ := h
  rfl

theorem registerEvent_of_retires {e : FencingEvent} {token : IndexerLeaseToken}
    (h : e.Retires token) : registerEvent e = .retire token.writerId token.epoch := by
  obtain ⟨operation, result⟩ := e
  obtain ⟨rfl | ⟨input, errorCode, rfl⟩, outcome, rfl⟩ := h <;> rfl

theorem registerEvent_of_succeeds {e : FencingEvent} {token : IndexerLeaseToken}
    (h : e.Succeeds token) :
    registerEvent e = .use token.writerId token.epoch ∨
      registerEvent e = .retire token.writerId token.epoch := by
  obtain ⟨operation, result⟩ := e
  obtain ⟨htoken, outcome, rfl⟩ := h
  cases operation <;> cases htoken
  · exact Or.inl rfl
  · exact Or.inl rfl
  · exact Or.inr rfl
  · exact Or.inr rfl
  · exact Or.inl rfl

/-- A successful operation shows the installed token. -/
theorem holds_of_succeeds {s t : FencingState} {e : FencingEvent} {token : IndexerLeaseToken}
    (hstep : FencingStep s e t) (h : e.Succeeds token) :
    (register s.rows).Holds token.writerId token.epoch := by
  have hrefines := hstep.refines
  rcases registerEvent_of_succeeds h with he | he
  · exact (he ▸ hrefines).of_use
  · exact (he ▸ hrefines).of_retire

/-- The fence lets a token pass only when the row shows it. -/
theorem holds_of_lock {token : IndexerLeaseToken} {now : Instant} {rows : ProfileRows}
    {row : IndexerStatusRow} (h : lockActiveIndexerLease token now rows = .ok row) :
    (register rows).Holds token.writerId token.epoch := by
  have hstep : FencingStep ⟨rows, now⟩ ⟨.lock token, .ok (.row row)⟩ ⟨rows, now⟩ :=
    @FencingStep.commit ⟨rows, now⟩ (.lock token) ⟨now, now, now, le_rfl, le_rfl⟩ (.row row) rows
      le_rfl (by simp [FencingOperation.perform, h])
  exact holds_of_succeeds hstep ⟨rfl, _, rfl⟩

/-- **The lease fences.**  From rows that satisfy their constraints, after any run of operations
of any processes:

* the stored epoch is a safe integer, and the epochs acquired along the run are strictly
  increasing;
* at most one token passes the fence, at whatever instants it is asked;
* the next operation leaves the rows alone when it fails, stores a larger epoch when it acquires
  the lease, and succeeds with a token only when no later lease was acquired and the token was
  not released or halted before. -/
theorem indexer_lease_fencing {s t : FencingState} {tr : List FencingEvent}
    (valid : StatusValid s.rows) (run : Run FencingStep s tr t) :
    t.rows.epoch ≤ maxSafeInteger ∧ (acquiredEpochs tr).Pairwise (· < ·) ∧
    (∀ token token' now now' row row',
      lockActiveIndexerLease token now t.rows = .ok row →
      lockActiveIndexerLease token' now' t.rows = .ok row' →
      token.writerId = token'.writerId ∧ token.epoch = token'.epoch) ∧
    ∀ e u, FencingStep t e u →
      (e.Fails → u.rows = t.rows) ∧
      (∀ lease, e.Acquires lease → t.rows.epoch < lease.epoch ∧ u.rows.epoch = lease.epoch) ∧
      ∀ token, e.Succeeds token →
        (∀ e₀ ∈ tr, ∀ lease, e₀.Acquires lease → lease.epoch ≤ token.epoch) ∧
        ∀ e₀ ∈ tr, ∀ token₀, e₀.Retires token₀ → token₀.epoch < token.epoch := by
  have hvalid : StatusValid t.rows :=
    run.invariant (P := fun s => StatusValid s.rows) (fun _ _ _ hs h => h.statusValid hs) valid
  have hregister : Run Fence.Step (register s.rows) (tr.map registerEvent) (register t.rows) :=
    run.simulate (fun s => register s.rows) registerEvent fun _ _ _ h => h.refines
  refine ⟨hvalid.epoch_le, ?_, ?_, fun e u hstep => ⟨?_, ?_, ?_⟩⟩
  · rw [← grants_registerEvent]
    exact Fence.pairwise_grants hregister
  · intro token token' now now' row row' h h'
    exact (holds_of_lock h).unique (holds_of_lock h')
  · rintro ⟨error, herror⟩
    cases hstep with
    | commit => cases herror
    | rollback => rfl
  · intro lease hlease
    have hrefines := hstep.refines
    rw [registerEvent_of_acquires hlease] at hrefines
    exact hrefines.of_grant
  · intro token htoken
    have hholds := holds_of_succeeds hstep htoken
    constructor
    · intro e₀ he₀ lease hlease
      by_contra hlt
      have hmem := List.mem_map_of_mem (f := registerEvent) he₀
      rw [registerEvent_of_acquires hlease] at hmem
      exact Fence.not_holds_of_grant hregister hmem (Nat.lt_of_not_le hlt) hholds
    · intro e₀ he₀ token₀ hretires
      by_contra hle
      have hmem := List.mem_map_of_mem (f := registerEvent) he₀
      rw [registerEvent_of_retires hretires] at hmem
      exact Fence.not_holds_of_retire hregister hmem (Nat.le_of_not_lt hle) hholds

/-- The rows of a profile that is registered and was never written to. -/
def registeredRows : ProfileRows :=
  { ProfileRows.empty with
    networkProfile := some
      { profileId := js "testnet"
        xcsVersion := js "0.1"
        networkId := 1
        requiredAmendment := List.replicate 64 0x41
        registryAddress := js "rrrrrrrrrrrrrrrrrrrrrhoLvTp"
        registrationAmountDrops := 1
        activationLedgerIndex := 7
        activationLedgerHash := List.replicate 64 0x61 } }

/-- A clock that shows one instant during a whole statement. -/
def ClockReadings.at (now : Instant) : ClockReadings :=
  ⟨now, now, now, le_rfl, le_rfl⟩

/-- The registered profile while a writer holds the lease. -/
def leasedRows : ProfileRows :=
  { registeredRows with indexerStatus := some (acquiredRow (js "a") 1 10000 (.at 0)) }

/-- One writer acquires the lease for ten seconds, a second one takes it over the moment it
expires, and the contract holds of that run. -/
theorem indexer_lease_fencing_takeover :
    ∃ (tr : List FencingEvent) (t : FencingState),
      Run FencingStep ⟨registeredRows, 0⟩ tr t ∧ acquiredEpochs tr = [1, 2] ∧
        t.rows.epoch ≤ maxSafeInteger ∧ (acquiredEpochs tr).Pairwise (· < ·) := by
  have first : FencingStep ⟨registeredRows, 0⟩ _ _ :=
    @FencingStep.commit ⟨registeredRows, 0⟩ (.acquire ⟨js "testnet", js "a", 10000⟩) (.at 0)
      (.lease ⟨⟨js "testnet", js "a", 1⟩, 10000000⟩) leasedRows le_rfl rfl
  have second : FencingStep ⟨leasedRows, 0⟩ _ _ :=
    @FencingStep.commit _ (.acquire ⟨js "testnet", js "b", 10000⟩) (.at 10000000)
      (.lease ⟨⟨js "testnet", js "b", 2⟩, 20000000⟩)
      { registeredRows with indexerStatus := some (acquiredRow (js "b") 2 10000 (.at 10000000)) }
      (Nat.zero_le _) rfl
  have run := ((Run.nil _).snoc first).snoc second
  have valid : StatusValid registeredRows := by
    intro row hrow
    cases hrow
  exact ⟨_, _, run, rfl, (indexer_lease_fencing valid run).1,
    (indexer_lease_fencing valid run).2.1⟩

end Db
end Xcs
